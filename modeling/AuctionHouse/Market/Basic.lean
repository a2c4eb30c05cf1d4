/-
An auction house as a market of users and items: what everyone holds, the book of open orders,
and the deals that change them. Items on sale and standing bids are held in escrow by the book;
`Market.apply` says what each deal moves, and every result about the market is derived from it.
-/
import Mathlib.Algebra.Order.BigOperators.Group.List
import Mathlib.Data.List.Nodup
import Mathlib.Tactic.Common
import Mathlib.Tactic.Ring

namespace AuctionHouse

/-! ## Orders -/

/-- An order is sold to the first buyer at its price, or to the highest bidder when it expires. -/
inductive Terms (U : Type) where
  | immediate
  | auction (bidder : Option U)

/-- An open order. The price of an auction is its starting price, then the highest bid. -/
structure Order (U I : Type) where
  id : ℤ
  seller : U
  item : I
  quantity : ℤ
  price : ℤ
  expires : ℤ
  terms : Terms U

namespace Order

variable {U I : Type}

/-- The standing bidder. -/
def bidder (o : Order U I) : Option U :=
  match o.terms with
  | .immediate => none
  | .auction b => b

def isImmediate (o : Order U I) : Bool :=
  match o.terms with
  | .immediate => true
  | .auction _ => false

/-- The order after a bid. -/
def bidBy (o : Order U I) (u : U) (b : ℤ) : Order U I := { o with terms := .auction (some u), price := b }

@[simp] theorem id_bidBy (o : Order U I) (u : U) (b : ℤ) : (o.bidBy u b).id = o.id := rfl
@[simp] theorem seller_bidBy (o : Order U I) (u : U) (b : ℤ) : (o.bidBy u b).seller = o.seller := rfl
@[simp] theorem price_bidBy (o : Order U I) (u : U) (b : ℤ) : (o.bidBy u b).price = b := rfl
@[simp] theorem bidder_bidBy (o : Order U I) (u : U) (b : ℤ) : (o.bidBy u b).bidder = some u := rfl

theorem bidder_immediate {o : Order U I} (h : o.terms = .immediate) : o.bidder = none := by
  unfold bidder; rw [h]

end Order

/-! ## Markets and deals -/

/-- What users hold, the open orders, and the largest id given to an order so far. -/
structure Market (U I : Type) where
  stock : U → I → ℤ
  book : List (Order U I)
  issued : ℤ

/-- A deal. `spoiled` is a quantity destroyed on the way: a sound house has none. -/
inductive Deal (U I : Type) where
  | nothing
  | deposit (u : U) (i : I) (q : ℤ)
  | withdraw (u : U) (i : I) (q spoiled : ℤ)
  | place (o : Order U I) (fee spoiled : ℤ)
  | purchase (u : U) (o : Order U I)
  | bid (u : U) (o : Order U I) (b : ℤ)
  | settle (now : ℤ)

section

variable {U I : Type} [DecidableEq U] [DecidableEq I] (funds : I)

/-- `a` of item `i` for user `u`. -/
def give (u : U) (i : I) (a : ℤ) (v : U) (j : I) : ℤ := if v = u ∧ j = i then a else 0

/-- What the end of an order's time delivers: its items to the highest bidder and the bid to the
seller, or the items back to the seller. -/
def payout (o : Order U I) (v : U) (j : I) : ℤ :=
  match o.bidder with
  | some w => give w o.item o.quantity v j + give o.seller funds o.price v j
  | none => give o.seller o.item o.quantity v j

/-- The return of the standing bid. -/
def refund (o : Order U I) (v : U) (j : I) : ℤ :=
  match o.bidder with
  | some w => give w funds o.price v j
  | none => 0

namespace Market

/-- The orders whose time is over. -/
def due (m : Market U I) (now : ℤ) : List (Order U I) := m.book.filter fun o => decide (o.expires ≤ now)

/-- What a deal adds to each holding. -/
def delta (m : Market U I) : Deal U I → U → I → ℤ
  | .nothing, _, _ => 0
  | .deposit u i q, v, j => give u i q v j
  | .withdraw u i q spoiled, v, j => -give u i (q + spoiled) v j
  | .place o fee spoiled, v, j => -give o.seller o.item (o.quantity + spoiled) v j - give o.seller funds fee v j
  | .purchase u o, v, j =>
    give o.seller funds o.price v j + give u o.item o.quantity v j - give u funds o.price v j
  | .bid u o b, v, j => refund funds o v j - give u funds b v j
  | .settle now, v, j => ((m.due now).map fun o => payout funds o v j).sum

/-- The book after a deal. -/
def bookAfter (m : Market U I) : Deal U I → List (Order U I)
  | .place o _ _ => m.book ++ [o]
  | .purchase _ o => m.book.filter fun o' => decide (o'.id ≠ o.id)
  | .bid u o b => m.book.map fun o' => if o'.id = o.id then o.bidBy u b else o'
  | .settle now => m.book.filter fun o => !decide (o.expires ≤ now)
  | _ => m.book

def issuedAfter (m : Market U I) : Deal U I → ℤ
  | .place o _ _ => o.id
  | _ => m.issued

def apply (m : Market U I) (d : Deal U I) : Market U I where
  stock v j := m.stock v j + m.delta funds d v j
  book := m.bookAfter d
  issued := m.issuedAfter d

/-- When a deal can be made. -/
def Allowed (m : Market U I) : Deal U I → Prop
  | .nothing => True
  | .deposit _ _ q => 0 ≤ q
  | .withdraw u i q spoiled => 0 ≤ q ∧ 0 ≤ spoiled ∧ (i = funds → spoiled = 0) ∧ q + spoiled ≤ m.stock u i
  | .place o fee spoiled =>
    m.issued < o.id ∧ 0 < o.quantity ∧ 0 < o.price ∧ o.item ≠ funds ∧ o.bidder = none ∧ 0 ≤ fee ∧ 0 ≤ spoiled ∧
      o.quantity + spoiled ≤ m.stock o.seller o.item ∧ fee ≤ m.stock o.seller funds
  | .purchase u o => o ∈ m.book ∧ o.terms = .immediate ∧ u ≠ o.seller ∧ o.price ≤ m.stock u funds
  | .bid u o b =>
    o ∈ m.book ∧ o.isImmediate = false ∧ u ≠ o.seller ∧ o.price < b ∧ b ≤ m.stock u funds + refund funds o u funds
  | .settle _ => True

/-- A well-formed market: ids are unique and below the counter, orders sell a positive quantity of
an item other than funds at a positive price, nobody bids on an own order, and no holding is
negative. -/
structure WF (m : Market U I) : Prop where
  ids : (m.book.map (·.id)).Nodup
  issued : ∀ o ∈ m.book, o.id ≤ m.issued
  quantity : ∀ o ∈ m.book, 0 < o.quantity
  price : ∀ o ∈ m.book, 0 < o.price
  item : ∀ o ∈ m.book, o.item ≠ funds
  bidder : ∀ o ∈ m.book, o.bidder ≠ some o.seller
  stock : ∀ u i, 0 ≤ m.stock u i

end Market

/-! ## Holdings -/

theorem give_self (u : U) (i : I) (a : ℤ) : give u i a u i = a := by simp [give]

theorem give_of_ne_user {u v : U} (h : v ≠ u) (i j : I) (a : ℤ) : give u i a v j = 0 := by simp [give, h]

theorem give_of_ne_item {i j : I} (h : j ≠ i) (u v : U) (a : ℤ) : give u i a v j = 0 := by simp [give, h]

theorem give_nonneg {a : ℤ} (h : 0 ≤ a) (u v : U) (i j : I) : 0 ≤ give u i a v j := by
  unfold give; split
  · exact h
  · exact le_rfl

theorem give_le {a : ℤ} {u : U} {i : I} {s : U → I → ℤ} (hs : ∀ v j, 0 ≤ s v j) (h : a ≤ s u i) (v : U) (j : I) :
    give u i a v j ≤ s v j := by
  unfold give; split
  · rename_i hk; obtain ⟨rfl, rfl⟩ := hk; exact h
  · exact hs v j

theorem payout_nonneg {o : Order U I} (hq : 0 ≤ o.quantity) (hp : 0 ≤ o.price) (v : U) (j : I) :
    0 ≤ payout funds o v j := by
  unfold payout
  split
  · exact add_nonneg (give_nonneg hq ..) (give_nonneg hp ..)
  · exact give_nonneg hq ..

theorem refund_nonneg {o : Order U I} (hp : 0 ≤ o.price) (v : U) (j : I) : 0 ≤ refund funds o v j := by
  unfold refund
  split
  · exact give_nonneg hp ..
  · exact le_rfl

end

/-! ## The book after a deal -/

namespace Market

variable {U I : Type} {funds : I} {m : Market U I}

/-- A deal on an order of the book finds that order by its id. -/
theorem eq_of_id {o o' : Order U I} (hw : m.WF funds) (h : o ∈ m.book) (h' : o' ∈ m.book) (hid : o.id = o'.id) :
    o = o' := List.inj_on_of_nodup_map hw.ids h h' hid

theorem mem_bookAfter_bid {u : U} {o o' : Order U I} {b : ℤ} (h : o' ∈ m.bookAfter (.bid u o b)) :
    (o' ∈ m.book ∧ o'.id ≠ o.id) ∨ o' = o.bidBy u b := by
  obtain ⟨x, hx, rfl⟩ := List.mem_map.1 h
  split
  · exact .inr rfl
  · rename_i hne; exact .inl ⟨hx, hne⟩

theorem ids_bookAfter_bid (u : U) (o : Order U I) (b : ℤ) :
    (m.bookAfter (.bid u o b)).map (·.id) = m.book.map (·.id) := by
  simp only [bookAfter, List.map_map]
  apply List.map_congr_left
  intro x _
  simp only [Function.comp_apply]
  split
  · rename_i h; exact h.symm
  · rfl

/-- What every order of the book after a deal is. -/
theorem mem_bookAfter {d : Deal U I} {o' : Order U I} (h : o' ∈ m.bookAfter d) :
    o' ∈ m.book ∨ (∃ fee spoiled, d = .place o' fee spoiled) ∨ ∃ u o b, d = .bid u o b ∧ o' = o.bidBy u b := by
  cases d with
  | place o fee spoiled =>
    rcases List.mem_append.1 h with h | h
    · exact .inl h
    · rw [List.mem_singleton.1 h]; exact .inr (.inl ⟨fee, spoiled, rfl⟩)
  | purchase u o => exact .inl (List.mem_filter.1 h).1
  | bid u o b =>
    rcases mem_bookAfter_bid h with h | h
    · exact .inl h.1
    · exact .inr (.inr ⟨u, o, b, rfl, h⟩)
  | settle now => exact .inl (List.mem_filter.1 h).1
  | nothing => exact .inl h
  | deposit u i q => exact .inl h
  | withdraw u i q spoiled => exact .inl h

/-! ## Deals keep the market well-formed -/

variable [DecidableEq U] [DecidableEq I]

theorem delta_ge {d : Deal U I} (hw : m.WF funds) (ha : m.Allowed funds d) (v : U) (j : I) :
    0 ≤ m.stock v j + m.delta funds d v j := by
  have h0 := hw.stock v j
  cases d with
  | nothing => simpa [delta] using h0
  | deposit u i q => exact add_nonneg h0 (give_nonneg ha ..)
  | withdraw u i q spoiled =>
    have := give_le hw.stock ha.2.2.2 v j
    simp only [delta]
    omega
  | place o fee spoiled =>
    obtain ⟨-, -, -, hi, -, -, -, hq, hf⟩ := ha
    have h1 := give_le hw.stock hq v j
    have h2 := give_le hw.stock hf v j
    simp only [delta]
    -- the items and the fee are charged to different holdings
    by_cases hj : j = funds
    · rw [give_of_ne_item (hj ▸ Ne.symm hi)]; omega
    · rw [give_of_ne_item hj _ _ fee]; omega
  | purchase u o =>
    obtain ⟨hm, -, -, hp⟩ := ha
    have h1 := give_le hw.stock hp v j
    have h2 := give_nonneg (hw.price o hm).le o.seller v funds j
    have h3 := give_nonneg (hw.quantity o hm).le u v o.item j
    simp only [delta]
    omega
  | bid u o b =>
    -- the bid is covered once the standing one is returned
    obtain ⟨hm, -, -, -, hb⟩ := ha
    have hr := refund_nonneg funds (hw.price o hm).le
    have := give_le (s := fun v j => m.stock v j + refund funds o v j)
      (fun v j => add_nonneg (hw.stock v j) (hr v j)) hb v j
    simp only [delta]
    omega
  | settle now =>
    refine add_nonneg h0 (List.sum_nonneg fun x hx => ?_)
    obtain ⟨o, ho, rfl⟩ := List.mem_map.1 hx
    have hm := (List.mem_filter.1 ho).1
    exact payout_nonneg funds (hw.quantity o hm).le (hw.price o hm).le v j

theorem issued_le {d : Deal U I} (ha : m.Allowed funds d) : m.issued ≤ m.issuedAfter d := by
  cases d with
  | place o fee spoiled => exact ha.1.le
  | _ => exact le_rfl

theorem nodup_bookAfter {d : Deal U I} (hw : m.WF funds) (ha : m.Allowed funds d) :
    ((m.bookAfter d).map (·.id)).Nodup := by
  cases d with
  | place o fee spoiled =>
    simp only [bookAfter, List.map_append, List.map_cons, List.map_nil]
    refine List.nodup_append.2 ⟨hw.ids, List.nodup_singleton _, ?_⟩
    intro a hma b hmb
    obtain ⟨x, hx, rfl⟩ := List.mem_map.1 hma
    rw [List.mem_singleton.1 hmb]
    exact ((hw.issued x hx).trans_lt ha.1).ne
  | purchase u o => exact hw.ids.sublist (List.filter_sublist.map _)
  | bid u o b => rw [ids_bookAfter_bid]; exact hw.ids
  | settle now => exact hw.ids.sublist (List.filter_sublist.map _)
  | nothing => exact hw.ids
  | deposit u i q => exact hw.ids
  | withdraw u i q spoiled => exact hw.ids

theorem wf_apply {d : Deal U I} (hw : m.WF funds) (ha : m.Allowed funds d) : (m.apply funds d).WF funds := by
  refine ⟨nodup_bookAfter hw ha, fun o' h => ?_, fun o' h => ?_, fun o' h => ?_, fun o' h => ?_, fun o' h => ?_,
    delta_ge hw ha⟩
  all_goals rcases mem_bookAfter h with h | ⟨fee, spoiled, rfl⟩ | ⟨u, o, b, rfl, rfl⟩
  · exact (hw.issued o' h).trans (issued_le ha)
  · exact le_rfl
  · exact (hw.issued o ha.1).trans (issued_le ha)
  · exact hw.quantity o' h
  · exact ha.2.1
  · exact hw.quantity o ha.1
  · exact hw.price o' h
  · exact ha.2.2.1
  · exact (hw.price o ha.1).trans ha.2.2.2.1
  · exact hw.item o' h
  · exact ha.2.2.2.1
  · exact hw.item o ha.1
  · exact hw.bidder o' h
  · rw [ha.2.2.2.2.1]; simp
  · intro hb
    exact ha.2.2.1 (by simpa using hb)

end Market

end AuctionHouse
