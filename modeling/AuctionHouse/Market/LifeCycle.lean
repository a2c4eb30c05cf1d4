/-
The life of an order in a market: ids are never given twice, an order keeps everything but an
auction's bidder and price, whose price only rises, and it leaves the book for good by a purchase
or a settlement after its time.
-/
import AuctionHouse.Market.Basic

namespace AuctionHouse

variable {U I : Type}

/-! ## An order and the same order later -/

/-- `o'` is the order `o`, now or after bids on it. -/
structure Order.Continues (o o' : Order U I) : Prop where
  id : o'.id = o.id
  seller : o'.seller = o.seller
  item : o'.item = o.item
  quantity : o'.quantity = o.quantity
  expires : o'.expires = o.expires
  isImmediate : o'.isImmediate = o.isImmediate
  price : o' = o ∨ o.isImmediate = false ∧ o.price < o'.price

namespace Order.Continues

theorem refl (o : Order U I) : o.Continues o := ⟨rfl, rfl, rfl, rfl, rfl, rfl, .inl rfl⟩

theorem trans {o o' o'' : Order U I} (h : o.Continues o') (h' : o'.Continues o'') : o.Continues o'' := by
  refine ⟨h'.id.trans h.id, h'.seller.trans h.seller, h'.item.trans h.item, h'.quantity.trans h.quantity,
    h'.expires.trans h.expires, h'.isImmediate.trans h.isImmediate, ?_⟩
  rcases h.price with rfl | ⟨hi, hp⟩
  · exact h'.price
  · rcases h'.price with rfl | ⟨-, hp'⟩
    · exact .inr ⟨hi, hp⟩
    · exact .inr ⟨hi, hp.trans hp'⟩

/-- A bid raises the price of an auction and changes nothing else but its bidder. -/
theorem bidBy {o : Order U I} (hi : o.isImmediate = false) {b : ℤ} (hb : o.price < b) (u : U) :
    o.Continues (o.bidBy u b) := ⟨rfl, rfl, rfl, rfl, rfl, hi.symm, .inr ⟨hi, hb⟩⟩

end Order.Continues

namespace Market

variable {funds : I} {m m' m'' : Market U I}

/-! ## One deal -/

/-- The orders of a book that are not in a later one. -/
def left (m m' : Market U I) : List (Order U I) := m.book.filter fun o => decide (o.id ∉ m'.book.map (·.id))

/-- The orders a deal takes off the book. -/
def taken (m : Market U I) : Deal U I → List (Order U I)
  | .purchase _ o => [o]
  | .settle now => m.due now
  | _ => []

/-- No order of the book has the id. -/
def Gone (m : Market U I) (id : ℤ) : Prop := ∀ o ∈ m.book, o.id ≠ id

/-- What a deal does to an order of the book. -/
inductive Fate (m : Market U I) (d : Deal U I) (o : Order U I) : Prop
  | stays (h : o ∈ m.bookAfter d)
  | bid (u : U) (b : ℤ) (hd : d = .bid u o b) (h : o.bidBy u b ∈ m.bookAfter d)
  | bought (u : U) (hd : d = .purchase u o) (h : ∀ x ∈ m.bookAfter d, x.id ≠ o.id)
  | settled (now : ℤ) (hd : d = .settle now) (he : o.expires ≤ now) (h : ∀ x ∈ m.bookAfter d, x.id ≠ o.id)

section
variable [DecidableEq U] [DecidableEq I]

theorem fate {d : Deal U I} (hw : m.WF funds) (ha : m.Allowed funds d) {o : Order U I} (ho : o ∈ m.book) :
    m.Fate d o := by
  cases d with
  | place o₁ fee spoiled => exact .stays (List.mem_append_left _ ho)
  | purchase u o₁ =>
    by_cases h : o.id = o₁.id
    · obtain rfl := eq_of_id hw ho ha.1 h
      exact .bought u rfl fun x hx => by simpa using (List.mem_filter.1 hx).2
    · exact .stays (List.mem_filter.2 ⟨ho, by simpa using h⟩)
  | bid u o₁ b =>
    by_cases h : o.id = o₁.id
    · obtain rfl := eq_of_id hw ho ha.1 h
      exact .bid u b rfl (List.mem_map.2 ⟨o, ho, if_pos rfl⟩)
    · exact .stays (List.mem_map.2 ⟨o, ho, if_neg h⟩)
  | settle now =>
    by_cases h : o.expires ≤ now
    · refine .settled now rfl h fun x hx hid => ?_
      obtain ⟨hx, he⟩ := List.mem_filter.1 hx
      obtain rfl := eq_of_id hw hx ho hid
      simp [h] at he
    · exact .stays (List.mem_filter.2 ⟨ho, by simp [h]⟩)
  | nothing => exact .stays ho
  | deposit u i q => exact .stays ho
  | withdraw u i q spoiled => exact .stays ho

/-- Which orders leave the book: the one that is bought, and those that are settled. -/
theorem left_apply {d : Deal U I} (hw : m.WF funds) (ha : m.Allowed funds d) :
    m.left (m.apply funds d) = m.taken d := by
  have hkept : ∀ {m' : Market U I}, (∀ o ∈ m.book, o.id ∈ m'.book.map (·.id)) → m.left m' = [] := by
    intro m' h
    refine List.filter_eq_nil_iff.2 fun o ho => ?_
    simpa using h o ho
  have hmem : ∀ o ∈ m.book, o.id ∈ m.book.map (·.id) := fun o ho => List.mem_map_of_mem ho
  cases d with
  | nothing => exact hkept hmem
  | deposit u i q => exact hkept hmem
  | withdraw u i q spoiled => exact hkept hmem
  | place o fee spoiled => exact hkept fun x hx => List.mem_map_of_mem (List.mem_append_left _ hx)
  | bid u o b =>
    refine hkept fun x hx => ?_
    show x.id ∈ (m.bookAfter (.bid u o b)).map (·.id)
    rw [ids_bookAfter_bid]
    exact hmem x hx
  | purchase u o =>
    classical
    obtain ⟨ho, -⟩ := ha
    have hleft : m.left (m.apply funds (.purchase u o)) = m.book.filter fun x => decide (x = o) := by
      refine List.filter_congr fun x hx => ?_
      rw [decide_eq_decide]
      constructor
      · intro hgone
        by_contra hne
        refine hgone (List.mem_map_of_mem (List.mem_filter.2 ⟨hx, ?_⟩))
        exact decide_eq_true fun hid => hne (eq_of_id hw hx ho hid)
      · rintro rfl hm
        obtain ⟨x, hx, hid⟩ := List.mem_map.1 hm
        exact absurd hid (of_decide_eq_true (List.mem_filter.1 hx).2)
    rw [hleft, List.filter_eq, List.count_eq_one_of_mem hw.ids.of_map ho]
    rfl
  | settle now =>
    refine List.filter_congr fun x hx => ?_
    rw [decide_eq_decide]
    constructor
    · intro hgone
      by_contra hlater
      exact hgone (List.mem_map_of_mem (List.mem_filter.2 ⟨hx, by simpa using hlater⟩))
    · intro hexp hm
      obtain ⟨y, hy, hid⟩ := List.mem_map.1 hm
      obtain ⟨hy, hlater⟩ := List.mem_filter.1 hy
      obtain rfl := eq_of_id hw hy hx hid
      simp [hexp] at hlater

/-! ## Any number of deals -/

/-- `m'` is the market `m`, now or after deals: its orders continue orders of `m` or have new ids. -/
structure Extends (m m' : Market U I) : Prop where
  issued : m.issued ≤ m'.issued
  book : ∀ o' ∈ m'.book, m.issued < o'.id ∨ ∃ o ∈ m.book, o.Continues o'

theorem apply_extends {d : Deal U I} (ha : m.Allowed funds d) : m.Extends (m.apply funds d) := by
  refine ⟨issued_le ha, fun o' h => ?_⟩
  rcases mem_bookAfter h with h | ⟨fee, spoiled, rfl⟩ | ⟨u, o, b, rfl, rfl⟩
  · exact .inr ⟨o', h, .refl o'⟩
  · exact .inl ha.1
  · exact .inr ⟨o, ha.1, .bidBy ha.2.1 ha.2.2.2.1 u⟩

end

namespace Extends

theorem refl (m : Market U I) : m.Extends m := ⟨le_rfl, fun o h => .inr ⟨o, h, .refl o⟩⟩

theorem trans (h : m.Extends m') (h' : m'.Extends m'') : m.Extends m'' := by
  refine ⟨h.issued.trans h'.issued, fun o'' ho => ?_⟩
  rcases h'.book o'' ho with hlt | ⟨o', ho', hc⟩
  · exact .inl (h.issued.trans_lt hlt)
  · rcases h.book o' ho' with hlt | ⟨o, ho, hc'⟩
    · exact .inl (by rw [hc.id]; exact hlt)
    · exact .inr ⟨o, ho, hc'.trans hc⟩

/-- An order with the id of an order continues it. -/
theorem continues (h : m.Extends m') (hw : m.WF funds) {o o' : Order U I} (ho : o ∈ m.book) (ho' : o' ∈ m'.book)
    (hid : o'.id = o.id) : o.Continues o' := by
  rcases h.book o' ho' with hlt | ⟨x, hx, hc⟩
  · have := hw.issued o ho
    omega
  · obtain rfl := eq_of_id hw hx ho (hc.id.symm.trans hid)
    exact hc

/-- An id that was given and is gone does not come back. -/
theorem gone (h : m.Extends m') {id : ℤ} (hid : id ≤ m.issued) (hg : m.Gone id) : m'.Gone id := by
  rintro o' ho' rfl
  rcases h.book o' ho' with hlt | ⟨o, ho, hc⟩
  · omega
  · exact hg o ho hc.id.symm

end Extends

end Market

end AuctionHouse
