/-
Conservation in a market. A user's estate in an item is what the user holds and what the book
holds for the user: the items of the user's orders and the user's standing bids. Deals change
estates only by what the house records of them (deposits, withdrawals, fees, and trades, which move
an item one way and its price the other) and by what they destroy. Bids, outbids and orders that end
unsold change no estate.
-/
import AuctionHouse.Market.Basic

namespace AuctionHouse

variable {U I : Type} [DecidableEq U] [DecidableEq I] (funds : I)

/-- What the book holds for a user in an open order. -/
def lien (o : Order U I) (v : U) (j : I) : ℤ := give o.seller o.item o.quantity v j + refund funds o v j

/-- An order sold to `w`. -/
def trade (o : Order U I) (w : U) (v : U) (j : I) : ℤ :=
  give w o.item o.quantity v j - give o.seller o.item o.quantity v j +
    (give o.seller funds o.price v j - give w funds o.price v j)

/-- The trade made when an order's time is over, if it has a bidder. -/
def sale (o : Order U I) (v : U) (j : I) : ℤ :=
  match o.bidder with
  | some w => trade funds o w v j
  | none => 0

namespace Market

def estate (m : Market U I) (v : U) (j : I) : ℤ := m.stock v j + (m.book.map fun o => lien funds o v j).sum

/-- What a deal, as the house reports it, brings into an estate or takes out of it. -/
def recorded (m : Market U I) : Deal U I → U → I → ℤ
  | .nothing, _, _ => 0
  | .deposit u i q, v, j => give u i q v j
  | .withdraw u i q _, v, j => -give u i q v j
  | .place o fee _, v, j => -give o.seller funds fee v j
  | .purchase u o, v, j => trade funds o u v j
  | .bid _ _ _, _, _ => 0
  | .settle now, v, j => ((m.due now).map fun o => sale funds o v j).sum

end Market

/-- What a deal destroys. -/
def Deal.loss : Deal U I → U → I → ℤ
  | .withdraw u i _ spoiled, v, j => give u i spoiled v j
  | .place o _ spoiled, v, j => give o.seller o.item spoiled v j
  | _, _, _ => 0

/-! ## Sums over the book -/

omit [DecidableEq U] [DecidableEq I] in
theorem sum_remove (f : Order U I → ℤ) : ∀ {book : List (Order U I)} {o : Order U I},
    (book.map (·.id)).Nodup → o ∈ book →
      ((book.filter fun o' => decide (o'.id ≠ o.id)).map f).sum + f o = (book.map f).sum
  | [], _, _, ho => by cases ho
  | x :: book, o, hn, ho => by
    simp only [List.map_cons, List.nodup_cons] at hn
    rw [List.filter_cons]
    rcases List.mem_cons.1 ho with rfl | ho
    · have hall : (book.filter fun o' => decide (o'.id ≠ o.id)) = book := by
        rw [List.filter_eq_self]
        intro y hy
        simpa using fun h => hn.1 (List.mem_map.2 ⟨y, hy, h⟩)
      simp only [ne_eq, not_true_eq_false, decide_false, Bool.false_eq_true, if_false, hall, List.map_cons,
        List.sum_cons]
      omega
    · have hne : x.id ≠ o.id := fun h => hn.1 (List.mem_map.2 ⟨o, ho, h.symm⟩)
      have ih := sum_remove f hn.2 ho
      simp only [ne_eq, hne, not_false_eq_true, decide_true, if_true, List.map_cons, List.sum_cons] at ih ⊢
      omega

omit [DecidableEq U] [DecidableEq I] in
theorem sum_change (f : Order U I → ℤ) {o : Order U I} (o₁ : Order U I) : ∀ {book : List (Order U I)},
    (book.map (·.id)).Nodup → o ∈ book →
      ((book.map fun o' => if o'.id = o.id then o₁ else o').map f).sum + f o = (book.map f).sum + f o₁
  | [], _, ho => by cases ho
  | x :: book, hn, ho => by
    simp only [List.map_cons, List.nodup_cons] at hn
    simp only [List.map_cons, List.sum_cons]
    rcases List.mem_cons.1 ho with rfl | ho
    · have hall : (book.map fun o' => if o'.id = o.id then o₁ else o') = book := by
        conv_rhs => rw [← List.map_id book]
        refine List.map_congr_left fun y hy => if_neg fun h => hn.1 (List.mem_map.2 ⟨y, hy, h⟩)
      rw [if_pos rfl, hall]
      omega
    · have hne : x.id ≠ o.id := fun h => hn.1 (List.mem_map.2 ⟨o, ho, h.symm⟩)
      have ih := sum_change f o₁ hn.2 ho
      rw [if_neg hne]
      omega

omit [DecidableEq U] [DecidableEq I] in
theorem sum_split (f : Order U I → ℤ) (p : Order U I → Bool) (book : List (Order U I)) :
    ((book.filter p).map f).sum + ((book.filter fun o => !p o).map f).sum = (book.map f).sum := by
  induction book with
  | nil => rfl
  | cons x book ih =>
    simp only [List.filter_cons, List.map_cons, List.sum_cons]
    cases p x <;> simp <;> omega

omit [DecidableEq U] [DecidableEq I] in
theorem sum_filter {α : Type} (f : α → ℤ) (p : α → Prop) [DecidablePred p] : ∀ l : List α,
    ((l.filter fun o => decide (p o)).map f).sum = (l.map fun o => if p o then f o else 0).sum
  | [] => rfl
  | o :: l => by
    have ih := sum_filter f p l
    by_cases h : p o
    · simp [h, ih]
    · simp [h, ih]

/-! ## Conservation -/

theorem payout_eq (o : Order U I) (v : U) (j : I) : payout funds o v j = lien funds o v j + sale funds o v j := by
  unfold payout lien sale refund trade
  rcases o.bidder with _ | w
  · simp
  · simp only
    omega

namespace Market

variable {funds} {m : Market U I}

theorem give_add (u : U) (i : I) (a b : ℤ) (v : U) (j : I) :
    give u i (a + b) v j = give u i a v j + give u i b v j := by
  unfold give; split <;> simp

/-- A deal changes estates by what is recorded of it, and by what it destroys. -/
theorem estate_apply {d : Deal U I} (hw : m.WF funds) (ha : m.Allowed funds d) (v : U) (j : I) :
    (m.apply funds d).estate funds v j + d.loss v j = m.estate funds v j + m.recorded funds d v j := by
  unfold estate
  simp only [apply]
  cases d with
  | nothing => simp [delta, recorded, bookAfter, Deal.loss]
  | deposit u i q => simp only [delta, recorded, bookAfter, Deal.loss]; omega
  | withdraw u i q spoiled => simp only [delta, recorded, bookAfter, Deal.loss, give_add]; omega
  | place o fee spoiled =>
    -- a new order has no bidder: the book holds its items only
    have hl : lien funds o v j = give o.seller o.item o.quantity v j := by
      simp [lien, refund, ha.2.2.2.2.1]
    simp only [delta, recorded, bookAfter, Deal.loss, List.map_append, List.sum_append, List.map_cons, List.map_nil,
      List.sum_cons, List.sum_nil, hl, give_add]
    omega
  | purchase u o =>
    have hs := sum_remove (fun o => lien funds o v j) hw.ids ha.1
    have hl : lien funds o v j = give o.seller o.item o.quantity v j := by
      simp [lien, refund, Order.bidder_immediate ha.2.1]
    simp only [delta, recorded, bookAfter, Deal.loss, trade]
    omega
  | bid u o b =>
    -- the new bid takes the place of the returned one in the book
    have hs := sum_change (fun o => lien funds o v j) (o.bidBy u b) hw.ids ha.1
    have h1 : lien funds o v j = give o.seller o.item o.quantity v j + refund funds o v j := rfl
    have h2 : lien funds (o.bidBy u b) v j = give o.seller o.item o.quantity v j + give u funds b v j := rfl
    simp only [delta, recorded, bookAfter, Deal.loss]
    omega
  | settle now =>
    -- a payout is what the book held of the order, and the sale
    have hs := sum_split (fun o => lien funds o v j) (fun o => decide (o.expires ≤ now)) m.book
    have hp : ((m.due now).map fun o => payout funds o v j).sum =
        ((m.due now).map fun o => lien funds o v j).sum + ((m.due now).map fun o => sale funds o v j).sum := by
      simp only [payout_eq, List.sum_map_add]
    simp only [delta, recorded, bookAfter, Deal.loss, hp]
    unfold due
    omega

/-- No deal destroys funds. -/
theorem loss_funds {d : Deal U I} (ha : m.Allowed funds d) (v : U) : d.loss v funds = 0 := by
  cases d with
  | withdraw u i q spoiled =>
    show give u i spoiled v funds = 0
    by_cases hi : i = funds
    · rw [ha.2.2.1 hi]
      unfold give
      exact ite_self 0
    · exact give_of_ne_item (Ne.symm hi) ..
  | place o fee spoiled => exact give_of_ne_item (Ne.symm ha.2.2.2.1) ..
  | _ => rfl

end Market

end AuctionHouse
