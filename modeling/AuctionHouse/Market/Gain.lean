/-
What a user gains from the deals of others: nothing is taken, and every order of the user that
ends, and every standing bid of the user that is beaten or wins, pays what it must.
-/
import AuctionHouse.Market.Estate
import AuctionHouse.Market.LifeCycle

namespace AuctionHouse

variable {U I : Type}

/-- Who makes a deal; nobody makes a settlement. -/
def Deal.party : Deal U I → Option U
  | .nothing => none
  | .deposit u _ _ => some u
  | .withdraw u _ _ _ => some u
  | .place o _ _ => some o.seller
  | .purchase u _ => some u
  | .bid u _ _ => some u
  | .settle _ => none

variable [DecidableEq U] [DecidableEq I] (funds : I)

/-- What others gain from an order by a deal: its price, the return of their bid, or its payout. -/
def Deal.gain (o : Order U I) (v : U) (j : I) : Deal U I → ℤ
  | .purchase _ o₁ => if o.id = o₁.id then give o.seller funds o.price v j else 0
  | .bid _ o₁ _ => if o.id = o₁.id then refund funds o v j else 0
  | .settle now => if o.expires ≤ now then payout funds o v j else 0
  | _ => 0

omit [DecidableEq U] [DecidableEq I] in
theorem sum_single (f : Order U I → ℤ) {book : List (Order U I)} {o : Order U I} (hn : (book.map (·.id)).Nodup)
    (ho : o ∈ book) : (book.map fun x => if x.id = o.id then f x else 0).sum = f o := by
  rw [← sum_remove _ hn ho, if_pos rfl]
  have : ((book.filter fun x => decide (x.id ≠ o.id)).map fun x => if x.id = o.id then f x else 0).sum = 0 := by
    refine List.sum_eq_zero fun a ha => ?_
    obtain ⟨x, hx, rfl⟩ := List.mem_map.1 ha
    exact if_neg (by simpa using (List.mem_filter.1 hx).2)
  rw [this, Int.zero_add]

namespace Market

variable {funds} {m : Market U I} {d : Deal U I} (hw : m.WF funds) (ha : m.Allowed funds d)
include hw ha

/-- Whoever does not make a deal gains from it the sum of the gains from every order. -/
theorem delta_eq_gains {v : U} (hv : d.party ≠ some v) (j : I) :
    m.delta funds d v j = (m.book.map fun o => d.gain funds o v j).sum := by
  cases d with
  | nothing => simp [delta, Deal.gain]
  | deposit u i q =>
    have hne : v ≠ u := fun h => hv (by rw [h]; rfl)
    simp [delta, Deal.gain, give_of_ne_user hne]
  | withdraw u i q spoiled =>
    have hne : v ≠ u := fun h => hv (by rw [h]; rfl)
    simp [delta, Deal.gain, give_of_ne_user hne]
  | place o fee spoiled =>
    have hne : v ≠ o.seller := fun h => hv (by rw [h]; rfl)
    simp [delta, Deal.gain, give_of_ne_user hne]
  | purchase u o =>
    have hne : v ≠ u := fun h => hv (by rw [h]; rfl)
    simp only [delta, Deal.gain, give_of_ne_user hne, Int.add_zero, Int.sub_zero]
    exact (sum_single (fun o => give o.seller funds o.price v j) hw.ids ha.1).symm
  | bid u o b =>
    have hne : v ≠ u := fun h => hv (by rw [h]; rfl)
    simp only [delta, Deal.gain, give_of_ne_user hne, Int.sub_zero]
    exact (sum_single (fun o => refund funds o v j) hw.ids ha.1).symm
  | settle now => exact sum_filter (fun o => payout funds o v j) (fun o => o.expires ≤ now) m.book

omit ha in
theorem gain_nonneg {o : Order U I} (ho : o ∈ m.book) (v : U) (j : I) : 0 ≤ d.gain funds o v j := by
  have hq := (hw.quantity o ho).le
  have hp := (hw.price o ho).le
  unfold Deal.gain
  split
  · split
    · exact give_nonneg hp ..
    · exact le_rfl
  · split
    · exact refund_nonneg funds hp ..
    · exact le_rfl
  · split
    · exact payout_nonneg funds hq hp ..
    · exact le_rfl
  · exact le_rfl

/-- The seller of an order that leaves the book gains its price or gets its items back. -/
theorem gain_seller {o : Order U I} (ho : o ∈ m.book) (hg : ∀ x ∈ m.bookAfter d, x.id ≠ o.id) :
    d.gain funds o o.seller funds = o.price ∨ d.gain funds o o.seller o.item = o.quantity := by
  cases fate hw ha ho with
  | stays h => exact absurd rfl (hg o h)
  | bid u b hd h => exact (hg _ h rfl).elim
  | bought u hd h =>
    subst hd
    left
    simp only [Deal.gain, if_true, give_self]
  | settled now hd he h =>
    subst hd
    simp only [Deal.gain, he, if_true]
    unfold payout
    rcases o.bidder with _ | w
    · right; exact give_self ..
    · left
      simp only
      rw [give_self, give_of_ne_item (hw.item o ho).symm, Int.zero_add]

/-- The bidder of an order who is no longer its bidder gets the bid back or gains the items. -/
theorem gain_bidder {o : Order U I} (ho : o ∈ m.book) {v : U} (hb : o.bidder = some v)
    (hg : ∀ x ∈ m.bookAfter d, x.id = o.id → x.bidder ≠ some v) :
    d.gain funds o v funds = o.price ∨ d.gain funds o v o.item = o.quantity := by
  cases fate hw ha ho with
  | stays h => exact absurd hb (hg o h rfl)
  | bid u b hd h =>
    subst hd
    left
    simp only [Deal.gain, if_true, refund, hb, give_self]
  | bought u hd h =>
    subst hd
    rw [Order.bidder_immediate ha.2.1] at hb
    cases hb
  | settled now hd he h =>
    subst hd
    right
    simp only [Deal.gain, he, if_true, payout, hb, give_self, give_of_ne_item (hw.item o ho), Int.add_zero]

omit hw ha in
/-- Except for a settlement, a deal brings gains from one order only. -/
theorem gain_single {o x : Order U I} {v : U} {i j : I} (hd : ∀ now, d ≠ .settle now)
    (ho : d.gain funds o v i ≠ 0) (hx : d.gain funds x v j ≠ 0) : o.id = x.id := by
  unfold Deal.gain at ho hx
  cases d with
  | purchase u o₁ =>
    have h1 := (ite_ne_right_iff.1 ho).1
    have h2 := (ite_ne_right_iff.1 hx).1
    rw [h1, h2]
  | bid u o₁ b =>
    have h1 := (ite_ne_right_iff.1 ho).1
    have h2 := (ite_ne_right_iff.1 hx).1
    rw [h1, h2]
  | settle now => exact absurd rfl (hd now)
  | nothing => exact absurd rfl ho
  | deposit u i q => exact absurd rfl ho
  | withdraw u i q spoiled => exact absurd rfl ho
  | place o fee spoiled => exact absurd rfl ho

end Market

end AuctionHouse
