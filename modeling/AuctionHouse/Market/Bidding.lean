/-
Bids on one order. A bid returns the one before it, so what a user can bid does not depend on the
bids so far, and after any of them the market is as if only the last one had been made.
-/
import AuctionHouse.Market.Basic

namespace AuctionHouse

variable {U I : Type}

@[simp] theorem Order.isImmediate_bidBy (o : Order U I) (u : U) (b : ℤ) : (o.bidBy u b).isImmediate = false := rfl

@[simp] theorem Order.bidBy_bidBy (o : Order U I) (u v : U) (b c : ℤ) : (o.bidBy u b).bidBy v c = o.bidBy v c := rfl

namespace Market

variable [DecidableEq U] [DecidableEq I] {funds : I} {m : Market U I}

theorem apply_nothing : m.apply funds .nothing = m := by
  simp only [apply, delta, bookAfter, issuedAfter, Int.add_zero]

theorem refund_bidBy (o : Order U I) (u : U) (b : ℤ) (v : U) (j : I) :
    refund funds (o.bidBy u b) v j = give u funds b v j := rfl

/-- A user's funds for a bid on an order: what the user holds, and the user's bid on it so far. -/
def available (funds : I) (m : Market U I) (o : Order U I) (v : U) : ℤ := m.stock v funds + refund funds o v funds

theorem available_bid (o : Order U I) (u : U) (b : ℤ) (v : U) :
    (m.apply funds (.bid u o b)).available funds (o.bidBy u b) v = m.available funds o v := by
  unfold available
  rw [refund_bidBy]
  simp only [apply, delta]
  omega

/-- The second bid replaces the first. -/
theorem apply_bid_bid (o : Order U I) (u v : U) (b c : ℤ) :
    (m.apply funds (.bid u o b)).apply funds (.bid v (o.bidBy u b) c) = m.apply funds (.bid v o c) := by
  unfold apply
  congr 1
  · funext w j
    simp only [delta, refund_bidBy]
    omega
  · simp only [bookAfter, List.map_map]
    refine List.map_congr_left fun x _ => ?_
    simp only [Function.comp_apply, Order.id_bidBy]
    by_cases h : x.id = o.id
    · simp [h]
    · simp [h]

/-- Bids on an order so far, if any, are as one bid. -/
inductive AfterBids (funds : I) (m : Market U I) (o : Order U I) : Market U I → Option (U × ℤ) → Prop
  | none : AfterBids funds m o m none
  | last {u : U} {b : ℤ} (ha : m.Allowed funds (.bid u o b)) :
    AfterBids funds m o (m.apply funds (.bid u o b)) (some (u, b))

namespace AfterBids

variable {o o' : Order U I} {m' : Market U I} {last : Option (U × ℤ)}

theorem eq_of_none (h : AfterBids funds m o m' Option.none) : m' = m := by cases h; rfl

theorem eq_of_last {u : U} {b : ℤ} (h : AfterBids funds m o m' (some (u, b))) :
    m.Allowed funds (.bid u o b) ∧ m' = m.apply funds (.bid u o b) := by
  cases h with
  | last ha => exact ⟨ha, rfl⟩

/-- The order after the bids. -/
theorem order (hw : m.WF funds) (ho : o ∈ m.book) (h : AfterBids funds m o m' last) (ho' : o' ∈ m'.book)
    (hid : o'.id = o.id) : o' = last.elim o fun p => o.bidBy p.1 p.2 := by
  cases h with
  | none => exact eq_of_id hw ho' ho hid
  | last ha =>
    rcases mem_bookAfter_bid ho' with ⟨-, hne⟩ | heq
    · exact absurd hid hne
    · exact heq

/-- Nobody has more or less to bid than before the bids. -/
theorem available (hw : m.WF funds) (ho : o ∈ m.book) (h : AfterBids funds m o m' last) (ho' : o' ∈ m'.book)
    (hid : o'.id = o.id) (v : U) : m'.available funds o' v = m.available funds o v := by
  rw [h.order hw ho ho' hid]
  cases h with
  | none => rfl
  | last ha => exact available_bid ..

/-- A further bid could have been made at once, with the same result. -/
theorem bid (hw : m.WF funds) (ho : o ∈ m.book) (h : AfterBids funds m o m' last) (hid : o'.id = o.id) {v : U} {c : ℤ}
    (ha : m'.Allowed funds (.bid v o' c)) : m.Allowed funds (.bid v o c) ∧
      m'.apply funds (.bid v o' c) = m.apply funds (.bid v o c) := by
  obtain ⟨ho', himmediate, hne, hprice, hcovered⟩ := ha
  have havailable := h.available hw ho ho' hid v
  have horder := h.order hw ho ho' hid
  subst horder
  cases h with
  | none => exact ⟨⟨ho, himmediate, hne, hprice, hcovered⟩, rfl⟩
  | last ha =>
    exact ⟨⟨ho, ha.2.1, hne, ha.2.2.2.1.trans hprice, hcovered.trans_eq havailable⟩, apply_bid_bid ..⟩

end AfterBids

end Market

end AuctionHouse
