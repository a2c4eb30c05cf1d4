/-
The tables as a market, and every operation as a deal: whichever statements are refused, a call
either makes the deal it reports, or reports an error and changes no holding and no order, except
for a settlement tick, which may settle all expired orders and still report an error.
-/
import AuctionHouse.Market.Estate
import AuctionHouse.Server.Operation
import AuctionHouse.Store.Atomicity
import AuctionHouse.Store.Settlement

namespace AuctionHouse

open Storage AuctionService

/-! ## The market of the tables -/

namespace SellOrderRow

/-- How an order is sold, as its `buyer_id` encodes it. -/
def terms (o : SellOrderRow) : Terms ℤ := if o.buyerId = some o.sellerId then .immediate else .auction o.buyerId

def order (o : SellOrderRow) : Order ℤ ℤ where
  id := o.id
  seller := o.sellerId
  item := o.itemId
  quantity := o.quantity
  price := o.price
  expires := o.expirationTime
  terms := o.terms

theorem isImmediate_order (o : SellOrderRow) : o.order.isImmediate = decide (o.buyerId = some o.sellerId) := by
  unfold Order.isImmediate order terms
  by_cases h : o.buyerId = some o.sellerId <;> simp [h]

theorem terms_immediate {o : SellOrderRow} (h : o.buyerId = some o.sellerId) : o.order.terms = .immediate := if_pos h

theorem bidder_order (o : SellOrderRow) : o.order.bidder = if hasBid o then o.buyerId else none := by
  unfold Order.bidder order terms
  by_cases h : o.buyerId = some o.sellerId
  · have : hasBid o = false := by simp [hasBid, h]
    simp [h, this]
  · rcases hb : o.buyerId with _ | b
    · simp [hasBid, hb]
    · have hne : b ≠ o.sellerId := fun e => h (by rw [hb, e])
      have : hasBid o = true := (hasBid_iff o).2 ⟨b, hb, hne⟩
      simp [hne, this]

/-- Every column but `buyer_id` is read off the order, and the order's terms give `buyer_id` back. -/
theorem order_injective {a b : SellOrderRow} (h : a.order = b.order) : a = b := by
  simp only [order, Order.mk.injEq, terms] at h
  obtain ⟨h1, h2, h3, h4, h5, h6, h7⟩ := h
  cases a; cases b
  simp only at *
  subst h1 h2 h3 h4 h5 h6
  congr 1
  split at h7 <;> split at h7
  · rename_i e1 e2; rw [e1, e2]
  · cases h7
  · cases h7
  · simpa using h7

theorem order_setBuyer (o : SellOrderRow) {u : ℤ} (hu : u ≠ o.sellerId) (b : ℤ) :
    (o.setBuyer u b).order = o.order.bidBy u b := by
  have : some u ≠ some o.sellerId := by simpa using hu
  simp [order, setBuyer, Order.bidBy, terms, hu]

end SellOrderRow

def Tables.market (t : Tables) : Market ℤ ℤ := ⟨t.balance, t.sellOrders.map SellOrderRow.order, t.sellOrdersSeq⟩

/-- What every reachable database satisfies beyond its schema: the storage's funds item is the item
named "funds", no order sells it, and what is read from an order fits in an `int`. -/
structure Invariant (st : Storage) (t : Tables) : Prop where
  funds : ⟨st.fundsItemId.toInt, fundsItemName⟩ ∈ t.items
  items : ∀ o ∈ t.sellOrders, o.itemId ≠ st.fundsItemId.toInt
  quantities : ∀ o ∈ t.sellOrders, o.quantity ≤ intMax
  prices : ∀ o ∈ t.sellOrders, o.price ≤ intMax
  issued : ∀ o ∈ t.sellOrders, o.id ≤ t.sellOrdersSeq

theorem Invariant.hasFunds {st : Storage} {t : Tables} (hi : Invariant st t) : t.HasItem st.fundsItemId.toInt :=
  ⟨_, hi.funds, rfl⟩

/-- New orders keep the invariant if they fit it. -/
theorem Invariant.of_orders {st : Storage} {t t' : Tables} (hi : Invariant st t) (hitems : t'.items = t.items)
    (hseq : t.sellOrdersSeq ≤ t'.sellOrdersSeq)
    (h : ∀ o ∈ t'.sellOrders, o ∈ t.sellOrders ∨
      o.itemId ≠ st.fundsItemId.toInt ∧ o.quantity ≤ intMax ∧ o.price ≤ intMax ∧ o.id ≤ t'.sellOrdersSeq) :
    Invariant st t' := by
  refine ⟨by rw [hitems]; exact hi.funds, fun o ho => ?_, fun o ho => ?_, fun o ho => ?_, fun o ho => ?_⟩
  all_goals rcases h o ho with ho | ⟨h1, h2, h3, h4⟩
  · exact hi.items o ho
  · exact h1
  · exact hi.quantities o ho
  · exact h2
  · exact hi.prices o ho
  · exact h3
  · exact (hi.issued o ho).trans hseq
  · exact h4

theorem mem_market {t : Tables} {o : Order ℤ ℤ} : o ∈ t.market.book ↔ ∃ r ∈ t.sellOrders, r.order = o := by
  simp [Tables.market]

theorem market_wf {st : Storage} {t : Tables} (hv : t.Valid) (hi : Invariant st t) :
    t.market.WF st.fundsItemId.toInt := by
  have hb : ∀ o ∈ t.market.book, ∃ r ∈ t.sellOrders, r.order = o := fun o h => mem_market.1 h
  refine ⟨?_, fun o h => ?_, fun o h => ?_, fun o h => ?_, fun o h => ?_, fun o h => ?_, fun u i =>
    Tables.balance_nonneg hv u i⟩
  · have : t.market.book.map (·.id) = t.sellOrders.map (·.id) := by
      simp [Tables.market, SellOrderRow.order, Function.comp_def]
    rw [this]; exact hv.sellOrderIds
  all_goals obtain ⟨r, hr, rfl⟩ := hb o h
  · exact hi.issued r hr
  · exact (hv.sellOrders r hr).quantity
  · exact (hv.sellOrders r hr).price
  · exact hi.items r hr
  · rw [SellOrderRow.bidder_order]
    rcases hh : hasBid r
    · simp
    · obtain ⟨b, hb, hne⟩ := (hasBid_iff r).1 hh
      simpa [hb, SellOrderRow.order] using hne

/-! ## What an `int` reading of an order says -/

section
variable {st : Storage} {t : Tables} (hv : t.Valid) (hi : Invariant st t) {o : SellOrderRow} (ho : o ∈ t.sellOrders)
include hv ho

theorem seller_fits : (columnInt o.sellerId).toInt = o.sellerId := fits_user hv (hv.sellOrders o ho).seller

theorem buyer_fits {b : ℤ} (hb : o.buyerId = some b) : (columnInt b).toInt = b :=
  fits_user hv ((hv.sellOrders o ho).buyer b hb)

theorem item_fits : (columnInt o.itemId).toInt = o.itemId := fits_item hv (hv.sellOrders o ho).item

include hi

theorem quantity_fits : (columnInt o.quantity).toInt = o.quantity :=
  columnInt_of_fits (hv.sellOrders o ho).quantity.le (hi.quantities o ho)

theorem price_fits : (columnInt o.price).toInt = o.price :=
  columnInt_of_fits (hv.sellOrders o ho).price.le (hi.prices o ho)

omit hi in
/-- `SellOrderInnerInfo::type` reads the type of the stored order. -/
theorem type_innerInfo : (innerInfo o).type = .immediate ↔ o.buyerId = some o.sellerId := by
  unfold SellOrderInnerInfo.type innerInfo
  rcases hb : o.buyerId with _ | b
  · simp
  · have := columnInt_inj (buyer_fits hv ho hb) (seller_fits hv ho)
    simp [this]

end

end AuctionHouse
