/-
Where orders and trades come from. An order that is in the table after an operation was there before,
perhaps with a lower bid, or was placed by the operation; and what an operation reports as traded was in
the table before it.
-/
import AuctionHouse.Store.Auction

namespace AuctionHouse

open Storage AuctionService

/-! ## Orders -/

/-- Where an order comes from that is in the table after an operation. -/
inductive Source (t : Tables) (operation : Operation) (o : SellOrderRow) : Prop
  | stays (h : o ∈ t.sellOrders)
    (hopen : ∀ unixNow, operation = .processExpiredSellOrders unixNow → unixNow < o.expirationTime)
  | raised (buyerId : UserId) (sellOrderId bid : Int32) (r : SellOrderRow) (hr : r ∈ t.sellOrders)
    (hop : operation = .placeBidOnAuctionSellOrder buyerId sellOrderId bid) (hid : r.id = sellOrderId.toInt)
    (hauction : r.buyerId ≠ some r.sellerId) (hbuyer : buyerId.toInt ≠ r.sellerId) (hprice : r.price < bid.toInt)
    (ho : o = r.setBuyer buyerId.toInt bid.toInt)
  | placed (orderType : SellOrderType) (sellerId : UserId) (r : ItemRow) (quantity price : Int32) (hr : r ∈ t.items)
    (hop : operation = .placeSellOrder orderType sellerId (some r.name) quantity price o.expirationTime)
    (hseller : o.sellerId = sellerId.toInt) (hitem : o.itemId = r.id) (hquantity : o.quantity = quantity.toInt)
    (hprice : o.price = price.toInt)
    (hbuyer : o.buyerId = if orderType = .immediate then some o.sellerId else none)

/-- The buyer that a row has by the terms of its order. -/
theorem buyer_of_terms {o : SellOrderRow} {orderType : SellOrderType}
    (h : o.order.terms = if orderType = .immediate then .immediate else .auction none) :
    o.buyerId = if orderType = .immediate then some o.sellerId else none := by
  replace h : o.terms = _ := h
  unfold SellOrderRow.terms at h
  cases orderType with
  | immediate =>
    rw [if_pos rfl] at h ⊢
    by_contra hb
    rw [if_neg hb] at h
    cases h
  | auction =>
    have hne : SellOrderType.auction ≠ .immediate := by decide
    rw [if_neg hne] at h ⊢
    split at h
    · cases h
    · exact Terms.auction.inj h

/-- The item of an order that is placed has the name that was asked for. -/
theorem Explains.placed {st : Storage} {t : Tables} {operation : Operation} {reply : Except Error Reply}
    {d : Deal ℤ ℤ} (h : Explains st t operation reply d) {x : Order ℤ ℤ} {fee spoiled : ℤ}
    (hd : d = .place x fee spoiled) : ∃ orderType sellerId itemId quantity price unixExpirationTime, ∃ r ∈ t.items,
      operation = .placeSellOrder orderType sellerId (some r.name) quantity price unixExpirationTime ∧
        itemId.toInt = r.id ∧ x = placedOrder t orderType sellerId itemId quantity price unixExpirationTime := by
  cases h <;> cases hd
  case place hname hitem hx hread hfee =>
    obtain ⟨r, hr, rfl, hid⟩ := hitem
    exact ⟨_, _, _, _, _, _, r, hr, rfl, hid, rfl⟩

namespace Call

variable {st : Storage} {db : Database} (hi : Invariant st db.toTables)
include hi

/-- Each order in the table after an operation without refusals has a source before it. -/
theorem source (operation : Operation) {o : SellOrderRow} (ho : o ∈ (next st ⟨operation, []⟩ db).sellOrders) :
    Source db.toTables operation o := by
  obtain ⟨d, he, hd⟩ := next_dealt hi ⟨operation, []⟩
  have hbook : o.order ∈ (next st ⟨operation, []⟩ db).market.book := mem_market.2 ⟨o, ho, rfl⟩
  have hafter := hbook
  rw [hd.market] at hafter
  rcases Market.mem_bookAfter hafter with hm | ⟨fee, spoiled, rfl⟩ | ⟨u, x, b, rfl, hx⟩
  · refine .stays (mem_of_order hm) ?_
    -- a tick leaves what is not due
    rintro unixNow rfl
    rw [tick_market hi unixNow] at hbook
    have hdue : ¬ o.order.expires ≤ unixNow := by simpa using (List.mem_filter.1 hbook).2
    exact not_le.1 hdue
  · obtain ⟨orderType, sellerId, itemId, quantity, price, unixExpirationTime, r, hr, hop, hid, hx⟩ := he.placed rfl
    have hexpires : o.expirationTime = unixExpirationTime := congrArg Order.expires hx
    exact .placed orderType sellerId r quantity price hr (hexpires ▸ hop) (congrArg Order.seller hx)
      ((congrArg Order.item hx).trans hid) (congrArg Order.quantity hx) (congrArg Order.price hx)
      (buyer_of_terms (congrArg Order.terms hx))
  · obtain ⟨buyerId, sellOrderId, bid, r, hop, -, hr, hid, rfl, rfl, rfl⟩ := he.of_bid rfl
    obtain ⟨-, himm, hne, hprice, -⟩ := hd.allowed
    refine .raised buyerId sellOrderId bid r hr hop hid ?_ hne hprice ?_
    · rw [SellOrderRow.isImmediate_order] at himm
      simpa using himm
    · exact SellOrderRow.order_injective (hx.trans (SellOrderRow.order_setBuyer r hne bid.toInt).symm)

end Call

/-! ## Trades -/

/-- The entries of trades: sold and bought. -/
def LogEntry.isTrade (e : LogEntry) : Bool := match e.message with
  | .item _ _ _ => false
  | .sold _ _ _ _ => true
  | .bought _ _ _ _ => true

/-- An order that an operation trades: an immediate one is bought, or an expired one goes to its bidder. -/
inductive Trades (t : Tables) : Operation → SellOrderExecutionInfo → Prop
  | purchase {buyerId : UserId} {sellOrderId : Int32} {o : SellOrderRow} {info : SellOrderExecutionInfo}
    (ho : o ∈ t.sellOrders) (himmediate : o.buyerId = some o.sellerId) (hid : o.id = sellOrderId.toInt)
    (hinfo : Reports (o.setBuyer buyerId.toInt o.price) info) :
    Trades t (.executeImmediateSellOrder buyerId sellOrderId) info
  | settlement {unixNow b : ℤ} {o : SellOrderRow} {info : SellOrderExecutionInfo} (ho : o ∈ t.sellOrders)
    (hexpired : o.expirationTime ≤ unixNow) (hbuyer : o.buyerId = some b) (hne : b ≠ o.sellerId)
    (hinfo : Reports o info) : Trades t (.processExpiredSellOrders unixNow) info

/-- The trades in the log of an operation are of orders in the table. -/
theorem Explains.trades {st : Storage} {t : Tables} {operation : Operation} {reply : Reply} {d : Deal ℤ ℤ}
    (hv : t.Valid) (hi : Invariant st t) (ha : t.market.Allowed st.fundsItemId.toInt d)
    (h : Explains st t operation (.ok reply) d) : ∃ infos : List SellOrderExecutionInfo,
      (operation.entries reply).filter LogEntry.isTrade = infos.flatMap SellOrderExecutionInfo.entries ∧
        ∀ info ∈ infos, Trades t operation info := by
  cases h with
  | @purchase buyerId sellOrderId o ho hid =>
    have himmediate : o.buyerId = some o.sellerId := by
      have h : o.order.isImmediate = true := by unfold Order.isImmediate; rw [ha.2.1]
      rw [SellOrderRow.isImmediate_order] at h
      exact of_decide_eq_true h
    refine ⟨[{ executionInfo o with id := sellOrderId, buyerId }], (List.append_nil _).symm, fun info hm => ?_⟩
    rw [List.mem_singleton.1 hm]
    refine .purchase ho himmediate hid ⟨?_, seller_fits hv ho, rfl, item_fits hv ho, quantity_fits hv hi ho,
      price_fits hv hi ho⟩
    rw [SellOrderRow.id_setBuyer, hid, columnInt_toInt]
  | @settle unixNow =>
    refine ⟨executedAuctionOrders unixNow t, ?_, fun info hm => ?_⟩
    · unfold Operation.entries
      rw [List.filter_flatMap]
      rfl
    · obtain ⟨o, ho, rfl⟩ := List.mem_map.1 hm
      obtain ⟨ho, htime, hbid⟩ := mem_executedAuctions.1 ho
      obtain ⟨b, hbuyer, hne⟩ := (hasBid_iff o).1 hbid
      exact .settlement ho htime hbuyer hne (reports_executionInfo hv hi ho hbid)
  | _ => exact ⟨[], rfl, fun _ h => by cases h⟩

end AuctionHouse
