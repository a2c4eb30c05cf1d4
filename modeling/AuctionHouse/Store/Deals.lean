/-
What the statements and the steps of each operation do to the market of the tables: moves of
holdings, one after another, and the change of the order book at the end.
-/
import AuctionHouse.Store.Refinement

namespace AuctionHouse

open Storage AuctionService

/-! ## Moves -/

/-- Only holdings changed, each by `δ`. -/
structure Moved (t t' : Tables) (δ : ℤ → ℤ → ℤ) : Prop where
  users : t'.users = t.users
  items : t'.items = t.items
  sellOrders : t'.sellOrders = t.sellOrders
  sellOrdersSeq : t'.sellOrdersSeq = t.sellOrdersSeq
  balance : ∀ v j, t'.balance v j = t.balance v j + δ v j

namespace Moved

variable {t t' t'' : Tables} {δ ε : ℤ → ℤ → ℤ}

theorem refl (t : Tables) : Moved t t fun _ _ => 0 := ⟨rfl, rfl, rfl, rfl, fun _ _ => (Int.add_zero _).symm⟩

theorem trans (h : Moved t t' δ) (h' : Moved t' t'' ε) : Moved t t'' fun v j => δ v j + ε v j :=
  ⟨h'.users.trans h.users, h'.items.trans h.items, h'.sellOrders.trans h.sellOrders,
    h'.sellOrdersSeq.trans h.sellOrdersSeq, fun v j => by rw [h'.balance, h.balance, Int.add_assoc]⟩

theorem congr (h : Moved t t' δ) (he : ∀ v j, δ v j = ε v j) : Moved t t' ε :=
  { h with balance := fun v j => by rw [h.balance, he] }

theorem hasUser (h : Moved t t' δ) (u : ℤ) : t'.HasUser u ↔ t.HasUser u := by unfold Tables.HasUser; rw [h.users]

theorem hasItem (h : Moved t t' δ) (i : ℤ) : t'.HasItem i ↔ t.HasItem i := by unfold Tables.HasItem; rw [h.items]

theorem invariant {st : Storage} (h : Moved t t' δ) (hi : Invariant st t) : Invariant st t' :=
  ⟨h.items ▸ hi.funds, h.sellOrders ▸ hi.items, h.sellOrders ▸ hi.quantities, h.sellOrders ▸ hi.prices,
    by rw [h.sellOrders, h.sellOrdersSeq]; exact hi.issued⟩

end Moved

theorem spoiled_nonneg (st : Storage) (i q : Int32) {x : ℤ} (h : q.toInt ≤ x) : 0 ≤ spoiled st i q x := by
  unfold spoiled
  split <;> omega

theorem add_spoiled_le (st : Storage) (i q : Int32) {x : ℤ} (h : q.toInt ≤ x) : q.toInt + spoiled st i q x ≤ x := by
  unfold spoiled
  split <;> omega

theorem spoiled_funds (st : Storage) (q : Int32) (x : ℤ) : spoiled st st.fundsItemId q x = 0 := by simp [spoiled]

/-- `add_user_item` moves the quantity in. -/
theorem moved_addUserItem {u : UserId} {i q : Int32} {c c' : Connection} (h : addUserItem u i q c = .ok () c') :
    0 ≤ q.toInt ∧ Moved c.db.toTables c'.db.toTables (give u.toInt i.toInt q.toInt) := by
  obtain ⟨hq, ht, -⟩ := addUserItem_ok h
  refine ⟨hq, ?_⟩
  rw [ht]
  exact ⟨rfl, rfl, rfl, rfl, fun v j => balance_addItem u.toInt i.toInt q.toInt v j c.db.toTables⟩

/-- `sub_user_item` moves the quantity out, and what it spoils with it. -/
theorem moved_subUserItem {st : Storage} {u : UserId} {i q : Int32} {c c' : Connection}
    (h : subUserItem st u i q c = .ok () c') :
    ∃ x, c.db.inventory (u.toInt, i.toInt) = some x ∧ q ≤ columnInt x ∧ q.toInt ≤ x ∧
      Moved c.db.toTables c'.db.toTables fun v j => -give u.toInt i.toInt (q.toInt + spoiled st i q x) v j := by
  obtain ⟨x, hx, hlt, -, ht⟩ := subUserItem_ok h
  refine ⟨x, hx, Int32.not_lt.1 hlt, le_of_le_columnInt (Tables.row_ok c.db.valid hx).quantity (Int32.not_lt.1 hlt), ?_⟩
  have hb : ∀ v j, c'.db.balance v j = c.db.balance v j - give u.toInt i.toInt (q.toInt + spoiled st i q x) v j := by
    intro v j
    rw [ht]
    exact balance_sub hx v j
  have hb' : ∀ v j, c'.db.balance v j = c.db.balance v j + -give u.toInt i.toInt (q.toInt + spoiled st i q x) v j :=
    fun v j => by rw [hb, Int.sub_eq_add_neg]
  rw [ht] at hb' ⊢
  split <;> rename_i hc
  · rw [if_pos hc] at hb'; exact ⟨rfl, rfl, rfl, rfl, hb'⟩
  · rw [if_neg hc] at hb'; exact ⟨rfl, rfl, rfl, rfl, hb'⟩

/-- Charging funds spoils nothing. -/
theorem moved_subFunds {st : Storage} {u : UserId} {q : Int32} {c c' : Connection}
    (h : subFunds st u q c = .ok () c') :
    q ≤ columnInt (c.db.balance u.toInt st.fundsItemId.toInt) ∧ q.toInt ≤ c.db.balance u.toInt st.fundsItemId.toInt ∧
      Moved c.db.toTables c'.db.toTables fun v j => -give u.toInt st.fundsItemId.toInt q.toInt v j := by
  obtain ⟨x, hx, hread, hq, hm⟩ := moved_subUserItem h
  rw [spoiled_funds, Int.add_zero] at hm
  rw [Tables.balance_of_inventory hx]
  exact ⟨hread, hq, hm⟩

/-! ## A market after a deal -/

theorem market_apply {t t' : Tables} {f : ℤ} {d : Deal ℤ ℤ}
    (hb : ∀ v j, t'.balance v j = t.balance v j + t.market.delta f d v j)
    (ho : t'.sellOrders.map SellOrderRow.order = t.market.bookAfter d)
    (hs : t'.sellOrdersSeq = t.market.issuedAfter d) : t'.market = t.market.apply f d := by
  unfold Tables.market Market.apply
  congr 1
  funext v j
  exact hb v j

/-- A deal made on the tables. -/
structure Dealt (st : Storage) (t t' : Tables) (d : Deal ℤ ℤ) : Prop where
  allowed : t.market.Allowed st.fundsItemId.toInt d
  market : t'.market = t.market.apply st.fundsItemId.toInt d
  invariant : Invariant st t'

theorem Dealt.balance {st : Storage} {t t' : Tables} {d : Deal ℤ ℤ} (h : Dealt st t t' d) (v j : ℤ) :
    t'.balance v j = t.balance v j + t.market.delta st.fundsItemId.toInt d v j :=
  congrFun (congrFun (congrArg Market.stock h.market) v) j

/-- A move that is all a deal does. -/
theorem Dealt.of_moved {st : Storage} {t t' : Tables} {d : Deal ℤ ℤ} (hi : Invariant st t)
    (hm : Moved t t' (t.market.delta st.fundsItemId.toInt d)) (ha : t.market.Allowed st.fundsItemId.toInt d)
    (hb : t.market.bookAfter d = t.market.book) (hs : t.market.issuedAfter d = t.market.issued) : Dealt st t t' d :=
  ⟨ha, market_apply hm.balance (by rw [hb, hm.sellOrders]; rfl) (by rw [hs, hm.sellOrdersSeq]; rfl), hm.invariant hi⟩

/-! ## Placing an order -/

theorem getItemId_ok {itemName : StringView} {i : Int32} {c c' : Connection} (h : getItemId itemName c = .ok i c') :
    c'.db = c.db ∧ ∃ r ∈ c.db.items, some r.name = itemName ∧ i.toInt = r.id := by
  obtain ⟨hf, hdb, -⟩ := query_ok h
  refine ⟨hdb, ?_⟩
  unfold selectItemId at hf
  split at hf
  · rename_i r hr
    cases hf
    have hm := List.mem_of_find?_eq_some hr
    exact ⟨r, hm, by simpa using List.find?_some hr, fits_item c.db.valid ⟨r, hm, rfl⟩⟩
  · cases hf

/-- Only the name "funds" finds the funds item. -/
theorem item_ne_funds {st : Storage} {t : Tables} (hv : t.Valid) (hi : Invariant st t) {r : ItemRow}
    (hr : r ∈ t.items) (hn : r.name ≠ fundsItemName) : r.id ≠ st.fundsItemId.toInt := fun he =>
  hn (congrArg ItemRow.name (List.inj_on_of_nodup_map hv.itemIds hr hi.funds he))

/-- The fee of a price does not overflow. -/
theorem toInt_sellOrderFee {price : Int32} (h : 0 ≤ price.toInt) :
    (sellOrderFee price).toInt = price.toInt / 20 + 1 := by
  have h1 := price.toInt_lt
  have h2 : (20 : Int32).toInt = 20 := rfl
  have h3 : (1 : Int32).toInt = 1 := rfl
  have h4 : (Int32.toInt price).tdiv 20 = price.toInt / 20 := Int.tdiv_eq_ediv_of_nonneg h
  have h5 : (price.toInt / 20).bmod (2 ^ 32) = price.toInt / 20 := Int.bmod_eq_of_le (by omega) (by omega)
  unfold sellOrderFee
  rw [Int32.toInt_add, Int32.toInt_div, h2, h3, h4, h5]
  exact Int.bmod_eq_of_le (by omega) (by omega)

theorem lt_nextSellOrderId (t : Tables) : t.sellOrdersSeq < nextSellOrderId t :=
  lt_newRowId (List.mem_cons_self ..)

/-- The order `place_sell_order` places. -/
def placedOrder (t : Tables) (orderType : SellOrderType) (sellerId : UserId) (itemId quantity price : Int32)
    (unixExpirationTime : ℤ) : Order ℤ ℤ where
  id := nextSellOrderId t
  seller := sellerId.toInt
  item := itemId.toInt
  quantity := quantity.toInt
  price := price.toInt
  expires := unixExpirationTime
  terms := if orderType = .immediate then .immediate else .auction none

theorem order_row (order : SellOrder) (id : ℤ) (orderType : SellOrderType)
    (hb : order.buyerId = if orderType = .immediate then some order.sellerId else none) :
    (order.row id).order =
      { id, seller := order.sellerId.toInt, item := order.itemId.toInt, quantity := order.quantity.toInt,
        price := order.price.toInt, expires := order.unixExpirationTime,
        terms := if orderType = .immediate then .immediate else .auction none } := by
  simp only [SellOrderRow.order, SellOrder.row, SellOrderRow.terms, hb]
  cases orderType <;> simp

theorem placeSteps_ok {st : Storage} {orderType : SellOrderType} {sellerId : UserId} {itemName : StringView}
    {quantity price : Int32} {unixExpirationTime : ℤ} {c c' : Connection} (hi : Invariant st c.db.toTables)
    (hname : itemName ≠ some fundsItemName)
    (h : placeSteps st orderType sellerId itemName quantity price unixExpirationTime c = .ok () c') :
    ∃ itemId x, (∃ r ∈ c.db.items, some r.name = itemName ∧ itemId.toInt = r.id) ∧
      c.db.inventory (sellerId.toInt, itemId.toInt) = some x ∧ quantity ≤ columnInt x ∧
      sellOrderFee price ≤ columnInt (c.db.balance sellerId.toInt st.fundsItemId.toInt) ∧
      Dealt st c.db.toTables c'.db.toTables
        (.place (placedOrder c.db.toTables orderType sellerId itemId quantity price unixExpirationTime)
          (sellOrderFee price).toInt (spoiled st itemId quantity x)) := by
  unfold placeSteps at h
  obtain ⟨itemId, c₁, h1, h⟩ := Sql.bind_ok_iff.1 h
  obtain ⟨⟨⟩, c₂, h2, h3⟩ := Sql.bind_ok_iff.1 h
  obtain ⟨itemId', c₀, h0, h1⟩ := Sql.bind_ok_iff.1 (Sql.mapError_ok_iff.1 h1)
  obtain ⟨⟨⟩, _, h1, hp⟩ := Sql.bind_ok_iff.1 h1
  cases hp
  -- the item, which is not funds
  obtain ⟨hdb, r, hr, hrn, hrid⟩ := getItemId_ok h0
  have hne : itemId.toInt ≠ st.fundsItemId.toInt := by
    rw [hrid]
    exact item_ne_funds c.db.valid hi hr fun he => hname (by rw [← hrn, he])
  -- the two charges
  obtain ⟨x, hx, hread, hq, hm1⟩ := moved_subUserItem h1
  obtain ⟨hfread, hf, hm2⟩ := moved_subFunds (Sql.mapError_ok_iff.1 h2)
  rw [hdb] at hx hm1
  have hsame : c₁.db.balance sellerId.toInt st.fundsItemId.toInt =
      c.db.balance sellerId.toInt st.fundsItemId.toInt := by
    rw [hm1.balance, give_of_ne_item hne.symm, neg_zero, add_zero]
  rw [hsame] at hfread hf
  have hm := hm1.trans hm2
  -- the order
  obtain ⟨ht, -⟩ := execute_ok h3
  have hid : nextSellOrderId c₂.db.toTables = nextSellOrderId c.db.toTables := by
    unfold nextSellOrderId; rw [hm.sellOrders, hm.sellOrdersSeq]
  obtain ⟨order, horder⟩ : ∃ o : SellOrder, o = SellOrder.mk sellerId itemId quantity price unixExpirationTime
    (if orderType = .immediate then some sellerId else none) := ⟨_, rfl⟩
  rw [← horder] at ht
  have hrow : order.row (nextSellOrderId c₂.db.toTables) ∈ c'.db.sellOrders := by
    rw [ht]; exact List.mem_append_right _ (List.mem_singleton_self _)
  have hok := c'.db.valid.sellOrders _ hrow
  have hprice : 0 < price.toInt := by have := hok.price; rwa [horder] at this
  have hquantity : 0 < quantity.toInt := by have := hok.quantity; rwa [horder] at this
  have horder' : (order.row (nextSellOrderId c₂.db.toTables)).order =
      placedOrder c.db.toTables orderType sellerId itemId quantity price unixExpirationTime := by
    rw [horder, order_row _ _ orderType rfl, hid]; rfl
  have hfee := toInt_sellOrderFee hprice.le
  have hbal : ∀ v j, c'.db.balance v j = c₂.db.balance v j := fun v j => by rw [ht]; rfl
  refine ⟨itemId, x, ⟨r, hr, hrn, hrid⟩, hx, hread, hfread, ⟨?_, market_apply (fun v j => ?_) ?_ ?_, ?_⟩⟩
  · refine ⟨lt_nextSellOrderId c.db.toTables, hquantity, hprice, hne, ?_, by rw [hfee]; omega, spoiled_nonneg st _ _ hq,
      ?_, hf⟩
    · unfold Order.bidder placedOrder
      cases orderType <;> rfl
    · show quantity.toInt + _ ≤ c.db.balance sellerId.toInt itemId.toInt
      rw [Tables.balance_of_inventory hx]
      exact add_spoiled_le st _ _ hq
  · rw [hbal, hm.balance]
    simp only [Market.delta, placedOrder]
    omega
  · rw [ht]
    show List.map _ (c₂.db.sellOrders ++ [_]) = c.db.sellOrders.map _ ++ [_]
    rw [List.map_append, hm.sellOrders, List.map_singleton, horder']
  · rw [ht]
    exact hid
  · rw [ht]
    refine (hm.invariant hi).of_orders rfl (lt_nextSellOrderId c₂.db.toTables).le fun o ho => ?_
    rcases List.mem_append.1 ho with ho | ho
    · exact .inl ho
    · rw [List.mem_singleton.1 ho, horder]
      exact .inr ⟨hne, toInt_le_intMax quantity, toInt_le_intMax price, le_rfl⟩

/-! ## Trading an order -/

theorem ids_order {t : Tables} {o x : SellOrderRow} (hv : t.Valid) (ho : o ∈ t.sellOrders) (hx : x ∈ t.sellOrders)
    (h : x.id = o.id) : x = o := List.inj_on_of_nodup_map hv.sellOrderIds hx ho h

/-- Guards on what was read of an order are guards on the order. -/
theorem ne_seller {o : SellOrderRow} {u : UserId} (h : u ≠ (innerInfo o).sellerId) :
    u.toInt ≠ o.sellerId := fun he => by
  apply h
  show u = columnInt o.sellerId
  rw [← he, columnInt_toInt]

theorem executeSteps_ok {st : Storage} {buyerId : UserId} {sellOrderId : Int32} {o : SellOrderRow} {c c' : Connection}
    (hi : Invariant st c.db.toTables) (ho : o ∈ c.db.sellOrders) (hid : o.id = sellOrderId.toInt)
    (htype : (innerInfo o).type = .immediate) (hne : buyerId ≠ (innerInfo o).sellerId)
    (h : executeSteps st buyerId sellOrderId (innerInfo o) c = .ok () c') :
    columnInt o.price ≤ columnInt (c.db.balance buyerId.toInt st.fundsItemId.toInt) ∧
      Dealt st c.db.toTables c'.db.toTables (.purchase buyerId.toInt o.order) := by
  have hv := c.db.valid
  unfold executeSteps at h
  obtain ⟨⟨⟩, c₁, h1, h⟩ := Sql.bind_ok_iff.1 h
  obtain ⟨⟨⟩, c₂, h2, h⟩ := Sql.bind_ok_iff.1 h
  obtain ⟨⟨⟩, c₃, h3, h4⟩ := Sql.bind_ok_iff.1 h
  -- the price leaves the buyer and reaches the seller, the items reach the buyer
  obtain ⟨hread, hf, hm1⟩ := moved_subFunds (Sql.mapError_ok_iff.1 h1)
  obtain ⟨-, hm2⟩ := moved_addUserItem h2
  obtain ⟨-, hm3⟩ := moved_addUserItem h3
  have hm := (hm1.trans hm2).trans hm3
  have hp : (innerInfo o).price.toInt = o.price := price_fits hv hi ho
  have hq : (innerInfo o).quantity.toInt = o.quantity := quantity_fits hv hi ho
  have hs : (innerInfo o).sellerId.toInt = o.sellerId := seller_fits hv ho
  have hit : (innerInfo o).itemId.toInt = o.itemId := item_fits hv ho
  rw [hp] at hf hm
  rw [hq, hs, hit] at hm
  obtain ⟨ht, -⟩ := execute_ok h4
  have himm := (type_innerInfo hv ho).1 htype
  refine ⟨hread, ⟨mem_market.2 ⟨o, ho, rfl⟩, SellOrderRow.terms_immediate himm, ne_seller hne, hf⟩,
    market_apply (fun v j => ?_) ?_ ?_, ?_⟩
  · rw [ht]
    refine (hm.balance v j).trans ?_
    simp only [Market.delta, SellOrderRow.order]
    omega
  · rw [ht]
    show (Sql.delete SellOrderRow.id sellOrderId.toInt c₃.db.sellOrders).map _ = (c.db.sellOrders.map _).filter _
    rw [hm.sellOrders, Sql.delete, ← hid, List.filter_map]
    rfl
  · rw [ht]; exact hm.sellOrdersSeq
  · rw [ht]
    exact (hm.invariant hi).of_orders rfl le_rfl fun x hx => .inl (List.mem_filter.1 hx).1

/-- The return of the previous bid, before the new bidder is charged. -/
theorem returnFunds_ok {st : Storage} {o : SellOrderRow} {c c' : Connection} (hi : Invariant st c.db.toTables)
    (ho : o ∈ c.db.sellOrders) (htype : o.buyerId ≠ some o.sellerId)
    (h : returnFunds st (innerInfo o) c = .ok () c') :
    Moved c.db.toTables c'.db.toTables (refund st.fundsItemId.toInt o.order) := by
  have hv := c.db.valid
  have hbid : o.order.bidder = o.buyerId := by
    rw [SellOrderRow.bidder_order]
    rcases hb : o.buyerId with _ | b
    · simp
    · rw [(hasBid_iff o).2 ⟨b, hb, fun e => htype (by rw [hb, e])⟩]; rfl
  unfold returnFunds at h
  unfold refund
  rw [hbid]
  rcases hb : o.buyerId with _ | b
  · have : (innerInfo o).buyerId = none := by simp [innerInfo, hb]
    rw [this] at h
    cases h
    exact Moved.refl _
  · have : (innerInfo o).buyerId = some (columnInt b) := by simp [innerInfo, hb]
    rw [this] at h
    obtain ⟨-, hm⟩ := moved_addUserItem (Sql.mapError_ok_iff.1 h)
    have hp : (innerInfo o).price.toInt = o.price := price_fits hv hi ho
    rw [buyer_fits hv ho hb, hp] at hm
    exact hm

theorem bidSteps_ok {st : Storage} {buyerId : UserId} {sellOrderId bid : Int32} {o : SellOrderRow} {c c' : Connection}
    (hi : Invariant st c.db.toTables) (ho : o ∈ c.db.sellOrders) (hid : o.id = sellOrderId.toInt)
    (htype : (innerInfo o).type = .auction) (hne : buyerId ≠ (innerInfo o).sellerId)
    (hbid : ¬ bid ≤ (innerInfo o).price)
    (h : bidSteps st buyerId sellOrderId bid (innerInfo o) c = .ok () c') :
    bid ≤ columnInt (c.db.balance buyerId.toInt st.fundsItemId.toInt +
        refund st.fundsItemId.toInt o.order buyerId.toInt st.fundsItemId.toInt) ∧
      Dealt st c.db.toTables c'.db.toTables (.bid buyerId.toInt o.order bid.toInt) := by
  have hv := c.db.valid
  have hauction : o.buyerId ≠ some o.sellerId := fun he => by
    rw [(type_innerInfo hv ho).2 he] at htype; cases htype
  unfold bidSteps at h
  obtain ⟨⟨⟩, c₁, h1, h⟩ := Sql.bind_ok_iff.1 h
  obtain ⟨⟨⟩, c₂, h2, h3⟩ := Sql.bind_ok_iff.1 h
  -- the charge is compared with the balance after the refund
  have hm1 := returnFunds_ok hi ho hauction h1
  obtain ⟨hread, hf, hm2⟩ := moved_subFunds (Sql.mapError_ok_iff.1 h2)
  rw [hm1.balance] at hread hf
  have hm := hm1.trans hm2
  obtain ⟨ht, -⟩ := execute_ok h3
  have hp : (innerInfo o).price.toInt = o.price := price_fits hv hi ho
  have hseller := ne_seller hne
  have hmore : o.price < bid.toInt := by
    rw [Int32.le_iff_toInt_le, hp] at hbid
    omega
  refine ⟨hread, ⟨mem_market.2 ⟨o, ho, rfl⟩, ?_, hseller, hmore, hf⟩, market_apply (fun v j => ?_) ?_ ?_, ?_⟩
  · rw [SellOrderRow.isImmediate_order]; simpa using hauction
  · rw [ht]
    exact hm.balance v j
  · rw [ht]
    show (Sql.update SellOrderRow.id sellOrderId.toInt _ c₂.db.sellOrders).map _ =
      (c.db.sellOrders.map SellOrderRow.order).map _
    rw [hm.sellOrders, Sql.update, List.map_map, List.map_map]
    refine List.map_congr_left fun x hx => ?_
    simp only [Function.comp_apply]
    by_cases hxo : x.id = o.id
    · have : x = o := ids_order hv ho hx hxo
      subst this
      rw [if_pos hid, if_pos rfl]
      exact SellOrderRow.order_setBuyer x hseller bid.toInt
    · rw [if_neg (by rw [← hid]; exact hxo), if_neg (show x.order.id ≠ o.order.id from hxo)]
  · rw [ht]; exact hm.sellOrdersSeq
  · have hi2 := hm.invariant hi
    rw [ht]
    refine hi2.of_orders rfl le_rfl fun x hx => ?_
    obtain ⟨y, hy, rfl⟩ := List.mem_map.1 hx
    split
    · exact .inr ⟨hi2.items y hy, hi2.quantities y hy, toInt_le_intMax bid, hi2.issued y hy⟩
    · exact .inl hy

/-! ## Settling -/

theorem total_postings (f : ℤ) (o : SellOrderRow) (v j : ℤ) :
    Sql.total (postings f o) (v, j) = payout f o.order v j := by
  have hgive : ∀ u i a : ℤ, (if (u, i) = (v, j) then a else 0) = give u i a v j := by
    intro u i a
    simp only [give, Prod.mk.injEq, eq_comm]
  unfold postings payout
  rw [SellOrderRow.bidder_order]
  rcases hb : hasBid o
  · simp only [Bool.false_eq_true, if_false, Sql.total_cons, Sql.total_nil, itemPosting, itemsTo_of_not_hasBid hb,
      hgive, Int.add_zero]
    rfl
  · obtain ⟨b, hbuyer, hne⟩ := (hasBid_iff o).1 hb
    simp only [if_true, hbuyer, Sql.total_cons, Sql.total_nil, itemPosting, pricePosting, itemsTo_of_hasBid hbuyer hne,
      hgive, Int.add_zero]
    rfl

theorem total_flatMap_postings (f : ℤ) (v j : ℤ) : ∀ orders : List SellOrderRow,
    Sql.total (orders.flatMap (postings f)) (v, j) = (orders.map fun o => payout f o.order v j).sum
  | [] => rfl
  | o :: orders => by
    rw [List.flatMap_cons, Sql.total_append, total_postings, total_flatMap_postings f v j orders, List.map_cons,
      List.sum_cons]

theorem due_market (t : Tables) (now : ℤ) : t.market.due now = (expired now t).map SellOrderRow.order := by
  unfold Market.due expired Tables.market
  rw [List.filter_map]
  rfl

theorem settle_dealt {st : Storage} {t t' : Tables} (hv : t.Valid) (hi : Invariant st t) {now : ℤ}
    (ht : t' = deleteExpired now (settleItems st.fundsItemId.toInt now t)) : Dealt st t t' (.settle now) := by
  subst ht
  refine ⟨trivial, market_apply (fun v j => ?_) ?_ rfl, ?_⟩
  · show Tables.balance (settleItems st.fundsItemId.toInt now t) v j = _
    unfold Tables.balance
    rw [inventory_settleItems hv hi.items, Sql.creditAll_getD, total_flatMap_postings]
    simp only [Market.delta, due_market, List.map_map, Function.comp_def]
  · show (t.sellOrders.filter _).map _ = (t.sellOrders.map _).filter _
    rw [List.filter_map]
    rfl
  · exact hi.of_orders rfl le_rfl fun x hx => .inl (List.mem_filter.1 hx).1

/-- The steps of a settlement succeeded: both statements took effect, and the orders it returns
were read before, or their query was refused. -/
theorem settle_ok {st : Storage} {now : ℤ} {executed : Except Error (List SellOrderExecutionInfo)}
    {c c' : Connection} (hheld : Sql.Held c.faults) (h : settle st now c = .ok executed c') :
    (executed = .ok (executedAuctionOrders now c.db.toTables) ∨ ∃ e, executed = .error e) ∧
      c'.db.toTables = deleteExpired now (settleItems st.fundsItemId.toInt now c.db.toTables) := by
  unfold settle at h
  obtain ⟨r, c₁, h1, h⟩ := Sql.bind_ok_iff.1 h
  obtain ⟨⟨⟩, c₂, h2, h⟩ := Sql.bind_ok_iff.1 h
  obtain ⟨⟨⟩, c₃, h3, h4⟩ := Sql.bind_ok_iff.1 h
  cases h4
  rw [Sql.attempt_apply] at h1
  cases h1
  have hdb := (query_held (fun t => .ok (executedAuctionOrders now t)) hheld).1
  obtain ⟨ht2, -⟩ := execute_ok (Sql.mapError_ok_iff.1 h2)
  obtain ⟨ht3, -⟩ := execute_ok (Sql.mapError_ok_iff.1 h3)
  refine ⟨?_, by rw [ht3, ht2, hdb]⟩
  rcases hq : query (fun t => .ok (executedAuctionOrders now t)) c with ⟨l, c₁⟩ | ⟨e, c₁⟩
  · obtain ⟨hf, -, -⟩ := query_ok hq
    cases hf
    exact .inl rfl
  · exact .inr ⟨e, rfl⟩

end AuctionHouse
