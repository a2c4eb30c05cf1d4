/-
When spending is accepted. Every charge compares the balance as the `int` read from its 64-bit
column, so a covered command is accepted exactly when the balances it charges also read as enough.
-/
import AuctionHouse.Store.Auction

namespace AuctionHouse

open Storage AuctionService

/-! ## Charges without refusals -/

theorem inventory_of_balance {t : Tables} {u i : ℤ} (h : 0 < t.balance u i) :
    t.inventory (u, i) = some (t.balance u i) := by
  rcases hx : t.inventory (u, i) with _ | x
  · unfold Tables.balance at h; rw [hx] at h; exact absurd h (lt_irrefl 0)
  · rw [Tables.balance_of_inventory hx]

theorem getItemId_calm {itemName : StringView} {db : Database} {r : ItemRow} (hr : r ∈ db.items)
    (hn : some r.name = itemName) (saved : Option Database) :
    getItemId itemName ⟨db, saved, []⟩ = .ok (columnInt r.id) ⟨db, saved, []⟩ := by
  have hfind : db.items.find? (fun i => decide (some i.name = itemName)) = some r := by
    rcases h : db.items.find? (fun i => decide (some i.name = itemName)) with _ | r'
    · have := List.find?_eq_none.1 h r hr
      simp [hn] at this
    · have hm := List.mem_of_find?_eq_some h
      have hn' : some r'.name = itemName := by simpa using List.find?_some h
      rw [h, List.inj_on_of_nodup_map db.valid.itemNames hm hr (Option.some.inj (hn'.trans hn.symm))]
  unfold getItemId
  rw [query_calm, selectItemId, hfind]

section
variable (st : Storage) (db : Database) {u : UserId} {q : Int32}

theorem subFunds_calm (hq : 0 < q.toInt) (h : q ≤ columnInt (db.balance u.toInt st.fundsItemId.toInt))
    (saved : Option Database) :
    db.HasUser u.toInt ∧ ∃ db', subFunds st u q ⟨db, saved, []⟩ = .ok () ⟨db', saved, []⟩ := by
  have hle := le_of_le_columnInt (Tables.balance_nonneg db.valid _ _) h
  have hx := inventory_of_balance (hq.trans_le hle)
  exact ⟨(Tables.row_ok db.valid hx).user, subUserItem_calm hx (Int32.not_lt.2 h) saved⟩

/-- A balance that reads as less is not charged. -/
theorem subFunds_short (h : ¬ q ≤ columnInt (db.balance u.toInt st.fundsItemId.toInt)) (saved : Option Database) :
    ∃ e, subFunds st u q ⟨db, saved, []⟩ = .error e ⟨db, saved, []⟩ := by
  unfold subFunds subUserItem
  rw [Sql.bind_of_ok (getUserItemsQuantity_eq u st.fundsItemId db saved)]
  rcases hx : db.inventory (u.toInt, st.fundsItemId.toInt) with _ | x
  · exact ⟨_, rfl⟩
  · rw [Tables.balance_of_inventory hx] at h
    simp only [Option.map_some, Sql.ite_apply, Int32.not_le.1 h, if_true]
    exact ⟨_, rfl⟩

variable {st db}

theorem addFunds_calm (hi : Invariant st db.toTables) (hq : 0 ≤ q.toInt) (hu : db.HasUser u.toInt)
    (saved : Option Database) : ∃ db', addFunds st u q ⟨db, saved, []⟩ = .ok () ⟨db', saved, []⟩ :=
  ⟨_, addUserItem_calm hq hu hi.hasFunds saved⟩

end

/-! ## Operations without refusals -/

section
variable {st : Storage} {db : Database} (hi : Invariant st db.toTables)

theorem withdraw_calm {userId : UserId} {itemName : StringView} {quantity : Int32} {r : ItemRow} {x : ℤ}
    (hq : 0 ≤ quantity.toInt) (hr : r ∈ db.items) (hn : some r.name = itemName)
    (hx : db.inventory (userId.toInt, r.id) = some x) (hread : quantity ≤ columnInt x) :
    ∃ info db', AuctionService.withdraw st userId itemName quantity (Sql.Connection.idle db) =
      .ok info (Sql.Connection.idle db') := by
  have hid : (columnInt r.id).toInt = r.id := fits_item db.valid ⟨r, hr, rfl⟩
  obtain ⟨db', hsub⟩ : ∃ db', subUserItem st userId (columnInt r.id) quantity ⟨db, none, []⟩ = .ok () ⟨db', none, []⟩ :=
    subUserItem_calm (by rw [hid]; exact hx) (Int32.not_lt.2 hread) none
  have hneg : ¬ quantity < 0 := by simpa [Int32.lt_iff_toInt_lt] using hq
  refine ⟨⟨columnInt r.id, quantity⟩, db', ?_⟩
  rw [withdraw_eq, Sql.ite_apply, if_neg hneg, Sql.mapError_ok_iff]
  unfold Sql.Connection.idle
  rw [Sql.bind_of_ok (getItemId_calm hr hn none), Sql.bind_of_ok hsub]
  rfl

include hi

theorem placeSellOrder_calm (orderType : SellOrderType) {sellerId : UserId} {itemName : StringView}
    {quantity price : Int32} {r : ItemRow} (unixExpirationTime : ℤ) (hq : 0 < quantity.toInt) (hp : 0 < price.toInt)
    (hname : itemName ≠ some fundsItemName) (hr : r ∈ db.items) (hn : some r.name = itemName)
    (hread : quantity ≤ columnInt (db.balance sellerId.toInt r.id))
    (hfee : sellOrderFee price ≤ columnInt (db.balance sellerId.toInt st.fundsItemId.toInt)) :
    ∃ info db', AuctionService.placeSellOrder st orderType sellerId itemName quantity price unixExpirationTime
      (Sql.Connection.idle db) = .ok info (Sql.Connection.idle db') := by
  have hid : (columnInt r.id).toInt = r.id := fits_item db.valid ⟨r, hr, rfl⟩
  have hne : r.id ≠ st.fundsItemId.toInt :=
    item_ne_funds db.valid hi hr fun he => hname (by rw [← hn, he])
  have hle := le_of_le_columnInt (Tables.balance_nonneg db.valid _ _) hread
  have hx := inventory_of_balance (hq.trans_le hle)
  -- the items, then the fee
  obtain ⟨db₁, h1⟩ : ∃ db₁, subUserItem st sellerId (columnInt r.id) quantity ⟨db, some db, []⟩ =
      .ok () ⟨db₁, some db, []⟩ := subUserItem_calm (by rw [hid]; exact hx) (Int32.not_lt.2 hread) (some db)
  obtain ⟨x, -, -, -, hm1⟩ := moved_subUserItem h1
  have hsame : db₁.balance sellerId.toInt st.fundsItemId.toInt = db.balance sellerId.toInt st.fundsItemId.toInt := by
    rw [hm1.balance, hid, give_of_ne_item hne.symm, neg_zero, add_zero]
  have hfee0 : 0 < (sellOrderFee price).toInt := by rw [toInt_sellOrderFee hp.le]; omega
  obtain ⟨-, db₂, h2⟩ := subFunds_calm st db₁ hfee0 (by rw [hsame]; exact hfee) (some db)
  have hm := hm1.trans (moved_subFunds h2).2.2
  -- the order
  have huser : db₂.HasUser sellerId.toInt := (hm.hasUser _).2 (Tables.row_ok db.valid hx).user
  have hitem : db₂.HasItem (columnInt r.id).toInt := (hm.hasItem _).2 (by rw [hid]; exact ⟨r, hr, rfl⟩)
  have hvalid : (insertSellOrder ⟨sellerId, columnInt r.id, quantity, price, unixExpirationTime,
      if orderType = .immediate then some sellerId else none⟩ db₂.toTables).Valid := by
    refine db₂.valid.insertSellOrder ⟨hq, hp, huser, fun b hb => ?_, hitem⟩
    simp only [SellOrder.row] at hb
    split at hb
    · cases hb; exact huser
    · cases hb
  have hsteps : placeSteps st orderType sellerId itemName quantity price unixExpirationTime ⟨db, some db, []⟩ =
      .ok () ⟨⟨_, hvalid⟩, some db, []⟩ := by
    have h0 : (do
        let itemId ← getItemId itemName
        subUserItem st sellerId itemId quantity
        return itemId : Exec Int32) ⟨db, some db, []⟩ = .ok (columnInt r.id) ⟨db₁, some db, []⟩ := by
      rw [Sql.bind_of_ok (getItemId_calm hr hn (some db)), Sql.bind_of_ok h1]; rfl
    unfold placeSteps
    rw [Sql.bind_of_ok (Sql.mapError_ok_iff.2 h0), Sql.bind_of_ok (Sql.mapError_ok_iff.2 h2)]
    exact execute_calm hvalid (some db)
  have hq' : ¬ quantity < 0 := by simpa [Int32.lt_iff_toInt_lt] using hq.le
  have hp' : ¬ price < 0 := by simpa [Int32.lt_iff_toInt_lt] using hp.le
  refine ⟨⟨st.fundsItemId, sellOrderFee price⟩, ⟨_, hvalid⟩, ?_⟩
  rw [placeSellOrder_eq, if_neg hq', if_neg hp', if_neg hname]
  exact transaction_calm _ hsteps

omit hi in
theorem getSellOrderInfo_calm {o : SellOrderRow} {sellOrderId : Int32} (ho : o ∈ db.sellOrders)
    (hid : o.id = sellOrderId.toInt) :
    getSellOrderInfo sellOrderId (Sql.Connection.idle db) = .ok (some (innerInfo o)) (Sql.Connection.idle db) := by
  unfold getSellOrderInfo Sql.Connection.idle
  rw [Sql.bind_apply, Sql.attempt_apply, query_calm, selectSellOrder, ← hid,
    Sql.find_of_mem SellOrderRow.id db.valid.sellOrderIds ho]
  rfl

theorem executeImmediateSellOrder_calm {buyerId : UserId} {sellOrderId : Int32} {o : SellOrderRow}
    (ho : o ∈ db.sellOrders) (hid : o.id = sellOrderId.toInt) (htype : (innerInfo o).type = .immediate)
    (hne : o.sellerId ≠ buyerId.toInt)
    (hread : columnInt o.price ≤ columnInt (db.balance buyerId.toInt st.fundsItemId.toInt)) :
    ∃ info db', AuctionService.executeImmediateSellOrder st buyerId sellOrderId (Sql.Connection.idle db) =
      .ok info (Sql.Connection.idle db') := by
  have hok := db.valid.sellOrders o ho
  have hp : (innerInfo o).price.toInt = o.price := price_fits db.valid hi ho
  have hq : (innerInfo o).quantity.toInt = o.quantity := quantity_fits db.valid hi ho
  have hs : (innerInfo o).sellerId.toInt = o.sellerId := seller_fits db.valid ho
  have hit : (innerInfo o).itemId.toInt = o.itemId := item_fits db.valid ho
  have hprice : 0 < (innerInfo o).price.toInt := by rw [hp]; exact hok.price
  have hquantity : 0 ≤ (innerInfo o).quantity.toInt := by rw [hq]; exact hok.quantity.le
  obtain ⟨hbuyer, db₁, h1⟩ := subFunds_calm st db hprice hread (some db)
  have hm1 := (moved_subFunds h1).2.2
  have hseller : db₁.HasUser (innerInfo o).sellerId.toInt := (hm1.hasUser _).2 (by rw [hs]; exact hok.seller)
  obtain ⟨db₂, h2⟩ := addFunds_calm (hm1.invariant hi) hprice.le hseller (some db)
  have hm := hm1.trans (moved_addUserItem h2).2
  have hitem : db₂.HasItem (innerInfo o).itemId.toInt := (hm.hasItem _).2 (by rw [hit]; exact hok.item)
  have h3 := addUserItem_calm hquantity ((hm.hasUser _).2 hbuyer) hitem (some db)
  obtain ⟨db', hsteps⟩ : ∃ db', executeSteps st buyerId sellOrderId (innerInfo o) ⟨db, some db, []⟩ =
      .ok () ⟨db', some db, []⟩ := by
    unfold executeSteps
    rw [Sql.bind_of_ok (Sql.mapError_ok_iff.2 h1), Sql.bind_of_ok h2, Sql.bind_of_ok h3]
    exact ⟨_, execute_calm (Tables.Valid.removeSellOrder (Database.valid _) _) _⟩
  have hne' : buyerId ≠ (innerInfo o).sellerId := fun e => hne (by rw [e, hs])
  refine ⟨⟨sellOrderId, (innerInfo o).sellerId, buyerId, (innerInfo o).itemId, (innerInfo o).quantity,
    (innerInfo o).price⟩, db', ?_⟩
  rw [executeImmediateSellOrder_eq, Sql.bind_of_ok (getSellOrderInfo_calm ho hid)]
  simp only [htype, ne_eq, not_true_eq_false, if_false, hne', Sql.ite_apply]
  exact transaction_calm _ hsteps

theorem returnFunds_calm {o : SellOrderRow} (ho : o ∈ db.sellOrders) (saved : Option Database) :
    ∃ db', returnFunds st (innerInfo o) ⟨db, saved, []⟩ = .ok () ⟨db', saved, []⟩ := by
  have hok := db.valid.sellOrders o ho
  unfold returnFunds
  rcases hb : o.buyerId with _ | b
  · have : (innerInfo o).buyerId = none := by simp [innerInfo, hb]
    rw [this]
    exact ⟨db, rfl⟩
  · have : (innerInfo o).buyerId = some (columnInt b) := by simp [innerInfo, hb]
    rw [this]
    have hp : (innerInfo o).price.toInt = o.price := price_fits db.valid hi ho
    obtain ⟨db', h⟩ := addFunds_calm (u := columnInt b) (q := (innerInfo o).price) hi (by rw [hp]; exact hok.price.le)
      (by rw [buyer_fits db.valid ho hb]; exact hok.buyer b hb) saved
    exact ⟨db', Sql.mapError_ok_iff.2 h⟩

theorem placeBidOnAuctionSellOrder_calm {buyerId : UserId} {sellOrderId bid : Int32} {o : SellOrderRow}
    (ho : o ∈ db.sellOrders) (hid : o.id = sellOrderId.toInt) (htype : (innerInfo o).type = .auction)
    (hne : o.sellerId ≠ buyerId.toInt) (hprice : o.price < bid.toInt)
    (hread : bid ≤ columnInt (db.balance buyerId.toInt st.fundsItemId.toInt +
      if o.buyerId = some buyerId.toInt then o.price else 0)) :
    ∃ db', AuctionService.placeBidOnAuctionSellOrder st buyerId sellOrderId bid (Sql.Connection.idle db) =
      .ok () (Sql.Connection.idle db') := by
  have hok := db.valid.sellOrders o ho
  have hp : (innerInfo o).price.toInt = o.price := price_fits db.valid hi ho
  have hs : (innerInfo o).sellerId.toInt = o.sellerId := seller_fits db.valid ho
  have hauction : o.buyerId ≠ some o.sellerId := fun he => by
    rw [(type_innerInfo db.valid ho).2 he] at htype; cases htype
  obtain ⟨db₁, h1⟩ := returnFunds_calm hi ho (some db)
  have hm1 := returnFunds_ok hi ho hauction h1
  have hbalance : db₁.balance buyerId.toInt st.fundsItemId.toInt = db.balance buyerId.toInt st.fundsItemId.toInt +
      if o.buyerId = some buyerId.toInt then o.price else 0 := by
    rw [← refund_auction hauction st.fundsItemId.toInt]
    exact hm1.balance _ _
  have hbid : 0 < bid.toInt := hok.price.trans hprice
  obtain ⟨hbuyer, db₂, h2⟩ := subFunds_calm st db₁ hbid (by rw [hbalance]; exact hread) (some db)
  have hbuyer₂ := ((moved_subFunds h2).2.2.hasUser buyerId.toInt).2 hbuyer
  obtain ⟨db', hsteps⟩ : ∃ db', bidSteps st buyerId sellOrderId bid (innerInfo o) ⟨db, some db, []⟩ =
      .ok () ⟨db', some db, []⟩ := by
    unfold bidSteps
    rw [Sql.bind_of_ok h1, Sql.bind_of_ok (Sql.mapError_ok_iff.2 h2)]
    exact ⟨_, execute_calm (db₂.valid.setBuyer hbuyer₂ hbid) (some db)⟩
  have hne' : buyerId ≠ (innerInfo o).sellerId := fun e => hne (by rw [e, hs])
  have hprice' : ¬ bid ≤ (innerInfo o).price := by rw [Int32.le_iff_toInt_le, hp]; omega
  refine ⟨db', ?_⟩
  rw [placeBidOnAuctionSellOrder_eq, Sql.bind_of_ok (getSellOrderInfo_calm ho hid)]
  simp only [htype, ne_eq, not_true_eq_false, if_false, hne', hprice', Sql.ite_apply]
  exact transaction_calm (fun _ => .ok ()) hsteps

end

/-! ## Accepted and covered -/

/-- An operation without refusals returns a result. -/
def Succeeds (st : Storage) (db : Database) (operation : Operation) : Prop :=
  ∃ reply, Call.reply st ⟨operation, []⟩ db = .ok reply

/-- A command whose charges are covered by what is stored. -/
def Covered (st : Storage) (t : Tables) : Operation → Prop
  | .withdraw userId itemName quantity =>
    0 ≤ quantity.toInt ∧ ∃ r ∈ t.items, some r.name = itemName ∧
      ∃ x, t.inventory (userId.toInt, r.id) = some x ∧ quantity.toInt ≤ x
  | .placeSellOrder _ sellerId itemName quantity price _ =>
    0 < quantity.toInt ∧ 0 < price.toInt ∧ itemName ≠ some fundsItemName ∧
      (∃ r ∈ t.items, some r.name = itemName ∧ quantity.toInt ≤ t.balance sellerId.toInt r.id) ∧
      price.toInt / 20 + 1 ≤ t.balance sellerId.toInt st.fundsItemId.toInt
  | .executeImmediateSellOrder buyerId sellOrderId =>
    ∃ o ∈ t.sellOrders, o.id = sellOrderId.toInt ∧ (innerInfo o).type = .immediate ∧ o.sellerId ≠ buyerId.toInt ∧
      o.price ≤ t.balance buyerId.toInt st.fundsItemId.toInt
  | .placeBidOnAuctionSellOrder buyerId sellOrderId bid =>
    ∃ o ∈ t.sellOrders, o.id = sellOrderId.toInt ∧ (innerInfo o).type = .auction ∧ o.sellerId ≠ buyerId.toInt ∧
      o.price < bid.toInt ∧ bid.toInt ≤ t.balance buyerId.toInt st.fundsItemId.toInt +
        if o.buyerId = some buyerId.toInt then o.price else 0
  | _ => True

/-- Every balance that a command charges also reads, as an `int`, as at least the charge. -/
def ReadsEnough (st : Storage) (t : Tables) : Operation → Prop
  | .withdraw userId itemName quantity =>
    ∀ r ∈ t.items, some r.name = itemName → quantity ≤ columnInt (t.balance userId.toInt r.id)
  | .placeSellOrder _ sellerId itemName quantity price _ =>
    (∀ r ∈ t.items, some r.name = itemName → quantity ≤ columnInt (t.balance sellerId.toInt r.id)) ∧
      sellOrderFee price ≤ columnInt (t.balance sellerId.toInt st.fundsItemId.toInt)
  | .executeImmediateSellOrder buyerId sellOrderId =>
    ∀ o ∈ t.sellOrders, o.id = sellOrderId.toInt →
      columnInt o.price ≤ columnInt (t.balance buyerId.toInt st.fundsItemId.toInt)
  | .placeBidOnAuctionSellOrder buyerId sellOrderId bid =>
    ∀ o ∈ t.sellOrders, o.id = sellOrderId.toInt →
      bid ≤ columnInt (t.balance buyerId.toInt st.fundsItemId.toInt +
        if o.buyerId = some buyerId.toInt then o.price else 0)
  | _ => True

section
variable {st : Storage} {db : Database} (hi : Invariant st db.toTables)
include hi

omit hi in
theorem item_unique {r r' : ItemRow} {itemName : StringView} (hr : r ∈ db.items) (hn : some r.name = itemName)
    (hr' : r' ∈ db.items) (hn' : some r'.name = itemName) : r' = r :=
  List.inj_on_of_nodup_map db.valid.itemNames hr' hr (Option.some.inj (hn'.trans hn.symm))

omit hi in
/-- What an accepted command charges is covered, and reads as enough. -/
theorem Explains.covered {operation : Operation} {reply : Reply} {d : Deal ℤ ℤ}
    (he : Explains st db.toTables operation (.ok reply) d) (ha : db.market.Allowed st.fundsItemId.toInt d) :
    Covered st db.toTables operation ∧ ReadsEnough st db.toTables operation := by
  cases he with
  | withdraw hitem hx hread =>
    obtain ⟨r, hr, hn, hid⟩ := hitem
    obtain ⟨hq, hs, -, -⟩ := ha
    rw [hid] at hx
    have hle := le_of_le_columnInt (Tables.row_ok db.valid hx).quantity hread
    refine ⟨⟨hq, r, hr, hn, _, hx, hle⟩, fun r' hr' hn' => ?_⟩
    rw [item_unique hr hn hr' hn', Tables.balance_of_inventory hx]
    exact hread
  | place hname hitem hx hread hfee =>
    obtain ⟨r, hr, hn, hid⟩ := hitem
    obtain ⟨-, hq, hp, -, -, -, -, -, hfunds⟩ := ha
    rw [hid] at hx
    have hle := le_of_le_columnInt (Tables.row_ok db.valid hx).quantity hread
    rw [toInt_sellOrderFee (le_of_lt hp)] at hfunds
    refine ⟨⟨hq, hp, hname, ⟨r, hr, hn, ?_⟩, hfunds⟩, fun r' hr' hn' => ?_, hfee⟩
    · rw [Tables.balance_of_inventory hx]; exact hle
    · rw [item_unique hr hn hr' hn', Tables.balance_of_inventory hx]
      exact hread
  | @purchase _ _ o ho hid hread =>
    obtain ⟨-, hterms, hne, hp⟩ := ha
    have himm : o.order.isImmediate = true := by unfold Order.isImmediate; rw [hterms]
    refine ⟨⟨o, ho, hid, (isImmediate_type db.valid ho).1 himm, Ne.symm hne, hp⟩, fun o' ho' hid' => ?_⟩
    rw [ids_order db.valid ho ho' (hid'.trans hid.symm)]
    exact hread
  | @bid _ _ _ o ho hid hread =>
    obtain ⟨-, himm, hne, hprice, hb⟩ := ha
    have hauction : o.buyerId ≠ some o.sellerId := by
      rw [SellOrderRow.isImmediate_order] at himm; simpa using himm
    rw [refund_auction hauction] at hb hread
    refine ⟨⟨o, ho, hid, auction_type db.valid ho himm, Ne.symm hne, hprice, hb⟩, fun o' ho' hid' => ?_⟩
    rw [ids_order db.valid ho ho' (hid'.trans hid.symm)]
    exact hread
  | login => exact ⟨trivial, trivial⟩
  | deposit => exact ⟨trivial, trivial⟩
  | settle => exact ⟨trivial, trivial⟩

/-- An accepted command is covered, whichever statements are refused. -/
theorem reply_covered {call : Call} {reply : Reply} (h : call.reply st db = .ok reply) :
    Covered st db.toTables call.operation ∧ ReadsEnough st db.toTables call.operation := by
  obtain ⟨d, he, hd⟩ := Call.next_dealt hi call
  rw [h] at he
  exact he.covered hd.allowed

omit hi in
theorem succeeds_of_calm {operation : Operation} {reply : Reply} {db' : Database}
    (h : operation.exec st (Sql.Connection.idle db) = .ok reply (Sql.Connection.idle db')) :
    Succeeds st db operation := ⟨reply, by rw [Call.reply_calm, h]; rfl⟩

theorem withdraw_succeeds (userId : UserId) (itemName : StringView) (quantity : Int32) :
    Succeeds st db (.withdraw userId itemName quantity) ↔
      Covered st db.toTables (.withdraw userId itemName quantity) ∧
        ReadsEnough st db.toTables (.withdraw userId itemName quantity) := by
  constructor
  · rintro ⟨reply, h⟩
    exact reply_covered hi h
  · rintro ⟨⟨hq, r, hr, hn, x, hx, -⟩, hread⟩
    have := hread r hr hn
    rw [Tables.balance_of_inventory hx] at this
    obtain ⟨info, db', h⟩ := withdraw_calm hq hr hn hx this
    exact succeeds_of_calm (Sql.map_ok_iff.2 ⟨info, h, rfl⟩)

theorem placeSellOrder_succeeds (orderType : SellOrderType) (sellerId : UserId) (itemName : StringView)
    (quantity price : Int32) (unixExpirationTime : ℤ) :
    Succeeds st db (.placeSellOrder orderType sellerId itemName quantity price unixExpirationTime) ↔
      Covered st db.toTables (.placeSellOrder orderType sellerId itemName quantity price unixExpirationTime) ∧
        ReadsEnough st db.toTables
          (.placeSellOrder orderType sellerId itemName quantity price unixExpirationTime) := by
  constructor
  · rintro ⟨reply, h⟩
    exact reply_covered hi h
  · rintro ⟨⟨hq, hp, hname, ⟨r, hr, hn, -⟩, -⟩, hread, hfee⟩
    obtain ⟨info, db', h⟩ := placeSellOrder_calm hi orderType unixExpirationTime hq hp hname hr hn
      (hread r hr hn) hfee
    exact succeeds_of_calm (Sql.map_ok_iff.2 ⟨info, h, rfl⟩)

theorem executeImmediateSellOrder_succeeds (buyerId : UserId) (sellOrderId : Int32) :
    Succeeds st db (.executeImmediateSellOrder buyerId sellOrderId) ↔
      Covered st db.toTables (.executeImmediateSellOrder buyerId sellOrderId) ∧
        ReadsEnough st db.toTables (.executeImmediateSellOrder buyerId sellOrderId) := by
  constructor
  · rintro ⟨reply, h⟩
    exact reply_covered hi h
  · rintro ⟨⟨o, ho, hid, htype, hne, -⟩, hread⟩
    obtain ⟨info, db', h⟩ := executeImmediateSellOrder_calm hi ho hid htype hne (hread o ho hid)
    exact succeeds_of_calm (Sql.map_ok_iff.2 ⟨info, h, rfl⟩)

theorem placeBidOnAuctionSellOrder_succeeds (buyerId : UserId) (sellOrderId bid : Int32) :
    Succeeds st db (.placeBidOnAuctionSellOrder buyerId sellOrderId bid) ↔
      Covered st db.toTables (.placeBidOnAuctionSellOrder buyerId sellOrderId bid) ∧
        ReadsEnough st db.toTables (.placeBidOnAuctionSellOrder buyerId sellOrderId bid) := by
  constructor
  · rintro ⟨reply, h⟩
    exact reply_covered hi h
  · rintro ⟨⟨o, ho, hid, htype, hne, hprice, -⟩, hread⟩
    obtain ⟨db', h⟩ := placeBidOnAuctionSellOrder_calm hi ho hid htype hne hprice (hread o ho hid)
    exact succeeds_of_calm (Sql.map_ok_iff.2 ⟨(), h, rfl⟩)

end

/-- The spending of a command is accepted exactly when it is covered, in exactly the states in which
what covers it also reads as enough. -/
theorem spending_accepted_iff (calls : List Call) :
    let st := Storage.initial
    let db := reached calls
    let Exact operation := (Succeeds st db operation ↔ Covered st db.toTables operation)
    let Reads operation := Covered st db.toTables operation → ReadsEnough st db.toTables operation
    (∀ userId itemName quantity,
      Exact (.withdraw userId itemName quantity) ↔ Reads (.withdraw userId itemName quantity)) ∧
    (∀ orderType sellerId itemName quantity price unixExpirationTime,
      Exact (.placeSellOrder orderType sellerId itemName quantity price unixExpirationTime) ↔
        Reads (.placeSellOrder orderType sellerId itemName quantity price unixExpirationTime)) ∧
    (∀ buyerId sellOrderId,
      Exact (.executeImmediateSellOrder buyerId sellOrderId) ↔ Reads (.executeImmediateSellOrder buyerId sellOrderId)) ∧
    ∀ buyerId sellOrderId bid,
      Exact (.placeBidOnAuctionSellOrder buyerId sellOrderId bid) ↔
        Reads (.placeBidOnAuctionSellOrder buyerId sellOrderId bid) := by
  intro st db Exact Reads
  have hi : Invariant st db.toTables := reached_invariant calls
  have hiff : ∀ {p q r : Prop}, (p ↔ q ∧ r) → ((p ↔ q) ↔ (q → r)) := by
    intro p q r h
    rw [h]
    exact and_iff_left_iff_imp
  exact ⟨fun _ _ _ => hiff (withdraw_succeeds hi _ _ _),
    fun _ _ _ _ _ _ => hiff (placeSellOrder_succeeds hi _ _ _ _ _ _),
    fun _ _ => hiff (executeImmediateSellOrder_succeeds hi _ _),
    fun _ _ _ => hiff (placeBidOnAuctionSellOrder_succeeds hi _ _ _)⟩

/-- One unit more makes a covered withdrawal of funds fail: 2^31 reads as a negative `int`. -/
theorem withdraw_rejected_when_covered :
    let login : Call := ⟨.login (some (text "alice")), []⟩
    let most : Call := ⟨.deposit 1 (some fundsItemName) 2147483647, []⟩
    let one : Call := ⟨.deposit 1 (some fundsItemName) 1, []⟩
    let withdrawal := Operation.withdraw 1 (some fundsItemName) 1
    Succeeds Storage.initial (reached [login, most]) withdrawal ∧
      Covered Storage.initial (reached [login, most, one]).toTables withdrawal ∧
      ¬ Succeeds Storage.initial (reached [login, most, one]) withdrawal := by
  intro login most one withdrawal
  have hitem : ⟨1, fundsItemName⟩ ∈ (reached [login, most, one]).items := by decide +kernel
  have hx : (reached [login, most, one]).inventory (1, 1) = some 2147483648 := by decide +kernel
  have hfail : Call.reply Storage.initial ⟨withdrawal, []⟩ (reached [login, most, one]) =
      .error (text "Not enough funds(s) to withdraw") := by decide +kernel
  refine ⟨⟨.item ⟨1, 1⟩, by decide +kernel⟩, ⟨by decide, _, hitem, rfl, _, hx, by decide⟩, fun ⟨reply, h⟩ => ?_⟩
  rw [hfail] at h
  cases h

end AuctionHouse
