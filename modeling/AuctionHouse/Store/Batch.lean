/-
The settlement tick without refusals: it succeeds, its one aggregated statement leaves the same
rows as settling the expired orders one at a time in any order, and its list reports each executed
auction once. So missed and extra ticks do not matter.
-/
import AuctionHouse.Store.Reachable
import AuctionHouse.Store.Tick

namespace AuctionHouse

open Storage

/-- The same rows in every table; SQL gives the rows of `user_items` no order. -/
structure SameRows (a b : Tables) : Prop where
  users : a.users = b.users
  items : a.items = b.items
  userItems : a.userItems.Perm b.userItems
  sellOrders : a.sellOrders = b.sellOrders
  sellOrdersSeq : a.sellOrdersSeq = b.sellOrdersSeq

/-- What a settlement reports of an executed auction is what is stored of it. -/
structure Reports (o : SellOrderRow) (info : SellOrderExecutionInfo) : Prop where
  id : info.id = columnInt o.id
  seller : info.sellerId.toInt = o.sellerId
  buyer : some info.buyerId.toInt = o.buyerId
  item : info.itemId.toInt = o.itemId
  quantity : info.quantity.toInt = o.quantity
  price : info.price.toInt = o.price

/-! ## The tables a settlement leaves -/

section
variable {st : Storage} {t : Tables} (hv : t.Valid) (hi : Invariant st t) (now : ℤ)
include hv hi

theorem valid_settledTables : (settledTables st now t).Valid :=
  (settleItems_valid hv fun _ => hi.hasFunds).deleteExpired now

theorem invariant_settledTables : Invariant st (settledTables st now t) := (settle_dealt hv hi rfl).invariant

theorem inventory_settledTables : (settledTables st now t).inventory =
    Sql.creditAll ((expired now t).flatMap (postings st.fundsItemId.toInt)) t.inventory :=
  inventory_settleItems hv hi.items

/-- Taking the expired orders one at a time, in any order, leaves the same rows. -/
theorem settleEach_sameRows {orders : List SellOrderRow} (ho : orders.Perm (expired now t)) :
    SameRows (settleEach st.fundsItemId.toInt orders t) (settledTables st now t) := by
  obtain ⟨h1, h2, h3, h4⟩ := settleEach_frame st.fundsItemId.toInt orders t
  have hmem : ∀ o ∈ orders, o ∈ t.sellOrders := fun o h => (List.mem_filter.1 (ho.mem_iff.1 h)).1
  have hvalid := settleEach_valid hv (fun o h => hv.sellOrders o (hmem o h)) hi.hasFunds
  refine ⟨h1, h2, Tables.perm_of_inventory hvalid (valid_settledTables hv hi now) ?_, ?_, h4⟩
  · rw [inventory_settleEach, inventory_settledTables hv hi]
    exact Sql.creditAll_perm (ho.flatMap_right _) _
  · rw [h3]
    refine List.filter_congr fun o h => ?_
    have : o.id ∈ orders.map (·.id) ↔ o.expirationTime ≤ now := by
      rw [(ho.map _).mem_iff]
      constructor
      · intro hm
        obtain ⟨x, hx, hid⟩ := List.mem_map.1 hm
        obtain ⟨hx, hexp⟩ := List.mem_filter.1 hx
        rw [← ids_order hv h hx hid]
        simpa using hexp
      · intro hexp
        exact List.mem_map.2 ⟨o, List.mem_filter.2 ⟨h, by simpa using hexp⟩, rfl⟩
    simp only [decide_not, this]

/-- Settling twice settles what settling at the later time does. -/
theorem settledTables_twice {later : ℤ} (h : now ≤ later) :
    SameRows (settledTables st later (settledTables st now t)) (settledTables st later t) := by
  have hv' := valid_settledTables hv hi now
  have hi' := invariant_settledTables hv hi now
  -- the later tick takes what the first one did, and what has expired since
  have hsplit : (expired now t ++ expired later (settledTables st now t)).Perm (expired later t) := by
    have := List.filter_append_perm (fun o : SellOrderRow => decide (o.expirationTime ≤ now)) (expired later t)
    refine List.Perm.trans (.of_eq ?_) this
    congr 1
    · unfold expired
      rw [List.filter_filter]
      refine List.filter_congr fun o _ => ?_
      by_cases ho : o.expirationTime ≤ now
      · simp [ho, ho.trans h]
      · simp [ho]
    · show List.filter _ (t.sellOrders.filter _) = List.filter _ (t.sellOrders.filter _)
      rw [List.filter_filter, List.filter_filter]
      refine List.filter_congr fun o _ => ?_
      exact Bool.and_comm _ _
  refine ⟨rfl, rfl, Tables.perm_of_inventory (valid_settledTables hv' hi' later) (valid_settledTables hv hi later) ?_,
    ?_, rfl⟩
  · rw [inventory_settledTables hv' hi', inventory_settledTables hv hi, inventory_settledTables hv hi,
      ← Sql.creditAll_append, ← List.flatMap_append]
    exact Sql.creditAll_perm (hsplit.flatMap_right _) _
  · show (t.sellOrders.filter _).filter _ = t.sellOrders.filter _
    rw [List.filter_filter]
    refine List.filter_congr fun o _ => ?_
    by_cases ho : o.expirationTime ≤ now
    · simp [ho, ho.trans h]
    · simp [ho]

/-- An inventory row that no expired order credits is untouched. -/
theorem inventory_untouched {k : ℤ × ℤ}
    (hk : ∀ o ∈ expired now t, k ≠ (itemsTo o, o.itemId) ∧ (hasBid o → k ≠ (o.sellerId, st.fundsItemId.toInt))) :
    (settledTables st now t).inventory k = t.inventory k := by
  rw [inventory_settledTables hv hi, Sql.creditAll_apply, if_neg]
  intro hm
  obtain ⟨p, hp, rfl⟩ := List.mem_map.1 hm
  obtain ⟨o, ho, hp⟩ := List.mem_flatMap.1 hp
  obtain ⟨h1, h2⟩ := hk o ho
  rcases List.mem_cons.1 hp with rfl | hp
  · exact h1 rfl
  · split at hp
    · rename_i hb
      rw [List.mem_singleton.1 hp] at h2
      exact h2 hb rfl
    · cases hp

theorem reports_executionInfo {o : SellOrderRow} (ho : o ∈ t.sellOrders) (hb : hasBid o) :
    Reports o (executionInfo o) := by
  obtain ⟨b, hbuyer, -⟩ := (hasBid_iff o).1 hb
  refine ⟨rfl, seller_fits hv ho, ?_, item_fits hv ho, quantity_fits hv hi ho, price_fits hv hi ho⟩
  show some (columnInt (o.buyerId.getD 0)).toInt = o.buyerId
  rw [hbuyer, Option.getD_some, buyer_fits hv ho hbuyer]

/-- The list reports every expired order with a bid once, and nothing else. -/
theorem reports_executed : ∃ sold : List SellOrderRow, sold.Nodup ∧
    (∀ o, o ∈ sold ↔ o ∈ t.sellOrders ∧ o.expirationTime ≤ now ∧ ∃ b, o.buyerId = some b ∧ b ≠ o.sellerId) ∧
      List.Forall₂ Reports sold (executedAuctionOrders now t) := by
  refine ⟨executedAuctions now t, ?_, fun o => ?_, ?_⟩
  · rw [(executedAuctions_perm now t).nodup_iff]
    exact (hv.sellOrderIds.of_map.filter _).filter _
  · rw [mem_executedAuctions, hasBid_iff]
  · refine List.forall₂_map_right_iff.2 (List.forall₂_same.2 fun o ho => ?_)
    obtain ⟨ho, -, hb⟩ := mem_executedAuctions.1 ho
    exact reports_executionInfo hv hi ho hb

end

/-- Without refusals the tick succeeds. -/
theorem processExpiredSellOrders_calm {st : Storage} {db : Database} (hi : Invariant st db.toTables) (now : ℤ) :
    processExpiredSellOrders st now (Sql.Connection.idle db) =
      .ok (executedAuctionOrders now db.toTables)
        (Sql.Connection.idle ⟨settledTables st now db.toTables, valid_settledTables db.valid hi now⟩) :=
  processExpiredSellOrders_granted (by simp) (settleItems_valid db.valid fun _ => hi.hasFunds)

/-- In every reachable state the tick at `now` succeeds; for every order in which the expired orders
can be taken it leaves the rows of settling them one at a time; orders that have not expired and
inventory rows that no expired order credits are untouched; its list reports every expired order
with a bid exactly once; and a tick at a later time then leaves the rows it would have left alone. -/
theorem settlement_one_by_one (calls : List Call) (now : ℤ) :
    let st := Storage.initial
    let db := reached calls
    ∃ list db', processExpiredSellOrders st now (Sql.Connection.idle db) = .ok list (Sql.Connection.idle db') ∧
      (∀ orders : List SellOrderRow, orders.Perm (expired now db.toTables) →
        SameRows (settleEach st.fundsItemId.toInt orders db.toTables) db'.toTables) ∧
      db'.sellOrders = db.sellOrders.filter (fun o => decide (now < o.expirationTime)) ∧
      (∀ userId itemId, (∀ o ∈ expired now db.toTables, (userId, itemId) ≠ (itemsTo o, o.itemId) ∧
          (hasBid o → (userId, itemId) ≠ (o.sellerId, st.fundsItemId.toInt))) →
        db'.inventory (userId, itemId) = db.inventory (userId, itemId)) ∧
      (∃ sold : List SellOrderRow, sold.Nodup ∧
        (∀ o, o ∈ sold ↔ o ∈ db.sellOrders ∧ o.expirationTime ≤ now ∧ ∃ b, o.buyerId = some b ∧ b ≠ o.sellerId) ∧
          List.Forall₂ Reports sold list) ∧
      ∀ later, now ≤ later → ∃ list₁ db₁ list₂ db₂,
        processExpiredSellOrders st later (Sql.Connection.idle db') = .ok list₁ (Sql.Connection.idle db₁) ∧
        processExpiredSellOrders st later (Sql.Connection.idle db) = .ok list₂ (Sql.Connection.idle db₂) ∧
        SameRows db₁.toTables db₂.toTables := by
  intro st db
  have hi : Invariant st db.toTables := reached_invariant calls
  have hi' := invariant_settledTables db.valid hi now
  refine ⟨_, _, processExpiredSellOrders_calm hi now, fun orders ho => settleEach_sameRows db.valid hi now ho, ?_,
    fun userId itemId h => inventory_untouched db.valid hi now h, reports_executed db.valid hi now,
    fun later h => ⟨_, _, _, _, processExpiredSellOrders_calm hi' later, processExpiredSellOrders_calm hi later,
      settledTables_twice db.valid hi now h⟩⟩
  show db.sellOrders.filter _ = _
  refine List.filter_congr fun o _ => ?_
  rw [← decide_not]
  simp only [not_le]

end AuctionHouse
