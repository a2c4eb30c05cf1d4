/-
What each storage statement does to the quantities users have, to the constraints of the schema,
and when it succeeds without refusals.
-/
import AuctionHouse.Server.Services

namespace AuctionHouse

open Storage

/-! ## Quantities -/

namespace Tables

/-- The stored quantity of a user and an item. -/
def inventory (t : Tables) : ℤ × ℤ → Option ℤ := Sql.amounts UserItemRow.key UserItemRow.quantity t.userItems

/-- The stored quantity, 0 without a row. -/
def balance (t : Tables) (userId itemId : ℤ) : ℤ := (t.inventory (userId, itemId)).getD 0

theorem inventory_of_mem {t : Tables} (hv : t.Valid) {r : UserItemRow} (hr : r ∈ t.userItems) :
    t.inventory r.key = some r.quantity := by
  unfold inventory Sql.amounts
  rw [Sql.find_of_mem _ hv.userItemKeys hr]
  rfl

theorem mem_of_inventory {t : Tables} {u i q : ℤ} (h : t.inventory (u, i) = some q) :
    ⟨u, i, q⟩ ∈ t.userItems := by
  unfold inventory Sql.amounts at h
  obtain ⟨r, hr, rfl⟩ := Option.map_eq_some_iff.1 h
  obtain ⟨hm, hk⟩ := Sql.find_some _ hr
  simp only [UserItemRow.key, Prod.mk.injEq] at hk
  obtain ⟨rfl, rfl⟩ := hk
  exact hm

theorem row_ok {t : Tables} (hv : t.Valid) {u i q : ℤ} (h : t.inventory (u, i) = some q) :
    t.UserItemOk ⟨u, i, q⟩ := hv.userItems _ (mem_of_inventory h)

theorem balance_of_inventory {t : Tables} {u i q : ℤ} (h : t.inventory (u, i) = some q) : t.balance u i = q := by
  unfold balance; rw [h]; rfl

theorem balance_nonneg {t : Tables} (hv : t.Valid) (u i : ℤ) : 0 ≤ t.balance u i := by
  rcases h : t.inventory (u, i) with _ | q
  · unfold balance; rw [h]; exact le_rfl
  · rw [balance_of_inventory h]; exact (row_ok hv h).quantity

/-- Only the inventory of `userItems` decides whether two valid tables hold the same rows. -/
theorem perm_of_inventory {a b : Tables} (ha : a.Valid) (hb : b.Valid) (h : a.inventory = b.inventory) :
    a.userItems.Perm b.userItems := by
  refine Sql.perm_of_find _ ha.userItemKeys hb.userItemKeys fun ⟨u, i⟩ => ?_
  have hk := congrFun h (u, i)
  have hrow : ∀ {t : Tables}, t.Valid → Sql.find UserItemRow.key (u, i) t.userItems =
      (t.inventory (u, i)).map fun q => ⟨u, i, q⟩ := by
    intro t hv
    rcases hq : t.inventory (u, i) with _ | q
    · unfold inventory Sql.amounts at hq
      simpa using hq
    · exact Sql.find_of_mem _ hv.userItemKeys (r := ⟨u, i, q⟩) (mem_of_inventory hq)
  rw [hrow ha, hrow hb, hk]

end Tables

theorem inventory_addItem (u i q : ℤ) (t : Tables) :
    (addItem u i q t).inventory = Sql.credit (u, i) q t.inventory :=
  Sql.amounts_upsert UserItemRow.key UserItemRow.quantity (fun k a => ⟨k.1, k.2, a⟩) (fun _ _ => rfl) (fun _ _ => rfl)
    (UserItemRow.key_add q) (fun _ => rfl) (u, i) t.userItems

theorem inventory_reduceItem (u i q : ℤ) (t : Tables) (k : ℤ × ℤ) :
    (reduceItem u i q t).inventory k = if k = (u, i) then (t.inventory (u, i)).map (· - q) else t.inventory k := by
  unfold Tables.inventory Sql.amounts
  simp only [reduceItem]
  rw [Sql.find_update UserItemRow.key (UserItemRow.key_sub q)]
  split
  · simp [Function.comp_def]
  · rfl

theorem inventory_removeItem (u i : ℤ) (t : Tables) (k : ℤ × ℤ) :
    (removeItem u i t).inventory k = if k = (u, i) then none else t.inventory k := by
  unfold Tables.inventory Sql.amounts
  simp only [removeItem]
  rw [Sql.find_delete]
  split <;> rfl

theorem balance_addItem (u i q v j : ℤ) (t : Tables) :
    (addItem u i q t).balance v j = t.balance v j + if v = u ∧ j = i then q else 0 := by
  unfold Tables.balance
  rw [inventory_addItem]
  unfold Sql.credit
  by_cases h : v = u ∧ j = i
  · obtain ⟨rfl, rfl⟩ := h; simp
  · have : (v, j) ≠ (u, i) := fun e => h (by simpa using e)
    simp [h, this]

/-! ## Constraints -/

namespace Tables.Valid

variable {t : Tables}

theorem withUserItems (hv : t.Valid) {rows : List UserItemRow} (hk : (rows.map UserItemRow.key).Nodup)
    (h : ∀ r ∈ rows, t.UserItemOk r) : ({ t with userItems := rows } : Tables).Valid :=
  { hv with
    userItemKeys := hk
    userItems := fun r hr => ⟨(h r hr).quantity, (h r hr).user, (h r hr).item⟩
    sellOrders := fun o ho => ⟨(hv.sellOrders o ho).quantity, (hv.sellOrders o ho).price, (hv.sellOrders o ho).seller,
      (hv.sellOrders o ho).buyer, (hv.sellOrders o ho).item⟩ }

theorem withSellOrders (hv : t.Valid) {rows : List SellOrderRow} {seq : ℤ} (hk : (rows.map (·.id)).Nodup)
    (h : ∀ o ∈ rows, t.SellOrderOk o) : ({ t with sellOrders := rows, sellOrdersSeq := seq } : Tables).Valid :=
  { hv with
    sellOrderIds := hk
    userItems := fun r hr => ⟨(hv.userItems r hr).quantity, (hv.userItems r hr).user, (hv.userItems r hr).item⟩
    sellOrders := fun o ho => ⟨(h o ho).quantity, (h o ho).price, (h o ho).seller, (h o ho).buyer, (h o ho).item⟩ }

theorem addItem (hv : t.Valid) {u i q : ℤ} (hq : 0 ≤ q) (hu : t.HasUser u) (hi : t.HasItem i) :
    (Storage.addItem u i q t).Valid := by
  refine hv.withUserItems (Sql.nodup_upsert _ hv.userItemKeys (UserItemRow.key_add q) _) fun r hr => ?_
  rcases Sql.mem_upsert _ hr with rfl | hr | ⟨y, hy, -, rfl⟩
  · exact ⟨hq, hu, hi⟩
  · exact hv.userItems r hr
  · have := hv.userItems y hy
    exact ⟨Int.add_nonneg this.quantity hq, this.user, this.item⟩

theorem reduceItem (hv : t.Valid) {u i q : ℤ} (hq : ∀ x, t.inventory (u, i) = some x → q ≤ x) :
    (Storage.reduceItem u i q t).Valid := by
  refine hv.withUserItems (by rw [Sql.keys_update _ (UserItemRow.key_sub q)]; exact hv.userItemKeys) fun r hr => ?_
  obtain ⟨y, hy, rfl⟩ := List.mem_map.1 hr
  have hok := hv.userItems y hy
  split
  · rename_i hk
    have := hq y.quantity (hk ▸ inventory_of_mem hv hy)
    exact ⟨Int.sub_nonneg.2 this, hok.user, hok.item⟩
  · exact hok

theorem removeItem (hv : t.Valid) (u i : ℤ) : (Storage.removeItem u i t).Valid :=
  hv.withUserItems (Sql.nodup_filter _ hv.userItemKeys _) fun r hr => hv.userItems r (List.mem_filter.1 hr).1

theorem removeSellOrder (hv : t.Valid) (id : ℤ) : (Storage.removeSellOrder id t).Valid :=
  hv.withSellOrders (Sql.nodup_filter _ hv.sellOrderIds _) fun o ho => hv.sellOrders o (List.mem_filter.1 ho).1

theorem deleteExpired (hv : t.Valid) (now : ℤ) : (Storage.deleteExpired now t).Valid :=
  hv.withSellOrders (Sql.nodup_filter _ hv.sellOrderIds _) fun o ho => hv.sellOrders o (List.mem_filter.1 ho).1

theorem setBuyer (hv : t.Valid) {id buyer price : ℤ} (hb : t.HasUser buyer) (hp : 0 < price) :
    (Storage.setBuyer id buyer price t).Valid := by
  have hk : ((Storage.setBuyer id buyer price t).sellOrders.map (·.id)).Nodup := by
    show (List.map SellOrderRow.id (Sql.update SellOrderRow.id _ _ _)).Nodup
    rw [Sql.keys_update _ (SellOrderRow.id_setBuyer buyer price)]
    exact hv.sellOrderIds
  refine hv.withSellOrders hk fun o ho => ?_
  obtain ⟨y, hy, rfl⟩ := List.mem_map.1 ho
  have hok := hv.sellOrders y hy
  split
  · exact ⟨hok.quantity, hp, hok.seller, fun b h => by cases h; exact hb, hok.item⟩
  · exact hok

theorem insertSellOrder (hv : t.Valid) {order : SellOrder}
    (ho : t.SellOrderOk (order.row (nextSellOrderId t))) : (Storage.insertSellOrder order t).Valid := by
  refine hv.withSellOrders ?_ fun o h => ?_
  · refine Sql.nodup_append_singleton _ hv.sellOrderIds ((Sql.find_none _).2 fun r hr => ?_)
    have : r.id < nextSellOrderId t := lt_newRowId (List.mem_cons_of_mem _ (List.mem_map_of_mem hr))
    exact this.ne
  · rcases List.mem_append.1 h with h | h
    · exact hv.sellOrders o h
    · rw [List.mem_singleton.1 h]; exact ho

end Tables.Valid

/-! ## Ids in an `int` -/

theorem fits_user {t : Tables} (hv : t.Valid) {id : ℤ} (h : t.HasUser id) : (columnInt id).toInt = id := by
  obtain ⟨u, hu, rfl⟩ := h
  have := hv.userRange u hu
  exact columnInt_of_fits (by have := this.1; omega) this.2

theorem fits_item {t : Tables} (hv : t.Valid) {id : ℤ} (h : t.HasItem id) : (columnInt id).toInt = id := by
  obtain ⟨i, hi, rfl⟩ := h
  have := hv.itemRange i hi
  exact columnInt_of_fits (by have := this.1; omega) this.2

/-! ## Statements -/

/-- What `sub_user_item` takes beyond the quantity it was asked for: nothing, unless it deletes a
row whose quantity only reads as that quantity. -/
def spoiled (st : Storage) (itemId quantity : Int32) (stored : ℤ) : ℤ :=
  if itemId = st.fundsItemId ∨ quantity < columnInt stored then 0 else stored - quantity.toInt

theorem selectQuantity_eq (u i : ℤ) (t : Tables) :
    selectQuantity u i t = match t.inventory (u, i) with
      | some x => .ok (columnInt x)
      | none => .error noMoreRows := by
  unfold selectQuantity Tables.inventory Sql.amounts
  cases Sql.find UserItemRow.key (u, i) t.userItems <;> rfl

theorem getUserItemsQuantity_eq (u : UserId) (i : Int32) (db : Database) (saved : Option Database) :
    getUserItemsQuantity u i ⟨db, saved, []⟩ =
      .ok ((db.inventory (u.toInt, i.toInt)).map columnInt) ⟨db, saved, []⟩ := by
  unfold getUserItemsQuantity
  rw [Sql.bind_apply, Sql.attempt_apply, query_calm, selectQuantity_eq]
  cases db.inventory (u.toInt, i.toInt) <;> rfl

theorem getUserItemsQuantity_ok {u : UserId} {i : Int32} {c c' : Connection} {q : Option Int32}
    (h : getUserItemsQuantity u i c = .ok q c') :
    c.Undone c' ∧ ∀ n, q = some n →
      c'.db = c.db ∧ c'.saved = c.saved ∧ ∃ x, c.db.inventory (u.toInt, i.toInt) = some x ∧ columnInt x = n := by
  unfold getUserItemsQuantity at h
  obtain ⟨r, c₁, h1, h2⟩ := Sql.bind_ok_iff.1 h
  rw [Sql.attempt_apply] at h1
  cases h1
  cases h2
  refine ⟨query_undone (selectQuantity u.toInt i.toInt) c, fun n hn => ?_⟩
  rcases hq : query (selectQuantity u.toInt i.toInt) c with ⟨x, c₂⟩ | ⟨e, c₂⟩
  · rw [hq] at hn
    cases hn
    obtain ⟨hf, hdb, hs⟩ := query_ok hq
    refine ⟨hdb, hs, ?_⟩
    rw [selectQuantity_eq] at hf
    rcases hx : c.db.inventory (u.toInt, i.toInt) with _ | x
    · rw [hx] at hf; cases hf
    · rw [hx] at hf
      cases hf
      exact ⟨x, rfl, rfl⟩
  · rw [hq] at hn; cases hn

theorem addUserItem_ok {u : UserId} {i q : Int32} {c c' : Connection} (h : addUserItem u i q c = .ok () c') :
    0 ≤ q.toInt ∧ c'.db.toTables = addItem u.toInt i.toInt q.toInt c.db.toTables ∧ c'.saved = c.saved := by
  obtain ⟨h1, h2⟩ := executeWith_ok h
  split at h1
  · cases h1
  · rename_i hq
    simp only [Except.ok.injEq, Prod.mk.injEq, true_and] at h1
    refine ⟨?_, h1.symm, h2⟩
    simpa [Int32.lt_iff_toInt_lt] using hq

theorem addUserItem_calm {u : UserId} {i q : Int32} {db : Database} (hq : 0 ≤ q.toInt)
    (hu : db.HasUser u.toInt) (hi : db.HasItem i.toInt) (saved : Option Database) :
    addUserItem u i q ⟨db, saved, []⟩ =
      .ok () ⟨⟨addItem u.toInt i.toInt q.toInt db.toTables, db.valid.addItem hq hu hi⟩, saved, []⟩ := by
  apply executeWith_calm
  rw [if_neg]
  simpa [Int32.lt_iff_toInt_lt] using hq

/-- `sub_user_item` succeeded: the balance read as at least the quantity, and the quantity and
what is spoiled beyond it left the balance, with or without its row. -/
theorem subUserItem_ok {st : Storage} {u : UserId} {i q : Int32} {c c' : Connection}
    (h : subUserItem st u i q c = .ok () c') :
    ∃ x, c.db.inventory (u.toInt, i.toInt) = some x ∧ ¬ columnInt x < q ∧ c'.saved = c.saved ∧
      c'.db.toTables =
        if i = st.fundsItemId ∨ q < columnInt x then reduceItem u.toInt i.toInt q.toInt c.db.toTables
        else removeItem u.toInt i.toInt c.db.toTables := by
  unfold subUserItem at h
  obtain ⟨n, c₁, h1, h2⟩ := Sql.bind_ok_iff.1 h
  obtain ⟨-, hn⟩ := getUserItemsQuantity_ok h1
  rcases n with _ | n
  · cases h2
  · obtain ⟨hdb, hs, x, hx, rfl⟩ := hn n rfl
    simp only [Sql.ite_apply] at h2
    split at h2
    · cases h2
    · rename_i hlt
      refine ⟨x, hx, hlt, ?_⟩
      split at h2
      · rename_i hk
        obtain ⟨ht, hs'⟩ := execute_ok h2
        rw [if_pos hk, ht, hdb]
        exact ⟨hs'.trans hs, rfl⟩
      · rename_i hk
        obtain ⟨ht, hs'⟩ := execute_ok h2
        rw [if_neg hk, ht, hdb]
        exact ⟨hs'.trans hs, rfl⟩

theorem subUserItem_calm {st : Storage} {u : UserId} {i q : Int32} {db : Database} {x : ℤ}
    (hx : db.inventory (u.toInt, i.toInt) = some x) (hq : ¬ columnInt x < q) (saved : Option Database) :
    ∃ db', subUserItem st u i q ⟨db, saved, []⟩ = .ok () ⟨db', saved, []⟩ := by
  have hle := le_of_le_columnInt (Tables.row_ok db.valid hx).quantity (Int32.not_lt.1 hq)
  have hr : (reduceItem u.toInt i.toInt q.toInt db.toTables).Valid :=
    db.valid.reduceItem fun y hy => by rw [hx] at hy; cases hy; exact hle
  unfold subUserItem
  rw [Sql.bind_of_ok (getUserItemsQuantity_eq u i db saved), hx]
  simp only [Option.map_some, Sql.ite_apply, hq, if_false]
  split
  · exact ⟨_, execute_calm hr saved⟩
  · exact ⟨_, execute_calm (db.valid.removeItem _ _) saved⟩

/-- A failed `sub_user_item` took nothing. -/
theorem subUserItem_error {st : Storage} {u : UserId} {i q : Int32} {c c' : Connection} {e : Error}
    (h : subUserItem st u i q c = .error e c') : c.Undone c' := by
  unfold subUserItem at h
  rcases Sql.bind_error_iff.1 h with h | ⟨n, c₁, h1, h⟩
  · unfold getUserItemsQuantity at h
    rw [Sql.bind_apply, Sql.attempt_apply] at h
    cases h
  · obtain ⟨hundone, hn⟩ := getUserItemsQuantity_ok h1
    rcases n with _ | n
    · cases h; exact hundone
    · obtain ⟨hdb, hs, -⟩ := hn n rfl
      simp only [Sql.ite_apply] at h
      split at h
      · cases h; exact hundone
      · split at h
        · exact (executeWith_error h).of_pop hdb hs
        · exact (executeWith_error h).of_pop hdb hs

/-- The effect of `sub_user_item` on balances. -/
theorem balance_sub {st : Storage} {i q : Int32} {u x : ℤ} {t : Tables} (hx : t.inventory (u, i.toInt) = some x)
    (v j : ℤ) :
    (if i = st.fundsItemId ∨ q < columnInt x then reduceItem u i.toInt q.toInt t
      else removeItem u i.toInt t).balance v j =
      t.balance v j - if v = u ∧ j = i.toInt then q.toInt + spoiled st i q x else 0 := by
  unfold spoiled
  by_cases hk : v = u ∧ j = i.toInt
  · obtain ⟨rfl, rfl⟩ := hk
    rw [Tables.balance_of_inventory hx]
    split
    · simp [Tables.balance, inventory_reduceItem, hx]
    · simp [Tables.balance, inventory_removeItem]
  · have : (v, j) ≠ (u, i.toInt) := fun e => hk (by simpa using e)
    split <;> simp [Tables.balance, inventory_reduceItem, inventory_removeItem, this]

end AuctionHouse
