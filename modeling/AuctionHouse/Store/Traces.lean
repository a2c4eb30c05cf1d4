/-
Failed deposits and failed logins. Both write two rows without a transaction, so what fails
after the first row leaves it behind: an item nobody has, or a user without a row of funds.
-/
import AuctionHouse.Store.Atomicity
import AuctionHouse.Store.Deals

namespace AuctionHouse

open Storage

/-! ## When an insert is accepted -/

/-- The name is not there yet, and its row gets an id that fits in an `int`. -/
def NewName (ids : List ℤ) (names : List Bytes) (name : StringView) : Prop :=
  ∃ n, name = some n ∧ n ∉ names ∧ RowId (newRowId ids)

def NewItem (t : Tables) (itemName : StringView) : Prop :=
  NewName (t.items.map (·.id)) (t.items.map (·.name)) itemName

def NewUser (t : Tables) (username : StringView) : Prop :=
  NewName (t.users.map (·.id)) (t.users.map (·.username)) username

theorem nodup_concat {α : Type} {l : List α} (h : l.Nodup) {a : α} : (l ++ [a]).Nodup ↔ a ∉ l := by
  rw [← List.concat_eq_append, List.nodup_concat]
  exact and_iff_left h

/-- A row id above the others is none of them. -/
theorem nodup_newRowId {ids : List ℤ} (h : ids.Nodup) : (ids ++ [newRowId ids]).Nodup :=
  (nodup_concat h).2 fun hn => lt_irrefl _ (lt_newRowId hn)

namespace Tables.Valid

variable {t : Tables}

/-- The constraints accept a new item exactly when its name is new and its row id fits. -/
theorem insertItem (hv : t.Valid) (n : Bytes) :
    ({ t with items := t.items ++ [⟨newRowId (t.items.map (·.id)), n⟩] } : Tables).Valid ↔
      n ∉ t.items.map (·.name) ∧ RowId (newRowId (t.items.map (·.id))) := by
  constructor
  · intro h
    have hnames := h.itemNames
    rw [List.map_append, List.map_singleton] at hnames
    exact ⟨(nodup_concat hv.itemNames).1 hnames, h.itemRange _ (List.mem_append_right _ (List.mem_singleton_self _))⟩
  · rintro ⟨hn, hid⟩
    have hmono : ∀ i, t.HasItem i →
        ({ t with items := t.items ++ [⟨newRowId (t.items.map (·.id)), n⟩] } : Tables).HasItem i := by
      rintro i ⟨r, hr, hi⟩
      exact ⟨r, List.mem_append_left _ hr, hi⟩
    exact { hv with
      itemIds := by rw [List.map_append]; exact nodup_newRowId hv.itemIds
      itemNames := by rw [List.map_append]; exact (nodup_concat hv.itemNames).2 hn
      itemRange := fun i hi => by
        rcases List.mem_append.1 hi with hi | hi
        · exact hv.itemRange i hi
        · rw [List.mem_singleton.1 hi]; exact hid
      userItems := fun r hr =>
        ⟨(hv.userItems r hr).quantity, (hv.userItems r hr).user, hmono _ (hv.userItems r hr).item⟩
      sellOrders := fun o ho => ⟨(hv.sellOrders o ho).quantity, (hv.sellOrders o ho).price,
        (hv.sellOrders o ho).seller, (hv.sellOrders o ho).buyer, hmono _ (hv.sellOrders o ho).item⟩ }

theorem insertUser (hv : t.Valid) (n : Bytes) :
    ({ t with users := t.users ++ [⟨newRowId (t.users.map (·.id)), n⟩] } : Tables).Valid ↔
      n ∉ t.users.map (·.username) ∧ RowId (newRowId (t.users.map (·.id))) := by
  constructor
  · intro h
    have hnames := h.usernames
    rw [List.map_append, List.map_singleton] at hnames
    exact ⟨(nodup_concat hv.usernames).1 hnames, h.userRange _ (List.mem_append_right _ (List.mem_singleton_self _))⟩
  · rintro ⟨hn, hid⟩
    have hmono : ∀ i, t.HasUser i →
        ({ t with users := t.users ++ [⟨newRowId (t.users.map (·.id)), n⟩] } : Tables).HasUser i := by
      rintro i ⟨r, hr, hi⟩
      exact ⟨r, List.mem_append_left _ hr, hi⟩
    exact { hv with
      userIds := by rw [List.map_append]; exact nodup_newRowId hv.userIds
      usernames := by rw [List.map_append]; exact (nodup_concat hv.usernames).2 hn
      userRange := fun u hu => by
        rcases List.mem_append.1 hu with hu | hu
        · exact hv.userRange u hu
        · rw [List.mem_singleton.1 hu]; exact hid
      userItems := fun r hr =>
        ⟨(hv.userItems r hr).quantity, hmono _ (hv.userItems r hr).user, (hv.userItems r hr).item⟩
      sellOrders := fun o ho => ⟨(hv.sellOrders o ho).quantity, (hv.sellOrders o ho).price,
        hmono _ (hv.sellOrders o ho).seller, fun b hb => hmono _ ((hv.sellOrders o ho).buyer b hb),
        (hv.sellOrders o ho).item⟩ }

/-- The constraints accept a stack exactly when its user and its item are there. -/
theorem addItem_iff (hv : t.Valid) {u i q : ℤ} (hq : 0 ≤ q) :
    (Storage.addItem u i q t).Valid ↔ t.HasUser u ∧ t.HasItem i := by
  constructor
  · intro h
    have hstack : (Storage.addItem u i q t).inventory (u, i) = some ((t.inventory (u, i)).getD 0 + q) := by
      rw [inventory_addItem]
      exact if_pos rfl
    exact ⟨(row_ok h hstack).user, (row_ok h hstack).item⟩
  · rintro ⟨hu, hi⟩
    exact hv.addItem hq hu hi

end Tables.Valid

variable {c c' : Connection}

theorem createItem_succeeds {itemName : StringView} :
    (∃ id c', createItem itemName c = .ok id c') ↔ Sql.Granted c.faults ∧ NewItem c.db.toTables itemName := by
  unfold createItem
  rw [executeWith_succeeds]
  refine and_congr_right fun _ => ?_
  rcases itemName with _ | n
  · simp [NewItem, NewName]
  · simp only [Except.ok.injEq, Prod.mk.injEq, NewItem, NewName, Option.some.injEq, exists_eq_left',
      ← c.db.valid.insertItem n]
    constructor
    · rintro ⟨_, _, ⟨-, rfl⟩, hv⟩
      exact hv
    · intro hv
      exact ⟨_, _, ⟨rfl, rfl⟩, hv⟩

theorem createUser_succeeds {username : StringView} :
    (∃ id c', createUser username c = .ok id c') ↔ Sql.Granted c.faults ∧ NewUser c.db.toTables username := by
  unfold createUser
  rw [executeWith_succeeds]
  refine and_congr_right fun _ => ?_
  rcases username with _ | n
  · simp [NewUser, NewName]
  · simp only [Except.ok.injEq, Prod.mk.injEq, NewUser, NewName, Option.some.injEq, exists_eq_left',
      ← c.db.valid.insertUser n]
    constructor
    · rintro ⟨_, _, ⟨-, rfl⟩, hv⟩
      exact hv
    · intro hv
      exact ⟨_, _, ⟨rfl, rfl⟩, hv⟩

theorem addUserItem_succeeds {userId : UserId} {itemId quantity : Int32} (hq : ¬ quantity < 0) :
    (∃ c', addUserItem userId itemId quantity c = .ok () c') ↔
      Sql.Granted c.faults ∧ c.db.HasUser userId.toInt ∧ c.db.HasItem itemId.toInt := by
  have hq' : 0 ≤ quantity.toInt := by simpa [Int32.lt_iff_toInt_lt] using hq
  rw [← c.db.valid.addItem_iff hq']
  constructor
  · rintro ⟨c', h⟩
    obtain ⟨-, ht, -⟩ := addUserItem_ok h
    exact ⟨(granted_of_executeWith h).1, ht ▸ c'.db.valid⟩
  · rintro ⟨hg, hv⟩
    exact ⟨_, executeWith_granted c.db hg (if_neg hq) hv c.saved⟩

/-! ## What is written before the failure -/

/-- A new item got its row. -/
theorem createItem_ok {itemName : StringView} {id : Int32} (h : createItem itemName c = .ok id c') :
    c'.faults = c.faults.tail ∧ ∃ r : ItemRow, r.id = newRowId (c.db.items.map (·.id)) ∧ id.toInt = r.id ∧
      c'.db.toTables = { c.db.toTables with items := c.db.items ++ [r] } := by
  obtain ⟨hf, -⟩ := executeWith_ok h
  obtain ⟨-, n, rfl, -, hid⟩ := createItem_succeeds.1 ⟨id, c', h⟩
  simp only [Except.ok.injEq, Prod.mk.injEq] at hf
  obtain ⟨rfl, ht⟩ := hf
  exact ⟨(granted_of_executeWith h).2, ⟨_, n⟩, rfl, columnInt_of_fits (by have := hid.1; omega) hid.2, ht.symm⟩

/-- A new user got his row, and no stack yet. -/
theorem createUser_ok {username : StringView} {id : UserId} (h : createUser username c = .ok id c') :
    c'.faults = c.faults.tail ∧
      (∃ u, u ∉ c.db.users ∧ c'.db.toTables = { c.db.toTables with users := c.db.users ++ [u] }) ∧
      c'.db.HasUser id.toInt ∧ ∀ i, c'.db.inventory (id.toInt, i) = none := by
  obtain ⟨hf, -⟩ := executeWith_ok h
  obtain ⟨-, n, rfl, hnot, hid⟩ := createUser_succeeds.1 ⟨id, c', h⟩
  simp only [Except.ok.injEq, Prod.mk.injEq] at hf
  obtain ⟨rfl, ht⟩ := hf
  have hfits := columnInt_of_fits (n := newRowId (c.db.users.map (·.id))) (by have := hid.1; omega) hid.2
  refine ⟨(granted_of_executeWith h).2, ⟨⟨_, n⟩, fun hu => hnot (List.mem_map_of_mem hu), ht.symm⟩, ?_, fun i => ?_⟩
  · rw [hfits]
    exact ⟨⟨_, n⟩, by rw [← ht]; exact List.mem_append_right _ (List.mem_singleton_self _), rfl⟩
  · rw [hfits, ← ht]
    -- the rows of the table are those of users that were there before
    rcases hq : c.db.inventory (newRowId (c.db.users.map (·.id)), i) with _ | q
    · exact hq
    · obtain ⟨u, hu, hid⟩ := (Tables.row_ok c.db.valid hq).user
      have hlt := lt_newRowId (List.mem_map_of_mem (f := (·.id)) hu)
      exact absurd hid hlt.ne

theorem not_newItem {itemName : StringView} {t : Tables} {r : ItemRow} (hr : r ∈ t.items)
    (hn : some r.name = itemName) : ¬ NewItem t itemName := by
  rintro ⟨n, rfl, hnot, -⟩
  exact hnot (Option.some.inj hn ▸ List.mem_map_of_mem hr)

theorem not_newUser {username : StringView} {t : Tables} {r : UserRow} (hr : r ∈ t.users)
    (hn : some r.username = username) : ¬ NewUser t username := by
  rintro ⟨n, rfl, hnot, -⟩
  exact hnot (Option.some.inj hn ▸ List.mem_map_of_mem hr)

/-- Outside a transaction the stack is added to, or nothing is changed. -/
theorem addUserItem_cases (userId : UserId) (itemId : Int32) {quantity : Int32} (hq : ¬ quantity < 0)
    (hs : c.saved = none) :
    ((Sql.Granted c.faults ∧ c.db.HasUser userId.toInt ∧ c.db.HasItem itemId.toInt) ∧ ∃ c',
      addUserItem userId itemId quantity c = .ok () c' ∧
        c'.db.toTables = addItem userId.toInt itemId.toInt quantity.toInt c.db.toTables) ∨
    ¬ (Sql.Granted c.faults ∧ c.db.HasUser userId.toInt ∧ c.db.HasItem itemId.toInt) ∧ ∃ e c',
      addUserItem userId itemId quantity c = .error e c' ∧ c'.db = c.db := by
  have hiff : (∃ c', addUserItem userId itemId quantity c = .ok () c') ↔ _ := addUserItem_succeeds hq
  rcases h : addUserItem userId itemId quantity c with ⟨⟨⟩, c'⟩ | ⟨e, c'⟩
  · exact .inl ⟨hiff.1 ⟨c', h⟩, c', rfl, (addUserItem_ok h).2.1⟩
  · refine .inr ⟨fun hgranted => ?_, e, c', rfl, ((executeWith_error h).idle hs).2.symm⟩
    obtain ⟨c'', h'⟩ := hiff.2 hgranted
    rw [h] at h'
    cases h'

/-- The lookup of a name always returns, and finds exactly who is there, unless it is refused. -/
theorem getUserId_spec (username : StringView) {c : Connection} (hc : c.saved = none) :
    ∃ found c', getUserId username c = .ok found c' ∧ c'.saved = none ∧ c'.db = c.db ∧ c'.faults = c.faults.tail ∧
      (found.isSome ↔ Sql.Granted c.faults ∧ ∃ u ∈ c.db.users, some u.username = username) := by
  obtain ⟨hdb, hs⟩ := query_after (selectUserId username) hc
  refine ⟨_, _, by rw [getUserId, Sql.bind_apply, Sql.attempt_apply]; rfl, hs, hdb, query_faults _ c, ?_⟩
  rcases hf : selectUserId username c.db.toTables with e | id
  · have habsent : ¬ ∃ u ∈ c.db.users, some u.username = username := by
      rintro ⟨u, hu, hn⟩
      unfold selectUserId at hf
      split at hf
      · cases hf
      · rename_i hnone
        have := List.find?_eq_none.1 hnone u hu
        simp [hn] at this
    refine iff_of_false ?_ fun h => habsent h.2
    rcases hq : query (selectUserId username) c with ⟨id, c'⟩ | ⟨e, c'⟩
    · rw [(query_ok hq).1] at hf
      cases hf
    · exact Bool.false_ne_true
  · have hthere : ∃ u ∈ c.db.users, some u.username = username := by
      unfold selectUserId at hf
      split at hf
      · rename_i u hu
        exact ⟨u, List.mem_of_find?_eq_some hu, by simpa using List.find?_some hu⟩
      · cases hf
    rw [and_iff_left hthere]
    constructor
    · intro h
      rcases hq : query (selectUserId username) c with ⟨id, c'⟩ | ⟨e, c'⟩
      · exact (granted_of_query hq).1
      · rw [hq] at h
        cases h
    · intro hg
      rw [show query (selectUserId username) c = _ from query_granted c.db hg hf c.saved]
      rfl

/-! ## Deposits -/

/-- A lookup finds exactly what is there, unless it is refused. -/
theorem getItemId_succeeds {itemName : StringView} :
    (∃ i c', getItemId itemName c = .ok i c') ↔
      Sql.Granted c.faults ∧ ∃ r ∈ c.db.items, some r.name = itemName := by
  constructor
  · rintro ⟨i, c', h⟩
    obtain ⟨-, r, hr, hn, -⟩ := getItemId_ok h
    exact ⟨(granted_of_query h).1, r, hr, hn⟩
  · rintro ⟨hg, r, hr, hn⟩
    rcases hf : selectItemId itemName c.db.toTables with e | i
    · unfold selectItemId at hf
      split at hf
      · cases hf
      · rename_i hnone
        have := List.find?_eq_none.1 hnone r hr
        simp [hn] at this
    · exact ⟨i, _, query_granted c.db hg hf c.saved⟩

/-- The statements of a deposit after one another: which are granted, what they find, and what the
tables are when the last of them has returned. -/
inductive Deposited (db : Database) (faults : List (Option (Sql.Fault Error))) (userId : UserId)
    (itemName : StringView) (quantity : Int32) : Except Error ItemOperationInfo → Tables → Prop
  | negative {e : Error} (h : quantity < 0) : Deposited db faults userId itemName quantity (.error e) db.toTables
  /-- The item is there, and its stack is refused or nobody's. -/
  | unstacked {e : Error} {r : ItemRow} (hr : r ∈ db.items) (hn : some r.name = itemName)
      (h : ¬ (Sql.Granted (faults.drop 1) ∧ db.HasUser userId.toInt)) :
      Deposited db faults userId itemName quantity (.error e) db.toTables
  | stacked {info : ItemOperationInfo} {r : ItemRow} (hq : ¬ quantity < 0) (hr : r ∈ db.items)
      (hn : some r.name = itemName) (hg : Sql.Granted faults ∧ Sql.Granted (faults.drop 1))
      (hu : db.HasUser userId.toInt) :
      Deposited db faults userId itemName quantity (.ok info) (addItem userId.toInt r.id quantity.toInt db.toTables)
  /-- The item is not found, and not created. -/
  | absent {e : Error} (h : ¬ (Sql.Granted faults ∧ ∃ r ∈ db.items, some r.name = itemName))
      (h' : ¬ (Sql.Granted (faults.drop 1) ∧ NewItem db.toTables itemName)) :
      Deposited db faults userId itemName quantity (.error e) db.toTables
  /-- The item is created, and its stack is refused or nobody's. -/
  | created {e : Error} {r : ItemRow} (hq : ¬ quantity < 0) (hn : NewItem db.toTables itemName)
      (hg : Sql.Granted (faults.drop 1)) (h : ¬ (Sql.Granted (faults.drop 2) ∧ db.HasUser userId.toInt)) :
      Deposited db faults userId itemName quantity (.error e) { db.toTables with items := db.items ++ [r] }
  | both {info : ItemOperationInfo} {r : ItemRow} (hq : ¬ quantity < 0) (hn : NewItem db.toTables itemName)
      (hr : r.id = newRowId (db.items.map (·.id)))
      (hg : Sql.Granted (faults.drop 1) ∧ Sql.Granted (faults.drop 2)) (hu : db.HasUser userId.toInt) :
      Deposited db faults userId itemName quantity (.ok info)
        (addItem userId.toInt r.id quantity.toInt { db.toTables with items := db.items ++ [r] })

theorem deposit_spec (db : Database) (faults : List (Option (Sql.Fault Error))) (userId : UserId)
    (itemName : StringView) (quantity : Int32) :
    Deposited db faults userId itemName quantity
      (Sql.outcome (AuctionService.deposit userId itemName quantity (Sql.Connection.idle db faults)))
      (Sql.after (AuctionService.deposit userId itemName quantity (Sql.Connection.idle db faults))).db.toTables := by
  rw [deposit_eq, Sql.ite_apply]
  split
  · rename_i hq
    exact .negative hq
  rename_i hq
  have hlookup : (∃ i c', getItemId itemName (Sql.Connection.idle db faults) = .ok i c') ↔ _ := getItemId_succeeds
  rw [Sql.bind_apply, Sql.orElse]
  rcases hg : getItemId itemName (Sql.Connection.idle db faults) with ⟨i, c₁⟩ | ⟨e, c₁⟩
  · obtain ⟨hdb, r, hr, hn, hi⟩ := getItemId_ok hg
    have hs : c₁.saved = none := (query_ok hg).2.2
    obtain ⟨hgranted, hfaults⟩ := granted_of_query hg
    replace hdb : c₁.db = db := hdb
    replace hfaults : c₁.faults = faults.drop 1 := hfaults.trans List.drop_one.symm
    have hitem : db.HasItem r.id := ⟨r, hr, rfl⟩
    have hcases := addUserItem_cases userId i hq hs
    rw [hfaults, hdb, hi] at hcases
    obtain ⟨⟨h1, h2, -⟩, c₂, ha, ht⟩ | ⟨hnot, e, c₂, ha, hdb'⟩ := hcases
    · simp only [Sql.bind_apply, ha]
      show Deposited db faults userId itemName quantity _ c₂.db.toTables
      rw [ht]
      exact .stacked hq hr hn ⟨hgranted, h1⟩ h2
    · simp only [Sql.bind_apply, ha]
      show Deposited db faults userId itemName quantity _ c₂.db.toTables
      rw [hdb']
      exact .unstacked hr hn fun h => hnot ⟨h.1, h.2, hitem⟩
  · obtain ⟨hs, hdb⟩ := (query_error hg).idle rfl
    replace hdb : c₁.db = db := hdb.symm
    have hfaults : c₁.faults = faults.drop 1 := by
      have h := query_faults (selectItemId itemName) (Sql.Connection.idle db faults)
      rw [show query (selectItemId itemName) _ = _ from hg] at h
      exact h.trans List.drop_one.symm
    have hcreate : (∃ i c', createItem itemName c₁ = .ok i c') ↔ _ := createItem_succeeds
    rw [hfaults, hdb] at hcreate
    simp only
    rcases hc : createItem itemName c₁ with ⟨i, c₂⟩ | ⟨e, c₂⟩
    · obtain ⟨hgranted, hnew⟩ := hcreate.1 ⟨i, c₂, hc⟩
      obtain ⟨hf, row, hid, hi, ht₂⟩ := createItem_ok hc
      have hitem : Tables.HasItem { c₁.db.toTables with items := c₁.db.items ++ [row] } row.id :=
        ⟨row, List.mem_append_right _ (List.mem_singleton_self _), rfl⟩
      have hcases := addUserItem_cases userId i hq ((executeWith_ok hc).2.trans hs)
      rw [hf, hfaults, List.tail_drop, ht₂, hi] at hcases
      rw [hdb] at hid ht₂ hitem hcases
      obtain ⟨⟨h1, h2, -⟩, c₃, ha, ht⟩ | ⟨hnot, e, c₃, ha, hdb'⟩ := hcases
      · simp only [Sql.bind_apply, ha]
        show Deposited db faults userId itemName quantity _ c₃.db.toTables
        rw [ht]
        exact .both hq hnew hid ⟨hgranted, h1⟩ h2
      · simp only [Sql.bind_apply, ha]
        show Deposited db faults userId itemName quantity _ c₃.db.toTables
        rw [hdb', ht₂]
        exact .created hq hnew hgranted fun h => hnot ⟨h.1, h.2, hitem⟩
    · show Deposited db faults userId itemName quantity _ c₂.db.toTables
      rw [← ((executeWith_error hc).idle hs).2, hdb]
      refine .absent (fun h => ?_) fun h => ?_
      · obtain ⟨_, _, h'⟩ := hlookup.2 h
        rw [hg] at h'
        cases h'
      · obtain ⟨_, _, h'⟩ := hcreate.2 h
        rw [hc] at h'
        cases h'

/-- A deposit that fails changed nothing. -/
def DepositTraceless (db : Database) (faults : List (Option (Sql.Fault Error))) (userId : UserId)
    (itemName : StringView) (quantity : Int32) : Prop :=
  let r := AuctionService.deposit userId itemName quantity (Sql.Connection.idle db faults)
  ∀ e, Sql.outcome r = .error e → (Sql.after r).db = db

/-- The deposit creates its item, and then its stack is refused or is nobody's. -/
structure LeavesItem (db : Database) (faults : List (Option (Sql.Fault Error))) (userId : UserId)
    (itemName : StringView) (quantity : Int32) : Prop where
  quantity : ¬ quantity < 0
  item : NewItem db.toTables itemName
  granted : Sql.Granted (faults.drop 1)
  stack : ¬ (Sql.Granted (faults.drop 2) ∧ db.HasUser userId.toInt)

theorem depositTraceless_iff (db : Database) (faults : List (Option (Sql.Fault Error))) (userId : UserId)
    (itemName : StringView) (quantity : Int32) :
    DepositTraceless db faults userId itemName quantity ↔ ¬ LeavesItem db faults userId itemName quantity := by
  have hspec := deposit_spec db faults userId itemName quantity
  unfold DepositTraceless
  generalize hr : AuctionService.deposit userId itemName quantity (Sql.Connection.idle db faults) = r at hspec ⊢
  generalize ho : Sql.outcome r = o at hspec
  generalize ht : (Sql.after r).db.toTables = t at hspec
  cases hspec with
  | negative hq => exact iff_of_true (fun _ _ => Database.ext_tables ht) fun h => h.quantity hq
  | unstacked hr hn => exact iff_of_true (fun _ _ => Database.ext_tables ht) fun h => not_newItem hr hn h.item
  | stacked _ hr hn => exact iff_of_true (fun _ he => nomatch ho.symm.trans he) fun h => not_newItem hr hn h.item
  | absent _ h' => exact iff_of_true (fun _ _ => Database.ext_tables ht) fun h => h' ⟨h.granted, h.item⟩
  | both _ _ _ hg hu => exact iff_of_true (fun _ he => nomatch ho.symm.trans he) fun h => h.stack ⟨hg.2, hu⟩
  | created hq hn hg h =>
    -- the item stays without its stack
    refine iff_of_false (fun hsame => ?_) (not_not.2 ⟨hq, hn, hg, h⟩)
    have hitems := congrArg Tables.items ht
    rw [hsame _ ho] at hitems
    simpa using congrArg List.length hitems

/-! ## Logins -/

/-- A login of a new user starts with a funds row of 0. -/
theorem login_starts {st : Storage} {username : StringView} {user : User} (hs : c.saved = none)
    (h : UserService.login st username c = .ok user c') (hnew : ∀ u ∈ c.db.users, u.username ≠ username.bytes) :
    c'.db.inventory (user.id.toInt, st.fundsItemId.toInt) = some 0 := by
  rw [login_eq, Sql.ite_apply] at h
  split at h
  · cases h
  obtain ⟨found, c₁, hg, -, -, -, hfound⟩ := getUserId_spec username hs
  rw [Sql.bind_of_ok hg] at h
  rcases found with _ | id
  · obtain ⟨id, c₂, hc, h⟩ := Sql.bind_ok_iff.1 h
    obtain ⟨⟨⟩, c₃, ha, h⟩ := Sql.bind_ok_iff.1 h
    cases h
    obtain ⟨-, -, -, hnone⟩ := createUser_ok hc
    obtain ⟨-, ht, -⟩ := addUserItem_ok ha
    rw [ht, inventory_addItem, Sql.credit, if_pos rfl, hnone]
    rfl
  · obtain ⟨-, u, hu, hn⟩ := hfound.1 rfl
    exact absurd (by rw [← hn]; rfl) (hnew u hu)

/-- The statements of a login after one another: which are granted, what they find, and what the
tables are when the last of them has returned. -/
inductive LoggedIn (st : Storage) (db : Database) (faults : List (Option (Sql.Fault Error))) (username : StringView) :
    Except Error User → Tables → Prop
  | unnamed {e : Error} (h : username.bytes = []) : LoggedIn st db faults username (.error e) db.toTables
  | known {user : User} {u : UserRow} (h : username.bytes ≠ []) (hg : Sql.Granted faults) (hu : u ∈ db.users)
      (hn : some u.username = username) : LoggedIn st db faults username (.ok user) db.toTables
  /-- The user is not found, and not created. -/
  | absent {e : Error} (h : ¬ (Sql.Granted faults ∧ ∃ u ∈ db.users, some u.username = username))
      (h' : ¬ (Sql.Granted (faults.drop 1) ∧ NewUser db.toTables username)) :
      LoggedIn st db faults username (.error e) db.toTables
  /-- The user is created, and his row of funds is refused or funds are no item. -/
  | created {e : Error} {u : UserRow} (h : username.bytes ≠ []) (hn : NewUser db.toTables username) (hu : u ∉ db.users)
      (hg : Sql.Granted (faults.drop 1)) (h' : ¬ (Sql.Granted (faults.drop 2) ∧ db.HasItem st.fundsItemId.toInt)) :
      LoggedIn st db faults username (.error e) { db.toTables with users := db.users ++ [u] }
  | both {user : User} {t : Tables} (h : username.bytes ≠ []) (hn : NewUser db.toTables username)
      (hg : Sql.Granted (faults.drop 1) ∧ Sql.Granted (faults.drop 2)) (hi : db.HasItem st.fundsItemId.toInt) :
      LoggedIn st db faults username (.ok user) t

theorem login_spec (st : Storage) (db : Database) (faults : List (Option (Sql.Fault Error))) (username : StringView) :
    LoggedIn st db faults username (Sql.outcome (UserService.login st username (Sql.Connection.idle db faults)))
      (Sql.after (UserService.login st username (Sql.Connection.idle db faults))).db.toTables := by
  rw [login_eq, Sql.ite_apply]
  split
  · rename_i hname
    exact .unnamed hname
  rename_i hname
  obtain ⟨found, c₁, hg, hs, hdb, hfaults, hfound⟩ :=
    getUserId_spec (c := Sql.Connection.idle db faults) username rfl
  replace hdb : c₁.db = db := hdb
  replace hfaults : c₁.faults = faults.drop 1 := hfaults.trans List.drop_one.symm
  rw [Sql.bind_of_ok hg]
  rcases found with _ | id
  · have hcreate : (∃ id c', createUser username c₁ = .ok id c') ↔ _ := createUser_succeeds
    rw [hfaults, hdb] at hcreate
    simp only
    rcases hc : createUser username c₁ with ⟨id, c₂⟩ | ⟨e, c₂⟩
    · obtain ⟨hgranted, hnew⟩ := hcreate.1 ⟨id, c₂, hc⟩
      obtain ⟨hf, ⟨u, hu, ht₂⟩, huser, -⟩ := createUser_ok hc
      have hcases := addUserItem_cases id st.fundsItemId (show ¬ (0 : Int32) < 0 by decide)
        ((executeWith_ok hc).2.trans hs)
      rw [hf, hfaults, List.tail_drop, ht₂] at hcases
      rw [ht₂] at huser
      rw [hdb] at hu ht₂ huser hcases
      rw [Sql.bind_of_ok hc]
      obtain ⟨⟨h1, -, h2⟩, c₃, ha, -⟩ | ⟨hnot, e, c₃, ha, hdb'⟩ := hcases
      · rw [Sql.bind_of_ok ha]
        exact .both hname hnew ⟨hgranted, h1⟩ h2
      · rw [Sql.bind_of_error ha]
        show LoggedIn st db faults username _ c₃.db.toTables
        rw [hdb', ht₂]
        exact .created hname hnew hu hgranted fun h => hnot ⟨h.1, huser, h.2⟩
    · rw [Sql.bind_of_error hc]
      show LoggedIn st db faults username _ c₂.db.toTables
      rw [← ((executeWith_error hc).idle hs).2, hdb]
      refine .absent (fun h => Bool.false_ne_true (hfound.2 h)) fun h => ?_
      obtain ⟨_, _, h'⟩ := hcreate.2 h
      rw [hc] at h'
      cases h'
  · obtain ⟨hgranted, u, hu, hn⟩ := hfound.1 rfl
    show LoggedIn st db faults username _ c₁.db.toTables
    rw [hdb]
    exact .known hname hgranted hu hn

/-- Without refusals a login succeeds for a name that is there, and for a new one. -/
theorem login_succeeds {st : Storage} {db : Database} {username : StringView} :
    (∃ user, Sql.outcome (UserService.login st username (Sql.Connection.idle db)) = .ok user) ↔
      username.bytes ≠ [] ∧ ((∃ u ∈ db.users, some u.username = username) ∨
        NewUser db.toTables username ∧ db.HasItem st.fundsItemId.toInt) := by
  have hspec := login_spec st db [] username
  generalize UserService.login st username (Sql.Connection.idle db) = r at hspec ⊢
  generalize Sql.outcome r = o at hspec ⊢
  generalize (Sql.after r).db.toTables = t at hspec
  cases hspec with
  | unnamed hname => exact iff_of_false (by simp) fun h => h.1 hname
  | known hname _ hu hn => exact iff_of_true ⟨_, rfl⟩ ⟨hname, .inl ⟨_, hu, hn⟩⟩
  | absent h h' =>
    refine iff_of_false (by simp) ?_
    rintro ⟨-, hthere | ⟨hnew, -⟩⟩
    · exact h ⟨Sql.granted_nil, hthere⟩
    · exact h' ⟨Sql.granted_nil, hnew⟩
  | created hname hnew _ _ h =>
    refine iff_of_false (by simp) ?_
    rintro ⟨-, ⟨u, hu, hn⟩ | ⟨-, hitem⟩⟩
    · exact not_newUser hu hn hnew
    · exact h ⟨Sql.granted_nil, hitem⟩
  | both hname hnew _ hitem => exact iff_of_true ⟨_, rfl⟩ ⟨hname, .inr ⟨hnew, hitem⟩⟩

/-- A login that fails adds no user, so the next login of a new name still starts with a funds row of 0. -/
structure LoginTraceless (st : Storage) (db : Database) (faults : List (Option (Sql.Fault Error)))
    (username : StringView) : Prop where
  users : let r := UserService.login st username (Sql.Connection.idle db faults)
    ∀ e, Sql.outcome r = .error e → ∀ u ∈ (Sql.after r).db.users, u ∈ db.users
  later : let r := UserService.login st username (Sql.Connection.idle db faults)
    ∀ e, Sql.outcome r = .error e → (∀ u ∈ db.users, u.username ≠ username.bytes) → ∀ faults' user c',
      UserService.login st username (Sql.Connection.idle (Sql.after r).db faults') = .ok user c' →
        c'.db.inventory (user.id.toInt, st.fundsItemId.toInt) = some 0

/-- The login creates its user, and then the row of funds is refused or funds are no item. -/
structure LeavesUser (st : Storage) (db : Database) (faults : List (Option (Sql.Fault Error)))
    (username : StringView) : Prop where
  name : username.bytes ≠ []
  user : NewUser db.toTables username
  granted : Sql.Granted (faults.drop 1)
  funds : ¬ (Sql.Granted (faults.drop 2) ∧ db.HasItem st.fundsItemId.toInt)

/-- A login that changes nothing when it fails. -/
theorem LoginTraceless.of_unchanged {st : Storage} {db : Database} {faults : List (Option (Sql.Fault Error))}
    {username : StringView}
    (h : ∀ e, Sql.outcome (UserService.login st username (Sql.Connection.idle db faults)) = .error e →
      (Sql.after (UserService.login st username (Sql.Connection.idle db faults))).db = db) :
    LoginTraceless st db faults username := by
  constructor
  · intro r e he u hu
    rw [h e he] at hu
    exact hu
  · intro r e he hnew faults' user c' hl
    refine login_starts rfl hl fun u hu => ?_
    rw [show (Sql.Connection.idle (Sql.after r).db faults').db = db from h e he] at hu
    exact hnew u hu

theorem loginTraceless_iff (st : Storage) (db : Database) (faults : List (Option (Sql.Fault Error)))
    (username : StringView) : LoginTraceless st db faults username ↔ ¬ LeavesUser st db faults username := by
  have hspec := login_spec st db faults username
  generalize ho : Sql.outcome (UserService.login st username (Sql.Connection.idle db faults)) = o at hspec
  generalize ht : (Sql.after (UserService.login st username (Sql.Connection.idle db faults))).db.toTables = t at hspec
  cases hspec with
  | unnamed hname => exact iff_of_true (.of_unchanged fun _ _ => Database.ext_tables ht) fun h => h.name hname
  | known hname _ hu hn =>
    exact iff_of_true (.of_unchanged fun _ _ => Database.ext_tables ht) fun h => not_newUser hu hn h.user
  | absent _ h' =>
    exact iff_of_true (.of_unchanged fun _ _ => Database.ext_tables ht) fun h => h' ⟨h.granted, h.user⟩
  | @created _ u hname hnew hu hg h =>
    -- the user stays without his row
    have husers := congrArg Tables.users ht
    refine iff_of_false (fun hsame => hu (hsame.users _ ho u ?_)) (not_not.2 ⟨hname, hnew, hg, h⟩)
    rw [husers]
    exact List.mem_append_right _ (List.mem_singleton_self u)
  | both _ _ hg hitem =>
    exact iff_of_true (.of_unchanged fun _ he => nomatch ho.symm.trans he) fun h => h.funds ⟨hg.2, hitem⟩

/-! ## Failures leave no trace -/

/-- A failed deposit changes nothing, and a failed login adds no user, exactly when the failure is
not that of the second row after the first was written. A new row is one whose id fits in an `int`: ids
from 2^31 on, which would be cut when they are read back, are taken to be never reached. -/
theorem failures_traceless_iff (st : Storage) (db : Database) (faults : List (Option (Sql.Fault Error))) :
    (∀ userId itemName quantity, DepositTraceless db faults userId itemName quantity ↔
      ¬ LeavesItem db faults userId itemName quantity) ∧
    ∀ username, LoginTraceless st db faults username ↔ ¬ LeavesUser st db faults username :=
  ⟨depositTraceless_iff db faults, loginTraceless_iff st db faults⟩

/-- The user 7 is unknown, and his deposit leaves the item; the engine refuses the funds of alice,
who stays without them when she logs in again. -/
theorem failures_leave_traces :
    let st := Storage.initial
    let db := Database.initial
    let alice : StringView := some (text "alice")
    let sword := text "sword"
    let ioError := text "Failed to execute SQL statement: disk I/O error"
    let refused : List (Option (Sql.Fault Error)) := [none, none, some ⟨ioError, false⟩]
    let deposit := AuctionService.deposit 7 (some sword) 1 (Sql.Connection.idle db)
    let login := UserService.login st alice (Sql.Connection.idle db refused)
    let again := UserService.login st alice (Sql.Connection.idle (Sql.after login).db)
    ¬ DepositTraceless db [] 7 (some sword) 1 ∧ ¬ LoginTraceless st db refused alice ∧
      Sql.outcome deposit = .error constraintFailed ∧ (Sql.after deposit).db.items = db.items ++ [⟨2, sword⟩] ∧
      Sql.outcome login = .error ioError ∧ Sql.outcome again = .ok ⟨1, text "alice"⟩ ∧
      (Sql.after again).db.inventory (1, st.fundsItemId.toInt) = none := by
  intro st db alice sword ioError refused deposit login again
  have hd : Sql.outcome deposit = .error constraintFailed ∧
      (Sql.after deposit).db.items = db.items ++ [⟨2, sword⟩] := by decide +kernel
  have hl : Sql.outcome login = .error ioError ∧ Sql.outcome again = .ok ⟨1, text "alice"⟩ ∧
      (Sql.after again).db.inventory (1, st.fundsItemId.toInt) = none := by decide +kernel
  refine ⟨fun h => ?_, fun h => ?_, hd.1, hd.2, hl⟩
  · have hsame := hd.2
    rw [h _ hd.1] at hsame
    cases hsame
  · have husers : (⟨1, text "alice"⟩ : UserRow) ∈ (Sql.after login).db.users := by decide +kernel
    exact absurd (h.users _ hl.1 _ husers) (by decide)

end AuctionHouse
