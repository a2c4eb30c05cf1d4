/-
The database of storage.cpp: its four tables, the constraints of its schema, and statements as
changes of the tables that SQLite accepts when the result satisfies the constraints. Foreign keys
are enforced (the vendored SQLite is compiled with `SQLITE_DEFAULT_FOREIGN_KEYS=1`).
What is assumed of SQLite's integers: sums do not overflow 64 bits, so a stored quantity is an
integer, and the row ids of users and items stay within an `int`, so an insert that finds no such
row id is refused.
-/
import AuctionHouse.Server.Types
import AuctionHouse.Sql.Aggregate
import AuctionHouse.Sql.Connection
import Mathlib.Data.List.Sort

namespace AuctionHouse

/-! ## Rows -/

structure UserRow where
  id : ℤ
  username : Bytes
  deriving DecidableEq

structure ItemRow where
  id : ℤ
  name : Bytes
  deriving DecidableEq

structure UserItemRow where
  userId : ℤ
  itemId : ℤ
  quantity : ℤ
  deriving DecidableEq

/-- The primary key of `user_items`. -/
def UserItemRow.key (r : UserItemRow) : ℤ × ℤ := (r.userId, r.itemId)

/-- `SET quantity = quantity + a`. -/
def UserItemRow.add (a : ℤ) (r : UserItemRow) : UserItemRow := { r with quantity := r.quantity + a }

/-- `SET quantity = quantity - a`. -/
def UserItemRow.sub (a : ℤ) (r : UserItemRow) : UserItemRow := { r with quantity := r.quantity - a }

@[simp] theorem UserItemRow.key_add (a : ℤ) (r : UserItemRow) : (r.add a).key = r.key := rfl
@[simp] theorem UserItemRow.key_sub (a : ℤ) (r : UserItemRow) : (r.sub a).key = r.key := rfl
@[simp] theorem UserItemRow.quantity_add (a : ℤ) (r : UserItemRow) : (r.add a).quantity = r.quantity + a := rfl
@[simp] theorem UserItemRow.quantity_sub (a : ℤ) (r : UserItemRow) : (r.sub a).quantity = r.quantity - a := rfl

/-- `buyer_id` is the seller for immediate orders, NULL for auction orders without a bid, and the
highest bidder for auction orders with one. -/
structure SellOrderRow where
  id : ℤ
  sellerId : ℤ
  itemId : ℤ
  quantity : ℤ
  price : ℤ
  expirationTime : ℤ
  buyerId : Option ℤ
  deriving DecidableEq

/-- `SET buyer_id = buyer, price = price`. -/
def SellOrderRow.setBuyer (buyer price : ℤ) (o : SellOrderRow) : SellOrderRow := { o with buyerId := some buyer, price }

@[simp] theorem SellOrderRow.id_setBuyer (buyer price : ℤ) (o : SellOrderRow) : (o.setBuyer buyer price).id = o.id := rfl

/-! ## The schema -/

/-- The tables, and the AUTOINCREMENT row of `sell_orders` in `sqlite_sequence`. -/
structure Tables where
  users : List UserRow := []
  items : List ItemRow := []
  userItems : List UserItemRow := []
  sellOrders : List SellOrderRow := []
  sellOrdersSeq : ℤ := 0
  deriving DecidableEq

/-- A row id that fits in an `int`. -/
def RowId (n : ℤ) : Prop := 1 ≤ n ∧ n ≤ intMax

instance (n : ℤ) : Decidable (RowId n) := inferInstanceAs (Decidable (_ ∧ _))

namespace Tables

def HasUser (t : Tables) (id : ℤ) : Prop := ∃ u ∈ t.users, u.id = id
def HasItem (t : Tables) (id : ℤ) : Prop := ∃ i ∈ t.items, i.id = id

instance (t : Tables) (id : ℤ) : Decidable (t.HasUser id) := inferInstanceAs (Decidable (∃ u ∈ t.users, _))
instance (t : Tables) (id : ℤ) : Decidable (t.HasItem id) := inferInstanceAs (Decidable (∃ i ∈ t.items, _))

/-- CHECK and FOREIGN KEY constraints of a `user_items` row. -/
structure UserItemOk (t : Tables) (r : UserItemRow) : Prop where
  quantity : 0 ≤ r.quantity
  user : t.HasUser r.userId
  item : t.HasItem r.itemId

/-- CHECK and FOREIGN KEY constraints of a `sell_orders` row. -/
structure SellOrderOk (t : Tables) (o : SellOrderRow) : Prop where
  quantity : 0 < o.quantity
  price : 0 < o.price
  seller : t.HasUser o.sellerId
  buyer : ∀ b ∈ o.buyerId, t.HasUser b
  item : t.HasItem o.itemId

/-- The constraints of the schema. -/
structure Valid (t : Tables) : Prop where
  userIds : (t.users.map (·.id)).Nodup
  usernames : (t.users.map (·.username)).Nodup
  userRange : ∀ u ∈ t.users, RowId u.id
  itemIds : (t.items.map (·.id)).Nodup
  itemNames : (t.items.map (·.name)).Nodup
  itemRange : ∀ i ∈ t.items, RowId i.id
  userItemKeys : (t.userItems.map UserItemRow.key).Nodup
  userItems : ∀ r ∈ t.userItems, t.UserItemOk r
  sellOrderIds : (t.sellOrders.map (·.id)).Nodup
  sellOrders : ∀ o ∈ t.sellOrders, t.SellOrderOk o

instance (t : Tables) (r : UserItemRow) : Decidable (t.UserItemOk r) :=
  decidable_of_iff (0 ≤ r.quantity ∧ t.HasUser r.userId ∧ t.HasItem r.itemId)
    ⟨fun ⟨h1, h2, h3⟩ => ⟨h1, h2, h3⟩, fun h => ⟨h.quantity, h.user, h.item⟩⟩

instance (t : Tables) (o : SellOrderRow) : Decidable (t.SellOrderOk o) :=
  decidable_of_iff (0 < o.quantity ∧ 0 < o.price ∧ t.HasUser o.sellerId ∧
      (∀ b ∈ o.buyerId, t.HasUser b) ∧ t.HasItem o.itemId)
    ⟨fun ⟨h1, h2, h3, h4, h5⟩ => ⟨h1, h2, h3, h4, h5⟩, fun h => ⟨h.quantity, h.price, h.seller, h.buyer, h.item⟩⟩

instance (t : Tables) : Decidable t.Valid :=
  decidable_of_iff ((t.users.map (·.id)).Nodup ∧ (t.users.map (·.username)).Nodup ∧ (∀ u ∈ t.users, RowId u.id) ∧
      (t.items.map (·.id)).Nodup ∧ (t.items.map (·.name)).Nodup ∧ (∀ i ∈ t.items, RowId i.id) ∧
      (t.userItems.map UserItemRow.key).Nodup ∧ (∀ r ∈ t.userItems, t.UserItemOk r) ∧
      (t.sellOrders.map (·.id)).Nodup ∧ ∀ o ∈ t.sellOrders, t.SellOrderOk o)
    ⟨fun ⟨h1, h2, h3, h4, h5, h6, h7, h8, h9, h10⟩ => ⟨h1, h2, h3, h4, h5, h6, h7, h8, h9, h10⟩,
      fun h => ⟨h.userIds, h.usernames, h.userRange, h.itemIds, h.itemNames, h.itemRange, h.userItemKeys,
        h.userItems, h.sellOrderIds, h.sellOrders⟩⟩

end Tables

/-- A database: tables that satisfy the schema. -/
structure Database extends Tables where
  valid : toTables.Valid

namespace Database

@[ext] theorem ext_tables {a b : Database} (h : a.toTables = b.toTables) : a = b := by
  cases a; cases b; cases h; rfl

instance : DecidableEq Database := fun a b =>
  decidable_of_iff (a.toTables = b.toTables) ⟨ext_tables, fun h => h ▸ rfl⟩

/-- The database with the schema and no rows. -/
def empty : Database := ⟨{}, by decide⟩

end Database

/-! ## Statements -/

/-- Errors are the texts the wrapper of sqlite3.cpp formats. -/
abbrev Error := Bytes

abbrev Connection := Sql.Connection Database Error
abbrev Exec (α : Type) := Sql.Exec Database Error α

/-- `SQLITE_CONSTRAINT` through `Statement::execute`. -/
def constraintFailed : Error := text "Failed to execute SQL statement: constraint failed"

/-- A step that finds no row (`SQLITE_DONE`). -/
def noMoreRows : Error := text "Failed to execute SQL statement: no more rows available"

/-- Accepts changed tables that satisfy the schema. -/
def Tables.check (t : Tables) : Except Error Database := if h : t.Valid then .ok ⟨t, h⟩ else .error constraintFailed

/-- `Sqlite3::execute` of a statement that changes the tables and yields a value. -/
def executeWith {α : Type} (f : Tables → Except Error (α × Tables)) : Exec α :=
  Sql.statement fun db => do
    let (a, t) ← f db.toTables
    return (a, ← t.check)

/-- `Sqlite3::execute` of a statement that changes the tables. -/
def execute (f : Tables → Tables) : Exec Unit := executeWith fun t => .ok ((), f t)

/-- `Sqlite3::query` of a statement that reads the tables, with the steps over its rows. -/
def query {α : Type} (f : Tables → Except Error α) : Exec α :=
  Sql.statement fun db => (f db.toTables).map (·, db)

/-- The row id of an insert into a table without AUTOINCREMENT. -/
def newRowId (ids : List ℤ) : ℤ := ids.foldl max 0 + 1

theorem le_foldl_max : ∀ (ids : List ℤ) (m : ℤ), m ≤ ids.foldl max m ∧ ∀ i ∈ ids, i ≤ ids.foldl max m
  | [], m => ⟨le_rfl, by simp⟩
  | i :: ids, m => by
    obtain ⟨h1, h2⟩ := le_foldl_max ids (max m i)
    refine ⟨le_trans (le_max_left m i) h1, fun j hj => ?_⟩
    rcases List.mem_cons.1 hj with rfl | hj
    · exact le_trans (le_max_right m _) h1
    · exact h2 j hj

theorem lt_newRowId {ids : List ℤ} {i : ℤ} (h : i ∈ ids) : i < newRowId ids := by
  have := (le_foldl_max ids 0).2 i h
  unfold newRowId
  omega

/-! ### What a successful statement did -/

theorem check_ok {t : Tables} {db : Database} (h : t.check = .ok db) : db.toTables = t := by
  unfold Tables.check at h
  split at h
  · cases h; rfl
  · cases h

theorem check_valid {t : Tables} (h : t.Valid) : t.check = .ok ⟨t, h⟩ := dif_pos h

theorem executeWith_ok {α : Type} {f : Tables → Except Error (α × Tables)} {c c' : Connection} {a : α}
    (h : executeWith f c = .ok a c') : f c.db.toTables = .ok (a, c'.db.toTables) ∧ c'.saved = c.saved := by
  obtain ⟨h1, h2⟩ := Sql.statement_ok h
  refine ⟨?_, h2⟩
  rcases hf : f c.db.toTables with e | ⟨a', t⟩
  · rw [hf] at h1; cases h1
  · rw [hf] at h1
    simp only [bind, Except.bind, pure, Except.pure] at h1
    rcases hc : t.check with e | db
    · rw [hc] at h1; cases h1
    · rw [hc] at h1
      cases h1
      rw [check_ok hc]

theorem executeWith_error {α : Type} {f : Tables → Except Error (α × Tables)} {c c' : Connection} {e : Error}
    (h : executeWith f c = .error e c') : c.Undone c' := Sql.statement_error h

theorem execute_ok {f : Tables → Tables} {c c' : Connection} (h : execute f c = .ok () c') :
    c'.db.toTables = f c.db.toTables ∧ c'.saved = c.saved := by
  obtain ⟨h1, h2⟩ := executeWith_ok h
  simp only [Except.ok.injEq, Prod.mk.injEq, true_and] at h1
  exact ⟨h1.symm, h2⟩

theorem query_ok {α : Type} {f : Tables → Except Error α} {c c' : Connection} {a : α}
    (h : query f c = .ok a c') : f c.db.toTables = .ok a ∧ c'.db = c.db ∧ c'.saved = c.saved := by
  obtain ⟨h1, h2⟩ := Sql.statement_ok h
  rcases hf : f c.db.toTables with e | a'
  · rw [hf] at h1; cases h1
  · rw [hf] at h1
    simp only [Except.map, Except.ok.injEq, Prod.mk.injEq] at h1
    exact ⟨by rw [h1.1], h1.2.symm, h2⟩

theorem query_error {α : Type} {f : Tables → Except Error α} {c c' : Connection} {e : Error}
    (h : query f c = .error e c') : c.Undone c' := Sql.statement_error h

theorem query_undone {α : Type} (f : Tables → Except Error α) (c : Connection) : c.Undone (Sql.after (query f c)) := by
  rcases h : query f c with ⟨a, c'⟩ | ⟨e, c'⟩
  · obtain ⟨-, hdb, hs⟩ := query_ok h
    exact .inl ⟨hs, hdb.symm⟩
  · exact query_error h

theorem query_held {α : Type} (f : Tables → Except Error α) {c : Connection} (hheld : Sql.Held c.faults) :
    (Sql.after (query f c)).db = c.db ∧ (Sql.after (query f c)).saved = c.saved := by
  rcases h : query f c with ⟨a, c'⟩ | ⟨e, c'⟩
  · exact (query_ok h).2
  · exact Sql.statement_error_held hheld h

/-- Outside a transaction a query changes nothing. -/
theorem query_after {α : Type} (f : Tables → Except Error α) {c : Connection} (hc : c.saved = none) :
    (Sql.after (query f c)).db = c.db ∧ (Sql.after (query f c)).saved = none := by
  obtain ⟨hs, hdb⟩ := (query_undone f c).idle hc
  exact ⟨hdb.symm, hs⟩

theorem query_faults {α : Type} (f : Tables → Except Error α) (c : Connection) :
    (Sql.after (query f c)).faults = c.faults.tail := Sql.statement_faults _ c

section
variable {α : Type} {R : Tables → Tables → Prop} (hr : ∀ t, R t t)
include hr

theorem keeps_executeWith {f : Tables → Except Error (α × Tables)} (hf : ∀ t a t', f t = .ok (a, t') → R t t') :
    Sql.Keeps (fun a b : Database => R a.toTables b.toTables) (executeWith f) := by
  intro c
  rcases h : executeWith f c with ⟨a, c'⟩ | ⟨e, c'⟩
  · obtain ⟨hdb, hs⟩ := executeWith_ok h
    exact .inl ⟨hs, hf _ _ _ hdb⟩
  · exact (executeWith_error h).imp fun _ _ hab => hab ▸ hr _

theorem keeps_query (f : Tables → Except Error α) :
    Sql.Keeps (fun a b : Database => R a.toTables b.toTables) (query f) :=
  fun c => (query_undone f c).imp fun _ _ hab => hab ▸ hr _

end

/-! ### Statements that are not refused -/

theorem executeWith_granted {α : Type} {f : Tables → Except Error (α × Tables)} (db : Database) {t : Tables} {a : α}
    {faults : List (Option (Sql.Fault Error))} (h : Sql.Granted faults) (hf : f db.toTables = .ok (a, t))
    (hv : t.Valid) (saved : Option Database) :
    executeWith f ⟨db, saved, faults⟩ = .ok a ⟨⟨t, hv⟩, saved, faults.tail⟩ := by
  refine Sql.statement_granted h ?_
  simp [hf, bind, Except.bind, pure, Except.pure, check_valid hv]

theorem execute_granted {f : Tables → Tables} {db : Database} {faults : List (Option (Sql.Fault Error))}
    (h : Sql.Granted faults) (hv : (f db.toTables).Valid) (saved : Option Database) :
    execute f ⟨db, saved, faults⟩ = .ok () ⟨⟨f db.toTables, hv⟩, saved, faults.tail⟩ :=
  executeWith_granted db h rfl hv saved

theorem query_granted {α : Type} {f : Tables → Except Error α} (db : Database) {a : α}
    {faults : List (Option (Sql.Fault Error))} (h : Sql.Granted faults) (hf : f db.toTables = .ok a)
    (saved : Option Database) : query f ⟨db, saved, faults⟩ = .ok a ⟨db, saved, faults.tail⟩ := by
  refine Sql.statement_granted h ?_
  rw [hf]; rfl

theorem granted_of_executeWith {α : Type} {f : Tables → Except Error (α × Tables)} {c c' : Connection} {a : α}
    (h : executeWith f c = .ok a c') : Sql.Granted c.faults ∧ c'.faults = c.faults.tail := Sql.granted_of_statement h

theorem granted_of_execute {f : Tables → Tables} {c c' : Connection} (h : execute f c = .ok () c') :
    Sql.Granted c.faults ∧ c'.faults = c.faults.tail := granted_of_executeWith h

theorem granted_of_query {α : Type} {f : Tables → Except Error α} {c c' : Connection} {a : α}
    (h : query f c = .ok a c') : Sql.Granted c.faults ∧ c'.faults = c.faults.tail := Sql.granted_of_statement h

/-- A statement that changes the tables succeeds exactly when it is granted and the constraints accept its result. -/
theorem executeWith_succeeds {α : Type} {f : Tables → Except Error (α × Tables)} {c : Connection} :
    (∃ a c', executeWith f c = .ok a c') ↔
      Sql.Granted c.faults ∧ ∃ a t, f c.db.toTables = .ok (a, t) ∧ t.Valid := by
  constructor
  · rintro ⟨a, c', h⟩
    obtain ⟨hf, -⟩ := executeWith_ok h
    exact ⟨(Sql.granted_of_statement h).1, a, c'.db.toTables, hf, c'.db.valid⟩
  · rintro ⟨hg, a, t, hf, hv⟩
    exact ⟨a, _, executeWith_granted c.db hg hf hv c.saved⟩

theorem executeWith_calm {α : Type} {f : Tables → Except Error (α × Tables)} {db : Database} {t : Tables} {a : α}
    (hf : f db.toTables = .ok (a, t)) (hv : t.Valid) (saved : Option Database) :
    executeWith f ⟨db, saved, []⟩ = .ok a ⟨⟨t, hv⟩, saved, []⟩ :=
  executeWith_granted db Sql.granted_nil hf hv saved

theorem execute_calm {f : Tables → Tables} {db : Database} (hv : (f db.toTables).Valid) (saved : Option Database) :
    execute f ⟨db, saved, []⟩ = .ok () ⟨⟨f db.toTables, hv⟩, saved, []⟩ := execute_granted Sql.granted_nil hv saved

theorem query_calm {α : Type} (f : Tables → Except Error α) (db : Database) (saved : Option Database) :
    query f ⟨db, saved, []⟩ = match f db.toTables with
      | .ok a => .ok a ⟨db, saved, []⟩
      | .error e => .error e ⟨db, saved, []⟩ := by
  simp only [query, Sql.statement_calm]
  rcases f db.toTables with e | a <;> rfl

theorem inside_executeWith {α : Type} (f : Tables → Except Error (α × Tables)) : Sql.Inside (executeWith f) :=
  Sql.Inside.statement _

theorem inside_execute (f : Tables → Tables) : Sql.Inside (execute f) := inside_executeWith _

theorem inside_query {α : Type} (f : Tables → Except Error α) : Sql.Inside (query f) := Sql.Inside.statement _

end AuctionHouse
