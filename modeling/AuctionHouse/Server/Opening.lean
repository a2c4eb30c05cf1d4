/-
The whole of Storage::open: the tables and the index are created one statement after another, each
committed on its own, and the funds item is inserted and read back between them. A process may be
killed between any two of these statements, and is started again on what they left.
The two PRAGMAs create nothing and change no row, and whether they succeed is not asked.
-/
import AuctionHouse.Machine.Resume
import AuctionHouse.Server.Operation

namespace AuctionHouse

/-! ## Database files -/

/-- A database file: the rows of each table that was created, and whether the index was. The rows of
`sell_orders` come with its AUTOINCREMENT row. -/
structure File where
  users : Option (List UserRow) := none
  items : Option (List ItemRow) := none
  userItems : Option (List UserItemRow) := none
  sellOrders : Option (List SellOrderRow × ℤ) := none
  sellOrdersExpirationTime : Bool := false
  deriving DecidableEq

namespace File

/-- A file that is not there yet. -/
def absent : File := {}

/-- Every row of the file. -/
def tables (f : File) : Tables where
  users := f.users.getD []
  items := f.items.getD []
  userItems := f.userItems.getD []
  sellOrders := (f.sellOrders.map (·.1)).getD []
  sellOrdersSeq := (f.sellOrders.map (·.2)).getD 0

/-- The complete schema. -/
structure Complete (f : File) : Prop where
  users : f.users.isSome
  items : f.items.isSome
  userItems : f.userItems.isSome
  sellOrders : f.sellOrders.isSome
  sellOrdersExpirationTime : f.sellOrdersExpirationTime

instance (f : File) : Decidable f.Complete :=
  decidable_of_iff (f.users.isSome ∧ f.items.isSome ∧ f.userItems.isSome ∧ f.sellOrders.isSome ∧
    f.sellOrdersExpirationTime) ⟨fun ⟨h1, h2, h3, h4, h5⟩ => ⟨h1, h2, h3, h4, h5⟩,
      fun h => ⟨h.users, h.items, h.userItems, h.sellOrders, h.sellOrdersExpirationTime⟩⟩

/-- The file with the complete schema and these rows. -/
def ofTables (t : Tables) : File where
  users := some t.users
  items := some t.items
  userItems := some t.userItems
  sellOrders := some (t.sellOrders, t.sellOrdersSeq)
  sellOrdersExpirationTime := true

/-- The database a server works on. -/
def database? (f : File) : Option Database :=
  if h : f.Complete ∧ f.tables.Valid then some ⟨f.tables, h.2⟩ else none

/-! ## Statements of Storage::open -/

abbrev Statement := File → Except Error File

/-- `Sqlite3::open`, which writes nothing to the file. -/
def connect : Statement := .ok

/-- PRAGMA journal_mode=WAL, PRAGMA synchronous=NORMAL. -/
def pragma : Statement := .ok

/-- CREATE TABLE IF NOT EXISTS users. -/
def createUsers : Statement := fun f => .ok { f with users := some (f.users.getD []) }

/-- CREATE TABLE IF NOT EXISTS items. -/
def createItems : Statement := fun f => .ok { f with items := some (f.items.getD []) }

/-- `INSERT OR IGNORE INTO items (name) VALUES ('funds')`. -/
def insertFunds : Statement := fun f =>
  match f.items with
  | none => .error (text "Failed to prepare SQL statement: no such table: items")
  | some _ => (Storage.insertFundsItem f.tables).check.map fun db => { f with items := some db.items }

/-- `SELECT id FROM items WHERE name = 'funds'`. -/
def selectFundsId (f : File) : Except Error Int32 :=
  match f.items with
  | none => .error (text "Failed to prepare SQL statement: no such table: items")
  | some _ => Storage.selectItemId (some fundsItemName) f.tables

def selectFunds : Statement := fun f => (selectFundsId f).map fun _ => f

/-- CREATE TABLE IF NOT EXISTS user_items. -/
def createUserItems : Statement := fun f => .ok { f with userItems := some (f.userItems.getD []) }

/-- CREATE TABLE IF NOT EXISTS sell_orders. -/
def createSellOrders : Statement := fun f => .ok { f with sellOrders := some (f.sellOrders.getD ([], 0)) }

/-- CREATE INDEX IF NOT EXISTS sell_orders_expiration_time. -/
def createExpirationTimeIndex : Statement := fun f =>
  match f.sellOrders with
  | none => .error (text "Failed to execute SQL: no such table: main.sell_orders")
  | some _ => .ok { f with sellOrdersExpirationTime := true }

/-- The statements of Storage::open in their order. -/
def statements : List Statement :=
  [pragma, pragma, createUsers, createItems, insertFunds, selectFunds, createUserItems, createSellOrders,
    createExpirationTimeIndex]

/-- The file after a statement that succeeds. -/
def step (f : File) (statement : Statement) : Option File := (statement f).toOption

/-- `Sqlite3::execute`. -/
def exec (statement : Statement) : Sql.Exec File Error Unit := Sql.statement fun f => (statement f).map ((), ·)

/-- `Sqlite3::query` and its step. -/
def read {α : Type} (g : File → Except Error α) : Sql.Exec File Error α :=
  Sql.statement fun f => (g f).map (·, f)

end File

open File in
/-- `Storage::open`. -/
def Storage.openFile : Sql.Exec File Error Storage := do
  Sql.mapError (text "Failed to open database: " ++ ·) (exec connect)
  let _ ← Sql.attempt (exec pragma)
  let _ ← Sql.attempt (exec pragma)
  Sql.mapError (text "Failed to create 'users' table: " ++ ·) (exec createUsers)
  Sql.mapError (text "Failed to create 'items' table: " ++ ·) (exec createItems)
  Sql.mapError (text "Failed to insert 'funds' item: " ++ ·) (exec insertFunds)
  let fundsItemId ← Sql.mapError (text "Failed to get 'funds' item id: " ++ ·)
    (read selectFundsId)
  Sql.mapError (text "Failed to create 'user_items' table: " ++ ·) (exec createUserItems)
  Sql.mapError (text "Failed to create 'sell_orders' table: " ++ ·) (exec createSellOrders)
  Sql.mapError (text "Failed to create 'sell_orders_expiration_time' index: " ++ ·) (exec createExpirationTimeIndex)
  return ⟨fundsItemId⟩

/-! ## Processes on a file -/

/-- A file, and the storage of the server that runs on it. -/
inductive Host where
  | stopped (file : File)
  | running (storage : Storage) (file : File)

/-- What happens to the server. -/
inductive Incident where
  /-- It is started, with the refusals of its statements. -/
  | start (faults : List (Option (Sql.Fault Error)))
  /-- It is started, and killed after this many statements of Storage::open. -/
  | startKilled (executed : ℕ)
  /-- It executes an operation. When all its statements from one on are refused and `kill` comes
  next, it was killed between these statements: its transaction is rolled back. -/
  | call (call : Call)
  /-- It is killed, or shut down, between two operations. -/
  | kill

namespace Host

def file : Host → File
  | stopped f => f
  | running _ f => f

/-- The server after Storage::open: it exits when that fails. -/
def ofOpening : EStateM.Result Error (Sql.Connection File Error) Storage → Host
  | .ok st c => running st c.db
  | .error _ c => stopped c.db

/-- None when an incident is not possible: a server is started where none runs, and only a running
one executes operations. -/
def next : Host → Incident → Option Host
  | stopped f, .start faults => some (ofOpening (Storage.openFile ⟨f, none, faults⟩))
  | stopped f, .startKilled executed => (Machine.run File.step f (File.statements.take executed)).map stopped
  | running st f, .call call => f.database?.map fun db => running st (.ofTables (call.next st db).toTables)
  | running _ f, .kill => some (stopped f)
  | stopped _, _ => none
  | running _ _, _ => none

end Host

/-- The operations of a run. -/
def Incident.calls (incidents : List Incident) : List Call :=
  incidents.filterMap fun
    | .call c => some c
    | _ => none

end AuctionHouse
