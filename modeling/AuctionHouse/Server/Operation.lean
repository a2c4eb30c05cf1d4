/-
The operations of the services as one type, what they reply, and runs of any operations by any
users in any order. Every call carries its own list of refused statements.
-/
import AuctionHouse.Server.Services

namespace AuctionHouse

open Storage AuctionService

inductive Operation where
  | login (username : StringView)
  | deposit (userId : UserId) (itemName : StringView) (quantity : Int32)
  | withdraw (userId : UserId) (itemName : StringView) (quantity : Int32)
  | placeSellOrder (orderType : SellOrderType) (sellerId : UserId) (itemName : StringView)
      (quantity price : Int32) (unixExpirationTime : ℤ)
  | executeImmediateSellOrder (buyerId : UserId) (sellOrderId : Int32)
  | placeBidOnAuctionSellOrder (buyerId : UserId) (sellOrderId bid : Int32)
  | processExpiredSellOrders (unixNow : ℤ)

/-- What an operation returns. -/
inductive Reply where
  | user (user : User)
  | item (info : ItemOperationInfo)
  | executed (info : SellOrderExecutionInfo)
  | bid
  | settled (orders : List SellOrderExecutionInfo)
  deriving DecidableEq

def Operation.exec (st : Storage) : Operation → Exec Reply
  | .login username => .user <$> UserService.login st username
  | .deposit userId itemName quantity => .item <$> AuctionService.deposit userId itemName quantity
  | .withdraw userId itemName quantity => .item <$> AuctionService.withdraw st userId itemName quantity
  | .placeSellOrder orderType sellerId itemName quantity price unixExpirationTime =>
    .item <$> AuctionService.placeSellOrder st orderType sellerId itemName quantity price unixExpirationTime
  | .executeImmediateSellOrder buyerId sellOrderId =>
    .executed <$> AuctionService.executeImmediateSellOrder st buyerId sellOrderId
  | .placeBidOnAuctionSellOrder buyerId sellOrderId bid =>
    (fun _ => .bid) <$> AuctionService.placeBidOnAuctionSellOrder st buyerId sellOrderId bid
  | .processExpiredSellOrders unixNow => .settled <$> Storage.processExpiredSellOrders st unixNow

/-- The user who issues an operation; logins and settlement ticks are issued by nobody. -/
def Operation.issuer : Operation → Option UserId
  | .login _ => none
  | .deposit userId _ _ => some userId
  | .withdraw userId _ _ => some userId
  | .placeSellOrder _ sellerId _ _ _ _ => some sellerId
  | .executeImmediateSellOrder buyerId _ => some buyerId
  | .placeBidOnAuctionSellOrder buyerId _ _ => some buyerId
  | .processExpiredSellOrders _ => none

/-- An operation and the refusals of its statements. -/
structure Call where
  operation : Operation
  faults : List (Option (Sql.Fault Error)) := []

/-- The one rollback of the engine after which the code runs on: at the query of a settlement, the
statement after its BEGIN. `processExpiredSellOrders_rolledBack` says what follows it. -/
def Operation.RolledBackAtQuery (operation : Operation) (faults : List (Option (Sql.Fault Error))) : Prop :=
  (∃ unixNow, operation = .processExpiredSellOrders unixNow) ∧ ¬ Sql.Held faults.tail

namespace Call

/-- The answers of the engine in a call. Wherever refusals are quantified over by calls, the engine is
assumed not to roll a settlement back at its query; any other refusal may roll back its transaction. -/
def answers (call : Call) : List (Option (Sql.Fault Error)) :=
  match call.operation with
  | .processExpiredSellOrders _ => call.faults.modify 1 (Option.map Sql.Fault.held)
  | _ => call.faults

@[simp] theorem answers_nil (operation : Operation) : (⟨operation, []⟩ : Call).answers = [] := by
  cases operation <;> rfl

theorem held_answers {call : Call} {unixNow : ℤ} (hop : call.operation = .processExpiredSellOrders unixNow) :
    Sql.Held call.answers.tail := by
  intro fault hf
  unfold answers at hf
  rw [hop] at hf
  rcases hfaults : call.faults with _ | ⟨f₀, _ | ⟨f, rest⟩⟩
  · simp [hfaults] at hf
  · simp [hfaults] at hf
  · simp only [hfaults, List.modify_succ_cons, List.modify_zero_cons, List.tail_cons, List.head?_cons,
      Option.some.injEq, Option.map_eq_some_iff] at hf
    obtain ⟨fault, -, rfl⟩ := hf
    rfl

theorem not_rolledBackAtQuery (call : Call) : ¬ call.operation.RolledBackAtQuery call.answers :=
  fun ⟨⟨_, hop⟩, hheld⟩ => hheld (held_answers hop)

variable (st : Storage)

/-- What a call returns on an idle connection. -/
def reply (call : Call) (db : Database) : Except Error Reply :=
  Sql.outcome (call.operation.exec st (Sql.Connection.idle db call.answers))

/-- The database after a call on an idle connection. -/
def next (call : Call) (db : Database) : Database :=
  (Sql.after (call.operation.exec st (Sql.Connection.idle db call.answers))).db

theorem reply_calm (operation : Operation) (db : Database) :
    reply st ⟨operation, []⟩ db = Sql.outcome (operation.exec st (Sql.Connection.idle db)) := by
  unfold reply
  rw [answers_nil]

theorem next_calm (operation : Operation) (db : Database) :
    next st ⟨operation, []⟩ db = (Sql.after (operation.exec st (Sql.Connection.idle db))).db := by
  unfold next
  rw [answers_nil]

/-- The database after calls one after another. -/
def run (db : Database) (calls : List Call) : Database := calls.foldl (fun db call => call.next st db) db

@[simp] theorem run_nil (db : Database) : run st db [] = db := rfl

@[simp] theorem run_cons (db : Database) (call : Call) (calls : List Call) :
    run st db (call :: calls) = run st (call.next st db) calls := rfl

theorem run_append (db : Database) (calls more : List Call) :
    run st db (calls ++ more) = run st (run st db calls) more := List.foldl_append

end Call

/-! ## The empty database -/

/-- The storage opened on an empty database. -/
def Storage.initial : Storage := ⟨1⟩

/-- The database after opening an empty one. -/
def Database.initial : Database := ⟨{ items := [⟨1, fundsItemName⟩] }, by decide⟩

theorem open_empty :
    Storage.open (Sql.Connection.idle Database.empty) =
      .ok Storage.initial (Sql.Connection.idle Database.initial) := by
  rfl

/-- alice auctions a sword until the time 300; bob bids 30 and carol 40. -/
def auctionRun : List Call :=
  let user (name : String) : Call := ⟨.login (some (text name)), []⟩
  let sword : StringView := some (text "sword")
  [user "alice", user "bob", user "carol", ⟨.deposit 1 (some fundsItemName) 10, []⟩, ⟨.deposit 1 sword 1, []⟩,
    ⟨.deposit 2 (some fundsItemName) 50, []⟩, ⟨.deposit 3 (some fundsItemName) 50, []⟩,
    ⟨.placeSellOrder .auction 1 sword 1 20 300, []⟩, ⟨.placeBidOnAuctionSellOrder 2 1 30, []⟩,
    ⟨.placeBidOnAuctionSellOrder 3 1 40, []⟩]

end AuctionHouse
