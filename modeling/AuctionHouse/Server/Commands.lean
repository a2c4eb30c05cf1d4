/-
commands.cpp and main.cpp: the commands that change the state of the server, the tick that settles
expired orders, and runs of the server without I/O failures.
-/
import AuctionHouse.Machine.Runs
import AuctionHouse.Server.Operation
import AuctionHouse.Server.SharedState

namespace AuctionHouse

open SharedState

/-! ## Commands -/

/-- `Deposit`, `Withdraw`, `Sell` and `Buy`; the other commands leave the state alone. -/
inductive Command where
  | deposit (itemName : StringView) (quantity : Int32)
  | withdraw (itemName : StringView) (quantity : Int32)
  | sell (orderType : SellOrderType) (itemName : StringView) (quantity price : Int32)
  | buy (sellOrderId : Int32) (bid : Option Int32)

def SellOrderType.toBytes : SellOrderType → Bytes
  | .immediate => text "immediate"
  | .auction => text "auction"

namespace Command

/-- "5 arrow(s)". -/
def amount (quantity : Int32) (itemName : StringView) : Bytes :=
  decimal quantity ++ text " " ++ itemName.bytes ++ text "(s)"

def executeDeposit (userId : UserId) (itemName : StringView) (quantity : Int32) : StateM SharedState Bytes := do
  match ← onStorage (fun _ => AuctionService.deposit userId itemName quantity) [] with
  | .error e => return text "Failed to deposit " ++ amount quantity itemName ++ text " with error: " ++ e
  | .ok info =>
    save userId (text "deposited") info
    return text "Successfully deposited " ++ amount quantity itemName

def executeWithdraw (userId : UserId) (itemName : StringView) (quantity : Int32) : StateM SharedState Bytes := do
  match ← onStorage (fun st => AuctionService.withdraw st userId itemName quantity) [] with
  | .error e => return text "Failed to withdraw " ++ amount quantity itemName ++ text " with error: " ++ e
  | .ok info =>
    save userId (text "withdrawn") info
    return text "Successfully withdrawn " ++ amount quantity itemName

/-- 5 minutes in seconds. -/
def orderLifetime : ℤ := 300

def executeSell (userId : UserId) (orderType : SellOrderType) (itemName : StringView) (quantity price : Int32)
    (unixNow : ℤ) : StateM SharedState Bytes := do
  match ← onStorage (fun st =>
    AuctionService.placeSellOrder st orderType userId itemName quantity price (unixNow + orderLifetime)) [] with
  | .error e =>
    return text "Failed to place " ++ orderType.toBytes ++ text " sell order for " ++ amount quantity itemName ++
      text " with error: " ++ e
  | .ok info =>
    save userId (text "payed fee") info
    return text "Successfully placed " ++ orderType.toBytes ++ text " sell order for " ++ amount quantity itemName

def executeBuy (userId : UserId) (sellOrderId : Int32) : Option Int32 → StateM SharedState Bytes
  | some bid => do
    match ← onStorage (fun st => AuctionService.placeBidOnAuctionSellOrder st userId sellOrderId bid) [] with
    | .error e =>
      return text "Failed to place a bid on #" ++ decimal sellOrderId ++ text " auction sell order with error: " ++ e
    | .ok () => return text "Successfully placed a bid on #" ++ decimal sellOrderId ++ text " auction sell order"
  | none => do
    match ← onStorage (fun st => AuctionService.executeImmediateSellOrder st userId sellOrderId) [] with
    | .error e => return text "Failed to execute #" ++ decimal sellOrderId ++ text " sell order with error: " ++ e
    | .ok info =>
      saveExecuted info
      return text "Successfully executed #" ++ decimal sellOrderId ++ text " sell order"

/-- `execute`: the response to the user. -/
def execute (userId : UserId) (unixNow : ℤ) : Command → StateM SharedState Bytes
  | .deposit itemName quantity => executeDeposit userId itemName quantity
  | .withdraw itemName quantity => executeWithdraw userId itemName quantity
  | .sell orderType itemName quantity price => executeSell userId orderType itemName quantity price unixNow
  | .buy sellOrderId bid => executeBuy userId sellOrderId bid

end Command

/-! ## The settlement tick -/

/-- What a step of the server did: it left a state, or its behaviour is undefined, with this
database on disk. -/
inductive Behaviour where
  | returned (s : SharedState)
  | undefined (db : Database)

def Behaviour.state : Behaviour → Option SharedState
  | .returned s => some s
  | .undefined _ => none

namespace SharedState

/-- An iteration of the coroutine `process_expired_sell_orders`. The loop over `*result` runs also
after an error was printed, and then reads a list that does not exist. -/
def processExpiredSellOrders (unixNow : ℤ) (faults : List (Option (Sql.Fault Error))) (s : SharedState) : Behaviour :=
  match onStorage (fun st => Storage.processExpiredSellOrders st unixNow) faults s with
  | (.ok orders, s) => .returned (orders.forM saveExecuted s).2
  -- `*result` of an `expected` that holds an error
  | (.error _, s) => .undefined s.db

end SharedState

/-! ## Runs -/

/-- What happens to the server: a client logs in, a logged in user's command is executed, a second
has passed. -/
inductive Event where
  | login (username : StringView)
  | command (userId : UserId) (unixNow : ℤ) (command : Command)
  | tick (unixNow : ℤ)

namespace SharedState

/-- The server started on an empty database. -/
def initial : SharedState := { storage := Storage.initial, db := Database.initial }

def step (s : SharedState) : Event → Behaviour
  | .login username => .returned (onStorage (fun st => UserService.login st username) [] s).2
  | .command userId unixNow command => .returned (command.execute userId unixNow s).2
  | .tick unixNow => processExpiredSellOrders unixNow [] s

/-- The state after an event; none after undefined behaviour. -/
def next (s : SharedState) (e : Event) : Option SharedState := (s.step e).state

/-- The state after the events; none after undefined behaviour. -/
def run : SharedState → List Event → Option SharedState := Machine.run next

end SharedState

/-! ## What a step does -/

/-- The operation of the services behind an event. -/
def Event.operation : Event → Operation
  | .login username => .login username
  | .command userId _ (.deposit itemName quantity) => .deposit userId itemName quantity
  | .command userId _ (.withdraw itemName quantity) => .withdraw userId itemName quantity
  | .command userId unixNow (.sell orderType itemName quantity price) =>
    .placeSellOrder orderType userId itemName quantity price (unixNow + Command.orderLifetime)
  | .command userId _ (.buy sellOrderId none) => .executeImmediateSellOrder userId sellOrderId
  | .command userId _ (.buy sellOrderId (some bid)) => .placeBidOnAuctionSellOrder userId sellOrderId bid
  | .tick unixNow => .processExpiredSellOrders unixNow

namespace Event

variable {e : Event} {userId : UserId} {id bid : Int32} {unixNow : ℤ}

theorem of_bid (h : e.operation = .placeBidOnAuctionSellOrder userId id bid) :
    ∃ unixNow, e = .command userId unixNow (.buy id (some bid)) := by
  rcases e with _ | ⟨_, unixNow, _ | _ | _ | ⟨_, _ | _⟩⟩ | _
  all_goals cases h
  exact ⟨unixNow, rfl⟩

theorem of_purchase (h : e.operation = .executeImmediateSellOrder userId id) :
    ∃ unixNow, e = .command userId unixNow (.buy id none) := by
  rcases e with _ | ⟨_, unixNow, _ | _ | _ | ⟨_, _ | _⟩⟩ | _
  all_goals cases h
  exact ⟨unixNow, rfl⟩

theorem of_settle (h : e.operation = .processExpiredSellOrders unixNow) : e = .tick unixNow := by
  rcases e with _ | ⟨_, _, _ | _ | _ | ⟨_, _ | _⟩⟩ | _
  all_goals cases h
  rfl

end Event

namespace Operation

/-- What is logged of an operation that replied. -/
def entries : Operation → Reply → List LogEntry
  | .deposit userId _ _, .item info => [⟨userId, .item (text "deposited") info.itemId info.quantity⟩]
  | .withdraw userId _ _, .item info => [⟨userId, .item (text "withdrawn") info.itemId info.quantity⟩]
  | .placeSellOrder _ sellerId _ _ _ _, .item info => [⟨sellerId, .item (text "payed fee") info.itemId info.quantity⟩]
  | .executeImmediateSellOrder _ _, .executed info => info.entries
  | .processExpiredSellOrders _, .settled orders => orders.flatMap SellOrderExecutionInfo.entries
  | _, _ => []

/-- What is notified of an operation that replied. -/
def notifications : Operation → Reply → List (UserId × ExecutedSellOrder)
  | .executeImmediateSellOrder _ _, .executed info => [info.notification]
  | .processExpiredSellOrders _, .settled orders => orders.map SellOrderExecutionInfo.notification
  | _, _ => []

end Operation

namespace SharedState

/-- The state after an operation without refusals that replied. -/
def record (s : SharedState) (operation : Operation) (reply : Reply) : SharedState :=
  { s with
    db := Call.next s.storage ⟨operation, []⟩ s.db
    transactionLog := s.transactionLog ++ operation.entries reply
    notifications := s.notifications ++ operation.notifications reply }

/-- What a step does by the reply of its operation: only a failed tick goes on with what is not there. -/
theorem step_eq (s : SharedState) (e : Event) : s.step e =
    match Call.reply s.storage ⟨e.operation, []⟩ s.db with
    | .ok reply => .returned (s.record e.operation reply)
    | .error _ =>
      match e with
      | .tick unixNow => .undefined (Call.next s.storage ⟨.processExpiredSellOrders unixNow, []⟩ s.db)
      | _ => .returned { s with db := Call.next s.storage ⟨e.operation, []⟩ s.db } := by
  cases e with
  | login username =>
    simp only [step, onStorage, Event.operation, record, Call.reply_calm, Call.next_calm, Operation.exec,
      Sql.outcome_map, Sql.after_map]
    rcases UserService.login s.storage username (Sql.Connection.idle s.db) with ⟨user, c⟩ | ⟨e, c⟩
    · simp [Except.map, Operation.entries, Operation.notifications]
    · rfl
  | command userId unixNow command =>
    have hbind : ∀ {α β : Type} (x : StateM SharedState α) (f : α → StateM SharedState β) (s : SharedState),
        (x >>= f) s = f (x s).1 (x s).2 := fun _ _ _ => rfl
    rcases command with ⟨itemName, quantity⟩ | ⟨itemName, quantity⟩ | ⟨orderType, itemName, quantity, price⟩ |
      ⟨sellOrderId, _ | bid⟩
    all_goals simp only [step, Command.execute, Command.executeDeposit, Command.executeWithdraw, Command.executeSell,
      Command.executeBuy, hbind, onStorage, Event.operation, record, Call.reply_calm, Call.next_calm, Operation.exec,
      Sql.outcome_map, Sql.after_map]
    · rcases AuctionService.deposit userId itemName quantity (Sql.Connection.idle s.db) with ⟨info, c⟩ | ⟨e, c⟩
      · simp only [Except.map, Sql.outcome_ok, Operation.entries, Operation.notifications, List.append_nil]
        rfl
      · rfl
    · rcases AuctionService.withdraw s.storage userId itemName quantity (Sql.Connection.idle s.db)
        with ⟨info, c⟩ | ⟨e, c⟩
      · simp only [Except.map, Sql.outcome_ok, Operation.entries, Operation.notifications, List.append_nil]
        rfl
      · rfl
    · rcases AuctionService.placeSellOrder s.storage orderType userId itemName quantity price
        (unixNow + Command.orderLifetime) (Sql.Connection.idle s.db) with ⟨info, c⟩ | ⟨e, c⟩
      · simp only [Except.map, Sql.outcome_ok, Operation.entries, Operation.notifications, List.append_nil]
        rfl
      · rfl
    · rcases AuctionService.executeImmediateSellOrder s.storage userId sellOrderId (Sql.Connection.idle s.db)
        with ⟨info, c⟩ | ⟨e, c⟩
      · simp only [Except.map, Sql.outcome_ok, Operation.entries, Operation.notifications, hbind, saveExecuted_run]
        rfl
      · rfl
    · rcases AuctionService.placeBidOnAuctionSellOrder s.storage userId sellOrderId bid (Sql.Connection.idle s.db)
        with ⟨⟨⟩, c⟩ | ⟨e, c⟩
      · simp only [Except.map, Sql.outcome_ok, Operation.entries, Operation.notifications, List.append_nil]
        rfl
      · rfl
  | tick unixNow =>
    simp only [step, processExpiredSellOrders, onStorage, Event.operation, record, Call.reply_calm, Call.next_calm,
      Operation.exec, Sql.outcome_map, Sql.after_map]
    rcases Storage.processExpiredSellOrders s.storage unixNow (Sql.Connection.idle s.db) with ⟨orders, c⟩ | ⟨e, c⟩
    · simp only [Except.map, Sql.outcome_ok, Sql.after_ok, Operation.entries, Operation.notifications,
        saveExecuted_forM]
    · rfl

/-- A step that is not undefined recorded a reply, or it was a command that failed. -/
theorem next_cases {s s' : SharedState} {e : Event} (h : s.next e = some s') :
    (∃ reply, Call.reply s.storage ⟨e.operation, []⟩ s.db = .ok reply ∧ s' = s.record e.operation reply) ∨
      ∃ error, Call.reply s.storage ⟨e.operation, []⟩ s.db = .error error ∧ (∀ unixNow, e ≠ .tick unixNow) ∧
        s' = { s with db := Call.next s.storage ⟨e.operation, []⟩ s.db } := by
  unfold next at h
  rw [step_eq] at h
  split at h
  · rename_i reply hr
    exact .inl ⟨reply, hr, (Option.some.inj h).symm⟩
  · rename_i error hr
    split at h
    · cases h
    · rename_i hne
      exact .inr ⟨error, hr, hne, (Option.some.inj h).symm⟩

theorem next_sockets {s s' : SharedState} {e : Event} (h : s.next e = some s') : s'.sockets = s.sockets := by
  obtain ⟨_, -, rfl⟩ | ⟨_, -, -, rfl⟩ := next_cases h
  · rfl
  · rfl

end SharedState

end AuctionHouse
