/-
commands.cpp and commands_processor.cpp: the responses to requests, with all their texts.
-/
import AuctionHouse.Server.Parsing
import AuctionHouse.Server.Views

namespace AuctionHouse

open SharedState

/-! ## Texts -/

def UserItemInfo.format (i : UserItemInfo) : Bytes :=
  text "(\"" ++ i.itemName ++ text "\", " ++ decimal i.quantity ++ text ")"

def SellOrderInfo.format (order : SellOrderInfo) : Bytes :=
  let orderType := match order.type with
    | .auction => text "on auction "
    | .immediate => []
  if order.quantity = 1 then
    text "#" ++ decimal order.id ++ text ": " ++ order.sellerName ++ text " is selling a " ++ order.itemName ++
      text " for " ++ decimal order.price ++ text " funds " ++ orderType ++ text "until " ++ order.expirationTime
  else
    text "#" ++ decimal order.id ++ text ": " ++ order.sellerName ++ text " is selling " ++ decimal order.quantity ++
      text " " ++ order.itemName ++ text "(s) for " ++ decimal order.price ++ text " funds " ++ orderType ++
      text "until " ++ order.expirationTime

/-- The lines of `kHelpString`. -/
def helpLines : List String := [
  "Available commands:",
  "- whoami: Displays the username of the current user",
  "- ping: Replies 'pong'",
  "- help: Prints this help message about all available commands",
  "- quit: Ask the server to close the connection. Alternatively, the client can just close the connection (e.g. Ctrl+C)",
  "",
  "- deposit: Deposits a specified amount into the user's account. Format: 'deposit <item name> [<quantity>]'.",
  "  'fund' is a special item name that can be used to deposit funds into the user's account",
  "  Example: 'deposit funds 100' - deposits 100 funds, 'deposit Sword' - deposits 1 Sword",
  "- withdraw: Withdraws a specified amount from the user's account. Format: 'withdraw <item name> [<quantity>]'",
  "  Example: 'withdraw arrow 5' - withdraws 5 arrows, 'withdraw Sword' - withdraws 1 Sword",
  "- view_items: Displays a list items for the current user",
  "",
  "- view_sell_orders: Displays a list of all sell orders from all users",
  "- sell: Places an item for sale at a specified price. Format: 'sell [immediate|auction] <item_name> [<quantity>] <price>'",
  "  - immediate sell order - will be executed immediately once someone buys it. Otherwise it will expire in 5 minutes",
  "    and items will be returned to the seller, but not the fee, which is `5% of the price + 1` funds",
  "  - auction sell order - will be executed once it expires if someone placed a bid on it",
  "- buy: Executes immediate sell order or places a bid on a auction sell order. Format: 'buy <sell_order_id> [<bid>]'",
  "  - no bid - executes immediate sell order",
  "  - bid - places a bid on a auction sell order",
  "  ",
  "Usage: <command> [<args>], where `[]` annotates optional argumet(s)"]

/-- `kHelpString`. -/
def helpString : Bytes := text (String.intercalate "\n" helpLines)

/-! ## Responses -/

/-- What comes of a request: a response, the exception of `Quit`, or undefined behaviour. -/
inductive Response where
  | reply (response : Bytes)
  | quit
  | undefined
  deriving DecidableEq

namespace AnyCommand

def executeViewItems (user : User) : StateM SharedState Response := do
  match ← onStorage (fun _ => Storage.viewUserItems user.id) [] with
  | .error e => return .reply (text "Failed to view items with error: " ++ e)
  | .ok items =>
    return .reply (text "Items: [" ++ List.intercalate (text ", ") (items.map UserItemInfo.format) ++ text "]")

def executeViewSellOrders : StateM SharedState Response := do
  match ← onStorage (fun _ => Storage.viewSellOrders) [] with
  | .error e => return .reply (text "Failed to view sell orders with error: " ++ e)
  | .ok none => return .undefined
  | .ok (some orders) =>
    return .reply (text "Sell orders:\n" ++ orders.flatMap fun order => text "- " ++ order.format ++ text "\n")

def execute (user : User) (unixNow : ℤ) : AnyCommand → StateM SharedState Response
  | .ping => return .reply (text "pong")
  | .whoami => return .reply user.username
  | .quit => return .quit
  | .help => return .reply helpString
  | .viewItems => executeViewItems user
  | .viewSellOrders => executeViewSellOrders
  | .change command => do return .reply (← command.execute user.id unixNow)

end AnyCommand

/-- `CommandsProcessor::process_request`. -/
def processRequest (user : User) (unixNow : ℤ) (request : Bytes) : StateM SharedState Response :=
  match parseRequest request with
  | .unknown commandName =>
    return .reply (text "Failed to execute unknown command '" ++ commandName ++ text "'. " ++ helpString)
  | .malformed commandName =>
    return .reply (text "Failed to parse arguments for command '" ++ commandName ++ text "'")
  | .command command => command.execute user unixNow

/-! ## Which requests change the state, and which end the session -/

/-- The parser of a request is the one under its first word. -/
theorem parseRequest_command {request : Bytes} {command : AnyCommand} (h : parseRequest request = .command command) :
    ∃ p ∈ commandParsers, p.1 = (parseCommandName request).1 ∧ p.2 (parseCommandName request).2 = some command := by
  unfold parseRequest at h
  simp only at h
  split at h
  · cases h
  · rename_i parse hlookup
    split at h
    · cases h
    · rename_i c hparse
      cases h
      obtain ⟨l₁, l₂, hl, -⟩ := List.lookup_eq_some_iff.1 hlookup
      refine ⟨((parseCommandName request).1, parse), ?_, rfl, hparse⟩
      rw [hl]
      exact List.mem_append_right _ List.mem_cons_self

/-- A command without arguments is parsed from its name, if no other name gives it. -/
theorem parseRequest_bare {request name : Bytes} {command : AnyCommand}
    (honly : ∀ p ∈ commandParsers, ∀ args, p.2 args = some command → p.1 = name)
    (hlookup : commandParsers.lookup name = some fun _ => some command) :
    parseRequest request = .command command ↔ (parseCommandName request).1 = name := by
  constructor
  · intro h
    obtain ⟨p, hp, hname, hparse⟩ := parseRequest_command h
    rw [← hname]
    exact honly p hp _ hparse
  · intro h
    unfold parseRequest
    simp only [h]
    rw [hlookup]

theorem parseRequest_quit {request : Bytes} :
    parseRequest request = .command .quit ↔ (parseCommandName request).1 = text "quit" :=
  parseRequest_bare (by simp [commandParsers]) rfl

theorem parseRequest_viewSellOrders {request : Bytes} :
    parseRequest request = .command .viewSellOrders ↔ (parseCommandName request).1 = text "view_sell_orders" :=
  parseRequest_bare (by simp [commandParsers]) rfl

/-- A program that only reads leaves the server as it was. -/
theorem onStorage_query {α : Type} (x : Exec α) (hx : ∀ c : Connection, c.saved = none → (Sql.after (x c)).db = c.db)
    (s : SharedState) : onStorage (fun _ => x) [] s = (Sql.outcome (x (Sql.Connection.idle s.db)), s) := by
  unfold onStorage
  simp only [hx (Sql.Connection.idle s.db) rfl]
  rfl

theorem state_bind {α β : Type} (x : StateM SharedState α) (f : α → StateM SharedState β) (s : SharedState) :
    (x >>= f) s = f (x s).1 (x s).2 := rfl

theorem executeViewItems_reply (user : User) (s : SharedState) :
    ∃ response, AnyCommand.executeViewItems user s = (.reply response, s) := by
  unfold AnyCommand.executeViewItems
  rw [state_bind, onStorage_query (Storage.viewUserItems user.id) fun _ hc => (query_after _ hc).1]
  simp only
  rcases Sql.outcome (Storage.viewUserItems user.id (Sql.Connection.idle s.db)) with e | items
  · exact ⟨_, rfl⟩
  · exact ⟨_, rfl⟩

/-- The orders are listed unless the expiration of one is no date of SQLite. -/
theorem executeViewSellOrders_reply (s : SharedState) :
    (∃ response, AnyCommand.executeViewSellOrders s = (.reply response, s)) ∨
      AnyCommand.executeViewSellOrders s = (.undefined, s) := by
  unfold AnyCommand.executeViewSellOrders
  rw [state_bind, onStorage_query Storage.viewSellOrders fun _ hc => (query_after _ hc).1]
  simp only
  rcases Sql.outcome (Storage.viewSellOrders (Sql.Connection.idle s.db)) with e | _ | orders
  · exact .inl ⟨_, rfl⟩
  · exact .inr rfl
  · exact .inl ⟨_, rfl⟩

theorem processRequest_command {user : User} {unixNow : ℤ} {request : Bytes} {command : AnyCommand}
    (h : parseRequest request = .command command) :
    processRequest user unixNow request = command.execute user unixNow := by
  unfold processRequest
  rw [h]

/-- A request without a command is answered. -/
theorem processRequest_other (user : User) (unixNow : ℤ) {request : Bytes}
    (h : ∀ command, parseRequest request ≠ .command command) (s : SharedState) :
    ∃ response, processRequest user unixNow request s = (.reply response, s) := by
  unfold processRequest
  rcases hp : parseRequest request with name | name | command
  · exact ⟨_, rfl⟩
  · exact ⟨_, rfl⟩
  · exact absurd hp (h command)

/-- The commands that change nothing only look. -/
theorem execute_state {user : User} {unixNow : ℤ} {command : AnyCommand} (h : ∀ c, command ≠ .change c)
    (s : SharedState) : (command.execute user unixNow s).2 = s := by
  cases command with
  | change c => exact absurd rfl (h c)
  | viewItems =>
    obtain ⟨_, hr⟩ := executeViewItems_reply user s
    exact congrArg Prod.snd hr
  | viewSellOrders =>
    rcases executeViewSellOrders_reply s with ⟨_, hr⟩ | hr
    · exact congrArg Prod.snd hr
    · exact congrArg Prod.snd hr
  | ping => rfl
  | whoami => rfl
  | quit => rfl
  | help => rfl

/-- A request does to the server what its command does, and nothing if it has none. -/
theorem processRequest_state (user : User) (unixNow : ℤ) (request : Bytes) (s : SharedState) :
    (∃ command, parseRequest request = .command (.change command) ∧
      s.next (.command user.id unixNow command) = some (processRequest user unixNow request s).2) ∨
    (∀ command, parseRequest request ≠ .command (.change command)) ∧
      (processRequest user unixNow request s).2 = s := by
  by_cases hp : ∃ command, parseRequest request = .command command
  · obtain ⟨command, hp⟩ := hp
    rw [processRequest_command hp]
    by_cases hc : ∃ c, command = .change c
    · obtain ⟨c, rfl⟩ := hc
      exact .inl ⟨c, hp, rfl⟩
    · refine .inr ⟨fun c h => hc ⟨c, ?_⟩, execute_state (not_exists.1 hc) s⟩
      rw [hp] at h
      cases h
      rfl
  · obtain ⟨_, h⟩ := processRequest_other user unixNow (not_exists.1 hp) s
    exact .inr ⟨fun command => not_exists.1 hp _, congrArg Prod.snd h⟩

/-- A request is answered unless it is `quit`, or a listing that is undefined. -/
theorem processRequest_reply (user : User) (unixNow : ℤ) (request : Bytes) (s : SharedState) :
    (∃ response, (processRequest user unixNow request s).1 = .reply response) ↔
      (parseCommandName request).1 ≠ text "quit" ∧ ((parseCommandName request).1 = text "view_sell_orders" →
        AnyCommand.executeViewSellOrders s ≠ (.undefined, s)) := by
  rw [ne_eq, ← parseRequest_quit, ← parseRequest_viewSellOrders]
  by_cases hc : ∃ command, parseRequest request = .command command
  · obtain ⟨command, hp⟩ := hc
    rw [processRequest_command hp, hp]
    cases command with
    | quit =>
      refine iff_of_false ?_ fun h => h.1 rfl
      rintro ⟨_, h⟩
      cases h
    | viewSellOrders =>
      rcases executeViewSellOrders_reply s with ⟨response, h⟩ | h
      · refine iff_of_true ⟨response, congrArg Prod.fst h⟩ ⟨by simp, fun _ h' => ?_⟩
        rw [h] at h'
        cases h'
      · refine iff_of_false ?_ fun h' => h'.2 rfl h
        rintro ⟨response, hr⟩
        rw [show (AnyCommand.execute user unixNow .viewSellOrders s).1 = .undefined from congrArg Prod.fst h] at hr
        cases hr
    | viewItems =>
      obtain ⟨response, h⟩ := executeViewItems_reply user s
      exact iff_of_true ⟨response, congrArg Prod.fst h⟩ ⟨by simp, by simp⟩
    | ping => exact iff_of_true ⟨_, rfl⟩ ⟨by simp, by simp⟩
    | whoami => exact iff_of_true ⟨_, rfl⟩ ⟨by simp, by simp⟩
    | help => exact iff_of_true ⟨_, rfl⟩ ⟨by simp, by simp⟩
    | change command => exact iff_of_true ⟨_, rfl⟩ ⟨by simp, by simp⟩
  · obtain ⟨response, h⟩ := processRequest_other user unixNow (not_exists.1 hc) s
    exact iff_of_true ⟨response, congrArg Prod.fst h⟩ ⟨not_exists.1 hc _, fun h' => absurd ⟨_, h'⟩ hc⟩

end AuctionHouse
