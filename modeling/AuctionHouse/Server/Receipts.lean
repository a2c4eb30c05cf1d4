/-
What users are told of their commands, and what is on record of them. Every command that is answered as
a success is in the log with what it says, in the order of the answers, and the log has nothing else but
what ticks settled.
-/
import AuctionHouse.Store.Numbers
import AuctionHouse.Store.Solvency

namespace AuctionHouse

open Storage AuctionService

/-! ## Answers -/

namespace Command

/-- The response to a command that succeeds. -/
def success : Command → Bytes
  | .deposit itemName quantity => text "Successfully deposited " ++ amount quantity itemName
  | .withdraw itemName quantity => text "Successfully withdrawn " ++ amount quantity itemName
  | .sell orderType itemName quantity _ =>
    text "Successfully placed " ++ orderType.toBytes ++ text " sell order for " ++ amount quantity itemName
  | .buy sellOrderId (some _) =>
    text "Successfully placed a bid on #" ++ decimal sellOrderId ++ text " auction sell order"
  | .buy sellOrderId none => text "Successfully executed #" ++ decimal sellOrderId ++ text " sell order"

/-- The response to a command that fails. -/
def failure (e : Error) : Command → Bytes
  | .deposit itemName quantity => text "Failed to deposit " ++ amount quantity itemName ++ text " with error: " ++ e
  | .withdraw itemName quantity => text "Failed to withdraw " ++ amount quantity itemName ++ text " with error: " ++ e
  | .sell orderType itemName quantity _ =>
    text "Failed to place " ++ orderType.toBytes ++ text " sell order for " ++ amount quantity itemName ++
      text " with error: " ++ e
  | .buy sellOrderId (some _) =>
    text "Failed to place a bid on #" ++ decimal sellOrderId ++ text " auction sell order with error: " ++ e
  | .buy sellOrderId none => text "Failed to execute #" ++ decimal sellOrderId ++ text " sell order with error: " ++ e

/-- A command is answered by the reply of its operation. -/
theorem execute_response (userId : UserId) (unixNow : ℤ) (command : Command) (s : SharedState) :
    (command.execute userId unixNow s).1 =
      match Call.reply s.storage ⟨(Event.command userId unixNow command).operation, []⟩ s.db with
      | .ok _ => command.success
      | .error e => command.failure e := by
  rcases command with ⟨itemName, quantity⟩ | ⟨itemName, quantity⟩ | ⟨orderType, itemName, quantity, price⟩ |
    ⟨sellOrderId, _ | bid⟩
  all_goals simp only [execute, executeDeposit, executeWithdraw, executeSell, executeBuy, state_bind,
    SharedState.onStorage, Event.operation, Call.reply_calm, Operation.exec, Sql.outcome_map]
  · rcases AuctionService.deposit userId itemName quantity (Sql.Connection.idle s.db) with ⟨info, c⟩ | ⟨e, c⟩ <;> rfl
  · rcases AuctionService.withdraw s.storage userId itemName quantity (Sql.Connection.idle s.db)
      with ⟨info, c⟩ | ⟨e, c⟩ <;> rfl
  · rcases AuctionService.placeSellOrder s.storage orderType userId itemName quantity price
      (unixNow + orderLifetime) (Sql.Connection.idle s.db) with ⟨info, c⟩ | ⟨e, c⟩ <;> rfl
  · rcases AuctionService.executeImmediateSellOrder s.storage userId sellOrderId (Sql.Connection.idle s.db)
      with ⟨info, c⟩ | ⟨e, c⟩ <;> rfl
  · rcases AuctionService.placeBidOnAuctionSellOrder s.storage userId sellOrderId bid (Sql.Connection.idle s.db)
      with ⟨⟨⟩, c⟩ | ⟨e, c⟩ <;> rfl

end Command

/-- How the response to a success starts. -/
def successfully : Bytes := text "Successfully "

theorem Command.successfully_success (command : Command) : successfully <+: command.success := by
  rcases command with ⟨itemName, quantity⟩ | ⟨itemName, quantity⟩ | ⟨orderType, itemName, quantity, price⟩ |
    ⟨sellOrderId, _ | bid⟩
  all_goals
    unfold success
    simp only [List.append_assoc]
    refine List.IsPrefix.trans ?_ (List.prefix_append _ _)
    decide +kernel

/-- A text whose second letter is no u. -/
theorem not_successfully {response : Bytes} (h : response.tail.head? ≠ some 117) : ¬ successfully <+: response := by
  rintro ⟨rest, rfl⟩
  exact h rfl

theorem Command.not_successfully_failure (e : Error) (command : Command) : ¬ successfully <+: command.failure e := by
  refine not_successfully ?_
  rcases command with ⟨itemName, quantity⟩ | ⟨itemName, quantity⟩ | ⟨orderType, itemName, quantity, price⟩ |
    ⟨sellOrderId, _ | bid⟩
  all_goals
    unfold failure
    simp only [List.append_assoc]
    exact fun h => absurd (Option.some.inj h) (by decide)

/-! ## What is on record of a command -/

/-- What is entered into the log of a user's command that succeeds. -/
inductive Command.Records (st : Storage) (t : Tables) (userId : UserId) : Command → List LogEntry → Prop
  | deposit {r : ItemRow} {itemId quantity : Int32} (hr : r ∈ t.items) (hid : itemId.toInt = r.id) :
    Records st t userId (.deposit (some r.name) quantity) [⟨userId, .item (text "deposited") itemId quantity⟩]
  | withdraw {r : ItemRow} {itemId quantity : Int32} (hr : r ∈ t.items) (hid : itemId.toInt = r.id) :
    Records st t userId (.withdraw (some r.name) quantity) [⟨userId, .item (text "withdrawn") itemId quantity⟩]
  | sell {orderType : SellOrderType} {itemName : StringView} {quantity price : Int32} :
    Records st t userId (.sell orderType itemName quantity price)
      [⟨userId, .item (text "payed fee") st.fundsItemId (sellOrderFee price)⟩]
  | bid {sellOrderId bid : Int32} : Records st t userId (.buy sellOrderId (some bid)) []
  | purchase {info : SellOrderExecutionInfo} (hbuyer : info.buyerId = userId) :
    Records st t userId (.buy info.id none) info.entries

/-- Items keep their names. -/
theorem Command.Records.mono {st : Storage} {t t' : Tables} {userId : UserId} {command : Command}
    {entries : List LogEntry} (h : command.Records st t userId entries) (ht : ∀ r ∈ t.items, r ∈ t'.items) :
    command.Records st t' userId entries := by
  cases h with
  | deposit hr hid => exact .deposit (ht _ hr) hid
  | withdraw hr hid => exact .withdraw (ht _ hr) hid
  | sell => exact .sell
  | bid => exact .bid
  | purchase hbuyer => exact .purchase hbuyer

/-- No event takes an item off the list. -/
theorem items_next {st : Storage} {db : Database} (hi : Invariant st db.toTables) (operation : Operation) :
    ∀ r ∈ db.items, r ∈ (Call.next st ⟨operation, []⟩ db).items := by
  by_cases hop : ∀ username, operation ≠ .login username
  · rw [Call.next_calm]
    exact (items_statementWise st).exec (c := Sql.Connection.idle db) rfl hop
  · push Not at hop
    obtain ⟨username, rfl⟩ := hop
    rw [login_items hi]
    exact fun _ => id

/-- A deposit is of the item with its name, old or new. -/
theorem deposit_named {userId : UserId} {itemName : StringView} {quantity : Int32} {c c' : Connection}
    {info : ItemOperationInfo} (h : AuctionService.deposit userId itemName quantity c = .ok info c') :
    ∃ r ∈ c'.db.items, itemName = some r.name ∧ info.itemId.toInt = r.id := by
  rw [deposit_eq, Sql.ite_apply] at h
  split at h
  · cases h
  obtain ⟨itemId, c₁, h1, h⟩ := Sql.bind_ok_iff.1 h
  obtain ⟨⟨⟩, c₂, h2, h⟩ := Sql.bind_ok_iff.1 h
  cases h
  have hitem : ∃ r ∈ c₁.db.items, itemName = some r.name ∧ itemId.toInt = r.id := by
    unfold Sql.orElse at h1
    split at h1
    · rename_i hfound
      cases h1
      obtain ⟨hdb, r, hr, hn, hid⟩ := getItemId_ok hfound
      rw [hdb]
      exact ⟨r, hr, hn.symm, hid⟩
    · obtain ⟨-, r, hid, hfits, ht⟩ := createItem_ok h1
      obtain ⟨hf, -⟩ := executeWith_ok h1
      rcases itemName with _ | name
      · cases hf
      · -- the row that was inserted has the name
        simp only [Except.ok.injEq, Prod.mk.injEq] at hf
        obtain ⟨-, hinserted⟩ := hf
        have hitems := congrArg Tables.items (hinserted.trans ht)
        obtain rfl := List.singleton_inj.1 (List.append_cancel_left hitems)
        exact ⟨_, by rw [ht]; exact List.mem_append_right _ (List.mem_singleton_self _), rfl, hfits⟩
  obtain ⟨-, ht, -⟩ := addUserItem_ok h2
  obtain ⟨r, hr, hn, hid⟩ := hitem
  refine ⟨r, ?_, hn, hid⟩
  have hitems := congrArg Tables.items ht
  exact hitems ▸ hr

/-- A deposit that replies is entered with its item. -/
theorem records_deposit {st : Storage} {db : Database} {userId : UserId} {itemName : StringView} {quantity : Int32}
    {reply : Reply} (hr : Call.reply st ⟨.deposit userId itemName quantity, []⟩ db = .ok reply) {d : Deal ℤ ℤ}
    (he : Explains st db.toTables (.deposit userId itemName quantity) (.ok reply) d) :
    (Command.deposit itemName quantity).Records st (Call.next st ⟨.deposit userId itemName quantity, []⟩ db).toTables
      userId ((Operation.deposit userId itemName quantity).entries reply) := by
  cases he with
  | deposit =>
    rename_i itemId
    rw [Call.reply_calm] at hr
    rw [Call.next_calm]
    simp only [Operation.exec, Sql.outcome_map, Sql.after_map] at hr ⊢
    rcases hx : AuctionService.deposit userId itemName quantity (Sql.Connection.idle db) with ⟨info, c⟩ | ⟨e, c⟩
    · rw [hx] at hr
      cases hr
      obtain ⟨r, hm, rfl, hid⟩ := deposit_named hx
      exact .deposit hm hid
    · rw [hx] at hr
      cases hr

namespace SharedState

variable {s s' : SharedState}

/-- A command is answered as a success and entered into the log, or answered as a failure and not entered. -/
theorem next_told (hi : Invariant s.storage s.db.toTables) {userId : UserId} {unixNow : ℤ} {command : Command}
    (h : s.next (.command userId unixNow command) = some s') :
    (∃ entries, (command.execute userId unixNow s).1 = command.success ∧
      s'.transactionLog = s.transactionLog ++ entries ∧ command.Records s.storage s'.db.toTables userId entries) ∨
    ∃ e, (command.execute userId unixNow s).1 = command.failure e ∧ s'.transactionLog = s.transactionLog := by
  obtain ⟨d, hb⟩ := booked_of_next hi h
  have he := hb.explains
  rw [command.execute_response userId unixNow s]
  obtain ⟨reply, hr, rfl⟩ | ⟨error, hr, -, rfl⟩ := next_cases h
  · rw [hr] at he
    refine .inl ⟨_, by rw [hr], rfl, ?_⟩
    have hkept : ∀ r ∈ s.db.items, r ∈ (Call.next s.storage ⟨_, []⟩ s.db).items :=
      items_next hi (Event.command userId unixNow command).operation
    rcases command with ⟨itemName, quantity⟩ | ⟨itemName, quantity⟩ | ⟨orderType, itemName, quantity, price⟩ |
      ⟨sellOrderId, _ | bid⟩
    · exact records_deposit hr he
    · cases he with
      | withdraw hitem =>
        obtain ⟨r, hm, rfl, hid⟩ := hitem
        exact .withdraw (hkept r hm) hid
    · cases he with
      | place => exact .sell
    · cases he with
      | @purchase _ _ o =>
        have hbuyer : ({ executionInfo o with id := sellOrderId, buyerId := userId } : SellOrderExecutionInfo).buyerId =
          userId := rfl
        exact .purchase hbuyer
    · cases he with
      | bid => exact .bid
  · exact .inr ⟨error, by rw [hr], rfl⟩

/-- A tick enters the expired orders with a bid. -/
theorem next_settled (hi : Invariant s.storage s.db.toTables) {unixNow : ℤ} (h : s.next (.tick unixNow) = some s') :
    s'.transactionLog =
      s.transactionLog ++ (executedAuctionOrders unixNow s.db.toTables).flatMap SellOrderExecutionInfo.entries := by
  obtain ⟨d, hb⟩ := booked_of_next hi h
  have he := hb.explains
  obtain ⟨reply, hr, rfl⟩ | ⟨error, -, hne, -⟩ := next_cases h
  · rw [hr] at he
    cases he with
    | settle => rfl
  · exact absurd rfl (hne unixNow)

/-- A login is not entered. -/
theorem next_login {username : StringView} (h : s.next (.login username) = some s') :
    s'.transactionLog = s.transactionLog := by
  obtain ⟨reply, -, rfl⟩ | ⟨_, -, -, rfl⟩ := next_cases h
  · exact List.append_nil _
  · rfl

end SharedState

/-! ## Receipts -/

/-- What is seen to happen: a user is told of the success of a request, or an order expires with a bid. -/
inductive Outcome where
  | told (userId : UserId) (request response : Bytes)
  | settled (info : SellOrderExecutionInfo)
deriving DecidableEq

/-- A request that was answered as a success, with its command and its entries, or an order that a tick settled. -/
inductive Receipt where
  | succeeded (userId : UserId) (request : Bytes) (command : Command) (entries : List LogEntry)
  | settled (info : SellOrderExecutionInfo)

namespace Receipt

def entries : Receipt → List LogEntry
  | succeeded _ _ _ entries => entries
  | settled info => info.entries

def outcome : Receipt → Outcome
  | succeeded userId request command _ => .told userId request command.success
  | settled info => .settled info

/-- The entries are those of the command that the request was read as. -/
def Right (st : Storage) (t : Tables) : Receipt → Prop
  | succeeded userId request command entries =>
    parseRequest request = .command (.change command) ∧ command.Records st t userId entries
  | settled _ => True

theorem Right.mono {st : Storage} {t t' : Tables} {r : Receipt} (h : r.Right st t) (ht : ∀ r ∈ t.items, r ∈ t'.items) :
    r.Right st t' := by
  cases r with
  | succeeded => exact ⟨h.1, h.2.mono ht⟩
  | settled => trivial

end Receipt

namespace Server

variable {s s' : Server} {e : ServerEvent}

theorem step_items (hi : Invariant s.state.storage s.state.db.toTables) (h : s.step e = some s') :
    ∀ r ∈ s.state.db.items, r ∈ s'.state.db.items := by
  have hnext : ∀ {event : Event}, s.state.next event = some s'.state → ∀ r ∈ s.state.db.items, r ∈ s'.state.db.items := by
    intro event hn
    rw [SharedState.next_db hn]
    exact items_next hi event.operation
  cases step_moves h with
  | login hn => exact hnext hn
  | request _ hn => exact hnext hn
  | tick hn => exact hnext hn
  | notify _ hb => rw [hb.db]; exact fun _ => id
  | quiet _ _ hb => rw [hb.db]; exact fun _ => id

/-- Only requests and ticks enter something into the log. -/
theorem step_unlogged (h : s.step e = some s') (hrequest : ∀ socket unixNow command, e ≠ .request socket unixNow command)
    (htick : ∀ unixNow, e ≠ .tick unixNow) : s'.state.transactionLog = s.state.transactionLog := by
  cases step_moves h with
  | login hn => exact SharedState.next_login hn
  | request => exact absurd rfl (hrequest _ _ _)
  | tick => exact absurd rfl (htick _)
  | notify _ hb => exact hb.log
  | quiet _ _ hb => exact hb.log

end Server

namespace Output

/-- What is seen of an event: the user, the request and the answer when it succeeds, or the expired orders
with a bid. The answer to `whoami` is a name, which may be any text. -/
def outcomes (s : Output) : OutputEvent → List Outcome
  | .request socket unixNow request =>
    match s.connections socket, parseRequest request with
    | some (.commands _), .command .whoami => []
    | some (.commands user), _ =>
      match (processRequest user unixNow request s.state).1 with
      | .reply response => if successfully.isPrefixOf response then [.told user.id request response] else []
      | _ => []
    | _, _ => []
  | .tick unixNow => (executedAuctionOrders unixNow s.state.db.toTables).map .settled
  | _ => []

variable {s s' : Output} {e : OutputEvent}

theorem helpString_eq : ∃ rest, helpString = text "Available commands:" ++ rest := by
  unfold helpString helpLines
  rw [String.intercalate_cons_of_ne_nil (List.cons_ne_nil _ _)]
  unfold text
  rw [String.toList_append, String.toList_append, List.append_assoc, List.map_append]
  exact ⟨_, rfl⟩

/-- Other responses do not start like those of a success. -/
theorem other_response {user : User} {unixNow : ℤ} {request response : Bytes} {state : SharedState}
    (hchange : ∀ command, parseRequest request ≠ .command (.change command))
    (hwhoami : parseRequest request ≠ .command .whoami)
    (hr : (processRequest user unixNow request state).1 = .reply response) : ¬ successfully <+: response := by
  refine not_successfully ?_
  unfold processRequest at hr
  rcases hp : parseRequest request with name | name | command
  · rw [hp] at hr
    cases hr
    simp only [List.append_assoc]
    exact fun h => absurd (Option.some.inj h) (by decide)
  · rw [hp] at hr
    cases hr
    simp only [List.append_assoc]
    exact fun h => absurd (Option.some.inj h) (by decide)
  · rw [hp] at hr
    cases command with
    | change c => exact absurd hp (hchange c)
    | whoami => exact absurd hp hwhoami
    | ping => cases hr; exact fun h => absurd (Option.some.inj h) (by decide)
    | help =>
      obtain ⟨rest, hhelp⟩ := helpString_eq
      rw [← Response.reply.inj hr, hhelp]
      exact fun h => absurd (Option.some.inj h) (by decide)
    | quit => cases hr
    | viewItems =>
      replace hr : (AnyCommand.executeViewItems user state).1 = .reply response := hr
      unfold AnyCommand.executeViewItems at hr
      rw [state_bind, onStorage_query (Storage.viewUserItems user.id) fun _ hc => (query_after _ hc).1] at hr
      simp only at hr
      generalize Sql.outcome (Storage.viewUserItems user.id (Sql.Connection.idle state.db)) = outcome at hr
      rcases outcome with e | items
      · cases hr
        exact fun h => absurd (Option.some.inj h) (by decide)
      · cases hr
        simp only [List.append_assoc]
        exact fun h => absurd (Option.some.inj h) (by decide)
    | viewSellOrders =>
      replace hr : (AnyCommand.executeViewSellOrders state).1 = .reply response := hr
      unfold AnyCommand.executeViewSellOrders at hr
      rw [state_bind, onStorage_query Storage.viewSellOrders fun _ hc => (query_after _ hc).1] at hr
      simp only at hr
      generalize Sql.outcome (Storage.viewSellOrders (Sql.Connection.idle state.db)) = outcome at hr
      rcases outcome with e | _ | orders
      · cases hr
        exact fun h => absurd (Option.some.inj h) (by decide)
      · cases hr
      · cases hr
        exact fun h => absurd (Option.some.inj h) (by decide)

theorem outcomes_request {socket : Socket} {unixNow : ℤ} {request : Bytes} {user : User}
    (hu : s.connections socket = some (.commands user)) (hw : parseRequest request ≠ .command .whoami) :
    s.outcomes (.request socket unixNow request) =
      match (processRequest user unixNow request s.state).1 with
      | .reply response => if successfully.isPrefixOf response then [.told user.id request response] else []
      | _ => [] := by
  unfold outcomes
  simp only [hu]

theorem step_items (hi : Invariant s.state.storage s.state.db.toTables) (h : s.step e = some s') :
    ∀ r ∈ s.state.db.items, r ∈ s'.state.db.items := by
  rcases step_causes h with ⟨hsame, -⟩ | ⟨e', -, hs⟩
  · rw [hsame]
    exact fun _ => id
  · exact Server.step_items hi hs

/-- More is on record, and it was seen to happen. -/
def Enters (s s' : Output) (outcomes : List Outcome) : Prop :=
  ∃ receipts : List Receipt, s'.state.transactionLog = s.state.transactionLog ++ receipts.flatMap Receipt.entries ∧
    outcomes = receipts.map Receipt.outcome ∧ ∀ r ∈ receipts, r.Right s.state.storage s'.state.db.toTables

theorem Enters.nothing {outcomes : List Outcome} (hlog : s'.state.transactionLog = s.state.transactionLog)
    (hout : outcomes = []) : s.Enters s' outcomes :=
  ⟨[], by rw [hlog]; exact (List.append_nil _).symm, hout, fun _ h => by cases h⟩

theorem request_enters (hi : Invariant s.state.storage s.state.db.toTables) {socket : Socket} {unixNow : ℤ}
    {request : Bytes} (h : s.step (.request socket unixNow request) = some s') :
    s.Enters s' (s.outcomes (.request socket unixNow request)) := by
  obtain ⟨user, state, hu, -, hs⟩ := step_request h
  have hstate : s'.state.db = state.db ∧ s'.state.transactionLog = state.transactionLog := by
    rcases hs with ⟨response, -, rfl⟩ | ⟨-, hs⟩
    · exact ⟨rfl, rfl⟩
    · obtain ⟨server, hserver, rfl⟩ := onServer_some.1 hs
      cases Server.step_moves hserver with
      | quiet _ _ hb => exact ⟨hb.db, hb.log⟩
  have hresult : (processRequest user unixNow request s.state).2 = state := by
    rcases hs with ⟨response, hr, -⟩ | ⟨hr, -⟩
    · rw [hr]
    · rw [hr]
  rcases processRequest_state user unixNow request s.state with ⟨command, hp, hnext⟩ | ⟨hchange, hsame⟩
  · have hanswer : s.outcomes (.request socket unixNow request) =
        if successfully.isPrefixOf (command.execute user.id unixNow s.state).1
          then [.told user.id request (command.execute user.id unixNow s.state).1] else [] := by
      rw [outcomes_request hu (by rw [hp]; rintro ⟨⟩), processRequest_command hp]
      rfl
    rw [hresult] at hnext
    obtain ⟨entries, hr, hlog, hrecords⟩ | ⟨e, hr, hlog⟩ := SharedState.next_told hi hnext
    · rw [hr, if_pos (List.isPrefixOf_iff_prefix.2 command.successfully_success)] at hanswer
      refine ⟨[.succeeded user.id request command entries], ?_, hanswer, fun r hm => ?_⟩
      · rw [hstate.2, hlog]
        exact congrArg _ (List.append_nil _).symm
      · rw [List.mem_singleton.1 hm, hstate.1]
        exact ⟨hp, hrecords⟩
    · rw [hr, if_neg fun h => command.not_successfully_failure e (List.isPrefixOf_iff_prefix.1 h)] at hanswer
      exact .nothing (hstate.2.trans hlog) hanswer
  · refine .nothing (by rw [hstate.2, ← hresult, hsame]) ?_
    by_cases hw : parseRequest request = .command .whoami
    · simp only [outcomes, hu, hw]
    · rw [outcomes_request hu hw]
      split
      · rename_i response hr
        exact if_neg fun h => other_response hchange hw hr (List.isPrefixOf_iff_prefix.1 h)
      · rfl

/-- A step enters into the log what is seen of it. -/
theorem step_enters (hi : Invariant s.state.storage s.state.db.toTables) (h : s.step e = some s') :
    s.Enters s' (s.outcomes e) := by
  cases e with
  | request socket unixNow request => exact request_enters hi h
  | tick unixNow =>
    obtain ⟨server, hserver, rfl⟩ := onServer_some.1 h
    obtain ⟨state, hnext, rfl⟩ := Option.map_eq_some_iff.1 hserver
    refine ⟨(executedAuctionOrders unixNow s.state.db.toTables).map .settled, ?_, ?_, fun r hr => ?_⟩
    · rw [List.flatMap_map]
      exact SharedState.next_settled hi hnext
    · rw [List.map_map]
      rfl
    · obtain ⟨info, -, rfl⟩ := List.mem_map.1 hr
      trivial
  | _ =>
    refine .nothing ?_ rfl
    rcases step_causes h with ⟨hsame, -⟩ | ⟨e', hcauses, hs⟩
    · rw [hsame]
    · exact Server.step_unlogged hs (by rintro _ _ _ rfl; cases hcauses) (by rintro _ rfl; cases hcauses)

/-- Everything in the log is there for a receipt, and the receipts are what was seen to happen, in order. -/
def OnRecord (s : Output) (outcomes : List Outcome) : Prop :=
  ∃ receipts : List Receipt, s.state.transactionLog = receipts.flatMap Receipt.entries ∧
    outcomes = receipts.map Receipt.outcome ∧ ∀ r ∈ receipts, r.Right Storage.initial s.state.db.toTables

theorem OnRecord.step {earlier : List Outcome} (hr : s.OnRecord earlier) (hst : s.state.storage = Storage.initial)
    (hi : Invariant Storage.initial s.state.db.toTables) (h : s.step e = some s') :
    s'.OnRecord (earlier ++ s.outcomes e) := by
  obtain ⟨receipts, hlog, hout, hright⟩ := hr
  obtain ⟨more, hlog', hout', hright'⟩ := step_enters (hst ▸ hi) h
  refine ⟨receipts ++ more, ?_, ?_, fun r hm => ?_⟩
  · rw [hlog', hlog, List.flatMap_append]
  · rw [hout', hout, List.map_append]
  · rcases List.mem_append.1 hm with hm | hm
    · exact (hright r hm).mono (step_items (hst ▸ hi) h)
    · exact hst ▸ hright' r hm

/-- Whatever comes in, the log is what was entered for the requests that users were told succeeded, each
with the item of its name, the fee of its price or its trade, and for the orders that expired with a bid,
in the order in which this happened. -/
theorem outcomes_on_record (events : List OutputEvent) {s : Output}
    (h : Machine.run step (started Storage.initial Database.initial) events = some s) :
    s.OnRecord (Machine.outputs outcomes step (started Storage.initial Database.initial) events) := by
  refine Machine.run_outputs (P := OnRecord) ⟨[], rfl, rfl, fun _ h => by cases h⟩ ?_ h
  intro events s earlier e s' hs hr h
  exact hr.step (run_invariant hs).1 (run_invariant hs).2 h

/-- What is seen of the sale of a sword and of its resale. -/
def resaleOutcomes : List Outcome :=
  [.told 1 (text "deposit funds 10") (text "Successfully deposited 10 funds(s)"),
    .told 1 (text "deposit sword") (text "Successfully deposited 1 sword(s)"),
    .told 1 (text "sell auction sword 20") (text "Successfully placed auction sell order for 1 sword(s)"),
    .told 2 (text "deposit funds 30") (text "Successfully deposited 30 funds(s)"),
    .told 2 (text "buy 1 25") (text "Successfully placed a bid on #1 auction sell order"),
    .settled ⟨1, 1, 2, 2, 1, 25⟩,
    .told 2 (text "sell auction sword 10") (text "Successfully placed auction sell order for 1 sword(s)"),
    .told 1 (text "buy 2 12") (text "Successfully placed a bid on #2 auction sell order")]

theorem outcomes_on_record_resale :
    ∃ s, Machine.run step (started Storage.initial Database.initial) resaleRun = some s ∧ s.OnRecord resaleOutcomes := by
  have hrun : (Machine.run step (started Storage.initial Database.initial) resaleRun).isSome = true := by decide +kernel
  have hout : Machine.outputs outcomes step (started Storage.initial Database.initial) resaleRun = resaleOutcomes := by
    decide +kernel
  obtain ⟨s, hs⟩ := Option.isSome_iff_exists.1 hrun
  exact ⟨s, hs, hout ▸ outcomes_on_record resaleRun hs⟩

end Output

end AuctionHouse
