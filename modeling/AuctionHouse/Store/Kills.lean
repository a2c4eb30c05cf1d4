/-
The server killed and started again. The tables lose nothing that was committed and no operation is
half done, but an operation is entered into the log after its commit, so a kill can leave a gap in the
log: what users hold is what the log says, with what the killed operations had to enter and did not.
-/
import AuctionHouse.Server.Layers
import AuctionHouse.Store.Expiry

namespace AuctionHouse

open Storage

/-! ## Processes of the server -/

/-- What happens to the server. -/
inductive Shift where
  | event (e : Event)
  /-- The process is killed at a command, a login or a tick, when some of its statements are executed
  and the others refused, and `written` of its entries are in the log; then the server is started again. -/
  | killed (operation : Operation) (faults : List (Option (Sql.Fault Error))) (written : ℕ)

namespace Shift

def operation : Shift → Operation
  | .event e => e.operation
  | .killed operation _ _ => operation

def faults : Shift → List (Option (Sql.Fault Error))
  | .event _ => []
  | .killed _ faults _ => faults

/-- How often the server was killed. -/
def kills (shifts : List Shift) : ℕ := shifts.countP fun
  | .killed .. => true
  | .event _ => false

end Shift

namespace Operation

/-- The trades of the auctions that a settlement took out of the book and did not report. -/
def unreported (db db' : Database) : Operation → List LogEntry
  | .processExpiredSellOrders unixNow =>
    (((executedAuctions unixNow db.toTables).filter fun o => o ∉ db'.sellOrders).map executionInfo).flatMap
      SellOrderExecutionInfo.entries
  | _ => []

theorem unreported_of_not_settles {db db' : Database} {operation : Operation}
    (h : ∀ unixNow, operation ≠ .processExpiredSellOrders unixNow) : operation.unreported db db' = [] := by
  cases operation with
  | processExpiredSellOrders unixNow => exact absurd rfl (h unixNow)
  | _ => rfl

/-- A book that stays as it is has no auction taken out of it. -/
theorem unreported_of_same {db db' : Database} (h : db'.sellOrders = db.sellOrders) (operation : Operation) :
    operation.unreported db db' = [] := by
  cases operation with
  | processExpiredSellOrders unixNow =>
    simp only [unreported, h]
    rw [List.filter_eq_nil_iff.2 fun o ho => by simpa using (mem_executedAuctions.1 ho).1]
    rfl
  | _ => rfl

theorem unreported_of_gone {db db' : Database} {unixNow : ℤ}
    (h : ∀ o ∈ executedAuctions unixNow db.toTables, o ∉ db'.sellOrders) :
    (processExpiredSellOrders unixNow).unreported db db' =
      (processExpiredSellOrders unixNow).entries (.settled (executedAuctionOrders unixNow db.toTables)) := by
  simp only [unreported]
  rw [List.filter_eq_self.2 fun o ho => by simpa using h o ho]
  rfl

/-- The entries of what an operation did on a database, all of them. -/
def due (db : Database) (operation : Operation) : EStateM.Result Error Connection Reply → List LogEntry
  | .ok reply _ => operation.entries reply
  | .error _ c => operation.unreported db c.db

/-- The first of the entries of an operation that replied. -/
def firstEntries (written : ℕ) (operation : Operation) : EStateM.Result Error Connection Reply → List LogEntry
  | .ok reply _ => (operation.entries reply).take written
  | .error _ _ => []

theorem firstEntries_sublist (db : Database) (written : ℕ) (operation : Operation)
    (r : EStateM.Result Error Connection Reply) : (operation.firstEntries written r).Sublist (operation.due db r) := by
  rcases r with ⟨reply, c⟩ | ⟨e, c⟩
  · exact List.take_sublist written _
  · exact List.nil_sublist _

end Operation

namespace SharedState

variable (s : SharedState)

/-- What the services do in a shift. -/
def perform (x : Shift) : EStateM.Result Error Connection Reply :=
  x.operation.exec s.storage (Sql.Connection.idle s.db x.faults)

/-- The entries that a shift has to make, also if the server is killed before it makes them. -/
def due (x : Shift) : List LogEntry := x.operation.due s.db (s.perform x)

/-- Those of them that are in the log when the shift is over. -/
def entered : Shift → List LogEntry
  | .event e => s.due (.event e)
  | .killed operation faults written => operation.firstEntries written (s.perform (.killed operation faults written))

/-- What `main` makes of the database and the log that are there; the rest is lost. -/
def startAgain : Option SharedState :=
  match Storage.open (Sql.Connection.idle s.db) with
  | .ok storage c => some { storage, db := c.db, transactionLog := s.transactionLog }
  | .error _ _ => none

/-- None when the server does not start, or an event leads to undefined behaviour. -/
def shift : Shift → Option SharedState
  | .event e => s.next e
  | .killed operation faults written => startAgain { s with
      db := (Sql.after (s.perform (.killed operation faults written))).db
      transactionLog := s.transactionLog ++ s.entered (.killed operation faults written) }

/-- A shift is one deal or none, which is allowed and which the reply of its operation explains. -/
def OneDeal (x : Shift) : Prop := ∃ s' d, s.shift x = some s' ∧
  Explains s.storage s.db.toTables x.operation (Sql.outcome (s.perform x)) d ∧
  Dealt s.storage s.db.toTables s'.db.toTables d

/-! ## What is entered -/

theorem entered_sublist (x : Shift) : (s.entered x).Sublist (s.due x) := by
  cases x with
  | event e => exact List.Sublist.refl _
  | killed operation faults written => exact operation.firstEntries_sublist s.db written _

/-- Without kills nothing is missing. -/
theorem entered_eq {shifts : List Shift} (h : Shift.kills shifts = 0) (x : Shift) (hx : x ∈ shifts) :
    s.entered x = s.due x := by
  have hx := List.countP_eq_zero.1 h x hx
  cases x with
  | event e => rfl
  | killed => exact absurd rfl hx

end SharedState

/-! ## What a deal records -/

section
variable {st : Storage} {db : Database} {d : Deal ℤ ℤ} (hi : Invariant st db.toTables)
include hi

/-- A deal is recorded by what its operation has to log. -/
theorem Explains.recorded {operation : Operation} {r : EStateM.Result Error Connection Reply}
    (he : Explains st db.toTables operation (Sql.outcome r) d) (hd : Dealt st db.toTables (Sql.after r).db.toTables d)
    {i : Int32} {amount : LogMessage → ℤ} (hm : Measures st.fundsItemId i amount) (u : UserId) :
    TransactionLog.replay amount u (operation.due db r) =
      db.market.recorded st.fundsItemId.toInt d u.toInt i.toInt := by
  rcases r with ⟨reply, c⟩ | ⟨e, c⟩
  · exact he.replay_eq hm u db.valid hi
  have hbook : c.db.sellOrders.map SellOrderRow.order = db.market.bookAfter d := congrArg Market.book hd.market
  show TransactionLog.replay amount u (operation.unreported db c.db) = _
  replace he : Explains st db.toTables operation (.error e) d := he
  cases he with
  | failed =>
    have hsame : c.db.sellOrders = db.sellOrders :=
      List.map_injective_iff.2 (fun _ _ => SellOrderRow.order_injective) hbook
    rw [Operation.unreported_of_same hsame]
    rfl
  | @unreported unixNow =>
    have hsettle : Explains st db.toTables (.processExpiredSellOrders unixNow)
      (.ok (.settled (executedAuctionOrders unixNow db.toTables))) (.settle unixNow) := .settle
    rw [Operation.unreported_of_gone]
    · exact hsettle.replay_eq hm u db.valid hi
    · -- what is left in the book has not expired
      intro o ho hmem
      have hleft := hbook ▸ List.mem_map_of_mem (f := SellOrderRow.order) hmem
      have hexpires := (List.mem_filter.1 hleft).2
      have hexpired : o.order.expires ≤ unixNow := (mem_executedAuctions.1 ho).2.1
      simp [hexpired] at hexpires

end

namespace SharedState

variable {s : SharedState} {complete : TransactionLog} {house : House ℤ ℤ}

/-- On a database with its funds item the server starts again, with what is there. -/
theorem startAgain_eq (hi : Invariant s.storage s.db.toTables) :
    s.startAgain = some { storage := s.storage, db := s.db, transactionLog := s.transactionLog } := by
  unfold startAgain
  rw [Opened.open_again hi]
  rfl

/-- A shift leaves what was performed, enters what it enters, and the server is there again. -/
theorem shift_performed (hi : Invariant s.storage s.db.toTables) (x : Shift)
    (hafter : Invariant s.storage (Sql.after (s.perform x)).db.toTables) :
    ∃ s', s.shift x = some s' ∧ s'.storage = s.storage ∧ s'.db = (Sql.after (s.perform x)).db ∧
      s'.transactionLog = s.transactionLog ++ s.entered x := by
  cases x with
  | killed operation faults written => exact ⟨_, startAgain_eq hafter, rfl, rfl, rfl⟩
  | event e =>
    obtain ⟨s', -, hs, -⟩ := next_booked hi e
    have hreply : Call.reply s.storage ⟨e.operation, []⟩ s.db = Sql.outcome (s.perform (.event e)) :=
      Call.reply_calm ..
    have hdb : Call.next s.storage ⟨e.operation, []⟩ s.db = (Sql.after (s.perform (.event e))).db := Call.next_calm ..
    refine ⟨s', hs, ?_⟩
    show _ ∧ _ ∧ s'.transactionLog = s.transactionLog ++ e.operation.due s.db (s.perform (.event e))
    obtain ⟨reply, hr, rfl⟩ | ⟨error, hr, htick, rfl⟩ := next_cases hs
    all_goals
      refine ⟨rfl, hdb, ?_⟩
      rw [hr] at hreply
      rcases hp : s.perform (.event e) with ⟨reply', c⟩ | ⟨error', c⟩
      all_goals rw [hp] at hreply
    · cases hreply; rfl
    · cases hreply
    · cases hreply
    · have hnone : e.operation.unreported s.db c.db = [] :=
        Operation.unreported_of_not_settles fun unixNow hop => htick unixNow (Event.of_settle hop)
      exact (congrArg (s.transactionLog ++ ·) hnone).trans (List.append_nil _) |>.symm

/-- A shift is a deal of the house, and the complete log is the record of it. -/
theorem Books.shift (hb : Books Storage.initial { s with transactionLog := complete } house) {x : Shift}
    (hquery : ¬ x.operation.RolledBackAtQuery x.faults) :
    ∃ s' d, s.shift x = some s' ∧ s'.transactionLog = s.transactionLog ++ s.entered x ∧ s.OneDeal x ∧
      House.step Storage.initial.fundsItemId.toInt house d = some (house.make Storage.initial.fundsItemId.toInt d) ∧
      Books Storage.initial { s' with transactionLog := complete ++ s.due x }
        (house.make Storage.initial.fundsItemId.toInt d) := by
  have hst : s.storage = Storage.initial := hb.storage
  have hi : Invariant s.storage s.db.toTables := by rw [hst]; exact hb.invariant
  have hmarket : s.db.market = house.market := hb.market
  obtain ⟨d, he, hd⟩ : ∃ d, Explains s.storage s.db.toTables x.operation (Sql.outcome (s.perform x)) d ∧
      Dealt s.storage s.db.toTables (Sql.after (s.perform x)).db.toTables d :=
    (exec_explained (c := Sql.Connection.idle s.db x.faults) rfl hi x.operation hquery).2
  obtain ⟨s', hs, hstorage, hdb, hlog⟩ := shift_performed hi x hd.invariant
  have hdealt : Dealt s.storage s.db.toTables s'.db.toTables d := by rw [hdb]; exact hd
  refine ⟨s', d, hs, hlog, ⟨s', d, hs, he, hdealt⟩, ?_, hstorage.trans hst, ?_, ?_, ?_⟩
  · exact House.step_some.2 ⟨by rw [← hmarket, ← hst]; exact hd.allowed, rfl⟩
  · rw [← hst]
    exact hdealt.invariant
  · show s'.db.market = (house.market.apply Storage.initial.fundsItemId.toInt d)
    rw [hdealt.market, ← hmarket, hst]
  · intro i amount hm u
    show TransactionLog.replay amount u (complete ++ s.due x) = _
    have hrecord : complete.replay amount u = house.onRecord u.toInt i.toInt := hb.log i amount hm u
    rw [TransactionLog.replay_append, hrecord, due, he.recorded hi hd (hst ▸ hm) u, hmarket, hst]
    rfl

/-- The log of a run over shifts is what they entered, and what they had to enter is the record of a house
that made allowed deals. -/
def Kept (s : SharedState) (shifts : List Shift) : Prop :=
  s.transactionLog = Machine.outputs entered SharedState.shift initial shifts ∧
    ∃ deals house, Machine.run (House.step Storage.initial.fundsItemId.toInt) House.empty deals = some house ∧
      Books Storage.initial { s with transactionLog := Machine.outputs due SharedState.shift initial shifts } house

theorem run_kept (shifts : List Shift) (hquery : ∀ x ∈ shifts, ¬ x.operation.RolledBackAtQuery x.faults) :
    ∃ s, Machine.run SharedState.shift initial shifts = some s ∧ s.Kept shifts := by
  induction shifts using List.reverseRecOn with
  | nil => exact ⟨initial, rfl, rfl, [], House.empty, rfl, books_initial⟩
  | append_singleton shifts x ih =>
    obtain ⟨s, hs, hlog, deals, house, hrun, hb⟩ := ih fun y hy => hquery y (List.mem_append_left _ hy)
    obtain ⟨s', d, hs', hlog', -, hstep, hb'⟩ :=
      hb.shift (hquery x (List.mem_append_right _ (List.mem_singleton_self x)))
    refine ⟨s', by rw [Machine.run_concat, hs]; exact hs', ?_, deals ++ [d],
      house.make Storage.initial.fundsItemId.toInt d, ?_, ?_⟩
    · rw [Machine.outputs_concat x hs, ← hlog, hlog']
    · rw [Machine.run_concat, hrun]
      exact hstep
    · rw [Machine.outputs_concat x hs]
      exact hb'

/-- The server always comes back, and no operation is ever half done: each, killed or not, is one deal of
the house or none. The log lacks what killed operations had to enter and did not, and nothing else; with it
the log is the record of the house: what users hold in funds, with their bids, is what it says, and of other
items they hold no more. After a rollback by the engine at the query of a settlement that is not so, see
`processExpiredSellOrders_rolledBack`. -/
theorem kills_leave_gaps (shifts : List Shift) (hquery : ∀ x ∈ shifts, ¬ x.operation.RolledBackAtQuery x.faults) :
    ∃ s, Machine.run SharedState.shift initial shifts = some s ∧
      let complete : TransactionLog := Machine.outputs due SharedState.shift initial shifts
      s.transactionLog = Machine.outputs entered SharedState.shift initial shifts ∧
      s.transactionLog.Sublist complete ∧ (Shift.kills shifts = 0 → s.transactionLog = complete) ∧
      Machine.AtEachStep SharedState.shift OneDeal initial shifts ∧
      (∃ deals house, Machine.run (House.step Storage.initial.fundsItemId.toInt) House.empty deals = some house ∧
        Books Storage.initial { s with transactionLog := complete } house) ∧
      FundsBalanced { s with transactionLog := complete } ∧
      ∀ u i : Int32, i ≠ Storage.initial.fundsItemId →
        s.db.balance u.toInt i.toInt + s.db.onSale u.toInt i.toInt ≤ complete.replay (LogMessage.items i) u := by
  obtain ⟨s, hs, hlog, deals, house, hrun, hb⟩ := run_kept shifts hquery
  have hbalanced := hb.balanced (House.sound_run (House.sound_empty _) hrun)
  refine ⟨s, hs, hlog, ?_, fun hn => ?_, ?_, ⟨deals, house, hrun, hb⟩, hbalanced.1, hbalanced.2⟩
  · rw [hlog]
    exact Machine.outputs_sublist entered_sublist shifts initial
  · rw [hlog]
    exact Machine.outputs_congr (fun s x hx => entered_eq s hn x hx) initial
  · intro earlier x hpre s₁ hs₁
    have hmem : ∀ y ∈ earlier ++ [x], y ∈ shifts := fun y hy => hpre.subset hy
    obtain ⟨s₂, hs₂, -, deals, house, -, hb⟩ := run_kept earlier fun y hy => hquery y (hmem y (List.mem_append_left _ hy))
    obtain rfl := Option.some.inj (hs₁.symm.trans hs₂)
    obtain ⟨s', d, -, -, hdeal, -, -⟩ :=
      hb.shift (hquery x (hmem x (List.mem_append_right _ (List.mem_singleton_self x))))
    exact hdeal

/-- alice puts a sword up for auction, and bob bids 40. -/
def openAuction : List Shift :=
  [.event (.login (some (text "alice"))), .event (.login (some (text "bob"))),
    .event (.command 1 0 (.deposit (some fundsItemName) 10)), .event (.command 1 0 (.deposit (some (text "sword")) 1)),
    .event (.command 2 0 (.deposit (some fundsItemName) 50)),
    .event (.command 1 0 (.sell .auction (some (text "sword")) 1 20)), .event (.command 2 0 (.buy 1 (some 40)))]

/-- The server is killed after a settlement whose query was refused, and after another deposit of alice. -/
def killedTwice : List Shift :=
  openAuction ++ [.killed (.processExpiredSellOrders 300) [none, some ⟨text "database is locked", false⟩] 0,
    .killed (.deposit 1 (some fundsItemName) 5) [] 0]

theorem kills_leave_gaps_auction : ∃ s, Machine.run SharedState.shift initial killedTwice = some s ∧
    Machine.outputs due SharedState.shift initial killedTwice =
      s.transactionLog ++ [⟨1, .sold 2 1 40 1⟩, ⟨2, .bought 2 1 40 1⟩, ⟨1, .item (text "deposited") 1 5⟩] ∧
    s.db.balance 1 1 = 53 ∧
    FundsBalanced { s with transactionLog := Machine.outputs due SharedState.shift initial killedTwice } := by
  have hquery : ∀ x ∈ killedTwice, ¬ x.operation.RolledBackAtQuery x.faults := by
    intro x hx
    simp only [killedTwice, openAuction, List.mem_append, List.mem_cons, List.not_mem_nil, or_false] at hx
    rintro ⟨⟨unixNow, hop⟩, hheld⟩
    rcases hx with (rfl | rfl | rfl | rfl | rfl | rfl | rfl) | rfl | rfl
    case inr.inl => exact hheld fun fault h => by cases h; rfl
    all_goals cases hop
  obtain ⟨s, hs, -, -, -, -, -, hbalanced, -⟩ := kills_leave_gaps killedTwice hquery
  have hrun : (Machine.run SharedState.shift initial killedTwice).map (fun s =>
      (s.transactionLog ++ [⟨1, .sold 2 1 40 1⟩, ⟨2, .bought 2 1 40 1⟩, ⟨1, .item (text "deposited") 1 5⟩],
        s.db.balance 1 1)) = some (Machine.outputs due SharedState.shift initial killedTwice, 53) := by
    decide +kernel
  rw [hs, Option.map_some, Option.some.injEq, Prod.mk.injEq] at hrun
  exact ⟨s, hs, hrun.1.symm, hrun.2, hbalanced⟩

/-- With a rollback at the query the settlement can be half done: bob has the sword, and its auction goes on. -/
example : (Machine.run SharedState.shift initial (openAuction ++ [.killed (.processExpiredSellOrders 300)
    [none, some ⟨text "disk I/O error", true⟩, none, some ⟨text "disk I/O error", true⟩] 0])).map
      (fun s => (s.db.balance 2 2, s.db.sellOrders.map (·.itemId))) = some (1, [2]) := by decide +kernel

end SharedState

end AuctionHouse
