/-
What the server writes to its connections. `process_user_commands` and `notify_users` write to the
same socket, each suspended while its write is not finished, and neither waits for the other.
-/
import AuctionHouse.Machine.Wire
import AuctionHouse.Server.Framing
import AuctionHouse.Server.Sessions

namespace AuctionHouse

/-! ## Texts -/

def greeting : Bytes := text "Welcome to Sundris Auction House, stranger! How can I call you?"

/-- The response to a username, before the user is logged in. -/
def loginResponse (username : Bytes) (s : SharedState) : Bytes :=
  match (SharedState.onStorage (fun st => UserService.login st username) [] s).1 with
  | .ok user => text "Successfully logged in as " ++ user.username
  | .error err => text "Failed to login as '" ++ username ++ text "': " ++ err

def ExecutedSellOrder.message (notification : ExecutedSellOrder) : Bytes :=
  text "Your sell order #" ++ decimal notification.orderId ++ text " was executed for " ++
    decimal notification.price ++ text "\n"

/-! ## The sockets -/

/-- Who writes to a socket: the coroutine of its connection, or `notify_users`. -/
inductive Writer where
  | session
  | notifier
  deriving DecidableEq

/-- The server with the streams that it writes, and the socket `notify_users` is writing to. -/
structure Output extends Server where
  wires : Socket → Machine.Wire Writer UInt8 := fun _ => {}
  notifying : Option Socket := none

/-- What happens to the connections, and to the writes on them. -/
inductive OutputEvent where
  | accept
  | login (socket : Socket) (username : Bytes)
  | abandon (socket : Socket)
  | enter (socket : Socket)
  | request (socket : Socket) (unixNow : ℤ) (request : Bytes)
  | leave (socket : Socket)
  | tick (unixNow : ℤ)
  | notify
  /-- At most `n` bytes of the write of a connection's coroutine are written. -/
  | write (socket : Socket) (n : ℕ)
  | writeNotification (n : ℕ)
  | failNotification

/-- What an event on the streams is for the connections. -/
inductive OutputEvent.Causes : OutputEvent → ServerEvent → Prop
  | accept : Causes .accept .accept
  | login {socket : Socket} {username : Bytes} : Causes (.login socket username) (.login socket (some username))
  | abandon {socket : Socket} : Causes (.abandon socket) (.abandon socket)
  | enter {socket : Socket} : Causes (.enter socket) (.enter socket)
  | request {socket : Socket} {unixNow : ℤ} {request : Bytes} {command : Command}
    (hp : parseRequest request = .command (.change command)) :
    Causes (.request socket unixNow request) (.request socket unixNow command)
  | quit {socket : Socket} {unixNow : ℤ} {request : Bytes} :
    Causes (.request socket unixNow request) (.leave socket)
  | leave {socket : Socket} : Causes (.leave socket) (.leave socket)
  | tick {unixNow : ℤ} : Causes (.tick unixNow) (.tick unixNow)
  | notify : Causes .notify .notify

namespace Output

variable (s : Output)

def setWire (socket : Socket) (wire : Machine.Wire Writer UInt8) : Output :=
  { s with wires := Function.update s.wires socket wire }

/-- `async_write` up to its first suspension. -/
def asyncWrite (socket : Socket) (writer : Writer) (message : Bytes) : Output :=
  s.setWire socket ((s.wires socket).start writer message)

def onServer (e : ServerEvent) : Option Output := (s.toServer.step e).map fun server => { s with toServer := server }

/-- The coroutine of a connection ends; a write that it waits for has failed. -/
def close (socket : Socket) : Output := s.setWire socket ((s.wires socket).fail .session)

/-- An iteration of the inner loop of `notify_users`. -/
def notifyUsers : Option Output :=
  match s.notifying, s.state.notifications with
  | none, (userId, notification) :: _ =>
    (s.onServer .notify).map fun s' => match s.state.sockets userId with
      | some socket => { s'.asyncWrite socket .notifier notification.message with notifying := some socket }
      | none => s'
  | _, _ => none

/-- None when the event cannot happen, or leads to undefined behaviour. The coroutine of a
connection reads only after its write is finished. -/
def step : OutputEvent → Option Output
  | .accept => (s.onServer .accept).map fun s' => s'.asyncWrite s.accepted .session greeting
  | .login socket username =>
    match (s.wires socket).outstanding .session with
    | none => (s.onServer (.login socket (some username))).map fun s' =>
        s'.asyncWrite socket .session (loginResponse username s.state)
    | some _ => none
  | .abandon socket =>
    match s.connections socket with
    -- the user could not log in, and the response to that has failed
    | none => some (s.close socket)
    | some _ => (s.onServer (.abandon socket)).map fun s' => s'.close socket
  | .enter socket =>
    match (s.wires socket).outstanding .session with
    | none => s.onServer (.enter socket)
    | some _ => none
  | .request socket unixNow request =>
    match s.connections socket, (s.wires socket).outstanding .session with
    | some (.commands user), none =>
      match processRequest user unixNow request s.state with
      | (.reply response, state) => some (({ s with state } : Output).asyncWrite socket .session response)
      | (.quit, state) => ({ s with state } : Output).onServer (.leave socket)
      | (.undefined, _) => none
    | _, _ => none
  | .leave socket => (s.onServer (.leave socket)).map fun s' => s'.close socket
  | .tick unixNow => s.onServer (.tick unixNow)
  | .notify => s.notifyUsers
  | .write socket n => ((s.wires socket).write .session n).map fun wire => s.setWire socket wire
  | .writeNotification n =>
    match s.notifying with
    | some socket => ((s.wires socket).write .notifier n).map fun wire =>
        { s.setWire socket wire with notifying := if (wire.outstanding .notifier).isSome then some socket else none }
    | none => none
  | .failNotification =>
    match s.notifying with
    | some socket => some { s.setWire socket ((s.wires socket).fail .notifier) with notifying := none }
    | none => none

/-- The server started on a database. -/
def started (storage : Storage) (db : Database) : Output := { toServer := Server.started storage db }

/-! ## Messages -/

/-- The messages whose writes an event starts on a socket. -/
def starts (socket : Socket) : OutputEvent → List Bytes
  | .accept => if socket = s.accepted then [greeting] else []
  | .login other username => if socket = other then [loginResponse username s.state] else []
  | .request other unixNow request =>
    match s.connections other with
    | some (.commands user) =>
      match (processRequest user unixNow request s.state).1 with
      | .reply response => if socket = other then [response] else []
      | .quit | .undefined => []
    | _ => []
  | .notify =>
    match s.state.notifications with
    | [] => []
    | (userId, notification) :: _ => if s.state.sockets userId = some socket then [notification.message] else []
  | _ => []

/-- The greeting, the responses and the notifications for a socket in the order of the events. -/
def messages (socket : Socket) : Output → List OutputEvent → List Bytes
  | _, [] => []
  | s, e :: events => s.starts socket e ++ match s.step e with
    | some s => messages socket s events
    | none => []

/-! ## When writes meet -/

/-- No socket has two writes outstanding, and each stream is the messages one after the other. -/
def Orderly : Prop := ∀ socket, (s.wires socket).Whole

/-- A request is answered on a socket with an unfinished notification, or a notification is taken for
a socket with an unfinished response. -/
def Collides : OutputEvent → Prop
  | .request socket unixNow request =>
    (∃ user, s.connections socket = some (.commands user)) ∧ ¬ Read.Ends ⟨request, s.state, unixNow⟩ ∧
      (s.wires socket).outstanding .session = none ∧ (s.wires socket).outstanding .notifier ≠ none
  | .notify =>
    s.notifying = none ∧ ∃ userId notification rest socket, s.state.notifications = (userId, notification) :: rest ∧
      s.state.sockets userId = some socket ∧ (s.wires socket).outstanding .session ≠ none
  | _ => False

/-- The notifier only writes to connections that are or were in `process_user_commands`. -/
structure Attached : Prop where
  fresh : s.Fresh
  found : s.Found
  notified : ∀ socket, (s.wires socket).outstanding .notifier ≠ none → s.notifying = some socket ∧ s.Entered socket
  unopened : ∀ socket, s.accepted ≤ socket → s.wires socket = {}

variable {s} {s' : Output} {e : OutputEvent}

/-! ## What a step does -/

theorem onServer_some {e : ServerEvent} : s.onServer e = some s' ↔
    ∃ server, s.toServer.step e = some server ∧ s' = { s with toServer := server } := by
  unfold onServer
  rw [Option.map_eq_some_iff]
  constructor
  · rintro ⟨server, h, rfl⟩
    exact ⟨server, h, rfl⟩
  · rintro ⟨server, h, rfl⟩
    exact ⟨server, h, rfl⟩

/-- A request that is taken is answered, or it is `quit`. -/
theorem step_request {socket : Socket} {unixNow : ℤ} {request : Bytes}
    (h : s.step (.request socket unixNow request) = some s') : ∃ user state,
      s.connections socket = some (.commands user) ∧ (s.wires socket).outstanding .session = none ∧
      ((∃ response, processRequest user unixNow request s.state = (.reply response, state) ∧
        s' = ({ s with state } : Output).asyncWrite socket .session response) ∨
      processRequest user unixNow request s.state = (.quit, state) ∧
        ({ s with state } : Output).onServer (.leave socket) = some s') := by
  simp only [step] at h
  split at h
  · rename_i user hu hidle
    split at h
    · rename_i response state hr
      exact ⟨user, state, hu, hidle, .inl ⟨response, hr, (Option.some.inj h).symm⟩⟩
    · rename_i state hr
      exact ⟨user, state, hu, hidle, .inr ⟨hr, h⟩⟩
    · cases h
  · cases h

/-- An event on the streams leaves the connections, or it is one event of theirs. -/
theorem step_causes (h : s.step e = some s') :
    (s'.toServer = s.toServer ∧ ∀ socket name, e ≠ .login socket name) ∨
      ∃ e', e.Causes e' ∧ s.toServer.step e' = some s'.toServer := by
  have hon : ∀ {e' : ServerEvent} {s₁ : Output}, s.onServer e' = some s₁ → s'.toServer = s₁.toServer → e.Causes e' →
      (s'.toServer = s.toServer ∧ ∀ socket name, e ≠ .login socket name) ∨
        ∃ e', e.Causes e' ∧ s.toServer.step e' = some s'.toServer := by
    intro e' s₁ h₁ hs hc
    obtain ⟨server, he, rfl⟩ := onServer_some.1 h₁
    exact .inr ⟨e', hc, by rw [he, hs]⟩
  cases e with
  | accept =>
    simp only [step] at h
    obtain ⟨s₁, h₁, rfl⟩ := Option.map_eq_some_iff.1 h
    exact hon h₁ rfl .accept
  | login socket username =>
    simp only [step] at h
    split at h
    · obtain ⟨s₁, h₁, rfl⟩ := Option.map_eq_some_iff.1 h
      exact hon h₁ rfl .login
    · cases h
  | abandon socket =>
    simp only [step] at h
    split at h
    · cases h
      exact .inl ⟨rfl, by rintro _ _ ⟨⟩⟩
    · obtain ⟨s₁, h₁, rfl⟩ := Option.map_eq_some_iff.1 h
      exact hon h₁ rfl .abandon
  | enter socket =>
    simp only [step] at h
    split at h
    · exact hon h rfl .enter
    · cases h
  | request socket unixNow request =>
    obtain ⟨user, state, hu, -, h⟩ := step_request h
    have hstate : (processRequest user unixNow request s.state).2 = state := by
      rcases h with ⟨response, hr, -⟩ | ⟨hr, -⟩
      · rw [hr]
      · rw [hr]
    rcases processRequest_state user unixNow request s.state with ⟨command, hp, hnext⟩ | ⟨-, hsame⟩
    · rcases h with ⟨response, hr, rfl⟩ | ⟨hr, -⟩
      · refine .inr ⟨.request socket unixNow command, .request hp, ?_⟩
        simp only [Server.step, hu, hnext, hstate]
        rfl
      · -- a command that changes the server is answered
        rw [processRequest_command hp] at hr
        have hreply : Response.reply _ = .quit := congrArg Prod.fst hr
        cases hreply
    · obtain rfl : state = s.state := hstate.symm.trans hsame
      rcases h with ⟨response, -, rfl⟩ | ⟨-, h⟩
      · exact .inl ⟨rfl, by rintro _ _ ⟨⟩⟩
      · exact hon h rfl .quit
  | leave socket =>
    simp only [step] at h
    obtain ⟨s₁, h₁, rfl⟩ := Option.map_eq_some_iff.1 h
    exact hon h₁ rfl .leave
  | tick unixNow => exact hon h rfl .tick
  | notify =>
    simp only [step, notifyUsers] at h
    split at h
    · obtain ⟨s₁, h₁, rfl⟩ := Option.map_eq_some_iff.1 h
      refine hon h₁ ?_ .notify
      split <;> rfl
    · cases h
  | write socket n =>
    obtain ⟨wire, -, rfl⟩ := Option.map_eq_some_iff.1 h
    exact .inl ⟨rfl, by rintro _ _ ⟨⟩⟩
  | writeNotification n =>
    simp only [step] at h
    split at h
    · obtain ⟨wire, -, rfl⟩ := Option.map_eq_some_iff.1 h
      exact .inl ⟨rfl, by rintro _ _ ⟨⟩⟩
    · cases h
  | failNotification =>
    simp only [step] at h
    split at h
    · cases h
      exact .inl ⟨rfl, by rintro _ _ ⟨⟩⟩
    · cases h

/-- The connections go on as in `Server`, whatever is written to them. -/
theorem step_server (h : s.step e = some s') :
    ∃ events, Machine.run Server.step s.toServer events = some s'.toServer := by
  rcases step_causes h with ⟨hsame, -⟩ | ⟨e', -, he⟩
  · exact ⟨[], congrArg some hsame.symm⟩
  · exact ⟨[e'], by rw [Machine.run_cons, he]; rfl⟩

/-- What a step does to the streams: nothing, or a write starts, or one goes on or fails. -/
inductive Effect (s : Output) (e : OutputEvent) (s' : Output) : Prop
  | same (starts : ∀ other, s.starts other e = []) (wires : s'.wires = s.wires) (notifying : s'.notifying = s.notifying)
      (calm : ¬ s.Collides e)
  | responds (socket : Socket) (message : Bytes) (opened : socket < s'.accepted)
      (starts : ∀ other, s.starts other e = if other = socket then [message] else [])
      (idle : (s.wires socket).outstanding .session = none)
      (wires : s'.wires = Function.update s.wires socket ((s.wires socket).start .session message))
      (notifying : s'.notifying = s.notifying)
      (collides : s.Collides e ↔ (s.wires socket).outstanding .notifier ≠ none)
  | notifies (socket : Socket) (message : Bytes) (entered : s.Entered socket) (free : s.notifying = none)
      (starts : ∀ other, s.starts other e = if other = socket then [message] else [])
      (wires : s'.wires = Function.update s.wires socket ((s.wires socket).start .notifier message))
      (notifying : s'.notifying = some socket)
      (collides : s.Collides e ↔ (s.wires socket).outstanding .session ≠ none)
  | progresses (socket : Socket) (wire : Machine.Wire Writer UInt8) (starts : ∀ other, s.starts other e = [])
      (started : wire.started = (s.wires socket).started) (opened : s.accepted ≤ socket → wire = {})
      (whole : (s.wires socket).Whole → wire.Whole) (wires : s'.wires = Function.update s.wires socket wire)
      (notified : wire.outstanding .notifier ≠ none →
        (s.wires socket).outstanding .notifier ≠ none ∧ s'.notifying = s.notifying)
      (notifying : s'.notifying = s.notifying ∨ s.notifying = some socket) (calm : ¬ s.Collides e)

/-- The end of a coroutine. -/
theorem effect_close {s₁ : Output} {socket : Socket} (ha : s.Attached) (hs : ∀ other, s.starts other e = [])
    (hw : s₁.wires = s.wires) (hn : s₁.notifying = s.notifying) (calm : ¬ s.Collides e) :
    s.Effect e (s₁.close socket) := by
  refine .progresses socket ((s.wires socket).fail .session) hs (Machine.Wire.started_fail ..) (fun ho => ?_)
    Machine.Wire.whole_fail ?_ (fun hf => ?_) (.inl hn) calm
  · rw [ha.unopened socket ho]
    rfl
  · unfold close setWire
    rw [hw]
  · rw [Machine.Wire.outstanding_fail _ (by decide)] at hf
    exact ⟨hf, hn⟩

theorem effect_login {socket : Socket} {username : Bytes} (ha : s.Attached)
    (h : s.step (.login socket username) = some s') : s.Effect (.login socket username) s' := by
  simp only [step] at h
  split at h
  · rename_i hidle
    obtain ⟨s₁, h₁, rfl⟩ := Option.map_eq_some_iff.1 h
    obtain ⟨server, hs, rfl⟩ := onServer_some.1 h₁
    have hconn : s.connections socket = some .login := by
      simp only [Server.step] at hs
      split at hs
      · assumption
      · cases hs
    refine .responds socket _ ((Server.lt_accepted ha.fresh hconn).trans_le (Server.accepted_step hs)) (fun _ => rfl)
      hidle rfl rfl (iff_of_false id fun hn => ?_)
    -- nobody is notified through a connection that logs in
    obtain ⟨_, hu⟩ := (ha.notified socket hn).2.2 _ hconn
    cases hu
  · cases h

theorem effect_request {socket : Socket} {unixNow : ℤ} {request : Bytes} (ha : s.Attached)
    (h : s.step (.request socket unixNow request) = some s') : s.Effect (.request socket unixNow request) s' := by
  obtain ⟨user, state, hu, hidle, h⟩ := step_request h
  have hends := Read.ends_iff user ⟨request, s.state, unixNow⟩
  rcases h with ⟨response, hr, rfl⟩ | ⟨hr, h⟩
  · rw [hr] at hends
    refine .responds socket response (Server.lt_accepted ha.fresh hu) (fun _ => ?_) hidle rfl rfl
      ⟨fun hc => hc.2.2.2, fun hn => ⟨⟨user, hu⟩, hends.1 ⟨response, rfl⟩, hidle, hn⟩⟩
    simp only [starts, hu, hr]
  · rw [hr] at hends
    obtain ⟨server, -, rfl⟩ := onServer_some.1 h
    refine .same (fun _ => ?_) rfl rfl fun hc => ?_
    · simp only [starts, hu, hr]
    · obtain ⟨_, hq⟩ := hends.2 hc.2.1
      cases hq

theorem effect_notify (ha : s.Attached) (h : s.step .notify = some s') : s.Effect .notify s' := by
  simp only [step, notifyUsers] at h
  split at h
  · rename_i userId notification rest hfree hn
    obtain ⟨s₁, h₁, rfl⟩ := Option.map_eq_some_iff.1 h
    obtain ⟨server, -, rfl⟩ := onServer_some.1 h₁
    rcases hsocket : s.state.sockets userId with _ | socket
    · refine .same (fun _ => ?_) rfl rfl ?_
      · simp [starts, hn, hsocket]
      · rintro ⟨-, userId', _, _, socket, hn', hs', -⟩
        rw [hn] at hn'
        cases hn'
        rw [hsocket] at hs'
        cases hs'
    · refine .notifies socket notification.message (Server.entered_of_live ha.fresh (ha.found userId socket hsocket))
        hfree (fun _ => ?_) rfl rfl ⟨?_, fun ho => ⟨hfree, userId, notification, rest, socket, hn, hsocket, ho⟩⟩
      · simp [starts, hn, hsocket, eq_comm]
      · rintro ⟨-, userId', _, _, socket', hn', hs', ho⟩
        rw [hn] at hn'
        cases hn'
        rw [hsocket] at hs'
        cases hs'
        exact ho
  · cases h

theorem opened_of_write {socket : Socket} {writer : Writer} {n : ℕ} {wire wire' : Machine.Wire Writer UInt8}
    (ha : s.Attached) (hw : (s.wires socket).write writer n = some wire) (ho : s.accepted ≤ socket) : wire' = {} := by
  have hout := (Machine.Wire.outstanding_write hw).1
  rw [ha.unopened socket ho] at hout
  exact absurd rfl hout

theorem effect_write {socket : Socket} {n : ℕ} (ha : s.Attached) (h : s.step (.write socket n) = some s') :
    s.Effect (.write socket n) s' := by
  simp only [step] at h
  obtain ⟨wire, hw, rfl⟩ := Option.map_eq_some_iff.1 h
  refine .progresses socket wire (fun _ => rfl) (Machine.Wire.started_write hw) (opened_of_write ha hw)
    (fun hwhole => Machine.Wire.whole_write hwhole hw) rfl (fun hn => ?_) (.inl rfl) id
  rw [(Machine.Wire.outstanding_write hw).2 .notifier (by decide)] at hn
  exact ⟨hn, rfl⟩

theorem effect_writeNotification {n : ℕ} (ha : s.Attached) (h : s.step (.writeNotification n) = some s') :
    s.Effect (.writeNotification n) s' := by
  simp only [step] at h
  split at h
  · rename_i socket hs
    obtain ⟨wire, hw, rfl⟩ := Option.map_eq_some_iff.1 h
    refine .progresses socket wire (fun _ => rfl) (Machine.Wire.started_write hw) (opened_of_write ha hw)
      (fun hwhole => Machine.Wire.whole_write hwhole hw) rfl
      (fun hn => ⟨(Machine.Wire.outstanding_write hw).1, ?_⟩) (.inr hs) id
    show (if (wire.outstanding .notifier).isSome then some socket else none) = s.notifying
    rw [if_pos (Option.isSome_iff_ne_none.2 hn), hs]
  · cases h

theorem effect_failNotification (ha : s.Attached) (h : s.step .failNotification = some s') :
    s.Effect .failNotification s' := by
  simp only [step] at h
  split at h
  · rename_i socket hs
    cases h
    refine .progresses socket ((s.wires socket).fail .notifier) (fun _ => rfl) (Machine.Wire.started_fail ..)
      (fun ho => ?_) Machine.Wire.whole_fail rfl (fun hn => ?_) (.inr hs) id
    · rw [ha.unopened socket ho]
      rfl
    · exact absurd (Machine.Wire.outstanding_fail_self ..) hn
  · cases h

theorem effect_step (ha : s.Attached) (h : s.step e = some s') : s.Effect e s' := by
  cases e with
  | accept =>
    simp only [step] at h
    obtain ⟨s₁, h₁, rfl⟩ := Option.map_eq_some_iff.1 h
    obtain ⟨server, hs, rfl⟩ := onServer_some.1 h₁
    cases hs
    have hidle := ha.unopened s.accepted le_rfl
    exact .responds s.accepted greeting (Nat.lt_succ_self _) (fun _ => rfl) (by rw [hidle]) rfl rfl
      (iff_of_false id (by rw [hidle]; exact fun h => h rfl))
  | login socket username => exact effect_login ha h
  | abandon socket =>
    simp only [step] at h
    split at h
    · cases h
      exact effect_close ha (fun _ => rfl) rfl rfl id
    · obtain ⟨s₁, h₁, rfl⟩ := Option.map_eq_some_iff.1 h
      obtain ⟨server, -, rfl⟩ := onServer_some.1 h₁
      exact effect_close ha (fun _ => rfl) rfl rfl id
  | enter socket =>
    simp only [step] at h
    split at h
    · obtain ⟨server, -, rfl⟩ := onServer_some.1 h
      exact .same (fun _ => rfl) rfl rfl id
    · cases h
  | request socket unixNow request => exact effect_request ha h
  | leave socket =>
    simp only [step] at h
    obtain ⟨s₁, h₁, rfl⟩ := Option.map_eq_some_iff.1 h
    obtain ⟨server, -, rfl⟩ := onServer_some.1 h₁
    exact effect_close ha (fun _ => rfl) rfl rfl id
  | tick unixNow =>
    obtain ⟨server, -, rfl⟩ := onServer_some.1 h
    exact .same (fun _ => rfl) rfl rfl id
  | notify => exact effect_notify ha h
  | write socket n => exact effect_write ha h
  | writeNotification n => exact effect_writeNotification ha h
  | failNotification => exact effect_failNotification ha h

/-- An unfinished notification is still on its way to a connection that entered `process_user_commands`. -/
theorem notified_step (ha : s.Attached) (he : s.Effect e s')
    (hentered : ∀ socket, s.Entered socket → s'.Entered socket) (socket : Socket)
    (hn : (s'.wires socket).outstanding .notifier ≠ none) : s'.notifying = some socket ∧ s'.Entered socket := by
  have hstays : (s.wires socket).outstanding .notifier ≠ none → s'.notifying = s.notifying →
      s'.notifying = some socket ∧ s'.Entered socket := by
    intro h hsame
    rw [hsame]
    exact (ha.notified socket h).imp id (hentered socket)
  cases he with
  | same _ hw hnotifying _ =>
    rw [hw] at hn
    exact hstays hn hnotifying
  | responds other _ _ _ _ hw hnotifying _ =>
    rw [hw] at hn
    by_cases hne : socket = other
    · subst hne
      rw [Function.update_self] at hn
      exact hstays hn hnotifying
    · rw [Function.update_of_ne hne] at hn
      exact hstays hn hnotifying
  | notifies other _ hother hfree _ hw hnotifying _ =>
    rw [hw] at hn
    by_cases hne : socket = other
    · subst hne
      exact ⟨hnotifying, hentered _ hother⟩
    · -- no other socket has a notification before
      rw [Function.update_of_ne hne] at hn
      have hsame := (ha.notified socket hn).1
      rw [hfree] at hsame
      cases hsame
  | progresses other wire _ _ _ _ hw hnotified hnotifying _ =>
    rw [hw] at hn
    by_cases hne : socket = other
    · subst hne
      rw [Function.update_self] at hn
      exact hstays (hnotified hn).1 (hnotified hn).2
    · rw [Function.update_of_ne hne] at hn
      rcases hnotifying with hsame | hother
      · exact hstays hn hsame
      · rw [(ha.notified socket hn).1] at hother
        exact absurd (Option.some.inj hother) hne

theorem unopened_step (ha : s.Attached) (he : s.Effect e s') (haccepted : s.accepted ≤ s'.accepted) {socket : Socket}
    (ho : s'.accepted ≤ socket) : s'.wires socket = {} := by
  have hunopened := ha.unopened socket (haccepted.trans ho)
  cases he with
  | same _ hw _ _ =>
    rw [hw]
    exact hunopened
  | responds other _ hopened _ _ hw _ _ =>
    rw [hw, Function.update_of_ne (hopened.trans_le ho).ne']
    exact hunopened
  | notifies other _ hother _ _ hw _ _ =>
    rw [hw, Function.update_of_ne (hother.1.trans_le (haccepted.trans ho)).ne']
    exact hunopened
  | progresses other wire _ _ hopened _ hw _ _ _ =>
    rw [hw]
    by_cases hne : socket = other
    · subst hne
      rw [Function.update_self]
      exact hopened (haccepted.trans ho)
    · rw [Function.update_of_ne hne]
      exact hunopened

/-- What is known of the streams stays known. -/
theorem attached_step (ha : s.Attached) (h : s.step e = some s') : s'.Attached := by
  obtain ⟨events, hrun⟩ := step_server h
  obtain ⟨hfresh, hfound⟩ := Machine.run_keeps (I := fun s : Server => s.Fresh ∧ s.Found)
    (fun _ _ _ hi hs => ⟨Server.fresh_step hi.1 hs, Server.found_step hi.1 hi.2 hs⟩) ⟨ha.fresh, ha.found⟩ hrun
  have hentered : ∀ socket, s.Entered socket → s'.Entered socket := fun _ hs =>
    Machine.run_keeps (I := fun s : Server => s.Entered _) (fun _ _ _ hi hs => Server.entered_step hi hs) hs hrun
  have haccepted : s.accepted ≤ s'.accepted := Machine.run_keeps (I := fun s' : Server => s.accepted ≤ s'.accepted)
    (fun _ _ _ hi hs => hi.trans (Server.accepted_step hs)) le_rfl hrun
  have he := effect_step ha h
  exact ⟨hfresh, hfound, notified_step ha he hentered, fun _ => unopened_step ha he haccepted⟩

theorem started_start {socket : Socket} {writer : Writer} {message : Bytes}
    (hw : s'.wires = Function.update s.wires socket ((s.wires socket).start writer message)) (other : Socket) :
    (s'.wires other).started = (s.wires other).started ++ if other = socket then [message] else [] := by
  rw [hw]
  by_cases hne : other = socket
  · subst hne
    rw [Function.update_self, if_pos rfl]
    rfl
  · rw [Function.update_of_ne hne, if_neg hne, List.append_nil]

/-- The writes that a step starts are those of its event. -/
theorem started_step (ha : s.Attached) (h : s.step e = some s') (socket : Socket) :
    (s'.wires socket).started = (s.wires socket).started ++ s.starts socket e := by
  cases effect_step ha h with
  | same hs hw _ _ => rw [hw, hs, List.append_nil]
  | responds other message _ hs _ hw _ _ =>
    rw [hs]
    exact started_start hw socket
  | notifies other message _ _ hs hw _ _ =>
    rw [hs]
    exact started_start hw socket
  | progresses other wire hs hstarted _ _ hw _ _ _ =>
    rw [hw, hs, List.append_nil]
    by_cases hne : socket = other
    · subst hne
      rw [Function.update_self]
      exact hstarted
    · rw [Function.update_of_ne hne]

theorem started_run (socket : Socket) : ∀ {events : List OutputEvent} {s s' : Output}, s.Attached →
    Machine.run step s events = some s' →
      (s'.wires socket).started = (s.wires socket).started ++ messages socket s events
  | [], s, _, _, h => by
    cases h
    exact (List.append_nil _).symm
  | e :: events, s, s', ha, h => by
    obtain ⟨s₁, h₁, h⟩ := Option.bind_eq_some_iff.1 h
    rw [started_run socket (attached_step ha h₁) h, started_step ha h₁, List.append_assoc, messages, h₁]

theorem orderly_update {socket : Socket} {wire : Machine.Wire Writer UInt8} (ho : s.Orderly)
    (hw : s'.wires = Function.update s.wires socket wire) : s'.Orderly ↔ wire.Whole := by
  unfold Orderly
  rw [hw]
  constructor
  · intro h
    have hwire := h socket
    rw [Function.update_self] at hwire
    exact hwire
  · intro h other
    by_cases hne : other = socket
    · subst hne
      rw [Function.update_self]
      exact h
    · rw [Function.update_of_ne hne]
      exact ho other

theorem Writer.forall_none {outstanding : Writer → Option Bytes} :
    (∀ writer, outstanding writer = none) ↔ outstanding .session = none ∧ outstanding .notifier = none := by
  constructor
  · intro h
    exact ⟨h _, h _⟩
  · rintro ⟨hs, hn⟩ (_ | _)
    · exact hs
    · exact hn

/-- A step keeps the streams orderly exactly when it does not start a write beside another. -/
theorem orderly_step (ha : s.Attached) (ho : s.Orderly) (h : s.step e = some s') : s'.Orderly ↔ ¬ s.Collides e := by
  cases effect_step ha h with
  | same _ hw _ hcalm =>
    refine iff_of_true ?_ hcalm
    unfold Orderly
    rw [hw]
    exact ho
  | responds socket message _ _ hidle hw _ hcollides =>
    rw [orderly_update ho hw, Machine.Wire.whole_start (ho socket) hidle, Writer.forall_none, hcollides, not_not]
    exact and_iff_right hidle
  | notifies socket message _ hfree _ hw _ hcollides =>
    have hidle : (s.wires socket).outstanding .notifier = none := by
      by_contra hn
      have hsame := (ha.notified socket hn).1
      rw [hfree] at hsame
      cases hsame
    rw [orderly_update ho hw, Machine.Wire.whole_start (ho socket) hidle, Writer.forall_none, hcollides, not_not]
    exact and_iff_left hidle
  | progresses socket wire _ _ _ hwhole hw _ _ hcalm =>
    exact iff_of_true ((orderly_update ho hw).2 (hwhole (ho socket))) hcalm

theorem step_of_collides (h : s.Collides e) : ∃ s', s.step e = some s' := by
  cases e with
  | request socket unixNow request =>
    obtain ⟨⟨user, hu⟩, hends, hidle, -⟩ := h
    obtain ⟨response, hr⟩ := (Read.ends_iff user ⟨request, s.state, unixNow⟩).2 hends
    rcases hp : processRequest user unixNow request s.state with ⟨r, state⟩
    obtain rfl : r = .reply response := by rw [← hr]; exact (congrArg Prod.fst hp).symm
    exact ⟨_, by simp only [step, hu, hidle, hp]; rfl⟩
  | notify =>
    obtain ⟨hfree, userId, notification, rest, socket, hn, hs, -⟩ := h
    simp only [step, notifyUsers, onServer, Server.step, Server.notifyUsers, hfree, hn, hs]
    exact ⟨_, rfl⟩
  | _ => exact h.elim

/-! ## Runs -/

/-- The writes on a socket start in the order of its messages. Throughout a run no socket has two of
them outstanding, and what was sent is the messages one after the other, exactly when no step of the
run starts a write beside another. -/
theorem streams_orderly_iff (storage : Storage) (db : Database) (events : List OutputEvent) :
    (∀ s socket, Machine.run step (started storage db) events = some s →
      (s.wires socket).started = messages socket (started storage db) events) ∧
    (Machine.Throughout step Orderly (started storage db) events ↔
      Machine.AtEachStep step (fun s e => ¬ s.Collides e) (started storage db) events) := by
  have hfirst : (started storage db).Attached :=
    ⟨fun _ _ => rfl, fun _ _ h => (nomatch h), fun _ h => absurd rfl h, fun _ _ => rfl⟩
  refine ⟨fun s socket h => started_run socket hfirst h, ?_⟩
  exact Machine.throughout_iff (fun _ _ _ ha h => attached_step ha h) hfirst (fun _ => Machine.Wire.whole_idle)
    (fun _ _ _ ha ho h => orderly_step ha ho h) (fun _ _ _ h => step_of_collides h) events

/-- bob has bought alice's sword. The notification comes while her ping is answered, and splits the
answer. -/
theorem pong_split :
    let request (socket : Socket) (line : String) := [OutputEvent.request socket 0 (text line), .write socket 256]
    let connect (socket : Socket) (name : String) :=
      [OutputEvent.accept, .write socket 256, .login socket (text name), .write socket 256, .enter socket]
    let events := connect 0 "alice" ++ connect 1 "bob" ++ request 0 "deposit funds 10" ++ request 0 "deposit sword" ++
      request 0 "sell sword 20" ++ request 1 "deposit funds 20" ++ request 1 "buy 1" ++
      [.request 0 0 (text "ping"), .write 0 2, .notify]
    let s₀ := started Storage.initial Database.initial
    (∃ s, Machine.run step s₀ events = some s ∧ (s.wires 0).outstanding .session = some (text "ng") ∧
      (s.wires 0).outstanding .notifier = some (text "Your sell order #1 was executed for 20\n") ∧ ¬ s.Orderly) ∧
    ∃ s, Machine.run step s₀ (events ++ [.writeNotification 256, .write 0 256]) = some s ∧
      text "poYour sell order #1 was executed for 20\nng" <:+ (s.wires 0).sent ∧ ¬ s.Orderly := by
  intro request connect events s₀
  constructor
  · have hrun : (Machine.run step s₀ events).map (fun s => ((s.wires 0).outstanding .session,
        (s.wires 0).outstanding .notifier)) =
        some (some (text "ng"), some (text "Your sell order #1 was executed for 20\n")) := by decide +kernel
    obtain ⟨s, hs, h⟩ := Option.map_eq_some_iff.1 hrun
    obtain ⟨hsession, hnotifier⟩ := Prod.mk.inj h
    refine ⟨s, hs, hsession, hnotifier, fun ho => ?_⟩
    cases (ho 0).single .session .notifier (by rw [hsession]; exact Option.some_ne_none _)
      (by rw [hnotifier]; exact Option.some_ne_none _)
  · have hrun : (Machine.run step s₀ (events ++ [.writeNotification 256, .write 0 256])).map (fun s =>
        (decide (text "poYour sell order #1 was executed for 20\nng" <:+ (s.wires 0).sent),
          decide ((s.wires 0).sent <+: (s.wires 0).started.flatten))) = some (true, false) := by decide +kernel
    obtain ⟨s, hs, h⟩ := Option.map_eq_some_iff.1 hrun
    obtain ⟨hsent, hbegun⟩ := Prod.mk.inj h
    exact ⟨s, hs, of_decide_eq_true hsent, fun ho => of_decide_eq_false hbegun (ho 0).begun⟩

end Output

end AuctionHouse
