/-
main.cpp: the coroutines of the clients' connections, and the map of sockets by which
`notify_users` finds a user. The map has one socket for each user id and the sessions are one for
each connection, so it is right until a session ends while another session of its user goes on.
-/
import AuctionHouse.Server.Commands
import Mathlib.Logic.Function.Basic

namespace AuctionHouse

/-! ## Connections -/

/-- Where the coroutine of an open connection is. -/
inductive Coroutine where
  /-- In `process_client_login`, before the username is read. -/
  | login
  /-- In `process_client_login`, after the user is logged in. -/
  | response (user : User)
  /-- In `process_user_commands`. -/
  | commands (user : User)
  deriving DecidableEq

/-- The server with its connections, and the notifications that were written to them. -/
structure Server where
  state : SharedState
  connections : Socket → Option Coroutine := fun _ => none
  accepted : Socket := 0
  notified : List (Socket × ExecutedSellOrder) := []

/-- What happens to the connections. `abandon` and `leave` are the exceptions that end the two
coroutines of a connection. -/
inductive ServerEvent where
  | accept
  | login (socket : Socket) (username : StringView)
  | abandon (socket : Socket)
  | enter (socket : Socket)
  | request (socket : Socket) (unixNow : ℤ) (command : Command)
  | leave (socket : Socket)
  | notify
  | tick (unixNow : ℤ)

namespace Server

variable (s : Server)

def setConnection (socket : Socket) (c : Option Coroutine) : Server :=
  { s with connections := Function.update s.connections socket c }

/-- `sockets[user_id] = socket` and `sockets.erase(user_id)`. -/
def setSocket (userId : UserId) (socket : Option Socket) : Server :=
  { s with state.sockets := Function.update s.state.sockets userId socket }

def accept : Server := { s.setConnection s.accepted (some .login) with accepted := s.accepted + 1 }

/-- The connection of a user who cannot log in is closed. -/
def processClientLogin (socket : Socket) (username : StringView) : Server :=
  match SharedState.onStorage (fun st => UserService.login st username) [] s.state with
  | (.ok user, state) => { s with state }.setConnection socket (some (.response user))
  | (.error _, state) => { s with state }.setConnection socket none

/-- The start of `process_user_commands`. -/
def enter (socket : Socket) (user : User) : Server :=
  (s.setSocket user.id (some socket)).setConnection socket (some (.commands user))

/-- The end of `process_user_commands`: the slot is erased whichever socket it holds. -/
def leave (socket : Socket) (user : User) : Server :=
  (s.setSocket user.id none).setConnection socket none

/-- An iteration of the inner loop of `notify_users`. -/
def notifyUsers : Option Server :=
  match s.state.notifications with
  | [] => none
  | (userId, notification) :: rest =>
    let s : Server := { s with state.notifications := rest }
    match s.state.sockets userId with
    | some socket => some { s with notified := s.notified ++ [(socket, notification)] }
    -- the notification of a user who is not found is dropped
    | none => some s

/-- None when the event cannot happen, or leads to undefined behaviour. -/
def step : ServerEvent → Option Server
  | .accept => some s.accept
  | .login socket username =>
    match s.connections socket with
    | some .login => some (s.processClientLogin socket username)
    | _ => none
  | .abandon socket =>
    match s.connections socket with
    | some .login => some (s.setConnection socket none)
    | some (.response _) => some (s.setConnection socket none)
    | _ => none
  | .enter socket =>
    match s.connections socket with
    | some (.response user) => some (s.enter socket user)
    | _ => none
  | .request socket unixNow command =>
    match s.connections socket with
    | some (.commands user) => (s.state.next (.command user.id unixNow command)).map fun state => { s with state }
    | _ => none
  | .leave socket =>
    match s.connections socket with
    | some (.commands user) => some (s.leave socket user)
    | _ => none
  | .notify => s.notifyUsers
  | .tick unixNow => (s.state.next (.tick unixNow)).map fun state => { s with state }

/-- The server started on a database. -/
def started (storage : Storage) (db : Database) : Server := { state := { storage, db } }

/-! ## The registry of sessions -/

/-- A connection of a user inside `process_user_commands`. -/
def Live (socket : Socket) (userId : UserId) : Prop :=
  ∃ user, s.connections socket = some (.commands user) ∧ user.id = userId

/-- A user with live connections is found through one of them, a user without any is not found. -/
structure Registered : Prop where
  found : ∀ userId socket, s.Live socket userId →
    ∃ socket', s.state.sockets userId = some socket' ∧ s.Live socket' userId
  absent : ∀ userId, (∀ socket, ¬ s.Live socket userId) → s.state.sockets userId = none

/-- A connection of a user ends while another connection of the user is live. -/
def LeavesOther : ServerEvent → Prop
  | .leave socket => ∃ userId other, s.Live socket userId ∧ s.Live other userId ∧ other ≠ socket
  | _ => False

/-- The map of sockets finds live connections only. -/
def Found : Prop := ∀ userId socket, s.state.sockets userId = some socket → s.Live socket userId

/-- A connection is or was inside `process_user_commands`. -/
def Entered (socket : Socket) : Prop :=
  socket < s.accepted ∧ ∀ c, s.connections socket = some c → ∃ user, c = .commands user

/-- Connections that are not accepted yet have no coroutine. -/
def Fresh : Prop := ∀ socket, s.accepted ≤ socket → s.connections socket = none

variable {s}

theorem live_setConnection {socket : Socket} {c : Option Coroutine} {other : Socket} {userId : UserId} :
    (s.setConnection socket c).Live other userId ↔
      if other = socket then ∃ user, c = some (.commands user) ∧ user.id = userId else s.Live other userId := by
  unfold Live setConnection
  by_cases h : other = socket
  · simp [h]
  · simp [h]

/-- A connection outside `process_user_commands` that stays outside. -/
theorem live_outside {socket : Socket} {c : Option Coroutine}
    (h : ∀ user, s.connections socket ≠ some (.commands user)) (hc : ∀ user, c ≠ some (.commands user))
    (other : Socket) (userId : UserId) :
    (s.setConnection socket c).Live other userId ↔ s.Live other userId := by
  rw [live_setConnection]
  split
  · rename_i ho
    subst ho
    constructor
    · rintro ⟨user, hu, -⟩
      exact absurd hu (hc user)
    · rintro ⟨user, hu, -⟩
      exact absurd hu (h user)
  · rfl

/-- A login changes the database, and its connection goes on or is closed. -/
theorem processClientLogin_eq (s : Server) (socket : Socket) (username : StringView) :
    ∃ db c, (∀ user, c ≠ some (.commands user)) ∧
      s.processClientLogin socket username = ({ s with state.db := db } : Server).setConnection socket c := by
  simp only [processClientLogin, SharedState.onStorage]
  rcases UserService.login s.state.storage username (Sql.Connection.idle s.state.db) with ⟨user, c⟩ | ⟨error, c⟩
  · exact ⟨c.db, some (.response user), by simp, rfl⟩
  · exact ⟨c.db, none, by simp, rfl⟩

/-- The sockets and the live connections are the same. -/
structure Quiet (s s' : Server) : Prop where
  sockets : s'.state.sockets = s.state.sockets
  live : ∀ socket userId, s'.Live socket userId ↔ s.Live socket userId

theorem Quiet.of_state {s : Server} {state : SharedState} (h : state.sockets = s.state.sockets) :
    Quiet s { s with state } := ⟨h, fun _ _ => Iff.rfl⟩

/-- What a step does to the registry. -/
theorem step_cases {s s' : Server} {e : ServerEvent} (hf : s.Fresh) (h : s.step e = some s') :
    (∃ socket user, e = .enter socket ∧ s.connections socket = some (.response user) ∧ s' = s.enter socket user) ∨
    (∃ socket user, e = .leave socket ∧ s.connections socket = some (.commands user) ∧ s' = s.leave socket user) ∨
    ((∀ socket, e ≠ .leave socket) ∧ Quiet s s') := by
  cases e with
  | enter socket =>
    simp only [step] at h
    split at h
    · rename_i user hu
      exact .inl ⟨socket, user, rfl, hu, (Option.some.inj h).symm⟩
    · cases h
  | leave socket =>
    simp only [step] at h
    split at h
    · rename_i user hu
      exact .inr (.inl ⟨socket, user, rfl, hu, (Option.some.inj h).symm⟩)
    · cases h
  | accept =>
    cases h
    -- nothing runs yet on the connection that is accepted
    have hnone := hf s.accepted le_rfl
    exact .inr (.inr ⟨by simp, rfl, live_outside (by simp [hnone]) (by simp)⟩)
  | login socket username =>
    simp only [step] at h
    split at h
    · rename_i hl
      cases h
      obtain ⟨db, c, hc, heq⟩ := s.processClientLogin_eq socket username
      rw [heq]
      exact .inr (.inr ⟨by simp, rfl, live_outside (by simpa using fun user => by simp [hl]) hc⟩)
    · cases h
  | abandon socket =>
    simp only [step] at h
    split at h
    · rename_i hl
      cases h
      exact .inr (.inr ⟨by simp, rfl, live_outside (by simp [hl]) (by simp)⟩)
    · rename_i user hl
      cases h
      exact .inr (.inr ⟨by simp, rfl, live_outside (by simp [hl]) (by simp)⟩)
    · cases h
  | request socket unixNow command =>
    simp only [step] at h
    split at h
    · obtain ⟨state, hs, rfl⟩ := Option.map_eq_some_iff.1 h
      exact .inr (.inr ⟨by simp, .of_state (SharedState.next_sockets hs)⟩)
    · cases h
  | notify =>
    refine .inr (.inr ⟨by simp, ?_⟩)
    simp only [step, notifyUsers] at h
    split at h
    · cases h
    · split at h
      · cases h; exact ⟨rfl, fun _ _ => Iff.rfl⟩
      · cases h; exact ⟨rfl, fun _ _ => Iff.rfl⟩
  | tick unixNow =>
    obtain ⟨state, hs, rfl⟩ := Option.map_eq_some_iff.1 h
    exact .inr (.inr ⟨by simp, .of_state (SharedState.next_sockets hs)⟩)

theorem live_enter {socket : Socket} {user : User} {other : Socket} {userId : UserId} :
    (s.enter socket user).Live other userId ↔ if other = socket then user.id = userId else s.Live other userId := by
  unfold enter
  rw [live_setConnection]
  split
  · simp
  · rfl

theorem live_leave {socket : Socket} {user : User} {other : Socket} {userId : UserId} :
    (s.leave socket user).Live other userId ↔ other ≠ socket ∧ s.Live other userId := by
  unfold leave
  rw [live_setConnection]
  split
  · rename_i h; simp [h]
  · rename_i h
    constructor
    · intro hl
      exact ⟨h, hl⟩
    · rintro ⟨-, hl⟩
      exact hl

theorem live_user {socket : Socket} {user : User} {userId : UserId} (hu : s.connections socket = some (.commands user))
    (hl : s.Live socket userId) : user.id = userId := by
  obtain ⟨user', hu', rfl⟩ := hl
  obtain rfl : user = user' := by simpa [hu] using hu'
  rfl

theorem live_ne {socket other : Socket} {user : User} {userId : UserId}
    (hu : s.connections socket = some (.response user)) (hl : s.Live other userId) : other ≠ socket := by
  rintro rfl
  obtain ⟨user', hu', -⟩ := hl
  rw [hu] at hu'
  cases hu'

/-- Whatever the slot held, it now holds the socket that enters, which is live. -/
theorem registered_enter {socket : Socket} {user : User} (hu : s.connections socket = some (.response user))
    (hr : s.Registered) : (s.enter socket user).Registered := by
  have hsockets : (s.enter socket user).state.sockets = Function.update s.state.sockets user.id (some socket) := rfl
  constructor
  all_goals rw [hsockets]
  · intro userId other hl
    by_cases hid : userId = user.id
    · subst hid
      exact ⟨socket, Function.update_self .., live_enter.2 (by simp)⟩
    · rw [live_enter] at hl
      split at hl
      · exact absurd hl.symm hid
      · obtain ⟨socket', h1, h2⟩ := hr.found userId other hl
        refine ⟨socket', by rw [Function.update_of_ne hid]; exact h1, live_enter.2 ?_⟩
        rw [if_neg (live_ne hu h2)]
        exact h2
  · intro userId hn
    have hid : userId ≠ user.id := fun hid => hn socket (live_enter.2 (by simp [hid]))
    rw [Function.update_of_ne hid]
    refine hr.absent userId fun other hl => hn other (live_enter.2 ?_)
    rw [if_neg (live_ne hu hl)]
    exact hl

/-- The slot is erased by user id, so it is right afterwards only if nobody else of the user is left. -/
theorem registered_leave {socket : Socket} {user : User} (hu : s.connections socket = some (.commands user))
    (hr : s.Registered) : (s.leave socket user).Registered ↔ ¬ s.LeavesOther (.leave socket) := by
  have hlive : s.Live socket user.id := ⟨user, hu, rfl⟩
  have hsockets : (s.leave socket user).state.sockets = Function.update s.state.sockets user.id none := rfl
  constructor
  · rintro hr' ⟨userId, other, hs, hl, hne⟩
    obtain rfl := live_user hu hs
    obtain ⟨socket', h, -⟩ := hr'.found user.id other (live_leave.2 ⟨hne, hl⟩)
    rw [hsockets, Function.update_self] at h
    cases h
  · intro hn
    constructor
    all_goals rw [hsockets]
    · intro userId other hl
      obtain ⟨hne, hl⟩ := live_leave.1 hl
      have hid : userId ≠ user.id := by
        rintro rfl
        exact hn ⟨user.id, other, hlive, hl, hne⟩
      obtain ⟨socket', h1, h2⟩ := hr.found userId other hl
      refine ⟨socket', by rw [Function.update_of_ne hid]; exact h1, live_leave.2 ⟨?_, h2⟩⟩
      rintro rfl
      exact hid (live_user hu h2).symm
    · intro userId hno
      by_cases hid : userId = user.id
      · subst hid
        exact Function.update_self ..
      · rw [Function.update_of_ne hid]
        refine hr.absent userId fun other hl => hno other (live_leave.2 ⟨?_, hl⟩)
        rintro rfl
        exact hid (live_user hu hl).symm

/-- What a step does to the connections: one is accepted, or one goes on or ends, or none changes. -/
theorem step_connections {s s' : Server} {e : ServerEvent} (h : s.step e = some s') :
    s' = s.accept ∨ s'.accepted = s.accepted ∧ (s'.connections = s.connections ∨
      ∃ socket c c', s.connections socket = some c ∧ s'.connections = Function.update s.connections socket c' ∧
        ((∃ user, c = .commands user) → c' = none)) := by
  cases e with
  | accept =>
    cases h
    exact .inl rfl
  | login socket username =>
    simp only [step] at h
    split at h
    · rename_i hl
      cases h
      obtain ⟨db, c, -, heq⟩ := s.processClientLogin_eq socket username
      rw [heq]
      exact .inr ⟨rfl, .inr ⟨socket, _, c, hl, rfl, fun ⟨_, hu⟩ => nomatch hu⟩⟩
    · cases h
  | abandon socket =>
    simp only [step] at h
    split at h
    · rename_i hl; cases h; exact .inr ⟨rfl, .inr ⟨socket, _, none, hl, rfl, fun _ => rfl⟩⟩
    · rename_i hl; cases h; exact .inr ⟨rfl, .inr ⟨socket, _, none, hl, rfl, fun _ => rfl⟩⟩
    · cases h
  | enter socket =>
    simp only [step] at h
    split at h
    · rename_i hl; cases h; exact .inr ⟨rfl, .inr ⟨socket, _, _, hl, rfl, fun ⟨_, hu⟩ => nomatch hu⟩⟩
    · cases h
  | request socket unixNow command =>
    simp only [step] at h
    split at h
    · obtain ⟨state, -, rfl⟩ := Option.map_eq_some_iff.1 h
      exact .inr ⟨rfl, .inl rfl⟩
    · cases h
  | leave socket =>
    simp only [step] at h
    split at h
    · rename_i hl; cases h; exact .inr ⟨rfl, .inr ⟨socket, _, none, hl, rfl, fun _ => rfl⟩⟩
    · cases h
  | notify =>
    simp only [step, notifyUsers] at h
    split at h
    · cases h
    · split at h
      · cases h; exact .inr ⟨rfl, .inl rfl⟩
      · cases h; exact .inr ⟨rfl, .inl rfl⟩
  | tick unixNow =>
    obtain ⟨state, -, rfl⟩ := Option.map_eq_some_iff.1 h
    exact .inr ⟨rfl, .inl rfl⟩

theorem fresh_step {s s' : Server} {e : ServerEvent} (hf : s.Fresh) (h : s.step e = some s') : s'.Fresh := by
  intro other ho
  rcases step_connections h with rfl | ⟨ha, heq | ⟨socket, c, c', hc, heq, -⟩⟩
  · have hne : other ≠ s.accepted := by rintro rfl; exact absurd ho (Nat.not_succ_le_self _)
    exact (Function.update_of_ne hne ..).trans (hf other ((Nat.le_succ _).trans ho))
  · rw [heq]
    exact hf other (ha ▸ ho)
  · have hnone := hf other (ha ▸ ho)
    have hne : other ≠ socket := by
      rintro rfl
      rw [hnone] at hc
      cases hc
    rw [heq, Function.update_of_ne hne]
    exact hnone

theorem accepted_step {s s' : Server} {e : ServerEvent} (h : s.step e = some s') : s.accepted ≤ s'.accepted := by
  rcases step_connections h with rfl | ⟨ha, -⟩
  · exact Nat.le_succ _
  · exact ha.ge

theorem lt_accepted {socket : Socket} {c : Coroutine} (hf : s.Fresh) (hc : s.connections socket = some c) :
    socket < s.accepted := by
  by_contra hle
  rw [hf socket (Nat.le_of_not_lt hle)] at hc
  cases hc

theorem entered_of_live {socket : Socket} {userId : UserId} (hf : s.Fresh) (h : s.Live socket userId) :
    s.Entered socket := by
  obtain ⟨user, hu, -⟩ := h
  refine ⟨lt_accepted hf hu, fun c hc => ?_⟩
  rw [hu] at hc
  exact ⟨user, (Option.some.inj hc).symm⟩

/-- A connection that was inside `process_user_commands` does not get another coroutine. -/
theorem entered_step {s s' : Server} {e : ServerEvent} {socket : Socket} (h : s.Entered socket)
    (hs : s.step e = some s') : s'.Entered socket := by
  refine ⟨h.1.trans_le (accepted_step hs), fun c hc => ?_⟩
  rcases step_connections hs with rfl | ⟨-, heq | ⟨other, c₁, c₂, hold, heq, hend⟩⟩
  · exact h.2 c ((Function.update_of_ne h.1.ne _ _).symm.trans hc)
  · exact h.2 c (heq ▸ hc)
  · rw [heq] at hc
    by_cases hne : socket = other
    · subst hne
      rw [Function.update_self, hend (h.2 c₁ hold)] at hc
      cases hc
    · rw [Function.update_of_ne hne] at hc
      exact h.2 c hc

theorem found_step {s s' : Server} {e : ServerEvent} (hf : s.Fresh) (h : s.Found) (hs : s.step e = some s') :
    s'.Found := by
  intro userId other ho
  rcases step_cases hf hs with ⟨socket, user, rfl, hu, rfl⟩ | ⟨socket, user, rfl, hu, rfl⟩ | ⟨-, hq⟩
  · rw [live_enter]
    replace ho : Function.update s.state.sockets user.id (some socket) userId = some other := ho
    by_cases hid : userId = user.id
    · subst hid
      rw [Function.update_self] at ho
      rw [if_pos (Option.some.inj ho).symm]
    · rw [Function.update_of_ne hid] at ho
      rw [if_neg (live_ne hu (h userId other ho))]
      exact h userId other ho
  · rw [live_leave]
    replace ho : Function.update s.state.sockets user.id none userId = some other := ho
    by_cases hid : userId = user.id
    · subst hid
      rw [Function.update_self] at ho
      cases ho
    · rw [Function.update_of_ne hid] at ho
      refine ⟨?_, h userId other ho⟩
      rintro rfl
      exact hid (live_user hu (h userId other ho)).symm
  · rw [hq.sockets] at ho
    exact (hq.live ..).2 (h userId other ho)

theorem registered_step {s s' : Server} {e : ServerEvent} (hf : s.Fresh) (hr : s.Registered) (h : s.step e = some s') :
    s'.Registered ↔ ¬ s.LeavesOther e := by
  rcases step_cases hf h with ⟨socket, user, rfl, hu, rfl⟩ | ⟨socket, user, rfl, hu, rfl⟩ | ⟨hne, hq⟩
  · exact iff_of_true (registered_enter hu hr) id
  · exact registered_leave hu hr
  · have hnot : ¬ s.LeavesOther e := by
      intro hl
      cases e with
      | leave socket => exact hne socket rfl
      | _ => exact hl
    refine iff_of_true ⟨fun userId socket hl => ?_, fun userId hn => ?_⟩ hnot
    · obtain ⟨socket', h1, h2⟩ := hr.found userId socket ((hq.live ..).1 hl)
      exact ⟨socket', by rw [hq.sockets]; exact h1, (hq.live ..).2 h2⟩
    · rw [hq.sockets]
      exact hr.absent userId fun socket hl => hn socket ((hq.live ..).2 hl)

/-- While the sessions are registered, a popped notification reaches a live connection of its user. -/
theorem notify_delivers {userId : UserId} {notification : ExecutedSellOrder} {rest : NotificationService}
    {socket : Socket} (hr : s.Registered) (hn : s.state.notifications = (userId, notification) :: rest)
    (hl : s.Live socket userId) : ∃ socket' s', s.Live socket' userId ∧ s.step .notify = some s' ∧
      s'.notified = s.notified ++ [(socket', notification)] := by
  obtain ⟨socket', h, hl'⟩ := hr.found userId socket hl
  exact ⟨socket', { s with state.notifications := rest, notified := s.notified ++ [(socket', notification)] }, hl',
    by simp only [step, notifyUsers, hn, h], rfl⟩

/-- The map of sockets finds every user with a live connection through one of them, and no other
user, throughout a run exactly when no connection of a user ends while another of the user is live. -/
theorem sockets_registered_iff (storage : Storage) (db : Database) (events : List ServerEvent) :
    Machine.Throughout step Registered (started storage db) events ↔
      Machine.AtEachStep step (fun s e => ¬ s.LeavesOther e) (started storage db) events := by
  have hfresh : (started storage db).Fresh := fun _ _ => rfl
  have hfirst : (started storage db).Registered := ⟨fun _ _ ⟨_, h, _⟩ => (nomatch h), fun _ _ => rfl⟩
  refine Machine.throughout_iff (fun _ _ _ hf h => fresh_step hf h) hfresh hfirst
    (fun _ _ _ hf hr h => registered_step hf hr h) (fun s e _ hl => ?_) events
  cases e with
  | leave socket =>
    obtain ⟨_, _, ⟨user, hu, -⟩, -⟩ := hl
    exact ⟨s.leave socket user, by simp only [step, hu]⟩
  | _ => exact hl.elim

/-- alice is logged in from two connections, and the first ends: she is no longer found. -/
theorem user_lost :
    let s₀ := started Storage.initial Database.initial
    let alice : StringView := some (text "alice")
    let events := [ServerEvent.accept, .accept, .login 0 alice, .login 1 alice, .enter 0, .enter 1, .leave 0]
    ∃ s, Machine.run step s₀ events = some s ∧ s.Live 1 1 ∧ s.state.sockets 1 = none ∧ ¬ s.Registered := by
  intro s₀ alice events
  have hrun : (Machine.run step s₀ events).map (fun s => (s.connections 1, s.state.sockets 1)) =
      some (some (.commands ⟨1, text "alice"⟩), none) := by decide +kernel
  obtain ⟨s, hs, h⟩ := Option.map_eq_some_iff.1 hrun
  simp only [Prod.mk.injEq] at h
  have hlive : s.Live 1 1 := ⟨_, h.1, rfl⟩
  refine ⟨s, hs, hlive, h.2, fun hr => ?_⟩
  obtain ⟨socket, h', -⟩ := hr.found 1 1 hlive
  rw [h.2] at h'
  cases h'

end Server

end AuctionHouse
