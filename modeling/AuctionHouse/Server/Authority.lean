/-
In whose name the server acts. A connection gets its user from the one login on it, whose bytes are
the name of that user, and only requests on it act in that name: every deal of a user, and every
decrease of what a user holds, comes from a request on a connection that sent the user's name first.
-/
import AuctionHouse.Machine.Past
import AuctionHouse.Server.Layers
import AuctionHouse.Store.Identity
import AuctionHouse.Store.Protection

namespace AuctionHouse

/-! ## Operations -/

/-- The party of a deal issued the operation. -/
theorem Explains.issuer_of_party {st : Storage} {t : Tables} {operation : Operation} {reply : Except Error Reply}
    {d : Deal ℤ ℤ} (h : Explains st t operation reply d) {v : ℤ} (hv : d.party = some v) :
    ∃ userId : UserId, operation.issuer = some userId ∧ userId.toInt = v := by
  cases h with
  | login => cases hv
  | failed => cases hv
  | unreported => cases hv
  | settle => cases hv
  | deposit => exact ⟨_, rfl, Option.some.inj hv⟩
  | withdraw => exact ⟨_, rfl, Option.some.inj hv⟩
  | place => exact ⟨_, rfl, Option.some.inj hv⟩
  | purchase => exact ⟨_, rfl, Option.some.inj hv⟩
  | bid => exact ⟨_, rfl, Option.some.inj hv⟩

/-- What a user holds decreases only by a deal of the user. -/
theorem Dealt.party_of_lt {st : Storage} {db db' : Database} {d : Deal ℤ ℤ} (hi : Invariant st db.toTables)
    (h : Dealt st db.toTables db'.toTables d) {v itemId : ℤ} (hlt : db'.balance v itemId < db.balance v itemId) :
    d.party = some v := by
  by_contra hv
  have hw := market_wf db.valid hi
  rw [h.balance, Market.delta_eq_gains hw h.allowed hv] at hlt
  have hgains : 0 ≤ (db.market.book.map fun o => d.gain st.fundsItemId.toInt o v itemId).sum := by
    refine List.sum_nonneg fun a ha => ?_
    obtain ⟨o, ho, rfl⟩ := List.mem_map.1 ha
    exact Market.gain_nonneg hw ho v itemId
  omega

/-! ## Connections -/

/-- The user of a connection that is logged in. -/
def Coroutine.user : Coroutine → Option User
  | .login => none
  | .response user => some user
  | .commands user => some user

namespace Server

variable {s s' : Server} {e : ServerEvent}

/-- A login makes the connection that of the user it replies, or closes it. -/
theorem processClientLogin_cases (s : Server) (socket : Socket) (username : StringView) :
    let db := Call.next s.state.storage ⟨.login username, []⟩ s.state.db
    (∃ user, Call.reply s.state.storage ⟨.login username, []⟩ s.state.db = .ok (.user user) ∧
      s.processClientLogin socket username =
        ({ s with state.db := db } : Server).setConnection socket (some (.response user))) ∨
    s.processClientLogin socket username = ({ s with state.db := db } : Server).setConnection socket none := by
  simp only [processClientLogin, SharedState.onStorage, login_reply, login_next]
  rcases UserService.login s.state.storage username (Sql.Connection.idle s.state.db) with ⟨user, c⟩ | ⟨error, c⟩
  · exact .inl ⟨user, rfl, rfl⟩
  · exact .inr rfl

/-- A step of the server in the name of the users of its connections. -/
structure Acts (s s' : Server) (e : ServerEvent) (d : Deal ℤ ℤ) : Prop where
  storage : s'.state.storage = s.state.storage
  dealt : Dealt s.state.storage s.state.db.toTables s'.state.db.toTables d
  users : UsersLast s.state.db.toTables s'.state.db.toTables
  party : ∀ v, d.party = some v → ∃ socket unixNow command user, e = .request socket unixNow command ∧
    s.connections socket = some (.commands user) ∧ user.id.toInt = v

theorem acts_next (hi : Invariant s.state.storage s.state.db.toTables) {event : Event}
    (hn : s.state.next event = some s'.state)
    (hissuer : ∀ userId, event.operation.issuer = some userId → ∃ socket unixNow command user,
      e = .request socket unixNow command ∧ s.connections socket = some (.commands user) ∧ user.id = userId) :
    ∃ d, Acts s s' e d := by
  obtain ⟨d, hb⟩ := SharedState.booked_of_next hi hn
  refine ⟨d, hb.storage, hb.dealt, ?_, fun v hv => ?_⟩
  · rw [SharedState.next_db hn]
    exact usersLast_next hi _
  · obtain ⟨userId, hop, rfl⟩ := hb.explains.issuer_of_party hv
    obtain ⟨socket, unixNow, command, user, he, hu, rfl⟩ := hissuer userId hop
    exact ⟨socket, unixNow, command, user, he, hu, rfl⟩

theorem acts_quiet (hi : Invariant s.state.storage s.state.db.toTables)
    (hb : SharedState.SameBooks s'.state s.state) : ∃ d, Acts s s' e d := by
  refine ⟨.nothing, hb.storage, ?_, ?_, fun v hv => ?_⟩
  · rw [hb.db]
    exact (Unchanged.refl _).nothing hi
  · rw [hb.db]
    exact .refl _
  · cases hv

theorem step_acts (hi : Invariant s.state.storage s.state.db.toTables) (h : s.step e = some s') :
    ∃ d, Acts s s' e d := by
  cases step_moves h with
  | login hn => exact acts_next hi hn fun _ hu => by cases hu
  | tick hn => exact acts_next hi hn fun _ hu => by cases hu
  | @request socket unixNow command user hu hn =>
    refine acts_next hi hn fun userId hop => ⟨socket, unixNow, command, user, rfl, hu, ?_⟩
    rcases command with _ | _ | _ | ⟨_, _ | _⟩ <;> exact Option.some.inj hop
  | notify _ hb => exact acts_quiet hi hb
  | quiet _ _ hb => exact acts_quiet hi hb

/-- What a connection that is open after a step was before it. -/
inductive Becomes (s s' : Server) (e : ServerEvent) (socket : Socket) : Coroutine → Prop
  | stays {c : Coroutine} (h : s.connections socket = some c) (hne : ∀ username, e ≠ .login socket username) :
    Becomes s s' e socket c
  | accepted (he : e = .accept) (hs : socket = s.accepted) : Becomes s s' e socket .login
  | loggedIn {username : StringView} {user : User} (he : e = .login socket username)
    (h : s.connections socket = some .login)
    (hdb : s'.state.db = Call.next s.state.storage ⟨.login username, []⟩ s.state.db)
    (hr : Call.reply s.state.storage ⟨.login username, []⟩ s.state.db = .ok (.user user)) :
    Becomes s s' e socket (.response user)
  | entered {user : User} (he : e = .enter socket) (h : s.connections socket = some (.response user)) :
    Becomes s s' e socket (.commands user)

/-- One connection goes on or ends, and the others stay. -/
theorem becomes_update {other socket : Socket} {c : Coroutine} {c' : Option Coroutine}
    (hc : s'.connections socket = some c) (heq : s'.connections = Function.update s.connections other c')
    (hne : socket ≠ other → ∀ username, e ≠ .login socket username)
    (hother : ∀ c₁, c' = some c₁ → Becomes s s' e other c₁) : Becomes s s' e socket c := by
  rw [heq] at hc
  by_cases hso : socket = other
  · subst hso
    rw [Function.update_self] at hc
    exact hother c hc
  · rw [Function.update_of_ne hso] at hc
    exact .stays hc (hne hso)

theorem step_becomes (h : s.step e = some s') {socket : Socket} {c : Coroutine}
    (hc : s'.connections socket = some c) : Becomes s s' e socket c := by
  cases e with
  | login other username =>
    simp only [step] at h
    split at h
    · rename_i hlogin
      cases h
      have hne : socket ≠ other → ∀ username', ServerEvent.login other username ≠ .login socket username' := by
        rintro hso username' ⟨⟩
        exact hso rfl
      rcases s.processClientLogin_cases other username with ⟨user, hr, heq⟩ | heq
      · refine becomes_update hc (congrArg connections heq) hne fun c₁ hc₁ => ?_
        cases hc₁
        exact .loggedIn rfl hlogin (by rw [heq]; rfl) hr
      · exact becomes_update hc (congrArg connections heq) hne fun _ => by rintro ⟨⟩
    · cases h
  | accept =>
    cases h
    exact becomes_update hc rfl (fun _ => by rintro _ ⟨⟩) fun _ hc₁ => by cases hc₁; exact .accepted rfl rfl
  | abandon other =>
    simp only [step] at h
    split at h
    · cases h; exact becomes_update hc rfl (fun _ => by rintro _ ⟨⟩) fun _ => by rintro ⟨⟩
    · cases h; exact becomes_update hc rfl (fun _ => by rintro _ ⟨⟩) fun _ => by rintro ⟨⟩
    · cases h
  | enter other =>
    simp only [step] at h
    split at h
    · rename_i user hother
      cases h
      exact becomes_update hc rfl (fun _ => by rintro _ ⟨⟩) fun _ hc₁ => by cases hc₁; exact .entered rfl hother
    · cases h
  | request other unixNow command =>
    simp only [step] at h
    split at h
    · obtain ⟨state, -, rfl⟩ := Option.map_eq_some_iff.1 h
      exact .stays hc (by rintro _ ⟨⟩)
    · cases h
  | leave other =>
    simp only [step] at h
    split at h
    · cases h; exact becomes_update hc rfl (fun _ => by rintro _ ⟨⟩) fun _ => by rintro ⟨⟩
    · cases h
  | notify =>
    simp only [step, notifyUsers] at h
    split at h
    · cases h
    · split at h
      · cases h; exact .stays hc (by rintro _ ⟨⟩)
      · cases h; exact .stays hc (by rintro _ ⟨⟩)
  | tick unixNow =>
    obtain ⟨state, -, rfl⟩ := Option.map_eq_some_iff.1 h
    exact .stays hc (by rintro _ ⟨⟩)

/-- Only a connection that waits for a name logs in. -/
theorem login_waits {socket : Socket} {username : StringView} (h : s.step (.login socket username) = some s') :
    s.connections socket = some .login := by
  simp only [step] at h
  split at h
  · assumption
  · cases h

end Server

/-! ## Streams -/

/-- The names that are sent on a connection. -/
def OutputEvent.names (socket : Socket) (events : List OutputEvent) : List Bytes := events.filterMap fun
  | .login other username => if other = socket then some username else none
  | _ => none

namespace Output

open OutputEvent (names)

/-- Every user of a connection is there, and the one name the connection sent is the user's. -/
structure Authentic (events : List OutputEvent) (s : Output) : Prop where
  storage : s.state.storage = Storage.initial
  invariant : Invariant Storage.initial s.state.db.toTables
  fresh : s.Fresh
  waits : ∀ socket, s.accepted ≤ socket ∨ s.connections socket = some .login → names socket events = []
  user : ∀ socket c user, s.connections socket = some c → c.user = some user →
    names socket events = [user.username] ∧ ∃ u ∈ s.state.db.users, u.username = user.username ∧ u.id = user.id.toInt

variable {s s' : Output} {events : List OutputEvent} {e : OutputEvent}

theorem names_concat (socket : Socket) (events : List OutputEvent) (e : OutputEvent) :
    names socket (events ++ [e]) = names socket events ++ names socket [e] := List.filterMap_append

theorem names_of_ne {socket : Socket} (he : ∀ name, e ≠ .login socket name) : names socket [e] = [] := by
  cases e with
  | login other name =>
    have hne : other ≠ socket := fun h => he name (by rw [h])
    simp [names, hne]
  | _ => rfl

/-- An event that sends no name. -/
theorem names_keep {socket : Socket} (he : ∀ name, e ≠ .login socket name) :
    names socket (events ++ [e]) = names socket events := by
  rw [names_concat, names_of_ne he, List.append_nil]

theorem Authentic.same (ha : Authentic events s) (hsame : s'.toServer = s.toServer)
    (he : ∀ socket name, e ≠ .login socket name) : Authentic (events ++ [e]) s' := by
  refine ⟨hsame ▸ ha.storage, hsame ▸ ha.invariant, hsame ▸ ha.fresh, fun socket hs => ?_,
    fun socket c user hc hu => ?_⟩
  · rw [names_keep (he socket)]
    exact ha.waits socket (hsame ▸ hs)
  · rw [hsame] at hc ⊢
    rw [names_keep (he socket)]
    exact ha.user socket c user hc hu

/-- A connection that stays has sent what it sent. -/
theorem Authentic.caused (ha : Authentic events s) {e' : ServerEvent} (hcauses : e.Causes e')
    (h : s.toServer.step e' = some s'.toServer) {d : Deal ℤ ℤ} (hacts : Server.Acts s.toServer s'.toServer e' d) :
    Authentic (events ++ [e]) s' := by
  have hi : Invariant s.state.storage s.state.db.toTables := ha.storage ▸ ha.invariant
  have hdealt := hacts.dealt
  rw [ha.storage] at hdealt
  have hkeep : ∀ {socket : Socket}, (∀ username, e' ≠ .login socket username) →
      names socket (events ++ [e]) = names socket events := by
    intro socket hne
    refine names_keep fun name he => ?_
    subst he
    cases hcauses
    exact hne _ rfl
  refine ⟨hacts.storage.trans ha.storage, hdealt.invariant, Server.fresh_step ha.fresh h, ?_, ?_⟩
  · rintro socket (hs | hs)
    · -- nothing is sent on a connection that is not accepted yet
      have hs' := (Server.accepted_step h).trans hs
      rw [hkeep, ha.waits socket (.inl hs')]
      rintro username rfl
      have hw := Server.login_waits h
      rw [ha.fresh socket hs'] at hw
      cases hw
    · cases Server.step_becomes h hs with
      | stays hc hne =>
        rw [hkeep hne]
        exact ha.waits socket (.inr hc)
      | accepted he hnew =>
        subst he
        rw [hkeep (by rintro _ ⟨⟩)]
        exact ha.waits socket (.inl hnew.ge)
  · intro socket c user hc hu
    cases Server.step_becomes h hc with
    | stays hc hne =>
      rw [hkeep hne]
      exact (ha.user socket c user hc hu).imp id fun ⟨u, hm, hu'⟩ => ⟨u, hacts.users.mem hm, hu'⟩
    | accepted => cases hu
    | entered he hresponse =>
      subst he
      cases hu
      rw [hkeep (by rintro _ ⟨⟩)]
      exact (ha.user socket _ user hresponse rfl).imp id fun ⟨u, hm, hu'⟩ => ⟨u, hacts.users.mem hm, hu'⟩
    | loggedIn he hwaits hdb hr =>
      subst he
      cases hu
      obtain ⟨u, hm, hname, rfl⟩ := login_row hi hr
      rw [← hdb] at hm
      cases hcauses
      cases hname
      refine ⟨?_, u, hm, rfl, (fits_user s'.state.db.valid ⟨u, hm, rfl⟩).symm⟩
      rw [names_concat, ha.waits socket (.inr hwaits)]
      simp [names]

/-- A step on the streams, as a deal of the users of the connections. -/
theorem Authentic.acts (ha : Authentic events s) (h : s.step e = some s') :
    ∃ d, Dealt Storage.initial s.state.db.toTables s'.state.db.toTables d ∧ Authentic (events ++ [e]) s' ∧
      ∀ v, d.party = some v → ∃ socket unixNow request, ∃ u ∈ s.state.db.users,
        e = .request socket unixNow request ∧ u.id = v ∧ names socket events = [u.username] := by
  rcases step_causes h with ⟨hsame, he⟩ | ⟨e', hcauses, hs⟩
  · refine ⟨.nothing, ?_, ha.same hsame he, fun v hv => ?_⟩
    · rw [hsame]
      exact (Unchanged.refl _).nothing ha.invariant
    · cases hv
  · obtain ⟨d, hacts⟩ := Server.step_acts (ha.storage ▸ ha.invariant) hs
    have hdealt := hacts.dealt
    rw [ha.storage] at hdealt
    refine ⟨d, hdealt, ha.caused hcauses hs hacts, fun v hv => ?_⟩
    obtain ⟨socket, unixNow, command, user, rfl, hu, rfl⟩ := hacts.party v hv
    obtain ⟨hnames, u, hm, hname, hid⟩ := ha.user socket _ user hu rfl
    cases hcauses
    exact ⟨socket, unixNow, _, u, hm, rfl, hid, hname ▸ hnames⟩

theorem run_authentic {events : List OutputEvent} {s : Output}
    (h : Machine.run step (started Storage.initial Database.initial) events = some s) : Authentic events s := by
  refine Machine.run_past (P := Authentic) ?_ (fun events s e s' _ ha hs => ?_) h
  · exact ⟨rfl, initial_invariant, fun _ _ => rfl, fun _ _ => rfl, fun _ _ _ h => by cases h⟩
  · obtain ⟨_, -, ha', -⟩ := ha.acts hs
    exact ha'

/-- Whatever happens on the streams, a deal in a user's name, and any decrease of what a user holds,
comes from a request on a connection that sent the user's name, and no other. -/
theorem authorised (events : List OutputEvent) (e : OutputEvent) {s s' : Output}
    (hs : Machine.run step (started Storage.initial Database.initial) events = some s) (h : s.step e = some s') :
    ∃ d, Dealt Storage.initial s.state.db.toTables s'.state.db.toTables d ∧
      (∀ v, d.party = some v → ∃ socket unixNow request, ∃ u ∈ s.state.db.users,
        e = .request socket unixNow request ∧ u.id = v ∧ names socket events = [u.username]) ∧
      ∀ v itemId, s'.state.db.balance v itemId < s.state.db.balance v itemId → d.party = some v := by
  have ha := run_authentic hs
  obtain ⟨d, hd, -, hparty⟩ := ha.acts h
  exact ⟨d, hd, hparty, fun v itemId => hd.party_of_lt ha.invariant⟩

/-- alice withdraws from her ten funds. -/
theorem authorised_withdraw : ∃ s s', Machine.run step (started Storage.initial Database.initial) depositRun = some s ∧
    s.step (.request 0 0 (text "withdraw funds 4")) = some s' ∧ s'.state.db.balance 1 1 < s.state.db.balance 1 1 ∧
    ∃ socket, ∃ u ∈ s.state.db.users, u.id = 1 ∧ names socket depositRun = [u.username] := by
  have hrun : ((Machine.run step (started Storage.initial Database.initial) depositRun).bind fun s =>
      (s.step (.request 0 0 (text "withdraw funds 4"))).map fun s' =>
        (s'.state.db.balance 1 1, s.state.db.balance 1 1)) = some (6, 10) := by decide +kernel
  obtain ⟨s, hs, hrun⟩ := Option.bind_eq_some_iff.1 hrun
  obtain ⟨s', hs', hb⟩ := Option.map_eq_some_iff.1 hrun
  obtain ⟨hb', hb⟩ := Prod.mk.inj hb
  have hlt : s'.state.db.balance 1 1 < s.state.db.balance 1 1 := by rw [hb, hb']; decide
  obtain ⟨d, -, hparty, hdecrease⟩ := authorised depositRun _ hs hs'
  obtain ⟨socket, _, _, u, hu, -, hid, hnames⟩ := hparty 1 (hdecrease 1 1 hlt)
  exact ⟨s, s', hs, hs', hlt, socket, u, hu, hid, hnames⟩

end Output

end AuctionHouse
