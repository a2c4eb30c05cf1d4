/-
What no input can do. Every input that a coroutine waits for is taken and answered, whatever its bytes
are, and touches no other connection. The one way to bring the server down from outside is to list the
orders while one of them expires at no date of SQLite.
-/
import AuctionHouse.Server.ListingText
import AuctionHouse.Server.Provenance

namespace AuctionHouse

/-- A request at a time from which an order expires at a Unix time before the year 10000. -/
def OutputEvent.Dated (e : OutputEvent) : Prop := ∀ socket unixNow request,
  e = .request socket unixNow request → AuctionHouse.Dated (unixNow + Command.orderLifetime)

namespace Output

variable (s : Output)

/-! ## Inputs -/

/-- An input, a second that has passed or the end of a connection, for which a coroutine waits. -/
def Awaits : OutputEvent → Prop
  | .accept | .tick _ => True
  | .login socket _ => s.connections socket = some .login ∧ (s.wires socket).outstanding .session = none
  | .request socket _ _ =>
    (∃ user, s.connections socket = some (.commands user)) ∧ (s.wires socket).outstanding .session = none
  | .abandon socket => s.connections socket = some .login ∨ ∃ user, s.connections socket = some (.response user)
  | .leave socket => ∃ user, s.connections socket = some (.commands user)
  | _ => False

/-- A listing of the orders while one expires at no date of SQLite. -/
def Undated : OutputEvent → Prop
  | .request _ _ request => (parseCommandName request).1 = text "view_sell_orders" ∧
    ∃ o ∈ s.state.db.sellOrders, datetime o.expirationTime = none
  | _ => False

/-- The connection of an input. -/
def target : OutputEvent → Option Socket
  | .accept => some s.accepted
  | .login socket _ | .request socket _ _ | .abandon socket | .leave socket => some socket
  | _ => none

/-- The connection that an input is answered on: there is no answer to `quit`. -/
def answered : OutputEvent → Option Socket
  | .accept => some s.accepted
  | .login socket _ => some socket
  | .request socket _ request => if (parseCommandName request).1 = text "quit" then none else some socket
  | _ => none

/-- The write of one message is started on the connection that is answered, a connection without an
answer ends, and the other connections and what is written to them stay as they are. -/
structure Served (e : OutputEvent) (s' : Output) : Prop where
  answer : ∃ message, (∀ other, s.starts other e = if s.answered e = some other then [message] else []) ∧
    ∀ socket, s.answered e = some socket → s'.wires socket = (s.wires socket).start .session message
  ends : ∀ socket, s.target e = some socket → s.answered e = none → s'.connections socket = none
  others : ∀ other, s.target e ≠ some other →
    s'.connections other = s.connections other ∧ s'.wires other = s.wires other

variable {s} {s' : Output} {e : OutputEvent}

/-! ## Which inputs are taken -/

/-- Only `quit` is left without an answer by its command. -/
theorem processRequest_quit (user : User) (unixNow : ℤ) (request : Bytes) (state : SharedState) :
    (processRequest user unixNow request state).1 = .quit ↔ (parseCommandName request).1 = text "quit" := by
  rw [← parseRequest_quit]
  constructor
  · intro h
    rcases hp : parseRequest request with name | name | command
    · have hother : ∀ command, parseRequest request ≠ .command command := by rw [hp]; rintro _ ⟨⟩
      obtain ⟨response, hr⟩ := processRequest_other user unixNow hother state
      rw [hr] at h
      cases h
    · have hother : ∀ command, parseRequest request ≠ .command command := by rw [hp]; rintro _ ⟨⟩
      obtain ⟨response, hr⟩ := processRequest_other user unixNow hother state
      rw [hr] at h
      cases h
    · rw [processRequest_command hp] at h
      cases command with
      | quit => rfl
      | viewItems =>
        obtain ⟨response, hr⟩ := executeViewItems_reply user state
        cases (congrArg Prod.fst hr).symm.trans h
      | viewSellOrders =>
        rcases executeViewSellOrders_reply state with ⟨response, hr⟩ | hr
        · cases (congrArg Prod.fst hr).symm.trans h
        · cases (congrArg Prod.fst hr).symm.trans h
      | ping => cases h
      | whoami => cases h
      | help => cases h
      | change command => cases h
  · intro hp
    rw [processRequest_command hp]
    rfl

theorem request_taken {socket : Socket} {unixNow : ℤ} {request : Bytes}
    (h : s.Awaits (.request socket unixNow request)) :
    (∃ s', s.step (.request socket unixNow request) = some s') ↔
      ¬ s.Undated (.request socket unixNow request) := by
  obtain ⟨⟨user, hu⟩, hidle⟩ := h
  have hends := Read.ends_iff user ⟨request, s.state, unixNow⟩
  have hquit := processRequest_quit user unixNow request s.state
  rcases hr : processRequest user unixNow request s.state with ⟨response | _ | _, state⟩
  · rw [hr] at hends
    refine iff_of_true ?_ fun hd => hends.1 ⟨response, rfl⟩ (.inr hd)
    simp only [step, hu, hidle, hr]
    exact ⟨_, rfl⟩
  · rw [hr] at hquit
    have hname := hquit.1 rfl
    refine iff_of_true ?_ ?_
    · simp only [step, hu, hidle, hr, onServer, Server.step]
      exact ⟨_, rfl⟩
    · rintro ⟨hview, -⟩
      rw [hname] at hview
      exact absurd hview (by decide +kernel)
  · rw [hr] at hends hquit
    refine iff_of_false ?_ (not_not.2 ?_)
    · simp only [step, hu, hidle, hr]
      rintro ⟨_, h⟩
      cases h
    · -- a request that is not answered and is not quit is the listing
      have hend : Read.Ends ⟨request, s.state, unixNow⟩ := by
        by_contra hne
        obtain ⟨_, h⟩ := hends.2 hne
        cases h
      rcases hend with hname | hd
      · cases hquit.2 hname
      · exact hd

/-- An input for which a coroutine waits is taken unless it is the listing of an order without a date. -/
theorem awaited_taken (hi : Invariant s.state.storage s.state.db.toTables) (h : s.Awaits e) :
    (∃ s', s.step e = some s') ↔ ¬ s.Undated e := by
  cases e with
  | accept => exact iff_of_true ⟨_, rfl⟩ id
  | login socket username =>
    refine iff_of_true ?_ id
    simp only [step, h.2, onServer, Server.step, h.1]
    exact ⟨_, rfl⟩
  | request socket unixNow request => exact request_taken h
  | abandon socket =>
    refine iff_of_true ?_ id
    rcases h with hc | ⟨user, hc⟩
    · simp only [step, hc, onServer, Server.step]
      exact ⟨_, rfl⟩
    · simp only [step, hc, onServer, Server.step]
      exact ⟨_, rfl⟩
  | leave socket =>
    obtain ⟨user, hc⟩ := h
    refine iff_of_true ?_ id
    simp only [step, onServer, Server.step, hc]
    exact ⟨_, rfl⟩
  | tick unixNow =>
    obtain ⟨state, _, hn, -⟩ := SharedState.next_booked hi (.tick unixNow)
    refine iff_of_true ?_ id
    simp only [step, onServer, Server.step, hn]
    exact ⟨_, rfl⟩
  | _ => exact h.elim

/-! ## What is done for an input -/

/-- An answer on one connection, which goes on as it may. -/
theorem Served.of_answer {socket : Socket} {message : Bytes} {c : Option Coroutine}
    (hanswered : s.answered e = some socket) (htarget : s.target e = some socket)
    (hstarts : ∀ other, s.starts other e = if other = socket then [message] else [])
    (hc : s'.connections = Function.update s.connections socket c)
    (hw : s'.wires = Function.update s.wires socket ((s.wires socket).start .session message)) : s.Served e s' := by
  refine ⟨⟨message, fun other => ?_, fun other hother => ?_⟩, fun _ _ hnone => ?_, fun other hne => ?_⟩
  · rw [hstarts, hanswered]
    simp only [Option.some.injEq, eq_comm]
  · rw [hanswered] at hother
    obtain rfl := Option.some.inj hother
    rw [hw, Function.update_self]
  · rw [hanswered] at hnone
    cases hnone
  · rw [htarget] at hne
    have hother : other ≠ socket := fun h => hne (by rw [h])
    rw [hc, hw, Function.update_of_ne hother, Function.update_of_ne hother]
    exact ⟨rfl, rfl⟩

/-- The end of one connection. -/
theorem Served.of_end {socket : Socket} {wire : Machine.Wire Writer UInt8} (hanswered : s.answered e = none)
    (htarget : s.target e = some socket) (hstarts : ∀ other, s.starts other e = [])
    (hc : s'.connections = Function.update s.connections socket none)
    (hw : s'.wires = Function.update s.wires socket wire) : s.Served e s' := by
  refine ⟨⟨[], fun other => ?_, fun _ hsome => ?_⟩, fun other hother _ => ?_, fun other hne => ?_⟩
  · rw [hstarts, hanswered]
    rfl
  · rw [hanswered] at hsome
    cases hsome
  · rw [htarget] at hother
    cases hother
    rw [hc, Function.update_self]
  · rw [htarget] at hne
    have hother : other ≠ socket := fun h => hne (by rw [h])
    rw [hc, hw, Function.update_of_ne hother, Function.update_of_ne hother]
    exact ⟨rfl, rfl⟩

theorem login_served {socket : Socket} {username : Bytes} (h : s.step (.login socket username) = some s') :
    s.Served (.login socket username) s' := by
  simp only [step] at h
  split at h
  · obtain ⟨s₁, h₁, rfl⟩ := Option.map_eq_some_iff.1 h
    obtain ⟨server, hs, rfl⟩ := onServer_some.1 h₁
    simp only [Server.step] at hs
    split at hs
    · obtain rfl := Option.some.inj hs
      obtain ⟨c, hc⟩ : ∃ c, (s.toServer.processClientLogin socket (some username)).connections =
          Function.update s.connections socket c := by
        rcases s.toServer.processClientLogin_cases socket (some username) with ⟨user, -, heq⟩ | heq
        · exact ⟨_, congrArg Server.connections heq⟩
        · exact ⟨_, congrArg Server.connections heq⟩
      exact .of_answer rfl rfl (fun _ => rfl) hc rfl
    · cases hs
  · cases h

theorem request_served {socket : Socket} {unixNow : ℤ} {request : Bytes}
    (h : s.step (.request socket unixNow request) = some s') : s.Served (.request socket unixNow request) s' := by
  obtain ⟨user, state, hu, -, h⟩ := step_request h
  have hquit := processRequest_quit user unixNow request s.state
  rcases h with ⟨response, hr, rfl⟩ | ⟨hr, h⟩
  · rw [hr] at hquit
    have hanswered : s.answered (.request socket unixNow request) = some socket :=
      if_neg fun hname => by cases hquit.2 hname
    have hstarts : ∀ other, s.starts other (.request socket unixNow request) =
        if other = socket then [response] else [] := by
      intro other
      simp only [starts, hu, hr]
    exact .of_answer hanswered rfl hstarts (Function.update_eq_self socket s.connections).symm rfl
  · rw [hr] at hquit
    obtain ⟨server, hs, rfl⟩ := onServer_some.1 h
    have hanswered : s.answered (.request socket unixNow request) = none := if_pos (hquit.1 rfl)
    simp only [Server.step, hu] at hs
    obtain rfl := Option.some.inj hs
    have hstarts : ∀ other, s.starts other (.request socket unixNow request) = [] := by
      intro other
      simp only [starts, hu, hr]
    exact .of_end hanswered rfl hstarts rfl (Function.update_eq_self socket s.wires).symm

theorem abandon_served {socket : Socket} (h : s.Awaits (.abandon socket)) (hs : s.step (.abandon socket) = some s') :
    s.Served (.abandon socket) s' := by
  simp only [step] at hs
  split at hs
  · rename_i hnone
    rcases h with hc | ⟨user, hc⟩
    · rw [hnone] at hc
      cases hc
    · rw [hnone] at hc
      cases hc
  · obtain ⟨s₁, h₁, rfl⟩ := Option.map_eq_some_iff.1 hs
    obtain ⟨server, hserver, rfl⟩ := onServer_some.1 h₁
    simp only [Server.step] at hserver
    split at hserver
    · obtain rfl := Option.some.inj hserver
      exact .of_end rfl rfl (fun _ => rfl) rfl rfl
    · obtain rfl := Option.some.inj hserver
      exact .of_end rfl rfl (fun _ => rfl) rfl rfl
    · cases hserver

theorem leave_served {socket : Socket} (hs : s.step (.leave socket) = some s') : s.Served (.leave socket) s' := by
  obtain ⟨s₁, h₁, rfl⟩ := Option.map_eq_some_iff.1 hs
  obtain ⟨server, hserver, rfl⟩ := onServer_some.1 h₁
  simp only [Server.step] at hserver
  split at hserver
  · obtain rfl := Option.some.inj hserver
    exact .of_end rfl rfl (fun _ => rfl) rfl rfl
  · cases hserver

/-- An input that is taken is answered on its connection, and the others are left alone. -/
theorem awaited_served (h : s.Awaits e) (hs : s.step e = some s') : s.Served e s' := by
  cases e with
  | accept =>
    simp only [step] at hs
    obtain ⟨s₁, h₁, rfl⟩ := Option.map_eq_some_iff.1 hs
    obtain ⟨server, hserver, rfl⟩ := onServer_some.1 h₁
    obtain rfl := Option.some.inj hserver
    exact .of_answer rfl rfl (fun _ => rfl) rfl rfl
  | login socket username => exact login_served hs
  | request socket unixNow request => exact request_served hs
  | abandon socket => exact abandon_served h hs
  | leave socket => exact leave_served hs
  | tick unixNow =>
    obtain ⟨server, hserver, rfl⟩ := onServer_some.1 hs
    obtain ⟨state, -, rfl⟩ := Option.map_eq_some_iff.1 hserver
    exact ⟨⟨[], fun _ => rfl, fun _ h => by cases h⟩, (fun _ h => by cases h), fun _ _ => ⟨rfl, rfl⟩⟩
  | _ => exact h.elim

/-! ## Runs -/

/-- Orders that were placed at such times have a date. -/
theorem not_undated {events : List OutputEvent}
    (h : Machine.run step (started Storage.initial Database.initial) events = some s)
    (hclock : ∀ e ∈ events, e.Dated) (e : OutputEvent) : ¬ s.Undated e := by
  cases e with
  | request socket unixNow request =>
    rintro ⟨-, o, ho, hdate⟩
    -- its seller asked for the order in the run
    obtain ⟨before, asked, after, rfl, hoffer, -⟩ := ((run_accounted h).orders o ho).offered
    cases hoffer with
    | @sell unixNow orderType r quantity price hasks _ _ _ hexpires =>
      cases hasks with
      | request _ _ _ _ =>
        obtain ⟨date, hd⟩ := datetime_of_dated
          (hclock _ (List.mem_append_right _ List.mem_cons_self) _ unixNow _ rfl)
        rw [hexpires, hd] at hdate
        cases hdate
  | _ => exact id

/-- Whatever came in before, every input for which a coroutine waits is taken unless it lists an order
without a date; it is answered by one message on its connection, or ends it, and leaves all others as
they are. And where requests came at times before the year 10000, no order is without a date. -/
theorem inputs_served (events : List OutputEvent) {s : Output}
    (h : Machine.run step (started Storage.initial Database.initial) events = some s) :
    (∀ e, s.Awaits e → ((∃ s', s.step e = some s') ↔ ¬ s.Undated e)) ∧
      (∀ e s', s.Awaits e → s.step e = some s' → s.Served e s') ∧
      ((∀ e ∈ events, e.Dated) → ∀ e, ¬ s.Undated e) := by
  obtain ⟨hst, hi⟩ := run_invariant h
  exact ⟨fun e he => awaited_taken (hst ▸ hi) he, fun e s' he hs => awaited_served he hs, not_undated h⟩

/-- alice sells a sword when its order cannot have a date. -/
def undatedRun : List OutputEvent := swordRun ++ [.request 0 253402300800 (text "sell sword 20"), .write 0 256]

/-- Her first sale is listed, and the listing of the other is not taken. -/
theorem inputs_served_sell :
    (∃ s s', Machine.run step (started Storage.initial Database.initial) sellRun = some s ∧
      s.step (.request 0 0 (text "view_sell_orders")) = some s' ∧
      s.Served (.request 0 0 (text "view_sell_orders")) s') ∧
    ∃ s, Machine.run step (started Storage.initial Database.initial) undatedRun = some s ∧
      ¬ ∃ s', s.step (.request 0 0 (text "view_sell_orders")) = some s' := by
  constructor
  · have hrun : (Machine.run step (started Storage.initial Database.initial) sellRun).map
        (fun s => (s.connections 0, (s.wires 0).outstanding .session)) =
        some (some (.commands ⟨1, text "alice"⟩), none) := by decide +kernel
    obtain ⟨s, hs, h⟩ := Option.map_eq_some_iff.1 hrun
    obtain ⟨hc, hidle⟩ := Prod.mk.inj h
    obtain ⟨htaken, hserved, hdated⟩ := inputs_served sellRun hs
    have hawaits : s.Awaits (.request 0 0 (text "view_sell_orders")) := ⟨⟨_, hc⟩, hidle⟩
    have hclock : ∀ e ∈ sellRun, e.Dated := by
      have hrequest : ∀ request, OutputEvent.Dated (.request 0 0 request) := by
        rintro request _ _ _ ⟨⟩
        constructor <;> decide
      simp only [sellRun, swordRun, depositRun, List.cons_append, List.nil_append, List.forall_mem_cons]
      refine ⟨?_, ?_, ?_, ?_, ?_, hrequest _, ?_, hrequest _, ?_, hrequest _, ?_, fun _ h => by cases h⟩
      all_goals rintro _ _ _ ⟨⟩
    obtain ⟨s', hs'⟩ := (htaken _ hawaits).2 (hdated hclock _)
    exact ⟨s, s', hs, hs', hserved _ _ hawaits hs'⟩
  · have hrun : (Machine.run step (started Storage.initial Database.initial) undatedRun).map
        (fun s => (s.connections 0, (s.wires 0).outstanding .session, s.state.db.sellOrders)) =
        some (some (.commands ⟨1, text "alice"⟩), none, [⟨1, 1, 2, 1, 20, 253402301100, some 1⟩]) := by
      decide +kernel
    obtain ⟨s, hs, h⟩ := Option.map_eq_some_iff.1 hrun
    simp only [Prod.mk.injEq] at h
    obtain ⟨hc, hidle, horders⟩ := h
    have hawaits : s.Awaits (.request 0 0 (text "view_sell_orders")) := ⟨⟨_, hc⟩, hidle⟩
    have hundated : s.Undated (.request 0 0 (text "view_sell_orders")) := by
      refine ⟨by decide +kernel, ⟨1, 1, 2, 1, 20, 253402301100, some 1⟩, ?_, by decide +kernel⟩
      rw [horders]
      exact List.mem_singleton_self _
    exact ⟨s, hs, fun htaken => ((inputs_served undatedRun hs).1 _ hawaits).1 htaken hundated⟩

end Output

end AuctionHouse
