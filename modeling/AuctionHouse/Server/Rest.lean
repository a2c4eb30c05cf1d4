/-
The coroutines are never stuck. Whatever has happened, as long as nothing new comes in they finish every
write and notify every seller who is left, in whichever order they go on, and they do not touch the books.
-/
import AuctionHouse.Machine.Rest
import AuctionHouse.Server.Layers

namespace AuctionHouse

/-- A coroutine that ends leaves the queue alone. -/
theorem Server.step_ends {s s' : Server} {socket : Socket}
    (h : s.step (.abandon socket) = some s' ∨ s.step (.leave socket) = some s') :
    s'.state.notifications = s.state.notifications ∧ s'.accepted = s.accepted := by
  rcases h with h | h
  · simp only [step] at h
    split at h
    · cases h; exact ⟨rfl, rfl⟩
    · cases h; exact ⟨rfl, rfl⟩
    · cases h
  · simp only [step] at h
    split at h
    · cases h; exact ⟨rfl, rfl⟩
    · cases h

namespace Output

open Machine (Wire)

variable (s : Output)

/-! ## What is pending -/

/-- What is left to write: of the notifications in the queue, and of both writers on each socket. -/
def pending : ℕ :=
  (s.state.notifications.map fun n => n.2.message.length + 2).sum +
    ∑ socket ∈ Finset.range s.accepted, ((s.wires socket).left .session + (s.wires socket).left .notifier)

/-- No seller is left to be notified and no write is outstanding. -/
structure AtRest : Prop where
  queue : s.state.notifications = []
  notifying : s.notifying = none
  idle : ∀ socket writer, (s.wires socket).outstanding writer = none

/-- Events that get on with what is pending. A coroutine whose write fails ends. -/
def Finishes : OutputEvent → Prop
  | .write _ _ | .writeNotification _ | .failNotification | .notify => True
  | .abandon socket | .leave socket => (s.wires socket).outstanding .session ≠ none
  | _ => False

/-- A write fails although its stream is in order. -/
def Fails : OutputEvent → Prop
  | .failNotification => ∃ socket, s.notifying = some socket ∧ (s.wires socket).broken = false
  | .abandon socket | .leave socket => (s.wires socket).broken = false
  | _ => False

/-- `notify_users` waits only for a write that is outstanding. -/
def Waits : Prop := ∀ socket, s.notifying = some socket → (s.wires socket).outstanding .notifier ≠ none

variable {s} {s' : Output} {e : OutputEvent}

theorem accepted_of_outstanding (ha : s.Attached) {socket : Socket} {writer : Writer}
    (h : (s.wires socket).outstanding writer ≠ none) : socket < s.accepted := by
  by_contra hle
  rw [ha.unopened socket (not_lt.1 hle)] at h
  exact h rfl

/-- The write of a notification goes on while other writes start or end. -/
theorem Waits.update (hw : s.Waits) (hn : s'.notifying = s.notifying) {socket : Socket} {wire : Wire Writer UInt8}
    (hwires : s'.wires = Function.update s.wires socket wire)
    (hsame : wire.outstanding .notifier = (s.wires socket).outstanding .notifier) : s'.Waits := by
  intro other ho
  rw [hn] at ho
  have hother := hw other ho
  rw [hwires]
  by_cases hne : other = socket
  · subst hne
    rw [Function.update_self, hsame]
    exact hother
  · rw [Function.update_of_ne hne]
    exact hother

theorem Waits.onServer (hw : s.Waits) {e : ServerEvent} (h : s.onServer e = some s') : s'.Waits := by
  obtain ⟨server, -, rfl⟩ := onServer_some.1 h
  exact hw

theorem Waits.asyncWrite (hw : s.Waits) (socket : Socket) (message : Bytes) :
    (s.asyncWrite socket .session message).Waits :=
  hw.update rfl rfl (Wire.outstanding_start_of_ne (by decide) message)

theorem Waits.close (hw : s.Waits) (socket : Socket) : (s.close socket).Waits :=
  hw.update rfl rfl (Wire.outstanding_fail _ (by decide))

theorem Waits.step (hw : s.Waits) (h : s.step e = some s') : s'.Waits := by
  cases e with
  | accept =>
    simp only [Output.step] at h
    obtain ⟨s₁, h₁, rfl⟩ := Option.map_eq_some_iff.1 h
    exact (hw.onServer h₁).asyncWrite _ _
  | login socket username =>
    simp only [Output.step] at h
    split at h
    · obtain ⟨s₁, h₁, rfl⟩ := Option.map_eq_some_iff.1 h
      exact (hw.onServer h₁).asyncWrite _ _
    · cases h
  | abandon socket =>
    simp only [Output.step] at h
    split at h
    · cases h
      exact hw.close socket
    · obtain ⟨s₁, h₁, rfl⟩ := Option.map_eq_some_iff.1 h
      exact (hw.onServer h₁).close socket
  | enter socket =>
    simp only [Output.step] at h
    split at h
    · exact hw.onServer h
    · cases h
  | request socket unixNow request =>
    obtain ⟨user, state, -, -, ⟨response, -, rfl⟩ | ⟨-, hs⟩⟩ := step_request h
    · exact Waits.asyncWrite (s := { s with state }) hw _ _
    · exact Waits.onServer (s := { s with state }) hw hs
  | leave socket =>
    obtain ⟨s₁, h₁, rfl⟩ := Option.map_eq_some_iff.1 h
    exact (hw.onServer h₁).close socket
  | tick unixNow => exact hw.onServer h
  | notify =>
    simp only [Output.step, notifyUsers] at h
    split at h
    · rename_i userId notification rest hfree hqueue
      obtain ⟨s₁, h₁, rfl⟩ := Option.map_eq_some_iff.1 h
      split
      · rename_i socket hsocket
        intro other ho
        obtain rfl := Option.some.inj ho
        simp only [Output.asyncWrite, setWire, Function.update_self, Wire.outstanding_start]
        exact Option.some_ne_none _
      · exact hw.onServer h₁
    · cases h
  | write socket n =>
    obtain ⟨wire, hwrite, rfl⟩ := Option.map_eq_some_iff.1 h
    exact hw.update rfl rfl ((Wire.outstanding_write hwrite).2 _ (by decide))
  | writeNotification n =>
    simp only [Output.step] at h
    split at h
    · rename_i socket hs
      obtain ⟨wire, hwrite, rfl⟩ := Option.map_eq_some_iff.1 h
      intro other ho
      simp only at ho
      split at ho
      · rename_i hmore
        obtain rfl := Option.some.inj ho
        simp only [setWire, Function.update_self]
        exact Option.isSome_iff_ne_none.1 hmore
      · cases ho
    · cases h
  | failNotification =>
    simp only [Output.step] at h
    split at h
    · cases h
      intro other ho
      cases ho
    · cases h

/-! ## Every step uses up some of it -/

/-- Only one stream changes. -/
theorem pending_update (hqueue : s'.state.notifications = s.state.notifications) (haccepted : s'.accepted = s.accepted)
    {socket : Socket} {wire : Wire Writer UInt8} (hw : s'.wires = Function.update s.wires socket wire)
    (hs : socket < s.accepted)
    (hless : wire.left .session + wire.left .notifier <
      (s.wires socket).left .session + (s.wires socket).left .notifier) : s'.pending < s.pending := by
  have hsum := Machine.sum_update hs (fun w : Wire Writer UInt8 => w.left .session + w.left .notifier) s.wires wire
  unfold pending
  rw [hqueue, haccepted, hw]
  omega

theorem pending_close {s₁ : Output} {socket : Socket} (ha : s.Attached) (hw : s₁.wires = s.wires)
    (hqueue : s₁.state.notifications = s.state.notifications) (haccepted : s₁.accepted = s.accepted)
    (ho : (s.wires socket).outstanding .session ≠ none) : (s₁.close socket).pending < s.pending := by
  have hwires : (s₁.close socket).wires = Function.update s.wires socket ((s.wires socket).fail .session) := by
    unfold close setWire
    rw [hw]
  refine pending_update hqueue haccepted hwires (accepted_of_outstanding ha ho) ?_
  have := Wire.left_fail ho
  have := Wire.left_congr (Wire.outstanding_fail (s.wires socket) (by decide : Writer.notifier ≠ Writer.session))
  omega

theorem pending_step (ha : s.Attached) (hw : s.Waits) (hf : s.Finishes e) (h : s.step e = some s') :
    s'.pending < s.pending := by
  cases e with
  | write socket n =>
    obtain ⟨wire, hwrite, rfl⟩ := Option.map_eq_some_iff.1 h
    obtain ⟨ho, hothers⟩ := Wire.outstanding_write hwrite
    refine pending_update rfl rfl rfl (accepted_of_outstanding ha ho) ?_
    have := Wire.left_write hwrite
    have := Wire.left_congr (hothers .notifier (by decide))
    omega
  | writeNotification n =>
    simp only [step] at h
    split at h
    · obtain ⟨wire, hwrite, rfl⟩ := Option.map_eq_some_iff.1 h
      obtain ⟨ho, hothers⟩ := Wire.outstanding_write hwrite
      refine pending_update rfl rfl rfl (accepted_of_outstanding ha ho) ?_
      have := Wire.left_write hwrite
      have := Wire.left_congr (hothers .session (by decide))
      omega
    · cases h
  | failNotification =>
    simp only [step] at h
    split at h
    · rename_i socket hs
      cases h
      have ho := hw socket hs
      refine pending_update rfl rfl rfl (accepted_of_outstanding ha ho) ?_
      have := Wire.left_fail ho
      have := Wire.left_congr (Wire.outstanding_fail (s.wires socket) (by decide : Writer.session ≠ Writer.notifier))
      omega
    · cases h
  | notify =>
    simp only [step, notifyUsers] at h
    split at h
    · rename_i userId notification rest hfree hqueue
      obtain ⟨s₁, h₁, rfl⟩ := Option.map_eq_some_iff.1 h
      obtain ⟨server, hs, rfl⟩ := onServer_some.1 h₁
      have hserver : server.state.notifications = rest ∧ server.accepted = s.accepted := by
        simp only [Server.step, Server.notifyUsers, hqueue] at hs
        split at hs
        · cases hs; exact ⟨rfl, rfl⟩
        · cases hs; exact ⟨rfl, rfl⟩
      have hnone : ∀ socket, (s.wires socket).outstanding .notifier = none := by
        intro socket
        by_contra ho
        rw [(ha.notified socket ho).1] at hfree
        cases hfree
      unfold pending
      rw [hqueue, List.map_cons, List.sum_cons]
      rcases hsocket : s.state.sockets userId with _ | socket
      · simp only [hserver]
        omega
      · have hlt := (Server.entered_of_live ha.fresh (ha.found userId socket hsocket)).1
        have hsum := Machine.sum_update hlt (fun w : Wire Writer UInt8 => w.left .session + w.left .notifier) s.wires
          ((s.wires socket).start .notifier notification.message)
        have hleft : (s.wires socket).left .notifier = 0 := by
          unfold Wire.left
          rw [hnone]
        have hstart := Wire.left_start (x := s.wires socket) (w := .notifier) notification.message
        have hother := Wire.left_start_of_ne (x := s.wires socket) (by decide : Writer.session ≠ Writer.notifier)
          notification.message
        simp only [asyncWrite, setWire, hserver]
        omega
    · cases h
  | abandon socket =>
    simp only [step] at h
    split at h
    · cases h
      exact pending_close ha rfl rfl rfl hf
    · obtain ⟨s₁, h₁, rfl⟩ := Option.map_eq_some_iff.1 h
      obtain ⟨server, hs, rfl⟩ := onServer_some.1 h₁
      obtain ⟨hqueue, haccepted⟩ := Server.step_ends (.inl hs)
      exact pending_close ha rfl hqueue haccepted hf
  | leave socket =>
    simp only [step] at h
    obtain ⟨s₁, h₁, rfl⟩ := Option.map_eq_some_iff.1 h
    obtain ⟨server, hs, rfl⟩ := onServer_some.1 h₁
    obtain ⟨hqueue, haccepted⟩ := Server.step_ends (.inr hs)
    exact pending_close ha rfl hqueue haccepted hf
  | _ => exact absurd hf id

/-! ## No step is missing -/

/-- As long as something is pending the coroutines can go on, and need no write to fail that could go on. -/
theorem finishes_possible (ha : s.Attached) (hw : s.Waits) (hn : ¬ s.AtRest) :
    ∃ e s', s.Finishes e ∧ ¬ s.Fails e ∧ s.step e = some s' := by
  by_cases hsession : ∃ socket, (s.wires socket).outstanding .session ≠ none
  · obtain ⟨socket, ho⟩ := hsession
    rcases hb : (s.wires socket).broken with _ | _
    · obtain ⟨wire, hwrite⟩ := Wire.write_possible ho hb
      exact ⟨.write socket 1, _, trivial, id, by simp only [step, hwrite, Option.map_some]; rfl⟩
    · -- the coroutine of the connection ends
      have hbroken : ¬ (s.wires socket).broken = false := by rw [hb]; decide
      rcases hc : s.connections socket with _ | _ | user | user
      · exact ⟨.abandon socket, _, ho, hbroken, by simp only [step, hc]; rfl⟩
      · exact ⟨.abandon socket, _, ho, hbroken, by simp only [step, onServer, Server.step, hc]; rfl⟩
      · exact ⟨.abandon socket, _, ho, hbroken, by simp only [step, onServer, Server.step, hc]; rfl⟩
      · exact ⟨.leave socket, _, ho, hbroken, by simp only [step, onServer, Server.step, hc]; rfl⟩
  rcases hnotifying : s.notifying with _ | socket
  · rcases hqueue : s.state.notifications with _ | ⟨⟨userId, notification⟩, rest⟩
    · refine absurd ⟨hqueue, hnotifying, fun socket writer => ?_⟩ hn
      cases writer with
      | session =>
        by_contra ho
        exact hsession ⟨socket, ho⟩
      | notifier =>
        by_contra ho
        rw [(ha.notified socket ho).1] at hnotifying
        cases hnotifying
    · have hserver : ∃ server, s.toServer.step .notify = some server := by
        simp only [Server.step, Server.notifyUsers, hqueue]
        split
        · exact ⟨_, rfl⟩
        · exact ⟨_, rfl⟩
      obtain ⟨server, hserver⟩ := hserver
      exact ⟨.notify, _, trivial, id, by
        simp only [step, notifyUsers, hnotifying, hqueue, onServer, hserver, Option.map_some]; rfl⟩
  · have ho := hw socket hnotifying
    rcases hb : (s.wires socket).broken with _ | _
    · obtain ⟨wire, hwrite⟩ := Wire.write_possible ho hb
      exact ⟨.writeNotification 1, _, trivial, id, by simp only [step, hnotifying, hwrite, Option.map_some]; rfl⟩
    · refine ⟨.failNotification, _, trivial, ?_, by simp only [step, hnotifying]; rfl⟩
      rintro ⟨other, hother, hsound⟩
      rw [hnotifying] at hother
      obtain rfl := Option.some.inj hother
      rw [hb] at hsound
      cases hsound

/-! ## The books -/

theorem finishes_books (hf : s.Finishes e) (h : s.step e = some s') : SharedState.SameBooks s'.state s.state := by
  rcases step_causes h with ⟨hsame, -⟩ | ⟨e', hcauses, hs⟩
  · rw [hsame]
    exact ⟨rfl, rfl, rfl⟩
  · cases hcauses with
    | abandon =>
      cases Server.step_moves hs with
      | quiet _ _ hb => exact hb
    | leave =>
      cases Server.step_moves hs with
      | quiet _ _ hb => exact hb
    | notify =>
      cases Server.step_moves hs with
      | notify _ hb => exact hb
      | quiet hne => exact absurd rfl hne
    | _ => exact absurd hf id

theorem started_attached (storage : Storage) (db : Database) : (started storage db).Attached ∧
    (started storage db).Waits :=
  ⟨⟨fun _ _ => rfl, (fun _ _ h => by cases h), fun _ h => absurd rfl h, fun _ _ => rfl⟩, fun _ h => by cases h⟩

/-- Whatever happened before, the events that get on with what is pending are fewer than it is, in any
order; they leave the books alone; and until nothing is outstanding and every seller was notified, one
more of them is possible, with no failure of a stream that is in order. -/
theorem comes_to_rest (storage : Storage) (db : Database) (events : List OutputEvent) {s s' : Output}
    (h : Machine.run step (started storage db) events = some s) {more : List OutputEvent}
    (hmore : Machine.AtEachStep step Finishes s more) (h' : Machine.run step s more = some s') :
    more.length + s'.pending ≤ s.pending ∧ SharedState.SameBooks s'.state s.state ∧
      (s'.AtRest ∨ ∃ e s'', s'.Finishes e ∧ ¬ s'.Fails e ∧ s'.step e = some s'') := by
  have hkeep : ∀ (s : Output) (e : OutputEvent) (s' : Output), s.Attached ∧ s.Waits → s.step e = some s' →
      s'.Attached ∧ s'.Waits := fun _ _ _ hi h => ⟨attached_step hi.1 h, hi.2.step h⟩
  have hs := Machine.run_keeps hkeep (started_attached storage db) h
  have hs' := Machine.run_keeps hkeep hs h'
  refine ⟨hmore.run_bounded hkeep (fun s e s' hi hf h => pending_step hi.1 hi.2 hf h) hs h', ?_, ?_⟩
  · refine hmore.run_induction (P := fun _ s' => SharedState.SameBooks s'.state s.state) ⟨rfl, rfl, rfl⟩ ?_ h'
    intro _ s₁ e s₂ _ hb hf h
    exact (finishes_books hf h).trans hb
  · by_cases hrest : s'.AtRest
    · exact .inl hrest
    · exact .inr (finishes_possible hs'.1 hs'.2 hrest)

/-- bob has bought alice's sword, and she is to be told. -/
def soldRun : List OutputEvent :=
  [.accept, .write 0 256, .accept, .write 1 256, .login 0 (text "alice"), .write 0 256, .login 1 (text "bob"),
    .write 1 256, .enter 0, .enter 1, .request 0 0 (text "deposit funds 10"), .write 0 256,
    .request 0 0 (text "deposit sword"), .write 0 256, .request 0 0 (text "sell sword 20"), .write 0 256,
    .request 1 0 (text "deposit funds 20"), .write 1 256, .request 1 0 (text "buy 1")]

theorem comes_to_rest_sold :
    ∃ s s', Machine.run step (started Storage.initial Database.initial) soldRun = some s ∧ s.pending = 77 ∧
      Machine.run step s [.notify, .write 1 256, .writeNotification 10] = some s' ∧ 3 + s'.pending ≤ s.pending ∧
      SharedState.SameBooks s'.state s.state ∧
      (s'.AtRest ∨ ∃ e s'', s'.Finishes e ∧ ¬ s'.Fails e ∧ s'.step e = some s'') := by
  have hrun : ((Machine.run step (started Storage.initial Database.initial) soldRun).bind fun s =>
      (Machine.run step s [.notify, .write 1 256, .writeNotification 10]).map fun _ => s.pending) = some 77 := by
    decide +kernel
  obtain ⟨s, hs, h⟩ := Option.bind_eq_some_iff.1 hrun
  obtain ⟨s', hs', hpending⟩ := Option.map_eq_some_iff.1 h
  have hfinishes : Machine.AtEachStep step Finishes s [.notify, .write 1 256, .writeNotification 10] := by
    intro earlier e hpre s _
    have hall : ∀ e ∈ [OutputEvent.notify, .write 1 256, .writeNotification 10], s.Finishes e := by
      simp only [List.forall_mem_cons]
      exact ⟨trivial, trivial, trivial, fun _ h => by cases h⟩
    exact hall e (hpre.subset (List.mem_append_right _ (List.mem_singleton_self e)))
  exact ⟨s, s', hs, hpending, hs', comes_to_rest Storage.initial Database.initial soldRun hs hfinishes hs'⟩

end Output

end AuctionHouse
