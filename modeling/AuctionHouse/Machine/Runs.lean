/-
Runs of a partial step function: what one step keeps a whole run keeps, and a property is kept
throughout a run exactly when no step of the run breaks it.
-/
import Mathlib.Data.List.Infix

namespace Machine

variable {S E : Type} (step : S → E → Option S)

/-- The state after the events; none once a step is not possible. -/
def run (s : S) : List E → Option S
  | [] => some s
  | e :: events => (step s e).bind fun s => run s events

@[simp] theorem run_nil (s : S) : run step s [] = some s := rfl

@[simp] theorem run_cons (s : S) (e : E) (events : List E) :
    run step s (e :: events) = (step s e).bind fun s => run step s events := rfl

theorem run_append : ∀ (s : S) (events more : List E),
    run step s (events ++ more) = (run step s events).bind fun s => run step s more
  | _, [], _ => rfl
  | s, e :: events, more => by
    rw [List.cons_append, run_cons, run_cons, Option.bind_assoc]
    congr 1
    funext s
    exact run_append s events more

theorem run_concat (s : S) (events : List E) (e : E) :
    run step s (events ++ [e]) = (run step s events).bind fun s => step s e := by
  rw [run_append]
  congr 1
  funext s
  exact Option.bind_fun_some _

/-- A property of every state of a run. -/
def Throughout (P : S → Prop) (s₀ : S) (events : List E) : Prop :=
  ∀ earlier, earlier <+: events → ∀ s, run step s₀ earlier = some s → P s

/-- A property of every step of a run, by the state before it. -/
def AtEachStep (Q : S → E → Prop) (s₀ : S) (events : List E) : Prop :=
  ∀ earlier e, earlier ++ [e] <+: events → ∀ s, run step s₀ earlier = some s → Q s e

variable {step} {s₀ : S}

/-! ## Invariants -/

section
variable {I : S → Prop} (hkeep : ∀ s e s', I s → step s e = some s' → I s')
include hkeep

theorem run_keeps {s s' : S} : ∀ {events : List E}, I s → run step s events = some s' → I s'
  | [], hi, h => Option.some.inj h ▸ hi
  | e :: events, hi, h => by
    obtain ⟨s₁, h1, h⟩ := Option.bind_eq_some_iff.1 h
    exact run_keeps (hkeep _ _ _ hi h1) h

/-- A step that is always possible never stops a run. -/
theorem run_total (hstep : ∀ s e, I s → ∃ s', step s e = some s') {s : S} :
    ∀ {events : List E}, I s → ∃ s', run step s events = some s'
  | [], _ => ⟨s, rfl⟩
  | e :: events, hi => by
    obtain ⟨s₁, h1⟩ := hstep s e hi
    obtain ⟨s', h⟩ : ∃ s', run step s₁ events = some s' := run_total hstep (hkeep _ _ _ hi h1)
    exact ⟨s', by rw [run_cons, h1]; exact h⟩

/-- A property that a step keeps exactly when it is not bad holds throughout a run exactly when no
step of the run is bad. -/
theorem throughout_iff {P : S → Prop} {Bad : S → E → Prop} (hi : I s₀) (hp : P s₀)
    (hstep : ∀ s e s', I s → P s → step s e = some s' → (P s' ↔ ¬ Bad s e))
    (hbad : ∀ s e, I s → Bad s e → ∃ s', step s e = some s') (events : List E) :
    Throughout step P s₀ events ↔ AtEachStep step (fun s e => ¬ Bad s e) s₀ events := by
  constructor
  · intro h earlier e hpre s hs hb
    have hi' := run_keeps hkeep hi hs
    obtain ⟨s', h'⟩ := hbad s e hi' hb
    have hp' : P s' := h (earlier ++ [e]) hpre s' (by rw [run_concat, hs]; exact h')
    exact (hstep s e s' hi' (h earlier ((List.prefix_append _ _).trans hpre) s hs) h').1 hp' hb
  · intro h earlier
    induction earlier using List.reverseRecOn with
    | nil => intro _ s hs; exact Option.some.inj hs ▸ hp
    | append_singleton earlier e ih =>
      intro hpre s' hs'
      rw [run_concat] at hs'
      obtain ⟨s, hs, h'⟩ := Option.bind_eq_some_iff.1 hs'
      -- the last step was not bad, so it kept what held before it
      have hp' := ih ((List.prefix_append _ _).trans hpre) s hs
      exact (hstep s e s' (run_keeps hkeep hi hs) hp' h').2 (h earlier e hpre s hs)

/-- What each step of a run satisfies, it satisfies for what follows from it in every state of the run. -/
theorem AtEachStep.imp {Q Q' : S → E → Prop} (hi : I s₀) {events : List E}
    (h : ∀ s, ∀ e ∈ events, I s → Q s e → Q' s e) (hq : AtEachStep step Q s₀ events) : AtEachStep step Q' s₀ events := by
  intro earlier e hpre s hs
  have he : e ∈ events := hpre.subset (List.mem_append_right _ (List.mem_singleton_self e))
  exact h s e he (run_keeps hkeep hi hs) (hq earlier e hpre s hs)

end

/-- What is so of a run is so of it with one more step of the kind. -/
theorem AtEachStep.run_induction {Q : S → E → Prop} {P : List E → S → Prop} (h₀ : P [] s₀)
    (hstep : ∀ events s e s', run step s₀ events = some s → P events s → Q s e → step s e = some s' →
      P (events ++ [e]) s') {events : List E} :
    ∀ {s : S}, AtEachStep step Q s₀ events → run step s₀ events = some s → P events s := by
  induction events using List.reverseRecOn with
  | nil =>
    intro s _ h
    exact Option.some.inj h ▸ h₀
  | append_singleton events e ih =>
    intro s' hq h
    rw [run_concat] at h
    obtain ⟨s, hs, h⟩ := Option.bind_eq_some_iff.1 h
    have hearlier : AtEachStep step Q s₀ events := fun before e hb => hq before e (hb.trans (List.prefix_append _ _))
    exact hstep events s e s' hs (ih hearlier hs) (hq events e List.prefix_rfl s hs) h

/-! ## What a run puts out -/

section
variable {O : Type} (out : S → E → List O)

/-- What the steps of a run put out, by the states before them. -/
def outputs (step : S → E → Option S) : S → List E → List O
  | _, [] => []
  | s, e :: events => out s e ++ match step s e with
    | some s' => outputs step s' events
    | none => []

variable {out}

theorem outputs_concat : ∀ {events : List E} {s s' : S} (e : E), run step s events = some s' →
    outputs out step s (events ++ [e]) = outputs out step s events ++ out s' e
  | [], s, s', e, h => by
    obtain rfl := Option.some.inj h
    have hlast : outputs out step s [e] = out s e := by
      unfold outputs
      split <;> exact List.append_nil _
    exact hlast
  | e₁ :: events, s, s', e, h => by
    obtain ⟨s₁, h1, h⟩ := Option.bind_eq_some_iff.1 h
    simp only [List.cons_append, outputs, h1]
    rw [outputs_concat e h, List.append_assoc]

/-- Steps that put out part of what they could put out part of all of it. -/
theorem outputs_sublist {out' : S → E → List O} (h : ∀ s e, (out s e).Sublist (out' s e)) :
    ∀ (events : List E) (s : S), (outputs out step s events).Sublist (outputs out' step s events)
  | [], _ => List.Sublist.refl []
  | e :: events, s => by
    unfold outputs
    refine (h s e).append ?_
    split
    · exact outputs_sublist h events _
    · exact List.Sublist.refl []

theorem outputs_congr {out' : S → E → List O} : ∀ {events : List E}, (∀ s, ∀ e ∈ events, out s e = out' s e) →
    ∀ s : S, outputs out step s events = outputs out' step s events
  | [], _, _ => rfl
  | e :: events, h, s => by
    unfold outputs
    rw [h s e List.mem_cons_self]
    split
    · rw [outputs_congr fun s e he => h s e (List.mem_cons_of_mem _ he)]
    · rfl

/-- A relation of the states of a run to all that was put out before them, kept by each step. -/
theorem run_outputs {P : S → List O → Prop} (h₀ : P s₀ [])
    (hstep : ∀ events s l e s', run step s₀ events = some s → P s l → step s e = some s' → P s' (l ++ out s e)) :
    ∀ {events : List E} {s : S}, run step s₀ events = some s → P s (outputs out step s₀ events) := by
  intro events
  induction events using List.reverseRecOn with
  | nil =>
    intro s h
    exact Option.some.inj h ▸ h₀
  | append_singleton events e ih =>
    intro s' h
    rw [run_concat] at h
    obtain ⟨s, hs, h⟩ := Option.bind_eq_some_iff.1 h
    rw [outputs_concat e hs]
    exact hstep events s _ e s' hs (ih hs) h

end

end Machine
