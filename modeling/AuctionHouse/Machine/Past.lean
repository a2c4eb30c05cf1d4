/-
The past of a run: that something has happened, and what has happened since.
-/
import AuctionHouse.Machine.Runs

namespace Machine

variable {S E : Type}

/-- An event has happened after events that suit it, and since then only events of a kind. -/
def Since (P : List E → E → Prop) (Q : E → Prop) (events : List E) : Prop :=
  ∃ before e after, events = before ++ e :: after ∧ P before e ∧ ∀ e' ∈ after, Q e'

namespace Since

variable {P P' : List E → E → Prop} {Q Q' : E → Prop} {events : List E} {e : E}

theorem now (h : P events e) : Since P Q (events ++ [e]) := ⟨events, e, [], rfl, h, fun _ he => by cases he⟩

theorem keep (h : Since P Q events) (he : Q e) : Since P Q (events ++ [e]) := by
  obtain ⟨before, e₁, after, rfl, hp, hq⟩ := h
  refine ⟨before, e₁, after ++ [e], List.append_assoc _ _ _, hp, fun e' h' => ?_⟩
  rcases List.mem_append.1 h' with h' | h'
  · exact hq e' h'
  · rw [List.mem_singleton.1 h']
    exact he

theorem imp (h : Since P Q events) (hp : ∀ before e, P before e → P' before e) (hq : ∀ e, Q e → Q' e) :
    Since P' Q' events := by
  obtain ⟨before, e, after, heq, h1, h2⟩ := h
  exact ⟨before, e, after, heq, hp before e h1, fun e' he' => hq e' (h2 e' he')⟩

end Since

/-- A relation of the states of a run to the events before them, kept by each step. -/
theorem run_past {step : S → E → Option S} {s₀ : S} {P : List E → S → Prop} (h₀ : P [] s₀)
    (hstep : ∀ events s e s', run step s₀ events = some s → P events s → step s e = some s' → P (events ++ [e]) s')
    {events : List E} {s : S} (h : run step s₀ events = some s) : P events s :=
  AtEachStep.run_induction (Q := fun _ _ => True) h₀ (fun events s e s' hs hp _ => hstep events s e s' hs hp)
    (fun _ _ _ _ _ => trivial) h

end Machine
