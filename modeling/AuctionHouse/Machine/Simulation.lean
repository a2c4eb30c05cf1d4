/-
Refinement between machines. A machine is simulated by another when each of its steps is some
events of the other, or none, on related states; then so is each of its runs, simulations compose,
and what is true in every run of the other machine is true of the first one.
-/
import AuctionHouse.Machine.Runs

namespace Machine

variable {S E T F U G : Type}

/-- Each step of the first machine is a run of the second one, on states that are related. -/
structure Simulation (step : S → E → Option S) (step' : T → F → Option T) (Rel : S → T → Prop) : Prop where
  forward : ∀ {s s' : S} {t : T} {e : E}, Rel s t → step s e = some s' →
    ∃ events t', run step' t events = some t' ∧ Rel s' t'

namespace Simulation

variable {step : S → E → Option S} {step' : T → F → Option T} {step'' : U → G → Option U}
  {Rel : S → T → Prop} {Rel' : T → U → Prop}

/-- A machine that takes one step for each step. -/
theorem of_step (h : ∀ {s s' : S} {t : T} {e : E}, Rel s t → step s e = some s' →
    ∃ e' t', step' t e' = some t' ∧ Rel s' t') : Simulation step step' Rel where
  forward := by
    intro s s' t e hr hs
    obtain ⟨e', t', ht, hr'⟩ := h hr hs
    exact ⟨[e'], t', by rw [run_cons, ht]; rfl, hr'⟩

theorem run_forward (h : Simulation step step' Rel) : ∀ {events : List E} {s s' : S} {t : T}, Rel s t →
    run step s events = some s' → ∃ events' t', run step' t events' = some t' ∧ Rel s' t'
  | [], _, _, t, hr, hs => ⟨[], t, rfl, Option.some.inj hs ▸ hr⟩
  | e :: events, _, _, _, hr, hs => by
    obtain ⟨s₁, h₁, hs⟩ := Option.bind_eq_some_iff.1 hs
    obtain ⟨first, t₁, ht₁, hr₁⟩ := h.forward hr h₁
    obtain ⟨rest, t', ht', hr'⟩ := run_forward h hr₁ hs
    exact ⟨first ++ rest, t', by rw [run_append, ht₁]; exact ht', hr'⟩

/-- A simulation of a simulation. -/
theorem comp (h : Simulation step step' Rel) (h' : Simulation step' step'' Rel') :
    Simulation step step'' fun s u => ∃ t, Rel s t ∧ Rel' t u where
  forward := by
    rintro s s' u e ⟨t, hr, hr'⟩ hs
    obtain ⟨events, t', ht, hr⟩ := h.forward hr hs
    obtain ⟨events', u', hu, hr'⟩ := h'.run_forward hr' ht
    exact ⟨events', u', hu, t', hr, hr'⟩

/-- Every state of the first machine is related to one that the second machine reaches, and so to one
that has what all of those have. -/
theorem safe (h : Simulation step step' Rel) {s₀ s : S} {t₀ : T} {events : List E} {P : T → Prop} (hr : Rel s₀ t₀)
    (hp : ∀ events t, run step' t₀ events = some t → P t) (hs : run step s₀ events = some s) :
    ∃ t, Rel s t ∧ P t := by
  obtain ⟨events', t, ht, hr'⟩ := h.run_forward hr hs
  exact ⟨t, hr', hp events' t ht⟩

end Simulation

end Machine
