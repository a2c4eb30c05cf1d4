/-
Programs that may be stopped after any of their steps and started again from the first: when every
step works towards one goal, and all steps reach it, they reach the same goal however often they
were stopped before.
-/
import AuctionHouse.Machine.Runs

namespace Machine

variable {S E : Type}

/-- From the states that satisfy `I`, no step of the program changes the goal, and the whole program
reaches it. -/
structure Resumes (step : S → E → Option S) (program : List E) (I : S → Prop) (goal : S → S) : Prop where
  keeps : ∀ s s', ∀ e ∈ program, I s → step s e = some s' → I s' ∧ goal s' = goal s
  reaches : ∀ s, I s → run step s program = some (goal s)

namespace Resumes

variable {step : S → E → Option S} {program : List E} {I : S → Prop} {goal : S → S}

theorem keeps_run (h : Resumes step program I goal) : ∀ {steps : List E} {s s' : S}, steps ⊆ program → I s →
    run step s steps = some s' → I s' ∧ goal s' = goal s
  | [], _, _, _, hi, hr => Option.some.inj hr ▸ ⟨hi, rfl⟩
  | e :: steps, s, s', hp, hi, hr => by
    obtain ⟨s₁, h1, hr⟩ := Option.bind_eq_some_iff.1 hr
    obtain ⟨hi₁, hg₁⟩ := h.keeps s s₁ e (hp List.mem_cons_self) hi h1
    obtain ⟨hi', hg'⟩ := h.keeps_run (fun x hx => hp (List.mem_cons_of_mem e hx)) hi₁ hr
    exact ⟨hi', hg'.trans hg₁⟩

/-- Wherever the program was stopped, the goal is the same. -/
theorem stopped (h : Resumes step program I goal) {s s' : S} (hi : I s) {k : ℕ}
    (hs : run step s (program.take k) = some s') : I s' ∧ goal s' = goal s :=
  h.keeps_run (List.take_subset k program) hi hs

/-- The program can be stopped after any number of its steps. -/
theorem stop (h : Resumes step program I goal) {s : S} (hi : I s) (k : ℕ) :
    ∃ s', run step s (program.take k) = some s' := by
  have hr := h.reaches s hi
  rw [← List.take_append_drop k program, run_append] at hr
  obtain ⟨s', h', -⟩ := Option.bind_eq_some_iff.1 hr
  exact ⟨s', h'⟩

end Resumes

end Machine
