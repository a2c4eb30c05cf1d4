/-
Runs that come to rest. Steps that each use up some of what is pending are few, and while they are
possible as long as the machine is not at rest, a run that cannot go on with them is at rest.
-/
import AuctionHouse.Machine.Runs
import AuctionHouse.Machine.Wire
import Mathlib.Algebra.BigOperators.Group.Finset.Basic
import Mathlib.Tactic.Abel

namespace Machine

section
variable {S E : Type} {step : S → E → Option S} {Q : S → E → Prop} {s₀ : S}

/-- Steps that use up what is pending make no longer runs than that. -/
theorem AtEachStep.run_bounded {I : S → Prop} (hkeep : ∀ s e s', I s → step s e = some s' → I s') {pending : S → ℕ}
    (hless : ∀ s e s', I s → Q s e → step s e = some s' → pending s' < pending s) (hi : I s₀) {events : List E}
    {s : S} (hq : AtEachStep step Q s₀ events) (h : run step s₀ events = some s) :
    events.length + pending s ≤ pending s₀ := by
  refine hq.run_induction (P := fun events s => events.length + pending s ≤ pending s₀) (Nat.zero_add _).le ?_ h
  intro events s e s' hs hle hqe h
  have hlt := hless s e s' (run_keeps hkeep hi hs) hqe h
  rw [List.length_append, List.length_singleton]
  omega

end

/-! ## Writes -/

/-- What changes at one place changes a sum by that. -/
theorem sum_update {α : Type} {n i : ℕ} (h : i < n) (f : α → ℕ) (g : ℕ → α) (a : α) :
    ∑ j ∈ Finset.range n, f (Function.update g i a j) + f (g i) = ∑ j ∈ Finset.range n, f (g j) + f a := by
  have hi : i ∈ Finset.range n := Finset.mem_range.2 h
  have hrest : ∑ j ∈ (Finset.range n).erase i, f (Function.update g i a j) = ∑ j ∈ (Finset.range n).erase i, f (g j) :=
    Finset.sum_congr rfl fun j hj => by rw [Function.update_of_ne (Finset.ne_of_mem_erase hj)]
  rw [← Finset.add_sum_erase _ _ hi, ← Finset.add_sum_erase _ (fun j => f (g j)) hi, hrest, Function.update_self]
  abel

namespace Wire

variable {W α : Type} [DecidableEq W] {x : Wire W α} {w : W}

/-- What is left of the write of a writer: one more than there is to write. -/
def left (x : Wire W α) (w : W) : ℕ := match x.outstanding w with
  | none => 0
  | some rest => rest.length + 1

omit [DecidableEq W] in
theorem left_pos (h : x.outstanding w ≠ none) : 0 < x.left w := by
  unfold left
  split
  · exact absurd ‹_› h
  · exact Nat.succ_pos _

omit [DecidableEq W] in
theorem left_congr {x' : Wire W α} (h : x'.outstanding w = x.outstanding w) : x'.left w = x.left w := by
  unfold left
  rw [h]

theorem left_start (message : List α) : (x.start w message).left w = message.length + 1 := by
  unfold left
  rw [outstanding_start, Function.update_self]

theorem outstanding_start_of_ne {w' : W} (h : w' ≠ w) (message : List α) :
    (x.start w message).outstanding w' = x.outstanding w' := Function.update_of_ne h _ _

theorem left_start_of_ne {w' : W} (h : w' ≠ w) (message : List α) : (x.start w message).left w' = x.left w' :=
  left_congr (outstanding_start_of_ne h message)

theorem left_write {n : ℕ} {x' : Wire W α} (h : x.write w n = some x') : x'.left w < x.left w := by
  unfold write at h
  split at h
  · cases h
  rename_i rest hrest
  split at h
  · cases h
  rename_i hn
  cases h
  have hpos : 0 < n := Nat.pos_of_ne_zero fun h0 => hn (.inr h0)
  unfold left
  simp only [Function.update_self, hrest]
  by_cases hle : rest.length ≤ n
  · simp only [if_pos hle]
    exact Nat.succ_pos _
  · simp only [if_neg hle, List.length_drop]
    omega

theorem left_fail (h : x.outstanding w ≠ none) : (x.fail w).left w < x.left w := by
  have hzero : (x.fail w).left w = 0 := by
    unfold left
    rw [outstanding_fail_self]
  rw [hzero]
  exact left_pos h

/-- A stream that is in order takes some of an outstanding write. -/
theorem write_possible (h : x.outstanding w ≠ none) (hb : x.broken = false) : ∃ x', x.write w 1 = some x' := by
  unfold write
  split
  · exact absurd ‹_› h
  · rw [hb]
    exact ⟨_, if_neg (by simp)⟩

end Wire

end Machine
