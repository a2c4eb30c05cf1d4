/-
A stream with asynchronous writes on it: a write is a sequence of partial writes, and while it is
outstanding others may start. The stream stays a concatenation of the messages as long as each
write starts on a stream without outstanding writes.
-/
import Mathlib.Data.List.Infix
import Mathlib.Logic.Function.Basic

namespace Machine

/-- What each writer has left to write, what was written, and the messages whose writes started. -/
structure Wire (W α : Type) where
  outstanding : W → Option (List α) := fun _ => none
  sent : List α := []
  started : List (List α) := []
  broken : Bool := false

namespace Wire

variable {W α : Type} [DecidableEq W]

section
variable (x : Wire W α) (w : W)

def start (message : List α) : Wire W α :=
  { x with outstanding := Function.update x.outstanding w (some message), started := x.started ++ [message] }

/-- A partial write of at most `n` elements. -/
def write (n : ℕ) : Option (Wire W α) :=
  match x.outstanding w with
  | none => none
  | some rest =>
    if x.broken ∨ n = 0 then none
    else
      let left := if rest.length ≤ n then none else some (rest.drop n)
      some { x with outstanding := Function.update x.outstanding w left, sent := x.sent ++ rest.take n }

/-- The write fails, and with it all that follow. -/
def fail : Wire W α :=
  match x.outstanding w with
  | none => x
  | some _ => { x with outstanding := Function.update x.outstanding w none, broken := true }

end

/-- At most one write is outstanding, and what was sent is the messages one after the other, the last
of them as far as it is written. -/
structure Whole (x : Wire W α) : Prop where
  single : ∀ w w', x.outstanding w ≠ none → x.outstanding w' ≠ none → w = w'
  unfinished : x.broken = false → ∀ w rest, x.outstanding w = some rest →
    ∃ complete part, x.started = complete ++ [part ++ rest] ∧ x.sent = complete.flatten ++ part
  finished : x.broken = false → (∀ w, x.outstanding w = none) → x.sent = x.started.flatten
  begun : x.sent <+: x.started.flatten

omit [DecidableEq W] in
theorem whole_idle : ({} : Wire W α).Whole :=
  ⟨fun _ _ h => absurd rfl h, fun _ _ _ h => (nomatch h), fun _ _ => rfl, List.prefix_rfl⟩

variable {x : Wire W α} {w : W}

@[simp] theorem outstanding_start (message : List α) :
    (x.start w message).outstanding = Function.update x.outstanding w (some message) := rfl

theorem started_write {n : ℕ} {x' : Wire W α} (h : x.write w n = some x') : x'.started = x.started := by
  unfold write at h
  split at h
  · cases h
  · split at h
    · cases h
    · cases h
      rfl

theorem started_fail (x : Wire W α) (w : W) : (x.fail w).started = x.started := by
  unfold fail
  split <;> rfl

theorem outstanding_write {n : ℕ} {x' : Wire W α} (h : x.write w n = some x') : x.outstanding w ≠ none ∧
    ∀ w', w' ≠ w → x'.outstanding w' = x.outstanding w' := by
  unfold write at h
  split at h
  · cases h
  · rename_i rest ho
    split at h
    · cases h
    · cases h
      exact ⟨by rw [ho]; exact Option.some_ne_none _, fun w' hne => Function.update_of_ne hne _ _⟩

theorem outstanding_fail (x : Wire W α) {w' : W} (hne : w' ≠ w) : (x.fail w).outstanding w' = x.outstanding w' := by
  unfold fail
  split
  · rfl
  · exact Function.update_of_ne hne _ _

theorem outstanding_fail_self (x : Wire W α) (w : W) : (x.fail w).outstanding w = none := by
  unfold fail
  split
  · assumption
  · exact Function.update_self ..

/-- A writer apart from the others is the only one with an outstanding write. -/
theorem eq_of_update {f : W → Option (List α)} (hf : ∀ w', w' ≠ w → f w' = none) {left : Option (List α)} {w' : W}
    (h : Function.update f w left w' ≠ none) : w' = w := by
  by_contra hne
  rw [Function.update_of_ne hne] at h
  exact h (hf w' hne)

/-- A write may start on a whole stream exactly when no other is outstanding. -/
theorem whole_start (h : x.Whole) (hw : x.outstanding w = none) (message : List α) :
    (x.start w message).Whole ↔ ∀ w', x.outstanding w' = none := by
  constructor
  · intro hs w'
    by_contra hw'
    have hne : w' ≠ w := by
      rintro rfl
      exact hw' hw
    refine hne (hs.single w' w ?_ ?_)
    · rw [outstanding_start, Function.update_of_ne hne]
      exact hw'
    · rw [outstanding_start, Function.update_self]
      exact Option.some_ne_none _
  · intro hnone
    have honly : ∀ w', (x.start w message).outstanding w' ≠ none → w' = w :=
      fun _ => eq_of_update fun w' _ => hnone w'
    refine ⟨fun w₁ w₂ h₁ h₂ => (honly w₁ h₁).trans (honly w₂ h₂).symm, fun hb w' rest hr => ?_, fun _ hidle => ?_, ?_⟩
    · obtain rfl := honly w' (by rw [hr]; exact Option.some_ne_none _)
      rw [outstanding_start, Function.update_self] at hr
      cases hr
      exact ⟨x.started, [], rfl, by rw [List.append_nil]; exact h.finished hb hnone⟩
    · have hw' := hidle w
      rw [outstanding_start, Function.update_self] at hw'
      cases hw'
    · show x.sent <+: (x.started ++ [message]).flatten
      rw [List.flatten_append]
      exact h.begun.trans (List.prefix_append ..)

theorem whole_write {n : ℕ} {x' : Wire W α} (h : x.Whole) (hw : x.write w n = some x') : x'.Whole := by
  unfold write at hw
  rcases ho : x.outstanding w with _ | rest
  · rw [ho] at hw
    cases hw
  rw [ho] at hw
  simp only at hw
  split at hw
  · cases hw
  rename_i hn
  have hbroken : x.broken = false := by simpa using fun hb => hn (.inl hb)
  obtain ⟨complete, part, hstarted, hsent⟩ := h.unfinished hbroken w rest ho
  have hothers : ∀ w', w' ≠ w → x.outstanding w' = none := fun w' hne => by
    by_contra h'
    exact hne (h.single w' w h' (by rw [ho]; exact Option.some_ne_none _))
  cases hw
  refine ⟨fun w₁ w₂ h₁ h₂ => (eq_of_update hothers h₁).trans (eq_of_update hothers h₂).symm, fun _ w' rest' hr => ?_,
    fun _ hidle => ?_, ?_⟩
  · by_cases hne : w' = w
    · subst hne
      simp only [Function.update_self] at hr
      split at hr
      · cases hr
      · cases hr
        refine ⟨complete, part ++ rest.take n, ?_, ?_⟩
        · rw [List.append_assoc, List.take_append_drop]
          exact hstarted
        · rw [← List.append_assoc, ← hsent]
    · simp only [Function.update_of_ne hne, hothers w' hne] at hr
      cases hr
  · have hlast := hidle w
    simp only [Function.update_self] at hlast
    split at hlast
    · rename_i hlen
      show x.sent ++ rest.take n = x.started.flatten
      rw [List.take_of_length_le hlen, hstarted, hsent]
      simp
    · cases hlast
  · show x.sent ++ rest.take n <+: x.started.flatten
    rw [hstarted, hsent, List.flatten_append, List.flatten_singleton, List.append_assoc]
    exact (List.prefix_append_right_inj _).2 ((List.prefix_append_right_inj _).2 (List.take_prefix ..))

theorem whole_fail (h : x.Whole) : (x.fail w).Whole := by
  unfold fail
  split
  · exact h
  · refine ⟨fun w₁ w₂ h₁ h₂ => ?_, fun hb => (nomatch hb), fun hb => (nomatch hb), h.begun⟩
    have hother : ∀ w', Function.update x.outstanding w none w' ≠ none → x.outstanding w' ≠ none := by
      intro w' h' hnone
      by_cases hne : w' = w
      · subst hne
        exact h' (Function.update_self ..)
      · rw [Function.update_of_ne hne] at h'
        exact h' hnone
    exact h.single w₁ w₂ (hother w₁ h₁) (hother w₂ h₂)

end Wire

end Machine
