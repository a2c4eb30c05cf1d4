/-
Texts of lines. A line ends with a separator that it does not have otherwise, so the lines that are
ended can be told in every first part of the text, however it was cut.
-/
import Mathlib.Data.List.Infix

namespace Text

variable {α : Type} [DecidableEq α] (sep : α)

/-- Lines one after the other, each with its end. -/
def unlines (lines : List (List α)) : List α := lines.flatMap (· ++ [sep])

/-- The lines of a text that are ended, and what stands after them. -/
def splitLines : List α → List (List α) × List α
  | [] => ([], [])
  | a :: l =>
    if a = sep then ([] :: (splitLines l).1, (splitLines l).2)
    else
      match splitLines l with
      | ([], rest) => ([], a :: rest)
      | (line :: lines, rest) => ((a :: line) :: lines, rest)

variable {sep}

theorem splitLines_rest {rest : List α} (h : sep ∉ rest) : splitLines sep rest = ([], rest) := by
  induction rest with
  | nil => rfl
  | cons a rest ih =>
    rw [List.mem_cons, not_or] at h
    rw [splitLines, if_neg (Ne.symm h.1), ih h.2]

theorem splitLines_line {line : List α} (h : sep ∉ line) (l : List α) :
    splitLines sep (line ++ sep :: l) = (line :: (splitLines sep l).1, (splitLines sep l).2) := by
  induction line with
  | nil => simp [splitLines]
  | cons a line ih =>
    rw [List.mem_cons, not_or] at h
    rw [List.cons_append, splitLines, if_neg (Ne.symm h.1), ih h.2]

/-- Lines are read back. -/
theorem splitLines_unlines {lines : List (List α)} (h : ∀ line ∈ lines, sep ∉ line) {rest : List α}
    (hr : sep ∉ rest) : splitLines sep (unlines sep lines ++ rest) = (lines, rest) := by
  induction lines with
  | nil => exact splitLines_rest hr
  | cons line lines ih =>
    have ih := ih fun x hx => h x (List.mem_cons_of_mem _ hx)
    have hcons : unlines sep (line :: lines) ++ rest = line ++ sep :: (unlines sep lines ++ rest) := by
      simp [unlines]
    rw [hcons, splitLines_line (h line List.mem_cons_self), ih]

/-- However lines are cut, they are read back as far as they are ended. -/
theorem splitLines_cut {lines : List (List α)} (hc : ∀ line ∈ lines, sep ∉ line) {p : List α}
    (h : p <+: unlines sep lines) : (splitLines sep p).1 <+: lines := by
  induction lines generalizing p with
  | nil =>
    obtain rfl := List.prefix_nil.1 h
    exact List.prefix_rfl
  | cons line lines ih =>
    have hline := hc line List.mem_cons_self
    have hcons : unlines sep (line :: lines) = (line ++ [sep]) ++ unlines sep lines := rfl
    rw [hcons] at h
    rcases List.prefix_or_prefix_of_prefix h (List.prefix_append (line ++ [sep]) _) with hp | ⟨q, rfl⟩
    · rcases List.prefix_concat_iff.1 hp with rfl | hp
      · rw [splitLines_line hline]
        exact List.prefix_append [line] lines
      · -- the cut is inside the first line
        rw [splitLines_rest fun hm => hline (hp.subset hm)]
        exact List.nil_prefix
    · rw [List.append_assoc, List.singleton_append, splitLines_line hline]
      have hq : q <+: unlines sep lines := (List.prefix_append_right_inj _).1 h
      exact List.cons_prefix_cons.2 ⟨rfl, ih (fun x hx => hc x (List.mem_cons_of_mem _ hx)) hq⟩

end Text
