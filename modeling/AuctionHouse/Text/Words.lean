/-
Splitting a list at a separator: before and after its first occurrence, or before and after its
last one.
-/
import Mathlib.Tactic.Common

namespace Text

variable {α : Type} [DecidableEq α] (sep : α)

/-- What stands before and after the first separator; none when there is none. -/
def splitFirst : List α → Option (List α × List α)
  | [] => none
  | a :: l => if a = sep then some ([], l) else (splitFirst l).map fun (before, after) => (a :: before, after)

/-- What stands before and after the last separator; none when there is none. -/
def splitLast : List α → Option (List α × List α)
  | [] => none
  | a :: l =>
    match splitLast l with
    | some (before, after) => some (a :: before, after)
    | none => if a = sep then some ([], l) else none

variable {sep}

theorem splitFirst_none {l : List α} : splitFirst sep l = none ↔ sep ∉ l := by
  induction l with
  | nil => simp [splitFirst]
  | cons a l ih =>
    unfold splitFirst
    split
    · rename_i h; simp [h]
    · rename_i h
      rw [Option.map_eq_none_iff, ih, List.mem_cons, not_or]
      constructor
      · intro hl; exact ⟨Ne.symm h, hl⟩
      · rintro ⟨-, hl⟩; exact hl

theorem splitLast_none {l : List α} : splitLast sep l = none ↔ sep ∉ l := by
  induction l with
  | nil => simp [splitLast]
  | cons a l ih =>
    unfold splitLast
    rcases hs : splitLast sep l with _ | p
    · have hl := ih.1 hs
      by_cases h : a = sep
      · simp [h]
      · simp [h, hl, Ne.symm h]
    · have hl : sep ∈ l := by
        by_contra hl
        rw [ih.2 hl] at hs
        cases hs
      simp [hl]

theorem splitFirst_some {l before after : List α} :
    splitFirst sep l = some (before, after) ↔ l = before ++ sep :: after ∧ sep ∉ before := by
  induction l generalizing before with
  | nil => simp [splitFirst]
  | cons a l ih =>
    unfold splitFirst
    split
    · rename_i h
      subst h
      constructor
      · intro h
        cases h
        exact ⟨rfl, List.not_mem_nil⟩
      · rintro ⟨h, hb⟩
        rcases before with _ | ⟨b, before⟩
        · cases h; rfl
        · cases h; exact absurd List.mem_cons_self hb
    · rename_i hne
      rw [Option.map_eq_some_iff]
      constructor
      · rintro ⟨⟨b, c⟩, h, he⟩
        cases he
        obtain ⟨rfl, hb⟩ := ih.1 h
        exact ⟨rfl, by simp [hb, Ne.symm hne]⟩
      · rintro ⟨h, hb⟩
        rcases before with _ | ⟨b, before⟩
        · cases h; exact absurd rfl hne
        · cases h
          exact ⟨(before, after), ih.2 ⟨rfl, fun h => hb (List.mem_cons_of_mem _ h)⟩, rfl⟩

theorem splitLast_some {l before after : List α} :
    splitLast sep l = some (before, after) ↔ l = before ++ sep :: after ∧ sep ∉ after := by
  induction l generalizing before after with
  | nil => simp [splitLast]
  | cons a l ih =>
    unfold splitLast
    rcases hs : splitLast sep l with _ | ⟨b, c⟩
    · -- no separator is left in the rest
      have hl := splitLast_none.1 hs
      dsimp only
      constructor
      · intro h
        split at h
        · rename_i ha
          cases h
          exact ⟨by rw [ha]; rfl, hl⟩
        · cases h
      · rintro ⟨h, ha⟩
        rcases before with _ | ⟨b, before⟩
        · cases h
          exact if_pos rfl
        · cases h
          exact absurd (by simp) hl
    · obtain ⟨hl, hc⟩ := ih.1 hs
      dsimp only
      constructor
      · intro h
        cases h
        exact ⟨by rw [hl]; rfl, hc⟩
      · rintro ⟨h, ha⟩
        rcases before with _ | ⟨x, before⟩
        · cases h
          exact absurd (by rw [hl]; simp) ha
        · cases h
          have := ih.2 ⟨rfl, ha⟩
          rw [hs] at this
          cases this
          rfl

theorem splitFirst_append {before : List α} (h : sep ∉ before) (after : List α) :
    splitFirst sep (before ++ sep :: after) = some (before, after) := splitFirst_some.2 ⟨rfl, h⟩

theorem splitLast_append {after : List α} (h : sep ∉ after) (before : List α) :
    splitLast sep (before ++ sep :: after) = some (before, after) := splitLast_some.2 ⟨rfl, h⟩

/-- The words around the first separator are found once. -/
theorem splitFirst_unique {l before after a b : List α} (hs : splitFirst sep l = some (before, after))
    (hl : l = a ++ sep :: b) (ha : sep ∉ a) : a = before ∧ b = after := by
  rw [hl, splitFirst_append ha] at hs
  cases hs
  exact ⟨rfl, rfl⟩

/-- The words around the last separator are found once. -/
theorem splitLast_unique {l before after a b : List α} (hs : splitLast sep l = some (before, after))
    (hl : l = a ++ sep :: b) (hb : sep ∉ b) : a = before ∧ b = after := by
  rw [hl, splitLast_append hb] at hs
  cases hs
  exact ⟨rfl, rfl⟩

/-! ## What follows without a separator -/

theorem splitFirst_extend {more : List α} (h : sep ∉ more) (l : List α) :
    splitFirst sep (l ++ more) = (splitFirst sep l).map fun p => (p.1, p.2 ++ more) := by
  rcases hs : splitFirst sep l with _ | ⟨before, after⟩
  · rw [Option.map_none, splitFirst_none, List.mem_append, not_or]
    exact ⟨splitFirst_none.1 hs, h⟩
  · obtain ⟨rfl, hb⟩ := splitFirst_some.1 hs
    rw [List.append_assoc, List.cons_append, splitFirst_append hb]
    rfl

theorem splitLast_extend {more : List α} (h : sep ∉ more) (l : List α) :
    splitLast sep (l ++ more) = (splitLast sep l).map fun p => (p.1, p.2 ++ more) := by
  rcases hs : splitLast sep l with _ | ⟨before, after⟩
  · rw [Option.map_none, splitLast_none, List.mem_append, not_or]
    exact ⟨splitLast_none.1 hs, h⟩
  · obtain ⟨rfl, ha⟩ := splitLast_some.1 hs
    have ha' : sep ∉ after ++ more := by
      rw [List.mem_append, not_or]
      exact ⟨ha, h⟩
    rw [List.append_assoc, List.cons_append, splitLast_append ha']
    rfl

end Text
