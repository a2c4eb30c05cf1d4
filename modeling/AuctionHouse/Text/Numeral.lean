/-
Decimal integers over ASCII bytes: what a numeral is, reading the longest numeral a text starts
with, and that what is printed of an integer is a numeral of it.
-/
import Mathlib.Data.Int.Basic
import Mathlib.Tactic.Common

namespace Text

def minus : UInt8 := 45

def isDigit (c : UInt8) : Bool := decide (48 ≤ c ∧ c ≤ 57)

/-- The value of digits, most significant first. -/
def digitsValue (digits : List UInt8) : ℕ := digits.foldl (fun n c => 10 * n + (c.toNat - 48)) 0

/-- At least one digit and nothing else. -/
structure Digits (w : List UInt8) : Prop where
  ne_nil : w ≠ []
  digit : ∀ c ∈ w, isDigit c = true

/-- An optionally negative decimal integer. -/
inductive Numeral : List UInt8 → ℤ → Prop
  | nonneg {w : List UInt8} (h : Digits w) : Numeral w (digitsValue w)
  | neg {w : List UInt8} (h : Digits w) : Numeral (minus :: w) (-(digitsValue w : ℤ))

/-- The number that a text starts with, and the text after its digits. -/
def readDigits (s : List UInt8) : Option (ℕ × List UInt8) :=
  if s.takeWhile isDigit = [] then none else some (digitsValue (s.takeWhile isDigit), s.dropWhile isDigit)

/-- The longest numeral that a text starts with, and the text after it. -/
def readNumeral : List UInt8 → Option (ℤ × List UInt8)
  | [] => none
  | c :: s =>
    if c = minus then (readDigits s).map fun (n, rest) => (-(n : ℤ), rest)
    else (readDigits (c :: s)).map fun (n, rest) => ((n : ℤ), rest)

/-- The next character is no digit. -/
def EndsDigits (rest : List UInt8) : Prop := ∀ c ∈ rest.head?, isDigit c = false

/-! ## Numerals -/

theorem not_digit_minus : isDigit minus = false := by decide

theorem Digits.head_ne_minus {w : List UInt8} (h : Digits w) {c : UInt8} {l : List UInt8} (hw : w = c :: l) :
    c ≠ minus := by
  rintro rfl
  have := h.digit minus (by simp [hw])
  rw [not_digit_minus] at this
  cases this

/-- A numeral is made of digits and the minus sign. -/
theorem Numeral.mem {w : List UInt8} {n : ℤ} (h : Numeral w n) {c : UInt8} (hc : c ∈ w) :
    c = minus ∨ isDigit c = true := by
  cases h with
  | nonneg h => exact .inr (h.digit c hc)
  | neg h =>
    rcases List.mem_cons.1 hc with rfl | hc
    · exact .inl rfl
    · exact .inr (h.digit c hc)

/-! ## Reading -/

theorem takeWhile_digits {w rest : List UInt8} (h : ∀ c ∈ w, isDigit c = true) (hr : EndsDigits rest) :
    (w ++ rest).takeWhile isDigit = w ∧ (w ++ rest).dropWhile isDigit = rest := by
  have htake : rest.takeWhile isDigit = [] := by
    rcases rest with _ | ⟨c, rest⟩
    · rfl
    · exact List.takeWhile_cons_of_neg (by simp [hr c rfl])
  have hdrop : rest.dropWhile isDigit = rest := by
    rcases rest with _ | ⟨c, rest⟩
    · rfl
    · exact List.dropWhile_cons_of_neg (by simp [hr c rfl])
  constructor
  · rw [List.takeWhile_append_of_pos h, htake, List.append_nil]
  · rw [List.dropWhile_append_of_pos h, hdrop]

theorem readDigits_some {s rest : List UInt8} {n : ℕ} :
    readDigits s = some (n, rest) ↔ ∃ w, s = w ++ rest ∧ Digits w ∧ n = digitsValue w ∧ EndsDigits rest := by
  unfold readDigits
  constructor
  · intro h
    split at h
    · cases h
    · rename_i hne
      cases h
      refine ⟨s.takeWhile isDigit, List.takeWhile_append_dropWhile.symm, ⟨hne, ?_⟩, rfl, ?_⟩
      · intro c hc
        exact List.all_eq_true.1 List.all_takeWhile c hc
      · intro c hc
        have := List.head?_dropWhile_not isDigit s
        rw [Option.mem_def.1 hc] at this
        exact this
  · rintro ⟨w, rfl, hw, rfl, hr⟩
    obtain ⟨h1, h2⟩ := takeWhile_digits hw.digit hr
    rw [h1, h2, if_neg hw.ne_nil]

/-- Reading takes the longest numeral. -/
theorem readNumeral_some {s rest : List UInt8} {n : ℤ} :
    readNumeral s = some (n, rest) ↔ ∃ w, s = w ++ rest ∧ Numeral w n ∧ EndsDigits rest := by
  constructor
  · intro h
    rcases s with _ | ⟨c, s⟩
    · cases h
    rw [readNumeral] at h
    split at h
    · rename_i hc
      subst hc
      obtain ⟨⟨m, r⟩, hm, he⟩ := Option.map_eq_some_iff.1 h
      cases he
      obtain ⟨w, rfl, hw, rfl, hr⟩ := readDigits_some.1 hm
      exact ⟨minus :: w, rfl, .neg hw, hr⟩
    · obtain ⟨⟨m, r⟩, hm, he⟩ := Option.map_eq_some_iff.1 h
      cases he
      obtain ⟨w, hs, hw, rfl, hr⟩ := readDigits_some.1 hm
      exact ⟨w, hs, .nonneg hw, hr⟩
  · rintro ⟨w, rfl, hw, hr⟩
    cases hw with
    | neg hw =>
      rename_i w
      have hd : readDigits (w ++ rest) = some (digitsValue w, rest) := readDigits_some.2 ⟨w, rfl, hw, rfl, hr⟩
      simp [readNumeral, hd]
    | nonneg hw =>
      have hd : readDigits (w ++ rest) = some (digitsValue w, rest) := readDigits_some.2 ⟨w, rfl, hw, rfl, hr⟩
      rcases w with _ | ⟨c, w⟩
      · exact absurd rfl hw.ne_nil
      · rw [List.cons_append] at hd ⊢
        simp [readNumeral, hw.head_ne_minus rfl, hd]

/-- A numeral is read whole. -/
theorem Numeral.read {w : List UInt8} {n : ℤ} (h : Numeral w n) : readNumeral w = some (n, []) :=
  readNumeral_some.2 ⟨w, (List.append_nil w).symm, h, fun c hc => by cases hc⟩

theorem Numeral.unique {w : List UInt8} {m n : ℤ} (hm : Numeral w m) (hn : Numeral w n) : m = n := by
  have := hm.read.symm.trans hn.read
  simpa using this

/-- What is read whole is a numeral. -/
theorem numeral_of_read {w : List UInt8} {n : ℤ} (h : readNumeral w = some (n, [])) : Numeral w n := by
  obtain ⟨v, hw, hv, -⟩ := readNumeral_some.1 h
  rw [List.append_nil] at hw
  exact hw ▸ hv

/-! ## What follows without a digit -/

section
variable {more : List UInt8} (h : EndsDigits more)
include h

theorem EndsDigits.append {rest : List UInt8} (hr : EndsDigits rest) : EndsDigits (rest ++ more) := by
  rcases rest with _ | ⟨c, rest⟩
  · exact h
  · exact hr

theorem readDigits_extend (s : List UInt8) :
    readDigits (s ++ more) = (readDigits s).map fun p => (p.1, p.2 ++ more) := by
  have hrest : EndsDigits (s.dropWhile isDigit) := by
    intro c hc
    have := List.head?_dropWhile_not isDigit s
    rw [Option.mem_def.1 hc] at this
    exact this
  have hdigits : ∀ c ∈ s.takeWhile isDigit, isDigit c = true := List.all_eq_true.1 List.all_takeWhile
  obtain ⟨htake, hdrop⟩ := takeWhile_digits hdigits (h.append hrest)
  rw [← List.append_assoc, List.takeWhile_append_dropWhile] at htake hdrop
  unfold readDigits
  rw [htake, hdrop]
  split <;> rfl

/-- A numeral is read the same whatever follows it, if that goes on neither as digits nor as a sign. -/
theorem readNumeral_extend (hm : more.head? ≠ some minus) (s : List UInt8) :
    readNumeral (s ++ more) = (readNumeral s).map fun p => (p.1, p.2 ++ more) := by
  rcases s with _ | ⟨c, s⟩
  · rcases more with _ | ⟨c, more⟩
    · rfl
    · have hc : c ≠ minus := fun hc => hm (congrArg some hc)
      have hdigits : readDigits (c :: more) = none := readDigits_extend h []
      show readNumeral (c :: more) = none
      rw [readNumeral, if_neg hc, hdigits]
      rfl
  · rw [List.cons_append, readNumeral, readNumeral]
    split
    · rw [readDigits_extend h, Option.map_map, Option.map_map]
      rfl
    · rw [← List.cons_append, readDigits_extend h, Option.map_map, Option.map_map]
      rfl

end

/-! ## Printing -/

/-- The byte of an ASCII character. -/
def charByte (c : Char) : UInt8 := c.toNat.toUInt8

theorem charByte_digit {c : Char} (h : c.isDigit = true) :
    isDigit (charByte c) = true ∧ (charByte c).toNat - 48 = c.toNat - '0'.toNat := by
  obtain ⟨h1, h2⟩ : 48 ≤ c.toNat ∧ c.toNat ≤ 57 := by
    simpa [Char.isDigit, UInt32.le_iff_toNat_le] using h
  have hn : (charByte c).toNat = c.toNat := by
    unfold charByte
    rw [Nat.toUInt8_eq, UInt8.toNat_ofNat']
    omega
  constructor
  · unfold isDigit
    rw [decide_eq_true_iff, UInt8.le_iff_toNat_le, UInt8.le_iff_toNat_le, hn]
    exact ⟨h1, h2⟩
  · rw [hn]; rfl

theorem digitsValue_map {l : List Char} (h : ∀ c ∈ l, c.isDigit = true) :
    digitsValue (l.map charByte) = Nat.ofDigitChars 10 l 0 := by
  unfold digitsValue
  rw [Nat.ofDigitChars_eq_foldl, List.foldl_map]
  generalize 0 = n
  induction l generalizing n with
  | nil => rfl
  | cons c l ih =>
    rw [List.foldl_cons, List.foldl_cons, (charByte_digit (h c List.mem_cons_self)).2]
    exact ih (fun c hc => h c (List.mem_cons_of_mem _ hc)) _

theorem digits_repr (n : ℕ) : Digits (n.repr.toList.map charByte) ∧ digitsValue (n.repr.toList.map charByte) = n := by
  have hd : ∀ c ∈ n.repr.toList, c.isDigit = true := by
    rw [Nat.toList_repr]
    intro c hc
    exact Nat.isDigit_of_mem_toDigits (by omega) (by omega) hc
  refine ⟨⟨?_, ?_⟩, ?_⟩
  · rw [Nat.toList_repr]
    simp [Nat.toDigits_ne_nil]
  · intro b hb
    obtain ⟨c, hc, rfl⟩ := List.mem_map.1 hb
    exact (charByte_digit (hd c hc)).1
  · rw [digitsValue_map hd, Nat.toList_repr, Nat.ofDigitChars_ten_toDigits]

/-- What is printed of an integer is a numeral of it. -/
theorem numeral_repr (n : ℤ) : Numeral (n.repr.toList.map charByte) n := by
  rcases n with m | m
  · obtain ⟨h, hv⟩ := digits_repr m
    have := Numeral.nonneg h
    rw [hv] at this
    exact this
  · obtain ⟨h, hv⟩ := digits_repr (m + 1)
    have := Numeral.neg h
    rw [hv] at this
    have hs : (Int.negSucc m).repr.toList.map charByte = minus :: (m + 1).repr.toList.map charByte := by
      show ("-" ++ (m + 1).repr).toList.map charByte = _
      rw [String.toList_append]
      rfl
    rw [hs]
    exact this

end Text
