/-
Streams that arrive in chunks: a stream does not say where its chunks end, so chunks are only told
apart by their lengths.
-/
import Mathlib.Data.List.Infix

namespace Text

variable {α : Type} {cap : ℕ} {stream : List α} {chunks : List (List α)}

/-- The chunks in which a stream arrives, none of them empty and none above the capacity. -/
structure Segments (cap : ℕ) (stream : List α) (chunks : List (List α)) : Prop where
  flatten : chunks.flatten = stream
  size : ∀ chunk ∈ chunks, 0 < chunk.length ∧ chunk.length ≤ cap

/-- The first chunks that carry the whole stream are all of them. -/
theorem Segments.eq_of_prefix (h : Segments cap stream chunks) {first : List (List α)} (hp : first <+: chunks)
    (hf : first.flatten = stream) : first = chunks := by
  obtain ⟨rest, rfl⟩ := hp
  have hflat := h.flatten
  rw [List.flatten_append, hf, List.append_right_eq_self, List.flatten_eq_nil_iff] at hflat
  rcases rest with _ | ⟨chunk, rest⟩
  · exact (List.append_nil _).symm
  · have hempty : chunk = [] := hflat chunk List.mem_cons_self
    have hsize := (h.size chunk (List.mem_append_right _ List.mem_cons_self)).1
    rw [hempty] at hsize
    exact absurd hsize (Nat.lt_irrefl 0)

/-- The chunks of a stream are the pieces it was made of exactly when they have the same lengths. -/
theorem Segments.eq_iff {pieces : List (List α)} (h : Segments cap pieces.flatten chunks) :
    chunks = pieces ↔ chunks.map List.length = pieces.map List.length := by
  rw [List.eq_iff_flatten_eq]
  exact and_iff_right h.flatten

/-- A stream may arrive element by element. -/
theorem segments_singletons (hcap : 1 ≤ cap) (stream : List α) : Segments cap stream (stream.map fun a => [a]) := by
  constructor
  · rw [← List.flatMap_def, List.flatMap_singleton']
  · intro chunk hc
    obtain ⟨a, -, rfl⟩ := List.mem_map.1 hc
    exact ⟨Nat.one_pos, hcap⟩

/-- A stream may arrive element by element but for its first two elements, which arrive together. -/
theorem segments_pair (hcap : 2 ≤ cap) (a b : α) (stream : List α) :
    Segments cap (a :: b :: stream) ([a, b] :: stream.map fun a => [a]) := by
  have h := segments_singletons (Nat.le_of_succ_le hcap) stream
  constructor
  · rw [List.flatten_cons, h.flatten]
    rfl
  · intro chunk hc
    rcases List.mem_cons.1 hc with rfl | hc
    · exact ⟨Nat.two_pos, hcap⟩
    · exact h.size chunk hc

/-- Every arrival keeps the pieces apart only when there is nothing to keep apart. -/
theorem segments_unique_iff (hcap : 2 ≤ cap) {pieces : List (List α)} :
    (∀ chunks, Segments cap pieces.flatten chunks → chunks = pieces) ↔ pieces = [] ∨ ∃ a, pieces = [[a]] := by
  constructor
  · intro h
    have hsingle := h _ (segments_singletons (Nat.le_of_succ_le hcap) pieces.flatten)
    rcases hs : pieces.flatten with _ | ⟨a, _ | ⟨b, stream⟩⟩
    · rw [hs] at hsingle
      exact .inl hsingle.symm
    · rw [hs] at hsingle
      exact .inr ⟨a, hsingle.symm⟩
    · have hpair := h _ (by rw [hs]; exact segments_pair hcap a b stream)
      rw [hs, ← hpair] at hsingle
      cases hsingle
  · rintro (rfl | ⟨a, rfl⟩) chunks hc
    · exact (hc.eq_of_prefix List.nil_prefix rfl).symm
    · rw [hc.eq_iff]
      have hflat := hc.flatten
      rw [List.flatten_singleton, List.flatten_eq_singleton_iff] at hflat
      obtain ⟨before, after, rfl, hbefore, hafter⟩ := hflat
      -- empty chunks do not arrive
      have hnone : ∀ chunk ∈ before ++ [a] :: after, chunk ≠ [] := fun chunk hm h0 =>
        absurd (hc.size chunk hm).1 (by rw [h0]; exact Nat.lt_irrefl 0)
      obtain rfl : before = [] := List.eq_nil_iff_forall_not_mem.2 fun chunk hm =>
        hnone chunk (List.mem_append_left _ hm) (hbefore chunk hm)
      obtain rfl : after = [] := List.eq_nil_iff_forall_not_mem.2 fun chunk hm =>
        hnone chunk (List.mem_append_right _ (List.mem_cons_of_mem _ hm)) (hafter chunk hm)
      rfl

end Text
