/-
Tables with a primary key, as lists of rows without duplicate keys: the row of a key, and what
the keyed statements (update, delete, upsert, INSERT OR REPLACE) do to it. Two tables with the
same row for every key hold the same rows.
-/
import Mathlib.Data.List.Nodup
import Mathlib.Data.List.Perm.Basic
import Mathlib.Data.List.Perm.Subperm
import Mathlib.Tactic.Common

namespace Sql

variable {ρ κ : Type} [DecidableEq κ] (key : ρ → κ)

/-! ## Statements by key -/

/-- The row of a key. -/
def find (k : κ) (rows : List ρ) : Option ρ := rows.find? fun r => decide (key r = k)

/-- `UPDATE … SET f WHERE key = k`. -/
def update (k : κ) (f : ρ → ρ) (rows : List ρ) : List ρ := rows.map fun r => if key r = k then f r else r

/-- `DELETE … WHERE key = k`. -/
def delete (k : κ) (rows : List ρ) : List ρ := rows.filter fun r => decide (key r ≠ k)

/-- `INSERT … ON CONFLICT (key) DO UPDATE SET f`. -/
def upsert (r : ρ) (f : ρ → ρ) (rows : List ρ) : List ρ :=
  if (find key (key r) rows).isSome then update key (key r) f rows else rows ++ [r]

/-- `INSERT OR REPLACE` of one row: the conflicting row is deleted first. -/
def replace (r : ρ) (rows : List ρ) : List ρ := delete key (key r) rows ++ [r]

/-- `INSERT OR REPLACE … SELECT`: the selected rows one after another. -/
def replaceAll (rs rows : List ρ) : List ρ := rs.foldl (fun rows r => replace key r rows) rows

/-! ## The row of a key -/

theorem find_some {k : κ} {rows : List ρ} {r : ρ} (h : find key k rows = some r) : r ∈ rows ∧ key r = k :=
  ⟨List.mem_of_find?_eq_some h, by simpa using List.find?_some h⟩

theorem find_none {k : κ} {rows : List ρ} : find key k rows = none ↔ ∀ r ∈ rows, key r ≠ k := by
  simp [find]

theorem find_of_mem {rows : List ρ} (hn : (rows.map key).Nodup) {r : ρ} (hr : r ∈ rows) :
    find key (key r) rows = some r := by
  rcases hf : find key (key r) rows with _ | r'
  · exact absurd rfl ((find_none key).1 hf r hr)
  · obtain ⟨hm, hk⟩ := find_some key hf
    rw [List.inj_on_of_nodup_map hn hm hr hk]

theorem mem_iff_find {rows : List ρ} (hn : (rows.map key).Nodup) (r : ρ) :
    r ∈ rows ↔ find key (key r) rows = some r :=
  ⟨find_of_mem key hn, fun h => (find_some key h).1⟩

/-- A table is determined, up to the order of its rows, by the row of each key. -/
theorem perm_of_find {a b : List ρ} (ha : (a.map key).Nodup) (hb : (b.map key).Nodup)
    (h : ∀ k, find key k a = find key k b) : a.Perm b := by
  refine (List.perm_ext_iff_of_nodup ha.of_map hb.of_map).2 fun r => ?_
  rw [mem_iff_find key ha, mem_iff_find key hb, h]

@[simp] theorem find_nil (k : κ) : find key k [] = none := rfl

theorem find_cons (k : κ) (r : ρ) (rows : List ρ) :
    find key k (r :: rows) = if key r = k then some r else find key k rows := by
  unfold find
  by_cases h : key r = k <;> simp [h]

theorem find_append (k : κ) (rows : List ρ) (r : ρ) :
    find key k (rows ++ [r]) = (find key k rows).or (if key r = k then some r else none) := by
  unfold find
  by_cases h : key r = k <;> simp [List.find?_append, h]

theorem find_update {f : ρ → ρ} (hf : ∀ r, key (f r) = key r) (k k' : κ) (rows : List ρ) :
    find key k' (update key k f rows) = if k' = k then (find key k rows).map f else find key k' rows := by
  induction rows with
  | nil => simp [update]
  | cons r rows ih =>
    simp only [update, List.map_cons] at ih ⊢
    simp only [find_cons, ih]
    by_cases hk : key r = k
    · by_cases hk' : k' = k
      · simp [hk, hf, hk']
      · simp [hk, hf, hk', Ne.symm hk']
    · by_cases hk' : k' = k
      · simp [hk, hk']
      · simp [hk, hk']

theorem find_delete (k k' : κ) (rows : List ρ) :
    find key k' (delete key k rows) = if k' = k then none else find key k' rows := by
  induction rows with
  | nil => simp [delete]
  | cons r rows ih =>
    simp only [delete, List.filter_cons] at ih ⊢
    by_cases hk : key r = k
    · simp only [hk, ne_eq, not_true_eq_false, decide_false, Bool.false_eq_true, if_false, ih, find_cons]
      by_cases hk' : k' = k
      · simp [hk']
      · simp [hk', Ne.symm hk']
    · simp only [hk, ne_eq, not_false_eq_true, decide_true, if_true, find_cons, ih]
      by_cases hk' : k' = k
      · simp [hk', hk]
      · simp [hk']

theorem find_upsert {f : ρ → ρ} (hf : ∀ r, key (f r) = key r) (r : ρ) (k : κ) (rows : List ρ) :
    find key k (upsert key r f rows) =
      if k = key r then some ((find key (key r) rows).elim r f) else find key k rows := by
  unfold upsert
  rcases hr : find key (key r) rows with _ | r'
  · simp only [Option.isSome_none, Bool.false_eq_true, if_false, find_append]
    by_cases hk : k = key r
    · subst hk; simp [hr]
    · simp [hk, Ne.symm hk]
  · simp only [Option.isSome_some, if_true, find_update key hf]
    by_cases hk : k = key r <;> simp [hk, hr]

theorem find_replace (r : ρ) (k : κ) (rows : List ρ) :
    find key k (replace key r rows) = if k = key r then some r else find key k rows := by
  unfold replace
  rw [find_append, find_delete]
  by_cases hk : k = key r
  · simp [hk]
  · simp [hk, Ne.symm hk]

/-- Of replacements with distinct keys, the one with the key decides. -/
theorem find_replaceAll (k : κ) :
    ∀ (rs rows : List ρ), (rs.map key).Nodup →
      find key k (replaceAll key rs rows) = (find key k rs).or (find key k rows)
  | [], rows, _ => by simp [replaceAll]
  | r :: rs, rows, hn => by
    simp only [List.map_cons, List.nodup_cons] at hn
    have ih := find_replaceAll k rs (replace key r rows) hn.2
    simp only [replaceAll, List.foldl_cons] at ih ⊢
    rw [ih, find_replace, find_cons]
    by_cases hk : key r = k
    · have hno : find key k rs = none := by
        rw [find_none]
        intro r' hr' h
        exact hn.1 (List.mem_map.2 ⟨r', hr', h.trans hk.symm⟩)
      simp [hk, hno]
    · simp [hk, Ne.symm hk]

/-! ## Keys stay unique -/

theorem keys_update {f : ρ → ρ} (hf : ∀ r, key (f r) = key r) (k : κ) (rows : List ρ) :
    (update key k f rows).map key = rows.map key := by
  unfold update
  rw [List.map_map]
  apply List.map_congr_left
  intro r _
  simp only [Function.comp_apply]
  split
  · exact hf r
  · rfl

theorem nodup_append_singleton {rows : List ρ} (hn : (rows.map key).Nodup) {r : ρ}
    (hr : find key (key r) rows = none) : ((rows ++ [r]).map key).Nodup := by
  rw [List.map_append, List.nodup_append]
  refine ⟨hn, by simp, ?_⟩
  intro a ha b hb
  obtain ⟨r', hr', rfl⟩ := List.mem_map.1 ha
  simp only [List.map_cons, List.map_nil, List.mem_singleton] at hb
  subst hb
  exact (find_none key).1 hr r' hr'

omit [DecidableEq κ] in
theorem nodup_filter {rows : List ρ} (hn : (rows.map key).Nodup) (p : ρ → Bool) :
    ((rows.filter p).map key).Nodup := hn.sublist (List.filter_sublist.map key)

theorem nodup_upsert {rows : List ρ} (hn : (rows.map key).Nodup) {f : ρ → ρ} (hf : ∀ r, key (f r) = key r)
    (r : ρ) : ((upsert key r f rows).map key).Nodup := by
  unfold upsert
  split
  · rw [keys_update key hf]; exact hn
  · rename_i h
    exact nodup_append_singleton key hn (by simpa using h)

theorem nodup_replace {rows : List ρ} (hn : (rows.map key).Nodup) (r : ρ) :
    ((replace key r rows).map key).Nodup := by
  apply nodup_append_singleton key (nodup_filter key hn _)
  rw [find_none]
  intro r' hr'
  simpa using (List.mem_filter.1 hr').2

theorem nodup_replaceAll : ∀ (rs : List ρ) {rows : List ρ}, (rows.map key).Nodup →
    ((replaceAll key rs rows).map key).Nodup
  | [], _, hn => hn
  | r :: rs, _, hn => nodup_replaceAll rs (nodup_replace key hn r)

/-! ## Which rows a statement leaves -/

theorem mem_upsert {r x : ρ} {f : ρ → ρ} {rows : List ρ} (h : x ∈ upsert key r f rows) :
    x = r ∨ x ∈ rows ∨ ∃ y ∈ rows, key y = key r ∧ x = f y := by
  unfold upsert at h
  split at h
  · obtain ⟨y, hy, rfl⟩ := List.mem_map.1 h
    split
    · rename_i hk; exact .inr (.inr ⟨y, hy, hk, rfl⟩)
    · exact .inr (.inl hy)
  · rcases List.mem_append.1 h with h | h
    · exact .inr (.inl h)
    · exact .inl (List.mem_singleton.1 h)

theorem mem_replaceAll : ∀ {rs rows : List ρ} {x : ρ}, x ∈ replaceAll key rs rows → x ∈ rs ∨ x ∈ rows
  | [], _, _, h => .inr h
  | r :: rs, rows, x, h => by
    have h : x ∈ replaceAll key rs (replace key r rows) := h
    rcases mem_replaceAll h with h | h
    · exact .inl (List.mem_cons_of_mem _ h)
    · rcases List.mem_append.1 h with h | h
      · exact .inr (List.mem_filter.1 h).1
      · exact .inl (by rw [List.mem_singleton.1 h]; exact List.mem_cons_self ..)

/-- No statement of INSERT OR REPLACE leaves a key without a row that had one or gets one. -/
theorem exists_replaceAll {k : κ} : ∀ (rs rows : List ρ), ((∃ r ∈ rs, key r = k) ∨ ∃ r ∈ rows, key r = k) →
    ∃ r ∈ replaceAll key rs rows, key r = k
  | [], _, h => by simpa [replaceAll] using h
  | r :: rs, rows, h => by
    refine exists_replaceAll rs (replace key r rows) ?_
    by_cases hk : key r = k
    · exact .inr ⟨r, List.mem_append_right _ (List.mem_singleton_self r), hk⟩
    · rcases h with ⟨x, hx, hxk⟩ | ⟨x, hx, hxk⟩
      · rcases List.mem_cons.1 hx with rfl | hx
        · exact absurd hxk hk
        · exact .inl ⟨x, hx, hxk⟩
      · refine .inr ⟨x, List.mem_append_left _ (List.mem_filter.2 ⟨hx, ?_⟩), hxk⟩
        simpa using fun h => hk (h.symm.trans hxk)

end Sql
