/-
Aggregation over keyed tables: GROUP BY with SUM, joins on a key, and amounts kept by key.
Crediting amounts one at a time, in any order, and replacing the rows of all keys at once by the
old amount plus the grouped sum give the same amount for every key, as long as no two replacement
rows have the same key.
-/
import AuctionHouse.Sql.Table
import Mathlib.Algebra.Order.BigOperators.Group.List
import Mathlib.Data.Int.Basic
import Mathlib.Data.List.Dedup
import Mathlib.Tactic.Ring

namespace Sql

variable {α ρ κ : Type} [DecidableEq κ]

/-! ## Queries -/

/-- The sum of the values of a key. -/
def total (ps : List (κ × ℤ)) (k : κ) : ℤ := (ps.map fun p => if p.1 = k then p.2 else 0).sum

/-- `SELECT key, SUM(value) … GROUP BY key` over pairs of a key and a value. -/
def groupSum (ps : List (κ × ℤ)) : List (κ × ℤ) := (ps.map (·.1)).dedup.map fun k => (k, total ps k)

/-- `l LEFT JOIN rows ON …`: a row without a match is kept with NULL. -/
def leftJoin (on : α → ρ → Bool) (l : List α) (rows : List ρ) : List (α × Option ρ) :=
  l.flatMap fun a =>
    match rows.filter (on a) with
    | [] => [(a, none)]
    | matched => matched.map fun r => (a, some r)

theorem filter_key (key : ρ → κ) (k : κ) :
    ∀ {rows : List ρ}, (rows.map key).Nodup →
      (rows.filter fun r => decide (key r = k)) = (find key k rows).toList
  | [], _ => rfl
  | r :: rows, hn => by
    simp only [List.map_cons, List.nodup_cons] at hn
    rw [List.filter_cons, find_cons]
    by_cases hk : key r = k
    · have hno : (rows.filter fun r => decide (key r = k)) = [] := by
        rw [List.filter_eq_nil_iff]
        intro r' hr'
        simpa using fun h => hn.1 (List.mem_map.2 ⟨r', hr', h.trans hk.symm⟩)
      simp [hk, hno]
    · simpa [hk] using filter_key key k hn.2

/-- A LEFT JOIN on the primary key finds at most one row. -/
theorem leftJoin_key {key : ρ → κ} {f : α → κ} {rows : List ρ} (hn : (rows.map key).Nodup) (l : List α) :
    leftJoin (fun a r => decide (key r = f a)) l rows = l.map fun a => (a, find key (f a) rows) := by
  unfold leftJoin
  rw [← List.flatMap_singleton' (l.map _), List.flatMap_map]
  congr 1
  funext a
  rw [filter_key key (f a) hn]
  cases find key (f a) rows <;> rfl

/-- `l INNER JOIN rows ON …`. -/
def innerJoin (on : α → ρ → Bool) (l : List α) (rows : List ρ) : List (α × ρ) :=
  l.flatMap fun a => (rows.filter (on a)).map fun r => (a, r)

theorem mem_innerJoin {on : α → ρ → Bool} {l : List α} {rows : List ρ} {p : α × ρ} :
    p ∈ innerJoin on l rows ↔ p.1 ∈ l ∧ p.2 ∈ rows ∧ on p.1 p.2 = true := by
  simp only [innerJoin, List.mem_flatMap, List.mem_map, List.mem_filter]
  constructor
  · rintro ⟨a, ha, r, ⟨hr, hon⟩, rfl⟩
    exact ⟨ha, hr, hon⟩
  · rintro ⟨ha, hr, hon⟩
    exact ⟨p.1, ha, p.2, ⟨hr, hon⟩, rfl⟩

/-- An INNER JOIN on a primary key in which every key is found has each row once. -/
theorem innerJoin_found {key : ρ → κ} {f : α → κ} {rows : List ρ} (hn : (rows.map key).Nodup) {l : List α}
    (h : ∀ a ∈ l, ∃ r ∈ rows, key r = f a) :
    (innerJoin (fun a r => decide (key r = f a)) l rows).map Prod.fst = l := by
  unfold innerJoin
  induction l with
  | nil => rfl
  | cons a l ih =>
    obtain ⟨r, hr, hk⟩ := h a List.mem_cons_self
    have hone : rows.filter (fun r => decide (key r = f a)) = [r] := by
      rw [filter_key key (f a) hn, ← hk, find_of_mem key hn hr]
      rfl
    rw [List.flatMap_cons, List.map_append, ih fun a ha => h a (List.mem_cons_of_mem _ ha), hone]
    rfl

/-! ## Totals -/

@[simp] theorem total_nil (k : κ) : total [] k = 0 := rfl

@[simp] theorem total_cons (p : κ × ℤ) (ps : List (κ × ℤ)) (k : κ) :
    total (p :: ps) k = (if p.1 = k then p.2 else 0) + total ps k := by simp [total]

@[simp] theorem total_append (ps qs : List (κ × ℤ)) (k : κ) : total (ps ++ qs) k = total ps k + total qs k := by
  simp [total]

theorem total_perm {ps qs : List (κ × ℤ)} (h : ps.Perm qs) (k : κ) : total ps k = total qs k :=
  (h.map _).sum_eq

theorem total_of_notMem {ps : List (κ × ℤ)} {k : κ} (h : k ∉ ps.map (·.1)) : total ps k = 0 := by
  unfold total
  apply List.sum_eq_zero
  intro x hx
  obtain ⟨p, hp, rfl⟩ := List.mem_map.1 hx
  exact if_neg fun hk => h (List.mem_map.2 ⟨p, hp, hk⟩)

theorem total_nonneg {ps : List (κ × ℤ)} (h : ∀ p ∈ ps, 0 ≤ p.2) (k : κ) : 0 ≤ total ps k := by
  apply List.sum_nonneg
  intro x hx
  obtain ⟨p, hp, rfl⟩ := List.mem_map.1 hx
  split
  · exact h p hp
  · exact le_rfl

theorem keys_groupSum (ps : List (κ × ℤ)) : (groupSum ps).map (·.1) = (ps.map (·.1)).dedup := by
  simp [groupSum, Function.comp_def]

theorem find_groupSum (ps : List (κ × ℤ)) (k : κ) :
    find (·.1) k (groupSum ps) = if k ∈ ps.map (·.1) then some (k, total ps k) else none := by
  have hn : ((groupSum ps).map (·.1)).Nodup := by rw [keys_groupSum]; exact List.nodup_dedup _
  split
  · rename_i h
    exact find_of_mem (·.1) hn (r := (k, total ps k)) (List.mem_map.2 ⟨k, List.mem_dedup.2 h, rfl⟩)
  · rename_i h
    rw [find_none]
    intro r hr hk
    apply h
    rw [← List.mem_dedup, ← keys_groupSum, ← hk]
    exact List.mem_map_of_mem hr

/-- Renaming the keys after grouping or before gives the same groups. -/
theorem groupSum_map {κ' : Type} [DecidableEq κ'] {f : κ → κ'} (hf : Function.Injective f) (ps : List (κ × ℤ)) :
    (groupSum ps).map (fun p => (f p.1, p.2)) = groupSum (ps.map fun p => (f p.1, p.2)) := by
  have ht : ∀ k, total (ps.map fun p => (f p.1, p.2)) (f k) = total ps k := by
    intro k
    simp only [total, List.map_map, Function.comp_def, hf.eq_iff]
  have hk : (ps.map fun p => (f p.1, p.2)).map (·.1) = (ps.map (·.1)).map f := by simp [Function.comp_def]
  unfold groupSum
  rw [hk, List.dedup_map_of_injective hf, List.map_map, List.map_map]
  simp only [Function.comp_def, ht]

/-! ## Amounts by key -/

/-- The amount of each key; none for a key without a row. -/
def amounts (key : ρ → κ) (value : ρ → ℤ) (rows : List ρ) (k : κ) : Option ℤ := (find key k rows).map value

/-- Adds to the amount of a key, which counts as 0 when it has no row. -/
def credit (k : κ) (a : ℤ) (b : κ → Option ℤ) (j : κ) : Option ℤ :=
  if j = k then some ((b k).getD 0 + a) else b j

def creditAll (ps : List (κ × ℤ)) (b : κ → Option ℤ) : κ → Option ℤ := ps.foldl (fun b p => credit p.1 p.2 b) b

@[simp] theorem creditAll_nil (b : κ → Option ℤ) : creditAll [] b = b := rfl

@[simp] theorem creditAll_cons (p : κ × ℤ) (ps : List (κ × ℤ)) (b : κ → Option ℤ) :
    creditAll (p :: ps) b = creditAll ps (credit p.1 p.2 b) := rfl

theorem creditAll_append (ps qs : List (κ × ℤ)) (b : κ → Option ℤ) :
    creditAll (ps ++ qs) b = creditAll qs (creditAll ps b) := List.foldl_append

/-- After any credits a key has its old amount plus its total; a key not credited is untouched. -/
theorem creditAll_apply : ∀ (ps : List (κ × ℤ)) (b : κ → Option ℤ) (k : κ),
    creditAll ps b k = if k ∈ ps.map (·.1) then some ((b k).getD 0 + total ps k) else b k
  | [], b, k => by simp
  | p :: ps, b, k => by
    rw [creditAll_cons, creditAll_apply ps]
    by_cases hp : p.1 = k
    · subst hp
      by_cases hm : p.1 ∈ ps.map (·.1)
      · simp [credit, hm, Int.add_assoc]
      · simp [credit, hm, total_of_notMem hm]
    · by_cases hm : k ∈ ps.map (·.1) <;> simp [credit, hm, hp, Ne.symm hp]

theorem creditAll_perm {ps qs : List (κ × ℤ)} (h : ps.Perm qs) (b : κ → Option ℤ) :
    creditAll ps b = creditAll qs b := by
  funext k
  simp only [creditAll_apply, total_perm h, (h.map (·.1)).mem_iff]

/-- Positive credits keep the amounts of some keys positive. -/
theorem creditAll_pos {p : κ → Prop} : ∀ {ps : List (κ × ℤ)} {b : κ → Option ℤ}, (∀ x ∈ ps, 0 < x.2) →
    (∀ k q, p k → b k = some q → 0 < q) → ∀ k q, p k → creditAll ps b k = some q → 0 < q
  | [], _, _, hb => hb
  | x :: ps, b, hps, hb => by
    have hb' : ∀ k q, p k → credit x.1 x.2 b k = some q → 0 < q := by
      intro k q hk hq
      unfold credit at hq
      split at hq
      · rename_i hkx
        subst hkx
        have hx := hps x List.mem_cons_self
        rcases hold : b x.1 with _ | old
        · rw [hold] at hq
          cases hq
          simpa using hx
        · rw [hold] at hq
          cases hq
          exact Int.add_pos (hb _ _ hk hold) hx
      · exact hb k q hk hq
    rw [creditAll_cons]
    exact creditAll_pos (fun y hy => hps y (List.mem_cons_of_mem x hy)) hb'

/-- The amount of a key, taken as 0 without a row, after any credits. -/
theorem creditAll_getD (ps : List (κ × ℤ)) (b : κ → Option ℤ) (k : κ) :
    (creditAll ps b k).getD 0 = (b k).getD 0 + total ps k := by
  rw [creditAll_apply]
  split
  · rfl
  · rename_i h; rw [total_of_notMem h, Int.add_zero]

section
variable (key : ρ → κ) (value : ρ → ℤ) (row : κ → ℤ → ρ)

/-- `INSERT OR REPLACE` of rows holding the old amount plus an increment for each key of `incs`
credits the increments, when no two of them have the same key. -/
theorem amounts_replaceAll (hkey : ∀ k a, key (row k a) = k) (hvalue : ∀ k a, value (row k a) = a)
    {incs : List (κ × ℤ)} (hn : (incs.map (·.1)).Nodup) (rows : List ρ) (k : κ) :
    amounts key value (replaceAll key
      (incs.map fun p => row p.1 ((amounts key value rows p.1).getD 0 + p.2)) rows) k =
      match find (·.1) k incs with
      | some p => some ((amounts key value rows k).getD 0 + p.2)
      | none => amounts key value rows k := by
  have hk : ∀ l : List (κ × ℤ), (l.map fun p => row p.1 ((amounts key value rows p.1).getD 0 + p.2)).map key =
      l.map (·.1) := by
    intro l; simp [Function.comp_def, hkey]
  have hfind : ∀ l : List (κ × ℤ),
      find key k (l.map fun p => row p.1 ((amounts key value rows p.1).getD 0 + p.2)) =
        (find (·.1) k l).map fun p => row p.1 ((amounts key value rows p.1).getD 0 + p.2) := by
    intro l
    induction l with
    | nil => rfl
    | cons p l ih =>
      rw [List.map_cons, find_cons, find_cons, ih, hkey]
      split <;> rfl
  show (find key k (replaceAll key _ rows)).map value = _
  rw [find_replaceAll key k _ rows (by rw [hk]; exact hn), hfind]
  cases hf : find (fun p : κ × ℤ => p.1) k incs with
  | none => rfl
  | some p =>
    obtain ⟨-, rfl⟩ := find_some _ hf
    simp [hvalue]

theorem amounts_upsert (hkey : ∀ k a, key (row k a) = k) (hvalue : ∀ k a, value (row k a) = a)
    {f : ρ → ρ} (hf : ∀ r, key (f r) = key r) {a : ℤ} (hfv : ∀ r, value (f r) = value r + a)
    (k : κ) (rows : List ρ) :
    amounts key value (upsert key (row k a) f rows) = credit k a (amounts key value rows) := by
  funext j
  unfold amounts credit
  rw [find_upsert key hf, hkey]
  by_cases hj : j = k
  · simp only [hj, if_true, Option.map_some, Option.some.injEq]
    cases find key k rows <;> simp [hvalue, hfv]
  · simp [hj]

end

/-- The grouped sums of two lists of increments without a common key credit both lists. -/
theorem find_groupSum_append {ps qs : List (κ × ℤ)} (hd : ∀ k ∈ ps.map (·.1), k ∉ qs.map (·.1)) (k : κ)
    (b : κ → Option ℤ) :
    (match find (·.1) k (groupSum ps ++ groupSum qs) with
      | some p => some ((b k).getD 0 + p.2)
      | none => b k) = creditAll (ps ++ qs) b k := by
  have happ : find (·.1) k (groupSum ps ++ groupSum qs) =
      (find (·.1) k (groupSum ps)).or (find (·.1) k (groupSum qs)) := by
    simp [find, List.find?_append]
  rw [happ, find_groupSum, find_groupSum, creditAll_apply, total_append]
  by_cases hp : k ∈ ps.map (·.1)
  · have hq := hd k hp
    simp [hp, total_of_notMem hq]
  · by_cases hq : k ∈ qs.map (·.1)
    · simp [hp, hq, total_of_notMem hp]
    · simp [hp, hq]

theorem nodup_groupSum_append {ps qs : List (κ × ℤ)} (hd : ∀ k ∈ ps.map (·.1), k ∉ qs.map (·.1)) :
    ((groupSum ps ++ groupSum qs).map (·.1)).Nodup := by
  rw [List.map_append, keys_groupSum, keys_groupSum, List.nodup_append]
  refine ⟨List.nodup_dedup _, List.nodup_dedup _, ?_⟩
  rintro a ha b hb rfl
  exact hd a (List.mem_dedup.1 ha) (List.mem_dedup.1 hb)

end Sql
