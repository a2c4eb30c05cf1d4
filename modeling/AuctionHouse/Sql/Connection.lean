/-
A connection to a transactional store, over any store `σ` and error `ε`: statements that may be
refused, BEGIN, COMMIT and ROLLBACK, and a guard that rolls back when its scope ends uncommitted.
The engine's own refusals are a list of outcomes for the coming statements, so a theorem for
every list of outcomes is a theorem for every statement that fails. With a refusal the engine may
roll back the transaction, and what runs on after it runs outside of any.
-/
import Mathlib.Tactic.Basic

namespace Sql

/-! ## Results of a run -/

section
variable {ε s α β : Type}

/-- What a run returned. -/
def outcome : EStateM.Result ε s α → Except ε α
  | .ok a _ => .ok a
  | .error e _ => .error e

/-- The state a run left behind. -/
def after : EStateM.Result ε s α → s
  | .ok _ c => c
  | .error _ c => c

@[simp] theorem outcome_ok (a : α) (c : s) : outcome (.ok a c : EStateM.Result ε s α) = .ok a := rfl
@[simp] theorem outcome_error (e : ε) (c : s) : outcome (.error e c : EStateM.Result ε s α) = .error e := rfl
@[simp] theorem after_ok (a : α) (c : s) : after (.ok a c : EStateM.Result ε s α) = c := rfl
@[simp] theorem after_error (e : ε) (c : s) : after (.error e c : EStateM.Result ε s α) = c := rfl

/-- Rewrites the error of a failing run. -/
def mapError (f : ε → ε) (x : EStateM ε s α) : EStateM ε s α := fun c =>
  match x c with
  | .ok a c => .ok a c
  | .error e c => .error (f e) c

/-- Runs `y` when `x` fails, in the state `x` left. -/
def orElse (x y : EStateM ε s α) : EStateM ε s α := fun c =>
  match x c with
  | .ok a c => .ok a c
  | .error _ c => y c

/-- Keeps the result of `x` as a value, failed or not. -/
def attempt (x : EStateM ε s α) : EStateM ε s (Except ε α) := fun c =>
  match x c with
  | .ok a c => .ok (.ok a) c
  | .error e c => .ok (.error e) c

/-- Returns a kept result. -/
def ofExcept : Except ε α → EStateM ε s α
  | .ok a => pure a
  | .error e => throw e

theorem bind_apply (x : EStateM ε s α) (f : α → EStateM ε s β) (c : s) :
    (x >>= f) c = match x c with
      | .ok a c' => f a c'
      | .error e c' => .error e c' := rfl

theorem ite_apply (p : Prop) [Decidable p] (x y : EStateM ε s α) (c : s) :
    (if p then x else y) c = if p then x c else y c := by
  split <;> rfl

theorem bind_of_ok {x : EStateM ε s α} {c c' : s} {a : α} (h : x c = .ok a c') (f : α → EStateM ε s β) :
    (x >>= f) c = f a c' := by
  rw [bind_apply, h]

theorem bind_of_error {x : EStateM ε s α} {c c' : s} {e : ε} (h : x c = .error e c') (f : α → EStateM ε s β) :
    (x >>= f) c = .error e c' := by
  rw [bind_apply, h]

theorem bind_ok_iff {x : EStateM ε s α} {f : α → EStateM ε s β} {c c' : s} {b : β} :
    (x >>= f) c = .ok b c' ↔ ∃ a c₁, x c = .ok a c₁ ∧ f a c₁ = .ok b c' := by
  rw [bind_apply]
  rcases x c with ⟨a, c₁⟩ | ⟨e, c₁⟩ <;> simp [and_assoc]

theorem bind_error_iff {x : EStateM ε s α} {f : α → EStateM ε s β} {c c' : s} {e : ε} :
    (x >>= f) c = .error e c' ↔
      x c = .error e c' ∨ ∃ a c₁, x c = .ok a c₁ ∧ f a c₁ = .error e c' := by
  rw [bind_apply]
  rcases x c with ⟨a, c₁⟩ | ⟨e₁, c₁⟩ <;> simp [and_assoc]

theorem map_ok_iff {g : α → β} {x : EStateM ε s α} {c c' : s} {b : β} :
    (g <$> x) c = .ok b c' ↔ ∃ a, x c = .ok a c' ∧ g a = b := by
  show EStateM.map g x c = _ ↔ _
  unfold EStateM.map
  rcases x c with ⟨a, c₁⟩ | ⟨e, c₁⟩
  · simp only [EStateM.Result.ok.injEq]
    constructor
    · rintro ⟨rfl, rfl⟩; exact ⟨a, ⟨rfl, rfl⟩, rfl⟩
    · rintro ⟨_, ⟨rfl, rfl⟩, rfl⟩; exact ⟨rfl, rfl⟩
  · simp

theorem after_map (g : α → β) (x : EStateM ε s α) (c : s) : after ((g <$> x) c) = after (x c) := by
  show after (EStateM.map g x c) = _
  unfold EStateM.map
  rcases x c with ⟨a, c₁⟩ | ⟨e, c₁⟩ <;> rfl

theorem outcome_map (g : α → β) (x : EStateM ε s α) (c : s) : outcome ((g <$> x) c) = (outcome (x c)).map g := by
  show outcome (EStateM.map g x c) = _
  unfold EStateM.map
  rcases x c with ⟨a, c₁⟩ | ⟨e, c₁⟩ <;> rfl

theorem mapError_ok_iff {f : ε → ε} {x : EStateM ε s α} {c c' : s} {a : α} :
    mapError f x c = .ok a c' ↔ x c = .ok a c' := by
  unfold mapError
  rcases x c with ⟨a, c₁⟩ | ⟨e₁, c₁⟩ <;> simp

theorem mapError_error {f : ε → ε} {x : EStateM ε s α} {c c' : s} {e : ε} (h : mapError f x c = .error e c') :
    ∃ e', x c = .error e' c' := by
  unfold mapError at h
  rcases hx : x c with ⟨a, c₁⟩ | ⟨e₁, c₁⟩
  · rw [hx] at h; cases h
  · rw [hx] at h; cases h; exact ⟨e₁, rfl⟩

theorem mapError_of_error {x : EStateM ε s α} {c c' : s} {e : ε} (h : x c = .error e c') (f : ε → ε) :
    mapError f x c = .error (f e) c' := by
  rw [mapError, h]

theorem after_mapError (f : ε → ε) (x : EStateM ε s α) (c : s) : after (mapError f x c) = after (x c) := by
  unfold mapError
  rcases x c with ⟨a, c₁⟩ | ⟨e₁, c₁⟩ <;> rfl

theorem attempt_apply (x : EStateM ε s α) (c : s) :
    attempt x c = .ok (outcome (x c)) (after (x c)) := by
  unfold attempt
  rcases x c with ⟨a, c₁⟩ | ⟨e, c₁⟩ <;> rfl

end

/-! ## Connections and statements -/

/-- An engine's refusal of a statement, with which it may roll back the transaction that is open. -/
structure Fault (ε : Type) where
  error : ε
  rolledBack : Bool := false

/-- The refusal without a rollback. -/
def Fault.held {ε : Type} (fault : Fault ε) : Fault ε := { fault with rolledBack := false }

/-- A connection: what the next statement reads, the store as it was at BEGIN while a transaction
is open, and the engine's refusals of the coming statements, in order (none after the last). -/
structure Connection (σ ε : Type) where
  db : σ
  saved : Option σ
  faults : List (Option (Fault ε))

/-- A program over a connection. -/
abbrev Exec (σ ε α : Type) := EStateM ε (Connection σ ε) α

section
variable {σ ε α β : Type}

/-- A connection outside any transaction. -/
def Connection.idle (db : σ) (faults : List (Option (Fault ε)) := []) : Connection σ ε := ⟨db, none, faults⟩

/-- Takes the engine's answer for the next statement. -/
def Connection.pop (c : Connection σ ε) : Option (Fault ε) × Connection σ ε :=
  match c.faults with
  | [] => (none, c)
  | f :: rest => (f, { c with faults := rest })

/-- ROLLBACK: the store as it was at BEGIN; without a transaction it fails and changes nothing. -/
def Connection.rollback (c : Connection σ ε) : Connection σ ε :=
  match c.saved with
  | some db => { c with db, saved := none }
  | none => c

/-- What a refusal leaves of the connection. -/
def Connection.refuse (c : Connection σ ε) (fault : Fault ε) : Connection σ ε :=
  if fault.rolledBack then c.rollback else c

/-- Runs one statement: refused, it has no effect of its own. -/
def statement (f : σ → Except ε (α × σ)) : Exec σ ε α := fun c =>
  match c.pop with
  | (some fault, c) => .error fault.error (c.refuse fault)
  | (none, c) =>
    match f c.db with
    | .ok (a, db) => .ok a { c with db }
    | .error e => .error e c

/-- BEGIN; `nested` is the complaint when a transaction is already open. -/
def begin (nested : ε) : Exec σ ε Unit := fun c =>
  match c.pop with
  | (some fault, c) => .error fault.error (c.refuse fault)
  | (none, c) =>
    match c.saved with
    | none => .ok () { c with saved := some c.db }
    | some _ => .error nested c

/-- COMMIT; `absent` is the complaint when no transaction is open. -/
def commit (absent : ε) : Exec σ ε Unit := fun c =>
  match c.pop with
  | (some fault, c) => .error fault.error (c.refuse fault)
  | (none, c) =>
    match c.saved with
    | some _ => .ok () { c with saved := none }
    | none => .error absent c

@[simp] theorem pop_db (c : Connection σ ε) : c.pop.2.db = c.db := by
  unfold Connection.pop; split <;> rfl

@[simp] theorem pop_saved (c : Connection σ ε) : c.pop.2.saved = c.saved := by
  unfold Connection.pop; split <;> rfl

/-- Asking the engine changes nothing but what it answers next. -/
theorem pop_spec (c : Connection σ ε) :
    ∃ fault c₁, c.pop = (fault, c₁) ∧ c₁.db = c.db ∧ c₁.saved = c.saved := ⟨_, _, rfl, pop_db c, pop_saved c⟩

/-- A statement that succeeds was not refused and did what it does to the store. -/
theorem statement_ok {f : σ → Except ε (α × σ)} {c c' : Connection σ ε} {a : α}
    (h : statement f c = .ok a c') : f c.db = .ok (a, c'.db) ∧ c'.saved = c.saved := by
  unfold statement at h
  obtain ⟨_ | fault, c₁, hp, hdb, hsv⟩ := pop_spec c
  · rw [hp] at h
    simp only at h
    split at h
    · rename_i hf
      cases h
      exact ⟨by rw [← hdb, hf], hsv⟩
    · cases h
  · rw [hp] at h; cases h

/-- The store is related to what it was; or the engine has rolled the transaction back, and the store is
related to what it was at BEGIN. -/
def Connection.Leads (R : σ → σ → Prop) (c c' : Connection σ ε) : Prop :=
  c'.saved = c.saved ∧ R c.db c'.db ∨ c'.saved = none ∧ ∃ db, c.saved = some db ∧ R db c'.db

/-- A connection after a failure: as it was, or the transaction that was open is rolled back. -/
abbrev Connection.Undone (c c' : Connection σ ε) : Prop := c.Leads Eq c'

namespace Connection.Leads

variable {R R' : σ → σ → Prop} {c c₁ c' : Connection σ ε}

/-- Outside a transaction there is nothing to roll back. -/
theorem idle (h : c.Leads R c') (hs : c.saved = none) : c'.saved = none ∧ R c.db c'.db := by
  rcases h with ⟨hsaved, hr⟩ | ⟨-, db, hdb, -⟩
  · exact ⟨hsaved.trans hs, hr⟩
  · rw [hs] at hdb
    cases hdb

theorem imp (h : c.Leads R c') (hr : ∀ a b, R a b → R' a b) : c.Leads R' c' := by
  rcases h with ⟨hs, h⟩ | ⟨hs, db, hdb, h⟩
  · exact .inl ⟨hs, hr _ _ h⟩
  · exact .inr ⟨hs, db, hdb, hr _ _ h⟩

theorem trans (ht : ∀ a b c, R a b → R b c → R a c) (h : c.Leads R c₁) (h' : c₁.Leads R c') : c.Leads R c' := by
  rcases h with ⟨hs, h⟩ | ⟨hs, db, hdb, h⟩
  · rcases h' with ⟨hs', h'⟩ | ⟨hs', db, hdb, h'⟩
    · exact .inl ⟨hs'.trans hs, ht _ _ _ h h'⟩
    · exact .inr ⟨hs', db, hs ▸ hdb, h'⟩
  · -- after a rollback the next statements run outside the transaction
    obtain ⟨hs', h'⟩ := h'.idle hs
    exact .inr ⟨hs', db, hdb, ht _ _ _ h h'⟩

theorem of_pop (h : c₁.Leads R c') (hdb : c₁.db = c.db) (hs : c₁.saved = c.saved) : c.Leads R c' := by
  unfold Connection.Leads at h ⊢
  rwa [hdb, hs] at h

end Connection.Leads

theorem Connection.undone_refuse (c : Connection σ ε) (fault : Fault ε) : c.Undone (c.refuse fault) := by
  unfold Connection.refuse Connection.rollback
  split
  · split
    · rename_i hs
      exact .inr ⟨rfl, _, hs, rfl⟩
    · exact .inl ⟨rfl, rfl⟩
  · exact .inl ⟨rfl, rfl⟩

@[simp] theorem Connection.refuse_faults (c : Connection σ ε) (fault : Fault ε) : (c.refuse fault).faults = c.faults := by
  unfold Connection.refuse Connection.rollback
  split
  · split <;> rfl
  · rfl

/-- A statement that fails did nothing, but the engine may have rolled its transaction back. -/
theorem statement_error {f : σ → Except ε (α × σ)} {c c' : Connection σ ε} {e : ε}
    (h : statement f c = .error e c') : c.Undone c' := by
  unfold statement at h
  obtain ⟨_ | fault, c₁, hp, hdb, hsv⟩ := pop_spec c
  all_goals
    rw [hp] at h
    simp only at h
  · split at h
    · cases h
    · cases h; exact .inl ⟨hsv, hdb.symm⟩
  · cases h; exact (c₁.undone_refuse fault).of_pop hdb hsv

/-- The engine does not roll back at the next statement. -/
def Held (faults : List (Option (Fault ε))) : Prop := ∀ fault, faults.head? = some (some fault) → fault.rolledBack = false

/-- Such a statement changes nothing when it fails. -/
theorem statement_error_held {f : σ → Except ε (α × σ)} {c c' : Connection σ ε} {e : ε} (hheld : Held c.faults)
    (h : statement f c = .error e c') : c'.db = c.db ∧ c'.saved = c.saved := by
  unfold statement at h
  rcases hp : c.pop with ⟨_ | fault, c₁⟩
  all_goals
    have hdb : c₁.db = c.db := by rw [← pop_db c, hp]
    have hsv : c₁.saved = c.saved := by rw [← pop_saved c, hp]
    rw [hp] at h
    simp only at h
  · split at h
    · cases h
    · cases h; exact ⟨hdb, hsv⟩
  · have hhead : c.faults.head? = some (some fault) := by
      unfold Connection.pop at hp
      rcases hf : c.faults with _ | ⟨f, rest⟩
      · rw [hf] at hp; cases hp
      · rw [hf] at hp; cases hp; rfl
    unfold Connection.refuse at h
    rw [hheld fault hhead] at h
    cases h
    exact ⟨hdb, hsv⟩

/-- A statement takes one answer of the engine, whatever comes of it. -/
theorem statement_faults (f : σ → Except ε (α × σ)) (c : Connection σ ε) :
    (after (statement f c)).faults = c.faults.tail := by
  have hp : c.pop.2.faults = c.faults.tail := by
    unfold Connection.pop
    split
    · rename_i hf; rw [hf]; rfl
    · rename_i hf; rw [hf]; rfl
  unfold statement
  rcases h : c.pop with ⟨_ | fault, c₁⟩
  · rw [h] at hp
    simp only
    split
    · exact hp
    · exact hp
  · rw [h] at hp
    exact (c₁.refuse_faults fault).trans hp

/-- Without refusals a statement does what it does to the store. -/
@[simp] theorem statement_calm (f : σ → Except ε (α × σ)) (db : σ) (saved : Option σ) :
    statement f ⟨db, saved, []⟩ = match f db with
      | .ok (a, db') => .ok a ⟨db', saved, []⟩
      | .error e => .error e ⟨db, saved, []⟩ := rfl

@[simp] theorem begin_calm (nested : ε) (db : σ) :
    begin nested ⟨db, none, []⟩ = .ok () ⟨db, some db, []⟩ := rfl

theorem begin_ok {nested : ε} {c c' : Connection σ ε} (h : begin nested c = .ok () c') :
    c.saved = none ∧ c'.saved = some c.db ∧ c'.db = c.db := by
  unfold begin at h
  obtain ⟨_ | fault, c₁, hp, hdb, hsv⟩ := pop_spec c
  · rw [hp] at h
    simp only at h
    split at h
    · rename_i hs
      cases h
      exact ⟨hsv ▸ hs, by rw [← hdb], hdb⟩
    · cases h
  · rw [hp] at h; cases h

theorem begin_error {nested e : ε} {c c' : Connection σ ε} (h : begin nested c = .error e c') :
    c.Undone c' := by
  unfold begin at h
  obtain ⟨_ | fault, c₁, hp, hdb, hsv⟩ := pop_spec c
  all_goals
    rw [hp] at h
    simp only at h
  · split at h
    · cases h
    · cases h; exact .inl ⟨hsv, hdb.symm⟩
  · cases h; exact (c₁.undone_refuse fault).of_pop hdb hsv

/-- A successful COMMIT keeps the store and closes the transaction. -/
theorem commit_ok {absent : ε} {c c' : Connection σ ε} (h : commit absent c = .ok () c') :
    c'.saved = none ∧ c'.db = c.db := by
  unfold commit at h
  obtain ⟨_ | fault, c₁, hp, hdb, -⟩ := pop_spec c
  · rw [hp] at h
    simp only at h
    split at h
    · cases h; exact ⟨rfl, hdb⟩
    · cases h
  · rw [hp] at h; cases h

theorem commit_error {absent e : ε} {c c' : Connection σ ε} (h : commit absent c = .error e c') : c.Undone c' := by
  unfold commit at h
  obtain ⟨_ | fault, c₁, hp, hdb, hsv⟩ := pop_spec c
  all_goals
    rw [hp] at h
    simp only at h
  · split at h
    · cases h
    · cases h; exact .inl ⟨hsv, hdb.symm⟩
  · cases h; exact (c₁.undone_refuse fault).of_pop hdb hsv

/-- Outside a transaction COMMIT fails and changes nothing. -/
theorem commit_idle (absent : ε) {c : Connection σ ε} (hs : c.saved = none) :
    ∃ e c', commit absent c = .error e c' ∧ c'.saved = none ∧ c'.db = c.db := by
  rcases h : commit absent c with ⟨⟨⟩, c'⟩ | ⟨e, c'⟩
  · unfold commit at h
    obtain ⟨_ | fault, c₁, hp, -, hsv⟩ := pop_spec c
    · rw [hp] at h
      simp only [hsv.trans hs] at h
      cases h
    · rw [hp] at h; cases h
  · obtain ⟨hsaved, hdb⟩ := (commit_error h).idle hs
    exact ⟨e, c', rfl, hsaved, hdb.symm⟩

@[simp] theorem commit_calm (absent : ε) (db old : σ) :
    commit absent ⟨db, some old, []⟩ = .ok () ⟨db, none, []⟩ := rfl

/-! ### Which statements are refused -/

/-- The engine does not refuse the next statement. -/
def Granted (faults : List (Option (Fault ε))) : Prop := faults.head?.join = none

@[simp] theorem granted_nil : Granted ([] : List (Option (Fault ε))) := rfl

theorem pop_granted {db : σ} {saved : Option σ} {faults : List (Option (Fault ε))} (h : Granted faults) :
    (⟨db, saved, faults⟩ : Connection σ ε).pop = (none, ⟨db, saved, faults.tail⟩) := by
  unfold Connection.pop
  rcases faults with _ | ⟨f, faults⟩
  · rfl
  · simp only [Granted, List.head?_cons, Option.join_some] at h
    subst h
    rfl

theorem granted_of_pop {c : Connection σ ε} (h : c.pop.1 = none) :
    Granted c.faults ∧ c.pop.2.faults = c.faults.tail := by
  unfold Connection.pop at h ⊢
  unfold Granted
  rcases hf : c.faults with _ | ⟨f, faults⟩
  · simp [hf]
  · rw [hf] at h
    exact ⟨by simpa using h, rfl⟩

/-- The first `n + 1` statements are granted when the first is and then the next `n` are. -/
theorem granted_succ (faults : List (Option (Fault ε))) (n : Nat) :
    (∀ f ∈ faults.take (n + 1), f = none) ↔ Granted faults ∧ ∀ f ∈ faults.tail.take n, f = none := by
  unfold Granted
  rcases faults with _ | ⟨f, faults⟩ <;> simp

theorem statement_granted {f : σ → Except ε (α × σ)} {db db' : σ} {saved : Option σ}
    {faults : List (Option (Fault ε))} {a : α} (h : Granted faults) (hf : f db = .ok (a, db')) :
    statement f ⟨db, saved, faults⟩ = .ok a ⟨db', saved, faults.tail⟩ := by
  unfold statement
  rw [pop_granted h]
  simp only [hf]

theorem begin_granted {nested : ε} {db : σ} {faults : List (Option (Fault ε))} (h : Granted faults) :
    begin nested ⟨db, none, faults⟩ = .ok () ⟨db, some db, faults.tail⟩ := by
  unfold begin
  rw [pop_granted h]

theorem commit_granted {absent : ε} {db old : σ} {faults : List (Option (Fault ε))} (h : Granted faults) :
    commit absent ⟨db, some old, faults⟩ = .ok () ⟨db, none, faults.tail⟩ := by
  unfold commit
  rw [pop_granted h]

/-- What succeeded was granted. -/
theorem granted_of_statement {f : σ → Except ε (α × σ)} {c c' : Connection σ ε} {a : α}
    (h : statement f c = .ok a c') : Granted c.faults ∧ c'.faults = c.faults.tail := by
  unfold statement at h
  rcases hp : c.pop with ⟨_ | fault, c₁⟩
  · obtain ⟨h1, h2⟩ := granted_of_pop (c := c) (by rw [hp])
    rw [hp] at h h2
    simp only at h
    split at h
    · cases h; exact ⟨h1, h2⟩
    · cases h
  · rw [hp] at h; cases h

theorem granted_of_begin {nested : ε} {c c' : Connection σ ε} (h : begin nested c = .ok () c') :
    Granted c.faults ∧ c'.faults = c.faults.tail := by
  unfold begin at h
  rcases hp : c.pop with ⟨_ | fault, c₁⟩
  · obtain ⟨h1, h2⟩ := granted_of_pop (c := c) (by rw [hp])
    rw [hp] at h h2
    simp only at h
    split at h
    · cases h; exact ⟨h1, h2⟩
    · cases h
  · rw [hp] at h; cases h

theorem granted_of_commit {absent : ε} {c c' : Connection σ ε} (h : commit absent c = .ok () c') :
    Granted c.faults := by
  unfold commit at h
  rcases hp : c.pop with ⟨_ | fault, c₁⟩
  · exact (granted_of_pop (c := c) (by rw [hp])).1
  · rw [hp] at h; cases h

theorem rollback_saved (c : Connection σ ε) : c.rollback.saved = none := by
  unfold Connection.rollback
  split
  · rfl
  · rename_i h; exact h

theorem rollback_db {c : Connection σ ε} {db : σ} (h : c.saved = some db) : c.rollback.db = db := by
  unfold Connection.rollback; rw [h]

theorem rollback_none {c : Connection σ ε} (h : c.saved = none) : c.rollback = c := by
  unfold Connection.rollback; rw [h]

/-- After a failure ROLLBACK restores the store at BEGIN, whether or not the engine has rolled back already. -/
theorem Connection.Undone.rollback {c c' : Connection σ ε} {db : σ} (h : c.Undone c') (hs : c.saved = some db) :
    c'.rollback.saved = none ∧ c'.rollback.db = db := by
  refine ⟨rollback_saved c', ?_⟩
  rcases h with ⟨hsaved, -⟩ | ⟨hnone, db', hdb', rfl⟩
  · exact rollback_db (hsaved.trans hs)
  · rw [rollback_none hnone]
    exact Option.some.inj (hdb'.symm.trans hs)

/-! ## Programs inside a transaction -/

/-- From `c` on, `x` neither opens nor closes a transaction, but may fail with the transaction rolled back. -/
structure InsideAt (x : Exec σ ε α) (c : Connection σ ε) : Prop where
  ok : ∀ a c', x c = .ok a c' → c'.saved = c.saved
  error : ∀ e c', x c = .error e c' → c'.saved = c.saved ∨ c'.saved = none ∧ c.saved = some c'.db

/-- `x` neither opens nor closes a transaction, and no failure is passed over. -/
def Inside (x : Exec σ ε α) : Prop := ∀ c, InsideAt x c

theorem Inside.statement (f : σ → Except ε (α × σ)) : Inside (Sql.statement f) := by
  refine fun c => ⟨fun a c' h => (statement_ok h).2, fun e c' h => ?_⟩
  rcases statement_error h with ⟨hs, -⟩ | ⟨hs, db, hdb, rfl⟩
  · exact .inl hs
  · exact .inr ⟨hs, hdb⟩

theorem Inside.pure (a : α) : Inside (pure a : Exec σ ε α) := fun _ =>
  ⟨(fun _ _ h => by cases h; rfl), fun _ _ h => by cases h⟩

theorem Inside.throw (e : ε) : Inside (throw e : Exec σ ε α) := fun _ =>
  ⟨(fun _ _ h => by cases h), fun _ _ h => by cases h; exact .inl rfl⟩

theorem InsideAt.bind {x : Exec σ ε α} {f : α → Exec σ ε β} {c : Connection σ ε} (hx : InsideAt x c)
    (hf : ∀ a c', x c = .ok a c' → InsideAt (f a) c') : InsideAt (x >>= f) c := by
  refine ⟨fun b c' h => ?_, fun e c' h => ?_⟩
  · obtain ⟨a, c₁, h1, h2⟩ := bind_ok_iff.1 h
    exact ((hf a c₁ h1).ok b c' h2).trans (hx.ok a c₁ h1)
  · rcases bind_error_iff.1 h with h1 | ⟨a, c₁, h1, h2⟩
    · exact hx.error e c' h1
    · rw [← hx.ok a c₁ h1]
      exact (hf a c₁ h1).error e c' h2

theorem Inside.bind {x : Exec σ ε α} {f : α → Exec σ ε β} (hx : Inside x) (hf : ∀ a, Inside (f a)) :
    Inside (x >>= f) := fun c => (hx c).bind fun a c' _ => hf a c'

theorem Inside.mapError {f : ε → ε} {x : Exec σ ε α} (hx : Inside x) : Inside (mapError f x) := by
  refine fun c => ⟨fun a c' h => (hx c).ok a c' (mapError_ok_iff.1 h), fun e c' h => ?_⟩
  obtain ⟨e', h'⟩ := mapError_error h
  exact (hx c).error e' c' h'

theorem Inside.ite {p : Prop} [Decidable p] {x y : Exec σ ε α} (hx : Inside x) (hy : Inside y) :
    Inside (if p then x else y) := by
  split
  · exact hx
  · exact hy

/-- A failure may be looked at if the program then fails. -/
theorem Inside.attempt {x : Exec σ ε α} {f : Except ε α → Exec σ ε β} (hx : Inside x) (hok : ∀ a, Inside (f (.ok a)))
    (herror : ∀ e, ∃ e', f (.error e) = MonadExcept.throw e') : Inside (attempt x >>= f) := by
  intro c
  rcases hxc : x c with ⟨a, c₁⟩ | ⟨e, c₁⟩
  · have h : (Sql.attempt x >>= f) c = f (.ok a) c₁ := by
      rw [bind_apply, attempt_apply, hxc]; rfl
    have hs := (hx c).ok a c₁ hxc
    refine ⟨fun b c' h' => ((hok a c₁).ok b c' (h ▸ h')).trans hs, fun e c' h' => ?_⟩
    rw [← hs]
    exact (hok a c₁).error e c' (h ▸ h')
  · obtain ⟨e', he⟩ := herror e
    have h : (Sql.attempt x >>= f) c = .error e' c₁ := by
      rw [bind_apply, attempt_apply, hxc]
      exact congrFun he c₁
    refine ⟨fun b c' h' => ?_, fun _ c' h' => ?_⟩
    · rw [h] at h'; cases h'
    · rw [h] at h'; cases h'
      exact (hx c).error e c₁ hxc

/-! ## Relations between the store before and after -/

/-- Whatever happens, `x` leaves the store related to what it was, or to what it was at the BEGIN of a
transaction that the engine has rolled back. -/
def Keeps (R : σ → σ → Prop) (x : Exec σ ε α) : Prop :=
  ∀ c : Connection σ ε, c.Leads R (after (x c))

section
variable {R : σ → σ → Prop}

theorem Keeps.pure (hr : ∀ db, R db db) (a : α) : Keeps R (pure a : Exec σ ε α) := fun c => .inl ⟨rfl, hr c.db⟩

theorem Keeps.throw (hr : ∀ db, R db db) (e : ε) : Keeps R (throw e : Exec σ ε α) := fun c => .inl ⟨rfl, hr c.db⟩

theorem Keeps.bind (ht : ∀ a b c, R a b → R b c → R a c) {x : Exec σ ε α} {f : α → Exec σ ε β}
    (hx : Keeps R x) (hf : ∀ a, Keeps R (f a)) : Keeps R (x >>= f) := by
  intro c
  have h := hx c
  rw [bind_apply]
  rcases hxc : x c with ⟨a, c'⟩ | ⟨e, c'⟩
  · rw [hxc] at h; exact h.trans ht (hf a c')
  · rw [hxc] at h; exact h

theorem Keeps.orElse (ht : ∀ a b c, R a b → R b c → R a c) {x y : Exec σ ε α} (hx : Keeps R x)
    (hy : Keeps R y) : Keeps R (orElse x y) := by
  intro c
  have h := hx c
  unfold Sql.orElse
  rcases hxc : x c with ⟨a, c'⟩ | ⟨e, c'⟩
  · rw [hxc] at h; exact h
  · rw [hxc] at h; exact h.trans ht (hy c')

theorem Keeps.mapError {f : ε → ε} {x : Exec σ ε α} (hx : Keeps R x) : Keeps R (mapError f x) := fun c => by
  rw [after_mapError]; exact hx c

theorem Keeps.attempt {x : Exec σ ε α} (hx : Keeps R x) : Keeps R (attempt x) := fun c => by
  rw [attempt_apply]; exact hx c

theorem Keeps.ite {p : Prop} [Decidable p] {x y : Exec σ ε α} (hx : Keeps R x) (hy : Keeps R y) :
    Keeps R (if p then x else y) := by
  split
  · exact hx
  · exact hy

end

end

/-! ## The guard of a transaction -/

/-- A guard rolls the transaction back at the end of its scope while it is armed. -/
structure Guard where
  armed : Bool

/-- A program in the scope of a guard. -/
abbrev Guarded (σ ε α : Type) := EStateM ε (Guard × Connection σ ε) α

namespace Guard

variable {σ ε α β : Type}

/-- A program that leaves the guard alone. -/
def lift (x : Exec σ ε α) : Guarded σ ε α := fun (g, c) =>
  match x c with
  | .ok a c => .ok a (g, c)
  | .error e c => .error e (g, c)

/-- Commits through the guard, which is disarmed only by a successful COMMIT. -/
def commit (already absent : ε) : Guarded σ ε Unit := fun (g, c) =>
  if g.armed then
    match Sql.commit absent c with
    | .ok () c => .ok () (⟨false⟩, c)
    | .error e c => .error e (g, c)
  else .error already (g, c)

/-- The end of a guard's life. -/
def drop (g : Guard) (c : Connection σ ε) : Connection σ ε := if g.armed then c.rollback else c

/-- Runs a program in the scope of a fresh guard, dropped however the program ends. -/
def scope (x : Guarded σ ε α) : Exec σ ε α := fun c =>
  match x (⟨true⟩, c) with
  | .ok a (g, c) => .ok a (g.drop c)
  | .error e (g, c) => .error e (g.drop c)

/-- A transaction of steps that stay inside it, committed at the end through its guard: either
it fails and the store is as it was at BEGIN, or its steps took effect; and no transaction is
left open. What is returned after the commit (`f`) does not change that. -/
theorem scope_commit {already absent : ε} {x : Exec σ ε α} (f : α → Except ε β) {c : Connection σ ε} {db : σ}
    (hx : InsideAt x c) (hs : c.saved = some db) :
    let r := scope (lift x >>= fun a => commit already absent >>= fun _ => ofExcept (f a)) c
    (after r).saved = none ∧
      ((∃ e, outcome r = .error e ∧ (after r).db = db) ∨
        ∃ a c', x c = .ok a c' ∧ outcome r = f a ∧ (after r).db = c'.db) := by
  intro r
  rcases hxc : x c with ⟨a, c₁⟩ | ⟨e, c₁⟩
  -- the guard stays armed unless both the steps and COMMIT succeed
  · have hsv := (hx.ok a c₁ hxc).trans hs
    rcases hcm : Sql.commit absent c₁ with ⟨⟨⟩, c₂⟩ | ⟨e, c₂⟩
    · obtain ⟨h1, h2⟩ := commit_ok hcm
      have hr : outcome r = f a ∧ after r = c₂ := by
        simp only [r, scope, bind_apply, lift, hxc, commit, hcm, if_true]
        rcases f a with e | b <;> exact ⟨rfl, rfl⟩
      exact ⟨by rw [hr.2]; exact h1, .inr ⟨a, c₁, rfl, hr.1, by rw [hr.2]; exact h2⟩⟩
    · have hr : r = .error e c₂.rollback := by
        simp [r, scope, bind_apply, lift, hxc, commit, hcm, drop]
      obtain ⟨h1, h2⟩ := (commit_error hcm).rollback hsv
      rw [hr]
      exact ⟨h1, .inl ⟨e, rfl, h2⟩⟩
  · have hr : r = .error e c₁.rollback := by simp [r, scope, bind_apply, lift, hxc, drop]
    rw [hr]
    refine ⟨rollback_saved c₁, .inl ⟨e, rfl, ?_⟩⟩
    show c₁.rollback.db = db
    rcases hx.error e c₁ hxc with hsv | ⟨hnone, hdb⟩
    · exact rollback_db (hsv.trans hs)
    · rw [rollback_none hnone]
      exact Option.some.inj (hdb.symm.trans hs)

/-- Steps that run on after the engine has rolled their transaction back: each has been committed by itself,
so the store is what they left, but COMMIT fails. -/
theorem scope_lost {already absent : ε} {x : Exec σ ε α} (f : α → Except ε β) {c : Connection σ ε}
    (hx : (after (x c)).saved = none) :
    let r := scope (lift x >>= fun a => commit already absent >>= fun _ => ofExcept (f a)) c
    (∃ e, outcome r = .error e) ∧ (after r).saved = none ∧ (after r).db = (after (x c)).db := by
  intro r
  rcases hxc : x c with ⟨a, c₁⟩ | ⟨e, c₁⟩
  all_goals rw [hxc] at hx; replace hx : c₁.saved = none := hx
  · obtain ⟨e, c₂, hcm, h1, h2⟩ := commit_idle absent hx
    have hr : r = .error e c₂ := by
      simp [r, scope, bind_apply, lift, hxc, commit, hcm, drop, rollback_none h1]
    rw [hr]
    exact ⟨⟨e, rfl⟩, h1, h2⟩
  · have hr : r = .error e c₁ := by simp [r, scope, bind_apply, lift, hxc, drop, rollback_none hx]
    rw [hr]
    exact ⟨⟨e, rfl⟩, hx, rfl⟩

/-- Steps of a transaction that leave the store related to what it was do so also when the engine rolls
back and they run on without the transaction. -/
theorem scope_keeps {already absent : ε} {R : σ → σ → Prop} (hr : ∀ db, R db db) {x : Exec σ ε α} (hx : Keeps R x)
    (f : α → Except ε β) {c : Connection σ ε} (hs : c.saved = some c.db) :
    let r := scope (lift x >>= fun a => commit already absent >>= fun _ => ofExcept (f a)) c
    (after r).saved = none ∧ R c.db (after r).db := by
  intro r
  rcases hx c with ⟨hsv, hk⟩ | ⟨hnone, db, hdb, hk⟩
  · rcases hxc : x c with ⟨a, c₁⟩ | ⟨e, c₁⟩
    all_goals rw [hxc] at hsv hk; replace hsv : c₁.saved = some c.db := hsv.trans hs
    · rcases hcm : Sql.commit absent c₁ with ⟨⟨⟩, c₂⟩ | ⟨e, c₂⟩
      · obtain ⟨h1, h2⟩ := commit_ok hcm
        have hr : after r = c₂ := by
          simp only [r, scope, bind_apply, lift, hxc, commit, hcm, if_true]
          rcases f a with e | b <;> rfl
        rw [hr]
        exact ⟨h1, h2 ▸ hk⟩
      · have hr' : r = .error e c₂.rollback := by
          simp [r, scope, bind_apply, lift, hxc, commit, hcm, drop]
        obtain ⟨h1, h2⟩ := (commit_error hcm).rollback hsv
        rw [hr']
        exact ⟨h1, h2 ▸ hr c.db⟩
    · have hr' : r = .error e c₁.rollback := by simp [r, scope, bind_apply, lift, hxc, drop]
      rw [hr']
      refine ⟨rollback_saved c₁, ?_⟩
      show R c.db c₁.rollback.db
      rw [rollback_db hsv]
      exact hr c.db
  · have hlost : (∃ e, outcome r = .error e) ∧ (after r).saved = none ∧ (after r).db = (after (x c)).db :=
      scope_lost f hnone
    obtain ⟨-, h1, h2⟩ := hlost
    obtain rfl := Option.some.inj (hdb.symm.trans hs)
    exact ⟨h1, h2 ▸ hk⟩

/-- A transaction that returns a value ran its steps and committed. -/
theorem scope_commit_ok {already absent : ε} {x : Exec σ ε α} {f : α → Except ε β} {c c' : Connection σ ε} {b : β}
    (h : scope (lift x >>= fun a => commit already absent >>= fun _ => ofExcept (f a)) c = .ok b c') :
    ∃ a c₁, x c = .ok a c₁ ∧ Sql.commit absent c₁ = .ok () c' ∧ f a = .ok b := by
  simp only [scope, bind_apply, lift] at h
  rcases hx : x c with ⟨a, c₁⟩ | ⟨e, c₁⟩
  · simp only [hx, commit, if_true] at h
    rcases hcm : Sql.commit absent c₁ with ⟨⟨⟩, c₂⟩ | ⟨e, c₂⟩
    · simp only [hcm] at h
      rcases hf : f a with e | b'
      · rw [hf] at h; cases h
      · rw [hf] at h; cases h; exact ⟨a, c₁, rfl, hcm, hf⟩
    · rw [hcm] at h; cases h
  · rw [hx] at h; cases h

/-- Without refusals a committed transaction does what its steps do. -/
theorem scope_commit_calm {already absent : ε} {x : Exec σ ε α} (f : α → Except ε β) {db db' old : σ} {a : α}
    (hx : x ⟨db, some old, []⟩ = .ok a ⟨db', some old, []⟩) :
    scope (lift x >>= fun a => commit already absent >>= fun _ => ofExcept (f a)) ⟨db, some old, []⟩ =
      ofExcept (f a) ⟨db', none, []⟩ := by
  simp only [scope, bind_apply, lift, hx, commit, commit_calm, if_true]
  rcases f a with e | b <;> rfl

end Guard

end Sql
