/-
Opening as a migration. Every statement of Storage::open works towards the same file, so wherever a
process is killed the next one opens the same database, with the funds item of the first; and
restarts leave no trace in a run.
-/
import AuctionHouse.Server.Opening
import AuctionHouse.Store.Reachable

namespace AuctionHouse

open Storage

namespace File

/-! ## What a file is opened to -/

/-- The files that runs of the server leave: without a row, or with the rows of a reachable database. -/
def Sound (f : File) : Prop := f.tables = {} ∨ f.tables.Valid ∧ Invariant Storage.initial f.tables

/-- The file that Storage::open makes of a file. -/
def opened (f : File) : File := ofTables (insertFundsItem f.tables)

theorem complete_ofTables (t : Tables) : (ofTables t).Complete := ⟨rfl, rfl, rfl, rfl, rfl⟩

theorem database_ofTables (db : Database) : (ofTables db.toTables).database? = some db :=
  dif_pos ⟨complete_ofTables _, db.valid⟩

theorem insertFundsItem_tables (t : Tables) : ∃ items, insertFundsItem t = { t with items } ∧ t.items <+: items := by
  unfold insertFundsItem
  split
  · exact ⟨t.items, rfl, List.prefix_rfl⟩
  · exact ⟨_, rfl, List.prefix_append _ _⟩

theorem sound_ofTables {db : Database} (hi : Invariant Storage.initial db.toTables) : (ofTables db.toTables).Sound :=
  .inr ⟨db.valid, hi⟩

namespace Sound

variable {f : File} (h : f.Sound)
include h

/-- The rows a sound file is opened with. -/
theorem insertFunds : (insertFundsItem f.tables).Valid ∧ Invariant Storage.initial (insertFundsItem f.tables) := by
  rcases h with h | ⟨hv, hi⟩
  · rw [h]
    exact ⟨Database.initial.valid, initial_invariant⟩
  · rw [insertFundsItem_of_mem hi.funds rfl]
    exact ⟨hv, hi⟩

theorem opened : f.opened.Sound := .inr h.insertFunds

/-- Nothing is inserted twice. -/
theorem opened_opened : f.opened.opened = f.opened := by
  show ofTables (insertFundsItem (insertFundsItem f.tables)) = _
  rw [insertFundsItem_of_mem h.insertFunds.2.funds rfl]
  rfl

end Sound

/-! ## Statements -/

/-- What is opened stays the same on the way from one file to another. -/
def Towards (f f' : File) : Prop := f.Sound → f'.Sound ∧ f'.opened = f.opened

theorem Towards.refl (f : File) : Towards f f := fun h => ⟨h, rfl⟩

theorem Towards.trans (f f' f'' : File) (h : Towards f f') (h' : Towards f' f'') : Towards f f'' := by
  intro hs
  obtain ⟨hs', ho⟩ := h hs
  obtain ⟨hs'', ho'⟩ := h' hs'
  exact ⟨hs'', ho'.trans ho⟩

theorem Towards.of_tables {f f' : File} (ht : f'.tables = f.tables) : Towards f f' := by
  unfold Towards Sound File.opened
  rw [ht]
  exact fun h => ⟨h, rfl⟩

theorem towards_insertFunds {f f' : File} (hs : insertFunds f = .ok f') : Towards f f' := by
  intro h
  unfold insertFunds at hs
  rcases hitems : f.items with _ | items
  · rw [hitems] at hs
    cases hs
  · rw [hitems, check_valid h.insertFunds.1] at hs
    cases hs
    -- the rows of the other tables are those of the file
    have ht : File.tables { f with items := some (insertFundsItem f.tables).items } = f.opened.tables := by
      show _ = insertFundsItem f.tables
      unfold insertFundsItem
      split <;> rfl
    have hto : Towards f.opened _ := .of_tables ht
    rw [← h.opened_opened]
    exact hto h.opened

theorem towards_statement {f f' : File} {statement : Statement} (hm : statement ∈ statements)
    (hs : statement f = .ok f') : Towards f f' := by
  simp only [statements, List.mem_cons, List.not_mem_nil, or_false] at hm
  rcases hm with rfl | rfl | rfl | rfl | rfl | rfl | rfl | rfl | rfl
  · cases hs; exact .refl f
  · cases hs; exact .refl f
  · cases hs; exact .of_tables rfl
  · cases hs; exact .of_tables rfl
  · exact towards_insertFunds hs
  · unfold selectFunds at hs
    rcases hid : selectFundsId f with e | id
    · rw [hid] at hs; cases hs
    · rw [hid] at hs; cases hs; exact .refl f
  · cases hs; exact .of_tables rfl
  · cases hs
    refine .of_tables ?_
    unfold File.tables
    rcases f.sellOrders with _ | ⟨rows, seq⟩ <;> rfl
  · unfold createExpirationTimeIndex at hs
    split at hs
    · cases hs
    · cases hs; exact .of_tables rfl

/-- The funds item that is found is the one of the first opening. -/
theorem selectFundsId_sound {f : File} (h : f.Sound) {id : Int32} (hs : selectFundsId f = .ok id) :
    id = Storage.initial.fundsItemId := by
  unfold selectFundsId at hs
  split at hs
  · cases hs
  unfold selectItemId at hs
  split at hs
  · rename_i i hfind
    cases hs
    have hm := List.mem_of_find?_eq_some hfind
    have hn : some i.name = some fundsItemName := by simpa using List.find?_some hfind
    rcases h with h | ⟨hv, hi⟩
    · rw [h] at hm
      exact absurd hm List.not_mem_nil
    · rw [List.inj_on_of_nodup_map hv.itemNames hm hi.funds (Option.some.inj hn), columnInt_toInt]
  · cases hs

theorem selectFundsId_opened {f : File} (hi : Invariant Storage.initial f.tables) (hitems : f.items.isSome) :
    ∃ id, selectFundsId f = .ok id := by
  obtain ⟨items, hitems⟩ := Option.isSome_iff_exists.1 hitems
  unfold selectFundsId selectItemId
  rw [hitems]
  simp only
  split
  · exact ⟨_, rfl⟩
  · rename_i hnone
    have := List.find?_eq_none.1 hnone _ hi.funds
    simp at this

theorem step_eq_some {f f' : File} {statement : Statement} : step f statement = some f' ↔ statement f = .ok f' := by
  unfold step
  rcases statement f with e | g
  · exact iff_of_false (by rintro ⟨⟩) (by rintro ⟨⟩)
  · exact ⟨fun h => by cases h; rfl, fun h => by cases h; rfl⟩

/-- The file in the middle of Storage::open, with the tables `users` and `items`. -/
def begun (f : File) : File := { f with users := some (f.users.getD []), items := some (f.items.getD []) }

theorem insertFunds_begun {f : File} (h : f.Sound) :
    insertFunds f.begun = .ok { f.begun with items := some (insertFundsItem f.tables).items } := by
  have hv : (insertFundsItem f.begun.tables).Valid := h.insertFunds.1
  unfold insertFunds
  rw [check_valid hv]
  rfl

/-- The statements after the funds item complete the schema. -/
theorem run_rest {f : File} (husers : f.users.isSome) (hitems : f.items.isSome) :
    Machine.run step f [createUserItems, createSellOrders, createExpirationTimeIndex] = some (ofTables f.tables) := by
  obtain ⟨users, items, userItems, sellOrders, index⟩ := f
  obtain ⟨users, rfl⟩ := Option.isSome_iff_exists.1 husers
  obtain ⟨items, rfl⟩ := Option.isSome_iff_exists.1 hitems
  rcases sellOrders with _ | ⟨rows, seq⟩ <;> rfl

/-- All statements of Storage::open succeed on a sound file. -/
theorem run_statements {f : File} (h : f.Sound) : Machine.run step f statements = some f.opened := by
  have hinsert := insertFunds_begun h
  generalize hf' : ({ f.begun with items := some (insertFundsItem f.tables).items } : File) = f' at hinsert
  have ht : f'.tables = insertFundsItem f.tables := by
    rw [← hf']
    unfold insertFundsItem
    split <;> rfl
  obtain ⟨id, hid⟩ := selectFundsId_opened (f := f') (by rw [ht]; exact h.insertFunds.2) (by rw [← hf']; rfl)
  have hselect : selectFunds f' = .ok f' := by
    unfold selectFunds
    rw [hid]
    rfl
  have hrest := run_rest (f := f') (by rw [← hf']; rfl) (by rw [← hf']; rfl)
  show (step f.begun insertFunds).bind _ = _
  rw [step_eq_some.2 hinsert, Option.bind_some, Machine.run_cons, step_eq_some.2 hselect, Option.bind_some, hrest, ht]
  rfl

/-- Storage::open is a program that can be stopped after any of its statements. -/
theorem resumes : Machine.Resumes step statements Sound File.opened where
  keeps _ _ _ hm h hs := towards_statement hm (step_eq_some.1 hs) h
  reaches _ := run_statements

/-! ## Storage::open -/

abbrev FileConnection := Sql.Connection File Error

theorem exec_ok {statement : Statement} {c c' : FileConnection} (h : exec statement c = .ok () c') :
    statement c.db = .ok c'.db := by
  obtain ⟨hs, -⟩ := Sql.statement_ok h
  rcases hf : statement c.db with e | f
  · rw [hf] at hs; cases hs
  · rw [hf] at hs
    cases hs
    rfl

theorem exec_idle {statement : Statement} {f f' : File} (h : statement f = .ok f') :
    exec statement (Sql.Connection.idle f) = .ok () (Sql.Connection.idle f') :=
  Sql.statement_granted Sql.granted_nil (by rw [h]; rfl)

theorem read_ok {α : Type} {g : File → Except Error α} {c c' : FileConnection} {a : α} (h : read g c = .ok a c') :
    g c.db = .ok a ∧ c'.db = c.db := by
  obtain ⟨hs, -⟩ := Sql.statement_ok h
  rcases hf : g c.db with e | a'
  · rw [hf] at hs; cases hs
  · rw [hf] at hs
    simp only [Except.map, Except.ok.injEq, Prod.mk.injEq] at hs
    exact ⟨by rw [hs.1], hs.2.symm⟩

/-- A PRAGMA that is refused is not missed. -/
theorem attempt_pragma {c c' : FileConnection} {r : Except Error Unit} (hc : c.saved = none)
    (h : Sql.attempt (exec pragma) c = .ok r c') : c'.db = c.db ∧ c'.saved = none := by
  rw [Sql.attempt_apply] at h
  cases h
  rcases h : exec pragma c with ⟨⟨⟩, c'⟩ | ⟨e, c'⟩
  · exact ⟨Except.ok.inj (exec_ok h).symm, (Sql.statement_ok h).2.trans hc⟩
  · obtain ⟨hs, hdb⟩ := (Sql.statement_error h).idle hc
    exact ⟨hdb.symm, hs⟩

/-- Whatever is refused, a file that is opened is complete and has the funds item of the first opening. -/
theorem openFile_ok {c c' : FileConnection} {st : Storage} (hc : c.saved = none) (h : c.db.Sound)
    (ho : openFile c = .ok st c') :
    st = Storage.initial ∧ c'.db = c.db.opened := by
  unfold openFile at ho
  obtain ⟨⟨⟩, c₁, h1, ho⟩ := Sql.bind_ok_iff.1 ho
  obtain ⟨_, c₂, h2, ho⟩ := Sql.bind_ok_iff.1 ho
  obtain ⟨_, c₃, h3, ho⟩ := Sql.bind_ok_iff.1 ho
  obtain ⟨⟨⟩, c₄, h4, ho⟩ := Sql.bind_ok_iff.1 ho
  obtain ⟨⟨⟩, c₅, h5, ho⟩ := Sql.bind_ok_iff.1 ho
  obtain ⟨⟨⟩, c₆, h6, ho⟩ := Sql.bind_ok_iff.1 ho
  obtain ⟨id, c₇, h7, ho⟩ := Sql.bind_ok_iff.1 ho
  obtain ⟨⟨⟩, c₈, h8, ho⟩ := Sql.bind_ok_iff.1 ho
  obtain ⟨⟨⟩, c₉, h9, ho⟩ := Sql.bind_ok_iff.1 ho
  obtain ⟨⟨⟩, c₁₀, h10, ho⟩ := Sql.bind_ok_iff.1 ho
  cases ho
  have e1 : c₁.db = c.db := Except.ok.inj (exec_ok (Sql.mapError_ok_iff.1 h1)).symm
  obtain ⟨e2, hs₂⟩ := attempt_pragma ((Sql.statement_ok (Sql.mapError_ok_iff.1 h1)).2.trans hc) h2
  have e3 : c₃.db = c.db := (attempt_pragma hs₂ h3).1.trans (e2.trans e1)
  have e4 := exec_ok (Sql.mapError_ok_iff.1 h4)
  have e5 := exec_ok (Sql.mapError_ok_iff.1 h5)
  have e6 := exec_ok (Sql.mapError_ok_iff.1 h6)
  obtain ⟨e7, e7'⟩ := read_ok (Sql.mapError_ok_iff.1 h7)
  have e8 := exec_ok (Sql.mapError_ok_iff.1 h8)
  have e9 := exec_ok (Sql.mapError_ok_iff.1 h9)
  have e10 := exec_ok (Sql.mapError_ok_iff.1 h10)
  rw [e3] at e4
  rw [e7'] at e8
  have hselect : selectFunds c₆.db = .ok c₆.db := by
    unfold selectFunds
    rw [e7]
    rfl
  refine ⟨?_, ?_⟩
  · have hs₄ := (towards_statement (by simp [statements]) e4 h).1
    have hs₅ := (towards_statement (by simp [statements]) e5 hs₄).1
    have hs₆ := (towards_insertFunds e6 hs₅).1
    rw [selectFundsId_sound hs₆ e7]
  · have hrun : Machine.run step c.db statements = some c'.db := by
      have hpragma : step c.db pragma = some c.db := rfl
      simp only [statements, Machine.run_cons, Machine.run_nil, Option.bind_some, hpragma, step_eq_some.2 e4,
        step_eq_some.2 e5, step_eq_some.2 e6, step_eq_some.2 hselect, step_eq_some.2 e8, step_eq_some.2 e9,
        step_eq_some.2 e10]
    exact Option.some.inj (hrun.symm.trans (run_statements h))

/-- Storage::open when all of its statements succeed. -/
theorem openFile_calm {f f₁ f₂ f₃ f₄ f₅ f₆ : File} {id : Int32} (h1 : createUsers f = .ok f₁)
    (h2 : createItems f₁ = .ok f₂) (h3 : insertFunds f₂ = .ok f₃) (hid : selectFundsId f₃ = .ok id)
    (h4 : createUserItems f₃ = .ok f₄) (h5 : createSellOrders f₄ = .ok f₅) (h6 : createExpirationTimeIndex f₅ = .ok f₆) :
    openFile (Sql.Connection.idle f) = .ok ⟨id⟩ (Sql.Connection.idle f₆) := by
  have hconnect : exec connect (Sql.Connection.idle f) = .ok () (Sql.Connection.idle f) := rfl
  have hpragma : Sql.attempt (exec pragma) (Sql.Connection.idle f) = .ok (.ok ()) (Sql.Connection.idle f) := rfl
  have hread : read selectFundsId (Sql.Connection.idle f₃) = .ok id (Sql.Connection.idle f₃) :=
    Sql.statement_granted Sql.granted_nil (by rw [hid]; rfl)
  unfold openFile
  rw [Sql.bind_of_ok (Sql.mapError_ok_iff.2 hconnect), Sql.bind_of_ok hpragma, Sql.bind_of_ok hpragma,
    Sql.bind_of_ok (Sql.mapError_ok_iff.2 (exec_idle h1)), Sql.bind_of_ok (Sql.mapError_ok_iff.2 (exec_idle h2)),
    Sql.bind_of_ok (Sql.mapError_ok_iff.2 (exec_idle h3)), Sql.bind_of_ok (Sql.mapError_ok_iff.2 hread),
    Sql.bind_of_ok (Sql.mapError_ok_iff.2 (exec_idle h4)), Sql.bind_of_ok (Sql.mapError_ok_iff.2 (exec_idle h5)),
    Sql.bind_of_ok (Sql.mapError_ok_iff.2 (exec_idle h6))]
  rfl

/-- A sound file is opened. -/
theorem openFile_idle {f : File} (h : f.Sound) :
    openFile (Sql.Connection.idle f) = .ok Storage.initial (Sql.Connection.idle f.opened) := by
  have hrun := run_statements h
  simp only [statements, Machine.run_cons, Machine.run_nil, Option.bind_eq_some_iff, step_eq_some] at hrun
  obtain ⟨_, ⟨⟩, _, ⟨⟩, f₁, h1, f₂, h2, f₃, h3, f₄, hselect, f₅, h4, f₆, h5, f₇, h6, hf₇⟩ := hrun
  unfold selectFunds at hselect
  rcases hid : selectFundsId f₃ with e | id
  · rw [hid] at hselect; cases hselect
  · rw [hid] at hselect
    cases hselect
    have hopen := openFile_calm h1 h2 h3 hid h4 h5 h6
    obtain ⟨hst, -⟩ := openFile_ok rfl h hopen
    rw [hopen, hst, Option.some.inj hf₇]

/-- On the complete schema only the statements about the funds item do something: it is opened as
`Storage.open` opens its database. -/
theorem openFile_ofTables {db : Database} {st : Storage} {c : Connection}
    (h : Storage.open (Sql.Connection.idle db) = .ok st c) :
    openFile (Sql.Connection.idle (ofTables db.toTables)) = .ok st (Sql.Connection.idle (ofTables c.db.toTables)) := by
  unfold Storage.open at h
  obtain ⟨⟨⟩, c₁, h1, h⟩ := Sql.bind_ok_iff.1 h
  obtain ⟨id, c₂, h2, h⟩ := Sql.bind_ok_iff.1 h
  cases h
  obtain ⟨hinsert, -⟩ := execute_ok (Sql.mapError_ok_iff.1 h1)
  obtain ⟨hselect, hdb, -⟩ := AuctionHouse.query_ok (Sql.mapError_ok_iff.1 h2)
  rw [hdb]
  replace hinsert : c₁.db.toTables = insertFundsItem db.toTables := hinsert
  have hitems : ofTables (insertFundsItem db.toTables) =
      { ofTables db.toTables with items := some (insertFundsItem db.toTables).items } := by
    obtain ⟨items, ht, -⟩ := insertFundsItem_tables db.toTables
    rw [ht]
    rfl
  have hfunds : insertFunds (ofTables db.toTables) = .ok (ofTables c₁.db.toTables) := by
    have hv : (insertFundsItem (ofTables db.toTables).tables).Valid := hinsert ▸ c₁.db.valid
    unfold insertFunds
    rw [check_valid hv, hinsert, hitems]
    rfl
  exact openFile_calm rfl rfl hfunds hselect rfl rfl rfl

theorem towards_exec {statement : Statement} (hm : statement ∈ statements) : Sql.Keeps Towards (exec statement) := by
  intro c
  rcases h : exec statement c with ⟨⟨⟩, c'⟩ | ⟨e, c'⟩
  · exact .inl ⟨(Sql.statement_ok h).2, towards_statement hm (exec_ok h)⟩
  · exact (Sql.statement_error h).imp fun _ _ hdb => hdb ▸ .refl _

theorem towards_read {α : Type} (g : File → Except Error α) : Sql.Keeps Towards (read g) := by
  intro c
  rcases h : read g c with ⟨a, c'⟩ | ⟨e, c'⟩
  · refine .inl ⟨(Sql.statement_ok h).2, ?_⟩
    show Towards c.db c'.db
    rw [(read_ok h).2]
    exact .refl _
  · exact (Sql.statement_error h).imp fun _ _ hdb => hdb ▸ .refl _

/-- Whatever is refused, and wherever it fails, opening works towards the same file. -/
theorem towards_openFile : Sql.Keeps Towards openFile := by
  have hstatement : ∀ (statement : Statement) (e : Error), statement ∈ statements →
      Sql.Keeps Towards (Sql.mapError (e ++ ·) (exec statement)) :=
    fun _ _ hm => Sql.Keeps.mapError (towards_exec hm)
  have hpragma : Sql.Keeps Towards (Sql.attempt (exec pragma)) :=
    Sql.Keeps.attempt (towards_exec (by simp [statements]))
  unfold openFile
  refine Sql.Keeps.bind Towards.trans (hstatement pragma _ (by simp [statements])) fun _ => ?_
  refine Sql.Keeps.bind Towards.trans hpragma fun _ => ?_
  refine Sql.Keeps.bind Towards.trans hpragma fun _ => ?_
  refine Sql.Keeps.bind Towards.trans (hstatement _ _ (by simp [statements])) fun _ => ?_
  refine Sql.Keeps.bind Towards.trans (hstatement _ _ (by simp [statements])) fun _ => ?_
  refine Sql.Keeps.bind Towards.trans (hstatement _ _ (by simp [statements])) fun _ => ?_
  refine Sql.Keeps.bind Towards.trans (Sql.Keeps.mapError (towards_read _)) fun _ => ?_
  refine Sql.Keeps.bind Towards.trans (hstatement _ _ (by simp [statements])) fun _ => ?_
  refine Sql.Keeps.bind Towards.trans (hstatement _ _ (by simp [statements])) fun _ => ?_
  refine Sql.Keeps.bind Towards.trans (hstatement _ _ (by simp [statements])) fun _ => ?_
  exact Sql.Keeps.pure Towards.refl _

/-- Opening a file again: it succeeds with the funds item of every other opening, completes the
schema, and keeps every row. -/
structure Reopens (f : File) : Prop where
  succeeds : openFile (Sql.Connection.idle f) = .ok Storage.initial (Sql.Connection.idle f.opened)
  same : ∀ faults st c, openFile ⟨f, none, faults⟩ = .ok st c → st = Storage.initial ∧ c.db = f.opened
  complete : f.opened.Complete
  users : f.opened.tables.users = f.tables.users
  items : f.tables.items <+: f.opened.tables.items
  userItems : f.opened.tables.userItems = f.tables.userItems
  sellOrders : f.opened.tables.sellOrders = f.tables.sellOrders
  sellOrdersSeq : f.opened.tables.sellOrdersSeq = f.tables.sellOrdersSeq
  funds : (f.opened.tables.items.filter fun i => decide (i.name = fundsItemName)) =
    [⟨Storage.initial.fundsItemId.toInt, fundsItemName⟩]
  /-- A process killed in between makes no difference. -/
  resumes : ∀ executed f', Machine.run step f (statements.take executed) = some f' →
    openFile (Sql.Connection.idle f') = .ok Storage.initial (Sql.Connection.idle f.opened)
  /-- Opened twice, it is as opened once. -/
  again : openFile (Sql.Connection.idle f.opened) = .ok Storage.initial (Sql.Connection.idle f.opened)

theorem Sound.reopens {f : File} (h : f.Sound) : f.Reopens := by
  obtain ⟨items, ht, hitems⟩ := insertFundsItem_tables f.tables
  have htables : f.opened.tables = { f.tables with items } := ht
  obtain ⟨hv, hi⟩ := h.insertFunds
  refine ⟨openFile_idle h, fun faults st c ho => ?_, complete_ofTables _, ?_, ?_, ?_, ?_, ?_, ?_, ?_, ?_⟩
  · exact openFile_ok (c := ⟨f, none, faults⟩) rfl h ho
  · rw [htables]
  · rw [htables]
    exact hitems
  · rw [htables]
  · rw [htables]
  · rw [htables]
  · show (insertFundsItem f.tables).items.filter _ = _
    rw [Sql.filter_key ItemRow.name fundsItemName hv.itemNames, Sql.find_of_mem ItemRow.name hv.itemNames hi.funds]
    rfl
  · intro executed f' hr
    obtain ⟨h', ho'⟩ := resumes.stopped h hr
    rw [← ho']
    exact openFile_idle h'
  · have ha := openFile_idle h.opened
    rwa [h.opened_opened] at ha

end File

/-! ## Runs with restarts -/

namespace Host

/-- After the calls of a run, wherever the process was started and killed: the file is opened to the
tables that the calls alone lead to, and a running server works on these. -/
structure After (calls : List Call) (s : Host) : Prop where
  sound : s.file.Sound
  opened : s.file.opened = .ofTables (reached calls).toTables
  running : ∀ st f, s = running st f → st = Storage.initial ∧ f = .ofTables (reached calls).toTables

theorem opened_reached (calls : List Call) :
    (File.ofTables (reached calls).toTables).opened = .ofTables (reached calls).toTables := by
  show File.ofTables (insertFundsItem (reached calls).toTables) = _
  rw [insertFundsItem_of_mem (reached_invariant calls).funds rfl]

theorem After.of_running (calls : List Call) :
    After calls (.running Storage.initial (.ofTables (reached calls).toTables)) :=
  ⟨File.sound_ofTables (reached_invariant calls), opened_reached calls, fun _ _ h => by cases h; exact ⟨rfl, rfl⟩⟩

theorem After.of_stopped {calls : List Call} {f : File} (h : f.Sound)
    (ho : f.opened = .ofTables (reached calls).toTables) : After calls (.stopped f) :=
  ⟨h, ho, fun _ _ h => by cases h⟩

variable {calls : List Call} {s s' : Host}

theorem After.next (h : After calls s) {incident : Incident} (hn : s.next incident = some s') :
    After (calls ++ Incident.calls [incident]) s' := by
  rcases s with f | ⟨st, f⟩
  · obtain ⟨hs, ho, -⟩ := h
    replace hs : f.Sound := hs
    replace ho : f.opened = .ofTables (reached calls).toTables := ho
    cases incident with
    | start faults =>
      show After (calls ++ []) s'
      rw [List.append_nil]
      obtain rfl : ofOpening (Storage.openFile ⟨f, none, faults⟩) = s' := Option.some.inj hn
      rcases hopen : Storage.openFile ⟨f, none, faults⟩ with ⟨st, c⟩ | ⟨e, c⟩
      · obtain ⟨rfl, hdb⟩ := File.openFile_ok (c := ⟨f, none, faults⟩) rfl hs hopen
        show After calls (.running Storage.initial c.db)
        rw [show c.db = f.opened from hdb, ho]
        exact .of_running calls
      · have hleads := File.towards_openFile ⟨f, none, faults⟩
        rw [hopen] at hleads
        obtain ⟨-, hto⟩ := hleads.idle rfl
        exact .of_stopped (hto hs).1 ((hto hs).2.trans ho)
    | startKilled executed =>
      show After (calls ++ []) s'
      rw [List.append_nil]
      obtain ⟨f', hr, rfl⟩ := Option.map_eq_some_iff.1 hn
      obtain ⟨hs', ho'⟩ := File.resumes.stopped hs hr
      exact .of_stopped hs' (ho'.trans ho)
    | call call => cases hn
    | kill => cases hn
  · obtain ⟨rfl, rfl⟩ := h.running st f rfl
    cases incident with
    | start => cases hn
    | startKilled => cases hn
    | call call =>
      obtain ⟨db, hdb, rfl⟩ := Option.map_eq_some_iff.1 hn
      rw [File.database_ofTables] at hdb
      cases hdb
      show After (calls ++ [call]) _
      rw [← reached_concat]
      exact .of_running (calls ++ [call])
    | kill =>
      cases hn
      show After (calls ++ []) _
      rw [List.append_nil]
      exact .of_stopped h.sound h.opened

theorem after_absent : After [] (.stopped .absent) := .of_stopped (.inl rfl) rfl

/-- Every run is after its calls. -/
theorem after_run : ∀ (incidents : List Incident) {s : Host},
    Machine.run Host.next (.stopped .absent) incidents = some s → After (Incident.calls incidents) s := by
  intro incidents
  induction incidents using List.reverseRecOn with
  | nil =>
    intro s h
    cases h
    exact after_absent
  | append_singleton incidents incident ih =>
    intro s' h
    rw [Machine.run_concat] at h
    obtain ⟨s, hs, h⟩ := Option.bind_eq_some_iff.1 h
    have hcalls : Incident.calls (incidents ++ [incident]) = Incident.calls incidents ++ Incident.calls [incident] :=
      List.filterMap_append
    rw [hcalls]
    exact (ih hs).next h

/-- A running server executes its calls. -/
theorem run_calls : ∀ (more calls : List Call),
    Machine.run Host.next (.running Storage.initial (.ofTables (reached calls).toTables)) (more.map .call) =
      some (.running Storage.initial (.ofTables (reached (calls ++ more)).toTables))
  | [], calls => by rw [List.append_nil]; rfl
  | call :: more, calls => by
    have hnext : Host.next (.running Storage.initial (.ofTables (reached calls).toTables)) (.call call) =
        some (.running Storage.initial (.ofTables (reached (calls ++ [call])).toTables)) := by
      show ((File.ofTables (reached calls).toTables).database?).map _ = _
      rw [File.database_ofTables, reached_concat]
      rfl
    rw [List.map_cons, Machine.run_cons, hnext, Option.bind_some, run_calls more (calls ++ [call]), List.append_assoc]
    rfl

/-- The run without restarts. -/
def uninterrupted (calls : List Call) : List Incident := .start [] :: calls.map .call

theorem start_stopped {f : File} (h : f.Sound) :
    Host.next (.stopped f) (.start []) = some (.running Storage.initial f.opened) :=
  congrArg some (congrArg ofOpening (File.openFile_idle h))

theorem run_uninterrupted (calls : List Call) :
    Machine.run Host.next (.stopped .absent) (uninterrupted calls) =
      some (.running Storage.initial (.ofTables (reached calls).toTables)) := by
  have habsent : File.Sound .absent := .inl rfl
  rw [uninterrupted, Machine.run_cons, start_stopped habsent, Option.bind_some]
  exact run_calls calls []

/-- Wherever the processes before were killed, the file is opened again without a loss and with the
same funds item, every incident can happen that fits whether a server is running, and when one is,
its file is the one that its operations lead to without restarts. -/
theorem opening_resumes (incidents : List Incident) (s : Host)
    (h : Machine.run Host.next (.stopped .absent) incidents = some s) :
    s.file.Reopens ∧
      (∀ f, s = .stopped f → (∀ faults, (s.next (.start faults)).isSome) ∧
        (∀ executed, (s.next (.startKilled executed)).isSome) ∧
        s.next (.start []) = Machine.run Host.next (.stopped .absent) (uninterrupted (Incident.calls incidents))) ∧
      ∀ st f, s = .running st f → (∀ call, (s.next (.call call)).isSome) ∧ (s.next .kill).isSome ∧
        st = Storage.initial ∧
        some s = Machine.run Host.next (.stopped .absent) (uninterrupted (Incident.calls incidents)) := by
  have hafter := after_run incidents h
  refine ⟨hafter.sound.reopens, ?_, ?_⟩
  · rintro f rfl
    have hsound : f.Sound := hafter.sound
    refine ⟨fun faults => rfl, fun executed => ?_, ?_⟩
    · obtain ⟨f', hf'⟩ := File.resumes.stop hsound executed
      show ((Machine.run File.step f _).map _).isSome
      rw [show Machine.run File.step f _ = _ from hf']
      rfl
    · rw [run_uninterrupted, start_stopped hsound, show f.opened = _ from hafter.opened]
  · rintro st f rfl
    obtain ⟨rfl, hf⟩ := hafter.running st f rfl
    refine ⟨fun call => ?_, rfl, rfl, ?_⟩
    · show (f.database?.map _).isSome
      rw [hf, File.database_ofTables]
      rfl
    · rw [run_uninterrupted, hf]

/-- The first process is killed before the funds item is inserted, the second before the index is
created; alice logs in to the third, and logs in again after a restart. -/
theorem opening_resumes_killed :
    let alice := Incident.call ⟨.login (some (text "alice")), []⟩
    let incidents := [.startKilled 4, .startKilled 8, .start [], alice, .kill, .startKilled 5, .start [], alice]
    ∃ s, Machine.run Host.next (.stopped .absent) incidents = some s ∧ s.file.Reopens ∧
      s.file.tables.users = [⟨1, text "alice"⟩] := by
  intro alice incidents
  have hrun : (Machine.run Host.next (.stopped .absent) incidents).map (fun s => s.file.tables.users) =
      some [⟨1, text "alice"⟩] := by decide +kernel
  obtain ⟨s, hs, husers⟩ := Option.map_eq_some_iff.1 hrun
  exact ⟨s, hs, (opening_resumes incidents s hs).1, husers⟩

end Host

end AuctionHouse
