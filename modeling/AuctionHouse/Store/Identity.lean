/-
Who a user is. A name keeps the id its first login got, and every user keeps exactly one row of
funds: the row of the item named 'funds', by its name or by the id the storage read when it was
opened.
-/
import AuctionHouse.Store.Spending
import AuctionHouse.Store.Statements
import AuctionHouse.Store.Traces

namespace AuctionHouse

open Storage AuctionService

/-! ## What lasts -/

theorem Tables.inventory_ne_none {t : Tables} {k : ℤ × ℤ} : t.inventory k ≠ none ↔ ∃ r ∈ t.userItems, r.key = k := by
  unfold Tables.inventory Sql.amounts
  rw [Ne, Option.map_eq_none_iff, Sql.find_none]
  push Not
  exact Iff.rfl

/-- No row of funds is deleted. -/
def FundsLast (st : Storage) (t t' : Tables) : Prop :=
  ∀ u, t.inventory (u, st.fundsItemId.toInt) ≠ none → t'.inventory (u, st.fundsItemId.toInt) ≠ none

/-- Users stay in front of those who come after them, who get ids above theirs. -/
def UsersLast (t t' : Tables) : Prop :=
  ∃ more, t'.users = t.users ++ more ∧ ∀ u ∈ more, newRowId (t.users.map (·.id)) ≤ u.id

theorem FundsLast.of_userItems {st : Storage} {t t' : Tables} (h : t'.userItems = t.userItems) : FundsLast st t t' := by
  intro u hu
  rw [Tables.inventory_ne_none] at hu ⊢
  rw [h]
  exact hu

/-- Only the insert of a user touches the users, and no statement deletes a row of funds. -/
theorem lasting_statementWise (st : Storage) :
    StatementWise st fun t t' => t'.users = t.users ∧ FundsLast st t t' where
  refl _ := ⟨rfl, fun _ => id⟩
  trans _ _ _ h h' := ⟨h'.1.trans h.1, fun u hu => h'.2 u (h.2 u hu)⟩
  createItem _ _ := ⟨rfl, .of_userItems rfl⟩
  addItem u i q t := by
    refine ⟨rfl, fun v hv => ?_⟩
    rw [inventory_addItem]
    unfold Sql.credit
    split
    · exact Option.some_ne_none _
    · exact hv
  reduceItem u i q t := by
    refine ⟨rfl, fun v hv => ?_⟩
    rw [inventory_reduceItem]
    split
    · rename_i hk
      rw [hk] at hv
      exact fun h => hv (Option.map_eq_none_iff.1 h)
    · exact hv
  removeItem u i t hi := by
    refine ⟨rfl, fun v hv => ?_⟩
    rw [inventory_removeItem, if_neg fun hk => hi (congrArg Prod.snd hk).symm]
    exact hv
  insertSellOrder _ _ := ⟨rfl, .of_userItems rfl⟩
  removeSellOrder _ _ := ⟨rfl, .of_userItems rfl⟩
  setBuyer _ _ _ _ := ⟨rfl, .of_userItems rfl⟩
  settleItems unixNow t := by
    refine ⟨rfl, fun v hv => ?_⟩
    rw [Tables.inventory_ne_none] at hv ⊢
    exact Sql.exists_replaceAll _ _ _ (.inr hv)
  deleteExpired _ _ := ⟨rfl, .of_userItems rfl⟩

namespace UsersLast

variable {t t' t'' : Tables}

theorem refl (t : Tables) : UsersLast t t := ⟨[], (List.append_nil _).symm, fun _ h => absurd h List.not_mem_nil⟩

theorem of_users (h : t'.users = t.users) : UsersLast t t' :=
  ⟨[], by rw [h, List.append_nil], fun _ h => absurd h List.not_mem_nil⟩

theorem newRowId_le (ids more : List ℤ) : newRowId ids ≤ newRowId (ids ++ more) := by
  unfold newRowId
  rw [List.foldl_append]
  have := (le_foldl_max more (ids.foldl max 0)).1
  omega

theorem trans (h : UsersLast t t') (h' : UsersLast t' t'') : UsersLast t t'' := by
  obtain ⟨more, hu, hmore⟩ := h
  obtain ⟨more', hu', hmore'⟩ := h'
  refine ⟨more ++ more', by rw [hu', hu, List.append_assoc], fun u hm => ?_⟩
  rcases List.mem_append.1 hm with hm | hm
  · exact hmore u hm
  · refine le_trans ?_ (hmore' u hm)
    rw [hu, List.map_append]
    exact newRowId_le _ _

theorem mem (h : UsersLast t t') {u : UserRow} (hu : u ∈ t.users) : u ∈ t'.users := by
  obtain ⟨more, ht, -⟩ := h
  rw [ht]
  exact List.mem_append_left _ hu

/-- A name that is refused a row id now is never there later. -/
theorem not_mem (h : UsersLast t t') (hv : t'.Valid) {u : UserRow} (hn : u ∉ t.users)
    (hid : ¬ RowId (newRowId (t.users.map (·.id)))) : u ∉ t'.users := by
  obtain ⟨more, ht, hmore⟩ := h
  intro hu
  have hrange := hv.userRange u hu
  rw [ht] at hu
  rcases List.mem_append.1 hu with hu | hu
  · exact hn hu
  · refine hid ⟨?_, le_trans (hmore u hu) hrange.2⟩
    have := (le_foldl_max (t.users.map (·.id)) 0).1
    unfold newRowId
    omega

end UsersLast

/-! ## A login -/

section
variable {st : Storage} {db : Database}

/-- A name that is there is found. -/
theorem getUserId_known {u : UserRow} (hu : u ∈ db.users) :
    getUserId (some u.username) (Sql.Connection.idle db) = .ok (some (columnInt u.id)) (Sql.Connection.idle db) := by
  have hfind : db.users.find? (fun u' => decide (some u'.username = (some u.username : StringView))) = some u := by
    rcases h : db.users.find? (fun u' => decide (some u'.username = (some u.username : StringView))) with _ | u'
    · have := List.find?_eq_none.1 h u hu
      simp at this
    · have hn : some u'.username = (some u.username : StringView) := by simpa using List.find?_some h
      rw [h, List.inj_on_of_nodup_map db.valid.usernames (List.mem_of_find?_eq_some h) hu (Option.some.inj hn)]
  have hq : query (selectUserId (some u.username)) (Sql.Connection.idle db) =
      .ok (columnInt u.id) (Sql.Connection.idle db) := by
    refine query_granted db Sql.granted_nil ?_ none
    unfold selectUserId
    rw [hfind]
  unfold getUserId
  rw [Sql.bind_apply, Sql.attempt_apply, hq]
  rfl

/-- A name that is not there is not found. -/
theorem getUserId_unknown {username : StringView} (h : ∀ u ∈ db.users, some u.username ≠ username) :
    getUserId username (Sql.Connection.idle db) = .ok none (Sql.Connection.idle db) := by
  have hfind : db.users.find? (fun u => decide (some u.username = username)) = none :=
    List.find?_eq_none.2 fun u hu => by simpa using h u hu
  have hq : query (selectUserId username) (Sql.Connection.idle db) = .error noMoreRows (Sql.Connection.idle db) := by
    show query _ ⟨db, none, []⟩ = _
    rw [query_calm, selectUserId, hfind]
    rfl
  unfold getUserId
  rw [Sql.bind_apply, Sql.attempt_apply, hq]
  rfl

theorem login_known {u : UserRow} (hu : u ∈ db.users) (hname : u.username ≠ []) :
    UserService.login st (some u.username) (Sql.Connection.idle db) =
      .ok ⟨columnInt u.id, u.username⟩ (Sql.Connection.idle db) := by
  have hbytes : ¬ StringView.bytes (some u.username) = [] := hname
  rw [login_eq, Sql.ite_apply, if_neg hbytes, Sql.bind_of_ok (getUserId_known hu)]
  rfl

/-- What a login comes to when it is not refused: the user of a name that is there, or a new user
with an empty row of funds. -/
inductive LoginCase (st : Storage) (db : Database) (username : StringView) :
    EStateM.Result Error Connection User → Prop
  | unnamed (h : username.bytes = []) :
    LoginCase st db username (.error (text "Username cannot be empty") (Sql.Connection.idle db))
  | known {u : UserRow} (hu : u ∈ db.users) (hn : username = some u.username) :
    LoginCase st db username (.ok ⟨columnInt u.id, u.username⟩ (Sql.Connection.idle db))
  | refused (hnew : ∀ u ∈ db.users, some u.username ≠ username)
    (hid : username = none ∨ ¬ RowId (newRowId (db.users.map (·.id)))) {e : Error} :
    LoginCase st db username (.error e (Sql.Connection.idle db))
  | new {u : UserRow} (hn : username = some u.username) (hname : u.username ≠ [])
    (hid : u.id = newRowId (db.users.map (·.id))) {db' : Database}
    (hdb : db'.toTables = addItem u.id st.fundsItemId.toInt 0 { db.toTables with users := db.users ++ [u] }) :
    LoginCase st db username (.ok ⟨columnInt u.id, u.username⟩ (Sql.Connection.idle db'))

/-- A new user is inserted when there is a row id for it. -/
theorem createUser_new {name : Bytes} (hnot : name ∉ db.users.map (·.username))
    (hid : RowId (newRowId (db.users.map (·.id)))) : ∃ db' : Database,
      db'.toTables = { db.toTables with users := db.users ++ [⟨newRowId (db.users.map (·.id)), name⟩] } ∧
      createUser (some name) (Sql.Connection.idle db) =
        .ok (columnInt (newRowId (db.users.map (·.id)))) (Sql.Connection.idle db') := by
  refine ⟨⟨_, (db.valid.insertUser name).2 ⟨hnot, hid⟩⟩, rfl, ?_⟩
  exact executeWith_calm rfl _ none

theorem createUser_full {name : Bytes} (hid : ¬ RowId (newRowId (db.users.map (·.id)))) :
    createUser (some name) (Sql.Connection.idle db) = .error constraintFailed (Sql.Connection.idle db) := by
  unfold createUser executeWith
  rw [Sql.Connection.idle, Sql.statement_calm]
  simp only [bind, Except.bind, Tables.check, dif_neg fun hv => hid ((db.valid.insertUser name).1 hv).2]

theorem login_case (hi : Invariant st db.toTables) (username : StringView) :
    LoginCase st db username (UserService.login st username (Sql.Connection.idle db)) := by
  by_cases hname : username.bytes = []
  · rw [login_eq, Sql.ite_apply, if_pos hname]
    exact .unnamed hname
  by_cases hthere : ∃ u ∈ db.users, some u.username = username
  · obtain ⟨u, hu, rfl⟩ := hthere
    rw [login_known hu hname]
    exact .known hu rfl
  push Not at hthere
  rw [login_eq, Sql.ite_apply, if_neg hname, Sql.bind_of_ok (getUserId_unknown hthere)]
  simp only
  rcases username with _ | name
  · exact absurd rfl hname
  have hnot : name ∉ db.users.map (·.username) := by
    intro hm
    obtain ⟨u, hu, rfl⟩ := List.mem_map.1 hm
    exact hthere u hu rfl
  by_cases hid : RowId (newRowId (db.users.map (·.id)))
  · obtain ⟨db', hdb', hcreate⟩ := createUser_new hnot hid
    have hfits := columnInt_of_fits (n := newRowId (db.users.map (·.id))) (by have := hid.1; omega) hid.2
    have huser : db'.HasUser (columnInt (newRowId (db.users.map (·.id)))).toInt := by
      rw [hdb', hfits]
      exact ⟨_, List.mem_append_right _ (List.mem_singleton_self _), rfl⟩
    have hitem : db'.HasItem st.fundsItemId.toInt := by
      rw [hdb']
      exact hi.hasFunds
    have hfunds : addUserItem (columnInt (newRowId (db.users.map (·.id)))) st.fundsItemId 0 (Sql.Connection.idle db') =
        .ok () _ := addUserItem_calm (by decide) huser hitem none
    rw [Sql.bind_of_ok hcreate, Sql.bind_of_ok hfunds]
    refine .new (u := ⟨newRowId (db.users.map (·.id)), name⟩) rfl hname rfl ?_
    show addItem _ _ _ _ = _
    rw [hfits, hdb']
    rfl
  · rw [Sql.bind_of_error (createUser_full hid)]
    exact .refused hthere (.inr hid)

end

/-! ## Runs without refusals -/

/-- Operations whose statements are not refused. -/
def calm (operations : List Operation) : List Call := operations.map (⟨·, []⟩)

/-- Every user has a name, and a row of funds. -/
structure Enrolled (st : Storage) (t : Tables) : Prop where
  named : ∀ u ∈ t.users, u.username ≠ []
  funded : ∀ u ∈ t.users, t.inventory (u.id, st.fundsItemId.toInt) ≠ none

section
variable {st : Storage} {db : Database}

theorem login_reply (username : StringView) : Call.reply st ⟨.login username, []⟩ db =
    (Sql.outcome (UserService.login st username (Sql.Connection.idle db))).map .user := Sql.outcome_map _ _ _

theorem login_next (username : StringView) : Call.next st ⟨.login username, []⟩ db =
    (Sql.after (UserService.login st username (Sql.Connection.idle db))).db :=
  congrArg Sql.Connection.db (Sql.after_map _ _ _)

variable (hi : Invariant st db.toTables)
include hi

/-- An operation leaves the users and every row of funds, or it is the first login of a user. -/
theorem users_next (operation : Operation) :
    ((Call.next st ⟨operation, []⟩ db).users = db.users ∧
      FundsLast st db.toTables (Call.next st ⟨operation, []⟩ db).toTables) ∨
    ∃ u : UserRow, operation = .login (some u.username) ∧ u.username ≠ [] ∧
      u.id = newRowId (db.users.map (·.id)) ∧ (Call.next st ⟨operation, []⟩ db).toTables =
        addItem u.id st.fundsItemId.toInt 0 { db.toTables with users := db.users ++ [u] } := by
  by_cases hop : ∀ username, operation ≠ .login username
  · rw [Call.next_calm]
    exact .inl ((lasting_statementWise st).exec (c := Sql.Connection.idle db) rfl hop)
  push Not at hop
  obtain ⟨username, rfl⟩ := hop
  rw [login_next]
  have hcase := login_case hi username
  generalize UserService.login st username (Sql.Connection.idle db) = r at hcase ⊢
  cases hcase with
  | unnamed => exact .inl ⟨rfl, .of_userItems rfl⟩
  | known => exact .inl ⟨rfl, .of_userItems rfl⟩
  | refused => exact .inl ⟨rfl, .of_userItems rfl⟩
  | @new u hn hname hid db' hdb => exact .inr ⟨u, by rw [hn], hname, hid, hdb⟩

theorem enrolled_next (he : Enrolled st db.toTables) (operation : Operation) :
    Enrolled st (Call.next st ⟨operation, []⟩ db).toTables := by
  obtain ⟨husers, hfunds⟩ | ⟨u, -, hname, -, hdb⟩ := users_next hi operation
  · refine ⟨fun u hu => he.named u ?_, fun u hu => hfunds _ (he.funded u ?_)⟩
    · exact husers ▸ hu
    · exact husers ▸ hu
  · rw [hdb]
    refine ⟨fun v hv => ?_, fun v hv => ?_⟩
    · rcases List.mem_append.1 hv with hv | hv
      · exact he.named v hv
      · rw [List.mem_singleton.1 hv]
        exact hname
    · rw [inventory_addItem]
      unfold Sql.credit
      split
      · exact Option.some_ne_none _
      · rename_i hk
        rcases List.mem_append.1 hv with hv | hv
        · exact he.funded v hv
        · exact absurd (by rw [List.mem_singleton.1 hv]) hk

theorem usersLast_next (operation : Operation) :
    UsersLast db.toTables (Call.next st ⟨operation, []⟩ db).toTables := by
  obtain ⟨husers, -⟩ | ⟨u, -, -, hid, hdb⟩ := users_next hi operation
  · exact .of_users husers
  · rw [hdb]
    exact ⟨[u], rfl, fun v hv => by rw [List.mem_singleton.1 hv, hid]⟩

/-- A login that succeeds returns a user who is there after it. -/
theorem login_row {username : StringView} {user : User}
    (h : Call.reply st ⟨.login username, []⟩ db = .ok (.user user)) :
    ∃ u ∈ (Call.next st ⟨.login username, []⟩ db).users, username = some u.username ∧
      user = ⟨columnInt u.id, u.username⟩ := by
  rw [login_reply] at h
  rw [login_next]
  have hcase := login_case hi username
  generalize UserService.login st username (Sql.Connection.idle db) = r at hcase h ⊢
  cases hcase with
  | unnamed => cases h
  | @known u hu hn =>
    cases h
    exact ⟨u, hu, hn, rfl⟩
  | refused => cases h
  | @new u hn _ _ db' hdb =>
    cases h
    refine ⟨u, ?_, hn, rfl⟩
    show u ∈ db'.users
    rw [show db'.users = _ from congrArg Tables.users hdb]
    exact List.mem_append_right _ (List.mem_singleton_self u)

end

theorem calm_concat (operations : List Operation) (operation : Operation) :
    reached (calm (operations ++ [operation])) =
      Call.next Storage.initial ⟨operation, []⟩ (reached (calm operations)) := by
  rw [calm, List.map_append]
  exact reached_concat _ _

theorem reached_enrolled (operations : List Operation) :
    Enrolled Storage.initial (reached (calm operations)).toTables := by
  induction operations using List.reverseRecOn with
  | nil => exact ⟨fun _ hu => absurd hu List.not_mem_nil, fun _ hu => absurd hu List.not_mem_nil⟩
  | append_singleton operations operation ih =>
    rw [calm_concat]
    exact enrolled_next (reached_invariant _) ih operation

theorem reached_usersLast (earlier later : List Operation) :
    UsersLast (reached (calm earlier)).toTables (reached (calm (earlier ++ later))).toTables := by
  induction later using List.reverseRecOn with
  | nil => rw [List.append_nil]; exact .refl _
  | append_singleton later operation ih =>
    rw [← List.append_assoc, calm_concat]
    exact ih.trans (usersLast_next (reached_invariant _) operation)

/-! ## Names and ids -/

/-- What the login of `username` replies after the operations. -/
def loginReply (operations : List Operation) (username : StringView) : Except Error Reply :=
  Call.reply Storage.initial ⟨.login username, []⟩ (reached (calm operations))

/-- At some point of the run, the login of `username` returns `user`. -/
def LogsIn (operations : List Operation) (username : StringView) (user : User) : Prop :=
  ∃ earlier, earlier ++ [.login username] <+: operations ∧ loginReply earlier username = .ok (.user user)

section
variable {operations earlier later : List Operation} {u : UserRow}

/-- The login of a user who is there returns his id and changes nothing. -/
theorem login_there (hu : u ∈ (reached (calm operations)).users) :
    loginReply operations (some u.username) = .ok (.user ⟨columnInt u.id, u.username⟩) ∧
      Call.next Storage.initial ⟨.login (some u.username), []⟩ (reached (calm operations)) =
        reached (calm operations) := by
  unfold loginReply
  rw [login_reply, login_next, login_known hu ((reached_enrolled operations).named u hu)]
  exact ⟨rfl, rfl⟩

/-- A login that succeeds returns a user who is there from then on. -/
theorem user_of_login (later : List Operation) {username : StringView} {user : User}
    (h : loginReply earlier username = .ok (.user user)) :
    ∃ u ∈ (reached (calm (earlier ++ .login username :: later))).users,
      username = some u.username ∧ user = ⟨columnInt u.id, u.username⟩ := by
  rw [← List.singleton_append, ← List.append_assoc]
  obtain ⟨u, hu, hn, huser⟩ := login_row (reached_invariant (calm earlier)) h
  rw [← calm_concat] at hu
  exact ⟨u, (reached_usersLast (earlier ++ [.login username]) later).mem hu, hn, huser⟩

/-- The login of a user who is there later returned his id already. -/
theorem login_before (hu : u ∈ (reached (calm (earlier ++ .login (some u.username) :: later))).users) :
    loginReply earlier (some u.username) = .ok (.user ⟨columnInt u.id, u.username⟩) := by
  obtain ⟨user, huser⟩ : ∃ user, loginReply earlier (some u.username) = .ok (.user user) := by
    have hlater := reached_usersLast earlier (.login (some u.username) :: later)
    have hcase := login_case (reached_invariant (calm earlier)) (some u.username)
    unfold loginReply
    rw [login_reply]
    generalize UserService.login _ _ _ = r at hcase ⊢
    cases hcase with
    | unnamed hname => exact absurd hname ((reached_enrolled _).named u hu)
    | known => exact ⟨_, rfl⟩
    | refused hnot hid =>
      have hid := hid.resolve_left (Option.some_ne_none _)
      exact absurd hu (hlater.not_mem (reached _).valid (fun h => hnot u h rfl) hid)
    | new => exact ⟨_, rfl⟩
  obtain ⟨u', hu', hn, rfl⟩ := user_of_login later huser
  rw [huser, List.inj_on_of_nodup_map (reached _).valid.usernames hu' hu (Option.some.inj hn).symm]

/-- Whoever is there has logged in. -/
theorem mem_of_user : ∀ {operations : List Operation} {u : UserRow}, u ∈ (reached (calm operations)).users →
    Operation.login (some u.username) ∈ operations := by
  intro operations
  induction operations using List.reverseRecOn with
  | nil => exact fun hu => absurd hu List.not_mem_nil
  | append_singleton operations operation ih =>
    intro u hu
    rw [calm_concat] at hu
    obtain ⟨husers, -⟩ | ⟨v, rfl, -, -, hdb⟩ := users_next (reached_invariant (calm operations)) operation
    · rw [husers] at hu
      exact List.mem_append_left _ (ih hu)
    · rw [show (Call.next _ ⟨.login _, []⟩ _).users = _ from congrArg Tables.users hdb] at hu
      rcases List.mem_append.1 hu with hu | hu
      · exact List.mem_append_left _ (ih hu)
      · rw [List.mem_singleton.1 hu]
        exact List.mem_append_right _ (List.mem_singleton_self _)

/-- Who is who after the operations of a run. -/
structure Identified (operations : List Operation) : Prop where
  /-- A name that is there gets the id of the first login with it, and the tables stay as they are. -/
  first : ∀ u ∈ (reached (calm operations)).users, ∃ earlier later,
    operations = earlier ++ .login (some u.username) :: later ∧ .login (some u.username) ∉ earlier ∧
      loginReply earlier (some u.username) = .ok (.user ⟨columnInt u.id, u.username⟩) ∧
      loginReply operations (some u.username) = .ok (.user ⟨columnInt u.id, u.username⟩) ∧
      Call.next Storage.initial ⟨.login (some u.username), []⟩ (reached (calm operations)) = reached (calm operations)
  /-- The name of a login that succeeded is there. -/
  there : ∀ username user, LogsIn operations username user →
    ∃ u ∈ (reached (calm operations)).users, username = some u.username ∧ user.id.toInt = u.id
  distinct : ∀ username username' user user', LogsIn operations username user → LogsIn operations username' user' →
    (user.id = user'.id ↔ username = username')

theorem user_of_logsIn {username : StringView} {user : User} (h : LogsIn operations username user) :
    ∃ u ∈ (reached (calm operations)).users, username = some u.username ∧ user.id.toInt = u.id := by
  obtain ⟨earlier, ⟨later, rfl⟩, h⟩ := h
  obtain ⟨u, hu, hn, rfl⟩ := user_of_login later h
  rw [List.append_assoc, List.singleton_append]
  exact ⟨u, hu, hn, fits_user (reached _).valid ⟨u, hu, rfl⟩⟩

theorem reached_identified (operations : List Operation) : Identified operations := by
  refine ⟨fun u hu => ?_, fun username user h => user_of_logsIn h, fun username username' user user' h h' => ?_⟩
  · obtain ⟨earlier, later, rfl, hfirst⟩ := List.eq_append_cons_of_mem (mem_of_user hu)
    exact ⟨earlier, later, rfl, hfirst, login_before hu, login_there hu⟩
  · obtain ⟨u, hu, rfl, hid⟩ := user_of_logsIn h
    obtain ⟨u', hu', rfl, hid'⟩ := user_of_logsIn h'
    constructor
    · intro he
      have hids : u.id = u'.id := by rw [← hid, ← hid', he]
      rw [List.inj_on_of_nodup_map (reached _).valid.userIds hu hu' hids]
    · intro he
      have hnames := List.inj_on_of_nodup_map (reached _).valid.usernames hu hu' (Option.some.inj he)
      rw [← Int32.toInt_inj, hid, hid', hnames]

end

/-! ## Funds -/

/-- The storage's funds item is the only item named 'funds', every user has one row of it, and the
row is the same whether it is reached by the name or by the id. -/
structure OneFundsRow (st : Storage) (db : Database) : Prop where
  item : (db.items.filter fun i => decide (i.name = fundsItemName)) = [⟨st.fundsItemId.toInt, fundsItemName⟩]
  row : ∀ u ∈ db.users, (db.userItems.filter fun r => decide (r.key = (u.id, st.fundsItemId.toInt))) =
    [⟨u.id, st.fundsItemId.toInt, db.balance u.id st.fundsItemId.toInt⟩]
  deposit : ∀ userId quantity, AuctionService.deposit userId (some fundsItemName) quantity (Sql.Connection.idle db) =
    (if quantity < 0 then throw (text "Cannot deposit negative amount")
      else addFunds st userId quantity >>= fun _ => pure ⟨st.fundsItemId, quantity⟩ : Exec ItemOperationInfo)
      (Sql.Connection.idle db)
  withdraw : ∀ userId quantity,
    AuctionService.withdraw st userId (some fundsItemName) quantity (Sql.Connection.idle db) =
    (if quantity < 0 then throw (text "Cannot withdraw negative amount")
      else Sql.mapError (fun _ => text "Not enough " ++ fundsItemName ++ text "(s) to withdraw")
        (subFunds st userId quantity >>= fun _ => pure ⟨st.fundsItemId, quantity⟩) : Exec ItemOperationInfo)
      (Sql.Connection.idle db)
  /-- Fees, purchases, bids and settlements move the balances of the funds item. -/
  dealt : ∀ operation, ∃ d, Explains st db.toTables operation (Call.reply st ⟨operation, []⟩ db) d ∧
    (Call.next st ⟨operation, []⟩ db).market = db.market.apply st.fundsItemId.toInt d

theorem oneFundsRow {st : Storage} {db : Database} (hi : Invariant st db.toTables) (he : Enrolled st db.toTables) :
    OneFundsRow st db := by
  have hitem : getItemId (some fundsItemName) (Sql.Connection.idle db) =
      .ok st.fundsItemId (Sql.Connection.idle db) := by
    have h := getItemId_calm hi.funds rfl none
    rw [columnInt_toInt] at h
    exact h
  refine ⟨?_, fun u hu => ?_, fun userId quantity => ?_, fun userId quantity => ?_, fun operation => ?_⟩
  · rw [Sql.filter_key ItemRow.name fundsItemName db.valid.itemNames,
      Sql.find_of_mem ItemRow.name db.valid.itemNames hi.funds]
    rfl
  · obtain ⟨q, hq⟩ := Option.ne_none_iff_exists'.1 (he.funded u hu)
    have hfind : Sql.find UserItemRow.key (u.id, st.fundsItemId.toInt) db.userItems =
        some ⟨u.id, st.fundsItemId.toInt, q⟩ :=
      Sql.find_of_mem UserItemRow.key db.valid.userItemKeys (Tables.mem_of_inventory hq)
    rw [Tables.balance_of_inventory hq, Sql.filter_key UserItemRow.key _ db.valid.userItemKeys, hfind]
    rfl
  · rw [deposit_eq, Sql.ite_apply, Sql.ite_apply]
    split
    · rfl
    · have hfound : Sql.orElse (getItemId (some fundsItemName)) (createItem (some fundsItemName))
          (Sql.Connection.idle db) = .ok st.fundsItemId (Sql.Connection.idle db) := by
        unfold Sql.orElse
        rw [hitem]
      rw [Sql.bind_of_ok hfound]
      rfl
  · rw [withdraw_eq, Sql.ite_apply, Sql.ite_apply]
    split
    · rfl
    · unfold Sql.mapError
      rw [Sql.bind_of_ok hitem]
      rfl
  · obtain ⟨d, hexplains, hdealt⟩ := Call.next_dealt hi ⟨operation, []⟩
    exact ⟨d, hexplains, hdealt.market⟩

/-- Over every run without refusals, a name keeps the id of its first login and no two names share
one, and every user has one row of funds, of the item the storage was opened with. -/
theorem identity_and_funds (operations : List Operation) :
    Storage.open (Sql.Connection.idle Database.empty) =
        .ok Storage.initial (Sql.Connection.idle Database.initial) ∧
      Identified operations ∧ OneFundsRow Storage.initial (reached (calm operations)) :=
  ⟨open_empty, reached_identified operations, oneFundsRow (reached_invariant _) (reached_enrolled operations)⟩

end AuctionHouse
