/-
The settlement tick of the server, whichever of its five statements are refused. The storage keeps
the outcome of its first query unchecked until after COMMIT, and the coroutine reads the list of
orders also when there is only an error.
-/
import AuctionHouse.Server.Commands
import AuctionHouse.Store.Settlement
import AuctionHouse.Store.Atomicity

namespace AuctionHouse

open Storage

/-- The tables after settling at a time. -/
def settledTables (st : Storage) (now : ℤ) (t : Tables) : Tables :=
  deleteExpired now (settleItems st.fundsItemId.toInt now t)

/-! ## When a settlement succeeds -/

section
variable {st : Storage} {now : ℤ} {faults : List (Option (Sql.Fault Error))}

/-- None of the five statements refused and a settlement within the constraints: it succeeds. -/
theorem processExpiredSellOrders_granted {db : Database} (h : ∀ f ∈ faults.take 5, f = none)
    (hv : (settleItems st.fundsItemId.toInt now db.toTables).Valid) :
    processExpiredSellOrders st now (Sql.Connection.idle db faults) =
      .ok (executedAuctionOrders now db.toTables)
        ⟨⟨settledTables st now db.toTables, hv.deleteExpired now⟩, none, faults.drop 5⟩ := by
  simp only [Sql.granted_succ, List.take_zero, List.not_mem_nil, false_implies, implies_true, and_true] at h
  -- BEGIN, the query, the two updates and COMMIT
  obtain ⟨h1, h2, h3, h4, h5⟩ := h
  have hbegin : Sql.mapError failedToStart beginTransaction (Sql.Connection.idle db faults) =
      .ok () ⟨db, some db, faults.tail⟩ := Sql.mapError_ok_iff.2 (Sql.begin_granted h1)
  have hquery : Sql.attempt (query fun t => .ok (executedAuctionOrders now t))
      (⟨db, some db, faults.tail⟩ : Connection) =
      .ok (.ok (executedAuctionOrders now db.toTables)) ⟨db, some db, faults.tail.tail⟩ := by
    have hq : query (fun t => .ok (executedAuctionOrders now t)) (⟨db, some db, faults.tail⟩ : Connection) =
        .ok (executedAuctionOrders now db.toTables) ⟨db, some db, faults.tail.tail⟩ :=
      query_granted (f := fun t => .ok (executedAuctionOrders now t)) _ h2 rfl (some db)
    rw [Sql.attempt_apply, hq]; rfl
  have hsteps : settle st now ⟨db, some db, faults.tail⟩ = .ok (.ok (executedAuctionOrders now db.toTables))
      ⟨⟨settledTables st now db.toTables, hv.deleteExpired now⟩, some db, faults.tail.tail.tail.tail⟩ := by
    unfold settle
    rw [Sql.bind_of_ok hquery, Sql.bind_of_ok (Sql.mapError_ok_iff.2 (execute_granted h3 hv _)),
      Sql.bind_of_ok (Sql.mapError_ok_iff.2 (execute_granted h4 (hv.deleteExpired now) _))]
    rfl
  unfold processExpiredSellOrders
  rw [Sql.bind_of_ok hbegin]
  simp only [Sql.Guard.scope, Sql.bind_apply, Sql.Guard.lift, hsteps, commit, Sql.Guard.commit,
    Sql.commit_granted h5, if_true]
  rw [show faults.drop 5 = faults.tail.tail.tail.tail.tail by simp [← List.drop_one, List.drop_drop]]
  rfl

/-- A settlement that returns a list was refused nothing, and returns what it settled. -/
theorem processExpiredSellOrders_ok {c c' : Connection} {list : List SellOrderExecutionInfo}
    (h : processExpiredSellOrders st now c = .ok list c') :
    (∀ f ∈ c.faults.take 5, f = none) ∧ (settleItems st.fundsItemId.toInt now c.db.toTables).Valid ∧
      list = executedAuctionOrders now c.db.toTables ∧ c'.db.toTables = settledTables st now c.db.toTables := by
  unfold processExpiredSellOrders at h
  obtain ⟨⟨⟩, c₁, h1, h⟩ := Sql.bind_ok_iff.1 h
  have hb := Sql.mapError_ok_iff.1 h1
  obtain ⟨g1, t1⟩ := Sql.granted_of_begin hb
  obtain ⟨-, -, hdb1⟩ := Sql.begin_ok hb
  obtain ⟨executed, c₅, hs, hc, he⟩ := Sql.Guard.scope_commit_ok h
  -- the outcome of the query is returned after COMMIT, so it was no error
  replace he : executed = .ok list := he
  subst he
  unfold settle at hs
  obtain ⟨r, c₂, h2, hs⟩ := Sql.bind_ok_iff.1 hs
  obtain ⟨⟨⟩, c₃, h3, hs⟩ := Sql.bind_ok_iff.1 hs
  obtain ⟨⟨⟩, c₄, h4, hs⟩ := Sql.bind_ok_iff.1 hs
  cases hs
  have hq : query (fun t => .ok (executedAuctionOrders now t)) c₁ = .ok list c₂ := by
    rw [Sql.attempt_apply] at h2
    rcases hq : query (fun t => .ok (executedAuctionOrders now t)) c₁ with ⟨l, c'⟩ | ⟨e, c'⟩
    · rw [hq] at h2; cases h2; rfl
    · rw [hq] at h2; cases h2
  obtain ⟨g2, t2⟩ := granted_of_query hq
  obtain ⟨hl, hdb2, -⟩ := query_ok hq
  obtain ⟨g3, t3⟩ := granted_of_execute (Sql.mapError_ok_iff.1 h3)
  obtain ⟨ht3, -⟩ := execute_ok (Sql.mapError_ok_iff.1 h3)
  obtain ⟨g4, t4⟩ := granted_of_execute (Sql.mapError_ok_iff.1 h4)
  obtain ⟨ht4, -⟩ := execute_ok (Sql.mapError_ok_iff.1 h4)
  have g5 := Sql.granted_of_commit hc
  rw [t4, t3, t2, t1] at g5
  rw [t3, t2, t1] at g4
  rw [t2, t1] at g3
  rw [t1] at g2
  rw [hdb2, hdb1] at ht3
  refine ⟨?_, by rw [← ht3]; exact c₃.db.valid, ?_, ?_⟩
  · simp only [Sql.granted_succ, List.take_zero, List.not_mem_nil, false_implies, implies_true, and_true]
    exact ⟨g1, g2, g3, g4, g5⟩
  · cases hl; rw [hdb1]
  · rw [(Sql.commit_ok hc).2, ht4, ht3]; rfl

end

/-- A settlement is within the constraints exactly when the funds item exists or no price is due. -/
theorem valid_settleItems_iff {f now : ℤ} {t : Tables} (hv : t.Valid) :
    (settleItems f now t).Valid ↔ ((∃ o ∈ expired now t, hasBid o) → t.HasItem f) := by
  refine ⟨fun h ⟨o, ho, hb⟩ => ?_, settleItems_valid hv⟩
  have hk : (o.sellerId, f) ∈ (aggregatedOrders f now t).map (·.1) := by
    rw [aggregatedOrders_eq, List.map_append, Sql.keys_groupSum, Sql.keys_groupSum]
    refine List.mem_append_right _ (List.mem_dedup.2 ?_)
    exact List.mem_map.2 ⟨_, List.mem_map.2 ⟨o, List.mem_filter.2 ⟨ho, hb⟩, rfl⟩, rfl⟩
  obtain ⟨p, hp, hpk⟩ := List.mem_map.1 hk
  have hrow : ∃ r ∈ (settleItems f now t).userItems, r.key = p.1 := by
    rw [settleItems_rows hv]
    refine Sql.exists_replaceAll UserItemRow.key (k := p.1) _ t.userItems (.inl ?_)
    exact ⟨_, List.mem_map_of_mem hp, rfl⟩
  obtain ⟨r, hr, hrk⟩ := hrow
  have hitem := (h.userItems r hr).item
  have : r.itemId = f := by
    rw [hpk] at hrk
    exact (Prod.mk.inj hrk).2
  rw [this] at hitem
  exact hitem

/-! ## A rollback at the query -/

section
variable {st : Storage} {now : ℤ} {db : Database} {fault : Sql.Fault Error} {faults : List (Option (Sql.Fault Error))}

/-- What the updates of a settlement that is rolled back at its query make of the tables, one by one. -/
inductive RolledBack (st : Storage) (now : ℤ) (t : Tables) (faults : List (Option (Sql.Fault Error))) : Tables → Prop
  | unchanged (h : ¬ (Sql.Granted faults ∧ (settleItems st.fundsItemId.toInt now t).Valid)) :
    RolledBack st now t faults t
  /-- The items are handed out, and the orders stay. -/
  | half (h : Sql.Granted faults) (h' : ¬ Sql.Granted (faults.drop 1)) :
    RolledBack st now t faults (settleItems st.fundsItemId.toInt now t)
  | settled (h : Sql.Granted faults ∧ Sql.Granted (faults.drop 1)) : RolledBack st now t faults (settledTables st now t)

theorem settle_rolledBack (hback : fault.rolledBack = true) :
    let c := Sql.after (settle st now ⟨db, some db, some fault :: faults⟩)
    c.saved = none ∧ RolledBack st now db.toTables faults c.db.toTables := by
  have hquery : Sql.attempt (query fun t => .ok (executedAuctionOrders now t))
      (⟨db, some db, some fault :: faults⟩ : Connection) = .ok (.error fault.error) ⟨db, none, faults⟩ := by
    simp [Sql.attempt, query, Sql.statement, Sql.Connection.pop, Sql.Connection.refuse, Sql.Connection.rollback, hback]
  unfold settle
  rw [Sql.bind_of_ok hquery]
  rcases h1 : execute (settleItems st.fundsItemId.toInt now) (⟨db, none, faults⟩ : Connection) with ⟨⟨⟩, c₁⟩ | ⟨e, c₁⟩
  · obtain ⟨hg, hfaults⟩ := granted_of_execute h1
    obtain ⟨ht, hs⟩ := execute_ok h1
    rw [Sql.bind_of_ok (Sql.mapError_ok_iff.2 h1)]
    rcases h2 : execute (deleteExpired now) c₁ with ⟨⟨⟩, c₂⟩ | ⟨e, c₂⟩
    · obtain ⟨hg', -⟩ := granted_of_execute h2
      obtain ⟨ht', hs'⟩ := execute_ok h2
      rw [Sql.bind_of_ok (Sql.mapError_ok_iff.2 h2)]
      refine ⟨hs'.trans hs, ?_⟩
      show RolledBack st now db.toTables faults c₂.db.toTables
      rw [ht', ht]
      exact .settled ⟨hg, by rw [List.drop_one]; exact hfaults ▸ hg'⟩
    · obtain ⟨hs', hdb⟩ := (executeWith_error h2).idle hs
      rw [Sql.bind_of_error (Sql.mapError_of_error h2 _)]
      refine ⟨hs', ?_⟩
      show RolledBack st now db.toTables faults c₂.db.toTables
      rw [← hdb, ht]
      refine .half hg fun hg' => ?_
      rw [List.drop_one, ← show c₁.faults = faults.tail from hfaults] at hg'
      rw [show execute (deleteExpired now) c₁ = _ from
        execute_granted hg' (c₁.db.valid.deleteExpired now) c₁.saved] at h2
      cases h2
  · obtain ⟨hs, hdb⟩ := (executeWith_error h1).idle rfl
    rw [Sql.bind_of_error (Sql.mapError_of_error h1 _)]
    refine ⟨hs, ?_⟩
    show RolledBack st now db.toTables faults c₁.db.toTables
    rw [← hdb]
    refine .unchanged ?_
    rintro ⟨hg, hv⟩
    rw [execute_granted hg hv none] at h1
    cases h1

/-- A settlement that the engine rolls back at its query fails, and it may have been made or half made. -/
theorem processExpiredSellOrders_rolledBack (hback : fault.rolledBack = true) :
    let r := processExpiredSellOrders st now (Sql.Connection.idle db (none :: some fault :: faults))
    (∃ e, Sql.outcome r = .error e) ∧ (Sql.after r).saved = none ∧
      RolledBack st now db.toTables faults (Sql.after r).db.toTables := by
  obtain ⟨hs, ht⟩ : let c := Sql.after (settle st now ⟨db, some db, some fault :: faults⟩)
      c.saved = none ∧ RolledBack st now db.toTables faults c.db.toTables := settle_rolledBack hback
  have hbegin : Sql.mapError failedToStart beginTransaction (Sql.Connection.idle db (none :: some fault :: faults)) =
      .ok () ⟨db, some db, some fault :: faults⟩ := rfl
  unfold processExpiredSellOrders
  rw [Sql.bind_of_ok hbegin]
  obtain ⟨herror, hsaved, hdb⟩ := Sql.Guard.scope_lost (fun executed => executed) hs
  exact ⟨herror, hsaved, hdb ▸ ht⟩

end

/-! ## The coroutine -/

namespace SharedState

variable (now : ℤ) (faults : List (Option (Sql.Fault Error))) (s : SharedState)

/-- What the storage does in a tick. -/
def settlement : EStateM.Result Error Connection (List SellOrderExecutionInfo) :=
  Storage.processExpiredSellOrders s.storage now (Sql.Connection.idle s.db faults)

/-- A tick is all or nothing: when the storage reports an error nothing has changed and nothing is
done, and every auction that was settled is logged and notified. -/
structure AllOrNothing : Prop where
  failed : ∀ e, Sql.outcome (s.settlement now faults) = .error e →
    ∃ s', s.processExpiredSellOrders now faults = .returned s' ∧ (Sql.after (s.settlement now faults)).db = s.db ∧
      s'.transactionLog = s.transactionLog ∧ s'.notifications = s.notifications
  settled : ∀ o ∈ s.db.sellOrders, hasBid o →
    (∀ x ∈ (Sql.after (s.settlement now faults)).db.sellOrders, x.id ≠ o.id) →
      ∃ s' entries pushed, s.processExpiredSellOrders now faults = .returned s' ∧
        s'.transactionLog = s.transactionLog ++ entries ∧ s'.notifications = s.notifications ++ pushed ∧
        (∀ e ∈ (executionInfo o).entries, e ∈ entries) ∧ (executionInfo o).notification ∈ pushed

theorem processExpiredSellOrders_eq : s.processExpiredSellOrders now faults =
    match s.settlement now faults with
    | .ok orders c => .returned { s with
        db := c.db
        transactionLog := s.transactionLog ++ orders.flatMap SellOrderExecutionInfo.entries
        notifications := s.notifications ++ orders.map SellOrderExecutionInfo.notification }
    | .error _ c => .undefined c.db := by
  have h : onStorage (fun st => Storage.processExpiredSellOrders st now) faults s =
      (Sql.outcome (s.settlement now faults), { s with db := (Sql.after (s.settlement now faults)).db }) := rfl
  unfold processExpiredSellOrders
  rw [h]
  rcases s.settlement now faults with ⟨orders, c⟩ | ⟨e, c⟩
  · simp only [Sql.outcome_ok, saveExecuted_forM, Sql.after_ok]
  · rfl

variable {now faults s}

/-- A settlement that was refused something is an error. -/
theorem settlement_ok_iff : (∃ list c, s.settlement now faults = .ok list c) ↔
    (∀ f ∈ faults.take 5, f = none) ∧
      ((∃ o ∈ expired now s.db.toTables, hasBid o) → s.db.HasItem s.storage.fundsItemId.toInt) := by
  constructor
  · rintro ⟨list, c, h⟩
    obtain ⟨h1, h2, -, -⟩ := processExpiredSellOrders_ok h
    exact ⟨h1, (valid_settleItems_iff s.db.valid).1 h2⟩
  · rintro ⟨h1, h2⟩
    exact ⟨_, _, processExpiredSellOrders_granted h1 ((valid_settleItems_iff s.db.valid).2 h2)⟩

theorem allOrNothing_of_ok {list : List SellOrderExecutionInfo} {c : Connection}
    (h : s.settlement now faults = .ok list c) : AllOrNothing now faults s := by
  refine ⟨fun e he => ?_, fun o ho hb hg => ?_⟩
  · rw [h] at he; cases he
  obtain ⟨-, -, rfl, ht⟩ := processExpiredSellOrders_ok h
  have hexp : o.expirationTime ≤ now := by
    by_contra hexp
    rw [h] at hg
    have hm : o ∈ c.db.sellOrders := by
      rw [ht]
      exact List.mem_filter.2 ⟨ho, by simpa using hexp⟩
    exact hg o hm rfl
  have hlist : executionInfo o ∈ executedAuctionOrders now s.db.toTables :=
    List.mem_map_of_mem (mem_executedAuctions.2 ⟨ho, hexp, hb⟩)
  refine ⟨_, _, _, by rw [processExpiredSellOrders_eq, h], rfl, rfl, fun e he => ?_, List.mem_map_of_mem hlist⟩
  exact List.mem_flatMap.2 ⟨_, hlist, he⟩

/-- A tick is all or nothing exactly when none of its five statements is refused and the funds item
exists if a price is due: after any error the coroutine reads a list that is not there. -/
theorem tick_all_or_nothing_iff (now : ℤ) (faults : List (Option (Sql.Fault Error))) (s : SharedState) :
    AllOrNothing now faults s ↔ (∀ f ∈ faults.take 5, f = none) ∧
      ((∃ o ∈ expired now s.db.toTables, hasBid o) → s.db.HasItem s.storage.fundsItemId.toInt) := by
  rw [← settlement_ok_iff]
  constructor
  · intro h
    rcases hr : s.settlement now faults with ⟨list, c⟩ | ⟨e, c⟩
    · exact ⟨list, c, rfl⟩
    · obtain ⟨s', hs', -⟩ := h.failed e (by rw [hr]; rfl)
      rw [processExpiredSellOrders_eq, hr] at hs'
      cases hs'
  · rintro ⟨list, c, h⟩
    exact allOrNothing_of_ok h

/-- A restarted server settles an auction, and only the query for the executed orders is refused, which
leaves the transaction open: the storage commits the settlement, returns the error of the query, and the
coroutine reads on. -/
theorem tick_settles_unreported :
    let refused : Sql.Fault Error := ⟨text "Failed to execute SQL statement: database is locked", false⟩
    let faults := [none, some refused]
    let s : SharedState := { storage := Storage.initial, db := Call.run Storage.initial Database.initial auctionRun }
    Sql.outcome (s.settlement 300 faults) = .error refused.error ∧
      (Sql.after (s.settlement 300 faults)).db ≠ s.db ∧
      s.processExpiredSellOrders 300 faults = .undefined (Sql.after (s.settlement 300 faults)).db ∧
      ¬ AllOrNothing 300 faults s := by
  intro refused faults s
  have hout : Sql.outcome (s.settlement 300 faults) = .error refused.error := by decide +kernel
  have hdb : (Sql.after (s.settlement 300 faults)).db ≠ s.db := by decide +kernel
  refine ⟨hout, hdb, ?_, fun h => ?_⟩
  · rw [processExpiredSellOrders_eq]
    rcases hr : s.settlement 300 faults with ⟨orders, c⟩ | ⟨e, c⟩
    · rw [hr] at hout; cases hout
    · rfl
  · obtain ⟨s', -, hsame, -⟩ := h.failed _ hout
    exact hdb hsame

end SharedState

end AuctionHouse
