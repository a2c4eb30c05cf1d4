/-
What sellers are told. Each sale in the log is queued once, in the order of the log, and taken off the
queue once; what was taken is written to the seller's socket if one was found then, and dropped if not.
-/
import AuctionHouse.Server.Layers
import AuctionHouse.Store.Orders

namespace AuctionHouse

open Storage AuctionService

/-! ## Sales in the log -/

/-- The sales of the log: who sold, and what the seller is to be told. -/
def TransactionLog.soldOrders (l : TransactionLog) : NotificationService := l.filterMap fun e =>
  match e.message with
  | .sold _ _ price orderId => some (e.userId, ⟨orderId, price⟩)
  | _ => none

namespace TransactionLog

theorem soldOrders_append (a b : TransactionLog) : soldOrders (a ++ b) = soldOrders a ++ soldOrders b :=
  List.filterMap_append

@[simp] theorem soldOrders_item (userId : UserId) (operationName : Bytes) (itemId quantity : Int32) :
    soldOrders [⟨userId, .item operationName itemId quantity⟩] = [] := rfl

@[simp] theorem soldOrders_entries (info : SellOrderExecutionInfo) : soldOrders info.entries = [info.notification] := rfl

theorem soldOrders_flatMap : ∀ orders : List SellOrderExecutionInfo,
    soldOrders (orders.flatMap SellOrderExecutionInfo.entries) = orders.map SellOrderExecutionInfo.notification
  | [] => rfl
  | info :: orders => by rw [List.flatMap_cons, soldOrders_append, soldOrders_entries, soldOrders_flatMap orders]; rfl

end TransactionLog

open TransactionLog (soldOrders)

/-- What an operation notifies is what it logs as sold. -/
theorem Operation.soldOrders_entries (operation : Operation) (reply : Reply) :
    soldOrders (operation.entries reply) = operation.notifications reply := by
  cases operation <;> cases reply <;> first
    | rfl
    | exact TransactionLog.soldOrders_flatMap _

/-! ## Orders that were sold -/

/-- The ids of the sales of an operation are those of orders it took off the book. -/
theorem Explains.sold {st : Storage} {t : Tables} (hids : ∀ o ∈ t.sellOrders, (columnInt o.id).toInt = o.id)
    {operation : Operation} {reply : Reply} {d : Deal ℤ ℤ} (he : Explains st t operation (.ok reply) d) :
    ((operation.notifications reply).map fun n => n.2.orderId.toInt).Subperm ((t.market.taken d).map (·.id)) := by
  cases he with
  | purchase ho hid =>
    simp only [Operation.notifications, SellOrderExecutionInfo.notification, Market.taken, List.map_cons, List.map_nil,
      SellOrderRow.order, hid]
    exact List.Subperm.refl _
  | @settle unixNow =>
    have hsold : (Operation.notifications (.processExpiredSellOrders unixNow)
        (.settled (executedAuctionOrders unixNow t))).map (fun n => n.2.orderId.toInt) =
        (executedAuctions unixNow t).map (·.id) := by
      simp only [Operation.notifications, executedAuctionOrders, List.map_map]
      exact List.map_congr_left fun o ho => hids o (mem_executedAuctions.1 ho).1
    have htaken : (t.market.taken (.settle unixNow)).map (·.id) = (expired unixNow t).map (·.id) := by
      simp only [Market.taken, due_market, List.map_map]
      rfl
    rw [hsold, htaken]
    exact ((executedAuctions_perm unixNow t).map _).subperm.trans (List.filter_sublist.map _).subperm
  | _ => exact List.nil_subperm

/-- An order that a deal takes off the book is gone after it. -/
theorem Dealt.gone_taken {st : Storage} {t t' : Tables} {d : Deal ℤ ℤ} (hd : Dealt st t t' d)
    (hw : t.market.WF st.fundsItemId.toInt) {o : Order ℤ ℤ} (ho : o ∈ t.market.taken d) :
    o ∈ t.market.book ∧ Gone t' o.id := by
  rw [← Market.left_apply hw hd.allowed, ← hd.market] at ho
  obtain ⟨hm, hleft⟩ := List.mem_filter.1 ho
  refine ⟨hm, gone_market.1 fun x hx hid => of_decide_eq_true hleft ?_⟩
  exact List.mem_map.2 ⟨x, hx, hid⟩

namespace SharedState

/-- While order ids fit in an `int`, no order is sold twice, and no order that was sold is open. -/
structure SoldOnce (s : SharedState) : Prop where
  invariant : Invariant s.storage s.db.toTables
  positive : ∀ o ∈ s.db.sellOrders, 1 ≤ o.id
  nodup : s.db.sellOrdersSeq ≤ intMax → ((soldOrders s.transactionLog).map fun n => n.2.orderId.toInt).Nodup
  gone : s.db.sellOrdersSeq ≤ intMax → ∀ n ∈ soldOrders s.transactionLog,
    n.2.orderId.toInt ≤ s.db.sellOrdersSeq ∧ Gone s.db.toTables n.2.orderId.toInt

theorem SoldOnce.next {s s' : SharedState} {e : Event} (h : s.SoldOnce) (hs : s.next e = some s') : s'.SoldOnce := by
  obtain ⟨d, he, hd⟩ := Call.next_dealt h.invariant ⟨e.operation, []⟩
  have hpos := Call.ids_positive h.invariant ⟨e.operation, []⟩ h.positive
  have hle : s.db.sellOrdersSeq ≤ (Call.next s.storage ⟨e.operation, []⟩ s.db).sellOrdersSeq :=
    (Call.market_extends h.invariant ⟨e.operation, []⟩).issued
  have hstays : ∀ {id : ℤ}, id ≤ s.db.sellOrdersSeq → Gone s.db.toTables id →
      Gone (Call.next s.storage ⟨e.operation, []⟩ s.db).toTables id := fun hid hg =>
    Call.gone_run h.invariant [⟨e.operation, []⟩] hid hg
  obtain ⟨reply, hr, rfl⟩ | ⟨error, hr, -, rfl⟩ := next_cases hs
  · rw [hr] at he
    have hsold : s.db.sellOrdersSeq ≤ intMax →
        ((e.operation.notifications reply).map fun n => n.2.orderId.toInt).Subperm
          ((s.db.market.taken d).map (·.id)) := fun hseq => he.sold fun o ho => by
      have := h.positive o ho
      exact columnInt_of_fits (by omega) ((h.invariant.issued o ho).trans hseq)
    have hlog : soldOrders (s.record e.operation reply).transactionLog =
        soldOrders s.transactionLog ++ e.operation.notifications reply := by
      rw [← Operation.soldOrders_entries]
      exact TransactionLog.soldOrders_append _ _
    have hw := market_wf s.db.valid h.invariant
    have hnodup : ((s.db.market.taken d).map (·.id)).Nodup := by
      rw [← Market.left_apply hw hd.allowed]
      exact hw.ids.sublist (List.filter_sublist.map _)
    -- what is sold now was open before, and is not afterwards
    have htaken : ∀ {id : ℤ}, id ∈ (s.db.market.taken d).map (·.id) → ∃ o ∈ s.db.sellOrders, o.id = id ∧
        Gone (Call.next s.storage ⟨e.operation, []⟩ s.db).toTables id := by
      intro id hid
      obtain ⟨x, hx, rfl⟩ := List.mem_map.1 hid
      obtain ⟨hm, hgone⟩ := hd.gone_taken hw hx
      obtain ⟨o, ho, rfl⟩ := mem_market.1 hm
      exact ⟨o, ho, rfl, hgone⟩
    refine ⟨hd.invariant, hpos, fun hseq => ?_, fun hseq n hn => ?_⟩
    · rw [hlog, List.map_append]
      obtain ⟨ids, hperm, hsub⟩ := hsold (hle.trans hseq)
      refine List.nodup_append.2 ⟨h.nodup (hle.trans hseq), hperm.nodup_iff.1 (hnodup.sublist hsub), ?_⟩
      rintro _ hold id hnew rfl
      obtain ⟨n, hn, hid⟩ := List.mem_map.1 hold
      obtain ⟨o, ho, hid', -⟩ := htaken ((hsold (hle.trans hseq)).subset hnew)
      exact (h.gone (hle.trans hseq) n hn).2 o ho (hid'.trans hid.symm)
    · rw [hlog] at hn
      rcases List.mem_append.1 hn with hn | hn
      · obtain ⟨hid, hg⟩ := h.gone (hle.trans hseq) n hn
        exact ⟨hid.trans hle, hstays hid hg⟩
      · obtain ⟨o, ho, hid, hg⟩ := htaken ((hsold (hle.trans hseq)).subset (List.mem_map.2 ⟨n, hn, rfl⟩))
        exact ⟨hid ▸ (h.invariant.issued o ho).trans hle, hg⟩
  · refine ⟨hd.invariant, hpos, fun hseq => h.nodup (hle.trans hseq), fun hseq n hn => ?_⟩
    obtain ⟨hid, hg⟩ := h.gone (hle.trans hseq) n hn
    exact ⟨hid.trans hle, hstays hid hg⟩

end SharedState

theorem reached_positive (calls : List Call) : ∀ o ∈ (reached calls).sellOrders, 1 ≤ o.id := by
  induction calls using List.reverseRecOn with
  | nil => exact fun o ho => by cases ho
  | append_singleton calls call ih =>
    rw [reached_concat]
    exact Call.ids_positive (reached_invariant calls) call ih

/-! ## What reaches the sellers -/

namespace Server

/-- The notification that is taken off the queue, with the socket that is found for its seller. -/
def taken (s : Server) : ServerEvent → List ((UserId × ExecutedSellOrder) × Option Socket)
  | .notify =>
    match s.state.notifications with
    | n :: _ => [(n, s.state.sockets n.1)]
    | [] => []
  | _ => []

/-- A notification as it is written to the socket that was found. -/
def delivered (x : (UserId × ExecutedSellOrder) × Option Socket) : Option (Socket × ExecutedSellOrder) :=
  x.2.map fun socket => (socket, x.1.2)

variable {s s' : Server} {e : ServerEvent}

/-- The sales of the log were taken, in order, or are still queued, and those that were taken with a
socket were written to it. -/
def Queued (s : Server) (taken : List ((UserId × ExecutedSellOrder) × Option Socket)) : Prop :=
  soldOrders s.state.transactionLog = taken.map Prod.fst ++ s.state.notifications ∧
    s.notified = taken.filterMap delivered

/-- What is sold is queued. -/
theorem Queued.sold {taken : List ((UserId × ExecutedSellOrder) × Option Socket)} (h : s.Queued taken) {event : Event}
    (hs : s.state.next event = some s'.state) (hn : s'.notified = s.notified) : s'.Queued taken := by
  refine ⟨?_, hn.trans h.2⟩
  generalize s'.state = state at hs ⊢
  obtain ⟨reply, -, rfl⟩ | ⟨error, -, -, rfl⟩ := SharedState.next_cases hs
  · show soldOrders (s.state.transactionLog ++ event.operation.entries reply) =
      taken.map Prod.fst ++ (s.state.notifications ++ event.operation.notifications reply)
    rw [TransactionLog.soldOrders_append, Operation.soldOrders_entries, h.1, List.append_assoc]
  · exact h.1

theorem Queued.step {earlier : List ((UserId × ExecutedSellOrder) × Option Socket)} (h : s.Queued earlier)
    (hs : s.step e = some s') : s'.Queued (earlier ++ s.taken e) := by
  have hnone : e ≠ .notify → s.taken e = [] := by
    intro hne
    cases e <;> first | rfl | exact absurd rfl hne
  cases step_moves hs with
  | login hnext hn =>
    rw [hnone (by rintro ⟨⟩), List.append_nil]
    exact h.sold hnext hn
  | request _ hnext hn =>
    rw [hnone (by rintro ⟨⟩), List.append_nil]
    exact h.sold hnext hn
  | tick hnext hn =>
    rw [hnone (by rintro ⟨⟩), List.append_nil]
    exact h.sold hnext hn
  | quiet hne hq hb hn =>
    rw [hnone hne, List.append_nil]
    unfold Queued
    rw [hb.log, hq, hn]
    exact h
  | @notify userId notification hq hb hn =>
    have htaken : s.taken .notify = [((userId, notification), s.state.sockets userId)] := by
      unfold Server.taken
      rw [hq]
    rw [htaken]
    unfold Queued
    rw [List.map_append, List.filterMap_append, ← h.2, hb.log, h.1, hq, hn]
    refine ⟨by rw [List.append_assoc]; rfl, ?_⟩
    -- it is written if a socket was found
    rcases s.state.sockets userId with _ | socket
    · rfl
    · rfl

theorem queued_run {storage : Storage} {db : Database} {events : List ServerEvent}
    (h : Machine.run step (started storage db) events = some s) :
    s.Queued (Machine.outputs taken step (started storage db) events) :=
  Machine.run_outputs (P := fun s earlier => s.Queued earlier) ⟨rfl, rfl⟩ (fun _ _ _ _ _ _ hq hs => hq.step hs) h

/-- What is written to sellers is some of what is taken. -/
theorem delivered_sublist : ∀ taken : List ((UserId × ExecutedSellOrder) × Option Socket),
    (((taken.filterMap delivered).map fun n => n.2.orderId).map Int32.toInt).Sublist
      ((taken.map Prod.fst).map fun n => n.2.orderId.toInt)
  | [] => List.Sublist.refl _
  | (_, none) :: taken => (delivered_sublist taken).cons _
  | (_, some _) :: taken => (delivered_sublist taken).cons_cons _

theorem found_run {storage : Storage} {db : Database} {events : List ServerEvent}
    (h : Machine.run step (started storage db) events = some s) : s.Found :=
  (Machine.run_keeps (I := fun s => s.Fresh ∧ s.Found) (fun _ _ _ hi h => ⟨fresh_step hi.1 h, found_step hi.1 hi.2 h⟩)
    ⟨fun _ _ => rfl, fun _ _ h => by cases h⟩ h).2

/-- In every run, also of a server that starts on a database of earlier ones: the sales of the log are
the notifications that were taken, in order, and then those still queued; what was written to sellers
is what was taken while they were found, and then on a live connection of the seller; and while order
ids fit in an `int` no order is notified twice. -/
theorem notified_once (calls : List Call) (events : List ServerEvent)
    (h : Machine.run step (started Storage.initial (reached calls)) events = some s) :
    s.Queued (Machine.outputs taken step (started Storage.initial (reached calls)) events) ∧
    Machine.Throughout step Found (started Storage.initial (reached calls)) events ∧
    (s.state.db.sellOrdersSeq ≤ intMax → (s.notified.map fun n => n.2.orderId).Nodup) := by
  have hq := queued_run h
  refine ⟨hq, fun _ _ _ h => found_run h, fun hseq => ?_⟩
  have hfirst : SharedState.SoldOnce { storage := Storage.initial, db := reached calls } :=
    ⟨reached_invariant calls, reached_positive calls, fun _ => List.nodup_nil, fun _ _ hn => by cases hn⟩
  obtain ⟨t, hsame, hsold⟩ := SharedState.sameBooks_simulation.safe (P := SharedState.SoldOnce)
    (⟨rfl, rfl, rfl⟩ : SharedState.SameBooks (started Storage.initial (reached calls)).state
      { storage := Storage.initial, db := reached calls })
    (fun _ _ hs => Machine.run_keeps (fun _ _ _ hi h => hi.next h) hfirst hs) h
  have hnodup := hsold.nodup (by rw [← hsame.db]; exact hseq)
  rw [← hsame.log, hq.1, List.map_append] at hnodup
  have hwritten := ((List.nodup_append.1 hnodup).1.sublist (delivered_sublist _)).of_map
  rw [← hq.2] at hwritten
  exact hwritten

/-- alice auctions a sword; she is told when it is sold to bob, who is not told anything. -/
def noticeRun : List ServerEvent :=
  let sword : StringView := some (text "sword")
  [.accept, .accept, .login 0 (some (text "alice")), .login 1 (some (text "bob")), .enter 0, .enter 1,
    .request 0 0 (.deposit (some fundsItemName) 10), .request 0 0 (.deposit sword 1),
    .request 0 0 (.sell .auction sword 1 20), .request 1 0 (.deposit (some fundsItemName) 50),
    .request 1 0 (.buy 1 (some 30)), .tick 300, .notify]

theorem notified_once_auction :
    ∃ s, Machine.run step (started Storage.initial (reached [])) noticeRun = some s ∧
      s.notified = [(0, ⟨1, 30⟩)] ∧ (s.notified.map fun n => n.2.orderId).Nodup := by
  have hrun : (Machine.run step (started Storage.initial (reached [])) noticeRun).map
      (fun s => (s.notified, s.state.db.sellOrdersSeq)) = some ([(0, ⟨1, 30⟩)], 1) := by decide +kernel
  obtain ⟨s, hs, h⟩ := Option.map_eq_some_iff.1 hrun
  obtain ⟨hnotified, hseq⟩ := Prod.mk.inj h
  exact ⟨s, hs, hnotified, (notified_once [] noticeRun hs).2.2 (by rw [hseq]; decide)⟩

end Server

end AuctionHouse
