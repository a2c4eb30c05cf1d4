/-
How large the numbers of the house get. Trades only move what was deposited, so no stored quantity is
above what all deposits together brought in; rows of users and items are numbered without gaps, and
orders are numbered as their fees are entered into the log.
-/
import AuctionHouse.Store.Coalition
import AuctionHouse.Store.Identity

namespace AuctionHouse

open Storage AuctionService

/-! ## Row ids -/

/-- Ids without gaps: 1, 2 and so on. -/
def Dense (ids : List ℤ) : Prop := ids = (List.range ids.length).map fun k : ℕ => (k : ℤ) + 1

theorem newRowId_range (n : ℕ) : newRowId ((List.range n).map fun k : ℕ => (k : ℤ) + 1) = (n : ℤ) + 1 := by
  unfold newRowId
  congr 1
  induction n with
  | zero => rfl
  | succ n ih =>
    rw [List.range_succ, List.map_append, List.foldl_append, ih]
    simp only [List.map_cons, List.map_nil, List.foldl_cons, List.foldl_nil]
    omega

theorem Dense.newRowId {ids : List ℤ} (h : Dense ids) : newRowId ids = (ids.length : ℤ) + 1 := by
  conv_lhs => rw [h]
  exact newRowId_range _

theorem Dense.append {ids : List ℤ} (h : Dense ids) : Dense (ids ++ [AuctionHouse.newRowId ids]) := by
  unfold Dense
  rw [h.newRowId, List.length_append, List.length_singleton, List.range_succ, List.map_append, ← h]
  rfl

/-- The id after the largest one. -/
theorem newRowId_cons {seq : ℤ} {ids : List ℤ} (h0 : 0 ≤ seq) (h : ∀ id ∈ ids, id ≤ seq) :
    newRowId (seq :: ids) = seq + 1 := by
  unfold newRowId
  rw [List.foldl_cons, max_eq_right h0]
  congr 1
  induction ids with
  | nil => rfl
  | cons id ids ih =>
    rw [List.foldl_cons, max_eq_left (h id List.mem_cons_self)]
    exact ih fun x hx => h x (List.mem_cons_of_mem _ hx)

/-- Statements that only add items, each with the next id. -/
theorem dense_statementWise (st : Storage) :
    StatementWise st fun t t' => Dense (t.items.map (·.id)) → Dense (t'.items.map (·.id)) where
  refl _ := id
  trans _ _ _ h h' := h' ∘ h
  createItem t name h := by
    rw [List.map_append]
    exact h.append
  addItem _ _ _ _ := id
  reduceItem _ _ _ _ := id
  removeItem _ _ _ _ := id
  insertSellOrder _ _ := id
  removeSellOrder _ _ := id
  setBuyer _ _ _ _ := id
  settleItems _ _ := id
  deleteExpired _ _ := id

/-! ## Entries -/

namespace TransactionLog

/-- How many entries there are of an operation with items. -/
def count (operationName : Bytes) (l : TransactionLog) : ℕ := l.countP fun e =>
  match e.message with
  | .item name _ _ => decide (name = operationName)
  | _ => false

theorem count_append (operationName : Bytes) (a b : TransactionLog) :
    count operationName (a ++ b) = count operationName a + count operationName b := List.countP_append

theorem count_item (operationName : Bytes) (userId : UserId) (name : Bytes) (itemId quantity : Int32) :
    count operationName [⟨userId, .item name itemId quantity⟩] = if name = operationName then 1 else 0 := by
  simp [count]

theorem count_order (operationName : Bytes) (info : SellOrderExecutionInfo) : count operationName info.entries = 0 := by
  simp [count, SellOrderExecutionInfo.entries]

end TransactionLog

namespace Posting

open TransactionLog (count)

/-- Both sides of a trade are in the group. -/
def Inside (group : Finset UserId) : Posting → Prop
  | traded info => info.sellerId ∈ group ∧ info.buyerId ∈ group
  | _ => True

/-- Only a deposit brings something to a group that trades with nobody else. -/
theorem flow_le {f i : Int32} {group : Finset UserId} {p : Posting} (hp : p.Proper f) (hi : p.Inside group) :
    p.flow f i group ≤ count (text "deposited") p.entries * intMax := by
  have hown : ∀ (userId : UserId) {info : ItemOperationInfo}, 0 ≤ info.quantity.toInt →
      0 ≤ ownQuantity i group userId info := by
    intro userId info h
    unfold ownQuantity
    split
    · exact h
    · exact le_rfl
  have hcount : (0 : ℤ) ≤ count (text "deposited") p.entries * intMax := by
    unfold intMax
    omega
  cases hp with
  | deposited h =>
    rename_i userId info
    rw [entries, TransactionLog.count_item, if_pos rfl]
    simp only [flow, ownQuantity]
    have := toInt_le_intMax info.quantity
    split <;> omega
  | @withdrawn userId _ h =>
    have := hown userId h
    simp only [flow] at hcount ⊢
    omega
  | @fee userId _ h =>
    have := hown userId h
    simp only [flow] at hcount ⊢
    omega
  | traded =>
    simp only [flow, if_pos hi.1, if_pos hi.2]
    exact hcount

theorem sum_flow_le {f i : Int32} {group : Finset UserId} : ∀ {postings : List Posting},
    (∀ p ∈ postings, p.Proper f) → (∀ p ∈ postings, p.Inside group) →
      (postings.map (flow f i group)).sum ≤ count (text "deposited") (postings.flatMap entries) * intMax
  | [], _, _ => by simp [count]
  | p :: postings, hp, hi => by
    have ih := sum_flow_le (i := i) (fun q hq => hp q (List.mem_cons_of_mem _ hq)) fun q hq => hi q (List.mem_cons_of_mem _ hq)
    have hle := flow_le (i := i) (hp p List.mem_cons_self) (hi p List.mem_cons_self)
    rw [List.map_cons, List.sum_cons, List.flatMap_cons, TransactionLog.count_append, Nat.cast_add, add_mul]
    omega

/-- Everyone in the postings, and whoever is added. -/
theorem inside_users {postings : List Posting} {group : Finset UserId}
    (h : ∀ e ∈ postings.flatMap entries, e.userId ∈ group) : ∀ p ∈ postings, p.Inside group := by
  intro p hp
  cases p with
  | traded info =>
    have hentries : ∀ e ∈ info.entries, e.userId ∈ group := fun e he => h e (List.mem_flatMap.2 ⟨_, hp, he⟩)
    exact ⟨hentries _ List.mem_cons_self, hentries _ (List.mem_cons_of_mem _ List.mem_cons_self)⟩
  | _ => trivial

end Posting

/-! ## What an event numbers -/

open TransactionLog (count)

/-- The house issues an order id for each fee in the log. -/
theorem Explains.issued {st : Storage} {t : Tables} (h0 : 0 ≤ t.sellOrdersSeq)
    (hseq : ∀ o ∈ t.sellOrders, o.id ≤ t.sellOrdersSeq) {operation : Operation} {reply : Reply} {d : Deal ℤ ℤ}
    (he : Explains st t operation (.ok reply) d) :
    t.market.issuedAfter d = t.sellOrdersSeq + count (text "payed fee") (operation.entries reply) := by
  have hsame : t.market.issuedAfter d = t.sellOrdersSeq → count (text "payed fee") (operation.entries reply) = 0 →
      t.market.issuedAfter d = t.sellOrdersSeq + count (text "payed fee") (operation.entries reply) := by
    intro h hc
    rw [h, hc, Nat.cast_zero, Int.add_zero]
  cases he with
  | login => exact hsame rfl rfl
  | bid => exact hsame rfl rfl
  | deposit => exact hsame rfl (by rw [Operation.entries, TransactionLog.count_item, if_neg (by decide)])
  | withdraw => exact hsame rfl (by rw [Operation.entries, TransactionLog.count_item, if_neg (by decide)])
  | purchase => exact hsame rfl (TransactionLog.count_order _ _)
  | settle =>
    refine hsame rfl ?_
    unfold count Operation.entries
    rw [List.countP_flatMap]
    exact List.sum_eq_zero fun n hn => by
      obtain ⟨info, -, rfl⟩ := List.mem_map.1 hn
      exact TransactionLog.count_order _ _
  | place =>
    rw [Operation.entries, TransactionLog.count_item, if_pos rfl]
    show nextSellOrderId t = _
    exact newRowId_cons h0 fun id hid => by
      obtain ⟨o, ho, rfl⟩ := List.mem_map.1 hid
      exact hseq o ho

/-- A login adds no item. -/
theorem login_items {st : Storage} {db : Database} (hi : Invariant st db.toTables) (username : StringView) :
    (Call.next st ⟨.login username, []⟩ db).items = db.items := by
  rw [login_next]
  have hcase := login_case hi username
  generalize UserService.login st username (Sql.Connection.idle db) = r at hcase ⊢
  cases hcase with
  | unnamed => rfl
  | known => rfl
  | refused => rfl
  | new _ _ _ hdb =>
    have hitems := congrArg Tables.items hdb
    exact hitems

namespace SharedState

/-- Users and items are numbered without gaps, and orders by the fees in the log. -/
structure Numbered (s : SharedState) : Prop where
  users : Dense (s.db.users.map (·.id))
  items : Dense (s.db.items.map (·.id))
  orders : s.db.sellOrdersSeq = count (text "payed fee") s.transactionLog

theorem dense_next {st : Storage} {db : Database} (hi : Invariant st db.toTables) (operation : Operation)
    (hu : Dense (db.users.map (·.id))) (hitems : Dense (db.items.map (·.id))) :
    Dense ((Call.next st ⟨operation, []⟩ db).users.map (·.id)) ∧
      Dense ((Call.next st ⟨operation, []⟩ db).items.map (·.id)) := by
  constructor
  · obtain ⟨husers, -⟩ | ⟨u, -, -, hid, hdb⟩ := users_next hi operation
    · rw [husers]
      exact hu
    · rw [hdb]
      show Dense ((db.users ++ [u]).map (·.id))
      rw [List.map_append, List.map_cons, List.map_nil, hid]
      exact hu.append
  · by_cases hop : ∀ username, operation ≠ .login username
    · rw [Call.next_calm]
      exact (dense_statementWise st).exec (c := Sql.Connection.idle db) rfl hop hitems
    · push Not at hop
      obtain ⟨username, rfl⟩ := hop
      rw [login_items hi]
      exact hitems

theorem Numbered.next {s s' : SharedState} {e : Event} (h : s.Numbered) (hi : Invariant s.storage s.db.toTables)
    (hs : s.next e = some s') : s'.Numbered := by
  obtain ⟨d, hb⟩ := booked_of_next hi hs
  have hdense := dense_next hi e.operation h.users h.items
  have horders := h.orders
  have hissued : s'.db.sellOrdersSeq = s.db.market.issuedAfter d := congrArg Market.issued hb.dealt.market
  have he := hb.explains
  obtain ⟨reply, hr, rfl⟩ | ⟨error, hr, -, rfl⟩ := next_cases hs
  all_goals rw [hr] at he
  · refine ⟨hdense.1, hdense.2, ?_⟩
    rw [hissued, he.issued (by omega) hi.issued, horders]
    simp only [record, TransactionLog.count_append, Nat.cast_add]
  · refine ⟨hdense.1, hdense.2, ?_⟩
    have hnothing : s.db.market.issuedAfter d = s.db.sellOrdersSeq := by
      generalize e.operation = operation at he
      cases he <;> rfl
    rw [hissued, hnothing, horders]

theorem run_numbered {events : List Event} {s : SharedState} (hs : initial.run events = some s) : s.Numbered := by
  refine (Machine.run_keeps (I := fun s => Invariant s.storage s.db.toTables ∧ s.Numbered)
    (fun s e s' hi h => ?_) ⟨initial_invariant, rfl, rfl, rfl⟩ hs).2
  exact ⟨invariant_next hi.1 h, hi.2.next hi.1 h⟩

end SharedState

/-! ## What is held -/

namespace Tables

variable {t : Tables} (hv : t.Valid)
include hv

theorem bids_nonneg (u : ℤ) : 0 ≤ t.bids u := by
  refine List.sum_nonneg fun a ha => ?_
  obtain ⟨o, ho, rfl⟩ := List.mem_map.1 ha
  exact (hv.sellOrders o (List.mem_filter.1 ho).1).price.le

theorem onSale_nonneg (u i : ℤ) : 0 ≤ t.onSale u i := by
  refine List.sum_nonneg fun a ha => ?_
  obtain ⟨o, ho, rfl⟩ := List.mem_map.1 ha
  exact (hv.sellOrders o (List.mem_filter.1 ho).1).quantity.le

end Tables

namespace Output

/-- What one user holds is no more than all deposits: a group with everyone in the log trades with
nobody else. -/
theorem balance_le (events : List OutputEvent) {s : Output}
    (h : Machine.run step (started Storage.initial Database.initial) events = some s) (u : UserId) (i : Int32) :
    s.state.db.balance u.toInt i.toInt ≤ count (text "deposited") s.state.transactionLog * intMax := by
  obtain ⟨hst, -⟩ := run_invariant h
  obtain ⟨postings, hp⟩ := run_posted h
  have hgroup := (run_balanced h).group hst hp
  obtain ⟨hlog, hproper⟩ := hp
  have hv := s.state.db.valid
  have hbalance := fun v : UserId => Tables.balance_nonneg hv v.toInt
  let group : Finset UserId := insert u (s.state.transactionLog.map (·.userId)).toFinset
  have hu : u ∈ group := Finset.mem_insert_self _ _
  have hinside : ∀ p ∈ postings, p.Inside group := Posting.inside_users fun e he => by
    rw [← hlog] at he
    exact Finset.mem_insert_of_mem (List.mem_toFinset.2 (List.mem_map.2 ⟨e, he, rfl⟩))
  have hflow : ∀ i : Int32, (postings.map (Posting.flow Storage.initial.fundsItemId i group)).sum ≤
      count (text "deposited") s.state.transactionLog * intMax := fun i => by
    rw [hlog]
    exact Posting.sum_flow_le (fun p hp => hst ▸ hproper p hp) hinside
  by_cases hf : i = Storage.initial.fundsItemId
  · subst hf
    have hsingle := Finset.single_le_sum (fun v _ => Int.add_nonneg (hbalance v Storage.initial.fundsItemId.toInt)
      (Tables.bids_nonneg hv v.toInt)) hu
    have hbids := Tables.bids_nonneg hv u.toInt
    have hsum := (hgroup group).1
    have := hflow Storage.initial.fundsItemId
    omega
  · have hsingle := Finset.single_le_sum (fun v _ => Int.add_nonneg (hbalance v i.toInt)
      (Tables.onSale_nonneg hv v.toInt i.toInt)) hu
    have hsale := Tables.onSale_nonneg hv u.toInt i.toInt
    have hsum := (hgroup group).2 i hf
    have := hflow i
    omega

/-- Whatever happens on the streams: no stored quantity is above what the deposits in the log can have
brought in, users and items are numbered without gaps, orders are numbered as their fees are entered,
and the next row of each table gets the next number. -/
theorem numbers_bounded (events : List OutputEvent) {s : Output}
    (h : Machine.run step (started Storage.initial Database.initial) events = some s) :
    let db := s.state.db
    let log := s.state.transactionLog
    (∀ r ∈ db.userItems, r.quantity ≤ count (text "deposited") log * intMax) ∧
      (∀ o ∈ db.sellOrders, o.quantity ≤ intMax ∧ o.price ≤ intMax ∧ o.id ≤ count (text "payed fee") log) ∧
      newRowId (db.users.map (·.id)) = db.users.length + 1 ∧ newRowId (db.items.map (·.id)) = db.items.length + 1 ∧
      nextSellOrderId db.toTables = count (text "payed fee") log + 1 := by
  intro db log
  obtain ⟨t, ⟨_, rfl, hsame⟩, hn⟩ := (server_simulation.comp SharedState.sameBooks_simulation).safe
    (P := SharedState.Numbered) ⟨_, rfl, (⟨rfl, rfl, rfl⟩ : SharedState.SameBooks _ SharedState.initial)⟩
    (fun _ _ hs => SharedState.run_numbered hs) h
  have hdb : db = t.db := hsame.db
  have hlog : log = t.transactionLog := hsame.log
  have hi : Invariant Storage.initial db.toTables := (run_invariant h).2
  have hseq : db.sellOrdersSeq = count (text "payed fee") log := by rw [hdb, hlog, hn.orders]
  refine ⟨fun r hr => ?_, fun o ho => ⟨hi.quantities o ho, hi.prices o ho, hseq ▸ hi.issued o ho⟩, ?_, ?_, ?_⟩
  · have hok := db.valid.userItems r hr
    have hle := balance_le events h (columnInt r.userId) (columnInt r.itemId)
    rw [fits_user db.valid hok.user, fits_item db.valid hok.item,
      Tables.balance_of_inventory (Tables.inventory_of_mem db.valid hr)] at hle
    exact hle
  · rw [hdb, hn.users.newRowId, List.length_map]
  · rw [hdb, hn.items.newRowId, List.length_map]
  · rw [← hseq]
    refine newRowId_cons (by omega) fun id hid => ?_
    obtain ⟨o, ho, rfl⟩ := List.mem_map.1 hid
    exact hi.issued o ho

/-- After three deposits and two sales, one of them settled, the second order has the number 2. -/
theorem numbers_bounded_resale :
    ∃ s, Machine.run step (started Storage.initial Database.initial) resaleRun = some s ∧
      s.state.db.sellOrders.map (·.id) = [2] ∧ (∀ r ∈ s.state.db.userItems, r.quantity ≤ 3 * intMax) ∧
      (∀ o ∈ s.state.db.sellOrders, o.quantity ≤ intMax ∧ o.price ≤ intMax ∧ o.id ≤ 2) ∧
      newRowId (s.state.db.users.map (·.id)) = 3 ∧ nextSellOrderId s.state.db.toTables = 3 := by
  have hrun : (Machine.run step (started Storage.initial Database.initial) resaleRun).map (fun s =>
      (s.state.db.sellOrders.map (·.id), s.state.db.users.length, count (text "deposited") s.state.transactionLog,
        count (text "payed fee") s.state.transactionLog)) = some ([2], 2, 3, 2) := by decide +kernel
  obtain ⟨s, hs, h⟩ := Option.map_eq_some_iff.1 hrun
  simp only [Prod.mk.injEq] at h
  obtain ⟨horders, husers, hdeposits, hfees⟩ := h
  obtain ⟨hquantities, hprices, hnext, -, hnextOrder⟩ := numbers_bounded resaleRun hs
  simp only [hdeposits, hfees, husers] at hquantities hprices hnext hnextOrder
  exact ⟨s, hs, horders, hquantities, hprices, hnext, hnextOrder⟩

end Output

end AuctionHouse
