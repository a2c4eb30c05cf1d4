/-
The transaction log as double-entry bookkeeping. Every sale is entered twice, for its seller and for
its buyer, so trades inside any group of users cancel: what the group holds together is what it
deposited, less what it withdrew and payed in fees, and what it traded with others.
-/
import AuctionHouse.Server.Layers
import Mathlib.Algebra.BigOperators.Group.Finset.Piecewise
import Mathlib.Algebra.Order.BigOperators.Group.Finset

namespace AuctionHouse

open Storage AuctionService

/-! ## Postings -/

/-- What the server enters into its log at a time. -/
inductive Posting where
  | deposited (userId : UserId) (info : ItemOperationInfo)
  | withdrawn (userId : UserId) (info : ItemOperationInfo)
  | fee (sellerId : UserId) (info : ItemOperationInfo)
  | traded (info : SellOrderExecutionInfo)

namespace Posting

def entries : Posting → List LogEntry
  | deposited userId info => [⟨userId, .item (text "deposited") info.itemId info.quantity⟩]
  | withdrawn userId info => [⟨userId, .item (text "withdrawn") info.itemId info.quantity⟩]
  | fee sellerId info => [⟨sellerId, .item (text "payed fee") info.itemId info.quantity⟩]
  | traded info => info.entries

/-- Quantities are not negative, fees are funds, and funds are not traded. -/
inductive Proper (fundsItemId : Int32) : Posting → Prop
  | deposited {userId : UserId} {info : ItemOperationInfo} (h : 0 ≤ info.quantity.toInt) :
    Proper fundsItemId (.deposited userId info)
  | withdrawn {userId : UserId} {info : ItemOperationInfo} (h : 0 ≤ info.quantity.toInt) :
    Proper fundsItemId (.withdrawn userId info)
  | fee {sellerId : UserId} {info : ItemOperationInfo} (h : 0 ≤ info.quantity.toInt)
    (hfunds : info.itemId = fundsItemId) : Proper fundsItemId (.fee sellerId info)
  | traded {info : SellOrderExecutionInfo} (h : info.itemId ≠ fundsItemId) : Proper fundsItemId (.traded info)

/-- The quantity of an operation, if it is one of the group's with the item. -/
def ownQuantity (i : Int32) (group : Finset UserId) (userId : UserId) (info : ItemOperationInfo) : ℤ :=
  if userId ∈ group ∧ info.itemId = i then info.quantity.toInt else 0

/-- What the seller of an executed order gains of an item, and its buyer gives. -/
def gain (fundsItemId i : Int32) (info : SellOrderExecutionInfo) : ℤ :=
  (if fundsItemId = i then info.price.toInt else 0) - if info.itemId = i then info.quantity.toInt else 0

/-- What a posting brings to a group of users in an item. A trade inside the group brings nothing. -/
def flow (fundsItemId i : Int32) (group : Finset UserId) : Posting → ℤ
  | deposited userId info => ownQuantity i group userId info
  | withdrawn userId info => -ownQuantity i group userId info
  | fee sellerId info => -ownQuantity i group sellerId info
  | traded info =>
    if info.sellerId ∈ group then if info.buyerId ∈ group then 0 else gain fundsItemId i info
    else if info.buyerId ∈ group then -gain fundsItemId i info else 0

end Posting

namespace TransactionLog

variable {amount : LogMessage → ℤ} (group : Finset UserId)

/-- What the entries of a group's users add up to. -/
theorem sum_replay_single (e : LogEntry) :
    ∑ u ∈ group, replay amount u [e] = if e.userId ∈ group then amount e.message else 0 := by
  simp only [replay_single]
  exact Finset.sum_ite_eq group e.userId fun _ => amount e.message

theorem sum_replay_append (a b : TransactionLog) : ∑ u ∈ group, replay amount u (a ++ b) =
    ∑ u ∈ group, replay amount u a + ∑ u ∈ group, replay amount u b := by
  simp only [replay_append]
  exact Finset.sum_add_distrib

theorem sum_replay_postings {f i : Int32} (hm : Measures f i amount) : ∀ {postings : List Posting},
    (∀ p ∈ postings, p.Proper f) →
      ∑ u ∈ group, replay amount u (postings.flatMap Posting.entries) = (postings.map (Posting.flow f i group)).sum
  | [], _ => by simp
  | p :: postings, hp => by
    have ih := sum_replay_postings hm fun q hq => hp q (List.mem_cons_of_mem _ hq)
    rw [List.flatMap_cons, sum_replay_append, ih, List.map_cons, List.sum_cons]
    congr 1
    cases hp p List.mem_cons_self with
    | deposited =>
      rw [Posting.entries, sum_replay_single, hm.deposited]
      simp only [Posting.flow, Posting.ownQuantity, ite_and]
    | withdrawn =>
      rw [Posting.entries, sum_replay_single, hm.withdrawn]
      simp only [Posting.flow, Posting.ownQuantity, ite_and]
      split <;> simp
    | fee _ hfunds =>
      rw [Posting.entries, sum_replay_single, hfunds, hm.fee]
      simp only [Posting.flow, Posting.ownQuantity, hfunds, ite_and]
      split <;> simp
    | traded hne =>
      rw [Posting.entries, SellOrderExecutionInfo.entries, ← List.singleton_append, sum_replay_append,
        sum_replay_single, sum_replay_single, hm.sold _ _ _ _ hne, hm.bought _ _ _ _ hne]
      simp only [Posting.flow, Posting.gain]
      split_ifs <;> omega

end TransactionLog

/-! ## What is posted -/

section
variable {st : Storage} {t : Tables} (hv : t.Valid) (hi : Invariant st t)
include hv hi

theorem proper_executionInfo {o : SellOrderRow} (ho : o ∈ t.sellOrders) (id : Int32) (buyerId : UserId) :
    (Posting.traded { executionInfo o with id, buyerId }).Proper st.fundsItemId := by
  refine .traded fun h => hi.items o ho ?_
  rw [← item_fits hv ho, ← h]
  rfl

/-- What an operation logs is posted. -/
theorem Explains.postings {operation : Operation} {reply : Reply} {d : Deal ℤ ℤ}
    (he : Explains st t operation (.ok reply) d) (ha : t.market.Allowed st.fundsItemId.toInt d) :
    ∃ postings : List Posting, operation.entries reply = postings.flatMap Posting.entries ∧
      ∀ p ∈ postings, p.Proper st.fundsItemId := by
  have hone : ∀ p : Posting, p.Proper st.fundsItemId → operation.entries reply = p.entries →
      ∃ postings : List Posting, operation.entries reply = postings.flatMap Posting.entries ∧
        ∀ p ∈ postings, p.Proper st.fundsItemId := by
    intro p hp heq
    refine ⟨[p], by rw [heq]; simp, fun q hq => ?_⟩
    rw [List.mem_singleton.1 hq]
    exact hp
  have hnone : operation.entries reply = [] →
      ∃ postings : List Posting, operation.entries reply = postings.flatMap Posting.entries ∧
        ∀ p ∈ postings, p.Proper st.fundsItemId := fun heq => ⟨[], heq, fun _ h => by cases h⟩
  cases he with
  | login => exact hnone rfl
  | bid => exact hnone rfl
  | deposit =>
    rename_i userId _ quantity itemId
    have hquantity : 0 ≤ quantity.toInt := ha
    exact hone (.deposited userId ⟨itemId, quantity⟩) (.deposited hquantity) rfl
  | withdraw =>
    rename_i userId _ quantity itemId _ _ _ _
    have hquantity : 0 ≤ quantity.toInt := ha.1
    exact hone (.withdrawn userId ⟨itemId, quantity⟩) (.withdrawn hquantity) rfl
  | place =>
    rename_i sellerId _ _ price _ _ _ _ _ _ _ _
    have hfee : 0 ≤ (sellOrderFee price).toInt := ha.2.2.2.2.2.1
    exact hone (.fee sellerId ⟨st.fundsItemId, sellOrderFee price⟩) (.fee hfee rfl) rfl
  | purchase ho =>
    rename_i buyerId sellOrderId o _ _
    exact hone (.traded { executionInfo o with id := sellOrderId, buyerId }) (proper_executionInfo hv hi ho _ _) rfl
  | settle =>
    rename_i unixNow
    refine ⟨(executedAuctionOrders unixNow t).map .traded, ?_, fun p hp => ?_⟩
    · rw [List.flatMap_map]
      rfl
    · obtain ⟨info, hinfo, rfl⟩ := List.mem_map.1 hp
      obtain ⟨o, ho, rfl⟩ := List.mem_map.1 hinfo
      exact proper_executionInfo hv hi (mem_executedAuctions.1 ho).1 _ _

end

namespace SharedState

/-- The log is a list of postings. -/
def Posted (s : SharedState) (postings : List Posting) : Prop :=
  s.transactionLog = postings.flatMap Posting.entries ∧ ∀ p ∈ postings, p.Proper s.storage.fundsItemId

theorem Posted.next {s s' : SharedState} {e : Event} {postings : List Posting} (h : s.Posted postings)
    (hi : Invariant s.storage s.db.toTables) (hs : s.next e = some s') : ∃ more, s'.Posted (postings ++ more) := by
  obtain ⟨d, hb⟩ := booked_of_next hi hs
  have he := hb.explains
  obtain ⟨reply, hr, rfl⟩ | ⟨error, hr, -, rfl⟩ := next_cases hs
  · rw [hr] at he
    obtain ⟨more, hmore, hp⟩ := he.postings s.db.valid hi hb.dealt.allowed
    refine ⟨more, ?_, fun p hm => ?_⟩
    · rw [List.flatMap_append, ← h.1, ← hmore]
      rfl
    · rcases List.mem_append.1 hm with hm | hm
      · exact h.2 p hm
      · exact hp p hm
  · exact ⟨[], by rw [List.append_nil]; exact h⟩

theorem run_posted {events : List Event} {s : SharedState} (hs : initial.run events = some s) :
    ∃ postings, s.Posted postings := by
  refine (Machine.run_keeps (I := fun s => Invariant s.storage s.db.toTables ∧ ∃ postings, s.Posted postings)
    (fun s e s' hi h => ?_) ⟨initial_invariant, [], rfl, fun _ h => by cases h⟩ hs).2
  obtain ⟨hi, postings, hp⟩ := hi
  obtain ⟨more, hmore⟩ := hp.next hi h
  exact ⟨invariant_next hi h, _, hmore⟩

end SharedState

/-! ## Groups -/

namespace Output

variable {s : Output}

/-- A group of users holds in funds what was posted for it, and of other items no more. -/
def GroupBalanced (s : Output) (postings : List Posting) (group : Finset UserId) : Prop :=
  let f := Storage.initial.fundsItemId
  (∑ u ∈ group, (s.state.db.balance u.toInt f.toInt + s.state.db.bids u.toInt) =
      (postings.map (Posting.flow f f group)).sum) ∧
    ∀ i : Int32, i ≠ f → ∑ u ∈ group, (s.state.db.balance u.toInt i.toInt + s.state.db.onSale u.toInt i.toInt) ≤
      (postings.map (Posting.flow f i group)).sum

theorem run_posted {events : List OutputEvent}
    (h : Machine.run step (started Storage.initial Database.initial) events = some s) :
    ∃ postings, s.state.Posted postings := by
  obtain ⟨t, ⟨_, rfl, hsame⟩, postings, hlog, hproper⟩ :=
    (server_simulation.comp SharedState.sameBooks_simulation).safe (P := fun t => ∃ postings, t.Posted postings)
      ⟨_, rfl, (⟨rfl, rfl, rfl⟩ : SharedState.SameBooks _ SharedState.initial)⟩
      (fun _ _ hs => SharedState.run_posted hs) h
  exact ⟨postings, hsame.log.trans hlog, fun p hm => hsame.storage ▸ hproper p hm⟩

/-- Trades inside a group cancel in the sum of what its users have in the log. -/
theorem Balanced.group (hb : s.Balanced) (hst : s.state.storage = Storage.initial) {postings : List Posting}
    (hp : s.state.Posted postings) (group : Finset UserId) : s.GroupBalanced postings group := by
  obtain ⟨hlog, hproper⟩ := hp
  rw [hst] at hproper
  refine ⟨?_, fun i hne => ?_⟩
  · rw [← TransactionLog.sum_replay_postings group (measures_funds _) hproper, ← hlog]
    refine Finset.sum_congr rfl fun u _ => ?_
    have := hb.1 u
    rw [hst] at this
    exact this
  · rw [← TransactionLog.sum_replay_postings group (measures_items hne) hproper, ← hlog]
    exact Finset.sum_le_sum fun u _ => hb.2 u i hne

/-- Whatever happens on the streams, what any group of users holds together in funds, with its bids, is
what was posted for it, trades inside the group not counted; and of any other item it holds, with what
it has on sale, no more than that. -/
theorem coalition_ledger (events : List OutputEvent)
    (h : Machine.run step (started Storage.initial Database.initial) events = some s) :
    ∃ postings, s.state.Posted postings ∧ ∀ group, s.GroupBalanced postings group := by
  obtain ⟨postings, hp⟩ := run_posted h
  exact ⟨postings, hp, (run_balanced h).group (run_invariant h).1 hp⟩

/-- alice sold bob a sword for 25 and has bid 12 for it since. For each of them the price is posted; for the
two together only the 40 that they deposited and the fees of 3. -/
theorem coalition_ledger_resale :
    ∃ s, Machine.run step (started Storage.initial Database.initial) resaleRun = some s ∧
      ∃ postings, s.state.Posted postings ∧ (postings.map (Posting.flow 1 1 {1})).sum = 33 ∧
        (postings.map (Posting.flow 1 1 {2})).sum = 4 ∧ (postings.map (Posting.flow 1 1 {1, 2})).sum = 37 := by
  have hrun : (Machine.run step (started Storage.initial Database.initial) resaleRun).map (fun s =>
      ((s.state.db.balance 1 1, s.state.db.bids 1), s.state.db.balance 2 1, s.state.db.bids 2)) =
        some ((21, 12), 4, 0) := by decide +kernel
  obtain ⟨s, hs, hb⟩ := Option.map_eq_some_iff.1 hrun
  simp only [Prod.mk.injEq] at hb
  obtain ⟨⟨halice, hbid⟩, hbob, hnone⟩ := hb
  obtain ⟨postings, hp, hgroup⟩ := coalition_ledger resaleRun hs
  have hposted : ∀ group : Finset UserId, (postings.map (Posting.flow 1 1 group)).sum =
      ∑ u ∈ group, (s.state.db.balance u.toInt 1 + s.state.db.bids u.toInt) := fun group => (hgroup group).1.symm
  have hone : s.state.db.balance (1 : UserId).toInt 1 + s.state.db.bids (1 : UserId).toInt = 33 := by
    show s.state.db.balance 1 1 + s.state.db.bids 1 = 33
    rw [halice, hbid]
    rfl
  have htwo : s.state.db.balance (2 : UserId).toInt 1 + s.state.db.bids (2 : UserId).toInt = 4 := by
    show s.state.db.balance 2 1 + s.state.db.bids 2 = 4
    rw [hbob, hnone]
    rfl
  refine ⟨s, hs, postings, hp, ?_, ?_, ?_⟩
  · rw [hposted, Finset.sum_singleton, hone]
  · rw [hposted, Finset.sum_singleton, htwo]
  · rw [hposted, Finset.sum_pair (by decide), hone, htwo]
    rfl

end Output

end AuctionHouse
