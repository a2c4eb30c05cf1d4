/-
The transaction log as the ledger of the house. Replaying a user's entries gives what the user
holds and what the open orders hold for the user: for funds always, and for every other item until
a quantity of 2^32 or more is taken for the `int` it reads as.
-/
import AuctionHouse.Server.Commands
import AuctionHouse.Store.Spending

namespace AuctionHouse

open Storage AuctionService

/-! ## Replaying the log -/

namespace LogMessage

/-- What a message adds to the funds of its user. -/
def funds (fundsItemId : Int32) : LogMessage → ℤ
  | .item operationName itemId quantity =>
    if itemId ≠ fundsItemId then 0
    else if operationName = AuctionHouse.text "deposited" then quantity.toInt
    else if operationName = AuctionHouse.text "withdrawn" then -quantity.toInt
    else if operationName = AuctionHouse.text "payed fee" then -quantity.toInt
    else 0
  | .sold _ _ price _ => price.toInt
  | .bought _ _ price _ => -price.toInt

/-- What a message adds to an item, other than funds, of its user. -/
def items (i : Int32) : LogMessage → ℤ
  | .item operationName itemId quantity =>
    if itemId ≠ i then 0
    else if operationName = AuctionHouse.text "deposited" then quantity.toInt
    else if operationName = AuctionHouse.text "withdrawn" then -quantity.toInt
    else 0
  | .sold itemId quantity _ _ => if itemId = i then -quantity.toInt else 0
  | .bought itemId quantity _ _ => if itemId = i then quantity.toInt else 0

end LogMessage

/-- What the entries of a user add up to. -/
def TransactionLog.replay (amount : LogMessage → ℤ) (u : UserId) (l : TransactionLog) : ℤ :=
  (l.map fun e => if e.userId = u then amount e.message else 0).sum

/-- An amount of a message that measures an item. -/
structure Measures (fundsItemId i : Int32) (amount : LogMessage → ℤ) : Prop where
  deposited : ∀ itemId quantity, amount (.item (text "deposited") itemId quantity) =
    if itemId = i then quantity.toInt else 0
  withdrawn : ∀ itemId quantity, amount (.item (text "withdrawn") itemId quantity) =
    -if itemId = i then quantity.toInt else 0
  fee : ∀ quantity, amount (.item (text "payed fee") fundsItemId quantity) =
    -if fundsItemId = i then quantity.toInt else 0
  sold : ∀ itemId quantity price orderId, itemId ≠ fundsItemId → amount (.sold itemId quantity price orderId) =
    (if fundsItemId = i then price.toInt else 0) - if itemId = i then quantity.toInt else 0
  bought : ∀ itemId quantity price orderId, itemId ≠ fundsItemId → amount (.bought itemId quantity price orderId) =
    (if itemId = i then quantity.toInt else 0) - if fundsItemId = i then price.toInt else 0

theorem withdrawn_ne_deposited : text "withdrawn" ≠ text "deposited" := by decide

theorem fee_ne_deposited : text "payed fee" ≠ text "deposited" := by decide

theorem fee_ne_withdrawn : text "payed fee" ≠ text "withdrawn" := by decide

theorem measures_funds (f : Int32) : Measures f f (LogMessage.funds f) := by
  refine ⟨fun i q => ?_, fun i q => ?_, fun q => ?_, fun i q p id h => ?_, fun i q p id h => ?_⟩
  · by_cases hi : i = f <;> simp [LogMessage.funds, hi]
  · by_cases hi : i = f <;> simp [LogMessage.funds, hi, withdrawn_ne_deposited]
  · simp [LogMessage.funds, fee_ne_deposited, fee_ne_withdrawn]
  · simp [LogMessage.funds, h]
  · simp [LogMessage.funds, h]

theorem measures_items {f i : Int32} (hi : i ≠ f) : Measures f i (LogMessage.items i) := by
  refine ⟨fun j q => ?_, fun j q => ?_, fun q => ?_, fun j q p id _ => ?_, fun j q p id _ => ?_⟩
  · by_cases hj : j = i <;> simp [LogMessage.items, hj]
  · by_cases hj : j = i <;> simp [LogMessage.items, hj, withdrawn_ne_deposited]
  · simp [LogMessage.items, hi.symm]
  · by_cases hj : j = i <;> simp [LogMessage.items, hi.symm, hj]
  · by_cases hj : j = i <;> simp [LogMessage.items, hi.symm, hj]

namespace TransactionLog

variable {amount : LogMessage → ℤ} {u : UserId}

@[simp] theorem replay_nil : replay amount u [] = 0 := rfl

theorem replay_append (a b : TransactionLog) : replay amount u (a ++ b) = replay amount u a + replay amount u b := by
  unfold replay
  rw [List.map_append, List.sum_append]

/-- The order of the entries does not matter to it. -/
theorem replay_perm {a b : TransactionLog} (h : a.Perm b) : replay amount u a = replay amount u b := (h.map _).sum_eq

theorem replay_single (e : LogEntry) : replay amount u [e] = if e.userId = u then amount e.message else 0 :=
  add_zero _

end TransactionLog

theorem give_toInt (u v : UserId) (i j : Int32) (a : ℤ) :
    give u.toInt i.toInt a v.toInt j.toInt = if u = v then (if i = j then a else 0) else 0 := by
  simp only [give, Int32.toInt_inj, eq_comm (a := v), eq_comm (a := j), ite_and]

/-! ## What an operation logs -/

section
variable {st : Storage} {i : Int32} {amount : LogMessage → ℤ} (hm : Measures st.fundsItemId i amount) (u : UserId)
include hm

/-- The two entries of an executed order are its trade. -/
theorem replay_entries {info : SellOrderExecutionInfo} {o : Order ℤ ℤ} (hseller : info.sellerId.toInt = o.seller)
    (hitem : info.itemId.toInt = o.item) (hquantity : info.quantity.toInt = o.quantity)
    (hprice : info.price.toInt = o.price) (hne : o.item ≠ st.fundsItemId.toInt) :
    TransactionLog.replay amount u info.entries = trade st.fundsItemId.toInt o info.buyerId.toInt u.toInt i.toInt := by
  have hf : info.itemId ≠ st.fundsItemId := fun h => hne (by rw [← hitem, h])
  have hsum : TransactionLog.replay amount u info.entries =
      (if info.sellerId = u then amount (.sold info.itemId info.quantity info.price info.id) else 0) +
        if info.buyerId = u then amount (.bought info.itemId info.quantity info.price info.id) else 0 := by
    rw [SellOrderExecutionInfo.entries, ← List.singleton_append, TransactionLog.replay_append,
      TransactionLog.replay_single, TransactionLog.replay_single]
  rw [hsum, hm.sold _ _ _ _ hf, hm.bought _ _ _ _ hf, trade, ← hseller, ← hitem, ← hquantity, ← hprice]
  simp only [give_toInt]
  split_ifs <;> omega

theorem replay_settled {t : Tables} (hv : t.Valid) (hi : Invariant st t) {orders : List SellOrderRow}
    (ho : ∀ o ∈ orders, o ∈ t.sellOrders) :
    TransactionLog.replay amount u (((orders.filter hasBid).map executionInfo).flatMap SellOrderExecutionInfo.entries) =
      (orders.map fun o => sale st.fundsItemId.toInt o.order u.toInt i.toInt).sum := by
  induction orders with
  | nil => rfl
  | cons o orders ih =>
    have ih := ih fun x hx => ho x (List.mem_cons_of_mem _ hx)
    have hm' := ho o List.mem_cons_self
    rw [List.map_cons, List.sum_cons, ← ih, sale, SellOrderRow.bidder_order]
    rcases hb : hasBid o
    · rw [List.filter_cons_of_neg (by simp [hb])]
      simp
    · obtain ⟨b, hbuyer, -⟩ := (hasBid_iff o).1 hb
      have hr := reports_executionInfo hv hi hm' hb
      have hentries := replay_entries hm u (o := o.order) hr.seller hr.item hr.quantity hr.price (hi.items o hm')
      have hbid : (executionInfo o).buyerId.toInt = b := Option.some.inj (hr.buyer.trans hbuyer)
      rw [List.filter_cons_of_pos hb, List.map_cons, List.flatMap_cons, TransactionLog.replay_append, hentries, hbid,
        if_pos rfl, hbuyer]

/-- The log records exactly what the deal brings into the estate of a user or takes out of it. -/
theorem Explains.replay_eq {t : Tables} (hv : t.Valid) (hi : Invariant st t) {operation : Operation} {reply : Reply}
    {d : Deal ℤ ℤ} (he : Explains st t operation (.ok reply) d) :
    TransactionLog.replay amount u (operation.entries reply) =
      t.market.recorded st.fundsItemId.toInt d u.toInt i.toInt := by
  cases he with
  | login => rfl
  | bid => rfl
  | deposit =>
    rw [Operation.entries, TransactionLog.replay_single, hm.deposited, Market.recorded, give_toInt]
  | withdraw =>
    rw [Operation.entries, TransactionLog.replay_single, hm.withdrawn, Market.recorded, give_toInt]
    split <;> simp
  | place =>
    rename_i orderType sellerId itemName quantity price itemId unixExpirationTime x _ _ _ _ _
    rw [Operation.entries, TransactionLog.replay_single, hm.fee, Market.recorded]
    show _ = -give sellerId.toInt _ _ _ _
    rw [give_toInt]
    split <;> simp
  | purchase ho =>
    rename_i o _ _
    exact replay_entries hm u (o := o.order) (seller_fits hv ho) (item_fits hv ho) (quantity_fits hv hi ho)
      (price_fits hv hi ho) (hi.items o ho)
  | settle =>
    rename_i unixNow
    have hperm := ((executedAuctions_perm unixNow t).map executionInfo).flatMap_right SellOrderExecutionInfo.entries
    rw [Market.recorded, due_market, List.map_map]
    exact (TransactionLog.replay_perm hperm).trans (replay_settled hm u hv hi fun o ho => (List.mem_filter.1 ho).1)

end

/-! ## Estates in the tables -/

namespace Tables

/-- The prices of the open auction orders on which a user is the highest bidder. -/
def bids (t : Tables) (u : ℤ) : ℤ :=
  ((t.sellOrders.filter fun o => decide (o.buyerId = some u ∧ o.sellerId ≠ u)).map (·.price)).sum

/-- How much of an item a user's open orders sell. -/
def onSale (t : Tables) (u i : ℤ) : ℤ :=
  ((t.sellOrders.filter fun o => decide (o.sellerId = u ∧ o.itemId = i)).map (·.quantity)).sum

theorem refund_row (o : SellOrderRow) (f u : ℤ) :
    refund f o.order u f = if o.buyerId = some u ∧ o.sellerId ≠ u then o.price else 0 := by
  unfold refund
  rw [SellOrderRow.bidder_order]
  rcases hb : hasBid o
  · have : ¬ (o.buyerId = some u ∧ o.sellerId ≠ u) := fun h => by
      rw [(hasBid_iff o).2 ⟨u, h.1, h.2.symm⟩] at hb
      cases hb
    rw [if_neg this]
    rfl
  · obtain ⟨b, hbuyer, hne⟩ := (hasBid_iff o).1 hb
    rw [if_pos rfl, hbuyer]
    by_cases hu : b = u
    · subst hu
      rw [if_pos ⟨rfl, hne.symm⟩]
      exact give_self ..
    · rw [if_neg fun h => hu (Option.some.inj h.1)]
      exact give_of_ne_user (Ne.symm hu) ..

theorem estate_eq {st : Storage} {t : Tables} {u i : ℤ} {p : SellOrderRow → Prop} [DecidablePred p]
    {f : SellOrderRow → ℤ} (h : ∀ o ∈ t.sellOrders, lien st.fundsItemId.toInt o.order u i = if p o then f o else 0) :
    t.market.estate st.fundsItemId.toInt u i =
      t.balance u i + ((t.sellOrders.filter fun o => decide (p o)).map f).sum := by
  rw [sum_filter, ← List.map_congr_left h, Market.estate, market, List.map_map]
  rfl

variable {st : Storage} {t : Tables} (hi : Invariant st t)
include hi

theorem estate_funds (u : ℤ) :
    t.market.estate st.fundsItemId.toInt u st.fundsItemId.toInt = t.balance u st.fundsItemId.toInt + t.bids u := by
  refine estate_eq fun o ho => ?_
  rw [lien, refund_row]
  show give o.sellerId o.itemId o.quantity _ _ + _ = _
  rw [give_of_ne_item (hi.items o ho).symm, Int.zero_add]

omit hi in
theorem estate_item {i : ℤ} (hne : i ≠ st.fundsItemId.toInt) (u : ℤ) :
    t.market.estate st.fundsItemId.toInt u i = t.balance u i + t.onSale u i := by
  refine estate_eq fun o _ => ?_
  have hrefund : refund st.fundsItemId.toInt o.order u i = 0 := by
    unfold refund
    split
    · exact give_of_ne_item hne ..
    · rfl
  rw [lien, hrefund, Int.add_zero]
  show give o.sellerId o.itemId o.quantity u i = _
  simp only [give, eq_comm]

end Tables

/-! ## What a step changes -/

namespace SharedState

/-- What an event did to the server, as a deal. -/
structure Booked (s s' : SharedState) (e : Event) (d : Deal ℤ ℤ) : Prop where
  explains : Explains s.storage s.db.toTables e.operation (Call.reply s.storage ⟨e.operation, []⟩ s.db) d
  dealt : Dealt s.storage s.db.toTables s'.db.toTables d
  storage : s'.storage = s.storage
  estate : ∀ i amount, Measures s.storage.fundsItemId i amount → ∀ u : UserId,
    s'.db.market.estate s.storage.fundsItemId.toInt u.toInt i.toInt + d.loss u.toInt i.toInt +
        s.transactionLog.replay amount u =
      s.db.market.estate s.storage.fundsItemId.toInt u.toInt i.toInt + s'.transactionLog.replay amount u

theorem next_booked {s : SharedState} (hi : Invariant s.storage s.db.toTables) (e : Event) :
    ∃ s' d, s.next e = some s' ∧ Booked s s' e d := by
  obtain ⟨d, he, hd⟩ := Call.next_dealt hi ⟨e.operation, []⟩
  have hestate := Market.estate_apply (market_wf s.db.valid hi) hd.allowed
  rw [← hd.market] at hestate
  have hstep := step_eq s e
  rcases hr : Call.reply s.storage ⟨e.operation, []⟩ s.db with error | reply
  · have hnothing : d = .nothing ∧ s.next e = some { s with db := Call.next s.storage ⟨e.operation, []⟩ s.db } := by
      rw [hr] at hstep he
      cases e with
      | tick unixNow =>
        -- without refusals a settlement does not fail
        rw [Call.reply_calm] at hr
        simp only [Event.operation, Operation.exec, Sql.outcome_map, processExpiredSellOrders_calm hi unixNow] at hr
        cases hr
      | login username => cases he; exact ⟨rfl, congrArg Behaviour.state hstep⟩
      | command userId unixNow command =>
        refine ⟨?_, congrArg Behaviour.state hstep⟩
        rcases command with _ | _ | _ | ⟨_, _ | _⟩ <;> cases he <;> rfl
    obtain ⟨rfl, hnext⟩ := hnothing
    refine ⟨_, _, hnext, he, hd, rfl, fun i amount hm u => ?_⟩
    have := hestate u.toInt i.toInt
    rw [show s.db.market.recorded _ .nothing u.toInt i.toInt = 0 from rfl] at this
    dsimp only at this ⊢
    omega
  · rw [hr] at hstep
    refine ⟨_, _, congrArg Behaviour.state hstep, he, hd, rfl, fun i amount hm u => ?_⟩
    rw [hr] at he
    have := hestate u.toInt i.toInt
    rw [← he.replay_eq hm u s.db.valid hi] at this
    dsimp only [record] at this ⊢
    rw [TransactionLog.replay_append]
    omega

theorem booked_of_next {s s' : SharedState} {e : Event} (hi : Invariant s.storage s.db.toTables)
    (h : s.next e = some s') : ∃ d, Booked s s' e d := by
  obtain ⟨s₁, d, h', hb⟩ := next_booked hi e
  rw [Option.some.inj (h.symm.trans h')]
  exact ⟨d, hb⟩

theorem Booked.invariant {s s' : SharedState} {e : Event} {d : Deal ℤ ℤ} (h : Booked s s' e d) :
    Invariant s'.storage s'.db.toTables := by rw [h.storage]; exact h.dealt.invariant

theorem invariant_next {s s' : SharedState} {e : Event} (hi : Invariant s.storage s.db.toTables)
    (h : s.next e = some s') : Invariant s'.storage s'.db.toTables := by
  obtain ⟨d, hb⟩ := booked_of_next hi h
  exact hb.invariant

/-- No run of the server without refusals reaches undefined behaviour. -/
theorem run_returns (events : List Event) : ∃ s, initial.run events = some s := by
  refine Machine.run_total (fun _ _ _ hi h => invariant_next hi h) (fun s e hi => ?_) initial_invariant
  obtain ⟨s', d, h, -⟩ := next_booked hi e
  exact ⟨s', h⟩

/-! ## Funds -/

/-- What a user holds in funds, with the user's standing bids, is what the log says. -/
def FundsBalanced (s : SharedState) : Prop := ∀ u : UserId,
  s.db.balance u.toInt s.storage.fundsItemId.toInt + s.db.bids u.toInt =
    s.transactionLog.replay (LogMessage.funds s.storage.fundsItemId) u

theorem Booked.fundsBalanced {s s' : SharedState} {e : Event} {d : Deal ℤ ℤ} (h : Booked s s' e d)
    (hi : Invariant s.storage s.db.toTables) (hf : s.FundsBalanced) : s'.FundsBalanced := by
  intro u
  have hs := Tables.estate_funds hi u.toInt
  have hs' := Tables.estate_funds h.dealt.invariant u.toInt
  have := h.estate _ _ (measures_funds _) u
  rw [Market.loss_funds h.dealt.allowed] at this
  have := hf u
  rw [h.storage]
  omega

/-- In every run the funds of every user, with the standing bids, are what the log says, and whoever
is outbid gets the bid back. -/
theorem funds_ledger (events : List Event) : ∃ s, initial.run events = some s ∧ s.FundsBalanced ∧
    ∀ (buyerId : UserId) (sellOrderId bid : Int32),
      let call : Call := ⟨.placeBidOnAuctionSellOrder buyerId sellOrderId bid, []⟩
      call.reply s.storage s.db = .ok .bid → ∀ o ∈ s.db.sellOrders, o.id = sellOrderId.toInt →
        ∀ v, o.buyerId = some v → v ≠ buyerId.toInt →
          (call.next s.storage s.db).balance v s.storage.fundsItemId.toInt =
            s.db.balance v s.storage.fundsItemId.toInt + o.price := by
  obtain ⟨s, hs⟩ := run_returns events
  have hkeep : ∀ (s : SharedState) (e : Event) (s' : SharedState),
      Invariant s.storage s.db.toTables ∧ s.FundsBalanced → s.next e = some s' →
        Invariant s'.storage s'.db.toTables ∧ s'.FundsBalanced := by
    rintro s e s' ⟨hi, hf⟩ h
    obtain ⟨d, hb⟩ := booked_of_next hi h
    exact ⟨hb.invariant, hb.fundsBalanced hi hf⟩
  have hfirst : initial.FundsBalanced := fun _ => rfl
  obtain ⟨hi, hf⟩ := Machine.run_keeps hkeep ⟨initial_invariant, hfirst⟩ hs
  refine ⟨s, hs, hf, ?_⟩
  intro buyerId sellOrderId bid call hr o ho hid v hv hne
  obtain ⟨d, he, hd⟩ := Call.next_dealt hi call
  rw [hr] at he
  cases he with
  | bid ho' hid' hread =>
    rename_i o'
    obtain rfl : o' = o := ids_order s.db.valid ho ho' (hid'.trans hid.symm)
    rw [hd.balance, Market.delta, give_of_ne_user hne, Int.sub_zero, Tables.refund_row, if_pos]
    refine ⟨hv, fun h => ?_⟩
    have himm := hd.allowed.2.1
    rw [SellOrderRow.isImmediate_order] at himm
    simp [hv, h] at himm

end SharedState

end AuctionHouse
