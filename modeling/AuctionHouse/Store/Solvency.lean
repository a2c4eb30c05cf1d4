/-
Nothing is trapped in the house. A tick after every order's time empties the book and gives everyone
what the log says; and as long as the stored quantities are within `int`, everyone can then withdraw
everything, row by row, until nobody holds anything.
-/
import AuctionHouse.Store.Coalition
import AuctionHouse.Store.Statements

namespace AuctionHouse

open Storage AuctionService

/-! ## One withdrawal -/

/-- No statement takes an item off the list. -/
theorem items_statementWise (st : Storage) : StatementWise st fun t t' => ∀ r ∈ t.items, r ∈ t'.items where
  refl _ _ := id
  trans _ _ _ h h' r := h' r ∘ h r
  createItem _ _ _ := List.mem_append_left _
  addItem _ _ _ _ _ := id
  reduceItem _ _ _ _ _ := id
  removeItem _ _ _ _ _ := id
  insertSellOrder _ _ _ := id
  removeSellOrder _ _ _ := id
  setBuyer _ _ _ _ _ := id
  settleItems _ _ _ := id
  deleteExpired _ _ _ := id

theorem Tables.sellOrders_eq {t t' : Tables} (h : t'.market.book = t.market.book) : t'.sellOrders = t.sellOrders :=
  List.map_injective_iff.2 (fun _ _ => SellOrderRow.order_injective) h

/-- What the log says when a row is withdrawn. -/
def UserItemRow.paid (r : UserItemRow) : LogEntry :=
  ⟨columnInt r.userId, .item (text "withdrawn") (columnInt r.itemId) (columnInt r.quantity)⟩

/-- The user of a row withdraws its quantity. -/
def UserItemRow.Withdrawal (r : UserItemRow) (e : Event) : Prop :=
  ∃ itemName, e = .command (columnInt r.userId) 0 (.withdraw itemName (columnInt r.quantity))

namespace SharedState

/-- A row is withdrawn: only its holding changed. -/
structure Withdrawn (s s' : SharedState) (r : UserItemRow) : Prop where
  storage : s'.storage = s.storage
  invariant : Invariant s'.storage s'.db.toTables
  items : ∀ item ∈ s.db.items, item ∈ s'.db.items
  sellOrders : s'.db.sellOrders = s.db.sellOrders
  balance : ∀ v j, s'.db.balance v j = s.db.balance v j - give r.userId r.itemId r.quantity v j
  log : s'.transactionLog = s.transactionLog ++ [r.paid]

/-- Taking all of a row spoils nothing. -/
theorem spoiled_all (st : Storage) (itemId : Int32) {x : ℤ} {quantity : Int32} (hq : quantity.toInt = x) :
    spoiled st itemId quantity x = 0 := by
  unfold spoiled
  rw [hq, Int.sub_self, ite_self]

theorem next_withdrawal {s : SharedState} (hi : Invariant s.storage s.db.toTables) {r : UserItemRow}
    (hb : s.db.balance r.userId r.itemId = r.quantity) (hpos : 0 < r.quantity) (hfit : r.quantity ≤ intMax) :
    ∃ e s', r.Withdrawal e ∧ s.next e = some s' ∧ Withdrawn s s' r := by
  have hx := inventory_of_balance (hb ▸ hpos)
  rw [hb] at hx
  have hrow := Tables.row_ok s.db.valid hx
  obtain ⟨item, hitem, hid⟩ := hrow.item
  have hu := fits_user s.db.valid hrow.user
  have hid' := fits_item s.db.valid hrow.item
  have hquantity := columnInt_of_fits hpos.le hfit
  obtain ⟨info, db', hcalm⟩ : ∃ info db', AuctionService.withdraw s.storage (columnInt r.userId) (some item.name)
      (columnInt r.quantity) (Sql.Connection.idle s.db) = .ok info (Sql.Connection.idle db') :=
    withdraw_calm (by omega) hitem rfl (by rw [hu, hid]; exact hx) (Int32.le_refl _)
  let e := Event.command (columnInt r.userId) 0 (.withdraw (some item.name) (columnInt r.quantity))
  have hreply : Call.reply s.storage ⟨e.operation, []⟩ s.db = .ok (.item info) := by
    rw [Call.reply_calm]
    simp only [e, Event.operation, Operation.exec, Sql.outcome_map, hcalm]
    rfl
  have hstep := step_eq s e
  rw [hreply] at hstep
  have hnext : s.next e = some (s.record e.operation (.item info)) := congrArg Behaviour.state hstep
  obtain ⟨d, hb'⟩ := booked_of_next hi hnext
  have hexplains : Explains s.storage s.db.toTables
    (.withdraw (columnInt r.userId) (some item.name) (columnInt r.quantity)) (.ok (.item info)) d := by
    have := hb'.explains
    rw [hreply] at this
    exact this
  refine ⟨e, _, ⟨some item.name, rfl⟩, hnext, ?_⟩
  cases hexplains with
  | @withdraw _ _ _ itemId x hitem' hx' _ =>
    -- names are unique, so it is the row's item
    obtain ⟨item', hm, hname, hid''⟩ := hitem'
    obtain rfl : item' = item := List.inj_on_of_nodup_map s.db.valid.itemNames hm hitem (Option.some.inj hname)
    have hitemId : itemId = columnInt r.itemId := Int32.toInt_inj.1 (by rw [hid'', hid, hid'])
    subst hitemId
    rw [hu, hid', hx] at hx'
    obtain rfl := Option.some.inj hx'
    have hbook := congrArg Market.book hb'.dealt.market
    have hlogin : ∀ username, e.operation ≠ .login username := by rintro _ ⟨⟩
    have hitems : ∀ item ∈ s.db.items, item ∈ (Call.next s.storage ⟨e.operation, []⟩ s.db).items :=
      (items_statementWise s.storage).exec (c := Sql.Connection.idle s.db) rfl hlogin
    refine ⟨rfl, hb'.invariant, hitems, Tables.sellOrders_eq hbook, fun v j => ?_, rfl⟩
    rw [hb'.dealt.balance]
    simp only [Market.delta, spoiled_all s.storage (columnInt r.itemId) hquantity, hu, hid', hquantity, Int.add_zero,
      Int.sub_eq_add_neg]

/-! ## All withdrawals -/

/-- A row that is not empty and can be withdrawn at once. -/
structure Payable (s : SharedState) (r : UserItemRow) : Prop where
  balance : s.db.balance r.userId r.itemId = r.quantity
  positive : 0 < r.quantity
  fits : r.quantity ≤ intMax

/-- Rows of different keys are withdrawn one after another. -/
theorem run_withdrawals : ∀ (rows : List UserItemRow) {s : SharedState}, Invariant s.storage s.db.toTables →
    (rows.map UserItemRow.key).Nodup → (∀ r ∈ rows, s.Payable r) →
      ∃ events s', List.Forall₂ UserItemRow.Withdrawal rows events ∧ s.run events = some s' ∧
        s'.db.sellOrders = s.db.sellOrders ∧ s'.transactionLog = s.transactionLog ++ rows.map UserItemRow.paid ∧
        (∀ r ∈ rows, s'.db.balance r.userId r.itemId = 0) ∧
        ∀ v j, (v, j) ∉ rows.map UserItemRow.key → s'.db.balance v j = s.db.balance v j
  | [], s, _, _, _ => ⟨[], s, .nil, rfl, rfl, (List.append_nil _).symm, fun _ h => absurd h List.not_mem_nil,
      fun _ _ _ => rfl⟩
  | r :: rows, s, hi, hn, hp => by
    rw [List.map_cons, List.nodup_cons] at hn
    have hr := hp r List.mem_cons_self
    obtain ⟨e, s₁, he, hnext, hw⟩ := next_withdrawal hi hr.balance hr.positive hr.fits
    -- the other rows have other keys
    have hother : ∀ v j, (v, j) ≠ r.key → s₁.db.balance v j = s.db.balance v j := by
      intro v j hne
      rw [hw.balance, give, if_neg fun h => hne (by rw [h.1, h.2]; rfl), Int.sub_zero]
    have hp₁ : ∀ x ∈ rows, s₁.Payable x := by
      intro x hx
      have h := hp x (List.mem_cons_of_mem _ hx)
      refine ⟨?_, h.positive, h.fits⟩
      rw [hother _ _ fun hk => hn.1 (List.mem_map.2 ⟨x, hx, hk⟩), h.balance]
    obtain ⟨events, s', hevents, hrun, horders, hlog, hzero, hsame⟩ := run_withdrawals rows hw.invariant hn.2 hp₁
    refine ⟨e :: events, s', .cons he hevents, ?_, horders.trans hw.sellOrders, ?_, ?_, fun v j hv => ?_⟩
    · show (s.next e).bind _ = _
      rw [hnext]
      exact hrun
    · rw [hlog, hw.log, List.append_assoc]
      rfl
    · intro x hx
      rcases List.mem_cons.1 hx with rfl | hx
      · rw [hsame _ _ hn.1, hw.balance, give_self, hr.balance, Int.sub_self]
      · exact hzero x hx
    · rw [List.map_cons, List.mem_cons, not_or] at hv
      rw [hsame v j hv.2, hother v j hv.1]

/-- The rows that hold something. -/
def holdings (s : SharedState) : List UserItemRow := s.db.userItems.filter fun r => decide (0 < r.quantity)

/-- While every row is within `int`, everyone can take everything. -/
theorem run_holdings {s : SharedState} (hi : Invariant s.storage s.db.toTables)
    (hfit : ∀ r ∈ s.db.userItems, r.quantity ≤ intMax) :
    ∃ events s', List.Forall₂ UserItemRow.Withdrawal s.holdings events ∧ s.run events = some s' ∧
      s'.db.sellOrders = s.db.sellOrders ∧ s'.transactionLog = s.transactionLog ++ s.holdings.map UserItemRow.paid ∧
      ∀ v j, s'.db.balance v j = 0 := by
  have hv := s.db.valid
  have hbalance : ∀ r ∈ s.db.userItems, s.db.balance r.userId r.itemId = r.quantity := fun r hr =>
    Tables.balance_of_inventory (Tables.inventory_of_mem hv hr)
  have hmem : ∀ r, r ∈ s.holdings ↔ r ∈ s.db.userItems ∧ 0 < r.quantity := fun r => by
    simp [holdings, List.mem_filter]
  obtain ⟨events, s', hevents, hrun, horders, hlog, hzero, hsame⟩ := run_withdrawals s.holdings hi
    (hv.userItemKeys.sublist (List.filter_sublist.map _)) fun r hr =>
      ⟨hbalance r ((hmem r).1 hr).1, ((hmem r).1 hr).2, hfit r ((hmem r).1 hr).1⟩
  refine ⟨events, s', hevents, hrun, horders, hlog, fun v j => ?_⟩
  by_cases hk : (v, j) ∈ s.holdings.map UserItemRow.key
  · obtain ⟨r, hr, hkey⟩ := List.mem_map.1 hk
    cases hkey
    exact hzero r hr
  · -- whoever has no such row had nothing
    rw [hsame v j hk]
    by_contra hne
    have hpos : 0 < s.db.balance v j := lt_of_le_of_ne (Tables.balance_nonneg hv v j) (Ne.symm hne)
    have hrow := Tables.mem_of_inventory (inventory_of_balance hpos)
    exact hk (List.mem_map.2 ⟨_, (hmem _).2 ⟨hrow, hpos⟩, rfl⟩)

/-! ## Closing the house -/

/-- A tick after every order's time empties the book. -/
theorem tick_clears {s : SharedState} (hi : Invariant s.storage s.db.toTables) {unixNow : ℤ}
    (hdue : ∀ o ∈ s.db.sellOrders, o.expirationTime ≤ unixNow) :
    ∃ s', s.next (.tick unixNow) = some s' ∧ s'.storage = s.storage ∧ Invariant s'.storage s'.db.toTables ∧
      s'.db.sellOrders = [] := by
  obtain ⟨s', d, hnext, hb⟩ := next_booked hi (.tick unixNow)
  refine ⟨s', hnext, hb.storage, hb.invariant, ?_⟩
  have hempty : s.db.market.bookAfter (.settle unixNow) = [] := List.filter_eq_nil_iff.2 fun o ho => by
    obtain ⟨r, hr, rfl⟩ := mem_market.1 ho
    have hexpired : decide (r.order.expires ≤ unixNow) = true := decide_eq_true (hdue r hr)
    simp [hexpired]
  have hmarket := Call.tick_market hi unixNow
  obtain ⟨_, -, rfl⟩ | ⟨_, -, -, rfl⟩ := next_cases hnext
  · exact List.map_eq_nil_iff.1 ((congrArg Market.book hmarket).trans hempty)
  · exact List.map_eq_nil_iff.1 ((congrArg Market.book hmarket).trans hempty)

/-- In every reachable state: a tick after every order's time empties the book and leaves everyone the
funds the log says; and if no stored quantity is beyond `int`, everyone can then withdraw every row
whole, and nobody is left with anything. The withdrawals are commands as they are executed: over a socket
a request has at most 256 bytes, and the name of the item has to fit into it with its quantity. -/
theorem everyone_paid (events : List Event) {unixNow : ℤ} {s : SharedState} (hs : initial.run events = some s)
    (hdue : ∀ o ∈ s.db.sellOrders, o.expirationTime ≤ unixNow) :
    ∃ s₁, s.next (.tick unixNow) = some s₁ ∧ s₁.db.sellOrders = [] ∧
      (∀ u : UserId, s₁.db.balance u.toInt s₁.storage.fundsItemId.toInt =
        s₁.transactionLog.replay (LogMessage.funds s₁.storage.fundsItemId) u) ∧
      ((∀ r ∈ s₁.db.userItems, r.quantity ≤ intMax) →
        ∃ withdrawals s₂, List.Forall₂ UserItemRow.Withdrawal s₁.holdings withdrawals ∧
          s₁.run withdrawals = some s₂ ∧ s₂.db.sellOrders = [] ∧ (∀ v j, s₂.db.balance v j = 0) ∧
          s₂.transactionLog = s₁.transactionLog ++ s₁.holdings.map UserItemRow.paid) := by
  have hfirst : initial.FundsBalanced := fun _ => rfl
  obtain ⟨hi, hf⟩ := Machine.run_keeps (I := fun s => Invariant s.storage s.db.toTables ∧ s.FundsBalanced)
    (fun s e s' hi h => by
      obtain ⟨d, hb⟩ := booked_of_next hi.1 h
      exact ⟨hb.invariant, hb.fundsBalanced hi.1 hi.2⟩) ⟨initial_invariant, hfirst⟩ hs
  obtain ⟨s₁, hnext, -, hi₁, horders⟩ := tick_clears hi hdue
  obtain ⟨d, hb⟩ := booked_of_next hi hnext
  refine ⟨s₁, hnext, horders, fun u => ?_, fun hfit => ?_⟩
  · have := hb.fundsBalanced hi hf u
    -- no order is left to bid on
    rw [Tables.bids, horders] at this
    simpa using this
  · obtain ⟨withdrawals, s₂, hw, hrun, h2, hlog, hzero⟩ := run_holdings hi₁ hfit
    exact ⟨withdrawals, s₂, hw, hrun, h2.trans horders, hzero, hlog⟩

/-- alice's sword is sold at the tick to bob, who bid 30 of his 50; both then take what they have. -/
theorem everyone_paid_auction :
    let sword : StringView := some (text "sword")
    let funds : StringView := some fundsItemName
    let events := [Event.login (some (text "alice")), .login (some (text "bob")), .command 1 0 (.deposit funds 10),
      .command 1 0 (.deposit sword 1), .command 2 0 (.deposit funds 50), .command 1 0 (.sell .auction sword 1 20),
      .command 2 0 (.buy 1 (some 30))]
    ∃ s s₁ withdrawals s₂, initial.run events = some s ∧ s.next (.tick 300) = some s₁ ∧ s₁.db.balance 1 1 = 38 ∧
      s₁.run withdrawals = some s₂ ∧ ∀ v j, s₂.db.balance v j = 0 := by
  intro sword funds events
  have hrun : (initial.run events).bind (fun s => (s.next (.tick 300)).map fun s₁ =>
      (decide (∀ o ∈ s.db.sellOrders, o.expirationTime ≤ 300),
        decide (∀ r ∈ s₁.db.userItems, r.quantity ≤ intMax), s₁.db.balance 1 1)) = some (true, true, 38) := by
    decide +kernel
  obtain ⟨s, hs, hrun⟩ := Option.bind_eq_some_iff.1 hrun
  obtain ⟨s₁, hnext, h⟩ := Option.map_eq_some_iff.1 hrun
  simp only [Prod.mk.injEq, decide_eq_true_eq] at h
  obtain ⟨hdue, hfit, hb⟩ := h
  obtain ⟨s', hnext', -, -, hpaid⟩ := everyone_paid events hs hdue
  obtain rfl := Option.some.inj (hnext.symm.trans hnext')
  obtain ⟨withdrawals, s₂, -, hw, -, hzero, -⟩ := hpaid hfit
  exact ⟨s, s₁, withdrawals, s₂, hs, hnext, hb, hw, hzero⟩

end SharedState

end AuctionHouse
