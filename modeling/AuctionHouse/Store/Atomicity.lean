/-
Trades are atomic: whichever statements are refused, `place_sell_order`,
`execute_immediate_sell_order` and `place_bid_on_auction_sell_order` either return a result or
leave the database as it was, and never leave a transaction open.
-/
import AuctionHouse.Server.Services

namespace AuctionHouse

open Storage AuctionService

/-! ## Steps stay inside their transaction -/

theorem inside_getItemId (itemName : StringView) : Sql.Inside (getItemId itemName) := inside_query _

theorem inside_addUserItem (userId : UserId) (itemId quantity : Int32) :
    Sql.Inside (addUserItem userId itemId quantity) := inside_executeWith _

/-- A balance that could not be read is none, and `sub_user_item` fails. -/
theorem subUserItem_eq (st : Storage) (userId : UserId) (itemId quantity : Int32) :
    subUserItem st userId itemId quantity =
      Sql.attempt (query (selectQuantity userId.toInt itemId.toInt)) >>= fun found => match found with
        | .error _ => throw (failedToWithdraw quantity)
        | .ok userItemQuantity =>
          if userItemQuantity < quantity then throw (failedToWithdraw quantity)
          else if itemId = st.fundsItemId ∨ quantity < userItemQuantity then
            execute (reduceItem userId.toInt itemId.toInt quantity.toInt)
          else execute (removeItem userId.toInt itemId.toInt) := by
  unfold subUserItem getUserItemsQuantity
  rw [bind_assoc]
  refine bind_congr fun found => ?_
  rw [pure_bind]
  rcases found with e | n <;> rfl

theorem inside_subUserItem (st : Storage) (userId : UserId) (itemId quantity : Int32) :
    Sql.Inside (subUserItem st userId itemId quantity) := by
  rw [subUserItem_eq]
  refine Sql.Inside.attempt (inside_query _) (fun userItemQuantity => ?_) fun e => ⟨_, rfl⟩
  exact Sql.Inside.ite (Sql.Inside.throw _) (Sql.Inside.ite (inside_execute _) (inside_execute _))

theorem login_eq (st : Storage) (username : StringView) :
    UserService.login st username =
      if username.bytes = [] then throw (text "Username cannot be empty")
      else getUserId username >>= fun found => match found with
        | some id => pure ⟨id, username.bytes⟩
        | none => createUser username >>= fun id =>
          addUserItem id st.fundsItemId 0 >>= fun _ => pure ⟨id, username.bytes⟩ :=
  rfl

theorem deposit_eq (userId : UserId) (itemName : StringView) (quantity : Int32) :
    AuctionService.deposit userId itemName quantity =
      if quantity < 0 then throw (text "Cannot deposit negative amount")
      else Sql.orElse (getItemId itemName) (createItem itemName) >>= fun itemId =>
        addUserItem userId itemId quantity >>= fun _ => pure ⟨itemId, quantity⟩ :=
  rfl

theorem withdraw_eq (st : Storage) (userId : UserId) (itemName : StringView) (quantity : Int32) :
    AuctionService.withdraw st userId itemName quantity =
      if quantity < 0 then throw (text "Cannot withdraw negative amount")
      else Sql.mapError (fun _ => text "Not enough " ++ itemName.bytes ++ text "(s) to withdraw")
        (getItemId itemName >>= fun itemId =>
          subUserItem st userId itemId quantity >>= fun _ => pure ⟨itemId, quantity⟩) :=
  rfl

theorem inside_placeSteps (st : Storage) (orderType : SellOrderType) (sellerId : UserId) (itemName : StringView)
    (quantity price : Int32) (unixExpirationTime : ℤ) :
    Sql.Inside (placeSteps st orderType sellerId itemName quantity price unixExpirationTime) := by
  refine Sql.Inside.bind (Sql.Inside.mapError ?_) fun itemId => ?_
  · exact (inside_getItemId itemName).bind fun itemId =>
      (inside_subUserItem st sellerId itemId quantity).bind fun _ => Sql.Inside.pure _
  · exact (Sql.Inside.mapError (inside_subUserItem st sellerId _ _)).bind fun _ => inside_execute _

theorem inside_executeSteps (st : Storage) (buyerId : UserId) (sellOrderId : Int32) (order : SellOrderInnerInfo) :
    Sql.Inside (executeSteps st buyerId sellOrderId order) :=
  (Sql.Inside.mapError (inside_subUserItem st buyerId _ _)).bind fun _ =>
    (inside_addUserItem _ _ _).bind fun _ => (inside_addUserItem _ _ _).bind fun _ => inside_execute _

theorem inside_returnFunds (st : Storage) (order : SellOrderInnerInfo) : Sql.Inside (returnFunds st order) := by
  unfold returnFunds
  split
  · exact Sql.Inside.pure _
  · exact Sql.Inside.mapError (inside_addUserItem _ _ _)

theorem inside_bidSteps (st : Storage) (buyerId : UserId) (sellOrderId bid : Int32) (order : SellOrderInnerInfo) :
    Sql.Inside (bidSteps st buyerId sellOrderId bid order) :=
  (inside_returnFunds st order).bind fun _ =>
    (Sql.Inside.mapError (inside_subUserItem st buyerId _ _)).bind fun _ => inside_execute _

/-- The failure of the query of a settlement is passed over, so the settlement stays inside its transaction
only when the engine does not roll back there. -/
theorem insideAt_settle (st : Storage) (unixNow : ℤ) {c : Connection} (hheld : Sql.Held c.faults) :
    Sql.InsideAt (settle st unixNow) c := by
  refine Sql.InsideAt.bind ⟨fun executed c' h => ?_, fun e c' h => ?_⟩ fun executed c' _ => ?_
  · rw [Sql.attempt_apply] at h
    cases h
    exact (query_held _ hheld).2
  · rw [Sql.attempt_apply] at h
    cases h
  · exact Sql.Inside.bind (Sql.Inside.mapError (inside_execute _)) (fun _ =>
      (Sql.Inside.mapError (inside_execute _)).bind fun _ => Sql.Inside.pure _) c'

/-! ## Transactions -/

/-- The shape of every transaction of the services: BEGIN, steps, COMMIT through the guard, and a
result made of what the steps returned. -/
def transaction {α β : Type} (steps : Exec α) (result : α → Except Error β) : Exec β := do
  Sql.mapError failedToStart beginTransaction
  Sql.Guard.scope do
    let a ← Sql.Guard.lift steps
    commit
    Sql.ofExcept (result a)

/-- A transaction started outside any transaction ends outside any; either it fails without an
effect, or its steps ran on the database and their effect is kept. -/
theorem transaction_spec {α β : Type} {steps : Exec α} (result : α → Except Error β) {c : Connection}
    (hx : ∀ c₁, c₁.faults = c.faults.tail → Sql.InsideAt steps c₁) (hc : c.saved = none) :
    let r := transaction steps result c
    (Sql.after r).saved = none ∧
      ((∃ e, Sql.outcome r = .error e ∧ (Sql.after r).db = c.db) ∨
        ∃ a c₁ c₂, c₁.db = c.db ∧ c₁.faults = c.faults.tail ∧ steps c₁ = .ok a c₂ ∧ Sql.outcome r = result a ∧
          (Sql.after r).db = c₂.db) := by
  intro r
  rcases hb : Sql.mapError failedToStart beginTransaction c with ⟨⟨⟩, c₁⟩ | ⟨e, c₁⟩
  · have hr : r = Sql.Guard.scope (do
        let a ← Sql.Guard.lift steps
        commit
        Sql.ofExcept (result a)) c₁ :=
      Sql.bind_of_ok hb _
    obtain ⟨-, hs, hdb⟩ := Sql.begin_ok (Sql.mapError_ok_iff.1 hb)
    obtain ⟨-, hfaults⟩ := Sql.granted_of_begin (Sql.mapError_ok_iff.1 hb)
    obtain ⟨h1, h2⟩ := Sql.Guard.scope_commit result (hx c₁ hfaults) hs
    rw [hr]
    refine ⟨h1, ?_⟩
    rcases h2 with ⟨e, he, hd⟩ | ⟨a, c₂, ha, ho, hd⟩
    · exact .inl ⟨e, he, hd⟩
    · exact .inr ⟨a, c₁, c₂, hdb, hfaults, ha, ho, hd⟩
  · -- BEGIN was refused: there is no guard yet, and nothing to roll back
    have hr : r = .error e c₁ := Sql.bind_of_error hb _
    have ha : c₁ = Sql.after (beginTransaction c) := by
      rw [← Sql.after_mapError failedToStart, hb]; rfl
    rw [hr]
    obtain ⟨hs, hdb⟩ : c₁.saved = none ∧ c.db = c₁.db := by
      rw [ha]
      rcases h : beginTransaction c with ⟨⟨⟩, c'⟩ | ⟨e', c'⟩
      · have := Sql.mapError_ok_iff (f := failedToStart).2 h
        rw [hb] at this; cases this
      · exact (Sql.begin_error h).idle hc
    exact ⟨hs, .inl ⟨e, rfl, hdb.symm⟩⟩

theorem transaction_calm {α β : Type} {steps : Exec α} (result : α → Except Error β) {db db' : Database} {a : α}
    (h : steps ⟨db, some db, []⟩ = .ok a ⟨db', some db, []⟩) :
    transaction steps result ⟨db, none, []⟩ = Sql.ofExcept (result a) ⟨db', none, []⟩ := by
  have hb : Sql.mapError failedToStart beginTransaction ⟨db, none, []⟩ = .ok () ⟨db, some db, []⟩ := rfl
  rw [transaction, Sql.bind_of_ok hb]
  exact Sql.Guard.scope_commit_calm result h

/-- Without refusals a transaction fails with the error of its steps. -/
theorem transaction_calm_error {α β : Type} {steps : Exec α} (result : α → Except Error β) {db : Database} {e : Error}
    {c : Connection} (h : steps ⟨db, some db, []⟩ = .error e c) :
    Sql.outcome (transaction steps result ⟨db, none, []⟩) = .error e := by
  have hb : Sql.mapError failedToStart beginTransaction ⟨db, none, []⟩ = .ok () ⟨db, some db, []⟩ := rfl
  rw [transaction, Sql.bind_of_ok hb]
  simp only [Sql.Guard.scope, Sql.bind_apply, Sql.Guard.lift, h, Sql.outcome_error]

/-! ## The trades -/

/-- Started outside any transaction, `x` ends outside any transaction (so that the next BEGIN
succeeds unless it is refused), and an error means that nothing changed. -/
structure Atomic {α : Type} (x : Exec α) : Prop where
  noEffect : ∀ db faults e, Sql.outcome (x (Sql.Connection.idle db faults)) = .error e →
    (Sql.after (x (Sql.Connection.idle db faults))).db = db
  closed : ∀ db faults, (Sql.after (x (Sql.Connection.idle db faults))).saved = none
  nextBegin : ∀ db faults, let c := Sql.after (x (Sql.Connection.idle db faults))
    Sql.outcome (beginTransaction { c with faults := [] }) = .ok ()

theorem Atomic.of_spec {α : Type} {x : Exec α}
    (h : ∀ db faults, let r := x (Sql.Connection.idle db faults)
      (Sql.after r).saved = none ∧ ∀ e, Sql.outcome r = .error e → (Sql.after r).db = db) : Atomic x := by
  refine ⟨fun db faults => (h db faults).2, fun db faults => (h db faults).1, fun db faults => ?_⟩
  have hs := (h db faults).1
  show Sql.outcome (Sql.begin _ ⟨_, _, []⟩) = .ok ()
  rw [hs]
  rfl

theorem transaction_atomic {α β : Type} {steps : Exec α} (hx : Sql.Inside steps) (b : α → β)
    {c : Connection} (hc : c.saved = none) :
    let r := transaction steps (fun a => .ok (b a)) c
    (Sql.after r).saved = none ∧ ∀ e, Sql.outcome r = .error e → (Sql.after r).db = c.db := by
  obtain ⟨h1, h2⟩ := transaction_spec (fun a => Except.ok (ε := Error) (b a)) (fun c₁ _ => hx c₁) hc
  refine ⟨h1, fun e he => ?_⟩
  rcases h2 with ⟨_, -, hd⟩ | ⟨a, _, _, -, -, -, ho, -⟩
  · exact hd
  · rw [ho] at he; cases he

theorem getSellOrderInfo_after (sellOrderId : Int32) {c : Connection} (hc : c.saved = none) :
    ∃ info c', getSellOrderInfo sellOrderId c = .ok info c' ∧ c'.db = c.db ∧ c'.saved = none := by
  obtain ⟨h1, h2⟩ := query_after (selectSellOrder sellOrderId.toInt) hc
  exact ⟨_, _, by rw [getSellOrderInfo, Sql.bind_apply, Sql.attempt_apply]; rfl, h1, h2⟩

/-- An operation that reads an order, may give up, and otherwise runs a transaction is atomic. -/
theorem atomic_of_order {α : Type} (sellOrderId : Int32) (k : Option SellOrderInnerInfo → Exec α)
    (hk : ∀ info, (∃ e, k info = throw e) ∨
      ∃ (steps : Exec Unit) (a : Unit → α), Sql.Inside steps ∧ k info = transaction steps fun u => .ok (a u)) :
    Atomic (getSellOrderInfo sellOrderId >>= k) := by
  refine Atomic.of_spec fun db faults => ?_
  have hidle : (Sql.Connection.idle db faults : Connection).saved = none := rfl
  obtain ⟨info, c', h, hdb, hs⟩ := getSellOrderInfo_after sellOrderId hidle
  intro r
  have hr : r = k info c' := Sql.bind_of_ok h k
  rw [hr]
  rcases hk info with ⟨e, he⟩ | ⟨steps, a, hx, ha⟩
  · rw [he]
    exact ⟨hs, fun _ _ => hdb⟩
  · rw [ha]
    have := transaction_atomic hx a hs
    exact ⟨this.1, fun e he => (this.2 e he).trans hdb⟩

theorem executeImmediateSellOrder_eq (st : Storage) (buyerId : UserId) (sellOrderId : Int32) :
    executeImmediateSellOrder st buyerId sellOrderId = getSellOrderInfo sellOrderId >>= fun info =>
      match info with
      | none => throw (text "Immediate sell order #" ++ decimal sellOrderId ++ text " doesn't exist")
      | some order =>
        if order.type ≠ .immediate then
          throw (text "Sell order #" ++ decimal sellOrderId ++ text " is not an immediate sell order")
        else if buyerId = order.sellerId then throw (text "You can't buy your own items")
        else transaction (executeSteps st buyerId sellOrderId order) fun _ =>
          .ok ⟨sellOrderId, order.sellerId, buyerId, order.itemId, order.quantity, order.price⟩ :=
  rfl

theorem placeBidOnAuctionSellOrder_eq (st : Storage) (buyerId : UserId) (sellOrderId bid : Int32) :
    placeBidOnAuctionSellOrder st buyerId sellOrderId bid = getSellOrderInfo sellOrderId >>= fun info =>
      match info with
      | none => throw (text "Sell order #" ++ decimal sellOrderId ++ text " doesn't exist")
      | some order =>
        if order.type ≠ .auction then
          throw (text "Sell order #" ++ decimal sellOrderId ++ text " is not an auction sell order")
        else if buyerId = order.sellerId then throw (text "You cannot bid on your own auction orders")
        else if bid ≤ order.price then throw (text "Bid must be greater than the current price")
        else transaction (bidSteps st buyerId sellOrderId bid order) fun _ => .ok () :=
  rfl

theorem placeSellOrder_eq (st : Storage) (orderType : SellOrderType) (sellerId : UserId) (itemName : StringView)
    (quantity price : Int32) (unixExpirationTime : ℤ) :
    placeSellOrder st orderType sellerId itemName quantity price unixExpirationTime =
      if quantity < 0 then throw (text "Cannot sell negative amount")
      else if price < 0 then throw (text "Cannot sell for negative price")
      else if itemName = some fundsItemName then
        throw (text "Cannot sell " ++ fundsItemName ++ text " for " ++ fundsItemName ++ text ", it's a speculation!")
      else transaction (placeSteps st orderType sellerId itemName quantity price unixExpirationTime)
        fun _ => .ok ⟨st.fundsItemId, sellOrderFee price⟩ :=
  rfl

theorem atomic_throw {α : Type} (e : Error) : Atomic (throw e : Exec α) :=
  Atomic.of_spec fun _ _ => ⟨rfl, fun _ _ => rfl⟩

theorem placeSellOrder_atomic (st : Storage) (orderType : SellOrderType) (sellerId : UserId) (itemName : StringView)
    (quantity price : Int32) (unixExpirationTime : ℤ) :
    Atomic (placeSellOrder st orderType sellerId itemName quantity price unixExpirationTime) := by
  rw [placeSellOrder_eq]
  split
  · exact atomic_throw _
  split
  · exact atomic_throw _
  split
  · exact atomic_throw _
  · exact Atomic.of_spec fun _ _ => transaction_atomic (inside_placeSteps _ _ _ _ _ _ _) _ rfl

theorem executeImmediateSellOrder_atomic (st : Storage) (buyerId : UserId) (sellOrderId : Int32) :
    Atomic (executeImmediateSellOrder st buyerId sellOrderId) := by
  rw [executeImmediateSellOrder_eq]
  refine atomic_of_order sellOrderId _ fun info => ?_
  rcases info with _ | order
  · exact .inl ⟨_, rfl⟩
  simp only
  split
  · exact .inl ⟨_, rfl⟩
  split
  · exact .inl ⟨_, rfl⟩
  · exact .inr ⟨_, _, inside_executeSteps _ _ _ _, rfl⟩

theorem placeBidOnAuctionSellOrder_atomic (st : Storage) (buyerId : UserId) (sellOrderId bid : Int32) :
    Atomic (placeBidOnAuctionSellOrder st buyerId sellOrderId bid) := by
  rw [placeBidOnAuctionSellOrder_eq]
  refine atomic_of_order sellOrderId _ fun info => ?_
  rcases info with _ | order
  · exact .inl ⟨_, rfl⟩
  simp only
  split
  · exact .inl ⟨_, rfl⟩
  split
  · exact .inl ⟨_, rfl⟩
  split
  · exact .inl ⟨_, rfl⟩
  · exact .inr ⟨_, _, inside_bidSteps _ _ _ _ _, rfl⟩

/-- Every trade is atomic, whichever of its statements are refused. -/
theorem trades_atomic (st : Storage) :
    (∀ orderType sellerId itemName quantity price unixExpirationTime,
      Atomic (placeSellOrder st orderType sellerId itemName quantity price unixExpirationTime)) ∧
    (∀ buyerId sellOrderId, Atomic (executeImmediateSellOrder st buyerId sellOrderId)) ∧
    ∀ buyerId sellOrderId bid, Atomic (placeBidOnAuctionSellOrder st buyerId sellOrderId bid) :=
  ⟨placeSellOrder_atomic st, executeImmediateSellOrder_atomic st, placeBidOnAuctionSellOrder_atomic st⟩

end AuctionHouse
