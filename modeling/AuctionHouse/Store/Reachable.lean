/-
Every operation is a deal, and so is every run: from the empty database, whatever operations are
called in whatever order and whichever of their statements are refused, the tables satisfy the
invariant, and what an operation replies says which deal it made.
-/
import AuctionHouse.Store.Deals
import AuctionHouse.Store.Statements

namespace AuctionHouse

open Storage AuctionService

/-! ## Operations that change no holding and no order -/

/-- The market is the same, and the invariant is kept. -/
structure Unchanged (st : Storage) (t t' : Tables) : Prop where
  market : t'.market = t.market
  invariant : Invariant st t → Invariant st t'

namespace Unchanged

variable {st : Storage} {t t' t'' : Tables}

theorem refl (t : Tables) : Unchanged st t t := ⟨rfl, id⟩

theorem trans (h : Unchanged st t t') (h' : Unchanged st t' t'') : Unchanged st t t'' :=
  ⟨h'.market.trans h.market, fun hi => h'.invariant (h.invariant hi)⟩

/-- New users and items. -/
theorem of_insert (st : Storage) (t : Tables) (users : List UserRow) (items : List ItemRow) :
    Unchanged st t { t with users := t.users ++ users, items := t.items ++ items } :=
  ⟨rfl, fun hi => ⟨List.mem_append_left _ hi.funds, hi.items, hi.quantities, hi.prices, hi.issued⟩⟩

theorem of_moved (h : Moved t t' fun _ _ => 0) : Unchanged st t t' := by
  refine ⟨?_, h.invariant⟩
  unfold Tables.market
  rw [h.sellOrders, h.sellOrdersSeq]
  congr 1
  funext v j
  rw [h.balance, Int.add_zero]

theorem dealt {d : Deal ℤ ℤ} (h : Unchanged st t t') (h' : Dealt st t' t'' d) : Dealt st t t'' d :=
  ⟨h.market ▸ h'.allowed, h.market ▸ h'.market, h'.invariant⟩

theorem nothing (h : Unchanged st t t') (hi : Invariant st t) : Dealt st t t' .nothing := by
  refine ⟨trivial, ?_, h.invariant hi⟩
  rw [h.market]
  unfold Market.apply
  simp only [Market.delta, Market.bookAfter, Market.issuedAfter, Int.add_zero]

end Unchanged

abbrev KeepsMarket (st : Storage) {α : Type} (x : Exec α) : Prop :=
  Sql.Keeps (fun a b : Database => Unchanged st a.toTables b.toTables) x

section
variable (st : Storage)

theorem steady_unchanged : Steady (Unchanged st) := ⟨Unchanged.refl, fun _ _ _ h h' => h.trans h'⟩

theorem keeps_createUser (username : StringView) : KeepsMarket st (createUser username) := by
  refine keeps_executeWith Unchanged.refl fun t a t' h => ?_
  rcases username with _ | name
  · cases h
  · cases h
    have := Unchanged.of_insert st t [⟨newRowId (t.users.map (·.id)), name⟩] []
    rwa [List.append_nil] at this

theorem keeps_createItem (itemName : StringView) : KeepsMarket st (createItem itemName) := by
  refine keeps_executeWith Unchanged.refl fun t a t' h => ?_
  rcases itemName with _ | name
  · cases h
  · cases h
    have := Unchanged.of_insert st t [] [⟨newRowId (t.items.map (·.id)), name⟩]
    rwa [List.append_nil] at this

theorem keeps_addNothing (userId : UserId) (itemId : Int32) : KeepsMarket st (addUserItem userId itemId 0) := by
  intro c
  rcases h : addUserItem userId itemId 0 c with ⟨⟨⟩, c'⟩ | ⟨e, c'⟩
  · obtain ⟨-, -, hs⟩ := addUserItem_ok h
    refine .inl ⟨hs, Unchanged.of_moved ((moved_addUserItem h).2.congr fun v j => ?_)⟩
    show give _ _ 0 v j = 0
    unfold give; split <;> rfl
  · exact (executeWith_error h).imp fun _ _ hdb => hdb ▸ Unchanged.refl _

theorem keeps_login (username : StringView) : KeepsMarket st (UserService.login st username) :=
  (steady_unchanged st).does_login (keeps_createUser st username) fun userId => keeps_addNothing st userId _

end

/-! ## What an operation did, by its reply -/

/-- The deal behind a reply, with what was compared as an `int` before it was made. A failed
operation made none, except that a settlement may report an error for orders it has settled. -/
inductive Explains (st : Storage) (t : Tables) : Operation → Except Error Reply → Deal ℤ ℤ → Prop
  | login {username : StringView} {user : User} :
    Explains st t (.login username) (.ok (.user user)) .nothing
  | failed {operation : Operation} {e : Error} : Explains st t operation (.error e) .nothing
  | unreported {unixNow : ℤ} {e : Error} :
    Explains st t (.processExpiredSellOrders unixNow) (.error e) (.settle unixNow)
  | deposit {userId : UserId} {itemName : StringView} {quantity itemId : Int32} :
    Explains st t (.deposit userId itemName quantity) (.ok (.item ⟨itemId, quantity⟩))
      (.deposit userId.toInt itemId.toInt quantity.toInt)
  | withdraw {userId : UserId} {itemName : StringView} {quantity itemId : Int32} {x : ℤ}
    (hitem : ∃ r ∈ t.items, some r.name = itemName ∧ itemId.toInt = r.id)
    (hx : t.inventory (userId.toInt, itemId.toInt) = some x) (hread : quantity ≤ columnInt x) :
    Explains st t (.withdraw userId itemName quantity) (.ok (.item ⟨itemId, quantity⟩))
      (.withdraw userId.toInt itemId.toInt quantity.toInt (spoiled st itemId quantity x))
  | place {orderType : SellOrderType} {sellerId : UserId} {itemName : StringView} {quantity price itemId : Int32}
    {unixExpirationTime x : ℤ} (hname : itemName ≠ some fundsItemName)
    (hitem : ∃ r ∈ t.items, some r.name = itemName ∧ itemId.toInt = r.id)
    (hx : t.inventory (sellerId.toInt, itemId.toInt) = some x) (hread : quantity ≤ columnInt x)
    (hfee : sellOrderFee price ≤ columnInt (t.balance sellerId.toInt st.fundsItemId.toInt)) :
    Explains st t (.placeSellOrder orderType sellerId itemName quantity price unixExpirationTime)
      (.ok (.item ⟨st.fundsItemId, sellOrderFee price⟩))
      (.place (placedOrder t orderType sellerId itemId quantity price unixExpirationTime) (sellOrderFee price).toInt
        (spoiled st itemId quantity x))
  | purchase {buyerId : UserId} {sellOrderId : Int32} {o : SellOrderRow} (ho : o ∈ t.sellOrders)
    (hid : o.id = sellOrderId.toInt)
    (hread : columnInt o.price ≤ columnInt (t.balance buyerId.toInt st.fundsItemId.toInt)) :
    Explains st t (.executeImmediateSellOrder buyerId sellOrderId)
      (.ok (.executed { executionInfo o with id := sellOrderId, buyerId })) (.purchase buyerId.toInt o.order)
  | bid {buyerId : UserId} {sellOrderId bid : Int32} {o : SellOrderRow} (ho : o ∈ t.sellOrders)
    (hid : o.id = sellOrderId.toInt)
    (hread : bid ≤ columnInt (t.balance buyerId.toInt st.fundsItemId.toInt +
      refund st.fundsItemId.toInt o.order buyerId.toInt st.fundsItemId.toInt)) :
    Explains st t (.placeBidOnAuctionSellOrder buyerId sellOrderId bid) (.ok .bid)
      (.bid buyerId.toInt o.order bid.toInt)
  | settle {unixNow : ℤ} :
    Explains st t (.processExpiredSellOrders unixNow) (.ok (.settled (executedAuctionOrders unixNow t)))
      (.settle unixNow)

/-- The operation ended outside any transaction, and a deal explains its reply and the tables it left. -/
def Explained (st : Storage) (operation : Operation) (t : Tables) (reply : Except Error Reply)
    (c' : Connection) : Prop :=
  c'.saved = none ∧ ∃ d, Explains st t operation reply d ∧ Dealt st t c'.db.toTables d

section
variable {st : Storage} {c : Connection} (hc : c.saved = none) (hi : Invariant st c.db.toTables)
include hc hi

omit hc in
theorem Explained.unchanged {operation : Operation} {e : Error} {c' : Connection} (hs : c'.saved = none)
    (h : Unchanged st c.db.toTables c'.db.toTables) : Explained st operation c.db.toTables (.error e) c' :=
  ⟨hs, .nothing, .failed, h.nothing hi⟩

omit hc in
theorem Explained.failed {operation : Operation} {e : Error} {c' : Connection} (hs : c'.saved = none)
    (hdb : c'.db = c.db) : Explained st operation c.db.toTables (.error e) c' :=
  Explained.unchanged hi hs (by rw [hdb]; exact Unchanged.refl _)

theorem login_explained (username : StringView) :
    let r := UserService.login st username c
    Explained st (.login username) c.db.toTables ((Sql.outcome r).map .user) (Sql.after r) := by
  intro r
  obtain ⟨hs, hk⟩ := (keeps_login st username c).idle hc
  change (Sql.after r).saved = none at hs
  change Unchanged st c.db.toTables (Sql.after r).db.toTables at hk
  rcases hr : r with ⟨user, c'⟩ | ⟨e, c'⟩
  · rw [hr] at hs hk
    exact ⟨hs, .nothing, .login, hk.nothing hi⟩
  · rw [hr] at hs hk
    exact Explained.unchanged hi hs hk

theorem deposit_explained (userId : UserId) (itemName : StringView) (quantity : Int32) :
    let r := AuctionService.deposit userId itemName quantity c
    Explained st (.deposit userId itemName quantity) c.db.toTables ((Sql.outcome r).map .item) (Sql.after r) := by
  intro r
  have hs : (Sql.after r).saved = none :=
    (((anything_statementWise st).does_deposit userId itemName quantity c).idle hc).1
  have hitem : KeepsMarket st (Sql.orElse (getItemId itemName) (createItem itemName)) :=
    Sql.Keeps.orElse ((steady_unchanged st).transitive) (keeps_query Unchanged.refl _) (keeps_createItem st itemName)
  have hk := (hitem c).idle hc
  rcases hr : r with ⟨info, c'⟩ | ⟨e, c'⟩
  all_goals rw [hr] at hs; replace hr : AuctionService.deposit userId itemName quantity c = _ := hr
  all_goals rw [deposit_eq, Sql.ite_apply] at hr; split at hr
  · cases hr
  · obtain ⟨itemId, c₁, h1, hr⟩ := Sql.bind_ok_iff.1 hr
    obtain ⟨⟨⟩, c₂, h2, hr⟩ := Sql.bind_ok_iff.1 hr
    cases hr
    rw [h1] at hk
    obtain ⟨hq, hm⟩ := moved_addUserItem h2
    exact ⟨hs, _, .deposit, hk.2.dealt (Dealt.of_moved (hk.2.invariant hi) hm hq rfl rfl)⟩
  · cases hr
    exact Explained.failed hi hc rfl
  · refine Explained.unchanged hi hs ?_
    rcases Sql.bind_error_iff.1 hr with h1 | ⟨itemId, c₁, h1, hr⟩
    · rw [h1] at hk; exact hk.2
    · rw [h1] at hk
      rcases Sql.bind_error_iff.1 hr with h2 | ⟨⟨⟩, c₂, -, hr⟩
      · obtain ⟨-, hdb⟩ := (executeWith_error h2).idle hk.1
        show Unchanged st c.db.toTables c'.db.toTables
        rw [← hdb]
        exact hk.2
      · cases hr

theorem withdraw_explained (userId : UserId) (itemName : StringView) (quantity : Int32) :
    let r := AuctionService.withdraw st userId itemName quantity c
    Explained st (.withdraw userId itemName quantity) c.db.toTables ((Sql.outcome r).map .item) (Sql.after r) := by
  intro r
  have hany := anything_statementWise st
  have hs : (Sql.after r).saved = none :=
    ((hany.steady.does_withdraw (fun itemId => hany.does_subUserItem userId itemId quantity) c).idle hc).1
  rcases hr : r with ⟨info, c'⟩ | ⟨e, c'⟩
  all_goals rw [hr] at hs; replace hr : AuctionService.withdraw st userId itemName quantity c = _ := hr
  all_goals rw [withdraw_eq, Sql.ite_apply] at hr; split at hr
  · cases hr
  · rename_i hneg
    obtain ⟨itemId, c₁, h1, hr⟩ := Sql.bind_ok_iff.1 (Sql.mapError_ok_iff.1 hr)
    obtain ⟨⟨⟩, c₂, h2, hr⟩ := Sql.bind_ok_iff.1 hr
    cases hr
    obtain ⟨hdb, hitem⟩ := getItemId_ok h1
    obtain ⟨x, hx, hread, hq, hm⟩ := moved_subUserItem h2
    rw [hdb] at hx hm
    have hq0 : 0 ≤ quantity.toInt := by simpa [Int32.lt_iff_toInt_lt] using hneg
    refine ⟨hs, _, .withdraw hitem hx hread,
      Dealt.of_moved hi hm ⟨hq0, spoiled_nonneg st _ _ hq, fun he => ?_, ?_⟩ rfl rfl⟩
    · rw [Int32.toInt_inj.1 he, spoiled_funds]
    · show _ ≤ c.db.balance _ _
      rw [Tables.balance_of_inventory hx]
      exact add_spoiled_le st _ _ hq
  · cases hr
    exact Explained.failed hi hc rfl
  · refine Explained.unchanged hi hs ?_
    obtain ⟨e', hr⟩ := Sql.mapError_error hr
    have hdb : c.db = c'.db := by
      rcases Sql.bind_error_iff.1 hr with h1 | ⟨itemId, c₁, h1, hr⟩
      · exact ((query_error h1).idle hc).2
      · obtain ⟨-, hdb, hs₁⟩ := query_ok h1
        rcases Sql.bind_error_iff.1 hr with h2 | ⟨⟨⟩, c₂, -, hr⟩
        · exact ((subUserItem_error h2).of_pop hdb hs₁ |>.idle hc).2
        · cases hr
    show Unchanged st c.db.toTables c'.db.toTables
    rw [← hdb]
    exact Unchanged.refl _

theorem transaction_explained {α β : Type} {operation : Operation} {steps : Exec α}
    (hx : ∀ c₁, c₁.faults = c.faults.tail → Sql.InsideAt steps c₁) {result : α → Except Error β} {reply : β → Reply}
    (h : ∀ a c₁ c₂, c₁.db = c.db → c₁.faults = c.faults.tail → steps c₁ = .ok a c₂ →
      ∃ d, Explains st c.db.toTables operation ((result a).map reply) d ∧ Dealt st c.db.toTables c₂.db.toTables d) :
    let r := transaction steps result c
    Explained st operation c.db.toTables ((Sql.outcome r).map reply) (Sql.after r) := by
  obtain ⟨hs, ⟨e, he, hdb⟩ | ⟨a, c₁, c₂, h1, hfaults, ha, ho, hdb⟩⟩ := transaction_spec result hx hc
  · show Explained st operation c.db.toTables ((Sql.outcome (transaction steps result c)).map reply) _
    rw [he]
    exact Explained.failed hi hs hdb
  · obtain ⟨d, hd, ht⟩ := h a c₁ c₂ h1 hfaults ha
    refine ⟨hs, d, ?_, ?_⟩
    · rw [ho]; exact hd
    · rw [hdb]; exact ht

theorem placeSellOrder_explained (orderType : SellOrderType) (sellerId : UserId) (itemName : StringView)
    (quantity price : Int32) (unixExpirationTime : ℤ) :
    let r := AuctionService.placeSellOrder st orderType sellerId itemName quantity price unixExpirationTime c
    Explained st (.placeSellOrder orderType sellerId itemName quantity price unixExpirationTime) c.db.toTables
      ((Sql.outcome r).map .item) (Sql.after r) := by
  simp only [placeSellOrder_eq, Sql.ite_apply]
  split
  · exact Explained.failed hi hc rfl
  split
  · exact Explained.failed hi hc rfl
  split
  · exact Explained.failed hi hc rfl
  · rename_i hname
    refine transaction_explained hc hi (fun c₁ _ => inside_placeSteps _ _ _ _ _ _ _ c₁) fun ⟨⟩ c₁ c₂ hdb _ hsteps => ?_
    rw [← hdb] at hi ⊢
    obtain ⟨itemId, x, hitem, hx, hread, hfee, hd⟩ := placeSteps_ok hi hname hsteps
    exact ⟨_, .place hname hitem hx hread hfee, hd⟩

omit hi in
theorem getSellOrderInfo_ok {sellOrderId : Int32} {c' : Connection} {info : Option SellOrderInnerInfo}
    (h : getSellOrderInfo sellOrderId c = .ok info c') :
    c'.db = c.db ∧ c'.saved = none ∧
      ∀ order, info = some order → ∃ o ∈ c.db.sellOrders, o.id = sellOrderId.toInt ∧ order = innerInfo o := by
  unfold getSellOrderInfo at h
  rw [Sql.bind_apply, Sql.attempt_apply] at h
  cases h
  obtain ⟨hdb, hs⟩ := query_after (selectSellOrder sellOrderId.toInt) hc
  refine ⟨hdb, hs, fun order ho => ?_⟩
  rcases hq : query (selectSellOrder sellOrderId.toInt) c with ⟨x, c₁⟩ | ⟨e, c₁⟩
  · rw [hq] at ho
    cases ho
    obtain ⟨hf, -, -⟩ := query_ok hq
    unfold selectSellOrder at hf
    split at hf
    · rename_i o ho
      cases hf
      obtain ⟨hm, hid⟩ := Sql.find_some _ ho
      exact ⟨o, hm, hid, rfl⟩
    · cases hf
  · rw [hq] at ho; cases ho

omit hi in
/-- An operation that reads an order and then works on what it read. -/
theorem order_explained {α : Type} {operation : Operation} {reply : α → Reply} (sellOrderId : Int32)
    {k : Option SellOrderInnerInfo → Exec α}
    (h : ∀ c' info, c'.saved = none → c'.db = c.db →
      (∀ order, info = some order → ∃ o ∈ c.db.sellOrders, o.id = sellOrderId.toInt ∧ order = innerInfo o) →
      Explained st operation c'.db.toTables ((Sql.outcome (k info c')).map reply) (Sql.after (k info c'))) :
    let r := (getSellOrderInfo sellOrderId >>= k) c
    Explained st operation c.db.toTables ((Sql.outcome r).map reply) (Sql.after r) := by
  obtain ⟨info, c', h1, -, -⟩ := getSellOrderInfo_after sellOrderId hc
  obtain ⟨hdb, hs, ho⟩ := getSellOrderInfo_ok hc h1
  have := h c' info hs hdb ho
  rw [hdb] at this
  simp only [Sql.bind_of_ok h1]
  exact this

theorem executeImmediateSellOrder_explained (buyerId : UserId) (sellOrderId : Int32) :
    let r := AuctionService.executeImmediateSellOrder st buyerId sellOrderId c
    Explained st (.executeImmediateSellOrder buyerId sellOrderId) c.db.toTables ((Sql.outcome r).map .executed)
      (Sql.after r) := by
  rw [executeImmediateSellOrder_eq]
  refine order_explained hc sellOrderId fun c' info hs hdb hinfo => ?_
  rw [← hdb] at hi hinfo
  rcases info with _ | order
  · exact Explained.failed hi hs rfl
  obtain ⟨o, ho, hid, rfl⟩ := hinfo order rfl
  simp only [Sql.ite_apply]
  split
  · exact Explained.failed hi hs rfl
  split
  · exact Explained.failed hi hs rfl
  · rename_i htype hne
    refine transaction_explained hs hi (fun c₁ _ => inside_executeSteps _ _ _ _ c₁) fun ⟨⟩ c₁ c₂ h1 _ hsteps => ?_
    rw [← h1] at hi ho ⊢
    obtain ⟨hread, hd⟩ := executeSteps_ok hi ho hid (not_not.1 htype) hne hsteps
    exact ⟨_, .purchase ho hid hread, hd⟩

theorem placeBidOnAuctionSellOrder_explained (buyerId : UserId) (sellOrderId bid : Int32) :
    let r := AuctionService.placeBidOnAuctionSellOrder st buyerId sellOrderId bid c
    Explained st (.placeBidOnAuctionSellOrder buyerId sellOrderId bid) c.db.toTables
      ((Sql.outcome r).map fun _ => .bid) (Sql.after r) := by
  rw [placeBidOnAuctionSellOrder_eq]
  refine order_explained hc sellOrderId fun c' info hs hdb hinfo => ?_
  rw [← hdb] at hi hinfo
  rcases info with _ | order
  · exact Explained.failed hi hs rfl
  obtain ⟨o, ho, hid, rfl⟩ := hinfo order rfl
  simp only [Sql.ite_apply]
  split
  · exact Explained.failed hi hs rfl
  split
  · exact Explained.failed hi hs rfl
  split
  · exact Explained.failed hi hs rfl
  · rename_i htype hne hbid
    refine transaction_explained hs hi (fun c₁ _ => inside_bidSteps _ _ _ _ _ c₁) fun ⟨⟩ c₁ c₂ h1 _ hsteps => ?_
    rw [← h1] at hi ho ⊢
    obtain ⟨hread, hd⟩ := bidSteps_ok hi ho hid (not_not.1 htype) hne hbid hsteps
    exact ⟨_, .bid ho hid hread, hd⟩

theorem processExpiredSellOrders_explained (unixNow : ℤ) (hheld : Sql.Held c.faults.tail) :
    let r := Storage.processExpiredSellOrders st unixNow c
    Explained st (.processExpiredSellOrders unixNow) c.db.toTables ((Sql.outcome r).map .settled) (Sql.after r) := by
  show Explained st _ _ ((Sql.outcome (transaction (settle st unixNow) id c)).map .settled)
    (Sql.after (transaction (settle st unixNow) id c))
  refine transaction_explained hc hi (fun c₁ hfaults => insideAt_settle st unixNow (hfaults ▸ hheld))
    fun executed c₁ c₂ h1 hfaults hsteps => ?_
  rw [← h1] at hi ⊢
  -- the settlement was made also when its query was refused
  obtain ⟨he, ht⟩ := settle_ok (hfaults ▸ hheld) hsteps
  have hd := settle_dealt c₁.db.valid hi ht
  rcases he with rfl | ⟨e, rfl⟩
  · exact ⟨_, .settle, hd⟩
  · exact ⟨_, .unreported, hd⟩

/-- Every operation is explained, whichever of its statements are refused, unless a settlement is rolled
back at its query. -/
theorem exec_explained (operation : Operation) (hquery : ¬ operation.RolledBackAtQuery c.faults) :
    let r := operation.exec st c
    Explained st operation c.db.toTables (Sql.outcome r) (Sql.after r) := by
  cases operation <;> simp only [Operation.exec, Sql.outcome_map, Sql.after_map]
  case login username => exact login_explained hc hi username
  case deposit userId itemName quantity => exact deposit_explained hc hi userId itemName quantity
  case withdraw userId itemName quantity => exact withdraw_explained hc hi userId itemName quantity
  case placeSellOrder orderType sellerId itemName quantity price unixExpirationTime =>
    exact placeSellOrder_explained hc hi orderType sellerId itemName quantity price unixExpirationTime
  case executeImmediateSellOrder buyerId sellOrderId =>
    exact executeImmediateSellOrder_explained hc hi buyerId sellOrderId
  case placeBidOnAuctionSellOrder buyerId sellOrderId bid =>
    exact placeBidOnAuctionSellOrder_explained hc hi buyerId sellOrderId bid
  case processExpiredSellOrders unixNow =>
    exact processExpiredSellOrders_explained hc hi unixNow (by_contra fun h => hquery ⟨⟨unixNow, rfl⟩, h⟩)

end

/-! ## Runs -/

namespace Call

variable {st : Storage} {db : Database}

/-- Every call is a deal. -/
theorem next_dealt (hi : Invariant st db.toTables) (call : Call) :
    ∃ d, Explains st db.toTables call.operation (call.reply st db) d ∧
      Dealt st db.toTables (call.next st db).toTables d :=
  (exec_explained (c := Sql.Connection.idle db call.answers) rfl hi call.operation call.not_rolledBackAtQuery).2

/-- Every call ends outside any transaction, so the next one starts on an idle connection again. -/
theorem closed (hi : Invariant st db.toTables) (call : Call) :
    (Sql.after (call.operation.exec st (Sql.Connection.idle db call.answers))).saved = none :=
  (exec_explained (c := Sql.Connection.idle db call.answers) rfl hi call.operation call.not_rolledBackAtQuery).1

theorem invariant_next (hi : Invariant st db.toTables) (call : Call) : Invariant st (call.next st db).toTables := by
  obtain ⟨d, -, hd⟩ := next_dealt hi call
  exact hd.invariant

theorem invariant_run : ∀ (calls : List Call) {db : Database}, Invariant st db.toTables →
    Invariant st (run st db calls).toTables
  | [], _, hi => hi
  | call :: calls, _, hi => invariant_run calls (invariant_next hi call)

end Call

theorem initial_invariant : Invariant Storage.initial Database.initial.toTables :=
  ⟨List.mem_singleton.2 rfl, by simp [Database.initial], by simp [Database.initial], by simp [Database.initial],
    by simp [Database.initial]⟩

/-- The database after any calls from the empty one. -/
def reached (calls : List Call) : Database := Call.run Storage.initial Database.initial calls

theorem reached_invariant (calls : List Call) : Invariant Storage.initial (reached calls).toTables :=
  Call.invariant_run calls initial_invariant

theorem reached_concat (calls : List Call) (call : Call) :
    reached (calls ++ [call]) = call.next Storage.initial (reached calls) := Call.run_append ..

end AuctionHouse
