/-
What orders and trades go back to. Every order in the table was asked for by its seller and its
standing bid by the bidder, and every trade in the log by both, on connections that sent their names;
and the order was open in between: no tick came at or after its expiration.
-/
import AuctionHouse.Machine.Past
import AuctionHouse.Server.Receipts
import AuctionHouse.Server.Authority
import AuctionHouse.Store.Sources

namespace AuctionHouse

open Storage Machine

/-! ## Events -/

theorem Event.of_place {e : Event} {orderType : SellOrderType} {sellerId : UserId} {itemName : StringView}
    {quantity price : Int32} {unixExpirationTime : ℤ}
    (h : e.operation = .placeSellOrder orderType sellerId itemName quantity price unixExpirationTime) :
    ∃ unixNow, e = .command sellerId unixNow (.sell orderType itemName quantity price) ∧
      unixExpirationTime = unixNow + Command.orderLifetime := by
  rcases e with _ | ⟨_, unixNow, _ | _ | _ | ⟨_, _ | _⟩⟩ | _
  all_goals cases h
  exact ⟨unixNow, rfl, rfl⟩

/-- The trades that an event enters into the log are of orders in the table. -/
theorem SharedState.next_trades {s s' : SharedState} {event : Event} (hi : Invariant s.storage s.db.toTables)
    (h : s.next event = some s') : ∃ infos : List SellOrderExecutionInfo,
      s'.transactionLog.filter LogEntry.isTrade =
        s.transactionLog.filter LogEntry.isTrade ++ infos.flatMap SellOrderExecutionInfo.entries ∧
      ∀ info ∈ infos, Trades s.db.toTables event.operation info := by
  obtain ⟨d, hb⟩ := booked_of_next hi h
  have he := hb.explains
  obtain ⟨reply, hr, rfl⟩ | ⟨error, -, -, rfl⟩ := next_cases h
  · rw [hr] at he
    obtain ⟨infos, hentries, htrades⟩ := he.trades s.db.valid hi hb.dealt.allowed
    exact ⟨infos, by rw [← hentries]; exact List.filter_append _ _, htrades⟩
  · exact ⟨[], (List.append_nil _).symm, fun _ h => by cases h⟩

/-! ## What users asked for -/

namespace OutputEvent

variable (t : Tables)

/-- A user asks for a command: the request comes on a connection that sent the user's name, and no other. -/
inductive Asks (userId unixNow : ℤ) (command : Command) (before : List OutputEvent) : OutputEvent → Prop
  | request {socket : Socket} {request : Bytes} {u : UserRow} (hu : u ∈ t.users) (hid : u.id = userId)
    (hnames : names socket before = [u.username]) (hp : parseRequest request = .command (.change command)) :
    Asks userId unixNow command before (.request socket unixNow request)

/-- No tick that would settle the order. -/
def Spares (o : SellOrderRow) (e : OutputEvent) : Prop :=
  ∀ unixNow, e = .tick unixNow → unixNow < o.expirationTime

/-- The seller asks for the order, as it is or, where it has a bid, at a lower price. -/
inductive Offers (o : SellOrderRow) (before : List OutputEvent) (e : OutputEvent) : Prop
  | sell {unixNow : ℤ} {orderType : SellOrderType} {r : ItemRow} {quantity price : Int32}
    (h : Asks t o.sellerId unixNow (.sell orderType (some r.name) quantity price) before e) (hr : r ∈ t.items)
    (hitem : r.id = o.itemId) (hquantity : quantity.toInt = o.quantity)
    (hexpires : o.expirationTime = unixNow + Command.orderLifetime)
    (htype : orderType = .immediate ↔ o.buyerId = some o.sellerId)
    (hprice : if hasBid o then price.toInt < o.price else price.toInt = o.price)

/-- The bidder asks for an open order at its price. -/
inductive Bids (o : SellOrderRow) (buyerId : ℤ) (before : List OutputEvent) (e : OutputEvent) : Prop
  | buy {unixNow : ℤ} {sellOrderId bid : Int32} (h : Asks t buyerId unixNow (.buy sellOrderId (some bid)) before e)
    (hid : sellOrderId.toInt = o.id) (hprice : bid.toInt = o.price) (hoffer : Since (Offers t o) (Spares o) before)

/-- The buyer asks for an open immediate order, or a tick finds an order expired that a bidder asked for. -/
inductive Closes (info : SellOrderExecutionInfo) (before : List OutputEvent) : OutputEvent → Prop
  | purchase {e : OutputEvent} {o : SellOrderRow} {unixNow : ℤ}
    (h : Asks t info.buyerId.toInt unixNow (.buy info.id none) before e) (hid : info.id.toInt = o.id)
    (himmediate : o.buyerId = some o.sellerId) (hinfo : Reports (o.setBuyer info.buyerId.toInt o.price) info)
    (hoffer : Since (Offers t o) (Spares o) before) : Closes info before e
  | settlement {o : SellOrderRow} {unixNow : ℤ} (hexpired : o.expirationTime ≤ unixNow) (hinfo : Reports o info)
    (hbid : Since (Bids t o info.buyerId.toInt) (Spares o) before) : Closes info before (.tick unixNow)

/-- An order that its seller asked for, with a bid that its bidder asked for. -/
structure Backed (events : List OutputEvent) (o : SellOrderRow) : Prop where
  offered : Since (Offers t o) (Spares o) events
  bid : ∀ b, o.buyerId = some b → b ≠ o.sellerId → Since (Bids t o b) (Spares o) events

variable {t} {t' : Tables} {before : List OutputEvent} {e : OutputEvent}

/-- Rows of users and items stay. -/
structure Keeps (t t' : Tables) : Prop where
  users : ∀ u ∈ t.users, u ∈ t'.users
  items : ∀ r ∈ t.items, r ∈ t'.items

theorem Asks.mono (hk : Keeps t t') {userId unixNow : ℤ} {command : Command}
    (h : Asks t userId unixNow command before e) : Asks t' userId unixNow command before e := by
  cases h with
  | request hu hid hnames hp => exact .request (hk.users _ hu) hid hnames hp

theorem Offers.mono (hk : Keeps t t') {o : SellOrderRow} (h : Offers t o before e) : Offers t' o before e := by
  cases h with
  | sell h hr hitem hquantity hexpires htype hprice =>
    exact .sell (h.mono hk) (hk.items _ hr) hitem hquantity hexpires htype hprice

theorem Bids.mono (hk : Keeps t t') {o : SellOrderRow} {buyerId : ℤ} (h : Bids t o buyerId before e) :
    Bids t' o buyerId before e := by
  cases h with
  | buy h hid hprice hoffer => exact .buy (h.mono hk) hid hprice (hoffer.imp (fun _ _ h => h.mono hk) fun _ => id)

theorem Closes.mono (hk : Keeps t t') {info : SellOrderExecutionInfo} (h : Closes t info before e) :
    Closes t' info before e := by
  cases h with
  | purchase h hid himmediate hinfo hoffer =>
    exact .purchase (h.mono hk) hid himmediate hinfo (hoffer.imp (fun _ _ h => h.mono hk) fun _ => id)
  | settlement hexpired hinfo hbid =>
    exact .settlement hexpired hinfo (hbid.imp (fun _ _ h => h.mono hk) fun _ => id)

theorem Backed.mono (hk : Keeps t t') {events : List OutputEvent} {o : SellOrderRow} (h : Backed t events o) :
    Backed t' events o :=
  ⟨h.offered.imp (fun _ _ h => h.mono hk) fun _ => id,
    fun b hb hne => (h.bid b hb hne).imp (fun _ _ h => h.mono hk) fun _ => id⟩

/-- An order stays backed by what comes before its tick. -/
theorem Backed.keep {events : List OutputEvent} {o : SellOrderRow} (h : Backed t events o) (he : Spares o e) :
    Backed t (events ++ [e]) o := ⟨h.offered.keep he, fun b hb hne => (h.bid b hb hne).keep he⟩

/-- Whoever asked for an order at its price, or less, asked for less than a higher bid. -/
theorem Offers.raise {o : SellOrderRow} (h : Offers t o before e) (hauction : o.buyerId ≠ some o.sellerId)
    {buyerId bid : ℤ} (hne : buyerId ≠ o.sellerId) (hbid : o.price < bid) :
    Offers t (o.setBuyer buyerId bid) before e := by
  cases h with
  | sell h hr hitem hquantity hexpires htype hprice =>
    refine .sell h hr hitem hquantity hexpires (htype.trans (iff_of_false hauction ?_)) ?_
    · exact fun h => hne (Option.some.inj h)
    · have hhas : hasBid (o.setBuyer buyerId bid) = true := (hasBid_iff _).2 ⟨buyerId, rfl, hne⟩
      rw [if_pos hhas]
      show _ < bid
      split at hprice <;> omega

end OutputEvent

/-! ## Steps -/

namespace Output

open OutputEvent (Asks Spares Offers Bids Closes Backed Keeps names)

variable {s s' : Output} {events : List OutputEvent} {e : OutputEvent}

/-- Every order in the table is backed, and so is every trade in the log. -/
structure Accounted (events : List OutputEvent) (s : Output) : Prop where
  orders : ∀ o ∈ s.state.db.sellOrders, Backed s.state.db.toTables events o
  trades : ∃ infos : List SellOrderExecutionInfo,
    s.state.transactionLog.filter LogEntry.isTrade = infos.flatMap SellOrderExecutionInfo.entries ∧
      ∀ info ∈ infos, Since (Closes s.state.db.toTables info) (fun _ => True) events

theorem Accounted.quiet (h : Accounted events s) (hdb : s'.state.db = s.state.db)
    (hlog : s'.state.transactionLog = s.state.transactionLog) (he : ∀ unixNow, e ≠ .tick unixNow) :
    Accounted (events ++ [e]) s' := by
  refine ⟨fun o ho => ?_, ?_⟩
  · rw [hdb] at ho ⊢
    exact (h.orders o ho).keep fun unixNow hu => absurd hu (he unixNow)
  · obtain ⟨infos, hl, hc⟩ := h.trades
    exact ⟨infos, by rw [hlog, hl], fun info hm => by rw [hdb]; exact (hc info hm).keep trivial⟩

/-- An order in the table after an event is backed by it and the events before. -/
theorem Accounted.backed (h : Accounted events s) {event : Event} {t' : Tables} (hk : Keeps s.state.db.toTables t')
    (hasks : ∀ userId unixNow command, event = .command userId unixNow command →
      Asks t' userId.toInt unixNow command events e)
    (htick : ∀ unixNow, e = .tick unixNow → event = .tick unixNow) {o : SellOrderRow}
    (ho : Source s.state.db.toTables event.operation o) : Backed t' (events ++ [e]) o := by
  have hspares : ∀ {userId : UserId} {unixNow : ℤ} {command : Command},
      event = .command userId unixNow command → ∀ o, Spares o e := by
    rintro userId unixNow command rfl o unixNow' he
    cases htick unixNow' he
  cases ho with
  | stays ho hopen =>
    refine ((h.orders o ho).mono hk).keep fun unixNow he => hopen unixNow ?_
    rw [htick unixNow he]
    rfl
  | raised buyerId sellOrderId bid r hr hop hid hauction hbuyer hprice ho =>
    subst ho
    obtain ⟨unixNow, rfl⟩ := Event.of_bid hop
    have hoffered : Since (Offers t' (r.setBuyer buyerId.toInt bid.toInt)) (Spares r) events :=
      ((h.orders r hr).mono hk).offered.imp (fun _ _ ho => ho.raise hauction hbuyer hprice) fun _ => id
    refine ⟨hoffered.keep (hspares rfl _), fun b hb _ => ?_⟩
    obtain rfl := Option.some.inj hb
    exact .now (.buy (hasks _ _ _ rfl) hid.symm rfl hoffered)
  | placed orderType sellerId r quantity price hr hop hseller hitem hquantity hprice hbuyer =>
    obtain ⟨unixNow, rfl, hexpires⟩ := Event.of_place hop
    have hno : hasBid o = false := by
      rw [← Bool.not_eq_true, hasBid_iff]
      rintro ⟨b, hb, hne⟩
      rw [hbuyer] at hb
      split at hb
      · exact hne (Option.some.inj hb).symm
      · cases hb
    refine ⟨.now (.sell (hseller ▸ hasks _ _ _ rfl) (hk.items r hr) hitem.symm hquantity.symm hexpires ?_ ?_), ?_⟩
    · rw [hbuyer]
      cases orderType with
      | immediate => exact iff_of_true rfl (if_pos rfl)
      | auction => exact iff_of_false (fun h => by cases h) fun h => by cases h
    · rw [hno]
      exact hprice.symm
    · intro b hb hne
      exact absurd ((hasBid_iff o).2 ⟨b, hb, hne⟩) (by rw [hno]; decide)

/-- A trade that an event enters is closed by it. -/
theorem Accounted.closes (h : Accounted events s) {event : Event} {t' : Tables} (hk : Keeps s.state.db.toTables t')
    (hasks : ∀ userId unixNow command, event = .command userId unixNow command →
      Asks t' userId.toInt unixNow command events e)
    (htick : ∀ unixNow, event = .tick unixNow → e = .tick unixNow) {info : SellOrderExecutionInfo}
    (ht : Trades s.state.db.toTables event.operation info) : Closes t' info events e := by
  generalize hop : event.operation = operation at ht
  cases ht with
  | @purchase buyerId sellOrderId o _ ho himmediate hid hinfo =>
    obtain ⟨unixNow, rfl⟩ := Event.of_purchase hop
    obtain rfl : info.id = sellOrderId := by
      rw [hinfo.id, SellOrderRow.id_setBuyer, hid, columnInt_toInt]
    obtain rfl : info.buyerId = buyerId := Int32.toInt_inj.1 (Option.some.inj hinfo.buyer)
    exact .purchase (hasks _ _ _ rfl) hid.symm himmediate hinfo ((h.orders o ho).mono hk).offered
  | @settlement unixNow b o _ ho hexpired hbuyer hne hinfo =>
    obtain rfl := Event.of_settle hop
    rw [htick unixNow rfl]
    obtain rfl : info.buyerId.toInt = b := Option.some.inj (hinfo.buyer.trans hbuyer)
    exact .settlement hexpired hinfo (((h.orders o ho).mono hk).bid _ hbuyer hne)

theorem Accounted.event (h : Accounted events s) (hi : Invariant s.state.storage s.state.db.toTables) {event : Event}
    (hn : s.state.next event = some s'.state) (hk : Keeps s.state.db.toTables s'.state.db.toTables)
    (hasks : ∀ userId unixNow command, event = .command userId unixNow command →
      Asks s'.state.db.toTables userId.toInt unixNow command events e)
    (htick : ∀ unixNow, event = .tick unixNow ↔ e = .tick unixNow) : Accounted (events ++ [e]) s' := by
  refine ⟨fun o ho => ?_, ?_⟩
  · rw [SharedState.next_db hn] at ho
    exact h.backed hk hasks (fun unixNow => (htick unixNow).2) (Call.source hi event.operation ho)
  · obtain ⟨infos, hl, hc⟩ := h.trades
    obtain ⟨more, hl', ht⟩ := SharedState.next_trades hi hn
    refine ⟨infos ++ more, by rw [hl', hl, List.flatMap_append], fun info hm => ?_⟩
    rcases List.mem_append.1 hm with hm | hm
    · exact ((hc info hm).imp (fun _ _ hc => hc.mono hk) fun _ => id).keep trivial
    · exact .now (h.closes hk hasks (fun unixNow => (htick unixNow).1) (ht info hm))

theorem step_keeps (hi : Invariant s.state.storage s.state.db.toTables) (h : s.step e = some s') :
    Keeps s.state.db.toTables s'.state.db.toTables := by
  refine ⟨fun u hu => ?_, step_items hi h⟩
  rcases step_causes h with ⟨hsame, -⟩ | ⟨e', -, hs⟩
  · rw [hsame]
    exact hu
  · obtain ⟨d, hacts⟩ := Server.step_acts hi hs
    exact hacts.users.mem hu

/-- A step keeps orders and trades accounted for. -/
theorem Accounted.step (h : Accounted events s) (ha : Authentic events s) (hs : s.step e = some s') :
    Accounted (events ++ [e]) s' := by
  have hi : Invariant s.state.storage s.state.db.toTables := ha.storage ▸ ha.invariant
  have hk := step_keeps hi hs
  by_cases htick : ∃ unixNow, e = .tick unixNow
  · obtain ⟨unixNow, rfl⟩ := htick
    obtain ⟨server, hserver, rfl⟩ := onServer_some.1 hs
    obtain ⟨state, hn, rfl⟩ := Option.map_eq_some_iff.1 hserver
    refine h.event hi hn hk (by rintro _ _ _ ⟨⟩) fun unixNow' => ⟨?_, ?_⟩
    · rintro ⟨⟩
      rfl
    · rintro ⟨⟩
      rfl
  push Not at htick
  rcases step_causes hs with ⟨hsame, -⟩ | ⟨e', hcauses, hstep⟩
  · exact h.quiet (by rw [hsame]) (by rw [hsame]) htick
  cases Server.step_moves hstep with
  | login hn =>
    exact h.event hi hn hk (by rintro _ _ _ ⟨⟩) fun unixNow => iff_of_false (by rintro ⟨⟩) (htick unixNow)
  | @request socket unixNow command user hu hn =>
    cases hcauses with
    | request hp =>
      -- the name of the connection is that of the user in whose name the command is executed
      obtain ⟨hnames, u, hm, hname, hid⟩ := ha.user socket _ user hu rfl
      refine h.event hi hn hk ?_ fun unixNow' => iff_of_false (by rintro ⟨⟩) (htick unixNow')
      rintro _ _ _ ⟨⟩
      exact .request (hk.users u hm) hid (hname ▸ hnames) hp
  | tick hn =>
    cases hcauses
    exact absurd rfl (htick _)
  | notify _ hb => exact h.quiet hb.db hb.log htick
  | quiet _ _ hb => exact h.quiet hb.db hb.log htick

theorem run_accounted {events : List OutputEvent} {s : Output}
    (h : Machine.run step (started Storage.initial Database.initial) events = some s) : Accounted events s := by
  refine run_past (P := Accounted) ⟨(fun _ ho => by cases ho), [], rfl, fun _ hm => by cases hm⟩ ?_ h
  intro events s e s' hs ha h
  exact ha.step (run_authentic hs) h

/-- Whatever comes in, every order in the table was asked for by its seller five minutes before it
expires, and its standing bid by the bidder while it was open; and the trades in the log are each of an
order that its seller asked for, and closed by the buyer's request, or by a tick at or after its
expiration for the last bid. All of them asked on connections that sent their names and no others. -/
theorem accounted (events : List OutputEvent) {s : Output}
    (h : Machine.run step (started Storage.initial Database.initial) events = some s) : Accounted events s :=
  run_accounted h

theorem accounted_bid : ∃ s, Machine.run step (started Storage.initial Database.initial) bidRun = some s ∧
    s.state.transactionLog.filter LogEntry.isTrade = [⟨1, .sold 2 1 25 1⟩, ⟨2, .bought 2 1 25 1⟩] ∧
    Accounted bidRun s := by
  have hrun : (Machine.run step (started Storage.initial Database.initial) bidRun).map
      (fun s => s.state.transactionLog.filter LogEntry.isTrade) = some [⟨1, .sold 2 1 25 1⟩, ⟨2, .bought 2 1 25 1⟩] := by
    decide +kernel
  obtain ⟨s, hs, hlog⟩ := Option.map_eq_some_iff.1 hrun
  exact ⟨s, hs, hlog, accounted bidRun hs⟩

end Output

end AuctionHouse
