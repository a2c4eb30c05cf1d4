/-
What is reported of executed orders. An order leaves the book with a buyer on two paths, by a
purchase and by the settlement of an auction with a bid; on both its seller is notified and the
log gets its two entries, once, and nothing else is notified or logged as a trade.
-/
import AuctionHouse.Market.LifeCycle
import AuctionHouse.Store.Ledger

namespace AuctionHouse

open Storage

/-! ## Sales -/

/-- An order that left the book, and who bought it. What the buyer paid is the price it left with. -/
structure Sold where
  order : Order ℤ ℤ
  buyer : ℤ

/-- Who buys an order that leaves the book at an event: the one who purchases it, or the bidder it has. -/
def Event.buyer (e : Event) (o : Order ℤ ℤ) : Option ℤ :=
  match e with
  | .command userId _ (.buy _ none) => some userId.toInt
  | _ => o.bidder

/-- By expiration time, and by id where that is the same. -/
def Sold.inIndexOrder (x y : Sold) : Prop :=
  x.order.expires < y.order.expires ∨ x.order.expires = y.order.expires ∧ x.order.id ≤ y.order.id

instance : DecidableRel Sold.inIndexOrder := fun _ _ => inferInstanceAs (Decidable (_ ∨ _))

/-- The orders that left the book with a buyer. -/
def sales (e : Event) (m m' : Market ℤ ℤ) : List Sold :=
  ((m.left m').filterMap fun o => (e.buyer o).map (Sold.mk o)).insertionSort Sold.inIndexOrder

/-- The notification and the entries are about the sale: its seller, its buyer, its id, item,
quantity and price. -/
structure Sold.ReportedAs (x : Sold) (info : SellOrderExecutionInfo) : Prop where
  id : info.id.toInt = x.order.id
  seller : info.sellerId.toInt = x.order.seller
  buyer : info.buyerId.toInt = x.buyer
  item : info.itemId.toInt = x.order.item
  quantity : info.quantity.toInt = x.order.quantity
  price : info.price.toInt = x.order.price

def LogMessage.isTrade : LogMessage → Bool
  | .item .. => false
  | .sold .. => true
  | .bought .. => true

/-- The entries of the log about trades. -/
def TransactionLog.trades (l : TransactionLog) : List LogEntry := l.filter fun e => e.message.isTrade

/-! ## Runs with notifications handed out -/

/-- The server, the notifications that were handed out, and the sales there were. -/
structure Watched where
  state : SharedState
  handedOut : List (UserId × ExecutedSellOrder) := []
  sold : List Sold := []

/-- An event of the server, or a `pop` by `notify_users`. -/
inductive Activity where
  | event (event : Event)
  | pop

namespace Watched

def initial : Watched := { state := SharedState.initial }

/-- None after undefined behaviour. -/
def next (w : Watched) : Activity → Option Watched
  | .event e => (w.state.next e).map fun state =>
    { w with state, sold := w.sold ++ sales e w.state.db.market state.db.market }
  | .pop =>
    match NotificationService.pop w.state.notifications with
    | some (notification, rest) =>
      some { w with state.notifications := rest, handedOut := w.handedOut ++ [notification] }
    -- `notify_users` pops only when the queue is not empty
    | none => some w

end Watched

/-! ## One event -/

/-- What an event adds: a notification and two entries for each of its sales, in their order. -/
structure Reported (s : SharedState) (e : Event) (s' : SharedState) (infos : List SellOrderExecutionInfo) : Prop where
  sales : List.Forall₂ Sold.ReportedAs (sales e s.db.market s'.db.market) infos
  notifications : s'.notifications = s.notifications ++ infos.map (·.notification)
  trades : s'.transactionLog.trades = s.transactionLog.trades ++ infos.flatMap (·.entries)

theorem trades_append (l : TransactionLog) (entries : List LogEntry) :
    (l ++ entries : TransactionLog).trades = l.trades ++ TransactionLog.trades entries := List.filter_append ..

theorem trades_flatMap : ∀ infos : List SellOrderExecutionInfo,
    TransactionLog.trades (infos.flatMap (·.entries)) = infos.flatMap (·.entries)
  | [] => rfl
  | info :: infos => by
    have ih := trades_flatMap infos
    rw [List.flatMap_cons, trades_append, ih]
    rfl

section
variable {st : Storage} {t : Tables} (hv : t.Valid) (hi : Invariant st t)
include hv hi

/-- The list of a settlement reports the sales among the orders that are due. -/
theorem settled_reported (hpos : ∀ o ∈ t.sellOrders, 1 ≤ o.id) (hseq : t.sellOrdersSeq ≤ intMax) (unixNow : ℤ) :
    List.Forall₂ Sold.ReportedAs
      (((t.market.due unixNow).filterMap fun o => o.bidder.map (Sold.mk o)).insertionSort Sold.inIndexOrder)
      (executedAuctionOrders unixNow t) := by
  have hsales : (t.market.due unixNow).filterMap (fun o => o.bidder.map (Sold.mk o)) =
      ((expired unixNow t).filter hasBid).map fun o => ⟨o.order, o.buyerId.getD 0⟩ := by
    rw [due_market, List.filterMap_map, ← List.filterMap_eq_map, ← List.filterMap_eq_filter, List.filterMap_filterMap]
    refine List.filterMap_congr fun o _ => ?_
    simp only [Function.comp_apply, SellOrderRow.bidder_order]
    rcases hb : hasBid o
    · simp [hb, Option.guard]
    · obtain ⟨b, hb', -⟩ := (hasBid_iff o).1 hb
      simp [hb, hb', Option.guard]
  rw [hsales, ← List.map_insertionSort inIndexOrder Sold.inIndexOrder _ _ fun _ _ _ _ => Iff.rfl]
  refine List.forall₂_map_left_iff.2 (List.forall₂_map_right_iff.2 (List.forall₂_same.2 fun o ho => ?_))
  obtain ⟨hm, -, hb⟩ := mem_executedAuctions.1 ho
  obtain ⟨b, hb', -⟩ := (hasBid_iff o).1 hb
  have hid : (columnInt o.id).toInt = o.id :=
    columnInt_of_fits (by have := hpos o hm; omega) ((hi.issued o hm).trans hseq)
  have h := reports_executionInfo hv hi hm hb
  refine ⟨hid, h.seller, ?_, h.item, h.quantity, h.price⟩
  have hbuyer := h.buyer
  rw [hb'] at hbuyer ⊢
  exact Option.some.inj hbuyer

/-- What is notified and logged of a reply is about the sales behind it. -/
theorem Explains.reported {e : Event} {reply : Reply} {d : Deal ℤ ℤ} (hpos : ∀ o ∈ t.sellOrders, 1 ≤ o.id)
    (hseq : t.sellOrdersSeq ≤ intMax) (h : Explains st t e.operation (.ok reply) d) :
    ∃ infos, List.Forall₂ Sold.ReportedAs
        (((t.market.taken d).filterMap fun o => (e.buyer o).map (Sold.mk o)).insertionSort Sold.inIndexOrder) infos ∧
      e.operation.notifications reply = infos.map (·.notification) ∧
      TransactionLog.trades (e.operation.entries reply) = infos.flatMap (·.entries) := by
  generalize hop : e.operation = operation at h ⊢
  cases h with
  | login => exact ⟨[], .nil, rfl, rfl⟩
  | deposit => exact ⟨[], .nil, rfl, rfl⟩
  | withdraw => exact ⟨[], .nil, rfl, rfl⟩
  | place => exact ⟨[], .nil, rfl, rfl⟩
  | bid => exact ⟨[], .nil, rfl, rfl⟩
  | @purchase buyerId sellOrderId o ho hid =>
    obtain ⟨unixNow, rfl⟩ := Event.of_purchase hop
    refine ⟨[_], .cons ?_ .nil, rfl, rfl⟩
    exact ⟨hid.symm, seller_fits hv ho, rfl, item_fits hv ho, quantity_fits hv hi ho, price_fits hv hi ho⟩
  | @settle unixNow =>
    obtain rfl := Event.of_settle hop
    exact ⟨_, settled_reported hv hi hpos hseq unixNow, rfl, trades_flatMap _⟩

end

variable {s s' : SharedState} {e : Event}

theorem sales_eq {db : Database} (hi : Invariant s.storage s.db.toTables) {d : Deal ℤ ℤ}
    (hd : Dealt s.storage s.db.toTables db.toTables d) :
    sales e s.db.market db.market = ((s.db.market.taken d).filterMap fun o => (e.buyer o).map (Sold.mk o)).insertionSort
      Sold.inIndexOrder := by
  unfold sales
  rw [hd.market, Market.left_apply (market_wf s.db.valid hi) hd.allowed]

/-- Without refusals an event reports its sales, once each. -/
theorem reported_next (hi : Invariant s.storage s.db.toTables) (hpos : ∀ o ∈ s.db.sellOrders, 1 ≤ o.id)
    (hseq : s.db.sellOrdersSeq ≤ intMax) (h : s.next e = some s') : ∃ infos, Reported s e s' infos := by
  obtain ⟨d, he, hd⟩ := Call.next_dealt hi ⟨e.operation, []⟩
  obtain ⟨reply, hr, rfl⟩ | ⟨error, hr, htick, rfl⟩ := SharedState.next_cases h
  · rw [hr] at he
    obtain ⟨infos, h1, h2, h3⟩ := he.reported s.db.valid hi hpos hseq
    have hsales : sales e s.db.market (s.record e.operation reply).db.market = _ := sales_eq hi hd
    refine ⟨infos, by rw [hsales]; exact h1, ?_, ?_⟩
    · rw [← h2]
      rfl
    · rw [← h3]
      exact trades_append _ _
  · -- a failed command makes no deal
    rw [hr] at he
    have hnothing : d = .nothing := by
      generalize hop : e.operation = operation at he
      cases he with
      | failed => rfl
      | unreported => exact absurd (Event.of_settle hop) (htick _)
    have hsales : sales e s.db.market (Call.next s.storage ⟨e.operation, []⟩ s.db).market = _ := sales_eq hi hd
    rw [hnothing] at hsales
    exact ⟨[], by rw [hsales]; exact .nil, (List.append_nil _).symm, (List.append_nil _).symm⟩

/-- An order is sold by a purchase that succeeds, or by a tick after its expiration if it has a bidder. -/
inductive SoldBy (s : SharedState) (e : Event) (x : Sold) : Prop
  | purchase (userId : UserId) (unixNow : ℤ) (id : Int32) (info : SellOrderExecutionInfo)
    (he : e = .command userId unixNow (.buy id none))
    (hreply : Call.reply s.storage ⟨e.operation, []⟩ s.db = .ok (.executed info)) (hid : x.order.id = id.toInt)
    (hbuyer : x.buyer = userId.toInt)
  | settlement (unixNow : ℤ) (he : e = .tick unixNow) (hexpired : x.order.expires ≤ unixNow)
    (hbuyer : x.order.bidder = some x.buyer)

/-- Nothing else sells an order: not a bid, not a failed purchase, not the return of an unsold order. -/
theorem soldBy_of_mem (hi : Invariant s.storage s.db.toTables) (h : s.next e = some s') {x : Sold}
    (hx : x ∈ sales e s.db.market s'.db.market) : SoldBy s e x := by
  obtain ⟨d, hb⟩ := SharedState.booked_of_next hi h
  rw [sales_eq hi hb.dealt, List.mem_insertionSort] at hx
  obtain ⟨o, ho, hx⟩ := List.mem_filterMap.1 hx
  obtain ⟨b, hbuyer, rfl⟩ := Option.map_eq_some_iff.1 hx
  cases d with
  | purchase u o' =>
    obtain rfl := List.mem_singleton.1 ho
    obtain ⟨userId, id, r, hop, hreply, -, hid, -, rfl⟩ := hb.explains.of_purchase rfl
    obtain ⟨unixNow, rfl⟩ := Event.of_purchase hop
    exact .purchase userId unixNow id _ rfl hreply hid (Option.some.inj hbuyer).symm
  | settle now =>
    obtain rfl := Event.of_settle (hb.explains.of_settle rfl)
    exact .settlement now rfl (of_decide_eq_true (List.mem_filter.1 ho).2) hbuyer
  | nothing => cases ho
  | deposit => cases ho
  | withdraw => cases ho
  | place => cases ho
  | bid => cases ho

/-! ## Runs -/

namespace Watched

variable {w w' : Watched}

/-- What holds in every state of a run. -/
structure Sound (w : Watched) : Prop where
  invariant : Invariant w.state.storage w.state.db.toTables
  positive : ∀ o ∈ w.state.db.sellOrders, 1 ≤ o.id
  /-- While the ids of orders fit in an `int`, everything sold was reported once, and nothing else. -/
  reported : w.state.db.sellOrdersSeq ≤ intMax → ∃ infos, List.Forall₂ Sold.ReportedAs w.sold infos ∧
    w.handedOut ++ w.state.notifications = infos.map (·.notification) ∧
    w.state.transactionLog.trades = infos.flatMap (·.entries)

theorem sound_initial : initial.Sound :=
  ⟨initial_invariant, by simp [initial, SharedState.initial, Database.initial], fun _ => ⟨[], .nil, rfl, rfl⟩⟩

theorem sound_event {e : Event} {s' : SharedState} (hw : w.Sound) (h : w.state.next e = some s') :
    Sound { w with state := s', sold := w.sold ++ sales e w.state.db.market s'.db.market } := by
  obtain ⟨d, hb⟩ := SharedState.booked_of_next hw.invariant h
  have hdb : s'.db = Call.next w.state.storage ⟨e.operation, []⟩ w.state.db := by
    obtain ⟨_, -, rfl⟩ | ⟨_, -, -, rfl⟩ := SharedState.next_cases h
    · rfl
    · rfl
  refine ⟨hb.invariant, ?_, fun hseq => ?_⟩
  · show ∀ o ∈ s'.db.sellOrders, 1 ≤ o.id
    rw [hdb]
    exact Call.ids_positive hw.invariant _ hw.positive
  · have hle : w.state.db.sellOrdersSeq ≤ s'.db.sellOrdersSeq := by
      rw [hdb]
      exact (Call.market_extends hw.invariant ⟨e.operation, []⟩).issued
    obtain ⟨infos, h1, h2, h3⟩ := hw.reported (hle.trans hseq)
    obtain ⟨more, hr⟩ := reported_next hw.invariant hw.positive (hle.trans hseq) h
    refine ⟨infos ++ more, List.rel_append h1 hr.sales, ?_, ?_⟩
    · show w.handedOut ++ s'.notifications = _
      rw [hr.notifications, ← List.append_assoc, h2, List.map_append]
    · show s'.transactionLog.trades = _
      rw [hr.trades, h3, List.flatMap_append]

theorem sound_next {a : Activity} (hw : w.Sound) (h : w.next a = some w') : w'.Sound := by
  cases a with
  | event e =>
    obtain ⟨s', hs, rfl⟩ := Option.map_eq_some_iff.1 h
    exact sound_event hw hs
  | pop =>
    simp only [next] at h
    split at h
    · rename_i notification rest hpop
      cases h
      refine ⟨hw.invariant, hw.positive, fun hseq => ?_⟩
      obtain ⟨infos, h1, h2, h3⟩ := hw.reported hseq
      have hqueue : w.state.notifications = notification :: rest := by
        unfold NotificationService.pop at hpop
        split at hpop
        · cases hpop
        · rename_i hn
          cases hpop
          exact hn
      refine ⟨infos, h1, ?_, h3⟩
      show (w.handedOut ++ [notification]) ++ rest = _
      rw [List.append_assoc, List.singleton_append, ← hqueue]
      exact h2
    · cases h
      exact hw

theorem next_exists (hw : w.Sound) (a : Activity) : ∃ w', w.next a = some w' := by
  cases a with
  | event e =>
    obtain ⟨s', d, h, -⟩ := SharedState.next_booked hw.invariant e
    exact ⟨_, by rw [next, h]; rfl⟩
  | pop =>
    simp only [next]
    split
    · exact ⟨_, rfl⟩
    · exact ⟨_, rfl⟩

/-- In every run, while the ids of orders fit in an `int`: the notifications that were handed out
and then those still queued are those of the orders that left the book with a buyer, in order; the
trades of the log are one entry of the seller and one of the buyer for each; every event adds those
of its own sales; and only purchases that succeed, and ticks for orders with a bid, have any. -/
theorem sales_reported_once (activities : List Activity) : ∃ w, Machine.run next initial activities = some w ∧
    (w.state.db.sellOrdersSeq ≤ intMax →
      (∃ infos, List.Forall₂ Sold.ReportedAs w.sold infos ∧
        w.handedOut ++ w.state.notifications = infos.map (·.notification) ∧
        w.state.transactionLog.trades = infos.flatMap (·.entries)) ∧
      ∀ e s', w.state.next e = some s' → ∃ infos, Reported w.state e s' infos) ∧
    ∀ e s', w.state.next e = some s' → ∀ x ∈ sales e w.state.db.market s'.db.market, SoldBy w.state e x := by
  have hkeep : ∀ (w : Watched) a w', w.Sound → w.next a = some w' → w'.Sound := fun _ _ _ hw h => sound_next hw h
  obtain ⟨w, hrun⟩ : ∃ w, Machine.run next initial activities = some w :=
    Machine.run_total hkeep (fun _ a hw => next_exists hw a) sound_initial
  have hw := Machine.run_keeps hkeep sound_initial hrun
  refine ⟨w, hrun, fun hseq => ⟨hw.reported hseq, fun e s' h => ?_⟩, fun e s' h x hx => ?_⟩
  · exact reported_next hw.invariant hw.positive hseq h
  · exact soldBy_of_mem hw.invariant h hx

/-- alice's sword is bought by bob, and her shield goes to his bid when it expires. -/
example :
    let user (name : String) := Activity.event (.login (some (text name)))
    let command (userId : UserId) (command : Command) := Activity.event (.command userId 0 command)
    let activities := [user "alice", user "bob", command 1 (.deposit (text "funds") 10),
      command 1 (.deposit (text "sword") 1), command 1 (.deposit (text "shield") 1),
      command 2 (.deposit (text "funds") 100), command 1 (.sell .immediate (text "sword") 1 20),
      command 1 (.sell .auction (text "shield") 1 30), command 2 (.buy 1 none), command 2 (.buy 2 (some 40)),
      .pop, .event (.tick 300)]
    (Machine.run next initial activities).map (fun w => (w.sold.map (·.buyer), w.handedOut, w.state.notifications)) =
      some ([2, 2], [(1, ⟨1, 20⟩)], [(1, ⟨2, 40⟩)]) := by decide +kernel

end Watched

end AuctionHouse
