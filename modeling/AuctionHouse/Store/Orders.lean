/-
The life of a sell order over any run: its id is never used again, only accepted bids change it,
and it leaves the table once, by a purchase or by a settlement after its expiration.
-/
import AuctionHouse.Market.LifeCycle
import AuctionHouse.Store.Reachable
import Mathlib.Data.List.Induction

namespace AuctionHouse

open Storage AuctionService

/-! ## Which operation made a deal -/

section
variable {st : Storage} {t : Tables} {operation : Operation} {reply : Except Error Reply} {d : Deal ℤ ℤ}
  (h : Explains st t operation reply d)
include h

theorem Explains.of_bid {u b : ℤ} {x : Order ℤ ℤ} (hd : d = .bid u x b) : ∃ buyerId sellOrderId bid o,
    operation = .placeBidOnAuctionSellOrder buyerId sellOrderId bid ∧ reply = .ok .bid ∧ o ∈ t.sellOrders ∧
      o.id = sellOrderId.toInt ∧ u = buyerId.toInt ∧ x = o.order ∧ b = bid.toInt := by
  cases h <;> cases hd
  case bid ho hid _ => exact ⟨_, _, _, _, rfl, rfl, ho, hid, rfl, rfl, rfl⟩

theorem Explains.of_purchase {u : ℤ} {x : Order ℤ ℤ} (hd : d = .purchase u x) : ∃ buyerId sellOrderId o,
    operation = .executeImmediateSellOrder buyerId sellOrderId ∧
      reply = .ok (.executed { executionInfo o with id := sellOrderId, buyerId }) ∧ o ∈ t.sellOrders ∧
      o.id = sellOrderId.toInt ∧ u = buyerId.toInt ∧ x = o.order := by
  cases h <;> cases hd
  case purchase ho hid _ => exact ⟨_, _, _, rfl, rfl, ho, hid, rfl, rfl⟩

theorem Explains.of_settle {now : ℤ} (hd : d = .settle now) : operation = .processExpiredSellOrders now := by
  cases h <;> cases hd <;> rfl

theorem Explains.of_place {x : Order ℤ ℤ} {fee spoiled : ℤ} (hd : d = .place x fee spoiled) :
    ∃ orderType sellerId itemName quantity price itemId unixExpirationTime,
      operation = .placeSellOrder orderType sellerId itemName quantity price unixExpirationTime ∧
        (∃ info, reply = .ok (.item info)) ∧
        x = placedOrder t orderType sellerId itemId quantity price unixExpirationTime := by
  cases h <;> cases hd
  case place => exact ⟨_, _, _, _, _, _, _, rfl, ⟨_, rfl⟩, rfl⟩

end

/-! ## One call -/

/-- `o'` is the order `o`, now or later: an auction may have a new bidder at a higher price. -/
structure SellOrderRow.Continues (o o' : SellOrderRow) : Prop where
  id : o'.id = o.id
  seller : o'.sellerId = o.sellerId
  item : o'.itemId = o.itemId
  quantity : o'.quantity = o.quantity
  expirationTime : o'.expirationTime = o.expirationTime
  type : (innerInfo o').type = (innerInfo o).type
  price : o' = o ∨ (innerInfo o).type = .auction ∧ o.price < o'.price

theorem SellOrderRow.Continues.refl (o : SellOrderRow) : o.Continues o := ⟨rfl, rfl, rfl, rfl, rfl, rfl, .inl rfl⟩

/-- A call that ends an order. -/
inductive Ends (call : Call) (reply : Except Error Reply) (o : SellOrderRow) : Prop
  | purchase (buyerId : UserId) (sellOrderId : Int32) (info : SellOrderExecutionInfo)
    (hcall : call.operation = .executeImmediateSellOrder buyerId sellOrderId) (hid : o.id = sellOrderId.toInt)
    (hreply : reply = .ok (.executed info)) (htype : (innerInfo o).type = .immediate)
  | settlement (unixNow : ℤ) (hcall : call.operation = .processExpiredSellOrders unixNow)
    (hexpired : o.expirationTime ≤ unixNow)

/-- An accepted bid on an order. -/
inductive Raises (call : Call) (reply : Except Error Reply) (o o' : SellOrderRow) : Prop
  | bid (buyerId : UserId) (sellOrderId bid : Int32)
    (hcall : call.operation = .placeBidOnAuctionSellOrder buyerId sellOrderId bid) (hid : o.id = sellOrderId.toInt)
    (hreply : reply = .ok .bid) (htype : (innerInfo o).type = .auction) (hbuyer : buyerId.toInt ≠ o.sellerId)
    (hprice : o.price < bid.toInt) (ho' : o' = o.setBuyer buyerId.toInt bid.toInt)

/-- No order of the table has the id. -/
def Gone (t : Tables) (id : ℤ) : Prop := ∀ o ∈ t.sellOrders, o.id ≠ id

/-- What a call does to an order of the table. -/
inductive Fate (call : Call) (reply : Except Error Reply) (t' : Tables) (o : SellOrderRow) : Prop
  | stays (h : o ∈ t'.sellOrders)
  | raised (o' : SellOrderRow) (hr : Raises call reply o o') (h : o' ∈ t'.sellOrders)
  | ended (he : Ends call reply o) (h : Gone t' o.id)

theorem isImmediate_type {t : Tables} (hv : t.Valid) {o : SellOrderRow} (ho : o ∈ t.sellOrders) :
    o.order.isImmediate = true ↔ (innerInfo o).type = .immediate := by
  rw [SellOrderRow.isImmediate_order, type_innerInfo hv ho, decide_eq_true_iff]

theorem auction_type {t : Tables} (hv : t.Valid) {o : SellOrderRow} (ho : o ∈ t.sellOrders)
    (h : o.order.isImmediate = false) : (innerInfo o).type = .auction := by
  rcases ht : (innerInfo o).type with _ | _
  · rw [(isImmediate_type hv ho).2 ht] at h; cases h
  · rfl

theorem gone_market {t : Tables} {id : ℤ} : t.market.Gone id ↔ Gone t id := by
  constructor
  · exact fun h o ho => h o.order (mem_market.2 ⟨o, ho, rfl⟩)
  · intro h x hx
    obtain ⟨o, ho, rfl⟩ := mem_market.1 hx
    exact h o ho

theorem mem_of_order {t : Tables} {o : SellOrderRow} (h : o.order ∈ t.market.book) : o ∈ t.sellOrders := by
  obtain ⟨r, hr, he⟩ := mem_market.1 h
  rwa [← SellOrderRow.order_injective he]

namespace Call

variable {st : Storage} {db : Database} (hi : Invariant st db.toTables)
include hi

theorem fate (call : Call) {o : SellOrderRow} (ho : o ∈ db.sellOrders) :
    Fate call (call.reply st db) (call.next st db).toTables o := by
  obtain ⟨d, he, hd⟩ := next_dealt hi call
  have hw := market_wf db.valid hi
  have hm : o.order ∈ db.market.book := mem_market.2 ⟨o, ho, rfl⟩
  have hbook : db.market.bookAfter d = (call.next st db).market.book := by rw [hd.market]; rfl
  have hgone (h : ∀ x ∈ db.market.bookAfter d, x.id ≠ o.id) : (call.next st db).market.Gone o.id := by
    rw [hbook] at h; exact h
  cases Market.fate hw hd.allowed hm with
  | stays h => exact .stays (mem_of_order (hbook ▸ h))
  | bid u b hdeal h =>
    obtain ⟨buyerId, sellOrderId, bid, o₁, hcall, hreply, ho₁, hid, rfl, hx, rfl⟩ := he.of_bid hdeal
    obtain rfl := SellOrderRow.order_injective hx
    have ha := hd.allowed
    rw [hdeal] at ha
    obtain ⟨-, himm, hne, hprice, -⟩ := ha
    have hne' : buyerId.toInt ≠ o.sellerId := hne
    refine .raised _ (.bid buyerId sellOrderId bid hcall hid hreply (auction_type db.valid ho himm) hne hprice rfl)
      (mem_of_order ?_)
    rw [SellOrderRow.order_setBuyer o hne', ← hbook]
    exact h
  | bought u hdeal h =>
    obtain ⟨buyerId, sellOrderId, o₁, hcall, hreply, ho₁, hid, rfl, hx⟩ := he.of_purchase hdeal
    obtain rfl := SellOrderRow.order_injective hx
    have ha := hd.allowed
    rw [hdeal] at ha
    have himm : o.order.isImmediate = true := by unfold Order.isImmediate; rw [ha.2.1]
    exact .ended (.purchase buyerId sellOrderId _ hcall hid hreply ((isImmediate_type db.valid ho).1 himm))
      (gone_market.1 (hgone h))
  | settled now hdeal hexp h =>
    exact .ended (.settlement now (he.of_settle hdeal) hexp) (gone_market.1 (hgone h))

/-- Where an order of the table after a call comes from. -/
theorem origin (call : Call) {o : SellOrderRow} (ho : o ∈ (call.next st db).sellOrders) :
    (∃ r ∈ db.sellOrders, o.id = r.id ∧ o.expirationTime = r.expirationTime) ∨
      o.id = nextSellOrderId db.toTables ∧ ∃ orderType sellerId itemName quantity price,
        call.operation = .placeSellOrder orderType sellerId itemName quantity price o.expirationTime := by
  obtain ⟨d, he, hd⟩ := next_dealt hi call
  have hbook : o.order ∈ db.market.bookAfter d := by
    have h : o.order ∈ (call.next st db).market.book := mem_market.2 ⟨o, ho, rfl⟩
    rw [hd.market] at h
    exact h
  rcases Market.mem_bookAfter hbook with hm | ⟨fee, spoiled, rfl⟩ | ⟨u, x, b, rfl, hx⟩
  · exact .inl ⟨o, mem_of_order hm, rfl, rfl⟩
  · obtain ⟨orderType, sellerId, itemName, quantity, price, itemId, unixExpirationTime, hop, -, hx⟩ := he.of_place rfl
    have hexp : o.expirationTime = unixExpirationTime := congrArg Order.expires hx
    exact .inr ⟨congrArg Order.id hx, orderType, sellerId, itemName, quantity, price, by rw [hexp]; exact hop⟩
  · obtain ⟨r, hr, rfl⟩ := mem_market.1 hd.allowed.1
    exact .inl ⟨r, hr, congrArg Order.id hx, congrArg Order.expires hx⟩

/-- The ids of orders start at 1. -/
theorem ids_positive (call : Call) (h : ∀ o ∈ db.sellOrders, 1 ≤ o.id) : ∀ o ∈ (call.next st db).sellOrders, 1 ≤ o.id := by
  intro o ho
  obtain ⟨r, hr, hid, -⟩ | ⟨hid, -⟩ := origin hi call ho
  · rw [hid]
    exact h r hr
  · rw [hid]
    have := (le_foldl_max (db.sellOrdersSeq :: db.sellOrders.map (·.id)) 0).1
    unfold nextSellOrderId newRowId
    omega

theorem market_extends (call : Call) : db.market.Extends (call.next st db).market := by
  obtain ⟨d, -, hd⟩ := next_dealt hi call
  rw [hd.market]
  exact Market.apply_extends hd.allowed

omit hi in
theorem market_extends_run : ∀ (calls : List Call) {db : Database}, Invariant st db.toTables →
    db.market.Extends (run st db calls).market
  | [], db, _ => .refl db.market
  | call :: calls, _, hi => (market_extends hi call).trans (market_extends_run calls (invariant_next hi call))

/-- A purchase of or a bid on an order that is not there fails and changes nothing. -/
theorem gone_fails (call : Call) {id : Int32} (hg : Gone db.toTables id.toInt)
    (hcall : (∃ buyerId, call.operation = .executeImmediateSellOrder buyerId id) ∨
      ∃ buyerId bid, call.operation = .placeBidOnAuctionSellOrder buyerId id bid) :
    (∃ e, call.reply st db = .error e) ∧ call.next st db = db := by
  have herror : ∃ e, call.reply st db = .error e := by
    obtain ⟨d, he, -⟩ := next_dealt hi call
    rcases hcall with ⟨buyerId, hcall⟩ | ⟨buyerId, bid, hcall⟩
    · rw [hcall] at he
      generalize call.reply st db = reply at he
      cases he with
      | failed => exact ⟨_, rfl⟩
      | purchase ho hid _ => exact absurd hid (hg _ ho)
    · rw [hcall] at he
      generalize call.reply st db = reply at he
      cases he with
      | failed => exact ⟨_, rfl⟩
      | bid ho hid _ => exact absurd hid (hg _ ho)
  refine ⟨herror, ?_⟩
  -- a trade that fails is undone
  obtain ⟨e, he⟩ := herror
  unfold reply at he
  unfold next
  rcases hcall with ⟨buyerId, hcall⟩ | ⟨buyerId, bid, hcall⟩
  all_goals
    rw [hcall] at he ⊢
    simp only [Operation.exec, Sql.outcome_map, Sql.after_map] at he ⊢
  · rcases hr : Sql.outcome (executeImmediateSellOrder st buyerId id (Sql.Connection.idle db call.answers)) with e' | x
    · exact (executeImmediateSellOrder_atomic st buyerId id).noEffect db call.answers e' hr
    · rw [hr] at he; cases he
  · rcases hr : Sql.outcome
      (placeBidOnAuctionSellOrder st buyerId id bid (Sql.Connection.idle db call.answers)) with e' | x
    · exact (placeBidOnAuctionSellOrder_atomic st buyerId id bid).noEffect db call.answers e' hr
    · rw [hr] at he; cases he

end Call

/-! ## Any number of calls -/

theorem continues_of_order {t t' : Tables} (hv : t.Valid) (hv' : t'.Valid) {o o' : SellOrderRow} (ho : o ∈ t.sellOrders)
    (ho' : o' ∈ t'.sellOrders) (h : o.order.Continues o'.order) : o.Continues o' := by
  have htype : (innerInfo o').type = (innerInfo o).type := by
    have h1 := isImmediate_type hv ho
    have h2 := isImmediate_type hv' ho'
    rw [h.isImmediate, h1] at h2
    rcases ht : (innerInfo o).type with _ | _ <;> rcases ht' : (innerInfo o').type with _ | _ <;> simp_all
  refine ⟨h.id, h.seller, h.item, h.quantity, h.expires, htype, ?_⟩
  rcases h.price with he | ⟨hi, hp⟩
  · exact .inl (SellOrderRow.order_injective he)
  · exact .inr ⟨auction_type hv ho hi, hp⟩

namespace Call

variable {st : Storage} {db : Database} (hi : Invariant st db.toTables)
include hi

/-- Later orders with the id of an order continue it. -/
theorem continues_run (more : List Call) {o o' : SellOrderRow} (ho : o ∈ db.sellOrders)
    (ho' : o' ∈ (run st db more).sellOrders) (hid : o'.id = o.id) : o.Continues o' :=
  continues_of_order db.valid (run st db more).valid ho ho'
    ((market_extends_run more hi).continues (market_wf db.valid hi) (mem_market.2 ⟨o, ho, rfl⟩)
      (mem_market.2 ⟨o', ho', rfl⟩) hid)

/-- An id that was given and is gone stays gone. -/
theorem gone_run (more : List Call) {id : ℤ} (hid : id ≤ db.sellOrdersSeq) (hg : Gone db.toTables id) :
    Gone (run st db more).toTables id :=
  gone_market.1 ((market_extends_run more hi).gone hid (gone_market.2 hg))

/-- An order that is gone was ended by one of the calls, for good. -/
theorem ended_run {o : SellOrderRow} (ho : o ∈ db.sellOrders) (more : List Call)
    (hg : Gone (run st db more).toTables o.id) :
    ∃ before call after, more = before ++ call :: after ∧
      (∃ o' ∈ (run st db before).sellOrders, o.Continues o' ∧ Ends call (call.reply st (run st db before)) o') ∧
        ∀ later, Gone (run st db (before ++ call :: later)).toTables o.id := by
  induction more using List.reverseRecOn with
  | nil => exact absurd rfl (hg o ho)
  | append_singleton more call ih =>
    -- either it was gone before the last call, or the last call ended it
    by_cases hm : Gone (run st db more).toTables o.id
    · obtain ⟨before, c, after, rfl, hend, hlater⟩ := ih hm
      exact ⟨before, c, after ++ [call], by simp, hend, hlater⟩
    · simp only [Gone, not_forall, not_not] at hm
      obtain ⟨o', ho', hid⟩ := hm
      have hi' := invariant_run more hi
      have hc := continues_run hi more ho ho' hid
      rw [run_append] at hg
      rcases fate hi' call ho' with h | ⟨o'', ⟨_, _, _, _, _, _, _, _, _, rfl⟩, h⟩ | ⟨he, hgone⟩
      · exact absurd hid (hg o' h)
      · exact (hg _ h hid).elim
      · refine ⟨more, call, [], rfl, ⟨o', ho', hc, he⟩, fun later => ?_⟩
        rw [run_append, run_cons, ← hid]
        have hle := (market_extends hi' call).issued
        exact gone_run (invariant_next hi' call) later ((hi'.issued o' ho').trans hle) hgone

end Call

/-- In every reachable state: the id of a new order was never the id of an earlier one; an order
sells a positive quantity of an item other than funds and its bidder is never its seller; a call
keeps an order, raises it by an accepted bid, or ends it; and after any more calls it is there, the
same but for higher bids, or it was ended once and for good, and then every purchase of it and bid
on it fails and changes nothing. -/
theorem order_life_cycle (calls : List Call) :
    let st := Storage.initial
    let db := reached calls
    (∀ call : Call, ∀ o ∈ (call.next st db).sellOrders, Gone db.toTables o.id →
      ∀ earlier, earlier <+: calls → Gone (reached earlier).toTables o.id) ∧
    ∀ o ∈ db.sellOrders,
      o.itemId ≠ st.fundsItemId.toInt ∧ 0 < o.quantity ∧
      ((innerInfo o).type = .auction → o.buyerId ≠ some o.sellerId) ∧
      (∀ call : Call, Fate call (call.reply st db) (call.next st db).toTables o) ∧
      ∀ more, let db' := reached (calls ++ more)
        (∃ o' ∈ db'.sellOrders, o.Continues o') ∨
        (∃ before call after, more = before ++ call :: after ∧
          (∃ o' ∈ (reached (calls ++ before)).sellOrders, o.Continues o' ∧
            Ends call (call.reply st (reached (calls ++ before))) o') ∧
          ∀ later, Gone (reached (calls ++ before ++ call :: later)).toTables o.id) ∧
        ∀ (call : Call) (id : Int32), id.toInt = o.id →
          (∃ buyerId, call.operation = .executeImmediateSellOrder buyerId id) ∨
            (∃ buyerId bid, call.operation = .placeBidOnAuctionSellOrder buyerId id bid) →
          (∃ e, call.reply st db' = .error e) ∧ call.next st db' = db' := by
  intro st db
  have hi : Invariant st db.toTables := reached_invariant calls
  have happ : ∀ more, reached (calls ++ more) = Call.run st db more := fun more => Call.run_append ..
  refine ⟨fun call o ho hg earlier ⟨rest, hrest⟩ => ?_, fun o ho => ⟨hi.items o ho, (db.valid.sellOrders o ho).quantity,
    fun htype hb => ?_, fun call => Call.fate hi call ho, fun more => ?_⟩⟩
  · -- had an earlier state the id, the order would continue the earlier one or have gone for good
    intro x hx hid
    have hi₀ := reached_invariant earlier
    have hdb : db = Call.run st (reached earlier) rest := by
      show reached calls = _
      rw [← hrest]
      exact Call.run_append ..
    have hle := (Call.market_extends_run rest hi₀).issued
    have : Gone (call.next st db).toTables x.id :=
      Call.gone_run hi [call] ((hi₀.issued x hx).trans (by rw [hdb]; exact hle)) (by rw [hid]; exact hg)
    exact this o ho hid.symm
  · rw [(type_innerInfo db.valid ho).2 hb] at htype
    cases htype
  · intro db'
    have hdb' : db' = Call.run st db more := happ more
    by_cases hg : Gone db'.toTables o.id
    · right
      refine ⟨?_, fun call id hid hcall => Call.gone_fails (reached_invariant _) call (by rw [hid]; exact hg) hcall⟩
      obtain ⟨before, call, after, hm, hend, hlater⟩ := Call.ended_run hi ho more (by rw [← hdb']; exact hg)
      rw [← happ] at hend
      exact ⟨before, call, after, hm, hend, fun later => by rw [List.append_assoc, happ]; exact hlater later⟩
    · left
      simp only [Gone, not_forall, not_not] at hg
      obtain ⟨o', ho', hid⟩ := hg
      exact ⟨o', ho', Call.continues_run hi more ho (hdb' ▸ ho') hid⟩

end AuctionHouse
