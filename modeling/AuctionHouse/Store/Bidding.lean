/-
Bidding leaves no history. However many bids are tried on an order, by whomever and whichever of them
fail, holdings and orders end as if the last accepted bid had been the only one, and it would have
been accepted at once.
-/
import AuctionHouse.Market.Bidding
import AuctionHouse.Store.Spending

namespace AuctionHouse

open Storage AuctionService

/-- A bid on an order, and the refusals of its statements. -/
structure Attempt where
  buyerId : UserId
  bid : Int32
  faults : List (Option (Sql.Fault Error)) := []

def Attempt.call (sellOrderId : Int32) (a : Attempt) : Call :=
  ⟨.placeBidOnAuctionSellOrder a.buyerId sellOrderId a.bid, a.faults⟩

/-- The attempts one after another. -/
def afterAttempts (st : Storage) (sellOrderId : Int32) (db : Database) (attempts : List Attempt) : Database :=
  Call.run st db (attempts.map (Attempt.call sellOrderId))

/-- The attempt that was accepted last. -/
def lastAccepted (st : Storage) (sellOrderId : Int32) (db : Database) (attempts : List Attempt) :
    Option (UserId × Int32) :=
  (Call.acceptedBids st sellOrderId.toInt db (attempts.map (Attempt.call sellOrderId))).getLast?

section
variable {st : Storage} {db : Database} (hi : Invariant st db.toTables) {sellOrderId : Int32}
include hi

/-- A bid allowed by the market and by what its funds read as is accepted. -/
theorem bid_accepted {o : SellOrderRow} (hid : o.id = sellOrderId.toInt) (ho : o ∈ db.sellOrders) {u : UserId}
    {b : Int32} (ha : db.market.Allowed st.fundsItemId.toInt (.bid u.toInt o.order b.toInt))
    (hread : b ≤ columnInt (db.market.available st.fundsItemId.toInt o.order u.toInt)) :
    let call : Call := ⟨.placeBidOnAuctionSellOrder u sellOrderId b, []⟩
    call.reply st db = .ok .bid ∧
      (call.next st db).market = db.market.apply st.fundsItemId.toInt (.bid u.toInt o.order b.toInt) := by
  intro call
  have hauction : o.buyerId ≠ some o.sellerId := fun he => by
    have := SellOrderRow.isImmediate_order o
    rw [ha.2.1] at this
    simp [he] at this
  have hrefund := refund_auction hauction st.fundsItemId.toInt u.toInt
  have hsame : ∀ x ∈ db.sellOrders, x.id = sellOrderId.toInt → x = o := fun x hx hid' =>
    List.inj_on_of_nodup_map db.valid.sellOrderIds hx ho (hid'.trans hid.symm)
  have htype : (innerInfo o).type = .auction := by
    rcases h : (innerInfo o).type with _ | _
    · exact absurd ((type_innerInfo db.valid ho).1 h) hauction
    · rfl
  obtain ⟨reply, hreply⟩ := (placeBidOnAuctionSellOrder_succeeds hi u sellOrderId b).2
    ⟨⟨o, ho, hid, htype, ha.2.2.1.symm, ha.2.2.2.1, hrefund ▸ ha.2.2.2.2⟩, fun x hx hid' => by
      rw [hsame x hx hid', ← hrefund]
      exact hread⟩
  obtain ⟨d, he, hd⟩ := Call.next_dealt hi call
  rw [show call.reply st db = .ok reply from hreply] at he ⊢
  obtain rfl : reply = .bid := by cases he; rfl
  obtain ⟨x, hx, hid', rfl⟩ := he.accepted
  rw [hsame x hx hid'] at hd
  exact ⟨rfl, hd.market⟩

omit hi in
theorem afterAttempts_concat (attempts : List Attempt) (a : Attempt) :
    afterAttempts st sellOrderId db (attempts ++ [a]) =
      (a.call sellOrderId).next st (afterAttempts st sellOrderId db attempts) := by
  unfold afterAttempts
  rw [List.map_append, Call.run_append]
  rfl

omit hi in
theorem lastAccepted_concat (attempts : List Attempt) (a : Attempt) :
    lastAccepted st sellOrderId db (attempts ++ [a]) =
      match (a.call sellOrderId).reply st (afterAttempts st sellOrderId db attempts) with
      | .ok _ => some (a.buyerId, a.bid)
      | .error _ => lastAccepted st sellOrderId db attempts := by
  unfold lastAccepted
  rw [List.map_append, List.map_cons, List.map_nil, Call.acceptedBids_concat]
  unfold Call.acceptedBid afterAttempts
  rcases (a.call sellOrderId).reply st (Call.run st db (attempts.map (Attempt.call sellOrderId))) with e | reply
  · simp [Attempt.call]
  · simp [Attempt.call]

/-- What the attempts come to in the market, and what the last accepted bid was compared with. -/
theorem afterAttempts_market {o : SellOrderRow} (hid : o.id = sellOrderId.toInt) (ho : o ∈ db.sellOrders)
    (attempts : List Attempt) :
    db.market.AfterBids st.fundsItemId.toInt o.order (afterAttempts st sellOrderId db attempts).market
      ((lastAccepted st sellOrderId db attempts).map fun p => (p.1.toInt, p.2.toInt)) ∧
    ∀ u b, lastAccepted st sellOrderId db attempts = some (u, b) →
      b ≤ columnInt (db.market.available st.fundsItemId.toInt o.order u.toInt) := by
  induction attempts using List.reverseRecOn with
  | nil => exact ⟨.none, fun _ _ => by rintro ⟨⟩⟩
  | append_singleton attempts a ih =>
    obtain ⟨hafter, hread⟩ := ih
    have hw := market_wf db.valid hi
    have hbook : o.order ∈ db.market.book := mem_market.2 ⟨o, ho, rfl⟩
    have hi' : Invariant st (afterAttempts st sellOrderId db attempts).toTables := Call.invariant_run _ hi
    obtain ⟨d, he, hd⟩ := Call.next_dealt hi' (a.call sellOrderId)
    rw [afterAttempts_concat, lastAccepted_concat, hd.market]
    rcases hr : (a.call sellOrderId).reply st (afterAttempts st sellOrderId db attempts) with error | reply
    all_goals rw [hr] at he
    · -- a rejected bid is no deal
      rw [he.rejected, Market.apply_nothing]
      exact ⟨hafter, hread⟩
    · replace he : Explains st _ (.placeBidOnAuctionSellOrder a.buyerId sellOrderId a.bid) (.ok reply) d := he
      cases he with
      | bid ho' hid' hread' =>
        have hid'' := hid'.trans hid.symm
        obtain ⟨hallowed, hsame⟩ := hafter.bid hw hbook hid'' hd.allowed
        rw [hsame]
        refine ⟨.last hallowed, fun u b hlast => ?_⟩
        cases hlast
        rw [← hafter.available hw hbook (mem_market.2 ⟨_, ho', rfl⟩) hid'']
        exact hread'

/-- There is nothing to bid on. -/
theorem afterAttempts_absent (hno : ∀ o ∈ db.sellOrders, o.id ≠ sellOrderId.toInt) (attempts : List Attempt) :
    (afterAttempts st sellOrderId db attempts).market = db.market ∧
      lastAccepted st sellOrderId db attempts = none := by
  induction attempts using List.reverseRecOn with
  | nil => exact ⟨rfl, rfl⟩
  | append_singleton attempts a ih =>
    obtain ⟨hmarket, hlast⟩ := ih
    have hi' : Invariant st (afterAttempts st sellOrderId db attempts).toTables := Call.invariant_run _ hi
    obtain ⟨d, he, hd⟩ := Call.next_dealt hi' (a.call sellOrderId)
    rw [afterAttempts_concat, lastAccepted_concat, hd.market]
    rcases hr : (a.call sellOrderId).reply st (afterAttempts st sellOrderId db attempts) with error | reply
    all_goals rw [hr] at he
    · rw [he.rejected, Market.apply_nothing]
      exact ⟨hmarket, hlast⟩
    · obtain ⟨o, ho, hid, -⟩ := he.accepted
      have hbook : o.order ∈ db.market.book := by
        rw [← hmarket]
        exact mem_market.2 ⟨o, ho, rfl⟩
      obtain ⟨o', ho', hsame⟩ := mem_market.1 hbook
      exact absurd ((congrArg Order.id hsame).trans hid) (hno o' ho')

end

/-- In every reachable state: bids tried on an order, by anyone and with any of their statements
refused, change no holding and no order if none is accepted; otherwise the last accepted one alone
would have been accepted at once and left the same holdings and orders, which settle the same. -/
theorem last_bid_alone (calls : List Call) (sellOrderId : Int32) (attempts : List Attempt) :
    let st := Storage.initial
    let db := reached calls
    let db' := afterAttempts st sellOrderId db attempts
    (lastAccepted st sellOrderId db attempts = none → db'.market = db.market) ∧
    ∀ u b, lastAccepted st sellOrderId db attempts = some (u, b) →
      let call : Call := ⟨.placeBidOnAuctionSellOrder u sellOrderId b, []⟩
      call.reply st db = .ok .bid ∧ db'.market = (call.next st db).market ∧
        ∀ unixNow, (Call.next st ⟨.processExpiredSellOrders unixNow, []⟩ db').market =
          (Call.next st ⟨.processExpiredSellOrders unixNow, []⟩ (call.next st db)).market := by
  intro st db db'
  have hi : Invariant st db.toTables := reached_invariant calls
  by_cases hthere : ∃ o ∈ db.sellOrders, o.id = sellOrderId.toInt
  · obtain ⟨o, ho, hid⟩ := hthere
    obtain ⟨hafter, hread⟩ := afterAttempts_market hi hid ho attempts
    constructor
    · intro hnone
      rw [hnone] at hafter
      exact hafter.eq_of_none
    · intro u b hlast call
      rw [hlast] at hafter
      obtain ⟨ha, hm⟩ := hafter.eq_of_last
      obtain ⟨hreply, hmarket⟩ := bid_accepted hi hid ho ha (hread u b hlast)
      have hsame : db'.market = (call.next st db).market := hm.trans hmarket.symm
      refine ⟨hreply, hsame, fun unixNow => ?_⟩
      have hsettled := Call.tick_market (Call.invariant_run (attempts.map (Attempt.call sellOrderId)) hi) unixNow
      have hsettled' := Call.tick_market (Call.invariant_next hi call) unixNow
      exact hsettled.trans ((congrArg (Market.apply _ · _) hsame).trans hsettled'.symm)
  · push Not at hthere
    obtain ⟨hmarket, hnone⟩ := afterAttempts_absent hi hthere attempts
    refine ⟨fun _ => hmarket, fun u b hlast => ?_⟩
    rw [hnone] at hlast
    cases hlast

end AuctionHouse
