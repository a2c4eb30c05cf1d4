/-
Auctions over whole runs: the bids accepted on an order rise from its starting price, the last one
stands, its bidder has paid exactly that bid and everyone else nothing, and the settlement of the
order hands over the items and the bid.
-/
import AuctionHouse.Store.Batch
import AuctionHouse.Store.Orders

namespace AuctionHouse

open Storage AuctionService

/-! ## The bids of a run -/

namespace Call

variable (st : Storage) (id : ℤ)

/-- The bid of a call on an order, if it was accepted. -/
def acceptedBid (call : Call) (db : Database) : Option (UserId × Int32) :=
  match call.operation, call.reply st db with
  | .placeBidOnAuctionSellOrder buyerId sellOrderId bid, .ok _ =>
    if sellOrderId.toInt = id then some (buyerId, bid) else none
  | _, _ => none

/-- What a user pays in a bid on an order by anyone, accepted or not; a refund counts negative. -/
def spent (userId : UserId) (call : Call) (db : Database) : ℤ :=
  match call.operation with
  | .placeBidOnAuctionSellOrder _ sellOrderId _ =>
    if sellOrderId.toInt = id then
      db.balance userId.toInt st.fundsItemId.toInt - (call.next st db).balance userId.toInt st.fundsItemId.toInt
    else 0
  | _ => 0

/-- The accepted bids of a run on an order, oldest first. -/
def acceptedBids : Database → List Call → List (UserId × Int32)
  | _, [] => []
  | db, call :: calls => (call.acceptedBid st id db).toList ++ acceptedBids (call.next st db) calls

/-- What a user paid in the bids of a run on an order. -/
def outlay (userId : UserId) : Database → List Call → ℤ
  | _, [] => 0
  | db, call :: calls => call.spent st id userId db + outlay userId (call.next st db) calls

theorem acceptedBids_concat : ∀ (calls : List Call) (db : Database) (call : Call),
    acceptedBids st id db (calls ++ [call]) =
      acceptedBids st id db calls ++ (call.acceptedBid st id (run st db calls)).toList
  | [], db, call => by simp [acceptedBids]
  | c :: calls, db, call => by
    have ih := acceptedBids_concat calls (c.next st db) call
    simp only [List.cons_append, acceptedBids, ih, List.append_assoc, run_cons]

theorem outlay_concat (userId : UserId) : ∀ (calls : List Call) (db : Database) (call : Call),
    outlay st id userId db (calls ++ [call]) =
      outlay st id userId db calls + call.spent st id userId (run st db calls)
  | [], db, call => by simp [outlay]
  | c :: calls, db, call => by
    have ih := outlay_concat userId calls (c.next st db) call
    simp only [List.cons_append, outlay, ih, Int.add_assoc, run_cons]

end Call

/-! ## One call -/

theorem refund_auction {o : SellOrderRow} (hb : o.buyerId ≠ some o.sellerId) (f w : ℤ) :
    refund f o.order w f = if o.buyerId = some w then o.price else 0 := by
  unfold refund
  rw [SellOrderRow.bidder_order]
  rcases h : o.buyerId with _ | b
  · simp
  · rw [(hasBid_iff o).2 ⟨b, h, fun e => hb (by rw [h, e])⟩, if_pos rfl]
    simp only [give, and_true, Option.some.injEq, eq_comm]
    rfl

section
variable {st : Storage} {t : Tables} {d : Deal ℤ ℤ} {buyerId : UserId} {sellOrderId bid : Int32}

/-- A bid that was not accepted is no deal. -/
theorem Explains.rejected {e : Error}
    (h : Explains st t (.placeBidOnAuctionSellOrder buyerId sellOrderId bid) (.error e) d) : d = .nothing := by
  cases h; rfl

theorem Explains.accepted {reply : Reply}
    (h : Explains st t (.placeBidOnAuctionSellOrder buyerId sellOrderId bid) (.ok reply) d) :
    ∃ o ∈ t.sellOrders, o.id = sellOrderId.toInt ∧ d = .bid buyerId.toInt o.order bid.toInt := by
  cases h with
  | bid ho hid _ => exact ⟨_, ho, hid, rfl⟩

end

/-- What an accepted bid did. -/
structure Accepted (st : Storage) (id : ℤ) (call : Call) (db : Database) (u : UserId) (b : Int32)
    (o : SellOrderRow) : Prop where
  mem : o ∈ db.sellOrders
  order : o.id = id
  auction : o.buyerId ≠ some o.sellerId
  bidder : u.toInt ≠ o.sellerId
  price : o.price < b.toInt
  mem' : o.setBuyer u.toInt b.toInt ∈ (call.next st db).sellOrders
  spent : ∀ w : UserId, call.spent st id w db =
    (if u = w then b.toInt else 0) - if o.buyerId = some w.toInt then o.price else 0

/-- A call that is no accepted bid on an order. -/
structure NoBid (st : Storage) (id : ℤ) (call : Call) (db : Database) : Prop where
  none : call.acceptedBid st id db = none
  spent : ∀ w, call.spent st id w db = 0
  same : ∀ o ∈ db.sellOrders, o.id = id → ∀ o' ∈ (call.next st db).sellOrders, o'.id = id → o' = o

namespace Call

variable {st : Storage} {db : Database} (hi : Invariant st db.toTables)
include hi

/-- A tick without refusals settles the market. -/
theorem tick_market (unixNow : ℤ) : (next st ⟨.processExpiredSellOrders unixNow, []⟩ db).market =
    db.market.apply st.fundsItemId.toInt (.settle unixNow) := by
  obtain ⟨d, he, hd⟩ := next_dealt hi ⟨.processExpiredSellOrders unixNow, []⟩
  have hreply : reply st ⟨.processExpiredSellOrders unixNow, []⟩ db =
      .ok (.settled (executedAuctionOrders unixNow db.toTables)) := by
    rw [reply_calm]
    simp only [Operation.exec, Sql.outcome_map, processExpiredSellOrders_calm hi unixNow]
    rfl
  rw [hreply] at he
  cases he
  exact hd.market

theorem noBid_of_none {id : ℤ} {call : Call} (hnone : call.acceptedBid st id db = none) : NoBid st id call db := by
  obtain ⟨d, he, hd⟩ := next_dealt hi call
  refine ⟨hnone, fun w => ?_, fun o ho hid o' ho' hid' => ?_⟩
  · -- only a bid on this order is an outlay for it, and this one was rejected
    unfold spent
    unfold acceptedBid at hnone
    split
    · rename_i buyerId sellOrderId bid hop
      split
      · rename_i hsid
        rw [hop] at he hnone
        rcases hr : call.reply st db with e | reply
        · rw [hr] at he
          rw [hd.balance, he.rejected]
          simp only [Market.delta]
          omega
        · rw [hr] at hnone
          simp only [if_pos hsid] at hnone
          cases hnone
      · rfl
    · rfl
  · -- the order stays as it is: an accepted bid would change it, an end would remove it
    rcases fate hi call ho with h | ⟨_, ⟨u, i, b, hop, hoid, hreply, _, _, _, rfl⟩, h⟩ | ⟨-, hg⟩
    · exact ids_order (call.next st db).valid h ho' (hid'.trans hid.symm)
    · unfold acceptedBid at hnone
      rw [hop, hreply] at hnone
      simp only [if_pos (hoid.symm.trans hid)] at hnone
      cases hnone
    · exact absurd (hid'.trans hid.symm) (hg o' ho')

theorem accepted_of_some {id : ℤ} {call : Call} {u : UserId} {b : Int32}
    (hsome : call.acceptedBid st id db = some (u, b)) : ∃ o, Accepted st id call db u b o := by
  obtain ⟨d, he, hd⟩ := next_dealt hi call
  unfold acceptedBid at hsome
  split at hsome
  · rename_i buyerId sellOrderId bid reply hop hreply
    split at hsome
    · rename_i hsid
      cases hsome
      rw [hop, hreply] at he
      obtain ⟨o, ho, hid, rfl⟩ := he.accepted
      obtain ⟨-, himm, hne, hprice, -⟩ := hd.allowed
      have hauction : o.buyerId ≠ some o.sellerId := by
        rw [SellOrderRow.isImmediate_order] at himm; simpa using himm
      have hne' : u.toInt ≠ o.sellerId := hne
      refine ⟨o, ho, hid.trans hsid, hauction, hne', hprice, mem_of_order ?_, fun w => ?_⟩
      · rw [SellOrderRow.order_setBuyer o hne', hd.market]
        exact List.mem_map.2 ⟨o.order, mem_market.2 ⟨o, ho, rfl⟩, if_pos rfl⟩
      · -- the bidder pays the bid, and whoever stood before gets the old one back
        unfold spent
        simp only [hop, if_pos hsid]
        rw [hd.balance]
        simp only [Market.delta, refund_auction hauction]
        have hgive : give u.toInt st.fundsItemId.toInt b.toInt w.toInt st.fundsItemId.toInt =
            if u = w then b.toInt else 0 := by
          simp only [give, and_true, Int32.toInt_inj, eq_comm]
        rw [hgive]
        omega
    · cases hsome
  · cases hsome

theorem bid_step (id : ℤ) (call : Call) :
    NoBid st id call db ∨ ∃ u b o, call.acceptedBid st id db = some (u, b) ∧ Accepted st id call db u b o := by
  rcases h : call.acceptedBid st id db with _ | ⟨u, b⟩
  · exact .inl (noBid_of_none hi h)
  · obtain ⟨o, ho⟩ := accepted_of_some hi h
    exact .inr ⟨u, b, o, rfl, ho⟩

end Call

/-! ## The history of an auction -/

/-- The call that placed an auction order, at a starting price. -/
def Placed (calls : List Call) (o : SellOrderRow) (start : ℤ) : Prop :=
  ∃ before call after sellerId itemName quantity price, calls = before ++ call :: after ∧
    call.operation = .placeSellOrder .auction sellerId itemName quantity price o.expirationTime ∧
    sellerId.toInt = o.sellerId ∧ quantity.toInt = o.quantity ∧ price.toInt = start ∧
    Gone (reached before).toTables o.id ∧ ∃ o₀ ∈ (reached (before ++ [call])).sellOrders, o₀.id = o.id ∧ o₀.price = start

/-- The last of the accepted bids stands, and it is the highest. -/
def Standing (start : ℤ) (bids : List (UserId × Int32)) (o : SellOrderRow) : Prop :=
  (bids = [] ∧ o.buyerId = none ∧ o.price = start) ∨
    ∃ earlier u b, bids = earlier ++ [(u, b)] ∧ o.buyerId = some u.toInt ∧ o.price = b.toInt ∧ start < b.toInt ∧
      ∀ x ∈ earlier, x.2.toInt < b.toInt

/-- What the calls of a run have made of an auction order. -/
structure History (calls : List Call) (o : SellOrderRow) (start : ℤ) : Prop where
  placed : Placed calls o start
  standing : Standing start (Call.acceptedBids Storage.initial o.id Database.initial calls) o
  outlay : ∀ w : UserId, Call.outlay Storage.initial o.id w Database.initial calls =
    if o.buyerId = some w.toInt then o.price else 0

theorem Placed.concat {calls : List Call} {o o' : SellOrderRow} {start : ℤ} (h : Placed calls o start)
    (hc : o.Continues o') (call : Call) : Placed (calls ++ [call]) o' start := by
  obtain ⟨before, c, after, sellerId, itemName, quantity, price, rfl, hop, hs, hq, hp, hg, ho₀⟩ := h
  refine ⟨before, c, after ++ [call], sellerId, itemName, quantity, price, by simp, ?_, ?_, ?_, hp, ?_, ?_⟩
  · rw [hop, hc.expirationTime]
  · rw [hs, hc.seller]
  · rw [hq, hc.quantity]
  · rw [hc.id]; exact hg
  · rw [hc.id]; exact ho₀

theorem Standing.price_le {start : ℤ} {bids : List (UserId × Int32)} {o : SellOrderRow} (h : Standing start bids o) :
    start ≤ o.price ∧ ∀ x ∈ bids, x.2.toInt ≤ o.price := by
  rcases h with ⟨rfl, -, hp⟩ | ⟨earlier, u, b, rfl, -, hp, hs, he⟩
  · exact ⟨hp.ge, by simp⟩
  · refine ⟨by omega, fun x hx => ?_⟩
    rcases List.mem_append.1 hx with hx | hx
    · have := he x hx; omega
    · rw [List.mem_singleton.1 hx, hp]

/-- A higher bid takes its place. -/
theorem Standing.raise {start : ℤ} {bids : List (UserId × Int32)} {o : SellOrderRow} (h : Standing start bids o)
    (u : UserId) {b : Int32} (hb : o.price < b.toInt) :
    Standing start (bids ++ [(u, b)]) (o.setBuyer u.toInt b.toInt) := by
  obtain ⟨h1, h2⟩ := h.price_le
  exact .inr ⟨bids, u, b, rfl, rfl, rfl, by omega, fun x hx => by have := h2 x hx; omega⟩

/-- Nobody has bid on an id that was never given. -/
theorem no_bids (calls : List Call) : ∀ id, (reached calls).sellOrdersSeq < id →
    Call.acceptedBids Storage.initial id Database.initial calls = [] ∧
      ∀ w, Call.outlay Storage.initial id w Database.initial calls = 0 := by
  induction calls using List.reverseRecOn with
  | nil => exact fun id _ => ⟨rfl, fun w => rfl⟩
  | append_singleton calls call ih =>
    intro id hid
    have hi := reached_invariant calls
    have hle := (Call.market_extends hi call).issued
    have hseq : (reached calls).sellOrdersSeq < id := by
      rw [reached_concat] at hid
      exact hle.trans_lt hid
    obtain ⟨h1, h2⟩ := ih id hseq
    -- an accepted bid is on an order of the table, whose id was given
    rcases Call.bid_step hi id call with hno | ⟨u, b, o, -, ha⟩
    · refine ⟨?_, fun w => ?_⟩
      · have : call.acceptedBid Storage.initial id (Call.run Storage.initial Database.initial calls) = none := hno.none
        rw [Call.acceptedBids_concat, h1, this]
        rfl
      · have : call.spent Storage.initial id w (Call.run Storage.initial Database.initial calls) = 0 := hno.spent w
        rw [Call.outlay_concat, h2, this]
        rfl
    · have := hi.issued o ha.mem
      rw [ha.order] at this
      omega

theorem buyer_none {o : SellOrderRow} (hb : o.buyerId ≠ some o.sellerId) (h : o.order.bidder = none) :
    o.buyerId = none := by
  rw [SellOrderRow.bidder_order] at h
  rcases hbuyer : o.buyerId with _ | b
  · rfl
  · rw [(hasBid_iff o).2 ⟨b, hbuyer, fun e => hb (by rw [hbuyer, e])⟩, if_pos rfl, hbuyer] at h
    cases h

section
variable {calls : List Call} {call : Call} {o : SellOrderRow} {start : ℤ}

/-- A call that is no accepted bid on the order adds nothing to its history. -/
theorem History.keep (h : History calls o start) (hno : NoBid Storage.initial o.id call (reached calls)) :
    History (calls ++ [call]) o start := by
  have hnone : call.acceptedBid Storage.initial o.id (Call.run Storage.initial Database.initial calls) = none :=
    hno.none
  have hspent : ∀ w, call.spent Storage.initial o.id w (Call.run Storage.initial Database.initial calls) = 0 :=
    hno.spent
  refine ⟨h.placed.concat (.refl o) call, ?_, fun w => ?_⟩
  · rw [Call.acceptedBids_concat, hnone, Option.toList_none, List.append_nil]
    exact h.standing
  · rw [Call.outlay_concat, hspent, h.outlay, Int.add_zero]

/-- An accepted bid is the last of the history: the bidder pays it and the previous bidder gets the
previous bid back. -/
theorem History.raise (h : History calls o start) {u : UserId} {b : Int32}
    (hsome : call.acceptedBid Storage.initial o.id (reached calls) = some (u, b))
    (ha : Accepted Storage.initial o.id call (reached calls) u b o)
    (hc : o.Continues (o.setBuyer u.toInt b.toInt)) :
    History (calls ++ [call]) (o.setBuyer u.toInt b.toInt) start := by
  have hsome' : call.acceptedBid Storage.initial o.id (Call.run Storage.initial Database.initial calls) = some (u, b) :=
    hsome
  refine ⟨h.placed.concat hc call, ?_, fun w => ?_⟩
  · show Standing start (Call.acceptedBids _ o.id _ _) _
    rw [Call.acceptedBids_concat, hsome']
    exact h.standing.raise u ha.price
  · have hspent : call.spent Storage.initial o.id w (Call.run Storage.initial Database.initial calls) = _ := ha.spent w
    show Call.outlay _ o.id _ _ _ = if some u.toInt = some w.toInt then b.toInt else 0
    rw [Call.outlay_concat, h.outlay, hspent]
    simp only [Option.some.injEq, Int32.toInt_inj]
    omega

/-- The call that places an auction order begins its history. -/
theorem History.begin (ho : o ∈ (reached (calls ++ [call])).sellOrders) (hg : Gone (reached calls).toTables o.id)
    (hauction : o.buyerId ≠ some o.sellerId) : History (calls ++ [call]) o o.price := by
  obtain ⟨d, he, hd⟩ := Call.next_dealt (reached_invariant calls) call
  have hm : o.order ∈ (reached calls).market.bookAfter d := by
    have : o.order ∈ (call.next Storage.initial (reached calls)).market.book :=
      mem_market.2 ⟨o, by rw [← reached_concat]; exact ho, rfl⟩
    rwa [hd.market] at this
  rcases Market.mem_bookAfter hm with h | ⟨fee, spoiled, rfl⟩ | ⟨u, x, b, rfl, h⟩
  · exact absurd rfl (hg o (mem_of_order h))
  · -- the call placed the order, under an id above all that were given
    obtain ⟨hlt, -, -, -, hbidder, -⟩ := hd.allowed
    obtain ⟨hbids, hpaid⟩ := no_bids calls o.id hlt
    obtain ⟨orderType, sellerId, itemName, quantity, price, itemId, expiration, hop, -, horder⟩ := he.of_place rfl
    have hnone : call.acceptedBid Storage.initial o.id (Call.run Storage.initial Database.initial calls) = none := by
      unfold Call.acceptedBid; rw [hop]
    have hspent : ∀ w, call.spent Storage.initial o.id w (Call.run Storage.initial Database.initial calls) = 0 :=
      fun w => by unfold Call.spent; rw [hop]
    have hbuyer := buyer_none hauction hbidder
    have htype : orderType = .auction := by
      have hterms : o.order.isImmediate = false := by
        rw [SellOrderRow.isImmediate_order]; simpa using hauction
      rw [horder] at hterms
      cases orderType with
      | immediate => cases hterms
      | auction => rfl
    have hexpires : o.expirationTime = expiration := congrArg Order.expires horder
    refine ⟨⟨calls, call, [], sellerId, itemName, quantity, price, rfl, ?_, (congrArg Order.seller horder).symm,
      (congrArg Order.quantity horder).symm, (congrArg Order.price horder).symm, hg, o, ho, rfl, rfl⟩,
      .inl ⟨?_, hbuyer, rfl⟩, fun w => ?_⟩
    · rw [hop, htype, hexpires]
    · rw [Call.acceptedBids_concat, hbids, hnone]; rfl
    · rw [Call.outlay_concat, hpaid, hspent, hbuyer]; rfl
  · obtain ⟨y, hy, rfl⟩ := mem_market.1 hd.allowed.1
    exact absurd (congrArg Order.id h).symm (hg y hy)

end

/-- Every auction order has a history. -/
theorem history (calls : List Call) : ∀ o ∈ (reached calls).sellOrders, o.buyerId ≠ some o.sellerId →
    ∃ start, History calls o start := by
  induction calls using List.reverseRecOn with
  | nil => intro o ho; simp [reached, Database.initial] at ho
  | append_singleton calls call ih =>
    intro o' ho' hauction
    have hi := reached_invariant calls
    by_cases hg : Gone (reached calls).toTables o'.id
    · exact ⟨o'.price, History.begin ho' hg hauction⟩
    simp only [Gone, not_forall, not_not] at hg
    obtain ⟨o, ho, hid⟩ := hg
    rw [reached_concat] at ho'
    have hc : o.Continues o' := Call.continues_run hi [call] ho ho' hid.symm
    have hauction₀ : o.buyerId ≠ some o.sellerId := fun h => hauction
      ((type_innerInfo (call.next Storage.initial (reached calls)).valid ho').1
        (hc.type.trans ((type_innerInfo (reached calls).valid ho).2 h)))
    -- the order was in the table before the last call, and has a history up to it
    obtain ⟨start, h⟩ := ih o ho hauction₀
    rcases Call.bid_step hi o.id call with hno | ⟨u, b, x, hsome, ha⟩
    · rw [hno.same o ho rfl o' ho' hid.symm]
      exact ⟨start, h.keep hno⟩
    · obtain rfl := ids_order (reached calls).valid ho ha.mem ha.order
      obtain rfl := ids_order (call.next Storage.initial (reached calls)).valid ha.mem' ho' hid.symm
      exact ⟨start, h.raise hsome ha hc⟩

/-! ## The settlement of an auction -/

/-- Any tick that ends the order adds the share to what all other expired orders deliver, and a tick
without refusals at or after its expiration does end it. -/
structure Delivers (calls : List Call) (o : SellOrderRow) (share : ℤ → ℤ → ℤ) : Prop where
  share : ∀ (call : Call) (now : ℤ), call.operation = .processExpiredSellOrders now →
    Gone (call.next Storage.initial (reached calls)).toTables o.id →
      ∀ v j, (call.next Storage.initial (reached calls)).balance v j = (reached calls).balance v j + share v j +
        (((expired now (reached calls).toTables).filter fun x => decide (x.id ≠ o.id)).map fun x =>
          payout Storage.initial.fundsItemId.toInt x.order v j).sum
  ends : ∀ now, o.expirationTime ≤ now →
    Gone (Call.next Storage.initial ⟨.processExpiredSellOrders now, []⟩ (reached calls)).toTables o.id

theorem settle_delta {st : Storage} {t : Tables} (hv : t.Valid) {o : SellOrderRow} (ho : o ∈ t.sellOrders) {now : ℤ}
    (hexp : o.expirationTime ≤ now) (v j : ℤ) :
    t.market.delta st.fundsItemId.toInt (.settle now) v j = payout st.fundsItemId.toInt o.order v j +
      (((expired now t).filter fun x => decide (x.id ≠ o.id)).map fun x =>
        payout st.fundsItemId.toInt x.order v j).sum := by
  have hids : ((t.market.due now).map (·.id)).Nodup := by
    rw [due_market, List.map_map]
    exact hv.sellOrderIds.sublist (List.filter_sublist.map _)
  have hm : o.order ∈ t.market.due now := by
    rw [due_market]
    exact List.mem_map_of_mem (List.mem_filter.2 ⟨ho, by simpa using hexp⟩)
  have hsum := sum_remove (fun x => payout st.fundsItemId.toInt x v j) hids hm
  have hrest : ((t.market.due now).filter fun x => decide (x.id ≠ o.order.id)) =
      ((expired now t).filter fun x => decide (x.id ≠ o.id)).map SellOrderRow.order := by
    rw [due_market, List.filter_map]
    rfl
  rw [hrest, List.map_map] at hsum
  simp only [Function.comp_def] at hsum
  simp only [Market.delta]
  omega

theorem delivers {calls : List Call} {o : SellOrderRow} (ho : o ∈ (reached calls).sellOrders) :
    Delivers calls o (payout Storage.initial.fundsItemId.toInt o.order) := by
  have hi := reached_invariant calls
  have hv := (reached calls).valid
  refine ⟨fun call now hop hg v j => ?_, fun now hexp => ?_⟩
  · obtain ⟨d, he, hd⟩ := Call.next_dealt hi call
    have hg' : ∀ x ∈ (reached calls).market.bookAfter d, x.id ≠ o.order.id := by
      have := gone_market.2 hg
      rwa [hd.market] at this
    cases Market.fate (market_wf hv hi) hd.allowed (mem_market.2 ⟨o, ho, rfl⟩) with
    | stays h => exact absurd rfl (hg' o.order h)
    | bid u b hdeal h => exact (hg' _ h rfl).elim
    | bought u hdeal h =>
      obtain ⟨_, _, _, hop', -⟩ := he.of_purchase hdeal
      rw [hop] at hop'; cases hop'
    | settled now' hdeal hexp h =>
      have hop' := he.of_settle hdeal
      rw [hop] at hop'
      obtain rfl : now = now' := by cases hop'; rfl
      rw [hd.balance, hdeal, settle_delta hv ho hexp, Int.add_assoc]
  · have hnext : (Call.next Storage.initial ⟨.processExpiredSellOrders now, []⟩ (reached calls)).toTables =
        settledTables Storage.initial now (reached calls).toTables := by
      rw [Call.next_calm]
      simp only [Operation.exec, Sql.after_map, processExpiredSellOrders_calm hi now]
      rfl
    rw [hnext]
    intro x hx hid
    obtain ⟨hx, hx'⟩ := List.mem_filter.1 hx
    obtain rfl := ids_order hv ho hx hid
    simp [hexp] at hx'

/-- Whatever was called, an auction order in the table was placed at a starting price, and either no
bid on it was accepted, nobody paid anything, and its settlement returns its items to the seller;
or the last accepted bid is higher than the starting price and every other accepted bid, its bidder
paid exactly that bid, everyone else nothing, and the settlement hands the items to that bidder and
the bid to the seller. -/
theorem auction_to_highest_bid (calls : List Call) (o : SellOrderRow) (ho : o ∈ (reached calls).sellOrders)
    (htype : (innerInfo o).type = .auction) :
    let bids := Call.acceptedBids Storage.initial o.id Database.initial calls
    let paid (w : UserId) := Call.outlay Storage.initial o.id w Database.initial calls
    ∃ start, Placed calls o start ∧
      ((bids = [] ∧ (∀ w, paid w = 0) ∧ Delivers calls o (give o.sellerId o.itemId o.quantity)) ∨
        ∃ earlier winner b, bids = earlier ++ [(winner, b)] ∧ start < b.toInt ∧ (∀ x ∈ earlier, x.2.toInt < b.toInt) ∧
          paid winner = b.toInt ∧ (∀ w, w ≠ winner → paid w = 0) ∧
          Delivers calls o fun v j => give winner.toInt o.itemId o.quantity v j +
            give o.sellerId Storage.initial.fundsItemId.toInt b.toInt v j) := by
  intro bids paid
  have hauction : o.buyerId ≠ some o.sellerId := fun h => by
    rw [(type_innerInfo (reached calls).valid ho).2 h] at htype; cases htype
  obtain ⟨start, hp, hs, hpaid⟩ := history calls o ho hauction
  have hd := delivers ho
  refine ⟨start, hp, ?_⟩
  rcases hs with ⟨hb, hbuyer, -⟩ | ⟨earlier, winner, b, hb, hbuyer, hprice, hstart, hall⟩
  · have hpayout : payout Storage.initial.fundsItemId.toInt o.order = give o.sellerId o.itemId o.quantity := by
      funext v j
      have : o.order.bidder = none := by simp [SellOrderRow.bidder_order, hbuyer]
      unfold payout
      rw [this]
      rfl
    refine .inl ⟨hb, fun w => ?_, hpayout ▸ hd⟩
    rw [show paid w = _ from hpaid w, hbuyer]; rfl
  · have hne : winner.toInt ≠ o.sellerId := fun e => hauction (by rw [hbuyer, e])
    have hpayout : payout Storage.initial.fundsItemId.toInt o.order = fun v j =>
        give winner.toInt o.itemId o.quantity v j + give o.sellerId Storage.initial.fundsItemId.toInt b.toInt v j := by
      funext v j
      have : o.order.bidder = some winner.toInt := by
        rw [SellOrderRow.bidder_order, (hasBid_iff o).2 ⟨_, hbuyer, hne⟩, if_pos rfl, hbuyer]
      unfold payout
      rw [this, ← hprice]
      rfl
    refine .inr ⟨earlier, winner, b, hb, hstart, hall, ?_, fun w hw => ?_, hpayout ▸ hd⟩
    · rw [show paid winner = _ from hpaid winner, hbuyer, if_pos rfl, hprice]
    · rw [show paid w = _ from hpaid w, hbuyer, if_neg]
      intro h
      exact hw (Int32.toInt_inj.1 (Option.some.inj h)).symm

/-- alice's sword goes to carol for her bid of 40. -/
theorem sword_to_highest_bid :
    let o : SellOrderRow := ⟨1, 1, 2, 1, 40, 300, some 3⟩
    o ∈ (reached auctionRun).sellOrders ∧ ∃ start, Placed auctionRun o start ∧ start < 40 ∧
      Call.outlay Storage.initial 1 3 Database.initial auctionRun = 40 ∧
      Delivers auctionRun o fun v j => give 3 2 1 v j + give 1 1 40 v j := by
  intro o
  have ho : o ∈ (reached auctionRun).sellOrders := by decide +kernel
  have hbids : Call.acceptedBids Storage.initial o.id Database.initial auctionRun = [(2, 30)] ++ [(3, 40)] := by
    decide +kernel
  obtain ⟨start, hp, ⟨hb, -⟩ | ⟨earlier, winner, b, hb, hstart, -, hpaid, -, hd⟩⟩ :=
    auction_to_highest_bid auctionRun o ho (by decide +kernel)
  · rw [hbids] at hb; cases hb
  · obtain ⟨rfl, h⟩ := List.append_inj' (hbids.symm.trans hb) rfl
    cases h
    exact ⟨ho, start, hp, hstart, hpaid, hd⟩

end AuctionHouse
