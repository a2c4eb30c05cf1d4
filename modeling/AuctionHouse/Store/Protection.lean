/-
Nobody can take what another user owns: a call a user did not issue takes nothing from the user,
and pays for every order of the user that it ends and every standing bid that it ends.
-/
import AuctionHouse.Market.Gain
import AuctionHouse.Store.Orders

namespace AuctionHouse

open Storage AuctionService

/-- The issuer of an operation is the party of its deal. -/
theorem Explains.party {st : Storage} {t : Tables} {operation : Operation} {reply : Except Error Reply}
    {d : Deal ℤ ℤ} (h : Explains st t operation reply d) {v : UserId} (hv : operation.issuer ≠ some v) :
    d.party ≠ some v.toInt := by
  have hne : ∀ u : UserId, some u ≠ some v → some u.toInt ≠ some v.toInt := fun u hu he =>
    hu (congrArg some (Int32.toInt_inj.1 (Option.some.inj he)))
  cases h with
  | login => nofun
  | failed => nofun
  | unreported => nofun
  | deposit => exact hne _ hv
  | withdraw => exact hne _ hv
  | place => exact hne _ hv
  | purchase => exact hne _ hv
  | bid => exact hne _ hv
  | settle => nofun

/-- What a user must gain from an order when it leaves the book or when the user's bid no longer
stands. -/
structure Protected (st : Storage) (calls : List Call) (db db' : Database) (call : Call) (v : ℤ)
    (gain : SellOrderRow → ℤ → ℤ) : Prop where
  gains : ∀ itemId, db'.balance v itemId = db.balance v itemId + (db.sellOrders.map fun o => gain o itemId).sum
  nonneg : ∀ o ∈ db.sellOrders, ∀ itemId, 0 ≤ gain o itemId
  /-- An order of the user left: at least the price it was ever listed at, or its items back. -/
  seller : ∀ o ∈ db.sellOrders, o.sellerId = v → Gone db'.toTables o.id →
    (∀ earlier, earlier <+: calls → ∀ o₀ ∈ (reached earlier).sellOrders, o₀.id = o.id →
      o₀.price ≤ gain o st.fundsItemId.toInt) ∨ gain o o.itemId = o.quantity
  /-- The user was the highest bidder and is no longer: the bid back, or the items. -/
  bidder : ∀ o ∈ db.sellOrders, o.buyerId = some v → o.sellerId ≠ v →
    (∀ o' ∈ db'.sellOrders, o'.id = o.id → o'.buyerId ≠ some v) →
      gain o st.fundsItemId.toInt = o.price ∨ gain o o.itemId = o.quantity
  /-- Only a settlement tick brings gains from more than one order. -/
  single : (∀ unixNow, call.operation ≠ .processExpiredSellOrders unixNow) → ∀ o ∈ db.sellOrders, ∀ x ∈ db.sellOrders,
    ∀ i j, gain o i ≠ 0 → gain x j ≠ 0 → o = x

/-- The bidder of an auction is its `buyer_id`. -/
theorem bidder_of_buyer {o : SellOrderRow} {v : ℤ} (hb : o.buyerId = some v) (hv : o.sellerId ≠ v) :
    o.order.bidder = some v := by
  rw [SellOrderRow.bidder_order, (hasBid_iff o).2 ⟨v, hb, hv.symm⟩, hb]; rfl

theorem buyer_of_bidder {o : SellOrderRow} {v : ℤ} (h : o.order.bidder = some v) : o.buyerId = some v := by
  rw [SellOrderRow.bidder_order] at h
  split at h
  · exact h
  · cases h

/-- A call the user did not issue takes nothing from the user, and the user gains what every ended
order and every ended bid of the user must pay. -/
theorem property_protected (calls : List Call) (call : Call) (v : UserId) (hv : call.operation.issuer ≠ some v) :
    let st := Storage.initial
    let db := reached calls
    let db' := call.next st db
    (∀ itemId, db.balance v.toInt itemId ≤ db'.balance v.toInt itemId) ∧
      ∃ gain, Protected st calls db db' call v.toInt gain := by
  intro st db db'
  have hi : Invariant st db.toTables := reached_invariant calls
  obtain ⟨d, he, hd⟩ := Call.next_dealt hi call
  have hw := market_wf db.valid hi
  have hparty := he.party hv
  have hm : ∀ o ∈ db.sellOrders, o.order ∈ db.market.book := fun o ho => mem_market.2 ⟨o, ho, rfl⟩
  have hbook : db'.market.book = db.market.bookAfter d := congrArg Market.book hd.market
  have hgains : ∀ itemId, db'.balance v.toInt itemId = db.balance v.toInt itemId +
      (db.sellOrders.map fun o => d.gain st.fundsItemId.toInt o.order v.toInt itemId).sum := by
    intro itemId
    rw [hd.balance, Market.delta_eq_gains hw hd.allowed hparty]
    show _ + ((db.sellOrders.map SellOrderRow.order).map _).sum = _
    rw [List.map_map]
    rfl
  have hnonneg : ∀ o ∈ db.sellOrders, ∀ itemId, 0 ≤ d.gain st.fundsItemId.toInt o.order v.toInt itemId :=
    fun o ho itemId => Market.gain_nonneg hw (hm o ho) _ _
  refine ⟨fun itemId => ?_, _, hgains, hnonneg, fun o ho hseller hg => ?_, fun o ho hbuyer hne hg => ?_, ?_⟩
  · rw [hgains]
    refine le_add_of_nonneg_right (List.sum_nonneg fun a ha => ?_)
    obtain ⟨o, ho, rfl⟩ := List.mem_map.1 ha
    exact hnonneg o ho itemId
  · -- the price an order ends at is at least every price it was ever listed at
    have hg' : ∀ x ∈ db.market.bookAfter d, x.id ≠ o.order.id := by
      rw [← hbook]; exact gone_market.2 hg
    have hseller' : o.order.seller = v.toInt := hseller
    rcases Market.gain_seller hw hd.allowed (hm o ho) hg' with h | h
    · left
      rintro earlier ⟨rest, rfl⟩ o₀ ho₀ hid
      rw [hseller'] at h
      rw [h]
      have ho' : o ∈ (Call.run st (reached earlier) rest).sellOrders := by
        have : db = Call.run st (reached earlier) rest := Call.run_append ..
        rw [← this]; exact ho
      have hc := Call.continues_run (reached_invariant earlier) rest ho₀ ho' hid.symm
      rcases hc.price with rfl | ⟨-, hp⟩
      · exact le_rfl
      · exact hp.le
    · right
      rw [hseller'] at h
      exact h
  · refine Market.gain_bidder hw hd.allowed (hm o ho) (bidder_of_buyer hbuyer hne) fun x hx hid hb => ?_
    rw [← hbook] at hx
    obtain ⟨o', ho', rfl⟩ := mem_market.1 hx
    exact hg o' ho' hid (buyer_of_bidder hb)
  · intro hop o ho x hx i j h1 h2
    have hnot : ∀ now, d ≠ .settle now := fun now hdeal => hop now (he.of_settle hdeal)
    exact ids_order db.valid hx ho (Market.gain_single hnot h1 h2)

/-- The settlement of alice's auction, which she does not issue. -/
theorem seller_protected :
    let call : Call := ⟨.processExpiredSellOrders 300, []⟩
    let db' := call.next Storage.initial (reached auctionRun)
    (∀ itemId, (reached auctionRun).balance 1 itemId ≤ db'.balance 1 itemId) ∧
      ∃ gain, Protected Storage.initial auctionRun (reached auctionRun) db' call 1 gain :=
  property_protected auctionRun ⟨.processExpiredSellOrders 300, []⟩ 1 (by decide)

end AuctionHouse
