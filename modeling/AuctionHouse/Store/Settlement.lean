/-
The settlement of expired orders in one aggregated statement, and one order at a time. Both credit
the same amounts, so they give the same inventories, in whatever order the orders are taken.
-/
import AuctionHouse.Store.Inventory

namespace AuctionHouse

open Storage

/-! ## One order at a time -/

/-- The settlement of one order: its items go back to the seller, or to the bidder and its price to
the seller's funds; and the order is deleted. -/
def settleOne (fundsItemId : ℤ) (o : SellOrderRow) (t : Tables) : Tables :=
  let settled := match o.buyerId with
    | none => addItem o.sellerId o.itemId o.quantity t
    | some b =>
      if b = o.sellerId then addItem o.sellerId o.itemId o.quantity t
      else addItem o.sellerId fundsItemId o.price (addItem b o.itemId o.quantity t)
  removeSellOrder o.id settled

/-- The settlement of orders one after another. -/
def settleEach (fundsItemId : ℤ) (orders : List SellOrderRow) (t : Tables) : Tables :=
  orders.foldl (fun t o => settleOne fundsItemId o t) t

/-! ## What a settlement credits -/

def itemPosting (o : SellOrderRow) : (ℤ × ℤ) × ℤ := ((itemsTo o, o.itemId), o.quantity)

def pricePosting (fundsItemId : ℤ) (o : SellOrderRow) : (ℤ × ℤ) × ℤ := ((o.sellerId, fundsItemId), o.price)

/-- The amounts an order's settlement credits. -/
def postings (fundsItemId : ℤ) (o : SellOrderRow) : List ((ℤ × ℤ) × ℤ) :=
  itemPosting o :: if hasBid o then [pricePosting fundsItemId o] else []

theorem hasBid_iff (o : SellOrderRow) : hasBid o = true ↔ ∃ b, o.buyerId = some b ∧ b ≠ o.sellerId := by
  unfold hasBid
  rcases o.buyerId with _ | b <;> simp

theorem itemsTo_of_hasBid {o : SellOrderRow} {b : ℤ} (h : o.buyerId = some b) (hb : b ≠ o.sellerId) :
    itemsTo o = b := by
  simp [itemsTo, h, hb]

theorem itemsTo_of_not_hasBid {o : SellOrderRow} (h : hasBid o = false) : itemsTo o = o.sellerId := by
  unfold hasBid at h
  unfold itemsTo
  rcases hb : o.buyerId with _ | b
  · rfl
  · have : b = o.sellerId := by simpa [hb] using h
    simp [this]

theorem inventory_settleOne (f : ℤ) (o : SellOrderRow) (t : Tables) :
    (settleOne f o t).inventory = Sql.creditAll (postings f o) t.inventory := by
  unfold settleOne postings
  show Tables.inventory (match o.buyerId with | none => _ | some b => _) = _
  rcases hb : o.buyerId with _ | b
  · have h : hasBid o = false := by simp [hasBid, hb]
    simp only [h, Bool.false_eq_true, if_false, Sql.creditAll_cons, Sql.creditAll_nil, itemPosting,
      itemsTo_of_not_hasBid h, inventory_addItem]
  · by_cases hs : b = o.sellerId
    · have h : hasBid o = false := by simp [hasBid, hb, hs]
      simp only [hs, if_true, h, Bool.false_eq_true, if_false, Sql.creditAll_cons, Sql.creditAll_nil, itemPosting,
        itemsTo_of_not_hasBid h, inventory_addItem]
    · have h : hasBid o = true := (hasBid_iff o).2 ⟨b, hb, hs⟩
      simp only [hs, if_false, h, if_true, Sql.creditAll_cons, Sql.creditAll_nil, itemPosting, pricePosting,
        itemsTo_of_hasBid hb hs, inventory_addItem]

theorem inventory_settleEach (f : ℤ) : ∀ (orders : List SellOrderRow) (t : Tables),
    (settleEach f orders t).inventory = Sql.creditAll (orders.flatMap (postings f)) t.inventory
  | [], t => rfl
  | o :: orders, t => by
    have ih := inventory_settleEach f orders (settleOne f o t)
    rw [inventory_settleOne, ← Sql.creditAll_append] at ih
    exact ih

theorem settleOne_frame (f : ℤ) (o : SellOrderRow) (t : Tables) :
    (settleOne f o t).users = t.users ∧ (settleOne f o t).items = t.items ∧
      (settleOne f o t).sellOrders = Sql.delete SellOrderRow.id o.id t.sellOrders ∧
      (settleOne f o t).sellOrdersSeq = t.sellOrdersSeq := by
  unfold settleOne
  rcases o.buyerId with _ | b
  · exact ⟨rfl, rfl, rfl, rfl⟩
  · by_cases hs : b = o.sellerId <;> simp only [hs, if_true, if_false] <;> exact ⟨rfl, rfl, rfl, rfl⟩

/-- Settling orders one after another deletes exactly these orders. -/
theorem settleEach_frame (f : ℤ) : ∀ (orders : List SellOrderRow) (t : Tables),
    (settleEach f orders t).users = t.users ∧ (settleEach f orders t).items = t.items ∧
      (settleEach f orders t).sellOrders = t.sellOrders.filter (fun o => decide (o.id ∉ orders.map (·.id))) ∧
      (settleEach f orders t).sellOrdersSeq = t.sellOrdersSeq
  | [], t => by simp [settleEach]
  | o :: orders, t => by
    obtain ⟨h1, h2, h3, h4⟩ := settleEach_frame f orders (settleOne f o t)
    obtain ⟨g1, g2, g3, g4⟩ := settleOne_frame f o t
    refine ⟨h1.trans g1, h2.trans g2, ?_, h4.trans g4⟩
    show (settleEach f orders (settleOne f o t)).sellOrders = _
    rw [h3, g3, Sql.delete, List.filter_filter]
    congr 1
    funext x
    by_cases hx : x.id = o.id <;> simp [hx]

theorem settleOne_valid {t : Tables} (hv : t.Valid) {f : ℤ} {o : SellOrderRow} (ho : t.SellOrderOk o)
    (hf : t.HasItem f) : (settleOne f o t).Valid := by
  unfold settleOne
  refine Tables.Valid.removeSellOrder ?_ o.id
  rcases hb : o.buyerId with _ | b
  · exact hv.addItem ho.quantity.le ho.seller ho.item
  · by_cases hs : b = o.sellerId
    · simp only [hs, if_true]
      exact hv.addItem ho.quantity.le ho.seller ho.item
    · simp only [hs, if_false]
      exact (hv.addItem ho.quantity.le (ho.buyer b hb) ho.item).addItem ho.price.le ho.seller hf

theorem settleEach_valid {f : ℤ} : ∀ {orders : List SellOrderRow} {t : Tables}, t.Valid →
    (∀ o ∈ orders, t.SellOrderOk o) → t.HasItem f → (settleEach f orders t).Valid
  | [], _, hv, _, _ => hv
  | o :: orders, t, hv, ho, hf => by
    obtain ⟨g1, g2, -, -⟩ := settleOne_frame f o t
    have hu : ∀ id, (settleOne f o t).HasUser id ↔ t.HasUser id := fun id => by unfold Tables.HasUser; rw [g1]
    have hi : ∀ id, (settleOne f o t).HasItem id ↔ t.HasItem id := fun id => by unfold Tables.HasItem; rw [g2]
    show (settleEach f orders (settleOne f o t)).Valid
    refine settleEach_valid (settleOne_valid hv (ho o (List.mem_cons_self ..)) hf) (fun x hx => ?_) ((hi f).2 hf)
    have := ho x (List.mem_cons_of_mem _ hx)
    exact ⟨this.quantity, this.price, (hu _).2 this.seller, fun b hb => (hu b).2 (this.buyer b hb), (hi _).2 this.item⟩

/-! ## All at once -/

theorem postings_perm (f : ℤ) : ∀ orders : List SellOrderRow,
    (orders.flatMap (postings f)).Perm
      (orders.map itemPosting ++ (orders.filter hasBid).map (pricePosting f))
  | [] => by simp
  | o :: orders => by
    have ih := postings_perm f orders
    simp only [List.flatMap_cons, postings, List.map_cons, List.filter_cons, List.cons_append]
    refine List.Perm.cons _ ?_
    by_cases h : hasBid o = true
    · simp only [h, if_true, List.map_cons, List.singleton_append]
      exact (ih.cons _).trans List.perm_middle.symm
    · simp only [h, Bool.false_eq_true, if_false, List.nil_append]
      exact ih

theorem aggregatedOrders_eq (f now : ℤ) (t : Tables) :
    aggregatedOrders f now t = Sql.groupSum ((expired now t).map itemPosting) ++
      Sql.groupSum (((expired now t).filter hasBid).map (pricePosting f)) := by
  unfold aggregatedOrders
  rw [Sql.groupSum_map (f := fun u : ℤ => (u, f)) (fun a b h => (Prod.mk.inj h).1), List.map_map]
  rfl

/-- Where no expired order sells the funds item, no two aggregated rows have the same key. -/
theorem keys_disjoint {f now : ℤ} {t : Tables} (hi : ∀ o ∈ t.sellOrders, o.itemId ≠ f) :
    ∀ k ∈ ((expired now t).map itemPosting).map (·.1),
      k ∉ (((expired now t).filter hasBid).map (pricePosting f)).map (·.1) := by
  rintro k hk hk'
  simp only [List.map_map, List.mem_map, Function.comp_apply, itemPosting, pricePosting] at hk hk'
  obtain ⟨o, ho, rfl⟩ := hk
  obtain ⟨o', -, he⟩ := hk'
  exact hi o (List.mem_filter.1 ho).1 (Prod.mk.inj he).2.symm

/-- The rows of the settlement's INSERT OR REPLACE. -/
theorem settleItems_rows {f now : ℤ} {t : Tables} (hv : t.Valid) :
    (settleItems f now t).userItems = Sql.replaceAll UserItemRow.key
      ((aggregatedOrders f now t).map fun p =>
        (⟨p.1.1, p.1.2, (t.inventory p.1).getD 0 + p.2⟩ : UserItemRow)) t.userItems := by
  unfold settleItems
  simp only [Sql.leftJoin_key hv.userItemKeys, List.map_map]
  rfl

/-- The aggregated statement credits what every expired order delivers. -/
theorem inventory_settleItems {f now : ℤ} {t : Tables} (hv : t.Valid) (hi : ∀ o ∈ t.sellOrders, o.itemId ≠ f) :
    (settleItems f now t).inventory = Sql.creditAll ((expired now t).flatMap (postings f)) t.inventory := by
  funext k
  unfold Tables.inventory
  rw [settleItems_rows hv]
  have hd := @keys_disjoint f now t hi
  have hn := Sql.nodup_groupSum_append hd
  rw [← aggregatedOrders_eq] at hn
  have := Sql.amounts_replaceAll UserItemRow.key UserItemRow.quantity (fun k a => ⟨k.1, k.2, a⟩)
    (fun _ _ => rfl) (fun _ _ => rfl) hn t.userItems k
  refine this.trans ?_
  rw [aggregatedOrders_eq, Sql.find_groupSum_append hd, Sql.creditAll_perm (postings_perm f _)]

theorem creditAll_ok {t : Tables} {f : ℤ} {orders : List SellOrderRow} (ho : ∀ o ∈ orders, t.SellOrderOk o)
    (hf : (∃ o ∈ orders, hasBid o) → t.HasItem f) :
    ∀ p ∈ orders.map itemPosting ++ (orders.filter hasBid).map (pricePosting f),
      0 ≤ p.2 ∧ t.HasUser p.1.1 ∧ t.HasItem p.1.2 := by
  intro p hp
  rcases List.mem_append.1 hp with hp | hp
  · obtain ⟨o, hm, rfl⟩ := List.mem_map.1 hp
    have hok := ho o hm
    refine ⟨hok.quantity.le, ?_, hok.item⟩
    rcases h : hasBid o
    · show t.HasUser (itemsTo o)
      rw [itemsTo_of_not_hasBid h]; exact hok.seller
    · obtain ⟨b, hb, hs⟩ := (hasBid_iff o).1 h
      show t.HasUser (itemsTo o)
      rw [itemsTo_of_hasBid hb hs]; exact hok.buyer b hb
  · obtain ⟨o, hm, rfl⟩ := List.mem_map.1 hp
    obtain ⟨hm, hb⟩ := List.mem_filter.1 hm
    exact ⟨(ho o hm).price.le, (ho o hm).seller, hf ⟨o, hm, hb⟩⟩

/-- The settlement's statement satisfies the schema, provided the funds item exists when a price is
to be credited. -/
theorem settleItems_valid {f now : ℤ} {t : Tables} (hv : t.Valid)
    (hf : (∃ o ∈ expired now t, hasBid o) → t.HasItem f) : (settleItems f now t).Valid := by
  have hok := creditAll_ok (fun o ho => hv.sellOrders o (List.mem_filter.1 ho).1) hf
  have hgroup : ∀ (ps : List ((ℤ × ℤ) × ℤ)), (∀ p ∈ ps, 0 ≤ p.2 ∧ t.HasUser p.1.1 ∧ t.HasItem p.1.2) →
      ∀ p ∈ Sql.groupSum ps, 0 ≤ p.2 ∧ t.HasUser p.1.1 ∧ t.HasItem p.1.2 := by
    intro ps hps p hp
    obtain ⟨k, hk, rfl⟩ := List.mem_map.1 hp
    obtain ⟨p', hp', rfl⟩ := List.mem_map.1 (List.mem_dedup.1 hk)
    exact ⟨Sql.total_nonneg (fun p h => (hps p h).1) _, (hps p' hp').2⟩
  have hagg : ∀ p ∈ aggregatedOrders f now t, 0 ≤ p.2 ∧ t.HasUser p.1.1 ∧ t.HasItem p.1.2 := by
    intro p hp
    rw [aggregatedOrders_eq] at hp
    rcases List.mem_append.1 hp with hp | hp
    · exact hgroup _ (fun p h => hok p (List.mem_append_left _ h)) p hp
    · exact hgroup _ (fun p h => hok p (List.mem_append_right _ h)) p hp
  have hrows := @settleItems_rows f now t hv
  have hshape : settleItems f now t = { t with userItems := (settleItems f now t).userItems } := rfl
  rw [hshape, hrows]
  refine hv.withUserItems (Sql.nodup_replaceAll _ _ hv.userItemKeys) fun r hr => ?_
  rcases Sql.mem_replaceAll _ hr with hr | hr
  · obtain ⟨p, hp, rfl⟩ := List.mem_map.1 hr
    obtain ⟨h1, h2, h3⟩ := hagg p hp
    exact ⟨add_nonneg (Tables.balance_nonneg hv p.1.1 p.1.2) h1, h2, h3⟩
  · exact hv.userItems r hr

end AuctionHouse
