/-
The listings show what is stored: `view_sell_orders` has one entry for each order, of the type that
purchases and bids go by, and `view_user_items` has one entry for each inventory row, exact when no
item name has a NUL and no quantity is beyond an `int`.
-/
import AuctionHouse.Server.Views
import AuctionHouse.Store.Spending
import Mathlib.Data.List.Forall2
import Mathlib.Data.List.TakeWhile

namespace AuctionHouse

open Storage AuctionService

/-- Of two lists related element by element, every element of one is related to one of the other. -/
theorem forall₂_mem {α β : Type} {R : α → β → Prop} {l : List α} {l' : List β} (h : List.Forall₂ R l l') :
    (∀ a ∈ l, ∃ b ∈ l', R a b) ∧ ∀ b ∈ l', ∃ a ∈ l, R a b := by
  induction h with
  | nil => simp
  | @cons a b l l' hab _ ih =>
    obtain ⟨ih1, ih2⟩ := ih
    constructor
    · intro x hx
      rcases List.mem_cons.1 hx with rfl | hx
      · exact ⟨b, List.mem_cons_self, hab⟩
      · obtain ⟨y, hy, hxy⟩ := ih1 x hx
        exact ⟨y, List.mem_cons_of_mem _ hy, hxy⟩
    · intro y hy
      rcases List.mem_cons.1 hy with rfl | hy
      · exact ⟨a, List.mem_cons_self, hab⟩
      · obtain ⟨x, hx, hxy⟩ := ih2 y hy
        exact ⟨x, List.mem_cons_of_mem _ hx, hxy⟩

/-! ## Inventories -/

/-- The inventory rows of a user. -/
def Tables.itemsOf (t : Tables) (u : ℤ) : List UserItemRow := t.userItems.filter fun r => decide (r.userId = u)

/-- An entry that has the item name and the quantity of a row in full. -/
structure ShowsItem (t : Tables) (r : UserItemRow) (e : UserItemInfo) : Prop where
  name : ∃ i ∈ t.items, i.id = r.itemId ∧ e.itemName = i.name
  quantity : e.quantity.toInt = r.quantity

/-- One entry for each inventory row of a user, which shows it. -/
def ShowsItems (t : Tables) (u : ℤ) (entries : List UserItemInfo) : Prop :=
  ∃ rows, rows.Perm (t.itemsOf u) ∧ List.Forall₂ (ShowsItem t) rows entries

/-- No item name of a user has a NUL and no quantity is beyond an `int`. -/
structure Legible (t : Tables) (u : ℤ) : Prop where
  quantities : ∀ r ∈ t.itemsOf u, r.quantity ≤ intMax
  names : ∀ r ∈ t.itemsOf u, ∀ i ∈ t.items, i.id = r.itemId → (0 : UInt8) ∉ i.name

theorem columnText_eq_iff {s : Bytes} : columnText s = s ↔ (0 : UInt8) ∉ s := by
  unfold columnText
  rw [List.takeWhile_eq_self_iff]
  constructor
  · intro h h0
    simpa using h 0 h0
  · intro h c hc
    refine decide_eq_true fun h0 => h ?_
    rwa [h0] at hc

theorem zero_not_mem_columnText (s : Bytes) : (0 : UInt8) ∉ columnText s := by
  intro h
  simpa using List.mem_takeWhile_imp h

section
variable {t : Tables} (hv : t.Valid) (u : ℤ)
include hv

/-- The listing has each inventory row of the user once, with its item. -/
theorem selectUserItems_spec : ((selectUserItems u t).map Prod.fst).Perm (t.itemsOf u) ∧
    ∀ p ∈ selectUserItems u t, p.1 ∈ t.itemsOf u ∧ p.2 ∈ t.items ∧ p.2.id = p.1.itemId := by
  have hsorted : ((t.itemsOf u).insertionSort inKeyOrder).Perm (t.itemsOf u) := List.perm_insertionSort _ _
  have hrows : (selectUserItems u t).map Prod.fst = (t.itemsOf u).insertionSort inKeyOrder :=
    Sql.innerJoin_found hv.itemIds fun r hr => (hv.userItems r (List.mem_filter.1 (hsorted.mem_iff.1 hr)).1).item
  refine ⟨hrows ▸ hsorted, fun p hp => ?_⟩
  obtain ⟨h1, h2, h3⟩ := Sql.mem_innerJoin.1 hp
  exact ⟨hsorted.mem_iff.1 h1, h2, of_decide_eq_true h3⟩

theorem item_of_id {i j : ItemRow} (hi : i ∈ t.items) (hj : j ∈ t.items) (h : i.id = j.id) : i = j :=
  List.inj_on_of_nodup_map hv.itemIds hi hj h

/-- The listing is exact exactly when the user's rows are legible. -/
theorem showsItems_iff : ShowsItems t u ((selectUserItems u t).map userItemInfo) ↔ Legible t u := by
  obtain ⟨hrows, hmem⟩ := selectUserItems_spec hv u
  constructor
  · rintro ⟨rows, hperm, hall⟩
    -- what an entry shows of a row was read from a column
    have hshow : ∀ r ∈ t.itemsOf u, ∃ e, ShowsItem t r e ∧ ∃ p, e = userItemInfo p := by
      intro r hr
      obtain ⟨e, he, hre⟩ := (forall₂_mem hall).1 r (hperm.mem_iff.2 hr)
      obtain ⟨p, -, hp⟩ := List.mem_map.1 he
      exact ⟨e, hre, p, hp.symm⟩
    constructor
    · intro r hr
      obtain ⟨e, he, p, rfl⟩ := hshow r hr
      rw [← he.quantity]
      exact toInt_le_intMax _
    · intro r hr i hi hid
      obtain ⟨e, he, p, rfl⟩ := hshow r hr
      obtain ⟨j, hj, hjd, hname⟩ := he.name
      rw [item_of_id hv hi hj (hid.trans hjd.symm), ← hname]
      exact zero_not_mem_columnText _
  · intro h
    refine ⟨(selectUserItems u t).map Prod.fst, hrows, ?_⟩
    rw [List.forall₂_map_left_iff, List.forall₂_map_right_iff, List.forall₂_same]
    intro p hp
    obtain ⟨hr, hi, hid⟩ := hmem p hp
    refine ⟨⟨p.2, hi, hid, columnText_eq_iff.2 (h.names p.1 hr p.2 hi hid)⟩, ?_⟩
    exact columnInt_of_fits (hv.userItems p.1 (List.mem_filter.1 hr).1).quantity (h.quantities p.1 hr)

/-- Entries that show the rows of a user have different names and no negative quantity. -/
theorem ShowsItems.distinct {entries : List UserItemInfo} (h : ShowsItems t u entries) :
    (entries.map (·.itemName)).Nodup ∧ ∀ e ∈ entries, 0 ≤ e.quantity.toInt := by
  obtain ⟨rows, hperm, hall⟩ := h
  have hsub : ∀ r ∈ rows, r ∈ t.userItems ∧ r.userId = u := by
    intro r hr
    obtain ⟨hm, hu⟩ := List.mem_filter.1 (hperm.mem_iff.1 hr)
    exact ⟨hm, of_decide_eq_true hu⟩
  have hnodup : rows.Nodup := hperm.nodup_iff.2 (hv.userItemKeys.of_map.filter _)
  clear hperm
  induction hall with
  | nil => simp
  | @cons r e rows entries hre hall ih =>
    obtain ⟨hr, hnodup⟩ := List.nodup_cons.1 hnodup
    obtain ⟨ih1, ih2⟩ := ih (fun x hx => hsub x (List.mem_cons_of_mem _ hx)) hnodup
    refine ⟨List.nodup_cons.2 ⟨?_, ih1⟩, fun x hx => ?_⟩
    · -- two rows of one user with one name would be of one item
      intro hmem
      obtain ⟨e', he', hname⟩ := List.mem_map.1 hmem
      obtain ⟨r', hr', hre'⟩ := (forall₂_mem hall).2 e' he'
      have hm := hsub r List.mem_cons_self
      have hm' := hsub r' (List.mem_cons_of_mem _ hr')
      obtain ⟨i, hi, hid, hi'⟩ := hre.name
      obtain ⟨j, hj, hjd, hj'⟩ := hre'.name
      have : i = j := List.inj_on_of_nodup_map hv.itemNames hi hj (hi'.symm.trans (hname.symm.trans hj'))
      have hkey : r.key = r'.key := by
        unfold UserItemRow.key
        rw [hm.2, hm'.2, ← hid, ← hjd, this]
      rw [List.inj_on_of_nodup_map hv.userItemKeys hm.1 hm'.1 hkey] at hr
      exact hr hr'
    · rcases List.mem_cons.1 hx with rfl | hx
      · rw [hre.quantity]
        exact (hv.userItems r (hsub r List.mem_cons_self).1).quantity
      · exact ih2 x hx

/-- Only the funds item is shown under its name. -/
theorem ShowsItem.funds {st : Storage} (hi : Invariant st t) {r : UserItemRow} {e : UserItemInfo}
    (h : ShowsItem t r e) (he : e.itemName = fundsItemName) : r.itemId = st.fundsItemId.toInt := by
  obtain ⟨i, hm, hid, hname⟩ := h.name
  rw [← hid, List.inj_on_of_nodup_map hv.itemNames hm hi.funds (hname.symm.trans he)]

end

/-- In every reachable state `view_user_items` has one entry for each inventory row of the user with
its full name and quantity exactly when no name has a NUL and every quantity is at most `INT_MAX`;
then no two entries have the same name, only funds are called funds, and no quantity is negative. -/
theorem inventory_view_iff (calls : List Call) (userId : UserId) :
    let st := Storage.initial
    let db := reached calls
    ∃ entries, viewUserItems userId (Sql.Connection.idle db) = .ok entries (Sql.Connection.idle db) ∧
      (ShowsItems db.toTables userId.toInt entries ↔ Legible db.toTables userId.toInt) ∧
      (ShowsItems db.toTables userId.toInt entries →
        (entries.map (·.itemName)).Nodup ∧ ∀ e ∈ entries, 0 ≤ e.quantity.toInt) ∧
      ∀ r e, ShowsItem db.toTables r e → e.itemName = fundsItemName → r.itemId = st.fundsItemId.toInt := by
  intro st db
  refine ⟨_, query_calm _ db none, showsItems_iff db.valid userId.toInt, ?_, ?_⟩
  · intro h
    exact h.distinct db.valid
  · intro r e h he
    exact h.funds db.valid (reached_invariant calls) he

/-- An item named "funds" and a NUL is shown as funds, and 2^32 - 2 swords as -2. -/
theorem inventory_misread :
    let alice : Call := ⟨.login (some (text "alice")), []⟩
    let coins : Call := ⟨.deposit 1 (some (text "funds" ++ [0])) 5, []⟩
    let swords : Call := ⟨.deposit 1 (some (text "sword")) 2147483647, []⟩
    let db := reached [alice, coins, swords, swords]
    let entries : List UserItemInfo := [⟨text "funds", 0⟩, ⟨text "funds", 5⟩, ⟨text "sword", -2⟩]
    viewUserItems 1 (Sql.Connection.idle db) = .ok entries (Sql.Connection.idle db) ∧
      ¬ ShowsItems db.toTables 1 entries := by
  intro alice coins swords db entries
  have hentries : (selectUserItems 1 db.toTables).map userItemInfo = entries := by decide +kernel
  have hrow : ⟨1, 3, 4294967294⟩ ∈ db.userItems := by decide +kernel
  constructor
  · rw [← hentries]
    exact query_calm _ db none
  · rw [← hentries, showsItems_iff db.valid]
    intro h
    exact absurd (h.quantities _ (List.mem_filter.2 ⟨hrow, rfl⟩)) (by decide)

/-! ## Sell orders -/

/-- An entry that has the id, the quantity and the price of an order. -/
structure ShowsOrder (o : SellOrderRow) (e : SellOrderInfo) : Prop where
  id : e.id.toInt = o.id
  quantity : e.quantity.toInt = o.quantity
  price : e.price.toInt = o.price

/-- The rejection of a purchase for the type of the order. -/
def notImmediate (sellOrderId : Int32) : Error :=
  text "Sell order #" ++ decimal sellOrderId ++ text " is not an immediate sell order"

/-- The rejection of a bid for the type of the order. -/
def notAuction (sellOrderId : Int32) : Error :=
  text "Sell order #" ++ decimal sellOrderId ++ text " is not an auction sell order"

/-- A Unix time before the year 10000. -/
def Dated (t : ℤ) : Prop := 0 ≤ t ∧ t < 253402300800

/-- A sell order that a call places expires at such a time. -/
def Call.Dated (call : Call) : Prop :=
  ∀ orderType sellerId itemName quantity price unixExpirationTime,
    call.operation = .placeSellOrder orderType sellerId itemName quantity price unixExpirationTime →
      AuctionHouse.Dated unixExpirationTime

/-- An order that the listing can show. -/
def Listable (o : SellOrderRow) : Prop := 1 ≤ o.id ∧ Dated o.expirationTime

theorem datetime_of_dated {t : ℤ} (h : Dated t) : ∃ s, datetime t = some s := by
  obtain ⟨h0, h1⟩ := h
  exact ⟨_, if_pos ⟨by omega, by omega⟩⟩

theorem mapM_found {α β : Type} {f : α → Option β} : ∀ {l : List α}, (∀ a ∈ l, ∃ b, f a = some b) →
    ∃ bs, l.mapM f = some bs ∧ List.Forall₂ (fun a b => f a = some b) l bs
  | [], _ => ⟨[], rfl, .nil⟩
  | a :: l, h => by
    obtain ⟨b, hb⟩ := h a List.mem_cons_self
    obtain ⟨bs, hbs, hall⟩ := mapM_found fun x hx => h x (List.mem_cons_of_mem _ hx)
    refine ⟨b :: bs, ?_, .cons hb hall⟩
    rw [List.mapM_cons, hb, hbs]
    rfl

theorem mapM_none {α β : Type} {f : α → Option β} : ∀ {l : List α}, l.mapM f = none ↔ ∃ a ∈ l, f a = none
  | [] => iff_of_false (fun h => nomatch h) fun ⟨_, ha, _⟩ => nomatch ha
  | a :: l => by
    rw [List.mapM_cons, List.exists_mem_cons_iff, ← mapM_none (l := l)]
    rcases f a with _ | b
    · exact iff_of_true rfl (.inl rfl)
    · rcases l.mapM f with _ | bs
      · exact iff_of_true rfl (.inr rfl)
      · exact iff_of_false (fun h => nomatch h) (by simp)

section
variable {st : Storage} {db : Database} (hi : Invariant st db.toTables)
include hi

/-- A call that expires orders at Unix times keeps the orders expiring at Unix times. -/
theorem listable_next {call : Call} (hcall : call.Dated) (h : ∀ o ∈ db.sellOrders, Listable o) :
    ∀ o ∈ (call.next st db).sellOrders, Listable o := by
  intro o ho
  refine ⟨Call.ids_positive hi call (fun o ho => (h o ho).1) o ho, ?_⟩
  obtain ⟨r, hr, -, hexp⟩ | ⟨-, orderType, sellerId, itemName, quantity, price, hop⟩ := Call.origin hi call ho
  · rw [hexp]
    exact (h r hr).2
  · exact hcall _ _ _ _ _ _ hop

omit hi in
theorem listable_run : ∀ {calls : List Call} {db : Database}, Invariant st db.toTables → (∀ call ∈ calls, call.Dated) →
    (∀ o ∈ db.sellOrders, Listable o) → ∀ o ∈ (Call.run st db calls).sellOrders, Listable o
  | [], _, _, _, h => h
  | call :: calls, _, hi, hcalls, h => by
    rw [Call.run_cons]
    exact listable_run (Call.invariant_next hi call) (fun c hc => hcalls c (List.mem_cons_of_mem _ hc))
      (listable_next hi (hcalls call List.mem_cons_self) h)

omit hi in
/-- The listing has each order once, with its seller and its item. -/
theorem selectSellOrders_spec {t : Tables} (hv : t.Valid) : (selectSellOrders t).map (fun p => p.1.1) = t.sellOrders := by
  unfold selectSellOrders
  have hseller := Sql.innerJoin_found (f := SellOrderRow.sellerId) hv.userIds fun o ho => (hv.sellOrders o ho).seller
  have hitem := Sql.innerJoin_found (f := fun p : SellOrderRow × UserRow => p.1.itemId) hv.itemIds
    (l := Sql.innerJoin (fun o u => decide (u.id = o.sellerId)) t.sellOrders t.users)
    fun p hp => (hv.sellOrders p.1 (Sql.mem_innerJoin.1 hp).1).item
  have hfst := congrArg (List.map Prod.fst) hitem
  rw [List.map_map] at hfst
  exact hfst.trans hseller

omit hi in
/-- The type in the listing, which reads a missing buyer as 0, is the type purchases and bids go by. -/
theorem type_listed {o : SellOrderRow} (ho : o ∈ db.sellOrders) :
    (if columnInt o.sellerId = columnInt (o.buyerId.getD 0) then SellOrderType.immediate else .auction) =
      (innerInfo o).type := by
  have hs := seller_fits db.valid ho
  -- no user has the id 0
  have hpos : 1 ≤ o.sellerId := by
    obtain ⟨u, hu, he⟩ := (db.valid.sellOrders o ho).seller
    rw [← he]
    exact (db.valid.userRange u hu).1
  have hiff : columnInt o.sellerId = columnInt (o.buyerId.getD 0) ↔ o.buyerId = some o.sellerId := by
    rcases hb : o.buyerId with _ | b
    · rw [Option.getD_none, columnInt_inj hs (columnInt_of_fits le_rfl (by decide))]
      constructor
      · intro h; omega
      · intro h; cases h
    · rw [Option.getD_some, columnInt_inj hs (buyer_fits db.valid ho hb), Option.some.injEq, eq_comm]
  rcases ht : (innerInfo o).type with _ | _
  · rw [if_pos (hiff.2 ((type_innerInfo db.valid ho).1 ht))]
  · rw [if_neg]
    intro h
    rw [(type_innerInfo db.valid ho).2 (hiff.1 h)] at ht
    cases ht

omit hi in
theorem listing_spec (ho : ∀ o ∈ db.sellOrders, Listable o) :
    ∃ orders, viewSellOrders (Sql.Connection.idle db) = .ok (some orders) (Sql.Connection.idle db) ∧
      List.Forall₂ (fun p e => sellOrderInfo p = some e) (selectSellOrders db.toTables) orders := by
  have hmem : ∀ p ∈ selectSellOrders db.toTables, p.1.1 ∈ db.sellOrders := by
    intro p hp
    rw [← selectSellOrders_spec db.valid]
    exact List.mem_map_of_mem hp
  have hfound : ∀ p ∈ selectSellOrders db.toTables, ∃ e, sellOrderInfo p = some e := by
    rintro ⟨⟨o, u⟩, i⟩ hp
    obtain ⟨s, hs⟩ := datetime_of_dated (ho o (hmem _ hp)).2
    exact ⟨_, by rw [sellOrderInfo, hs]; rfl⟩
  obtain ⟨orders, hm, hall⟩ := mapM_found hfound
  refine ⟨orders, ?_, hall⟩
  unfold viewSellOrders Sql.Connection.idle
  rw [query_calm, hm]

omit hi in
/-- The listing is undefined when an order expires at no date of SQLite. -/
theorem listing_undefined_iff (db : Database) :
    Sql.outcome (viewSellOrders (Sql.Connection.idle db)) = .ok none ↔
      ∃ o ∈ db.sellOrders, datetime o.expirationTime = none := by
  unfold viewSellOrders Sql.Connection.idle
  rw [query_calm]
  have hnone : (selectSellOrders db.toTables).mapM sellOrderInfo = none ↔
      ∃ o ∈ db.sellOrders, datetime o.expirationTime = none := by
    simp only [mapM_none, sellOrderInfo, Option.map_eq_none_iff, ← selectSellOrders_spec db.valid, List.mem_map,
      exists_exists_and_eq_and]
  rw [← hnone, Sql.outcome_ok, Except.ok.injEq]

/-! ## Rejections for the type -/

omit hi in
theorem tooFew_ne : (∀ sellOrderId, text "Not enough funds to buy" ≠ notImmediate sellOrderId) ∧
    ∀ sellOrderId, text "Not enough funds to buy" ≠ notAuction sellOrderId := by
  -- the first characters differ
  have hne : (some 78 : Option UInt8) ≠ some 83 := by decide
  constructor
  · intro sellOrderId h
    exact hne (congrArg List.head? h)
  · intro sellOrderId h
    exact hne (congrArg List.head? h)

/-- A purchase is rejected for the type of its order exactly when that is not immediate. -/
theorem purchase_rejected_iff {o : SellOrderRow} (ho : o ∈ db.sellOrders) {sellOrderId : Int32}
    (hid : o.id = sellOrderId.toInt) (buyerId : UserId) :
    Sql.outcome (executeImmediateSellOrder st buyerId sellOrderId (Sql.Connection.idle db)) =
      .error (notImmediate sellOrderId) ↔ (innerInfo o).type ≠ .immediate := by
  by_cases htype : (innerInfo o).type = .immediate
  swap
  · rw [executeImmediateSellOrder_eq, Sql.bind_of_ok (getSellOrderInfo_calm ho hid)]
    simp only [Sql.ite_apply, htype, ne_eq, not_false_eq_true, if_true, iff_true]
    rfl
  refine iff_of_false ?_ (not_not.2 htype)
  have hs : (innerInfo o).sellerId.toInt = o.sellerId := seller_fits db.valid ho
  -- the other ways it can end: a sale, an own order, too few funds
  by_cases hown : buyerId = (innerInfo o).sellerId
  · rw [executeImmediateSellOrder_eq, Sql.bind_of_ok (getSellOrderInfo_calm ho hid)]
    simp only [Sql.ite_apply, htype, ne_eq, not_true_eq_false, if_false, hown, if_true]
    intro h
    cases h
  by_cases hread : columnInt o.price ≤ columnInt (db.balance buyerId.toInt st.fundsItemId.toInt)
  · have hne : o.sellerId ≠ buyerId.toInt := fun h => hown (Int32.toInt_inj.1 (h.symm.trans hs.symm))
    obtain ⟨info, db', h⟩ := executeImmediateSellOrder_calm hi ho hid htype hne hread
    rw [h]
    intro h
    cases h
  · obtain ⟨e, he⟩ := subFunds_short st db (q := (innerInfo o).price) hread (some db)
    have hsteps : executeSteps st buyerId sellOrderId (innerInfo o) ⟨db, some db, []⟩ =
        .error (text "Not enough funds to buy") ⟨db, some db, []⟩ := by
      unfold executeSteps
      refine Sql.bind_of_error ?_ _
      unfold Sql.mapError
      rw [he]
    rw [executeImmediateSellOrder_eq, Sql.bind_of_ok (getSellOrderInfo_calm ho hid)]
    simp only [Sql.ite_apply, htype, ne_eq, not_true_eq_false, if_false, hown]
    unfold Sql.Connection.idle
    rw [transaction_calm_error _ hsteps]
    intro h
    exact tooFew_ne.1 sellOrderId (Except.error.inj h)

/-- A bid is rejected for the type of its order exactly when that is not auction. -/
theorem bid_rejected_iff {o : SellOrderRow} (ho : o ∈ db.sellOrders) {sellOrderId : Int32}
    (hid : o.id = sellOrderId.toInt) (buyerId : UserId) (bid : Int32) :
    Sql.outcome (placeBidOnAuctionSellOrder st buyerId sellOrderId bid (Sql.Connection.idle db)) =
      .error (notAuction sellOrderId) ↔ (innerInfo o).type ≠ .auction := by
  by_cases htype : (innerInfo o).type = .auction
  swap
  · rw [placeBidOnAuctionSellOrder_eq, Sql.bind_of_ok (getSellOrderInfo_calm ho hid)]
    simp only [Sql.ite_apply, htype, ne_eq, not_false_eq_true, if_true, iff_true]
    rfl
  refine iff_of_false ?_ (not_not.2 htype)
  have hs : (innerInfo o).sellerId.toInt = o.sellerId := seller_fits db.valid ho
  have hp : (innerInfo o).price.toInt = o.price := price_fits db.valid hi ho
  have hauction : o.buyerId ≠ some o.sellerId := fun he => by
    rw [(type_innerInfo db.valid ho).2 he] at htype; cases htype
  by_cases hown : buyerId = (innerInfo o).sellerId
  · rw [placeBidOnAuctionSellOrder_eq, Sql.bind_of_ok (getSellOrderInfo_calm ho hid)]
    simp only [Sql.ite_apply, htype, ne_eq, not_true_eq_false, if_false, hown, if_true]
    intro h
    cases h
  by_cases hlow : bid ≤ (innerInfo o).price
  · rw [placeBidOnAuctionSellOrder_eq, Sql.bind_of_ok (getSellOrderInfo_calm ho hid)]
    simp only [Sql.ite_apply, htype, ne_eq, not_true_eq_false, if_false, hown, hlow, if_true]
    intro h
    cases h
  have hprice : o.price < bid.toInt := by rw [← hp]; exact Int32.lt_iff_toInt_lt.1 (Int32.not_le.1 hlow)
  by_cases hread : bid ≤ columnInt (db.balance buyerId.toInt st.fundsItemId.toInt +
      if o.buyerId = some buyerId.toInt then o.price else 0)
  · have hne : o.sellerId ≠ buyerId.toInt := fun h => hown (Int32.toInt_inj.1 (h.symm.trans hs.symm))
    obtain ⟨db', h⟩ := placeBidOnAuctionSellOrder_calm hi ho hid htype hne hprice hread
    rw [h]
    intro h
    cases h
  · obtain ⟨db₁, h1⟩ := returnFunds_calm hi ho (some db)
    have hbalance : db₁.balance buyerId.toInt st.fundsItemId.toInt = db.balance buyerId.toInt st.fundsItemId.toInt +
        if o.buyerId = some buyerId.toInt then o.price else 0 := by
      rw [← refund_auction hauction st.fundsItemId.toInt]
      exact (returnFunds_ok hi ho hauction h1).balance _ _
    obtain ⟨e, he⟩ := subFunds_short st db₁ (u := buyerId) (q := bid) (by rw [hbalance]; exact hread) (some db)
    have hsteps : bidSteps st buyerId sellOrderId bid (innerInfo o) ⟨db, some db, []⟩ =
        .error (text "Not enough funds to buy") ⟨db₁, some db, []⟩ := by
      unfold bidSteps
      rw [Sql.bind_of_ok h1]
      refine Sql.bind_of_error ?_ _
      unfold Sql.mapError
      rw [he]
    rw [placeBidOnAuctionSellOrder_eq, Sql.bind_of_ok (getSellOrderInfo_calm ho hid)]
    simp only [Sql.ite_apply, htype, ne_eq, not_true_eq_false, if_false, hown, hlow]
    unfold Sql.Connection.idle
    rw [transaction_calm_error _ hsteps]
    intro h
    exact tooFew_ne.2 sellOrderId (Except.error.inj h)

end

/-- In every reachable state, with order ids in an `int` and orders expiring before the year 10000,
`view_sell_orders` has one entry for each order with its id, quantity and price, and the type it
shows is the one for which purchases, or bids, are not rejected. -/
theorem listing_agrees (calls : List Call) (hclock : ∀ call ∈ calls, call.Dated)
    (hids : (reached calls).sellOrdersSeq ≤ intMax) :
    let st := Storage.initial
    let db := reached calls
    ∃ orders, viewSellOrders (Sql.Connection.idle db) = .ok (some orders) (Sql.Connection.idle db) ∧
      List.Forall₂ ShowsOrder db.sellOrders orders ∧
      ∀ e ∈ orders, ∀ (buyerId : UserId) (bid : Int32),
        (e.type = .immediate ↔ Sql.outcome (executeImmediateSellOrder st buyerId e.id (Sql.Connection.idle db)) ≠
          .error (notImmediate e.id)) ∧
        (e.type = .auction ↔ Sql.outcome (placeBidOnAuctionSellOrder st buyerId e.id bid (Sql.Connection.idle db)) ≠
          .error (notAuction e.id)) := by
  intro st db
  have hi : Invariant st db.toTables := reached_invariant calls
  have hlist : ∀ o ∈ db.sellOrders, Listable o :=
    listable_run initial_invariant hclock (by simp [Database.initial])
  obtain ⟨orders, hview, hall⟩ := listing_spec hlist
  -- every entry is made from an order of the table
  have hentry : List.Forall₂ (fun o e => o ∈ db.sellOrders ∧ ShowsOrder o e ∧ e.type = (innerInfo o).type)
      db.sellOrders orders := by
    refine (congrArg (List.Forall₂ _ · orders) (selectSellOrders_spec db.valid)).mp ?_
    rw [List.forall₂_map_left_iff]
    have hmem : ∀ p ∈ selectSellOrders db.toTables, p.1.1 ∈ db.sellOrders := by
      intro p hp
      rw [← selectSellOrders_spec db.valid]
      exact List.mem_map_of_mem hp
    refine ((List.forall₂_and_left _ _).2 ⟨hmem, hall⟩).imp ?_
    rintro ⟨⟨o, u⟩, i⟩ e ⟨ho, he⟩
    obtain ⟨s, hs⟩ := datetime_of_dated (hlist o ho).2
    rw [sellOrderInfo, hs] at he
    cases he
    have hid : (columnInt o.id).toInt = o.id :=
      columnInt_of_fits (by have := (hlist o ho).1; omega) ((hi.issued o ho).trans hids)
    exact ⟨ho, ⟨hid, quantity_fits db.valid hi ho, price_fits db.valid hi ho⟩, type_listed ho⟩
  refine ⟨orders, hview, hentry.imp fun o e h => h.2.1, fun e he buyerId bid => ?_⟩
  obtain ⟨o, -, ho, hshow, htype⟩ := (forall₂_mem hentry).2 e he
  constructor
  · rw [ne_eq, purchase_rejected_iff hi ho hshow.id.symm, not_not, htype]
  · rw [ne_eq, bid_rejected_iff hi ho hshow.id.symm, not_not, htype]

/-- alice's sword has two bids, and bob sells a shield to the first buyer. -/
def twoOrders : List Call := auctionRun ++
  [⟨.deposit 2 (some (text "shield")) 1, []⟩, ⟨.placeSellOrder .immediate 2 (some (text "shield")) 1 5 400, []⟩]

theorem sword_and_shield_listed :
    let db := reached twoOrders
    ∃ orders, viewSellOrders (Sql.Connection.idle db) = .ok (some orders) (Sql.Connection.idle db) ∧
      orders.map (·.type) = [.auction, .immediate] ∧ List.Forall₂ ShowsOrder db.sellOrders orders ∧
        ∀ e ∈ orders,
          (e.type = .immediate ↔ Sql.outcome (executeImmediateSellOrder Storage.initial 1 e.id
            (Sql.Connection.idle db)) ≠ .error (notImmediate e.id)) ∧
          (e.type = .auction ↔ Sql.outcome (placeBidOnAuctionSellOrder Storage.initial 1 e.id 50
            (Sql.Connection.idle db)) ≠ .error (notAuction e.id)) := by
  have hclock : ∀ call ∈ twoOrders, call.Dated := by
    intro call hcall
    simp only [twoOrders, auctionRun, List.mem_append, List.mem_cons, List.not_mem_nil, or_false] at hcall
    rcases hcall with (rfl | rfl | rfl | rfl | rfl | rfl | rfl | rfl | rfl | rfl) | rfl | rfl
    all_goals
      intro _ _ _ _ _ t h
      cases h
    all_goals constructor <;> omega
  obtain ⟨orders, hview, hshow, htypes⟩ := listing_agrees twoOrders hclock (by decide +kernel)
  have hlisted : (Sql.outcome (viewSellOrders (Sql.Connection.idle (reached twoOrders)))).map (·.map (·.map (·.type))) =
      .ok (some [.auction, .immediate]) := by decide +kernel
  simp only [hview, Sql.outcome_ok, Except.map, Option.map_some, Except.ok.injEq, Option.some.injEq] at hlisted
  exact ⟨orders, hview, hlisted, hshow, fun e he => htypes e he 1 50⟩

end AuctionHouse
