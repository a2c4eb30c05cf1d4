/-
Empty stacks. Every statement that adds to an inventory adds a positive quantity, and the one that
takes deletes an emptied stack, except that a deposit of 0 creates a stack of nothing.
-/
import AuctionHouse.Machine.Runs
import AuctionHouse.Store.Batch
import AuctionHouse.Store.Spending
import AuctionHouse.Store.Statements
import AuctionHouse.Store.Traces

namespace AuctionHouse

open Storage AuctionService

/-! ## Stacks of at least one -/

/-- The stored quantities of everything but funds are positive. -/
def Positive (st : Storage) (b : ℤ × ℤ → Option ℤ) : Prop :=
  ∀ k q, k.2 ≠ st.fundsItemId.toInt → b k = some q → 0 < q

/-- No row of an inventory is empty, so an item is listed exactly when there is at least one of it. -/
structure NoEmptyStacks (st : Storage) (t : Tables) : Prop where
  positive : ∀ r ∈ t.userItems, r.itemId ≠ st.fundsItemId.toInt → 0 < r.quantity
  listed : ∀ u i, i ≠ st.fundsItemId.toInt → ((∃ r ∈ t.userItems, r.key = (u, i)) ↔ 0 < t.balance u i)

variable {st : Storage} {t : Tables}

theorem noEmptyStacks_iff (hv : t.Valid) : NoEmptyStacks st t ↔ Positive st t.inventory := by
  constructor
  · rintro ⟨h, -⟩ ⟨u, i⟩ q hi hq
    exact h _ (Tables.mem_of_inventory hq) hi
  · intro h
    refine ⟨fun r hr hi => h r.key r.quantity hi (Tables.inventory_of_mem hv hr), fun u i hi => ?_⟩
    constructor
    · rintro ⟨r, hr, hk⟩
      have hq := Tables.inventory_of_mem hv hr
      rw [hk] at hq
      rw [Tables.balance_of_inventory hq]
      exact h _ _ hi hq
    · intro hpos
      rcases hq : t.inventory (u, i) with _ | q
      · unfold Tables.balance at hpos
        rw [hq] at hpos
        exact absurd hpos (lt_irrefl _)
      · exact ⟨_, Tables.mem_of_inventory hq, rfl⟩

/-- A stack that is added to stays positive, or becomes so. -/
theorem positive_addItem {u i q : ℤ} (h : i = st.fundsItemId.toInt ∨ 0 < q) (hp : Positive st t.inventory) :
    Positive st (addItem u i q t).inventory := by
  rw [inventory_addItem]
  rcases h with rfl | h
  · intro k x hk hx
    rw [Sql.credit, if_neg (fun he => hk (congrArg Prod.snd he))] at hx
    exact hp k x hk hx
  · exact Sql.creditAll_pos ((List.forall_mem_singleton (a := ((u, i), q))).2 h) hp

/-- Adding nothing is harmless exactly where there already is a stack. -/
theorem positive_addNothing (hp : Positive st t.inventory) {u i : ℤ} (hi : i ≠ st.fundsItemId.toInt) :
    Positive st (addItem u i 0 t).inventory ↔ t.inventory (u, i) ≠ none := by
  rw [inventory_addItem]
  constructor
  · intro h hnone
    have := h (u, i) 0 hi (by rw [Sql.credit, if_pos rfl, hnone]; rfl)
    exact absurd this (lt_irrefl _)
  · intro hsome k q hk hq
    unfold Sql.credit at hq
    split at hq
    · rename_i hki
      obtain ⟨x, hx⟩ := Option.ne_none_iff_exists'.1 hsome
      rw [hx] at hq
      cases hq
      rw [Option.getD_some, Int.add_zero]
      exact hp _ _ hi hx
    · exact hp k q hk hq

/-! ## Statements -/

abbrev KeepsStacks (st : Storage) {α : Type} (x : Exec α) : Prop :=
  Sql.Keeps (fun a b : Database => Positive st a.inventory → Positive st b.inventory) x

/-- No empty stack is added where there is none. -/
abbrev StaysPositive (st : Storage) (t t' : Tables) : Prop := Positive st t.inventory → Positive st t'.inventory

theorem steady_stacks : Steady (StaysPositive st) := ⟨fun _ => id, fun _ _ _ h h' => h' ∘ h⟩

/-- A change that leaves the inventories alone. -/
theorem staysPositive {t t' : Tables} (h : t'.userItems = t.userItems) : StaysPositive st t t' := by
  intro hp
  unfold Tables.inventory
  rw [h]
  exact hp

theorem stacks_addUserItem (userId : UserId) {itemId quantity : Int32}
    (h : itemId = st.fundsItemId ∨ 0 < quantity.toInt) : KeepsStacks st (addUserItem userId itemId quantity) := by
  refine keeps_executeWith steady_stacks.refl fun t _ t' he hp => ?_
  split at he
  · cases he
  · cases he
    exact positive_addItem (h.imp_left fun he => by rw [he]) hp

/-- Only funds may be taken to the last one and keep their row. -/
theorem stacks_subUserItem (userId : UserId) (itemId quantity : Int32) :
    KeepsStacks st (subUserItem st userId itemId quantity) := by
  intro c
  rcases hs : subUserItem st userId itemId quantity c with ⟨⟨⟩, c'⟩ | ⟨e, c'⟩
  · obtain ⟨x, hx, -, hsaved, ht⟩ := subUserItem_ok hs
    refine .inl ⟨hsaved, fun hp => ?_⟩
    show Positive st c'.db.inventory
    rw [ht]
    intro k q hk hq
    split at hq
    · rename_i hcase
      rw [inventory_reduceItem, hx] at hq
      split at hq
      · rename_i hkey
        cases hq
        rcases hcase with hfunds | hlt
        · exact absurd (by rw [hkey, hfunds]) hk
        · -- what is left is positive already as it is read
          have hle : (columnInt x).toInt ≤ x := columnInt_le (Tables.row_ok c.db.valid hx).quantity
          have hlt' := Int32.lt_iff_toInt_lt.1 hlt
          show 0 < x - quantity.toInt
          omega
      · exact hp k q hk hq
    · rw [inventory_removeItem] at hq
      split at hq
      · cases hq
      · exact hp k q hk hq
  · exact (subUserItem_error hs).imp fun a b hab => hab ▸ id

/-! ## Operations -/

theorem stacks_login (username : StringView) : KeepsStacks st (UserService.login st username) := by
  refine steady_stacks.does_login (keeps_executeWith steady_stacks.refl fun t a t' h => ?_) fun userId =>
    stacks_addUserItem userId (.inl rfl)
  rcases username with _ | name
  · cases h
  · cases h
    exact staysPositive rfl

theorem stacks_withdraw (userId : UserId) (itemName : StringView) (quantity : Int32) :
    KeepsStacks st (AuctionService.withdraw st userId itemName quantity) :=
  steady_stacks.does_withdraw fun itemId => stacks_subUserItem userId itemId quantity

section
variable {db : Database} (hi : Invariant st db.toTables) (hp : Positive st db.inventory)
  (faults : List (Option (Sql.Fault Error)))
include hp

theorem stacks_placeSellOrder (orderType : SellOrderType) (sellerId : UserId) (itemName : StringView)
    (quantity price : Int32) (unixExpirationTime : ℤ) : Positive st (Sql.after (AuctionService.placeSellOrder st
      orderType sellerId itemName quantity price unixExpirationTime (Sql.Connection.idle db faults))).db.inventory :=
  steady_stacks.placeSellOrder rfl
    (steady_stacks.does_placeSteps (stacks_subUserItem sellerId) fun _ _ => staysPositive rfl) hp

theorem stacks_placeBid (buyerId : UserId) (sellOrderId bid : Int32) :
    Positive st (Sql.after (AuctionService.placeBidOnAuctionSellOrder st buyerId sellOrderId bid
      (Sql.Connection.idle db faults))).db.inventory := by
  refine steady_stacks.placeBidOnAuctionSellOrder rfl (fun order => ?_) hp
  exact steady_stacks.does_bidSteps (fun u q => stacks_addUserItem u (.inl rfl)) (stacks_subUserItem buyerId _ bid)
    fun _ => staysPositive rfl

include hi

/-- The items of an order are at least one. -/
theorem stacks_executeImmediate (buyerId : UserId) (sellOrderId : Int32) :
    Positive st (Sql.after (AuctionService.executeImmediateSellOrder st buyerId sellOrderId
      (Sql.Connection.idle db faults))).db.inventory := by
  refine steady_stacks.executeImmediateSellOrder rfl (fun order c' h => ?_) hp
  obtain ⟨-, -, horder⟩ := getSellOrderInfo_ok rfl h
  obtain ⟨o, ho, -, rfl⟩ := horder order rfl
  have hq : 0 < (innerInfo o).quantity.toInt := by
    show 0 < (columnInt o.quantity).toInt
    rw [quantity_fits db.valid hi ho]
    exact (db.valid.sellOrders o ho).quantity
  exact steady_stacks.does_executeSteps (stacks_subUserItem buyerId _ _) (stacks_addUserItem _ (.inl rfl))
    (stacks_addUserItem buyerId (.inr hq)) fun _ => staysPositive rfl

/-- A settlement adds the items and the prices of orders. -/
theorem stacks_processExpired (unixNow : ℤ) (hheld : Sql.Held faults.tail) : Positive st (Sql.after (Storage.processExpiredSellOrders st unixNow
    (Sql.Connection.idle db faults))).db.inventory := by
  obtain ⟨-, ⟨e, -, hd⟩ | ⟨executed, c₁, c₂, hdb, hfaults, hsteps, -, hd⟩⟩ := transaction_spec
    (c := Sql.Connection.idle db faults) id (fun c₁ hf => insideAt_settle st unixNow (hf ▸ hheld)) rfl
  all_goals
    show Positive st (Sql.after (transaction (settle st unixNow) id (Sql.Connection.idle db faults))).db.inventory
  · rw [hd]
    exact hp
  obtain ⟨-, ht⟩ := settle_ok (hfaults ▸ hheld) hsteps
  rw [hd, ht, hdb]
  show Positive st (settledTables st unixNow db.toTables).inventory
  rw [inventory_settledTables db.valid hi]
  refine Sql.creditAll_pos (fun p hm => ?_) hp
  obtain ⟨o, ho, hm⟩ := List.mem_flatMap.1 hm
  have hok := db.valid.sellOrders o (List.mem_filter.1 ho).1
  rcases List.mem_cons.1 hm with rfl | hm
  · exact hok.quantity
  · split at hm
    · rw [List.mem_singleton.1 hm]
      exact hok.price
    · cases hm

end

/-! ## Runs -/

/-- A deposit of 0 by a user who is there, of an item he has no stack of or of a new item, whose
statements are granted. -/
inductive CreatesEmpty (st : Storage) (db : Database) : Call → Prop
  | known {faults : List (Option (Sql.Fault Error))} {userId : UserId} {itemName : StringView} {r : ItemRow}
      (hr : r ∈ db.items) (hn : some r.name = itemName) (hi : r.id ≠ st.fundsItemId.toInt)
      (hu : db.HasUser userId.toInt) (hs : db.inventory (userId.toInt, r.id) = none)
      (hg : Sql.Granted faults ∧ Sql.Granted (faults.drop 1)) : CreatesEmpty st db ⟨.deposit userId itemName 0, faults⟩
  | new {faults : List (Option (Sql.Fault Error))} {userId : UserId} {itemName : StringView}
      (hn : NewItem db.toTables itemName) (hu : db.HasUser userId.toInt)
      (hg : Sql.Granted (faults.drop 1) ∧ Sql.Granted (faults.drop 2)) :
      CreatesEmpty st db ⟨.deposit userId itemName 0, faults⟩

section
variable {db : Database} (hi : Invariant st db.toTables) (hp : Positive st db.inventory)
include hi hp

theorem stacks_deposit (userId : UserId) (itemName : StringView) (quantity : Int32)
    (faults : List (Option (Sql.Fault Error))) :
    Positive st (Sql.after (AuctionService.deposit userId itemName quantity (Sql.Connection.idle db faults))).db.inventory
      ↔ ¬ CreatesEmpty st db ⟨.deposit userId itemName quantity, faults⟩ := by
  have hpos : ¬ quantity < 0 → quantity = 0 ∨ 0 < quantity.toInt := by
    intro hq
    rw [Int32.lt_iff_toInt_lt, Int32.toInt_zero] at hq
    rw [← Int32.toInt_inj, Int32.toInt_zero]
    omega
  have hspec := deposit_spec db faults userId itemName quantity
  generalize AuctionService.deposit userId itemName quantity (Sql.Connection.idle db faults) = r at hspec ⊢
  generalize Sql.outcome r = o at hspec
  generalize (Sql.after r).db.toTables = t at hspec ⊢
  cases hspec with
  | negative hq =>
    refine iff_of_true hp fun h => ?_
    cases h with
    | known => exact absurd hq (by decide)
    | new => exact absurd hq (by decide)
  | unstacked hr hn h =>
    refine iff_of_true hp fun h' => ?_
    cases h' with
    | known _ _ _ hu _ hg => exact h ⟨hg.2, hu⟩
    | new hnew => exact not_newItem hr hn hnew
  | absent h hnew =>
    refine iff_of_true hp fun h' => ?_
    cases h' with
    | known hr hn _ _ _ hg => exact h ⟨hg.1, _, hr, hn⟩
    | new hn _ hg => exact hnew ⟨hg.1, hn⟩
  | created _ hn _ h =>
    refine iff_of_true hp fun h' => ?_
    cases h' with
    | known hr hn' => exact not_newItem hr hn' hn
    | new _ hu hg => exact h ⟨hg.2, hu⟩
  | @stacked _ r hq hr hn hg hu =>
    rcases hpos hq with rfl | hq
    · by_cases hfunds : r.id = st.fundsItemId.toInt
      · refine iff_of_true (positive_addItem (.inl hfunds) hp) fun h' => ?_
        cases h' with
        | known hr' hn' hi' => exact hi' (item_unique hr hn hr' hn' ▸ hfunds)
        | new hnew => exact not_newItem hr hn hnew
      · show Positive st (addItem userId.toInt r.id 0 db.toTables).inventory ↔ _
        rw [positive_addNothing hp hfunds, not_iff_not]
        constructor
        · intro hs
          exact .known hr hn hfunds hu hs hg
        · intro h'
          cases h' with
          | known hr' hn' _ _ hs => exact item_unique hr hn hr' hn' ▸ hs
          | new hnew => exact absurd hnew (not_newItem hr hn)
    · refine iff_of_true (positive_addItem (.inr hq) hp) fun h' => ?_
      cases h' with
      | known => exact absurd hq (by decide)
      | new => exact absurd hq (by decide)
  | @both _ r hq hn hr hg hu =>
    rcases hpos hq with rfl | hq
    · have hnew : ∀ j, db.HasItem j → j ≠ r.id := by
        rintro j ⟨x, hx, rfl⟩
        rw [hr]
        exact (lt_newRowId (List.mem_map_of_mem (f := (·.id)) hx)).ne
      have hnone : db.inventory (userId.toInt, r.id) = none := by
        rcases hs : db.inventory (userId.toInt, r.id) with _ | q
        · rfl
        · exact absurd rfl (hnew r.id (Tables.row_ok db.valid hs).item)
      refine iff_of_false ?_ (not_not.2 (.new hn hu hg))
      show ¬ Positive st (addItem userId.toInt r.id 0 { db.toTables with items := db.items ++ [r] }).inventory
      rw [positive_addNothing (t := { db.toTables with items := db.items ++ [r] }) hp
        (hnew _ hi.hasFunds).symm]
      exact not_not.2 hnone
    · refine iff_of_true (positive_addItem (t := { db.toTables with items := db.items ++ [r] }) (.inr hq) hp)
        fun h' => ?_
      cases h' with
      | known => exact absurd hq (by decide)
      | new => exact absurd hq (by decide)

/-- A call leaves an empty stack behind exactly when it deposits one. -/
theorem stacks_next (call : Call) : Positive st (call.next st db).inventory ↔ ¬ CreatesEmpty st db call := by
  obtain ⟨operation, faults⟩ := call
  cases operation
  all_goals simp only [Call.next, Operation.exec, Sql.after_map]
  case deposit userId itemName quantity => exact stacks_deposit hi hp userId itemName quantity faults
  case login username => exact iff_of_true (((stacks_login username _).idle rfl).2 hp) (by rintro ⟨⟩)
  case withdraw userId itemName quantity =>
    exact iff_of_true (((stacks_withdraw userId itemName quantity _).idle rfl).2 hp) (by rintro ⟨⟩)
  case placeSellOrder orderType sellerId itemName quantity price unixExpirationTime =>
    exact iff_of_true (stacks_placeSellOrder hp faults orderType sellerId itemName quantity price unixExpirationTime)
      (by rintro ⟨⟩)
  case executeImmediateSellOrder buyerId sellOrderId =>
    exact iff_of_true (stacks_executeImmediate hi hp faults buyerId sellOrderId) (by rintro ⟨⟩)
  case placeBidOnAuctionSellOrder buyerId sellOrderId bid =>
    exact iff_of_true (stacks_placeBid hp faults buyerId sellOrderId bid) (by rintro ⟨⟩)
  case processExpiredSellOrders unixNow =>
    exact iff_of_true (stacks_processExpired hi hp _ unixNow (Call.held_answers rfl)) (by rintro ⟨⟩)

end

/-- No inventory ever holds an empty stack exactly when no call of the run deposits one. -/
theorem stacks_nonempty_iff (calls : List Call) :
    Machine.Throughout (fun (db : Database) (call : Call) => some (call.next Storage.initial db))
        (fun db => NoEmptyStacks Storage.initial db.toTables) Database.initial calls ↔
      Machine.AtEachStep (fun (db : Database) (call : Call) => some (call.next Storage.initial db))
        (fun db call => ¬ CreatesEmpty Storage.initial db call) Database.initial calls := by
  refine Machine.throughout_iff (I := fun db : Database => Invariant Storage.initial db.toTables) ?_ initial_invariant
    ?_ ?_ (fun _ _ _ _ => ⟨_, rfl⟩) calls
  · rintro db call _ hi ⟨⟩
    exact Call.invariant_next hi call
  · refine (noEmptyStacks_iff Database.initial.valid).2 fun k q _ hq => ?_
    cases hq
  · rintro db call _ hi hp ⟨⟩
    rw [noEmptyStacks_iff (call.next _ db).valid]
    exact stacks_next hi ((noEmptyStacks_iff db.valid).1 hp) call

/-- alice deposits 0 swords: her inventory lists the sword she does not have. -/
theorem empty_stack_listed :
    let calls := [⟨.login (some (text "alice")), []⟩, ⟨.deposit 1 (some (text "sword")) 0, []⟩]
    (⟨1, 2, 0⟩ : UserItemRow) ∈ (reached calls).userItems ∧ (⟨2, text "sword"⟩ : ItemRow) ∈ (reached calls).items ∧
      ¬ NoEmptyStacks Storage.initial (reached calls).toTables := by
  intro calls
  have hrow : (⟨1, 2, 0⟩ : UserItemRow) ∈ (reached calls).userItems := by decide +kernel
  refine ⟨hrow, by decide +kernel, fun h => ?_⟩
  exact absurd (h.positive _ hrow (by decide)) (by decide)

end AuctionHouse
