/-
Conservation of items. Nothing is lost or duplicated until a command takes out of an inventory the
quantity that the stored one only reads as: then `sub_user_item` deletes the whole row. These are
exactly the runs in which the log and the tables part.
-/
import AuctionHouse.Store.Ledger

namespace AuctionHouse

open Storage AuctionService

/-! ## Misread quantities -/

/-- The user holds more of an item other than funds than a quantity, but it reads as that quantity. -/
def ReadsAs (st : Storage) (t : Tables) (userId : UserId) (itemName : StringView) (quantity : Int32) : Prop :=
  ∃ r ∈ t.items, some r.name = itemName ∧ r.id ≠ st.fundsItemId.toInt ∧
    ∃ x, t.inventory (userId.toInt, r.id) = some x ∧ columnInt x = quantity ∧ x ≠ quantity.toInt

/-- A command takes a quantity which the stored one only reads as. -/
def Wraps (st : Storage) (t : Tables) : Operation → Prop
  | .withdraw userId itemName quantity => ReadsAs st t userId itemName quantity
  | .placeSellOrder _ sellerId itemName quantity _ _ => ReadsAs st t sellerId itemName quantity
  | _ => False

/-- Such a command that is covered and reads as covered. -/
structure Misread (st : Storage) (t : Tables) (operation : Operation) : Prop where
  wraps : Wraps st t operation
  covered : Covered st t operation
  reads : ReadsEnough st t operation

section
variable {st : Storage} {t : Tables} (hv : t.Valid)

theorem spoiled_ne_zero {itemId quantity : Int32} {x : ℤ} (hread : quantity ≤ columnInt x) :
    spoiled st itemId quantity x ≠ 0 ↔ itemId ≠ st.fundsItemId ∧ columnInt x = quantity ∧ x ≠ quantity.toInt := by
  have hlt : quantity < columnInt x ↔ columnInt x ≠ quantity := by
    rw [Int32.lt_iff_toInt_lt, ne_eq, ← Int32.toInt_inj]
    rw [Int32.le_iff_toInt_le] at hread
    omega
  unfold spoiled
  split
  · rename_i h
    rw [hlt] at h
    tauto
  · rename_i h
    rw [hlt] at h
    rw [ne_eq, sub_eq_zero]
    tauto

include hv

/-- What is spoiled of a row shows that the command takes what the row reads as. -/
theorem readsAs_iff {userId : UserId} {itemName : StringView} {quantity itemId : Int32} {x : ℤ}
    (hitem : ∃ r ∈ t.items, some r.name = itemName ∧ itemId.toInt = r.id)
    (hx : t.inventory (userId.toInt, itemId.toInt) = some x) (hread : quantity ≤ columnInt x) :
    ReadsAs st t userId itemName quantity ↔ spoiled st itemId quantity x ≠ 0 := by
  obtain ⟨r, hr, hn, hid⟩ := hitem
  rw [spoiled_ne_zero hread]
  constructor
  · -- names and keys are unique: it is the same item and the same row
    rintro ⟨r', hr', hn', hne, x', hx', hq, hx''⟩
    obtain rfl : r' = r :=
      List.inj_on_of_nodup_map hv.itemNames hr' hr (Option.some.inj (hn'.trans hn.symm))
    rw [← hid] at hx' hne
    obtain rfl : x = x' := Option.some.inj (hx.symm.trans hx')
    exact ⟨fun h => hne (by rw [h]), hq, hx''⟩
  · rintro ⟨hne, hq, hx'⟩
    exact ⟨r, hr, hn, fun h => hne (Int32.toInt_inj.1 (hid.trans h)), x, by rw [← hid]; exact hx, hq, hx'⟩

end

/-- A deal destroys something of an item other than funds. -/
def Destroys (st : Storage) (d : Deal ℤ ℤ) : Prop :=
  ∃ u i : Int32, i ≠ st.fundsItemId ∧ d.loss u.toInt i.toInt ≠ 0

theorem destroys_withdraw {st : Storage} {u i q : Int32} {x : ℤ} :
    Destroys st (.withdraw u.toInt i.toInt q.toInt (spoiled st i q x)) ↔ spoiled st i q x ≠ 0 := by
  constructor
  · rintro ⟨v, j, -, h⟩
    exact fun h0 => h (by rw [Deal.loss, give_toInt, h0]; simp)
  · intro h
    refine ⟨u, i, fun hf => h (by rw [hf, spoiled_funds]), ?_⟩
    rw [Deal.loss, give_self]
    exact h

/-- A deal destroys something exactly when its command takes what the stored quantity reads as. -/
theorem Explains.wraps_iff {st : Storage} {t : Tables} (hv : t.Valid) {operation : Operation} {reply : Reply}
    {d : Deal ℤ ℤ} (he : Explains st t operation (.ok reply) d) : Wraps st t operation ↔ Destroys st d := by
  have hnone : ∀ {d : Deal ℤ ℤ}, (∀ v j, d.loss v j = 0) → (False ↔ Destroys st d) := fun h =>
    ⟨nofun, fun ⟨u, i, _, hne⟩ => hne (h _ _)⟩
  cases he with
  | withdraw hitem hx hread => rw [Wraps, readsAs_iff hv hitem hx hread, destroys_withdraw]
  | place hname hitem hx hread hfee =>
    rw [Wraps, readsAs_iff hv hitem hx hread, ← destroys_withdraw]
    exact Iff.rfl
  | login => exact hnone fun _ _ => rfl
  | deposit => exact hnone fun _ _ => rfl
  | purchase => exact hnone fun _ _ => rfl
  | bid => exact hnone fun _ _ => rfl
  | settle => exact hnone fun _ _ => rfl

theorem Explains.not_destroys {st : Storage} {t : Tables} {operation : Operation} {e : Error} {d : Deal ℤ ℤ}
    (he : Explains st t operation (.error e) d) : ¬ Destroys st d := by
  rintro ⟨u, i, -, h⟩
  cases he with
  | failed => exact h rfl
  | unreported => exact h rfl

/-- Commands that take what a stored quantity reads as are accepted when it reads as enough. -/
theorem wraps_succeeds {st : Storage} {db : Database} (hi : Invariant st db.toTables) {operation : Operation}
    (h : Wraps st db.toTables operation) :
    Succeeds st db operation ↔ Covered st db.toTables operation ∧ ReadsEnough st db.toTables operation := by
  cases operation with
  | withdraw userId itemName quantity => exact withdraw_succeeds hi _ _ _
  | placeSellOrder orderType sellerId itemName quantity price unixExpirationTime =>
    exact placeSellOrder_succeeds hi _ _ _ _ _ _
  | _ => exact h.elim

namespace SharedState

/-! ## Conservation -/

/-- What a user holds of an item and sells in open orders is what the log says. -/
def ItemsConserved (s : SharedState) : Prop := ∀ u i : Int32, i ≠ s.storage.fundsItemId →
  s.db.balance u.toInt i.toInt + s.db.onSale u.toInt i.toInt = s.transactionLog.replay (LogMessage.items i) u

theorem Booked.misread_iff {s s' : SharedState} {e : Event} {d : Deal ℤ ℤ} (h : Booked s s' e d)
    (hi : Invariant s.storage s.db.toTables) : Misread s.storage s.db.toTables e.operation ↔ Destroys s.storage d := by
  have he := h.explains
  constructor
  · rintro ⟨hw, hc, hr⟩
    obtain ⟨reply, hreply⟩ := (wraps_succeeds hi hw).2 ⟨hc, hr⟩
    rw [hreply] at he
    exact (he.wraps_iff s.db.valid).1 hw
  · intro hd
    rcases hreply : Call.reply s.storage ⟨e.operation, []⟩ s.db with error | reply
    · rw [hreply] at he
      exact absurd hd he.not_destroys
    · rw [hreply] at he
      have hw := (he.wraps_iff s.db.valid).2 hd
      obtain ⟨hc, hr⟩ := (wraps_succeeds hi hw).1 ⟨reply, hreply⟩
      exact ⟨hw, hc, hr⟩

/-- A step keeps items conserved exactly when it destroys nothing. -/
theorem Booked.conserved_iff {s s' : SharedState} {e : Event} {d : Deal ℤ ℤ} (h : Booked s s' e d)
    (hs : s.ItemsConserved) : s'.ItemsConserved ↔ ¬ Destroys s.storage d := by
  have key : ∀ u i : Int32, i ≠ s.storage.fundsItemId →
      s'.db.balance u.toInt i.toInt + s'.db.onSale u.toInt i.toInt + d.loss u.toInt i.toInt =
        s'.transactionLog.replay (LogMessage.items i) u := fun u i hne => by
    have hne' : i.toInt ≠ s.storage.fundsItemId.toInt := fun he => hne (Int32.toInt_inj.1 he)
    have h1 := Tables.estate_item (t := s.db.toTables) hne' u.toInt
    have h2 := Tables.estate_item (t := s'.db.toTables) hne' u.toInt
    have h3 := h.estate _ _ (measures_items hne) u
    have h4 := hs u i hne
    omega
  unfold ItemsConserved
  rw [h.storage]
  constructor
  · rintro hs' ⟨u, i, hne, hloss⟩
    have h1 := key u i hne
    have h2 := hs' u i hne
    omega
  · intro hd u i hne
    have hloss : d.loss u.toInt i.toInt = 0 := by
      by_contra hloss
      exact hd ⟨u, i, hne, hloss⟩
    have := key u i hne
    omega

/-- Items are conserved throughout a run exactly when no command of the run takes a quantity that a
larger stored one, beyond the range of `int`, reads as. -/
theorem items_conserved_iff (events : List Event) : (∃ s, initial.run events = some s) ∧
    (Machine.Throughout next ItemsConserved initial events ↔
      Machine.AtEachStep next (fun s e => ¬ Misread s.storage s.db.toTables e.operation) initial events) := by
  have hfirst : initial.ItemsConserved := fun _ _ _ => rfl
  refine ⟨run_returns events, Machine.throughout_iff (fun _ _ _ hi h => invariant_next hi h) initial_invariant hfirst
    (fun s e s' hi hs h => ?_) (fun s e hi _ => ?_) events⟩
  · obtain ⟨d, hb⟩ := booked_of_next hi h
    rw [hb.misread_iff hi]
    exact hb.conserved_iff hs
  · obtain ⟨s', d, h, -⟩ := next_booked hi e
    exact ⟨s', h⟩

/-- 2^32 + 5 swords are deposited and 5 are withdrawn: the row is deleted. -/
theorem items_lost :
    let sword : StringView := some (text "sword")
    let events := [Event.login (some (text "alice")), .command 1 0 (.deposit sword 2147483647),
      .command 1 1 (.deposit sword 2147483647), .command 1 2 (.deposit sword 7), .command 1 3 (.withdraw sword 5)]
    ∃ s, initial.run events = some s ∧ s.db.balance 1 2 + s.db.onSale 1 2 = 0 ∧
      s.transactionLog.replay (LogMessage.items 2) 1 = 4294967296 ∧ ¬ s.ItemsConserved := by
  intro sword events
  have hrun : (initial.run events).map (fun s => (s.db.balance 1 2 + s.db.onSale 1 2,
      s.transactionLog.replay (LogMessage.items 2) 1, s.storage.fundsItemId)) = some (0, 4294967296, 1) := by
    decide +kernel
  obtain ⟨s, hs, h⟩ := Option.map_eq_some_iff.1 hrun
  simp only [Prod.mk.injEq] at h
  obtain ⟨h1, h2, h3⟩ := h
  refine ⟨s, hs, h1, h2, fun hc => ?_⟩
  have := hc 1 2 (by rw [h3]; decide)
  rw [h2] at this
  exact absurd (h1.symm.trans this) (by decide)

end SharedState

end AuctionHouse
