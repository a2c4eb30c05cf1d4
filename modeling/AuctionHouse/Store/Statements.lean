/-
What every statement of an operation keeps, the operation keeps, whichever of its statements are
refused: first for the statements of one operation with their arguments, then for a relation that
all statements of the storage keep.
-/
import AuctionHouse.Server.Operation
import AuctionHouse.Store.Atomicity

namespace AuctionHouse

open Storage AuctionService

/-- What a program does to the tables. -/
abbrev Does (R : Tables → Tables → Prop) {α : Type} (x : Exec α) : Prop :=
  Sql.Keeps (fun a b : Database => R a.toTables b.toTables) x

/-- A relation that holds when nothing happens, and of two changes one after another. -/
structure Steady (R : Tables → Tables → Prop) : Prop where
  refl : ∀ t, R t t
  trans : ∀ t t' t'', R t t' → R t' t'' → R t t''

/-! ## Operations by their statements -/

namespace Steady

variable {st : Storage} {R : Tables → Tables → Prop} (h : Steady R)
include h

theorem reflexive (db : Database) : R db.toTables db.toTables := h.refl _

theorem transitive (a b c : Database) (hab : R a.toTables b.toTables) (hbc : R b.toTables c.toTables) :
    R a.toTables c.toTables := h.trans _ _ _ hab hbc

theorem does_pure {α : Type} (a : α) : Does R (pure a : Exec α) := Sql.Keeps.pure h.reflexive a

theorem does_throw {α : Type} (e : Error) : Does R (throw e : Exec α) := Sql.Keeps.throw h.reflexive e

theorem does_bind {α β : Type} {x : Exec α} {f : α → Exec β} (hx : Does R x) (hf : ∀ a, Does R (f a)) :
    Does R (x >>= f) := Sql.Keeps.bind h.transitive hx hf

theorem does_query {α : Type} (f : Tables → Except Error α) : Does R (query f) := keeps_query h.refl f

theorem does_execute {f : Tables → Tables} (hf : ∀ t, R t (f t)) : Does R (execute f) :=
  keeps_executeWith h.refl fun t _ _ he => by cases he; exact hf t

theorem does_getItemId (itemName : StringView) : Does R (getItemId itemName) := h.does_query _

theorem does_login {username : StringView} (hcreate : Does R (createUser username))
    (hfunds : ∀ userId, Does R (addUserItem userId st.fundsItemId 0)) : Does R (UserService.login st username) := by
  rw [login_eq]
  refine Sql.Keeps.ite (h.does_throw _) (h.does_bind ?_ fun found => ?_)
  · exact h.does_bind (Sql.Keeps.attempt (h.does_query _)) fun _ => h.does_pure _
  rcases found with _ | id
  · exact h.does_bind hcreate fun id => h.does_bind (hfunds id) fun _ => h.does_pure _
  · exact h.does_pure _

theorem does_withdraw {userId : UserId} {itemName : StringView} {quantity : Int32}
    (hsub : ∀ itemId, Does R (subUserItem st userId itemId quantity)) :
    Does R (withdraw st userId itemName quantity) := by
  rw [withdraw_eq]
  refine Sql.Keeps.ite (h.does_throw _) (Sql.Keeps.mapError ?_)
  refine h.does_bind (h.does_getItemId itemName) fun itemId => ?_
  exact h.does_bind (hsub itemId) fun _ => h.does_pure _

theorem does_placeSteps {orderType : SellOrderType} {sellerId : UserId} {itemName : StringView}
    {quantity price : Int32} {unixExpirationTime : ℤ} (hsub : ∀ i q, Does R (subUserItem st sellerId i q))
    (hinsert : ∀ order t, R t (insertSellOrder order t)) :
    Does R (placeSteps st orderType sellerId itemName quantity price unixExpirationTime) := by
  refine h.does_bind (Sql.Keeps.mapError ?_) fun itemId => ?_
  · refine h.does_bind (h.does_getItemId itemName) fun itemId => ?_
    exact h.does_bind (hsub itemId quantity) fun _ => h.does_pure _
  · refine h.does_bind (Sql.Keeps.mapError (hsub _ _)) fun _ => ?_
    exact h.does_execute fun t => hinsert _ t

theorem does_executeSteps {buyerId : UserId} {sellOrderId : Int32} {order : SellOrderInnerInfo}
    (hsub : Does R (subUserItem st buyerId st.fundsItemId order.price))
    (hfunds : Does R (addUserItem order.sellerId st.fundsItemId order.price))
    (hitem : Does R (addUserItem buyerId order.itemId order.quantity))
    (hremove : ∀ t, R t (removeSellOrder sellOrderId.toInt t)) :
    Does R (executeSteps st buyerId sellOrderId order) := by
  refine h.does_bind (Sql.Keeps.mapError hsub) fun _ => ?_
  refine h.does_bind hfunds fun _ => ?_
  refine h.does_bind hitem fun _ => ?_
  exact h.does_execute hremove

theorem does_bidSteps {buyerId : UserId} {sellOrderId bid : Int32} {order : SellOrderInnerInfo}
    (hfunds : ∀ u q, Does R (addUserItem u st.fundsItemId q))
    (hsub : Does R (subUserItem st buyerId st.fundsItemId bid))
    (hset : ∀ t, R t (setBuyer sellOrderId.toInt buyerId.toInt bid.toInt t)) :
    Does R (bidSteps st buyerId sellOrderId bid order) := by
  refine h.does_bind ?_ fun _ => ?_
  · unfold returnFunds
    split
    · exact h.does_pure _
    · exact Sql.Keeps.mapError (hfunds _ _)
  · refine h.does_bind (Sql.Keeps.mapError hsub) fun _ => ?_
    exact h.does_execute hset

section
variable {c : Connection} (hc : c.saved = none)
include hc

/-- A transaction does what its steps do, or nothing; also when it is rolled back under them. -/
theorem transaction {α β : Type} {steps : Exec α} (result : α → Except Error β) (hs : Does R steps) :
    R c.db.toTables (Sql.after (transaction steps result c)).db.toTables := by
  unfold AuctionHouse.transaction
  rcases hb : Sql.mapError failedToStart beginTransaction c with ⟨⟨⟩, c₁⟩ | ⟨e, c₁⟩
  · obtain ⟨-, hsaved, hdb⟩ := Sql.begin_ok (Sql.mapError_ok_iff.1 hb)
    rw [Sql.bind_of_ok hb, ← hdb]
    exact (Sql.Guard.scope_keeps h.reflexive hs result (hdb ▸ hsaved)).2
  · obtain ⟨e', hb'⟩ := Sql.mapError_error hb
    obtain ⟨-, hdb⟩ := (Sql.begin_error hb').idle hc
    rw [Sql.bind_of_error hb]
    show R c.db.toTables c₁.db.toTables
    rw [← hdb]
    exact h.refl _

theorem placeSellOrder {orderType : SellOrderType} {sellerId : UserId} {itemName : StringView}
    {quantity price : Int32} {unixExpirationTime : ℤ}
    (hs : Does R (placeSteps st orderType sellerId itemName quantity price unixExpirationTime)) :
    R c.db.toTables (Sql.after
      (placeSellOrder st orderType sellerId itemName quantity price unixExpirationTime c)).db.toTables := by
  rw [placeSellOrder_eq]
  simp only [Sql.ite_apply]
  split
  · exact h.refl _
  split
  · exact h.refl _
  split
  · exact h.refl _
  · exact h.transaction hc _ hs

theorem executeImmediateSellOrder {buyerId : UserId} {sellOrderId : Int32}
    (hs : ∀ order c', getSellOrderInfo sellOrderId c = .ok (some order) c' →
      Does R (executeSteps st buyerId sellOrderId order)) :
    R c.db.toTables (Sql.after (executeImmediateSellOrder st buyerId sellOrderId c)).db.toTables := by
  rw [executeImmediateSellOrder_eq]
  obtain ⟨info, c', hinfo, hdb, hsaved⟩ := getSellOrderInfo_after sellOrderId hc
  rw [Sql.bind_of_ok hinfo, ← hdb]
  rcases info with _ | order
  · exact h.refl _
  simp only [Sql.ite_apply]
  split
  · exact h.refl _
  split
  · exact h.refl _
  · exact h.transaction hsaved _ (hs order c' hinfo)

theorem placeBidOnAuctionSellOrder {buyerId : UserId} {sellOrderId bid : Int32}
    (hs : ∀ order, Does R (bidSteps st buyerId sellOrderId bid order)) :
    R c.db.toTables (Sql.after (placeBidOnAuctionSellOrder st buyerId sellOrderId bid c)).db.toTables := by
  rw [placeBidOnAuctionSellOrder_eq]
  obtain ⟨info, c', hinfo, hdb, hsaved⟩ := getSellOrderInfo_after sellOrderId hc
  rw [Sql.bind_of_ok hinfo, ← hdb]
  rcases info with _ | order
  · exact h.refl _
  simp only [Sql.ite_apply]
  split
  · exact h.refl _
  split
  · exact h.refl _
  split
  · exact h.refl _
  · exact h.transaction hsaved _ (hs order)

end

end Steady

/-! ## All statements -/

/-- A relation that every statement of the storage keeps, but for the insert of a user. -/
structure StatementWise (st : Storage) (R : Tables → Tables → Prop) : Prop where
  refl : ∀ t, R t t
  trans : ∀ t t' t'', R t t' → R t' t'' → R t t''
  createItem : ∀ t name, R t { t with items := t.items ++ [⟨newRowId (t.items.map (·.id)), name⟩] }
  addItem : ∀ u i q t, R t (addItem u i q t)
  reduceItem : ∀ u i q t, R t (reduceItem u i q t)
  /-- Only the row of another item than funds is deleted. -/
  removeItem : ∀ u i t, i ≠ st.fundsItemId.toInt → R t (removeItem u i t)
  insertSellOrder : ∀ order t, R t (insertSellOrder order t)
  removeSellOrder : ∀ id t, R t (removeSellOrder id t)
  setBuyer : ∀ id buyer price t, R t (setBuyer id buyer price t)
  settleItems : ∀ unixNow t, R t (settleItems st.fundsItemId.toInt unixNow t)
  deleteExpired : ∀ unixNow t, R t (deleteExpired unixNow t)

namespace StatementWise

variable {st : Storage} {R : Tables → Tables → Prop} (h : StatementWise st R)
include h

theorem steady : Steady R := ⟨h.refl, h.trans⟩

theorem does_createItem (itemName : StringView) : Does R (Storage.createItem itemName) := by
  refine keeps_executeWith h.refl fun t a t' he => ?_
  rcases itemName with _ | name
  · cases he
  · cases he
    exact h.createItem t name

theorem does_addUserItem (userId : UserId) (itemId quantity : Int32) :
    Does R (addUserItem userId itemId quantity) := by
  refine keeps_executeWith h.refl fun t a t' he => ?_
  split at he
  · cases he
  · cases he
    exact h.addItem _ _ _ t

theorem does_subUserItem (userId : UserId) (itemId quantity : Int32) :
    Does R (subUserItem st userId itemId quantity) := by
  refine h.steady.does_bind (h.steady.does_bind (Sql.Keeps.attempt (h.steady.does_query _)) fun _ =>
    h.steady.does_pure _) fun found => ?_
  rcases found with _ | userItemQuantity
  · exact h.steady.does_throw _
  refine Sql.Keeps.ite (h.steady.does_throw _) ?_
  split
  · exact h.steady.does_execute fun t => h.reduceItem _ _ _ t
  · rename_i hfunds
    have hne : itemId.toInt ≠ st.fundsItemId.toInt := fun he => hfunds (.inl (Int32.toInt_inj.1 he))
    exact h.steady.does_execute fun t => h.removeItem _ _ t hne

theorem does_deposit (userId : UserId) (itemName : StringView) (quantity : Int32) :
    Does R (deposit userId itemName quantity) := by
  rw [deposit_eq]
  refine Sql.Keeps.ite (h.steady.does_throw _) (h.steady.does_bind ?_ fun itemId => ?_)
  · exact Sql.Keeps.orElse h.steady.transitive (h.steady.does_getItemId itemName) (h.does_createItem itemName)
  · exact h.steady.does_bind (h.does_addUserItem userId itemId quantity) fun _ => h.steady.does_pure _

theorem does_settle (unixNow : ℤ) : Does R (settle st unixNow) := by
  refine h.steady.does_bind (Sql.Keeps.attempt (h.steady.does_query _)) fun _ => ?_
  refine h.steady.does_bind (Sql.Keeps.mapError (h.steady.does_execute (h.settleItems unixNow))) fun _ => ?_
  refine h.steady.does_bind (Sql.Keeps.mapError (h.steady.does_execute (h.deleteExpired unixNow))) fun _ => ?_
  exact h.steady.does_pure _

/-- Every operation but a login. -/
theorem exec {c : Connection} (hc : c.saved = none) {operation : Operation}
    (hop : ∀ username, operation ≠ .login username) :
    R c.db.toTables (Sql.after (operation.exec st c)).db.toTables := by
  cases operation <;> simp only [Operation.exec, Sql.after_map]
  case login username => exact absurd rfl (hop username)
  case deposit userId itemName quantity => exact ((h.does_deposit userId itemName quantity c).idle hc).2
  case withdraw userId itemName quantity =>
    exact ((h.steady.does_withdraw (fun itemId => h.does_subUserItem userId itemId quantity) c).idle hc).2
  case placeSellOrder orderType sellerId itemName quantity price unixExpirationTime =>
    exact h.steady.placeSellOrder hc (h.steady.does_placeSteps (h.does_subUserItem sellerId) h.insertSellOrder)
  case executeImmediateSellOrder buyerId sellOrderId =>
    exact h.steady.executeImmediateSellOrder hc fun order _ _ => h.steady.does_executeSteps
      (h.does_subUserItem _ _ _) (h.does_addUserItem _ _ _) (h.does_addUserItem _ _ _) (h.removeSellOrder _)
  case placeBidOnAuctionSellOrder buyerId sellOrderId bid =>
    exact h.steady.placeBidOnAuctionSellOrder hc fun order => h.steady.does_bidSteps
      (fun u q => h.does_addUserItem u _ q) (h.does_subUserItem _ _ _) (h.setBuyer _ _ _)
  case processExpiredSellOrders unixNow =>
    exact h.steady.transaction hc _ (h.does_settle unixNow)

end StatementWise

/-- That no statement opens a transaction is the case of the relation that says nothing. -/
theorem anything_statementWise (st : Storage) : StatementWise st fun _ _ => True where
  refl _ := trivial
  trans _ _ _ _ _ := trivial
  createItem _ _ := trivial
  addItem _ _ _ _ := trivial
  reduceItem _ _ _ _ := trivial
  removeItem _ _ _ _ := trivial
  insertSellOrder _ _ := trivial
  removeSellOrder _ _ := trivial
  setBuyer _ _ _ _ := trivial
  settleItems _ _ := trivial
  deleteExpired _ _ := trivial

end AuctionHouse
