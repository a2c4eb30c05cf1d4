/-
storage.cpp and storage.hpp: every statement of the storage as a function of the tables, and the
transaction that settles expired sell orders.
-/
import AuctionHouse.Server.Schema

namespace AuctionHouse

/-- `FUNDS_ITEM_NAME`: funds are stored as an item. -/
def fundsItemName : Bytes := text "funds"

/-- An open storage: the id of the funds item read when it was opened. -/
structure Storage where
  fundsItemId : Int32
  deriving DecidableEq

namespace Storage

/-! ## Transactions -/

abbrev TransactionGuard := Sql.Guard
abbrev Guarded (α : Type) := Sql.Guarded Database Error α

def beginTransaction : Exec Unit :=
  Sql.begin (text "Failed to execute SQL: cannot start a transaction within a transaction")

/-- `TransactionGuard::commit`. -/
def commit : Guarded Unit :=
  Sql.Guard.commit (text "Transaction already committed")
    (text "Failed to execute SQL: cannot commit - no transaction is active")

/-- The error of a caller whose `beginTransaction` failed. -/
def failedToStart (e : Error) : Error := text "Failed to start transaction: " ++ e

/-! ## Users and items -/

/-- `SELECT id FROM users WHERE username = ?1`; NULL equals no name. -/
def selectUserId (username : StringView) (t : Tables) : Except Error UserId :=
  match t.users.find? fun u => decide (some u.username = username) with
  | some u => .ok (columnInt u.id)
  | none => .error noMoreRows

/-- `SELECT id FROM items WHERE name = ?1`. -/
def selectItemId (itemName : StringView) (t : Tables) : Except Error Int32 :=
  match t.items.find? fun i => decide (some i.name = itemName) with
  | some i => .ok (columnInt i.id)
  | none => .error noMoreRows

def getUserId (username : StringView) : Exec (Option UserId) := do
  let userId ← Sql.attempt (query (selectUserId username))
  return userId.toOption

/-- The insert, which NULL fails, and `last_insert_rowid`, which is cast to `int`. -/
def createUser (username : StringView) : Exec UserId := executeWith fun t =>
  match username with
  | none => .error constraintFailed
  | some name =>
    let id := newRowId (t.users.map (·.id))
    .ok (columnInt id, { t with users := t.users ++ [⟨id, name⟩] })

def createItem (itemName : StringView) : Exec Int32 := executeWith fun t =>
  match itemName with
  | none => .error constraintFailed
  | some name =>
    let id := newRowId (t.items.map (·.id))
    .ok (columnInt id, { t with items := t.items ++ [⟨id, name⟩] })

def getItemId (itemName : StringView) : Exec Int32 := query (selectItemId itemName)

/-! ## Opening -/

/-- `INSERT OR IGNORE INTO items (name) VALUES ('funds')`. -/
def insertFundsItem (t : Tables) : Tables :=
  if ∃ i ∈ t.items, i.name = fundsItemName then t
  else { t with items := t.items ++ [⟨newRowId (t.items.map (·.id)), fundsItemName⟩] }

theorem insertFundsItem_of_mem {t : Tables} {i : ItemRow} (hi : i ∈ t.items) (hn : i.name = fundsItemName) :
    insertFundsItem t = t := if_pos ⟨i, hi, hn⟩

/-- `Storage::open` once the tables exist: creates the funds item if there is none and reads its
id back. -/
def «open» : Exec Storage := do
  Sql.mapError (text "Failed to insert 'funds' item: " ++ ·) (execute insertFundsItem)
  let fundsItemId ← Sql.mapError (text "Failed to get 'funds' item id: " ++ ·) <|
    query (selectItemId (some fundsItemName))
  return ⟨fundsItemId⟩

/-! ## Inventories -/

/-- `SELECT quantity FROM user_items WHERE user_id = ?1 AND item_id = ?2`. -/
def selectQuantity (userId itemId : ℤ) (t : Tables) : Except Error Int32 :=
  match Sql.find UserItemRow.key (userId, itemId) t.userItems with
  | some r => .ok (columnInt r.quantity)
  | none => .error noMoreRows

def getUserItemsQuantity (userId : UserId) (itemId : Int32) : Exec (Option Int32) := do
  let quantity ← Sql.attempt (query (selectQuantity userId.toInt itemId.toInt))
  return quantity.toOption

/-- `INSERT … ON CONFLICT (user_id, item_id) DO UPDATE SET quantity = quantity + ?3`. -/
def addItem (userId itemId quantity : ℤ) (t : Tables) : Tables :=
  { t with
    userItems := Sql.upsert UserItemRow.key ⟨userId, itemId, quantity⟩ (UserItemRow.add quantity) t.userItems }

/-- `UPDATE user_items SET quantity = quantity - ?3 WHERE user_id = ?1 AND item_id = ?2`. -/
def reduceItem (userId itemId quantity : ℤ) (t : Tables) : Tables :=
  { t with
    userItems := Sql.update UserItemRow.key (userId, itemId) (UserItemRow.sub quantity) t.userItems }

/-- `DELETE FROM user_items WHERE user_id = ?1 AND item_id = ?2`. -/
def removeItem (userId itemId : ℤ) (t : Tables) : Tables :=
  { t with userItems := Sql.delete UserItemRow.key (userId, itemId) t.userItems }

/-- CHECK(quantity >= 0) is tested on the inserted row before the conflict is. -/
def addUserItem (userId : UserId) (itemId quantity : Int32) : Exec Unit := executeWith fun t =>
  if quantity < 0 then .error constraintFailed
  else .ok ((), addItem userId.toInt itemId.toInt quantity.toInt t)

def failedToWithdraw (quantity : Int32) : Error := text "Failed to withdraw " ++ decimal quantity ++ text " items."

/-- The balance is compared as the `int` read from its column, while the update is made on the
column. -/
def subUserItem (st : Storage) (userId : UserId) (itemId quantity : Int32) : Exec Unit := do
  match ← getUserItemsQuantity userId itemId with
  | none => throw (failedToWithdraw quantity)
  | some userItemQuantity =>
    if userItemQuantity < quantity then throw (failedToWithdraw quantity)
    else if itemId = st.fundsItemId ∨ quantity < userItemQuantity then
      execute (reduceItem userId.toInt itemId.toInt quantity.toInt)
    else
      -- taken for an emptied stack, whose row is not kept
      execute (removeItem userId.toInt itemId.toInt)

/-! ## Sell orders -/

structure SellOrder where
  sellerId : UserId
  itemId : Int32
  quantity : Int32
  price : Int32
  unixExpirationTime : ℤ
  buyerId : Option UserId

structure SellOrderInnerInfo where
  sellerId : Int32
  itemId : Int32
  quantity : Int32
  price : Int32
  buyerId : Option Int32
  deriving DecidableEq

def SellOrderInnerInfo.type (o : SellOrderInnerInfo) : SellOrderType :=
  if o.buyerId = some o.sellerId then .immediate else .auction

/-- AUTOINCREMENT takes a row id above every id of the table and every id it ever issued. -/
def nextSellOrderId (t : Tables) : ℤ := newRowId (t.sellOrdersSeq :: t.sellOrders.map (·.id))

/-- The row of a new order. -/
def SellOrder.row (order : SellOrder) (id : ℤ) : SellOrderRow where
  id
  sellerId := order.sellerId.toInt
  itemId := order.itemId.toInt
  quantity := order.quantity.toInt
  price := order.price.toInt
  expirationTime := order.unixExpirationTime
  buyerId := order.buyerId.map (·.toInt)

/-- `INSERT INTO sell_orders …`. -/
def insertSellOrder (order : SellOrder) (t : Tables) : Tables :=
  { t with
    sellOrders := t.sellOrders ++ [order.row (nextSellOrderId t)]
    sellOrdersSeq := nextSellOrderId t }

/-- `DELETE FROM sell_orders WHERE id = ?1`. -/
def removeSellOrder (orderId : ℤ) (t : Tables) : Tables :=
  { t with sellOrders := Sql.delete SellOrderRow.id orderId t.sellOrders }

/-- `UPDATE sell_orders SET buyer_id = ?1, price = ?2 WHERE id = ?3`. -/
def setBuyer (orderId buyerId price : ℤ) (t : Tables) : Tables :=
  { t with
    sellOrders := Sql.update SellOrderRow.id orderId (SellOrderRow.setBuyer buyerId price) t.sellOrders }

def createSellOrder (order : SellOrder) : Exec Unit := execute (insertSellOrder order)

def deleteSellOrder (orderId : Int32) : Exec Unit := execute (removeSellOrder orderId.toInt)

def updateSellOrderBuyer (orderId : Int32) (buyerId : UserId) (price : Int32) : Exec Unit :=
  execute (setBuyer orderId.toInt buyerId.toInt price.toInt)

def innerInfo (o : SellOrderRow) : SellOrderInnerInfo where
  sellerId := columnInt o.sellerId
  itemId := columnInt o.itemId
  quantity := columnInt o.quantity
  price := columnInt o.price
  buyerId := o.buyerId.map columnInt

def selectSellOrder (sellOrderId : ℤ) (t : Tables) : Except Error SellOrderInnerInfo :=
  match Sql.find SellOrderRow.id sellOrderId t.sellOrders with
  | some o => .ok (innerInfo o)
  | none => .error noMoreRows

def getSellOrderInfo (sellOrderId : Int32) : Exec (Option SellOrderInnerInfo) := do
  let info ← Sql.attempt (query (selectSellOrder sellOrderId.toInt))
  return info.toOption

/-! ## Settlement of expired sell orders -/

/-- `buyer_id IS NOT NULL AND buyer_id != seller_id`. -/
def hasBid (o : SellOrderRow) : Bool := o.buyerId.isSome && o.buyerId != some o.sellerId

/-- `CASE WHEN buyer_id IS NULL OR buyer_id = seller_id THEN seller_id ELSE buyer_id END`. -/
def itemsTo (o : SellOrderRow) : ℤ :=
  match o.buyerId with
  | none => o.sellerId
  | some b => if b = o.sellerId then o.sellerId else b

def expired (unixNow : ℤ) (t : Tables) : List SellOrderRow :=
  t.sellOrders.filter fun o => decide (o.expirationTime ≤ unixNow)

/-- A row of the first query; a NULL column reads as 0. -/
def executionInfo (o : SellOrderRow) : SellOrderExecutionInfo where
  id := columnInt o.id
  sellerId := columnInt o.sellerId
  buyerId := columnInt (o.buyerId.getD 0)
  itemId := columnInt o.itemId
  quantity := columnInt o.quantity
  price := columnInt o.price

/-- The order of the index on `expiration_time`, whose entries end in the row id. -/
def inIndexOrder (a b : SellOrderRow) : Prop :=
  a.expirationTime < b.expirationTime ∨ a.expirationTime = b.expirationTime ∧ a.id ≤ b.id

instance : DecidableRel inIndexOrder := fun _ _ => inferInstanceAs (Decidable (_ ∨ _))

/-- The executed auction orders, as the scan of the index finds them. -/
def executedAuctions (unixNow : ℤ) (t : Tables) : List SellOrderRow :=
  ((expired unixNow t).filter hasBid).insertionSort inIndexOrder

theorem executedAuctions_perm (unixNow : ℤ) (t : Tables) :
    (executedAuctions unixNow t).Perm ((expired unixNow t).filter hasBid) := List.perm_insertionSort _ _

theorem mem_executedAuctions {unixNow : ℤ} {t : Tables} {o : SellOrderRow} :
    o ∈ executedAuctions unixNow t ↔ o ∈ t.sellOrders ∧ o.expirationTime ≤ unixNow ∧ hasBid o := by
  rw [(executedAuctions_perm unixNow t).mem_iff, List.mem_filter, expired, List.mem_filter, decide_eq_true_eq, and_assoc]

/-- All executed auction orders. -/
def executedAuctionOrders (unixNow : ℤ) (t : Tables) : List SellOrderExecutionInfo :=
  (executedAuctions unixNow t).map executionInfo

/-- `aggregated_orders`: the items of expired orders by the user they go to and the item, and the
prices of executed auctions by seller. -/
def aggregatedOrders (fundsItemId unixNow : ℤ) (t : Tables) : List ((ℤ × ℤ) × ℤ) :=
  Sql.groupSum ((expired unixNow t).map fun o => ((itemsTo o, o.itemId), o.quantity)) ++
    (Sql.groupSum (((expired unixNow t).filter hasBid).map fun o => (o.sellerId, o.price))).map
      fun p => ((p.1, fundsItemId), p.2)

/-- `INSERT OR REPLACE INTO user_items … SELECT … FROM aggregated_orders LEFT JOIN user_items`;
the select is evaluated before the first row is replaced. -/
def settleItems (fundsItemId unixNow : ℤ) (t : Tables) : Tables :=
  let rows := (Sql.leftJoin (fun a r => decide (UserItemRow.key r = a.1))
    (aggregatedOrders fundsItemId unixNow t) t.userItems).map fun (a, r) =>
      { userId := a.1.1, itemId := a.1.2, quantity := (r.map (·.quantity)).getD 0 + a.2 : UserItemRow }
  { t with userItems := Sql.replaceAll UserItemRow.key rows t.userItems }

/-- `DELETE FROM sell_orders WHERE expiration_time <= ?1`. -/
def deleteExpired (unixNow : ℤ) (t : Tables) : Tables :=
  { t with sellOrders := t.sellOrders.filter fun o => !decide (o.expirationTime ≤ unixNow) }

/-- The statements between BEGIN and COMMIT. The outcome of the first query is kept unchecked. -/
def settle (st : Storage) (unixNow : ℤ) : Exec (Except Error (List SellOrderExecutionInfo)) := do
  let executed ← Sql.attempt <| query fun t => .ok (executedAuctionOrders unixNow t)
  Sql.mapError (text "Failed to cancel expired sell orders: " ++ ·) <|
    execute (settleItems st.fundsItemId.toInt unixNow)
  Sql.mapError (text "Failed to delete expired sell orders: " ++ ·) <| execute (deleteExpired unixNow)
  return executed

def processExpiredSellOrders (st : Storage) (unixNow : ℤ) : Exec (List SellOrderExecutionInfo) := do
  Sql.mapError failedToStart beginTransaction
  Sql.Guard.scope do
    let executed ← Sql.Guard.lift (settle st unixNow)
    commit
    Sql.ofExcept executed

end Storage

end AuctionHouse
