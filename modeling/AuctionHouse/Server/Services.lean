/-
user_service.cpp and auction_service.cpp: logins, deposits, withdrawals, sell orders, purchases
and bids, as chains of storage statements.
-/
import AuctionHouse.Server.Storage

namespace AuctionHouse

open Storage

/-! ## UserService -/

def UserService.login (st : Storage) (username : StringView) : Exec User := do
  if username.bytes = [] then throw (text "Username cannot be empty")
  match ← getUserId username with
  | some id => return ⟨id, username.bytes⟩
  | none =>
    let id ← createUser username
    -- a row for the balance
    addUserItem id st.fundsItemId 0
    return ⟨id, username.bytes⟩

namespace AuctionService

/-- 5% of the price and 1 fixed. -/
def sellOrderFee (price : Int32) : Int32 := price / 20 + 1

def addFunds (st : Storage) (userId : UserId) (quantity : Int32) : Exec Unit :=
  addUserItem userId st.fundsItemId quantity

def subFunds (st : Storage) (userId : UserId) (quantity : Int32) : Exec Unit :=
  subUserItem st userId st.fundsItemId quantity

def deposit (userId : UserId) (itemName : StringView) (quantity : Int32) : Exec ItemOperationInfo := do
  if quantity < 0 then throw (text "Cannot deposit negative amount")
  let itemId ← Sql.orElse (getItemId itemName) (createItem itemName)
  addUserItem userId itemId quantity
  return ⟨itemId, quantity⟩

def withdraw (st : Storage) (userId : UserId) (itemName : StringView) (quantity : Int32) :
    Exec ItemOperationInfo := do
  if quantity < 0 then throw (text "Cannot withdraw negative amount")
  Sql.mapError (fun _ => text "Not enough " ++ itemName.bytes ++ text "(s) to withdraw") do
    let itemId ← getItemId itemName
    subUserItem st userId itemId quantity
    return ⟨itemId, quantity⟩

/-! ## Sell orders -/

/-- The steps of `place_sell_order` between BEGIN and COMMIT. -/
def placeSteps (st : Storage) (orderType : SellOrderType) (sellerId : UserId) (itemName : StringView)
    (quantity price : Int32) (unixExpirationTime : ℤ) : Exec Unit := do
  let fee := sellOrderFee price
  -- first, take items from the seller
  let itemId ← Sql.mapError (fun _ => text "Not enough " ++ itemName.bytes ++ text "(s) to sell") do
    let itemId ← getItemId itemName
    subUserItem st sellerId itemId quantity
    return itemId
  -- then the fee
  Sql.mapError (fun _ => text "Not enough funds to pay " ++ decimal fee ++ text " funds fee (which is 5% + 1)")
    (subFunds st sellerId fee)
  createSellOrder {
    sellerId
    itemId
    quantity
    price
    unixExpirationTime
    buyerId := if orderType = .immediate then some sellerId else none }

def placeSellOrder (st : Storage) (orderType : SellOrderType) (sellerId : UserId) (itemName : StringView)
    (quantity price : Int32) (unixExpirationTime : ℤ) : Exec ItemOperationInfo := do
  if quantity < 0 then throw (text "Cannot sell negative amount")
  if price < 0 then throw (text "Cannot sell for negative price")
  if itemName = some fundsItemName then
    throw (text "Cannot sell " ++ fundsItemName ++ text " for " ++ fundsItemName ++ text ", it's a speculation!")
  Sql.mapError failedToStart beginTransaction
  Sql.Guard.scope do
    Sql.Guard.lift (placeSteps st orderType sellerId itemName quantity price unixExpirationTime)
    commit
    Sql.ofExcept (.ok ⟨st.fundsItemId, sellOrderFee price⟩)

/-! ## Immediate orders -/

/-- The steps of `execute_immediate_sell_order` between BEGIN and COMMIT. -/
def executeSteps (st : Storage) (buyerId : UserId) (sellOrderId : Int32) (order : SellOrderInnerInfo) :
    Exec Unit := do
  Sql.mapError (fun _ => text "Not enough funds to buy") (subFunds st buyerId order.price)
  addFunds st order.sellerId order.price
  addUserItem buyerId order.itemId order.quantity
  deleteSellOrder sellOrderId

def executeImmediateSellOrder (st : Storage) (buyerId : UserId) (sellOrderId : Int32) :
    Exec SellOrderExecutionInfo := do
  match ← getSellOrderInfo sellOrderId with
  | none => throw (text "Immediate sell order #" ++ decimal sellOrderId ++ text " doesn't exist")
  | some order =>
    if order.type ≠ .immediate then
      throw (text "Sell order #" ++ decimal sellOrderId ++ text " is not an immediate sell order")
    if buyerId = order.sellerId then throw (text "You can't buy your own items")
    Sql.mapError failedToStart beginTransaction
    Sql.Guard.scope do
      Sql.Guard.lift (executeSteps st buyerId sellOrderId order)
      commit
      Sql.ofExcept (.ok ⟨sellOrderId, order.sellerId, buyerId, order.itemId, order.quantity, order.price⟩)

/-! ## Bids -/

/-- The refund of the previous bidder, if there is one. -/
def returnFunds (st : Storage) (order : SellOrderInnerInfo) : Exec Unit :=
  match order.buyerId with
  | none => pure ()
  | some previous =>
    Sql.mapError (text "Failed to return funds to the previous buyer: " ++ ·) (addFunds st previous order.price)

/-- The steps of `place_bid_on_auction_sell_order` between BEGIN and COMMIT. -/
def bidSteps (st : Storage) (buyerId : UserId) (sellOrderId bid : Int32) (order : SellOrderInnerInfo) :
    Exec Unit := do
  -- first, so that a bidder who raises an own bid is charged the difference
  returnFunds st order
  Sql.mapError (fun _ => text "Not enough funds to buy") (subFunds st buyerId bid)
  updateSellOrderBuyer sellOrderId buyerId bid

def placeBidOnAuctionSellOrder (st : Storage) (buyerId : UserId) (sellOrderId bid : Int32) : Exec Unit := do
  match ← getSellOrderInfo sellOrderId with
  | none => throw (text "Sell order #" ++ decimal sellOrderId ++ text " doesn't exist")
  | some order =>
    if order.type ≠ .auction then
      throw (text "Sell order #" ++ decimal sellOrderId ++ text " is not an auction sell order")
    if buyerId = order.sellerId then throw (text "You cannot bid on your own auction orders")
    if bid ≤ order.price then throw (text "Bid must be greater than the current price")
    Sql.mapError failedToStart beginTransaction
    Sql.Guard.scope do
      Sql.Guard.lift (bidSteps st buyerId sellOrderId bid order)
      commit
      Sql.ofExcept (.ok ())

end AuctionService

end AuctionHouse
