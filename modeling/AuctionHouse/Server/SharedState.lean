/-
shared_state.hpp, transaction_log.cpp and notification_service.hpp: the state of the server that its
commands and its settlement coroutine share.
-/
import AuctionHouse.Server.Services

namespace AuctionHouse

/-! ## TransactionLog -/

/-- A message of the transaction log. -/
inductive LogMessage where
  | item (operationName : Bytes) (itemId quantity : Int32)
  | sold (itemId quantity price orderId : Int32)
  | bought (itemId quantity price orderId : Int32)
  deriving DecidableEq

/-- An entry of the transaction log without its timestamp. -/
structure LogEntry where
  userId : UserId
  message : LogMessage
  deriving DecidableEq

/-- How a message is written. -/
def LogMessage.text : LogMessage → Bytes
  | .item operationName itemId quantity =>
    operationName ++ AuctionHouse.text " .item_id=" ++ decimal itemId ++ AuctionHouse.text " .quantity=" ++
      decimal quantity
  | .sold itemId quantity price orderId => order (AuctionHouse.text "sold") itemId quantity price orderId
  | .bought itemId quantity price orderId => order (AuctionHouse.text "bought") itemId quantity price orderId
where
  order (what : Bytes) (itemId quantity price orderId : Int32) : Bytes :=
    what ++ AuctionHouse.text " .item_id=" ++ decimal itemId ++ AuctionHouse.text " .quantity=" ++ decimal quantity ++
      AuctionHouse.text " .price=" ++ decimal price ++ AuctionHouse.text " .order_id=" ++ decimal orderId

/-- How an entry is written, after its timestamp. -/
def LogEntry.line (e : LogEntry) : Bytes :=
  text "user\x7b.id=" ++ decimal e.userId ++ text "\x7d " ++ e.message.text ++ text "\n"

abbrev TransactionLog := List LogEntry

namespace TransactionLog

def log (userId : UserId) (message : LogMessage) (l : TransactionLog) : TransactionLog := l ++ [⟨userId, message⟩]

/-- `save` of an operation with items. -/
def saveItem (userId : UserId) (operationName : Bytes) (info : ItemOperationInfo) (l : TransactionLog) :
    TransactionLog := l.log userId (.item operationName info.itemId info.quantity)

/-- `save` of an executed order: an entry of its seller and one of its buyer. -/
def saveOrder (info : SellOrderExecutionInfo) (l : TransactionLog) : TransactionLog :=
  (l.log info.sellerId (.sold info.itemId info.quantity info.price info.id)).log info.buyerId
    (.bought info.itemId info.quantity info.price info.id)

end TransactionLog

/-! ## NotificationService -/

structure ExecutedSellOrder where
  orderId : Int32
  price : Int32
  deriving DecidableEq

abbrev NotificationService := List (UserId × ExecutedSellOrder)

namespace NotificationService

def push (userId : UserId) (notification : ExecutedSellOrder) (n : NotificationService) : NotificationService :=
  n ++ [(userId, notification)]

/-- `pop`, which is called only when `empty` is false: the notification pushed first. -/
def pop : NotificationService → Option ((UserId × ExecutedSellOrder) × NotificationService)
  | [] => none
  | notification :: rest => some (notification, rest)

end NotificationService

/-! ## Executed orders -/

/-- The entries of an executed order. -/
def SellOrderExecutionInfo.entries (info : SellOrderExecutionInfo) : List LogEntry :=
  [⟨info.sellerId, .sold info.itemId info.quantity info.price info.id⟩,
    ⟨info.buyerId, .bought info.itemId info.quantity info.price info.id⟩]

/-- The notification of an executed order. -/
def SellOrderExecutionInfo.notification (info : SellOrderExecutionInfo) : UserId × ExecutedSellOrder :=
  (info.sellerId, ⟨info.id, info.price⟩)

/-! ## SharedState -/

/-- A client's connection, by the number of connections accepted before it. -/
abbrev Socket := ℕ

/-- The state of the server. Its connection to the database is idle between two operations. -/
structure SharedState where
  storage : Storage
  db : Database
  transactionLog : TransactionLog := []
  notifications : NotificationService := []
  /-- The map from user ids to sockets for sending notifications. -/
  sockets : UserId → Option Socket := fun _ => none

namespace SharedState

/-- Runs a program of the services on the connection, with the refusals of its statements. -/
def onStorage {α : Type} (x : Storage → Exec α) (faults : List (Option (Sql.Fault Error))) :
    StateM SharedState (Except Error α) := fun s =>
  let r := x s.storage (Sql.Connection.idle s.db faults)
  (Sql.outcome r, { s with db := (Sql.after r).db })

def save (userId : UserId) (operationName : Bytes) (info : ItemOperationInfo) : StateM SharedState Unit :=
  modify fun s => { s with transactionLog := s.transactionLog.saveItem userId operationName info }

/-- Logs an executed order and notifies its seller. -/
def saveExecuted (info : SellOrderExecutionInfo) : StateM SharedState Unit :=
  modify fun s => { s with
    transactionLog := s.transactionLog.saveOrder info
    notifications := s.notifications.push info.sellerId ⟨info.id, info.price⟩ }

@[simp] theorem save_run (userId : UserId) (operationName : Bytes) (info : ItemOperationInfo) (s : SharedState) :
    save userId operationName info s =
      ((), { s with transactionLog := s.transactionLog.saveItem userId operationName info }) := rfl

@[simp] theorem saveExecuted_run (info : SellOrderExecutionInfo) (s : SharedState) :
    saveExecuted info s = ((), { s with
      transactionLog := s.transactionLog ++ info.entries
      notifications := s.notifications ++ [info.notification] }) := by
  simp [saveExecuted, modify, modifyGet, MonadStateOf.modifyGet, StateT.modifyGet, TransactionLog.saveOrder,
    TransactionLog.log, SellOrderExecutionInfo.entries, NotificationService.push, SellOrderExecutionInfo.notification]
  rfl

/-- What a list of executed orders adds to the log and to the notifications. -/
theorem saveExecuted_forM : ∀ (orders : List SellOrderExecutionInfo) (s : SharedState),
    (orders.forM saveExecuted s).2 = { s with
      transactionLog := s.transactionLog ++ orders.flatMap SellOrderExecutionInfo.entries
      notifications := s.notifications ++ orders.map SellOrderExecutionInfo.notification }
  | [], s => by
    show s = _
    simp
  | info :: orders, s => by
    have ih := saveExecuted_forM orders (saveExecuted info s).2
    show (orders.forM saveExecuted (saveExecuted info s).2).2 = _
    rw [ih]
    simp

end SharedState

end AuctionHouse
