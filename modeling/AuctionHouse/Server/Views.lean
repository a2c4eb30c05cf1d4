/-
The listings of storage.cpp, `view_user_items` and `view_sell_orders`, with what is read of a
column into a `std::string` and an `int`, and the DATETIME of the vendored SQLite.
-/
import AuctionHouse.Server.Storage

namespace AuctionHouse

/-! ## Columns -/

/-- A `std::string` made from `sqlite3_column_text`, which ends at the first NUL. -/
def columnText (s : Bytes) : Bytes := s.takeWhile fun c => decide (c ≠ 0)

/-! ## DATETIME -/

/-- The last decimal digit of a number. -/
def digitOf (n : ℤ) : UInt8 := (48 + n % 10).toNat.toUInt8

/-- `computeYMD`: year, month and day of a Julian day number times 86400000. -/
def computeYMD (iJD : ℤ) : ℤ × ℤ × ℤ :=
  let Z := (iJD + 43200000) / 86400000
  let A := (4 * Z - 7468865).tdiv 146097 -- (Z - 1867216.25) / 36524.25
  let A := Z + 1 + A - A.tdiv 4
  let B := A + 1524
  let C := (20 * B - 2442).tdiv 7305 -- (B - 122.1) / 365.25
  let D := 36525 * (C % 32768) / 100
  let E := (10000 * (B - D)).tdiv 306001 -- (B - D) / 30.6001
  let X1 := 306001 * E / 10000
  let month := if E < 14 then E - 1 else E - 13
  (if 2 < month then C - 4716 else C - 4715, month, B - D - X1)

/-- `datetimeFunc`: "YYYY-MM-DD HH:MM:SS". -/
def dateText (iJD : ℤ) : Bytes :=
  let (year, month, day) := computeYMD iJD
  let ms := (iJD + 43200000) % 86400000
  let s := ms % 60000 / 1000
  let m := ms / 60000 % 60
  let h := ms / 60000 / 60
  let Y := |year|
  let two (n : ℤ) : Bytes := [digitOf (n / 10), digitOf n]
  (if year < 0 then text "-" else []) ++ two (Y / 100) ++ two Y ++ text "-" ++ two month ++ text "-" ++ two day ++
    text " " ++ two h ++ text ":" ++ two m ++ text ":" ++ two s

/-- `DATETIME(t, 'unixepoch')`, which is NULL outside the dates of SQLite. -/
def datetime (t : ℤ) : Option Bytes :=
  let iJD := t * 1000 + 210866760000000
  if 0 ≤ iJD ∧ iJD < 464269060800000 then some (dateText iJD) else none

example : datetime 1793956207 = some (text "2026-11-06 09:10:07") := by decide

/-! ## Listings -/

structure UserItemInfo where
  itemName : Bytes
  quantity : Int32
  deriving DecidableEq

structure SellOrderInfo where
  id : Int32
  sellerName : Bytes
  itemName : Bytes
  quantity : Int32
  price : Int32
  expirationTime : Bytes
  type : SellOrderType
  deriving DecidableEq

namespace Storage

/-- The order of the primary key among the rows of one user. -/
def inKeyOrder (a b : UserItemRow) : Prop := a.itemId ≤ b.itemId

instance : DecidableRel inKeyOrder := fun _ _ => inferInstanceAs (Decidable (_ ≤ _))

/-- `FROM user_items INNER JOIN items ON user_items.item_id = items.id WHERE user_items.user_id = ?1`, which
scans the primary key of `user_items`. -/
def selectUserItems (userId : ℤ) (t : Tables) : List (UserItemRow × ItemRow) :=
  Sql.innerJoin (fun r i => decide (i.id = r.itemId))
    ((t.userItems.filter fun r => decide (r.userId = userId)).insertionSort inKeyOrder) t.items

def userItemInfo : UserItemRow × ItemRow → UserItemInfo
  | (r, i) => ⟨columnText i.name, columnInt r.quantity⟩

def viewUserItems (userId : UserId) : Exec (List UserItemInfo) :=
  query fun t => .ok ((selectUserItems userId.toInt t).map userItemInfo)

/-- `FROM sell_orders INNER JOIN users ON … INNER JOIN items ON …`. -/
def selectSellOrders (t : Tables) : List ((SellOrderRow × UserRow) × ItemRow) :=
  Sql.innerJoin (fun p i => decide (i.id = p.1.itemId))
    (Sql.innerJoin (fun o u => decide (u.id = o.sellerId)) t.sellOrders t.users) t.items

/-- An entry of the listing. A NULL buyer reads as 0; a string made from a NULL date is undefined. -/
def sellOrderInfo : (SellOrderRow × UserRow) × ItemRow → Option SellOrderInfo
  | ((o, u), i) => (datetime o.expirationTime).map fun expirationTime => {
      id := columnInt o.id
      sellerName := columnText u.username
      itemName := columnText i.name
      quantity := columnInt o.quantity
      price := columnInt o.price
      expirationTime
      type := if columnInt o.sellerId = columnInt (o.buyerId.getD 0) then .immediate else .auction }

/-- None when the listing is undefined. -/
def viewSellOrders : Exec (Option (List SellOrderInfo)) :=
  query fun t => .ok ((selectSellOrders t).mapM sellOrderInfo)

end Storage

end AuctionHouse
