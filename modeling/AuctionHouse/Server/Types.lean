/-
The value types of types.hpp and the C++ and SQLite values they are made of: byte strings, string
views, `int`, and the reading of a 64-bit column into an `int`.
-/
import Mathlib.Tactic.Common
import Mathlib.Data.Int.Basic

namespace AuctionHouse

/-! ## Strings -/

abbrev Bytes := List UInt8

/-- An ASCII literal. -/
def text (s : String) : Bytes := s.toList.map fun c => c.toNat.toUInt8

/-- A `std::string_view`; none when its data pointer is null, which SQLite binds as NULL. -/
abbrev StringView := Option Bytes

/-- The characters of a view; a null view is empty. -/
def StringView.bytes (v : StringView) : Bytes := v.getD []

/-! ## Integers -/

/-- `INT_MAX`. -/
def intMax : ℤ := 2147483647

/-- `sqlite3_column_int`: the low 32 bits of a 64-bit column. -/
def columnInt (n : ℤ) : Int32 := Int32.ofInt n

/-- `fmt` of an `int`. -/
def decimal (n : Int32) : Bytes := text (toString n.toInt)

theorem columnInt_of_fits {n : ℤ} (h0 : 0 ≤ n) (h : n ≤ intMax) : (columnInt n).toInt = n := by
  unfold intMax at h
  exact Int32.toInt_ofInt_of_le (by omega) (by omega)

@[simp] theorem columnInt_toInt (n : Int32) : columnInt n.toInt = n := Int32.ofInt_toInt n

theorem columnInt_inj {a b : ℤ} (ha : (columnInt a).toInt = a) (hb : (columnInt b).toInt = b) :
    columnInt a = columnInt b ↔ a = b :=
  ⟨fun h => by rw [← ha, h, hb], fun h => by rw [h]⟩

/-- Reading a column as an `int` never makes a nonnegative number larger. -/
theorem columnInt_le {n : ℤ} (h : 0 ≤ n) : (columnInt n).toInt ≤ n := by
  unfold columnInt
  rw [Int32.toInt_ofInt, Int.bmod_def, show ((Int32.size : ℕ) : ℤ) = 4294967296 from rfl]
  split <;> omega

/-- A quantity that a column reads as at least is in the column. -/
theorem le_of_le_columnInt {q : Int32} {n : ℤ} (hn : 0 ≤ n) (h : q ≤ columnInt n) : q.toInt ≤ n :=
  Int.le_trans (Int32.le_iff_toInt_le.1 h) (columnInt_le hn)

theorem toInt_le_intMax (n : Int32) : n.toInt ≤ intMax := by
  have := n.toInt_lt
  unfold intMax
  omega

/-! ## types.hpp -/

abbrev UserId := Int32

structure User where
  id : UserId
  username : Bytes
  deriving DecidableEq

inductive SellOrderType where
  /-- Executed as soon as someone buys it. -/
  | immediate
  /-- Executed for the highest bid once it expires. -/
  | auction
  deriving DecidableEq

/-- A record for the transaction log. -/
structure ItemOperationInfo where
  itemId : Int32
  quantity : Int32
  deriving DecidableEq

/-- An executed order, close to how it is stored. -/
structure SellOrderExecutionInfo where
  id : Int32
  sellerId : UserId
  buyerId : UserId
  itemId : Int32
  quantity : Int32
  price : Int32
  deriving DecidableEq

end AuctionHouse
