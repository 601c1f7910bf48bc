import Mathlib.Algebra.Ring.Nat
import Mathlib.Data.List.Basic
/-!
# Parcels

What two processes hand each other through the binder: numbers, strings and
arrays, one behind the other. How an item is laid out is the platform's own
affair. A `Format` is what can be written and read, over whatever cells a parcel
consists of, and its laws are that a reader gives back what the writer of its
kind wrote, with whatever comes behind it left to be read.
-/

namespace Dynamicloader

namespace Parcel

abbrev Bytes := List UInt8

/-- UTF-16, as both sides have their strings. -/
abbrev String16 := List (BitVec 16)

/-- What a platform writes into the cells `C` of a parcel and reads from them; `ε`
is what is thrown. -/
structure Format (C ε : Type) where
  writeInt32 : BitVec 32 → List C
  readInt32 : List C → BitVec 32 × List C
  writeInt64 : BitVec 64 → List C
  readInt64 : List C → BitVec 64 × List C
  writeString16 : String16 → List C
  /-- `none` is `null`. -/
  readString16 : List C → Option String16 × List C
  /-- The bytes, without their number. -/
  write : Bytes → List C
  /-- `none` is `null`. -/
  createByteArray : List C → Option Bytes × List C
  writeInterfaceToken : String16 → List C
  /-- What is left behind the token, if it is the one of the interface. -/
  enforceInterface : String16 → List C → Option (List C)
  writeNoException : List C
  readException : List C → Except ε (List C)
  readInt32_write : ∀ x rest, readInt32 (writeInt32 x ++ rest) = (x, rest)
  readInt64_write : ∀ x rest, readInt64 (writeInt64 x ++ rest) = (x, rest)
  readString16_write : ∀ s rest, s.length < 2 ^ 31 - 1 →
    readString16 (writeString16 s ++ rest) = (some s, rest)
  /-- An array is its length and its bytes. -/
  createByteArray_write : ∀ content rest, content ≠ [] → content.length < 2 ^ 31 →
    createByteArray (writeInt32 (BitVec.ofNat 32 content.length) ++ (write content ++ rest)) =
      (some content, rest)
  createByteArray_empty : ∀ rest, createByteArray (writeInt32 0 ++ rest) = (some [], rest)
  createByteArray_null : ∀ (x : BitVec 32) rest, x.toInt < 0 →
    createByteArray (writeInt32 x ++ rest) = (none, rest)
  enforceInterface_write : ∀ name rest,
    enforceInterface name (writeInterfaceToken name ++ rest) = some rest
  readException_write : ∀ rest, readException (writeNoException ++ rest) = .ok rest

namespace Format

attribute [simp] readInt32_write readInt64_write createByteArray_empty enforceInterface_write
  readException_write

variable {C ε : Type} (F : Format C ε)

/-- The last item of a parcel. -/
@[simp] theorem readInt32_write_last (x : BitVec 32) : F.readInt32 (F.writeInt32 x) = (x, []) := by
  rw [← List.append_nil (F.writeInt32 x), F.readInt32_write]

@[simp] theorem readInt64_write_last (x : BitVec 64) : F.readInt64 (F.writeInt64 x) = (x, []) := by
  rw [← List.append_nil (F.writeInt64 x), F.readInt64_write]

end Format

/-! ## A format

One that keeps every item in a cell of its own. -/

inductive Cell where
  | int32 (x : BitVec 32)
  | int64 (x : BitVec 64)
  | string16 (s : String16)
  | bytes (bs : Bytes)
  | token (name : String16)
  | noException
  deriving DecidableEq

namespace Cell

def readInt32 : List Cell → BitVec 32 × List Cell
  | .int32 x :: rest => (x, rest)
  | cells => (0, cells)

def readInt64 : List Cell → BitVec 64 × List Cell
  | .int64 x :: rest => (x, rest)
  | cells => (0, cells)

def readString16 : List Cell → Option String16 × List Cell
  | .string16 s :: rest => (some s, rest)
  | cells => (none, cells)

def createByteArray : List Cell → Option Bytes × List Cell
  | .int32 x :: rest =>
    if x.toInt < 0 then (none, rest)
    else if x = 0 then (some [], rest)
    else match rest with
      | .bytes bs :: rest => (some bs, rest)
      | rest => (none, rest)
  | cells => (none, cells)

def enforceInterface (name : String16) : List Cell → Option (List Cell)
  | .token found :: rest => if found = name then some rest else none
  | _ => none

def readException {ε : Type} (thrown : ε) : List Cell → Except ε (List Cell)
  | .noException :: rest => .ok rest
  | _ => .error thrown

/-- A number that is the length of an array. -/
theorem ofNat_length {n : ℕ} (hpos : 0 < n) (h : n < 2 ^ 31) :
    ¬ (BitVec.ofNat 32 n).toInt < 0 ∧ BitVec.ofNat 32 n ≠ 0 := by
  have hnat : (BitVec.ofNat 32 n).toNat = n := by
    rw [BitVec.toNat_ofNat, Nat.mod_eq_of_lt (by omega)]
  constructor
  · rw [BitVec.toInt_eq_toNat_cond, hnat]
    omega
  · intro hzero
    rw [hzero] at hnat
    exact absurd hnat.symm (Nat.ne_of_gt hpos)

/-- Items are cells. -/
def format {ε : Type} (thrown : ε) : Format Cell ε where
  writeInt32 x := [.int32 x]
  readInt32 := readInt32
  writeInt64 x := [.int64 x]
  readInt64 := readInt64
  writeString16 s := [.string16 s]
  readString16 := readString16
  write bs := [.bytes bs]
  createByteArray := createByteArray
  writeInterfaceToken name := [.token name]
  enforceInterface := enforceInterface
  writeNoException := [.noException]
  readException := readException thrown
  readInt32_write _ _ := rfl
  readInt64_write _ _ := rfl
  readString16_write _ _ _ := rfl
  createByteArray_write content rest hne h := by
    obtain ⟨hnonneg, hnonzero⟩ := ofNat_length (List.length_pos_iff.mpr hne) h
    simp only [List.cons_append, List.nil_append, createByteArray, if_neg hnonneg,
      if_neg hnonzero]
  createByteArray_empty _ := rfl
  createByteArray_null x rest h := by
    simp only [List.cons_append, List.nil_append, createByteArray, if_pos h]
  enforceInterface_write _ _ := if_pos rfl
  readException_write _ := rfl

end Cell

end Parcel

end Dynamicloader
