/-
The Borsh format, as far as plain records need it: integers of fixed width,
least significant byte first, byte arrays as they are, and a vector as a 32-bit
count and its elements.  A value is found again at an offset of the bytes that
hold it.
-/
import Mathlib.Algebra.BigOperators.Group.List.Basic
import Mathlib.Data.List.Basic

namespace Borsh

universe u

/-- The lowest `width` bytes of a number, least significant first. -/
def toLeBytes : ℕ → ℕ → List UInt8
  | 0, _ => []
  | width + 1, n => UInt8.ofNat n :: toLeBytes width (n / 256)

def fromLeBytes : List UInt8 → ℕ
  | [] => 0
  | byte :: rest => byte.toNat + 256 * fromLeBytes rest

@[simp] theorem length_toLeBytes (width n : ℕ) :
    (toLeBytes width n).length = width := by
  induction width generalizing n with
  | zero => rfl
  | succ width ih => rw [toLeBytes, List.length_cons, ih]

theorem fromLeBytes_toLeBytes (width n : ℕ) :
    fromLeBytes (toLeBytes width n) = n % 256 ^ width := by
  induction width generalizing n with
  | zero => rw [toLeBytes, fromLeBytes, pow_zero, Nat.mod_one]
  | succ width ih =>
      have hbyte : (UInt8.ofNat n).toNat = n % 256 := UInt8.toNat_ofNat'
      rw [toLeBytes, fromLeBytes, ih, hbyte, pow_succ', Nat.mod_mul]

theorem fromLeBytes_toLeBytes_of_lt {width n : ℕ} (h : n < 256 ^ width) :
    fromLeBytes (toLeBytes width n) = n := by
  rw [fromLeBytes_toLeBytes, Nat.mod_eq_of_lt h]

class Serialize (α : Type u) where
  serialize : α → List UInt8

export Serialize (serialize)

instance : Serialize UInt8 := ⟨fun byte => [byte]⟩

instance : Serialize Bool := ⟨fun value => [if value then 1 else 0]⟩

instance : Serialize UInt32 := ⟨fun n => toLeBytes 4 n.toNat⟩

instance : Serialize UInt64 := ⟨fun n => toLeBytes 8 n.toNat⟩

/-- Two's complement. -/
instance : Serialize Int64 := ⟨fun n => toLeBytes 8 n.toUInt64.toNat⟩

instance {n : ℕ} : Serialize (Vector UInt8 n) := ⟨Vector.toList⟩

instance {α : Type u} [Serialize α] : Serialize (List α) where
  serialize items :=
    serialize (UInt32.ofNat items.length) ++ items.flatMap serialize

@[simp] theorem length_serialize_uint8 (byte : UInt8) :
    (serialize byte).length = 1 := rfl

@[simp] theorem length_serialize_bool (value : Bool) :
    (serialize value).length = 1 := rfl

@[simp] theorem length_serialize_uint32 (n : UInt32) :
    (serialize n).length = 4 := length_toLeBytes _ _

@[simp] theorem length_serialize_uint64 (n : UInt64) :
    (serialize n).length = 8 := length_toLeBytes _ _

@[simp] theorem length_serialize_int64 (n : Int64) :
    (serialize n).length = 8 := length_toLeBytes _ _

@[simp] theorem length_serialize_vector {n : ℕ} (bytes : Vector UInt8 n) :
    (serialize bytes).length = n := Vector.length_toList

/-- Elements of one size. -/
theorem length_serialize_list {α : Type u} [Serialize α] {size : ℕ}
    (hsize : ∀ item : α, (serialize item).length = size) (items : List α) :
    (serialize items).length = 4 + size * items.length := by
  change (serialize (UInt32.ofNat items.length) ++
    items.flatMap serialize).length = _
  rw [List.length_append, length_serialize_uint32]
  induction items with
  | nil => rfl
  | cons item rest ih =>
      rw [List.flatMap_cons, List.length_append, hsize, List.length_cons,
        Nat.mul_succ]
      omega

/-- The number a `u64` was written from. -/
theorem ofNat_fromLeBytes_uint64 (n : UInt64) :
    UInt64.ofNat (fromLeBytes (serialize n)) = n := by
  change UInt64.ofNat (fromLeBytes (toLeBytes 8 n.toNat)) = n
  rw [fromLeBytes_toLeBytes_of_lt n.toNat_lt, UInt64.ofNat_toNat]

theorem toInt64_fromLeBytes_int64 (n : Int64) :
    (UInt64.ofNat (fromLeBytes (serialize n))).toInt64 = n := by
  change (UInt64.ofNat (fromLeBytes (serialize n.toUInt64))).toInt64 = n
  rw [ofNat_fromLeBytes_uint64, Int64.toInt64_toUInt64]

theorem fromLeBytes_uint32 (n : UInt32) :
    fromLeBytes (serialize n) = n.toNat := by
  change fromLeBytes (toLeBytes 4 n.toNat) = n.toNat
  exact fromLeBytes_toLeBytes_of_lt n.toNat_lt

/-- `data` holds `bytes` at the offset. -/
def Holds (data : List UInt8) (offset : ℕ) (bytes : List UInt8) : Prop :=
  ∃ before after, before.length = offset ∧ data = before ++ bytes ++ after

namespace Holds

variable {data first second : List UInt8} {offset : ℕ}

/-- The second part starts where the first one ends. -/
theorem split {length : ℕ} (h : Holds data offset (first ++ second))
    (hlength : first.length = length) :
    Holds data offset first ∧ Holds data (offset + length) second := by
  subst hlength
  obtain ⟨before, after, rfl, rfl⟩ := h
  constructor
  · exact ⟨before, second ++ after, rfl, by simp⟩
  · exact ⟨before ++ first, after, by simp, by simp⟩

theorem le_length (h : Holds data offset first) :
    offset + first.length ≤ data.length := by
  obtain ⟨before, after, rfl, rfl⟩ := h
  simp

theorem slice (h : Holds data offset first) :
    (data.drop offset).take first.length = first := by
  obtain ⟨before, after, rfl, rfl⟩ := h
  simp

end Holds

end Borsh
