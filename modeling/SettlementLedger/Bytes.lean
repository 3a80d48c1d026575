/-!
# Byte strings and the numbers they write

A byte string is a list of bytes. `Bytes.ofNatLE` and `Bytes.ofNatBE` write a number in base 256 at
a fixed width, least or most significant byte first, and `Bytes.toNatLE` and `Bytes.toNatBE` read it
back. The two directions are inverse on numbers that fit the width (`toNatLE_ofNatLE`,
`toNatBE_ofNatBE`) and on every byte string (`ofNatLE_toNatLE`, `ofNatBE_toNatBE`).
-/

set_option autoImplicit false
set_option relaxedAutoImplicit false

namespace SettlementLedger

/-- A byte string. -/
abbrev Bytes := List UInt8

namespace Bytes

/-- The number a byte string writes in base 256, least significant byte first. -/
def toNatLE : Bytes → Nat
  | [] => 0
  | byte :: rest => byte.toNat + 256 * toNatLE rest

/-- The number a byte string writes in base 256, most significant byte first. -/
def toNatBE (bytes : Bytes) : Nat :=
  toNatLE bytes.reverse

/-- The lowest `width` base-256 digits of a number, least significant first. -/
def ofNatLE : Nat → Nat → Bytes
  | 0, _ => []
  | width + 1, n => UInt8.ofNat n :: ofNatLE width (n / 256)

/-- The lowest `width` base-256 digits of a number, most significant first. -/
def ofNatBE (width n : Nat) : Bytes :=
  (ofNatLE width n).reverse

/-- The number of byte strings of a width, which is above every number that they write. -/
def capacity : (width : Nat) → Nat
  | 0 => 1
  | width + 1 => 256 * capacity width

/-- The bytes of an ASCII text. -/
def ofAscii (text : String) : Bytes :=
  text.toList.map fun c ↦ UInt8.ofNat c.toNat

/-- The bytes of a text in UTF-8. -/
def ofText (text : String) : Bytes :=
  text.toUTF8.toList

/-- The bytes from an offset on, `width` of them if there are enough. -/
def slice (bytes : Bytes) (offset width : Nat) : Bytes :=
  (bytes.drop offset).take width

/-! ### Widths -/

theorem length_slice {bytes : Bytes} {offset width : Nat} (h : offset + width ≤ bytes.length) :
    (bytes.slice offset width).length = width := by
  simp only [slice, List.length_take, List.length_drop]
  omega

@[simp] theorem length_ofNatLE (width n : Nat) : (ofNatLE width n).length = width := by
  induction width generalizing n with
  | zero => rfl
  | succ width ih => simp [ofNatLE, ih]

@[simp] theorem length_ofNatBE (width n : Nat) : (ofNatBE width n).length = width := by
  simp [ofNatBE]

theorem toNatLE_lt (bytes : Bytes) : toNatLE bytes < capacity bytes.length := by
  induction bytes with
  | nil => simp [toNatLE, capacity]
  | cons byte rest ih =>
    have hbyte : byte.toNat < 256 := byte.toNat_lt
    simp only [toNatLE, List.length_cons, capacity]
    omega

theorem toNatBE_lt (bytes : Bytes) : toNatBE bytes < capacity bytes.length := by
  simpa [toNatBE] using toNatLE_lt bytes.reverse

/-! ### Reading back -/

theorem toNatLE_ofNatLE {width n : Nat} (h : n < capacity width) :
    toNatLE (ofNatLE width n) = n := by
  induction width generalizing n with
  | zero => simp_all [ofNatLE, toNatLE, capacity]
  | succ width ih =>
    have hquot : n / 256 < capacity width := by
      rw [capacity] at h
      exact Nat.div_lt_of_lt_mul h
    simp only [ofNatLE, toNatLE, ih hquot, UInt8.toNat_ofNat']
    omega

theorem ofNatLE_toNatLE (bytes : Bytes) : ofNatLE bytes.length (toNatLE bytes) = bytes := by
  induction bytes with
  | nil => rfl
  | cons byte rest ih =>
    have hbyte : byte.toNat < 256 := byte.toNat_lt
    have hhead : UInt8.ofNat (byte.toNat + 256 * toNatLE rest) = byte := by
      apply UInt8.toNat_inj.mp
      rw [UInt8.toNat_ofNat']
      omega
    have htail : (byte.toNat + 256 * toNatLE rest) / 256 = toNatLE rest := by omega
    simp only [List.length_cons, ofNatLE, toNatLE, hhead, htail, ih]

theorem toNatBE_ofNatBE {width n : Nat} (h : n < capacity width) :
    toNatBE (ofNatBE width n) = n := by
  simp [toNatBE, ofNatBE, toNatLE_ofNatLE h]

theorem ofNatBE_toNatBE (bytes : Bytes) : ofNatBE bytes.length (toNatBE bytes) = bytes := by
  have h := ofNatLE_toNatLE bytes.reverse
  rw [List.length_reverse] at h
  simp [toNatBE, ofNatBE, h]

/-! ### Slices -/

theorem slice_append (front middle back : Bytes) :
    (front ++ (middle ++ back)).slice front.length middle.length = middle := by
  rw [slice, List.drop_left, List.take_left]

theorem slice_append_drop (bytes : Bytes) (offset width : Nat) :
    bytes.slice offset width ++ bytes.drop (offset + width) = bytes.drop offset := by
  rw [slice, ← List.drop_drop, List.take_append_drop]

end Bytes

end SettlementLedger
