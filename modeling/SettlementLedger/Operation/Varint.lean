import SettlementLedger.Bytes

/-!
# Readers and variable-width numbers

A reader takes a value from the front of a byte string and returns what is left. A number below 251
is its own byte; a larger one follows a marker that gives its width, least significant byte first.
Writing takes the narrowest form and reading accepts every form.
-/

set_option autoImplicit false
set_option relaxedAutoImplicit false

namespace SettlementLedger

/-- Why bytes are not an operation. -/
inductive WireError where
  /-- The bytes end too early. -/
  | endOfInput
  /-- The mark of an optional value is neither zero nor one. -/
  | optionMark (mark : UInt8)
  /-- The payload has no known family. -/
  | familyIndex (index : Nat)
  /-- A number that must fit 32 bits does not. -/
  | wideWord (n : Nat)
  /-- A number is marked as wider than 64 bits. -/
  | wideVarint
  /-- A number starts with the marker that is kept for extensions. -/
  | reservedVarint
  /-- Bytes are left after the operation. -/
  | trailingBytes
  deriving DecidableEq, Repr

namespace WireError

/-- The stable name of the cause. -/
def code (_ : WireError) : String := "operation_decode"

/-- What exactly is wrong. -/
def detail : WireError → String
  | .endOfInput => "io error: unexpected end of file"
  | .optionMark mark => "tag for enum is not valid, found " ++ toString mark.toNat
  | .familyIndex index =>
    "invalid value: integer `" ++ toString index ++ "`, expected variant index 0 <= i < 7"
  | .wideWord n => "Invalid u32 " ++ toString n ++ ": you may have a version disagreement?"
  | .wideVarint =>
    "Invalid value (u128 range): you may have a version or configuration disagreement?"
  | .reservedVarint =>
    "\nByte 255 is treated as an extension point; it should not be encoding anything.\n" ++
      "Do you have a mismatched bincode version or configuration?\n"
  | .trailingBytes => "Slice had bytes remaining after deserialization"

/-- The cause in words. -/
def message (error : WireError) : String := "malformed operation: " ++ error.detail

end WireError

/-- Takes a value from the front of a byte string. -/
abbrev Reader (α : Type) := Bytes → Except WireError (α × Bytes)

namespace Reader

/-- Takes one byte. -/
def byte : Reader UInt8
  | [] => .error .endOfInput
  | byte :: rest => .ok (byte, rest)

/-- Takes a number of bytes. -/
def bytes (count : Nat) : Reader Bytes := fun input ↦
  if count ≤ input.length then .ok (input.take count, input.drop count) else .error .endOfInput

theorem bytes_append {count : Nat} {front : Bytes} (h : front.length = count) (rest : Bytes) :
    Reader.bytes count (front ++ rest) = .ok (front, rest) := by
  have hle : count ≤ (front ++ rest).length := by rw [List.length_append]; omega
  rw [bytes, if_pos hle, List.take_left' h, List.drop_left' h]

end Reader

namespace Varint

/-- The narrowest form of a number below `2 ^ 64`. -/
def encode (n : Nat) : Bytes :=
  if n < 251 then [UInt8.ofNat n]
  else if n < UInt16.size then 251 :: Bytes.ofNatLE 2 n
  else if n < UInt32.size then 252 :: Bytes.ofNatLE 4 n
  else 253 :: Bytes.ofNatLE 8 n

/-- The number of bytes that a marker announces. -/
def markedWidth? (marker : UInt8) : Except WireError Nat :=
  if marker = 251 then .ok 2
  else if marker = 252 then .ok 4
  else if marker = 253 then .ok 8
  else if marker = 254 then .error .wideVarint
  else .error .reservedVarint

/-- Takes a number in any of its forms. -/
def read : Reader Nat := fun input ↦ do
  let (first, rest) ← Reader.byte input
  if first < 251 then return (first.toNat, rest)
  else
    let width ← markedWidth? first
    let (digits, rest) ← Reader.bytes width rest
    return (Bytes.toNatLE digits, rest)

/-- Takes a number that must fit 32 bits. -/
def readWord : Reader UInt32 := fun input ↦ do
  let (n, rest) ← read input
  if n < UInt32.size then return (UInt32.ofNat n, rest) else .error (.wideWord n)

/-! ### Reading back -/

/-- A number in the form of a marker and its digits is read back. -/
theorem read_marked {marker : UInt8} {width n : Nat} (hmarker : ¬ marker < 251)
    (hwidth : markedWidth? marker = .ok width) (h : n < Bytes.capacity width) (rest : Bytes) :
    read (marker :: Bytes.ofNatLE width n ++ rest) = .ok (n, rest) := by
  have hdigits := Reader.bytes_append (Bytes.length_ofNatLE width n) rest
  have hvalue : Bytes.toNatLE (Bytes.ofNatLE width n) = n := Bytes.toNatLE_ofNatLE h
  simp only [read, Reader.byte, List.cons_append, bind, Except.bind, hmarker, if_false, hwidth,
    hdigits, hvalue]
  rfl

theorem read_encode {n : Nat} (h : n < UInt64.size) (rest : Bytes) :
    read (encode n ++ rest) = .ok (n, rest) := by
  unfold encode
  split
  · rename_i hsmall
    have hbyte : (UInt8.ofNat n).toNat = n := by
      rw [UInt8.toNat_ofNat']
      omega
    have hlt : UInt8.ofNat n < 251 := by
      rw [UInt8.lt_iff_toNat_lt, hbyte]
      exact hsmall
    simp only [read, Reader.byte, List.cons_append, List.nil_append, bind, Except.bind, hlt,
      if_true, hbyte]
    rfl
  · split
    · exact read_marked (by decide) rfl (by assumption) rest
    · split
      · exact read_marked (by decide) rfl (by assumption) rest
      · exact read_marked (by decide) rfl h rest

end Varint

end SettlementLedger
