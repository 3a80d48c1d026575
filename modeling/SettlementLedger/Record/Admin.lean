import SettlementLedger.Address
import SettlementLedger.Record.CodecError

/-!
# The admin record

The address of the ledger's one administrator, which never changes, and the writing key it appends
with, which recovery replaces: 69 bytes and 32 bytes.
-/

set_option autoImplicit false
set_option relaxedAutoImplicit false

namespace SettlementLedger

/-- The administrator and its current writing key. -/
structure AdminRecord where
  address : Address
  writingKey : WritingKey
  deriving DecidableEq

namespace AdminRecord

/-- The number of bytes of an admin record. -/
def width : Nat := 101

/-- The encoded record. -/
def encode (r : AdminRecord) : Bytes :=
  r.address.bytes ++ r.writingKey.bytes

/-- Reads a record of exactly 101 bytes that starts with an address. -/
def decode (bytes : Bytes) : Except CodecError AdminRecord :=
  if h : bytes.length = width then
    match Address.parse (bytes.take Address.width) with
    | .error _ => .error (.domain .adminRecord .address)
    | .ok address => .ok {
        address
        writingKey := ⟨bytes.slice 69 32, Bytes.length_slice (by rw [h]; decide)⟩ }
  else .error (.length .adminRecord width bytes.length)

/-- Replaces the writing key of an encoded record; the key is checked first. -/
def patchWritingKey (record key : Bytes) : Except CodecError Bytes :=
  match Identifier.ofBytes? key with
  | none => .error (.length .writingKey 32 key.length)
  | some writingKey => do
    let admin ← decode record
    return { admin with writingKey }.encode

/-! ### Reading back -/

@[simp] theorem length_encode (r : AdminRecord) : r.encode.length = width := by
  have hkey : r.writingKey.bytes.length = 32 := r.writingKey.length_bytes
  rw [encode, List.length_append, Address.length_bytes, hkey]
  rfl

@[simp] theorem decode_encode (r : AdminRecord) : decode r.encode = .ok r := by
  have hkey : r.writingKey.bytes.length = 32 := r.writingKey.length_bytes
  have haddress : r.address.bytes.length = 69 := r.address.length_bytes
  have htake : r.encode.take Address.width = r.address.bytes :=
    List.take_left' r.address.length_bytes
  have hslice : r.encode.slice 69 32 = r.writingKey.bytes := by
    rw [Bytes.slice, encode, List.drop_left' haddress, List.take_of_length_le (by omega)]
  simp only [decode, length_encode, dif_pos, htake, Address.parse_bytes]
  exact congrArg _ (congrArg (AdminRecord.mk r.address) (Identifier.ext_bytes hslice))

theorem encode_of_decode {bytes : Bytes} {r : AdminRecord} (h : decode bytes = .ok r) :
    r.encode = bytes := by
  unfold decode at h
  split at h
  · rename_i hlen
    split at h
    · cases h
    · rename_i address haddress
      cases h
      have htake := Address.bytes_of_parse haddress
      have hrest : (bytes.drop 69).take 32 = bytes.drop 69 :=
        List.take_of_length_le (by rw [List.length_drop, hlen]; decide)
      simp only [encode, htake, Bytes.slice, hrest]
      exact List.take_append_drop 69 bytes
  · cases h

theorem decode_eq_ok_iff {bytes : Bytes} {r : AdminRecord} :
    decode bytes = .ok r ↔ bytes = r.encode :=
  ⟨fun h ↦ (encode_of_decode h).symm, fun h ↦ h ▸ decode_encode r⟩

end AdminRecord

end SettlementLedger
