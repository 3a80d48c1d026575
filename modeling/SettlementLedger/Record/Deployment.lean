import SettlementLedger.Address
import SettlementLedger.Record.CodecError

/-!
# Deployment records

Who registered an external bootstrap key, and by which operation: 69 bytes and 32 bytes.
-/

set_option autoImplicit false
set_option relaxedAutoImplicit false

namespace SettlementLedger

/-- The registration of an external bootstrap key. -/
structure DeploymentRecord where
  requester : Address
  /-- The hash of the operation that registered the key. -/
  tx : Hash
  deriving DecidableEq

namespace DeploymentRecord

/-- The number of bytes of a deployment record. -/
def width : Nat := 101

/-- The encoded record. -/
def encode (r : DeploymentRecord) : Bytes :=
  r.requester.bytes ++ r.tx.bytes

/-- Reads a record of exactly 101 bytes that starts with an address. -/
def decode (bytes : Bytes) : Except CodecError DeploymentRecord :=
  if h : bytes.length = width then
    match Address.parse (bytes.take Address.width) with
    | .error _ => .error (.domain .deploymentRecord .requester)
    | .ok requester => .ok {
        requester
        tx := ⟨bytes.slice 69 32, Bytes.length_slice (by rw [h]; decide)⟩ }
  else .error (.length .deploymentRecord width bytes.length)

/-! ### Reading back -/

@[simp] theorem length_encode (r : DeploymentRecord) : r.encode.length = width := by
  have htx : r.tx.bytes.length = 32 := r.tx.length_bytes
  rw [encode, List.length_append, Address.length_bytes, htx]
  rfl

@[simp] theorem decode_encode (r : DeploymentRecord) : decode r.encode = .ok r := by
  have htx : r.tx.bytes.length = 32 := r.tx.length_bytes
  have hrequester : r.requester.bytes.length = 69 := r.requester.length_bytes
  have htake : r.encode.take Address.width = r.requester.bytes :=
    List.take_left' r.requester.length_bytes
  have hslice : r.encode.slice 69 32 = r.tx.bytes := by
    rw [Bytes.slice, encode, List.drop_left' hrequester, List.take_of_length_le (by omega)]
  simp only [decode, length_encode, dif_pos, htake, Address.parse_bytes]
  exact congrArg _ (congrArg (DeploymentRecord.mk r.requester) (Identifier.ext_bytes hslice))

theorem encode_of_decode {bytes : Bytes} {r : DeploymentRecord} (h : decode bytes = .ok r) :
    r.encode = bytes := by
  unfold decode at h
  split at h
  · rename_i hlen
    split at h
    · cases h
    · rename_i requester hrequester
      cases h
      have htake := Address.bytes_of_parse hrequester
      have hrest : (bytes.drop 69).take 32 = bytes.drop 69 :=
        List.take_of_length_le (by rw [List.length_drop, hlen]; decide)
      simp only [encode, htake, Bytes.slice, hrest]
      exact List.take_append_drop 69 bytes
  · cases h

theorem decode_eq_ok_iff {bytes : Bytes} {r : DeploymentRecord} :
    decode bytes = .ok r ↔ bytes = r.encode :=
  ⟨fun h ↦ (encode_of_decode h).symm, fun h ↦ h ▸ decode_encode r⟩

end DeploymentRecord

end SettlementLedger
