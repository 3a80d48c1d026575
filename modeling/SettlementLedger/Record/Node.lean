import SettlementLedger.Amount
import SettlementLedger.Identifier
import SettlementLedger.Record.Counter
import SettlementLedger.Record.Role

/-!
# Node records

The record of one participant: its role, the writing key of its log, its spendable balance, its
license and the stake it has locked. A record is 69 bytes,

    role (1) · writing key (32) · balance (16) · license (4) · stake (16),

with every number most significant byte first. The patches replace one field of an encoded record;
they check the argument first and the record afterwards.
-/

set_option autoImplicit false
set_option relaxedAutoImplicit false

namespace SettlementLedger

/-- What the ledger knows of one participant. -/
structure NodeRecord where
  role : Role := .none
  writingKey : WritingKey := .zero
  balance : Amount := .zero
  /-- The license, zero until the participant is first whitelisted. -/
  license : UInt32 := 0
  stake : Amount := .zero
  deriving DecidableEq

namespace NodeRecord

/-- The number of bytes of a node record. -/
def width : Nat := 69

/-- The record of a participant that holds a balance and nothing else. -/
def ofBalance (balance : Amount) : NodeRecord := { balance }

/-- Whether a license was ever issued to the participant. -/
def hasLicense (n : NodeRecord) : Bool := n.license != 0

/-- The encoded record. -/
def encode (n : NodeRecord) : Bytes :=
  n.role.bits :: (n.writingKey.bytes ++ (n.balance.toBytes ++
    (Counter.encode n.license ++ n.stake.toBytes)))

/-- Reads a record of exactly 69 bytes whose role byte has only the three role bits. -/
def decode (bytes : Bytes) : Except CodecError NodeRecord :=
  if h : bytes.length = width then
    match Role.ofBits? (bytes.get ⟨0, by rw [h]; decide⟩) with
    | none => .error (.domain .nodeRecord .role)
    | some role => .ok {
        role
        writingKey := ⟨bytes.slice 1 32, Bytes.length_slice (by rw [h]; decide)⟩
        balance := .ofBytes (bytes.slice 33 16) (Bytes.length_slice (by rw [h]; decide))
        license := Counter.ofBytes (bytes.slice 49 4)
        stake := .ofBytes (bytes.slice 53 16) (Bytes.length_slice (by rw [h]; decide)) }
  else .error (.length .nodeRecord width bytes.length)

/-! ### Reading back -/

@[simp] theorem length_encode (n : NodeRecord) : n.encode.length = width := by
  have hkey : n.writingKey.bytes.length = 32 := n.writingKey.length_bytes
  have hbalance : n.balance.toBytes.length = 16 := n.balance.length_toBytes
  have hlicense : (Counter.encode n.license).length = 4 := Counter.length_encode n.license
  have hstake : n.stake.toBytes.length = 16 := n.stake.length_toBytes
  simp only [encode, List.length_cons, List.length_append, hkey, hbalance, hlicense, hstake]
  rfl

@[simp] theorem decode_encode (n : NodeRecord) : decode n.encode = .ok n := by
  have hkey : n.writingKey.bytes.length = 32 := n.writingKey.length_bytes
  have hbalance : n.balance.toBytes.length = 16 := n.balance.length_toBytes
  have hlicense : (Counter.encode n.license).length = 4 := Counter.length_encode n.license
  have hstake : n.stake.toBytes.length = 16 := n.stake.length_toBytes
  have hkeySlice : n.encode.slice 1 32 = n.writingKey.bytes := by
    simpa [hkey, encode] using Bytes.slice_append [n.role.bits] n.writingKey.bytes
      (n.balance.toBytes ++ (Counter.encode n.license ++ n.stake.toBytes))
  have hbalanceSlice : n.encode.slice 33 16 = n.balance.toBytes := by
    simpa [hkey, hbalance, encode] using Bytes.slice_append (n.role.bits :: n.writingKey.bytes)
      n.balance.toBytes (Counter.encode n.license ++ n.stake.toBytes)
  have hlicenseSlice : n.encode.slice 49 4 = Counter.encode n.license := by
    simpa [hkey, hbalance, hlicense, encode] using
      Bytes.slice_append (n.role.bits :: (n.writingKey.bytes ++ n.balance.toBytes))
        (Counter.encode n.license) n.stake.toBytes
  have hstakeSlice : n.encode.slice 53 16 = n.stake.toBytes := by
    simpa [hkey, hbalance, hlicense, hstake, encode] using
      Bytes.slice_append (n.role.bits :: (n.writingKey.bytes ++ (n.balance.toBytes ++
        Counter.encode n.license))) n.stake.toBytes []
  have hrole : n.encode.get ⟨0, by rw [length_encode]; decide⟩ = n.role.bits := rfl
  rw [decode, dif_pos (length_encode n), hrole, Role.ofBits?_bits]
  simp only [hkeySlice, hbalanceSlice, hlicenseSlice, hstakeSlice, Counter.ofBytes_encode,
    Amount.ofBytes_toBytes]

theorem encode_of_decode {bytes : Bytes} {n : NodeRecord} (h : decode bytes = .ok n) :
    n.encode = bytes := by
  unfold decode at h
  split at h
  · rename_i hlen
    split at h
    · cases h
    · rename_i role hrole
      cases h
      have hwidth : bytes.length = 69 := hlen
      have hlicense : Counter.encode (Counter.ofBytes (bytes.slice 49 4)) = bytes.slice 49 4 :=
        Counter.encode_ofBytes (Bytes.length_slice (by omega))
      have hstake : bytes.slice 53 16 = bytes.drop 53 :=
        List.take_of_length_le (by rw [List.length_drop]; omega)
      have hhead : [role.bits] = bytes.take 1 := by
        rw [Role.bits_of_ofBits? hrole]
        cases bytes with
        | nil => cases hlen
        | cons byte rest => rfl
      have hcons : ∀ tail : Bytes, role.bits :: tail = [role.bits] ++ tail := fun _ ↦ rfl
      have hbalanceWidth : (bytes.slice 33 16).length = Amount.width :=
        Bytes.length_slice (by omega)
      have hstakeWidth : (bytes.slice 53 16).length = Amount.width := Bytes.length_slice (by omega)
      change role.bits :: (bytes.slice 1 32 ++ ((Amount.ofBytes _ hbalanceWidth).toBytes ++
        (Counter.encode (Counter.ofBytes (bytes.slice 49 4)) ++
          (Amount.ofBytes _ hstakeWidth).toBytes))) = bytes
      rw [Amount.toBytes_ofBytes, Amount.toBytes_ofBytes, hlicense, hstake, hcons, hhead,
        Bytes.slice_append_drop, Bytes.slice_append_drop, Bytes.slice_append_drop,
        List.take_append_drop]
  · cases h

theorem decode_eq_ok_iff {bytes : Bytes} {n : NodeRecord} :
    decode bytes = .ok n ↔ bytes = n.encode :=
  ⟨fun h ↦ (encode_of_decode h).symm, fun h ↦ h ▸ decode_encode n⟩

/-! ### Patches of encoded records -/

/-- Replaces the role. -/
def patchRole (record : Bytes) (bits : UInt8) : Except CodecError Bytes :=
  match Role.ofBits? bits with
  | none => .error (.domain .nodeRecord .role)
  | some role => do
    let node ← decode record
    return { node with role }.encode

/-- Replaces the writing key. -/
def patchWritingKey (record key : Bytes) : Except CodecError Bytes :=
  match Identifier.ofBytes? key with
  | none => .error (.length .writingKey 32 key.length)
  | some writingKey => do
    let node ← decode record
    return { node with writingKey }.encode

/-- Replaces the balance. -/
def patchBalance (record balance : Bytes) : Except CodecError Bytes :=
  match Amount.ofBytes? balance with
  | none => .error (.length .balance Amount.width balance.length)
  | some balance => do
    let node ← decode record
    return { node with balance }.encode

/-- Replaces the license; a license that was never issued is refused. -/
def patchLicense (record license : Bytes) : Except CodecError Bytes :=
  if license.length ≠ Counter.width then .error (.length .license Counter.width license.length)
  else if Counter.ofBytes license = 0 then .error (.domain .nodeRecord .license)
  else do
    let node ← decode record
    return { node with license := Counter.ofBytes license }.encode

/-- Replaces the stake. -/
def patchStake (record stake : Bytes) : Except CodecError Bytes :=
  match Amount.ofBytes? stake with
  | none => .error (.length .stakedBalance Amount.width stake.length)
  | some stake => do
    let node ← decode record
    return { node with stake }.encode

/-- Replaces the role and then the writing key. -/
def patchRoleAndKey (record : Bytes) (bits : UInt8) (key : Bytes) : Except CodecError Bytes := do
  let patched ← patchRole record bits
  patchWritingKey patched key

end NodeRecord

end SettlementLedger
