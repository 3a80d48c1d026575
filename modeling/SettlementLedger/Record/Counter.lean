import SettlementLedger.Bytes
import SettlementLedger.Record.CodecError

/-!
# Counters

A counter is a 32-bit number in four bytes, most significant first.
-/

set_option autoImplicit false
set_option relaxedAutoImplicit false

namespace SettlementLedger.Counter

/-- The number of bytes of a counter. -/
def width : Nat := 4

/-- The bytes of a counter. -/
def encode (n : UInt32) : Bytes :=
  Bytes.ofNatBE width n.toNat

/-- The counter that four bytes write. -/
def ofBytes (bytes : Bytes) : UInt32 :=
  UInt32.ofNat bytes.toNatBE

/-- Reads a counter from exactly four bytes. -/
def decode (bytes : Bytes) : Except CodecError UInt32 :=
  if bytes.length = width then .ok (ofBytes bytes)
  else .error (.length .counter width bytes.length)

/-- The next number, unless the counter is exhausted. -/
def next? (n : UInt32) : Option UInt32 :=
  if n.toNat + 1 < UInt32.size then some (n + 1) else none

@[simp] theorem length_encode (n : UInt32) : (encode n).length = width :=
  Bytes.length_ofNatBE _ _

@[simp] theorem ofBytes_encode (n : UInt32) : ofBytes (encode n) = n := by
  have h : n.toNat < Bytes.capacity width := n.toNat_lt
  rw [ofBytes, encode, Bytes.toNatBE_ofNatBE h, UInt32.ofNat_toNat]

@[simp] theorem decode_encode (n : UInt32) : decode (encode n) = .ok n := by
  rw [decode, if_pos (length_encode n), ofBytes_encode]

theorem encode_ofBytes {bytes : Bytes} (h : bytes.length = width) :
    encode (ofBytes bytes) = bytes := by
  have hlt : bytes.toNatBE < UInt32.size := by
    have := bytes.toNatBE_lt
    rw [h] at this
    exact this
  rw [encode, ofBytes, UInt32.toNat_ofNat', Nat.mod_eq_of_lt hlt, ← h, Bytes.ofNatBE_toNatBE]

theorem decode_eq_ok_iff {bytes : Bytes} {n : UInt32} :
    decode bytes = .ok n ↔ bytes = encode n := by
  constructor
  · intro h
    unfold decode at h
    split at h
    · rename_i hlen
      cases h
      exact (encode_ofBytes hlen).symm
    · cases h
  · rintro rfl
    exact decode_encode n

/-- A counter that is not exhausted goes up by one. -/
theorem next?_eq_some {n next : UInt32} (h : next? n = some next) : next.toNat = n.toNat + 1 := by
  unfold next? at h
  split at h
  · rename_i hlt
    cases h
    rw [UInt32.toNat_add]
    exact Nat.mod_eq_of_lt hlt
  · cases h

theorem le_next_iff {n next : UInt32} (h : next? n = some next) (m : UInt32) :
    m ≤ next ↔ m = next ∨ m ≤ n := by
  have hnext := next?_eq_some h
  rw [UInt32.le_iff_toNat_le, UInt32.le_iff_toNat_le, ← UInt32.toNat_inj]
  omega

end SettlementLedger.Counter
