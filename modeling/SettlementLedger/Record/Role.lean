/-!
# Roles

A participant may be whitelisted, a writer and an indexer. The three marks are stored independently,
but a role counts only together with every role below it: a writer is whitelisted, and an indexer is
a writer.
-/

set_option autoImplicit false
set_option relaxedAutoImplicit false

namespace SettlementLedger

/-- The three role marks of a participant. -/
structure Role where
  whitelistMark : Bool
  writerMark : Bool
  indexerMark : Bool
  deriving DecidableEq, Repr

namespace Role

/-- No role. -/
def none : Role := ⟨false, false, false⟩

/-- Whitelisted only. -/
def whitelisted : Role := ⟨true, false, false⟩

/-- A whitelisted writer. -/
def writer : Role := ⟨true, true, false⟩

/-- A whitelisted writer that is an indexer. -/
def indexer : Role := ⟨true, true, true⟩

/-- Whether the participant is whitelisted. -/
def isWhitelisted (r : Role) : Bool := r.whitelistMark

/-- Whether the participant is a writer. -/
def isWriter (r : Role) : Bool := r.isWhitelisted && r.writerMark

/-- Whether the participant is an indexer. -/
def isIndexer (r : Role) : Bool := r.isWriter && r.indexerMark

/-- The marks as the bits of a byte, the lowest for the whitelist. -/
def bits (r : Role) : UInt8 :=
  UInt8.ofNat (r.whitelistMark.toNat + 2 * r.writerMark.toNat + 4 * r.indexerMark.toNat)

/-- Reads the marks from the bits of a byte; no higher bit may be set. -/
def ofBits? (bits : UInt8) : Option Role :=
  if bits.toNat ≤ 7 then
    some ⟨bits.toNat.testBit 0, bits.toNat.testBit 1, bits.toNat.testBit 2⟩
  else Option.none

@[simp] theorem ofBits?_bits (r : Role) : ofBits? r.bits = some r := by
  obtain ⟨whitelist, writer, indexer⟩ := r
  cases whitelist <;> cases writer <;> cases indexer <;> rfl

theorem bits_of_ofBits? {bits : UInt8} {r : Role} (h : ofBits? bits = some r) : r.bits = bits := by
  have hall : ∀ k : Fin 8,
      Role.bits ⟨k.val.testBit 0, k.val.testBit 1, k.val.testBit 2⟩ = UInt8.ofNat k := by decide
  unfold ofBits? at h
  split at h
  · rename_i hle
    cases h
    exact (hall ⟨bits.toNat, by omega⟩).trans UInt8.ofNat_toNat
  · cases h

end Role

end SettlementLedger
