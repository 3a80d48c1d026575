import SettlementLedger.Bytes.Hex

/-!
# Fixed-width identifiers

Hashes, writing keys, nonces, signatures and key material are byte strings of a width that their
role fixes. The role is part of the type, so a nonce cannot stand where a hash is meant, and the
width is a proof, so no operation has to check it again. Identifiers are ordered by their bytes.
-/

set_option autoImplicit false
set_option relaxedAutoImplicit false

namespace SettlementLedger

/-- What a fixed-width byte string stands for. -/
inductive IdentifierRole where
  /-- A digest: the hash of an operation, of its content or of a membership sequence. -/
  | hash
  /-- The public key of an append log. -/
  | writingKey
  /-- A nonce drawn for one signature. -/
  | nonce
  /-- A signature. -/
  | signature
  /-- The public key of a wallet. -/
  | publicKey
  /-- The secret seed of a wallet. -/
  | seed
  deriving DecidableEq, Repr

namespace IdentifierRole

/-- The number of bytes of an identifier. -/
def width : IdentifierRole → Nat
  | .signature => 64
  | _ => 32

/-- The name under which an identifier is displayed. -/
def label : IdentifierRole → String
  | .hash => "Hash32"
  | .writingKey => "WriterKey"
  | .nonce => "Nonce"
  | .signature => "SignatureBytes"
  | .publicKey => "PublicKey"
  | .seed => "Seed"

end IdentifierRole

/-- A byte string of the width its role fixes. -/
structure Identifier (role : IdentifierRole) where
  bytes : Bytes
  length_bytes : bytes.length = role.width
  deriving DecidableEq

abbrev Hash := Identifier .hash
abbrev WritingKey := Identifier .writingKey
abbrev Nonce := Identifier .nonce
abbrev Signature := Identifier .signature
abbrev PublicKey := Identifier .publicKey
abbrev Seed := Identifier .seed

namespace Identifier

variable {role : IdentifierRole}

/-- Reads an identifier from exactly its width of bytes. -/
def ofBytes? (bytes : Bytes) : Option (Identifier role) :=
  if h : bytes.length = role.width then some ⟨bytes, h⟩ else none

/-- The identifier whose bytes are all zero. -/
def zero : Identifier role :=
  ⟨List.replicate role.width 0, List.length_replicate⟩

/-- The same bytes in another role of the same width. -/
def cast {other : IdentifierRole} (x : Identifier role) (h : role.width = other.width) :
    Identifier other :=
  ⟨x.bytes, x.length_bytes.trans h⟩

/-- Lowercase hexadecimal text. -/
def hex (x : Identifier role) : String :=
  Hex.text x.bytes

/-- Hexadecimal text marked with the name of the role. -/
def display (x : Identifier role) : String :=
  role.label ++ "(" ++ x.hex ++ ")"

@[ext] theorem ext_bytes {x y : Identifier role} (h : x.bytes = y.bytes) : x = y := by
  cases x
  cases y
  simp_all

theorem ofBytes?_eq_some_iff {bytes : Bytes} {x : Identifier role} :
    ofBytes? bytes = some x ↔ bytes = x.bytes := by
  unfold ofBytes?
  split
  · constructor
    · intro h
      cases h
      rfl
    · intro h
      simp [h]
  · rename_i hne
    constructor
    · intro h
      cases h
    · intro h
      exact absurd (h ▸ x.length_bytes) hne

@[simp] theorem ofBytes?_bytes (x : Identifier role) : ofBytes? x.bytes = some x :=
  ofBytes?_eq_some_iff.mpr rfl

/-! ### Order -/

instance : Ord (Identifier role) := ⟨compareOn Identifier.bytes⟩

instance : Std.TransOrd (Identifier role) :=
  inferInstanceAs (Std.TransCmp (compareOn Identifier.bytes))

instance : Std.LawfulEqOrd (Identifier role) where
  eq_of_compare h := ext_bytes (Std.LawfulEqCmp.compare_eq_iff_eq.mp h)

end Identifier

end SettlementLedger
