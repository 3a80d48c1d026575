import SettlementLedger.Crypto.Ed25519

/-!
# Cipher suites

The ledger uses its hash and its signature scheme only through a suite, so that what is said of the
ledger holds whatever the primitives are. `Suite.standard` is SHA-256 with Ed25519.
-/

set_option autoImplicit false
set_option relaxedAutoImplicit false

namespace SettlementLedger

/-- A hash function and a signature scheme. -/
structure Suite where
  /-- The hash of a message. -/
  hash : Bytes → Hash
  /-- Whether key bytes are a public key at all. -/
  isKey : PublicKey → Bool
  /-- Whether a signature of a message holds under a key. -/
  verify : PublicKey → Bytes → Signature → Bool
  /-- The public key of a seed. -/
  publicKey : Seed → PublicKey
  /-- The signature of a message under a seed. -/
  sign : Seed → Bytes → Signature

/-- SHA-256 with Ed25519. -/
def Suite.standard : Suite where
  hash message := ⟨Sha2.sha256.digest message, Sha2.sha256.length_digest message⟩
  isKey := Ed25519.isKey
  verify := Ed25519.verify
  publicKey := Ed25519.publicKey
  sign := Ed25519.sign

end SettlementLedger
