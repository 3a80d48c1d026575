import SettlementLedger.Crypto.ChaCha20
import SettlementLedger.Identifier

/-!
# Seeded nonces

A nonce source is a ChaCha20 keystream read 32 bytes at a time. Its key is expanded from a 64-bit
seed by a linear congruential generator whose outputs are xorshifted and rotated.
-/

set_option autoImplicit false
set_option relaxedAutoImplicit false

namespace SettlementLedger

/-- A keystream and the number of nonces already drawn from it. -/
structure NonceSource where
  key : Bytes
  drawn : Nat

namespace NonceSource

/-- The next state of the generator that expands a seed. -/
def advance (state : BitVec 64) : BitVec 64 :=
  state * 6364136223846793005 + 11634580027462260723

/-- The word that the generator shows in a state. -/
def output (state : BitVec 64) : BitVec 32 :=
  ((((state >>> 18) ^^^ state) >>> 27).setWidth 32).rotateRight (state >>> 59).toNat

/-- Expands a state to `count` words, least significant byte first. -/
def expand : (count : Nat) → BitVec 64 → Bytes
  | 0, _ => []
  | count + 1, state =>
    let next := advance state
    Bytes.ofNatLE 4 (output next).toNat ++ expand count next

/-- The source of a seed. -/
def ofSeed (seed : UInt64) : NonceSource :=
  ⟨expand 8 (BitVec.ofNat 64 seed.toNat), 0⟩

/-- The nonce at a position: one half of a keystream block. -/
def nonceAt (source : NonceSource) (position : Nat) : Nonce :=
  ⟨Bytes.slice (ChaCha20.block source.key (position / 2)) (position % 2 * 32) 32,
    Bytes.length_slice (by rw [ChaCha20.length_block]; omega)⟩

/-- The next nonce, and the source after it. -/
def next (source : NonceSource) : Nonce × NonceSource :=
  (source.nonceAt source.drawn, { source with drawn := source.drawn + 1 })

/-- The next nonces in order, and the source after them. -/
def take (source : NonceSource) : (count : Nat) → List Nonce × NonceSource
  | 0 => ([], source)
  | count + 1 =>
    let (nonce, rest) := source.next
    let (nonces, final) := rest.take count
    (nonce :: nonces, final)

end NonceSource

end SettlementLedger
