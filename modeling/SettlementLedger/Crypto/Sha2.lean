import SettlementLedger.Bytes

/-!
# The SHA-2 hash functions

SHA-256 and SHA-512 are one construction at two word widths. A `Variant` holds what differs: the
rotation amounts, the round constants and the initial state. The message is padded with a one bit,
zeros and its length to whole blocks of sixteen words, and each block is mixed into an eight-word
state. The digest has eight words (`length_digest`).
-/

set_option autoImplicit false
set_option relaxedAutoImplicit false

namespace SettlementLedger.Sha2

/-- Eight chaining words. -/
structure State (w : Nat) where
  (a b c d e f g h : BitVec w)

/-- Three rotations, combined by exclusive or. -/
structure Rotations where
  (first second third : Nat)

/-- Two rotations and a shift, combined by exclusive or. -/
structure Shifts where
  (first second shift : Nat)

/-- What sets one member of the family apart. -/
structure Variant (w : Nat) where
  wordBytes : Nat
  roundConstants : List (BitVec w)
  initial : State w
  choiceRotations : Rotations
  majorityRotations : Rotations
  recentShifts : Shifts
  distantShifts : Shifts

variable {w : Nat}

/-- The exclusive or of three rotations of a word. -/
def Rotations.mix (r : Rotations) (x : BitVec w) : BitVec w :=
  x.rotateRight r.first ^^^ x.rotateRight r.second ^^^ x.rotateRight r.third

/-- The exclusive or of two rotations and a shift of a word. -/
def Shifts.mix (s : Shifts) (x : BitVec w) : BitVec w :=
  x.rotateRight s.first ^^^ x.rotateRight s.second ^^^ (x >>> s.shift)

/-- Takes from `y` where `x` has a one bit and from `z` elsewhere. -/
def choose (x y z : BitVec w) : BitVec w :=
  (x &&& y) ^^^ (~~~x &&& z)

/-- The majority of three words at each bit. -/
def majority (x y z : BitVec w) : BitVec w :=
  (x &&& y) ^^^ (x &&& z) ^^^ (y &&& z)

namespace State

/-- The componentwise sum of two states. -/
def add (s t : State w) : State w :=
  ⟨s.a + t.a, s.b + t.b, s.c + t.c, s.d + t.d, s.e + t.e, s.f + t.f, s.g + t.g, s.h + t.h⟩

/-- The words of a state in order. -/
def words (s : State w) : List (BitVec w) :=
  [s.a, s.b, s.c, s.d, s.e, s.f, s.g, s.h]

end State

namespace Variant

/-- The number of bytes of a block. -/
def blockBytes (v : Variant w) : Nat :=
  16 * v.wordBytes

/-- Reads `count` words, most significant byte first. -/
def readWords (v : Variant w) : Nat → Bytes → List (BitVec w)
  | 0, _ => []
  | count + 1, bytes =>
    BitVec.ofNat w (Bytes.toNatBE (bytes.take v.wordBytes)) ::
      v.readWords count (bytes.drop v.wordBytes)

/-- Extends a schedule, latest word first, by `count` words of the recurrence. -/
def extend (v : Variant w) : Nat → List (BitVec w) → List (BitVec w)
  | 0, latest => latest
  | count + 1, latest =>
    let next := v.recentShifts.mix (latest.getD 1 0) + latest.getD 6 0 +
      v.distantShifts.mix (latest.getD 14 0) + latest.getD 15 0
    v.extend count (next :: latest)

/-- The schedule of a block: its sixteen words and then one word for each further round. -/
def schedule (v : Variant w) (block : Bytes) : List (BitVec w) :=
  (v.extend (v.roundConstants.length - 16) (v.readWords 16 block).reverse).reverse

/-- One round, with the sum of its schedule word and its constant. -/
def round (v : Variant w) (s : State w) (input : BitVec w) : State w :=
  let t := s.h + v.choiceRotations.mix s.e + choose s.e s.f s.g + input
  ⟨t + v.majorityRotations.mix s.a + majority s.a s.b s.c, s.a, s.b, s.c, s.d + t, s.e, s.f, s.g⟩

/-- Mixes a block into the state. -/
def compress (v : Variant w) (s : State w) (block : Bytes) : State w :=
  (List.zipWith (· + ·) v.roundConstants (v.schedule block)).foldl v.round s |>.add s

/-- Mixes `count` blocks into the state. -/
def absorb (v : Variant w) : Nat → State w → Bytes → State w
  | 0, s, _ => s
  | count + 1, s, bytes =>
    v.absorb count (v.compress s (bytes.take v.blockBytes)) (bytes.drop v.blockBytes)

/-- The padded message: a one bit, the fewest zero bytes that complete a block, and the length in
bits as two words. -/
def pad (v : Variant w) (message : Bytes) : Bytes :=
  let framed := message.length + 1 + 2 * v.wordBytes
  let zeros := (v.blockBytes - framed % v.blockBytes) % v.blockBytes
  message ++ 0x80 :: (List.replicate zeros 0 ++
    Bytes.ofNatBE (2 * v.wordBytes) (8 * message.length))

/-- The hash of a message. -/
def digest (v : Variant w) (message : Bytes) : Bytes :=
  let padded := v.pad message
  let final := v.absorb (padded.length / v.blockBytes) v.initial padded
  final.words.flatMap fun word ↦ Bytes.ofNatBE v.wordBytes word.toNat

theorem length_digest (v : Variant w) (message : Bytes) :
    (v.digest message).length = 8 * v.wordBytes := by
  simp [digest, State.words]
  omega

end Variant

/-- SHA-256. -/
def sha256 : Variant 32 where
  wordBytes := 4
  choiceRotations := ⟨6, 11, 25⟩
  majorityRotations := ⟨2, 13, 22⟩
  recentShifts := ⟨17, 19, 10⟩
  distantShifts := ⟨7, 18, 3⟩
  initial := ⟨
    0x6a09e667, 0xbb67ae85, 0x3c6ef372, 0xa54ff53a,
    0x510e527f, 0x9b05688c, 0x1f83d9ab, 0x5be0cd19⟩
  roundConstants := [
    0x428a2f98, 0x71374491, 0xb5c0fbcf, 0xe9b5dba5, 0x3956c25b, 0x59f111f1, 0x923f82a4, 0xab1c5ed5,
    0xd807aa98, 0x12835b01, 0x243185be, 0x550c7dc3, 0x72be5d74, 0x80deb1fe, 0x9bdc06a7, 0xc19bf174,
    0xe49b69c1, 0xefbe4786, 0x0fc19dc6, 0x240ca1cc, 0x2de92c6f, 0x4a7484aa, 0x5cb0a9dc, 0x76f988da,
    0x983e5152, 0xa831c66d, 0xb00327c8, 0xbf597fc7, 0xc6e00bf3, 0xd5a79147, 0x06ca6351, 0x14292967,
    0x27b70a85, 0x2e1b2138, 0x4d2c6dfc, 0x53380d13, 0x650a7354, 0x766a0abb, 0x81c2c92e, 0x92722c85,
    0xa2bfe8a1, 0xa81a664b, 0xc24b8b70, 0xc76c51a3, 0xd192e819, 0xd6990624, 0xf40e3585, 0x106aa070,
    0x19a4c116, 0x1e376c08, 0x2748774c, 0x34b0bcb5, 0x391c0cb3, 0x4ed8aa4a, 0x5b9cca4f, 0x682e6ff3,
    0x748f82ee, 0x78a5636f, 0x84c87814, 0x8cc70208, 0x90befffa, 0xa4506ceb, 0xbef9a3f7, 0xc67178f2]

/-- SHA-512. -/
def sha512 : Variant 64 where
  wordBytes := 8
  choiceRotations := ⟨14, 18, 41⟩
  majorityRotations := ⟨28, 34, 39⟩
  recentShifts := ⟨19, 61, 6⟩
  distantShifts := ⟨1, 8, 7⟩
  initial := ⟨
    0x6a09e667f3bcc908, 0xbb67ae8584caa73b, 0x3c6ef372fe94f82b, 0xa54ff53a5f1d36f1,
    0x510e527fade682d1, 0x9b05688c2b3e6c1f, 0x1f83d9abfb41bd6b, 0x5be0cd19137e2179⟩
  roundConstants := [
    0x428a2f98d728ae22, 0x7137449123ef65cd, 0xb5c0fbcfec4d3b2f, 0xe9b5dba58189dbbc,
    0x3956c25bf348b538, 0x59f111f1b605d019, 0x923f82a4af194f9b, 0xab1c5ed5da6d8118,
    0xd807aa98a3030242, 0x12835b0145706fbe, 0x243185be4ee4b28c, 0x550c7dc3d5ffb4e2,
    0x72be5d74f27b896f, 0x80deb1fe3b1696b1, 0x9bdc06a725c71235, 0xc19bf174cf692694,
    0xe49b69c19ef14ad2, 0xefbe4786384f25e3, 0x0fc19dc68b8cd5b5, 0x240ca1cc77ac9c65,
    0x2de92c6f592b0275, 0x4a7484aa6ea6e483, 0x5cb0a9dcbd41fbd4, 0x76f988da831153b5,
    0x983e5152ee66dfab, 0xa831c66d2db43210, 0xb00327c898fb213f, 0xbf597fc7beef0ee4,
    0xc6e00bf33da88fc2, 0xd5a79147930aa725, 0x06ca6351e003826f, 0x142929670a0e6e70,
    0x27b70a8546d22ffc, 0x2e1b21385c26c926, 0x4d2c6dfc5ac42aed, 0x53380d139d95b3df,
    0x650a73548baf63de, 0x766a0abb3c77b2a8, 0x81c2c92e47edaee6, 0x92722c851482353b,
    0xa2bfe8a14cf10364, 0xa81a664bbc423001, 0xc24b8b70d0f89791, 0xc76c51a30654be30,
    0xd192e819d6ef5218, 0xd69906245565a910, 0xf40e35855771202a, 0x106aa07032bbd1b8,
    0x19a4c116b8d2d0c8, 0x1e376c085141ab53, 0x2748774cdf8eeb99, 0x34b0bcb5e19b48a8,
    0x391c0cb3c5c95a63, 0x4ed8aa4ae3418acb, 0x5b9cca4f7763e373, 0x682e6ff3d6b2b8a3,
    0x748f82ee5defb2fc, 0x78a5636f43172f60, 0x84c87814a1f0ab72, 0x8cc702081a6439ec,
    0x90befffa23631e28, 0xa4506cebde82bde9, 0xbef9a3f7b2c67915, 0xc67178f2e372532b,
    0xca273eceea26619c, 0xd186b8c721c0c207, 0xeada7dd6cde0eb1e, 0xf57d4f7fee6ed178,
    0x06f067aa72176fba, 0x0a637dc5a2c898a6, 0x113f9804bef90dae, 0x1b710b35131c471b,
    0x28db77f523047d84, 0x32caab7b40c72493, 0x3c9ebe0a15c9bebc, 0x431d67c49c100d4c,
    0x4cc5d4becb3e42b6, 0x597f299cfc657e2a, 0x5fcb6fab3ad6faec, 0x6c44198c4a475817]

end SettlementLedger.Sha2
