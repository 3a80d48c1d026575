import SettlementLedger.Bytes

/-!
# The ChaCha20 keystream

The block function with a 64-bit block counter and a 64-bit stream number. The state is four rows of
four words; a column round works on the rows as they stand and a diagonal round on the rows turned
against each other.
-/

set_option autoImplicit false
set_option relaxedAutoImplicit false

namespace SettlementLedger.ChaCha20

/-- Four words of the state. -/
structure Row where
  (w₀ w₁ w₂ w₃ : BitVec 32)

namespace Row

/-- The row with one operation applied to each pair of words. -/
def zipWith (op : BitVec 32 → BitVec 32 → BitVec 32) (r s : Row) : Row :=
  ⟨op r.w₀ s.w₀, op r.w₁ s.w₁, op r.w₂ s.w₂, op r.w₃ s.w₃⟩

/-- The componentwise sum. -/
def add (r s : Row) : Row := zipWith (· + ·) r s

/-- The componentwise exclusive or, each word then rotated left. -/
def mix (bits : Nat) (r s : Row) : Row := zipWith (fun x y ↦ (x ^^^ y).rotateLeft bits) r s

/-- The words moved one place to the left. -/
def turn (r : Row) : Row := ⟨r.w₁, r.w₂, r.w₃, r.w₀⟩

/-- The words of a row, each least significant byte first. -/
def bytes (r : Row) : Bytes :=
  [r.w₀, r.w₁, r.w₂, r.w₃].flatMap fun word ↦ Bytes.ofNatLE 4 word.toNat

/-- Reads four words, each least significant byte first. -/
def ofBytes (bytes : Bytes) : Row :=
  let word (i : Nat) : BitVec 32 := BitVec.ofNat 32 (Bytes.toNatLE ((bytes.drop (4 * i)).take 4))
  ⟨word 0, word 1, word 2, word 3⟩

end Row

/-- Four rows of words. -/
structure State where
  (a b c d : Row)

namespace State

/-- The quarter round on each column. -/
def quarterRounds (s : State) : State :=
  let a := s.a.add s.b
  let d := Row.mix 16 s.d a
  let c := s.c.add d
  let b := Row.mix 12 s.b c
  let a := a.add b
  let d := Row.mix 8 d a
  let c := c.add d
  let b := Row.mix 7 b c
  ⟨a, b, c, d⟩

/-- A column round and a diagonal round. -/
def doubleRound (s : State) : State :=
  let s := s.quarterRounds
  let s := quarterRounds ⟨s.a, s.b.turn, s.c.turn.turn, s.d.turn.turn.turn⟩
  ⟨s.a, s.b.turn.turn.turn, s.c.turn.turn, s.d.turn⟩

/-- Several double rounds. -/
def rounds : Nat → State → State
  | 0, s => s
  | n + 1, s => rounds n s.doubleRound

end State

/-- The block of the keystream at a counter, for a 32-byte key and stream zero. -/
def block (key : Bytes) (counter : Nat) : Bytes :=
  let initial : State :=
    ⟨Row.ofBytes (Bytes.ofAscii "expand 32-byte k"), Row.ofBytes (key.take 16),
      Row.ofBytes (key.drop 16), Row.ofBytes (Bytes.ofNatLE 8 counter ++ List.replicate 8 0)⟩
  let final := initial.rounds 10
  (initial.a.add final.a).bytes ++ (initial.b.add final.b).bytes ++
    (initial.c.add final.c).bytes ++ (initial.d.add final.d).bytes

theorem Row.length_bytes (r : Row) : r.bytes.length = 16 := by
  simp [Row.bytes]

theorem length_block (key : Bytes) (counter : Nat) : (block key counter).length = 64 := by
  simp [block, Row.length_bytes]

end SettlementLedger.ChaCha20
