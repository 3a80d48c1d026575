import SettlementLedger.Crypto.Sha2
import SettlementLedger.Identifier

/-!
# Ed25519 signatures

Points of the twisted Edwards curve `y² - x² = 1 + d x² y²` over the field of `2 ^ 255 - 19`
elements, in extended coordinates, and the signature scheme on them with SHA-512. A public key is
read leniently: the ordinate is taken modulo the field order and a zero abscissa may carry either
sign, so a key is refused only when no point has its ordinate. A signature is checked without
clearing the cofactor: the recomputed point must have exactly the encoding that the signature holds.
-/

set_option autoImplicit false
set_option relaxedAutoImplicit false

namespace SettlementLedger.Ed25519

/-! ### The field -/

/-- The order of the field. -/
def fieldOrder : Nat := (1 <<< 255) - 19

/-- The order of the subgroup of the base point. -/
def groupOrder : Nat := (1 <<< 252) + 27742317777372353535851937790883648493

namespace Field

/-- The sum of two reduced elements. -/
def add (a b : Nat) : Nat := (a + b) % fieldOrder

/-- The difference of two reduced elements. -/
def sub (a b : Nat) : Nat := (a + fieldOrder - b) % fieldOrder

/-- The product of two elements. -/
def mul (a b : Nat) : Nat := a * b % fieldOrder

/-- The power with an exponent of at most `bits` bits. -/
def pow (base : Nat) : (bits exponent : Nat) → Nat
  | 0, _ => 1
  | bits + 1, exponent =>
    let root := pow base bits (exponent / 2)
    let square := mul root root
    if exponent % 2 = 1 then mul square base else square

/-- The inverse of a nonzero element. -/
def inv (a : Nat) : Nat := pow a 255 (fieldOrder - 2)

/-- A square root of minus one. -/
def rootOfMinusOne : Nat := pow 2 255 ((fieldOrder - 1) / 4)

/-- A root of `u / v`, if that quotient is a square. -/
def sqrtRatio? (u v : Nat) : Option Nat :=
  let cube := mul (mul v v) v
  let seventh := mul (mul cube cube) v
  let root := mul (mul u cube) (pow (mul u seventh) 252 ((fieldOrder - 5) / 8))
  let check := mul v (mul root root)
  if check = u then some root
  else if check = sub 0 u then some (mul root rootOfMinusOne)
  else none

end Field

/-! ### Points -/

/-- A point `(x / z, y / z)` with `x y = z t`. -/
structure Point where
  (x y z t : Nat)

namespace Point

open SettlementLedger.Ed25519.Field

/-- The constant of the curve equation. -/
def d : Nat := 37095705934669439343138083508754565189542113879843219016388785533085940283555

/-- The neutral element. -/
def identity : Point := ⟨0, 1, 1, 0⟩

/-- The point of an abscissa and an ordinate. -/
def ofAffine (x y : Nat) : Point := ⟨x, y, 1, mul x y⟩

/-- The generator of the signature group. -/
def base : Point :=
  ofAffine 15112221349535400772501151409588531511454012693041857206046113283949847762202
    46316835694926478169428394003475163141307993866256225615783033603165251855960

/-- The sum of two points. -/
def add (p q : Point) : Point :=
  let a := mul (sub p.y p.x) (sub q.y q.x)
  let b := mul (Field.add p.y p.x) (Field.add q.y q.x)
  let c := mul (mul p.t q.t) (2 * d)
  let e := mul p.z (2 * q.z)
  let f := sub b a
  let g := sub e c
  let h := Field.add e c
  let i := Field.add b a
  ⟨mul f g, mul h i, mul g h, mul f i⟩

/-- A point added to itself. -/
def double (p : Point) : Point :=
  let a := mul p.x p.x
  let b := mul p.y p.y
  let c := mul 2 (mul p.z p.z)
  let h := Field.add a b
  let s := Field.add p.x p.y
  let e := sub h (mul s s)
  let g := sub a b
  let f := Field.add c g
  ⟨mul e f, mul g h, mul f g, mul e h⟩

/-- The opposite point. -/
def neg (p : Point) : Point := ⟨sub 0 p.x, p.y, p.z, sub 0 p.t⟩

/-- The multiple of a point by a scalar of at most `bits` bits. -/
def scale (p : Point) : (bits scalar : Nat) → Point
  | 0, _ => identity
  | bits + 1, scalar =>
    let twice := (scale p bits (scalar / 2)).double
    if scalar % 2 = 1 then twice.add p else twice

/-- The weight of the top bit of an encoding. -/
def signBit : Nat := 1 <<< 255

/-- The 32-byte encoding: the ordinate, with the parity of the abscissa as the top bit. -/
def encode (p : Point) : Bytes :=
  let i := inv p.z
  Bytes.ofNatLE 32 (mul p.y i + mul p.x i % 2 * signBit)

/-- Reads an encoded point, if some point has the ordinate. -/
def decode? (bytes : Bytes) : Option Point :=
  let n := Bytes.toNatLE bytes
  let y := n % signBit % fieldOrder
  let square := mul y y
  match sqrtRatio? (sub square 1) (Field.add (mul d square) 1) with
  | none => none
  | some x => some (ofAffine (if x % 2 = n / signBit then x else sub 0 x) y)

end Point

/-! ### The scheme -/

/-- A scalar from a SHA-512 digest. -/
def hashScalar (message : Bytes) : Nat :=
  Bytes.toNatLE (Sha2.sha512.digest message) % groupOrder

/-- The weight of the top bit of a secret scalar. -/
def topBit : Nat := 1 <<< 254

/-- The secret scalar of a seed digest: three low bits cleared and the top bit fixed. -/
def secretScalar (digest : Bytes) : Nat :=
  let n := Bytes.toNatLE (digest.take 32)
  topBit + n % topBit / 8 * 8

/-- The public key of a seed. -/
def publicKey (seed : Seed) : PublicKey :=
  ⟨(Point.base.scale 255 (secretScalar (Sha2.sha512.digest seed.bytes))).encode,
    Bytes.length_ofNatLE _ _⟩

/-- The signature of a message under a seed. -/
def sign (seed : Seed) (message : Bytes) : Signature :=
  let digest := Sha2.sha512.digest seed.bytes
  let nonce := hashScalar (digest.drop 32 ++ message)
  let commitment := (Point.base.scale 253 nonce).encode
  let challenge := hashScalar (commitment ++ (publicKey seed).bytes ++ message)
  let response := (nonce + challenge * secretScalar digest) % groupOrder
  ⟨commitment ++ Bytes.ofNatLE 32 response, by
    simp [commitment, Point.encode, IdentifierRole.width]⟩

/-- Whether key bytes encode a point. -/
def isKey (key : PublicKey) : Bool :=
  (Point.decode? key.bytes).isSome

/-- Whether a signature of a message holds under a key. -/
def verify (key : PublicKey) (message : Bytes) (signature : Signature) : Bool :=
  match Point.decode? key.bytes with
  | none => false
  | some point =>
    let commitment := signature.bytes.take 32
    let response := Bytes.toNatLE (signature.bytes.drop 32)
    let challenge := hashScalar (commitment ++ key.bytes ++ message)
    decide (response < groupOrder) &&
      ((Point.base.scale 253 response).add (point.neg.scale 253 challenge)).encode == commitment

end SettlementLedger.Ed25519
