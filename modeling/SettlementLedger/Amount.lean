import SettlementLedger.Bytes

/-!
# Token amounts

An amount counts base units, `10 ^ 18` of them to a token, and stays below `2 ^ 128`. Arithmetic
never wraps: a sum, difference, product or quotient that is not an amount is no amount at all, and
the caller refuses the operation that asked for it. `Amount.onBytes` lifts an operation to the
16-byte encodings.
-/

set_option autoImplicit false
set_option relaxedAutoImplicit false

namespace SettlementLedger

/-- The number of bytes of an encoded amount. -/
def Amount.width : Nat := 16

/-- The number of amounts, `2 ^ 128`. -/
def Amount.limit : Nat := Bytes.capacity Amount.width

/-- A number of base units below the limit. -/
structure Amount where
  raw : Nat
  raw_lt : raw < Amount.limit
  deriving DecidableEq

namespace Amount

/-- The number of decimal places of a token. -/
def decimals : Nat := 18

/-- The base units of one token. -/
def unit : Nat := 1000000000000000000

theorem limit_eq : limit = 340282366920938463463374607431768211456 := rfl

/-- The amount of a number of base units, if it is in range. -/
def ofRaw? (raw : Nat) : Option Amount :=
  if h : raw < limit then some ⟨raw, h⟩ else none

/-- The zero amount. -/
def zero : Amount := ⟨0, by decide⟩

instance : Inhabited Amount := ⟨zero⟩

instance : LE Amount := ⟨fun a b ↦ a.raw ≤ b.raw⟩

instance (a b : Amount) : Decidable (a ≤ b) := inferInstanceAs (Decidable (a.raw ≤ b.raw))

/-- Whether an amount is zero. -/
def isZero (a : Amount) : Bool := a.raw == 0

/-- How two amounts compare. -/
def compare (a b : Amount) : Ordering := Ord.compare a.raw b.raw

/-- The sum, if it is in range. -/
def add? (a b : Amount) : Option Amount := ofRaw? (a.raw + b.raw)

/-- The difference, if it is not negative. -/
def sub? (a b : Amount) : Option Amount :=
  if b.raw ≤ a.raw then ofRaw? (a.raw - b.raw) else none

/-- The product of the base units, if it is in range. -/
def mul? (a b : Amount) : Option Amount := ofRaw? (a.raw * b.raw)

/-- The quotient of the base units rounded down, unless the divisor is zero. -/
def div? (a b : Amount) : Option Amount :=
  if b.raw = 0 then none else ofRaw? (a.raw / b.raw)

/-- The divisor of a share in basis points. -/
def percentScale : Amount := ⟨10000, by decide⟩

/-- The share of an amount, in basis points; the product is taken before the quotient. -/
def percentage? (a p : Amount) : Option Amount :=
  (a.mul? p).bind (·.div? percentScale)

/-- A number of whole tokens, if it is in range. -/
def ofTokens? (tokens : Nat) : Option Amount := ofRaw? (tokens * unit)

/-- A number of whole tokens given as a word; every such number is in range. -/
def whole (tokens : UInt32) : Amount :=
  ⟨tokens.toNat * unit, by
    have h := tokens.toNat_lt
    rw [limit_eq, unit]
    omega⟩

/-! ### Encoding -/

/-- The sixteen bytes of an amount, most significant first. -/
def toBytes (a : Amount) : Bytes := Bytes.ofNatBE width a.raw

/-- The amount that sixteen bytes write. -/
def ofBytes (bytes : Bytes) (h : bytes.length = width) : Amount :=
  ⟨bytes.toNatBE, by
    have hlt := bytes.toNatBE_lt
    rw [h] at hlt
    exact hlt⟩

/-- Reads an amount from exactly sixteen bytes. -/
def ofBytes? (bytes : Bytes) : Option Amount :=
  if h : bytes.length = width then some (ofBytes bytes h) else none

/-- An operation on amounts lifted to their encodings. -/
def onBytes (op : Amount → Amount → Option Amount) (a b : Bytes) : Option Bytes := do
  let x ← ofBytes? a
  let y ← ofBytes? b
  let z ← op x y
  return z.toBytes

@[ext] theorem ext_raw {a b : Amount} (h : a.raw = b.raw) : a = b := by
  cases a
  cases b
  simp_all

theorem ofRaw?_eq_some_iff {raw : Nat} {a : Amount} : ofRaw? raw = some a ↔ raw = a.raw := by
  unfold ofRaw?
  split
  · constructor
    · intro h
      cases h
      rfl
    · intro h
      simp [h]
  · rename_i hge
    constructor
    · intro h
      cases h
    · intro h
      exact absurd (h ▸ a.raw_lt) hge

@[simp] theorem length_toBytes (a : Amount) : a.toBytes.length = width :=
  Bytes.length_ofNatBE _ _

@[simp] theorem ofBytes?_toBytes (a : Amount) : ofBytes? a.toBytes = some a := by
  have hread : Bytes.toNatBE (Bytes.ofNatBE width a.raw) = a.raw :=
    Bytes.toNatBE_ofNatBE a.raw_lt
  have hlen : a.toBytes.length = width := length_toBytes a
  rw [ofBytes?, dif_pos hlen]
  exact congrArg some (ext_raw hread)

@[simp] theorem ofBytes_toBytes (a : Amount) (h : a.toBytes.length = width) :
    ofBytes a.toBytes h = a :=
  ext_raw (Bytes.toNatBE_ofNatBE a.raw_lt)

@[simp] theorem toBytes_ofBytes {bytes : Bytes} (h : bytes.length = width) :
    (ofBytes bytes h).toBytes = bytes := by
  have hback := Bytes.ofNatBE_toNatBE bytes
  rw [h] at hback
  exact hback

theorem ofBytes?_eq_some_iff {bytes : Bytes} {a : Amount} :
    ofBytes? bytes = some a ↔ bytes = a.toBytes := by
  constructor
  · intro h
    unfold ofBytes? at h
    split at h
    · cases h
      rw [toBytes_ofBytes]
    · cases h
  · rintro rfl
    exact ofBytes?_toBytes a

end Amount

end SettlementLedger
