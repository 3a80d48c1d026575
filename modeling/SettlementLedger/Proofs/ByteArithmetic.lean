import Mathlib.Algebra.Group.Nat.Defs
import SettlementLedger.Proofs.Amounts

/-!
# Arithmetic on encoded amounts

The operations on sixteen-byte encodings compute partial functions of the numbers that the bytes
write (`Amount.Computes`): there is no result if an argument has another width or if the function is
not defined, and otherwise the result is the encoding of its value. The five operations are exact
sums, differences, products, quotients and shares where these are numbers below `2 ^ 128`; a share
is defined only if the product that it is taken of is.

What the operations undo and how shares are bounded follows from the functions alone
(`byte_arithmetic_exact`).
-/

set_option autoImplicit false
set_option relaxedAutoImplicit false

namespace SettlementLedger

namespace Amount

/-- An operation on encodings computes a partial function of the numbers that they write. -/
structure Computes (op : Amount → Amount → Option Amount) (Defined : Nat → Nat → Prop)
    (result : Nat → Nat → Nat) : Prop where
  of_width : ∀ a b : Bytes, a.length ≠ 16 ∨ b.length ≠ 16 → onBytes op a b = none
  of_defined : ∀ a b : Bytes, a.length = 16 → b.length = 16 → Defined a.toNatBE b.toNatBE →
    ∃ c : Bytes, onBytes op a b = some c ∧ c.length = 16 ∧ c.toNatBE = result a.toNatBE b.toNatBE
  of_undefined : ∀ a b : Bytes, a.length = 16 → b.length = 16 → ¬ Defined a.toNatBE b.toNatBE →
    onBytes op a b = none

variable {op : Amount → Amount → Option Amount} {Defined : Nat → Nat → Prop}
  {result : Nat → Nat → Nat} {a b c : Bytes}

theorem onBytes_ofBytes (ha : a.length = 16) (hb : b.length = 16) :
    onBytes op a b = (op (ofBytes a ha) (ofBytes b hb)).map toBytes := by
  have hread {bytes : Bytes} (h : bytes.length = 16) : ofBytes? bytes = some (ofBytes bytes h) :=
    dif_pos h
  rw [onBytes, hread ha, hread hb]
  cases h : op (ofBytes a ha) (ofBytes b hb) <;> simp [h]

theorem onBytes_of_width (h : a.length ≠ 16 ∨ b.length ≠ 16) : onBytes op a b = none := by
  have hunread {bytes : Bytes} (h : bytes.length ≠ 16) : ofBytes? bytes = none := dif_neg h
  rcases h with ha | hb
  · rw [onBytes, hunread ha]
    rfl
  · rw [onBytes, hunread hb]
    cases ofBytes? a <;> rfl

/-- The number that an encoded amount writes is the amount. -/
theorem toNatBE_toBytes (amount : Amount) : amount.toBytes.toNatBE = amount.raw :=
  Bytes.toNatBE_ofNatBE amount.raw_lt

/-- Bytes of the width of an amount are told apart by the numbers that they write. -/
theorem eq_of_toNatBE_eq (ha : a.length = 16) (hb : b.length = 16) (h : a.toNatBE = b.toNatBE) :
    a = b := by
  rw [← Bytes.ofNatBE_toNatBE a, ← Bytes.ofNatBE_toNatBE b, ha, hb, h]

/-- What an operation computes on amounts, it computes on their encodings. -/
theorem Computes.of_raw
    (hop : ∀ x y z : Amount, op x y = some z ↔ Defined x.raw y.raw ∧ result x.raw y.raw = z.raw)
    (hrange : ∀ x y : Amount, Defined x.raw y.raw → result x.raw y.raw < limit) :
    Computes op Defined result where
  of_width _ _ := onBytes_of_width
  of_defined a b ha hb hdefined := by
    have hlt := hrange (ofBytes a ha) (ofBytes b hb) hdefined
    have hresult := (hop (ofBytes a ha) (ofBytes b hb) ⟨_, hlt⟩).mpr ⟨hdefined, rfl⟩
    exact ⟨_, by rw [onBytes_ofBytes ha hb, hresult, Option.map_some], length_toBytes _,
      toNatBE_toBytes _⟩
  of_undefined a b ha hb hundefined := by
    rw [onBytes_ofBytes ha hb, Option.map_eq_none_iff, Option.eq_none_iff_forall_ne_some]
    exact fun c hc ↦ hundefined ((hop _ _ c).mp hc).1

/-- The result of an operation that computes a partial function. -/
theorem Computes.eq_some_iff (h : Computes op Defined result) :
    onBytes op a b = some c ↔ a.length = 16 ∧ b.length = 16 ∧ Defined a.toNatBE b.toNatBE ∧
      c.length = 16 ∧ c.toNatBE = result a.toNatBE b.toNatBE := by
  by_cases hwidth : a.length = 16 ∧ b.length = 16
  · obtain ⟨ha, hb⟩ := hwidth
    by_cases hdefined : Defined a.toNatBE b.toNatBE
    · obtain ⟨d, hd, hlength, hvalue⟩ := h.of_defined a b ha hb hdefined
      rw [hd, Option.some.injEq]
      constructor
      · rintro rfl
        exact ⟨ha, hb, hdefined, hlength, hvalue⟩
      · rintro ⟨-, -, -, hlength', hvalue'⟩
        exact eq_of_toNatBE_eq hlength hlength' (hvalue.trans hvalue'.symm)
    · rw [h.of_undefined a b ha hb hdefined]
      exact iff_of_false nofun fun hresult ↦ hdefined hresult.2.2.1
  · rw [h.of_width a b (by omega)]
    exact iff_of_false nofun fun hresult ↦ hwidth ⟨hresult.1, hresult.2.1⟩

/-! ### The five operations -/

theorem computes_add : Computes add? (fun a b ↦ a + b < 2 ^ 128) fun a b ↦ a + b := by
  refine .of_raw (fun x y z ↦ ?_) fun x y hlt ↦ hlt
  rw [add?_eq_some_iff, iff_and_self]
  exact fun hsum ↦ hsum ▸ z.raw_lt

theorem computes_sub : Computes sub? (fun a b ↦ b ≤ a) fun a b ↦ a - b := by
  refine .of_raw (fun x y z ↦ ?_) fun x y _ ↦ ?_
  · rw [sub?_eq_some_iff]
    omega
  · exact Nat.lt_of_le_of_lt (Nat.sub_le _ _) x.raw_lt

theorem computes_mul : Computes mul? (fun a b ↦ a * b < 2 ^ 128) fun a b ↦ a * b := by
  refine .of_raw (fun x y z ↦ ?_) fun x y hlt ↦ hlt
  rw [mul?_eq_some_iff, iff_and_self]
  exact fun hproduct ↦ hproduct ▸ z.raw_lt

theorem computes_div : Computes div? (fun _ b ↦ b ≠ 0) fun a b ↦ a / b :=
  .of_raw (fun _ _ _ ↦ div?_eq_some_iff) fun x _ _ ↦
    Nat.lt_of_le_of_lt (Nat.div_le_self _ _) x.raw_lt

theorem computes_percentage :
    Computes percentage? (fun a b ↦ a * b < 2 ^ 128) fun a b ↦ a * b / 10000 :=
  .of_raw (fun _ _ _ ↦ percentage?_eq_some_iff) fun _ _ hlt ↦
    Nat.lt_of_le_of_lt (Nat.div_le_self _ _) hlt

/-! ### What follows for the encodings -/

theorem sub_of_add (h : onBytes add? a b = some c) : onBytes sub? c b = some a := by
  obtain ⟨ha, hb, -, hc, hsum⟩ := computes_add.eq_some_iff.mp h
  refine computes_sub.eq_some_iff.mpr ⟨hc, hb, ?_, ha, ?_⟩
  · rw [hsum]
    exact Nat.le_add_left _ _
  · rw [hsum, Nat.add_sub_cancel]

theorem div_of_mul (hfactor : b.toNatBE ≠ 0) (h : onBytes mul? a b = some c) :
    onBytes div? c b = some a := by
  obtain ⟨ha, hb, -, hc, hproduct⟩ := computes_mul.eq_some_iff.mp h
  refine computes_div.eq_some_iff.mpr ⟨hc, hb, hfactor, ha, ?_⟩
  rw [hproduct, Nat.mul_div_cancel _ (Nat.pos_of_ne_zero hfactor)]

/-- A share of at most the whole is at most what it is taken of. -/
theorem percentage_le (hwhole : b.toNatBE ≤ 10000) (h : onBytes percentage? a b = some c) :
    c.toNatBE ≤ a.toNatBE := by
  obtain ⟨-, -, -, -, hshare⟩ := computes_percentage.eq_some_iff.mp h
  calc c.toNatBE = a.toNatBE * b.toNatBE / 10000 := hshare
    _ ≤ a.toNatBE * 10000 / 10000 := Nat.div_le_div_right (Nat.mul_le_mul_left _ hwhole)
    _ = a.toNatBE := Nat.mul_div_cancel _ (by decide)

/-- A greater part of a greater amount is a greater share. -/
theorem percentage_mono {a' b' c' : Bytes} (ha : a.toNatBE ≤ a'.toNatBE)
    (hb : b.toNatBE ≤ b'.toNatBE) (h : onBytes percentage? a b = some c)
    (h' : onBytes percentage? a' b' = some c') : c.toNatBE ≤ c'.toNatBE := by
  obtain ⟨-, -, -, -, hshare⟩ := computes_percentage.eq_some_iff.mp h
  obtain ⟨-, -, -, -, hshare'⟩ := computes_percentage.eq_some_iff.mp h'
  rw [hshare, hshare']
  exact Nat.div_le_div_right (Nat.mul_le_mul ha hb)

end Amount

open Amount in
/-- **Arithmetic on encoded amounts is exact or refused.** Each operation gives nothing if an
argument is not sixteen bytes; otherwise it gives the sixteen bytes of the sum, the difference, the
product, the quotient or the share of the numbers that the arguments write, and nothing exactly if
the sum or product is `2 ^ 128` or more, the difference is negative or the divisor is zero. So
subtraction undoes addition, division undoes multiplication, and a share of at most the whole is
bounded by it and grows with both arguments. -/
theorem byte_arithmetic_exact :
    (Computes add? (fun a b ↦ a + b < 2 ^ 128) fun a b ↦ a + b) ∧
    (Computes sub? (fun a b ↦ b ≤ a) fun a b ↦ a - b) ∧
    (Computes mul? (fun a b ↦ a * b < 2 ^ 128) fun a b ↦ a * b) ∧
    (Computes div? (fun _ b ↦ b ≠ 0) fun a b ↦ a / b) ∧
    (Computes percentage? (fun a b ↦ a * b < 2 ^ 128) fun a b ↦ a * b / 10000) ∧
    (∀ a b c : Bytes, onBytes add? a b = some c → onBytes sub? c b = some a) ∧
    (∀ a b c : Bytes, b.toNatBE ≠ 0 → onBytes mul? a b = some c → onBytes div? c b = some a) ∧
    (∀ a b c : Bytes, b.toNatBE ≤ 10000 → onBytes percentage? a b = some c →
      c.toNatBE ≤ a.toNatBE) ∧
    ∀ a b c a' b' c' : Bytes, a.toNatBE ≤ a'.toNatBE → b.toNatBE ≤ b'.toNatBE →
      onBytes percentage? a b = some c → onBytes percentage? a' b' = some c' →
        c.toNatBE ≤ c'.toNatBE :=
  ⟨computes_add, computes_sub, computes_mul, computes_div, computes_percentage,
    fun _ _ _ ↦ sub_of_add, fun _ _ _ ↦ div_of_mul, fun _ _ _ ↦ percentage_le,
    fun _ _ _ _ _ _ ↦ percentage_mono⟩

end SettlementLedger
