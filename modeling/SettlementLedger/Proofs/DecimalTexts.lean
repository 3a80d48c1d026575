import Mathlib.Algebra.Group.Nat.Defs
import Mathlib.Data.List.DropRight
import SettlementLedger.Amount.Decimal

/-!
# Decimal texts are exact

Reading an amount may leave the range of amounts in many places: at each digit before the point,
when that number is scaled to base units, and when the fraction is added. Since no step makes a
number smaller, a number that is out of range on the way is so at the end
(`Amount.ofRaw?_bind`), and all these checks come to one check of the whole number
(`Decimal.number?_eq`, `Numeral.ofDigits?_eq`). The fraction alone is always in range.

A `Numeral` is what the text of an amount may look like: digits, and possibly a point and up to
eighteen more digits. It writes a number of base units (`Numeral.baseUnits`), and reading a text
gives the amount of its numeral if that is in range and nothing otherwise
(`Numeral.ofDecimal?_text`, `Numeral.exists_of_ofDecimal?`).

Writing an amount gives a numeral with no superfluous zeros (`Amount.numeral`), and every such
numeral is the one that is written for its amount (`Numeral.Canonical.eq_numeral`). So reading
undoes writing, and writing undoes reading exactly on the texts without superfluous zeros
(`decimal_texts_exact`).
-/

set_option autoImplicit false
set_option relaxedAutoImplicit false

namespace SettlementLedger

namespace Decimal

variable {digits more : List Char} {c : Char}

/-! ### The number that digits write -/

/-- The number that digits write, most significant first. -/
def value (digits : List Char) : Nat := Nat.ofDigitChars 10 digits 0

theorem value_append : value (digits ++ more) = value digits * 10 ^ more.length + value more := by
  rw [value, Nat.ofDigitChars_append, Nat.ofDigitChars_eq_ofDigitChars_zero, Nat.mul_comm]
  rfl

theorem value_concat : value (digits ++ [c]) = 10 * value digits + (c.toNat - 48) :=
  Nat.ofDigitChars_append 0

theorem value_replicate_zero (n : Nat) : value (List.replicate n '0') = 0 := by
  induction n with
  | zero => rfl
  | succ n ih => rw [List.replicate_succ', value_concat, ih]; rfl

theorem digit_lt (h : c.isDigit) : c.toNat - 48 < 10 := by
  have hcode : 48 ≤ c.toNat ∧ c.toNat ≤ 57 := Char.isDigit_iff_toNat.mp h
  omega

theorem digitChar_digit (h : c.isDigit) : Nat.digitChar (c.toNat - 48) = c := by
  have hcode : 48 ≤ c.toNat ∧ c.toNat ≤ 57 := Char.isDigit_iff_toNat.mp h
  apply Char.toNat_inj.mp
  rw [Nat.toNat_digitChar_of_lt_ten (digit_lt h)]
  omega

theorem value_lt (h : ∀ c ∈ digits, c.isDigit) : value digits < 10 ^ digits.length := by
  induction digits using List.reverseRecOn with
  | nil => decide
  | append_singleton digits c ih =>
    have hfront := ih fun d hd ↦ h d (List.mem_append_left _ hd)
    have hlast := digit_lt (h c (List.mem_append_right _ (List.mem_singleton_self c)))
    rw [value_concat, List.length_append, List.length_singleton, Nat.pow_succ]
    omega

/-! ### Digits without superfluous zeros in front -/

/-- Digits that do not start with a superfluous zero are written for their number. -/
theorem toDigits_value (h : ∀ c ∈ digits, c.isDigit) (hne : digits ≠ [])
    (hlead : digits.head? = some '0' → digits = ['0']) :
    Nat.toDigits 10 (value digits) = digits := by
  induction digits using List.reverseRecOn with
  | nil => exact absurd rfl hne
  | append_singleton digits c ih =>
    have hlast : c.isDigit := h c (List.mem_append_right _ (List.mem_singleton_self c))
    rw [value_concat]
    by_cases hempty : digits = []
    · subst hempty
      rw [value, Nat.ofDigitChars_nil, Nat.mul_zero, Nat.zero_add,
        Nat.toDigits_of_lt_base (digit_lt hlast), digitChar_digit hlast]
      rfl
    · have hhead : digits.head? ≠ some '0' := by
        intro hzero
        rw [List.head?_append_of_ne_nil _ hempty] at hlead
        have hlength := congrArg List.length (hlead hzero)
        rw [List.length_append, List.length_singleton, List.length_singleton] at hlength
        exact hempty (List.length_eq_zero_iff.mp (Nat.succ.inj hlength))
      have hfront := ih (fun d hd ↦ h d (List.mem_append_left _ hd)) hempty fun hzero ↦
        absurd hzero hhead
      have hpos : 0 < value digits := by
        refine Nat.pos_of_ne_zero fun hzero ↦ hhead ?_
        rw [← hfront, hzero]
        rfl
      rw [← Nat.toDigits_append_toDigits (by decide) hpos (digit_lt hlast), hfront,
        Nat.toDigits_of_lt_base (digit_lt hlast), digitChar_digit hlast]

theorem head?_toDigits_ne_zero {n : Nat} (h : 0 < n) : (Nat.toDigits 10 n).head? ≠ some '0' := by
  induction n using Nat.strongRecOn with
  | ind n ih =>
    by_cases hlt : n < 10
    · rw [Nat.toDigits_of_lt_base hlt, List.head?_cons, ne_eq, Option.some.injEq]
      intro hzero
      have hcode := Nat.toNat_digitChar_of_lt_ten hlt
      rw [hzero] at hcode
      have : '0'.toNat = 48 := rfl
      omega
    · rw [Nat.toDigits_of_base_le (by decide) (by omega),
        List.head?_append_of_ne_nil _ Nat.toDigits_ne_nil]
      exact ih (n / 10) (by omega) (by omega)

/-- No superfluous zero is written in front of a number. -/
theorem toDigits_eq_of_head? {n : Nat} (h : (Nat.toDigits 10 n).head? = some '0') :
    Nat.toDigits 10 n = ['0'] := by
  have hzero : n = 0 := Classical.byContradiction fun hne ↦
    head?_toDigits_ne_zero (Nat.pos_of_ne_zero hne) h
  rw [hzero]
  rfl

/-! ### Digits at a fixed width -/

@[simp] theorem length_padded (width n : Nat) : (padded width n).length = width := by
  induction width generalizing n with
  | zero => rfl
  | succ width ih => rw [padded, List.length_append, ih]; rfl

theorem isDigit_of_mem_padded {width n : Nat} (h : c ∈ padded width n) : c.isDigit := by
  induction width generalizing n with
  | zero => cases h
  | succ width ih =>
    rw [padded, List.mem_append, List.mem_singleton] at h
    rcases h with hfront | rfl
    · exact ih hfront
    · rw [Nat.isDigit_digitChar]
      exact decide_eq_true (Nat.mod_lt n (by decide))

theorem value_padded {width n : Nat} (h : n < 10 ^ width) : value (padded width n) = n := by
  induction width generalizing n with
  | zero =>
    rw [Nat.pow_zero] at h
    have : n = 0 := by omega
    rw [this]
    rfl
  | succ width ih =>
    have hdigit : (Nat.digitChar (n % 10)).toNat = 48 + n % 10 :=
      Nat.toNat_digitChar_of_lt_ten (Nat.mod_lt n (by decide))
    rw [Nat.pow_succ] at h
    rw [padded, value_concat, ih (by omega), hdigit]
    omega

/-- Digits are the ones of their number at their width. -/
theorem padded_value (h : ∀ c ∈ digits, c.isDigit) :
    padded digits.length (value digits) = digits := by
  induction digits using List.reverseRecOn with
  | nil => rfl
  | append_singleton digits c ih =>
    have hfront := ih fun d hd ↦ h d (List.mem_append_left _ hd)
    have hlast : c.isDigit := h c (List.mem_append_right _ (List.mem_singleton_self c))
    have hlt := digit_lt hlast
    have hquot : (10 * value digits + (c.toNat - 48)) / 10 = value digits := by omega
    have hrem : (10 * value digits + (c.toNat - 48)) % 10 = c.toNat - 48 := by omega
    rw [value_concat, List.length_append, List.length_singleton, padded, hquot, hrem, hfront,
      digitChar_digit hlast]

/-! ### Digits without zeros at the end -/

theorem trimmed_eq_rdropWhile : trimmed digits = digits.rdropWhile (· == '0') := rfl

theorem trimmed_eq_self_iff : trimmed digits = digits ↔ digits.getLast? ≠ some '0' := by
  rw [trimmed_eq_rdropWhile, List.rdropWhile_eq_self_iff]
  by_cases hempty : digits = []
  · subst hempty
    exact iff_of_true (fun hne ↦ absurd rfl hne) nofun
  · have hlast : digits.getLast? ≠ some '0' ↔ digits.getLast hempty ≠ '0' := by
      rw [List.getLast?_eq_some_getLast hempty, ne_eq, Option.some.injEq]
    simp only [hlast, beq_iff_eq]
    exact ⟨fun h ↦ h hempty, fun h _ ↦ h⟩

theorem getLast?_trimmed_ne_zero : (trimmed digits).getLast? ≠ some '0' :=
  trimmed_eq_self_iff.mp (List.rdropWhile_idempotent _ _)

theorem trimmed_append_zeros (n : Nat) :
    trimmed (digits ++ List.replicate n '0') = trimmed digits := by
  induction n with
  | zero => rw [List.replicate_zero, List.append_nil]
  | succ n ih =>
    rw [List.replicate_succ', ← List.append_assoc]
    exact (List.rdropWhile_concat_pos _ _ _ rfl).trans ih

/-- What is left out at the end are zeros. -/
theorem exists_eq_trimmed_append (digits : List Char) :
    ∃ n, digits = trimmed digits ++ List.replicate n '0' := by
  have hzeros (c : Char) (hc : c ∈ digits.rtakeWhile (· == '0')) : c = '0' :=
    beq_iff_eq.mp (List.mem_rtakeWhile_imp (p := (· == '0')) hc)
  refine ⟨(digits.rtakeWhile (· == '0')).length, ?_⟩
  rw [← List.eq_replicate_of_mem hzeros]
  exact List.rdropWhile_append_rtakeWhile.symm

end Decimal

/-! ### Reading within the range -/

/-- A step that makes no number smaller leads to a number in range only from a number in range. -/
theorem Amount.ofRaw?_bind {f : Nat → Nat} {n : Nat} (h : n ≤ f n) :
    ((ofRaw? n).bind fun a ↦ ofRaw? (f a.raw)) = ofRaw? (f n) := by
  by_cases hlt : n < limit
  · rw [ofRaw?, dif_pos hlt, Option.bind_some]
  · have hout : ¬ f n < limit := fun hf ↦ hlt (Nat.lt_of_le_of_lt h hf)
    rw [ofRaw?, ofRaw?, dif_neg hlt, dif_neg hout, Option.bind_none]

namespace Decimal

open Amount

variable {digits fraction : List Char} {c : Char}

/-- The value of a digit is in range. -/
theorem exists_digit? (h : c.isDigit) : ∃ d : Amount, digit? c = some d ∧ d.raw = c.toNat - 48 := by
  have hrange : c.toNat - 48 < limit := Nat.lt_trans (digit_lt h) (by decide)
  have hread : digit? c = ofRaw? (c.toNat - 48) := if_pos h
  exact ⟨⟨c.toNat - 48, hrange⟩, hread.trans (dif_pos hrange), rfl⟩

theorem shift?_eq (h : c.isDigit) (n : Amount) :
    shift? n c = ofRaw? (10 * n.raw + (c.toNat - 48)) := by
  obtain ⟨d, hread, hd⟩ := exists_digit? h
  have htens : n.mul? ten = ofRaw? (10 * n.raw) := by rw [mul?, Nat.mul_comm]; rfl
  calc shift? n c
      = (ofRaw? (10 * n.raw)).bind fun tens ↦ ofRaw? (tens.raw + d.raw) := by
        rw [shift?, htens, hread]
        rfl
    _ = ofRaw? (10 * n.raw + d.raw) := ofRaw?_bind (f := (· + d.raw)) (Nat.le_add_right _ _)
    _ = ofRaw? (10 * n.raw + (c.toNat - 48)) := by rw [hd]

/-- Digits are read if the number that they write is in range; no number on the way is larger. -/
theorem number?_eq (h : ∀ c ∈ digits, c.isDigit) : number? digits = ofRaw? (value digits) := by
  induction digits using List.reverseRecOn with
  | nil => rfl
  | append_singleton digits c ih =>
    have hfront := ih fun d hd ↦ h d (List.mem_append_left _ hd)
    have hlast : c.isDigit := h c (List.mem_append_right _ (List.mem_singleton_self c))
    have hgrows : value digits ≤ 10 * value digits + (c.toNat - 48) := by omega
    calc number? (digits ++ [c])
        = (ofRaw? (value digits)).bind fun n ↦ shift? n c := by
          rw [number?, List.foldlM_append, ← hfront]
          simp only [List.foldlM_cons, List.foldlM_nil, bind_pure]
          rfl
      _ = (ofRaw? (value digits)).bind fun n ↦ ofRaw? (10 * n.raw + (c.toNat - 48)) := by
          rw [funext (shift?_eq hlast)]
      _ = ofRaw? (value (digits ++ [c])) := by
          rw [value_concat]
          exact ofRaw?_bind (f := fun n ↦ 10 * n + (c.toNat - 48)) hgrows

/-- The digits after the point are read in any case: what they write is less than a token. -/
theorem exists_ofFraction? (h : ∀ c ∈ fraction, c.isDigit) (hle : fraction.length ≤ 18) :
    ∃ rest, ofFraction? fraction = some rest ∧
      rest.raw = value fraction * 10 ^ (18 - fraction.length) := by
  have hpos : 0 < 10 ^ (18 - fraction.length) := Nat.pow_pos (by decide)
  have hrange : value fraction * 10 ^ (18 - fraction.length) < limit := by
    calc value fraction * 10 ^ (18 - fraction.length)
        < 10 ^ fraction.length * 10 ^ (18 - fraction.length) :=
          Nat.mul_lt_mul_of_pos_right (value_lt h) hpos
      _ = 10 ^ 18 := by rw [← Nat.pow_add, Nat.add_sub_cancel' hle]
      _ < limit := by decide
  refine ⟨⟨_, hrange⟩, ?_, rfl⟩
  rw [ofFraction?]
  split
  · rename_i hempty
    rw [List.isEmpty_iff] at hempty
    subst hempty
    rfl
  · rw [number?_eq h]
    exact (ofRaw?_bind (f := (· * 10 ^ (18 - fraction.length)))
      (Nat.le_mul_of_pos_right _ hpos)).trans (dif_pos hrange)

end Decimal

open Decimal

/-- What the text of an amount may look like: one or more digits, and up to eighteen digits after a
point, which is only there if they are. -/
structure Numeral where
  whole : List Char
  fraction : List Char
  whole_ne_nil : whole ≠ []
  whole_digits : ∀ c ∈ whole, c.isDigit
  fraction_digits : ∀ c ∈ fraction, c.isDigit
  length_fraction_le : fraction.length ≤ 18

namespace Numeral

/-- The characters of a numeral. -/
def chars (n : Numeral) : List Char :=
  if n.fraction = [] then n.whole else n.whole ++ '.' :: n.fraction

/-- The text of a numeral. -/
def text (n : Numeral) : String :=
  String.ofList n.chars

/-- The number of base units that a numeral writes, `10 ^ 18` of them to a token. -/
def baseUnits (n : Numeral) : Nat :=
  Nat.ofDigitChars 10 n.whole 0 * 10 ^ 18 +
    Nat.ofDigitChars 10 n.fraction 0 * 10 ^ (18 - n.fraction.length)

/-- No digit is superfluous: the whole part does not start with a zero unless it is zero, and the
fraction does not end in a zero. -/
structure Canonical (n : Numeral) : Prop where
  whole : n.whole.head? = some '0' → n.whole = ['0']
  fraction : n.fraction.getLast? ≠ some '0'

/-! ### Reading -/

/-- The fraction filled up to eighteen digits. -/
def filled (n : Numeral) : List Char := n.fraction.rightpad 18 '0'

theorem value_filled (n : Numeral) :
    value n.filled = value n.fraction * 10 ^ (18 - n.fraction.length) := by
  rw [filled, List.rightpad, value_append, value_replicate_zero, List.length_replicate,
    Nat.add_zero]

theorem length_filled (n : Numeral) : n.filled.length = 18 := by
  have hle := n.length_fraction_le
  rw [filled, List.rightpad, List.length_append, List.length_replicate]
  omega

theorem filled_digits (n : Numeral) : ∀ c ∈ n.filled, c.isDigit := by
  intro c hc
  rw [filled, List.rightpad, List.mem_append] at hc
  rcases hc with hc | hc
  · exact n.fraction_digits c hc
  · rw [List.eq_of_mem_replicate hc]
    rfl

theorem value_append_filled (n : Numeral) : value (n.whole ++ n.filled) = n.baseUnits := by
  rw [value_append, length_filled, value_filled]
  rfl

/-- The digits of a numeral pass the checks of form. -/
theorem ofDigits?_eq_bind (n : Numeral) : Amount.ofDigits? n.whole n.fraction =
    (number? n.whole).bind fun tokens ↦ (Amount.ofFraction? n.fraction).bind fun rest ↦
      (tokens.mul? Amount.one).bind fun units ↦ units.add? rest := by
  have hform : ¬ (n.whole.isEmpty || decide (Amount.decimals < n.fraction.length)) = true := by
    rw [Bool.or_eq_true, List.isEmpty_iff, decide_eq_true_iff]
    exact not_or.mpr ⟨n.whole_ne_nil, Nat.not_lt.mpr n.length_fraction_le⟩
  have hwhole : n.whole.all isDigit = true := List.all_eq_true.mpr n.whole_digits
  have hfraction : n.fraction.all isDigit = true := List.all_eq_true.mpr n.fraction_digits
  rw [Amount.ofDigits?, if_neg hform, hwhole, hfraction]
  rfl

/-- The checks of range on the way come to one check of the number of base units. -/
theorem ofDigits?_eq (n : Numeral) :
    Amount.ofDigits? n.whole n.fraction = Amount.ofRaw? n.baseUnits := by
  obtain ⟨rest, hrest, hraw⟩ := exists_ofFraction? n.fraction_digits n.length_fraction_le
  have hunit : Amount.unit = 10 ^ 18 := rfl
  have hgrows : value n.whole ≤ value n.whole * Amount.unit + rest.raw :=
    Nat.le_trans (Nat.le_mul_of_pos_right _ (by decide)) (Nat.le_add_right _ _)
  calc Amount.ofDigits? n.whole n.fraction
      = (number? n.whole).bind fun tokens ↦
          (tokens.mul? Amount.one).bind fun units ↦ units.add? rest := by
        rw [ofDigits?_eq_bind, hrest]
        exact congrArg (Option.bind _) (funext fun tokens ↦ Option.bind_some _ _)
    _ = (Amount.ofRaw? (value n.whole)).bind fun tokens ↦
          (Amount.ofRaw? (tokens.raw * Amount.unit)).bind fun units ↦
            Amount.ofRaw? (units.raw + rest.raw) := by
        rw [number?_eq n.whole_digits]
        rfl
    _ = (Amount.ofRaw? (value n.whole)).bind fun tokens ↦
          Amount.ofRaw? (tokens.raw * Amount.unit + rest.raw) := by
        refine congrArg (Option.bind _) (funext fun tokens ↦ ?_)
        exact Amount.ofRaw?_bind (f := (· + rest.raw)) (Nat.le_add_right _ _)
    _ = Amount.ofRaw? (value n.whole * Amount.unit + rest.raw) :=
        Amount.ofRaw?_bind (f := (· * Amount.unit + rest.raw)) hgrows
    _ = Amount.ofRaw? n.baseUnits := by rw [hraw, hunit, baseUnits, value, value]

/-- The digits of a numeral are read, and no others. -/
theorem exists_of_ofDigits? {whole fraction : List Char} {b : Amount}
    (h : Amount.ofDigits? whole fraction = some b) :
    ∃ n : Numeral, n.whole = whole ∧ n.fraction = fraction := by
  unfold Amount.ofDigits? at h
  split at h
  · cases h
  · rename_i hform
    split at h
    · cases h
    · rename_i hdigits
      simp only [Bool.or_eq_true, not_or, Bool.not_eq_true, List.isEmpty_eq_false_iff,
        decide_eq_false_iff_not, Nat.not_lt] at hform
      simp only [Bool.or_eq_true, not_or, Bool.not_eq_true, Bool.not_eq_false'] at hdigits
      exact ⟨⟨whole, fraction, hform.1, List.all_eq_true.mp hdigits.1,
        List.all_eq_true.mp hdigits.2, hform.2⟩, rfl, rfl⟩

theorem ne_point_of_isDigit {c : Char} (h : c.isDigit) : (c != '.') = true := by
  rw [bne_iff_ne]
  rintro rfl
  cases h

/-- What stands before the point. -/
theorem takeWhile_chars (n : Numeral) : n.chars.takeWhile (· != '.') = n.whole := by
  have hwhole (c : Char) (hc : c ∈ n.whole) : (c != '.') = true :=
    ne_point_of_isDigit (n.whole_digits c hc)
  rw [chars]
  split
  · exact List.takeWhile_eq_self_iff.mpr hwhole
  · rw [List.takeWhile_append_of_pos hwhole]
    exact List.append_nil n.whole

/-- What stands from the point on. -/
theorem dropWhile_chars (n : Numeral) :
    n.chars.dropWhile (· != '.') = if n.fraction = [] then [] else '.' :: n.fraction := by
  have hwhole (c : Char) (hc : c ∈ n.whole) : (c != '.') = true :=
    ne_point_of_isDigit (n.whole_digits c hc)
  rw [chars]
  split
  · exact List.dropWhile_eq_nil_iff.mpr hwhole
  · exact List.dropWhile_append_of_pos hwhole

/-- The text of a numeral is taken apart into its digits again. -/
theorem ofDecimal?_eq_ofDigits? (n : Numeral) :
    Amount.ofDecimal? n.text = Amount.ofDigits? n.whole n.fraction := by
  rw [Amount.ofDecimal?, text, String.toList_ofList, takeWhile_chars, dropWhile_chars]
  by_cases hempty : n.fraction = []
  · rw [if_pos hempty, hempty]
  · have hnonempty : ¬ n.fraction.isEmpty = true := mt List.isEmpty_iff.mp hempty
    rw [if_neg hempty]
    exact if_neg hnonempty

/-- A text has one numeral. -/
theorem text_injective {n m : Numeral} (h : n.text = m.text) : n = m := by
  have hchars : n.chars = m.chars := by
    rw [← String.toList_ofList (l := n.chars), ← String.toList_ofList (l := m.chars)]
    exact congrArg String.toList h
  have hwhole : n.whole = m.whole := by rw [← takeWhile_chars, hchars, takeWhile_chars]
  have hrest := n.dropWhile_chars
  rw [hchars, dropWhile_chars] at hrest
  have hfraction : n.fraction = m.fraction := by
    by_cases hn : n.fraction = [] <;> by_cases hm : m.fraction = [] <;> simp_all
  cases n
  cases m
  simp_all

/-- A numeral is read as the amount of its base units. -/
theorem ofDecimal?_text (n : Numeral) : Amount.ofDecimal? n.text = Amount.ofRaw? n.baseUnits := by
  rw [ofDecimal?_eq_ofDigits?, ofDigits?_eq]

/-- Only numerals are read. -/
theorem exists_of_ofDecimal? {text : String} {b : Amount} (h : Amount.ofDecimal? text = some b) :
    ∃ n : Numeral, n.text = text := by
  have hsplit : text.toList.takeWhile (· != '.') ++ text.toList.dropWhile (· != '.') =
      text.toList :=
    List.takeWhile_append_dropWhile
  unfold Amount.ofDecimal? at h
  cases hrest : text.toList.dropWhile (· != '.') with
  | nil =>
    simp only [hrest] at h
    rw [hrest, List.append_nil] at hsplit
    obtain ⟨n, hwhole, hfraction⟩ := exists_of_ofDigits? h
    refine ⟨n, ?_⟩
    rw [Numeral.text, chars, if_pos hfraction, hwhole, hsplit, String.ofList_toList]
  | cons point fraction =>
    have hpoint : point = '.' := by
      have hstop := List.head?_dropWhile_not (· != '.') text.toList
      rw [hrest] at hstop
      simpa using hstop
    simp only [hrest] at h
    rw [hrest, hpoint] at hsplit
    split at h
    · cases h
    · rename_i hnonempty
      obtain ⟨n, hwhole, rfl⟩ := exists_of_ofDigits? h
      refine ⟨n, ?_⟩
      rw [Numeral.text, chars, if_neg (mt List.isEmpty_iff.mpr hnonempty), hwhole, hsplit,
        String.ofList_toList]

end Numeral

/-! ### Writing -/

/-- The numeral of an amount. -/
def Amount.numeral (a : Amount) : Numeral where
  whole := Nat.toDigits 10 (a.raw / unit)
  fraction := trimmed (padded decimals (a.raw % unit))
  whole_ne_nil := Nat.toDigits_ne_nil
  whole_digits _ hc := Nat.isDigit_of_mem_toDigits (by decide) (by decide) hc
  fraction_digits c hc := isDigit_of_mem_padded ((List.rdropWhile_prefix _ _).subset hc)
  length_fraction_le := by
    have hle := (List.rdropWhile_prefix (· == '0') (padded decimals (a.raw % unit))).length_le
    rw [length_padded] at hle
    exact hle

namespace Amount

variable (a : Amount)

theorem whole_numeral : a.numeral.whole = Nat.toDigits 10 (a.raw / unit) := rfl

theorem fraction_numeral :
    a.numeral.fraction = trimmed (padded decimals (a.raw % unit)) := by
  rw [numeral]

/-- The fraction of the numeral, filled up, are the eighteen digits of the fraction. -/
theorem filled_numeral : a.numeral.filled = padded decimals (a.raw % unit) := by
  obtain ⟨n, hn⟩ := exists_eq_trimmed_append (padded decimals (a.raw % unit))
  have hlength := congrArg List.length hn
  rw [length_padded, List.length_append, List.length_replicate] at hlength
  have hcount : 18 - (trimmed (padded decimals (a.raw % unit))).length = n := by
    have : decimals = 18 := rfl
    omega
  rw [Numeral.filled, fraction_numeral, List.rightpad, hcount, ← hn]

/-- The numeral of an amount writes the amount. -/
theorem baseUnits_numeral : a.numeral.baseUnits = a.raw := by
  have hlt : a.raw % unit < 10 ^ decimals := Nat.mod_lt _ (by decide)
  have hscale : 10 ^ decimals = unit := rfl
  have hwhole : value (Nat.toDigits 10 (a.raw / unit)) = a.raw / unit :=
    Nat.ofDigitChars_ten_toDigits
  rw [← Numeral.value_append_filled, filled_numeral, value_append, length_padded,
    value_padded hlt, whole_numeral, hwhole, hscale, Nat.div_add_mod']

theorem canonical_numeral : a.numeral.Canonical where
  whole := by
    rw [whole_numeral]
    exact toDigits_eq_of_head?
  fraction := by
    rw [fraction_numeral]
    exact getLast?_trimmed_ne_zero

theorem fraction_numeral_eq_nil_iff : a.numeral.fraction = [] ↔ a.raw % unit = 0 := by
  constructor
  · intro hempty
    have hlt : a.raw % unit < 10 ^ decimals := Nat.mod_lt _ (by decide)
    have hvalue := a.numeral.value_filled
    rw [hempty, filled_numeral, value_padded hlt] at hvalue
    rw [hvalue]
    rfl
  · intro hzero
    rw [fraction_numeral, hzero]
    decide

/-- The text of an amount is the text of its numeral. -/
theorem text_numeral : a.numeral.text = a.text := by
  have hchars : a.numeral.chars = a.decimalChars := by
    rw [Numeral.chars, decimalChars, ← whole_numeral, ← fraction_numeral]
    simp only [fraction_numeral_eq_nil_iff]
  rw [Numeral.text, hchars, text]

end Amount

namespace Numeral

variable {n : Numeral} {b : Amount}

/-- The fraction is less than a token. -/
theorem value_filled_lt (n : Numeral) : value n.filled < Amount.unit := by
  have hlt := value_lt n.filled_digits
  rw [length_filled] at hlt
  exact hlt

theorem baseUnits_eq (n : Numeral) :
    n.baseUnits = value n.whole * Amount.unit + value n.filled := by
  rw [← value_append_filled, value_append, length_filled]
  rfl

/-- A numeral without superfluous digits is the one of the amount that it writes. -/
theorem Canonical.eq_numeral (h : n.Canonical) (hb : b.raw = n.baseUnits) : b.numeral = n := by
  have hlt := n.value_filled_lt
  have hquot : b.raw / Amount.unit = value n.whole := by
    rw [hb, baseUnits_eq, Nat.mul_comm, Nat.mul_add_div (by decide), Nat.div_eq_of_lt hlt,
      Nat.add_zero]
  have hrem : b.raw % Amount.unit = value n.filled := by
    rw [hb, baseUnits_eq, Nat.mul_comm, Nat.mul_add_mod, Nat.mod_eq_of_lt hlt]
  have hwhole : b.numeral.whole = n.whole := by
    rw [Amount.whole_numeral, hquot]
    exact toDigits_value n.whole_digits n.whole_ne_nil h.whole
  have hpadded : padded Amount.decimals (value n.filled) = n.filled := by
    have hback := padded_value n.filled_digits
    rw [length_filled] at hback
    exact hback
  have hfraction : b.numeral.fraction = n.fraction := by
    rw [Amount.fraction_numeral, hrem, hpadded, filled, List.rightpad, trimmed_append_zeros]
    exact trimmed_eq_self_iff.mpr h.fraction
  apply text_injective
  rw [text, text, chars, chars, hwhole, hfraction]

end Numeral

/-- **Decimal texts are exact.** A text is read exactly if it is a numeral whose number of base
units is in range, and it is read as that number. What is written for an amount is read as the
amount again, and what is written for the amount of a text is the text again exactly if no digit of
the text is superfluous. -/
theorem decimal_texts_exact :
    (∀ text, (∃ b, Amount.ofDecimal? text = some b) ↔
      ∃ n : Numeral, n.text = text ∧ n.baseUnits < 2 ^ 128) ∧
    (∀ (n : Numeral) b, Amount.ofDecimal? n.text = some b → b.raw = n.baseUnits) ∧
    (∀ n m : Numeral, n.text = m.text → n = m) ∧
    (∀ b : Amount, Amount.ofDecimal? b.text = some b) ∧
    ∀ (n : Numeral) b, Amount.ofDecimal? n.text = some b → (b.text = n.text ↔ n.Canonical) := by
  have hread (n : Numeral) (b : Amount) :
      Amount.ofDecimal? n.text = some b ↔ n.baseUnits = b.raw := by
    rw [n.ofDecimal?_text, Amount.ofRaw?_eq_some_iff]
  refine ⟨fun text ↦ ?_, fun n b hb ↦ ((hread n b).mp hb).symm, fun n m ↦ Numeral.text_injective,
    fun b ↦ ?_, fun n b hb ↦ ?_⟩
  · constructor
    · rintro ⟨b, hb⟩
      obtain ⟨n, rfl⟩ := Numeral.exists_of_ofDecimal? hb
      rw [hread] at hb
      exact ⟨n, rfl, hb ▸ b.raw_lt⟩
    · rintro ⟨n, rfl, hlt⟩
      exact ⟨⟨n.baseUnits, hlt⟩, (hread n _).mpr rfl⟩
  · rw [← b.text_numeral, hread, b.baseUnits_numeral]
  · rw [hread] at hb
    rw [← b.text_numeral]
    constructor
    · intro hback
      rw [← Numeral.text_injective hback]
      exact b.canonical_numeral
    · intro hcanonical
      rw [hcanonical.eq_numeral hb.symm]

end SettlementLedger
