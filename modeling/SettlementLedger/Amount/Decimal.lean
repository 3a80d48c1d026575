import SettlementLedger.Amount

/-!
# Decimal text of amounts

An amount is read from one or more digits, which may be followed by a point and one to eighteen
digits. The digits on either side of the point are read as a number of their own, digit by digit,
then both numbers are scaled to base units and added, and nothing on the way may leave the range of
amounts. An amount is written with no leading zeros, with no zeros at the end of the fraction, and
without a point when the fraction is zero.
-/

set_option autoImplicit false
set_option relaxedAutoImplicit false

namespace SettlementLedger

/-- Why a text is not an amount. -/
inductive AmountError where
  /-- The text is not a decimal number of the accepted form and range. -/
  | invalid
  deriving DecidableEq, Repr

namespace AmountError

/-- The stable name of the cause. -/
def code : AmountError → String
  | .invalid => "invalid_amount"

/-- The cause in words. -/
def message : AmountError → String
  | .invalid => "invalid token amount"

end AmountError

namespace Decimal

/-- Whether a character is one of the ten ASCII digits. -/
def isDigit (c : Char) : Bool :=
  '0' ≤ c && c ≤ '9'

/-- The value of a digit. -/
def digit? (c : Char) : Option Amount :=
  if isDigit c then Amount.ofRaw? (c.toNat - '0'.toNat) else none

/-- The number ten. -/
def ten : Amount := ⟨10, by decide⟩

/-- A number that is read with the next of its digits. -/
def shift? (n : Amount) (c : Char) : Option Amount := do
  let tens ← n.mul? ten
  let ones ← digit? c
  tens.add? ones

/-- Reads a whole number, most significant digit first. -/
def number? (digits : List Char) : Option Amount :=
  digits.foldlM shift? .zero

/-- The lowest `width` decimal digits of a number, most significant first. -/
def padded (width n : Nat) : List Char :=
  match width with
  | 0 => []
  | width + 1 => padded width (n / 10) ++ [Nat.digitChar (n % 10)]

/-- Digits without the zeros at their end. -/
def trimmed (digits : List Char) : List Char :=
  (digits.reverse.dropWhile (· == '0')).reverse

end Decimal

namespace Amount

open Decimal

/-- One token. -/
def one : Amount := ⟨unit, by decide⟩

/-- The base units that the last of some decimal places counts. -/
def scale (places : Nat) : Amount :=
  ⟨Nat.pow 10 (decimals - places),
    Nat.lt_of_le_of_lt (Nat.pow_le_pow_right (by decide) (Nat.sub_le decimals places)) (by decide)⟩

/-- Reads the digits after the point. -/
def ofFraction? (fraction : List Char) : Option Amount :=
  if fraction.isEmpty then some zero else do
    let places ← number? fraction
    places.mul? (scale fraction.length)

/-- Reads the digits before and after the point. -/
def ofDigits? (whole fraction : List Char) : Option Amount :=
  if whole.isEmpty || decide (decimals < fraction.length) then none
  else if !whole.all isDigit || !fraction.all isDigit then none
  else do
    let tokens ← number? whole
    let rest ← ofFraction? fraction
    let units ← tokens.mul? one
    units.add? rest

/-- Reads a decimal number of tokens. -/
def ofDecimal? (text : String) : Option Amount :=
  let whole := text.toList.takeWhile (· != '.')
  match text.toList.dropWhile (· != '.') with
  | [] => ofDigits? whole []
  | _ :: fraction => if fraction.isEmpty then none else ofDigits? whole fraction

/-- Reads a decimal number of tokens, or says that it is none. -/
def parse (text : String) : Except AmountError Amount :=
  match ofDecimal? text with
  | some amount => .ok amount
  | none => .error .invalid

/-- The decimal digits of an amount. -/
def decimalChars (a : Amount) : List Char :=
  let whole := Nat.toDigits 10 (a.raw / unit)
  if a.raw % unit = 0 then whole else whole ++ '.' :: trimmed (padded decimals (a.raw % unit))

/-- The decimal text of an amount. -/
def text (a : Amount) : String :=
  String.ofList a.decimalChars

end Amount

end SettlementLedger
