/-!
# Plain data

The values that data formats can express: the common ground of the documents that are read and
written.
-/

set_option autoImplicit false
set_option relaxedAutoImplicit false

namespace SettlementLedger

/-- A value of a data format. -/
inductive Datum where
  | null
  | bool (value : Bool)
  | integer (value : Int)
  /-- A number that is not written as an integer: a mantissa and a number of decimal places. -/
  | decimal (mantissa : Int) (places : Nat)
  | text (value : String)
  | list (items : List Datum)
  | table (entries : List (String × Datum))

namespace Datum

instance : Inhabited Datum := ⟨null⟩

/-- The natural number below a bound that an integer is. -/
def below? (bound : Nat) : Datum → Option Nat
  | .integer (.ofNat n) => if n < bound then some n else none
  | _ => none

/-- A natural number. -/
def number (n : Nat) : Datum := .integer n

/-- The plain form of a value, or null without one. -/
def optional {α : Type} (form : α → Datum) : Option α → Datum
  | some value => form value
  | none => .null

/-- The plain forms of the items of a list. -/
def listOf {α : Type} (form : α → Datum) (items : List α) : Datum :=
  .list (items.map form)

/-- The value under a key of a table. -/
def field? (entries : List (String × Datum)) (key : String) : Option Datum :=
  (entries.find? fun entry ↦ entry.1 == key).map Prod.snd

end Datum

end SettlementLedger
