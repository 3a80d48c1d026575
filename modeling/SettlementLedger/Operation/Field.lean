import SettlementLedger.Bytes

/-!
# Payload fields

The fifteen fields that payloads are made of. Four tables list them: the canonical order
(`Field.all`), the order of the values in a record of `Fields`, which is the order on the wire
(`Fields.options`), the place that is read for a field (`Fields.slot`) and the place that is written
for it (`Fields.withSlot`). A value is read from the place where it was written
(`Fields.slot_withSlot`), and the places follow each other in canonical order
(`Fields.options_eq_map`).
-/

set_option autoImplicit false
set_option relaxedAutoImplicit false

namespace SettlementLedger

/-- A field of a payload. -/
inductive Field where
  /-- The hash of the operation. -/
  | tx
  /-- The membership-sequence digest the operation was built against. -/
  | txValidity
  | writingKey
  | target
  | nonce
  | signature
  | amount
  | recipient
  | contentHash
  | externalBootstrap
  | ledgerBootstrap
  | channel
  | validatorAddress
  | validatorNonce
  | validatorSignature
  deriving DecidableEq, Repr

namespace Field

/-- Every field, in canonical order. -/
def all : List Field :=
  [tx, txValidity, writingKey, target, nonce, signature, amount, recipient, contentHash,
    externalBootstrap, ledgerBootstrap, channel, validatorAddress, validatorNonce,
    validatorSignature]

theorem nodup_all : all.Nodup := by decide

theorem mem_all (field : Field) : field ∈ all := by
  cases field <;> decide

/-- The exact number of bytes of a field. -/
def width : Field → Nat
  | target | recipient | validatorAddress => 69
  | signature | validatorSignature => 64
  | amount => 16
  | _ => 32

/-- The short name of a field. -/
def name : Field → String
  | tx => "tx"
  | txValidity => "txv"
  | writingKey => "iw"
  | target => "ia"
  | nonce => "in"
  | signature => "is"
  | amount => "am"
  | recipient => "to"
  | contentHash => "ch"
  | externalBootstrap => "bs"
  | ledgerBootstrap => "mbs"
  | channel => "ic"
  | validatorAddress => "va"
  | validatorNonce => "vn"
  | validatorSignature => "vs"

/-- The field with a short name. -/
def ofName? (name : String) : Option Field :=
  all.find? (·.name == name)

/-- The three fields of a validator's cosignature. -/
def cosignature : List Field :=
  [validatorAddress, validatorNonce, validatorSignature]

end Field

/-- The bytes of each field that is present. -/
structure Fields where
  tx : Option Bytes := none
  txValidity : Option Bytes := none
  writingKey : Option Bytes := none
  target : Option Bytes := none
  nonce : Option Bytes := none
  signature : Option Bytes := none
  amount : Option Bytes := none
  recipient : Option Bytes := none
  contentHash : Option Bytes := none
  externalBootstrap : Option Bytes := none
  ledgerBootstrap : Option Bytes := none
  channel : Option Bytes := none
  validatorAddress : Option Bytes := none
  validatorNonce : Option Bytes := none
  validatorSignature : Option Bytes := none

namespace Fields

/-- No field is present. -/
def empty : Fields := {}

/-! ### Places -/

/-- What is in the place of a field. -/
def slot (fields : Fields) : Field → Option Bytes
  | .tx => fields.tx
  | .txValidity => fields.txValidity
  | .writingKey => fields.writingKey
  | .target => fields.target
  | .nonce => fields.nonce
  | .signature => fields.signature
  | .amount => fields.amount
  | .recipient => fields.recipient
  | .contentHash => fields.contentHash
  | .externalBootstrap => fields.externalBootstrap
  | .ledgerBootstrap => fields.ledgerBootstrap
  | .channel => fields.channel
  | .validatorAddress => fields.validatorAddress
  | .validatorNonce => fields.validatorNonce
  | .validatorSignature => fields.validatorSignature

/-- The fields with something else in the place of one of them. -/
def withSlot (fields : Fields) (field : Field) (value : Option Bytes) : Fields :=
  match field with
  | .tx => { fields with tx := value }
  | .txValidity => { fields with txValidity := value }
  | .writingKey => { fields with writingKey := value }
  | .target => { fields with target := value }
  | .nonce => { fields with nonce := value }
  | .signature => { fields with signature := value }
  | .amount => { fields with amount := value }
  | .recipient => { fields with recipient := value }
  | .contentHash => { fields with contentHash := value }
  | .externalBootstrap => { fields with externalBootstrap := value }
  | .ledgerBootstrap => { fields with ledgerBootstrap := value }
  | .channel => { fields with channel := value }
  | .validatorAddress => { fields with validatorAddress := value }
  | .validatorNonce => { fields with validatorNonce := value }
  | .validatorSignature => { fields with validatorSignature := value }

/-- What is in the fifteen places, in the order of the record. -/
def options (fields : Fields) : List (Option Bytes) :=
  [fields.tx, fields.txValidity, fields.writingKey, fields.target, fields.nonce, fields.signature,
    fields.amount, fields.recipient, fields.contentHash, fields.externalBootstrap,
    fields.ledgerBootstrap, fields.channel, fields.validatorAddress, fields.validatorNonce,
    fields.validatorSignature]

/-! ### Access by field -/

/-- The bytes of a field, if it is present. -/
def get (fields : Fields) (field : Field) : Option Bytes := fields.slot field

/-- The fields with the bytes of one field set. -/
def set (fields : Fields) (field : Field) (bytes : Bytes) : Fields :=
  fields.withSlot field (some bytes)

/-- The fields without one field. -/
def clear (fields : Fields) (field : Field) : Fields := fields.withSlot field none

/-- Whether a field is present. -/
def has (fields : Fields) (field : Field) : Bool :=
  (fields.get field).isSome

/-- The fields that are present, in canonical order. -/
def present (fields : Fields) : List Field :=
  Field.all.filter fields.has

/-- The fields of a list of values, later values replacing earlier ones. -/
def ofList (values : List (Field × Bytes)) : Fields :=
  values.foldl (fun fields value ↦ fields.set value.1 value.2) empty

/-! ### What a field holds -/

/-- The place that is written for a field is the one that is read for it, and for no other. -/
theorem slot_withSlot (fields : Fields) (field : Field) (value : Option Bytes) (f : Field) :
    (fields.withSlot field value).slot f = if f = field then value else fields.slot f := by
  cases field <;> cases f <;> rfl

/-- The places of the record are in canonical order. -/
theorem options_eq_map (fields : Fields) : fields.options = Field.all.map fields.get := rfl

theorem options_injective : Function.Injective options := by
  rintro ⟨⟩ ⟨⟩ h
  simpa [options] using h

@[ext] theorem ext_get {first second : Fields} (h : ∀ field, first.get field = second.get field) :
    first = second := by
  apply options_injective
  rw [options_eq_map, options_eq_map, funext h]

@[simp] theorem get_empty (field : Field) : empty.get field = none := by
  cases field <;> rfl

theorem get_set (fields : Fields) (field : Field) (bytes : Bytes) (f : Field) :
    (fields.set field bytes).get f = if f = field then some bytes else fields.get f :=
  slot_withSlot fields field (some bytes) f

theorem get_clear (fields : Fields) (field f : Field) :
    (fields.clear field).get f = if f = field then none else fields.get f :=
  slot_withSlot fields field none f

theorem mem_present_iff {fields : Fields} {field : Field} :
    field ∈ fields.present ↔ (fields.get field).isSome := by
  simp [present, has, field.mem_all]

end Fields

end SettlementLedger
