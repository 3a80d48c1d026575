import SettlementLedger.Operation
import SettlementLedger.Operation.Wire

/-!
# The schema of operations

`RawOperation.validate` is the only way from a raw operation to an operation. It checks, in this
order, the kind, the family, the requester address, that no foreign field is present, that the
cosignature is whole or absent, that no required field is missing, and the width of every field;
then it reads the content. The first check that fails gives the error.
-/

set_option autoImplicit false
set_option relaxedAutoImplicit false

namespace SettlementLedger

/-- Why a raw operation does not fit the schema. -/
inductive SchemaError where
  /-- No kind has the number. -/
  | unknownKind (number : UInt32)
  /-- The payload is of another family than the kind's. -/
  | familyMismatch (kind : Kind) (family : Family)
  /-- There is no requester address. -/
  | missingAddress
  /-- The requester address, or the address in a field, is malformed. -/
  | invalidAddress (field : Option Field) (cause : AddressError)
  /-- A field is present that the family does not have. -/
  | unknownField (family : Family) (field : Field)
  /-- A field that the family must have is absent. -/
  | missingField (field : Field)
  /-- A field has the wrong number of bytes. -/
  | fieldWidth (field : Field) (actual : Nat)
  /-- Some fields of the cosignature are present, and not all of them. -/
  | partialCosignature
  deriving DecidableEq, Repr

namespace SchemaError

/-- The stable name of the cause. -/
def code : SchemaError → String
  | .unknownKind _ => "schema_unknown_kind"
  | .familyMismatch .. => "schema_family_mismatch"
  | .missingAddress => "schema_missing_address"
  | .invalidAddress .. => "schema_invalid_address"
  | .unknownField .. => "schema_unknown_field"
  | .missingField _ => "schema_missing_field"
  | .fieldWidth .. => "schema_field_length"
  | .partialCosignature => "schema_partial_cosignature"

/-- The cause in words. -/
def message : SchemaError → String
  | .unknownKind number => "unknown operation type " ++ toString number.toNat
  | .familyMismatch kind family =>
    kind.name ++ " cannot carry a " ++ family.name ++ " payload"
  | .missingAddress => "missing requester address"
  | .invalidAddress field cause =>
    "invalid address in `" ++ (field.map Field.name).getD "address" ++ "`: " ++ cause.message
  | .unknownField family field =>
    "unexpected field `" ++ field.name ++ "` in " ++ family.name ++ " payload"
  | .missingField field => "missing field `" ++ field.name ++ "`"
  | .fieldWidth field actual =>
    "field `" ++ field.name ++ "` must be " ++ toString field.width ++ " bytes, got " ++
      toString actual
  | .partialCosignature => "validator cosignature must be complete or absent"

end SchemaError

/-! ### Reading fields -/

namespace Fields

/-- The bytes of a field that must be present. -/
def require (fields : Fields) (field : Field) : Except SchemaError Bytes :=
  match fields.get field with
  | some bytes => .ok bytes
  | none => .error (.missingField field)

/-- The identifier in a field. -/
def identifier {role : IdentifierRole} (fields : Fields) (field : Field) :
    Except SchemaError (Identifier role) := do
  let bytes ← fields.require field
  match Identifier.ofBytes? bytes with
  | some x => return x
  | none => .error (.fieldWidth field bytes.length)

/-- The amount in a field. -/
def amountAt (fields : Fields) (field : Field) : Except SchemaError Amount := do
  let bytes ← fields.require field
  match Amount.ofBytes? bytes with
  | some amount => return amount
  | none => .error (.fieldWidth field bytes.length)

/-- The address in a field. -/
def address (fields : Fields) (field : Field) : Except SchemaError Address := do
  let bytes ← fields.require field
  (Address.parse bytes).mapError (.invalidAddress (some field))

/-- The body that the fields of a family hold. -/
def body (fields : Fields) : Family → Except SchemaError Body
  | .coreAdmin => return .coreAdmin (← fields.identifier .writingKey)
  | .adminControl => return .adminControl (← fields.address .target)
  | .roleAccess => return .roleAccess (← fields.identifier .writingKey)
  | .balanceInitialization =>
    return .balanceInitialization (← fields.address .target) (← fields.amountAt .amount)
  | .transfer => return .transfer (← fields.address .recipient) (← fields.amountAt .amount)
  | .transaction =>
    return .transaction (← fields.identifier .writingKey) (← fields.identifier .contentHash)
      (← fields.identifier .externalBootstrap) (← fields.identifier .ledgerBootstrap)
  | .bootstrapDeployment =>
    return .bootstrapDeployment (← fields.identifier .externalBootstrap)
      (← fields.identifier .channel)

/-- The cosignature, if its fields are present. -/
def cosignature (fields : Fields) : Except SchemaError (Option Cosignature) :=
  if Field.cosignature.any fields.has then
    return some {
      validator := ← fields.address .validatorAddress
      nonce := ← fields.identifier .validatorNonce
      signature := ← fields.identifier .validatorSignature }
  else return none

/-! ### The checks -/

/-- No field is present that the family does not have. -/
def checkKnown (fields : Fields) (family : Family) : Except SchemaError Unit :=
  match fields.present.find? fun field ↦ !family.allows field with
  | some field => .error (.unknownField family field)
  | none => .ok ()

/-- The cosignature is whole or absent. -/
def checkCosignature (fields : Fields) : Except SchemaError Unit :=
  if Field.cosignature.any fields.has && !Field.cosignature.all fields.has then
    .error .partialCosignature
  else .ok ()

/-- Every field that the family must have is present. -/
def checkRequired (fields : Fields) (family : Family) : Except SchemaError Unit :=
  match family.required.find? fun field ↦ !fields.has field with
  | some field => .error (.missingField field)
  | none => .ok ()

/-- Every field that is present has its width. -/
def checkWidths (fields : Fields) : Except SchemaError Unit :=
  match fields.present.find? fun field ↦ ((fields.get field).getD []).length != field.width with
  | some field => .error (.fieldWidth field ((fields.get field).getD []).length)
  | none => .ok ()

end Fields

namespace RawOperation

/-- The kind of the operation. -/
def checkedKind (raw : RawOperation) : Except SchemaError Kind :=
  match Kind.ofNumber? raw.kind with
  | none => .error (.unknownKind raw.kind)
  | some kind =>
    if raw.family = kind.family then .ok kind else .error (.familyMismatch kind raw.family)

/-- The requester of the operation. -/
def checkedRequester (raw : RawOperation) : Except SchemaError Address :=
  match raw.address with
  | none => .error .missingAddress
  | some bytes => (Address.parse bytes).mapError (.invalidAddress none)

/-- Reads the operation that a raw operation stands for. -/
def validate (raw : RawOperation) : Except SchemaError Operation := do
  let kind ← raw.checkedKind
  let requester ← raw.checkedRequester
  let fields := raw.fields
  fields.checkKnown kind.family
  fields.checkCosignature
  fields.checkRequired kind.family
  fields.checkWidths
  let body ← fields.body kind.family
  let cosignature ← fields.cosignature
  let tx ← fields.identifier .tx
  let txValidity ← fields.identifier .txValidity
  let nonce ← fields.identifier .nonce
  let signature ← fields.identifier .signature
  return { kind, requester, tx, txValidity, nonce, signature, body, cosignature }

/-- Whether a raw operation fits the schema. -/
def isValid (raw : RawOperation) : Bool :=
  raw.validate.toBool

end RawOperation

end SettlementLedger
