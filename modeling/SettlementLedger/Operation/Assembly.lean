import SettlementLedger.Operation.Message
import SettlementLedger.Operation.Wire

/-!
# Assembling operations

A requester signs an operation of its own, a validator may complete it with a cosignature, and the
result is lowered to its wire form.
-/

set_option autoImplicit false
set_option relaxedAutoImplicit false

namespace SettlementLedger

/-- Why an operation cannot be assembled. -/
inductive AssemblyError where
  /-- The body is of another family than the kind's. -/
  | bodyMismatch (kind : Kind)
  /-- Operations of the kind carry no cosignature. -/
  | notCosignable (kind : Kind)
  deriving DecidableEq, Repr

namespace AssemblyError

/-- The stable name of the cause. -/
def code : AssemblyError → String
  | .bodyMismatch _ => "body_mismatch"
  | .notCosignable _ => "not_cosignable"

/-- The cause in words. -/
def message : AssemblyError → String
  | .bodyMismatch kind => kind.name ++ " expects a " ++ kind.family.name ++ " body"
  | .notCosignable kind => kind.name ++ " cannot be cosigned"

end AssemblyError

namespace Operation

variable (suite : Suite)

/-- The operation of a kind that a requester signs. -/
def sign (kind : Kind) (body : Body) (txValidity : Hash) (nonce : Nonce) (requester : Seed) :
    Except AssemblyError Operation :=
  if body.family = kind.family then
    let address : Address := ⟨suite.publicKey requester⟩
    let tx := Message.requesterHash suite kind address txValidity body nonce
    .ok {
      kind, txValidity, nonce, body, tx
      requester := address
      signature := suite.sign requester tx.bytes
      cosignature := none }
  else .error (.bodyMismatch kind)

/-- The operation completed by a validator; an earlier cosignature is replaced. -/
def cosign (op : Operation) (validator : Seed) (nonce : Nonce) : Except AssemblyError Operation :=
  if op.kind.requiresCosignature then
    let address : Address := ⟨suite.publicKey validator⟩
    let digest := Message.validatorHash suite op.tx address nonce
    .ok { op with
      cosignature := some {
        validator := address, nonce, signature := suite.sign validator digest.bytes } }
  else .error (.notCosignable op.kind)

/-- The fields of an operation and their bytes. -/
def fieldBytes (op : Operation) : List (Field × Bytes) :=
  [(.tx, op.tx.bytes), (.txValidity, op.txValidity.bytes), (.nonce, op.nonce.bytes),
      (.signature, op.signature.bytes)] ++ op.body.fieldBytes ++
    match op.cosignature with
    | none => []
    | some cosignature =>
      [(.validatorAddress, cosignature.validator.bytes),
        (.validatorNonce, cosignature.nonce.bytes),
        (.validatorSignature, cosignature.signature.bytes)]

/-- The raw operation that an operation is lowered to. -/
def toRaw (op : Operation) : RawOperation where
  kind := op.kind.number
  address := some op.requester.bytes
  family := op.kind.family
  fields := .ofList op.fieldBytes

/-- The wire form of an operation. -/
def encode (op : Operation) : Except EncodeError Bytes :=
  op.toRaw.encode

end Operation

end SettlementLedger
