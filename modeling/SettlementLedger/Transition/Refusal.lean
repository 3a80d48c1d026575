import SettlementLedger.Operation.Schema
import SettlementLedger.View

/-!
# Refusals

Every failure concerns one operation and stops nothing else. A rejection says why an operation that
fits the schema is refused on its merits; a refusal says in addition where a delivery can fail
before and beside that: its bytes, its schema, a replay, or a view that cannot be read.

Rules are chains of `require`, `demand` and reads in `Except Refusal`; `bind_eq_ok` takes such a
chain apart.
-/

set_option autoImplicit false
set_option relaxedAutoImplicit false

namespace SettlementLedger

/-- Why an operation is refused on its merits. -/
inductive Rejection where
  | invalidRequesterKey
  | hashMismatch
  | invalidSignature
  | staleTxValidity
  | bodyMismatch
  | missingCosignature
  | invalidValidatorKey
  | invalidValidatorSignature
  | validatorNotWriter
  | validatorKeyMismatch
  | validatorIsRequester
  | adminExists
  | noAdmin
  | notAdmin
  | notBootstrapWriter
  | initializationDisabled
  | writingKeyMismatch
  | writerKeyInUse
  | alreadyWhitelisted
  | notWhitelisted
  | alreadyWriter
  | notWriter
  | alreadyIndexer
  | notIndexer
  | targetIsIndexer
  | targetIsAdmin
  | membershipConflict
  | lastIndexer
  | adminKeyNotMember
  | insufficientBalance
  | arithmeticOverflow
  | licensesExhausted
  | writerRegistryExhausted
  | bootstrapMismatch
  | reservedBootstrap
  | deploymentExists
  | unknownDeployment
  deriving DecidableEq, Repr

namespace Rejection

/-- The stable name of the reason. -/
def code : Rejection → String
  | invalidRequesterKey => "invalid_requester_key"
  | hashMismatch => "hash_mismatch"
  | invalidSignature => "invalid_signature"
  | staleTxValidity => "stale_tx_validity"
  | bodyMismatch => "body_mismatch"
  | missingCosignature => "missing_cosignature"
  | invalidValidatorKey => "invalid_validator_key"
  | invalidValidatorSignature => "invalid_validator_signature"
  | validatorNotWriter => "validator_not_writer"
  | validatorKeyMismatch => "validator_key_mismatch"
  | validatorIsRequester => "validator_is_requester"
  | adminExists => "admin_exists"
  | noAdmin => "no_admin"
  | notAdmin => "not_admin"
  | notBootstrapWriter => "not_bootstrap_writer"
  | initializationDisabled => "initialization_disabled"
  | writingKeyMismatch => "writing_key_mismatch"
  | writerKeyInUse => "writer_key_in_use"
  | alreadyWhitelisted => "already_whitelisted"
  | notWhitelisted => "not_whitelisted"
  | alreadyWriter => "already_writer"
  | notWriter => "not_writer"
  | alreadyIndexer => "already_indexer"
  | notIndexer => "not_indexer"
  | targetIsIndexer => "target_is_indexer"
  | targetIsAdmin => "target_is_admin"
  | membershipConflict => "membership_conflict"
  | lastIndexer => "last_indexer"
  | adminKeyNotMember => "admin_key_not_member"
  | insufficientBalance => "insufficient_balance"
  | arithmeticOverflow => "arithmetic_overflow"
  | licensesExhausted => "licenses_exhausted"
  | writerRegistryExhausted => "writer_registry_exhausted"
  | bootstrapMismatch => "bootstrap_mismatch"
  | reservedBootstrap => "reserved_bootstrap"
  | deploymentExists => "deployment_exists"
  | unknownDeployment => "unknown_deployment"

/-- The reason in words. -/
def message : Rejection → String
  | invalidRequesterKey => "requester address is not a valid public key"
  | hashMismatch => "operation hash does not match its contents"
  | invalidSignature => "requester signature is invalid"
  | staleTxValidity => "operation was built against a stale membership sequence"
  | bodyMismatch => "operation body does not match its kind"
  | missingCosignature => "operation is missing its validator cosignature"
  | invalidValidatorKey => "validator address is not a valid public key"
  | invalidValidatorSignature => "validator signature is invalid"
  | validatorNotWriter => "validator is not a writer"
  | validatorKeyMismatch => "validator does not own the appending writer key"
  | validatorIsRequester => "validator must differ from the requester"
  | adminExists => "admin already exists"
  | noAdmin => "admin does not exist"
  | notAdmin => "only the admin may request this operation"
  | notBootstrapWriter => "operation must come from the bootstrap writer"
  | initializationDisabled => "initialization is disabled"
  | writingKeyMismatch => "writing key does not match the registered key"
  | writerKeyInUse => "writing key belongs to another participant"
  | alreadyWhitelisted => "participant is already whitelisted"
  | notWhitelisted => "participant is not whitelisted"
  | alreadyWriter => "participant is already a writer"
  | notWriter => "participant is not a writer"
  | alreadyIndexer => "participant is already an indexer"
  | notIndexer => "participant is not an indexer"
  | targetIsIndexer => "target is an indexer"
  | targetIsAdmin => "target is the admin"
  | membershipConflict => "writing key is already in the membership set"
  | lastIndexer => "cannot remove the last indexer"
  | adminKeyNotMember => "admin writing key is not an indexer"
  | insufficientBalance => "insufficient balance"
  | arithmeticOverflow => "balance arithmetic overflow"
  | licensesExhausted => "license ids exhausted"
  | writerRegistryExhausted => "writer registry exhausted"
  | bootstrapMismatch => "operation targets a different ledger"
  | reservedBootstrap => "cannot deploy the ledger's own bootstrap"
  | deploymentExists => "bootstrap already deployed"
  | unknownDeployment => "bootstrap is not deployed"

end Rejection

/-- Why a delivered operation is skipped. -/
inductive Refusal where
  /-- The bytes are not an operation. -/
  | undecodable (error : WireError)
  /-- The operation does not fit the schema. -/
  | malformed (error : SchemaError)
  /-- The operation is refused on its merits. -/
  | rejected (reason : Rejection)
  /-- An operation with this hash was applied before. -/
  | replayed (tx : Hash)
  /-- The view could not be read. -/
  | unreadable (error : ViewError)
  deriving DecidableEq

namespace Refusal

/-- The stable name of the cause. -/
def code : Refusal → String
  | .undecodable error => error.code
  | .malformed error => error.code
  | .rejected reason => reason.code
  | .replayed _ => "replay"
  | .unreadable error => error.code

/-- The cause in words. -/
def message : Refusal → String
  | .undecodable error => error.message
  | .malformed error => error.message
  | .rejected reason => "rejected: " ++ reason.message
  | .replayed tx => "operation " ++ tx.hex ++ " already applied"
  | .unreadable error => error.message

/-- The reason, where the operation is refused on its merits. -/
def rejection? : Refusal → Option Rejection
  | .rejected reason => some reason
  | _ => none

end Refusal

/-! ### Chains of checks -/

/-- Goes on only if a condition holds. -/
def require (condition : Prop) [Decidable condition] (reason : Rejection) : Except Refusal Unit :=
  if condition then .ok () else .error (.rejected reason)

/-- Goes on with a value that must be there. -/
def demand {α : Type} (value? : Option α) (reason : Rejection) : Except Refusal α :=
  match value? with
  | some value => .ok value
  | none => .error (.rejected reason)

/-- Goes on with what a view answers. -/
def answered {α : Type} (answer : Except ViewError α) : Except Refusal α :=
  answer.mapError .unreadable

theorem bind_eq_ok {ε α β : Type} {x : Except ε α} {f : α → Except ε β} {b : β} :
    x >>= f = .ok b ↔ ∃ a, x = .ok a ∧ f a = .ok b := by
  cases x <;> simp [bind, Except.bind]

theorem pure_eq_ok {ε α : Type} {a b : α} : (pure a : Except ε α) = .ok b ↔ a = b := by
  simp [pure, Except.pure]

theorem mapError_eq_ok {ε ε' α : Type} {x : Except ε α} {f : ε → ε'} {a : α} :
    x.mapError f = .ok a ↔ x = .ok a := by
  cases x with
  | error cause => exact ⟨fun h ↦ (nomatch h), fun h ↦ (nomatch h)⟩
  | ok value =>
    show Except.ok value = Except.ok a ↔ Except.ok value = Except.ok a
    rw [Except.ok.injEq, Except.ok.injEq]

@[simp] theorem require_eq_ok {condition : Prop} [Decidable condition] {reason : Rejection}
    {u : Unit} : require condition reason = .ok u ↔ condition := by
  unfold require
  split <;> simp_all

@[simp] theorem demand_eq_ok {α : Type} {value? : Option α} {reason : Rejection} {value : α} :
    demand value? reason = .ok value ↔ value? = some value := by
  cases value? <;> simp [demand]

@[simp] theorem answered_eq_ok {α : Type} {answer : Except ViewError α} {value : α} :
    answered answer = .ok value ↔ answer = .ok value :=
  mapError_eq_ok

end SettlementLedger
