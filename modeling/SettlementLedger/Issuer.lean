import SettlementLedger.NonceSource
import SettlementLedger.Operation.Assembly
import SettlementLedger.Participant
import SettlementLedger.Transition.Delivery

/-!
# Issuing operations

A `Request` says what a participant wants of the ledger. An issuer turns requests into deliveries
the way participants do: the requester signs, a validator cosigns where there is one, and the
operation is appended to the validator's log, or to the requester's if there is no validator. Every
signature takes a fresh nonce, the requester's before the validator's.
-/

set_option autoImplicit false
set_option relaxedAutoImplicit false

namespace SettlementLedger

/-- What a participant wants of the ledger. -/
inductive Request where
  /-- To become the administrator. -/
  | addAdmin
  /-- To close the initialization phase. -/
  | disableInitialization
  /-- To credit an address during initialization. -/
  | balanceInitialization (target : Address) (amount : Amount)
  | appendWhitelist (target : Address)
  | banValidator (target : Address)
  | addIndexer (target : Address)
  | removeIndexer (target : Address)
  /-- To become a writer under its own writing key. -/
  | addWriter
  /-- To stop being a writer. -/
  | removeWriter
  /-- To move the administrator to a writing key. -/
  | adminRecovery (writingKey : WritingKey)
  | transfer (recipient : Address) (amount : Amount)
  /-- To register an external bootstrap key; its channel is the hash of the key. -/
  | bootstrapDeployment (bootstrap : WritingKey)
  /-- To settle content of a subnetwork. -/
  | transaction (externalBootstrap ledgerBootstrap : WritingKey) (content : Bytes)

namespace Request

/-- The kind of the operation that a request asks for. -/
def kind : Request → Kind
  | addAdmin => .addAdmin
  | disableInitialization => .disableInitialization
  | balanceInitialization .. => .balanceInitialization
  | appendWhitelist _ => .appendWhitelist
  | banValidator _ => .banValidator
  | addIndexer _ => .addIndexer
  | removeIndexer _ => .removeIndexer
  | addWriter => .addWriter
  | removeWriter => .removeWriter
  | adminRecovery _ => .adminRecovery
  | transfer .. => .transfer
  | bootstrapDeployment _ => .bootstrapDeployment
  | transaction .. => .transaction

/-- The body of the operation, given the writing key of the requester. -/
def body (suite : Suite) (writingKey : WritingKey) : Request → Body
  | addAdmin | disableInitialization => .coreAdmin writingKey
  | balanceInitialization target amount => .balanceInitialization target amount
  | appendWhitelist target | banValidator target | addIndexer target | removeIndexer target =>
    .adminControl target
  | addWriter | removeWriter => .roleAccess writingKey
  | adminRecovery newKey => .roleAccess newKey
  | transfer recipient amount => .transfer recipient amount
  | bootstrapDeployment bootstrap => .bootstrapDeployment bootstrap (suite.hash bootstrap.bytes)
  | transaction externalBootstrap ledgerBootstrap content =>
    .transaction writingKey (suite.hash content) externalBootstrap ledgerBootstrap

theorem family_body (suite : Suite) (writingKey : WritingKey) (request : Request) :
    (request.body suite writingKey).family = request.kind.family := by
  cases request <;> rfl

end Request

/-- Why a request cannot be issued. -/
inductive IssueError where
  | assembly (error : AssemblyError)
  | encoding (error : EncodeError)
  deriving DecidableEq, Repr

/-- A source of nonces and the membership digest that operations are built against. -/
structure Issuer where
  suite : Suite
  nonces : NonceSource
  txValidity : Hash

namespace Issuer

/-- The next nonce, and the issuer after it. -/
def nextNonce (issuer : Issuer) : Nonce × Issuer :=
  let (nonce, nonces) := issuer.nonces.next
  (nonce, { issuer with nonces })

/-- The operation of a request, signed by the requester. -/
def signed (issuer : Issuer) (request : Request) (requester : Participant) :
    Except AssemblyError (Operation × Issuer) := do
  let (nonce, issuer) := issuer.nextNonce
  let body := request.body issuer.suite requester.writingKey
  let op ← Operation.sign issuer.suite request.kind body issuer.txValidity nonce requester.seed
  return (op, issuer)

/-- The operation of a request, signed by the requester and cosigned by a validator. -/
def cosigned (issuer : Issuer) (request : Request) (requester validator : Participant) :
    Except AssemblyError (Operation × Issuer) := do
  let (op, issuer) ← issuer.signed request requester
  let (nonce, issuer) := issuer.nextNonce
  let op ← op.cosign issuer.suite validator.seed nonce
  return (op, issuer)

/-- The delivery of a request on the log of its validator, or of its requester if it has none. -/
def issue (issuer : Issuer) (request : Request) (requester : Participant)
    (validator? : Option Participant) : Except IssueError (Delivery × Issuer) := do
  let (op, issuer) ← (match validator? with
    | some validator => issuer.cosigned request requester validator
    | none => issuer.signed request requester).mapError .assembly
  let bytes ← op.encode.mapError .encoding
  return ({ log := (validator?.getD requester).writingKey, bytes }, issuer)

end Issuer

end SettlementLedger
