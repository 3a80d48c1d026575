import SettlementLedger.Address
import SettlementLedger.Amount
import SettlementLedger.Operation.Kind

/-!
# Operations

An operation that fits the schema: who requests what, against which membership sequence, with the
requester's signature and perhaps a validator's cosignature. Fitting the schema says nothing about
authenticity; the hash and the signatures are checked when the operation is applied.
-/

set_option autoImplicit false
set_option relaxedAutoImplicit false

namespace SettlementLedger

/-- What an operation carries besides who signed it. -/
inductive Body where
  /-- The writing key of the administrator. -/
  | coreAdmin (writingKey : WritingKey)
  /-- The address that the administrator acts upon. -/
  | adminControl (target : Address)
  /-- The writing key that is registered, released or rotated to. -/
  | roleAccess (writingKey : WritingKey)
  /-- An address and the amount credited to it. -/
  | balanceInitialization (target : Address) (amount : Amount)
  /-- An address and the amount moved to it. -/
  | transfer (recipient : Address) (amount : Amount)
  /-- The writer of a subnetwork, the settled content, and the bootstrap keys of the subnetwork and
  of this ledger. -/
  | transaction (writingKey : WritingKey) (contentHash : Hash) (externalBootstrap : WritingKey)
      (ledgerBootstrap : WritingKey)
  /-- An external bootstrap key and the channel of its network. -/
  | bootstrapDeployment (bootstrap : WritingKey) (channel : Hash)
  deriving DecidableEq

namespace Body

/-- The family of payloads that hold a body. -/
def family : Body → Family
  | coreAdmin .. => .coreAdmin
  | adminControl .. => .adminControl
  | roleAccess .. => .roleAccess
  | balanceInitialization .. => .balanceInitialization
  | transfer .. => .transfer
  | transaction .. => .transaction
  | bootstrapDeployment .. => .bootstrapDeployment

/-- The fields of a body and their bytes, in the order in which they are signed. -/
def fieldBytes : Body → List (Field × Bytes)
  | coreAdmin writingKey | roleAccess writingKey => [(.writingKey, writingKey.bytes)]
  | adminControl target => [(.target, target.bytes)]
  | balanceInitialization target amount =>
    [(.target, target.bytes), (.amount, amount.toBytes)]
  | transfer recipient amount => [(.recipient, recipient.bytes), (.amount, amount.toBytes)]
  | transaction writingKey contentHash externalBootstrap ledgerBootstrap =>
    [(.writingKey, writingKey.bytes), (.contentHash, contentHash.bytes),
      (.externalBootstrap, externalBootstrap.bytes), (.ledgerBootstrap, ledgerBootstrap.bytes)]
  | bootstrapDeployment bootstrap channel =>
    [(.externalBootstrap, bootstrap.bytes), (.channel, channel.bytes)]

/-- The parts of a body in the order in which they are signed. -/
def parts (body : Body) : List Bytes :=
  body.fieldBytes.map Prod.snd

end Body

/-- A validator's cosignature. -/
structure Cosignature where
  validator : Address
  nonce : Nonce
  signature : Signature
  deriving DecidableEq

/-- An operation that fits the schema. -/
structure Operation where
  kind : Kind
  requester : Address
  /-- The hash that the requester claims and signs; it also marks the operation as applied. -/
  tx : Hash
  /-- The digest of the membership sequence that the operation was built against. -/
  txValidity : Hash
  nonce : Nonce
  signature : Signature
  body : Body
  cosignature : Option Cosignature
  deriving DecidableEq

namespace Operation

/-- Whether a validator completed the operation. -/
def isComplete (op : Operation) : Bool := op.cosignature.isSome

end Operation

end SettlementLedger
