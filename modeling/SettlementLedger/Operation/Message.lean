import SettlementLedger.Operation

/-!
# What is signed

The requester signs the hash of the kind, its address, the membership digest, the parts of the body
and its nonce; this hash identifies the operation. The validator signs the hash of that identifier,
its own address and its own nonce.
-/

set_option autoImplicit false
set_option relaxedAutoImplicit false

namespace SettlementLedger.Message

/-- The message whose hash identifies an operation. -/
def requester (kind : Kind) (requester : Address) (txValidity : Hash) (body : Body)
    (nonce : Nonce) : Bytes :=
  Bytes.ofNatBE 4 kind.number.toNat ++ (requester.bytes ++ (txValidity.bytes ++
    (body.parts.flatten ++ nonce.bytes)))

/-- The message whose hash a validator signs. -/
def validator (tx : Hash) (validator : Address) (nonce : Nonce) : Bytes :=
  tx.bytes ++ (validator.bytes ++ nonce.bytes)

/-- The hash that identifies an operation. -/
def requesterHash (suite : Suite) (kind : Kind) (address : Address) (txValidity : Hash)
    (body : Body) (nonce : Nonce) : Hash :=
  suite.hash (requester kind address txValidity body nonce)

/-- The hash that a validator signs. -/
def validatorHash (suite : Suite) (tx : Hash) (address : Address) (nonce : Nonce) : Hash :=
  suite.hash (validator tx address nonce)

end SettlementLedger.Message

namespace SettlementLedger

/-- The hash of what the operation holds, which its claimed hash must equal. -/
def Operation.computeHash (suite : Suite) (op : Operation) : Hash :=
  Message.requesterHash suite op.kind op.requester op.txValidity op.body op.nonce

end SettlementLedger
