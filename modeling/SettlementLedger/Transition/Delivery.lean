import SettlementLedger.Operation.Message
import SettlementLedger.Transition.Refusal

/-!
# Deliveries

The replication layer delivers the entries of the logs in one order. A delivery carries an operation
if its bytes decode and fit the schema. The operation is authentic if its claimed hash is the hash
of its content and its requester has signed that hash.
-/

set_option autoImplicit false
set_option relaxedAutoImplicit false

namespace SettlementLedger

/-- An operation as the replication layer delivers it. -/
structure Delivery where
  /-- The writing key of the log that the operation was appended to. -/
  log : WritingKey
  bytes : Bytes

/-- The operation that a delivery carries. -/
def Delivery.operation (delivery : Delivery) : Except Refusal Operation := do
  let raw ← (RawOperation.decode delivery.bytes).mapError .undecodable
  raw.validate.mapError .malformed

/-- The claimed hash must be the hash of the content, and the requester must have signed it. -/
def Operation.authenticate (op : Operation) (suite : Suite) : Except Refusal Unit := do
  require (suite.isKey op.requester.key) .invalidRequesterKey
  require (op.computeHash suite = op.tx) .hashMismatch
  require (suite.verify op.requester.key op.tx.bytes op.signature) .invalidSignature

end SettlementLedger
