import SettlementLedger.Transition.Settlement

/-!
# Value and subnetworks

Participants move amounts, register external bootstrap keys, and settle transactions of the
subnetworks that were registered. Each of these is cosigned by a validator and costs a fee.
-/

set_option autoImplicit false
set_option relaxedAutoImplicit false

namespace SettlementLedger.Setting

/-- Moves an amount from the requester to a recipient. -/
def transfer (setting : Setting) (draft : Draft) (recipient : Address) (amount : Amount) :
    Except Refusal Draft := do
  let sender := setting.operation.requester
  let node ← draft.existingNode sender .insufficientBalance
  let fee ← setting.feeFor draft sender .adminWaivable
  let required ← demand (amount.add? fee) .arithmeticOverflow
  require (required ≤ node.balance) .insufficientBalance
  let validator ← setting.validator draft
  let debited ← demand (node.balance.sub? amount) .insufficientBalance
  let draft := draft.putNode sender { node with balance := debited }
  let credited := (← draft.node recipient).getD {}
  let balance ← demand (credited.balance.add? amount) .arithmeticOverflow
  let draft := draft.putNode recipient { credited with balance }
  setting.settle draft sender .adminWaivable (some validator)

/-- The requester must be able to pay its fee, and a validator must have cosigned. -/
def requireFeeAndValidator (setting : Setting) (draft : Draft) : Except Refusal Address := do
  let requester := setting.operation.requester
  let node ← draft.existingNode requester .insufficientBalance
  let fee ← setting.feeFor draft requester .adminWaivable
  require (fee ≤ node.balance) .insufficientBalance
  setting.validator draft

/-- Settles a transaction of a deployed subnetwork against this ledger. -/
def transaction (setting : Setting) (draft : Draft)
    (externalBootstrap ledgerBootstrap : WritingKey) : Except Refusal Draft := do
  require (ledgerBootstrap = setting.bootstrap) .bootstrapMismatch
  require ((← answered (draft.view.deployment externalBootstrap)).isSome) .unknownDeployment
  let validator ← setting.requireFeeAndValidator draft
  setting.settle draft setting.operation.requester .adminWaivable (some validator)

/-- Registers an external bootstrap key; the first registration stands. -/
def bootstrapDeployment (setting : Setting) (draft : Draft) (bootstrap : WritingKey) :
    Except Refusal Draft := do
  let requester := setting.operation.requester
  require (bootstrap ≠ setting.bootstrap) .reservedBootstrap
  require ((← answered (draft.view.deployment bootstrap)) = none) .deploymentExists
  let validator ← setting.requireFeeAndValidator draft
  let record : DeploymentRecord := { requester, tx := setting.operation.tx }
  let draft := draft.put (.deployment bootstrap) record.encode
  setting.settle draft requester .adminWaivable (some validator)

end SettlementLedger.Setting
