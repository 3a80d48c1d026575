import SettlementLedger.Transition.Settlement

/-!
# The administrator and the initialization phase

The bootstrap writer registers the administrator once. While the initialization phase is open the
administrator credits addresses out of nothing; closing the phase is final.
-/

set_option autoImplicit false
set_option relaxedAutoImplicit false

namespace SettlementLedger.Setting

/-- Registers the requester as the administrator: an indexer under the bootstrap writing key, with a
license, the initial balance and the initial stake. -/
def addAdmin (setting : Setting) (draft : Draft) (writingKey : WritingKey) :
    Except Refusal Draft := do
  let requester := setting.operation.requester
  require ((← draft.admin) = none) .adminExists
  require (setting.log = setting.bootstrap ∧ writingKey = setting.bootstrap) .notBootstrapWriter
  let node := (← draft.node requester).getD {}
  let (license, draft) ← draft.licenseOf requester node
  let balance ← demand (node.balance.add? setting.config.adminInitialBalance) .arithmeticOverflow
  let stake ← demand (node.stake.add? setting.config.adminInitialStake) .arithmeticOverflow
  let draft := draft.putNode requester { role := .indexer, writingKey, balance, license, stake }
  let draft ← draft.bindWriter writingKey requester
  let draft := draft.put .admin (AdminRecord.encode { address := requester, writingKey })
  return draft.put .initialization [1]

/-- Closes the initialization phase. -/
def disableInitialization (setting : Setting) (draft : Draft) (writingKey : WritingKey) :
    Except Refusal Draft := do
  let admin ← setting.requireAdmin draft
  require (writingKey = admin.writingKey) .writingKeyMismatch
  require setting.initializing .initializationDisabled
  setting.settle (draft.put .initialization [0]) admin.address .adminWaivable none

/-- Credits an address while the initialization phase is open. -/
def balanceInitialization (setting : Setting) (draft : Draft) (target : Address)
    (amount : Amount) : Except Refusal Draft := do
  let admin ← setting.requireAdmin draft
  require setting.initializing .initializationDisabled
  let node := (← draft.node target).getD {}
  let balance ← demand (node.balance.add? amount) .arithmeticOverflow
  setting.settle (draft.putNode target { node with balance }) admin.address .adminWaivable none

end SettlementLedger.Setting
