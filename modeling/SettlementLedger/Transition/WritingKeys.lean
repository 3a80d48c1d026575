import SettlementLedger.Transition.Settlement

/-!
# Writing keys

A whitelisted participant becomes a writer under a writing key and locks a stake, and gets the stake
back when it is released. The administrator moves to a fresh writing key when it has lost the old
one; since it can no longer append, another writer cosigns and delivers that operation.
-/

set_option autoImplicit false
set_option relaxedAutoImplicit false

namespace SettlementLedger.Setting

/-- Makes the requester a writer under a writing key and locks its stake. -/
def addWriter (setting : Setting) (draft : Draft) (writingKey : WritingKey) :
    Except Refusal Draft := do
  let requester := setting.operation.requester
  let node ← draft.existingNode requester .notWhitelisted
  require node.role.isWhitelisted .notWhitelisted
  require (¬ node.role.isWriter) .alreadyWriter
  draft.requireAvailable writingKey requester
  let locked := setting.config.writerStake
  let fee ← setting.feeFor draft requester .adminWaivable
  let required ← demand (locked.add? fee) .arithmeticOverflow
  require (required ≤ node.balance) .insufficientBalance
  let validator ← setting.validator draft
  let balance ← demand (node.balance.sub? locked) .insufficientBalance
  let stake ← demand (node.stake.add? locked) .arithmeticOverflow
  let draft := draft.putNode requester { node with role := .writer, writingKey, balance, stake }
  let draft ← draft.bindWriter writingKey requester
  setting.settle draft requester .adminWaivable (some validator)

/-- Releases the requester from being a writer and returns its stake. -/
def removeWriter (setting : Setting) (draft : Draft) (writingKey : WritingKey) :
    Except Refusal Draft := do
  let requester := setting.operation.requester
  require (¬ (← draft.isAdmin requester)) .targetIsAdmin
  let node ← draft.existingNode requester .notWriter
  require node.role.isWriter .notWriter
  require (writingKey = node.writingKey) .writingKeyMismatch
  let validator ← setting.validator draft
  let draft ← if node.role.isIndexer then draft.removeMember setting.members node.writingKey
    else pure draft
  let balance ← demand (node.balance.add? node.stake) .arithmeticOverflow
  let draft := draft.putNode requester { node with role := .whitelisted, balance, stake := .zero }
  setting.settle draft requester .adminWaivable (some validator)

/-- Moves the administrator to a writing key that was never bound. The new key joins the membership
set before the old one leaves it. -/
def adminRecovery (setting : Setting) (draft : Draft) (writingKey : WritingKey) :
    Except Refusal Draft := do
  let admin ← demand (← draft.admin) .noAdmin
  require (setting.operation.requester = admin.address) .notAdmin
  require ((← answered (draft.view.writerOwner writingKey)) = none) .writerKeyInUse
  require (setting.members.containsAfter draft.changes admin.writingKey) .adminKeyNotMember
  let validator ← setting.validator draft
  require (validator ≠ admin.address) .validatorIsRequester
  let node ← draft.existingNode admin.address .noAdmin
  let draft := draft.putNode admin.address { node with writingKey }
  let draft := draft.putWriterOwner writingKey admin.address
  let draft := draft.put .admin { admin with writingKey }.encode
  let draft ← draft.addMember setting.members writingKey
  let draft ← draft.removeMember setting.members admin.writingKey
  setting.settle draft admin.address .adminWaivable (some validator)

end SettlementLedger.Setting
