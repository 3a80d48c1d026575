import SettlementLedger.Transition.Delivery
import SettlementLedger.Transition.Initialization
import SettlementLedger.Transition.Standing
import SettlementLedger.Transition.Value
import SettlementLedger.Transition.WritingKeys

/-!
# The transition of one operation

An operation is authentic if its claimed hash is the hash of its content and its requester has
signed that hash. An authentic operation that was not applied before, and that names the current
membership sequence, is judged by the rule of its kind. What it then changes, its replay marker
included, is its effect; a refused operation has none.
-/

set_option autoImplicit false
set_option relaxedAutoImplicit false

namespace SettlementLedger

/-- What the host says about the ledger for one call of the engine. -/
structure Context where
  bootstrap : WritingKey
  /-- The digest of the current membership sequence. -/
  txValidity : Hash
  /-- The membership set before the first operation of the call. -/
  members : Membership

/-- What an applied operation changes. -/
structure Effect where
  writes : WriteSet
  changes : MembershipDiff

namespace Setting

/-- The rule of the operation's kind. -/
def rule (setting : Setting) (draft : Draft) : Except Refusal Draft :=
  match setting.operation.kind, setting.operation.body with
  | .addAdmin, .coreAdmin writingKey => setting.addAdmin draft writingKey
  | .disableInitialization, .coreAdmin writingKey =>
    setting.disableInitialization draft writingKey
  | .balanceInitialization, .balanceInitialization target amount =>
    setting.balanceInitialization draft target amount
  | .appendWhitelist, .adminControl target => setting.appendWhitelist draft target
  | .banValidator, .adminControl target => setting.banValidator draft target
  | .addIndexer, .adminControl target => setting.addIndexer draft target
  | .removeIndexer, .adminControl target => setting.removeIndexer draft target
  | .addWriter, .roleAccess writingKey => setting.addWriter draft writingKey
  | .removeWriter, .roleAccess writingKey => setting.removeWriter draft writingKey
  | .adminRecovery, .roleAccess writingKey => setting.adminRecovery draft writingKey
  | .transfer, .transfer recipient amount => setting.transfer draft recipient amount
  | .transaction, .transaction _ _ externalBootstrap ledgerBootstrap =>
    setting.transaction draft externalBootstrap ledgerBootstrap
  | .bootstrapDeployment, .bootstrapDeployment bootstrap _ =>
    setting.bootstrapDeployment draft bootstrap
  | _, _ => .error (.rejected .bodyMismatch)

end Setting

/-- The effect of an operation that was delivered over a view, with the membership set as earlier
operations left it. -/
def Operation.transition (op : Operation) (suite : Suite) (config : Config) (context : Context)
    (base : View) (members : Membership) (delivery : Delivery) : Except Refusal Effect := do
  op.authenticate suite
  let initializing ← answered base.initializing
  if ← answered (base.isApplied op.tx) then .error (.replayed op.tx)
  else
    require (op.txValidity = context.txValidity) .staleTxValidity
    let setting : Setting := {
      suite, config, members, initializing
      bootstrap := context.bootstrap
      log := delivery.log
      operation := op }
    let draft ← setting.rule { base }
    return {
      writes := (draft.put (.applied op.tx) delivery.bytes).staged
      changes := draft.changes }

end SettlementLedger
