import SettlementLedger.Transition.Draft

/-!
# Fees

The payer of an operation is debited a flat fee. A share of the fee goes to the validator that
cosigned the operation, unless the validator is the payer; the rest is burned. While the
initialization phase is open the administrator is spared every fee but a charged one.
-/

set_option autoImplicit false
set_option relaxedAutoImplicit false

namespace SettlementLedger

/-- Whether an operation spares the administrator its fee during initialization. -/
inductive FeePolicy where
  /-- The administrator pays nothing while the initialization phase is open. -/
  | adminWaivable
  /-- Everybody pays. -/
  | charged
  deriving DecidableEq, Repr

namespace Setting

/-- The fee that a payer owes. -/
def feeFor (setting : Setting) (draft : Draft) (payer : Address) :
    FeePolicy → Except Refusal Amount
  | .charged => return setting.config.fee
  | .adminWaivable =>
    if setting.initializing then do
      let waived ← draft.isAdmin payer
      return if waived then .zero else setting.config.fee
    else return setting.config.fee

/-- Credits the validator's share of a fee, unless the validator is the payer. -/
def reward (setting : Setting) (draft : Draft) (payer : Address) (fee : Amount) :
    (validator? : Option Address) → Except Refusal Draft
  | none => return draft
  | some validator =>
    if validator = payer then return draft
    else do
      let share ← demand (fee.percentage? setting.config.rewardFactor) .arithmeticOverflow
      let node ← draft.existingNode validator .validatorNotWriter
      let balance ← demand (node.balance.add? share) .arithmeticOverflow
      return draft.putNode validator { node with balance }

/-- Debits the fee from the payer and rewards the validator; a zero fee touches nothing. -/
def settle (setting : Setting) (draft : Draft) (payer : Address) (policy : FeePolicy)
    (validator? : Option Address) : Except Refusal Draft := do
  let fee ← setting.feeFor draft payer policy
  if fee.isZero then return draft
  else
    let node ← draft.existingNode payer .insufficientBalance
    let balance ← demand (node.balance.sub? fee) .insufficientBalance
    setting.reward (draft.putNode payer { node with balance }) payer fee validator?

end Setting

end SettlementLedger
