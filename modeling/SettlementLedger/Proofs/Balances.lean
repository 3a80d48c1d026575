import SettlementLedger.Proofs.Amounts
import SettlementLedger.Proofs.Footprint

/-!
# Whose balance an operation may lower

The requester of an operation pays for it, and nobody else does: everybody else has at least as much
afterwards as before, and exactly as much unless the operation pays it something
(`Operation.Pays`, `Setting.enriches_of_rule`). A rule credits a record that it has read again after
its last write, so that this holds although payer, recipient and validator may be one participant.
-/

set_option autoImplicit false
set_option relaxedAutoImplicit false

namespace SettlementLedger

theorem Amount.le_of_add? {a b c : Amount} (h : a.add? b = some c) : a ≤ c := by
  rw [add?_eq_some_iff] at h
  show a.raw ≤ c.raw
  omega

/-! ### Balances -/

namespace View

variable {view before middle after : View} {payer : Address} {paid : Address → Prop}

/-- The balance of a participant, zero without a record. -/
def balance (view : View) (a : Address) : Except ViewError Amount :=
  (view.node a).map fun node? ↦ (node?.getD {}).balance

theorem balance_of_node {a : Address} {node? : Option NodeRecord} (h : view.node a = .ok node?) :
    view.balance a = .ok (node?.getD {}).balance := by
  rw [balance, h]
  rfl

theorem balance_congr {a : Address} (h : after.node a = before.node a) :
    after.balance a = before.balance a := by
  rw [balance, balance, h]

/-- Nobody but a payer has less than before, and nobody has more that is not paid. -/
def Enriches (payer : Address) (paid : Address → Prop) (before after : View) : Prop :=
  ∀ a, a ≠ payer → ∀ balance, before.balance a = .ok balance →
    ∃ balance', after.balance a = .ok balance' ∧ balance ≤ balance' ∧
      (¬ paid a → balance' = balance)

namespace Enriches

theorem of_same (h : ∀ a, a ≠ payer → after.balance a = before.balance a) :
    before.Enriches payer paid after :=
  fun a ha balance hbalance ↦
    ⟨balance, (h a ha).trans hbalance, Nat.le_refl balance.raw, fun _ ↦ rfl⟩

theorem of_node (h : ∀ a, after.node a = before.node a) : before.Enriches payer paid after :=
  of_same fun a _ ↦ balance_congr (h a)

theorem trans (h : before.Enriches payer paid middle) (h' : middle.Enriches payer paid after) :
    before.Enriches payer paid after := by
  intro a ha balance hbalance
  obtain ⟨balance', hmiddle, hle, hsame⟩ := h a ha balance hbalance
  obtain ⟨balance'', hafter, hle', hsame'⟩ := h' a ha balance' hmiddle
  exact ⟨balance'', hafter, Nat.le_trans hle hle', fun hnot ↦ (hsame' hnot).trans (hsame hnot)⟩

end Enriches

end View

namespace Draft

variable {draft result : Draft} {payer : Address} {paid : Address → Prop}

theorem balance_putNode (draft : Draft) (address a : Address) (node : NodeRecord) :
    (draft.putNode address node).view.balance a =
      if a = address then .ok node.balance else draft.view.balance a := by
  have hnode := draft.node_putNode address a node
  by_cases ha : a = address
  · rw [if_pos ha] at hnode ⊢
    exact View.balance_of_node hnode
  · rw [if_neg ha] at hnode ⊢
    exact View.balance_congr hnode

theorem enriches_put (draft : Draft) {key : ViewKey} (hnode : ∀ a, key ≠ .node a) (value : Bytes) :
    draft.view.Enriches payer paid (draft.put key value).view :=
  .of_node (draft.node_put hnode value)

/-- The record of the payer may be replaced by any other. -/
theorem enriches_putPayer (draft : Draft) (payer : Address) (node : NodeRecord) :
    draft.view.Enriches payer paid (draft.putNode payer node).view :=
  .of_same fun a ha ↦ (draft.balance_putNode payer a node).trans (if_neg ha)

/-- A record that is replaced by one with a balance that is no smaller. -/
theorem enriches_putNode {address : Address} {node? : Option NodeRecord} {node : NodeRecord}
    (hnode : draft.view.node address = .ok node?)
    (hle : (node?.getD {}).balance ≤ node.balance)
    (hpaid : ¬ paid address → node.balance = (node?.getD {}).balance) :
    draft.view.Enriches payer paid (draft.putNode address node).view := by
  intro a ha balance hbalance
  rw [balance_putNode]
  by_cases haddress : a = address
  · rw [haddress, View.balance_of_node hnode] at hbalance
    cases hbalance
    exact ⟨node.balance, if_pos haddress, hle, haddress ▸ hpaid⟩
  · exact ⟨balance, (if_neg haddress).trans hbalance, Nat.le_refl balance.raw, fun _ ↦ rfl⟩

theorem enriches_putSame {address : Address} {node? : Option NodeRecord} {node : NodeRecord}
    (hnode : draft.view.node address = .ok node?)
    (hsame : node.balance = (node?.getD {}).balance) :
    draft.view.Enriches payer paid (draft.putNode address node).view :=
  enriches_putNode hnode (hsame ▸ Nat.le_refl _) fun _ ↦ hsame

/-- A record that is credited. -/
theorem enriches_credit {address : Address} {node? : Option NodeRecord} {amount balance : Amount}
    (hnode : draft.view.node address = .ok node?)
    (hbalance : (node?.getD {}).balance.add? amount = some balance) (hpaid : paid address) :
    draft.view.Enriches payer paid
      (draft.putNode address { node?.getD {} with balance }).view :=
  enriches_putNode hnode (Amount.le_of_add? hbalance) fun hnot ↦ absurd hpaid hnot

end Draft

/-! ### The rules -/

/-- An operation pays a participant: the validator that shares in the fee, the recipient of a
transfer, or the participant that the administrator credits. -/
def Operation.Pays (op : Operation) (a : Address) : Prop :=
  op.validator? = some a ∨
    (op.kind ∈ [.transfer, .balanceInitialization] ∧ op.body.subject? = some a)

namespace Setting

variable {setting : Setting} {draft result : Draft}

/-- Nobody but the requester has less than before, and nobody has more that the operation does not
pay. -/
def Enriches (setting : Setting) (before after : View) : Prop :=
  before.Enriches setting.operation.requester setting.operation.Pays after

theorem enriches_of_reward {payer : Address} {paid : Address → Prop} {fee : Amount}
    {validator? : Option Address}
    (h : setting.reward draft payer fee validator? = .ok result)
    (hpaid : ∀ validator, validator? = some validator → paid validator) :
    draft.view.Enriches payer paid result.view := by
  rcases reward_eq_ok.mp h with ⟨-, rfl⟩ | ⟨validator, hsome, -, share, -, node, hnode, balance,
    hbalance, rfl⟩
  · exact .of_node fun _ ↦ rfl
  · exact Draft.enriches_putNode hnode (Amount.le_of_add? hbalance)
      fun hnot ↦ absurd (hpaid validator hsome) hnot

theorem enriches_of_settle {payer : Address} {paid : Address → Prop} {policy : FeePolicy}
    {validator? : Option Address}
    (h : setting.settle draft payer policy validator? = .ok result)
    (hpaid : ∀ validator, validator? = some validator → paid validator) :
    draft.view.Enriches payer paid result.view := by
  obtain ⟨fee, -, ⟨-, rfl⟩ | ⟨-, node, -, balance, -, hreward⟩⟩ := settle_eq_ok.mp h
  · exact .of_node fun _ ↦ rfl
  · exact (draft.enriches_putPayer payer _).trans (enriches_of_reward hreward hpaid)

/-- A fee that no validator shares in. -/
theorem enriches_of_adminFee {admin : AdminRecord} {policy : FeePolicy} {middle : Draft}
    (hadmin : setting.requireAdmin draft = .ok admin)
    (h : setting.settle middle admin.address policy none = .ok result) :
    setting.Enriches middle.view result.view := by
  rw [Enriches, (requireAdmin_eq_ok.mp hadmin).2.1]
  exact enriches_of_settle h nofun

/-- A fee that the validator shares in. -/
theorem enriches_of_sharedFee {validator : Address} {policy : FeePolicy} {middle : Draft}
    (hvalidator : setting.validator draft = .ok validator)
    (h : setting.settle middle setting.operation.requester policy (some validator) = .ok result) :
    setting.Enriches middle.view result.view := by
  refine enriches_of_settle h fun other hother ↦ Or.inl ?_
  cases hother
  exact validator?_eq_some hvalidator

theorem enriches_of_addAdmin {key : WritingKey} (h : setting.addAdmin draft key = .ok result) :
    setting.Enriches draft.view result.view := by
  obtain ⟨-, -, node?, -, license, licensed, hlicensed, balance, -, stake, -, bound, hbound,
    rfl⟩ := addAdmin_eq_ok.mp h
  have hlicense : setting.Enriches draft.view licensed.view :=
    .of_node (Draft.node_of_licenseOf hlicensed)
  have hbind : setting.Enriches _ bound.view := .of_node (Draft.node_of_bindWriter hbound)
  exact hlicense.trans ((licensed.enriches_putPayer _ _).trans (hbind.trans
    ((bound.enriches_put (by simp) _).trans (Draft.enriches_put _ (by simp) _))))

theorem enriches_of_appendWhitelist {target : Address}
    (h : setting.appendWhitelist draft target = .ok result) :
    setting.Enriches draft.view result.view := by
  obtain ⟨admin, hadmin, node?, hnode, -, license, licensed, hlicensed, hsettle⟩ :=
    appendWhitelist_eq_ok.mp h
  have hlicense : setting.Enriches draft.view licensed.view :=
    .of_node (Draft.node_of_licenseOf hlicensed)
  rw [← Draft.node_of_licenseOf hlicensed] at hnode
  exact hlicense.trans ((Draft.enriches_putSame hnode (by rfl)).trans
    (enriches_of_adminFee hadmin hsettle))

theorem enriches_of_adminRecovery {key : WritingKey}
    (h : setting.adminRecovery draft key = .ok result) :
    setting.Enriches draft.view result.view := by
  obtain ⟨admin, -, hrequester, -, -, validator, hvalidator, -, node, -, joined, hjoined, left,
    hleft, hsettle⟩ := adminRecovery_eq_ok.mp h
  rw [← hrequester] at hsettle hjoined
  have hfee := enriches_of_sharedFee hvalidator hsettle
  rw [(Draft.view_of_removeMember hleft).trans (Draft.view_of_addMember hjoined)] at hfee
  exact (draft.enriches_putPayer _ _).trans ((Draft.enriches_put _ (by simp) _).trans
    ((Draft.enriches_put _ (by simp) _).trans hfee))

theorem enriches_of_transfer {recipient : Address} {amount : Amount}
    (kind : setting.operation.kind = .transfer)
    (body : setting.operation.body = .transfer recipient amount)
    (h : setting.transfer draft recipient amount = .ok result) :
    setting.Enriches draft.view result.view := by
  obtain ⟨node, -, fee, -, required, -, -, validator, hvalidator, debited, -, credited?,
    hcredited, balance, hbalance, hsettle⟩ := transfer_eq_ok.mp h
  have hrecipient : setting.operation.Pays recipient := Or.inr ⟨by simp [kind], by rw [body]; rfl⟩
  exact (draft.enriches_putPayer _ _).trans
    ((Draft.enriches_credit hcredited hbalance hrecipient).trans
      (enriches_of_sharedFee hvalidator hsettle))

/-- A rule takes from the requester only, and gives to those that its operation pays. -/
theorem enriches_of_rule (h : setting.rule draft = .ok result) :
    setting.Enriches draft.view result.view := by
  cases ruling_of_rule h with
  | addAdmin key kind body ok => exact enriches_of_addAdmin ok
  | disableInitialization key kind body ok =>
    obtain ⟨admin, hadmin, -, -, hsettle⟩ := disableInitialization_eq_ok.mp ok
    exact (draft.enriches_put (by simp) _).trans (enriches_of_adminFee hadmin hsettle)
  | balanceInitialization target amount kind body ok =>
    obtain ⟨admin, hadmin, -, node?, hnode, balance, hbalance, hsettle⟩ :=
      balanceInitialization_eq_ok.mp ok
    have htarget : setting.operation.Pays target := Or.inr ⟨by simp [kind], by rw [body]; rfl⟩
    exact (Draft.enriches_credit hnode hbalance htarget).trans
      (enriches_of_adminFee hadmin hsettle)
  | appendWhitelist target kind body ok => exact enriches_of_appendWhitelist ok
  | banValidator target kind body ok =>
    obtain ⟨admin, hadmin, -, node, hnode, -, -, hsettle⟩ := banValidator_eq_ok.mp ok
    exact (Draft.enriches_putSame hnode (by rfl)).trans (enriches_of_adminFee hadmin hsettle)
  | addIndexer target kind body ok =>
    obtain ⟨admin, hadmin, node, hnode, -, -, joined, hjoined, hsettle⟩ := addIndexer_eq_ok.mp ok
    rw [← Draft.view_of_addMember hjoined] at hnode ⊢
    exact (Draft.enriches_putSame hnode (by rfl)).trans (enriches_of_adminFee hadmin hsettle)
  | removeIndexer target kind body ok =>
    obtain ⟨admin, hadmin, node, hnode, -, left, hleft, hsettle⟩ := removeIndexer_eq_ok.mp ok
    rw [← Draft.view_of_removeMember hleft] at hnode ⊢
    exact (Draft.enriches_putSame hnode (by rfl)).trans (enriches_of_adminFee hadmin hsettle)
  | addWriter key kind body ok =>
    obtain ⟨node, -, -, -, -, fee, -, required, -, -, validator, hvalidator, balance, -, stake, -,
      bound, hbound, hsettle⟩ := addWriter_eq_ok.mp ok
    have hbind : setting.Enriches _ bound.view := .of_node (Draft.node_of_bindWriter hbound)
    exact (draft.enriches_putPayer _ _).trans
      (hbind.trans (enriches_of_sharedFee hvalidator hsettle))
  | removeWriter key kind body ok =>
    obtain ⟨-, node, -, -, -, validator, hvalidator, left, hleft, balance, -, hsettle⟩ :=
      removeWriter_eq_ok.mp ok
    rw [← Draft.view_of_removal hleft]
    exact (left.enriches_putPayer _ _).trans (enriches_of_sharedFee hvalidator hsettle)
  | adminRecovery key kind body ok => exact enriches_of_adminRecovery ok
  | transfer recipient amount kind body ok => exact enriches_of_transfer kind body ok
  | transaction writer content external ledger kind body ok =>
    obtain ⟨-, -, validator, hvalidator, hsettle⟩ := transaction_eq_ok.mp ok
    have hvalidator := validator_of_requireFeeAndValidator hvalidator
    exact enriches_of_sharedFee hvalidator hsettle
  | bootstrapDeployment bootstrap channel kind body ok =>
    obtain ⟨-, -, validator, hvalidator, hsettle⟩ := bootstrapDeployment_eq_ok.mp ok
    have hvalidator := validator_of_requireFeeAndValidator hvalidator
    exact (draft.enriches_put (by simp) _).trans (enriches_of_sharedFee hvalidator hsettle)

end Setting

/-- An applied operation takes from its requester only, and gives to those that it pays. -/
theorem Replica.Applied.enriches {replica : Replica} {delivery : Delivery} {op : Operation}
    {effect : Effect} {initializing : Bool} {draft : Draft}
    (h : replica.Applied delivery op effect initializing draft) :
    replica.store.view.Enriches op.requester op.Pays
      (replica.commit effect.writes effect.changes).store.view := by
  have hrule : replica.store.view.Enriches op.requester op.Pays draft.view :=
    Setting.enriches_of_rule h.rule
  rw [h.view]
  exact hrule.trans (draft.enriches_put (by simp) delivery.bytes)

end SettlementLedger
