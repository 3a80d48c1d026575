import SettlementLedger.Proofs.Authority
import SettlementLedger.Proofs.BalanceShifts
import SettlementLedger.Proofs.Footprint
import SettlementLedger.Proofs.RoleLifecycle

/-!
# Fees that a validator shares in

Writers, subnetworks and the administrator under a new key pay alike: what their rules have staged
leaves the requester with a record, and from this record the fee is paid, with a share for the
validator unless it is the requester. `Setting.Readies` says what the rules have in common just
before that last step. From it follows, in terms of the state before the operation, when the step
succeeds (`Setting.Readies.exists_settle_iff`) and what it leaves (`Setting.Readies.settled`).

What such an operation needs and does is stated for the last delivery of a call after any run:
`Setting.Reached` collects what its rule may rely on there, and `Replica.exists_reached` says that
the rule decides.
-/

set_option autoImplicit false
set_option relaxedAutoImplicit false

namespace SettlementLedger

/-! ### Validators and their share -/

namespace Operation

/-- A validator stands behind an operation. If it is not the requester, and there is a fee, its
share can be computed and received. -/
structure Backed (op : Operation) (suite : Suite) (config : Config) (log : WritingKey) (view : View)
    (fee : Nat) : Prop where
  cosigned : op.Cosigned suite log view
  reward : ∀ validator node, op.validator? = some validator → validator ≠ op.requester → fee ≠ 0 →
    view.node validator = .ok (some node) →
      fee * config.validatorRewardPercent.toNat < Amount.limit ∧
        node.balance.raw + config.shareOf fee < Amount.limit

/-- Of everybody but the requester, only the validator has another record: its balance has grown by
its share of the fee. -/
structure Rewards (op : Operation) (config : Config) (fee : Nat) (before after : View) : Prop where
  validator : ∀ validator, op.validator? = some validator → validator ≠ op.requester →
    ∃ node balance, before.node validator = .ok (some node) ∧
      after.node validator = .ok (some { node with balance }) ∧
      balance.raw = node.balance.raw + config.shareOf fee
  others : ∀ a, a ≠ op.requester → op.validator? ≠ some a → after.node a = before.node a

variable {op : Operation} {config : Config} {fee : Nat} {before middle after : View}

/-- What happens to other entries does not matter. -/
theorem Rewards.congr (h : op.Rewards config fee before middle)
    (hnode : ∀ a, after.node a = middle.node a) : op.Rewards config fee before after where
  validator validator hvalidator hother := by
    obtain ⟨node, balance, hbefore, hmiddle, hbalance⟩ := h.validator validator hvalidator hother
    exact ⟨node, balance, hbefore, (hnode validator).trans hmiddle, hbalance⟩
  others a hrequester hvalidator := (hnode a).trans (h.others a hrequester hvalidator)

end Operation

namespace Setting

variable {setting : Setting} {base : View} {draft result : Draft} {node : NodeRecord}
  {validator : Address}

/-- A validator is found if and only if one stands behind the operation. -/
theorem exists_validator_iff : (∃ validator, setting.validator { base } = .ok validator) ↔
    setting.operation.Cosigned setting.suite setting.log base := by
  constructor
  · rintro ⟨validator, hvalidator⟩
    exact cosigned_of_validator hvalidator
  · rintro ⟨cosignature, hcosignature, hkey, hverify, hnode, howner⟩
    exact ⟨_, validator_eq_ok.mpr ⟨cosignature, hcosignature, rfl, hkey, hverify, hnode, howner⟩⟩

/-! ### The last step of a rule -/

/-- A draft is ready for the fee: the requester has a record, everybody else has the record it had,
and the requester administers the ledger if and only if it did. -/
structure Readies (setting : Setting) (base : View) (draft : Draft) (node : NodeRecord) :
    Prop where
  requester : draft.view.node setting.operation.requester = .ok (some node)
  others : ∀ a, a ≠ setting.operation.requester → draft.view.node a = base.node a
  admin : ∃ admin?, draft.view.admin = .ok admin?
  administers : draft.view.Administers setting.operation.requester ↔
    base.Administers setting.operation.requester

/-- A legible state is ready if the requester has a record. -/
theorem readies_base (hlegible : base.Legible)
    (hnode : base.node setting.operation.requester = .ok (some node)) :
    setting.Readies base { base } node :=
  ⟨hnode, fun _ _ ↦ rfl, hlegible.admin, Iff.rfl⟩

/-- So is a draft that has staged a record of the requester. -/
theorem readies_putNode (hlegible : base.Legible) (hview : draft.view = base)
    (node : NodeRecord) :
    setting.Readies base (draft.putNode setting.operation.requester node) node where
  requester := (draft.node_putNode _ _ node).trans (if_pos rfl)
  others a ha := by
    rw [Draft.node_putNode, if_neg ha, hview]
  admin := by
    rw [Draft.admin_putNode, hview]
    exact hlegible.admin
  administers := View.administers_congr (by rw [Draft.admin_putNode, hview]) _

namespace Readies

/-- Entries besides the node records and the admin record do not matter. -/
theorem put (h : setting.Readies base draft node) {key : ViewKey} (hnode : ∀ a, key ≠ .node a)
    (hadmin : key ≠ .admin) (value : Bytes) :
    setting.Readies base (draft.put key value) node where
  requester := (draft.node_put hnode value _).trans h.requester
  others a ha := (draft.node_put hnode value a).trans (h.others a ha)
  admin := by
    rw [draft.admin_put hadmin]
    exact h.admin
  administers := (View.administers_congr (draft.admin_put hadmin value) _).trans h.administers

/-- Besides the requester only the validator is looked at, and it has a record. -/
theorem exists_validator_node (h : setting.Readies base draft node)
    (hvalidator : setting.validator { base } = .ok validator) :
    ∃ holder, draft.view.node validator = .ok (some holder) ∧
      (validator ≠ setting.operation.requester → base.node validator = .ok (some holder)) := by
  obtain ⟨_, -, -, -, -, ⟨known, hknown, -⟩, -⟩ := validator_eq_ok.mp hvalidator
  have hknown : base.node validator = .ok (some known) := hknown
  by_cases hself : validator = setting.operation.requester
  · exact ⟨node, hself ▸ h.requester, fun hother ↦ absurd hself hother⟩
  · exact ⟨known, (h.others validator hself).trans hknown, fun _ ↦ hknown⟩

/-- The fee can be paid if the requester has it and the validator can be given its share. -/
theorem exists_settle_iff (h : setting.Readies base draft node)
    (hopen : base.initializing = .ok setting.initializing)
    (hvalidator : setting.validator { base } = .ok validator) :
    (∃ result, setting.settle draft setting.operation.requester .adminWaivable (some validator) =
        .ok result) ↔
      base.due setting.config setting.operation.requester ≤ node.balance.raw ∧
        setting.operation.Backed setting.suite setting.config setting.log base
          (base.due setting.config setting.operation.requester) := by
  obtain ⟨admin?, hadmin⟩ := h.admin
  obtain ⟨fee, hfee, hdue⟩ := exists_feeFor_of_administers draft hopen hadmin h.administers
  obtain ⟨holder, hholder, hknown⟩ := h.exists_validator_node hvalidator
  have hsome := validator?_eq_some hvalidator
  rw [Setting.exists_settle_iff hfee h.requester hholder, ← hdue]
  refine and_congr_right fun _ ↦ ⟨fun hreward ↦ ⟨cosigned_of_validator hvalidator, ?_⟩,
    fun hbacked hother hcharged ↦ hbacked.reward validator holder hsome hother hcharged
      (hknown hother)⟩
  intro other found hfound hother hcharged hnode
  cases hsome.symm.trans hfound
  cases (hknown hother).symm.trans hnode
  exact hreward hother hcharged

/-- Paying the fee leaves the requester with the rest, rewards the validator, and touches no other
entry. -/
theorem settled (h : setting.Readies base draft node)
    (hopen : base.initializing = .ok setting.initializing)
    (hvalidator : setting.validator { base } = .ok validator)
    (hsettle : setting.settle draft setting.operation.requester .adminWaivable (some validator) =
      .ok result) :
    (∃ balance, result.view.node setting.operation.requester = .ok (some { node with balance }) ∧
        balance.raw + base.due setting.config setting.operation.requester = node.balance.raw) ∧
      setting.operation.Rewards setting.config
        (base.due setting.config setting.operation.requester) base result.view ∧
      ∀ text, text ≠ (ViewKey.node setting.operation.requester).text →
        text ≠ (ViewKey.node validator).text → result.view text = draft.view text := by
  obtain ⟨admin?, hadmin⟩ := h.admin
  obtain ⟨fee, hfee, hdue⟩ := exists_feeFor_of_administers draft hopen hadmin h.administers
  obtain ⟨holder, hholder, hknown⟩ := h.exists_validator_node hvalidator
  have hsome := validator?_eq_some hvalidator
  have hshifts := shifts_of_settle hfee hsettle
  rw [hdue] at hshifts
  have hother (text : String) (hrequester : text ≠ (ViewKey.node setting.operation.requester).text)
      (hshared : text ≠ (ViewKey.node validator).text) : result.view text = draft.view text := by
    refine hshifts.other text fun key hkey ↦ ?_
    simp only [List.mem_cons, List.not_mem_nil, or_false] at hkey
    rcases hkey with rfl | rfl
    · exact hrequester
    · exact hshared
  refine ⟨?_, ⟨fun other hfound hne ↦ ?_, fun a ha hnot ↦ ?_⟩, hother⟩
  · obtain ⟨balance, hpaid, hbalance⟩ := hshifts.exists_balance h.requester
    simp only [Flow.settlement, if_true] at hbalance
    refine ⟨balance, hpaid, ?_⟩
    rw [hbalance, if_neg fun hboth ↦ hboth.2 hboth.1.symm, Nat.add_zero]
  · cases hsome.symm.trans hfound
    obtain ⟨balance, hpaid, hbalance⟩ := hshifts.exists_balance hholder
    simp only [Flow.settlement, if_neg hne, true_and, if_pos hne, Nat.add_zero] at hbalance
    exact ⟨holder, balance, hknown hne, hpaid, hbalance⟩
  · have htext (b : Address) (hb : a ≠ b) : (ViewKey.node a).text ≠ (ViewKey.node b).text :=
      fun heq ↦ hb (ViewKey.node.inj (ViewKey.text_inj.mp heq))
    have hsame : result.view.read (.node a) = draft.view.read (.node a) :=
      congrArg (Except.mapError ViewError.store)
        (hother _ (htext _ ha) (htext _ fun heq ↦ hnot (heq ▸ hsome)))
    exact (View.readAs_congr hsame _).trans (h.others a ha)

end Readies

end Setting

/-! ### After a run -/

/-- A setting belongs to an operation that is delivered after a run of an engine: the state before
it has every invariant of a run. -/
structure Setting.Reached (setting : Setting) (engine : Engine) (bootstrap : WritingKey)
    (base : View) : Prop where
  config : setting.config = engine.config
  suite : setting.suite = engine.suite
  bootstrap : setting.bootstrap = bootstrap
  opened : base.initializing = .ok setting.initializing
  legible : base.Legible
  leveled : base.Leveled
  members : base.MembersStand setting.bootstrap setting.members

/-- An operation that passes every check but those of its rule is judged after a run, and the rule
decides. -/
theorem Replica.exists_reached {engine : Engine} {bootstrap : WritingKey} {txValidity : Hash}
    {events : List ReplicaEvent} {batch : List Delivery} {delivery : Delivery} {op : Operation}
    (h : (((fresh engine bootstrap txValidity).run events).apply batch).1.Admits delivery op) :
    let replica := (fresh engine bootstrap txValidity).run events
    let before := (replica.apply batch).1
    ∃ initializing,
      (before.setting op delivery.log initializing).Reached engine bootstrap before.store.view ∧
        Decides ((before.setting op delivery.log initializing).rule { base := before.store.view })
          before (replica.apply (batch ++ [delivery])).1 delivery op (before.outcome delivery) := by
  intro replica before
  have hrun : (fresh engine bootstrap txValidity).run (events ++ [.batch batch]) = before :=
    run_batch _ events batch
  have hlegible : before.store.view.Legible := hrun ▸ legible_run engine bootstrap txValidity _
  obtain ⟨hengine, hbootstrap⟩ : before.engine = engine ∧ before.bootstrap = bootstrap :=
    hrun ▸ run_fixed _ _
  obtain ⟨initializing, hopen⟩ := hlegible.initializing
  refine ⟨initializing, ⟨congrArg Engine.config hengine, congrArg Engine.suite hengine, hbootstrap,
    hopen, hlegible, ?_, ?_⟩, h.decides hopen⟩
  · exact hrun ▸ leveled_run engine bootstrap txValidity _
  · have hstand : before.MembersStand := hrun ▸ membersStand_run engine bootstrap txValidity _
    exact hstand

end SettlementLedger
