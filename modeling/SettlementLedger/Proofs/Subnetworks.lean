import SettlementLedger.Proofs.Deployments
import SettlementLedger.Proofs.SharedFees
import SettlementLedger.Proofs.Transfers

/-!
# Subnetworks settle exactly

A transaction and a deployment look at the registered deployments, stage nothing or a record, and
pay a fee. `Setting.Stages` is what they find and stage, and `Setting.rule_eq_ok_of_subnetwork`
takes both rules apart into that and the payment. The rules check that the requester can pay before
they look for a validator, and debit the fee when they settle; the check is the one that decides, in
every fee regime (`Setting.exists_payment_iff`).
-/

set_option autoImplicit false
set_option relaxedAutoImplicit false

namespace SettlementLedger

namespace Setting

variable {setting : Setting} {base : View} {staged result : Draft} {node : NodeRecord}
  {external : WritingKey}

/-! ### What is found and staged -/

/-- A subnetwork operation fits the registered deployments, and this is what it stages: a
transaction names this ledger and a deployed subnetwork, and a deployment a key that is free and is
not the ledger's own. -/
inductive Stages (setting : Setting) (base : View) : Draft → Prop
  | settles (external : WritingKey) (record : DeploymentRecord)
      (settles : setting.operation.Settles external setting.bootstrap)
      (deployed : base.deployment external = .ok (some record)) : Stages setting base { base }
  | deploys (external : WritingKey) (record : DeploymentRecord)
      (deploys : setting.operation.Deploys external record) (other : external ≠ setting.bootstrap)
      (free : base.deployment external = .ok none) :
      Stages setting base (Draft.put { base } (.deployment external) record.encode)

/-- Something is staged if and only if the operation fits the registered deployments. -/
theorem exists_stages_iff : (∃ staged, setting.Stages base staged) ↔
    (∃ external record, setting.operation.Settles external setting.bootstrap ∧
        base.deployment external = .ok (some record)) ∨
      ∃ external record, setting.operation.Deploys external record ∧
        external ≠ setting.bootstrap ∧ base.deployment external = .ok none := by
  constructor
  · rintro ⟨_, hstages⟩
    cases hstages with
    | settles external record settles deployed =>
      exact Or.inl ⟨external, record, settles, deployed⟩
    | deploys external record deploys other free =>
      exact Or.inr ⟨external, record, deploys, other, free⟩
  · rintro (⟨external, record, hsettles, hdeployed⟩ | ⟨external, record, hdeploys, hother, hfree⟩)
    · exact ⟨_, .settles external record hsettles hdeployed⟩
    · exact ⟨_, .deploys external record hdeploys hother hfree⟩

namespace Stages

theorem readies (h : setting.Stages base staged) (hlegible : base.Legible)
    (hnode : base.node setting.operation.requester = .ok (some node)) :
    setting.Readies base staged node := by
  cases h with
  | settles external record settles deployed => exact readies_base hlegible hnode
  | deploys external record deploys other free =>
    exact (readies_base hlegible hnode).put (by simp) (by simp) _

theorem changes (h : setting.Stages base staged) : staged.changes = [] := by
  cases h with
  | settles external record settles deployed => rfl
  | deploys external record deploys other free => rfl

/-- Only the record of a deployment is staged. -/
theorem view_eq (h : setting.Stages base staged) {text : String}
    (hnot : ∀ external record, setting.operation.Deploys external record →
      text ≠ (ViewKey.deployment external).text) : staged.view text = base text := by
  cases h with
  | settles external record settles deployed => rfl
  | deploys external record deploys other free =>
    exact Draft.view_put_of_ne _ (hnot external record deploys) _

end Stages

/-- Both rules, taken apart: what is staged, the check of fee and validator, and the payment. -/
theorem rule_eq_ok_of_subnetwork
    (hkind : setting.operation.kind ∈ [.transaction, .bootstrapDeployment]) :
    setting.rule { base } = .ok result ↔ ∃ staged, setting.Stages base staged ∧
      ∃ validator, setting.requireFeeAndValidator { base } = .ok validator ∧
        setting.settle staged setting.operation.requester .adminWaivable (some validator) =
          .ok result := by
  constructor
  · intro h
    cases ruling_of_rule h with
    | transaction writer content external ledger kind body ok =>
      obtain ⟨rfl, ⟨record, hrecord⟩, hpaid⟩ := transaction_eq_ok.mp ok
      exact ⟨_, .settles external record ⟨kind, writer, content, body⟩ hrecord, hpaid⟩
    | bootstrapDeployment external channel kind body ok =>
      obtain ⟨hother, hfree, hpaid⟩ := bootstrapDeployment_eq_ok.mp ok
      exact ⟨_, .deploys external _ ⟨kind, ⟨channel, body⟩, rfl⟩ hother hfree, hpaid⟩
    | addAdmin _ kind | disableInitialization _ kind | balanceInitialization _ _ kind
    | appendWhitelist _ kind | banValidator _ kind | addIndexer _ kind | removeIndexer _ kind
    | addWriter _ kind | removeWriter _ kind | adminRecovery _ kind | transfer _ _ kind =>
      simp [kind] at hkind
  · rintro ⟨staged, hstages, hpaid⟩
    cases hstages with
    | settles external record settles deployed =>
      obtain ⟨kind, writer, content, body⟩ := settles
      simp only [rule, kind, body]
      exact transaction_eq_ok.mpr ⟨rfl, ⟨record, deployed⟩, hpaid⟩
    | deploys external record deploys other free =>
      obtain ⟨kind, ⟨channel, body⟩, rfl⟩ := deploys
      simp only [rule, kind, body]
      exact bootstrapDeployment_eq_ok.mpr ⟨other, free, hpaid⟩

/-! ### The payment -/

/-- The requester can pay and the fee can be settled if and only if it has a record that covers the
fee and the validator can be given its share. -/
theorem exists_payment_iff (hlegible : base.Legible)
    (hopen : base.initializing = .ok setting.initializing) (hstages : setting.Stages base staged) :
    (∃ result validator, setting.requireFeeAndValidator { base } = .ok validator ∧
        setting.settle staged setting.operation.requester .adminWaivable (some validator) =
          .ok result) ↔
      (∃ node, base.node setting.operation.requester = .ok (some node) ∧
          base.due setting.config setting.operation.requester ≤ node.balance.raw) ∧
        setting.operation.Backed setting.suite setting.config setting.log base
          (base.due setting.config setting.operation.requester) := by
  constructor
  · rintro ⟨result, validator, hrequired, hsettle⟩
    obtain ⟨node, hnode, fee, -, -, hvalidator⟩ := requireFeeAndValidator_eq_ok.mp hrequired
    obtain ⟨hcovers, hbacked⟩ := ((hstages.readies hlegible hnode).exists_settle_iff hopen
      hvalidator).mp ⟨result, hsettle⟩
    exact ⟨⟨node, hnode, hcovers⟩, hbacked⟩
  · rintro ⟨⟨node, hnode, hcovers⟩, hbacked⟩
    obtain ⟨validator, hvalidator⟩ := exists_validator_iff.mpr hbacked.cosigned
    obtain ⟨result, hsettle⟩ := ((hstages.readies hlegible hnode).exists_settle_iff hopen
      hvalidator).mpr ⟨hcovers, hbacked⟩
    obtain ⟨admin?, hadmin⟩ := hlegible.admin
    obtain ⟨fee, hfee, hdue⟩ := exists_feeFor { base } hopen hadmin rfl setting.operation.requester
    have haffords : fee ≤ node.balance := by
      rw [← hdue] at hcovers
      exact hcovers
    exact ⟨result, validator,
      requireFeeAndValidator_eq_ok.mpr ⟨node, hnode, fee, hfee, haffords, hvalidator⟩, hsettle⟩

/-- A subnetwork operation succeeds if and only if it fits the registered deployments, its requester
can pay, and the validator can be given its share. -/
theorem exists_rule_iff_of_subnetwork (hlegible : base.Legible)
    (hopen : base.initializing = .ok setting.initializing)
    (hkind : setting.operation.kind ∈ [.transaction, .bootstrapDeployment]) :
    (∃ result, setting.rule { base } = .ok result) ↔
      ((∃ external record, setting.operation.Settles external setting.bootstrap ∧
            base.deployment external = .ok (some record)) ∨
          ∃ external record, setting.operation.Deploys external record ∧
            external ≠ setting.bootstrap ∧ base.deployment external = .ok none) ∧
        (∃ node, base.node setting.operation.requester = .ok (some node) ∧
          base.due setting.config setting.operation.requester ≤ node.balance.raw) ∧
        setting.operation.Backed setting.suite setting.config setting.log base
          (base.due setting.config setting.operation.requester) := by
  rw [← exists_stages_iff]
  constructor
  · rintro ⟨result, hrule⟩
    obtain ⟨staged, hstages, hpaid⟩ := (rule_eq_ok_of_subnetwork hkind).mp hrule
    exact ⟨⟨staged, hstages⟩, (exists_payment_iff hlegible hopen hstages).mp ⟨result, hpaid⟩⟩
  · rintro ⟨⟨staged, hstages⟩, hpayable⟩
    obtain ⟨result, hpaid⟩ := (exists_payment_iff hlegible hopen hstages).mpr hpayable
    exact ⟨result, (rule_eq_ok_of_subnetwork hkind).mpr ⟨staged, hstages, hpaid⟩⟩

/-- What a subnetwork operation leaves: the requester pays, the validator is rewarded, and nothing
else is written but the record of a deployment. -/
theorem settled_of_subnetwork (hlegible : base.Legible)
    (hopen : base.initializing = .ok setting.initializing)
    (hkind : setting.operation.kind ∈ [.transaction, .bootstrapDeployment])
    (h : setting.rule { base } = .ok result) :
    result.changes = [] ∧
      (∃ node balance, base.node setting.operation.requester = .ok (some node) ∧
        result.view.node setting.operation.requester = .ok (some { node with balance }) ∧
        balance.raw + base.due setting.config setting.operation.requester = node.balance.raw) ∧
      setting.operation.Rewards setting.config
        (base.due setting.config setting.operation.requester) base result.view ∧
      ∀ text, text ≠ (ViewKey.node setting.operation.requester).text →
        (∀ validator, setting.operation.validator? = some validator →
          text ≠ (ViewKey.node validator).text) →
        (∀ external record, setting.operation.Deploys external record →
          text ≠ (ViewKey.deployment external).text) → result.view text = base text := by
  obtain ⟨staged, hstages, validator, hrequired, hsettle⟩ :=
    (rule_eq_ok_of_subnetwork hkind).mp h
  obtain ⟨node, hnode, fee, -, -, hvalidator⟩ := requireFeeAndValidator_eq_ok.mp hrequired
  obtain ⟨⟨balance, hpaid, hbalance⟩, hrewards, hother⟩ :=
    (hstages.readies hlegible hnode).settled hopen hvalidator hsettle
  refine ⟨(movesBalances_of_settle hsettle).changes.trans hstages.changes,
    ⟨node, balance, hnode, hpaid, hbalance⟩, hrewards, fun text hrequester hshared hrecord ↦ ?_⟩
  rw [hother text hrequester (hshared validator (validator?_eq_some hvalidator))]
  exact hstages.view_eq hrecord

end Setting

namespace Replica

/-- **Subnetworks settle exactly.** After any run and any deliveries of the same call, a delivered
transaction or deployment that passes every check but those of its rule is applied if and only if it
fits the registered deployments, its requester has a record that covers the fee, its validator
passes its checks, and the validator's share, if there is a fee and the validator is somebody else,
can be computed and received. Then the requester pays exactly the fee and the validator receives
exactly its share; nothing else is written but the replay marker and, for a deployment, its record.
If it is not applied, nothing changes. -/
theorem subnetworks_settle_exactly (engine : Engine) (bootstrap : WritingKey) (txValidity : Hash)
    (events : List ReplicaEvent) (batch : List Delivery) (delivery : Delivery) {op : Operation}
    (hadmits : (((fresh engine bootstrap txValidity).run events).apply batch).1.Admits delivery op)
    (hkind : op.kind ∈ [.transaction, .bootstrapDeployment]) :
    let replica := (fresh engine bootstrap txValidity).run events
    let before := (replica.apply batch).1
    let after := (replica.apply (batch ++ [delivery])).1
    let requester := op.requester
    let fee := if before.store.view.initializesAs requester then 0 else engine.config.fee.raw
    ∃ outcome, (replica.apply (batch ++ [delivery])).2.outcomes =
        (replica.apply batch).2.outcomes ++ [outcome] ∧
      (outcome.verdict = .applied ↔
        ((∃ external record, op.Settles external bootstrap ∧
              before.store.view.deployment external = .ok (some record)) ∨
            ∃ external record, op.Deploys external record ∧ external ≠ bootstrap ∧
              before.store.view.deployment external = .ok none) ∧
          (∃ node, before.node requester = .ok (some node) ∧ fee ≤ node.balance.raw) ∧
          op.Backed engine.suite engine.config delivery.log before.store.view fee) ∧
      (outcome.verdict = .applied →
        (∃ node balance, before.node requester = .ok (some node) ∧
          after.node requester = .ok (some { node with balance }) ∧
          balance.raw + fee = node.balance.raw) ∧
        op.Rewards engine.config fee before.store.view after.store.view ∧
        (∀ external record, op.Deploys external record →
          after.store.view.deployment external = .ok (some record)) ∧
        after.store.get? (ViewKey.applied op.tx).text = some delivery.bytes ∧
        (∀ text, text ≠ (ViewKey.applied op.tx).text → text ≠ (ViewKey.node requester).text →
          (∀ validator, op.validator? = some validator → text ≠ (ViewKey.node validator).text) →
          (∀ external record, op.Deploys external record →
            text ≠ (ViewKey.deployment external).text) →
          after.store.get? text = before.store.get? text) ∧
        after.members = before.members) ∧
      (outcome.verdict ≠ .applied → after = before) := by
  intro replica before after requester fee
  obtain ⟨initializing, hreached, hdecides⟩ := exists_reached hadmits
  refine ⟨before.outcome delivery, outcomes_concat replica batch delivery, ?_, fun hverdict ↦ ?_,
    hdecides.skipped⟩
  · rw [hdecides.applied_iff, Setting.exists_rule_iff_of_subnetwork hreached.legible hreached.opened
      hkind, hreached.config, hreached.suite, hreached.bootstrap]
    exact Iff.rfl
  · obtain ⟨draft, hrule⟩ := hdecides.applied_iff.mp hverdict
    obtain ⟨hchanges, hpaid, hrewards, hother⟩ :=
      Setting.settled_of_subnetwork hreached.legible hreached.opened hkind hrule
    rw [hreached.config] at hpaid hrewards
    have hnode := hdecides.node_eq hrule
    refine ⟨?_, hrewards.congr hnode, fun external record hdeploys ↦ ?_, hdecides.get?_marker hrule,
      fun text hmarker hrequester hshared hrecord ↦
        hdecides.get?_eq hrule hmarker (hother text hrequester hshared hrecord), ?_⟩
    · obtain ⟨node, balance, hbefore, hafter, hbalance⟩ := hpaid
      exact ⟨node, balance, hbefore, (hnode requester).trans hafter, hbalance⟩
    · obtain ⟨-, -, hdeployed⟩ := Setting.deployment_of_deploys hrule hdeploys
      rw [hdecides.view draft hrule]
      exact (draft.readAs_put_of_ne (by simp) _ _).trans hdeployed
    · rw [hdecides.members draft hrule, hchanges]
      rfl

end Replica

/-! ### A deployment that is charged -/

namespace ZeroFounding

/-- A ledger with a fee of one token. -/
def charging : Engine where
  suite := suite
  config := { fee := .whole 1, writerStake := .whole 1 }
  config_valid := rfl

/-- The replica that charges, at the start. -/
def chargingBlank : Replica := (Replica.fresh charging .zero .zero).run []

/-- The first participant becomes the administrator under the zero key and gives the second one
three tokens. -/
def allowance : List Delivery :=
  [deliver .zero .addAdmin (.coreAdmin .zero) 1 1,
    deliver .zero .balanceInitialization (.balanceInitialization (participant 2) (.whole 3)) 1 2]

/-- The second participant registers an external bootstrap key. The administrator cosigns this. -/
def deployment : Operation where
  kind := .bootstrapDeployment
  requester := participant 2
  tx := Message.requesterHash suite .bootstrapDeployment (participant 2) .zero
    (.bootstrapDeployment (repeated 9) .zero) (repeated 3)
  txValidity := .zero
  nonce := repeated 3
  signature := .zero
  body := .bootstrapDeployment (repeated 9) .zero
  cosignature := some { validator := participant 1, nonce := repeated 3, signature := .zero }

/-- The deployment on the log of the administrator. -/
def deployed : Delivery := ⟨.zero, deployment.toRaw.serialize⟩

theorem deployment_applied :
    (chargingBlank.apply (allowance ++ [deployed])).2.outcomes.getLast? =
        some ⟨some (.bootstrapDeployment, deployment.tx), .applied⟩ ∧
      (chargingBlank.apply allowance).1.store.view.initializesAs deployment.requester = false := by
  decide +kernel

theorem admits_deployment : (chargingBlank.apply allowance).1.Admits deployed deployment :=
  Replica.admits_of_getLast ⟨rfl, fun _ ↦ rfl⟩ rfl deployment_applied.1

/-- The second participant pays a token for the registration, and the administrator receives three
quarters of it. -/
theorem deployment_settled :
    let before := (chargingBlank.apply allowance).1
    let after := (chargingBlank.apply (allowance ++ [deployed])).1
    before.Admits deployed deployment ∧ deployment.kind ∈ [.transaction, .bootstrapDeployment] ∧
      (∃ node balance, before.node (participant 2) = .ok (some node) ∧
        after.node (participant 2) = .ok (some { node with balance }) ∧
        balance.raw + (Amount.whole 1).raw = node.balance.raw) ∧
      (∃ node balance, before.store.view.node (participant 1) = .ok (some node) ∧
        after.store.view.node (participant 1) = .ok (some { node with balance }) ∧
        balance.raw = node.balance.raw + 750000000000000000) ∧
      after.store.view.deployment (repeated 9) = .ok (some ⟨participant 2, deployment.tx⟩) := by
  have hkind : deployment.kind ∈ [.transaction, .bootstrapDeployment] := by decide
  obtain ⟨outcome, houtcomes, -, hexact, -⟩ := Replica.subnetworks_settle_exactly charging .zero
    .zero [] allowance deployed admits_deployment hkind
  have happlied := deployment_applied
  rw [chargingBlank, houtcomes, List.getLast?_concat, Option.some_inj] at happlied
  obtain ⟨hlast, hcharged⟩ := happlied
  obtain ⟨⟨node, balance, hnode, hafter, hbalance⟩, hrewards, hrecord, -⟩ := hexact (by rw [hlast])
  obtain ⟨holder, credited, hholder, hreceived, hshare⟩ :=
    hrewards.validator (participant 1) rfl (by decide)
  rw [hcharged] at hbalance hshare
  have hdeployed := hrecord (repeated 9) _ ⟨rfl, ⟨_, rfl⟩, rfl⟩
  rw [← chargingBlank] at hnode hafter hholder hreceived hdeployed
  exact ⟨admits_deployment, hkind, ⟨node, balance, hnode, hafter, hbalance⟩,
    ⟨holder, credited, hholder, hreceived, hshare⟩, hdeployed⟩

end ZeroFounding

end SettlementLedger
