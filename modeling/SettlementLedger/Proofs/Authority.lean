import SettlementLedger.Engine
import SettlementLedger.Proofs.RuleSteps
import SettlementLedger.Proofs.SchemaFacts

/-!
# Nothing is applied without its authority

`Kind.isAdminOnly` and `Kind.requiresCosignature` say what authority a kind needs, and no rule reads
them: every rule makes its own checks in its own order. `Operation.Entitled` states what the two
functions promise, together with what the registration and the recovery of the administrator need in
addition, and every rule is shown to keep the promise of its kind (`Setting.entitled_of_rule`). With
what is checked before the rule this is the authority of an applied operation
(`Operation.Authorized`), in every state that a batch may be in, reachable or not.
-/

set_option autoImplicit false
set_option relaxedAutoImplicit false

namespace SettlementLedger

/-! ### What a kind needs -/

namespace Operation

/-- A validator stands behind an operation: its cosignature holds, it is a writer whose writing key
is the log of the delivery, and the registry binds that log to it. -/
def Cosigned (op : Operation) (suite : Suite) (log : WritingKey) (view : View) : Prop :=
  ∃ cosignature, op.cosignature = some cosignature ∧ suite.isKey cosignature.validator.key ∧
    suite.verify cosignature.validator.key
      (Message.validatorHash suite op.tx cosignature.validator cosignature.nonce).bytes
      cosignature.signature ∧
    (∃ node, view.node cosignature.validator = .ok (some node) ∧ node.role.isWriter ∧
      node.writingKey = log) ∧
    view.writerOwner log = .ok (some cosignature.validator)

/-- An operation has the authority that its kind needs. -/
structure Entitled (op : Operation) (suite : Suite) (bootstrap log : WritingKey) (view : View) :
    Prop where
  registers : op.kind = .addAdmin →
    view.admin = .ok none ∧ log = bootstrap ∧ op.body = .coreAdmin bootstrap
  administers : op.kind.isAdminOnly → view.admin = .ok (some ⟨op.requester, log⟩)
  cosigned : op.kind.requiresCosignature → op.Cosigned suite log view
  recovers : op.kind = .adminRecovery → ∃ key, view.admin = .ok (some ⟨op.requester, key⟩)

end Operation

namespace Setting

/-- The operation of a setting has the authority that its kind needs. -/
def Entitled (setting : Setting) (view : View) : Prop :=
  setting.operation.Entitled setting.suite setting.bootstrap setting.log view

variable {setting : Setting} {base : View} {result : Draft}

theorem cosigned_of_validator {validator : Address}
    (h : setting.validator { base } = .ok validator) :
    setting.operation.Cosigned setting.suite setting.log base := by
  obtain ⟨cosignature, hcosignature, rfl, hkey, hverify, hnode, howner⟩ := validator_eq_ok.mp h
  exact ⟨cosignature, hcosignature, hkey, hverify, hnode, howner⟩

theorem admin_of_requireAdmin {admin : AdminRecord}
    (h : setting.requireAdmin { base } = .ok admin) :
    base.admin = .ok (some ⟨setting.operation.requester, setting.log⟩) := by
  obtain ⟨hadmin, hrequester, hlog⟩ := requireAdmin_eq_ok.mp h
  rw [hrequester, hlog]
  exact hadmin

/-- The rules that ask for the administrator. -/
theorem entitled_of_requireAdmin {admin : AdminRecord}
    (hkind : setting.operation.kind.isAdminOnly)
    (h : setting.requireAdmin { base } = .ok admin) : setting.Entitled base where
  registers kind := by
    rw [kind] at hkind
    cases hkind
  administers _ := admin_of_requireAdmin h
  cosigned hrequires := by
    rw [Kind.requiresCosignature_of_isAdminOnly hkind] at hrequires
    cases hrequires
  recovers kind := by
    rw [kind] at hkind
    cases hkind

/-- The rules that ask for a validator. -/
theorem entitled_of_validator {validator : Address}
    (hkind : setting.operation.kind.requiresCosignature)
    (h : setting.validator { base } = .ok validator)
    (hrecovers : setting.operation.kind = .adminRecovery →
      ∃ key, base.admin = .ok (some ⟨setting.operation.requester, key⟩)) :
    setting.Entitled base where
  registers kind := by
    rw [kind] at hkind
    cases hkind
  administers hadminOnly := by
    rw [Kind.requiresCosignature_of_isAdminOnly hadminOnly] at hkind
    cases hkind
  cosigned _ := cosigned_of_validator h
  recovers := hrecovers

/-- The registration of the administrator. -/
theorem entitled_of_addAdmin {key : WritingKey} (kind : setting.operation.kind = .addAdmin)
    (body : setting.operation.body = .coreAdmin key)
    (h : setting.addAdmin { base } key = .ok result) : setting.Entitled base := by
  obtain ⟨hadmin, ⟨hlog, rfl⟩, -⟩ := addAdmin_eq_ok.mp h
  refine ⟨fun _ ↦ ⟨hadmin, hlog, body⟩, fun hadminOnly ↦ ?_, fun hrequires ↦ ?_, fun hkind ↦ ?_⟩
  · rw [kind] at hadminOnly
    cases hadminOnly
  · rw [kind] at hrequires
    cases hrequires
  · rw [kind] at hkind
    cases hkind

/-- A rule succeeds only for an operation that has the authority its kind needs. -/
theorem entitled_of_rule (h : setting.rule { base } = .ok result) : setting.Entitled base := by
  cases ruling_of_rule h with
  | addAdmin key kind body ok => exact entitled_of_addAdmin kind body ok
  | disableInitialization key kind body ok =>
    obtain ⟨admin, hadmin, -⟩ := disableInitialization_eq_ok.mp ok
    exact entitled_of_requireAdmin (by rw [kind]; rfl) hadmin
  | balanceInitialization target amount kind body ok =>
    obtain ⟨admin, hadmin, -⟩ := balanceInitialization_eq_ok.mp ok
    exact entitled_of_requireAdmin (by rw [kind]; rfl) hadmin
  | appendWhitelist target kind body ok =>
    obtain ⟨admin, hadmin, -⟩ := appendWhitelist_eq_ok.mp ok
    exact entitled_of_requireAdmin (by rw [kind]; rfl) hadmin
  | banValidator target kind body ok =>
    obtain ⟨admin, hadmin, -⟩ := banValidator_eq_ok.mp ok
    exact entitled_of_requireAdmin (by rw [kind]; rfl) hadmin
  | addIndexer target kind body ok =>
    obtain ⟨admin, hadmin, -⟩ := addIndexer_eq_ok.mp ok
    exact entitled_of_requireAdmin (by rw [kind]; rfl) hadmin
  | removeIndexer target kind body ok =>
    obtain ⟨admin, hadmin, -⟩ := removeIndexer_eq_ok.mp ok
    exact entitled_of_requireAdmin (by rw [kind]; rfl) hadmin
  | addWriter key kind body ok =>
    obtain ⟨node, -, -, -, -, fee, -, required, -, -, validator, hvalidator, -⟩ :=
      addWriter_eq_ok.mp ok
    exact entitled_of_validator (by rw [kind]; rfl) hvalidator (by simp [kind])
  | removeWriter key kind body ok =>
    obtain ⟨-, node, -, -, -, validator, hvalidator, -⟩ := removeWriter_eq_ok.mp ok
    exact entitled_of_validator (by rw [kind]; rfl) hvalidator (by simp [kind])
  | adminRecovery key kind body ok =>
    obtain ⟨admin, hadmin, hrequester, -, -, validator, hvalidator, -⟩ := adminRecovery_eq_ok.mp ok
    refine entitled_of_validator (by rw [kind]; rfl) hvalidator fun _ ↦ ⟨admin.writingKey, ?_⟩
    rw [hrequester]
    exact hadmin
  | transfer recipient amount kind body ok =>
    obtain ⟨node, -, fee, -, required, -, -, validator, hvalidator, -⟩ := transfer_eq_ok.mp ok
    exact entitled_of_validator (by rw [kind]; rfl) hvalidator (by simp [kind])
  | transaction writer content external ledger kind body ok =>
    obtain ⟨-, -, validator, hvalidator, -⟩ := transaction_eq_ok.mp ok
    have hvalidator := validator_of_requireFeeAndValidator hvalidator
    exact entitled_of_validator (by rw [kind]; rfl) hvalidator (by simp [kind])
  | bootstrapDeployment bootstrap channel kind body ok =>
    obtain ⟨-, -, validator, hvalidator, -⟩ := bootstrapDeployment_eq_ok.mp ok
    have hvalidator := validator_of_requireFeeAndValidator hvalidator
    exact entitled_of_validator (by rw [kind]; rfl) hvalidator (by simp [kind])

end Setting

/-! ### What every operation needs -/

theorem Operation.authenticate_eq_ok {op : Operation} {suite : Suite} {u : Unit} :
    op.authenticate suite = .ok u ↔ suite.isKey op.requester.key ∧
      op.computeHash suite = op.tx ∧
      suite.verify op.requester.key op.tx.bytes op.signature := by
  simp only [authenticate, bind_eq_ok, require_eq_ok, exists_const]

/-- Everything that stands behind an applied operation: it has the authority that its kind needs, it
claims the hash of its own content, its requester signed that hash, the hash was not applied before,
and it names the current membership sequence. -/
structure Operation.Authorized (op : Operation) (suite : Suite) (context : Context)
    (log : WritingKey) (view : View) : Prop
    extends op.Entitled suite context.bootstrap log view where
  hash : op.tx = Message.requesterHash suite op.kind op.requester op.txValidity op.body op.nonce
  key : suite.isKey op.requester.key
  signed : suite.verify op.requester.key op.tx.bytes op.signature
  fresh : view.appliedOperation op.tx = .ok none
  current : op.txValidity = context.txValidity

theorem Operation.authorized_of_transition {op : Operation} {suite : Suite} {config : Config}
    {context : Context} {base : View} {members : Membership} {delivery : Delivery}
    {effect : Effect}
    (h : op.transition suite config context base members delivery = .ok effect) :
    op.Authorized suite context delivery.log base := by
  obtain ⟨hauthentic, initializing, -, hnew, hcurrent, draft, hrule, -⟩ :=
    transition_eq_ok.mp h
  obtain ⟨hkey, hhash, hsigned⟩ := authenticate_eq_ok.mp hauthentic
  obtain ⟨bytes?, hread, hnone⟩ := View.isApplied_eq_ok.mp hnew
  rw [Option.isSome_eq_false_iff, Option.isNone_iff_eq_none] at hnone
  have hentitled := Setting.entitled_of_rule hrule
  exact ⟨hentitled, hhash.symm, hkey, hsigned, hnone ▸ hread, hcurrent⟩

/-- **Nothing is applied without its authority.** Whatever the store, the pending writes, the context
and the working membership set are, a delivery that is skipped leaves the progress of the batch as
it is, and a delivery that is applied carries an operation with everything that its kind needs
behind it. -/
theorem Engine.step_authorized (engine : Engine) (context : Context) (progress : Progress)
    (delivery : Delivery) :
    let (after, outcome) := engine.step context progress delivery
    match outcome.verdict with
    | .skipped _ => after = progress
    | .applied => ∃ op, delivery.operation = .ok op ∧ outcome.identity = some (op.kind, op.tx) ∧
        op.Authorized engine.suite context delivery.log progress.batch.view := by
  unfold step
  cases hcarried : delivery.operation with
  | error refusal => rfl
  | ok op =>
    cases heffect : engine.effect context progress delivery op with
    | error refusal => simp only [heffect]
    | ok effect =>
      simp only [heffect]
      exact ⟨op, rfl, rfl, Operation.authorized_of_transition heffect⟩

end SettlementLedger
