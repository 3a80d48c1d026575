import SettlementLedger.Proofs.Enlistment
import SettlementLedger.Proofs.Footprint
import SettlementLedger.Proofs.Standing

/-!
# Independent operations commute

Transfers and transactions of subnetworks write the node records of the participants they concern
and their replay markers (`Operation.Touches`). They look at more than that: at the administrator,
the initialization flag, the registry and the deployments (`Operation.Consults`). Over two views
that agree in what an operation consults, every step of its rule goes the same way (`Draft.rebase`),
so that it has the same effect or is refused for the same cause (`Operation.transition_of_agrees`).

If two operations concern nobody in common, neither touches what the other consults
(`Operation.Independent.not_touches`). Each of them therefore has the outcome that it has without
the other, and their writes may be merged in either order (`Effect.Within.andThen_comm`).
-/

set_option autoImplicit false
set_option relaxedAutoImplicit false

namespace SettlementLedger

/-! ### Footprints -/

namespace Operation

/-- The entries that a transfer or a transaction may write. -/
def Touches (op : Operation) : ViewKey → Prop
  | .node a => op.Concerns a
  | .applied tx => tx = op.tx
  | _ => False

/-- The entries that a transfer or a transaction may read: of the node records and of the replay
markers only those it may write. -/
def Consults (op : Operation) : ViewKey → Prop
  | .node a => op.Concerns a
  | .applied tx => tx = op.tx
  | _ => True

/-- Those an operation concerns: the requester, the participant that the operation names, which is
the recipient of a transfer, and the validator. -/
def participants (op : Operation) : List Address :=
  op.requester :: (op.body.subject?.toList ++ op.validator?.toList)

theorem mem_participants {op : Operation} {a : Address} : a ∈ op.participants ↔ op.Concerns a := by
  simp only [participants, Concerns, List.mem_cons, List.mem_append, Option.mem_toList]

/-- Two operations have different hashes and concern nobody in common. -/
structure Independent (op op' : Operation) : Prop where
  tx : op.tx ≠ op'.tx
  participants : ∀ a ∈ op.participants, a ∉ op'.participants

namespace Independent

variable {op op' : Operation}

theorem symm (h : op.Independent op') : op'.Independent op where
  tx := h.tx.symm
  participants a ha hother := h.participants a hother ha

/-- Neither touches what the other consults. -/
theorem not_touches (h : op.Independent op') {key : ViewKey} (hconsults : op.Consults key) :
    ¬ op'.Touches key := by
  intro htouches
  cases key with
  | node a =>
    exact h.participants a (mem_participants.mpr hconsults) (mem_participants.mpr htouches)
  | applied tx => exact h.tx (hconsults.symm.trans htouches)
  | admin | initialization | writersLength | licenseCount | writerOwner _ | writerAt _
  | licenseOwner _ | deployment _ => exact htouches

end Independent

theorem Touches.consults {op : Operation} {key : ViewKey} (h : op.Touches key) :
    op.Consults key := by
  cases key with
  | node a | applied tx => exact h
  | admin | initialization | writersLength | licenseCount | writerOwner _ | writerAt _
  | licenseOwner _ | deployment _ => exact h.elim

end Operation

/-! ### Agreement -/

/-- Two views answer the reads of some entries alike. -/
def View.AgreesOn (first second : View) (keys : ViewKey → Prop) : Prop :=
  ∀ key, keys key → second.read key = first.read key

/-- Two computations that share a step go the same way up to a map if they do after it. -/
theorem bind_eq_map_bind {ε α β : Type} {x : Except ε α} {next next' : α → Except ε β} {r : β → β}
    (h : ∀ a, x = .ok a → next' a = (next a).map r) : x >>= next' = (x >>= next).map r := by
  cases x with
  | error cause => rfl
  | ok a => exact h a rfl

theorem map_bind {ε α β : Type} (x : Except ε α) (r : α → α) (next : α → Except ε β) :
    x.map r >>= next = x >>= fun a ↦ next (r a) := by
  cases x <;> rfl

namespace Draft

/-- The writes of a draft over another view. -/
def rebase (draft : Draft) (base : View) : Draft := { draft with base }

variable {draft : Draft} {other : View} {keys : ViewKey → Prop}

/-- What two views answer alike is answered alike through the same writes. -/
theorem read_rebase (h : draft.base.AgreesOn other keys) {key : ViewKey} (hkey : keys key) :
    (draft.rebase other).view.read key = draft.view.read key := by
  have hread : other.read key = draft.base.read key := h key hkey
  simp only [View.read, view, WriteSet.onto, rebase] at hread ⊢
  cases draft.staged.get? key.text with
  | none => exact hread
  | some value => rfl

theorem node_rebase (h : draft.base.AgreesOn other keys) {a : Address} (ha : keys (.node a)) :
    (draft.rebase other).node a = draft.node a :=
  congrArg answered (View.readAs_congr (read_rebase h ha) _)

theorem existingNode_rebase (h : draft.base.AgreesOn other keys) {a : Address}
    (ha : keys (.node a)) (missing : Rejection) :
    (draft.rebase other).existingNode a missing = draft.existingNode a missing := by
  rw [existingNode, existingNode, node_rebase h ha]

theorem isAdmin_rebase (h : draft.base.AgreesOn other keys) (hadmin : keys .admin) (a : Address) :
    (draft.rebase other).isAdmin a = draft.isAdmin a := by
  have hsame : (draft.rebase other).admin = draft.admin :=
    congrArg answered (View.readAs_congr (read_rebase h hadmin) _)
  rw [isAdmin, isAdmin, hsame]

end Draft

/-! ### The rules -/

namespace Setting

variable {setting : Setting} {draft : Draft} {other : View}

/-- Whose fee is waived depends on the administrator only. -/
theorem feeFor_rebase (h : draft.base.AgreesOn other setting.operation.Consults) (payer : Address)
    (policy : FeePolicy) :
    setting.feeFor (draft.rebase other) payer policy = setting.feeFor draft payer policy := by
  cases policy with
  | charged => rfl
  | adminWaivable => simp only [feeFor, Draft.isAdmin_rebase h trivial]

/-- The validator is looked up in its own record and in the registry. -/
theorem validator_rebase (h : draft.base.AgreesOn other setting.operation.Consults) :
    setting.validator (draft.rebase other) = setting.validator draft := by
  unfold validator
  cases hcosignature : setting.operation.cosignature with
  | none => rfl
  | some cosignature =>
    have hconcerns : setting.operation.Concerns cosignature.validator :=
      Or.inr (Or.inr (by rw [Operation.validator?, hcosignature, Option.map_some]))
    have howner : (draft.rebase other).view.writerOwner setting.log =
        draft.view.writerOwner setting.log :=
      View.readAs_congr (Draft.read_rebase h (by trivial)) _
    simp only [demand, bind, Except.bind, Draft.node_rebase h hconcerns, howner]

theorem reward_rebase (h : draft.base.AgreesOn other setting.operation.Consults) (payer : Address)
    (fee : Amount) {validator? : Option Address}
    (hvalidator : ∀ validator ∈ validator?, setting.operation.Concerns validator) :
    setting.reward (draft.rebase other) payer fee validator? =
      (setting.reward draft payer fee validator?).map (·.rebase other) := by
  cases validator? with
  | none => rfl
  | some validator =>
    have hconcerns : setting.operation.Concerns validator := hvalidator validator rfl
    by_cases hself : validator = payer
    · simp only [reward, if_pos hself]
      rfl
    simp only [reward, if_neg hself, Draft.existingNode_rebase h hconcerns]
    refine bind_eq_map_bind fun share _ ↦ ?_
    refine bind_eq_map_bind fun node _ ↦ ?_
    exact bind_eq_map_bind fun balance _ ↦ rfl

theorem settle_rebase (h : draft.base.AgreesOn other setting.operation.Consults) {payer : Address}
    (hpayer : setting.operation.Concerns payer) (policy : FeePolicy) {validator? : Option Address}
    (hvalidator : ∀ validator ∈ validator?, setting.operation.Concerns validator) :
    setting.settle (draft.rebase other) payer policy validator? =
      (setting.settle draft payer policy validator?).map (·.rebase other) := by
  simp only [settle, feeFor_rebase h]
  refine bind_eq_map_bind fun fee _ ↦ ?_
  by_cases hfee : fee.isZero
  · simp only [if_pos hfee]
    rfl
  simp only [if_neg hfee, Draft.existingNode_rebase h hpayer]
  refine bind_eq_map_bind fun node _ ↦ ?_
  refine bind_eq_map_bind fun balance _ ↦ ?_
  have hpaid : (draft.putNode payer { node with balance }).base.AgreesOn other
      setting.operation.Consults := h
  exact reward_rebase hpaid payer fee hvalidator

/-- The fee of an operation that a validator has cosigned. -/
theorem sharedFee_rebase (h : draft.base.AgreesOn other setting.operation.Consults) {start : Draft}
    {validator : Address} (hvalidator : setting.validator start = .ok validator)
    (policy : FeePolicy) :
    setting.settle (draft.rebase other) setting.operation.requester policy (some validator) =
      (setting.settle draft setting.operation.requester policy (some validator)).map
        (·.rebase other) := by
  refine settle_rebase h setting.operation.concerns_requester policy fun a ha ↦ ?_
  cases ha
  exact concerns_validator hvalidator

theorem transfer_rebase (h : draft.base.AgreesOn other setting.operation.Consults)
    {recipient : Address} (hrecipient : setting.operation.Concerns recipient) (amount : Amount) :
    setting.transfer (draft.rebase other) recipient amount =
      (setting.transfer draft recipient amount).map (·.rebase other) := by
  have hrequester := setting.operation.concerns_requester
  simp only [transfer, Draft.existingNode_rebase h hrequester, feeFor_rebase h, validator_rebase h]
  refine bind_eq_map_bind fun node _ ↦ ?_
  refine bind_eq_map_bind fun fee _ ↦ ?_
  refine bind_eq_map_bind fun required _ ↦ ?_
  refine bind_eq_map_bind fun _ _ ↦ ?_
  refine bind_eq_map_bind fun validator hvalidator ↦ ?_
  refine bind_eq_map_bind fun debited _ ↦ ?_
  let paid := draft.putNode setting.operation.requester { node with balance := debited }
  have hpaid : paid.base.AgreesOn other setting.operation.Consults := h
  show (paid.rebase other).node recipient >>= _ = (paid.node recipient >>= _).map _
  rw [Draft.node_rebase hpaid hrecipient]
  refine bind_eq_map_bind fun credited? _ ↦ ?_
  refine bind_eq_map_bind fun balance _ ↦ ?_
  let received := paid.putNode recipient { credited?.getD {} with balance }
  have hreceived : received.base.AgreesOn other setting.operation.Consults := h
  exact sharedFee_rebase hreceived hvalidator _

theorem requireFeeAndValidator_rebase
    (h : draft.base.AgreesOn other setting.operation.Consults) :
    setting.requireFeeAndValidator (draft.rebase other) =
      setting.requireFeeAndValidator draft := by
  simp only [requireFeeAndValidator, feeFor_rebase h, validator_rebase h,
    Draft.existingNode_rebase h setting.operation.concerns_requester]

theorem transaction_rebase (h : draft.base.AgreesOn other setting.operation.Consults)
    (external ledger : WritingKey) :
    setting.transaction (draft.rebase other) external ledger =
      (setting.transaction draft external ledger).map (·.rebase other) := by
  have hdeployment : (draft.rebase other).view.deployment external =
      draft.view.deployment external :=
    View.readAs_congr (Draft.read_rebase h (by trivial)) _
  simp only [transaction, hdeployment, requireFeeAndValidator_rebase h]
  refine bind_eq_map_bind fun _ _ ↦ ?_
  refine bind_eq_map_bind fun _ _ ↦ ?_
  refine bind_eq_map_bind fun _ _ ↦ ?_
  refine bind_eq_map_bind fun validator hvalidator ↦ ?_
  exact sharedFee_rebase h (validator_of_requireFeeAndValidator hvalidator) _

/-- A rule goes the same way over two views that agree in what its operation consults. -/
theorem rule_rebase (hkind : setting.operation.kind ∈ [Kind.transfer, Kind.transaction])
    (h : draft.base.AgreesOn other setting.operation.Consults) :
    setting.rule (draft.rebase other) = (setting.rule draft).map (·.rebase other) := by
  simp only [List.mem_cons, List.not_mem_nil, or_false] at hkind
  rcases hkind with hkind | hkind
  · cases hbody : setting.operation.body with
    | transfer recipient amount =>
      have hrecipient : setting.operation.Concerns recipient :=
        concerns_subject (by rw [hbody]; rfl)
      simp only [rule, hkind, hbody]
      exact transfer_rebase h hrecipient amount
    | _ =>
      simp only [rule, hkind, hbody]
      rfl
  · cases hbody : setting.operation.body with
    | transaction writer content external ledger =>
      simp only [rule, hkind, hbody]
      exact transaction_rebase h external ledger
    | _ =>
      simp only [rule, hkind, hbody]
      rfl

end Setting

/-- An operation has the same effect over two views that agree in what it consults, or is refused
for the same cause. -/
theorem Operation.transition_of_agrees {op : Operation}
    (hkind : op.kind ∈ [Kind.transfer, Kind.transaction]) {first second : View}
    (h : first.AgreesOn second op.Consults) (suite : Suite) (config : Config) (context : Context)
    (members : Membership) (delivery : Delivery) :
    op.transition suite config context second members delivery =
      op.transition suite config context first members delivery := by
  have hinitializing : second.initializing = first.initializing := by
    rw [View.initializing, View.initializing, View.readAs_congr (h .initialization trivial)]
  have happlied : second.isApplied op.tx = first.isApplied op.tx := by
    simp only [View.isApplied, View.appliedOperation, h (.applied op.tx) rfl]
  have hrule (initializing : Bool) :
      (op.setting suite config context members delivery.log initializing).rule { base := second } =
        ((op.setting suite config context members delivery.log initializing).rule
          { base := first }).map (·.rebase second) := by
    let start : Draft := { base := first }
    have hstart : start.base.AgreesOn second op.Consults := h
    have hsetting : (op.setting suite config context members delivery.log initializing).operation =
        op := rfl
    rw [← hsetting] at hkind hstart
    exact Setting.rule_rebase hkind hstart
  simp only [Operation.setting] at hrule
  simp only [transition, hinitializing, happlied, hrule, map_bind]
  rfl

/-! ### What is written -/

/-- Outside some entries the second draft has staged what the first one has. -/
def Draft.StagesWithin (keys : ViewKey → Prop) (before after : Draft) : Prop :=
  ∀ text, (∀ key, keys key → text ≠ key.text) → after.staged.get? text = before.staged.get? text

namespace Draft.StagesWithin

variable {keys : ViewKey → Prop} {before middle after : Draft}

theorem refl (draft : Draft) : draft.StagesWithin keys draft := fun _ _ ↦ rfl

theorem trans (h : before.StagesWithin keys middle) (h' : middle.StagesWithin keys after) :
    before.StagesWithin keys after :=
  fun text htext ↦ (h' text htext).trans (h text htext)

theorem put (draft : Draft) {key : ViewKey} (h : keys key) (value : Bytes) :
    draft.StagesWithin keys (draft.put key value) := fun text htext ↦ by
  rw [Draft.put, Draft.stage, SortedMap.get?_insert, if_neg (htext key h)]

end Draft.StagesWithin

namespace Setting

variable {setting : Setting} {draft result : Draft}

theorem stagesWithin_putNode (draft : Draft) {a : Address} (h : setting.operation.Concerns a)
    (node : NodeRecord) :
    draft.StagesWithin setting.operation.Touches (draft.putNode a node) :=
  .put draft h node.encode

theorem stagesWithin_of_sharedFee {validator : Address} {start : Draft} {policy : FeePolicy}
    (hvalidator : setting.validator start = .ok validator)
    (h : setting.settle draft setting.operation.requester policy (some validator) = .ok result) :
    draft.StagesWithin setting.operation.Touches result := by
  have hrequester := setting.operation.concerns_requester
  obtain ⟨fee, -, ⟨-, rfl⟩ | ⟨-, node, -, balance, -, hreward⟩⟩ := settle_eq_ok.mp h
  · exact .refl _
  have hdebit := stagesWithin_putNode draft hrequester { node with balance }
  rcases reward_eq_ok.mp hreward with ⟨-, rfl⟩ | ⟨found, hsome, -, share, -, record, -,
    credited, -, rfl⟩
  · exact hdebit
  cases hsome
  exact hdebit.trans (stagesWithin_putNode _ (concerns_validator hvalidator) _)

theorem stagesWithin_of_transfer {recipient : Address} {amount : Amount}
    (hrecipient : setting.operation.Concerns recipient)
    (h : setting.transfer draft recipient amount = .ok result) :
    draft.StagesWithin setting.operation.Touches result := by
  obtain ⟨node, -, fee, -, required, -, -, validator, hvalidator, debited, -, credited?, -,
    balance, -, hsettle⟩ := transfer_eq_ok.mp h
  exact (stagesWithin_putNode draft setting.operation.concerns_requester _).trans
    ((stagesWithin_putNode _ hrecipient _).trans (stagesWithin_of_sharedFee hvalidator hsettle))

/-- The rule of a transfer or a transaction stages what its operation may touch, and asks for no
membership change. -/
theorem stagesWithin_of_rule (hkind : setting.operation.kind ∈ [Kind.transfer, Kind.transaction])
    (h : setting.rule draft = .ok result) :
    draft.StagesWithin setting.operation.Touches result ∧ result.changes = draft.changes := by
  have hruling := ruling_of_rule h
  simp only [List.mem_cons, List.not_mem_nil, or_false] at hkind
  cases hruling with
  | transfer recipient amount kind body ok =>
    have hrecipient : setting.operation.Concerns recipient :=
      concerns_subject (by rw [body]; rfl)
    exact ⟨stagesWithin_of_transfer hrecipient ok, (movesBalances_of_transfer ok).changes⟩
  | transaction writer content external ledger kind body ok =>
    obtain ⟨-, -, validator, hvalidator, hsettle⟩ := transaction_eq_ok.mp ok
    exact ⟨stagesWithin_of_sharedFee (validator_of_requireFeeAndValidator hvalidator) hsettle,
      (movesBalances_of_transaction ok).changes⟩
  | _ => simp_all

end Setting

/-! ### Effects within a footprint -/

/-- An effect writes only some entries and changes no membership. -/
structure Effect.Within (effect : Effect) (keys : ViewKey → Prop) : Prop where
  writes : ∀ text, (∀ key, keys key → text ≠ key.text) → effect.writes.get? text = .none
  changes : effect.changes = []

theorem Effect.within_none (keys : ViewKey → Prop) : Effect.none.Within keys where
  writes _ _ := rfl
  changes := rfl

theorem Operation.within_of_transition {op : Operation}
    (hkind : op.kind ∈ [Kind.transfer, Kind.transaction]) {suite : Suite} {config : Config}
    {context : Context} {base : View} {members : Membership} {delivery : Delivery}
    {effect : Effect} (h : op.transition suite config context base members delivery = .ok effect) :
    effect.Within op.Touches := by
  obtain ⟨-, initializing, -, -, -, draft, hrule, rfl⟩ := Operation.transition_eq_ok.mp h
  obtain ⟨hstages, hchanges⟩ := Setting.stagesWithin_of_rule hkind hrule
  have htouches : op.Touches (.applied op.tx) := rfl
  have hmarker := Draft.StagesWithin.put draft htouches delivery.bytes
  exact ⟨hstages.trans hmarker, hchanges⟩

namespace Effect.Within

variable {first second : Effect} {keys keys' : ViewKey → Prop}

/-- Effects that write different entries may be joined in either order. -/
theorem andThen_comm (h : first.Within keys) (h' : second.Within keys')
    (hdisjoint : ∀ key, keys key → ¬ keys' key) : first.andThen second = second.andThen first := by
  have hwrites : first.writes.merge second.writes = second.writes.merge first.writes := by
    ext text : 1
    rw [SortedMap.get?_merge, SortedMap.get?_merge]
    by_cases htext : ∃ key, keys key ∧ text = key.text
    · obtain ⟨key, hkey, rfl⟩ := htext
      have hnone : second.writes.get? key.text = .none :=
        h'.writes _ fun other hother hsame ↦
          hdisjoint key hkey (ViewKey.text_injective hsame ▸ hother)
      rw [hnone, Option.none_or, Option.or_none]
    · have hnone : first.writes.get? text = .none :=
        h.writes text fun key hkey hsame ↦ htext ⟨key, hkey, hsame⟩
      rw [hnone, Option.none_or, Option.or_none]
  simp only [Effect.andThen, hwrites, h.changes, h'.changes]

end Effect.Within

namespace Progress

variable {progress : Progress} {first second : Effect} {keys keys' : ViewKey → Prop}

/-- What an operation that consults some entries sees of the progress is the same. -/
structure AgreesOn (first second : Progress) (keys : ViewKey → Prop) : Prop where
  view : first.batch.view.AgreesOn second.batch.view keys
  members : second.members = first.members

theorem AgreesOn.refl (progress : Progress) (keys : ViewKey → Prop) :
    progress.AgreesOn progress keys :=
  ⟨fun _ _ ↦ rfl, rfl⟩

/-- An effect is not seen by those who consult other entries. -/
theorem agreesOn_absorb (h : first.Within keys) (hdisjoint : ∀ key, keys' key → ¬ keys key) :
    progress.AgreesOn (progress.absorb first) keys' where
  view key hkey := by
    have hnone : first.writes.get? key.text = none :=
      h.writes _ fun other hother hsame ↦
        hdisjoint key hkey (ViewKey.text_injective hsame ▸ hother)
    show (progress.batch.merge first.writes).view.read key = _
    simp only [Batch.view_merge, View.read, WriteSet.onto, hnone]
  members := by rw [absorb, h.changes]; rfl

end Progress

/-! ### The engine -/

namespace Engine

variable (engine : Engine) (context : Context) (progress : Progress) {first second : Delivery}
  {op op' : Operation}

/-- A transfer or a transaction adds one and the same effect to all progresses that agree in what it
consults. -/
theorem exists_effect {delivery : Delivery} (hcarried : delivery.operation = .ok op)
    (hkind : op.kind ∈ [Kind.transfer, Kind.transaction]) :
    ∃ effect outcome, effect.Within op.Touches ∧
      ∀ progress', progress.AgreesOn progress' op.Consults →
        engine.step context progress' delivery = (progress'.absorb effect, outcome) := by
  have hsame {progress' : Progress} (h : progress.AgreesOn progress' op.Consults) :
      engine.effect context progress' delivery op = engine.effect context progress delivery op := by
    rw [Engine.effect, Engine.effect, h.members]
    exact Operation.transition_of_agrees hkind h.view _ _ _ _ _
  cases heffect : engine.effect context progress delivery op with
  | error refusal =>
    refine ⟨.none, ⟨some (op.kind, op.tx), .skipped refusal⟩, Effect.within_none _,
      fun progress' h ↦ ?_⟩
    simp only [step, hcarried, hsame h, heffect, Progress.absorb_none]
  | ok effect =>
    refine ⟨effect, ⟨some (op.kind, op.tx), .applied⟩, Operation.within_of_transition hkind heffect,
      fun progress' h ↦ ?_⟩
    simp only [step, hcarried, hsame h, heffect]

/-- Independent operations lead to one and the same progress in either order, and each has the
outcome that it has without the other. -/
theorem exists_joined (hfirst : first.operation = .ok op) (hsecond : second.operation = .ok op')
    (hkind : op.kind ∈ [Kind.transfer, Kind.transaction])
    (hkind' : op'.kind ∈ [Kind.transfer, Kind.transaction]) (h : op.Independent op') :
    ∃ joined outcome outcome', joined.diff = progress.diff ∧
      (engine.step context progress first).2 = outcome ∧
      (engine.step context progress second).2 = outcome' ∧
      engine.step context (engine.step context progress first).1 second = (joined, outcome') ∧
      engine.step context (engine.step context progress second).1 first = (joined, outcome) := by
  obtain ⟨effect, outcome, hwithin, hstep⟩ :=
    engine.exists_effect context progress hfirst hkind
  obtain ⟨effect', outcome', hwithin', hstep'⟩ :=
    engine.exists_effect context progress hsecond hkind'
  have hcomm : effect.andThen effect' = effect'.andThen effect :=
    hwithin.andThen_comm hwithin' fun key hkey ↦ h.not_touches hkey.consults
  refine ⟨progress.absorb (effect.andThen effect'), outcome, outcome', ?_, ?_, ?_, ?_, ?_⟩
  · simp only [Progress.absorb, Effect.andThen, hwithin.changes, hwithin'.changes, List.append_nil]
  · rw [hstep progress (.refl _ _)]
  · rw [hstep' progress (.refl _ _)]
  · rw [hstep progress (.refl _ _), Progress.absorb_andThen]
    exact hstep' _ (Progress.agreesOn_absorb hwithin fun key ↦ h.symm.not_touches)
  · rw [hstep' progress (.refl _ _), hcomm, Progress.absorb_andThen]
    exact hstep _ (Progress.agreesOn_absorb hwithin' fun key ↦ h.not_touches)

/-- A call that goes on after some deliveries. -/
theorem apply_append (batch : Batch) (earlier deliveries : List Delivery) :
    engine.apply batch context (earlier ++ deliveries) =
      let middle := engine.run context { batch, members := context.members } earlier
      let final := engine.run context middle.1 deliveries
      (final.1.batch, ⟨middle.2 ++ final.2, final.1.diff⟩) := by
  simp only [apply, run_append]

/-- **Independent value operations commute.** Two deliveries carry transfers or transactions of
subnetworks with different hashes, and nobody is requester, recipient or validator in both of them.
Whatever the base view, the pending writes, the context and the deliveries around them are, the two
may be exchanged: each of them is applied in both orders, or is refused for the same cause in both,
as it is without the other. The pending writes are the same, and neither of them asks for a
membership change. So whatever follows them in the call goes the same way, too. -/
theorem independent_operations_commute (engine : Engine) (batch : Batch) (context : Context)
    (earlier later : List Delivery) {first second : Delivery} {op op' : Operation}
    (hfirst : first.operation = .ok op) (hsecond : second.operation = .ok op')
    (hkind : op.kind ∈ [Kind.transfer, Kind.transaction])
    (hkind' : op'.kind ∈ [Kind.transfer, Kind.transaction]) (hindependent : op.Independent op') :
    let before := (engine.apply batch context earlier).2
    ∃ middle outcome outcome',
      (engine.apply batch context (earlier ++ [first])).2.outcomes =
          before.outcomes ++ [outcome] ∧
        (engine.apply batch context (earlier ++ [second])).2.outcomes =
          before.outcomes ++ [outcome'] ∧
        engine.apply batch context (earlier ++ [first, second]) =
          (middle, ⟨before.outcomes ++ [outcome, outcome'], before.diff⟩) ∧
        engine.apply batch context (earlier ++ [second, first]) =
          (middle, ⟨before.outcomes ++ [outcome', outcome], before.diff⟩) ∧
        ∃ after rest diff,
          engine.apply batch context (earlier ++ first :: second :: later) =
            (after, ⟨before.outcomes ++ outcome :: outcome' :: rest, diff⟩) ∧
          engine.apply batch context (earlier ++ second :: first :: later) =
            (after, ⟨before.outcomes ++ outcome' :: outcome :: rest, diff⟩) := by
  intro before
  let start : Progress := { batch, members := context.members }
  let progress := (engine.run context start earlier).1
  obtain ⟨joined, outcome, outcome', hdiff, houtcome, houtcome', hjoined, hswapped⟩ :=
    engine.exists_joined context progress hfirst hsecond hkind hkind' hindependent
  have happly (deliveries : List Delivery) :
      engine.apply batch context (earlier ++ deliveries) =
        ((engine.run context progress deliveries).1.batch,
          ⟨before.outcomes ++ (engine.run context progress deliveries).2,
            (engine.run context progress deliveries).1.diff⟩) :=
    engine.apply_append context batch earlier deliveries
  have hrun (deliveries : List Delivery) :
      engine.run context progress (first :: second :: deliveries) =
        ((engine.run context joined deliveries).1,
          outcome :: outcome' :: (engine.run context joined deliveries).2) := by
    simp only [run, houtcome, hjoined]
  have hrun' (deliveries : List Delivery) :
      engine.run context progress (second :: first :: deliveries) =
        ((engine.run context joined deliveries).1,
          outcome' :: outcome :: (engine.run context joined deliveries).2) := by
    simp only [run, houtcome', hswapped]
  have hbefore : before.diff = joined.diff := hdiff.symm
  let final := engine.run context joined later
  refine ⟨joined.batch, outcome, outcome', ?_, ?_, ?_, ?_, final.1.batch, final.2, final.1.diff,
    ?_, ?_⟩
  · rw [happly, ← houtcome]
    rfl
  · rw [happly, ← houtcome']
    rfl
  · rw [happly, hrun, hbefore]
    rfl
  · rw [happly, hrun', hbefore]
    rfl
  · rw [happly, hrun]
  · rw [happly, hrun']

end Engine

/-! ### Two payments on two logs -/

namespace ZeroFounding

/-- The second participant is a writer beside the administrator, the third and the fourth one have
three tokens, and an external bootstrap key is registered. -/
def market : List Delivery :=
  candidacy ++ [enlisted,
    deliver .zero .balanceInitialization (.balanceInitialization (participant 3) (.whole 3)) 1 7,
    deliver .zero .balanceInitialization (.balanceInitialization (participant 4) (.whole 3)) 1 8,
    deliver .zero .bootstrapDeployment (.bootstrapDeployment (repeated 9) .zero) 3 9 (some 1)]

/-- The third participant sends a token to the fifth one. The administrator cosigns this. -/
def gift : Operation where
  kind := .transfer
  requester := participant 3
  tx := Message.requesterHash suite .transfer (participant 3) .zero
    (.transfer (participant 5) (.whole 1)) (repeated 10)
  txValidity := .zero
  nonce := repeated 10
  signature := .zero
  body := .transfer (participant 5) (.whole 1)
  cosignature := some { validator := participant 1, nonce := repeated 10, signature := .zero }

/-- The fourth participant settles a transaction of the subnetwork. The second one cosigns this. -/
def trade : Operation where
  kind := .transaction
  requester := participant 4
  tx := Message.requesterHash suite .transaction (participant 4) .zero
    (.transaction (repeated 8) .zero (repeated 9) .zero) (repeated 11)
  txValidity := .zero
  nonce := repeated 11
  signature := .zero
  body := .transaction (repeated 8) .zero (repeated 9) .zero
  cosignature := some { validator := participant 2, nonce := repeated 11, signature := .zero }

/-- The gift on the log of the administrator. -/
def given : Delivery := ⟨.zero, gift.toRaw.serialize⟩

/-- The trade on the log of the other writer. -/
def traded : Delivery := ⟨repeated 2, trade.toRaw.serialize⟩

theorem given_and_traded :
    (chargingBlank.preview (market ++ [given, traded])).2.outcomes.reverse.take 2 =
      [⟨some (.transaction, trade.tx), .applied⟩, ⟨some (.transfer, gift.tx), .applied⟩] := by
  decide +kernel

/-- A transfer and a transaction are both applied in either order. -/
theorem gift_and_trade_commute :
    given.operation = .ok gift ∧ traded.operation = .ok trade ∧
      gift.kind ∈ [Kind.transfer, Kind.transaction] ∧
      trade.kind ∈ [Kind.transfer, Kind.transaction] ∧ gift.Independent trade ∧
      ∃ middle outcomes diff,
        chargingBlank.preview (market ++ [given, traded]) =
          (middle, ⟨outcomes ++ [⟨some (.transfer, gift.tx), .applied⟩,
            ⟨some (.transaction, trade.tx), .applied⟩], diff⟩) ∧
        chargingBlank.preview (market ++ [traded, given]) =
          (middle, ⟨outcomes ++ [⟨some (.transaction, trade.tx), .applied⟩,
            ⟨some (.transfer, gift.tx), .applied⟩], diff⟩) := by
  have hgift : given.operation = .ok gift :=
    Delivery.operation_of_wellFormed ⟨rfl, fun _ ↦ rfl⟩ rfl
  have htrade : traded.operation = .ok trade :=
    Delivery.operation_of_wellFormed ⟨rfl, fun _ ↦ rfl⟩ rfl
  have hkind : gift.kind ∈ [Kind.transfer, Kind.transaction] := by decide
  have hkind' : trade.kind ∈ [Kind.transfer, Kind.transaction] := by decide
  have hindependent : gift.Independent trade := ⟨by decide +kernel, by decide +kernel⟩
  obtain ⟨middle, outcome, outcome', -, -, hordered, hswapped, -⟩ :=
    Engine.independent_operations_commute charging { base := chargingBlank.store.view }
      chargingBlank.context market [] hgift htrade hkind hkind' hindependent
  have happlied := given_and_traded
  have hpreview : chargingBlank.preview (market ++ [given, traded]) = (middle, _) := hordered
  rw [hpreview, List.reverse_append] at happlied
  obtain ⟨rfl, rfl⟩ : outcome' = _ ∧ outcome = _ := by simpa using happlied
  exact ⟨hgift, htrade, hkind, hkind', hindependent, middle, _, _, hordered, hswapped⟩

end ZeroFounding

end SettlementLedger
