import SettlementLedger.Proofs.BatchBoundaries
import SettlementLedger.Proofs.RuleSteps

/-!
# Runs of a replica

Since a call may be cut anywhere, a replica moves by single deliveries: a delivery that is applied
commits its effect, and a delivery that is skipped changes nothing (`Replica.apply_singleton_of_ok`,
`Replica.apply_singleton_of_error`). `Replica.Applied` collects what held of an operation that was
applied, and what every applied operation keeps holds after every call and after every list of
events (`Replica.apply_induction`, `Replica.run_induction`).
-/

set_option autoImplicit false
set_option relaxedAutoImplicit false

namespace SettlementLedger.Replica

/-! ### Single deliveries -/

/-- The operation that a delivery carries and its effect on a replica, if it is applied. -/
def effect (replica : Replica) (delivery : Delivery) : Except Refusal (Operation × Effect) :=
  match delivery.operation with
  | .error refusal => .error refusal
  | .ok op =>
    match op.transition replica.engine.suite replica.engine.config replica.context
      replica.store.view replica.members delivery with
    | .error refusal => .error refusal
    | .ok effect => .ok (op, effect)

/-- The outcome of a delivery on a replica. -/
def outcome (replica : Replica) (delivery : Delivery) : Outcome where
  identity := delivery.operation.toOption.map fun op ↦ (op.kind, op.tx)
  verdict :=
    match replica.effect delivery with
    | .error refusal => .skipped refusal
    | .ok _ => .applied

theorem effect_eq_ok {replica : Replica} {delivery : Delivery} {op : Operation}
    {effect : Effect} :
    replica.effect delivery = .ok (op, effect) ↔ delivery.operation = .ok op ∧
      op.transition replica.engine.suite replica.engine.config replica.context
        replica.store.view replica.members delivery = .ok effect := by
  unfold Replica.effect
  constructor
  · intro h
    split at h
    · cases h
    · rename_i found hop
      split at h
      · cases h
      · rename_i made hmade
        cases h
        exact ⟨hop, hmade⟩
  · rintro ⟨hop, hmade⟩
    simp only [hop, hmade]

/-- The engine takes the first delivery of a call as the replica says. -/
theorem step_start (replica : Replica) (delivery : Delivery) :
    replica.engine.step replica.context (replica.start .empty) delivery =
      ((replica.start .empty).absorb
        (match replica.effect delivery with
          | .error _ => .none
          | .ok (_, effect) => effect), replica.outcome delivery) := by
  unfold Engine.step outcome Replica.effect
  cases delivery.operation with
  | error refusal => exact congrArg (·, _) (Progress.absorb_none _).symm
  | ok op =>
    have hsame : replica.engine.effect replica.context (replica.start .empty) delivery op =
        op.transition replica.engine.suite replica.engine.config replica.context
          replica.store.view replica.members delivery := rfl
    simp only [hsame]
    cases op.transition replica.engine.suite replica.engine.config replica.context
      replica.store.view replica.members delivery with
    | error refusal => exact congrArg (·, _) (Progress.absorb_none _).symm
    | ok made => rfl

/-- An applied delivery commits its effect. -/
theorem apply_singleton_of_ok {replica : Replica} {delivery : Delivery} {op : Operation}
    {effect : Effect} (h : replica.effect delivery = .ok (op, effect)) :
    replica.apply [delivery] =
      (replica.commit effect.writes effect.changes,
        ⟨[replica.outcome delivery], effect.changes⟩) := by
  have hrun : replica.engine.run replica.context (replica.start .empty) [delivery] =
      ((replica.start .empty).absorb effect, [replica.outcome delivery]) := by
    simp only [Engine.run, step_start, h]
  rw [apply_eq_applyOnto, applyOnto_of_run hrun, SortedMap.empty_merge]

/-- A skipped delivery changes nothing. -/
theorem apply_singleton_of_error {replica : Replica} {delivery : Delivery} {refusal : Refusal}
    (h : replica.effect delivery = .error refusal) :
    replica.apply [delivery] = (replica, ⟨[replica.outcome delivery], []⟩) := by
  have hrun : replica.engine.run replica.context (replica.start .empty) [delivery] =
      ((replica.start .empty).absorb .none, [replica.outcome delivery]) := by
    simp only [Engine.run, step_start, h]
  rw [apply_eq_applyOnto, applyOnto_of_run hrun, SortedMap.empty_merge]
  rfl

/-! ### Outcomes -/

theorem outcome_of_ok {replica : Replica} {delivery : Delivery} {op : Operation} {effect : Effect}
    (h : replica.effect delivery = .ok (op, effect)) :
    replica.outcome delivery = ⟨some (op.kind, op.tx), .applied⟩ := by
  simp only [outcome, h, (effect_eq_ok.mp h).1]
  rfl

theorem outcome_of_error {replica : Replica} {delivery : Delivery} {refusal : Refusal}
    (h : replica.effect delivery = .error refusal) :
    replica.outcome delivery = ⟨(replica.outcome delivery).identity, .skipped refusal⟩ := by
  simp only [outcome, h]

/-! ### The last delivery of a call -/

theorem apply_concat_of_ok {replica : Replica} {batch : List Delivery} {delivery : Delivery}
    {op : Operation} {effect : Effect}
    (h : (replica.apply batch).1.effect delivery = .ok (op, effect)) :
    replica.apply (batch ++ [delivery]) =
      ((replica.apply batch).1.commit effect.writes effect.changes,
        ⟨(replica.apply batch).2.outcomes ++ [⟨some (op.kind, op.tx), .applied⟩],
          (replica.apply batch).2.diff ++ effect.changes⟩) := by
  rw [apply_append, apply_singleton_of_ok h, outcome_of_ok h]
  rfl

theorem apply_concat_of_error {replica : Replica} {batch : List Delivery} {delivery : Delivery}
    {refusal : Refusal} (h : (replica.apply batch).1.effect delivery = .error refusal) :
    ∃ identity, replica.apply (batch ++ [delivery]) =
      ((replica.apply batch).1,
        ⟨(replica.apply batch).2.outcomes ++ [⟨identity, .skipped refusal⟩],
          (replica.apply batch).2.diff⟩) := by
  refine ⟨((replica.apply batch).1.outcome delivery).identity, ?_⟩
  rw [apply_append, apply_singleton_of_error h, outcome_of_error h]
  simp only [Report.append, List.append_nil]

/-- The last delivery of a call is reported as its outcome on what the others left. -/
theorem outcomes_concat (replica : Replica) (batch : List Delivery) (delivery : Delivery) :
    (replica.apply (batch ++ [delivery])).2.outcomes =
      (replica.apply batch).2.outcomes ++ [(replica.apply batch).1.outcome delivery] := by
  cases heffect : (replica.apply batch).1.effect delivery with
  | error refusal => rw [apply_append, apply_singleton_of_error heffect]; rfl
  | ok made => rw [apply_append, apply_singleton_of_ok heffect]; rfl

theorem outcome_applied_iff {replica : Replica} {delivery : Delivery} {op : Operation}
    (h : delivery.operation = .ok op) : (replica.outcome delivery).verdict = .applied ↔
      ∃ effect, replica.effect delivery = .ok (op, effect) := by
  cases heffect : replica.effect delivery with
  | error refusal => simp [outcome, heffect]
  | ok made =>
    obtain ⟨found, effect⟩ := made
    cases h.symm.trans (effect_eq_ok.mp heffect).1
    simp [outcome, heffect]

/-! ### Applied operations -/

/-- The setting in which a replica judges an operation. -/
def setting (replica : Replica) (op : Operation) (log : WritingKey) (initializing : Bool) :
    Setting :=
  op.setting replica.engine.suite replica.engine.config replica.context replica.members log
    initializing

/-- A delivery is applied: what held of its operation, and the draft that its rule left. -/
structure Applied (replica : Replica) (delivery : Delivery) (op : Operation) (effect : Effect)
    (initializing : Bool) (draft : Draft) : Prop where
  carried : delivery.operation = .ok op
  authentic : op.authenticate replica.engine.suite = .ok ()
  initializing_eq : replica.store.view.initializing = .ok initializing
  fresh : replica.store.view.isApplied op.tx = .ok false
  current : op.txValidity = replica.txValidity
  rule : (replica.setting op delivery.log initializing).rule { base := replica.store.view } =
    .ok draft
  writes : effect.writes = (draft.put (.applied op.tx) delivery.bytes).staged
  changes : effect.changes = draft.changes

theorem applied_of_effect {replica : Replica} {delivery : Delivery} {op : Operation}
    {effect : Effect} (h : replica.effect delivery = .ok (op, effect)) :
    ∃ initializing draft, replica.Applied delivery op effect initializing draft := by
  obtain ⟨hcarried, htransition⟩ := effect_eq_ok.mp h
  obtain ⟨hauthentic, initializing, hinitializing, hfresh, hcurrent, draft, hrule, rfl⟩ :=
    Operation.transition_eq_ok.mp htransition
  exact ⟨initializing, draft, hcarried, hauthentic, hinitializing, hfresh, hcurrent, hrule, rfl,
    rfl⟩

/-- Where the last delivery of a call is reported as applied, it had an effect on what the others
left. -/
theorem effect_of_getLast {replica : Replica} {batch : List Delivery} {delivery : Delivery}
    {kind : Kind} {tx : Hash}
    (h : (replica.apply (batch ++ [delivery])).2.outcomes.getLast? =
      some ⟨some (kind, tx), .applied⟩) :
    ∃ op effect, (replica.apply batch).1.effect delivery = .ok (op, effect) ∧ op.kind = kind ∧
      op.tx = tx := by
  cases heffect : (replica.apply batch).1.effect delivery with
  | error refusal =>
    obtain ⟨identity, happly⟩ := apply_concat_of_error heffect
    rw [happly, List.getLast?_concat] at h
    cases h
  | ok made =>
    obtain ⟨op, effect⟩ := made
    rw [apply_concat_of_ok heffect, List.getLast?_concat, Option.some.injEq, Outcome.mk.injEq,
      Option.some.injEq, Prod.mk.injEq] at h
    exact ⟨op, effect, rfl, h.1⟩

/-- Where the last delivery of a call is reported as applied, its operation was applied to what the
others left. -/
theorem applied_of_getLast {replica : Replica} {batch : List Delivery} {delivery : Delivery}
    {kind : Kind} {tx : Hash}
    (h : (replica.apply (batch ++ [delivery])).2.outcomes.getLast? =
      some ⟨some (kind, tx), .applied⟩) :
    ∃ op effect initializing draft,
      (replica.apply batch).1.Applied delivery op effect initializing draft ∧ op.kind = kind ∧
        (replica.apply (batch ++ [delivery])).1 =
          (replica.apply batch).1.commit effect.writes effect.changes := by
  obtain ⟨op, effect, heffect, hkind, -⟩ := effect_of_getLast h
  obtain ⟨initializing, draft, happlied⟩ := applied_of_effect heffect
  exact ⟨op, effect, initializing, draft, happlied, hkind, by rw [apply_concat_of_ok heffect]⟩

/-- The store after an applied operation reads as its draft with the replay marker. -/
theorem Applied.view {replica : Replica} {delivery : Delivery} {op : Operation} {effect : Effect}
    {initializing : Bool} {draft : Draft}
    (h : replica.Applied delivery op effect initializing draft) :
    (replica.commit effect.writes effect.changes).store.view =
      (draft.put (.applied op.tx) delivery.bytes).view := by
  have hbase : draft.base = replica.store.view := Setting.base_of_rule h.rule
  rw [commit, Store.view_commit, h.writes, Draft.view, Draft.base_put, hbase]

/-! ### Admitted operations -/

/-- A delivery carries an operation that passes every check but those of its rule. -/
structure Admits (replica : Replica) (delivery : Delivery) (op : Operation) : Prop where
  carried : delivery.operation = .ok op
  authentic : op.authenticate replica.engine.suite = .ok ()
  fresh : replica.store.view.isApplied op.tx = .ok false
  current : op.txValidity = replica.txValidity

/-- What is applied was admitted. -/
theorem Applied.admits {replica : Replica} {delivery : Delivery} {op : Operation} {effect : Effect}
    {initializing : Bool} {draft : Draft}
    (h : replica.Applied delivery op effect initializing draft) : replica.Admits delivery op :=
  ⟨h.carried, h.authentic, h.fresh, h.current⟩

/-- An admitted operation is applied if and only if its rule succeeds. -/
theorem Admits.exists_effect_iff {replica : Replica} {delivery : Delivery} {op : Operation}
    (h : replica.Admits delivery op) {initializing : Bool}
    (hopen : replica.store.view.initializing = .ok initializing) :
    (∃ effect, replica.effect delivery = .ok (op, effect)) ↔
      ∃ draft, (replica.setting op delivery.log initializing).rule
        { base := replica.store.view } = .ok draft := by
  constructor
  · rintro ⟨effect, heffect⟩
    obtain ⟨found, draft, happlied⟩ := applied_of_effect heffect
    cases hopen.symm.trans happlied.initializing_eq
    exact ⟨draft, happlied.rule⟩
  · rintro ⟨draft, hrule⟩
    exact ⟨_, effect_eq_ok.mpr ⟨h.carried, Operation.transition_eq_ok.mpr
      ⟨h.authentic, initializing, hopen, h.fresh, h.current, draft, hrule, rfl⟩⟩⟩

/-- How the last delivery of a call ends whose operation is judged: it is applied if and only if the
rule succeeds. The draft of the rule is then committed with the replay marker, and otherwise nothing
changes. -/
structure Decides (judged : Except Refusal Draft) (before after : Replica) (delivery : Delivery)
    (op : Operation) (outcome : Outcome) : Prop where
  applied_iff : outcome.verdict = .applied ↔ ∃ draft, judged = .ok draft
  view : ∀ draft, judged = .ok draft →
    after.store.view = (draft.put (.applied op.tx) delivery.bytes).view
  members : ∀ draft, judged = .ok draft → after.members = before.members.applyAll draft.changes
  skipped : outcome.verdict ≠ .applied → after = before

namespace Decides

variable {judged : Except Refusal Draft} {before after : Replica} {delivery : Delivery}
  {op : Operation} {outcome : Outcome} {draft : Draft}

/-- The node records are those of the draft. -/
theorem node_eq (h : Decides judged before after delivery op outcome) (hjudged : judged = .ok draft)
    (a : Address) : after.store.view.node a = draft.view.node a := by
  rw [h.view draft hjudged, Draft.node_put _ (by simp)]

/-- The marker of an applied operation holds its bytes as they were delivered. -/
theorem get?_marker (h : Decides judged before after delivery op outcome)
    (hjudged : judged = .ok draft) :
    after.store.get? (ViewKey.applied op.tx).text = some delivery.bytes := by
  have hread : after.store.view.read (.applied op.tx) = .ok (some delivery.bytes) := by
    rw [h.view draft hjudged, Draft.read_put, if_pos rfl]
  exact Except.ok.inj (mapError_eq_ok.mp hread)

/-- What the draft has not written is as it was, the marker aside. -/
theorem get?_eq (h : Decides judged before after delivery op outcome) (hjudged : judged = .ok draft)
    {text : String} (hmarker : text ≠ (ViewKey.applied op.tx).text)
    (hsame : draft.view text = before.store.view text) :
    after.store.get? text = before.store.get? text := by
  have hview : after.store.view text = before.store.view text := by
    rw [h.view draft hjudged, Draft.view_put_of_ne _ hmarker, hsame]
  exact Except.ok.inj hview

end Decides

/-- The rule of an admitted operation decides how it ends a call. -/
theorem Admits.decides {replica : Replica} {batch : List Delivery} {delivery : Delivery}
    {op : Operation} (h : (replica.apply batch).1.Admits delivery op) {initializing : Bool}
    (hopen : (replica.apply batch).1.store.view.initializing = .ok initializing) :
    let before := (replica.apply batch).1
    Decides ((before.setting op delivery.log initializing).rule { base := before.store.view })
      before (replica.apply (batch ++ [delivery])).1 delivery op (before.outcome delivery) := by
  intro before
  have hruled (draft : Draft) (hrule : (before.setting op delivery.log initializing).rule
      { base := before.store.view } = .ok draft) :
      ∃ effect, before.Applied delivery op effect initializing draft ∧
        (replica.apply (batch ++ [delivery])).1 = before.commit effect.writes effect.changes := by
    obtain ⟨effect, heffect⟩ := (h.exists_effect_iff hopen).mpr ⟨draft, hrule⟩
    obtain ⟨found, made, happlied⟩ := applied_of_effect heffect
    cases hopen.symm.trans happlied.initializing_eq
    cases hrule.symm.trans happlied.rule
    exact ⟨effect, happlied, congrArg Prod.fst (apply_concat_of_ok heffect)⟩
  refine ⟨(outcome_applied_iff h.carried).trans (h.exists_effect_iff hopen), ?_, ?_, ?_⟩
  · intro draft hrule
    obtain ⟨effect, happlied, hafter⟩ := hruled draft hrule
    rw [hafter, happlied.view]
  · intro draft hrule
    obtain ⟨effect, happlied, hafter⟩ := hruled draft hrule
    rw [hafter, commit, happlied.changes]
  · intro hskipped
    cases heffect : before.effect delivery with
    | error refusal =>
      obtain ⟨identity, happly⟩ := apply_concat_of_error heffect
      rw [happly]
    | ok made =>
      obtain ⟨found, effect⟩ := made
      cases h.carried.symm.trans (effect_eq_ok.mp heffect).1
      exact absurd ((outcome_applied_iff h.carried).mpr ⟨effect, heffect⟩) hskipped

/-! ### Induction -/

/-- What every applied operation keeps is kept by a call. -/
theorem apply_induction {P : Replica → Prop}
    (applied : ∀ replica delivery op effect, P replica →
      replica.effect delivery = .ok (op, effect) → P (replica.commit effect.writes effect.changes))
    (replica : Replica) (h : P replica) (deliveries : List Delivery) :
    P (replica.apply deliveries).1 := by
  induction deliveries generalizing replica with
  | nil => exact h
  | cons delivery rest ih =>
    rw [← List.singleton_append, apply_append]
    cases heffect : replica.effect delivery with
    | error refusal =>
      rw [apply_singleton_of_error heffect]
      exact ih replica h
    | ok made =>
      rw [apply_singleton_of_ok heffect]
      exact ih _ (applied replica delivery made.1 made.2 h heffect)

/-- What every applied operation and every move of the membership sequence keep is kept by a
run. -/
theorem run_induction {P : Replica → Prop}
    (moved : ∀ replica digest, P replica → P (replica.withTxValidity digest))
    (applied : ∀ replica delivery op effect, P replica →
      replica.effect delivery = .ok (op, effect) → P (replica.commit effect.writes effect.changes))
    (replica : Replica) (h : P replica) (events : List ReplicaEvent) : P (replica.run events) := by
  induction events generalizing replica with
  | nil => exact h
  | cons event rest ih =>
    cases event with
    | batch deliveries => exact ih _ (apply_induction applied replica h deliveries)
    | txValidity digest => exact ih _ (moved replica digest h)

theorem run_append (replica : Replica) (first second : List ReplicaEvent) :
    replica.run (first ++ second) = (replica.run first).run second :=
  List.foldl_append

/-- The state after a part of a batch is reached by a run of its own. -/
theorem run_batch (replica : Replica) (events : List ReplicaEvent) (batch : List Delivery) :
    replica.run (events ++ [.batch batch]) = ((replica.run events).apply batch).1 :=
  run_append replica events [.batch batch]

/-- The engine and the bootstrap key of a replica never change. -/
theorem run_fixed (replica : Replica) (events : List ReplicaEvent) :
    (replica.run events).engine = replica.engine ∧
      (replica.run events).bootstrap = replica.bootstrap :=
  run_induction (P := fun r ↦ r.engine = replica.engine ∧ r.bootstrap = replica.bootstrap)
    (fun _ _ h ↦ h) (fun _ _ _ _ h _ ↦ h) replica ⟨rfl, rfl⟩ events

end SettlementLedger.Replica
