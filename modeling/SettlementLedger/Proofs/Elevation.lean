import SettlementLedger.Proofs.Enlistment
import SettlementLedger.Proofs.History

/-!
# Promotions and demotions undo each other

The administrator makes a writer an indexer and an indexer a writer. Both are one step taken up or
down (`Elevation`): the role of the target is rewritten, its key joins or leaves the membership set,
and the administrator pays the fee, also while it initializes the ledger. All that a step writes is
the record of the target, the record of the administrator, which may be the same, and the replay
marker (`Elevation.Moves`).

The step back asks for the opposite change of the same key. That the key is a member exactly while
the target is an indexer, which holds in reachable states only, is why the first of the two steps
does change the membership set, so that the second one restores it (`Elevation.contains_undone`).
-/

set_option autoImplicit false
set_option relaxedAutoImplicit false

namespace SettlementLedger

/-! ### The two steps -/

/-- A writer becomes an indexer, or an indexer becomes a writer. -/
inductive Elevation where
  | promotion
  | demotion

namespace Elevation

/-- The step back. -/
def reverse : Elevation → Elevation
  | promotion => demotion
  | demotion => promotion

/-- The kind of the operations that take the step. -/
def kind : Elevation → Kind
  | promotion => .addIndexer
  | demotion => .removeIndexer

/-- The role that the target gets. -/
def role : Elevation → Role
  | promotion => .indexer
  | demotion => .writer

/-- The membership change that the step asks for. -/
def change (step : Elevation) (key : WritingKey) : MembershipChange :=
  match step with
  | promotion => .add key
  | demotion => .remove key

variable {step : Elevation} {target payer : Address} {fee : Nat} {tx tx' : Hash}

/-- A key that joins although it was no member, or leaves although it was one, is put back. -/
theorem contains_undone {members : Membership} {key : WritingKey}
    (h : members.contains key ↔ step = demotion) (k : WritingKey) :
    ((members.applyAll [step.change key]).applyAll [step.reverse.change key]).contains k =
      members.contains k := by
  rw [Bool.eq_iff_iff]
  cases step with
  | promotion =>
    have habsent : ¬ members.contains key := fun hmember ↦ by cases h.mp hmember
    have hboth : ((members.apply (.add key)).apply (.remove key)).contains k ↔
        k ≠ key ∧ (k = key ∨ members.contains k) := by
      rw [Membership.contains_remove_iff, Membership.contains_add_iff]
    refine hboth.trans ⟨fun ⟨hne, hk⟩ ↦ hk.resolve_left hne, fun hk ↦ ⟨?_, Or.inr hk⟩⟩
    rintro rfl
    exact habsent hk
  | demotion =>
    have hmember : members.contains key := h.mpr rfl
    have hboth : ((members.apply (.remove key)).apply (.add key)).contains k ↔
        k = key ∨ (k ≠ key ∧ members.contains k) := by
      rw [Membership.contains_add_iff, Membership.contains_remove_iff]
    refine hboth.trans ⟨?_, fun hk ↦ (Decidable.em (k = key)).imp_right fun hne ↦ ⟨hne, hk⟩⟩
    rintro (rfl | ⟨-, hk⟩)
    · exact hmember
    · exact hk

/-! ### What a step writes -/

/-- The target has the role that the step gives and the payer has paid the fee. Nothing else of a
record has changed, and no entry besides these records but the replay marker. -/
structure Moves (step : Elevation) (target payer : Address) (fee : Nat) (tx : Hash)
    (before after : View) : Prop where
  node : ∀ a node, before.node a = .ok (some node) → ∃ balance : Amount,
    after.node a = .ok (some
      { node with role := if a = target then step.role else node.role, balance }) ∧
    balance.raw + (if a = payer then fee else 0) = node.balance.raw
  other : ∀ text, text ≠ (ViewKey.node target).text → text ≠ (ViewKey.node payer).text →
    text ≠ (ViewKey.applied tx).text → after text = before text

namespace Moves

variable {before middle after : View} {node : NodeRecord}

/-- The administrator stays who it is. -/
theorem admin (h : step.Moves target payer fee tx before after) : after.admin = before.admin := by
  have htext (key : ViewKey) (hkey : ViewKey.admin ≠ key) : ViewKey.admin.text ≠ key.text :=
    fun heq ↦ hkey (ViewKey.text_injective heq)
  have hsame : after.read .admin = before.read .admin := by
    rw [View.read, View.read,
      h.other _ (htext _ (by simp)) (htext _ (by simp)) (htext _ (by simp))]
  exact View.readAs_congr hsame _

/-- The target keeps its key. -/
theorem node_target (h : step.Moves target payer fee tx before after)
    (hnode : before.node target = .ok (some node)) : ∃ balance : Amount,
    after.node target = .ok (some { node with role := step.role, balance }) := by
  obtain ⟨balance, hafter, -⟩ := h.node target node hnode
  rw [if_pos rfl] at hafter
  exact ⟨balance, hafter⟩

/-- After a step and the step back every record is what it was, but for the two fees. -/
theorem undone (h : step.Moves target payer fee tx before middle)
    (h' : step.reverse.Moves target payer fee tx' middle after) {old : NodeRecord}
    (hold : before.node target = .ok (some old)) (hrole : old.role = step.reverse.role)
    {a : Address} (hnode : before.node a = .ok (some node)) :
    ∃ balance : Amount, after.node a = .ok (some { node with balance }) ∧
      balance.raw + (if a = payer then 2 * fee else 0) = node.balance.raw := by
  obtain ⟨paid, hmiddle, hpaid⟩ := h.node a node hnode
  obtain ⟨balance, hafter, hbalance⟩ := h'.node a _ hmiddle
  have hbalance : balance.raw + (if a = payer then fee else 0) = paid.raw := hbalance
  refine ⟨balance, ?_, ?_⟩
  · by_cases ha : a = target
    · rw [ha, hold] at hnode
      cases hnode
      rw [hafter, if_pos ha, ← hrole]
    · rw [hafter, if_neg ha, if_neg ha]
  · by_cases ha : a = payer
    · rw [if_pos ha] at hpaid hbalance ⊢
      omega
    · rw [if_neg ha] at hpaid hbalance ⊢
      omega

end Moves

end Elevation

namespace Setting

variable {setting : Setting} {base : View} {left result : Draft} {step : Elevation}
  {target payer : Address} {node : NodeRecord}

/-- What holds when a step is taken, and the draft before the fee: the target has the role that the
step back gives, and its key is a member exactly if that role is the indexer's. -/
theorem elevation_of_rule (h : setting.rule { base } = .ok result)
    (hstand : base.MembersStand setting.bootstrap setting.members)
    (hkind : setting.operation.kind = step.kind)
    (hbody : setting.operation.body = .adminControl target) :
    ∃ admin node, ∃ left : Draft,
      base.admin = .ok (some admin) ∧ base.node target = .ok (some node) ∧
      node.role = step.reverse.role ∧
      (setting.members.contains node.writingKey ↔ step = .demotion) ∧
      left.view = base ∧ left.changes = [step.change node.writingKey] ∧
      setting.settle (left.putNode target { node with role := step.role }) admin.address .charged
        none = .ok result := by
  cases step with
  | promotion =>
    have hkind : setting.operation.kind = .addIndexer := hkind
    simp only [rule, hkind, hbody] at h
    obtain ⟨admin, hadmin, node, hnode, hwriter, hindexer, joined, hjoined, hsettle⟩ :=
      addIndexer_eq_ok.mp h
    obtain ⟨habsent, rfl⟩ := Draft.addMember_eq_ok.mp hjoined
    have habsent : ¬ setting.members.contains node.writingKey := habsent
    exact ⟨admin, node, _, (requireAdmin_eq_ok.mp hadmin).1, hnode,
      Role.eq_writer_of_not_isIndexer hwriter hindexer, iff_of_false habsent (by simp), rfl, rfl,
      hsettle⟩
  | demotion =>
    have hkind : setting.operation.kind = .removeIndexer := hkind
    simp only [rule, hkind, hbody] at h
    obtain ⟨admin, hadmin, node, hnode, hindexer, left, hleft, hsettle⟩ :=
      removeIndexer_eq_ok.mp h
    have hmember : setting.members.contains node.writingKey :=
      Operation.StandingStep.contains_of_indexer hstand hnode hindexer
    obtain ⟨hview, hremoval⟩ := removal_of_removeMember hleft
    exact ⟨admin, node, left, (requireAdmin_eq_ok.mp hadmin).1, hnode,
      Role.isIndexer_iff.mp hindexer, iff_of_true hmember rfl, hview,
      (hremoval.of_contains hmember).2, hsettle⟩

/-- The record of the target is rewritten first, and the fee is taken then. -/
theorem moves_of_charge (hview : left.view = base) (hnode : base.node target = .ok (some node))
    (h : setting.settle (left.putNode target { node with role := step.role }) payer .charged none =
      .ok result) (tx : Hash) (bytes : Bytes) :
    step.Moves target payer setting.config.fee.raw tx base
      (result.put (.applied tx) bytes).view where
  node a record hrecord := by
    have hrecast : (left.putNode target { node with role := step.role }).view.node a = .ok (some
        { record with role := if a = target then step.role else record.role }) := by
      rw [Draft.node_putNode]
      by_cases ha : a = target
      · rw [ha, hnode] at hrecord
        cases hrecord
        rw [if_pos ha, if_pos ha]
      · rw [if_neg ha, if_neg ha, hview, hrecord]
    obtain ⟨balance, hafter, hbalance⟩ := (shifts_of_charge h).exists_balance hrecast
    rw [Draft.node_put _ (by simp)]
    refine ⟨balance, hafter, ?_⟩
    simpa only [Flow.single, ite_self, Nat.add_zero] using hbalance
  other text htarget hpayer hmarker := by
    have hcharged : ∀ key ∈ [ViewKey.node payer], text ≠ key.text := by simpa using hpayer
    rw [Draft.view_put_of_ne _ hmarker, (shifts_of_charge h).other text hcharged, Draft.putNode,
      Draft.view_put_of_ne _ htarget, hview]

end Setting

namespace Replica

variable {replica : Replica} {delivery : Delivery} {op : Operation} {effect : Effect}
  {initializing : Bool} {draft : Draft} {step : Elevation} {target : Address}

/-- What held when a step was applied, and what it has done. -/
theorem Applied.elevates (h : replica.Applied delivery op effect initializing draft)
    (hstand : replica.MembersStand) (hkind : op.kind = step.kind)
    (hbody : op.body = .adminControl target) :
    ∃ admin node, replica.store.view.admin = .ok (some admin) ∧
      replica.node target = .ok (some node) ∧ node.role = step.reverse.role ∧
      (replica.members.contains node.writingKey ↔ step = .demotion) ∧
      effect.changes = [step.change node.writingKey] ∧
      step.Moves target admin.address replica.engine.config.fee.raw op.tx replica.store.view
        (replica.commit effect.writes effect.changes).store.view := by
  obtain ⟨admin, node, left, hadmin, hnode, hrole, hmember, hview, hchanges, hsettle⟩ :=
    Setting.elevation_of_rule h.rule hstand hkind hbody
  refine ⟨admin, node, hadmin, hnode, hrole, hmember, ?_, ?_⟩
  · rw [h.changes, Setting.changes_of_settle hsettle, Draft.changes_putNode, hchanges]
  · rw [h.view]
    exact Setting.moves_of_charge hview hnode hsettle op.tx delivery.bytes

section TwoSteps

variable {before : Replica} {first second : Delivery} {op' : Operation} {effect' : Effect}
  {initializing' : Bool} {draft' : Draft} {digest : Hash}

/-- Two deliveries that are applied one after the other, with nothing but skipped deliveries and
moves of the membership sequence in between: the second one has its effect on what the first one
left, the membership sequence aside. -/
theorem consecutive_effects {replica : Replica} {batch idleBatch : List Delivery}
    {idle : List ReplicaEvent} {kind kind' : Kind} {tx tx' : Hash}
    (hfirst : first.operation = .ok op) (hsecond : second.operation = .ok op')
    (happliedFirst : (replica.apply (batch ++ [first])).2.outcomes.getLast? =
      some ⟨some (kind, tx), .applied⟩)
    (hidle : ∀ taken ∈ (replica.apply (batch ++ [first])).1.history idle ++
      ((replica.apply (batch ++ [first])).1.run idle).takes idleBatch, ¬ taken.isApplied)
    (happliedSecond :
      (((replica.apply (batch ++ [first])).1.run idle).apply
        (idleBatch ++ [second])).2.outcomes.getLast? = some ⟨some (kind', tx'), .applied⟩) :
    op.kind = kind ∧ op'.kind = kind' ∧ ∃ effect effect' digest,
      (replica.apply batch).1.effect first = .ok (op, effect) ∧
      (replica.apply (batch ++ [first])).2.diff =
        (replica.apply batch).2.diff ++ effect.changes ∧
      let left := (replica.apply batch).1.commit effect.writes effect.changes
      let middle := left.withTxValidity digest
      let call := ((replica.apply (batch ++ [first])).1.run idle).apply (idleBatch ++ [second])
      middle.effect second = .ok (op', effect') ∧
      call.1 = middle.commit effect'.writes effect'.changes ∧ call.2.diff = effect'.changes := by
  obtain ⟨_, effect, heffect, hkind, -⟩ := effect_of_getLast happliedFirst
  cases hfirst.symm.trans (effect_eq_ok.mp heffect).1
  have happly := apply_concat_of_ok heffect
  -- in between nothing moves but the membership sequence
  rw [List.forall_mem_append] at hidle
  obtain ⟨digest, hresumed⟩ := run_of_idle hidle.1
  obtain ⟨hsame, hdiff⟩ := apply_of_idle hidle.2
  obtain ⟨_, effect', heffect', hkind', -⟩ := effect_of_getLast happliedSecond
  cases hsecond.symm.trans (effect_eq_ok.mp heffect').1
  have happly' := apply_concat_of_ok heffect'
  rw [hdiff, List.nil_append] at happly'
  rw [hsame] at heffect' happly'
  rw [hresumed, happly] at heffect'
  refine ⟨hkind, hkind', effect, effect', digest, heffect, congrArg (·.2.diff) happly, heffect', ?_,
    congrArg (·.2.diff) happly'⟩
  rw [happly', hresumed, happly]

/-- Two steps of which the second takes the first one back: they are taken by one administrator, for
one key of the target. -/
theorem Applied.elevation_undone
    (h : before.Applied first op effect initializing draft)
    (h' : ((before.commit effect.writes effect.changes).withTxValidity digest).Applied second op'
      effect' initializing' draft') (hstand : before.MembersStand)
    (hstand' : (before.commit effect.writes effect.changes).MembersStand)
    (hkind : op.kind = step.kind) (hbody : op.body = .adminControl target)
    (hkind' : op'.kind = step.reverse.kind) (hbody' : op'.body = .adminControl target) :
    let middle := (before.commit effect.writes effect.changes).withTxValidity digest
    let after := middle.commit effect'.writes effect'.changes
    ∃ admin node, before.store.view.admin = .ok (some admin) ∧
      before.node target = .ok (some node) ∧ node.role = step.reverse.role ∧
      (before.members.contains node.writingKey ↔ step = .demotion) ∧
      effect.changes = [step.change node.writingKey] ∧
      effect'.changes = [step.reverse.change node.writingKey] ∧
      step.Moves target admin.address before.engine.config.fee.raw op.tx before.store.view
        middle.store.view ∧
      step.reverse.Moves target admin.address before.engine.config.fee.raw op'.tx middle.store.view
        after.store.view := by
  intro middle after
  obtain ⟨admin, node, hadmin, hnode, hrole, hmember, hchanges, hmoves⟩ :=
    h.elevates hstand hkind hbody
  obtain ⟨admin', node', hadmin', hnode', -, -, hchanges', hmoves'⟩ :=
    h'.elevates hstand' hkind' hbody'
  obtain ⟨paid, htarget⟩ := hmoves.node_target hnode
  cases hadmin'.symm.trans (hmoves.admin.trans hadmin)
  cases hnode'.symm.trans htarget
  exact ⟨admin, node, hadmin, hnode, hrole, hmember, hchanges, hchanges', hmoves, hmoves'⟩

end TwoSteps

/-- **Promotions and demotions undo each other.** Whatever a replica has taken before, let an
operation that makes the target an indexer, or one that makes it a writer, be applied, and after it
the operation that takes the step back, with nothing but skipped deliveries and moves of the
membership sequence in between. Then every entry is byte for byte what it was, the two replay
markers and the record of the administrator apart: the record of the target, unless it is the
administrator itself, and all registries, counters and bindings. The administrator's record has
changed in its balance only, which has fallen by exactly two fees, whether or not the initialization
phase is open. The same keys are members as before, and the two changes that are reported are that
the key of the target joins and that it leaves, in the order of the steps. -/
theorem promotion_and_demotion_cancel (engine : Engine) (bootstrap : WritingKey) (txValidity : Hash)
    (events : List ReplicaEvent) (batch : List Delivery) (first second : Delivery)
    (idle : List ReplicaEvent) (idleBatch : List Delivery) (step : Elevation) (target : Address)
    {op op' : Operation}
    (hfirst : first.operation = .ok op) (hbody : op.body = .adminControl target)
    (hsecond : second.operation = .ok op') (hbody' : op'.body = .adminControl target) :
    let replica := (fresh engine bootstrap txValidity).run events
    let before := (replica.apply batch).1
    let middle := (replica.apply (batch ++ [first])).1
    let resumed := middle.run idle
    let after := (resumed.apply (idleBatch ++ [second])).1
    (replica.apply (batch ++ [first])).2.outcomes.getLast? =
        some ⟨some (step.kind, op.tx), .applied⟩ →
      (∀ taken ∈ middle.history idle ++ resumed.takes idleBatch, ¬ taken.isApplied) →
      (resumed.apply (idleBatch ++ [second])).2.outcomes.getLast? =
        some ⟨some (step.reverse.kind, op'.tx), .applied⟩ →
      ∃ admin node purse, ∃ balance : Amount,
        before.store.view.admin = .ok (some admin) ∧ before.node target = .ok (some node) ∧
        (replica.apply (batch ++ [first])).2.diff =
          (replica.apply batch).2.diff ++ [step.change node.writingKey] ∧
        (resumed.apply (idleBatch ++ [second])).2.diff = [step.reverse.change node.writingKey] ∧
        (∀ key, after.members.contains key = before.members.contains key) ∧
        (target ≠ admin.address → after.store.get? (ViewKey.node target).text =
          before.store.get? (ViewKey.node target).text) ∧
        before.node admin.address = .ok (some purse) ∧
        after.node admin.address = .ok (some { purse with balance }) ∧
        balance.raw + 2 * engine.config.fee.raw = purse.balance.raw ∧
        ∀ text, text ≠ (ViewKey.node admin.address).text →
          text ≠ (ViewKey.applied op.tx).text → text ≠ (ViewKey.applied op'.tx).text →
            after.store.get? text = before.store.get? text := by
  intro replica before middle resumed after happliedFirst hidle happliedSecond
  have hrun : (fresh engine bootstrap txValidity).run (events ++ [.batch batch]) = before :=
    run_batch _ events batch
  have hstand : before.MembersStand := hrun ▸ membersStand_run engine bootstrap txValidity _
  have hengine : before.engine = engine := hrun ▸ (run_fixed _ _).1
  obtain ⟨hkind, hkind', effect, effect', digest, heffect, hdiff, heffect', hafter, hdiff'⟩ :=
    consecutive_effects hfirst hsecond happliedFirst hidle happliedSecond
  obtain ⟨initializing, draft, happlied⟩ := applied_of_effect heffect
  obtain ⟨initializing', draft', happlied'⟩ := applied_of_effect heffect'
  obtain ⟨admin, node, hadmin, hnode, hrole, hmember, hchanges, hchanges', hmoves, hmoves'⟩ :=
    happlied.elevation_undone happlied' hstand (membersStand_commit hstand heffect) hkind hbody
      hkind' hbody'
  have hafter : after = _ := hafter
  rw [← hafter] at hmoves'
  have hgoverned := hstand.governed hadmin
  obtain ⟨purse, hpurse, -⟩ := hgoverned.adminStands.record hgoverned.keysBound hadmin
  obtain ⟨balance, hbalance, hpaid⟩ := hmoves.undone hmoves' hnode hrole hpurse
  rw [if_pos rfl, hengine] at hpaid
  have hrecord (hne : target ≠ admin.address) : after.store.get? (ViewKey.node target).text =
      before.store.get? (ViewKey.node target).text := by
    obtain ⟨kept, hkept, hraw⟩ := hmoves.undone hmoves' hnode hrole hnode
    rw [if_neg hne, Nat.add_zero] at hraw
    cases Amount.ext_raw hraw
    rw [Store.get?_node hnode, Store.get?_node hkept]
  refine ⟨admin, node, purse, balance, hadmin, hnode, ?_, ?_, fun key ↦ ?_, hrecord, hpurse,
    hbalance, hpaid, fun text hpayer hmarker hmarker' ↦ ?_⟩
  · exact hchanges ▸ hdiff
  · exact hchanges' ▸ hdiff'
  · have hmembers : after.members =
        (before.members.applyAll [step.change node.writingKey]).applyAll
          [step.reverse.change node.writingKey] := by
      rw [hafter, ← hchanges, ← hchanges']
      rfl
    rw [hmembers, Elevation.contains_undone hmember]
  · by_cases htext : text = (ViewKey.node target).text
    · rw [htext] at hpayer ⊢
      exact hrecord fun heq ↦ hpayer (heq ▸ rfl)
    · exact Except.ok.inj ((hmoves'.other text htext hpayer hmarker').trans
        (hmoves.other text htext hpayer hmarker))

end Replica

/-! ### A writer that is promoted and demoted -/

namespace ZeroFounding

/-- The administrator takes a step for the second participant, who is a writer. -/
def elevation (step : Elevation) (digest : Hash) (nonce : UInt8) : Operation where
  kind := step.kind
  requester := participant 1
  tx := Message.requesterHash suite step.kind (participant 1) digest
    (.adminControl (participant 2)) (repeated nonce)
  txValidity := digest
  nonce := repeated nonce
  signature := .zero
  body := .adminControl (participant 2)
  cosignature := none

/-- The promotion on the log of the administrator. -/
def promoted : Delivery := ⟨.zero, (elevation .promotion .zero 7).toRaw.serialize⟩

/-- The demotion on the same log, after the membership sequence has moved. -/
def demoted : Delivery := ⟨.zero, (elevation .demotion (repeated 1) 8).toRaw.serialize⟩

/-- The replica after the promotion. -/
def midway : Replica := (chargingBlank.apply ((candidacy ++ [enlisted]) ++ [promoted])).1

/-- The replica once the membership sequence has moved after the promotion. -/
def resumed : Replica := midway.run [.txValidity (repeated 1)]

/-- Both steps are applied, and the promotion, delivered again in between, is skipped. -/
theorem promotion_and_demotion_applied :
    (chargingBlank.apply ((candidacy ++ [enlisted]) ++ [promoted])).2.outcomes.getLast? =
        some ⟨some (Elevation.promotion.kind, (elevation .promotion .zero 7).tx), .applied⟩ ∧
      (∀ taken ∈ midway.history [.txValidity (repeated 1)] ++ resumed.takes [promoted],
        ¬ taken.isApplied) ∧
      (resumed.apply ([promoted] ++ [demoted])).2.outcomes.getLast? =
        some ⟨some (Elevation.demotion.kind, (elevation .demotion (repeated 1) 8).tx), .applied⟩ ∧
      (chargingBlank.apply (candidacy ++ [enlisted])).1.store.view.admin.toOption =
        some (some ⟨participant 1, .zero⟩) := by
  decide +kernel

/-- The second participant is who it was, and the administrator has paid two tokens. -/
theorem promotion_and_demotion_undone :
    let before := (chargingBlank.apply (candidacy ++ [enlisted])).1
    let after := (resumed.apply ([promoted] ++ [demoted])).1
    (promoted.operation = .ok (elevation .promotion .zero 7) ∧
        demoted.operation = .ok (elevation .demotion (repeated 1) 8)) ∧
      after.store.get? (ViewKey.node (participant 2)).text =
        before.store.get? (ViewKey.node (participant 2)).text ∧
      (∀ key, after.members.contains key = before.members.contains key) ∧
      ∃ purse, ∃ balance : Amount, before.node (participant 1) = .ok (some purse) ∧
        after.node (participant 1) = .ok (some { purse with balance }) ∧
        balance.raw + 2 * (Amount.whole 1).raw = purse.balance.raw := by
  obtain ⟨hpromoted, hidle, hdemoted, hadmin⟩ := promotion_and_demotion_applied
  rw [resumed, midway] at hidle hdemoted ⊢
  rw [chargingBlank] at hpromoted hidle hdemoted hadmin ⊢
  have hfirst : promoted.operation = .ok (elevation .promotion .zero 7) :=
    Delivery.operation_of_wellFormed ⟨rfl, fun h ↦ by cases h⟩ rfl
  have hsecond : demoted.operation = .ok (elevation .demotion (repeated 1) 8) :=
    Delivery.operation_of_wellFormed ⟨rfl, fun h ↦ by cases h⟩ rfl
  obtain ⟨admin, node, purse, balance, hfound, -, -, -, hmembers, hrecord, hpurse, hafter, hpaid,
    -⟩ := Replica.promotion_and_demotion_cancel charging .zero .zero [] (candidacy ++ [enlisted])
      promoted demoted [.txValidity (repeated 1)] [promoted] .promotion (participant 2) hfirst rfl
      hsecond rfl hpromoted hidle hdemoted
  cases hfound.symm.trans (eq_ok_of_toOption hadmin)
  exact ⟨⟨hfirst, hsecond⟩, hrecord (by decide), hmembers, purse, balance, hpurse, hafter, hpaid⟩

end ZeroFounding

end SettlementLedger
