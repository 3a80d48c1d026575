import SettlementLedger.Proofs.BatchBoundaries
import SettlementLedger.Proofs.MembershipChanges
import SettlementLedger.Proofs.Recovery

/-!
# Log lengths do not matter

The membership set carries the length of each member's log as one replica happens to see it. The
engine copies these lengths, keeps them through changes and drops them, and it never looks at one.
Two sets with the same keys (`Membership.SameKeys`) answer every question of a draft alike and stay
such a pair under every change, so that each rule decides the same on both
(`Setting.rule_of_sameKeys`), and so does each delivery and, by induction, each call.
-/

set_option autoImplicit false
set_option relaxedAutoImplicit false

namespace SettlementLedger

/-! ### Sets with the same keys -/

namespace Membership

/-- Two membership sets have the same keys, whatever the lengths are. -/
def SameKeys (first second : Membership) : Prop :=
  ∀ key, first.contains key = second.contains key

namespace SameKeys

variable {first second : Membership}

theorem ofEntries {entries entries' : List MembershipEntry}
    (h : entries.map MembershipEntry.key = entries'.map MembershipEntry.key) :
    (Membership.ofEntries entries).SameKeys (Membership.ofEntries entries') := by
  intro key
  rw [Bool.eq_iff_iff, contains_ofEntries_iff, contains_ofEntries_iff, h]

theorem apply (h : first.SameKeys second) (change : MembershipChange) :
    (first.apply change).SameKeys (second.apply change) := by
  intro k
  cases change with
  | add key => rw [contains_apply_add, contains_apply_add, h k]
  | remove key => rw [contains_apply_remove, contains_apply_remove, h k]

theorem applyAll (h : first.SameKeys second) (diff : MembershipDiff) :
    (first.applyAll diff).SameKeys (second.applyAll diff) := by
  induction diff generalizing first second with
  | nil => exact h
  | cons change rest ih => exact ih (h.apply change)

theorem size (h : first.SameKeys second) : first.size = second.size := by
  have hperm : first.keys.Perm second.keys :=
    (List.perm_ext_iff_of_nodup first.nodup_keys second.nodup_keys).mpr fun key ↦ by
      rw [mem_keys_iff, mem_keys_iff, h key]
  rw [← length_keys, ← length_keys, hperm.length_eq]

theorem containsAfter (h : first.SameKeys second) (pending : MembershipDiff) (key : WritingKey) :
    first.containsAfter pending key = second.containsAfter pending key := by
  rw [containsAfter_eq, containsAfter_eq]
  exact h.applyAll pending key

theorem sizeAfter (h : first.SameKeys second) (pending : MembershipDiff) :
    first.sizeAfter pending = second.sizeAfter pending :=
  (h.applyAll pending).size

end SameKeys

end Membership

/-! ### Rules -/

namespace Draft

variable {members members' : Membership}

theorem addMember_of_sameKeys (h : members.SameKeys members') (draft : Draft) (key : WritingKey) :
    draft.addMember members' key = draft.addMember members key := by
  simp only [addMember, h.containsAfter]

theorem removeMember_of_sameKeys (h : members.SameKeys members') (draft : Draft)
    (key : WritingKey) : draft.removeMember members' key = draft.removeMember members key := by
  simp only [removeMember, h.containsAfter, h.sizeAfter]

end Draft

namespace Setting

variable {members : Membership}

/-! Four rules ask the membership set anything, and only through the draft. -/

theorem addIndexer_of_sameKeys (setting : Setting) (h : setting.members.SameKeys members)
    (draft : Draft) (target : Address) :
    { setting with members }.addIndexer draft target = setting.addIndexer draft target := by
  simp only [addIndexer, Draft.addMember_of_sameKeys h]
  rfl

theorem removeIndexer_of_sameKeys (setting : Setting) (h : setting.members.SameKeys members)
    (draft : Draft) (target : Address) :
    { setting with members }.removeIndexer draft target = setting.removeIndexer draft target := by
  simp only [removeIndexer, Draft.removeMember_of_sameKeys h]
  rfl

theorem removeWriter_of_sameKeys (setting : Setting) (h : setting.members.SameKeys members)
    (draft : Draft) (key : WritingKey) :
    { setting with members }.removeWriter draft key = setting.removeWriter draft key := by
  simp only [removeWriter, Draft.removeMember_of_sameKeys h]
  rfl

theorem adminRecovery_of_sameKeys (setting : Setting) (h : setting.members.SameKeys members)
    (draft : Draft) (key : WritingKey) :
    { setting with members }.adminRecovery draft key = setting.adminRecovery draft key := by
  simp only [adminRecovery, Draft.addMember_of_sameKeys h, Draft.removeMember_of_sameKeys h,
    h.containsAfter]
  rfl

/-- A rule decides the same on a membership set with the same keys. -/
theorem rule_of_sameKeys (setting : Setting) (h : setting.members.SameKeys members)
    (draft : Draft) : { setting with members }.rule draft = setting.rule draft := by
  simp only [rule, addIndexer_of_sameKeys setting h, removeIndexer_of_sameKeys setting h,
    removeWriter_of_sameKeys setting h, adminRecovery_of_sameKeys setting h]
  rfl

end Setting

/-! ### Deliveries -/

/-- An operation has the same effect, or is refused for the same reason. -/
theorem Operation.transition_of_sameKeys {members members' : Membership}
    (h : members.SameKeys members') (op : Operation) (suite : Suite) (config : Config)
    (context : Context) (base : View) (delivery : Delivery) :
    op.transition suite config context base members' delivery =
      op.transition suite config context base members delivery := by
  have hrule (initializing : Bool) :
      (op.setting suite config context members' delivery.log initializing).rule { base } =
        (op.setting suite config context members delivery.log initializing).rule { base } :=
    Setting.rule_of_sameKeys (op.setting suite config context members delivery.log initializing) h _
  simp only [Operation.setting] at hrule
  simp only [transition, hrule]

/-- Two progresses are the same but for the lengths in their membership sets. -/
structure Progress.Alike (first second : Progress) : Prop where
  batch : first.batch = second.batch
  diff : first.diff = second.diff
  members : first.members.SameKeys second.members

theorem Progress.Alike.absorb {first second : Progress} (h : first.Alike second)
    (effect : Effect) : (first.absorb effect).Alike (second.absorb effect) where
  batch := congrArg (Batch.merge · effect.writes) h.batch
  diff := congrArg (· ++ effect.changes) h.diff
  members := h.members.applyAll effect.changes

namespace Engine

variable (engine : Engine) {context context' : Context} {progress progress' : Progress}

theorem step_alike (hcontext : context.Agrees context') (h : progress.Alike progress')
    (delivery : Delivery) :
    (engine.step context progress delivery).1.Alike
        (engine.step context' progress' delivery).1 ∧
      (engine.step context progress delivery).2 = (engine.step context' progress' delivery).2 := by
  have heffect (op : Operation) : engine.effect context progress delivery op =
      engine.effect context' progress' delivery op := by
    rw [Engine.effect, Engine.effect, h.batch, Operation.transition_congr hcontext,
      Operation.transition_of_sameKeys h.members]
  simp only [step]
  cases delivery.operation with
  | error refusal => exact ⟨h, rfl⟩
  | ok op =>
    simp only [heffect]
    cases engine.effect context' progress' delivery op with
    | error refusal => exact ⟨h, rfl⟩
    | ok effect => exact ⟨h.absorb effect, rfl⟩

theorem run_alike (hcontext : context.Agrees context') (h : progress.Alike progress')
    (deliveries : List Delivery) :
    (engine.run context progress deliveries).1.Alike
        (engine.run context' progress' deliveries).1 ∧
      (engine.run context progress deliveries).2 =
        (engine.run context' progress' deliveries).2 := by
  induction deliveries generalizing progress progress' with
  | nil => exact ⟨h, rfl⟩
  | cons delivery rest ih =>
    obtain ⟨hnext, houtcome⟩ := engine.step_alike hcontext h delivery
    obtain ⟨hlast, houtcomes⟩ := ih hnext
    refine ⟨hlast, ?_⟩
    simp only [run, houtcome, houtcomes]

/-- **Log lengths do not matter.** Whatever the base view and the pending writes are, two contexts
that differ in nothing but the lengths of the members' logs get the same batch and the same report
for a list of deliveries. Making the reported changes leaves two sets with the same keys again. -/
theorem apply_of_sameKeys (engine : Engine) (batch : Batch) (bootstrap : WritingKey)
    (txValidity : Hash) (first second : Membership) (h : first.SameKeys second)
    (deliveries : List Delivery) :
    let result := engine.apply batch ⟨bootstrap, txValidity, first⟩ deliveries
    let result' := engine.apply batch ⟨bootstrap, txValidity, second⟩ deliveries
    result'.1.pending = result.1.pending ∧ result'.2.outcomes = result.2.outcomes ∧
      result'.2.diff = result.2.diff ∧
      (first.applyAll result.2.diff).SameKeys (second.applyAll result'.2.diff) := by
  intro result result'
  have hstart : ({ batch, members := first } : Progress).Alike { batch, members := second } :=
    ⟨rfl, rfl, h⟩
  have hcontext : (⟨bootstrap, txValidity, first⟩ : Context).Agrees
      ⟨bootstrap, txValidity, second⟩ := ⟨rfl, rfl⟩
  obtain ⟨hlast, houtcomes⟩ := engine.run_alike hcontext hstart deliveries
  have hdiff : result.2.diff = result'.2.diff := hlast.diff
  refine ⟨congrArg Batch.pending hlast.batch.symm, houtcomes.symm, hdiff.symm, ?_⟩
  rw [← hdiff]
  exact h.applyAll result.2.diff

end Engine

namespace ZeroFounding

/-- The administrator is registered and then demoted, where another member stays: its key leaves the
membership set, whichever lengths the logs have. -/
theorem demoted_with_lengths :
    let first : Membership := .ofEntries [⟨.zero, 0⟩, ⟨repeated 2, 1⟩]
    let second : Membership := .ofEntries [⟨.zero, 7⟩, ⟨repeated 2, 5⟩]
    let deliveries := [deliver .zero .addAdmin (.coreAdmin .zero) 1 1,
      deliver .zero .removeIndexer (.adminControl (participant 1)) 1 2]
    let batch : Batch := { base := Store.view .empty }
    let result := engine.apply batch ⟨.zero, .zero, first⟩ deliveries
    let result' := engine.apply batch ⟨.zero, .zero, second⟩ deliveries
    (first.SameKeys second ∧ first.entries ≠ second.entries ∧
        result.2.outcomes.map Outcome.verdict = [.applied, .applied] ∧
        result.2.diff = [.remove .zero]) ∧
      result'.1.pending = result.1.pending ∧ result'.2.outcomes = result.2.outcomes ∧
        result'.2.diff = result.2.diff ∧
        (first.applyAll result.2.diff).SameKeys (second.applyAll result'.2.diff) := by
  intro first second deliveries batch
  have hkeys : first.SameKeys second := .ofEntries rfl
  have happlied : let result := engine.apply batch ⟨.zero, .zero, first⟩ deliveries
      first.entries ≠ second.entries ∧
        result.2.outcomes.map Outcome.verdict = [.applied, .applied] ∧
        result.2.diff = [.remove .zero] := by
    decide +kernel
  have hsame := engine.apply_of_sameKeys batch .zero .zero first second hkeys deliveries
  exact ⟨⟨hkeys, happlied⟩, hsame⟩

end ZeroFounding

end SettlementLedger
