import SettlementLedger.Proofs.StandingSteps

/-!
# Membership diffs are tight

The engine reports the membership changes of a call as one list, which the host makes in order. Each
change is a real one where it is made: a key joins that is no member, and a key leaves that is one,
while another member stays (`Membership.Admits`). So the changes can be made one by one, and no
prefix of them leaves the set without a member.

What one operation asks for is tight on the set that it is judged on (`Operation.StandingStep.tight`),
and that set is the one of the context with everything made that was asked for before
(`Progress.Traces`). Neither depends on what the store says.
-/

set_option autoImplicit false
set_option relaxedAutoImplicit false

namespace SettlementLedger

/-! ### Tight diffs -/

namespace Membership

variable {members : Membership} {key : WritingKey} {change : MembershipChange}
  {diff first second : MembershipDiff}

/-- A change can be made: a key joins that is no member, or a member leaves while another one
stays. -/
def Admits (members : Membership) : MembershipChange → Prop
  | .add key => ¬ members.contains key
  | .remove key => members.contains key ∧ 1 < members.size

/-- Each change of a diff can be made where those before it are made. -/
def Tight (members : Membership) : MembershipDiff → Prop
  | [] => True
  | change :: rest => members.Admits change ∧ (members.apply change).Tight rest

instance (members : Membership) : (change : MembershipChange) → Decidable (members.Admits change)
  | .add key => inferInstanceAs (Decidable (¬ members.contains key))
  | .remove key => inferInstanceAs (Decidable (members.contains key ∧ 1 < members.size))

instance decidableTight : (members : Membership) → (diff : MembershipDiff) →
    Decidable (members.Tight diff)
  | _, [] => .isTrue trivial
  | members, change :: rest =>
    have := decidableTight (members.apply change) rest
    inferInstanceAs (Decidable (members.Admits change ∧ (members.apply change).Tight rest))

theorem tight_append :
    members.Tight (first ++ second) ↔
      members.Tight first ∧ (members.applyAll first).Tight second := by
  induction first generalizing members with
  | nil => exact (and_iff_right trivial).symm
  | cons change rest ih => exact (and_congr_right fun _ ↦ ih).trans and_assoc.symm

theorem Tight.admits (h : members.Tight diff) {earlier later : MembershipDiff}
    (hdiff : diff = earlier ++ change :: later) : (members.applyAll earlier).Admits change := by
  rw [hdiff, tight_append] at h
  exact h.2.1

/-- A change that can be made leaves a member. -/
theorem Admits.isEmpty_eq_false (h : members.Admits change) :
    (members.apply change).isEmpty = false := by
  rw [isEmpty_eq_false_iff]
  cases change with
  | add key => exact ⟨key, (contains_add_iff members key key).mpr (Or.inl rfl)⟩
  | remove key =>
    obtain ⟨other, hother, hstays⟩ := exists_other_of_one_lt_size h.2 key
    exact ⟨other, (contains_remove_iff members key other).mpr ⟨hother, hstays⟩⟩

/-- A tight diff never leaves a set empty that has a member. -/
theorem Tight.isEmpty_eq_false (h : members.Tight diff) (hmembers : members.isEmpty = false) :
    (members.applyAll diff).isEmpty = false := by
  induction diff generalizing members with
  | nil => exact hmembers
  | cons change rest ih => exact ih h.2 h.1.isEmpty_eq_false

/-- The only member can be exchanged for another one if that one joins first. -/
example :
    let members := ofEntries [⟨.zero, 0⟩]
    let other : WritingKey := ⟨List.replicate 32 1, rfl⟩
    members.Tight [.add other, .remove .zero] ∧ ¬ members.Tight [.remove .zero, .add other] := by
  decide +kernel

theorem Removal.tight (h : members.Removal key diff) : members.Tight diff := by
  rcases h with ⟨hkey, hsize, rfl⟩ | ⟨-, rfl⟩
  · exact ⟨⟨hkey, hsize⟩, trivial⟩
  · trivial

end Membership

/-! ### What an operation asks for -/

/-- The changes that an operation asks for can be made in order. A recovery first adds a key that is
no member, so that there are two when the old key leaves. -/
theorem Operation.StandingStep.tight {op : Operation} {bootstrap : WritingKey}
    {members : Membership} {before after : View} {changes : MembershipDiff}
    (h : op.StandingStep bootstrap members before after changes) : members.Tight changes := by
  cases h with
  | keeps | registers | whitelists | bans | enlists => trivial
  | promotes admin target node kind body isAdmin found writer role absent restands =>
    exact ⟨absent, trivial⟩
  | demotes admin target node changes kind body isAdmin found role removal restands =>
    exact removal.tight
  | releases admin? node changes kind isAdmin other found writer removal restands =>
    rcases removal with ⟨-, removal⟩ | ⟨-, rfl⟩
    · exact removal.tight
    · trivial
  | recovers admin node key kind body isAdmin requester unbound member absent found adminAfter
      enrolls =>
    have hold := (members.contains_add_iff key admin.writingKey).mpr (Or.inr member)
    have hnew := (members.contains_add_iff key key).mpr (Or.inl rfl)
    have hne : admin.writingKey ≠ key := fun hsame ↦ absent (hsame ▸ member)
    exact ⟨absent, ⟨hold, Membership.one_lt_size_of_ne hold hnew hne⟩, trivial⟩

/-- Whatever the view says, the effect of an operation is tight on the members it is judged with. -/
theorem Operation.tight_of_transition {op : Operation} {suite : Suite} {config : Config}
    {context : Context} {base : View} {members : Membership} {delivery : Delivery}
    {effect : Effect}
    (h : op.transition suite config context base members delivery = .ok effect) :
    members.Tight effect.changes := by
  obtain ⟨-, initializing, -, -, -, draft, hrule, rfl⟩ := transition_eq_ok.mp h
  exact (Setting.standingStep_of_rule hrule ((Draft.MovesBalances.refl draft).sameStanding)).tight

/-! ### Calls -/

/-- The working members of a call are what the changes reported so far make of the members of its
context, and these changes are tight. -/
structure Progress.Traces (progress : Progress) (start : Membership) : Prop where
  members : progress.members = start.applyAll progress.diff
  tight : start.Tight progress.diff

theorem Progress.Traces.absorb {progress : Progress} {start : Membership}
    (h : progress.Traces start) {effect : Effect}
    (htight : progress.members.Tight effect.changes) :
    (progress.absorb effect).Traces start where
  members := by
    show progress.members.applyAll effect.changes = _
    rw [h.members]
    exact (Membership.applyAll_append _ _ _).symm
  tight := by
    rw [h.members] at htight
    exact Membership.tight_append.mpr ⟨h.tight, htight⟩

namespace Engine

variable (engine : Engine) (context : Context) {progress : Progress} {start : Membership}

/-- A delivery adds to the diff what can be made on the working members. -/
theorem step_traces (h : progress.Traces start) (delivery : Delivery) :
    (engine.step context progress delivery).1.Traces start ∧
      progress.diff <+: (engine.step context progress delivery).1.diff := by
  unfold step
  cases delivery.operation with
  | error refusal => exact ⟨h, List.prefix_rfl⟩
  | ok op =>
    cases heffect : engine.effect context progress delivery op with
    | error refusal =>
      simp only [heffect]
      exact ⟨h, List.prefix_rfl⟩
    | ok effect =>
      simp only [heffect]
      exact ⟨h.absorb (Operation.tight_of_transition heffect), List.prefix_append _ _⟩

theorem run_traces (h : progress.Traces start) (deliveries : List Delivery) :
    (engine.run context progress deliveries).1.Traces start ∧
      progress.diff <+: (engine.run context progress deliveries).1.diff := by
  induction deliveries generalizing progress with
  | nil => exact ⟨h, List.prefix_rfl⟩
  | cons delivery rest ih =>
    obtain ⟨hnext, hfirst⟩ := engine.step_traces context h delivery
    obtain ⟨hlast, hrest⟩ := ih hnext
    exact ⟨hlast, hfirst.trans hrest⟩

/-- **The membership diff is tight.** Whatever the base view, the pending writes and the context
are, each reported change is made on a set that admits it: an added key is absent, and a removed key
is present beside another one. So no prefix of the changes empties a set that has a member. After
each part of a call the working members are those of the context with the changes made that are
reported so far. -/
theorem apply_tight (engine : Engine) (batch : Batch) (context : Context)
    (deliveries : List Delivery) :
    let diff := (engine.apply batch context deliveries).2.diff
    (∀ earlier change later, diff = earlier ++ change :: later →
        (context.members.applyAll earlier).Admits change) ∧
      (context.members.isEmpty = false → ∀ earlier later, diff = earlier ++ later →
        (context.members.applyAll earlier).isEmpty = false) ∧
      ∀ first second, deliveries = first ++ second →
        let progress := (engine.run context { batch, members := context.members } first).1
        progress.members = context.members.applyAll progress.diff ∧ progress.diff <+: diff := by
  intro diff
  have hstart : ({ batch, members := context.members } : Progress).Traces context.members :=
    ⟨rfl, trivial⟩
  have htight : context.members.Tight diff :=
    (engine.run_traces context hstart deliveries).1.tight
  refine ⟨fun earlier change later hdiff ↦ htight.admits hdiff,
    fun hmembers earlier later hdiff ↦ ?_, ?_⟩
  · rw [hdiff] at htight
    exact (Membership.tight_append.mp htight).1.isEmpty_eq_false hmembers
  · rintro first second rfl progress
    have hfirst := (engine.run_traces context hstart first).1
    have hsecond := (engine.run_traces context hfirst second).2
    refine ⟨hfirst.members, ?_⟩
    show progress.diff <+: (engine.run context _ (first ++ second)).1.diff
    rw [run_append]
    exact hsecond

end Engine

end SettlementLedger
