import SettlementLedger.Proofs.StandingSteps

/-!
# Writing keys are owned once and for ever

The writing key of every writer is bound to it in the registry (`View.KeysBound`). Since the
registry binds a key to one address, no two writers share a key, and a log has at most one
participant that can validate what is delivered on it. A binding is never released nor given to
somebody else, whatever is applied afterwards (`Operation.StandingStep.writerOwner`), although a
participant keeps its old key through bans and releases and may come back under another one.
-/

set_option autoImplicit false
set_option relaxedAutoImplicit false

namespace SettlementLedger

namespace View

variable {before after : View} {address : Address} {standing : Standing}

/-- The writing key of every writer is bound to the writer. -/
def KeysBound (view : View) : Prop :=
  ∀ a standing, view.standing a = .ok standing → standing.role.isWriter →
    view.writerOwner standing.writingKey = .ok (some a)

namespace KeysBound

theorem node {view : View} {a : Address} {node : NodeRecord} (h : view.KeysBound)
    (hnode : view.node a = .ok (some node)) (hwriter : node.role.isWriter) :
    view.writerOwner node.writingKey = .ok (some a) :=
  h a node.standing (standing_of_node hnode) hwriter

theorem same (h : before.KeysBound) (hsame : before.SameStanding after) : after.KeysBound := by
  intro a standing hstanding hwriter
  rw [hsame.standing] at hstanding
  rw [hsame.writerOwner]
  exact h a standing hstanding hwriter

theorem restands (h : before.KeysBound) (hrestands : before.Restands after address standing)
    (hkey : standing.role.isWriter → before.writerOwner standing.writingKey = .ok (some address)) :
    after.KeysBound := by
  intro a found hfound hwriter
  rw [hrestands.writerOwner]
  by_cases ha : a = address
  · rw [ha, hrestands.standing.self] at hfound
    cases hfound
    rw [ha]
    exact hkey hwriter
  · rw [hrestands.standing.other ha] at hfound
    exact h a found hfound hwriter

/-- Nobody else was a writer under a key that was bound to nobody else. -/
theorem enrolls (h : before.KeysBound) (henrolls : before.Enrolls after address standing) :
    after.KeysBound := by
  intro a found hfound hwriter
  rw [henrolls.writerOwner]
  by_cases ha : a = address
  · rw [ha, henrolls.standing.self] at hfound
    cases hfound
    rw [if_pos rfl, ha]
  · rw [henrolls.standing.other ha] at hfound
    have howner := h a found hfound hwriter
    have hkey : found.writingKey ≠ standing.writingKey := by
      intro hkey
      rw [hkey] at howner
      rcases henrolls.available with hnone | hself
      · rw [hnone] at howner
        cases howner
      · rw [hself] at howner
        cases howner
        exact ha rfl
    rw [if_neg hkey]
    exact howner

end KeysBound

theorem Enrolls.keepsOwner {key : WritingKey} {a : Address}
    (h : before.Enrolls after address standing) (howner : before.writerOwner key = .ok (some a)) :
    after.writerOwner key = .ok (some a) := by
  rw [h.writerOwner]
  by_cases hkey : key = standing.writingKey
  · rw [if_pos hkey]
    rw [hkey] at howner
    rcases h.available with hnone | hself
    · rw [hnone] at howner
      cases howner
    · rw [← hself, howner]
  · rw [if_neg hkey]
    exact howner

end View

namespace Operation.StandingStep

variable {op : Operation} {bootstrap : WritingKey} {members : Membership} {before after : View}
  {changes : MembershipDiff}

/-- An applied operation keeps every writing key of a writer bound to it. -/
theorem keysBound (h : op.StandingStep bootstrap members before after changes)
    (hbound : before.KeysBound) : after.KeysBound := by
  cases h with
  | keeps kind same => exact hbound.same same
  | registers standing kind noAdmin role key admin enrolls => exact hbound.enrolls enrolls
  | whitelists admin target node? license kind body isAdmin node role restands =>
    exact hbound.restands restands nofun
  | bans admin target node kind body isAdmin other found whitelisted role restands =>
    exact hbound.restands restands nofun
  | promotes admin target node kind body isAdmin found writer role absent restands =>
    exact hbound.restands restands fun _ ↦ hbound.node found writer
  | demotes admin target node changes kind body isAdmin found role removal restands =>
    exact hbound.restands restands fun _ ↦ hbound.node found (Role.isWriter_of_isIndexer role)
  | enlists node key stake kind body found whitelisted role admin enrolls =>
    exact hbound.enrolls enrolls
  | releases admin? node changes kind isAdmin other found writer removal restands =>
    exact hbound.restands restands nofun
  | recovers admin node key kind body isAdmin requester unbound member absent found adminAfter
      enrolls =>
    exact hbound.enrolls enrolls

/-- An applied operation keeps every binding. -/
theorem writerOwner {key : WritingKey} {a : Address}
    (h : op.StandingStep bootstrap members before after changes)
    (howner : before.writerOwner key = .ok (some a)) :
    after.writerOwner key = .ok (some a) := by
  rcases h.shape with same | ⟨address, standing, restands⟩ | ⟨address, standing, enrolls⟩
  · exact (same.writerOwner key).trans howner
  · exact (restands.writerOwner key).trans howner
  · exact enrolls.keepsOwner howner

end Operation.StandingStep

namespace Replica

/-- An empty store has no writers. -/
theorem keysBound_fresh (engine : Engine) (bootstrap : WritingKey) (txValidity : Hash) :
    (fresh engine bootstrap txValidity).store.view.KeysBound := by
  intro a standing hstanding hwriter
  obtain ⟨node, hnode, -⟩ := View.node_of_standing_of_isWriter hstanding hwriter
  cases hnode

theorem keysBound_run (engine : Engine) (bootstrap : WritingKey) (txValidity : Hash)
    (events : List ReplicaEvent) :
    ((fresh engine bootstrap txValidity).run events).store.view.KeysBound := by
  refine run_induction (P := fun replica ↦ replica.store.view.KeysBound) (fun _ _ h ↦ h) ?_ _
    (keysBound_fresh engine bootstrap txValidity) events
  intro replica delivery op effect h heffect
  obtain ⟨initializing, draft, happlied⟩ := applied_of_effect heffect
  exact happlied.standingStep.keysBound h

/-- A binding is kept by every run. -/
theorem writerOwner_run (replica : Replica) (events : List ReplicaEvent) {key : WritingKey}
    {a : Address} (h : replica.store.view.writerOwner key = .ok (some a)) :
    (replica.run events).store.view.writerOwner key = .ok (some a) := by
  refine run_induction (P := fun replica ↦ replica.store.view.writerOwner key = .ok (some a))
    (fun _ _ h ↦ h) ?_ replica h events
  intro replica delivery op effect h heffect
  obtain ⟨initializing, draft, happlied⟩ := applied_of_effect heffect
  exact happlied.standingStep.writerOwner h

/-- After every run from the empty store, the writing key of every writer is bound to it, so that no
two writers share a key and at most one participant can validate on a log; and whatever happens
next, every binding stays as it is. -/
theorem writing_keys_owned_once (engine : Engine) (bootstrap : WritingKey) (txValidity : Hash)
    (events : List ReplicaEvent) :
    let replica := (fresh engine bootstrap txValidity).run events
    (∀ a node, replica.node a = .ok (some node) → node.role.isWriter →
        replica.store.view.writerOwner node.writingKey = .ok (some a)) ∧
      (∀ a b first second, replica.node a = .ok (some first) → replica.node b = .ok (some second) →
        first.role.isWriter → second.role.isWriter → first.writingKey = second.writingKey →
          a = b) ∧
      (∀ first second : Setting, first.log = second.log → ∀ a b,
        first.validator { base := replica.store.view } = .ok a →
          second.validator { base := replica.store.view } = .ok b → a = b) ∧
      ∀ later key a, replica.store.view.writerOwner key = .ok (some a) →
        (replica.run later).store.view.writerOwner key = .ok (some a) := by
  intro replica
  have hbound : replica.store.view.KeysBound := keysBound_run engine bootstrap txValidity events
  refine ⟨fun a node hnode hwriter ↦ hbound.node hnode hwriter, ?_, ?_,
    fun later key a howner ↦ writerOwner_run replica later howner⟩
  · intro a b first second hfirst hsecond hfirstWriter hsecondWriter hkey
    have hboth := hbound.node hfirst hfirstWriter
    rw [hkey, hbound.node hsecond hsecondWriter] at hboth
    cases hboth
    rfl
  · intro first second hlog a b ha hb
    obtain ⟨_, -, -, -, -, -, hownerA⟩ := Setting.validator_eq_ok.mp ha
    obtain ⟨_, -, -, -, -, -, hownerB⟩ := Setting.validator_eq_ok.mp hb
    rw [hlog, hownerB] at hownerA
    cases hownerA
    rfl

end Replica

end SettlementLedger
