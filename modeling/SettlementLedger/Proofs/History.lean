import SettlementLedger.Proofs.Runs

/-!
# The history of a replica

A history lists every delivery that a replica took in a run, in order, with the outcome that the
replica reported for it. What a run does to the entries is stated against it: `history_induction`
carries a relation between a replica and its history through a run, one delivery at a time, although
deliveries come in batches.
-/

set_option autoImplicit false
set_option relaxedAutoImplicit false

namespace SettlementLedger

/-- A delivery that was taken and what became of it. -/
structure Taken where
  delivery : Delivery
  outcome : Outcome

/-- Whether the delivery was applied. -/
def Taken.isApplied (taken : Taken) : Bool := taken.outcome.verdict.isApplied

/-- There is one way of being applied. -/
theorem Verdict.isApplied_iff {verdict : Verdict} : verdict.isApplied ↔ verdict = .applied := by
  cases verdict with
  | applied => exact ⟨fun _ ↦ rfl, fun _ ↦ rfl⟩
  | skipped refusal => exact ⟨nofun, nofun⟩

namespace Replica

variable {replica : Replica}

theorem outcomes_singleton (replica : Replica) (delivery : Delivery) :
    (replica.apply [delivery]).2.outcomes = [replica.outcome delivery] := by
  cases heffect : replica.effect delivery with
  | error refusal => rw [apply_singleton_of_error heffect]
  | ok made => rw [apply_singleton_of_ok heffect]

/-- Deliveries that are all skipped change nothing. -/
theorem apply_of_forall_error {deliveries : List Delivery}
    (h : ∀ delivery ∈ deliveries, ∃ refusal, replica.effect delivery = .error refusal) :
    replica.apply deliveries = (replica, ⟨deliveries.map replica.outcome, []⟩) := by
  induction deliveries with
  | nil => rfl
  | cons delivery rest ih =>
    obtain ⟨refusal, hrefusal⟩ := h delivery List.mem_cons_self
    have hrest := ih fun other hother ↦ h other (List.mem_cons_of_mem _ hother)
    rw [← List.singleton_append, apply_append, apply_singleton_of_error hrefusal, hrest]
    rfl

/-- The deliveries of one batch with their outcomes. -/
def takes (replica : Replica) (deliveries : List Delivery) : List Taken :=
  List.zipWith Taken.mk deliveries (replica.apply deliveries).2.outcomes

/-- The deliveries of a run with their outcomes. -/
def history (replica : Replica) : List ReplicaEvent → List Taken
  | [] => []
  | .batch deliveries :: rest =>
    replica.takes deliveries ++ (replica.apply deliveries).1.history rest
  | .txValidity digest :: rest => (replica.withTxValidity digest).history rest

theorem takes_cons (replica : Replica) (delivery : Delivery) (rest : List Delivery) :
    replica.takes (delivery :: rest) =
      ⟨delivery, replica.outcome delivery⟩ :: (replica.apply [delivery]).1.takes rest := by
  rw [takes, ← List.singleton_append, apply_append]
  show List.zipWith Taken.mk (delivery :: rest)
    ((replica.apply [delivery]).2.outcomes ++ _) = _
  rw [outcomes_singleton]
  rfl

section Induction

variable {P : Replica → List Taken → Prop}

/-- A relation that every delivery keeps, skipped or applied, is kept by a batch. -/
theorem takes_induction
    (skipped : ∀ replica history delivery identity refusal, P replica history →
      replica.effect delivery = .error refusal →
        P replica (history ++ [⟨delivery, identity, .skipped refusal⟩]))
    (applied : ∀ replica history delivery op effect, P replica history →
      replica.effect delivery = .ok (op, effect) →
        P (replica.commit effect.writes effect.changes)
          (history ++ [⟨delivery, some (op.kind, op.tx), .applied⟩]))
    (replica : Replica) (history : List Taken) (h : P replica history)
    (deliveries : List Delivery) :
    P (replica.apply deliveries).1 (history ++ replica.takes deliveries) := by
  induction deliveries generalizing replica history with
  | nil =>
    rw [takes, List.zipWith_nil_left, List.append_nil]
    exact h
  | cons delivery rest ih =>
    have happly : (replica.apply (delivery :: rest)).1 =
        ((replica.apply [delivery]).1.apply rest).1 := by
      rw [← List.singleton_append, apply_append]
    rw [happly, takes_cons, List.append_cons]
    refine ih _ _ ?_
    cases heffect : replica.effect delivery with
    | error refusal =>
      rw [apply_singleton_of_error heffect, outcome_of_error heffect]
      exact skipped replica history delivery _ refusal h heffect
    | ok made =>
      rw [apply_singleton_of_ok heffect, outcome_of_ok heffect]
      exact applied replica history delivery made.1 made.2 h heffect

/-- A relation that every delivery keeps, and that does not see the membership sequence move, is
kept by a run. -/
theorem history_induction
    (moved : ∀ replica history digest, P replica history →
      P (replica.withTxValidity digest) history)
    (skipped : ∀ replica history delivery identity refusal, P replica history →
      replica.effect delivery = .error refusal →
        P replica (history ++ [⟨delivery, identity, .skipped refusal⟩]))
    (applied : ∀ replica history delivery op effect, P replica history →
      replica.effect delivery = .ok (op, effect) →
        P (replica.commit effect.writes effect.changes)
          (history ++ [⟨delivery, some (op.kind, op.tx), .applied⟩]))
    (replica : Replica) (history : List Taken) (h : P replica history)
    (events : List ReplicaEvent) :
    P (replica.run events) (history ++ replica.history events) := by
  induction events generalizing replica history with
  | nil =>
    rw [Replica.history, List.append_nil]
    exact h
  | cons event rest ih =>
    cases event with
    | batch deliveries =>
      rw [Replica.history, ← List.append_assoc]
      exact ih _ _ (takes_induction skipped applied replica history h deliveries)
    | txValidity digest => exact ih _ _ (moved replica history digest h)

end Induction

/-- What every applied operation keeps is kept by a run, and what every applied delivery is found to
be, as every skipped one is, each delivery of the history is. -/
theorem history_forall {P : Replica → Prop} {Q : Taken → Prop}
    (moved : ∀ replica digest, P replica → P (replica.withTxValidity digest))
    (skipped : ∀ delivery identity refusal, Q ⟨delivery, identity, .skipped refusal⟩)
    (applied : ∀ replica delivery op effect, P replica →
      replica.effect delivery = .ok (op, effect) →
        P (replica.commit effect.writes effect.changes) ∧
          Q ⟨delivery, some (op.kind, op.tx), .applied⟩)
    (replica : Replica) (h : P replica) (events : List ReplicaEvent) :
    P (replica.run events) ∧ ∀ taken ∈ replica.history events, Q taken := by
  have hconcat {history : List Taken} {last : Taken} (hall : ∀ taken ∈ history, Q taken)
      (hlast : Q last) : ∀ taken ∈ history ++ [last], Q taken := by
    intro taken htaken
    rcases List.mem_append.mp htaken with hearlier | hlater
    · exact hall taken hearlier
    · rw [List.mem_singleton.mp hlater]
      exact hlast
  refine history_induction (P := fun replica history ↦ P replica ∧ ∀ taken ∈ history, Q taken)
    ?_ ?_ ?_ replica [] ⟨h, fun taken htaken ↦ absurd htaken List.not_mem_nil⟩ events
  · rintro replica history digest ⟨h, hall⟩
    exact ⟨moved replica digest h, hall⟩
  · rintro replica history delivery identity refusal ⟨h, hall⟩ -
    exact ⟨h, hconcat hall (skipped delivery identity refusal)⟩
  · rintro replica history delivery op effect ⟨h, hall⟩ heffect
    obtain ⟨hafter, hlast⟩ := applied replica delivery op effect h heffect
    exact ⟨hafter, hconcat hall hlast⟩

/-- A call of which nothing is applied changes nothing. -/
theorem apply_of_idle {deliveries : List Delivery}
    (h : ∀ taken ∈ replica.takes deliveries, ¬ taken.isApplied) :
    (replica.apply deliveries).1 = replica ∧ (replica.apply deliveries).2.diff = [] := by
  induction deliveries with
  | nil => exact ⟨rfl, rfl⟩
  | cons delivery rest ih =>
    rw [takes_cons] at h
    have hskipped := h _ List.mem_cons_self
    cases heffect : replica.effect delivery with
    | error refusal =>
      rw [← List.singleton_append, apply_append]
      rw [apply_singleton_of_error heffect] at h ⊢
      exact ih fun taken htaken ↦ h taken (List.mem_cons_of_mem _ htaken)
    | ok made =>
      rw [outcome_of_ok heffect] at hskipped
      exact absurd rfl hskipped

/-- In a run in which nothing is applied, only the membership sequence moves. -/
theorem run_of_idle {events : List ReplicaEvent}
    (h : ∀ taken ∈ replica.history events, ¬ taken.isApplied) :
    ∃ digest, replica.run events = replica.withTxValidity digest := by
  induction events generalizing replica with
  | nil => exact ⟨replica.txValidity, rfl⟩
  | cons event rest ih =>
    cases event with
    | batch deliveries =>
      rw [history, List.forall_mem_append] at h
      have happly : (replica.apply deliveries).1 = replica := (apply_of_idle h.1).1
      obtain ⟨digest, hrest⟩ := ih h.2
      refine ⟨digest, ?_⟩
      show (replica.apply deliveries).1.run rest = _
      rw [hrest, happly]
    | txValidity digest => exact ih h

/-- An applied delivery is reported with the kind and the hash of the operation that it carries. -/
theorem identity_of_isApplied {events : List ReplicaEvent} {taken : Taken}
    (hmem : taken ∈ replica.history events) (happlied : taken.isApplied) :
    ∃ op, taken.delivery.operation = .ok op ∧ taken.outcome.identity = some (op.kind, op.tx) := by
  refine (history_forall (P := fun _ ↦ True) (Q := fun taken ↦ taken.isApplied → ∃ op,
    taken.delivery.operation = .ok op ∧ taken.outcome.identity = some (op.kind, op.tx))
    (fun _ _ _ ↦ trivial) (fun _ _ _ ↦ nofun) ?_ replica trivial events).2 taken hmem happlied
  intro replica delivery op effect _ heffect
  exact ⟨trivial, fun _ ↦ ⟨op, (effect_eq_ok.mp heffect).1, rfl⟩⟩

end Replica

end SettlementLedger
