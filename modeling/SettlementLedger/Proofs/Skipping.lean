import SettlementLedger.Proofs.History

/-!
# Skipped deliveries leave no trace

A rule may fail after it has staged records, registry entries and membership changes: a fee is
settled last. The draft and its changes are then dropped as a whole, so that a skipped delivery
leaves the progress of the call as it was (`Engine.step_of_not_isApplied`). By induction over the
deliveries a call does the same without any of those that it skipped (`Engine.run_of_thins`).
Nothing is asked of the base view: its reads may fail, and its entries need not decode.
-/

set_option autoImplicit false
set_option relaxedAutoImplicit false

namespace SettlementLedger

namespace Taken

/-- A list of deliveries with their outcomes, and what is left of it when some of those that were
skipped are taken out. -/
inductive Thins : List Taken → List Taken → Prop
  | nil : Thins [] []
  | keeps (taken : Taken) {all kept : List Taken} (rest : Thins all kept) :
      Thins (taken :: all) (taken :: kept)
  | drops (taken : Taken) {all kept : List Taken} (skipped : ¬ taken.isApplied)
      (rest : Thins all kept) : Thins (taken :: all) kept

/-- All of those that were skipped may be taken out. -/
theorem thins_filter (all : List Taken) : Thins all (all.filter isApplied) := by
  induction all with
  | nil => exact .nil
  | cons taken rest ih =>
    by_cases happlied : taken.isApplied
    · rw [List.filter_cons_of_pos happlied]
      exact .keeps taken ih
    · rw [List.filter_cons_of_neg happlied]
      exact .drops taken happlied ih

end Taken

namespace Engine

variable (engine : Engine) (context : Context)

/-- A delivery that is not applied leaves the progress as it is. -/
theorem step_of_not_isApplied {progress : Progress} {delivery : Delivery}
    (h : ¬ (engine.step context progress delivery).2.verdict.isApplied) :
    (engine.step context progress delivery).1 = progress := by
  unfold step at h ⊢
  cases hcarried : delivery.operation with
  | error refusal => rfl
  | ok op =>
    simp only [hcarried] at h ⊢
    cases heffect : engine.effect context progress delivery op with
    | error refusal => rfl
    | ok effect =>
      rw [heffect] at h
      exact absurd rfl h

/-- The deliveries of a run with their outcomes. -/
def takes (progress : Progress) (deliveries : List Delivery) : List Taken :=
  List.zipWith Taken.mk deliveries (engine.run context progress deliveries).2

theorem takes_cons (progress : Progress) (delivery : Delivery) (rest : List Delivery) :
    engine.takes context progress (delivery :: rest) =
      ⟨delivery, (engine.step context progress delivery).2⟩ ::
        engine.takes context (engine.step context progress delivery).1 rest := rfl

/-- A run is the same without deliveries that it skipped, but for their outcomes. -/
theorem run_of_thins {progress : Progress} {deliveries : List Delivery} {kept : List Taken}
    (h : Taken.Thins (engine.takes context progress deliveries) kept) :
    engine.run context progress (kept.map Taken.delivery) =
      ((engine.run context progress deliveries).1, kept.map Taken.outcome) := by
  induction deliveries generalizing progress kept with
  | nil =>
    cases h
    rfl
  | cons delivery rest ih =>
    rw [takes_cons] at h
    cases h with
    | keeps taken hrest => simp only [List.map_cons, run, ih hrest]
    | drops taken hskipped hrest =>
      have hstays := engine.step_of_not_isApplied context hskipped
      rw [hstays] at hrest
      simp only [run, hstays]
      exact ih hrest

/-- **Skipped deliveries leave no trace.** Whatever the base view, the pending writes and the context
are, a call has one outcome for each delivery. A call from which any of the deliveries that it
skipped are taken out makes the same writes and the same membership changes, and every other
delivery has the outcome that it had. The deliveries that were applied make the whole of the batch
alone, and each of them is applied again. -/
theorem apply_without_skipped (engine : Engine) (batch : Batch) (context : Context)
    (deliveries : List Delivery) :
    let after := (engine.apply batch context deliveries).1
    let report := (engine.apply batch context deliveries).2
    let taken := List.zipWith Taken.mk deliveries report.outcomes
    let applied := taken.filter Taken.isApplied
    report.outcomes.length = deliveries.length ∧
      (∀ kept, Taken.Thins taken kept →
        engine.apply batch context (kept.map Taken.delivery) =
          (after, ⟨kept.map Taken.outcome, report.diff⟩)) ∧
      engine.apply batch context (applied.map Taken.delivery) =
          (after, ⟨applied.map Taken.outcome, report.diff⟩) ∧
        ∀ again ∈ applied, again.outcome.verdict = .applied := by
  intro after report taken applied
  have hkept (kept : List Taken) (h : Taken.Thins taken kept) :
      engine.apply batch context (kept.map Taken.delivery) =
        (after, ⟨kept.map Taken.outcome, report.diff⟩) := by
    have hrun := engine.run_of_thins context h
    rw [apply, hrun]
    rfl
  refine ⟨engine.length_apply context batch deliveries, hkept,
    hkept applied (Taken.thins_filter taken), fun again hagain ↦ ?_⟩
  exact Verdict.isApplied_iff.mp (List.mem_filter.mp hagain).2

end Engine

end SettlementLedger
