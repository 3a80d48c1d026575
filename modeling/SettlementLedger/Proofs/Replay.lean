import SettlementLedger.Proofs.Authority
import SettlementLedger.Proofs.Footprint
import SettlementLedger.Proofs.History

/-!
# Every operation takes effect at most once

An applied operation leaves a marker under its hash, and no rule can write a marker
(`Operation.MayWrite`), so that the markers of a store are a record of its history: there is one for
each application, under the hash of the operation and with the bytes that were delivered
(`Replica.Marked`, kept by every delivery). An operation is refused where its marker stands, before
its age and its kind are looked at. Since the bytes of a marker have been authenticated once, and
that does not depend on the state, delivering them again is refused as a replay and as nothing else.
-/

set_option autoImplicit false
set_option relaxedAutoImplicit false

namespace SettlementLedger

/-- The hash and the bytes of a delivery that was applied. -/
def Taken.application? (taken : Taken) : Option (Hash × Bytes) :=
  match taken.outcome.verdict with
  | .applied => taken.outcome.identity.map fun identity ↦ (identity.2, taken.delivery.bytes)
  | .skipped _ => none

/-- An authentic operation whose marker stands is refused as a replay, whatever else is wrong. -/
theorem Operation.transition_of_marked {op : Operation} {suite : Suite} {config : Config}
    {context : Context} {base : View} {members : Membership} {delivery : Delivery}
    (hauthentic : op.authenticate suite = .ok ())
    (hinitializing : ∃ initializing, base.initializing = .ok initializing)
    (hmarked : base.isApplied op.tx = .ok true) :
    op.transition suite config context base members delivery = .error (.replayed op.tx) := by
  obtain ⟨initializing, hinitializing⟩ := hinitializing
  simp only [transition, hauthentic, hinitializing, hmarked]
  rfl

namespace Replica

variable {replica : Replica} {delivery : Delivery} {op : Operation} {effect : Effect}
  {initializing : Bool} {draft : Draft} {record : List (Hash × Bytes)} {tx : Hash} {bytes : Bytes}

/-- The applications of a run: the hashes of the operations and the bytes that were delivered, in
order. -/
def applications (replica : Replica) (events : List ReplicaEvent) : List (Hash × Bytes) :=
  (replica.history events).filterMap Taken.application?

/-- What was applied is among the applications, under its hash and with its bytes. -/
theorem mem_applications {events : List ReplicaEvent} {taken : Taken}
    (hmem : taken ∈ replica.history events) (happlied : taken.isApplied)
    (hcarried : taken.delivery.operation = .ok op) :
    (op.tx, taken.delivery.bytes) ∈ replica.applications events := by
  obtain ⟨found, hfound, hidentity⟩ := identity_of_isApplied hmem happlied
  cases hcarried.symm.trans hfound
  refine List.mem_filterMap.mpr ⟨taken, hmem, ?_⟩
  rw [Taken.application?, Verdict.isApplied_iff.mp happlied, hidentity]
  rfl

/-! ### The marker of an operation -/

theorem Applied.unmarked (h : replica.Applied delivery op effect initializing draft) :
    replica.store.view.appliedOperation op.tx = .ok none := by
  obtain ⟨bytes?, hread, hnone⟩ := View.isApplied_eq_ok.mp h.fresh
  rw [Option.isSome_eq_false_iff, Option.isNone_iff_eq_none] at hnone
  exact hnone ▸ hread

/-- An applied operation sets its own marker and leaves every other one as it is. -/
theorem Applied.appliedOperation (h : replica.Applied delivery op effect initializing draft)
    (tx : Hash) :
    (replica.commit effect.writes effect.changes).store.view.appliedOperation tx =
      if tx = op.tx then .ok (some delivery.bytes)
      else replica.store.view.appliedOperation tx := by
  split
  · rename_i htx
    rw [htx]
    exact h.read_marker
  · rename_i htx
    exact h.read_eq (fun hkey ↦ htx (ViewKey.applied.inj hkey)) fun _ ↦ id

/-- A marker that stands is never touched. -/
theorem appliedOperation_run (replica : Replica) (events : List ReplicaEvent)
    (h : replica.store.view.appliedOperation tx = .ok (some bytes)) :
    (replica.run events).store.view.appliedOperation tx = .ok (some bytes) := by
  refine run_induction (P := fun r ↦ r.store.view.appliedOperation tx = .ok (some bytes))
    (fun _ _ h ↦ h) ?_ replica h events
  intro replica delivery op effect h heffect
  obtain ⟨initializing, draft, happlied⟩ := applied_of_effect heffect
  rw [happlied.appliedOperation, if_neg, h]
  intro htx
  rw [htx, happlied.unmarked] at h
  cases h

/-! ### Markers record the history -/

/-- The markers of a replica record applications: no two of the same hash, and each of an authentic
operation with that hash. -/
structure Marked (replica : Replica) (record : List (Hash × Bytes)) : Prop where
  marker_iff : ∀ tx bytes, replica.store.view.appliedOperation tx = .ok (some bytes) ↔
    (tx, bytes) ∈ record
  once : record.Pairwise fun first second ↦ first.1 ≠ second.1
  authentic : ∀ tx bytes, (tx, bytes) ∈ record → ∃ op,
    (∀ log, Delivery.operation ⟨log, bytes⟩ = .ok op) ∧ op.tx = tx ∧
      op.authenticate replica.engine.suite = .ok ()

namespace Marked

/-- An applied operation was not in the record, and is in it afterwards. -/
theorem applied (h : replica.Marked record)
    (happlied : replica.Applied delivery op effect initializing draft) :
    (replica.commit effect.writes effect.changes).Marked
      (record ++ [(op.tx, delivery.bytes)]) := by
  have hnew : ∀ bytes, (op.tx, bytes) ∉ record := by
    intro bytes hmem
    have hread := (h.marker_iff op.tx bytes).mpr hmem
    rw [happlied.unmarked] at hread
    cases hread
  refine ⟨fun tx bytes ↦ ?_, ?_, fun tx bytes hmem ↦ ?_⟩
  · rw [happlied.appliedOperation, List.mem_append, List.mem_singleton, Prod.mk.injEq]
    by_cases htx : tx = op.tx
    · rw [if_pos htx, htx]
      simp [hnew bytes, eq_comm]
    · rw [if_neg htx, h.marker_iff]
      simp [htx]
  · refine List.pairwise_append.mpr ⟨h.once, List.pairwise_singleton _ _, ?_⟩
    rintro ⟨tx, bytes⟩ hmem _ hlast (rfl : tx = _)
    cases List.mem_singleton.mp hlast
    exact hnew bytes hmem
  · rcases List.mem_append.mp hmem with hearlier | hlast
    · exact h.authentic tx bytes hearlier
    · cases List.mem_singleton.mp hlast
      exact ⟨op, fun _ ↦ happlied.carried, rfl, happlied.authentic⟩

/-- The bytes of an application are refused as a replay on every log. -/
theorem effect_eq (h : replica.Marked record) (hlegible : replica.store.view.Legible)
    (hmem : (tx, delivery.bytes) ∈ record) :
    ∃ op, delivery.operation = .ok op ∧ replica.effect delivery = .error (.replayed op.tx) := by
  obtain ⟨op, hcarried, rfl, hauthentic⟩ := h.authentic tx delivery.bytes hmem
  have hop : delivery.operation = .ok op := hcarried delivery.log
  have hmarked : replica.store.view.isApplied op.tx = .ok true :=
    View.isApplied_eq_ok.mpr ⟨_, (h.marker_iff op.tx delivery.bytes).mpr hmem, rfl⟩
  refine ⟨op, hop, ?_⟩
  simp only [Replica.effect, hop,
    Operation.transition_of_marked hauthentic hlegible.initializing hmarked]

end Marked

theorem marked_run (engine : Engine) (bootstrap : WritingKey) (txValidity : Hash)
    (events : List ReplicaEvent) :
    ((fresh engine bootstrap txValidity).run events).Marked
      ((fresh engine bootstrap txValidity).applications events) := by
  have hfresh : (fresh engine bootstrap txValidity).Marked [] :=
    ⟨fun tx bytes ↦ ⟨nofun, nofun⟩, List.Pairwise.nil, nofun⟩
  refine history_induction
    (P := fun replica history ↦ replica.Marked (history.filterMap Taken.application?)) ?_ ?_ ?_
    (fresh engine bootstrap txValidity) [] hfresh events
  · intro replica history digest h
    exact ⟨h.marker_iff, h.once, h.authentic⟩
  · intro replica history delivery identity refusal h _
    rw [List.filterMap_append]
    show replica.Marked (history.filterMap Taken.application? ++ [])
    rw [List.append_nil]
    exact h
  · intro replica history delivery op effect h heffect
    obtain ⟨initializing, draft, happlied⟩ := applied_of_effect heffect
    rw [List.filterMap_append]
    exact h.applied happlied

/-- **Every operation takes effect at most once.** In every run from the empty store no two
applications have the same hash, whatever the batches, the logs, the cosignatures and the encodings
are. The markers in the store are exactly those of the applications, each with the bytes of its
delivery, which carry an operation with the marker's hash; no later event changes a marker. Bytes
that were applied once are refused as a replay whenever and wherever they are delivered again, and
leave the replica as it is. -/
theorem applied_at_most_once (engine : Engine) (bootstrap : WritingKey) (txValidity : Hash)
    (events : List ReplicaEvent) :
    let replica := (fresh engine bootstrap txValidity).run events
    let applications := (fresh engine bootstrap txValidity).applications events
    applications.Pairwise (fun first second ↦ first.1 ≠ second.1) ∧
      (∀ tx bytes, replica.store.view.appliedOperation tx = .ok (some bytes) ↔
        (tx, bytes) ∈ applications) ∧
      (∀ tx bytes, (tx, bytes) ∈ applications → ∃ op,
        (∀ log, Delivery.operation ⟨log, bytes⟩ = .ok op) ∧ op.tx = tx) ∧
      (∀ later tx bytes, replica.store.view.appliedOperation tx = .ok (some bytes) →
        (replica.run later).store.view.appliedOperation tx = .ok (some bytes)) ∧
      ∀ digest again, (∀ delivery ∈ again, ∃ tx, (tx, delivery.bytes) ∈ applications) →
        let later := replica.withTxValidity digest
        later.apply again = (later, ⟨again.map later.outcome, []⟩) ∧
          ∀ delivery ∈ again, ∃ op, delivery.operation = .ok op ∧
            later.outcome delivery = ⟨some (op.kind, op.tx), .skipped (.replayed op.tx)⟩ := by
  intro replica applications
  have hmarked : replica.Marked applications := marked_run engine bootstrap txValidity events
  have hlegible : replica.store.view.Legible := legible_run engine bootstrap txValidity events
  refine ⟨hmarked.once, hmarked.marker_iff, ?_, fun later tx bytes h ↦
    appliedOperation_run replica later h, ?_⟩
  · intro tx bytes hmem
    obtain ⟨op, hcarried, htx, -⟩ := hmarked.authentic tx bytes hmem
    exact ⟨op, hcarried, htx⟩
  · intro digest again hagain later
    have hlater : later.Marked applications := ⟨hmarked.marker_iff, hmarked.once, hmarked.authentic⟩
    have hrefused : ∀ delivery ∈ again, ∃ op, delivery.operation = .ok op ∧
        later.effect delivery = .error (.replayed op.tx) := by
      intro delivery hdelivery
      obtain ⟨tx, hmem⟩ := hagain delivery hdelivery
      exact hlater.effect_eq hlegible hmem
    refine ⟨apply_of_forall_error fun delivery hdelivery ↦ ?_, fun delivery hdelivery ↦ ?_⟩
    · obtain ⟨op, -, heffect⟩ := hrefused delivery hdelivery
      exact ⟨_, heffect⟩
    · obtain ⟨op, hop, heffect⟩ := hrefused delivery hdelivery
      refine ⟨op, hop, ?_⟩
      simp only [outcome, hop, heffect]
      rfl

end Replica

end SettlementLedger
