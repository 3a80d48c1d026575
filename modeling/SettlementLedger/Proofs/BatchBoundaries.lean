import SettlementLedger.Replica

/-!
# Batch boundaries

Within one call the engine reads through the writes of earlier deliveries and keeps a membership set
of its own. Between calls the host commits those writes and makes those changes. This module shows
that the two come to the same: where a sequence of deliveries is cut into calls is not seen by any
delivery, nor by the replica at the end.

The engine sees its progress only through the view and the members (`Engine.step_agrees`,
`Engine.run_agrees`): from two progresses that agree in both, a list of deliveries has the same
outcomes and adds one and the same effect (`Progress.absorb`). Committing an effect and absorbing it
give the same view and the same members, so a call may be cut in two (`Replica.applyOnto_append`)
and, by induction, into any number of pieces (`Replica.applyPieces`).
-/

set_option autoImplicit false
set_option relaxedAutoImplicit false

namespace SettlementLedger

/-! ### Merging write sets -/

namespace SortedMap

variable {κ ν : Type} [Ord κ] [Std.TransOrd κ] [Std.LawfulEqOrd κ]

@[simp] theorem merge_empty (map : SortedMap κ ν) : map.merge .empty = map := rfl

@[simp] theorem empty_merge (map : SortedMap κ ν) : (empty : SortedMap κ ν).merge map = map := by
  ext key : 1
  rw [get?_merge, get?_empty, Option.or_none]

theorem merge_assoc (first second third : SortedMap κ ν) :
    (first.merge second).merge third = first.merge (second.merge third) := by
  ext key : 1
  simp only [get?_merge, Option.or_assoc]

end SortedMap

theorem Store.commit_merge (store : Store) (first second : WriteSet) :
    store.commit (first.merge second) = Store.commit (store.commit first) second :=
  (SortedMap.merge_assoc store first second).symm

@[simp] theorem Store.commit_empty (store : Store) : store.commit .empty = store := rfl

/-! ### Effects one after the other -/

namespace Effect

/-- The effect of deliveries that are all skipped. -/
def none : Effect := ⟨.empty, []⟩

/-- An effect followed by another one. -/
def andThen (first second : Effect) : Effect where
  writes := first.writes.merge second.writes
  changes := first.changes ++ second.changes

end Effect

namespace Progress

@[simp] theorem absorb_none (progress : Progress) : progress.absorb .none = progress := by
  simp only [absorb, Effect.none, Batch.merge, SortedMap.merge_empty, List.append_nil]
  rfl

theorem absorb_andThen (progress : Progress) (first second : Effect) :
    progress.absorb (first.andThen second) = (progress.absorb first).absorb second := by
  simp only [absorb, Effect.andThen, Batch.merge, SortedMap.merge_assoc,
    Membership.applyAll_append, List.append_assoc]

/-- What the engine sees of its progress is the same: the view and the members. -/
structure Agrees (first second : Progress) : Prop where
  view : first.batch.view = second.batch.view
  members : first.members = second.members

theorem Agrees.absorb {first second : Progress} (h : first.Agrees second) (effect : Effect) :
    (first.absorb effect).Agrees (second.absorb effect) where
  view := by
    show (first.batch.merge effect.writes).view = (second.batch.merge effect.writes).view
    rw [Batch.view_merge, Batch.view_merge, h.view]
  members := congrArg (Membership.applyAll · effect.changes) h.members

end Progress

/-! ### What the engine sees -/

/-- Two contexts say the same of the ledger, apart from its members. -/
structure Context.Agrees (first second : Context) : Prop where
  bootstrap : first.bootstrap = second.bootstrap
  txValidity : first.txValidity = second.txValidity

theorem Operation.transition_congr {first second : Context} (h : first.Agrees second)
    (op : Operation) (suite : Suite) (config : Config) (base : View) (members : Membership)
    (delivery : Delivery) :
    op.transition suite config first base members delivery =
      op.transition suite config second base members delivery := by
  simp only [Operation.transition, h.bootstrap, h.txValidity]

namespace Engine

variable (engine : Engine) {context context' : Context} {progress progress' : Progress}

/-- A delivery adds the same effect to two progresses that agree. -/
theorem step_agrees (hcontext : context.Agrees context') (h : progress.Agrees progress')
    (delivery : Delivery) :
    ∃ effect outcome, engine.step context progress delivery = (progress.absorb effect, outcome) ∧
      engine.step context' progress' delivery = (progress'.absorb effect, outcome) := by
  have heffect (op : Operation) : engine.effect context progress delivery op =
      engine.effect context' progress' delivery op := by
    rw [Engine.effect, Engine.effect, h.view, h.members, Operation.transition_congr hcontext]
  simp only [step]
  cases delivery.operation with
  | error refusal => exact ⟨.none, ⟨none, .skipped refusal⟩, by simp, by simp⟩
  | ok op =>
    simp only [heffect]
    cases engine.effect context' progress' delivery op with
    | error refusal =>
      exact ⟨.none, ⟨some (op.kind, op.tx), .skipped refusal⟩, by simp, by simp⟩
    | ok effect => exact ⟨effect, ⟨some (op.kind, op.tx), .applied⟩, rfl, rfl⟩

/-- A list of deliveries adds the same effect to two progresses that agree. -/
theorem run_agrees (hcontext : context.Agrees context') (h : progress.Agrees progress')
    (deliveries : List Delivery) :
    ∃ effect outcomes,
      engine.run context progress deliveries = (progress.absorb effect, outcomes) ∧
        engine.run context' progress' deliveries = (progress'.absorb effect, outcomes) := by
  induction deliveries generalizing progress progress' with
  | nil => exact ⟨.none, [], by simp [run], by simp [run]⟩
  | cons delivery rest ih =>
    obtain ⟨first, outcome, hstep, hstep'⟩ := engine.step_agrees hcontext h delivery
    obtain ⟨later, outcomes, hrun, hrun'⟩ := ih (h.absorb first)
    refine ⟨first.andThen later, outcome :: outcomes, ?_, ?_⟩
    · simp only [run, hstep, hrun, Progress.absorb_andThen]
    · simp only [run, hstep', hrun', Progress.absorb_andThen]

end Engine

/-! ### Cutting a call in two -/

/-- The reports of two calls one after the other as one report. -/
def Report.append (first second : Report) : Report where
  outcomes := first.outcomes ++ second.outcomes
  diff := first.diff ++ second.diff

/-- The report of no call. -/
def Report.empty : Report := ⟨[], []⟩

@[simp] theorem Report.append_empty (report : Report) : report.append .empty = report := by
  simp [Report.append, Report.empty]

theorem Report.append_assoc (first second third : Report) :
    (first.append second).append third = first.append (second.append third) := by
  simp [Report.append]

namespace Replica

/-- Where the engine starts on a replica with pending writes. -/
def start (replica : Replica) (pending : WriteSet) : Progress where
  batch := { base := replica.store.view, pending }
  members := replica.members

/-- Applies deliveries in one call on top of writes that are already pending, and commits it all. -/
def applyOnto (replica : Replica) (pending : WriteSet) (deliveries : List Delivery) :
    Replica × Report :=
  let (batch, report) :=
    replica.engine.apply { base := replica.store.view, pending } replica.context deliveries
  (replica.commit batch.pending report.diff, report)

theorem apply_eq_applyOnto (replica : Replica) (deliveries : List Delivery) :
    replica.apply deliveries = replica.applyOnto .empty deliveries := rfl

/-- Applies pieces of a sequence in one call each. -/
def applyPieces (replica : Replica) : List (List Delivery) → Replica × Report
  | [] => (replica, .empty)
  | piece :: pieces =>
    let (next, report) := replica.apply piece
    let (last, later) := next.applyPieces pieces
    (last, report.append later)

/-- A call that adds an effect to the starting progress commits that effect. -/
theorem applyOnto_of_run {replica : Replica} {pending : WriteSet} {deliveries : List Delivery}
    {effect : Effect} {outcomes : List Outcome}
    (h : replica.engine.run replica.context (replica.start pending) deliveries =
      ((replica.start pending).absorb effect, outcomes)) :
    replica.applyOnto pending deliveries =
      (replica.commit (pending.merge effect.writes) effect.changes, ⟨outcomes, effect.changes⟩) := by
  have happly : replica.engine.apply { base := replica.store.view, pending } replica.context
      deliveries = (((replica.start pending).absorb effect).batch, ⟨outcomes, effect.changes⟩) := by
    have hrun : replica.engine.run replica.context
        { batch := { base := replica.store.view, pending }, members := replica.context.members }
        deliveries = ((replica.start pending).absorb effect, outcomes) := h
    rw [Engine.apply, hrun]
    rfl
  simp only [applyOnto, happly]
  rfl

/-- Committed writes show through as pending ones did, and so do the members. -/
theorem start_commit_agrees (replica : Replica) (pending : WriteSet) (effect : Effect) :
    ((replica.start pending).absorb effect).Agrees
      ((replica.commit (pending.merge effect.writes) effect.changes).start .empty) where
  view := (Store.view_commit replica.store (pending.merge effect.writes)).symm
  members := rfl

/-- A call may be cut in two: its first part is committed before the second part is applied. -/
theorem applyOnto_append (replica : Replica) (pending : WriteSet)
    (first second : List Delivery) :
    replica.applyOnto pending (first ++ second) =
      (((replica.applyOnto pending first).1.apply second).1,
        (replica.applyOnto pending first).2.append
          ((replica.applyOnto pending first).1.apply second).2) := by
  have hsame : replica.context.Agrees replica.context := ⟨rfl, rfl⟩
  have hstart : (replica.start pending).Agrees (replica.start pending) := ⟨rfl, rfl⟩
  obtain ⟨early, outcomes, hfirst, -⟩ := replica.engine.run_agrees hsame hstart first
  -- The second part is run twice, over the progress of the first and over what it commits.
  let middle := replica.commit (pending.merge early.writes) early.changes
  have hmiddle : replica.context.Agrees middle.context := ⟨rfl, rfl⟩
  obtain ⟨late, outcomes', hsecond, hsecond'⟩ :=
    replica.engine.run_agrees hmiddle (replica.start_commit_agrees pending early) second
  have hwhole : replica.engine.run replica.context (replica.start pending) (first ++ second) =
      ((replica.start pending).absorb (early.andThen late), outcomes ++ outcomes') := by
    rw [Engine.run_append, hfirst, hsecond, Progress.absorb_andThen]
  have hlater : middle.apply second =
      (middle.commit late.writes late.changes, ⟨outcomes', late.changes⟩) := by
    have h : middle.applyOnto .empty second = _ := applyOnto_of_run hsecond'
    rwa [SortedMap.empty_merge] at h
  rw [applyOnto_of_run hwhole, applyOnto_of_run hfirst]
  show _ = ((middle.apply second).1, Report.append _ (middle.apply second).2)
  rw [hlater]
  simp only [commit, middle, Effect.andThen, ← SortedMap.merge_assoc, Store.commit_merge,
    Membership.applyAll_append, Report.append]

theorem apply_append (replica : Replica) (first second : List Delivery) :
    replica.apply (first ++ second) =
      (((replica.apply first).1.apply second).1,
        (replica.apply first).2.append ((replica.apply first).1.apply second).2) :=
  replica.applyOnto_append .empty first second

/-- A call may be cut into any number of pieces. -/
theorem applyOnto_append_flatten (replica : Replica) (pending : WriteSet) (first : List Delivery)
    (pieces : List (List Delivery)) :
    replica.applyOnto pending (first ++ pieces.flatten) =
      (((replica.applyOnto pending first).1.applyPieces pieces).1,
        (replica.applyOnto pending first).2.append
          ((replica.applyOnto pending first).1.applyPieces pieces).2) := by
  induction pieces generalizing first with
  | nil => simp [applyPieces]
  | cons piece pieces ih =>
    have hcut : first ++ (piece :: pieces).flatten = (first ++ piece) ++ pieces.flatten := by
      rw [List.flatten_cons, List.append_assoc]
    rw [hcut, ih (first ++ piece), applyOnto_append]
    simp only [applyPieces, Report.append_assoc]

theorem length_applyOnto (replica : Replica) (pending : WriteSet) (deliveries : List Delivery) :
    (replica.applyOnto pending deliveries).2.outcomes.length = deliveries.length :=
  replica.engine.length_apply replica.context _ deliveries

/-- **Batch boundaries do not matter.** Deliveries that are applied in one call on top of pending
writes leave the replica that they leave when the sequence is cut into pieces, each of them a call
of its own that is committed before the next: the same entries and the same members. The outcomes
are the same, one for each delivery, and the reported changes of the pieces, joined, are those of
the one call. -/
theorem applyOnto_flatten (replica : Replica) (pending : WriteSet) (first : List Delivery)
    (pieces : List (List Delivery)) :
    replica.applyOnto pending (first ++ pieces.flatten) =
        (((replica.applyOnto pending first).1.applyPieces pieces).1,
          (replica.applyOnto pending first).2.append
            ((replica.applyOnto pending first).1.applyPieces pieces).2) ∧
      (replica.applyOnto pending (first ++ pieces.flatten)).2.outcomes.length =
        (first ++ pieces.flatten).length :=
  ⟨replica.applyOnto_append_flatten pending first pieces, replica.length_applyOnto pending _⟩

end Replica

end SettlementLedger
