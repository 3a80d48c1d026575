import SettlementLedger.Transition

/-!
# The engine

The engine takes the deliveries of a call one after the other. Each of them is applied whole, its
writes folded into the batch and its membership changes into the working membership set, or it is
skipped and leaves nothing behind. A skipped delivery never keeps a later one from being applied.
-/

set_option autoImplicit false
set_option relaxedAutoImplicit false

namespace SettlementLedger

/-- Whether a delivery was applied. -/
inductive Verdict where
  | applied
  | skipped (refusal : Refusal)
  deriving DecidableEq

namespace Verdict

/-- Whether a delivery was applied. -/
def isApplied : Verdict → Bool
  | applied => true
  | skipped _ => false

/-- Why a delivery was skipped. -/
def refusal? : Verdict → Option Refusal
  | applied => none
  | skipped refusal => some refusal

end Verdict

/-- What became of a delivery. -/
structure Outcome where
  /-- The kind and the hash of the operation, if the delivery carries one. -/
  identity : Option (Kind × Hash)
  verdict : Verdict
  deriving DecidableEq

/-- What a call of the engine reports besides its writes. -/
structure Report where
  /-- One outcome for each delivery, in order. -/
  outcomes : List Outcome
  /-- The membership changes that the host makes when it commits the writes. -/
  diff : MembershipDiff

namespace Report

/-- The number of applied deliveries. -/
def applied (report : Report) : Nat :=
  report.outcomes.countP fun outcome ↦ outcome.verdict.isApplied

/-- The number of skipped deliveries. -/
def skipped (report : Report) : Nat :=
  report.outcomes.countP fun outcome ↦ !outcome.verdict.isApplied

end Report

/-- A cipher suite and a valid configuration. -/
structure Engine where
  suite : Suite
  config : Config
  config_valid : config.validate = .ok ()

/-- What deliveries of a call have changed so far. -/
structure Progress where
  batch : Batch
  /-- The membership set with every change made. -/
  members : Membership
  /-- The membership changes in order. -/
  diff : MembershipDiff := []

/-- The progress after an operation is applied. -/
def Progress.absorb (progress : Progress) (effect : Effect) : Progress where
  batch := progress.batch.merge effect.writes
  members := progress.members.applyAll effect.changes
  diff := progress.diff ++ effect.changes

namespace Engine

/-- The engine that runs with a configuration, if it is valid. -/
def ofConfig (suite : Suite) (config : Config) : Except ConfigError Engine :=
  match h : config.validate with
  | .ok () => .ok ⟨suite, config, h⟩
  | .error cause => .error cause

/-- The effect of an operation in the state that earlier deliveries left. -/
def effect (engine : Engine) (context : Context) (progress : Progress) (delivery : Delivery)
    (op : Operation) : Except Refusal Effect :=
  op.transition engine.suite engine.config context progress.batch.view progress.members delivery

/-- Takes one delivery. -/
def step (engine : Engine) (context : Context) (progress : Progress) (delivery : Delivery) :
    Progress × Outcome :=
  match delivery.operation with
  | .error refusal => (progress, ⟨none, .skipped refusal⟩)
  | .ok op =>
    match engine.effect context progress delivery op with
    | .error refusal => (progress, ⟨some (op.kind, op.tx), .skipped refusal⟩)
    | .ok effect => (progress.absorb effect, ⟨some (op.kind, op.tx), .applied⟩)

/-- Takes deliveries in order. -/
def run (engine : Engine) (context : Context) (progress : Progress) :
    List Delivery → Progress × List Outcome
  | [] => (progress, [])
  | delivery :: rest =>
    let (next, outcome) := engine.step context progress delivery
    let (final, outcomes) := engine.run context next rest
    (final, outcome :: outcomes)

/-- Takes the deliveries of one call on top of a batch. -/
def apply (engine : Engine) (batch : Batch) (context : Context) (deliveries : List Delivery) :
    Batch × Report :=
  let (final, outcomes) := engine.run context { batch, members := context.members } deliveries
  (final.batch, { outcomes, diff := final.diff })

/-! ### Runs -/

variable (engine : Engine) (context : Context)

/-- A run goes on where the run of an initial part ends. -/
theorem run_append (progress : Progress) (first second : List Delivery) :
    engine.run context progress (first ++ second) =
      ((engine.run context (engine.run context progress first).1 second).1,
        (engine.run context progress first).2 ++
          (engine.run context (engine.run context progress first).1 second).2) := by
  induction first generalizing progress with
  | nil => rfl
  | cons delivery rest ih => simp [run, ih]

@[simp] theorem length_run (progress : Progress) (deliveries : List Delivery) :
    (engine.run context progress deliveries).2.length = deliveries.length := by
  induction deliveries generalizing progress with
  | nil => rfl
  | cons delivery rest ih => simp [run, ih]

/-- A call has one outcome for each delivery. -/
theorem length_apply (batch : Batch) (deliveries : List Delivery) :
    (engine.apply batch context deliveries).2.outcomes.length = deliveries.length :=
  engine.length_run context _ deliveries

end Engine

end SettlementLedger
