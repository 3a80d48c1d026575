import SettlementLedger.Proofs.Charges
import SettlementLedger.Proofs.Registration
import SettlementLedger.Proofs.Subnetworks

/-!
# The initialization phase closes for good

While the initialization phase is open the administrator pays no fee, except for what concerns the
indexers, and credits participants out of nothing. The flag is written by two operations. The
registration opens it, and it is refused where there is an administrator; the closing closes it, and
it is refused where it is closed. So a flag that is closed under an administrator stays closed
(`View.Closed`, `Replica.Applied.closed`).

What an operation costs is decided by the flag as it stood before the operation, so that the closing
itself is still free.
-/

set_option autoImplicit false
set_option relaxedAutoImplicit false

namespace SettlementLedger

namespace Operation

/-- The requester of an operation owes no fee: it becomes the administrator, or it is the
administrator while the phase is open and the operation does not concern the indexers. -/
def Waived (op : Operation) (view : View) : Prop :=
  op.kind = .addAdmin ∨ (view.initializing = .ok true ∧ view.Administers op.requester ∧
    op.kind ∉ [.addIndexer, .removeIndexer])

theorem isSpared_iff_waived {op : Operation} {view : View} :
    op.isSpared view ↔ op.Waived view := by
  rw [Waived, ← and_assoc, ← View.initializesAs_iff]
  unfold isSpared
  split <;> simp_all

end Operation

/-! ### The flag -/

namespace View

variable {view before after : View}

theorem initializing_congr (h : after.read .initialization = before.read .initialization) :
    after.initializing = before.initializing := by
  rw [initializing, initializing, readAs_congr h]

theorem initializing_of_read {flag : UInt8} (h : view.read .initialization = .ok (some [flag])) :
    view.initializing = .ok (flag != 0) := by
  have hflag : view.readAs decodeFlag .initialization = .ok (some (flag != 0)) :=
    readAs_of_read h rfl
  rw [initializing, hflag]
  rfl

/-- The initialization phase is closed, and there is an administrator. -/
structure Closed (view : View) : Prop where
  flag : view.initializing = .ok false
  administered : ∃ admin, view.admin = .ok (some admin)

end View

namespace Setting

variable {setting : Setting} {draft result : Draft}

/-- Two kinds of operations need an open phase. -/
theorem initializing_of_rule (h : setting.rule draft = .ok result)
    (hkind : setting.operation.kind ∈ [.disableInitialization, .balanceInitialization]) :
    setting.initializing := by
  cases ruling_of_rule h with
  | disableInitialization key kind body ok =>
    obtain ⟨admin, -, -, hopen, -⟩ := disableInitialization_eq_ok.mp ok
    exact hopen
  | balanceInitialization target amount kind body ok =>
    obtain ⟨admin, -, hopen, -⟩ := balanceInitialization_eq_ok.mp ok
    exact hopen
  | addAdmin _ kind | appendWhitelist _ kind | banValidator _ kind | addIndexer _ kind
  | removeIndexer _ kind | addWriter _ kind | removeWriter _ kind | adminRecovery _ kind
  | transfer _ _ kind | transaction _ _ _ _ kind | bootstrapDeployment _ _ kind =>
    simp [kind] at hkind

theorem read_of_disableInitialization {key : WritingKey}
    (h : setting.disableInitialization draft key = .ok result) :
    result.view.read .initialization = .ok (some [0]) := by
  obtain ⟨admin, -, -, -, hsettle⟩ := disableInitialization_eq_ok.mp h
  rw [(movesBalances_of_settle hsettle).read .initialization (by simp), Draft.read_put, if_pos rfl]

/-- The closing closes the phase. -/
theorem read_of_rule (h : setting.rule draft = .ok result)
    (hkind : setting.operation.kind = .disableInitialization) :
    result.view.read .initialization = .ok (some [0]) := by
  cases ruling_of_rule h with
  | disableInitialization key kind body ok => exact read_of_disableInitialization ok
  | addAdmin _ kind | balanceInitialization _ _ kind | appendWhitelist _ kind
  | banValidator _ kind | addIndexer _ kind | removeIndexer _ kind | addWriter _ kind
  | removeWriter _ kind | adminRecovery _ kind | transfer _ _ kind | transaction _ _ _ _ kind
  | bootstrapDeployment _ _ kind => simp [hkind] at kind

end Setting

/-! ### Runs -/

namespace Replica

open View

variable {replica : Replica} {delivery : Delivery} {op : Operation} {effect : Effect}
  {initializing : Bool} {draft : Draft}

namespace Applied

/-- The closing finds the phase open, is requested by the administrator and leaves the phase
closed. -/
theorem closes (h : replica.Applied delivery op effect initializing draft)
    (hkind : op.kind = .disableInitialization) :
    replica.store.view.initializing = .ok true ∧
      replica.store.view.Administers op.requester ∧
      (replica.commit effect.writes effect.changes).store.view.Closed := by
  have hopen : initializing = true := Setting.initializing_of_rule h.rule (by
    show op.kind ∈ _
    simp [hkind])
  have hadmin := h.entitled.administers (by rw [hkind]; rfl)
  refine ⟨hopen ▸ h.initializing_eq, ⟨_, hadmin, rfl⟩, ?_, ?_⟩
  · have hread : (replica.commit effect.writes effect.changes).store.view.read .initialization =
        .ok (some [0]) := by
      rw [h.view, Draft.read_put, if_neg (by simp)]
      exact Setting.read_of_rule h.rule hkind
    exact initializing_of_read hread
  · obtain ⟨key, hafter⟩ := h.standingStep.admin_eq_some ⟨_, hadmin⟩
    exact ⟨_, hafter⟩

/-- What is never applied once the phase is closed. -/
theorem kind_of_closed (h : replica.Applied delivery op effect initializing draft)
    (hclosed : replica.store.view.Closed) :
    op.kind ∉ [.addAdmin, .disableInitialization, .balanceInitialization] := by
  intro hkind
  rw [List.mem_cons] at hkind
  rcases hkind with hkind | hkind
  · obtain ⟨admin, hadmin⟩ := hclosed.administered
    have hnone := (h.entitled.registers hkind).1
    rw [hadmin] at hnone
    cases hnone
  · have hopen : initializing = true := Setting.initializing_of_rule h.rule hkind
    have hflag := h.initializing_eq
    rw [hclosed.flag, hopen] at hflag
    cases hflag

/-- A closed phase stays closed. -/
theorem closed (h : replica.Applied delivery op effect initializing draft)
    (hclosed : replica.store.view.Closed) :
    (replica.commit effect.writes effect.changes).store.view.Closed where
  flag := by
    have hkind := h.kind_of_closed hclosed
    refine (initializing_congr (h.read_eq (by simp) ?_)).trans hclosed.flag
    rintro value (⟨hadd, -⟩ | ⟨hdisable, -⟩)
    · simp [hadd] at hkind
    · simp [hdisable] at hkind
  administered := by
    obtain ⟨admin, hadmin⟩ := hclosed.administered
    obtain ⟨key, hafter⟩ := h.standingStep.admin_eq_some ⟨_, hadmin⟩
    exact ⟨_, hafter⟩

/-- Once the phase is closed nobody is spared. -/
theorem charges_of_closed (h : replica.Applied delivery op effect initializing draft)
    (hlegible : replica.store.view.Legible) (hclosed : replica.store.view.Closed) :
    op.Charges replica.engine.config replica.engine.config.fee.raw replica.store.view
      (replica.commit effect.writes effect.changes).store.view := by
  have hcharges := h.charges hlegible
  have hnot : ¬ op.isSpared replica.store.view := by
    rw [Operation.isSpared_iff_waived]
    rintro (hadd | ⟨hopen, -⟩)
    · exact h.kind_of_closed hclosed (by simp [hadd])
    · rw [hclosed.flag] at hopen
      cases hopen
  rwa [Operation.charge, if_neg hnot] at hcharges

end Applied

/-- Whatever happens next, a closed phase stays closed, and what needs an open phase or no
administrator is never applied. -/
theorem closed_history (h : replica.store.view.Closed) (events : List ReplicaEvent) :
    (replica.run events).store.view.Closed ∧
      ∀ taken ∈ replica.history events, ∀ kind ∈ taken.appliedKind?,
        kind ∉ [.addAdmin, .disableInitialization, .balanceInitialization] := by
  refine history_forall (P := fun replica ↦ replica.store.view.Closed) (fun _ _ h ↦ h)
    (fun _ _ _ ↦ nofun) ?_ replica h events
  intro replica delivery op effect h heffect
  obtain ⟨initializing, draft, happlied⟩ := applied_of_effect heffect
  refine ⟨happlied.closed h, ?_⟩
  rintro kind hkind
  cases hkind
  exact happlied.kind_of_closed h

/-- Every operation that the replica applies in its next batch costs its requester the whole fee. -/
def ChargesInFull (replica : Replica) : Prop :=
  ∀ batch delivery kind tx,
    (replica.apply (batch ++ [delivery])).2.outcomes.getLast? =
        some ⟨some (kind, tx), .applied⟩ →
      ∃ op, delivery.operation = .ok op ∧
        op.Charges replica.engine.config replica.engine.config.fee.raw
          (replica.apply batch).1.store.view (replica.apply (batch ++ [delivery])).1.store.view

theorem chargesInFull_of_closed (engine : Engine) (bootstrap : WritingKey) (txValidity : Hash)
    (events : List ReplicaEvent)
    (h : ((fresh engine bootstrap txValidity).run events).store.view.Closed) :
    ((fresh engine bootstrap txValidity).run events).ChargesInFull := by
  intro batch delivery kind tx hlast
  obtain ⟨op, effect, initializing, draft, happlied, -, hafter⟩ := applied_of_getLast hlast
  have hclosed := (closed_history h [.batch batch]).1
  have hlegible := legible_run engine bootstrap txValidity (events ++ [.batch batch])
  rw [run_batch] at hlegible
  rw [hafter]
  exact ⟨op, happlied.carried, happlied.charges_of_closed hlegible hclosed⟩

/-- **The initialization phase closes for good.** Whatever a replica has taken before, an operation
that is applied is free for its requester if it registers the administrator, or if the phase was open
before it, the requester is the administrator, and it does not concern the indexers; every other
operation costs the whole fee. The closing of the phase finds it open and is free. In whatever
follows it the phase is closed, nobody is registered as the administrator, nobody is credited out of
nothing, the phase is not closed again, and every operation costs its requester the whole fee. -/
theorem initialization_closes_for_good (engine : Engine) (bootstrap : WritingKey)
    (txValidity : Hash) (events : List ReplicaEvent) :
    let config := engine.config
    let replica := (fresh engine bootstrap txValidity).run events
    ∀ batch delivery kind tx,
      let before := (replica.apply batch).1
      let after := (replica.apply (batch ++ [delivery])).1
      (replica.apply (batch ++ [delivery])).2.outcomes.getLast? =
          some ⟨some (kind, tx), .applied⟩ →
        ∃ op, delivery.operation = .ok op ∧ op.kind = kind ∧
          (op.Waived before.store.view →
            op.Charges config 0 before.store.view after.store.view) ∧
          (¬ op.Waived before.store.view →
            op.Charges config config.fee.raw before.store.view after.store.view) ∧
          (kind = .disableInitialization →
            before.store.view.initializing = .ok true ∧
            before.store.view.Administers op.requester ∧
            op.Charges config 0 before.store.view after.store.view ∧
            ∀ later,
              (after.run later).engine = engine ∧
              (after.run later).store.view.initializing = .ok false ∧
              (∀ taken ∈ after.history later, ∀ kind ∈ taken.appliedKind?,
                kind ∉ [.addAdmin, .disableInitialization, .balanceInitialization]) ∧
              (after.run later).ChargesInFull) := by
  intro config replica batch delivery kind tx before after hlast
  obtain ⟨op, effect, initializing, draft, happlied, rfl, hafter⟩ := applied_of_getLast hlast
  have hrun : (fresh engine bootstrap txValidity).run (events ++ [.batch batch]) = before :=
    run_batch _ events batch
  have hlegible : before.store.view.Legible := hrun ▸ legible_run engine bootstrap txValidity _
  have hconfig : before.engine.config = config := by
    rw [← hrun, (run_fixed _ _).1]
    rfl
  have hafter : after = before.commit effect.writes effect.changes := hafter
  have hcharges : op.Charges config (op.charge config before.store.view) before.store.view
      after.store.view := by
    rw [hafter, ← hconfig]
    exact happlied.charges hlegible
  have hfree (hwaived : op.Waived before.store.view) :
      op.Charges config 0 before.store.view after.store.view := by
    rwa [Operation.charge, if_pos (Operation.isSpared_iff_waived.mpr hwaived)] at hcharges
  refine ⟨op, happlied.carried, rfl, hfree, fun hnot ↦ ?_, fun hkind ↦ ?_⟩
  · rwa [Operation.charge, if_neg fun hspared ↦ hnot (Operation.isSpared_iff_waived.mp hspared)]
      at hcharges
  · obtain ⟨hopen, hadmin, hclosed⟩ := happlied.closes hkind
    rw [← hafter] at hclosed
    refine ⟨hopen, hadmin, hfree (Or.inr ⟨hopen, hadmin, by simp [hkind]⟩), fun later ↦ ?_⟩
    obtain ⟨hlater, hkinds⟩ := closed_history hclosed later
    have hrun : (fresh engine bootstrap txValidity).run
        (events ++ .batch (batch ++ [delivery]) :: later) = after.run later :=
      run_append _ events _
    have hfull := chargesInFull_of_closed engine bootstrap txValidity
      (events ++ .batch (batch ++ [delivery]) :: later)
    rw [hrun] at hfull
    exact ⟨hrun ▸ (run_fixed _ _).1, hlater.flag, hkinds, hfull hlater⟩

end Replica

/-! ### A phase that is closed -/

namespace ZeroFounding

/-- The first participant becomes the administrator under the zero key. -/
def registered : Delivery := deliver .zero .addAdmin (.coreAdmin .zero) 1 1

/-- The administrator closes the phase. -/
def closure : Operation where
  kind := .disableInitialization
  requester := participant 1
  tx := Message.requesterHash suite .disableInitialization (participant 1) .zero
    (.coreAdmin .zero) (repeated 2)
  txValidity := .zero
  nonce := repeated 2
  signature := .zero
  body := .coreAdmin .zero
  cosignature := none

/-- The closing on the log of the administrator. -/
def closed : Delivery := ⟨.zero, closure.toRaw.serialize⟩

theorem closure_applied :
    (chargingBlank.apply ([registered] ++ [closed])).2.outcomes.getLast? =
      some ⟨some (.disableInitialization, closure.tx), .applied⟩ := by
  decide +kernel

/-- The administrator closes the phase for nothing, although the ledger has a fee, and from then on
everybody pays it. -/
theorem closed_for_good :
    let before := (chargingBlank.apply [registered]).1
    let after := (chargingBlank.apply ([registered] ++ [closed])).1
    closed.operation = .ok closure ∧ before.store.view.initializing = .ok true ∧
      closure.Charges charging.config 0 before.store.view after.store.view ∧
      ∀ later, (after.run later).store.view.initializing = .ok false ∧
        (∀ taken ∈ after.history later, ∀ kind ∈ taken.appliedKind?,
          kind ∉ [.addAdmin, .disableInitialization, .balanceInitialization]) ∧
        (after.run later).ChargesInFull := by
  have hcarried : closed.operation = .ok closure :=
    Delivery.operation_of_wellFormed ⟨rfl, fun h ↦ by cases h⟩ rfl
  have happlied := closure_applied
  rw [chargingBlank] at happlied ⊢
  obtain ⟨op, hop, -, -, -, hcloses⟩ := Replica.initialization_closes_for_good charging .zero .zero
    [] [registered] closed .disableInitialization closure.tx happlied
  cases hcarried.symm.trans hop
  obtain ⟨hopen, -, hfree, hlater⟩ := hcloses rfl
  exact ⟨hcarried, hopen, hfree, fun later ↦ (hlater later).2⟩

end ZeroFounding

end SettlementLedger
