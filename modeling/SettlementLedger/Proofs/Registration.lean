import SettlementLedger.Proofs.Authority
import SettlementLedger.Proofs.History
import SettlementLedger.Proofs.StandingSteps

/-!
# Nothing happens before the administrator is registered

Every kind of operation needs the administrator or a validator, except the registration of the
administrator itself (`Kind.needs_of_ne_addAdmin`). An empty store has neither, so that the
registration is the first operation that a replica applies. It is refused where there is an
administrator, and no operation takes the administrator away, so that it is the last one of its kind
(`Replica.Registered`, kept by every delivery).
-/

set_option autoImplicit false
set_option relaxedAutoImplicit false

namespace SettlementLedger

/-! ### Who may be first -/

theorem Kind.needs_of_ne_addAdmin {kind : Kind} (h : kind ≠ .addAdmin) :
    kind.isAdminOnly ∨ kind.requiresCosignature := by
  cases kind <;> first | exact Or.inl rfl | exact Or.inr rfl | exact absurd rfl h

/-- Where there is no administrator and nobody has a record, only the registration of the
administrator has the authority that it needs. -/
theorem Operation.Entitled.kind_eq_addAdmin {op : Operation} {suite : Suite}
    {bootstrap log : WritingKey} {view : View} (h : op.Entitled suite bootstrap log view)
    (hadmin : view.admin = .ok none) (hnode : ∀ a, view.node a = .ok none) :
    op.kind = .addAdmin := by
  refine Decidable.byContradiction fun hkind ↦ ?_
  rcases Kind.needs_of_ne_addAdmin hkind with hadminOnly | hrequires
  · have hsome := h.administers hadminOnly
    rw [hadmin] at hsome
    cases hsome
  · obtain ⟨cosignature, -, -, -, ⟨node, hfound, -⟩, -⟩ := h.cosigned hrequires
    rw [hnode] at hfound
    cases hfound

namespace Operation.StandingStep

variable {op : Operation} {bootstrap : WritingKey} {members : Membership} {before after : View}
  {changes : MembershipDiff}

/-- The administrator record stays as it is, or the administrator moves to a writing key that was
bound to nobody. -/
theorem admin_cases (h : op.StandingStep bootstrap members before after changes)
    {admin : AdminRecord} (hadmin : before.admin = .ok (some admin)) :
    after.admin = .ok (some admin) ∨ ∃ key, before.writerOwner key = .ok none ∧
      after.admin = .ok (some ⟨admin.address, key⟩) := by
  cases h with
  | keeps kind same => exact Or.inl (same.admin.trans hadmin)
  | registers standing kind noAdmin role key isAdmin enrolls =>
    rw [hadmin] at noAdmin
    cases noAdmin
  | whitelists known target node? license kind body isAdmin node role restands =>
    exact Or.inl (restands.admin.trans hadmin)
  | bans known target node kind body isAdmin other found whitelisted role restands =>
    exact Or.inl (restands.admin.trans hadmin)
  | promotes known target node kind body isAdmin found writer role absent restands =>
    exact Or.inl (restands.admin.trans hadmin)
  | demotes known target node changes kind body isAdmin found role removal restands =>
    exact Or.inl (restands.admin.trans hadmin)
  | enlists node key stake kind body found whitelisted role same enrolls =>
    exact Or.inl (same.trans hadmin)
  | releases known node changes kind isAdmin other found writer removal restands =>
    exact Or.inl (restands.admin.trans hadmin)
  | recovers known node key kind body isAdmin requester unbound member absent found adminAfter
      enrolls =>
    rw [hadmin] at isAdmin
    cases isAdmin
    exact Or.inr ⟨key, unbound, adminAfter⟩

/-- The administrator stays who it is. -/
theorem admin_eq_some (h : op.StandingStep bootstrap members before after changes)
    {address : Address} (hadmin : ∃ key, before.admin = .ok (some ⟨address, key⟩)) :
    ∃ key, after.admin = .ok (some ⟨address, key⟩) := by
  obtain ⟨key, hadmin⟩ := hadmin
  rcases h.admin_cases hadmin with hsame | ⟨key, -, hmoved⟩
  · exact ⟨_, hsame⟩
  · exact ⟨key, hmoved⟩

/-- The registration makes its requester the administrator. -/
theorem admin_of_addAdmin (h : op.StandingStep bootstrap members before after changes)
    (hkind : op.kind = .addAdmin) : after.admin = .ok (some ⟨op.requester, bootstrap⟩) := by
  cases h with
  | registers standing kind noAdmin role key admin enrolls => exact admin
  | keeps kind | whitelists _ _ _ _ kind | bans _ _ _ kind | promotes _ _ _ kind
  | demotes _ _ _ _ kind | enlists _ _ _ kind | releases _ _ _ kind | recovers _ _ _ kind =>
    simp [hkind] at kind

end Operation.StandingStep

/-! ### The kinds of applied operations -/

/-- The kind of an operation that was applied. -/
def Taken.appliedKind? (taken : Taken) : Option Kind :=
  match taken.outcome.verdict with
  | .applied => taken.outcome.identity.map Prod.fst
  | .skipped _ => none

theorem appliedKinds_skipped (history : List Taken) (delivery : Delivery)
    (identity : Option (Kind × Hash)) (refusal : Refusal) :
    List.filterMap Taken.appliedKind? (history ++ [⟨delivery, identity, .skipped refusal⟩]) =
      history.filterMap Taken.appliedKind? :=
  List.filterMap_append.trans (List.append_nil _)

theorem appliedKinds_applied (history : List Taken) (delivery : Delivery) (op : Operation) :
    List.filterMap Taken.appliedKind? (history ++ [⟨delivery, some (op.kind, op.tx), .applied⟩]) =
      history.filterMap Taken.appliedKind? ++ [op.kind] :=
  List.filterMap_append

namespace Replica

variable {replica : Replica} {delivery : Delivery} {op : Operation} {effect : Effect}
  {initializing : Bool} {draft : Draft} {kinds : List Kind}

/-- The kinds of the operations that a run applies, in order. -/
def appliedKinds (replica : Replica) (events : List ReplicaEvent) : List Kind :=
  (replica.history events).filterMap Taken.appliedKind?

theorem Applied.entitled (h : replica.Applied delivery op effect initializing draft) :
    op.Entitled replica.engine.suite replica.bootstrap delivery.log replica.store.view :=
  Setting.entitled_of_rule h.rule

theorem admin_of_empty (h : replica.store = .empty) : replica.store.view.admin = .ok none := by
  rw [h]
  rfl

theorem node_of_empty (h : replica.store = .empty) (a : Address) :
    replica.store.view.node a = .ok none := by
  rw [h]
  rfl

/-- A replica against the kinds of the operations that it has applied: none of them, or the
registration of the administrator and then operations of other kinds. -/
inductive Registered (replica : Replica) : List Kind → Prop
  | empty (store : replica.store = .empty) : Registered replica []
  | administered (admin : AdminRecord) (later : List Kind)
      (isAdmin : replica.store.view.admin = .ok (some admin)) (once : .addAdmin ∉ later) :
      Registered replica (.addAdmin :: later)

theorem Registered.applied (h : replica.Registered kinds)
    (happlied : replica.Applied delivery op effect initializing draft) :
    (replica.commit effect.writes effect.changes).Registered (kinds ++ [op.kind]) := by
  cases h with
  | empty store =>
    have hkind := happlied.entitled.kind_eq_addAdmin (admin_of_empty store) (node_of_empty store)
    rw [hkind]
    exact .administered _ [] (happlied.standingStep.admin_of_addAdmin hkind) List.not_mem_nil
  | administered admin later isAdmin once =>
    obtain ⟨key, hadmin⟩ := happlied.standingStep.admin_eq_some ⟨_, isAdmin⟩
    refine .administered _ _ hadmin fun hmem ↦ ?_
    rcases List.mem_append.mp hmem with hlater | hlast
    · exact once hlater
    · have hnone := (happlied.entitled.registers (List.mem_singleton.mp hlast).symm).1
      rw [isAdmin] at hnone
      cases hnone

theorem Registered.moved (h : replica.Registered kinds) (digest : Hash) :
    (replica.withTxValidity digest).Registered kinds := by
  cases h with
  | empty store => exact .empty store
  | administered admin later isAdmin once => exact .administered admin later isAdmin once

theorem registered_run (engine : Engine) (bootstrap : WritingKey) (txValidity : Hash)
    (events : List ReplicaEvent) :
    ((fresh engine bootstrap txValidity).run events).Registered
      ((fresh engine bootstrap txValidity).appliedKinds events) := by
  refine history_induction
    (P := fun replica history ↦ replica.Registered (history.filterMap Taken.appliedKind?)) ?_ ?_ ?_
    (fresh engine bootstrap txValidity) [] (.empty rfl) events
  · intro replica history digest h
    exact h.moved digest
  · intro replica history delivery identity refusal h _
    rw [appliedKinds_skipped]
    exact h
  · intro replica history delivery op effect h heffect
    obtain ⟨initializing, draft, happlied⟩ := applied_of_effect heffect
    rw [appliedKinds_applied]
    exact h.applied happlied

/-- As long as there is no administrator there is nothing at all. -/
theorem Registered.store_eq_empty (h : replica.Registered kinds)
    (hadmin : replica.store.view.admin = .ok none) : replica.store = .empty := by
  cases h with
  | empty store => exact store
  | administered admin later isAdmin once =>
    rw [hadmin] at isAdmin
    cases isAdmin

/-- The administrator stays who it is in every run. -/
theorem admin_run (replica : Replica) (events : List ReplicaEvent) {address : Address}
    (h : ∃ key, replica.store.view.admin = .ok (some ⟨address, key⟩)) :
    ∃ key, (replica.run events).store.view.admin = .ok (some ⟨address, key⟩) := by
  refine run_induction
    (P := fun replica ↦ ∃ key, replica.store.view.admin = .ok (some ⟨address, key⟩))
    (fun _ _ h ↦ h) ?_ replica h events
  intro replica delivery op effect h heffect
  obtain ⟨initializing, draft, happlied⟩ := applied_of_effect heffect
  exact happlied.standingStep.admin_eq_some h

end Replica

end SettlementLedger
