import SettlementLedger.Proofs.Administration
import SettlementLedger.Proofs.Charges
import SettlementLedger.Proofs.Consent

/-!
# Stakes are what was locked

A stake belongs to the history of a participant and not to its role: a ban takes the role and leaves
the stake, and who becomes a writer again locks another one on top of it. The stake of everybody but
the administrator is the configured one as often as the participant has become a writer since it was
last released (`enlistments`, `Replica.Locks`).

Only the requester's own stake moves (`Operation.StandingStep.stake_other`), and only in three kinds
of operations (`Operation.restaked`).
-/

set_option autoImplicit false
set_option relaxedAutoImplicit false

namespace SettlementLedger

/-! ### Becoming a writer and being released -/

/-- Whether an operation of a kind was applied for a participant. -/
def Taken.isOf (taken : Taken) (kind : Kind) (a : Address) : Bool :=
  match taken.delivery.operation with
  | .ok op => taken.isApplied && op.kind = kind && op.requester = a
  | .error _ => false

/-- How often a participant became a writer since it was last released. -/
def enlistments (history : List Taken) (a : Address) : Nat :=
  (history.reverse.takeWhile fun taken ↦ !taken.isOf .removeWriter a).countP (·.isOf .addWriter a)

theorem enlistments_concat (history : List Taken) (taken : Taken) (a : Address) :
    enlistments (history ++ [taken]) a =
      if taken.isOf .removeWriter a then 0
      else if taken.isOf .addWriter a then enlistments history a + 1
      else enlistments history a := by
  rw [enlistments, List.reverse_concat, List.takeWhile_cons]
  cases taken.isOf .removeWriter a with
  | true => rfl
  | false => exact List.countP_cons.trans (by cases taken.isOf .addWriter a <;> rfl)

/-! ### What an operation does to stakes -/

namespace View

variable {before after : View} {address a : Address} {standing : Standing}

theorem Reassigns.stake (h : before.Reassigns after address standing)
    (hold : before.stake address = .ok standing.stake) (a : Address) :
    after.stake a = before.stake a := by
  by_cases ha : a = address
  · rw [ha, hold, stake_of_standing h.self]
  · exact stake_congr (h.other ha)

/-- A participant is a writer, an indexer or not. -/
def IsWriter (view : View) (a : Address) : Prop :=
  ∃ standing, view.standing a = .ok standing ∧ standing.role.isWriter

theorem isWriter_of_node {view : View} {node : NodeRecord}
    (h : view.node a = .ok (some node)) (hwriter : node.role.isWriter) : view.IsWriter a :=
  ⟨node.standing, standing_of_node h, hwriter⟩

theorem Reassigns.isWriter_or (h : before.Reassigns after address standing)
    (hwriter : after.IsWriter a) : (a = address ∧ standing.role.isWriter) ∨ before.IsWriter a := by
  obtain ⟨found, hfound, hrole⟩ := hwriter
  rcases h.standing_or a with hsame | ⟨ha, hmade⟩
  · exact Or.inr ⟨found, hsame ▸ hfound, hrole⟩
  · rw [hmade] at hfound
    cases hfound
    exact Or.inl ⟨ha, hrole⟩

end View

/-- What an operation makes of the stake of its requester. -/
def Operation.restaked (op : Operation) (config : Config) (stake : Nat) : Nat :=
  match op.kind with
  | .addAdmin => stake + config.adminInitialStake.raw
  | .addWriter => stake + config.writerStake.raw
  | .removeWriter => 0
  | _ => stake

namespace Operation.StandingStep

open View

variable {op : Operation} {bootstrap : WritingKey} {members : Membership} {before after : View}
  {changes : MembershipDiff} {a : Address}

theorem stake_other (h : op.StandingStep bootstrap members before after changes)
    (ha : a ≠ op.requester) : after.stake a = before.stake a := by
  rcases h.standing_other ha with hsame | ⟨-, -, old, role, license, hold, hnew⟩
  · exact stake_congr hsame
  · rw [stake_of_standing hold, stake_of_standing hnew]

/-- Three kinds of operations move a stake. -/
theorem stake_eq (h : op.StandingStep bootstrap members before after changes)
    (hkind : op.kind ∉ [.addAdmin, .addWriter, .removeWriter]) (a : Address) :
    after.stake a = before.stake a := by
  cases h with
  | keeps kind same => exact stake_congr (same.standing a)
  | whitelists admin target node? license kind body isAdmin node role restands =>
    exact restands.standing.stake (stake_of_node node) a
  | bans admin target node kind body isAdmin other found whitelisted role restands =>
    exact restands.standing.stake (stake_of_node found) a
  | promotes admin target node kind body isAdmin found writer role absent restands =>
    exact restands.standing.stake (stake_of_node found) a
  | demotes admin target node changes kind body isAdmin found role removal restands =>
    exact restands.standing.stake (stake_of_node found) a
  | recovers admin node key kind body isAdmin requester unbound member absent found adminAfter
      enrolls =>
    exact enrolls.standing.stake (stake_of_node found) a
  | registers _ kind | enlists _ _ _ kind | releases _ _ _ kind => simp [kind] at hkind

/-- Who is released is not the administrator, and has neither a stake nor the role of a writer
afterwards. -/
theorem released (h : op.StandingStep bootstrap members before after changes)
    (hkind : op.kind = .removeWriter) : ¬ before.Administers op.requester ∧
      ∃ standing, after.standing op.requester = .ok standing ∧ standing.role = .whitelisted ∧
        standing.stake = .zero := by
  cases h with
  | releases admin? node changes kind isAdmin other found writer removal restands =>
    refine ⟨?_, _, restands.standing.self, rfl, rfl⟩
    rintro ⟨admin, hadmin, haddress⟩
    rw [hadmin] at isAdmin
    cases isAdmin
    exact other admin rfl haddress
  | keeps kind | registers _ kind | whitelists _ _ _ _ kind | bans _ _ _ kind | promotes _ _ _ kind
  | demotes _ _ _ _ kind | enlists _ _ _ kind | recovers _ _ _ kind => simp [hkind] at kind

theorem stake_of_removeWriter (h : op.StandingStep bootstrap members before after changes)
    (hkind : op.kind = .removeWriter) : after.stake op.requester = .ok .zero := by
  obtain ⟨-, standing, hstanding, -, hstake⟩ := h.released hkind
  rw [stake_of_standing hstanding, hstake]

theorem not_isWriter_of_removeWriter (h : op.StandingStep bootstrap members before after changes)
    (hkind : op.kind = .removeWriter) : ¬ after.IsWriter op.requester := by
  obtain ⟨-, standing, hstanding, hwhitelisted, -⟩ := h.released hkind
  rintro ⟨found, hfound, hrole⟩
  cases hstanding.symm.trans hfound
  rw [hwhitelisted] at hrole
  cases hrole

theorem body_of_banValidator (h : op.StandingStep bootstrap members before after changes)
    (hkind : op.kind = .banValidator) : ∃ target, op.body = .adminControl target := by
  cases h with
  | bans admin target node kind body => exact ⟨target, body⟩
  | keeps kind | registers _ kind | whitelists _ _ _ _ kind | promotes _ _ _ kind
  | demotes _ _ _ _ kind | enlists _ _ _ kind | releases _ _ _ kind | recovers _ _ _ kind =>
    simp [hkind] at kind

/-- Whoever is a writer was one before, or has just become one. -/
theorem isWriter_cases (h : op.StandingStep bootstrap members before after changes)
    (hwriter : after.IsWriter a) :
    (a = op.requester ∧ (op.kind = .addAdmin ∨ op.kind = .addWriter)) ∨ before.IsWriter a := by
  cases h with
  | keeps kind same =>
    obtain ⟨standing, hstanding, hrole⟩ := hwriter
    exact Or.inr ⟨standing, (same.standing a).symm.trans hstanding, hrole⟩
  | registers standing kind noAdmin role key admin enrolls =>
    exact (enrolls.standing.isWriter_or hwriter).imp_left fun hself ↦ ⟨hself.1, Or.inl kind⟩
  | whitelists admin target node? license kind body isAdmin node role restands =>
    exact Or.inr ((restands.standing.isWriter_or hwriter).resolve_left nofun)
  | bans admin target node kind body isAdmin other found whitelisted role restands =>
    exact Or.inr ((restands.standing.isWriter_or hwriter).resolve_left nofun)
  | promotes admin target node kind body isAdmin found writer role absent restands =>
    rcases restands.standing.isWriter_or hwriter with ⟨rfl, -⟩ | hbefore
    · exact Or.inr (isWriter_of_node found writer)
    · exact Or.inr hbefore
  | demotes admin target node changes kind body isAdmin found role removal restands =>
    rcases restands.standing.isWriter_or hwriter with ⟨rfl, -⟩ | hbefore
    · exact Or.inr (isWriter_of_node found (Role.isWriter_of_isIndexer role))
    · exact Or.inr hbefore
  | enlists node key stake kind body found whitelisted role admin enrolls =>
    exact (enrolls.standing.isWriter_or hwriter).imp_left fun hself ↦ ⟨hself.1, Or.inr kind⟩
  | releases admin? node changes kind isAdmin other found writer removal restands =>
    exact Or.inr ((restands.standing.isWriter_or hwriter).resolve_left nofun)
  | recovers admin node key kind body isAdmin requester unbound member absent found adminAfter
      enrolls =>
    rcases enrolls.standing.isWriter_or hwriter with ⟨rfl, hrole⟩ | hbefore
    · exact Or.inr (isWriter_of_node found hrole)
    · exact Or.inr hbefore

end Operation.StandingStep

namespace Setting

variable {setting : Setting} {base : View} {result : Draft} {node? : Option NodeRecord}

/-- The registration adds the initial stake to what the requester has locked. -/
theorem stake_of_addAdmin {key : WritingKey}
    (hnode : base.node setting.operation.requester = .ok node?)
    (h : setting.addAdmin { base } key = .ok result) :
    ∃ stake, result.view.stake setting.operation.requester = .ok stake ∧
      stake.raw = (node?.getD {}).stake.raw + setting.config.adminInitialStake.raw := by
  obtain ⟨-, -, known?, hknown, license, licensed, -, balance, -, stake, hstake, bound, hbound,
    rfl⟩ := addAdmin_eq_ok.mp h
  cases hnode.symm.trans hknown
  rw [Amount.add?_eq_some_iff] at hstake
  have hstanding := licensed.standing_putNode setting.operation.requester
    setting.operation.requester { role := .indexer, writingKey := key, balance, license, stake }
  rw [if_pos rfl, ← View.standing_congr (Draft.node_of_bindWriter hbound _)] at hstanding
  refine ⟨stake, ?_, hstake.symm⟩
  rw [View.stake_congr (Draft.standing_put _ (by simp) _ _),
    View.stake_congr (Draft.standing_put _ (by simp) _ _)]
  exact View.stake_of_standing hstanding

/-- A participant that becomes a writer locks the configured stake on top of what it has locked. -/
theorem stake_of_addWriter {key : WritingKey}
    (hnode : base.node setting.operation.requester = .ok node?)
    (h : setting.addWriter { base } key = .ok result) :
    ∃ stake, result.view.stake setting.operation.requester = .ok stake ∧
      stake.raw = (node?.getD {}).stake.raw + setting.config.writerStake.raw := by
  obtain ⟨node, hknown, -, -, -, fee, -, required, -, -, validator, -, balance, -, stake, hstake,
    bound, hbound, hsettle⟩ := addWriter_eq_ok.mp h
  cases hnode.symm.trans hknown
  rw [Amount.add?_eq_some_iff] at hstake
  have hstanding := Draft.standing_putNode { base } setting.operation.requester
    setting.operation.requester { node with role := .writer, writingKey := key, balance, stake }
  rw [if_pos rfl, ← View.standing_congr (Draft.node_of_bindWriter hbound _),
    ← (movesBalances_of_settle hsettle).standing] at hstanding
  exact ⟨stake, View.stake_of_standing hstanding, hstake.symm⟩

/-- The stake of the requester after a rule. -/
theorem stake_of_rule (h : setting.rule { base } = .ok result)
    (hnode : base.node setting.operation.requester = .ok node?) :
    ∃ stake, result.view.stake setting.operation.requester = .ok stake ∧
      stake.raw = setting.operation.restaked setting.config (node?.getD {}).stake.raw := by
  have hstep : setting.operation.StandingStep setting.bootstrap setting.members base result.view
      result.changes := standingStep_of_rule h (Draft.MovesBalances.refl result).sameStanding
  cases ruling_of_rule h with
  | addAdmin key kind body ok =>
    simp only [Operation.restaked, kind]
    exact stake_of_addAdmin hnode ok
  | addWriter key kind body ok =>
    simp only [Operation.restaked, kind]
    exact stake_of_addWriter hnode ok
  | removeWriter key kind body ok =>
    simp only [Operation.restaked, kind]
    exact ⟨.zero, hstep.stake_of_removeWriter kind, rfl⟩
  | disableInitialization _ kind | balanceInitialization _ _ kind | appendWhitelist _ kind
  | banValidator _ kind | addIndexer _ kind | removeIndexer _ kind | adminRecovery _ kind
  | transfer _ _ kind | transaction _ _ _ _ kind | bootstrapDeployment _ _ kind =>
    simp only [Operation.restaked, kind]
    exact ⟨_, (hstep.stake_eq (by simp [kind]) _).trans (View.stake_of_node hnode), rfl⟩

end Setting

/-! ### Stakes and histories -/

section Histories

variable {history : List Taken} {delivery : Delivery} {op : Operation}

theorem enlistments_skipped (delivery : Delivery) (identity : Option (Kind × Hash))
    (refusal : Refusal) (a : Address) :
    enlistments (history ++ [⟨delivery, identity, .skipped refusal⟩]) a =
      enlistments history a := by
  have hnot (kind : Kind) : Taken.isOf ⟨delivery, identity, .skipped refusal⟩ kind a = false := by
    unfold Taken.isOf
    split <;> rfl
  rw [enlistments_concat, hnot, hnot]
  rfl

theorem Taken.isOf_applied (h : delivery.operation = .ok op) (identity : Option (Kind × Hash))
    (kind : Kind) (a : Address) :
    Taken.isOf ⟨delivery, identity, .applied⟩ kind a ↔ op.kind = kind ∧ op.requester = a := by
  simp [isOf, h, isApplied, Verdict.isApplied]

theorem enlistments_other (h : delivery.operation = .ok op) (identity : Option (Kind × Hash))
    {a : Address} (ha : a ≠ op.requester) :
    enlistments (history ++ [⟨delivery, identity, .applied⟩]) a = enlistments history a := by
  rw [enlistments_concat, if_neg fun hof ↦ ha ((Taken.isOf_applied h identity _ a).mp hof).2.symm,
    if_neg fun hof ↦ ha ((Taken.isOf_applied h identity _ a).mp hof).2.symm]

theorem enlistments_requester (h : delivery.operation = .ok op)
    (identity : Option (Kind × Hash)) :
    enlistments (history ++ [⟨delivery, identity, .applied⟩]) op.requester =
      if op.kind = .removeWriter then 0
      else if op.kind = .addWriter then enlistments history op.requester + 1
      else enlistments history op.requester := by
  have hof (kind : Kind) :
      Taken.isOf ⟨delivery, identity, .applied⟩ kind op.requester ↔ op.kind = kind :=
    (Taken.isOf_applied h identity kind _).trans (and_iff_left rfl)
  simp only [enlistments_concat, hof]

/-- The stakes that the history counts move as the stake of the requester does. -/
theorem restaked_eq (h : delivery.operation = .ok op) (identity : Option (Kind × Hash))
    (hkind : op.kind ≠ .addAdmin) (config : Config) :
    op.restaked config (config.writerStake.raw * enlistments history op.requester) =
      config.writerStake.raw *
        enlistments (history ++ [⟨delivery, identity, .applied⟩]) op.requester := by
  rw [enlistments_requester h]
  unfold Operation.restaked
  split <;> simp_all [Nat.mul_add]

end Histories

namespace Replica

open View

variable {replica : Replica} {delivery : Delivery} {op : Operation} {effect : Effect}
  {initializing : Bool} {draft : Draft} {history : List Taken} {kinds : List Kind}

theorem Applied.stake_requester (h : replica.Applied delivery op effect initializing draft)
    {old : Amount} (hold : replica.store.view.stake op.requester = .ok old) :
    ∃ new, (replica.commit effect.writes effect.changes).store.view.stake op.requester = .ok new ∧
      new.raw = op.restaked replica.engine.config old.raw := by
  obtain ⟨node?, hnode, rfl⟩ := stake_eq_ok.mp hold
  obtain ⟨stake, hstake, hraw⟩ := Setting.stake_of_rule h.rule hnode
  refine ⟨stake, ?_, hraw⟩
  rw [h.view]
  exact (stake_congr (draft.standing_put (by simp) _ _)).trans hstake

/-- The stakes of a replica against its history. -/
structure Locks (replica : Replica) (history : List Taken) : Prop where
  /-- The administrator has the stake that it was registered with. -/
  admin : ∀ admin, replica.store.view.admin = .ok (some admin) →
    replica.store.view.stake admin.address = .ok replica.engine.config.adminInitialStake
  /-- Everybody else has locked the stake of a writer as often as the history says. -/
  others : ∀ a, ¬ replica.store.view.Administers a → ∃ stake,
    replica.store.view.stake a = .ok stake ∧
      stake.raw = replica.engine.config.writerStake.raw * enlistments history a
  /-- Every other writer has locked a stake. -/
  writers : ∀ a, ¬ replica.store.view.Administers a → replica.store.view.IsWriter a →
    0 < enlistments history a

namespace Locks

theorem fresh (engine : Engine) (bootstrap : WritingKey) (txValidity : Hash) :
    (fresh engine bootstrap txValidity).Locks [] where
  admin _ hadmin := nomatch hadmin
  others _ _ := ⟨.zero, rfl, rfl⟩
  writers _ _ hwriter := by
    obtain ⟨standing, hstanding, hrole⟩ := hwriter
    cases hstanding
    cases hrole

theorem skipped (h : replica.Locks history) (delivery : Delivery)
    (identity : Option (Kind × Hash)) (refusal : Refusal) :
    replica.Locks (history ++ [⟨delivery, identity, .skipped refusal⟩]) where
  admin := h.admin
  others a ha := by
    rw [enlistments_skipped]
    exact h.others a ha
  writers a ha hwriter := by
    rw [enlistments_skipped]
    exact h.writers a ha hwriter

/-- The stake of the administrator: what it is registered with, and the same from then on. -/
theorem applied_admin (h : replica.Locks history) (hregistered : replica.Registered kinds)
    (hstand : replica.MembersStand)
    (happlied : replica.Applied delivery op effect initializing draft) (admin : AdminRecord)
    (hadmin : (replica.commit effect.writes effect.changes).store.view.admin = .ok (some admin)) :
    (replica.commit effect.writes effect.changes).store.view.stake admin.address =
      .ok replica.engine.config.adminInitialStake := by
  by_cases hkind : op.kind = .addAdmin
  · have hnone := (happlied.entitled.registers hkind).1
    have hstore := hregistered.store_eq_empty hnone
    have hzero := stake_of_node (node_of_empty hstore op.requester)
    obtain ⟨stake, hstake, hraw⟩ := happlied.stake_requester hzero
    rw [happlied.standingStep.admin_of_addAdmin hkind] at hadmin
    cases hadmin
    rw [hstake]
    refine congrArg Except.ok (Amount.ext_raw ?_)
    simp only [hraw, Operation.restaked, hkind]
    exact Nat.zero_add _
  · have hgoverned := happlied.governed hregistered hstand hkind
    have hadministers : replica.store.view.Administers admin.address :=
      (happlied.administers_iff hgoverned _).mp ⟨admin, hadmin, rfl⟩
    have hold : replica.store.view.stake admin.address =
        .ok replica.engine.config.adminInitialStake := by
      obtain ⟨known, hknown, haddress⟩ := hadministers
      rw [← haddress]
      exact h.admin known hknown
    by_cases hself : admin.address = op.requester
    · -- The administrator neither becomes a writer nor is released.
      rw [hself] at hadministers
      have hnot : op.kind ∉ [.addAdmin, .addWriter, .removeWriter] := by
        simp only [List.mem_cons, List.not_mem_nil, or_false, not_or]
        exact ⟨hkind,
          fun hadd ↦ happlied.standingStep.not_administers_of_addWriter hadd hgoverned.adminStands
            hadministers,
          fun hremove ↦ (happlied.standingStep.released hremove).1 hadministers⟩
      exact (happlied.standingStep.stake_eq hnot _).trans hold
    · exact (happlied.standingStep.stake_other hself).trans hold

theorem applied (h : replica.Locks history) (hregistered : replica.Registered kinds)
    (hstand : replica.MembersStand)
    (happlied : replica.Applied delivery op effect initializing draft)
    (identity : Option (Kind × Hash)) :
    (replica.commit effect.writes effect.changes).Locks
      (history ++ [⟨delivery, identity, .applied⟩]) where
  admin := h.applied_admin hregistered hstand happlied
  others a ha := by
    have hbefore : ¬ replica.store.view.Administers a := fun hadmin ↦ ha (happlied.administers hadmin)
    obtain ⟨stake, hstake, hraw⟩ := h.others a hbefore
    by_cases hself : a = op.requester
    · subst hself
      have hkind : op.kind ≠ .addAdmin := fun hkind ↦
        ha ⟨_, happlied.standingStep.admin_of_addAdmin hkind, rfl⟩
      obtain ⟨new, hnew, hnewRaw⟩ := happlied.stake_requester hstake
      refine ⟨new, hnew, ?_⟩
      rw [hnewRaw, hraw]
      exact restaked_eq happlied.carried identity hkind replica.engine.config
    · rw [enlistments_other happlied.carried identity hself]
      exact ⟨stake, (happlied.standingStep.stake_other hself).trans hstake, hraw⟩
  writers a ha hwriter := by
    have hbefore : ¬ replica.store.view.Administers a := fun hadmin ↦ ha (happlied.administers hadmin)
    rcases happlied.standingStep.isWriter_cases hwriter with ⟨rfl, hkind | hkind⟩ | hwas
    · exact absurd ⟨_, happlied.standingStep.admin_of_addAdmin hkind, rfl⟩ ha
    · rw [enlistments_requester happlied.carried identity, hkind]
      exact Nat.succ_pos _
    · have hpos := h.writers a hbefore hwas
      by_cases hself : a = op.requester
      · subst hself
        have hkind : op.kind ≠ .removeWriter := fun hkind ↦
          happlied.standingStep.not_isWriter_of_removeWriter hkind hwriter
        rw [enlistments_requester happlied.carried identity, if_neg hkind]
        split
        · exact Nat.succ_pos _
        · exact hpos
      · rw [enlistments_other happlied.carried identity hself]
        exact hpos

end Locks

/-- The stakes after a run are what its history says. -/
theorem locks_run (engine : Engine) (bootstrap : WritingKey) (txValidity : Hash)
    (events : List ReplicaEvent) :
    ((fresh engine bootstrap txValidity).run events).Locks
      ((fresh engine bootstrap txValidity).history events) := by
  have hrun := history_induction
    (P := fun replica history ↦ replica.MembersStand ∧ (∃ kinds, replica.Registered kinds) ∧
      replica.Locks history) ?_ ?_ ?_ (fresh engine bootstrap txValidity) []
    ⟨membersStand_fresh engine bootstrap txValidity, ⟨[], .empty rfl⟩,
      .fresh engine bootstrap txValidity⟩ events
  · exact hrun.2.2
  · rintro replica history digest ⟨hstand, ⟨kinds, hregistered⟩, hlocks⟩
    exact ⟨hstand, ⟨kinds, hregistered.moved digest⟩, hlocks.admin, hlocks.others, hlocks.writers⟩
  · rintro replica history delivery identity refusal ⟨hstand, hregistered, hlocks⟩ -
    exact ⟨hstand, hregistered, hlocks.skipped delivery identity refusal⟩
  · rintro replica history delivery op effect ⟨hstand, ⟨kinds, hregistered⟩, hlocks⟩ heffect
    obtain ⟨initializing, draft, happlied⟩ := applied_of_effect heffect
    exact ⟨membersStand_commit hstand heffect, ⟨_, hregistered.applied happlied⟩,
      hlocks.applied hregistered hstand happlied _⟩

namespace Applied

/-- A ban moves no stake, and no balance but that of its requester. -/
theorem keeps_of_banValidator (h : replica.Applied delivery op effect initializing draft)
    (hlegible : replica.store.view.Legible) (hkind : op.kind = .banValidator) (a : Address) :
    (replica.commit effect.writes effect.changes).store.view.stake a =
        replica.store.view.stake a ∧
      (a ≠ op.requester → (replica.commit effect.writes effect.changes).store.view.balance a =
        replica.store.view.balance a) := by
  refine ⟨h.standingStep.stake_eq (by simp [hkind]) a, fun ha ↦ ?_⟩
  obtain ⟨target, hbody⟩ := h.standingStep.body_of_banValidator hkind
  obtain ⟨node?, hnode⟩ := hlegible.node a
  obtain ⟨balance, hafter, -, hsame⟩ := h.enriches a ha _ (balance_of_node hnode)
  rw [hafter, hsame (h.not_pays hbody a), balance_of_node hnode]

/-- Who is released gets the stake back. It is not the administrator, so that it owes the fee. -/
theorem returns_of_removeWriter (h : replica.Applied delivery op effect initializing draft)
    (hlegible : replica.store.view.Legible) (hkind : op.kind = .removeWriter) :
    ∃ old stake new, replica.store.view.balance op.requester = .ok old ∧
      replica.store.view.stake op.requester = .ok stake ∧
      (replica.commit effect.writes effect.changes).store.view.balance op.requester = .ok new ∧
      (replica.commit effect.writes effect.changes).store.view.stake op.requester = .ok .zero ∧
      new.raw + replica.engine.config.fee.raw = old.raw + stake.raw := by
  obtain ⟨old, stake, new, hold, hstake, hnew, hcharged⟩ := h.charges hlegible
  have hspared : op.isSpared replica.store.view = false := by
    refine Bool.eq_false_iff.mpr fun hspared ↦ ?_
    simp only [Operation.isSpared, hkind, initializesAs_iff] at hspared
    exact (h.standingStep.released hkind).1 hspared.2
  refine ⟨old, stake, new, hold, hstake, hnew, h.standingStep.stake_of_removeWriter hkind, ?_⟩
  simpa [Operation.charge, hspared, Operation.spent, Operation.received, hkind] using hcharged

end Applied

/-- **Stakes are what was locked.** What a writer locks is not nothing. Before the administrator is
registered nobody has a record; from then on it has one, with the stake that it was registered with,
and everybody else has locked the stake of a writer as often as it has become one since it was last
released, so that every writer and every indexer has locked it at least once. A ban moves no stake,
and no balance but that of its requester. Who is released has no stake afterwards, and the whole of
it, less the fee, on top of its balance. -/
theorem stakes_are_locked (engine : Engine) (bootstrap : WritingKey) (txValidity : Hash)
    (events : List ReplicaEvent) :
    let config := engine.config
    let replica := (fresh engine bootstrap txValidity).run events
    let history := (fresh engine bootstrap txValidity).history events
    0 < config.writerStake.raw ∧
      (replica.store.view.admin = .ok none → ∀ a, replica.node a = .ok none) ∧
      (∀ admin, replica.store.view.admin = .ok (some admin) →
        (∃ node, replica.node admin.address = .ok (some node) ∧
          node.stake = config.adminInitialStake) ∧
        ∀ a node, a ≠ admin.address → replica.node a = .ok (some node) →
          node.stake.raw = config.writerStake.raw * enlistments history a ∧
            (node.role.isWriter → config.writerStake ≤ node.stake)) ∧
      ∀ batch delivery kind tx,
        let before := (replica.apply batch).1.store.view
        let after := (replica.apply (batch ++ [delivery])).1.store.view
        (replica.apply (batch ++ [delivery])).2.outcomes.getLast? =
            some ⟨some (kind, tx), .applied⟩ →
          ∃ op, delivery.operation = .ok op ∧
            (kind = .banValidator → ∀ a, after.stake a = before.stake a ∧
              (a ≠ op.requester → after.balance a = before.balance a)) ∧
            (kind = .removeWriter → ∃ old stake new, before.balance op.requester = .ok old ∧
              before.stake op.requester = .ok stake ∧ after.balance op.requester = .ok new ∧
              after.stake op.requester = .ok .zero ∧
              new.raw + config.fee.raw = old.raw + stake.raw) := by
  intro config replica history
  have hengine : replica.engine = engine := (run_fixed _ events).1
  have hlegible : replica.store.view.Legible := legible_run engine bootstrap txValidity events
  have hlocks : replica.Locks history := locks_run engine bootstrap txValidity events
  have hstand : replica.MembersStand := membersStand_run engine bootstrap txValidity events
  have hregistered : replica.Registered _ := registered_run engine bootstrap txValidity events
  have hpositive : 0 < config.writerStake.raw := Config.writerStake_pos engine.config_valid
  refine ⟨hpositive, fun hnone ↦ node_of_empty (hregistered.store_eq_empty hnone), ?_, ?_⟩
  · intro admin hadmin
    have hgoverned := hstand.governed hadmin
    refine ⟨?_, fun a node ha hnode ↦ ?_⟩
    · obtain ⟨node, hnode, -⟩ := hgoverned.adminStands.record hgoverned.keysBound hadmin
      have hstake := hlocks.admin admin hadmin
      rw [stake_of_node hnode, hengine] at hstake
      exact ⟨node, hnode, Except.ok.inj hstake⟩
    · have hother : ¬ replica.store.view.Administers a := by
        rintro ⟨known, hknown, rfl⟩
        rw [hadmin] at hknown
        cases hknown
        exact ha rfl
      obtain ⟨stake, hstake, hraw⟩ := hlocks.others a hother
      rw [stake_of_node hnode] at hstake
      cases hstake
      rw [hengine] at hraw
      refine ⟨hraw, fun hwriter ↦ ?_⟩
      have hpos := hlocks.writers a hother (isWriter_of_node hnode hwriter)
      show config.writerStake.raw ≤ node.stake.raw
      exact hraw ▸ Nat.le_mul_of_pos_right _ hpos
  · intro batch delivery kind tx before after hlast
    obtain ⟨op, effect, initializing, draft, happlied, rfl, hcommit⟩ := applied_of_getLast hlast
    have hrun : (fresh engine bootstrap txValidity).run (events ++ [.batch batch]) =
        (replica.apply batch).1 := run_batch _ events batch
    have hlegible : before.Legible := by
      show (replica.apply batch).1.store.view.Legible
      rw [← hrun]
      exact legible_run engine bootstrap txValidity _
    have hconfig : (replica.apply batch).1.engine.config = config := by
      rw [← hrun, (run_fixed _ _).1]
      rfl
    have hafter : after = _ := congrArg (fun replica ↦ replica.store.view) hcommit
    rw [hafter]
    refine ⟨op, happlied.carried, fun hkind ↦ happlied.keeps_of_banValidator hlegible hkind,
      fun hkind ↦ ?_⟩
    have hreturns := happlied.returns_of_removeWriter hlegible hkind
    rw [hconfig] at hreturns
    exact hreturns

end Replica

end SettlementLedger
