import SettlementLedger.Proofs.Consent
import SettlementLedger.Proofs.Members
import SettlementLedger.Proofs.Registration

/-!
# The life of a role

A role is stored as three independent marks, and the codec of node records takes all eight
combinations. Only the four that count are ever written (`View.Leveled`), and an applied operation
takes at most one participant from one of them to another, by the steps of `Operation.RoleStep`.

Fees, rewards and payments rewrite records too. They leave every standing as it is
(`Operation.StandingStep`), and they begin no record but that of the participant that is paid
(`Replica.Applied.begins`): who requests an operation has a record, unless it is the registration of
the administrator, and so has who cosigns it.
-/

set_option autoImplicit false
set_option relaxedAutoImplicit false

namespace SettlementLedger

/-! ### The four roles -/

/-- The roles there are, each with every mark below its highest. -/
def Role.levels : List Role := [none, whitelisted, writer, indexer]

namespace Role

variable {role : Role}

theorem eq_none_of_not_isWhitelisted (h : role ∈ levels) (hlisted : ¬ role.isWhitelisted) :
    role = none := by
  revert role
  decide

theorem eq_whitelisted_of_not_isWriter (h : role ∈ levels) (hlisted : role.isWhitelisted)
    (hwriter : ¬ role.isWriter) : role = whitelisted := by
  revert role
  decide

theorem eq_writer_of_not_isIndexer (hwriter : role.isWriter) (hindexer : ¬ role.isIndexer) :
    role = writer :=
  (isWriter_iff.mp hwriter).resolve_right fun h ↦ hindexer (isIndexer_iff.mpr h)

theorem whitelisted_or_writer_of_not_isIndexer (h : role ∈ levels) (hlisted : role.isWhitelisted)
    (hindexer : ¬ role.isIndexer) : role = whitelisted ∨ role = writer := by
  by_cases hwriter : role.isWriter
  · exact Or.inr (eq_writer_of_not_isIndexer hwriter hindexer)
  · exact Or.inl (eq_whitelisted_of_not_isWriter h hlisted hwriter)

end Role

namespace View

variable {view before after : View} {address : Address} {standing : Standing}

/-- The role of a participant, if it has a record. -/
def role? (view : View) (a : Address) : Except ViewError (Option Role) :=
  (view.node a).map (Option.map NodeRecord.role)

theorem role?_of_node {a : Address} {node? : Option NodeRecord} (h : view.node a = .ok node?) :
    view.role? a = .ok (node?.map NodeRecord.role) := by
  rw [role?, h]
  rfl

/-- Who has a role has a record. -/
theorem role?_of_standing {a : Address} (h : view.standing a = .ok standing)
    (hrole : standing.role ≠ .none) : view.role? a = .ok (some standing.role) := by
  obtain ⟨node?, hnode, rfl⟩ := standing_eq_ok.mp h
  cases node? with
  | none => exact absurd rfl hrole
  | some node => exact role?_of_node hnode

/-- Every participant has one of the four roles. -/
def Leveled (view : View) : Prop :=
  ∀ a standing, view.standing a = .ok standing → standing.role ∈ Role.levels

namespace Leveled

theorem node (h : view.Leveled) {a : Address} {node? : Option NodeRecord}
    (hnode : view.node a = .ok node?) : (node?.getD {}).role ∈ Role.levels :=
  h a _ (standing_of_node hnode)

theorem same (h : before.Leveled) (hsame : before.SameStanding after) : after.Leveled := by
  intro a standing hstanding
  rw [hsame.standing] at hstanding
  exact h a standing hstanding

theorem reassigns (h : before.Leveled) (hreassigns : before.Reassigns after address standing)
    (hlevel : standing.role ∈ Role.levels) : after.Leveled := by
  intro a found hfound
  rcases hreassigns.standing_or a with hsame | ⟨-, hself⟩
  · rw [hsame] at hfound
    exact h a found hfound
  · rw [hself] at hfound
    cases hfound
    exact hlevel

end Leveled

end View

/-! ### Steps -/

/-- What an operation may do to the role of a participant, where the administrator is as given. -/
inductive Operation.RoleStep (op : Operation) (admin? : Option AdminRecord) (a : Address) :
    Option Role → Option Role → Prop
  /-- The requester becomes the administrator. -/
  | registers (kind : op.kind = .addAdmin) (requester : a = op.requester) :
      RoleStep op admin? a none (some .indexer)
  /-- The administrator whitelists somebody without a role. -/
  | whitelists (kind : op.kind = .appendWhitelist) (body : op.body = .adminControl a)
      {old : Option Role} (unlisted : old = none ∨ old = some .none) :
      RoleStep op admin? a old (some .whitelisted)
  /-- A whitelisted requester becomes a writer. -/
  | enlists (kind : op.kind = .addWriter) (requester : a = op.requester) :
      RoleStep op admin? a (some .whitelisted) (some .writer)
  /-- A requester that is a writer, and not the administrator, is released. -/
  | releases (kind : op.kind = .removeWriter) (requester : a = op.requester)
      (other : ∀ admin, admin? = some admin → a ≠ admin.address) {old : Role}
      (writer : old = .writer ∨ old = .indexer) :
      RoleStep op admin? a (some old) (some .whitelisted)
  /-- The administrator makes a writer an indexer. -/
  | promotes (kind : op.kind = .addIndexer) (body : op.body = .adminControl a) :
      RoleStep op admin? a (some .writer) (some .indexer)
  /-- The administrator makes an indexer a writer. -/
  | demotes (kind : op.kind = .removeIndexer) (body : op.body = .adminControl a) :
      RoleStep op admin? a (some .indexer) (some .writer)
  /-- The administrator bans somebody who is not an indexer and not the administrator itself. -/
  | bans (kind : op.kind = .banValidator) (body : op.body = .adminControl a)
      (other : ∀ admin, admin? = some admin → a ≠ admin.address) {old : Role}
      (listed : old = .whitelisted ∨ old = .writer) :
      RoleStep op admin? a (some old) (some .none)
  /-- A payment begins the record of whom it pays. -/
  | begins (kind : op.kind = .balanceInitialization ∨ op.kind = .transfer)
      (subject : op.body.subject? = some a) : RoleStep op admin? a none (some .none)

/-- An operation may begin the record of a participant. -/
def Operation.Begins (op : Operation) (a : Address) : Prop :=
  (op.kind = .addAdmin ∧ a = op.requester) ∨
    (op.kind ∈ [.appendWhitelist, .balanceInitialization, .transfer] ∧ op.body.subject? = some a)

/-- No record is taken away, and only those are begun that the operation may begin. -/
structure Operation.KeepsRecords (op : Operation) (before after : View) : Prop where
  legible : ∀ a, ∃ node?, before.node a = .ok node?
  kept : ∀ a old, before.node a = .ok (some old) → ∃ new, after.node a = .ok (some new)
  absent : ∀ a, ¬ op.Begins a → before.node a = .ok none → after.node a = .ok none

/-- An operation changes the role of one participant at most, by one of the steps. -/
def Operation.ChangesRoles (op : Operation) (before after : View) : Prop :=
  (∀ a, after.role? a = before.role? a) ∨
    ∃ address admin? old new, before.admin = .ok admin? ∧ before.role? address = .ok old ∧
      after.role? address = .ok new ∧ op.RoleStep admin? address old new ∧
      ∀ a, a ≠ address → after.role? a = before.role? a

namespace Operation

variable {op : Operation} {before after : View} {a : Address}

theorem not_begins (h : op.kind ∉ [Kind.addAdmin, .appendWhitelist, .balanceInitialization,
    .transfer]) (a : Address) : ¬ op.Begins a := by
  rintro (⟨hkind, -⟩ | ⟨hkind, -⟩)
  · exact h (by simp [hkind])
  · exact h (List.mem_cons_of_mem _ hkind)

theorem Begins.eq_requester (h : op.Begins a) (hkind : op.kind = .addAdmin) : a = op.requester := by
  rcases h with ⟨-, ha⟩ | ⟨hpaid, -⟩
  · exact ha
  · simp [hkind] at hpaid

theorem Begins.eq_subject (h : op.Begins a) (hkind : op.kind ≠ .addAdmin) {subject : Address}
    (hsubject : op.body.subject? = some subject) : a = subject := by
  rcases h with ⟨hregistration, -⟩ | ⟨-, ha⟩
  · exact absurd hregistration hkind
  · exact Option.some.inj (ha.symm.trans hsubject)

namespace KeepsRecords

open View

/-- The role of who had a record is the one that it stands under. -/
theorem role?_of_found (h : op.KeepsRecords before after) {node : NodeRecord}
    (hfound : before.node a = .ok (some node)) {new : Standing}
    (hnew : after.standing a = .ok new) : after.role? a = .ok (some new.role) := by
  obtain ⟨made, hmade⟩ := h.kept a node hfound
  rw [standing_of_node hmade] at hnew
  cases hnew
  exact role?_of_node hmade

/-- Who has no record begun, and stands under the role that it had, has the role that it had. -/
theorem role?_eq (h : op.KeepsRecords before after) (hbegins : ¬ op.Begins a) {old new : Standing}
    (hold : before.standing a = .ok old) (hnew : after.standing a = .ok new)
    (hrole : new.role = old.role) : after.role? a = before.role? a := by
  obtain ⟨node?, hfound, rfl⟩ := standing_eq_ok.mp hold
  cases node? with
  | none => rw [role?_of_node hfound, role?_of_node (h.absent a hbegins hfound)]
  | some node =>
    rw [role?_of_node hfound, h.role?_of_found hfound hnew, hrole]
    rfl

/-- If nobody's standing has changed but that of one participant, and no record but that of the same
participant is begun, then everybody else has the role that it had. -/
theorem role?_other (h : op.KeepsRecords before after) {address : Address} {standing : Standing}
    (hbegins : ∀ a, op.Begins a → a = address)
    (hreassigns : before.Reassigns after address standing) (a : Address) (ha : a ≠ address) :
    after.role? a = before.role? a := by
  obtain ⟨node?, hnode⟩ := h.legible a
  have hstanding := standing_of_node hnode
  exact h.role?_eq (fun hb ↦ ha (hbegins a hb)) hstanding
    ((hreassigns.other ha).trans hstanding) rfl

theorem role?_of_same (h : op.KeepsRecords before after) (hsame : before.SameStanding after)
    (hbegins : ¬ op.Begins a) : after.role? a = before.role? a := by
  obtain ⟨node?, hnode⟩ := h.legible a
  have hstanding := standing_of_node hnode
  exact h.role?_eq hbegins hstanding ((hsame.standing a).trans hstanding) rfl

/-- A record that is begun without a change of standing has no role. -/
theorem role?_or_begun (h : op.KeepsRecords before after) (hsame : before.SameStanding after)
    (a : Address) : after.role? a = before.role? a ∨
      (before.role? a = .ok none ∧ after.role? a = .ok (some .none)) := by
  obtain ⟨old?, hold⟩ := h.legible a
  have hafter := (hsame.standing a).trans (standing_of_node hold)
  cases old? with
  | some old =>
    rw [role?_of_node hold, h.role?_of_found hold hafter]
    exact Or.inl rfl
  | none =>
    obtain ⟨new?, hnew, hstanding⟩ := standing_eq_ok.mp hafter
    rw [role?_of_node hold, role?_of_node hnew]
    cases new? with
    | none => exact Or.inl rfl
    | some new =>
      have hrole : new.role = .none := congrArg Standing.role hstanding
      exact Or.inr ⟨rfl, congrArg (fun role ↦ Except.ok (some role)) hrole⟩

/-- One participant, whose record is not begun, takes a step. -/
theorem changesRoles (h : op.KeepsRecords before after) (hbegins : ∀ a, ¬ op.Begins a)
    {admin? : Option AdminRecord} (hadmin : before.admin = .ok admin?) {address : Address}
    {node : NodeRecord} (hfound : before.node address = .ok (some node)) {standing : Standing}
    (hreassigns : before.Reassigns after address standing)
    (hstep : op.RoleStep admin? address (some node.role) (some standing.role)) :
    op.ChangesRoles before after :=
  Or.inr ⟨address, admin?, _, _, hadmin, role?_of_node hfound,
    h.role?_of_found hfound hreassigns.self, hstep,
    h.role?_other (fun a ha ↦ absurd ha (hbegins a)) hreassigns⟩

end KeepsRecords

end Operation

namespace Operation.StandingStep

open View

variable {op : Operation} {bootstrap : WritingKey} {members : Membership} {before after : View}
  {changes : MembershipDiff}

/-- Only the four roles are ever written. -/
theorem leveled (h : op.StandingStep bootstrap members before after changes)
    (hbefore : before.Leveled) : after.Leveled := by
  cases h with
  | keeps kind same => exact hbefore.same same
  | registers standing kind noAdmin role key admin enrolls =>
    exact hbefore.reassigns enrolls.standing (by rw [role]; decide)
  | whitelists admin target node? license kind body isAdmin node role restands =>
    exact hbefore.reassigns restands.standing (show Role.whitelisted ∈ Role.levels by decide)
  | bans admin target node kind body isAdmin other found whitelisted role restands =>
    exact hbefore.reassigns restands.standing (show Role.none ∈ Role.levels by decide)
  | promotes admin target node kind body isAdmin found writer role absent restands =>
    exact hbefore.reassigns restands.standing (show Role.indexer ∈ Role.levels by decide)
  | demotes admin target node changes kind body isAdmin found role removal restands =>
    exact hbefore.reassigns restands.standing (show Role.writer ∈ Role.levels by decide)
  | enlists node key stake kind body found whitelisted role admin enrolls =>
    exact hbefore.reassigns enrolls.standing (show Role.writer ∈ Role.levels by decide)
  | releases admin? node changes kind isAdmin other found writer removal restands =>
    exact hbefore.reassigns restands.standing (show Role.whitelisted ∈ Role.levels by decide)
  | recovers admin node key kind body isAdmin requester unbound member absent found adminAfter
      enrolls =>
    exact hbefore.reassigns enrolls.standing (hbefore.node found)

/-- If no standing has changed, then no role has, or the record of one participant was begun. -/
theorem changesRoles_of_same (hrecords : op.KeepsRecords before after)
    (hkind : op.kind ≠ .addAdmin ∧ op.kind ≠ .appendWhitelist)
    (hadmin : ∃ admin?, before.admin = .ok admin?) (hsame : before.SameStanding after) :
    op.ChangesRoles before after := by
  by_cases hpaid : ∃ address, op.Begins address
  · obtain ⟨address, hbegins⟩ := hpaid
    rcases hbegins with ⟨hregistration, -⟩ | ⟨hpays, hsubject⟩
    · exact absurd hregistration hkind.1
    have hpays : op.kind = .balanceInitialization ∨ op.kind = .transfer := by
      simpa [hkind.2] using hpays
    have hothers (a : Address) (ha : a ≠ address) : after.role? a = before.role? a :=
      hrecords.role?_of_same hsame fun hb ↦ ha (hb.eq_subject hkind.1 hsubject)
    rcases hrecords.role?_or_begun hsame address with hrole | ⟨hold, hnew⟩
    · refine Or.inl fun a ↦ ?_
      by_cases ha : a = address
      · rw [ha, hrole]
      · exact hothers a ha
    · obtain ⟨admin?, hadmin⟩ := hadmin
      exact Or.inr ⟨address, admin?, _, _, hadmin, hold, hnew, .begins hpays hsubject, hothers⟩
  · exact Or.inl fun a ↦ hrecords.role?_of_same hsame fun hb ↦ hpaid ⟨a, hb⟩

/-- An applied operation changes one role at most. -/
theorem changesRoles (h : op.StandingStep bootstrap members before after changes)
    (hrecords : op.KeepsRecords before after) (hleveled : before.Leveled)
    (hempty : before.admin = .ok none → ∀ a, before.node a = .ok none)
    (hadmin : ∃ admin?, before.admin = .ok admin?) :
    op.ChangesRoles before after := by
  cases h with
  | keeps kind same =>
    refine changesRoles_of_same hrecords ?_ hadmin same
    constructor <;> intro hkind <;> simp [hkind] at kind
  | registers standing kind noAdmin role key admin enrolls =>
    have hrole := role?_of_standing enrolls.standing.self (by rw [role]; decide)
    rw [role] at hrole
    exact Or.inr ⟨op.requester, none, none, _, noAdmin, role?_of_node (hempty noAdmin _), hrole,
      .registers kind rfl, hrecords.role?_other (fun a ha ↦ ha.eq_requester kind) enrolls.standing⟩
  | whitelists admin target node? license kind body isAdmin node role restands =>
    refine Or.inr ⟨target, some admin, _, _, isAdmin, role?_of_node node,
      role?_of_standing restands.standing.self (show Role.whitelisted ≠ .none by decide),
      .whitelists kind body ?_, hrecords.role?_other ?_ restands.standing⟩
    · have hnone := Role.eq_none_of_not_isWhitelisted (hleveled.node node) role
      cases node? with
      | none => exact Or.inl rfl
      | some record => exact Or.inr (congrArg some hnone)
    · exact fun a ha ↦ ha.eq_subject (by simp [kind]) (by rw [body]; rfl)
  | bans admin target node kind body isAdmin other found whitelisted role restands =>
    refine hrecords.changesRoles (not_begins (by simp [kind])) isAdmin found restands.standing
      (.bans kind body ?_
        (Role.whitelisted_or_writer_of_not_isIndexer (hleveled.node found) whitelisted role))
    rintro _ ⟨⟩
    exact other
  | promotes admin target node kind body isAdmin found writer role absent restands =>
    refine hrecords.changesRoles (not_begins (by simp [kind])) isAdmin found restands.standing ?_
    rw [Role.eq_writer_of_not_isIndexer writer role]
    exact .promotes kind body
  | demotes admin target node changes kind body isAdmin found role removal restands =>
    refine hrecords.changesRoles (not_begins (by simp [kind])) isAdmin found restands.standing ?_
    rw [Role.isIndexer_iff.mp role]
    exact .demotes kind body
  | enlists node key stake kind body found whitelisted role same enrolls =>
    obtain ⟨admin?, hadmin⟩ := hadmin
    refine hrecords.changesRoles (not_begins (by simp [kind])) hadmin found enrolls.standing ?_
    have hrole : node.role = .whitelisted :=
      Role.eq_whitelisted_of_not_isWriter (hleveled.node found) whitelisted role
    rw [hrole]
    exact .enlists kind rfl
  | releases admin? node changes kind isAdmin other found writer removal restands =>
    exact hrecords.changesRoles (not_begins (by simp [kind])) isAdmin found restands.standing
      (.releases kind rfl (fun admin hsome ↦ (other admin hsome).symm) (Role.isWriter_iff.mp writer))
  | recovers admin node key kind body isAdmin requester unbound member absent found adminAfter
      enrolls =>
    have hbegins : ∀ a, ¬ op.Begins a := not_begins (by simp [kind])
    refine Or.inl fun a ↦ ?_
    by_cases ha : a = admin.address
    · rw [ha]
      exact hrecords.role?_eq (hbegins _) (standing_of_node found) enrolls.standing.self rfl
    · exact hrecords.role?_other (fun b hb ↦ absurd hb (hbegins b)) enrolls.standing a ha

end Operation.StandingStep

/-! ### Whose record an operation begins -/

namespace Setting

variable {setting : Setting} {base : View} {result : Draft}

/-- Who requests what a validator cosigns has a record; a recovery asks for the administrator
instead. -/
theorem requester_node_of_rule (h : setting.rule { base } = .ok result)
    (hrequires : setting.operation.kind.requiresCosignature)
    (hrecovery : setting.operation.kind ≠ .adminRecovery) :
    ∃ node, base.node setting.operation.requester = .ok (some node) := by
  cases ruling_of_rule h with
  | addWriter key kind body ok =>
    obtain ⟨node, hnode, -⟩ := addWriter_eq_ok.mp ok
    exact ⟨node, hnode⟩
  | removeWriter key kind body ok =>
    obtain ⟨-, node, hnode, -⟩ := removeWriter_eq_ok.mp ok
    exact ⟨node, hnode⟩
  | transfer recipient amount kind body ok =>
    obtain ⟨node, hnode, -⟩ := transfer_eq_ok.mp ok
    exact ⟨node, hnode⟩
  | transaction writer content external ledger kind body ok =>
    obtain ⟨-, -, validator, hvalidator, -⟩ := transaction_eq_ok.mp ok
    obtain ⟨node, hnode, -⟩ := requireFeeAndValidator_eq_ok.mp hvalidator
    exact ⟨node, hnode⟩
  | bootstrapDeployment bootstrap channel kind body ok =>
    obtain ⟨-, -, validator, hvalidator, -⟩ := bootstrapDeployment_eq_ok.mp ok
    obtain ⟨node, hnode, -⟩ := requireFeeAndValidator_eq_ok.mp hvalidator
    exact ⟨node, hnode⟩
  | adminRecovery key kind => exact absurd kind hrecovery
  | addAdmin _ kind | disableInitialization _ kind | balanceInitialization _ _ kind
  | appendWhitelist _ kind | banValidator _ kind | addIndexer _ kind | removeIndexer _ kind =>
    rw [kind] at hrequires
    cases hrequires

/-- Whom an operation acts upon has a record, unless it is whitelisted or paid. -/
theorem subject_node_of_rule (h : setting.rule { base } = .ok result) {a : Address}
    (hsubject : setting.operation.body.subject? = some a)
    (hkind : setting.operation.kind ∉
      [Kind.appendWhitelist, .balanceInitialization, .transfer]) :
    ∃ node, base.node a = .ok (some node) := by
  cases ruling_of_rule h with
  | banValidator target kind body ok =>
    obtain ⟨-, -, -, node, hnode, -⟩ := banValidator_eq_ok.mp ok
    rw [body] at hsubject
    cases hsubject
    exact ⟨node, hnode⟩
  | addIndexer target kind body ok =>
    obtain ⟨-, -, node, hnode, -⟩ := addIndexer_eq_ok.mp ok
    rw [body] at hsubject
    cases hsubject
    exact ⟨node, hnode⟩
  | removeIndexer target kind body ok =>
    obtain ⟨-, -, node, hnode, -⟩ := removeIndexer_eq_ok.mp ok
    rw [body] at hsubject
    cases hsubject
    exact ⟨node, hnode⟩
  | appendWhitelist _ kind | balanceInitialization _ _ kind | transfer _ _ kind =>
    exact absurd (by rw [kind]; decide) hkind
  | addAdmin _ _ body | disableInitialization _ _ body | addWriter _ _ body
  | removeWriter _ _ body | adminRecovery _ _ body | transaction _ _ _ _ _ body
  | bootstrapDeployment _ _ _ body =>
    rw [body] at hsubject
    cases hsubject

end Setting

namespace Replica

open View

variable {replica : Replica} {delivery : Delivery} {op : Operation} {effect : Effect}
  {initializing : Bool} {draft : Draft} {a : Address}

namespace Applied

/-- Who requests an operation has a record, unless it is the registration of the administrator. -/
theorem requester_node (h : replica.Applied delivery op effect initializing draft)
    (hstand : replica.MembersStand) (hkind : op.kind ≠ .addAdmin) :
    ∃ node, replica.store.view.node op.requester = .ok (some node) := by
  have hadministrator {key : WritingKey}
      (hadmin : replica.store.view.admin = .ok (some ⟨op.requester, key⟩)) :
      ∃ node, replica.store.view.node op.requester = .ok (some node) := by
    have hgoverned := hstand.governed hadmin
    obtain ⟨node, hnode, -⟩ := hgoverned.adminStands.record hgoverned.keysBound hadmin
    exact ⟨node, hnode⟩
  rcases Kind.needs_of_ne_addAdmin hkind with hadminOnly | hrequires
  · exact hadministrator (h.entitled.administers hadminOnly)
  · by_cases hrecovery : op.kind = .adminRecovery
    · obtain ⟨key, hadmin⟩ := h.entitled.recovers hrecovery
      exact hadministrator hadmin
    · have hnode := Setting.requester_node_of_rule h.rule hrequires hrecovery
      exact hnode

/-- Who cosigns an operation has a record. -/
theorem validator_node (h : replica.Applied delivery op effect initializing draft)
    (hvalidator : op.validator? = some a) :
    ∃ node, replica.store.view.node a = .ok (some node) := by
  obtain ⟨cosignature, hcosignature, -, -, ⟨node, hnode, -⟩, -⟩ :=
    h.entitled.cosigned (h.requiresCosignature hvalidator)
  rw [Operation.validator?, hcosignature] at hvalidator
  cases hvalidator
  exact ⟨node, hnode⟩

/-- Everybody whose record an operation may write has one, except for those that it may begin. -/
theorem node_of_concerns (h : replica.Applied delivery op effect initializing draft)
    (hstand : replica.MembersStand) (ha : op.Concerns a) (hbegins : ¬ op.Begins a) :
    ∃ node, replica.store.view.node a = .ok (some node) := by
  rcases ha with rfl | hsubject | hvalidator
  · exact h.requester_node hstand fun hkind ↦ hbegins (Or.inl ⟨hkind, rfl⟩)
  · exact Setting.subject_node_of_rule h.rule hsubject fun hkind ↦
      hbegins (Or.inr ⟨hkind, hsubject⟩)
  · exact h.validator_node hvalidator

theorem keepsRecords (h : replica.Applied delivery op effect initializing draft)
    (hstand : replica.MembersStand) (hlegible : replica.store.view.Legible) :
    op.KeepsRecords replica.store.view
      (replica.commit effect.writes effect.changes).store.view where
  legible := hlegible.node
  kept a old hold := by
    have hentry : ViewKey.node a ≠ .applied op.tx := by simp
    rcases h.read_cases hentry with hsame | ⟨_, ⟨-, new, rfl⟩, hwritten⟩
    · exact ⟨old, (readAs_congr hsame _).trans hold⟩
    · exact ⟨new, readAs_of_read hwritten (NodeRecord.decode_encode new)⟩
  absent a hbegins hold := by
    have ha : ¬ op.Concerns a := by
      intro ha
      obtain ⟨node, hnode⟩ := h.node_of_concerns hstand ha hbegins
      rw [hold] at hnode
      cases hnode
    exact (readAs_congr (h.read_node ha) _).trans hold

/-- A record that a payment begins holds a balance and nothing else. -/
theorem eq_ofBalance (h : replica.Applied delivery op effect initializing draft)
    (hkind : op.kind ∈ [.transfer, .balanceInitialization])
    (hold : replica.store.view.node a = .ok none) {node : NodeRecord}
    (hnew : (replica.commit effect.writes effect.changes).store.view.node a = .ok (some node)) :
    node = .ofBalance node.balance := by
  have hsame := h.standingStep.standing_of_payment hkind a
  rw [standing_of_node hold, standing_of_node hnew] at hsame
  exact NodeRecord.eq_of_standing (Except.ok.inj hsame)

end Applied

/-! ### Runs -/

theorem leveled_run (engine : Engine) (bootstrap : WritingKey) (txValidity : Hash)
    (events : List ReplicaEvent) :
    ((fresh engine bootstrap txValidity).run events).store.view.Leveled := by
  refine run_induction (P := fun replica ↦ replica.store.view.Leveled) (fun _ _ h ↦ h) ?_ _
    (fun a standing hstanding ↦ ?_) events
  · intro replica delivery op effect h heffect
    obtain ⟨initializing, draft, happlied⟩ := applied_of_effect heffect
    exact happlied.standingStep.leveled h
  · cases hstanding
    decide

/-- The first byte of a stored record says which of the four roles it is. -/
theorem head_of_leveled {view : View} (hleveled : view.Leveled) (hlegible : view.Legible)
    {bytes : Bytes} (hread : view.read (.node a) = .ok (some bytes)) :
    bytes.head? ∈ [some 0, some 1, some 3, some 7] := by
  have hbits : ∀ role ∈ Role.levels, some role.bits ∈ [some 0, some 1, some 3, some 7] := by
    decide
  rcases hlegible (.node a) with hnone | ⟨_, hfound, node, rfl⟩
  · rw [hread] at hnone
    cases hnone
  · rw [hread] at hfound
    cases hfound
    exact hbits node.role (hleveled.node (readAs_of_read hread (NodeRecord.decode_encode node)))

/-- **The life of a role.** In every reachable state the role byte of every record is one of the four
that count, so that every mark stands only with those below it. A delivery that is skipped leaves
the replica as it is; one that is applied changes the role of one participant at most, and by one of
the steps there are; and a record that a credit or a transfer begins holds a balance and nothing
else. -/
theorem roles_change_by_steps (engine : Engine) (bootstrap : WritingKey) (txValidity : Hash)
    (events : List ReplicaEvent) :
    let replica := (fresh engine bootstrap txValidity).run events
    (∀ a bytes, replica.store.view.read (.node a) = .ok (some bytes) →
        bytes.head? ∈ [some 0, some 1, some 3, some 7]) ∧
      (∀ a node, replica.node a = .ok (some node) →
        node.role ∈ [Role.none, .whitelisted, .writer, .indexer] ∧
          (node.role.indexerMark → node.role.writerMark) ∧
          (node.role.writerMark → node.role.whitelistMark)) ∧
      ∀ batch delivery,
        let before := (replica.apply batch).1
        let after := (replica.apply (batch ++ [delivery])).1
        ∃ outcome, (replica.apply (batch ++ [delivery])).2.outcomes =
            (replica.apply batch).2.outcomes ++ [outcome] ∧
          match outcome.verdict with
          | .skipped _ => after = before
          | .applied => ∃ op, delivery.operation = .ok op ∧
              op.ChangesRoles before.store.view after.store.view ∧
              ∀ a node, op.kind ∈ [.transfer, .balanceInitialization] →
                before.node a = .ok none → after.node a = .ok (some node) →
                  node = .ofBalance node.balance := by
  intro replica
  have hlegible : replica.store.view.Legible := legible_run engine bootstrap txValidity events
  have hleveled : replica.store.view.Leveled := leveled_run engine bootstrap txValidity events
  have hmarks : ∀ role ∈ Role.levels, (role.indexerMark → role.writerMark) ∧
      (role.writerMark → role.whitelistMark) := by decide
  refine ⟨fun a bytes hread ↦ head_of_leveled hleveled hlegible hread, fun a node hnode ↦
    ⟨hleveled.node hnode, hmarks _ (hleveled.node hnode)⟩, ?_⟩
  intro batch delivery before after
  have hrun : (fresh engine bootstrap txValidity).run (events ++ [.batch batch]) = before :=
    run_batch _ events batch
  cases heffect : before.effect delivery with
  | error refusal =>
    obtain ⟨identity, happly⟩ := apply_concat_of_error heffect
    refine ⟨⟨identity, .skipped refusal⟩, by rw [happly], ?_⟩
    show (replica.apply (batch ++ [delivery])).1 = _
    rw [happly]
  | ok made =>
    obtain ⟨op, effect⟩ := made
    obtain ⟨initializing, draft, happlied⟩ := applied_of_effect heffect
    have happly := apply_concat_of_ok heffect
    have hafter : after = before.commit effect.writes effect.changes := congrArg Prod.fst happly
    have hstand : before.MembersStand := hrun ▸ membersStand_run engine bootstrap txValidity _
    have hlegible : before.store.view.Legible := hrun ▸ legible_run engine bootstrap txValidity _
    have hleveled : before.store.view.Leveled := hrun ▸ leveled_run engine bootstrap txValidity _
    have hregistered : before.Registered _ := hrun ▸ registered_run engine bootstrap txValidity _
    refine ⟨⟨some (op.kind, op.tx), .applied⟩, by rw [happly], op, happlied.carried, ?_,
      fun a node hkind hold hnew ↦ ?_⟩
    · rw [hafter]
      exact happlied.standingStep.changesRoles (happlied.keepsRecords hstand hlegible) hleveled
        (fun hnone ↦ node_of_empty (hregistered.store_eq_empty hnone)) hlegible.admin
    · rw [hafter] at hnew
      exact happlied.eq_ofBalance hkind hold hnew

end Replica

end SettlementLedger
