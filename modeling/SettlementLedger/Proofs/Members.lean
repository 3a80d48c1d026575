import SettlementLedger.Proofs.WritingKeys

/-!
# The members are the indexers

Roles are kept in the entries of the ledger and the membership set beside them. Until the
administrator is registered nobody has a role and the bootstrap key is the only member
(`View.Founding`). From then on the members are the writing keys of the indexers
(`View.Governed`), for which the invariant has to know more than the two sets: that no two writers
share a key, so that a key that leaves belongs to nobody else, and that the administrator is a
writer under its own key, so that it is the administrator whose key a recovery replaces.
-/

set_option autoImplicit false
set_option relaxedAutoImplicit false

namespace SettlementLedger

namespace View

variable {before after : View} {address : Address} {standing : Standing} {members : Membership}

/-! ### Indexers -/

/-- A participant is an indexer under a writing key. -/
def Indexes (view : View) (a : Address) (key : WritingKey) : Prop :=
  ∃ standing, view.standing a = .ok standing ∧ standing.role.isIndexer ∧ standing.writingKey = key

theorem indexes_iff {view : View} {a : Address} {key : WritingKey} :
    view.Indexes a key ↔
      ∃ node, view.node a = .ok (some node) ∧ node.role = .indexer ∧ node.writingKey = key := by
  constructor
  · rintro ⟨standing, hstanding, hrole, hkey⟩
    obtain ⟨node, hnode, rfl⟩ :=
      node_of_standing_of_isWriter hstanding (Role.isWriter_of_isIndexer hrole)
    exact ⟨node, hnode, Role.isIndexer_iff.mp hrole, hkey⟩
  · rintro ⟨node, hnode, hrole, hkey⟩
    exact ⟨node.standing, standing_of_node hnode, Role.isIndexer_iff.mpr hrole, hkey⟩

/-- The key of an indexer is bound to it. -/
theorem KeysBound.owner_of_indexes {view : View} (h : view.KeysBound) {a : Address}
    {key : WritingKey} (hindexes : view.Indexes a key) :
    view.writerOwner key = .ok (some a) := by
  obtain ⟨standing, hstanding, hrole, rfl⟩ := hindexes
  exact h a standing hstanding (Role.isWriter_of_isIndexer hrole)

/-- No two indexers share a key. -/
theorem KeysBound.indexes_unique {view : View} (h : view.KeysBound) {a b : Address}
    {key : WritingKey} (ha : view.Indexes a key) (hb : view.Indexes b key) : a = b := by
  have howner := h.owner_of_indexes hb
  rw [h.owner_of_indexes ha] at howner
  cases howner
  rfl

theorem indexes_self {view : View} {a : Address} {key : WritingKey}
    (h : view.standing a = .ok standing) :
    view.Indexes a key ↔ standing.role.isIndexer ∧ standing.writingKey = key := by
  constructor
  · rintro ⟨found, hfound, hrole, hkey⟩
    rw [h] at hfound
    cases hfound
    exact ⟨hrole, hkey⟩
  · rintro ⟨hrole, hkey⟩
    exact ⟨standing, h, hrole, hkey⟩

/-- The indexers after one participant got a new standing. -/
theorem exists_indexes_iff (h : before.Reassigns after address standing) {key : WritingKey} :
    (∃ a, after.Indexes a key) ↔ (standing.role.isIndexer ∧ standing.writingKey = key) ∨
      ∃ a, a ≠ address ∧ before.Indexes a key := by
  have hother (a : Address) (ha : a ≠ address) : after.Indexes a key ↔ before.Indexes a key := by
    rw [Indexes, h.other ha, Indexes]
  constructor
  · rintro ⟨a, hindexes⟩
    by_cases ha : a = address
    · rw [ha] at hindexes
      exact Or.inl ((indexes_self h.self).mp hindexes)
    · exact Or.inr ⟨a, ha, (hother a ha).mp hindexes⟩
  · rintro (hnew | ⟨a, ha, hindexes⟩)
    · exact ⟨address, (indexes_self h.self).mpr hnew⟩
    · exact ⟨a, (hother a ha).mpr hindexes⟩

theorem not_indexes {view : View} (h : view.standing address = .ok standing)
    (hrole : ¬ standing.role.isIndexer) (key : WritingKey) : ¬ view.Indexes address key :=
  fun hindexes ↦ hrole ((indexes_self h).mp hindexes).1

/-! ### The administrator -/

/-- There is an administrator, who is a writer under its own key. -/
def AdminStands (view : View) : Prop :=
  ∃ admin standing, view.admin = .ok (some admin) ∧
    view.standing admin.address = .ok standing ∧ standing.role.isWriter ∧
      standing.writingKey = admin.writingKey

namespace AdminStands

theorem same (h : before.AdminStands) (hsame : before.SameStanding after) : after.AdminStands := by
  obtain ⟨admin, standing, hadmin, hstanding, hrest⟩ := h
  exact ⟨admin, standing, hsame.admin.trans hadmin,
    (hsame.standing admin.address).trans hstanding, hrest⟩

/-- The administrator is not concerned if somebody else gets a new standing. -/
theorem other (h : before.AdminStands) (hadmin : after.admin = before.admin)
    (hstanding : before.Reassigns after address standing)
    (hother : ∀ admin, before.admin = .ok (some admin) → address ≠ admin.address) :
    after.AdminStands := by
  obtain ⟨admin, found, hfound, hstands, hrest⟩ := h
  refine ⟨admin, found, hadmin.trans hfound, ?_, hrest⟩
  rw [hstanding.other (hother admin hfound).symm]
  exact hstands

theorem ne_of_not_isWriter (h : before.AdminStands)
    (hstanding : before.standing address = .ok standing) (hrole : ¬ standing.role.isWriter)
    (admin : AdminRecord) (hadmin : before.admin = .ok (some admin)) :
    address ≠ admin.address := by
  intro heq
  obtain ⟨known, found, hknown, hfound, hwriter, -⟩ := h
  rw [hadmin] at hknown
  cases hknown
  rw [heq, hfound] at hstanding
  cases hstanding
  exact hrole hwriter

/-- The administrator may get another role if it stays a writer. -/
theorem restands {old : Standing} {role : Role} (h : before.AdminStands)
    (hold : before.standing address = .ok old)
    (hrestands : before.Restands after address { old with role }) (hwriter : role.isWriter) :
    after.AdminStands := by
  obtain ⟨admin, found, hfound, hstands, hrole, hkey⟩ := h
  by_cases ha : admin.address = address
  · rw [ha, hold] at hstands
    cases hstands
    refine ⟨admin, { old with role }, hrestands.admin.trans hfound, ?_, hwriter, hkey⟩
    rw [ha]
    exact hrestands.standing.self
  · refine ⟨admin, found, hrestands.admin.trans hfound, ?_, hrole, hkey⟩
    rw [hrestands.standing.other ha]
    exact hstands

/-- The node record of the administrator, and the binding of its key. -/
theorem record {view : View} (h : view.AdminStands) (hbound : view.KeysBound) {admin : AdminRecord}
    (hadmin : view.admin = .ok (some admin)) :
    ∃ node, view.node admin.address = .ok (some node) ∧
      (node.role = .writer ∨ node.role = .indexer) ∧ node.writingKey = admin.writingKey ∧
      view.writerOwner admin.writingKey = .ok (some admin.address) := by
  obtain ⟨known, standing, hknown, hstanding, hwriter, hkey⟩ := h
  rw [hadmin] at hknown
  cases hknown
  obtain ⟨node, hnode, rfl⟩ := node_of_standing_of_isWriter hstanding hwriter
  have howner := hbound.node hnode hwriter
  exact ⟨node, hnode, Role.isWriter_iff.mp hwriter, hkey, hkey ▸ howner⟩

end AdminStands

/-! ### The invariant -/

/-- Nobody is registered yet, and the bootstrap writer is the only member. -/
structure Founding (view : View) (bootstrap : WritingKey) (members : Membership) : Prop where
  noAdmin : view.admin = .ok none
  unlisted : ∀ a standing, view.standing a = .ok standing → ¬ standing.role.isWhitelisted
  members_iff : ∀ key, members.contains key ↔ key = bootstrap

/-- The administrator is registered, and the members are the writing keys of the indexers, at least
one. -/
structure Governed (view : View) (members : Membership) : Prop where
  keysBound : view.KeysBound
  adminStands : view.AdminStands
  members_iff : ∀ key, members.contains key ↔ ∃ a, view.Indexes a key
  inhabited : ∃ key, members.contains key

namespace Governed

variable {old : Standing}

theorem same (h : before.Governed members) (hsame : before.SameStanding after) :
    after.Governed members where
  keysBound := h.keysBound.same hsame
  adminStands := h.adminStands.same hsame
  members_iff key := by
    rw [h.members_iff]
    simp only [Indexes, hsame.standing]
  inhabited := h.inhabited

/-- A participant that was no indexer and becomes none does not matter to the membership set. -/
theorem outside (h : before.Governed members) (hkeys : after.KeysBound)
    (hadmin : after.AdminStands)
    (hstanding : before.Reassigns after address standing)
    (hold : before.standing address = .ok old) (hbefore : ¬ old.role.isIndexer)
    (hafter : ¬ standing.role.isIndexer) : after.Governed members where
  keysBound := hkeys
  adminStands := hadmin
  members_iff key := by
    rw [h.members_iff, exists_indexes_iff hstanding]
    constructor
    · rintro ⟨a, ha⟩
      refine Or.inr ⟨a, fun heq ↦ ?_, ha⟩
      rw [heq] at ha
      exact not_indexes hold hbefore key ha
    · rintro (⟨hrole, -⟩ | ⟨a, -, ha⟩)
      · exact absurd hrole hafter
      · exact ⟨a, ha⟩
  inhabited := h.inhabited

/-- The key of a participant that becomes an indexer joins. -/
theorem joins (h : before.Governed members) (hkeys : after.KeysBound)
    (hadmin : after.AdminStands)
    (hstanding : before.Reassigns after address standing)
    (hold : before.standing address = .ok old) (hbefore : ¬ old.role.isIndexer)
    (hafter : standing.role.isIndexer) :
    after.Governed (members.apply (.add standing.writingKey)) where
  keysBound := hkeys
  adminStands := hadmin
  members_iff key := by
    rw [Membership.contains_add_iff, h.members_iff, exists_indexes_iff hstanding]
    constructor
    · rintro (rfl | ⟨a, ha⟩)
      · exact Or.inl ⟨hafter, rfl⟩
      · refine Or.inr ⟨a, fun heq ↦ ?_, ha⟩
        rw [heq] at ha
        exact not_indexes hold hbefore key ha
    · rintro (⟨-, hkey⟩ | ⟨a, -, ha⟩)
      · exact Or.inl hkey.symm
      · exact Or.inr ⟨a, ha⟩
  inhabited := ⟨standing.writingKey, (Membership.contains_add_iff _ _ _).mpr (Or.inl rfl)⟩

/-- The key of an indexer that becomes none leaves; no other indexer has it. -/
theorem leaves (h : before.Governed members) (hkeys : after.KeysBound)
    (hadmin : after.AdminStands)
    (hstanding : before.Reassigns after address standing)
    (hold : before.standing address = .ok old) (hbefore : old.role.isIndexer)
    (hafter : ¬ standing.role.isIndexer) (hsize : 1 < members.size) :
    after.Governed (members.apply (.remove old.writingKey)) where
  keysBound := hkeys
  adminStands := hadmin
  members_iff key := by
    have hindexes : before.Indexes address old.writingKey :=
      (indexes_self hold).mpr ⟨hbefore, rfl⟩
    rw [Membership.contains_remove_iff, h.members_iff, exists_indexes_iff hstanding]
    constructor
    · rintro ⟨hkey, a, ha⟩
      refine Or.inr ⟨a, fun heq ↦ ?_, ha⟩
      rw [heq] at ha
      exact hkey ((indexes_self hold).mp ha).2.symm
    · rintro (⟨hrole, -⟩ | ⟨a, hne, ha⟩)
      · exact absurd hrole hafter
      · refine ⟨fun hkey ↦ ?_, a, ha⟩
        rw [hkey] at ha
        exact hne (h.keysBound.indexes_unique ha hindexes)
  inhabited := by
    obtain ⟨other, hne, hother⟩ := Membership.exists_other_of_one_lt_size hsize old.writingKey
    exact ⟨other, (Membership.contains_remove_iff _ _ _).mpr ⟨hne, hother⟩⟩

/-- The administrator under its own key, which is a member, is the indexer with that key. -/
theorem admin_isIndexer (h : before.Governed members) {admin : AdminRecord}
    (hadmin : before.admin = .ok (some admin))
    (hstanding : before.standing admin.address = .ok standing)
    (hmember : members.contains admin.writingKey) :
    standing.role.isIndexer ∧ standing.writingKey = admin.writingKey := by
  obtain ⟨known, found, hknown, hfound, hwriter, hkey⟩ := h.adminStands
  rw [hadmin] at hknown
  cases hknown
  rw [hstanding] at hfound
  cases hfound
  obtain ⟨a, hindexes⟩ := (h.members_iff admin.writingKey).mp hmember
  have howner := h.keysBound.owner_of_indexes hindexes
  rw [← hkey, h.keysBound admin.address standing hstanding hwriter] at howner
  cases howner
  exact (indexes_self hstanding).mp hindexes

/-- The new key of the administrator joins and its old key leaves. -/
theorem rekeys (h : before.Governed members) {admin : AdminRecord} {key : WritingKey}
    (hadmin : before.admin = .ok (some admin)) (hold : before.standing admin.address = .ok old)
    (hmember : members.contains admin.writingKey) (habsent : ¬ members.contains key)
    (hadminAfter : after.admin = .ok (some { admin with writingKey := key }))
    (henrolls : before.Enrolls after admin.address { old with writingKey := key }) :
    after.Governed ((members.apply (.add key)).apply (.remove admin.writingKey)) := by
  obtain ⟨hrole, hkey⟩ := h.admin_isIndexer hadmin hold hmember
  have hne : key ≠ admin.writingKey := fun heq ↦ habsent (heq ▸ hmember)
  refine ⟨h.keysBound.enrolls henrolls, ⟨_, _, hadminAfter, henrolls.standing.self,
    Role.isWriter_of_isIndexer hrole, rfl⟩, ?_, ⟨key, ?_⟩⟩
  · intro k
    rw [Membership.contains_remove_iff, Membership.contains_add_iff, h.members_iff,
      exists_indexes_iff henrolls.standing]
    constructor
    · rintro ⟨hk, rfl | ⟨a, ha⟩⟩
      · exact Or.inl ⟨hrole, rfl⟩
      · refine Or.inr ⟨a, fun heq ↦ ?_, ha⟩
        rw [heq] at ha
        exact hk (((indexes_self hold).mp ha).2.symm.trans hkey)
    · rintro (⟨-, rfl⟩ | ⟨a, ha, hindexes⟩)
      · exact ⟨hne, Or.inl rfl⟩
      · refine ⟨fun hk ↦ ha ?_, Or.inr ⟨a, hindexes⟩⟩
        rw [hk] at hindexes
        exact h.keysBound.indexes_unique hindexes ((indexes_self hold).mpr ⟨hrole, hkey⟩)
  · rw [Membership.contains_remove_iff, Membership.contains_add_iff]
    exact ⟨hne, Or.inl rfl⟩

end Governed

end View

/-! ### Steps -/

namespace Operation.StandingStep

open View

variable {op : Operation} {bootstrap : WritingKey} {members : Membership} {before after : View}
  {changes : MembershipDiff}

/-- As long as there is no administrator, only its registration changes who has a role, and nothing
changes the membership set. -/
theorem founding (h : op.StandingStep bootstrap members before after changes)
    (hbefore : before.Founding bootstrap members) :
    (after.Founding bootstrap members ∨ after.Governed members) ∧ changes = [] := by
  have hno (admin : AdminRecord) : before.admin ≠ .ok (some admin) := by
    rw [hbefore.noAdmin]
    exact nofun
  cases h with
  | keeps kind same =>
    refine ⟨Or.inl ⟨same.admin.trans hbefore.noAdmin, ?_, hbefore.members_iff⟩, rfl⟩
    intro a standing hstanding
    rw [same.standing] at hstanding
    exact hbefore.unlisted a standing hstanding
  | registers standing kind noAdmin role key admin enrolls =>
    have hkeys : before.KeysBound := fun a found hfound hwriter ↦
      absurd (Role.isWhitelisted_of_isWriter hwriter) (hbefore.unlisted a found hfound)
    have hindexer : standing.role.isIndexer := Role.isIndexer_iff.mpr role
    refine ⟨Or.inr ⟨hkeys.enrolls enrolls, ⟨_, standing, admin, enrolls.standing.self,
      Role.isWriter_of_isIndexer hindexer, key⟩, ?_, ⟨bootstrap, ?_⟩⟩, rfl⟩
    · intro k
      rw [hbefore.members_iff, exists_indexes_iff enrolls.standing]
      constructor
      · rintro rfl
        exact Or.inl ⟨hindexer, key⟩
      · rintro (⟨-, hk⟩ | ⟨a, -, found, hfound, hrole, -⟩)
        · exact hk.symm.trans key
        · exact absurd (Role.isWhitelisted_of_isWriter (Role.isWriter_of_isIndexer hrole))
            (hbefore.unlisted a found hfound)
    · exact (hbefore.members_iff bootstrap).mpr rfl
  | whitelists admin target node? license kind body isAdmin node role restands =>
    exact absurd isAdmin (hno admin)
  | bans admin target node kind body isAdmin other found whitelisted role restands =>
    exact absurd isAdmin (hno admin)
  | promotes admin target node kind body isAdmin found writer role absent restands =>
    exact absurd isAdmin (hno admin)
  | demotes admin target node changes kind body isAdmin found role removal restands =>
    exact absurd isAdmin (hno admin)
  | enlists node key stake kind body found whitelisted role admin enrolls =>
    exact absurd whitelisted (hbefore.unlisted _ _ (standing_of_node found))
  | releases admin? node changes kind isAdmin other found writer removal restands =>
    exact absurd (Role.isWhitelisted_of_isWriter writer)
      (hbefore.unlisted _ _ (standing_of_node found))
  | recovers admin node key kind body isAdmin requester unbound member absent found adminAfter
      enrolls =>
    exact absurd isAdmin (hno admin)

/-- Once there is an administrator, the members stay the writing keys of the indexers. -/
theorem governed (h : op.StandingStep bootstrap members before after changes)
    (hbefore : before.Governed members) : after.Governed (members.applyAll changes) := by
  have hkeys := h.keysBound hbefore.keysBound
  cases h with
  | keeps kind same => exact hbefore.same same
  | registers standing kind noAdmin role key admin enrolls =>
    obtain ⟨known, standing, hknown, -⟩ := hbefore.adminStands
    rw [noAdmin] at hknown
    cases hknown
  | whitelists admin target node? license kind body isAdmin node role restands =>
    have hold := standing_of_node node
    have hwriter : ¬ (node?.getD {}).role.isWriter := fun h ↦ role (Role.isWhitelisted_of_isWriter h)
    have hother := hbefore.adminStands.ne_of_not_isWriter hold hwriter
    exact hbefore.outside hkeys (hbefore.adminStands.other restands.admin restands.standing hother)
      restands.standing hold (fun h ↦ hwriter (Role.isWriter_of_isIndexer h)) nofun
  | bans admin target node kind body isAdmin other found whitelisted role restands =>
    refine hbefore.outside hkeys (hbefore.adminStands.other restands.admin restands.standing ?_)
      restands.standing (standing_of_node found) role nofun
    intro known hknown
    rw [isAdmin] at hknown
    cases hknown
    exact other
  | promotes admin target node kind body isAdmin found writer role absent restands =>
    have hold := standing_of_node found
    exact hbefore.joins hkeys (hbefore.adminStands.restands hold restands rfl) restands.standing
      hold role rfl
  | demotes admin target node changes kind body isAdmin found role removal restands =>
    have hold := standing_of_node found
    have hmember := (hbefore.members_iff node.writingKey).mpr
      ⟨target, (indexes_self hold).mpr ⟨role, rfl⟩⟩
    obtain ⟨hsize, rfl⟩ := removal.of_contains hmember
    exact hbefore.leaves hkeys (hbefore.adminStands.restands hold restands rfl) restands.standing
      hold role nofun hsize
  | enlists node key stake kind body found whitelisted role admin enrolls =>
    have hold := standing_of_node found
    have hother := hbefore.adminStands.ne_of_not_isWriter hold role
    exact hbefore.outside hkeys (hbefore.adminStands.other admin enrolls.standing hother)
      enrolls.standing hold (fun h ↦ role (Role.isWriter_of_isIndexer h)) nofun
  | releases admin? node changes kind isAdmin other found writer removal restands =>
    have hold := standing_of_node found
    have hadmin := hbefore.adminStands.other restands.admin restands.standing fun known hknown ↦ by
      rw [isAdmin] at hknown
      cases hknown
      exact (other known rfl).symm
    rcases removal with ⟨hrole, hremoval⟩ | ⟨hrole, rfl⟩
    · have hmember := (hbefore.members_iff node.writingKey).mpr
        ⟨op.requester, (indexes_self hold).mpr ⟨hrole, rfl⟩⟩
      obtain ⟨hsize, rfl⟩ := hremoval.of_contains hmember
      exact hbefore.leaves hkeys hadmin restands.standing hold hrole nofun hsize
    · exact hbefore.outside hkeys hadmin restands.standing hold hrole nofun
  | recovers admin node key kind body isAdmin requester unbound member absent found adminAfter
      enrolls =>
    exact hbefore.rekeys isAdmin (standing_of_node found) member absent adminAfter enrolls

end Operation.StandingStep

/-! ### What an operation asks of the membership set -/

/-- The membership changes that an operation of each kind asks for in a state. -/
def Operation.Asks (op : Operation) (view : View) (changes : MembershipDiff) : Prop :=
  match op.kind with
  | .addIndexer => ∃ target node, op.body = .adminControl target ∧
      view.node target = .ok (some node) ∧ changes = [.add node.writingKey]
  | .removeIndexer => ∃ target node, op.body = .adminControl target ∧
      view.node target = .ok (some node) ∧ changes = [.remove node.writingKey]
  | .removeWriter => ∃ node, view.node op.requester = .ok (some node) ∧
      changes = if node.role = .indexer then [.remove node.writingKey] else []
  | .adminRecovery => ∃ key admin, op.body = .roleAccess key ∧
      view.admin = .ok (some admin) ∧ changes = [.add key, .remove admin.writingKey]
  | _ => changes = []

/-- The invariant of the membership set: before and after the registration. -/
def View.MembersStand (view : View) (bootstrap : WritingKey) (members : Membership) : Prop :=
  view.Founding bootstrap members ∨ view.Governed members

theorem View.MembersStand.governed {view : View} {bootstrap : WritingKey} {members : Membership}
    (h : view.MembersStand bootstrap members) {admin : AdminRecord}
    (hadmin : view.admin = .ok (some admin)) : view.Governed members := by
  rcases h with hfounding | hgoverned
  · rw [hfounding.noAdmin] at hadmin
    cases hadmin
  · exact hgoverned

namespace Operation.StandingStep

open View

variable {op : Operation} {bootstrap : WritingKey} {members : Membership} {before after : View}
  {changes : MembershipDiff}

theorem membersStand (h : op.StandingStep bootstrap members before after changes)
    (hbefore : before.MembersStand bootstrap members) :
    after.MembersStand bootstrap (members.applyAll changes) := by
  rcases hbefore with hfounding | hgoverned
  · obtain ⟨hafter, rfl⟩ := h.founding hfounding
    exact hafter
  · exact Or.inr (h.governed hgoverned)

/-- The key of an indexer is a member. -/
theorem contains_of_indexer (hbefore : before.MembersStand bootstrap members) {a : Address}
    {node : NodeRecord} (hnode : before.node a = .ok (some node)) (hrole : node.role.isIndexer) :
    members.contains node.writingKey := by
  have hstanding := standing_of_node hnode
  rcases hbefore with hfounding | hgoverned
  · exact absurd (Role.isWhitelisted_of_isWriter (Role.isWriter_of_isIndexer hrole))
      (hfounding.unlisted a _ hstanding)
  · exact (hgoverned.members_iff node.writingKey).mpr
      ⟨a, (indexes_self hstanding).mpr ⟨hrole, rfl⟩⟩

/-- An applied operation asks exactly for the membership changes of its kind. -/
theorem asks (h : op.StandingStep bootstrap members before after changes)
    (hbefore : before.MembersStand bootstrap members) : op.Asks before changes := by
  cases h with
  | keeps kind same =>
    simp only [List.mem_cons, List.not_mem_nil, or_false] at kind
    rcases kind with hkind | hkind | hkind | hkind | hkind <;> simp only [Asks, hkind]
  | registers standing kind noAdmin role key admin enrolls => simp only [Asks, kind]
  | whitelists admin target node? license kind body isAdmin node role restands =>
    simp only [Asks, kind]
  | bans admin target node kind body isAdmin other found whitelisted role restands =>
    simp only [Asks, kind]
  | promotes admin target node kind body isAdmin found writer role absent restands =>
    simp only [Asks, kind]
    exact ⟨target, node, body, found, rfl⟩
  | demotes admin target node changes kind body isAdmin found role removal restands =>
    obtain ⟨-, rfl⟩ := removal.of_contains (contains_of_indexer hbefore found role)
    simp only [Asks, kind]
    exact ⟨target, node, body, found, rfl⟩
  | enlists node key stake kind body found whitelisted role admin enrolls =>
    simp only [Asks, kind]
  | releases admin? node changes kind isAdmin other found writer removal restands =>
    simp only [Asks, kind]
    refine ⟨node, found, ?_⟩
    rcases removal with ⟨hrole, hremoval⟩ | ⟨hrole, rfl⟩
    · obtain ⟨-, rfl⟩ := hremoval.of_contains (contains_of_indexer hbefore found hrole)
      rw [if_pos (Role.isIndexer_iff.mp hrole)]
    · rw [if_neg fun h ↦ hrole (Role.isIndexer_iff.mpr h)]
  | recovers admin node key kind body isAdmin requester unbound member absent found adminAfter
      enrolls =>
    simp only [Asks, kind]
    exact ⟨key, admin, body, isAdmin, rfl⟩

end Operation.StandingStep

/-! ### Runs -/

namespace Replica

open View

/-- The invariant of a replica. -/
def MembersStand (replica : Replica) : Prop :=
  replica.store.view.MembersStand replica.bootstrap replica.members

theorem membersStand_fresh (engine : Engine) (bootstrap : WritingKey) (txValidity : Hash) :
    (fresh engine bootstrap txValidity).MembersStand := by
  refine Or.inl ⟨rfl, fun a standing hstanding hrole ↦ ?_, fun key ↦ ?_⟩
  · cases hstanding
    cases hrole
  · simp [fresh, Membership.ofEntries, Membership.contains, SortedMap.contains, SortedMap.ofList,
      SortedMap.insertAll, SortedMap.get?_insert]

theorem membersStand_commit {replica : Replica} {delivery : Delivery} {op : Operation}
    {effect : Effect} (h : replica.MembersStand)
    (heffect : replica.effect delivery = .ok (op, effect)) :
    (replica.commit effect.writes effect.changes).MembersStand := by
  obtain ⟨initializing, draft, happlied⟩ := applied_of_effect heffect
  exact happlied.standingStep.membersStand h

theorem membersStand_run (engine : Engine) (bootstrap : WritingKey) (txValidity : Hash)
    (events : List ReplicaEvent) :
    ((fresh engine bootstrap txValidity).run events).MembersStand :=
  run_induction (P := MembersStand) (fun _ _ h ↦ h)
    (fun _ _ _ _ h heffect ↦ membersStand_commit h heffect) _
    (membersStand_fresh engine bootstrap txValidity) events

/-- After every run from the empty store the bootstrap key is the only member as long as there is no
administrator, and from then on the members are the writing keys of the indexers, each of them the
key of one indexer. The set is never empty. What a delivery adds to the reported changes is what its
kind asks for if it is applied, and nothing if it is skipped. -/
theorem members_are_indexers (engine : Engine) (bootstrap : WritingKey) (txValidity : Hash)
    (events : List ReplicaEvent) :
    let replica := (fresh engine bootstrap txValidity).run events
    ((replica.store.view.admin = .ok none ∧
          ∀ key, replica.members.contains key ↔ key = bootstrap) ∨
        ((∃ admin, replica.store.view.admin = .ok (some admin)) ∧
          (∀ key, replica.members.contains key ↔ ∃ a node, replica.node a = .ok (some node) ∧
            node.role = .indexer ∧ node.writingKey = key) ∧
          ∀ a b first second, replica.node a = .ok (some first) →
            replica.node b = .ok (some second) → first.role = .indexer → second.role = .indexer →
              first.writingKey = second.writingKey → a = b)) ∧
      replica.members.isEmpty = false ∧
      ∀ batch delivery, ∃ outcome changes,
        (replica.apply (batch ++ [delivery])).2 =
            ⟨(replica.apply batch).2.outcomes ++ [outcome],
              (replica.apply batch).2.diff ++ changes⟩ ∧
          match outcome.verdict with
          | .skipped _ => changes = []
          | .applied => ∃ op, delivery.operation = .ok op ∧
              op.Asks (replica.apply batch).1.store.view changes := by
  intro replica
  have hfixed : replica.bootstrap = bootstrap := (run_fixed _ events).2
  have hstand : replica.MembersStand := membersStand_run engine bootstrap txValidity events
  refine ⟨?_, ?_, fun batch delivery ↦ ?_⟩
  · rcases hstand with hfounding | hgoverned
    · exact Or.inl ⟨hfounding.noAdmin, fun key ↦ hfixed ▸ hfounding.members_iff key⟩
    · obtain ⟨admin, standing, hadmin, -⟩ := hgoverned.adminStands
      refine Or.inr ⟨⟨admin, hadmin⟩, fun key ↦ ?_, ?_⟩
      · rw [hgoverned.members_iff]
        exact exists_congr fun a ↦ indexes_iff
      · intro a b first second hfirst hsecond hfirstRole hsecondRole hkey
        exact hgoverned.keysBound.indexes_unique (indexes_iff.mpr ⟨first, hfirst, hfirstRole, rfl⟩)
          (indexes_iff.mpr ⟨second, hsecond, hsecondRole, hkey.symm⟩)
  · refine Membership.isEmpty_eq_false_iff.mpr ?_
    rcases hstand with hfounding | hgoverned
    · exact ⟨replica.bootstrap, (hfounding.members_iff _).mpr rfl⟩
    · exact hgoverned.inhabited
  · have hbatch : (replica.apply batch).1.MembersStand :=
      apply_induction (P := MembersStand) (fun _ _ _ _ h heffect ↦ membersStand_commit h heffect)
        replica hstand batch
    cases heffect : (replica.apply batch).1.effect delivery with
    | error refusal =>
      obtain ⟨identity, happly⟩ := apply_concat_of_error heffect
      refine ⟨⟨identity, .skipped refusal⟩, [], ?_, rfl⟩
      rw [happly, List.append_nil]
    | ok made =>
      obtain ⟨op, effect⟩ := made
      obtain ⟨initializing, draft, happlied⟩ := applied_of_effect heffect
      refine ⟨⟨some (op.kind, op.tx), .applied⟩, effect.changes, ?_, op, happlied.carried, ?_⟩
      · rw [apply_concat_of_ok heffect]
      · exact happlied.standingStep.asks hbatch

end Replica

end SettlementLedger
