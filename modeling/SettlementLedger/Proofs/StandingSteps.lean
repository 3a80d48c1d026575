import SettlementLedger.Proofs.MembershipChanges
import SettlementLedger.Proofs.Runs
import SettlementLedger.Proofs.Standing

/-!
# What an applied operation does to standing

An applied operation changes the standing of at most one participant, and it binds at most one
writing key (`Operation.StandingStep`). There are nine ways in which it may do so, each with the
membership changes that the operation asks for. Every statement about roles, writing keys, the
administrator or the membership set is a case analysis over these nine.
-/

set_option autoImplicit false
set_option relaxedAutoImplicit false

namespace SettlementLedger

/-! ### Changes of standing -/

namespace View

variable {before middle after : View} {address : Address} {standing : Standing}

/-- No standing, no writing key and no administrator has changed. -/
structure SameStanding (before after : View) : Prop where
  standing : ∀ a, after.standing a = before.standing a
  admin : after.admin = before.admin
  writerOwner : ∀ key, after.writerOwner key = before.writerOwner key

theorem SameStanding.trans (h : before.SameStanding middle) (h' : middle.SameStanding after) :
    before.SameStanding after where
  standing a := (h'.standing a).trans (h.standing a)
  admin := h'.admin.trans h.admin
  writerOwner key := (h'.writerOwner key).trans (h.writerOwner key)

/-- One participant has a new standing, and nobody else has. -/
def Reassigns (before after : View) (address : Address) (standing : Standing) : Prop :=
  ∀ a, after.standing a = if a = address then .ok standing else before.standing a

theorem Reassigns.self (h : before.Reassigns after address standing) :
    after.standing address = .ok standing :=
  (h address).trans (if_pos rfl)

theorem Reassigns.other (h : before.Reassigns after address standing) {a : Address}
    (ha : a ≠ address) : after.standing a = before.standing a :=
  (h a).trans (if_neg ha)

theorem Reassigns.standing_or (h : before.Reassigns after address standing) (a : Address) :
    after.standing a = before.standing a ∨ (a = address ∧ after.standing a = .ok standing) := by
  by_cases ha : a = address
  · exact Or.inr ⟨ha, ha ▸ h.self⟩
  · exact Or.inl (h.other ha)

/-- One participant has a new standing; the writing keys and the administrator are the same. -/
structure Restands (before after : View) (address : Address) (standing : Standing) : Prop where
  standing : before.Reassigns after address standing
  admin : after.admin = before.admin
  writerOwner : ∀ key, after.writerOwner key = before.writerOwner key

theorem SameStanding.restands (h : before.SameStanding middle)
    (h' : middle.Restands after address standing) : before.Restands after address standing where
  standing a := by rw [h'.standing, h.standing]
  admin := h'.admin.trans h.admin
  writerOwner key := (h'.writerOwner key).trans (h.writerOwner key)

theorem Restands.same (h : before.Restands middle address standing)
    (h' : middle.SameStanding after) : before.Restands after address standing where
  standing a := (h'.standing a).trans (h.standing a)
  admin := h'.admin.trans h.admin
  writerOwner key := (h'.writerOwner key).trans (h.writerOwner key)

/-- One participant has a new standing, and the writing key of that standing is bound to it; the key
was bound to nobody else. -/
structure Enrolls (before after : View) (address : Address) (standing : Standing) : Prop where
  available : before.writerOwner standing.writingKey = .ok none ∨
    before.writerOwner standing.writingKey = .ok (some address)
  writerOwner : ∀ key, after.writerOwner key =
    if key = standing.writingKey then .ok (some address) else before.writerOwner key
  standing : before.Reassigns after address standing

theorem SameStanding.enrolls (h : before.SameStanding middle)
    (h' : middle.Enrolls after address standing) : before.Enrolls after address standing where
  available := h'.available.imp (h.writerOwner _ ▸ ·) (h.writerOwner _ ▸ ·)
  writerOwner key := by rw [h'.writerOwner, h.writerOwner]
  standing a := by rw [h'.standing, h.standing]

theorem Enrolls.congr (h : before.Enrolls middle address standing)
    (hstanding : ∀ a, after.standing a = middle.standing a)
    (howner : ∀ key, after.writerOwner key = middle.writerOwner key) :
    before.Enrolls after address standing where
  available := h.available
  writerOwner key := (howner key).trans (h.writerOwner key)
  standing a := (hstanding a).trans (h.standing a)

end View

namespace Draft

variable {draft result : Draft}

theorem MovesBalances.sameStanding (h : draft.MovesBalances result) :
    draft.view.SameStanding result.view :=
  ⟨h.standing, h.admin, h.writerOwner⟩

/-- Entries besides the node records, the administrator and the writing keys say nothing about
standing. -/
theorem sameStanding_put (draft : Draft) {key : ViewKey} (hnode : ∀ a, key ≠ .node a)
    (hadmin : key ≠ .admin) (howner : ∀ k, key ≠ .writerOwner k) (value : Bytes) :
    draft.view.SameStanding (draft.put key value).view :=
  ⟨draft.standing_put hnode value, draft.admin_put hadmin value, draft.writerOwner_put howner value⟩

theorem restands_putNode (draft : Draft) (address : Address) (node : NodeRecord) :
    draft.view.Restands (draft.putNode address node).view address node.standing :=
  ⟨fun a ↦ draft.standing_putNode address a node, draft.admin_putNode address node,
    draft.writerOwner_putNode address node⟩

theorem sameStanding_of_licenseOf {address : Address} {node : NodeRecord} {license : UInt32}
    (h : draft.licenseOf address node = .ok (license, result)) :
    draft.view.SameStanding result.view :=
  ⟨fun a ↦ View.standing_congr (node_of_licenseOf h a), admin_of_licenseOf h,
    writerOwner_of_licenseOf h⟩

/-- A record that is put under a writing key that was bound to nobody, and the key that is then put
under the name of the participant. -/
theorem enrolls_putWriterOwner (draft : Draft) (address : Address) (node : NodeRecord)
    (h : draft.view.writerOwner node.writingKey = .ok none) :
    draft.view.Enrolls
      ((draft.putNode address node).putWriterOwner node.writingKey address).view address
        node.standing where
  available := Or.inl h
  writerOwner key := by
    rw [writerOwner_putWriterOwner, writerOwner_putNode]
    rfl
  standing a := by rw [standing_putWriterOwner, standing_putNode]

/-- A record that is put under a writing key, and the key that is then bound. -/
theorem enrolls_of_bindWriter {address : Address} {node : NodeRecord}
    (h : (draft.putNode address node).bindWriter node.writingKey address = .ok result) :
    draft.view.Enrolls result.view address node.standing where
  available := by
    rcases bindWriter_eq_ok.mp h with ⟨howner, -⟩ | ⟨howner, -⟩
    · exact Or.inr ((draft.writerOwner_putNode address node _).symm.trans howner)
    · exact Or.inl ((draft.writerOwner_putNode address node _).symm.trans howner)
  writerOwner key := by
    rw [writerOwner_of_bindWriter h, writerOwner_putNode]
    rfl
  standing a := by
    rw [View.standing_congr (node_of_bindWriter h a), standing_putNode]

end Draft

/-! ### The nine ways -/

/-- What an operation does to standing, writing keys and the administrator between two views, and
the membership changes that it asks for. -/
inductive Operation.StandingStep (op : Operation) (bootstrap : WritingKey) (members : Membership)
    (before after : View) : MembershipDiff → Prop where
  /-- Nothing but balances, flags and registrations changes. -/
  | keeps
      (kind : op.kind ∈ [.disableInitialization, .balanceInitialization, .transfer, .transaction,
        .bootstrapDeployment])
      (same : before.SameStanding after) : StandingStep op bootstrap members before after []
  /-- The requester becomes the administrator. -/
  | registers (standing : Standing) (kind : op.kind = .addAdmin)
      (noAdmin : before.admin = .ok none) (role : standing.role = .indexer)
      (key : standing.writingKey = bootstrap)
      (admin : after.admin = .ok (some ⟨op.requester, bootstrap⟩))
      (enrolls : before.Enrolls after op.requester standing) :
      StandingStep op bootstrap members before after []
  /-- A participant is whitelisted. -/
  | whitelists (admin : AdminRecord) (target : Address) (node? : Option NodeRecord)
      (license : UInt32) (kind : op.kind = .appendWhitelist) (body : op.body = .adminControl target)
      (isAdmin : before.admin = .ok (some admin)) (node : before.node target = .ok node?)
      (role : ¬ (node?.getD {}).role.isWhitelisted)
      (restands : before.Restands after target
        { (node?.getD {}).standing with role := .whitelisted, license }) :
      StandingStep op bootstrap members before after []
  /-- A participant loses its roles. -/
  | bans (admin : AdminRecord) (target : Address) (node : NodeRecord)
      (kind : op.kind = .banValidator) (body : op.body = .adminControl target)
      (isAdmin : before.admin = .ok (some admin)) (other : target ≠ admin.address)
      (found : before.node target = .ok (some node)) (whitelisted : node.role.isWhitelisted)
      (role : ¬ node.role.isIndexer)
      (restands : before.Restands after target { node.standing with role := .none }) :
      StandingStep op bootstrap members before after []
  /-- A writer becomes an indexer. -/
  | promotes (admin : AdminRecord) (target : Address) (node : NodeRecord)
      (kind : op.kind = .addIndexer) (body : op.body = .adminControl target)
      (isAdmin : before.admin = .ok (some admin))
      (found : before.node target = .ok (some node)) (writer : node.role.isWriter)
      (role : ¬ node.role.isIndexer) (absent : ¬ members.contains node.writingKey)
      (restands : before.Restands after target { node.standing with role := .indexer }) :
      StandingStep op bootstrap members before after [.add node.writingKey]
  /-- An indexer becomes a writer. -/
  | demotes (admin : AdminRecord) (target : Address) (node : NodeRecord)
      (changes : MembershipDiff)
      (kind : op.kind = .removeIndexer) (body : op.body = .adminControl target)
      (isAdmin : before.admin = .ok (some admin))
      (found : before.node target = .ok (some node)) (role : node.role.isIndexer)
      (removal : members.Removal node.writingKey changes)
      (restands : before.Restands after target { node.standing with role := .writer }) :
      StandingStep op bootstrap members before after changes
  /-- A whitelisted requester becomes a writer. -/
  | enlists (node : NodeRecord) (key : WritingKey) (stake : Amount) (kind : op.kind = .addWriter)
      (body : op.body = .roleAccess key)
      (found : before.node op.requester = .ok (some node)) (whitelisted : node.role.isWhitelisted)
      (role : ¬ node.role.isWriter) (admin : after.admin = before.admin)
      (enrolls : before.Enrolls after op.requester
        { node.standing with role := .writer, writingKey := key, stake }) :
      StandingStep op bootstrap members before after []
  /-- A writer that is not the administrator is released. -/
  | releases (admin? : Option AdminRecord) (node : NodeRecord) (changes : MembershipDiff)
      (kind : op.kind = .removeWriter) (isAdmin : before.admin = .ok admin?)
      (other : ∀ admin, admin? = some admin → admin.address ≠ op.requester)
      (found : before.node op.requester = .ok (some node)) (writer : node.role.isWriter)
      (removal : (node.role.isIndexer ∧ members.Removal node.writingKey changes) ∨
        (¬ node.role.isIndexer ∧ changes = []))
      (restands : before.Restands after op.requester
        { node.standing with role := .whitelisted, stake := .zero }) :
      StandingStep op bootstrap members before after changes
  /-- The administrator moves to a writing key that was bound to nobody. -/
  | recovers (admin : AdminRecord) (node : NodeRecord) (key : WritingKey)
      (kind : op.kind = .adminRecovery) (body : op.body = .roleAccess key)
      (isAdmin : before.admin = .ok (some admin)) (requester : op.requester = admin.address)
      (unbound : before.writerOwner key = .ok none) (member : members.contains admin.writingKey)
      (absent : ¬ members.contains key)
      (found : before.node admin.address = .ok (some node))
      (adminAfter : after.admin = .ok (some { admin with writingKey := key }))
      (enrolls : before.Enrolls after admin.address { node.standing with writingKey := key }) :
      StandingStep op bootstrap members before after [.add key, .remove admin.writingKey]

/-- At most one participant gets a new standing, and at most the key of that standing is bound. -/
theorem Operation.StandingStep.shape {op : Operation} {bootstrap : WritingKey}
    {members : Membership} {before after : View} {changes : MembershipDiff}
    (h : op.StandingStep bootstrap members before after changes) :
    before.SameStanding after ∨ (∃ address standing, before.Restands after address standing) ∨
      ∃ address standing, before.Enrolls after address standing := by
  cases h with
  | keeps kind same => exact Or.inl same
  | registers standing kind noAdmin role key admin enrolls => exact Or.inr (Or.inr ⟨_, _, enrolls⟩)
  | whitelists admin target node? license kind body isAdmin node role restands =>
    exact Or.inr (Or.inl ⟨_, _, restands⟩)
  | bans admin target node kind body isAdmin other found whitelisted role restands =>
    exact Or.inr (Or.inl ⟨_, _, restands⟩)
  | promotes admin target node kind body isAdmin found writer role absent restands =>
    exact Or.inr (Or.inl ⟨_, _, restands⟩)
  | demotes admin target node changes kind body isAdmin found role removal restands =>
    exact Or.inr (Or.inl ⟨_, _, restands⟩)
  | enlists node key stake kind body found whitelisted role admin enrolls =>
    exact Or.inr (Or.inr ⟨_, _, enrolls⟩)
  | releases admin? node changes kind isAdmin other found writer removal restands =>
    exact Or.inr (Or.inl ⟨_, _, restands⟩)
  | recovers admin node key kind body isAdmin requester unbound member absent found adminAfter
      enrolls =>
    exact Or.inr (Or.inr ⟨_, _, enrolls⟩)

namespace Setting

variable {setting : Setting} {base after : View} {draft result : Draft}

/-! ### The rules -/

theorem sameStanding_of_settle {payer : Address} {policy : FeePolicy}
    {validator? : Option Address}
    (h : setting.settle draft payer policy validator? = .ok result)
    (hafter : result.view.SameStanding after) : draft.view.SameStanding after :=
  (movesBalances_of_settle h).sameStanding.trans hafter

theorem changes_of_settle {payer : Address} {policy : FeePolicy} {validator? : Option Address}
    (h : setting.settle draft payer policy validator? = .ok result) :
    result.changes = draft.changes :=
  (movesBalances_of_settle h).changes

theorem standingStep_of_addAdmin {key : WritingKey} (kind : setting.operation.kind = .addAdmin)
    (h : setting.addAdmin { base } key = .ok result) (hafter : result.view.SameStanding after) :
    setting.operation.StandingStep setting.bootstrap setting.members base after result.changes := by
  obtain ⟨hadmin, ⟨-, rfl⟩, node?, -, license, licensed, hlicensed, balance, -, stake, -, bound,
    hbound, rfl⟩ := addAdmin_eq_ok.mp h
  have hbefore := (Draft.sameStanding_of_licenseOf hlicensed).enrolls
    (Draft.enrolls_of_bindWriter hbound)
  have hchanges : bound.changes = [] :=
    (Draft.changes_of_bindWriter hbound).trans (Draft.changes_of_licenseOf hlicensed)
  show setting.operation.StandingStep _ _ _ _ bound.changes
  rw [hchanges]
  refine .registers _ kind hadmin rfl rfl ?_ (hbefore.congr (fun a ↦ ?_) fun key ↦ ?_)
  · rw [hafter.admin, Draft.admin_put _ (by simp), Draft.admin_put_admin]
  · rw [hafter.standing, Draft.standing_put _ (by simp), Draft.standing_put _ (by simp)]
  · rw [hafter.writerOwner, Draft.writerOwner_put _ (by simp), Draft.writerOwner_put _ (by simp)]

theorem standingStep_of_appendWhitelist {target : Address}
    (kind : setting.operation.kind = .appendWhitelist)
    (body : setting.operation.body = .adminControl target)
    (h : setting.appendWhitelist { base } target = .ok result)
    (hafter : result.view.SameStanding after) :
    setting.operation.StandingStep setting.bootstrap setting.members base after result.changes := by
  obtain ⟨admin, hadmin, node?, hnode, hrole, license, licensed, hlicensed, hsettle⟩ :=
    appendWhitelist_eq_ok.mp h
  have hrestands := (Draft.sameStanding_of_licenseOf hlicensed).restands
    ((Draft.restands_putNode licensed target _).same (sameStanding_of_settle hsettle hafter))
  rw [changes_of_settle hsettle, Draft.changes_putNode, Draft.changes_of_licenseOf hlicensed]
  exact .whitelists admin target node? license kind body (requireAdmin_eq_ok.mp hadmin).1 hnode
    hrole hrestands

theorem standingStep_of_banValidator {target : Address}
    (kind : setting.operation.kind = .banValidator)
    (body : setting.operation.body = .adminControl target)
    (h : setting.banValidator { base } target = .ok result)
    (hafter : result.view.SameStanding after) :
    setting.operation.StandingStep setting.bootstrap setting.members base after result.changes := by
  obtain ⟨admin, hadmin, hother, node, hnode, hwhitelisted, hrole, hsettle⟩ :=
    banValidator_eq_ok.mp h
  have hrestands := (Draft.restands_putNode _ target _).same
    (sameStanding_of_settle hsettle hafter)
  rw [changes_of_settle hsettle, Draft.changes_putNode]
  exact .bans admin target node kind body (requireAdmin_eq_ok.mp hadmin).1 hother hnode
    hwhitelisted hrole hrestands

theorem standingStep_of_addIndexer {target : Address}
    (kind : setting.operation.kind = .addIndexer)
    (body : setting.operation.body = .adminControl target)
    (h : setting.addIndexer { base } target = .ok result)
    (hafter : result.view.SameStanding after) :
    setting.operation.StandingStep setting.bootstrap setting.members base after result.changes := by
  obtain ⟨admin, hadmin, node, hnode, hwriter, hrole, joined, hjoined, hsettle⟩ :=
    addIndexer_eq_ok.mp h
  obtain ⟨habsent, rfl⟩ := Draft.addMember_eq_ok.mp hjoined
  have hrestands := (Draft.restands_putNode _ target _).same
    (sameStanding_of_settle hsettle hafter)
  rw [changes_of_settle hsettle, Draft.changes_putNode]
  exact .promotes admin target node kind body (requireAdmin_eq_ok.mp hadmin).1 hnode hwriter hrole
    habsent hrestands

/-- A member that is asked to leave leaves the view as it is. -/
theorem removal_of_removeMember {key : WritingKey}
    (h : Draft.removeMember { base } setting.members key = .ok result) :
    result.view = base ∧ setting.members.Removal key result.changes := by
  rcases Draft.removeMember_eq_ok.mp h with ⟨hmember, hsize, rfl⟩ | ⟨hnot, rfl⟩
  · exact ⟨rfl, Or.inl ⟨hmember, hsize, rfl⟩⟩
  · exact ⟨rfl, Or.inr ⟨hnot, rfl⟩⟩

theorem standingStep_of_removeIndexer {target : Address}
    (kind : setting.operation.kind = .removeIndexer)
    (body : setting.operation.body = .adminControl target)
    (h : setting.removeIndexer { base } target = .ok result)
    (hafter : result.view.SameStanding after) :
    setting.operation.StandingStep setting.bootstrap setting.members base after result.changes := by
  obtain ⟨admin, hadmin, node, hnode, hrole, left, hleft, hsettle⟩ := removeIndexer_eq_ok.mp h
  obtain ⟨hview, hremoval⟩ := removal_of_removeMember hleft
  have hrestands := (Draft.restands_putNode left target _).same
    (sameStanding_of_settle hsettle hafter)
  rw [hview] at hrestands
  rw [changes_of_settle hsettle, Draft.changes_putNode]
  exact .demotes admin target node left.changes kind body (requireAdmin_eq_ok.mp hadmin).1 hnode
    hrole hremoval hrestands

theorem standingStep_of_addWriter {key : WritingKey} (kind : setting.operation.kind = .addWriter)
    (body : setting.operation.body = .roleAccess key)
    (h : setting.addWriter { base } key = .ok result) (hafter : result.view.SameStanding after) :
    setting.operation.StandingStep setting.bootstrap setting.members base after result.changes := by
  obtain ⟨node, hnode, hwhitelisted, hrole, -, fee, -, required, -, -, validator, -, balance, -,
    stake, -, bound, hbound, hsettle⟩ := addWriter_eq_ok.mp h
  have henrolls := Draft.enrolls_of_bindWriter hbound
  have hadmin : bound.view.admin = base.admin :=
    (Draft.admin_of_bindWriter hbound).trans (Draft.admin_putNode _ _ _)
  have hsame := sameStanding_of_settle hsettle hafter
  rw [changes_of_settle hsettle, Draft.changes_of_bindWriter hbound]
  exact .enlists node key stake kind body hnode hwhitelisted hrole (hsame.admin.trans hadmin)
    (henrolls.congr hsame.standing hsame.writerOwner)

theorem standingStep_of_removeWriter {key : WritingKey}
    (kind : setting.operation.kind = .removeWriter)
    (h : setting.removeWriter { base } key = .ok result)
    (hafter : result.view.SameStanding after) :
    setting.operation.StandingStep setting.bootstrap setting.members base after result.changes := by
  obtain ⟨hnot, node, hnode, hwriter, -, validator, -, left, hleft, balance, -, hsettle⟩ :=
    removeWriter_eq_ok.mp h
  obtain ⟨admin?, hadmin, hother⟩ := Draft.isAdmin_eq_ok.mp hnot
  have hleft : left.view = base ∧
      ((node.role.isIndexer ∧ setting.members.Removal node.writingKey left.changes) ∨
        (¬ node.role.isIndexer ∧ left.changes = [])) := by
    rcases hleft with ⟨hrole, hleft⟩ | ⟨hrole, rfl⟩
    · obtain ⟨hview, hremoval⟩ := removal_of_removeMember hleft
      exact ⟨hview, Or.inl ⟨hrole, hremoval⟩⟩
    · exact ⟨rfl, Or.inr ⟨hrole, rfl⟩⟩
  have hrestands := (Draft.restands_putNode left setting.operation.requester _).same
    (sameStanding_of_settle hsettle hafter)
  rw [hleft.1] at hrestands
  rw [changes_of_settle hsettle, Draft.changes_putNode]
  refine .releases admin? node left.changes kind hadmin (fun admin hsome ↦ ?_) hnode hwriter
    hleft.2 hrestands
  simpa [hsome] using hother

theorem standingStep_of_adminRecovery {key : WritingKey}
    (kind : setting.operation.kind = .adminRecovery)
    (body : setting.operation.body = .roleAccess key)
    (h : setting.adminRecovery { base } key = .ok result)
    (hafter : result.view.SameStanding after) :
    setting.operation.StandingStep setting.bootstrap setting.members base after result.changes := by
  obtain ⟨admin, hadmin, hrequester, hunbound, hmember, validator, -, -, node, hnode, joined,
    hjoined, left, hleft, hsettle⟩ := adminRecovery_eq_ok.mp h
  obtain ⟨habsent, rfl⟩ := Draft.addMember_eq_ok.mp hjoined
  have hstays : setting.members.containsAfter [.add key] admin.writingKey := by
    have hmember : setting.members.contains admin.writingKey := hmember
    rw [Membership.containsAfter_eq]
    show (setting.members.apply (.add key)).contains admin.writingKey
    rw [Membership.contains_apply_add, hmember, Bool.or_true]
  rcases Draft.removeMember_eq_ok.mp hleft with ⟨-, -, rfl⟩ | ⟨hnot, -⟩
  · have hsame := sameStanding_of_settle hsettle hafter
    rw [changes_of_settle hsettle]
    have henrolls := Draft.enrolls_putWriterOwner { base } admin.address
      { node with writingKey := key } hunbound
    refine .recovers admin node key kind body hadmin hrequester hunbound hmember habsent hnode
      (hsame.admin.trans (Draft.admin_put_admin _ _)) (henrolls.congr (fun a ↦ ?_) fun k ↦ ?_)
    · exact (hsame.standing a).trans (Draft.standing_put _ (by simp) _ a)
    · exact (hsame.writerOwner k).trans (Draft.writerOwner_put _ (by simp) _ k)
  · exact absurd hstays hnot

theorem standingStep_of_rule (h : setting.rule { base } = .ok result)
    (hafter : result.view.SameStanding after) :
    setting.operation.StandingStep setting.bootstrap setting.members base after result.changes := by
  cases ruling_of_rule h with
  | addAdmin key kind body ok => exact standingStep_of_addAdmin kind ok hafter
  | disableInitialization key kind body ok =>
    obtain ⟨admin, -, -, -, hsettle⟩ := disableInitialization_eq_ok.mp ok
    have hsame := (Draft.sameStanding_put { base } (by simp) (by simp) (by simp) _).trans
      (sameStanding_of_settle hsettle hafter)
    rw [changes_of_settle hsettle]
    exact .keeps (by simp [kind]) hsame
  | balanceInitialization target amount kind body ok =>
    have hmoves := movesBalances_of_balanceInitialization ok
    rw [hmoves.changes]
    exact .keeps (by simp [kind]) (hmoves.sameStanding.trans hafter)
  | appendWhitelist target kind body ok => exact standingStep_of_appendWhitelist kind body ok hafter
  | banValidator target kind body ok => exact standingStep_of_banValidator kind body ok hafter
  | addIndexer target kind body ok => exact standingStep_of_addIndexer kind body ok hafter
  | removeIndexer target kind body ok => exact standingStep_of_removeIndexer kind body ok hafter
  | addWriter key kind body ok => exact standingStep_of_addWriter kind body ok hafter
  | removeWriter key kind body ok => exact standingStep_of_removeWriter kind ok hafter
  | adminRecovery key kind body ok => exact standingStep_of_adminRecovery kind body ok hafter
  | transfer recipient amount kind body ok =>
    have hmoves := movesBalances_of_transfer ok
    rw [hmoves.changes]
    exact .keeps (by simp [kind]) (hmoves.sameStanding.trans hafter)
  | transaction writer content external ledger kind body ok =>
    have hmoves := movesBalances_of_transaction ok
    rw [hmoves.changes]
    exact .keeps (by simp [kind]) (hmoves.sameStanding.trans hafter)
  | bootstrapDeployment bootstrap channel kind body ok =>
    obtain ⟨-, -, validator, -, hsettle⟩ := bootstrapDeployment_eq_ok.mp ok
    have hsame := (Draft.sameStanding_put { base } (by simp) (by simp) (by simp) _).trans
      (sameStanding_of_settle hsettle hafter)
    rw [changes_of_settle hsettle]
    exact .keeps (by simp [kind]) hsame

end Setting

/-- Every operation that a replica applies takes one of the nine ways. -/
theorem Replica.Applied.standingStep {replica : Replica} {delivery : Delivery} {op : Operation}
    {effect : Effect} {initializing : Bool} {draft : Draft}
    (h : replica.Applied delivery op effect initializing draft) :
    op.StandingStep replica.bootstrap replica.members replica.store.view
      (replica.commit effect.writes effect.changes).store.view effect.changes := by
  have hmarker : draft.view.SameStanding
      (replica.commit effect.writes effect.changes).store.view := by
    rw [h.view]
    exact draft.sameStanding_put (by simp) (by simp) (by simp) delivery.bytes
  have hstep := Setting.standingStep_of_rule h.rule hmarker
  rw [h.changes] at hstep ⊢
  exact hstep

end SettlementLedger
