import SettlementLedger.Proofs.RuleSteps

/-!
# Standing and balances

Everything in a node record but the balance is the standing of a participant. Fees, rewards and
payments move balances and leave every standing and every entry besides the node records as they
are (`Draft.MovesBalances`), so that what is proved of roles, writing keys, licenses and stakes
never looks at how an operation is paid for.
-/

set_option autoImplicit false
set_option relaxedAutoImplicit false

namespace SettlementLedger

/-! ### Roles -/

namespace Role

theorem isWriter_of_isIndexer {role : Role} (h : role.isIndexer) : role.isWriter :=
  (Bool.and_eq_true_iff.mp h).1

theorem isWhitelisted_of_isWriter {role : Role} (h : role.isWriter) : role.isWhitelisted :=
  (Bool.and_eq_true_iff.mp h).1

/-- An indexer has every mark. -/
theorem isIndexer_iff {role : Role} : role.isIndexer ↔ role = .indexer := by
  obtain ⟨whitelist, writer, indexer⟩ := role
  cases whitelist <;> cases writer <;> cases indexer <;> decide

/-- A writer has the two lower marks, and it may have the third. -/
theorem isWriter_iff {role : Role} : role.isWriter ↔ role = .writer ∨ role = .indexer := by
  obtain ⟨whitelist, writer, indexer⟩ := role
  cases whitelist <;> cases writer <;> cases indexer <;> decide

end Role

/-! ### Standing -/

/-- What a node record says besides the balance. -/
structure Standing where
  role : Role
  writingKey : WritingKey
  license : UInt32
  stake : Amount
  deriving DecidableEq

/-- The standing of a participant with a record. -/
def NodeRecord.standing (node : NodeRecord) : Standing where
  role := node.role
  writingKey := node.writingKey
  license := node.license
  stake := node.stake

namespace View

/-- The standing of a participant, that of an empty record if there is none. -/
def standing (view : View) (a : Address) : Except ViewError Standing :=
  (view.node a).map fun node? ↦ (node?.getD {}).standing

theorem standing_of_node {view : View} {a : Address} {node? : Option NodeRecord}
    (h : view.node a = .ok node?) : view.standing a = .ok (node?.getD {}).standing := by
  rw [standing, h]
  rfl

theorem standing_eq_ok {view : View} {a : Address} {standing : Standing} :
    view.standing a = .ok standing ↔
      ∃ node?, view.node a = .ok node? ∧ (node?.getD {}).standing = standing := by
  constructor
  · intro h
    cases hnode : view.node a with
    | error cause =>
      rw [View.standing, hnode] at h
      cases h
    | ok node? =>
      rw [standing_of_node hnode] at h
      exact ⟨node?, rfl, Except.ok.inj h⟩
  · rintro ⟨node?, hnode, rfl⟩
    exact standing_of_node hnode

theorem standing_congr {first second : View} {a : Address} (h : first.node a = second.node a) :
    first.standing a = second.standing a := by
  rw [standing, standing, h]

/-- Nobody is a writer without a record. -/
theorem node_of_standing_of_isWriter {view : View} {a : Address} {standing : Standing}
    (h : view.standing a = .ok standing) (hwriter : standing.role.isWriter) :
    ∃ node, view.node a = .ok (some node) ∧ node.standing = standing := by
  obtain ⟨node?, hnode, rfl⟩ := standing_eq_ok.mp h
  cases node? with
  | none => cases hwriter
  | some node => exact ⟨node, hnode, rfl⟩

end View

namespace Draft

variable {draft middle result : Draft}

@[simp] theorem standing_put (draft : Draft) {key : ViewKey} (h : ∀ a, key ≠ .node a)
    (value : Bytes) (a : Address) : (draft.put key value).view.standing a = draft.view.standing a :=
  View.standing_congr (draft.node_put h value a)

@[simp] theorem standing_putNode (draft : Draft) (address a : Address) (node : NodeRecord) :
    (draft.putNode address node).view.standing a =
      if a = address then .ok node.standing else draft.view.standing a := by
  have hnode := draft.node_putNode address a node
  by_cases h : a = address
  · rw [if_pos h] at hnode ⊢
    exact View.standing_of_node hnode
  · rw [if_neg h] at hnode ⊢
    exact View.standing_congr hnode

@[simp] theorem standing_putWriterOwner (draft : Draft) (key : WritingKey) (address a : Address) :
    (draft.putWriterOwner key address).view.standing a = draft.view.standing a :=
  draft.standing_put (by simp) _ a

/-! ### Moving balances -/

/-- Nothing but balances has changed: no standing, no entry besides the node records, and no
membership change was asked for. -/
structure MovesBalances (before after : Draft) : Prop where
  changes : after.changes = before.changes
  read : ∀ key, (∀ a, key ≠ .node a) → after.view.read key = before.view.read key
  standing : ∀ a, after.view.standing a = before.view.standing a

namespace MovesBalances

theorem refl (draft : Draft) : draft.MovesBalances draft :=
  ⟨rfl, fun _ _ ↦ rfl, fun _ ↦ rfl⟩

theorem trans (h : draft.MovesBalances middle) (h' : middle.MovesBalances result) :
    draft.MovesBalances result where
  changes := h'.changes.trans h.changes
  read key hkey := (h'.read key hkey).trans (h.read key hkey)
  standing a := (h'.standing a).trans (h.standing a)

theorem admin (h : draft.MovesBalances result) : result.view.admin = draft.view.admin :=
  View.readAs_congr (h.read .admin (by simp)) _

theorem writerOwner (h : draft.MovesBalances result) (key : WritingKey) :
    result.view.writerOwner key = draft.view.writerOwner key :=
  View.readAs_congr (h.read (.writerOwner key) (by simp)) _

/-- A record with another balance. -/
theorem putNode {address : Address} {node? : Option NodeRecord} (balance : Amount)
    (h : draft.view.node address = .ok node?) :
    draft.MovesBalances (draft.putNode address { node?.getD {} with balance }) where
  changes := rfl
  read key hkey := (draft.read_put (.node address) key _).trans (if_neg (hkey address))
  standing a := by
    rw [standing_putNode]
    by_cases ha : a = address
    · rw [if_pos ha, ha, View.standing_of_node h]
      rfl
    · rw [if_neg ha]

end MovesBalances

end Draft

namespace Setting

variable {setting : Setting} {draft result : Draft}

theorem movesBalances_of_reward {payer : Address} {fee : Amount} {validator? : Option Address}
    (h : setting.reward draft payer fee validator? = .ok result) : draft.MovesBalances result := by
  rcases reward_eq_ok.mp h with ⟨-, rfl⟩ | ⟨validator, -, -, share, -, node, hnode, balance, -, rfl⟩
  · exact .refl draft
  · exact .putNode balance hnode

theorem movesBalances_of_settle {payer : Address} {policy : FeePolicy}
    {validator? : Option Address}
    (h : setting.settle draft payer policy validator? = .ok result) :
    draft.MovesBalances result := by
  obtain ⟨fee, -, ⟨-, rfl⟩ | ⟨-, node, hnode, balance, -, hreward⟩⟩ := settle_eq_ok.mp h
  · exact .refl draft
  · exact .trans (.putNode balance hnode) (movesBalances_of_reward hreward)

theorem movesBalances_of_balanceInitialization {target : Address} {amount : Amount}
    (h : setting.balanceInitialization draft target amount = .ok result) :
    draft.MovesBalances result := by
  obtain ⟨admin, -, -, node?, hnode, balance, -, hsettle⟩ := balanceInitialization_eq_ok.mp h
  exact .trans (.putNode balance hnode) (movesBalances_of_settle hsettle)

theorem movesBalances_of_transfer {recipient : Address} {amount : Amount}
    (h : setting.transfer draft recipient amount = .ok result) : draft.MovesBalances result := by
  obtain ⟨node, hnode, fee, -, required, -, -, validator, -, debited, -, credited?, hcredited,
    balance, -, hsettle⟩ := transfer_eq_ok.mp h
  exact .trans (.putNode debited hnode)
    (.trans (.putNode balance hcredited) (movesBalances_of_settle hsettle))

theorem movesBalances_of_transaction {external ledger : WritingKey}
    (h : setting.transaction draft external ledger = .ok result) : draft.MovesBalances result := by
  obtain ⟨-, -, validator, -, hsettle⟩ := transaction_eq_ok.mp h
  exact movesBalances_of_settle hsettle

end Setting

end SettlementLedger
