import SettlementLedger.Proofs.Balances
import SettlementLedger.Proofs.Standing
import SettlementLedger.Proofs.Supply

/-!
# What the requester pays

The requester of an operation is the one that pays the fee. Its balance afterwards is what it was
before, with what the operation brings it and without what the operation takes from it and the fee
(`Operation.Charges`). The fee is the configured one, or nothing if the requester is spared; the share
of a validator never comes back to the requester.
-/

set_option autoImplicit false
set_option relaxedAutoImplicit false

namespace SettlementLedger

/-! ### Stakes -/

namespace View

variable {before after : View} {a : Address} {standing : Standing}

/-- The stake of a participant, zero without a record. -/
def stake (view : View) (a : Address) : Except ViewError Amount :=
  (view.standing a).map Standing.stake

theorem stake_of_standing (h : before.standing a = .ok standing) :
    before.stake a = .ok standing.stake := by
  rw [stake, h]
  rfl

theorem stake_of_node {node? : Option NodeRecord} (h : before.node a = .ok node?) :
    before.stake a = .ok (node?.getD {}).stake :=
  stake_of_standing (standing_of_node h)

theorem stake_eq_ok {stake : Amount} :
    before.stake a = .ok stake ↔
      ∃ node?, before.node a = .ok node? ∧ (node?.getD {}).stake = stake := by
  constructor
  · intro h
    cases hnode : before.node a with
    | error cause =>
      rw [View.stake, View.standing, hnode] at h
      cases h
    | ok node? =>
      rw [stake_of_node hnode] at h
      exact ⟨node?, rfl, Except.ok.inj h⟩
  · rintro ⟨node?, hnode, rfl⟩
    exact stake_of_node hnode

theorem stake_congr (h : after.standing a = before.standing a) : after.stake a = before.stake a := by
  rw [stake, stake, h]

end View

/-! ### What an operation takes and brings -/

namespace Operation

/-- What an operation takes from its requester besides the fee. -/
def spent (op : Operation) (config : Config) : Nat :=
  match op.kind, op.body with
  | .addWriter, _ => config.writerStake.raw
  | .transfer, .transfer _ amount => amount.raw
  | _, _ => 0

/-- What an operation brings its requester, who has locked a stake. -/
def received (op : Operation) (config : Config) (stake : Amount) : Nat :=
  match op.kind, op.body with
  | .addAdmin, _ => config.adminInitialBalance.raw
  | .removeWriter, _ => stake.raw
  | .balanceInitialization, .balanceInitialization a amount
  | .transfer, .transfer a amount => if a = op.requester then amount.raw else 0
  | _, _ => 0

/-- The fee that the requester of an operation owes. -/
def charge (op : Operation) (config : Config) (view : View) : Nat :=
  if op.isSpared view then 0 else config.fee.raw

/-- The requester of an operation pays a fee, and nothing else but what the operation takes. -/
def Charges (op : Operation) (config : Config) (fee : Nat) (before after : View) : Prop :=
  ∃ old stake new, before.balance op.requester = .ok old ∧
    before.stake op.requester = .ok stake ∧ after.balance op.requester = .ok new ∧
    new.raw + fee + op.spent config = old.raw + op.received config stake

/-- Five kinds of operations move something of the requester's besides the fee. -/
theorem spent_received_eq_zero (op : Operation) (config : Config)
    (h : op.kind ∉ [.addAdmin, .balanceInitialization, .addWriter, .removeWriter, .transfer])
    (stake : Amount) : op.spent config = 0 ∧ op.received config stake = 0 := by
  unfold spent received
  constructor
  · split <;> simp_all
  · split <;> simp_all

end Operation

/-! ### Fees -/

/-- A record that is replaced by one with the same balance. -/
theorem Draft.balance_putSame {draft : Draft} {address : Address} {node? : Option NodeRecord}
    {node : NodeRecord} (hnode : draft.view.node address = .ok node?)
    (hsame : node.balance = (node?.getD {}).balance) (a : Address) :
    (draft.putNode address node).view.balance a = draft.view.balance a := by
  rw [balance_putNode]
  by_cases ha : a = address
  · rw [if_pos ha, ha, View.balance_of_node hnode, hsame]
  · rw [if_neg ha]

namespace Setting

variable {setting : Setting} {store : Store} {draft result : Draft}

/-- A reward is for somebody else. -/
theorem balance_of_reward {payer : Address} {fee : Amount} {validator? : Option Address}
    (h : setting.reward draft payer fee validator? = .ok result) :
    result.view.balance payer = draft.view.balance payer := by
  rcases reward_eq_ok.mp h with ⟨-, rfl⟩ | ⟨validator, -, hother, share, -, node, -, balance, -, rfl⟩
  · rfl
  · rw [Draft.balance_putNode, if_neg hother.symm]

/-- The payer has less by the fee, unless the fee is waived. -/
theorem balance_of_settle {payer : Address} {policy : FeePolicy} {validator? : Option Address}
    {old : Amount} (hold : draft.view.balance payer = .ok old)
    (h : setting.settle draft payer policy validator? = .ok result) :
    ∃ new, result.view.balance payer = .ok new ∧
      ((setting.Waives policy payer draft.view ∧ new = old) ∨
        (¬ setting.Waives policy payer draft.view ∧
          new.raw + setting.config.fee.raw = old.raw)) := by
  obtain ⟨fee, hfee, ⟨hzero, rfl⟩ | ⟨hcharged, node, hnode, balance, hbalance, hreward⟩⟩ :=
    settle_eq_ok.mp h
  · rw [Amount.isZero_iff] at hzero
    refine ⟨old, hold, (fee_of_feeFor hfee).imp (fun hwaived ↦ ⟨hwaived.1, rfl⟩) ?_⟩
    rintro ⟨hnot, rfl⟩
    exact ⟨hnot, by rw [hzero, Nat.add_zero]⟩
  · rcases fee_of_feeFor hfee with ⟨-, rfl⟩ | ⟨hnot, rfl⟩
    · exact absurd rfl hcharged
    · rw [View.balance_of_node hnode] at hold
      cases hold
      rw [Amount.sub?_eq_some_iff] at hbalance
      refine ⟨balance, ?_, Or.inr ⟨hnot, by rw [Nat.add_comm]; exact hbalance⟩⟩
      rw [balance_of_reward hreward, Draft.balance_putNode, if_pos rfl]

/-! ### The rules -/

/-- A rule charges the requester, who had a given record in the store, what its operation says. -/
def Charges (setting : Setting) (store : Store) (node : NodeRecord) (result : Draft) : Prop :=
  ∃ new, result.view.balance setting.operation.requester = .ok new ∧
    new.raw + setting.operation.charge setting.config store.view +
        setting.operation.spent setting.config =
      node.balance.raw + setting.operation.received setting.config node.stake

variable {node? : Option NodeRecord}

/-- What a rule charges that ends with the fee of the requester. -/
theorem charges_of_settle (hfits : setting.Fits store)
    (hkind : setting.operation.kind ∉ [.addAdmin, .addIndexer, .removeIndexer])
    (hadmin : draft.view.Administers setting.operation.requester ↔
      store.view.Administers setting.operation.requester)
    {node : NodeRecord} {middle : Amount}
    (hmiddle : draft.view.balance setting.operation.requester = .ok middle)
    (hmoved : middle.raw + setting.operation.spent setting.config =
      node.balance.raw + setting.operation.received setting.config node.stake)
    {validator? : Option Address}
    (h : setting.settle draft setting.operation.requester .adminWaivable validator? = .ok result) :
    setting.Charges store node result := by
  have hspared := isSpared_iff_waives hfits hkind hadmin
  obtain ⟨new, hnew, ⟨hwaived, rfl⟩ | ⟨hcharged, hpaid⟩⟩ := balance_of_settle hmiddle h
  · refine ⟨new, hnew, ?_⟩
    rw [Operation.charge, if_pos (hspared.mpr hwaived), ← hmoved, Nat.add_zero]
  · refine ⟨new, hnew, ?_⟩
    rw [Operation.charge, if_neg fun h ↦ hcharged (hspared.mp h), ← hmoved, hpaid]

/-- What a rule charges that moves nothing of the requester's but the fee. -/
theorem charges_of_fee (hfits : setting.Fits store)
    (hkind : setting.operation.kind ∉ [.addAdmin, .addIndexer, .removeIndexer])
    (hmoves : setting.operation.kind ∉ [.addAdmin, .balanceInitialization, .addWriter,
      .removeWriter, .transfer])
    (hadmin : draft.view.Administers setting.operation.requester ↔
      store.view.Administers setting.operation.requester)
    (hnode : store.view.node setting.operation.requester = .ok node?)
    (hsame : draft.view.balance setting.operation.requester =
      store.view.balance setting.operation.requester)
    {validator? : Option Address}
    (h : setting.settle draft setting.operation.requester .adminWaivable validator? = .ok result) :
    setting.Charges store (node?.getD {}) result := by
  rw [View.balance_of_node hnode] at hsame
  obtain ⟨hspent, hreceived⟩ := setting.operation.spent_received_eq_zero setting.config hmoves
    (node?.getD {}).stake
  exact charges_of_settle hfits hkind hadmin hsame (by rw [hspent, hreceived]) h

/-- What a rule charges that ends with a fee that everybody pays. -/
theorem charges_of_charge (hkind : setting.operation.kind ∈ [.addIndexer, .removeIndexer])
    (hnode : store.view.node setting.operation.requester = .ok node?)
    (hsame : draft.view.balance setting.operation.requester =
      store.view.balance setting.operation.requester)
    (h : setting.settle draft setting.operation.requester .charged none = .ok result) :
    setting.Charges store (node?.getD {}) result := by
  rw [View.balance_of_node hnode] at hsame
  simp only [List.mem_cons, List.not_mem_nil, or_false] at hkind
  have hspared : setting.operation.isSpared store.view = false := by
    rcases hkind with hkind | hkind <;> simp only [Operation.isSpared, hkind]
  obtain ⟨hspent, hreceived⟩ := setting.operation.spent_received_eq_zero setting.config
    (by rcases hkind with hkind | hkind <;> simp [hkind]) (node?.getD {}).stake
  obtain ⟨new, hnew, ⟨hwaived, -⟩ | ⟨-, hpaid⟩⟩ := balance_of_settle hsame h
  · cases hwaived.1
  · refine ⟨new, hnew, ?_⟩
    rw [Operation.charge, hspared, hspent, hreceived]
    exact hpaid

theorem charges_of_addAdmin {key : WritingKey} (kind : setting.operation.kind = .addAdmin)
    (hnode : store.view.node setting.operation.requester = .ok node?)
    (h : setting.addAdmin { base := store.view } key = .ok result) :
    setting.Charges store (node?.getD {}) result := by
  obtain ⟨-, -, known?, hknown, license, licensed, hlicensed, balance, hbalance, stake, -, bound,
    hbound, rfl⟩ := addAdmin_eq_ok.mp h
  cases hnode.symm.trans hknown
  rw [Amount.add?_eq_some_iff] at hbalance
  refine ⟨balance, ?_, ?_⟩
  · rw [View.balance_congr (Draft.node_put _ (by simp) _ _),
      View.balance_congr (Draft.node_put _ (by simp) _ _),
      View.balance_congr (Draft.node_of_bindWriter hbound _), Draft.balance_putNode, if_pos rfl]
  · simp only [Operation.charge, Operation.isSpared, Operation.spent, Operation.received, kind,
      if_true]
    exact hbalance.symm

theorem charges_of_balanceInitialization (hfits : setting.Fits store) {target : Address}
    {amount : Amount} (kind : setting.operation.kind = .balanceInitialization)
    (body : setting.operation.body = .balanceInitialization target amount)
    (hnode : store.view.node setting.operation.requester = .ok node?)
    (h : setting.balanceInitialization { base := store.view } target amount = .ok result) :
    setting.Charges store (node?.getD {}) result := by
  obtain ⟨admin, hadmin, -, known?, hknown, balance, hbalance, hsettle⟩ :=
    balanceInitialization_eq_ok.mp h
  rw [← (requireAdmin_eq_ok.mp hadmin).2.1] at hsettle
  rw [Amount.add?_eq_some_iff] at hbalance
  have hput := Draft.balance_putNode { base := store.view } target
    setting.operation.requester { known?.getD {} with balance }
  have hadministers := View.administers_congr
    (Draft.admin_putNode { base := store.view } target { known?.getD {} with balance })
    setting.operation.requester
  by_cases htarget : target = setting.operation.requester
  · -- The administrator credits itself.
    have hknown : store.view.node target = .ok known? := hknown
    rw [htarget, hnode] at hknown
    cases hknown
    rw [if_pos htarget.symm] at hput
    refine charges_of_settle hfits (by simp [kind]) hadministers hput ?_ hsettle
    simp only [Operation.spent, Operation.received, kind, body, if_pos htarget]
    exact hbalance.symm
  · rw [if_neg (Ne.symm htarget)] at hput
    have hold : store.view.balance setting.operation.requester = _ := View.balance_of_node hnode
    refine charges_of_settle hfits (by simp [kind]) hadministers (hput.trans hold) ?_ hsettle
    simp only [Operation.spent, Operation.received, kind, body, if_neg htarget]

theorem charges_of_addWriter (hfits : setting.Fits store) {key : WritingKey}
    (kind : setting.operation.kind = .addWriter)
    (hnode : store.view.node setting.operation.requester = .ok node?)
    (h : setting.addWriter { base := store.view } key = .ok result) :
    setting.Charges store (node?.getD {}) result := by
  obtain ⟨node, hknown, -, -, -, fee, -, required, -, -, validator, -, balance, hbalance, stake, -,
    bound, hbound, hsettle⟩ := addWriter_eq_ok.mp h
  cases hnode.symm.trans hknown
  rw [Amount.sub?_eq_some_iff] at hbalance
  have hdebited : bound.view.balance setting.operation.requester = .ok balance := by
    rw [View.balance_congr (Draft.node_of_bindWriter hbound _), Draft.balance_putNode, if_pos rfl]
  refine charges_of_settle hfits (by simp [kind]) ?_ hdebited ?_ hsettle
  · exact View.administers_congr
      ((Draft.admin_of_bindWriter hbound).trans (Draft.admin_putNode _ _ _)) _
  · simp only [Operation.spent, Operation.received, kind, Option.getD_some]
    omega

theorem charges_of_removeWriter (hfits : setting.Fits store) {key : WritingKey}
    (kind : setting.operation.kind = .removeWriter)
    (hnode : store.view.node setting.operation.requester = .ok node?)
    (h : setting.removeWriter { base := store.view } key = .ok result) :
    setting.Charges store (node?.getD {}) result := by
  obtain ⟨-, node, hknown, -, -, validator, -, left, hleft, balance, hbalance, hsettle⟩ :=
    removeWriter_eq_ok.mp h
  cases hnode.symm.trans hknown
  rw [Amount.add?_eq_some_iff] at hbalance
  have hview : left.view = store.view := Draft.view_of_removal hleft
  have hcredited := Draft.balance_putNode left setting.operation.requester
    setting.operation.requester { node with role := .whitelisted, balance, stake := .zero }
  rw [if_pos rfl] at hcredited
  refine charges_of_settle hfits (by simp [kind]) ?_ hcredited ?_ hsettle
  · exact View.administers_congr ((Draft.admin_putNode _ _ _).trans (hview ▸ rfl)) _
  · simp only [Operation.spent, Operation.received, kind]
    exact hbalance.symm

theorem charges_of_adminRecovery (hfits : setting.Fits store) {key : WritingKey}
    (kind : setting.operation.kind = .adminRecovery)
    (hnode : store.view.node setting.operation.requester = .ok node?)
    (h : setting.adminRecovery { base := store.view } key = .ok result) :
    setting.Charges store (node?.getD {}) result := by
  obtain ⟨admin, hadmin, hrequester, -, -, validator, -, -, node, hknown, joined, hjoined, left,
    hleft, hsettle⟩ := adminRecovery_eq_ok.mp h
  have hview := (Draft.view_of_removeMember hleft).trans (Draft.view_of_addMember hjoined)
  rw [← hrequester] at hsettle
  refine charges_of_fee hfits (by simp [kind]) (by simp [kind]) ?_ hnode ?_ hsettle
  · -- The admin record is another one, but the administrator is the same participant.
    have hadmin : store.view.admin = .ok (some admin) := hadmin
    rw [hview, View.Administers, Draft.admin_put_admin, View.Administers, hadmin]
    simp
  · rw [hview, View.balance_congr (Draft.node_put _ (by simp) _ _),
      View.balance_congr (Draft.node_putWriterOwner _ _ _ _), Draft.balance_putSame hknown (by rfl)]
    rfl

theorem charges_of_transfer (hfits : setting.Fits store) {recipient : Address} {amount : Amount}
    (kind : setting.operation.kind = .transfer)
    (body : setting.operation.body = .transfer recipient amount)
    (hnode : store.view.node setting.operation.requester = .ok node?)
    (h : setting.transfer { base := store.view } recipient amount = .ok result) :
    setting.Charges store (node?.getD {}) result := by
  obtain ⟨node, hknown, fee, -, required, -, -, validator, -, debited, hdebited, credited?,
    hcredited, balance, hbalance, hsettle⟩ := transfer_eq_ok.mp h
  cases hnode.symm.trans hknown
  rw [Amount.sub?_eq_some_iff] at hdebited
  rw [Amount.add?_eq_some_iff] at hbalance
  let sent := Draft.putNode { base := store.view } setting.operation.requester
    { node with balance := debited }
  have hadministers := View.administers_congr
    ((sent.admin_putNode recipient { credited?.getD {} with balance }).trans
      (Draft.admin_putNode _ _ _)) setting.operation.requester
  have hdebit : sent.view.balance setting.operation.requester = .ok debited :=
    (Draft.balance_putNode _ _ _ _).trans (if_pos rfl)
  have hcredit := sent.balance_putNode recipient setting.operation.requester
    { credited?.getD {} with balance }
  by_cases hself : recipient = setting.operation.requester
  · -- The record that is credited is the one that was just debited.
    rw [hself, Draft.node_putNode, if_pos rfl] at hcredited
    cases hcredited
    rw [if_pos hself.symm] at hcredit
    refine charges_of_settle hfits (by simp [kind]) hadministers hcredit ?_ hsettle
    simp only [Operation.spent, Operation.received, kind, body, if_pos hself,
      Option.getD_some] at hbalance ⊢
    omega
  · rw [if_neg (Ne.symm hself), hdebit] at hcredit
    refine charges_of_settle hfits (by simp [kind]) hadministers hcredit ?_ hsettle
    simp only [Operation.spent, Operation.received, kind, body, if_neg hself, Option.getD_some]
    omega

/-- A rule charges the requester the fee that it owes and what its operation takes. -/
theorem charges_of_rule (hfits : setting.Fits store)
    (hnode : store.view.node setting.operation.requester = .ok node?)
    (h : setting.rule { base := store.view } = .ok result) :
    setting.Charges store (node?.getD {}) result := by
  cases ruling_of_rule h with
  | addAdmin key kind body ok => exact charges_of_addAdmin kind hnode ok
  | disableInitialization key kind body ok =>
    obtain ⟨admin, hadmin, -, -, hsettle⟩ := disableInitialization_eq_ok.mp ok
    rw [← (requireAdmin_eq_ok.mp hadmin).2.1] at hsettle
    refine charges_of_fee hfits (by simp [kind]) (by simp [kind]) ?_ hnode ?_ hsettle
    · exact View.administers_congr (Draft.admin_put _ (by simp) _) _
    · exact View.balance_congr (Draft.node_put _ (by simp) _ _)
  | balanceInitialization target amount kind body ok =>
    exact charges_of_balanceInitialization hfits kind body hnode ok
  | appendWhitelist target kind body ok =>
    obtain ⟨admin, hadmin, known?, hknown, -, license, licensed, hlicensed, hsettle⟩ :=
      appendWhitelist_eq_ok.mp ok
    rw [← (requireAdmin_eq_ok.mp hadmin).2.1] at hsettle
    rw [← Draft.node_of_licenseOf hlicensed] at hknown
    refine charges_of_fee hfits (by simp [kind]) (by simp [kind]) ?_ hnode ?_ hsettle
    · exact View.administers_congr
        ((Draft.admin_putNode _ _ _).trans (Draft.admin_of_licenseOf hlicensed)) _
    · exact (Draft.balance_putSame hknown (by rfl) _).trans
        (View.balance_congr (Draft.node_of_licenseOf hlicensed _))
  | banValidator target kind body ok =>
    obtain ⟨admin, hadmin, -, node, hknown, -, -, hsettle⟩ := banValidator_eq_ok.mp ok
    rw [← (requireAdmin_eq_ok.mp hadmin).2.1] at hsettle
    refine charges_of_fee hfits (by simp [kind]) (by simp [kind]) ?_ hnode ?_ hsettle
    · exact View.administers_congr (Draft.admin_putNode _ _ _) _
    · exact Draft.balance_putSame hknown (by rfl) _
  | addIndexer target kind body ok =>
    obtain ⟨admin, hadmin, node, hknown, -, -, joined, hjoined, hsettle⟩ := addIndexer_eq_ok.mp ok
    rw [← (requireAdmin_eq_ok.mp hadmin).2.1] at hsettle
    rw [← Draft.view_of_addMember hjoined] at hknown
    refine charges_of_charge (by simp [kind]) hnode ?_ hsettle
    rw [Draft.balance_putSame hknown (by rfl), Draft.view_of_addMember hjoined]
    rfl
  | removeIndexer target kind body ok =>
    obtain ⟨admin, hadmin, node, hknown, -, left, hleft, hsettle⟩ := removeIndexer_eq_ok.mp ok
    rw [← (requireAdmin_eq_ok.mp hadmin).2.1] at hsettle
    rw [← Draft.view_of_removeMember hleft] at hknown
    refine charges_of_charge (by simp [kind]) hnode ?_ hsettle
    rw [Draft.balance_putSame hknown (by rfl), Draft.view_of_removeMember hleft]
    rfl
  | addWriter key kind body ok => exact charges_of_addWriter hfits kind hnode ok
  | removeWriter key kind body ok => exact charges_of_removeWriter hfits kind hnode ok
  | adminRecovery key kind body ok => exact charges_of_adminRecovery hfits kind hnode ok
  | transfer recipient amount kind body ok => exact charges_of_transfer hfits kind body hnode ok
  | transaction writer content external ledger kind body ok =>
    obtain ⟨-, -, validator, -, hsettle⟩ := transaction_eq_ok.mp ok
    exact charges_of_fee hfits (by simp [kind]) (by simp [kind]) Iff.rfl hnode rfl hsettle
  | bootstrapDeployment bootstrap channel kind body ok =>
    obtain ⟨-, -, validator, -, hsettle⟩ := bootstrapDeployment_eq_ok.mp ok
    refine charges_of_fee hfits (by simp [kind]) (by simp [kind]) ?_ hnode ?_ hsettle
    · exact View.administers_congr (Draft.admin_put _ (by simp) _) _
    · exact View.balance_congr (Draft.node_put _ (by simp) _ _)

end Setting

/-- An applied operation charges its requester the fee that it owes. -/
theorem Replica.Applied.charges {replica : Replica} {delivery : Delivery} {op : Operation}
    {effect : Effect} {initializing : Bool} {draft : Draft}
    (h : replica.Applied delivery op effect initializing draft)
    (hlegible : replica.store.view.Legible) :
    op.Charges replica.engine.config (op.charge replica.engine.config replica.store.view)
      replica.store.view (replica.commit effect.writes effect.changes).store.view := by
  obtain ⟨node?, hnode⟩ := hlegible.node op.requester
  obtain ⟨new, hnew, hcharged⟩ := Setting.charges_of_rule h.fits hnode h.rule
  refine ⟨_, _, new, View.balance_of_node hnode, View.stake_of_node hnode, ?_, hcharged⟩
  rw [h.view, View.balance_congr (Draft.node_put _ (by simp) _ _)]
  exact hnew

end SettlementLedger
