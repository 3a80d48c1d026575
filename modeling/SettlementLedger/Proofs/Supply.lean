import SettlementLedger.Proofs.Amounts
import SettlementLedger.Proofs.Holdings
import SettlementLedger.Proofs.Runs
import SettlementLedger.Proofs.SchemaFacts

/-!
# The token supply

The supply grows only by what the administrator is credited with at its registration and by what it
credits during initialization, and it shrinks only by the part of a fee that no validator receives.
Sender, recipient, validator, administrator and target may be one participant: every rule reads a
record again after it has written one, and `Draft.supplyOn_putNode` accounts for each write by the
record that was read just before it.
-/

set_option autoImplicit false
set_option relaxedAutoImplicit false

namespace SettlementLedger

/-! ### What an operation creates and destroys -/

/-- Whether a participant is the administrator and the initialization phase is open. -/
def View.initializesAs (view : View) (a : Address) : Bool :=
  match view.initializing, view.admin with
  | .ok true, .ok (some admin) => admin.address = a
  | _, _ => false

theorem View.initializesAs_iff {view : View} {a : Address} :
    view.initializesAs a ↔ view.initializing = .ok true ∧ view.Administers a := by
  unfold initializesAs
  split
  · rename_i admin hopen hadmin
    simp [hopen, hadmin, Administers]
  · rename_i hnot
    constructor
    · intro h
      cases h
    · rintro ⟨hopen, admin, hadmin, -⟩
      exact absurd hadmin (hnot admin hopen)

namespace Operation

/-- What an applied operation adds to the supply. -/
def minted (op : Operation) (config : Config) : Nat :=
  match op.kind, op.body with
  | .addAdmin, _ => config.adminInitialBalance.raw + config.adminInitialStake.raw
  | .balanceInitialization, .balanceInitialization _ amount => amount.raw
  | _, _ => 0

/-- Whether the requester owes no fee for an operation. -/
def isSpared (op : Operation) (view : View) : Bool :=
  match op.kind with
  | .addAdmin => true
  | .addIndexer | .removeIndexer => false
  | _ => view.initializesAs op.requester

/-- Whether a validator other than the requester cosigned an operation. -/
def hasOtherValidator (op : Operation) : Bool :=
  op.cosignature.any fun cosignature ↦ cosignature.validator ≠ op.requester

/-- The share of the fee that a validator receives. -/
def rewarded (op : Operation) (config : Config) : Nat :=
  if op.hasOtherValidator then config.share else 0

/-- What an applied operation takes from the supply. -/
def burned (op : Operation) (config : Config) (view : View) : Nat :=
  if op.isSpared view then 0 else config.fee.raw - op.rewarded config

theorem rewarded_le {config : Config} (h : config.validate = .ok ()) (op : Operation) :
    op.rewarded config ≤ config.fee.raw := by
  unfold rewarded
  split
  · exact Config.share_le h
  · exact Nat.zero_le _

end Operation

namespace Setting

variable {setting : Setting} {store : Store} {draft result : Draft}

/-! ### Fees -/

theorem supplyOn_of_reward (hbase : draft.base = store.view) {payer : Address} {fee : Amount}
    {validator? : Option Address}
    (h : setting.reward draft payer fee validator? = .ok result) :
    result.supplyOn store = draft.supplyOn store +
        (if validator?.any (· ≠ payer) then
          fee.raw * setting.config.validatorRewardPercent.toNat / 10000 else 0) ∧
      (validator?.any (· ≠ payer) →
        fee.raw * setting.config.validatorRewardPercent.toNat < Amount.limit) := by
  rcases reward_eq_ok.mp h with ⟨hself, rfl⟩ | ⟨validator, rfl, hother, share, hshare, node, hnode,
    balance, hbalance, rfl⟩
  · have hnone : validator?.any (· ≠ payer) = false := by
      cases validator? with
      | none => rfl
      | some validator => simp [hself validator rfl]
    rw [hnone]
    exact ⟨rfl, nofun⟩
  · have hdue : (some validator).any (· ≠ payer) = true := by simp [hother]
    have hsupply : (draft.putNode validator { node with balance }).supplyOn store +
        node.balance.raw = draft.supplyOn store + balance.raw :=
      Draft.supplyOn_putBalance hbase hnode balance
    rw [Amount.add?_eq_some_iff] at hbalance
    rw [Amount.percentage?_eq_some_iff] at hshare
    change _ < _ ∧ fee.raw * setting.config.validatorRewardPercent.toNat / 10000 = _ at hshare
    rw [if_pos hdue]
    exact ⟨by omega, fun _ ↦ hshare.1⟩

/-- What the payer owes is debited, and the validator's share of it is credited. -/
theorem supplyOn_of_settle (hbase : draft.base = store.view) {payer : Address}
    {policy : FeePolicy} {validator? : Option Address}
    (h : setting.settle draft payer policy validator? = .ok result) :
    (setting.Waives policy payer draft.view ∧ result.supplyOn store = draft.supplyOn store) ∨
      (¬ setting.Waives policy payer draft.view ∧
        result.supplyOn store + setting.config.fee.raw = draft.supplyOn store +
          (if validator?.any (· ≠ payer) then setting.config.share else 0) ∧
        (validator?.any (· ≠ payer) →
          setting.config.fee.raw * setting.config.validatorRewardPercent.toNat < Amount.limit)) := by
  obtain ⟨fee, hfee, hpaid⟩ := settle_eq_ok.mp h
  rcases fee_of_feeFor hfee with ⟨hwaived, rfl⟩ | ⟨hcharged, rfl⟩
  · rcases hpaid with ⟨-, rfl⟩ | ⟨hnot, -⟩
    · exact Or.inl ⟨hwaived, rfl⟩
    · exact absurd rfl hnot
  · refine Or.inr ⟨hcharged, ?_⟩
    rcases hpaid with ⟨hzero, rfl⟩ | ⟨-, node, hnode, balance, hbalance, hreward⟩
    · rw [Amount.isZero_iff] at hzero
      simp only [Config.share, hzero, Nat.zero_mul, Nat.zero_div, ite_self, true_and]
      exact fun _ ↦ by decide
    · have hdebit : (draft.putNode payer { node with balance }).supplyOn store +
          node.balance.raw = draft.supplyOn store + balance.raw :=
        Draft.supplyOn_putBalance hbase hnode balance
      obtain ⟨hcredit, hproduct⟩ :=
        supplyOn_of_reward ((Draft.base_putNode _ _ _).trans hbase) hreward
      rw [Amount.sub?_eq_some_iff] at hbalance
      refine ⟨?_, hproduct⟩
      rw [hcredit, Config.share]
      omega

/-! ### The rules -/

/-- The supply after a rule is what the operation accounts for: nothing is burned if the requester
is spared, and otherwise the fee is, apart from the validator's share, which was an amount. -/
def Accounts (setting : Setting) (store : Store) (result : Draft) : Prop :=
  (setting.operation.isSpared store.view = true ∧
      result.supplyOn store = store.supply + setting.operation.minted setting.config) ∨
    (setting.operation.isSpared store.view = false ∧
      result.supplyOn store + setting.config.fee.raw = store.supply +
        setting.operation.minted setting.config + setting.operation.rewarded setting.config ∧
      (setting.operation.hasOtherValidator →
        setting.config.fee.raw * setting.config.validatorRewardPercent.toNat < Amount.limit))

/-- What is known of the setting of an operation over a store: the phase is read from the store, and
the schema admits a cosignature only for the kinds that need one. -/
structure Fits (setting : Setting) (store : Store) : Prop where
  initializing : store.view.initializing = .ok setting.initializing
  cosignature : setting.operation.cosignature.isSome → setting.operation.kind.requiresCosignature

/-- Outside the three special kinds the requester is spared exactly if its fee is waived. -/
theorem isSpared_iff_waives (hfits : setting.Fits store)
    (hkind : setting.operation.kind ∉ [.addAdmin, .addIndexer, .removeIndexer])
    (hadmin : draft.view.Administers setting.operation.requester ↔
      store.view.Administers setting.operation.requester) :
    setting.operation.isSpared store.view = true ↔
      setting.Waives .adminWaivable setting.operation.requester draft.view := by
  have hspared : setting.operation.isSpared store.view =
      store.view.initializesAs setting.operation.requester := by
    unfold Operation.isSpared
    split <;> simp_all
  rw [hspared, View.initializesAs_iff, hfits.initializing, Waives, hadmin]
  simp only [Except.ok.injEq, true_and]

/-- What a rule accounts for that ends with the fee of the requester. -/
theorem accounts_of_settle (hfits : setting.Fits store)
    (hkind : setting.operation.kind ∉ [.addAdmin, .addIndexer, .removeIndexer])
    (hadmin : draft.view.Administers setting.operation.requester ↔
      store.view.Administers setting.operation.requester)
    {validator? : Option Address}
    (hvalidator : validator?.any (· ≠ setting.operation.requester) =
      setting.operation.hasOtherValidator)
    (hbase : draft.base = store.view)
    (hsupply : draft.supplyOn store = store.supply + setting.operation.minted setting.config)
    (h : setting.settle draft setting.operation.requester .adminWaivable validator? = .ok result) :
    setting.Accounts store result := by
  have hspared := isSpared_iff_waives hfits hkind hadmin
  rcases supplyOn_of_settle hbase h with ⟨hwaived, hresult⟩ | ⟨hcharged, hresult, hproduct⟩
  · exact Or.inl ⟨hspared.mpr hwaived, hresult.trans hsupply⟩
  · rw [hvalidator] at hresult hproduct
    refine Or.inr ⟨?_, ?_, hproduct⟩
    · exact Bool.eq_false_iff.mpr fun h ↦ hcharged (hspared.mp h)
    · rw [hresult, hsupply, Operation.rewarded]

/-- What a rule accounts for that ends with a fee that everybody pays. -/
theorem accounts_of_charge (hkind : setting.operation.kind ∈ [.addIndexer, .removeIndexer])
    (hvalidator : setting.operation.hasOtherValidator = false) (hbase : draft.base = store.view)
    (hsupply : draft.supplyOn store = store.supply) {payer : Address}
    (h : setting.settle draft payer .charged none = .ok result) :
    setting.Accounts store result := by
  simp only [List.mem_cons, List.not_mem_nil, or_false] at hkind
  have hspared : setting.operation.isSpared store.view = false := by
    rcases hkind with hkind | hkind <;> simp only [Operation.isSpared, hkind]
  have hminted : setting.operation.minted setting.config = 0 := by
    rcases hkind with hkind | hkind <;> simp only [Operation.minted, hkind]
  rcases supplyOn_of_settle hbase h with ⟨hwaived, -⟩ | ⟨-, hresult, -⟩
  · cases hwaived.1
  · refine Or.inr ⟨hspared, ?_, fun h ↦ absurd h (by simp [hvalidator])⟩
    rw [hminted, Operation.rewarded, hvalidator, hresult, hsupply]
    rfl

theorem Fits.hasOtherValidator (h : setting.Fits store)
    (hkind : setting.operation.kind.requiresCosignature = false) :
    setting.operation.hasOtherValidator = false := by
  have hnone : setting.operation.cosignature = none := by
    cases hsome : setting.operation.cosignature with
    | none => rfl
    | some cosignature =>
      have hrequires := h.cosignature (by rw [hsome]; rfl)
      rw [hkind] at hrequires
      cases hrequires
  rw [Operation.hasOtherValidator, hnone]
  rfl

theorem Fits.any_none (h : setting.Fits store)
    (hkind : setting.operation.kind.requiresCosignature = false) :
    (none : Option Address).any (· ≠ setting.operation.requester) =
      setting.operation.hasOtherValidator :=
  (h.hasOtherValidator hkind).symm

theorem any_eq_hasOtherValidator {validator : Address}
    (h : setting.validator draft = .ok validator) :
    (some validator).any (· ≠ setting.operation.requester) =
      setting.operation.hasOtherValidator := by
  obtain ⟨cosignature, hcosignature, rfl, -⟩ := validator_eq_ok.mp h
  rw [Operation.hasOtherValidator, hcosignature]
  rfl

theorem minted_eq_zero {op : Operation} {config : Config}
    (h : op.kind ∉ [.addAdmin, .balanceInitialization]) : op.minted config = 0 := by
  unfold Operation.minted
  split <;> simp_all

theorem accounts_of_addAdmin {key : WritingKey} (kind : setting.operation.kind = .addAdmin)
    (h : setting.addAdmin { base := store.view } key = .ok result) :
    setting.Accounts store result := by
  obtain ⟨-, -, node?, hnode, license, licensed, hlicensed, balance, hbalance, stake, hstake, bound,
    hbound, rfl⟩ := addAdmin_eq_ok.mp h
  rw [← Draft.node_of_licenseOf hlicensed] at hnode
  have hput := Draft.supplyOn_putNode (Draft.base_of_licenseOf hlicensed) hnode
    { role := .indexer, writingKey := key, balance, license, stake }
  rw [Draft.supplyOn_of_licenseOf hlicensed, Draft.supplyOn_start] at hput
  rw [Amount.add?_eq_some_iff] at hbalance hstake
  simp only [NodeRecord.holdings] at hput
  refine Or.inl ⟨by simp only [Operation.isSpared, kind], ?_⟩
  have hminted : setting.operation.minted setting.config =
      setting.config.adminInitialBalance.raw + setting.config.adminInitialStake.raw := by
    simp only [Operation.minted, kind]
  rw [Draft.supplyOn_put _ (by simp), Draft.supplyOn_put _ (by simp),
    Draft.supplyOn_of_bindWriter hbound, hminted]
  omega

theorem accounts_of_disableInitialization (hfits : setting.Fits store) {key : WritingKey}
    (kind : setting.operation.kind = .disableInitialization)
    (h : setting.disableInitialization { base := store.view } key = .ok result) :
    setting.Accounts store result := by
  obtain ⟨admin, hadmin, -, -, hsettle⟩ := disableInitialization_eq_ok.mp h
  rw [← (requireAdmin_eq_ok.mp hadmin).2.1] at hsettle
  refine accounts_of_settle hfits (by simp [kind]) ?_
    (hfits.any_none (by rw [kind]; rfl)) ?_ ?_ hsettle
  · exact View.administers_congr (Draft.admin_put _ (by simp) _) _
  · rfl
  · rw [Draft.supplyOn_put _ (by simp), minted_eq_zero (by simp [kind])]
    rfl

theorem accounts_of_balanceInitialization (hfits : setting.Fits store) {target : Address}
    {amount : Amount} (kind : setting.operation.kind = .balanceInitialization)
    (body : setting.operation.body = .balanceInitialization target amount)
    (h : setting.balanceInitialization { base := store.view } target amount = .ok result) :
    setting.Accounts store result := by
  obtain ⟨admin, hadmin, -, node?, hnode, balance, hbalance, hsettle⟩ :=
    balanceInitialization_eq_ok.mp h
  rw [← (requireAdmin_eq_ok.mp hadmin).2.1] at hsettle
  have hput := Draft.supplyOn_putBalance rfl hnode balance
  rw [Amount.add?_eq_some_iff] at hbalance
  rw [Draft.supplyOn_start] at hput
  refine accounts_of_settle hfits (by simp [kind]) ?_
    (hfits.any_none (by rw [kind]; rfl)) rfl ?_ hsettle
  · exact View.administers_congr (Draft.admin_putNode _ _ _) _
  · have hminted : setting.operation.minted setting.config = amount.raw := by
      simp only [Operation.minted, kind, body]
    omega

theorem accounts_of_appendWhitelist (hfits : setting.Fits store) {target : Address}
    (kind : setting.operation.kind = .appendWhitelist)
    (h : setting.appendWhitelist { base := store.view } target = .ok result) :
    setting.Accounts store result := by
  obtain ⟨admin, hadmin, node?, hnode, -, license, licensed, hlicensed, hsettle⟩ :=
    appendWhitelist_eq_ok.mp h
  rw [← (requireAdmin_eq_ok.mp hadmin).2.1] at hsettle
  rw [← Draft.node_of_licenseOf hlicensed] at hnode
  have hbase := Draft.base_of_licenseOf hlicensed
  refine accounts_of_settle hfits (by simp [kind]) ?_
    (hfits.any_none (by rw [kind]; rfl)) ?_ ?_ hsettle
  · exact View.administers_congr
      ((Draft.admin_putNode _ _ _).trans (Draft.admin_of_licenseOf hlicensed)) _
  · rw [Draft.base_putNode, hbase]
  · rw [Draft.supplyOn_putSame hbase hnode (by rfl), Draft.supplyOn_of_licenseOf hlicensed,
      minted_eq_zero (by simp [kind])]
    rfl

theorem accounts_of_banValidator (hfits : setting.Fits store) {target : Address}
    (kind : setting.operation.kind = .banValidator)
    (h : setting.banValidator { base := store.view } target = .ok result) :
    setting.Accounts store result := by
  obtain ⟨admin, hadmin, -, node, hnode, -, -, hsettle⟩ := banValidator_eq_ok.mp h
  rw [← (requireAdmin_eq_ok.mp hadmin).2.1] at hsettle
  refine accounts_of_settle hfits (by simp [kind]) ?_
    (hfits.any_none (by rw [kind]; rfl)) rfl ?_ hsettle
  · exact View.administers_congr (Draft.admin_putNode _ _ _) _
  · rw [Draft.supplyOn_putSame rfl hnode (by rfl), minted_eq_zero (by simp [kind])]
    rfl

theorem accounts_of_addIndexer (hfits : setting.Fits store) {target : Address}
    (kind : setting.operation.kind = .addIndexer)
    (h : setting.addIndexer { base := store.view } target = .ok result) :
    setting.Accounts store result := by
  obtain ⟨admin, -, node, hnode, -, -, joined, hjoined, hsettle⟩ := addIndexer_eq_ok.mp h
  rw [← Draft.view_of_addMember hjoined] at hnode
  have hbase := Draft.base_of_addMember hjoined
  refine accounts_of_charge (by simp [kind]) (hfits.hasOtherValidator (by rw [kind]; rfl)) ?_ ?_
    hsettle
  · rw [Draft.base_putNode, hbase]
  · rw [Draft.supplyOn_putSame hbase hnode (by rfl), Draft.supplyOn_of_addMember hjoined]
    rfl

theorem accounts_of_removeIndexer (hfits : setting.Fits store) {target : Address}
    (kind : setting.operation.kind = .removeIndexer)
    (h : setting.removeIndexer { base := store.view } target = .ok result) :
    setting.Accounts store result := by
  obtain ⟨admin, -, node, hnode, -, left, hleft, hsettle⟩ := removeIndexer_eq_ok.mp h
  rw [← Draft.view_of_removeMember hleft] at hnode
  have hbase := Draft.base_of_removeMember hleft
  refine accounts_of_charge (by simp [kind]) (hfits.hasOtherValidator (by rw [kind]; rfl)) ?_ ?_
    hsettle
  · rw [Draft.base_putNode, hbase]
  · rw [Draft.supplyOn_putSame hbase hnode (by rfl), Draft.supplyOn_of_removeMember hleft]
    rfl

theorem accounts_of_addWriter (hfits : setting.Fits store) {key : WritingKey}
    (kind : setting.operation.kind = .addWriter)
    (h : setting.addWriter { base := store.view } key = .ok result) :
    setting.Accounts store result := by
  obtain ⟨node, hnode, -, -, -, fee, -, required, -, -, validator, hvalidator, balance, hbalance,
    stake, hstake, bound, hbound, hsettle⟩ := addWriter_eq_ok.mp h
  have hput := Draft.supplyOn_putNode rfl hnode
    { node with role := .writer, writingKey := key, balance, stake }
  rw [Amount.sub?_eq_some_iff] at hbalance
  rw [Amount.add?_eq_some_iff] at hstake
  refine accounts_of_settle hfits (by simp [kind]) ?_
    (any_eq_hasOtherValidator hvalidator) ?_ ?_ hsettle
  · exact View.administers_congr
      ((Draft.admin_of_bindWriter hbound).trans (Draft.admin_putNode _ _ _)) _
  · rw [Draft.base_of_bindWriter hbound, Draft.base_putNode]
  · rw [Draft.supplyOn_of_bindWriter hbound, minted_eq_zero (by simp [kind])]
    simp only [NodeRecord.holdings, Option.getD_some, Draft.supplyOn_start] at hput
    omega

theorem accounts_of_removeWriter (hfits : setting.Fits store) {key : WritingKey}
    (kind : setting.operation.kind = .removeWriter)
    (h : setting.removeWriter { base := store.view } key = .ok result) :
    setting.Accounts store result := by
  obtain ⟨-, node, hnode, -, -, validator, hvalidator, left, hleft, balance, hbalance, hsettle⟩ :=
    removeWriter_eq_ok.mp h
  have hleft : left.view = store.view ∧ left.base = store.view ∧
      left.supplyOn store = store.supply := by
    rcases hleft with ⟨-, hleft⟩ | ⟨-, rfl⟩
    · exact ⟨Draft.view_of_removeMember hleft, Draft.base_of_removeMember hleft,
        Draft.supplyOn_of_removeMember hleft store⟩
    · exact ⟨rfl, rfl, rfl⟩
  obtain ⟨hview, hbase, hsupply⟩ := hleft
  have hnode : left.view.node setting.operation.requester = .ok (some node) := hview ▸ hnode
  rw [Amount.add?_eq_some_iff] at hbalance
  have hholdings : NodeRecord.holdings
      { node with role := .whitelisted, balance, stake := .zero } = node.holdings := by
    show balance.raw + 0 = node.balance.raw + node.stake.raw
    omega
  refine accounts_of_settle hfits (by simp [kind]) ?_
    (any_eq_hasOtherValidator hvalidator) ?_ ?_ hsettle
  · exact View.administers_congr ((Draft.admin_putNode _ _ _).trans (hview ▸ rfl)) _
  · rw [Draft.base_putNode, hbase]
  · rw [Draft.supplyOn_putSame hbase hnode hholdings, hsupply, minted_eq_zero (by simp [kind])]
    rfl

theorem accounts_of_adminRecovery (hfits : setting.Fits store) {key : WritingKey}
    (kind : setting.operation.kind = .adminRecovery)
    (h : setting.adminRecovery { base := store.view } key = .ok result) :
    setting.Accounts store result := by
  obtain ⟨admin, hadmin, hrequester, -, -, validator, hvalidator, -, node, hnode, joined, hjoined,
    left, hleft, hsettle⟩ := adminRecovery_eq_ok.mp h
  rw [← hrequester] at hsettle
  refine accounts_of_settle hfits (by simp [kind]) ?_
    (any_eq_hasOtherValidator hvalidator) ?_ ?_ hsettle
  · -- The admin record is another one, but the administrator is the same participant.
    have hadmin : store.view.admin = .ok (some admin) := hadmin
    rw [Draft.view_of_removeMember hleft, Draft.view_of_addMember hjoined, View.Administers,
      Draft.admin_put_admin, View.Administers, hadmin]
    simp
  · rw [Draft.base_of_removeMember hleft, Draft.base_of_addMember hjoined, Draft.base_put,
      Draft.base_putWriterOwner, Draft.base_putNode]
  · rw [Draft.supplyOn_of_removeMember hleft, Draft.supplyOn_of_addMember hjoined,
      Draft.supplyOn_put _ (by simp), Draft.supplyOn_putWriterOwner,
      Draft.supplyOn_putSame rfl hnode (by rfl), minted_eq_zero (by simp [kind])]
    rfl

theorem accounts_of_transfer (hfits : setting.Fits store) {recipient : Address} {amount : Amount}
    (kind : setting.operation.kind = .transfer)
    (h : setting.transfer { base := store.view } recipient amount = .ok result) :
    setting.Accounts store result := by
  obtain ⟨node, hnode, fee, -, required, -, -, validator, hvalidator, debited, hdebited, credited?,
    hcredited, balance, hbalance, hsettle⟩ := transfer_eq_ok.mp h
  have hdebit := Draft.supplyOn_putBalance rfl hnode debited
  have hcredit := Draft.supplyOn_putBalance rfl hcredited balance
  rw [Amount.sub?_eq_some_iff] at hdebited
  rw [Amount.add?_eq_some_iff] at hbalance
  refine accounts_of_settle hfits (by simp [kind]) ?_
    (any_eq_hasOtherValidator hvalidator) rfl ?_ hsettle
  · exact View.administers_congr
      ((Draft.admin_putNode _ _ _).trans (Draft.admin_putNode _ _ _)) _
  · rw [minted_eq_zero (by simp [kind])]
    simp only [Option.getD_some, Draft.supplyOn_start] at hdebit
    omega

theorem accounts_of_transaction (hfits : setting.Fits store) {external ledger : WritingKey}
    (kind : setting.operation.kind = .transaction)
    (h : setting.transaction { base := store.view } external ledger = .ok result) :
    setting.Accounts store result := by
  obtain ⟨-, -, validator, hvalidator, hsettle⟩ := transaction_eq_ok.mp h
  obtain ⟨-, -, -, -, -, hvalidator⟩ := requireFeeAndValidator_eq_ok.mp hvalidator
  refine accounts_of_settle hfits (by simp [kind]) Iff.rfl
    (any_eq_hasOtherValidator hvalidator) rfl ?_ hsettle
  rw [minted_eq_zero (by simp [kind])]
  rfl

theorem accounts_of_bootstrapDeployment (hfits : setting.Fits store) {bootstrap : WritingKey}
    (kind : setting.operation.kind = .bootstrapDeployment)
    (h : setting.bootstrapDeployment { base := store.view } bootstrap = .ok result) :
    setting.Accounts store result := by
  obtain ⟨-, -, validator, hvalidator, hsettle⟩ := bootstrapDeployment_eq_ok.mp h
  obtain ⟨-, -, -, -, -, hvalidator⟩ := requireFeeAndValidator_eq_ok.mp hvalidator
  refine accounts_of_settle hfits (by simp [kind]) ?_
    (any_eq_hasOtherValidator hvalidator) rfl ?_ hsettle
  · exact View.administers_congr (Draft.admin_put _ (by simp) _) _
  · rw [Draft.supplyOn_put _ (by simp), minted_eq_zero (by simp [kind])]
    rfl

theorem accounts_of_rule (hfits : setting.Fits store)
    (h : setting.rule { base := store.view } = .ok result) : setting.Accounts store result := by
  cases ruling_of_rule h with
  | addAdmin key kind body ok => exact accounts_of_addAdmin kind ok
  | disableInitialization key kind body ok => exact accounts_of_disableInitialization hfits kind ok
  | balanceInitialization target amount kind body ok =>
    exact accounts_of_balanceInitialization hfits kind body ok
  | appendWhitelist target kind body ok => exact accounts_of_appendWhitelist hfits kind ok
  | banValidator target kind body ok => exact accounts_of_banValidator hfits kind ok
  | addIndexer target kind body ok => exact accounts_of_addIndexer hfits kind ok
  | removeIndexer target kind body ok => exact accounts_of_removeIndexer hfits kind ok
  | addWriter key kind body ok => exact accounts_of_addWriter hfits kind ok
  | removeWriter key kind body ok => exact accounts_of_removeWriter hfits kind ok
  | adminRecovery key kind body ok => exact accounts_of_adminRecovery hfits kind ok
  | transfer recipient amount kind body ok => exact accounts_of_transfer hfits kind ok
  | transaction writer content external ledger kind body ok =>
    exact accounts_of_transaction hfits kind ok
  | bootstrapDeployment bootstrap channel kind body ok =>
    exact accounts_of_bootstrapDeployment hfits kind ok

end Setting

namespace Replica

variable {replica : Replica} {delivery : Delivery} {op : Operation} {effect : Effect}
  {initializing : Bool} {draft : Draft}

/-! ### Runs -/

theorem Applied.fits (h : replica.Applied delivery op effect initializing draft) :
    (replica.setting op delivery.log initializing).Fits replica.store where
  initializing := h.initializing_eq
  cosignature := delivery.requiresCosignature h.carried

/-- The replay marker of an applied operation is no node record. -/
theorem Applied.supply (h : replica.Applied delivery op effect initializing draft) :
    (replica.commit effect.writes effect.changes).store.supply = draft.supplyOn replica.store := by
  rw [commit, h.writes]
  exact draft.supplyOn_put (by simp) delivery.bytes replica.store

/-- An applied operation changes the supply by what it mints and what it burns. -/
theorem Applied.supply_add_burned (h : replica.Applied delivery op effect initializing draft) :
    (replica.commit effect.writes effect.changes).store.supply +
        op.burned replica.engine.config replica.store.view =
      replica.store.supply + op.minted replica.engine.config ∧
      (op.isSpared replica.store.view = false → op.hasOtherValidator →
        replica.engine.config.fee.raw * replica.engine.config.validatorRewardPercent.toNat <
          Amount.limit) := by
  have hle := op.rewarded_le replica.engine.config_valid
  rw [h.supply]
  rcases Setting.accounts_of_rule h.fits h.rule with
    ⟨hspared, hsupply⟩ | ⟨hcharged, hsupply, hproduct⟩
  · change op.isSpared replica.store.view = true at hspared
    change _ = _ + op.minted replica.engine.config at hsupply
    refine ⟨?_, fun hnot ↦ ?_⟩
    · rw [Operation.burned, if_pos hspared, hsupply, Nat.add_zero]
    · rw [hspared] at hnot
      cases hnot
  · change op.isSpared replica.store.view = false at hcharged
    change _ + replica.engine.config.fee.raw = _ + op.minted replica.engine.config +
      op.rewarded replica.engine.config at hsupply
    refine ⟨?_, fun _ ↦ hproduct⟩
    rw [Operation.burned, if_neg (Bool.eq_false_iff.mp hcharged)]
    omega

/-- **The supply is accounted for exactly.** Whatever state a replica is in and whatever it has
taken before in the same call, a delivery that is skipped leaves the supply as it is, and a delivery
that is applied adds what its operation mints and takes what it burns. The validator's share is at
most the fee and is taken of a product that is an amount, and each operation on amounts gives the
number that it gives on natural numbers, if it gives one. What is summed up to the supply are the
node records that can be read, one for each participant that has one. -/
theorem supply_accounted (replica : Replica) (batch : List Delivery) (delivery : Delivery) :
    let config := replica.engine.config
    let before := (replica.apply batch).1.store
    let after := (replica.apply (batch ++ [delivery])).1.store
    (∃ outcome, (replica.apply (batch ++ [delivery])).2.outcomes =
          (replica.apply batch).2.outcomes ++ [outcome] ∧
        match outcome.verdict with
        | .skipped _ => after.supply = before.supply
        | .applied => ∃ op, delivery.operation = .ok op ∧
            after.supply + op.burned config before.view = before.supply + op.minted config ∧
            op.rewarded config ≤ config.fee.raw ∧
            (op.isSpared before.view = false → op.hasOtherValidator →
              config.fee.raw * config.validatorRewardPercent.toNat < Amount.limit)) ∧
      (∀ a b c : Amount, (a.add? b = some c → a.raw + b.raw = c.raw) ∧
        (a.sub? b = some c → b.raw + c.raw = a.raw) ∧
        (a.mul? b = some c → a.raw * b.raw = c.raw) ∧
        (a.div? b = some c → a.raw / b.raw = c.raw)) ∧
      ∀ store ∈ [before, after],
        (store.nodes.Pairwise fun first second ↦ first.1 ≠ second.1) ∧
          ∀ a node, (a, node) ∈ store.nodes ↔ store.view.node a = .ok (some node) := by
  intro config before after
  refine ⟨?_, fun a b c ↦ ⟨Amount.add?_eq_some_iff.mp, Amount.sub?_eq_some_iff.mp,
    Amount.mul?_eq_some_iff.mp, fun h ↦ (Amount.div?_eq_some_iff.mp h).2⟩, fun store _ ↦
    ⟨store.nodes_pairwise, fun _ _ ↦ Store.mem_nodes_iff⟩⟩
  cases heffect : (replica.apply batch).1.effect delivery with
  | error refusal =>
    obtain ⟨identity, happly⟩ := apply_concat_of_error heffect
    refine ⟨⟨identity, .skipped refusal⟩, by rw [happly], ?_⟩
    show (replica.apply (batch ++ [delivery])).1.store.supply = _
    rw [happly]
  | ok made =>
    obtain ⟨op, effect⟩ := made
    obtain ⟨initializing, draft, happlied⟩ := applied_of_effect heffect
    obtain ⟨hsupply, hproduct⟩ := happlied.supply_add_burned
    have happly := apply_concat_of_ok heffect
    refine ⟨⟨some (op.kind, op.tx), .applied⟩, by rw [happly], op, happlied.carried, ?_,
      op.rewarded_le replica.engine.config_valid, hproduct⟩
    show (replica.apply (batch ++ [delivery])).1.store.supply + _ = _
    rw [happly]
    exact hsupply

end Replica

end SettlementLedger
