import SettlementLedger.Proofs.Enlistment
import SettlementLedger.Proofs.History

/-!
# When a balance and a stake fit together

A balance and a stake are amounts, and every rule checks that what it writes to either of them is
one. No rule checks their sum, which is what a release pays out: the administrator may credit an
account that has a stake with so much that the stake can no longer be released, and that what the
account holds is no amount (`ZeroFounding.stake_does_not_fit`).

No account holds more than was ever minted (`Replica.supply_le_mintedIn`). So holdings fit for as
long as what was minted in all is an amount, and then the one number of a release that may be out of
range is the product of which the validator's share is taken (`Setting.of_overflows_removeWriter`).
-/

set_option autoImplicit false
set_option relaxedAutoImplicit false

namespace SettlementLedger

/-! ### Numbers out of range -/

/-- A computation is refused because a number is out of range. -/
def Overflows {α : Type} (computation : Except Refusal α) : Prop :=
  computation = .error (.rejected .arithmeticOverflow)

namespace Overflows

variable {α β : Type} {reason : Rejection}

theorem bind_iff {computation : Except Refusal α} {next : α → Except Refusal β} :
    Overflows (computation >>= next) ↔
      Overflows computation ∨ ∃ value, computation = .ok value ∧ Overflows (next value) := by
  cases computation <;> simp [Overflows, bind, Except.bind]

theorem not_pure {value : α} : ¬ Overflows (pure value : Except Refusal α) := by
  simp [Overflows, pure, Except.pure]

theorem require_iff {condition : Prop} [Decidable condition] :
    Overflows (require condition reason) ↔ ¬ condition ∧ reason = .arithmeticOverflow := by
  unfold Overflows require
  split <;> simp_all

theorem demand_iff {value? : Option α} :
    Overflows (demand value? reason) ↔ value? = none ∧ reason = .arithmeticOverflow := by
  cases value? <;> simp [Overflows, demand]

theorem not_answered {answer : Except ViewError α} : ¬ Overflows (answered answer) := by
  cases answer <;> exact fun h ↦ by cases h

end Overflows

/-! ### Releases -/

namespace Draft

open Overflows

variable {draft : Draft} {address : Address} {members : Membership} {key : WritingKey}

theorem not_overflows_existingNode {missing : Rejection} (h : missing ≠ .arithmeticOverflow) :
    ¬ Overflows (draft.existingNode address missing) := by
  simp only [existingNode, node, bind_iff, not_answered, demand_iff, h, and_false, exists_false,
    or_false, not_false_eq_true]

theorem not_overflows_isAdmin : ¬ Overflows (draft.isAdmin address) := by
  simp only [isAdmin, admin, bind_iff, not_answered, not_pure, and_false, exists_false, or_false,
    not_false_eq_true]

theorem not_overflows_removeMember : ¬ Overflows (draft.removeMember members key) := by
  unfold removeMember
  split
  · simp only [bind_iff, require_iff, not_pure, reduceCtorEq, and_false, exists_false, or_false,
      not_false_eq_true]
  · exact not_pure

end Draft

namespace Setting

open Overflows

variable {setting : Setting} {draft : Draft} {base : View} {payer validator : Address}
  {fee : Amount} {policy : FeePolicy} {key : WritingKey}

theorem not_overflows_validator : ¬ Overflows (setting.validator draft) := by
  simp only [Setting.validator, Draft.node, bind_iff, demand_iff, require_iff, not_answered,
    not_pure, reduceCtorEq, and_false, exists_false, or_false, not_false_eq_true]

theorem not_overflows_feeFor : ¬ Overflows (setting.feeFor draft payer policy) := by
  cases policy with
  | charged => exact not_pure
  | adminWaivable =>
    by_cases hopen : setting.initializing = true
    · simp only [feeFor, hopen, if_true, bind_iff, Draft.not_overflows_isAdmin, not_pure, and_false,
        exists_false, or_false, not_false_eq_true]
    · simp only [feeFor, hopen, Bool.false_eq_true, if_false, not_pure, not_false_eq_true]

/-- The share of a validator other than the payer may be out of range, or its balance with it. -/
theorem overflows_reward_iff :
    Overflows (setting.reward draft payer fee (some validator)) ↔ validator ≠ payer ∧
      (fee.percentage? setting.config.rewardFactor = none ∨
        ∃ share node, fee.percentage? setting.config.rewardFactor = some share ∧
          draft.view.node validator = .ok (some node) ∧ node.balance.add? share = none) := by
  by_cases hself : validator = payer
  · simp only [reward, hself, if_true, not_pure, ne_eq, not_true_eq_false, false_and]
  · have hmissing : Rejection.validatorNotWriter ≠ .arithmeticOverflow := by decide
    simp only [reward, hself, if_false, bind_iff, demand_iff, demand_eq_ok,
      Draft.existingNode_eq_ok, Draft.not_overflows_existingNode hmissing, not_pure, and_false,
      exists_false, or_false, false_or, and_true, ne_eq, not_false_eq_true, true_and,
      exists_and_left]

/-- Only the reward of a settlement may be out of range. -/
theorem overflows_settle_iff {validator? : Option Address} :
    Overflows (setting.settle draft payer policy validator?) ↔
      ∃ fee, setting.feeFor draft payer policy = .ok fee ∧ ¬ fee.isZero ∧
        ∃ node, draft.view.node payer = .ok (some node) ∧
        ∃ balance, node.balance.sub? fee = some balance ∧
          Overflows (setting.reward (draft.putNode payer { node with balance }) payer fee
            validator?) := by
  have hmissing : Rejection.insufficientBalance ≠ .arithmeticOverflow := by decide
  simp only [settle, bind_iff, not_overflows_feeFor, false_or]
  refine exists_congr fun fee ↦ and_congr_right fun _ ↦ ?_
  by_cases hzero : fee.isZero = true
  · simp only [hzero, if_true, not_pure, not_true_eq_false, false_and]
  · simp only [hzero, Bool.false_eq_true, if_false, bind_iff, demand_iff, demand_eq_ok,
      Draft.existingNode_eq_ok, Draft.not_overflows_existingNode hmissing, reduceCtorEq, and_false,
      false_or, not_false_eq_true, true_and]

/-- The sum of the balance and the stake may be out of range, or else a number of the settlement. -/
theorem exists_of_overflows_removeWriter (h : Overflows (setting.removeWriter { base } key)) :
    ∃ node, base.node setting.operation.requester = .ok (some node) ∧
      (node.balance.add? node.stake = none ∨
        ∃ balance validator, ∃ left : Draft, node.balance.add? node.stake = some balance ∧
          left.view = base ∧
          Overflows (setting.settle (left.putNode setting.operation.requester
            { node with role := .whitelisted, balance, stake := .zero })
              setting.operation.requester .adminWaivable (some validator))) := by
  have hmissing : Rejection.notWriter ≠ .arithmeticOverflow := by decide
  simp only [removeWriter, bind_iff, require_iff, require_eq_ok, exists_const,
    Draft.not_overflows_isAdmin, Draft.not_overflows_existingNode hmissing,
    Draft.existingNode_eq_ok, not_overflows_validator, reduceCtorEq, and_false, false_or] at h
  obtain ⟨-, -, -, node, hnode, -, -, validator, -, h⟩ := h
  refine ⟨node, hnode, ?_⟩
  by_cases hindexer : node.role.isIndexer = true
  · simp only [hindexer, if_true, bind_iff, demand_iff, demand_eq_ok,
      Draft.not_overflows_removeMember, false_or, and_true] at h
    obtain ⟨left, hleft, hsum | ⟨balance, hbalance, hsettle⟩⟩ := h
    · exact Or.inl hsum
    · exact Or.inr ⟨balance, validator, left, hbalance, Draft.view_of_removeMember hleft, hsettle⟩
  · simp only [hindexer, Bool.false_eq_true, if_false, bind_iff, demand_iff, demand_eq_ok,
      pure_eq_ok, not_pure, false_or, and_true] at h
    obtain ⟨left, rfl, hsum | ⟨balance, hbalance, hsettle⟩⟩ := h
    · exact Or.inl hsum
    · exact Or.inr ⟨balance, validator, _, hbalance, rfl, hsettle⟩

/-- A removal without a writing key is malformed, which is no number out of range. -/
theorem exists_of_overflows_rule (hkind : setting.operation.kind = .removeWriter)
    (h : Overflows (setting.rule draft)) : ∃ key, Overflows (setting.removeWriter draft key) := by
  cases hbody : setting.operation.body with
  | roleAccess key => exact ⟨key, rule_of_removeWriter hkind hbody ▸ h⟩
  | coreAdmin _ | adminControl _ | balanceInitialization _ _ | transfer _ _
  | transaction _ _ _ _ | bootstrapDeployment _ _ =>
    simp only [Setting.rule, hkind, hbody, Overflows] at h
    cases h

/-- A release is refused for a number out of range if the account holds more than an amount, if the
product of which the share is taken is no amount, or if the validator's balance is none with the
share, which is at most what the account holds. -/
theorem of_overflows_removeWriter (hvalid : setting.config.validate = .ok ())
    (h : Overflows (setting.removeWriter { base } key)) :
    ∃ node, base.node setting.operation.requester = .ok (some node) ∧
      (Amount.limit ≤ node.holdings ∨
        Amount.limit ≤ setting.config.fee.raw * setting.config.validatorRewardPercent.toNat ∨
        ∃ validator other, validator ≠ setting.operation.requester ∧
          base.node validator = .ok (some other) ∧
          Amount.limit ≤ other.holdings + node.holdings) := by
  obtain ⟨node, hnode, hsum | ⟨released, validator, left, hreleased, hview, hsettle⟩⟩ :=
    exists_of_overflows_removeWriter h
  · exact ⟨node, hnode, Or.inl (Amount.add?_eq_none_iff.mp hsum)⟩
  refine ⟨node, hnode, Or.inr ?_⟩
  obtain ⟨fee, hfee, hcharged, payer, hpayer, balance, hbalance, hreward⟩ :=
    overflows_settle_iff.mp hsettle
  rcases fee_of_feeFor hfee with ⟨-, rfl⟩ | ⟨-, rfl⟩
  · exact absurd rfl hcharged
  rw [Draft.node_putNode, if_pos rfl] at hpayer
  cases hpayer
  rw [Amount.add?_eq_some_iff] at hreleased
  rw [Amount.sub?_eq_some_iff] at hbalance
  obtain ⟨hother, hproduct | ⟨share, other, hshare, hnodeOther, hcredit⟩⟩ :=
    overflows_reward_iff.mp hreward
  · exact Or.inl (Amount.percentage?_eq_none_iff.mp hproduct)
  · refine Or.inr ⟨validator, other, hother, ?_, ?_⟩
    · rw [Draft.node_putNode, if_neg hother, Draft.node_putNode, if_neg hother, hview] at hnodeOther
      exact hnodeOther
    · have hle : share.raw ≤ setting.config.fee.raw :=
        (share_of_percentage?.mp hshare).2 ▸ Config.share_le hvalid
      have hcredit := Amount.add?_eq_none_iff.mp hcredit
      have hbalance : setting.config.fee.raw + balance.raw = released.raw := hbalance
      simp only [NodeRecord.holdings]
      omega

end Setting

/-- Of the checks before the rule none is refused for a number out of range. -/
theorem Operation.rule_overflows {op : Operation} {suite : Suite} {config : Config}
    {context : Context} {base : View} {members : Membership} {delivery : Delivery}
    (h : Overflows (op.transition suite config context base members delivery)) :
    ∃ initializing, Overflows
      ((op.setting suite config context members delivery.log initializing).rule { base }) := by
  simp only [transition, authenticate, Overflows.bind_iff, Overflows.require_iff,
    Overflows.not_answered, reduceCtorEq, and_false, exists_false, false_or] at h
  obtain ⟨-, -, initializing, -, found, -, h⟩ := h
  cases found with
  | true => cases h
  | false =>
    simp only [Bool.false_eq_true, if_false, Overflows.bind_iff, Overflows.require_iff,
      Overflows.not_pure, reduceCtorEq, and_false, exists_false, or_false, false_or] at h
    obtain ⟨-, -, hrule⟩ := h
    exact ⟨initializing, hrule⟩

/-! ### The supply and what was minted -/

/-- An account holds what is missing once its record is an empty one. -/
theorem Draft.supplyOn_drained {draft : Draft} {store : Store} {a : Address} {node : NodeRecord}
    (hbase : draft.base = store.view) (hnode : draft.view.node a = .ok (some node)) :
    (draft.putNode a {}).supplyOn store + node.holdings = draft.supplyOn store :=
  supplyOn_putNode hbase hnode {}

namespace Store

variable {store : Store} {a b : Address} {node other : NodeRecord}

/-- An account holds no more than all accounts. -/
theorem holdings_le_supply (hnode : store.view.node a = .ok (some node)) :
    node.holdings ≤ store.supply := by
  let start : Draft := { base := store.view }
  have hleft : (start.putNode a {}).supplyOn store + node.holdings = store.supply :=
    Draft.supplyOn_drained rfl hnode
  omega

/-- Two accounts hold no more than all accounts. -/
theorem holdings_add_le_supply (hne : b ≠ a) (hnode : store.view.node a = .ok (some node))
    (hother : store.view.node b = .ok (some other)) :
    node.holdings + other.holdings ≤ store.supply := by
  let start : Draft := { base := store.view }
  have hkept : (start.putNode a {}).view.node b = .ok (some other) := by
    rw [Draft.node_putNode, if_neg hne]
    exact hother
  have hleft : (start.putNode a {}).supplyOn store + node.holdings = store.supply :=
    Draft.supplyOn_drained rfl hnode
  have hrest : ((start.putNode a {}).putNode b {}).supplyOn store + other.holdings =
      (start.putNode a {}).supplyOn store := Draft.supplyOn_drained rfl hkept
  omega

end Store

/-- What a delivery has added to the supply. -/
def Taken.minted (config : Config) (taken : Taken) : Nat :=
  if taken.isApplied then taken.delivery.operation.toOption.elim 0 fun op ↦ op.minted config else 0

/-- What all deliveries of a history together have added to the supply. -/
def mintedIn (config : Config) (history : List Taken) : Nat :=
  history.foldl (fun total taken ↦ total + taken.minted config) 0

theorem mintedIn_concat (config : Config) (history : List Taken) (last : Taken) :
    mintedIn config (history ++ [last]) = mintedIn config history + last.minted config := by
  simp only [mintedIn, List.foldl_append, List.foldl_cons, List.foldl_nil]

namespace Replica

variable {replica : Replica} {delivery : Delivery} {op : Operation}

/-- The supply is at most what was ever minted. -/
theorem supply_le_mintedIn (engine : Engine) (bootstrap : WritingKey) (txValidity : Hash)
    (events : List ReplicaEvent) :
    ((fresh engine bootstrap txValidity).run events).store.supply ≤
      mintedIn engine.config ((fresh engine bootstrap txValidity).history events) := by
  refine (history_induction
    (P := fun replica history ↦ replica.engine = engine ∧
      replica.store.supply ≤ mintedIn engine.config history)
    ?_ ?_ ?_ (fresh engine bootstrap txValidity) [] ⟨rfl, Nat.le_refl 0⟩ events).2
  · rintro replica history digest h
    exact h
  · rintro replica history delivery identity refusal ⟨hengine, hle⟩ -
    refine ⟨hengine, ?_⟩
    rw [mintedIn_concat]
    exact Nat.le_add_right_of_le hle
  · rintro replica history delivery op effect ⟨rfl, hle⟩ heffect
    obtain ⟨initializing, draft, happlied⟩ := applied_of_effect heffect
    have hminted : Taken.minted replica.engine.config
        ⟨delivery, some (op.kind, op.tx), .applied⟩ = op.minted replica.engine.config := by
      rw [Taken.minted, happlied.carried]
      rfl
    -- what is burned only lowers the supply
    have hsupply := happlied.supply_add_burned.1
    refine ⟨rfl, ?_⟩
    rw [mintedIn_concat, hminted]
    omega

/-- What an account holds can be read if it is an amount. -/
theorem holdings?_of_fits {a : Address} (hlegible : replica.store.view.Legible)
    (hfits : ∀ node, replica.node a = .ok (some node) → node.holdings < Amount.limit) :
    ∃ held, replica.holdings? a = .ok (some held) := by
  obtain ⟨node?, hnode⟩ := hlegible.node a
  have hnode : replica.node a = .ok node? := hnode
  cases node? with
  | none => exact ⟨.zero, by rw [holdings?, hnode]; rfl⟩
  | some node =>
    have hheld : node.balance.add? node.stake = some ⟨node.holdings, hfits node hnode⟩ :=
      Amount.add?_eq_some_iff.mpr rfl
    exact ⟨_, by rw [holdings?, hnode]; exact congrArg Except.ok hheld⟩

/-- What a skipped delivery carries was refused for the reason that is reported. -/
theorem transition_of_skipped {refusal : Refusal} (hcarried : delivery.operation = .ok op)
    (h : (replica.outcome delivery).verdict = .skipped refusal) :
    op.transition replica.engine.suite replica.engine.config replica.context replica.store.view
      replica.members delivery = .error refusal := by
  cases heffect : replica.effect delivery with
  | ok made =>
    rw [outcome_of_ok heffect] at h
    cases h
  | error cause =>
    rw [outcome_of_error heffect] at h
    cases h
    simp only [Replica.effect, hcarried] at heffect
    split at heffect
    · rename_i hrefused
      cases heffect
      exact hrefused
    · cases heffect

/-- A removal that is skipped for a number out of range was judged by its rule. -/
theorem removeWriter_overflows (hcarried : delivery.operation = .ok op)
    (hkind : op.kind = .removeWriter)
    (h : (replica.outcome delivery).verdict = .skipped (.rejected .arithmeticOverflow)) :
    ∃ key initializing, Overflows ((replica.setting op delivery.log initializing).removeWriter
      { base := replica.store.view } key) := by
  obtain ⟨initializing, hrule⟩ := Operation.rule_overflows (transition_of_skipped hcarried h)
  obtain ⟨key, hrule⟩ := Setting.exists_of_overflows_rule hkind hrule
  exact ⟨key, initializing, hrule⟩

/-- The supply is at most what was ever minted, and as long as it is an amount, holdings fit: no
account has a balance and a stake whose sum is none, what an account holds can always be read, and
no number of a release is out of range, unless the product of which the validator's share is taken
is no amount in the first place. -/
theorem holdings_fit_unless_overissued (engine : Engine) (bootstrap : WritingKey)
    (txValidity : Hash) (events : List ReplicaEvent) :
    let replica := (fresh engine bootstrap txValidity).run events
    replica.store.supply ≤
        mintedIn engine.config ((fresh engine bootstrap txValidity).history events) ∧
      (replica.store.supply < Amount.limit →
        (∀ a node, replica.node a = .ok (some node) →
          node.balance.raw + node.stake.raw < Amount.limit) ∧
        (∀ a, ∃ held, replica.holdings? a = .ok (some held)) ∧
        (engine.config.fee.raw * engine.config.validatorRewardPercent.toNat < Amount.limit →
          ∀ delivery op, delivery.operation = .ok op → op.kind = .removeWriter →
            ∀ outcome ∈ (replica.apply [delivery]).2.outcomes,
              outcome.verdict ≠ .skipped (.rejected .arithmeticOverflow))) := by
  intro replica
  refine ⟨supply_le_mintedIn engine bootstrap txValidity events, fun hsupply ↦ ?_⟩
  have hfits : ∀ a node, replica.node a = .ok (some node) → node.holdings < Amount.limit :=
    fun a node hnode ↦ Nat.lt_of_le_of_lt (Store.holdings_le_supply hnode) hsupply
  refine ⟨hfits, fun a ↦ ?_, fun hproduct delivery op hcarried hkind outcome houtcome hover ↦ ?_⟩
  · exact holdings?_of_fits (legible_run engine bootstrap txValidity events) (hfits a)
  · rw [outcomes_singleton, List.mem_singleton] at houtcome
    subst houtcome
    obtain ⟨key, initializing, hrule⟩ := removeWriter_overflows hcarried hkind hover
    have hconfig : replica.engine.config = engine.config :=
      congrArg Engine.config (run_fixed (fresh engine bootstrap txValidity) events).1
    obtain ⟨node, hnode, hheld | hshared | ⟨validator, other, hne, hother, hboth⟩⟩ :=
      Setting.of_overflows_removeWriter replica.engine.config_valid hrule
    · exact absurd (hfits _ node hnode) (Nat.not_lt.mpr hheld)
    · change Amount.limit ≤
        replica.engine.config.fee.raw * replica.engine.config.validatorRewardPercent.toNat at hshared
      rw [hconfig] at hshared
      exact absurd hproduct (Nat.not_lt.mpr hshared)
    · have hle := Store.holdings_add_le_supply hne hnode hother
      omega

end Replica

/-! ### A stake that does not fit -/

namespace ZeroFounding

/-- After the founding no stake is out of range, and the second participant can release its own. -/
theorem founding_stake_fits :
    founded.store.supply < Amount.limit ∧ engine.config.fee.raw = 0 ∧
      (∃ held, founded.holdings? (participant 2) = .ok (some held)) ∧
      ∀ outcome ∈ (founded.apply [released]).2.outcomes,
        outcome.verdict ≠ .skipped (.rejected .arithmeticOverflow) := by
  obtain ⟨hminted, hfits⟩ :=
    Replica.holdings_fit_unless_overissued engine .zero .zero [.batch founding]
  rw [← founded] at hminted hfits
  have hsupply : founded.store.supply < Amount.limit :=
    Nat.lt_of_le_of_lt hminted (by decide +kernel)
  have hcarried : released.operation = .ok release :=
    Delivery.operation_of_wellFormed ⟨rfl, fun _ ↦ rfl⟩ rfl
  obtain ⟨-, hheld, hreleased⟩ := hfits hsupply
  exact ⟨hsupply, rfl, hheld (participant 2),
    hreleased (by decide +kernel) released release hcarried rfl⟩

/-- The administrator credits the second participant, which has a stake, with the largest amount. -/
def overissue : List Delivery :=
  founding ++ [deliver .zero .balanceInitialization
    (.balanceInitialization (participant 2) ⟨Amount.limit - 1, by decide⟩) 1 7]

/-- The replica after the credit. -/
def overissued : Replica := (Replica.fresh engine .zero .zero).run [.batch overissue]

/-- After the credit the second participant holds no amount and can no longer release its stake. -/
theorem stake_does_not_fit :
    (overissued.node (participant 2)).toOption.map (Option.map NodeRecord.holdings) =
        some (some (Amount.limit - 1 + (Amount.whole 1).raw)) ∧
      (overissued.holdings? (participant 2)).toOption = some none ∧
      (overissued.apply [released]).2.outcomes =
        [⟨some (.removeWriter, release.tx), .skipped (.rejected .arithmeticOverflow)⟩] := by
  decide +kernel

end ZeroFounding

end SettlementLedger
