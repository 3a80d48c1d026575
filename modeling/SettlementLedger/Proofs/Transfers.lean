import SettlementLedger.Proofs.Authority
import SettlementLedger.Proofs.BalanceShifts
import SettlementLedger.Proofs.Footprint
import SettlementLedger.Proofs.Recovery
import SettlementLedger.Proofs.WireSizes

/-!
# Transfers are exact

A transfer writes up to four records, one after the other: the sender without the amount, the
recipient with it, the sender without the fee, and the validator with its share. Each of them is
read again after the last write, so that the writes add up to one shift of balances
(`Setting.shifts_of_transfer`), whichever of the three participants are one. It succeeds if and only
if the sender can pay and no balance that it leaves is out of range (`Setting.exists_transfer_iff`):
what is added on the way is never more than what is there in the end.
-/

set_option autoImplicit false
set_option relaxedAutoImplicit false

namespace SettlementLedger

/-- What a transfer takes and gives: the amount, the fee and the validator's share of it. -/
def Flow.transfer (sender recipient validator : Address) (amount fee share : Nat) : Flow :=
  ⟨fun a ↦ if a = sender then amount + fee else 0,
    fun a ↦ (if a = recipient then amount else 0) +
      if a = validator ∧ validator ≠ sender then share else 0⟩

/-- It is the amount, then the fee and the share. -/
theorem Flow.transfer_net (sender recipient validator : Address) (amount fee share : Nat)
    (a : Address) :
    (((Flow.single sender amount 0).add (.single recipient 0 amount)).add
        (.settlement sender validator fee share)).given a +
        (Flow.transfer sender recipient validator amount fee share).taken a =
      (Flow.transfer sender recipient validator amount fee share).given a +
        (((Flow.single sender amount 0).add (.single recipient 0 amount)).add
          (.settlement sender validator fee share)).taken a := by
  simp only [Flow.transfer, Flow.add, Flow.single, Flow.settlement, ite_self]
  by_cases ha : a = sender
  · simp only [if_pos ha]
    omega
  · simp only [if_neg ha]
    omega

/-- A delivery carries the operation that it is the wire form of. -/
theorem Delivery.operation_of_wellFormed {delivery : Delivery} {op : Operation}
    (h : op.WellFormed) (hbytes : delivery.bytes = op.toRaw.serialize) :
    delivery.operation = .ok op := by
  obtain ⟨-, hdecode, hvalidate⟩ := Operation.encode_of_wellFormed h
  rw [← hbytes] at hdecode
  exact bind_eq_ok.mpr ⟨op.toRaw, mapError_eq_ok.mpr hdecode, mapError_eq_ok.mpr hvalidate⟩

namespace Setting

variable {setting : Setting} {draft result : Draft} {recipient validator : Address}
  {amount : Amount} {node : NodeRecord}

/-- The amount is moved before the fee is paid. -/
theorem shifts_of_move {sender : Address} {debited balance : Amount}
    {credited? : Option NodeRecord} (hnode : draft.view.node sender = .ok (some node))
    (hdebited : node.balance.sub? amount = some debited)
    (hcredited : (draft.putNode sender { node with balance := debited }).view.node recipient =
      .ok credited?)
    (hbalance : (credited?.getD {}).balance.add? amount = some balance) :
    draft.view.Shifts ((draft.putNode sender { node with balance := debited }).putNode recipient
        { credited?.getD {} with balance }).view
      ((Flow.single sender amount.raw 0).add (.single recipient 0 amount.raw)) [recipient]
      [.node sender, .node recipient] := by
  rw [Amount.sub?_eq_some_iff] at hdebited
  rw [Amount.add?_eq_some_iff] at hbalance
  have hsent : draft.view.Shifts (draft.putNode sender { node with balance := debited }).view
      (.single sender amount.raw 0) [] [.node sender] :=
    Draft.shifts_putNode_some hnode (by omega)
  exact hsent.trans (Draft.shifts_putNode hcredited (by omega))

/-- What a transfer that succeeds has checked, and what it has moved. -/
theorem shifts_of_transfer (h : setting.transfer draft recipient amount = .ok result) :
    ∃ fee validator, setting.feeFor draft setting.operation.requester .adminWaivable = .ok fee ∧
      setting.validator draft = .ok validator ∧
      (∃ node, draft.view.node setting.operation.requester = .ok (some node) ∧
        amount.raw + fee.raw ≤ node.balance.raw) ∧
      (validator ≠ setting.operation.requester → fee.raw ≠ 0 →
        fee.raw * setting.config.validatorRewardPercent.toNat < Amount.limit) ∧
      draft.view.Shifts result.view (.transfer setting.operation.requester recipient validator
          amount.raw fee.raw (setting.config.shareOf fee.raw)) [recipient]
        [.node setting.operation.requester, .node recipient, .node validator] := by
  obtain ⟨node, hnode, fee, hfee, required, hrequired, hcovers, validator, hvalidator, debited,
    hdebited, credited?, hcredited, balance, hbalance, hsettle⟩ := transfer_eq_ok.mp h
  rw [Amount.add?_eq_some_iff] at hrequired
  have hcovers : required.raw ≤ node.balance.raw := hcovers
  have hmoved := shifts_of_move hnode hdebited hcredited hbalance
  have hfee' := hfee
  rw [← feeFor_congr ((Draft.admin_putNode _ _ _).trans (Draft.admin_putNode _ _ _))] at hfee'
  obtain ⟨_, -, -, -, -, ⟨vnode, hvnode, -⟩, -⟩ := validator_eq_ok.mp hvalidator
  obtain ⟨payer, hpayer, -⟩ := hmoved.exists_node hnode
  obtain ⟨holder, hholder, -⟩ := hmoved.exists_node hvnode
  obtain ⟨-, hreward⟩ := (exists_settle_iff hfee' hpayer hholder).mp ⟨result, hsettle⟩
  refine ⟨fee, validator, hfee, hvalidator, ⟨node, hnode, by omega⟩,
    fun hother hcharged ↦ (hreward hother hcharged).1, ?_⟩
  refine (hmoved.trans (shifts_of_settle hfee' hsettle)).weaken (Flow.transfer_net _ _ _ _ _ _) ?_
  intro key hkey
  rcases List.mem_append.mp hkey with hmoves | hsettles
  · exact List.mem_append_left [.node validator] hmoves
  · rcases List.mem_cons.mp hsettles with rfl | hlast
    · exact List.mem_cons_self
    · exact List.mem_append_right [.node setting.operation.requester, .node recipient] hlast

/-- A transfer succeeds if the sender can pay, the validator stands behind it, and no balance that
it leaves is out of range. -/
theorem exists_transfer {fee : Amount} {old? : Option NodeRecord}
    (hnode : draft.view.node setting.operation.requester = .ok (some node))
    (hrecipient : draft.view.node recipient = .ok old?)
    (hfee : setting.feeFor draft setting.operation.requester .adminWaivable = .ok fee)
    (hcovers : amount.raw + fee.raw ≤ node.balance.raw)
    (hvalidator : setting.validator draft = .ok validator)
    (hproduct : validator ≠ setting.operation.requester → fee.raw ≠ 0 →
      fee.raw * setting.config.validatorRewardPercent.toNat < Amount.limit)
    (hroom : ∀ a old?, draft.view.node a = .ok old? →
      let flow := Flow.transfer setting.operation.requester recipient validator amount.raw fee.raw
        (setting.config.shareOf fee.raw)
      (old?.getD {}).balance.raw - flow.taken a + flow.given a < Amount.limit) :
    ∃ result, setting.transfer draft recipient amount = .ok result := by
  have hlt := node.balance.raw_lt
  let debited : Amount := ⟨node.balance.raw - amount.raw, by omega⟩
  have hdebited : node.balance.sub? amount = some debited :=
    Amount.sub?_eq_some_iff.mpr (Nat.add_sub_of_le (by omega))
  have hsent : draft.view.Shifts
      (draft.putNode setting.operation.requester { node with balance := debited }).view
      (.single setting.operation.requester amount.raw 0) [] [.node setting.operation.requester] :=
    Draft.shifts_putNode_some hnode (Nat.sub_add_cancel (by omega))
  obtain ⟨credited?, left, hcredited, hrecord, hleft, -⟩ := hsent.node recipient old? hrecipient
  have hsame : (credited?.getD {}).balance = left := congrArg NodeRecord.balance hrecord
  have hfits : left.raw + amount.raw < Amount.limit := by
    have hfinal := hroom recipient old? hrecipient
    simp only [Flow.transfer, Flow.single, if_true] at hfinal hleft
    by_cases hself : recipient = setting.operation.requester
    · rw [hself, hnode] at hrecipient
      cases hrecipient
      simp only [if_pos hself, Option.getD_some] at hleft
      omega
    · simp only [if_neg hself] at hleft hfinal
      omega
  have hbalance : (credited?.getD {}).balance.add? amount = some ⟨_, hfits⟩ :=
    Amount.add?_eq_some_iff.mpr (by rw [hsame])
  have hmoved := shifts_of_move hnode hdebited hcredited hbalance
  have hfee' := hfee
  rw [← feeFor_congr ((Draft.admin_putNode _ _ _).trans (Draft.admin_putNode _ _ _))] at hfee'
  obtain ⟨_, -, -, -, -, ⟨vnode, hvnode, -⟩, -⟩ := validator_eq_ok.mp hvalidator
  obtain ⟨payer, hpayer, hpaid⟩ := hmoved.exists_node hnode
  obtain ⟨holder, hholder, hheld⟩ := hmoved.exists_node hvnode
  simp only [Flow.add, Flow.single, if_true, ite_self] at hpaid hheld
  have hsettles := (exists_settle_iff hfee' hpayer hholder).mpr
    ⟨by omega, fun hother hcharged ↦ ⟨hproduct hother hcharged, ?_⟩⟩
  · obtain ⟨result, hsettle⟩ := hsettles
    exact ⟨result, transfer_eq_ok.mpr ⟨node, hnode, fee, hfee, ⟨amount.raw + fee.raw, by omega⟩,
      Amount.add?_eq_some_iff.mpr rfl, hcovers, validator, hvalidator, debited, hdebited,
      credited?, hcredited, ⟨_, hfits⟩, hbalance, hsettle⟩⟩
  · have hfinal := hroom validator _ hvnode
    simp only [if_neg hother] at hheld
    simp only [Flow.transfer, if_neg hother, Option.getD_some, true_and, if_pos hother] at hfinal
    omega

/-- The validator check, for the validator that cosigned. -/
theorem validator_eq_ok_iff_cosigned {base : View} {cosignature : Cosignature}
    (h : setting.operation.cosignature = some cosignature) :
    setting.validator { base } = .ok cosignature.validator ↔
      setting.operation.Cosigned setting.suite setting.log base := by
  refine ⟨cosigned_of_validator, ?_⟩
  rintro ⟨found, hfound, hkey, hverify, hnode, howner⟩
  cases h.symm.trans hfound
  exact validator_eq_ok.mpr ⟨cosignature, h, rfl, hkey, hverify, hnode, howner⟩

section Settings

variable {base : View} {cosignature : Cosignature}

/-- The sender of a transfer can pay the amount and the fee. -/
def Covers (setting : Setting) (base : View) (amount : Amount) : Prop :=
  ∃ node, base.node setting.operation.requester = .ok (some node) ∧
    amount.raw + base.due setting.config setting.operation.requester ≤ node.balance.raw

/-- What the transfer of an amount takes and gives, when a validator cosigned it. -/
def transferFlow (setting : Setting) (base : View) (recipient : Address) (amount : Amount)
    (cosignature : Cosignature) : Flow :=
  let fee := base.due setting.config setting.operation.requester
  .transfer setting.operation.requester recipient cosignature.validator amount.raw fee
    (setting.config.shareOf fee)

/-- Nothing is taken that is not there. -/
theorem taken_le_of_covers (h : setting.Covers base amount) {a : Address}
    {old? : Option NodeRecord} (hold : base.node a = .ok old?) :
    (setting.transferFlow base recipient amount cosignature).taken a ≤
      (old?.getD {}).balance.raw := by
  obtain ⟨node, hnode, hcovers⟩ := h
  simp only [transferFlow, Flow.transfer]
  by_cases ha : a = setting.operation.requester
  · rw [ha, hnode] at hold
    cases hold
    rw [if_pos ha]
    exact hcovers
  · rw [if_neg ha]
    exact Nat.zero_le _

/-- What a transfer over a state has checked, and what it has moved. -/
theorem shifts_of_transfer_base (hlegible : base.Legible)
    (hopen : base.initializing = .ok setting.initializing)
    (hcosignature : setting.operation.cosignature = some cosignature)
    (h : setting.transfer { base } recipient amount = .ok result) :
    setting.Covers base amount ∧ setting.operation.Cosigned setting.suite setting.log base ∧
      (cosignature.validator ≠ setting.operation.requester →
        base.due setting.config setting.operation.requester ≠ 0 →
        base.due setting.config setting.operation.requester *
          setting.config.validatorRewardPercent.toNat < Amount.limit) ∧
      base.Shifts result.view (setting.transferFlow base recipient amount cosignature) [recipient]
        [.node setting.operation.requester, .node recipient, .node cosignature.validator] := by
  obtain ⟨fee, validator, hfee, hvalidator, hcovers, hproduct, hshifts⟩ := shifts_of_transfer h
  obtain ⟨admin?, hadmin⟩ := hlegible.admin
  obtain ⟨due, hdue, heq⟩ := exists_feeFor { base } hopen hadmin rfl
    setting.operation.requester
  cases hfee.symm.trans hdue
  obtain ⟨found, hfound, rfl, -⟩ := validator_eq_ok.mp hvalidator
  cases hcosignature.symm.trans hfound
  rw [heq] at hcovers hproduct hshifts
  exact ⟨hcovers, cosigned_of_validator hvalidator, hproduct, hshifts⟩

/-- A transfer succeeds if and only if the sender can pay, the validator stands behind it, and no
balance that it leaves is out of range. -/
theorem exists_transfer_iff (hlegible : base.Legible)
    (hopen : base.initializing = .ok setting.initializing)
    (hcosignature : setting.operation.cosignature = some cosignature) :
    (∃ result, setting.transfer { base } recipient amount = .ok result) ↔
      setting.Covers base amount ∧ setting.operation.Cosigned setting.suite setting.log base ∧
      (cosignature.validator ≠ setting.operation.requester →
        base.due setting.config setting.operation.requester ≠ 0 →
        base.due setting.config setting.operation.requester *
          setting.config.validatorRewardPercent.toNat < Amount.limit) ∧
      ∀ a old?, base.node a = .ok old? →
        (old?.getD {}).balance.raw -
            (setting.transferFlow base recipient amount cosignature).taken a +
          (setting.transferFlow base recipient amount cosignature).given a < Amount.limit := by
  constructor
  · rintro ⟨result, h⟩
    obtain ⟨hcovers, hcosigned, hproduct, hshifts⟩ :=
      shifts_of_transfer_base hlegible hopen hcosignature h
    refine ⟨hcovers, hcosigned, hproduct, fun a old? hold ↦ ?_⟩
    obtain ⟨-, balance, -, -, hbalance, -⟩ := hshifts.node a old? hold
    have htaken : (setting.transferFlow base recipient amount cosignature).taken a ≤
      (old?.getD {}).balance.raw := taken_le_of_covers hcovers hold
    have hlt := balance.raw_lt
    omega
  · rintro ⟨⟨node, hnode, hcovers⟩, hcosigned, hproduct, hroom⟩
    obtain ⟨admin?, hadmin⟩ := hlegible.admin
    obtain ⟨fee, hfee, heq⟩ := exists_feeFor { base } hopen hadmin rfl
      setting.operation.requester
    obtain ⟨old?, hold⟩ := hlegible.node recipient
    rw [← heq] at hcovers hproduct
    refine exists_transfer hnode hold hfee hcovers
      ((validator_eq_ok_iff_cosigned hcosignature).mpr hcosigned) hproduct fun a old? hold ↦ ?_
    have hfinal := hroom a old? hold
    rw [transferFlow, ← heq] at hfinal
    exact hfinal

end Settings

/-- The rule of a transfer. -/
theorem rule_of_transfer (hkind : setting.operation.kind = .transfer)
    (hbody : setting.operation.body = .transfer recipient amount) :
    setting.rule draft = setting.transfer draft recipient amount := by
  simp only [rule, hkind, hbody]

end Setting

namespace Replica

variable {replica : Replica} {delivery : Delivery} {op : Operation} {effect : Effect}
  {initializing : Bool} {draft : Draft} {recipient : Address} {amount : Amount}
  {cosignature : Cosignature}

/-- An applied transfer moves what it says, and marks itself as applied. -/
theorem Applied.shifts_of_transfer
    (h : replica.Applied delivery op effect initializing draft)
    (hlegible : replica.store.view.Legible) (hkind : op.kind = .transfer)
    (hbody : op.body = .transfer recipient amount)
    (hcosignature : op.cosignature = some cosignature) :
    let setting := replica.setting op delivery.log initializing
    setting.Covers replica.store.view amount ∧
      replica.store.view.Shifts (replica.commit effect.writes effect.changes).store.view
        (setting.transferFlow replica.store.view recipient amount cosignature) [recipient]
        [.node op.requester, .node recipient, .node cosignature.validator, .applied op.tx] := by
  intro setting
  obtain ⟨hcovers, -, -, hshifts⟩ := Setting.shifts_of_transfer_base hlegible h.initializing_eq
    hcosignature ((Setting.rule_of_transfer hkind hbody).symm.trans h.rule)
  have hmarks : draft.view.Shifts (draft.put (.applied op.tx) delivery.bytes).view .zero []
      [.applied op.tx] := draft.shifts_put (by simp) delivery.bytes
  rw [h.view]
  exact ⟨hcovers, (hshifts.trans hmarks).weaken (fun _ ↦ rfl) fun _ ↦ id⟩

/-- **Transfers are exact.** After any run and any deliveries of the same call, a delivered transfer
that passes every check but those of its rule is applied if and only if its sender has a record that
can pay the amount and the fee, its validator passes its checks, the product that the share comes
from is in range where it is computed, and so is every resulting balance: no account overflows on
the way that is in range in the end. Then every balance moves by exactly what the transfer says,
whichever of the three participants are one, the rest of every record is as it was, the recipient
has a record, and nothing else is written but the replay marker. -/
theorem transfer_exact (engine : Engine) (bootstrap : WritingKey) (txValidity : Hash)
    (events : List ReplicaEvent) (batch : List Delivery) (delivery : Delivery) {op : Operation}
    {recipient : Address} {amount : Amount} {cosignature : Cosignature}
    (hadmits : (((fresh engine bootstrap txValidity).run events).apply batch).1.Admits delivery op)
    (hkind : op.kind = .transfer) (hbody : op.body = .transfer recipient amount)
    (hcosignature : op.cosignature = some cosignature) :
    let replica := (fresh engine bootstrap txValidity).run events
    let before := (replica.apply batch).1
    let after := (replica.apply (batch ++ [delivery])).1
    let sender := op.requester
    let validator := cosignature.validator
    let fee := if before.store.view.initializesAs sender then 0 else engine.config.fee.raw
    let product := fee * engine.config.validatorRewardPercent.toNat
    let balanceAfter (a : Address) (old : Nat) : Nat :=
      old - (if a = sender then amount.raw + fee else 0) +
        ((if a = recipient then amount.raw else 0) +
          if a = validator ∧ validator ≠ sender then product / 10000 else 0)
    ∃ outcome, (replica.apply (batch ++ [delivery])).2.outcomes =
        (replica.apply batch).2.outcomes ++ [outcome] ∧
      (outcome.verdict = .applied ↔
        (∃ node, before.node sender = .ok (some node) ∧ amount.raw + fee ≤ node.balance.raw) ∧
        op.Cosigned engine.suite delivery.log before.store.view ∧
        (validator ≠ sender → fee ≠ 0 → product < Amount.limit) ∧
        ∀ a old?, before.node a = .ok old? →
          balanceAfter a (old?.getD {}).balance.raw < Amount.limit) ∧
      (outcome.verdict = .applied →
        (∀ a, ∃ old? new? balance, before.node a = .ok old? ∧ after.node a = .ok new? ∧
          new?.getD {} = { old?.getD {} with balance } ∧
          balance.raw = balanceAfter a (old?.getD {}).balance.raw ∧
          (new?.isSome ↔ old?.isSome ∨ a = recipient)) ∧
        after.store.get? (ViewKey.applied op.tx).text = some delivery.bytes ∧
        ∀ text, text ≠ (ViewKey.applied op.tx).text →
          (∀ a ∈ [sender, recipient, validator], text ≠ (ViewKey.node a).text) →
            after.store.get? text = before.store.get? text) := by
  intro replica before after sender validator fee product balanceAfter
  have hrun : (fresh engine bootstrap txValidity).run (events ++ [.batch batch]) = before :=
    run_batch _ events batch
  have hlegible : before.store.view.Legible := hrun ▸ legible_run engine bootstrap txValidity _
  have hengine : before.engine = engine := hrun ▸ (run_fixed _ _).1
  obtain ⟨initializing, hopen⟩ := hlegible.initializing
  let setting := before.setting op delivery.log initializing
  have hconfig : setting.config = engine.config := congrArg Engine.config hengine
  have hsuite : setting.suite = engine.suite := congrArg Engine.suite hengine
  refine ⟨before.outcome delivery, outcomes_concat replica batch delivery, ?_, fun hverdict ↦ ?_⟩
  · rw [outcome_applied_iff hadmits.carried, hadmits.exists_effect_iff hopen,
      Setting.rule_of_transfer hkind hbody,
      Setting.exists_transfer_iff hlegible hopen hcosignature, Setting.Covers, hconfig,
      Setting.transferFlow, hconfig, hsuite]
    exact Iff.rfl
  · obtain ⟨effect, heffect⟩ := (outcome_applied_iff hadmits.carried).mp hverdict
    obtain ⟨found, draft, happlied⟩ := applied_of_effect heffect
    cases hopen.symm.trans happlied.initializing_eq
    have hafter : after = before.commit effect.writes effect.changes :=
      congrArg Prod.fst (apply_concat_of_ok heffect)
    obtain ⟨hcovers, hshifts⟩ := happlied.shifts_of_transfer hlegible hkind hbody hcosignature
    have hmarker := happlied.read_marker
    rw [← hafter] at hshifts hmarker
    let flow := Flow.transfer sender recipient validator amount.raw fee (engine.config.shareOf fee)
    have hflow : setting.transferFlow before.store.view recipient amount cosignature = flow := by
      rw [Setting.transferFlow, hconfig]
      rfl
    refine ⟨fun a ↦ ?_, Except.ok.inj (mapError_eq_ok.mp hmarker), fun text hnot hnodes ↦ ?_⟩
    · obtain ⟨old?, hold⟩ := hlegible.node a
      obtain ⟨new?, balance, hnew, hrecord, hbalance, hexists⟩ := hshifts.node a old? hold
      have htaken : flow.taken a ≤ (old?.getD {}).balance.raw := by
        rw [← hflow]
        exact Setting.taken_le_of_covers hcovers hold
      have hsum : balance.raw + flow.taken a = (old?.getD {}).balance.raw + flow.given a := by
        rw [← hflow]
        exact hbalance
      refine ⟨old?, new?, balance, hold, hnew, hrecord, ?_, by simpa using hexists⟩
      show balance.raw = (old?.getD {}).balance.raw - flow.taken a + flow.given a
      omega
    · refine Except.ok.inj (hshifts.other text fun key hkey ↦ ?_)
      simp only [List.mem_cons, List.not_mem_nil, or_false] at hkey
      rcases hkey with rfl | rfl | rfl | rfl
      · exact hnodes sender (by simp)
      · exact hnodes recipient (by simp)
      · exact hnodes validator (by simp)
      · exact hnot

/-- An operation that was delivered in its wire form, and is reported as applied, was admitted. -/
theorem admits_of_getLast {batch : List Delivery} {kind : Kind} {tx : Hash}
    (hwell : op.WellFormed) (hbytes : delivery.bytes = op.toRaw.serialize)
    (h : (replica.apply (batch ++ [delivery])).2.outcomes.getLast? =
      some ⟨some (kind, tx), .applied⟩) :
    (replica.apply batch).1.Admits delivery op := by
  obtain ⟨found, effect, initializing, draft, happlied, -⟩ := applied_of_getLast h
  cases (delivery.operation_of_wellFormed hwell hbytes).symm.trans happlied.carried
  exact happlied.admits

end Replica

/-! ### A transfer of the administrator -/

namespace ZeroFounding

/-- The first participant becomes the administrator under the zero key and takes two tokens. -/
def endowment : List Delivery :=
  [deliver .zero .addAdmin (.coreAdmin .zero) 1 1,
    deliver .zero .balanceInitialization (.balanceInitialization (participant 1) (.whole 2)) 1 2]

/-- The replica at the start. -/
def blank : Replica := (Replica.fresh engine .zero .zero).run []

/-- The administrator sends one token to the second participant and cosigns this itself. -/
def payment : Operation where
  kind := .transfer
  requester := participant 1
  tx := Message.requesterHash suite .transfer (participant 1) .zero
    (.transfer (participant 2) (.whole 1)) (repeated 3)
  txValidity := .zero
  nonce := repeated 3
  signature := .zero
  body := .transfer (participant 2) (.whole 1)
  cosignature := some { validator := participant 1, nonce := repeated 3, signature := .zero }

/-- The payment on the log of the administrator. -/
def paid : Delivery := ⟨.zero, payment.toRaw.serialize⟩

theorem payment_applied :
    (blank.apply (endowment ++ [paid])).2.outcomes.getLast? =
      some ⟨some (.transfer, payment.tx), .applied⟩ := by
  decide +kernel

theorem admits_payment : (blank.apply endowment).1.Admits paid payment :=
  Replica.admits_of_getLast ⟨rfl, fun _ ↦ rfl⟩ rfl payment_applied

/-- The administrator pays a token: the second participant has one more, and the rest of its record
is as before. -/
theorem payment_exact :
    let before := (blank.apply endowment).1
    let after := (blank.apply (endowment ++ [paid])).1
    before.Admits paid payment ∧
      ∃ old? new? balance, before.node (participant 2) = .ok old? ∧
        after.node (participant 2) = .ok new? ∧
        new?.getD {} = { old?.getD {} with balance } ∧
        balance.raw = (old?.getD {}).balance.raw + (Amount.whole 1).raw := by
  intro before after
  obtain ⟨outcome, houtcomes, -, hexact⟩ := Replica.transfer_exact engine .zero .zero [] endowment
    paid admits_payment rfl rfl rfl
  have hlast := payment_applied
  rw [blank, houtcomes, List.getLast?_concat, Option.some_inj] at hlast
  obtain ⟨hnodes, -, -⟩ := hexact (by rw [hlast])
  obtain ⟨old?, new?, balance, hold, hnew, hrecord, hbalance, -⟩ := hnodes (participant 2)
  have hother : participant 2 ≠ participant 1 := by decide
  refine ⟨admits_payment, old?, new?, balance, hold, hnew, hrecord, hbalance.trans ?_⟩
  simp only [payment, hother, if_true, if_false, false_and, Nat.sub_zero, Nat.add_zero]

end ZeroFounding

end SettlementLedger
