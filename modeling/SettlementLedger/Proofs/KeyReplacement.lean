import SettlementLedger.Proofs.Enlistment
import SettlementLedger.Proofs.Soundness

/-!
# The administrator changes its key exactly when it may

A recovery stages the administrator's record, the binding of the new key, the admin record and two
membership changes before the fee is paid. Nothing of that can fail: a key that is bound to nobody
is no member, since the members are the keys of the indexers, and a key that joins before the old
one leaves makes the set large enough for it to leave (`Draft.exchange_eq_ok`). So the checks before
and the fee at the end decide (`Setting.exists_adminRecovery_iff`). Since bindings last, a key that
is bound to nobody now was never bound (`Replica.neverBound_iff`).
-/

set_option autoImplicit false
set_option relaxedAutoImplicit false

namespace SettlementLedger

/-! ### One key for another -/

namespace Membership

variable {members : Membership} {old key : WritingKey}

/-- The changes by which one key takes the place of another. -/
def exchange (old key : WritingKey) : MembershipDiff := [.add key, .remove old]

theorem contains_exchange_iff (hold : members.contains old) (hnew : ¬ members.contains key)
    (k : WritingKey) : (members.applyAll (exchange old key)).contains k ↔
      k = key ∨ (k ≠ old ∧ members.contains k) := by
  have hne : key ≠ old := fun heq ↦ hnew (heq ▸ hold)
  have hboth : (members.applyAll (exchange old key)).contains k ↔
      k ≠ old ∧ (k = key ∨ members.contains k) :=
    (contains_remove_iff _ old k).trans (and_congr_right fun _ ↦ members.contains_add_iff key k)
  rw [hboth]
  constructor
  · rintro ⟨hkept, rfl | hmember⟩
    · exact Or.inl rfl
    · exact Or.inr ⟨hkept, hmember⟩
  · rintro (rfl | ⟨hkept, hmember⟩)
    · exact ⟨hne, Or.inl rfl⟩
    · exact ⟨hkept, Or.inr hmember⟩

/-- The set has as many members as before. -/
theorem size_exchange (hold : members.contains old) (hnew : ¬ members.contains key) :
    (members.applyAll (exchange old key)).size = members.size := by
  have hstays : (members.apply (.add key)).contains old :=
    (members.contains_add_iff key old).mpr (Or.inr hold)
  have hleaves : (members.applyAll (exchange old key)).size + 1 =
      (members.apply (.add key)).size := size_remove hstays
  rw [size_add hnew] at hleaves
  omega

end Membership

/-- A key that is no member joins before a member leaves, so that the member may be the only one. -/
theorem Draft.exchange_eq_ok {draft result : Draft} {members : Membership} {old key : WritingKey}
    (hchanges : draft.changes = []) (hold : members.contains old)
    (hnew : ¬ members.contains key) :
    (∃ joined, draft.addMember members key = .ok joined ∧
        joined.removeMember members old = .ok result) ↔
      { draft with changes := Membership.exchange old key } = result := by
  have hne : key ≠ old := fun heq ↦ hnew (heq ▸ hold)
  have hstays : (members.apply (.add key)).contains old :=
    (members.contains_add_iff key old).mpr (Or.inr hold)
  have hjoins : (members.apply (.add key)).contains key :=
    (members.contains_add_iff key key).mpr (Or.inl rfl)
  have hsize : 1 < members.sizeAfter [.add key] := Membership.one_lt_size_of_ne hjoins hstays hne
  have hcontains : members.containsAfter [.add key] old := by
    rw [Membership.containsAfter_eq]
    exact hstays
  constructor
  · rintro ⟨joined, hjoined, hleft⟩
    obtain ⟨-, rfl⟩ := addMember_eq_ok.mp hjoined
    rw [hchanges] at hleft
    rcases removeMember_eq_ok.mp hleft with ⟨-, -, rfl⟩ | ⟨hnot, -⟩
    · rfl
    · exact absurd hcontains hnot
  · rintro rfl
    refine ⟨{ draft with changes := [.add key] }, addMember_eq_ok.mpr ⟨?_, ?_⟩,
      removeMember_eq_ok.mpr (Or.inl ⟨hcontains, hsize, rfl⟩)⟩
    · rw [hchanges, Membership.containsAfter_eq]
      exact hnew
    · rw [hchanges]
      rfl

/-! ### The rule -/

namespace Setting

variable {setting : Setting} {base : View} {draft result : Draft} {node : NodeRecord}
  {key : WritingKey} {admin : AdminRecord}

/-- The administrator, its record and a binding name another key. -/
def renamed (base : View) (admin : AdminRecord) (node : NodeRecord) (key : WritingKey) : Draft :=
  ((Draft.putNode { base } admin.address { node with writingKey := key }).putWriterOwner key
    admin.address).put .admin (AdminRecord.encode { admin with writingKey := key })

/-- What a recovery has staged before the fee is paid. -/
def rekeyed (base : View) (admin : AdminRecord) (node : NodeRecord) (key : WritingKey) : Draft :=
  { renamed base admin node key with changes := Membership.exchange admin.writingKey key }

/-- It is ready for the fee, since the administrator stays who it is. -/
theorem readies_rekeyed (hadmin : base.admin = .ok (some admin))
    (hrequester : setting.operation.requester = admin.address) (node : NodeRecord)
    (key : WritingKey) :
    setting.Readies base (rekeyed base admin node key) { node with writingKey := key } := by
  have hkept (a : Address) : (rekeyed base admin node key).view.node a =
      if a = admin.address then .ok (some { node with writingKey := key }) else base.node a := by
    show ((Draft.putWriterOwner _ key admin.address).put .admin _).view.node a = _
    rw [Draft.node_put _ (by simp), Draft.node_putWriterOwner, Draft.node_putNode]
    rfl
  have hnamed : (rekeyed base admin node key).view.admin =
      .ok (some { admin with writingKey := key }) :=
    Draft.admin_put_admin _ _
  refine ⟨?_, fun a ha ↦ ?_, ⟨_, hnamed⟩, ?_⟩
  · rw [hkept, hrequester, if_pos rfl]
  · rw [hkept, if_neg (hrequester ▸ ha)]
  · rw [hrequester]
    exact ⟨fun _ ↦ ⟨admin, hadmin, rfl⟩, fun _ ↦ ⟨_, hnamed, rfl⟩⟩

/-- The rule where the members are the indexers: its checks, what it stages, and the fee. No member
stands in the way, since the new key is bound to nobody. -/
theorem adminRecovery_eq_ok_of_stands
    (hstand : base.MembersStand setting.bootstrap setting.members) :
    setting.adminRecovery { base } key = .ok result ↔
      ∃ admin, base.admin = .ok (some admin) ∧ setting.operation.requester = admin.address ∧
        base.writerOwner key = .ok none ∧ setting.members.contains admin.writingKey ∧
        ∃ validator, setting.validator { base } = .ok validator ∧
        validator ≠ setting.operation.requester ∧
        ∃ node, base.node setting.operation.requester = .ok (some node) ∧
        setting.settle (rekeyed base admin node key) setting.operation.requester .adminWaivable
          (some validator) = .ok result := by
  rw [adminRecovery_eq_ok]
  refine exists_congr fun admin ↦ and_congr_right fun hadmin ↦ and_congr_right fun hrequester ↦
    and_congr_right fun hunbound ↦ and_congr_right fun hmember ↦ exists_congr fun validator ↦ ?_
  have hmember : setting.members.contains admin.writingKey := hmember
  have hnew := (hstand.governed hadmin).not_contains_of_unbound hunbound
  rw [hrequester]
  refine and_congr_right fun _ ↦ and_congr_right fun _ ↦ exists_congr fun node ↦
    and_congr_right fun _ ↦ ?_
  have hexchange (left : Draft) :
      (∃ joined, (renamed base admin node key).addMember setting.members key = .ok joined ∧
          joined.removeMember setting.members admin.writingKey = .ok left) ↔
        rekeyed base admin node key = left :=
    Draft.exchange_eq_ok rfl hmember hnew
  constructor
  · rintro ⟨joined, hjoined, left, hleft, hsettle⟩
    rw [(hexchange left).mp ⟨joined, hjoined, hleft⟩]
    exact hsettle
  · intro hsettle
    obtain ⟨joined, hjoined, hleft⟩ := (hexchange _).mpr rfl
    exact ⟨joined, hjoined, _, hleft, hsettle⟩

/-- A recovery succeeds if and only if the requester is the administrator, whose key is a member,
the new key is bound to nobody, another participant cosigned, the administrator can pay the fee, and
the validator can be given its share. -/
theorem exists_adminRecovery_iff
    (hstand : base.MembersStand setting.bootstrap setting.members)
    (hopen : base.initializing = .ok setting.initializing) :
    (∃ result, setting.adminRecovery { base } key = .ok result) ↔
      (∃ admin, base.admin = .ok (some admin) ∧ setting.operation.requester = admin.address ∧
        setting.members.contains admin.writingKey) ∧
      base.writerOwner key = .ok none ∧
      setting.operation.validator? ≠ some setting.operation.requester ∧
      (∃ node, base.node setting.operation.requester = .ok (some node) ∧
        base.due setting.config setting.operation.requester ≤ node.balance.raw) ∧
      setting.operation.Backed setting.suite setting.config setting.log base
        (base.due setting.config setting.operation.requester) := by
  simp only [adminRecovery_eq_ok_of_stands hstand]
  constructor
  · rintro ⟨result, admin, hadmin, hrequester, hunbound, hmember, validator, hvalidator, hother,
      node, hnode, hsettle⟩
    obtain ⟨hcovers, hbacked⟩ := ((readies_rekeyed hadmin hrequester node key).exists_settle_iff
      hopen hvalidator).mp ⟨result, hsettle⟩
    refine ⟨⟨admin, hadmin, hrequester, hmember⟩, hunbound, fun hself ↦ hother ?_,
      ⟨node, hnode, hcovers⟩, hbacked⟩
    exact Option.some.inj ((validator?_eq_some hvalidator).symm.trans hself)
  · rintro ⟨⟨admin, hadmin, hrequester, hmember⟩, hunbound, hother, ⟨node, hnode, hcovers⟩,
      hbacked⟩
    obtain ⟨validator, hvalidator⟩ := exists_validator_iff.mpr hbacked.cosigned
    obtain ⟨result, hsettle⟩ := ((readies_rekeyed hadmin hrequester node key).exists_settle_iff
      hopen hvalidator).mpr ⟨hcovers, hbacked⟩
    exact ⟨result, admin, hadmin, hrequester, hunbound, hmember, validator, hvalidator,
      fun hself ↦ hother (hself ▸ validator?_eq_some hvalidator), node, hnode, hsettle⟩

/-- What a recovery leaves: the administrator, its record and the binding name the new key, the old
binding and the positions of the registry stay, and the fee is paid. -/
theorem settled_of_adminRecovery
    (hstand : base.MembersStand setting.bootstrap setting.members)
    (hopen : base.initializing = .ok setting.initializing)
    (h : setting.adminRecovery { base } key = .ok result) :
    ∃ admin node, base.admin = .ok (some admin) ∧
      setting.operation.requester = admin.address ∧
      setting.members.contains admin.writingKey ∧ ¬ setting.members.contains key ∧
      base.node setting.operation.requester = .ok (some node) ∧
      result.changes = Membership.exchange admin.writingKey key ∧
      result.view.admin = .ok (some ⟨setting.operation.requester, key⟩) ∧
      (∃ balance, result.view.node setting.operation.requester =
          .ok (some { node with writingKey := key, balance }) ∧
        balance.raw + base.due setting.config setting.operation.requester = node.balance.raw) ∧
      (∀ k, result.view.writerOwner k =
        if k = key then .ok (some setting.operation.requester) else base.writerOwner k) ∧
      result.view.writersLength = base.writersLength ∧
      setting.operation.Rewards setting.config
        (base.due setting.config setting.operation.requester) base result.view := by
  obtain ⟨admin, hadmin, hrequester, hunbound, hmember, validator, hvalidator, -, node, hnode,
    hsettle⟩ := (adminRecovery_eq_ok_of_stands hstand).mp h
  obtain ⟨hpaid, hrewards, -⟩ := (readies_rekeyed hadmin hrequester node key).settled hopen
    hvalidator hsettle
  have hmoves := movesBalances_of_settle hsettle
  refine ⟨admin, node, hadmin, hrequester, hmember,
    (hstand.governed hadmin).not_contains_of_unbound hunbound, hnode, hmoves.changes, ?_, hpaid,
    fun k ↦ ?_, ?_, hrewards⟩
  · rw [hmoves.admin, hrequester]
    exact Draft.admin_put_admin _ _
  · rw [hmoves.writerOwner, hrequester]
    show ((Draft.putWriterOwner _ key admin.address).put .admin _).view.writerOwner k = _
    rw [Draft.writerOwner_put _ (by simp), Draft.writerOwner_putWriterOwner,
      Draft.writerOwner_putNode]
    rfl
  · refine View.writersLength_congr ((hmoves.read _ (by simp)).trans ?_)
    show ((Draft.putWriterOwner _ key admin.address).put .admin _).view.read .writersLength = _
    rw [Draft.read_put, if_neg (by simp), Draft.putWriterOwner, Draft.read_put, if_neg (by simp),
      Draft.putNode, Draft.read_put, if_neg (by simp)]
    rfl

/-- The rule of a recovery. -/
theorem rule_of_adminRecovery (hkind : setting.operation.kind = .adminRecovery)
    (hbody : setting.operation.body = .roleAccess key) :
    setting.rule draft = setting.adminRecovery draft key := by
  simp only [rule, hkind, hbody]

end Setting

namespace Replica

/-! ### Keys that were never bound -/

/-- A key was bound to nobody after any initial part of a run, nor after any initial part of the
deliveries that follow it. -/
structure NeverBound (start : Replica) (events : List ReplicaEvent) (batch : List Delivery)
    (key : WritingKey) : Prop where
  run : ∀ earlier, earlier <+: events → ∀ a,
    (start.run earlier).store.view.writerOwner key ≠ .ok (some a)
  call : ∀ earlier, earlier <+: batch → ∀ a,
    ((start.run events).apply earlier).1.store.view.writerOwner key ≠ .ok (some a)

/-- Bindings last, so that a key was never bound if it is bound to nobody now. -/
theorem neverBound_iff {start : Replica} {events : List ReplicaEvent} {batch : List Delivery}
    {key : WritingKey} (hlegible : ((start.run events).apply batch).1.store.view.Legible) :
    start.NeverBound events batch key ↔
      ((start.run events).apply batch).1.store.view.writerOwner key = .ok none := by
  constructor
  · intro h
    obtain ⟨owner?, howner⟩ := hlegible.writerOwner key
    cases owner? with
    | none => exact howner
    | some a => exact absurd howner (h.call batch (List.prefix_refl batch) a)
  · intro hnone
    refine ⟨?_, ?_⟩
    · rintro earlier ⟨later, rfl⟩ a howner
      have hstill := writerOwner_run (start.run earlier) (later ++ [.batch batch]) howner
      rw [← run_append, ← List.append_assoc, run_batch, hnone] at hstill
      cases hstill
    · rintro earlier ⟨later, rfl⟩ a howner
      have hstill := writerOwner_run ((start.run events).apply earlier).1 [.batch later] howner
      rw [apply_append] at hnone
      exact absurd (hstill.symm.trans hnone) (by simp)

/-- **The administrator changes its key exactly when it may.** After any run and any deliveries of
the same call, a delivered recovery to a writing key that passes every check but those of its rule
is applied if and only if its requester is the registered administrator and its current key is a
member, the new key was never bound to anyone, the validator is somebody else and passes its checks,
the administrator can pay the fee, which it does not owe during initialization, and the validator's
share, if there is a fee, can be computed and received.

Then the admin record, the administrator's record and the binding of the new key name one another,
the old key stays bound to the administrator, no position of the registry is taken, the fee is paid
and nothing else changes in the record of the administrator, and the new key stands in the place of
the old one among the members, even if that was the only member. If it is not applied, nothing
changes. -/
theorem admin_recovers_exactly (engine : Engine) (bootstrap : WritingKey) (txValidity : Hash)
    (events : List ReplicaEvent) (batch : List Delivery) (delivery : Delivery) {op : Operation}
    {key : WritingKey}
    (hadmits : (((fresh engine bootstrap txValidity).run events).apply batch).1.Admits delivery op)
    (hkind : op.kind = .adminRecovery) (hbody : op.body = .roleAccess key) :
    let start := fresh engine bootstrap txValidity
    let replica := start.run events
    let before := (replica.apply batch).1
    let after := (replica.apply (batch ++ [delivery])).1
    let requester := op.requester
    let fee := if before.store.view.initializesAs requester then 0 else engine.config.fee.raw
    ∃ outcome, (replica.apply (batch ++ [delivery])).2.outcomes =
        (replica.apply batch).2.outcomes ++ [outcome] ∧
      (outcome.verdict = .applied ↔
        (∃ admin, before.store.view.admin = .ok (some admin) ∧ requester = admin.address ∧
          before.members.contains admin.writingKey) ∧
        start.NeverBound events batch key ∧
        op.validator? ≠ some requester ∧
        (∃ node, before.node requester = .ok (some node) ∧ fee ≤ node.balance.raw) ∧
        op.Backed engine.suite engine.config delivery.log before.store.view fee) ∧
      (outcome.verdict = .applied → ∃ admin node balance,
        before.store.view.admin = .ok (some admin) ∧ admin.address = requester ∧
        before.node requester = .ok (some node) ∧
        after.store.view.admin = .ok (some ⟨requester, key⟩) ∧
        after.node requester = .ok (some { node with writingKey := key, balance }) ∧
        balance.raw + fee = node.balance.raw ∧
        after.store.view.writerOwner key = .ok (some requester) ∧
        after.store.view.writerOwner admin.writingKey = .ok (some requester) ∧
        (∀ k, k ≠ key →
          after.store.view.writerOwner k = before.store.view.writerOwner k) ∧
        after.store.view.writersLength = before.store.view.writersLength ∧
        op.Rewards engine.config fee before.store.view after.store.view ∧
        (∀ k, after.members.contains k ↔
          k = key ∨ (k ≠ admin.writingKey ∧ before.members.contains k)) ∧
        after.members.size = before.members.size) ∧
      (outcome.verdict ≠ .applied → after = before) := by
  intro start replica before after requester fee
  obtain ⟨initializing, hreached, hdecides⟩ := exists_reached hadmits
  have hstand := hreached.members
  have hopen := hreached.opened
  let setting := before.setting op delivery.log initializing
  have hrule (draft : Draft) : setting.rule draft = setting.adminRecovery draft key :=
    Setting.rule_of_adminRecovery hkind hbody
  refine ⟨before.outcome delivery, outcomes_concat replica batch delivery, ?_, fun hverdict ↦ ?_,
    hdecides.skipped⟩
  · rw [hdecides.applied_iff, hrule, Setting.exists_adminRecovery_iff hstand hopen,
      hreached.config, hreached.suite, neverBound_iff hreached.legible]
    exact Iff.rfl
  · obtain ⟨draft, hjudged⟩ := hdecides.applied_iff.mp hverdict
    obtain ⟨admin, node, hadmin, hrequester, hold, hnew, hbefore, hchanges, hnamed,
      ⟨balance, hafter, hpaid⟩, howner, hlength, hrewards⟩ :=
      Setting.settled_of_adminRecovery hstand hopen ((hrule _).symm.trans hjudged)
    rw [hreached.config] at hpaid hrewards
    have hview := hdecides.view draft hjudged
    have hnode := hdecides.node_eq hjudged
    have hbound (k : WritingKey) : after.store.view.writerOwner k =
        if k = key then .ok (some requester) else before.store.view.writerOwner k := by
      rw [hview, Draft.writerOwner_put _ (by simp)]
      exact howner k
    have hne : admin.writingKey ≠ key := fun heq ↦ hnew (heq ▸ hold)
    have hgoverned := hstand.governed hadmin
    obtain ⟨-, -, -, -, hkept⟩ := hgoverned.adminStands.record hgoverned.keysBound hadmin
    refine ⟨admin, node, balance, hadmin, hrequester.symm, hbefore, ?_,
      (hnode requester).trans hafter, hpaid, (hbound key).trans (if_pos rfl), ?_,
      fun k hk ↦ (hbound k).trans (if_neg hk), ?_, hrewards.congr hnode, fun k ↦ ?_, ?_⟩
    · rw [hview, Draft.admin_put _ (by simp)]
      exact hnamed
    · rw [hbound, if_neg hne, hkept]
      exact congrArg (Except.ok ∘ some) hrequester.symm
    · rw [hview]
      exact (View.writersLength_congr ((draft.read_put _ _ _).trans (if_neg (by simp)))).trans
        hlength
    · rw [hdecides.members draft hjudged, hchanges]
      exact Membership.contains_exchange_iff hold hnew k
    · rw [hdecides.members draft hjudged, hchanges]
      exact Membership.size_exchange hold hnew

end Replica

/-! ### The only member changes its key -/

namespace ZeroFounding

/-- The administrator, who is the only member, moves to another writing key. The second participant,
who is a writer by now, cosigns this. -/
def rekeying : Operation where
  kind := .adminRecovery
  requester := participant 1
  tx := Message.requesterHash suite .adminRecovery (participant 1) .zero (.roleAccess (repeated 3))
    (repeated 7)
  txValidity := .zero
  nonce := repeated 7
  signature := .zero
  body := .roleAccess (repeated 3)
  cosignature := some { validator := participant 2, nonce := repeated 7, signature := .zero }

/-- The recovery on the log of the second participant. -/
def rekeyed : Delivery := ⟨repeated 2, rekeying.toRaw.serialize⟩

theorem rekeying_applied :
    (chargingBlank.apply ((candidacy ++ [enlisted]) ++ [rekeyed])).2.outcomes.getLast? =
      some ⟨some (.adminRecovery, rekeying.tx), .applied⟩ := by
  decide +kernel

theorem admits_rekeying :
    (chargingBlank.apply (candidacy ++ [enlisted])).1.Admits rekeyed rekeying :=
  Replica.admits_of_getLast ⟨rfl, fun _ ↦ rfl⟩ rfl rekeying_applied

/-- The administrator is under the new key, and the set of members has as many members as before. -/
theorem rekeying_exact :
    let before := (chargingBlank.apply (candidacy ++ [enlisted])).1
    let after := (chargingBlank.apply ((candidacy ++ [enlisted]) ++ [rekeyed])).1
    (before.Admits rekeyed rekeying ∧ rekeying.kind = .adminRecovery ∧
        rekeying.body = .roleAccess (repeated 3)) ∧
      after.store.view.admin = .ok (some ⟨participant 1, repeated 3⟩) ∧
      after.store.view.writerOwner (repeated 3) = .ok (some (participant 1)) ∧
      after.members.contains (repeated 3) ∧ after.members.size = before.members.size := by
  obtain ⟨outcome, houtcomes, -, hexact, -⟩ := Replica.admin_recovers_exactly charging .zero .zero
    [] (candidacy ++ [enlisted]) rekeyed admits_rekeying rfl rfl
  have happlied := rekeying_applied
  rw [chargingBlank, houtcomes, List.getLast?_concat, Option.some_inj] at happlied
  obtain ⟨admin, node, balance, -, -, -, hadmin, -, -, howner, -, -, -, -, hmembers, hsize⟩ :=
    hexact (by rw [happlied])
  rw [← chargingBlank] at hadmin howner hmembers hsize
  exact ⟨⟨admits_rekeying, rfl, rfl⟩, hadmin, howner, (hmembers _).mpr (Or.inl rfl), hsize⟩

end ZeroFounding

end SettlementLedger
