import SettlementLedger.Proofs.RoleLifecycle
import SettlementLedger.Proofs.Subnetworks
import SettlementLedger.Proofs.WriterRegistry

/-!
# Writers are registered and released exactly

A registration checks what it can before it stages anything: the role, the key, the balance and the
validator. What can still fail is the binding of the key, where the registry is full, and the fee
(`Setting.exists_enrollment_iff`). That the administrator may be spared its fee plays no part, since
the administrator is a writer already (`View.MembersStand.not_administers`), and a release refuses
it. A release pays the fee out of the balance and the stake together; the key of an indexer is a
member, so that it leaves the membership set if another member stays (`Setting.departs_iff`). From
this follows when the two rules succeed (`Setting.exists_addWriter_iff`,
`Setting.exists_removeWriter_iff`) and what they leave.
-/

set_option autoImplicit false
set_option relaxedAutoImplicit false

namespace SettlementLedger

/-! ### The writer registry -/

theorem Counter.exists_next?_iff {n : UInt32} :
    (∃ next, Counter.next? n = some next) ↔ n.toNat + 1 < UInt32.size := by
  by_cases h : n.toNat + 1 < UInt32.size
  · simp [Counter.next?, h]
  · simp [Counter.next?, h]

namespace View

/-- A participant may write under a key: the key is its own, or it is bound to nobody and the
registry has a position left for it. -/
def Takes (view : View) (key : WritingKey) (a : Address) : Prop :=
  view.writerOwner key = .ok (some a) ∨
    (view.writerOwner key = .ok none ∧
      ∃ positions, view.writersLength = .ok positions ∧ positions.toNat + 1 < UInt32.size)

end View

/-- Who is not the administrator owes the whole fee. -/
theorem View.due_of_not_administers {view : View} {config : Config} {a : Address}
    (h : ¬ view.Administers a) : view.due config a = config.fee.raw := by
  rw [due, if_neg fun hopen ↦ h (initializesAs_iff.mp hopen).2]

/-- The administrator is a writer. -/
theorem View.MembersStand.not_administers {view : View} {bootstrap : WritingKey}
    {members : Membership} (h : view.MembersStand bootstrap members) {a : Address}
    {node : NodeRecord} (hnode : view.node a = .ok (some node)) (hrole : ¬ node.role.isWriter) :
    ¬ view.Administers a := by
  rintro ⟨admin, hadmin, rfl⟩
  exact (h.governed hadmin).adminStands.ne_of_not_isWriter (standing_of_node hnode) hrole admin
    hadmin rfl

/-- A key can be bound to a participant if and only if the participant may write under it. -/
theorem Draft.exists_bindWriter_iff {draft : Draft} {key : WritingKey} {a : Address} :
    (∃ bound, draft.bindWriter key a = .ok bound) ↔ draft.view.Takes key a := by
  constructor
  · rintro ⟨bound, hbound⟩
    rcases bindWriter_eq_ok.mp hbound with
      ⟨hself, -⟩ | ⟨hnone, position, length, hposition, hnext, -⟩
    · exact Or.inl hself
    · exact Or.inr ⟨hnone, position, hposition, Counter.exists_next?_iff.mp ⟨length, hnext⟩⟩
  · rintro (hself | ⟨hnone, position, hposition, hroom⟩)
    · exact ⟨draft, bindWriter_eq_ok.mpr (Or.inl ⟨hself, rfl⟩)⟩
    · obtain ⟨length, hlength⟩ := Counter.exists_next?_iff.mpr hroom
      exact ⟨_, bindWriter_eq_ok.mpr (Or.inr ⟨hnone, position, length, hposition, hlength, rfl⟩)⟩

namespace Setting

variable {setting : Setting} {base : View} {draft bound result : Draft} {node : NodeRecord}
  {key : WritingKey} {initializing : Bool}

theorem Readies.bindWriter (h : setting.Readies base draft node)
    (hbound : draft.bindWriter key setting.operation.requester = .ok bound) :
    setting.Readies base bound node where
  requester := (Draft.node_of_bindWriter hbound _).trans h.requester
  others a ha := (Draft.node_of_bindWriter hbound a).trans (h.others a ha)
  admin := by
    rw [Draft.admin_of_bindWriter hbound]
    exact h.admin
  administers := (View.administers_congr (Draft.admin_of_bindWriter hbound) _).trans h.administers

/-! ### Registration -/

/-- Once the checks have passed, binding the key and paying the fee succeed if and only if the
requester may write under the key, its record covers the fee, and the validator can be given its
share. -/
theorem exists_enrollment_iff (hlegible : base.Legible)
    (hopen : base.initializing = .ok setting.initializing) {validator : Address}
    (hvalidator : setting.validator { base } = .ok validator) (record : NodeRecord) :
    (∃ bound result, (Draft.putNode { base } setting.operation.requester record).bindWriter key
          setting.operation.requester = .ok bound ∧
        setting.settle bound setting.operation.requester .adminWaivable (some validator) =
          .ok result) ↔
      base.Takes key setting.operation.requester ∧
        base.due setting.config setting.operation.requester ≤ record.balance.raw ∧
        setting.operation.Backed setting.suite setting.config setting.log base
          (base.due setting.config setting.operation.requester) := by
  have htakes : (Draft.putNode { base } setting.operation.requester record).view.Takes key
      setting.operation.requester ↔ base.Takes key setting.operation.requester := by
    have hsame := Draft.sameRegistry_putNode { base } setting.operation.requester record
    simp only [View.Takes, hsame.owner, hsame.length]
    exact Iff.rfl
  have hready : setting.Readies base
      (Draft.putNode { base } setting.operation.requester record) record :=
    readies_putNode hlegible rfl record
  constructor
  · rintro ⟨bound, result, hbound, hsettle⟩
    exact ⟨htakes.mp (Draft.exists_bindWriter_iff.mp ⟨bound, hbound⟩),
      ((hready.bindWriter hbound).exists_settle_iff hopen hvalidator).mp ⟨result, hsettle⟩⟩
  · rintro ⟨htaken, hpayable⟩
    obtain ⟨bound, hbound⟩ := Draft.exists_bindWriter_iff.mpr (htakes.mpr htaken)
    obtain ⟨result, hsettle⟩ :=
      ((hready.bindWriter hbound).exists_settle_iff hopen hvalidator).mpr hpayable
    exact ⟨bound, result, hbound, hsettle⟩

/-- The requester becomes a writer if and only if it has only been whitelisted so far, can lock the
stake and pay the fee, and may write under the key, and the validator can be given its share. -/
theorem exists_addWriter_iff (hlegible : base.Legible) (hleveled : base.Leveled)
    (hstand : base.MembersStand setting.bootstrap setting.members)
    (hopen : base.initializing = .ok setting.initializing) :
    (∃ result, setting.addWriter { base } key = .ok result) ↔
      (∃ node, base.node setting.operation.requester = .ok (some node) ∧
          node.role = .whitelisted ∧
          setting.config.writerStake.raw + setting.config.fee.raw ≤ node.balance.raw ∧
          node.stake.raw + setting.config.writerStake.raw < Amount.limit) ∧
        base.Takes key setting.operation.requester ∧
        setting.operation.Backed setting.suite setting.config setting.log base
          setting.config.fee.raw := by
  obtain ⟨admin?, hadmin⟩ := hlegible.admin
  obtain ⟨fee, hfee, hdue⟩ := exists_feeFor { base } hopen hadmin rfl setting.operation.requester
  constructor
  · rintro ⟨result, h⟩
    obtain ⟨node, hnode, hlisted, hwriter, -, found, hfound, required, hrequired, hcovers,
      validator, hvalidator, balance, -, stake, hstake, bound, hbound, hsettle⟩ :=
      addWriter_eq_ok.mp h
    cases hfee.symm.trans hfound
    have howed : base.due setting.config setting.operation.requester = setting.config.fee.raw :=
      View.due_of_not_administers (hstand.not_administers hnode hwriter)
    rw [howed] at hdue
    rw [Amount.add?_eq_some_iff] at hrequired hstake
    have hcovers : required.raw ≤ node.balance.raw := hcovers
    obtain ⟨htaken, -, hbacked⟩ := (exists_enrollment_iff hlegible hopen hvalidator _).mp
      ⟨bound, result, hbound, hsettle⟩
    refine ⟨⟨node, hnode, ?_, by omega, ?_⟩, htaken, howed ▸ hbacked⟩
    · exact Role.eq_whitelisted_of_not_isWriter (hleveled.node hnode) hlisted hwriter
    · rw [hstake]
      exact stake.raw_lt
  · rintro ⟨⟨node, hnode, hrole, hcovers, hroom⟩, htaken, hbacked⟩
    have hwriter : ¬ node.role.isWriter := by
      rw [hrole]
      exact Bool.false_ne_true
    have howed : base.due setting.config setting.operation.requester = setting.config.fee.raw :=
      View.due_of_not_administers (hstand.not_administers hnode hwriter)
    rw [howed] at hdue
    obtain ⟨validator, hvalidator⟩ := exists_validator_iff.mpr hbacked.cosigned
    have hlt := node.balance.raw_lt
    let required : Amount := ⟨setting.config.writerStake.raw + fee.raw, by omega⟩
    let balance : Amount := ⟨node.balance.raw - setting.config.writerStake.raw, by omega⟩
    let stake : Amount := ⟨node.stake.raw + setting.config.writerStake.raw, hroom⟩
    have hbalance : node.balance.sub? setting.config.writerStake = some balance :=
      Amount.sub?_eq_some_iff.mpr (Nat.add_sub_of_le (by omega))
    let record : NodeRecord := { node with role := .writer, writingKey := key, balance, stake }
    obtain ⟨bound, result, hbound, hsettle⟩ :=
      (exists_enrollment_iff hlegible hopen hvalidator record).mpr
        ⟨htaken, Nat.le_sub_of_add_le (by omega), howed ▸ hbacked⟩
    have hrequired : required ≤ node.balance := by
      show setting.config.writerStake.raw + fee.raw ≤ node.balance.raw
      rw [hdue]
      exact hcovers
    have hfree : ∃ owner, base.writerOwner key = .ok owner ∧
        ∀ a, owner = some a → a = setting.operation.requester := by
      rcases htaken with hself | ⟨hnone, -⟩
      · exact ⟨_, hself, fun a ha ↦ (Option.some.inj ha).symm⟩
      · exact ⟨none, hnone, fun a ha ↦ by cases ha⟩
    refine ⟨result, addWriter_eq_ok.mpr ⟨node, hnode, ?_, hwriter, hfree, fee, hfee, required,
      Amount.add?_eq_some_iff.mpr rfl, hrequired, validator, hvalidator, balance, hbalance, stake,
      Amount.add?_eq_some_iff.mpr rfl, bound, hbound, hsettle⟩⟩
    rw [hrole]
    rfl

/-- What a registration leaves: the requester has locked the stake, is a writer under the key, and
has paid the fee. -/
theorem settled_of_addWriter (hlegible : base.Legible)
    (hstand : base.MembersStand setting.bootstrap setting.members)
    (hopen : base.initializing = .ok setting.initializing)
    (h : setting.addWriter { base } key = .ok result) :
    result.changes = [] ∧
      result.view.writerOwner key = .ok (some setting.operation.requester) ∧
      (∃ node balance stake, base.node setting.operation.requester = .ok (some node) ∧
        result.view.node setting.operation.requester =
          .ok (some { node with role := .writer, writingKey := key, balance, stake }) ∧
        balance.raw + (setting.config.writerStake.raw + setting.config.fee.raw) =
          node.balance.raw ∧
        stake.raw = node.stake.raw + setting.config.writerStake.raw) ∧
      setting.operation.Rewards setting.config setting.config.fee.raw base result.view := by
  obtain ⟨node, hnode, -, hwriter, -, fee, -, required, -, -, validator, hvalidator, locked,
    hlocked, stake, hstake, bound, hbound, hsettle⟩ := addWriter_eq_ok.mp h
  rw [Amount.add?_eq_some_iff] at hstake
  rw [Amount.sub?_eq_some_iff] at hlocked
  have hready : setting.Readies base bound _ := (readies_putNode hlegible rfl _).bindWriter hbound
  obtain ⟨⟨balance, hpaid, hbalance⟩, hrewards, -⟩ := hready.settled hopen hvalidator hsettle
  rw [View.due_of_not_administers (hstand.not_administers hnode hwriter)] at hbalance hrewards
  have hmoves := movesBalances_of_settle hsettle
  refine ⟨hmoves.changes.trans (Draft.changes_of_bindWriter hbound), ?_,
    ⟨node, balance, stake, hnode, hpaid, ?_, hstake.symm⟩, hrewards⟩
  · rw [hmoves.writerOwner, Draft.writerOwner_of_bindWriter hbound, if_pos rfl]
  · have hbalance : balance.raw + setting.config.fee.raw = locked.raw := hbalance
    omega

/-! ### Release -/

/-- A writer that is released leaves the membership set if it is an indexer. -/
def departure (node : NodeRecord) : MembershipDiff :=
  if node.role = .indexer then [.remove node.writingKey] else []

/-- The key of an indexer is a member, so that it leaves if another member stays. -/
theorem departs_iff (hstand : base.MembersStand setting.bootstrap setting.members)
    (hnode : base.node setting.operation.requester = .ok (some node)) {left : Draft} :
    ((node.role.isIndexer ∧
          Draft.removeMember { base } setting.members node.writingKey = .ok left) ∨
        (¬ node.role.isIndexer ∧ { base } = left)) ↔
      (node.role = .indexer →
          ∃ other, other ≠ node.writingKey ∧ setting.members.contains other) ∧
        { base, changes := departure node } = left := by
  by_cases hrole : node.role = .indexer
  · have hindexer : node.role.isIndexer := Role.isIndexer_iff.mpr hrole
    have hmember : setting.members.contains node.writingKey :=
      Operation.StandingStep.contains_of_indexer hstand hnode hindexer
    have hstays : 1 < setting.members.size ↔
        ∃ other, other ≠ node.writingKey ∧ setting.members.contains other := by
      constructor
      · exact fun hsize ↦ Membership.exists_other_of_one_lt_size hsize node.writingKey
      · rintro ⟨other, hne, hother⟩
        exact Membership.one_lt_size_of_ne hother hmember hne
    have hcontains : setting.members.containsAfter [] node.writingKey := hmember
    rw [Draft.removeMember_eq_ok, departure, if_pos hrole, ← hstays, forall_prop_of_true hrole]
    simp only [hindexer, hcontains, true_and, not_true_eq_false, false_and, or_false]
    exact Iff.rfl
  · have hindexer : ¬ node.role.isIndexer := fun h ↦ hrole (Role.isIndexer_iff.mp h)
    simp [hindexer, departure, hrole]

theorem not_administers_iff (hlegible : base.Legible) {a : Address} :
    Draft.isAdmin { base } a = .ok false ↔ ¬ base.Administers a := by
  obtain ⟨admin?, hadmin⟩ := hlegible.admin
  have hview : Draft.view { base } = base := rfl
  rw [Draft.isAdmin_eq_ok, View.Administers, hview, hadmin]
  cases admin? with
  | none => simp
  | some admin => simp

/-- A release is ready for the fee once the stake is back in the balance. -/
theorem readies_release (hlegible : base.Legible) (node : NodeRecord) (released : Amount) :
    setting.Readies base
      (Draft.putNode { base, changes := departure node } setting.operation.requester
        { node with role := .whitelisted, balance := released, stake := .zero })
      { node with role := .whitelisted, balance := released, stake := .zero } :=
  readies_putNode hlegible rfl _

/-- The requester is released if and only if it is not the administrator, it is a writer under the
key, another member stays if it is an indexer, it can pay the fee from the balance and the stake
together, and the validator can be given its share. -/
theorem exists_removeWriter_iff (hlegible : base.Legible)
    (hstand : base.MembersStand setting.bootstrap setting.members)
    (hopen : base.initializing = .ok setting.initializing) :
    (∃ result, setting.removeWriter { base } key = .ok result) ↔
      ¬ base.Administers setting.operation.requester ∧
        (∃ node, base.node setting.operation.requester = .ok (some node) ∧
          (node.role = .writer ∨ node.role = .indexer) ∧ node.writingKey = key ∧
          (node.role = .indexer → ∃ other, other ≠ key ∧ setting.members.contains other) ∧
          node.balance.raw + node.stake.raw < Amount.limit ∧
          setting.config.fee.raw ≤ node.balance.raw + node.stake.raw) ∧
        setting.operation.Backed setting.suite setting.config setting.log base
          setting.config.fee.raw := by
  constructor
  · rintro ⟨result, h⟩
    obtain ⟨hnot, node, hnode, hwriter, hkey, validator, hvalidator, left, hleft, released,
      hreleased, hsettle⟩ := removeWriter_eq_ok.mp h
    obtain ⟨hstays, rfl⟩ := (departs_iff hstand hnode).mp hleft
    rw [Amount.add?_eq_some_iff] at hreleased
    obtain ⟨hcovers, hbacked⟩ := ((readies_release hlegible node released).exists_settle_iff hopen
      hvalidator).mp ⟨result, hsettle⟩
    have hnot := (not_administers_iff hlegible).mp hnot
    rw [View.due_of_not_administers hnot] at hcovers hbacked
    refine ⟨hnot, ⟨node, hnode, Role.isWriter_iff.mp hwriter, hkey.symm, hkey ▸ hstays,
      ?_, ?_⟩, hbacked⟩
    · rw [hreleased]
      exact released.raw_lt
    · rw [hreleased]
      exact hcovers
  · rintro ⟨hnot, ⟨node, hnode, hwriter, rfl, hstays, hfits, hcovers⟩, hbacked⟩
    obtain ⟨validator, hvalidator⟩ := exists_validator_iff.mpr hbacked.cosigned
    let released : Amount := ⟨node.balance.raw + node.stake.raw, hfits⟩
    obtain ⟨result, hsettle⟩ := ((readies_release hlegible node released).exists_settle_iff hopen
      hvalidator).mpr (by rw [View.due_of_not_administers hnot]; exact ⟨hcovers, hbacked⟩)
    exact ⟨result, removeWriter_eq_ok.mpr ⟨(not_administers_iff hlegible).mpr hnot, node, hnode,
      Role.isWriter_iff.mpr hwriter, rfl, validator, hvalidator, _,
      (departs_iff hstand hnode).mpr ⟨hstays, rfl⟩, released, Amount.add?_eq_some_iff.mpr rfl,
      hsettle⟩⟩

/-- What a release leaves: the stake is back in the balance, from which the fee is paid, and the
requester is whitelisted. -/
theorem settled_of_removeWriter (hlegible : base.Legible)
    (hstand : base.MembersStand setting.bootstrap setting.members)
    (hopen : base.initializing = .ok setting.initializing)
    (h : setting.removeWriter { base } key = .ok result) :
    ∃ node, base.node setting.operation.requester = .ok (some node) ∧ node.writingKey = key ∧
      result.changes = departure node ∧
      (∃ released balance : Amount, released.raw = node.balance.raw + node.stake.raw ∧
        balance.raw + setting.config.fee.raw = released.raw ∧
        result.view.node setting.operation.requester =
          .ok (some { node with role := .whitelisted, balance, stake := .zero })) ∧
      setting.operation.Rewards setting.config setting.config.fee.raw base result.view := by
  obtain ⟨hnot, node, hnode, -, hkey, validator, hvalidator, left, hleft, released, hreleased,
    hsettle⟩ := removeWriter_eq_ok.mp h
  obtain ⟨-, rfl⟩ := (departs_iff hstand hnode).mp hleft
  rw [Amount.add?_eq_some_iff] at hreleased
  obtain ⟨⟨balance, hpaid, hbalance⟩, hrewards, -⟩ :=
    (readies_release hlegible node released).settled hopen hvalidator hsettle
  rw [View.due_of_not_administers ((not_administers_iff hlegible).mp hnot)] at hbalance hrewards
  exact ⟨node, hnode, hkey.symm, (movesBalances_of_settle hsettle).changes,
    ⟨released, balance, hreleased.symm, hbalance, hpaid⟩, hrewards⟩

/-- The members after a release. -/
theorem contains_departure_iff (members : Membership) (node : NodeRecord) (k : WritingKey) :
    (members.applyAll (departure node)).contains k ↔
      members.contains k ∧ ¬ (node.role = .indexer ∧ k = node.writingKey) := by
  by_cases hrole : node.role = .indexer
  · rw [departure, if_pos hrole]
    refine (members.contains_remove_iff node.writingKey k).trans ?_
    simp [hrole, and_comm]
  · rw [departure, if_neg hrole]
    simp [Membership.applyAll, hrole]

/-- The rule of a registration. -/
theorem rule_of_addWriter (hkind : setting.operation.kind = .addWriter)
    (hbody : setting.operation.body = .roleAccess key) :
    setting.rule draft = setting.addWriter draft key := by
  simp only [rule, hkind, hbody]

/-- The rule of a release. -/
theorem rule_of_removeWriter (hkind : setting.operation.kind = .removeWriter)
    (hbody : setting.operation.body = .roleAccess key) :
    setting.rule draft = setting.removeWriter draft key := by
  simp only [rule, hkind, hbody]

end Setting

namespace Replica

/-- **Writers are registered and released exactly.** After any run and any deliveries of the same
call, take a delivered operation on a writing key that passes every check but those of its rule.

A registration is applied if and only if the requester has only been whitelisted so far and can lock
the stake and pay the fee, the key is its own, or is bound to nobody and the registry has a position
left, the locked stake is in range, the validator passes its checks, and its share can be computed
and received. Then the stake and the fee leave the balance, the stake is locked, and the requester
is a writer under the key.

A release is applied if and only if the requester is not the administrator but a writer under the
key, another member stays if it is an indexer, its balance and stake together are in range and cover
the fee, and the validator, which may be the requester, passes its checks and can be given its
share. Then the whole stake is back in the balance, from which the fee is paid, the requester is
whitelisted, and the key has left the membership set if it was the key of an indexer.

Nobody else has another record, the validator apart, and if an operation is not applied, nothing
changes. -/
theorem writers_come_and_go_exactly (engine : Engine) (bootstrap : WritingKey) (txValidity : Hash)
    (events : List ReplicaEvent) (batch : List Delivery) (delivery : Delivery) {op : Operation}
    {key : WritingKey}
    (hadmits : (((fresh engine bootstrap txValidity).run events).apply batch).1.Admits delivery op)
    (hbody : op.body = .roleAccess key) :
    let replica := (fresh engine bootstrap txValidity).run events
    let before := (replica.apply batch).1
    let after := (replica.apply (batch ++ [delivery])).1
    let requester := op.requester
    let stake := engine.config.writerStake
    let fee := engine.config.fee
    ∃ outcome, (replica.apply (batch ++ [delivery])).2.outcomes =
        (replica.apply batch).2.outcomes ++ [outcome] ∧
      (op.kind = .addWriter →
        (outcome.verdict = .applied ↔
          (∃ node, before.node requester = .ok (some node) ∧ node.role = .whitelisted ∧
            stake.raw + fee.raw ≤ node.balance.raw ∧ node.stake.raw + stake.raw < Amount.limit) ∧
          (before.store.view.writerOwner key = .ok (some requester) ∨
            (before.store.view.writerOwner key = .ok none ∧
              ∃ positions, before.store.view.writersLength = .ok positions ∧
                positions.toNat + 1 < UInt32.size)) ∧
          op.Backed engine.suite engine.config delivery.log before.store.view fee.raw) ∧
        (outcome.verdict = .applied →
          (∃ node balance locked, before.node requester = .ok (some node) ∧
            after.node requester = .ok (some
              { node with role := .writer, writingKey := key, balance, stake := locked }) ∧
            balance.raw + (stake.raw + fee.raw) = node.balance.raw ∧
            locked.raw = node.stake.raw + stake.raw) ∧
          after.store.view.writerOwner key = .ok (some requester) ∧
          op.Rewards engine.config fee.raw before.store.view after.store.view ∧
          after.members = before.members)) ∧
      (op.kind = .removeWriter →
        (outcome.verdict = .applied ↔
          ¬ before.store.view.Administers requester ∧
          (∃ node, before.node requester = .ok (some node) ∧
            (node.role = .writer ∨ node.role = .indexer) ∧ node.writingKey = key ∧
            (node.role = .indexer → ∃ other, other ≠ key ∧ before.members.contains other) ∧
            node.balance.raw + node.stake.raw < Amount.limit ∧
            fee.raw ≤ node.balance.raw + node.stake.raw) ∧
          op.Backed engine.suite engine.config delivery.log before.store.view fee.raw) ∧
        (outcome.verdict = .applied →
          ∃ node, before.node requester = .ok (some node) ∧ node.writingKey = key ∧
            (∃ released balance : Amount, released.raw = node.balance.raw + node.stake.raw ∧
              balance.raw + fee.raw = released.raw ∧
              after.node requester = .ok (some
                { node with role := .whitelisted, balance, stake := .zero })) ∧
            op.Rewards engine.config fee.raw before.store.view after.store.view ∧
            ∀ k, after.members.contains k ↔
              before.members.contains k ∧ ¬ (node.role = .indexer ∧ k = key))) ∧
      (outcome.verdict ≠ .applied → after = before) := by
  intro replica before after requester stake fee
  obtain ⟨initializing, hreached, hdecides⟩ := exists_reached hadmits
  have hlegible := hreached.legible
  have hstand := hreached.members
  have hopen := hreached.opened
  let setting := before.setting op delivery.log initializing
  refine ⟨before.outcome delivery, outcomes_concat replica batch delivery, fun hkind ↦ ?_,
    fun hkind ↦ ?_, hdecides.skipped⟩
  · have hrule (draft : Draft) : setting.rule draft = setting.addWriter draft key :=
      Setting.rule_of_addWriter hkind hbody
    refine ⟨?_, fun hverdict ↦ ?_⟩
    · rw [hdecides.applied_iff, hrule, Setting.exists_addWriter_iff hlegible hreached.leveled hstand
        hopen, hreached.config, hreached.suite]
      exact Iff.rfl
    · obtain ⟨draft, hjudged⟩ := hdecides.applied_iff.mp hverdict
      obtain ⟨hchanges, howner, hlocked, hrewards⟩ :=
        Setting.settled_of_addWriter hlegible hstand hopen ((hrule _).symm.trans hjudged)
      rw [hreached.config] at hlocked hrewards
      have hnode := hdecides.node_eq hjudged
      obtain ⟨node, balance, locked, hbefore, hafter, hpaid⟩ := hlocked
      refine ⟨⟨node, balance, locked, hbefore, (hnode requester).trans hafter, hpaid⟩, ?_,
        hrewards.congr hnode, ?_⟩
      · rw [hdecides.view draft hjudged, Draft.writerOwner_put _ (by simp)]
        exact howner
      · rw [hdecides.members draft hjudged, hchanges]
        rfl
  · have hrule (draft : Draft) : setting.rule draft = setting.removeWriter draft key :=
      Setting.rule_of_removeWriter hkind hbody
    refine ⟨?_, fun hverdict ↦ ?_⟩
    · rw [hdecides.applied_iff, hrule, Setting.exists_removeWriter_iff hlegible hstand hopen,
        hreached.config, hreached.suite]
      exact Iff.rfl
    · obtain ⟨draft, hjudged⟩ := hdecides.applied_iff.mp hverdict
      obtain ⟨node, hbefore, rfl, hchanges, ⟨released, balance, hreleased, hpaid, hafter⟩,
        hrewards⟩ := Setting.settled_of_removeWriter hlegible hstand hopen
          ((hrule _).symm.trans hjudged)
      rw [hreached.config] at hpaid hrewards
      have hnode := hdecides.node_eq hjudged
      refine ⟨node, hbefore, rfl, ⟨released, balance, hreleased, hpaid,
        (hnode requester).trans hafter⟩, hrewards.congr hnode, fun k ↦ ?_⟩
      rw [hdecides.members draft hjudged, hchanges]
      exact Setting.contains_departure_iff before.members node k

end Replica

/-! ### A writer that comes and goes -/

namespace ZeroFounding

/-- The second participant has three tokens and is whitelisted. -/
def candidacy : List Delivery :=
  allowance ++ [deliver .zero .appendWhitelist (.adminControl (participant 2)) 1 4]

/-- The second participant asks to write under a key. The administrator cosigns this. -/
def enlistment : Operation where
  kind := .addWriter
  requester := participant 2
  tx := Message.requesterHash suite .addWriter (participant 2) .zero (.roleAccess (repeated 2))
    (repeated 5)
  txValidity := .zero
  nonce := repeated 5
  signature := .zero
  body := .roleAccess (repeated 2)
  cosignature := some { validator := participant 1, nonce := repeated 5, signature := .zero }

/-- The new writer asks to be released, and cosigns this itself. -/
def release : Operation where
  kind := .removeWriter
  requester := participant 2
  tx := Message.requesterHash suite .removeWriter (participant 2) .zero (.roleAccess (repeated 2))
    (repeated 6)
  txValidity := .zero
  nonce := repeated 6
  signature := .zero
  body := .roleAccess (repeated 2)
  cosignature := some { validator := participant 2, nonce := repeated 6, signature := .zero }

/-- The registration on the log of the administrator. -/
def enlisted : Delivery := ⟨.zero, enlistment.toRaw.serialize⟩

/-- The release on the log of the new writer. -/
def released : Delivery := ⟨repeated 2, release.toRaw.serialize⟩

/-- The registration and the release are both applied. -/
theorem enlistment_and_release_applied :
    (chargingBlank.apply (candidacy ++ [enlisted])).2.outcomes.getLast? =
        some ⟨some (.addWriter, enlistment.tx), .applied⟩ ∧
      (chargingBlank.apply ((candidacy ++ [enlisted]) ++ [released])).2.outcomes.getLast? =
        some ⟨some (.removeWriter, release.tx), .applied⟩ := by
  have hlast : (chargingBlank.apply
      ((candidacy ++ [enlisted]) ++ [released])).2.outcomes.reverse.take 2 =
        [⟨some (.removeWriter, release.tx), .applied⟩,
          ⟨some (.addWriter, enlistment.tx), .applied⟩] := by
    decide +kernel
  simp only [Replica.outcomes_concat, List.reverse_append, List.reverse_singleton,
    List.singleton_append, List.take_succ_cons, List.take_zero, List.cons.injEq] at hlast
  simp only [Replica.outcomes_concat, List.getLast?_concat, hlast.1, hlast.2.1, and_self]

theorem admits_enlistment : (chargingBlank.apply candidacy).1.Admits enlisted enlistment :=
  Replica.admits_of_getLast ⟨rfl, fun _ ↦ rfl⟩ rfl enlistment_and_release_applied.1

theorem admits_release :
    (chargingBlank.apply (candidacy ++ [enlisted])).1.Admits released release :=
  Replica.admits_of_getLast ⟨rfl, fun _ ↦ rfl⟩ rfl enlistment_and_release_applied.2

/-- The second participant locks a token and pays another one, and gets the locked token back for a
third one when it releases itself. -/
theorem writer_came_and_went :
    let before := (chargingBlank.apply candidacy).1
    let middle := (chargingBlank.apply (candidacy ++ [enlisted])).1
    let after := (chargingBlank.apply ((candidacy ++ [enlisted]) ++ [released])).1
    (before.Admits enlisted enlistment ∧ enlistment.body = .roleAccess (repeated 2) ∧
      ∃ node balance locked, before.node (participant 2) = .ok (some node) ∧
        middle.node (participant 2) = .ok (some
          { node with role := .writer, writingKey := repeated 2, balance, stake := locked }) ∧
        balance.raw + (Amount.whole 2).raw = node.balance.raw ∧
        locked.raw = node.stake.raw + (Amount.whole 1).raw) ∧
      middle.Admits released release ∧ release.body = .roleAccess (repeated 2) ∧
      ∃ node balance, middle.node (participant 2) = .ok (some node) ∧
        node.writingKey = repeated 2 ∧
        after.node (participant 2) = .ok (some
          { node with role := .whitelisted, balance, stake := .zero }) ∧
        balance.raw + (Amount.whole 1).raw = node.balance.raw + node.stake.raw := by
  obtain ⟨first, hfirst, hjoins, -, -⟩ := Replica.writers_come_and_go_exactly charging .zero .zero
    [] candidacy enlisted admits_enlistment rfl
  obtain ⟨second, hsecond, -, hleaves, -⟩ := Replica.writers_come_and_go_exactly charging .zero
    .zero [] (candidacy ++ [enlisted]) released admits_release rfl
  obtain ⟨henlisted, hreleased⟩ := enlistment_and_release_applied
  rw [chargingBlank, hfirst, List.getLast?_concat, Option.some_inj] at henlisted
  rw [chargingBlank, hsecond, List.getLast?_concat, Option.some_inj] at hreleased
  obtain ⟨⟨node, balance, locked, hnode, hmiddle, hpaid, hlocked⟩, -⟩ :=
    (hjoins rfl).2 (by rw [henlisted])
  obtain ⟨writer, hwriter, hkey, ⟨returned, rest, hreturned, hrest, hafter⟩, -⟩ :=
    (hleaves rfl).2 (by rw [hreleased])
  rw [← chargingBlank] at hnode hmiddle hwriter hafter
  exact ⟨⟨admits_enlistment, rfl, node, balance, locked, hnode, hmiddle, hpaid, hlocked⟩,
    admits_release, rfl, writer, rest, hwriter, hkey, hafter, hrest.trans hreturned⟩

end ZeroFounding

end SettlementLedger
