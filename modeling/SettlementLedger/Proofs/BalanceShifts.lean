import SettlementLedger.Proofs.Supply

/-!
# What is taken and what is given

A rule moves balances by writing whole records one after the other. `View.Shifts` is what a sequence
of such writes amounts to, whichever of the records are the same: the balance of every participant
changes by what is taken from it and given to it, nothing else of its record does, and no entry is
written but those that are listed. One write shifts one balance (`Draft.shifts_putNode`), and shifts
add up (`View.Shifts.trans`).

The fee and the validator's share are such a shift (`Setting.shifts_of_settle`), and
`Setting.exists_settle_iff` says when they can be paid.
-/

set_option autoImplicit false
set_option relaxedAutoImplicit false

namespace SettlementLedger

/-! ### Flows -/

/-- What is taken from each participant and what is given to it, in base units. -/
structure Flow where
  taken : Address → Nat
  given : Address → Nat

namespace Flow

/-- Nothing is taken or given. -/
def zero : Flow := ⟨fun _ ↦ 0, fun _ ↦ 0⟩

/-- Something is taken from one participant and something is given to it. -/
def single (a : Address) (taken given : Nat) : Flow :=
  ⟨fun b ↦ if b = a then taken else 0, fun b ↦ if b = a then given else 0⟩

/-- Two flows one after the other. -/
def add (first second : Flow) : Flow :=
  ⟨fun a ↦ first.taken a + second.taken a, fun a ↦ first.given a + second.given a⟩

/-- A fee is taken from its payer, and a share is given to the validator, unless it is the payer. -/
def settlement (payer validator : Address) (fee share : Nat) : Flow :=
  ⟨fun a ↦ if a = payer then fee else 0,
    fun a ↦ if a = validator ∧ validator ≠ payer then share else 0⟩

end Flow

/-! ### Shifts -/

/-- The balances of a view change by a flow, records that were absent counting as empty ones.
Nothing else of a record changes; the records that exist are those that did and those that were
opened; and only the listed entries are written. -/
structure View.Shifts (before after : View) (flow : Flow) (opened : List Address)
    (written : List ViewKey) : Prop where
  node : ∀ a old?, before.node a = .ok old? → ∃ new? balance, after.node a = .ok new? ∧
    new?.getD {} = { old?.getD {} with balance } ∧
    balance.raw + flow.taken a = (old?.getD {}).balance.raw + flow.given a ∧
    (new?.isSome ↔ old?.isSome ∨ a ∈ opened)
  other : ∀ text, (∀ key ∈ written, text ≠ key.text) → after text = before text

namespace View.Shifts

variable {before middle after : View} {flow flow' : Flow} {opened opened' : List Address}
  {written written' : List ViewKey}

theorem refl (view : View) : view.Shifts view .zero [] [] where
  node a old? hold := ⟨old?, (old?.getD {}).balance, hold, rfl, rfl, by simp⟩
  other _ _ := rfl

/-- Shifts add up. -/
theorem trans (h : before.Shifts middle flow opened written)
    (h' : middle.Shifts after flow' opened' written') :
    before.Shifts after (flow.add flow') (opened ++ opened') (written ++ written') where
  node a old? hold := by
    obtain ⟨middle?, balance, hmiddle, hrecord, hbalance, hexists⟩ := h.node a old? hold
    obtain ⟨new?, balance', hnew, hrecord', hbalance', hexists'⟩ := h'.node a middle? hmiddle
    rw [hrecord] at hrecord' hbalance'
    refine ⟨new?, balance', hnew, hrecord', ?_, ?_⟩
    · show balance'.raw + (flow.taken a + flow'.taken a) =
        (old?.getD {}).balance.raw + (flow.given a + flow'.given a)
      have hlast : balance'.raw + flow'.taken a = balance.raw + flow'.given a := hbalance'
      omega
    · rw [hexists', hexists, List.mem_append, or_assoc]
  other text hnot := by
    rw [h'.other text fun key hkey ↦ hnot key (List.mem_append_right _ hkey),
      h.other text fun key hkey ↦ hnot key (List.mem_append_left _ hkey)]

/-- A shift is also one by a flow with the same difference, and by a longer list of entries. -/
theorem weaken (h : before.Shifts after flow opened written)
    (hflow : ∀ a, flow.given a + flow'.taken a = flow'.given a + flow.taken a)
    (hwritten : ∀ key ∈ written, key ∈ written') :
    before.Shifts after flow' opened written' where
  node a old? hold := by
    obtain ⟨new?, balance, hnew, hrecord, hbalance, hexists⟩ := h.node a old? hold
    have hdifference := hflow a
    exact ⟨new?, balance, hnew, hrecord, by omega, hexists⟩
  other text hnot := h.other text fun key hkey ↦ hnot key (hwritten key hkey)

/-- A record that there was is there afterwards, and only its balance may be another one. -/
theorem exists_balance (h : before.Shifts after flow opened written) {a : Address}
    {node : NodeRecord} (hnode : before.node a = .ok (some node)) :
    ∃ balance, after.node a = .ok (some { node with balance }) ∧
      balance.raw + flow.taken a = node.balance.raw + flow.given a := by
  obtain ⟨new?, balance, hnew, hrecord, hbalance, hexists⟩ := h.node a _ hnode
  obtain ⟨new, rfl⟩ := Option.isSome_iff_exists.mp (hexists.mpr (Or.inl rfl))
  have hrecord : new = { node with balance } := hrecord
  exact ⟨balance, hrecord ▸ hnew, hbalance⟩

/-- A record that there was is there afterwards, with the balance that the flow leaves. -/
theorem exists_node (h : before.Shifts after flow opened written) {a : Address}
    {node : NodeRecord} (hnode : before.node a = .ok (some node)) :
    ∃ new, after.node a = .ok (some new) ∧
      new.balance.raw + flow.taken a = node.balance.raw + flow.given a := by
  obtain ⟨balance, hnew, hbalance⟩ := h.exists_balance hnode
  exact ⟨_, hnew, hbalance⟩

end View.Shifts

namespace Draft

variable {draft : Draft} {address : Address}

/-- A write to another entry shifts no balance. -/
theorem shifts_put (draft : Draft) {key : ViewKey} (hkey : ∀ a, key ≠ .node a) (value : Bytes) :
    draft.view.Shifts (draft.put key value).view .zero [] [key] where
  node a old? hold :=
    ⟨old?, (old?.getD {}).balance, (draft.node_put hkey value a).trans hold, rfl, rfl, by simp⟩
  other text hnot := draft.view_put_of_ne (hnot key (List.mem_singleton_self _)) value

/-- One write shifts one balance. -/
theorem shifts_putNode {node? : Option NodeRecord} {balance : Amount} {taken given : Nat}
    (hnode : draft.view.node address = .ok node?)
    (hbalance : balance.raw + taken = (node?.getD {}).balance.raw + given) :
    draft.view.Shifts (draft.putNode address { node?.getD {} with balance }).view
      (.single address taken given) [address] [.node address] where
  node a old? hold := by
    rw [node_putNode]
    by_cases ha : a = address
    · rw [ha, hnode] at hold
      cases hold
      refine ⟨some { node?.getD {} with balance }, balance, if_pos ha, rfl, ?_, by simp [ha]⟩
      simpa only [Flow.single, if_pos ha] using hbalance
    · refine ⟨old?, (old?.getD {}).balance, (if_neg ha).trans hold, rfl, ?_, by simp [ha]⟩
      simp only [Flow.single, if_neg ha]
  other text hnot := draft.view_put_of_ne (hnot _ (List.mem_singleton_self _)) _

/-- One write to a record that there is opens none. -/
theorem shifts_putNode_some {node : NodeRecord} {balance : Amount} {taken given : Nat}
    (hnode : draft.view.node address = .ok (some node))
    (hbalance : balance.raw + taken = node.balance.raw + given) :
    draft.view.Shifts (draft.putNode address { node with balance }).view
      (.single address taken given) [] [.node address] where
  node a old? hold := by
    obtain ⟨new?, balance, hnew, hrecord, hshifted, hexists⟩ :=
      (shifts_putNode hnode hbalance).node a old? hold
    refine ⟨new?, balance, hnew, hrecord, hshifted, hexists.trans ?_⟩
    by_cases ha : a = address
    · rw [ha, hnode] at hold
      cases hold
      simp
    · simp [ha]
  other := (shifts_putNode hnode hbalance).other

end Draft

/-! ### Fees -/

/-- The fee that a payer owes, unless everybody does: nothing while it initializes the ledger. -/
def View.due (view : View) (config : Config) (payer : Address) : Nat :=
  if view.initializesAs payer then 0 else config.fee.raw

/-- The share of a fee that a validator receives, in base units. -/
def Config.shareOf (config : Config) (fee : Nat) : Nat :=
  fee * config.validatorRewardPercent.toNat / 10000

namespace Setting

variable {setting : Setting} {draft result : Draft} {payer validator : Address}
  {policy : FeePolicy} {fee : Amount}

/-- Of a draft, only the administrator matters to the fee. -/
theorem feeFor_congr {first second : Draft} (h : first.view.admin = second.view.admin)
    (payer : Address) (policy : FeePolicy) :
    setting.feeFor first payer policy = setting.feeFor second payer policy := by
  unfold feeFor Draft.isAdmin Draft.admin
  rw [h]

/-- The fee that a payer owes can be found. Of the administrator only this matters, whether it is
the payer. -/
theorem exists_feeFor_of_administers (draft : Draft) {base : View}
    (hopen : base.initializing = .ok setting.initializing)
    {admin? : Option AdminRecord} (hadmin : draft.view.admin = .ok admin?)
    (hsame : draft.view.Administers payer ↔ base.Administers payer) :
    ∃ fee, setting.feeFor draft payer .adminWaivable = .ok fee ∧
      fee.raw = base.due setting.config payer := by
  have hfound : ∃ fee, setting.feeFor draft payer .adminWaivable = .ok fee := by
    have hasks : draft.isAdmin payer = .ok (admin?.any fun record ↦ record.address = payer) :=
      Draft.isAdmin_eq_ok.mpr ⟨admin?, hadmin, rfl⟩
    simp only [feeFor, hasks]
    split
    · exact ⟨_, rfl⟩
    · exact ⟨_, rfl⟩
  obtain ⟨fee, hfee⟩ := hfound
  have hwaives : setting.Waives .adminWaivable payer draft.view ↔ base.initializesAs payer := by
    rw [View.initializesAs_iff, hopen, Waives, hsame]
    simp
  refine ⟨fee, hfee, ?_⟩
  unfold View.due
  rcases fee_of_feeFor hfee with ⟨hwaived, rfl⟩ | ⟨hcharged, rfl⟩
  · rw [if_pos (hwaives.mp hwaived)]
    rfl
  · rw [if_neg fun h ↦ hcharged (hwaives.mpr h)]

/-- The fee that a payer owes can be found. -/
theorem exists_feeFor (draft : Draft) {base : View}
    (hopen : base.initializing = .ok setting.initializing)
    {admin? : Option AdminRecord} (hadmin : base.admin = .ok admin?)
    (hsame : draft.view.admin = base.admin) (payer : Address) :
    ∃ fee, setting.feeFor draft payer .adminWaivable = .ok fee ∧
      fee.raw = base.due setting.config payer :=
  exists_feeFor_of_administers draft hopen (hsame.trans hadmin)
    (View.administers_congr hsame payer)

/-- What a validator receives that is not the payer. -/
theorem share_of_percentage? {share : Amount} :
    fee.percentage? setting.config.rewardFactor = some share ↔
      fee.raw * setting.config.validatorRewardPercent.toNat < Amount.limit ∧
        setting.config.shareOf fee.raw = share.raw :=
  Amount.percentage?_eq_some_iff

theorem shifts_of_reward (h : setting.reward draft payer fee (some validator) = .ok result) :
    draft.view.Shifts result.view
      (.settlement payer validator 0 (setting.config.shareOf fee.raw)) [] [.node validator] := by
  rcases reward_eq_ok.mp h with ⟨hself, rfl⟩ | ⟨_, ⟨⟩, hother, share, hshare, node, hnode, balance,
    hbalance, rfl⟩
  · have hself := hself validator rfl
    refine (View.Shifts.refl draft.view).weaken (fun a ↦ ?_) fun key hkey ↦ by cases hkey
    simp [Flow.zero, Flow.settlement, hself]
  · rw [Amount.add?_eq_some_iff] at hbalance
    have hgiven : draft.view.Shifts (draft.putNode validator { node with balance }).view
        (.single validator 0 share.raw) [] [.node validator] :=
      Draft.shifts_putNode_some hnode hbalance.symm
    refine hgiven.weaken (fun a ↦ ?_) fun _ ↦ id
    simp [Flow.single, Flow.settlement, hother, (share_of_percentage?.mp hshare).2]

/-- Paying the fee takes it from the payer and gives the validator its share. -/
theorem shifts_of_settle (hfee : setting.feeFor draft payer policy = .ok fee)
    (h : setting.settle draft payer policy (some validator) = .ok result) :
    draft.view.Shifts result.view
      (.settlement payer validator fee.raw (setting.config.shareOf fee.raw)) []
      [.node payer, .node validator] := by
  obtain ⟨found, hfound, hsettled⟩ := settle_eq_ok.mp h
  cases hfee.symm.trans hfound
  rcases hsettled with ⟨hzero, rfl⟩ | ⟨-, node, hnode, balance, hbalance, hreward⟩
  · rw [Amount.isZero_iff] at hzero
    refine (View.Shifts.refl draft.view).weaken (fun a ↦ ?_) fun key hkey ↦ by cases hkey
    simp [Flow.zero, Flow.settlement, Config.shareOf, hzero]
  · rw [Amount.sub?_eq_some_iff] at hbalance
    have hpaid : draft.view.Shifts (draft.putNode payer { node with balance }).view
        (.single payer fee.raw 0) [] [.node payer] :=
      Draft.shifts_putNode_some hnode (by omega)
    refine (hpaid.trans (shifts_of_reward hreward)).weaken (fun a ↦ ?_) fun _ ↦ id
    simp [Flow.single, Flow.settlement, Flow.add]

/-- A fee that everybody pays and no validator shares in is taken from the payer, whether or not the
initialization phase is open. -/
theorem shifts_of_charge (h : setting.settle draft payer .charged none = .ok result) :
    draft.view.Shifts result.view (.single payer setting.config.fee.raw 0) [] [.node payer] := by
  obtain ⟨fee, hfee, hsettled⟩ := settle_eq_ok.mp h
  cases pure_eq_ok.mp hfee
  rcases hsettled with ⟨hzero, rfl⟩ | ⟨-, node, hnode, balance, hbalance, hreward⟩
  · rw [Amount.isZero_iff] at hzero
    refine (View.Shifts.refl draft.view).weaken (fun a ↦ ?_) fun key hkey ↦ by cases hkey
    simp [Flow.zero, Flow.single, hzero]
  · cases pure_eq_ok.mp hreward
    rw [Amount.sub?_eq_some_iff] at hbalance
    exact Draft.shifts_putNode_some hnode (by omega)

/-- The validator can be given its share if it is the payer, or else if the share can be taken and
received. -/
theorem exists_reward_iff {node : NodeRecord}
    (hvalidator : validator ≠ payer → draft.view.node validator = .ok (some node)) :
    (∃ result, setting.reward draft payer fee (some validator) = .ok result) ↔
      (validator ≠ payer → fee.raw * setting.config.validatorRewardPercent.toNat < Amount.limit ∧
        node.balance.raw + setting.config.shareOf fee.raw < Amount.limit) := by
  constructor
  · rintro ⟨result, h⟩ hother
    rcases reward_eq_ok.mp h with ⟨hself, -⟩ | ⟨_, ⟨⟩, -, share, hshare, known, hknown, credited,
      hcredited, -⟩
    · exact absurd (hself validator rfl) hother
    · cases (hvalidator hother).symm.trans hknown
      obtain ⟨hfits, hvalue⟩ := share_of_percentage?.mp hshare
      rw [Amount.add?_eq_some_iff] at hcredited
      exact ⟨hfits, by rw [hvalue, hcredited]; exact credited.raw_lt⟩
  · intro hreceives
    by_cases hself : validator = payer
    · refine ⟨draft, reward_eq_ok.mpr (Or.inl ⟨fun other hother ↦ ?_, rfl⟩)⟩
      cases hother
      exact hself
    · obtain ⟨hfits, hroom⟩ := hreceives hself
      let share : Amount := ⟨setting.config.shareOf fee.raw,
        Nat.lt_of_le_of_lt (Nat.le_add_left _ _) hroom⟩
      exact ⟨_, reward_eq_ok.mpr (Or.inr ⟨validator, rfl, hself, share,
        share_of_percentage?.mpr ⟨hfits, rfl⟩, node, hvalidator hself, ⟨_, hroom⟩,
        Amount.add?_eq_some_iff.mpr rfl, rfl⟩)⟩

/-- A fee can be paid if the payer has it, and if the share can be taken and received where the
validator is somebody else. -/
theorem exists_settle_iff {node vnode : NodeRecord}
    (hfee : setting.feeFor draft payer policy = .ok fee)
    (hnode : draft.view.node payer = .ok (some node))
    (hvalidator : draft.view.node validator = .ok (some vnode)) :
    (∃ result, setting.settle draft payer policy (some validator) = .ok result) ↔
      fee.raw ≤ node.balance.raw ∧ (validator ≠ payer → fee.raw ≠ 0 →
        fee.raw * setting.config.validatorRewardPercent.toNat < Amount.limit ∧
          vnode.balance.raw + setting.config.shareOf fee.raw < Amount.limit) := by
  have hkept (balance : Amount) (hother : validator ≠ payer) :
      (draft.putNode payer { node with balance }).view.node validator = .ok (some vnode) := by
    rw [Draft.node_putNode, if_neg hother]
    exact hvalidator
  constructor
  · rintro ⟨result, h⟩
    obtain ⟨found, hfound, hsettled⟩ := settle_eq_ok.mp h
    cases hfee.symm.trans hfound
    rcases hsettled with ⟨hzero, -⟩ | ⟨-, payerNode, hpayer, balance, hbalance, hreward⟩
    · rw [Amount.isZero_iff] at hzero
      exact ⟨by omega, fun _ hcharged ↦ absurd hzero hcharged⟩
    · cases hnode.symm.trans hpayer
      rw [Amount.sub?_eq_some_iff] at hbalance
      exact ⟨by omega, fun hother _ ↦
        (exists_reward_iff (hkept balance)).mp ⟨result, hreward⟩ hother⟩
  · rintro ⟨hcovers, hreceives⟩
    by_cases hzero : fee.isZero = true
    · exact ⟨draft, settle_eq_ok.mpr ⟨fee, hfee, Or.inl ⟨hzero, rfl⟩⟩⟩
    · have hcharged : fee.raw ≠ 0 := fun h ↦ hzero (Amount.isZero_iff.mpr h)
      let balance : Amount := ⟨node.balance.raw - fee.raw,
        Nat.lt_of_le_of_lt (Nat.sub_le _ _) node.balance.raw_lt⟩
      have hbalance : node.balance.sub? fee = some balance :=
        Amount.sub?_eq_some_iff.mpr (Nat.add_sub_of_le hcovers)
      obtain ⟨result, hreward⟩ := (exists_reward_iff (hkept balance)).mpr fun hother ↦
        hreceives hother hcharged
      exact ⟨result, settle_eq_ok.mpr
        ⟨fee, hfee, Or.inr ⟨hzero, node, hnode, balance, hbalance, hreward⟩⟩⟩

end Setting

end SettlementLedger
