import SettlementLedger.Proofs.DraftSteps

/-!
# The rules, step by step

Each rule succeeds exactly if its checks hold one after the other, and then leaves the draft that
its last step leaves. The statements here take the rules apart in this way (`…_eq_ok`), fees first,
and say which rule judges an operation (`Setting.Ruling`). What is proved of applied operations
rests on them and on nothing else of the rules.
-/

set_option autoImplicit false
set_option relaxedAutoImplicit false

namespace SettlementLedger

/-- A participant is the administrator. -/
def View.Administers (view : View) (a : Address) : Prop :=
  ∃ admin, view.admin = .ok (some admin) ∧ admin.address = a

theorem View.administers_congr {first second : View} (h : first.admin = second.admin)
    (a : Address) : first.Administers a ↔ second.Administers a := by
  rw [Administers, Administers, h]

namespace Setting

variable {setting : Setting} {draft result : Draft}

/-! ### Fees -/

/-- Whether a payer owes no fee: the administrator, while the initialization phase is open. -/
def Waives (setting : Setting) (policy : FeePolicy) (payer : Address) (view : View) : Prop :=
  policy = .adminWaivable ∧ setting.initializing ∧ view.Administers payer

/-- The fee is the configured one, unless it is waived. -/
theorem fee_of_feeFor {payer : Address} {policy : FeePolicy} {fee : Amount}
    (h : setting.feeFor draft payer policy = .ok fee) :
    (setting.Waives policy payer draft.view ∧ fee = .zero) ∨
      (¬ setting.Waives policy payer draft.view ∧ fee = setting.config.fee) := by
  cases policy with
  | charged =>
    refine Or.inr ⟨fun hwaived ↦ ?_, (pure_eq_ok.mp h).symm⟩
    cases hwaived.1
  | adminWaivable =>
    simp only [feeFor] at h
    by_cases hopen : setting.initializing = true
    · simp only [hopen, if_true, bind_eq_ok, Draft.isAdmin_eq_ok, pure_eq_ok] at h
      obtain ⟨waived, ⟨admin?, hadmin, hwaived⟩, rfl⟩ := h
      have hiff : setting.Waives .adminWaivable payer draft.view ↔ waived = true := by
        simp [Waives, View.Administers, hopen, hadmin, ← hwaived, Option.any_eq_true]
      by_cases hcase : waived = true
      · exact Or.inl ⟨hiff.mpr hcase, if_pos hcase⟩
      · exact Or.inr ⟨fun hwaives ↦ hcase (hiff.mp hwaives), if_neg hcase⟩
    · rw [if_neg hopen] at h
      exact Or.inr ⟨fun hwaived ↦ hopen hwaived.2.1, (pure_eq_ok.mp h).symm⟩

theorem reward_eq_ok {payer : Address} {fee : Amount} {validator? : Option Address} :
    setting.reward draft payer fee validator? = .ok result ↔
      ((∀ validator, validator? = some validator → validator = payer) ∧ draft = result) ∨
        ∃ validator, validator? = some validator ∧ validator ≠ payer ∧
          ∃ share, fee.percentage? setting.config.rewardFactor = some share ∧
          ∃ node, draft.view.node validator = .ok (some node) ∧
          ∃ balance, node.balance.add? share = some balance ∧
          draft.putNode validator { node with balance } = result := by
  cases validator? with
  | none => simp [reward, pure_eq_ok]
  | some validator =>
    by_cases h : validator = payer
    · simp [reward, h, pure_eq_ok]
    · simp only [reward, if_neg h, bind_eq_ok, demand_eq_ok, Draft.existingNode_eq_ok, pure_eq_ok,
        Option.some.injEq]
      constructor
      · intro hpaid
        exact Or.inr ⟨validator, rfl, h, hpaid⟩
      · rintro (⟨hself, -⟩ | ⟨_, rfl, -, hpaid⟩)
        · exact absurd (hself validator rfl) h
        · exact hpaid

/-- A zero fee touches nothing; any other fee is debited, and then the validator is rewarded. -/
theorem settle_eq_ok {payer : Address} {policy : FeePolicy} {validator? : Option Address} :
    setting.settle draft payer policy validator? = .ok result ↔
      ∃ fee, setting.feeFor draft payer policy = .ok fee ∧
        ((fee.isZero ∧ draft = result) ∨
          (¬ fee.isZero ∧ ∃ node, draft.view.node payer = .ok (some node) ∧
            ∃ balance, node.balance.sub? fee = some balance ∧
            setting.reward (draft.putNode payer { node with balance }) payer fee validator? =
              .ok result)) := by
  simp only [settle, bind_eq_ok]
  refine exists_congr fun fee ↦ and_congr_right fun _ ↦ ?_
  by_cases h : fee.isZero = true
  · simp [h, pure_eq_ok]
  · simp [h, bind_eq_ok]

/-! ### The administrator and the initialization phase -/

theorem addAdmin_eq_ok {key : WritingKey} :
    setting.addAdmin draft key = .ok result ↔
      draft.view.admin = .ok none ∧
        (setting.log = setting.bootstrap ∧ key = setting.bootstrap) ∧
        ∃ node?, draft.view.node setting.operation.requester = .ok node? ∧
        ∃ license licensed, draft.licenseOf setting.operation.requester (node?.getD {}) =
          .ok (license, licensed) ∧
        ∃ balance, (node?.getD {}).balance.add? setting.config.adminInitialBalance =
          some balance ∧
        ∃ stake, (node?.getD {}).stake.add? setting.config.adminInitialStake = some stake ∧
        ∃ bound, (licensed.putNode setting.operation.requester
            { role := .indexer, writingKey := key, balance, license, stake }).bindWriter key
              setting.operation.requester = .ok bound ∧
          (bound.put .admin (AdminRecord.encode
            { address := setting.operation.requester, writingKey := key })).put .initialization
              [1] = result := by
  simp only [addAdmin, bind_eq_ok, Draft.admin_eq_ok, Draft.node_eq_ok, require_eq_ok,
    demand_eq_ok, pure_eq_ok, exists_const, Prod.exists]
  constructor
  · rintro ⟨_, hadmin, rfl, h⟩
    exact ⟨hadmin, h⟩
  · rintro ⟨hadmin, h⟩
    exact ⟨none, hadmin, rfl, h⟩

theorem disableInitialization_eq_ok {key : WritingKey} :
    setting.disableInitialization draft key = .ok result ↔
      ∃ admin, setting.requireAdmin draft = .ok admin ∧ key = admin.writingKey ∧
        setting.initializing ∧
        setting.settle (draft.put .initialization [0]) admin.address .adminWaivable none =
          .ok result := by
  simp only [disableInitialization, bind_eq_ok, require_eq_ok, exists_const]

theorem balanceInitialization_eq_ok {target : Address} {amount : Amount} :
    setting.balanceInitialization draft target amount = .ok result ↔
      ∃ admin, setting.requireAdmin draft = .ok admin ∧ setting.initializing ∧
        ∃ node?, draft.view.node target = .ok node? ∧
        ∃ balance, (node?.getD {}).balance.add? amount = some balance ∧
        setting.settle (draft.putNode target { node?.getD {} with balance }) admin.address
          .adminWaivable none = .ok result := by
  simp only [balanceInitialization, bind_eq_ok, require_eq_ok, Draft.node_eq_ok, demand_eq_ok,
    exists_const]

/-! ### Standing -/

theorem appendWhitelist_eq_ok {target : Address} :
    setting.appendWhitelist draft target = .ok result ↔
      ∃ admin, setting.requireAdmin draft = .ok admin ∧
        ∃ node?, draft.view.node target = .ok node? ∧ ¬ (node?.getD {}).role.isWhitelisted ∧
        ∃ license licensed, draft.licenseOf target (node?.getD {}) = .ok (license, licensed) ∧
        setting.settle (licensed.putNode target
          { node?.getD {} with role := .whitelisted, license }) admin.address .adminWaivable
            none = .ok result := by
  simp only [appendWhitelist, bind_eq_ok, require_eq_ok, Draft.node_eq_ok, exists_const,
    Prod.exists]

theorem banValidator_eq_ok {target : Address} :
    setting.banValidator draft target = .ok result ↔
      ∃ admin, setting.requireAdmin draft = .ok admin ∧ target ≠ admin.address ∧
        ∃ node, draft.view.node target = .ok (some node) ∧ node.role.isWhitelisted ∧
        ¬ node.role.isIndexer ∧
        setting.settle (draft.putNode target { node with role := .none }) admin.address
          .adminWaivable none = .ok result := by
  simp only [banValidator, bind_eq_ok, require_eq_ok, Draft.existingNode_eq_ok, exists_const]

theorem addIndexer_eq_ok {target : Address} :
    setting.addIndexer draft target = .ok result ↔
      ∃ admin, setting.requireAdmin draft = .ok admin ∧
        ∃ node, draft.view.node target = .ok (some node) ∧ node.role.isWriter ∧
        ¬ node.role.isIndexer ∧
        ∃ joined, draft.addMember setting.members node.writingKey = .ok joined ∧
        setting.settle (joined.putNode target { node with role := .indexer }) admin.address
          .charged none = .ok result := by
  simp only [addIndexer, bind_eq_ok, require_eq_ok, Draft.existingNode_eq_ok, exists_const]

theorem removeIndexer_eq_ok {target : Address} :
    setting.removeIndexer draft target = .ok result ↔
      ∃ admin, setting.requireAdmin draft = .ok admin ∧
        ∃ node, draft.view.node target = .ok (some node) ∧ node.role.isIndexer ∧
        ∃ left, draft.removeMember setting.members node.writingKey = .ok left ∧
        setting.settle (left.putNode target { node with role := .writer }) admin.address
          .charged none = .ok result := by
  simp only [removeIndexer, bind_eq_ok, require_eq_ok, Draft.existingNode_eq_ok, exists_const]

/-! ### Writing keys -/

theorem addWriter_eq_ok {key : WritingKey} :
    setting.addWriter draft key = .ok result ↔
      ∃ node, draft.view.node setting.operation.requester = .ok (some node) ∧
        node.role.isWhitelisted ∧ ¬ node.role.isWriter ∧
        (∃ owner, draft.view.writerOwner key = .ok owner ∧
          ∀ a, owner = some a → a = setting.operation.requester) ∧
        ∃ fee, setting.feeFor draft setting.operation.requester .adminWaivable = .ok fee ∧
        ∃ required, setting.config.writerStake.add? fee = some required ∧
        required ≤ node.balance ∧
        ∃ validator, setting.validator draft = .ok validator ∧
        ∃ balance, node.balance.sub? setting.config.writerStake = some balance ∧
        ∃ stake, node.stake.add? setting.config.writerStake = some stake ∧
        ∃ bound, (draft.putNode setting.operation.requester
            { node with role := .writer, writingKey := key, balance, stake }).bindWriter key
              setting.operation.requester = .ok bound ∧
          setting.settle bound setting.operation.requester .adminWaivable (some validator) =
            .ok result := by
  simp only [addWriter, bind_eq_ok, require_eq_ok, demand_eq_ok, Draft.existingNode_eq_ok,
    Draft.requireAvailable_eq_ok, exists_const]

theorem removeWriter_eq_ok {key : WritingKey} :
    setting.removeWriter draft key = .ok result ↔
      draft.isAdmin setting.operation.requester = .ok false ∧
        ∃ node, draft.view.node setting.operation.requester = .ok (some node) ∧
        node.role.isWriter ∧ key = node.writingKey ∧
        ∃ validator, setting.validator draft = .ok validator ∧
        ∃ left, ((node.role.isIndexer ∧
              draft.removeMember setting.members node.writingKey = .ok left) ∨
            (¬ node.role.isIndexer ∧ draft = left)) ∧
        ∃ balance, node.balance.add? node.stake = some balance ∧
        setting.settle (left.putNode setting.operation.requester
          { node with role := .whitelisted, balance, stake := .zero })
            setting.operation.requester .adminWaivable (some validator) = .ok result := by
  simp only [removeWriter, bind_eq_ok, require_eq_ok, Draft.existingNode_eq_ok, exists_const]
  constructor
  · rintro ⟨found, hadmin, hnot, node, hnode, hwriter, hkey, validator, hvalidator, h⟩
    rw [Bool.not_eq_true] at hnot
    refine ⟨hnot ▸ hadmin, node, hnode, hwriter, hkey, validator, hvalidator, ?_⟩
    by_cases hindexer : node.role.isIndexer = true
    · simp only [hindexer, if_true, bind_eq_ok, demand_eq_ok] at h
      obtain ⟨left, hleft, h⟩ := h
      exact ⟨left, Or.inl ⟨hindexer, hleft⟩, h⟩
    · simp only [hindexer, if_false, bind_eq_ok, pure_eq_ok, demand_eq_ok, Bool.false_eq_true] at h
      obtain ⟨left, hleft, h⟩ := h
      exact ⟨left, Or.inr ⟨hindexer, hleft⟩, h⟩
  · rintro ⟨hadmin, node, hnode, hwriter, hkey, validator, hvalidator, left, hleft, h⟩
    refine ⟨false, hadmin, Bool.false_ne_true, node, hnode, hwriter, hkey, validator, hvalidator,
      ?_⟩
    rcases hleft with ⟨hindexer, hleft⟩ | ⟨hindexer, rfl⟩
    · simp only [hindexer, if_true, bind_eq_ok, demand_eq_ok]
      exact ⟨left, hleft, h⟩
    · simp only [hindexer, if_false, bind_eq_ok, pure_eq_ok, demand_eq_ok, Bool.false_eq_true]
      exact ⟨draft, rfl, h⟩

theorem adminRecovery_eq_ok {key : WritingKey} :
    setting.adminRecovery draft key = .ok result ↔
      ∃ admin, draft.view.admin = .ok (some admin) ∧
        setting.operation.requester = admin.address ∧ draft.view.writerOwner key = .ok none ∧
        setting.members.containsAfter draft.changes admin.writingKey ∧
        ∃ validator, setting.validator draft = .ok validator ∧ validator ≠ admin.address ∧
        ∃ node, draft.view.node admin.address = .ok (some node) ∧
        ∃ joined, Draft.addMember
            (((draft.putNode admin.address { node with writingKey := key }).putWriterOwner key
              admin.address).put .admin (AdminRecord.encode { admin with writingKey := key }))
            setting.members key = .ok joined ∧
        ∃ left, joined.removeMember setting.members admin.writingKey = .ok left ∧
        setting.settle left admin.address .adminWaivable (some validator) = .ok result := by
  simp only [adminRecovery, bind_eq_ok, require_eq_ok, Draft.existingNode_eq_ok, demand_eq_ok,
    Draft.admin_eq_ok, answered_eq_ok, exists_const]
  constructor
  · rintro ⟨_, hadmin, admin, rfl, hrequester, _, howner, rfl, h⟩
    exact ⟨admin, hadmin, hrequester, howner, h⟩
  · rintro ⟨admin, hadmin, hrequester, howner, h⟩
    exact ⟨some admin, hadmin, admin, rfl, hrequester, none, howner, rfl, h⟩

/-! ### Value and subnetworks -/

theorem transfer_eq_ok {recipient : Address} {amount : Amount} :
    setting.transfer draft recipient amount = .ok result ↔
      ∃ node, draft.view.node setting.operation.requester = .ok (some node) ∧
        ∃ fee, setting.feeFor draft setting.operation.requester .adminWaivable = .ok fee ∧
        ∃ required, amount.add? fee = some required ∧ required ≤ node.balance ∧
        ∃ validator, setting.validator draft = .ok validator ∧
        ∃ debited, node.balance.sub? amount = some debited ∧
        ∃ credited?, (draft.putNode setting.operation.requester
          { node with balance := debited }).view.node recipient = .ok credited? ∧
        ∃ balance, (credited?.getD {}).balance.add? amount = some balance ∧
        setting.settle ((draft.putNode setting.operation.requester
          { node with balance := debited }).putNode recipient
            { credited?.getD {} with balance }) setting.operation.requester .adminWaivable
              (some validator) = .ok result := by
  simp only [transfer, bind_eq_ok, require_eq_ok, demand_eq_ok, Draft.existingNode_eq_ok,
    Draft.node_eq_ok, exists_const]

theorem requireFeeAndValidator_eq_ok {validator : Address} :
    setting.requireFeeAndValidator draft = .ok validator ↔
      ∃ node, draft.view.node setting.operation.requester = .ok (some node) ∧
        ∃ fee, setting.feeFor draft setting.operation.requester .adminWaivable = .ok fee ∧
        fee ≤ node.balance ∧ setting.validator draft = .ok validator := by
  simp only [requireFeeAndValidator, bind_eq_ok, require_eq_ok, Draft.existingNode_eq_ok,
    exists_const]

theorem validator_of_requireFeeAndValidator {validator : Address}
    (h : setting.requireFeeAndValidator draft = .ok validator) :
    setting.validator draft = .ok validator := by
  obtain ⟨-, -, -, -, -, hvalidator⟩ := requireFeeAndValidator_eq_ok.mp h
  exact hvalidator

theorem transaction_eq_ok {external ledger : WritingKey} :
    setting.transaction draft external ledger = .ok result ↔
      ledger = setting.bootstrap ∧
        (∃ record, draft.view.deployment external = .ok (some record)) ∧
        ∃ validator, setting.requireFeeAndValidator draft = .ok validator ∧
        setting.settle draft setting.operation.requester .adminWaivable (some validator) =
          .ok result := by
  simp only [transaction, bind_eq_ok, require_eq_ok, answered_eq_ok, exists_const,
    Option.isSome_iff_exists]
  constructor
  · rintro ⟨hledger, _, hrecord, ⟨record, rfl⟩, h⟩
    exact ⟨hledger, ⟨record, hrecord⟩, h⟩
  · rintro ⟨hledger, ⟨record, hrecord⟩, h⟩
    exact ⟨hledger, some record, hrecord, ⟨record, rfl⟩, h⟩

theorem bootstrapDeployment_eq_ok {bootstrap : WritingKey} :
    setting.bootstrapDeployment draft bootstrap = .ok result ↔
      bootstrap ≠ setting.bootstrap ∧ draft.view.deployment bootstrap = .ok none ∧
        ∃ validator, setting.requireFeeAndValidator draft = .ok validator ∧
        setting.settle (draft.put (.deployment bootstrap) (DeploymentRecord.encode
          { requester := setting.operation.requester, tx := setting.operation.tx }))
            setting.operation.requester .adminWaivable (some validator) = .ok result := by
  simp only [bootstrapDeployment, bind_eq_ok, require_eq_ok, answered_eq_ok, exists_const]
  constructor
  · rintro ⟨hother, _, hdeployment, rfl, h⟩
    exact ⟨hother, hdeployment, h⟩
  · rintro ⟨hother, hdeployment, h⟩
    exact ⟨hother, none, hdeployment, rfl, h⟩

/-! ### The rule of a kind -/

/-- Which rule judged an operation, when its rule succeeds. -/
inductive Ruling (setting : Setting) (draft result : Draft) : Prop where
  | addAdmin (key : WritingKey) (kind : setting.operation.kind = .addAdmin)
      (body : setting.operation.body = .coreAdmin key)
      (ok : setting.addAdmin draft key = .ok result)
  | disableInitialization (key : WritingKey)
      (kind : setting.operation.kind = .disableInitialization)
      (body : setting.operation.body = .coreAdmin key)
      (ok : setting.disableInitialization draft key = .ok result)
  | balanceInitialization (target : Address) (amount : Amount)
      (kind : setting.operation.kind = .balanceInitialization)
      (body : setting.operation.body = .balanceInitialization target amount)
      (ok : setting.balanceInitialization draft target amount = .ok result)
  | appendWhitelist (target : Address) (kind : setting.operation.kind = .appendWhitelist)
      (body : setting.operation.body = .adminControl target)
      (ok : setting.appendWhitelist draft target = .ok result)
  | banValidator (target : Address) (kind : setting.operation.kind = .banValidator)
      (body : setting.operation.body = .adminControl target)
      (ok : setting.banValidator draft target = .ok result)
  | addIndexer (target : Address) (kind : setting.operation.kind = .addIndexer)
      (body : setting.operation.body = .adminControl target)
      (ok : setting.addIndexer draft target = .ok result)
  | removeIndexer (target : Address) (kind : setting.operation.kind = .removeIndexer)
      (body : setting.operation.body = .adminControl target)
      (ok : setting.removeIndexer draft target = .ok result)
  | addWriter (key : WritingKey) (kind : setting.operation.kind = .addWriter)
      (body : setting.operation.body = .roleAccess key)
      (ok : setting.addWriter draft key = .ok result)
  | removeWriter (key : WritingKey) (kind : setting.operation.kind = .removeWriter)
      (body : setting.operation.body = .roleAccess key)
      (ok : setting.removeWriter draft key = .ok result)
  | adminRecovery (key : WritingKey) (kind : setting.operation.kind = .adminRecovery)
      (body : setting.operation.body = .roleAccess key)
      (ok : setting.adminRecovery draft key = .ok result)
  | transfer (recipient : Address) (amount : Amount) (kind : setting.operation.kind = .transfer)
      (body : setting.operation.body = .transfer recipient amount)
      (ok : setting.transfer draft recipient amount = .ok result)
  | transaction (writer : WritingKey) (content : Hash) (external ledger : WritingKey)
      (kind : setting.operation.kind = .transaction)
      (body : setting.operation.body = .transaction writer content external ledger)
      (ok : setting.transaction draft external ledger = .ok result)
  | bootstrapDeployment (bootstrap : WritingKey) (channel : Hash)
      (kind : setting.operation.kind = .bootstrapDeployment)
      (body : setting.operation.body = .bootstrapDeployment bootstrap channel)
      (ok : setting.bootstrapDeployment draft bootstrap = .ok result)

/-- A rule that succeeds is the rule of a kind. -/
theorem ruling_of_rule (h : setting.rule draft = .ok result) : setting.Ruling draft result := by
  unfold rule at h
  split at h
  case h_1 key hkind hbody => exact .addAdmin key hkind hbody h
  case h_2 key hkind hbody => exact .disableInitialization key hkind hbody h
  case h_3 target amount hkind hbody => exact .balanceInitialization target amount hkind hbody h
  case h_4 target hkind hbody => exact .appendWhitelist target hkind hbody h
  case h_5 target hkind hbody => exact .banValidator target hkind hbody h
  case h_6 target hkind hbody => exact .addIndexer target hkind hbody h
  case h_7 target hkind hbody => exact .removeIndexer target hkind hbody h
  case h_8 key hkind hbody => exact .addWriter key hkind hbody h
  case h_9 key hkind hbody => exact .removeWriter key hkind hbody h
  case h_10 key hkind hbody => exact .adminRecovery key hkind hbody h
  case h_11 recipient amount hkind hbody => exact .transfer recipient amount hkind hbody h
  case h_12 writer content external ledger hkind hbody =>
    exact .transaction writer content external ledger hkind hbody h
  case h_13 bootstrap channel hkind hbody =>
    exact .bootstrapDeployment bootstrap channel hkind hbody h
  case h_14 => cases h

/-- Only an operation with a body of the family of its kind is judged. -/
theorem family_of_rule (h : setting.rule draft = .ok result) :
    setting.operation.body.family = setting.operation.kind.family := by
  cases ruling_of_rule h with
  | addAdmin _ kind body | disableInitialization _ kind body | balanceInitialization _ _ kind body
  | appendWhitelist _ kind body | banValidator _ kind body | addIndexer _ kind body
  | removeIndexer _ kind body | addWriter _ kind body | removeWriter _ kind body
  | adminRecovery _ kind body | transfer _ _ kind body | transaction _ _ _ _ kind body
  | bootstrapDeployment _ _ kind body =>
    rw [kind, body]
    rfl

/-! ### What no rule touches -/

theorem base_of_settle {payer : Address} {policy : FeePolicy} {validator? : Option Address}
    (h : setting.settle draft payer policy validator? = .ok result) :
    result.base = draft.base := by
  obtain ⟨fee, -, ⟨-, rfl⟩ | ⟨-, node, -, balance, -, hreward⟩⟩ := settle_eq_ok.mp h
  · rfl
  · rcases reward_eq_ok.mp hreward with ⟨-, rfl⟩ | ⟨validator, -, -, share, -, record, -, credited,
      -, rfl⟩ <;> rfl

/-- A rule writes over the view that its draft began with. -/
theorem base_of_rule (h : setting.rule draft = .ok result) : result.base = draft.base := by
  cases ruling_of_rule h with
  | addAdmin key kind body ok =>
    obtain ⟨-, -, node?, -, license, licensed, hlicensed, balance, -, stake, -, bound, hbound,
      rfl⟩ := addAdmin_eq_ok.mp ok
    rw [Draft.base_put, Draft.base_put, Draft.base_of_bindWriter hbound, Draft.base_putNode,
      Draft.base_of_licenseOf hlicensed]
  | disableInitialization key kind body ok =>
    obtain ⟨admin, -, -, -, hsettle⟩ := disableInitialization_eq_ok.mp ok
    rw [base_of_settle hsettle, Draft.base_put]
  | balanceInitialization target amount kind body ok =>
    obtain ⟨admin, -, -, node?, -, balance, -, hsettle⟩ := balanceInitialization_eq_ok.mp ok
    rw [base_of_settle hsettle, Draft.base_putNode]
  | appendWhitelist target kind body ok =>
    obtain ⟨admin, -, node?, -, -, license, licensed, hlicensed, hsettle⟩ :=
      appendWhitelist_eq_ok.mp ok
    rw [base_of_settle hsettle, Draft.base_putNode, Draft.base_of_licenseOf hlicensed]
  | banValidator target kind body ok =>
    obtain ⟨admin, -, -, node, -, -, -, hsettle⟩ := banValidator_eq_ok.mp ok
    rw [base_of_settle hsettle, Draft.base_putNode]
  | addIndexer target kind body ok =>
    obtain ⟨admin, -, node, -, -, -, joined, hjoined, hsettle⟩ := addIndexer_eq_ok.mp ok
    rw [base_of_settle hsettle, Draft.base_putNode, Draft.base_of_addMember hjoined]
  | removeIndexer target kind body ok =>
    obtain ⟨admin, -, node, -, -, left, hleft, hsettle⟩ := removeIndexer_eq_ok.mp ok
    rw [base_of_settle hsettle, Draft.base_putNode, Draft.base_of_removeMember hleft]
  | addWriter key kind body ok =>
    obtain ⟨node, -, -, -, -, fee, -, required, -, -, validator, -, balance, -, stake, -, bound,
      hbound, hsettle⟩ := addWriter_eq_ok.mp ok
    rw [base_of_settle hsettle, Draft.base_of_bindWriter hbound, Draft.base_putNode]
  | removeWriter key kind body ok =>
    obtain ⟨-, node, -, -, -, validator, -, left, hleft, balance, -, hsettle⟩ :=
      removeWriter_eq_ok.mp ok
    rw [base_of_settle hsettle, Draft.base_putNode]
    rcases hleft with ⟨-, hleft⟩ | ⟨-, rfl⟩
    · exact Draft.base_of_removeMember hleft
    · rfl
  | adminRecovery key kind body ok =>
    obtain ⟨admin, -, -, -, -, validator, -, -, node, -, joined, hjoined, left, hleft, hsettle⟩ :=
      adminRecovery_eq_ok.mp ok
    rw [base_of_settle hsettle, Draft.base_of_removeMember hleft, Draft.base_of_addMember hjoined,
      Draft.base_put, Draft.base_putWriterOwner, Draft.base_putNode]
  | transfer recipient amount kind body ok =>
    obtain ⟨node, -, fee, -, required, -, -, validator, -, debited, -, credited?, -, balance, -,
      hsettle⟩ := transfer_eq_ok.mp ok
    rw [base_of_settle hsettle, Draft.base_putNode, Draft.base_putNode]
  | transaction writer content external ledger kind body ok =>
    obtain ⟨-, -, validator, -, hsettle⟩ := transaction_eq_ok.mp ok
    exact base_of_settle hsettle
  | bootstrapDeployment bootstrap channel kind body ok =>
    obtain ⟨-, -, validator, -, hsettle⟩ := bootstrapDeployment_eq_ok.mp ok
    rw [base_of_settle hsettle, Draft.base_put]

end Setting

/-! ### Applied operations -/

/-- The setting in which an operation is judged. -/
def Operation.setting (op : Operation) (suite : Suite) (config : Config) (context : Context)
    (members : Membership) (log : WritingKey) (initializing : Bool) : Setting where
  suite
  config
  bootstrap := context.bootstrap
  members
  log
  operation := op
  initializing

/-- An operation is applied exactly if it is authentic, new and current and its rule succeeds; its
effect is then what the rule wrote, with the replay marker. -/
theorem Operation.transition_eq_ok {op : Operation} {suite : Suite} {config : Config}
    {context : Context} {base : View} {members : Membership} {delivery : Delivery}
    {effect : Effect} :
    op.transition suite config context base members delivery = .ok effect ↔
      op.authenticate suite = .ok () ∧ ∃ initializing, base.initializing = .ok initializing ∧
        base.isApplied op.tx = .ok false ∧ op.txValidity = context.txValidity ∧
        ∃ draft, (op.setting suite config context members delivery.log initializing).rule
            { base } = .ok draft ∧
          ⟨(draft.put (.applied op.tx) delivery.bytes).staged, draft.changes⟩ = effect := by
  simp only [transition, bind_eq_ok, answered_eq_ok]
  constructor
  · rintro ⟨_, hauthentic, initializing, hinitializing, applied, happlied, h⟩
    cases applied with
    | true => cases h
    | false =>
      simp only [Bool.false_eq_true, if_false, bind_eq_ok, require_eq_ok, pure_eq_ok,
        exists_const] at h
      exact ⟨hauthentic, initializing, hinitializing, happlied, h⟩
  · rintro ⟨hauthentic, initializing, hinitializing, happlied, h⟩
    refine ⟨(), hauthentic, initializing, hinitializing, false, happlied, ?_⟩
    simp only [Bool.false_eq_true, if_false, bind_eq_ok, require_eq_ok, pure_eq_ok, exists_const]
    exact h

end SettlementLedger
