import SettlementLedger.Proofs.Footprint
import SettlementLedger.Proofs.Members
import SettlementLedger.Proofs.SchemaFacts

/-!
# The ledger never corrupts itself

Rules guard against states that should not arise: an entry that does not decode, a writing key that
joins a membership set that has it, a body of another family than its kind. The last of these is
excluded by the schema (`RawOperation.family_of_validate`). The others are excluded by what holds of every
reachable state: each text of the store is one of the key space, with bytes that its codec accepts
(`View.Sound`), and the members are the writing keys of the indexers (`View.MembersStand`).

Every step of a draft and every rule is shown once to keep the first and to raise none of the
defensive refusals (`Judges`). Both are needed together, since a rule reads what it has just written.
-/

set_option autoImplicit false
set_option relaxedAutoImplicit false

namespace SettlementLedger

/-! ### Defensive refusals -/

/-- A refusal that guards against a state or an operation that should not arise. -/
def Refusal.isDefensive : Refusal → Bool
  | .unreadable _ | .rejected .bodyMismatch | .rejected .membershipConflict => true
  | _ => false

/-- A computation succeeds with a value that meets a condition, or it is refused and not
defensively. -/
def Judges {α : Type} (computation : Except Refusal α) (post : α → Prop) : Prop :=
  match computation with
  | .ok value => post value
  | .error refusal => refusal.isDefensive = false

namespace Judges

variable {α β : Type} {computation : Except Refusal α} {post : α → Prop} {target : β → Prop}

protected theorem pure {value : α} (h : post value) : Judges (pure value) post := h

theorem bind {next : α → Except Refusal β} (h : Judges computation post)
    (hnext : ∀ value, post value → Judges (next value) target) :
    Judges (computation >>= next) target := by
  cases computation with
  | error refusal => exact h
  | ok value => exact hnext value h

theorem mono {weaker : α → Prop} (h : Judges computation post)
    (hpost : ∀ value, post value → weaker value) : Judges computation weaker := by
  cases computation with
  | error refusal => exact h
  | ok value => exact hpost value h

theorem require {condition : Prop} [Decidable condition] {reason : Rejection}
    (hreason : (Refusal.rejected reason).isDefensive = false) :
    Judges (require condition reason) fun _ ↦ condition := by
  unfold SettlementLedger.require
  split
  · assumption
  · exact hreason

theorem demand {value? : Option α} {reason : Rejection}
    (hreason : (Refusal.rejected reason).isDefensive = false) :
    Judges (demand value? reason) fun value ↦ value? = some value := by
  cases value? with
  | none => exact hreason
  | some value => exact rfl

theorem answered {answer : Except ViewError α} (h : ∃ value, answer = .ok value) :
    Judges (answered answer) fun value ↦ answer = .ok value := by
  obtain ⟨value, rfl⟩ := h
  exact rfl

theorem of_ok (h : Judges computation post) {value : α} (heq : computation = .ok value) :
    post value := by
  rw [heq] at h
  exact h

theorem of_error (h : Judges computation post) {refusal : Refusal}
    (heq : computation = .error refusal) : refusal.isDefensive = false := by
  rw [heq] at h
  exact h

/-- What fails before an operation is judged is not a guard. -/
theorem mapError {ε : Type} {x : Except ε α} {refuse : ε → Refusal}
    (hrefuse : ∀ cause, (refuse cause).isDefensive = false) :
    Judges (x.mapError refuse) fun value ↦ x = .ok value := by
  cases x with
  | error cause => exact hrefuse cause
  | ok value => exact rfl

end Judges

/-! ### Sound views -/

/-- The codec of an entry accepts bytes. A flag is one byte, a counter four, and an address is its
text; a replay marker carries an operation with the hash that it stands for. -/
def ViewKey.Decodes : ViewKey → Bytes → Prop
  | .admin, bytes => ∃ record, AdminRecord.decode bytes = .ok record
  | .initialization, bytes => ∃ flag, bytes = [flag]
  | .writersLength, bytes | .licenseCount, bytes => ∃ n, Counter.decode bytes = .ok n
  | .node _, bytes => ∃ node, NodeRecord.decode bytes = .ok node
  | .writerOwner _, bytes | .writerAt _, bytes | .licenseOwner _, bytes =>
    ∃ a, View.decodeEntry bytes = .ok a
  | .deployment _, bytes => ∃ record, DeploymentRecord.decode bytes = .ok record
  | .applied tx, bytes => ∀ log, ∃ op, Delivery.operation ⟨log, bytes⟩ = .ok op ∧ op.tx = tx

theorem ViewKey.Holds.decodes {key : ViewKey} {bytes : Bytes} (h : key.Holds bytes) :
    key.Decodes bytes := by
  cases key with
  | admin =>
    obtain ⟨record, rfl⟩ := h
    exact ⟨record, AdminRecord.decode_encode record⟩
  | initialization =>
    rcases h with rfl | rfl
    · exact ⟨0, rfl⟩
    · exact ⟨1, rfl⟩
  | writersLength | licenseCount =>
    obtain ⟨n, rfl⟩ := h
    exact ⟨n, Counter.decode_encode n⟩
  | node a =>
    obtain ⟨node, rfl⟩ := h
    exact ⟨node, NodeRecord.decode_encode node⟩
  | writerOwner _ | writerAt _ | licenseOwner _ =>
    obtain ⟨a, rfl⟩ := h
    exact ⟨a, View.decodeEntry_bytes a⟩
  | deployment bootstrap =>
    obtain ⟨record, rfl⟩ := h
    exact ⟨record, DeploymentRecord.decode_encode record⟩
  | applied tx => exact h

namespace View

variable {view : View}

/-- Every text is one of the key space with bytes that its codec accepts, or nothing lies under
it. -/
def Sound (view : View) : Prop :=
  ∀ text, view text = .ok none ∨ ∃ (key : ViewKey) (bytes : Bytes),
    text = key.text ∧ view text = .ok (some bytes) ∧ key.Holds bytes

theorem Sound.legible (h : view.Sound) : view.Legible := by
  intro key
  rcases h key.text with hnone | ⟨key', bytes, htext, hbytes, hholds⟩
  · refine Or.inl ?_
    rw [View.read, hnone]
    rfl
  · rw [ViewKey.text_inj] at htext
    rw [← htext] at hholds
    refine Or.inr ⟨bytes, ?_, hholds⟩
    rw [View.read, hbytes]
    rfl

end View

/-! ### Keys that are no members -/

namespace View.Governed

variable {view : View} {members : Membership}

/-- The key of a writer that is no indexer is no member. -/
theorem not_contains_of_not_isIndexer (h : view.Governed members) {a : Address} {node : NodeRecord}
    (hnode : view.node a = .ok (some node)) (hwriter : node.role.isWriter)
    (hindexer : ¬ node.role.isIndexer) : ¬ members.contains node.writingKey := by
  intro hmember
  obtain ⟨b, hindexes⟩ := (h.members_iff node.writingKey).mp hmember
  have howner := h.keysBound.owner_of_indexes hindexes
  rw [h.keysBound.node hnode hwriter] at howner
  cases howner
  exact hindexer ((indexes_self (standing_of_node hnode)).mp hindexes).1

/-- A key that is bound to nobody is no member. -/
theorem not_contains_of_unbound (h : view.Governed members) {key : WritingKey}
    (hunbound : view.writerOwner key = .ok none) : ¬ members.contains key := by
  intro hmember
  obtain ⟨a, hindexes⟩ := (h.members_iff key).mp hmember
  have howner := h.keysBound.owner_of_indexes hindexes
  rw [hunbound] at howner
  cases howner

end View.Governed

namespace Draft

variable {draft : Draft}

/-- What a draft reads is sound. -/
def Sound (draft : Draft) : Prop := draft.view.Sound

theorem Sound.legible (h : draft.Sound) : draft.view.Legible := View.Sound.legible h

theorem sound_put (h : draft.Sound) {key : ViewKey} {value : Bytes} (hvalue : key.Holds value) :
    (draft.put key value).Sound := by
  intro text
  simp only [Draft.view, put, stage, WriteSet.onto, SortedMap.get?_insert]
  by_cases htext : text = key.text
  · rw [if_pos htext]
    exact Or.inr ⟨key, value, htext, rfl, hvalue⟩
  · rw [if_neg htext]
    exact h text

theorem sound_putNode (h : draft.Sound) (a : Address) (node : NodeRecord) :
    (draft.putNode a node).Sound :=
  sound_put h ⟨node, rfl⟩

theorem sound_putWriterOwner (h : draft.Sound) (key : WritingKey) (a : Address) :
    (draft.putWriterOwner key a).Sound :=
  sound_put h ⟨a, rfl⟩

/-! ### Steps of a draft -/

theorem judges_node (h : draft.Sound) (a : Address) :
    Judges (draft.node a) fun node? ↦ draft.view.node a = .ok node? :=
  .answered (h.legible.node a)

theorem judges_existingNode (h : draft.Sound) (a : Address) {missing : Rejection}
    (hmissing : (Refusal.rejected missing).isDefensive = false) :
    Judges (draft.existingNode a missing) fun node ↦ draft.view.node a = .ok (some node) := by
  refine (judges_node h a).bind fun node? hnode ↦ (Judges.demand hmissing).mono fun node hsome ↦ ?_
  rw [hnode, hsome]

theorem judges_admin (h : draft.Sound) :
    Judges draft.admin fun admin? ↦ draft.view.admin = .ok admin? :=
  .answered h.legible.admin

theorem judges_isAdmin (h : draft.Sound) (a : Address) :
    Judges (draft.isAdmin a) fun _ ↦ True :=
  (judges_admin h).bind fun _ _ ↦ .pure trivial

theorem judges_addMember (h : draft.Sound) {members : Membership} {key : WritingKey}
    (habsent : ¬ members.containsAfter draft.changes key) :
    Judges (draft.addMember members key) fun result ↦ result.Sound := by
  rw [addMember, SettlementLedger.require, if_pos habsent]
  exact h

theorem judges_removeMember (h : draft.Sound) (members : Membership) (key : WritingKey) :
    Judges (draft.removeMember members key) fun result ↦ result.Sound := by
  unfold removeMember
  split
  · exact (Judges.require rfl).bind fun _ _ ↦ .pure h
  · exact .pure h

theorem judges_licenseOf (h : draft.Sound) (a : Address) (node : NodeRecord) :
    Judges (draft.licenseOf a node) fun made ↦ made.2.Sound := by
  unfold licenseOf
  split
  · exact .pure h
  · refine (Judges.answered h.legible.licenseCount).bind fun count _ ↦ ?_
    refine (Judges.demand rfl).bind fun license _ ↦ .pure ?_
    have howner : (ViewKey.licenseOwner license).Holds a.bytes := ⟨a, rfl⟩
    have hcount : ViewKey.licenseCount.Holds (Counter.encode license) := ⟨license, rfl⟩
    exact sound_put (sound_put h howner) hcount

theorem judges_requireAvailable (h : draft.Sound) (key : WritingKey) (a : Address) :
    Judges (draft.requireAvailable key a) fun _ ↦ True :=
  (Judges.answered (h.legible.writerOwner key)).bind fun _ _ ↦
    (Judges.require rfl).mono fun _ _ ↦ trivial

theorem judges_bindWriter (h : draft.Sound) (key : WritingKey) (a : Address) :
    Judges (draft.bindWriter key a) fun result ↦ result.Sound := by
  refine (Judges.answered (h.legible.writerOwner key)).bind fun owner? _ ↦ ?_
  cases owner? with
  | some owner => exact (Judges.require rfl).bind fun _ _ ↦ .pure h
  | none =>
    refine (Judges.answered h.legible.writersLength).bind fun position _ ↦ ?_
    refine (Judges.demand rfl).bind fun length _ ↦ .pure ?_
    have hat : (ViewKey.writerAt position).Holds a.bytes := ⟨a, rfl⟩
    have hlength : ViewKey.writersLength.Holds (Counter.encode length) := ⟨length, rfl⟩
    exact sound_putWriterOwner (sound_put (sound_put h hat) hlength) key a

end Draft

/-! ### Authority and fees -/

namespace Setting

variable {setting : Setting} {draft : Draft}

theorem judges_requireAdmin (h : draft.Sound) :
    Judges (setting.requireAdmin draft) fun admin ↦ draft.view.admin = .ok (some admin) := by
  refine (Draft.judges_admin h).bind fun admin? hadmin ↦ ?_
  refine (Judges.demand rfl).bind fun admin hsome ↦ ?_
  refine (Judges.require rfl).bind fun _ _ ↦ .pure ?_
  rw [hadmin, hsome]

theorem judges_validator (h : draft.Sound) :
    Judges (setting.validator draft) fun _ ↦ True := by
  refine (Judges.demand rfl).bind fun cosignature _ ↦ ?_
  refine (Judges.require rfl).bind fun _ _ ↦ (Judges.require rfl).bind fun _ _ ↦ ?_
  refine (Draft.judges_node h _).bind fun node? _ ↦ (Judges.demand rfl).bind fun node _ ↦ ?_
  refine (Judges.require rfl).bind fun _ _ ↦ ?_
  refine (Judges.answered (h.legible.writerOwner _)).bind fun owner? _ ↦ ?_
  exact (Judges.require rfl).bind fun _ _ ↦ .pure trivial

theorem judges_feeFor (h : draft.Sound) (payer : Address) (policy : FeePolicy) :
    Judges (setting.feeFor draft payer policy) fun _ ↦ True := by
  cases policy with
  | charged => exact .pure trivial
  | adminWaivable =>
    by_cases hopen : setting.initializing
    · rw [feeFor, if_pos hopen]
      exact (Draft.judges_isAdmin h payer).bind fun _ _ ↦ trivial
    · rw [feeFor, if_neg hopen]
      exact trivial

theorem judges_reward (h : draft.Sound) (payer : Address) (fee : Amount)
    (validator? : Option Address) :
    Judges (setting.reward draft payer fee validator?) fun result ↦ result.Sound := by
  cases validator? with
  | none => exact .pure h
  | some validator =>
    by_cases hself : validator = payer
    · rw [reward, if_pos hself]
      exact .pure h
    · rw [reward, if_neg hself]
      refine (Judges.demand rfl).bind fun share _ ↦ ?_
      refine (Draft.judges_existingNode h validator rfl).bind fun node _ ↦ ?_
      exact (Judges.demand rfl).bind fun balance _ ↦ .pure (Draft.sound_putNode h _ _)

theorem judges_settle (h : draft.Sound) (payer : Address) (policy : FeePolicy)
    (validator? : Option Address) :
    Judges (setting.settle draft payer policy validator?) fun result ↦ result.Sound := by
  refine (judges_feeFor h payer policy).bind fun fee _ ↦ ?_
  split
  · exact .pure h
  · refine (Draft.judges_existingNode h payer rfl).bind fun node _ ↦ ?_
    refine (Judges.demand rfl).bind fun balance _ ↦ ?_
    exact judges_reward (Draft.sound_putNode h _ _) payer fee validator?

/-! ### The rules -/

theorem judges_addAdmin (h : draft.Sound) (key : WritingKey) :
    Judges (setting.addAdmin draft key) fun result ↦ result.Sound := by
  refine (Draft.judges_admin h).bind fun admin? _ ↦ (Judges.require rfl).bind fun _ _ ↦ ?_
  refine (Judges.require rfl).bind fun _ _ ↦ (Draft.judges_node h _).bind fun node? _ ↦ ?_
  refine (Draft.judges_licenseOf h _ _).bind fun ⟨license, licensed⟩ hlicensed ↦ ?_
  refine (Judges.demand rfl).bind fun balance _ ↦ (Judges.demand rfl).bind fun stake _ ↦ ?_
  refine (Draft.judges_bindWriter (Draft.sound_putNode hlicensed _ _) _ _).bind fun bound hbound ↦ ?_
  have hadmin : ViewKey.admin.Holds
      (AdminRecord.encode ⟨setting.operation.requester, key⟩) := ⟨_, rfl⟩
  have hopen : ViewKey.initialization.Holds [1] := Or.inr rfl
  exact .pure (Draft.sound_put (Draft.sound_put hbound hadmin) hopen)

theorem judges_disableInitialization (h : draft.Sound) (key : WritingKey) :
    Judges (setting.disableInitialization draft key) fun result ↦ result.Sound := by
  refine (judges_requireAdmin h).bind fun admin _ ↦ (Judges.require rfl).bind fun _ _ ↦ ?_
  have hclosed : ViewKey.initialization.Holds [0] := Or.inl rfl
  exact (Judges.require rfl).bind fun _ _ ↦ judges_settle (Draft.sound_put h hclosed) _ _ _

theorem judges_balanceInitialization (h : draft.Sound) (target : Address) (amount : Amount) :
    Judges (setting.balanceInitialization draft target amount) fun result ↦
      result.Sound := by
  refine (judges_requireAdmin h).bind fun admin _ ↦ (Judges.require rfl).bind fun _ _ ↦ ?_
  refine (Draft.judges_node h target).bind fun node? _ ↦ (Judges.demand rfl).bind fun balance _ ↦ ?_
  exact judges_settle (Draft.sound_putNode h _ _) _ _ _

theorem judges_appendWhitelist (h : draft.Sound) (target : Address) :
    Judges (setting.appendWhitelist draft target) fun result ↦ result.Sound := by
  refine (judges_requireAdmin h).bind fun admin _ ↦ (Draft.judges_node h target).bind fun node? _ ↦ ?_
  refine (Judges.require rfl).bind fun _ _ ↦ ?_
  refine (Draft.judges_licenseOf h _ _).bind fun ⟨license, licensed⟩ hlicensed ↦ ?_
  exact judges_settle (Draft.sound_putNode hlicensed _ _) _ _ _

theorem judges_banValidator (h : draft.Sound) (target : Address) :
    Judges (setting.banValidator draft target) fun result ↦ result.Sound := by
  refine (judges_requireAdmin h).bind fun admin _ ↦ (Judges.require rfl).bind fun _ _ ↦ ?_
  refine (Draft.judges_existingNode h target rfl).bind fun node _ ↦ ?_
  refine (Judges.require rfl).bind fun _ _ ↦ (Judges.require rfl).bind fun _ _ ↦ ?_
  exact judges_settle (Draft.sound_putNode h _ _) _ _ _

theorem judges_removeIndexer (h : draft.Sound) (target : Address) :
    Judges (setting.removeIndexer draft target) fun result ↦ result.Sound := by
  refine (judges_requireAdmin h).bind fun admin _ ↦ ?_
  refine (Draft.judges_existingNode h target rfl).bind fun node _ ↦ ?_
  refine (Judges.require rfl).bind fun _ _ ↦ ?_
  refine (Draft.judges_removeMember h _ _).bind fun left hleft ↦ ?_
  exact judges_settle (Draft.sound_putNode hleft _ _) _ _ _

theorem judges_addWriter (h : draft.Sound) (key : WritingKey) :
    Judges (setting.addWriter draft key) fun result ↦ result.Sound := by
  refine (Draft.judges_existingNode h _ rfl).bind fun node _ ↦ ?_
  refine (Judges.require rfl).bind fun _ _ ↦ (Judges.require rfl).bind fun _ _ ↦ ?_
  refine (Draft.judges_requireAvailable h key _).bind fun _ _ ↦ ?_
  refine (judges_feeFor h _ _).bind fun fee _ ↦ (Judges.demand rfl).bind fun required _ ↦ ?_
  refine (Judges.require rfl).bind fun _ _ ↦ (judges_validator h).bind fun validator _ ↦ ?_
  refine (Judges.demand rfl).bind fun balance _ ↦ (Judges.demand rfl).bind fun stake _ ↦ ?_
  refine (Draft.judges_bindWriter (Draft.sound_putNode h _ _) _ _).bind fun bound hbound ↦ ?_
  exact judges_settle hbound _ _ _

theorem judges_removeWriter (h : draft.Sound) (key : WritingKey) :
    Judges (setting.removeWriter draft key) fun result ↦ result.Sound := by
  refine (Draft.judges_isAdmin h _).bind fun _ _ ↦ (Judges.require rfl).bind fun _ _ ↦ ?_
  refine (Draft.judges_existingNode h _ rfl).bind fun node _ ↦ ?_
  refine (Judges.require rfl).bind fun _ _ ↦ (Judges.require rfl).bind fun _ _ ↦ ?_
  refine (judges_validator h).bind fun validator _ ↦ ?_
  dsimp only
  split
  · refine (Draft.judges_removeMember h _ _).bind fun left hleft ↦ ?_
    refine (Judges.demand rfl).bind fun balance _ ↦ ?_
    exact judges_settle (Draft.sound_putNode hleft _ _) _ _ _
  · refine (Judges.demand rfl).bind fun balance _ ↦ ?_
    exact judges_settle (Draft.sound_putNode h _ _) _ _ _

theorem judges_transfer (h : draft.Sound) (recipient : Address) (amount : Amount) :
    Judges (setting.transfer draft recipient amount) fun result ↦ result.Sound := by
  refine (Draft.judges_existingNode h _ rfl).bind fun node _ ↦ ?_
  refine (judges_feeFor h _ _).bind fun fee _ ↦ (Judges.demand rfl).bind fun required _ ↦ ?_
  refine (Judges.require rfl).bind fun _ _ ↦ (judges_validator h).bind fun validator _ ↦ ?_
  refine (Judges.demand rfl).bind fun debited _ ↦ ?_
  have hdebited := Draft.sound_putNode h setting.operation.requester
    { node with balance := debited }
  refine (Draft.judges_node hdebited recipient).bind fun credited? _ ↦ ?_
  refine (Judges.demand rfl).bind fun balance _ ↦ ?_
  exact judges_settle (Draft.sound_putNode hdebited _ _) _ _ _

theorem judges_requireFeeAndValidator (h : draft.Sound) :
    Judges (setting.requireFeeAndValidator draft) fun _ ↦ True := by
  refine (Draft.judges_existingNode h _ rfl).bind fun node _ ↦ ?_
  refine (judges_feeFor h _ _).bind fun fee _ ↦ (Judges.require rfl).bind fun _ _ ↦ ?_
  exact judges_validator h

theorem judges_transaction (h : draft.Sound) (external ledger : WritingKey) :
    Judges (setting.transaction draft external ledger) fun result ↦ result.Sound := by
  refine (Judges.require rfl).bind fun _ _ ↦ ?_
  refine (Judges.answered (h.legible.deployment external)).bind fun record? _ ↦ ?_
  refine (Judges.require rfl).bind fun _ _ ↦ ?_
  exact (judges_requireFeeAndValidator h).bind fun validator _ ↦ judges_settle h _ _ _

theorem judges_bootstrapDeployment (h : draft.Sound) (bootstrap : WritingKey) :
    Judges (setting.bootstrapDeployment draft bootstrap) fun result ↦ result.Sound := by
  refine (Judges.require rfl).bind fun _ _ ↦ ?_
  refine (Judges.answered (h.legible.deployment bootstrap)).bind fun record? _ ↦ ?_
  refine (Judges.require rfl).bind fun _ _ ↦ ?_
  refine (judges_requireFeeAndValidator h).bind fun validator _ ↦ ?_
  have hrecord : (ViewKey.deployment bootstrap).Holds
      (DeploymentRecord.encode ⟨setting.operation.requester, setting.operation.tx⟩) := ⟨_, rfl⟩
  exact judges_settle (Draft.sound_put h hrecord) _ _ _

/-! ### Rules that ask for a member to join -/

section Joining

variable {base : View}

theorem judges_addIndexer (h : base.Sound)
    (hstand : base.MembersStand setting.bootstrap setting.members) (target : Address) :
    Judges (setting.addIndexer { base } target) fun result ↦ result.Sound := by
  have h : Draft.Sound { base } := h
  refine (judges_requireAdmin h).bind fun admin hadmin ↦ ?_
  have hgoverned := hstand.governed hadmin
  refine (Draft.judges_existingNode h target rfl).bind fun node hnode ↦ ?_
  refine (Judges.require rfl).bind fun _ hwriter ↦ (Judges.require rfl).bind fun _ hindexer ↦ ?_
  have habsent := hgoverned.not_contains_of_not_isIndexer hnode hwriter hindexer
  refine (Draft.judges_addMember h habsent).bind fun joined hjoined ↦ ?_
  exact judges_settle (Draft.sound_putNode hjoined _ _) _ _ _

theorem judges_adminRecovery (h : base.Sound)
    (hstand : base.MembersStand setting.bootstrap setting.members) (key : WritingKey) :
    Judges (setting.adminRecovery { base } key) fun result ↦ result.Sound := by
  have h : Draft.Sound { base } := h
  refine (Draft.judges_admin h).bind fun admin? hadmin ↦ ?_
  refine (Judges.demand rfl).bind fun admin hsome ↦ (Judges.require rfl).bind fun _ _ ↦ ?_
  rw [hsome] at hadmin
  have hgoverned := hstand.governed hadmin
  refine (Judges.answered (h.legible.writerOwner key)).bind fun owner? howner ↦ ?_
  refine (Judges.require rfl).bind fun _ hnone ↦ ?_
  rw [hnone] at howner
  refine (Judges.require rfl).bind fun _ _ ↦ (judges_validator h).bind fun validator _ ↦ ?_
  refine (Judges.require rfl).bind fun _ _ ↦ ?_
  refine (Draft.judges_existingNode h admin.address rfl).bind fun node _ ↦ ?_
  have hrecord : ViewKey.admin.Holds (AdminRecord.encode { admin with writingKey := key }) :=
    ⟨_, rfl⟩
  have hput := Draft.sound_put (Draft.sound_putWriterOwner
    (Draft.sound_putNode h admin.address { node with writingKey := key }) key admin.address) hrecord
  have habsent := hgoverned.not_contains_of_unbound howner
  refine (Draft.judges_addMember hput habsent).bind fun joined hjoined ↦ ?_
  refine (Draft.judges_removeMember hjoined _ _).bind fun left hleft ↦ ?_
  exact judges_settle hleft _ _ _

/-- No rule is refused defensively in a sound view with the members that belong to it. -/
theorem judges_rule (h : base.Sound)
    (hstand : base.MembersStand setting.bootstrap setting.members)
    (hfamily : setting.operation.body.family = setting.operation.kind.family) :
    Judges (setting.rule { base }) fun result ↦ result.Sound := by
  have hdraft : Draft.Sound { base } := h
  cases hkind : setting.operation.kind <;> cases hbody : setting.operation.body <;>
    rw [hkind, hbody] at hfamily <;> try cases hfamily
  all_goals simp only [rule, hkind, hbody]
  case addAdmin.coreAdmin key => exact judges_addAdmin hdraft key
  case disableInitialization.coreAdmin key => exact judges_disableInitialization hdraft key
  case balanceInitialization.balanceInitialization target amount =>
    exact judges_balanceInitialization hdraft target amount
  case appendWhitelist.adminControl target => exact judges_appendWhitelist hdraft target
  case banValidator.adminControl target => exact judges_banValidator hdraft target
  case addIndexer.adminControl target => exact judges_addIndexer h hstand target
  case removeIndexer.adminControl target => exact judges_removeIndexer hdraft target
  case addWriter.roleAccess key => exact judges_addWriter hdraft key
  case removeWriter.roleAccess key => exact judges_removeWriter hdraft key
  case adminRecovery.roleAccess key => exact judges_adminRecovery h hstand key
  case transfer.transfer recipient amount => exact judges_transfer hdraft recipient amount
  case transaction.transaction writer content external ledger =>
    exact judges_transaction hdraft external ledger
  case bootstrapDeployment.bootstrapDeployment bootstrap channel =>
    exact judges_bootstrapDeployment hdraft bootstrap

end Joining

end Setting

/-! ### Deliveries -/

theorem Operation.judges_authenticate (op : Operation) (suite : Suite) :
    Judges (op.authenticate suite) fun _ ↦ True := by
  refine (Judges.require rfl).bind fun _ _ ↦ (Judges.require rfl).bind fun _ _ ↦ ?_
  exact (Judges.require rfl).mono fun _ _ ↦ trivial

theorem Operation.judges_transition {op : Operation} {suite : Suite} {config : Config}
    {context : Context} {base : View} {members : Membership} {delivery : Delivery}
    (h : base.Sound) (hstand : base.MembersStand context.bootstrap members)
    (hfamily : op.body.family = op.kind.family) :
    Judges (op.transition suite config context base members delivery) fun _ ↦ True := by
  refine (op.judges_authenticate suite).bind fun _ _ ↦ ?_
  refine (Judges.answered h.legible.initializing).bind fun initializing _ ↦ ?_
  refine (Judges.answered (h.legible.isApplied op.tx)).bind fun found _ ↦ ?_
  cases found with
  | true => exact rfl
  | false =>
    refine (Judges.require rfl).bind fun _ _ ↦ ?_
    exact (Setting.judges_rule h hstand hfamily).bind fun draft _ ↦ trivial

theorem Delivery.judges_operation (delivery : Delivery) :
    Judges delivery.operation fun op ↦ op.body.family = op.kind.family := by
  refine (Judges.mapError fun _ ↦ rfl).bind fun raw _ ↦ ?_
  exact (Judges.mapError fun _ ↦ rfl).mono fun op hvalid ↦ RawOperation.family_of_validate hvalid

/-! ### Runs -/

namespace Replica

/-- Every entry of a replica decodes, and its members are those that belong to its entries. -/
structure Sound (replica : Replica) : Prop where
  view : replica.store.view.Sound
  members : replica.MembersStand

variable {replica : Replica} {delivery : Delivery} {op : Operation} {effect : Effect}

namespace Sound

theorem judges_effect (h : replica.Sound) (delivery : Delivery) :
    Judges (replica.effect delivery) fun _ ↦ True := by
  have hcarried := delivery.judges_operation
  unfold Replica.effect
  cases hop : delivery.operation with
  | error refusal => exact hcarried.of_error hop
  | ok op =>
    have htransition : Judges (op.transition replica.engine.suite replica.engine.config
        replica.context replica.store.view replica.members delivery) fun _ ↦ True :=
      Operation.judges_transition h.view h.members (hcarried.of_ok hop)
    simp only
    cases hmade : op.transition replica.engine.suite replica.engine.config replica.context
        replica.store.view replica.members delivery with
    | error refusal => exact htransition.of_error hmade
    | ok made => exact trivial

theorem commit (h : replica.Sound) (heffect : replica.effect delivery = .ok (op, effect)) :
    (replica.commit effect.writes effect.changes).Sound where
  view := by
    obtain ⟨initializing, draft, happlied⟩ := applied_of_effect heffect
    have hfamily := delivery.judges_operation.of_ok happlied.carried
    have hrule : Judges ((replica.setting op delivery.log initializing).rule
        { base := replica.store.view }) fun result ↦ result.Sound :=
      Setting.judges_rule h.view h.members hfamily
    have hmarker : (ViewKey.applied op.tx).Holds delivery.bytes :=
      fun log ↦ ⟨op, happlied.carried, rfl⟩
    rw [happlied.view]
    exact Draft.sound_put (hrule.of_ok happlied.rule) hmarker
  members := membersStand_commit h.members heffect

/-- No delivery of a batch is refused defensively. -/
theorem outcomes (h : replica.Sound) (deliveries : List Delivery) :
    ∀ outcome ∈ (replica.apply deliveries).2.outcomes, ∀ refusal,
      outcome.verdict = .skipped refusal → refusal.isDefensive = false := by
  induction deliveries generalizing replica with
  | nil => exact fun outcome houtcome ↦ absurd houtcome List.not_mem_nil
  | cons delivery rest ih =>
    intro outcome houtcome refusal hskipped
    rw [← List.singleton_append, apply_append] at houtcome
    cases heffect : replica.effect delivery with
    | error cause =>
      rw [apply_singleton_of_error heffect, outcome_of_error heffect] at houtcome
      rcases List.mem_append.mp houtcome with hfirst | hlater
      · rw [List.mem_singleton.mp hfirst] at hskipped
        cases hskipped
        exact (h.judges_effect delivery).of_error heffect
      · exact ih h outcome hlater refusal hskipped
    | ok made =>
      rw [apply_singleton_of_ok heffect, outcome_of_ok heffect] at houtcome
      rcases List.mem_append.mp houtcome with hfirst | hlater
      · rw [List.mem_singleton.mp hfirst] at hskipped
        cases hskipped
      · exact ih (h.commit heffect) outcome hlater refusal hskipped

end Sound

theorem sound_run (engine : Engine) (bootstrap : WritingKey) (txValidity : Hash)
    (events : List ReplicaEvent) : ((fresh engine bootstrap txValidity).run events).Sound :=
  run_induction (P := Sound) (fun _ _ h ↦ ⟨h.view, h.members⟩)
    (fun _ _ _ _ h heffect ↦ h.commit heffect) _
    ⟨fun _ ↦ Or.inl rfl, membersStand_fresh engine bootstrap txValidity⟩ events

/-- **The ledger never corrupts itself.** In every reachable state each entry of the store lies under
the text of a key, with bytes that decode with the codec of that key. No delivery is ever refused
because the view could not be read, because its body is not of the family of its kind, or because a
writing key that joins the membership set is in it: whatever its bytes and its log are, whatever came
before it in the batch, and whatever membership sequence is current. -/
theorem store_never_corrupt (engine : Engine) (bootstrap : WritingKey) (txValidity : Hash)
    (events : List ReplicaEvent) :
    let replica := (fresh engine bootstrap txValidity).run events
    (∀ text bytes, (text, bytes) ∈ replica.store.entries →
        ∃ key : ViewKey, text = key.text ∧ key.Decodes bytes) ∧
      ∀ digest deliveries,
        ∀ outcome ∈ ((replica.withTxValidity digest).apply deliveries).2.outcomes,
          (∀ error, outcome.verdict ≠ .skipped (.unreadable error)) ∧
            outcome.verdict ≠ .skipped (.rejected .bodyMismatch) ∧
            outcome.verdict ≠ .skipped (.rejected .membershipConflict) := by
  intro replica
  have hsound : replica.Sound := sound_run engine bootstrap txValidity events
  refine ⟨fun text bytes hmem ↦ ?_, fun digest deliveries outcome houtcome ↦ ?_⟩
  · have hread : replica.store.view text = .ok (some bytes) :=
      congrArg Except.ok (SortedMap.mem_entries_iff.mp hmem)
    rcases hsound.view text with hnone | ⟨key, found, htext, hfound, hholds⟩
    · rw [hread] at hnone
      cases hnone
    · rw [hread] at hfound
      cases hfound
      exact ⟨key, htext, hholds.decodes⟩
  · have hlater : (replica.withTxValidity digest).Sound := ⟨hsound.view, hsound.members⟩
    have hfair := hlater.outcomes deliveries outcome houtcome
    refine ⟨fun error hskipped ↦ ?_, fun hskipped ↦ ?_, fun hskipped ↦ ?_⟩
    · cases hfair _ hskipped
    · cases hfair _ hskipped
    · cases hfair _ hskipped

end Replica

end SettlementLedger
