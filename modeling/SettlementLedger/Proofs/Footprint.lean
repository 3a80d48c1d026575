import SettlementLedger.Proofs.Runs

/-!
# What an operation may write

An applied operation writes its replay marker, and besides that only entries of the kinds that its
own kind provides for, with values that their codecs accept (`Operation.MayWrite`). Every other
entry reads afterwards as it did before (`Replica.Applied.read_eq`); so no operation but the one with
a given hash touches the marker of that hash, and no operation but two kinds touches a license.

From this it follows that every entry of a reachable state decodes (`View.Legible`,
`Replica.legible_run`), and that its typed reads never fail.
-/

set_option autoImplicit false
set_option relaxedAutoImplicit false

namespace SettlementLedger

/-! ### Writes with allowed values -/

namespace View

variable {allowed allowed' : ViewKey → Bytes → Prop} {before middle after : View}

/-- Every entry reads as before or reads a value that may be put there. -/
def Writes (allowed : ViewKey → Bytes → Prop) (before after : View) : Prop :=
  ∀ key, after.read key = before.read key ∨
    ∃ value, allowed key value ∧ after.read key = .ok (some value)

namespace Writes

theorem refl (view : View) : view.Writes allowed view := fun _ ↦ Or.inl rfl

theorem trans (h : before.Writes allowed middle) (h' : middle.Writes allowed after) :
    before.Writes allowed after := by
  intro key
  rcases h' key with hsame | hwritten
  · rw [hsame]
    exact h key
  · exact Or.inr hwritten

end Writes

end View

namespace Draft

variable {allowed : ViewKey → Bytes → Prop} {draft result : Draft}

theorem writes_put (draft : Draft) {key : ViewKey} {value : Bytes} (h : allowed key value) :
    draft.view.Writes allowed (draft.put key value).view := by
  intro key'
  rw [read_put]
  by_cases hkey : key' = key
  · rw [if_pos hkey, hkey]
    exact Or.inr ⟨value, h, rfl⟩
  · rw [if_neg hkey]
    exact Or.inl rfl

theorem writes_of_licenseOf {address : Address} {node : NodeRecord} {license : UInt32}
    (h : draft.licenseOf address node = .ok (license, result))
    (howner : ∀ l, allowed (.licenseOwner l) address.bytes)
    (hcount : ∀ n, allowed .licenseCount (Counter.encode n)) :
    draft.view.Writes allowed result.view := by
  rcases licenseOf_eq_ok.mp h with ⟨-, -, rfl⟩ | ⟨-, count, -, -, rfl⟩
  · exact .refl _
  · exact (draft.writes_put (howner license)).trans (writes_put _ (hcount license))

theorem writes_of_bindWriter {key : WritingKey} {address : Address}
    (h : draft.bindWriter key address = .ok result)
    (hat : ∀ position, allowed (.writerAt position) address.bytes)
    (hlength : ∀ n, allowed .writersLength (Counter.encode n))
    (howner : allowed (.writerOwner key) address.bytes) :
    draft.view.Writes allowed result.view := by
  rcases bindWriter_eq_ok.mp h with ⟨-, rfl⟩ | ⟨-, position, length, -, -, rfl⟩
  · exact .refl _
  · exact ((draft.writes_put (hat position)).trans (writes_put _ (hlength length))).trans
      (writes_put _ howner)

end Draft

/-! ### The footprint of an operation -/

/-- The participant that a body names, as a target or as a recipient. -/
def Body.subject? : Body → Option Address
  | .adminControl target | .balanceInitialization target _ => some target
  | .transfer recipient _ => some recipient
  | _ => none

namespace Operation

/-- The validator that cosigned an operation. -/
def validator? (op : Operation) : Option Address := op.cosignature.map Cosignature.validator

/-- The participants whose node records an operation may write: the requester, the participant that
the operation names, and the validator. -/
def Concerns (op : Operation) (a : Address) : Prop :=
  a = op.requester ∨ op.body.subject? = some a ∨ op.validator? = some a

/-- What an operation may put under a key, its replay marker aside. -/
def MayWrite (op : Operation) : ViewKey → Bytes → Prop
  | .admin, value =>
    op.kind ∈ [.addAdmin, .adminRecovery] ∧
      ∃ writingKey, value = AdminRecord.encode ⟨op.requester, writingKey⟩
  | .initialization, value =>
    (op.kind = .addAdmin ∧ value = [1]) ∨ (op.kind = .disableInitialization ∧ value = [0])
  | .writersLength, value =>
    op.kind ∈ [.addAdmin, .addWriter] ∧ ∃ n, value = Counter.encode n
  | .licenseCount, value =>
    op.kind ∈ [.addAdmin, .appendWhitelist] ∧ ∃ n, value = Counter.encode n
  | .node a, value => op.Concerns a ∧ ∃ node : NodeRecord, value = node.encode
  | .writerOwner _, value =>
    op.kind ∈ [.addAdmin, .addWriter, .adminRecovery] ∧ value = op.requester.bytes
  | .writerAt _, value => op.kind ∈ [.addAdmin, .addWriter] ∧ value = op.requester.bytes
  | .licenseOwner _, value =>
    op.kind ∈ [.addAdmin, .appendWhitelist] ∧ ∃ a, op.Concerns a ∧ value = Address.bytes a
  | .deployment bootstrap, value =>
    op.kind = .bootstrapDeployment ∧ (∃ channel, op.body = .bootstrapDeployment bootstrap channel) ∧
      value = DeploymentRecord.encode ⟨op.requester, op.tx⟩
  | .applied _, _ => False

theorem concerns_requester (op : Operation) : op.Concerns op.requester := Or.inl rfl

theorem mayWrite_node {op : Operation} {a : Address} (h : op.Concerns a) (node : NodeRecord) :
    op.MayWrite (.node a) node.encode :=
  ⟨h, node, rfl⟩

end Operation

namespace Setting

variable {setting : Setting} {draft result : Draft}

theorem validator?_eq_some {validator : Address} (h : setting.validator draft = .ok validator) :
    setting.operation.validator? = some validator := by
  obtain ⟨cosignature, hcosignature, rfl, -⟩ := validator_eq_ok.mp h
  rw [Operation.validator?, hcosignature, Option.map_some]

theorem concerns_validator {validator : Address} (h : setting.validator draft = .ok validator) :
    setting.operation.Concerns validator :=
  Or.inr (Or.inr (validator?_eq_some h))

theorem concerns_subject {a : Address} (h : setting.operation.body.subject? = some a) :
    setting.operation.Concerns a :=
  Or.inr (Or.inl h)

/-! ### The rules -/

theorem writes_putNode (draft : Draft) {a : Address} (h : setting.operation.Concerns a)
    (node : NodeRecord) :
    draft.view.Writes setting.operation.MayWrite (draft.putNode a node).view :=
  draft.writes_put (Operation.mayWrite_node h node)

/-- A fee is paid by somebody the operation concerns, to somebody it concerns. -/
theorem writes_of_settle {payer : Address} {policy : FeePolicy} {validator? : Option Address}
    (h : setting.settle draft payer policy validator? = .ok result)
    (hpayer : payer = setting.operation.requester)
    (hvalidator : ∀ validator, validator? = some validator →
      setting.operation.Concerns validator) :
    draft.view.Writes setting.operation.MayWrite result.view := by
  obtain ⟨fee, -, ⟨-, rfl⟩ | ⟨-, node, -, balance, -, hreward⟩⟩ := settle_eq_ok.mp h
  · exact .refl _
  have hdebit := writes_putNode draft (Or.inl hpayer) { node with balance }
  rcases reward_eq_ok.mp hreward with ⟨-, rfl⟩ | ⟨validator, hsome, -, share, -, record, -,
    credited, -, rfl⟩
  · exact hdebit
  · exact hdebit.trans (writes_putNode _ (hvalidator validator hsome) _)

/-- A fee that no validator shares in. -/
theorem writes_of_adminFee {admin : AdminRecord} {policy : FeePolicy}
    (hadmin : setting.requireAdmin draft = .ok admin) {middle : Draft}
    (h : setting.settle middle admin.address policy none = .ok result) :
    middle.view.Writes setting.operation.MayWrite result.view :=
  writes_of_settle h (requireAdmin_eq_ok.mp hadmin).2.1.symm nofun

/-- A fee that the validator shares in. -/
theorem writes_of_sharedFee {validator : Address} {policy : FeePolicy}
    (hvalidator : setting.validator draft = .ok validator) {middle : Draft}
    (h : setting.settle middle setting.operation.requester policy (some validator) = .ok result) :
    middle.view.Writes setting.operation.MayWrite result.view := by
  refine writes_of_settle h rfl fun other hother ↦ ?_
  cases hother
  exact concerns_validator hvalidator

theorem writes_of_addAdmin {key : WritingKey} (kind : setting.operation.kind = .addAdmin)
    (h : setting.addAdmin draft key = .ok result) :
    draft.view.Writes setting.operation.MayWrite result.view := by
  obtain ⟨-, -, node?, -, license, licensed, hlicensed, balance, -, stake, -, bound, hbound,
    rfl⟩ := addAdmin_eq_ok.mp h
  have hlicense : draft.view.Writes setting.operation.MayWrite licensed.view :=
    Draft.writes_of_licenseOf hlicensed
      (fun l ↦ ⟨by simp [kind], _, setting.operation.concerns_requester, rfl⟩)
      (fun n ↦ ⟨by simp [kind], n, rfl⟩)
  have hrecord := writes_putNode licensed setting.operation.concerns_requester
    { role := .indexer, writingKey := key, balance, license, stake }
  have hbind : View.Writes setting.operation.MayWrite _ bound.view :=
    Draft.writes_of_bindWriter hbound (fun position ↦ ⟨by simp [kind], rfl⟩)
      (fun n ↦ ⟨by simp [kind], n, rfl⟩) ⟨by simp [kind], rfl⟩
  have hadmin : setting.operation.MayWrite .admin
      (AdminRecord.encode ⟨setting.operation.requester, key⟩) := ⟨by simp [kind], key, rfl⟩
  have hopen : setting.operation.MayWrite .initialization [1] := Or.inl ⟨kind, rfl⟩
  exact hlicense.trans (hrecord.trans (hbind.trans
    ((bound.writes_put hadmin).trans (Draft.writes_put _ hopen))))

theorem writes_of_adminRecovery {key : WritingKey} (kind : setting.operation.kind = .adminRecovery)
    (h : setting.adminRecovery draft key = .ok result) :
    draft.view.Writes setting.operation.MayWrite result.view := by
  obtain ⟨admin, -, hrequester, -, -, validator, hvalidator, -, node, -, joined, hjoined, left,
    hleft, hsettle⟩ := adminRecovery_eq_ok.mp h
  rw [← hrequester] at hsettle hjoined
  have hview := (Draft.view_of_removeMember hleft).trans (Draft.view_of_addMember hjoined)
  have hfee := writes_of_sharedFee hvalidator hsettle
  rw [hview] at hfee
  have howner : setting.operation.MayWrite (.writerOwner key) setting.operation.requester.bytes :=
    ⟨by simp [kind], rfl⟩
  have hadmin : setting.operation.MayWrite .admin
      (AdminRecord.encode ⟨setting.operation.requester, key⟩) := ⟨by simp [kind], key, rfl⟩
  exact (writes_putNode draft setting.operation.concerns_requester _).trans
    ((Draft.writes_put _ howner).trans ((Draft.writes_put _ hadmin).trans hfee))

theorem writes_of_addWriter {key : WritingKey} (kind : setting.operation.kind = .addWriter)
    (h : setting.addWriter draft key = .ok result) :
    draft.view.Writes setting.operation.MayWrite result.view := by
  obtain ⟨node, -, -, -, -, fee, -, required, -, -, validator, hvalidator, balance, -, stake, -,
    bound, hbound, hsettle⟩ := addWriter_eq_ok.mp h
  have hbind : View.Writes setting.operation.MayWrite _ bound.view :=
    Draft.writes_of_bindWriter hbound (fun position ↦ ⟨by simp [kind], rfl⟩)
      (fun n ↦ ⟨by simp [kind], n, rfl⟩) ⟨by simp [kind], rfl⟩
  exact (writes_putNode draft setting.operation.concerns_requester _).trans
    (hbind.trans (writes_of_sharedFee hvalidator hsettle))

theorem writes_of_appendWhitelist {target : Address}
    (kind : setting.operation.kind = .appendWhitelist)
    (body : setting.operation.body = .adminControl target)
    (h : setting.appendWhitelist draft target = .ok result) :
    draft.view.Writes setting.operation.MayWrite result.view := by
  obtain ⟨admin, hadmin, node?, -, -, license, licensed, hlicensed, hsettle⟩ :=
    appendWhitelist_eq_ok.mp h
  have htarget : setting.operation.Concerns target := concerns_subject (by rw [body]; rfl)
  have hlicense : draft.view.Writes setting.operation.MayWrite licensed.view :=
    Draft.writes_of_licenseOf hlicensed (fun l ↦ ⟨by simp [kind], target, htarget, rfl⟩)
      (fun n ↦ ⟨by simp [kind], n, rfl⟩)
  exact hlicense.trans ((writes_putNode licensed htarget _).trans
    (writes_of_adminFee hadmin hsettle))

/-- A rule writes what its operation may write. -/
theorem writes_of_rule (h : setting.rule draft = .ok result) :
    draft.view.Writes setting.operation.MayWrite result.view := by
  cases ruling_of_rule h with
  | addAdmin key kind body ok => exact writes_of_addAdmin kind ok
  | disableInitialization key kind body ok =>
    obtain ⟨admin, hadmin, -, -, hsettle⟩ := disableInitialization_eq_ok.mp ok
    exact (draft.writes_put (Or.inr ⟨kind, rfl⟩)).trans (writes_of_adminFee hadmin hsettle)
  | balanceInitialization target amount kind body ok =>
    obtain ⟨admin, hadmin, -, node?, -, balance, -, hsettle⟩ := balanceInitialization_eq_ok.mp ok
    have htarget : setting.operation.Concerns target := concerns_subject (by rw [body]; rfl)
    exact (writes_putNode draft htarget _).trans (writes_of_adminFee hadmin hsettle)
  | appendWhitelist target kind body ok => exact writes_of_appendWhitelist kind body ok
  | banValidator target kind body ok =>
    obtain ⟨admin, hadmin, -, node, -, -, -, hsettle⟩ := banValidator_eq_ok.mp ok
    have htarget : setting.operation.Concerns target := concerns_subject (by rw [body]; rfl)
    exact (writes_putNode draft htarget _).trans (writes_of_adminFee hadmin hsettle)
  | addIndexer target kind body ok =>
    obtain ⟨admin, hadmin, node, -, -, -, joined, hjoined, hsettle⟩ := addIndexer_eq_ok.mp ok
    have htarget : setting.operation.Concerns target := concerns_subject (by rw [body]; rfl)
    rw [← Draft.view_of_addMember hjoined]
    exact (writes_putNode joined htarget _).trans (writes_of_adminFee hadmin hsettle)
  | removeIndexer target kind body ok =>
    obtain ⟨admin, hadmin, node, -, -, left, hleft, hsettle⟩ := removeIndexer_eq_ok.mp ok
    have htarget : setting.operation.Concerns target := concerns_subject (by rw [body]; rfl)
    rw [← Draft.view_of_removeMember hleft]
    exact (writes_putNode left htarget _).trans (writes_of_adminFee hadmin hsettle)
  | addWriter key kind body ok => exact writes_of_addWriter kind ok
  | removeWriter key kind body ok =>
    obtain ⟨-, node, -, -, -, validator, hvalidator, left, hleft, balance, -, hsettle⟩ :=
      removeWriter_eq_ok.mp ok
    rw [← Draft.view_of_removal hleft]
    exact (writes_putNode left setting.operation.concerns_requester _).trans
      (writes_of_sharedFee hvalidator hsettle)
  | adminRecovery key kind body ok => exact writes_of_adminRecovery kind ok
  | transfer recipient amount kind body ok =>
    obtain ⟨node, -, fee, -, required, -, -, validator, hvalidator, debited, -, credited?, -,
      balance, -, hsettle⟩ := transfer_eq_ok.mp ok
    have hrecipient : setting.operation.Concerns recipient := concerns_subject (by rw [body]; rfl)
    exact (writes_putNode draft setting.operation.concerns_requester _).trans
      ((writes_putNode _ hrecipient _).trans (writes_of_sharedFee hvalidator hsettle))
  | transaction writer content external ledger kind body ok =>
    obtain ⟨-, -, validator, hvalidator, hsettle⟩ := transaction_eq_ok.mp ok
    have hvalidator := validator_of_requireFeeAndValidator hvalidator
    exact writes_of_sharedFee hvalidator hsettle
  | bootstrapDeployment bootstrap channel kind body ok =>
    obtain ⟨-, -, validator, hvalidator, hsettle⟩ := bootstrapDeployment_eq_ok.mp ok
    have hvalidator := validator_of_requireFeeAndValidator hvalidator
    exact (draft.writes_put ⟨kind, ⟨channel, body⟩, rfl⟩).trans
      (writes_of_sharedFee hvalidator hsettle)

end Setting

/-! ### Applied operations -/

namespace Replica.Applied

variable {replica : Replica} {delivery : Delivery} {op : Operation} {effect : Effect}
  {initializing : Bool} {draft : Draft}

/-- The marker of an applied operation holds its bytes as they were delivered. -/
theorem read_marker (h : replica.Applied delivery op effect initializing draft) :
    (replica.commit effect.writes effect.changes).store.view.read (.applied op.tx) =
      .ok (some delivery.bytes) := by
  rw [h.view, Draft.read_put, if_pos rfl]

theorem read_cases (h : replica.Applied delivery op effect initializing draft) {key : ViewKey}
    (hkey : key ≠ .applied op.tx) :
    (replica.commit effect.writes effect.changes).store.view.read key =
        replica.store.view.read key ∨
      ∃ value, op.MayWrite key value ∧
        (replica.commit effect.writes effect.changes).store.view.read key = .ok (some value) := by
  rw [h.view, Draft.read_put, if_neg hkey]
  exact Setting.writes_of_rule h.rule key

/-- Entries that the operation may not write read as before. -/
theorem read_eq (h : replica.Applied delivery op effect initializing draft) {key : ViewKey}
    (hkey : key ≠ .applied op.tx) (hnot : ∀ value, ¬ op.MayWrite key value) :
    (replica.commit effect.writes effect.changes).store.view.read key =
      replica.store.view.read key := by
  rcases h.read_cases hkey with hsame | ⟨value, hallowed, -⟩
  · exact hsame
  · exact absurd hallowed (hnot value)

end Replica.Applied

/-! ### Every entry decodes -/

/-- What the bytes of an entry must be: what the codec of the entry writes, and for a replay marker
an operation with the hash that the marker stands for. -/
def ViewKey.Holds : ViewKey → Bytes → Prop
  | .admin, bytes => ∃ record : AdminRecord, bytes = record.encode
  | .initialization, bytes => bytes = [0] ∨ bytes = [1]
  | .writersLength, bytes | .licenseCount, bytes => ∃ n, bytes = Counter.encode n
  | .node _, bytes => ∃ node : NodeRecord, bytes = node.encode
  | .writerOwner _, bytes | .writerAt _, bytes | .licenseOwner _, bytes =>
    ∃ a : Address, bytes = a.bytes
  | .deployment _, bytes => ∃ record : DeploymentRecord, bytes = record.encode
  | .applied tx, bytes => ∀ log, ∃ op, Delivery.operation ⟨log, bytes⟩ = .ok op ∧ op.tx = tx

theorem Operation.MayWrite.holds {op : Operation} {key : ViewKey} {value : Bytes}
    (h : op.MayWrite key value) : key.Holds value := by
  cases key with
  | admin =>
    obtain ⟨-, writingKey, hvalue⟩ := h
    exact ⟨_, hvalue⟩
  | initialization =>
    rcases h with ⟨-, hvalue⟩ | ⟨-, hvalue⟩
    · exact Or.inr hvalue
    · exact Or.inl hvalue
  | writersLength | licenseCount | node a => exact h.2
  | writerOwner key | writerAt position => exact ⟨_, h.2⟩
  | licenseOwner license =>
    obtain ⟨-, a, -, hvalue⟩ := h
    exact ⟨a, hvalue⟩
  | deployment bootstrap => exact ⟨_, h.2.2⟩
  | applied tx => exact h.elim

namespace View

/-- Every entry is absent or decodes. -/
def Legible (view : View) : Prop :=
  ∀ key : ViewKey, view.read key = .ok none ∨
    ∃ bytes, view.read key = .ok (some bytes) ∧ key.Holds bytes

namespace Legible

variable {view : View}

/-- A typed read of an entry that decodes does not fail. -/
theorem readAs {α : Type} (h : view.Legible) {key : ViewKey} {decode : Bytes → Except CodecError α}
    (hdecode : ∀ bytes, key.Holds bytes → ∃ value, decode bytes = .ok value) :
    ∃ value?, view.readAs decode key = .ok value? := by
  rcases h key with hnone | ⟨bytes, hread, hholds⟩
  · exact ⟨none, readAs_eq_none_iff.mpr hnone⟩
  · obtain ⟨value, hvalue⟩ := hdecode bytes hholds
    exact ⟨some value, readAs_of_read hread hvalue⟩

theorem node (h : view.Legible) (a : Address) : ∃ node?, view.node a = .ok node? := by
  refine h.readAs ?_
  rintro _ ⟨node, rfl⟩
  exact ⟨node, NodeRecord.decode_encode node⟩

theorem admin (h : view.Legible) : ∃ admin?, view.admin = .ok admin? := by
  refine h.readAs ?_
  rintro _ ⟨record, rfl⟩
  exact ⟨record, AdminRecord.decode_encode record⟩

/-- An entry of a registry names an address. -/
theorem entry (h : view.Legible) {key : ViewKey}
    (hkey : ∀ bytes, key.Holds bytes → ∃ a : Address, bytes = a.bytes) :
    ∃ a?, view.readAs decodeEntry key = .ok a? := by
  refine h.readAs fun bytes hholds ↦ ?_
  obtain ⟨a, rfl⟩ := hkey bytes hholds
  exact ⟨a, decodeEntry_bytes a⟩

theorem writerOwner (h : view.Legible) (key : WritingKey) :
    ∃ owner?, view.writerOwner key = .ok owner? :=
  h.entry fun _ ↦ id

/-- An entry that counts, zero if it is absent. -/
theorem counter (h : view.Legible) {key : ViewKey}
    (hkey : ∀ bytes, key.Holds bytes → ∃ n, bytes = Counter.encode n) :
    ∃ n?, view.readAs Counter.decode key = .ok n? := by
  refine h.readAs fun bytes hholds ↦ ?_
  obtain ⟨n, rfl⟩ := hkey bytes hholds
  exact ⟨n, Counter.decode_encode n⟩

theorem writersLength (h : view.Legible) : ∃ n, view.writersLength = .ok n := by
  have hcounter : ∃ n?, view.readAs Counter.decode .writersLength = .ok n? := h.counter fun _ ↦ id
  obtain ⟨n?, hread⟩ := hcounter
  exact ⟨n?.getD 0, by rw [View.writersLength, hread]; rfl⟩

theorem licenseCount (h : view.Legible) : ∃ n, view.licenseCount = .ok n := by
  have hcounter : ∃ n?, view.readAs Counter.decode .licenseCount = .ok n? := h.counter fun _ ↦ id
  obtain ⟨n?, hread⟩ := hcounter
  exact ⟨n?.getD 0, by rw [View.licenseCount, hread]; rfl⟩

theorem deployment (h : view.Legible) (bootstrap : WritingKey) :
    ∃ record?, view.deployment bootstrap = .ok record? := by
  refine h.readAs ?_
  rintro _ ⟨record, rfl⟩
  exact ⟨record, DeploymentRecord.decode_encode record⟩

theorem isApplied (h : view.Legible) (tx : Hash) : ∃ found, view.isApplied tx = .ok found := by
  rcases h (.applied tx) with hnone | ⟨bytes, hread, -⟩
  · exact ⟨false, isApplied_eq_ok.mpr ⟨none, hnone, rfl⟩⟩
  · exact ⟨true, isApplied_eq_ok.mpr ⟨some bytes, hread, rfl⟩⟩

theorem initializing (h : view.Legible) : ∃ initializing, view.initializing = .ok initializing := by
  have hflag : ∃ flag?, view.readAs decodeFlag .initialization = .ok flag? := by
    refine h.readAs ?_
    rintro _ (rfl | rfl)
    · exact ⟨_, rfl⟩
    · exact ⟨_, rfl⟩
  obtain ⟨flag?, hread⟩ := hflag
  exact ⟨flag?.getD true, by rw [View.initializing, hread]; rfl⟩

end Legible

end View

namespace Replica

theorem legible_fresh (engine : Engine) (bootstrap : WritingKey) (txValidity : Hash) :
    (fresh engine bootstrap txValidity).store.view.Legible :=
  fun _ ↦ Or.inl rfl

/-- An applied operation leaves entries that decode. -/
theorem Applied.legible {replica : Replica} {delivery : Delivery} {op : Operation}
    {effect : Effect} {initializing : Bool} {draft : Draft}
    (h : replica.Applied delivery op effect initializing draft)
    (hbefore : replica.store.view.Legible) :
    (replica.commit effect.writes effect.changes).store.view.Legible := by
  intro key
  by_cases hkey : key = .applied op.tx
  · rw [hkey, h.read_marker]
    exact Or.inr ⟨_, rfl, fun log ↦ ⟨op, h.carried, rfl⟩⟩
  · rcases h.read_cases hkey with hsame | ⟨value, hallowed, hread⟩
    · rw [hsame]
      exact hbefore key
    · exact Or.inr ⟨value, hread, hallowed.holds⟩

/-- Every entry of a reachable state decodes. -/
theorem legible_run (engine : Engine) (bootstrap : WritingKey) (txValidity : Hash)
    (events : List ReplicaEvent) :
    ((fresh engine bootstrap txValidity).run events).store.view.Legible := by
  refine run_induction (P := fun replica ↦ replica.store.view.Legible) (fun _ _ h ↦ h) ?_ _
    (legible_fresh engine bootstrap txValidity) events
  intro replica delivery op effect h heffect
  obtain ⟨initializing, draft, happlied⟩ := applied_of_effect heffect
  exact happlied.legible h

end Replica

end SettlementLedger
