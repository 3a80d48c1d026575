import SettlementLedger.Proofs.KeySpace
import SettlementLedger.Transition

/-!
# Steps of a draft

A rule works on a draft by a few steps: it reads entries, stages writes, asks for membership changes
and keeps the registries. Each step is described once here, by what it reads and by the draft it
leaves, and the rules are then read off these descriptions (`…_eq_ok`).

A staged write is seen by reads of its own entry and by no other read (`Draft.readAs_put`), because
no two entries share a text.
-/

set_option autoImplicit false
set_option relaxedAutoImplicit false

namespace SettlementLedger

/-! ### Reads of a view -/

namespace View

theorem readAs_congr {α : Type} {first second : View} {key : ViewKey}
    (h : first.read key = second.read key) (decode : Bytes → Except CodecError α) :
    first.readAs decode key = second.readAs decode key := by
  rw [readAs, readAs, h]

/-- An entry that decodes. -/
theorem readAs_of_read {α : Type} {view : View} {key : ViewKey} {bytes : Bytes} {value : α}
    {decode : Bytes → Except CodecError α} (h : view.read key = .ok (some bytes))
    (hvalue : decode bytes = .ok value) : view.readAs decode key = .ok (some value) := by
  simp only [readAs, h, bind, Except.bind, hvalue]
  rfl

theorem readAs_eq_some_iff {α : Type} {view : View} {key : ViewKey} {value : α}
    {decode : Bytes → Except CodecError α} :
    view.readAs decode key = .ok (some value) ↔
      ∃ bytes, view.read key = .ok (some bytes) ∧ decode bytes = .ok value := by
  constructor
  · intro h
    obtain ⟨bytes?, hread, h⟩ := bind_eq_ok.mp h
    cases bytes? with
    | none => cases h
    | some bytes =>
      refine ⟨bytes, hread, ?_⟩
      cases hdecode : decode bytes with
      | error cause =>
        simp only [hdecode] at h
        cases h
      | ok found =>
        simp only [hdecode] at h
        cases h
        rfl
  · rintro ⟨bytes, hread, hvalue⟩
    exact readAs_of_read hread hvalue

theorem readAs_eq_none_iff {α : Type} {view : View} {key : ViewKey}
    {decode : Bytes → Except CodecError α} :
    view.readAs decode key = .ok none ↔ view.read key = .ok none := by
  constructor
  · intro h
    obtain ⟨bytes?, hread, h⟩ := bind_eq_ok.mp h
    cases bytes? with
    | none => exact hread
    | some bytes =>
      cases hdecode : decode bytes with
      | error cause =>
        simp only [hdecode] at h
        cases h
      | ok found =>
        simp only [hdecode] at h
        cases h
  · intro h
    simp only [readAs, h]
    rfl

theorem isApplied_eq_ok {view : View} {tx : Hash} {found : Bool} :
    view.isApplied tx = .ok found ↔
      ∃ bytes?, view.appliedOperation tx = .ok bytes? ∧ bytes?.isSome = found := by
  simp only [isApplied, bind_eq_ok, pure_eq_ok]

@[simp] theorem decodeEntry_bytes (a : Address) : decodeEntry a.bytes = .ok a := by
  rw [decodeEntry, Address.parse_bytes]
  rfl

end View

/-! ### Reads through staged writes -/

namespace Draft

variable {draft result : Draft}

@[simp] theorem base_put (draft : Draft) (key : ViewKey) (value : Bytes) :
    (draft.put key value).base = draft.base := rfl

@[simp] theorem changes_put (draft : Draft) (key : ViewKey) (value : Bytes) :
    (draft.put key value).changes = draft.changes := rfl

@[simp] theorem base_putNode (draft : Draft) (address : Address) (node : NodeRecord) :
    (draft.putNode address node).base = draft.base := rfl

@[simp] theorem changes_putNode (draft : Draft) (address : Address) (node : NodeRecord) :
    (draft.putNode address node).changes = draft.changes := rfl

@[simp] theorem base_putWriterOwner (draft : Draft) (key : WritingKey) (address : Address) :
    (draft.putWriterOwner key address).base = draft.base := rfl

@[simp] theorem changes_putWriterOwner (draft : Draft) (key : WritingKey) (address : Address) :
    (draft.putWriterOwner key address).changes = draft.changes := rfl

/-- A staged write is not seen under other texts. -/
theorem view_put_of_ne (draft : Draft) {key : ViewKey} {text : String} (h : text ≠ key.text)
    (value : Bytes) : (draft.put key value).view text = draft.view text := by
  simp only [view, put, stage, WriteSet.onto, SortedMap.get?_insert, if_neg h]

/-- A staged write is read back, and every other entry reads as before. -/
theorem read_put (draft : Draft) (key key' : ViewKey) (value : Bytes) :
    (draft.put key value).view.read key' =
      if key' = key then .ok (some value) else draft.view.read key' := by
  simp only [View.read, Draft.view, put, stage, WriteSet.onto, SortedMap.get?_insert,
    ViewKey.text_inj]
  by_cases h : key' = key
  · simp only [h, if_true]
    rfl
  · simp only [h, if_false]

theorem readAs_put_self {α : Type} (draft : Draft) (key : ViewKey) {value : Bytes} {a : α}
    {decode : Bytes → Except CodecError α} (h : decode value = .ok a) :
    (draft.put key value).view.readAs decode key = .ok (some a) :=
  View.readAs_of_read ((draft.read_put key key value).trans (if_pos rfl)) h

theorem readAs_put_of_ne {α : Type} (draft : Draft) {key key' : ViewKey} (h : key' ≠ key)
    (value : Bytes) (decode : Bytes → Except CodecError α) :
    (draft.put key value).view.readAs decode key' = draft.view.readAs decode key' :=
  View.readAs_congr ((draft.read_put key key' value).trans (if_neg h)) decode

@[simp] theorem node_put (draft : Draft) {key : ViewKey} (h : ∀ a, key ≠ .node a) (value : Bytes)
    (a : Address) : (draft.put key value).view.node a = draft.view.node a :=
  draft.readAs_put_of_ne (h a).symm value _

@[simp] theorem admin_put (draft : Draft) {key : ViewKey} (h : key ≠ .admin) (value : Bytes) :
    (draft.put key value).view.admin = draft.view.admin :=
  draft.readAs_put_of_ne h.symm value _

@[simp] theorem writerOwner_put (draft : Draft) {key : ViewKey} (h : ∀ k, key ≠ .writerOwner k)
    (value : Bytes) (k : WritingKey) :
    (draft.put key value).view.writerOwner k = draft.view.writerOwner k :=
  draft.readAs_put_of_ne (h k).symm value _

@[simp] theorem node_putNode (draft : Draft) (address a : Address) (node : NodeRecord) :
    (draft.putNode address node).view.node a =
      if a = address then .ok (some node) else draft.view.node a := by
  split
  · rename_i h
    rw [h]
    exact draft.readAs_put_self _ (NodeRecord.decode_encode node)
  · rename_i h
    exact draft.readAs_put_of_ne (fun hkey ↦ h (ViewKey.node.inj hkey)) _ _

@[simp] theorem admin_putNode (draft : Draft) (address : Address) (node : NodeRecord) :
    (draft.putNode address node).view.admin = draft.view.admin :=
  draft.admin_put (by simp) _

@[simp] theorem writerOwner_putNode (draft : Draft) (address : Address) (node : NodeRecord)
    (k : WritingKey) :
    (draft.putNode address node).view.writerOwner k = draft.view.writerOwner k :=
  draft.writerOwner_put (by simp) _ k

@[simp] theorem admin_put_admin (draft : Draft) (record : AdminRecord) :
    (draft.put .admin record.encode).view.admin = .ok (some record) :=
  draft.readAs_put_self _ (AdminRecord.decode_encode record)

@[simp] theorem node_putWriterOwner (draft : Draft) (key : WritingKey) (address a : Address) :
    (draft.putWriterOwner key address).view.node a = draft.view.node a :=
  draft.node_put (by simp) _ a

@[simp] theorem admin_putWriterOwner (draft : Draft) (key : WritingKey) (address : Address) :
    (draft.putWriterOwner key address).view.admin = draft.view.admin :=
  draft.admin_put (by simp) _

@[simp] theorem writerOwner_putWriterOwner (draft : Draft) (key k : WritingKey)
    (address : Address) :
    (draft.putWriterOwner key address).view.writerOwner k =
      if k = key then .ok (some address) else draft.view.writerOwner k := by
  split
  · rename_i h
    rw [h]
    exact draft.readAs_put_self _ (View.decodeEntry_bytes address)
  · rename_i h
    exact draft.readAs_put_of_ne (fun hkey ↦ h (ViewKey.writerOwner.inj hkey)) _ _

/-! ### Reads that must succeed -/

@[simp] theorem node_eq_ok {address : Address} {node? : Option NodeRecord} :
    draft.node address = .ok node? ↔ draft.view.node address = .ok node? :=
  answered_eq_ok

@[simp] theorem existingNode_eq_ok {address : Address} {missing : Rejection} {node : NodeRecord} :
    draft.existingNode address missing = .ok node ↔ draft.view.node address = .ok (some node) := by
  simp only [existingNode, bind_eq_ok, node_eq_ok, demand_eq_ok, exists_eq_right]

@[simp] theorem admin_eq_ok {admin? : Option AdminRecord} :
    draft.admin = .ok admin? ↔ draft.view.admin = .ok admin? :=
  answered_eq_ok

theorem isAdmin_eq_ok {address : Address} {found : Bool} :
    draft.isAdmin address = .ok found ↔ ∃ admin?, draft.view.admin = .ok admin? ∧
      (admin?.any fun record ↦ record.address = address) = found := by
  simp only [isAdmin, bind_eq_ok, admin_eq_ok, pure_eq_ok]

/-! ### Membership changes -/

theorem addMember_eq_ok {members : Membership} {key : WritingKey} :
    draft.addMember members key = .ok result ↔ ¬ members.containsAfter draft.changes key ∧
      { draft with changes := draft.changes ++ [.add key] } = result := by
  simp only [addMember, bind_eq_ok, require_eq_ok, pure_eq_ok, exists_const]

theorem removeMember_eq_ok {members : Membership} {key : WritingKey} :
    draft.removeMember members key = .ok result ↔
      (members.containsAfter draft.changes key ∧ 1 < members.sizeAfter draft.changes ∧
          { draft with changes := draft.changes ++ [.remove key] } = result) ∨
        (¬ members.containsAfter draft.changes key ∧ draft = result) := by
  unfold removeMember
  by_cases h : members.containsAfter draft.changes key = true
  · simp only [h, if_true, bind_eq_ok, require_eq_ok, pure_eq_ok, exists_const, true_and,
      not_true_eq_false, false_and, or_false]
  · simp [h, pure_eq_ok]

theorem view_of_addMember {members : Membership} {key : WritingKey}
    (h : draft.addMember members key = .ok result) : result.view = draft.view := by
  obtain ⟨-, rfl⟩ := addMember_eq_ok.mp h
  rfl

theorem view_of_removeMember {members : Membership} {key : WritingKey}
    (h : draft.removeMember members key = .ok result) : result.view = draft.view := by
  rcases removeMember_eq_ok.mp h with ⟨-, -, rfl⟩ | ⟨-, rfl⟩ <;> rfl

/-- Whether a member is asked to leave or not, the view is the same. -/
theorem view_of_removal {members : Membership} {key : WritingKey} {p q : Prop}
    (h : (p ∧ draft.removeMember members key = .ok result) ∨ (q ∧ draft = result)) :
    result.view = draft.view := by
  rcases h with ⟨-, hleft⟩ | ⟨-, rfl⟩
  · exact view_of_removeMember hleft
  · rfl

theorem base_of_addMember {members : Membership} {key : WritingKey}
    (h : draft.addMember members key = .ok result) : result.base = draft.base := by
  obtain ⟨-, rfl⟩ := addMember_eq_ok.mp h
  rfl

theorem base_of_removeMember {members : Membership} {key : WritingKey}
    (h : draft.removeMember members key = .ok result) : result.base = draft.base := by
  rcases removeMember_eq_ok.mp h with ⟨-, -, rfl⟩ | ⟨-, rfl⟩ <;> rfl

/-! ### Registries -/

theorem licenseOf_eq_ok {address : Address} {node : NodeRecord} {license : UInt32} :
    draft.licenseOf address node = .ok (license, result) ↔
      (node.hasLicense ∧ node.license = license ∧ draft = result) ∨
        (¬ node.hasLicense ∧ ∃ count, draft.view.licenseCount = .ok count ∧
          Counter.next? count = some license ∧
          (draft.put (.licenseOwner license) address.bytes).put .licenseCount
            (Counter.encode license) = result) := by
  unfold licenseOf
  by_cases h : node.hasLicense = true
  · simp [h, pure_eq_ok]
  · simp only [h, if_false, Bool.false_eq_true, assignLicense, bind_eq_ok, answered_eq_ok,
      demand_eq_ok, pure_eq_ok, Prod.mk.injEq, false_and, false_or, not_false_eq_true, true_and]
    constructor
    · rintro ⟨count, hcount, next, hnext, rfl, hresult⟩
      exact ⟨count, hcount, hnext, hresult⟩
    · rintro ⟨count, hcount, hnext, hresult⟩
      exact ⟨count, hcount, license, hnext, rfl, hresult⟩

theorem base_of_licenseOf {address : Address} {node : NodeRecord} {license : UInt32}
    (h : draft.licenseOf address node = .ok (license, result)) : result.base = draft.base := by
  rcases licenseOf_eq_ok.mp h with ⟨-, -, rfl⟩ | ⟨-, count, -, -, rfl⟩ <;> rfl

theorem changes_of_licenseOf {address : Address} {node : NodeRecord} {license : UInt32}
    (h : draft.licenseOf address node = .ok (license, result)) :
    result.changes = draft.changes := by
  rcases licenseOf_eq_ok.mp h with ⟨-, -, rfl⟩ | ⟨-, count, -, -, rfl⟩ <;> rfl

/-- Issuing a license touches the license entries only. -/
theorem read_of_licenseOf {address : Address} {node : NodeRecord} {license : UInt32}
    (h : draft.licenseOf address node = .ok (license, result)) {key : ViewKey}
    (hcount : key ≠ .licenseCount) (howner : ∀ l, key ≠ .licenseOwner l) :
    result.view.read key = draft.view.read key := by
  rcases licenseOf_eq_ok.mp h with ⟨-, -, rfl⟩ | ⟨-, count, -, -, rfl⟩
  · rfl
  · rw [read_put, if_neg hcount, read_put, if_neg (howner license)]

theorem node_of_licenseOf {address : Address} {node : NodeRecord} {license : UInt32}
    (h : draft.licenseOf address node = .ok (license, result)) (a : Address) :
    result.view.node a = draft.view.node a :=
  View.readAs_congr (read_of_licenseOf h (by simp) (by simp)) _

theorem admin_of_licenseOf {address : Address} {node : NodeRecord} {license : UInt32}
    (h : draft.licenseOf address node = .ok (license, result)) :
    result.view.admin = draft.view.admin :=
  View.readAs_congr (read_of_licenseOf h (by simp) (by simp)) _

theorem writerOwner_of_licenseOf {address : Address} {node : NodeRecord} {license : UInt32}
    (h : draft.licenseOf address node = .ok (license, result)) (key : WritingKey) :
    result.view.writerOwner key = draft.view.writerOwner key :=
  View.readAs_congr (read_of_licenseOf h (by simp) (by simp)) _

theorem requireAvailable_eq_ok {key : WritingKey} {address : Address} {u : Unit} :
    draft.requireAvailable key address = .ok u ↔ ∃ owner, draft.view.writerOwner key = .ok owner ∧
      ∀ a, owner = some a → a = address := by
  simp only [requireAvailable, bind_eq_ok, answered_eq_ok, require_eq_ok]

/-- A draft after a writing key that was bound to nobody is bound and takes a position. -/
def appendWriter (draft : Draft) (position length : UInt32) (key : WritingKey)
    (address : Address) : Draft :=
  ((draft.put (.writerAt position) address.bytes).put .writersLength
    (Counter.encode length)).putWriterOwner key address

theorem bindWriter_eq_ok {key : WritingKey} {address : Address} :
    draft.bindWriter key address = .ok result ↔
      (draft.view.writerOwner key = .ok (some address) ∧ draft = result) ∨
        (draft.view.writerOwner key = .ok none ∧ ∃ position length,
          draft.view.writersLength = .ok position ∧ Counter.next? position = some length ∧
          draft.appendWriter position length key address = result) := by
  simp only [bindWriter, bind_eq_ok, answered_eq_ok]
  constructor
  · rintro ⟨owner?, howner, h⟩
    cases owner? with
    | some owner =>
      simp only [bind_eq_ok, require_eq_ok, pure_eq_ok, exists_const] at h
      obtain ⟨rfl, rfl⟩ := h
      exact Or.inl ⟨howner, rfl⟩
    | none =>
      simp only [bind_eq_ok, answered_eq_ok, demand_eq_ok, pure_eq_ok] at h
      obtain ⟨position, hposition, length, hlength, rfl⟩ := h
      exact Or.inr ⟨howner, position, length, hposition, hlength, rfl⟩
  · rintro (⟨howner, rfl⟩ | ⟨howner, position, length, hposition, hlength, rfl⟩)
    · refine ⟨some address, howner, ?_⟩
      simp only [bind_eq_ok, require_eq_ok, pure_eq_ok, exists_const, and_self]
    · refine ⟨none, howner, ?_⟩
      simp only [bind_eq_ok, answered_eq_ok, demand_eq_ok, pure_eq_ok]
      exact ⟨position, hposition, length, hlength, rfl⟩

theorem base_of_bindWriter {key : WritingKey} {address : Address}
    (h : draft.bindWriter key address = .ok result) : result.base = draft.base := by
  rcases bindWriter_eq_ok.mp h with ⟨-, rfl⟩ | ⟨-, position, length, -, -, rfl⟩ <;> rfl

theorem changes_of_bindWriter {key : WritingKey} {address : Address}
    (h : draft.bindWriter key address = .ok result) : result.changes = draft.changes := by
  rcases bindWriter_eq_ok.mp h with ⟨-, rfl⟩ | ⟨-, position, length, -, -, rfl⟩ <;> rfl

/-- Binding a writing key touches the writer registry only. -/
theorem read_of_bindWriter {key : WritingKey} {address : Address}
    (h : draft.bindWriter key address = .ok result) {entry : ViewKey}
    (hlength : entry ≠ .writersLength) (hat : ∀ position, entry ≠ .writerAt position)
    (howner : ∀ k, entry ≠ .writerOwner k) : result.view.read entry = draft.view.read entry := by
  rcases bindWriter_eq_ok.mp h with ⟨-, rfl⟩ | ⟨-, position, length, -, -, rfl⟩
  · rfl
  · rw [appendWriter, putWriterOwner, read_put, if_neg (howner key), read_put, if_neg hlength,
      read_put, if_neg (hat position)]

theorem node_of_bindWriter {key : WritingKey} {address : Address}
    (h : draft.bindWriter key address = .ok result) (a : Address) :
    result.view.node a = draft.view.node a :=
  View.readAs_congr (read_of_bindWriter h (by simp) (by simp) (by simp)) _

theorem admin_of_bindWriter {key : WritingKey} {address : Address}
    (h : draft.bindWriter key address = .ok result) : result.view.admin = draft.view.admin :=
  View.readAs_congr (read_of_bindWriter h (by simp) (by simp) (by simp)) _

/-- The key is bound to the participant afterwards, and no other key is touched. -/
theorem writerOwner_of_bindWriter {key : WritingKey} {address : Address}
    (h : draft.bindWriter key address = .ok result) (k : WritingKey) :
    result.view.writerOwner k =
      if k = key then .ok (some address) else draft.view.writerOwner k := by
  rcases bindWriter_eq_ok.mp h with ⟨howner, rfl⟩ | ⟨-, position, length, -, -, rfl⟩
  · by_cases hk : k = key
    · rw [if_pos hk, hk, howner]
    · rw [if_neg hk]
  · rw [appendWriter, writerOwner_putWriterOwner, writerOwner_put _ (by simp),
      writerOwner_put _ (by simp)]

end Draft

/-! ### Authority -/

namespace Setting

variable {setting : Setting} {draft : Draft}

theorem requireAdmin_eq_ok {admin : AdminRecord} :
    setting.requireAdmin draft = .ok admin ↔ draft.view.admin = .ok (some admin) ∧
      setting.operation.requester = admin.address ∧ setting.log = admin.writingKey := by
  simp only [requireAdmin, bind_eq_ok, Draft.admin_eq_ok, demand_eq_ok, require_eq_ok, pure_eq_ok,
    exists_const]
  constructor
  · rintro ⟨_, hadmin, found, rfl, hsame, rfl⟩
    exact ⟨hadmin, hsame⟩
  · rintro ⟨hadmin, hsame⟩
    exact ⟨some admin, hadmin, admin, rfl, hsame, rfl⟩

/-- Who a validator is: it signed, it is a writer on the log of the delivery, and the registry binds
the log to it. -/
theorem validator_eq_ok {address : Address} :
    setting.validator draft = .ok address ↔
      ∃ cosignature, setting.operation.cosignature = some cosignature ∧
        cosignature.validator = address ∧ setting.suite.isKey address.key ∧
        setting.suite.verify address.key (Message.validatorHash setting.suite setting.operation.tx
          address cosignature.nonce).bytes cosignature.signature ∧
        (∃ node, draft.view.node address = .ok (some node) ∧ node.role.isWriter ∧
          node.writingKey = setting.log) ∧
        draft.view.writerOwner setting.log = .ok (some address) := by
  simp only [validator, bind_eq_ok, demand_eq_ok, require_eq_ok, Draft.node_eq_ok, answered_eq_ok,
    pure_eq_ok, exists_const]
  constructor
  · rintro ⟨cosignature, hcosignature, hkey, hverify, _, hnode, node, hfilter, hlog, owner,
      howner, rfl, rfl⟩
    obtain ⟨rfl, hwriter⟩ := Option.filter_eq_some_iff.mp hfilter
    exact ⟨cosignature, hcosignature, rfl, hkey, hverify, ⟨node, hnode, hwriter, hlog⟩, howner⟩
  · rintro ⟨cosignature, hcosignature, rfl, hkey, hverify, ⟨node, hnode, hwriter, hlog⟩, howner⟩
    exact ⟨cosignature, hcosignature, hkey, hverify, some node, hnode, node,
      Option.filter_eq_some_iff.mpr ⟨rfl, hwriter⟩, hlog, _, howner, rfl, rfl⟩

end Setting

end SettlementLedger
