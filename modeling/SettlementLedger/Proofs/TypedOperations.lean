import SettlementLedger.Operation.Assembly
import SettlementLedger.Proofs.SchemaGrammar

/-!
# Typed operations and raw ones

Lowering and the schema are inverse to each other. The operations whose body is of the family of
their kind, with a cosignature only where the kind needs one (`Operation.WellFormed`), are those
that raw operations stand for, and each of them is the only one that its raw operation stands for
(`RawOperation.validate_eq_ok`).

The fields of an operation are a list that names no field twice (`Operation.nodup_fieldBytes`), so
the fields made of it hold exactly its values (`Fields.ofList_eq_iff`). What the schema reads from
fields, `Fields.Holds` says as well, and so the two lists of cases, one for lowering and one for the
schema, meet in the list of values.
-/

set_option autoImplicit false
set_option relaxedAutoImplicit false

namespace SettlementLedger

/-! ### Fields of a list of values -/

namespace Fields

variable {fields : Fields} {values : List (Field × Bytes)} {field : Field} {bytes : Bytes}

theorem get_foldl_set (hnodup : (values.map Prod.fst).Nodup) :
    (values.foldl (fun fields value ↦ fields.set value.1 value.2) fields).get field = some bytes ↔
      (field, bytes) ∈ values ∨ field ∉ values.map Prod.fst ∧ fields.get field = some bytes := by
  induction values generalizing fields with
  | nil => simp
  | cons value rest ih =>
    obtain ⟨f, b⟩ := value
    obtain ⟨hnot, hnodup⟩ := List.nodup_cons.mp hnodup
    rw [List.foldl_cons, ih hnodup, get_set]
    by_cases hf : field = f
    · subst hf
      have habsent : (field, bytes) ∉ rest := fun hmem ↦
        hnot (List.mem_map.mpr ⟨(field, bytes), hmem, rfl⟩)
      simp [habsent, hnot, eq_comm]
    · simp [hf]

/-- Fields made of a list that names no field twice hold its values, and nothing else. -/
theorem get_ofList_eq_some (hnodup : (values.map Prod.fst).Nodup) :
    (ofList values).get field = some bytes ↔ (field, bytes) ∈ values := by
  rw [ofList, get_foldl_set hnodup]
  simp

theorem holds_ofList (hnodup : (values.map Prod.fst).Nodup) : (ofList values).Holds values :=
  fun _ hmem ↦ (get_ofList_eq_some hnodup).mpr hmem

theorem present_ofList_iff (hnodup : (values.map Prod.fst).Nodup) :
    (ofList values).Present field ↔ field ∈ values.map Prod.fst := by
  simp only [Present, get_ofList_eq_some hnodup, List.mem_map, Prod.exists, exists_and_right,
    exists_eq_right]

theorem ofList_eq_iff (hnodup : (values.map Prod.fst).Nodup) :
    ofList values = fields ↔
      fields.Holds values ∧ ∀ field, fields.Present field → field ∈ values.map Prod.fst := by
  constructor
  · rintro rfl
    exact ⟨holds_ofList hnodup, fun field ↦ (present_ofList_iff hnodup).mp⟩
  · rintro ⟨hholds, hkeys⟩
    refine ext_get fun field ↦ Option.ext fun bytes ↦ ?_
    rw [get_ofList_eq_some hnodup]
    constructor
    · exact hholds (field, bytes)
    · intro hget
      obtain ⟨⟨f, b⟩, hmem, rfl⟩ := List.mem_map.mp (hkeys field ⟨bytes, hget⟩)
      rw [hholds (f, b) hmem, Option.some.injEq] at hget
      rwa [← hget]

theorem cosignature_eq_ok_iff_holds {cosignature? : Option Cosignature} :
    fields.cosignature = .ok cosignature? ↔
      fields.Holds (cosignature?.elim [] Cosignature.fieldBytes) ∧
        (cosignature?.isSome = false → ∀ field ∈ Field.cosignature, ¬ fields.Present field) := by
  rw [cosignature_eq_ok]
  cases cosignature? with
  | none =>
    simp [Holds, Present, Option.eq_none_iff_forall_ne_some]
  | some cosignature => simp

end Fields

/-! ### The fields of an operation -/

theorem Family.not_mem_required_of_cosignature {family : Family} {field : Field}
    (h : field ∈ Field.cosignature) : field ∉ family.required := by
  have hall : ∀ f ∈ Field.cosignature, f ∉ family.required := by cases family <;> decide
  exact hall field h

theorem Body.map_fst_fieldBytes (body : Body) :
    body.fieldBytes.map Prod.fst = body.family.content := by
  cases body <;> rfl

theorem Body.length_of_mem_fieldBytes (body : Body) :
    ∀ value ∈ body.fieldBytes, value.2.length = value.1.width := by
  cases body <;>
    simp [fieldBytes, Field.width, Identifier.length_bytes, IdentifierRole.width, Address.width,
      Amount.width]

theorem Cosignature.length_of_mem_fieldBytes (cosignature : Cosignature) :
    ∀ value ∈ cosignature.fieldBytes, value.2.length = value.1.width := by
  simp [fieldBytes, Field.width, Identifier.length_bytes, IdentifierRole.width, Address.width]

namespace Operation

variable {op : Operation} {field : Field}

/-- The body is of the family of the kind, and there is a cosignature only if the kind needs it. -/
structure WellFormed (op : Operation) : Prop where
  family : op.body.family = op.kind.family
  cosignature : op.cosignature.isSome → op.kind.requiresCosignature

/-- The requester's own fields, those of the body, and those of the cosignature, if there is one. -/
theorem fieldBytes_eq (op : Operation) :
    op.fieldBytes = [(.tx, op.tx.bytes), (.txValidity, op.txValidity.bytes),
      (.nonce, op.nonce.bytes), (.signature, op.signature.bytes)] ++ op.body.fieldBytes ++
        op.cosignature.elim [] Cosignature.fieldBytes := by
  unfold fieldBytes
  cases op.cosignature <;> rfl

theorem map_fst_fieldBytes (op : Operation) : op.fieldBytes.map Prod.fst =
    Field.common ++ op.body.family.content ++
      if op.cosignature.isSome then Field.cosignature else [] := by
  rw [fieldBytes_eq, List.map_append, List.map_append, Body.map_fst_fieldBytes]
  cases op.cosignature <;> rfl

theorem nodup_fieldBytes (op : Operation) : (op.fieldBytes.map Prod.fst).Nodup := by
  rw [map_fst_fieldBytes]
  cases op.cosignature.isSome <;> cases op.body.family <;> decide

theorem length_of_mem_fieldBytes (op : Operation) :
    ∀ value ∈ op.fieldBytes, value.2.length = value.1.width := by
  rw [fieldBytes_eq, List.forall_mem_append, List.forall_mem_append]
  refine ⟨⟨?_, op.body.length_of_mem_fieldBytes⟩, ?_⟩
  · simp [Field.width, Identifier.length_bytes, IdentifierRole.width]
  · cases op.cosignature with
    | none => exact fun _ hmem ↦ absurd hmem List.not_mem_nil
    | some cosignature => exact cosignature.length_of_mem_fieldBytes

/-- An operation has the fields that its family requires, and those of a cosignature if it is
complete. -/
theorem mem_keys_iff : field ∈ op.fieldBytes.map Prod.fst ↔
    field ∈ op.body.family.required ∨ (field ∈ Field.cosignature ∧ op.isComplete = true) := by
  rw [map_fst_fieldBytes, isComplete]
  cases op.cosignature.isSome <;> cases op.body.family <;> cases field <;> decide

end Operation

/-! ### Lowering and the schema -/

namespace RawOperation

variable {raw : RawOperation} {op : Operation}

theorem checkedKind_eq_ok {kind : Kind} :
    raw.checkedKind = .ok kind ↔ kind.number = raw.kind ∧ kind.family = raw.family := by
  unfold checkedKind
  constructor
  · intro h
    split at h
    · cases h
    · rename_i found hfound
      split at h
      · rename_i hfamily
        cases h
        exact ⟨Kind.ofNumber?_eq_some_iff.mp hfound, hfamily.symm⟩
      · cases h
  · rintro ⟨hnumber, hfamily⟩
    rw [Kind.ofNumber?_eq_some_iff.mpr hnumber]
    exact if_pos hfamily.symm

theorem checkedRequester_eq_ok {a : Address} :
    raw.checkedRequester = .ok a ↔ raw.address = some a.bytes := by
  unfold checkedRequester
  cases raw.address with
  | none => simp
  | some bytes => rw [mapError_eq_ok, Address.parse_eq_ok_iff, Option.some.injEq]

/-- What the schema accepts it reads: the raw operation holds the parts of the operation, field by
field. -/
theorem validate_eq_ok_iff_holds : raw.validate = .ok op ↔
    (op.kind.number = raw.kind ∧ op.kind.family = raw.family) ∧
      raw.address = some op.requester.bytes ∧ raw.fields.Checked raw.family ∧
      op.body.family = raw.family ∧ raw.fields.Holds op.fieldBytes ∧
      (op.isComplete = false → ∀ field ∈ Field.cosignature, ¬ raw.fields.Present field) := by
  have hholds : raw.fields.Holds op.fieldBytes ↔
      (raw.fields.get .tx = some op.tx.bytes ∧
        raw.fields.get .txValidity = some op.txValidity.bytes ∧
        raw.fields.get .nonce = some op.nonce.bytes ∧
        raw.fields.get .signature = some op.signature.bytes) ∧
      raw.fields.Holds op.body.fieldBytes ∧
      raw.fields.Holds (op.cosignature.elim [] Cosignature.fieldBytes) := by
    simp only [Fields.Holds, Operation.fieldBytes_eq, List.forall_mem_append,
      List.forall_mem_cons, List.not_mem_nil, false_implies, implies_true, and_true, and_assoc]
  rw [hholds, Fields.Checked.iff_checks]
  simp only [validate, bind_eq_ok, pure_eq_ok, checkedKind_eq_ok, checkedRequester_eq_ok,
    Fields.body_eq_ok, Fields.cosignature_eq_ok_iff_holds, Fields.identifier_eq_ok]
  constructor
  · rintro ⟨kind, ⟨hnumber, hfamily⟩, requester, haddress, ⟨⟩, hknown, ⟨⟩, hwhole, ⟨⟩, hrequired,
      ⟨⟩, hwidths, body, ⟨hbody, hparts⟩, cosignature, ⟨hcosignature, habsent⟩, tx, htx,
      txValidity, htxValidity, nonce, hnonce, signature, hsignature, rfl⟩
    rw [hfamily] at hknown hrequired hbody
    exact ⟨⟨hnumber, hfamily⟩, haddress, ⟨hknown, hwhole, hrequired, hwidths⟩, hbody,
      ⟨⟨htx, htxValidity, hnonce, hsignature⟩, hparts, hcosignature⟩, habsent⟩
  · rintro ⟨⟨hnumber, hfamily⟩, haddress, ⟨hknown, hwhole, hrequired, hwidths⟩, hbody,
      ⟨⟨htx, htxValidity, hnonce, hsignature⟩, hparts, hcosignature⟩, habsent⟩
    rw [← hfamily] at hknown hrequired hbody
    exact ⟨op.kind, ⟨hnumber, hfamily⟩, op.requester, haddress, (), hknown, (), hwhole, (),
      hrequired, (), hwidths, op.body, ⟨hbody, hparts⟩, op.cosignature, ⟨hcosignature, habsent⟩,
      op.tx, htx, op.txValidity, htxValidity, op.nonce, hnonce, op.signature, hsignature, rfl⟩

/-- The fields that an operation is lowered to pass the checks of the schema. -/
theorem checked_toRaw (h : op.WellFormed) : op.toRaw.fields.Checked op.kind.family := by
  have hpresent {field : Field} : op.toRaw.fields.Present field ↔
      field ∈ op.kind.family.required ∨ (field ∈ Field.cosignature ∧ op.isComplete = true) := by
    rw [← h.family, ← Operation.mem_keys_iff]
    exact Fields.present_ofList_iff op.nodup_fieldBytes
  refine ⟨fun field bytes hget ↦ ?_, ?_, fun field hmem ↦ hpresent.mpr (Or.inl hmem),
    fun field bytes hget ↦ ?_⟩
  · rw [Family.has_iff_allows, Family.allows]
    rcases hpresent.mp ⟨bytes, hget⟩ with hmem | ⟨hmem, hcomplete⟩
    · simp [hmem]
    · have hallows : op.kind.family.allowsCosignature = true := h.cosignature hcomplete
      simp [hmem, hallows]
  · cases hcomplete : op.isComplete with
    | true => exact Or.inr fun field hmem ↦ hpresent.mpr (Or.inr ⟨hmem, hcomplete⟩)
    | false =>
      refine Or.inl fun field hmem hfield ↦ ?_
      rcases hpresent.mp hfield with hrequired | ⟨-, htrue⟩
      · exact Family.not_mem_required_of_cosignature hmem hrequired
      · rw [hcomplete] at htrue
        cases htrue
  · exact op.length_of_mem_fieldBytes (field, bytes)
      ((Fields.get_ofList_eq_some op.nodup_fieldBytes).mp hget)

/-- **Lowering is the inverse of the schema.** A raw operation stands for an operation if and only
if the operation is well-formed and is lowered to it. -/
theorem validate_eq_ok : raw.validate = .ok op ↔ op.WellFormed ∧ op.toRaw = raw := by
  constructor
  · intro h
    refine ⟨⟨family_of_validate h, requiresCosignature_of_validate h⟩, ?_⟩
    obtain ⟨⟨hnumber, hfamily⟩, haddress, hchecked, hbody, hholds, habsent⟩ :=
      validate_eq_ok_iff_holds.mp h
    have hfields : Fields.ofList op.fieldBytes = raw.fields := by
      refine (Fields.ofList_eq_iff op.nodup_fieldBytes).mpr ⟨hholds, fun field hpresent ↦ ?_⟩
      obtain ⟨bytes, hget⟩ := hpresent
      rw [Operation.mem_keys_iff, hbody]
      refine (hchecked.known field bytes hget).imp_right fun hhas ↦ ⟨hhas.1, ?_⟩
      cases hcomplete : op.isComplete with
      | true => rfl
      | false => exact absurd ⟨bytes, hget⟩ (habsent hcomplete field hhas.1)
    simp only [Operation.toRaw, hnumber, hfamily, hfields, ← haddress]
  · rintro ⟨hwell, rfl⟩
    refine validate_eq_ok_iff_holds.mpr ⟨⟨rfl, rfl⟩, rfl, checked_toRaw hwell, hwell.family,
      Fields.holds_ofList op.nodup_fieldBytes, fun hcomplete field hmem hpresent ↦ ?_⟩
    rcases Operation.mem_keys_iff.mp
      ((Fields.present_ofList_iff op.nodup_fieldBytes).mp hpresent) with hrequired | ⟨-, htrue⟩
    · exact Family.not_mem_required_of_cosignature hmem hrequired
    · rw [hcomplete] at htrue
      cases htrue

end RawOperation

end SettlementLedger
