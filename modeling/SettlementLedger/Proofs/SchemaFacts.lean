import SettlementLedger.Transition.Delivery

/-!
# What the schema guarantees

An operation that fits the schema has a body of the family of its kind, and it carries a cosignature
only if its kind needs one.
-/

set_option autoImplicit false
set_option relaxedAutoImplicit false

namespace SettlementLedger

/-- What only the administrator may request needs no validator. -/
theorem Kind.requiresCosignature_of_isAdminOnly {kind : Kind} (h : kind.isAdminOnly) :
    kind.requiresCosignature = false := by
  cases kind <;> first | rfl | cases h

theorem Family.allowsCosignature_of_allows {family : Family} {field : Field}
    (hfield : field ∈ Field.cosignature) (h : family.allows field) : family.allowsCosignature := by
  simp only [Field.cosignature, List.mem_cons, List.not_mem_nil, or_false] at hfield
  rcases hfield with rfl | rfl | rfl <;> cases family <;> first | rfl | cases h

/-- Every field that is present is one that the family may have. -/
theorem Fields.allows_of_checkKnown {fields : Fields} {family : Family}
    (h : fields.checkKnown family = .ok ()) {field : Field} (hfield : fields.has field) :
    family.allows field := by
  unfold checkKnown at h
  split at h
  · cases h
  · rename_i hnone
    have hpresent : field ∈ fields.present := mem_present_iff.mpr hfield
    simpa using List.find?_eq_none.mp hnone field hpresent

theorem Fields.cosignature_eq_some {fields : Fields} {cosignature : Cosignature}
    (h : fields.cosignature = .ok (some cosignature)) :
    ∃ field ∈ Field.cosignature, fields.has field := by
  unfold Fields.cosignature at h
  split at h
  · rename_i hany
    exact List.any_eq_true.mp hany
  · cases h

theorem RawOperation.requiresCosignature_of_validate {raw : RawOperation} {op : Operation}
    (h : raw.validate = .ok op) (hcosignature : op.cosignature.isSome) :
    op.kind.requiresCosignature := by
  simp only [validate, bind_eq_ok, pure_eq_ok] at h
  obtain ⟨kind, -, requester, -, _, hknown, _, -, _, -, _, -, body, -, found?, hfound, tx, -,
    txValidity, -, nonce, -, signature, -, rfl⟩ := h
  obtain ⟨cosignature, rfl⟩ := Option.isSome_iff_exists.mp hcosignature
  obtain ⟨field, hfield, hhas⟩ := Fields.cosignature_eq_some hfound
  exact Family.allowsCosignature_of_allows hfield (Fields.allows_of_checkKnown hknown hhas)

/-- The fields of a family hold a body of that family. -/
theorem Fields.family_of_body {fields : Fields} {family : Family} {body : Body}
    (h : fields.body family = .ok body) : body.family = family := by
  cases family with
  | coreAdmin | adminControl | roleAccess =>
    obtain ⟨_, -, h⟩ := bind_eq_ok.mp h
    cases h
    rfl
  | balanceInitialization | transfer | bootstrapDeployment =>
    obtain ⟨_, -, h⟩ := bind_eq_ok.mp h
    obtain ⟨_, -, h⟩ := bind_eq_ok.mp h
    cases h
    rfl
  | transaction =>
    simp only [Fields.body, bind_eq_ok, pure_eq_ok] at h
    obtain ⟨_, -, _, -, _, -, _, -, rfl⟩ := h
    rfl

theorem RawOperation.family_of_validate {raw : RawOperation} {op : Operation}
    (h : raw.validate = .ok op) : op.body.family = op.kind.family := by
  simp only [validate, bind_eq_ok, pure_eq_ok] at h
  obtain ⟨kind, -, requester, -, _, -, _, -, _, -, _, -, body, hbody, found?, -, tx, -,
    txValidity, -, nonce, -, signature, -, rfl⟩ := h
  exact Fields.family_of_body hbody

namespace Delivery

variable {delivery : Delivery} {op : Operation}

/-- A delivery carries an operation that its bytes decode to and that fits the schema. -/
theorem exists_validate_of_operation (h : delivery.operation = .ok op) :
    ∃ raw, RawOperation.decode delivery.bytes = .ok raw ∧ raw.validate = .ok op := by
  obtain ⟨raw, hdecode, hvalid⟩ := bind_eq_ok.mp h
  exact ⟨raw, mapError_eq_ok.mp hdecode, mapError_eq_ok.mp hvalid⟩

theorem requiresCosignature (h : delivery.operation = .ok op)
    (hcosignature : op.cosignature.isSome) : op.kind.requiresCosignature := by
  obtain ⟨raw, -, hvalid⟩ := exists_validate_of_operation h
  exact RawOperation.requiresCosignature_of_validate hvalid hcosignature

/-- A registration of an external bootstrap key names the key. -/
theorem body_of_bootstrapDeployment (h : delivery.operation = .ok op)
    (hkind : op.kind = .bootstrapDeployment) :
    ∃ external channel, op.body = .bootstrapDeployment external channel := by
  obtain ⟨raw, -, hvalid⟩ := exists_validate_of_operation h
  have hfamily := RawOperation.family_of_validate hvalid
  rw [hkind] at hfamily
  cases hbody : op.body <;> rw [hbody] at hfamily <;> cases hfamily
  exact ⟨_, _, rfl⟩

/-- A transaction names the ledger that it is settled against and the key of its subnetwork. -/
theorem body_of_transaction (h : delivery.operation = .ok op) (hkind : op.kind = .transaction) :
    ∃ writer content external ledger,
      op.body = .transaction writer content external ledger := by
  obtain ⟨raw, -, hvalid⟩ := exists_validate_of_operation h
  have hfamily := RawOperation.family_of_validate hvalid
  rw [hkind] at hfamily
  cases hbody : op.body <;> rw [hbody] at hfamily <;> cases hfamily
  exact ⟨_, _, _, _, rfl⟩

end Delivery

end SettlementLedger
