import SettlementLedger.Proofs.AddressTexts
import SettlementLedger.Proofs.SchemaFacts

/-!
# What is read from fields

A field is read as a value if it holds the bytes of the value, and not otherwise
(`Fields.identifier_eq_ok` and its kin). So the fields hold a body if they hold the bytes of all its
parts (`Fields.body_eq_ok`), and a cosignature likewise.

A field that is present and as wide as it should be is read without fail, unless it is an address
(`Fields.Filled.exists_identifier`, `Fields.Filled.exists_amount`).
-/

set_option autoImplicit false
set_option relaxedAutoImplicit false

namespace SettlementLedger

/-- The fields of a cosignature and their bytes. -/
def Cosignature.fieldBytes (cosignature : Cosignature) : List (Field × Bytes) :=
  [(.validatorAddress, cosignature.validator.bytes), (.validatorNonce, cosignature.nonce.bytes),
    (.validatorSignature, cosignature.signature.bytes)]

namespace Fields

variable {fields : Fields} {field : Field} {role : IdentifierRole}

/-- The fields hold the bytes of a list of values. -/
def Holds (fields : Fields) (values : List (Field × Bytes)) : Prop :=
  ∀ value ∈ values, fields.get value.1 = some value.2

/-! ### Single fields -/

theorem require_eq_ok {bytes : Bytes} :
    fields.require field = .ok bytes ↔ fields.get field = some bytes := by
  unfold require
  cases fields.get field <;> simp

theorem identifier_eq_ok {x : Identifier role} :
    fields.identifier field = .ok x ↔ fields.get field = some x.bytes := by
  simp only [identifier, bind_eq_ok, require_eq_ok]
  constructor
  · rintro ⟨bytes, hget, hread⟩
    cases hfound : (Identifier.ofBytes? bytes : Option (Identifier role)) with
    | none =>
      rw [hfound] at hread
      cases hread
    | some found =>
      rw [hfound] at hread
      cases hread
      rw [hget, Identifier.ofBytes?_eq_some_iff.mp hfound]
  · intro hget
    exact ⟨x.bytes, hget, by rw [Identifier.ofBytes?_bytes]; rfl⟩

theorem amountAt_eq_ok {amount : Amount} :
    fields.amountAt field = .ok amount ↔ fields.get field = some amount.toBytes := by
  simp only [Fields.amountAt, bind_eq_ok, require_eq_ok]
  constructor
  · rintro ⟨bytes, hget, hread⟩
    cases hfound : Amount.ofBytes? bytes with
    | none =>
      rw [hfound] at hread
      cases hread
    | some found =>
      rw [hfound] at hread
      cases hread
      rw [hget, Amount.ofBytes?_eq_some_iff.mp hfound]
  · intro hget
    exact ⟨amount.toBytes, hget, by rw [Amount.ofBytes?_toBytes]; rfl⟩

theorem address_eq_ok {a : Address} :
    fields.address field = .ok a ↔ fields.get field = some a.bytes := by
  simp only [address, bind_eq_ok, require_eq_ok, mapError_eq_ok, Address.parse_eq_ok_iff]
  constructor
  · rintro ⟨bytes, hget, rfl⟩
    exact hget
  · exact fun hget ↦ ⟨_, hget, rfl⟩

/-! ### Bodies and cosignatures -/

/-- The fields of a family hold a body if they hold the bytes of its parts. -/
theorem body_eq_ok {family : Family} {body : Body} :
    fields.body family = .ok body ↔ body.family = family ∧ fields.Holds body.fieldBytes := by
  constructor
  · intro h
    refine ⟨family_of_body h, ?_⟩
    cases family <;> simp only [Fields.body, bind_eq_ok, pure_eq_ok, identifier_eq_ok,
      address_eq_ok, amountAt_eq_ok] at h
    case coreAdmin | adminControl | roleAccess =>
      obtain ⟨_, hfirst, rfl⟩ := h
      simpa [Holds, Body.fieldBytes] using hfirst
    case balanceInitialization | transfer | bootstrapDeployment =>
      obtain ⟨_, hfirst, _, hsecond, rfl⟩ := h
      simpa [Holds, Body.fieldBytes] using ⟨hfirst, hsecond⟩
    case transaction =>
      obtain ⟨_, hfirst, _, hsecond, _, hthird, _, hfourth, rfl⟩ := h
      simpa [Holds, Body.fieldBytes] using ⟨hfirst, hsecond, hthird, hfourth⟩
  · rintro ⟨rfl, h⟩
    cases body <;>
      simp only [Holds, Body.fieldBytes, List.forall_mem_cons, List.not_mem_nil, false_implies,
        implies_true, and_true] at h <;>
      simp only [Body.family, Fields.body, bind_eq_ok, pure_eq_ok, identifier_eq_ok, address_eq_ok,
        amountAt_eq_ok]
    case coreAdmin | adminControl | roleAccess => exact ⟨_, h, rfl⟩
    case balanceInitialization | transfer | bootstrapDeployment =>
      exact ⟨_, h.1, _, h.2, rfl⟩
    case transaction => exact ⟨_, h.1, _, h.2.1, _, h.2.2.1, _, h.2.2.2, rfl⟩

/-- The fields hold a cosignature, or they hold none of its parts. -/
theorem cosignature_eq_ok {cosignature? : Option Cosignature} :
    fields.cosignature = .ok cosignature? ↔
      (cosignature? = none ∧ ∀ f ∈ Field.cosignature, fields.get f = none) ∨
        ∃ cosignature, cosignature? = some cosignature ∧
          fields.Holds cosignature.fieldBytes := by
  have habsent : (∀ f ∈ Field.cosignature, fields.get f = none) ↔
      Field.cosignature.any fields.has = false := by
    simp [has, Field.cosignature]
  unfold Fields.cosignature
  split
  · rename_i hany
    simp only [habsent, hany, Bool.true_eq_false, and_false, false_or, bind_eq_ok, pure_eq_ok,
      address_eq_ok, identifier_eq_ok, Holds, Cosignature.fieldBytes, List.forall_mem_cons,
      List.not_mem_nil, false_implies, implies_true, and_true]
    constructor
    · rintro ⟨_, haddress, _, hnonce, _, hsignature, rfl⟩
      exact ⟨_, rfl, haddress, hnonce, hsignature⟩
    · rintro ⟨cosignature, rfl, haddress, hnonce, hsignature⟩
      exact ⟨_, haddress, _, hnonce, _, hsignature, rfl⟩
  · rename_i hnone
    rw [Bool.not_eq_true] at hnone
    rw [pure_eq_ok, habsent, hnone]
    constructor
    · rintro rfl
      exact Or.inl ⟨rfl, rfl⟩
    · rintro (⟨rfl, -⟩ | ⟨cosignature, -, hholds⟩)
      · rfl
      · have hvalidator := hholds _ (List.mem_cons_self ..)
        have hpresent : Field.cosignature.any fields.has = true :=
          List.any_eq_true.mpr ⟨.validatorAddress, by decide, by rw [has, hvalidator]; rfl⟩
        rw [hnone] at hpresent
        cases hpresent

/-! ### Fields that were checked -/

/-- A field is present and as wide as it should be. -/
def Filled (fields : Fields) (field : Field) : Prop :=
  ∃ bytes, fields.get field = some bytes ∧ bytes.length = field.width

/-- A filled field is read as an identifier of its width. -/
theorem Filled.exists_identifier (h : fields.Filled field) (hwidth : field.width = role.width) :
    ∃ x : Identifier role, fields.identifier field = .ok x := by
  obtain ⟨bytes, hget, hlength⟩ := h
  exact ⟨⟨bytes, hlength.trans hwidth⟩, identifier_eq_ok.mpr hget⟩

theorem Filled.exists_amount (h : fields.Filled .amount) :
    ∃ amount, fields.amountAt .amount = .ok amount := by
  obtain ⟨bytes, hget, hlength⟩ := h
  have hwidth : bytes.length = Amount.width := hlength
  refine ⟨.ofBytes bytes hwidth, amountAt_eq_ok.mpr ?_⟩
  rw [hget, Amount.toBytes_ofBytes]

/-- A field that is present is read as an address, or it is refused for what is wrong with it. -/
theorem address_cases {bytes : Bytes} (hget : fields.get field = some bytes) :
    (Address.Spelled bytes ∧ ∃ a, fields.address field = .ok a) ∨
      ∃ cause, Address.Flaw bytes cause ∧
        fields.address field = .error (.invalidAddress (some field) cause) := by
  have hrequire := require_eq_ok.mpr hget
  simp only [address, hrequire, bind, Except.bind]
  refine (Address.parse_cases bytes).imp (And.imp_right ?_) ?_
  · rintro ⟨a, hread⟩
    exact ⟨a, by rw [hread]; rfl⟩
  · rintro ⟨cause, hflaw, hrefused⟩
    exact ⟨cause, hflaw, by rw [hrefused]; rfl⟩

end Fields

end SettlementLedger
