import SettlementLedger.Proofs.SchemaReads

/-!
# The grammar of the schema

What the schema accepts is said here field by field, without reference to how it is read: there are
eight checks (`SchemaCheck`), and a raw operation fits the schema if it passes them all
(`RawOperation.Passes`). If it does not, the error is the report of the first check that it fails
(`RawOperation.Violates`), and the report names the first field at fault (`FirstOf`).

Both are one property of a computation: it makes checks in order (`Makes`). A check that looks at
fields one by one makes a check of each field, so that the property is used twice, for the checks
of an operation and for the fields within one check. Computations that follow each other make their
checks one after another (`Makes.bind`), which carries the result from the single checks to
`RawOperation.validate`.

The readers behind the checks can still fail by their types. After the checks they fail only on the
text of an address (`Fields.Checked.makes_body`, `Fields.Checked.makes_cosignature`).
-/

set_option autoImplicit false
set_option relaxedAutoImplicit false

namespace SettlementLedger

/-! ### Checks in order -/

section Order

variable {κ α β : Type}

/-- The first element of a list that has a property. -/
def FirstOf (order : List κ) (p : κ → Prop) (a : κ) : Prop :=
  ∃ before after, order = before ++ a :: after ∧ p a ∧ ∀ b ∈ before, ¬ p b

namespace FirstOf

variable {order rest : List κ} {p : κ → Prop} {a b : κ}

theorem iff_find? [DecidablePred p] : FirstOf order p a ↔ order.find? p = some a := by
  simp only [FirstOf, List.find?_eq_some_iff_append, decide_eq_true_eq, Bool.not_eq_true',
    decide_eq_false_iff_not]
  constructor
  · rintro ⟨before, after, horder, ha, hbefore⟩
    exact ⟨ha, before, after, horder, hbefore⟩
  · rintro ⟨ha, before, after, horder, hbefore⟩
    exact ⟨before, after, horder, ha, hbefore⟩

theorem mem (h : FirstOf order p a) : a ∈ order := by
  obtain ⟨before, after, rfl, -⟩ := h
  exact List.mem_append_right _ List.mem_cons_self

theorem holds (h : FirstOf order p a) : p a := by
  obtain ⟨before, after, -, ha, -⟩ := h
  exact ha

theorem unique (h : FirstOf order p a) (h' : FirstOf order p b) : a = b := by
  classical
  exact Option.some.inj ((iff_find?.mp h).symm.trans (iff_find?.mp h'))

theorem head (ha : p a) : FirstOf (a :: rest) p a :=
  ⟨[], rest, rfl, ha, fun _ hb ↦ absurd hb List.not_mem_nil⟩

theorem append_left (h : FirstOf order p a) : FirstOf (order ++ rest) p a := by
  obtain ⟨before, after, rfl, ha, hbefore⟩ := h
  exact ⟨before, after ++ rest, by simp, ha, hbefore⟩

theorem append_right (h : FirstOf rest p a) (horder : ∀ b ∈ order, ¬ p b) :
    FirstOf (order ++ rest) p a := by
  obtain ⟨before, after, rfl, ha, hbefore⟩ := h
  exact ⟨order ++ before, after, by simp, ha,
    fun b hb ↦ (List.mem_append.mp hb).elim (horder b) (hbefore b)⟩

end FirstOf

/-- A computation makes checks in order: it succeeds if all are passed, and otherwise fails with
the report of the first that is not. -/
def Makes (passes : κ → Prop) (reports : κ → SchemaError → Prop) (order : List κ) :
    Except SchemaError α → Prop
  | .ok _ => ∀ check ∈ order, passes check
  | .error e => ∃ check, FirstOf order (fun check ↦ ¬ passes check) check ∧ reports check e

namespace Makes

variable {passes : κ → Prop} {reports : κ → SchemaError → Prop} {order rest : List κ} {check : κ}
variable {x : Except SchemaError α}

theorem of_ok {a : α} (h : x = .ok a) : Makes passes reports [] x := by
  subst h
  exact fun _ hmem ↦ absurd hmem List.not_mem_nil

theorem passed {a : α} (h : Makes passes reports [check] x) (hx : x = .ok a) : passes check := by
  subst hx
  exact h check (List.mem_singleton_self check)

theorem of_error {e : SchemaError} (h : Makes passes reports order x) (hx : x = .error e) :
    ∃ check, FirstOf order (fun check ↦ ¬ passes check) check ∧ reports check e := by
  subst hx
  exact h

theorem failed {e : SchemaError} (hfails : ¬ passes check) (hreports : reports check e)
    (hx : x = .error e) : Makes passes reports (check :: rest) x := by
  subst hx
  exact ⟨check, .head hfails, hreports⟩

theorem succeeded {a : α} (hpasses : passes check) (hx : x = .ok a) :
    Makes passes reports [check] x := by
  subst hx
  exact List.forall_mem_singleton.mpr hpasses

/-- Computations that follow each other make their checks one after another. -/
theorem bind {f : α → Except SchemaError β} (hx : Makes passes reports order x)
    (hf : ∀ a, x = .ok a → (∀ check ∈ order, passes check) → Makes passes reports rest (f a)) :
    Makes passes reports (order ++ rest) (x >>= f) := by
  cases x with
  | error e =>
    obtain ⟨check, hfirst, hreports⟩ := hx
    exact ⟨check, hfirst.append_left, hreports⟩
  | ok a =>
    have hnext : Makes passes reports rest (f a) := hf a rfl hx
    show Makes passes reports (order ++ rest) (f a)
    cases hfa : f a with
    | ok b =>
      rw [hfa] at hnext
      exact fun check hmem ↦ (List.mem_append.mp hmem).elim (hx check) (hnext check)
    | error e =>
      rw [hfa] at hnext
      obtain ⟨check, hfirst, hreports⟩ := hnext
      exact ⟨check, hfirst.append_right fun earlier hmem ↦ not_not_intro (hx earlier hmem),
        hreports⟩

/-- A computation that makes no check leaves all of them to what follows. -/
theorem nil_bind {f : α → Except SchemaError β} (hx : Makes passes reports [] x)
    (hf : ∀ a, x = .ok a → Makes passes reports rest (f a)) :
    Makes passes reports rest (x >>= f) :=
  bind hx fun a ha _ ↦ hf a ha

/-- A computation that makes one check leaves the others to what follows. -/
theorem cons_bind {f : α → Except SchemaError β} (hx : Makes passes reports [check] x)
    (hf : ∀ a, x = .ok a → Makes passes reports rest (f a)) :
    Makes passes reports (check :: rest) (x >>= f) :=
  bind hx fun a ha _ ↦ hf a ha

/-- A check that is passed anyway need not be made. -/
theorem skip (hpasses : passes check) (h : Makes passes reports rest x) :
    Makes passes reports (check :: rest) x := by
  have hpure : Makes passes reports [check] (pure () : Except SchemaError Unit) :=
    succeeded hpasses rfl
  exact cons_bind hpure fun _ _ ↦ h

/-- A search for the first element that fails its check makes the checks. -/
theorem find {fails : κ → Bool} {report : κ → SchemaError}
    (hfails : ∀ check, fails check = true ↔ ¬ passes check)
    (hreports : ∀ check, ¬ passes check → reports check (report check))
    (hfound : ∀ check, order.find? fails = some check → x = .error (report check))
    (hnone : order.find? fails = none → ∃ a, x = .ok a) : Makes passes reports order x := by
  have hsame : (fun check ↦ ¬ passes check) = fun check ↦ fails check = true :=
    funext fun check ↦ propext (hfails check).symm
  cases hsearch : order.find? fails with
  | none =>
    obtain ⟨a, rfl⟩ := hnone hsearch
    intro check hmem
    exact Classical.byContradiction fun hnot ↦
      List.find?_eq_none.mp hsearch check hmem ((hfails check).mpr hnot)
  | some check =>
    rw [hfound check hsearch]
    have hfirst : FirstOf order (fun check ↦ ¬ passes check) check := by
      rw [hsame, FirstOf.iff_find?]
      simpa using hsearch
    exact ⟨check, hfirst, hreports check hfirst.holds⟩

/-- Checks that are made one after another are one check. -/
theorem whole {κ' : Type} {passes' : κ' → Prop} {reports' : κ' → SchemaError → Prop} {check' : κ'}
    (h : Makes passes reports order x) (hpasses : passes' check' ↔ ∀ check ∈ order, passes check)
    (hreports : ∀ check e, FirstOf order (fun check ↦ ¬ passes check) check → reports check e →
      reports' check' e) : Makes passes' reports' [check'] x := by
  cases x with
  | ok a => exact succeeded (hpasses.mpr h) rfl
  | error e =>
    obtain ⟨check, hfirst, hreport⟩ := h
    exact failed (fun hall ↦ hfirst.holds (hpasses.mp hall check hfirst.mem))
      (hreports check e hfirst hreport) rfl

/-- A computation succeeds if and only if all its checks are passed. -/
theorem exists_ok_iff (h : Makes passes reports order x) :
    (∃ a, x = .ok a) ↔ ∀ check ∈ order, passes check := by
  cases x with
  | ok a => exact ⟨fun _ ↦ h, fun _ ↦ ⟨a, rfl⟩⟩
  | error e =>
    obtain ⟨check, hfirst, -⟩ := h
    refine ⟨?_, fun hall ↦ absurd (hall check hfirst.mem) hfirst.holds⟩
    rintro ⟨a, ⟨⟩⟩

theorem eq_ok_iff {y : Except SchemaError Unit} (h : Makes passes reports order y) :
    y = .ok () ↔ ∀ check ∈ order, passes check :=
  ⟨fun hok ↦ h.exists_ok_iff.mp ⟨(), hok⟩, fun hall ↦ (h.exists_ok_iff.mpr hall).elim fun _ ↦ id⟩

/-- A computation fails with the report of the first check that is not passed, if a check has no
two reports. -/
theorem eq_error_iff (h : Makes passes reports order x)
    (hunique : ∀ check e e', reports check e → reports check e' → e = e') {e : SchemaError} :
    x = .error e ↔
      ∃ check, FirstOf order (fun check ↦ ¬ passes check) check ∧ reports check e := by
  refine ⟨h.of_error, ?_⟩
  rintro ⟨check, hfirst, hreports⟩
  cases x with
  | ok a => exact absurd (h check hfirst.mem) hfirst.holds
  | error found =>
    obtain ⟨check', hfirst', hreports'⟩ := h
    obtain rfl := hfirst.unique hfirst'
    rw [hunique check e found hreports hreports']

end Makes

end Order

/-! ### The grammar -/

/-- A field is one of a family: it is required, or it is part of a cosignature and payloads of the
family may have one. -/
def Family.Has (family : Family) (field : Field) : Prop :=
  field ∈ family.required ∨ (field ∈ Field.cosignature ∧
    (family = .roleAccess ∨ family = .transfer ∨ family = .transaction ∨
      family = .bootstrapDeployment))

namespace Fields

variable (fields : Fields)

/-- A field is absent or one of the family. -/
def Known (family : Family) (field : Field) : Prop :=
  ∀ bytes, fields.get field = some bytes → family.Has field

/-- A field is present. -/
def Present (field : Field) : Prop := ∃ bytes, fields.get field = some bytes

/-- A field is absent or as wide as it should be. -/
def Fits (field : Field) : Prop :=
  ∀ bytes, fields.get field = some bytes → bytes.length = field.width

/-- A field is absent or the text of an address. -/
def Addressed (field : Field) : Prop :=
  ∀ bytes, fields.get field = some bytes → Address.Spelled bytes

/-- The report on a field that is not the text of an address. -/
def ReportsAddress (field : Field) (e : SchemaError) : Prop :=
  ∃ bytes cause, fields.get field = some bytes ∧ Address.Flaw bytes cause ∧
    e = .invalidAddress (some field) cause

end Fields

/-- The fields that hold addresses, in the order in which they are read. -/
def Field.addresses : List Field := [.target, .recipient, .validatorAddress]

/-- The fields that payloads of every family have. -/
def Field.common : List Field := [.tx, .txValidity, .nonce, .signature]

/-- The checks of the schema. -/
inductive SchemaCheck where
  | kind
  | family
  | requester
  | knownFields
  | wholeCosignature
  | requiredFields
  | fieldWidths
  | addressContents
  deriving DecidableEq

/-- The checks in the order in which they are made. -/
def SchemaCheck.all : List SchemaCheck :=
  [kind, family, requester, knownFields, wholeCosignature, requiredFields, fieldWidths,
    addressContents]

theorem SchemaCheck.mem_all (check : SchemaCheck) : check ∈ all := by cases check <;> decide

namespace RawOperation

variable (raw : RawOperation)

/-- A raw operation passes a check. -/
def Passes : SchemaCheck → Prop
  | .kind => 1 ≤ raw.kind.toNat ∧ raw.kind.toNat ≤ 13
  | .family => ∃ kind : Kind, kind.number = raw.kind ∧ kind.family = raw.family
  | .requester => ∃ bytes, raw.address = some bytes ∧ Address.Spelled bytes
  | .knownFields => ∀ field ∈ Field.all, raw.fields.Known raw.family field
  | .wholeCosignature =>
    (∀ field ∈ Field.cosignature, ¬ raw.fields.Present field) ∨
      ∀ field ∈ Field.cosignature, raw.fields.Present field
  | .requiredFields => ∀ field ∈ raw.family.required, raw.fields.Present field
  | .fieldWidths => ∀ field ∈ Field.all, raw.fields.Fits field
  | .addressContents => ∀ field ∈ Field.addresses, raw.fields.Addressed field

/-- What is reported of a raw operation that does not pass a check. -/
def Reports : SchemaCheck → SchemaError → Prop
  | .kind, e => e = .unknownKind raw.kind
  | .family, e => ∃ kind : Kind, kind.number = raw.kind ∧ e = .familyMismatch kind raw.family
  | .requester, e =>
    (raw.address = none ∧ e = .missingAddress) ∨
      ∃ bytes cause, raw.address = some bytes ∧ Address.Flaw bytes cause ∧
        e = .invalidAddress none cause
  | .knownFields, e =>
    ∃ field, FirstOf Field.all (fun field ↦ ¬ raw.fields.Known raw.family field) field ∧
      e = .unknownField raw.family field
  | .wholeCosignature, e => e = .partialCosignature
  | .requiredFields, e =>
    ∃ field, FirstOf raw.family.required (fun field ↦ ¬ raw.fields.Present field) field ∧
      e = .missingField field
  | .fieldWidths, e =>
    ∃ field bytes, FirstOf Field.all (fun field ↦ ¬ raw.fields.Fits field) field ∧
      raw.fields.get field = some bytes ∧ e = .fieldWidth field bytes.length
  | .addressContents, e =>
    ∃ field, FirstOf Field.addresses (fun field ↦ ¬ raw.fields.Addressed field) field ∧
      raw.fields.ReportsAddress field e

/-- The error is the report of the first check that the raw operation does not pass. -/
def Violates (e : SchemaError) : Prop :=
  ∃ check, FirstOf SchemaCheck.all (fun check ↦ ¬ raw.Passes check) check ∧ raw.Reports check e

end RawOperation

/-! ### Kinds and families -/

namespace Kind

theorem ofNumber?_eq_some_iff {number : UInt32} {kind : Kind} :
    ofNumber? number = some kind ↔ kind.number = number := by
  constructor
  · intro h
    have hfound : all.find? (fun kind ↦ kind.number == number) = some kind := h
    simpa using List.find?_some hfound
  · rintro rfl
    cases kind <;> rfl

theorem number_injective {kind kind' : Kind} (h : kind.number = kind'.number) : kind = kind' :=
  Option.some.inj ((ofNumber?_eq_some_iff.mpr h).symm.trans (ofNumber?_eq_some_iff.mpr rfl))

theorem number_getElem : ∀ i : Fin all.length, all[i].number.toNat = i.val + 1 := by decide

/-- The numbers of kinds are those from one to thirteen. -/
theorem exists_number_iff {number : UInt32} :
    (∃ kind : Kind, kind.number = number) ↔ 1 ≤ number.toNat ∧ number.toNat ≤ 13 := by
  constructor
  · rintro ⟨kind, rfl⟩
    cases kind <;> decide
  · rintro ⟨hlow, hhigh⟩
    have hlt : number.toNat - 1 < all.length := by
      show number.toNat - 1 < 13
      omega
    refine ⟨all[number.toNat - 1], UInt32.toNat_inj.mp ?_⟩
    have hnumber := number_getElem ⟨number.toNat - 1, hlt⟩
    simp only [Fin.getElem_fin] at hnumber
    omega

end Kind

theorem Family.has_iff_allows {family : Family} {field : Field} :
    family.Has field ↔ family.allows field = true := by
  cases family <;> simp [Has, allows, allowsCosignature]

theorem Family.mem_required_of_common {family : Family} {field : Field}
    (h : field ∈ Field.common) : field ∈ family.required := by
  have hall : ∀ common ∈ Field.common, common ∈ family.required := by cases family <;> decide
  exact hall field h

/-! ### The checks of fields -/

namespace Fields

variable {fields : Fields} {field : Field} {family : Family}

theorem has_iff_present : fields.has field = true ↔ fields.Present field :=
  Option.isSome_iff_exists

theorem Addressed.of_absent (h : ¬ fields.Present field) : fields.Addressed field :=
  fun bytes hget ↦ absurd ⟨bytes, hget⟩ h

theorem makes_checkKnown : Makes (fields.Known family)
    (fun field e ↦ e = .unknownField family field) Field.all (fields.checkKnown family) := by
  unfold checkKnown present
  rw [List.find?_filter]
  refine Makes.find (fun field ↦ ?_) (fun _ _ ↦ rfl) (fun field hfound ↦ by rw [hfound])
    fun hnone ↦ ⟨(), by rw [hnone]⟩
  simp only [decide_eq_true_eq, Bool.not_eq_true', has_iff_present, Known, Present,
    Family.has_iff_allows]
  cases fields.get field <;> simp

theorem makes_checkRequired : Makes fields.Present (fun field e ↦ e = .missingField field)
    family.required (fields.checkRequired family) := by
  unfold checkRequired
  refine Makes.find (fun field ↦ ?_) (fun _ _ ↦ rfl) (fun field hfound ↦ by rw [hfound])
    fun hnone ↦ ⟨(), by rw [hnone]⟩
  rw [← has_iff_present, Bool.not_eq_true', Bool.not_eq_true]

theorem makes_checkWidths : Makes fields.Fits
    (fun field e ↦ ∃ bytes, fields.get field = some bytes ∧ e = .fieldWidth field bytes.length)
    Field.all fields.checkWidths := by
  unfold checkWidths present
  rw [List.find?_filter]
  refine Makes.find (fun field ↦ ?_) (fun field hfails ↦ ?_) (fun field hfound ↦ by rw [hfound])
    fun hnone ↦ ⟨(), by rw [hnone]⟩
  · simp only [decide_eq_true_eq, has_iff_present, Fits, Present]
    cases fields.get field <;> simp
  · cases hget : fields.get field with
    | none => exact absurd (fun bytes h ↦ by rw [hget] at h; cases h) hfails
    | some bytes => exact ⟨bytes, rfl, rfl⟩

theorem checkCosignature_eq (fields : Fields) :
    fields.checkCosignature = .ok () ∧ ((∀ f ∈ Field.cosignature, ¬ fields.Present f) ∨
        ∀ f ∈ Field.cosignature, fields.Present f) ∨
      fields.checkCosignature = .error .partialCosignature ∧
        ¬ ((∀ f ∈ Field.cosignature, ¬ fields.Present f) ∨
          ∀ f ∈ Field.cosignature, fields.Present f) := by
  unfold checkCosignature
  simp only [← has_iff_present, Field.cosignature, List.forall_mem_cons, List.not_mem_nil,
    false_implies, implies_true, and_true, List.any_cons, List.any_nil, List.all_cons,
    List.all_nil]
  by_cases hvalidator : fields.has .validatorAddress <;>
    by_cases hnonce : fields.has .validatorNonce <;>
    by_cases hsignature : fields.has .validatorSignature <;> simp [hvalidator, hnonce, hsignature]

theorem checkCosignature_eq_ok : fields.checkCosignature = .ok () ↔
    (∀ f ∈ Field.cosignature, ¬ fields.Present f) ∨ ∀ f ∈ Field.cosignature, fields.Present f := by
  rcases checkCosignature_eq fields with ⟨hok, hpasses⟩ | ⟨herror, hfails⟩
  · exact iff_of_true hok hpasses
  · exact iff_of_false (fun hok ↦ by rw [hok] at herror; cases herror) hfails

/-! ### Readers behind the checks -/

/-- Fields that passed the checks before their content is read. -/
structure Checked (fields : Fields) (family : Family) : Prop where
  known : ∀ field, fields.Known family field
  whole : (∀ field ∈ Field.cosignature, ¬ fields.Present field) ∨
    ∀ field ∈ Field.cosignature, fields.Present field
  required : ∀ field ∈ family.required, fields.Present field
  widths : ∀ field, fields.Fits field

namespace Checked

theorem iff_checks : fields.Checked family ↔
    fields.checkKnown family = .ok () ∧ fields.checkCosignature = .ok () ∧
      fields.checkRequired family = .ok () ∧ fields.checkWidths = .ok () := by
  rw [makes_checkKnown.eq_ok_iff, checkCosignature_eq_ok, makes_checkRequired.eq_ok_iff,
    makes_checkWidths.eq_ok_iff]
  exact ⟨fun h ↦ ⟨fun field _ ↦ h.known field, h.whole, h.required, fun field _ ↦ h.widths field⟩,
    fun ⟨hknown, hwhole, hrequired, hwidths⟩ ↦ ⟨fun field ↦ hknown field field.mem_all, hwhole,
      hrequired, fun field ↦ hwidths field field.mem_all⟩⟩

variable (h : fields.Checked family)

include h

theorem filled (hpresent : fields.Present field) : fields.Filled field := by
  obtain ⟨bytes, hget⟩ := hpresent
  exact ⟨bytes, hget, h.widths field bytes hget⟩

theorem absent (hforeign : family.allows field = false) : ¬ fields.Present field := by
  rintro ⟨bytes, hget⟩
  have hallows := Family.has_iff_allows.mp (h.known field bytes hget)
  rw [hforeign] at hallows
  cases hallows

/-- A field of an identifier that must be there is read without fail. -/
theorem makes_identifier {role : IdentifierRole} (hpresent : fields.Present field)
    (hwidth : field.width = role.width) :
    Makes fields.Addressed fields.ReportsAddress []
      (fields.identifier field : Except SchemaError (Identifier role)) := by
  obtain ⟨x, hread⟩ := (h.filled hpresent).exists_identifier hwidth
  exact .of_ok hread

theorem makes_amountAt (hpresent : fields.Present .amount) :
    Makes fields.Addressed fields.ReportsAddress [] (fields.amountAt .amount) := by
  obtain ⟨amount, hread⟩ := (h.filled hpresent).exists_amount
  exact .of_ok hread

omit h in
theorem makes_address (hpresent : fields.Present field) :
    Makes fields.Addressed fields.ReportsAddress [field] (fields.address field) := by
  obtain ⟨bytes, hget⟩ := hpresent
  rcases address_cases hget with ⟨hspelled, a, hread⟩ | ⟨cause, hflaw, hrefused⟩
  · refine .succeeded (fun other hother ↦ ?_) hread
    rw [hget] at hother
    cases hother
    exact hspelled
  · refine .failed (fun haddressed ↦ ?_) ⟨bytes, cause, hget, hflaw, rfl⟩ hrefused
    exact (haddressed bytes hget).not_flaw hflaw

/-- A body is read without fail, unless it names an address. -/
theorem makes_body : Makes fields.Addressed fields.ReportsAddress [.target, .recipient]
    (fields.body family) := by
  have hskip {field : Field} (hforeign : family.allows field = false) : fields.Addressed field :=
    .of_absent (h.absent hforeign)
  cases family with
  | coreAdmin | roleAccess =>
    refine .skip (hskip rfl) (.skip (hskip rfl) (.nil_bind (h.makes_identifier ?_ rfl)
      fun writingKey _ ↦ .of_ok rfl))
    exact h.required _ (by decide)
  | adminControl =>
    refine .cons_bind (makes_address ?_) fun target _ ↦ .skip (hskip rfl) (.of_ok rfl)
    exact h.required _ (by decide)
  | balanceInitialization =>
    refine .cons_bind (makes_address ?_) fun target _ ↦ .skip (hskip rfl)
      (.nil_bind (h.makes_amountAt ?_) fun amount _ ↦ .of_ok rfl)
    all_goals exact h.required _ (by decide)
  | transfer =>
    refine .skip (hskip rfl) (.cons_bind (makes_address ?_) fun recipient _ ↦
      .nil_bind (h.makes_amountAt ?_) fun amount _ ↦ .of_ok rfl)
    all_goals exact h.required _ (by decide)
  | transaction =>
    refine .skip (hskip rfl) (.skip (hskip rfl)
      (.nil_bind (h.makes_identifier ?_ rfl) fun writingKey _ ↦
        .nil_bind (h.makes_identifier ?_ rfl) fun content _ ↦
        .nil_bind (h.makes_identifier ?_ rfl) fun external _ ↦
        .nil_bind (h.makes_identifier ?_ rfl) fun ledger _ ↦ .of_ok rfl))
    all_goals exact h.required _ (by decide)
  | bootstrapDeployment =>
    refine .skip (hskip rfl) (.skip (hskip rfl)
      (.nil_bind (h.makes_identifier ?_ rfl) fun bootstrap _ ↦
        .nil_bind (h.makes_identifier ?_ rfl) fun channel _ ↦ .of_ok rfl))
    all_goals exact h.required _ (by decide)

/-- A cosignature is read without fail, unless its validator is not the text of an address. -/
theorem makes_cosignature : Makes fields.Addressed fields.ReportsAddress [.validatorAddress]
    fields.cosignature := by
  unfold cosignature
  split
  · rename_i hany
    have hpresent : ∀ field ∈ Field.cosignature, fields.Present field := by
      obtain ⟨field, hmem, hfield⟩ := List.any_eq_true.mp hany
      exact h.whole.resolve_left fun hnone ↦ hnone field hmem (has_iff_present.mp hfield)
    refine .cons_bind (makes_address ?_) fun validator _ ↦
      .nil_bind (h.makes_identifier ?_ rfl) fun nonce _ ↦
      .nil_bind (h.makes_identifier ?_ rfl) fun signature _ ↦ .of_ok rfl
    all_goals exact hpresent _ (by decide)
  · rename_i hnone
    refine .skip (.of_absent fun hpresent ↦ hnone ?_) (.of_ok rfl)
    exact List.any_eq_true.mpr ⟨.validatorAddress, by decide, has_iff_present.mpr hpresent⟩

/-- What is wrong with an address of the right width is its tag or a digit. -/
theorem cause_of_reportsAddress {e : SchemaError} (hfield : field ∈ Field.addresses)
    (hreport : fields.ReportsAddress field e) :
    ∃ field ∈ Field.addresses, ∃ cause ∈ [AddressError.tag, AddressError.encoding],
      e = .invalidAddress (some field) cause := by
  obtain ⟨bytes, cause, hget, hflaw, rfl⟩ := hreport
  have hwidths : ∀ f ∈ Field.addresses, f.width = Address.width := by decide
  have hlength : bytes.length = Address.width :=
    (h.widths field bytes hget).trans (hwidths field hfield)
  refine ⟨field, hfield, cause, ?_, rfl⟩
  cases cause with
  | length actual => exact absurd hlength hflaw.2
  | publicKey => exact hflaw.elim
  | tag | encoding => decide

end Checked

end Fields

/-! ### The checks of operations -/

namespace RawOperation

variable {raw : RawOperation}

theorem Reports.unique {check : SchemaCheck} {e e' : SchemaError} (h : raw.Reports check e)
    (h' : raw.Reports check e') : e = e' := by
  cases check with
  | kind | wholeCosignature => exact h.trans h'.symm
  | family =>
    obtain ⟨kind, hnumber, rfl⟩ := h
    obtain ⟨kind', hnumber', rfl⟩ := h'
    rw [Kind.number_injective (hnumber.trans hnumber'.symm)]
  | requester =>
    rcases h with ⟨hnone, rfl⟩ | ⟨bytes, cause, hbytes, hflaw, rfl⟩ <;>
      rcases h' with ⟨hnone', rfl⟩ | ⟨bytes', cause', hbytes', hflaw', rfl⟩
    · rfl
    · rw [hnone] at hbytes'
      cases hbytes'
    · rw [hbytes] at hnone'
      cases hnone'
    · obtain rfl : bytes = bytes' := Option.some.inj (hbytes.symm.trans hbytes')
      rw [hflaw.unique hflaw']
  | knownFields | requiredFields =>
    obtain ⟨field, hfirst, rfl⟩ := h
    obtain ⟨field', hfirst', rfl⟩ := h'
    rw [hfirst.unique hfirst']
  | fieldWidths =>
    obtain ⟨field, bytes, hfirst, hget, rfl⟩ := h
    obtain ⟨field', bytes', hfirst', hget', rfl⟩ := h'
    obtain rfl := hfirst.unique hfirst'
    rw [Option.some.inj (hget.symm.trans hget')]
  | addressContents =>
    obtain ⟨field, hfirst, bytes, cause, hget, hflaw, rfl⟩ := h
    obtain ⟨field', hfirst', bytes', cause', hget', hflaw', rfl⟩ := h'
    obtain rfl := hfirst.unique hfirst'
    obtain rfl : bytes = bytes' := Option.some.inj (hget.symm.trans hget')
    rw [hflaw.unique hflaw']

theorem isValid_iff : raw.isValid = true ↔ ∃ op, raw.validate = .ok op := by
  unfold isValid
  cases raw.validate with
  | ok op => exact ⟨fun _ ↦ ⟨op, rfl⟩, fun _ ↦ rfl⟩
  | error e =>
    constructor
    · rintro ⟨⟩
    · rintro ⟨op, ⟨⟩⟩

theorem family_of_checkedKind {kind : Kind} (h : raw.checkedKind = .ok kind) :
    kind.family = raw.family := by
  unfold checkedKind at h
  split at h
  · cases h
  · split at h
    · rename_i hfamily
      cases h
      exact hfamily.symm
    · cases h

theorem makes_checkedKind : Makes raw.Passes raw.Reports [.kind, .family] raw.checkedKind := by
  unfold checkedKind
  split
  · rename_i hnone
    have hfails : ¬ raw.Passes .kind := by
      intro hpasses
      obtain ⟨kind, hnumber⟩ := Kind.exists_number_iff.mpr hpasses
      rw [Kind.ofNumber?_eq_some_iff.mpr hnumber] at hnone
      cases hnone
    exact .failed hfails rfl rfl
  · rename_i kind hfound
    have hnumber := Kind.ofNumber?_eq_some_iff.mp hfound
    refine .skip (Kind.exists_number_iff.mp ⟨kind, hnumber⟩) ?_
    split
    · rename_i hfamily
      exact .succeeded ⟨kind, hnumber, hfamily.symm⟩ rfl
    · rename_i hfamily
      refine .failed ?_ ⟨kind, hnumber, rfl⟩ rfl
      rintro ⟨kind', hnumber', hfamily'⟩
      rw [Kind.number_injective (hnumber'.trans hnumber.symm)] at hfamily'
      exact hfamily hfamily'.symm

theorem makes_checkedRequester :
    Makes raw.Passes raw.Reports [.requester] raw.checkedRequester := by
  unfold checkedRequester
  split
  · rename_i hnone
    refine .failed ?_ (Or.inl ⟨hnone, rfl⟩) rfl
    rintro ⟨bytes, hbytes, -⟩
    rw [hnone] at hbytes
    cases hbytes
  · rename_i bytes hbytes
    rcases Address.parse_cases bytes with ⟨hspelled, a, hread⟩ | ⟨cause, hflaw, hrefused⟩
    · exact .succeeded ⟨bytes, hbytes, hspelled⟩ (by rw [hread]; rfl)
    · refine .failed ?_ (Or.inr ⟨bytes, cause, hbytes, hflaw, rfl⟩) (by rw [hrefused]; rfl)
      rintro ⟨bytes', hbytes', hspelled⟩
      rw [hbytes] at hbytes'
      cases hbytes'
      exact hspelled.not_flaw hflaw

theorem makes_checkCosignature :
    Makes raw.Passes raw.Reports [.wholeCosignature] raw.fields.checkCosignature := by
  rcases raw.fields.checkCosignature_eq with ⟨hok, hpasses⟩ | ⟨herror, hfails⟩
  · exact .succeeded hpasses hok
  · exact .failed hfails rfl herror

theorem makes_addressContents {α : Type} {x : Except SchemaError α}
    (h : Makes raw.fields.Addressed raw.fields.ReportsAddress Field.addresses x) :
    Makes raw.Passes raw.Reports [.addressContents] x :=
  h.whole Iff.rfl fun field _ hfirst hreport ↦ ⟨field, hfirst, hreport⟩

/-- The schema makes all its checks in order. -/
theorem makes_validate : Makes raw.Passes raw.Reports SchemaCheck.all raw.validate := by
  unfold validate
  refine .bind makes_checkedKind fun kind hkind _ ↦ ?_
  rw [family_of_checkedKind hkind]
  have hknown : Makes raw.Passes raw.Reports [.knownFields]
      (raw.fields.checkKnown raw.family) :=
    Fields.makes_checkKnown.whole Iff.rfl fun field _ hfirst hreport ↦ ⟨field, hfirst, hreport⟩
  have hrequired : Makes raw.Passes raw.Reports [.requiredFields]
      (raw.fields.checkRequired raw.family) :=
    Fields.makes_checkRequired.whole Iff.rfl fun field _ hfirst hreport ↦ ⟨field, hfirst, hreport⟩
  have hwidths : Makes raw.Passes raw.Reports [.fieldWidths] raw.fields.checkWidths := by
    refine Fields.makes_checkWidths.whole Iff.rfl fun field _ hfirst hreport ↦ ?_
    obtain ⟨bytes, hget, he⟩ := hreport
    exact ⟨field, bytes, hfirst, hget, he⟩
  refine .cons_bind makes_checkedRequester fun requester _ ↦
    .cons_bind hknown fun _ hknownOk ↦
    .cons_bind makes_checkCosignature fun _ hwholeOk ↦
    .cons_bind hrequired fun _ hrequiredOk ↦
    .cons_bind hwidths fun _ hwidthsOk ↦ ?_
  have hchecked : raw.fields.Checked raw.family := {
    known := fun field ↦ hknown.passed hknownOk field field.mem_all
    whole := makes_checkCosignature.passed hwholeOk
    required := hrequired.passed hrequiredOk
    widths := fun field ↦ hwidths.passed hwidthsOk field field.mem_all }
  have hown {field : Field} (hcommon : field ∈ Field.common) : raw.fields.Present field :=
    hchecked.required field (Family.mem_required_of_common hcommon)
  refine makes_addressContents (.bind hchecked.makes_body fun body _ _ ↦
    .cons_bind hchecked.makes_cosignature fun cosignature _ ↦
    .nil_bind (hchecked.makes_identifier (hown ?_) rfl) fun tx _ ↦
    .nil_bind (hchecked.makes_identifier (hown ?_) rfl) fun txValidity _ ↦
    .nil_bind (hchecked.makes_identifier (hown ?_) rfl) fun nonce _ ↦
    .nil_bind (hchecked.makes_identifier (hown ?_) rfl) fun signature _ ↦ .of_ok rfl)
  all_goals decide

/-- **The schema accepts its grammar and reports the first violation.** A raw operation is valid if
and only if it passes every check, and an error is reported if and only if it is the report of the
first check that is not passed. Behind the checks on presence and width no reader fails, except on
the text of an address that lacks the tag or has a character that is no digit. -/
theorem schema_accepts_grammar_and_reports_first (raw : RawOperation) :
    (raw.isValid = true ↔ ∀ check, raw.Passes check) ∧
      (∀ e, raw.validate = .error e ↔ raw.Violates e) ∧
      (raw.fields.Checked raw.family →
        (∀ e, raw.fields.body raw.family = .error e ∨ raw.fields.cosignature = .error e →
          ∃ field ∈ Field.addresses, ∃ cause ∈ [AddressError.tag, AddressError.encoding],
            e = .invalidAddress (some field) cause) ∧
        (∃ tx : Hash, raw.fields.identifier .tx = .ok tx) ∧
        (∃ txValidity : Hash, raw.fields.identifier .txValidity = .ok txValidity) ∧
        (∃ nonce : Nonce, raw.fields.identifier .nonce = .ok nonce) ∧
        ∃ signature : Signature, raw.fields.identifier .signature = .ok signature) := by
  refine ⟨?_, fun e ↦ makes_validate.eq_error_iff fun check _ _ h h' ↦ h.unique h', fun h ↦ ?_⟩
  · rw [isValid_iff, makes_validate.exists_ok_iff]
    exact ⟨fun hall check ↦ hall check (SchemaCheck.mem_all check), fun hall check _ ↦ hall check⟩
  · have hown {field : Field} (hcommon : field ∈ Field.common) : raw.fields.Filled field :=
      h.filled (h.required field (Family.mem_required_of_common hcommon))
    refine ⟨?_, (hown (by decide)).exists_identifier rfl, (hown (by decide)).exists_identifier rfl,
      (hown (by decide)).exists_identifier rfl, (hown (by decide)).exists_identifier rfl⟩
    rintro e (hbody | hcosignature)
    · obtain ⟨field, hfirst, hreport⟩ := h.makes_body.of_error hbody
      exact h.cause_of_reportsAddress (List.mem_append_left _ hfirst.mem) hreport
    · obtain ⟨field, hfirst, hreport⟩ := h.makes_cosignature.of_error hcosignature
      exact h.cause_of_reportsAddress (List.mem_append_right [.target, .recipient] hfirst.mem)
        hreport

end RawOperation

end SettlementLedger
