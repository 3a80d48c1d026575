import SettlementLedger.Proofs.LastWrites
import SettlementLedger.Proofs.WireRoundTrip

/-!
# Fields are a faithful map

Fields are set and cleared one at a time. After any steps from no field at all a field holds what
the last step that set it gave it, unless it was cleared since (`Fields.lastWrite_after`), and steps
on other fields are of no account (`Fields.get_run_filter`). All of this rests on one property of
the two tables of places: what is written for a field is read for it, and for no other field
(`Fields.slot_withSlot`).

On the wire the places follow each other in the order of the record, in which they are written as in
which they are read. That order is the canonical one (`Fields.options_eq_map`), so whatever is
written field by field is read back field by field (`RawOperation.decode_written`), and no two
fields of one width are mixed up.
-/

set_option autoImplicit false
set_option relaxedAutoImplicit false

namespace SettlementLedger

/-- A change of one field. -/
inductive FieldStep where
  /-- Gives a field these bytes. -/
  | set (field : Field) (bytes : Bytes)
  /-- Takes a field out. -/
  | clear (field : Field)
  deriving DecidableEq

namespace FieldStep

/-- The field that a step changes. -/
def field : FieldStep → Field
  | set field _ | clear field => field

theorem set_injective (field : Field) : Function.Injective (set field) :=
  fun _ _ h ↦ (set.inj h).2

end FieldStep

namespace Fields

/-- The fields after a step. -/
def step (fields : Fields) : FieldStep → Fields
  | .set field bytes => fields.set field bytes
  | .clear field => fields.clear field

/-- None of these steps clears a field. -/
def Uncleared (field : Field) (later : List FieldStep) : Prop := .clear field ∉ later

/-- The fields after a list of steps. -/
def run (fields : Fields) (steps : List FieldStep) : Fields := steps.foldl step fields

/-! ### The last step on a field -/

variable {fields fields' : Fields} {f : Field} {past : List FieldStep}

theorem uncleared_nil : Uncleared f [] := List.not_mem_nil

theorem uncleared_concat {later : List FieldStep} {next : FieldStep} :
    Uncleared f (later ++ [next]) ↔ Uncleared f later ∧ .clear f ≠ next := by
  rw [Uncleared, List.mem_append, List.mem_singleton, not_or]
  exact Iff.rfl

theorem get_step_of_ne {next : FieldStep} (h : next.field ≠ f) :
    (fields.step next).get f = fields.get f := by
  cases next with
  | set field bytes => exact (get_set fields field bytes f).trans (if_neg (Ne.symm h))
  | clear field => exact (get_clear fields field f).trans (if_neg (Ne.symm h))

/-- What a field holds after a step depends on what it held before. -/
theorem get_step_congr (h : fields'.get f = fields.get f) (next : FieldStep) :
    (fields'.step next).get f = (fields.step next).get f := by
  cases next with
  | set field bytes => rw [step, step, get_set, get_set, h]
  | clear field => rw [step, step, get_clear, get_clear, h]

theorem lastWrite_step (h : LastWrite (.set f) (Uncleared f) past (fields.get f))
    (next : FieldStep) : LastWrite (.set f) (Uncleared f) (past ++ [next])
      ((fields.step next).get f) := by
  by_cases hfield : next.field = f
  · cases next with
    | set field bytes =>
      obtain rfl : field = f := hfield
      have hget : (fields.step (.set field bytes)).get field = some bytes :=
        (get_set fields field bytes field).trans (if_pos rfl)
      rw [hget]
      exact .concat_self uncleared_nil
    | clear field =>
      obtain rfl : field = f := hfield
      have hget : (fields.step (.clear field)).get field = none :=
        (get_clear fields field field).trans (if_pos rfl)
      rw [hget]
      refine LastWrite.concat (.of_never fun later hlater ↦ ?_) fun _ hset ↦ by cases hset
      exact (uncleared_concat.mp hlater).2 rfl
  · have hother (change : FieldStep) (hchange : change.field = f) : change ≠ next :=
      fun heq ↦ hfield (heq ▸ hchange)
    rw [get_step_of_ne hfield]
    refine LastWrite.concat (h.congr fun later ↦ ?_) fun v hset ↦ absurd hset (hother _ rfl)
    rw [uncleared_concat, and_iff_left (hother _ rfl)]

theorem lastWrite_run (h : LastWrite (.set f) (Uncleared f) past (fields.get f))
    (steps : List FieldStep) : LastWrite (.set f) (Uncleared f) (past ++ steps)
      ((fields.run steps).get f) := by
  induction steps generalizing fields past with
  | nil => rwa [List.append_nil]
  | cons next rest ih =>
    rw [List.append_cons]
    exact ih (lastWrite_step h next)

/-- A field holds what the last step that set it gave it, if no later step has cleared it. -/
theorem lastWrite_after (past : List FieldStep) (f : Field) :
    LastWrite (.set f) (Uncleared f) past ((empty.run past).get f) := by
  have hempty : LastWrite (.set f) (Uncleared f) [] (empty.get f) := by
    rw [get_empty]
    exact .nil
  exact lastWrite_run hempty past

/-- Steps on other fields do not matter for a field. -/
theorem get_run_filter (h : fields'.get f = fields.get f) (steps : List FieldStep) :
    (fields'.run (steps.filter fun step ↦ step.field = f)).get f = (fields.run steps).get f := by
  induction steps generalizing fields fields' with
  | nil => exact h
  | cons next rest ih =>
    by_cases hfield : next.field = f
    · rw [List.filter_cons, if_pos (decide_eq_true hfield)]
      exact ih (get_step_congr h next)
    · rw [List.filter_cons, if_neg fun hkept ↦ hfield (of_decide_eq_true hkept)]
      exact ih (h.trans (get_step_of_ne hfield).symm)

/-! ### Fields given one by one -/

/-- The fields with given contents. -/
def ofGet (contents : Field → Option Bytes) : Fields :=
  Field.all.foldl (fun fields field ↦ fields.withSlot field (contents field)) empty

theorem get_ofGet (contents : Field → Option Bytes) (field : Field) :
    (ofGet contents).get field = contents field := by
  cases field <;> rfl

end Fields

namespace RawOperation

/-- An operation on the wire whose fields are written one by one, in canonical order. -/
def written (kind : UInt32) (address : Option Bytes) (family : Family)
    (contents : Field → Option Bytes) : Bytes :=
  Varint.encode kind.toNat ++ (Wire.writeOption address ++ (Varint.encode family.index ++
    Field.all.flatMap fun field ↦ Wire.writeOption (contents field)))

variable (kind : UInt32) (address : Option Bytes) (family : Family)

theorem serialize_eq_written (fields : Fields) :
    serialize ⟨kind, address, family, fields⟩ = written kind address family fields.get := by
  rw [serialize, Wire.writeFields_eq, written, Wire.writeEach]

/-- What is written for each field is read for it. -/
theorem decode_written {contents : Field → Option Bytes}
    (h : (written kind address family contents).length ≤ maxBytes) :
    decode (written kind address family contents) =
      .ok ⟨kind, address, family, .ofGet contents⟩ := by
  have hwritten := serialize_eq_written kind address family (.ofGet contents)
  rw [funext (Fields.get_ofGet contents)] at hwritten
  rw [← hwritten] at h ⊢
  exact decode_serialize h

end RawOperation

open RawOperation in
/-- **Fields are a faithful map.** After any steps from no field at all a field holds what the last
step that set it gave it, if that exists and no later step has cleared the field, and nothing
otherwise; the steps on other fields may be left out. The fields that are present are those that
hold something, each once and in canonical order. That is the order in which the fifteen places of
the record follow each other on the wire: what is encoded are the contents of each field in turn,
and of any fifteen contents that are decoded each goes to the field that has its turn. -/
theorem Fields.steps_make_a_map (past : List FieldStep) :
    (∀ f found, LastWrite (.set f) (Uncleared f) past found ↔
      found = (empty.run past).get f) ∧
    (∀ f, (empty.run past).get f = (empty.run (past.filter fun step ↦ step.field = f)).get f) ∧
    ((empty.run past).present.Sublist Field.all ∧ (empty.run past).present.Nodup ∧
      ∀ f, f ∈ (empty.run past).present ↔ ∃ bytes, (empty.run past).get f = some bytes) ∧
    (empty.run past).options = Field.all.map (empty.run past).get ∧
    (∀ kind address family bytes,
      (RawOperation.mk kind address family (empty.run past)).encode = .ok bytes ↔
        bytes.length ≤ maxBytes ∧ bytes = written kind address family (empty.run past).get) ∧
    ∀ kind address family contents, (written kind address family contents).length ≤ maxBytes →
      ∃ found : Fields, decode (written kind address family contents) =
          .ok ⟨kind, address, family, found⟩ ∧ ∀ f, found.get f = contents f := by
  refine ⟨fun f found ↦ ?_, fun f ↦ (get_run_filter rfl past).symm, ⟨?_, ?_, fun f ↦ ?_⟩,
    options_eq_map _, ?_, ?_⟩
  · exact (lastWrite_after past f).iff_eq (FieldStep.set_injective f)
  · exact List.filter_sublist
  · exact Field.nodup_all.filter _
  · rw [mem_present_iff, Option.isSome_iff_exists]
  · intro kind address family bytes
    rw [encode_eq_ok, serialize_eq_written]
    exact ⟨fun ⟨hle, heq⟩ ↦ ⟨heq ▸ hle, heq.symm⟩, fun ⟨hle, heq⟩ ↦ ⟨heq ▸ hle, heq.symm⟩⟩
  · intro kind address family contents hfits
    exact ⟨ofGet contents, decode_written kind address family hfits, get_ofGet contents⟩

end SettlementLedger
