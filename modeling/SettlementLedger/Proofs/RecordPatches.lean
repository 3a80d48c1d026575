import SettlementLedger.Proofs.RecordCodecs
import SettlementLedger.Transition.Refusal

/-!
# Patches of encoded records

A patch replaces one field of a record without being given the record itself: it reads the bytes,
changes the field and writes the bytes again. What becomes of the bytes is said here without reading
them: the field's range holds the argument, and every byte outside of it is what it was
(`Bytes.overwrite`).

A `PatchFamily` collects the patches of one kind of record. `PatchFamily.Lawful` is what each patch
has to satisfy for itself, and `PatchFamily.Lawful.exact` derives from it how patches act together:
patches of different fields commute, and of two patches of one field the last one counts. The node
record has five fields that can be patched and the admin record one (`record_patches_exact`).
-/

set_option autoImplicit false
set_option relaxedAutoImplicit false

namespace SettlementLedger

/-! ### Writing over a range of bytes -/

namespace Bytes

/-- The bytes with a field written over those from an offset on. -/
def overwrite (bytes : Bytes) (offset : Nat) (field : Bytes) : Bytes :=
  bytes.take offset ++ (field ++ bytes.drop (offset + field.length))

variable {bytes field other : Bytes} {offset next : Nat}

theorem getElem?_overwrite (hfits : offset + field.length ≤ bytes.length) (i : Nat) :
    (bytes.overwrite offset field)[i]? =
      if offset ≤ i ∧ i < offset + field.length then field[i - offset]? else bytes[i]? := by
  have hfront : (bytes.take offset).length = offset := by
    rw [List.length_take]
    omega
  rw [overwrite, List.getElem?_append, List.getElem?_append, hfront]
  by_cases hbefore : i < offset
  · rw [if_pos hbefore, if_neg (by omega), List.getElem?_take_of_lt hbefore]
  · by_cases hinside : i < offset + field.length
    · rw [if_neg hbefore, if_pos (by omega), if_pos (by omega)]
    · rw [if_neg hbefore, if_neg (by omega), if_neg (by omega), List.getElem?_drop]
      congr 1
      omega

theorem length_overwrite (hfits : offset + field.length ≤ bytes.length) :
    (bytes.overwrite offset field).length = bytes.length := by
  simp only [overwrite, List.length_append, List.length_take, List.length_drop]
  omega

theorem slice_overwrite (hfits : offset + field.length ≤ bytes.length) :
    (bytes.overwrite offset field).slice offset field.length = field := by
  have hfront : (bytes.take offset).length = offset := by
    rw [List.length_take]
    omega
  have hslice := slice_append (bytes.take offset) field (bytes.drop (offset + field.length))
  rwa [hfront] at hslice

/-- Of two fields written over one range the last one stays. -/
theorem overwrite_overwrite (hfits : offset + field.length ≤ bytes.length)
    (hwidth : other.length = field.length) :
    (bytes.overwrite offset field).overwrite offset other = bytes.overwrite offset other := by
  refine List.ext_getElem? fun i ↦ ?_
  rw [getElem?_overwrite (by rw [length_overwrite hfits]; omega), getElem?_overwrite hfits,
    getElem?_overwrite (by omega), hwidth]
  split <;> rfl

/-- Fields written over ranges that lie apart can be written in either order. -/
theorem overwrite_comm (hfits : next + other.length ≤ bytes.length)
    (hapart : offset + field.length ≤ next) :
    (bytes.overwrite offset field).overwrite next other =
      (bytes.overwrite next other).overwrite offset field := by
  have hfits' : offset + field.length ≤ bytes.length := by omega
  refine List.ext_getElem? fun i ↦ ?_
  rw [getElem?_overwrite (by rw [length_overwrite hfits']; omega), getElem?_overwrite hfits',
    getElem?_overwrite (by rw [length_overwrite hfits]; omega), getElem?_overwrite hfits]
  by_cases hfirst : offset ≤ i ∧ i < offset + field.length
  · rw [if_pos hfirst, if_neg (by omega), if_pos hfirst]
  · rw [if_neg hfirst, if_neg hfirst]

/-- In bytes that are put together from parts, one part is replaced by another of its width. -/
theorem overwrite_append (front middle back : Bytes) (hoffset : front.length = offset)
    (hwidth : field.length = middle.length) :
    (front ++ (middle ++ back)).overwrite offset field = front ++ (field ++ back) := by
  subst hoffset
  rw [overwrite, List.take_left, hwidth, ← List.drop_drop, List.drop_left, List.drop_left]

end Bytes

/-! ### Families of patches -/

/-- The patches of the encodings of one kind of record: the codec, the fields and where they lie,
which bytes a patch puts into which field, when it accepts its argument, and why it refuses it
otherwise. -/
structure PatchFamily where
  Value : Type
  Field : Type
  Patch : Type
  encode : Value → Bytes
  decode : Bytes → Except CodecError Value
  run : Patch → Bytes → Except CodecError Bytes
  offset : Field → Nat
  width : Field → Nat
  field : Patch → Field
  argument : Patch → Bytes
  Accepts : Patch → Prop
  cause : Patch → CodecError

namespace PatchFamily

/-- The record with the argument of a patch in the place of its field. -/
def replaced (family : PatchFamily) (patch : family.Patch) (record : Bytes) : Bytes :=
  record.overwrite (family.offset (family.field patch)) (family.argument patch)

/-- What the patches of a family satisfy one by one. A patch whose argument is refused does not look
at the record; any other reads it, updates it and writes it again, with the argument in the place of
the field. The fields lie within the record and apart from each other. -/
structure Lawful (family : PatchFamily) : Prop where
  decode_eq_ok_iff : ∀ record value, family.decode record = .ok value ↔ record = family.encode value
  run_of_refused : ∀ patch record, ¬ family.Accepts patch →
    family.run patch record = .error (family.cause patch)
  exists_update : ∀ patch, family.Accepts patch → ∃ update : family.Value → family.Value,
    (∀ record, family.run patch record =
      (family.decode record).map fun value ↦ family.encode (update value)) ∧
    ∀ value, family.encode (update value) = family.replaced patch (family.encode value)
  length_argument : ∀ patch, family.Accepts patch →
    (family.argument patch).length = family.width (family.field patch)
  within : ∀ field value,
    family.offset field + family.width field ≤ (family.encode value).length
  apart : ∀ field other, field ≠ other →
    family.offset field + family.width field ≤ family.offset other ∨
      family.offset other + family.width other ≤ family.offset field

/-- How the patches of a family act on the bytes of a record, alone and together. -/
structure Exact (family : PatchFamily) : Prop where
  exists_run_iff : ∀ patch record, (∃ patched, family.run patch record = .ok patched) ↔
    (∃ value, family.decode record = .ok value) ∧ family.Accepts patch
  of_refused : ∀ patch record, ¬ family.Accepts patch →
    family.run patch record = .error (family.cause patch)
  of_unread : ∀ patch record cause, family.Accepts patch →
    family.decode record = .error cause → family.run patch record = .error cause
  eq_replaced : ∀ patch record patched, family.run patch record = .ok patched →
    patched = family.replaced patch record
  length_eq : ∀ patch record patched, family.run patch record = .ok patched →
    patched.length = record.length
  inside : ∀ patch record patched, family.run patch record = .ok patched →
    patched.slice (family.offset (family.field patch)) (family.width (family.field patch)) =
      family.argument patch
  outside : ∀ patch record patched, family.run patch record = .ok patched →
    ∀ i, i < family.offset (family.field patch) ∨
        family.offset (family.field patch) + family.width (family.field patch) ≤ i →
      patched[i]? = record[i]?
  read : ∀ patch record patched, family.run patch record = .ok patched →
    ∃ value, family.decode patched = .ok value
  comm : ∀ first second record one other, family.field first ≠ family.field second →
    family.run first record = .ok one → family.run second record = .ok other →
      ∃ both, family.run second one = .ok both ∧ family.run first other = .ok both
  last : ∀ first second record patched, family.field first = family.field second →
    family.run first record = .ok patched →
      family.run second patched = family.run second record

namespace Lawful

variable {family : PatchFamily} {patch first second : family.Patch} {record patched : Bytes}

theorem decode_encode (h : family.Lawful) (value : family.Value) :
    family.decode (family.encode value) = .ok value :=
  (h.decode_eq_ok_iff _ value).mpr rfl

/-- A record whose field an accepted patch replaces is the encoding of another record. -/
theorem exists_replaced_eq (h : family.Lawful) (haccepts : family.Accepts patch)
    (value : family.Value) :
    ∃ value', family.replaced patch (family.encode value) = family.encode value' := by
  obtain ⟨update, -, hwrites⟩ := h.exists_update patch haccepts
  exact ⟨update value, (hwrites value).symm⟩

theorem run_encode (h : family.Lawful) (haccepts : family.Accepts patch) (value : family.Value) :
    family.run patch (family.encode value) = .ok (family.replaced patch (family.encode value)) := by
  obtain ⟨update, hrun, hwrites⟩ := h.exists_update patch haccepts
  rw [hrun, h.decode_encode, ← hwrites]
  rfl

theorem run_eq_ok_iff (h : family.Lawful) : family.run patch record = .ok patched ↔
    ∃ value, record = family.encode value ∧ family.Accepts patch ∧
      patched = family.replaced patch record := by
  constructor
  · intro hok
    have haccepts : family.Accepts patch := by
      refine Classical.byContradiction fun hrefused ↦ ?_
      rw [h.run_of_refused patch record hrefused] at hok
      cases hok
    obtain ⟨update, hrun, -⟩ := h.exists_update patch haccepts
    cases hread : family.decode record with
    | error cause =>
      rw [hrun, hread] at hok
      cases hok
    | ok value =>
      obtain rfl := (h.decode_eq_ok_iff record value).mp hread
      rw [h.run_encode haccepts] at hok
      exact ⟨value, rfl, haccepts, (Except.ok.inj hok).symm⟩
  · rintro ⟨value, rfl, haccepts, rfl⟩
    exact h.run_encode haccepts value

/-- What an accepted patch writes lies within the record. -/
theorem fits (h : family.Lawful) (haccepts : family.Accepts patch) (value : family.Value) :
    family.offset (family.field patch) + (family.argument patch).length ≤
      (family.encode value).length := by
  rw [h.length_argument patch haccepts]
  exact h.within _ value

/-- Two fields of a record can be replaced in either order. -/
theorem replaced_comm (h : family.Lawful) (hne : family.field first ≠ family.field second)
    (hfirst : family.Accepts first) (hsecond : family.Accepts second) (value : family.Value) :
    family.replaced second (family.replaced first (family.encode value)) =
      family.replaced first (family.replaced second (family.encode value)) := by
  rcases h.apart _ _ hne with hbefore | hafter
  · rw [← h.length_argument first hfirst] at hbefore
    exact Bytes.overwrite_comm (h.fits hsecond value) hbefore
  · rw [← h.length_argument second hsecond] at hafter
    exact (Bytes.overwrite_comm (h.fits hfirst value) hafter).symm

/-- Of two replacements of one field the last one stays. -/
theorem replaced_replaced (h : family.Lawful) (heq : family.field first = family.field second)
    (hfirst : family.Accepts first) (hsecond : family.Accepts second) (value : family.Value) :
    family.replaced second (family.replaced first (family.encode value)) =
      family.replaced second (family.encode value) := by
  have hwidth : (family.argument second).length = (family.argument first).length := by
    rw [h.length_argument second hsecond, h.length_argument first hfirst, heq]
  rw [replaced, replaced, replaced, ← heq]
  exact Bytes.overwrite_overwrite (h.fits hfirst value) hwidth

/-- Patches of two fields meet in the record that has both replaced. -/
theorem exists_run_run (h : family.Lawful) {other : Bytes}
    (hne : family.field first ≠ family.field second) (hone : family.run first record = .ok patched)
    (hother : family.run second record = .ok other) :
    ∃ both, family.run second patched = .ok both ∧ family.run first other = .ok both := by
  obtain ⟨value, rfl, hfirst, rfl⟩ := h.run_eq_ok_iff.mp hone
  obtain ⟨-, -, hsecond, rfl⟩ := h.run_eq_ok_iff.mp hother
  obtain ⟨one, hone⟩ := h.exists_replaced_eq hfirst value
  obtain ⟨two, htwo⟩ := h.exists_replaced_eq hsecond value
  have hmeet := h.replaced_comm hne hfirst hsecond value
  refine ⟨_, h.run_eq_ok_iff.mpr ⟨one, hone, hsecond, rfl⟩, ?_⟩
  exact h.run_eq_ok_iff.mpr ⟨two, htwo, hfirst, hmeet⟩

/-- Of two patches of one field the last one counts, also when it is refused. -/
theorem run_run (h : family.Lawful) (heq : family.field first = family.field second)
    (hrun : family.run first record = .ok patched) :
    family.run second patched = family.run second record := by
  obtain ⟨value, rfl, hfirst, rfl⟩ := h.run_eq_ok_iff.mp hrun
  by_cases hsecond : family.Accepts second
  · obtain ⟨one, hone⟩ := h.exists_replaced_eq hfirst value
    rw [hone, h.run_encode hsecond, h.run_encode hsecond, ← hone,
      h.replaced_replaced heq hfirst hsecond]
  · rw [h.run_of_refused second _ hsecond, h.run_of_refused second _ hsecond]

/-- Patches that satisfy the laws one by one act exactly. -/
theorem exact (h : family.Lawful) : family.Exact where
  exists_run_iff patch record := by
    simp only [h.run_eq_ok_iff, h.decode_eq_ok_iff]
    constructor
    · rintro ⟨patched, value, hread, haccepts, -⟩
      exact ⟨⟨value, hread⟩, haccepts⟩
    · rintro ⟨⟨value, hread⟩, haccepts⟩
      exact ⟨_, value, hread, haccepts, rfl⟩
  of_refused := h.run_of_refused
  of_unread patch record cause haccepts hunread := by
    obtain ⟨update, hrun, -⟩ := h.exists_update patch haccepts
    rw [hrun, hunread]
    rfl
  eq_replaced patch record patched hrun := by
    obtain ⟨value, -, -, hpatched⟩ := h.run_eq_ok_iff.mp hrun
    exact hpatched
  length_eq patch record patched hrun := by
    obtain ⟨value, rfl, haccepts, rfl⟩ := h.run_eq_ok_iff.mp hrun
    exact Bytes.length_overwrite (h.fits haccepts value)
  inside patch record patched hrun := by
    obtain ⟨value, rfl, haccepts, rfl⟩ := h.run_eq_ok_iff.mp hrun
    rw [← h.length_argument patch haccepts]
    exact Bytes.slice_overwrite (h.fits haccepts value)
  outside patch record patched hrun i hi := by
    obtain ⟨value, rfl, haccepts, rfl⟩ := h.run_eq_ok_iff.mp hrun
    rw [← h.length_argument patch haccepts] at hi
    rw [replaced, Bytes.getElem?_overwrite (h.fits haccepts value), if_neg (by omega)]
  read patch record patched hrun := by
    obtain ⟨value, rfl, haccepts, rfl⟩ := h.run_eq_ok_iff.mp hrun
    obtain ⟨value', hvalue'⟩ := h.exists_replaced_eq haccepts value
    exact ⟨value', (h.decode_eq_ok_iff _ value').mpr hvalue'⟩
  comm first second record one other := h.exists_run_run
  last first second record patched := h.run_run

end Lawful

end PatchFamily

/-! ### Node records -/

theorem Amount.exists_eq_toBytes {bytes : Bytes} (h : bytes.length = Amount.width) :
    ∃ amount : Amount, bytes = amount.toBytes :=
  ⟨.ofBytes bytes h, (Amount.toBytes_ofBytes h).symm⟩

theorem Counter.exists_eq_encode {bytes : Bytes} (h : bytes.length = Counter.width) :
    ∃ n : UInt32, bytes = Counter.encode n :=
  ⟨Counter.ofBytes bytes, (Counter.encode_ofBytes h).symm⟩

theorem Counter.toNatBE_encode_eq_zero_iff {n : UInt32} :
    (Counter.encode n).toNatBE = 0 ↔ n = 0 := by
  have hlt : n.toNat < Bytes.capacity Counter.width := n.toNat_lt
  rw [Counter.encode, Bytes.toNatBE_ofNatBE hlt, ← UInt32.toNat_inj]
  rfl

namespace NodeRecord

/-- A field of a node record. -/
inductive Field where
  | role
  | writingKey
  | balance
  | license
  | stake
  deriving DecidableEq

/-- Where a field starts. -/
def Field.offset : Field → Nat
  | .role => 0
  | .writingKey => 1
  | .balance => 33
  | .license => 49
  | .stake => 53

/-- The number of bytes of a field. -/
def Field.width : Field → Nat
  | .role => 1
  | .writingKey => 32
  | .balance | .stake => 16
  | .license => 4

/-- A patch of one field with its argument. -/
inductive Patch where
  | role (bits : UInt8)
  | writingKey (key : Bytes)
  | balance (amount : Bytes)
  | license (number : Bytes)
  | stake (amount : Bytes)

namespace Patch

/-- The field that is replaced. -/
def field : Patch → Field
  | .role _ => .role
  | .writingKey _ => .writingKey
  | .balance _ => .balance
  | .license _ => .license
  | .stake _ => .stake

/-- The bytes that are put in its place. -/
def argument : Patch → Bytes
  | .role bits => [bits]
  | .writingKey bytes | .balance bytes | .license bytes | .stake bytes => bytes

/-- Whether the argument is one for the field: a role has only the three role bits, a license was
issued, and every other argument has the width of its field. -/
def Accepts : Patch → Prop
  | .role bits => bits.toNat ≤ 7
  | .writingKey key => key.length = 32
  | .balance amount | .stake amount => amount.length = 16
  | .license number => number.length = 4 ∧ number.toNatBE ≠ 0

/-- Why an argument is refused. -/
def cause : Patch → CodecError
  | .role _ => .domain .nodeRecord .role
  | .writingKey key => .length .writingKey 32 key.length
  | .balance amount => .length .balance 16 amount.length
  | .license number =>
    if number.length = 4 then .domain .nodeRecord .license else .length .license 4 number.length
  | .stake amount => .length .stakedBalance 16 amount.length

/-- The patched record, or why there is none. -/
def run : Patch → Bytes → Except CodecError Bytes
  | .role bits, record => patchRole record bits
  | .writingKey key, record => patchWritingKey record key
  | .balance amount, record => patchBalance record amount
  | .license number, record => patchLicense record number
  | .stake amount, record => patchStake record amount

end Patch

/-- The patches of encoded node records. -/
def patches : PatchFamily where
  Value := NodeRecord
  Field := Field
  Patch := Patch
  encode := encode
  decode := decode
  run := Patch.run
  offset := Field.offset
  width := Field.width
  field := Patch.field
  argument := Patch.argument
  Accepts := Patch.Accepts
  cause := Patch.cause

/-! #### One patch -/

variable (record : Bytes)

theorem patchRole_bits (role : Role) :
    patchRole record role.bits = (decode record).map fun node ↦ { node with role }.encode := by
  rw [patchRole, Role.ofBits?_bits]
  cases decode record <;> rfl

theorem patchWritingKey_bytes (writingKey : WritingKey) :
    patchWritingKey record writingKey.bytes =
      (decode record).map fun node ↦ { node with writingKey }.encode := by
  rw [patchWritingKey, Identifier.ofBytes?_bytes]
  cases decode record <;> rfl

theorem patchBalance_toBytes (balance : Amount) :
    patchBalance record balance.toBytes =
      (decode record).map fun node ↦ { node with balance }.encode := by
  rw [patchBalance, Amount.ofBytes?_toBytes]
  cases decode record <;> rfl

theorem patchLicense_encode {license : UInt32} (hissued : license ≠ 0) :
    patchLicense record (Counter.encode license) =
      (decode record).map fun node ↦ { node with license }.encode := by
  rw [patchLicense, if_neg (not_not_intro (Counter.length_encode license)),
    Counter.ofBytes_encode, if_neg hissued]
  cases decode record <;> rfl

theorem patchStake_toBytes (stake : Amount) :
    patchStake record stake.toBytes =
      (decode record).map fun node ↦ { node with stake }.encode := by
  rw [patchStake, Amount.ofBytes?_toBytes]
  cases decode record <;> rfl

variable (node : NodeRecord)

theorem encode_role (role : Role) :
    { node with role }.encode = node.encode.overwrite 0 [role.bits] :=
  rfl

theorem encode_writingKey (writingKey : WritingKey) :
    { node with writingKey }.encode = node.encode.overwrite 1 writingKey.bytes :=
  (Bytes.overwrite_append [node.role.bits] _ _ rfl
    (writingKey.length_bytes.trans node.writingKey.length_bytes.symm)).symm

theorem encode_balance (balance : Amount) :
    { node with balance }.encode = node.encode.overwrite 33 balance.toBytes := by
  have hoffset : (node.role.bits :: node.writingKey.bytes).length = 33 :=
    congrArg (· + 1) node.writingKey.length_bytes
  exact (Bytes.overwrite_append _ _ _ hoffset
    (balance.length_toBytes.trans node.balance.length_toBytes.symm)).symm

theorem encode_license (license : UInt32) :
    { node with license }.encode = node.encode.overwrite 49 (Counter.encode license) := by
  have hkey : node.writingKey.bytes.length = 32 := node.writingKey.length_bytes
  have hbalance : node.balance.toBytes.length = 16 := node.balance.length_toBytes
  have hoffset :
      (node.role.bits :: (node.writingKey.bytes ++ node.balance.toBytes)).length = 49 := by
    rw [List.length_cons, List.length_append, hkey, hbalance]
  have hwritten := Bytes.overwrite_append _ _ node.stake.toBytes hoffset
    ((Counter.length_encode license).trans (Counter.length_encode node.license).symm)
  simpa only [encode, List.cons_append, List.append_assoc] using hwritten.symm

theorem encode_stake (stake : Amount) :
    { node with stake }.encode = node.encode.overwrite 53 stake.toBytes := by
  have hkey : node.writingKey.bytes.length = 32 := node.writingKey.length_bytes
  have hbalance : node.balance.toBytes.length = 16 := node.balance.length_toBytes
  have hlicense : (Counter.encode node.license).length = 4 := Counter.length_encode node.license
  have hoffset : (node.role.bits :: (node.writingKey.bytes ++ (node.balance.toBytes ++
      Counter.encode node.license))).length = 53 := by
    rw [List.length_cons, List.length_append, List.length_append, hkey, hbalance, hlicense]
  have hwritten := Bytes.overwrite_append _ _ [] hoffset
    (stake.length_toBytes.trans node.stake.length_toBytes.symm)
  simpa only [encode, List.cons_append, List.append_assoc, List.append_nil] using hwritten.symm

namespace Patch

variable {patch : Patch}

/-- An accepted patch updates the record that it reads and writes it again. -/
theorem exists_update (h : patch.Accepts) :
    ∃ update : NodeRecord → NodeRecord,
      (∀ record, patch.run record = (decode record).map fun node ↦ (update node).encode) ∧
        ∀ node, (update node).encode = node.encode.overwrite patch.field.offset patch.argument := by
  cases patch with
  | role bits =>
    obtain ⟨role, hrole⟩ := Role.exists_ofBits?_iff.mpr h
    obtain rfl := Role.bits_of_ofBits? hrole
    exact ⟨_, fun record ↦ patchRole_bits record role, fun node ↦ node.encode_role role⟩
  | writingKey key =>
    exact ⟨_, fun record ↦ patchWritingKey_bytes record ⟨key, h⟩,
      fun node ↦ node.encode_writingKey ⟨key, h⟩⟩
  | balance amount =>
    obtain ⟨balance, rfl⟩ := Amount.exists_eq_toBytes h
    exact ⟨_, fun record ↦ patchBalance_toBytes record balance,
      fun node ↦ node.encode_balance balance⟩
  | license number =>
    obtain ⟨hwidth, hissued⟩ := h
    obtain ⟨license, rfl⟩ := Counter.exists_eq_encode hwidth
    rw [ne_eq, Counter.toNatBE_encode_eq_zero_iff] at hissued
    exact ⟨_, fun record ↦ patchLicense_encode record hissued,
      fun node ↦ node.encode_license license⟩
  | stake amount =>
    obtain ⟨stake, rfl⟩ := Amount.exists_eq_toBytes h
    exact ⟨_, fun record ↦ patchStake_toBytes record stake, fun node ↦ node.encode_stake stake⟩

theorem run_of_refused (h : ¬ patch.Accepts) : patch.run record = .error patch.cause := by
  cases patch with
  | role bits =>
    have hnone : Role.ofBits? bits = none := if_neg h
    rw [run, patchRole, hnone]
    rfl
  | writingKey key =>
    have hnone : (Identifier.ofBytes? key : Option WritingKey) = none := dif_neg h
    rw [run, patchWritingKey, hnone]
    rfl
  | balance amount =>
    have hnone : Amount.ofBytes? amount = none := dif_neg h
    rw [run, patchBalance, hnone]
    rfl
  | license number =>
    by_cases hwidth : number.length = 4
    · obtain ⟨license, rfl⟩ := Counter.exists_eq_encode hwidth
      have hzero : license = 0 := Classical.byContradiction fun hissued ↦
        h ⟨hwidth, mt Counter.toNatBE_encode_eq_zero_iff.mp hissued⟩
      rw [cause, if_pos hwidth, hzero]
      rfl
    · rw [cause, if_neg hwidth]
      exact if_pos hwidth
  | stake amount =>
    have hnone : Amount.ofBytes? amount = none := dif_neg h
    rw [run, patchStake, hnone]
    rfl

theorem length_argument (h : patch.Accepts) : patch.argument.length = patch.field.width := by
  cases patch with
  | role bits => rfl
  | license number => exact h.1
  | writingKey bytes | balance bytes | stake bytes => exact h

end Patch

/-- The patches of node records satisfy the laws of a family. -/
theorem patches_lawful : patches.Lawful where
  decode_eq_ok_iff _ _ := decode_eq_ok_iff
  run_of_refused _ record := Patch.run_of_refused record
  exists_update _ := Patch.exists_update
  length_argument _ := Patch.length_argument
  within field node := by
    have hwidth : node.encode.length = 69 := node.length_encode
    show field.offset + field.width ≤ node.encode.length
    cases field <;> simp only [Field.offset, Field.width, hwidth] <;> decide
  apart field other hne := by
    cases field <;> cases other <;> first | exact absurd rfl hne | decide

theorem exists_patched_both {record key one other : Bytes} {bits : UInt8}
    (hone : patchRole record bits = .ok one) (hother : patchWritingKey record key = .ok other) :
    ∃ both, patchWritingKey one key = .ok both ∧ patchRole other bits = .ok both := by
  have hne : Field.role ≠ Field.writingKey := by decide
  exact patches_lawful.exact.comm (Patch.role bits) (Patch.writingKey key) record one other hne
    hone hother

/-- The role and the key are replaced together if each of them could be replaced alone. -/
theorem exists_patchRoleAndKey_iff {record key : Bytes} {bits : UInt8} :
    (∃ patched, patchRoleAndKey record bits key = .ok patched) ↔
      (∃ one, patchRole record bits = .ok one) ∧
        ∃ other, patchWritingKey record key = .ok other := by
  have hpatch := patches_lawful.exact.exists_run_iff
  constructor
  · rintro ⟨patched, hpatched⟩
    obtain ⟨one, hone, hboth⟩ := bind_eq_ok.mp hpatched
    have hread := (hpatch (Patch.role bits) record).mp ⟨one, hone⟩
    have hkey := (hpatch (Patch.writingKey key) one).mp ⟨patched, hboth⟩
    exact ⟨⟨one, hone⟩, (hpatch (Patch.writingKey key) record).mpr ⟨hread.1, hkey.2⟩⟩
  · rintro ⟨⟨one, hone⟩, other, hother⟩
    obtain ⟨both, hboth, -⟩ := exists_patched_both hone hother
    exact ⟨both, bind_eq_ok.mpr ⟨one, hone, hboth⟩⟩

end NodeRecord

/-! ### Admin records -/

namespace AdminRecord

/-- The patches of encoded admin records: each replaces the writing key. -/
def patches : PatchFamily where
  Value := AdminRecord
  Field := Unit
  Patch := Bytes
  encode := encode
  decode := decode
  run key record := patchWritingKey record key
  offset _ := 69
  width _ := 32
  field _ := ()
  argument key := key
  Accepts key := key.length = 32
  cause key := .length .writingKey 32 key.length

theorem encode_writingKey (admin : AdminRecord) (writingKey : WritingKey) :
    { admin with writingKey }.encode = admin.encode.overwrite 69 writingKey.bytes := by
  have hoffset : admin.address.bytes.length = 69 := admin.address.length_bytes
  have hwritten := Bytes.overwrite_append _ _ [] hoffset
    (writingKey.length_bytes.trans admin.writingKey.length_bytes.symm)
  simpa only [encode, List.append_nil] using hwritten.symm

theorem patchWritingKey_bytes (record : Bytes) (writingKey : WritingKey) :
    patchWritingKey record writingKey.bytes =
      (decode record).map fun admin ↦ { admin with writingKey }.encode := by
  rw [patchWritingKey, Identifier.ofBytes?_bytes]
  cases decode record <;> rfl

theorem patchWritingKey_of_width (record : Bytes) {key : Bytes} (hwidth : key.length ≠ 32) :
    patchWritingKey record key = .error (.length .writingKey 32 key.length) := by
  have hnone : (Identifier.ofBytes? key : Option WritingKey) = none := dif_neg hwidth
  rw [patchWritingKey, hnone]

/-- The patches of admin records satisfy the laws of a family. -/
theorem patches_lawful : patches.Lawful where
  decode_eq_ok_iff _ _ := decode_eq_ok_iff
  run_of_refused _ record hrefused := patchWritingKey_of_width record hrefused
  exists_update key hwidth :=
    ⟨_, fun record ↦ patchWritingKey_bytes record ⟨key, hwidth⟩,
      fun admin ↦ admin.encode_writingKey ⟨key, hwidth⟩⟩
  length_argument _ hwidth := hwidth
  within _ admin := Nat.le_of_eq admin.length_encode.symm
  apart _ _ hne := absurd rfl hne

end AdminRecord

/-- **Patches touch only their own field.** A patch of an encoded node or admin record succeeds
exactly if the record is read and the argument is one for the field; then the field's bytes are the
argument and every other byte is what it was, and the result is read again. Patches of different
fields commute and of two patches of one field the last one counts. The role and the writing key of
a node record are replaced together exactly if each can be replaced alone, and then it does not
matter in which order. -/
theorem record_patches_exact :
    NodeRecord.patches.Exact ∧ AdminRecord.patches.Exact ∧
      ∀ record bits key,
        ((∃ both, NodeRecord.patchRoleAndKey record bits key = .ok both) ↔
          (∃ one, NodeRecord.patchRole record bits = .ok one) ∧
            ∃ other, NodeRecord.patchWritingKey record key = .ok other) ∧
        ∀ one other, NodeRecord.patchRole record bits = .ok one →
          NodeRecord.patchWritingKey record key = .ok other →
            ∃ both node, NodeRecord.patchRoleAndKey record bits key = .ok both ∧
              NodeRecord.patchWritingKey one key = .ok both ∧
              NodeRecord.patchRole other bits = .ok both ∧ NodeRecord.decode both = .ok node := by
  refine ⟨NodeRecord.patches_lawful.exact, AdminRecord.patches_lawful.exact,
    fun record bits key ↦ ⟨NodeRecord.exists_patchRoleAndKey_iff, fun one other hone hother ↦ ?_⟩⟩
  obtain ⟨both, hkeyLast, hroleLast⟩ := NodeRecord.exists_patched_both hone hother
  obtain ⟨node, hnode⟩ :=
    NodeRecord.patches_lawful.exact.read (NodeRecord.Patch.role bits) other both hroleLast
  exact ⟨both, node, bind_eq_ok.mpr ⟨one, hone, hkeyLast⟩, hkeyLast, hroleLast, hnode⟩

end SettlementLedger
