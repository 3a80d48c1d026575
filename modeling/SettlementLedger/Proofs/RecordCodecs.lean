import SettlementLedger.Proofs.AddressTexts
import SettlementLedger.Record.Admin
import SettlementLedger.Record.Deployment
import SettlementLedger.Record.Node

/-!
# Record codecs

A record has one encoding, and only that encoding is read as the record. Reading looks at the width
first and then at the one part whose content can be out of range: the role byte of a node record and
the address that an admin or a deployment record starts with. A counter has no such part.

`Layout.Judged` lists the three ways in which reading can end, and `Layout.Exact` says that writing
and reading are inverse and that bytes are refused for the first thing that is wrong with them.
`Layout.Exact.of_judged` derives the one from the other, so that a codec needs two facts: its
inverse law and how it judges bytes. `record_codecs_exact` holds these statements for the four
codecs of the ledger.
-/

set_option autoImplicit false
set_option relaxedAutoImplicit false

namespace SettlementLedger

namespace Layout

variable {α : Type} {layout : Layout} {width : Nat} {InRange : Bytes → Prop}
  {part? : Option LayoutPart}

/-- How reading bytes in a layout ends: the width is wrong, or the content of the part that is
checked is out of range, or the bytes are read. -/
inductive Judged (layout : Layout) (width : Nat) (InRange : Bytes → Prop)
    (part? : Option LayoutPart) (bytes : Bytes) : Except CodecError α → Prop where
  | wrongWidth (h : bytes.length ≠ width) :
      Judged layout width InRange part? bytes (.error (.length layout width bytes.length))
  | outOfRange (part : LayoutPart) (hpart : part? = some part) (hwidth : bytes.length = width)
      (h : ¬ InRange bytes) :
      Judged layout width InRange part? bytes (.error (.domain layout part))
  | read (value : α) (hwidth : bytes.length = width) (h : InRange bytes) :
      Judged layout width InRange part? bytes (.ok value)

namespace Judged

variable {bytes : Bytes} {answer : Except CodecError α}

theorem exists_read_iff (h : Judged layout width InRange part? bytes answer) :
    (∃ value, answer = .ok value) ↔ bytes.length = width ∧ InRange bytes := by
  have hrefused (cause : CodecError) : ¬ ∃ value : α, Except.error cause = .ok value := by
    rintro ⟨value, h⟩
    cases h
  cases h with
  | wrongWidth h => exact iff_of_false (hrefused _) fun hfits ↦ h hfits.1
  | outOfRange part hpart hwidth h => exact iff_of_false (hrefused _) fun hfits ↦ h hfits.2
  | read value hwidth h => exact iff_of_true ⟨value, rfl⟩ ⟨hwidth, h⟩

theorem of_width (h : Judged layout width InRange part? bytes answer)
    (hwrong : bytes.length ≠ width) : answer = .error (.length layout width bytes.length) := by
  cases h with
  | wrongWidth h => rfl
  | outOfRange part hpart hwidth h => exact absurd hwidth hwrong
  | read value hwidth h => exact absurd hwidth hwrong

theorem of_content (h : Judged layout width InRange part? bytes answer)
    (hright : bytes.length = width) (hwrong : ¬ InRange bytes) :
    ∃ part, part? = some part ∧ answer = .error (.domain layout part) := by
  cases h with
  | wrongWidth h => exact absurd hright h
  | outOfRange part hpart hwidth h => exact ⟨part, hpart, rfl⟩
  | read value hwidth h => exact absurd h hwrong

end Judged

/-- Values are written in a layout of a fixed width and read back exactly. Bytes are read if they
have the width and the content of the part that is checked is in its range, and they are refused
for the first of the two that fails. -/
structure Exact (layout : Layout) (width : Nat) (InRange : Bytes → Prop)
    (part? : Option LayoutPart) (encode : α → Bytes) (decode : Bytes → Except CodecError α) :
    Prop where
  decode_encode : ∀ value, decode (encode value) = .ok value
  encode_of_decode : ∀ bytes value, decode bytes = .ok value → encode value = bytes
  exists_decode_iff : ∀ bytes,
    (∃ value, decode bytes = .ok value) ↔ bytes.length = width ∧ InRange bytes
  decode_of_width : ∀ bytes, bytes.length ≠ width →
    decode bytes = .error (.length layout width bytes.length)
  decode_of_content : ∀ bytes, bytes.length = width → ¬ InRange bytes →
    ∃ part, part? = some part ∧ decode bytes = .error (.domain layout part)

/-- A codec is exact if reading inverts writing and bytes are judged by their width and content. -/
theorem Exact.of_judged {encode : α → Bytes} {decode : Bytes → Except CodecError α}
    (hinverse : ∀ bytes value, decode bytes = .ok value ↔ bytes = encode value)
    (hjudged : ∀ bytes, Judged layout width InRange part? bytes (decode bytes)) :
    Exact layout width InRange part? encode decode where
  decode_encode value := (hinverse _ value).mpr rfl
  encode_of_decode bytes value h := ((hinverse bytes value).mp h).symm
  exists_decode_iff bytes := (hjudged bytes).exists_read_iff
  decode_of_width bytes := (hjudged bytes).of_width
  decode_of_content bytes := (hjudged bytes).of_content

end Layout

/-! ### The four codecs -/

/-- The first byte has no bit above the three role marks. -/
def NodeRecord.RoleInRange (bytes : Bytes) : Prop :=
  ∃ bits, bytes.head? = some bits ∧ bits.toNat ≤ 7

theorem Role.exists_ofBits?_iff {bits : UInt8} :
    (∃ role, ofBits? bits = some role) ↔ bits.toNat ≤ 7 := by
  unfold ofBits?
  split <;> simp_all

/-- A node record is read by its role byte. -/
theorem NodeRecord.judged_decode (bytes : Bytes) :
    Layout.nodeRecord.Judged 69 RoleInRange (some .role) bytes (decode bytes) := by
  unfold decode
  split
  · rename_i hwidth
    have hhead : bytes.head? = some (bytes.get ⟨0, by rw [hwidth]; decide⟩) := by
      cases bytes with
      | nil => cases hwidth
      | cons byte rest => rfl
    split
    · rename_i hnone
      refine .outOfRange .role rfl hwidth ?_
      rintro ⟨bits, hbits, hle⟩
      rw [hhead, Option.some.injEq] at hbits
      obtain ⟨role, hrole⟩ := Role.exists_ofBits?_iff.mpr (hbits ▸ hle)
      rw [hnone] at hrole
      cases hrole
    · rename_i role hrole
      exact .read _ hwidth ⟨_, hhead, Role.exists_ofBits?_iff.mp ⟨role, hrole⟩⟩
  · rename_i hwidth
    exact .wrongWidth hwidth

/-- The first 69 bytes are the text of an address. -/
def AddressInRange (bytes : Bytes) : Prop := Address.Spelled (bytes.take 69)

/-- An admin record is read by its address. -/
theorem AdminRecord.judged_decode (bytes : Bytes) :
    Layout.adminRecord.Judged 101 AddressInRange (some .address) bytes (decode bytes) := by
  unfold decode
  split
  · rename_i hwidth
    split
    · rename_i cause hrefused
      exact .outOfRange .address rfl hwidth fun hspelled ↦
        hspelled.not_flaw (Address.parse_eq_error_iff.mp hrefused)
    · rename_i address hread
      exact .read _ hwidth (Address.exists_parse_iff.mp ⟨address, hread⟩)
  · rename_i hwidth
    exact .wrongWidth hwidth

/-- A deployment record is read by its requester. -/
theorem DeploymentRecord.judged_decode (bytes : Bytes) :
    Layout.deploymentRecord.Judged 101 AddressInRange (some .requester) bytes (decode bytes) := by
  unfold decode
  split
  · rename_i hwidth
    split
    · rename_i cause hrefused
      exact .outOfRange .requester rfl hwidth fun hspelled ↦
        hspelled.not_flaw (Address.parse_eq_error_iff.mp hrefused)
    · rename_i requester hread
      exact .read _ hwidth (Address.exists_parse_iff.mp ⟨requester, hread⟩)
  · rename_i hwidth
    exact .wrongWidth hwidth

/-- Any four bytes are a counter. -/
theorem Counter.judged_decode (bytes : Bytes) :
    Layout.counter.Judged 4 (fun _ ↦ True) none bytes (decode bytes) := by
  unfold decode
  split
  · rename_i hwidth
    exact .read _ hwidth trivial
  · rename_i hwidth
    exact .wrongWidth hwidth

/-- **Record codecs are exact.** A node record takes 69 bytes and is read if its role byte is at
most 7; an admin record and a deployment record take 101 bytes and are read if they start with the
text of an address; a counter takes four bytes, and any four are read. What is read is what was
written, and only what was written. -/
theorem record_codecs_exact :
    Layout.nodeRecord.Exact 69 NodeRecord.RoleInRange (some .role) NodeRecord.encode
        NodeRecord.decode ∧
      Layout.adminRecord.Exact 101 AddressInRange (some .address) AdminRecord.encode
        AdminRecord.decode ∧
      Layout.deploymentRecord.Exact 101 AddressInRange (some .requester) DeploymentRecord.encode
        DeploymentRecord.decode ∧
      Layout.counter.Exact 4 (fun _ ↦ True) none Counter.encode Counter.decode :=
  ⟨.of_judged (fun _ _ ↦ NodeRecord.decode_eq_ok_iff) NodeRecord.judged_decode,
    .of_judged (fun _ _ ↦ AdminRecord.decode_eq_ok_iff) AdminRecord.judged_decode,
    .of_judged (fun _ _ ↦ DeploymentRecord.decode_eq_ok_iff) DeploymentRecord.judged_decode,
    .of_judged (fun _ _ ↦ Counter.decode_eq_ok_iff) Counter.judged_decode⟩

end SettlementLedger
