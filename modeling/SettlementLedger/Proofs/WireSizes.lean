import SettlementLedger.Proofs.TypedOperations
import SettlementLedger.Proofs.WireRoundTrip

/-!
# The size of operations on the wire

Reading knows no limit, but a number takes at most nine bytes in any of its forms
(`Varint.takes_read`), and the rest of a form are the bytes of its fields. So an operation has room
for its forms (`RawOperation.room`) that its fields give, and the schema fixes the width of every
field: the forms of an operation that fits the schema stay far below the limit for writing
(`RawOperation.room_le_of_validate`). With lowering as the inverse of the schema, operations go to
the wire and back (`Operation.typed_raw_correspondence`).
-/

set_option autoImplicit false
set_option relaxedAutoImplicit false

namespace SettlementLedger

/-! ### Room for forms -/

/-- A reader takes no more bytes for a value than there is room for it. -/
def Reader.Takes {α : Type} (reader : Reader α) (room : α → Nat) : Prop :=
  ∀ {input a rest}, reader input = .ok (a, rest) → input.length ≤ room a + rest.length

theorem Reader.takes_byte : Reader.byte.Takes fun _ ↦ 1 := by
  intro input first rest hread
  cases input with
  | nil => cases hread
  | cons found left =>
    cases hread
    exact Nat.le_of_eq (Nat.add_comm _ _)

theorem Reader.takes_bytes (count : Nat) : (Reader.bytes count).Takes List.length := by
  intro input front rest hread
  obtain ⟨-, rfl⟩ := Reader.bytes_eq_ok.mp hread
  exact Nat.le_of_eq (by rw [List.length_append])

namespace Varint

theorem takes_readAfter (first : UInt8) : (readAfter first).Takes fun _ ↦ 8 := by
  intro input n rest hread
  unfold readAfter at hread
  split at hread
  · cases hread
    exact Nat.le_add_left _ _
  · cases hwidth : markedWidth? first with
    | error cause =>
      rw [hwidth] at hread
      cases hread
    | ok width =>
      rw [hwidth] at hread
      obtain ⟨digits, middle, hdigits, hdone⟩ := Reader.andThen_eq_ok.mp hread
      obtain ⟨rfl, rfl⟩ := Reader.bytes_eq_ok.mp hdigits
      cases hdone
      rw [List.length_append]
      have hle : digits.length ≤ 8 := by
        rcases markedWidth?_eq_ok.mp hwidth with ⟨-, h⟩ | ⟨-, h⟩ | ⟨-, h⟩ <;> omega
      exact Nat.add_le_add_right hle _

/-- A number takes at most nine bytes. -/
theorem takes_read : read.Takes fun _ ↦ 9 := by
  intro input n rest hread
  rw [read_eq] at hread
  obtain ⟨first, middle, hfirst, hafter⟩ := Reader.andThen_eq_ok.mp hread
  have hbyte : input.length ≤ 1 + middle.length := Reader.takes_byte hfirst
  have hdigits : middle.length ≤ 8 + rest.length := takes_readAfter first hafter
  show input.length ≤ 9 + rest.length
  omega

theorem takes_readWord : readWord.Takes fun _ ↦ 9 := by
  intro input word rest hread
  rw [readWord_eq] at hread
  obtain ⟨n, middle, hn, hword⟩ := Reader.andThen_eq_ok.mp hread
  split at hword
  · cases hword
    exact takes_read hn
  · cases hword

theorem length_encode_le (n : Nat) : (encode n).length ≤ 9 := by
  rw [length_encode]
  split
  · decide
  · split
    · decide
    · split <;> decide

end Varint

namespace Wire

/-- The room for the forms of an optional byte string: its mark, its length and its bytes. -/
def room : Option Bytes → Nat
  | none => 1
  | some bytes => 10 + bytes.length

/-- The room for the forms of the fields of a list. -/
def fieldsRoom (fields : Fields) (order : List Field) : Nat :=
  order.foldr (fun field total ↦ room (fields.get field) + total) 0

theorem takes_readBytes : readBytes.Takes fun bytes ↦ 9 + bytes.length := by
  intro input bytes rest hread
  rw [readBytes_eq] at hread
  obtain ⟨n, middle, hn, hbytes⟩ := Reader.andThen_eq_ok.mp hread
  have hlength : input.length ≤ 9 + middle.length := Varint.takes_read hn
  have htaken : middle.length ≤ bytes.length + rest.length := Reader.takes_bytes n hbytes
  show input.length ≤ 9 + bytes.length + rest.length
  omega

theorem takes_readOption : readOption.Takes room := by
  intro input value rest hread
  rw [readOption_eq] at hread
  obtain ⟨mark, middle, hmark, hvalue⟩ := Reader.andThen_eq_ok.mp hread
  have hone : input.length ≤ 1 + middle.length := Reader.takes_byte hmark
  split at hvalue
  · cases hvalue
    exact hone
  · split at hvalue
    · obtain ⟨bytes, last, hbytes, hdone⟩ := Reader.andThen_eq_ok.mp hvalue
      cases hdone
      have hrest : middle.length ≤ 9 + bytes.length + rest.length := takes_readBytes hbytes
      show input.length ≤ 10 + bytes.length + rest.length
      omega
    · cases hvalue

theorem takes_readFamily : readFamily.Takes fun _ ↦ 9 := by
  intro input family rest hread
  rw [readFamily_eq] at hread
  obtain ⟨index, middle, hindex, hfamily⟩ := Reader.andThen_eq_ok.mp hread
  cases hfound : Family.ofIndex? index.toNat with
  | none =>
    rw [hfound] at hfamily
    cases hfamily
  | some found =>
    rw [hfound] at hfamily
    cases hfamily
    exact Varint.takes_readWord hindex

theorem takes_readEach {order : List Field} (hnodup : order.Nodup) (fields : Fields) :
    (readEach order fields).Takes fun found ↦ fieldsRoom found order := by
  induction order generalizing fields with
  | nil =>
    intro input found rest hread
    cases hread
    exact Nat.le_add_left _ _
  | cons field order ih =>
    intro input found rest hread
    obtain ⟨value, middle, hvalue, hlater⟩ := Reader.andThen_eq_ok.mp hread
    obtain ⟨hnot, hnodup⟩ := List.nodup_cons.mp hnodup
    have hfirst := takes_readOption hvalue
    have hrest : middle.length ≤ fieldsRoom found order + rest.length := ih hnodup _ hlater
    show input.length ≤ room (found.get field) + fieldsRoom found order + rest.length
    rw [get_head_of_readEach hlater hnot]
    omega

theorem takes_readFields : readFields.Takes fun found ↦ fieldsRoom found Field.all := by
  rw [readFields_eq]
  exact takes_readEach Field.nodup_all .empty

theorem length_writeOption_le (value : Option Bytes) : (writeOption value).length ≤ room value := by
  cases value with
  | none => exact Nat.le_refl _
  | some bytes =>
    have hlength := Varint.length_encode_le bytes.length
    rw [writeOption, writeBytes, List.length_cons, List.length_append, room]
    omega

theorem length_writeEach_le (fields : Fields) (order : List Field) :
    (writeEach fields order).length ≤ fieldsRoom fields order := by
  induction order with
  | nil => exact Nat.le_refl _
  | cons field order ih =>
    have hfirst := length_writeOption_le (fields.get field)
    show (writeOption (fields.get field) ++ writeEach fields order).length ≤
      room (fields.get field) + fieldsRoom fields order
    rw [List.length_append]
    omega

theorem length_writeFields_le (fields : Fields) :
    (writeFields fields).length ≤ fieldsRoom fields Field.all := by
  rw [writeFields_eq]
  exact length_writeEach_le fields Field.all

/-- Fields of the right width have room that their widths give. -/
theorem fieldsRoom_le {fields : Fields} (h : ∀ field, fields.Fits field) (order : List Field) :
    fieldsRoom fields order ≤ order.foldr (fun field total ↦ 10 + field.width + total) 0 := by
  induction order with
  | nil => exact Nat.le_refl _
  | cons field order ih =>
    have hfirst : room (fields.get field) ≤ 10 + field.width := by
      cases hget : fields.get field with
      | none => exact Nat.le_add_right_of_le (by decide)
      | some bytes => exact Nat.le_of_eq (by rw [room, h field bytes hget])
    exact Nat.add_le_add hfirst ih

end Wire

namespace RawOperation

variable {raw : RawOperation} {op : Operation} {bytes : Bytes}

/-- The room for the forms of an operation. -/
def room (raw : RawOperation) : Nat :=
  9 + (Wire.room raw.address + (9 + Wire.fieldsRoom raw.fields Field.all))

theorem takes_read : read.Takes room := by
  intro input raw rest hread
  rw [read_eq] at hread
  obtain ⟨kind, first, hkind, hread⟩ := Reader.andThen_eq_ok.mp hread
  obtain ⟨address, second, haddress, hread⟩ := Reader.andThen_eq_ok.mp hread
  obtain ⟨family, third, hfamily, hread⟩ := Reader.andThen_eq_ok.mp hread
  obtain ⟨fields, fourth, hfields, hread⟩ := Reader.andThen_eq_ok.mp hread
  cases hread
  have hfirst : input.length ≤ 9 + first.length := Varint.takes_readWord hkind
  have hsecond := Wire.takes_readOption haddress
  have hthird : second.length ≤ 9 + third.length := Wire.takes_readFamily hfamily
  have hfourth : third.length ≤ Wire.fieldsRoom fields Field.all + rest.length :=
    Wire.takes_readFields hfields
  show input.length ≤ 9 + (Wire.room address + (9 + Wire.fieldsRoom fields Field.all)) + rest.length
  omega

/-- There is room for every form of an operation. -/
theorem length_le_room_of_decode (h : decode bytes = .ok raw) : bytes.length ≤ raw.room := by
  have htaken := takes_read (decode_eq_ok.mp h)
  rwa [List.length_nil, Nat.add_zero] at htaken

theorem length_serialize_le_room (raw : RawOperation) : raw.serialize.length ≤ raw.room := by
  have hkind := Varint.length_encode_le raw.kind.toNat
  have haddress := Wire.length_writeOption_le raw.address
  have hfamily := Varint.length_encode_le raw.family.index
  have hfields := Wire.length_writeFields_le raw.fields
  simp only [serialize, room, List.length_append]
  omega

/-- An operation that fits the schema has room far below the limit. -/
theorem room_le_of_validate (h : raw.validate = .ok op) : raw.room ≤ 886 := by
  obtain ⟨-, haddress, hchecked, -⟩ := validate_eq_ok_iff_holds.mp h
  have hwidths : Field.all.foldr (fun field total ↦ 10 + field.width + total) 0 = 789 := by decide
  have hfields := Wire.fieldsRoom_le hchecked.widths Field.all
  have hlength : op.requester.bytes.length = 69 := op.requester.length_bytes
  rw [room, haddress, Wire.room, hlength]
  omega

/-- Reading knows no limit: a requester address of any length is read. -/
theorem exists_decode_longer : ∃ bytes raw, decode bytes = .ok raw ∧ maxBytes < bytes.length := by
  let address : Bytes := List.replicate maxBytes 0
  have haddress : address.length = maxBytes := List.length_replicate
  let raw : RawOperation :=
    { kind := 13, address := some address, family := .transfer, fields := .empty }
  have hroom : raw.room = 9 + (10 + maxBytes + (9 + 15)) := by
    have hfields : Wire.fieldsRoom .empty Field.all = 15 := rfl
    have haddressed : Wire.room (some address) = 10 + maxBytes := by rw [Wire.room, haddress]
    rw [room, hfields, haddressed]
  have hfits : raw.serialize.length < UInt64.size :=
    Nat.lt_of_le_of_lt raw.length_serialize_le_room (by rw [hroom]; decide)
  refine ⟨raw.serialize, raw, decode_eq_ok.mpr ?_, ?_⟩
  · have hread := read_serialize hfits []
    rwa [List.append_nil] at hread
  · have hwritten : Wire.writeOption raw.address = 1 :: (Varint.encode address.length ++ address) :=
      rfl
    simp only [serialize, hwritten, List.length_append, List.length_cons, haddress]
    omega

end RawOperation

/-! ### There and back -/

namespace Operation

variable {op : Operation} {suite : Suite}

/-- What a requester signs is well-formed. -/
theorem wellFormed_of_sign {kind : Kind} {body : Body} {txValidity : Hash} {nonce : Nonce}
    {requester : Seed} (h : sign suite kind body txValidity nonce requester = .ok op) :
    op.WellFormed := by
  unfold sign at h
  split at h
  · rename_i hfamily
    cases h
    exact ⟨hfamily, fun hsome ↦ by cases hsome⟩
  · cases h

/-- What a validator completes stays well-formed. -/
theorem wellFormed_of_cosign {completed : Operation} {validator : Seed} {nonce : Nonce}
    (hop : op.WellFormed) (h : op.cosign suite validator nonce = .ok completed) :
    completed.WellFormed := by
  unfold cosign at h
  split at h
  · rename_i hrequires
    cases h
    exact ⟨hop.family, fun _ ↦ hrequires⟩
  · cases h

/-- The wire form of a well-formed operation is read back as it. -/
theorem encode_of_wellFormed (h : op.WellFormed) :
    op.encode = .ok op.toRaw.serialize ∧ RawOperation.decode op.toRaw.serialize = .ok op.toRaw ∧
      op.toRaw.validate = .ok op := by
  have hvalidate : op.toRaw.validate = .ok op := RawOperation.validate_eq_ok.mpr ⟨h, rfl⟩
  have hroom := RawOperation.room_le_of_validate hvalidate
  have hle : op.toRaw.serialize.length ≤ RawOperation.maxBytes :=
    Nat.le_trans (Nat.le_trans op.toRaw.length_serialize_le_room hroom) (by decide)
  exact ⟨RawOperation.encode_eq_ok.mpr ⟨hle, rfl⟩, RawOperation.decode_serialize hle, hvalidate⟩

/-- **Operations go to the wire and back.** A raw operation that fits the schema is what its
operation is lowered to. A well-formed operation, such as whatever is signed and completed by the
library, is lowered to a raw operation that stands for it, and its wire form is read back as it.
Though byte strings over the limit are decoded as well, none of them fits the schema: whatever does
is shorter, and its operation is written again, and not longer. -/
theorem typed_raw_correspondence :
    (∀ raw op, RawOperation.validate raw = .ok op → op.toRaw = raw) ∧
      (∀ op : Operation, op.WellFormed → op.toRaw.validate = .ok op ∧
        ∃ bytes raw, op.encode = .ok bytes ∧ RawOperation.decode bytes = .ok raw ∧
          raw.validate = .ok op) ∧
      (∀ suite kind body txValidity nonce requester op,
        sign suite kind body txValidity nonce requester = .ok op → op.WellFormed) ∧
      (∀ suite op validator nonce completed, WellFormed op →
        op.cosign suite validator nonce = .ok completed → completed.WellFormed) ∧
      (∃ bytes raw, RawOperation.decode bytes = .ok raw ∧
        RawOperation.maxBytes < bytes.length) ∧
      ∀ bytes raw op, RawOperation.decode bytes = .ok raw → raw.validate = .ok op →
        bytes.length < RawOperation.maxBytes ∧
          ∃ written, op.encode = .ok written ∧ written.length ≤ bytes.length := by
  refine ⟨fun raw op h ↦ (RawOperation.validate_eq_ok.mp h).2, fun op hop ↦ ?_,
    fun _ _ _ _ _ _ _ ↦ wellFormed_of_sign, fun _ _ _ _ _ ↦ wellFormed_of_cosign, ?_,
    fun bytes raw op hdecode hvalidate ↦ ?_⟩
  · obtain ⟨hencode, hdecode, hvalidate⟩ := encode_of_wellFormed hop
    exact ⟨hvalidate, _, _, hencode, hdecode, hvalidate⟩
  · exact RawOperation.exists_decode_longer
  · obtain ⟨hop, rfl⟩ := RawOperation.validate_eq_ok.mp hvalidate
    have hroom := Nat.le_trans (RawOperation.length_le_room_of_decode hdecode)
      (RawOperation.room_le_of_validate hvalidate)
    exact ⟨Nat.lt_of_le_of_lt hroom (by decide), _, (encode_of_wellFormed hop).1,
      (RawOperation.widens_of_decode hdecode).length_le⟩

end Operation

end SettlementLedger
