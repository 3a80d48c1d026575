import SettlementLedger.Proofs.WirePrefixes

/-!
# The wire form of an operation is its shortest

An operation has many forms that are read as it, since a number may be written wider than it need
be, and one form that is written. The written form is read back (`RawOperation.read_serialize`), and
every other form is longer (`RawOperation.widens_of_decode`). So an operation has a form within the
size limit if and only if its written form keeps to the limit.

Both directions follow the readers: each of them takes what its writer writes, and what it takes is
written as short (`Bytes.Widens`), which is added up over the pieces of a form.
-/

set_option autoImplicit false
set_option relaxedAutoImplicit false

namespace SettlementLedger

/-! ### Forms -/

/-- A form of a value is the one that is written, or it is longer. -/
def Bytes.Widens (form written : Bytes) : Prop :=
  form = written ∨ written.length < form.length

namespace Bytes.Widens

variable {form form' written written' : Bytes}

theorem refl (form : Bytes) : form.Widens form := Or.inl rfl

theorem append (h : form.Widens written) (h' : form'.Widens written') :
    Bytes.Widens (form ++ form') (written ++ written') := by
  have hlength (hlt : written.length + written'.length < form.length + form'.length) :
      Bytes.Widens (form ++ form') (written ++ written') := by
    refine Or.inr ?_
    rw [List.length_append, List.length_append]
    exact hlt
  rcases h with rfl | hlt
  · rcases h' with rfl | hlt'
    · exact refl _
    · exact hlength (Nat.add_lt_add_left hlt' _)
  · refine hlength ?_
    rcases h' with rfl | hlt'
    · exact Nat.add_lt_add_right hlt _
    · exact Nat.add_lt_add hlt hlt'

theorem length_le (h : form.Widens written) : written.length ≤ form.length := by
  rcases h with rfl | hlt
  · exact Nat.le_refl _
  · exact Nat.le_of_lt hlt

/-- The written form is the only one that is as short. -/
theorem length_eq_iff (h : form.Widens written) :
    written.length = form.length ↔ form = written := by
  refine ⟨fun heq ↦ h.resolve_right (heq ▸ Nat.lt_irrefl _), fun heq ↦ by rw [heq]⟩

end Bytes.Widens

/-! ### What is read -/

/-- What a reader takes for a value is a form of what is written for the value. -/
def Reader.Canonical {α : Type} (reader : Reader α) (write : α → Bytes) : Prop :=
  ∀ {input a rest}, reader input = .ok (a, rest) →
    ∃ form, input = form ++ rest ∧ form.Widens (write a)

namespace Varint

theorem markedWidth?_eq_ok {marker : UInt8} {width : Nat} :
    markedWidth? marker = .ok width ↔ (marker = 251 ∧ width = 2) ∨ (marker = 252 ∧ width = 4) ∨
      (marker = 253 ∧ width = 8) := by
  unfold markedWidth?
  by_cases htwo : marker = 251
  · simp [htwo, eq_comm]
  by_cases hfour : marker = 252
  · simp [hfour, eq_comm]
  by_cases hlong : marker = 253
  · simp [hlong, eq_comm]
  · rw [if_neg htwo, if_neg hfour, if_neg hlong]
    split <;> simp [htwo, hfour, hlong]

theorem length_encode (n : Nat) : (encode n).length =
    if n < 251 then 1 else if n < UInt16.size then 3 else if n < UInt32.size then 5 else 9 := by
  unfold encode
  split
  · rfl
  · split
    · rw [List.length_cons, Bytes.length_ofNatLE]
    · split
      · rw [List.length_cons, Bytes.length_ofNatLE]
      · rw [List.length_cons, Bytes.length_ofNatLE]

/-- A marker and its digits are the narrowest form of their number, or longer than it. -/
theorem widens_marked {marker : UInt8} {digits : Bytes}
    (h : markedWidth? marker = .ok digits.length) :
    Bytes.Widens (marker :: digits) (encode digits.toNatLE) := by
  have hlt := digits.toNatLE_lt
  have hdigits := digits.ofNatLE_toNatLE
  have hword : 251 < UInt16.size := by decide
  have hwide : UInt16.size < UInt32.size := by decide
  -- A number that is too small for the marker has a form of fewer digits.
  have hshorter (hle : (encode digits.toNatLE).length ≤ digits.length) :
      Bytes.Widens (marker :: digits) (encode digits.toNatLE) := Or.inr (Nat.lt_succ_of_le hle)
  rcases markedWidth?_eq_ok.mp h with ⟨rfl, hlength⟩ | ⟨rfl, hlength⟩ | ⟨rfl, hlength⟩
  · rw [hlength] at hlt hdigits hshorter
    by_cases hsmall : digits.toNatLE < 251
    · refine hshorter ?_
      rw [length_encode, if_pos hsmall]
      decide
    · have hfits : digits.toNatLE < UInt16.size := hlt
      exact Or.inl (by rw [encode, if_neg hsmall, if_pos hfits, hdigits])
  · rw [hlength] at hlt hdigits hshorter
    by_cases hsmall : digits.toNatLE < UInt16.size
    · refine hshorter ?_
      rw [length_encode, if_pos hsmall]
      split <;> decide
    · have hfits : digits.toNatLE < UInt32.size := hlt
      exact Or.inl (by rw [encode, if_neg (by omega), if_neg hsmall, if_pos hfits, hdigits])
  · rw [hlength] at hdigits hshorter
    by_cases hsmall : digits.toNatLE < UInt32.size
    · refine hshorter ?_
      rw [length_encode, if_pos hsmall]
      split
      · decide
      · split <;> decide
    · exact Or.inl (by rw [encode, if_neg (by omega), if_neg (by omega), if_neg hsmall, hdigits])

theorem canonical_readAfter {first : UInt8} {middle rest : Bytes} {n : Nat}
    (h : readAfter first middle = .ok (n, rest)) :
    ∃ digits, middle = digits ++ rest ∧ Bytes.Widens (first :: digits) (encode n) := by
  unfold readAfter at h
  split at h
  · rename_i hsmall
    cases h
    have hlt : first.toNat < 251 := UInt8.lt_iff_toNat_lt.mp hsmall
    exact ⟨[], rfl, Or.inl (by rw [encode, if_pos hlt, UInt8.ofNat_toNat])⟩
  · cases hwidth : markedWidth? first with
    | error cause =>
      rw [hwidth] at h
      cases h
    | ok width =>
      rw [hwidth] at h
      obtain ⟨digits, left, hdigits, hdone⟩ := Reader.andThen_eq_ok.mp h
      obtain ⟨rfl, rfl⟩ := Reader.bytes_eq_ok.mp hdigits
      cases hdone
      exact ⟨digits, rfl, widens_marked hwidth⟩

theorem canonical_read : read.Canonical encode := by
  intro input n rest hread
  rw [read_eq] at hread
  obtain ⟨first, middle, hfirst, hafter⟩ := Reader.andThen_eq_ok.mp hread
  obtain ⟨digits, rfl, hwidens⟩ := canonical_readAfter hafter
  cases input with
  | nil => cases hfirst
  | cons found left =>
    cases hfirst
    exact ⟨first :: digits, rfl, hwidens⟩

theorem canonical_readWord : readWord.Canonical fun word ↦ encode word.toNat := by
  intro input word rest hread
  rw [readWord_eq] at hread
  obtain ⟨n, middle, hn, hword⟩ := Reader.andThen_eq_ok.mp hread
  split at hword
  · rename_i hlt
    cases hword
    obtain ⟨form, hform, hwidens⟩ := canonical_read hn
    refine ⟨form, hform, ?_⟩
    show form.Widens (encode (UInt32.ofNat n).toNat)
    rw [UInt32.toNat_ofNat_of_lt' hlt]
    exact hwidens
  · cases hword

end Varint

namespace Wire

theorem canonical_readBytes : readBytes.Canonical writeBytes := by
  intro input bytes rest hread
  rw [readBytes_eq] at hread
  obtain ⟨n, middle, hn, hbytes⟩ := Reader.andThen_eq_ok.mp hread
  obtain ⟨rfl, rfl⟩ := Reader.bytes_eq_ok.mp hbytes
  obtain ⟨form, rfl, hwidens⟩ := Varint.canonical_read hn
  exact ⟨form ++ bytes, (List.append_assoc _ _ _).symm, hwidens.append (.refl bytes)⟩

theorem canonical_readOption : readOption.Canonical writeOption := by
  intro input value rest hread
  rw [readOption_eq] at hread
  obtain ⟨mark, middle, hmark, hvalue⟩ := Reader.andThen_eq_ok.mp hread
  cases input with
  | nil => cases hmark
  | cons found left =>
    cases hmark
    split at hvalue
    · rename_i hzero
      cases hvalue
      rw [hzero]
      exact ⟨[0], rfl, .refl _⟩
    · split at hvalue
      · rename_i hone
        obtain ⟨bytes, last, hbytes, hdone⟩ := Reader.andThen_eq_ok.mp hvalue
        cases hdone
        obtain ⟨form, rfl, hwidens⟩ := canonical_readBytes hbytes
        rw [hone]
        exact ⟨1 :: form, rfl, (Bytes.Widens.refl [1]).append hwidens⟩
      · cases hvalue

theorem canonical_readFamily : readFamily.Canonical fun family ↦ Varint.encode family.index := by
  intro input family rest hread
  rw [readFamily_eq] at hread
  obtain ⟨index, middle, hindex, hfamily⟩ := Reader.andThen_eq_ok.mp hread
  cases hfound : Family.ofIndex? index.toNat with
  | none =>
    rw [hfound] at hfamily
    cases hfamily
  | some found =>
    rw [hfound] at hfamily
    cases hfamily
    obtain ⟨form, hform, hwidens⟩ := Varint.canonical_readWord hindex
    refine ⟨form, hform, ?_⟩
    show form.Widens (Varint.encode family.index)
    rw [Family.ofIndex?_eq_some_iff.mp hfound]
    exact hwidens

/-- The fields of a list, each as an optional byte string. -/
def writeEach (fields : Fields) (order : List Field) : Bytes :=
  order.flatMap fun field ↦ writeOption (fields.get field)

theorem writeFields_eq (fields : Fields) : writeFields fields = writeEach fields Field.all := by
  rw [writeFields, Fields.options_eq_map, List.flatMap_map, writeEach]

/-- Only the fields of the list are read. -/
theorem get_of_readEach {order : List Field} {fields found : Fields} {input rest : Bytes}
    (h : readEach order fields input = .ok (found, rest)) {f : Field} (hf : f ∉ order) :
    found.get f = fields.get f := by
  induction order generalizing fields input with
  | nil =>
    cases h
    rfl
  | cons field order ih =>
    obtain ⟨value, middle, -, hlater⟩ := Reader.andThen_eq_ok.mp h
    rw [List.mem_cons, not_or] at hf
    rw [ih hlater hf.2]
    exact (Fields.slot_withSlot _ _ _ _).trans (if_neg hf.1)

/-- A field is read before the rest of a list that does not name it again. -/
theorem get_head_of_readEach {order : List Field} {fields found : Fields} {field : Field}
    {value : Option Bytes} {input rest : Bytes}
    (h : readEach order (fields.withSlot field value) input = .ok (found, rest))
    (hnot : field ∉ order) : found.get field = value := by
  rw [get_of_readEach h hnot]
  exact (Fields.slot_withSlot _ _ _ _).trans (if_pos rfl)

/-- The fields of a list that names each of them once. -/
theorem canonical_readEach {order : List Field} (hnodup : order.Nodup) (fields : Fields) :
    (readEach order fields).Canonical fun found ↦ writeEach found order := by
  induction order generalizing fields with
  | nil =>
    intro input found rest hread
    cases hread
    exact ⟨[], rfl, .refl []⟩
  | cons field order ih =>
    intro input found rest hread
    obtain ⟨value, middle, hvalue, hlater⟩ := Reader.andThen_eq_ok.mp hread
    obtain ⟨hnot, hnodup⟩ := List.nodup_cons.mp hnodup
    obtain ⟨form, rfl, hform⟩ := canonical_readOption hvalue
    obtain ⟨form', rfl, hform'⟩ := ih hnodup _ hlater
    refine ⟨form ++ form', (List.append_assoc _ _ _).symm, ?_⟩
    show Bytes.Widens _ (writeOption (found.get field) ++ writeEach found order)
    rw [get_head_of_readEach hlater hnot]
    exact hform.append hform'

theorem canonical_readFields : readFields.Canonical writeFields := by
  rw [readFields_eq, funext writeFields_eq]
  exact canonical_readEach Field.nodup_all .empty

end Wire

namespace RawOperation

theorem canonical_read : read.Canonical serialize := by
  intro input raw rest hread
  rw [read_eq] at hread
  obtain ⟨kind, first, hkind, hread⟩ := Reader.andThen_eq_ok.mp hread
  obtain ⟨address, second, haddress, hread⟩ := Reader.andThen_eq_ok.mp hread
  obtain ⟨family, third, hfamily, hread⟩ := Reader.andThen_eq_ok.mp hread
  obtain ⟨fields, fourth, hfields, hread⟩ := Reader.andThen_eq_ok.mp hread
  cases hread
  obtain ⟨form₁, rfl, hform₁⟩ := Varint.canonical_readWord hkind
  obtain ⟨form₂, rfl, hform₂⟩ := Wire.canonical_readOption haddress
  obtain ⟨form₃, rfl, hform₃⟩ := Wire.canonical_readFamily hfamily
  obtain ⟨form₄, rfl, hform₄⟩ := Wire.canonical_readFields hfields
  refine ⟨form₁ ++ (form₂ ++ (form₃ ++ form₄)), ?_, ?_⟩
  · simp only [List.append_assoc]
  · exact hform₁.append (hform₂.append (hform₃.append hform₄))

end RawOperation

/-! ### What is written -/

namespace Varint

theorem readWord_encode (word : UInt32) (rest : Bytes) :
    readWord (encode word.toNat ++ rest) = .ok (word, rest) := by
  have hlt : word.toNat < UInt32.size := word.toNat_lt
  have hwide : UInt32.size < UInt64.size := by decide
  rw [readWord_eq, Reader.andThen_of_ok (read_encode (Nat.lt_trans hlt hwide) rest), if_pos hlt,
    UInt32.ofNat_toNat]
  rfl

end Varint

namespace Wire

theorem readBytes_writeBytes {bytes : Bytes} (h : (writeBytes bytes).length < UInt64.size)
    (rest : Bytes) : readBytes (writeBytes bytes ++ rest) = .ok (bytes, rest) := by
  rw [writeBytes, List.length_append] at h
  rw [readBytes_eq, writeBytes, List.append_assoc,
    Reader.andThen_of_ok (Varint.read_encode (Nat.lt_of_le_of_lt (Nat.le_add_left _ _) h) _)]
  exact Reader.bytes_append rfl rest

theorem readOption_writeOption {value : Option Bytes}
    (h : (writeOption value).length < UInt64.size) (rest : Bytes) :
    readOption (writeOption value ++ rest) = .ok (value, rest) := by
  cases value with
  | none => rfl
  | some bytes =>
    have hbytes := readBytes_writeBytes (Nat.lt_of_succ_lt h) rest
    have hmark : Reader.byte (writeOption (some bytes) ++ rest) =
        .ok (1, writeBytes bytes ++ rest) := rfl
    rw [readOption_eq, Reader.andThen_of_ok hmark, if_neg (by decide), if_pos rfl,
      Reader.andThen_of_ok hbytes]
    rfl

theorem readFamily_encode (family : Family) (rest : Bytes) :
    readFamily (Varint.encode family.index ++ rest) = .ok (family, rest) := by
  have hindex : family.index = (UInt32.ofNat family.index).toNat := by
    cases family <;> rfl
  rw [readFamily_eq, hindex, Reader.andThen_of_ok (Varint.readWord_encode _ rest), ← hindex,
    Family.ofIndex?_eq_some_iff.mpr rfl]
  rfl

/-- Fields that have been read but for those of a list. -/
def Awaits (fields found : Fields) (order : List Field) : Prop :=
  ∀ f, f ∉ order → found.get f = fields.get f

theorem Awaits.withSlot {fields found : Fields} {field : Field} {order : List Field}
    (h : Awaits fields found (field :: order)) :
    Awaits fields (found.withSlot field (fields.get field)) order := by
  intro f hf
  refine (Fields.slot_withSlot _ _ _ _).trans ?_
  by_cases hfield : f = field
  · rw [if_pos hfield, hfield]
  · rw [if_neg hfield]
    exact h f fun hmem ↦ (List.mem_cons.mp hmem).elim hfield hf

theorem readEach_writeEach {fields found : Fields} {order : List Field}
    (h : (writeEach fields order).length < UInt64.size) (hawaits : Awaits fields found order)
    (rest : Bytes) :
    readEach order found (writeEach fields order ++ rest) = .ok (fields, rest) := by
  induction order generalizing found with
  | nil =>
    have hsame : found = fields := Fields.ext_get fun f ↦ hawaits f List.not_mem_nil
    rw [hsame]
    rfl
  | cons field order ih =>
    have hwrite : writeEach fields (field :: order) =
      writeOption (fields.get field) ++ writeEach fields order := rfl
    rw [hwrite, List.length_append] at h
    have hoption := readOption_writeOption (Nat.lt_of_le_of_lt (Nat.le_add_right _ _) h)
    rw [readEach, hwrite, List.append_assoc, Reader.andThen_of_ok (hoption _)]
    exact ih (Nat.lt_of_le_of_lt (Nat.le_add_left _ _) h) hawaits.withSlot

theorem readFields_writeFields {fields : Fields}
    (h : (writeFields fields).length < UInt64.size) (rest : Bytes) :
    readFields (writeFields fields ++ rest) = .ok (fields, rest) := by
  rw [writeFields_eq] at h ⊢
  rw [readFields_eq]
  exact readEach_writeEach h (fun f hf ↦ absurd f.mem_all hf) rest

end Wire

namespace RawOperation

/-- What is written for an operation is read back, if its length fits 64 bits. -/
theorem read_serialize {raw : RawOperation} (h : raw.serialize.length < UInt64.size)
    (rest : Bytes) : read (raw.serialize ++ rest) = .ok (raw, rest) := by
  simp only [serialize, List.length_append] at h
  have haddress : (Wire.writeOption raw.address).length < UInt64.size := by omega
  have hwritten : (Wire.writeFields raw.fields).length < UInt64.size := by omega
  have hfields := Wire.readFields_writeFields hwritten rest
  simp only [serialize, List.append_assoc]
  rw [read_eq, Reader.andThen_of_ok (Varint.readWord_encode _ _),
    Reader.andThen_of_ok (Wire.readOption_writeOption haddress _),
    Reader.andThen_of_ok (Wire.readFamily_encode _ _), Reader.andThen_of_ok hfields]
  rfl

variable {raw : RawOperation} {bytes : Bytes}

theorem encode_eq_ok : raw.encode = .ok bytes ↔
    raw.serialize.length ≤ maxBytes ∧ raw.serialize = bytes := by
  unfold encode
  dsimp only
  split
  · rename_i hle
    rw [Except.ok.injEq, and_iff_right hle]
  · rename_i hlong
    exact ⟨nofun, fun h ↦ absurd h.1 hlong⟩

theorem decode_serialize (h : raw.serialize.length ≤ maxBytes) :
    decode raw.serialize = .ok raw := by
  have hwide : maxBytes < UInt64.size := by decide
  have hread := read_serialize (Nat.lt_of_le_of_lt h hwide) []
  rw [List.append_nil] at hread
  exact decode_eq_ok.mpr hread

/-- Whatever an operation is decoded from is what is written for it, or longer. -/
theorem widens_of_decode (h : decode bytes = .ok raw) : bytes.Widens raw.serialize := by
  obtain ⟨form, hform, hwidens⟩ := canonical_read (decode_eq_ok.mp h)
  rw [hform, List.append_nil]
  exact hwidens

/-- **What is written is read back, and nothing shorter is read as it.** An operation is encoded if
and only if its written form keeps to the size limit, which is so if and only if any of its forms
does, and the encoded operation is decoded again. Of the byte strings that are decoded as an
operation the encoded one is the shortest, and the only one that is as short; where the operation
cannot be encoded they all pass the limit. -/
theorem wire_round_trip (raw : RawOperation) :
    ((∃ bytes, raw.encode = .ok bytes) ↔ raw.serialize.length ≤ maxBytes) ∧
      ((∃ bytes, raw.encode = .ok bytes) ↔
        ∃ bytes, decode bytes = .ok raw ∧ bytes.length ≤ maxBytes) ∧
      (∀ bytes, raw.encode = .ok bytes → decode bytes = .ok raw) ∧
      ∀ bytes, decode bytes = .ok raw →
        (∀ written, raw.encode = .ok written →
          written.length ≤ bytes.length ∧ (written.length = bytes.length ↔ bytes = written)) ∧
        ∀ cause, raw.encode = .error cause → maxBytes < bytes.length := by
  have hencode : (∃ bytes, raw.encode = .ok bytes) ↔ raw.serialize.length ≤ maxBytes :=
    ⟨fun ⟨_, h⟩ ↦ (encode_eq_ok.mp h).1, fun hle ↦ ⟨_, encode_eq_ok.mpr ⟨hle, rfl⟩⟩⟩
  refine ⟨hencode, hencode.trans ⟨fun hle ↦ ⟨_, decode_serialize hle, hle⟩, ?_⟩, ?_, ?_⟩
  · rintro ⟨bytes, hbytes, hle⟩
    exact Nat.le_trans (widens_of_decode hbytes).length_le hle
  · intro bytes h
    obtain ⟨hle, rfl⟩ := encode_eq_ok.mp h
    exact decode_serialize hle
  · intro bytes hbytes
    have hwidens := widens_of_decode hbytes
    refine ⟨fun written hwritten ↦ ?_, fun cause hcause ↦ ?_⟩
    · obtain ⟨-, rfl⟩ := encode_eq_ok.mp hwritten
      exact ⟨hwidens.length_le, hwidens.length_eq_iff⟩
    · have hlong : ¬ raw.serialize.length ≤ maxBytes := fun hle ↦ by
        rw [encode_eq_ok.mpr ⟨hle, rfl⟩] at hcause
        cases hcause
      exact Nat.lt_of_lt_of_le (Nat.lt_of_not_le hlong) hwidens.length_le

end RawOperation

end SettlementLedger
