import SettlementLedger.Proofs.AddressTexts

/-!
# Addresses are keys

Two readers meet in an address. Bytes are taken for an address by their alphabet (`Address.parse`,
`Address.Spelled`), and the key is then read off the text by a reader of hexadecimal digits that
does not care about their case (`Address.keyOfText?`). Were the two to disagree, one key could have
two texts or one text two keys. They do not: what the lenient reader makes of an address is its key
(`keyOfText?_bytes`), and a text from which it reads a key without being the text of that key is
refused for its digits (`parse_eq_encoding`). So addresses, the texts that are accepted and keys
are in one-to-one correspondence (`addresses_are_keys`).
-/

set_option autoImplicit false
set_option relaxedAutoImplicit false

namespace SettlementLedger

/-! ### The bytes of an ASCII text -/

namespace Bytes

theorem toList_loop_eq (bytes : ByteArray) (i : Nat) (read : List UInt8) :
    ByteArray.toList.loop bytes i read = read.reverse ++ bytes.data.toList.drop i := by
  induction i, read using ByteArray.toList.loop.induct bytes with
  | case1 i read hlt ih =>
    have hi : i < bytes.data.toList.length := hlt
    have hget : bytes.get! i = bytes.data.toList[i] := getElem!_pos bytes.data i hlt
    rw [ByteArray.toList.loop, if_pos hlt, ih, List.drop_eq_getElem_cons hi, hget,
      List.reverse_cons, List.append_assoc, List.singleton_append]
  | case2 i read hge =>
    rw [ByteArray.toList.loop, if_neg hge, List.drop_of_length_le (Nat.le_of_not_lt hge),
      List.append_nil]

theorem ofText_eq (text : String) : ofText text = text.toByteArray.data.toList := by
  rw [ofText, ByteArray.toList, toList_loop_eq]
  rfl

theorem ofText_injective {first second : String} (h : ofText first = ofText second) :
    first = second := by
  rw [ofText_eq, ofText_eq, Array.toList_inj] at h
  exact String.toByteArray_inj.mp (ByteArray.ext h)

/-- In an ASCII text a character is a byte. -/
theorem ofText_ofList {chars : List Char} (h : ∀ c ∈ chars, c.toNat < 128) :
    ofText (String.ofList chars) = chars.map fun c ↦ UInt8.ofNat c.toNat := by
  have hchar (c : Char) (hc : c ∈ chars) : String.utf8EncodeChar c = [UInt8.ofNat c.toNat] :=
    if_pos (Nat.le_of_lt_succ (h c hc))
  rw [ofText_eq, String.toByteArray_ofList, List.utf8Encode, List.toList_data_toByteArray,
    List.flatMap_def, List.map_congr_left hchar, ← List.flatMap_def, List.map_eq_flatMap]

end Bytes

/-! ### Digits in either case -/

namespace Hex

/-- The byte string that digits write, upper case or lower. -/
def decodeAnyCase? (digits : List Char) : Option Bytes :=
  decode? (digits.map Char.toLower)

/-- No digit that is written is in upper case. -/
theorem toLower_of_mem_encode {bytes : Bytes} {c : Char} (h : c ∈ encode bytes) :
    c.toLower = c :=
  of_mem_encode (P := fun c ↦ c.toLower = c) (by decide) h

theorem decodeAnyCase?_encode (bytes : Bytes) : decodeAnyCase? (encode bytes) = some bytes := by
  have hlower : (encode bytes).map Char.toLower = encode bytes :=
    (List.map_congr_left fun _ ↦ toLower_of_mem_encode).trans (List.map_id _)
  rw [decodeAnyCase?, hlower, decode?_encode]

/-- In upper case every byte string has a second text, which is not the one that is written. -/
theorem decodeAnyCase?_map_toUpper (bytes : Bytes) :
    decodeAnyCase? ((encode bytes).map Char.toUpper) = some bytes := by
  have hlower : ((encode bytes).map Char.toUpper).map Char.toLower = encode bytes := by
    rw [List.map_map]
    refine (List.map_congr_left fun c hc ↦ ?_).trans (List.map_id _)
    exact of_mem_encode (P := fun c ↦ c.toUpper.toLower = c) (by decide) hc
  rw [decodeAnyCase?, hlower, decode?_encode]

example : decodeAnyCase? "AF".toList = some [0xaf] ∧ decode? "AF".toList = none := by decide

theorem length_of_decodeAnyCase? {digits : List Char} {bytes : Bytes}
    (h : decodeAnyCase? digits = some bytes) : digits.length = 2 * bytes.length := by
  rw [← length_of_decode? h, List.length_map]

end Hex

/-! ### Keys -/

namespace Address

variable {bytes other : Bytes} {key : PublicKey} {a : Address}

/-- The key that is read off the text of an address. The digits may be in either case, and neither
the tag nor their alphabet is looked at. -/
def keyOfText? (bytes : Bytes) : Option PublicKey :=
  (Hex.decodeAnyCase? ((bytes.drop tag.length).map fun byte ↦ Char.ofNat byte.toNat)).bind
    Identifier.ofBytes?

theorem keyOfText?_bytes (a : Address) : keyOfText? a.bytes = some a.key := by
  rw [keyOfText?, drop_bytes, Hex.decodeAnyCase?_encode, Option.bind_some,
    Identifier.ofBytes?_bytes]

/-- A key is read off 64 digits. -/
theorem length_of_keyOfText? (h : keyOfText? bytes = some key) :
    (bytes.drop tag.length).length = 64 := by
  obtain ⟨keyBytes, hdigits, hkey⟩ := Option.bind_eq_some_iff.mp h
  have hwidth : keyBytes.length = 32 := by
    rw [Identifier.ofBytes?_eq_some_iff.mp hkey]
    exact key.length_bytes
  have hpairs := Hex.length_of_decodeAnyCase? hdigits
  rw [List.length_map] at hpairs
  omega

/-- Bytes are read as an address if they are spelled as one and its key is read off them. -/
theorem parse_eq_ok_iff_key :
    parse bytes = .ok a ↔ Spelled bytes ∧ keyOfText? bytes = some a.key := by
  constructor
  · intro h
    refine ⟨exists_parse_iff.mp ⟨a, h⟩, ?_⟩
    rw [parse_eq_ok_iff.mp h, keyOfText?_bytes]
  · rintro ⟨hspelled, hkey⟩
    obtain ⟨found, hfound⟩ := exists_parse_iff.mpr hspelled
    rw [parse_eq_ok_iff.mp hfound, keyOfText?_bytes, Option.some.injEq] at hkey
    have hsame : found = a := congrArg Address.mk hkey
    rw [← hsame, hfound]

/-- Accepted texts are told apart by their keys. -/
theorem Spelled.eq_of_key (h : Spelled bytes) (h' : Spelled other)
    (hkey : keyOfText? bytes = some key) (hkey' : keyOfText? other = some key) : bytes = other := by
  have hread : parse bytes = .ok ⟨key⟩ := parse_eq_ok_iff_key.mpr ⟨h, hkey⟩
  have hread' : parse other = .ok ⟨key⟩ := parse_eq_ok_iff_key.mpr ⟨h', hkey'⟩
  rw [parse_eq_ok_iff.mp hread, parse_eq_ok_iff.mp hread']

/-- Another spelling of a key than its text is refused for its digits. -/
theorem parse_eq_encoding (htag : bytes.take tag.length = Bytes.ofAscii tag)
    (hkey : keyOfText? bytes = some key) (hother : bytes ≠ (Address.mk key).bytes) :
    parse bytes = .error .encoding := by
  have hwidth : bytes.length = width := by
    have hfront : (bytes.take tag.length).length = 5 := by
      rw [htag]
      decide
    rw [← List.take_append_drop tag.length bytes, List.length_append, hfront,
      length_of_keyOfText? hkey, width]
  have hnot : ¬ Spelled bytes := fun hspelled ↦
    hother (parse_eq_ok_iff.mp (parse_eq_ok_iff_key.mpr ⟨hspelled, hkey⟩))
  -- With the width and the tag in order only a digit can be what is wrong.
  have hdigit : ∃ digit ∈ bytes.drop tag.length, ¬ Hex.IsDigit digit := by
    refine Classical.byContradiction fun hno ↦ hnot (spelled_iff.mpr ⟨hwidth, htag, ?_⟩)
    exact fun digit hmem ↦ Classical.byContradiction fun hbad ↦ hno ⟨digit, hmem, hbad⟩
  exact parse_eq_error_iff.mpr ⟨hwidth, htag, hdigit⟩

/-! ### Texts -/

theorem ofText_text (a : Address) : Bytes.ofText a.text = a.bytes := by
  refine Bytes.ofText_ofList fun c hc ↦ ?_
  rcases List.mem_append.mp hc with htag | hdigit
  · have hall : (tag.toList.all fun c ↦ decide (c.toNat < 128)) = true := by decide
    exact of_decide_eq_true (List.all_eq_true.mp hall c htag)
  · exact Hex.toNat_lt_of_mem_encode hdigit

theorem parse_ofText_eq_ok_iff {text : String} :
    parse (Bytes.ofText text) = .ok a ↔ text = a.text := by
  rw [parse_eq_ok_iff, ← ofText_text]
  exact ⟨Bytes.ofText_injective, congrArg Bytes.ofText⟩

end Address

open Address in
/-- **Addresses, accepted texts and keys are in one-to-one correspondence.** The text of a key is
read as its address, and its key is read back. Bytes are read as an address exactly if they are the
tag and 64 lowercase digits; they are then the text of the key that is read off them, so two
accepted texts with one key are one text, and a spelling of a key in other digits, as in upper case,
is refused. All other bytes are refused for the first that is wrong of the width, the tag and the
digits. What holds of bytes holds of the texts that they write in UTF-8. -/
theorem addresses_are_keys :
    (∀ key : PublicKey, parse (Address.mk key).bytes = .ok ⟨key⟩ ∧
      keyOfText? (Address.mk key).bytes = some key) ∧
    (∀ bytes : Bytes, (∃ a, parse bytes = .ok a) ↔ Spelled bytes) ∧
    (∀ (bytes : Bytes) (a : Address), parse bytes = .ok a →
      keyOfText? bytes = some a.key ∧ (Address.mk a.key).bytes = bytes) ∧
    (∀ (bytes other : Bytes) (key : PublicKey), Spelled bytes → Spelled other →
      keyOfText? bytes = some key → keyOfText? other = some key → bytes = other) ∧
    (∀ (bytes : Bytes) (key : PublicKey), bytes.take tag.length = Bytes.ofAscii tag →
      keyOfText? bytes = some key → bytes ≠ (Address.mk key).bytes →
        parse bytes = .error .encoding) ∧
    (∀ (bytes : Bytes) (cause : AddressError), parse bytes = .error cause ↔ Flaw bytes cause) ∧
    ∀ (text : String) (a : Address), parse (Bytes.ofText text) = .ok a ↔ text = a.text :=
  ⟨fun key ↦ ⟨parse_bytes ⟨key⟩, keyOfText?_bytes ⟨key⟩⟩,
    fun _ ↦ exists_parse_iff,
    fun _ _ h ↦ ⟨(parse_eq_ok_iff_key.mp h).2, (parse_eq_ok_iff.mp h).symm⟩,
    fun _ _ _ ↦ Spelled.eq_of_key,
    fun _ _ ↦ parse_eq_encoding,
    fun _ _ ↦ parse_eq_error_iff,
    fun _ _ ↦ parse_ofText_eq_ok_iff⟩

end SettlementLedger
