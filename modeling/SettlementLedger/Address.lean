import SettlementLedger.Crypto.Suite

/-!
# Participant addresses

An address is a public key. It is written as the tag `trac1` followed by the 64 lowercase
hexadecimal digits of the key, 69 ASCII bytes in all, and this is the only text it has: reading
(`Address.parse`) accepts nothing else (`Address.parse_eq_ok_iff`). Whether the key is a point of
the curve is a question for the cipher suite and is asked only when a signature is checked.
-/

set_option autoImplicit false
set_option relaxedAutoImplicit false

namespace SettlementLedger

/-- Why bytes are not an address, or an address not a key. -/
inductive AddressError where
  /-- The number of bytes is wrong. -/
  | length (actual : Nat)
  /-- The tag is missing. -/
  | tag
  /-- What follows the tag is not lowercase hexadecimal. -/
  | encoding
  /-- The key is no public key of the suite. -/
  | publicKey
  deriving DecidableEq, Repr

/-- The public key of a participant. -/
structure Address where
  key : PublicKey
  deriving DecidableEq

namespace Address

/-- The text that every address starts with. -/
def tag : String := "trac1"

/-- The number of bytes of an encoded address. -/
def width : Nat := 69

/-- The characters of an address. -/
def chars (a : Address) : List Char :=
  tag.toList ++ Hex.encode a.key.bytes

/-- The text of an address. -/
def text (a : Address) : String :=
  String.ofList a.chars

/-- The bytes of an address as records hold them. -/
def bytes (a : Address) : Bytes :=
  a.chars.map fun c ↦ UInt8.ofNat c.toNat

/-- The text of an address marked as such. -/
def display (a : Address) : String :=
  "Address(" ++ a.text ++ ")"

/-- Reads an encoded address: the width is checked first, then the tag, then the digits. -/
def parse (bytes : Bytes) : Except AddressError Address :=
  if bytes.length ≠ width then .error (.length bytes.length)
  else if bytes.take tag.length ≠ Bytes.ofAscii tag then .error .tag
  else
    let digits := (bytes.drop tag.length).map fun byte ↦ Char.ofNat byte.toNat
    match (Hex.decode? digits).bind Identifier.ofBytes? with
    | some key => .ok ⟨key⟩
    | none => .error .encoding

/-- The key of an address, if the suite knows it as one. -/
def publicKey (suite : Suite) (a : Address) : Except AddressError PublicKey :=
  if suite.isKey a.key then .ok a.key else .error .publicKey

@[simp] theorem length_bytes (a : Address) : a.bytes.length = width := by
  have hkey : a.key.bytes.length = 32 := a.key.length_bytes
  have htag : tag.toList.length = 5 := by decide
  simp [bytes, chars, hkey, htag, width]

/-! ### Reading back -/

theorem toNat_ofNat_of_lt {n : Nat} (h : n < 256) : (Char.ofNat n).toNat = n := by
  have hvalid : n.isValidChar := Or.inl (by omega)
  rw [Char.ofNat, dif_pos hvalid]
  rfl

theorem length_tag : tag.toList.length = tag.length := rfl

/-- A character below 256 is the character of its byte. -/
theorem ofNat_toNat_byte {c : Char} (h : c.toNat < 256) :
    Char.ofNat (UInt8.ofNat c.toNat).toNat = c := by
  rw [UInt8.toNat_ofNat', Nat.mod_eq_of_lt h, Char.ofNat_toNat]

theorem take_bytes (a : Address) : a.bytes.take tag.length = Bytes.ofAscii tag := by
  rw [bytes, chars, List.map_append]
  exact List.take_left' (by rw [List.length_map, length_tag])

theorem drop_bytes (a : Address) :
    (a.bytes.drop tag.length).map (fun byte ↦ Char.ofNat byte.toNat) = Hex.encode a.key.bytes := by
  have hdrop : a.chars.drop tag.length = Hex.encode a.key.bytes := List.drop_left' length_tag
  rw [bytes, ← List.map_drop, hdrop, List.map_map]
  refine (List.map_congr_left fun c hc ↦ ?_).trans (List.map_id _)
  exact ofNat_toNat_byte (Nat.lt_trans (Hex.toNat_lt_of_mem_encode hc) (by decide))

@[simp] theorem parse_bytes (a : Address) : parse a.bytes = .ok a := by
  have hkey : Hex.decode? (Hex.encode a.key.bytes) = some a.key.bytes :=
    Hex.decode?_eq_some_iff.mpr rfl
  have hlen : a.bytes.length = width := length_bytes a
  simp only [parse, hlen, ne_eq, not_true_eq_false, if_false, take_bytes, drop_bytes, hkey,
    Option.bind_some, Identifier.ofBytes?_bytes]

theorem bytes_of_parse {bytes : Bytes} {a : Address} (h : parse bytes = .ok a) :
    a.bytes = bytes := by
  unfold parse at h
  split at h
  · cases h
  · split at h
    · cases h
    · rename_i hlen htag
      simp only [ne_eq, Decidable.not_not] at hlen htag
      simp only at h
      split at h
      · rename_i key hkey
        cases h
        obtain ⟨keyBytes, hdigits, hid⟩ := Option.bind_eq_some_iff.mp hkey
        rw [Identifier.ofBytes?_eq_some_iff] at hid
        subst hid
        have hhex := Hex.decode?_eq_some_iff.mp hdigits
        have hback : (Hex.encode key.bytes).map (fun c ↦ UInt8.ofNat c.toNat) =
            bytes.drop tag.length := by
          rw [← hhex, List.map_map]
          refine (List.map_congr_left fun byte _ ↦ ?_).trans (List.map_id _)
          exact (congrArg UInt8.ofNat (toNat_ofNat_of_lt byte.toNat_lt)).trans UInt8.ofNat_toNat
        have hfront : tag.toList.map (fun c ↦ UInt8.ofNat c.toNat) = bytes.take tag.length :=
          htag.symm
        rw [Address.bytes, chars, List.map_append, hback, hfront, List.take_append_drop]
      · cases h

theorem parse_eq_ok_iff {bytes : Bytes} {a : Address} : parse bytes = .ok a ↔ bytes = a.bytes :=
  ⟨fun h ↦ (bytes_of_parse h).symm, fun h ↦ h ▸ parse_bytes a⟩

end Address

namespace AddressError

/-- The stable name of the cause. -/
def code : AddressError → String
  | .length _ => "address_length"
  | .tag => "address_prefix"
  | .encoding => "address_encoding"
  | .publicKey => "address_public_key"

/-- The cause in words. -/
def message : AddressError → String
  | .length actual =>
    "address must be " ++ toString Address.width ++ " bytes, got " ++ toString actual
  | .tag => "address prefix mismatch"
  | .encoding => "address key is not lowercase hex"
  | .publicKey => "address key is not a valid ed25519 public key"

end AddressError

end SettlementLedger
