import SettlementLedger.Bytes

/-!
# Lowercase hexadecimal text

A byte is written as two digits from `0` to `9` and `a` to `f`, the high half first. Reading refuses
every other character, upper case included, and an odd number of digits, so each byte string has
exactly one text (`decode?_eq_some_iff`).
-/

set_option autoImplicit false
set_option relaxedAutoImplicit false

namespace SettlementLedger.Hex

/-- The two digits of a byte. -/
def pair (byte : UInt8) : List Char :=
  [Nat.digitChar (byte.toNat / 16), Nat.digitChar (byte.toNat % 16)]

/-- The digits of a byte string. -/
def encode (bytes : Bytes) : List Char :=
  bytes.flatMap pair

/-- The text of a byte string. -/
def text (bytes : Bytes) : String :=
  String.ofList (encode bytes)

/-- The value of a lowercase digit. -/
def digit? (c : Char) : Option Nat :=
  if '0' ≤ c ∧ c ≤ '9' then some (c.toNat - '0'.toNat)
  else if 'a' ≤ c ∧ c ≤ 'f' then some (c.toNat - 'a'.toNat + 10)
  else none

/-- The byte string that lowercase digits write. -/
def decode? : List Char → Option Bytes
  | [] => some []
  | [_] => none
  | high :: low :: rest => do
    let h ← digit? high
    let l ← digit? low
    let bytes ← decode? rest
    return UInt8.ofNat (16 * h + l) :: bytes

/-! ### Widths -/

@[simp] theorem length_encode (bytes : Bytes) : (encode bytes).length = 2 * bytes.length := by
  induction bytes with
  | nil => rfl
  | cons byte rest ih =>
    have h : encode (byte :: rest) = pair byte ++ encode rest := rfl
    rw [h, List.length_append, ih]
    simp [pair]
    omega

theorem length_of_decode? {digits : List Char} {bytes : Bytes} (h : decode? digits = some bytes) :
    digits.length = 2 * bytes.length := by
  induction digits using decode?.induct generalizing bytes with
  | case1 => simp_all [decode?]
  | case2 => simp [decode?] at h
  | case3 high low rest ih =>
    simp only [decode?, Option.bind_eq_bind, Option.bind_eq_some_iff] at h
    obtain ⟨hi, _, lo, _, tail, htail, heq⟩ := h
    have := ih htail
    cases heq
    simp only [List.length_cons]
    omega

/-! ### Reading back -/

theorem digit?_digitChar {n : Nat} (h : n < 16) : digit? (Nat.digitChar n) = some n := by
  have hall : ∀ k : Fin 16, digit? (Nat.digitChar k) = some k.val := by decide
  exact hall ⟨n, h⟩

theorem digitChar_of_digit? {c : Char} {n : Nat} (h : digit? c = some n) :
    n < 16 ∧ Nat.digitChar n = c := by
  unfold digit? at h
  have hzero : '0'.toNat = 48 := rfl
  have ha : 'a'.toNat = 97 := rfl
  split at h
  · rename_i hc
    cases h
    have hlo : 48 ≤ c.toNat := hc.1
    have hhi : c.toNat ≤ 57 := hc.2
    refine ⟨by omega, ?_⟩
    have hall : ∀ k : Fin 10, Nat.digitChar k = Char.ofNat (48 + k) := by decide
    have := hall ⟨c.toNat - '0'.toNat, by omega⟩
    rw [this]
    have : 48 + (c.toNat - '0'.toNat) = c.toNat := by omega
    rw [this, Char.ofNat_toNat]
  · split at h
    · rename_i hc
      cases h
      have hlo : 97 ≤ c.toNat := hc.1
      have hhi : c.toNat ≤ 102 := hc.2
      refine ⟨by omega, ?_⟩
      have hall : ∀ k : Fin 6, Nat.digitChar (k + 10) = Char.ofNat (97 + k) := by decide
      have := hall ⟨c.toNat - 'a'.toNat, by omega⟩
      rw [this]
      have : 97 + (c.toNat - 'a'.toNat) = c.toNat := by omega
      rw [this, Char.ofNat_toNat]
    · cases h

theorem decode?_encode (bytes : Bytes) : decode? (encode bytes) = some bytes := by
  induction bytes with
  | nil => rfl
  | cons byte rest ih =>
    have hbyte : byte.toNat < 256 := byte.toNat_lt
    have hhigh : byte.toNat / 16 < 16 := by omega
    have hlow : byte.toNat % 16 < 16 := by omega
    have hsum : 16 * (byte.toNat / 16) + byte.toNat % 16 = byte.toNat := by omega
    have h : encode (byte :: rest) =
        Nat.digitChar (byte.toNat / 16) :: Nat.digitChar (byte.toNat % 16) :: encode rest := rfl
    simp only [h, decode?, digit?_digitChar hhigh, digit?_digitChar hlow, ih,
      Option.bind_eq_bind, Option.bind_some, hsum, UInt8.ofNat_toNat]
    rfl

theorem encode_of_decode? {digits : List Char} {bytes : Bytes} (h : decode? digits = some bytes) :
    encode bytes = digits := by
  induction digits using decode?.induct generalizing bytes with
  | case1 => simp_all [decode?, encode]
  | case2 => simp [decode?] at h
  | case3 high low rest ih =>
    simp only [decode?, Option.bind_eq_bind, Option.bind_eq_some_iff] at h
    obtain ⟨hi, hhigh, lo, hlow, tail, htail, heq⟩ := h
    cases heq
    obtain ⟨hhi, rfl⟩ := digitChar_of_digit? hhigh
    obtain ⟨hlo, rfl⟩ := digitChar_of_digit? hlow
    have hbyte : (UInt8.ofNat (16 * hi + lo)).toNat = 16 * hi + lo := by
      rw [UInt8.toNat_ofNat']
      omega
    have hquot : (16 * hi + lo) / 16 = hi := by omega
    have hrem : (16 * hi + lo) % 16 = lo := by omega
    have hcons : encode (UInt8.ofNat (16 * hi + lo) :: tail) =
        pair (UInt8.ofNat (16 * hi + lo)) ++ encode tail := rfl
    rw [hcons, ih htail, pair, hbyte, hquot, hrem]
    rfl

theorem decode?_eq_some_iff {digits : List Char} {bytes : Bytes} :
    decode? digits = some bytes ↔ digits = encode bytes :=
  ⟨fun h ↦ (encode_of_decode? h).symm, fun h ↦ h ▸ decode?_encode bytes⟩

/-- What holds of the sixteen digits holds of every character that is written. -/
theorem of_mem_encode {P : Char → Prop} (hall : ∀ k : Fin 16, P (Nat.digitChar k)) {bytes : Bytes}
    {c : Char} (h : c ∈ encode bytes) : P c := by
  obtain ⟨byte, _, hc⟩ := List.mem_flatMap.mp h
  have hbyte : byte.toNat < 256 := byte.toNat_lt
  have hhigh := hall ⟨byte.toNat / 16, by omega⟩
  have hlow := hall ⟨byte.toNat % 16, by omega⟩
  simp only [pair, List.mem_cons, List.not_mem_nil, or_false] at hc
  rcases hc with rfl | rfl
  · exact hhigh
  · exact hlow

/-- The digits are ASCII. -/
theorem toNat_lt_of_mem_encode {bytes : Bytes} {c : Char} (h : c ∈ encode bytes) :
    c.toNat < 128 :=
  of_mem_encode (P := fun c ↦ c.toNat < 128) (by decide) h

end SettlementLedger.Hex
