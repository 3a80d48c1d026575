import SettlementLedger.Address

/-!
# The texts that are addresses

Which bytes are the text of an address is said here without reference to a key: the tag and 64
lowercase digits (`Address.Spelled`). These are the bytes that are read as an address
(`Address.exists_parse_iff`), and all others are refused for the first thing that is wrong with
them: the width, then the tag, then a digit (`Address.parse_eq_error_iff`).
-/

set_option autoImplicit false
set_option relaxedAutoImplicit false

namespace SettlementLedger

/-! ### Digits -/

namespace Hex

/-- A byte is the code of a digit from `0` to `9` or from `a` to `f`. -/
def IsDigit (byte : UInt8) : Prop :=
  (48 ≤ byte.toNat ∧ byte.toNat ≤ 57) ∨ (97 ≤ byte.toNat ∧ byte.toNat ≤ 102)

theorem exists_digit?_iff {byte : UInt8} :
    (∃ n, digit? (Char.ofNat byte.toNat) = some n) ↔ IsDigit byte := by
  have hcode : (Char.ofNat byte.toNat).toNat = byte.toNat :=
    Address.toNat_ofNat_of_lt byte.toNat_lt
  have hdecimal : ('0' ≤ Char.ofNat byte.toNat ∧ Char.ofNat byte.toNat ≤ '9') ↔
      (48 ≤ byte.toNat ∧ byte.toNat ≤ 57) := by
    show 48 ≤ (Char.ofNat byte.toNat).toNat ∧ (Char.ofNat byte.toNat).toNat ≤ 57 ↔ _
    rw [hcode]
  have hletter : ('a' ≤ Char.ofNat byte.toNat ∧ Char.ofNat byte.toNat ≤ 'f') ↔
      (97 ≤ byte.toNat ∧ byte.toNat ≤ 102) := by
    show 97 ≤ (Char.ofNat byte.toNat).toNat ∧ (Char.ofNat byte.toNat).toNat ≤ 102 ↔ _
    rw [hcode]
  simp only [digit?, hdecimal, hletter, IsDigit]
  split
  · simp [*]
  · split <;> simp [*]

/-- Characters write a byte string if they are digits and come in pairs. -/
theorem exists_decode?_iff {digits : List Char} :
    (∃ bytes, decode? digits = some bytes) ↔
      digits.length % 2 = 0 ∧ ∀ c ∈ digits, ∃ n, digit? c = some n := by
  induction digits using decode?.induct with
  | case1 => simp [decode?]
  | case2 => simp [decode?]
  | case3 high low rest ih =>
    simp only [decode?, Option.bind_eq_bind, Option.bind_eq_some_iff, List.length_cons,
      List.mem_cons, forall_eq_or_imp]
    constructor
    · rintro ⟨bytes, h, hhigh, l, hlow, tail, htail, -⟩
      obtain ⟨heven, hdigits⟩ := ih.mp ⟨tail, htail⟩
      exact ⟨by omega, ⟨h, hhigh⟩, ⟨l, hlow⟩, hdigits⟩
    · rintro ⟨heven, ⟨h, hhigh⟩, ⟨l, hlow⟩, hdigits⟩
      obtain ⟨tail, htail⟩ := ih.mpr ⟨by omega, hdigits⟩
      exact ⟨_, h, hhigh, l, hlow, tail, htail, rfl⟩

end Hex

/-! ### Texts -/

namespace Address

/-- Bytes are the text of an address: the tag and the 64 digits of a key. -/
def Spelled (bytes : Bytes) : Prop :=
  ∃ digits, bytes = Bytes.ofAscii tag ++ digits ∧ digits.length = 64 ∧
    ∀ digit ∈ digits, Hex.IsDigit digit

/-- The first thing that is wrong with bytes that are no address. -/
def Flaw (bytes : Bytes) : AddressError → Prop
  | .length actual => actual = bytes.length ∧ bytes.length ≠ width
  | .tag => bytes.length = width ∧ bytes.take tag.length ≠ Bytes.ofAscii tag
  | .encoding => bytes.length = width ∧ bytes.take tag.length = Bytes.ofAscii tag ∧
      ∃ digit ∈ bytes.drop tag.length, ¬ Hex.IsDigit digit
  | .publicKey => False

theorem spelled_iff {bytes : Bytes} :
    Spelled bytes ↔ bytes.length = width ∧ bytes.take tag.length = Bytes.ofAscii tag ∧
      ∀ digit ∈ bytes.drop tag.length, Hex.IsDigit digit := by
  have htag : (Bytes.ofAscii tag).length = tag.length := by decide
  constructor
  · rintro ⟨digits, rfl, hlength, hdigits⟩
    refine ⟨?_, List.take_left' htag, ?_⟩
    · rw [List.length_append, hlength]
      decide
    · rw [List.drop_left' htag]
      exact hdigits
  · rintro ⟨hlength, hfront, hdigits⟩
    refine ⟨bytes.drop tag.length, ?_, ?_, hdigits⟩
    · rw [← hfront, List.take_append_drop]
    · rw [List.length_drop, hlength]
      decide

/-- The key is read off 64 digits. -/
theorem exists_key_iff {digits : Bytes} (hlength : digits.length = 64) :
    (∃ key : PublicKey, (Hex.decode? (digits.map fun byte ↦ Char.ofNat byte.toNat)).bind
        Identifier.ofBytes? = some key) ↔ ∀ digit ∈ digits, Hex.IsDigit digit := by
  have hdecode : (∃ bytes, Hex.decode? (digits.map fun byte ↦ Char.ofNat byte.toNat) =
      some bytes) ↔ ∀ digit ∈ digits, Hex.IsDigit digit := by
    rw [Hex.exists_decode?_iff, List.length_map, hlength, List.forall_mem_map]
    simp only [Hex.exists_digit?_iff, Nat.reduceMod, true_and]
  rw [← hdecode]
  constructor
  · rintro ⟨key, hkey⟩
    obtain ⟨bytes, hbytes, -⟩ := Option.bind_eq_some_iff.mp hkey
    exact ⟨bytes, hbytes⟩
  · rintro ⟨bytes, hbytes⟩
    have hwidth : bytes.length = IdentifierRole.publicKey.width := by
      have hpairs := Hex.length_of_decode? hbytes
      rw [List.length_map, hlength] at hpairs
      show bytes.length = 32
      omega
    exact ⟨⟨bytes, hwidth⟩, by rw [hbytes, Option.bind_some, Identifier.ofBytes?, dif_pos hwidth]⟩

theorem Spelled.not_flaw {bytes : Bytes} {cause : AddressError} (h : Spelled bytes) :
    ¬ Flaw bytes cause := by
  obtain ⟨hwidth, htag, hdigits⟩ := spelled_iff.mp h
  cases cause with
  | length actual => exact fun hflaw ↦ hflaw.2 hwidth
  | tag => exact fun hflaw ↦ hflaw.2 htag
  | encoding =>
    rintro ⟨-, -, digit, hdigit, hnot⟩
    exact hnot (hdigits digit hdigit)
  | publicKey => exact id

/-- Only one thing is the first that is wrong. -/
theorem Flaw.unique {bytes : Bytes} {cause other : AddressError} (h : Flaw bytes cause)
    (h' : Flaw bytes other) : cause = other := by
  cases cause <;> cases other <;> simp_all [Flaw]

/-- Bytes are read as an address, or they are refused for the first thing that is wrong. -/
theorem parse_cases (bytes : Bytes) :
    (Spelled bytes ∧ ∃ a, parse bytes = .ok a) ∨
      ∃ cause, Flaw bytes cause ∧ parse bytes = .error cause := by
  rw [spelled_iff]
  unfold parse
  by_cases hwidth : bytes.length = width
  · by_cases htag : bytes.take tag.length = Bytes.ofAscii tag
    · have hlength : (bytes.drop tag.length).length = 64 := by
        rw [List.length_drop, hwidth]
        decide
      simp only [hwidth, htag, ne_eq, not_true_eq_false, if_false, true_and,
        ← exists_key_iff hlength]
      split
      · rename_i key hkey
        exact Or.inl ⟨⟨key, hkey⟩, ⟨key⟩, rfl⟩
      · rename_i hnone
        refine Or.inr ⟨.encoding, ⟨hwidth, htag, ?_⟩, rfl⟩
        refine Classical.byContradiction fun hno ↦ ?_
        obtain ⟨key, hkey⟩ := (exists_key_iff hlength).mpr fun digit hdigit ↦
          Classical.byContradiction fun hnot ↦ hno ⟨digit, hdigit, hnot⟩
        rw [hnone] at hkey
        cases hkey
    · rw [if_neg (not_not_intro hwidth), if_pos htag]
      exact Or.inr ⟨.tag, ⟨hwidth, htag⟩, rfl⟩
  · rw [if_pos hwidth]
    exact Or.inr ⟨.length bytes.length, ⟨rfl, hwidth⟩, rfl⟩

theorem exists_parse_iff {bytes : Bytes} : (∃ a, parse bytes = .ok a) ↔ Spelled bytes := by
  rcases parse_cases bytes with ⟨hspelled, hread⟩ | ⟨cause, hflaw, hrefused⟩
  · exact ⟨fun _ ↦ hspelled, fun _ ↦ hread⟩
  · refine ⟨?_, fun hspelled ↦ absurd hflaw hspelled.not_flaw⟩
    rintro ⟨a, hread⟩
    rw [hrefused] at hread
    cases hread

/-- Bytes are refused for the first thing that is wrong with them. -/
theorem parse_eq_error_iff {bytes : Bytes} {cause : AddressError} :
    parse bytes = .error cause ↔ Flaw bytes cause := by
  rcases parse_cases bytes with ⟨hspelled, a, hread⟩ | ⟨found, hflaw, hrefused⟩
  · refine ⟨fun hrefused ↦ ?_, fun hflaw ↦ absurd hflaw hspelled.not_flaw⟩
    rw [hread] at hrefused
    cases hrefused
  · rw [hrefused]
    refine ⟨?_, fun h ↦ congrArg Except.error (hflaw.unique h)⟩
    rintro ⟨⟩
    exact hflaw

end Address

end SettlementLedger
