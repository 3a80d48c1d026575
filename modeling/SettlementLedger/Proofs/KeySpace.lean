import SettlementLedger.View.Reader

/-!
# The key space is free of collisions

All entries of a ledger share one flat map of texts. A text is the stem of its kind of entry
followed by what it is about: an address, an identifier in hexadecimal digits or a decimal number.
No stem starts another one, apart from the empty stem of a replay marker, and every other stem has a
character that is no hexadecimal digit. So a text says of which kind its entry is
(`ViewKey.shape_eq_of_text_eq`), and then what it is about (`ViewKey.text_injective`). Seen as
families of texts, one for each kind, the entries are told apart within a family by their subjects,
and no two families meet (`ViewKey.key_space_collision_free`).

The text of a node record is read back by `Address.ofText?`, which accepts no other text.
-/

set_option autoImplicit false
set_option relaxedAutoImplicit false

namespace SettlementLedger

theorem Hex.encode_injective {first second : Bytes} (h : Hex.encode first = Hex.encode second) :
    first = second :=
  Option.some.inj ((Hex.decode?_encode first).symm.trans (h ▸ Hex.decode?_encode second))

/-- What hexadecimal text is made of. -/
theorem Hex.isSome_digit?_of_mem_encode {bytes : Bytes} {c : Char} (h : c ∈ Hex.encode bytes) :
    (Hex.digit? c).isSome :=
  Hex.of_mem_encode (P := fun c ↦ (Hex.digit? c).isSome) (by decide) h

theorem toDigits_injective {m n : Nat} (h : Nat.toDigits 10 m = Nat.toDigits 10 n) : m = n := by
  rw [← Nat.ofDigitChars_ten_toDigits (n := m), h, Nat.ofDigitChars_ten_toDigits]

namespace ViewKey

/-! ### Stems -/

/-- The kinds of entry, whatever they are about. -/
inductive Shape where
  | admin
  | initialization
  | writersLength
  | licenseCount
  | node
  | writerOwner
  | writerAt
  | licenseOwner
  | deployment
  | applied
  deriving DecidableEq

/-- The kind of an entry. -/
def shape : ViewKey → Shape
  | .admin => .admin
  | .initialization => .initialization
  | .writersLength => .writersLength
  | .licenseCount => .licenseCount
  | .node _ => .node
  | .writerOwner _ => .writerOwner
  | .writerAt _ => .writerAt
  | .licenseOwner _ => .licenseOwner
  | .deployment _ => .deployment
  | .applied _ => .applied

/-- What every text of a kind of entry starts with. -/
def Shape.stem : Shape → List Char
  | .admin => "admin".toList
  | .initialization => "initialization".toList
  | .writersLength => "writers/length".toList
  | .licenseCount => "license/count".toList
  | .node => "trac1".toList
  | .writerOwner => "writer/address/".toList
  | .writerAt => "writers/index/".toList
  | .licenseOwner => "license/index/".toList
  | .deployment => "deployment/".toList
  | .applied => []

/-- What follows the stem of a text. -/
def detail : ViewKey → List Char
  | .admin | .initialization | .writersLength | .licenseCount => []
  | .node address => Hex.encode address.key.bytes
  | .writerOwner key | .deployment key => Hex.encode key.bytes
  | .writerAt n | .licenseOwner n => Nat.toDigits 10 n.toNat
  | .applied tx => Hex.encode tx.bytes

theorem toList_text (key : ViewKey) : key.text.toList = key.shape.stem ++ key.detail := by
  cases key with
  | admin | initialization | writersLength | licenseCount => exact (List.append_nil _).symm
  | node address => exact String.toList_ofList
  | writerOwner key | deployment key =>
    exact String.toList_append.trans (congrArg _ String.toList_ofList)
  | writerAt n | licenseOwner n =>
    exact String.toList_append.trans (congrArg _ Nat.toList_repr)
  | applied tx => exact String.toList_ofList

/-! ### No stem starts another one -/

theorem Shape.eq_of_prefix {first second : Shape} (hfirst : first ≠ .applied)
    (h : first.stem <+: second.stem) : first = second := by
  rw [← List.isPrefixOf_iff_prefix] at h
  cases first <;> cases second <;>
    first | rfl | exact absurd rfl hfirst | exact absurd h (by decide)

theorem Shape.exists_mem_stem {shape : Shape} (h : shape ≠ .applied) :
    ∃ c ∈ shape.stem, Hex.digit? c = none := by
  have hany : (shape.stem.any fun c ↦ (Hex.digit? c).isNone) = true := by
    cases shape <;> first | rfl | exact absurd rfl h
  obtain ⟨c, hc, hdigit⟩ := List.any_eq_true.mp hany
  exact ⟨c, hc, Option.isNone_iff_eq_none.mp hdigit⟩

/-- The text of a replay marker is the text of nothing else. -/
theorem shape_eq_of_text_eq_applied {key : ViewKey} {tx : Hash}
    (h : key.text = (ViewKey.applied tx).text) : key.shape = .applied := by
  refine Decidable.byContradiction fun hshape ↦ ?_
  obtain ⟨c, hc, hdigit⟩ := Shape.exists_mem_stem hshape
  have hlist : key.shape.stem ++ key.detail = Hex.encode tx.bytes := by
    rw [← toList_text, h, toList_text]
    rfl
  have hmem : c ∈ Hex.encode tx.bytes := hlist ▸ List.mem_append_left _ hc
  have hsome := Hex.isSome_digit?_of_mem_encode hmem
  rw [hdigit] at hsome
  cases hsome

theorem shape_eq_of_text_eq {first second : ViewKey} (h : first.text = second.text) :
    first.shape = second.shape := by
  by_cases hfirst : first.shape = .applied
  · cases first with
    | applied tx => exact (shape_eq_of_text_eq_applied h.symm).symm
    | _ => cases hfirst
  by_cases hsecond : second.shape = .applied
  · cases second with
    | applied tx => exact shape_eq_of_text_eq_applied h
    | _ => cases hsecond
  have hlist : first.shape.stem ++ first.detail = second.shape.stem ++ second.detail := by
    rw [← toList_text, h, toList_text]
  rcases List.append_eq_append_iff.mp hlist with ⟨rest, hstem, -⟩ | ⟨rest, hstem, -⟩
  · exact Shape.eq_of_prefix hfirst ⟨rest, hstem.symm⟩
  · exact (Shape.eq_of_prefix hsecond ⟨rest, hstem.symm⟩).symm

/-- Two entries under one text are the same entry. -/
theorem text_injective {first second : ViewKey} (h : first.text = second.text) :
    first = second := by
  have hshape := shape_eq_of_text_eq h
  have hdetail : first.detail = second.detail := by
    have hlist := toList_text first
    rw [h, toList_text, hshape] at hlist
    exact (List.append_cancel_left hlist).symm
  cases first <;> cases second <;> first | rfl | cases hshape
  case node.node a b =>
    exact congrArg node (congrArg Address.mk (Identifier.ext_bytes (Hex.encode_injective hdetail)))
  case writerOwner.writerOwner a b =>
    exact congrArg writerOwner (Identifier.ext_bytes (Hex.encode_injective hdetail))
  case deployment.deployment a b =>
    exact congrArg deployment (Identifier.ext_bytes (Hex.encode_injective hdetail))
  case applied.applied a b =>
    exact congrArg applied (Identifier.ext_bytes (Hex.encode_injective hdetail))
  case writerAt.writerAt a b =>
    exact congrArg writerAt (UInt32.toNat_inj.mp (toDigits_injective hdetail))
  case licenseOwner.licenseOwner a b =>
    exact congrArg licenseOwner (UInt32.toNat_inj.mp (toDigits_injective hdetail))

@[simp] theorem text_inj {first second : ViewKey} : first.text = second.text ↔ first = second :=
  ⟨text_injective, congrArg text⟩

/-! ### Families of texts -/

/-- What the entries of a kind are about. Where there is a single entry of a kind, it is about
nothing in particular. -/
def Shape.Subject : Shape → Type
  | .admin | .initialization | .writersLength | .licenseCount => Unit
  | .node => Address
  | .writerOwner | .deployment => WritingKey
  | .writerAt | .licenseOwner => UInt32
  | .applied => Hash

/-- The entry of a kind about a subject. -/
def Shape.entry : (shape : Shape) → shape.Subject → ViewKey
  | .admin, _ => .admin
  | .initialization, _ => .initialization
  | .writersLength, _ => .writersLength
  | .licenseCount, _ => .licenseCount
  | .node, address => .node address
  | .writerOwner, key => .writerOwner key
  | .writerAt, position => .writerAt position
  | .licenseOwner, license => .licenseOwner license
  | .deployment, bootstrap => .deployment bootstrap
  | .applied, tx => .applied tx

theorem Shape.shape_entry (shape : Shape) (subject : shape.Subject) :
    (shape.entry subject).shape = shape := by
  cases shape <;> rfl

theorem Shape.entry_injective (shape : Shape) : Function.Injective shape.entry := by
  intro a b h
  cases shape <;> cases h <;> rfl

/-- An entry is one of its kind. -/
theorem exists_entry (key : ViewKey) : ∃ subject, key.shape.entry subject = key := by
  cases key with
  | admin | initialization | writersLength | licenseCount => exact ⟨(), rfl⟩
  | node address => exact ⟨address, rfl⟩
  | writerOwner key | deployment key => exact ⟨key, rfl⟩
  | writerAt n | licenseOwner n => exact ⟨n, rfl⟩
  | applied tx => exact ⟨tx, rfl⟩

/-- The four fixed texts are those of the four single entries. -/
theorem text_mem_reserved_iff (key : ViewKey) :
    key.text ∈ ["admin", "initialization", "writers/length", "license/count"] ↔
      key ∈ [admin, initialization, writersLength, licenseCount] := by
  have hreserved : ["admin", "initialization", "writers/length", "license/count"] =
      [admin, initialization, writersLength, licenseCount].map text := rfl
  rw [hreserved, List.mem_map]
  constructor
  · rintro ⟨entry, hmem, htext⟩
    rwa [← text_injective htext]
  · exact fun hmem ↦ ⟨key, hmem, rfl⟩

/-- **The key space is free of collisions.** The entries fall into ten kinds. Within a kind
different subjects have different texts: addresses, writing keys, hashes and 32-bit numbers. No text
belongs to two kinds. The four fixed texts belong to the four single entries, and so to none about
an address, a key, a hash or a number. -/
theorem key_space_collision_free :
    (∀ key : ViewKey, ∃ subject, key.shape.entry subject = key) ∧
    (∀ shape : Shape, Function.Injective fun subject ↦ (shape.entry subject).text) ∧
    (∀ first second : Shape, first ≠ second →
      ∀ a b, (first.entry a).text ≠ (second.entry b).text) ∧
    ∀ key : ViewKey, key.text ∈ ["admin", "initialization", "writers/length", "license/count"] ↔
      key ∈ [admin, initialization, writersLength, licenseCount] := by
  refine ⟨exists_entry, fun shape a b h ↦ shape.entry_injective (text_injective h),
    fun first second hne a b h ↦ ?_, text_mem_reserved_iff⟩
  have hshape := shape_eq_of_text_eq h
  rw [Shape.shape_entry, Shape.shape_entry] at hshape
  exact hne hshape

end ViewKey

/-! ### Reading the text of a node record -/

namespace Address

/-- The participant whose node record lies under a text. -/
def ofText? (text : String) : Option Address :=
  if text.toList.take tag.length = tag.toList then do
    let bytes ← Hex.decode? (text.toList.drop tag.length)
    let key ← Identifier.ofBytes? bytes
    return ⟨key⟩
  else none

theorem ofText?_eq_some_iff {text : String} {a : Address} :
    ofText? text = some a ↔ text = a.text := by
  have hwhole (key : PublicKey) :
      (Address.mk key).text.toList = tag.toList ++ Hex.encode key.bytes := by
    simp [Address.text, chars]
  constructor
  · intro h
    unfold ofText? at h
    split at h
    · rename_i htag
      simp only [Option.bind_eq_bind, Option.bind_eq_some_iff, Option.pure_def,
        Option.some.injEq] at h
      obtain ⟨bytes, hdigits, key, hkey, rfl⟩ := h
      rw [Hex.decode?_eq_some_iff] at hdigits
      rw [Identifier.ofBytes?_eq_some_iff] at hkey
      rw [← String.toList_inj, hwhole, ← hkey, ← hdigits, ← htag, List.take_append_drop]
    · cases h
  · rintro rfl
    have htake : a.text.toList.take tag.length = tag.toList := by
      rw [hwhole]
      exact List.take_left' length_tag
    have hdrop : a.text.toList.drop tag.length = Hex.encode a.key.bytes := by
      rw [hwhole]
      exact List.drop_left' length_tag
    simp [ofText?, htake, hdrop, Hex.decode?_encode]

end Address

end SettlementLedger
