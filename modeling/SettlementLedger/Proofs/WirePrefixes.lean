import SettlementLedger.Operation.Wire

/-!
# No wire form is the beginning of another

Every reader of the wire format is made of two primitive ones, which take one byte or a number of
bytes, by putting one reader after another (`Reader.andThen`). A reader is delimited if the bytes
that it takes say themselves where they end: it takes them whatever follows, and on fewer of them it
finds the end of the input (`Reader.Delimited`). The primitive readers are, and one after another
is, whatever the second one makes of the value of the first.

So every reader of the wire format is delimited, for the forms that the writer chooses and for all
others, and an operation that was read cannot be cut short or continued.
-/

set_option autoImplicit false
set_option relaxedAutoImplicit false

namespace SettlementLedger

/-! ### Readers one after another -/

namespace Reader

variable {α β : Type} {reader : Reader α} {next : α → Reader β} {input middle rest : Bytes}
  {a : α} {b : β}

/-- Takes nothing. -/
def done (value : α) : Reader α := fun input ↦ .ok (value, input)

/-- Refuses every input. -/
def fail (cause : WireError) : Reader α := fun _ ↦ .error cause

/-- One reader after another, which may depend on the value of the first. -/
def andThen (reader : Reader α) (next : α → Reader β) : Reader β := fun input ↦ do
  let (value, rest) ← reader input
  next value rest

theorem andThen_of_ok (h : reader input = .ok (a, middle)) :
    reader.andThen next input = next a middle := by
  rw [andThen, h]
  rfl

theorem andThen_of_error {cause : WireError} (h : reader input = .error cause) :
    reader.andThen next input = .error cause := by
  rw [andThen, h]
  rfl

theorem andThen_eq_ok : reader.andThen next input = .ok (b, rest) ↔
    ∃ a middle, reader input = .ok (a, middle) ∧ next a middle = .ok (b, rest) := by
  constructor
  · intro h
    cases hfirst : reader input with
    | error cause =>
      rw [andThen_of_error hfirst] at h
      cases h
    | ok taken =>
      rw [andThen_of_ok hfirst] at h
      exact ⟨taken.1, taken.2, rfl, h⟩
  · rintro ⟨a, middle, hfirst, hnext⟩
    rw [andThen_of_ok hfirst, hnext]

theorem bytes_eq_ok {count : Nat} {front : Bytes} :
    bytes count input = .ok (front, rest) ↔ front.length = count ∧ input = front ++ rest := by
  constructor
  · intro h
    unfold bytes at h
    split at h
    · rename_i hle
      cases h
      exact ⟨List.length_take_of_le hle, (List.take_append_drop count input).symm⟩
    · cases h
  · rintro ⟨hlength, rfl⟩
    exact bytes_append hlength rest

/-- What comes after a reader may be replaced by what does the same. -/
theorem bind_eq_andThen {after : α × Bytes → Except WireError (β × Bytes)}
    (h : ∀ a rest, after (a, rest) = next a rest) :
    (fun input ↦ reader input >>= after) = reader.andThen next :=
  funext fun input ↦ congrArg (reader input >>= ·) (funext fun ⟨a, rest⟩ ↦ h a rest)

end Reader

namespace Varint

/-- What is read after the first byte of a number. -/
def readAfter (first : UInt8) : Reader Nat :=
  if first < 251 then .done first.toNat
  else match markedWidth? first with
    | .error cause => .fail cause
    | .ok width => (Reader.bytes width).andThen fun digits ↦ .done (Bytes.toNatLE digits)

theorem read_eq : read = Reader.byte.andThen readAfter := by
  refine Reader.bind_eq_andThen fun first rest ↦ ?_
  dsimp only [readAfter]
  split
  · rfl
  · cases markedWidth? first with
    | error cause => rfl
    | ok width => rfl

theorem readWord_eq : readWord = read.andThen fun n ↦
    if n < UInt32.size then .done (UInt32.ofNat n) else .fail (.wideWord n) := by
  refine Reader.bind_eq_andThen fun n rest ↦ ?_
  dsimp only
  split
  · rfl
  · rfl

end Varint

namespace Wire

theorem readBytes_eq : readBytes = Varint.read.andThen Reader.bytes := rfl

theorem readOption_eq : readOption = Reader.byte.andThen fun mark ↦
    if mark = 0 then .done none
    else if mark = 1 then readBytes.andThen fun bytes ↦ .done (some bytes)
    else .fail (.optionMark mark) := by
  refine Reader.bind_eq_andThen fun mark rest ↦ ?_
  dsimp only
  split
  · rfl
  · split
    · rfl
    · rfl

theorem readFamily_eq : readFamily = Varint.readWord.andThen fun index ↦
    match Family.ofIndex? index.toNat with
    | some family => .done family
    | none => .fail (.familyIndex index.toNat) := by
  refine Reader.bind_eq_andThen fun index rest ↦ ?_
  dsimp only
  cases Family.ofIndex? index.toNat with
  | some family => rfl
  | none => rfl

/-- Takes an optional byte string for each field of a list, in order. -/
def readEach : List Field → Fields → Reader Fields
  | [], fields => .done fields
  | field :: order, fields =>
    readOption.andThen fun value ↦ readEach order (fields.withSlot field value)

/-- A record of fields is taken field by field, in canonical order. -/
theorem readFields_eq : readFields = readEach Field.all .empty := rfl

end Wire

theorem RawOperation.read_eq : read = Varint.readWord.andThen fun kind ↦
    Wire.readOption.andThen fun address ↦ Wire.readFamily.andThen fun family ↦
      Wire.readFields.andThen fun fields ↦
        .done { kind, address, family, fields } := rfl

/-! ### Delimited readers -/

namespace Reader

variable {α β : Type} {reader : Reader α} {next : α → Reader β}

/-- The bytes that a value is read from say where they end. -/
structure Spells (reader : Reader α) (front : Bytes) (a : α) : Prop where
  /-- Whatever follows is left. -/
  whole : ∀ rest, reader (front ++ rest) = .ok (a, rest)
  /-- Where some of them are missing, the input ends too early. -/
  cut : ∀ part missing, front = part ++ missing → missing ≠ [] →
    reader part = .error .endOfInput

/-- Every value is read from bytes that say where they end. -/
def Delimited (reader : Reader α) : Prop :=
  ∀ input a rest, reader input = .ok (a, rest) →
    ∃ front, input = front ++ rest ∧ reader.Spells front a

theorem Spells.done (a : α) : (Reader.done a).Spells [] a where
  whole _ := rfl
  cut _ _ hnil hmissing := absurd (List.append_eq_nil_iff.mp hnil.symm).2 hmissing

/-- One piece after the other. A cut goes through the first piece, or it comes after the whole of
the first piece and goes through the second one. -/
theorem Spells.andThen {front front' : Bytes} {a : α} {b : β} (h : reader.Spells front a)
    (hnext : (next a).Spells front' b) : (reader.andThen next).Spells (front ++ front') b where
  whole rest := by rw [List.append_assoc, andThen_of_ok (h.whole _), hnext.whole]
  cut part missing hfront hmissing := by
    have hsecond (inner : Bytes) (hinner : front' = inner ++ missing) :
        reader.andThen next (front ++ inner) = .error .endOfInput := by
      rw [andThen_of_ok (h.whole inner)]
      exact hnext.cut inner missing hinner hmissing
    rcases List.append_eq_append_iff.mp hfront with ⟨inner, rfl, hinner⟩ | ⟨lost, hlost, hrest⟩
    · exact hsecond inner hinner
    · cases lost with
      | nil =>
        have hpart := hsecond [] hrest.symm
        rw [hlost, List.append_nil, List.append_nil] at hpart
        exact hpart
      | cons byte more =>
        exact andThen_of_error (h.cut part _ hlost (List.cons_ne_nil _ _))

theorem Delimited.done (a : α) : (Reader.done a).Delimited := by
  rintro input _ _ ⟨⟩
  exact ⟨[], rfl, .done a⟩

theorem Delimited.fail (cause : WireError) : (Reader.fail cause : Reader α).Delimited := nofun

theorem Delimited.andThen (h : reader.Delimited) (hnext : ∀ a, (next a).Delimited) :
    (reader.andThen next).Delimited := by
  intro input b rest hread
  obtain ⟨a, middle, hfirst, hsecond⟩ := andThen_eq_ok.mp hread
  obtain ⟨front, rfl, hspells⟩ := h input a middle hfirst
  obtain ⟨front', rfl, hspells'⟩ := hnext a middle b rest hsecond
  exact ⟨front ++ front', (List.append_assoc _ _ _).symm, hspells.andThen hspells'⟩

theorem delimited_byte : byte.Delimited := by
  intro input first rest hread
  cases input with
  | nil => cases hread
  | cons found left =>
    cases hread
    refine ⟨[first], rfl, fun _ ↦ rfl, fun part missing hfront hmissing ↦ ?_⟩
    cases part with
    | nil => rfl
    | cons _ more =>
      injection hfront with _ hnil
      exact absurd (List.append_eq_nil_iff.mp hnil.symm).2 hmissing

theorem delimited_bytes (count : Nat) : (bytes count).Delimited := by
  intro input front rest hread
  obtain ⟨hlength, rfl⟩ := bytes_eq_ok.mp hread
  refine ⟨front, rfl, bytes_append hlength, fun part missing hfront hmissing ↦ if_neg ?_⟩
  have htotal := congrArg List.length hfront
  have hpos := List.length_pos_iff.mpr hmissing
  rw [List.length_append] at htotal
  omega

end Reader

/-! ### The wire format -/

namespace Varint

open Reader

theorem delimited_readAfter (first : UInt8) : (readAfter first).Delimited := by
  unfold readAfter
  split
  · exact .done _
  · cases markedWidth? first with
    | error cause => exact .fail cause
    | ok width => exact (delimited_bytes width).andThen fun digits ↦ .done _

theorem delimited_read : read.Delimited := by
  rw [read_eq]
  exact delimited_byte.andThen delimited_readAfter

theorem delimited_readWord : readWord.Delimited := by
  rw [readWord_eq]
  refine delimited_read.andThen fun n ↦ ?_
  split
  · exact .done _
  · exact .fail _

end Varint

namespace Wire

open Reader

theorem delimited_readBytes : readBytes.Delimited := by
  rw [readBytes_eq]
  exact Varint.delimited_read.andThen delimited_bytes

theorem delimited_readOption : readOption.Delimited := by
  rw [readOption_eq]
  refine delimited_byte.andThen fun mark ↦ ?_
  split
  · exact .done none
  · split
    · exact delimited_readBytes.andThen fun bytes ↦ .done _
    · exact .fail _

theorem delimited_readFamily : readFamily.Delimited := by
  rw [readFamily_eq]
  refine Varint.delimited_readWord.andThen fun index ↦ ?_
  cases Family.ofIndex? index.toNat with
  | some family => exact .done family
  | none => exact .fail _

theorem delimited_readEach (order : List Field) (fields : Fields) :
    (readEach order fields).Delimited := by
  induction order generalizing fields with
  | nil => exact .done fields
  | cons field order ih => exact delimited_readOption.andThen fun value ↦ ih _

theorem delimited_readFields : readFields.Delimited := by
  rw [readFields_eq]
  exact delimited_readEach Field.all .empty

end Wire

namespace RawOperation

theorem delimited_read : read.Delimited := by
  rw [read_eq]
  exact Varint.delimited_readWord.andThen fun kind ↦ Wire.delimited_readOption.andThen fun address ↦
    Wire.delimited_readFamily.andThen fun family ↦
      Wire.delimited_readFields.andThen fun fields ↦ .done _

variable {bytes : Bytes} {raw : RawOperation}

theorem decode_of_read {rest : Bytes} (h : read bytes = .ok (raw, rest)) :
    decode bytes = if rest = [] then .ok raw else .error .trailingBytes := by
  simp only [decode, h, bind, Except.bind]
  cases rest with
  | nil => rfl
  | cons byte more => rfl

theorem decode_of_read_error {cause : WireError} (h : read bytes = .error cause) :
    decode bytes = .error cause := by
  rw [decode, h]
  rfl

/-- An operation is decoded if it is read and nothing is left. -/
theorem decode_eq_ok : decode bytes = .ok raw ↔ read bytes = .ok (raw, []) := by
  refine ⟨fun h ↦ ?_, fun h ↦ (decode_of_read h).trans (if_pos rfl)⟩
  cases hread : read bytes with
  | error cause =>
    rw [decode_of_read_error hread] at h
    cases h
  | ok taken =>
    obtain ⟨found, rest⟩ := taken
    rw [decode_of_read hread] at h
    split at h
    · rename_i hnil
      cases h
      rw [hnil]
    · cases h

/-- An operation is decoded from bytes that say where they end. -/
theorem spells_of_decode (h : decode bytes = .ok raw) : read.Spells bytes raw := by
  obtain ⟨front, hfront, hspells⟩ := delimited_read bytes raw [] (decode_eq_ok.mp h)
  rw [hfront, List.append_nil]
  exact hspells

/-- **The wire language is prefix-free.** Bytes that are an operation, in the narrowest form or in
any other, are none if some are missing at the end: the input ends too early, wherever the cut is.
They are none either if anything follows: then bytes are left. So of two operations neither is the
beginning of the other. -/
theorem wire_prefix_free (h : decode bytes = .ok raw) :
    (∀ part, part <+: bytes → part ≠ bytes → decode part = .error .endOfInput) ∧
      (∀ more, more ≠ [] → decode (bytes ++ more) = .error .trailingBytes) ∧
      ∀ other found, decode other = .ok found → bytes <+: other → other = bytes := by
  have hspells := spells_of_decode h
  have hmore (more : Bytes) (hne : more ≠ []) : decode (bytes ++ more) = .error .trailingBytes :=
    (decode_of_read (hspells.whole more)).trans (if_neg hne)
  refine ⟨?_, hmore, ?_⟩
  · rintro part ⟨missing, rfl⟩ hne
    refine decode_of_read_error (hspells.cut part missing rfl fun hnil ↦ hne ?_)
    rw [hnil, List.append_nil]
  · rintro other found hother ⟨more, rfl⟩
    refine Decidable.byContradiction fun hne ↦ ?_
    rw [hmore more fun hnil ↦ hne (by rw [hnil, List.append_nil])] at hother
    cases hother

/-- A transfer without fields whose kind is written wider than it need be: it is an operation, the
marker of the kind alone is too short for one, and a zero after it is too much. -/
theorem wide_transfer_prefix_free :
    let bytes : Bytes := [251, 13, 0, 0, 4] ++ List.replicate 15 0
    decode bytes = .ok ⟨13, none, .transfer, .empty⟩ ∧
      decode [251] = .error .endOfInput ∧ decode (bytes ++ [0]) = .error .trailingBytes := by
  intro bytes
  have hbytes : decode bytes = .ok ⟨13, none, .transfer, .empty⟩ := rfl
  obtain ⟨hcut, hmore, -⟩ := wire_prefix_free hbytes
  exact ⟨hbytes, hcut [251] ⟨_, rfl⟩ (by decide), hmore [0] (by decide)⟩

end RawOperation

end SettlementLedger
