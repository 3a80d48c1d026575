import SettlementLedger.Operation.Kind
import SettlementLedger.Operation.Varint

/-!
# The wire format of operations

A raw operation is what arrives from a log: a kind number, perhaps a requester address, and a
payload of some family with any of the fifteen fields. On the wire these follow each other, the
fields in the order of their record, an optional value behind a mark and a byte string behind its
length. Nothing is trusted yet: a raw operation becomes an operation only through the schema.
Writing is limited to `RawOperation.maxBytes`; reading is not.
-/

set_option autoImplicit false
set_option relaxedAutoImplicit false

namespace SettlementLedger

/-- An operation as it arrives from a log. -/
structure RawOperation where
  kind : UInt32
  address : Option Bytes
  family : Family
  fields : Fields

namespace Wire

/-- A byte string behind its length. -/
def writeBytes (bytes : Bytes) : Bytes :=
  Varint.encode bytes.length ++ bytes

/-- An optional byte string behind its mark. -/
def writeOption : Option Bytes → Bytes
  | none => [0]
  | some bytes => 1 :: writeBytes bytes

/-- What is in the places of a record of fields, each as an optional byte string. -/
def writeFields (fields : Fields) : Bytes :=
  fields.options.flatMap writeOption

/-- Takes a byte string. -/
def readBytes : Reader Bytes := fun input ↦ do
  let (length, rest) ← Varint.read input
  Reader.bytes length rest

/-- Takes an optional byte string. -/
def readOption : Reader (Option Bytes) := fun input ↦ do
  let (mark, rest) ← Reader.byte input
  if mark = 0 then return (none, rest)
  else if mark = 1 then
    let (bytes, rest) ← readBytes rest
    return (some bytes, rest)
  else .error (.optionMark mark)

/-- Takes the family of a payload. -/
def readFamily : Reader Family := fun input ↦ do
  let (index, rest) ← Varint.readWord input
  match Family.ofIndex? index.toNat with
  | some family => return (family, rest)
  | none => .error (.familyIndex index.toNat)

/-- Takes a record of fields, one place after the other. -/
def readFields : Reader Fields := fun input ↦ do
  let (tx, rest) ← readOption input
  let (txValidity, rest) ← readOption rest
  let (writingKey, rest) ← readOption rest
  let (target, rest) ← readOption rest
  let (nonce, rest) ← readOption rest
  let (signature, rest) ← readOption rest
  let (amount, rest) ← readOption rest
  let (recipient, rest) ← readOption rest
  let (contentHash, rest) ← readOption rest
  let (externalBootstrap, rest) ← readOption rest
  let (ledgerBootstrap, rest) ← readOption rest
  let (channel, rest) ← readOption rest
  let (validatorAddress, rest) ← readOption rest
  let (validatorNonce, rest) ← readOption rest
  let (validatorSignature, rest) ← readOption rest
  return ({ tx, txValidity, writingKey, target, nonce, signature, amount, recipient, contentHash,
            externalBootstrap, ledgerBootstrap, channel, validatorAddress, validatorNonce,
            validatorSignature }, rest)

end Wire

/-- Why an operation has no wire form. -/
inductive EncodeError where
  /-- The wire form would be longer than the limit. -/
  | oversize
  deriving DecidableEq, Repr

/-- The cause in words. -/
def EncodeError.message : EncodeError → String
  | .oversize => "the size limit has been reached"

namespace RawOperation

/-- The largest number of bytes that is written for an operation. -/
def maxBytes : Nat := 4096

/-- The wire form of an operation, whatever its length. -/
def serialize (raw : RawOperation) : Bytes :=
  Varint.encode raw.kind.toNat ++ (Wire.writeOption raw.address ++
    (Varint.encode raw.family.index ++ Wire.writeFields raw.fields))

/-- The wire form of an operation that keeps to the limit. -/
def encode (raw : RawOperation) : Except EncodeError Bytes :=
  let bytes := raw.serialize
  if bytes.length ≤ maxBytes then .ok bytes else .error .oversize

/-- Takes an operation. -/
def read : Reader RawOperation := fun input ↦ do
  let (kind, rest) ← Varint.readWord input
  let (address, rest) ← Wire.readOption rest
  let (family, rest) ← Wire.readFamily rest
  let (fields, rest) ← Wire.readFields rest
  return ({ kind, address, family, fields }, rest)

/-- Reads an operation that takes up all the bytes. -/
def decode (bytes : Bytes) : Except WireError RawOperation := do
  match ← read bytes with
  | (raw, []) => return raw
  | (_, _ :: _) => .error .trailingBytes

end RawOperation

end SettlementLedger
