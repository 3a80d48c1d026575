/-!
# Why stored bytes are refused

A record codec refuses bytes of the wrong width with the width it wanted and the width it got, and
bytes of the right width with the part whose content is out of range.
-/

set_option autoImplicit false
set_option relaxedAutoImplicit false

namespace SettlementLedger

/-- Something with a fixed layout: a record, or an argument that replaces one of its fields. -/
inductive Layout where
  | nodeRecord
  | adminRecord
  | deploymentRecord
  | counter
  | initializationFlag
  | registryEntry
  | balance
  | stakedBalance
  | license
  | writingKey
  deriving DecidableEq, Repr

/-- The name of a layout in messages. -/
def Layout.label : Layout → String
  | .nodeRecord => "node record"
  | .adminRecord => "admin record"
  | .deploymentRecord => "deployment record"
  | .counter => "counter"
  | .initializationFlag => "initialization flag"
  | .registryEntry => "registry entry"
  | .balance => "balance"
  | .stakedBalance => "staked balance"
  | .license => "license"
  | .writingKey => "writing key"

/-- A part of a record whose content can be out of range. -/
inductive LayoutPart where
  | role
  | license
  | address
  | requester
  deriving DecidableEq, Repr

/-- The name of a part in messages. -/
def LayoutPart.label : LayoutPart → String
  | .role => "role"
  | .license => "license"
  | .address => "address"
  | .requester => "requester"

/-- Why bytes do not fit a layout. -/
inductive CodecError where
  /-- The number of bytes is wrong. -/
  | length (layout : Layout) (expected actual : Nat)
  /-- A part holds a value out of its range. -/
  | domain (layout : Layout) (part : LayoutPart)
  deriving DecidableEq, Repr

namespace CodecError

/-- The stable name of the cause. -/
def code : CodecError → String
  | .length .. => "codec_length"
  | .domain .. => "codec_domain"

/-- The cause in words. -/
def message : CodecError → String
  | .length layout expected actual =>
    layout.label ++ ": expected " ++ toString expected ++ " bytes, got " ++ toString actual
  | .domain layout part => layout.label ++ ": invalid " ++ part.label

end CodecError

end SettlementLedger
