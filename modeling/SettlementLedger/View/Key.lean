import SettlementLedger.Address

/-!
# The key space of the ledger

Everything the ledger stores lies in one flat map from texts to bytes. `ViewKey` lists the kinds of
entry there are and `ViewKey.text` says under which text each one lies.
-/

set_option autoImplicit false
set_option relaxedAutoImplicit false

namespace SettlementLedger

/-- The place of an entry of the ledger. -/
inductive ViewKey where
  /-- The admin record. -/
  | admin
  /-- The initialization flag. -/
  | initialization
  /-- The number of positions in the writer registry. -/
  | writersLength
  /-- The number of licenses issued. -/
  | licenseCount
  /-- The node record of a participant. -/
  | node (address : Address)
  /-- The participant a writing key is bound to. -/
  | writerOwner (key : WritingKey)
  /-- The participant at a position of the writer registry. -/
  | writerAt (position : UInt32)
  /-- The participant that holds a license. -/
  | licenseOwner (license : UInt32)
  /-- The deployment record of an external bootstrap key. -/
  | deployment (bootstrap : WritingKey)
  /-- The replay marker of an applied operation: its bytes as they were delivered. -/
  | applied (tx : Hash)
  deriving DecidableEq

namespace ViewKey

/-- The text under which an entry lies. -/
def text : ViewKey → String
  | .admin => "admin"
  | .initialization => "initialization"
  | .writersLength => "writers/length"
  | .licenseCount => "license/count"
  | .node address => address.text
  | .writerOwner key => "writer/address/" ++ key.hex
  | .writerAt position => "writers/index/" ++ Nat.repr position.toNat
  | .licenseOwner license => "license/index/" ++ Nat.repr license.toNat
  | .deployment bootstrap => "deployment/" ++ bootstrap.hex
  | .applied tx => tx.hex

end ViewKey

end SettlementLedger
