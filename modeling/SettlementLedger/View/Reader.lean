import SettlementLedger.Record.Admin
import SettlementLedger.Record.Deployment
import SettlementLedger.Record.Node
import SettlementLedger.View
import SettlementLedger.View.Key

/-!
# Typed reads of the ledger

Each kind of entry is read from a view with its codec. An entry that is absent has no value, or the
value the ledger starts with: a counter of zero, an open initialization phase.
-/

set_option autoImplicit false
set_option relaxedAutoImplicit false

namespace SettlementLedger.View

/-- The bytes of an entry. -/
def read (view : View) (key : ViewKey) : Except ViewError (Option Bytes) :=
  (view key.text).mapError .store

/-- The entry decoded with a codec, if it is present. -/
def readAs {α : Type} (view : View) (decode : Bytes → Except CodecError α) (key : ViewKey) :
    Except ViewError (Option α) := do
  match ← view.read key with
  | none => return none
  | some bytes => return some (← (decode bytes).mapError .codec)

/-- An address that a registry entry holds. -/
def decodeEntry (bytes : Bytes) : Except CodecError Address :=
  (Address.parse bytes).mapError fun _ ↦ .domain .registryEntry .address

/-- Whether a flag byte is not zero. -/
def decodeFlag (bytes : Bytes) : Except CodecError Bool :=
  match bytes with
  | [flag] => .ok (flag != 0)
  | _ => .error (.length .initializationFlag 1 bytes.length)

/-- The node record of a participant. -/
def node (view : View) (address : Address) : Except ViewError (Option NodeRecord) :=
  view.readAs NodeRecord.decode (.node address)

/-- The admin record. -/
def admin (view : View) : Except ViewError (Option AdminRecord) :=
  view.readAs AdminRecord.decode .admin

/-- Whether the initialization phase is open, as it is until it is closed. -/
def initializing (view : View) : Except ViewError Bool :=
  return (← view.readAs decodeFlag .initialization).getD true

/-- The number of positions in the writer registry. -/
def writersLength (view : View) : Except ViewError UInt32 :=
  return (← view.readAs Counter.decode .writersLength).getD 0

/-- The participant at a position of the writer registry. -/
def writerAt (view : View) (position : UInt32) : Except ViewError (Option Address) :=
  view.readAs decodeEntry (.writerAt position)

/-- The participant a writing key is bound to. -/
def writerOwner (view : View) (key : WritingKey) : Except ViewError (Option Address) :=
  view.readAs decodeEntry (.writerOwner key)

/-- The number of licenses issued. -/
def licenseCount (view : View) : Except ViewError UInt32 :=
  return (← view.readAs Counter.decode .licenseCount).getD 0

/-- The participant that holds a license. -/
def licenseOwner (view : View) (license : UInt32) : Except ViewError (Option Address) :=
  view.readAs decodeEntry (.licenseOwner license)

/-- The deployment record of an external bootstrap key. -/
def deployment (view : View) (bootstrap : WritingKey) :
    Except ViewError (Option DeploymentRecord) :=
  view.readAs DeploymentRecord.decode (.deployment bootstrap)

/-- The bytes of the operation that was applied under a hash. -/
def appliedOperation (view : View) (tx : Hash) : Except ViewError (Option Bytes) :=
  view.read (.applied tx)

/-- Whether an operation was applied under a hash. -/
def isApplied (view : View) (tx : Hash) : Except ViewError Bool :=
  return (← view.appliedOperation tx).isSome

end SettlementLedger.View
