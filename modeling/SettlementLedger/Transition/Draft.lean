import SettlementLedger.Config
import SettlementLedger.Membership
import SettlementLedger.Operation.Message
import SettlementLedger.Transition.Refusal
import SettlementLedger.View.Reader

/-!
# The draft of an operation

A rule judges one operation in a fixed `Setting` and works on a `Draft`: the writes it has staged
over the state before the operation, and the membership changes it asks for. Reads of a draft see
the staged writes. Nothing of a draft is visible outside until the whole rule has succeeded.

A draft lies over the batch of its call, and the batch over the committed store. `Layers` is that
stack with the steps that move writes down it or drop them.
-/

set_option autoImplicit false
set_option relaxedAutoImplicit false

namespace SettlementLedger

/-- What is fixed while one operation is judged. -/
structure Setting where
  suite : Suite
  config : Config
  /-- The bootstrap writing key of this ledger. -/
  bootstrap : WritingKey
  /-- The membership set as earlier operations left it. -/
  members : Membership
  /-- The writing key of the log that the operation was delivered on. -/
  log : WritingKey
  operation : Operation
  /-- Whether the initialization phase was open before the operation. -/
  initializing : Bool

/-- The writes and membership changes of one operation so far. -/
structure Draft where
  base : View
  staged : WriteSet := .empty
  changes : MembershipDiff := []

namespace Draft

/-- What a read through the draft answers. -/
def view (draft : Draft) : View := WriteSet.onto draft.staged draft.base

/-- Stages a write under a text. -/
def stage (draft : Draft) (text : String) (value : Bytes) : Draft :=
  { draft with staged := draft.staged.insert text value }

/-- Stages a write. -/
def put (draft : Draft) (key : ViewKey) (value : Bytes) : Draft := draft.stage key.text value

/-- Stages a node record. -/
def putNode (draft : Draft) (address : Address) (node : NodeRecord) : Draft :=
  draft.put (.node address) node.encode

/-- The node record of a participant. -/
def node (draft : Draft) (address : Address) : Except Refusal (Option NodeRecord) :=
  answered (draft.view.node address)

/-- The node record of a participant that must have one. -/
def existingNode (draft : Draft) (address : Address) (missing : Rejection) :
    Except Refusal NodeRecord := do
  demand (← draft.node address) missing

/-- The admin record. -/
def admin (draft : Draft) : Except Refusal (Option AdminRecord) :=
  answered draft.view.admin

/-- Whether a participant is the administrator. -/
def isAdmin (draft : Draft) (address : Address) : Except Refusal Bool := do
  let admin ← draft.admin
  return admin.any fun record ↦ record.address = address

/-! ### Membership -/

/-- Asks for a key to join; it must not be a member. -/
def addMember (draft : Draft) (members : Membership) (key : WritingKey) : Except Refusal Draft := do
  require (¬ members.containsAfter draft.changes key) .membershipConflict
  return { draft with changes := draft.changes ++ [.add key] }

/-- Asks for a key to leave if it is a member; the last member stays. -/
def removeMember (draft : Draft) (members : Membership) (key : WritingKey) :
    Except Refusal Draft :=
  if members.containsAfter draft.changes key then do
    require (1 < members.sizeAfter draft.changes) .lastIndexer
    return { draft with changes := draft.changes ++ [.remove key] }
  else return draft

/-! ### Registries -/

/-- Issues the next license to a participant. -/
def assignLicense (draft : Draft) (address : Address) : Except Refusal (UInt32 × Draft) := do
  let count ← answered draft.view.licenseCount
  let license ← demand (Counter.next? count) .licensesExhausted
  let draft := draft.put (.licenseOwner license) address.bytes
  return (license, draft.put .licenseCount (Counter.encode license))

/-- The license of a participant with a given record, issued now if it never had one. -/
def licenseOf (draft : Draft) (address : Address) (node : NodeRecord) :
    Except Refusal (UInt32 × Draft) :=
  if node.hasLicense then return (node.license, draft) else draft.assignLicense address

/-- Puts a writing key under the name of a participant. -/
def putWriterOwner (draft : Draft) (key : WritingKey) (address : Address) : Draft :=
  draft.put (.writerOwner key) address.bytes

/-- A writing key must be bound to nobody else. -/
def requireAvailable (draft : Draft) (key : WritingKey) (address : Address) :
    Except Refusal Unit := do
  let owner ← answered (draft.view.writerOwner key)
  require (∀ a, owner = some a → a = address) .writerKeyInUse

/-- Binds a writing key to a participant; a key that was bound to nobody takes the next position of
the registry. -/
def bindWriter (draft : Draft) (key : WritingKey) (address : Address) : Except Refusal Draft := do
  match ← answered (draft.view.writerOwner key) with
  | some owner =>
    require (owner = address) .writerKeyInUse
    return draft
  | none =>
    let position ← answered draft.view.writersLength
    let length ← demand (Counter.next? position) .writerRegistryExhausted
    let draft := draft.put (.writerAt position) address.bytes
    let draft := draft.put .writersLength (Counter.encode length)
    return draft.putWriterOwner key address

end Draft

/-! ### Authority -/

namespace Setting

/-- The admin record, if the requester and the log are the administrator's. -/
def requireAdmin (setting : Setting) (draft : Draft) : Except Refusal AdminRecord := do
  let admin ← demand (← draft.admin) .noAdmin
  require (setting.operation.requester = admin.address ∧ setting.log = admin.writingKey) .notAdmin
  return admin

/-- The validator that cosigned the operation. It must be a writer, its writing key must be the log
that the operation was delivered on, and the registry must bind that log to it. -/
def validator (setting : Setting) (draft : Draft) : Except Refusal Address := do
  let cosignature ← demand setting.operation.cosignature .missingCosignature
  let address := cosignature.validator
  require (setting.suite.isKey address.key) .invalidValidatorKey
  let digest := Message.validatorHash setting.suite setting.operation.tx address cosignature.nonce
  require (setting.suite.verify address.key digest.bytes cosignature.signature)
    .invalidValidatorSignature
  let node ← demand ((← draft.node address).filter (·.role.isWriter)) .validatorNotWriter
  require (node.writingKey = setting.log) .validatorKeyMismatch
  let owner ← answered (draft.view.writerOwner setting.log)
  require (owner = some address) .validatorKeyMismatch
  return address

end Setting

/-! ### The stack of layers -/

/-- The committed entries, the pending writes of a batch over them, and the staged writes of a draft
over that batch. -/
structure Layers where
  store : Store := .empty
  pending : WriteSet := .empty
  staged : WriteSet := .empty

/-- A step that moves writes down the stack or drops them. -/
inductive LayerStep where
  /-- Stages a write in the draft. -/
  | put (key : String) (value : Bytes)
  /-- Merges the draft into the batch and empties it. -/
  | merge
  /-- Drops the draft. -/
  | dropDraft
  /-- Drops the batch and the draft with it. -/
  | dropBatch
  /-- Commits the batch to the store; the draft stays. -/
  | commit

namespace Layers

/-- The batch over the store. -/
def batch (layers : Layers) : Batch := { base := layers.store.view, pending := layers.pending }

/-- The draft over the batch. -/
def draft (layers : Layers) : Draft := { base := layers.batch.view, staged := layers.staged }

/-- The stack after a step. -/
def step (layers : Layers) : LayerStep → Layers
  | .put key value => { layers with staged := (layers.draft.stage key value).staged }
  | .merge =>
    { layers with pending := (layers.batch.merge layers.draft.staged).pending, staged := .empty }
  | .dropDraft => { layers with staged := .empty }
  | .dropBatch => { layers with pending := .empty, staged := .empty }
  | .commit => { layers with store := layers.store.commit layers.batch.pending, pending := .empty }

/-- The stack after a list of steps. -/
def run (layers : Layers) (steps : List LayerStep) : Layers :=
  steps.foldl step layers

/-- What a read of the store answers. -/
def storeView (layers : Layers) : View := layers.store.view

/-- What a read through the batch answers. -/
def batchView (layers : Layers) : View := layers.batch.view

/-- What a read through the draft answers. -/
def draftView (layers : Layers) : View := layers.draft.view

end Layers

end SettlementLedger
