import SettlementLedger.Engine

/-!
# Replicas

A replica keeps the committed entries of a ledger and its membership set. It hands each batch of
deliveries to the engine, and then commits the writes and the membership changes together.
-/

set_option autoImplicit false
set_option relaxedAutoImplicit false

namespace SettlementLedger

/-- One replica of a ledger. -/
structure Replica where
  engine : Engine
  store : Store
  bootstrap : WritingKey
  /-- The digest of the membership sequence that operations must name. -/
  txValidity : Hash
  members : Membership

/-- Something that happens to a replica. -/
inductive ReplicaEvent where
  /-- The replication layer delivers a batch. -/
  | batch (deliveries : List Delivery)
  /-- The membership sequence moves on. -/
  | txValidity (digest : Hash)

namespace Replica

/-- The replica with no entries, whose only member is the bootstrap writer. -/
def fresh (engine : Engine) (bootstrap : WritingKey) (txValidity : Hash) : Replica where
  engine
  store := .empty
  bootstrap
  txValidity
  members := .ofEntries [⟨bootstrap, 0⟩]

/-- What the engine is told about the ledger. -/
def context (replica : Replica) : Context where
  bootstrap := replica.bootstrap
  txValidity := replica.txValidity
  members := replica.members

/-- Runs the engine over the committed entries without committing what it writes. -/
def preview (replica : Replica) (deliveries : List Delivery) : Batch × Report :=
  replica.engine.apply { base := replica.store.view } replica.context deliveries

/-- Commits the writes of a batch together with the membership changes it reports. -/
def commit (replica : Replica) (writes : WriteSet) (diff : MembershipDiff) : Replica :=
  { replica with
    store := replica.store.commit writes
    members := replica.members.applyAll diff }

/-- Applies deliveries as one batch and commits it. -/
def apply (replica : Replica) (deliveries : List Delivery) : Replica × Report :=
  let (batch, report) := replica.preview deliveries
  (replica.commit batch.pending report.diff, report)

/-- The replica after the membership sequence moves on. -/
def withTxValidity (replica : Replica) (digest : Hash) : Replica :=
  { replica with txValidity := digest }

/-- The replica after an event. -/
def handle (replica : Replica) : ReplicaEvent → Replica
  | .batch deliveries => (replica.apply deliveries).1
  | .txValidity digest => replica.withTxValidity digest

/-- The replica after a list of events. -/
def run (replica : Replica) (events : List ReplicaEvent) : Replica :=
  events.foldl handle replica

/-! ### Reads -/

/-- The node record of a participant. -/
def node (replica : Replica) (address : Address) : Except ViewError (Option NodeRecord) :=
  replica.store.view.node address

/-- The spendable balance of a participant, zero without a record. -/
def balance (replica : Replica) (address : Address) : Except ViewError Amount :=
  return ((← replica.node address).map NodeRecord.balance).getD .zero

/-- The balance and the stake of a participant together, if the sum is an amount. -/
def holdings? (replica : Replica) (address : Address) : Except ViewError (Option Amount) := do
  match ← replica.node address with
  | none => return some .zero
  | some node => return node.balance.add? node.stake

end Replica

end SettlementLedger
