import SettlementLedger.Bytes
import SettlementLedger.Record.CodecError
import SettlementLedger.SortedMap

/-!
# Views and pending writes

A view answers reads by key, and a read may fail. Writes are collected in a write set, which lies
over a view (`WriteSet.onto`) and shadows it key by key. A batch is the write set of one call of the
engine over the view that the call started from.
-/

set_option autoImplicit false
set_option relaxedAutoImplicit false

namespace SettlementLedger

/-- The failure of a storage backend. -/
structure StoreError where
  reason : String
  deriving DecidableEq, Repr

/-- Why a value could not be read from a view. -/
inductive ViewError where
  /-- The backend failed. -/
  | store (error : StoreError)
  /-- The stored bytes do not decode. -/
  | codec (error : CodecError)
  deriving DecidableEq, Repr

namespace ViewError

/-- The stable name of the cause. -/
def code : ViewError → String
  | .store _ => "view_store"
  | .codec _ => "view_codec"

/-- The cause in words. -/
def message : ViewError → String
  | .store error => "store failure: " ++ error.reason
  | .codec error => "corrupt stored value: " ++ error.message

end ViewError

/-- The answer of a view to a read of each key. -/
abbrev View := String → Except StoreError (Option Bytes)

/-- Writes that are not yet part of the layer below, at most one for each key. -/
abbrev WriteSet := SortedMap String Bytes

/-- The view in which writes shadow a base. -/
def WriteSet.onto (writes : WriteSet) (base : View) : View := fun key ↦
  match writes.get? key with
  | some value => .ok (some value)
  | none => base key

/-- The committed entries of a replica. -/
abbrev Store := SortedMap String Bytes

/-- The view of a store, whose reads never fail. -/
def Store.view (store : Store) : View := fun key ↦ .ok (store.get? key)

/-- The store after a write set is committed. -/
def Store.commit (store : Store) (writes : WriteSet) : Store := store.merge writes

/-- The entries of a store that an earlier store did not have or had otherwise. -/
def Store.changedSince (store earlier : Store) : List (String × Bytes) :=
  store.entries.filter fun entry ↦ earlier.get? entry.1 != some entry.2

/-- The writes of one call of the engine over a base view. -/
structure Batch where
  base : View
  pending : WriteSet := .empty

namespace Batch

/-- What a read through the batch answers. -/
def view (batch : Batch) : View := WriteSet.onto batch.pending batch.base

/-- The batch after the writes of an operation are folded in. -/
def merge (batch : Batch) (writes : WriteSet) : Batch :=
  { batch with pending := batch.pending.merge writes }

end Batch

/-! ### Reads through writes -/

namespace WriteSet

@[simp] theorem onto_empty (base : View) : WriteSet.onto .empty base = base := rfl

/-- Merged write sets shadow a base one after the other. -/
theorem onto_merge (first second : WriteSet) (base : View) :
    WriteSet.onto (first.merge second) base = WriteSet.onto second (WriteSet.onto first base) := by
  funext key
  simp only [onto, SortedMap.get?_merge]
  cases second.get? key <;> rfl

end WriteSet

theorem Store.view_commit (store : Store) (writes : WriteSet) :
    Store.view (store.commit writes) = WriteSet.onto writes store.view := by
  funext key
  simp only [Store.view, Store.commit, WriteSet.onto, SortedMap.get?_merge]
  cases writes.get? key <;> rfl

@[simp] theorem Batch.view_merge (batch : Batch) (writes : WriteSet) :
    (batch.merge writes).view = WriteSet.onto writes batch.view :=
  WriteSet.onto_merge batch.pending writes batch.base

end SettlementLedger
