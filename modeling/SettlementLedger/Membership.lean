import SettlementLedger.Identifier
import SettlementLedger.SortedMap

/-!
# The membership set

The validator set: the writing keys of the indexers, each with the length of its log as the
replication layer sees it. The ledger reads the set it is given and reports changes; applying the
changes is left to the host, in the step that commits the writes.
-/

set_option autoImplicit false
set_option relaxedAutoImplicit false

namespace SettlementLedger

/-- One member and the length of its log. -/
structure MembershipEntry where
  key : WritingKey
  length : UInt64
  deriving DecidableEq

/-- A key that joins or leaves the membership set. -/
inductive MembershipChange where
  | add (key : WritingKey)
  | remove (key : WritingKey)
  deriving DecidableEq

/-- The key that a change concerns. -/
def MembershipChange.key : MembershipChange → WritingKey
  | add key | remove key => key

/-- Changes in the order in which they apply. -/
abbrev MembershipDiff := List MembershipChange

/-- The members, in key order, and the lengths of their logs. -/
structure Membership where
  lengths : SortedMap WritingKey UInt64

namespace Membership

/-- The set without members. -/
def empty : Membership := ⟨.empty⟩

instance : Inhabited Membership := ⟨empty⟩

/-- The set of a list of entries; the last entry of a key counts. -/
def ofEntries (entries : List MembershipEntry) : Membership :=
  ⟨.ofList (entries.map fun entry ↦ (entry.key, entry.length))⟩

/-- The members in key order. -/
def entries (members : Membership) : List MembershipEntry :=
  members.lengths.entries.map fun entry ↦ ⟨entry.1, entry.2⟩

/-- Whether a key is a member. -/
def contains (members : Membership) (key : WritingKey) : Bool :=
  members.lengths.contains key

/-- The number of members. -/
def size (members : Membership) : Nat := members.lengths.size

/-- Whether there are no members. -/
def isEmpty (members : Membership) : Bool := members.lengths.isEmpty

/-- The set after a change; a new member starts with an empty log and a member that is added again
keeps its length. -/
def apply (members : Membership) : MembershipChange → Membership
  | .add key =>
    if members.contains key then members else ⟨members.lengths.insert key 0⟩
  | .remove key => ⟨members.lengths.erase key⟩

/-- The set after a list of changes. -/
def applyAll (members : Membership) (diff : MembershipDiff) : Membership :=
  diff.foldl apply members

/-- Whether a key is a member once pending changes are made: the last change of the key decides, and
the set does if there is none. -/
def containsAfter (members : Membership) (pending : MembershipDiff) (key : WritingKey) : Bool :=
  match pending.reverse.find? fun change ↦ change.key = key with
  | some (.add _) => true
  | some (.remove _) => false
  | none => members.contains key

/-- The number of members once pending changes are made. -/
def sizeAfter (members : Membership) (pending : MembershipDiff) : Nat :=
  (members.applyAll pending).size

/-! ### Membership after changes -/

theorem contains_apply_add (members : Membership) (key k : WritingKey) :
    (members.apply (.add key)).contains k = (decide (k = key) || members.contains k) := by
  simp only [apply]
  split
  · rename_i hmem
    by_cases hk : k = key
    · simp [hk, hmem]
    · simp [hk]
  · by_cases hk : k = key <;> simp [contains, SortedMap.contains, SortedMap.get?_insert, hk]

theorem contains_apply_remove (members : Membership) (key k : WritingKey) :
    (members.apply (.remove key)).contains k = (!decide (k = key) && members.contains k) := by
  by_cases hk : k = key <;> simp [apply, contains, SortedMap.contains, SortedMap.get?_erase, hk]

theorem applyAll_append (members : Membership) (first second : MembershipDiff) :
    members.applyAll (first ++ second) = (members.applyAll first).applyAll second :=
  List.foldl_append

end Membership

end SettlementLedger
