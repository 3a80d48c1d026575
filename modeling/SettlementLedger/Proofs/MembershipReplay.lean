import SettlementLedger.Proofs.MembershipChanges

/-!
# Membership after a list of changes

A key may join and leave several times in one list of changes. Only its last change says whether it
is a member in the end (`Membership.contains_applyAll_iff`), and only whether it ever left says
which length is recorded for it: a member that stays keeps the length of its log, and a key that
joins or comes back starts with an empty one (`Membership.length?_applyAll`).

An operation asks about the set with its own changes pending, and none of them is made. The answers,
which are found by a search for the last change, are those of the set that the changes lead to.
-/

set_option autoImplicit false
set_option relaxedAutoImplicit false

namespace SettlementLedger

/-- A change is the last one of its key in a list of changes. -/
def MembershipDiff.LastChange (diff : MembershipDiff) (change : MembershipChange) : Prop :=
  ∃ earlier later, diff = earlier ++ change :: later ∧ ∀ other ∈ later, other.key ≠ change.key

namespace Membership

variable {members : Membership} {key : WritingKey} {diff : MembershipDiff} {length : UInt64}

/-! ### Who is a member -/

/-- The search from the end finds the last change of a key. -/
theorem find?_reverse_eq_some_iff {change : MembershipChange} :
    (diff.reverse.find? fun change ↦ change.key = key) = some change ↔
      change.key = key ∧ diff.LastChange change := by
  rw [List.find?_eq_some_iff_append, decide_eq_true_iff]
  constructor
  · rintro ⟨rfl, later, earlier, hreverse, hlater⟩
    refine ⟨rfl, earlier.reverse, later.reverse, ?_, fun other hmem ↦ ?_⟩
    · rw [← List.reverse_reverse diff, hreverse, List.reverse_append, List.reverse_cons,
        List.append_assoc, List.singleton_append]
    · simpa using hlater other (List.mem_reverse.mp hmem)
  · rintro ⟨rfl, earlier, later, rfl, hlater⟩
    refine ⟨rfl, later.reverse, earlier.reverse, ?_, fun other hmem ↦ ?_⟩
    · rw [List.reverse_append, List.reverse_cons, List.append_assoc, List.singleton_append]
    · simpa using hlater other (List.mem_reverse.mp hmem)

/-- A key is a member in the end if its last change adds it, or if it has no change and was a
member. -/
theorem contains_applyAll_iff : (members.applyAll diff).contains key ↔
    diff.LastChange (.add key) ∨ (∀ change ∈ diff, change.key ≠ key) ∧ members.contains key := by
  rw [← containsAfter_eq, containsAfter]
  have hlast : diff.LastChange (.add key) →
      (diff.reverse.find? fun change ↦ change.key = key) = some (.add key) :=
    fun h ↦ find?_reverse_eq_some_iff.mpr ⟨rfl, h⟩
  cases hfind : diff.reverse.find? fun change ↦ change.key = key with
  | none =>
    rw [hfind] at hlast
    have hnone : ∀ change ∈ diff, change.key ≠ key := by simpa using hfind
    exact ⟨fun h ↦ .inr ⟨hnone, h⟩, fun h ↦ h.elim (fun h ↦ by cases hlast h) And.right⟩
  | some change =>
    obtain ⟨hkey, hchange⟩ := find?_reverse_eq_some_iff.mp hfind
    have hmem : change ∈ diff := List.mem_reverse.mp (List.mem_of_find?_eq_some hfind)
    rw [hfind] at hlast
    cases change with
    | add k =>
      obtain rfl : k = key := hkey
      exact iff_of_true rfl (.inl hchange)
    | remove k =>
      refine iff_of_false Bool.false_ne_true ?_
      rintro (h | ⟨hnone, -⟩)
      · cases hlast h
      · exact hnone _ hmem hkey

/-- As many keys are members once pending changes are made as pass the test for it. -/
theorem exists_members_after (members : Membership) (diff : MembershipDiff) :
    ∃ keys : List WritingKey, keys.Nodup ∧ keys.length = members.sizeAfter diff ∧
      ∀ key, key ∈ keys ↔ members.containsAfter diff key :=
  ⟨(members.applyAll diff).keys, nodup_keys _, length_keys _,
    fun key ↦ by rw [mem_keys_iff, containsAfter_eq]⟩

/-! ### Lengths -/

/-- The length recorded for a member. -/
def length? (members : Membership) (key : WritingKey) : Option UInt64 := members.lengths.get? key

theorem isSome_length? (members : Membership) (key : WritingKey) :
    (members.length? key).isSome = members.contains key := rfl

theorem length?_apply_add (members : Membership) (key k : WritingKey) :
    (members.apply (.add key)).length? k =
      if k = key ∧ members.contains key = false then some 0 else members.length? k := by
  simp only [apply]
  by_cases hkey : members.contains key
  · simp [hkey]
  · simp [hkey, length?, SortedMap.get?_insert]

theorem length?_apply_remove (members : Membership) (key k : WritingKey) :
    (members.apply (.remove key)).length? k = if k = key then none else members.length? k :=
  SortedMap.get?_erase members.lengths key k

/-- A member keeps its length until it is removed. -/
theorem length?_applyAll_of_stays (h : members.length? key = some length)
    (hstays : .remove key ∉ diff) : (members.applyAll diff).length? key = some length := by
  induction diff generalizing members with
  | nil => exact h
  | cons change rest ih =>
    rw [List.mem_cons, not_or] at hstays
    refine ih ?_ hstays.2
    cases change with
    | add k =>
      rw [length?_apply_add, if_neg, h]
      rintro ⟨rfl, hnot⟩
      rw [← isSome_length?, h] at hnot
      cases hnot
    | remove k =>
      have hother : key ≠ k := fun heq ↦ hstays.1 (congrArg MembershipChange.remove heq)
      rw [length?_apply_remove, if_neg hother, h]

/-- If a key is a member, its log is empty. -/
def Fresh (members : Membership) (key : WritingKey) : Prop :=
  ∀ length, members.length? key = some length → length = 0

theorem Fresh.of_not_contains (h : members.contains key = false) : members.Fresh key := by
  intro length hlength
  rw [← isSome_length?, hlength] at h
  cases h

theorem Fresh.apply (h : members.Fresh key) (change : MembershipChange) :
    (members.apply change).Fresh key := by
  intro length hlength
  cases change with
  | add k =>
    rw [length?_apply_add] at hlength
    split at hlength
    · exact (Option.some.inj hlength).symm
    · exact h length hlength
  | remove k =>
    rw [length?_apply_remove] at hlength
    split at hlength
    · cases hlength
    · exact h length hlength

theorem Fresh.applyAll (h : members.Fresh key) (diff : MembershipDiff) :
    (members.applyAll diff).Fresh key := by
  induction diff generalizing members with
  | nil => exact h
  | cons change rest ih => exact ih (h.apply change)

theorem fresh_applyAll_of_mem_remove (h : .remove key ∈ diff) :
    (members.applyAll diff).Fresh key := by
  obtain ⟨earlier, later, rfl⟩ := List.append_of_mem h
  rw [applyAll_append]
  refine Fresh.applyAll (.of_not_contains ?_) later
  rw [contains_apply_remove, decide_eq_true rfl]
  rfl

/-- In the end a member has the length that it had if it was a member and never left, and an empty
log otherwise. -/
theorem length?_applyAll (members : Membership) (diff : MembershipDiff) (key : WritingKey) :
    (members.applyAll diff).length? key =
      if (members.applyAll diff).contains key then
        if members.contains key ∧ .remove key ∉ diff then members.length? key else some 0
      else none := by
  cases hlength : (members.applyAll diff).length? key with
  | none => rw [← isSome_length?, hlength]; rfl
  | some length =>
    rw [← isSome_length? (members.applyAll diff), hlength, if_pos Option.isSome_some]
    split
    · rename_i hstays
      obtain ⟨original, horiginal⟩ := Option.isSome_iff_exists.mp hstays.1
      rw [← hlength, length?_applyAll_of_stays horiginal hstays.2]
      exact horiginal.symm
    · rename_i hleft
      have hfresh : (members.applyAll diff).Fresh key := by
        by_cases hkey : members.contains key
        · exact fresh_applyAll_of_mem_remove (Decidable.byContradiction fun h ↦ hleft ⟨hkey, h⟩)
        · exact Fresh.applyAll (.of_not_contains (eq_false_of_ne_true hkey)) diff
      rw [hfresh length hlength]

/-- **Pending changes are seen as if they were made.** The test for a member, which looks at the
last pending change of the key and otherwise at the set, answers as the set does after the changes,
in order, and the number of members is that of this set: as many keys as pass the test. After any
changes a key is a member exactly if its last change adds it, or if it has none and was a member
before. Its length is then the one that it had if it was a member and no change removes it, and
zero otherwise. -/
theorem pending_seen_as_made (members : Membership) (diff : MembershipDiff) (key : WritingKey) :
    (members.containsAfter diff key = (members.applyAll diff).contains key ∧
      members.sizeAfter diff = (members.applyAll diff).size ∧
      ∃ keys : List WritingKey, keys.Nodup ∧ keys.length = members.sizeAfter diff ∧
        ∀ k, k ∈ keys ↔ members.containsAfter diff k) ∧
    ((members.applyAll diff).contains key ↔ diff.LastChange (.add key) ∨
      (∀ change ∈ diff, change.key ≠ key) ∧ members.contains key) ∧
    (members.applyAll diff).length? key =
      if (members.applyAll diff).contains key then
        if members.contains key ∧ .remove key ∉ diff then members.length? key else some 0
      else none :=
  ⟨⟨containsAfter_eq members diff key, rfl, exists_members_after members diff⟩,
    contains_applyAll_iff, length?_applyAll members diff key⟩

end Membership

end SettlementLedger
