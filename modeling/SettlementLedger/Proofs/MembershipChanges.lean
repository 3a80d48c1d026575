import SettlementLedger.Membership

/-!
# Membership changes

An operation sees the membership set through the changes that it has asked for so far, without
making them. What it sees is the set after those changes (`Membership.containsAfter_eq`). A key
leaves the set only while another member stays (`Membership.Removal`).
-/

set_option autoImplicit false
set_option relaxedAutoImplicit false

namespace SettlementLedger.Membership

variable {members : Membership} {key : WritingKey} {changes : MembershipDiff}

/-- The last change of a key decides, as if all changes were made in order. -/
theorem containsAfter_eq (members : Membership) (pending : MembershipDiff) (key : WritingKey) :
    members.containsAfter pending key = (members.applyAll pending).contains key := by
  rw [containsAfter, applyAll, List.foldl_eq_foldr_reverse]
  induction pending.reverse with
  | nil => rfl
  | cons change earlier ih =>
    rw [List.foldr_cons]
    cases change with
    | add k =>
      rw [contains_apply_add]
      by_cases hk : k = key
      · simp [MembershipChange.key, hk]
      · simpa [MembershipChange.key, hk, Ne.symm hk] using ih
    | remove k =>
      rw [contains_apply_remove]
      by_cases hk : k = key
      · simp [MembershipChange.key, hk]
      · simpa [MembershipChange.key, hk, Ne.symm hk] using ih

theorem contains_add_iff (members : Membership) (key k : WritingKey) :
    (members.apply (.add key)).contains k ↔ k = key ∨ members.contains k := by
  rw [contains_apply_add, Bool.or_eq_true, decide_eq_true_iff]

theorem contains_remove_iff (members : Membership) (key k : WritingKey) :
    (members.apply (.remove key)).contains k ↔ k ≠ key ∧ members.contains k := by
  rw [contains_apply_remove, Bool.and_eq_true, Bool.not_eq_true', decide_eq_false_iff_not]

theorem contains_eq_true_iff :
    members.contains key ↔ ∃ length, (key, length) ∈ members.lengths.entries := by
  simp only [contains, SortedMap.contains, Option.isSome_iff_exists, SortedMap.mem_entries_iff]

theorem isEmpty_eq_false_iff : members.isEmpty = false ↔ ∃ key, members.contains key := by
  simp only [contains_eq_true_iff, isEmpty, SortedMap.isEmpty]
  cases members.lengths.entries with
  | nil => simp
  | cons entry rest =>
    obtain ⟨k, length⟩ := entry
    simp only [List.isEmpty_cons, true_iff]
    exact ⟨k, length, List.mem_cons_self⟩

/-! ### The keys of the members -/

/-- The writing keys of the members, in order. -/
def keys (members : Membership) : List WritingKey := members.lengths.entries.map Prod.fst

theorem mem_keys_iff : key ∈ members.keys ↔ members.contains key := by
  rw [contains_eq_true_iff, keys, List.mem_map]
  constructor
  · rintro ⟨⟨_, length⟩, hmem, rfl⟩
    exact ⟨length, hmem⟩
  · rintro ⟨length, hmem⟩
    exact ⟨(key, length), hmem, rfl⟩

@[simp] theorem length_keys (members : Membership) : members.keys.length = members.size :=
  List.length_map _

/-- No key is listed twice. -/
theorem nodup_keys (members : Membership) : members.keys.Nodup := by
  refine List.pairwise_map.mpr (members.lengths.sorted.imp ?_)
  intro first second hlt heq
  rw [heq] at hlt
  exact SortedMap.Entries.compare_ne_lt_self second.1 hlt

/-- The members of a list of entries are the keys of the entries. -/
theorem contains_ofEntries_iff (entries : List MembershipEntry) (key : WritingKey) :
    (ofEntries entries).contains key ↔ key ∈ entries.map MembershipEntry.key := by
  have hinsert (map : SortedMap WritingKey UInt64) :
      (map.insertAll (entries.map fun entry ↦ (entry.key, entry.length))).contains key ↔
        key ∈ entries.map MembershipEntry.key ∨ map.contains key := by
    induction entries generalizing map with
    | nil => simp [SortedMap.insertAll]
    | cons entry rest ih =>
      refine (ih (map.insert entry.key entry.length)).trans ?_
      simp only [SortedMap.contains, SortedMap.get?_insert, List.map_cons, List.mem_cons]
      by_cases hkey : key = entry.key <;> simp [hkey]
  exact (hinsert .empty).trans (or_iff_left Bool.false_ne_true)

/-- Two members are more than one. -/
theorem one_lt_size_of_ne {other : WritingKey} (hkey : members.contains key)
    (hother : members.contains other) (hne : key ≠ other) : 1 < members.size := by
  rw [← mem_keys_iff] at hkey hother
  rw [← length_keys]
  match hkeys : members.keys with
  | [] => simp [hkeys] at hkey
  | [first] =>
    rw [hkeys, List.mem_singleton] at hkey hother
    exact absurd (hkey.trans hother.symm) hne
  | first :: second :: rest => exact Nat.one_lt_succ_succ _

/-- Of two members at least one is not a given key. -/
theorem exists_other_of_one_lt_size (h : 1 < members.size) (key : WritingKey) :
    ∃ other, other ≠ key ∧ members.contains other := by
  simp only [contains_eq_true_iff]
  have hsorted := members.lengths.sorted
  have hlength : 1 < members.lengths.entries.length := h
  match hentries : members.lengths.entries with
  | [] | [_] => simp [hentries] at hlength
  | (first, n) :: (second, m) :: rest =>
    rw [hentries] at hsorted
    have hlt : compare first second = .lt :=
      (List.pairwise_cons.mp hsorted).1 _ List.mem_cons_self
    by_cases hfirst : first = key
    · refine ⟨second, fun hsecond ↦ ?_, m, by simp⟩
      rw [hfirst, hsecond] at hlt
      exact SortedMap.Entries.compare_ne_lt_self key hlt
    · exact ⟨first, hfirst, n, by simp⟩

/-- A key that joins makes the set larger by one. -/
theorem size_add (h : ¬ members.contains key) :
    (members.apply (.add key)).size = members.size + 1 := by
  have hnodup : (key :: members.keys).Nodup :=
    List.nodup_cons.mpr ⟨fun hmem ↦ h (mem_keys_iff.mp hmem), members.nodup_keys⟩
  have hperm : (members.apply (.add key)).keys.Perm (key :: members.keys) :=
    (List.perm_ext_iff_of_nodup (nodup_keys _) hnodup).mpr fun k ↦ by
      rw [mem_keys_iff, contains_add_iff, List.mem_cons, mem_keys_iff]
  rw [← length_keys, hperm.length_eq, List.length_cons, length_keys]

/-- A member that leaves makes the set smaller by one. -/
theorem size_remove (h : members.contains key) :
    (members.apply (.remove key)).size + 1 = members.size := by
  have hleft (k : WritingKey) : k ∈ (members.apply (.remove key)).keys ↔
      k ≠ key ∧ members.contains k := by
    rw [mem_keys_iff, contains_remove_iff]
  have hnodup : (key :: (members.apply (.remove key)).keys).Nodup :=
    List.nodup_cons.mpr ⟨fun hmem ↦ ((hleft key).mp hmem).1 rfl, nodup_keys _⟩
  have hperm : (key :: (members.apply (.remove key)).keys).Perm members.keys := by
    refine (List.perm_ext_iff_of_nodup hnodup members.nodup_keys).mpr fun k ↦ ?_
    rw [List.mem_cons, hleft, mem_keys_iff]
    by_cases hk : k = key
    · simp [hk, h]
    · simp [hk]
  rw [← length_keys, ← length_keys, ← hperm.length_eq, List.length_cons]

/-- What asking for a key to leave comes to: a member leaves while another one stays, and nothing
happens to a key that is no member. -/
def Removal (members : Membership) (key : WritingKey) (changes : MembershipDiff) : Prop :=
  (members.contains key ∧ 1 < members.size ∧ changes = [.remove key]) ∨
    (¬ members.contains key ∧ changes = [])

theorem Removal.of_contains (h : members.Removal key changes) (hkey : members.contains key) :
    1 < members.size ∧ changes = [.remove key] := by
  rcases h with ⟨-, hsize, hchanges⟩ | ⟨hnot, -⟩
  · exact ⟨hsize, hchanges⟩
  · exact absurd hkey hnot

end SettlementLedger.Membership
