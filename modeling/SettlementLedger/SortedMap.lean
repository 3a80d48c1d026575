/-!
# Finite maps in key order

A sorted map is a list of entries whose keys increase strictly, so that iteration follows the key
order and two maps with equal look-ups are equal (`SortedMap.ext_get?`). Each operation is described
by what it does to look-ups: `get?_insert`, `get?_erase` and `get?_merge`.
-/

set_option autoImplicit false
set_option relaxedAutoImplicit false

namespace SettlementLedger

variable {κ ν : Type}

namespace SortedMap.Entries

variable [Ord κ]

/-- The value of the first entry with a key. -/
def lookup (key : κ) : List (κ × ν) → Option ν
  | [] => none
  | (k, v) :: rest => if compare key k = .eq then some v else lookup key rest

/-- One pass that puts an entry at its place and replaces an entry with the same key. -/
def insert (key : κ) (value : ν) : List (κ × ν) → List (κ × ν)
  | [] => [(key, value)]
  | (k, v) :: rest =>
    match compare key k with
    | .lt => (key, value) :: (k, v) :: rest
    | .eq => (key, value) :: rest
    | .gt => (k, v) :: insert key value rest

/-- The entries under other keys. -/
def erase (key : κ) (entries : List (κ × ν)) : List (κ × ν) :=
  entries.filter fun entry ↦ compare key entry.1 ≠ .eq

/-- Keys increase strictly. -/
def Sorted (entries : List (κ × ν)) : Prop :=
  entries.Pairwise fun a b ↦ compare a.1 b.1 = .lt

theorem mem_insert {key : κ} {value : ν} {entry : κ × ν} {entries : List (κ × ν)}
    (h : entry ∈ insert key value entries) : entry = (key, value) ∨ entry ∈ entries := by
  induction entries with
  | nil => simp_all [insert]
  | cons head rest ih =>
    obtain ⟨k, v⟩ := head
    simp only [insert] at h
    split at h
    · exact (List.mem_cons.mp h).imp_right id
    · exact (List.mem_cons.mp h).imp_right (List.mem_cons_of_mem _)
    · rcases List.mem_cons.mp h with h | h
      · exact Or.inr (h ▸ List.mem_cons_self)
      · exact (ih h).imp_right (List.mem_cons_of_mem _)

variable [Std.TransOrd κ] [Std.LawfulEqOrd κ]

omit [Std.TransOrd κ] in
theorem compare_eq_iff {a b : κ} : compare a b = .eq ↔ a = b :=
  Std.LawfulEqCmp.compare_eq_iff_eq

omit [Std.TransOrd κ] in
theorem compare_ne_lt_self (a : κ) : compare a a ≠ .lt := by
  rw [compare_eq_iff.mpr rfl]
  decide

theorem sorted_insert (key : κ) (value : ν) {entries : List (κ × ν)} (h : Sorted entries) :
    Sorted (insert key value entries) := by
  induction entries with
  | nil => simp [insert, Sorted]
  | cons head rest ih =>
    obtain ⟨k, v⟩ := head
    have hrest := List.pairwise_cons.mp h
    simp only [insert]
    split
    · rename_i hlt
      refine List.pairwise_cons.mpr ⟨?_, h⟩
      intro entry hentry
      rcases List.mem_cons.mp hentry with rfl | hentry
      · exact hlt
      · exact Std.TransCmp.lt_trans hlt (hrest.1 entry hentry)
    · rename_i heq
      have hkey : key = k := compare_eq_iff.mp heq
      subst hkey
      exact List.pairwise_cons.mpr hrest
    · rename_i hgt
      refine List.pairwise_cons.mpr ⟨?_, ih hrest.2⟩
      intro entry hentry
      rcases mem_insert hentry with rfl | hentry
      · exact Std.OrientedCmp.lt_of_gt hgt
      · exact hrest.1 entry hentry

omit [Std.TransOrd κ] [Std.LawfulEqOrd κ] in
theorem sorted_erase (key : κ) {entries : List (κ × ν)} (h : Sorted entries) :
    Sorted (erase key entries) :=
  List.Pairwise.filter _ h

omit [Std.TransOrd κ] in
theorem lookup_insert [DecidableEq κ] (key : κ) (value : ν) (entries : List (κ × ν)) (k : κ) :
    lookup k (insert key value entries) = if k = key then some value else lookup k entries := by
  induction entries with
  | nil => simp [insert, lookup]
  | cons head rest ih =>
    obtain ⟨k', v⟩ := head
    simp only [insert]
    split
    · simp [lookup]
    · rename_i heq
      have hkey : key = k' := compare_eq_iff.mp heq
      subst hkey
      by_cases hk : k = key <;> simp [lookup, hk]
    · rename_i hgt
      have hne : key ≠ k' := fun h ↦ by
        rw [compare_eq_iff.mpr h] at hgt
        cases hgt
      by_cases hk : k = k'
      · subst hk
        simp [lookup, Ne.symm hne]
      · simp [lookup, hk, ih]

omit [Std.TransOrd κ] in
theorem lookup_erase [DecidableEq κ] (key : κ) (entries : List (κ × ν)) (k : κ) :
    lookup k (erase key entries) = if k = key then none else lookup k entries := by
  induction entries with
  | nil => simp [erase, lookup]
  | cons head rest ih =>
    obtain ⟨k', v⟩ := head
    simp only [erase] at ih ⊢
    by_cases hkey : key = k'
    · subst hkey
      by_cases hk : k = key <;> simp_all [lookup]
    · by_cases hk : k = k'
      · subst hk
        simp [hkey, Ne.symm hkey, lookup]
      · simp_all [lookup]

omit [Std.TransOrd κ] in
theorem mem_of_lookup {key : κ} {value : ν} {entries : List (κ × ν)}
    (h : lookup key entries = some value) : (key, value) ∈ entries := by
  induction entries with
  | nil => simp [lookup] at h
  | cons head rest ih =>
    obtain ⟨k, v⟩ := head
    simp only [lookup, compare_eq_iff] at h
    split at h
    · rename_i hk
      simp_all
    · exact List.mem_cons_of_mem _ (ih h)

omit [Std.LawfulEqOrd κ] in
theorem lookup_of_mem {key : κ} {value : ν} {entries : List (κ × ν)} (hs : Sorted entries)
    (h : (key, value) ∈ entries) : lookup key entries = some value := by
  induction entries with
  | nil => simp at h
  | cons head rest ih =>
    obtain ⟨k, v⟩ := head
    have hrest := List.pairwise_cons.mp hs
    rcases List.mem_cons.mp h with heq | hmem
    · cases heq
      simp [lookup, Std.ReflCmp.compare_self]
    · have hlt : compare k key = .lt := hrest.1 _ hmem
      have hgt : compare key k = .gt := Std.OrientedCmp.gt_of_lt hlt
      simp [lookup, hgt, ih hrest.2 hmem]

/-- Sorted entry lists with the same look-ups are the same list. -/
theorem eq_of_lookup_eq {first second : List (κ × ν)} (hf : Sorted first) (hs : Sorted second)
    (h : ∀ key, lookup key first = lookup key second) : first = second := by
  have hmem : ∀ entry, entry ∈ first ↔ entry ∈ second := fun ⟨k, v⟩ ↦
    ⟨fun hm ↦ mem_of_lookup ((h k).symm.trans (lookup_of_mem hf hm)),
      fun hm ↦ mem_of_lookup ((h k).trans (lookup_of_mem hs hm))⟩
  have hnodup : ∀ {entries : List (κ × ν)}, Sorted entries → entries.Nodup := fun hsorted ↦
    List.Pairwise.imp (fun {a b} hlt (heq : a = b) ↦
      compare_ne_lt_self a.1 (by rw [← heq] at hlt; exact hlt)) hsorted
  have hperm : first.Perm second :=
    (List.perm_ext_iff_of_nodup (hnodup hf) (hnodup hs)).mpr hmem
  refine hperm.eq_of_pairwise ?_ hf hs
  intro a b _ _ hab hba
  rw [Std.OrientedCmp.gt_of_lt hba] at hab
  cases hab

end SortedMap.Entries

/-- A finite map whose entries are kept in key order. -/
structure SortedMap (κ ν : Type) [Ord κ] where
  entries : List (κ × ν)
  sorted : SortedMap.Entries.Sorted entries

namespace SortedMap

section Order

variable [Ord κ]

instance [DecidableEq κ] [DecidableEq ν] : DecidableEq (SortedMap κ ν) := fun a b ↦
  decidable_of_iff (a.entries = b.entries) ⟨fun h ↦ by cases a; cases b; simp_all, fun h ↦ h ▸ rfl⟩

/-- The map without entries. -/
def empty : SortedMap κ ν :=
  ⟨[], List.Pairwise.nil⟩

instance : Inhabited (SortedMap κ ν) := ⟨empty⟩

/-- The value under a key. -/
def get? (map : SortedMap κ ν) (key : κ) : Option ν :=
  Entries.lookup key map.entries

/-- Whether a key has a value. -/
def contains (map : SortedMap κ ν) (key : κ) : Bool :=
  (map.get? key).isSome

/-- The number of entries. -/
def size (map : SortedMap κ ν) : Nat :=
  map.entries.length

/-- Whether there are no entries. -/
def isEmpty (map : SortedMap κ ν) : Bool :=
  map.entries.isEmpty

/-- The map without an entry under a key. -/
def erase (map : SortedMap κ ν) (key : κ) : SortedMap κ ν :=
  ⟨Entries.erase key map.entries, Entries.sorted_erase key map.sorted⟩

end Order

variable [Ord κ] [Std.TransOrd κ] [Std.LawfulEqOrd κ]

/-- The map with a value put under a key, replacing the value that was there. -/
def insert (map : SortedMap κ ν) (key : κ) (value : ν) : SortedMap κ ν :=
  ⟨Entries.insert key value map.entries, Entries.sorted_insert key value map.sorted⟩

/-- The map with every entry of a list inserted from left to right. -/
def insertAll (map : SortedMap κ ν) (entries : List (κ × ν)) : SortedMap κ ν :=
  entries.foldl (fun m entry ↦ m.insert entry.1 entry.2) map

/-- The map that holds the entries of a list; the last entry under a key counts. -/
def ofList (entries : List (κ × ν)) : SortedMap κ ν :=
  empty.insertAll entries

/-- The map overridden by the entries of a second one. -/
def merge (map overrides : SortedMap κ ν) : SortedMap κ ν :=
  map.insertAll overrides.entries

/-! ### Look-ups determine the map -/

@[ext] theorem ext_get? {first second : SortedMap κ ν}
    (h : ∀ key, first.get? key = second.get? key) : first = second := by
  have hentries := Entries.eq_of_lookup_eq first.sorted second.sorted h
  cases first
  cases second
  simp_all

omit [Std.TransOrd κ] [Std.LawfulEqOrd κ] in
@[simp] theorem get?_empty (key : κ) : (empty : SortedMap κ ν).get? key = none := rfl

theorem get?_insert [DecidableEq κ] (map : SortedMap κ ν) (key : κ) (value : ν) (k : κ) :
    (map.insert key value).get? k = if k = key then some value else map.get? k :=
  Entries.lookup_insert key value map.entries k

omit [Std.TransOrd κ] in
theorem get?_erase [DecidableEq κ] (map : SortedMap κ ν) (key k : κ) :
    (map.erase key).get? k = if k = key then none else map.get? k :=
  Entries.lookup_erase key map.entries k

theorem mem_entries_iff {map : SortedMap κ ν} {key : κ} {value : ν} :
    (key, value) ∈ map.entries ↔ map.get? key = some value :=
  ⟨Entries.lookup_of_mem map.sorted, Entries.mem_of_lookup⟩

theorem get?_insertAll_of_notMem (map : SortedMap κ ν) {entries : List (κ × ν)} {key : κ}
    (h : ∀ entry ∈ entries, entry.1 ≠ key) : (map.insertAll entries).get? key = map.get? key := by
  classical
  induction entries generalizing map with
  | nil => rfl
  | cons head rest ih =>
    have hstep := ih (map.insert head.1 head.2)
      fun entry hentry ↦ h entry (List.mem_cons_of_mem _ hentry)
    have hne : key ≠ head.1 := (h head List.mem_cons_self).symm
    simpa [insertAll, get?_insert, hne] using hstep

/-- A merged map answers from the overriding map first. -/
theorem get?_merge (map overrides : SortedMap κ ν) (key : κ) :
    (map.merge overrides).get? key = (overrides.get? key).or (map.get? key) := by
  classical
  obtain ⟨entries, hsorted⟩ := overrides
  simp only [merge, get?]
  induction entries generalizing map with
  | nil => rfl
  | cons head rest ih =>
    obtain ⟨k, v⟩ := head
    have hrest := List.pairwise_cons.mp hsorted
    by_cases hk : key = k
    · subst hk
      have hfresh : ∀ entry ∈ rest, entry.1 ≠ key := fun entry hentry heq ↦ by
        have hlt := hrest.1 entry hentry
        rw [heq] at hlt
        exact Entries.compare_ne_lt_self key hlt
      have h := get?_insertAll_of_notMem (map.insert key v) hfresh
      simp only [get?_insert, if_true] at h
      simpa [insertAll, Entries.lookup, Std.ReflCmp.compare_self, get?] using h
    · have h := ih (map.insert k v) hrest.2
      have hins := get?_insert map k v key
      simp only [get?, hk, if_false] at hins
      simpa [insertAll, Entries.lookup, Entries.compare_eq_iff, hk, hins] using h

end SortedMap

end SettlementLedger
