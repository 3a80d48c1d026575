import SettlementLedger.Proofs.DraftSteps

/-!
# What the participants hold together

The supply of a store is the sum of the balances and stakes of its node records, as a natural
number. Putting a record changes it by the difference between the new record and the one that was
read before (`Draft.supplyOn_putNode`), and no other write changes it (`Draft.supplyOn_put`).
-/

set_option autoImplicit false
set_option relaxedAutoImplicit false

namespace SettlementLedger

/-! ### Sums over a map -/

namespace SortedMap

variable {κ ν : Type} [Ord κ]

/-- The sum of a weight over the entries. -/
def total (map : SortedMap κ ν) (weight : κ × ν → Nat) : Nat :=
  map.entries.foldr (fun entry sum ↦ weight entry + sum) 0

/-- What the entry under a key adds to the sum. -/
def weightAt (map : SortedMap κ ν) (weight : κ × ν → Nat) (key : κ) : Nat :=
  (map.get? key).elim 0 fun value ↦ weight (key, value)

variable [Std.TransOrd κ] [Std.LawfulEqOrd κ]

/-- A key below the first key has no entry. -/
theorem Entries.lookup_of_lt {key k : κ} {v : ν} {rest : List (κ × ν)}
    (hsorted : Entries.Sorted ((k, v) :: rest)) (hlt : compare key k = .lt) :
    Entries.lookup key ((k, v) :: rest) = none := by
  refine Option.eq_none_iff_forall_ne_some.mpr fun value hfound ↦ ?_
  have hgt : compare k key = .gt := Std.OrientedCmp.gt_of_lt hlt
  rcases List.mem_cons.mp (Entries.mem_of_lookup hfound) with heq | hmem
  · cases heq
    exact Entries.compare_ne_lt_self key hlt
  · have hbelow : compare k key = .lt := (List.pairwise_cons.mp hsorted).1 _ hmem
    rw [hgt] at hbelow
    cases hbelow

/-- The new sum and the replaced entry come to the old sum and the new entry. -/
theorem total_insert (map : SortedMap κ ν) (weight : κ × ν → Nat) (key : κ) (value : ν) :
    (map.insert key value).total weight + map.weightAt weight key =
      map.total weight + weight (key, value) := by
  obtain ⟨entries, hsorted⟩ := map
  simp only [total, weightAt, get?, insert]
  induction entries with
  | nil => simp [Entries.insert, Entries.lookup]
  | cons head rest ih =>
    obtain ⟨k, v⟩ := head
    have hrest := ih (List.pairwise_cons.mp hsorted).2
    simp only [Entries.insert]
    split
    · rename_i hlt
      rw [Entries.lookup_of_lt hsorted hlt]
      simp only [Option.elim_none, List.foldr_cons]
      omega
    · rename_i heq
      cases Entries.compare_eq_iff.mp heq
      simp only [Entries.lookup, heq, if_true, Option.elim_some, List.foldr_cons]
      omega
    · rename_i hgt
      simp only [Entries.lookup, hgt, reduceCtorEq, if_false, List.foldr_cons]
      omega

end SortedMap

/-! ### The supply of a store -/

/-- The balance and the stake of a participant together. -/
def NodeRecord.holdings (node : NodeRecord) : Nat := node.balance.raw + node.stake.raw

namespace Store

/-- The node record that an entry is, if it is one. -/
def nodeOf? (entry : String × Bytes) : Option (Address × NodeRecord) :=
  match Address.ofText? entry.1, NodeRecord.decode entry.2 with
  | some a, .ok node => some (a, node)
  | _, _ => none

/-- The node records of a store. -/
def nodes (store : Store) : List (Address × NodeRecord) := store.entries.filterMap nodeOf?

/-- What all participants hold together. -/
def supply (store : Store) : Nat :=
  store.nodes.foldr (fun entry sum ↦ entry.2.holdings + sum) 0

theorem nodeOf?_eq_some_iff {entry : String × Bytes} {a : Address} {node : NodeRecord} :
    nodeOf? entry = some (a, node) ↔
      entry.1 = a.text ∧ NodeRecord.decode entry.2 = .ok node := by
  unfold nodeOf?
  split
  · rename_i found record ha hnode
    rw [Address.ofText?_eq_some_iff] at ha
    rw [Option.some.injEq, Prod.mk.injEq, ha, hnode, Except.ok.injEq]
    refine and_congr_left fun _ ↦ ⟨fun h ↦ h ▸ rfl, fun h ↦ ?_⟩
    exact ViewKey.node.inj (ViewKey.text_injective h)
  · rename_i hnone
    constructor
    · intro h
      cases h
    · rintro ⟨htext, hnode⟩
      exact absurd hnode (hnone a node (Address.ofText?_eq_some_iff.mpr htext))

/-- The node records of a store are those that can be read from it. -/
theorem mem_nodes_iff {store : Store} {a : Address} {node : NodeRecord} :
    (a, node) ∈ store.nodes ↔ store.view.node a = .ok (some node) := by
  rw [nodes, List.mem_filterMap, View.node, View.readAs_eq_some_iff]
  constructor
  · rintro ⟨⟨text, bytes⟩, hmem, hentry⟩
    obtain ⟨rfl, hnode⟩ := nodeOf?_eq_some_iff.mp hentry
    refine ⟨bytes, ?_, hnode⟩
    show (Except.ok (SortedMap.get? store a.text)).mapError _ = _
    rw [SortedMap.mem_entries_iff.mp hmem]
    rfl
  · rintro ⟨bytes, hread, hnode⟩
    refine ⟨(a.text, bytes), SortedMap.mem_entries_iff.mpr ?_, nodeOf?_eq_some_iff.mpr ⟨rfl, hnode⟩⟩
    exact Except.ok.inj hread

/-- No participant has two node records. -/
theorem nodes_pairwise (store : Store) :
    store.nodes.Pairwise fun first second ↦ first.1 ≠ second.1 := by
  rw [nodes, List.pairwise_filterMap]
  refine List.Pairwise.imp ?_ store.sorted
  rintro ⟨first, bytes⟩ ⟨second, bytes'⟩ hlt ⟨a, node⟩ hfirst ⟨b, node'⟩ hsecond heq
  obtain ⟨rfl, -⟩ := nodeOf?_eq_some_iff.mp hfirst
  obtain ⟨rfl, -⟩ := nodeOf?_eq_some_iff.mp hsecond
  cases heq
  exact SortedMap.Entries.compare_ne_lt_self _ hlt

/-- What an entry of a store adds to the supply. -/
def weight (entry : String × Bytes) : Nat := (nodeOf? entry).elim 0 fun found ↦ found.2.holdings

theorem supply_eq_total (store : Store) : store.supply = SortedMap.total store weight := by
  rw [supply, nodes, SortedMap.total]
  induction store.entries with
  | nil => rfl
  | cons entry rest ih =>
    cases hentry : nodeOf? entry with
    | none =>
      simp only [List.filterMap_cons, hentry, List.foldr_cons, weight, Option.elim_none,
        Nat.zero_add, ih]
    | some found =>
      simp only [List.filterMap_cons, hentry, List.foldr_cons, weight, Option.elim_some, ih]

theorem weight_node (a : Address) (node : NodeRecord) :
    weight ((ViewKey.node a).text, node.encode) = node.holdings := by
  have hentry : nodeOf? ((ViewKey.node a).text, node.encode) = some (a, node) :=
    nodeOf?_eq_some_iff.mpr ⟨rfl, NodeRecord.decode_encode node⟩
  rw [weight, hentry]
  rfl

/-- Entries that are no node records add nothing. -/
theorem weight_of_ne {key : ViewKey} (h : ∀ a, key ≠ .node a) (value : Bytes) :
    weight (key.text, value) = 0 := by
  cases hentry : nodeOf? (key.text, value) with
  | none =>
    rw [weight, hentry]
    rfl
  | some found =>
    exact absurd (ViewKey.text_injective (nodeOf?_eq_some_iff.mp hentry).1) (h found.1)

/-- What is stored of a participant is its encoded record. -/
theorem get?_node {store : Store} {a : Address} {node : NodeRecord}
    (h : store.view.node a = .ok (some node)) :
    store.get? (ViewKey.node a).text = some node.encode := by
  obtain ⟨bytes, hread, hnode⟩ := View.readAs_eq_some_iff.mp h
  rw [NodeRecord.encode_of_decode hnode]
  exact Except.ok.inj hread

/-- The entry of a participant adds what its record holds. -/
theorem weightAt_node {store : Store} {a : Address} {node? : Option NodeRecord}
    (h : store.view.node a = .ok node?) :
    SortedMap.weightAt store weight (ViewKey.node a).text = (node?.getD {}).holdings := by
  cases node? with
  | none =>
    have hread : SortedMap.get? store (ViewKey.node a).text = none :=
      Except.ok.inj (View.readAs_eq_none_iff.mp h)
    rw [SortedMap.weightAt, hread]
    rfl
  | some node =>
    rw [SortedMap.weightAt, get?_node h]
    exact weight_node a node

theorem commit_insert (store : Store) (writes : WriteSet) (key : String) (value : Bytes) :
    store.commit (writes.insert key value) = SortedMap.insert (store.commit writes) key value := by
  refine SortedMap.ext_get? fun k ↦ ?_
  simp only [commit, SortedMap.get?_merge, SortedMap.get?_insert]
  by_cases hk : k = key
  · simp only [hk, if_true, Option.some_or]
  · simp only [hk, if_false]

end Store

/-! ### The supply of a draft -/

namespace Draft

variable {store : Store} {draft : Draft}

/-- The supply of a store after the writes of a draft are committed to it. -/
def supplyOn (draft : Draft) (store : Store) : Nat := Store.supply (store.commit draft.staged)

theorem supplyOn_start (store : Store) : ({ base := store.view } : Draft).supplyOn store =
    store.supply := rfl

theorem view_eq_commit (h : draft.base = store.view) :
    draft.view = Store.view (store.commit draft.staged) := by
  rw [Store.view_commit, Draft.view, h]

/-- Only node records count. -/
@[simp] theorem supplyOn_put (draft : Draft) {key : ViewKey} (h : ∀ a, key ≠ .node a)
    (value : Bytes) (store : Store) :
    (draft.put key value).supplyOn store = draft.supplyOn store := by
  have htotal := SortedMap.total_insert (store.commit draft.staged) Store.weight key.text value
  have hold : SortedMap.weightAt (store.commit draft.staged) Store.weight key.text = 0 := by
    rw [SortedMap.weightAt]
    cases SortedMap.get? (store.commit draft.staged) key.text with
    | none => rfl
    | some bytes => exact Store.weight_of_ne h bytes
  rw [supplyOn, supplyOn, put, stage, Store.commit_insert, Store.supply_eq_total,
    Store.supply_eq_total]
  rw [hold, Store.weight_of_ne h value] at htotal
  exact htotal

/-- A record that is put replaces the record that was read. -/
theorem supplyOn_putNode (hbase : draft.base = store.view) {address : Address}
    {node? : Option NodeRecord} (hnode : draft.view.node address = .ok node?)
    (node : NodeRecord) :
    (draft.putNode address node).supplyOn store + (node?.getD {}).holdings =
      draft.supplyOn store + node.holdings := by
  rw [view_eq_commit hbase] at hnode
  have htotal := SortedMap.total_insert (store.commit draft.staged) Store.weight
    (ViewKey.node address).text node.encode
  rw [Store.weightAt_node hnode, Store.weight_node] at htotal
  rw [supplyOn, supplyOn, putNode, put, stage, Store.commit_insert, Store.supply_eq_total,
    Store.supply_eq_total]
  exact htotal

/-- A record that gets another balance. -/
theorem supplyOn_putBalance (hbase : draft.base = store.view) {address : Address}
    {node? : Option NodeRecord} (hnode : draft.view.node address = .ok node?) (balance : Amount) :
    (draft.putNode address { node?.getD {} with balance }).supplyOn store +
        (node?.getD {}).balance.raw = draft.supplyOn store + balance.raw := by
  have hput := supplyOn_putNode hbase hnode { node?.getD {} with balance }
  simp only [NodeRecord.holdings] at hput ⊢
  omega

/-- A record that holds what the record before it held. -/
theorem supplyOn_putSame (hbase : draft.base = store.view) {address : Address}
    {node? : Option NodeRecord} (hnode : draft.view.node address = .ok node?) {node : NodeRecord}
    (h : node.holdings = (node?.getD {}).holdings) :
    (draft.putNode address node).supplyOn store = draft.supplyOn store := by
  have hput := supplyOn_putNode hbase hnode node
  omega

@[simp] theorem supplyOn_putWriterOwner (draft : Draft) (key : WritingKey) (address : Address)
    (store : Store) : (draft.putWriterOwner key address).supplyOn store = draft.supplyOn store :=
  draft.supplyOn_put (by simp) _ store

theorem supplyOn_of_licenseOf {address : Address} {node : NodeRecord} {license : UInt32}
    {result : Draft} (h : draft.licenseOf address node = .ok (license, result)) (store : Store) :
    result.supplyOn store = draft.supplyOn store := by
  rcases licenseOf_eq_ok.mp h with ⟨-, -, rfl⟩ | ⟨-, count, -, -, rfl⟩
  · rfl
  · rw [supplyOn_put _ (by simp), supplyOn_put _ (by simp)]

theorem supplyOn_of_bindWriter {key : WritingKey} {address : Address} {result : Draft}
    (h : draft.bindWriter key address = .ok result) (store : Store) :
    result.supplyOn store = draft.supplyOn store := by
  rcases bindWriter_eq_ok.mp h with ⟨-, rfl⟩ | ⟨-, position, length, -, -, rfl⟩
  · rfl
  · rw [appendWriter, supplyOn_putWriterOwner, supplyOn_put _ (by simp), supplyOn_put _ (by simp)]

theorem supplyOn_of_addMember {members : Membership} {key : WritingKey} {result : Draft}
    (h : draft.addMember members key = .ok result) (store : Store) :
    result.supplyOn store = draft.supplyOn store := by
  obtain ⟨-, rfl⟩ := addMember_eq_ok.mp h
  rfl

theorem supplyOn_of_removeMember {members : Membership} {key : WritingKey} {result : Draft}
    (h : draft.removeMember members key = .ok result) (store : Store) :
    result.supplyOn store = draft.supplyOn store := by
  rcases removeMember_eq_ok.mp h with ⟨-, -, rfl⟩ | ⟨-, rfl⟩ <;> rfl

end Draft

end SettlementLedger
