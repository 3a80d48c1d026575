import SettlementLedger.Proofs.Administration
import SettlementLedger.Proofs.Footprint

/-!
# The writer registry has no gaps

A writing key that is bound for the first time takes the next position of the registry; a key that
its owner comes back under takes none, and neither does the fresh key of a recovery
(`Operation.RegistryStep`). So the registry can be laid out as two lists, of the participants at the
positions and of the bindings in the order in which they were made (`View.Lists`), and every applied
operation extends both at the end, the second alone, or neither.

The counts follow: the bindings outnumber the positions by the recoveries, all of them made for the
administrator, who stands at the first position and at no other (`Replica.Enrolled`).
-/

set_option autoImplicit false
set_option relaxedAutoImplicit false

namespace SettlementLedger

/-! ### What an operation may do to the registry -/

namespace View

variable {before middle after : View} {key : WritingKey} {a : Address}

/-- No position, no binding and no length has changed. -/
structure SameRegistry (before after : View) : Prop where
  length : after.writersLength = before.writersLength
  position : ∀ i, after.writerAt i = before.writerAt i
  owner : ∀ k, after.writerOwner k = before.writerOwner k

/-- A writing key that was bound to nobody is bound. -/
structure Binds (before after : View) (key : WritingKey) (a : Address) : Prop where
  unbound : before.writerOwner key = .ok none
  owner : ∀ k, after.writerOwner k = if k = key then .ok (some a) else before.writerOwner k

/-- A writing key is bound, and its owner takes the position after the last one. -/
structure Appends (before after : View) (key : WritingKey) (a : Address) : Prop
    extends before.Binds after key a where
  place : ∃ position length, before.writersLength = .ok position ∧
    Counter.next? position = some length ∧ after.writersLength = .ok length ∧
      ∀ i, after.writerAt i = if i = position then .ok (some a) else before.writerAt i

/-- A writing key is bound, and nobody takes a position. -/
structure Rotates (before after : View) (key : WritingKey) (a : Address) : Prop
    extends before.Binds after key a where
  length : after.writersLength = before.writersLength
  position : ∀ i, after.writerAt i = before.writerAt i

/-- A participant comes under a writing key: its own, or one that was bound to nobody. -/
def Enters (before after : View) (key : WritingKey) (a : Address) : Prop :=
  (before.writerOwner key = .ok (some a) ∧ before.SameRegistry after) ∨ before.Appends after key a

theorem writersLength_congr (h : after.read .writersLength = before.read .writersLength) :
    after.writersLength = before.writersLength := by
  rw [writersLength, writersLength, readAs_congr h]

theorem SameRegistry.trans (h : before.SameRegistry middle) (h' : middle.SameRegistry after) :
    before.SameRegistry after where
  length := h'.length.trans h.length
  position i := (h'.position i).trans (h.position i)
  owner k := (h'.owner k).trans (h.owner k)

theorem SameRegistry.enters (h : before.SameRegistry middle) (h' : middle.Enters after key a) :
    before.Enters after key a := by
  rcases h' with ⟨howner, hsame⟩ | happends
  · exact Or.inl ⟨(h.owner key).symm.trans howner, h.trans hsame⟩
  · obtain ⟨position, length, hposition, hnext, hlength, hat⟩ := happends.place
    refine Or.inr ⟨⟨(h.owner key).symm.trans happends.unbound, fun k ↦ ?_⟩, position, length,
      h.length.symm.trans hposition, hnext, hlength, fun i ↦ ?_⟩
    · rw [happends.owner, h.owner]
    · rw [hat, h.position]

theorem Enters.same (h : before.Enters middle key a) (h' : middle.SameRegistry after) :
    before.Enters after key a := by
  rcases h with ⟨howner, hsame⟩ | happends
  · exact Or.inl ⟨howner, hsame.trans h'⟩
  · obtain ⟨position, length, hposition, hnext, hlength, hat⟩ := happends.place
    exact Or.inr ⟨⟨happends.unbound, fun k ↦ (h'.owner k).trans (happends.owner k)⟩, position,
      length, hposition, hnext, h'.length.trans hlength, fun i ↦ (h'.position i).trans (hat i)⟩

end View

namespace Draft

variable {draft result : Draft} {key : WritingKey} {address : Address}

/-- Entries besides those of the registry do not matter. -/
theorem sameRegistry_of_read {after : View}
    (h : ∀ entry : ViewKey, entry.shape ∈ [.writersLength, .writerAt, .writerOwner] →
      after.read entry = draft.view.read entry) : draft.view.SameRegistry after where
  length := View.writersLength_congr (h .writersLength (by simp [ViewKey.shape]))
  position i := View.readAs_congr (h (.writerAt i) (by simp [ViewKey.shape])) _
  owner k := View.readAs_congr (h (.writerOwner k) (by simp [ViewKey.shape])) _

theorem sameRegistry_put (draft : Draft) {entry : ViewKey}
    (hentry : entry.shape ∉ [.writersLength, .writerAt, .writerOwner]) (value : Bytes) :
    draft.view.SameRegistry (draft.put entry value).view := by
  refine sameRegistry_of_read fun other hother ↦ (draft.read_put _ _ _).trans (if_neg ?_)
  rintro rfl
  exact hentry hother

theorem sameRegistry_putNode (draft : Draft) (address : Address) (node : NodeRecord) :
    draft.view.SameRegistry (draft.putNode address node).view :=
  draft.sameRegistry_put (by simp [ViewKey.shape]) _

theorem MovesBalances.sameRegistry (h : draft.MovesBalances result) :
    draft.view.SameRegistry result.view := by
  refine sameRegistry_of_read fun entry hentry ↦ h.read entry ?_
  rintro a rfl
  simp [ViewKey.shape] at hentry

theorem sameRegistry_of_licenseOf {node : NodeRecord} {license : UInt32}
    (h : draft.licenseOf address node = .ok (license, result)) :
    draft.view.SameRegistry result.view := by
  refine sameRegistry_of_read fun entry hentry ↦ read_of_licenseOf h ?_ fun l ↦ ?_
  · rintro rfl
    simp [ViewKey.shape] at hentry
  · rintro rfl
    simp [ViewKey.shape] at hentry

theorem enters_of_bindWriter (h : draft.bindWriter key address = .ok result) :
    draft.view.Enters result.view key address := by
  have howner := writerOwner_of_bindWriter h
  rcases bindWriter_eq_ok.mp h with ⟨hself, rfl⟩ | ⟨hnone, position, length, hposition, hnext, rfl⟩
  · exact Or.inl ⟨hself, ⟨rfl, fun _ ↦ rfl, fun _ ↦ rfl⟩⟩
  · refine Or.inr ⟨⟨hnone, howner⟩, position, length, hposition, hnext, ?_, fun i ↦ ?_⟩
    · rw [View.writersLength, appendWriter, putWriterOwner, readAs_put_of_ne _ (by simp),
        readAs_put_self _ _ (Counter.decode_encode length)]
      rfl
    · rw [View.writerAt, appendWriter, putWriterOwner, readAs_put_of_ne _ (by simp),
        readAs_put_of_ne _ (by simp)]
      by_cases hi : i = position
      · rw [if_pos hi, hi]
        exact readAs_put_self _ _ (View.decodeEntry_bytes address)
      · rw [if_neg hi]
        exact readAs_put_of_ne _ (fun hkey ↦ hi (ViewKey.writerAt.inj hkey)) _ _

end Draft

/-- What an applied operation does to the writer registry between two views. -/
inductive Operation.RegistryStep (op : Operation) (before after : View) : Prop
  /-- Nothing changes. A registration can only leave the registry alone if its key was bound. -/
  | keeps (kind : op.kind ≠ .adminRecovery)
      (bound : op.kind = .addAdmin → ∃ key, before.writerOwner key = .ok (some op.requester))
      (same : before.SameRegistry after) : RegistryStep op before after
  /-- The requester becomes a writer under a new key. -/
  | appends (key : WritingKey) (kind : op.kind = .addAdmin ∨ op.kind = .addWriter)
      (appends : before.Appends after key op.requester) : RegistryStep op before after
  /-- The administrator moves to a new key. -/
  | rotates (key : WritingKey) (kind : op.kind = .adminRecovery)
      (administers : before.Administers op.requester)
      (rotates : before.Rotates after key op.requester) : RegistryStep op before after

/-- The administrator is the one who recovers, and the key that it moves to is bound to it. -/
theorem Operation.StandingStep.binds_of_adminRecovery {op : Operation} {bootstrap : WritingKey}
    {members : Membership} {before after : View} {changes : MembershipDiff}
    (h : op.StandingStep bootstrap members before after changes)
    (hkind : op.kind = .adminRecovery) :
    before.Administers op.requester ∧ ∃ key, before.Binds after key op.requester := by
  cases h with
  | recovers admin node key kind body isAdmin requester unbound member absent found adminAfter
      enrolls =>
    rw [requester]
    exact ⟨⟨admin, isAdmin, rfl⟩, key, unbound, enrolls.writerOwner⟩
  | keeps kind | registers _ kind | whitelists _ _ _ _ kind | bans _ _ _ kind | promotes _ _ _ kind
  | demotes _ _ _ _ kind | enlists _ _ _ kind | releases _ _ _ kind => simp [hkind] at kind

namespace Setting

variable {setting : Setting} {draft result : Draft} {key : WritingKey}

theorem enters_of_addAdmin (h : setting.addAdmin draft key = .ok result) :
    draft.view.Enters result.view key setting.operation.requester := by
  obtain ⟨-, -, node?, -, license, licensed, hlicensed, balance, -, stake, -, bound, hbound,
    rfl⟩ := addAdmin_eq_ok.mp h
  have hbefore := (Draft.sameRegistry_of_licenseOf hlicensed).enters
    ((licensed.sameRegistry_putNode _ _).enters (Draft.enters_of_bindWriter hbound))
  have hafter : bound.view.SameRegistry ((bound.put .admin _).put .initialization [1]).view :=
    (bound.sameRegistry_put (by simp [ViewKey.shape])
      (AdminRecord.encode ⟨setting.operation.requester, key⟩)).trans
        (Draft.sameRegistry_put _ (by simp [ViewKey.shape]) _)
  exact hbefore.same hafter

theorem enters_of_addWriter (h : setting.addWriter draft key = .ok result) :
    draft.view.Enters result.view key setting.operation.requester := by
  obtain ⟨node, -, -, -, -, fee, -, required, -, -, validator, -, balance, -, stake, -, bound,
    hbound, hsettle⟩ := addWriter_eq_ok.mp h
  exact ((draft.sameRegistry_putNode setting.operation.requester _).enters
    (Draft.enters_of_bindWriter hbound)).same (movesBalances_of_settle hsettle).sameRegistry

/-- Two kinds of operations bring a participant under a writing key. -/
theorem enters_of_rule (h : setting.rule draft = .ok result)
    (hkind : setting.operation.kind = .addAdmin ∨ setting.operation.kind = .addWriter) :
    ∃ key, draft.view.Enters result.view key setting.operation.requester := by
  cases ruling_of_rule h with
  | addAdmin key kind body ok => exact ⟨key, enters_of_addAdmin ok⟩
  | addWriter key kind body ok => exact ⟨key, enters_of_addWriter ok⟩
  | disableInitialization key kind body ok | balanceInitialization target amount kind body ok
  | appendWhitelist target kind body ok | banValidator target kind body ok
  | addIndexer target kind body ok | removeIndexer target kind body ok
  | removeWriter key kind body ok | adminRecovery key kind body ok
  | transfer recipient amount kind body ok | transaction writer content external ledger kind body ok
  | bootstrapDeployment bootstrap channel kind body ok =>
    simp [kind] at hkind

end Setting

namespace Replica.Applied

variable {replica : Replica} {delivery : Delivery} {op : Operation} {effect : Effect}
  {initializing : Bool} {draft : Draft}

/-- Besides the recovery, only the operations that bring a participant under a writing key may write
the registry. -/
theorem sameRegistry (h : replica.Applied delivery op effect initializing draft)
    (hkind : op.kind ∉ [.addAdmin, .addWriter, .adminRecovery]) :
    replica.store.view.SameRegistry
      (replica.commit effect.writes effect.changes).store.view := by
  simp only [List.mem_cons, List.not_mem_nil, or_false, not_or] at hkind
  refine ⟨View.writersLength_congr (h.read_eq (by simp) ?_),
    fun i ↦ View.readAs_congr (h.read_eq (by simp) ?_) _,
    fun k ↦ View.readAs_congr (h.read_eq (by simp) ?_) _⟩
  · simp [Operation.MayWrite, hkind]
  · simp [Operation.MayWrite, hkind]
  · simp [Operation.MayWrite, hkind]

/-- A recovery may not write the positions, and it binds the key that it moves to. -/
theorem rotates (h : replica.Applied delivery op effect initializing draft)
    (hkind : op.kind = .adminRecovery) :
    ∃ key, replica.store.view.Administers op.requester ∧ replica.store.view.Rotates
      (replica.commit effect.writes effect.changes).store.view key op.requester := by
  have hlength := View.writersLength_congr
    (h.read_eq (by simp) (by simp [Operation.MayWrite, hkind]))
  have hposition (i : UInt32) : View.writerAt _ i = View.writerAt _ i :=
    View.readAs_congr (h.read_eq (by simp) (by simp [Operation.MayWrite, hkind])) _
  obtain ⟨hadministers, key, hbinds⟩ := h.standingStep.binds_of_adminRecovery hkind
  exact ⟨key, hadministers, hbinds, hlength, hposition⟩

/-- An applied operation takes one of the three ways. -/
theorem registryStep (h : replica.Applied delivery op effect initializing draft) :
    op.RegistryStep replica.store.view
      (replica.commit effect.writes effect.changes).store.view := by
  by_cases hrecovery : op.kind = .adminRecovery
  · obtain ⟨key, hadministers, hrotates⟩ := h.rotates hrecovery
    exact .rotates key hrecovery hadministers hrotates
  by_cases hkind : op.kind = .addAdmin ∨ op.kind = .addWriter
  · obtain ⟨key, henters⟩ := Setting.enters_of_rule h.rule hkind
    have hmarker : draft.view.SameRegistry
        (replica.commit effect.writes effect.changes).store.view := by
      rw [h.view]
      exact draft.sameRegistry_put (by simp [ViewKey.shape]) delivery.bytes
    rcases henters.same hmarker with ⟨howner, hsame⟩ | happends
    · exact .keeps hrecovery (fun _ ↦ ⟨key, howner⟩) hsame
    · exact .appends key hkind happends
  · refine .keeps hrecovery (fun hadd ↦ absurd (Or.inl hadd) hkind) (h.sameRegistry ?_)
    simpa [not_or, and_assoc] using And.intro (not_or.mp hkind) hrecovery

end Replica.Applied

/-! ### The registry as two lists -/

namespace View

variable {before after : View} {positions : List Address}
  {bindings : List (WritingKey × Address)} {key : WritingKey} {a : Address}

/-- The registry of a view: the participants at its positions, and the writing keys that are bound,
each of them once, in the order of their bindings. -/
structure Lists (view : View) (positions : List Address) (bindings : List (WritingKey × Address)) :
    Prop where
  length : ∃ n, view.writersLength = .ok n ∧ n.toNat = positions.length
  position : ∀ i : UInt32, view.writerAt i = .ok positions[i.toNat]?
  owner : ∀ k, view.writerOwner k = .ok (bindings.lookup k)
  distinct : (bindings.map Prod.fst).Nodup

namespace Lists

theorem same (h : before.Lists positions bindings) (hsame : before.SameRegistry after) :
    after.Lists positions bindings where
  length := by
    rw [hsame.length]
    exact h.length
  position i := (hsame.position i).trans (h.position i)
  owner k := (hsame.owner k).trans (h.owner k)
  distinct := h.distinct

theorem lookup_eq_none (h : before.Lists positions bindings) (hbinds : before.Binds after key a) :
    bindings.lookup key = none :=
  Except.ok.inj ((h.owner key).symm.trans hbinds.unbound)

/-- A new binding goes to the end. -/
theorem owner_concat (h : before.Lists positions bindings) (hbinds : before.Binds after key a)
    (k : WritingKey) : after.writerOwner k = .ok ((bindings ++ [(key, a)]).lookup k) := by
  rw [hbinds.owner, List.lookup_append]
  by_cases hk : k = key
  · rw [if_pos hk, hk, h.lookup_eq_none hbinds, List.lookup_cons_self, Option.none_or]
  · have hlast : [(key, a)].lookup k = none := by
      rw [List.lookup_cons, beq_false_of_ne hk]
      rfl
    rw [if_neg hk, h.owner, hlast, Option.or_none]

theorem distinct_concat (h : before.Lists positions bindings) (hbinds : before.Binds after key a) :
    ((bindings ++ [(key, a)]).map Prod.fst).Nodup := by
  rw [List.map_append, List.map_singleton, List.nodup_append]
  refine ⟨h.distinct, List.pairwise_singleton _ _, fun k hk other hother ↦ ?_⟩
  obtain ⟨binding, hbinding, rfl⟩ := List.mem_map.mp hk
  have hne := List.lookup_eq_none_iff.mp (h.lookup_eq_none hbinds) binding hbinding
  rw [List.mem_singleton.mp hother]
  exact (bne_iff_ne.mp hne).symm

theorem appends (h : before.Lists positions bindings) (happends : before.Appends after key a) :
    after.Lists (positions ++ [a]) (bindings ++ [(key, a)]) := by
  obtain ⟨position, length, hposition, hnext, hlength, hat⟩ := happends.place
  obtain ⟨n, hn, hcount⟩ := h.length
  cases hposition.symm.trans hn
  have hsucc := Counter.next?_eq_some hnext
  refine ⟨⟨length, hlength, ?_⟩, fun i ↦ ?_, h.owner_concat happends.toBinds,
    h.distinct_concat happends.toBinds⟩
  · rw [List.length_append, List.length_singleton, hsucc, hcount]
  · rw [hat, h.position]
    by_cases hi : i = position
    · rw [if_pos hi, hi, hcount, List.getElem?_concat_length]
    · have hne : i.toNat ≠ positions.length := fun heq ↦
        hi (UInt32.toNat_inj.mp (heq.trans hcount.symm))
      rw [if_neg hi, List.getElem?_append]
      by_cases hlt : i.toNat < positions.length
      · rw [if_pos hlt]
      · rw [if_neg hlt, List.getElem?_eq_none (by omega), List.getElem?_eq_none]
        rw [List.length_singleton]
        omega

theorem rotates (h : before.Lists positions bindings) (hrotates : before.Rotates after key a) :
    after.Lists positions (bindings ++ [(key, a)]) where
  length := by
    rw [hrotates.length]
    exact h.length
  position i := (hrotates.position i).trans (h.position i)
  owner := h.owner_concat hrotates.toBinds
  distinct := h.distinct_concat hrotates.toBinds

theorem writerAt_eq_some_iff (h : before.Lists positions bindings) {i : UInt32} :
    before.writerAt i = .ok (some a) ↔ positions[i.toNat]? = some a := by
  rw [h.position, Except.ok.injEq]

/-- The positions below the length are taken, and no others. -/
theorem exists_writerAt_iff (h : before.Lists positions bindings) {n : UInt32}
    (hlength : n.toNat = positions.length) (i : UInt32) :
    (∃ a, before.writerAt i = .ok (some a)) ↔ i < n := by
  simp only [h.writerAt_eq_some_iff, UInt32.lt_iff_toNat_lt, hlength]
  constructor
  · rintro ⟨a, ha⟩
    exact (List.getElem?_eq_some_iff.mp ha).1
  · intro hlt
    exact ⟨_, List.getElem?_eq_getElem hlt⟩

theorem eq_nil (h : before.Lists positions bindings) (hzero : before.writersLength = .ok 0) :
    positions = [] := by
  obtain ⟨n, hn, hcount⟩ := h.length
  cases hzero.symm.trans hn
  exact List.length_eq_zero_iff.mp hcount.symm

/-- The registry of an empty store. -/
theorem of_empty {store : Store} (h : store = .empty) : store.view.Lists [] [] := by
  subst h
  exact ⟨⟨0, rfl, rfl⟩, fun _ ↦ rfl, fun _ ↦ rfl, List.nodup_nil⟩

end Lists

/-- The registry of a view after a number of recoveries. -/
structure Counts (view : View) (recoveries : Nat) (positions : List Address)
    (bindings : List (WritingKey × Address)) : Prop where
  lists : view.Lists positions bindings
  /-- A recovery binds a key without a position. -/
  counted : positions.length + recoveries = bindings.length
  /-- Everybody but the administrator has as many positions as keys. -/
  others : ∀ b, ¬ view.Administers b → positions.count b = (bindings.map Prod.snd).count b
  /-- The administrator comes first and takes no other position. -/
  admin : ∀ b, view.Administers b → ∃ rest, positions = b :: rest ∧ b ∉ rest

namespace Counts

variable {recoveries : Nat}

theorem same (h : before.Counts recoveries positions bindings) (hsame : before.SameRegistry after)
    (hadmin : ∀ b, after.Administers b ↔ before.Administers b) :
    after.Counts recoveries positions bindings where
  lists := h.lists.same hsame
  counted := h.counted
  others b hb := h.others b (mt (hadmin b).mpr hb)
  admin b hb := h.admin b ((hadmin b).mp hb)

/-- The first participant of an empty registry becomes the administrator. -/
theorem founds (h : before.Lists [] []) (happends : before.Appends after key a)
    (hadmin : ∀ b, after.Administers b ↔ b = a) : after.Counts 0 [a] [(key, a)] where
  lists := h.appends happends
  counted := rfl
  others b _ := rfl
  admin b hb := ⟨[], by rw [(hadmin b).mp hb], List.not_mem_nil⟩

theorem appends (h : before.Counts recoveries positions bindings)
    (happends : before.Appends after key a)
    (hadmin : ∀ b, after.Administers b ↔ before.Administers b) (ha : ¬ before.Administers a) :
    after.Counts recoveries (positions ++ [a]) (bindings ++ [(key, a)]) where
  lists := h.lists.appends happends
  counted := by
    rw [List.length_append, List.length_append, ← h.counted]
    exact Nat.add_right_comm _ _ _
  others b hb := by
    rw [List.map_append, List.count_append, List.count_append, h.others b (mt (hadmin b).mpr hb)]
    rfl
  admin b hb := by
    obtain ⟨rest, rfl, hrest⟩ := h.admin b ((hadmin b).mp hb)
    refine ⟨rest ++ [a], rfl, fun hmem ↦ ?_⟩
    rcases List.mem_append.mp hmem with hearlier | hlast
    · exact hrest hearlier
    · rw [List.mem_singleton.mp hlast] at hb
      exact ha ((hadmin a).mp hb)

theorem rotates (h : before.Counts recoveries positions bindings)
    (hrotates : before.Rotates after key a)
    (hadmin : ∀ b, after.Administers b ↔ before.Administers b) (ha : before.Administers a) :
    after.Counts (recoveries + 1) positions (bindings ++ [(key, a)]) where
  lists := h.lists.rotates hrotates
  counted := by
    rw [List.length_append, ← h.counted]
    rfl
  others b hb := by
    have hne : b ∉ [(key, a)].map Prod.snd := by
      rintro hmem
      rw [List.mem_singleton.mp hmem] at hb
      exact hb ((hadmin a).mpr ha)
    rw [List.map_append, List.count_append, List.count_eq_zero.mpr hne,
      h.others b (mt (hadmin b).mpr hb)]
    rfl
  admin b hb := h.admin b ((hadmin b).mp hb)

/-- The administrator is at the first position and at no other. -/
theorem writerAt_admin_iff (h : before.Counts recoveries positions bindings)
    (ha : before.Administers a) (i : UInt32) : before.writerAt i = .ok (some a) ↔ i = 0 := by
  obtain ⟨rest, rfl, hrest⟩ := h.admin a ha
  rw [h.lists.writerAt_eq_some_iff, ← UInt32.toNat_inj]
  cases hi : i.toNat with
  | zero => exact ⟨fun _ ↦ rfl, fun _ ↦ rfl⟩
  | succ m =>
    rw [List.getElem?_cons_succ]
    exact ⟨fun hsome ↦ absurd (List.mem_of_getElem? hsome) hrest, nofun⟩

end Counts

end View

/-! ### Runs -/

namespace Replica

open View

variable {replica : Replica} {delivery : Delivery} {op : Operation} {effect : Effect}
  {initializing : Bool} {draft : Draft} {kinds : List Kind} {positions : List Address}
  {bindings : List (WritingKey × Address)}

/-- The registry of a replica against the kinds of the operations that it has applied. -/
structure Enrolled (replica : Replica) (kinds : List Kind) (positions : List Address)
    (bindings : List (WritingKey × Address)) : Prop where
  stands : replica.MembersStand
  registered : replica.Registered kinds
  counts : replica.store.view.Counts (kinds.count .adminRecovery) positions bindings

namespace Enrolled

theorem fresh (engine : Engine) (bootstrap : WritingKey) (txValidity : Hash) :
    (fresh engine bootstrap txValidity).Enrolled [] [] [] where
  stands := membersStand_fresh engine bootstrap txValidity
  registered := .empty rfl
  counts := ⟨.of_empty rfl, rfl, fun _ _ ↦ rfl, fun _ ⟨_, hadmin, _⟩ ↦ nomatch hadmin⟩

/-- The registration finds an empty registry, and its requester takes the first position. -/
theorem applied_addAdmin (h : replica.Enrolled kinds positions bindings)
    (happlied : replica.Applied delivery op effect initializing draft)
    (hkind : op.kind = .addAdmin) : ∃ positions' bindings', positions <+: positions' ∧
      (replica.commit effect.writes effect.changes).store.view.Counts
        ((kinds ++ [op.kind]).count .adminRecovery) positions' bindings' := by
  have hnone := (happlied.entitled.registers hkind).1
  cases h.registered with
  | administered admin later isAdmin once => cases hnone.symm.trans isAdmin
  | empty store =>
    have hempty := View.Lists.of_empty store
    have hpositions : positions = [] := h.counts.lists.eq_nil (by rw [store]; rfl)
    rw [hpositions, hkind]
    cases happlied.registryStep with
    | keeps kind bound same =>
      obtain ⟨key, howner⟩ := bound hkind
      cases (hempty.owner key).symm.trans howner
    | appends key kind appends =>
      exact ⟨[op.requester], [(key, op.requester)], List.nil_prefix,
        .founds hempty appends (happlied.administers_of_addAdmin hkind)⟩
    | rotates key kind administers rotates => cases hkind.symm.trans kind

/-- Once there is an administrator, the registry grows at the end or stays as it is. -/
theorem applied_governed (h : replica.Enrolled kinds positions bindings)
    (happlied : replica.Applied delivery op effect initializing draft)
    (hkind : op.kind ≠ .addAdmin) : ∃ positions' bindings', positions <+: positions' ∧
      (replica.commit effect.writes effect.changes).store.view.Counts
        ((kinds ++ [op.kind]).count .adminRecovery) positions' bindings' := by
  have hgoverned := happlied.governed h.registered h.stands hkind
  have hadmin := happlied.administers_iff hgoverned
  have hother (hne : op.kind ≠ .adminRecovery) :
      (kinds ++ [op.kind]).count .adminRecovery = kinds.count .adminRecovery := by
    rw [List.count_append, List.count_eq_zero.mpr fun hmem ↦ hne (List.mem_singleton.mp hmem).symm]
    rfl
  cases happlied.registryStep with
  | keeps kind bound same =>
    rw [hother kind]
    exact ⟨positions, bindings, List.prefix_rfl, h.counts.same same hadmin⟩
  | appends key kind appends =>
    have hadd := kind.resolve_left hkind
    rw [hother (by simp [hadd])]
    exact ⟨_, _, List.prefix_append _ _, h.counts.appends appends hadmin
      (happlied.standingStep.not_administers_of_addWriter hadd hgoverned.adminStands)⟩
  | rotates key kind administers rotates =>
    rw [kind, List.count_append, List.count_singleton_self]
    exact ⟨positions, _, List.prefix_rfl, h.counts.rotates rotates hadmin administers⟩

/-- An applied operation extends the registry at the end. -/
theorem applied (h : replica.Enrolled kinds positions bindings)
    (happlied : replica.Applied delivery op effect initializing draft) :
    ∃ positions' bindings', positions <+: positions' ∧
      (replica.commit effect.writes effect.changes).Enrolled (kinds ++ [op.kind]) positions'
        bindings' := by
  have hcounts : ∃ positions' bindings', positions <+: positions' ∧
      (replica.commit effect.writes effect.changes).store.view.Counts
        ((kinds ++ [op.kind]).count .adminRecovery) positions' bindings' := by
    by_cases hkind : op.kind = .addAdmin
    · exact h.applied_addAdmin happlied hkind
    · exact h.applied_governed happlied hkind
  obtain ⟨positions', bindings', hprefix, hcounts⟩ := hcounts
  exact ⟨positions', bindings', hprefix, happlied.standingStep.membersStand h.stands,
    h.registered.applied happlied, hcounts⟩

end Enrolled

/-- A run extends the registry at the end. -/
theorem enrolled_run {history : List Taken}
    (h : replica.Enrolled (history.filterMap Taken.appliedKind?) positions bindings)
    (events : List ReplicaEvent) : ∃ positions' bindings', positions <+: positions' ∧
      (replica.run events).Enrolled
        ((history ++ replica.history events).filterMap Taken.appliedKind?) positions'
          bindings' := by
  refine history_induction
    (P := fun replica history ↦ ∃ positions' bindings', positions <+: positions' ∧
      replica.Enrolled (history.filterMap Taken.appliedKind?) positions' bindings')
    ?_ ?_ ?_ replica history ⟨positions, bindings, List.prefix_rfl, h⟩ events
  · rintro replica history digest ⟨positions', bindings', hprefix, h⟩
    exact ⟨positions', bindings', hprefix, h.stands, h.registered.moved digest, h.counts⟩
  · rintro replica history delivery identity refusal ⟨positions', bindings', hprefix, h⟩ -
    rw [appliedKinds_skipped]
    exact ⟨positions', bindings', hprefix, h⟩
  · rintro replica history delivery op effect ⟨positions', bindings', hprefix, h⟩ heffect
    obtain ⟨initializing, draft, happlied⟩ := applied_of_effect heffect
    obtain ⟨positions'', bindings'', hextends, hafter⟩ := h.applied happlied
    rw [appliedKinds_applied]
    exact ⟨positions'', bindings'', hprefix.trans hextends, hafter⟩

/-- **The writer registry has no gaps and counts bindings.** After every run from the empty store
the positions below the length of the registry are taken and no others, and the writing keys that
are bound are as many as the positions and the applied recoveries together. Everybody but the
administrator has as many positions as keys; the administrator has the first position and no other.
Whatever happens next, who is at a position stays there. -/
theorem writer_registry_gap_free (engine : Engine) (bootstrap : WritingKey) (txValidity : Hash)
    (events : List ReplicaEvent) :
    let replica := (fresh engine bootstrap txValidity).run events
    let view := replica.store.view
    let kinds := (fresh engine bootstrap txValidity).appliedKinds events
    ∃ n positions bindings, view.writersLength = .ok n ∧ view.Lists positions bindings ∧
      (∀ i, (∃ a, view.writerAt i = .ok (some a)) ↔ i < n) ∧
      n.toNat + kinds.count .adminRecovery = bindings.length ∧
      (∀ a, ¬ view.Administers a → positions.count a = (bindings.map Prod.snd).count a) ∧
      (∀ a, view.Administers a → ∀ i, view.writerAt i = .ok (some a) ↔ i = 0) ∧
      ∀ later i a, view.writerAt i = .ok (some a) →
        (replica.run later).store.view.writerAt i = .ok (some a) := by
  intro replica view kinds
  have hfresh : (fresh engine bootstrap txValidity).Enrolled
      ([].filterMap Taken.appliedKind?) [] [] := .fresh engine bootstrap txValidity
  obtain ⟨positions, bindings, -, h⟩ := enrolled_run hfresh events
  have hcounts : view.Counts (kinds.count .adminRecovery) positions bindings := h.counts
  obtain ⟨n, hn, hlength⟩ := hcounts.lists.length
  refine ⟨n, positions, bindings, hn, hcounts.lists, hcounts.lists.exists_writerAt_iff hlength,
    hlength ▸ hcounts.counted, hcounts.others, fun a ha ↦ hcounts.writerAt_admin_iff ha,
    fun later i a hat ↦ ?_⟩
  obtain ⟨positions', bindings', ⟨rest, rfl⟩, hlater⟩ := enrolled_run h later
  rw [hcounts.lists.writerAt_eq_some_iff] at hat
  rw [hlater.counts.lists.writerAt_eq_some_iff,
    List.getElem?_append_left (List.getElem?_eq_some_iff.mp hat).1]
  exact hat

end Replica

end SettlementLedger
