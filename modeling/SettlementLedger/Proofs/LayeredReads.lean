import SettlementLedger.Proofs.LastWrites
import SettlementLedger.Transition.Draft

/-!
# Layers read like flat maps

A write is staged in the draft and moves down: a merge takes it to the batch and a commit from
there to the store, unless the layer that holds it is dropped first. So the steps after a write say
where it lies (`Layers.Staged`, `Layers.Pending`, `Layers.Committed`), and each of the three maps
holds, of every key, the last write that lies there (`Layers.Holds`).

No write lies above a newer one, since a layer moves as a whole (`Layers.Staged.not_below`,
`Layers.Pending.not_committed`). Therefore a read through a layer answers the last write of all that
lie in this layer or below it: what shadows is what is newer.
-/

set_option autoImplicit false
set_option relaxedAutoImplicit false

namespace SettlementLedger

namespace LayerStep

/-- Whether a step takes the writes out of the draft. -/
def EmptiesDraft : LayerStep → Prop
  | .merge | .dropDraft | .dropBatch => True
  | .put _ _ | .commit => False

/-- Whether a step takes the writes out of the batch. -/
def EmptiesBatch : LayerStep → Prop
  | .commit | .dropBatch => True
  | .put _ _ | .merge | .dropDraft => False

theorem put_injective (key : String) : Function.Injective (put key) :=
  fun _ _ h ↦ (put.inj h).2

end LayerStep

/-- A view answers every read with the last write of the key that counts. -/
def View.Recalls (view : View) (past : List LayerStep) (counts : List LayerStep → Prop) : Prop :=
  ∀ key, ∃ found, view key = .ok found ∧
    ∀ other, LastWrite (.put key) counts past other ↔ other = found

/-- A view answers a read with the last write of the key that counts, and where there is none it
falls through to another view. -/
def View.FallsThrough (view base : View) (past : List LayerStep)
    (counts : List LayerStep → Prop) : Prop :=
  ∀ key, ∃ found, (view key = match found with
      | some value => .ok (some value)
      | none => base key) ∧
    ∀ other, LastWrite (.put key) counts past other ↔ other = found

namespace Layers

variable {later : List LayerStep} {step : LayerStep}

/-! ### Where a write lies -/

/-- After these steps a write still lies in the draft. -/
def Staged (later : List LayerStep) : Prop := ∀ step ∈ later, ¬ step.EmptiesDraft

/-- After these steps a write lies in the batch: it was merged, and neither dropped nor committed
since. -/
def Pending (later : List LayerStep) : Prop :=
  ∃ before since, later = before ++ .merge :: since ∧ Staged before ∧
    ∀ step ∈ since, ¬ step.EmptiesBatch

/-- After these steps a write lies in the store: it was in a batch that was committed. -/
def Committed (later : List LayerStep) : Prop :=
  ∃ before since, later = before ++ .commit :: since ∧ Pending before

theorem staged_nil : Staged [] := fun _ hmem ↦ absurd hmem List.not_mem_nil

theorem not_pending_nil : ¬ Pending [] := by
  rintro ⟨before, since, hlater, -⟩
  cases before <;> cases hlater

theorem not_committed_nil : ¬ Committed [] := by
  rintro ⟨before, since, hlater, -⟩
  cases before <;> cases hlater

theorem staged_concat : Staged (later ++ [step]) ↔ Staged later ∧ ¬ step.EmptiesDraft := by
  simp only [Staged, List.forall_mem_append, List.forall_mem_singleton]

theorem pending_concat : Pending (later ++ [step]) ↔
    (Pending later ∧ ¬ step.EmptiesBatch) ∨ (step = .merge ∧ Staged later) := by
  constructor
  · rintro ⟨before, since, hlater, hbefore, hsince⟩
    rcases concat_eq_append_cons hlater with ⟨rfl, hstep, -⟩ | ⟨between, rfl, rfl⟩
    · exact Or.inr ⟨hstep.symm, hbefore⟩
    · obtain ⟨hbetween, hlast⟩ := List.forall_mem_append.mp hsince
      exact Or.inl ⟨⟨before, between, rfl, hbefore, hbetween⟩, hlast step List.mem_cons_self⟩
  · rintro (⟨⟨before, since, rfl, hbefore, hsince⟩, hstep⟩ | ⟨rfl, hstaged⟩)
    · refine ⟨before, since ++ [step], ?_, hbefore, ?_⟩
      · rw [List.append_assoc, List.cons_append]
      · exact List.forall_mem_append.mpr ⟨hsince, List.forall_mem_singleton.mpr hstep⟩
    · exact ⟨later, [], rfl, hstaged, fun _ hmem ↦ absurd hmem List.not_mem_nil⟩

theorem committed_concat : Committed (later ++ [step]) ↔
    Committed later ∨ (step = .commit ∧ Pending later) := by
  constructor
  · rintro ⟨before, since, hlater, hbefore⟩
    rcases concat_eq_append_cons hlater with ⟨rfl, hstep, -⟩ | ⟨between, rfl, rfl⟩
    · exact Or.inr ⟨hstep.symm, hbefore⟩
    · exact Or.inl ⟨before, between, rfl, hbefore⟩
  · rintro (⟨before, since, rfl, hbefore⟩ | ⟨rfl, hpending⟩)
    · exact ⟨before, since ++ [step], by rw [List.append_assoc, List.cons_append], hbefore⟩
    · exact ⟨later, [], rfl, hpending⟩

/-! ### Newer writes lie above older ones -/

theorem Pending.mem_merge (h : Pending later) : .merge ∈ later := by
  obtain ⟨before, since, rfl, -⟩ := h
  exact List.mem_append_right _ List.mem_cons_self

theorem Committed.mem_merge (h : Committed later) : .merge ∈ later := by
  obtain ⟨before, since, rfl, hpending⟩ := h
  exact List.mem_append_left _ hpending.mem_merge

theorem Staged.not_mem_merge (h : Staged later) : .merge ∉ later :=
  fun hmem ↦ h _ hmem trivial

/-- The writes of a batch were merged after the last commit. -/
theorem Pending.not_mem_merge {before since : List LayerStep}
    (h : Pending (before ++ .commit :: since)) : .merge ∉ before := by
  obtain ⟨waiting, merged, hlater, hwaiting, hmerged⟩ := h
  -- The merge that put the write into the batch is after the commit, since no commit is after it.
  rcases List.append_eq_append_iff.mp hlater with ⟨gap, rfl, -⟩ | ⟨gap, rfl, hgap⟩
  · exact fun hmem ↦ hwaiting.not_mem_merge (List.mem_append_left _ hmem)
  · cases gap with
    | nil => cases hgap
    | cons first gap =>
      have hcommit : .commit ∈ merged := by
        rw [(List.cons.inj hgap).2]
        exact List.mem_append_right _ List.mem_cons_self
      exact absurd trivial (hmerged _ hcommit)

variable {front rest : List LayerStep}

/-- After a write that lies in the draft none is written that lies below it. -/
theorem Staged.not_below (h : Staged (front ++ step :: rest)) :
    ¬ (Pending rest ∨ Committed rest) := by
  have hmerge (hmem : .merge ∈ rest) : False :=
    h.not_mem_merge (List.mem_append_right _ (List.mem_cons_of_mem _ hmem))
  rintro (hpending | hcommitted)
  · exact hmerge hpending.mem_merge
  · exact hmerge hcommitted.mem_merge

/-- After a write that lies in the batch none is written that lies in the store. -/
theorem Pending.not_committed (h : Pending (front ++ step :: rest)) : ¬ Committed rest := by
  rintro ⟨before, since, rfl, hpending⟩
  rw [← List.cons_append, ← List.append_assoc] at h
  exact h.not_mem_merge (List.mem_append_right _ (List.mem_cons_of_mem _ hpending.mem_merge))

/-! ### Last writes, step by step -/

variable {past : List LayerStep} {key : String} {found found' : Option Bytes}

theorem committed_stays (h : LastWrite (.put key) Committed past found) (hstep : step ≠ .commit) :
    LastWrite (.put key) Committed (past ++ [step]) found := by
  refine LastWrite.concat (h.congr fun later ↦ ?_) fun _ _ ↦ not_committed_nil
  rw [committed_concat, or_iff_left fun hcommit ↦ hstep hcommit.1]

/-- A commit puts the batch over the store. -/
theorem committed_concat_commit (h : LastWrite (.put key) Pending past found)
    (h' : LastWrite (.put key) Committed past found') :
    LastWrite (.put key) Committed (past ++ [.commit]) (found.or found') := by
  have hjoined := h.or h' fun _ _ _ ↦ Pending.not_committed
  refine LastWrite.concat (hjoined.congr fun later ↦ ?_) fun _ _ ↦ not_committed_nil
  rw [committed_concat, or_comm, and_iff_right rfl]

theorem pending_stays (h : LastWrite (.put key) Pending past found) (hstep : ¬ step.EmptiesBatch)
    (hmerge : step ≠ .merge) : LastWrite (.put key) Pending (past ++ [step]) found := by
  refine LastWrite.concat (h.congr fun later ↦ ?_) fun _ _ ↦ not_pending_nil
  rw [pending_concat, or_iff_left fun hstaged ↦ hmerge hstaged.1, and_iff_left hstep]

/-- A merge puts the draft over the batch. -/
theorem pending_concat_merge (h : LastWrite (.put key) Staged past found)
    (h' : LastWrite (.put key) Pending past found') :
    LastWrite (.put key) Pending (past ++ [.merge]) (found.or found') := by
  have hjoined := h.or h' fun _ _ _ hstaged hpending ↦ hstaged.not_below (.inl hpending)
  have hkeeps : ¬ LayerStep.merge.EmptiesBatch := not_false
  refine LastWrite.concat (hjoined.congr fun later ↦ ?_) fun _ _ ↦ not_pending_nil
  rw [pending_concat, or_comm, and_iff_left hkeeps, and_iff_right rfl]

theorem pending_emptied (hstep : step.EmptiesBatch) :
    LastWrite (.put key) Pending (past ++ [step]) none := by
  refine LastWrite.concat (.of_never fun later ↦ ?_) fun _ _ ↦ not_pending_nil
  rw [pending_concat]
  rintro (⟨-, hkeeps⟩ | ⟨rfl, -⟩)
  · exact hkeeps hstep
  · exact hstep

theorem staged_stays (h : LastWrite (.put key) Staged past found) (hstep : ¬ step.EmptiesDraft)
    (hput : ∀ v, .put key v ≠ step) : LastWrite (.put key) Staged (past ++ [step]) found := by
  refine LastWrite.concat (h.congr fun later ↦ ?_) fun v hv ↦ absurd hv (hput v)
  rw [staged_concat, and_iff_left hstep]

theorem staged_emptied (hstep : step.EmptiesDraft) :
    LastWrite (.put key) Staged (past ++ [step]) none := by
  refine LastWrite.concat (.of_never fun later ↦ ?_) fun v hv ↦ ?_
  · rw [staged_concat]
    exact fun hstaged ↦ hstaged.2 hstep
  · rw [← hv] at hstep
    exact hstep.elim

/-! ### What the layers hold -/

variable {layers : Layers}

/-- Each layer holds, of every key, the last write of a history that lies in it. -/
structure Holds (layers : Layers) (past : List LayerStep) : Prop where
  store : ∀ key, LastWrite (.put key) Committed past (layers.store.get? key)
  pending : ∀ key, LastWrite (.put key) Pending past (layers.pending.get? key)
  staged : ∀ key, LastWrite (.put key) Staged past (layers.staged.get? key)

namespace Holds

theorem empty : Holds {} [] where
  store _ := .nil
  pending _ := .nil
  staged _ := .nil

theorem put (h : layers.Holds past) (key : String) (value : Bytes) :
    (layers.step (.put key value)).Holds (past ++ [.put key value]) where
  store k := committed_stays (h.store k) (fun hstep ↦ by cases hstep)
  pending k := pending_stays (h.pending k) not_false (fun hstep ↦ by cases hstep)
  staged k := by
    show LastWrite (.put k) Staged _ ((layers.staged.insert key value).get? k)
    rw [SortedMap.get?_insert]
    by_cases hk : k = key
    · rw [if_pos hk, hk]
      exact .concat_self staged_nil
    · rw [if_neg hk]
      exact staged_stays (h.staged k) not_false fun _ hput ↦ hk (LayerStep.put.inj hput).1

theorem merge (h : layers.Holds past) : (layers.step .merge).Holds (past ++ [.merge]) where
  store k := committed_stays (h.store k) (fun hstep ↦ by cases hstep)
  pending k := by
    show LastWrite (.put k) Pending _ ((layers.pending.merge layers.staged).get? k)
    rw [SortedMap.get?_merge]
    exact pending_concat_merge (h.staged k) (h.pending k)
  staged _ := staged_emptied trivial

theorem dropDraft (h : layers.Holds past) :
    (layers.step .dropDraft).Holds (past ++ [.dropDraft]) where
  store k := committed_stays (h.store k) (fun hstep ↦ by cases hstep)
  pending k := pending_stays (h.pending k) not_false (fun hstep ↦ by cases hstep)
  staged _ := staged_emptied trivial

theorem dropBatch (h : layers.Holds past) :
    (layers.step .dropBatch).Holds (past ++ [.dropBatch]) where
  store k := committed_stays (h.store k) (fun hstep ↦ by cases hstep)
  pending _ := pending_emptied trivial
  staged _ := staged_emptied trivial

theorem commit (h : layers.Holds past) : (layers.step .commit).Holds (past ++ [.commit]) where
  store k := by
    show LastWrite (.put k) Committed _ ((layers.store.merge layers.pending).get? k)
    rw [SortedMap.get?_merge]
    exact committed_concat_commit (h.pending k) (h.store k)
  pending _ := pending_emptied trivial
  staged k := staged_stays (h.staged k) not_false (fun _ hput ↦ by cases hput)

theorem after (h : layers.Holds past) (next : LayerStep) :
    (layers.step next).Holds (past ++ [next]) := by
  cases next with
  | put key value => exact h.put key value
  | merge => exact h.merge
  | dropDraft => exact h.dropDraft
  | dropBatch => exact h.dropBatch
  | commit => exact h.commit

theorem run (h : layers.Holds past) (steps : List LayerStep) :
    (layers.run steps).Holds (past ++ steps) := by
  induction steps generalizing layers past with
  | nil => rwa [List.append_nil]
  | cons next rest ih =>
    rw [List.append_cons]
    exact ih (h.after next)

end Holds

/-! ### Reads -/

theorem batchView_eq_ok (layers : Layers) (key : String) :
    layers.batchView key = .ok ((layers.pending.get? key).or (layers.store.get? key)) := by
  simp only [batchView, Batch.view, batch, WriteSet.onto]
  cases layers.pending.get? key <;> rfl

theorem draftView_eq_ok (layers : Layers) (key : String) : layers.draftView key =
    .ok ((layers.staged.get? key).or ((layers.pending.get? key).or (layers.store.get? key))) := by
  simp only [draftView, Draft.view, draft, WriteSet.onto]
  cases layers.staged.get? key with
  | none => exact layers.batchView_eq_ok key
  | some value => rfl

theorem draftView_step_merge (layers : Layers) :
    (layers.step .merge).draftView = layers.draftView := by
  show WriteSet.onto .empty (WriteSet.onto (layers.pending.merge layers.staged) _) = _
  rw [WriteSet.onto_empty, WriteSet.onto_merge]
  rfl

theorem draftView_step_commit (layers : Layers) :
    (layers.step .commit).draftView = layers.draftView := by
  have hbatch : (layers.step .commit).batchView = layers.batchView := by
    show WriteSet.onto .empty (Store.view (layers.store.commit layers.pending)) = _
    rw [WriteSet.onto_empty, Store.view_commit]
    rfl
  exact congrArg (WriteSet.onto layers.staged) hbatch

namespace Holds

theorem pending_or_store (h : layers.Holds past) (key : String) :
    LastWrite (.put key) (fun later ↦ Pending later ∨ Committed later) past
      ((layers.pending.get? key).or (layers.store.get? key)) :=
  (h.pending key).or (h.store key) fun _ _ _ ↦ Pending.not_committed

theorem recalls_storeView (h : layers.Holds past) : layers.storeView.Recalls past Committed :=
  fun key ↦ ⟨_, rfl, fun _ ↦ (h.store key).iff_eq (LayerStep.put_injective key)⟩

theorem recalls_batchView (h : layers.Holds past) :
    layers.batchView.Recalls past fun later ↦ Pending later ∨ Committed later :=
  fun key ↦ ⟨_, layers.batchView_eq_ok key,
    fun _ ↦ (h.pending_or_store key).iff_eq (LayerStep.put_injective key)⟩

theorem recalls_draftView (h : layers.Holds past) :
    layers.draftView.Recalls past fun later ↦ Staged later ∨ Pending later ∨ Committed later := by
  intro key
  have hall := (h.staged key).or (h.pending_or_store key) fun _ _ _ ↦ Staged.not_below
  exact ⟨_, layers.draftView_eq_ok key, fun _ ↦ hall.iff_eq (LayerStep.put_injective key)⟩

theorem batchView_fallsThrough (h : layers.Holds past) :
    layers.batchView.FallsThrough layers.storeView past Pending :=
  fun key ↦ ⟨_, rfl, fun _ ↦ (h.pending key).iff_eq (LayerStep.put_injective key)⟩

theorem draftView_fallsThrough (h : layers.Holds past) :
    layers.draftView.FallsThrough layers.batchView past Staged :=
  fun key ↦ ⟨_, rfl, fun _ ↦ (h.staged key).iff_eq (LayerStep.put_injective key)⟩

end Holds

/-- The stack after a history of steps from empty layers. -/
def after (past : List LayerStep) : Layers := Layers.run {} past

theorem holds_after (past : List LayerStep) : (after past).Holds past := Holds.empty.run past

theorem after_concat (past : List LayerStep) (next : LayerStep) :
    after (past ++ [next]) = (after past).step next := by
  simp only [after, run, List.foldl_append, List.foldl_cons, List.foldl_nil]

/-- **Layers read like flat maps.** After any history of steps from empty layers every read of every
layer succeeds. The store answers with the last write of the key that is in a commit, the batch with
the last one that was merged and has not been dropped, and the draft with the last one that was
staged and has not been dropped. In this the batch falls through to the store where no write of the
key waits for a commit, and the draft to the batch where none waits for a merge. To merge or to
commit changes no read through the draft. To drop the draft leaves the reads of the batch, and to
drop the batch leaves those of the store. -/
theorem reads_are_last_writes (past : List LayerStep) :
    ((after past).storeView.Recalls past Committed ∧
      ((after past).batchView.Recalls past fun later ↦ Pending later ∨ Committed later) ∧
      (after past).draftView.Recalls past
        fun later ↦ Staged later ∨ Pending later ∨ Committed later) ∧
    ((after past).batchView.FallsThrough (after past).storeView past Pending ∧
      (after past).draftView.FallsThrough (after past).batchView past Staged) ∧
    ((after (past ++ [.merge])).draftView = (after past).draftView ∧
      (after (past ++ [.commit])).draftView = (after past).draftView) ∧
    ((after (past ++ [.dropDraft])).draftView = (after past).batchView ∧
      (after (past ++ [.dropDraft])).batchView = (after past).batchView) ∧
    ((after (past ++ [.dropBatch])).draftView = (after past).storeView ∧
      (after (past ++ [.dropBatch])).batchView = (after past).storeView ∧
      (after (past ++ [.dropBatch])).storeView = (after past).storeView) := by
  have h := holds_after past
  simp only [after_concat]
  exact ⟨⟨h.recalls_storeView, h.recalls_batchView, h.recalls_draftView⟩,
    ⟨h.batchView_fallsThrough, h.draftView_fallsThrough⟩,
    ⟨draftView_step_merge _, draftView_step_commit _⟩, ⟨rfl, rfl⟩, rfl, rfl, rfl⟩

end Layers

end SettlementLedger
