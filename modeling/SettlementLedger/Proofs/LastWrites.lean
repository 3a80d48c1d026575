/-!
# The last write of a history

A history is a list of steps, the earliest first. Some of its steps write a value, and the steps
after a write decide whether the write still counts. `LastWrite` says which value the last write
that counts has written, if there is one. It is told without a state, so that it can be compared
with what a state holds after the steps, one step at a time.

A history that goes on by a step that writes nothing that counts has the last write that it had, if
the earlier writes are judged by what now comes after them (`LastWrite.concat`). Two ways to count
can be joined where no write that counts in the second way comes after one that counts in the first
(`LastWrite.or`).
-/

set_option autoImplicit false
set_option relaxedAutoImplicit false

namespace SettlementLedger

variable {σ ν : Type}

/-- Of the steps of a history that write a value and count, given the steps after them, the last one
wrote this value; with no value, there is no such step. -/
def LastWrite (write : ν → σ) (counts : List σ → Prop) (steps : List σ) : Option ν → Prop
  | some value => ∃ earlier later, steps = earlier ++ write value :: later ∧ counts later ∧
      ∀ between v rest, later = between ++ write v :: rest → ¬ counts rest
  | none => ∀ earlier v later, steps = earlier ++ write v :: later → ¬ counts later

/-- A place in a history with one more step is the last one or a place in the history. -/
theorem concat_eq_append_cons {steps earlier later : List σ} {last step : σ}
    (h : steps ++ [last] = earlier ++ step :: later) :
    (earlier = steps ∧ step = last ∧ later = []) ∨
      ∃ between, later = between ++ [last] ∧ steps = earlier ++ step :: between := by
  rcases List.eq_nil_or_concat later with rfl | ⟨between, final, rfl⟩
  · obtain ⟨hearlier, hlast⟩ := List.append_inj' h rfl
    exact Or.inl ⟨hearlier.symm, (List.cons.inj hlast).1.symm, rfl⟩
  · rw [List.concat_eq_append, ← List.cons_append, ← List.append_assoc] at h
    obtain ⟨hsteps, hlast⟩ := List.append_inj' h rfl
    obtain rfl := List.singleton_inj.mp hlast
    exact Or.inr ⟨between, List.concat_eq_append, hsteps⟩

namespace LastWrite

variable {write : ν → σ} {counts counts' : List σ → Prop} {steps : List σ} {step : σ} {value : ν}
  {found found' : Option ν}

theorem nil : LastWrite write counts [] none := by
  intro earlier v later h
  cases earlier <;> cases h

theorem of_never (h : ∀ later, ¬ counts later) : LastWrite write counts steps none :=
  fun _ _ later _ ↦ h later

theorem congr (h : LastWrite write counts steps found)
    (hiff : ∀ later, counts later ↔ counts' later) : LastWrite write counts' steps found := by
  have hsame : counts = counts' := funext fun later ↦ propext (hiff later)
  rwa [← hsame]

/-- A write that counts at the end of a history is the last one. -/
theorem concat_self (h : counts []) :
    LastWrite write counts (steps ++ [write value]) (some value) := by
  refine ⟨steps, [], rfl, h, fun between v rest hrest ↦ ?_⟩
  cases between <;> cases hrest

/-- A step that is no write that counts leaves the last write to the history before it. -/
theorem concat (h : LastWrite write (fun later ↦ counts (later ++ [step])) steps found)
    (hstep : ∀ v, write v = step → ¬ counts []) :
    LastWrite write counts (steps ++ [step]) found := by
  -- A write in the longer history is the new step, or was followed by one step less.
  have hlater {list before later : List σ} {v : ν}
      (hbefore : ∀ between, list = before ++ write v :: between → ¬ counts (between ++ [step]))
      (hplace : list ++ [step] = before ++ write v :: later) : ¬ counts later := by
    rcases concat_eq_append_cons hplace with ⟨-, hlast, rfl⟩ | ⟨between, rfl, hlist⟩
    · exact hstep v hlast
    · exact hbefore between hlist
  cases found with
  | none => exact fun earlier v later hplace ↦ hlater (h earlier v) hplace
  | some value =>
    obtain ⟨earlier, later, rfl, hcounts, hlast⟩ := h
    refine ⟨earlier, later ++ [step], ?_, hcounts, fun between v rest hplace ↦ ?_⟩
    · rw [List.append_assoc, List.cons_append]
    · exact hlater (hlast between v) hplace

/-- What counts in one way or another, where none that counts in the second way is written after one
that counts in the first. -/
theorem or (h : LastWrite write counts steps found) (h' : LastWrite write counts' steps found')
    (horder : ∀ between v rest, counts (between ++ write v :: rest) → ¬ counts' rest) :
    LastWrite write (fun later ↦ counts later ∨ counts' later) steps (found.or found') := by
  cases found with
  | some value =>
    obtain ⟨earlier, later, hsteps, hcounts, hlast⟩ := h
    refine ⟨earlier, later, hsteps, Or.inl hcounts, ?_⟩
    rintro between v rest rfl (hfirst | hsecond)
    · exact hlast between v rest rfl hfirst
    · exact horder between v rest hcounts hsecond
  | none =>
    cases found' with
    | none =>
      rintro earlier v later hsteps (hfirst | hsecond)
      · exact h earlier v later hsteps hfirst
      · exact h' earlier v later hsteps hsecond
    | some value =>
      obtain ⟨earlier, later, rfl, hcounts, hlast⟩ := h'
      refine ⟨earlier, later, rfl, Or.inr hcounts, ?_⟩
      rintro between v rest rfl (hfirst | hsecond)
      · have hplace : earlier ++ write value :: (between ++ write v :: rest) =
            (earlier ++ write value :: between) ++ write v :: rest := by
          rw [List.append_assoc, List.cons_append]
        exact h _ v rest hplace hfirst
      · exact hlast between v rest rfl hsecond

/-- A history has one last write that counts. -/
theorem unique (hwrite : Function.Injective write) (h : LastWrite write counts steps found)
    (h' : LastWrite write counts steps found') : found = found' := by
  cases found with
  | none =>
    cases found' with
    | none => rfl
    | some value' =>
      obtain ⟨earlier, later, hsteps, hcounts, -⟩ := h'
      exact absurd hcounts (h earlier value' later hsteps)
  | some value =>
    obtain ⟨earlier, later, rfl, hcounts, hlast⟩ := h
    cases found' with
    | none => exact absurd hcounts (h' earlier value later rfl)
    | some value' =>
      obtain ⟨earlier', later', hsteps, hcounts', hlast'⟩ := h'
      -- Of two places in one history, one comes after the other or they are the same.
      rcases List.append_eq_append_iff.mp hsteps with ⟨gap, -, hgap⟩ | ⟨gap, -, hgap⟩
      · cases gap with
        | nil => exact congrArg some (hwrite (List.cons.inj hgap).1)
        | cons first gap =>
          exact absurd hcounts' (hlast gap value' later' (List.cons.inj hgap).2)
      · cases gap with
        | nil => exact congrArg some (hwrite (List.cons.inj hgap).1).symm
        | cons first gap =>
          exact absurd hcounts (hlast' gap value later (List.cons.inj hgap).2)

theorem iff_eq (hwrite : Function.Injective write) (h : LastWrite write counts steps found) :
    LastWrite write counts steps found' ↔ found' = found :=
  ⟨fun h' ↦ h'.unique hwrite h, fun heq ↦ heq ▸ h⟩

end LastWrite

end SettlementLedger
