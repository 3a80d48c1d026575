import SettlementLedger.Proofs.Balances
import SettlementLedger.Proofs.Licenses
import SettlementLedger.Proofs.SchemaFacts

/-!
# Nobody loses value without having signed for it

A rule writes whole records, so that a record that was read too early would undo what was written
since. `Operation.Respects` says what an operation may do to the record of a participant: take from
the requester only, credit those that it pays, and leave every other field of every other record as
it is, but for the role and the license of a participant that the administrator acts upon. It holds
of every applied operation in every reachable state, whichever of requester, target, recipient,
validator and administrator are one participant (`Replica.losses_are_signed_for`).

The statement is put together from what is known of standing (`Operation.StandingStep`), of licenses
(`View.LicenseStep`), of balances (`View.Enriches`) and of the entries that an operation may write
(`Operation.MayWrite`).
-/

set_option autoImplicit false
set_option relaxedAutoImplicit false

namespace SettlementLedger

/-! ### The standing of others -/

namespace Operation.StandingStep

open View

variable {op : Operation} {bootstrap : WritingKey} {members : Membership} {before after : View}
  {changes : MembershipDiff} {a : Address}

/-- The standing of somebody other than the requester changes only if the administrator acts upon
it, and then only in role and license. -/
theorem standing_other (h : op.StandingStep bootstrap members before after changes)
    (ha : a ≠ op.requester) : after.standing a = before.standing a ∨
      (op.kind.isAdminOnly ∧ op.body = .adminControl a ∧ ∃ old role license,
        before.standing a = .ok old ∧ after.standing a = .ok { old with role, license }) := by
  cases h with
  | keeps kind same => exact Or.inl (same.standing a)
  | registers standing kind noAdmin role key admin enrolls =>
    exact Or.inl (enrolls.standing.other ha)
  | whitelists admin target node? license kind body isAdmin node role restands =>
    refine (restands.standing.standing_or a).imp_right ?_
    rintro ⟨rfl, hafter⟩
    exact ⟨by rw [kind]; rfl, body, _, _, _, standing_of_node node, hafter⟩
  | bans admin target node kind body isAdmin other found whitelisted role restands =>
    refine (restands.standing.standing_or a).imp_right ?_
    rintro ⟨rfl, hafter⟩
    exact ⟨by rw [kind]; rfl, body, _, _, _, standing_of_node found, hafter⟩
  | promotes admin target node kind body isAdmin found writer role absent restands =>
    refine (restands.standing.standing_or a).imp_right ?_
    rintro ⟨rfl, hafter⟩
    exact ⟨by rw [kind]; rfl, body, _, _, _, standing_of_node found, hafter⟩
  | demotes admin target node changes kind body isAdmin found role removal restands =>
    refine (restands.standing.standing_or a).imp_right ?_
    rintro ⟨rfl, hafter⟩
    exact ⟨by rw [kind]; rfl, body, _, _, _, standing_of_node found, hafter⟩
  | enlists node key stake kind body found whitelisted role admin enrolls =>
    exact Or.inl (enrolls.standing.other ha)
  | releases admin? node changes kind isAdmin other found writer removal restands =>
    exact Or.inl (restands.standing.other ha)
  | recovers admin node key kind body isAdmin requester unbound member absent found adminAfter
      enrolls =>
    exact Or.inl (enrolls.standing.other (requester ▸ ha))

/-- A transfer and a credit change nobody's standing. -/
theorem standing_of_payment (h : op.StandingStep bootstrap members before after changes)
    (hkind : op.kind ∈ [.transfer, .balanceInitialization]) (a : Address) :
    after.standing a = before.standing a := by
  cases h with
  | keeps kind same => exact same.standing a
  | registers _ kind | whitelists _ _ _ _ kind | bans _ _ _ kind | promotes _ _ _ kind
  | demotes _ _ _ _ kind | enlists _ _ _ kind | releases _ _ _ kind | recovers _ _ _ kind =>
    simp [kind] at hkind

end Operation.StandingStep

/-! ### Records -/

namespace NodeRecord

variable {old new : NodeRecord}

theorem eq_of_standing (h : new.standing = old.standing) :
    new = { old with balance := new.balance } := by
  cases new
  cases old
  cases h
  rfl

theorem eq_of_standing_with {role : Role} {license : UInt32} (hbalance : new.balance = old.balance)
    (h : new.standing = { old.standing with role, license }) :
    new = { old with role := new.role, license := new.license } := by
  cases new
  cases old
  cases hbalance
  cases h
  rfl

end NodeRecord

/-- What an operation may do to the record of a participant. -/
structure Operation.Respects (op : Operation) (a : Address) (old new : NodeRecord) : Prop where
  /-- Only the requester can have less afterwards, or another stake or writing key. -/
  others : a ≠ op.requester → old.balance ≤ new.balance ∧ new.stake = old.stake ∧
    new.writingKey = old.writingKey
  /-- A validator can have a larger balance. -/
  validator : op.validator? = some a → a ≠ op.requester → new = { old with balance := new.balance }
  /-- A transfer and a credit change balances. -/
  payment : op.kind ∈ [.transfer, .balanceInitialization] →
    new = { old with balance := new.balance }
  /-- The administrator acts upon roles, and it gives a license to whom it whitelists first. -/
  target : op.body = .adminControl a → a ≠ op.requester →
    new = { old with role := new.role, license := new.license } ∧
      (new.license ≠ old.license →
        op.kind = .appendWhitelist ∧ old.license = 0 ∧ new.license ≠ 0)

namespace Replica

variable {replica : Replica} {delivery : Delivery} {op : Operation} {effect : Effect}
  {initializing : Bool} {draft : Draft} {a : Address}

namespace Applied

theorem requiresCosignature (h : replica.Applied delivery op effect initializing draft)
    (hvalidator : op.validator? = some a) : op.kind.requiresCosignature := by
  obtain ⟨cosignature, hcosignature, -⟩ := Option.map_eq_some_iff.mp hvalidator
  exact delivery.requiresCosignature h.carried (by rw [hcosignature]; rfl)

/-- An operation that acts upon somebody pays nobody. -/
theorem not_pays (h : replica.Applied delivery op effect initializing draft) {target : Address}
    (hbody : op.body = .adminControl target) (a : Address) : ¬ op.Pays a := by
  have hfamily : op.body.family = op.kind.family := Setting.family_of_rule h.rule
  rw [hbody] at hfamily
  -- Validators and payments belong to kinds of other families.
  rintro (hvalidator | ⟨hkind, -⟩)
  · have hrequires := h.requiresCosignature hvalidator
    rw [Kind.requiresCosignature, ← hfamily] at hrequires
    cases hrequires
  · simp only [List.mem_cons, List.not_mem_nil, or_false] at hkind
    rcases hkind with hkind | hkind <;> rw [hkind] at hfamily <;> cases hfamily

/-- The license of somebody other than the requester changes only by being given to a participant
that is whitelisted for the first time. -/
theorem license_of_ne (h : replica.Applied delivery op effect initializing draft)
    (ha : a ≠ op.requester) {old new : UInt32} (hold : replica.store.view.license a = .ok old)
    (hnew : (replica.commit effect.writes effect.changes).store.view.license a = .ok new)
    (hne : new ≠ old) : op.kind = .appendWhitelist ∧ old = 0 ∧ new ≠ 0 := by
  have hchanged : (replica.commit effect.writes effect.changes).store.view.license a ≠
      replica.store.view.license a := by
    rw [hold, hnew]
    exact fun hsame ↦ hne (Except.ok.inj hsame)
  have hlicensee : op.licensee? = some a :=
    Decidable.byContradiction fun hnot ↦ hchanged (h.standingStep.license_eq hnot)
  refine ⟨?_, ?_⟩
  · unfold Operation.licensee? at hlicensee
    split at hlicensee
    · exact absurd (Option.some.inj hlicensee).symm ha
    · assumption
    · cases hlicensee
  · rcases h.licenseStep.issues with hsame | ⟨address, number, hissues⟩
    · exact absurd (hsame.license a) hchanged
    · by_cases haddress : a = address
      · rw [hissues.license, if_pos haddress] at hnew
        rw [haddress, hissues.unlicensed] at hold
        cases hnew
        cases hold
        exact ⟨rfl, hissues.number_ne_zero⟩
      · rw [hissues.license, if_neg haddress] at hchanged
        exact absurd rfl hchanged

section Records

variable {old? new? : Option NodeRecord}

/-- The record of somebody other than the requester has the standing that it had, or the
administrator acts upon its role and its license. -/
theorem standing_of_ne (h : replica.Applied delivery op effect initializing draft)
    (ha : a ≠ op.requester) (hold : replica.store.view.node a = .ok old?)
    (hnew : (replica.commit effect.writes effect.changes).store.view.node a = .ok new?) :
    (new?.getD {}).standing = (old?.getD {}).standing ∨
      (op.kind.isAdminOnly ∧ op.body = .adminControl a ∧ ∃ role license,
        (new?.getD {}).standing = { (old?.getD {}).standing with role, license }) := by
  have hbefore := View.standing_of_node hold
  have hafter := View.standing_of_node hnew
  rcases h.standingStep.standing_other ha with
    hsame | ⟨hkind, hbody, old, role, license, hfound, hmade⟩
  · rw [hbefore, hafter] at hsame
    exact Or.inl (Except.ok.inj hsame)
  · rw [hbefore] at hfound
    rw [hafter] at hmade
    cases hfound
    exact Or.inr ⟨hkind, hbody, role, license, Except.ok.inj hmade⟩

/-- The balance of somebody other than the requester does not fall, and it rises only if the
operation pays. -/
theorem balance_of_ne (h : replica.Applied delivery op effect initializing draft)
    (ha : a ≠ op.requester) (hold : replica.store.view.node a = .ok old?)
    (hnew : (replica.commit effect.writes effect.changes).store.view.node a = .ok new?) :
    (old?.getD {}).balance ≤ (new?.getD {}).balance ∧
      (¬ op.Pays a → (new?.getD {}).balance = (old?.getD {}).balance) := by
  obtain ⟨balance, hafter, hbalance⟩ := h.enriches a ha _ (View.balance_of_node hold)
  rw [View.balance_of_node hnew] at hafter
  cases hafter
  exact hbalance

/-- An applied operation respects the record of every participant. -/
theorem respects (h : replica.Applied delivery op effect initializing draft)
    (hold : replica.store.view.node a = .ok old?)
    (hnew : (replica.commit effect.writes effect.changes).store.view.node a = .ok new?) :
    op.Respects a (old?.getD {}) (new?.getD {}) where
  others ha := by
    refine ⟨(h.balance_of_ne ha hold hnew).1, ?_⟩
    rcases h.standing_of_ne ha hold hnew with hsame | ⟨-, -, role, license, hsame⟩
    · exact ⟨congrArg Standing.stake hsame, congrArg Standing.writingKey hsame⟩
    · exact ⟨congrArg Standing.stake hsame, congrArg Standing.writingKey hsame⟩
  validator hvalidator ha := by
    rcases h.standing_of_ne ha hold hnew with hsame | ⟨hadminOnly, -⟩
    · exact NodeRecord.eq_of_standing hsame
    · have hrequires := h.requiresCosignature hvalidator
      rw [Kind.requiresCosignature_of_isAdminOnly hadminOnly] at hrequires
      cases hrequires
  payment hkind := by
    have hsame := h.standingStep.standing_of_payment hkind a
    rw [View.standing_of_node hold, View.standing_of_node hnew] at hsame
    exact NodeRecord.eq_of_standing (Except.ok.inj hsame)
  target hbody ha := by
    have hbalance := (h.balance_of_ne ha hold hnew).2 (h.not_pays hbody a)
    refine ⟨?_, h.license_of_ne ha (View.license_of_standing (View.standing_of_node hold))
      (View.license_of_standing (View.standing_of_node hnew))⟩
    rcases h.standing_of_ne ha hold hnew with hsame | ⟨-, -, role, license, hsame⟩
    · exact NodeRecord.eq_of_standing_with hbalance hsame
    · exact NodeRecord.eq_of_standing_with hbalance hsame

end Records

/-- An operation may write the records of those that it concerns only. -/
theorem read_node (h : replica.Applied delivery op effect initializing draft)
    (ha : ¬ op.Concerns a) :
    (replica.commit effect.writes effect.changes).store.view.read (.node a) =
      replica.store.view.read (.node a) :=
  h.read_eq (by simp) fun _ hwrites ↦ ha hwrites.1

end Applied

/-- **Nobody loses value without having signed for it.** Whatever a replica has taken before, in
earlier calls and in the same one, a delivery that is skipped leaves it as it is. A delivery that is
applied carries an authentic operation. It leaves the bytes of every record as they are but those of
the requester, of the participant that the operation names and of the validator that cosigned it;
and it respects the record of every participant, absent records counting as empty ones. -/
theorem losses_are_signed_for (engine : Engine) (bootstrap : WritingKey) (txValidity : Hash)
    (events : List ReplicaEvent) (batch : List Delivery) (delivery : Delivery) :
    let replica := (fresh engine bootstrap txValidity).run events
    let before := (replica.apply batch).1
    let after := (replica.apply (batch ++ [delivery])).1
    ∃ outcome, (replica.apply (batch ++ [delivery])).2.outcomes =
        (replica.apply batch).2.outcomes ++ [outcome] ∧
      match outcome.verdict with
      | .skipped _ => after = before
      | .applied => ∃ op, delivery.operation = .ok op ∧
          op.authenticate before.engine.suite = .ok () ∧
          ∀ a, (¬ op.Concerns a → after.store.view.read (.node a) =
              before.store.view.read (.node a)) ∧
            ∃ old? new?, before.node a = .ok old? ∧ after.node a = .ok new? ∧
              op.Respects a (old?.getD {}) (new?.getD {}) := by
  intro replica before after
  have hlegible : before.store.view.Legible := by
    have hrun := legible_run engine bootstrap txValidity (events ++ [.batch batch])
    rw [run_append] at hrun
    exact hrun
  cases heffect : before.effect delivery with
  | error refusal =>
    obtain ⟨identity, happly⟩ := apply_concat_of_error heffect
    refine ⟨⟨identity, .skipped refusal⟩, by rw [happly], ?_⟩
    show (replica.apply (batch ++ [delivery])).1 = _
    rw [happly]
  | ok made =>
    obtain ⟨op, effect⟩ := made
    obtain ⟨initializing, draft, happlied⟩ := applied_of_effect heffect
    have happly := apply_concat_of_ok heffect
    have hafter : after = before.commit effect.writes effect.changes := congrArg Prod.fst happly
    refine ⟨⟨some (op.kind, op.tx), .applied⟩, by rw [happly], op, happlied.carried,
      happlied.authentic, fun a ↦ ?_⟩
    obtain ⟨old?, hold⟩ := hlegible.node a
    obtain ⟨new?, hnew⟩ := (happlied.legible hlegible).node a
    rw [hafter]
    exact ⟨happlied.read_node, old?, new?, hold, hnew, happlied.respects hold hnew⟩

end Replica

end SettlementLedger
