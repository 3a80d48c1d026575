import SettlementLedger.Proofs.Members
import SettlementLedger.Proofs.Registration

/-!
# Who administers

The registration makes its requester the administrator, of an empty store. Every other operation is
applied under the administrator that there is (`Replica.Applied.governed`), and leaves it in place
(`Replica.Applied.administers_iff`), whatever it does to the writing key of the administrator. What
is said of everybody but the administrator is therefore said of the same participants before and
after an operation.
-/

set_option autoImplicit false
set_option relaxedAutoImplicit false

namespace SettlementLedger

/-- The administrator is a writer, so that it does not become one. -/
theorem Operation.StandingStep.not_administers_of_addWriter {op : Operation}
    {bootstrap : WritingKey} {members : Membership} {before after : View}
    {changes : MembershipDiff} (h : op.StandingStep bootstrap members before after changes)
    (hkind : op.kind = .addWriter) (hstands : before.AdminStands) :
    ¬ before.Administers op.requester := by
  rintro ⟨admin, hadmin, haddress⟩
  cases h with
  | enlists node key stake kind body found whitelisted role same enrolls =>
    exact hstands.ne_of_not_isWriter (View.standing_of_node found) role admin hadmin haddress.symm
  | keeps kind | registers _ kind | whitelists _ _ _ _ kind | bans _ _ _ kind | promotes _ _ _ kind
  | demotes _ _ _ _ kind | releases _ _ _ kind | recovers _ _ _ kind => simp [hkind] at kind

namespace Replica.Applied

variable {replica : Replica} {delivery : Delivery} {op : Operation} {effect : Effect}
  {initializing : Bool} {draft : Draft} {kinds : List Kind}

/-- What is applied after the registration is applied under an administrator. -/
theorem governed (h : replica.Applied delivery op effect initializing draft)
    (hregistered : replica.Registered kinds) (hstand : replica.MembersStand)
    (hkind : op.kind ≠ .addAdmin) : replica.store.view.Governed replica.members := by
  rcases hstand with hfounding | hgoverned
  · have hstore := hregistered.store_eq_empty hfounding.noAdmin
    exact absurd (h.entitled.kind_eq_addAdmin hfounding.noAdmin (node_of_empty hstore)) hkind
  · exact hgoverned

theorem administers_of_addAdmin (h : replica.Applied delivery op effect initializing draft)
    (hkind : op.kind = .addAdmin) (a : Address) :
    (replica.commit effect.writes effect.changes).store.view.Administers a ↔
      a = op.requester := by
  have hadmin := h.standingStep.admin_of_addAdmin hkind
  constructor
  · rintro ⟨admin, hfound, rfl⟩
    cases hadmin.symm.trans hfound
    rfl
  · rintro rfl
    exact ⟨_, hadmin, rfl⟩

/-- Whoever is the administrator stays it. -/
theorem administers (h : replica.Applied delivery op effect initializing draft)
    {a : Address} (ha : replica.store.view.Administers a) :
    (replica.commit effect.writes effect.changes).store.view.Administers a := by
  obtain ⟨⟨address, key⟩, hadmin, rfl⟩ := ha
  obtain ⟨key, hafter⟩ := h.standingStep.admin_eq_some ⟨key, hadmin⟩
  exact ⟨_, hafter, rfl⟩

/-- Once there is an administrator, it is the same one for every operation. -/
theorem administers_iff (h : replica.Applied delivery op effect initializing draft)
    (hgoverned : replica.store.view.Governed replica.members) (a : Address) :
    (replica.commit effect.writes effect.changes).store.view.Administers a ↔
      replica.store.view.Administers a := by
  refine ⟨?_, h.administers⟩
  obtain ⟨known, standing, hknown, -⟩ := hgoverned.adminStands
  obtain ⟨key, hafter⟩ := h.standingStep.admin_eq_some ⟨known.writingKey, hknown⟩
  rintro ⟨admin, hadmin, rfl⟩
  cases hafter.symm.trans hadmin
  exact ⟨known, hknown, rfl⟩

end Replica.Applied

end SettlementLedger
