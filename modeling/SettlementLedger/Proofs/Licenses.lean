import SettlementLedger.Proofs.Footprint
import SettlementLedger.Proofs.StandingSteps

/-!
# Licenses are numbered in order and kept for life

Three entries say that somebody has a license: the number of licenses issued, the registry from a
license to its owner, and the license in the record of the owner. An applied operation leaves all
three as they are, or it issues the next number to a participant that had none
(`View.LicenseStep`, `Replica.Applied.licenseStep`). Two kinds of operations can issue a license;
the others may not write the registry (`Operation.MayWrite`), and they keep the license of every
record that they rewrite (`Operation.StandingStep.license_eq`).

So the registry is a bijection between the numbers from one to the count and the participants with
a license (`View.LicensesStand`). A license is never taken away nor given to somebody else, whatever
becomes of the roles of its owner.
-/

set_option autoImplicit false
set_option relaxedAutoImplicit false

namespace SettlementLedger

/-! ### The license of a participant -/

namespace View

variable {view before middle after : View} {address : Address} {standing : Standing}
  {number : UInt32}

/-- The license of a participant, zero if it has none. -/
def license (view : View) (a : Address) : Except ViewError UInt32 :=
  (view.standing a).map Standing.license

/-- A participant is whitelisted. -/
def Listed (view : View) (a : Address) : Prop :=
  ∃ standing, view.standing a = .ok standing ∧ standing.role.isWhitelisted

theorem license_of_standing {a : Address} (h : view.standing a = .ok standing) :
    view.license a = .ok standing.license := by
  rw [license, h]
  rfl

theorem license_congr {a : Address} (h : after.standing a = before.standing a) :
    after.license a = before.license a := by
  rw [license, license, h]

/-- A license is in a record. -/
theorem license_eq_ok_iff {a : Address} (hnumber : number ≠ 0) :
    view.license a = .ok number ↔ ∃ node, view.node a = .ok (some node) ∧
      node.license = number := by
  constructor
  · intro h
    cases hstanding : view.standing a with
    | error cause =>
      rw [View.license, hstanding] at h
      cases h
    | ok standing =>
      rw [license_of_standing hstanding] at h
      cases h
      obtain ⟨node?, hnode, rfl⟩ := standing_eq_ok.mp hstanding
      cases node? with
      | none => exact absurd rfl hnumber
      | some node => exact ⟨node, hnode, rfl⟩
  · rintro ⟨node, hnode, rfl⟩
    exact license_of_standing (standing_of_node hnode)

/-! ### Issuing a license -/

/-- No license, no owner and no count has changed. -/
structure SameLicenses (before after : View) : Prop where
  license : ∀ a, after.license a = before.license a
  count : after.licenseCount = before.licenseCount
  owner : ∀ l, after.licenseOwner l = before.licenseOwner l

/-- A participant without a license is given the next one. -/
structure Issues (before after : View) (address : Address) (number : UInt32) : Prop where
  unlicensed : before.license address = .ok 0
  next : ∃ count, before.licenseCount = .ok count ∧ Counter.next? count = some number
  count : after.licenseCount = .ok number
  owner : ∀ l, after.licenseOwner l =
    if l = number then .ok (some address) else before.licenseOwner l
  license : ∀ a, after.license a = if a = address then .ok number else before.license a

/-- What an operation may do to licenses: nothing, or issue one; and nobody is whitelisted without a
license. -/
structure LicenseStep (before after : View) : Prop where
  issues : before.SameLicenses after ∨ ∃ address number, before.Issues after address number
  listed : ∀ a, after.Listed a → before.Listed a ∨ ∃ l, l ≠ 0 ∧ after.license a = .ok l

theorem licenseCount_congr (h : after.read .licenseCount = before.read .licenseCount) :
    after.licenseCount = before.licenseCount := by
  rw [licenseCount, licenseCount, readAs_congr h]

theorem SameLicenses.trans (h : before.SameLicenses middle) (h' : middle.SameLicenses after) :
    before.SameLicenses after where
  license a := (h'.license a).trans (h.license a)
  count := h'.count.trans h.count
  owner l := (h'.owner l).trans (h.owner l)

theorem Issues.same (h : before.Issues middle address number) (h' : middle.SameLicenses after) :
    before.Issues after address number where
  unlicensed := h.unlicensed
  next := h.next
  count := h'.count.trans h.count
  owner l := (h'.owner l).trans (h.owner l)
  license a := (h'.license a).trans (h.license a)

theorem Issues.number_ne_zero (h : before.Issues after address number) : number ≠ 0 := by
  obtain ⟨count, -, hnext⟩ := h.next
  rintro rfl
  exact absurd (Counter.next?_eq_some hnext) (Nat.zero_ne_add_one count.toNat)

/-- The new owner has the new license, and every other owner the license that it had. -/
theorem Issues.owner_iff (h : before.Issues after address number) {l : UInt32} (hl : l ≠ 0)
    {a : Address} (hnew : before.license a ≠ .ok number)
    (howner : before.licenseOwner l = .ok (some a) ↔ before.license a = .ok l) :
    after.licenseOwner l = .ok (some a) ↔ after.license a = .ok l := by
  rw [h.owner, h.license]
  by_cases hnumber : l = number
  · rw [if_pos hnumber, hnumber]
    by_cases ha : a = address
    · rw [if_pos ha, ha]
      exact ⟨fun _ ↦ rfl, fun _ ↦ rfl⟩
    · rw [if_neg ha]
      exact ⟨fun hsome ↦ absurd (Option.some.inj (Except.ok.inj hsome)).symm ha,
        fun hlicense ↦ absurd hlicense hnew⟩
  · rw [if_neg hnumber, howner]
    by_cases ha : a = address
    · rw [if_pos ha, ha, h.unlicensed]
      exact ⟨fun hzero ↦ absurd (Except.ok.inj hzero).symm hl,
        fun hsame ↦ absurd (Except.ok.inj hsame).symm hnumber⟩
    · rw [if_neg ha]

/-- A participant has a license afterwards, that it had before or that it was given. -/
def Licensed (before after : View) (address : Address) : Prop :=
  (∃ l, l ≠ 0 ∧ after.license address = .ok l) ∧
    (before.SameLicenses after ∨ ∃ number, before.Issues after address number)

theorem Licensed.same (h : before.Licensed middle address) (h' : middle.SameLicenses after) :
    before.Licensed after address := by
  obtain ⟨⟨l, hl, hlicense⟩, hissues⟩ := h
  refine ⟨⟨l, hl, (h'.license address).trans hlicense⟩, hissues.imp (·.trans h') ?_⟩
  rintro ⟨number, hissue⟩
  exact ⟨number, hissue.same h'⟩

end View

namespace Draft

variable {draft result : Draft}

/-- Entries besides the node records and the registry of licenses do not matter. -/
theorem sameLicenses_of_read {after : View}
    (hstanding : ∀ a, after.standing a = draft.view.standing a)
    (hcount : after.read .licenseCount = draft.view.read .licenseCount)
    (howner : ∀ l, after.read (.licenseOwner l) = draft.view.read (.licenseOwner l)) :
    draft.view.SameLicenses after where
  license a := View.license_congr (hstanding a)
  count := View.licenseCount_congr hcount
  owner l := View.readAs_congr (howner l) _

theorem MovesBalances.sameLicenses (h : draft.MovesBalances result) :
    draft.view.SameLicenses result.view :=
  sameLicenses_of_read h.standing (h.read _ (by simp)) fun l ↦ h.read _ (by simp)

theorem sameLicenses_put (draft : Draft) {key : ViewKey} (hnode : ∀ a, key ≠ .node a)
    (hcount : key ≠ .licenseCount) (howner : ∀ l, key ≠ .licenseOwner l) (value : Bytes) :
    draft.view.SameLicenses (draft.put key value).view :=
  sameLicenses_of_read (draft.standing_put hnode value)
    ((draft.read_put _ _ _).trans (if_neg hcount.symm))
    fun l ↦ (draft.read_put _ _ _).trans (if_neg (howner l).symm)

theorem sameLicenses_of_bindWriter {key : WritingKey} {address : Address}
    (h : draft.bindWriter key address = .ok result) : draft.view.SameLicenses result.view :=
  sameLicenses_of_read (fun a ↦ View.standing_congr (node_of_bindWriter h a))
    (read_of_bindWriter h (by simp) (by simp) (by simp))
    fun l ↦ read_of_bindWriter h (by simp) (by simp) (by simp)

theorem license_putNode (draft : Draft) (address a : Address) (node : NodeRecord) :
    (draft.putNode address node).view.license a =
      if a = address then .ok node.license else draft.view.license a := by
  have hstanding := draft.standing_putNode address a node
  by_cases ha : a = address
  · rw [if_pos ha] at hstanding ⊢
    exact View.license_of_standing hstanding
  · rw [if_neg ha] at hstanding ⊢
    exact View.license_congr hstanding

/-- The license that was found or issued, and the record that it is then put into. -/
theorem licensed_putNode {address : Address} {node? : Option NodeRecord} {node : NodeRecord}
    {license : UInt32} (hnode : draft.view.node address = .ok node?)
    (h : draft.licenseOf address (node?.getD {}) = .ok (license, result))
    (hlicense : node.license = license) :
    draft.view.Licensed (result.putNode address node).view address := by
  have hbefore : draft.view.license address = .ok (node?.getD {}).license :=
    View.license_of_standing (View.standing_of_node hnode)
  have hafter (a : Address) : (result.putNode address node).view.license a =
      if a = address then .ok license else draft.view.license a := by
    rw [license_putNode, hlicense,
      View.license_congr (View.standing_congr (node_of_licenseOf h a))]
  have hread (key : ViewKey) (hkey : ∀ a, key ≠ .node a) :
      (result.putNode address node).view.read key = result.view.read key :=
    (result.read_put _ _ _).trans (if_neg (hkey address))
  have hself : (result.putNode address node).view.license address = .ok license :=
    (hafter address).trans (if_pos rfl)
  rcases licenseOf_eq_ok.mp h with ⟨hhas, hsame, rfl⟩ | ⟨hnot, count, hcount, hnext, rfl⟩
  · -- The license was in the record, and the registry is not touched.
    refine ⟨⟨license, ?_, hself⟩, Or.inl ⟨fun a ↦ ?_, ?_, fun l ↦ ?_⟩⟩
    · rw [← hsame]
      exact bne_iff_ne.mp hhas
    · rw [hafter]
      by_cases ha : a = address
      · rw [if_pos ha, ha, hbefore, hsame]
      · rw [if_neg ha]
    · exact View.licenseCount_congr (hread _ (by simp))
    · exact View.readAs_congr (hread _ (by simp)) _
  · -- The license is the next one; the record is written after the registry and does not hide it.
    have hissues : draft.view.Issues
        ((((draft.put (.licenseOwner license) address.bytes).put .licenseCount
          (Counter.encode license)).putNode address node).view) address license := by
      refine ⟨?_, ⟨count, hcount, hnext⟩, ?_, fun l ↦ ?_, hafter⟩
      · rw [hbefore]
        exact congrArg Except.ok (by simpa [NodeRecord.hasLicense] using hnot)
      · rw [View.licenseCount, View.readAs_congr (hread _ (by simp)),
          readAs_put_self _ _ (Counter.decode_encode license)]
        rfl
      · rw [View.licenseOwner, View.readAs_congr (hread _ (by simp)),
          readAs_put_of_ne _ (by simp)]
        by_cases hl : l = license
        · rw [if_pos hl, hl]
          exact readAs_put_self _ _ (View.decodeEntry_bytes address)
        · rw [if_neg hl]
          exact readAs_put_of_ne _ (fun hkey ↦ hl (ViewKey.licenseOwner.inj hkey)) _ _
    exact ⟨⟨license, hissues.number_ne_zero, hself⟩, Or.inr ⟨license, hissues⟩⟩

end Draft

/-! ### Who may be given a license -/

/-- The participant that an operation gives a license to if it has none. -/
def Operation.licensee? (op : Operation) : Option Address :=
  match op.kind with
  | .addAdmin => some op.requester
  | .appendWhitelist => op.body.subject?
  | _ => none

theorem Operation.licensee?_eq_none {op : Operation}
    (h : op.kind ∉ [.addAdmin, .appendWhitelist]) : op.licensee? = none := by
  unfold licensee?
  split
  · rename_i hkind
    exact absurd (hkind ▸ by simp) h
  · rename_i hkind
    exact absurd (hkind ▸ by simp) h
  · rfl

namespace Operation.StandingStep

open View

variable {op : Operation} {bootstrap : WritingKey} {members : Membership} {before after : View}
  {changes : MembershipDiff}

/-- Everybody but the licensee keeps its license, whatever happens to the rest of its standing, and
is not whitelisted unless it was. -/
theorem standing_of_not_licensee (h : op.StandingStep bootstrap members before after changes)
    {a : Address} (ha : op.licensee? ≠ some a) : after.standing a = before.standing a ∨
      ∃ old new, before.standing a = .ok old ∧ after.standing a = .ok new ∧
        new.license = old.license ∧ (new.role.isWhitelisted → old.role.isWhitelisted) := by
  cases h with
  | keeps kind same => exact Or.inl (same.standing a)
  | registers standing kind noAdmin role key admin enrolls =>
    refine Or.inl (enrolls.standing.other ?_)
    rintro rfl
    exact ha (by rw [licensee?, kind])
  | whitelists admin target node? license kind body isAdmin node role restands =>
    refine Or.inl (restands.standing.other ?_)
    rintro rfl
    exact ha (by rw [licensee?, kind, body]; rfl)
  | bans admin target node kind body isAdmin other found whitelisted role restands =>
    refine (restands.standing.standing_or a).imp_right ?_
    rintro ⟨rfl, hafter⟩
    exact ⟨_, _, standing_of_node found, hafter, rfl, fun _ ↦ whitelisted⟩
  | promotes admin target node kind body isAdmin found writer role absent restands =>
    refine (restands.standing.standing_or a).imp_right ?_
    rintro ⟨rfl, hafter⟩
    exact ⟨_, _, standing_of_node found, hafter, rfl, fun _ ↦ Role.isWhitelisted_of_isWriter writer⟩
  | demotes admin target node changes kind body isAdmin found role removal restands =>
    refine (restands.standing.standing_or a).imp_right ?_
    rintro ⟨rfl, hafter⟩
    exact ⟨_, _, standing_of_node found, hafter, rfl,
      fun _ ↦ Role.isWhitelisted_of_isWriter (Role.isWriter_of_isIndexer role)⟩
  | enlists node key stake kind body found whitelisted role admin enrolls =>
    refine (enrolls.standing.standing_or a).imp_right ?_
    rintro ⟨rfl, hafter⟩
    exact ⟨_, _, standing_of_node found, hafter, rfl, fun _ ↦ whitelisted⟩
  | releases admin? node changes kind isAdmin other found writer removal restands =>
    refine (restands.standing.standing_or a).imp_right ?_
    rintro ⟨rfl, hafter⟩
    exact ⟨_, _, standing_of_node found, hafter, rfl, fun _ ↦ Role.isWhitelisted_of_isWriter writer⟩
  | recovers admin node key kind body isAdmin requester unbound member absent found adminAfter
      enrolls =>
    refine (enrolls.standing.standing_or a).imp_right ?_
    rintro ⟨rfl, hafter⟩
    exact ⟨_, _, standing_of_node found, hafter, rfl, id⟩

theorem license_eq (h : op.StandingStep bootstrap members before after changes) {a : Address}
    (ha : op.licensee? ≠ some a) : after.license a = before.license a := by
  rcases h.standing_of_not_licensee ha with hsame | ⟨old, new, hold, hnew, hlicense, -⟩
  · exact license_congr hsame
  · rw [license_of_standing hold, license_of_standing hnew, hlicense]

theorem listed (h : op.StandingStep bootstrap members before after changes) {a : Address}
    (ha : op.licensee? ≠ some a) (hlisted : after.Listed a) : before.Listed a := by
  obtain ⟨standing, hstanding, hwhitelisted⟩ := hlisted
  rcases h.standing_of_not_licensee ha with hsame | ⟨old, new, hold, hnew, -, hrole⟩
  · exact ⟨standing, hsame.symm.trans hstanding, hwhitelisted⟩
  · rw [hnew] at hstanding
    cases hstanding
    exact ⟨old, hold, hrole hwhitelisted⟩

end Operation.StandingStep

namespace Setting

variable {setting : Setting} {draft result : Draft}

theorem licensed_of_addAdmin {key : WritingKey} (h : setting.addAdmin draft key = .ok result) :
    draft.view.Licensed result.view setting.operation.requester := by
  obtain ⟨-, -, node?, hnode, license, licensed, hlicensed, balance, -, stake, -, bound, hbound,
    rfl⟩ := addAdmin_eq_ok.mp h
  have hrecords : bound.view.SameLicenses ((bound.put .admin _).put .initialization [1]).view :=
    (bound.sameLicenses_put (by simp) (by simp) (by simp)
      (AdminRecord.encode ⟨setting.operation.requester, key⟩)).trans
        (Draft.sameLicenses_put _ (by simp) (by simp) (by simp) _)
  exact (Draft.licensed_putNode hnode hlicensed rfl).same
    ((Draft.sameLicenses_of_bindWriter hbound).trans hrecords)

theorem licensed_of_appendWhitelist {target : Address}
    (h : setting.appendWhitelist draft target = .ok result) :
    draft.view.Licensed result.view target := by
  obtain ⟨admin, -, node?, hnode, -, license, licensed, hlicensed, hsettle⟩ :=
    appendWhitelist_eq_ok.mp h
  exact (Draft.licensed_putNode hnode hlicensed rfl).same
    (movesBalances_of_settle hsettle).sameLicenses

/-- An operation that issues licenses leaves its licensee with one. -/
theorem licensed_of_rule (h : setting.rule draft = .ok result)
    (hkind : setting.operation.kind ∈ [.addAdmin, .appendWhitelist]) :
    ∃ address, setting.operation.licensee? = some address ∧
      draft.view.Licensed result.view address := by
  cases ruling_of_rule h with
  | addAdmin key kind body ok =>
    exact ⟨_, by rw [Operation.licensee?, kind], licensed_of_addAdmin ok⟩
  | appendWhitelist target kind body ok =>
    exact ⟨target, by rw [Operation.licensee?, kind, body]; rfl, licensed_of_appendWhitelist ok⟩
  | disableInitialization key kind body ok | balanceInitialization target amount kind body ok
  | banValidator target kind body ok | addIndexer target kind body ok
  | removeIndexer target kind body ok | addWriter key kind body ok | removeWriter key kind body ok
  | adminRecovery key kind body ok | transfer recipient amount kind body ok
  | transaction writer content external ledger kind body ok
  | bootstrapDeployment bootstrap channel kind body ok =>
    simp [kind] at hkind

end Setting

namespace Replica.Applied

variable {replica : Replica} {delivery : Delivery} {op : Operation} {effect : Effect}
  {initializing : Bool} {draft : Draft}

theorem sameLicenses_marker (h : replica.Applied delivery op effect initializing draft) :
    draft.view.SameLicenses (replica.commit effect.writes effect.changes).store.view := by
  rw [h.view]
  exact draft.sameLicenses_put (by simp) (by simp) (by simp) delivery.bytes

/-- Operations of the other kinds may not write the registry, and they keep every license. -/
theorem sameLicenses (h : replica.Applied delivery op effect initializing draft)
    (hkind : op.kind ∉ [.addAdmin, .appendWhitelist]) : replica.store.view.SameLicenses
      (replica.commit effect.writes effect.changes).store.view where
  license a := h.standingStep.license_eq (by simp [Operation.licensee?_eq_none hkind])
  count := View.licenseCount_congr (h.read_eq (by simp) fun _ hissues ↦ hkind hissues.1)
  owner l := by
    refine View.readAs_congr (h.read_eq ?_ fun _ hissues ↦ ?_) _
    · simp
    · exact hkind hissues.1

/-- An applied operation leaves the licenses as they are or issues one. -/
theorem licenseStep (h : replica.Applied delivery op effect initializing draft) :
    replica.store.view.LicenseStep
      (replica.commit effect.writes effect.changes).store.view := by
  by_cases hkind : op.kind ∈ [.addAdmin, .appendWhitelist]
  · obtain ⟨address, hlicensee, hlicensed⟩ := Setting.licensed_of_rule h.rule hkind
    have hlicensed := hlicensed.same h.sameLicenses_marker
    refine ⟨hlicensed.2.imp_right fun hissues ↦ ⟨address, hissues⟩, fun a hlisted ↦ ?_⟩
    by_cases ha : a = address
    · exact Or.inr (ha ▸ hlicensed.1)
    · refine Or.inl (h.standingStep.listed (fun hsome ↦ ha ?_) hlisted)
      exact Option.some.inj (hsome.symm.trans hlicensee)
  · refine ⟨Or.inl (h.sameLicenses hkind), fun a hlisted ↦ Or.inl ?_⟩
    exact h.standingStep.listed (by simp [Operation.licensee?_eq_none hkind]) hlisted

end Replica.Applied

/-! ### The registry of licenses -/

namespace View

variable {before after : View} {count : UInt32}

/-- The licenses from one to the count have owners, the owner of a license is the participant with
the license, and whoever is whitelisted has one. -/
structure LicensesStand (view : View) (count : UInt32) : Prop where
  count_eq : view.licenseCount = .ok count
  owner_iff : ∀ l, l ≠ 0 → ∀ a, view.licenseOwner l = .ok (some a) ↔ view.license a = .ok l
  issued : ∀ l, 1 ≤ l → l ≤ count → ∃ a, view.licenseOwner l = .ok (some a)
  free : ∀ l, ¬ (1 ≤ l ∧ l ≤ count) → view.licenseOwner l = .ok none
  listed : ∀ a, view.Listed a → ∃ l, l ≠ 0 ∧ view.license a = .ok l

/-- Licenses that stay as they are. -/
theorem LicenseStep.license (h : before.LicenseStep after) {a : Address} {l : UInt32} (hl : l ≠ 0)
    (hlicense : before.license a = .ok l) : after.license a = .ok l := by
  rcases h.issues with hsame | ⟨address, number, hissues⟩
  · exact (hsame.license a).trans hlicense
  · rw [hissues.license, if_neg, hlicense]
    rintro rfl
    rw [hissues.unlicensed] at hlicense
    exact hl (Except.ok.inj hlicense).symm

namespace LicensesStand

/-- The next license after the count has no owner, and nobody has it. -/
theorem license_ne (h : before.LicensesStand count) {number : UInt32}
    (hnext : Counter.next? count = some number) (a : Address) :
    before.license a ≠ .ok number := by
  have hnumber := Counter.next?_eq_some hnext
  intro hlicense
  have hzero : number ≠ 0 := by
    rintro rfl
    exact absurd hnumber (Nat.zero_ne_add_one _)
  have hfree := h.free number fun hle ↦ by
    rw [UInt32.le_iff_toNat_le, UInt32.le_iff_toNat_le] at hle
    omega
  rw [(h.owner_iff number hzero a).mpr hlicense] at hfree
  cases hfree

/-- Whoever is whitelisted after a step has a license, whether it was whitelisted before or not. -/
theorem listed_step (h : before.LicensesStand count) (hstep : before.LicenseStep after)
    (a : Address) (ha : after.Listed a) : ∃ l, l ≠ 0 ∧ after.license a = .ok l := by
  rcases hstep.listed a ha with hbefore | hhas
  · obtain ⟨l, hl, hlicense⟩ := h.listed a hbefore
    exact ⟨l, hl, hstep.license hl hlicense⟩
  · exact hhas

theorem same (h : before.LicensesStand count) (hsame : before.SameLicenses after)
    (hlisted : ∀ a, after.Listed a → ∃ l, l ≠ 0 ∧ after.license a = .ok l) :
    after.LicensesStand count where
  count_eq := hsame.count.trans h.count_eq
  owner_iff l hl a := by rw [hsame.owner, hsame.license, h.owner_iff l hl]
  issued l hone hle := by
    rw [hsame.owner]
    exact h.issued l hone hle
  free l hnot := (hsame.owner l).trans (h.free l hnot)
  listed := hlisted

/-- The license that is issued comes after the count, so that it was free and nobody had it. -/
theorem issues (h : before.LicensesStand count) {address : Address} {number : UInt32}
    (hissues : before.Issues after address number)
    (hlisted : ∀ a, after.Listed a → ∃ l, l ≠ 0 ∧ after.license a = .ok l) :
    after.LicensesStand number := by
  have hnext : Counter.next? count = some number := by
    obtain ⟨n, hn, hnext⟩ := hissues.next
    rw [h.count_eq] at hn
    cases hn
    exact hnext
  refine ⟨hissues.count, fun l hl a ↦ ?_, fun l hone hle ↦ ?_, fun l hnot ↦ ?_, hlisted⟩
  · exact hissues.owner_iff hl (h.license_ne hnext a) (h.owner_iff l hl a)
  · rw [hissues.owner]
    by_cases hnew : l = number
    · exact ⟨address, if_pos hnew⟩
    · rw [if_neg hnew]
      exact h.issued l hone (((Counter.le_next_iff hnext l).mp hle).resolve_left hnew)
  · rw [hissues.owner, if_neg]
    · exact h.free l fun hle ↦ hnot ⟨hle.1, (Counter.le_next_iff hnext l).mpr (Or.inr hle.2)⟩
    · rintro rfl
      have hnumber := Counter.next?_eq_some hnext
      refine hnot ⟨?_, UInt32.le_refl l⟩
      rw [UInt32.le_iff_toNat_le, UInt32.toNat_one]
      omega

/-- What an operation may do to licenses keeps them in order. -/
theorem step (h : before.LicensesStand count) (hstep : before.LicenseStep after) :
    ∃ count', after.LicensesStand count' := by
  rcases hstep.issues with hsame | ⟨address, number, hissues⟩
  · exact ⟨count, h.same hsame (h.listed_step hstep)⟩
  · exact ⟨number, h.issues hissues (h.listed_step hstep)⟩

theorem owner_ne_zero (h : before.LicensesStand count) {l : UInt32} {a : Address}
    (howner : before.licenseOwner l = .ok (some a)) : l ≠ 0 := by
  rintro rfl
  rw [h.free 0 fun hle ↦ absurd hle.1 (by decide)] at howner
  cases howner

/-- The owner of a license is the participant with the license. -/
theorem owner (h : before.LicensesStand count) {l : UInt32} {a : Address}
    (howner : before.licenseOwner l = .ok (some a)) : before.license a = .ok l :=
  (h.owner_iff l (h.owner_ne_zero howner) a).mp howner

end LicensesStand

end View

namespace Replica

/-- Nobody has a license in an empty store. -/
theorem licensesStand_fresh (engine : Engine) (bootstrap : WritingKey) (txValidity : Hash) :
    (fresh engine bootstrap txValidity).store.view.LicensesStand 0 := by
  have hlicense (a : Address) :
      (fresh engine bootstrap txValidity).store.view.license a = .ok 0 := rfl
  refine ⟨rfl, fun l hl a ↦ ?_, fun l hone hle ↦ ?_, fun l _ ↦ rfl, fun a ha ↦ ?_⟩
  · rw [hlicense]
    exact ⟨nofun, fun hzero ↦ absurd (Except.ok.inj hzero).symm hl⟩
  · exact absurd (UInt32.le_trans hone hle) (by decide)
  · obtain ⟨standing, hstanding, hwhitelisted⟩ := ha
    cases hstanding
    cases hwhitelisted

/-- The licenses of a reachable state are in order. -/
theorem licensesStand_run (engine : Engine) (bootstrap : WritingKey) (txValidity : Hash)
    (events : List ReplicaEvent) :
    ∃ count, ((fresh engine bootstrap txValidity).run events).store.view.LicensesStand count := by
  refine run_induction (P := fun replica ↦ ∃ count, replica.store.view.LicensesStand count)
    (fun _ _ h ↦ h) ?_ _ ⟨0, licensesStand_fresh engine bootstrap txValidity⟩ events
  rintro replica delivery op effect ⟨count, h⟩ heffect
  obtain ⟨initializing, draft, happlied⟩ := applied_of_effect heffect
  exact h.step happlied.licenseStep

/-- A license is kept by every run. -/
theorem license_run (replica : Replica) (events : List ReplicaEvent) {a : Address} {l : UInt32}
    (hl : l ≠ 0) (h : replica.store.view.license a = .ok l) :
    (replica.run events).store.view.license a = .ok l := by
  refine run_induction (P := fun replica ↦ replica.store.view.license a = .ok l)
    (fun _ _ h ↦ h) ?_ replica h events
  intro replica delivery op effect h heffect
  obtain ⟨initializing, draft, happlied⟩ := applied_of_effect heffect
  exact happlied.licenseStep.license hl h

/-- **Licenses form a bijection and are kept for life.** After every run from the empty store the
licenses with an owner are those from one to the count, no two of them have the same owner, and the
record of the owner has that license; every record with a license is that of the owner of the
license, and every whitelisted participant has one. Whatever happens next, a participant keeps its
license and a license its owner. -/
theorem licenses_are_for_life (engine : Engine) (bootstrap : WritingKey) (txValidity : Hash)
    (events : List ReplicaEvent) :
    let replica := (fresh engine bootstrap txValidity).run events
    ∃ count, replica.store.view.licenseCount = .ok count ∧
      (∀ l, 1 ≤ l → l ≤ count → ∃ a node, replica.store.view.licenseOwner l = .ok (some a) ∧
        replica.node a = .ok (some node) ∧ node.license = l) ∧
      (∀ l, ¬ (1 ≤ l ∧ l ≤ count) → replica.store.view.licenseOwner l = .ok none) ∧
      (∀ l m a, replica.store.view.licenseOwner l = .ok (some a) →
        replica.store.view.licenseOwner m = .ok (some a) → l = m) ∧
      (∀ a, ∃ node?, replica.node a = .ok node? ∧ ∀ node, node? = some node →
        (node.license ≠ 0 → replica.store.view.licenseOwner node.license = .ok (some a)) ∧
          (node.role.isWhitelisted → node.license ≠ 0)) ∧
      ∀ later,
        (∀ a node, replica.node a = .ok (some node) → node.license ≠ 0 →
          ∃ node', (replica.run later).node a = .ok (some node') ∧
            node'.license = node.license) ∧
        ∀ l a, replica.store.view.licenseOwner l = .ok (some a) →
          (replica.run later).store.view.licenseOwner l = .ok (some a) := by
  intro replica
  obtain ⟨count, h⟩ := licensesStand_run engine bootstrap txValidity events
  have h : replica.store.view.LicensesStand count := h
  have hlegible : replica.store.view.Legible := legible_run engine bootstrap txValidity events
  refine ⟨count, h.count_eq, fun l hone hle ↦ ?_, h.free, fun l m a hl hm ↦ ?_, fun a ↦ ?_,
    fun later ↦ ⟨fun a node hnode hlicense ↦ ?_, fun l a howner ↦ ?_⟩⟩
  · obtain ⟨a, howner⟩ := h.issued l hone hle
    obtain ⟨node, hnode, hlicense⟩ :=
      (View.license_eq_ok_iff (h.owner_ne_zero howner)).mp (h.owner howner)
    exact ⟨a, node, howner, hnode, hlicense⟩
  · exact Except.ok.inj ((h.owner hl).symm.trans (h.owner hm))
  · obtain ⟨node?, hnode⟩ := hlegible.node a
    refine ⟨node?, hnode, ?_⟩
    rintro node rfl
    have hlicense : replica.store.view.license a = .ok node.license :=
      View.license_of_standing (View.standing_of_node hnode)
    refine ⟨fun hne ↦ (h.owner_iff _ hne a).mpr hlicense, fun hwhitelisted ↦ ?_⟩
    obtain ⟨l, hl, hhas⟩ := h.listed a ⟨node.standing, View.standing_of_node hnode, hwhitelisted⟩
    rw [hlicense] at hhas
    cases hhas
    exact hl
  · have hbefore : replica.store.view.license a = .ok node.license :=
      View.license_of_standing (View.standing_of_node hnode)
    exact (View.license_eq_ok_iff hlicense).mp (license_run replica later hlicense hbefore)
  · obtain ⟨count', hlater⟩ := licensesStand_run engine bootstrap txValidity (events ++ later)
    rw [run_append] at hlater
    have hl := h.owner_ne_zero howner
    exact (hlater.owner_iff l hl a).mpr (license_run replica later hl (h.owner howner))

end Replica

end SettlementLedger
