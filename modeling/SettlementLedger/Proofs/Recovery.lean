import SettlementLedger.Operation.Assembly
import SettlementLedger.Proofs.Members
import SettlementLedger.Proofs.Registration

/-!
# The administrator endures, and its old logs are dead

Who the administrator is and which key it writes under is said three times: in the administrator
record, in its node record and in the registry of writing keys. The three agree in every reachable
state (`View.AdminStands`, `View.KeysBound`).

A recovery leaves the old key bound to the administrator, who no longer writes under it
(`View.Retired`). The key is then useless for good: a validator on its log would have to be the
administrator, and be a writer under the old key. Nor does anybody else come to hold it, since a
participant holds a key that is bound to it (`View.KeysHeld`), or the zero key of a new record. This
last case is real: a ledger may be founded on the zero key, and then every new record names the key
that the administrator has given up.
-/

set_option autoImplicit false
set_option relaxedAutoImplicit false

namespace SettlementLedger

namespace View

variable {view before after : View} {address : Address} {old standing : Standing}
  {key : WritingKey}

/-! ### The writing key that a record names -/

/-- The writing key of a participant, the zero key if it has no record. -/
def heldKey (view : View) (a : Address) : Except ViewError WritingKey :=
  (view.standing a).map Standing.writingKey

theorem heldKey_of_standing {a : Address} (h : view.standing a = .ok standing) :
    view.heldKey a = .ok standing.writingKey := by
  rw [heldKey, h]
  rfl

theorem heldKey_congr {a : Address} (h : after.standing a = before.standing a) :
    after.heldKey a = before.heldKey a := by
  rw [heldKey, heldKey, h]

/-- No record names another writing key, and no binding has changed. -/
structure SameKeys (before after : View) : Prop where
  held : ∀ a, after.heldKey a = before.heldKey a
  writerOwner : ∀ key, after.writerOwner key = before.writerOwner key

theorem SameStanding.sameKeys (h : before.SameStanding after) : before.SameKeys after :=
  ⟨fun a ↦ heldKey_congr (h.standing a), h.writerOwner⟩

theorem Restands.sameKeys (h : before.Restands after address standing)
    (hold : before.standing address = .ok old) (hkey : standing.writingKey = old.writingKey) :
    before.SameKeys after where
  held a := by
    by_cases ha : a = address
    · rw [ha, heldKey_of_standing h.standing.self, heldKey_of_standing hold, hkey]
    · exact heldKey_congr (h.standing.other ha)
  writerOwner := h.writerOwner

/-- Whoever names a writing key has it bound to it; or the key is the zero key of a new record, and
nothing is bound to the participant. -/
def KeysHeld (view : View) : Prop :=
  ∀ a key, view.heldKey a = .ok key → view.writerOwner key = .ok (some a) ∨
    (key = .zero ∧ ∀ k, view.writerOwner k ≠ .ok (some a))

namespace KeysHeld

theorem same (h : before.KeysHeld) (hsame : before.SameKeys after) : after.KeysHeld := by
  intro a key hheld
  rw [hsame.held] at hheld
  simp only [hsame.writerOwner]
  exact h a key hheld

theorem enrolls (h : before.KeysHeld) (henrolls : before.Enrolls after address standing) :
    after.KeysHeld := by
  intro a key hheld
  by_cases ha : a = address
  · rw [ha, heldKey_of_standing henrolls.standing.self] at hheld
    cases hheld
    rw [henrolls.writerOwner, if_pos rfl, ha]
    exact Or.inl rfl
  · rw [heldKey_congr (henrolls.standing.other ha)] at hheld
    rcases h a key hheld with howner | ⟨hzero, hnone⟩
    · exact Or.inl (henrolls.keepsOwner howner)
    · refine Or.inr ⟨hzero, fun k hk ↦ ?_⟩
      rw [henrolls.writerOwner] at hk
      by_cases hkey : k = standing.writingKey
      · rw [if_pos hkey] at hk
        exact ha (Option.some.inj (Except.ok.inj hk)).symm
      · rw [if_neg hkey] at hk
        exact hnone k hk

end KeysHeld

/-! ### Keys that the administrator has given up -/

/-- A writing key is bound to the administrator, who writes under another one. -/
def Retired (view : View) (key : WritingKey) : Prop :=
  ∃ admin, view.admin = .ok (some admin) ∧ view.writerOwner key = .ok (some admin.address) ∧
    admin.writingKey ≠ key

/-- A key that the administrator has given up is bound to nobody that names it: it is bound to the
administrator, who names another one. -/
theorem Retired.not_bound (h : view.Retired key) (hstands : view.AdminStands) {a : Address}
    {node : NodeRecord} (hnode : view.node a = .ok (some node)) (hkey : node.writingKey = key) :
    view.writerOwner key ≠ .ok (some a) := by
  intro hself
  obtain ⟨admin, hadmin, howner, hne⟩ := h
  obtain ⟨known, standing, hknown, hstanding, -, hsame⟩ := hstands
  rw [hadmin] at hknown
  cases hknown
  rw [howner] at hself
  cases hself
  rw [standing_of_node hnode] at hstanding
  cases hstanding
  exact hne (hsame.symm.trans hkey)

/-- Under a key that the administrator has given up nobody is a writer. -/
theorem Retired.not_isWriter (h : view.Retired key) (hbound : view.KeysBound)
    (hstands : view.AdminStands) {a : Address} {node : NodeRecord}
    (hnode : view.node a = .ok (some node)) (hkey : node.writingKey = key) :
    ¬ node.role.isWriter := by
  intro hwriter
  have hself := hbound.node hnode hwriter
  rw [hkey] at hself
  exact h.not_bound hstands hnode hkey hself

/-- Who names a key that the administrator has given up names the zero key, and no key was ever
bound to it. -/
theorem Retired.held_eq_zero (h : view.Retired key) (hheld : view.KeysHeld)
    (hstands : view.AdminStands) {a : Address} {node : NodeRecord}
    (hnode : view.node a = .ok (some node)) (hkey : node.writingKey = key) :
    key = .zero ∧ ∀ k, view.writerOwner k ≠ .ok (some a) := by
  have hnames : view.heldKey a = .ok key :=
    (heldKey_of_standing (standing_of_node hnode)).trans (congrArg Except.ok hkey)
  exact (hheld a key hnames).resolve_left (h.not_bound hstands hnode hkey)

/-- Nothing that is delivered on the log of a key that the administrator has given up has the
authority that its kind needs. -/
theorem Retired.not_entitled (h : view.Retired key) (hbound : view.KeysBound)
    (hstands : view.AdminStands) {op : Operation} {suite : Suite} {bootstrap : WritingKey} :
    ¬ op.Entitled suite bootstrap key view := by
  intro hentitled
  have hnotWriter {a : Address} {node : NodeRecord} (hnode : view.node a = .ok (some node))
      (hkey : node.writingKey = key) : ¬ node.role.isWriter :=
    h.not_isWriter hbound hstands hnode hkey
  obtain ⟨admin, hadmin, -, hne⟩ := h
  by_cases hkind : op.kind = .addAdmin
  · have hnone := (hentitled.registers hkind).1
    rw [hadmin] at hnone
    cases hnone
  rcases Kind.needs_of_ne_addAdmin hkind with hadminOnly | hrequires
  · have hlog := hentitled.administers hadminOnly
    rw [hadmin] at hlog
    cases hlog
    exact hne rfl
  · obtain ⟨cosignature, -, -, -, ⟨node, hnode, hwriter, hkey⟩, -⟩ := hentitled.cosigned hrequires
    exact hnotWriter hnode hkey hwriter

end View

/-! ### Steps -/

namespace Operation.StandingStep

open View

variable {op : Operation} {bootstrap : WritingKey} {members : Membership} {before after : View}
  {changes : MembershipDiff}

/-- An applied operation changes no writing key, or it binds the key that a participant moves to. -/
theorem keys (h : op.StandingStep bootstrap members before after changes) :
    before.SameKeys after ∨ ∃ address standing, before.Enrolls after address standing := by
  cases h with
  | keeps kind same => exact Or.inl same.sameKeys
  | registers standing kind noAdmin role key admin enrolls => exact Or.inr ⟨_, _, enrolls⟩
  | whitelists admin target node? license kind body isAdmin node role restands =>
    exact Or.inl (restands.sameKeys (standing_of_node node) rfl)
  | bans admin target node kind body isAdmin other found whitelisted role restands =>
    exact Or.inl (restands.sameKeys (standing_of_node found) rfl)
  | promotes admin target node kind body isAdmin found writer role absent restands =>
    exact Or.inl (restands.sameKeys (standing_of_node found) rfl)
  | demotes admin target node changes kind body isAdmin found role removal restands =>
    exact Or.inl (restands.sameKeys (standing_of_node found) rfl)
  | enlists node key stake kind body found whitelisted role admin enrolls =>
    exact Or.inr ⟨_, _, enrolls⟩
  | releases admin? node changes kind isAdmin other found writer removal restands =>
    exact Or.inl (restands.sameKeys (standing_of_node found) rfl)
  | recovers admin node key kind body isAdmin requester unbound member absent found adminAfter
      enrolls =>
    exact Or.inr ⟨_, _, enrolls⟩

theorem keysHeld (h : op.StandingStep bootstrap members before after changes)
    (hheld : before.KeysHeld) : after.KeysHeld := by
  rcases h.keys with same | ⟨address, standing, enrolls⟩
  · exact hheld.same same
  · exact hheld.enrolls enrolls

/-- A key that the administrator has given up stays bound to it, and it never takes it up again. -/
theorem retired (h : op.StandingStep bootstrap members before after changes) {key : WritingKey}
    (hretired : before.Retired key) : after.Retired key := by
  obtain ⟨admin, hadmin, howner, hne⟩ := hretired
  rcases h.admin_cases hadmin with hsame | ⟨new, hunbound, hmoved⟩
  · exact ⟨admin, hsame, h.writerOwner howner, hne⟩
  · refine ⟨⟨admin.address, new⟩, hmoved, h.writerOwner howner, fun hkey ↦ ?_⟩
    have hnew : new = key := hkey
    rw [hnew, howner] at hunbound
    cases hunbound

/-- A recovery makes the administrator give up the key that it has. -/
theorem retires (h : op.StandingStep bootstrap members before after changes)
    (hkind : op.kind = .adminRecovery) (hbefore : before.Governed members) :
    ∃ admin, before.admin = .ok (some admin) ∧ after.Retired admin.writingKey := by
  cases h with
  | recovers admin node key kind body isAdmin requester unbound member absent found adminAfter
      enrolls =>
    have hstanding := standing_of_node found
    obtain ⟨hrole, hkey⟩ := hbefore.admin_isIndexer isAdmin hstanding member
    have howner := hbefore.keysBound _ _ hstanding (Role.isWriter_of_isIndexer hrole)
    rw [hkey] at howner
    refine ⟨admin, isAdmin, _, adminAfter, enrolls.keepsOwner howner, fun hsame ↦ ?_⟩
    have hsame : key = admin.writingKey := hsame
    rw [hsame, howner] at unbound
    cases unbound
  | keeps kind | registers _ kind | whitelists _ _ _ _ kind | bans _ _ _ kind
  | promotes _ _ _ kind | demotes _ _ _ _ kind | enlists _ _ _ kind | releases _ _ _ kind =>
    simp [hkind] at kind

end Operation.StandingStep

/-! ### Runs -/

namespace Replica

open View

variable {replica : Replica} {delivery : Delivery} {op : Operation} {effect : Effect}
  {initializing : Bool} {draft : Draft} {key : WritingKey}

theorem keysHeld_run (engine : Engine) (bootstrap : WritingKey) (txValidity : Hash)
    (events : List ReplicaEvent) :
    ((fresh engine bootstrap txValidity).run events).store.view.KeysHeld := by
  refine run_induction (P := fun replica ↦ replica.store.view.KeysHeld) (fun _ _ h ↦ h) ?_ _
    (fun a key hheld ↦ ?_) events
  · intro replica delivery op effect h heffect
    obtain ⟨initializing, draft, happlied⟩ := applied_of_effect heffect
    exact happlied.standingStep.keysHeld h
  · cases hheld
    exact Or.inr ⟨rfl, nofun⟩

/-- The administrator of a replica has given up a writing key. -/
structure Retires (replica : Replica) (key : WritingKey) : Prop where
  governed : replica.store.view.Governed replica.members
  keysHeld : replica.store.view.KeysHeld
  retired : replica.store.view.Retired key

namespace Retires

theorem applied (h : replica.Retires key)
    (happlied : replica.Applied delivery op effect initializing draft) :
    (replica.commit effect.writes effect.changes).Retires key where
  governed := happlied.standingStep.governed h.governed
  keysHeld := happlied.standingStep.keysHeld h.keysHeld
  retired := happlied.standingStep.retired h.retired

theorem log_ne (h : replica.Retires key)
    (happlied : replica.Applied delivery op effect initializing draft) : delivery.log ≠ key := by
  rintro rfl
  exact h.retired.not_entitled h.governed.keysBound h.governed.adminStands happlied.entitled

/-- Whatever happens next, the key stays given up, and nothing on its log is applied. -/
theorem history (h : replica.Retires key) (events : List ReplicaEvent) :
    (replica.run events).Retires key ∧
      ∀ taken ∈ replica.history events, taken.delivery.log = key → ¬ taken.isApplied := by
  refine history_forall (P := fun replica ↦ replica.Retires key)
    (fun _ _ h ↦ ⟨h.governed, h.keysHeld, h.retired⟩) (fun _ _ _ _ ↦ nofun) ?_ replica h events
  intro replica delivery op effect h heffect
  obtain ⟨initializing, draft, happlied⟩ := applied_of_effect heffect
  exact ⟨h.applied happlied, fun hlog ↦ absurd hlog (h.log_ne happlied)⟩

end Retires

/-- Where a recovery is applied, the administrator gives up the key that it had. -/
theorem retires_of_recovery {batch : List Delivery} {tx : Hash}
    (hstand : (replica.apply batch).1.MembersStand)
    (hheld : (replica.apply batch).1.store.view.KeysHeld)
    (h : (replica.apply (batch ++ [delivery])).2.outcomes.getLast? =
      some ⟨some (.adminRecovery, tx), .applied⟩) :
    ∃ old, (replica.apply batch).1.store.view.admin = .ok (some old) ∧
      (replica.apply (batch ++ [delivery])).1.Retires old.writingKey := by
  obtain ⟨op, effect, initializing, draft, happlied, hkind, hafter⟩ := applied_of_getLast h
  rw [hafter]
  obtain ⟨key, hadmin⟩ := happlied.entitled.recovers hkind
  have hgoverned := hstand.governed hadmin
  obtain ⟨old, hold, hretired⟩ := happlied.standingStep.retires hkind hgoverned
  exact ⟨old, hold, happlied.standingStep.governed hgoverned,
    happlied.standingStep.keysHeld hheld, hretired⟩

/-- **The administrator endures, and its old logs are dead.** Until the administrator is registered
nothing is applied and nothing is stored; the registration is applied once, and from then on the
administrator is the same participant for good, a writer or an indexer under the key that its record
names, with this key bound to it. After a recovery the administrator never has the old key again,
nothing that is delivered on the old log is ever applied, and nobody is a writer under the old key.
Nor does any record name it, unless it is the zero key: then the records of participants to which no
key was ever bound still do. -/
theorem administrator_endures (engine : Engine) (bootstrap : WritingKey) (txValidity : Hash)
    (events : List ReplicaEvent) :
    let replica := (fresh engine bootstrap txValidity).run events
    (match (fresh engine bootstrap txValidity).appliedKinds events with
      | [] => replica.store = .empty
      | first :: others => first = .addAdmin ∧ .addAdmin ∉ others ∧
          ∃ admin node, replica.store.view.admin = .ok (some admin) ∧
            replica.node admin.address = .ok (some node) ∧
            (node.role = .writer ∨ node.role = .indexer) ∧
            node.writingKey = admin.writingKey ∧
            replica.store.view.writerOwner admin.writingKey = .ok (some admin.address) ∧
            ∀ later, ∃ key,
              (replica.run later).store.view.admin = .ok (some ⟨admin.address, key⟩)) ∧
      ∀ batch delivery tx,
        let before := (replica.apply batch).1
        let after := (replica.apply (batch ++ [delivery])).1
        (replica.apply (batch ++ [delivery])).2.outcomes.getLast? =
            some ⟨some (.adminRecovery, tx), .applied⟩ →
          ∃ old, before.store.view.admin = .ok (some old) ∧ ∀ later,
            let last := after.run later
            (∃ key, last.store.view.admin = .ok (some ⟨old.address, key⟩) ∧
                key ≠ old.writingKey) ∧
              (∀ a node, last.node a = .ok (some node) → node.writingKey = old.writingKey →
                ¬ node.role.isWriter ∧ old.writingKey = .zero ∧
                  ∀ key, last.store.view.writerOwner key ≠ .ok (some a)) ∧
              ∀ taken ∈ after.history later, taken.delivery.log = old.writingKey →
                ¬ taken.isApplied := by
  intro replica
  have hstand : replica.MembersStand := membersStand_run engine bootstrap txValidity events
  refine ⟨?_, ?_⟩
  · have hregistered : replica.Registered _ := registered_run engine bootstrap txValidity events
    revert hregistered
    generalize (fresh engine bootstrap txValidity).appliedKinds events = kinds
    rintro (hstore | ⟨admin, others, hadmin, honce⟩)
    · exact hstore
    · have hgoverned := hstand.governed hadmin
      obtain ⟨node, hnode, hrole, hkey, howner⟩ :=
        hgoverned.adminStands.record hgoverned.keysBound hadmin
      exact ⟨rfl, honce, admin, node, hadmin, hnode, hrole, hkey, howner,
        fun later ↦ admin_run replica later ⟨_, hadmin⟩⟩
  · intro batch delivery tx before after hrecovery
    have hrun : (fresh engine bootstrap txValidity).run (events ++ [.batch batch]) = before :=
      run_batch _ events batch
    have hstand : before.MembersStand := hrun ▸ membersStand_run engine bootstrap txValidity _
    have hheld : before.store.view.KeysHeld := hrun ▸ keysHeld_run engine bootstrap txValidity _
    obtain ⟨old, hold, hretires⟩ := retires_of_recovery hstand hheld hrecovery
    have hafter : after = (before.apply [delivery]).1 := by
      show (replica.apply (batch ++ [delivery])).1 = _
      rw [apply_append]
    refine ⟨old, hold, ?_⟩
    intro later last
    obtain ⟨hlast, hdead⟩ := hretires.history later
    obtain ⟨key, hadmin⟩ : ∃ key, last.store.view.admin = .ok (some ⟨old.address, key⟩) := by
      have hlast : last = before.run (.batch [delivery] :: later) :=
        congrArg (run · later) hafter
      rw [hlast]
      exact admin_run before _ ⟨_, hold⟩
    refine ⟨⟨key, hadmin, ?_⟩, fun a node hnode hkey ↦ ?_, hdead⟩
    · obtain ⟨admin, hknown, -, hne⟩ := hlast.retired
      rw [hadmin] at hknown
      cases hknown
      exact hne
    · exact ⟨hlast.retired.not_isWriter hlast.governed.keysBound hlast.governed.adminStands hnode
        hkey, hlast.retired.held_eq_zero hlast.keysHeld hlast.governed.adminStands hnode hkey⟩

end Replica

/-! ### A ledger that is founded on the zero key -/

theorem eq_ok_of_toOption {ε α : Type} {x : Except ε α} {a : α} (h : x.toOption = some a) :
    x = .ok a := by
  cases x with
  | error cause => cases h
  | ok found => exact congrArg Except.ok (Option.some.inj h)

namespace ZeroFounding

/-- A suite that signs nothing and takes every signature: its hash is the end of the message. -/
def suite : Suite where
  hash message := ⟨(message.reverse ++ List.replicate 32 0).take 32, by
    simp [IdentifierRole.width]⟩
  isKey _ := true
  verify _ _ _ := true
  publicKey seed := seed.cast rfl
  sign _ _ := .zero

/-- A ledger without fees. -/
def engine : Engine where
  suite := suite
  config := { fee := .zero, writerStake := .whole 1 }
  config_valid := rfl

/-- An identifier that repeats one byte. -/
def repeated {role : IdentifierRole} (byte : UInt8) : Identifier role :=
  ⟨List.replicate role.width byte, List.length_replicate⟩

/-- The participant whose seed repeats one byte. -/
def participant (byte : UInt8) : Address := ⟨repeated byte⟩

/-- What a requester delivers on a log, with the cosignature of a validator if there is one. -/
def deliver (log : WritingKey) (kind : Kind) (body : Body) (requester nonce : UInt8)
    (validator? : Option UInt8 := none) : Delivery where
  log
  bytes :=
    let signed := Operation.sign suite kind body .zero (repeated nonce) (repeated requester)
    let complete := match validator? with
      | none => signed
      | some validator => signed.bind fun op ↦
          op.cosign suite (repeated validator) (repeated nonce)
    (complete.toOption.bind fun op ↦ op.encode.toOption).getD []

/-- The first participant becomes the administrator under the zero key, the second one a writer, and
the third one is whitelisted. -/
def founding : List Delivery :=
  [deliver .zero .addAdmin (.coreAdmin .zero) 1 1,
    deliver .zero .balanceInitialization (.balanceInitialization (participant 2) (.whole 1)) 1 2,
    deliver .zero .appendWhitelist (.adminControl (participant 2)) 1 3,
    deliver .zero .addWriter (.roleAccess (repeated 2)) 2 4 (some 1),
    deliver .zero .appendWhitelist (.adminControl (participant 3)) 1 5]

/-- The administrator gives up the zero key. -/
def recovery : Delivery :=
  deliver (repeated 2) .adminRecovery (.roleAccess (repeated 3)) 1 6 (some 2)

/-- The replica after the founding. -/
def founded : Replica := (Replica.fresh engine .zero .zero).run [.batch founding]

/-- The administrator is under the zero key, its recovery is applied, and the record of the third
participant names the zero key afterwards. -/
theorem recovered :
    founded.store.view.admin.toOption = some (some ⟨participant 1, .zero⟩) ∧
      (founded.apply [recovery]).2.outcomes.map (fun outcome ↦
        (outcome.identity.map Prod.fst, outcome.verdict)) = [(some .adminRecovery, .applied)] ∧
      ((founded.apply [recovery]).1.node (participant 3)).toOption.map
        (Option.map NodeRecord.writingKey) = some (some .zero) := by
  decide +kernel

/-- A record may name a key that the administrator has given up: where this is the zero key, every
record of a participant that never had a key does. -/
theorem given_up_key_still_named :
    ¬ ∀ (engine : Engine) (bootstrap : WritingKey) (txValidity : Hash)
      (events : List ReplicaEvent) (delivery : Delivery),
      let before := (Replica.fresh engine bootstrap txValidity).run events
      let after := (before.apply [delivery]).1
      (before.apply [delivery]).2.outcomes.map (fun outcome ↦
          (outcome.identity.map Prod.fst, outcome.verdict)) = [(some .adminRecovery, .applied)] →
        ∀ old, before.store.view.admin = .ok (some old) →
          ∀ a node, after.node a = .ok (some node) → node.writingKey ≠ old.writingKey := by
  intro h
  obtain ⟨hadmin, happlied, hnamed⟩ := recovered
  have hfounded : (Replica.fresh engine .zero .zero).run [.batch founding] = founded := rfl
  have hnot := h engine .zero .zero [.batch founding] recovery
  simp only [hfounded] at hnot
  obtain ⟨node?, hnode, hkey⟩ := Option.map_eq_some_iff.mp hnamed
  obtain ⟨node, rfl, hzero⟩ := Option.map_eq_some_iff.mp hkey
  exact hnot happlied _ (eq_ok_of_toOption hadmin) _ node (eq_ok_of_toOption hnode) hzero

end ZeroFounding

end SettlementLedger
