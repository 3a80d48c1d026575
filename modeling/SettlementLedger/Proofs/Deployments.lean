import SettlementLedger.Proofs.LastWrites
import SettlementLedger.Proofs.Replay
import SettlementLedger.Proofs.Standing

/-!
# Deployments are first come and traceable

An external bootstrap key is registered by one operation, and the registration names the requester
and the hash of that operation. The records of a store are exactly the registrations that its
history applied (`Replica.Deployed`): the rule refuses a key that has a record, and no other kind of
operation may write one (`Operation.MayWrite`). So the first registration stands for good.

The hash in a record leads to a replay marker, and its bytes to the operation that registered the
key. A transaction needs the record of the key that it names, so that the registration was applied
before it.
-/

set_option autoImplicit false
set_option relaxedAutoImplicit false

namespace SettlementLedger

/-- An operation registers an external bootstrap key, and this is the record of it. -/
def Operation.Deploys (op : Operation) (external : WritingKey) (record : DeploymentRecord) : Prop :=
  op.kind = .bootstrapDeployment ∧ (∃ channel, op.body = .bootstrapDeployment external channel) ∧
    record = ⟨op.requester, op.tx⟩

/-- An operation settles a transaction of the subnetwork of an external bootstrap key against the
ledger of another one. -/
def Operation.Settles (op : Operation) (external ledger : WritingKey) : Prop :=
  op.kind = .transaction ∧ ∃ writer content, op.body = .transaction writer content external ledger

/-- A delivery that was applied registered an external bootstrap key. -/
def Taken.Deploys (taken : Taken) (external : WritingKey) (record : DeploymentRecord) : Prop :=
  taken.isApplied ∧ ∃ op, taken.delivery.operation = .ok op ∧ op.Deploys external record

/-! ### The rules -/

namespace Setting

variable {setting : Setting} {draft result : Draft} {external ledger : WritingKey}

/-- The key that is registered is not the ledger's own and has no record yet. -/
theorem deployment_of_bootstrapDeployment
    (h : setting.bootstrapDeployment draft external = .ok result) :
    external ≠ setting.bootstrap ∧ draft.view.deployment external = .ok none ∧
      result.view.deployment external =
        .ok (some ⟨setting.operation.requester, setting.operation.tx⟩) := by
  obtain ⟨hother, hnone, validator, -, hsettle⟩ := bootstrapDeployment_eq_ok.mp h
  refine ⟨hother, hnone, ?_⟩
  rw [View.deployment, View.readAs_congr ((movesBalances_of_settle hsettle).read _ (by simp))]
  exact draft.readAs_put_self _ (DeploymentRecord.decode_encode _)

theorem deployment_of_deploys {record : DeploymentRecord} (h : setting.rule draft = .ok result)
    (hdeploys : setting.operation.Deploys external record) :
    external ≠ setting.bootstrap ∧ draft.view.deployment external = .ok none ∧
      result.view.deployment external = .ok (some record) := by
  obtain ⟨hkind, ⟨channel, hbody⟩, rfl⟩ := hdeploys
  cases ruling_of_rule h with
  | bootstrapDeployment bootstrap channel kind body ok =>
    rw [hbody] at body
    cases body
    exact deployment_of_bootstrapDeployment ok
  | addAdmin _ kind | disableInitialization _ kind | balanceInitialization _ _ kind
  | appendWhitelist _ kind | banValidator _ kind | addIndexer _ kind | removeIndexer _ kind
  | addWriter _ kind | removeWriter _ kind | adminRecovery _ kind | transfer _ _ kind
  | transaction _ _ _ _ kind =>
    rw [hkind] at kind
    cases kind

/-- A transaction is settled against this ledger, for a key that has a record. -/
theorem deployment_of_settles (h : setting.rule draft = .ok result)
    (hsettles : setting.operation.Settles external ledger) :
    ledger = setting.bootstrap ∧ ∃ record, draft.view.deployment external = .ok (some record) := by
  obtain ⟨hkind, writer, content, hbody⟩ := hsettles
  cases ruling_of_rule h with
  | transaction _ _ _ _ kind body ok =>
    rw [hbody] at body
    cases body
    obtain ⟨hledger, hrecord, -⟩ := transaction_eq_ok.mp ok
    exact ⟨hledger, hrecord⟩
  | addAdmin _ kind | disableInitialization _ kind | balanceInitialization _ _ kind
  | appendWhitelist _ kind | banValidator _ kind | addIndexer _ kind | removeIndexer _ kind
  | addWriter _ kind | removeWriter _ kind | adminRecovery _ kind | transfer _ _ kind
  | bootstrapDeployment _ _ kind =>
    rw [hkind] at kind
    cases kind

end Setting

/-! ### Applied operations -/

namespace Replica

variable {replica : Replica} {delivery : Delivery} {op : Operation} {effect : Effect}
  {initializing : Bool} {draft : Draft} {external ledger : WritingKey} {record : DeploymentRecord}
  {history : List Taken}

namespace Applied

theorem deploys (h : replica.Applied delivery op effect initializing draft)
    (hdeploys : op.Deploys external record) :
    external ≠ replica.bootstrap ∧ replica.store.view.deployment external = .ok none ∧
      (replica.commit effect.writes effect.changes).store.view.deployment external =
        .ok (some record) := by
  obtain ⟨hother, hnone, hrecord⟩ := Setting.deployment_of_deploys h.rule hdeploys
  refine ⟨hother, hnone, ?_⟩
  rw [h.view]
  exact (draft.readAs_put_of_ne (by simp) _ _).trans hrecord

/-- An applied operation leaves the records as they are and adds its own. -/
theorem deployment_iff (h : replica.Applied delivery op effect initializing draft) :
    (replica.commit effect.writes effect.changes).store.view.deployment external =
        .ok (some record) ↔
      replica.store.view.deployment external = .ok (some record) ∨ op.Deploys external record := by
  by_cases hdeploys : ∃ own, op.Deploys external own
  · obtain ⟨own, hdeploys⟩ := hdeploys
    obtain ⟨-, hnone, hown⟩ := h.deploys hdeploys
    rw [hown, hnone]
    constructor
    · intro hrecord
      cases hrecord
      exact Or.inr hdeploys
    · rintro (hbefore | ⟨-, -, rfl⟩)
      · cases hbefore
      · rw [hdeploys.2.2]
  · have hsame : (replica.commit effect.writes effect.changes).store.view.deployment external =
        replica.store.view.deployment external := by
      refine View.readAs_congr (h.read_eq (by simp) fun value hmay ↦ ?_) _
      exact hdeploys ⟨_, hmay.1, hmay.2.1, rfl⟩
    rw [hsame]
    exact (or_iff_left fun hown ↦ hdeploys ⟨record, hown⟩).symm

end Applied

/-- A record is never changed. -/
theorem deployment_run (replica : Replica) (events : List ReplicaEvent)
    (h : replica.store.view.deployment external = .ok (some record)) :
    (replica.run events).store.view.deployment external = .ok (some record) := by
  refine run_induction
    (P := fun replica ↦ replica.store.view.deployment external = .ok (some record))
    (fun _ _ h ↦ h) ?_ replica h events
  intro replica delivery op effect h heffect
  obtain ⟨initializing, draft, happlied⟩ := applied_of_effect heffect
  exact happlied.deployment_iff.mpr (Or.inl h)

/-! ### Records and histories -/

/-- The deployment records of a replica against its history: they are the registrations that it
applied, none of them of the ledger's own key, and every transaction that it applied came after the
registration of its key. -/
structure Deployed (replica : Replica) (history : List Taken) : Prop where
  record_iff : ∀ external record, replica.store.view.deployment external = .ok (some record) ↔
    ∃ taken ∈ history, taken.Deploys external record
  external : ∀ external record, replica.store.view.deployment external = .ok (some record) →
    external ≠ replica.bootstrap
  settled : ∀ earlier taken later op external ledger, history = earlier ++ taken :: later →
    taken.isApplied → taken.delivery.operation = .ok op → op.Settles external ledger →
      ledger = replica.bootstrap ∧ ∃ past ∈ earlier, ∃ record, past.Deploys external record

namespace Deployed

theorem moved (h : replica.Deployed history) (digest : Hash) :
    (replica.withTxValidity digest).Deployed history :=
  ⟨h.record_iff, h.external, h.settled⟩

theorem skipped (h : replica.Deployed history) (delivery : Delivery)
    (identity : Option (Kind × Hash)) (refusal : Refusal) :
    replica.Deployed (history ++ [⟨delivery, identity, .skipped refusal⟩]) where
  record_iff external record := by
    rw [h.record_iff]
    constructor
    · rintro ⟨taken, hmem, hdeploys⟩
      exact ⟨taken, List.mem_append_left _ hmem, hdeploys⟩
    · rintro ⟨taken, hmem, hdeploys⟩
      rcases List.mem_append.mp hmem with hearlier | hlast
      · exact ⟨taken, hearlier, hdeploys⟩
      · cases List.mem_singleton.mp hlast
        cases hdeploys.1
  external := h.external
  settled earlier taken later op external ledger hplace happlied hcarried hsettles := by
    rcases concat_eq_append_cons hplace with ⟨-, rfl, -⟩ | ⟨between, -, hplace⟩
    · cases happlied
    · exact h.settled earlier taken between op external ledger hplace happlied hcarried hsettles

theorem applied (h : replica.Deployed history)
    (happlied : replica.Applied delivery op effect initializing draft)
    (identity : Option (Kind × Hash)) :
    (replica.commit effect.writes effect.changes).Deployed
      (history ++ [⟨delivery, identity, .applied⟩]) where
  record_iff external record := by
    rw [happlied.deployment_iff, h.record_iff]
    constructor
    · rintro (⟨taken, hmem, hdeploys⟩ | hdeploys)
      · exact ⟨taken, List.mem_append_left _ hmem, hdeploys⟩
      · exact ⟨_, List.mem_append_right _ List.mem_cons_self, rfl, op, happlied.carried, hdeploys⟩
    · rintro ⟨taken, hmem, hdeploys⟩
      rcases List.mem_append.mp hmem with hearlier | hlast
      · exact Or.inl ⟨taken, hearlier, hdeploys⟩
      · cases List.mem_singleton.mp hlast
        obtain ⟨-, found, hfound, hdeploys⟩ := hdeploys
        cases happlied.carried.symm.trans hfound
        exact Or.inr hdeploys
  external external record hrecord := by
    rcases happlied.deployment_iff.mp hrecord with hbefore | hdeploys
    · exact h.external external record hbefore
    · exact (happlied.deploys hdeploys).1
  settled earlier taken later found external ledger hplace htaken hfound hsettles := by
    rcases concat_eq_append_cons hplace with ⟨rfl, rfl, -⟩ | ⟨between, -, hplace⟩
    · cases happlied.carried.symm.trans hfound
      obtain ⟨hledger, record, hrecord⟩ := Setting.deployment_of_settles happlied.rule hsettles
      obtain ⟨past, hpast, hdeploys⟩ := (h.record_iff external record).mp hrecord
      exact ⟨hledger, past, hpast, record, hdeploys⟩
    · exact h.settled earlier taken between found external ledger hplace htaken hfound hsettles

end Deployed

theorem deployed_run (engine : Engine) (bootstrap : WritingKey) (txValidity : Hash)
    (events : List ReplicaEvent) :
    ((fresh engine bootstrap txValidity).run events).Deployed
      ((fresh engine bootstrap txValidity).history events) := by
  have hfresh : (fresh engine bootstrap txValidity).Deployed [] := by
    refine ⟨fun external record ↦ ⟨nofun, ?_⟩, nofun, fun earlier taken later _ _ _ hplace ↦ ?_⟩
    · rintro ⟨taken, hmem, -⟩
      cases hmem
    · exact absurd hplace (by simp)
  refine history_induction (P := Deployed) (fun _ _ digest h ↦ h.moved digest)
    (fun _ _ delivery identity refusal h _ ↦ h.skipped delivery identity refusal) ?_
    (fresh engine bootstrap txValidity) [] hfresh events
  intro replica history delivery op effect h heffect
  obtain ⟨initializing, draft, happlied⟩ := applied_of_effect heffect
  exact h.applied happlied _

/-- The marker of a registration leads back to it. -/
theorem marker_of_deploys {engine : Engine} {bootstrap : WritingKey} {txValidity : Hash}
    {events : List ReplicaEvent} {taken : Taken}
    (hmem : taken ∈ (fresh engine bootstrap txValidity).history events)
    (hdeploys : taken.Deploys external record) :
    ∃ bytes op, ((fresh engine bootstrap txValidity).run events).store.view.appliedOperation
        record.tx = .ok (some bytes) ∧
      (∀ log, Delivery.operation ⟨log, bytes⟩ = .ok op) ∧ op.Deploys external record := by
  obtain ⟨happlied, op, hcarried, hdeploys⟩ := hdeploys
  have hmarked := marked_run engine bootstrap txValidity events
  have htx : record.tx = op.tx := congrArg DeploymentRecord.tx hdeploys.2.2
  refine ⟨taken.delivery.bytes, op, ?_, fun _ ↦ hcarried, hdeploys⟩
  rw [htx]
  exact (hmarked.marker_iff _ _).mpr (mem_applications hmem happlied hcarried)

/-- **Deployments are first come and traceable.** After every run from the empty store the record of
an external bootstrap key is not that of the ledger's own key, and its hash has a replay marker
whose bytes carry the registration of that key by that requester; so no two keys have records with
one hash. Every registration that was applied has its record, and whatever happens next the record
stays as it is. Every transaction that was applied names this ledger and a key that was registered
by an earlier delivery. -/
theorem deployments_are_traceable (engine : Engine) (bootstrap : WritingKey) (txValidity : Hash)
    (events : List ReplicaEvent) :
    let replica := (fresh engine bootstrap txValidity).run events
    let history := (fresh engine bootstrap txValidity).history events
    (∀ external record, replica.store.view.deployment external = .ok (some record) →
        external ≠ bootstrap ∧ ∃ bytes op,
          replica.store.view.appliedOperation record.tx = .ok (some bytes) ∧
            (∀ log, Delivery.operation ⟨log, bytes⟩ = .ok op) ∧ op.Deploys external record) ∧
      (∀ first second a b, replica.store.view.deployment first = .ok (some a) →
        replica.store.view.deployment second = .ok (some b) → a.tx = b.tx → first = second) ∧
      (∀ taken ∈ history, taken.isApplied → ∀ op, taken.delivery.operation = .ok op →
        op.kind = .bootstrapDeployment → ∃ external channel,
          op.body = .bootstrapDeployment external channel ∧
            replica.store.view.deployment external = .ok (some ⟨op.requester, op.tx⟩)) ∧
      (∀ later external record, replica.store.view.deployment external = .ok (some record) →
        (replica.run later).store.view.deployment external = .ok (some record)) ∧
      ∀ earlier taken later op, history = earlier ++ taken :: later → taken.isApplied →
        taken.delivery.operation = .ok op → op.kind = .transaction →
          ∃ writer content external, op.body = .transaction writer content external bootstrap ∧
            ∃ past ∈ earlier, ∃ record, past.Deploys external record := by
  intro replica history
  have hdeployed : replica.Deployed history := deployed_run engine bootstrap txValidity events
  have hbootstrap : replica.bootstrap = bootstrap := (run_fixed _ events).2
  have hmarker {external : WritingKey} {record : DeploymentRecord}
      (hrecord : replica.store.view.deployment external = .ok (some record)) :
      ∃ bytes op, replica.store.view.appliedOperation record.tx = .ok (some bytes) ∧
        (∀ log, Delivery.operation ⟨log, bytes⟩ = .ok op) ∧ op.Deploys external record := by
    obtain ⟨taken, hmem, hdeploys⟩ := (hdeployed.record_iff external record).mp hrecord
    exact marker_of_deploys hmem hdeploys
  refine ⟨fun external record hrecord ↦ ⟨?_, hmarker hrecord⟩, ?_, ?_,
    fun later external record hrecord ↦ deployment_run replica later hrecord, ?_⟩
  · exact hbootstrap ▸ hdeployed.external external record hrecord
  · intro first second a b hfirst hsecond htx
    obtain ⟨bytes, op, hread, hcarried, -, ⟨channel, hbody⟩, -⟩ := hmarker hfirst
    obtain ⟨bytes', op', hread', hcarried', -, ⟨channel', hbody'⟩, -⟩ := hmarker hsecond
    rw [htx, hread'] at hread
    cases hread
    cases (hcarried bootstrap).symm.trans (hcarried' bootstrap)
    rw [hbody] at hbody'
    cases hbody'
    rfl
  · intro taken hmem happlied op hcarried hkind
    obtain ⟨external, channel, hbody⟩ := Delivery.body_of_bootstrapDeployment hcarried hkind
    exact ⟨external, channel, hbody, (hdeployed.record_iff external _).mpr
      ⟨taken, hmem, happlied, op, hcarried, hkind, ⟨channel, hbody⟩, rfl⟩⟩
  · intro earlier taken later op hplace happlied hcarried hkind
    obtain ⟨writer, content, external, ledger, hbody⟩ :=
      Delivery.body_of_transaction hcarried hkind
    obtain ⟨rfl, hpast⟩ := hdeployed.settled earlier taken later op external ledger hplace happlied
      hcarried ⟨hkind, writer, content, hbody⟩
    exact ⟨writer, content, external, hbootstrap ▸ hbody, hpast⟩

end Replica

end SettlementLedger
