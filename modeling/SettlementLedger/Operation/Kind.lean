import SettlementLedger.Operation.Field

/-!
# Operation kinds and payload families

There are thirteen kinds of operation, numbered from one. Kinds whose payloads have the same shape
form a family, and the family says which fields a payload must have and which it may have.
-/

set_option autoImplicit false
set_option relaxedAutoImplicit false

namespace SettlementLedger

/-- The shape of a payload. -/
inductive Family where
  | coreAdmin
  | adminControl
  | roleAccess
  | balanceInitialization
  | transfer
  | transaction
  | bootstrapDeployment
  deriving DecidableEq, Repr

namespace Family

/-- Every family, in the order of the wire format. -/
def all : List Family :=
  [coreAdmin, adminControl, roleAccess, balanceInitialization, transfer, transaction,
    bootstrapDeployment]

/-- The position of a family in the wire format. -/
def index : Family → Nat
  | coreAdmin => 0
  | adminControl => 1
  | roleAccess => 2
  | balanceInitialization => 3
  | transfer => 4
  | transaction => 5
  | bootstrapDeployment => 6

/-- The family at a position of the wire format. -/
def ofIndex? (index : Nat) : Option Family := all[index]?

theorem ofIndex?_eq_some_iff {index : Nat} {family : Family} :
    ofIndex? index = some family ↔ family.index = index := by
  constructor
  · intro h
    have hall : ∀ i : Fin all.length, all[i].index = i := by decide
    obtain ⟨hlt, rfl⟩ := List.getElem?_eq_some_iff.mp h
    exact hall ⟨index, hlt⟩
  · rintro rfl
    cases family <;> rfl

/-- The name of a family. -/
def name : Family → String
  | coreAdmin => "core_admin"
  | adminControl => "admin_control"
  | roleAccess => "role_access"
  | balanceInitialization => "balance_initialization"
  | transfer => "transfer"
  | transaction => "transaction"
  | bootstrapDeployment => "bootstrap_deployment"

/-- The family with a name. -/
def ofName? (name : String) : Option Family :=
  all.find? (·.name == name)

/-- The fields that are particular to a family. -/
def content : Family → List Field
  | coreAdmin | roleAccess => [.writingKey]
  | adminControl => [.target]
  | balanceInitialization => [.target, .amount]
  | transfer => [.recipient, .amount]
  | transaction => [.writingKey, .contentHash, .externalBootstrap, .ledgerBootstrap]
  | bootstrapDeployment => [.externalBootstrap, .channel]

/-- The fields that every payload of a family has. -/
def required (family : Family) : List Field :=
  [.tx, .txValidity] ++ family.content ++ [.nonce, .signature]

/-- Whether payloads of a family may carry a validator's cosignature. -/
def allowsCosignature : Family → Bool
  | roleAccess | transfer | transaction | bootstrapDeployment => true
  | coreAdmin | adminControl | balanceInitialization => false

/-- Whether a field may be present in payloads of a family. -/
def allows (family : Family) (field : Field) : Bool :=
  family.required.contains field ||
    (family.allowsCosignature && Field.cosignature.contains field)

end Family

/-- What an operation does. -/
inductive Kind where
  /-- Registers the requester as the administrator. -/
  | addAdmin
  /-- Closes the initialization phase for good. -/
  | disableInitialization
  /-- Credits an address during initialization. -/
  | balanceInitialization
  /-- Whitelists an address. -/
  | appendWhitelist
  /-- Makes the requester a writer. -/
  | addWriter
  /-- Releases the requester from being a writer. -/
  | removeWriter
  /-- Makes a writer an indexer. -/
  | addIndexer
  /-- Makes an indexer a writer. -/
  | removeIndexer
  /-- Clears every role of an address. -/
  | banValidator
  /-- Replaces the writing key of the administrator. -/
  | adminRecovery
  /-- Registers an external bootstrap key. -/
  | bootstrapDeployment
  /-- Settles a transaction of a subnetwork. -/
  | transaction
  /-- Moves an amount to an address. -/
  | transfer
  deriving DecidableEq, Repr

namespace Kind

/-- Every kind, in the order of their numbers. -/
def all : List Kind :=
  [addAdmin, disableInitialization, balanceInitialization, appendWhitelist, addWriter,
    removeWriter, addIndexer, removeIndexer, banValidator, adminRecovery, bootstrapDeployment,
    transaction, transfer]

/-- The number of a kind. -/
def number : Kind → UInt32
  | addAdmin => 1
  | disableInitialization => 2
  | balanceInitialization => 3
  | appendWhitelist => 4
  | addWriter => 5
  | removeWriter => 6
  | addIndexer => 7
  | removeIndexer => 8
  | banValidator => 9
  | adminRecovery => 10
  | bootstrapDeployment => 11
  | transaction => 12
  | transfer => 13

/-- The kind with a number. -/
def ofNumber? (number : UInt32) : Option Kind :=
  all.find? (·.number == number)

/-- The name of a kind. -/
def name : Kind → String
  | addAdmin => "add_admin"
  | disableInitialization => "disable_initialization"
  | balanceInitialization => "balance_initialization"
  | appendWhitelist => "append_whitelist"
  | addWriter => "add_writer"
  | removeWriter => "remove_writer"
  | addIndexer => "add_indexer"
  | removeIndexer => "remove_indexer"
  | banValidator => "ban_validator"
  | adminRecovery => "admin_recovery"
  | bootstrapDeployment => "bootstrap_deployment"
  | transaction => "transaction"
  | transfer => "transfer"

/-- The kind with a name. -/
def ofName? (name : String) : Option Kind :=
  all.find? (·.name == name)

/-- The family of payloads that a kind carries. -/
def family : Kind → Family
  | addAdmin | disableInitialization => .coreAdmin
  | appendWhitelist | addIndexer | removeIndexer | banValidator => .adminControl
  | addWriter | removeWriter | adminRecovery => .roleAccess
  | balanceInitialization => .balanceInitialization
  | transfer => .transfer
  | transaction => .transaction
  | bootstrapDeployment => .bootstrapDeployment

/-- Whether a kind is applied only with a validator's cosignature. -/
def requiresCosignature (kind : Kind) : Bool :=
  kind.family.allowsCosignature

/-- Whether only the administrator may request a kind. -/
def isAdminOnly : Kind → Bool
  | disableInitialization | balanceInitialization | appendWhitelist | addIndexer
  | removeIndexer | banValidator => true
  | _ => false

end Kind

end SettlementLedger
