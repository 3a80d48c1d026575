import SettlementLedger.Address
import SettlementLedger.Config
import SettlementLedger.Datum
import SettlementLedger.Membership
import SettlementLedger.Operation.Kind

/-!
# Plain forms

How the values of the ledger are written as plain data, and what is accepted when they are read.
Addresses and amounts are texts, identifiers are lists of bytes, and a record is a table of its
fields or a list of them in order. A configuration may leave fields out and may hold no others.
-/

set_option autoImplicit false
set_option relaxedAutoImplicit false

namespace SettlementLedger

/-- Why plain data is not a value of the ledger. -/
inductive FormError where
  /-- The data is not of the expected form. -/
  | shape
  /-- A list of bytes has the wrong length. -/
  | width (actual : Nat)
  /-- A text is not an amount. -/
  | amount (text : String)
  /-- A text is not an address. -/
  | address (cause : AddressError)
  deriving DecidableEq, Repr

/-- The cause in words, where there is more to say than that the form is wrong. -/
def FormError.message? : FormError → Option String
  | .shape => none
  | .width actual =>
    some ("invalid length " ++ toString actual ++ ", expected fixed-width byte array")
  | .amount text => some (AmountError.invalid.message ++ " `" ++ text ++ "`")
  | .address cause => some cause.message

/-- Values with a plain form. -/
class PlainForm (α : Type) where
  toDatum : α → Datum
  ofDatum : Datum → Except FormError α

namespace PlainForm

/-- A value that must be there. -/
def demand {α : Type} : Option α → Except FormError α
  | some value => .ok value
  | none => .error .shape

instance : PlainForm Address where
  toDatum a := .text a.text
  ofDatum
    | .text text => (Address.parse (Bytes.ofText text)).mapError .address
    | _ => .error .shape

instance : PlainForm Amount where
  toDatum a := .text a.text
  ofDatum
    | .text text => (Amount.parse text).mapError fun _ ↦ .amount text
    | _ => .error .shape

instance {role : IdentifierRole} : PlainForm (Identifier role) where
  toDatum x := .list (x.bytes.map fun byte ↦ .integer byte.toNat)
  ofDatum
    | .list items => do
      let values ← demand (items.mapM (Datum.below? 256))
      match Identifier.ofBytes? (values.map UInt8.ofNat) with
      | some x => return x
      | none => .error (.width items.length)
    | _ => .error .shape

/-- The name of a kind in plain data. -/
def kindName : Kind → String
  | .addAdmin => "AddAdmin"
  | .disableInitialization => "DisableInitialization"
  | .balanceInitialization => "BalanceInitialization"
  | .appendWhitelist => "AppendWhitelist"
  | .addWriter => "AddWriter"
  | .removeWriter => "RemoveWriter"
  | .addIndexer => "AddIndexer"
  | .removeIndexer => "RemoveIndexer"
  | .banValidator => "BanValidator"
  | .adminRecovery => "AdminRecovery"
  | .bootstrapDeployment => "BootstrapDeployment"
  | .transaction => "Transaction"
  | .transfer => "Transfer"

instance : PlainForm Kind where
  toDatum kind := .text (kindName kind)
  ofDatum
    | .text name | .table [(name, .null)] =>
      demand (Kind.all.find? fun kind ↦ kindName kind == name)
    | _ => .error .shape

instance : PlainForm MembershipEntry where
  toDatum entry :=
    .table [("key", toDatum entry.key), ("length", .integer entry.length.toNat)]
  ofDatum datum := do
    let (key, length) ← demand <| match datum with
      | .table entries => return (← Datum.field? entries "key", ← Datum.field? entries "length")
      | .list [key, length] => some (key, length)
      | _ => none
    return { key := ← ofDatum key, length := .ofNat (← demand (length.below? UInt64.size)) }

instance : PlainForm MembershipChange where
  toDatum
    | .add key => .table [("Add", toDatum key)]
    | .remove key => .table [("Remove", toDatum key)]
  ofDatum
    | .table [("Add", key)] => return .add (← ofDatum key)
    | .table [("Remove", key)] => return .remove (← ofDatum key)
    | _ => .error .shape

instance : PlainForm MembershipDiff where
  toDatum diff := .table [("changes", .list (diff.map toDatum))]
  ofDatum datum := do
    let changes ← demand <| match datum with
      | .table entries => Datum.field? entries "changes"
      | .list [changes] => some changes
      | _ => none
    match changes with
    | .list items => items.mapM ofDatum
    | _ => .error .shape

/-! ### Configurations -/

/-- The fields of a configuration, in order. -/
def configFields : List String :=
  ["fee", "writer_stake", "admin_initial_balance", "admin_initial_stake",
    "validator_reward_percent"]

/-- The plain form of a configuration field, or the default where it is left out. -/
def orDefault {α : Type} [PlainForm α] (default : α) : Option Datum → Except FormError α
  | some datum => ofDatum datum
  | none => .ok default

/-- A share in basis points, or the default where it is left out. -/
def percentOrDefault (default : UInt32) : Option Datum → Except FormError UInt32
  | some datum => return .ofNat (← demand (datum.below? UInt32.size))
  | none => .ok default

/-- Reads a configuration from the fields that are there. -/
def configOfFields (field? : String → Option Datum) : Except FormError Config := do
  let default : Config := {}
  return {
    fee := ← orDefault default.fee (field? "fee")
    writerStake := ← orDefault default.writerStake (field? "writer_stake")
    adminInitialBalance :=
      ← orDefault default.adminInitialBalance (field? "admin_initial_balance")
    adminInitialStake := ← orDefault default.adminInitialStake (field? "admin_initial_stake")
    validatorRewardPercent :=
      ← percentOrDefault default.validatorRewardPercent (field? "validator_reward_percent") }

instance : PlainForm Config where
  toDatum config := .table [
    ("fee", toDatum config.fee),
    ("writer_stake", toDatum config.writerStake),
    ("admin_initial_balance", toDatum config.adminInitialBalance),
    ("admin_initial_stake", toDatum config.adminInitialStake),
    ("validator_reward_percent", .integer config.validatorRewardPercent.toNat)]
  ofDatum
    | .table entries =>
      let keys := entries.map Prod.fst
      if keys.all configFields.contains && decide keys.Nodup then
        configOfFields (Datum.field? entries)
      else .error .shape
    | .list items =>
      if items.length ≤ configFields.length then
        configOfFields (Datum.field? (configFields.zip items))
      else .error .shape
    | _ => .error .shape

end PlainForm

end SettlementLedger
