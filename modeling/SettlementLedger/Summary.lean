import SettlementLedger.Datum
import SettlementLedger.Engine
import SettlementLedger.Operation.Assembly

/-!
# Summaries

What an observer of the ledger is shown of its values, as plain data. Byte strings are shown in
hexadecimal, addresses as their texts, and amounts in base units, since a number of that size does
not fit the numbers of every data format. Fields bear the short names of the wire format.
-/

set_option autoImplicit false
set_option relaxedAutoImplicit false

namespace SettlementLedger.Summary

open Datum (number optional listOf)

def hex (bytes : Bytes) : Datum := .text (Hex.text bytes)

def identifier {role : IdentifierRole} (x : Identifier role) : Datum := .text x.hex

def address (a : Address) : Datum := .text a.text

def amount (a : Amount) : Datum := .text (toString a.raw)

def fields (list : List Field) : Datum := listOf (fun field ↦ .text field.name) list

/-! ### Records -/

/-- A role with the marks that count. -/
def role (r : Role) : List (String × Datum) := [
  ("whitelisted", .bool r.isWhitelisted),
  ("writer", .bool r.isWriter),
  ("indexer", .bool r.isIndexer)]

def node (n : NodeRecord) : Datum := .table (role n.role ++ [
  ("role", number n.role.bits.toNat),
  ("writing_key", identifier n.writingKey),
  ("balance", amount n.balance),
  ("license", number n.license.toNat),
  ("has_license", .bool n.hasLicense),
  ("staked", amount n.stake)])

def admin (record : AdminRecord) : Datum := .table [
  ("address", address record.address),
  ("writing_key", identifier record.writingKey)]

def deployment (record : DeploymentRecord) : Datum := .table [
  ("requester", address record.requester),
  ("tx", identifier record.tx)]

/-! ### Operations -/

def kind (k : Kind) : Datum := .table [
  ("name", .text k.name),
  ("value", number k.number.toNat),
  ("family", .text k.family.name),
  ("requires_cosign", .bool k.requiresCosignature),
  ("admin_only", .bool k.isAdminOnly)]

def family (f : Family) : Datum := .table [
  ("name", .text f.name),
  ("required", fields f.required),
  ("allowed", fields (Field.all.filter f.allows)),
  ("cosign", .bool f.allowsCosignature)]

def body : Body → Datum
  | .coreAdmin writingKey | .roleAccess writingKey => .table [("iw", identifier writingKey)]
  | .adminControl target => .table [("ia", address target)]
  | .balanceInitialization target credit =>
    .table [("ia", address target), ("am", amount credit)]
  | .transfer recipient moved => .table [("to", address recipient), ("am", amount moved)]
  | .transaction writingKey content externalBootstrap ledgerBootstrap => .table [
    ("iw", identifier writingKey),
    ("ch", identifier content),
    ("bs", identifier externalBootstrap),
    ("mbs", identifier ledgerBootstrap)]
  | .bootstrapDeployment bootstrap channel =>
    .table [("bs", identifier bootstrap), ("ic", identifier channel)]

def cosignature (c : Cosignature) : Datum := .table [
  ("va", address c.validator),
  ("vn", identifier c.nonce),
  ("vs", identifier c.signature)]

def operation (op : Operation) : Datum := .table [
  ("kind", .text op.kind.name),
  ("requester", address op.requester),
  ("tx", identifier op.tx),
  ("txv", identifier op.txValidity),
  ("nonce", identifier op.nonce),
  ("signature", identifier op.signature),
  ("body_family", .text op.body.family.name),
  ("body", body op.body),
  ("complete", .bool op.isComplete),
  ("cosign", optional cosignature op.cosignature)]

/-- A raw operation, with what is shown of the bytes of a field left open. -/
def rawOperation (content : Bytes → Datum) (raw : RawOperation) : Datum := .table [
  ("kind", number raw.kind.toNat),
  ("address", optional hex raw.address),
  ("family", .text raw.family.name),
  ("fields", .table (raw.fields.present.map fun field ↦
    (field.name, optional content (raw.fields.get field))))]

/-! ### Configuration and membership -/

def config (c : Config) : Datum := .table [
  ("fee", .text c.fee.text),
  ("writer_stake", .text c.writerStake.text),
  ("admin_initial_balance", .text c.adminInitialBalance.text),
  ("admin_initial_stake", .text c.adminInitialStake.text),
  ("validator_reward_percent", number c.validatorRewardPercent.toNat),
  ("reward_factor", amount c.rewardFactor)]

def members (set : Membership) : Datum :=
  listOf (fun entry ↦ .list [identifier entry.key, .text (toString entry.length.toNat)]) set.entries

def change : MembershipChange → Datum
  | .add key => .list [.text "add", identifier key]
  | .remove key => .list [.text "remove", identifier key]

/-! ### Entries and reports -/

/-- Stored bytes in full, or the digest and the length of what is wider than any record. -/
def value (suite : Suite) (bytes : Bytes) : Datum :=
  if bytes.length ≤ AdminRecord.width then hex bytes
  else .text ("sha256:" ++ (suite.hash bytes).hex ++ ":" ++ toString bytes.length)

/-- Entries, with what is shown of their bytes left open. -/
def entries (content : Bytes → Datum) (list : List (String × Bytes)) : Datum :=
  listOf (fun entry ↦ .list [.text entry.1, content entry.2]) list

def rejection (refusal : Refusal) : Datum :=
  optional (fun reason ↦ .text reason.code) refusal.rejection?

def outcome (index : Nat) (o : Outcome) : Datum :=
  let cause := match o.verdict with
    | .applied => []
    | .skipped refusal => [
      ("error", .text refusal.code),
      ("message", .text refusal.message),
      ("rejection", rejection refusal)]
  .table ([
    ("index", number index),
    ("kind", optional (fun id ↦ .text id.1.name) o.identity),
    ("tx", optional (fun id ↦ identifier id.2) o.identity),
    ("applied", .bool o.verdict.isApplied)] ++ cause)

/-- A report, the entries that the call wrote and the membership set after it. -/
def report (suite : Suite) (r : Report) (writes : List (String × Bytes)) (after : Membership) :
    Datum := .table [
  ("outcomes", .list (r.outcomes.mapIdx outcome)),
  ("applied", number r.applied),
  ("skipped", number r.skipped),
  ("changes", listOf change r.diff),
  ("writes", entries (value suite) writes),
  ("members", members after)]

end SettlementLedger.Summary
