import SettlementLedger.Bytes
import SettlementLedger.Bytes.Hex
import SettlementLedger.SortedMap
import SettlementLedger.Identifier
import SettlementLedger.Amount
import SettlementLedger.Amount.Decimal
import SettlementLedger.Crypto.Sha2
import SettlementLedger.Crypto.Ed25519
import SettlementLedger.Crypto.ChaCha20
import SettlementLedger.Crypto.Suite
import SettlementLedger.Address
import SettlementLedger.NonceSource
import SettlementLedger.Participant
import SettlementLedger.Record.CodecError
import SettlementLedger.Record.Counter
import SettlementLedger.Record.Role
import SettlementLedger.Record.Node
import SettlementLedger.Record.Admin
import SettlementLedger.Record.Deployment
import SettlementLedger.View
import SettlementLedger.View.Key
import SettlementLedger.View.Reader
import SettlementLedger.Operation.Field
import SettlementLedger.Operation.Kind
import SettlementLedger.Operation.Varint
import SettlementLedger.Operation.Wire
import SettlementLedger.Operation
import SettlementLedger.Operation.Message
import SettlementLedger.Operation.Schema
import SettlementLedger.Operation.Assembly
import SettlementLedger.Membership
import SettlementLedger.Config
import SettlementLedger.Datum
import SettlementLedger.Datum.Form
import SettlementLedger.Config.Document
import SettlementLedger.Config.Load
import SettlementLedger.Transition.Refusal
import SettlementLedger.Transition.Delivery
import SettlementLedger.Transition.Draft
import SettlementLedger.Transition.Settlement
import SettlementLedger.Transition.Initialization
import SettlementLedger.Transition.Standing
import SettlementLedger.Transition.WritingKeys
import SettlementLedger.Transition.Value
import SettlementLedger.Transition
import SettlementLedger.Engine
import SettlementLedger.Replica
import SettlementLedger.Issuer
import SettlementLedger.Summary
import SettlementLedger.Proofs.BatchBoundaries
import SettlementLedger.Proofs.KeySpace
import SettlementLedger.Proofs.SchemaFacts
import SettlementLedger.Proofs.Amounts
import SettlementLedger.Proofs.DraftSteps
import SettlementLedger.Proofs.RuleSteps
import SettlementLedger.Proofs.Runs
import SettlementLedger.Proofs.Standing
import SettlementLedger.Proofs.MembershipChanges
import SettlementLedger.Proofs.StandingSteps
import SettlementLedger.Proofs.WritingKeys
import SettlementLedger.Proofs.Members
import SettlementLedger.Proofs.Holdings
import SettlementLedger.Proofs.Supply
import SettlementLedger.Proofs.Authority
import SettlementLedger.Proofs.Footprint
import SettlementLedger.Proofs.History
import SettlementLedger.Proofs.Replay
import SettlementLedger.Proofs.Licenses
import SettlementLedger.Proofs.Balances
import SettlementLedger.Proofs.Consent
import SettlementLedger.Proofs.Skipping
import SettlementLedger.Proofs.Registration
import SettlementLedger.Proofs.Recovery
import SettlementLedger.Proofs.RoleLifecycle
import SettlementLedger.Proofs.Soundness
import SettlementLedger.Proofs.LogLengths
import SettlementLedger.Proofs.TightDiffs
import SettlementLedger.Proofs.Charges
import SettlementLedger.Proofs.Stakes
import SettlementLedger.Proofs.InitializationPhase
import SettlementLedger.Proofs.Deployments
import SettlementLedger.Proofs.WirePrefixes
import SettlementLedger.Proofs.WriterRegistry
import SettlementLedger.Proofs.WireRoundTrip
import SettlementLedger.Proofs.AddressTexts
import SettlementLedger.Proofs.SchemaReads
import SettlementLedger.Proofs.SchemaGrammar
import SettlementLedger.Proofs.TypedOperations
import SettlementLedger.Proofs.SigningMessages
import SettlementLedger.Proofs.WireSizes
import SettlementLedger.Proofs.BalanceShifts
import SettlementLedger.Proofs.Transfers
import SettlementLedger.Proofs.SharedFees
import SettlementLedger.Proofs.Subnetworks
import SettlementLedger.Proofs.Enlistment
import SettlementLedger.Proofs.KeyReplacement
import SettlementLedger.Proofs.Independence
import SettlementLedger.Proofs.Elevation
import SettlementLedger.Proofs.RecordCodecs
import SettlementLedger.Proofs.Recosigning
import SettlementLedger.Proofs.HoldingsFit
import SettlementLedger.Proofs.RecordPatches
import SettlementLedger.Proofs.ByteArithmetic
import SettlementLedger.Proofs.DecimalTexts
import SettlementLedger.Proofs.AddressKeys
import SettlementLedger.Proofs.MembershipReplay
import SettlementLedger.Proofs.LayeredReads
import SettlementLedger.Proofs.FieldSteps
