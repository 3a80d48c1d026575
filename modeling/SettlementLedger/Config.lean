import SettlementLedger.Amount.Decimal

/-!
# The economics of a ledger

Fee, stake and the amounts the administrator starts with. They are part of the transition function:
every replica must run with the same values.
-/

set_option autoImplicit false
set_option relaxedAutoImplicit false

namespace SettlementLedger

/-- Why a configuration is refused. -/
inductive ConfigError where
  /-- The file cannot be read as text. -/
  | unreadable
  /-- The text is not a document of the expected form. -/
  | malformed
  /-- The validator's share is more than the whole fee. -/
  | rewardTooLarge
  /-- A writer would lock nothing. -/
  | stakeZero
  deriving DecidableEq, Repr

namespace ConfigError

/-- The stable name of the cause. -/
def code : ConfigError → String
  | .unreadable => "config_io"
  | .malformed => "config_parse"
  | .rewardTooLarge | .stakeZero => "config_invalid"

/-- The cause in words, where a value of the configuration is the cause. -/
def message? : ConfigError → Option String
  | .rewardTooLarge => some "invalid validator_reward_percent: exceeds 10000 basis points"
  | .stakeZero => some "invalid writer_stake: must be positive"
  | .unreadable | .malformed => none

end ConfigError

/-- The amounts a ledger runs with. -/
structure Config where
  /-- The flat fee of an operation. -/
  fee : Amount := ⟨30000000000000000, by decide⟩
  /-- What a participant locks to become a writer. -/
  writerStake : Amount := .whole 10
  /-- What the administrator is credited with at registration. -/
  adminInitialBalance : Amount := .whole 1000
  /-- The stake recorded for the administrator at registration. -/
  adminInitialStake : Amount := .whole 10
  /-- The share of a fee that the validator receives, in basis points. -/
  validatorRewardPercent : UInt32 := 7500
  deriving DecidableEq

namespace Config

/-- The validator's share as a factor for `Amount.percentage?`. -/
def rewardFactor (config : Config) : Amount :=
  ⟨config.validatorRewardPercent.toNat, by
    have h := config.validatorRewardPercent.toNat_lt
    rw [Amount.limit_eq]
    omega⟩

/-- Checks that the validator's share is at most the fee and that the stake is not zero. -/
def validate (config : Config) : Except ConfigError Unit :=
  if ¬ config.rewardFactor ≤ Amount.percentScale then .error .rewardTooLarge
  else if config.writerStake.isZero then .error .stakeZero
  else .ok ()

end Config

end SettlementLedger
