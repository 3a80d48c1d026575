import SettlementLedger.Config

/-!
# Arithmetic on amounts is exact

Each operation on amounts gives the number that it gives on natural numbers, or no amount at all.
-/

set_option autoImplicit false
set_option relaxedAutoImplicit false

namespace SettlementLedger

namespace Amount

variable {a b c : Amount}

theorem add?_eq_some_iff : a.add? b = some c ↔ a.raw + b.raw = c.raw :=
  ofRaw?_eq_some_iff

theorem sub?_eq_some_iff : a.sub? b = some c ↔ b.raw + c.raw = a.raw := by
  unfold sub?
  by_cases h : b.raw ≤ a.raw
  · rw [if_pos h, ofRaw?_eq_some_iff]
    omega
  · rw [if_neg h]
    constructor
    · intro hnone
      cases hnone
    · intro hsum
      omega

theorem mul?_eq_some_iff : a.mul? b = some c ↔ a.raw * b.raw = c.raw :=
  ofRaw?_eq_some_iff

theorem div?_eq_some_iff : a.div? b = some c ↔ b.raw ≠ 0 ∧ a.raw / b.raw = c.raw := by
  unfold div?
  by_cases h : b.raw = 0
  · rw [if_pos h]
    constructor
    · intro hnone
      cases hnone
    · rintro ⟨hne, -⟩
      exact absurd h hne
  · rw [if_neg h, ofRaw?_eq_some_iff]
    exact ⟨fun hdiv ↦ ⟨h, hdiv⟩, fun hdiv ↦ hdiv.2⟩

/-- A share is taken of a product that is still an amount. -/
theorem percentage?_eq_some_iff :
    a.percentage? b = some c ↔ a.raw * b.raw < limit ∧ a.raw * b.raw / 10000 = c.raw := by
  rw [percentage?, Option.bind_eq_some_iff]
  constructor
  · rintro ⟨product, hproduct, hshare⟩
    rw [mul?_eq_some_iff] at hproduct
    rw [div?_eq_some_iff, ← hproduct] at hshare
    exact ⟨hproduct ▸ product.raw_lt, hshare.2⟩
  · rintro ⟨hlt, hshare⟩
    refine ⟨⟨a.raw * b.raw, hlt⟩, mul?_eq_some_iff.mpr rfl, div?_eq_some_iff.mpr ⟨?_, hshare⟩⟩
    decide

theorem add?_eq_none_iff : a.add? b = none ↔ limit ≤ a.raw + b.raw := by
  rw [Option.eq_none_iff_forall_ne_some, ← Nat.not_lt]
  constructor
  · exact fun hnone hlt ↦ hnone ⟨a.raw + b.raw, hlt⟩ (add?_eq_some_iff.mpr rfl)
  · intro hge c hsome
    exact hge (add?_eq_some_iff.mp hsome ▸ c.raw_lt)

theorem percentage?_eq_none_iff : a.percentage? b = none ↔ limit ≤ a.raw * b.raw := by
  rw [Option.eq_none_iff_forall_ne_some, ← Nat.not_lt]
  constructor
  · intro hnone hlt
    have hshare : a.raw * b.raw / 10000 < limit := Nat.lt_of_le_of_lt (Nat.div_le_self _ _) hlt
    exact hnone ⟨_, hshare⟩ (percentage?_eq_some_iff.mpr ⟨hlt, rfl⟩)
  · exact fun hge c hsome ↦ hge (percentage?_eq_some_iff.mp hsome).1

theorem isZero_iff : a.isZero ↔ a.raw = 0 :=
  beq_iff_eq

end Amount

namespace Config

/-- The validator's share of a fee in base units. -/
def share (config : Config) : Nat := config.fee.raw * config.validatorRewardPercent.toNat / 10000

/-- The share is at most the fee in every configuration that is accepted. -/
theorem share_le {config : Config} (h : config.validate = .ok ()) : config.share ≤ config.fee.raw := by
  have hpercent : config.validatorRewardPercent.toNat ≤ 10000 := by
    unfold validate at h
    split at h
    · cases h
    · rename_i hle
      exact Decidable.not_not.mp hle
  calc config.fee.raw * config.validatorRewardPercent.toNat / 10000
      ≤ config.fee.raw * 10000 / 10000 := Nat.div_le_div_right (Nat.mul_le_mul_left _ hpercent)
    _ = config.fee.raw := Nat.mul_div_cancel _ (by decide)

/-- Every configuration that is accepted makes a writer lock something. -/
theorem writerStake_pos {config : Config} (h : config.validate = .ok ()) :
    0 < config.writerStake.raw := by
  unfold validate at h
  split at h
  · cases h
  · split at h
    · cases h
    · rename_i hzero
      exact Nat.pos_of_ne_zero fun h ↦ hzero (Amount.isZero_iff.mpr h)

end Config

end SettlementLedger
