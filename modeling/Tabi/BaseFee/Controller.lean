import Tabi.BaseFee.Adjust
import Tabi.Support.Casts

/-!
# BaseFee — range and control

What the adjustment returns is what is stored for the next block.
-/

namespace Tabi.BaseFee

open Support

variable {p : Params} {s s' : Fees}

theorem adjust_eq_some {maxGas : Int64} {blockGasUsed : UInt64} {fee : ℤ}
    (h : adjustDynamicBaseFeePerGas p (some maxGas) s blockGasUsed = .ok (some fee, s')) :
    fee = getNextBaseFeePerGas p s' ∧
      (targetGasUsed p = 0 ∧ fee = getNextBaseFeePerGas p s ∨
        targetGasUsed p ≠ 0 ∧ ∃ z, fee = clamp p z) := by
  unfold adjustDynamicBaseFeePerGas at h
  by_cases htarget : targetGasUsed p = 0
  · simp only [htarget, if_true] at h
    cases h
    exact ⟨rfl, .inl ⟨htarget, rfl⟩⟩
  · simp only [htarget, if_false] at h
    obtain ⟨z, -, h⟩ := bind_eq_ok.mp h
    cases h
    exact ⟨rfl, .inr ⟨htarget, z, rfl⟩⟩

theorem clamp_eq (z : ℤ) : clamp p z = min (max z p.minimumFeePerGas) p.maximumFeePerGas := by
  simp only [clamp]
  split_ifs <;> omega

theorem clamp_inRange_iff (z : ℤ) :
    p.minimumFeePerGas ≤ clamp p z ∧ clamp p z ≤ p.maximumFeePerGas ↔
      p.minimumFeePerGas ≤ p.maximumFeePerGas := by
  rw [clamp_eq]
  omega

theorem clamp_mono {z w : ℤ} (h : z ≤ w) : clamp p z ≤ clamp p w := by
  rw [clamp_eq, clamp_eq]
  omega

theorem targetGasUsed_eq_zero : targetGasUsed p = 0 ↔ p.targetGasUsedPerBlock = 0 := by
  rw [targetGasUsed, Dec.ofInt64, Decimal.ofInt, mul_eq_zero, or_iff_left Dec.unit_pos.ne']
  constructor
  · intro h
    have hcast : p.targetGasUsedPerBlock.toInt64 = 0 := Int64.toInt_inj.mp h
    have huint := congrArg Int64.toUInt64 hcast
    rwa [UInt64.toUInt64_toInt64] at huint
  · intro h
    rw [h]
    rfl

/-- **When the base fee is in range.**  What is returned is stored for the next block; it lies
between the minimum and the maximum fee exactly when there is a target and the minimum is at most
the maximum, or there is none and the previous fee was in range. -/
theorem adjust_inRange_iff {maxGas : Int64} {blockGasUsed : UInt64} {fee : ℤ}
    (h : adjustDynamicBaseFeePerGas p (some maxGas) s blockGasUsed = .ok (some fee, s')) :
    getNextBaseFeePerGas p s' = fee ∧
      (p.minimumFeePerGas ≤ fee ∧ fee ≤ p.maximumFeePerGas ↔
        if p.targetGasUsedPerBlock = 0 then
          p.minimumFeePerGas ≤ getNextBaseFeePerGas p s ∧
            getNextBaseFeePerGas p s ≤ p.maximumFeePerGas
        else p.minimumFeePerGas ≤ p.maximumFeePerGas) := by
  obtain ⟨hstored, hfee⟩ := adjust_eq_some h
  refine ⟨hstored.symm, ?_⟩
  rcases hfee with ⟨htarget, hprev⟩ | ⟨htarget, z, hclamp⟩
  · rw [if_pos (targetGasUsed_eq_zero.mp htarget), hprev]
  · rw [if_neg (mt targetGasUsed_eq_zero.mpr htarget), hclamp]
    exact clamp_inRange_iff z

theorem adjust_inRange_defaultParams :
    ∃ fee s', adjustDynamicBaseFeePerGas defaultParams (some 1000000) ⟨none, none⟩ 1000000 =
      .ok (some fee, s') ∧
      defaultParams.minimumFeePerGas ≤ fee ∧ fee ≤ defaultParams.maximumFeePerGas := by
  obtain ⟨fee, s', h⟩ : ∃ fee s', adjustDynamicBaseFeePerGas defaultParams (some 1000000)
      ⟨none, none⟩ 1000000 = .ok (some fee, s') := ⟨_, _, rfl⟩
  exact ⟨fee, s', h, (adjust_inRange_iff h).2.mpr (by decide)⟩

/-- Parameters that pass `Validate`, and a fee out of range: with a minimum of two and a maximum
of one, and with a target of zero after a fee above the maximum. -/
theorem adjust_outOfRange :
    (∃ fee s', Params.validate { defaultParams with
        minimumFeePerGas := 2 * Dec.unit, maximumFeePerGas := Dec.unit } = .ok () ∧
      adjustDynamicBaseFeePerGas { defaultParams with
        minimumFeePerGas := 2 * Dec.unit, maximumFeePerGas := Dec.unit }
        (some 1000000) ⟨none, none⟩ 0 = .ok (some fee, s') ∧ fee < 2 * Dec.unit) ∧
    ∃ fee s', Params.validate { defaultParams with targetGasUsedPerBlock := 0 } = .ok () ∧
      adjustDynamicBaseFeePerGas { defaultParams with targetGasUsedPerBlock := 0 }
        (some 1000000) ⟨none, some (2 * defaultParams.maximumFeePerGas)⟩ 0 = .ok (some fee, s') ∧
      defaultParams.maximumFeePerGas < fee :=
  ⟨⟨_, _, rfl, rfl, by decide⟩, _, _, rfl, rfl, by decide⟩

theorem validateBaseFeeAdjustment_eq_ok {a : ℤ} :
    validateBaseFeeAdjustment a = .ok () ↔ 0 ≤ a ∧ a ≤ Dec.unit := by
  unfold validateBaseFeeAdjustment
  split_ifs with h₁ h₂
  · simp [h₁]
  · simp [h₂]
  · simp [not_lt.mp h₁, not_lt.mp h₂]

theorem adjustment_of_validate (h : p.validate = .ok ()) :
    (0 ≤ p.maxDynamicBaseFeeUpwardAdjustment ∧
      p.maxDynamicBaseFeeUpwardAdjustment ≤ Dec.unit) ∧
    0 ≤ p.maxDynamicBaseFeeDownwardAdjustment ∧
      p.maxDynamicBaseFeeDownwardAdjustment ≤ Dec.unit := by
  unfold Params.validate at h
  iterate 6 obtain ⟨_, -, h⟩ := bind_eq_ok.mp h
  obtain ⟨_, hup, hdown⟩ := bind_eq_ok.mp h
  exact ⟨validateBaseFeeAdjustment_eq_ok.mp (mapError_eq_ok.mp hup),
    validateBaseFeeAdjustment_eq_ok.mp (mapError_eq_ok.mp hdown)⟩

def upStep (p : Params) (target limit used : ℤ) : ℤ :=
  Decimal.mul Dec.unit p.maxDynamicBaseFeeUpwardAdjustment
    (Decimal.quo Dec.unit (used - target) (limit - target))

def downStep (p : Params) (target used : ℤ) : ℤ :=
  Decimal.mul Dec.unit p.maxDynamicBaseFeeDownwardAdjustment
    (Decimal.quo Dec.unit (target - used) target)

def factor (p : Params) (target limit used : ℤ) : ℤ :=
  if target < used then Dec.unit + upStep p target limit used
  else Dec.unit - downStep p target used

structure Regular (p : Params) (maxGas : Int64) (prev : ℤ) : Prop where
  valid : p.validate = .ok ()
  target_pos : 1 ≤ p.targetGasUsedPerBlock.toNat
  target_lt : p.targetGasUsedPerBlock.toNat < 2 ^ 63
  limit_nonneg : 0 ≤ maxGas.toInt
  prev_nonneg : 0 ≤ prev
  inRange : Dec.Fits
    (Decimal.mul Dec.unit prev (Dec.unit + p.maxDynamicBaseFeeUpwardAdjustment))

def IsGas (z : ℤ) : Prop := 0 ≤ z ∧ z ≤ 2 ^ 63 * Dec.unit

theorem isGas_ofInt64 {n : Int64} (h : 0 ≤ n.toInt) : IsGas (Dec.ofInt64 n) := by
  have hlt := n.toInt_lt
  exact ⟨Int.mul_nonneg h Dec.unit_pos.le, Int.mul_le_mul_of_nonneg_right hlt.le Dec.unit_pos.le⟩

theorem IsGas.fits_sub {z w : ℤ} (hz : IsGas z) (hw : IsGas w) : Dec.Fits (z - w) := by
  have hunit : Dec.unit = 1000000000000000000 := rfl
  unfold IsGas at hz hw
  unfold Dec.Fits Dec.maxDecBitLen
  omega

theorem IsGas.fits {z : ℤ} (hz : IsGas z) : Dec.Fits z := by
  have hunit : Dec.unit = 1000000000000000000 := rfl
  unfold IsGas at hz
  unfold Dec.Fits Dec.maxDecBitLen
  omega

theorem fits_twoUnits : Dec.Fits (2 * Dec.unit) := IsGas.fits ⟨by decide, by decide⟩

section Control

variable {maxGas : Int64} {prev target limit used : ℤ}

theorem upStep_bounds (h : p.validate = .ok ()) (habove : target < used) (hcap : used ≤ limit) :
    0 ≤ upStep p target limit used ∧
      upStep p target limit used ≤ p.maxDynamicBaseFeeUpwardAdjustment := by
  obtain ⟨⟨hup, -⟩, -⟩ := adjustment_of_validate h
  have hquo := Decimal.quo_nonneg Dec.unit_pos (a := used - target) (b := limit - target)
    (by omega) (by omega)
  exact ⟨Decimal.mul_nonneg Dec.unit_pos hup hquo, Decimal.mul_le_self Dec.unit_pos hup hquo
    (Decimal.quo_le_one Dec.unit_pos (by omega) (by omega) (by omega))⟩

theorem downStep_bounds (h : p.validate = .ok ()) (hused : 0 ≤ used) (hbelow : used ≤ target)
    (htarget : 0 < target) :
    0 ≤ downStep p target used ∧
      downStep p target used ≤ p.maxDynamicBaseFeeDownwardAdjustment := by
  obtain ⟨-, hdown, -⟩ := adjustment_of_validate h
  have hquo := Decimal.quo_nonneg Dec.unit_pos (a := target - used) (b := target)
    (by omega) htarget.le
  exact ⟨Decimal.mul_nonneg Dec.unit_pos hdown hquo, Decimal.mul_le_self Dec.unit_pos hdown hquo
    (Decimal.quo_le_one Dec.unit_pos (by omega) htarget (by omega))⟩

theorem factor_below (h : p.validate = .ok ()) (hused : 0 ≤ used) (htarget : 0 < target)
    (hbelow : used ≤ target) :
    0 ≤ factor p target limit used ∧
      Dec.unit - p.maxDynamicBaseFeeDownwardAdjustment ≤ factor p target limit used ∧
      factor p target limit used ≤ Dec.unit := by
  obtain ⟨h₀, h₁⟩ := downStep_bounds h hused hbelow htarget
  obtain ⟨-, -, hdown⟩ := adjustment_of_validate h
  rw [factor, if_neg (not_lt.mpr hbelow)]
  omega

theorem factor_above (h : p.validate = .ok ()) (habove : target < used) (hcap : used ≤ limit) :
    Dec.unit ≤ factor p target limit used ∧
      factor p target limit used ≤ Dec.unit + p.maxDynamicBaseFeeUpwardAdjustment := by
  obtain ⟨h₀, h₁⟩ := upStep_bounds h habove hcap
  rw [factor, if_pos habove]
  omega

theorem factor_nonneg (h : p.validate = .ok ()) (htarget : 0 < target) (hused : 0 ≤ used)
    (hcap : used ≤ limit) : 0 ≤ factor p target limit used := by
  by_cases habove : target < used
  · exact Dec.unit_pos.le.trans (factor_above h habove hcap).1
  · exact (factor_below h hused htarget (not_lt.mp habove)).1

theorem factor_mono (h : p.validate = .ok ()) (htarget : 0 < target) {used' : ℤ} (hused : 0 ≤ used)
    (hle : used ≤ used') (hcap : used' ≤ limit) :
    factor p target limit used ≤ factor p target limit used' := by
  obtain ⟨⟨hup, -⟩, hdown, -⟩ := adjustment_of_validate h
  by_cases hbelow : used' ≤ target
  · -- both below: the emptier block takes the larger step down
    rw [factor, factor, if_neg (by omega), if_neg (by omega)]
    have hquo := Decimal.quo_mono Dec.unit_pos (a := target - used') (b := target - used)
      (by omega) (by omega) htarget
    have hquo₀ := Decimal.quo_nonneg Dec.unit_pos (a := target - used') (b := target)
      (by omega) htarget.le
    have hstep : downStep p target used' ≤ downStep p target used :=
      Decimal.mul_mono Dec.unit_pos hdown hquo₀ hquo
    omega
  · by_cases habove : target < used
    · rw [factor, factor, if_pos habove, if_pos (by omega)]
      have hquo := Decimal.quo_mono Dec.unit_pos (a := used - target) (b := used' - target)
        (c := limit - target) (by omega) (by omega) (by omega)
      have hquo₀ := Decimal.quo_nonneg Dec.unit_pos (a := used - target) (b := limit - target)
        (by omega) (by omega)
      have hstep : upStep p target limit used ≤ upStep p target limit used' :=
        Decimal.mul_mono Dec.unit_pos hup hquo₀ hquo
      omega
    · -- one on each side of the target, where the factor is one
      exact (factor_below h hused htarget (by omega)).2.2.trans
        (factor_above h (by omega) hcap).1

theorem quo_ok {a b : ℤ} (ha : 0 ≤ a) (hab : a ≤ b) (hb : 0 < b) :
    Dec.quo a b = .ok (Decimal.quo Dec.unit a b) := by
  have hquo₀ := Decimal.quo_nonneg Dec.unit_pos ha hb.le
  have hquo₁ := Decimal.quo_le_one Dec.unit_pos ha hb hab
  rw [Dec.quo, if_neg hb.ne', (fits_twoUnits.of_le hquo₀ (by omega)).check]

theorem adjusted_eq (h : Regular p maxGas prev) (htarget : IsGas target) (hpos : 0 < target)
    (hlimit : IsGas limit) (hused : 0 ≤ used) (hcap : used ≤ limit) :
    adjusted p prev target limit used =
      .ok (Decimal.mul Dec.unit prev (factor p target limit used)) := by
  have hgas : IsGas used := ⟨hused, hcap.trans hlimit.2⟩
  obtain ⟨⟨hup₀, hup₁⟩, hdown₀, hdown₁⟩ := adjustment_of_validate h.valid
  unfold adjusted
  by_cases habove : target < used
  · obtain ⟨hs₀, hs₁⟩ := upStep_bounds h.valid habove hcap
    obtain ⟨hf₀, hf₁⟩ := factor_above h.valid habove hcap
    have hquo := quo_ok (a := used - target) (b := limit - target) (by omega) (by omega) (by omega)
    have hfee : Dec.Fits (Decimal.mul Dec.unit prev (factor p target limit used)) :=
      h.inRange.of_le (Decimal.mul_nonneg Dec.unit_pos h.prev_nonneg (by omega))
        (Decimal.mul_mono Dec.unit_pos h.prev_nonneg (by omega) hf₁)
    rw [if_pos habove]
    rw [factor, if_pos habove] at hf₀ hf₁ hfee ⊢
    have hfactor : Dec.Fits (Dec.ofInt64 1 + upStep p target limit used) :=
      fits_twoUnits.of_le (z := Dec.unit + _) (by omega) (by omega)
    refine bind_eq_ok.mpr ⟨_, (hgas.fits_sub htarget).check, ?_⟩
    refine bind_eq_ok.mpr ⟨_, (hlimit.fits_sub htarget).check, ?_⟩
    refine bind_eq_ok.mpr ⟨_, hquo, ?_⟩
    refine bind_eq_ok.mpr ⟨_, (fits_twoUnits.of_le hs₀ (by omega)).check, ?_⟩
    exact bind_eq_ok.mpr ⟨_, hfactor.check, hfee.check⟩
  · obtain ⟨hs₀, hs₁⟩ := downStep_bounds h.valid hused (not_lt.mp habove) hpos
    obtain ⟨hf₀, -, hf₁⟩ := @factor_below p target limit used h.valid hused hpos (not_lt.mp habove)
    have hquo := quo_ok (a := target - used) (by omega) (by omega) hpos
    have hfee : Dec.Fits (Decimal.mul Dec.unit prev (factor p target limit used)) :=
      h.inRange.of_le (Decimal.mul_nonneg Dec.unit_pos h.prev_nonneg hf₀)
        (Decimal.mul_mono Dec.unit_pos h.prev_nonneg hf₀ (by omega))
    rw [if_neg habove]
    rw [factor, if_neg habove] at hf₀ hf₁ hfee ⊢
    have hfactor : Dec.Fits (Dec.ofInt64 1 - downStep p target used) :=
      fits_twoUnits.of_le (z := Dec.unit - _) (by omega) (by omega)
    refine bind_eq_ok.mpr ⟨_, (htarget.fits_sub hgas).check, ?_⟩
    refine bind_eq_ok.mpr ⟨_, hquo, ?_⟩
    refine bind_eq_ok.mpr ⟨_, (fits_twoUnits.of_le hs₀ (by omega)).check, ?_⟩
    exact bind_eq_ok.mpr ⟨_, hfactor.check, hfee.check⟩

end Control

section Law

variable {maxGas : Int64} {prev : ℤ}

theorem Regular.target (h : Regular p maxGas prev) :
    IsGas (targetGasUsed p) ∧ 0 < targetGasUsed p := by
  have hcast := toInt_toInt64_of_lt h.target_lt
  have hpos := h.target_pos
  exact ⟨isGas_ofInt64 (by omega), Int.mul_pos (by omega) Dec.unit_pos⟩

theorem cappedGasUsed_bounds (h : Regular p maxGas prev) {used : UInt64}
    (hused : used.toNat < 2 ^ 63) :
    0 ≤ cappedGasUsed maxGas used ∧ cappedGasUsed maxGas used ≤ Dec.ofInt64 maxGas := by
  have hcast := toInt_toInt64_of_lt hused
  have hlimit := (isGas_ofInt64 h.limit_nonneg).1
  have hgas := (isGas_ofInt64 (n := used.toInt64) (by omega)).1
  unfold cappedGasUsed capGasUsed
  split_ifs <;> omega

theorem cappedGasUsed_mono {used used' : UInt64} (hle : used ≤ used')
    (hused' : used'.toNat < 2 ^ 63) : cappedGasUsed maxGas used ≤ cappedGasUsed maxGas used' := by
  have hnat := UInt64.le_iff_toNat_le.mp hle
  have hcast := toInt_toInt64_of_lt (n := used) (by omega)
  have hcast' := toInt_toInt64_of_lt hused'
  have hdec : Dec.ofInt64 used.toInt64 ≤ Dec.ofInt64 used'.toInt64 :=
    Int.mul_le_mul_of_nonneg_right (by omega) Dec.unit_pos.le
  unfold cappedGasUsed capGasUsed
  split_ifs <;> omega

theorem adjust_eq (h : Regular p maxGas (getNextBaseFeePerGas p s)) {used : UInt64}
    (hused : used.toNat < 2 ^ 63) :
    ∃ fee s', adjusted p (getNextBaseFeePerGas p s) (targetGasUsed p) (Dec.ofInt64 maxGas)
        (cappedGasUsed maxGas used) = .ok fee ∧
      fee = Decimal.mul Dec.unit (getNextBaseFeePerGas p s)
        (factor p (targetGasUsed p) (Dec.ofInt64 maxGas) (cappedGasUsed maxGas used)) ∧
      adjustDynamicBaseFeePerGas p (some maxGas) s used = .ok (some (clamp p fee), s') := by
  obtain ⟨htarget, hpos⟩ := h.target
  obtain ⟨h₀, hcap⟩ := cappedGasUsed_bounds h hused
  have hfee := adjusted_eq h htarget hpos (isGas_ofInt64 h.limit_nonneg) h₀ hcap
  generalize Decimal.mul Dec.unit (getNextBaseFeePerGas p s) _ = z at hfee
  refine ⟨z, ⟨some (getNextBaseFeePerGas p s), some (clamp p z)⟩, hfee, rfl, ?_⟩
  simp only [adjustDynamicBaseFeePerGas, hpos.ne', if_false, hfee, Outcome.ok_bind,
    Outcome.pure_eq_ok]

/-- **The controller law.**  The adjustment returns; before the clamps the new fee is at least the
previous one with the largest step down and at most the previous one with the largest step up;
it does not rise when the capped gas is at most the target and does not fall when it is above; and
what is returned is monotone in the gas used. -/
theorem adjust_controls (h : Regular p maxGas (getNextBaseFeePerGas p s)) :
    (∀ used : UInt64, used.toNat < 2 ^ 63 → ∃ fee s',
      adjusted p (getNextBaseFeePerGas p s) (targetGasUsed p) (Dec.ofInt64 maxGas)
        (cappedGasUsed maxGas used) = .ok fee ∧
      adjustDynamicBaseFeePerGas p (some maxGas) s used = .ok (some (clamp p fee), s') ∧
      Decimal.mul Dec.unit (getNextBaseFeePerGas p s)
        (Dec.unit - p.maxDynamicBaseFeeDownwardAdjustment) ≤ fee ∧
      fee ≤ Decimal.mul Dec.unit (getNextBaseFeePerGas p s)
        (Dec.unit + p.maxDynamicBaseFeeUpwardAdjustment) ∧
      (cappedGasUsed maxGas used ≤ targetGasUsed p → fee ≤ getNextBaseFeePerGas p s) ∧
      (targetGasUsed p < cappedGasUsed maxGas used → getNextBaseFeePerGas p s ≤ fee)) ∧
    ∀ used used' : UInt64, used ≤ used' → used'.toNat < 2 ^ 63 → ∀ fee fee' s₁ s₂,
      adjustDynamicBaseFeePerGas p (some maxGas) s used = .ok (some fee, s₁) →
      adjustDynamicBaseFeePerGas p (some maxGas) s used' = .ok (some fee', s₂) → fee ≤ fee' := by
  obtain ⟨htarget, hpos⟩ := h.target
  obtain ⟨⟨hup, -⟩, hdown₀, hdown₁⟩ := adjustment_of_validate h.valid
  refine ⟨fun used hused => ?_, fun used used' hle hused' fee fee' s₁ s₂ hfee hfee' => ?_⟩
  · obtain ⟨h₀, hcap⟩ := cappedGasUsed_bounds h hused
    obtain ⟨fee, s', hadjusted, rfl, hreturned⟩ := adjust_eq h hused
    refine ⟨_, s', hadjusted, hreturned, ?_⟩
    by_cases habove : targetGasUsed p < cappedGasUsed maxGas used
    · obtain ⟨hf₀, hf₁⟩ := factor_above h.valid habove hcap
      have hprev := Decimal.self_le_mul Dec.unit_pos h.prev_nonneg hf₀
      exact ⟨(Decimal.mul_le_self Dec.unit_pos h.prev_nonneg (by omega) (by omega)).trans hprev,
        Decimal.mul_mono Dec.unit_pos h.prev_nonneg (Dec.unit_pos.le.trans hf₀) hf₁,
        fun hbelow => absurd habove (not_lt.mpr hbelow), fun _ => hprev⟩
    · obtain ⟨hf, hf₀, hf₁⟩ := factor_below h.valid h₀ hpos (not_lt.mp habove)
      have hprev := Decimal.mul_le_self Dec.unit_pos h.prev_nonneg hf hf₁
      exact ⟨Decimal.mul_mono Dec.unit_pos h.prev_nonneg (by omega) hf₀,
        hprev.trans (Decimal.self_le_mul Dec.unit_pos h.prev_nonneg (by omega)),
        fun _ => hprev, fun hlt => absurd hlt habove⟩
  · have hused : used.toNat < 2 ^ 63 :=
      lt_of_le_of_lt (UInt64.le_iff_toNat_le.mp hle) hused'
    -- both fees are clamped products with the same previous fee, and the factor is monotone
    obtain ⟨z, s₁', -, rfl, hz⟩ := adjust_eq h hused
    obtain ⟨z', s₂', -, rfl, hz'⟩ := adjust_eq h hused'
    cases hfee.symm.trans hz
    cases hfee'.symm.trans hz'
    obtain ⟨h₀, hcap⟩ := cappedGasUsed_bounds h hused
    have hcap' := (cappedGasUsed_bounds h hused').2
    have hfactor := factor_mono h.valid hpos h₀ (cappedGasUsed_mono hle hused') hcap'
    exact clamp_mono (Decimal.mul_mono Dec.unit_pos h.prev_nonneg
      (factor_nonneg h.valid hpos h₀ hcap) hfactor)

theorem adjust_controls_defaultParams :
    ∃ fee fee' s₁ s₂,
      adjustDynamicBaseFeePerGas defaultParams (some 1000000) ⟨none, none⟩ 300000 =
        .ok (some fee, s₁) ∧
      adjustDynamicBaseFeePerGas defaultParams (some 1000000) ⟨none, none⟩ 1000000 =
        .ok (some fee', s₂) ∧ fee ≤ fee' := by
  have hlaw := @adjust_controls defaultParams ⟨none, none⟩ 1000000
    ⟨rfl, by decide, by decide, by decide, by decide, IsGas.fits ⟨by decide, by decide⟩⟩
  obtain ⟨fee, s₁, -, h₁, -⟩ := hlaw.1 300000 (by decide)
  obtain ⟨fee', s₂, -, h₂, -⟩ := hlaw.1 1000000 (by decide)
  exact ⟨_, _, s₁, s₂, h₁, h₂, hlaw.2 300000 1000000 (by decide) (by decide) _ _ s₁ s₂ h₁ h₂⟩

end Law

end Tabi.BaseFee
