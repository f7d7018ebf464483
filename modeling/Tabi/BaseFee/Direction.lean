import Tabi.BaseFee.Controller

/-!
# BaseFee — the direction

A block above the target should not lower the fee.
-/

namespace Tabi.BaseFee

open Support

variable {p : Params} {s s' : Fees} {maxGas : Int64} {used : UInt64}

theorem adjusted_eq_ok {prev target limit used z : ℤ}
    (h : adjusted p prev target limit used = .ok z) :
    z = Decimal.mul Dec.unit prev (factor p target limit used) := by
  unfold adjusted at h
  by_cases habove : target < used
  · rw [if_pos habove] at h
    obtain ⟨numerator, hn, h⟩ := bind_eq_ok.mp h
    obtain ⟨denominator, hd, h⟩ := bind_eq_ok.mp h
    obtain ⟨percentageFull, hq, h⟩ := bind_eq_ok.mp h
    obtain ⟨adjustmentFactor, ha, h⟩ := bind_eq_ok.mp h
    obtain ⟨f, hf, h⟩ := bind_eq_ok.mp h
    cases Dec.check_eq_ok hn
    cases Dec.check_eq_ok hd
    cases Dec.quo_eq_ok hq
    cases Dec.check_eq_ok ha
    cases Dec.check_eq_ok hf
    rw [factor, if_pos habove]
    exact Dec.check_eq_ok h
  · rw [if_neg habove] at h
    obtain ⟨numerator, hn, h⟩ := bind_eq_ok.mp h
    obtain ⟨percentageEmpty, hq, h⟩ := bind_eq_ok.mp h
    obtain ⟨adjustmentFactor, ha, h⟩ := bind_eq_ok.mp h
    obtain ⟨f, hf, h⟩ := bind_eq_ok.mp h
    cases Dec.check_eq_ok hn
    cases Dec.quo_eq_ok hq
    cases Dec.check_eq_ok ha
    cases Dec.check_eq_ok hf
    rw [factor, if_neg habove]
    exact Dec.check_eq_ok h

theorem factor_negative {target limit used : ℤ} (h : p.validate = .ok ()) (htarget : target < 0)
    (hbelow : used ≤ target) : Dec.unit ≤ factor p target limit used := by
  obtain ⟨-, hdown, -⟩ := adjustment_of_validate h
  have hquo := Decimal.quo_nonpos Dec.unit_pos (a := target - used) (b := target) (by omega)
    htarget.le
  have hstep : downStep p target used ≤ 0 := Decimal.mul_nonpos Dec.unit_pos hdown hquo
  rw [factor, if_neg (not_lt.mpr hbelow)]
  omega

theorem minimum_of_validate (h : p.validate = .ok ()) : 0 ≤ p.minimumFeePerGas := by
  unfold Params.validate at h
  iterate 2 obtain ⟨_, -, h⟩ := bind_eq_ok.mp h
  obtain ⟨_, hmin, -⟩ := bind_eq_ok.mp h
  unfold validateMinFeePerGas validateNonnegative at hmin
  split at hmin
  · cases hmin
  · omega

theorem clamp_up (h : p.validate = .ok ()) {prev f : ℤ} (hf : Dec.unit ≤ f) :
    prev ≤ clamp p (Decimal.mul Dec.unit prev f) ∨
      clamp p (Decimal.mul Dec.unit prev f) = p.maximumFeePerGas := by
  have hmin := minimum_of_validate h
  rw [clamp_eq]
  by_cases hprev : 0 ≤ prev
  · have hup := Decimal.self_le_mul Dec.unit_pos hprev hf
    omega
  · omega

theorem ofInt64_le {a b : Int64} : Dec.ofInt64 a ≤ Dec.ofInt64 b ↔ a.toInt ≤ b.toInt :=
  mul_le_mul_iff_of_pos_right Dec.unit_pos

theorem cappedGasUsed_eq (maxGas : Int64) (used : UInt64) :
    cappedGasUsed maxGas used = min (Dec.ofInt64 maxGas) (Dec.ofInt64 used.toInt64) := by
  unfold cappedGasUsed capGasUsed
  split_ifs <;> omega

theorem ofInt64_neg {a : Int64} (h : a.toInt < 0) : Dec.ofInt64 a < 0 :=
  mul_neg_of_neg_of_pos h Dec.unit_pos

theorem cappedGasUsed_above (habove : p.targetGasUsedPerBlock < used)
    (hlimit : (p.targetGasUsedPerBlock.toNat : ℤ) < maxGas.toInt) (hused : used.toNat < 2 ^ 63) :
    targetGasUsed p < cappedGasUsed maxGas used := by
  have hlt := UInt64.lt_iff_toNat_lt.mp habove
  have htarget := toInt_toInt64_of_lt (n := p.targetGasUsedPerBlock) (by omega)
  have hcast := toInt_toInt64_of_lt hused
  rw [cappedGasUsed_eq, targetGasUsed, lt_min_iff]
  constructor
  · exact lt_of_not_ge fun hle => by
      have := ofInt64_le.mp hle
      omega
  · exact lt_of_not_ge fun hle => by
      have := ofInt64_le.mp hle
      omega

theorem cappedGasUsed_below (htarget : p.targetGasUsedPerBlock.toNat < 2 ^ 63)
    (hwrong : maxGas.toInt < 0 ∨ 2 ^ 63 ≤ used.toNat) :
    cappedGasUsed maxGas used ≤ targetGasUsed p := by
  have hcast := toInt_toInt64_of_lt htarget
  have hnonneg := (isGas_ofInt64 (n := p.targetGasUsedPerBlock.toInt64) (by omega)).1
  rw [cappedGasUsed_eq, targetGasUsed]
  rcases hwrong with hneg | hbig
  · exact (min_le_left _ _).trans ((ofInt64_neg hneg).le.trans hnonneg)
  · exact (min_le_right _ _).trans ((ofInt64_neg (toInt_toInt64_neg hbig)).le.trans hnonneg)

def lowered (p : Params) (s : Fees) (maxGas : Int64) (used : UInt64) : ℤ :=
  Decimal.mul Dec.unit (getNextBaseFeePerGas p s)
    (Dec.unit - downStep p (targetGasUsed p) (cappedGasUsed maxGas used))

end Tabi.BaseFee
