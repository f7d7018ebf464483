import Tabi.Chain.Dec

/-!
# Precompile — gas in two currencies

The EVM counts EVM gas and the Cosmos modules count Cosmos gas; `PriorityNormalizer` converts one
into the other (`x/evm/keeper/params.go`, `x/evm/keeper/evm.go`).
-/

namespace Tabi

open Support

namespace Precompile

def maxUint64 : UInt64 := 18446744073709551615

def clampUint64 (z : ℤ) : UInt64 :=
  if (maxUint64.toNat : ℤ) < z then maxUint64 else .ofNat z.toNat

theorem clampUint64_toNat {z : ℤ} (hz : 0 ≤ z) :
    ((clampUint64 z).toNat : ℤ) = min z (maxUint64.toNat : ℤ) := by
  unfold clampUint64
  split
  · rename_i h
    rw [min_eq_right h.le]
  · rename_i h
    rw [min_eq_left (not_lt.mp h)]
    have hlt : z.toNat < 2 ^ 64 := by
      have : (maxUint64.toNat : ℤ) = 18446744073709551615 := rfl
      omega
    rw [UInt64.toNat_ofNat_of_lt' hlt, Int.toNat_of_nonneg hz]

theorem clampUint64_le {z : ℤ} {n : Nat} (h : z ≤ n) : (clampUint64 z).toNat ≤ n := by
  unfold clampUint64
  split
  · rename_i hlt
    omega
  · have hmod : (UInt64.ofNat z.toNat).toNat = z.toNat % 2 ^ 64 := UInt64.toNat_ofNat'
    have := Nat.mod_le z.toNat (2 ^ 64)
    omega

/-- What is fixed when a gas meter is made: its limit, and the multiplier of
`NewGasMeterWithMultiplier` that adjusts each charge.  An infinite meter has limit zero. -/
structure GasMeter where
  limit : UInt64
  adjust : UInt64 → UInt64

namespace GasMeter

/-- `GasConsumedToLimit` of a meter that has counted `consumed`. -/
def gasConsumedToLimit (m : GasMeter) (consumed : UInt64) : UInt64 :=
  if m.limit < consumed then m.limit else consumed

theorem gasConsumedToLimit_le (m : GasMeter) (consumed : UInt64) :
    m.gasConsumedToLimit consumed ≤ m.limit := by
  unfold gasConsumedToLimit
  split
  · exact UInt64.le_refl _
  · rename_i h
    exact UInt64.not_lt.mp h

end GasMeter

variable (normalizer : ℤ)

def getCosmosGasLimitFromEVMGas (evmGas : UInt64) : Outcome UInt64 := do
  let gasLimit ← Dec.truncateInt (← Dec.mul (Dec.ofUint64 evmGas) normalizer)
  return clampUint64 gasLimit

def getEvmGasLimitFromCtx (m : GasMeter) (consumed : UInt64) : Outcome UInt64 := do
  let tabiGasRemaining := m.limit - m.gasConsumedToLimit consumed
  if m.limit ≤ 0 then return maxUint64
  let evmGas ← Dec.truncateInt (← Dec.quo (Dec.ofUint64 tabiGasRemaining) normalizer)
  return clampUint64 evmGas

variable {normalizer}

theorem getCosmosGasLimit_eq_ok (hN : 0 < normalizer) {g limit : UInt64}
    (h : getCosmosGasLimitFromEVMGas normalizer g = .ok limit) :
    (limit.toNat : ℤ) = min (g.toNat * normalizer / Dec.unit) maxUint64.toNat := by
  obtain ⟨z, hz, h⟩ := bind_eq_ok.mp h
  obtain ⟨w, hw, h⟩ := bind_eq_ok.mp h
  cases h
  obtain ⟨-, rfl⟩ := SdkInt.ofBig_eq_ok.mp hw
  rw [Dec.check_eq_ok hz, Dec.ofUint64, Decimal.mul_ofInt Dec.unit_pos]
  have hprod : 0 ≤ (g.toNat : ℤ) * normalizer := by positivity
  rw [Decimal.truncate, Int.tdiv_eq_ediv_of_nonneg hprod]
  exact clampUint64_toNat (Int.ediv_nonneg hprod Dec.unit_pos.le)

theorem getEvmGasLimitFromCtx_zero {m : GasMeter} (h : m.limit = 0) (consumed : UInt64) :
    getEvmGasLimitFromCtx normalizer m consumed = .ok maxUint64 := by
  unfold getEvmGasLimitFromCtx
  rw [h]
  rfl

theorem getEvmGasLimitFromCtx_le (hN : 0 < normalizer) {g r consumed : UInt64} {m : GasMeter}
    (hlimit : getCosmosGasLimitFromEVMGas normalizer g = .ok m.limit) (hpos : m.limit ≠ 0)
    (h : getEvmGasLimitFromCtx normalizer m consumed = .ok r) : r ≤ g := by
  have hL := getCosmosGasLimit_eq_ok hN hlimit
  -- what is left is at most the limit, and the limit at most the scaled gas
  have hleft : ((m.limit - m.gasConsumedToLimit consumed).toNat : ℤ) ≤ m.limit.toNat := by
    rw [UInt64.toNat_sub_of_le _ _ (m.gasConsumedToLimit_le consumed)]
    omega
  have hscaled : ((m.limit - m.gasConsumedToLimit consumed).toNat : ℤ) * Dec.unit ≤
      g.toNat * normalizer := by
    have hdiv : ((m.limit - m.gasConsumedToLimit consumed).toNat : ℤ) ≤
        g.toNat * normalizer / Dec.unit := hleft.trans (hL ▸ min_le_left _ _)
    calc ((m.limit - m.gasConsumedToLimit consumed).toNat : ℤ) * Dec.unit
        ≤ g.toNat * normalizer / Dec.unit * Dec.unit :=
          mul_le_mul_of_nonneg_right hdiv Dec.unit_pos.le
      _ ≤ g.toNat * normalizer := Int.ediv_mul_le _ (ne_of_gt Dec.unit_pos)
  unfold getEvmGasLimitFromCtx at h
  have hle : ¬ m.limit ≤ 0 := fun e => hpos (UInt64.le_zero_iff.mp e)
  simp only [if_neg hle] at h
  obtain ⟨d, hd, h⟩ := bind_eq_ok.mp h
  obtain ⟨z, hz, h⟩ := bind_eq_ok.mp h
  cases h
  obtain ⟨-, rfl⟩ := SdkInt.ofBig_eq_ok.mp hz
  rw [Dec.quo, if_neg (ne_of_gt hN)] at hd
  rw [Dec.check_eq_ok hd]
  exact clampUint64_le (Decimal.truncate_quo_le Dec.unit_pos (Int.natCast_nonneg _) hN hscaled)

theorem limit_eq_zero_iff (hN : 0 < normalizer) {g limit : UInt64}
    (h : getCosmosGasLimitFromEVMGas normalizer g = .ok limit) :
    limit = 0 ↔ g.toNat * normalizer < Dec.unit := by
  have hL := getCosmosGasLimit_eq_ok hN h
  have hmax : (maxUint64.toNat : ℤ) = 18446744073709551615 := rfl
  have hprod : 0 ≤ (g.toNat : ℤ) * normalizer := by positivity
  have hdiv : g.toNat * normalizer < Dec.unit ↔ (g.toNat : ℤ) * normalizer / Dec.unit < 1 := by
    rw [Int.ediv_lt_iff_lt_mul Dec.unit_pos, one_mul]
  rw [← UInt64.toNat_inj, hdiv]
  have hnonneg := Int.ediv_nonneg hprod Dec.unit_pos.le
  rw [hmax] at hL
  show limit.toNat = 0 ↔ _
  omega

theorem lt_maxUint64_of_lt_unit (hN : 0 < normalizer) {g : UInt64}
    (h : g.toNat * normalizer < Dec.unit) : g < maxUint64 := by
  have hg : (g.toNat : ℤ) ≤ g.toNat * normalizer := le_mul_of_one_le_right (by omega) hN
  have hunit : Dec.unit = 1000000000000000000 := rfl
  have hmax : maxUint64.toNat = 18446744073709551615 := rfl
  exact UInt64.lt_iff_toNat_lt.mpr (by omega)

end Precompile

end Tabi
