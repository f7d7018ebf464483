import Tabi.Precompile.Metered

/-!
# Precompile — the gas of internal EVM calls

A Cosmos transaction that calls into the EVM grants it the Cosmos gas it has left, converted into
EVM gas (`getEvmGasLimitFromCtx`), and pays for the EVM gas used, converted back (`consumeEvmGas`,
`x/evm/keeper/evm.go`).
-/

namespace Tabi.Precompile

open Support

namespace GasM

variable {σ : Type} {m : GasMeter} {w w' : World σ}

theorem consumeGas_eq_ok (hunit : m.adjust = id) {amount : UInt64} :
    consumeGas amount m w = .ok ((), w') ↔
      w.consumed.toNat + amount.toNat ≤ m.limit.toNat ∧
        w' = { w with consumed := w.consumed + amount } := by
  have hlimit := m.limit.toNat_lt
  unfold consumeGas
  rw [hunit, id]
  split
  · exact ⟨nofun, fun h => by omega⟩
  · rename_i hsum
    have hadd : (w.consumed + amount).toNat = w.consumed.toNat + amount.toNat := by
      rw [UInt64.toNat_add, Nat.mod_eq_of_lt (by omega)]
    split
    · rename_i hlt
      rw [UInt64.lt_iff_toNat_lt, hadd] at hlt
      exact ⟨nofun, fun h => by omega⟩
    · rename_i hlt
      rw [UInt64.lt_iff_toNat_lt, hadd] at hlt
      constructor
      · intro h
        cases h
        exact ⟨by omega, rfl⟩
      · rintro ⟨-, rfl⟩
        rfl

theorem forM_consumeGas_returns (hunit : m.adjust = id) (charges : List UInt64) (amount : UInt64) :
    (∃ w', (do charges.forM consumeGas; consumeGas amount) m w = .ok ((), w')) ↔
      w.consumed.toNat + (charges.map UInt64.toNat).sum + amount.toNat ≤ m.limit.toNat := by
  induction charges generalizing w with
  | nil =>
    show (∃ w', consumeGas amount m w = .ok ((), w')) ↔ _
    simp [consumeGas_eq_ok hunit]
  | cons g charges ih =>
    have hlimit := m.limit.toNat_lt
    show (∃ w', ((do consumeGas g; charges.forM consumeGas) >>= fun _ => consumeGas amount) m w =
      .ok ((), w')) ↔ _
    rw [bind_assoc, List.map_cons, List.sum_cons]
    constructor
    · rintro ⟨w', h⟩
      obtain ⟨_, w₁, hg, h⟩ := steps_iff.mp h
      obtain ⟨hle, rfl⟩ := (consumeGas_eq_ok hunit).mp hg
      have hrest := ih.mp ⟨w', h⟩
      rw [UInt64.toNat_add, Nat.mod_eq_of_lt (by omega)] at hrest
      omega
    · intro hle
      have hrest : (w.consumed + g).toNat + (charges.map UInt64.toNat).sum + amount.toNat ≤
          m.limit.toNat := by
        rw [UInt64.toNat_add, Nat.mod_eq_of_lt (by omega)]
        omega
      obtain ⟨w', h⟩ := (ih (w := { w with consumed := w.consumed + g })).mpr hrest
      exact ⟨w', steps_iff.mpr ⟨(), _, (consumeGas_eq_ok hunit).mpr ⟨by omega, rfl⟩, h⟩⟩

end GasM

def uint64 (z : ℤ) : Outcome UInt64 :=
  if 0 ≤ z ∧ z < 2 ^ 64 then .ok (.ofNat z.toNat) else .error (.raised "Uint64() out of bounds")

def cosmosCharge (normalizer : ℤ) (usedEvmGas : UInt64) : Outcome UInt64 := do
  let gas ← Dec.truncateInt (← Dec.mul (Dec.ofUint64 usedEvmGas) normalizer)
  uint64 gas

/-- `GetPriorityNormalizer`, on the meter of its context: the reads of the parameter store are
charged one after the other. -/
def getPriorityNormalizer {σ : Type} (reads : List UInt64) (normalizer : ℤ) : GasM σ ℤ := do
  reads.forM GasM.consumeGas
  return normalizer

def consumeEvmGas {σ : Type} (reads : List UInt64) (normalizer : ℤ) (usedEvmGas : UInt64) :
    GasM σ Unit := do
  let priorityNormalizer ← getPriorityNormalizer reads normalizer
  GasM.consumeGas (← GasM.ofOutcome (cosmosCharge priorityNormalizer usedEvmGas))

def GasMeter.remaining (m : GasMeter) (consumed : UInt64) : UInt64 :=
  m.limit - m.gasConsumedToLimit consumed

variable {normalizer : ℤ} {m : GasMeter} {consumed usedEvmGas : UInt64}

theorem ofUint64_nonneg (n : UInt64) : 0 ≤ Dec.ofUint64 n :=
  Int.mul_nonneg (Int.natCast_nonneg _) Dec.unit_pos.le

theorem quo_ofUint64_le (hN : 0 < normalizer) (n : UInt64) :
    Decimal.quo Dec.unit (Dec.ofUint64 n) normalizer ≤ n.toNat * (Dec.unit * Dec.unit) := by
  have hunit := Dec.unit_pos
  have hn := ofUint64_nonneg n
  have hnum : 0 ≤ Dec.ofUint64 n * Dec.unit * Dec.unit :=
    Int.mul_nonneg (Int.mul_nonneg hn hunit.le) hunit.le
  refine Decimal.chopRound_le hunit (Int.tdiv_nonneg hnum hN.le) ?_
  rw [Int.tdiv_eq_ediv_of_nonneg hnum]
  refine (Int.ediv_le_self _ hnum).trans (le_of_eq ?_)
  unfold Dec.ofUint64 Decimal.ofInt
  ring

theorem getEvmGasLimitFromCtx_returns (hN : 0 < normalizer) (hlimit : 0 < m.limit) :
    getEvmGasLimitFromCtx normalizer m consumed =
      .ok (clampUint64 (Decimal.truncate Dec.unit
        (Decimal.quo Dec.unit (Dec.ofUint64 (m.remaining consumed)) normalizer))) := by
  have hunit : Dec.unit = 1000000000000000000 := rfl
  have hr := (m.remaining consumed).toNat_lt
  have hquo₀ := Decimal.quo_nonneg Dec.unit_pos (ofUint64_nonneg (m.remaining consumed)) hN.le
  have hquo := quo_ofUint64_le hN (m.remaining consumed)
  have hcheck : Dec.Fits
      (Decimal.quo Dec.unit (Dec.ofUint64 (m.remaining consumed)) normalizer) := by
    unfold Dec.Fits Dec.maxDecBitLen
    rw [hunit] at hquo hquo₀ ⊢
    omega
  have htrunc : SdkInt.Fits (Decimal.truncate Dec.unit
      (Decimal.quo Dec.unit (Dec.ofUint64 (m.remaining consumed)) normalizer)) := by
    have hle := Int.natAbs_tdiv_le_natAbs
      (Decimal.quo Dec.unit (Dec.ofUint64 (m.remaining consumed)) normalizer) Dec.unit
    unfold SdkInt.Fits SdkInt.maxBitLen Decimal.truncate
    rw [hunit] at hquo hquo₀ hle ⊢
    omega
  have hpos : ¬ m.limit ≤ 0 := UInt64.not_le.mpr hlimit
  unfold getEvmGasLimitFromCtx
  simp only [if_neg hpos]
  rw [Dec.quo, if_neg (ne_of_gt hN), ← GasMeter.remaining, hcheck.check, Outcome.ok_bind,
    Dec.truncateInt, SdkInt.ofBig, if_pos htrunc, Outcome.ok_bind, Outcome.pure_eq_ok]

theorem cosmosCharge_returns (hN : 0 < normalizer) {r : UInt64}
    (h : usedEvmGas.toNat * normalizer / Dec.unit ≤ r.toNat) :
    ∃ charge, cosmosCharge normalizer usedEvmGas = .ok charge ∧ charge ≤ r := by
  have hunit : Dec.unit = 1000000000000000000 := rfl
  have hr := r.toNat_lt
  have hprod : 0 ≤ (usedEvmGas.toNat : ℤ) * normalizer := by positivity
  have hwhole : 0 ≤ (usedEvmGas.toNat : ℤ) * normalizer / Dec.unit :=
    Int.ediv_nonneg hprod Dec.unit_pos.le
  have hcheck : Dec.Fits (usedEvmGas.toNat * normalizer) := by
    have hsplit := Int.ediv_mul_add_emod (usedEvmGas.toNat * normalizer) Dec.unit
    have hrem := Int.emod_lt_of_pos (usedEvmGas.toNat * normalizer) Dec.unit_pos
    unfold Dec.Fits Dec.maxDecBitLen
    rw [hunit] at hsplit hrem h
    omega
  have htrunc : SdkInt.Fits (usedEvmGas.toNat * normalizer / Dec.unit) := by
    unfold SdkInt.Fits SdkInt.maxBitLen
    omega
  have hrange : 0 ≤ (usedEvmGas.toNat : ℤ) * normalizer / Dec.unit ∧
      (usedEvmGas.toNat : ℤ) * normalizer / Dec.unit < 2 ^ 64 := by omega
  have hsize : (usedEvmGas.toNat * normalizer / Dec.unit).toNat < 2 ^ 64 := by omega
  refine ⟨.ofNat (usedEvmGas.toNat * normalizer / Dec.unit).toNat, ?_, ?_⟩
  · unfold cosmosCharge
    rw [Dec.mul, Dec.ofUint64, Decimal.mul_ofInt Dec.unit_pos, hcheck.check, Outcome.ok_bind,
      Dec.truncateInt, Decimal.truncate, Int.tdiv_eq_ediv_of_nonneg hprod, SdkInt.ofBig,
      if_pos htrunc, Outcome.ok_bind, uint64, if_pos hrange]
  · rw [UInt64.le_iff_toNat_le, UInt64.toNat_ofNat_of_lt' hsize]
    omega

theorem cosmosCharge_le (hN : 0 < normalizer) (hmax : normalizer ≤ 10 ^ 18 * Dec.unit)
    (hlimit : 0 < m.limit) {evmGasLimit : UInt64}
    (hgranted : getEvmGasLimitFromCtx normalizer m consumed = .ok evmGasLimit)
    (hused : usedEvmGas ≤ evmGasLimit) :
    ∃ charge, cosmosCharge normalizer usedEvmGas = .ok charge ∧ charge ≤ m.remaining consumed := by
  rw [getEvmGasLimitFromCtx_returns hN hlimit] at hgranted
  have hquo₀ := Decimal.quo_nonneg Dec.unit_pos (ofUint64_nonneg (m.remaining consumed)) hN.le
  have hused' : (usedEvmGas.toNat : ℤ) ≤ Decimal.truncate Dec.unit
      (Decimal.quo Dec.unit (Dec.ofUint64 (m.remaining consumed)) normalizer) := by
    have hclamp := clampUint64_toNat (Int.tdiv_nonneg hquo₀ Dec.unit_pos.le)
    calc (usedEvmGas.toNat : ℤ) ≤ evmGasLimit.toNat := by
          exact_mod_cast UInt64.le_iff_toNat_le.mp hused
      _ ≤ _ := by
          rw [← Except.ok.inj hgranted]
          exact hclamp.le.trans (min_le_left _ _)
  have hcharge := Decimal.truncate_mul_le Dec.unit_pos (Int.natCast_nonneg _)
    (Int.natCast_nonneg _) hN hmax hused'
  rw [Decimal.mul_ofInt Dec.unit_pos, Decimal.truncate,
    Int.tdiv_eq_ediv_of_nonneg (by positivity)] at hcharge
  exact cosmosCharge_returns hN hcharge

section Paying

variable {σ : Type} {w : World σ} (reads : List UInt64)

theorem consumeEvmGas_eq {charge : UInt64} (h : cosmosCharge normalizer usedEvmGas = .ok charge) :
    (consumeEvmGas reads normalizer usedEvmGas : GasM σ Unit) =
      (do reads.forM GasM.consumeGas; GasM.consumeGas charge) := by
  unfold consumeEvmGas getPriorityNormalizer
  rw [bind_assoc]
  simp only [pure_bind, h]
  rfl

end Paying

end Tabi.Precompile
