import Tabi.BlockGas.Check
import Tabi.Support.Casts

/-!
# BlockGas — the check is exact

What the accumulators hold is the sum they stand for, at every point where they are compared:
`totalGas` stays below `2 ^ 63`, because the overflow check keeps the next sum there, and
`totalGasWanted` was at most its limit before a number below `2 ^ 63` was added to it.
-/

namespace Tabi.BlockGas

open Support

theorem overflows_eq_false {totalGas gasWanted : UInt64} (h : totalGas.toNat < 2 ^ 63) :
    overflows totalGas gasWanted = false ↔ totalGas.toNat + gasWanted.toNat < 2 ^ 63 := by
  have hw := gasWanted.toNat_lt
  have hcast := toInt_toInt64 gasWanted
  have hgas := toInt_toInt64_of_lt h
  simp only [overflows, Bool.or_eq_false_iff, decide_eq_false_iff_not, Int64.lt_iff_toInt_lt,
    Int64.toInt_zero, Int64.toInt_sub, Int64.toInt_maxValue, hgas]
  split at hcast
  · rw [hcast, Int.bmod_eq_of_le (by omega) (by omega)]
    omega
  · omega

structure Gas where
  wanted : UInt64
  estimate : UInt64

def Gas.effective (g : Gas) : UInt64 := effectiveGas g.wanted g.estimate

theorem Gas.effective_le (g : Gas) : g.effective.toNat ≤ g.wanted.toNat := by
  unfold Gas.effective effectiveGas
  split
  · rename_i h
    exact UInt64.le_iff_toNat_le.mp h.2
  · exact le_rfl

def sumWanted (gs : List Gas) : ℕ := (gs.map fun g => g.wanted.toNat).sum

def sumEffective (gs : List Gas) : ℕ := (gs.map fun g => g.effective.toNat).sum

@[simp] theorem sumWanted_cons (g : Gas) (gs : List Gas) :
    sumWanted (g :: gs) = g.wanted.toNat + sumWanted gs := rfl

@[simp] theorem sumEffective_cons (g : Gas) (gs : List Gas) :
    sumEffective (g :: gs) = (effectiveGas g.wanted g.estimate).toNat + sumEffective gs := rfl

theorem sumEffective_le (gs : List Gas) : sumEffective gs ≤ sumWanted gs := by
  induction gs with
  | nil => exact le_rfl
  | cons g gs ih => exact Nat.add_le_add g.effective_le ih

def Within (n : ℕ) (limit : Int64) : Prop := limit.toInt < 0 ∨ (n : ℤ) ≤ limit.toInt

instance (n : ℕ) (limit : Int64) : Decidable (Within n limit) :=
  inferInstanceAs (Decidable (_ ∨ _))

theorem within_zero (limit : Int64) : Within 0 limit :=
  Int.lt_or_le limit.toInt 0

variable {β γ : Type} (env : Env β γ)

def gasOf (raw : Bytes) : Outcome (Option Gas) := do
  match ← countTx env raw with
  | none => return none
  | some (wanted, tx) => return some ⟨wanted, ← tx.getGasEstimate⟩

/-- The transactions that count; it is a panic if one of the calls is. -/
def counted (txs : List Bytes) : Outcome (List Gas) := do
  return (← txs.mapM (gasOf env)).reduceOption

variable {env}

variable {txs : List Bytes} {block : BlockParams}

theorem counted_cons {raw : Bytes} :
    counted env (raw :: txs) = (do
      let g ← gasOf env raw
      let gs ← counted env txs
      return g.toList ++ gs) := by
  unfold counted
  rw [List.mapM_cons]
  cases gasOf env raw with
  | error p => rfl
  | ok g =>
    cases txs.mapM (gasOf env) with
    | error p => rfl
    | ok gs => cases g <;> rfl

theorem addTx_eq_some (hblock : env.consensusParams = some block) {t t' : Totals} {wanted : UInt64}
    {tx : Tx} :
    addTx env t wanted tx = .ok (some t') ↔ ∃ estimate, tx.getGasEstimate = .ok estimate ∧
      overflows t.totalGas wanted = false ∧
      t.totalGasWanted + wanted ≤ block.maxGasWanted.toUInt64 ∧
      t.totalGas + effectiveGas wanted estimate ≤ block.maxGas.toUInt64 ∧
      t' = ⟨t.totalGas + effectiveGas wanted estimate, t.totalGasWanted + wanted⟩ := by
  unfold addTx
  rw [hblock]
  cases hover : overflows t.totalGas wanted with
  | true => simp
  | false =>
    cases hest : tx.getGasEstimate with
    | error p => simp
    | ok estimate =>
      simp only [Bool.false_eq_true, if_false, Outcome.ok_bind, Except.ok.injEq,
        exists_eq_left', true_and, Outcome.pure_eq_ok]
      split_ifs with h₁ h₂
      · simp [UInt64.not_le.mpr h₁]
      · simp [UInt64.not_le.mpr h₂]
      · simp [UInt64.not_lt.mp h₁, UInt64.not_lt.mp h₂, eq_comm]

structure Exact (block : BlockParams) (t : Totals) (gas wanted : ℕ) : Prop where
  gas_eq : t.totalGas.toNat = gas
  gas_lt : gas < 2 ^ 63
  gas_within : Within gas block.maxGas
  wanted_eq : 0 ≤ block.maxGasWanted.toInt → t.totalGasWanted.toNat = wanted
  wanted_within : Within wanted block.maxGasWanted

theorem Exact.addTx (hblock : env.consensusParams = some block) {t t' : Totals} {gas wanted : ℕ}
    (h : Exact block t gas wanted) {w : UInt64} {tx : Tx} (hadd : addTx env t w tx = .ok
    (some t')) :
    ∃ estimate, tx.getGasEstimate = .ok estimate ∧
      Exact block t' (gas + (effectiveGas w estimate).toNat) (wanted + w.toNat) := by
  obtain ⟨estimate, hest, hover, hwanted, hgas, rfl⟩ := (addTx_eq_some hblock).mp hadd
  obtain ⟨rfl, hlt, _, hwanted_eq, hwithin⟩ := h
  have hsum := (overflows_eq_false hlt).mp hover
  have heff : (effectiveGas w estimate).toNat ≤ w.toNat := Gas.effective_le ⟨w, estimate⟩
  have hgas_eq : (t.totalGas + effectiveGas w estimate).toNat =
      t.totalGas.toNat + (effectiveGas w estimate).toNat := by
    rw [UInt64.toNat_add]
    omega
  have hgas := UInt64.le_iff_toNat_le.mp hgas
  have hwanted := UInt64.le_iff_toNat_le.mp hwanted
  rw [hgas_eq] at hgas
  have hsumWanted : 0 ≤ block.maxGasWanted.toInt →
      (t.totalGasWanted + w).toNat = wanted + w.toNat := by
    intro hnonneg
    -- the sum before was within the limit, so adding `w` cannot wrap
    have hle : (wanted : ℤ) ≤ block.maxGasWanted.toInt := hwithin.resolve_left (by omega)
    have hmax := block.maxGasWanted.toInt_lt
    have hprev := hwanted_eq hnonneg
    rw [UInt64.toNat_add]
    omega
  refine ⟨estimate, hest, hgas_eq, by omega, ?_, hsumWanted, ?_⟩
  · rcases Int.lt_or_le block.maxGas.toInt 0 with hneg | hnonneg
    · exact .inl hneg
    · have hlimit := toNat_toUInt64_of_nonneg hnonneg
      exact .inr (by omega)
  · rcases Int.lt_or_le block.maxGasWanted.toInt 0 with hneg | hnonneg
    · exact .inl hneg
    · have hlimit := toNat_toUInt64_of_nonneg hnonneg
      have hsum' := hsumWanted hnonneg
      exact .inr (by omega)

theorem checkLoop_sound (hblock : env.consensusParams = some block) :
    ∀ {t : Totals} {gas wanted : ℕ}, Exact block t gas wanted →
      checkLoop env t txs = .ok true → ∃ gs, counted env txs = .ok gs ∧
        Within (gas + sumEffective gs) block.maxGas ∧
        Within (wanted + sumWanted gs) block.maxGasWanted := by
  induction txs with
  | nil => exact fun h _ => ⟨[], rfl, h.gas_within, h.wanted_within⟩
  | cons raw txs ih =>
    intro t gas wanted h hloop
    rw [checkLoop, bind_eq_ok] at hloop
    obtain ⟨c, hc, hloop⟩ := hloop
    rw [counted_cons, gasOf, hc]
    rcases c with _ | ⟨w, tx⟩
    · obtain ⟨gs, hgs, hsums⟩ := ih h hloop
      exact ⟨gs, by rw [hgs]; rfl, hsums⟩
    · obtain ⟨o, ho, hloop⟩ := bind_eq_ok.mp hloop
      rcases o with _ | t'
      · cases hloop
      · obtain ⟨estimate, hest, h'⟩ := h.addTx hblock ho
        obtain ⟨gs, hgs, hgas, hwanted⟩ := ih h' hloop
        refine ⟨⟨w, estimate⟩ :: gs, ?_, ?_, ?_⟩
        · simp only [Outcome.ok_bind, hest, hgs, Outcome.pure_eq_ok]
          rfl
        · rw [Nat.add_assoc] at hgas
          exact hgas
        · rw [Nat.add_assoc] at hwanted
          exact hwanted

theorem Within.le_cast {n : ℕ} {limit : Int64} (h : Within n limit) {x : UInt64} (hx : x.toNat ≤ n)
    (hlt : n < 2 ^ 63) : x ≤ limit.toUInt64 := by
  refine UInt64.le_iff_toNat_le.mpr ?_
  rcases Int.lt_or_le limit.toInt 0 with hneg | hnonneg
  · have := le_toUInt64_of_neg hneg
    omega
  · have hlimit := toNat_toUInt64_of_nonneg hnonneg
    have hle := h.resolve_left (by omega)
    omega

theorem checkLoop_complete (hblock : env.consensusParams = some block) :
    ∀ {t : Totals} {gs : List Gas}, counted env txs = .ok gs →
      t.totalGas.toNat ≤ t.totalGasWanted.toNat →
      t.totalGasWanted.toNat + sumWanted gs < 2 ^ 63 →
      Within (t.totalGas.toNat + sumEffective gs) block.maxGas →
      Within (t.totalGasWanted.toNat + sumWanted gs) block.maxGasWanted →
      checkLoop env t txs = .ok true := by
  induction txs with
  | nil => exact fun _ _ _ _ _ => rfl
  | cons raw txs ih =>
    intro t gs hgs hle hlt hgas hwanted
    rw [counted_cons, gasOf] at hgs
    rw [checkLoop]
    obtain ⟨g, hg, hgs⟩ := bind_eq_ok.mp hgs
    obtain ⟨c, hc, hg⟩ := bind_eq_ok.mp hg
    obtain ⟨rest, hrest, hgs⟩ := bind_eq_ok.mp hgs
    rw [hc]
    rcases c with _ | ⟨w, tx⟩
    · -- a transaction that is skipped
      cases hg
      cases hgs
      exact ih hrest hle hlt hgas hwanted
    · obtain ⟨estimate, hest, hg⟩ := bind_eq_ok.mp hg
      cases hg
      cases hgs
      have heff : (effectiveGas w estimate).toNat ≤ w.toNat := Gas.effective_le ⟨w, estimate⟩
      simp only [Option.toList_some, List.singleton_append, sumWanted_cons, sumEffective_cons,
        ← Nat.add_assoc] at hlt hgas hwanted
      -- the sums are below `2 ^ 63`, so neither accumulator wraps around
      have hsumE := sumEffective_le rest
      have hgas_eq : (t.totalGas + effectiveGas w estimate).toNat =
          t.totalGas.toNat + (effectiveGas w estimate).toNat := by
        rw [UInt64.toNat_add]
        omega
      have hwanted_eq : (t.totalGasWanted + w).toNat = t.totalGasWanted.toNat + w.toNat := by
        rw [UInt64.toNat_add]
        omega
      have hover : overflows t.totalGas w = false :=
        (overflows_eq_false (by omega)).mpr (by omega)
      have hadd := (addTx_eq_some hblock).mpr ⟨estimate, hest, hover,
        hwanted.le_cast (by omega) hlt, hgas.le_cast (by omega) (by omega), rfl⟩
      simp only [Outcome.ok_bind, hadd]
      exact ih hrest (by simp only [hgas_eq, hwanted_eq]; omega)
        (by rwa [hwanted_eq]) (by rwa [hgas_eq]) (by rwa [hwanted_eq])

/-- **The check is exact**: if it returns true, no call of it panicked and the exact sums are
within the limits; and it returns true if no call panics, the exact sum of the gas wanted is below
`2 ^ 63`, and both sums are within the limits. -/
theorem checkTotalBlockGas_exact {block : BlockParams} (hblock : env.consensusParams = some block)
    (txs : List Bytes) :
    (checkTotalBlockGas env txs = true → ∃ gs, counted env txs = .ok gs ∧
      Within (sumWanted gs) block.maxGasWanted ∧ Within (sumEffective gs) block.maxGas) ∧
    (∀ gs, counted env txs = .ok gs → sumWanted gs < 2 ^ 63 →
      Within (sumWanted gs) block.maxGasWanted → Within (sumEffective gs) block.maxGas →
      checkTotalBlockGas env txs = true) := by
  refine ⟨fun h => ?_, fun gs hgs hlt hwanted hgas => ?_⟩
  · have hloop : checkLoop env ⟨0, 0⟩ txs = .ok true := by
      rw [checkTotalBlockGas] at h
      split at h
      · rename_i result hresult
        rw [hresult, h]
      · cases h
    have hinit : Exact block ⟨0, 0⟩ 0 0 :=
      ⟨rfl, by decide, within_zero _, fun _ => rfl, within_zero _⟩
    obtain ⟨gs, hgs, hgas, hwanted⟩ := checkLoop_sound hblock hinit hloop
    rw [Nat.zero_add] at hgas hwanted
    exact ⟨gs, hgs, hwanted, hgas⟩
  · have hloop : checkLoop env ⟨0, 0⟩ txs = .ok true := by
      refine checkLoop_complete hblock hgs le_rfl ?_ ?_ ?_ <;>
        simpa only [UInt64.toNat_zero, Nat.zero_add]
    rw [checkTotalBlockGas, hloop]

theorem checkTotalBlockGas_exact_twoFees :
    let fee (wanted estimate : UInt64) : Tx := ⟨[.other], some (.ok wanted), .ok estimate⟩
    let env : Env Unit Unit :=
      { view := ⟨fun _ => none, fun _ => none, fun _ => none⟩, bech32 := ⟨some, id⟩
        txDecoder := fun raw => .ok (match raw with
          | [1] => some (fee 90000 25000)
          | [2] => some (fee 40000 20000)
          | _ => none)
        consensusParams := some ⟨65000, -1⟩ }
    checkTotalBlockGas env [[1], [], [2]] = true ∧
      ∃ gs, counted env [[1], [], [2]] = .ok gs ∧ Within (sumWanted gs) (-1) ∧
        Within (sumEffective gs) 65000 := by
  intro fee env
  have hexact := @checkTotalBlockGas_exact Unit Unit env ⟨65000, -1⟩ rfl [[1], [], [2]]
  have hcheck : checkTotalBlockGas env [[1], [], [2]] = true :=
    hexact.2 [⟨90000, 25000⟩, ⟨40000, 20000⟩] rfl (by decide) (by decide) (by decide)
  exact ⟨hcheck, hexact.1 hcheck⟩

end Tabi.BlockGas
