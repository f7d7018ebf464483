import Mathlib.Data.List.Forall2
import Mathlib.Order.Basic
import Tabi.Support.Quantile

/-!
# Rpc — percentiles of the rewards

`FeeHistory` reports, for each block, the rewards at some percentiles of the gas
(`CalculatePercentiles`, `evmrpc/info.go`).
-/

namespace Tabi.Rpc

open Support

structure GasAndReward where
  gasUsed : UInt64
  reward : ℤ

section Source

variable (txs : List GasAndReward)

def advance (thresholdGasUsed : UInt64) (txIndex : Fin txs.length) (sumGasUsed : UInt64) :
    Fin txs.length × UInt64 :=
  if h : sumGasUsed < thresholdGasUsed ∧ txIndex.val < txs.length - 1 then
    have hnext : txIndex.val + 1 < txs.length := Nat.add_lt_of_lt_sub h.2
    advance thresholdGasUsed ⟨txIndex.val + 1, hnext⟩
      (sumGasUsed + txs[txIndex.val + 1].gasUsed)
  else (txIndex, sumGasUsed)
termination_by txs.length - txIndex.val

def selectRewards : List UInt64 → Fin txs.length → UInt64 → List ℤ
  | [], _, _ => []
  | thresholdGasUsed :: thresholds, txIndex, sumGasUsed =>
    let (txIndex, sumGasUsed) := advance txs thresholdGasUsed txIndex sumGasUsed
    txs[txIndex].reward :: selectRewards thresholds txIndex sumGasUsed

end Source

/-- `CalculatePercentiles`.  `thresholdGasUsed` is what the total makes of a percentile, with
rounding. -/
def calculatePercentiles {P : Type} (thresholdGasUsed : UInt64 → P → UInt64)
    (rewardPercentiles : List P) (gasAndRewards : List GasAndReward) (totalEVMGasUsed : UInt64) :
    List ℤ :=
  let txs := gasAndRewards.mergeSort fun a b => decide (a.reward ≤ b.reward)
  if h : 0 < txs.length then
    selectRewards txs (rewardPercentiles.map (thresholdGasUsed totalEVMGasUsed)) ⟨0, h⟩
      txs[0].gasUsed
  else rewardPercentiles.map fun _ => 0

def gasOf (txs : List GasAndReward) : List ℕ := txs.map fun tx => tx.gasUsed.toNat

variable {txs : List GasAndReward} {thresholdGasUsed sumGasUsed : UInt64} {txIndex : Fin txs.length}

theorem length_gasOf (txs : List GasAndReward) : (gasOf txs).length = txs.length :=
  List.length_map _

theorem sumGasUsed_add (hsum : (gasOf txs).sum < 2 ^ 64)
    (hgas : sumGasUsed.toNat = cumulative (gasOf txs) txIndex)
    (hnext : txIndex.val + 1 < txs.length) :
    (sumGasUsed + txs[txIndex.val + 1].gasUsed).toNat =
      cumulative (gasOf txs) (txIndex.val + 1) := by
  have hnext' : txIndex.val + 1 < (gasOf txs).length := (length_gasOf txs).symm ▸ hnext
  have hle := cumulative_le_sum (gasOf txs) (txIndex.val + 1)
  have hsucc : cumulative (gasOf txs) (txIndex.val + 1) =
      sumGasUsed.toNat + txs[txIndex.val + 1].gasUsed.toNat := by
    rw [cumulative_succ hnext', hgas]
    simp only [gasOf, List.getElem_map]
  rw [UInt64.toNat_add, ← hsucc]
  exact Nat.mod_eq_of_lt (Nat.lt_of_le_of_lt hle hsum)

theorem advance_spec (hsum : (gasOf txs).sum < 2 ^ 64)
    (hgas : sumGasUsed.toNat = cumulative (gasOf txs) txIndex)
    (hbefore : ∀ j < txIndex.val, cumulative (gasOf txs) j < thresholdGasUsed.toNat) :
    (advance txs thresholdGasUsed txIndex sumGasUsed).2.toNat =
        cumulative (gasOf txs) (advance txs thresholdGasUsed txIndex sumGasUsed).1 ∧
      Reaches (gasOf txs) thresholdGasUsed.toNat
        (advance txs thresholdGasUsed txIndex sumGasUsed).1 := by
  fun_induction advance txs thresholdGasUsed txIndex sumGasUsed with
  | case1 txIndex sumGasUsed h hnext ih =>
    refine ih (sumGasUsed_add hsum hgas hnext) fun j hj => ?_
    rcases Nat.lt_succ_iff_lt_or_eq.mp hj with hj | rfl
    · exact hbefore j hj
    · exact hgas ▸ UInt64.lt_iff_toNat_lt.mp h.1
  | case2 txIndex sumGasUsed h =>
    refine ⟨hgas, (length_gasOf txs).symm ▸ txIndex.isLt, hbefore, ?_⟩
    rw [length_gasOf, ← hgas]
    rcases Decidable.not_and_iff_or_not.mp h with hge | hlast
    · exact .inl (UInt64.le_iff_toNat_le.mp (UInt64.not_lt.mp hge))
    · have hlt := txIndex.isLt
      exact .inr (show txIndex.val + 1 = txs.length by omega)

def Selected (ordered : List GasAndReward) (thresholdGasUsed : UInt64) (reward : ℤ) : Prop :=
  ∃ k tx, ordered[k]? = some tx ∧ Reaches (gasOf ordered) thresholdGasUsed.toNat k ∧
    reward = tx.reward

theorem selectRewards_selected (hsum : (gasOf txs).sum < 2 ^ 64) {thresholds : List UInt64}
    (hmono : thresholds.Pairwise (· ≤ ·)) (hgas : sumGasUsed.toNat = cumulative (gasOf txs) txIndex)
    (hbefore : ∀ t ∈ thresholds, ∀ j < txIndex.val, cumulative (gasOf txs) j < t.toNat) :
    List.Forall₂ (Selected txs) thresholds (selectRewards txs thresholds txIndex sumGasUsed) := by
  induction thresholds generalizing txIndex sumGasUsed with
  | nil => exact .nil
  | cons t thresholds ih =>
    obtain ⟨hgas', hreaches⟩ := advance_spec hsum hgas (hbefore t List.mem_cons_self)
    obtain ⟨hle, hmono⟩ := List.pairwise_cons.mp hmono
    refine .cons ⟨_, _, List.getElem?_eq_getElem _, hreaches, rfl⟩ (ih hmono hgas' ?_)
    -- what did not reach this threshold does not reach a later one
    intro t' ht' j hj
    exact Nat.lt_of_lt_of_le (hreaches.before j hj) (UInt64.le_iff_toNat_le.mp (hle t' ht'))

theorem Selected.mono (hsorted : txs.Pairwise fun a b => a.reward ≤ b.reward) {t t' : UInt64}
    {reward reward' : ℤ} (h : Selected txs t reward) (h' : Selected txs t' reward') (ht : t ≤ t') :
    reward ≤ reward' := by
  obtain ⟨k, tx, htx, hreaches, rfl⟩ := h
  obtain ⟨k', tx', htx', hreaches', rfl⟩ := h'
  rcases Nat.eq_or_lt_of_le (hreaches.mono hreaches' (UInt64.le_iff_toNat_le.mp ht)) with rfl | hlt
  · cases htx.symm.trans htx'
    exact le_refl _
  · obtain ⟨hk, rfl⟩ := List.getElem?_eq_some_iff.mp htx
    obtain ⟨hk', rfl⟩ := List.getElem?_eq_some_iff.mp htx'
    exact List.pairwise_iff_getElem.mp hsorted k k' hk hk' hlt

theorem pairwise_of_selected (hsorted : txs.Pairwise fun a b => a.reward ≤ b.reward)
    {thresholds : List UInt64} {rewards : List ℤ} (hmono : thresholds.Pairwise (· ≤ ·))
    (h : List.Forall₂ (Selected txs) thresholds rewards) : rewards.Pairwise (· ≤ ·) := by
  rw [List.pairwise_iff_getElem]
  intro i j hi hj hij
  have hlen := h.length_eq
  refine (h.get (hlen ▸ hi) hi).mono hsorted (h.get (hlen ▸ hj) hj) ?_
  exact List.pairwise_iff_getElem.mp hmono i j _ _ hij

/-- **Percentile selection**: with ascending thresholds, and a total of gas that is a word, each
output is the reward of the first transaction, in stable order of the rewards, at which the gas
reaches the threshold, or of the last one; and the outputs ascend. -/
theorem calculatePercentiles_selects {P : Type} (thresholdGasUsed : UInt64 → P → UInt64)
    (rewardPercentiles : List P) (gasAndRewards : List GasAndReward) (totalEVMGasUsed : UInt64)
    (hne : gasAndRewards ≠ []) (hsum : (gasOf gasAndRewards).sum < 2 ^ 64)
    (hmono : (rewardPercentiles.map (thresholdGasUsed totalEVMGasUsed)).Pairwise (· ≤ ·)) :
    ∃ ordered, StableOrder GasAndReward.reward gasAndRewards ordered ∧
      List.Forall₂ (Selected ordered)
        (rewardPercentiles.map (thresholdGasUsed totalEVMGasUsed))
        (calculatePercentiles thresholdGasUsed rewardPercentiles gasAndRewards totalEVMGasUsed) ∧
      (calculatePercentiles thresholdGasUsed rewardPercentiles gasAndRewards
        totalEVMGasUsed).Pairwise (· ≤ ·) := by
  have hordered := stableOrder_mergeSort GasAndReward.reward gasAndRewards
  refine ⟨_, hordered, ?_⟩
  unfold calculatePercentiles
  generalize gasAndRewards.mergeSort (fun a b => decide (a.reward ≤ b.reward)) = txs at *
  have hpos : 0 < txs.length := by
    rw [hordered.perm.length_eq]
    exact List.length_pos_iff.mpr hne
  have hsum' : (gasOf txs).sum < 2 ^ 64 := by
    rw [gasOf, (hordered.perm.map _).sum_nat]
    exact hsum
  have hselected : List.Forall₂ (Selected txs)
      (rewardPercentiles.map (thresholdGasUsed totalEVMGasUsed)) (selectRewards txs
        (rewardPercentiles.map (thresholdGasUsed totalEVMGasUsed)) ⟨0, hpos⟩ txs[0].gasUsed) := by
    refine selectRewards_selected hsum' hmono ?_ fun t _ j hj => absurd hj (Nat.not_lt_zero j)
    cases txs with
    | nil => cases hpos
    | cons tx txs => simp [cumulative, gasOf]
  simp only [dif_pos hpos]
  exact ⟨hselected, pairwise_of_selected hordered.sorted hmono hselected⟩

def threeTxs : List GasAndReward := [⟨10, 3⟩, ⟨20, 1⟩, ⟨30, 2⟩]

theorem calculatePercentiles_selects_threeTxs :
    ∃ ordered, StableOrder GasAndReward.reward threeTxs ordered ∧
      List.Forall₂ (Selected ordered) [0, 21, 60]
        (calculatePercentiles (fun _ t => t) [0, 21, 60] threeTxs 60) ∧
      (calculatePercentiles (fun _ t => t) [0, 21, 60] threeTxs 60).Pairwise (· ≤ ·) :=
  calculatePercentiles_selects (fun _ t => t) [0, 21, 60] threeTxs 60 (List.cons_ne_nil _ _)
    (by decide) (by decide)

end Tabi.Rpc
