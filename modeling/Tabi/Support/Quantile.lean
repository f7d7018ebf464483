import Mathlib.Algebra.GroupWithZero.Nat
import Mathlib.Data.List.Sort
import Mathlib.Tactic.Common

/-!
# Support — Quantile

Elements with a weight, in the order of a key, and the first of them at which the weights add up to
a threshold.
-/

namespace Support

section Stable

variable {α κ : Type} [LinearOrder κ]

structure StableOrder (key : α → κ) (l ordered : List α) : Prop where
  perm : ordered.Perm l
  sorted : ordered.Pairwise fun x y => key x ≤ key y
  stable : ∀ c, (ordered.filter fun x => key x = c) = l.filter fun x => key x = c

theorem stableOrder_mergeSort (key : α → κ) (l : List α) :
    StableOrder key l (l.mergeSort fun x y => decide (key x ≤ key y)) := by
  have htrans : ∀ x y z : α, decide (key x ≤ key y) = true → decide (key y ≤ key z) = true →
      decide (key x ≤ key z) = true := by
    intro x y z hxy hyz
    exact decide_eq_true (le_trans (of_decide_eq_true hxy) (of_decide_eq_true hyz))
  have htotal : ∀ x y : α, (decide (key x ≤ key y) || decide (key y ≤ key x)) = true := by
    intro x y
    rw [Bool.or_eq_true, decide_eq_true_iff, decide_eq_true_iff]
    exact le_total _ _
  have hperm := List.mergeSort_perm l fun x y => decide (key x ≤ key y)
  refine ⟨hperm, ?_, fun c => ?_⟩
  · exact (List.pairwise_mergeSort htrans htotal l).imp of_decide_eq_true
  · -- elements with one key are a sorted sublist, which the sort keeps
    have hsame : (l.filter fun x => key x = c).Pairwise
        fun x y => decide (key x ≤ key y) = true := by
      refine List.pairwise_of_forall_mem_list fun x hx y hy => ?_
      have hx := of_decide_eq_true (List.mem_filter.mp hx).2
      have hy := of_decide_eq_true (List.mem_filter.mp hy).2
      exact decide_eq_true (le_of_eq (hx.trans hy.symm))
    have hsub := List.sublist_mergeSort htrans htotal hsame List.filter_sublist
    have hfilter := hsub.filter fun x => decide (key x = c)
    rw [List.filter_filter] at hfilter
    simp only [Bool.and_self] at hfilter
    exact (hfilter.eq_of_length (hperm.filter _).length_eq.symm).symm

end Stable

def cumulative (weights : List ℕ) (k : ℕ) : ℕ := (weights.take (k + 1)).sum

variable {weights : List ℕ} {t t' k k' : ℕ}

theorem cumulative_succ (hk : k + 1 < weights.length) :
    cumulative weights (k + 1) = cumulative weights k + weights[k + 1] := by
  rw [cumulative, cumulative, ← List.take_concat_get hk, List.concat_eq_append, List.sum_append,
    List.sum_singleton]

theorem cumulative_le_sum (weights : List ℕ) (k : ℕ) : cumulative weights k ≤ weights.sum := by
  have hsplit := congrArg List.sum (List.take_append_drop (k + 1) weights)
  rw [List.sum_append] at hsplit
  exact hsplit ▸ Nat.le_add_right _ _

structure Reaches (weights : List ℕ) (t k : ℕ) : Prop where
  lt : k < weights.length
  before : ∀ j < k, cumulative weights j < t
  reached : t ≤ cumulative weights k ∨ k + 1 = weights.length

theorem Reaches.mono (h : Reaches weights t k) (h' : Reaches weights t' k') (ht : t ≤ t') :
    k ≤ k' := by
  by_contra hlt
  have hbefore := h.before k' (Nat.lt_of_not_le hlt)
  have hk := h.lt
  rcases h'.reached with hreached | hlast <;> omega

end Support
