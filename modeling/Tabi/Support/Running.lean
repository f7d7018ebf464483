import Mathlib.Data.List.Nodup
import Mathlib.Data.List.Perm.Basic
import Mathlib.Order.Lattice
import Mathlib.Tactic.Common

/-!
# Support — Running

A loop that goes through records by pointers, carries a total and writes it into each record, and
what it leaves.
-/

namespace Support

section Running

variable {ρ σ : Type} (add : σ → ρ → σ) (put : ρ → σ → ρ)

def running : σ → List ℕ → (ℕ → ρ) → ℕ → ρ
  | _, [], records => records
  | s, p :: ps, records =>
    running (add s (records p)) ps
      (Function.update records p (put (records p) (add s (records p))))

variable {add put}

theorem running_of_not_mem {s : σ} {ps : List ℕ} {records : ℕ → ρ} {q : ℕ} (hq : q ∉ ps) :
    running add put s ps records q = records q := by
  induction ps generalizing s records with
  | nil => rfl
  | cons p ps ih =>
    obtain ⟨hne, hq⟩ := not_or.mp fun h => hq (List.mem_cons.mpr h)
    rw [running, ih hq, Function.update_of_ne hne]

theorem running_of_append {s : σ} {before after : List ℕ} {q : ℕ} {records : ℕ → ρ}
    (hnodup : (before ++ q :: after).Nodup) :
    running add put s (before ++ q :: after) records q =
      put (records q) ((before ++ [q]).foldl (fun s p => add s (records p)) s) := by
  induction before generalizing s records with
  | nil =>
    rw [List.nil_append, running, running_of_not_mem (List.nodup_cons.mp hnodup).1,
      Function.update_self]
    rfl
  | cons p before ih =>
    rw [List.cons_append] at hnodup
    obtain ⟨hp, hnodup⟩ := List.nodup_cons.mp hnodup
    have hother : ∀ q' ∈ before ++ [q], Function.update records p
        (put (records p) (add s (records p))) q' = records q' := by
      intro q' hq'
      refine Function.update_of_ne (fun h => hp ?_) ..
      rw [← h, List.append_cons]
      exact List.mem_append_left _ hq'
    rw [List.cons_append, running, ih hnodup, hother q (by simp), List.cons_append,
      List.foldl_cons]
    refine congrArg _ (List.foldl_ext _ _ _ fun s' q' hq' => ?_)
    rw [hother q' hq']

end Running

section Sorted

variable {α κ : Type} [LinearOrder κ] (key : α → κ)

theorem filter_le_of_sorted {before after : List α} {a : α}
    (h : (before ++ a :: after).Pairwise fun x y => key x < key y) :
    (before ++ a :: after).filter (fun x => key x ≤ key a) = before ++ [a] := by
  obtain ⟨-, hafter, hbefore⟩ := List.pairwise_append.mp h
  have hbefore : ∀ x ∈ before, decide (key x ≤ key a) = true := fun x hx =>
    decide_eq_true (le_of_lt (hbefore x hx a List.mem_cons_self))
  have hafter : ∀ x ∈ after, ¬ decide (key x ≤ key a) = true := fun x hx => by
    rw [decide_eq_true_iff, not_le]
    exact List.rel_of_pairwise_cons hafter hx
  rw [List.filter_append, List.filter_eq_self.mpr hbefore,
    List.filter_cons_of_pos (by exact decide_eq_true le_rfl), List.filter_eq_nil_iff.mpr hafter]

end Sorted

section Grouped

variable {α κ : Type} [DecidableEq κ]

def grouped (key : α → κ) (xs : List α) : κ → List α :=
  xs.foldl (fun m x => Function.update m (key x) (m (key x) ++ [x])) fun _ => []

theorem grouped_eq (key : α → κ) (xs : List α) (k : κ) :
    grouped key xs k = xs.filter fun x => key x = k := by
  have hfrom : ∀ m : κ → List α,
      xs.foldl (fun m x => Function.update m (key x) (m (key x) ++ [x])) m k =
        m k ++ xs.filter fun x => key x = k := by
    induction xs with
    | nil =>
      intro m
      rw [List.filter_nil, List.append_nil]
      rfl
    | cons x xs ih =>
      intro m
      rw [List.foldl_cons, ih]
      by_cases e : key x = k
      · rw [List.filter_cons_of_pos (by exact decide_eq_true e), e, Function.update_self,
          List.append_assoc]
        rfl
      · rw [List.filter_cons_of_neg (by rw [decide_eq_true_iff]; exact e),
          Function.update_of_ne (Ne.symm e)]
  exact hfrom _

end Grouped

theorem foldl_of_frame {κ ρ : Type} {key : ℕ → κ} {step : (ℕ → ρ) → κ → ℕ → ρ}
    (hframe : ∀ records k q, key q ≠ k → step records k q = records q) {ks : List κ}
    (hks : ks.Nodup) {k : κ} (hk : k ∈ ks) (records : ℕ → ρ) :
    ∃ records', (∀ q, key q = k → records' q = records q) ∧
      ∀ q, key q = k → ks.foldl step records q = step records' k q := by
  have hother : ∀ {ks : List κ} (_ : k ∉ ks) (records : ℕ → ρ) (q : ℕ), key q = k →
      ks.foldl step records q = records q := by
    intro ks
    induction ks with
    | nil => exact fun _ _ _ _ => rfl
    | cons k' ks ih =>
      intro hk records q hq
      obtain ⟨hne, hk⟩ := not_or.mp fun h => hk (List.mem_cons.mpr h)
      rw [List.foldl_cons, ih hk _ q hq, hframe _ _ _ (hq ▸ hne)]
  obtain ⟨before, after, rfl⟩ := List.append_of_mem hk
  obtain ⟨-, hafter, hdisjoint⟩ := List.nodup_append.mp hks
  have hbefore : k ∉ before := fun h => hdisjoint k h k List.mem_cons_self rfl
  refine ⟨before.foldl step records, hother hbefore records, fun q hq => ?_⟩
  rw [List.foldl_append, List.foldl_cons, hother (List.nodup_cons.mp hafter).1 _ q hq]

end Support
