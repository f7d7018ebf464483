import Mathlib.Algebra.BigOperators.Group.Finset.Basic
import Mathlib.Algebra.BigOperators.Group.Finset.Piecewise
import Mathlib.Tactic.Abel

/-!
# Support — Transfer

An amount that moves from one account to another.
-/

namespace Support

variable {α M : Type} [AddCommGroup M]

structure Moves (f f' : α → M) (a b : α) (δ : M) : Prop where
  source : f' a = f a - δ
  target : f' b = f b + δ
  others : ∀ x, x ≠ a → x ≠ b → f' x = f x

namespace Moves

variable {f f' f'' g g' : α → M} {a b : α} {δ δ' ε : M}

theorem refl (f : α → M) (a b : α) : Moves f f a b 0 :=
  ⟨(sub_zero _).symm, (add_zero _).symm, fun _ _ _ => rfl⟩

theorem trans (h : Moves f f' a b δ) (h' : Moves f' f'' a b δ') :
    Moves f f'' a b (δ + δ') where
  source := by rw [h'.source, h.source, sub_sub]
  target := by rw [h'.target, h.target, add_assoc]
  others x ha hb := (h'.others x ha hb).trans (h.others x ha hb)

theorem map {N : Type} [AddCommGroup N] (φ : M →+ N) (h : Moves f f' a b δ) :
    Moves (fun x => φ (f x)) (fun x => φ (f' x)) a b (φ δ) where
  source := by rw [h.source, map_sub]
  target := by rw [h.target, map_add]
  others x ha hb := by rw [h.others x ha hb]

theorem add (h : Moves f f' a b δ) (h' : Moves g g' a b ε) :
    Moves (fun x => f x + g x) (fun x => f' x + g' x) a b (δ + ε) where
  source := by
    rw [h.source, h'.source]
    abel
  target := by
    rw [h.target, h'.target]
    abel
  others x ha hb := by rw [h.others x ha hb, h'.others x ha hb]

theorem sum_eq [DecidableEq α] (hne : a ≠ b) (h : Moves f f' a b δ) {s : Finset α} (ha : a ∈ s)
    (hb : b ∈ s) : ∑ x ∈ s, f' x = ∑ x ∈ s, f x := by
  have hb' : b ∈ s.erase a := Finset.mem_erase.mpr ⟨hne.symm, hb⟩
  have hrest : ∑ x ∈ (s.erase a).erase b, f' x = ∑ x ∈ (s.erase a).erase b, f x := by
    refine Finset.sum_congr rfl fun x hx => ?_
    obtain ⟨hxb, hx⟩ := Finset.mem_erase.mp hx
    exact h.others x (Finset.ne_of_mem_erase hx) hxb
  rw [← Finset.add_sum_erase s f' ha, ← Finset.add_sum_erase s f ha,
    ← Finset.add_sum_erase _ f' hb', ← Finset.add_sum_erase _ f hb', hrest, h.source, h.target]
  abel

end Moves

section Moved

variable [DecidableEq α]

def moved (f : α → M) (a b : α) (δ : M) : α → M :=
  fun x => f x - (if x = a then δ else 0) + if x = b then δ else 0

theorem moved_self (f : α → M) (a : α) (δ : M) : moved f a a δ = f := by
  funext x
  rw [moved, sub_add_cancel]

theorem moved_moved (f : α → M) (a b c : α) (δ : M) :
    moved (moved f a b δ) b c δ = moved f a c δ := by
  funext x
  rw [moved, moved, moved, add_sub_cancel_right]

end Moved

section Drain

variable [DecidableEq α]

def drain (c : α) (f : α → M) (a : α) : α → M :=
  fun x => f x - (if x = a then f a else 0) + if x = c then f a else 0

variable {c : α}

theorem drain_self (c : α) (f : α → M) : drain c f c = f := by
  funext x
  rw [drain]
  split <;> simp

theorem drain_other {x : α} (hx : x ≠ c) (f : α → M) (a : α) :
    drain c f a x = if x = a then 0 else f x := by
  rw [drain, if_neg hx, add_zero]
  split
  · rename_i e
    rw [e, sub_self]
  · rw [sub_zero]

theorem drain_target {a : α} (ha : a ≠ c) (f : α → M) : drain c f a c = f c + f a := by
  rw [drain, if_neg ha.symm, sub_zero, if_pos rfl]

theorem sum_drain {S : Finset α} {a : α} (ha : a ∈ S) (hc : c ∈ S) (f : α → M) :
    ∑ x ∈ S, drain c f a x = ∑ x ∈ S, f x := by
  simp only [drain, Finset.sum_add_distrib, Finset.sum_sub_distrib, Finset.sum_ite_eq', ha, hc,
    if_true, sub_add_cancel]

theorem foldl_drain (f : α → M) (as : List α) {x : α} (hx : x ≠ c) :
    as.foldl (drain c) f x = if x ∈ as then 0 else f x := by
  induction as generalizing f with
  | nil => simp
  | cons a as ih =>
    rw [List.foldl_cons, ih, drain_other hx]
    by_cases e : x = a
    · simp [e]
    · simp [e]

theorem foldl_drain_target (f : α → M) (as : List α) :
    as.foldl (drain c) f c = f c + ∑ a ∈ as.toFinset.erase c, f a := by
  induction as generalizing f with
  | nil => simp
  | cons a as ih =>
    rw [List.foldl_cons, ih, List.toFinset_cons]
    by_cases e : a = c
    · rw [e, drain_self, Finset.erase_insert_eq_erase]
    · -- the account is counted where it was met first, and not again
      have hagain : ∑ b ∈ as.toFinset.erase c, drain c f a b =
          ∑ b ∈ (as.toFinset.erase c).erase a, f b := by
        rw [← Finset.sum_erase _ (show drain c f a a = 0 by rw [drain_other e, if_pos rfl])]
        refine Finset.sum_congr rfl fun b hb => ?_
        obtain ⟨hba, hb⟩ := Finset.mem_erase.mp hb
        rw [drain_other (Finset.ne_of_mem_erase hb), if_neg hba]
      rw [drain_target e, hagain, Finset.erase_insert_of_ne e, add_assoc,
        ← Finset.erase_insert_eq_erase, Finset.add_sum_erase _ f (Finset.mem_insert_self a _)]

end Drain

end Support
