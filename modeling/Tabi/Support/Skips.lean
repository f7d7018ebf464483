import Mathlib.Data.List.Basic
import Mathlib.Order.Nat
import Mathlib.Tactic.Common

/-!
# Support — Skips

A loop that goes through positions, appends something for some of them and skips the others.
-/

namespace Support

variable {β : Type} {column own : ℕ → Option β} {n : ℕ}

def kept (column : ℕ → Option β) (n : ℕ) : List β := (List.range n).filterMap column

def Contiguous (column : ℕ → Option β) (n : ℕ) : Prop :=
  ∀ i j, i < j → j < n → column i = none → column j = none

theorem contiguous_iff {P : ℕ → Prop} (hP : ∀ i, (column i).isSome ↔ P i) :
    Contiguous column n ↔ ∀ i j, i < j → j < n → P j → P i := by
  have hnone : ∀ i, column i = none ↔ ¬ P i := by
    intro i
    rw [← hP, Option.not_isSome_iff_eq_none]
  simp only [Contiguous, hnone, not_imp_not]

theorem kept_succ (column : ℕ → Option β) (n : ℕ) :
    kept column (n + 1) = kept column n ++ (column n).toList := by
  rw [kept, List.range_succ, List.filterMap_append]
  cases h : column n with
  | none => simp [kept, h]
  | some v => simp [kept, h]

theorem length_kept_succ (column : ℕ → Option β) (n : ℕ) :
    (kept column (n + 1)).length = (kept column n).length + (column n).toList.length := by
  rw [kept_succ, List.length_append]

theorem length_kept_le (column : ℕ → Option β) (n : ℕ) : (kept column n).length ≤ n :=
  (List.length_filterMap_le _ _).trans_eq List.length_range

theorem length_kept_mono {m : ℕ} (h : m ≤ n) : (kept column m).length ≤ (kept column n).length := by
  induction h with
  | refl => exact Nat.le_refl _
  | step _ ih => exact ih.trans (length_kept_succ column _ ▸ Nat.le_add_right _ _)

theorem length_kept_full (h : ∀ i < n, (column i).isSome) : (kept column n).length = n := by
  induction n with
  | zero => rfl
  | succ n ih =>
    obtain ⟨v, hv⟩ := Option.isSome_iff_exists.mp (h n (Nat.lt_succ_self n))
    rw [length_kept_succ, ih fun i hi => h i (Nat.lt_succ_of_lt hi), hv]
    rfl

theorem length_kept_lt {k : ℕ} (hk : k < n) {v : β} (hv : column k = some v) :
    (kept column k).length < (kept column n).length := by
  have hsucc := length_kept_succ column k
  rw [hv] at hsucc
  have hmono : (kept column (k + 1)).length ≤ (kept column n).length := length_kept_mono hk
  exact Nat.lt_of_lt_of_le (hsucc ▸ Nat.lt_succ_self _) hmono

theorem Contiguous.getElem?_kept (h : Contiguous column n) {i : ℕ} (hi : i < n) :
    (kept column n)[i]? = column i := by
  induction n with
  | zero => cases hi
  | succ n ih =>
    have ih := fun hi => ih (fun i j hij hj => h i j hij (Nat.lt_succ_of_lt hj)) hi
    rw [kept_succ]
    cases hn : column n with
    | none =>
      rw [Option.toList_none, List.append_nil]
      rcases Nat.lt_succ_iff_lt_or_eq.mp hi with hlt | rfl
      · exact ih hlt
      · rw [hn]
        exact List.getElem?_eq_none (length_kept_le column i)
    | some v =>
      have hfull : (kept column n).length = n := by
        refine length_kept_full fun j hj => Option.isSome_iff_ne_none.mpr fun hnone => ?_
        rw [h j n hj (Nat.lt_succ_self n) hnone] at hn
        cases hn
      rcases Nat.lt_succ_iff_lt_or_eq.mp hi with hlt | rfl
      · rw [List.getElem?_append_left (hfull.symm ▸ hlt)]
        exact ih hlt
      · rw [List.getElem?_append_right (hfull.le), hfull, Nat.sub_self, hn]
        rfl

theorem kept_aligned_iff (hown : ∀ i v, own i = some v → column i = some v) :
    (∀ i v, (kept column n)[i]? = some v → own i = some v) ↔
      Contiguous column n ∧ ∀ i < n, (column i).isSome → (own i).isSome := by
  constructor
  · intro h
    have hfirst : ∀ i < (kept column n).length, ∃ v, own i = some v :=
      fun i hi => ⟨_, h i _ (List.getElem?_eq_getElem hi)⟩
    have hsome : ∀ i < (kept column n).length, (column i).isSome := by
      intro i hi
      obtain ⟨v, hv⟩ := hfirst i hi
      exact Option.isSome_iff_exists.mpr ⟨v, hown i v hv⟩
    -- the first positions fill the list, so that nothing is kept behind them
    have hfull := length_kept_full hsome
    have hlt : ∀ k < n, (column k).isSome → k < (kept column n).length := by
      intro k hk hkept
      obtain ⟨v, hv⟩ := Option.isSome_iff_exists.mp hkept
      by_contra hge
      have hle := @length_kept_mono _ column _ _ (Nat.le_of_not_lt hge)
      have := length_kept_lt hk hv
      omega
    refine ⟨fun i j hij hj hnone => ?_, fun i hi hkept => ?_⟩
    · refine Option.eq_none_iff_forall_ne_some.mpr fun v hv => ?_
      have hj' := hlt j hj (Option.isSome_iff_exists.mpr ⟨v, hv⟩)
      have hi' := hsome i (hij.trans hj')
      rw [hnone] at hi'
      cases hi'
    · exact Option.isSome_iff_exists.mpr (hfirst i (hlt i hi hkept))
  · rintro ⟨hcontig, hbelongs⟩ i v hv
    have hi : i < n := (List.getElem?_eq_some_iff.mp hv).1.trans_le (length_kept_le column n)
    rw [hcontig.getElem?_kept hi] at hv
    obtain ⟨w, hw⟩ := Option.isSome_iff_exists.mp
      (hbelongs i hi (Option.isSome_iff_exists.mpr ⟨v, hv⟩))
    rw [hw, ← hv, hown i w hw]

end Support
