import Mathlib.Algebra.BigOperators.Fin
import Mathlib.Order.Nat
import Tabi.Support.Trace

/-!
# Support — Rounds

When a run comes to its end.
-/

namespace Support

variable {σ ℓ : Type}

structure Progress (step : σ → ℓ → σ → Prop) (I : σ → Prop) (f : σ → Nat) (Helpful : ℓ → σ → Prop) :
    Prop where
  keep : ∀ {s b s'}, I s → step s b s' → I s'
  le : ∀ {s b s'}, I s → step s b s' → f s' ≤ f s
  exists_helpful : ∀ {s}, I s → 0 < f s → ∃ a, Helpful a s
  stay : ∀ {s a b s'}, I s → Helpful a s → b ≠ a → step s b s' → Helpful a s' ∨ f s' < f s
  act : ∀ {s a s'}, I s → Helpful a s → step s a s' → f s' < f s

namespace Progress

variable {step : σ → ℓ → σ → Prop} {I : σ → Prop} {f : σ → Nat} {Helpful : ℓ → σ → Prop} {s s' : σ}
  {τ : List ℓ}

theorem run (h : Progress step I f Helpful) (ht : Trace step s τ s') (hI : I s) :
    I s' ∧ f s' ≤ f s := by
  induction ht with
  | nil => exact ⟨hI, le_rfl⟩
  | snoc _ hs ih => exact ⟨h.keep ih.1 hs, (h.le ih.1 hs).trans ih.2⟩

theorem helpful_or_lt (h : Progress step I f Helpful) (ht : Trace step s τ s') (hI : I s) {a : ℓ}
    (ha : Helpful a s) (hτ : a ∉ τ) : Helpful a s' ∨ f s' < f s := by
  induction ht with
  | nil => exact .inl ha
  | @snoc τ s₁ s₂ b ht hs ih =>
    rw [List.mem_append, List.mem_singleton, not_or] at hτ
    obtain ⟨hI₁, hle⟩ := h.run ht hI
    rcases ih hτ.1 with hhelp | hlt
    · rcases h.stay hI₁ hhelp (Ne.symm hτ.2) hs with hstay | hlt
      · exact .inl hstay
      · exact .inr (hlt.trans_le hle)
    · exact .inr ((h.le hI₁ hs).trans_lt hlt)

theorem lt_of_mem (h : Progress step I f Helpful) (ht : Trace step s τ s') (hI : I s) {a : ℓ}
    (ha : Helpful a s) (hτ : a ∈ τ) : f s' < f s := by
  induction ht with
  | nil => exact absurd hτ List.not_mem_nil
  | @snoc τ s₁ s₂ b ht hs ih =>
    obtain ⟨hI₁, hle⟩ := h.run ht hI
    by_cases hmem : a ∈ τ
    · exact (h.le hI₁ hs).trans_lt (ih hmem)
    · rw [List.mem_append, List.mem_singleton, or_iff_right hmem] at hτ
      subst hτ
      rcases h.helpful_or_lt ht hI ha hmem with hhelp | hlt
      · exact (h.act hI₁ hhelp hs).trans_le hle
      · exact (h.le hI₁ hs).trans_lt hlt

theorem rounds (h : Progress step I f Helpful) {rounds : List (List ℓ)}
    (hr : ∀ ρ ∈ rounds, ∀ a s, Helpful a s → a ∈ ρ) (hI : I s)
    (ht : Trace step s rounds.flatten s') : f s' ≤ f s - rounds.length := by
  induction rounds generalizing s with
  | nil => exact (h.run ht hI).2
  | cons ρ rounds ih =>
    rw [List.flatten_cons] at ht
    obtain ⟨m, hρ, hrest⟩ := ht.middle
    obtain ⟨hIm, hle⟩ := h.run hρ hI
    have hm := ih (fun ρ' hρ' => hr ρ' (List.mem_cons_of_mem _ hρ')) hIm hrest
    have hlt : f m ≤ f s - 1 := by
      rcases Nat.eq_zero_or_pos (f s) with hzero | hpos
      · exact hle.trans (by rw [hzero])
      · obtain ⟨a, ha⟩ := h.exists_helpful hI hpos
        exact Nat.le_sub_one_of_lt (h.lt_of_mem hρ hI ha (hr ρ List.mem_cons_self a s ha))
    rw [List.length_cons]
    omega

end Progress

theorem sum_update {α : Type} {n : Nat} (f : α → Nat) (actors : Fin n → α) (w : Fin n) (a : α) :
    ∑ v, f (Function.update actors w a v) + f (actors w) = ∑ v, f (actors v) + f a := by
  rw [← Finset.sum_erase_add _ _ (Finset.mem_univ w), Function.update_self,
    ← Finset.sum_erase_add Finset.univ (fun v => f (actors v)) (Finset.mem_univ w)]
  have hrest : ∑ v ∈ Finset.univ.erase w, f (Function.update actors w a v) =
      ∑ v ∈ Finset.univ.erase w, f (actors v) := by
    refine Finset.sum_congr rfl fun v hv => ?_
    rw [Function.update_of_ne (Finset.ne_of_mem_erase hv)]
  rw [hrest]
  ac_rfl

end Support
