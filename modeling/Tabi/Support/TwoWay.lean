import Tabi.Support.Outcome
import Mathlib.Data.List.Induction

/-!
# Support — TwoWay

A table of values and an index back from the values.
-/

namespace Support.TwoWay

variable {κ ν ι ρ : Type}

def Consistent (name : ρ → ν) (table : κ → ι → Option ρ) (index : ν → ι → Option κ) : Prop :=
  ∀ t x v, index t v = some x ↔ ∃ p, table x v = some p ∧ name p = t

structure Write (name : ρ → ν) (table table' : κ → ι → Option ρ) (index index' : ν → ι → Option κ)
    (x : κ) (t : ν) (v : ι) (r : Option ρ) : Prop where
  table_self : table' x v = r
  table_other : ∀ y w, ¬ (y = x ∧ w = v) → table' y w = table y w
  index_self : index' t v = r.map fun _ => x
  index_other : ∀ u w, ¬ (u = t ∧ w = v) → index' u w = index u w
  named : ∀ p, r = some p → name p = t

structure Paired (name : ρ → ν) (table : κ → ι → Option ρ) (index : ν → ι → Option κ) (x : κ)
    (t : ν) (v : ι) : Prop where
  value : ∀ p, table x v = some p → name p = t
  key : ∀ y, index t v = some y → y = x

variable {name : ρ → ν} {table table' : κ → ι → Option ρ} {index index' : ν → ι → Option κ} {x : κ}
  {t : ν} {v : ι} {r : Option ρ}

theorem consistent_write_iff (h : Consistent name table index)
    (hw : Write name table table' index index' x t v r) :
    Consistent name table' index' ↔ Paired name table index x t v := by
  constructor
  · intro h'
    refine ⟨fun p hp => ?_, fun y hy => ?_⟩
    · -- the index entry of another value would stay behind
      by_contra hne
      have hindex : index' (name p) v = some x := by
        rw [hw.index_other _ _ fun e => hne e.1]
        exact (h _ _ _).mpr ⟨p, hp, rfl⟩
      obtain ⟨q, hq, hname⟩ := (h' _ _ _).mp hindex
      rw [hw.table_self] at hq
      exact hne (hname.symm.trans (hw.named q hq))
    · -- the value of another key would lose its index entry
      by_contra hne
      obtain ⟨p, hp, hname⟩ := (h _ _ _).mp hy
      have hindex : index' t v = some y := by
        refine (h' _ _ _).mpr ⟨p, ?_, hname⟩
        rw [hw.table_other _ _ fun e => hne e.1, hp]
      rw [hw.index_self] at hindex
      obtain ⟨_, -, he⟩ := Option.map_eq_some_iff.mp hindex
      exact hne he.symm
  · intro hp u y w
    by_cases hu : u = t ∧ w = v
    · obtain ⟨rfl, rfl⟩ := hu
      rw [hw.index_self]
      by_cases hy : y = x
      · subst hy
        rw [hw.table_self]
        cases r with
        | none => exact ⟨nofun, nofun⟩
        | some p => exact ⟨fun _ => ⟨p, rfl, hw.named p rfl⟩, fun _ => rfl⟩
      · rw [hw.table_other _ _ fun e => hy e.1]
        constructor
        · intro he
          obtain ⟨_, -, he⟩ := Option.map_eq_some_iff.mp he
          exact absurd he.symm hy
        · intro hex
          exact absurd (hp.key y ((h _ _ _).mpr hex)) hy
    · rw [hw.index_other _ _ hu]
      by_cases hy : y = x ∧ w = v
      · obtain ⟨rfl, rfl⟩ := hy
        rw [hw.table_self, h]
        constructor
        · rintro ⟨p, hp', hname⟩
          exact absurd ⟨hname.symm.trans (hp.value p hp'), rfl⟩ hu
        · rintro ⟨p, hr, hname⟩
          exact absurd ⟨hname.symm.trans (hw.named p hr), rfl⟩ hu
      · rw [hw.table_other _ _ hy]
        exact h u y w

section Along

variable {σ α : Type} {step : σ → α → Outcome σ} {Inv : σ → Prop} {Good : σ → α → Prop} {s₀ : σ}

theorem along_iff {run : List α} (h₀ : Inv s₀)
    (hstep : ∀ s, ∀ a ∈ run, ∀ s', Inv s → step s a = .ok s' → (Inv s' ↔ Good s a)) :
    (∀ taken s, taken <+: run → taken.foldlM step s₀ = .ok s → Inv s) ↔
      ∀ taken a s s', taken ++ [a] <+: run → taken.foldlM step s₀ = .ok s → step s a = .ok s' →
        Good s a := by
  have hsnoc : ∀ taken a s', (taken ++ [a]).foldlM step s₀ = .ok s' ↔
      ∃ s, taken.foldlM step s₀ = .ok s ∧ step s a = .ok s' := by
    intro taken a s'
    rw [List.foldlM_append, bind_eq_ok]
    simp only [List.foldlM_cons, List.foldlM_nil, bind_pure]
  constructor
  · intro h taken a s s' hpre hs hs'
    have hInv := h taken s ((List.prefix_append taken [a]).trans hpre) hs
    have hmem : a ∈ run := hpre.subset (List.mem_append_right taken List.mem_cons_self)
    exact (hstep s a hmem s' hInv hs').mp (h _ s' hpre ((hsnoc taken a s').mpr ⟨s, hs, hs'⟩))
  · intro h taken
    induction taken using List.reverseRecOn with
    | nil =>
      intro s _ hs
      cases hs
      exact h₀
    | append_singleton taken a ih =>
      intro s' hpre hs'
      obtain ⟨s, hs, hstep'⟩ := (hsnoc taken a s').mp hs'
      have hInv := ih s ((List.prefix_append taken [a]).trans hpre) hs
      have hmem : a ∈ run := hpre.subset (List.mem_append_right taken List.mem_cons_self)
      exact (hstep s a hmem s' hInv hstep').mpr (h taken a s s' hpre hs hstep')

end Along

end Support.TwoWay
