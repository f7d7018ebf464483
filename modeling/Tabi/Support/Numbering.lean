import Mathlib.Algebra.GroupWithZero.Nat
import Mathlib.Tactic.Common

/-!
# Support — Numbering

Lists whose elements carry their position: the label of the `i`-th element is the `i`-th label.
-/

namespace Support

variable {α β κ : Type}

def Numbered (label : α → κ) (at_ : Nat → κ) (xs : List α) : Prop :=
  ∀ i x, xs[i]? = some x → label x = at_ i

namespace Numbered

variable {label : α → κ} {at_ : Nat → κ} {xs : List α}

theorem nil : Numbered label at_ [] := nofun

theorem concat (h : Numbered label at_ xs) {x : α} (hx : label x = at_ xs.length) :
    Numbered label at_ (xs ++ [x]) := by
  intro i y hy
  rcases Nat.lt_or_ge i xs.length with hi | hi
  · rw [List.getElem?_append_left hi] at hy
    exact h i y hy
  · rw [List.getElem?_append_right hi, List.getElem?_singleton] at hy
    split at hy
    · rename_i hzero
      cases hy
      rw [hx, Nat.le_antisymm hi (Nat.le_of_sub_eq_zero hzero)]
    · cases hy

theorem foldl (f : List α → β → α) (hf : ∀ xs b, label (f xs b) = at_ xs.length) (bs : List β)
    (h : Numbered label at_ xs) :
    Numbered label at_ (bs.foldl (fun xs b => xs ++ [f xs b]) xs) := by
  induction bs generalizing xs with
  | nil => exact h
  | cons b bs ih => exact ih (h.concat (hf xs b))

theorem map {κ' : Type} {label' : β → κ'} {at' : Nat → κ'} (f : α → β)
    (hf : ∀ x i, label x = at_ i → label' (f x) = at' i) (h : Numbered label at_ xs) :
    Numbered label' at' (xs.map f) := by
  intro i y hy
  rw [List.getElem?_map] at hy
  obtain ⟨x, hx, rfl⟩ := Option.map_eq_some_iff.mp hy
  exact hf x i (h i x hx)

theorem map_iff {label' : β → κ} (f : α → β) :
    Numbered label' at_ (xs.map f) ↔ Numbered (fun x => label' (f x)) at_ xs := by
  constructor
  · intro h i x hx
    exact h i (f x) (by rw [List.getElem?_map, hx, Option.map_some])
  · exact fun h => h.map f fun _ _ e => e

theorem append_iff {ys : List α} : Numbered label at_ (xs ++ ys) ↔
    Numbered label at_ xs ∧ Numbered label (fun i => at_ (xs.length + i)) ys := by
  constructor
  · intro h
    refine ⟨fun i x hx => h i x ?_, fun i y hy => h (xs.length + i) y ?_⟩
    · rw [List.getElem?_append_left (List.getElem?_eq_some_iff.mp hx).1, hx]
    · rw [List.getElem?_append_right (Nat.le_add_right _ _), Nat.add_sub_cancel_left, hy]
  · rintro ⟨hx, hy⟩ i x hi
    rcases Nat.lt_or_ge i xs.length with hlt | hge
    · rw [List.getElem?_append_left hlt] at hi
      exact hx i x hi
    · rw [List.getElem?_append_right hge] at hi
      exact (hy _ x hi).trans (congrArg at_ (Nat.add_sub_cancel' hge))

theorem flatMap_iff (f : β → List α) (bs : List β) : Numbered label at_ (bs.flatMap f) ↔
    ∀ (k : Nat) b, bs[k]? = some b →
      Numbered label (fun i => at_ (((bs.take k).map fun b => (f b).length).sum + i)) (f b) := by
  induction bs generalizing at_ with
  | nil =>
    constructor
    · intro _ k b hb
      cases hb
    · intro _ i x hx
      cases hx
  | cons b bs ih =>
    rw [List.flatMap_cons, append_iff, ih]
    constructor
    · rintro ⟨hfirst, hrest⟩ k b' hb'
      cases k with
      | zero =>
        cases hb'
        simpa using hfirst
      | succ k => simpa [Nat.add_assoc] using hrest k b' hb'
    · intro h
      refine ⟨by simpa using h 0 b rfl, fun k b' hb' => ?_⟩
      simpa [Nat.add_assoc] using h (k + 1) b' hb'

theorem zipIdx {f : α × Nat → β} {label' : β → κ} (hf : ∀ x i, label' (f (x, i)) = at_ i)
    (xs : List α) : Numbered label' at_ (xs.zipIdx.map f) := by
  intro i y hy
  rw [List.getElem?_map, List.getElem?_zipIdx] at hy
  obtain ⟨_, hp, rfl⟩ := Option.map_eq_some_iff.mp hy
  obtain ⟨x, -, rfl⟩ := Option.map_eq_some_iff.mp hp
  rw [hf, Nat.zero_add]

end Numbered

end Support
