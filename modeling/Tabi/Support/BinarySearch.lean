import Mathlib.Data.List.Sort
import Mathlib.Order.Compare

/-!
# Support — binary search

The search of `sort.Find`: a window `[i, j)` is halved until it is empty, under a comparison of the
target with the element at an index.
-/

namespace Support.BinarySearch

def search (cmp : Nat → Ordering) : Nat → Nat → Nat → Nat
  | 0, i, _ => i
  | fuel + 1, i, j =>
    if i < j then
      let h := (i + j) / 2
      if cmp h = .gt then search cmp fuel (h + 1) j else search cmp fuel i h
    else i

def find (n : Nat) (cmp : Nat → Ordering) : Nat × Bool :=
  let i := search cmp n 0 n
  (i, decide (i < n) && cmp i == .eq)

def findBy {α : Type*} (l : List α) (cmp : α → Ordering) : Nat × Bool :=
  find l.length fun i => l[i]?.elim .lt cmp

section Search

variable {cmp : Nat → Ordering} {n : Nat}

theorem search_spec (hmono : ∀ a b, a ≤ b → b < n → cmp b = .gt → cmp a = .gt) {fuel i j : Nat}
    (hfuel : j - i ≤ fuel) (hij : i ≤ j) (hj : j ≤ n) (hbelow : ∀ a < i, cmp a = .gt)
    (habove : ∀ b, j ≤ b → b < n → cmp b ≠ .gt) :
    search cmp fuel i j ≤ n ∧ (∀ a < search cmp fuel i j, cmp a = .gt) ∧
      ∀ b, search cmp fuel i j ≤ b → b < n → cmp b ≠ .gt := by
  induction fuel generalizing i j with
  | zero =>
    obtain rfl : i = j := by omega
    exact ⟨hj, hbelow, habove⟩
  | succ fuel ih =>
    rw [search]
    by_cases hlt : i < j
    · rw [if_pos hlt]
      dsimp only
      by_cases hgt : cmp ((i + j) / 2) = .gt
      · rw [if_pos hgt]
        have hbelow' : ∀ a < (i + j) / 2 + 1, cmp a = .gt := fun a ha =>
          hmono a ((i + j) / 2) (by omega) (by omega) hgt
        exact ih (by omega) (by omega) hj hbelow' habove
      · rw [if_neg hgt]
        have habove' : ∀ b, (i + j) / 2 ≤ b → b < n → cmp b ≠ .gt := fun b hb hbn hbgt =>
          hgt (hmono ((i + j) / 2) b hb hbn hbgt)
        exact ih (by omega) (by omega) (by omega) hbelow habove'
    · rw [if_neg hlt]
      obtain rfl : i = j := by omega
      exact ⟨hj, hbelow, habove⟩

end Search

section Lists

variable {α κ : Type*} [LinearOrder κ] {key : α → κ} {l : List α} {x : κ}

theorem findBy_eq_true_iff (hl : l.Pairwise fun a b => key a < key b) {i : Nat} :
    findBy l (fun a => compare x (key a)) = (i, true) ↔ ∃ a, l[i]? = some a ∧ key a = x := by
  have hmono : ∀ a b, a ≤ b → b < l.length →
      l[b]?.elim .lt (fun y => compare x (key y)) = .gt →
      l[a]?.elim .lt (fun y => compare x (key y)) = .gt := by
    intro a b hab hb hgt
    have ha : a < l.length := by omega
    rw [List.getElem?_eq_getElem hb, Option.elim_some, compare_gt_iff_gt] at hgt
    rw [List.getElem?_eq_getElem ha, Option.elim_some, compare_gt_iff_gt]
    rcases Nat.lt_or_eq_of_le hab with h | rfl
    · exact (List.pairwise_iff_getElem.mp hl a b ha hb h).trans hgt
    · exact hgt
  have hfuel : l.length - 0 ≤ l.length := Nat.sub_le ..
  obtain ⟨-, hbelow, habove⟩ := search_spec hmono hfuel (Nat.zero_le _) le_rfl
    (fun a ha => absurd ha (Nat.not_lt_zero a)) (fun b hb hbn => absurd hbn (Nat.not_lt.mpr hb))
  unfold findBy find
  dsimp only
  generalize search _ l.length 0 l.length = r at hbelow habove ⊢
  rw [Prod.mk.injEq, Bool.and_eq_true, decide_eq_true_iff, beq_iff_eq]
  constructor
  · rintro ⟨rfl, hlt, heq⟩
    rw [List.getElem?_eq_getElem hlt, Option.elim_some, compare_eq_iff_eq] at heq
    exact ⟨_, List.getElem?_eq_getElem hlt, heq.symm⟩
  · rintro ⟨a, ha, hx⟩
    obtain ⟨hi, hget⟩ := List.getElem?_eq_some_iff.mp ha
    have hcmp : l[i]?.elim .lt (fun y => compare x (key y)) = .eq := by
      rw [ha, Option.elim_some, compare_eq_iff_eq, hx]
    -- the key's own index is neither below the boundary nor past it
    have hle : r ≤ i := by
      by_contra hlt
      rw [hbelow i (by omega)] at hcmp
      cases hcmp
    have hge : i ≤ r := by
      by_contra hlt
      have hr : r < l.length := by omega
      have hkey : key l[r] < x := by
        rw [← hx, ← hget]
        exact List.pairwise_iff_getElem.mp hl r i hr hi (by omega)
      refine habove r le_rfl hr ?_
      rw [List.getElem?_eq_getElem hr, Option.elim_some, compare_gt_iff_gt]
      exact hkey
    obtain rfl : r = i := le_antisymm hle hge
    exact ⟨rfl, hi, hcmp⟩

theorem findBy_found_iff (hl : l.Pairwise fun a b => key a < key b) :
    (findBy l fun a => compare x (key a)).2 = true ↔ ∃ a ∈ l, key a = x := by
  constructor
  · intro h
    obtain ⟨a, ha, hx⟩ := (findBy_eq_true_iff hl).mp (Prod.ext rfl h)
    exact ⟨a, List.mem_of_getElem? ha, hx⟩
  · rintro ⟨a, ha, hx⟩
    obtain ⟨i, hi⟩ := List.getElem?_of_mem ha
    rw [(findBy_eq_true_iff hl).mpr ⟨a, hi, hx⟩]

end Lists

end Support.BinarySearch
