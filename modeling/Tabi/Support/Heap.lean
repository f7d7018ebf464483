import Mathlib.Data.List.Basic
import Mathlib.Tactic.Common

/-!
# Support — Heap

A binary heap in an array, for an order given by a test `less`: the children of position `i` stand
at `2 * i + 1` and `2 * i + 2`, and none is less than its parent.
-/

namespace Support

structure StrictWeak {α : Type} (less : α → α → Bool) : Prop where
  asymm : ∀ x y, less x y = true → less y x = false
  trans : ∀ x y z, less y x = false → less z y = false → less z x = false

namespace Heap

variable {α : Type} (less : α → α → Bool)

def lessAt (h : Array α) (i j : Nat) : Bool :=
  match h[i]?, h[j]? with
  | some x, some y => less x y
  | _, _ => false

def parent (j : Nat) : Nat := (j - 1) / 2

def up (h : Array α) (j : Nat) : Array α :=
  if parent j = j then h
  else if lessAt less h j (parent j) then up (h.swapIfInBounds (parent j) j) (parent j)
  else h
termination_by j
decreasing_by
  rename_i hne _
  unfold parent at hne ⊢
  omega

def child (h : Array α) (n i : Nat) : Nat :=
  if 2 * i + 2 < n ∧ lessAt less h (2 * i + 2) (2 * i + 1) = true then 2 * i + 2 else 2 * i + 1

theorem child_cases (h : Array α) (n i : Nat) :
    child less h n i = 2 * i + 1 ∨ child less h n i = 2 * i + 2 ∧ 2 * i + 2 < n := by
  unfold child
  split
  · rename_i hright
    exact .inr ⟨rfl, hright.1⟩
  · exact .inl rfl

def down (h : Array α) (n i : Nat) : Array α :=
  if n ≤ 2 * i + 1 then h
  else if lessAt less h (child less h n i) i then
    down (h.swapIfInBounds i (child less h n i)) n (child less h n i)
  else h
termination_by n - i
decreasing_by
  rename_i hn _
  rcases child_cases less h n i with e | ⟨e, -⟩ <;> omega

def push (h : Array α) (x : α) : Array α := up less (h.push x) h.size

def pop (h : Array α) : Option (α × Array α) :=
  let n := h.size - 1
  let h := down less (h.swapIfInBounds 0 n) n 0
  h.back?.map fun x => (x, h.pop)

def LeAt (h : Array α) (i j : Nat) : Prop := ∀ x ∈ h[i]?, ∀ y ∈ h[j]?, less y x = false

def Ordered (h : Array α) (n : Nat) : Prop := ∀ k, 0 < k → k < n → LeAt less h (parent k) k

variable {less} {h : Array α} {i j k n : Nat}

theorem parent_lt (hj : 0 < j) : parent j < j := by
  unfold parent
  omega

theorem parent_le (j : Nat) : parent j ≤ j := by
  unfold parent
  omega

theorem parent_child : parent (child less h n i) = i := by
  unfold parent
  rcases child_cases less h n i with e | ⟨e, -⟩ <;> omega

theorem child_lt (hn : 2 * i + 1 < n) : child less h n i < n := by
  rcases child_cases less h n i with e | ⟨e, hlt⟩ <;> omega

theorem lt_child : i < child less h n i := by
  rcases child_cases less h n i with e | ⟨e, -⟩ <;> omega

theorem eq_of_parent (hk : 0 < k) (e : parent k = i) : k = 2 * i + 1 ∨ k = 2 * i + 2 := by
  unfold parent at e
  omega

theorem leAt_self (hless : StrictWeak less) : LeAt less h i i := by
  intro x hx y hy
  cases Option.some.inj (hx.symm.trans hy)
  cases e : less x x with
  | false => rfl
  | true => exact e.symm.trans (hless.asymm x x e)

theorem LeAt.trans (hless : StrictWeak less) (hk : k < h.size) (h₁ : LeAt less h i k)
    (h₂ : LeAt less h k j) : LeAt less h i j := by
  intro x hx y hy
  have hz : h[k]? = some h[k] := Array.getElem?_eq_getElem hk
  exact hless.trans x h[k] y (h₁ x hx _ hz) (h₂ _ hz y hy)

theorem leAt_of_lessAt (hless : StrictWeak less) (hlt : lessAt less h i j = true) :
    LeAt less h i j := by
  intro x hx y hy
  rw [lessAt, Option.mem_def.mp hx, Option.mem_def.mp hy] at hlt
  exact hless.asymm x y hlt

theorem leAt_of_not_lessAt (hlt : ¬ lessAt less h i j = true) : LeAt less h j i := by
  intro x hx y hy
  rw [lessAt, Option.mem_def.mp hx, Option.mem_def.mp hy] at hlt
  exact Bool.eq_false_iff.mpr hlt

def swapped (i j k : Nat) : Nat := if k = i then j else if k = j then i else k

@[simp] theorem swapped_left : swapped i j i = j := if_pos rfl

@[simp] theorem swapped_right : swapped i j j = i := by
  unfold swapped
  split
  · rename_i e
    exact e
  · exact if_pos rfl

theorem swapped_of_ne (hi : k ≠ i) (hj : k ≠ j) : swapped i j k = k := by
  rw [swapped, if_neg hi, if_neg hj]

theorem swap_perm : (h.swapIfInBounds i j).toList.Perm h.toList := by
  unfold Array.swapIfInBounds
  split
  · split
    · exact Array.perm_iff_toList_perm.mp (Array.swap_perm _ _)
    · exact .refl _
  · exact .refl _

@[simp] theorem size_swap : (h.swapIfInBounds i j).size = h.size := Array.size_swapIfInBounds

theorem getElem?_swap (hi : i < h.size) (hj : j < h.size) :
    (h.swapIfInBounds i j)[k]? = h[swapped i j k]? := by
  rw [Array.swapIfInBounds, dif_pos hi, dif_pos hj, Array.getElem?_swap]
  unfold swapped
  by_cases ei : k = i
  · rw [if_pos ei, Array.getElem?_eq_getElem hj]
    by_cases ej : j = k
    · simp [← ej, ei.symm.trans ej.symm]
    · rw [if_neg ej, if_pos ei.symm]
  · by_cases ej : k = j
    · rw [if_neg ei, if_pos ej, if_pos ej.symm, Array.getElem?_eq_getElem hi]
    · rw [if_neg ei, if_neg ej, if_neg (Ne.symm ej), if_neg (Ne.symm ei)]

theorem leAt_swap (hi : i < h.size) (hj : j < h.size) {a b : Nat} :
    LeAt less (h.swapIfInBounds i j) a b ↔ LeAt less h (swapped i j a) (swapped i j b) := by
  unfold LeAt
  rw [getElem?_swap hi hj, getElem?_swap hi hj]

theorem up_perm (h : Array α) (j : Nat) : (up less h j).toList.Perm h.toList := by
  fun_induction up less h j with
  | case1 h j e => exact .refl _
  | case2 h j e hlt ih => exact ih.trans swap_perm
  | case3 h j e hlt => exact .refl _

structure Rising (less : α → α → Bool) (h : Array α) (j : Nat) : Prop where
  lt : j < h.size
  others : ∀ k, 0 < k → k < h.size → k ≠ j → LeAt less h (parent k) k
  below : ∀ k, 0 < k → k < h.size → parent k = j → 0 < j → LeAt less h (parent j) k

theorem Rising.step (hless : StrictWeak less) (r : Rising less h j) (hj : 0 < j)
    (hlt : lessAt less h j (parent j) = true) :
    Rising less (h.swapIfInBounds (parent j) j) (parent j) := by
  have hp : parent j < j := parent_lt hj
  have hsize : parent j < h.size := Nat.lt_trans hp r.lt
  have hle : LeAt less h j (parent j) := leAt_of_lessAt hless hlt
  refine ⟨by rw [size_swap]; exact hsize, ?_, ?_⟩
  · intro k hk hksize hne
    rw [size_swap] at hksize
    rw [leAt_swap hsize r.lt]
    by_cases e : k = j
    · rw [e, swapped_left, swapped_right]
      exact hle
    · rw [swapped_of_ne hne e]
      by_cases ej : parent k = j
      · rw [ej, swapped_right]
        exact r.below k hk hksize ej hj
      · by_cases ei : parent k = parent j
        · rw [ei, swapped_left]
          exact hle.trans hless hsize (ei ▸ r.others k hk hksize e)
        · rw [swapped_of_ne ei ej]
          exact r.others k hk hksize e
  · intro k hk hksize ek hpos
    rw [size_swap] at hksize
    rw [leAt_swap hsize r.lt]
    have habove := parent_lt hpos
    rw [swapped_of_ne (k := parent (parent j)) (by omega) (by omega)]
    have hup : LeAt less h (parent (parent j)) (parent j) :=
      r.others _ hpos hsize (Nat.ne_of_lt hp)
    by_cases e : k = j
    · rw [e, swapped_right]
      exact hup
    · have hki : k ≠ parent j := by
        have := parent_lt hk
        omega
      rw [swapped_of_ne hki e]
      exact hup.trans hless hsize (ek ▸ r.others k hk hksize e)

theorem up_ordered (hless : StrictWeak less) (r : Rising less h j) :
    Ordered less (up less h j) h.size := by
  fun_induction up less h j with
  | case1 h j e =>
    intro k hk hksize
    refine r.others k hk hksize ?_
    unfold parent at e
    omega
  | case2 h j e hlt ih =>
    have hj : 0 < j := by
      unfold parent at e
      omega
    have hup := ih (r.step hless hj hlt)
    rwa [size_swap] at hup
  | case3 h j e hlt =>
    intro k hk hksize
    by_cases ej : k = j
    · rw [ej]
      exact leAt_of_not_lessAt hlt
    · exact r.others k hk hksize ej

theorem down_perm (h : Array α) (n i : Nat) : (down less h n i).toList.Perm h.toList := by
  fun_induction down less h n i with
  | case1 h i hn => exact .refl _
  | case2 h i hn hlt ih => exact ih.trans swap_perm
  | case3 h i hn hlt => exact .refl _

structure Sinking (less : α → α → Bool) (h : Array α) (n i : Nat) : Prop where
  le : n ≤ h.size
  others : ∀ k, 0 < k → k < n → parent k ≠ i → LeAt less h (parent k) k
  below : ∀ k, 0 < k → k < n → parent k = i → 0 < i → LeAt less h (parent i) k

theorem child_le (hless : StrictWeak less) (hk : 0 < k) (hkn : k < n) (e : parent k = i) :
    LeAt less h (child less h n i) k := by
  unfold child
  split
  · rename_i hright
    rcases eq_of_parent hk e with rfl | rfl
    · exact leAt_of_lessAt hless hright.2
    · exact leAt_self hless
  · rename_i hright
    rcases eq_of_parent hk e with rfl | rfl
    · exact leAt_self hless
    · exact leAt_of_not_lessAt fun hlt => hright ⟨hkn, hlt⟩

theorem Sinking.step (hless : StrictWeak less) (s : Sinking less h n i) (hn : 2 * i + 1 < n)
    (hlt : lessAt less h (child less h n i) i = true) :
    Sinking less (h.swapIfInBounds i (child less h n i)) n (child less h n i) := by
  have hc : child less h n i < n := child_lt hn
  have hic : i < child less h n i := lt_child
  have hpc : parent (child less h n i) = i := parent_child
  have hleast : ∀ k, 0 < k → k < n → parent k = i → LeAt less h (child less h n i) k :=
    fun k hk hkn e => child_le hless hk hkn e
  have hle : LeAt less h (child less h n i) i := leAt_of_lessAt hless hlt
  generalize child less h n i = c at *
  have hcsize : c < h.size := Nat.lt_of_lt_of_le hc s.le
  have hisize : i < h.size := Nat.lt_trans hic hcsize
  refine ⟨by rw [size_swap]; exact s.le, ?_, ?_⟩
  · intro k hk hkn hne
    rw [leAt_swap hisize hcsize]
    have hpk := parent_lt hk
    by_cases ei : parent k = i
    · rw [ei, swapped_left]
      by_cases ec : k = c
      · rw [ec, swapped_right]
        exact hle
      · rw [swapped_of_ne (by omega) ec]
        exact hleast k hk hkn ei
    · rw [swapped_of_ne ei hne]
      by_cases e : k = i
      · rw [e, swapped_left]
        exact s.below c (by omega) hc hpc (e ▸ hk)
      · have hkc : k ≠ c := fun ec => ei (ec ▸ hpc)
        rw [swapped_of_ne e hkc]
        exact s.others k hk hkn ei
  · intro k hk hkn ek _
    have hpk := parent_lt hk
    rw [leAt_swap hisize hcsize, hpc, swapped_left, swapped_of_ne (by omega) (by omega), ← ek]
    exact s.others k hk hkn (by omega)

theorem down_ordered (hless : StrictWeak less) (s : Sinking less h n i) :
    Ordered less (down less h n i) n := by
  fun_induction down less h n i with
  | case1 h i hn =>
    intro k hk hkn
    refine s.others k hk hkn ?_
    unfold parent
    omega
  | case2 h i hn hlt ih => exact ih (s.step hless (by omega) hlt)
  | case3 h i hn hlt =>
    intro k hk hkn
    by_cases e : parent k = i
    · have hc : child less h n i < h.size := Nat.lt_of_lt_of_le (child_lt (by omega)) s.le
      rw [e]
      exact (leAt_of_not_lessAt hlt).trans hless hc (child_le hless hk hkn e)
    · exact s.others k hk hkn e

theorem getElem?_down (hn : n ≤ h.size) (hk : n ≤ k) : (down less h n i)[k]? = h[k]? := by
  fun_induction down less h n i with
  | case1 h i _ => rfl
  | case2 h i hi hlt ih =>
    have hc : child less h n i < n := child_lt (by omega)
    have hic : i < child less h n i := lt_child
    rw [ih (by rw [size_swap]; exact hn), getElem?_swap (by omega) (by omega),
      swapped_of_ne (by omega) (by omega)]
  | case3 h i _ _ => rfl

theorem Ordered.root (hless : StrictWeak less) (ho : Ordered less h h.size) (k : Nat)
    (hk : k < h.size) : LeAt less h 0 k := by
  induction k using Nat.strongRecOn with
  | ind k ih =>
    rcases Nat.eq_zero_or_pos k with rfl | hpos
    · exact leAt_self hless
    · have hp := parent_lt hpos
      exact (ih _ hp (by omega)).trans hless (by omega) (ho k hpos hk)

theorem push_perm (h : Array α) (x : α) : (push less h x).toList.Perm (x :: h.toList) := by
  refine (up_perm _ _).trans ?_
  rw [Array.toList_push]
  exact List.perm_append_singleton x h.toList

theorem size_push (h : Array α) (x : α) : (push less h x).size = h.size + 1 := by
  simpa using (@push_perm _ less h x).length_eq

theorem push_ordered (hless : StrictWeak less) (ho : Ordered less h h.size) (x : α) :
    Ordered less (push less h x) (push less h x).size := by
  have hr : Rising less (h.push x) h.size := by
    refine ⟨by simp, ?_, ?_⟩
    · intro k hk hksize hne
      have hlt : k < h.size := by
        rw [Array.size_push] at hksize
        omega
      have hp := parent_lt hk
      have := ho k hk hlt
      unfold LeAt at this ⊢
      rwa [Array.getElem?_push, Array.getElem?_push, if_neg (by omega), if_neg hne]
    · intro k hk hksize e _
      have hp := parent_lt hk
      rw [Array.size_push] at hksize
      omega
  rw [size_push, ← Array.size_push x]
  exact up_ordered hless hr

theorem Ordered.pop (ho : Ordered less h (h.size - 1)) : Ordered less h.pop h.pop.size := by
  intro k hk hksize
  rw [Array.size_pop] at hksize
  have hp := parent_lt hk
  have := ho k hk hksize
  unfold LeAt at this ⊢
  rwa [Array.getElem?_pop, Array.getElem?_pop, if_pos (by omega), if_pos hksize]

theorem Ordered.sinking (ho : Ordered less h h.size) (hne : 0 < h.size) :
    Sinking less (h.swapIfInBounds 0 (h.size - 1)) (h.size - 1) 0 := by
  refine ⟨by rw [size_swap]; omega, ?_, fun _ _ _ _ h0 => absurd h0 (Nat.lt_irrefl 0)⟩
  intro k hk hkn hp
  have := parent_le k
  rw [leAt_swap hne (by omega), swapped_of_ne hp (by omega), swapped_of_ne (by omega) (by omega)]
  exact ho k hk (by omega)

theorem cons_pop_perm {x : α} (hback : h.back? = some x) : (x :: h.pop.toList).Perm h.toList := by
  rw [← Array.getLast?_toList] at hback
  obtain ⟨l, hl⟩ := List.getLast?_eq_some_iff.mp hback
  rw [Array.toList_pop, hl, List.dropLast_concat]
  exact (List.perm_append_singleton x l).symm

theorem pop_spec (hless : StrictWeak less) (ho : Ordered less h h.size) (hne : 0 < h.size) :
    ∃ x h', pop less h = some (x, h') ∧ (x :: h'.toList).Perm h.toList ∧
      Ordered less h' h'.size ∧ ∀ y ∈ h.toList, less y x = false := by
  have hlast : h.size - 1 < h.size := Nat.sub_lt hne Nat.one_pos
  have hperm : (down less (h.swapIfInBounds 0 (h.size - 1)) (h.size - 1) 0).toList.Perm h.toList :=
    (down_perm _ _ _).trans swap_perm
  have hordered := down_ordered hless (ho.sinking hne)
  have hback : (down less (h.swapIfInBounds 0 (h.size - 1)) (h.size - 1) 0)[h.size - 1]? =
      some h[0] := by
    rw [getElem?_down (by rw [size_swap]; omega) (Nat.le_refl _), getElem?_swap hne hlast,
      swapped_right, Array.getElem?_eq_getElem hne]
  generalize hd : down less (h.swapIfInBounds 0 (h.size - 1)) (h.size - 1) 0 = d at *
  have hsize : d.size = h.size := by simpa using hperm.length_eq
  rw [← hsize, ← Array.back?_eq_getElem?] at hback
  refine ⟨h[0], d.pop, ?_, (cons_pop_perm hback).trans hperm, (hsize ▸ hordered).pop, ?_⟩
  · simp only [pop, hd, hback, Option.map_some]
  · intro y hy
    obtain ⟨k, hk⟩ := List.mem_iff_getElem?.mp hy
    rw [Array.getElem?_toList] at hk
    have hksize : k < h.size := (Array.getElem?_eq_some_iff.mp hk).1
    exact ho.root hless k hksize _ (Array.getElem?_eq_getElem hne) y hk

theorem pop_empty (hne : h.size = 0) : pop less h = none := by
  obtain rfl := Array.eq_empty_of_size_eq_zero hne
  unfold pop down
  rfl

end Heap

end Support
