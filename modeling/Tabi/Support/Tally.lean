import Mathlib.Algebra.GroupWithZero.Nat
import Mathlib.Algebra.Order.BigOperators.Group.List
import Mathlib.Algebra.Order.Group.Nat
import Mathlib.Data.List.Nodup
import Mathlib.Tactic.Common

/-!
# Support — Tally

Running totals of a list.
-/

namespace Support

variable {α β : Type}

def tally (w : α → Nat) (n : Nat) : List α → List (α × Nat)
  | [] => []
  | x :: xs => (x, n) :: tally w (n + w x) xs

variable {w : α → Nat}

theorem tally_append (n : Nat) (xs ys : List α) :
    tally w n (xs ++ ys) = tally w n xs ++ tally w (n + (xs.map w).sum) ys := by
  induction xs generalizing n with
  | nil => rfl
  | cons x xs ih =>
    rw [List.cons_append, tally, ih, tally, List.cons_append, List.map_cons, List.sum_cons,
      Nat.add_assoc]

@[simp] theorem length_tally (n : Nat) (xs : List α) : (tally w n xs).length = xs.length := by
  induction xs generalizing n with
  | nil => rfl
  | cons x xs ih => rw [tally, List.length_cons, ih, List.length_cons]

theorem getElem?_tally (n : Nat) (xs : List α) (k : Nat) :
    (tally w n xs)[k]? = xs[k]?.map fun x => (x, n + ((xs.take k).map w).sum) := by
  induction xs generalizing n k with
  | nil => rfl
  | cons x xs ih =>
    cases k with
    | zero => rfl
    | succ k =>
      rw [tally, List.getElem?_cons_succ, ih, List.getElem?_cons_succ, List.take_succ_cons,
        List.map_cons, List.sum_cons]
      simp only [Nat.add_assoc]

variable {xs : List α} {p : α → Bool} {x : α} {k : Nat}

theorem exists_getElem?_cons {P : Nat → α → Prop} {a : α} :
    (∃ k x, (a :: xs)[k]? = some x ∧ P k x) ↔ P 0 a ∨ ∃ k x, xs[k]? = some x ∧ P (k + 1) x := by
  constructor
  · rintro ⟨k, x, hk, hP⟩
    cases k with
    | zero =>
      cases hk
      exact .inl hP
    | succ k => exact .inr ⟨k, x, hk, hP⟩
  · rintro (hP | ⟨k, x, hk, hP⟩)
    · exact ⟨0, a, rfl, hP⟩
    · exact ⟨k + 1, x, hk, hP⟩

theorem getElem?_filterMap_iff {f : α → Option β} {p : Nat} {y : β} :
    (xs.filterMap f)[p]? = some y ↔
      ∃ k x, xs[k]? = some x ∧ f x = some y ∧ ((xs.take k).filterMap f).length = p := by
  induction xs generalizing p with
  | nil => simp
  | cons x xs ih =>
    rw [exists_getElem?_cons]
    simp only [List.take_succ_cons, List.take_zero, List.filterMap_nil, List.length_nil]
    -- the first element is at position zero, if it is kept, and moves the others by one
    cases hx : f x with
    | none => simp [List.filterMap_cons_none hx, ih]
    | some y' =>
      cases p with
      | zero => simp [List.filterMap_cons_some hx]
      | succ p => simp [List.filterMap_cons_some hx, ih]

theorem getElem?_filter_iff {n : Nat} :
    (xs.filter p)[n]? = some x ↔
      ∃ k : Nat, xs[k]? = some x ∧ p x = true ∧ (xs.take k).countP p = n := by
  rw [← List.filterMap_eq_filter, getElem?_filterMap_iff]
  constructor
  · rintro ⟨k, y, hk, hy, hn⟩
    obtain ⟨rfl, hp⟩ := Option.guard_eq_some_iff.mp hy
    refine ⟨k, hk, hp, ?_⟩
    rw [List.countP_eq_length_filter, ← List.filterMap_eq_filter]
    exact hn
  · rintro ⟨k, hk, hp, hn⟩
    refine ⟨k, x, hk, Option.guard_eq_some_iff.mpr ⟨rfl, hp⟩, ?_⟩
    rw [List.filterMap_eq_filter, ← List.countP_eq_length_filter]
    exact hn

theorem countP_eq_add {q : α → Bool} (h : ∀ x ∈ xs, q x = true → p x = true) :
    xs.countP p = xs.countP q + xs.countP fun x => p x && !q x := by
  induction xs with
  | nil => rfl
  | cons x xs ih =>
    obtain ⟨hx, hxs⟩ := List.forall_mem_cons.mp h
    rw [List.countP_cons, List.countP_cons, List.countP_cons, ih hxs]
    cases hq : q x with
    | true =>
      simp only [hx hq, Bool.not_true, Bool.and_false, Bool.false_eq_true, if_true, if_false]
      omega
    | false =>
      simp only [Bool.not_false, Bool.and_true, Bool.false_eq_true, if_false]
      omega

theorem take_length_filterMap (f : α → Option β) (xs : List α) (k : Nat) :
    (xs.filterMap f).take ((xs.take k).filterMap f).length = (xs.take k).filterMap f := by
  conv_lhs => rw [← List.take_append_drop k xs]
  rw [List.filterMap_append, List.take_append_drop, List.take_left]

theorem forall_mem_take {P : α → Prop} :
    (∀ x ∈ xs.take k, P x) ↔ ∀ j < k, ∀ x, xs[j]? = some x → P x := by
  constructor
  · intro h j hj x hx
    rw [← List.getElem?_take_of_lt hj] at hx
    exact h x (List.mem_of_getElem? hx)
  · intro h x hx
    obtain ⟨j, hj⟩ := List.getElem?_of_mem hx
    have hjk : j < k := (List.getElem?_eq_some_iff.mp hj).1.trans_le (List.length_take_le k xs)
    rw [List.getElem?_take_of_lt hjk] at hj
    exact h j hjk x hj

theorem countP_take_eq_iff (hk : k ≤ xs.length) :
    (xs.take k).countP p = k ↔ ∀ j < k, ∀ x, xs[j]? = some x → p x = true := by
  rw [← forall_mem_take, ← List.countP_eq_length, List.length_take_of_le hk]

theorem le_sum (hk : xs[k]? = some x) : w x ≤ (xs.map w).sum :=
  List.single_le_sum (fun _ _ => Nat.zero_le _) _ (List.mem_map_of_mem (List.mem_of_getElem? hk))

theorem add_le_sum {j : Nat} {y : α} (hjk : j ≠ k) (hj : xs[j]? = some x) (hk : xs[k]? = some y) :
    w x + w y ≤ (xs.map w).sum := by
  induction xs generalizing j k with
  | nil => cases hj
  | cons z xs ih =>
    rw [List.map_cons, List.sum_cons]
    cases j with
    | zero =>
      cases hj
      cases k with
      | zero => exact absurd rfl hjk
      | succ k => exact Nat.add_le_add_left (le_sum (List.getElem?_cons_succ ▸ hk)) _
    | succ j =>
      rw [List.getElem?_cons_succ] at hj
      cases k with
      | zero =>
        cases hk
        rw [Nat.add_comm]
        exact Nat.add_le_add_left (le_sum hj) _
      | succ k =>
        have := ih (fun e => hjk (congrArg Nat.succ e)) hj (List.getElem?_cons_succ ▸ hk)
        omega

theorem map_eq_map_zipIdx (f : α → β) (xs : List α) : xs.map f = xs.zipIdx.map fun e => f e.1 := by
  conv_lhs => rw [← List.zipIdx_map_fst 0 xs]
  exact List.map_map

theorem getElem?_zipIdx_of (hk : xs[k]? = some x) : xs.zipIdx[k]? = some (x, k) := by
  rw [List.getElem?_zipIdx, hk, Option.map_some, Nat.zero_add]

theorem forall_mem_take_zipIdx {P : α × Nat → Prop} :
    (∀ e ∈ xs.zipIdx.take k, P e) ↔ ∀ j < k, ∀ x, xs[j]? = some x → P (x, j) := by
  rw [forall_mem_take]
  refine forall₂_congr fun j _ => ?_
  constructor
  · exact fun h x hx => h _ (getElem?_zipIdx_of hx)
  · intro h e he
    rw [List.getElem?_zipIdx, Nat.zero_add] at he
    obtain ⟨x, hx, rfl⟩ := Option.map_eq_some_iff.mp he
    exact h x hx

theorem flatMap_eq_of_getElem? {f : α → List β} (hk : xs[k]? = some x)
    (hf : ∀ (j : Nat) y, xs[j]? = some y → j ≠ k → f y = []) : xs.flatMap f = f x := by
  induction xs generalizing k with
  | nil => cases hk
  | cons z xs ih =>
    rw [List.flatMap_cons]
    cases k with
    | zero =>
      cases hk
      have hrest : xs.flatMap f = [] := List.flatMap_eq_nil_iff.mpr fun y hy => by
        obtain ⟨j, hj⟩ := List.getElem?_of_mem hy
        exact hf (j + 1) y hj (Nat.succ_ne_zero j)
      rw [hrest, List.append_nil]
    | succ k =>
      rw [hf 0 z rfl (Nat.succ_ne_zero k).symm, List.nil_append]
      exact ih hk fun j y hj hne => hf (j + 1) y hj fun e => hne (Nat.succ.inj e)

theorem mem_flatMap_mapIdx {γ : Type} {f : ℕ → α → β} {g : β → List γ} {h : α → List γ}
    (hfg : ∀ n x a, a ∈ g (f n x) ↔ a ∈ h x) {a : γ} :
    a ∈ (xs.mapIdx f).flatMap g ↔ a ∈ xs.flatMap h := by
  simp only [List.mem_flatMap, List.mem_mapIdx]
  constructor
  · rintro ⟨_, ⟨n, hn, rfl⟩, ha⟩
    exact ⟨_, List.getElem_mem hn, (hfg n _ a).mp ha⟩
  · rintro ⟨x, hx, ha⟩
    obtain ⟨n, hn, rfl⟩ := List.getElem_of_mem hx
    exact ⟨_, ⟨n, hn, rfl⟩, (hfg n _ a).mpr ha⟩

theorem flatMap_filter (p : α → Bool) (f : α → List β) (xs : List α) :
    (xs.filter p).flatMap f = xs.flatMap fun x => if p x = true then f x else [] := by
  induction xs with
  | nil => rfl
  | cons x xs ih =>
    rw [List.flatMap_cons, ← ih]
    cases hx : p x with
    | true => rw [List.filter_cons_of_pos hx, List.flatMap_cons, if_pos rfl]
    | false =>
      rw [List.filter_cons_of_neg (Bool.eq_false_iff.mp hx), if_neg Bool.false_ne_true,
        List.nil_append]

theorem sum_filterMap {f : α → Option β} {v : β → Nat} (h : ∀ x ∈ xs, ∀ y, f x = some y → w x = v y)
    : ((xs.filterMap f).map v).sum = ((xs.filter fun x => (f x).isSome).map w).sum := by
  induction xs with
  | nil => rfl
  | cons x xs ih =>
    obtain ⟨hx, hxs⟩ := List.forall_mem_cons.mp h
    cases hf : f x with
    | none =>
      rw [List.filterMap_cons_none hf, List.filter_cons_of_neg (by rw [hf]; exact nofun)]
      exact ih hxs
    | some y =>
      rw [List.filterMap_cons_some hf, List.filter_cons_of_pos (by rw [hf]; rfl), List.map_cons,
        List.map_cons, List.sum_cons, List.sum_cons, ih hxs, hx y hf]

theorem sum_filter :
    ((xs.filter p).map w).sum = (xs.map fun x => if p x = true then w x else 0).sum := by
  induction xs with
  | nil => rfl
  | cons x xs ih =>
    rw [List.map_cons, List.sum_cons, ← ih]
    cases hx : p x with
    | true => rw [List.filter_cons_of_pos hx, List.map_cons, List.sum_cons, if_pos rfl]
    | false =>
      rw [List.filter_cons_of_neg (Bool.eq_false_iff.mp hx), if_neg Bool.false_ne_true,
        Nat.zero_add]

theorem sum_filter_eq_iff :
    ((xs.filter p).map w).sum = (xs.map w).sum ↔ ∀ x ∈ xs, p x = false → w x = 0 := by
  induction xs with
  | nil => simp
  | cons x xs ih =>
    have hle : ((xs.filter p).map w).sum ≤ (xs.map w).sum :=
      (List.filter_sublist.map w).sum_le_sum fun _ _ => Nat.zero_le _
    rw [List.forall_mem_cons, ← ih, List.map_cons, List.sum_cons]
    cases hx : p x with
    | true =>
      rw [List.filter_cons_of_pos hx, List.map_cons, List.sum_cons]
      simp
    | false =>
      rw [List.filter_cons_of_neg (by simp [hx])]
      simp only [forall_const]
      omega

theorem sum_eq_of_entries {κ : Type} {xs ys : List (κ × Nat)} (hxs : (xs.map Prod.fst).Nodup)
    (hys : (ys.map Prod.fst).Nodup) (h : ∀ k n, n ≠ 0 → ((k, n) ∈ xs ↔ (k, n) ∈ ys)) :
    (xs.map Prod.snd).sum = (ys.map Prod.snd).sum := by
  have hperm : (xs.filter fun e => e.2 ≠ 0).Perm (ys.filter fun e => e.2 ≠ 0) := by
    refine (List.perm_ext_iff_of_nodup ((hxs.of_map _).filter _)
      ((hys.of_map _).filter _)).mpr ?_
    rintro ⟨k, n⟩
    simp only [List.mem_filter, decide_eq_true_eq]
    exact and_congr_left (h k n)
  have htotal : ∀ zs : List (κ × Nat), ((zs.filter fun e => e.2 ≠ 0).map Prod.snd).sum =
      (zs.map Prod.snd).sum := fun zs => sum_filter_eq_iff.mpr fun e _ he => by simpa using he
  rw [← htotal xs, ← htotal ys, (hperm.map Prod.snd).sum_eq]

end Support
