import Mathlib.Data.List.Basic
import Mathlib.Tactic.Common

/-!
# Support — Merge

Work that is handed out in batches, and the results of sorted batches merged into one list.
-/

namespace Support

variable {α : Type}

def batched (size : Nat) : List α → List α → List (List α)
  | batch, [] => if 0 < batch.length then [batch] else []
  | batch, a :: as =>
    if size ≤ (batch ++ [a]).length then (batch ++ [a]) :: batched size [] as
    else batched size (batch ++ [a]) as

theorem flatten_batched (size : Nat) (batch as : List α) :
    (batched size batch as).flatten = batch ++ as := by
  induction as generalizing batch with
  | nil =>
    cases batch with
    | nil => rfl
    | cons b batch => simp [batched]
  | cons a as ih =>
    unfold batched
    split
    · rw [List.flatten_cons, ih, List.nil_append, List.append_assoc]
      rfl
    · rw [ih, List.append_assoc]
      rfl

variable {le : α → α → Prop}

inductive Merges (le : α → α → Prop) : List (List α) → List α → Prop where
  | done {batches : List (List α)} (h : ∀ b ∈ batches, b = []) : Merges le batches []
  | take {batches : List (List α)} {i : Nat} {x : α} {rest out : List α}
      (hi : batches[i]? = some (x :: rest)) (hx : ∀ b ∈ batches, ∀ y ∈ b.head?, le x y)
      (h : Merges le (batches.set i rest) out) : Merges le batches (x :: out)

variable {batches : List (List α)} {x : α}

theorem perm_flatten_set {i : Nat} {rest : List α} (hi : batches[i]? = some (x :: rest)) :
    (x :: (batches.set i rest).flatten).Perm batches.flatten := by
  induction batches generalizing i with
  | nil => cases hi
  | cons b batches ih =>
    cases i with
    | zero =>
      cases hi
      exact .refl _
    | succ i =>
      rw [List.set_cons_succ, List.flatten_cons, List.flatten_cons]
      exact List.perm_middle.symm.trans (.append_left b (ih hi))

theorem Merges.perm {out : List α} (h : Merges le batches out) : out.Perm batches.flatten := by
  induction h with
  | done h => rw [List.flatten_eq_nil_iff.mpr h]
  | take hi _ _ ih => exact (ih.cons _).trans (perm_flatten_set hi)

theorem forall_of_heads (htrans : ∀ x y z, le x y → le y z → le x z)
    (hsorted : ∀ b ∈ batches, b.Pairwise le) (hx : ∀ b ∈ batches, ∀ y ∈ b.head?, le x y) :
    ∀ y ∈ batches.flatten, le x y := by
  intro y hy
  obtain ⟨b, hb, hy⟩ := List.mem_flatten.mp hy
  cases b with
  | nil => cases hy
  | cons z b =>
    have hxz := hx _ hb z rfl
    rcases List.mem_cons.mp hy with rfl | hy
    · exact hxz
    · exact htrans _ _ _ hxz ((List.pairwise_cons.mp (hsorted _ hb)).1 y hy)

theorem Merges.sorted (htrans : ∀ x y z, le x y → le y z → le x z) {out : List α}
    (h : Merges le batches out) (hsorted : ∀ b ∈ batches, b.Pairwise le) : out.Pairwise le := by
  induction h with
  | done _ => exact .nil
  | @take batches i x rest out hi hx hmerge ih =>
    have hbatch := hsorted _ (List.mem_of_getElem? hi)
    refine List.pairwise_cons.mpr ⟨fun y hy => ?_, ih fun b hb => ?_⟩
    · refine forall_of_heads htrans hsorted hx y ((perm_flatten_set hi).mem_iff.mp ?_)
      exact List.mem_cons_of_mem x (hmerge.perm.mem_iff.mp hy)
    · rcases List.mem_or_eq_of_mem_set hb with hb | rfl
      · exact hsorted b hb
      · exact (List.pairwise_cons.mp hbatch).2

variable [DecidableRel le]

def leastHead (le : α → α → Prop) [DecidableRel le] : List (List α) → Option (Nat × α × List α)
  | [] => none
  | [] :: batches => (leastHead le batches).map fun e => (e.1 + 1, e.2)
  | (x :: rest) :: batches =>
    match leastHead le batches with
    | none => some (0, x, rest)
    | some (i, y, rest') => if le x y then some (0, x, rest) else some (i + 1, y, rest')

def mergeAll (le : α → α → Prop) [DecidableRel le] : Nat → List (List α) → List α
  | 0, _ => []
  | n + 1, batches =>
    match leastHead le batches with
    | none => []
    | some (i, x, rest) => x :: mergeAll le n (batches.set i rest)

theorem leastHead_eq_none (h : leastHead le batches = none) : ∀ b ∈ batches, b = [] := by
  induction batches with
  | nil => exact nofun
  | cons b batches ih =>
    cases b with
    | nil => exact List.forall_mem_cons.mpr ⟨rfl, ih (Option.map_eq_none_iff.mp h)⟩
    | cons x rest =>
      unfold leastHead at h
      split at h
      · cases h
      · split at h <;> cases h

theorem leastHead_eq_some (htrans : ∀ x y z, le x y → le y z → le x z)
    (htotal : ∀ x y, le x y ∨ le y x) {i : Nat} {rest : List α}
    (h : leastHead le batches = some (i, x, rest)) :
    batches[i]? = some (x :: rest) ∧ ∀ b ∈ batches, ∀ y ∈ b.head?, le x y := by
  induction batches generalizing i x rest with
  | nil => cases h
  | cons b batches ih =>
    cases b with
    | nil =>
      obtain ⟨⟨j, y, r⟩, hj, e⟩ := Option.map_eq_some_iff.mp h
      cases e
      obtain ⟨hget, hle⟩ := ih hj
      exact ⟨hget, List.forall_mem_cons.mpr ⟨nofun, hle⟩⟩
    | cons z r =>
      have hself : le z z := (htotal z z).elim id id
      unfold leastHead at h
      split at h
      · rename_i hnone
        cases h
        refine ⟨rfl, List.forall_mem_cons.mpr ⟨fun y hy => by cases hy; exact hself, ?_⟩⟩
        intro b hb y hy
        rw [leastHead_eq_none hnone b hb] at hy
        cases hy
      · rename_i j y r' hsome
        obtain ⟨hget, hle⟩ := ih hsome
        split at h
        · rename_i hzy
          cases h
          refine ⟨rfl, List.forall_mem_cons.mpr ⟨fun y hy => by cases hy; exact hself, ?_⟩⟩
          exact fun b hb w hw => htrans _ _ _ hzy (hle b hb w hw)
        · rename_i hzy
          cases h
          refine ⟨hget, List.forall_mem_cons.mpr ⟨fun w hw => ?_, hle⟩⟩
          cases hw
          exact (htotal z x).resolve_left hzy

theorem merges_mergeAll (htrans : ∀ x y z, le x y → le y z → le x z)
    (htotal : ∀ x y, le x y ∨ le y x) {n : Nat} (hn : batches.flatten.length ≤ n) :
    Merges le batches (mergeAll le n batches) := by
  induction n generalizing batches with
  | zero =>
    refine .done (List.flatten_eq_nil_iff.mp ?_)
    exact List.eq_nil_of_length_eq_zero (Nat.le_zero.mp hn)
  | succ n ih =>
    unfold mergeAll
    split
    · rename_i hnone
      exact .done (leastHead_eq_none hnone)
    · rename_i i x rest hsome
      obtain ⟨hget, hle⟩ := leastHead_eq_some htrans htotal hsome
      refine .take hget hle (ih ?_)
      have hlen := (perm_flatten_set hget).length_eq
      rw [List.length_cons] at hlen
      omega

end Support
