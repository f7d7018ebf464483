import Mathlib.Algebra.BigOperators.Group.List.Basic
import Tabi.Support.Bytes

/-!
# Support — Digest

The XOR of a collection of byte strings of one length, with nothing for the empty collection.
-/

namespace Support

variable {n : Nat}

def xorBytes (a b : Bytes) : Bytes := List.zipWith (· ^^^ ·) a b

theorem length_xorBytes (a b : FixedBytes n) : (xorBytes a.bytes b.bytes).length = n := by
  simp [xorBytes, a.length_eq, b.length_eq]

def FixedBytes.xor (a b : FixedBytes n) : FixedBytes n :=
  ⟨xorBytes a.bytes b.bytes, length_xorBytes a b⟩

theorem FixedBytes.xor_comm (a b : FixedBytes n) : a.xor b = b.xor a := by
  refine FixedBytes.ext ?_
  exact List.zipWith_comm_of_comm UInt8.xor_comm

theorem FixedBytes.xor_assoc (a b c : FixedBytes n) : (a.xor b).xor c = a.xor (b.xor c) := by
  refine FixedBytes.ext (List.ext_getElem? fun i => ?_)
  simp only [FixedBytes.xor, xorBytes, List.getElem?_zipWith]
  cases a.bytes[i]? <;> cases b.bytes[i]? <;> cases c.bytes[i]? <;> simp [UInt8.xor_assoc]

def Digest (n : Nat) : Type := Option (FixedBytes n)

namespace Digest

def of (a : FixedBytes n) : Digest n := some a

def bytes : Digest n → Option Bytes := Option.map FixedBytes.bytes

def add : Digest n → Digest n → Digest n
  | none, b => b
  | a, none => a
  | some a, some b => some (a.xor b)

instance instZero : Zero (Digest n) := ⟨none⟩

instance instAdd : Add (Digest n) := ⟨add⟩

theorem zero_add (a : Digest n) : 0 + a = a := by
  cases a <;> rfl

theorem add_zero (a : Digest n) : a + 0 = a := by
  cases a <;> rfl

theorem add_comm (a b : Digest n) : a + b = b + a := by
  cases a with
  | none => exact (zero_add b).trans (add_zero b).symm
  | some a =>
    cases b with
    | none => rfl
    | some b => exact congrArg some (a.xor_comm b)

theorem add_assoc (a b c : Digest n) : a + b + c = a + (b + c) := by
  cases a with
  | none => cases b <;> cases c <;> rfl
  | some a =>
    cases b with
    | none => cases c <;> rfl
    | some b =>
      cases c with
      | none => rfl
      | some c => exact congrArg some (a.xor_assoc b c)

instance instAddCommMonoid : AddCommMonoid (Digest n) where
  zero_add := zero_add
  add_zero := add_zero
  add_comm := add_comm
  add_assoc := add_assoc
  nsmul := nsmulRec

theorem bytes_zero : (0 : Digest n).bytes = none := rfl

theorem bytes_of (a : FixedBytes n) : (of a).bytes = some a.bytes := rfl

theorem of_add_of (a b : FixedBytes n) : of a + of b = of (a.xor b) := rfl

theorem eq_zero_or_of (d : Digest n) : d = 0 ∨ ∃ a, d = of a := by
  cases d with
  | none => exact .inl rfl
  | some a => exact .inr ⟨a, rfl⟩

theorem bytes_eq_none_iff {d : Digest n} : d.bytes = none ↔ d = 0 := Option.map_eq_none_iff

theorem of_add_ne_zero (a : FixedBytes n) (d : Digest n) : of a + d ≠ 0 := by
  cases d <;> exact Option.some_ne_none _

theorem bytes_injective : Function.Injective (bytes : Digest n → Option Bytes) :=
  Option.map_injective fun _ _ => FixedBytes.ext

theorem sum_of_eq_zero_iff {α : Type} (f : α → FixedBytes n) (xs : List α) :
    (xs.map fun x => of (f x)).sum = 0 ↔ xs = [] := by
  cases xs with
  | nil => simp
  | cons x xs => simp [of_add_ne_zero]

end Digest

section Sums

variable {M α : Type} [AddCommMonoid M]

def sums (acc : M) : List M → List M
  | [] => []
  | d :: ds => (acc + d) :: sums (acc + d) ds

theorem length_sums (acc : M) (ds : List M) : (sums acc ds).length = ds.length := by
  induction ds generalizing acc with
  | nil => rfl
  | cons d ds ih => simp [sums, ih]

theorem getElem?_sums {acc : M} {ds : List M} {i : Nat} (h : i < ds.length) :
    (sums acc ds)[i]? = some (acc + (ds.take (i + 1)).sum) := by
  induction ds generalizing acc i with
  | nil => simp at h
  | cons d ds ih =>
    cases i with
    | zero => simp [sums]
    | succ i =>
      rw [sums, List.getElem?_cons_succ, ih (Nat.lt_of_succ_lt_succ h), List.take_succ_cons,
        List.sum_cons, add_assoc]

theorem sum_filter_add (f : α → M) (p q : α → Bool) (xs : List α)
    (h : ∀ x ∈ xs, q x = true → p x = false) :
    ((xs.filter p).map f).sum + ((xs.filter q).map f).sum =
      ((xs.filter fun x => p x || q x).map f).sum := by
  induction xs with
  | nil => simp
  | cons x xs ih =>
    have ih' := ih fun y hy => h y (List.mem_cons_of_mem _ hy)
    have hx := h x List.mem_cons_self
    cases hp : p x with
    | true =>
      have hq : q x = false := by
        cases hq : q x with
        | true => rw [hx hq] at hp; cases hp
        | false => rfl
      simp [hp, hq, ← ih', add_assoc]
    | false =>
      cases hq : q x with
      | true => simp [hp, hq, ← ih', add_left_comm]
      | false => simp [hp, hq, ← ih']

theorem sum_buckets (f : α → M) (bucket : α → Nat) (xs : List α) (k : Nat) :
    ((List.range k).map fun j => ((xs.filter fun x => bucket x = j).map f).sum).sum =
      ((xs.filter fun x => bucket x < k).map f).sum := by
  induction k with
  | zero => simp
  | succ k ih =>
    rw [List.range_succ, List.map_append, List.sum_append, ih, List.map_singleton,
      List.sum_singleton, sum_filter_add]
    · congr 2
      refine List.filter_congr fun x _ => ?_
      rw [← Bool.decide_or, decide_eq_decide]
      exact Nat.lt_succ_iff_lt_or_eq.symm
    · intro x _ hx
      simp_all

end Sums

end Support
