import Mathlib.Algebra.GroupWithZero.Nat
import Mathlib.Algebra.Ring.Int.Defs
import Mathlib.Tactic.Common

/-!
# Support — Casts

The casts between unsigned and signed 64-bit words, as statements about numbers.
-/

namespace Support

theorem toInt_toInt64 (n : UInt64) :
    n.toInt64.toInt = if 2 * n.toNat < 2 ^ 64 then (n.toNat : ℤ) else n.toNat - 2 ^ 64 :=
  BitVec.toInt_eq_toNat_cond n.toBitVec

theorem toInt_toInt64_of_lt {n : UInt64} (h : n.toNat < 2 ^ 63) : n.toInt64.toInt = n.toNat := by
  rw [toInt_toInt64, if_pos (by omega)]

theorem toInt_toInt64_neg {n : UInt64} (h : 2 ^ 63 ≤ n.toNat) : n.toInt64.toInt < 0 := by
  have hlt := n.toNat_lt
  rw [toInt_toInt64, if_neg (by omega)]
  omega

theorem toInt_eq (n : Int64) :
    n.toInt = if 2 * n.toUInt64.toNat < 2 ^ 64 then (n.toUInt64.toNat : ℤ)
      else n.toUInt64.toNat - 2 ^ 64 := by
  rw [← toInt_toInt64, Int64.toInt64_toUInt64]

variable {n m : Int64}

theorem toNat_toUInt64_of_nonneg (h : 0 ≤ n.toInt) : (n.toUInt64.toNat : ℤ) = n.toInt := by
  have hlt := n.toUInt64.toNat_lt
  have hcast := toInt_eq n
  split at hcast <;> omega

theorem le_toUInt64_of_neg (h : n.toInt < 0) : 2 ^ 63 ≤ n.toUInt64.toNat := by
  have hcast := toInt_eq n
  split at hcast <;> omega

theorem toUInt64_inj (h : m.toUInt64 = n.toUInt64) : m = n := by
  rw [← Int64.toInt64_toUInt64 m, h, Int64.toInt64_toUInt64]

theorem toInt_add_ofNat {k : Nat} (h : m.toInt + k ≤ n.toInt) :
    (m + Int64.ofNat k).toInt = m.toInt + k := by
  have hlow := m.le_toInt
  have hhigh := n.toInt_lt
  rw [Int64.toInt_add, Int64.toInt_ofNat', show Int64.size = 2 ^ 64 from rfl, Int.add_bmod_bmod]
  apply Int.bmod_eq_of_le <;> omega

theorem toInt_add_one (h : m < n) : (m + 1).toInt = m.toInt + 1 := by
  rw [Int64.lt_iff_toInt_lt] at h
  exact toInt_add_ofNat (k := 1) (n := n) (by omega)

theorem toInt_sub_add_one (m n : Int64) :
    (n - m + 1).toInt = (n.toInt - m.toInt + 1).bmod (2 ^ 64) := by
  rw [Int64.toInt_add, Int64.toInt_sub, Int64.toInt_one, Int.bmod_add_bmod]

theorem toNat_toUInt64_sub (h : m ≤ n) : ((n - m).toUInt64.toNat : ℤ) = n.toInt - m.toInt := by
  rw [Int64.le_iff_toInt_le] at h
  have hlow := m.le_toInt
  have hhigh := n.toInt_lt
  have hlt := (n - m).toUInt64.toNat_lt
  have hcast := toInt_eq (n - m)
  rw [Int64.toInt_sub, Int.bmod_def] at hcast
  split at hcast <;> split at hcast <;> omega

theorem toInt_sub_toInt64_add_one {k : Int64} {c : UInt64} (hlow : m.toInt + c.toNat ≤ n.toInt)
    (hnext : n < k) : (n - c.toInt64 + 1).toInt = n.toInt - c.toNat + 1 := by
  rw [Int64.lt_iff_toInt_lt] at hnext
  have hm := m.le_toInt
  have hk := k.toInt_lt
  have hc := toInt_toInt64 c
  rw [toInt_sub_add_one, Int.bmod_def]
  split at hc <;> split <;> omega

theorem toInt_sub_add_one_of_lt (hle : m.toInt ≤ n.toInt + 1) (hlt : n.toInt - m.toInt + 1 < 2 ^ 63)
    : (n - m + 1).toInt = n.toInt - m.toInt + 1 := by
  rw [toInt_sub_add_one]
  apply Int.bmod_eq_of_le <;> omega

theorem toInt_sub_add_one_of_pos (hle : m ≤ n) (hpos : 0 < n - m + 1) :
    (n - m + 1).toInt = n.toInt - m.toInt + 1 := by
  rw [Int64.le_iff_toInt_le] at hle
  rw [Int64.lt_iff_toInt_lt, Int64.toInt_zero, toInt_sub_add_one] at hpos
  have hlow := m.le_toInt
  have hhigh := n.toInt_lt
  rw [toInt_sub_add_one]
  rw [Int.bmod_def] at hpos ⊢
  split at hpos <;> omega

end Support
