import Mathlib.Data.List.Basic
import Mathlib.Tactic.Common
import Mathlib.Tactic.Ring

/-!
# Support — Bytes

Byte strings, byte strings of one length, and big-endian numbers.
-/

namespace Support

abbrev Bytes := List UInt8

instance lawfulBEqBytes : LawfulBEq Bytes := inferInstance

def Bytes.ofString (s : String) : Bytes := s.toUTF8.data.toList

def Bytes.ascii (s : String) : Bytes := s.toList.map fun c => UInt8.ofNat c.toNat

structure FixedBytes (n : Nat) where
  bytes : Bytes
  length_eq : bytes.length = n
  deriving DecidableEq

namespace FixedBytes

variable {n : Nat}

@[ext] theorem ext {a b : FixedBytes n} (h : a.bytes = b.bytes) : a = b := by
  cases a; cases b; congr

def zero (n : Nat) : FixedBytes n := ⟨List.replicate n 0, List.length_replicate⟩

instance : Inhabited (FixedBytes n) := ⟨zero n⟩

def ofBytes (n : Nat) (b : Bytes) : FixedBytes n :=
  ⟨(List.replicate (n - b.length) 0 ++ b).drop (b.length - n), by
    simp only [List.length_drop, List.length_append, List.length_replicate]; omega⟩

@[simp] theorem ofBytes_bytes (a : FixedBytes n) : ofBytes n a.bytes = a := by
  apply ext
  simp [ofBytes, a.length_eq]

def copyOf (n : Nat) (b : Bytes) : FixedBytes n :=
  ⟨(b ++ List.replicate n 0).take n, by simp⟩

@[simp] theorem copyOf_bytes (a : FixedBytes n) : copyOf n a.bytes = a := by
  apply ext
  simp [copyOf, a.length_eq]

end FixedBytes

def beBytes : Nat → Nat → Bytes
  | 0, _ => []
  | w + 1, v => UInt8.ofNat (v / 256 ^ w) :: beBytes w v

def beNat (b : Bytes) : Nat := b.foldl (fun acc x => acc * 256 + x.toNat) 0

@[simp] theorem length_beBytes (w v : Nat) : (beBytes w v).length = w := by
  induction w with
  | zero => rfl
  | succ w ih => simp [beBytes, ih]

theorem foldl_beBytes (w v acc : Nat) :
    (beBytes w v).foldl (fun acc x => acc * 256 + x.toNat) acc = acc * 256 ^ w + v % 256 ^ w := by
  induction w generalizing acc with
  | zero => simp [beBytes, Nat.mod_one]
  | succ w ih =>
    have high : v % 256 ^ (w + 1) = v % 256 ^ w + 256 ^ w * (v / 256 ^ w % 256) :=
      Nat.mod_pow_succ
    have byte : (UInt8.ofNat (v / 256 ^ w)).toNat = v / 256 ^ w % 256 := UInt8.toNat_ofNat'
    rw [beBytes, List.foldl_cons, ih, byte, high, Nat.pow_succ]
    ring

theorem beNat_beBytes (w v : Nat) : beNat (beBytes w v) = v % 256 ^ w := by
  rw [beNat, foldl_beBytes, Nat.zero_mul, Nat.zero_add]

theorem beBytes_injective {w v v' : Nat} (hv : v < 256 ^ w) (hv' : v' < 256 ^ w)
    (h : beBytes w v = beBytes w v') : v = v' := by
  rw [← Nat.mod_eq_of_lt hv, ← Nat.mod_eq_of_lt hv', ← beNat_beBytes, ← beNat_beBytes, h]

def natBytes (v : Nat) : Bytes := beBytes (if v = 0 then 0 else v.log2 / 8 + 1) v

@[simp] theorem beNat_natBytes (v : Nat) : beNat (natBytes v) = v := by
  rw [natBytes, beNat_beBytes]
  by_cases h : v = 0
  · rw [h, Nat.zero_mod]
  · rw [if_neg h]
    apply Nat.mod_eq_of_lt
    calc v < 2 ^ (v.log2 + 1) := Nat.lt_log2_self
      _ ≤ 2 ^ (8 * (v.log2 / 8 + 1)) := Nat.pow_le_pow_right (by decide) (by omega)
      _ = 256 ^ (v.log2 / 8 + 1) := by rw [Nat.pow_mul]

theorem length_natBytes_le {v w : Nat} (h : v < 256 ^ w) : (natBytes v).length ≤ w := by
  rw [natBytes, length_beBytes]
  split
  · exact Nat.zero_le w
  · rename_i hv
    have hlog : v.log2 < 8 * w := by
      rw [Nat.log2_lt hv, Nat.pow_mul]
      exact h
    omega

end Support
