import Tabi.Chain.Types
import Tabi.Support.Decimal

/-!
# Chain — Dec

`sdk.Dec`: a fixed-point number with eighteen digits after the point, as an integer that counts
units of the last digit.
-/

namespace Tabi.Dec

open Support

def unit : ℤ := 1000000000000000000

def maxDecBitLen : Nat := 315

def check (z : ℤ) : Outcome ℤ :=
  if z.natAbs.log2 < maxDecBitLen then .ok z else .error .integerOverflow

def ofUint64 (n : UInt64) : ℤ := Decimal.ofInt unit n.toNat

def ofInt64 (n : Int64) : ℤ := Decimal.ofInt unit n.toInt

def add (a b : ℤ) : Outcome ℤ := check (a + b)

def sub (a b : ℤ) : Outcome ℤ := check (a - b)

def mul (a b : ℤ) : Outcome ℤ := check (Decimal.mul unit a b)

def quo (a b : ℤ) : Outcome ℤ :=
  if b = 0 then .error .divisionByZero else check (Decimal.quo unit a b)

def truncateInt (a : ℤ) : Outcome ℤ := SdkInt.ofBig (Decimal.truncate unit a)

theorem unit_pos : 0 < unit := by decide

def Fits (z : ℤ) : Prop := z.natAbs < 2 ^ maxDecBitLen

instance (z : ℤ) : Decidable (Fits z) := inferInstanceAs (Decidable (_ < _))

theorem check_eq_ok {z r : ℤ} (h : check z = .ok r) : r = z := by
  unfold check at h
  split at h
  · cases h; rfl
  · cases h

theorem quo_eq_ok {a b r : ℤ} (h : quo a b = .ok r) : r = Decimal.quo unit a b := by
  unfold quo at h
  split at h
  · cases h
  · exact check_eq_ok h

theorem Fits.check {z : ℤ} (h : Fits z) : check z = .ok z := by
  have hlog : z.natAbs.log2 < maxDecBitLen := by
    rcases Nat.eq_zero_or_pos z.natAbs with h₀ | hpos
    · rw [h₀]
      decide
    · exact (Nat.log2_lt hpos.ne').mpr h
  exact if_pos hlog

theorem Fits.of_le {z w : ℤ} (h : Fits w) (hz : 0 ≤ z) (hle : z ≤ w) : Fits z := by
  unfold Fits at *
  omega

end Tabi.Dec
