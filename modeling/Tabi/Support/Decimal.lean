import Mathlib.Tactic.Common
import Mathlib.Tactic.Linarith
import Mathlib.Tactic.Ring

/-!
# Support — Decimal

Fixed-point numbers: an integer counts multiples of `1 / unit`.
-/

namespace Support.Decimal

variable {unit : ℤ}

def roundNonneg (unit z : ℤ) : ℤ :=
  if 2 * (z % unit) < unit then z / unit
  else if unit < 2 * (z % unit) then z / unit + 1
  else if z / unit % 2 = 0 then z / unit else z / unit + 1

def chopRound (unit z : ℤ) : ℤ :=
  if z < 0 then -roundNonneg unit (-z) else roundNonneg unit z

def ofInt (unit n : ℤ) : ℤ := n * unit

def mul (unit a b : ℤ) : ℤ := chopRound unit (a * b)

def quo (unit a b : ℤ) : ℤ := chopRound unit ((a * unit * unit).tdiv b)

def truncate (unit a : ℤ) : ℤ := a.tdiv unit

theorem roundNonneg_mul_unit (hu : 0 < unit) (n : ℤ) : roundNonneg unit (n * unit) = n := by
  have hdiv : n * unit / unit = n := Int.mul_ediv_cancel n (ne_of_gt hu)
  have hmod : n * unit % unit = 0 := Int.mul_emod_left n unit
  rw [roundNonneg, hdiv, hmod, if_pos (by omega)]

theorem chopRound_mul_unit (hu : 0 < unit) (n : ℤ) : chopRound unit (n * unit) = n := by
  unfold chopRound
  split
  · rw [← neg_mul, roundNonneg_mul_unit hu, neg_neg]
  · exact roundNonneg_mul_unit hu n

variable {z a b : ℤ}

theorem chopRound_le (hu : 0 < unit) {n : ℤ} (hz : 0 ≤ z) (h : z ≤ n * unit) :
    chopRound unit z ≤ n := by
  rw [chopRound, if_neg (not_lt.mpr hz)]
  have hq : z / unit ≤ n := Int.ediv_le_of_le_mul hu h
  rcases lt_or_eq_of_le hq with hlt | heq
  · -- one unit below the bound there is room to round up
    have hup : roundNonneg unit z ≤ z / unit + 1 := by
      unfold roundNonneg
      split_ifs <;> omega
    omega
  · -- at the bound nothing is left to round
    have hsplit := Int.ediv_mul_add_emod z unit
    have hmod : z % unit = 0 := by
      have := Int.emod_nonneg z (ne_of_gt hu)
      rw [heq] at hsplit
      omega
    rw [roundNonneg, hmod, if_pos (by omega), heq]

theorem chopRound_nonneg (hu : 0 < unit) (hz : 0 ≤ z) : 0 ≤ chopRound unit z := by
  have hq : 0 ≤ z / unit := Int.ediv_nonneg hz hu.le
  rw [chopRound, if_neg (not_lt.mpr hz), roundNonneg]
  split_ifs <;> omega

theorem chopRound_nonpos (hu : 0 < unit) (hz : z ≤ 0) : chopRound unit z ≤ 0 := by
  rcases lt_or_eq_of_le hz with hlt | rfl
  · have hneg := chopRound_nonneg hu (neg_nonneg.mpr hz)
    rw [chopRound, if_neg (by omega)] at hneg
    rw [chopRound, if_pos hlt]
    omega
  · exact (chopRound_le hu le_rfl (by omega)).trans le_rfl

theorem chopRound_mono (hu : 0 < unit) {w : ℤ} (hz : 0 ≤ z) (h : z ≤ w) :
    chopRound unit z ≤ chopRound unit w := by
  have hq : z / unit ≤ w / unit := Int.ediv_le_ediv hu h
  rw [chopRound, chopRound, if_neg (not_lt.mpr hz), if_neg (not_lt.mpr (hz.trans h))]
  rcases lt_or_eq_of_le hq with hlt | heq
  · -- rounding moves by at most one, and there is one between them
    have hup : roundNonneg unit z ≤ z / unit + 1 := by
      unfold roundNonneg
      split_ifs <;> omega
    have hdown : w / unit ≤ roundNonneg unit w := by
      unfold roundNonneg
      split_ifs <;> omega
    omega
  · -- with the same quotient, the larger remainder is the one rounded up
    have hz' := Int.ediv_mul_add_emod z unit
    have hw' := Int.ediv_mul_add_emod w unit
    have hrem : z % unit ≤ w % unit := by
      rw [heq] at hz'
      omega
    unfold roundNonneg
    rw [heq]
    split_ifs <;> omega

theorem two_mul_chopRound_le (hu : 0 < unit) (hz : 0 ≤ z) :
    2 * (chopRound unit z * unit) ≤ 2 * z + unit := by
  have hsplit := Int.ediv_mul_add_emod z unit
  have hrem := Int.emod_nonneg z (ne_of_gt hu)
  rw [chopRound, if_neg (not_lt.mpr hz), roundNonneg]
  split_ifs <;> linarith

theorem mul_nonneg (hu : 0 < unit) (ha : 0 ≤ a) (hb : 0 ≤ b) : 0 ≤ mul unit a b :=
  chopRound_nonneg hu (Int.mul_nonneg ha hb)

theorem mul_mono (hu : 0 < unit) {c : ℤ} (ha : 0 ≤ a) (hb : 0 ≤ b) (h : b ≤ c) :
    mul unit a b ≤ mul unit a c :=
  chopRound_mono hu (Int.mul_nonneg ha hb) (mul_le_mul_of_nonneg_left h ha)

theorem mul_one (hu : 0 < unit) (a : ℤ) : mul unit a unit = a := chopRound_mul_unit hu a

theorem mul_le_self (hu : 0 < unit) (ha : 0 ≤ a) (hb : 0 ≤ b) (h : b ≤ unit) :
    mul unit a b ≤ a := by
  have := mul_mono hu ha hb h
  rwa [mul_one hu] at this

theorem self_le_mul (hu : 0 < unit) (ha : 0 ≤ a) (h : unit ≤ b) : a ≤ mul unit a b := by
  have := mul_mono hu ha hu.le h
  rwa [mul_one hu] at this

theorem quo_nonneg (hu : 0 < unit) (ha : 0 ≤ a) (hb : 0 ≤ b) : 0 ≤ quo unit a b :=
  chopRound_nonneg hu (Int.tdiv_nonneg (by positivity) hb)

theorem mul_nonpos (hu : 0 < unit) (ha : 0 ≤ a) (hb : b ≤ 0) : mul unit a b ≤ 0 :=
  chopRound_nonpos hu (mul_nonpos_of_nonneg_of_nonpos ha hb)

theorem quo_nonpos (hu : 0 < unit) (ha : 0 ≤ a) (hb : b ≤ 0) : quo unit a b ≤ 0 := by
  refine chopRound_nonpos hu ?_
  have hdiv : 0 ≤ (a * unit * unit).tdiv (-b) := Int.tdiv_nonneg (by positivity) (by omega)
  rw [Int.tdiv_neg] at hdiv
  omega

theorem quo_mono (hu : 0 < unit) {c : ℤ} (ha : 0 ≤ a) (h : a ≤ b) (hc : 0 < c) :
    quo unit a c ≤ quo unit b c := by
  have hb := ha.trans h
  refine chopRound_mono hu (Int.tdiv_nonneg (by positivity) hc.le) ?_
  rw [Int.tdiv_eq_ediv_of_nonneg (by positivity), Int.tdiv_eq_ediv_of_nonneg (by positivity)]
  exact Int.ediv_le_ediv hc (by gcongr)

theorem quo_le_one (hu : 0 < unit) (ha : 0 ≤ a) (hb : 0 < b) (h : a ≤ b) : quo unit a b ≤ unit := by
  refine chopRound_le hu (Int.tdiv_nonneg (by positivity) hb.le) ?_
  rw [Int.tdiv_eq_ediv_of_nonneg (by positivity)]
  apply Int.ediv_le_of_le_mul hb
  calc a * unit * unit ≤ b * unit * unit := by gcongr
    _ = unit * unit * b := by ring

theorem mul_ofInt (hu : 0 < unit) (n b : ℤ) : mul unit (ofInt unit n) b = n * b := by
  have h : ofInt unit n * b = n * b * unit := by
    unfold ofInt
    ring
  rw [mul, h, chopRound_mul_unit hu]

theorem truncate_quo_le (hu : 0 < unit) {r g : ℤ} (hr : 0 ≤ r) (hb : 0 < b) (h : r * unit ≤ g * b) :
    truncate unit (quo unit (ofInt unit r) b) ≤ g := by
  have hnum : 0 ≤ ofInt unit r * unit * unit := by
    unfold ofInt
    positivity
  have hbound : (ofInt unit r * unit * unit).tdiv b ≤ g * unit * unit := by
    rw [Int.tdiv_eq_ediv_of_nonneg hnum]
    apply Int.ediv_le_of_le_mul hb
    calc ofInt unit r * unit * unit = r * unit * (unit * unit) := by unfold ofInt; ring
      _ ≤ g * b * (unit * unit) := by gcongr
      _ = g * unit * unit * b := by ring
  have hquo : quo unit (ofInt unit r) b ≤ g * unit :=
    chopRound_le hu (Int.tdiv_nonneg hnum hb.le) hbound
  have hquo₀ : 0 ≤ quo unit (ofInt unit r) b := chopRound_nonneg hu (Int.tdiv_nonneg hnum hb.le)
  rw [truncate, Int.tdiv_eq_ediv_of_nonneg hquo₀]
  exact Int.ediv_le_of_le_mul hu hquo

theorem truncate_mul_le (hu : 0 < unit) {r g : ℤ} (hr : 0 ≤ r) (hg : 0 ≤ g) (hb : 0 < b)
    (hmax : b ≤ unit * unit) (h : g ≤ truncate unit (quo unit (ofInt unit r) b)) :
    truncate unit (mul unit (ofInt unit g) b) ≤ r := by
  have hnum : 0 ≤ ofInt unit r * unit * unit := by
    unfold ofInt
    positivity
  have hquo : g * unit ≤ quo unit (ofInt unit r) b := by
    have hquo₀ : 0 ≤ quo unit (ofInt unit r) b :=
      chopRound_nonneg hu (Int.tdiv_nonneg hnum hb.le)
    rw [truncate, Int.tdiv_eq_ediv_of_nonneg hquo₀] at h
    calc g * unit ≤ quo unit (ofInt unit r) b / unit * unit := by gcongr
      _ ≤ quo unit (ofInt unit r) b := Int.ediv_mul_le _ (ne_of_gt hu)
  have hround := two_mul_chopRound_le hu (Int.tdiv_nonneg hnum hb.le)
  have hdiv : (ofInt unit r * unit * unit).tdiv b * b ≤ ofInt unit r * unit * unit := by
    rw [Int.tdiv_eq_ediv_of_nonneg hnum]
    exact Int.ediv_mul_le _ (ne_of_gt hb)
  have hscaled : 2 * (g * b) * (unit * unit) ≤ (2 * r + 1) * unit * (unit * unit) := by
    calc 2 * (g * b) * (unit * unit) = 2 * (g * unit * unit) * b := by ring
      _ ≤ 2 * (quo unit (ofInt unit r) b * unit) * b := by gcongr
      _ ≤ (2 * (ofInt unit r * unit * unit).tdiv b + unit) * b := by gcongr; exact hround
      _ = 2 * ((ofInt unit r * unit * unit).tdiv b * b) + unit * b := by ring
      _ ≤ 2 * (ofInt unit r * unit * unit) + unit * (unit * unit) := by gcongr
      _ = (2 * r + 1) * unit * (unit * unit) := by unfold ofInt; ring
  have hprod : 2 * (g * b) ≤ (2 * r + 1) * unit :=
    le_of_mul_le_mul_right hscaled (Int.mul_pos hu hu)
  rw [mul_ofInt hu, truncate, Int.tdiv_eq_ediv_of_nonneg (Int.mul_nonneg hg hb.le)]
  refine Int.lt_add_one_iff.mp (Int.ediv_lt_of_lt_mul hu ?_)
  linarith

end Support.Decimal
