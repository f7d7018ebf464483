import Tabi.Support.Bytes
import Tabi.Support.Outcome
import Mathlib.Data.Int.Basic
import Mathlib.Data.List.ReduceOption

/-!
# Chain — amounts, addresses, events

The value types the modules share.
-/

namespace Tabi

open Support

abbrev Address := FixedBytes 20

abbrev Hash := FixedBytes 32

abbrev AccAddress := Bytes

def emptyHash : Hash := FixedBytes.zero 32

namespace SdkInt

def maxBitLen : Nat := 256

def Fits (z : ℤ) : Prop := z.natAbs < 2 ^ maxBitLen

instance (z : ℤ) : Decidable (Fits z) := inferInstanceAs (Decidable (_ < _))

def ofBig (z : ℤ) : Outcome ℤ := if Fits z then .ok z else .error .integerOverflow

def add (a b : ℤ) : Outcome ℤ := ofBig (a + b)

def sub (a b : ℤ) : Outcome ℤ := ofBig (a - b)

def mul (a b : ℤ) : Outcome ℤ := ofBig (a * b)

variable {z r a b : ℤ} {zs : List ℤ}

theorem ofBig_eq_ok : ofBig z = .ok r ↔ Fits z ∧ r = z := by
  unfold ofBig
  split
  · rename_i h
    exact ⟨fun e => ⟨h, (Except.ok.inj e).symm⟩, fun e => by rw [e.2]⟩
  · rename_i h
    exact ⟨nofun, fun e => absurd e.1 h⟩

theorem ofBig_eq_error {p : Panic} (h : ofBig z = .error p) : p = .integerOverflow := by
  unfold ofBig at h
  split at h
  · cases h
  · cases h
    rfl

theorem add_eq_ok : add a b = .ok r ↔ Fits (a + b) ∧ r = a + b := ofBig_eq_ok

theorem sub_eq_ok : sub a b = .ok r ↔ Fits (a - b) ∧ r = a - b := ofBig_eq_ok

def addPtr (a : ℤ) : Option ℤ → Outcome ℤ
  | none => .error .nilDereference
  | some b => add a b

def subPtr : Option ℤ → Option ℤ → Outcome ℤ
  | some a, some b => sub a b
  | _, _ => .error .nilDereference

def negPtr : Option ℤ → Outcome ℤ
  | none => .error .nilDereference
  | some a => .ok (-a)

def isNegativePtr : Option ℤ → Outcome Bool
  | none => .error .nilDereference
  | some a => .ok (a < 0)

theorem fits_sub (ha : 0 ≤ a) (hfa : Fits a) (hb : 0 ≤ b) (hfb : Fits b) : Fits (a - b) := by
  unfold Fits at *
  omega

def FitsAlong (z : ℤ) (zs : List ℤ) : Prop := ∀ n, Fits (z + (zs.take n).sum)

theorem fitsAlong_iff : FitsAlong z zs ↔ ∀ n ≤ zs.length, Fits (z + (zs.take n).sum) := by
  refine ⟨fun h n _ => h n, fun h n => ?_⟩
  rcases Nat.lt_or_ge zs.length n with hn | hn
  · rw [List.take_of_length_le hn.le]
    simpa using h zs.length le_rfl
  · exact h n hn

instance (z : ℤ) (zs : List ℤ) : Decidable (FitsAlong z zs) :=
  decidable_of_iff _ fitsAlong_iff.symm

theorem fitsAlong_cons : FitsAlong z (a :: zs) ↔ Fits z ∧ FitsAlong (z + a) zs := by
  constructor
  · intro h
    refine ⟨by simpa using h 0, fun n => ?_⟩
    simpa [add_assoc] using h (n + 1)
  · rintro ⟨h₀, h⟩ n
    cases n with
    | zero => simpa using h₀
    | succ n => simpa [add_assoc] using h n

theorem FitsAlong.sum (h : FitsAlong z zs) : Fits (z + zs.sum) := by
  simpa using h zs.length

def sumPtrs (z : ℤ) (l : List (Option ℤ)) : Outcome ℤ := l.foldlM addPtr z

theorem sumPtrs_append (z : ℤ) (l l' : List (Option ℤ)) :
    sumPtrs z (l ++ l') = sumPtrs z l >>= fun z => sumPtrs z l' := List.foldlM_append

theorem sumPtrs_eq_ok {l : List (Option ℤ)} (hz : Fits z) :
    sumPtrs z l = .ok r ↔
      none ∉ l ∧ FitsAlong z l.reduceOption ∧ r = z + l.reduceOption.sum := by
  induction l generalizing z with
  | nil =>
    rw [List.reduceOption_nil, List.sum_nil, add_zero]
    constructor
    · intro h
      cases h
      exact ⟨List.not_mem_nil, fun n => by simpa using hz, rfl⟩
    · rintro ⟨-, -, rfl⟩
      rfl
  | cons a l ih =>
    rw [sumPtrs, List.foldlM_cons, bind_eq_ok]
    cases a with
    | none =>
      constructor
      · rintro ⟨_, h, -⟩
        cases h
      · rintro ⟨h, -⟩
        exact absurd List.mem_cons_self h
    | some a =>
      rw [List.reduceOption_cons_of_some, fitsAlong_cons, List.sum_cons, ← add_assoc]
      constructor
      · rintro ⟨z', h, hl⟩
        obtain ⟨hfits, rfl⟩ := add_eq_ok.mp h
        obtain ⟨hnone, halong, hr⟩ := (ih hfits).mp hl
        exact ⟨by simpa using hnone, ⟨hz, halong⟩, hr⟩
      · rintro ⟨hnone, ⟨-, halong⟩, hr⟩
        have hfits : Fits (z + a) := by simpa using halong 0
        exact ⟨z + a, add_eq_ok.mpr ⟨hfits, rfl⟩,
          (ih hfits).mpr ⟨by simpa using hnone, halong, hr⟩⟩

theorem sumPtrs_eq_error {l : List (Option ℤ)} {p : Panic} (hl : none ∉ l)
    (h : sumPtrs z l = .error p) : p = .integerOverflow := by
  induction l generalizing z with
  | nil => cases h
  | cons a l ih =>
    rw [sumPtrs, List.foldlM_cons, Outcome.bind_eq_error] at h
    cases a with
    | none => exact absurd List.mem_cons_self hl
    | some a =>
      rcases h with h | ⟨z', -, h⟩
      · exact ofBig_eq_error h
      · exact ih (fun hn => hl (List.mem_cons_of_mem _ hn)) h

end SdkInt

def atabiToWeiMultiplier : ℤ := 1000000000000

/-- `SplitAtabiWeiAmount`: `big.Int.Mod` is the Euclidean remainder, `big.Int.Quo` the quotient
rounded towards zero. -/
def splitAtabiWeiAmount (amt : ℤ) : Outcome (ℤ × ℤ) := do
  let wei := amt % atabiToWeiMultiplier
  let atabi := amt.tdiv atabiToWeiMultiplier
  let atabi ← SdkInt.ofBig atabi
  let wei ← SdkInt.ofBig wei
  return (atabi, wei)

theorem splitAtabiWeiAmount_ok {amt : ℤ} (h : SdkInt.Fits amt) :
    splitAtabiWeiAmount amt =
      .ok (amt.tdiv atabiToWeiMultiplier, amt % atabiToWeiMultiplier) := by
  have hpos : (0 : ℤ) < atabiToWeiMultiplier := by decide
  have hwei : SdkInt.Fits (amt % atabiToWeiMultiplier) := by
    have h₀ := Int.emod_nonneg amt (ne_of_gt hpos)
    have h₁ := Int.emod_lt_of_pos amt hpos
    have hm : atabiToWeiMultiplier = 1000000000000 := rfl
    unfold SdkInt.Fits SdkInt.maxBitLen
    omega
  have hatabi : SdkInt.Fits (amt.tdiv atabiToWeiMultiplier) := by
    unfold SdkInt.Fits at *
    exact lt_of_le_of_lt (Int.natAbs_tdiv_le_natAbs amt _) h
  exact bind_eq_ok.mpr ⟨_, SdkInt.ofBig_eq_ok.mpr ⟨hatabi, rfl⟩,
    bind_eq_ok.mpr ⟨_, SdkInt.ofBig_eq_ok.mpr ⟨hwei, rfl⟩, rfl⟩⟩

theorem splitAtabiWeiAmount_value {amt : ℤ} {p : ℤ × ℤ} (hamt : 0 ≤ amt)
    (h : splitAtabiWeiAmount amt = .ok p) : p.1 * atabiToWeiMultiplier + p.2 = amt := by
  unfold splitAtabiWeiAmount at h
  obtain ⟨a, ha, h⟩ := bind_eq_ok.mp h
  obtain ⟨w, hw, h⟩ := bind_eq_ok.mp h
  obtain ⟨-, rfl⟩ := SdkInt.ofBig_eq_ok.mp ha
  obtain ⟨-, rfl⟩ := SdkInt.ofBig_eq_ok.mp hw
  cases h
  rw [Int.tdiv_eq_ediv_of_nonneg hamt]
  exact Int.ediv_mul_add_emod amt atabiToWeiMultiplier

structure Event where
  type : Bytes
  attributes : List (Bytes × Bytes)
  deriving DecidableEq

def coinbaseAddressPrefix : Bytes := Bytes.ofString "evm_coinbase"

/-- `GetCoinbaseAddress`: the account that collects the fees of one transaction. -/
def getCoinbaseAddress (txIdx : UInt64) : AccAddress :=
  coinbaseAddressPrefix ++ beBytes 8 txIdx.toNat

end Tabi
