import Tabi.Precompile.Common
import Tabi.Support.JsonText

/-!
# Precompile — json

The json precompile takes a JSON text apart (`precompiles/json/json.go`): a member of an object as
bytes, as a list of bytes or as an unsigned integer of 256 bits, and an entry of an array as bytes.
-/

namespace Tabi.Precompile.Json

open Support JsonText GasM

variable {σ : Type}

inductive Method where
  | extractAsBytes | extractAsBytesList | extractAsUint256 | extractAsBytesFromArray
  deriving DecidableEq

structure Library where
  unmarshalObject : Bytes → Except Bytes (Bytes → Option Bytes)
  unmarshalArray : Bytes → Except Bytes (List Bytes)
  pack : Method → Value → Packed
  isValue : ∀ {bz : Bytes} {decoded : Bytes → Option Bytes} {key raw : Bytes},
    unmarshalObject bz = .ok decoded → decoded key = some raw → IsValue raw

variable (L : Library)

def orFail {α : Type} : Except Bytes α → GasM σ α
  | .ok a => pure a
  | .error e => fail e

def member (value : Option ℤ) (args : List Value) : GasM σ Bytes := do
  validateNonPayable value
  validateArgsLength args 2
  let bz ← assertArg Value.bytes? args 0
  let decoded ← orFail (L.unmarshalObject bz)
  let key ← assertArg Value.string? args 1
  let some result := decoded key | fail (Bytes.ofString "input does not contain key " ++ key)
  return result

def unquote (result : Bytes) : Bytes :=
  if 2 ≤ result.length ∧ result.head? = some quote ∧ result.getLast? = some quote then
    result.tail.dropLast
  else result

def extractAsBytes (value : Option ℤ) (args : List Value) : GasM σ Bytes := do
  let result ← member L value args
  orFail (L.pack .extractAsBytes (.bytes (unquote result)))

def extractAsBytesList (value : Option ℤ) (args : List Value) : GasM σ Bytes := do
  let result ← member L value args
  let decodedResult ← orFail (L.unmarshalArray result)
  orFail (L.pack .extractAsBytesList (.bytesList decodedResult))

def extractAsUint256 (value : Option ℤ) (args : List Value) : GasM σ ℤ := do
  let result ← member L value args
  let strValue := trim quote result
  let some value := intOfDecimal strValue
    | fail (Bytes.ofString "failed to convert " ++ strValue ++ Bytes.ofString " to big.Int")
  return value

def extractAsBytesFromArray (value : Option ℤ) (args : List Value) : GasM σ Bytes := do
  validateNonPayable value
  validateArgsLength args 2
  let bz ← assertArg Value.bytes? args 0
  let decoded ← orFail (L.unmarshalArray bz)
  if 2 ^ 16 < decoded.length then failText "input array is larger than 2^16"
  let some i := (← index args 1).uint16? | failText "index must be uint16"
  let some result := decoded[i.toNat]?
    | failText ("index " ++ toString i.toNat ++ " is out of bounds")
  orFail (L.pack .extractAsBytesFromArray (.bytes (unquote result)))

def bitLen (z : ℤ) : Nat := if z = 0 then 0 else z.natAbs.log2 + 1

def fillBytes (n : Nat) (z : ℤ) : Outcome Bytes :=
  if z.natAbs < 256 ^ n then .ok (beBytes n z.natAbs)
  else .error (.raised "math/big: buffer too small to fit value")

def execute (value : Option ℤ) (args : List Value) : Method → GasM σ Bytes
  | .extractAsBytes => extractAsBytes L value args
  | .extractAsBytesList => extractAsBytesList L value args
  | .extractAsUint256 => do
    let uint ← extractAsUint256 L value args
    if 256 < bitLen uint then failText "value does not fit in 32 bytes"
    ofOutcome (fillBytes 32 uint)
  | .extractAsBytesFromArray => extractAsBytesFromArray L value args

def Library.HasInteger (bz key : Bytes) (z : ℤ) : Prop :=
  ∃ decoded raw, L.unmarshalObject bz = .ok decoded ∧ decoded key = some raw ∧ Writes raw z

variable {L} {m : GasMeter} {w w' : World σ} {value : Option ℤ} {bz key : Bytes}

theorem Library.HasInteger.unique {z z' : ℤ} (h : L.HasInteger bz key z)
    (h' : L.HasInteger bz key z') : z = z' := by
  obtain ⟨decoded, raw, hdec, hraw, hz⟩ := h
  obtain ⟨decoded', raw', hdec', hraw', hz'⟩ := h'
  cases hdec.symm.trans hdec'
  cases hraw.symm.trans hraw'
  exact hz.unique (L.isValue hdec hraw) hz'

theorem orFail_eq_ok {α : Type} {x : Except Bytes α} {a : α} :
    (orFail x : GasM σ α) m w = .ok (a, w') ↔ x = .ok a ∧ w' = w := by
  cases x with
  | ok b =>
    constructor
    · intro h; cases h; exact ⟨rfl, rfl⟩
    · rintro ⟨h, rfl⟩; cases h; rfl
  | error e =>
    constructor
    · intro h; cases h
    · rintro ⟨h, -⟩; cases h

theorem validateNonPayable_iff :
    validateNonPayable value m w = .ok ((), w') ↔ (∀ v ∈ value, v = 0) ∧ w' = w := by
  have hany : value.any (· ≠ 0) = false ↔ ∀ v ∈ value, v = 0 := by
    cases value <;> simp
  rw [← hany, validateNonPayable]
  cases value.any (· ≠ 0) with
  | true => exact ⟨nofun, nofun⟩
  | false =>
    constructor
    · intro h; cases h; exact ⟨rfl, rfl⟩
    · rintro ⟨-, rfl⟩; rfl

theorem member_eq_ok {raw : Bytes} :
    member L value [.bytes bz, .string key] m w = .ok (raw, w') ↔
      (∀ v ∈ value, v = 0) ∧
        (∃ decoded, L.unmarshalObject bz = .ok decoded ∧ decoded key = some raw) ∧ w' = w := by
  have hargs : ∀ w, validateArgsLength [.bytes bz, .string key] 2 m w = .ok ((), (w : World σ)) :=
    fun _ => rfl
  have hbz : ∀ w, assertArg Value.bytes? [.bytes bz, .string key] 0 m w = .ok (bz, (w : World σ)) :=
    fun _ => rfl
  have hkey : ∀ w, assertArg Value.string? [.bytes bz, .string key] 1 m w =
      .ok (key, (w : World σ)) := fun _ => rfl
  unfold member
  rw [steps_iff]
  constructor
  · rintro ⟨_, w₁, hvalue, h⟩
    obtain ⟨hzero, rfl⟩ := validateNonPayable_iff.mp hvalue
    rw [bind_of_ok (hargs w₁), bind_of_ok (hbz w₁)] at h
    obtain ⟨decoded, w₂, hobject, hrest⟩ := steps_iff.mp h
    obtain ⟨hdec, rfl⟩ := orFail_eq_ok.mp hobject
    rw [bind_of_ok (hkey w₂)] at hrest
    cases hraw : decoded key with
    | none =>
      rw [hraw] at hrest
      cases hrest
    | some raw' =>
      rw [hraw] at hrest
      cases hrest
      exact ⟨hzero, ⟨decoded, hdec, hraw⟩, rfl⟩
  · rintro ⟨hzero, ⟨decoded, hdec, hraw⟩, rfl⟩
    refine ⟨(), w', validateNonPayable_iff.mpr ⟨hzero, rfl⟩, ?_⟩
    rw [bind_of_ok (hargs w'), bind_of_ok (hbz w'), bind_of_ok (orFail_eq_ok.mpr ⟨hdec, rfl⟩),
      bind_of_ok (hkey w'), hraw]
    rfl

theorem extractAsUint256_eq_ok {z : ℤ} :
    extractAsUint256 L value [.bytes bz, .string key] m w = .ok (z, w') ↔
      (∀ v ∈ value, v = 0) ∧ L.HasInteger bz key z ∧ w' = w := by
  unfold extractAsUint256
  rw [steps_iff]
  constructor
  · rintro ⟨raw, w₁, hmember, h⟩
    obtain ⟨hzero, ⟨decoded, hdec, hraw⟩, rfl⟩ := member_eq_ok.mp hmember
    cases hread : intOfDecimal (trim quote raw) with
    | none =>
      simp only [hread] at h
      cases h
    | some z' =>
      simp only [hread] at h
      cases h
      exact ⟨hzero, ⟨decoded, raw, hdec, hraw,
        (intOfDecimal_trim_iff (L.isValue hdec hraw)).mp hread⟩, rfl⟩
  · rintro ⟨hzero, ⟨decoded, raw, hdec, hraw, hwrites⟩, rfl⟩
    refine ⟨raw, w', member_eq_ok.mpr ⟨hzero, ⟨decoded, hdec, hraw⟩, rfl⟩, ?_⟩
    have hread := (intOfDecimal_trim_iff (L.isValue hdec hraw)).mpr hwrites
    simp only [hread]
    rfl

theorem bitLen_le_iff {z : ℤ} : bitLen z ≤ 256 ↔ z.natAbs < 2 ^ 256 := by
  unfold bitLen
  split
  · rename_i h
    subst h
    exact ⟨fun _ => by decide, fun _ => by decide⟩
  · rename_i h
    have hne : z.natAbs ≠ 0 := Int.natAbs_ne_zero.mpr h
    rw [← Nat.log2_lt hne]
    omega

theorem execute_extractAsUint256_eq_ok {out : Bytes} :
    execute L value [.bytes bz, .string key] .extractAsUint256 m w = .ok (out, w') ↔
      (∀ v ∈ value, v = 0) ∧
        (∃ z, L.HasInteger bz key z ∧ z.natAbs < 2 ^ 256 ∧ out = beBytes 32 z.natAbs) ∧
        w' = w := by
  have hpow : (256 : Nat) ^ 32 = 2 ^ 256 := by decide
  show (extractAsUint256 L value [.bytes bz, .string key] >>= fun uint => _) m w = _ ↔ _
  rw [steps_iff]
  constructor
  · rintro ⟨z, w₁, hz, h⟩
    obtain ⟨hzero, hhas, rfl⟩ := extractAsUint256_eq_ok.mp hz
    split at h
    · cases h
    · rename_i hbits
      obtain ⟨hfill, rfl⟩ := ofOutcome_eq_ok.mp h
      have hlt := bitLen_le_iff.mp (not_lt.mp hbits)
      rw [fillBytes, hpow, if_pos hlt] at hfill
      cases hfill
      exact ⟨hzero, ⟨z, hhas, hlt, rfl⟩, rfl⟩
  · rintro ⟨hzero, ⟨z, hhas, hlt, rfl⟩, rfl⟩
    refine ⟨z, w', extractAsUint256_eq_ok.mpr ⟨hzero, hhas, rfl⟩, ?_⟩
    rw [if_neg (not_lt.mpr (bitLen_le_iff.mpr hlt))]
    refine ofOutcome_eq_ok.mpr ⟨?_, rfl⟩
    rw [fillBytes, hpow, if_pos hlt]

theorem beNat_magnitude {z : ℤ} (h : z.natAbs < 2 ^ 256) :
    beNat (beBytes 32 z.natAbs) = z.natAbs := by
  have hpow : (256 : Nat) ^ 32 = 2 ^ 256 := by decide
  rw [beNat_beBytes, hpow, Nat.mod_eq_of_lt h]

/-- **Faithful extraction.**  For every text and key: a call that succeeds returns 32 bytes that
spell the integer at the key, one between zero and `2 ^ 256 - 1`, exactly unless the call has no
value and the integer at the key is negative and of at most 256 bits. -/
theorem extractAsUint256_faithful_iff :
    (∀ out w', execute L value [.bytes bz, .string key] .extractAsUint256 m w = .ok (out, w') →
      ∃ z, L.HasInteger bz key z ∧ 0 ≤ z ∧ z < 2 ^ 256 ∧ out.length = 32 ∧ (beNat out : ℤ) = z) ↔
    ((∀ v ∈ value, v = 0) → ∀ z, L.HasInteger bz key z → z.natAbs < 2 ^ 256 → 0 ≤ z) := by
  constructor
  · intro h hzero z hhas hlt
    obtain ⟨z', hhas', hnonneg, -⟩ :=
      h _ w (execute_extractAsUint256_eq_ok.mpr ⟨hzero, ⟨z, hhas, hlt, rfl⟩, rfl⟩)
    exact hhas.unique hhas' ▸ hnonneg
  · intro h out w' hexec
    obtain ⟨hzero, ⟨z, hhas, hlt, rfl⟩, -⟩ := execute_extractAsUint256_eq_ok.mp hexec
    have hnonneg := h hzero z hhas hlt
    refine ⟨z, hhas, hnonneg, by omega, length_beBytes 32 _, ?_⟩
    rw [beNat_magnitude hlt]
    omega

def minusFive : Library where
  unmarshalObject bz :=
    if bz = Bytes.ascii "\x7b\"key\":-5\x7d" then
      .ok fun k => if k = Bytes.ascii "key" then some (Bytes.ascii "-5") else none
    else .error (Bytes.ascii "unexpected end of JSON input")
  unmarshalArray _ := .error (Bytes.ascii "unexpected end of JSON input")
  pack _ _ := .ok []
  isValue := by
    intro bz decoded key raw hdec hraw
    split at hdec
    · cases hdec
      simp only [Option.ite_none_right_eq_some] at hraw
      obtain ⟨-, hraw⟩ := hraw
      cases hraw
      exact .other (by decide) (by decide)
    · cases hdec

theorem extractAsUint256_minusFive :
    execute minusFive none [.bytes (Bytes.ascii "\x7b\"key\":-5\x7d"), .string (Bytes.ascii "key")]
        .extractAsUint256 ⟨0, id⟩ (⟨0, (), []⟩ : World Unit) =
      .ok (beBytes 32 5, ⟨0, (), []⟩) ∧
    minusFive.HasInteger (Bytes.ascii "\x7b\"key\":-5\x7d") (Bytes.ascii "key") (-5) ∧
    (beNat (beBytes 32 5) : ℤ) ≠ -5 := by
  have hfive : Numeral (Bytes.ascii "-5") (-5) :=
    Numeral.minus (show Digits (Bytes.ascii "5") by decide)
  have hhas : minusFive.HasInteger (Bytes.ascii "\x7b\"key\":-5\x7d") (Bytes.ascii "key") (-5) :=
    ⟨fun k => if k = Bytes.ascii "key" then some (Bytes.ascii "-5") else none, Bytes.ascii "-5",
      rfl, rfl, .number hfive⟩
  refine ⟨execute_extractAsUint256_eq_ok.mpr ⟨nofun, ⟨-5, hhas, by decide, rfl⟩, rfl⟩, hhas, ?_⟩
  omega

end Tabi.Precompile.Json
