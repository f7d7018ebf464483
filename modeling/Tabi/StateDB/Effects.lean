import Tabi.StateDB.Keeper

/-!
# StateDB — what the keeper calls write

The first byte of a key says which part of the EVM store it belongs to.
-/

namespace Tabi.StateDB

open Support

variable {β γ : Type}

def heads (bs : List UInt8) : Set Bytes := {key | ∃ b ∈ bs, key.head? = some b}

variable {key : Bytes} {bs : List UInt8}

@[simp] theorem cons_mem_heads {b : UInt8} : b :: key ∈ heads bs ↔ b ∈ bs := by
  simp [heads]

theorem heads_mono {bs' : List UInt8} (h : bs ⊆ bs') : heads bs ⊆ heads bs' :=
  fun _ ⟨b, hb, hkey⟩ => ⟨b, h hb, hkey⟩

theorem evm_of_within {w : Writes β γ} (h : w.evm.Within (heads bs)) (hkey : key ∉ heads bs)
    (v : Stores β γ) : (w • v).evm key = v.evm key :=
  h.smul_apply hkey v.evm

theorem part_injective (b : UInt8) : Function.Injective fun a : Address => b :: a.bytes :=
  fun _ _ e => FixedBytes.ext (List.tail_eq_of_cons_eq e)

theorem storage_injective :
    Function.Injective fun i : Address × Hash => stateKey i.1 ++ i.2.bytes := by
  rintro ⟨a, key⟩ ⟨a', key'⟩ e
  have hlen : (stateKey a).length = (stateKey a').length := by
    simp [stateKey, a.length_eq, a'.length_eq]
  obtain ⟨ha, hkey⟩ := List.append_inj e hlen
  exact Prod.ext (part_injective 0x03 ha) (FixedBytes.ext hkey)

theorem set_within (b : UInt8) (key val : Bytes) : (Patch.set (b :: key) val).Within (heads [b]) :=
  Patch.within_set (by simp) val

theorem setAddressMapping_within (k : Keepers β γ) (v : Stores β γ) (t : AccAddress) (a : Address) :
    (setAddressMapping k v t a).writes.evm.Within (heads [0x01, 0x02]) :=
  (Patch.within_set (by simp [tabiAddressToEVMAddressKey]) _).mul
    (Patch.within_set (by simp [evmAddressToTabiAddressKey]) _)

theorem deleteAddressMapping_within (t : AccAddress) (a : Address) :
    (deleteAddressMapping t a : Effect β γ).writes.evm.Within (heads [0x01, 0x02]) :=
  (Patch.within_delete (by simp [tabiAddressToEVMAddressKey])).mul
    (Patch.within_delete (by simp [evmAddressToTabiAddressKey]))

theorem setNonce_within (a : Address) (nonce : UInt64) :
    (setNonce a nonce : Effect β γ).writes.evm.Within (heads [0x0a]) :=
  set_within 0x0a a.bytes _

theorem setState_within (a : Address) (key val : Hash) :
    (setState a key val : Effect β γ).writes.evm.Within (heads [0x03]) := by
  show (if val = emptyHash then Patch.delete _ else Patch.set _ _).Within _
  have hkey : stateKey a ++ key.bytes ∈ heads [0x03] := by simp [stateKey]
  split
  · exact Patch.within_delete hkey
  · exact Patch.within_set hkey _

theorem codeWrites_within (a : Address) (code hash : Bytes) :
    (Patch.set (codeHashKey a) hash * (Patch.set (codeSizeKey a) (beBytes 8 code.length) *
      Patch.set (codeKey a) code)).Within (heads [0x07, 0x08, 0x09]) :=
  (Patch.within_set (by simp [codeHashKey]) _).mul
    ((Patch.within_set (by simp [codeSizeKey]) _).mul (Patch.within_set (by simp [codeKey]) _))

theorem setCode_within (k : Keepers β γ) (v : Stores β γ) (a : Address) (code : Bytes) :
    (setCode k v a code).writes.evm.Within (heads [0x01, 0x02, 0x07, 0x08, 0x09]) := by
  have hcode := codeWrites_within a code (k.keccak code).bytes
  unfold setCode
  dsimp only
  split
  · exact hcode.mono (heads_mono (by decide))
  · exact ((setAddressMapping_within k _ _ a).mono (heads_mono (by decide))).mul
      (hcode.mono (heads_mono (by decide)))

theorem deleteIfExists_within {v : Stores β γ} (hkey : key ∈ heads bs) :
    (deleteIfExists v key).Within (heads bs) := by
  unfold deleteIfExists
  split
  · exact Patch.within_delete hkey
  · exact Patch.within_one

theorem clearAccountState_within (v : Stores β γ) (a : Address) :
    (clearAccountState v a).writes.evm.Within (heads [0x03, 0x07, 0x08, 0x09, 0x0a]) := by
  have hstate : ∀ key, (stateKey a).isPrefixOf key = true →
      key ∈ heads [0x03, 0x07, 0x08, 0x09, 0x0a] := by
    intro key hkey
    obtain ⟨rest, rfl⟩ := List.isPrefixOf_iff_prefix.mp hkey
    simp [stateKey]
  exact ((((deleteIfExists_within (by simp [nonceKey])).mul
    (deleteIfExists_within (by simp [codeHashKey]))).mul
    (deleteIfExists_within (by simp [codeSizeKey]))).mul
    (deleteIfExists_within (by simp [codeKey]))).mul (Patch.within_deleteAll hstate)

def accountKey (a : Address) (key : Bytes) : Bool :=
  key = nonceKey a || (key = codeHashKey a || (key = codeSizeKey a || (key = codeKey a ||
    (stateKey a).isPrefixOf key)))

def without (m : Store Bytes Bytes) (p : Bytes → Bool) : Store Bytes Bytes :=
  fun key => if p key = true then none else m key

theorem deleteIfExists_without (v : Stores β γ) (k : Bytes) (p : Bytes → Bool) :
    deleteIfExists v k • without v.evm p = without v.evm fun key => key = k || p key := by
  funext key
  show _ = if (decide (key = k) || p key) = true then none else v.evm key
  unfold deleteIfExists
  by_cases e : key = k
  · subst e
    rw [decide_eq_true rfl, Bool.true_or, if_pos rfl]
    split
    · rw [Patch.delete_smul_same]
    · rename_i habsent
      rw [one_smul, without, Option.not_isSome_iff_eq_none.mp habsent, ite_self]
  · rw [decide_eq_false e, Bool.false_or]
    split
    · rw [Patch.delete_smul_other e, without]
    · rw [one_smul, without]

theorem clearAccountState_evm (v : Stores β γ) (a : Address) :
    ((clearAccountState v a).writes • v).evm = without v.evm (accountKey a) := by
  have hstorage : (Patch.deleteAll (stateKey a).isPrefixOf : Patch Bytes Bytes) • v.evm =
      without v.evm (stateKey a).isPrefixOf := by
    funext key
    rw [Patch.smul_apply, without]
    show (if _ then some none else none).getD (v.evm key) = _
    split <;> rfl
  show (deleteIfExists v (nonceKey a) * deleteIfExists v (codeHashKey a) *
      deleteIfExists v (codeSizeKey a) * deleteIfExists v (codeKey a) *
      Patch.deleteAll (stateKey a).isPrefixOf) • v.evm = _
  simp only [mul_smul, hstorage, deleteIfExists_without]
  rfl

theorem without_without (m : Store Bytes Bytes) (p q : Bytes → Bool) :
    without (without m p) q = without m fun key => p key || q key := by
  funext key
  by_cases hq : q key = true
  · simp [without, hq]
  · simp [without, hq]

@[simp] theorem ofEvm_smul_evm (p : Patch Bytes Bytes) (v : Stores β γ) :
    ((Writes.ofEvm p : Writes β γ) • v).evm = p • v.evm := rfl

theorem setAddressMapping_evm (k : Keepers β γ) (v s : Stores β γ) (t : AccAddress) (a : Address)
    (key : Bytes) : ((setAddressMapping k v t a).writes • s).evm key =
      if key = tabiAddressToEVMAddressKey t then some a.bytes
      else if key = evmAddressToTabiAddressKey a then some t else s.evm key := by
  show ((Patch.set _ _ * Patch.set _ _) • s.evm) key = _
  rw [mul_smul, Patch.set_smul, Patch.set_smul]

theorem codeWrites_evm (v : Stores β γ) (a : Address) (code hash key : Bytes) :
    ((Writes.ofEvm (Patch.set (codeHashKey a) hash * (Patch.set (codeSizeKey a)
      (beBytes 8 code.length) * Patch.set (codeKey a) code)) : Writes β γ) • v).evm key =
      if key = codeHashKey a then some hash
      else if key = codeSizeKey a then some (beBytes 8 code.length)
      else if key = codeKey a then some code else v.evm key := by
  rw [ofEvm_smul_evm, mul_smul, mul_smul, Patch.set_smul, Patch.set_smul, Patch.set_smul]

theorem setCode_evm (k : Keepers β γ) (v : Stores β γ) (a : Address) (code key : Bytes) :
    ((setCode k v a code).writes • v).evm key =
      if key = codeHashKey a then some (k.keccak code).bytes
      else if key = codeSizeKey a then some (beBytes 8 code.length)
      else if key = codeKey a then some code
      else if getTabiAddress v a = none ∧ (key = tabiAddressToEVMAddressKey a.bytes ∨
        key = evmAddressToTabiAddressKey a) then some a.bytes
      else v.evm key := by
  unfold setCode
  dsimp only
  generalize hw : (Writes.ofEvm (Patch.set (codeHashKey a) (k.keccak code).bytes *
    (Patch.set (codeSizeKey a) (beBytes 8 code.length) * Patch.set (codeKey a) code)) :
      Writes β γ) = w
  have hread := codeWrites_evm v a code (k.keccak code).bytes
  rw [hw] at hread
  have hassoc : getTabiAddress (w • v) a = getTabiAddress v a := by
    rw [getTabiAddress, hread]
    simp [codeHashKey, codeSizeKey, codeKey, evmAddressToTabiAddressKey, getTabiAddress]
  rw [getTabiAddressOrDefault, hassoc]
  cases h : getTabiAddress v a with
  | some t =>
    dsimp only
    rw [hread]
    simp
  | none =>
    dsimp only
    rw [mul_smul, setAddressMapping_evm, hread]
    simp only [Option.getD_none, true_and]
    -- the first byte of a key tells the two parts apart
    by_cases ht : key = tabiAddressToEVMAddressKey a.bytes
    · simp [ht, tabiAddressToEVMAddressKey, codeHashKey, codeSizeKey, codeKey]
    · by_cases he : key = evmAddressToTabiAddressKey a
      · simp [he, evmAddressToTabiAddressKey, codeHashKey, codeSizeKey, codeKey,
          tabiAddressToEVMAddressKey]
      · simp [ht, he]

def storedCode (v : Stores β γ) (a : Address) : Bytes × Nat × Option Bytes :=
  (getCode v a, getCodeSize v a, v.evm (codeHashKey a))

def withCode (k : Keepers β γ) (code : Bytes) : Bytes × Nat × Option Bytes :=
  (code, code.length % 256 ^ 8, some (k.keccak code).bytes)

theorem storedCode_setCode (k : Keepers β γ) (v : Stores β γ) (a : Address) (code : Bytes) :
    storedCode ((setCode k v a code).writes • v) a = withCode k code := by
  unfold storedCode withCode getCode getCodeSize
  simp [setCode_evm, codeHashKey, codeSizeKey, codeKey, beNat_beBytes]

variable {k : Keepers β γ} {v : Stores β γ} {a : Address} {code : Bytes}

theorem storedCode_setCode_other {b : Address} (hb : b ≠ a) :
    storedCode ((setCode k v a code).writes • v) b = storedCode v b := by
  have hbytes : b.bytes ≠ a.bytes := fun h => hb (FixedBytes.ext h)
  unfold storedCode getCode getCodeSize
  simp [setCode_evm, codeHashKey, codeSizeKey, codeKey, tabiAddressToEVMAddressKey,
    evmAddressToTabiAddressKey, hbytes]

theorem getTabiAddress_setCode_or (b : Address) :
    getTabiAddress ((setCode k v a code).writes • v) b =
      (getTabiAddress v b).or (if b = a then some a.bytes else none) := by
  rw [getTabiAddress, setCode_evm]
  simp only [codeHashKey, codeSizeKey, codeKey, tabiAddressToEVMAddressKey,
    evmAddressToTabiAddressKey, getTabiAddress]
  by_cases e : b = a
  · subst e
    by_cases hb : v.evm (0x01 :: b.bytes) = none
    · simp [hb]
    · obtain ⟨t, ht⟩ := Option.ne_none_iff_exists'.mp hb
      simp [ht]
  · have hbytes : b.bytes ≠ a.bytes := fun h => e (FixedBytes.ext h)
    simp [hbytes, e]

theorem getTabiAddress_setCode_ne_none :
    getTabiAddress ((setCode k v a code).writes • v) a ≠ none := by
  simp [getTabiAddress_setCode_or]

theorem getTabiAddress_setCode (ha : getTabiAddress v a ≠ none) (b : Address) :
    getTabiAddress ((setCode k v a code).writes • v) b = getTabiAddress v b := by
  rw [getTabiAddress_setCode_or]
  by_cases e : b = a
  · obtain ⟨t, ht⟩ := Option.ne_none_iff_exists'.mp ha
    rw [e, ht, Option.some_or]
  · rw [if_neg e, Option.or_none]

theorem setCode_evm_back (t : AccAddress) :
    ((setCode k v a code).writes • v).evm (tabiAddressToEVMAddressKey t) =
      if getTabiAddress v a = none ∧ t = a.bytes then some a.bytes
      else v.evm (tabiAddressToEVMAddressKey t) := by
  rw [setCode_evm]
  simp [codeHashKey, codeSizeKey, codeKey, tabiAddressToEVMAddressKey, evmAddressToTabiAddressKey]

theorem getEVMAddress_setCode (ha : getTabiAddress v a ≠ none) (t : AccAddress) :
    getEVMAddress ((setCode k v a code).writes • v) t = getEVMAddress v t := by
  rw [getEVMAddress, setCode_evm_back, if_neg fun h => ha h.1, getEVMAddress]

end Tabi.StateDB
