import Tabi.Association.Address
import Tabi.StateDB.Keeper

/-!
# Association — the helper

`AssociationHelper` (`utils/helpers/associate.go`): an EVM address is associated with the Cosmos
account of the same key, and what was sent to the *cast* account, the Cosmos account with the bytes
of the EVM address, is moved to the true one.
-/

namespace Tabi.Association

open Support StateDB

structure Coin where
  denom : Bytes
  amount : ℤ
  deriving DecidableEq

abbrev Coins := List Coin

def Coins.isZero (coins : Coins) : Bool := coins.all fun c => c.amount = 0

def Coins.amountOf (coins : Coins) (denom : Bytes) : ℤ :=
  ((coins.find? fun c => c.denom = denom).map Coin.amount).getD 0

theorem Coins.amountOf_of_isZero {coins : Coins} (h : coins.isZero = true) (denom : Bytes) :
    coins.amountOf denom = 0 := by
  unfold amountOf
  cases hc : coins.find? fun c => c.denom = denom with
  | none => rfl
  | some c => simpa using List.all_eq_true.mp h c (List.mem_of_find?_eq_some hc)

structure Keepers (β γ : Type) extends StateDB.Keepers β γ where
  crypto : Crypto
  spendableCoins : Stores β γ → AccAddress → Coins
  lockedCoins : Stores β γ → AccAddress → Coins
  sendCoins : Stores β γ → AccAddress → AccAddress → Coins → BankResult β γ
  /-- `GetAccount(addr).GetPubKey()`, which panics without an account. -/
  getPubKey : Store Bytes Bytes → AccAddress → Outcome (Option Bytes)
  /-- `SetAccount` of the account with the key set. -/
  setPubKey : Store Bytes Bytes → AccAddress → Bytes → Except String (Patch Bytes Bytes)
  removeAccount : Store Bytes Bytes → AccAddress → Patch Bytes Bytes

variable {β γ : Type} (K : Keepers β γ)

def afterBank (v : Stores β γ) (r : BankResult β γ) : Fallible (Stores β γ) :=
  match r with
  | .error e => .error (.err e)
  | .ok r => .ok (Writes.ofBank r.1 • v)

def afterAcc (v : Stores β γ) (p : Patch Bytes Bytes) : Stores β γ := (⟨1, p, 1⟩ : Writes β γ) • v

def mapAddress (v : Stores β γ) (tabiAddr : AccAddress) (evmAddr : Address) : Stores β γ :=
  (setAddressMapping K.toKeepers v tabiAddr evmAddr).writes • v

def migrateCoins (v : Stores β γ) (castAddr tabiAddr : AccAddress) : Fallible (Stores β γ) :=
  if (K.spendableCoins v castAddr).isZero then .ok v
  else afterBank v (K.sendCoins v castAddr tabiAddr (K.spendableCoins v castAddr))

def migrateWei (v : Stores β γ) (castAddr tabiAddr : AccAddress) : Fallible (Stores β γ) :=
  if K.bank.getWeiBalance v castAddr = 0 then .ok v
  else afterBank v
    (K.bank.sendCoinsAndWei v castAddr tabiAddr 0 (K.bank.getWeiBalance v castAddr))

def removeCast (v : Stores β γ) (castAddr : AccAddress) : Stores β γ :=
  if (K.lockedCoins v castAddr).isZero then afterAcc v (K.removeAccount v.acc castAddr) else v

def migrateBalance (v : Stores β γ) (evmAddr : Address) (tabiAddr : AccAddress) :
    Fallible (Stores β γ) := do
  let v ← migrateCoins K v evmAddr.bytes tabiAddr
  let v ← migrateWei K v evmAddr.bytes tabiAddr
  return removeCast K v evmAddr.bytes

def setMissingPubKey (v : Stores β γ) (tabiAddr : AccAddress) (pubkey : Bytes) :
    Fallible (Stores β γ) := do
  match ← Fallible.ofOutcome (K.getPubKey v.acc tabiAddr) with
  | some _ => return v
  | none =>
    let p ← (K.setPubKey v.acc tabiAddr pubkey).mapError .err
    return afterAcc v p

def associateAddresses (v : Stores β γ) (tabiAddr : AccAddress) (evmAddr : Address)
    (pubkey : Bytes) : Fallible (Stores β γ) := do
  let v := mapAddress K v tabiAddr evmAddr
  let v ← setMissingPubKey K v tabiAddr pubkey
  migrateBalance K v evmAddr tabiAddr

theorem evmKey_ne_tabiKey (a : Address) (t : AccAddress) :
    evmAddressToTabiAddressKey a ≠ tabiAddressToEVMAddressKey t :=
  fun e => absurd (List.head_eq_of_cons_eq e) (by decide)

theorem evmKey_injective : Function.Injective evmAddressToTabiAddressKey :=
  fun _ _ e => FixedBytes.ext (List.tail_eq_of_cons_eq e)

theorem tabiKey_injective : Function.Injective tabiAddressToEVMAddressKey :=
  fun _ _ e => List.tail_eq_of_cons_eq e

theorem mapAddress_evm (v : Stores β γ) (t : AccAddress) (a : Address) :
    (mapAddress K v t a).evm = Patch.set (tabiAddressToEVMAddressKey t) a.bytes •
      (Patch.set (evmAddressToTabiAddressKey a) t • v.evm) := mul_smul _ _ _

theorem getTabiAddress_mapAddress (v : Stores β γ) (t : AccAddress) (a : Address) :
    getTabiAddress (mapAddress K v t a) =
      Function.update (getTabiAddress v) a (some t) := by
  funext b
  rw [getTabiAddress, mapAddress_evm, Patch.set_smul_other (evmKey_ne_tabiKey b t)]
  by_cases e : b = a
  · rw [e, Patch.set_smul_same, Function.update_self]
  · rw [Patch.set_smul_other (evmKey_injective.ne e), Function.update_of_ne e]
    rfl

theorem getEVMAddress_mapAddress (v : Stores β γ) (t : AccAddress) (a : Address) :
    getEVMAddress (mapAddress K v t a) = Function.update (getEVMAddress v) t (some a) := by
  funext u
  rw [getEVMAddress, mapAddress_evm]
  by_cases e : u = t
  · rw [e, Patch.set_smul_same, Function.update_self]
    exact congrArg some (FixedBytes.copyOf_bytes a)
  · rw [Patch.set_smul_other (tabiKey_injective.ne e),
      Patch.set_smul_other (evmKey_ne_tabiKey a u).symm, Function.update_of_ne e]
    rfl

variable {K}

variable {v v' : Stores β γ} {tabiAddr : AccAddress}

theorem afterBank_evm {r : BankResult β γ} (h : afterBank v r = .ok v') : v'.evm = v.evm := by
  cases r with
  | error e => cases h
  | ok r =>
    cases h
    rfl

theorem migrateBalance_evm {evmAddr : Address} (h : migrateBalance K v evmAddr tabiAddr = .ok v') :
    v'.evm = v.evm := by
  obtain ⟨v₁, h₁, h⟩ := bind_eq_ok.mp h
  obtain ⟨v₂, h₂, h⟩ := bind_eq_ok.mp h
  cases h
  have hcoins : v₁.evm = v.evm := by
    unfold migrateCoins at h₁
    split at h₁
    · cases h₁
      rfl
    · exact afterBank_evm h₁
  have hwei : v₂.evm = v₁.evm := by
    unfold migrateWei at h₂
    split at h₂
    · cases h₂
      rfl
    · exact afterBank_evm h₂
  rw [← hcoins, ← hwei, removeCast]
  split
  · rfl
  · rfl

theorem setMissingPubKey_cases {pubkey : Bytes} (h : setMissingPubKey K v tabiAddr pubkey = .ok v')
    : v' = v ∨ ∃ p, K.setPubKey v.acc tabiAddr pubkey = .ok p ∧ v' = afterAcc v p := by
  obtain ⟨key, -, h⟩ := bind_eq_ok.mp h
  cases key with
  | some key =>
    cases h
    exact .inl rfl
  | none =>
    obtain ⟨p, hp, h⟩ := bind_eq_ok.mp h
    cases h
    exact .inr ⟨p, mapError_eq_ok.mp hp, rfl⟩

theorem associateAddresses_evm {evmAddr : Address} {pubkey : Bytes}
    (h : associateAddresses K v tabiAddr evmAddr pubkey = .ok v') :
    v'.evm = (mapAddress K v tabiAddr evmAddr).evm := by
  obtain ⟨v₁, h₁, h⟩ := bind_eq_ok.mp h
  rw [migrateBalance_evm h]
  rcases setMissingPubKey_cases h₁ with rfl | ⟨p, -, rfl⟩
  · rfl
  · rfl

end Tabi.Association
