import Tabi.Chain.Types
import Tabi.Support.Patch

/-!
# StateDB — the keepers under the state database

A context of the state database shows three stores: the EVM module's, the account module's and the
bank's (`Stores`).
-/

namespace Tabi.StateDB

open Support

@[ext] structure Stores (β γ : Type) where
  evm : Store Bytes Bytes
  acc : Store Bytes Bytes
  bank : Store β γ

@[ext] structure Writes (β γ : Type) where
  evm : Patch Bytes Bytes
  acc : Patch Bytes Bytes
  bank : Patch β γ

variable {β γ : Type}

instance : Monoid (Writes β γ) where
  one := ⟨1, 1, 1⟩
  mul p q := ⟨p.evm * q.evm, p.acc * q.acc, p.bank * q.bank⟩
  one_mul _ := rfl
  mul_one p := Writes.ext (mul_one p.evm) (mul_one p.acc) (mul_one p.bank)
  mul_assoc p q r := Writes.ext (mul_assoc p.evm q.evm r.evm) (mul_assoc p.acc q.acc r.acc)
    (mul_assoc p.bank q.bank r.bank)

instance : MulAction (Writes β γ) (Stores β γ) where
  smul p s := ⟨p.evm • s.evm, p.acc • s.acc, p.bank • s.bank⟩
  one_smul s := Stores.ext (one_smul _ s.evm) (one_smul _ s.acc) (one_smul _ s.bank)
  mul_smul p q s := Stores.ext (mul_smul p.evm q.evm s.evm) (mul_smul p.acc q.acc s.acc)
    (mul_smul p.bank q.bank s.bank)

@[simp] theorem smul_bank (p : Writes β γ) (s : Stores β γ) : (p • s).bank = p.bank • s.bank := rfl

def Writes.ofEvm (p : Patch Bytes Bytes) : Writes β γ := ⟨p, 1, 1⟩

def Writes.ofBank (p : Patch β γ) : Writes β γ := ⟨1, 1, p⟩

@[simp] theorem ofBank_smul_bank (p : Patch β γ) (s : Stores β γ) :
    (Writes.ofBank p • s).bank = p • s.bank := rfl

structure Effect (β γ : Type) where
  writes : Writes β γ
  events : List Event := []

/-- What a bank call that moves coins answers: its writes and events, or an error. -/
abbrev BankResult (β γ : Type) := Except String (Patch β γ × List Event)

abbrev BankCall (β γ : Type) := Stores β γ → AccAddress → ℤ → BankResult β γ

structure BankKeeper (β γ : Type) where
  addCoins : BankCall β γ
  addWei : BankCall β γ
  subUnlockedCoins : BankCall β γ
  subWei : BankCall β γ
  /-- `SendCoinsAndWei`: sender, recipient, coins, wei. -/
  sendCoinsAndWei : Stores β γ → AccAddress → AccAddress → ℤ → ℤ → BankResult β γ
  mintCoins : Stores β γ → ℤ → BankResult β γ
  getBalance : Stores β γ → AccAddress → ℤ
  lockedCoins : Stores β γ → AccAddress → ℤ
  getWeiBalance : Stores β γ → AccAddress → ℤ

structure AccountKeeper where
  hasAccount : Store Bytes Bytes → AccAddress → Bool
  setNewAccount : Store Bytes Bytes → AccAddress → Patch Bytes Bytes

structure Keepers (β γ : Type) where
  bank : BankKeeper β γ
  account : AccountKeeper
  keccak : Bytes → Hash
  bech32 : AccAddress → Bytes
  hex : Address → Bytes
  cachedFeeCollectorAddress : Option Address
  feeCollectorModuleAddress : AccAddress
  evmModuleAddress : AccAddress

def evmAddressToTabiAddressKey (a : Address) : Bytes := 0x01 :: a.bytes
def tabiAddressToEVMAddressKey (t : AccAddress) : Bytes := 0x02 :: t
def stateKey (a : Address) : Bytes := 0x03 :: a.bytes
def codeKey (a : Address) : Bytes := 0x07 :: a.bytes
def codeHashKey (a : Address) : Bytes := 0x08 :: a.bytes
def codeSizeKey (a : Address) : Bytes := 0x09 :: a.bytes
def nonceKey (a : Address) : Bytes := 0x0a :: a.bytes

section Keeper

variable (k : Keepers β γ)

def getTabiAddress (v : Stores β γ) (a : Address) : Option AccAddress :=
  v.evm (evmAddressToTabiAddressKey a)

/-- `Keeper.GetTabiAddressOrDefault`: an address without an association is cast. -/
def getTabiAddressOrDefault (v : Stores β γ) (a : Address) : AccAddress :=
  (getTabiAddress v a).getD a.bytes

/-- `Keeper.GetEVMAddress`: the stored bytes are copied from the left. -/
def getEVMAddress (v : Stores β γ) (t : AccAddress) : Option Address :=
  (v.evm (tabiAddressToEVMAddressKey t)).map fun bz =>
    ⟨(bz ++ List.replicate 20 0).take 20, by simp⟩

/-- `Keeper.GetEVMAddressOrDefault`: an address without an association is cast. -/
def getEVMAddressOrDefault (v : Stores β γ) (t : AccAddress) : Address :=
  (getEVMAddress v t).getD (.ofBytes 20 t)

def getFeeCollectorAddress (v : Stores β γ) : Option Address :=
  match k.cachedFeeCollectorAddress with
  | some a => some a
  | none => getEVMAddress v k.feeCollectorModuleAddress

def setAddressMapping (v : Stores β γ) (t : AccAddress) (a : Address) : Effect β γ where
  writes :=
    { evm := Patch.set (tabiAddressToEVMAddressKey t) a.bytes *
        Patch.set (evmAddressToTabiAddressKey a) t
      acc := if k.account.hasAccount v.acc t then 1 else k.account.setNewAccount v.acc t
      bank := 1 }
  events := [⟨Bytes.ofString "address_associated",
    [(Bytes.ofString "tabi_addr", k.bech32 t), (Bytes.ofString "evm_addr", k.hex a)]⟩]

def deleteAddressMapping (t : AccAddress) (a : Address) : Effect β γ where
  writes := .ofEvm (Patch.delete (tabiAddressToEVMAddressKey t) *
    Patch.delete (evmAddressToTabiAddressKey a))

/-- `Keeper.GetBalance`: the unlocked atabi in wei, and the wei. -/
def getBalance (v : Stores β γ) (t : AccAddress) : Outcome ℤ := do
  let allAtabi := k.bank.getBalance v t
  let lockedAtabi := k.bank.lockedCoins v t
  let atabi ← SdkInt.sub allAtabi lockedAtabi
  let wei := k.bank.getWeiBalance v t
  SdkInt.add (← SdkInt.mul atabi atabiToWeiMultiplier) wei

def getNonce (v : Stores β γ) (a : Address) : Nat :=
  match v.evm (nonceKey a) with
  | none => 0
  | some bz => beNat bz

def setNonce (a : Address) (nonce : UInt64) : Effect β γ where
  writes := .ofEvm (Patch.set (nonceKey a) (beBytes 8 nonce.toNat))

def getState (v : Stores β γ) (a : Address) (hash : Hash) : Hash :=
  match v.evm (stateKey a ++ hash.bytes) with
  | none => emptyHash
  | some val => FixedBytes.ofBytes 32 val

def setState (a : Address) (key val : Hash) : Effect β γ where
  writes := .ofEvm
    (if val = emptyHash then Patch.delete (stateKey a ++ key.bytes)
     else Patch.set (stateKey a ++ key.bytes) val.bytes)

def getCode (v : Stores β γ) (a : Address) : Bytes := (v.evm (codeKey a)).getD []

/-- `Keeper.GetCodeHash`: without code, the zero hash for an empty balance and the hash of the
empty code for any other. -/
def getCodeHash (v : Stores β γ) (a : Address) : Outcome Hash :=
  match v.evm (codeHashKey a) with
  | none => do
    let balance ← getBalance k v (getTabiAddressOrDefault v a)
    return if balance = 0 then emptyHash else k.keccak []
  | some bz => .ok (FixedBytes.ofBytes 32 bz)

def getCodeSize (v : Stores β γ) (a : Address) : Nat :=
  match v.evm (codeSizeKey a) with
  | none => 0
  | some bz => beNat bz

/-- `Keeper.SetCode`: an address that gets code is associated with its cast address, unless it
has an association. -/
def setCode (v : Stores β γ) (a : Address) (code : Bytes) : Effect β γ :=
  let w : Writes β γ := .ofEvm (Patch.set (codeHashKey a) (k.keccak code).bytes *
    (Patch.set (codeSizeKey a) (beBytes 8 code.length) * Patch.set (codeKey a) code))
  match getTabiAddress (w • v) a with
  | some _ => { writes := w }
  | none =>
    let e := setAddressMapping k (w • v) (getTabiAddressOrDefault (w • v) a) a
    { writes := e.writes * w, events := e.events }

def deleteIfExists (v : Stores β γ) (key : Bytes) : Patch Bytes Bytes :=
  if (v.evm key).isSome then Patch.delete key else 1

/-- `DBImpl.clearAccountState`: the storage under the account's prefix (`PurgePrefix`), its code,
code size, code hash and nonce. -/
def clearAccountState (v : Stores β γ) (a : Address) : Effect β γ where
  writes := .ofEvm
    (deleteIfExists v (nonceKey a) * deleteIfExists v (codeHashKey a) *
      deleteIfExists v (codeSizeKey a) * deleteIfExists v (codeKey a) *
      Patch.deleteAll (fun key => (stateKey a).isPrefixOf key))

end Keeper

theorem setCode_bank (k : Keepers β γ) (v : Stores β γ) (a : Address) (code : Bytes) :
    (setCode k v a code).writes.bank = 1 := by
  unfold setCode
  dsimp only
  split
  · rfl
  · exact one_mul _

theorem smul_bank_of_one {w : Writes β γ} (h : w.bank = 1) (v : Stores β γ) :
    (w • v).bank = v.bank := by
  rw [smul_bank, h, one_smul]

end Tabi.StateDB
