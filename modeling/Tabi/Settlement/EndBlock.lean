import Tabi.Settlement.Deferred
import Tabi.StateDB.Keeper

/-!
# Settlement — the end of a block

`AppModule.EndBlock` (`x/evm/module.go`): the deferred infos are collected; for each one that is no
error, what its coinbase account holds goes to the fee collector and its surplus is added up; then a
positive total is put into the EVM module account, in atabi and wei, and the blooms are merged into
the block bloom.
-/

namespace Tabi.Settlement

open Support StateDB

variable {β γ : Type}

def emptyTxsHash : Hash := .ofBytes 32
  [0x56, 0xe8, 0x1f, 0x17, 0x1b, 0xcc, 0x55, 0xa6, 0xff, 0x83, 0x45, 0xe6, 0x92, 0xc0, 0xf8, 0x6e,
   0x5b, 0x48, 0xe0, 0x1b, 0x99, 0x6c, 0xad, 0xc0, 0x01, 0x62, 0x2f, 0xb5, 0xe3, 0x63, 0xb4, 0x21]

def DeferredInfo.hash (info : DeferredInfo) : Hash := .ofBytes 32 info.txHash

def DeferredInfo.IsError (info : DeferredInfo) : Prop :=
  info.error ≠ [] ∧ info.hash ≠ emptyTxsHash

instance (info : DeferredInfo) : Decidable info.IsError := inferInstanceAs (Decidable (_ ∧ _))

def DeferredInfo.coinbase (info : DeferredInfo) : AccAddress :=
  getCoinbaseAddress (.ofNat info.txIndex.toNat)

def receiptKey (txHash : Hash) : Bytes := 0x0b :: txHash.bytes

structure Settling (β γ : Type) where
  stores : Stores β γ
  receipts : SortedStore Bytes FailureReceipt
  surplus : ℤ

/-- Run a bank call; an error is logged, and changes nothing. -/
def applyBank (v : Stores β γ) : BankResult β γ → Stores β γ
  | .ok r => Writes.ofBank r.1 • v
  | .error _ => v

variable (k : Keepers β γ) (blockHeight : UInt64)

def spendable (v : Stores β γ) (a : AccAddress) : Outcome (ℤ × ℤ) := do
  let balance ← SdkInt.sub (k.bank.getBalance v a) (k.bank.lockedCoins v a)
  return (balance, k.bank.getWeiBalance v a)

def collect (v : Stores β γ) (info : DeferredInfo) : Outcome (Stores β γ) := do
  let (balance, weiBalance) ← spendable k v info.coinbase
  return if balance ≠ 0 ∨ weiBalance ≠ 0 then
    applyBank v (k.bank.sendCoinsAndWei v info.coinbase k.feeCollectorModuleAddress balance
      weiBalance)
  else v

def settle (s : Settling β γ) (info : DeferredInfo) : Outcome (Settling β γ) :=
  if info.IsError then
    let receipt := ⟨info.hash, info.txIndex, info.error, blockHeight⟩
    .ok { s with receipts := s.receipts.set (receiptKey info.hash) receipt }
  else do
    let stores ← collect k s.stores info
    let surplus ← SdkInt.addPtr s.surplus info.surplus
    return { s with stores := stores, surplus := surplus }

def creditSurplus (v : Stores β γ) (surplus : ℤ) : Outcome (Stores β γ) :=
  if 0 < surplus then do
    let (atabi, wei) ← splitAtabiWeiAmount surplus
    let v := if 0 < atabi then applyBank v (k.bank.addCoins v k.evmModuleAddress atabi) else v
    return if 0 < wei then applyBank v (k.bank.addWei v k.evmModuleAddress wei) else v
  else .ok v

def bytesToBloom (b : Bytes) : Outcome (FixedBytes 256) :=
  if 256 < b.length then .error (.raised "bloom bytes too big") else .ok (.ofBytes 256 b)

def setBlockBloom (v : Stores β γ) (blooms : List (FixedBytes 256)) : Stores β γ :=
  let blockBloom := blooms.foldl (fun acc bloom => List.zipWith (· ||| ·) acc bloom.bytes)
    (List.replicate 256 0)
  (Writes.ofEvm (Patch.set [0x0d] blockBloom) : Writes β γ) • v

def settleBlock (surplus : ℤ) (v : Stores β γ) (receipts : SortedStore Bytes FailureReceipt)
    (infos : List DeferredInfo) : Outcome (Settling β γ) := do
  let s ← infos.foldlM (settle k blockHeight) ⟨v, receipts, surplus⟩
  let stores ← creditSurplus k s.stores s.surplus
  let blooms ← infos.mapM fun info => bytesToBloom info.txBloom
  return { s with stores := setBlockBloom stores blooms }

/-- `EndBlock` for a list of infos: the ante surpluses are added up first. -/
def endBlockWith (cdc : Codec) (v : Stores β γ) (t : Transient) (infos : List DeferredInfo) :
    Outcome (Settling β γ) := do
  let surplus ← getAnteSurplusSum cdc t
  settleBlock k blockHeight surplus v t.receipts infos

def endBlock (cdc : Codec) (v : Stores β γ) (t : Transient)
    (msgs : List (Option MsgEVMTransaction)) (txResults : List ExecTxResult) :
    Outcome (Settling β γ) := do
  let infos ← getAllEVMTxDeferredInfo cdc t msgs txResults
  endBlockWith k blockHeight cdc v t infos

end Tabi.Settlement
