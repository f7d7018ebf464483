import Tabi.Registry.Pointers
import Tabi.StateDB.Keeper

/-!
# BlockGas — the gas check of a proposal

`checkTotalBlockGas` (`app/app.go`) adds up the gas of the transactions of a proposal in two
`uint64` accumulators: what the transactions want, and what they are expected to use.
-/

namespace Tabi.BlockGas

open Support

/-- The data of an EVM transaction: an association, or a transaction with the gas `Gas` answers
(making the Ethereum transaction may panic). -/
inductive TxData where
  | associate
  | ethereum (gas : Outcome UInt64)

/-- `MsgEVMTransaction`: what `UnpackTxData` makes of its data; `none` is the error. -/
structure MsgEVMTransaction where
  txData : Option TxData

inductive Msg where
  | evm (m : MsgEVMTransaction)
  | associate (sender : Bytes)
  | other

/-- A decoded transaction; `getGas` is there if it is a `FeeTx`. -/
structure Tx where
  msgs : List Msg
  getGas : Option (Outcome UInt64)
  getGasEstimate : Outcome UInt64

structure BlockParams where
  maxGas : Int64
  maxGasWanted : Int64

structure Env (β γ : Type) where
  view : StateDB.Stores β γ
  bech32 : Registry.Bech32
  txDecoder : Bytes → Outcome (Option Tx)
  /-- `ctx.ConsensusParams().Block`, which may be nil. -/
  consensusParams : Option BlockParams

variable {β γ : Type} (env : Env β γ)

def evmAssociateIsGasless (sender : Bytes) : Outcome Bool := do
  let tabiAddr ← Registry.mustAccAddressFromBech32 env.bech32 sender
  return (StateDB.getEVMAddress env.view tabiAddr).isNone

/-- `IsTxGasless`: the loop returns in its first iteration, and the error is always nil. -/
def isTxGasless (tx : Tx) : Outcome Bool :=
  match tx.msgs with
  | .associate sender :: _ => do
    if !(← evmAssociateIsGasless env sender) then return false
    return tx.msgs.length = 1
  | _ => .ok false

def Msg.isEVM : Msg → Bool
  | .evm _ => true
  | _ => false

def isEVMMessage (tx : Tx) : Option Bool :=
  let hasEVMMsg := tx.msgs.any Msg.isEVM
  if hasEVMMsg && tx.msgs.length ≠ 1 then none else some hasEVMMsg

def mustGetEVMTransactionMessage (tx : Tx) : Outcome MsgEVMTransaction :=
  match tx.msgs with
  | [.evm m] => .ok m
  | [_] => .error (.raised "not EVM message")
  | _ => .error (.raised "EVM transaction must have exactly 1 message")

def MsgEVMTransaction.isAssociateTx (m : MsgEVMTransaction) : Outcome Bool :=
  match m.txData with
  | none => .error (.raised "protobuf Any message cannot be nil")
  | some .associate => .ok true
  | some (.ethereum _) => .ok false

def MsgEVMTransaction.gas (m : MsgEVMTransaction) : Outcome UInt64 :=
  match m.txData with
  | none => .error .nilDereference
  | some .associate => .error (.raised "not implemented")
  | some (.ethereum gas) => gas

/-- The gas an EVM transaction wants; `none` is `continue`. -/
def evmGasWanted (tx : Tx) : Outcome (Option UInt64) := do
  let msg ← mustGetEVMTransactionMessage tx
  if ← msg.isAssociateTx then return none
  return some (← msg.gas)

/-- The gas a transaction with a fee wants; `none` is `continue`. -/
def feeGasWanted (tx : Tx) : Outcome (Option UInt64) :=
  match tx.getGas with
  | none => .ok none
  | some gas => gas.map some

def gasWanted (tx : Tx) : Outcome (Option UInt64) := do
  if ← isTxGasless env tx then return none
  match isEVMMessage tx with
  | none => return none
  | some true => evmGasWanted tx
  | some false => feeGasWanted tx

/-- A transaction that counts, with the gas it wants; `none` is `continue`. -/
def countTx (raw : Bytes) : Outcome (Option (UInt64 × Tx)) := do
  match ← env.txDecoder raw with
  | none => return none
  | some tx => return (← gasWanted env tx).map (·, tx)

def minGasEVMTx : UInt64 := 21000

def effectiveGas (gasWanted estimate : UInt64) : UInt64 :=
  if minGasEVMTx ≤ estimate ∧ estimate ≤ gasWanted then estimate else gasWanted

def overflows (totalGas gasWanted : UInt64) : Bool :=
  gasWanted.toInt64 < 0 || Int64.maxValue - gasWanted.toInt64 < totalGas.toInt64

structure Totals where
  totalGas : UInt64
  totalGasWanted : UInt64

/-- The loop body for a transaction that counts; `none` is `return false`. -/
def addTx (t : Totals) (gasWanted : UInt64) (tx : Tx) : Outcome (Option Totals) := do
  if overflows t.totalGas gasWanted then return none
  let totalGasWanted := t.totalGasWanted + gasWanted
  let estimate ← tx.getGasEstimate
  let totalGas := t.totalGas + effectiveGas gasWanted estimate
  match env.consensusParams with
  | none => .error .nilDereference
  | some block =>
    if block.maxGasWanted.toUInt64 < totalGasWanted then return none
    if block.maxGas.toUInt64 < totalGas then return none
    return some ⟨totalGas, totalGasWanted⟩

def checkLoop : Totals → List Bytes → Outcome Bool
  | _, [] => .ok true
  | t, raw :: txs => do
    match ← countTx env raw with
    | none => checkLoop t txs
    | some (gasWanted, tx) =>
      match ← addTx env t gasWanted tx with
      | none => return false
      | some t => checkLoop t txs

def checkTotalBlockGas (txs : List Bytes) : Bool :=
  match checkLoop env ⟨0, 0⟩ txs with
  | .ok result => result
  | .error _ => false

end Tabi.BlockGas
