import Tabi.Association.EntryPoints
import Tabi.Chain.Dec
import Tabi.StateDB.Impl

/-!
# Ante — an EVM transaction is delivered

The decorators that an EVM transaction passes (`x/evm/ante`, chained in `app/ante.go`), and what
becomes of it afterwards.
-/

namespace Tabi.Ante

open Support StateDB Fallible

variable {β γ : Type}

structure NonceBump where
  sender : Address
  startingNonce : UInt64
  deriving DecidableEq

structure Context (β γ : Type) where
  stores : Stores β γ
  deliverTxCallback : Option NonceBump := none

/-- What an ante handler answers.  The message is shared, so what `Preprocess` derived stays. -/
inductive AnteResult (β γ : Type) where
  | panicked (p : Panic)
  | failed (ctx : Context β γ) (err : String)
  | passed (ctx : Context β γ) (msg : MsgEVMTransaction)

abbrev AnteHandler (β γ : Type) := Context β γ → MsgEVMTransaction → AnteResult β γ

/-- `AnteDecorator.AnteHandle`: a handler that is given the next one. -/
abbrev AnteDecorator (β γ : Type) :=
  Context β γ → MsgEVMTransaction → AnteHandler β γ → AnteResult β γ

def chainAnteDecorators : List (AnteDecorator β γ) → AnteHandler β γ
  | [] => fun ctx msg => .passed ctx msg
  | d :: ds => fun ctx msg => d ctx msg (chainAnteDecorators ds)

/-- Go on with what a call returned; an error is returned with the context. -/
def AnteResult.after {α : Type} (ctx : Context β γ) (x : Fallible α) (k : α → AnteResult β γ) :
    AnteResult β γ :=
  match x with
  | .error (.panic p) => .panicked p
  | .error (.err e) => .failed ctx e
  | .ok a => k a

structure Env (β γ : Type) where
  K : Association.Keepers β γ
  block : Block
  txIndex : UInt64
  chainID : ℤ
  /-- `ConsensusParams().Block.MaxGas`, if there are block parameters. -/
  maxGas : Option Int64
  baseFeePerGas : ℤ
  minimumFeePerGas : ℤ
  priorityNormalizer : ℤ
  intrinsicGas : Geth.Transaction → Except String UInt64
  statelessChecks : DBImpl β γ → Geth.Transaction → Address → Except String Unit
  /-- `StateTransition.BuyGas`: its checks, and the wei it takes from the sender. -/
  buyGas : DBImpl β γ → Geth.Transaction → Address → Fallible ℤ
  order : MapOrder

/-- `MsgEVMTransaction.AsTransaction`: data that cannot be unpacked give a nil transaction, which
panics when it is used. -/
def asTransaction (msg : MsgEVMTransaction) : Outcome Geth.Transaction :=
  match msg.data with
  | .error _ => .error .nilDereference
  | .ok txData => txData.asEthereumData.map Geth.newTx

def derivedOf (msg : MsgEVMTransaction) : Outcome Derived :=
  match msg.derived with
  | none => .error .nilDereference
  | some derived => .ok derived

section Decorators

variable (env : Env β γ)

def evmPreprocessDecorator : AnteDecorator β γ := fun ctx msg next =>
  .after ctx (preprocess env.K.crypto env.block msg) fun msg =>
  .after ctx (ofOutcome (derivedOf msg)) fun derived =>
  .after ctx (Association.evmPreprocess env.K ctx.stores derived) fun r =>
    if r.2 then .passed { ctx with stores := r.1 } msg else next { ctx with stores := r.1 } msg

/-- `WithDeliverTxCallback`, if the transaction has the nonce of its sender. -/
def nonceCallback (ctx : Context β γ) (msg : MsgEVMTransaction) (etx : Geth.Transaction) :
    Context β γ :=
  match msg.derived with
  | none => ctx
  | some derived =>
    if getNonce ctx.stores derived.senderEVMAddr = etx.nonce.toNat then
      { ctx with deliverTxCallback := some ⟨derived.senderEVMAddr, etx.nonce⟩ }
    else ctx

def maxInitCodeSize : Nat := 49152

def basicChecks (etx : Geth.Transaction) : Fallible Unit := do
  require (¬ (etx.recipient = none ∧ maxInitCodeSize < etx.data.length))
    "max initcode size exceeded: code size %v, limit %v"
  require (¬ etx.value < 0) "invalid coins"
  let intrGas ← (env.intrinsicGas etx).mapError .err
  require (¬ etx.gas < intrGas) "out of gas"
  require (etx.type ≠ Geth.blobTxType) "unsupported tx type"
  match env.maxGas with
  | none => return ()
  | some maxGas =>
    require (¬ (0 < maxGas ∧ maxGas.toUInt64 < etx.gas))
      "tx gas limit %d exceeds block max gas %d: out of gas"

def basicDecorator : AnteDecorator β γ := fun ctx msg next =>
  .after ctx (ofOutcome (asTransaction msg)) fun etx =>
  .after (nonceCallback ctx msg etx) (basicChecks env etx) fun _ =>
    next (nonceCallback ctx msg etx) msg

def maxPriority : ℤ := 9223372036854774807

def calculatePriority (txData : EthTx.TxData) : Outcome ℤ := do
  let gp ← EthTx.deref (← txData.effectiveGasPrice 0)
  let priority ← Dec.truncateInt
    (← Dec.quo (Decimal.ofInt Dec.unit gp) env.priorityNormalizer)
  return if maxPriority < priority then maxPriority else priority

def feeCapChecks (txData : EthTx.TxData) : Fallible Unit := do
  let gasFeeCap ← ofOutcome (txData.getGasFeeCap >>= EthTx.deref)
  let baseFee ← ofOutcome (Dec.truncateInt env.baseFeePerGas)
  require (¬ gasFeeCap < baseFee) "insufficient fee"
  let minimumFee ← ofOutcome (Dec.truncateInt env.minimumFeePerGas)
  require (¬ gasFeeCap < minimumFee) "insufficient fee"
  let gasTipCap ← ofOutcome (txData.getGasTipCap >>= EthTx.deref)
  require (¬ gasTipCap < 0) "gas fee cap cannot be negative: invalid request"

/-- `EVMFeeCheckDecorator`: the stores after the gas has been bought.  Transactions with blobs do
not get here. -/
def feeCheck (v : Stores β γ) (msg : MsgEVMTransaction) : Fallible (Stores β γ) := do
  let txData ← msg.data.mapError .err
  feeCapChecks env txData
  let etx ← ofOutcome (asTransaction msg)
  let derived ← ofOutcome (derivedOf msg)
  let stateDB := DBImpl.newDBImpl env.K.toKeepers v ⟨1, []⟩ env.txIndex false false
  require (getFeeCollectorAddress env.K.toKeepers v).isSome "fee collector's EVM address not found"
  (env.statelessChecks stateDB etx derived.senderEVMAddr).mapError
    fun e => .err (e ++ ": incorrect account sequence")
  let mgval ← env.buyGas stateDB etx derived.senderEVMAddr
  let stateDB ← ofOutcome (stateDB.subBalance env.K.toKeepers derived.senderEVMAddr mgval)
  let finalized ← ofOutcome (stateDB.finalize env.K.toKeepers env.order)
  let _ ← finalized.2.mapError .err
  let _ ← ofOutcome (calculatePriority env txData)
  return finalized.1.originalStores

def evmFeeCheckDecorator : AnteDecorator β γ := fun ctx msg next =>
  .after ctx (feeCheck env ctx.stores msg) fun v => next { ctx with stores := v } msg

def chainIDAccepted (ethTx : Geth.Transaction) : Prop :=
  if ethTx.type = Geth.legacyTxType then ethTx.chainId = 0 ∨ ethTx.chainId = env.chainID
  else ethTx.chainId = env.chainID

instance (ethTx : Geth.Transaction) : Decidable (chainIDAccepted env ethTx) :=
  inferInstanceAs (Decidable (if ethTx.type = Geth.legacyTxType
    then ethTx.chainId = 0 ∨ ethTx.chainId = env.chainID else ethTx.chainId = env.chainID))

def sigVerify (v : Stores β γ) (msg : MsgEVMTransaction) : Fallible Unit := do
  let ethTx ← ofOutcome (asTransaction msg)
  let derived ← ofOutcome (derivedOf msg)
  require (chainIDAccepted env ethTx) "invalid chain-id"
  require (ethTx.nonce.toNat = getNonce v derived.senderEVMAddr) "incorrect account sequence"

def evmSigVerifyDecorator : AnteDecorator β γ := fun ctx msg next =>
  .after ctx (sigVerify env ctx.stores msg) fun _ => next ctx msg

def adjustedGasLimit (gas : UInt64) : Outcome UInt64 := do
  let adjusted ← Dec.check (env.priorityNormalizer * gas.toInt64.toInt)
  let limit ← Dec.truncateInt adjusted
  if 0 ≤ limit ∧ limit < 2 ^ 64 then .ok (UInt64.ofNat limit.toNat)
  else .error (.raised "Uint64() out of bounds")

def gasDecorator : AnteDecorator β γ := fun ctx msg next =>
  .after ctx (msg.data.mapError .err) fun txData =>
  .after ctx (ofOutcome (txData.getGas >>= adjustedGasLimit env)) fun _ => next ctx msg

def evmAnteHandler : AnteHandler β γ :=
  chainAnteDecorators [evmPreprocessDecorator env, basicDecorator env, evmFeeCheckDecorator env,
    evmSigVerifyDecorator env, gasDecorator env]

end Decorators

/-- The callback of `BasicDecorator`: the nonce is raised if nothing has. -/
def runCallback (callback : Option NonceBump) (v : Stores β γ) : Stores β γ :=
  match callback with
  | none => v
  | some c =>
    if getNonce v c.sender = c.startingNonce.toNat then
      (setNonce c.sender (c.startingNonce + 1) : Effect β γ).writes • v
    else v

/-- `IsAssociateTx`; of data that cannot be unpacked it panics. -/
def isAssociateTx (msg : MsgEVMTransaction) : Bool :=
  match msg.data with
  | .ok (.associateTx _) => true
  | _ => false

/-- The execution of a message: the stores it leaves, or nothing when it failed or panicked and
was rolled back. -/
abbrev Execution (β γ : Type) := Env β γ → Stores β γ → MsgEVMTransaction → Option (Stores β γ)

structure Delivered (β γ : Type) where
  stores : Stores β γ
  executed : Bool

variable (execute : Execution β γ) (env : Env β γ)

/-- `EVMTransaction`: nothing is left to do for an associate transaction.  What is rolled back
leaves the writes of the ante handler. -/
def runMsg (v : Stores β γ) (msg : MsgEVMTransaction) : Delivered β γ :=
  if isAssociateTx msg then ⟨v, false⟩ else ⟨(execute env v msg).getD v, true⟩

def deliverTx (v : Stores β γ) (msg : MsgEVMTransaction) : Delivered β γ :=
  match evmAnteHandler env ⟨v, none⟩ msg with
  | .panicked _ => ⟨v, false⟩
  | .failed ctx _ => ⟨runCallback ctx.deliverTxCallback v, false⟩
  | .passed ctx msg =>
    ⟨runCallback ctx.deliverTxCallback (runMsg execute env ctx.stores msg).stores,
      (runMsg execute env ctx.stores msg).executed⟩

end Tabi.Ante
