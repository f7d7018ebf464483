import Tabi.Settlement.EndBlock
import Tabi.StateDB.Impl
import Tabi.Synthetic.Translate

/-!
# Receipts — who writes a receipt

Four places write receipts into the transient store of a block, all under a transaction hash.
-/

namespace Tabi.Receipts

open Support StateDB Synthetic

variable {β γ : Type}

structure Geth where
  createBloom : List Log → FixedBytes 256
  createAddress : Address → UInt64 → Address

structure Message where
  from_ : Address
  to_ : Option Address
  nonce : UInt64
  data : Bytes
  gasPrice : ℤ

def legacyTxType : UInt8 := 0

def receiptStatusFailed : UInt32 := 0

variable (geth : Geth) (cdc : Codec)

def deleteTransientReceipt (t : Transient) (txHash : Hash) : Transient :=
  { t with receipts := t.receipts.delete txHash.bytes }

def logsOf (db : DBImpl β γ) : List Log := getAllLogs db.tempStateCurrent db.tempStatesHist

def addLogs (db : DBImpl β γ) (logs : List StoredLog) : DBImpl β γ :=
  logs.foldl (fun db l => db.addLog ⟨l.address, l.topics, l.data, 0⟩) db

/-- What an execution hands to its receipt.  `precompileError` is `GetPrecompileError`. -/
structure Executed where
  msg : Message
  txType : UInt8
  gasUsed : UInt64
  vmError : Bytes
  precompileError : Option Bytes

/-- The status of a receipt: there must be no error of the EVM. -/
def Executed.status (x : Executed) : UInt32 :=
  if x.vmError = [] then receiptStatusSuccessful else receiptStatusFailed

/-- The error a receipt shows: that of a precompile is appended when the execution failed. -/
def Executed.shownError (x : Executed) : Bytes :=
  match x.precompileError with
  | none => x.vmError
  | some perr => if 0 < x.status then x.vmError else x.vmError ++ Bytes.ascii "|" ++ perr

def Executed.contractAddress (x : Executed) : Option Address :=
  match x.msg.to_ with
  | none => some (geth.createAddress x.msg.from_ x.msg.nonce)
  | some to_ => if 0 < x.msg.data.length then some to_ else none

def receiptOf (tx : Tx) (logs : List Log) (txHash : Hash) (x : Executed) : Receipt where
  txType := x.txType.toUInt32
  cumulativeGasUsed := 0
  contractAddress := x.contractAddress geth
  txHash := txHash
  gasUsed := x.gasUsed
  effectiveGasPrice := .ofNat x.msg.gasPrice.natAbs
  blockNumber := tx.blockHeight
  transactionIndex := .ofNat tx.txIndex.toNat
  status := x.status
  from_ := some x.msg.from_
  to_ := x.msg.to_
  vmError := x.shownError
  logs := logs.map convertEthLog
  logsBloom := (geth.createBloom logs).bytes

def writeReceipt (t : Transient) (tx : Tx) (logs : List Log) (txHash : Hash) (x : Executed) :
    Fallible (Transient × Receipt) :=
  let receipt := receiptOf geth tx logs txHash x
  match cdc.marshalReceipt receipt with
  | none => .error (.err "failed to marshal receipt")
  | some bz => .ok ({ t with receipts := t.receipts.set txHash.bytes bz }, receipt)

def record (t : Transient) (tx : Tx) (logs : List Log) (txHash : Hash) (x : Executed)
    (surplus : Fallible ℤ) : Fallible Transient := do
  let (t, receipt) ← writeReceipt geth cdc t tx logs txHash x
  let surplus ← surplus
  let bloom ← Fallible.ofOutcome (Settlement.bytesToBloom receipt.logsBloom)
  let deferred ← Fallible.ofOutcome (Settlement.appendToEvmTxDeferredInfo cdc.deferred t.deferred
    tx.txIndex bloom txHash (some surplus))
  return { t with deferred }

def addDeferredSurplus (t : Transient) (tx : Tx) (surplus : ℤ) : Fallible ℤ :=
  match Settlement.getEVMTxDeferredInfo cdc.deferred t.deferred tx.txIndex with
  | none => .ok surplus
  | some d => Fallible.ofOutcome (SdkInt.addPtr surplus d.surplus)

def joinErrors (first second : Bytes) : Bytes :=
  first ++ Bytes.ascii "\n" ++ second ++ Bytes.ascii "\n"

/-- `CallEVM` after `Finalize`: the logs of the receipt that is there come after the new ones.  The
fees are paid on the Cosmos transaction, so the price of the message is zero. -/
def recordCall (t : Transient) (tx : Tx) (db : DBImpl β γ) (msg : Message) (gasUsed : UInt64)
    (precompileError : Option Bytes) (surplus : ℤ) : Fallible Transient := do
  let (db, vmErr) :=
    match getTransientReceipt cdc t tx.checksum with
    | none => (db, [])
    | some r => (addLogs db r.logs, if r.vmError = [] then [] else joinErrors r.vmError [])
  let surplus ← addDeferredSurplus cdc t tx surplus
  record geth cdc t tx (logsOf db) tx.checksum
    ⟨{ msg with gasPrice := 0 }, legacyTxType, gasUsed, vmErr, precompileError⟩ (.ok surplus)

/-- The receipt of the calls a transaction made through the wasmd precompile is merged: its logs
are added, its error is appended, and it is deleted. -/
def mergeSynthetic (t : Transient) (tx : Tx) (db : DBImpl β γ) (vmError : Bytes) :
    Transient × DBImpl β γ × Bytes :=
  match getTransientReceipt cdc t tx.checksum with
  | none => (t, db, vmError)
  | some r => (deleteTransientReceipt t tx.checksum, addLogs db r.logs,
      if r.vmError = [] then vmError else joinErrors vmError r.vmError)

/-- `EVMTransaction` after `Finalize`.  `viaWasmd` is `EVMEntryViaWasmdPrecompile`. -/
def recordTransaction (t : Transient) (tx : Tx) (db : DBImpl β γ) (txHash : Hash)
    (viaWasmd : Bool) (x : Executed) (surplus : ℤ) : Fallible Transient :=
  if viaWasmd then do
    let (t, db, vmError) := mergeSynthetic cdc t tx db x.vmError
    let extraSurplus ← addDeferredSurplus cdc t tx 0
    record geth cdc t tx (logsOf db) txHash { x with vmError }
      (Fallible.ofOutcome (SdkInt.add surplus extraSurplus))
  else record geth cdc t tx (logsOf db) txHash x (Fallible.ofOutcome (SdkInt.add surplus 0))

/-- The receipt `EndBlock` writes for a failed transaction. -/
def failureReceipt (blockHeight : UInt64) (info : Settlement.DeferredInfo) : Receipt where
  txHash := info.hash
  transactionIndex := info.txIndex
  vmError := info.error
  blockNumber := blockHeight

/-- One iteration of the loop of `EndBlock`, what it does to the receipts. -/
def recordFailure (blockHeight : UInt64) (t : Transient) (info : Settlement.DeferredInfo) :
    Transient :=
  if info.IsError then setTransientReceipt cdc t info.hash (failureReceipt blockHeight info) else t

def recordFailures (blockHeight : UInt64) (t : Transient) (infos : List Settlement.DeferredInfo) :
    Transient :=
  infos.foldl (recordFailure cdc blockHeight) t

end Tabi.Receipts
