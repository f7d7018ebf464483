import Tabi.Rpc.Node
import Tabi.Settlement.EndBlock

/-!
# Rpc — transactions and blocks

The handlers that report transactions: receipts (`evmrpc/tx.go`), the receipts of a block and the
block itself (`evmrpc/block.go`), and lookups by hash and by index.
-/

namespace Tabi.Rpc

open Support Fallible
open Synthetic (Receipt shellEVMTxType)

def ofErr {α : Type} (x : Except String α) : Fallible α := x.mapError .err

namespace Node

variable (node : Node)

def receipt? (h : Hash) : Option Receipt := (node.getReceipt h).toOption

/-- What `GetEvmTxIndex` returns for a transaction it has found. -/
structure EvmTxIndex where
  evmTxIndex : Nat
  etx : Option Geth.Transaction
  logIndexOffset : Nat

def evmTxIndexFrom (decoder : Bytes → Option (List Msg)) (txIndex : Nat)
    (receiptChecker : Hash → Option Receipt) (includeSynthetic : Bool)
    (i evmTxIndex logIndex : Nat) : List Bytes → Outcome (Option EvmTxIndex)
  | [] => .ok none
  | tx :: txs => do
    match ← getEthTxForTxBz decoder tx with
    | some etx =>
      let logs := (receiptChecker (node.ethHash etx)).elim 0 (·.logs.length)
      if i = txIndex then return some ⟨evmTxIndex, some etx, logIndex⟩
      evmTxIndexFrom decoder txIndex receiptChecker includeSynthetic (i + 1) (evmTxIndex + 1)
        (logIndex + logs) txs
    | none =>
      match receiptChecker (node.sha256 tx) with
      | none =>
        evmTxIndexFrom decoder txIndex receiptChecker includeSynthetic (i + 1) evmTxIndex
          logIndex txs
      | some receipt =>
        if i = txIndex then return some ⟨evmTxIndex, none, logIndex⟩
        -- a Cosmos transaction with a receipt is found, but only counted when asked for
        if includeSynthetic then
          evmTxIndexFrom decoder txIndex receiptChecker includeSynthetic (i + 1)
            (evmTxIndex + 1) (logIndex + receipt.logs.length) txs
        else
          evmTxIndexFrom decoder txIndex receiptChecker includeSynthetic (i + 1) evmTxIndex
            logIndex txs

def getEvmTxIndex (block : ResultBlock) (txIndex : UInt32) (includeSynthetic : Bool) :
    Outcome (Option EvmTxIndex) :=
  node.evmTxIndexFrom (node.decoder block) txIndex.toNat node.receipt? includeSynthetic 0 0 0
    block.txs

/-- The fields of a receipt as it is returned; a key that is nil or missing is `none`. -/
structure RPCReceipt where
  blockHash : Hash
  blockNumber : UInt64
  transactionHash : Hash
  transactionIndex : Nat
  from_ : Address
  gasUsed : UInt64
  cumulativeGasUsed : UInt64
  logs : List EthLog
  logsBloom : Bloom
  type : UInt32
  effectiveGasPrice : ℤ
  status : UInt32
  contractAddress : Option Address
  to_ : Option Address

def recovered (block : ResultBlock) (receipt : Receipt) (etx : Option Geth.Transaction) :
    Option Address × Option Address :=
  match etx, receipt.from_ with
  | some etx, none => ((node.recoverSender block.height block.time etx).toOption, etx.recipient)
  | _, _ => (none, none)

def encodeReceipt (receipt : Receipt) (block : ResultBlock) (includeSynthetic : Bool) :
    Fallible RPCReceipt := do
  match ← ofOutcome (node.getEvmTxIndex block receipt.transactionIndex includeSynthetic) with
  | none => .error (.err "failed to find transaction in block")
  | some found =>
    let receipt := { receipt with transactionIndex := .ofNat found.evmTxIndex }
    let bloom ← ofOutcome (Settlement.bytesToBloom receipt.logsBloom)
    let (sender, recipient) := node.recovered block receipt found.etx
    return {
      blockHash := block.hash
      blockNumber := receipt.blockNumber
      transactionHash := receipt.txHash
      transactionIndex := found.evmTxIndex
      from_ := sender.getD (receipt.from_.getD default)
      gasUsed := receipt.gasUsed
      cumulativeGasUsed := receipt.cumulativeGasUsed
      logs := (getLogsForTx receipt found.logIndexOffset).map
        fun log => { log with blockHash := block.hash }
      logsBloom := bloom
      type := receipt.txType
      effectiveGasPrice := receipt.effectiveGasPrice.toInt64.toInt
      status := receipt.status
      contractAddress := if receipt.to_ = none then receipt.contractAddress else none
      to_ := receipt.to_.or recipient }

def findTx (decoder : Bytes → Option (List Msg)) (hash : Hash) :
    List Bytes → Outcome (Option Geth.Transaction)
  | [] => .ok none
  | tx :: txs => do
    match ← getEthTxForTxBz decoder tx with
    | some etx => if node.ethHash etx = hash then return some etx else findTx decoder hash txs
    | none => findTx decoder hash txs

def fillFailed (receipt : Receipt) (block : ResultBlock) (etx : Geth.Transaction) : Receipt :=
  let receipt :=
    match node.recoverSender block.height block.time etx with
    | .error _ => receipt
    | .ok from_ =>
      match etx.recipient with
      | some to_ => { receipt with from_ := some from_, to_ := some to_, contractAddress := none }
      | none =>
        { receipt with
          from_ := some from_
          to_ := none
          contractAddress := some (node.createAddress from_ etx.nonce) }
  { receipt with txType := etx.type.toUInt32, status := 0, gasUsed := 0 }

def completed (receipt : Receipt) (block : ResultBlock) (hash : Hash) : Outcome Receipt :=
  if receipt.status = 0 ∧ receipt.gasUsed = 0 then do
    match ← node.findTx (node.decoder block) hash block.txs with
    | some etx => return node.fillFailed receipt block etx
    | none => return receipt
  else .ok receipt

/-- The check for transactions that panic, if there is one, tells to leave the transaction out. -/
def isExcluded (isPanicTx : Option (Hash → Except String Bool)) (hash : Hash) : Fallible Bool :=
  match isPanicTx with
  | none => .ok false
  | some isPanicTx =>
    match isPanicTx hash with
    | .ok excluded => .ok excluded
    | .error err => .error (.err ("failed to check if tx is panic tx: " ++ err))

def getTransactionReceipt (hash : Hash) (isPanicTx : Option (Hash → Except String Bool))
    (includeSynthetic : Bool) : Fallible (Option RPCReceipt) := do
  if ← isExcluded isPanicTx hash then .error (.err "transaction is panic tx")
  else
    match node.getReceipt hash with
    | .error err => if isNotFound err then return none else .error (.err err)
    | .ok receipt =>
      let block ← ofErr (node.blockByNumber receipt.blockNumber.toInt64)
      let receipt ← ofOutcome (node.completed receipt block hash)
      return some (← node.encodeReceipt receipt block includeSynthetic)

structure BlockAPI where
  includeShellReceipts : Bool
  includeBankTransfers : Bool
  namespace_ : String

def newBlockAPI : BlockAPI := ⟨false, false, "eth"⟩

def newTabiBlockAPI : BlockAPI := ⟨true, false, "tabi"⟩

def newTabi2BlockAPI : BlockAPI := ⟨true, true, "tabi2"⟩

def shouldIncludeSynthetic (namespace_ : String) : Outcome Bool :=
  if namespace_ ≠ "eth" ∧ namespace_ ≠ "tabi" then
    .error (.raised ("unknown namespace " ++ namespace_))
  else .ok (namespace_ == "tabi")

/-- What is looked up for one hash of a block: the receipt, nothing, or the error.  A panic is
recovered and leaves nothing. -/
def blockReceipt (a : BlockAPI) (block : ResultBlock) (hash : Hash) :
    Except String (Option RPCReceipt) :=
  match node.getReceipt hash with
  | .error err => if isNotFound err then .ok none else .error err
  | .ok receipt =>
    if isReceiptFromAnteError receipt then .ok none
    else if a.includeShellReceipts = false ∧ receipt.txType = shellEVMTxType then .ok none
    -- the transaction was executed in a later block
    else if receipt.blockNumber ≠ block.height.toUInt64 then .ok none
    else
      match node.encodeReceipt receipt block a.includeShellReceipts with
      | .ok r => .ok (some r)
      | .error (.err err) => .error err
      | .error (.panic _) => .ok none

def renumber (receipts : List RPCReceipt) : List RPCReceipt :=
  receipts.zipIdx.map fun e => { e.1 with transactionIndex := e.2 }

/-- `GetBlockReceipts`.  The receipts are looked up in parallel; of several errors one is
returned. -/
def getBlockReceipts (a : BlockAPI) (block : ResultBlock) : Fallible (List RPCReceipt) := do
  let synthetic ← ofOutcome (shouldIncludeSynthetic a.namespace_)
  let txHashes ← ofOutcome (node.getTxHashesFromBlock block synthetic)
  let allReceipts ← ofErr (txHashes.mapM (node.blockReceipt a block))
  return renumber allReceipts.reduceOption

/-- `ethapi.RPCTransaction`, as the arguments `NewRPCTransaction` makes it from. -/
structure RPCTransaction where
  etx : Geth.Transaction
  blockHash : Hash
  blockNumber : UInt64
  blockTime : UInt64
  transactionIndex : Nat
  baseFeePerGas : ℤ

def newRPCTransaction (block : ResultBlock) (etx : Geth.Transaction) (transactionIndex : Nat)
    (baseFeePerGas : ℤ) : RPCTransaction :=
  ⟨etx, block.hash, block.height.toUInt64, block.time.toUInt64, transactionIndex, baseFeePerGas⟩

inductive BlockTx where
  | hash (h : Hash)
  | evm (t : RPCTransaction)
  | contractCall (hash : Hash) (from_ to_ : Address) (input : Bytes) (transactionIndex : Nat)
  | transfer (hash : Hash) (from_ to_ : Address) (value : ℤ) (transactionIndex : Nat)

structure Encoded where
  transactions : List BlockTx
  blockGasUsed : UInt64

structure BlockQuery where
  fullTx : Bool
  includeBankTransfers : Bool
  includeSyntheticTxs : Bool
  isPanicOrSynthetic : Option (Hash → Except String Bool)

def BlockQuery.lists (q : BlockQuery) (block : ResultBlock) (receipt : Receipt) : Bool :=
  receipt.blockNumber == block.height.toUInt64 && !isReceiptFromAnteError receipt &&
    (q.includeSyntheticTxs || receipt.txType != shellEVMTxType)

def encodeEvm (q : BlockQuery) (block : ResultBlock) (acc : Encoded)
    (msg : Ante.MsgEVMTransaction) : Fallible Encoded := do
  match ← ofOutcome (ethTx msg) with
  | none => return acc
  | some ethtx =>
    let hash := node.ethHash ethtx
    if ← isExcluded q.isPanicOrSynthetic hash then return acc
    match node.receipt? hash with
    | none => return acc
    | some receipt =>
      if q.lists block receipt = false then return acc
      let entry :=
        if q.fullTx then
          BlockTx.evm (newRPCTransaction block ethtx acc.transactions.length
            (node.baseFeePerGas block.height))
        else .hash hash
      return ⟨acc.transactions ++ [entry], acc.blockGasUsed + receipt.gasUsed⟩

def encodeContractCall (q : BlockQuery) (acc : Encoded) (tx contract input : Bytes) :
    Fallible Encoded :=
  if q.includeSyntheticTxs = false then .ok acc
  else
    let hash := node.sha256 tx
    match node.receipt? hash with
    | none => .ok acc
    | some receipt =>
      if q.fullTx = false then .ok { acc with transactions := acc.transactions ++ [.hash hash] }
      else
        match (node.pointee contract).or (node.evmAddress contract) with
        | none => .error (.panic (.raised "decoding bech32 failed"))
        | some to_ =>
          .ok { acc with
            transactions := acc.transactions ++ [.contractCall hash
              (receipt.from_.getD default) to_ input acc.transactions.length] }

def encodeTransfer (q : BlockQuery) (acc : Encoded) (tx fromAddress toAddress : Bytes)
    (amount : ℤ) : Fallible Encoded :=
  if q.includeBankTransfers = false then .ok acc
  else
    let hash := node.sha256 tx
    if q.fullTx = false then .ok { acc with transactions := acc.transactions ++ [.hash hash] }
    else
      match node.evmAddress fromAddress, node.evmAddress toAddress with
      | some from_, some to_ => do
        let value ← ofOutcome (SdkInt.mul amount atabiToWeiMultiplier)
        return { acc with
          transactions :=
            acc.transactions ++ [.transfer hash from_ to_ value acc.transactions.length] }
      | _, _ => .ok acc

def encodeMsg (q : BlockQuery) (block : ResultBlock) (tx : Bytes) (acc : Encoded) :
    Msg → Fallible Encoded
  | .evmTransaction msg => node.encodeEvm q block acc msg
  | .executeContract contract input => node.encodeContractCall q acc tx contract input
  | .send fromAddress toAddress amount => node.encodeTransfer q acc tx fromAddress toAddress amount
  | .other => .ok acc

def encodeTx (q : BlockQuery) (block : ResultBlock) (acc : Encoded) (tx : Bytes) :
    Fallible Encoded :=
  match node.decoder block tx with
  | none => .error (.err "failed to decode transaction")
  | some msgs => msgs.foldlM (node.encodeMsg q block tx) acc

structure RPCBlock where
  number : ℤ
  hash : Hash
  parentHash : Hash
  logsBloom : Bloom
  stateRoot : Hash
  miner : Address
  gasLimit : Int64
  gasUsed : UInt64
  timestamp : UInt64
  transactionsRoot : Hash
  receiptsRoot : Hash
  size : Int64
  transactions : List BlockTx
  baseFeePerGas : ℤ

def defaultBlockGasLimit : Int64 := 35000000

def gasLimit (height : Int64) : Int64 :=
  match (node.maxGas height).filter (0 < ·), (node.maxGasUpdate height).filter (0 < ·) with
  | some maxGas, _ => maxGas
  | none, some maxGas => maxGas
  | none, none => defaultBlockGasLimit

/-- `EncodeTmBlock`; the results of a block have one entry for each of its transactions. -/
def encodeTmBlock (q : BlockQuery) (block : ResultBlock) : Fallible RPCBlock := do
  let encoded ← block.txs.foldlM (node.encodeTx q block) ⟨[], 0⟩
  return {
    number := block.height.toInt
    hash := block.hash
    parentHash := block.lastBlockHash
    logsBloom := (node.blockBloom block.height).getD default
    stateRoot := block.appHash
    miner := block.proposerAddress
    gasLimit := node.gasLimit block.height
    gasUsed := encoded.blockGasUsed
    timestamp := block.time.toUInt64
    transactionsRoot :=
      if encoded.transactions.length = 0 then Settlement.emptyTxsHash else block.dataHash
    receiptsRoot := block.lastResultsHash
    size := block.size
    transactions := encoded.transactions
    baseFeePerGas := node.baseFeePerGas block.height }

def BlockAPI.query (a : BlockAPI) (fullTx : Bool) : BlockQuery :=
  ⟨fullTx, a.includeBankTransfers, a.includeShellReceipts, none⟩

def txAtFrom (decoder : Bytes → Option (List Msg)) (block : ResultBlock) (evmIndex evmCount : Nat) :
    List Bytes → Fallible (Option RPCTransaction)
  | [] => .ok none
  | tx :: txs => do
    match ← ofOutcome (getEthTxForTxBz decoder tx) with
    | none => txAtFrom decoder block evmIndex evmCount txs
    | some ethtx =>
      if evmCount = evmIndex then
        let receipt ← ofErr (node.getReceipt (node.ethHash ethtx))
        return some (newRPCTransaction block ethtx evmIndex
          (node.baseFeePerGas receipt.blockNumber.toInt64))
      txAtFrom decoder block evmIndex (evmCount + 1) txs

def getTransactionWithBlock (block : ResultBlock) (evmIndex : Nat) :
    Fallible (Option RPCTransaction) :=
  node.txAtFrom (node.decoder block) block evmIndex 0 block.txs

def txByHashFrom (decoder : Bytes → Option (List Msg)) (block : ResultBlock) (hash : Hash)
    (baseFeePerGas : ℤ) (evmIndex : Nat) : List Bytes → Fallible (Option RPCTransaction)
  | [] => .ok none
  | tx :: txs => do
    match ← ofOutcome (getEthTxForTxBz decoder tx) with
    | none => txByHashFrom decoder block hash baseFeePerGas evmIndex txs
    | some ethtx =>
      if node.ethHash ethtx = hash then
        return some (newRPCTransaction block ethtx evmIndex baseFeePerGas)
      txByHashFrom decoder block hash baseFeePerGas (evmIndex + 1) txs

def getTransactionByHashFromBlock (hash : Hash) (receipt : Receipt) :
    Fallible (Option RPCTransaction) := do
  let height := receipt.blockNumber.toInt64
  let block ← ofErr (node.blockByNumber height)
  node.txByHashFrom (node.decoder block) block hash (node.baseFeePerGas height) 0 block.txs

/-- What `GetTransactionByHash` finds: a transaction of the mempool, which has no index, or one of
a block. -/
inductive FoundTx where
  | pending (etx : Geth.Transaction) (from_ : Address)
  | committed (t : RPCTransaction)

def unconfirmedTxQueryMaxPage : Nat := 20

def latestCtxHeight : Int64 := -1

def findUnconfirmed (hash : Hash) (page : Nat) : Nat → Outcome (Option Geth.Transaction)
  | 0 => .ok none
  | pages + 1 =>
    match node.unconfirmedTxs page with
    | .error _ => .ok none
    | .ok [] => .ok none
    | .ok txs => do
      match ← node.findTx (node.txDecoder latestCtxHeight) hash txs with
      | some etx => return some etx
      | none => findUnconfirmed hash (page + 1) pages

def unconfirmed (hash : Hash) : Outcome (Option Geth.Transaction) :=
  node.findUnconfirmed hash 1 unconfirmedTxQueryMaxPage

def getTransactionByHash (hash : Hash) : Fallible (Option FoundTx) := do
  match ← ofOutcome (node.unconfirmed hash) with
  | some etx => return some (.pending etx (← ofErr (node.recoverPendingSender etx)))
  | none =>
    match node.getReceipt hash with
    | .error err => if isNotFound err then return none else .error (.err err)
    | .ok receipt => return (← node.getTransactionByHashFromBlock hash receipt).map .committed

end Node

end Tabi.Rpc
