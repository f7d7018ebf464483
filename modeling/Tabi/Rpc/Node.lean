import Tabi.Ante.Deliver
import Tabi.Rpc.Bloom
import Tabi.Support.Numbering
import Tabi.Synthetic.Translate

/-!
# Rpc — the node behind the handlers

The handlers of `evmrpc` read the blocks of the node and the receipts of the keeper.
-/

namespace Tabi.Rpc

open Support
open Synthetic (Receipt StoredLog)

inductive Msg where
  | evmTransaction (msg : Ante.MsgEVMTransaction)
  | executeContract (contract msg : Bytes)
  | send (fromAddress toAddress : Bytes) (amount : ℤ)
  | other

def Msg.isEVM : Msg → Bool
  | .evmTransaction _ => true
  | _ => false

structure ResultBlock where
  hash : Hash
  height : Int64
  time : Int64
  txs : List Bytes
  lastBlockHash : Hash
  appHash : Hash
  dataHash : Hash
  lastResultsHash : Hash
  proposerAddress : Address
  size : Int64

/-- `IsAssociateTx`; of data that cannot be unpacked it panics. -/
def isAssociateTx (msg : Ante.MsgEVMTransaction) : Outcome Bool :=
  match msg.data with
  | .error err => .error (.raised err)
  | .ok (.associateTx _) => .ok true
  | .ok _ => .ok false

def ethTx (msg : Ante.MsgEVMTransaction) : Outcome (Option Geth.Transaction) := do
  if ← isAssociateTx msg then return none
  return some (← Ante.asTransaction msg)

def getEthTxForTxBz (decoder : Bytes → Option (List Msg)) (tx : Bytes) :
    Outcome (Option Geth.Transaction) :=
  match decoder tx with
  | some [.evmTransaction evmTx] => ethTx evmTx
  | _ => .ok none

/-- What one transaction adds to `getTxHashesFromBlock`.  The hash of an EVM transaction is that of
its first message, whatever follows it. -/
def txHashes (decoder : Bytes → Option (List Msg)) (sha256 : Bytes → Hash)
    (ethHash : Geth.Transaction → Hash) (shouldIncludeSynthetic : Bool) (tx : Bytes) :
    Outcome (List Hash) :=
  let synthetic := if shouldIncludeSynthetic then [sha256 tx] else []
  match decoder tx with
  | none => .ok []
  | some (.evmTransaction evmTx :: _) => do
    match ← ethTx evmTx with
    | none => return []
    | some ethtx => return ethHash ethtx :: synthetic
  | some _ => .ok synthetic

structure EthLog extends StateDB.Log where
  blockNumber : UInt64
  txHash : Hash
  txIndex : Nat
  blockHash : Hash := emptyHash
  deriving DecidableEq

def convertLog (l : StoredLog) (receipt : Receipt) (logStartIndex : Nat) : EthLog where
  address := l.address
  topics := l.topics
  data := l.data
  blockNumber := receipt.blockNumber
  txHash := receipt.txHash
  txIndex := receipt.transactionIndex.toNat
  index := l.index.toNat + logStartIndex

def getLogsForTx (receipt : Receipt) (logStartIndex : Nat) : List EthLog :=
  receipt.logs.map fun l => convertLog l receipt logStartIndex

def isNotFound (err : String) : Bool := decide ("not found".toList <:+: err.toList)

def receiptHash (decoder : Bytes → Option (List Msg)) (sha256 : Bytes → Hash)
    (ethHash : Geth.Transaction → Hash) (tx : Bytes) : Outcome Hash := do
  match ← getEthTxForTxBz decoder tx with
  | some etx => return ethHash etx
  | none => return sha256 tx

structure Surroundings where
  latest : Int64
  unconfirmedTxs : Nat → Except String (List Bytes)
  /-- `GetBlockBloomWithExists` at a height; `none` also when the state of the height is gone. -/
  blockBloom : Int64 → Option Bloom
  baseFeePerGas : Int64 → ℤ
  /-- `MaxGas` of the consensus parameters, and of their updates in the results of the block. -/
  maxGas : Int64 → Option Int64
  maxGasUpdate : Int64 → Option Int64
  /-- `recoverSenderWithFallback` with the signer of a block, by its height and time. -/
  recoverSender : Int64 → Int64 → Geth.Transaction → Except String Address
  /-- `recoverEVMSenderWithContext` at the latest height. -/
  recoverPendingSender : Geth.Transaction → Except String Address
  createAddress : Address → UInt64 → Address
  /-- The pointer `GetAnyPointeeInfo` has for a contract. -/
  pointee : Bytes → Option Address
  /-- `GetEVMAddressOrDefault` of a bech32 address; `none` is an address that does not parse. -/
  evmAddress : Bytes → Option Address

structure Node extends Surroundings where
  keccak256 : Bytes → Hash
  sha256 : Bytes → Hash
  hasher : Geth.Hasher
  /-- `txConfigProvider(height).TxDecoder()`; `none` is the error. -/
  txDecoder : Int64 → Bytes → Option (List Msg)
  blockByNumber : Int64 → Except String ResultBlock
  blockByHash : Hash → Except String ResultBlock
  getReceipt : Hash → Except String Receipt
  blockByNumber_height : ∀ {n b}, blockByNumber n = .ok b → b.height = n
  blockByHash_hash : ∀ {h b}, blockByHash h = .ok b → b.hash = h ∧ blockByNumber b.height = .ok b
  receipt_readable : ∀ {h err}, getReceipt h = .error err → isNotFound err = true
  receipt_hash : ∀ {h r}, getReceipt h = .ok r → r.txHash = h
  receipt_tx : ∀ {h r b}, getReceipt h = .ok r → blockByNumber r.blockNumber.toInt64 = .ok b →
    ∃ tx, b.txs[r.transactionIndex.toNat]? = some tx ∧
      receiptHash (txDecoder b.height) sha256 hasher.hash tx = .ok h
  receipt_logs : ∀ {h r}, getReceipt h = .ok r → Numbered StoredLog.index UInt32.ofNat r.logs
  receipt_bloom : ∀ {h r}, getReceipt h = .ok r → r.logs = [] ∧ r.logsBloom = [] ∨
    r.logsBloom = (createBloom keccak256 (Synthetic.getLogsForTx r)).bytes
  checksum_ne : ∀ tx etx, sha256 tx ≠ hasher.hash etx

namespace Node

variable (node : Node)

def decoder (block : ResultBlock) : Bytes → Option (List Msg) := node.txDecoder block.height

def ethHash (etx : Geth.Transaction) : Hash := node.hasher.hash etx

def getTxHashesFromBlock (block : ResultBlock) (shouldIncludeSynthetic : Bool) :
    Outcome (List Hash) := do
  let hashes ← block.txs.mapM
    (txHashes (node.decoder block) node.sha256 node.ethHash shouldIncludeSynthetic)
  return hashes.flatten

end Node

def isReceiptFromAnteError (receipt : Receipt) : Bool := receipt.effectiveGasPrice == 0

end Tabi.Rpc
