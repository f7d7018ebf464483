import Tabi.Association.Address
import Tabi.EthTx.TxData

/-!
# Ante — sender recovery

`Preprocess` (`x/evm/ante/preprocess.go`) recovers the sender of an EVM message from its signature,
and records both of its addresses in the message.
-/

namespace Tabi.Ante

open Support Fallible

inductive SignerVersion where
  | london
  | cancun
  deriving DecidableEq

def signerMap : SignerVersion → ℤ → Geth.Signer
  | .london => Geth.newLondonSigner
  | .cancun => Geth.newCancunSigner

def allowedTxTypes : SignerVersion → List UInt8
  | .london => [Geth.legacyTxType, Geth.accessListTxType, Geth.dynamicFeeTxType]
  | .cancun => [Geth.legacyTxType, Geth.accessListTxType, Geth.dynamicFeeTxType, Geth.blobTxType]

def isTxTypeAllowed (version : SignerVersion) (txType : UInt8) : Bool :=
  (allowedTxTypes version).any fun t => t == txType

structure EthConfig where
  chainID : ℤ
  londonBlock : ℤ
  cancunTime : Option UInt64

/-- `getUpgradeTimestamp`: a negative time is never reached. -/
def getUpgradeTimestamp (i : Int64) : Option UInt64 := if i < 0 then none else some i.toUInt64

/-- `DefaultChainConfig().EthereumConfig(chainID)`, for a `CancunTime`. -/
def ethereumConfig (cancunTime : Int64) (chainID : ℤ) : EthConfig where
  chainID := chainID
  londonBlock := 0
  cancunTime := getUpgradeTimestamp cancunTime

def EthConfig.isCancun (cfg : EthConfig) (num : ℤ) (time : UInt64) : Bool :=
  cfg.londonBlock ≤ num && match cfg.cancunTime with
    | none => false
    | some t => t ≤ time

structure Block where
  height : Int64
  time : Int64
  cancunTime : Int64

def getVersion (block : Block) (ethCfg : EthConfig) : SignerVersion :=
  if ethCfg.isCancun block.height.toInt block.time.toUInt64 then .cancun else .london

/-- `derived.Derived`; a `Derived` that came from outside has no public key. -/
structure Derived where
  senderEVMAddr : Address
  senderTabiAddr : AccAddress
  pubKey : Option Bytes
  isAssociate : Bool
  version : SignerVersion

/-- `MsgEVMTransaction`; `data` is what `UnpackTxData` answers. -/
structure MsgEVMTransaction where
  data : Except String EthTx.TxData
  derived : Option Derived

def adjustV (V : ℤ) (txType : UInt8) (chainID : ℤ) : ℤ :=
  if txType ≠ Geth.legacyTxType then V + 27 else V - chainID * 2 - 8

section Preprocess

variable (K : Association.Crypto) (block : Block)

/-- `Preprocess` of an associate transaction: the signature is over a custom message. -/
def preprocessAssociate (atx : EthTx.AssociateTx) : Fallible Derived := do
  let V := EthTx.rawSignatureValue atx.v + 27
  let customMessageHash := K.keccak256 atx.customMessage
  let (evmAddr, tabiAddr, pubkey) ← Association.getAddresses K V (EthTx.rawSignatureValue atx.r)
    (EthTx.rawSignatureValue atx.s) customMessageHash
  return {
    senderEVMAddr := evmAddr, senderTabiAddr := tabiAddr, pubKey := some pubkey
    isAssociate := true, version := .cancun }

/-- `V` as recovery takes it, and the hash that was signed. -/
def signedHash (signer : Geth.Signer) (ethCfg : EthConfig) (ethTx : Geth.Transaction) : ℤ × Hash :=
  if ethTx.isProtected then
    (adjustV ethTx.rawV ethTx.type ethCfg.chainID, signer.hash K.toCrypto ethTx)
  else (ethTx.rawV, Geth.frontierHash K.toCrypto ethTx)

def preprocessTx (ethTx : Geth.Transaction) : Fallible Derived := do
  let chainID := ethTx.chainId
  let ethCfg := ethereumConfig block.cancunTime chainID
  let version := getVersion block ethCfg
  let signer := signerMap version chainID
  require (isTxTypeAllowed version ethTx.type) Geth.errInvalidChainId
  let (V, txHash) := signedHash K signer ethCfg ethTx
  let (evmAddr, tabiAddr, tabiPubkey) ← Association.getAddresses K V ethTx.rawR ethTx.rawS txHash
  return {
    senderEVMAddr := evmAddr, senderTabiAddr := tabiAddr, pubKey := some tabiPubkey
    isAssociate := false, version := version }

/-- What `Preprocess` derives of a message that has not been processed. -/
def derive (txData : EthTx.TxData) : Fallible Derived :=
  match txData with
  | .associateTx atx => preprocessAssociate K atx
  | txData => do
    let data ← ofOutcome txData.asEthereumData
    preprocessTx K block (Geth.newTx data)

def preprocess (msg : MsgEVMTransaction) : Fallible MsgEVMTransaction :=
  match msg.derived with
  | some derived => do
    require derived.pubKey.isSome "invalid pubkey"
    return msg
  | none => do
    let txData ← msg.data.mapError .err
    let derived ← derive K block txData
    return { msg with derived := some derived }

end Preprocess

end Tabi.Ante
