import Tabi.Geth.Transaction

/-!
# EthTx — the transactions of the messages

`x/evm/types/ethtx`: the protobuf records that carry an Ethereum transaction inside a message.
-/

namespace Tabi.EthTx

open Support Fallible

structure AccessTuple where
  address : Bytes
  storageKeys : List Bytes
  deriving DecidableEq

abbrev AccessList := List AccessTuple

structure BlobTxSidecar where
  blobs : List Bytes
  commitments : List Bytes
  proofs : List Bytes
  deriving DecidableEq

structure LegacyTx where
  nonce : UInt64
  gasPrice : Option ℤ := none
  gasLimit : UInt64
  recipient : Bytes := []
  amount : Option ℤ := none
  data : Bytes
  v : Bytes := []
  r : Bytes := []
  s : Bytes := []
  deriving DecidableEq

structure AccessListTx where
  chainID : Option ℤ := none
  nonce : UInt64
  gasPrice : Option ℤ := none
  gasLimit : UInt64
  recipient : Bytes := []
  amount : Option ℤ := none
  data : Bytes
  accesses : AccessList := []
  v : Bytes := []
  r : Bytes := []
  s : Bytes := []
  deriving DecidableEq

structure DynamicFeeTx where
  chainID : Option ℤ := none
  nonce : UInt64
  gasTipCap : Option ℤ := none
  gasFeeCap : Option ℤ := none
  gasLimit : UInt64
  recipient : Bytes := []
  amount : Option ℤ := none
  data : Bytes
  accesses : AccessList := []
  v : Bytes := []
  r : Bytes := []
  s : Bytes := []
  deriving DecidableEq

structure BlobTx where
  chainID : Option ℤ := none
  nonce : UInt64
  gasTipCap : Option ℤ := none
  gasFeeCap : Option ℤ := none
  gasLimit : UInt64
  recipient : Bytes := []
  amount : Option ℤ := none
  data : Bytes
  accesses : AccessList := []
  blobFeeCap : Option ℤ := none
  blobHashes : List Bytes := []
  sidecar : Option BlobTxSidecar := none
  v : Bytes := []
  r : Bytes := []
  s : Bytes := []
  deriving DecidableEq

structure AssociateTx where
  v : Bytes
  r : Bytes
  s : Bytes
  customMessage : Bytes
  deriving DecidableEq

inductive TxData where
  | legacyTx (t : LegacyTx)
  | accessListTx (t : AccessListTx)
  | dynamicFeeTx (t : DynamicFeeTx)
  | blobTx (t : BlobTx)
  | associateTx (t : AssociateTx)
  deriving DecidableEq

def maxBitLen : Nat := 256

def isValidInt256 : Option ℤ → Bool
  | none => true
  | some i => i.natAbs < 2 ^ maxBitLen

def newIntFromBigInt (z : ℤ) : Fallible ℤ := ofOutcome (SdkInt.ofBig z)

def setConvertIfPresent {U V T : Type} (orig : Option U) (converter : U → Fallible V)
    (setter : V → T → T) (t : T) : Fallible T :=
  match orig with
  | none => .ok t
  | some u => (converter u).map fun v => setter v t

def bigBytes (z : ℤ) : Bytes := natBytes z.natAbs

def rawSignatureValue (bz : Bytes) : ℤ := if 0 < bz.length then (beNat bz : ℤ) else 0

def fee (gasPrice : Option ℤ) (gas : UInt64) : Outcome ℤ :=
  match gasPrice with
  | none => .error .nilDereference
  | some p => .ok (p * gas.toNat)

def validateEthTx (tx : Geth.Transaction) : Fallible Unit := do
  require (isValidInt256 (some tx.value)) "value overflow"
  require (isValidInt256 (some tx.gasPrice)) "gas price overflow"
  require (isValidInt256 (some tx.gasFeeCap)) "gas fee cap overflow"
  require (isValidInt256 (some tx.gasTipCap)) "gas tip cap overflow"
  require (isValidInt256 tx.blobGasFeeCap) "blob gas fee cap overflow"

def validateAddress (address : Bytes) : Bool := Geth.isHexAddress address

section Text

variable (keccak256 : Bytes → Hash)

def newAccessList (l : Geth.AccessList) : AccessList :=
  l.map fun tuple =>
    { address := Geth.checksumHex keccak256 tuple.address
      storageKeys := tuple.storageKeys.map Geth.hashHex }

end Text

def toEthAccessList (al : AccessList) : Geth.AccessList :=
  al.map fun tuple =>
    { address := Geth.hexToAddress tuple.address
      storageKeys := tuple.storageKeys.map Geth.hexToHash }

def validateGasPrice : Option ℤ → Fallible Unit
  | none => .error (.err "gas price cannot be nil")
  | some gasPrice => require (¬ gasPrice < 0) s!"gas price cannot be negative {gasPrice}"

def validateFeeCaps : Option ℤ → Option ℤ → Fallible Unit
  | none, _ => .error (.err "gas tip cap cannot nil")
  | some _, none => .error (.err "gas fee cap cannot nil")
  | some gasTipCap, some gasFeeCap => do
    require (¬ gasTipCap < 0) s!"gas tip cap cannot be negative {gasTipCap}"
    require (¬ gasFeeCap < 0) s!"gas fee cap cannot be negative {gasFeeCap}"
    require (¬ gasFeeCap < gasTipCap)
      s!"max priority fee per gas higher than max fee per gas ({gasTipCap} > {gasFeeCap})"

def validateFee (fee : Outcome ℤ) : Fallible Unit := do
  let fee ← ofOutcome fee
  require (isValidInt256 (some fee)) "fee out of bound"

def validateAmount : Option ℤ → Fallible Unit
  | none => .ok ()
  | some amount => require (¬ amount < 0) s!"amount cannot be negative {amount}"

def validateTo (recipient : Bytes) : Fallible Unit :=
  require (recipient = [] ∨ validateAddress recipient) "invalid to address"

def validateChainID (chainID : Option ℤ) : Fallible Unit :=
  require chainID.isSome "chain ID must be present on AccessList txs"

def getTo (recipient : Bytes) : Option Address :=
  if recipient = [] then none else some (Geth.hexToAddress recipient)

namespace LegacyTx

def setTo (v : Bytes) (tx : LegacyTx) : LegacyTx := { tx with recipient := v }

def setAmount (v : ℤ) (tx : LegacyTx) : LegacyTx := { tx with amount := some v }

def setGasPrice (v : ℤ) (tx : LegacyTx) : LegacyTx := { tx with gasPrice := some v }

def setSignatureValues (tx : LegacyTx) (v r s : ℤ) : LegacyTx :=
  { tx with v := bigBytes v, r := bigBytes r, s := bigBytes s }

def getChainID (tx : LegacyTx) : ℤ :=
  let v := rawSignatureValue tx.v
  if v.natAbs < 2 ^ 64 then
    let v := Geth.uint64 v
    if v = 27 ∨ v = 28 then 0 else (((v - 35) / 2).toNat : ℤ)
  else (v - 35) / 2

def fee (tx : LegacyTx) : Outcome ℤ := EthTx.fee tx.gasPrice tx.gasLimit

def validate (tx : LegacyTx) : Fallible Unit := do
  validateGasPrice tx.gasPrice
  validateFee tx.fee
  validateAmount tx.amount
  validateTo tx.recipient
  validateChainID (some tx.getChainID)

def asEthereumData (tx : LegacyTx) : Geth.LegacyTx (Option ℤ) where
  nonce := tx.nonce
  gasPrice := tx.gasPrice
  gas := tx.gasLimit
  recipient := getTo tx.recipient
  value := tx.amount
  data := tx.data
  v := some (rawSignatureValue tx.v)
  r := some (rawSignatureValue tx.r)
  s := some (rawSignatureValue tx.s)

end LegacyTx

namespace AccessListTx

def setTo (v : Bytes) (tx : AccessListTx) : AccessListTx := { tx with recipient := v }

def setAmount (v : ℤ) (tx : AccessListTx) : AccessListTx := { tx with amount := some v }

def setGasPrice (v : ℤ) (tx : AccessListTx) : AccessListTx := { tx with gasPrice := some v }

def setAccesses (v : AccessList) (tx : AccessListTx) : AccessListTx := { tx with accesses := v }

def setSignatureValues (tx : AccessListTx) (chainID v r s : ℤ) : Fallible AccessListTx := do
  let chainIDInt ← newIntFromBigInt chainID
  return { tx with
    v := bigBytes v, r := bigBytes r, s := bigBytes s, chainID := some chainIDInt }

def fee (tx : AccessListTx) : Outcome ℤ := EthTx.fee tx.gasPrice tx.gasLimit

def validate (tx : AccessListTx) : Fallible Unit := do
  validateGasPrice tx.gasPrice
  validateAmount tx.amount
  validateFee tx.fee
  validateTo tx.recipient
  validateChainID tx.chainID

def asEthereumData (tx : AccessListTx) : Geth.AccessListTx (Option ℤ) where
  chainID := tx.chainID
  nonce := tx.nonce
  gasPrice := tx.gasPrice
  gas := tx.gasLimit
  recipient := getTo tx.recipient
  value := tx.amount
  data := tx.data
  accessList := toEthAccessList tx.accesses
  v := some (rawSignatureValue tx.v)
  r := some (rawSignatureValue tx.r)
  s := some (rawSignatureValue tx.s)

end AccessListTx

namespace DynamicFeeTx

def setTo (v : Bytes) (tx : DynamicFeeTx) : DynamicFeeTx := { tx with recipient := v }

def setAmount (v : ℤ) (tx : DynamicFeeTx) : DynamicFeeTx := { tx with amount := some v }

def setGasFeeCap (v : ℤ) (tx : DynamicFeeTx) : DynamicFeeTx := { tx with gasFeeCap := some v }

def setGasTipCap (v : ℤ) (tx : DynamicFeeTx) : DynamicFeeTx := { tx with gasTipCap := some v }

def setAccesses (v : AccessList) (tx : DynamicFeeTx) : DynamicFeeTx := { tx with accesses := v }

def setSignatureValues (tx : DynamicFeeTx) (chainID v r s : ℤ) : Fallible DynamicFeeTx := do
  let chainIDInt ← newIntFromBigInt chainID
  return { tx with
    v := bigBytes v, r := bigBytes r, s := bigBytes s, chainID := some chainIDInt }

def fee (tx : DynamicFeeTx) : Outcome ℤ := EthTx.fee tx.gasFeeCap tx.gasLimit

def validate (tx : DynamicFeeTx) : Fallible Unit := do
  validateFeeCaps tx.gasTipCap tx.gasFeeCap
  validateFee tx.fee
  validateAmount tx.amount
  validateTo tx.recipient
  validateChainID tx.chainID

def asEthereumData (tx : DynamicFeeTx) : Geth.DynamicFeeTx (Option ℤ) where
  chainID := tx.chainID
  nonce := tx.nonce
  gasTipCap := tx.gasTipCap
  gasFeeCap := tx.gasFeeCap
  gas := tx.gasLimit
  recipient := getTo tx.recipient
  value := tx.amount
  data := tx.data
  accessList := toEthAccessList tx.accesses
  v := some (rawSignatureValue tx.v)
  r := some (rawSignatureValue tx.r)
  s := some (rawSignatureValue tx.s)

end DynamicFeeTx

def blobTxBlobGasPerBlob : UInt64 := 131072

def sidecarConverter (sidecar : Geth.BlobTxSidecar) : BlobTxSidecar where
  blobs := sidecar.blobs.map FixedBytes.bytes
  commitments := sidecar.commitments.map FixedBytes.bytes
  proofs := sidecar.proofs.map FixedBytes.bytes

/-- The conversion of a slice to an array panics for a shorter slice. -/
def sliceToArray (n : Nat) (b : Bytes) : Outcome (FixedBytes n) :=
  if b.length < n then .error .indexOutOfRange else .ok (FixedBytes.copyOf n b)

def sidecarToEthSidecar : Option BlobTxSidecar → Outcome (Option Geth.BlobTxSidecar)
  | none => .ok none
  | some sidecar => do
    let blobs ← sidecar.blobs.mapM (sliceToArray 131072)
    let commitments ← sidecar.commitments.mapM (sliceToArray 48)
    let proofs ← sidecar.proofs.mapM (sliceToArray 48)
    return some { blobs, commitments, proofs }

namespace BlobTx

def setTo (v : Bytes) (tx : BlobTx) : BlobTx := { tx with recipient := v }

def setAmount (v : ℤ) (tx : BlobTx) : BlobTx := { tx with amount := some v }

def setGasFeeCap (v : ℤ) (tx : BlobTx) : BlobTx := { tx with gasFeeCap := some v }

def setGasTipCap (v : ℤ) (tx : BlobTx) : BlobTx := { tx with gasTipCap := some v }

def setAccesses (v : AccessList) (tx : BlobTx) : BlobTx := { tx with accesses := v }

def setBlobFeeCap (v : ℤ) (tx : BlobTx) : BlobTx := { tx with blobFeeCap := some v }

def setBlobHashes (v : List Bytes) (tx : BlobTx) : BlobTx := { tx with blobHashes := v }

def setBlobSidecar (v : BlobTxSidecar) (tx : BlobTx) : BlobTx := { tx with sidecar := some v }

def setSignatureValues (tx : BlobTx) (chainID v r s : ℤ) : Fallible BlobTx := do
  let chainIDInt ← newIntFromBigInt chainID
  return { tx with
    v := bigBytes v, r := bigBytes r, s := bigBytes s, chainID := some chainIDInt }

def blobGas (tx : BlobTx) : UInt64 := blobTxBlobGasPerBlob * UInt64.ofNat tx.blobHashes.length

def fee (tx : BlobTx) : Outcome ℤ := do
  let gasFee ← EthTx.fee tx.gasFeeCap tx.gasLimit
  let blobFee ← EthTx.fee tx.blobFeeCap tx.blobGas
  return gasFee + blobFee

def validate (tx : BlobTx) : Fallible Unit := do
  validateFeeCaps tx.gasTipCap tx.gasFeeCap
  validateFee tx.fee
  validateAmount tx.amount
  validateTo tx.recipient
  validateChainID tx.chainID

/-- `AsEthereumData`: an absent recipient is the zero address. -/
def asEthereumData (tx : BlobTx) : Outcome (Geth.BlobTx (Option Geth.Uint256)) := do
  let chainID ← Geth.mustFromBig tx.chainID
  let gasTipCap ← Geth.mustFromBig tx.gasTipCap
  let gasFeeCap ← Geth.mustFromBig tx.gasFeeCap
  let value ← Geth.mustFromBig tx.amount
  let blobFeeCap ← Geth.mustFromBig tx.blobFeeCap
  let sidecar ← sidecarToEthSidecar tx.sidecar
  let v ← Geth.mustFromBig (some (rawSignatureValue tx.v))
  let r ← Geth.mustFromBig (some (rawSignatureValue tx.r))
  let s ← Geth.mustFromBig (some (rawSignatureValue tx.s))
  return {
    chainID, nonce := tx.nonce, gasTipCap, gasFeeCap, gas := tx.gasLimit
    recipient := (getTo tx.recipient).getD (FixedBytes.zero 20), value, data := tx.data
    accessList := toEthAccessList tx.accesses, blobFeeCap
    blobHashes := tx.blobHashes.map (FixedBytes.copyOf 32), sidecar, v, r, s }

end BlobTx

section Encode

variable (keccak256 : Bytes → Hash) (tx : Geth.Transaction)

/-- The recipient as a text, in the conversions of `SetConvertIfPresent`. -/
def addressHex (a : Address) : Fallible Bytes := .ok (Geth.checksumHex keccak256 a)

def newLegacyTx : Fallible LegacyTx := do
  validateEthTx tx
  let txData : LegacyTx := { nonce := tx.nonce, data := tx.data, gasLimit := tx.gas }
  let txData ← setConvertIfPresent tx.recipient (addressHex keccak256) LegacyTx.setTo txData
  let txData ← setConvertIfPresent (some tx.value) newIntFromBigInt LegacyTx.setAmount txData
  let txData ← setConvertIfPresent (some tx.gasPrice) newIntFromBigInt LegacyTx.setGasPrice txData
  let txData := txData.setSignatureValues tx.rawV tx.rawR tx.rawS
  txData.validate
  return txData

def newAccessListTx : Fallible AccessListTx := do
  validateEthTx tx
  let txData : AccessListTx := { nonce := tx.nonce, data := tx.data, gasLimit := tx.gas }
  let txData ← setConvertIfPresent tx.recipient (addressHex keccak256) AccessListTx.setTo txData
  let txData ← setConvertIfPresent (some tx.value) newIntFromBigInt AccessListTx.setAmount txData
  let txData ← setConvertIfPresent (some tx.gasPrice) newIntFromBigInt
    AccessListTx.setGasPrice txData
  let txData ← setConvertIfPresent (some tx.accessList)
    (fun al => .ok (newAccessList keccak256 al)) AccessListTx.setAccesses txData
  let txData ← txData.setSignatureValues tx.chainId tx.rawV tx.rawR tx.rawS
  txData.validate
  return txData

def newDynamicFeeTx : Fallible DynamicFeeTx := do
  validateEthTx tx
  let txData : DynamicFeeTx := { nonce := tx.nonce, data := tx.data, gasLimit := tx.gas }
  let txData ← setConvertIfPresent tx.recipient (addressHex keccak256) DynamicFeeTx.setTo txData
  let txData ← setConvertIfPresent (some tx.value) newIntFromBigInt DynamicFeeTx.setAmount txData
  let txData ← setConvertIfPresent (some tx.gasFeeCap) newIntFromBigInt
    DynamicFeeTx.setGasFeeCap txData
  let txData ← setConvertIfPresent (some tx.gasTipCap) newIntFromBigInt
    DynamicFeeTx.setGasTipCap txData
  let txData ← setConvertIfPresent (some tx.accessList)
    (fun al => .ok (newAccessList keccak256 al)) DynamicFeeTx.setAccesses txData
  let txData ← txData.setSignatureValues tx.chainId tx.rawV tx.rawR tx.rawS
  txData.validate
  return txData

def newBlobTx : Fallible BlobTx := do
  validateEthTx tx
  let txData : BlobTx := { nonce := tx.nonce, data := tx.data, gasLimit := tx.gas }
  let txData ← setConvertIfPresent tx.recipient (addressHex keccak256) BlobTx.setTo txData
  let txData ← setConvertIfPresent (some tx.value) newIntFromBigInt BlobTx.setAmount txData
  let txData ← setConvertIfPresent (some tx.gasFeeCap) newIntFromBigInt BlobTx.setGasFeeCap txData
  let txData ← setConvertIfPresent (some tx.gasTipCap) newIntFromBigInt BlobTx.setGasTipCap txData
  let txData ← setConvertIfPresent (some tx.accessList)
    (fun al => .ok (newAccessList keccak256 al)) BlobTx.setAccesses txData
  let txData ← setConvertIfPresent tx.blobGasFeeCap newIntFromBigInt BlobTx.setBlobFeeCap txData
  let txData ← setConvertIfPresent (some tx.blobHashes)
    (fun hs => .ok (hs.map FixedBytes.bytes)) BlobTx.setBlobHashes txData
  let txData ← setConvertIfPresent tx.blobTxSidecar
    (fun sidecar => .ok (sidecarConverter sidecar)) BlobTx.setBlobSidecar txData
  let txData ← txData.setSignatureValues tx.chainId tx.rawV tx.rawR tx.rawS
  txData.validate
  return txData

def newTxDataFromTx : Fallible TxData :=
  if tx.type = Geth.dynamicFeeTxType then (newDynamicFeeTx keccak256 tx).map .dynamicFeeTx
  else if tx.type = Geth.accessListTxType then (newAccessListTx keccak256 tx).map .accessListTx
  else if tx.type = Geth.blobTxType then (newBlobTx keccak256 tx).map .blobTx
  else (newLegacyTx keccak256 tx).map .legacyTx

end Encode

def TxData.asEthereumData : TxData → Outcome Geth.TxData
  | .legacyTx t => .ok (.legacyTx t.asEthereumData)
  | .accessListTx t => .ok (.accessListTx t.asEthereumData)
  | .dynamicFeeTx t => .ok (.dynamicFeeTx t.asEthereumData)
  | .blobTx t => t.asEthereumData.map .blobTx
  | .associateTx _ => .error (.raised "not implemented")

def deref : Option ℤ → Outcome ℤ
  | none => .error .nilDereference
  | some z => .ok z

namespace TxData

def getGasFeeCap : TxData → Outcome (Option ℤ)
  | .legacyTx t => .ok t.gasPrice
  | .accessListTx t => .ok t.gasPrice
  | .dynamicFeeTx t => .ok t.gasFeeCap
  | .blobTx t => .ok t.gasFeeCap
  | .associateTx _ => .error (.raised "not implemented")

def getGasTipCap : TxData → Outcome (Option ℤ)
  | .legacyTx t => .ok t.gasPrice
  | .accessListTx t => .ok t.gasPrice
  | .dynamicFeeTx t => .ok t.gasTipCap
  | .blobTx t => .ok t.gasTipCap
  | .associateTx _ => .error (.raised "not implemented")

def getGas : TxData → Outcome UInt64
  | .legacyTx t => .ok t.gasLimit
  | .accessListTx t => .ok t.gasLimit
  | .dynamicFeeTx t => .ok t.gasLimit
  | .blobTx t => .ok t.gasLimit
  | .associateTx _ => .error (.raised "not implemented")

def effectiveGasPrice (baseFee : ℤ) : TxData → Outcome (Option ℤ)
  | .legacyTx t => .ok t.gasPrice
  | .accessListTx t => .ok t.gasPrice
  | .dynamicFeeTx t => do
    let feeCap ← deref t.gasFeeCap
    let tipCap ← deref t.gasTipCap
    return some (min (tipCap + baseFee) feeCap)
  | .blobTx t => do
    let feeCap ← deref t.gasFeeCap
    let tipCap ← deref t.gasTipCap
    return some (min (tipCap + baseFee) feeCap)
  | .associateTx _ => .error (.raised "not implemented")

end TxData

end Tabi.EthTx
