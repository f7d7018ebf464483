import Tabi.Ante.Nonce
import Tabi.Rpc.Chain
import Tabi.Support.Casts

/-!
# Rpc — the reported gas price

An EVM transaction names a fee cap and a tip.
-/

namespace Tabi.Rpc

open Support Fallible
open Synthetic (Receipt)

/-- Where blocks come from: with `EthReplayConfig` or `EthBlockTestConfig` they are Ethereum blocks,
with the base fee of their header. -/
inductive BlockSource where
  | live
  | ethereum (headerBaseFee : Option ℤ)

def getBaseFee : BlockSource → Option ℤ
  | .live => none
  | .ethereum headerBaseFee => headerBaseFee

def effectiveGasPrice (tx : Geth.Transaction) (baseFee : ℤ) : ℤ :=
  min (tx.gasTipCap + baseFee) tx.gasFeeCap

/-- `GetEVMMessage`, what a receipt takes from it.  Gas is bought and refunded at its price. -/
def getEVMMessage (source : BlockSource) (tx : Geth.Transaction) (sender : Address) :
    Receipts.Message where
  from_ := sender
  to_ := tx.recipient
  nonce := tx.nonce
  data := tx.data
  gasPrice := (getBaseFee source).elim tx.gasPrice (effectiveGasPrice tx)

theorem toInt_lowWord_iff {z : ℤ} (hz : 0 ≤ z) :
    (UInt64.ofNat z.natAbs).toInt64.toInt = z ↔ z < 2 ^ 63 := by
  obtain ⟨n, rfl⟩ := Int.eq_ofNat_of_zero_le hz
  rw [Int.natAbs_natCast]
  constructor
  · intro h
    rw [← h]
    exact (UInt64.ofNat n).toInt64.toInt_lt
  · intro h
    have hn : n < 2 ^ 63 := by exact_mod_cast h
    have hto : (UInt64.ofNat n).toNat = n := by
      rw [UInt64.toNat_ofNat']
      exact Nat.mod_eq_of_lt (by omega)
    rw [toInt_toInt64_of_lt (by omega), hto]

theorem lowWord_eq_zero_iff {z : ℤ} (hz : 0 ≤ z) (hlt : z < 2 ^ 63) :
    UInt64.ofNat z.natAbs = 0 ↔ z = 0 := by
  constructor
  · intro h
    rw [← (toInt_lowWord_iff hz).mpr hlt, h]
    rfl
  · rintro rfl
    rfl

section Admitted

variable {β γ : Type} {env : Ante.Env β γ} {v v' : StateDB.Stores β γ}
  {msg : Ante.MsgEVMTransaction} {tx : Geth.Transaction}

theorem getD_nonneg_of_deref {o : Option ℤ} {z : ℤ} (h : EthTx.deref o = .ok z) (hz : 0 ≤ z) :
    0 ≤ o.getD 0 := by
  cases o with
  | none => cases h
  | some z' =>
    cases h
    exact hz

theorem asEthereumData_caps {txData : EthTx.TxData}
    (htx : txData.asEthereumData.map Geth.newTx = .ok tx) {gasFeeCap gasTipCap : ℤ}
    (hfee : (txData.getGasFeeCap >>= EthTx.deref) = .ok gasFeeCap) (hfee₀ : 0 ≤ gasFeeCap)
    (htip : (txData.getGasTipCap >>= EthTx.deref) = .ok gasTipCap) (htip₀ : 0 ≤ gasTipCap) :
    0 ≤ tx.gasFeeCap ∧ 0 ≤ tx.gasTipCap := by
  cases txData with
  | legacyTx t =>
    cases htx
    exact ⟨getD_nonneg_of_deref hfee hfee₀, getD_nonneg_of_deref hfee hfee₀⟩
  | accessListTx t =>
    cases htx
    exact ⟨getD_nonneg_of_deref hfee hfee₀, getD_nonneg_of_deref hfee hfee₀⟩
  | dynamicFeeTx t =>
    cases htx
    exact ⟨getD_nonneg_of_deref hfee hfee₀, getD_nonneg_of_deref htip htip₀⟩
  | blobTx t =>
    obtain ⟨_, hdata, rfl⟩ := map_eq_ok.mp htx
    obtain ⟨_, -, rfl⟩ := map_eq_ok.mp hdata
    exact ⟨Int.natCast_nonneg _, Int.natCast_nonneg _⟩
  | associateTx t => cases htx

theorem feeCheck_caps (h : Ante.feeCheck env v msg = .ok v') (htx : Ante.asTransaction msg = .ok tx)
    (hbase : 0 ≤ env.baseFeePerGas) : ∃ baseFee, Dec.truncateInt env.baseFeePerGas = .ok baseFee ∧
      0 ≤ baseFee ∧ 0 ≤ tx.gasFeeCap ∧ 0 ≤ tx.gasTipCap := by
  obtain ⟨txData, hdata, h⟩ := bind_eq_ok.mp h
  obtain ⟨_, hcaps, -⟩ := bind_eq_ok.mp h
  obtain ⟨gasFeeCap, hfee, hcaps⟩ := bind_eq_ok.mp hcaps
  obtain ⟨baseFee, htrunc, hcaps⟩ := bind_eq_ok.mp hcaps
  obtain ⟨_, hge, hcaps⟩ := bind_eq_ok.mp hcaps
  obtain ⟨_, -, hcaps⟩ := bind_eq_ok.mp hcaps
  obtain ⟨_, -, hcaps⟩ := bind_eq_ok.mp hcaps
  obtain ⟨gasTipCap, htip, hcaps⟩ := bind_eq_ok.mp hcaps
  have htip₀ := require_eq_ok.mp hcaps
  have hge := require_eq_ok.mp hge
  have htrunc := ofOutcome_eq_ok.mp htrunc
  have hbase₀ : 0 ≤ baseFee := by
    rw [(SdkInt.ofBig_eq_ok.mp htrunc).2]
    exact Int.tdiv_nonneg hbase (le_of_lt Dec.unit_pos)
  have hdata : msg.data = .ok txData := mapError_eq_ok.mp hdata
  rw [Ante.asTransaction, hdata] at htx
  exact ⟨baseFee, htrunc, hbase₀, asEthereumData_caps htx (ofOutcome_eq_ok.mp hfee) (by omega)
    (ofOutcome_eq_ok.mp htip) (by omega)⟩

end Admitted

variable {r : Receipt} {etx : Geth.Transaction} {h : Hash} {b : ResultBlock}

theorem Node.encodeReceipt_gasPrice {node : Node} {block : ResultBlock} {includeSynthetic : Bool}
    {rr : Node.RPCReceipt} (h : node.encodeReceipt r block includeSynthetic = .ok rr) :
    rr.effectiveGasPrice = r.effectiveGasPrice.toInt64.toInt := by
  obtain ⟨found, -, h⟩ := bind_eq_ok.mp h
  cases found with
  | none => cases h
  | some found =>
    obtain ⟨_, -, h⟩ := bind_eq_ok.mp h
    cases h
    rfl

theorem getEVMMessage_gasPrice_nonneg {source : BlockSource}
    (hheader : ∀ b ∈ getBaseFee source, 0 ≤ b) (hfee₀ : 0 ≤ etx.gasFeeCap)
    (htip₀ : 0 ≤ etx.gasTipCap) (sender : Address) :
    0 ≤ (getEVMMessage source etx sender).gasPrice := by
  cases hfee : getBaseFee source with
  | none =>
    rw [getEVMMessage, hfee]
    exact hfee₀
  | some b =>
    have hb := hheader b hfee
    simp only [getEVMMessage, hfee, Option.elim_some, effectiveGasPrice]
    omega

theorem getEVMMessage_gasPrice_eq_iff {source : BlockSource} {baseFee : ℤ} (sender : Address) :
    (getEVMMessage source etx sender).gasPrice = effectiveGasPrice etx baseFee ↔
      (getBaseFee source = none → etx.gasFeeCap ≤ etx.gasTipCap + baseFee) ∧
        ∀ b ∈ getBaseFee source, effectiveGasPrice etx b = effectiveGasPrice etx baseFee := by
  cases hfee : getBaseFee source with
  | none =>
    have hmin : etx.gasFeeCap = effectiveGasPrice etx baseFee ↔
        etx.gasFeeCap ≤ etx.gasTipCap + baseFee := by
      unfold effectiveGasPrice
      omega
    rw [getEVMMessage, hfee, Option.elim_none, Geth.Transaction.gasPrice, hmin]
    exact ⟨fun h => ⟨fun _ => h, nofun⟩, fun h => h.1 rfl⟩
  | some b =>
    rw [getEVMMessage, hfee, Option.elim_some]
    refine ⟨fun h => ⟨nofun, fun b' hb' => ?_⟩, fun h => h.2 b rfl⟩
    cases Option.mem_some.mp hb'
    exact h

/-- **The reported gas price.**  Of every transaction that the fee decorator admitted and that was
executed, the price that is reported is the one that was charged, the charged price is the
effective gas price, and the receipt is not taken for one of a failed ante handler, exactly when the
effective price is positive and below `2 ^ 63`, and either no base fee is known to the message and
the fee cap does not exceed the tip plus the base fee, or the base fee it knows gives the same
price. -/
theorem gasPrice_exact_iff {β γ : Type} {env : Ante.Env β γ} {v v' : StateDB.Stores β γ}
    {msg : Ante.MsgEVMTransaction} {etx : Geth.Transaction} {baseFee : ℤ} {source : BlockSource}
    {sender : Address} {geth : Receipts.Geth} {tx : Synthetic.Tx} {logs : List StateDB.Log}
    {txHash : Hash} {x : Receipts.Executed} {gas : UInt64} {node : Node} {block : ResultBlock}
    {includeSynthetic : Bool} {r : Receipt} {rr : Node.RPCReceipt}
    (hadmitted : Ante.feeCheck env v msg = .ok v') (hetx : Ante.asTransaction msg = .ok etx)
    (hvalid : 0 ≤ env.baseFeePerGas) (hheader : ∀ b ∈ getBaseFee source, 0 ≤ b)
    (hbase : Dec.truncateInt env.baseFeePerGas = .ok baseFee)
    (hexecuted : x.msg = getEVMMessage source etx sender)
    (hreceipt : r = { Receipts.receiptOf geth tx logs txHash x with cumulativeGasUsed := gas })
    (hencoded : node.encodeReceipt r block includeSynthetic = .ok rr) :
    (rr.effectiveGasPrice = x.msg.gasPrice ∧ x.msg.gasPrice = effectiveGasPrice etx baseFee ∧
        isReceiptFromAnteError r = false) ↔
      0 < effectiveGasPrice etx baseFee ∧ effectiveGasPrice etx baseFee < 2 ^ 63 ∧
        (getBaseFee source = none → etx.gasFeeCap ≤ etx.gasTipCap + baseFee) ∧
        ∀ b ∈ getBaseFee source, effectiveGasPrice etx b = effectiveGasPrice etx baseFee := by
  obtain ⟨_, hbase', hbase₀, hfee₀, htip₀⟩ := feeCheck_caps hadmitted hetx hvalid
  cases hbase.symm.trans hbase'
  have hword : r.effectiveGasPrice = .ofNat x.msg.gasPrice.natAbs := by
    rw [hreceipt]
    rfl
  have hreported : rr.effectiveGasPrice = (UInt64.ofNat x.msg.gasPrice.natAbs).toInt64.toInt := by
    rw [Node.encodeReceipt_gasPrice hencoded, hword]
  have hfailed : isReceiptFromAnteError r = false ↔ UInt64.ofNat x.msg.gasPrice.natAbs ≠ 0 := by
    rw [isReceiptFromAnteError, beq_eq_false_iff_ne, hword]
  have hprice₀ : 0 ≤ x.msg.gasPrice := by
    rw [hexecuted]
    exact getEVMMessage_gasPrice_nonneg hheader hfee₀ htip₀ sender
  have hcharged : x.msg.gasPrice = effectiveGasPrice etx baseFee ↔
      (getBaseFee source = none → etx.gasFeeCap ≤ etx.gasTipCap + baseFee) ∧
        ∀ b ∈ getBaseFee source, effectiveGasPrice etx b = effectiveGasPrice etx baseFee := by
    rw [hexecuted]
    exact getEVMMessage_gasPrice_eq_iff sender
  rw [hreported, hfailed, toInt_lowWord_iff hprice₀, ← hcharged]
  constructor
  · rintro ⟨hlt, heq, hne⟩
    have hne' : x.msg.gasPrice ≠ 0 := fun h => hne ((lowWord_eq_zero_iff hprice₀ hlt).mpr h)
    rw [← heq]
    exact ⟨by omega, hlt, rfl⟩
  · rintro ⟨hpos, hlt, heq⟩
    rw [← heq] at hpos hlt
    exact ⟨hlt, heq, fun h => by
      have hzero := (lowWord_eq_zero_iff hprice₀ hlt).mp h
      omega⟩

def payingChain : Ante.Env Association.PurseKey ℤ :=
  { Ante.freeChain with
    baseFeePerGas := 10 * Dec.unit
    buyGas := fun _ etx _ => .ok (etx.gas.toNat * etx.gasPrice) }

def richStores : StateDB.Stores Association.PurseKey ℤ where
  evm _ := none
  acc _ := none
  bank key := if key.2 = none then some (2 ^ 100) else none

def sentBy (txData : EthTx.TxData) : Ante.MsgEVMTransaction :=
  ⟨.ok txData, some ⟨StateDB.alice, StateDB.alice.bytes, none, false, .london⟩⟩

def legacyAt (gasPrice : ℤ) : EthTx.TxData :=
  .legacyTx { nonce := 0, gasPrice := some gasPrice, gasLimit := 21000, data := [] }

def tipOne : EthTx.TxData :=
  .dynamicFeeTx { chainID := some 9789, nonce := 0, gasTipCap := some 1, gasFeeCap := some 100
                  gasLimit := 21000, data := [] }

def onlyBlock : ResultBlock := resultBlock (.ofBytes 32 [11]) 1 [[0]]

def onlyHasher : Geth.Hasher := ⟨fun _ => .ofBytes 32 [2], fun _ _ => .ofBytes 32 [2]⟩

def onlyExecuted (etx : Geth.Transaction) : Receipts.Executed :=
  ⟨getEVMMessage .live etx StateDB.alice, .ofNat etx.type.toNat, 21000, [], none⟩

def onlyTx : Synthetic.Tx := ⟨.ofBytes 32 [1], some (.ofBytes 32 [2]), 0, 1, 0, []⟩

def onlyReceipt (etx : Geth.Transaction) : Receipt :=
  { Receipts.receiptOf chainGeth onlyTx [] (.ofBytes 32 [2]) (onlyExecuted etx) with
    cumulativeGasUsed := 21000 }

def onlyBlockAt (n : Int64) : Except String ResultBlock :=
  if n = 1 then .ok onlyBlock else .error "could not find block"

def onlyReceiptAt (etx : Geth.Transaction) (h : Hash) : Except String Receipt :=
  if h = .ofBytes 32 [2] then .ok (onlyReceipt etx) else .error "not found"

theorem onlyReceiptAt_eq_ok (hr : onlyReceiptAt etx h = .ok r) :
    h = .ofBytes 32 [2] ∧ r = onlyReceipt etx := by
  unfold onlyReceiptAt at hr
  split at hr
  · exact ⟨‹_›, (Except.ok.inj hr).symm⟩
  · cases hr

theorem onlyBlockAt_eq_ok {n : Int64} (hb : onlyBlockAt n = .ok b) : n = 1 ∧ b = onlyBlock := by
  unfold onlyBlockAt at hb
  split at hb
  · exact ⟨‹_›, (Except.ok.inj hb).symm⟩
  · cases hb

theorem onlyReceiptAt_eq_error {err : String} (hr : onlyReceiptAt etx h = .error err) :
    isNotFound err = true := by
  unfold onlyReceiptAt at hr
  split at hr
  · cases hr
  · cases hr
    decide

theorem onlyBlock_hash
    (hb : (if h = onlyBlock.hash then .ok onlyBlock else .error "could not find block") =
      Except.ok b) : b.hash = h ∧ onlyBlockAt b.height = .ok b := by
  split at hb
  · rename_i heq
    cases hb
    exact ⟨heq.symm, rfl⟩
  · cases hb

theorem onlyHasher_hash (etx : Geth.Transaction) : onlyHasher.hash etx = .ofBytes 32 [2] := by
  cases etx with
  | legacyTx t => rfl
  | accessListTx t => rfl
  | dynamicFeeTx t => rfl
  | blobTx t => rfl

def onlyDecoder (txData : EthTx.TxData) (_ : Bytes) : Option (List Msg) :=
  some [.evmTransaction ⟨.ok txData, none⟩]

theorem onlyReceiptAt_tx {txData : EthTx.TxData} (h : Reads (onlyDecoder txData) [0] (some etx))
    {hash : Hash} (hr : onlyReceiptAt etx hash = .ok r)
    (hb : onlyBlockAt r.blockNumber.toInt64 = .ok b) :
    ∃ tx, b.txs[r.transactionIndex.toNat]? = some tx ∧
      receiptHash (onlyDecoder txData) (fun _ => .ofBytes 32 [1]) onlyHasher.hash tx =
        .ok hash := by
  obtain ⟨rfl, rfl⟩ := onlyReceiptAt_eq_ok hr
  obtain ⟨-, rfl⟩ := onlyBlockAt_eq_ok hb
  refine ⟨[0], rfl, ?_⟩
  rw [← onlyHasher_hash etx, receiptHash, h.getEthTxForTxBz_eq]
  rfl

theorem onlyReceiptAt_logs (hr : onlyReceiptAt etx h = .ok r) :
    Numbered Synthetic.StoredLog.index UInt32.ofNat r.logs := by
  obtain ⟨-, rfl⟩ := onlyReceiptAt_eq_ok hr
  exact .nil

theorem onlyReceiptAt_bloom (hr : onlyReceiptAt etx h = .ok r) : r.logs = [] ∧ r.logsBloom = [] ∨
      r.logsBloom = (createBloom (fun _ => emptyHash) (Synthetic.getLogsForTx r)).bytes := by
  obtain ⟨-, rfl⟩ := onlyReceiptAt_eq_ok hr
  exact .inr rfl

theorem onlyReceiptAt_hash (hr : onlyReceiptAt etx h = .ok r) : r.txHash = h := by
  obtain ⟨rfl, rfl⟩ := onlyReceiptAt_eq_ok hr
  rfl

theorem onlyBlockAt_height {n : Int64} (hb : onlyBlockAt n = .ok b) : b.height = n := by
  obtain ⟨rfl, rfl⟩ := onlyBlockAt_eq_ok hb
  rfl

theorem onlyHasher_ne (etx : Geth.Transaction) :
    FixedBytes.ofBytes 32 [1] ≠ onlyHasher.hash etx := by
  rw [onlyHasher_hash]
  decide

def onlyNode (txData : EthTx.TxData) (etx : Geth.Transaction)
    (h : Reads (onlyDecoder txData) [0] (some etx)) : Node where
  toSurroundings := quietSurroundings
  keccak256 _ := emptyHash
  sha256 _ := .ofBytes 32 [1]
  hasher := onlyHasher
  txDecoder _ := onlyDecoder txData
  blockByNumber := onlyBlockAt
  blockByHash h := if h = onlyBlock.hash then .ok onlyBlock else .error "could not find block"
  getReceipt := onlyReceiptAt etx
  blockByNumber_height := onlyBlockAt_height
  blockByHash_hash := onlyBlock_hash
  receipt_readable := onlyReceiptAt_eq_error
  receipt_hash := onlyReceiptAt_hash
  receipt_tx := onlyReceiptAt_tx h
  receipt_logs := onlyReceiptAt_logs
  receipt_bloom := onlyReceiptAt_bloom
  checksum_ne _ := onlyHasher_ne

theorem onlyNode_encodes {txData : EthTx.TxData} (h : Reads (onlyDecoder txData) [0] (some etx)) :
    ∃ rr, (onlyNode txData etx h).encodeReceipt (onlyReceipt etx) onlyBlock false = .ok rr := by
  have hmixed : (onlyNode txData etx h).Mixed onlyBlock := List.forall_mem_singleton.mpr ⟨_, h⟩
  have hread : getEthTxForTxBz ((onlyNode txData etx h).decoder onlyBlock) [0] = .ok (some etx) :=
    h.getEthTxForTxBz_eq
  have hetx : (onlyNode txData etx h).evmTx onlyBlock [0] = some etx := by
    rw [Node.evmTx, hread]
    rfl
  obtain ⟨rr, hrr, -⟩ := Node.encodeReceipt_eq (r := onlyReceipt etx) hmixed rfl hetx
    (FixedBytes.length_eq _).le
  exact ⟨rr, hrr⟩

structure Reported (txData : EthTx.TxData) (etx : Geth.Transaction) (rr : Node.RPCReceipt) :
    Prop where
  admitted : ∃ v', Ante.feeCheck payingChain richStores (sentBy txData) = .ok v'
  transaction : Ante.asTransaction (sentBy txData) = .ok etx
  encoded : ∃ h, (onlyNode txData etx h).encodeReceipt (onlyReceipt etx) onlyBlock false = .ok rr

theorem exists_of_isOk {ε α : Type} {x : Except ε α} (h : x.isOk = true) : ∃ a, x = .ok a := by
  cases x with
  | error e => cases h
  | ok a => exact ⟨a, rfl⟩

theorem exists_reported (txData : EthTx.TxData)
    (hadmitted : (Ante.feeCheck payingChain richStores (sentBy txData)).isOk = true)
    (h : Reads (onlyDecoder txData) [0] (some etx))
    (htx : Ante.asTransaction (sentBy txData) = .ok etx) : ∃ rr, Reported txData etx rr ∧
      rr.effectiveGasPrice = (UInt64.ofNat etx.gasFeeCap.natAbs).toInt64.toInt := by
  obtain ⟨rr, hrr⟩ := onlyNode_encodes h
  exact ⟨rr, ⟨exists_of_isOk hadmitted, htx, h, hrr⟩, Node.encodeReceipt_gasPrice hrr⟩

theorem gasPrice_exact_twenty : ∃ etx rr, Reported (legacyAt 20) etx rr ∧
    rr.effectiveGasPrice = effectiveGasPrice etx 10 ∧
      isReceiptFromAnteError (onlyReceipt etx) = false := by
  obtain ⟨rr, hreported, -⟩ := exists_reported (legacyAt 20) (by decide) (.evm rfl rfl rfl) rfl
  obtain ⟨_, hadmitted⟩ := hreported.admitted
  obtain ⟨_, hencoded⟩ := hreported.encoded
  have hheader : ∀ b ∈ getBaseFee .live, 0 ≤ b := nofun
  have hbase : Dec.truncateInt payingChain.baseFeePerGas = .ok 10 := by decide
  have hexact := (gasPrice_exact_iff hadmitted hreported.transaction (by decide) hheader hbase
    (show (onlyExecuted _).msg = _ from rfl) (show onlyReceipt _ = _ from rfl) hencoded).mpr
      ⟨by decide, by decide, fun _ => by decide, nofun⟩
  exact ⟨_, _, hreported, hexact.1.trans hexact.2.1, hexact.2.2⟩

theorem gasPrice_differs : ∃ etx₁ rr₁ etx₂ rr₂ etx₃ rr₃,
    (Reported tipOne etx₁ rr₁ ∧ effectiveGasPrice etx₁ 10 = 11 ∧ rr₁.effectiveGasPrice = 100) ∧
    (Reported (legacyAt (2 ^ 63)) etx₂ rr₂ ∧ effectiveGasPrice etx₂ 10 = 2 ^ 63 ∧
      rr₂.effectiveGasPrice = -2 ^ 63) ∧
    Reported (legacyAt (2 ^ 64)) etx₃ rr₃ ∧ effectiveGasPrice etx₃ 10 = 2 ^ 64 ∧
      rr₃.effectiveGasPrice = 0 ∧ isReceiptFromAnteError (onlyReceipt etx₃) = true := by
  obtain ⟨rr₁, h₁, hprice₁⟩ := exists_reported tipOne (by decide) (.evm rfl rfl rfl) rfl
  obtain ⟨rr₂, h₂, hprice₂⟩ := exists_reported (legacyAt (2 ^ 63)) (by decide)
    (.evm rfl rfl rfl) rfl
  obtain ⟨rr₃, h₃, hprice₃⟩ := exists_reported (legacyAt (2 ^ 64)) (by decide)
    (.evm rfl rfl rfl) rfl
  exact ⟨_, rr₁, _, rr₂, _, rr₃, ⟨h₁, by decide, hprice₁.trans (by decide)⟩,
    ⟨h₂, by decide, hprice₂.trans (by decide)⟩, h₃, by decide, hprice₃.trans (by decide), by decide⟩

end Tabi.Rpc
