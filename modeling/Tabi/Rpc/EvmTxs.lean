import Tabi.Rpc.Logs

/-!
# Rpc — the EVM transactions of a block

A block mixes Cosmos transactions, associate transactions and EVM transactions (`Mixed`).
-/

namespace Tabi.Rpc

open Support Fallible
open Synthetic (Receipt shellEVMTxType)

inductive Reads (decoder : Bytes → Option (List Msg)) (tx : Bytes) :
    Option Geth.Transaction → Prop where
  | cosmos {msgs : List Msg} (h : decoder tx = some msgs) (hmsgs : ∀ m ∈ msgs, m.isEVM = false) :
      Reads decoder tx none
  | associate {msg : Ante.MsgEVMTransaction} (h : decoder tx = some [.evmTransaction msg])
      (hassociate : isAssociateTx msg = .ok true) : Reads decoder tx none
  | evm {msg : Ante.MsgEVMTransaction} {etx : Geth.Transaction}
      (h : decoder tx = some [.evmTransaction msg]) (hassociate : isAssociateTx msg = .ok false)
      (hetx : Ante.asTransaction msg = .ok etx) : Reads decoder tx (some etx)

namespace Reads

variable {decoder : Bytes → Option (List Msg)} {tx : Bytes} {o : Option Geth.Transaction}

theorem getEthTxForTxBz_eq (h : Reads decoder tx o) : getEthTxForTxBz decoder tx = .ok o := by
  cases h with
  | @cosmos msgs h hmsgs =>
    rw [getEthTxForTxBz, h]
    split
    · rename_i evmTx e
      cases e
      cases hmsgs _ List.mem_cons_self
    · rfl
  | associate h ha => simp only [getEthTxForTxBz, h, ethTx, ha]; rfl
  | evm h ha he => simp only [getEthTxForTxBz, h, ethTx, ha, he]; rfl

theorem txHashes_eq (h : Reads decoder tx o) (sha256 : Bytes → Hash)
    (ethHash : Geth.Transaction → Hash) :
    txHashes decoder sha256 ethHash false tx = .ok (o.map ethHash).toList := by
  cases h with
  | @cosmos msgs h hmsgs =>
    simp only [txHashes, h]
    split
    · rename_i e
      cases e
    · rename_i evmTx rest e
      cases e
      cases hmsgs _ List.mem_cons_self
    · rfl
  | associate h ha => simp only [txHashes, h, ethTx, ha]; rfl
  | evm h ha he => simp only [txHashes, h, ethTx, ha, he]; rfl

end Reads

namespace Node

variable (node : Node) (block : ResultBlock)

def Mixed : Prop := ∀ tx ∈ block.txs, ∃ o, Reads (node.decoder block) tx o

def evmTx (tx : Bytes) : Option Geth.Transaction :=
  (getEthTxForTxBz (node.decoder block) tx).toOption.join

def evmTxs : List Geth.Transaction := block.txs.filterMap (node.evmTx block)

def rank (i : Nat) : Nat := ((block.txs.take i).filterMap (node.evmTx block)).length

variable {node block}

variable {tx : Bytes} {r : Receipt} {etx : Geth.Transaction}

theorem Mixed.reads (hmix : node.Mixed block) (htx : tx ∈ block.txs) :
    Reads (node.decoder block) tx (node.evmTx block tx) := by
  obtain ⟨o, ho⟩ := hmix tx htx
  have : node.evmTx block tx = o := by
    rw [evmTx, ho.getEthTxForTxBz_eq]
    rfl
  rwa [this]

theorem receipt?_eq_some {h : Hash} : node.receipt? h = some r ↔ node.getReceipt h = .ok r := by
  rw [receipt?]
  cases node.getReceipt h with
  | error err => simp [Except.toOption]
  | ok r' => simp [Except.toOption]

theorem getTxHashesFromBlock_eq (hmix : node.Mixed block) :
    node.getTxHashesFromBlock block false = .ok ((node.evmTxs block).map node.ethHash) := by
  have hall : block.txs.mapM (txHashes (node.decoder block) node.sha256 node.ethHash false) =
      .ok (block.txs.map fun tx => ((node.evmTx block tx).map node.ethHash).toList) :=
    mapM_eq_ok fun tx htx => (hmix.reads htx).txHashes_eq _ _
  rw [getTxHashesFromBlock, hall, Outcome.ok_bind, Outcome.pure_eq_ok, evmTxs, List.map_filterMap,
    List.filterMap_eq_flatMap_toList, List.flatMap_def]

def logCount (node : Node) (etx : Geth.Transaction) : Nat :=
  (node.receipt? (node.ethHash etx)).elim 0 (·.logs.length)

theorem evmTxIndexFrom_eq {txs : List Bytes}
    (hmix : ∀ tx ∈ txs, Reads (node.decoder block) tx (node.evmTx block tx)) {k : Nat}
    (htx : txs[k]? = some tx) (hetx : node.evmTx block tx = some etx)
    (i evmTxIndex logIndex : Nat) :
    node.evmTxIndexFrom (node.decoder block) (i + k) node.receipt? false i evmTxIndex logIndex txs =
      .ok (some ⟨evmTxIndex + ((txs.take k).filterMap (node.evmTx block)).length, some etx,
        logIndex + (((txs.take k).filterMap (node.evmTx block)).map node.logCount).sum⟩) := by
  induction txs generalizing k i evmTxIndex logIndex with
  | nil => cases htx
  | cons tx' txs ih =>
    obtain ⟨hread, hmix⟩ := List.forall_mem_cons.mp hmix
    rw [evmTxIndexFrom, hread.getEthTxForTxBz_eq, Outcome.ok_bind]
    cases k with
    | zero =>
      cases htx
      rw [hetx]
      simp
    | succ k =>
      -- the first transaction is passed over, and counted if it is an EVM transaction
      have hne : ¬ i = i + (k + 1) := by omega
      have hnext : i + (k + 1) = i + 1 + k := by omega
      rw [List.take_succ_cons]
      cases he : node.evmTx block tx' with
      | some e =>
        rw [List.filterMap_cons_some he]
        simp only [if_neg hne]
        rw [hnext, ih hmix htx]
        simp only [List.length_cons, List.map_cons, List.sum_cons, logCount, Nat.add_assoc,
          Nat.add_comm 1]
      | none =>
        rw [List.filterMap_cons_none he]
        -- a synthetic receipt under the checksum is not counted here
        cases hr : node.receipt? (node.sha256 tx') with
        | none =>
          simp only
          rw [hnext, ih hmix htx]
        | some r =>
          simp only [if_neg hne]
          rw [hnext]
          exact ih hmix htx _ _ _

theorem height_of_blockNumber (h : r.blockNumber = block.height.toUInt64) :
    r.blockNumber.toInt64 = block.height := by
  rw [h, Int64.toInt64_toUInt64]

theorem receipt_evmTx (hmix : node.Mixed block)
    (hblock : node.blockByNumber block.height = .ok block)
    (hr : node.getReceipt (node.ethHash etx) = .ok r)
    (hnum : r.blockNumber.toInt64 = block.height) :
    ∃ tx etx', block.txs[r.transactionIndex.toNat]? = some tx ∧ node.evmTx block tx = some etx' ∧
      node.ethHash etx' = node.ethHash etx := by
  obtain ⟨tx, htx, hhash⟩ := node.receipt_tx hr (hnum ▸ hblock)
  have hread := hmix.reads (List.mem_of_getElem? htx)
  have heth : getEthTxForTxBz (node.txDecoder block.height) tx = .ok (node.evmTx block tx) :=
    hread.getEthTxForTxBz_eq
  rw [receiptHash, heth, Outcome.ok_bind] at hhash
  cases he : node.evmTx block tx with
  | none =>
    -- the receipt of a Cosmos transaction is stored under its checksum
    rw [he] at hhash
    exact absurd (Except.ok.inj hhash) (node.checksum_ne tx etx)
  | some etx' =>
    rw [he] at hhash
    exact ⟨tx, etx', htx, he, Except.ok.inj hhash⟩

theorem getElem?_rank {i : Nat} (htx : block.txs[i]? = some tx)
    (hetx : node.evmTx block tx = some etx) : (node.evmTxs block)[node.rank block i]? = some etx :=
  getElem?_filterMap_iff.mpr ⟨i, tx, htx, hetx, rfl⟩

/-- The number of logs before a position, as `GetEvmTxIndex` counts them. -/
def logOffset (node : Node) (block : ResultBlock) (i : Nat) : Nat :=
  (((block.txs.take i).filterMap (node.evmTx block)).map node.logCount).sum

theorem receipt_bloom_length {h : Hash} (hr : node.getReceipt h = .ok r) :
    r.logsBloom.length ≤ 256 := by
  rcases node.receipt_bloom hr with ⟨-, hbloom⟩ | hbloom
  · rw [hbloom]
    exact Nat.zero_le _
  · rw [hbloom]
    exact (FixedBytes.length_eq _).le

theorem encodeReceipt_eq (hmix : node.Mixed block)
    (htx : block.txs[r.transactionIndex.toNat]? = some tx) (hetx : node.evmTx block tx = some etx)
    (hbloom : r.logsBloom.length ≤ 256) :
    ∃ rr, node.encodeReceipt r block false = .ok rr ∧ rr.transactionHash = r.txHash ∧
      rr.transactionIndex = node.rank block r.transactionIndex.toNat ∧
      rr.logs.map EthLog.toLog =
        (getLogsForTx r (node.logOffset block r.transactionIndex.toNat)).map EthLog.toLog := by
  have hfound := evmTxIndexFrom_eq (fun tx htx => hmix.reads htx) htx hetx 0 0 0
  simp only [Nat.zero_add] at hfound
  have hbytes : Settlement.bytesToBloom r.logsBloom = .ok (.ofBytes 256 r.logsBloom) :=
    if_neg (Nat.not_lt.mpr hbloom)
  refine ⟨_, bind_eq_ok.mpr ⟨_, Fallible.ofOutcome_eq_ok.mpr hfound,
    bind_eq_ok.mpr ⟨_, Fallible.ofOutcome_eq_ok.mpr hbytes, rfl⟩⟩, rfl, rfl, ?_⟩
  simp only [getLogsForTx, List.map_map]
  rfl

structure Alike (r r' : Receipt) : Prop where
  txHash : r'.txHash = r.txHash
  transactionIndex : r'.transactionIndex = r.transactionIndex
  logs : r'.logs = r.logs
  logsBloom : r'.logsBloom = r.logsBloom

theorem fillFailed_alike (r : Receipt) (block : ResultBlock) (etx : Geth.Transaction) :
    Alike r (node.fillFailed r block etx) := by
  unfold fillFailed
  cases node.recoverSender block.height block.time etx with
  | error err => exact ⟨rfl, rfl, rfl, rfl⟩
  | ok sender =>
    cases etx.recipient with
    | none => exact ⟨rfl, rfl, rfl, rfl⟩
    | some to_ => exact ⟨rfl, rfl, rfl, rfl⟩

theorem findTx_returns {decoder : Bytes → Option (List Msg)} {txs : List Bytes}
    (hmix : ∀ tx ∈ txs, ∃ o, Reads decoder tx o) (hash : Hash) :
    ∃ o, node.findTx decoder hash txs = .ok o := by
  induction txs with
  | nil => exact ⟨none, rfl⟩
  | cons tx txs ih =>
    obtain ⟨⟨o, hread⟩, hmix⟩ := List.forall_mem_cons.mp hmix
    rw [findTx, hread.getEthTxForTxBz_eq, Outcome.ok_bind]
    cases o with
    | none => exact ih hmix
    | some etx =>
      simp only
      split
      · exact ⟨_, rfl⟩
      · exact ih hmix

theorem completed_eq (hmix : node.Mixed block) (r : Receipt) (hash : Hash) :
    ∃ r', node.completed r block hash = .ok r' ∧ Alike r r' := by
  unfold completed
  split
  · obtain ⟨o, ho⟩ := findTx_returns hmix hash
    rw [ho, Outcome.ok_bind]
    cases o with
    | none => exact ⟨r, rfl, rfl, rfl, rfl, rfl⟩
    | some etx => exact ⟨_, rfl, fillFailed_alike r block etx⟩
  · exact ⟨r, rfl, rfl, rfl, rfl, rfl⟩

theorem getTransactionReceipt_eq (hmix : node.Mixed block)
    (hblock : node.blockByNumber block.height = .ok block)
    (hr : node.getReceipt (node.ethHash etx) = .ok r)
    (hnum : r.blockNumber.toInt64 = block.height) :
    ∃ rr, node.getTransactionReceipt (node.ethHash etx) none false = .ok (some rr) ∧
      rr.transactionIndex = node.rank block r.transactionIndex.toNat ∧
      rr.logs.map EthLog.toLog =
        (getLogsForTx r (node.logOffset block r.transactionIndex.toNat)).map EthLog.toLog := by
  obtain ⟨tx, etx', htx, hetx, -⟩ := receipt_evmTx hmix hblock hr hnum
  obtain ⟨r', hr', halike⟩ := completed_eq hmix r (node.ethHash etx)
  rw [← halike.transactionIndex] at htx
  obtain ⟨rr, hrr, -, hindex, hlogs⟩ := encodeReceipt_eq hmix htx hetx
    (halike.logsBloom ▸ receipt_bloom_length hr)
  rw [halike.transactionIndex] at hindex hlogs
  refine ⟨rr, ?_, hindex, ?_⟩
  · refine bind_eq_ok.mpr ⟨false, rfl, ?_⟩
    simp only [hr, Bool.false_eq_true, if_false]
    refine bind_eq_ok.mpr ⟨block, ?_, bind_eq_ok.mpr
      ⟨r', Fallible.ofOutcome_eq_ok.mpr hr', bind_eq_ok.mpr ⟨rr, hrr, rfl⟩⟩⟩
    rw [hnum, ofErr, hblock]
    rfl
  · rw [hlogs, getLogsForTx, getLogsForTx, halike.logs, List.map_map, List.map_map]
    rfl

def collectedReceipts (node : Node) (block : ResultBlock) : List Receipt :=
  (node.evmTxs block).filterMap fun etx => node.collected false (node.ethHash etx)

def collectedBefore (node : Node) (block : ResultBlock) (k : Nat) : Nat :=
  ((node.evmTxs block).take k).countP fun etx => (node.collected false (node.ethHash etx)).isSome

def collectedLogsBefore (node : Node) (block : ResultBlock) (k : Nat) : Nat :=
  ((((node.evmTxs block).take k).filterMap fun etx =>
    node.collected false (node.ethHash etx)).map fun r => r.logs.length).sum

def reportedLogs (node : Node) (block : ResultBlock) (k : Nat) (r : Receipt) : List EthLog :=
  (logsAt r (node.collectedLogsBefore block k) (node.collectedBefore block k)).map
    fun log => { log with blockHash := block.hash }

theorem getElem?_collectedReceipts {p : Nat} :
    (node.collectedReceipts block)[p]? = some r ↔ ∃ j etx, (node.evmTxs block)[j]? = some etx ∧
      node.collected false (node.ethHash etx) = some r ∧ node.collectedBefore block j = p := by
  rw [collectedReceipts, getElem?_filterMap_iff]
  simp only [List.length_filterMap_eq_countP, collectedBefore]

theorem take_collectedReceipts (k : Nat) :
    (((node.collectedReceipts block).take (node.collectedBefore block k)).map
      fun r => r.logs.length).sum = node.collectedLogsBefore block k := by
  rw [collectedReceipts, collectedBefore, ← List.length_filterMap_eq_countP,
    take_length_filterMap, collectedLogsBefore]

theorem getLogsForBlockPooled_eq (hmix : node.Mixed block) (crit : FilterCriteria) :
    node.getLogsForBlockPooled false block crit =
      .ok (((placedLogs (node.collectedReceipts block)).filter
        fun log => isLogExactMatch log.toLog crit).map
          fun log => { log with blockHash := block.hash }) := by
  rw [getLogsForBlockPooled, collectLogs_eq, getTxHashesFromBlock_eq hmix]
  simp only [Except.map, Outcome.ok_bind, Outcome.pure_eq_ok, List.filterMap_map]
  rfl

theorem mem_getLogsForBlockPooled (hmix : node.Mixed block) (crit : FilterCriteria) :
    ∃ logs, node.getLogsForBlockPooled false block crit = .ok logs ∧ ∀ log, log ∈ logs ↔
      (∃ k etx r, (node.evmTxs block)[k]? = some etx ∧
        node.collected false (node.ethHash etx) = some r ∧ log ∈ node.reportedLogs block k r) ∧
      isLogExactMatch log.toLog crit = true := by
  refine ⟨_, getLogsForBlockPooled_eq hmix crit, fun log => ?_⟩
  simp only [List.mem_map, List.mem_filter, mem_placedLogs, getElem?_collectedReceipts,
    reportedLogs]
  constructor
  · rintro ⟨log, ⟨⟨p, r, ⟨k, etx, hk, hr, rfl⟩, hlog⟩, hmatch⟩, rfl⟩
    rw [take_collectedReceipts] at hlog
    exact ⟨⟨k, etx, r, hk, hr, log, hlog, rfl⟩, hmatch⟩
  · rintro ⟨⟨k, etx, r, hk, hr, log, hlog, rfl⟩, hmatch⟩
    rw [← take_collectedReceipts] at hlog
    exact ⟨log, ⟨⟨_, r, ⟨k, etx, hk, hr, rfl⟩, hlog⟩, hmatch⟩, rfl⟩

theorem mem_reportedLogs {k : Nat} {log : EthLog} (h : log ∈ node.reportedLogs block k r) :
    log.txHash = r.txHash ∧ log.txIndex = node.collectedBefore block k ∧
      log.blockNumber = r.blockNumber ∧ log.blockHash = block.hash := by
  obtain ⟨_, hat, rfl⟩ := List.mem_map.mp h
  obtain ⟨_, hstored, rfl⟩ := List.mem_map.mp hat
  obtain ⟨l, -, rfl⟩ := List.mem_map.mp hstored
  exact ⟨rfl, rfl, rfl, rfl⟩

end Node

end Tabi.Rpc
