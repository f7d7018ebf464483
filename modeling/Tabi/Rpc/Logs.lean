import Tabi.Rpc.Handlers
import Tabi.Support.Tally

/-!
# Rpc — collecting logs

A log query (`eth_getLogs`, `evmrpc/filter.go`) fetches the blocks of a range, and collects from
each the logs of its transactions that match the criteria.
-/

namespace Tabi.Rpc

open Support Fallible
open StateDB (Log)
open Synthetic (Receipt StoredLog shellEVMTxType)

def FilterCriteria.isFiltered (crit : FilterCriteria) : Bool :=
  crit.addresses.length != 0 || crit.topics.length != 0

/-- `ethtypes.Bloom` of a slice; one that is too short panics. -/
def bloomOfSlice (b : Bytes) : Outcome Bloom :=
  if b.length < bloomByteLength then
    .error (.raised "cannot convert slice to array or pointer to array: length out of range")
  else .ok (.copyOf bloomByteLength b)

def logsAt (receipt : Receipt) (totalLogs evmTxIndex : Nat) : List EthLog :=
  (getLogsForTx receipt totalLogs).map fun log => { log with txIndex := evmTxIndex }

def receiptLogs (crit : FilterCriteria) (filters : List (List BloomIndexes))
    (applyExactMatch : Bool) (receipt : Receipt) (totalLogs evmTxIndex : Nat) :
    Outcome (List EthLog) :=
  if crit.isFiltered then
    if receipt.logsBloom.length = 0 then .ok []
    else do
      if matchFilters (← bloomOfSlice receipt.logsBloom) filters then
        return if applyExactMatch then
            (logsAt receipt totalLogs evmTxIndex).filter fun log => isLogExactMatch log.toLog crit
          else logsAt receipt totalLogs evmTxIndex
      return []
  else .ok (logsAt receipt totalLogs evmTxIndex)

structure Collected where
  logs : List EthLog
  totalLogs : Nat
  evmTxIndex : Nat

namespace Node

variable (node : Node)

/-- The receipt that `collectLogs` takes for a hash, if any. -/
def collected (includeSyntheticReceipts : Bool) (hash : Hash) : Option Receipt :=
  (node.receipt? hash).filter fun receipt => includeSyntheticReceipts ||
    !(receipt.txType == shellEVMTxType || receipt.effectiveGasPrice == 0)

def collectStep (includeSyntheticReceipts : Bool) (crit : FilterCriteria)
    (filters : List (List BloomIndexes)) (applyExactMatch : Bool) (s : Collected) (hash : Hash) :
    Outcome Collected :=
  match node.collected includeSyntheticReceipts hash with
  | none => .ok s
  | some receipt => do
    let logs ← receiptLogs crit filters applyExactMatch receipt s.totalLogs s.evmTxIndex
    return ⟨s.logs ++ logs, s.totalLogs + receipt.logs.length, s.evmTxIndex + 1⟩

def collectLogs (includeSyntheticReceipts : Bool) (block : ResultBlock) (crit : FilterCriteria)
    (filters : List (List BloomIndexes)) (applyExactMatch : Bool) : Outcome (List EthLog) := do
  let hashes ← node.getTxHashesFromBlock block includeSyntheticReceipts
  let s ← hashes.foldlM (node.collectStep includeSyntheticReceipts crit filters applyExactMatch)
    ⟨[], 0, 0⟩
  return s.logs

def filters (crit : FilterCriteria) : List (List BloomIndexes) :=
  encodeFilters node.keccak256 crit.addresses crit.topics

def getLogsForBlockPooled (includeSyntheticReceipts : Bool) (block : ResultBlock)
    (crit : FilterCriteria) : Outcome (List EthLog) := do
  let logs ← node.collectLogs includeSyntheticReceipts block crit (node.filters crit) true
  return logs.map fun log => { log with blockHash := block.hash }

structure FilterConfig where
  maxLog : Int64
  maxBlock : Int64

/-- `getHeightFromBigIntBlockNumber`: the tags pending, latest, finalized and safe are the latest
height. -/
def getHeightFromBigIntBlockNumber (latest : Int64) (blockNumber : ℤ) : Int64 :=
  if Int64.ofInt blockNumber ∈ [-1, -2, -3, -4] then latest else Int64.ofInt blockNumber

def heightRange (crit : FilterCriteria) (lastToHeight : Int64) : Int64 × Int64 :=
  let begin_ := crit.fromBlock.elim node.latest (getHeightFromBigIntBlockNumber node.latest)
  let end_ := crit.toBlock.elim node.latest (getHeightFromBigIntBlockNumber node.latest)
  let begin_ :=
    if crit.toBlock ≠ none ∧ crit.fromBlock = none ∧ begin_ > end_ then end_ else begin_
  (if lastToHeight > begin_ then lastToHeight else begin_, end_)

def heights (start end_ : Int64) : List Int64 :=
  (List.range (end_.toInt - start.toInt + 1).toNat).map fun k => start + Int64.ofNat k

def fetchBlock (crit : FilterCriteria) (height : Int64) : Except String (Option ResultBlock) :=
  if height = 0 then .ok none
  else if crit.isFiltered ∧ (node.blockBloom height).any fun bloom =>
      !matchFilters bloom (node.filters crit) then .ok none
  else
    match node.blockByNumber height with
    | .ok block => .ok (some block)
    | .error err =>
      .error ("failed to fetch block at height " ++ toString height.toInt ++ ": " ++ err)

def processBatch (start end_ : Int64) (crit : FilterCriteria) : Except String (List ResultBlock) :=
  ((heights start end_).mapM (node.fetchBlock crit)).map List.reduceOption

structure Fetched where
  blocks : List ResultBlock
  end_ : Int64
  applyOpenEndedLogLimit : Bool

def tooLarge (blockRange maxBlock : Int64) : String :=
  "block range too large (" ++ toString blockRange.toInt ++ "), maximum allowed is " ++
    toString maxBlock.toInt ++ " blocks"

def firstHeight (config : FilterConfig) (openEnded : Bool) (begin_ end_ : Int64) :
    Except String Int64 :=
  let blockRange := end_ - begin_ + 1
  if openEnded = true ∧ blockRange > config.maxBlock then
    let begin_ := end_ - config.maxBlock + 1
    .ok (if begin_ < 1 then 1 else begin_)
  else if openEnded = false ∧ config.maxBlock > 0 ∧ blockRange > config.maxBlock then
    .error (tooLarge blockRange config.maxBlock)
  else .ok begin_

def fetchRange (config : FilterConfig) (crit : FilterCriteria) (lastToHeight : Int64) :
    Fallible Fetched := do
  let openEnded := config.maxLog > 0 ∧ (crit.fromBlock = none ∨ crit.toBlock = none)
  let (begin_, end_) := node.heightRange crit lastToHeight
  let begin_ ← ofErr (firstHeight config openEnded begin_ end_)
  require (begin_ ≤ end_) ("fromBlock " ++ toString begin_.toInt ++ " is after toBlock " ++
    toString end_.toInt)
  if end_ - begin_ + 1 < 0 then .error (.panic (.raised "makechan: size out of range"))
  else
    let blocks ← ofErr (node.processBatch begin_ end_ crit)
    return ⟨blocks, end_, openEnded⟩

def fetchBlocksByCrit (config : FilterConfig) (crit : FilterCriteria) (lastToHeight : Int64) :
    Fallible Fetched :=
  match crit.blockHash with
  | none => node.fetchRange config crit lastToHeight
  | some blockHash =>
    if blockHash = emptyHash then .ok ⟨[], 0, false⟩
    else
      match node.blockByHash blockHash with
      | .error _ => .ok ⟨[], 0, false⟩
      | .ok block => .ok ⟨[block], 0, false⟩

/-- `GetLogsByFilters`, up to the blocks it collects logs from. -/
def scannedBlocks (config : FilterConfig) (crit : FilterCriteria) (lastToHeight : Int64) :
    Fallible (List ResultBlock) := do
  let (begin_, end_) := node.heightRange crit lastToHeight
  let blockRange := end_ - begin_ + 1
  require (blockRange ≤ config.maxBlock) (tooLarge blockRange config.maxBlock)
  return (← node.fetchBlocksByCrit config crit lastToHeight).blocks

end Node

theorem isLogExactMatch_congr {log log' : Log} (ha : log.address = log'.address)
    (ht : log.topics = log'.topics) (crit : FilterCriteria) :
    isLogExactMatch log crit = isLogExactMatch log' crit := by
  rw [isLogExactMatch, isLogExactMatch, ha, ht]

theorem isLogExactMatch_of_not_isFiltered {crit : FilterCriteria} (h : crit.isFiltered = false)
    (log : Log) : isLogExactMatch log crit = true := by
  rw [FilterCriteria.isFiltered, Bool.or_eq_false_iff, bne_eq_false_iff_eq,
    bne_eq_false_iff_eq] at h
  rw [isLogExactMatch, List.eq_nil_of_length_eq_zero h.1, List.eq_nil_of_length_eq_zero h.2]
  rfl

theorem mem_logsAt {receipt : Receipt} {totalLogs evmTxIndex : Nat} {log : EthLog}
    (h : log ∈ logsAt receipt totalLogs evmTxIndex) :
    ∃ log' ∈ Synthetic.getLogsForTx receipt, log.address = log'.address ∧
      log.topics = log'.topics := by
  obtain ⟨_, hlog, rfl⟩ := List.mem_map.mp h
  obtain ⟨l, hl, rfl⟩ := List.mem_map.mp hlog
  exact ⟨_, List.mem_map_of_mem hl, rfl, rfl⟩

namespace Node

variable {node : Node} {crit : FilterCriteria} {receipt : Receipt} {hash : Hash}

theorem bloomOfSlice_bytes (bloom : Bloom) : bloomOfSlice bloom.bytes = .ok bloom := by
  rw [bloomOfSlice, bloom.length_eq, if_neg (Nat.lt_irrefl _), FixedBytes.copyOf_bytes]

theorem receiptLogs_eq (h : node.getReceipt hash = .ok receipt) (totalLogs evmTxIndex : Nat) :
    receiptLogs crit (node.filters crit) true receipt totalLogs evmTxIndex =
      .ok ((logsAt receipt totalLogs evmTxIndex).filter
        fun log => isLogExactMatch log.toLog crit) := by
  unfold receiptLogs
  split
  · rcases node.receipt_bloom h with ⟨hlogs, hbloom⟩ | hbloom
    · rw [hbloom, if_pos List.length_nil, logsAt, getLogsForTx, hlogs]
      rfl
    · have hlen : ¬ receipt.logsBloom.length = 0 := by
        rw [hbloom, FixedBytes.length_eq]
        decide
      rw [if_neg hlen, hbloom, bloomOfSlice_bytes, Outcome.ok_bind]
      split
      · rfl
      · rename_i hmatch
        -- no log of the receipt matches, or the filters would match its bloom
        refine congrArg Except.ok (List.filter_eq_nil_iff.mpr fun log hlog hexact => hmatch ?_).symm
        obtain ⟨log', hlog', ha, ht⟩ := mem_logsAt hlog
        rw [isLogExactMatch_congr ha ht] at hexact
        exact matchFilters_of_exactMatch (.refl _) hlog' hexact
  · rename_i hfiltered
    refine congrArg Except.ok (List.filter_eq_self.mpr fun log _ => ?_).symm
    exact isLogExactMatch_of_not_isFiltered (Bool.eq_false_iff.mpr hfiltered) _

theorem collected_eq_some {includeSyntheticReceipts : Bool}
    (h : node.collected includeSyntheticReceipts hash = some receipt) :
    node.getReceipt hash = .ok receipt := by
  obtain ⟨h, -⟩ := Option.filter_eq_some_iff.mp h
  rw [receipt?] at h
  cases hr : node.getReceipt hash with
  | error err =>
    rw [hr] at h
    cases h
  | ok r =>
    rw [hr] at h
    cases h
    rfl

def placedLogs (receipts : List Receipt) : List EthLog :=
  (tally (fun r => r.logs.length) 0 receipts).zipIdx.flatMap fun e => logsAt e.1.1 e.1.2 e.2

theorem placedLogs_concat (receipts : List Receipt) (r : Receipt) :
    placedLogs (receipts ++ [r]) = placedLogs receipts ++
      logsAt r (receipts.map fun r => r.logs.length).sum receipts.length := by
  rw [placedLogs, tally_append, List.zipIdx_append, List.flatMap_append, length_tally]
  simp [placedLogs, tally]

theorem mem_placedLogs {receipts : List Receipt} {log : EthLog} :
    log ∈ placedLogs receipts ↔ ∃ p r, receipts[p]? = some r ∧
      log ∈ logsAt r ((receipts.take p).map fun r => r.logs.length).sum p := by
  rw [placedLogs, List.mem_flatMap]
  constructor
  · rintro ⟨⟨⟨r, n⟩, p⟩, he, hlog⟩
    rw [List.mem_zipIdx_iff_getElem?, getElem?_tally] at he
    obtain ⟨r', hr, e⟩ := Option.map_eq_some_iff.mp he
    obtain ⟨rfl, hn⟩ := Prod.mk.inj e
    rw [Nat.zero_add] at hn
    exact ⟨p, r', hr, hn ▸ hlog⟩
  · rintro ⟨p, r, hr, hlog⟩
    refine ⟨((r, ((receipts.take p).map fun r => r.logs.length).sum), p), ?_, hlog⟩
    rw [List.mem_zipIdx_iff_getElem?, getElem?_tally, hr, Option.map_some, Nat.zero_add]

def afterReceipts (crit : FilterCriteria) (receipts : List Receipt) : Collected :=
  ⟨(placedLogs receipts).filter fun log => isLogExactMatch log.toLog crit,
    (receipts.map fun r => r.logs.length).sum, receipts.length⟩

theorem collectStep_afterReceipts (includeSyntheticReceipts : Bool) (receipts : List Receipt)
    (hash : Hash) :
    node.collectStep includeSyntheticReceipts crit (node.filters crit) true
        (afterReceipts crit receipts) hash =
      .ok (afterReceipts crit
        (receipts ++ (node.collected includeSyntheticReceipts hash).toList)) := by
  unfold collectStep
  split
  · rename_i hr
    rw [hr, Option.toList_none, List.append_nil]
  · rename_i r hr
    rw [receiptLogs_eq (collected_eq_some hr), hr, Option.toList_some, Outcome.ok_bind,
      Outcome.pure_eq_ok]
    simp only [afterReceipts, placedLogs_concat, List.filter_append, List.map_append,
      List.sum_append, List.length_append, List.map_cons, List.map_nil, List.sum_singleton,
      List.length_singleton]

theorem foldlM_collectStep (node : Node) (crit : FilterCriteria) (includeSyntheticReceipts : Bool)
    (hashes : List Hash) (receipts : List Receipt) :
    hashes.foldlM (node.collectStep includeSyntheticReceipts crit (node.filters crit) true)
        (afterReceipts crit receipts) =
      .ok (afterReceipts crit
        (receipts ++ hashes.filterMap (node.collected includeSyntheticReceipts))) := by
  induction hashes generalizing receipts with
  | nil =>
    rw [List.filterMap_nil, List.append_nil]
    rfl
  | cons hash hashes ih =>
    rw [List.foldlM_cons, collectStep_afterReceipts, Outcome.ok_bind, ih, List.append_assoc]
    cases hr : node.collected includeSyntheticReceipts hash with
    | none =>
      rw [List.filterMap_cons_none hr]
      rfl
    | some r =>
      rw [List.filterMap_cons_some hr]
      rfl

theorem collectLogs_eq (node : Node) (includeSyntheticReceipts : Bool) (block : ResultBlock)
    (crit : FilterCriteria) :
    node.collectLogs includeSyntheticReceipts block crit (node.filters crit) true =
      (node.getTxHashesFromBlock block includeSyntheticReceipts).map fun hashes =>
        (placedLogs (hashes.filterMap (node.collected includeSyntheticReceipts))).filter
          fun log => isLogExactMatch log.toLog crit := by
  rw [collectLogs]
  cases node.getTxHashesFromBlock block includeSyntheticReceipts with
  | error p => rfl
  | ok hashes =>
    have hloop := foldlM_collectStep node crit includeSyntheticReceipts hashes []
    rw [List.nil_append] at hloop
    rw [Outcome.ok_bind]
    exact bind_eq_ok.mpr ⟨_, hloop, rfl⟩

theorem fetchBlock_eq {height : Int64} {block : ResultBlock} (hheight : height ≠ 0)
    (hblock : node.blockByNumber height = .ok block) (h : node.getReceipt hash = .ok receipt)
    (hbloom : ∀ bloom, node.blockBloom height = some bloom → Covers bloom.bytes receipt.logsBloom)
    {log : Log} (hlog : log ∈ Synthetic.getLogsForTx receipt)
    (hmatch : isLogExactMatch log crit = true) :
    node.fetchBlock crit height = .ok (some block) := by
  have hkept : ¬ (crit.isFiltered = true ∧ (node.blockBloom height).any fun bloom =>
      !matchFilters bloom (node.filters crit)) := by
    rintro ⟨-, hskip⟩
    obtain ⟨bloom, hbloom', hskip⟩ := Option.any_eq_true _ _ |>.mp hskip
    rcases node.receipt_bloom h with ⟨hlogs, -⟩ | hreceipt
    · rw [Synthetic.getLogsForTx, hlogs] at hlog
      cases hlog
    · have hcovers := hbloom bloom hbloom'
      rw [hreceipt] at hcovers
      rw [filters, matchFilters_of_exactMatch hcovers hlog hmatch] at hskip
      cases hskip
  rw [fetchBlock, if_neg hheight, if_neg hkept, hblock]

end Node

/-- **Blooms lose no log.**  Where a log matches the criteria, the bloom of the logs matches their
filters, and so does every bloom that contains it.  Hence collecting with the blooms of the
receipts gives what collecting without criteria and comparing every log gives; and a block is
fetched when its bloom contains that of a receipt with a matching log. -/
theorem bloom_loses_no_log :
    (∀ (keccak256 : Bytes → Hash) (crit : FilterCriteria) (logs : List Log) (bloom : Bloom),
      Covers bloom.bytes (createBloom keccak256 logs).bytes →
        (∃ log ∈ logs, isLogExactMatch log crit = true) →
          matchFilters bloom (encodeFilters keccak256 crit.addresses crit.topics) = true) ∧
    ∀ (node : Node) (crit : FilterCriteria),
      (∀ (includeSyntheticReceipts : Bool) (block : ResultBlock),
        node.collectLogs includeSyntheticReceipts block crit (node.filters crit) true =
          (node.collectLogs includeSyntheticReceipts block {} [] true).map
            (List.filter fun log => isLogExactMatch log.toLog crit)) ∧
      ∀ (height : Int64) (block : ResultBlock) (hash : Hash) (receipt : Receipt), height ≠ 0 →
        node.blockByNumber height = .ok block → node.getReceipt hash = .ok receipt →
        (∀ bloom, node.blockBloom height = some bloom →
          Covers bloom.bytes receipt.logsBloom) →
        (∃ log ∈ Synthetic.getLogsForTx receipt, isLogExactMatch log crit = true) →
          node.fetchBlock crit height = .ok (some block) := by
  refine ⟨?_, fun node crit => ⟨fun includeSyntheticReceipts block => ?_, ?_⟩⟩
  · rintro keccak256 crit logs bloom hbloom ⟨log, hlog, hmatch⟩
    exact matchFilters_of_exactMatch hbloom hlog hmatch
  · have hall := Node.collectLogs_eq node includeSyntheticReceipts block {}
    have hempty : ∀ log, isLogExactMatch log {} = true := isLogExactMatch_of_not_isFiltered rfl
    have hnone : node.filters {} = [] := rfl
    rw [hnone] at hall
    rw [Node.collectLogs_eq, hall]
    cases node.getTxHashesFromBlock block includeSyntheticReceipts with
    | error p => rfl
    | ok hashes =>
      refine congrArg Except.ok ?_
      rw [List.filter_filter]
      refine List.filter_congr fun log _ => ?_
      rw [hempty, Bool.and_true]
  · rintro height block hash receipt hheight hblock hreceipt hbloom ⟨log, hlog, hmatch⟩
    exact Node.fetchBlock_eq hheight hblock hreceipt hbloom hlog hmatch

theorem bloom_loses_no_log_zero :
    matchFilters (createBloom (fun _ => emptyHash) [⟨.zero 20, [], [], 0⟩])
      (encodeFilters (fun _ => emptyHash) [.zero 20] [[]]) = true :=
  bloom_loses_no_log.1 _ { addresses := [.zero 20], topics := [[]] } [⟨.zero 20, [], [], 0⟩] _
    (.refl _) ⟨_, List.mem_singleton_self _, by decide⟩

end Tabi.Rpc
