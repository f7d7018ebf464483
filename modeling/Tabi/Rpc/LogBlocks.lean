import Tabi.Rpc.Chain
import Tabi.Support.Casts

/-!
# Rpc — the block of a log

A log query fetches the blocks it asks for and collects from each the logs of its transactions.
-/

namespace Tabi.Rpc

open Support Fallible
open Synthetic (Receipt StoredLog)

namespace Node

variable {node : Node} {config : FilterConfig} {crit : FilterCriteria} {lastToHeight : Int64}

variable {end_ begin_ : Int64} {block : ResultBlock} {blocks : List ResultBlock}

theorem mem_heights {start height : Int64} (h : height ∈ heights start end_) :
    start ≤ height ∧ height ≤ end_ := by
  obtain ⟨k, hk, rfl⟩ := List.mem_map.mp h
  have hk : k < (end_.toInt - start.toInt + 1).toNat := List.mem_range.mp hk
  have hsum : (start + Int64.ofNat k).toInt = start.toInt + k :=
    toInt_add_ofNat (n := end_) (by omega)
  rw [Int64.le_iff_toInt_le, Int64.le_iff_toInt_le, hsum]
  omega

theorem fetchBlock_eq_some {height : Int64} (h : node.fetchBlock crit height = .ok (some block)) :
    node.blockByNumber height = .ok block := by
  unfold fetchBlock at h
  split at h
  · cases h
  · split at h
    · cases h
    · split at h
      · rename_i hb
        cases h
        exact hb
      · cases h

theorem mem_processBatch {start : Int64} (h : node.processBatch start end_ crit = .ok blocks)
    (hb : block ∈ blocks) :
    node.blockByNumber block.height = .ok block ∧ start ≤ block.height ∧ block.height ≤ end_ := by
  obtain ⟨found, hfound, rfl⟩ := map_eq_ok.mp h
  obtain ⟨height, hheight, hfetch⟩ :=
    exists_of_mem_mapM hfound (List.reduceOption_mem_iff.mp hb)
  have hblock := fetchBlock_eq_some hfetch
  -- the node returns a block under its own height only
  cases node.blockByNumber_height hblock
  exact ⟨hblock, mem_heights hheight⟩

theorem firstHeight_eq (hrange : end_ - begin_ + 1 ≤ config.maxBlock) (openEnded : Bool) :
    firstHeight config openEnded begin_ end_ = .ok begin_ := by
  have hnot : ¬ end_ - begin_ + 1 > config.maxBlock := by
    rw [gt_iff_lt, Int64.not_lt]
    exact hrange
  rw [firstHeight, if_neg fun e => hnot e.2, if_neg fun e => hnot e.2.2]

def Asks (node : Node) (crit : FilterCriteria) (lastToHeight : Int64) (number : UInt64)
    (hash : Hash) : Prop :=
  match crit.blockHash with
  | some blockHash => hash = blockHash
  | none => (node.heightRange crit lastToHeight).1 ≤ number.toInt64 ∧
      number.toInt64 ≤ (node.heightRange crit lastToHeight).2

theorem fetchRange_spec {fetched : Fetched}
    (h : node.fetchRange config crit lastToHeight = .ok fetched) :
    ∃ begin_, firstHeight config
        (decide (config.maxLog > 0 ∧ (crit.fromBlock = none ∨ crit.toBlock = none)))
        (node.heightRange crit lastToHeight).1 (node.heightRange crit lastToHeight).2 =
          .ok begin_ ∧
      fetched.end_ = (node.heightRange crit lastToHeight).2 ∧ begin_ ≤ fetched.end_ ∧
      ¬ fetched.end_ - begin_ + 1 < 0 ∧
      node.processBatch begin_ fetched.end_ crit = .ok fetched.blocks := by
  obtain ⟨begin_, hbegin, h⟩ := bind_eq_ok.mp h
  obtain ⟨_, hle, h⟩ := bind_eq_ok.mp h
  split at h
  · cases h
  · rename_i hsize
    obtain ⟨blocks, hblocks, h⟩ := bind_eq_ok.mp h
    cases h
    exact ⟨begin_, mapError_eq_ok.mp hbegin, rfl, require_eq_ok.mp hle, hsize,
      mapError_eq_ok.mp hblocks⟩

theorem mem_fetchRange {fetched : Fetched}
    (hrange : (node.heightRange crit lastToHeight).2 - (node.heightRange crit lastToHeight).1 + 1 ≤
      config.maxBlock) (h : node.fetchRange config crit lastToHeight = .ok fetched)
    (hb : block ∈ fetched.blocks) :
    node.blockByNumber block.height = .ok block ∧
      (node.heightRange crit lastToHeight).1 ≤ block.height ∧
      block.height ≤ (node.heightRange crit lastToHeight).2 := by
  obtain ⟨first, hfirst, hend, -, -, hbatch⟩ := fetchRange_spec h
  cases (firstHeight_eq hrange _).symm.trans hfirst
  rw [hend] at hbatch
  exact mem_processBatch hbatch hb

theorem mem_scannedBlocks (h : node.scannedBlocks config crit lastToHeight = .ok blocks)
    (hb : block ∈ blocks) :
    node.blockByNumber block.height = .ok block ∧
      node.Asks crit lastToHeight block.height.toUInt64 block.hash := by
  obtain ⟨_, hrange, h⟩ := bind_eq_ok.mp h
  obtain ⟨fetched, hfetch, h⟩ := bind_eq_ok.mp h
  cases h
  rw [fetchBlocksByCrit] at hfetch
  unfold Asks
  cases hhash : crit.blockHash with
  | none =>
    simp only [hhash] at hfetch
    obtain ⟨hblock, hlow, hhigh⟩ := mem_fetchRange (require_eq_ok.mp hrange) hfetch hb
    simp only [Int64.toInt64_toUInt64]
    exact ⟨hblock, hlow, hhigh⟩
  | some blockHash =>
    simp only [hhash] at hfetch
    split at hfetch
    · cases hfetch
      cases hb
    · split at hfetch
      · cases hfetch
        cases hb
      · rename_i b hfound
        cases hfetch
        cases List.mem_singleton.mp hb
        obtain ⟨hhash, hnumber⟩ := node.blockByHash_hash hfound
        exact ⟨hnumber, hhash⟩

theorem fetchRange_eq (hheights : node.heightRange crit lastToHeight = (begin_, end_))
    (hle : begin_ ≤ end_) (hmax : end_ - begin_ + 1 ≤ config.maxBlock)
    (hsize : ¬ end_ - begin_ + 1 < 0) (hbatch : node.processBatch begin_ end_ crit = .ok blocks) :
    node.fetchRange config crit lastToHeight = .ok ⟨blocks, end_,
      decide (config.maxLog > 0 ∧ (crit.fromBlock = none ∨ crit.toBlock = none))⟩ := by
  rw [fetchRange, hheights]
  refine bind_eq_ok.mpr ⟨_, mapError_eq_ok.mpr (firstHeight_eq hmax _),
    bind_eq_ok.mpr ⟨(), require_eq_ok.mpr hle, ?_⟩⟩
  rw [if_neg hsize]
  exact bind_eq_ok.mpr ⟨_, mapError_eq_ok.mpr hbatch, rfl⟩

theorem scannedBlocks_eq (hhash : crit.blockHash = none)
    (hheights : node.heightRange crit lastToHeight = (begin_, end_)) (hle : begin_ ≤ end_)
    (hmax : end_ - begin_ + 1 ≤ config.maxBlock) (hsize : ¬ end_ - begin_ + 1 < 0)
    (hbatch : node.processBatch begin_ end_ crit = .ok blocks) :
    node.scannedBlocks config crit lastToHeight = .ok blocks := by
  have hfetch : node.fetchRange config crit lastToHeight = _ :=
    fetchRange_eq hheights hle hmax hsize hbatch
  rw [scannedBlocks, hheights, fetchBlocksByCrit, hhash]
  exact bind_eq_ok.mpr ⟨(), require_eq_ok.mpr hmax, bind_eq_ok.mpr ⟨_, hfetch, rfl⟩⟩

def HasMatch (crit : FilterCriteria) (r : Receipt) : Prop :=
  ∃ log ∈ Synthetic.getLogsForTx r, isLogExactMatch log crit = true

theorem exists_reportedLogs_iff {k : Nat} {r : Receipt} :
    (∃ log ∈ node.reportedLogs block k r, isLogExactMatch log.toLog crit = true) ↔
      HasMatch crit r := by
  constructor
  · rintro ⟨_, hlog, hmatch⟩
    obtain ⟨log, hat, rfl⟩ := List.mem_map.mp hlog
    obtain ⟨log', hlog', ha, ht⟩ := mem_logsAt hat
    exact ⟨log', hlog', isLogExactMatch_congr ha ht crit ▸ hmatch⟩
  · rintro ⟨_, hlog, hmatch⟩
    obtain ⟨l, hl, rfl⟩ := List.mem_map.mp hlog
    refine ⟨_, List.mem_map_of_mem (List.mem_map_of_mem (List.mem_map_of_mem hl)), ?_⟩
    exact (isLogExactMatch_congr rfl rfl crit).trans hmatch

structure LogsBelong (node : Node) (crit : FilterCriteria) (lastToHeight : Int64)
    (blocks : List ResultBlock) : Prop where
  block : ∀ block ∈ blocks, ∃ logs, node.getLogsForBlockPooled false block crit = .ok logs ∧
    ∀ log ∈ logs, log.blockNumber = block.height.toUInt64 ∧ log.blockHash = block.hash ∧
      node.Asks crit lastToHeight log.blockNumber log.blockHash
  once : ∀ block ∈ blocks, ∀ block' ∈ blocks, ∀ logs logs',
    node.getLogsForBlockPooled false block crit = .ok logs →
    node.getLogsForBlockPooled false block' crit = .ok logs' →
    ∀ log ∈ logs, ∀ log' ∈ logs', log.txHash = log'.txHash → log.blockNumber = log'.blockNumber →
      block = block'

theorem getLogsForBlockPooled_block (hmix : node.Mixed block)
    (h : ∀ etx ∈ node.evmTxs block, ∀ r, node.collected false (node.ethHash etx) = some r →
      HasMatch crit r → r.blockNumber = block.height.toUInt64) :
    ∃ logs, node.getLogsForBlockPooled false block crit = .ok logs ∧ ∀ log ∈ logs,
      log.blockNumber = block.height.toUInt64 ∧ log.blockHash = block.hash := by
  obtain ⟨logs, hlogs, hmem⟩ := mem_getLogsForBlockPooled hmix crit
  refine ⟨logs, hlogs, fun log hlog => ?_⟩
  obtain ⟨⟨k, etx, r, hk, hr, hreported⟩, hmatch⟩ := (hmem log).mp hlog
  obtain ⟨-, -, hnum, hhash⟩ := mem_reportedLogs hreported
  refine ⟨hnum.trans ?_, hhash⟩
  exact h etx (List.mem_of_getElem? hk) r hr (exists_reportedLogs_iff.mp ⟨log, hreported, hmatch⟩)

end Node

def between (fromBlock toBlock : ℤ) : FilterCriteria :=
  { fromBlock := some fromBlock, toBlock := some toBlock }

def tenBlocks : Node.FilterConfig := ⟨100, 10⟩

namespace Retried

variable {node : Node} (h : Retried node)

include h

theorem fetchBlock_first : node.fetchBlock (between 1 2) 1 = .ok (some firstResult) := by
  rw [Node.fetchBlock, if_neg (by decide), if_neg fun e => absurd e.1 (by decide), h.first]

theorem fetchBlock_second {crit : FilterCriteria} (hall : crit.isFiltered = false) :
    node.fetchBlock crit 2 = .ok (some secondResult) := by
  rw [Node.fetchBlock, if_neg (by decide), hall, if_neg fun e => absurd e.1 (by decide), h.second]

theorem processBatch_second {crit : FilterCriteria} (hall : crit.isFiltered = false) :
    node.processBatch 2 2 crit = .ok [secondResult] := by
  rw [Node.processBatch, show Node.heights 2 2 = [2] from by decide, List.mapM_cons,
    h.fetchBlock_second hall]
  rfl

theorem processBatch_both :
    node.processBatch 1 2 (between 1 2) = .ok [firstResult, secondResult] := by
  rw [Node.processBatch, show Node.heights 1 2 = [1, 2] from by decide, List.mapM_cons,
    List.mapM_cons, h.fetchBlock_first, h.fetchBlock_second rfl]
  rfl

theorem scanned_second : node.scannedBlocks tenBlocks (between 2 2) 0 = .ok [secondResult] :=
  have hheights : node.heightRange (between 2 2) 0 = (2, 2) := rfl
  Node.scannedBlocks_eq rfl hheights (by decide) (by decide) (by decide) (h.processBatch_second rfl)

theorem scanned_both :
    node.scannedBlocks tenBlocks (between 1 2) 0 = .ok [firstResult, secondResult] :=
  have hheights : node.heightRange (between 1 2) 0 = (1, 2) := rfl
  Node.scannedBlocks_eq rfl hheights (by decide) (by decide) (by decide) h.processBatch_both

end Retried

end Tabi.Rpc
