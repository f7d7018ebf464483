import Tabi.Rpc.Chain

/-!
# Rpc — the index of a log

A log of a receipt has its position there, and the handlers add the number of logs before it in the
block.
-/

namespace Tabi.Rpc

open Support
open Synthetic (Receipt StoredLog)
open StateDB (Log)

/-! ### Positions -/

namespace Node

variable {node : Node} {block : ResultBlock}

def logsBefore (node : Node) (block : ResultBlock) (k : Nat) : Nat :=
  (((node.evmTxs block).take k).map node.logCount).sum

theorem logOffset_eq (i : Nat) :
    node.logOffset block i = node.logsBefore block (node.rank block i) := by
  rw [logOffset, logsBefore, rank, evmTxs, take_length_filterMap]

theorem placedLogs_filterMap (f : Geth.Transaction → Option Receipt)
    (etxs : List Geth.Transaction) :
    placedLogs (etxs.filterMap f) = etxs.zipIdx.flatMap fun e => (f e.1).elim [] fun r =>
      logsAt r (((etxs.take e.2).filterMap f).map fun r => r.logs.length).sum
        ((etxs.take e.2).filterMap f).length := by
  induction etxs using List.reverseRecOn with
  | nil => rfl
  | append_singleton etxs etx ih =>
    -- what comes before a position of the shorter list is the same in the longer one
    have hsame : (etxs.zipIdx.flatMap fun e => (f e.1).elim [] fun r =>
        logsAt r ((((etxs ++ [etx]).take e.2).filterMap f).map fun r => r.logs.length).sum
          (((etxs ++ [etx]).take e.2).filterMap f).length) = placedLogs (etxs.filterMap f) := by
      rw [ih]
      refine List.flatMap_congr fun e he => ?_
      have hlt := (List.getElem?_eq_some_iff.mp (List.mem_zipIdx_iff_getElem?.mp he)).1
      rw [List.take_append_of_le_length hlt.le]
    rw [List.zipIdx_append, List.flatMap_append, hsame, List.filterMap_append]
    simp only [List.zipIdx_singleton, List.flatMap_singleton, Nat.zero_add, List.take_left]
    cases hr : f etx with
    | none =>
      rw [List.filterMap_cons_none hr, List.filterMap_nil, List.append_nil]
      exact (List.append_nil _).symm
    | some r =>
      rw [List.filterMap_cons_some hr, List.filterMap_nil, placedLogs_concat]
      rfl

theorem collectedLogsBefore_eq (k : Nat) : node.collectedLogsBefore block k =
    ((((node.evmTxs block).take k).filter
      fun etx => (node.collected false (node.ethHash etx)).isSome).map node.logCount).sum := by
  refine sum_filterMap fun etx _ r hr => ?_
  rw [logCount, receipt?_eq_some.mpr (collected_eq_some hr), Option.elim_some]

variable {k : Nat} {etx : Geth.Transaction} {r : Receipt} {h : Hash}

theorem collectedLogsBefore_eq_iff :
    node.collectedLogsBefore block k = node.logsBefore block k ↔
      ∀ etx ∈ (node.evmTxs block).take k, node.collected false (node.ethHash etx) = none →
        node.logCount etx = 0 := by
  rw [collectedLogsBefore_eq, logsBefore, sum_filter_eq_iff]
  simp only [Option.isSome_eq_false_iff, Option.isNone_iff_eq_none]

/-! ### Executed transactions -/

def executed (node : Node) (block : ResultBlock) (k : Nat) (etx : Geth.Transaction) :
    Option Receipt :=
  (node.receipt? (node.ethHash etx)).filter fun r => decide (Receipts.IsExecution r ∧
    r.blockNumber = block.height.toUInt64 ∧ node.rank block r.transactionIndex.toNat = k)

def executedTxs (node : Node) (block : ResultBlock) : List Geth.Transaction :=
  ((node.evmTxs block).zipIdx.filter fun e => (node.executed block e.2 e.1).isSome).map Prod.fst

def shownLogs (node : Node) (etx : Geth.Transaction) : List EthLog :=
  match node.getTransactionReceipt (node.ethHash etx) none false with
  | .ok (some r) => r.logs
  | _ => []

theorem executed_eq_some :
    node.executed block k etx = some r ↔ node.getReceipt (node.ethHash etx) = .ok r ∧
      Receipts.IsExecution r ∧ r.blockNumber = block.height.toUInt64 ∧
      node.rank block r.transactionIndex.toNat = k := by
  rw [executed, Option.filter_eq_some_iff, receipt?_eq_some, decide_eq_true_iff]

theorem logCount_of_executed (h : node.executed block k etx = some r) :
    node.logCount etx = r.logs.length := by
  rw [logCount, receipt?_eq_some.mpr (executed_eq_some.mp h).1, Option.elim_some]

theorem getTransactionReceipt_logs (hmix : node.Mixed block)
    (hblock : node.blockByNumber block.height = .ok block)
    (h : node.executed block k etx = some r) :
    ∃ rr, node.getTransactionReceipt (node.ethHash etx) none false = .ok (some rr) ∧
      rr.logs.map EthLog.toLog =
        (getLogsForTx r (node.logsBefore block k)).map EthLog.toLog := by
  obtain ⟨hr, -, hnum, rfl⟩ := executed_eq_some.mp h
  obtain ⟨rr, hrr, -, hlogs⟩ :=
    getTransactionReceipt_eq hmix hblock hr (height_of_blockNumber hnum)
  exact ⟨rr, hrr, logOffset_eq _ ▸ hlogs⟩

theorem shownLogs_eq (hmix : node.Mixed block)
    (hblock : node.blockByNumber block.height = .ok block)
    (h : node.executed block k etx = some r) :
    (node.shownLogs etx).map EthLog.toLog =
      (getLogsForTx r (node.logsBefore block k)).map EthLog.toLog := by
  obtain ⟨rr, hrr, hlogs⟩ := getTransactionReceipt_logs hmix hblock h
  rw [shownLogs, hrr]
  exact hlogs

/-! ### Numbers without gaps -/

def indexOf (log : EthLog) : Nat := log.index

theorem getLogsForTx_numbered_iff (hr : node.getReceipt h = .ok r) {a n : Nat} :
    Numbered indexOf (fun i => a + i) (getLogsForTx r n) ↔
      (r.logs ≠ [] → n = a ∧ r.logs.length ≤ 2 ^ 32) := by
  have hlogs := node.receipt_logs hr
  rw [getLogsForTx, Numbered.map_iff]
  constructor
  · intro hnum hne
    obtain ⟨l, hl⟩ : ∃ l, r.logs[0]? = some l := by
      rw [List.getElem?_eq_getElem (List.length_pos_iff.mpr hne)]
      exact ⟨_, rfl⟩
    have hzero : l.index.toNat + n = a + 0 := hnum 0 l hl
    rw [hlogs 0 l hl] at hzero
    have hna : n = a := by simpa using hzero
    refine ⟨hna, Nat.le_of_not_lt fun hlt => ?_⟩
    -- the log after the last index has index zero again
    have hl' := List.getElem?_eq_getElem hlt
    have hlast : (r.logs[2 ^ 32]).index.toNat + n = a + 2 ^ 32 := hnum _ _ hl'
    rw [hlogs _ _ hl', show (UInt32.ofNat (2 ^ 32)).toNat = 0 from rfl] at hlast
    omega
  · intro h i l hl
    have hlt := (List.getElem?_eq_some_iff.mp hl).1
    obtain ⟨rfl, hfits⟩ := h (List.ne_nil_of_length_pos (Nat.zero_lt_of_lt hlt))
    show l.index.toNat + n = n + i
    rw [hlogs i l hl, UInt32.toNat_ofNat_of_lt' (hlt.trans_le hfits), Nat.add_comm]

theorem length_shownLogs (hmix : node.Mixed block)
    (hblock : node.blockByNumber block.height = .ok block)
    (h : (node.executed block k etx).isSome = true) :
    (node.shownLogs etx).length = node.logCount etx := by
  obtain ⟨r, hr⟩ := Option.isSome_iff_exists.mp h
  rw [← List.length_map EthLog.toLog, shownLogs_eq hmix hblock hr, logCount_of_executed hr,
    List.length_map, getLogsForTx, List.length_map]

theorem numbered_congr {logs logs' : List EthLog}
    (h : logs.map EthLog.toLog = logs'.map EthLog.toLog) {at_ : Nat → Nat} :
    Numbered indexOf at_ logs ↔ Numbered indexOf at_ logs' := by
  have hmap : ∀ logs : List EthLog,
      Numbered indexOf at_ logs ↔ Numbered Log.index at_ (logs.map EthLog.toLog) :=
    fun logs => (Numbered.map_iff EthLog.toLog).symm
  rw [hmap, hmap, h]

def logsShownAt (node : Node) (block : ResultBlock) (e : Geth.Transaction × Nat) : List EthLog :=
  if (node.executed block e.2 e.1).isSome = true then node.shownLogs e.1 else []

theorem sum_logsShownAt_eq_iff (hmix : node.Mixed block)
    (hblock : node.blockByNumber block.height = .ok block) :
    (((node.evmTxs block).zipIdx.take k).map fun e => (node.logsShownAt block e).length).sum =
        node.logsBefore block k ↔
      ∀ e ∈ (node.evmTxs block).zipIdx.take k, node.executed block e.2 e.1 = none →
        node.logCount e.1 = 0 := by
  have hall : node.logsBefore block k =
      (((node.evmTxs block).zipIdx.take k).map fun e => node.logCount e.1).sum := by
    have hfst : ((node.evmTxs block).zipIdx.take k).map Prod.fst = (node.evmTxs block).take k := by
      rw [List.map_take, List.zipIdx_map_fst]
    rw [logsBefore, ← hfst, List.map_map]
    rfl
  have hshown : (((node.evmTxs block).zipIdx.take k).map
      fun e => (node.logsShownAt block e).length).sum =
      ((((node.evmTxs block).zipIdx.take k).filter
        fun e => (node.executed block e.2 e.1).isSome).map fun e => node.logCount e.1).sum := by
    rw [sum_filter]
    refine congrArg List.sum (List.map_congr_left fun e _ => ?_)
    unfold logsShownAt
    split
    · exact length_shownLogs hmix hblock ‹_›
    · rfl
  rw [hall, hshown, sum_filter_eq_iff]
  simp only [Option.isSome_eq_false_iff, Option.isNone_iff_eq_none]

theorem shownLogs_numbered_iff (hmix : node.Mixed block)
    (hblock : node.blockByNumber block.height = .ok block) :
    Numbered indexOf id ((node.executedTxs block).flatMap node.shownLogs) ↔
      ∀ (k : Nat) etx r, (node.evmTxs block)[k]? = some etx → node.executed block k etx = some r →
        r.logs ≠ [] → r.logs.length ≤ 2 ^ 32 ∧
          ∀ e ∈ (node.evmTxs block).zipIdx.take k, node.executed block e.2 e.1 = none →
            node.logCount e.1 = 0 := by
  have hflat : (node.executedTxs block).flatMap node.shownLogs =
      (node.evmTxs block).zipIdx.flatMap (node.logsShownAt block) := by
    rw [executedTxs, List.flatMap_map, flatMap_filter]
    rfl
  have hat : ∀ {k etx r}, node.executed block k etx = some r → ∀ a,
      Numbered indexOf (fun i => a + i) (node.logsShownAt block (etx, k)) ↔
        (r.logs ≠ [] → node.logsBefore block k = a ∧ r.logs.length ≤ 2 ^ 32) := by
    intro k etx r hr a
    rw [← getLogsForTx_numbered_iff (executed_eq_some.mp hr).1, logsShownAt,
      if_pos (by rw [hr]; rfl), numbered_congr (shownLogs_eq hmix hblock hr)]
  rw [hflat, Numbered.flatMap_iff]
  constructor
  · intro h k etx r hk hr hne
    obtain ⟨heq, hfits⟩ := (hat hr _).mp (h k _ (getElem?_zipIdx_of hk)) hne
    exact ⟨hfits, (sum_logsShownAt_eq_iff hmix hblock).mp heq.symm⟩
  · intro h k e he
    rw [List.getElem?_zipIdx, Nat.zero_add] at he
    obtain ⟨etx, hk, rfl⟩ := Option.map_eq_some_iff.mp he
    cases hr : node.executed block k etx with
    | none =>
      rw [logsShownAt, if_neg (by rw [hr]; exact nofun)]
      exact .nil
    | some r =>
      refine (hat hr _).mpr fun hne => ?_
      obtain ⟨hfits, hnone⟩ := h k etx r hk hr hne
      exact ⟨((sum_logsShownAt_eq_iff hmix hblock).mpr hnone).symm, hfits⟩

/-! ### Logs of a query -/

def queriedLogs (node : Node) (block : ResultBlock) (h : Hash) : List Log :=
  ((placedLogs (node.collectedReceipts block)).filter fun log => decide (log.txHash = h)).map
    EthLog.toLog

theorem getLogsForBlockPooled_queried (hmix : node.Mixed block) (crit : FilterCriteria) :
    ∃ logs, node.getLogsForBlockPooled false block crit = .ok logs ∧ ∀ h,
      (logs.filter fun log => decide (log.txHash = h)).map EthLog.toLog =
        (node.queriedLogs block h).filter fun log => isLogExactMatch log crit := by
  refine ⟨_, getLogsForBlockPooled_eq hmix crit, fun h => ?_⟩
  rw [queriedLogs, List.filter_map, List.filter_map, List.filter_filter, List.filter_filter,
    List.map_map]
  refine congrArg (List.map _) (List.filter_congr fun log _ => ?_)
  exact Bool.and_comm _ _

theorem txHash_logsAt {totalLogs evmTxIndex : Nat} {log : EthLog}
    (h : log ∈ logsAt r totalLogs evmTxIndex) : log.txHash = r.txHash := by
  obtain ⟨_, hstored, rfl⟩ := List.mem_map.mp h
  obtain ⟨l, -, rfl⟩ := List.mem_map.mp hstored
  rfl

theorem filter_logsAt (r : Receipt) (totalLogs evmTxIndex : Nat) (h : Hash) :
    ((logsAt r totalLogs evmTxIndex).filter fun log => decide (log.txHash = h)).map EthLog.toLog =
      if r.txHash = h then (getLogsForTx r totalLogs).map EthLog.toLog else [] := by
  by_cases hhash : r.txHash = h
  · rw [if_pos hhash, List.filter_eq_self.mpr, logsAt, List.map_map]
    · rfl
    · intro log hlog
      exact decide_eq_true ((txHash_logsAt hlog).trans hhash)
  · rw [if_neg hhash, List.filter_eq_nil_iff.mpr, List.map_nil]
    intro log hlog hmem
    exact hhash ((txHash_logsAt hlog).symm.trans (of_decide_eq_true hmem))

def contribution (node : Node) (block : ResultBlock) (h : Hash) (e : Geth.Transaction × Nat) :
    List Log :=
  if node.ethHash e.1 = h then
    (node.collected false h).elim [] fun r =>
      (getLogsForTx r (node.collectedLogsBefore block e.2)).map EthLog.toLog
  else []

theorem queriedLogs_eq (h : Hash) : node.queriedLogs block h =
    (node.evmTxs block).zipIdx.flatMap (node.contribution block h) := by
  rw [queriedLogs, collectedReceipts, placedLogs_filterMap, List.filter_flatMap, List.map_flatMap]
  refine List.flatMap_congr fun e _ => ?_
  unfold contribution
  cases hr : node.collected false (node.ethHash e.1) with
  | none =>
    split
    · rename_i hhash
      rw [← hhash, hr]
      rfl
    · rfl
  | some r =>
    rw [Option.elim_some, filter_logsAt, node.receipt_hash (collected_eq_some hr)]
    split
    · rename_i hhash
      rw [← hhash, hr]
      rfl
    · rfl

theorem contribution_of_collected (hc : node.collected false h = some r)
    {e : Geth.Transaction × Nat} (he : node.ethHash e.1 = h) : node.contribution block h e =
      (getLogsForTx r (node.collectedLogsBefore block e.2)).map EthLog.toLog := by
  rw [contribution, if_pos he, hc, Option.elim_some]

theorem length_getLogsForTx (r : Receipt) (n : Nat) :
    ((getLogsForTx r n).map EthLog.toLog).length = r.logs.length := by
  rw [List.length_map, getLogsForTx, List.length_map]

theorem getLogsForTx_inj (hne : r.logs ≠ []) {a b : Nat}
    (h : (getLogsForTx r a).map EthLog.toLog = (getLogsForTx r b).map EthLog.toLog) : a = b := by
  obtain ⟨l, ls, hlogs⟩ := List.exists_cons_of_ne_nil hne
  rw [getLogsForTx, getLogsForTx, hlogs] at h
  have hindex : l.index.toNat + a = l.index.toNat + b :=
    congrArg Log.index (List.cons.inj h).1
  omega

theorem once_of_length (hk : (node.evmTxs block)[k]? = some etx) (hne : r.logs ≠ [])
    (hc : node.collected false (node.ethHash etx) = some r)
    (hlen : (node.queriedLogs block (node.ethHash etx)).length = r.logs.length) :
    ∀ (j : Nat) e, (node.evmTxs block)[j]? = some e → node.ethHash e = node.ethHash etx →
      j = k := by
  intro j e hj hhash
  by_contra hjk
  -- two positions contribute the logs of the receipt, and it has some
  have htwo := add_le_sum (w := fun e => (node.contribution block (node.ethHash etx) e).length)
    hjk (getElem?_zipIdx_of hj) (getElem?_zipIdx_of hk)
  rw [contribution_of_collected hc hhash, contribution_of_collected hc rfl, length_getLogsForTx,
    length_getLogsForTx] at htwo
  rw [queriedLogs_eq, List.length_flatMap] at hlen
  have hpos := List.length_pos_iff.mpr hne
  omega

theorem queriedLogs_once (hk : (node.evmTxs block)[k]? = some etx)
    (hc : node.collected false (node.ethHash etx) = some r)
    (honce : ∀ (j : Nat) e, (node.evmTxs block)[j]? = some e →
      node.ethHash e = node.ethHash etx → j = k) :
    node.queriedLogs block (node.ethHash etx) =
      (getLogsForTx r (node.collectedLogsBefore block k)).map EthLog.toLog := by
  rw [queriedLogs_eq, flatMap_eq_of_getElem? (getElem?_zipIdx_of hk),
    contribution_of_collected hc rfl]
  intro j e hj hjk
  rw [List.getElem?_zipIdx, Nat.zero_add] at hj
  obtain ⟨etx', hetx', rfl⟩ := Option.map_eq_some_iff.mp hj
  exact if_neg fun hhash => hjk (honce j etx' hetx' hhash)

theorem queriedLogs_eq_nil (hnone : ∀ r, node.collected false h = some r → r.logs = []) :
    node.queriedLogs block h = [] := by
  rw [queriedLogs_eq, List.flatMap_eq_nil_iff]
  intro e _
  unfold contribution
  split
  · cases hc : node.collected false h with
    | none => rfl
    | some r =>
      rw [Option.elim_some, getLogsForTx, hnone r hc]
      rfl
  · rfl

theorem sameLogs_iff (hk : (node.evmTxs block)[k]? = some etx)
    (hr : node.executed block k etx = some r) :
    node.queriedLogs block (node.ethHash etx) =
        (getLogsForTx r (node.logsBefore block k)).map EthLog.toLog ↔
      (r.logs ≠ [] → node.collected false (node.ethHash etx) = some r ∧
        (∀ (j : Nat) e, (node.evmTxs block)[j]? = some e → node.ethHash e = node.ethHash etx →
          j = k) ∧ node.collectedLogsBefore block k = node.logsBefore block k) := by
  have hsome : ∀ {r'}, node.collected false (node.ethHash etx) = some r' → r' = r := fun hc =>
    Except.ok.inj ((collected_eq_some hc).symm.trans (executed_eq_some.mp hr).1)
  constructor
  · intro heq hne
    have hlen := congrArg List.length heq
    rw [length_getLogsForTx] at hlen
    cases hc : node.collected false (node.ethHash etx) with
    | none =>
      have hnone : node.queriedLogs block (node.ethHash etx) = [] :=
        queriedLogs_eq_nil fun r' hc' => by cases hc.symm.trans hc'
      rw [hnone] at hlen
      exact absurd (List.eq_nil_of_length_eq_zero hlen.symm) hne
    | some r' =>
      cases hsome hc
      have honce := once_of_length hk hne hc hlen
      exact ⟨rfl, honce, getLogsForTx_inj hne ((queriedLogs_once hk hc honce).symm.trans heq)⟩
  · intro h
    by_cases hne : r.logs = []
    · rw [queriedLogs_eq_nil fun r' hc => hsome hc ▸ hne, getLogsForTx, hne]
      rfl
    · obtain ⟨hc, honce, hbefore⟩ := h hne
      rw [queriedLogs_once hk hc honce, hbefore]

/-! ### One index for a log -/

structure LogIndexAgrees (node : Node) (block : ResultBlock) : Prop where
  same : ∀ etx ∈ node.executedTxs block, ∀ crit, ∃ rr logs,
    node.getTransactionReceipt (node.ethHash etx) none false = .ok (some rr) ∧
    node.getLogsForBlockPooled false block crit = .ok logs ∧
    (rr.logs.map EthLog.toLog).filter (fun log => isLogExactMatch log crit) =
      (logs.filter fun log => decide (log.txHash = node.ethHash etx)).map EthLog.toLog
  numbered : Numbered indexOf id ((node.executedTxs block).flatMap node.shownLogs)

structure CountedAlike (node : Node) (block : ResultBlock) (k : Nat) (etx : Geth.Transaction)
    (r : Receipt) : Prop where
  collected : node.collected false (node.ethHash etx) = some r
  once : ∀ j e, (node.evmTxs block)[j]? = some e → node.ethHash e = node.ethHash etx → j = k
  fits : r.logs.length ≤ 2 ^ 32
  before : ∀ j < k, ∀ e, (node.evmTxs block)[j]? = some e → node.executed block j e = none →
    node.logCount e = 0

theorem mem_executedTxs : etx ∈ node.executedTxs block ↔
    ∃ k r, (node.evmTxs block)[k]? = some etx ∧ node.executed block k etx = some r := by
  simp only [executedTxs, List.mem_map, List.mem_filter, List.mem_zipIdx_iff_getElem?,
    Option.isSome_iff_exists]
  constructor
  · rintro ⟨⟨_, k⟩, ⟨hk, r, hr⟩, rfl⟩
    exact ⟨k, r, hk, hr⟩
  · rintro ⟨k, r, hk, hr⟩
    exact ⟨(etx, k), ⟨hk, r, hr⟩, rfl⟩

theorem same_iff (hmix : node.Mixed block) (hblock : node.blockByNumber block.height = .ok block)
    (hr : node.executed block k etx = some r) :
    (∀ crit, ∃ rr logs,
      node.getTransactionReceipt (node.ethHash etx) none false = .ok (some rr) ∧
      node.getLogsForBlockPooled false block crit = .ok logs ∧
      (rr.logs.map EthLog.toLog).filter (fun log => isLogExactMatch log crit) =
        (logs.filter fun log => decide (log.txHash = node.ethHash etx)).map EthLog.toLog) ↔
      node.queriedLogs block (node.ethHash etx) =
        (getLogsForTx r (node.logsBefore block k)).map EthLog.toLog := by
  obtain ⟨rr, hrr, hshown⟩ := getTransactionReceipt_logs hmix hblock hr
  constructor
  · intro h
    obtain ⟨logs, hlogs, hqueried⟩ := getLogsForBlockPooled_queried hmix {}
    obtain ⟨_, _, hrr', hlogs', heq⟩ := h {}
    rw [hrr] at hrr'
    rw [hlogs] at hlogs'
    cases hrr'
    cases hlogs'
    have hempty : ∀ l : List Log, l.filter (fun log => isLogExactMatch log {}) = l := fun l =>
      List.filter_eq_self.mpr fun log _ => isLogExactMatch_of_not_isFiltered rfl log
    rw [hqueried, hempty, hempty, hshown] at heq
    exact heq.symm
  · intro h crit
    obtain ⟨logs, hlogs, hqueried⟩ := getLogsForBlockPooled_queried hmix crit
    refine ⟨rr, logs, hrr, hlogs, ?_⟩
    rw [hqueried, hshown, h]

end Node

theorem Node.executed_of_paid {node : Node} {block : ResultBlock} {k : Nat} {etx : Geth.Transaction}
    {r : Receipt} (hr : node.getReceipt (node.ethHash etx) = .ok r) {height : UInt64}
    {index : UInt32} (hpaid : Paid height index r) :
    node.executed block k etx = if height = block.height.toUInt64 ∧
      node.rank block index.toNat = k then some r else none := by
  rw [executed, receipt?_eq_some.mpr hr, Option.filter_some, hpaid.blockNumber,
    hpaid.transactionIndex]
  simp only [hpaid.execution, true_and, decide_eq_true_iff]

end Tabi.Rpc
