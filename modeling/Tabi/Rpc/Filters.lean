import Mathlib.Data.List.Sort
import Tabi.Rpc.LogBlocks
import Tabi.Support.Coverage
import Tabi.Support.Merge

/-!
# Rpc — filters and subscriptions

A client that follows logs creates a filter and polls it, or subscribes (`evmrpc/filter.go`,
`evmrpc/subscribe.go`).
-/

namespace Tabi.Rpc

open Support Fallible

deriving instance DecidableEq for ResultBlock

def LogLe (x y : EthLog) : Prop :=
  if x.blockNumber = y.blockNumber then x.index ≤ y.index else x.blockNumber < y.blockNumber

instance : DecidableRel LogLe := fun x y =>
  inferInstanceAs (Decidable (if x.blockNumber = y.blockNumber then x.index ≤ y.index
    else x.blockNumber < y.blockNumber))

/-- What the workers are free in: the order in which blocks come in, how `sort.Slice` orders equal
logs, and which of equal logs the heap of `mergeSortedLogs` returns first. -/
structure Workers where
  arrive : List ResultBlock → List ResultBlock
  sort : List EthLog → List EthLog
  merge : List (List EthLog) → List EthLog
  arrive_perm : ∀ blocks, (arrive blocks).Perm blocks
  sort_perm : ∀ logs, (sort logs).Perm logs
  sort_sorted : ∀ logs, (sort logs).Pairwise LogLe
  merges : ∀ batches, Merges LogLe batches (merge batches)

def workerBatchSize : Nat := 100

structure LogFetcher where
  config : Node.FilterConfig
  includeSyntheticReceipts : Bool
  workers : Workers

namespace LogFetcher

variable (f : LogFetcher) (node : Node) (crit : FilterCriteria)

/-- The logs of a batch.  A panic is recovered by the worker, and nothing is left of the batch. -/
def batchLogs (batch : List ResultBlock) : Option (List EthLog) :=
  (batch.mapM fun block => node.getLogsForBlockPooled f.includeSyntheticReceipts block
    crit).toOption.map List.flatten

def batches (blocks : List ResultBlock) : List (List ResultBlock) :=
  batched workerBatchSize [] (f.workers.arrive blocks)

def mergedLogs (blocks : List ResultBlock) : List EthLog :=
  f.workers.merge ((f.batches blocks).filterMap fun batch =>
    (f.batchLogs node crit batch).map f.workers.sort)

def keep (applyOpenEndedLogLimit : Bool) (logs : List EthLog) : Nat :=
  if applyOpenEndedLogLimit = true ∧ f.config.maxLog ≤ Int64.ofNat logs.length then
    f.config.maxLog.toNatClampNeg
  else logs.length

/-- `GetLogsByFilters`: the logs, and the height up to which blocks were read. -/
def getLogsByFilters (lastToHeight : Int64) : Fallible (List EthLog × Int64) := do
  let (begin_, end_) := node.heightRange crit lastToHeight
  let blockRange := end_ - begin_ + 1
  require (blockRange ≤ f.config.maxBlock) (Node.tooLarge blockRange f.config.maxBlock)
  let fetched ← node.fetchBlocksByCrit f.config crit lastToHeight
  let logs := f.mergedLogs node crit fetched.blocks
  return (logs.take (f.keep fetched.applyOpenEndedLogLimit logs), fetched.end_)

end LogFetcher

inductive FilterType where
  | unknownSubscription
  | logsSubscription
  | blocksSubscription
  deriving DecidableEq

structure Filter where
  typ : FilterType
  fc : FilterCriteria := {}
  blockCursor : String := ""
  lastToHeight : Int64 := 0

structure FilterAPI where
  logFetcher : LogFetcher
  filters : String → Option Filter

inductive FilterChanges where
  | nothing
  | hashes (hashes : List Hash)
  | logs (logs : List EthLog)

def FilterChanges.toLogs : FilterChanges → List EthLog
  | .logs found => found
  | _ => []

/-- The poll of a log filter; `none` is nil, when nothing new is expected any more. -/
def LogFetcher.pollLogs (f : LogFetcher) (node : Node) (filter : Filter) :
    Fallible (Option (List EthLog) × Filter) :=
  if filter.fc.blockHash ≠ none ∧ filter.lastToHeight > 0 then .ok (none, filter)
  else if filter.fc.toBlock.any fun toBlock => filter.lastToHeight ≥ Int64.ofInt toBlock then
    .ok (none, filter)
  else do
    let (logs, lastToHeight) ← f.getLogsByFilters node filter.fc filter.lastToHeight
    return (some logs, { filter with lastToHeight := lastToHeight + 1 })

namespace FilterAPI

variable (a : FilterAPI)

def store (id : String) (filter : Option Filter) : FilterAPI :=
  { a with filters := Function.update a.filters id filter }

def newFilter (id : String) (crit : FilterCriteria) : FilterAPI :=
  a.store id (some { typ := .logsSubscription, fc := crit })

def newBlockFilter (id : String) : FilterAPI := a.store id (some { typ := .blocksSubscription })

/-- `removeFilter`, after `UninstallFilter` or when the filter has expired. -/
def removeFilter (id : String) : FilterAPI := a.store id none

/-- `GetFilterChanges`.  `headersAfter` is `getBlockHeadersAfter`, the hashes of the blocks after a
cursor and the new cursor. -/
def getFilterChanges (node : Node) (headersAfter : String → Except String (List Hash × String))
    (id : String) : Fallible (FilterChanges × FilterAPI) :=
  match a.filters id with
  | none => .error (.err "filter does not exist")
  | some filter =>
    match filter.typ with
    | .blocksSubscription => do
      let (hashes, cursor) ← ofErr (headersAfter filter.blockCursor)
      return (.hashes hashes, a.store id (some { filter with blockCursor := cursor }))
    | .logsSubscription => do
      let (logs, filter) ← a.logFetcher.pollLogs node filter
      return (logs.elim .nothing .logs, a.store id (some filter))
    | .unknownSubscription => .error (.err "unknown filter type")

/-- `GetFilterLogs`; it does not ask for the type of the filter. -/
def getFilterLogs (node : Node) (id : String) : Fallible (List EthLog × FilterAPI) :=
  match a.filters id with
  | none => .error (.err "filter does not exist")
  | some filter => do
    let (logs, lastToHeight) ← a.logFetcher.getLogsByFilters node filter.fc 0
    return (logs, a.store id (some { filter with lastToHeight }))

end FilterAPI

/-- The loop of `SubscriptionAPI.Logs`: its filter, and where it begins. -/
structure LogSubscription where
  filter : FilterCriteria
  begin_ : Int64 := 0

def subscriptionFilter (node : Node) (filter : Option FilterCriteria) : FilterCriteria :=
  let filter := filter.getD {}
  if filter.fromBlock.any (fun n => Int64.ofInt n = 0) ∧
      filter.toBlock.any (fun n => Int64.ofInt n < 0) then
    { fromBlock := some node.latest.toInt, addresses := filter.addresses, topics := filter.topics }
  else filter

def LogSubscription.iterate (s : LogSubscription) (f : LogFetcher) (node : Node) :
    Fallible (List EthLog × Option LogSubscription) := do
  let (logs, lastToHeight) ← f.getLogsByFilters node s.filter s.begin_
  if s.filter.toBlock.any fun toBlock => lastToHeight ≥ Int64.ofInt toBlock then
    return (logs, none)
  return (logs, some ⟨{ s.filter with fromBlock := some (lastToHeight + 1).toInt }, lastToHeight⟩)

theorem LogLe.trans (x y z : EthLog) (hxy : LogLe x y) (hyz : LogLe y z) : LogLe x z := by
  unfold LogLe at *
  split at hxy
  · rename_i e
    rw [e]
    split at hyz
    · rename_i e'
      rw [if_pos e']
      exact hxy.trans hyz
    · rename_i e'
      rw [if_neg e']
      exact hyz
  · rename_i e
    split at hyz
    · rename_i e'
      rw [← e', if_neg e]
      exact hxy
    · have hlt : x.blockNumber < z.blockNumber := UInt64.lt_trans hxy hyz
      rw [if_neg (UInt64.ne_of_lt hlt)]
      exact hlt

theorem LogLe.total (x y : EthLog) : LogLe x y ∨ LogLe y x := by
  unfold LogLe
  by_cases e : x.blockNumber = y.blockNumber
  · rw [if_pos e, if_pos e.symm]
    exact Nat.le_total _ _
  · rw [if_neg e, if_neg (Ne.symm e)]
    exact UInt64.lt_or_lt_of_ne e

def inOrder : Workers where
  arrive blocks := blocks
  sort logs := logs.insertionSort LogLe
  merge batches := mergeAll LogLe batches.flatten.length batches
  arrive_perm _ := .refl _
  sort_perm logs := List.perm_insertionSort LogLe logs
  sort_sorted logs :=
    have : Std.Total LogLe := ⟨LogLe.total⟩
    have : IsTrans EthLog LogLe := ⟨LogLe.trans⟩
    List.pairwise_insertionSort LogLe logs
  merges _ := merges_mergeAll LogLe.trans LogLe.total (Nat.le_refl _)

namespace LogFetcher

variable {f : LogFetcher} {node : Node} {crit : FilterCriteria}

def matchingLogs (f : LogFetcher) (node : Node) (crit : FilterCriteria) (block : ResultBlock) :
    List EthLog :=
  (node.getLogsForBlockPooled f.includeSyntheticReceipts block crit).toOption.getD []

/-- The fetched blocks that are processed: those of the batches without a panic. -/
def processed (f : LogFetcher) (node : Node) (crit : FilterCriteria) (blocks : List ResultBlock) :
    List ResultBlock :=
  ((f.batches blocks).filter fun batch => (f.batchLogs node crit batch).isSome).flatten

theorem batchLogs_eq_some {batch : List ResultBlock} {logs : List EthLog}
    (h : f.batchLogs node crit batch = some logs) :
    logs = batch.flatMap (f.matchingLogs node crit) := by
  obtain ⟨found, hfound, rfl⟩ := Option.map_eq_some_iff.mp h
  have hok : (batch.mapM fun block => node.getLogsForBlockPooled f.includeSyntheticReceipts block
      crit) = .ok found := by
    cases hm : batch.mapM fun block => node.getLogsForBlockPooled f.includeSyntheticReceipts block
        crit with
    | error p => rw [hm] at hfound; cases hfound
    | ok found' => rw [hm] at hfound; cases hfound; rfl
  have hall : (batch.mapM fun block => node.getLogsForBlockPooled f.includeSyntheticReceipts block
      crit) = .ok (batch.map (f.matchingLogs node crit)) := by
    refine mapM_eq_ok fun block hblock => ?_
    obtain ⟨logs, -, hlogs⟩ := mem_of_mapM hok hblock
    rw [matchingLogs, hlogs]
    rfl
  rw [Except.ok.inj (hok.symm.trans hall), List.flatMap_def]

theorem mergedLogs_perm (f : LogFetcher) (node : Node) (crit : FilterCriteria)
    (blocks : List ResultBlock) : (f.mergedLogs node crit blocks).Perm
      ((f.processed node crit blocks).flatMap (f.matchingLogs node crit)) := by
  refine (f.workers.merges _).perm.trans ?_
  rw [processed]
  induction f.batches blocks with
  | nil => exact .refl _
  | cons batch batches ih =>
    cases hlogs : f.batchLogs node crit batch with
    | none =>
      rw [List.filterMap_cons_none (by rw [hlogs, Option.map_none]), List.filter_cons_of_neg]
      · exact ih
      · rw [hlogs]
        exact nofun
    | some logs =>
      rw [List.filterMap_cons_some (by rw [hlogs, Option.map_some]), List.filter_cons_of_pos,
        List.flatten_cons, List.flatten_cons, List.flatMap_append, ← batchLogs_eq_some hlogs]
      · exact (f.workers.sort_perm logs).append ih
      · rw [hlogs]
        rfl

theorem processed_subperm (f : LogFetcher) (node : Node) (crit : FilterCriteria)
    (blocks : List ResultBlock) : (f.processed node crit blocks).Subperm blocks := by
  have hflat : (f.batches blocks).flatten = f.workers.arrive blocks := flatten_batched _ _ _
  refine List.Subperm.trans (List.Sublist.subperm ?_) (f.workers.arrive_perm blocks).subperm
  rw [← hflat]
  exact List.filter_sublist.flatten

theorem getLogsByFilters_eq_ok {lastToHeight end_ : Int64} {logs : List EthLog} :
    f.getLogsByFilters node crit lastToHeight = .ok (logs, end_) ↔
      (node.heightRange crit lastToHeight).2 - (node.heightRange crit lastToHeight).1 + 1 ≤
        f.config.maxBlock ∧
      ∃ fetched, node.fetchBlocksByCrit f.config crit lastToHeight = .ok fetched ∧
        fetched.end_ = end_ ∧
        logs = (f.mergedLogs node crit fetched.blocks).take
          (f.keep fetched.applyOpenEndedLogLimit (f.mergedLogs node crit fetched.blocks)) := by
  unfold getLogsByFilters
  constructor
  · intro h
    obtain ⟨_, hrange, h⟩ := bind_eq_ok.mp h
    obtain ⟨fetched, hfetched, h⟩ := bind_eq_ok.mp h
    cases h
    exact ⟨require_eq_ok.mp hrange, fetched, hfetched, rfl, rfl⟩
  · rintro ⟨hrange, fetched, hfetched, rfl, rfl⟩
    exact bind_eq_ok.mpr ⟨(), require_eq_ok.mpr hrange, bind_eq_ok.mpr ⟨fetched, hfetched, rfl⟩⟩

end LogFetcher

end Tabi.Rpc
