import Tabi.Rpc.Cursor

/-!
# Rpc — tags for the upper end

The tags latest, safe, finalized and pending are negative numbers.
-/

namespace Tabi.Rpc

open Support Fallible

inductive FilterCall where
  | changes (node : Node) (headersAfter : String → Except String (List Hash × String))
  | logs (node : Node)

def FilterCall.node : FilterCall → Node
  | .changes node _ => node
  | .logs node => node

namespace FilterAPI

def call (a : FilterAPI) (id : String) : FilterCall → Fallible (List EthLog) × FilterAPI
  | .changes node headersAfter =>
    match a.getFilterChanges node headersAfter id with
    | .ok (changes, a') => (.ok changes.toLogs, a')
    | .error e => (.error e, a)
  | .logs node =>
    match a.getFilterLogs node id with
    | .ok (logs, a') => (.ok logs, a')
    | .error e => (.error e, a)

def withLatest (id : String) (a : FilterAPI) (node : Node) : FilterAPI :=
  a.store id ((a.filters id).map fun filter =>
    { filter with fc := { filter.fc with toBlock := some node.latest.toInt } })

def asIs (a : FilterAPI) (_ : Node) : FilterAPI := a

def pollsBy (prepare : FilterAPI → Node → FilterAPI) (id : String) :
    FilterAPI → List FilterCall → List (Fallible (List EthLog))
  | _, [] => []
  | a, .changes node headersAfter :: calls =>
    let (logs, a') := (prepare a node).call id (.changes node headersAfter)
    logs :: a'.pollsBy prepare id calls
  | a, .logs node :: calls => ((prepare a node).call id (.logs node)).2.pollsBy prepare id calls

def NothingNew (a : FilterAPI) (id : String) (node : Node) : Prop :=
  ∀ filter ∈ a.filters id, filter.Settled ∨
    ∃ end_, a.logFetcher.getLogsByFilters node filter.fc filter.lastToHeight = .ok ([], end_)

def Quiet (prepare : FilterAPI → Node → FilterAPI) (id : String) :
    FilterAPI → List FilterCall → Prop
  | _, [] => True
  | a, .changes node headersAfter :: calls =>
    (prepare a node).NothingNew id node ∧
      ((prepare a node).call id (.changes node headersAfter)).2.Quiet prepare id calls
  | a, .logs node :: calls => ((prepare a node).call id (.logs node)).2.Quiet prepare id calls

def HasLogFilter (a : FilterAPI) (id : String) : Prop :=
  ∃ filter, a.filters id = some filter ∧ filter.typ = .logsSubscription

variable {a : FilterAPI} {id : String} {node : Node}

theorem HasLogFilter.withLatest (h : a.HasLogFilter id) :
    (a.withLatest id node).HasLogFilter id := by
  obtain ⟨filter, hfilter, htyp⟩ := h
  rw [FilterAPI.withLatest, hfilter]
  exact ⟨_, store_self _, htyp⟩

theorem call_keeps {filter : Filter} (hfilter : a.filters id = some filter)
    (htyp : filter.typ = .logsSubscription) (c : FilterCall) :
    ∃ lastToHeight,
      (a.call id c).2.filters id = some { filter with lastToHeight } := by
  cases c with
  | changes node headersAfter =>
    rw [call]
    split
    · rename_i hcall
      obtain ⟨_, filter', hpoll, -, rfl⟩ := (getFilterChanges_logs hfilter htyp).mp hcall
      rw [store_self]
      by_cases hsettled : filter.Settled
      · rw [LogFetcher.pollLogs_of_settled _ _ hsettled] at hpoll
        cases hpoll
        exact ⟨_, rfl⟩
      · obtain ⟨_, _, -, -, rfl⟩ := (LogFetcher.pollLogs_of_not_settled hsettled).mp hpoll
        exact ⟨_, rfl⟩
    · exact ⟨_, hfilter⟩
  | logs node =>
    rw [call]
    split
    · rename_i hcall
      obtain ⟨_, -, rfl⟩ := (getFilterLogs_eq_ok hfilter).mp hcall
      exact ⟨_, store_self _⟩
    · exact ⟨_, hfilter⟩

theorem HasLogFilter.call (h : a.HasLogFilter id) (c : FilterCall) :
    (a.call id c).2.HasLogFilter id := by
  obtain ⟨filter, hfilter, htyp⟩ := h
  obtain ⟨_, hkept⟩ := call_keeps hfilter htyp c
  exact ⟨_, hkept, htyp⟩

theorem call_changes_nil_iff (h : a.HasLogFilter id)
    {headersAfter : String → Except String (List Hash × String)} :
    (a.call id (.changes node headersAfter)).1 = .ok [] ↔ a.NothingNew id node := by
  obtain ⟨filter, hfilter, htyp⟩ := h
  have hnothing : a.NothingNew id node ↔ filter.Settled ∨ ∃ end_,
      a.logFetcher.getLogsByFilters node filter.fc filter.lastToHeight = .ok ([], end_) := by
    simp only [NothingNew, hfilter, Option.mem_some, forall_eq']
  have hcall : (a.call id (.changes node headersAfter)).1 = .ok [] ↔
      ∃ changes a', a.getFilterChanges node headersAfter id = .ok (changes, a') ∧
        changes.toLogs = [] := by
    rw [call]
    cases a.getFilterChanges node headersAfter id with
    | error e => simp
    | ok r =>
      obtain ⟨changes, a'⟩ := r
      simp
  rw [hcall, hnothing]
  by_cases hsettled : filter.Settled
  · have hpoll := LogFetcher.pollLogs_of_settled a.logFetcher node hsettled
    refine iff_of_true ⟨_, _, (getFilterChanges_logs hfilter htyp).mpr ⟨_, _, hpoll, rfl, rfl⟩, ?_⟩
      (.inl hsettled)
    rfl
  · rw [or_iff_right hsettled]
    constructor
    · rintro ⟨changes, a', hcall, hnil⟩
      obtain ⟨_, _, hpoll, rfl, -⟩ := (getFilterChanges_logs hfilter htyp).mp hcall
      obtain ⟨found, end_, hfound, rfl, -⟩ := (LogFetcher.pollLogs_of_not_settled hsettled).mp hpoll
      cases (show found = [] from hnil)
      exact ⟨end_, hfound⟩
    · rintro ⟨end_, hfound⟩
      have hpoll := (LogFetcher.pollLogs_of_not_settled hsettled).mpr ⟨_, _, hfound, rfl, rfl⟩
      exact ⟨_, _, (getFilterChanges_logs hfilter htyp).mpr ⟨_, _, hpoll, rfl, rfl⟩, rfl⟩

end FilterAPI

def IsTag (blockNumber : ℤ) : Prop := Int64.ofInt blockNumber ∈ [-1, -2, -3, -4]

instance (blockNumber : ℤ) : Decidable (IsTag blockNumber) :=
  inferInstanceAs (Decidable (_ ∈ _))

/-- A log filter with a tag for its `ToBlock`, and with a cursor that is a height. -/
structure Filter.Tagged (filter : Filter) : Prop where
  typ : filter.typ = .logsSubscription
  tag : ∃ tag ∈ filter.fc.toBlock, IsTag tag
  cursor : 0 ≤ filter.lastToHeight

theorem IsTag.lt {blockNumber : ℤ} (h : IsTag blockNumber) : Int64.ofInt blockNumber < 0 := by
  have hall : ∀ n ∈ [(-1 : Int64), -2, -3, -4], n < 0 := by simp [Int64.lt_iff_toInt_lt]
  exact hall _ h

theorem Filter.Tagged.settled {filter : Filter} (h : filter.Tagged) : filter.Settled := by
  obtain ⟨tag, hmem, htag⟩ := h.tag
  refine .inr ?_
  rw [Option.mem_def.mp hmem, Option.any_some, decide_eq_true_iff]
  exact Int64.le_of_lt (Int64.lt_of_lt_of_le htag.lt h.cursor)

theorem LogFetcher.end_of_tag {f : LogFetcher} {node : Node} {crit : FilterCriteria} {tag : ℤ}
    (hmem : tag ∈ crit.toBlock) (htag : IsTag tag) {lastToHeight end_ : Int64} {logs : List EthLog}
    (h : f.getLogsByFilters node crit lastToHeight = .ok (logs, end_)) :
    end_ = 0 ∨ end_ = node.latest := by
  obtain ⟨-, fetched, hfetched, rfl, -⟩ := getLogsByFilters_eq_ok.mp h
  by_cases hhash : crit.blockHash = none
  · rw [Node.fetchBlocksByCrit, hhash] at hfetched
    obtain ⟨_, -, hend, -⟩ := Node.fetchRange_spec hfetched
    refine .inr (hend.trans ?_)
    show crit.toBlock.elim _ _ = _
    rw [Option.mem_def.mp hmem]
    exact if_pos htag
  · exact .inl (Node.fetchBlocksByCrit_hash hfetched hhash).1

namespace FilterAPI

variable {a : FilterAPI} {id : String}

def HasTagged (a : FilterAPI) (id : String) : Prop :=
  ∃ filter, a.filters id = some filter ∧ filter.Tagged

theorem HasTagged.call (h : a.HasTagged id) (c : FilterCall) (hlatest : 0 ≤ c.node.latest) :
    (a.call id c).2.HasTagged id ∧
      ∀ node headersAfter, c = .changes node headersAfter → (a.call id c).1 = .ok [] := by
  obtain ⟨filter, hfilter, htagged⟩ := h
  obtain ⟨tag, hmem, htag⟩ := htagged.tag
  refine ⟨?_, ?_⟩
  · cases c with
    | changes node headersAfter =>
      have hpoll := LogFetcher.pollLogs_of_settled a.logFetcher node htagged.settled
      have hcall : a.getFilterChanges node headersAfter id = _ :=
        (getFilterChanges_logs hfilter htagged.typ).mpr ⟨_, _, hpoll, rfl, rfl⟩
      rw [FilterAPI.call, hcall]
      exact ⟨filter, store_self _, htagged⟩
    | logs node =>
      rw [FilterAPI.call]
      split
      · rename_i hcall
        obtain ⟨end_, hlogs, rfl⟩ := (getFilterLogs_eq_ok hfilter).mp hcall
        refine ⟨_, store_self _, htagged.typ, ⟨tag, hmem, htag⟩, ?_⟩
        rcases LogFetcher.end_of_tag hmem htag hlogs with rfl | rfl
        · exact Int64.le_refl _
        · exact hlatest
      · exact ⟨filter, hfilter, htagged⟩
  · rintro node headersAfter rfl
    refine (call_changes_nil_iff ⟨filter, hfilter, htagged.typ⟩).mpr ?_
    intro filter' hfilter'
    cases hfilter.symm.trans hfilter'
    exact .inl htagged.settled

theorem tagged_polls {calls : List FilterCall} (h : a.HasTagged id)
    (hlatest : ∀ c ∈ calls, 0 ≤ c.node.latest) :
    ∀ logs ∈ a.pollsBy asIs id calls, logs = .ok [] := by
  induction calls generalizing a with
  | nil => exact nofun
  | cons c calls ih =>
    obtain ⟨hc, hcalls⟩ := List.forall_mem_cons.mp hlatest
    obtain ⟨hkept, hnil⟩ := h.call c hc
    cases c with
    | changes node headersAfter =>
      exact List.forall_mem_cons.mpr ⟨hnil _ _ rfl, ih hkept hcalls⟩
    | logs node => exact ih hkept hcalls

theorem polls_withLatest_nil_iff {calls : List FilterCall} (h : a.HasLogFilter id) :
    (∀ logs ∈ a.pollsBy (withLatest id) id calls, logs = .ok []) ↔
      a.Quiet (withLatest id) id calls := by
  induction calls generalizing a with
  | nil => exact iff_of_true nofun trivial
  | cons c calls ih =>
    cases c with
    | changes node headersAfter =>
      rw [pollsBy, List.forall_mem_cons, Quiet, call_changes_nil_iff h.withLatest,
        ih (h.withLatest.call _)]
    | logs node => exact ih (h.withLatest.call _)

theorem length_pollsBy (prepare : FilterAPI → Node → FilterAPI) (a b : FilterAPI) (id : String)
    (calls : List FilterCall) :
    (a.pollsBy prepare id calls).length = (b.pollsBy asIs id calls).length := by
  induction calls generalizing a b with
  | nil => rfl
  | cons c calls ih =>
    cases c with
    | changes node headersAfter => exact congrArg Nat.succ (ih _ _)
    | logs node => exact ih _ _

end FilterAPI

def secondToLatest : FilterCriteria := between 2 (-2)

namespace Retried

variable {node : Node} (h : Retried node)

include h

theorem withLatest_filter {a : FilterAPI} {id : String} {filter : Filter}
    (hfilter : a.filters id = some filter) (hfrom : filter.fc.fromBlock = some 2)
    (hhash : filter.fc.blockHash = none) (hall : filter.fc.addresses = [] ∧ filter.fc.topics = []) :
    (a.withLatest id node).filters id = some { filter with fc := between 2 2 } := by
  obtain ⟨typ, ⟨blockHash, fromBlock, toBlock, addresses, topics⟩, blockCursor, lastToHeight⟩ :=
    filter
  cases hfrom
  cases hhash
  obtain ⟨rfl, rfl⟩ := hall
  rw [FilterAPI.withLatest, FilterAPI.store_self, hfilter, h.latest]
  rfl

theorem newFilter_withLatest :
    ((freshAPI.newFilter "0x1" secondToLatest).withLatest "0x1" node).filters "0x1" =
      some { typ := .logsSubscription, fc := between 2 2 } :=
  h.withLatest_filter (FilterAPI.store_self _) rfl rfl ⟨rfl, rfl⟩

theorem getLogs_between : unlimited.getLogsByFilters node (between 2 2) 0 =
    .ok (unlimited.mergedLogs node (between 2 2) [secondResult], 2) :=
  have hheights : node.heightRange (between 2 2) 0 = (2, 2) := rfl
  h.getLogs_second rfl rfl hheights

end Retried

end Tabi.Rpc
