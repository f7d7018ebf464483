import Tabi.Rpc.Filters

/-!
# Rpc — the cursor of a log filter

A log filter is followed through any calls to the API: `Watch` records the polls since the last
`GetFilterLogs` (or since the filter was created), each with the height that was covered before it.
-/

namespace Tabi.Rpc

open Support Fallible

/-! ### Following a filter -/

def Node.upperEnd (node : Node) (crit : FilterCriteria) : Int64 := (node.heightRange crit 0).2

/-- The height is not below a `FromBlock` that is a number. -/
def FilterCriteria.Admits (crit : FilterCriteria) (height : Int64) : Prop :=
  ∀ n ∈ crit.fromBlock, Int64.ofInt n ∈ [-1, -2, -3, -4] ∨ Int64.ofInt n ≤ height

instance (crit : FilterCriteria) (height : Int64) : Decidable (crit.Admits height) :=
  inferInstanceAs (Decidable (∀ n ∈ crit.fromBlock, _))

def FilterCriteria.above (crit : FilterCriteria) (covered end_ : Int64) : List Int64 :=
  (Node.heights covered end_).filter fun height => covered < height ∧ crit.Admits height

/-- A poll: the node that was asked, the filter as it was found, the height up to which blocks were
covered before (`none` before the first call), and the logs that were returned. -/
structure Poll where
  node : Node
  filter : Filter
  covered : Option Int64
  logs : List EthLog

inductive OtherCall (id : String) : FilterAPI → FilterAPI → Prop where
  | newFilter {a : FilterAPI} {id' : String} (h : id' ≠ id) (crit : FilterCriteria) :
      OtherCall id a (a.newFilter id' crit)
  | newBlockFilter {a : FilterAPI} {id' : String} (h : id' ≠ id) :
      OtherCall id a (a.newBlockFilter id')
  | removeFilter {a : FilterAPI} {id' : String} (h : id' ≠ id) : OtherCall id a (a.removeFilter id')
  | getFilterChanges {a a' : FilterAPI} {id' : String} (h : id' ≠ id) {node : Node}
      {headersAfter : String → Except String (List Hash × String)} {changes : FilterChanges}
      (hcall : a.getFilterChanges node headersAfter id' = .ok (changes, a')) : OtherCall id a a'
  | getFilterLogs {a a' : FilterAPI} {id' : String} (h : id' ≠ id) {node : Node}
      {logs : List EthLog} (hcall : a.getFilterLogs node id' = .ok (logs, a')) : OtherCall id a a'

/-- A log filter from its creation on, through successful calls: the API, what is covered, and the
polls since the last `GetFilterLogs`. -/
inductive Watch (f : LogFetcher) (id : String) (crit : FilterCriteria) :
    FilterAPI → Option Int64 → List Poll → Prop where
  | created {a : FilterAPI} (h : a.logFetcher = f) : Watch f id crit (a.newFilter id crit) none []
  | changes {a a' : FilterAPI} {covered : Option Int64} {polls : List Poll} {node : Node}
      {headersAfter : String → Except String (List Hash × String)} {filter : Filter}
      {changes : FilterChanges} (h : Watch f id crit a covered polls)
      (hfilter : a.filters id = some filter)
      (hcall : a.getFilterChanges node headersAfter id = .ok (changes, a')) :
      Watch f id crit a' (some (node.upperEnd crit))
        (polls ++ [⟨node, filter, covered, changes.toLogs⟩])
  | logs {a a' : FilterAPI} {covered : Option Int64} {polls : List Poll} {node : Node}
      {logs : List EthLog} (h : Watch f id crit a covered polls)
      (hcall : a.getFilterLogs node id = .ok (logs, a')) :
      Watch f id crit a' (some (node.upperEnd crit)) []
  | other {a a' : FilterAPI} {covered : Option Int64} {polls : List Poll}
      (h : Watch f id crit a covered polls) (hcall : OtherCall id a a') :
      Watch f id crit a' covered polls

namespace FilterAPI

variable {a a' : FilterAPI} {id id' : String} {node : Node}

@[simp] theorem store_self (filter : Option Filter) : (a.store id filter).filters id = filter :=
  Function.update_self ..

theorem store_of_ne (h : id' ≠ id) (filter : Option Filter) :
    (a.store id' filter).filters id = a.filters id := Function.update_of_ne h.symm ..

theorem getFilterChanges_store {headersAfter : String → Except String (List Hash × String)}
    {changes : FilterChanges} (h : a.getFilterChanges node headersAfter id = .ok (changes, a')) :
    ∃ filter, a' = a.store id filter := by
  unfold getFilterChanges at h
  split at h
  · cases h
  · split at h
    · obtain ⟨_, -, h⟩ := bind_eq_ok.mp h
      cases h
      exact ⟨_, rfl⟩
    · obtain ⟨_, -, h⟩ := bind_eq_ok.mp h
      cases h
      exact ⟨_, rfl⟩
    · cases h

theorem getFilterLogs_store {logs : List EthLog} (h : a.getFilterLogs node id = .ok (logs, a')) :
    ∃ filter, a' = a.store id filter := by
  unfold getFilterLogs at h
  split at h
  · cases h
  · obtain ⟨_, -, h⟩ := bind_eq_ok.mp h
    cases h
    exact ⟨_, rfl⟩

theorem getFilterChanges_logs {filter : Filter} (hfilter : a.filters id = some filter)
    (htyp : filter.typ = .logsSubscription)
    {headersAfter : String → Except String (List Hash × String)} {changes : FilterChanges} :
    a.getFilterChanges node headersAfter id = .ok (changes, a') ↔ ∃ logs filter',
      a.logFetcher.pollLogs node filter = .ok (logs, filter') ∧
      changes = logs.elim .nothing .logs ∧ a' = a.store id (some filter') := by
  simp only [getFilterChanges, hfilter, htyp]
  constructor
  · intro h
    obtain ⟨⟨logs, filter'⟩, hpoll, h⟩ := bind_eq_ok.mp h
    cases h
    exact ⟨logs, filter', hpoll, rfl, rfl⟩
  · rintro ⟨logs, filter', hpoll, rfl, rfl⟩
    exact bind_eq_ok.mpr ⟨_, hpoll, rfl⟩

theorem getFilterLogs_eq_ok {filter : Filter} (hfilter : a.filters id = some filter)
    {logs : List EthLog} : a.getFilterLogs node id = .ok (logs, a') ↔ ∃ lastToHeight,
      a.logFetcher.getLogsByFilters node filter.fc 0 = .ok (logs, lastToHeight) ∧
      a' = a.store id (some { filter with lastToHeight }) := by
  simp only [getFilterLogs, hfilter]
  constructor
  · intro h
    obtain ⟨⟨logs', lastToHeight⟩, hlogs, h⟩ := bind_eq_ok.mp h
    cases h
    exact ⟨lastToHeight, hlogs, rfl⟩
  · rintro ⟨lastToHeight, hlogs, rfl⟩
    exact bind_eq_ok.mpr ⟨_, hlogs, rfl⟩

theorem otherCall_keeps (h : OtherCall id a a') :
    a'.logFetcher = a.logFetcher ∧ a'.filters id = a.filters id := by
  cases h with
  | newFilter h _ => exact ⟨rfl, store_of_ne h _⟩
  | newBlockFilter h => exact ⟨rfl, store_of_ne h _⟩
  | removeFilter h => exact ⟨rfl, store_of_ne h _⟩
  | getFilterChanges h hcall =>
    obtain ⟨_, rfl⟩ := getFilterChanges_store hcall
    exact ⟨rfl, store_of_ne h _⟩
  | getFilterLogs h hcall =>
    obtain ⟨_, rfl⟩ := getFilterLogs_store hcall
    exact ⟨rfl, store_of_ne h _⟩

end FilterAPI

/-! ### What a poll reads -/

/-- Nothing new is expected of the filter, so that a poll returns nil. -/
def Filter.Settled (filter : Filter) : Prop :=
  filter.fc.blockHash ≠ none ∧ filter.lastToHeight > 0 ∨
    (filter.fc.toBlock.any fun toBlock => filter.lastToHeight ≥ Int64.ofInt toBlock) = true

instance (filter : Filter) : Decidable filter.Settled :=
  inferInstanceAs (Decidable (_ ∨ _))

namespace LogFetcher

variable {f : LogFetcher} {node : Node} {filter : Filter}

theorem pollLogs_of_settled (f : LogFetcher) (node : Node) (h : filter.Settled) :
    f.pollLogs node filter = .ok (none, filter) := by
  unfold pollLogs
  split
  · rfl
  · rename_i hhash
    rw [if_pos (h.resolve_left hhash)]

theorem pollLogs_of_not_settled (h : ¬ filter.Settled) {logs : Option (List EthLog)}
    {filter' : Filter} : f.pollLogs node filter = .ok (logs, filter') ↔ ∃ found lastToHeight,
      f.getLogsByFilters node filter.fc filter.lastToHeight = .ok (found, lastToHeight) ∧
      logs = some found ∧ filter' = { filter with lastToHeight := lastToHeight + 1 } := by
  obtain ⟨hhash, htoBlock⟩ := not_or.mp h
  rw [pollLogs, if_neg hhash, if_neg htoBlock]
  constructor
  · intro hpoll
    obtain ⟨⟨found, lastToHeight⟩, hfound, hpoll⟩ := bind_eq_ok.mp hpoll
    cases hpoll
    exact ⟨found, lastToHeight, hfound, rfl, rfl⟩
  · rintro ⟨found, lastToHeight, hfound, rfl, rfl⟩
    exact bind_eq_ok.mpr ⟨_, hfound, rfl⟩

end LogFetcher

namespace Poll

variable (f : LogFetcher) (p : Poll)

def fetched : Option Node.Fetched :=
  if p.filter.Settled then none
  else (p.node.fetchBlocksByCrit f.config p.filter.fc p.filter.lastToHeight).toOption

def matching (block : ResultBlock) : List EthLog := f.matchingLogs p.node p.filter.fc block

def read : List ResultBlock :=
  (p.fetched f).elim [] fun fetched => f.processed p.node p.filter.fc fetched.blocks

def cutOff : List EthLog :=
  (p.fetched f).elim [] fun fetched =>
    let logs := f.mergedLogs p.node p.filter.fc fetched.blocks
    logs.drop (f.keep fetched.applyOpenEndedLogLimit logs)

def uncovered : List Int64 :=
  match p.covered with
  | none => Node.heights (p.node.heightRange p.filter.fc 0).1 (p.node.upperEnd p.filter.fc)
  | some covered => p.filter.fc.above covered (p.node.upperEnd p.filter.fc)

def wanted : List ResultBlock :=
  match p.filter.fc.blockHash with
  | some blockHash =>
    if p.covered = none then (p.node.blockByHash blockHash).toOption.toList else []
  | none => p.uncovered.filterMap fun height => (p.node.blockByNumber height).toOption

def wantedLogs : List EthLog := p.wanted.flatMap (p.matching f)

def repeated : List EthLog := (without (p.read f) p.wanted).flatMap (p.matching f)

structure Answered (crit : FilterCriteria) : Prop where
  typ : p.filter.typ = .logsSubscription
  fc : p.filter.fc = crit
  poll : ∃ logs filter', f.pollLogs p.node p.filter = .ok (logs, filter') ∧
    p.logs = (logs.elim FilterChanges.nothing .logs).toLogs

end Poll

theorem Watch.answered {f : LogFetcher} {id : String} {crit : FilterCriteria} {a : FilterAPI}
    {covered : Option Int64} {polls : List Poll} (h : Watch f id crit a covered polls) :
    a.logFetcher = f ∧ (∃ filter, a.filters id = some filter ∧ filter.typ = .logsSubscription ∧
      filter.fc = crit) ∧ ∀ p ∈ polls, p.Answered f crit := by
  induction h with
  | created h => exact ⟨h, ⟨_, FilterAPI.store_self _, rfl, rfl⟩, List.forall_mem_nil _⟩
  | @changes _ _ _ _ _ _ filter _ h hfilter hcall ih =>
    obtain ⟨rfl, ⟨filter', hfilter', htyp, hfc⟩, hpolls⟩ := ih
    cases hfilter.symm.trans hfilter'
    obtain ⟨logs, filter'', hpoll, rfl, rfl⟩ :=
      (FilterAPI.getFilterChanges_logs hfilter htyp).mp hcall
    refine ⟨rfl, ⟨filter'', FilterAPI.store_self _, ?_⟩, ?_⟩
    · by_cases hsettled : filter.Settled
      · rw [LogFetcher.pollLogs_of_settled _ _ hsettled] at hpoll
        cases hpoll
        exact ⟨htyp, hfc⟩
      · obtain ⟨_, _, -, -, rfl⟩ := (LogFetcher.pollLogs_of_not_settled hsettled).mp hpoll
        exact ⟨htyp, hfc⟩
    · intro p hp
      rcases List.mem_append.mp hp with hp | hp
      · exact hpolls p hp
      · cases List.mem_singleton.mp hp
        exact ⟨htyp, hfc, logs, filter'', hpoll, rfl⟩
  | logs h hcall ih =>
    obtain ⟨rfl, ⟨filter, hfilter, htyp, hfc⟩, -⟩ := ih
    obtain ⟨_, -, rfl⟩ := (FilterAPI.getFilterLogs_eq_ok hfilter).mp hcall
    exact ⟨rfl, ⟨_, FilterAPI.store_self _, htyp, hfc⟩, List.forall_mem_nil _⟩
  | other h hcall ih =>
    obtain ⟨hfetcher, hsame⟩ := FilterAPI.otherCall_keeps hcall
    obtain ⟨rfl, hfilter, hpolls⟩ := ih
    exact ⟨hfetcher, hsame ▸ hfilter, hpolls⟩

namespace Poll

variable {f : LogFetcher} {p : Poll} {crit : FilterCriteria}

theorem logs_append_cutOff (h : p.Answered f crit) :
    (p.logs ++ p.cutOff f).Perm ((p.read f).flatMap (p.matching f)) := by
  obtain ⟨logs, filter', hpoll, hlogs⟩ := h.poll
  unfold cutOff read fetched
  by_cases hsettled : p.filter.Settled
  · rw [LogFetcher.pollLogs_of_settled _ _ hsettled] at hpoll
    cases hpoll
    rw [if_pos hsettled, hlogs]
    exact .refl _
  · obtain ⟨found, _, hfound, rfl, -⟩ := (LogFetcher.pollLogs_of_not_settled hsettled).mp hpoll
    obtain ⟨-, fetched, hfetched, -, rfl⟩ := LogFetcher.getLogsByFilters_eq_ok.mp hfound
    rw [if_neg hsettled, hfetched, hlogs]
    simp only [Except.toOption, Option.elim_some, FilterChanges.toLogs, List.take_append_drop]
    exact LogFetcher.mergedLogs_perm ..

/-! ### Blocks come once -/

end Poll

namespace Node

variable {node : Node} {config : FilterConfig} {crit : FilterCriteria}

theorem nodup_heights (start end_ : Int64) : (heights start end_).Nodup := by
  refine List.Nodup.map_on (fun j hj k hk heq => ?_) List.nodup_range
  have hj := List.mem_range.mp hj
  have hk := List.mem_range.mp hk
  have heq := congrArg Int64.toInt heq
  rw [toInt_add_ofNat (n := end_) (by omega), toInt_add_ofNat (n := end_) (by omega)] at heq
  omega

theorem mapM_fetchBlock_sublist {heights : List Int64} {found : List (Option ResultBlock)}
    (h : heights.mapM (node.fetchBlock crit) = .ok found) :
    (found.reduceOption.map ResultBlock.height).Sublist heights := by
  induction heights generalizing found with
  | nil =>
    cases h
    exact .refl _
  | cons height heights ih =>
    rw [List.mapM_cons] at h
    obtain ⟨o, ho, h⟩ := bind_eq_ok.mp h
    obtain ⟨found', hfound', h⟩ := bind_eq_ok.mp h
    cases h
    cases o with
    | none => exact (ih hfound').cons _
    | some block =>
      rw [List.reduceOption_cons_of_some, List.map_cons,
        node.blockByNumber_height (fetchBlock_eq_some ho)]
      exact (ih hfound').cons_cons _

theorem nodup_processBatch {start end_ : Int64} {blocks : List ResultBlock}
    (h : node.processBatch start end_ crit = .ok blocks) : blocks.Nodup := by
  obtain ⟨found, hfound, rfl⟩ := map_eq_ok.mp h
  exact ((nodup_heights start end_).sublist (mapM_fetchBlock_sublist hfound)).of_map _

theorem fetchBlocksByCrit_hash {lastToHeight : Int64} {fetched : Fetched}
    (h : node.fetchBlocksByCrit config crit lastToHeight = .ok fetched)
    (hhash : crit.blockHash ≠ none) : fetched.end_ = 0 ∧ (fetched.blocks = [] ∨
      ∃ block, fetched.blocks = [block] ∧ node.blockByNumber block.height = .ok block) := by
  unfold fetchBlocksByCrit at h
  split at h
  · exact absurd ‹_› hhash
  · split at h
    · cases h
      exact ⟨rfl, .inl rfl⟩
    · split at h
      · cases h
        exact ⟨rfl, .inl rfl⟩
      · rename_i hblock
        cases h
        exact ⟨rfl, .inr ⟨_, rfl, (node.blockByHash_hash hblock).2⟩⟩

theorem fetchBlocksByCrit_spec {lastToHeight : Int64} {fetched : Fetched}
    (h : node.fetchBlocksByCrit config crit lastToHeight = .ok fetched) :
    fetched.blocks.Nodup ∧ ∀ block ∈ fetched.blocks,
      node.blockByNumber block.height = .ok block := by
  by_cases hhash : crit.blockHash = none
  · rw [fetchBlocksByCrit, hhash] at h
    obtain ⟨_, -, -, -, -, hbatch⟩ := fetchRange_spec h
    exact ⟨nodup_processBatch hbatch, fun block hb => (mem_processBatch hbatch hb).1⟩
  · obtain ⟨-, hnone | ⟨block, hone, hblock⟩⟩ := fetchBlocksByCrit_hash h hhash
    · rw [hnone]
      exact ⟨.nil, fun _ hb => absurd hb List.not_mem_nil⟩
    · rw [hone]
      exact ⟨List.nodup_singleton _, List.forall_mem_singleton.mpr hblock⟩

def HashIndexed (node : Node) : Prop :=
  ∀ n b, node.blockByNumber n = .ok b → node.blockByHash b.hash = .ok b

theorem HashIndexed.inj (h : node.HashIndexed) {m n : Int64} {b b' : ResultBlock}
    (hb : node.blockByNumber m = .ok b) (hb' : node.blockByNumber n = .ok b')
    (heq : b.hash = b'.hash) : b = b' := by
  have hhash := h m b hb
  rw [heq, h n b' hb'] at hhash
  exact (Except.ok.inj hhash).symm

end Node

theorem LogFetcher.blockHash_matchingLogs {f : LogFetcher} {node : Node} {crit : FilterCriteria}
    {block : ResultBlock} {log : EthLog} (h : log ∈ f.matchingLogs node crit block) :
    log.blockHash = block.hash := by
  unfold matchingLogs at h
  cases hlogs : node.getLogsForBlockPooled f.includeSyntheticReceipts block crit with
  | error p =>
    rw [hlogs] at h
    cases h
  | ok logs =>
    rw [hlogs] at h
    obtain ⟨logs', -, hmap⟩ := bind_eq_ok.mp hlogs
    cases hmap
    obtain ⟨_, -, rfl⟩ := List.mem_map.mp h
    rfl

namespace Poll

variable {f : LogFetcher} {p : Poll} {crit : FilterCriteria}

theorem read_spec : (p.read f).Nodup ∧
    ∀ block ∈ p.read f, p.node.blockByNumber block.height = .ok block := by
  unfold read
  cases hfetched : p.fetched f with
  | none => exact ⟨.nil, nofun⟩
  | some fetched =>
    have hsub := f.processed_subperm p.node p.filter.fc fetched.blocks
    have hfetch : p.node.fetchBlocksByCrit f.config p.filter.fc p.filter.lastToHeight =
        .ok fetched := by
      unfold Poll.fetched at hfetched
      split at hfetched
      · cases hfetched
      · cases h : p.node.fetchBlocksByCrit f.config p.filter.fc p.filter.lastToHeight with
        | error e => rw [h] at hfetched; cases hfetched
        | ok _ => rw [h] at hfetched; cases hfetched; rfl
    obtain ⟨hnodup, hblocks⟩ := Node.fetchBlocksByCrit_spec hfetch
    obtain ⟨l, hl, hle⟩ := hsub
    exact ⟨hl.nodup_iff.mp (hnodup.sublist hle),
      fun block hb => hblocks block (hle.subset (hl.mem_iff.mpr hb))⟩

theorem nodup_uncovered : p.uncovered.Nodup := by
  unfold uncovered
  split
  · exact Node.nodup_heights _ _
  · exact (Node.nodup_heights _ _).filter _

theorem wanted_spec : p.wanted.Nodup ∧
    ∀ block ∈ p.wanted, p.node.blockByNumber block.height = .ok block := by
  unfold wanted
  split
  · split
    · rename_i blockHash _ _
      cases hb : p.node.blockByHash blockHash with
      | error err => exact ⟨.nil, nofun⟩
      | ok block =>
        exact ⟨List.nodup_singleton _,
          List.forall_mem_singleton.mpr (p.node.blockByHash_hash hb).2⟩
    · exact ⟨.nil, nofun⟩
  · have hblock : ∀ {height block}, (p.node.blockByNumber height).toOption = some block →
        p.node.blockByNumber height = .ok block := by
      intro height block h
      cases hb : p.node.blockByNumber height with
      | error err => rw [hb] at h; cases h
      | ok b => rw [hb] at h; cases h; rfl
    refine ⟨nodup_uncovered.filterMap fun m n b hm hn => ?_, fun block hb => ?_⟩
    · rw [← p.node.blockByNumber_height (hblock hm), ← p.node.blockByNumber_height (hblock hn)]
    · obtain ⟨height, -, h⟩ := List.mem_filterMap.mp hb
      have hb := hblock h
      rw [p.node.blockByNumber_height hb]
      exact hb

theorem exact_iff (h : p.Answered f crit) (hindexed : p.node.HashIndexed) :
    p.logs.Perm (p.wantedLogs f) ↔
      (∀ block ∈ p.wanted, block ∉ p.read f → p.matching f block = []) ∧
        (p.cutOff f).Perm (p.repeated f) := by
  obtain ⟨hread, hreadBlock⟩ := read_spec (f := f) (p := p)
  obtain ⟨hwanted, hwantedBlock⟩ := wanted_spec (p := p)
  refine perm_wanted_iff_of_apart hread hwanted (fun x hx y hy log hlog hlog' => ?_)
    (logs_append_cutOff h)
  refine hindexed.inj (hwantedBlock x hx) (hreadBlock y hy) ?_
  rw [← LogFetcher.blockHash_matchingLogs hlog, LogFetcher.blockHash_matchingLogs hlog']

end Poll

def unlimited : LogFetcher := ⟨⟨0, 10⟩, false, inOrder⟩

def freshAPI : FilterAPI := ⟨unlimited, fun _ => none⟩

namespace Retried

variable {node : Node} (h : Retried node) {crit : FilterCriteria}

include h

theorem latest : node.latest = 2 := by rw [h.surroundings]; rfl

theorem matching_second (hall : crit.isFiltered = false) : ∃ logs, logs ≠ [] ∧
    node.getLogsForBlockPooled false secondResult crit = .ok logs := by
  obtain ⟨r, hr, hpaid⟩ := h.receipt
  have hall : Node.HasMatch crit r := by
    rw [Node.HasMatch, Synthetic.getLogsForTx, hpaid.logs]
    exact ⟨_, List.mem_cons_self, isLogExactMatch_of_not_isFiltered hall _⟩
  have hfirst : (node.evmTxs secondResult)[0]? = some (creationTx 0) := by
    rw [h.evmTxs_second]
    rfl
  obtain ⟨logs, hlogs, hmem⟩ := Node.mem_getLogsForBlockPooled h.mixed_second crit
  obtain ⟨log, hlog, hmatch⟩ := Node.exists_reportedLogs_iff.mpr hall
  exact ⟨logs, List.ne_nil_of_mem ((hmem log).mpr ⟨⟨0, _, r, hfirst, hpaid.collected hr, hlog⟩,
    hmatch⟩), hlogs⟩

theorem processed_second (hall : crit.isFiltered = false) :
    unlimited.processed node crit [secondResult] = [secondResult] := by
  obtain ⟨logs, -, hlogs⟩ := h.matching_second hall
  have hsome : (unlimited.batchLogs node crit [secondResult]).isSome := by
    rw [LogFetcher.batchLogs, List.mapM_cons, show unlimited.includeSyntheticReceipts = false from
      rfl, hlogs]
    rfl
  rw [LogFetcher.processed, show unlimited.batches [secondResult] = [[secondResult]] from rfl,
    List.filter_cons_of_pos (by exact hsome)]
  rfl

theorem mergedLogs_second_ne (hall : crit.isFiltered = false) :
    unlimited.mergedLogs node crit [secondResult] ≠ [] := by
  intro hnil
  obtain ⟨logs, hsome, hlogs⟩ := h.matching_second hall
  have hperm := LogFetcher.mergedLogs_perm unlimited node crit [secondResult]
  rw [hnil, h.processed_second hall, List.flatMap_singleton, LogFetcher.matchingLogs,
    show unlimited.includeSyntheticReceipts = false from rfl, hlogs] at hperm
  exact hsome hperm.nil_eq.symm

theorem fetched_second {lastToHeight : Int64} (hhash : crit.blockHash = none)
    (hall : crit.isFiltered = false) (hheights : node.heightRange crit lastToHeight = (2, 2)) :
    node.fetchBlocksByCrit unlimited.config crit lastToHeight = .ok ⟨[secondResult], 2, false⟩ := by
  rw [Node.fetchBlocksByCrit, hhash]
  exact Node.fetchRange_eq hheights (by decide) (by decide) (by decide) (h.processBatch_second hall)

theorem getLogs_second {lastToHeight : Int64} (hhash : crit.blockHash = none)
    (hall : crit.isFiltered = false) (hheights : node.heightRange crit lastToHeight = (2, 2)) :
    unlimited.getLogsByFilters node crit lastToHeight =
      .ok (unlimited.mergedLogs node crit [secondResult], 2) := by
  refine LogFetcher.getLogsByFilters_eq_ok.mpr
    ⟨?_, _, h.fetched_second hhash hall hheights, rfl, ?_⟩
  · rw [hheights]
    decide
  · exact (List.take_length ..).symm

end Retried

def fromSecond : FilterCriteria := { fromBlock := some 2 }

theorem fromSecond_not_settled (lastToHeight : Int64) :
    ¬ Filter.Settled { typ := .logsSubscription, fc := fromSecond, lastToHeight } := by
  rintro (⟨hhash, -⟩ | htoBlock)
  · exact hhash rfl
  · cases htoBlock

namespace Retried

variable {node : Node} (h : Retried node)

include h

theorem heightRange_fromSecond {lastToHeight : Int64} (hle : lastToHeight = 0 ∨ lastToHeight = 2) :
    node.heightRange fromSecond lastToHeight = (2, 2) := by
  have hbegin : fromSecond.fromBlock.elim node.latest
      (Node.getHeightFromBigIntBlockNumber node.latest) = 2 := rfl
  have hend : fromSecond.toBlock.elim node.latest
      (Node.getHeightFromBigIntBlockNumber node.latest) = 2 := h.latest
  rw [Node.heightRange, hbegin, hend]
  rcases hle with rfl | rfl
  · rfl
  · rfl

theorem changes_fromSecond {a : FilterAPI} {id : String} {lastToHeight : Int64}
    (hle : lastToHeight = 0 ∨ lastToHeight = 2) (ha : a.logFetcher = unlimited)
    (hfilter : a.filters id = some { typ := .logsSubscription, fc := fromSecond, lastToHeight })
    (headersAfter : String → Except String (List Hash × String)) :
    ∃ a', a.getFilterChanges node headersAfter id =
      .ok (.logs (unlimited.mergedLogs node fromSecond [secondResult]), a') := by
  have hpoll := (LogFetcher.pollLogs_of_not_settled (fromSecond_not_settled lastToHeight)).mpr
    ⟨_, _, h.getLogs_second rfl rfl (h.heightRange_fromSecond hle), rfl, rfl⟩
  exact ⟨_, (FilterAPI.getFilterChanges_logs hfilter rfl).mpr ⟨_, _, by rw [ha]; exact hpoll, rfl,
    rfl⟩⟩

end Retried

theorem retried_hashIndexed {c : Chain AccAddress ℤ}
    (hblocks : c.blocks = [(firstBlock, firstResult), (secondBlock, secondResult)]) :
    c.node.HashIndexed := by
  intro n b hb
  have hhash : ∀ b ∈ [firstResult, secondResult],
      [firstResult, secondResult].find? (·.hash = b.hash) = some b := by decide
  have hmem := (Chain.mem_of_blockByNumber hb).1
  rw [hblocks] at hmem
  show c.blockByHash b.hash = .ok b
  rw [Chain.blockByHash, hblocks, List.map_cons, List.map_cons, List.map_nil, hhash b hmem]

def secondPoll (node : Node) (lastToHeight : Int64) (covered : Option Int64) : Poll where
  node := node
  filter := { typ := .logsSubscription, fc := fromSecond, lastToHeight }
  covered := covered
  logs := unlimited.mergedLogs node fromSecond [secondResult]

namespace Retried

variable {node : Node} (h : Retried node)

include h

theorem upperEnd : node.upperEnd fromSecond = 2 := by
  rw [Node.upperEnd, h.heightRange_fromSecond (.inl rfl)]

theorem firstPoll_wanted : (secondPoll node 0 none).wanted = [secondResult] := by
  have huncovered : (secondPoll node 0 none).uncovered = [2] := by
    show Node.heights (node.heightRange fromSecond 0).1 (node.upperEnd fromSecond) = [2]
    rw [h.heightRange_fromSecond (.inl rfl), h.upperEnd]
    decide
  show (secondPoll node 0 none).uncovered.filterMap _ = _
  rw [huncovered]
  show [2].filterMap (fun height => (node.blockByNumber height).toOption) = _
  rw [List.filterMap_cons_some (b := secondResult) (by rw [h.second]; rfl)]
  rfl

theorem nextPoll_wanted : (secondPoll node 2 (some 2)).wanted = [] := by
  have huncovered : (secondPoll node 2 (some 2)).uncovered = [] := by
    show fromSecond.above 2 (node.upperEnd fromSecond) = []
    rw [h.upperEnd]
    decide
  show (secondPoll node 2 (some 2)).uncovered.filterMap _ = _
  rw [huncovered]
  rfl

variable {lastToHeight : Int64}

theorem fetched_poll (hle : lastToHeight = 0 ∨ lastToHeight = 2) (covered : Option Int64) :
    (secondPoll node lastToHeight covered).fetched unlimited =
      some ⟨[secondResult], 2, false⟩ := by
  rw [Poll.fetched, if_neg (by exact fromSecond_not_settled lastToHeight)]
  exact congrArg Except.toOption (h.fetched_second rfl rfl (h.heightRange_fromSecond hle))

theorem read_poll (hle : lastToHeight = 0 ∨ lastToHeight = 2) (covered : Option Int64) :
    (secondPoll node lastToHeight covered).read unlimited =
      [secondResult] := by
  rw [Poll.read, h.fetched_poll hle]
  exact h.processed_second rfl

theorem cutOff_poll (hle : lastToHeight = 0 ∨ lastToHeight = 2) (covered : Option Int64) :
    (secondPoll node lastToHeight covered).cutOff unlimited = [] := by
  rw [Poll.cutOff, h.fetched_poll hle]
  exact List.drop_length

end Retried

end Tabi.Rpc
