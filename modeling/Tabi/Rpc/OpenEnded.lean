import Tabi.Rpc.Tags

/-!
# Rpc — polls without an upper end

A filter without `ToBlock` is polled again and again, and a subscription polls by itself.
-/

namespace Tabi.Rpc

open Support Fallible

structure FilterCriteria.OpenEnded (crit : FilterCriteria) : Prop where
  toBlock : crit.toBlock = none
  blockHash : crit.blockHash = none

structure Node.Readable (node : Node) : Prop where
  block : ∀ height, 1 ≤ height → height ≤ node.latest →
    ∃ block, node.blockByNumber height = .ok block
  next : node.latest < Int64.maxValue

namespace Node

variable {node : Node} {config : FilterConfig} {crit : FilterCriteria} {lastToHeight : Int64}

def lowerEnd (node : Node) (crit : FilterCriteria) : Int64 :=
  crit.fromBlock.elim node.latest (getHeightFromBigIntBlockNumber node.latest)

theorem heightRange_open (hopen : crit.OpenEnded) : node.heightRange crit lastToHeight =
    (if lastToHeight > node.lowerEnd crit then lastToHeight else node.lowerEnd crit,
      node.latest) := by
  simp [heightRange, lowerEnd, hopen.toBlock]

theorem fetchBlocksByCrit_open (hopen : crit.OpenEnded) :
    node.fetchBlocksByCrit config crit lastToHeight = node.fetchRange config crit lastToHeight := by
  rw [fetchBlocksByCrit, hopen.blockHash]

theorem Readable.processBatch (h : node.Readable) {begin_ : Int64} (hbegin : 1 ≤ begin_) :
    ∃ blocks, node.processBatch begin_ node.latest crit = .ok blocks := by
  have hfetch : ∀ height ∈ heights begin_ node.latest, ∃ found,
      node.fetchBlock crit height = .ok found ∧ True := by
    intro height hheight
    obtain ⟨hle, hle'⟩ := mem_heights hheight
    obtain ⟨block, hblock⟩ := h.block height (Int64.le_trans hbegin hle) hle'
    unfold fetchBlock
    split
    · exact ⟨_, rfl, trivial⟩
    · split
      · exact ⟨_, rfl, trivial⟩
      · rw [hblock]
        exact ⟨_, rfl, trivial⟩
  obtain ⟨found, hfound, -⟩ := exists_mapM_iff.mpr hfetch
  exact ⟨found.reduceOption, map_eq_ok.mpr ⟨found, hfound, rfl⟩⟩

end Node

namespace LogFetcher

variable {f : LogFetcher} {node : Node} {crit : FilterCriteria} {lastToHeight begin_ : Int64}

theorem range_of_open (hopen : crit.OpenEnded) (hnext : node.latest < Int64.maxValue)
    {logs : List EthLog} {end_ : Int64}
    (h : f.getLogsByFilters node crit lastToHeight = .ok (logs, end_)) :
    end_ = node.latest ∧ (node.heightRange crit lastToHeight).1 ≤ node.latest ∧
      node.latest.toInt - (node.heightRange crit lastToHeight).1.toInt + 1 ≤
        f.config.maxBlock.toInt := by
  obtain ⟨hrange, fetched, hfetched, rfl, -⟩ := getLogsByFilters_eq_ok.mp h
  rw [Node.fetchBlocksByCrit_open hopen] at hfetched
  obtain ⟨first, hfirst, hend, hle, hsize, -⟩ := Node.fetchRange_spec hfetched
  cases (Node.firstHeight_eq hrange _).symm.trans hfirst
  have hlatest : (node.heightRange crit lastToHeight).2 = node.latest := by
    rw [Node.heightRange_open hopen]
  rw [hend, hlatest] at hle hsize
  rw [hlatest, Int64.le_iff_toInt_le] at hrange
  refine ⟨hend.trans hlatest, hle, ?_⟩
  rwa [toInt_sub_add_one_of_pos hle ?_] at hrange
  -- the range has at least one block, and at most `2 ^ 64 - 1`
  have hmax : node.latest.toInt < 2 ^ 63 - 1 := Int64.lt_iff_toInt_lt.mp hnext
  have hlow := (node.heightRange crit lastToHeight).1.le_toInt
  rw [Int64.le_iff_toInt_le] at hle
  rw [Int64.lt_iff_toInt_lt, Int64.toInt_zero, toInt_sub_add_one, Int.bmod_def] at hsize ⊢
  split at hsize <;> omega

theorem returns_iff (hopen : crit.OpenEnded) (hreads : node.Readable)
    (hbegin : (node.heightRange crit lastToHeight).1 = begin_) (hpos : 1 ≤ begin_) :
    (∃ logs end_, f.getLogsByFilters node crit lastToHeight = .ok (logs, end_)) ↔
      begin_.toInt ≤ node.latest.toInt ∧
        node.latest.toInt - begin_.toInt + 1 ≤ f.config.maxBlock.toInt := by
  constructor
  · rintro ⟨logs, end_, h⟩
    obtain ⟨-, hle, hrange⟩ := range_of_open hopen hreads.next h
    rw [hbegin] at hle hrange
    exact ⟨Int64.le_iff_toInt_le.mp hle, hrange⟩
  · rintro ⟨hle, hrange⟩
    obtain ⟨blocks, hblocks⟩ : ∃ blocks, node.processBatch begin_ node.latest crit = .ok blocks :=
      hreads.processBatch hpos
    have hheights : node.heightRange crit lastToHeight = (begin_, node.latest) := by
      rw [← hbegin, Node.heightRange_open hopen]
    have hone : (1 : ℤ) ≤ begin_.toInt := Int64.le_iff_toInt_le.mp hpos
    have hlt := node.latest.toInt_lt
    have hsize := toInt_sub_add_one_of_lt (m := begin_) (n := node.latest) (by omega) (by omega)
    have hmax : node.latest - begin_ + 1 ≤ f.config.maxBlock := by
      rw [Int64.le_iff_toInt_le, hsize]
      exact hrange
    have hnonneg : ¬ node.latest - begin_ + 1 < 0 := by
      rw [Int64.lt_iff_toInt_lt, hsize, Int64.toInt_zero]
      omega
    have hfetch := Node.fetchRange_eq hheights (Int64.le_iff_toInt_le.mpr hle) hmax hnonneg hblocks
    rw [← Node.fetchBlocksByCrit_open hopen] at hfetch
    refine ⟨_, _, getLogsByFilters_eq_ok.mpr ⟨?_, _, hfetch, rfl, rfl⟩⟩
    rw [hheights]
    exact hmax

theorem getLogsByFilters_after (hopen : crit.OpenEnded)
    (hbegin : (node.heightRange crit lastToHeight).1 = begin_) (hgt : ¬ begin_ ≤ node.latest)
    (hrange : node.latest - begin_ + 1 ≤ f.config.maxBlock) :
    f.getLogsByFilters node crit lastToHeight = .error (.err ("fromBlock " ++
      toString begin_.toInt ++ " is after toBlock " ++ toString node.latest.toInt)) := by
  have hheights : node.heightRange crit lastToHeight = (begin_, node.latest) := by
    rw [← hbegin, Node.heightRange_open hopen]
  have hfetch : node.fetchBlocksByCrit f.config crit lastToHeight = .error (.err ("fromBlock " ++
      toString begin_.toInt ++ " is after toBlock " ++ toString node.latest.toInt)) := by
    rw [Node.fetchBlocksByCrit_open hopen, Node.fetchRange, hheights]
    simp only [Node.firstHeight_eq hrange]
    show ((require (begin_ ≤ node.latest) _ : Fallible Unit) >>= _) = _
    rw [require, if_neg hgt]
    rfl
  rw [getLogsByFilters, hheights]
  simp only [hfetch, require, if_pos hrange]
  rfl

end LogFetcher

theorem FilterAPI.getFilterChanges_open {a : FilterAPI} {id : String} {filter : Filter}
    (hfilter : a.filters id = some filter) (htyp : filter.typ = .logsSubscription)
    (hopen : filter.fc.OpenEnded) (node : Node)
    (headersAfter : String → Except String (List Hash × String)) :
    a.getFilterChanges node headersAfter id =
      (a.logFetcher.getLogsByFilters node filter.fc filter.lastToHeight).map fun r =>
        (.logs r.1, a.store id (some { filter with lastToHeight := r.2 + 1 })) := by
  simp only [getFilterChanges, hfilter, htyp, LogFetcher.pollLogs, hopen.blockHash, hopen.toBlock]
  cases a.logFetcher.getLogsByFilters node filter.fc filter.lastToHeight with
  | error e => rfl
  | ok r => rfl

def LogSubscription.after (s : LogSubscription) (end_ : Int64) : LogSubscription :=
  ⟨{ s.filter with fromBlock := some (end_ + 1).toInt }, end_⟩

theorem FilterCriteria.OpenEnded.after {s : LogSubscription} (h : s.filter.OpenEnded)
    {end_ : Int64} : (s.after end_).filter.OpenEnded := ⟨h.toBlock, h.blockHash⟩

theorem LogSubscription.iterate_open {s : LogSubscription} (hopen : s.filter.OpenEnded)
    (f : LogFetcher) (node : Node) : s.iterate f node =
      (f.getLogsByFilters node s.filter s.begin_).map fun r => (r.1, some (s.after r.2)) := by
  unfold iterate
  rw [hopen.toBlock]
  cases f.getLogsByFilters node s.filter s.begin_ with
  | error e => rfl
  | ok r => rfl

section Next

variable {f : LogFetcher} {crit : FilterCriteria} {node₀ node₁ : Node} {k : ℕ}

theorem Node.Readable.next_of_grows (hreads : node₁.Readable)
    (hgrows : node₁.latest.toInt = node₀.latest.toInt + k) : node₀.latest < Int64.maxValue := by
  have hmax := Int64.lt_iff_toInt_lt.mp hreads.next
  rw [Int64.lt_iff_toInt_lt]
  omega

theorem Node.lowerEnd_of_number {n : ℤ} (hn : n ∈ crit.fromBlock) (htag : ¬ IsTag n) (node : Node) :
    node.lowerEnd crit = Int64.ofInt n := by
  rw [Node.lowerEnd, Option.mem_def.mp hn]
  exact if_neg htag

theorem Node.lowerEnd_of_tags (htags : ∀ n ∈ crit.fromBlock, IsTag n) (node : Node) :
    node.lowerEnd crit = node.latest := by
  rw [Node.lowerEnd]
  cases hfrom : crit.fromBlock with
  | none => rfl
  | some n => exact if_pos (htags n hfrom)

theorem FilterCriteria.OpenEnded.next_of_number (hopen : crit.OpenEnded) (h₀ : 0 ≤ node₀.latest)
    (hreads : node₁.Readable) (hgrows : node₁.latest.toInt = node₀.latest.toInt + k) {n : ℤ}
    (hn : n ∈ crit.fromBlock) (htag : ¬ IsTag n) (hbelow : Int64.ofInt n < node₀.latest + 1) :
    (∃ logs end_, f.getLogsByFilters node₁ crit (node₀.latest + 1) = .ok (logs, end_)) ↔
      1 ≤ k ∧ (k : ℤ) ≤ f.config.maxBlock.toInt := by
  have hzero : 0 ≤ node₀.latest.toInt := Int64.le_iff_toInt_le.mp h₀
  have hsucc := toInt_add_one (hreads.next_of_grows hgrows)
  have hbegin : (node₁.heightRange crit (node₀.latest + 1)).1 = node₀.latest + 1 := by
    rw [Node.heightRange_open hopen, Node.lowerEnd_of_number hn htag, if_pos hbelow]
  rw [LogFetcher.returns_iff hopen hreads hbegin
    (Int64.le_iff_toInt_le.mpr (by rw [hsucc, Int64.toInt_one]; omega)), hsucc, hgrows]
  omega

theorem FilterCriteria.OpenEnded.next_of_tags (hopen : crit.OpenEnded) (h₀ : 0 ≤ node₀.latest)
    (hreads : node₁.Readable) (hgrows : node₁.latest.toInt = node₀.latest.toInt + k)
    (htags : ∀ n ∈ crit.fromBlock, IsTag n) (hone : 1 ≤ f.config.maxBlock.toInt) :
    (∃ logs end_, f.getLogsByFilters node₁ crit (node₀.latest + 1) = .ok (logs, end_)) ↔
      1 ≤ k := by
  have hzero : 0 ≤ node₀.latest.toInt := Int64.le_iff_toInt_le.mp h₀
  have hsucc := toInt_add_one (hreads.next_of_grows hgrows)
  by_cases hk : 1 ≤ k
  · have hbegin : (node₁.heightRange crit (node₀.latest + 1)).1 = node₁.latest := by
      rw [Node.heightRange_open hopen, Node.lowerEnd_of_tags htags]
      refine if_neg ?_
      rw [gt_iff_lt, Int64.not_lt, Int64.le_iff_toInt_le]
      omega
    rw [LogFetcher.returns_iff hopen hreads hbegin
      (Int64.le_iff_toInt_le.mpr (by rw [Int64.toInt_one]; omega))]
    omega
  · have hbegin : (node₁.heightRange crit (node₀.latest + 1)).1 = node₀.latest + 1 := by
      rw [Node.heightRange_open hopen, Node.lowerEnd_of_tags htags]
      refine if_pos ?_
      rw [gt_iff_lt, Int64.lt_iff_toInt_lt]
      omega
    rw [LogFetcher.returns_iff hopen hreads hbegin
      (Int64.le_iff_toInt_le.mpr (by rw [hsucc, Int64.toInt_one]; omega))]
    omega

theorem FilterCriteria.OpenEnded.next_returns_iff (hopen : crit.OpenEnded) (h₀ : 0 ≤ node₀.latest)
    (hreads : node₁.Readable) (hgrows : node₁.latest.toInt = node₀.latest.toInt + k)
    {lastToHeight end_ : Int64} {logs : List EthLog}
    (hcall : f.getLogsByFilters node₀ crit lastToHeight = .ok (logs, end_)) :
    (∃ logs end_', f.getLogsByFilters node₁ crit (end_ + 1) = .ok (logs, end_')) ↔
      1 ≤ k ∧ ∀ n ∈ crit.fromBlock, ¬ IsTag n → (k : ℤ) ≤ f.config.maxBlock.toInt := by
  have hnext := hreads.next_of_grows hgrows
  obtain ⟨rfl, hle, hrange⟩ := LogFetcher.range_of_open hopen hnext hcall
  rw [Node.heightRange_open hopen] at hle hrange
  dsimp only at hle hrange
  rw [Int64.le_iff_toInt_le] at hle
  have hsucc := toInt_add_one hnext
  by_cases hnumber : ∃ n ∈ crit.fromBlock, ¬ IsTag n
  · -- the number is not above what was read
    obtain ⟨n, hn, htag⟩ := hnumber
    have hbelow : Int64.ofInt n < node₀.latest + 1 := by
      rw [Node.lowerEnd_of_number hn htag] at hle
      rw [Int64.lt_iff_toInt_lt, hsucc]
      split at hle
      · rename_i hgt
        rw [gt_iff_lt, Int64.lt_iff_toInt_lt] at hgt
        omega
      · omega
    rw [hopen.next_of_number h₀ hreads hgrows hn htag hbelow]
    simp only [Option.mem_def.mp hn, Option.mem_some, forall_eq', htag, not_false_eq_true,
      true_implies]
  · have htags : ∀ n ∈ crit.fromBlock, IsTag n :=
      fun n hn => by_contra fun htag => hnumber ⟨n, hn, htag⟩
    have hone : 1 ≤ f.config.maxBlock.toInt := by
      rw [Node.lowerEnd_of_tags htags] at hle hrange
      omega
    have hall : ∀ n ∈ crit.fromBlock, ¬ IsTag n → (k : ℤ) ≤ f.config.maxBlock.toInt :=
      fun n hn htag => absurd (htags n hn) htag
    rw [hopen.next_of_tags h₀ hreads hgrows htags hone, and_iff_left hall]

theorem LogSubscription.next_returns_iff {s : LogSubscription} (hopen : s.filter.OpenEnded)
    (h₀ : 0 ≤ node₀.latest) (hreads : node₁.Readable)
    (hgrows : node₁.latest.toInt = node₀.latest.toInt + k) :
    (∃ logs end_, f.getLogsByFilters node₁ (s.after node₀.latest).filter node₀.latest =
      .ok (logs, end_)) ↔ 1 ≤ k ∧ (k : ℤ) ≤ f.config.maxBlock.toInt := by
  have hzero : 0 ≤ node₀.latest.toInt := Int64.le_iff_toInt_le.mp h₀
  have hnext := hreads.next_of_grows hgrows
  have hsucc := toInt_add_one hnext
  have hlower : node₁.lowerEnd (s.after node₀.latest).filter = node₀.latest + 1 := by
    have hof : Int64.ofInt (node₀.latest + 1).toInt = node₀.latest + 1 := Int64.ofInt_toInt _
    have htag : ¬ IsTag (node₀.latest + 1).toInt := fun htag => by
      have hneg := Int64.lt_iff_toInt_lt.mp htag.lt
      rw [hof, hsucc, Int64.toInt_zero] at hneg
      omega
    exact (if_neg htag).trans hof
  have hbegin : (node₁.heightRange (s.after node₀.latest).filter node₀.latest).1 =
      node₀.latest + 1 := by
    rw [Node.heightRange_open hopen.after, hlower]
    refine if_neg ?_
    rw [gt_iff_lt, Int64.not_lt, Int64.le_iff_toInt_le]
    omega
  rw [LogFetcher.returns_iff hopen.after hreads hbegin
    (Int64.le_iff_toInt_le.mpr (by rw [hsucc, Int64.toInt_one]; omega)), hsucc, hgrows]
  omega

/-- **Polls without an upper end.**  When a poll of the filter returned and the chain has grown by
`k` blocks, the next poll returns logs exactly when some block is new and, if `FromBlock` is a
number, no more than a query may have.  The next iteration of a subscription returns exactly when
some block is new, and no more than a query may have. -/
theorem open_polls_return_iff (hopen : crit.OpenEnded) (h₀ : 0 ≤ node₀.latest)
    (hreads : node₁.Readable) (hgrows : node₁.latest.toInt = node₀.latest.toInt + k) :
    (∀ (a a₁ : FilterAPI) (id : String) (filter : Filter) (changes : FilterChanges)
      (headersAfter headersAfter' : String → Except String (List Hash × String)),
      a.logFetcher = f → a.filters id = some filter → filter.typ = .logsSubscription →
      filter.fc = crit → a.getFilterChanges node₀ headersAfter id = .ok (changes, a₁) →
        ((∃ logs a₂, a₁.getFilterChanges node₁ headersAfter' id = .ok (.logs logs, a₂)) ↔
          1 ≤ k ∧ ∀ n ∈ crit.fromBlock, ¬ IsTag n → (k : ℤ) ≤ f.config.maxBlock.toInt)) ∧
    ∀ (s s₁ : LogSubscription) (logs : List EthLog), s.filter = crit →
      s.iterate f node₀ = .ok (logs, some s₁) →
        ((∃ logs s₂, s₁.iterate f node₁ = .ok (logs, s₂)) ↔
          1 ≤ k ∧ (k : ℤ) ≤ f.config.maxBlock.toInt) := by
  refine ⟨?_, ?_⟩
  · rintro a a₁ id filter changes headersAfter headersAfter' rfl hfilter htyp rfl hcall
    rw [FilterAPI.getFilterChanges_open hfilter htyp hopen] at hcall
    obtain ⟨⟨_, end_⟩, hlogs, hcall⟩ := map_eq_ok.mp hcall
    cases hcall
    have hstored : (a.store id (some { filter with lastToHeight := end_ + 1 })).filters id =
        some { filter with lastToHeight := end_ + 1 } := FilterAPI.store_self _
    rw [← hopen.next_returns_iff h₀ hreads hgrows hlogs,
      FilterAPI.getFilterChanges_open hstored htyp hopen]
    constructor
    · rintro ⟨logs, a₂, hcall⟩
      obtain ⟨⟨logs', end_'⟩, hlogs', -⟩ := map_eq_ok.mp hcall
      exact ⟨logs', end_', hlogs'⟩
    · rintro ⟨logs, end_', hlogs'⟩
      exact ⟨logs, _, map_eq_ok.mpr ⟨_, hlogs', rfl⟩⟩
  · rintro s s₁ logs rfl hcall
    rw [LogSubscription.iterate_open hopen] at hcall
    obtain ⟨⟨_, end_⟩, hlogs, hcall⟩ := map_eq_ok.mp hcall
    cases hcall
    obtain ⟨rfl, -⟩ := LogFetcher.range_of_open hopen (hreads.next_of_grows hgrows) hlogs
    rw [← LogSubscription.next_returns_iff hopen h₀ hreads hgrows,
      LogSubscription.iterate_open hopen.after]
    constructor
    · rintro ⟨logs, s₂, hcall⟩
      obtain ⟨⟨logs', end_'⟩, hlogs', -⟩ := map_eq_ok.mp hcall
      exact ⟨logs', end_', hlogs'⟩
    · rintro ⟨logs, end_', hlogs'⟩
      exact ⟨logs, _, map_eq_ok.mpr ⟨_, hlogs', rfl⟩⟩

end Next

namespace Retried

variable {node : Node} (h : Retried node)

include h

theorem readable : node.Readable := by
  refine ⟨fun height hle hle' => ?_, ?_⟩
  · rw [h.latest, Int64.le_iff_toInt_le] at hle'
    have hone : (1 : ℤ) ≤ height.toInt := Int64.le_iff_toInt_le.mp hle
    have htwo : height.toInt ≤ 2 := hle'
    rcases (show height.toInt = 1 ∨ height.toInt = 2 by omega) with e | e
    · cases Int64.toInt_inj.mp (e.trans (show (1 : ℤ) = (1 : Int64).toInt from rfl))
      exact ⟨_, h.first⟩
    · cases Int64.toInt_inj.mp (e.trans (show (2 : ℤ) = (2 : Int64).toInt from rfl))
      exact ⟨_, h.second⟩
  · rw [h.latest]
    decide

end Retried

def Node.atFirst (node : Node) : Node := { node with latest := 1 }

@[simp] theorem Node.atFirst_latest (node : Node) : node.atFirst.latest = 1 := rfl

theorem Retried.readable_atFirst {node : Node} (h : Retried node) : node.atFirst.Readable := by
  refine ⟨fun height hle hle' => h.readable.block height hle ?_, ?_⟩
  · rw [h.latest]
    exact Int64.le_trans hle' (show (1 : Int64) ≤ 2 by decide)
  · rw [Node.atFirst_latest]
    decide

theorem open_polls_return_retried : ∃ c : Chain AccAddress ℤ, Retried c.node ∧
    (∃ changes a₁ logs a₂,
      (freshAPI.newFilter "0x1" {}).getFilterChanges c.node.atFirst (fun _ => .error "") "0x1" =
        .ok (changes, a₁) ∧
      a₁.getFilterChanges c.node (fun _ => .error "") "0x1" = .ok (.logs logs, a₂)) ∧
    ∃ logs₁ s₁ logs₂ s₂,
      LogSubscription.iterate ⟨{}, 0⟩ unlimited c.node.atFirst = .ok (logs₁, some s₁) ∧
      s₁.iterate unlimited c.node = .ok (logs₂, s₂) := by
  obtain ⟨c, h⟩ := exists_retried
  have hopen : FilterCriteria.OpenEnded {} := ⟨rfl, rfl⟩
  have hgrows : c.node.latest.toInt = c.node.atFirst.latest.toInt + (1 : ℕ) := by
    rw [h.latest]
    rfl
  have hnew : (freshAPI.newFilter "0x1" {}).filters "0x1" = some { typ := .logsSubscription } :=
    FilterAPI.store_self _
  have hbegin : (c.node.atFirst.heightRange {} 0).1 = 1 := rfl
  obtain ⟨logs, end_, hlogs⟩ := (LogFetcher.returns_iff (f := unlimited) hopen h.readable_atFirst
    hbegin (by decide)).mpr (by rw [Node.atFirst_latest]; decide)
  have hcall := (FilterAPI.getFilterChanges_open hnew rfl hopen c.node.atFirst
    fun _ => .error "").trans (congrArg (Except.map _) hlogs)
  have hiterate := (LogSubscription.iterate_open (s := ⟨{}, 0⟩) hopen unlimited
    c.node.atFirst).trans (congrArg (Except.map _) hlogs)
  have hlatest : 0 ≤ c.node.atFirst.latest := by
    rw [Node.atFirst_latest]
    decide
  have hreturns := open_polls_return_iff (f := unlimited) hopen hlatest h.readable hgrows
  obtain ⟨logs₁, a₂, hcall₁⟩ := (hreturns.1 _ _ "0x1" _ _ _ (fun _ => .error "") rfl hnew rfl rfl
    hcall).mpr ⟨Nat.le_refl 1, nofun⟩
  obtain ⟨logs₂, s₂, hiterate₁⟩ := (hreturns.2 _ _ _ rfl hiterate).mpr ⟨Nat.le_refl 1, by decide⟩
  exact ⟨c, h, ⟨_, _, logs₁, a₂, hcall, hcall₁⟩, _, _, logs₂, s₂, hiterate, hiterate₁⟩

theorem open_polls_fail_retried : ∃ c : Chain AccAddress ℤ, Retried c.node ∧ c.node.Readable ∧
    (∃ changes a₁,
      (freshAPI.newFilter "0x1" fromSecond).getFilterChanges c.node (fun _ => .error "") "0x1" =
        .ok (changes, a₁) ∧
      a₁.getFilterChanges c.node (fun _ => .error "") "0x1" =
        .error (.err "fromBlock 3 is after toBlock 2")) ∧
    ∃ logs s₁, LogSubscription.iterate ⟨fromSecond, 0⟩ unlimited c.node = .ok (logs, some s₁) ∧
      s₁.iterate unlimited c.node = .error (.err "fromBlock 3 is after toBlock 2") := by
  obtain ⟨c, h⟩ := exists_retried
  have hopen : fromSecond.OpenEnded := ⟨rfl, rfl⟩
  have hnew : (freshAPI.newFilter "0x1" fromSecond).filters "0x1" =
      some { typ := .logsSubscription, fc := fromSecond } := FilterAPI.store_self _
  have hlogs := h.getLogs_second rfl rfl (h.heightRange_fromSecond (.inl rfl))
  have hcall := (FilterAPI.getFilterChanges_open hnew rfl hopen c.node fun _ => .error "").trans
    (congrArg (Except.map _) hlogs)
  have hiterate := (LogSubscription.iterate_open (s := ⟨fromSecond, 0⟩) hopen unlimited
    c.node).trans (congrArg (Except.map _) hlogs)
  have hgt : ¬ (3 : Int64) ≤ c.node.latest := by
    rw [h.latest]
    decide
  have hrange : c.node.latest - 3 + 1 ≤ unlimited.config.maxBlock := by
    rw [h.latest]
    decide
  refine ⟨c, h, h.readable, ⟨_, _, hcall, ?_⟩, _, _, hiterate, ?_⟩
  · rw [FilterAPI.getFilterChanges_open (FilterAPI.store_self _) rfl hopen]
    have hbegin : (c.node.heightRange fromSecond 3).1 = 3 := rfl
    have hafter := LogFetcher.getLogsByFilters_after hopen hbegin hgt hrange
    rw [h.latest] at hafter
    exact congrArg (Except.map _) hafter
  · rw [LogSubscription.iterate_open hopen.after]
    have hbegin : (c.node.heightRange { fromSecond with fromBlock := some 3 } 2).1 = 3 := rfl
    have hafter := LogFetcher.getLogsByFilters_after ⟨rfl, rfl⟩ hbegin hgt hrange
    rw [h.latest] at hafter
    exact congrArg (Except.map _) hafter

end Tabi.Rpc
