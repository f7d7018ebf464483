import Tabi.Rpc.LogBlocks

/-!
# Rpc — the block cache

Log queries share a cache of blocks and receipts (`globalBlockCache`, `evmrpc/filter.go`).  Workers
of any number of queries read and write it, its entries are locked one at a time, and an entry can
be evicted or expire at any moment.  A block that is in the cache is not held against the bloom of
its height.

* `Reached`: the caches that all this can lead to, while the chain grows.
* `heightLogs_cached`: whatever cache a query sees at each of its lookups, it finds the logs that it
  would find without a cache, where the blooms of blocks contain those of their receipts.
-/

namespace Tabi.Rpc

open Support Fallible
open Synthetic (Receipt shellEVMTxType)

/-- `BlockCacheEntry`; a block that is `none` is nil. -/
structure BlockCacheEntry where
  block : Option ResultBlock
  bloom : Bloom
  receipts : Hash → Option Receipt

/-- `BlockCache`, by height. -/
abbrev BlockCache := Int64 → Option BlockCacheEntry

def fillMissingFields (entry : BlockCacheEntry) (block : Option ResultBlock) (bloom : Bloom) :
    BlockCacheEntry :=
  { entry with
    block := entry.block.or block
    bloom := if entry.bloom = default ∧ bloom ≠ default then bloom else entry.bloom }

namespace BlockCache

variable (cache : BlockCache)

def getCachedReceipt (blockHeight : Int64) (txHash : Hash) : Option Receipt :=
  (cache blockHeight).bind fun entry => entry.receipts txHash

/-- `loadOrStoreCacheEntry`: the entry of the height, which is in the cache then. -/
def loadOrStoreCacheEntry (blockHeight : Int64) (block : Option ResultBlock) : BlockCacheEntry :=
  match cache blockHeight with
  | some entry => if block.isSome then fillMissingFields entry block default else entry
  | none => ⟨block, default, fun _ => none⟩

/-- An entry is written. -/
def put (height : Int64) (entry : Option BlockCacheEntry) : BlockCache :=
  Function.update cache height entry

end BlockCache

/-- The chain grows: blocks and receipts stay.  (A transaction that is tried again gets another
receipt; the cache may keep the first.) -/
structure Node.Grows (node node' : Node) : Prop where
  blocks : ∀ {height block}, node.blockByNumber height = .ok block →
    node'.blockByNumber height = .ok block
  receipts : ∀ {hash receipt}, node.getReceipt hash = .ok receipt →
    node'.getReceipt hash = .ok receipt

/-- The caches that can come about.  `setCachedReceipt` stores the block, and writes the receipt
under another lock. -/
inductive BlockCache.Reached : Node → BlockCache → Prop where
  | empty (node : Node) : Reached node fun _ => none
  | stored {node : Node} {cache : BlockCache} {height : Int64} {block : ResultBlock}
      (h : Reached node cache) (hb : node.blockByNumber height = .ok block) :
      Reached node (cache.put height (some (cache.loadOrStoreCacheEntry height (some block))))
  | filled {node : Node} {cache : BlockCache} {height : Int64} {block : ResultBlock}
      {entry : BlockCacheEntry} {bloom : Bloom} (h : Reached node cache)
      (he : cache height = some entry) (hb : node.blockByNumber height = .ok block) :
      Reached node (cache.put height (some (fillMissingFields entry (some block) bloom)))
  | received {node : Node} {cache : BlockCache} {height : Int64} {entry : BlockCacheEntry}
      {hash : Hash} {receipt : Receipt} (h : Reached node cache) (he : cache height = some entry)
      (hr : node.getReceipt hash = .ok receipt) :
      Reached node (cache.put height (some { entry with
        receipts := Function.update entry.receipts hash (some receipt) }))
  | evicted {node : Node} {cache : BlockCache} (h : Reached node cache) (height : Int64) :
      Reached node (cache.put height none)
  | grown {node node' : Node} {cache : BlockCache} (h : Reached node cache)
      (hg : node.Grows node') : Reached node' cache

/-! ### What is in the cache -/

/-- An entry has the block of its height, and receipts of the chain. -/
structure BlockCacheEntry.Coherent (node : Node) (height : Int64) (entry : BlockCacheEntry) :
    Prop where
  block : ∃ block, entry.block = some block ∧ node.blockByNumber height = .ok block
  receipts : ∀ {hash receipt}, entry.receipts hash = some receipt →
    node.getReceipt hash = .ok receipt

namespace BlockCacheEntry.Coherent

variable {node : Node} {height : Int64} {entry : BlockCacheEntry}

theorem fillMissingFields (h : entry.Coherent node height) (block : Option ResultBlock)
    (bloom : Bloom) : (fillMissingFields entry block bloom).Coherent node height where
  block := by
    obtain ⟨b, hb, hnode⟩ := h.block
    exact ⟨b, by rw [Rpc.fillMissingFields, hb, Option.some_or], hnode⟩
  receipts := h.receipts

theorem receive (h : entry.Coherent node height) {hash : Hash} {receipt : Receipt}
    (hr : node.getReceipt hash = .ok receipt) :
    Coherent node height { entry with
      receipts := Function.update entry.receipts hash (some receipt) } where
  block := h.block
  receipts {hash' receipt'} hr' := by
    dsimp only at hr'
    by_cases e : hash' = hash
    · subst e
      rw [Function.update_self] at hr'
      cases hr'
      exact hr
    · rw [Function.update_of_ne e] at hr'
      exact h.receipts hr'

end BlockCacheEntry.Coherent

namespace BlockCache

variable {node : Node} {cache : BlockCache} {height : Int64}

/-- What is found after an entry was written. -/
theorem put_cases {o : Option BlockCacheEntry} {k : Int64} {e : BlockCacheEntry}
    (h : cache.put height o k = some e) : (k = height ∧ o = some e) ∨ cache k = some e := by
  by_cases hk : k = height
  · rw [put, hk, Function.update_self] at h
    exact .inl ⟨hk, h⟩
  · rw [put, Function.update_of_ne hk] at h
    exact .inr h

theorem put_coherent {entry : BlockCacheEntry} (h : ∀ k e, cache k = some e → e.Coherent node k)
    (he : entry.Coherent node height) :
    ∀ k e, cache.put height (some entry) k = some e → e.Coherent node k := by
  intro k e hk
  rcases put_cases hk with ⟨rfl, e'⟩ | hk
  · cases e'
    exact he
  · exact h k e hk

/-- **Every entry of a cache that can come about is coherent**; its block is not nil. -/
theorem Reached.coherent (h : Reached node cache) :
    ∀ k e, cache k = some e → e.Coherent node k := by
  induction h with
  | empty =>
    intro k e hk
    cases hk
  | @stored node cache height block _ hb ih =>
    refine put_coherent ih ?_
    unfold loadOrStoreCacheEntry
    split
    · rename_i entry he
      exact (ih height entry he).fillMissingFields _ _
    · exact ⟨⟨block, rfl, hb⟩, fun hr => by cases hr⟩
  | filled _ he _ ih => exact put_coherent ih ((ih _ _ he).fillMissingFields _ _)
  | received _ he hr ih => exact put_coherent ih ((ih _ _ he).receive hr)
  | @evicted node cache _ height ih =>
    intro k e hk
    rcases put_cases hk with ⟨-, e'⟩ | hk
    · cases e'
    · exact ih k e hk
  | grown _ hg ih =>
    intro k e hk
    obtain ⟨⟨block, he, hb⟩, hreceipts⟩ := ih k e hk
    exact ⟨⟨block, he, hg.blocks hb⟩, fun hr => hg.receipts (hreceipts hr)⟩

end BlockCache

/-! ### Queries -/

namespace Node

variable (node : Node) (includeSyntheticReceipts : Bool) (crit : FilterCriteria)

/-- The receipt that `collectLogs` takes for a hash of a block, with the cache it looks in. -/
def collectedVia (cache : BlockCache) (height : Int64) (hash : Hash) : Option Receipt :=
  ((cache.getCachedReceipt height hash).or (node.receipt? hash)).filter fun receipt =>
    includeSyntheticReceipts ||
      !(receipt.txType == shellEVMTxType || receipt.effectiveGasPrice == 0)

/-- One hash of `collectLogs`. -/
def collectStepVia (cache : BlockCache) (height : Int64) (s : Collected) (hash : Hash) :
    Outcome Collected :=
  match node.collectedVia includeSyntheticReceipts cache height hash with
  | none => .ok s
  | some receipt => do
    let logs ← receiptLogs crit (node.filters crit) true receipt s.totalLogs s.evmTxIndex
    return ⟨s.logs ++ logs, s.totalLogs + receipt.logs.length, s.evmTxIndex + 1⟩

/-- `GetLogsForBlockPooled`; `seen` is the cache at each lookup. -/
def getLogsForBlockPooledVia (seen : Nat → BlockCache) (block : ResultBlock) :
    Outcome (List EthLog) := do
  let hashes ← node.getTxHashesFromBlock block includeSyntheticReceipts
  let s ← hashes.zipIdx.foldlM (fun s h =>
    node.collectStepVia includeSyntheticReceipts crit (seen h.2) block.height s h.1) ⟨[], 0, 0⟩
  return s.logs.map fun log => { log with blockHash := block.hash }

/-- One height of `processBatch`: the cache is asked before and after the semaphore is acquired.
What is sent on may be nil. -/
def fetchBlockVia (first second : BlockCache) (height : Int64) :
    Except String (Option (Option ResultBlock)) :=
  if height = 0 then .ok none
  else
    match (first height).or (second height) with
    | some entry => .ok (some entry.block)
    | none => (node.fetchBlock crit height).map (Option.map some)

/-- The logs of a height. -/
def heightLogs (height : Int64) : Fallible (List EthLog) := do
  match ← ofErr (node.fetchBlock crit height) with
  | none => return []
  | some block => ofOutcome (node.getLogsForBlockPooled includeSyntheticReceipts block crit)

def heightLogsVia (first second : BlockCache) (seen : Nat → BlockCache) (height : Int64) :
    Fallible (List EthLog) := do
  match ← ofErr (node.fetchBlockVia crit first second height) with
  | none => return []
  | some none => .error (.panic .nilDereference)
  | some (some block) =>
    ofOutcome (node.getLogsForBlockPooledVia includeSyntheticReceipts crit seen block)

variable {node includeSyntheticReceipts crit}

/-- The receipts of the cache are those of the chain. -/
theorem collectedVia_eq {cache : BlockCache} (hc : cache.Reached node) (height : Int64)
    (hash : Hash) : node.collectedVia includeSyntheticReceipts cache height hash =
      node.collected includeSyntheticReceipts hash := by
  have hreceipt : (cache.getCachedReceipt height hash).or (node.receipt? hash) =
      node.receipt? hash := by
    cases hget : cache.getCachedReceipt height hash with
    | none => exact Option.none_or
    | some receipt =>
      obtain ⟨entry, he, hr⟩ := Option.bind_eq_some_iff.mp hget
      rw [Option.some_or, receipt?_eq_some.mpr ((hc.coherent height entry he).receipts hr)]
  rw [collectedVia, hreceipt, collected]

theorem getLogsForBlockPooledVia_eq {seen : Nat → BlockCache} (hseen : ∀ n, (seen n).Reached node)
    (block : ResultBlock) :
    node.getLogsForBlockPooledVia includeSyntheticReceipts crit seen block =
      node.getLogsForBlockPooled includeSyntheticReceipts block crit := by
  have hstep : ∀ n height s hash,
      node.collectStepVia includeSyntheticReceipts crit (seen n) height s hash =
        node.collectStep includeSyntheticReceipts crit (node.filters crit) true s hash := by
    intro n height s hash
    unfold collectStepVia
    rw [collectedVia_eq (hseen n)]
    rfl
  rw [getLogsForBlockPooledVia, getLogsForBlockPooled, collectLogs]
  cases node.getTxHashesFromBlock block includeSyntheticReceipts with
  | error p => rfl
  | ok hashes =>
    simp only [hstep, Outcome.ok_bind]
    rw [← List.foldlM_map (f := Prod.fst), List.zipIdx_map_fst]
    simp only [bind_assoc, Outcome.pure_eq_ok, Outcome.ok_bind]

/-- A block that the bloom of its height skips has no logs to collect. -/
theorem getLogsForBlockPooled_skipped {height : Int64} {block : ResultBlock} {hashes : List Hash}
    (hheight : height ≠ 0) (hblock : node.blockByNumber height = .ok block)
    (hhashes : node.getTxHashesFromBlock block includeSyntheticReceipts = .ok hashes)
    (hbloom : ∀ hash ∈ hashes, ∀ receipt,
      node.collected includeSyntheticReceipts hash = some receipt →
      ∀ bloom, node.blockBloom height = some bloom → Covers bloom.bytes receipt.logsBloom)
    (hskip : node.fetchBlock crit height = .ok none) :
    node.getLogsForBlockPooled includeSyntheticReceipts block crit = .ok [] := by
  have hnone : (placedLogs (hashes.filterMap (node.collected includeSyntheticReceipts))).filter
      (fun log => isLogExactMatch log.toLog crit) = [] := by
    refine List.filter_eq_nil_iff.mpr fun log hlog hmatch => ?_
    obtain ⟨p, receipt, hp, hat⟩ := mem_placedLogs.mp hlog
    obtain ⟨hash, hmem, hcollected⟩ := List.mem_filterMap.mp (List.mem_of_getElem? hp)
    obtain ⟨log', hlog', ha, ht⟩ := mem_logsAt hat
    rw [isLogExactMatch_congr ha ht] at hmatch
    have hfetched := fetchBlock_eq hheight hblock (collected_eq_some hcollected)
      (hbloom hash hmem receipt hcollected) hlog' hmatch
    cases hskip.symm.trans hfetched
  rw [getLogsForBlockPooled, collectLogs_eq, hhashes]
  simp only [Except.map, hnone, Outcome.ok_bind]
  rfl

end Node

/-- **The cache makes no difference.**  At whatever moments a query looks into the cache, and
whatever other queries and evictions have made of it, the query finds the logs of a height that it
finds without a cache.  For this the bloom of the height has to contain those of the receipts that
are collected, since it is not asked about a block of the cache. -/
theorem heightLogs_cached {node : Node} {includeSyntheticReceipts : Bool} {crit : FilterCriteria}
    {first second : BlockCache} {seen : Nat → BlockCache} {height : Int64}
    (hfirst : first.Reached node) (hsecond : second.Reached node)
    (hseen : ∀ n, (seen n).Reached node)
    (hhashes : ∀ block, node.blockByNumber height = .ok block →
      ∃ hashes, node.getTxHashesFromBlock block includeSyntheticReceipts = .ok hashes ∧
        ∀ hash ∈ hashes, ∀ receipt,
          node.collected includeSyntheticReceipts hash = some receipt →
          ∀ bloom, node.blockBloom height = some bloom → Covers bloom.bytes receipt.logsBloom) :
    node.heightLogsVia includeSyntheticReceipts crit first second seen height =
      node.heightLogs includeSyntheticReceipts crit height := by
  rw [Node.heightLogsVia, Node.fetchBlockVia, Node.heightLogs]
  by_cases hheight : height = 0
  · rw [if_pos hheight, Node.fetchBlock, if_pos hheight]
    rfl
  rw [if_neg hheight]
  cases hlook : (first height).or (second height) with
  | none =>
    cases node.fetchBlock crit height with
    | error err => rfl
    | ok fetched =>
      cases fetched with
      | none => rfl
      | some block => exact congrArg ofOutcome (Node.getLogsForBlockPooledVia_eq hseen block)
  | some entry =>
    have hentry : entry.Coherent node height := by
      rcases Option.or_eq_some_iff.mp hlook with h | ⟨-, h⟩
      · exact hfirst.coherent height entry h
      · exact hsecond.coherent height entry h
    obtain ⟨block, he, hblock⟩ := hentry.block
    obtain ⟨hashes, hok, hbloom⟩ := hhashes block hblock
    have hvia : node.getLogsForBlockPooledVia includeSyntheticReceipts crit seen block =
        node.getLogsForBlockPooled includeSyntheticReceipts block crit :=
      Node.getLogsForBlockPooledVia_eq hseen block
    -- without the cache the block is fetched, or its bloom shows that it has no logs to find
    cases hfetch : node.fetchBlock crit height with
    | error err =>
      rw [Node.fetchBlock, if_neg hheight, hblock] at hfetch
      split at hfetch <;> cases hfetch
    | ok fetched =>
      simp only [he]
      cases fetched with
      | none =>
        have hempty := Node.getLogsForBlockPooled_skipped hheight hblock hok hbloom hfetch
        exact congrArg ofOutcome (hvia.trans hempty)
      | some fetched =>
        have hsame := Node.fetchBlock_eq_some hfetch
        rw [hblock] at hsame
        cases hsame
        exact congrArg ofOutcome hvia

/-- The first of two blocks is in the cache before and after the semaphore; later it is evicted. -/
theorem heightLogs_cached_retried : ∃ c : Chain AccAddress ℤ, ∃ cache : BlockCache,
    cache.Reached c.node ∧ (∃ entry, cache 1 = some entry) ∧
    c.node.heightLogsVia false (between 1 2) cache cache (fun _ => cache.put 1 none) 1 =
      c.node.heightLogs false (between 1 2) 1 := by
  obtain ⟨c, h⟩ := exists_retried
  have hcache := (BlockCache.Reached.empty c.node).stored h.first
  refine ⟨c, _, hcache, ⟨_, Function.update_self ..⟩,
    heightLogs_cached hcache hcache (fun _ => hcache.evicted 1) fun block hblock => ?_⟩
  cases h.first.symm.trans hblock
  refine ⟨_, Node.getTxHashesFromBlock_eq h.mixed_first, fun hash _ receipt _ bloom hbloom => ?_⟩
  rw [h.surroundings] at hbloom
  cases hbloom

end Tabi.Rpc
