import Mathlib.Data.List.Induction
import Mathlib.Data.List.Nodup
import Tabi.Rpc.Filters
import Tabi.Support.Heap

/-!
# Rpc — merging the logs of batches

The workers of `GetLogsByFilters` deliver the sorted logs of their batches in any order, and
`mergeSortedLogs` merges them (`evmrpc/filter.go`): a heap holds the next log of every batch that is
not yet exhausted, with its batch and its place there.
-/

namespace Tabi.Rpc

open Support

/-- `kWayMergeItem`: a log, its batch and its index within that. -/
structure KWayMergeItem where
  log : EthLog
  batchIdx : Nat
  itemIdx : Nat

def logMergeLess (x y : KWayMergeItem) : Bool :=
  if x.log.blockNumber ≠ y.log.blockNumber then decide (x.log.blockNumber < y.log.blockNumber)
  else decide (x.log.index < y.log.index)

def firstItems (batches : List (List EthLog)) : Array KWayMergeItem :=
  batches.zipIdx.foldl (fun h entry =>
    match entry with
    | ([], _) => h
    | (log :: _, i) => Heap.push logMergeLess h { log, batchIdx := i, itemIdx := 0 }) #[]

def pushNext (batches : List (List EthLog)) (item : KWayMergeItem) (h : Array KWayMergeItem) :
    Array KWayMergeItem :=
  match (batches[item.batchIdx]?.getD [])[item.itemIdx + 1]? with
  | some log =>
    Heap.push logMergeLess h { log, batchIdx := item.batchIdx, itemIdx := item.itemIdx + 1 }
  | none => h

def mergeLoop (batches : List (List EthLog)) : Nat → Array KWayMergeItem → List EthLog
  | 0, _ => []
  | n + 1, h =>
    match Heap.pop logMergeLess h with
    | none => []
    | some (item, h) => item.log :: mergeLoop batches n (pushNext batches item h)

def mergeSortedLogs (batches : List (List EthLog)) : List EthLog :=
  let totalSize := (batches.map List.length).sum
  if totalSize = 0 then [] else mergeLoop batches totalSize (firstItems batches)

theorem logMergeLess_eq_false {x y : KWayMergeItem} :
    logMergeLess y x = false ↔ LogLe x.log y.log := by
  unfold logMergeLess LogLe
  by_cases e : x.log.blockNumber = y.log.blockNumber
  · simp [e]
  · simp only [if_neg e, ne_eq, Ne.symm e, not_false_eq_true, if_true, decide_eq_false_iff_not,
      UInt64.not_lt]
    exact ⟨fun hle => UInt64.lt_of_le_of_ne hle e, UInt64.le_of_lt⟩

theorem logMergeLess_strictWeak : StrictWeak logMergeLess where
  asymm x y h := by
    refine logMergeLess_eq_false.mpr ((LogLe.total x.log y.log).resolve_right fun hle => ?_)
    rw [logMergeLess_eq_false.mpr hle] at h
    cases h
  trans x y z hxy hyz := logMergeLess_eq_false.mpr
    (LogLe.trans _ _ _ (logMergeLess_eq_false.mp hxy) (logMergeLess_eq_false.mp hyz))

structure NextItems (batches left : List (List EthLog)) (h : Array KWayMergeItem) : Prop where
  ordered : Heap.Ordered logMergeLess h h.size
  next : ∀ item ∈ h.toList, ∃ batch, batches[item.batchIdx]? = some batch ∧
    left[item.batchIdx]? = some (item.log :: batch.drop (item.itemIdx + 1))
  once : (h.toList.map KWayMergeItem.batchIdx).Nodup

def HoldsFirst (left : List (List EthLog)) (h : Array KWayMergeItem) (i : Nat) : Prop :=
  ∀ log rest, left[i]? = some (log :: rest) → ∃ item ∈ h.toList, item.batchIdx = i

variable {batches left : List (List EthLog)} {h : Array KWayMergeItem}

theorem NextItems.push (c : NextItems batches left h) {item : KWayMergeItem} {batch : List EthLog}
    (hnew : ∀ item' ∈ h.toList, item'.batchIdx ≠ item.batchIdx)
    (hbatch : batches[item.batchIdx]? = some batch)
    (hleft : left[item.batchIdx]? = some (item.log :: batch.drop (item.itemIdx + 1))) :
    NextItems batches left (Heap.push logMergeLess h item) := by
  have hperm := @Heap.push_perm _ logMergeLess h item
  refine ⟨Heap.push_ordered logMergeLess_strictWeak c.ordered item, ?_, ?_⟩
  · intro item' hitem
    rcases List.mem_cons.mp (hperm.mem_iff.mp hitem) with rfl | hitem
    · exact ⟨batch, hbatch, hleft⟩
    · exact c.next item' hitem
  · refine (hperm.map _).nodup_iff.mpr (List.nodup_cons.mpr ⟨?_, c.once⟩)
    intro hmem
    obtain ⟨item', hitem, e⟩ := List.mem_map.mp hmem
    exact hnew item' hitem e

theorem HoldsFirst.push {i : Nat} (hi : HoldsFirst left h i) (item : KWayMergeItem) :
    HoldsFirst left (Heap.push logMergeLess h item) i := by
  intro log rest hleft
  obtain ⟨item', hitem, e⟩ := hi log rest hleft
  exact ⟨item', (Heap.push_perm h item).mem_iff.mpr (List.mem_cons_of_mem _ hitem), e⟩

theorem holdsFirst_push (item : KWayMergeItem) :
    HoldsFirst left (Heap.push logMergeLess h item) item.batchIdx :=
  fun _ _ _ => ⟨item, (Heap.push_perm h item).mem_iff.mpr List.mem_cons_self, rfl⟩

theorem firstItems_concat (batches : List (List EthLog)) (batch : List EthLog) :
    firstItems (batches ++ [batch]) =
      match batch with
      | [] => firstItems batches
      | log :: _ => Heap.push logMergeLess (firstItems batches)
          { log, batchIdx := batches.length, itemIdx := 0 } := by
  rw [firstItems, List.zipIdx_append, List.foldl_append]
  cases batch with
  | nil => rfl
  | cons log rest => simp [firstItems]

theorem NextItems.concat (c : NextItems batches batches h) (batch : List EthLog) :
    NextItems (batches ++ [batch]) (batches ++ [batch]) h := by
  refine ⟨c.ordered, ?_, c.once⟩
  intro item hitem
  obtain ⟨b, hb, hleft⟩ := c.next item hitem
  have hlt : item.batchIdx < batches.length := (List.getElem?_eq_some_iff.mp hb).1
  rw [List.getElem?_append_left hlt]
  exact ⟨b, hb, hleft⟩

theorem firstItems_spec (batches : List (List EthLog)) :
    NextItems batches batches (firstItems batches) ∧
      ∀ i, HoldsFirst batches (firstItems batches) i := by
  induction batches using List.reverseRecOn with
  | nil =>
    refine ⟨⟨fun k _ hk => absurd hk (Nat.not_lt_zero k), ?_, List.nodup_nil⟩, ?_⟩
    · intro item hitem
      cases hitem
    · intro i log rest hi
      cases hi
  | append_singleton batches batch ih =>
    obtain ⟨hnext, hfirst⟩ := ih
    have hlt : ∀ item ∈ (firstItems batches).toList, item.batchIdx < batches.length := by
      intro item hitem
      obtain ⟨b, hb, -⟩ := hnext.next item hitem
      exact (List.getElem?_eq_some_iff.mp hb).1
    have hold : ∀ i, i ≠ batches.length →
        HoldsFirst (batches ++ [batch]) (firstItems batches) i := by
      intro i hi log rest hleft
      refine hfirst i log rest ?_
      rcases Nat.lt_or_gt_of_ne hi with hlt | hgt
      · rwa [List.getElem?_append_left hlt] at hleft
      · rw [List.getElem?_eq_none (by rw [List.length_append]; exact hgt)] at hleft
        cases hleft
    rw [firstItems_concat]
    cases batch with
    | nil =>
      refine ⟨hnext.concat [], fun i => ?_⟩
      by_cases e : i = batches.length
      · intro log rest hleft
        simp [e] at hleft
      · exact hold i e
    | cons log rest =>
      have hlast : (batches ++ [log :: rest])[batches.length]? = some (log :: rest) := by simp
      refine ⟨(hnext.concat _).push ?_ hlast hlast, fun i => ?_⟩
      · exact fun item hitem => Nat.ne_of_lt (hlt item hitem)
      · by_cases e : i = batches.length
        · rw [e]
          exact holdsFirst_push _
        · exact (hold i e).push _

theorem NextItems.step {item : KWayMergeItem} {h' : Array KWayMergeItem} {batch : List EthLog}
    (c : NextItems batches left h) (hfirst : ∀ i, HoldsFirst left h i)
    (hperm : (item :: h'.toList).Perm h.toList) (hordered : Heap.Ordered logMergeLess h' h'.size)
    (hbatch : batches[item.batchIdx]? = some batch)
    (hleft : left[item.batchIdx]? = some (item.log :: batch.drop (item.itemIdx + 1))) :
    NextItems batches (left.set item.batchIdx (batch.drop (item.itemIdx + 1)))
        (pushNext batches item h') ∧
      ∀ i, HoldsFirst (left.set item.batchIdx (batch.drop (item.itemIdx + 1)))
        (pushNext batches item h') i := by
  have honce := (hperm.map KWayMergeItem.batchIdx).nodup_iff.mpr c.once
  rw [List.map_cons, List.nodup_cons] at honce
  have hne : ∀ item' ∈ h'.toList, item'.batchIdx ≠ item.batchIdx :=
    fun item' hitem e => honce.1 (List.mem_map.mpr ⟨item', hitem, e⟩)
  have hlt : item.batchIdx < left.length := (List.getElem?_eq_some_iff.mp hleft).1
  -- without the item the heap still holds the next logs of the other batches
  have hothers : NextItems batches (left.set item.batchIdx (batch.drop (item.itemIdx + 1))) h' := by
    refine ⟨hordered, fun item' hitem => ?_, honce.2⟩
    rw [List.getElem?_set_ne (hne item' hitem).symm]
    exact c.next item' (hperm.mem_iff.mp (List.mem_cons_of_mem _ hitem))
  have hhold : ∀ i, i ≠ item.batchIdx →
      HoldsFirst (left.set item.batchIdx (batch.drop (item.itemIdx + 1))) h' i := by
    intro i hi log rest hset
    rw [List.getElem?_set_ne hi.symm] at hset
    obtain ⟨item', hitem, e⟩ := hfirst i log rest hset
    rcases List.mem_cons.mp (hperm.mem_iff.mpr hitem) with rfl | hitem
    · exact absurd e.symm hi
    · exact ⟨item', hitem, e⟩
  have hget : (left.set item.batchIdx (batch.drop (item.itemIdx + 1)))[item.batchIdx]? =
      some (batch.drop (item.itemIdx + 1)) := List.getElem?_set_self hlt
  rw [pushNext, hbatch, Option.getD_some]
  cases hlog : batch[item.itemIdx + 1]? with
  | none =>
    have hnil : batch.drop (item.itemIdx + 1) = [] :=
      List.drop_eq_nil_of_le (List.getElem?_eq_none_iff.mp hlog)
    refine ⟨hothers, fun i => ?_⟩
    by_cases e : i = item.batchIdx
    · intro log rest hset
      rw [e, hget, hnil] at hset
      cases hset
    · exact hhold i e
  | some log =>
    obtain ⟨hsize, rfl⟩ := List.getElem?_eq_some_iff.mp hlog
    refine ⟨hothers.push hne hbatch (hget.trans ?_), fun i => ?_⟩
    · rw [List.drop_eq_getElem_cons hsize]
    · by_cases e : i = item.batchIdx
      · rw [e]
        exact holdsFirst_push _
      · exact (hhold i e).push _

theorem mergeLoop_merges {n : Nat} (hn : left.flatten.length ≤ n) (c : NextItems batches left h)
    (hfirst : ∀ i, HoldsFirst left h i) : Merges LogLe left (mergeLoop batches n h) := by
  induction n generalizing left h with
  | zero =>
    refine .done (List.flatten_eq_nil_iff.mp ?_)
    exact List.eq_nil_of_length_eq_zero (Nat.le_zero.mp hn)
  | succ n ih =>
    rw [mergeLoop]
    rcases Nat.eq_zero_or_pos h.size with hempty | hpos
    · rw [Heap.pop_empty hempty]
      refine .done fun b hb => ?_
      obtain ⟨i, hi⟩ := List.mem_iff_getElem?.mp hb
      cases b with
      | nil => rfl
      | cons log rest =>
        obtain ⟨item, hitem, -⟩ := hfirst i log rest hi
        rw [Array.eq_empty_of_size_eq_zero hempty] at hitem
        cases hitem
    · obtain ⟨item, h', hpop, hperm, hordered, hleast⟩ :=
        Heap.pop_spec logMergeLess_strictWeak c.ordered hpos
      obtain ⟨batch, hbatch, hleft⟩ := c.next item (hperm.mem_iff.mp List.mem_cons_self)
      obtain ⟨hnext, hhold⟩ := c.step hfirst hperm hordered hbatch hleft
      rw [hpop]
      refine .take hleft ?_ (ih ?_ hnext hhold)
      · intro b hb log hlog
        obtain ⟨i, hi⟩ := List.mem_iff_getElem?.mp hb
        cases b with
        | nil => cases hlog
        | cons log' rest =>
          cases hlog
          obtain ⟨item', hitem, rfl⟩ := hfirst i _ rest hi
          obtain ⟨_, -, hleft'⟩ := c.next item' hitem
          cases (hi.symm.trans hleft')
          exact logMergeLess_eq_false.mp (hleast item' hitem)
      · have hlen := (perm_flatten_set hleft).length_eq
        rw [List.length_cons] at hlen
        omega

theorem mergeSortedLogs_merges (batches : List (List EthLog)) :
    Merges LogLe batches (mergeSortedLogs batches) := by
  obtain ⟨hnext, hfirst⟩ := firstItems_spec batches
  simp only [mergeSortedLogs, ← List.length_flatten]
  split
  · rename_i hzero
    exact .done (List.flatten_eq_nil_iff.mp (List.eq_nil_of_length_eq_zero hzero))
  · exact mergeLoop_merges (Nat.le_refl _) hnext hfirst

def Delivered (logsOf : ResultBlock → List EthLog) (blocks : List ResultBlock)
    (batches : List (List EthLog)) : Prop :=
  ∃ parts : List (List ResultBlock), parts.flatten.Perm blocks ∧
    List.Forall₂ (fun part batch => batch.Perm (part.flatMap logsOf) ∧ batch.Pairwise LogLe)
      parts batches

def EthLog.place (log : EthLog) : UInt64 × Nat := (log.blockNumber, log.index)

theorem LogLe.place_eq {x y : EthLog} (hxy : LogLe x y) (hyx : LogLe y x) : x.place = y.place := by
  unfold LogLe at hxy hyx
  by_cases e : x.blockNumber = y.blockNumber
  · rw [if_pos e] at hxy
    rw [if_pos e.symm] at hyx
    exact Prod.ext e (Nat.le_antisymm hxy hyx)
  · rw [if_neg e] at hxy
    rw [if_neg (Ne.symm e)] at hyx
    exact absurd hyx (UInt64.lt_asymm hxy)

variable {logsOf : ResultBlock → List EthLog} {blocks : List ResultBlock}

theorem Delivered.sorted (d : Delivered logsOf blocks batches) :
    ∀ batch ∈ batches, batch.Pairwise LogLe := by
  obtain ⟨parts, -, hparts⟩ := d
  induction hparts with
  | nil => exact List.forall_mem_nil _
  | cons hpart _ ih => exact List.forall_mem_cons.mpr ⟨hpart.2, ih⟩

theorem Delivered.perm (d : Delivered logsOf blocks batches) :
    batches.flatten.Perm (blocks.flatMap logsOf) := by
  obtain ⟨parts, hblocks, hparts⟩ := d
  refine .trans ?_ (hblocks.flatMap_right logsOf)
  clear hblocks
  induction hparts with
  | nil => exact .refl _
  | cons hpart _ ih =>
    rw [List.flatten_cons, List.flatten_cons, List.flatMap_append]
    exact hpart.1.append ih

theorem merges_unique {batches' : List (List EthLog)} {logs logs' : List EthLog}
    (hm : Merges LogLe batches logs) (hm' : Merges LogLe batches' logs')
    (hsorted : ∀ batch ∈ batches, batch.Pairwise LogLe)
    (hsorted' : ∀ batch ∈ batches', batch.Pairwise LogLe)
    (hperm : batches'.flatten.Perm batches.flatten)
    (hplace : (batches.flatten.map EthLog.place).Nodup) : logs' = logs := by
  have hlogs : logs'.Perm logs := (hm'.perm.trans hperm).trans hm.perm.symm
  refine hlogs.eq_of_pairwise ?_ (hm'.sorted LogLe.trans hsorted') (hm.sorted LogLe.trans hsorted)
  intro x y hx hy hxy hyx
  refine List.inj_on_of_nodup_map hplace ?_ (hm.perm.mem_iff.mp hy) (hxy.place_eq hyx)
  exact hm.perm.mem_iff.mp (hlogs.mem_iff.mp hx)

/-- **Parallel assembly**: however the blocks were divided and their batches delivered, the merge
returns the logs of the batches, sorted; and where each log has its own place, always the same
list. -/
theorem mergeSortedLogs_assembles (d : Delivered logsOf blocks batches) :
    (mergeSortedLogs batches).Pairwise LogLe ∧
      (mergeSortedLogs batches).Perm batches.flatten ∧
      ((batches.flatten.map EthLog.place).Nodup → ∀ batches', Delivered logsOf blocks batches' →
        mergeSortedLogs batches' = mergeSortedLogs batches) := by
  have hm := mergeSortedLogs_merges batches
  refine ⟨hm.sorted LogLe.trans d.sorted, hm.perm, fun hplace batches' d' => ?_⟩
  exact merges_unique hm (mergeSortedLogs_merges batches') d.sorted d'.sorted
    (d'.perm.trans d.perm.symm) hplace

def logAt (blockNumber : UInt64) (index : Nat) : EthLog :=
  { address := .zero 20, topics := [], data := [], index, blockNumber, txHash := emptyHash,
    txIndex := 0 }

def twoLogs (block : ResultBlock) : List EthLog :=
  [logAt block.height.toUInt64 0, logAt block.height.toUInt64 1]

theorem delivered_reversed : Delivered twoLogs [firstResult, secondResult]
    [[logAt 2 0, logAt 2 1], [logAt 1 0, logAt 1 1]] :=
  ⟨[[secondResult], [firstResult]], .swap _ _ _,
    .cons ⟨.refl _, by decide⟩ (.cons ⟨.refl _, by decide⟩ .nil)⟩

theorem delivered_together : Delivered twoLogs [firstResult, secondResult]
    [[logAt 1 0, logAt 1 1, logAt 2 0, logAt 2 1]] :=
  ⟨[[firstResult, secondResult]], .refl _, .cons ⟨.refl _, by decide⟩ .nil⟩

theorem mergeSortedLogs_assembles_reversed :
    (mergeSortedLogs [[logAt 2 0, logAt 2 1], [logAt 1 0, logAt 1 1]]).Pairwise LogLe ∧
      mergeSortedLogs [[logAt 1 0, logAt 1 1, logAt 2 0, logAt 2 1]] =
        mergeSortedLogs [[logAt 2 0, logAt 2 1], [logAt 1 0, logAt 1 1]] := by
  obtain ⟨hsorted, -, hsame⟩ := mergeSortedLogs_assembles delivered_reversed
  exact ⟨hsorted, hsame (by decide) _ delivered_together⟩

namespace LogFetcher

variable {f : LogFetcher} {node : Node} {crit : FilterCriteria}

theorem delivered_batches (hok : ∀ batch ∈ f.batches blocks, (f.batchLogs node crit batch).isSome) :
    Delivered (f.matchingLogs node crit) blocks ((f.batches blocks).filterMap fun batch =>
      (f.batchLogs node crit batch).map f.workers.sort) := by
  refine ⟨f.batches blocks, ?_, ?_⟩
  · rw [batches, flatten_batched]
    exact f.workers.arrive_perm blocks
  · generalize f.batches blocks = parts at hok ⊢
    induction parts with
    | nil => exact .nil
    | cons batch parts ih =>
      obtain ⟨logs, hlogs⟩ := Option.isSome_iff_exists.mp (hok batch List.mem_cons_self)
      rw [List.filterMap_cons_some (by rw [hlogs, Option.map_some])]
      refine .cons ⟨?_, f.workers.sort_sorted logs⟩
        (ih fun b hb => hok b (List.mem_cons_of_mem batch hb))
      rw [← batchLogs_eq_some hlogs]
      exact f.workers.sort_perm logs

theorem mergedLogs_eq_mergeSortedLogs
    (hok : ∀ batch ∈ f.batches blocks, (f.batchLogs node crit batch).isSome)
    (hplace : ((blocks.flatMap (f.matchingLogs node crit)).map EthLog.place).Nodup)
    (d : Delivered (f.matchingLogs node crit) blocks batches) :
    f.mergedLogs node crit blocks = mergeSortedLogs batches := by
  have hbatches := delivered_batches hok
  refine merges_unique (mergeSortedLogs_merges batches) (f.workers.merges _) d.sorted
    hbatches.sorted (hbatches.perm.trans d.perm.symm) ?_
  exact (d.perm.map EthLog.place).nodup_iff.mpr hplace

theorem bind_congr_ok {α β : Type} {x : Fallible α} {g g' : α → Fallible β}
    (h : ∀ a, x = .ok a → g a = g' a) : (x >>= g) = x >>= g' := by
  cases x with
  | error e => rfl
  | ok a => exact h a rfl

/-- A batch of blocks without a panic is collected. -/
theorem batchLogs_isSome (hok : ∀ block ∈ blocks, ∃ logs,
      node.getLogsForBlockPooled f.includeSyntheticReceipts block crit = .ok logs) :
    ∀ batch ∈ f.batches blocks, (f.batchLogs node crit batch).isSome := by
  intro batch hbatch
  have hall : (batch.mapM fun block => node.getLogsForBlockPooled f.includeSyntheticReceipts block
      crit) = .ok (batch.map (f.matchingLogs node crit)) := by
    refine mapM_eq_ok fun block hblock => ?_
    have hmem : block ∈ (f.batches blocks).flatten := List.mem_flatten.mpr ⟨batch, hbatch, hblock⟩
    rw [batches, flatten_batched] at hmem
    obtain ⟨logs, hlogs⟩ := hok block ((f.workers.arrive_perm blocks).mem_iff.mp hmem)
    rw [matchingLogs, hlogs]
    rfl
  rw [batchLogs, hall]
  rfl

end LogFetcher

/-- The blocks are taken the other way round. -/
def backwards : Workers :=
  { inOrder with arrive := List.reverse, arrive_perm := List.reverse_perm }

end Tabi.Rpc
