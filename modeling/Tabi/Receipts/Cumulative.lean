import Tabi.Receipts.Immutable
import Tabi.Support.Running
import Tabi.Support.Tally

/-!
# Receipts — cumulative gas

`FlushTransientReceipts` (`x/evm/keeper/receipt.go`) as it computes: the receipts are read into
records, the slice and the slices of the blocks share the records through pointers, each block's
slice is sorted by index and a running total is written into its records, and the slice is sorted by
hash.
-/

namespace Tabi.Receipts

open Support StateDB Synthetic

/-! ### The code -/

/-- `receiptWithKey`.  The receipt is a pointer: the number of its record. -/
structure ReceiptWithKey where
  txHash : Hash
  receipt : ℕ

def StrictWeak {α : Type} (less : α → α → Bool) : Prop :=
  (∀ x y, less x y = true → less y x = false) ∧
    ∀ x y z, less x z = true → less x y = true ∨ less y z = true

structure FlushOrder where
  sort : (ReceiptWithKey → ReceiptWithKey → Bool) → List ReceiptWithKey → List ReceiptWithKey
  sort_perm : ∀ less l, (sort less l).Perm l
  sorted : ∀ less l, StrictWeak less → (sort less l).Pairwise fun x y => less y x = false
  visit : List UInt64 → List UInt64
  visit_perm : ∀ l, (visit l).Perm l

def withKeys (receipts : List (Hash × Receipt)) : List ReceiptWithKey :=
  receipts.zipIdx.map fun e => ⟨e.1.1, e.2⟩

def recordsOf (receipts : List (Hash × Receipt)) (i : ℕ) : Receipt :=
  (receipts[i]?.map Prod.snd).getD { txHash := default }

/-- `cumGas`, with a receipt added; what was executed for free does not count. -/
def addGas (cumGas : UInt64) (r : Receipt) : UInt64 :=
  if 0 < r.effectiveGasPrice then cumGas + r.gasUsed else cumGas

def withGas (r : Receipt) (cumGas : UInt64) : Receipt := { r with cumulativeGasUsed := cumGas }

variable (o : FlushOrder)

def fillBlock (recs : List ReceiptWithKey) (records : ℕ → Receipt) : ℕ → Receipt :=
  let recs := o.sort (fun x y => (records x.receipt).transactionIndex <
    (records y.receipt).transactionIndex) recs
  running addGas withGas 0 (recs.map ReceiptWithKey.receipt) records

def fillBlocks (receipts : List ReceiptWithKey) (records : ℕ → Receipt) : ℕ → Receipt :=
  let blockNumber (r : ReceiptWithKey) := (records r.receipt).blockNumber
  let blockReceipts := grouped blockNumber receipts
  (o.visit (receipts.map blockNumber).dedup).foldl
    (fun records b => fillBlock o (blockReceipts b) records) records

def flushed (receipts : List (Hash × Receipt)) : List (Hash × Receipt) :=
  let records := fillBlocks o (withKeys receipts) (recordsOf receipts)
  (o.sort (fun x y => x.txHash.bytes < y.txHash.bytes) (withKeys receipts)).map
    fun r => (r.txHash, records r.receipt)

/-- The pairs `FlushTransientReceipts` applies to the receipt store; `none` is an error.  Without
receipts nothing is applied. -/
def flushPairs (cdc : Codec) (t : Transient) : Option (List (Hash × Bytes)) := do
  let receipts ← transientReceipts cdc t
  (flushed o receipts).mapM fun e => (cdc.marshalReceipt e.2).map fun bz => (e.1, bz)

/-! ### What it should compute -/

def gasUpTo (rs : List Receipt) (r : Receipt) : ℕ :=
  ((rs.filter fun r' => r'.blockNumber = r.blockNumber ∧ 0 < r'.effectiveGasPrice ∧
    r'.transactionIndex ≤ r.transactionIndex).map fun r' => r'.gasUsed.toNat).sum

def filled (receipts : List (Hash × Receipt)) (e : Hash × Receipt) : Hash × Receipt :=
  (e.1, withGas e.2 (.ofNat (gasUpTo (receipts.map Prod.snd) e.2)))

def DistinctIndexes (receipts : List (Hash × Receipt)) : Prop :=
  receipts.Pairwise fun e e' =>
    e.2.blockNumber = e'.2.blockNumber → e.2.transactionIndex ≠ e'.2.transactionIndex

instance (receipts : List (Hash × Receipt)) : Decidable (DistinctIndexes receipts) :=
  inferInstanceAs (Decidable (List.Pairwise _ _))

variable {o : FlushOrder}

/-! ### The running total -/

def countedGas (r : Receipt) : ℕ := if 0 < r.effectiveGasPrice then r.gasUsed.toNat else 0

theorem toNat_addGas (cumGas : UInt64) (r : Receipt) :
    addGas cumGas r = UInt64.ofNat (cumGas.toNat + countedGas r) := by
  unfold addGas countedGas
  split
  · rw [UInt64.ofNat_add, UInt64.ofNat_toNat, UInt64.ofNat_toNat]
  · rw [Nat.add_zero, UInt64.ofNat_toNat]

theorem foldl_addGas (rs : List Receipt) (n : ℕ) :
    rs.foldl addGas (UInt64.ofNat n) = UInt64.ofNat (n + (rs.map countedGas).sum) := by
  induction rs generalizing n with
  | nil => rw [List.map_nil, List.sum_nil, Nat.add_zero, List.foldl_nil]
  | cons r rs ih =>
    have hstep : addGas (UInt64.ofNat n) r = UInt64.ofNat (n + countedGas r) := by
      rw [toNat_addGas, UInt64.ofNat_add, UInt64.ofNat_toNat, ← UInt64.ofNat_add]
    rw [List.foldl_cons, hstep, ih, List.map_cons, List.sum_cons, Nat.add_assoc]

theorem gasUpTo_eq (rs : List Receipt) (r : Receipt) :
    gasUpTo rs r = (((rs.filter fun r' => r'.blockNumber = r.blockNumber).filter fun r' =>
      r'.transactionIndex.toNat ≤ r.transactionIndex.toNat).map countedGas).sum := by
  have hcounted : countedGas = fun r' : Receipt =>
      if decide (0 < r'.effectiveGasPrice) = true then r'.gasUsed.toNat else 0 := by
    funext r'
    simp only [countedGas, decide_eq_true_eq]
  rw [hcounted, ← sum_filter, List.filter_filter, List.filter_filter, gasUpTo]
  refine congrArg (fun l : List Receipt => (l.map fun r' => r'.gasUsed.toNat).sum)
    (List.filter_congr fun r' _ => ?_)
  simp only [← Bool.decide_and, UInt32.le_iff_toNat_le]
  exact decide_eq_decide.mpr (by tauto)

/-! ### One block -/

theorem strictWeak_of_key {α κ : Type} [LinearOrder κ] [DecidableLT κ] (key : α → κ) :
    StrictWeak fun x y => decide (key x < key y) := by
  simp only [StrictWeak, decide_eq_true_eq, decide_eq_false_iff_not]
  exact ⟨fun _ _ h => not_lt.mpr h.le, fun x y _ h =>
    (lt_or_ge (key x) (key y)).imp_right fun hle => hle.trans_lt h⟩

theorem FlushOrder.sort_strict {κ : Type} [LinearOrder κ] [DecidableLT κ] (key : ReceiptWithKey → κ)
    {recs : List ReceiptWithKey} (hkeys : recs.Pairwise fun x y => key x ≠ key y) :
    (o.sort (fun x y => key x < key y) recs).Pairwise fun x y => key x < key y := by
  have hne := (o.sort_perm (fun x y => key x < key y) recs).symm.pairwise hkeys fun h => h.symm
  refine ((o.sorted _ recs (strictWeak_of_key key)).and hne).imp fun h => ?_
  exact lt_of_le_of_ne (not_lt.mp (of_decide_eq_false h.1)) h.2

theorem fillBlock_of_mem {recs : List ReceiptWithKey} {records : ℕ → Receipt}
    (hnodup : (recs.map ReceiptWithKey.receipt).Nodup)
    (hindex : recs.Pairwise fun x y =>
      (records x.receipt).transactionIndex ≠ (records y.receipt).transactionIndex)
    {a : ReceiptWithKey} (ha : a ∈ recs) :
    fillBlock o recs records a.receipt = withGas (records a.receipt) (.ofNat
      (((recs.map fun r => records r.receipt).filter fun r =>
        r.transactionIndex.toNat ≤ (records a.receipt).transactionIndex.toNat).map
          countedGas).sum) := by
  have hless : (fun x y : ReceiptWithKey => decide ((records x.receipt).transactionIndex <
      (records y.receipt).transactionIndex)) = fun x y =>
        decide ((records x.receipt).transactionIndex.toNat <
          (records y.receipt).transactionIndex.toNat) := by
    funext x y
    simp only [UInt32.lt_iff_toNat_lt]
  have hstrict := o.sort_strict (fun r => (records r.receipt).transactionIndex.toNat)
    (hindex.imp fun h e => h (UInt32.toNat_inj.mp e))
  have hperm := o.sort_perm (fun x y => decide ((records x.receipt).transactionIndex.toNat <
    (records y.receipt).transactionIndex.toNat)) recs
  rw [fillBlock, hless]
  generalize o.sort _ recs = sorted at hstrict hperm
  obtain ⟨before, after, rfl⟩ := List.append_of_mem (hperm.mem_iff.mpr ha)
  have hupTo := filter_le_of_sorted _ hstrict
  have hnodup := (hperm.map ReceiptWithKey.receipt).nodup_iff.mpr hnodup
  rw [List.map_append, List.map_cons] at hnodup ⊢
  rw [running_of_append hnodup, ← List.map_singleton, ← List.map_append, ← hupTo, List.foldl_map,
    ← List.foldl_map (f := fun r : ReceiptWithKey => records r.receipt) (g := addGas),
    List.filter_map]
  refine congrArg _ ((foldl_addGas _ 0).trans (congrArg _ ?_))
  rw [Nat.zero_add]
  exact (((hperm.filter _).map _).map _).sum_eq

/-! ### All blocks -/

section Blocks

variable {receipts : List (Hash × Receipt)}

theorem recordsOf_of_getElem? {i : ℕ} {e : Hash × Receipt} (hi : receipts[i]? = some e) :
    recordsOf receipts i = e.2 := by
  rw [recordsOf, hi]
  rfl

theorem mem_withKeys {r : ReceiptWithKey} :
    r ∈ withKeys receipts ↔ ∃ e, receipts[r.receipt]? = some e ∧ e.1 = r.txHash := by
  obtain ⟨txHash, i⟩ := r
  simp only [withKeys, List.mem_map, List.mem_zipIdx_iff_getElem?, Prod.exists,
    ReceiptWithKey.mk.injEq]
  constructor
  · rintro ⟨h, r, i, hi, rfl, rfl⟩
    exact ⟨h, r, hi, rfl⟩
  · rintro ⟨h, r, hi, rfl⟩
    exact ⟨h, r, i, hi, rfl, rfl⟩

theorem map_withKeys :
    ((withKeys receipts).map fun r => recordsOf receipts r.receipt) = receipts.map Prod.snd := by
  rw [withKeys, List.map_map, map_eq_map_zipIdx Prod.snd]
  refine List.map_congr_left fun e he => ?_
  exact recordsOf_of_getElem? (List.mem_zipIdx_iff_getElem?.mp he)

theorem withKeys_nodup : ((withKeys receipts).map ReceiptWithKey.receipt).Nodup := by
  rw [withKeys, List.map_map]
  exact (List.zipIdx_map_snd 0 receipts).symm ▸ List.nodup_range'

theorem block_withKeys (b : UInt64) :
    (((withKeys receipts).filter fun r => (recordsOf receipts r.receipt).blockNumber = b).map
      fun r => recordsOf receipts r.receipt) =
        (receipts.map Prod.snd).filter fun r => r.blockNumber = b := by
  rw [← map_withKeys, List.filter_map]
  rfl

theorem DistinctIndexes.withKeys (h : DistinctIndexes receipts) :
    (withKeys receipts).Pairwise fun x y =>
      (recordsOf receipts x.receipt).blockNumber = (recordsOf receipts y.receipt).blockNumber →
        (recordsOf receipts x.receipt).transactionIndex ≠
          (recordsOf receipts y.receipt).transactionIndex := by
  have hsnd : (receipts.map Prod.snd).Pairwise fun r r' =>
      r.blockNumber = r'.blockNumber → r.transactionIndex ≠ r'.transactionIndex :=
    List.pairwise_map.mpr h
  rw [← map_withKeys] at hsnd
  exact List.pairwise_map.mp hsnd

theorem fillBlock_frame (o : FlushOrder) (receipts : List (Hash × Receipt)) (records : ℕ → Receipt)
    (b : UInt64) (q : ℕ) (hq : (recordsOf receipts q).blockNumber ≠ b) :
    fillBlock o (grouped (fun r => (recordsOf receipts r.receipt).blockNumber)
      (withKeys receipts) b) records q = records q := by
  refine running_of_not_mem fun h => hq ?_
  obtain ⟨r, hr, rfl⟩ := List.mem_map.mp h
  have hr := (o.sort_perm _ _).mem_iff.mp hr
  rw [grouped_eq] at hr
  exact of_decide_eq_true (List.mem_filter.mp hr).2

theorem fillBlocks_of_getElem? (hdistinct : DistinctIndexes receipts) {i : ℕ} {e : Hash × Receipt}
    (hi : receipts[i]? = some e) :
    fillBlocks o (withKeys receipts) (recordsOf receipts) i =
      withGas e.2 (.ofNat (gasUpTo (receipts.map Prod.snd) e.2)) := by
  have hrecord := recordsOf_of_getElem? hi
  have ha : (⟨e.1, i⟩ : ReceiptWithKey) ∈ withKeys receipts := mem_withKeys.mpr ⟨e, hi, rfl⟩
  have hmem := (o.visit_perm _).mem_iff.mpr (List.mem_dedup.mpr (List.mem_map_of_mem
    (f := fun r : ReceiptWithKey => (recordsOf receipts r.receipt).blockNumber) ha))
  obtain ⟨records, hsame, hfold⟩ := foldl_of_frame (fillBlock_frame o receipts)
    ((o.visit_perm _).nodup_iff.mpr (List.nodup_dedup _)) hmem (recordsOf receipts)
  rw [fillBlocks]
  refine (hfold i rfl).trans ?_
  rw [grouped_eq]
  -- the records of the block are still those that were read
  have hrecs : ∀ r ∈ (withKeys receipts).filter (fun r =>
      (recordsOf receipts r.receipt).blockNumber = (recordsOf receipts i).blockNumber),
      records r.receipt = recordsOf receipts r.receipt := fun r hr =>
    hsame _ (of_decide_eq_true (List.mem_filter.mp hr).2)
  rw [fillBlock_of_mem (withKeys_nodup.sublist (List.filter_sublist.map _)) ?_
    (List.mem_filter.mpr ⟨ha, decide_eq_true rfl⟩)]
  · rw [List.map_congr_left hrecs, hsame i rfl, hrecord, gasUpTo_eq, block_withKeys]
  · refine (hdistinct.withKeys.filter _).imp_of_mem fun hx hy h => ?_
    rw [hrecs _ hx, hrecs _ hy]
    exact h ((of_decide_eq_true (List.mem_filter.mp hx).2).trans
      (of_decide_eq_true (List.mem_filter.mp hy).2).symm)

theorem flushed_eq (hsorted : receipts.Pairwise (·.1.bytes < ·.1.bytes))
    (hdistinct : DistinctIndexes receipts) :
    flushed o receipts = receipts.map (filled receipts) := by
  have hkeys : (withKeys receipts).Pairwise (·.txHash.bytes < ·.txHash.bytes) := by
    rw [← List.zipIdx_map_fst 0 receipts, List.pairwise_map] at hsorted
    exact List.pairwise_map.mpr hsorted
  have hsort : o.sort (fun x y => x.txHash.bytes < y.txHash.bytes) (withKeys receipts) =
      withKeys receipts :=
    (o.sort_perm _ _).eq_of_pairwise (fun x y _ _ h h' => absurd h' h.not_gt)
      (o.sort_strict (fun r => r.txHash.bytes) (hkeys.imp fun h => h.ne)) hkeys
  rw [flushed, hsort, map_eq_map_zipIdx (filled receipts)]
  refine List.map_map.trans (List.map_congr_left fun e he => ?_)
  exact Prod.ext rfl (fillBlocks_of_getElem? hdistinct (List.mem_zipIdx_iff_getElem?.mp he))

end Blocks

/-! ### The transient store -/

inductive Written (cdc : Codec) : Transient → Prop where
  | empty : Written cdc noTransient
  | set {t : Transient} (h : Written cdc t) (txHash : Hash) (r : Receipt) :
      Written cdc (setTransientReceipt cdc t txHash r)
  | delete {t : Transient} (h : Written cdc t) (txHash : Hash) :
      Written cdc (deleteTransientReceipt t txHash)
  | deferred {t : Transient} (h : Written cdc t) (d : Settlement.Transient) :
      Written cdc { t with deferred := d }

section Flush

variable {cdc : Codec} {t : Transient} {receipts : List (Hash × Receipt)}

theorem Written.entry (hcdc : RoundTrips cdc) (ht : Written cdc t) {key val : Bytes}
    (hkey : t.receipts.get key = some val) :
    key.length = 32 ∧ ∃ r, cdc.unmarshalReceipt val = some r := by
  induction ht with
  | empty => cases hkey
  | set _ txHash r ih =>
    obtain ⟨bz, hbz, hback⟩ := hcdc.receipt r
    simp only [setTransientReceipt, hbz] at hkey
    rw [SortedStore.get_set] at hkey
    split at hkey
    · rename_i e
      cases hkey
      exact ⟨e ▸ txHash.length_eq, r, hback⟩
    · exact ih hkey
  | delete _ txHash ih =>
    rw [deleteTransientReceipt, SortedStore.get_delete] at hkey
    split at hkey
    · cases hkey
    · exact ih hkey
  | deferred _ _ ih => exact ih hkey

theorem Written.keys (hcdc : RoundTrips cdc) (ht : Written cdc t) :
    ∀ key val, t.receipts.get key = some val → key.length = 32 :=
  fun _ _ hkey => (ht.entry hcdc hkey).1

def setReceipts (cdc : Codec) (receipts : List (Hash × Receipt)) : Transient :=
  receipts.foldl (fun t e => setTransientReceipt cdc t e.1 e.2) noTransient

theorem setReceipts_reads (hcdc : RoundTrips cdc)
    (hsorted : receipts.Pairwise (·.1.bytes < ·.1.bytes)) :
    Written cdc (setReceipts cdc receipts) ∧
      transientReceipts cdc (setReceipts cdc receipts) = some receipts := by
  induction receipts using List.reverseRecOn with
  | nil => exact ⟨.empty, rfl⟩
  | append_singleton receipts e ih =>
    obtain ⟨hsorted, -, hlast⟩ := List.pairwise_append.mp hsorted
    obtain ⟨hwritten, hread⟩ := ih hsorted
    have hset : setReceipts cdc (receipts ++ [e]) =
        setTransientReceipt cdc (setReceipts cdc receipts) e.1 e.2 := List.foldl_concat ..
    rw [hset]
    refine ⟨hwritten.set e.1 e.2, ?_⟩
    obtain ⟨bz, hbz, hback⟩ := hcdc.receipt e.2
    -- the new hash comes after all others
    have hafter : ∀ x ∈ (setReceipts cdc receipts).receipts.entries, x.1 < e.1.bytes := by
      intro x hx
      have hx := List.mem_map_of_mem (f := Prod.fst) hx
      rw [← transientReceipts_hashes (hwritten.keys hcdc) hread] at hx
      obtain ⟨e', he', hx⟩ := List.mem_map.mp hx
      rw [← hx]
      exact hlast e' he' e (List.mem_singleton_self e)
    simp only [setTransientReceipt, hbz, transientReceipts] at hread ⊢
    rw [SortedStore.entries_set_of_last hafter, List.mapM_append, hread]
    simp [hback]

/-! ### The pairs -/

def pairRead (cdc : Codec) (pairs : List (Hash × Bytes)) (txHash : Hash) : Option Receipt :=
  (assoc pairs txHash).bind cdc.unmarshalReceipt

theorem flushPairs_spec (hcdc : RoundTrips cdc) (ht : Written cdc t)
    (hread : transientReceipts cdc t = some receipts) (hdistinct : DistinctIndexes receipts) :
    ∃ pairs, flushPairs o cdc t = some pairs ∧
      pairs.map Prod.fst = receipts.map Prod.fst ∧
      ∀ e ∈ receipts, pairRead cdc pairs e.1 = some (filled receipts e).2 := by
  have hsorted := transientReceipts_sorted (ht.keys hcdc) hread
  obtain ⟨pairs, hpairs⟩ : ∃ pairs, (receipts.map (filled receipts)).mapM (fun e =>
      (cdc.marshalReceipt e.2).map fun bz => (e.1, bz)) = some pairs := by
    refine exists_mapM_eq_some fun e _ => ?_
    obtain ⟨bz, hbz, -⟩ := hcdc.receipt e.2
    exact ⟨_, by rw [hbz, Option.map_some]⟩
  refine ⟨pairs, ?_, ?_, fun e he => ?_⟩
  · refine Option.bind_eq_some_iff.mpr ⟨receipts, hread, ?_⟩
    rw [flushed_eq hsorted hdistinct]
    exact hpairs
  · rw [map_of_mapM (g := Prod.fst) (h := Prod.fst) hpairs fun e _ e' he' => by
      obtain ⟨bz, -, rfl⟩ := Option.map_eq_some_iff.mp he'
      rfl, List.map_map]
    rfl
  · have hassoc := assoc_mapM (g := id) (k := e.1)
      (fun he => by obtain ⟨_, -, rfl⟩ := Option.map_eq_some_iff.mp he; rfl) hpairs fun _ _ e => e
    have hhashes : (receipts.map (filled receipts)).Pairwise fun e e' => e.1 ≠ e'.1 :=
      List.pairwise_map.mpr (distinct_of_sorted hsorted)
    have hfound : assoc (receipts.map (filled receipts)) e.1 = some (filled receipts e).2 :=
      assoc_of_mem hhashes (List.mem_map_of_mem he)
    obtain ⟨bz, hbz, hback⟩ := hcdc.receipt (filled receipts e).2
    rw [id] at hassoc
    rw [pairRead, hassoc, hfound, Option.bind_some, hbz]
    exact hback

theorem gasUpTo_mono (rs : List Receipt) {r r' : Receipt} (hb : r.blockNumber = r'.blockNumber)
    (hle : r.transactionIndex ≤ r'.transactionIndex) : gasUpTo rs r ≤ gasUpTo rs r' := by
  refine List.Sublist.sum_le_sum (List.Sublist.map _ ?_) fun _ _ => Nat.zero_le _
  refine List.monotone_filter_right rs fun x hx => ?_
  rw [decide_eq_true_iff] at hx ⊢
  exact ⟨hx.1.trans hb, hx.2.1, UInt32.le_trans hx.2.2 hle⟩

end Flush

/-! ### The model of `Flush` -/

theorem assoc_cumulate {e : Hash × Receipt} {before after : List (Hash × Receipt)}
    (h : ∀ x ∈ before, x.1 ≠ e.1) (cumGas : UInt64) :
    assoc (cumulate cumGas (before ++ e :: after)) e.1 =
      some (((before ++ [e]).map Prod.snd).foldl addGas cumGas) := by
  induction before generalizing cumGas with
  | nil => simp [cumulate, assoc, addGas]
  | cons x before ih =>
    obtain ⟨hx, hbefore⟩ := List.forall_mem_cons.mp h
    rw [List.cons_append, cumulate, List.cons_append, List.map_cons, List.foldl_cons,
      ← ih hbefore]
    simp [assoc, hx, addGas]

theorem cumulativeGas_eq (sorter : SortSlice) {receipts : List (Hash × Receipt)}
    (hhashes : receipts.Pairwise fun e e' => e.1 ≠ e'.1) (hdistinct : DistinctIndexes receipts)
    {e : Hash × Receipt} (he : e ∈ receipts) :
    cumulativeGas sorter receipts e = .ofNat (gasUpTo (receipts.map Prod.snd) e.2) := by
  have hblock : (receipts.filter (·.2.blockNumber = e.2.blockNumber)).Pairwise fun x y =>
      x.1 ≠ y.1 ∧ x.2.transactionIndex ≠ y.2.transactionIndex := by
    refine ((hhashes.and hdistinct).filter _).imp_of_mem fun hx hy h => ⟨h.1, h.2 ?_⟩
    exact (of_decide_eq_true (List.mem_filter.mp hx).2).trans
      (of_decide_eq_true (List.mem_filter.mp hy).2).symm
  have hperm := sorter.perm (receipts.filter (·.2.blockNumber = e.2.blockNumber))
  have hsorted := (sorter.sorted (receipts.filter (·.2.blockNumber = e.2.blockNumber))).and
    (hperm.symm.pairwise hblock fun h => ⟨h.1.symm, h.2.symm⟩)
  rw [cumulativeGas]
  generalize sorter.sort _ = sorted at hperm hsorted
  obtain ⟨before, after, rfl⟩ := List.append_of_mem (hperm.mem_iff.mpr
    (List.mem_filter.mpr ⟨he, decide_eq_true rfl⟩))
  have hupTo := filter_le_of_sorted (fun e : Hash × Receipt => e.2.transactionIndex.toNat)
    (hsorted.imp fun h => lt_of_le_of_ne (UInt32.le_iff_toNat_le.mp h.1)
      fun e => h.2.2 (UInt32.toNat_inj.mp e))
  rw [assoc_cumulate fun x hx =>
    ((List.pairwise_append.mp hsorted).2.2 x hx e List.mem_cons_self).2.1, Option.getD_some,
    ← hupTo]
  refine (foldl_addGas _ 0).trans (congrArg _ ?_)
  rw [Nat.zero_add, gasUpTo_eq, List.filter_map, List.filter_map]
  exact (((hperm.filter _).map _).map _).sum_eq

theorem changeSet_eq_flushPairs {sorter : SortSlice} {cdc : Codec} (hcdc : RoundTrips cdc)
    {t : Transient} (ht : Written cdc t) {receipts : List (Hash × Receipt)}
    (hread : transientReceipts cdc t = some receipts) (hdistinct : DistinctIndexes receipts) :
    changeSet sorter cdc receipts = flushPairs o cdc t := by
  have hsorted := transientReceipts_sorted (ht.keys hcdc) hread
  rw [flushPairs, hread]
  show _ = (flushed o receipts).mapM _
  have hfilled : receipts.map (filled receipts) = receipts.map fun e =>
      (e.1, withGas e.2 (cumulativeGas sorter receipts e)) := by
    refine List.map_congr_left fun e he => ?_
    rw [cumulativeGas_eq sorter (distinct_of_sorted hsorted) hdistinct he]
    rfl
  rw [flushed_eq hsorted hdistinct, hfilled, List.mapM_map]
  rfl

/-- **Flushed receipts have the cumulative gas of their block.**  Every receipt of the transient
store is written once, in the order of the hashes, with nothing changed but its
`CumulativeGasUsed`: the gas of the receipts of its block that were paid for and whose index is not
larger.  It does not decrease with the index. -/
theorem flush_cumulative (o : FlushOrder) {cdc : Codec} (hcdc : RoundTrips cdc) {t : Transient}
    (ht : Written cdc t) {receipts : List (Hash × Receipt)}
    (hread : transientReceipts cdc t = some receipts) (hdistinct : DistinctIndexes receipts)
    (hgas : ∀ e ∈ receipts, gasUpTo (receipts.map Prod.snd) e.2 < 2 ^ 64) :
    ∃ pairs, flushPairs o cdc t = some pairs ∧
      pairs.map Prod.fst = receipts.map Prod.fst ∧
      pairs.Pairwise (·.1.bytes < ·.1.bytes) ∧
      (∀ e ∈ receipts, ∃ gas, pairRead cdc pairs e.1 = some { e.2 with cumulativeGasUsed := gas } ∧
        gas.toNat = gasUpTo (receipts.map Prod.snd) e.2) ∧
      ∀ e ∈ receipts, ∀ e' ∈ receipts, e.2.blockNumber = e'.2.blockNumber →
        e.2.transactionIndex ≤ e'.2.transactionIndex → ∀ r r',
          pairRead cdc pairs e.1 = some r → pairRead cdc pairs e'.1 = some r' →
            r.cumulativeGasUsed ≤ r'.cumulativeGasUsed := by
  obtain ⟨pairs, hpairs, hhashes, hwritten⟩ := flushPairs_spec (o := o) hcdc ht hread hdistinct
  have htoNat : ∀ e ∈ receipts, (filled receipts e).2.cumulativeGasUsed.toNat =
      gasUpTo (receipts.map Prod.snd) e.2 := fun e he =>
    UInt64.toNat_ofNat_of_lt' (hgas e he)
  refine ⟨pairs, hpairs, hhashes, ?_, fun e he => ⟨_, hwritten e he, htoNat e he⟩, ?_⟩
  · have hsorted : (receipts.map Prod.fst).Pairwise fun h h' => h.bytes < h'.bytes :=
      List.pairwise_map.mpr (transientReceipts_sorted (ht.keys hcdc) hread)
    rw [← hhashes, List.pairwise_map] at hsorted
    exact hsorted
  · intro e he e' he' hb hle r r' hr hr'
    cases (hwritten e he).symm.trans hr
    cases (hwritten e' he').symm.trans hr'
    rw [UInt64.le_iff_toNat_le, htoNat e he, htoNat e' he']
    exact gasUpTo_mono _ hb hle

def stableOrder : FlushOrder where
  sort less l := l.mergeSort fun x y => !less y x
  sort_perm _ l := List.mergeSort_perm l _
  sorted less l h := by
    refine (List.pairwise_mergeSort (fun x y z hxy hyz => ?_) (fun x y => ?_) l).imp
      fun h => by simpa using h
    · rw [Bool.not_eq_true'] at hxy hyz ⊢
      by_contra hne
      rcases h.2 z y x (by simpa using hne) with hzy | hyx
      · exact Bool.false_ne_true (hyz.symm.trans hzy)
      · exact Bool.false_ne_true (hxy.symm.trans hyx)
    · cases hxy : less x y with
      | false => simp
      | true => simp [h.1 x y hxy]
  visit l := l
  visit_perm l := .refl l

def inBlock (txHash : Hash) (gasUsed effectiveGasPrice : UInt64) (transactionIndex : UInt32) :
    Hash × Receipt :=
  (txHash, { txHash, gasUsed, effectiveGasPrice, blockNumber := 5, transactionIndex })

def threeReceipts : List (Hash × Receipt) :=
  [inBlock (.ofBytes 32 [1]) 7 1 2, inBlock (.ofBytes 32 [2]) 100 0 1,
    inBlock (.ofBytes 32 [3]) 10 1 0]

def threeTransient : Transient := setReceipts numberCodec threeReceipts

theorem threeTransient_reads :
    Written numberCodec threeTransient ∧
      transientReceipts numberCodec threeTransient = some threeReceipts :=
  setReceipts_reads numberCodec_roundTrips (by decide)

theorem flush_cumulative_three : ∃ pairs, flushPairs stableOrder numberCodec threeTransient =
    some pairs ∧ (threeReceipts.map fun e => (pairRead numberCodec pairs e.1).map
      Receipt.cumulativeGasUsed) = [some 17, some 10, some 10] := by
  obtain ⟨pairs, hpairs, -, -, hread, -⟩ := flush_cumulative stableOrder numberCodec_roundTrips
    threeTransient_reads.1 threeTransient_reads.2 (by decide) (by decide)
  have hgas : ∀ e ∈ threeReceipts, (pairRead numberCodec pairs e.1).map
      Receipt.cumulativeGasUsed = some (.ofNat (gasUpTo (threeReceipts.map Prod.snd) e.2)) := by
    intro e he
    obtain ⟨gas, hpair, hgas⟩ := hread e he
    rw [hpair, ← hgas, UInt64.ofNat_toNat, Option.map_some]
  refine ⟨pairs, hpairs, (List.map_congr_left hgas).trans ?_⟩
  decide

end Tabi.Receipts
