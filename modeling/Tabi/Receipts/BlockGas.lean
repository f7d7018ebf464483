import Mathlib.Data.Finset.Max
import Tabi.Receipts.Cumulative
import Tabi.Receipts.Named

/-!
# Receipts — the gas of a block

A block writes receipts of several kinds: of EVM transactions, of calls from Cosmos transactions, of
translated events alone, and of failures.
-/

namespace Tabi.Receipts

open Support StateDB Synthetic

variable {β γ : Type} {geth : Geth} {cdc : Codec} {k : Keepers β γ} {sorter : SortSlice}

def Block.Priced (b : Block) (h : Hash) (r : Receipt) : Prop :=
  r.effectiveGasPrice ≠ 0 →
    (∃ x ∈ b.txs, x.tx.evmTxHash = some h) ∧ r.txType ≠ shellEVMTxType

def Highest (cdc : Codec) (t : Transient) (h : Hash) : Prop :=
  ∃ r, getTransientReceipt cdc t h = some r ∧
    ∀ h' r', getTransientReceipt cdc t h' = some r' → r'.transactionIndex ≤ r.transactionIndex

theorem WrittenFor.priced_of_mem {b : Block} {x : Included} (hx : x ∈ b.txs) {r : Receipt}
    (h : WrittenFor x.tx r) : b.Priced (hashOf x.tx) r := by
  intro hprice
  obtain ⟨hevm, htype⟩ := h.priced hprice
  obtain ⟨txHash, hash⟩ := Option.ne_none_iff_exists'.mp hevm
  rw [hashOf_evm hash]
  exact ⟨⟨x, hx, hash⟩, htype⟩

section

variable (hcdc : RoundTrips cdc) (hbloom : geth.ReadsTopics) {b : Block} {t t' : Transient}
  {v v' : Stores β γ} (hexec : Executes geth cdc k b.order noTransient t)
  (hclose : endBlock cdc k b.blockHeight v t b.txs = .ok (v', t'))

include hcdc hbloom hexec hclose

theorem closed_priced {h : Hash} {r : Receipt} (hr : getTransientReceipt cdc t' h = some r) :
    b.Priced h r := by
  obtain ⟨infos, s, -, -, rfl, rfl⟩ := endBlock_eq_ok hclose
  rcases recordFailures_cases hcdc b.blockHeight infos t h with ⟨info, -, -, hget⟩ | ⟨-, hget⟩
  · cases hr.symm.trans hget
    exact fun hprice => absurd rfl hprice
  · refine executes_written hcdc hbloom (fun {h r₀ r} hc hpriced hprice => ?_) hexec
      (fun x hx r hr => hr.priced_of_mem (b.perm.mem_iff.mp hx)) h r (hget.symm.trans hr)
    rw [hc.effectiveGasPrice] at hprice
    rw [hc.txType]
    exact hpriced hprice

variable (hb : b.Timed) {receipts : List (Hash × Receipt)}
  (hread : transientReceipts cdc t' = some receipts)

include hb hread

theorem closed_distinctIndexes : DistinctIndexes receipts := by
  have hkeys := closed_keys hcdc hexec hclose
  have hnamed : ∀ e ∈ receipts, b.Named e.1 e.2 := fun e he =>
    (closed_named hcdc hbloom hb hexec hclose ((mem_transientReceipts hkeys hread).mp he)).1
  refine (distinct_of_sorted (transientReceipts_sorted hkeys hread)).imp_of_mem ?_
  intro e e' he he' hne _ hindex
  -- receipts with the same index name the same transaction
  obtain ⟨x, hx, hhash⟩ := (hnamed e he).tx
  obtain ⟨x', hx', hhash'⟩ := (hnamed e' he').tx
  rw [hindex] at hx
  cases hx.symm.trans hx'
  exact hne (hhash.symm.trans hhash')

omit hread

theorem flush_highest {a a' : Archive} (hflush : flushTransientReceipts sorter cdc t' a = some a')
    {h : Hash} (hhighest : Highest cdc t' h) :
    ∃ receipts r, transientReceipts cdc t' = some receipts ∧ getReceipt cdc a' h = some r ∧
      r.cumulativeGasUsed = .ofNat (receipts.map fun e => countedGas e.2).sum := by
  have hkeys := closed_keys hcdc hexec hclose
  obtain ⟨receipts, hread, hflushed⟩ := getReceipt_flush_gas hcdc hkeys hflush
  obtain ⟨r, hr, hmax⟩ := hhighest
  have hflushed := hflushed h
  rw [hr] at hflushed
  refine ⟨receipts, _, hread, hflushed, ?_⟩
  have hmem : (h, r) ∈ receipts := (mem_transientReceipts hkeys hread).mpr hr
  have hhashes := distinct_of_sorted (transientReceipts_sorted hkeys hread)
  rw [cumulativeGas_eq sorter hhashes
    (closed_distinctIndexes hcdc hbloom hexec hclose hb hread) hmem, gasUpTo_eq]
  -- every receipt is of this block, with an index that is not larger
  have hblock : ∀ r' ∈ receipts.map Prod.snd, r'.blockNumber = r.blockNumber ∧
      r'.transactionIndex.toNat ≤ r.transactionIndex.toNat := by
    intro r' hr'
    obtain ⟨e, he, rfl⟩ := List.mem_map.mp hr'
    have hget := (mem_transientReceipts hkeys hread).mp he
    have hnamed := (closed_named hcdc hbloom hb hexec hclose hget).1
    have hnamed' := (closed_named hcdc hbloom hb hexec hclose hr).1
    exact ⟨hnamed.blockNumber.trans hnamed'.blockNumber.symm,
      UInt32.le_iff_toNat_le.mp (hmax e.1 e.2 hget)⟩
  rw [List.filter_filter, List.filter_eq_self.mpr fun r' hr' => by
    simpa using ⟨(hblock r' hr').2, (hblock r' hr').1⟩, List.map_map]
  rfl

end

theorem exists_highest {t : Transient}
    (hkeys : ∀ key val, t.receipts.get key = some val → key.length = 32)
    {receipts : List (Hash × Receipt)} (hread : transientReceipts cdc t = some receipts) {h : Hash}
    {r : Receipt} (hr : getTransientReceipt cdc t h = some r) : ∃ h, Highest cdc t h := by
  classical
  obtain ⟨e, he, hmax⟩ := receipts.toFinset.exists_max_image (fun e => e.2.transactionIndex.toNat)
    ⟨(h, r), List.mem_toFinset.mpr ((mem_transientReceipts hkeys hread).mpr hr)⟩
  refine ⟨e.1, e.2, (mem_transientReceipts hkeys hread).mp (List.mem_toFinset.mp he), ?_⟩
  intro h' r' hr'
  refine UInt32.le_iff_toNat_le.mpr (hmax (h', r') ?_)
  exact List.mem_toFinset.mpr ((mem_transientReceipts hkeys hread).mpr hr')

end Tabi.Receipts
