import Tabi.Receipts.Blocks

/-!
# Receipts — flushing

Right before a block is committed, the receipts of its transient store are written to the receipt
store (`FlushTransientReceipts`, `x/evm/keeper/receipt.go`), each with the gas used by the
transactions of its block up to it.
-/

namespace Tabi.Receipts

open Support StateDB Synthetic

structure Archive where
  latest : Hash → Option Bytes
  legacy : Hash → Option Bytes

def getReceipt (cdc : Codec) (a : Archive) (txHash : Hash) : Option Receipt :=
  ((a.latest txHash).or (a.legacy txHash)).bind cdc.unmarshalReceipt

/-- `sort.Slice` by `TransactionIndex`: receipts with the same index may come in any order. -/
structure SortSlice where
  sort : List (Hash × Receipt) → List (Hash × Receipt)
  perm : ∀ l, (sort l).Perm l
  sorted : ∀ l, (sort l).Pairwise fun x y => x.2.transactionIndex ≤ y.2.transactionIndex

def cumulate : UInt64 → List (Hash × Receipt) → List (Hash × UInt64)
  | _, [] => []
  | cumGas, (txHash, r) :: rest =>
    let cumGas := if 0 < r.effectiveGasPrice then cumGas + r.gasUsed else cumGas
    (txHash, cumGas) :: cumulate cumGas rest

variable (sorter : SortSlice) (cdc : Codec)

/-- The `CumulativeGasUsed` of a receipt among those that are flushed. -/
def cumulativeGas (receipts : List (Hash × Receipt)) (e : Hash × Receipt) : UInt64 :=
  (assoc (cumulate 0 (sorter.sort (receipts.filter (·.2.blockNumber = e.2.blockNumber)))) e.1).getD
    0

def transientReceipts (t : Transient) : Option (List (Hash × Receipt)) :=
  t.receipts.entries.mapM fun e =>
    (cdc.unmarshalReceipt e.2).map fun r => (FixedBytes.ofBytes 32 e.1, r)

def changeSet (receipts : List (Hash × Receipt)) : Option (List (Hash × Bytes)) :=
  receipts.mapM fun e =>
    (cdc.marshalReceipt { e.2 with cumulativeGasUsed := cumulativeGas sorter receipts e }).map
      fun bz => (e.1, bz)

/-- `FlushTransientReceipts`; `none` is an error.  Without receipts nothing is written. -/
def flushTransientReceipts (t : Transient) (a : Archive) : Option Archive := do
  let receipts ← transientReceipts cdc t
  let pairs ← changeSet sorter cdc receipts
  return { a with latest := fun txHash => (assoc pairs txHash).or (a.latest txHash) }

variable {sorter : SortSlice} {cdc : Codec}

theorem flush_returns (hcdc : RoundTrips cdc) {t : Transient}
    (ht : ∀ key val, t.receipts.get key = some val → cdc.unmarshalReceipt val ≠ none)
    (a : Archive) : ∃ a', flushTransientReceipts sorter cdc t a = some a' := by
  obtain ⟨receipts, hreceipts⟩ : ∃ receipts, transientReceipts cdc t = some receipts := by
    refine exists_mapM_eq_some fun e he => ?_
    obtain ⟨r, hr⟩ := Option.ne_none_iff_exists'.mp (ht e.1 e.2 (SortedStore.mem_entries.mp he))
    exact ⟨_, by rw [hr, Option.map_some]⟩
  obtain ⟨pairs, hpairs⟩ : ∃ pairs, changeSet sorter cdc receipts = some pairs := by
    refine exists_mapM_eq_some fun e _ => ?_
    obtain ⟨bz, hbz, -⟩ := hcdc.receipt
      { e.2 with cumulativeGasUsed := cumulativeGas sorter receipts e }
    exact ⟨_, by rw [hbz, Option.map_some]⟩
  exact ⟨_, Option.bind_eq_some_iff.mpr ⟨receipts, hreceipts,
    Option.bind_eq_some_iff.mpr ⟨pairs, hpairs, rfl⟩⟩⟩

theorem distinct_of_sorted {receipts : List (Hash × Receipt)}
    (h : receipts.Pairwise (·.1.bytes < ·.1.bytes)) : receipts.Pairwise fun e e' => e.1 ≠ e'.1 :=
  h.imp fun h e => h.ne (congrArg FixedBytes.bytes e)

section

variable {t : Transient} {receipts : List (Hash × Receipt)}
  (hkeys : ∀ key val, t.receipts.get key = some val → key.length = 32)
  (hread : transientReceipts cdc t = some receipts)

include hkeys hread

theorem transientReceipts_hashes : receipts.map (·.1.bytes) = t.receipts.entries.map Prod.fst := by
  refine map_of_mapM hread fun e he e' he' => ?_
  obtain ⟨r, -, rfl⟩ := Option.map_eq_some_iff.mp he'
  exact congrArg FixedBytes.bytes
    (FixedBytes.ofBytes_bytes ⟨e.1, hkeys e.1 e.2 (SortedStore.mem_entries.mp he)⟩)

theorem transientReceipts_sorted : receipts.Pairwise (·.1.bytes < ·.1.bytes) := by
  refine List.pairwise_map.mp ?_
  rw [transientReceipts_hashes hkeys hread]
  exact List.pairwise_map.mpr t.receipts.sorted

theorem assoc_transientReceipts (txHash : Hash) :
    assoc receipts txHash = getTransientReceipt cdc t txHash := by
  -- the keys are hashes, so the receipt at a hash is the one at its bytes
  have hinj : ∀ e ∈ t.receipts.entries,
      FixedBytes.ofBytes 32 e.1 = FixedBytes.ofBytes 32 txHash.bytes → e.1 = txHash.bytes := by
    intro e he heq
    have hlen := hkeys e.1 e.2 (SortedStore.mem_entries.mp he)
    rw [FixedBytes.ofBytes_bytes] at heq
    rw [← heq]
    exact congrArg FixedBytes.bytes (FixedBytes.ofBytes_bytes ⟨e.1, hlen⟩).symm
  have hfirst := assoc_mapM (g := FixedBytes.ofBytes 32) (k := txHash.bytes)
    (fun he => by obtain ⟨_, -, rfl⟩ := Option.map_eq_some_iff.mp he; rfl) hread hinj
  rw [FixedBytes.ofBytes_bytes, ← SortedStore.get_eq_assoc] at hfirst
  rw [hfirst, getTransientReceipt]
  cases t.receipts.get txHash.bytes with
  | none => rfl
  | some bz => cases hbz : cdc.unmarshalReceipt bz <;> simp [hbz]

theorem mem_transientReceipts {e : Hash × Receipt} :
    e ∈ receipts ↔ getTransientReceipt cdc t e.1 = some e.2 := by
  have hhashes := distinct_of_sorted (transientReceipts_sorted hkeys hread)
  rw [← assoc_transientReceipts hkeys hread]
  exact ⟨assoc_of_mem hhashes, mem_of_assoc⟩

end

theorem assoc_changeSet {receipts : List (Hash × Receipt)} {pairs : List (Hash × Bytes)}
    (hpairs : changeSet sorter cdc receipts = some pairs) (txHash : Hash) :
    assoc pairs txHash = (assoc receipts txHash).bind fun r => cdc.marshalReceipt
      { r with cumulativeGasUsed := cumulativeGas sorter receipts (txHash, r) } := by
  have hassoc := assoc_mapM (g := id) (k := txHash)
    (fun he => by obtain ⟨_, -, rfl⟩ := Option.map_eq_some_iff.mp he; rfl) hpairs fun _ _ e => e
  refine hassoc.trans (congrArg _ (funext fun r => ?_))
  exact (Option.map_map ..).trans (Option.map_id_apply ..)

theorem getReceipt_flush_gas (hcdc : RoundTrips cdc) {t : Transient}
    (hkeys : ∀ key val, t.receipts.get key = some val → key.length = 32) {a a' : Archive}
    (h : flushTransientReceipts sorter cdc t a = some a') :
    ∃ receipts, transientReceipts cdc t = some receipts ∧ ∀ txHash,
      getReceipt cdc a' txHash = match getTransientReceipt cdc t txHash with
        | some r => some { r with cumulativeGasUsed := cumulativeGas sorter receipts (txHash, r) }
        | none => getReceipt cdc a txHash := by
  obtain ⟨receipts, hreceipts, h⟩ := Option.bind_eq_some_iff.mp h
  obtain ⟨pairs, hpairs, h⟩ := Option.bind_eq_some_iff.mp h
  cases h
  refine ⟨receipts, hreceipts, fun txHash => ?_⟩
  have hpair := assoc_changeSet hpairs txHash
  rw [assoc_transientReceipts hkeys hreceipts] at hpair
  show (((assoc pairs txHash).or _).or _).bind _ = _
  rw [hpair]
  cases getTransientReceipt cdc t txHash with
  | none => rfl
  | some r =>
    obtain ⟨bz, hbz, hback⟩ := hcdc.receipt
      { r with cumulativeGasUsed := cumulativeGas sorter receipts (txHash, r) }
    rw [Option.bind_some, hbz]
    exact hback

theorem getReceipt_flush (hcdc : RoundTrips cdc) {t : Transient}
    (hkeys : ∀ key val, t.receipts.get key = some val → key.length = 32) {a a' : Archive}
    (h : flushTransientReceipts sorter cdc t a = some a') (txHash : Hash) :
    (∃ r gas, getTransientReceipt cdc t txHash = some r ∧
        getReceipt cdc a' txHash = some { r with cumulativeGasUsed := gas }) ∨
      getTransientReceipt cdc t txHash = none ∧
        getReceipt cdc a' txHash = getReceipt cdc a txHash := by
  obtain ⟨receipts, -, hread⟩ := getReceipt_flush_gas hcdc hkeys h
  have hread := hread txHash
  cases hr : getTransientReceipt cdc t txHash with
  | none =>
    rw [hr] at hread
    exact .inr ⟨rfl, hread⟩
  | some r =>
    rw [hr] at hread
    exact .inl ⟨r, _, rfl, hread⟩

end Tabi.Receipts
