import Tabi.Receipts.BlockGas
import Tabi.Rpc.TxIndex

/-!
# Rpc — the gas of a block

The gas of a block is added up twice.
-/

namespace Tabi.Rpc

open Support Fallible
open Synthetic (Receipt getTransientReceipt)
open Receipts (Archive Extends Highest addGas countedGas hashOf noArchive)

namespace Node

variable (node : Node) (block : ResultBlock)

def msgHash : Msg → Option Hash
  | .evmTransaction msg => ((ethTx msg).toOption.join).map node.ethHash
  | _ => none

def msgs (tx : Bytes) : List Msg := (node.decoder block tx).getD []

def evmHashes : List Hash := (block.txs.flatMap (node.msgs block)).filterMap node.msgHash

def counted (q : BlockQuery) (h : Hash) : Option Receipt :=
  (node.receipt? h).filter (q.lists block)

def gasEntries (q : BlockQuery) : List (Hash × ℕ) :=
  (node.evmHashes block).filterMap fun h =>
    (node.counted block q h).map fun r => (h, countedGas r)

variable {node block} {q : BlockQuery}

variable {h : Hash} {acc acc' : Encoded} {tx : Bytes}

theorem counted_eq_some {r : Receipt} :
    node.counted block q h = some r ↔ node.getReceipt h = .ok r ∧
      r.blockNumber = block.height.toUInt64 ∧ r.effectiveGasPrice ≠ 0 ∧
      (q.includeSyntheticTxs = true ∨ r.txType ≠ Synthetic.shellEVMTxType) := by
  simp only [counted, Option.filter_eq_some_iff, receipt?_eq_some, BlockQuery.lists,
    isReceiptFromAnteError, Bool.and_eq_true, beq_iff_eq, Bool.not_eq_true', beq_eq_false_iff_ne,
    Bool.or_eq_true, bne_iff_ne, and_assoc]

def countMsg (node : Node) (block : ResultBlock) (q : BlockQuery) (gas : UInt64) (m : Msg) :
    UInt64 :=
  ((node.msgHash m).bind (node.counted block q)).elim gas (addGas gas)

theorem addGas_of_counted {r : Receipt} (hr : node.counted block q h = some r) (gas : UInt64) :
    addGas gas r = gas + r.gasUsed :=
  if_pos (UInt64.pos_iff_ne_zero.mpr (counted_eq_some.mp hr).2.2.1)

theorem encodeEvm_gas (hfilter : q.isPanicOrSynthetic = none) {msg : Ante.MsgEVMTransaction}
    (h : node.encodeEvm q block acc msg = .ok acc') :
    acc'.blockGasUsed = node.countMsg block q acc.blockGasUsed (.evmTransaction msg) := by
  obtain ⟨o, ho, h⟩ := bind_eq_ok.mp h
  have ho := Fallible.ofOutcome_eq_ok.mp ho
  rw [countMsg, msgHash, ho]
  cases o with
  | none =>
    cases h
    rfl
  | some etx =>
    obtain ⟨excluded, hexcluded, h⟩ := bind_eq_ok.mp h
    rw [hfilter] at hexcluded
    cases hexcluded
    show _ = (node.counted block q (node.ethHash etx)).elim _ _
    cases hr : node.receipt? (node.ethHash etx) with
    | none =>
      simp only [hr] at h
      cases h
      rw [counted, hr]
      rfl
    | some r =>
      simp only [hr] at h
      cases hlists : q.lists block r with
      | false =>
        simp only [hlists] at h
        cases h
        rw [counted, hr, Option.filter_some_neg (by rw [hlists])]
        rfl
      | true =>
        simp only [hlists] at h
        cases h
        have hcounted : node.counted block q (node.ethHash etx) = some r := by
          rw [counted, hr, Option.filter_some_pos hlists]
        rw [hcounted, Option.elim_some, addGas_of_counted hcounted]

theorem encodeContractCall_gas {contract input : Bytes}
    (h : node.encodeContractCall q acc tx contract input = .ok acc') :
    acc'.blockGasUsed = acc.blockGasUsed := by
  unfold encodeContractCall at h
  split at h
  · cases h
    rfl
  dsimp only at h
  split at h
  · cases h
    rfl
  split at h
  · cases h
    rfl
  split at h
  · cases h
  · cases h
    rfl

theorem encodeTransfer_gas {fromAddress toAddress : Bytes} {amount : ℤ}
    (h : node.encodeTransfer q acc tx fromAddress toAddress amount = .ok acc') :
    acc'.blockGasUsed = acc.blockGasUsed := by
  unfold encodeTransfer at h
  split at h
  · cases h
    rfl
  dsimp only at h
  split at h
  · cases h
    rfl
  split at h
  · obtain ⟨value, -, h⟩ := bind_eq_ok.mp h
    cases h
    rfl
  · cases h
    rfl

theorem encodeMsg_gas (hfilter : q.isPanicOrSynthetic = none) {m : Msg}
    (h : node.encodeMsg q block tx acc m = .ok acc') :
    acc'.blockGasUsed = node.countMsg block q acc.blockGasUsed m := by
  cases m with
  | evmTransaction msg => exact encodeEvm_gas hfilter h
  | executeContract contract input => exact encodeContractCall_gas h
  | send fromAddress toAddress amount => exact encodeTransfer_gas h
  | other =>
    cases h
    rfl

theorem encodeTx_gas (hfilter : q.isPanicOrSynthetic = none)
    (h : node.encodeTx q block acc tx = .ok acc') :
    acc'.blockGasUsed = (node.msgs block tx).foldl (node.countMsg block q) acc.blockGasUsed := by
  unfold encodeTx at h
  rw [msgs]
  cases hmsgs : node.decoder block tx with
  | none =>
    rw [hmsgs] at h
    cases h
  | some ms =>
    rw [hmsgs] at h
    exact foldlM_obs Encoded.blockGasUsed _ (encodeMsg_gas hfilter) h

theorem foldl_countMsg (ms : List Msg) (gas : UInt64) :
    ms.foldl (node.countMsg block q) gas =
      ((ms.filterMap node.msgHash).filterMap (node.counted block q)).foldl addGas gas := by
  rw [List.filterMap_filterMap, List.foldl_filterMap]
  refine congrArg (fun f => ms.foldl f gas) (funext fun gas => funext fun m => ?_)
  rw [countMsg]
  cases (node.msgHash m).bind (node.counted block q) with
  | none => rfl
  | some r => rfl

theorem map_snd_gasEntries : (node.gasEntries block q).map Prod.snd =
    ((node.evmHashes block).filterMap (node.counted block q)).map countedGas := by
  rw [gasEntries, List.map_filterMap, List.map_filterMap]
  refine List.filterMap_congr fun h _ => ?_
  rw [Option.map_map]
  rfl

theorem nodup_gasEntries (h : (node.evmHashes block).Nodup) :
    ((node.gasEntries block q).map Prod.fst).Nodup := by
  rw [gasEntries, List.map_filterMap]
  refine h.filterMap fun a a' b hb hb' => ?_
  simp only [Option.map_map, Option.mem_def, Option.map_eq_some_iff] at hb hb'
  obtain ⟨_, -, rfl⟩ := hb
  obtain ⟨_, -, ha'⟩ := hb'
  exact ha'.symm

theorem mem_gasEntries {n : ℕ} : (h, n) ∈ node.gasEntries block q ↔
    h ∈ node.evmHashes block ∧ ∃ r, node.counted block q h = some r ∧ countedGas r = n := by
  simp only [gasEntries, List.mem_filterMap, Option.map_eq_some_iff, Prod.mk.injEq]
  constructor
  · rintro ⟨_, hh, r, hr, rfl, hn⟩
    exact ⟨hh, r, hr, hn⟩
  · rintro ⟨hh, r, hr, hn⟩
    exact ⟨h, hh, r, hr, rfl, hn⟩

theorem encodeTmBlock_gas (hfilter : q.isPanicOrSynthetic = none) {rb : RPCBlock}
    (h : node.encodeTmBlock q block = .ok rb) :
    rb.gasUsed = .ofNat ((node.gasEntries block q).map Prod.snd).sum := by
  obtain ⟨encoded, hloop, h⟩ := bind_eq_ok.mp h
  cases h
  have hgas := foldlM_obs Encoded.blockGasUsed
    (fun gas tx => (node.msgs block tx).foldl (node.countMsg block q) gas) (encodeTx_gas hfilter)
    hloop
  rw [← List.foldl_flatMap, foldl_countMsg] at hgas
  rw [map_snd_gasEntries, ← Nat.zero_add (List.sum _), ← Receipts.foldl_addGas]
  exact hgas

theorem mem_evmHashes (htx : tx ∈ block.txs) {etx : Geth.Transaction}
    (h : getEthTxForTxBz (node.decoder block) tx = .ok (some etx)) :
    node.ethHash etx ∈ node.evmHashes block := by
  unfold getEthTxForTxBz at h
  split at h
  · rename_i msg hmsgs
    refine List.mem_filterMap.mpr ⟨.evmTransaction msg, List.mem_flatMap.mpr ⟨tx, htx, ?_⟩, ?_⟩
    · rw [msgs, hmsgs]
      exact List.mem_singleton_self _
    · rw [msgHash, h]
      rfl
  · cases h

theorem exists_of_mem_evmHashes (hh : h ∈ node.evmHashes block) : ∃ etx, node.ethHash etx = h := by
  obtain ⟨m, -, hm⟩ := List.mem_filterMap.mp hh
  cases m with
  | evmTransaction msg =>
    obtain ⟨etx, -, hetx⟩ := Option.map_eq_some_iff.mp hm
    exact ⟨etx, hetx⟩
  | executeContract contract input => cases hm
  | send fromAddress toAddress amount => cases hm
  | other => cases hm

theorem mem_evmTxs (htx : tx ∈ block.txs) {etx : Geth.Transaction}
    (h : getEthTxForTxBz (node.decoder block) tx = .ok (some etx)) : etx ∈ node.evmTxs block := by
  refine List.mem_filterMap.mpr ⟨tx, htx, ?_⟩
  rw [evmTx, h]
  rfl

end Node

namespace Chain

variable {β γ : Type}

/-- How a block of the chain was committed: the transient store after its transactions and after
`EndBlock`, and the receipts that can be read before and after its flush. -/
structure Commitment (c : Chain β γ) where
  before : List (Receipts.Block × ResultBlock)
  block : Receipts.Block
  result : ResultBlock
  after : List (Receipts.Block × ResultBlock)
  blocks_eq : c.blocks = before ++ (block, result) :: after
  executed : Synthetic.Transient
  closed : Synthetic.Transient
  opening : StateDB.Stores β γ
  closing : StateDB.Stores β γ
  earlier : Archive
  flushed : Archive
  past : Extends c.geth c.cdc c.keepers c.sorter noArchive (before.map Prod.fst) earlier
  exec : Receipts.Executes c.geth c.cdc c.keepers block.order Receipts.noTransient executed
  close : Receipts.endBlock c.cdc c.keepers block.blockHeight opening executed block.txs =
    .ok (closing, closed)
  flush : Receipts.flushTransientReceipts c.sorter c.cdc closed earlier = some flushed
  future : Extends c.geth c.cdc c.keepers c.sorter flushed (after.map Prod.fst) c.archive

namespace Commitment

variable {c : Chain β γ} (m : c.Commitment)

def others : List (Receipts.Block × ResultBlock) := m.before ++ m.after

def IncludedOnce : Prop :=
  ∀ e ∈ m.others, ∀ etx ∈ c.node.evmTxs e.2, c.node.ethHash etx ∉ c.node.evmHashes m.result

theorem mem_blocks : (m.block, m.result) ∈ c.blocks := by
  rw [m.blocks_eq]
  exact List.mem_append_right _ List.mem_cons_self

theorem others_subset {e : Receipts.Block × ResultBlock} (he : e ∈ m.others) : e ∈ c.blocks := by
  rw [m.blocks_eq]
  rcases List.mem_append.mp he with he | he
  · exact List.mem_append_left _ he
  · exact List.mem_append_right _ (List.mem_cons_of_mem _ he)

variable {m}

variable {h : Hash}

theorem IncludedOnce.hashOf_ne (honce : m.IncludedOnce) {e : Receipts.Block × ResultBlock}
    (he : e ∈ m.others) (hh : h ∈ c.node.evmHashes m.result) : ∀ x ∈ e.1.txs, hashOf x.tx ≠ h := by
  intro x hx hash
  obtain ⟨i, hi⟩ := List.mem_iff_getElem?.mp hx
  obtain ⟨tx, o, htx, ho, hevm, hsum⟩ := (c.served e (m.others_subset he)).txs i x hi
  cases o with
  | none =>
    -- the receipt of a Cosmos transaction is stored under its checksum
    obtain ⟨etx, hetx⟩ := Node.exists_of_mem_evmHashes hh
    rw [Receipts.hashOf_cosmos hevm, hsum] at hash
    exact c.checksum_ne tx etx (hash.trans hetx.symm)
  | some etx =>
    rw [Receipts.hashOf_evm hevm] at hash
    refine honce e he etx (Node.mem_evmTxs (List.mem_of_getElem? htx) ho) ?_
    rwa [show c.node.ethHash etx = h from hash]

theorem readsTopics (c : Chain β γ) : c.geth.ReadsTopics := createBloom_readsTopics c.bloom

theorem timed_of_others {es : List (Receipts.Block × ResultBlock)} (hes : ∀ e ∈ es, e ∈ m.others) :
    ∀ b ∈ es.map Prod.fst, b.Timed := by
  intro b hb
  obtain ⟨e, he, rfl⟩ := List.mem_map.mp hb
  exact (c.served e (m.others_subset (hes e he))).timed

theorem IncludedOnce.kept (honce : m.IncludedOnce) (hh : h ∈ c.node.evmHashes m.result)
    {es : List (Receipts.Block × ResultBlock)} (hes : ∀ e ∈ es, e ∈ m.others) {a a' : Archive}
    (hrun : Extends c.geth c.cdc c.keepers c.sorter a (es.map Prod.fst) a') :
    Receipts.getReceipt c.cdc a' h = Receipts.getReceipt c.cdc a h := by
  refine Receipts.extends_kept c.roundTrips (readsTopics c) hrun (timed_of_others hes) ?_
  intro b hb
  obtain ⟨e, he, rfl⟩ := List.mem_map.mp hb
  exact honce.hashOf_ne (hes e he) hh

theorem IncludedOnce.receipt_cases (honce : m.IncludedOnce) (hh : h ∈ c.node.evmHashes m.result) :
    (∃ r gas, getTransientReceipt c.cdc m.closed h = some r ∧
        c.node.getReceipt h = .ok { r with cumulativeGasUsed := gas }) ∨
      getTransientReceipt c.cdc m.closed h = none ∧ ∀ r, c.node.getReceipt h ≠ .ok r := by
  have hpast : Receipts.getReceipt c.cdc m.earlier h = none :=
    honce.kept hh (fun _ he => List.mem_append_left _ he) m.past
  have hfuture : Receipts.getReceipt c.cdc c.archive h = Receipts.getReceipt c.cdc m.flushed h :=
    honce.kept hh (fun _ he => List.mem_append_right _ he) m.future
  rcases Receipts.getReceipt_flush c.roundTrips
    (Receipts.closed_keys c.roundTrips m.exec m.close) m.flush h with ⟨r, gas, hr, hread⟩ |
    ⟨hr, hsame⟩
  · exact .inl ⟨r, gas, hr, getReceipt_eq_ok.mpr (hfuture.trans hread)⟩
  · refine .inr ⟨hr, fun r hread => ?_⟩
    have hread := getReceipt_eq_ok.mp hread
    rw [hfuture, hsame, hpast] at hread
    cases hread

theorem mem_evmHashes_of_priced {r : Receipt} (hr : getTransientReceipt c.cdc m.closed h = some r)
    (hprice : r.effectiveGasPrice ≠ 0) :
    h ∈ c.node.evmHashes m.result ∧ r.txType ≠ Synthetic.shellEVMTxType := by
  obtain ⟨⟨x, hx, hevm⟩, htype⟩ :=
    Receipts.closed_priced c.roundTrips (readsTopics c) m.exec m.close hr hprice
  obtain ⟨i, hi⟩ := List.mem_iff_getElem?.mp hx
  obtain ⟨tx, o, htx, ho, hash, -⟩ := (c.served _ m.mem_blocks).txs i x hi
  obtain ⟨etx, rfl, hetx⟩ := Option.map_eq_some_iff.mp (hash.symm.trans hevm)
  exact ⟨hetx ▸ Node.mem_evmHashes (List.mem_of_getElem? htx) ho, htype⟩

theorem IncludedOnce.entry_iff (honce : m.IncludedOnce) (q : Node.BlockQuery) (h : Hash) {n : ℕ}
    (hn : n ≠ 0) :
    (∃ r, getTransientReceipt c.cdc m.closed h = some r ∧ countedGas r = n) ↔
      (h, n) ∈ c.node.gasEntries m.result q := by
  rw [Node.mem_gasEntries]
  constructor
  · rintro ⟨r, hr, rfl⟩
    have hprice : r.effectiveGasPrice ≠ 0 := fun hzero => hn (by rw [countedGas, hzero]; rfl)
    obtain ⟨hh, htype⟩ := mem_evmHashes_of_priced hr hprice
    refine ⟨hh, ?_⟩
    rcases honce.receipt_cases hh with ⟨r', gas, hr', hread⟩ | ⟨hnone, -⟩
    · cases hr.symm.trans hr'
      have hserved := c.served _ m.mem_blocks
      have hnamed := (Receipts.closed_named c.roundTrips (readsTopics c) hserved.timed m.exec
        m.close hr).1
      exact ⟨_, Node.counted_eq_some.mpr ⟨hread, hnamed.blockNumber.trans hserved.height, hprice,
        .inr htype⟩, rfl⟩
    · cases hr.symm.trans hnone
  · rintro ⟨hh, r, hr, rfl⟩
    obtain ⟨hread, -⟩ := Node.counted_eq_some.mp hr
    rcases honce.receipt_cases hh with ⟨r', gas, hr', hread'⟩ | ⟨-, hnone⟩
    · cases hread.symm.trans hread'
      exact ⟨r', hr', rfl⟩
    · exact absurd hread (hnone r)

theorem IncludedOnce.totals_eq (honce : m.IncludedOnce)
    (hdistinct : (c.node.evmHashes m.result).Nodup) (q : Node.BlockQuery)
    {receipts : List (Hash × Receipt)}
    (hread : Receipts.transientReceipts c.cdc m.closed = some receipts) :
    ((c.node.gasEntries m.result q).map Prod.snd).sum =
      (receipts.map fun e => countedGas e.2).sum := by
  have hkeys := Receipts.closed_keys c.roundTrips m.exec m.close
  have hmap : (receipts.map fun e => countedGas e.2) =
      (receipts.map fun e => (e.1, countedGas e.2)).map Prod.snd := by
    rw [List.map_map]
    rfl
  rw [hmap]
  refine sum_eq_of_entries (Node.nodup_gasEntries hdistinct) ?_ fun h n hn => ?_
  · rw [List.map_map]
    exact List.pairwise_map.mpr (Receipts.distinct_of_sorted
      (Receipts.transientReceipts_sorted hkeys hread))
  · rw [← honce.entry_iff q h hn, List.mem_map]
    constructor
    · rintro ⟨r, hr, rfl⟩
      exact ⟨(h, r), (Receipts.mem_transientReceipts hkeys hread).mpr hr, rfl⟩
    · rintro ⟨⟨_, r⟩, he, heq⟩
      cases heq
      exact ⟨r, (Receipts.mem_transientReceipts hkeys hread).mp he, rfl⟩

end Commitment

end Chain

/-- **Block gas is receipt gas.**  For every block of a chain whose EVM hashes are distinct and
included in no other block: when `EncodeTmBlock` without a panic filter returns and the block wrote
a receipt, the gas it reports is the `CumulativeGasUsed` that was flushed with the receipt of the
highest index. -/
theorem blockGas_eq_receiptGas {β γ : Type} (c : Chain β γ) (m : c.Commitment)
    (hdistinct : (c.node.evmHashes m.result).Nodup) (honce : m.IncludedOnce) {q : Node.BlockQuery}
    (hfilter : q.isPanicOrSynthetic = none) {rb : Node.RPCBlock}
    (hencode : c.node.encodeTmBlock q m.result = .ok rb)
    (hwritten : ∃ h r, getTransientReceipt c.cdc m.closed h = some r) :
    (∃ h, Highest c.cdc m.closed h) ∧ ∀ h, Highest c.cdc m.closed h →
      ∃ r, Receipts.getReceipt c.cdc m.flushed h = some r ∧ rb.gasUsed = r.cumulativeGasUsed := by
  constructor
  · obtain ⟨h, r, hr⟩ := hwritten
    obtain ⟨receipts, hread, -⟩ := Option.bind_eq_some_iff.mp m.flush
    exact Receipts.exists_highest (Receipts.closed_keys c.roundTrips m.exec m.close) hread hr
  · intro h hhighest
    obtain ⟨receipts, r, hread, hr, hgas⟩ := Receipts.flush_highest c.roundTrips
      (Chain.Commitment.readsTopics c) m.exec m.close (c.served _ m.mem_blocks).timed m.flush
      hhighest
    refine ⟨r, hr, ?_⟩
    rw [Node.encodeTmBlock_gas hfilter hencode, honce.totals_eq hdistinct q hread, hgas]

theorem mixed_served : ∀ e ∈ [(firstBlock, firstResult)],
    Serves (fun _ => nonceDecoder) (fun _ => .ofBytes 32 [1]) nonceHasher e.1 e.2 :=
  fun e he => retried_served e (List.mem_cons.mpr (.inl (List.mem_singleton.mp he)))

theorem mixed_heights : ([(firstBlock, firstResult)].map fun e => e.2.height).Nodup :=
  List.nodup_singleton _

def mixedChain (a : Archive) (h : Extends chainGeth Receipts.numberCodec
    (StateDB.ledgerKeepers []) Receipts.byIndex noArchive [firstBlock] a) :
    Chain AccAddress ℤ where
  toSurroundings := quietSurroundings
  keccak256 _ := emptyHash
  sha256 _ := .ofBytes 32 [1]
  hasher := nonceHasher
  txDecoder _ := nonceDecoder
  geth := chainGeth
  cdc := Receipts.numberCodec
  keepers := StateDB.ledgerKeepers []
  sorter := Receipts.byIndex
  blocks := [(firstBlock, firstResult)]
  archive := a
  committed := h
  served := mixed_served
  heights := mixed_heights
  bloom := chainGeth_bloom
  roundTrips := Receipts.numberCodec_roundTrips
  checksum_ne _ := nonceHasher_ne

theorem mixedChain_evmHashes {a : Archive} (h : Extends chainGeth Receipts.numberCodec
    (StateDB.ledgerKeepers []) Receipts.byIndex noArchive [firstBlock] a) :
    (mixedChain a h).node.evmHashes firstResult = [.ofBytes 32 [2], .ofBytes 32 [3]] := rfl

theorem mixedChain_mixed {a : Archive} (h : Extends chainGeth Receipts.numberCodec
    (StateDB.ledgerKeepers []) Receipts.byIndex noArchive [firstBlock] a) :
    (mixedChain a h).node.Mixed firstResult :=
  List.forall_mem_cons.mpr ⟨⟨_, .evm rfl rfl rfl⟩,
    List.forall_mem_singleton.mpr ⟨_, .evm rfl rfl rfl⟩⟩

theorem blockGas_eq_receiptGas_mixed : ∃ (c : Chain AccAddress ℤ) (m : c.Commitment)
    (rb : Node.RPCBlock) (h : Hash) (r : Receipt), m.result = firstResult ∧
      c.node.encodeTmBlock (Node.newBlockAPI.query true) firstResult = .ok rb ∧
      Highest c.cdc m.closed h ∧ Receipts.getReceipt c.cdc m.flushed h = some r ∧
      rb.gasUsed = r.cumulativeGasUsed := by
  have hcdc := Receipts.numberCodec_roundTrips
  have hbloom : chainGeth.ReadsTopics := createBloom_readsTopics chainGeth_bloom
  obtain ⟨a, hcommits⟩ := firstBlock_commits noArchive
  obtain ⟨-, ⟨hfails, -⟩ | ⟨-, gas, hread⟩⟩ := Receipts.commitsReceipt_cases hcdc hbloom hcommits
  · exact absurd hfails (by decide)
  obtain ⟨exec, close, flush⟩ := hcommits.commits
  have hrun := Extends.cons hcommits.commits (.nil a)
  have hmixed := mixedChain_mixed hrun
  obtain ⟨rb, hrb, -⟩ := Node.encodeTmBlock_eq hmixed
  let m : (mixedChain a hrun).Commitment := ⟨[], firstBlock, firstResult, [], rfl, _, _, _, _,
    noArchive, a, .nil _, exec, close, flush, .nil _⟩
  have hwritten : ∃ h r, getTransientReceipt Receipts.numberCodec m.closed h = some r := by
    rcases Receipts.getReceipt_flush hcdc (Receipts.closed_keys hcdc exec close) flush
      (.ofBytes 32 [3]) with ⟨r, -, hr, -⟩ | ⟨-, hsame⟩
    · exact ⟨_, r, hr⟩
    · cases hread.symm.trans hsame
  obtain ⟨⟨h, hhighest⟩, hall⟩ := blockGas_eq_receiptGas (mixedChain a hrun) m
    (by rw [mixedChain_evmHashes]; decide) (List.forall_mem_nil _) rfl hrb hwritten
  obtain ⟨r, hr, hgas⟩ := hall h hhighest
  exact ⟨mixedChain a hrun, m, rb, h, r, rfl, hrb, hhighest, hr, hgas⟩

end Tabi.Rpc
