import Tabi.Receipts.Named
import Tabi.Rpc.EvmTxs

/-!
# Rpc — a node over a chain

The blocks a node serves were executed by the app, and the receipts it serves were flushed after
them.
-/

namespace Tabi.Rpc

open Support
open Synthetic (Receipt)
open Receipts (Archive Extends RoundTrips hashOf noArchive)

theorem createBloom_readsTopics {geth : Receipts.Geth} {keccak256 : Bytes → Hash}
    (h : geth.createBloom = createBloom keccak256) : geth.ReadsTopics := by
  intro logs logs' hlogs
  have hkeys : ∀ l : List StateDB.Log, l.flatMap bloomKeys =
      (l.map fun log => (log.address, log.topics)).flatMap
        fun e => e.1.bytes :: e.2.map FixedBytes.bytes := fun l => by
    rw [List.flatMap_map]
    rfl
  rw [h, createBloom, createBloom, hkeys, hkeys, hlogs]

structure Serves (txDecoder : Int64 → Bytes → Option (List Msg)) (sha256 : Bytes → Hash)
    (hasher : Geth.Hasher) (block : Receipts.Block) (result : ResultBlock) : Prop where
  height : block.blockHeight = result.height.toUInt64
  timed : block.Timed
  txs : ∀ (i : Nat) x, block.txs[i]? = some x → ∃ tx o, result.txs[i]? = some tx ∧
    getEthTxForTxBz (txDecoder result.height) tx = .ok o ∧
    x.tx.evmTxHash = o.map hasher.hash ∧ x.tx.checksum = sha256 tx

theorem Serves.receiptHash_eq {txDecoder : Int64 → Bytes → Option (List Msg)}
    {sha256 : Bytes → Hash} {hasher : Geth.Hasher} {block : Receipts.Block} {result : ResultBlock}
    (h : Serves txDecoder sha256 hasher block result) {i : Nat} {x : Receipts.Included}
    (hx : block.txs[i]? = some x) : ∃ tx, result.txs[i]? = some tx ∧
      receiptHash (txDecoder result.height) sha256 hasher.hash tx = .ok (hashOf x.tx) := by
  obtain ⟨tx, o, htx, ho, hevm, hsum⟩ := h.txs i x hx
  refine ⟨tx, htx, ?_⟩
  rw [receiptHash, ho, Outcome.ok_bind, hashOf, hevm, hsum]
  cases o with
  | none => rfl
  | some etx => rfl

structure Chain (β γ : Type) extends Surroundings where
  keccak256 : Bytes → Hash
  sha256 : Bytes → Hash
  hasher : Geth.Hasher
  txDecoder : Int64 → Bytes → Option (List Msg)
  geth : Receipts.Geth
  cdc : Synthetic.Codec
  keepers : StateDB.Keepers β γ
  sorter : Receipts.SortSlice
  blocks : List (Receipts.Block × ResultBlock)
  archive : Archive
  committed : Extends geth cdc keepers sorter noArchive (blocks.map Prod.fst) archive
  served : ∀ e ∈ blocks, Serves txDecoder sha256 hasher e.1 e.2
  heights : (blocks.map fun e => e.2.height).Nodup
  bloom : geth.createBloom = createBloom keccak256
  roundTrips : RoundTrips cdc
  checksum_ne : ∀ tx etx, sha256 tx ≠ hasher.hash etx

namespace Chain

variable {β γ : Type} (c : Chain β γ)

def blockByNumber (n : Int64) : Except String ResultBlock :=
  match (c.blocks.map Prod.snd).find? (·.height = n) with
  | some b => .ok b
  | none => .error "could not find block"

def blockByHash (h : Hash) : Except String ResultBlock :=
  match (c.blocks.map Prod.snd).find? (·.hash = h) with
  | some b => .ok b
  | none => .error "could not find block"

def getReceipt (h : Hash) : Except String Receipt :=
  match Receipts.getReceipt c.cdc c.archive h with
  | some r => .ok r
  | none => .error "not found"

variable {c}

variable {h : Hash} {r : Receipt} {b : ResultBlock}

theorem getReceipt_eq_ok :
    c.getReceipt h = .ok r ↔ Receipts.getReceipt c.cdc c.archive h = some r := by
  unfold getReceipt
  cases Receipts.getReceipt c.cdc c.archive h with
  | none => simp
  | some r' => simp

theorem mem_of_blockByNumber {n : Int64} (h : c.blockByNumber n = .ok b) :
    b ∈ c.blocks.map Prod.snd ∧ b.height = n := by
  unfold blockByNumber at h
  split at h
  · rename_i b' hb
    cases h
    exact ⟨List.mem_of_find?_eq_some hb, by simpa using List.find?_some hb⟩
  · cases h

theorem blockByNumber_of_mem (hb : b ∈ c.blocks.map Prod.snd) :
    c.blockByNumber b.height = .ok b := by
  cases h : (c.blocks.map Prod.snd).find? (·.height = b.height) with
  | none => exact absurd (List.find?_eq_none.mp h b hb) (by simp)
  | some b' =>
    have hnodup : ((c.blocks.map Prod.snd).map ResultBlock.height).Nodup := by
      rw [List.map_map]
      exact c.heights
    have heq : b' = b := List.inj_on_of_nodup_map hnodup (List.mem_of_find?_eq_some h) hb
      (by simpa using List.find?_some h)
    rw [blockByNumber, h, heq]

theorem getReceipt_named (hr : c.getReceipt h = .ok r) :
    ∃ e ∈ c.blocks, e.1.Named h r ∧ Receipts.Logged c.geth r := by
  have hbloom : c.geth.ReadsTopics := createBloom_readsTopics c.bloom
  have hblocks : ∀ b ∈ c.blocks.map Prod.fst, b.Timed := by
    intro b hb
    obtain ⟨e, he, rfl⟩ := List.mem_map.mp hb
    exact (c.served e he).timed
  rcases Receipts.extends_named c.roundTrips hbloom c.committed hblocks
    (getReceipt_eq_ok.mp hr) with ⟨b, hb, hnamed⟩ | hnone
  · obtain ⟨e, he, rfl⟩ := List.mem_map.mp hb
    exact ⟨e, he, hnamed⟩
  · cases hnone

theorem getReceipt_tx (hr : c.getReceipt h = .ok r)
    (hb : c.blockByNumber r.blockNumber.toInt64 = .ok b) :
    ∃ tx, b.txs[r.transactionIndex.toNat]? = some tx ∧
      receiptHash (c.txDecoder b.height) c.sha256 c.hasher.hash tx = .ok h := by
  obtain ⟨e, he, hnamed, -⟩ := getReceipt_named hr
  obtain ⟨x, hx, hhash⟩ := hnamed.tx
  have hserved := c.served e he
  rw [hnamed.blockNumber, hserved.height, Int64.toInt64_toUInt64,
    blockByNumber_of_mem (List.mem_map_of_mem he)] at hb
  cases hb
  obtain ⟨tx, htx, hrhash⟩ := hserved.receiptHash_eq hx
  exact ⟨tx, htx, hrhash.trans (congrArg Except.ok hhash)⟩

theorem getReceipt_bloom (hr : c.getReceipt h = .ok r) :
    r.logs = [] ∧ r.logsBloom = [] ∨
      r.logsBloom = (createBloom c.keccak256 (Synthetic.getLogsForTx r)).bytes := by
  obtain ⟨-, -, -, hsound | hnone⟩ := getReceipt_named hr
  · rw [← c.bloom]
    exact .inr hsound.bloom
  · exact .inl hnone

theorem getReceipt_logs (hr : c.getReceipt h = .ok r) :
    Numbered Synthetic.StoredLog.index UInt32.ofNat r.logs := by
  obtain ⟨-, -, -, hsound | ⟨hnone, -⟩⟩ := getReceipt_named hr
  · exact hsound.numbered
  · rw [hnone]
    exact .nil

theorem getReceipt_hash (hr : c.getReceipt h = .ok r) : r.txHash = h := by
  obtain ⟨e, -, hnamed, -⟩ := getReceipt_named hr
  exact hnamed.txHash

theorem getReceipt_readable {err : String} (hr : c.getReceipt h = .error err) :
    isNotFound err = true := by
  unfold getReceipt at hr
  split at hr
  · cases hr
  · cases hr
    decide

theorem blockByHash_spec (hb : c.blockByHash h = .ok b) :
    b.hash = h ∧ c.blockByNumber b.height = .ok b := by
  unfold blockByHash at hb
  split at hb
  · rename_i b' hfound
    cases hb
    exact ⟨by simpa using List.find?_some hfound,
      blockByNumber_of_mem (List.mem_of_find?_eq_some hfound)⟩
  · cases hb

def node (c : Chain β γ) : Node where
  toSurroundings := c.toSurroundings
  keccak256 := c.keccak256
  sha256 := c.sha256
  hasher := c.hasher
  txDecoder := c.txDecoder
  blockByNumber := c.blockByNumber
  blockByHash := c.blockByHash
  getReceipt := c.getReceipt
  blockByNumber_height h := (mem_of_blockByNumber h).2
  blockByHash_hash := blockByHash_spec
  receipt_readable := getReceipt_readable
  receipt_hash := getReceipt_hash
  receipt_tx := getReceipt_tx
  receipt_logs := getReceipt_logs
  receipt_bloom := getReceipt_bloom
  checksum_ne := c.checksum_ne

end Chain

def nonceHasher : Geth.Hasher where
  rlpHash
    | .list (.int nonce :: _) => if nonce = 0 then .ofBytes 32 [2] else .ofBytes 32 [3]
    | _ => .ofBytes 32 [3]
  prefixedRlpHash _ _ := .ofBytes 32 [3]

theorem nonceHasher_ne (etx : Geth.Transaction) :
    FixedBytes.ofBytes 32 [1] ≠ nonceHasher.hash etx := by
  have hne : FixedBytes.ofBytes 32 [1] ≠ FixedBytes.ofBytes 32 [3] := by decide
  cases etx with
  | legacyTx t =>
    simp only [Geth.Hasher.hash, nonceHasher, Geth.Rlp.uint64]
    split
    · decide
    · exact hne
  | accessListTx t => exact hne
  | dynamicFeeTx t => exact hne
  | blobTx t => exact hne

def creation (nonce : UInt64) : Ante.MsgEVMTransaction :=
  ⟨.ok (.legacyTx { nonce, gasPrice := some 1, gasLimit := 60000, amount := some 0, data := [] }),
    none⟩

def creationTx (nonce : UInt64) : Geth.Transaction :=
  .legacyTx ⟨nonce, 1, 60000, none, 0, [], 0, 0, 0⟩

def nonceDecoder : Bytes → Option (List Msg)
  | [nonce] => some [.evmTransaction (creation nonce.toUInt64)]
  | _ => none

def created (nonce : UInt64) : Receipts.Executed :=
  ⟨⟨StateDB.alice, none, nonce, [], 1⟩, 0, 53000, [], none⟩

def chainGeth : Receipts.Geth := ⟨createBloom fun _ => emptyHash, fun a _ => a⟩

theorem chainGeth_bloom : chainGeth.createBloom = createBloom fun _ => emptyHash := rfl

def retriedTx (height index : UInt64) : Synthetic.Tx :=
  ⟨.ofBytes 32 [1], some (.ofBytes 32 [2]), 0, height, index, []⟩

def otherTx (height index : UInt64) : Synthetic.Tx :=
  ⟨.ofBytes 32 [1], some (.ofBytes 32 [3]), 0, height, index, []⟩

def firstBlock : Receipts.Block :=
  Receipts.inOrder 1 [⟨retriedTx 1 0, false, Bytes.ascii "insufficient funds"⟩,
    ⟨otherTx 1 1, true, []⟩] rfl

def secondBlock : Receipts.Block := Receipts.inOrder 2 [⟨retriedTx 2 0, true, []⟩] rfl

def resultBlock (hash : Hash) (height : Int64) (txs : List Bytes) : ResultBlock :=
  ⟨hash, height, 0, txs, emptyHash, emptyHash, emptyHash, emptyHash, .zero 20, 0⟩

def firstResult : ResultBlock := resultBlock (.ofBytes 32 [11]) 1 [[0], [1]]

def secondResult : ResultBlock := resultBlock (.ofBytes 32 [12]) 2 [[0]]

def quietSurroundings : Surroundings where
  latest := 2
  unconfirmedTxs _ := .ok []
  blockBloom _ := none
  baseFeePerGas _ := 0
  maxGas _ := none
  maxGasUpdate _ := none
  recoverSender _ _ _ := .error "invalid signature"
  recoverPendingSender _ := .error "invalid signature"
  createAddress a _ := a
  pointee _ := none
  evmAddress _ := none

theorem firstBlock_commits (a : Archive) : ∃ a', Receipts.CommitsReceipt chainGeth
    Receipts.numberCodec (StateDB.ledgerKeepers []) Receipts.byIndex firstBlock (.ofBytes 32 [3])
    (Receipts.receiptOf chainGeth (otherTx 1 1) Receipts.keptLogs (.ofBytes 32 [3]) (created 1))
    a a' := by
  have hkey : Settlement.deferredInfoKey 0 ≠ Settlement.deferredInfoKey 1 := by decide
  refine Receipts.commits_logging chainGeth firstBlock (created 1) rfl
    (show firstBlock.order = [⟨retriedTx 1 0, false, Bytes.ascii "insufficient funds"⟩] ++
      ⟨otherTx 1 1, true, []⟩ :: [] from rfl) (by simp) (by simp)
    [⟨0, (FixedBytes.ofBytes 32 [2]).bytes, [], none, Bytes.ascii "insufficient funds"⟩]
    (fun hval => ⟨_, ?_, .swap _ _ []⟩) (by decide) (by decide) a
  simp [Settlement.getAllEVMTxDeferredInfo, Settlement.deferredInfoAt, Receipts.writtenTransient,
    SortedStore.get_set, hval, firstBlock, Receipts.inOrder, otherTx, hkey]
  rfl

theorem secondBlock_commits (a : Archive) : ∃ a', Receipts.CommitsReceipt chainGeth
    Receipts.numberCodec (StateDB.ledgerKeepers []) Receipts.byIndex secondBlock (.ofBytes 32 [2])
    (Receipts.receiptOf chainGeth (retriedTx 2 0) Receipts.keptLogs (.ofBytes 32 [2]) (created 0))
    a a' := by
  refine Receipts.commits_logging chainGeth secondBlock (created 0) rfl
    (show secondBlock.order = [] ++ ⟨retriedTx 2 0, true, []⟩ :: [] from rfl) (by simp) (by simp)
    [] (fun hval => ⟨_, ?_, .refl _⟩) (by simp) (by simp) a
  simp [Settlement.getAllEVMTxDeferredInfo, Settlement.deferredInfoAt, Receipts.writtenTransient,
    SortedStore.get_set, hval, secondBlock, Receipts.inOrder, retriedTx]

theorem Serves.of_map {txDecoder : Int64 → Bytes → Option (List Msg)} {sha256 : Bytes → Hash}
    {hasher : Geth.Hasher} {block : Receipts.Block} {result : ResultBlock}
    (height : block.blockHeight = result.height.toUInt64) (timed : block.Timed)
    (htxs : result.txs.map (fun tx => (getEthTxForTxBz (txDecoder result.height) tx).map
      fun o => (o.map hasher.hash, sha256 tx)) =
        block.txs.map fun x => .ok (x.tx.evmTxHash, x.tx.checksum)) :
    Serves txDecoder sha256 hasher block result := by
  refine ⟨height, timed, fun i x hx => ?_⟩
  have hi := congrArg (·[i]?) htxs
  simp only [List.getElem?_map, hx, Option.map_some] at hi
  obtain ⟨tx, htx, hread⟩ := Option.map_eq_some_iff.mp hi
  obtain ⟨o, ho, hexec⟩ := map_eq_ok.mp hread
  obtain ⟨hevm, hsum⟩ := Prod.mk.inj hexec
  exact ⟨tx, o, htx, ho, hevm.symm, hsum.symm⟩

theorem retried_served : ∀ e ∈ [(firstBlock, firstResult), (secondBlock, secondResult)],
    Serves (fun _ => nonceDecoder) (fun _ => .ofBytes 32 [1]) nonceHasher e.1 e.2 := by
  refine List.forall_mem_cons.mpr ⟨.of_map rfl ⟨by decide, by decide⟩ rfl, ?_⟩
  exact List.forall_mem_singleton.mpr (.of_map rfl ⟨by decide, by decide⟩ rfl)

theorem retried_heights : ([(firstBlock, firstResult), (secondBlock, secondResult)].map
    fun e => e.2.height).Nodup := by
  decide

def retriedChain (a : Archive) (h : Extends chainGeth Receipts.numberCodec
    (StateDB.ledgerKeepers []) Receipts.byIndex noArchive [firstBlock, secondBlock] a) :
    Chain AccAddress ℤ where
  toSurroundings := quietSurroundings
  keccak256 _ := emptyHash
  sha256 _ := .ofBytes 32 [1]
  hasher := nonceHasher
  txDecoder _ := nonceDecoder
  geth := chainGeth
  cdc := Receipts.numberCodec
  keepers := StateDB.ledgerKeepers []
  sorter := Receipts.byIndex
  blocks := [(firstBlock, firstResult), (secondBlock, secondResult)]
  archive := a
  committed := h
  served := retried_served
  heights := retried_heights
  bloom := chainGeth_bloom
  roundTrips := Receipts.numberCodec_roundTrips
  checksum_ne _ := nonceHasher_ne

structure Paid (height : UInt64) (index : UInt32) (r : Receipt) : Prop where
  blockNumber : r.blockNumber = height
  transactionIndex : r.transactionIndex = index
  txType : r.txType = 0
  effectiveGasPrice : r.effectiveGasPrice = 1
  logs : r.logs = Receipts.keptLogs.map Synthetic.convertEthLog
  execution : Receipts.IsExecution r

theorem receiptOf_paid (tx : Synthetic.Tx) (nonce : UInt64) (txHash : Hash) (gas : UInt64)
    {height : UInt64} {index : UInt32} (hheight : tx.blockHeight = height)
    (hindex : UInt32.ofNat tx.txIndex.toNat = index) : Paid height index
      { Receipts.receiptOf chainGeth tx Receipts.keptLogs txHash (created nonce) with
        cumulativeGasUsed := gas } :=
  ⟨hheight, hindex, rfl, rfl, rfl, .inr rfl⟩

theorem Paid.collected {node : Node} {height : UInt64} {index : UInt32} {r : Receipt}
    (hpaid : Paid height index r) {h : Hash} (hr : node.getReceipt h = .ok r) :
    node.collected false h = some r := by
  rw [Node.collected, Node.receipt?_eq_some.mpr hr, Option.filter_some, hpaid.txType,
    hpaid.effectiveGasPrice]
  rfl

structure Retried (node : Node) : Prop where
  surroundings : node.toSurroundings = quietSurroundings
  hasher : node.hasher = nonceHasher
  txDecoder : node.txDecoder = fun _ => nonceDecoder
  first : node.blockByNumber 1 = .ok firstResult
  second : node.blockByNumber 2 = .ok secondResult
  receipt : ∃ r, node.getReceipt (node.ethHash (creationTx 0)) = .ok r ∧ Paid 2 0 r
  other : ∃ r, node.getReceipt (node.ethHash (creationTx 1)) = .ok r ∧ Paid 1 1 r

theorem exists_retried_blocks : ∃ c : Chain AccAddress ℤ, Retried c.node ∧
    c.blocks = [(firstBlock, firstResult), (secondBlock, secondResult)] := by
  have hcdc := Receipts.numberCodec_roundTrips
  have hbloom : chainGeth.ReadsTopics := createBloom_readsTopics chainGeth_bloom
  obtain ⟨a₁, h₁⟩ := firstBlock_commits noArchive
  obtain ⟨a₂, h₂⟩ := secondBlock_commits a₁
  have hkept : ∀ y ∈ secondBlock.txs, ¬ y.ExecutesUnder (.ofBytes 32 [3]) := by decide
  obtain ⟨-, ⟨hfails, -⟩ | ⟨-, gas₁, hread₁⟩⟩ := Receipts.commitsReceipt_cases hcdc hbloom h₁
  · exact absurd hfails (by decide)
  obtain ⟨-, ⟨hfails, -⟩ | ⟨-, gas₂, hread₂⟩⟩ := Receipts.commitsReceipt_cases hcdc hbloom h₂
  · exact absurd hfails (by decide)
  rcases Receipts.commits_cases hcdc hbloom h₂.commits hkept with ⟨hfails, -⟩ | ⟨-, hsame⟩
  · exact absurd hfails (by decide)
  refine ⟨retriedChain a₂ (.cons h₁.commits (.cons h₂.commits (.nil a₂))), ⟨rfl, rfl, rfl, rfl, rfl,
    ⟨_, Chain.getReceipt_eq_ok.mpr hread₂, receiptOf_paid (retriedTx 2 0) 0 _ gas₂ rfl rfl⟩,
    ⟨_, Chain.getReceipt_eq_ok.mpr (hsame.trans hread₁), ?_⟩⟩, rfl⟩
  exact receiptOf_paid (otherTx 1 1) 1 _ gas₁ rfl rfl

theorem exists_retried : ∃ c : Chain AccAddress ℤ, Retried c.node := by
  obtain ⟨c, h, -⟩ := exists_retried_blocks
  exact ⟨c, h⟩

namespace Retried

variable {node : Node} (h : Retried node)

include h

theorem reads (block : ResultBlock) (nonce : UInt8) :
    Reads (node.decoder block) [nonce] (some (creationTx nonce.toUInt64)) := by
  rw [Node.decoder, h.txDecoder]
  exact .evm rfl rfl rfl

theorem evmTx_eq (block : ResultBlock) (nonce : UInt8) :
    node.evmTx block [nonce] = some (creationTx nonce.toUInt64) := by
  rw [Node.evmTx, (h.reads block nonce).getEthTxForTxBz_eq]
  rfl

theorem mixed_first : node.Mixed firstResult :=
  List.forall_mem_cons.mpr ⟨⟨_, h.reads _ 0⟩, List.forall_mem_singleton.mpr ⟨_, h.reads _ 1⟩⟩

theorem mixed_second : node.Mixed secondResult := List.forall_mem_singleton.mpr ⟨_, h.reads _ 0⟩

theorem evmTxs_first : node.evmTxs firstResult = [creationTx 0, creationTx 1] := by
  rw [Node.evmTxs, show firstResult.txs = [[0], [1]] from rfl,
    List.filterMap_cons_some (h.evmTx_eq _ 0), List.filterMap_cons_some (h.evmTx_eq _ 1)]
  rfl

theorem evmTxs_second : node.evmTxs secondResult = [creationTx 0] := by
  rw [Node.evmTxs, show secondResult.txs = [[0]] from rfl,
    List.filterMap_cons_some (h.evmTx_eq _ 0)]
  rfl

theorem rank_first : node.rank firstResult 1 = 1 := by
  rw [Node.rank, show firstResult.txs.take 1 = [[0]] from rfl,
    List.filterMap_cons_some (h.evmTx_eq _ 0)]
  rfl

theorem unconfirmed_eq (hash : Hash) : node.unconfirmed hash = .ok none := by
  have hempty : ∀ page, node.unconfirmedTxs page = .ok [] := fun page => by rw [h.surroundings]; rfl
  rw [Node.unconfirmed, Node.unconfirmedTxQueryMaxPage, Node.findUnconfirmed, hempty]

end Retried

end Tabi.Rpc
