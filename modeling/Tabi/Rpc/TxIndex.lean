import Tabi.Rpc.Chain

/-!
# Rpc — the index of a transaction

Five handlers report the index of an EVM transaction in its block.
-/

namespace Tabi.Rpc

open Support Fallible
open Synthetic (Receipt shellEVMTxType)

namespace Node

variable (node : Node) (block : ResultBlock)

def listed (etx : Geth.Transaction) : Option Receipt :=
  (node.receipt? (node.ethHash etx)).filter ((newBlockAPI.query true).lists block)

def listedTxs : List (Geth.Transaction × Receipt) :=
  (node.evmTxs block).filterMap fun etx => (node.listed block etx).map (etx, ·)

variable {node block}

variable {r : Receipt} {etx : Geth.Transaction} {txs : List Bytes} {k n : Nat} {h : Hash}

theorem lists_iff :
    (newBlockAPI.query true).lists block r = true ↔ r.blockNumber = block.height.toUInt64 ∧
      isReceiptFromAnteError r = false ∧ r.txType ≠ shellEVMTxType := by
  simp only [BlockQuery.lists, BlockAPI.query, newBlockAPI, Bool.false_or, Bool.and_eq_true,
    beq_iff_eq, Bool.not_eq_true', bne_iff_ne, and_assoc]

theorem listed_eq_some :
    node.listed block etx = some r ↔ node.getReceipt (node.ethHash etx) = .ok r ∧
      r.blockNumber = block.height.toUInt64 ∧ isReceiptFromAnteError r = false ∧
      r.txType ≠ shellEVMTxType := by
  rw [listed, Option.filter_eq_some_iff, receipt?_eq_some, lists_iff]

theorem listed_congr {etx' : Geth.Transaction} (h : node.ethHash etx = node.ethHash etx') :
    node.listed block etx = node.listed block etx' := by
  rw [listed, listed, h]

/-! ### The receipts of a block -/

theorem blockReceipt_of_listed (hmix : node.Mixed block)
    (hblock : node.blockByNumber block.height = .ok block) (h : node.listed block etx = some r) :
    ∃ rr, node.blockReceipt newBlockAPI block (node.ethHash etx) = .ok (some rr) ∧
      rr.transactionHash = node.ethHash etx := by
  obtain ⟨hr, hnum, hante, hshell⟩ := listed_eq_some.mp h
  obtain ⟨tx, etx', htx, hetx, -⟩ := receipt_evmTx hmix hblock hr (height_of_blockNumber hnum)
  obtain ⟨rr, hrr, hhash, -⟩ := encodeReceipt_eq hmix htx hetx (receipt_bloom_length hr)
  refine ⟨rr, ?_, hhash.trans (node.receipt_hash hr)⟩
  simp only [blockReceipt, hr, hante, hnum, hshell, newBlockAPI, hrr, Bool.false_eq_true, if_false,
    and_false, ne_eq, not_true_eq_false]

theorem blockReceipt_of_not_listed (h : node.listed block etx = none) :
    node.blockReceipt newBlockAPI block (node.ethHash etx) = .ok none := by
  unfold blockReceipt
  cases hr : node.getReceipt (node.ethHash etx) with
  | error err => exact if_pos (node.receipt_readable hr)
  | ok r =>
    simp only
    split
    · rfl
    · rename_i hante
      split
      · rfl
      · rename_i hshell
        split
        · rfl
        · rename_i hnum
          have hlisted : node.listed block etx = some r := listed_eq_some.mpr
            ⟨hr, not_not.mp hnum, Bool.eq_false_iff.mpr hante, fun e => hshell ⟨rfl, e⟩⟩
          cases h.symm.trans hlisted

def listedReceipt (node : Node) (block : ResultBlock) (etx : Geth.Transaction) :
    Option RPCReceipt :=
  (node.blockReceipt newBlockAPI block (node.ethHash etx)).toOption.join

theorem listedReceipt_cases (hmix : node.Mixed block)
    (hblock : node.blockByNumber block.height = .ok block) (etx : Geth.Transaction) :
    (node.listed block etx = none ∧ node.listedReceipt block etx = none) ∨
      ∃ r rr, node.listed block etx = some r ∧ node.listedReceipt block etx = some rr ∧
        rr.transactionHash = node.ethHash etx := by
  cases h : node.listed block etx with
  | none =>
    refine .inl ⟨rfl, ?_⟩
    rw [listedReceipt, blockReceipt_of_not_listed h]
    rfl
  | some r =>
    obtain ⟨rr, hrr, hhash⟩ := blockReceipt_of_listed hmix hblock h
    refine .inr ⟨r, rr, rfl, ?_, hhash⟩
    rw [listedReceipt, hrr]
    rfl

theorem getBlockReceipts_eq (hmix : node.Mixed block)
    (hblock : node.blockByNumber block.height = .ok block) :
    node.getBlockReceipts newBlockAPI block =
      .ok (renumber ((node.evmTxs block).filterMap (node.listedReceipt block))) := by
  have hall : ((node.evmTxs block).map node.ethHash).mapM (node.blockReceipt newBlockAPI block) =
      .ok ((node.evmTxs block).map (node.listedReceipt block)) := by
    rw [List.mapM_map]
    refine mapM_eq_ok fun etx _ => ?_
    rcases listedReceipt_cases hmix hblock etx with ⟨hnone, hnone'⟩ | ⟨r, rr, hr, hrr, -⟩
    · rw [hnone']
      exact blockReceipt_of_not_listed hnone
    · obtain ⟨rr', hrr', -⟩ := blockReceipt_of_listed hmix hblock hr
      rw [listedReceipt, Function.comp_apply, hrr']
      rfl
  refine bind_eq_ok.mpr ⟨false, rfl, bind_eq_ok.mpr ⟨_,
    Fallible.ofOutcome_eq_ok.mpr (getTxHashesFromBlock_eq hmix), bind_eq_ok.mpr ⟨_,
    mapError_eq_ok.mpr hall, ?_⟩⟩⟩
  rw [List.reduceOption, List.filterMap_map]
  rfl

/-! ### The block -/

/-- What the loops of `EncodeTmBlock` carry after they have listed transactions. -/
def encodedOf (node : Node) (block : ResultBlock) (txs : List (Geth.Transaction × Receipt)) :
    Encoded :=
  ⟨txs.zipIdx.map fun e =>
      .evm (newRPCTransaction block e.1.1 e.2 (node.baseFeePerGas block.height)),
    txs.foldl (fun gas e => gas + e.2.gasUsed) 0⟩

theorem encodedOf_concat (txs : List (Geth.Transaction × Receipt))
    (e : Geth.Transaction × Receipt) :
    node.encodedOf block (txs ++ [e]) =
      ⟨(node.encodedOf block txs).transactions ++
          [.evm (newRPCTransaction block e.1 (node.encodedOf block txs).transactions.length
            (node.baseFeePerGas block.height))],
        (node.encodedOf block txs).blockGasUsed + e.2.gasUsed⟩ := by
  simp [encodedOf, List.zipIdx_append]

theorem encodeMsg_cosmos (tx : Bytes) (acc : Encoded) {msgs : List Msg}
    (hmsgs : ∀ m ∈ msgs, m.isEVM = false) :
    msgs.foldlM (node.encodeMsg (newBlockAPI.query true) block tx) acc = .ok acc := by
  induction msgs with
  | nil => rfl
  | cons m msgs ih =>
    obtain ⟨hm, hmsgs⟩ := List.forall_mem_cons.mp hmsgs
    have hstep : node.encodeMsg (newBlockAPI.query true) block tx acc m = .ok acc := by
      cases m with
      | evmTransaction msg => cases hm
      | executeContract contract input => rfl
      | send fromAddress toAddress amount => rfl
      | other => rfl
    rw [List.foldlM_cons, hstep]
    exact ih hmsgs

theorem encodeEvm_eq {msg : Ante.MsgEVMTransaction} (h : ethTx msg = .ok (some etx))
    (txs : List (Geth.Transaction × Receipt)) :
    node.encodeEvm (newBlockAPI.query true) block (node.encodedOf block txs) msg =
      .ok (node.encodedOf block (txs ++ ((node.listed block etx).map (etx, ·)).toList)) := by
  have hetx : ofOutcome (ethTx msg) = .ok (some etx) := Fallible.ofOutcome_eq_ok.mpr h
  refine bind_eq_ok.mpr ⟨_, hetx, bind_eq_ok.mpr ⟨false, rfl, ?_⟩⟩
  rw [listed]
  cases hr : node.receipt? (node.ethHash etx) with
  | none =>
    rw [Option.filter_none, Option.map_none, Option.toList_none, List.append_nil]
    rfl
  | some r =>
    cases hlists : (newBlockAPI.query true).lists block r with
    | false =>
      rw [Option.filter_some_neg (by rw [hlists]), Option.map_none, Option.toList_none,
        List.append_nil]
      simp only [hlists, Bool.false_eq_true, if_false, if_true]
      rfl
    | true =>
      rw [Option.filter_some_pos hlists, Option.map_some, Option.toList_some, encodedOf_concat]
      simp only [hlists, Bool.false_eq_true, Bool.true_eq_false, if_false]
      rfl

theorem encodeTx_encodedOf {tx : Bytes} {o : Option Geth.Transaction}
    (hread : Reads (node.decoder block) tx o) (txs : List (Geth.Transaction × Receipt)) :
    node.encodeTx (newBlockAPI.query true) block (node.encodedOf block txs) tx =
      .ok (node.encodedOf block
        (txs ++ (o.bind fun etx => (node.listed block etx).map (etx, ·)).toList)) := by
  cases hread with
  | cosmos h hmsgs =>
    rw [encodeTx, h, Option.bind_none, Option.toList_none, List.append_nil]
    exact encodeMsg_cosmos tx _ hmsgs
  | associate h ha =>
    rw [encodeTx, h, Option.bind_none, Option.toList_none, List.append_nil]
    simp only [List.foldlM_cons, List.foldlM_nil, encodeMsg, encodeEvm, ethTx, ha]
    rfl
  | @evm msg etx h ha he =>
    have hetx : ethTx msg = .ok (some etx) := by simp only [ethTx, ha, he]; rfl
    rw [encodeTx, h, Option.bind_some]
    simp only [List.foldlM_cons, List.foldlM_nil, encodeMsg, encodeEvm_eq hetx]
    rfl

theorem foldlM_encodeTx (hmix : ∀ tx ∈ txs, Reads (node.decoder block) tx (node.evmTx block tx))
    (done : List (Geth.Transaction × Receipt)) :
    txs.foldlM (node.encodeTx (newBlockAPI.query true) block) (node.encodedOf block done) =
      .ok (node.encodedOf block (done ++ txs.filterMap fun tx =>
        (node.evmTx block tx).bind fun etx => (node.listed block etx).map (etx, ·))) := by
  induction txs generalizing done with
  | nil =>
    rw [List.filterMap_nil, List.append_nil]
    rfl
  | cons tx txs ih =>
    obtain ⟨hread, hmix⟩ := List.forall_mem_cons.mp hmix
    rw [List.foldlM_cons, encodeTx_encodedOf hread]
    refine (ih hmix _).trans ?_
    rw [List.append_assoc, List.filterMap_cons]
    cases (node.evmTx block tx).bind fun etx => (node.listed block etx).map (etx, ·) with
    | none => rfl
    | some e => rfl

theorem encodeTmBlock_eq (hmix : node.Mixed block) :
    ∃ b, node.encodeTmBlock (newBlockAPI.query true) block = .ok b ∧
      b.transactions = (node.encodedOf block (node.listedTxs block)).transactions := by
  have hloop := foldlM_encodeTx (fun tx htx => hmix.reads htx) []
  rw [List.nil_append, ← List.filterMap_filterMap] at hloop
  exact ⟨_, bind_eq_ok.mpr ⟨_, hloop, rfl⟩, rfl⟩

/-! ### Lookups -/

theorem txAtFrom_eq (hmix : ∀ tx ∈ txs, Reads (node.decoder block) tx (node.evmTx block tx))
    (hetx : (txs.filterMap (node.evmTx block))[k]? = some etx)
    (hr : node.getReceipt (node.ethHash etx) = .ok r) (evmCount : Nat) :
    node.txAtFrom (node.decoder block) block (evmCount + k) evmCount txs =
      .ok (some (newRPCTransaction block etx (evmCount + k)
        (node.baseFeePerGas r.blockNumber.toInt64))) := by
  induction txs generalizing k evmCount with
  | nil => cases hetx
  | cons tx txs ih =>
    obtain ⟨hread, hmix⟩ := List.forall_mem_cons.mp hmix
    refine bind_eq_ok.mpr
      ⟨_, Fallible.ofOutcome_eq_ok.mpr hread.getEthTxForTxBz_eq, ?_⟩
    cases he : node.evmTx block tx with
    | none =>
      rw [List.filterMap_cons_none he] at hetx
      exact ih hmix hetx evmCount
    | some e =>
      rw [List.filterMap_cons_some he] at hetx
      cases k with
      | zero =>
        cases hetx
        simp only [Nat.add_zero, if_true]
        exact bind_eq_ok.mpr ⟨r, by rw [hr]; rfl, rfl⟩
      | succ k =>
        have hnext : evmCount + (k + 1) = evmCount + 1 + k := by omega
        have hne : ¬ evmCount = evmCount + (k + 1) := by omega
        simp only [if_neg hne]
        rw [hnext]
        exact ih hmix hetx (evmCount + 1)

theorem txByHashFrom_eq (hmix : ∀ tx ∈ txs, Reads (node.decoder block) tx (node.evmTx block tx))
    (hetx : (txs.filterMap (node.evmTx block))[k]? = some etx)
    (hfirst : ∀ (j : Nat) e, (txs.filterMap (node.evmTx block))[j]? = some e →
      node.ethHash e = node.ethHash etx → k ≤ j) (baseFeePerGas : ℤ) (evmIndex : Nat) :
    node.txByHashFrom (node.decoder block) block (node.ethHash etx) baseFeePerGas evmIndex txs =
      .ok (some (newRPCTransaction block etx (evmIndex + k) baseFeePerGas)) := by
  induction txs generalizing k evmIndex with
  | nil => cases hetx
  | cons tx txs ih =>
    obtain ⟨hread, hmix⟩ := List.forall_mem_cons.mp hmix
    refine bind_eq_ok.mpr
      ⟨_, Fallible.ofOutcome_eq_ok.mpr hread.getEthTxForTxBz_eq, ?_⟩
    cases he : node.evmTx block tx with
    | none =>
      rw [List.filterMap_cons_none he] at hetx hfirst
      exact ih hmix hetx hfirst evmIndex
    | some e =>
      rw [List.filterMap_cons_some he] at hetx hfirst
      cases k with
      | zero =>
        cases hetx
        simp only [if_true]
        rfl
      | succ k =>
        have hne : ¬ node.ethHash e = node.ethHash etx := fun h => by
          have := hfirst 0 e rfl h
          omega
        have hnext : evmIndex + (k + 1) = evmIndex + 1 + k := by omega
        simp only [if_neg hne]
        rw [hnext]
        exact ih hmix hetx
          (fun j e' hj h => Nat.le_of_succ_le_succ (hfirst (j + 1) e' hj h)) (evmIndex + 1)

/-! ### The five indices -/

structure TxIndexAgrees (node : Node) (block : ResultBlock) (etx : Geth.Transaction) (n : Nat) :
    Prop where
  receipt : ∃ r, node.getTransactionReceipt (node.ethHash etx) none false = .ok (some r) ∧
    r.transactionIndex = n
  blockReceipts : ∃ rs, node.getBlockReceipts newBlockAPI block = .ok rs ∧
    (∃ r ∈ rs, r.transactionHash = node.ethHash etx) ∧
    ∀ r ∈ rs, r.transactionHash = node.ethHash etx → r.transactionIndex = n
  fullBlock : ∃ b, node.encodeTmBlock (newBlockAPI.query true) block = .ok b ∧
    (∃ t, BlockTx.evm t ∈ b.transactions ∧ node.ethHash t.etx = node.ethHash etx) ∧
    ∀ t, BlockTx.evm t ∈ b.transactions → node.ethHash t.etx = node.ethHash etx →
      t.transactionIndex = n
  byHash : ∃ t, node.getTransactionByHash (node.ethHash etx) = .ok (some (.committed t)) ∧
    t.transactionIndex = n
  logs : ∀ crit, ∃ logs, node.getLogsForBlockPooled false block crit = .ok logs ∧
    ∀ log ∈ logs, log.txHash = node.ethHash etx → log.txIndex = n
  byIndex : ∃ t, node.getTransactionWithBlock block n = .ok (some t) ∧ t.etx = etx

structure ListedThrough (node : Node) (block : ResultBlock) (k : Nat) (etx : Geth.Transaction) :
    Prop where
  confirmed : node.unconfirmed (node.ethHash etx) = .ok none
  listed : ∀ j ≤ k, ∀ e, (node.evmTxs block)[j]? = some e → node.listed block e ≠ none
  once : ∀ j e, (node.evmTxs block)[j]? = some e → node.ethHash e = node.ethHash etx → j = k

def listing (node : Node) (block : ResultBlock) : List (Hash × Nat) :=
  ((node.evmTxs block).filterMap fun etx =>
    (node.listed block etx).map fun _ => node.ethHash etx).zipIdx

def listedBefore (node : Node) (block : ResultBlock) (k : Nat) : Nat :=
  ((node.evmTxs block).take k).countP fun etx => (node.listed block etx).isSome

theorem mem_listing :
    (h, n) ∈ node.listing block ↔ ∃ j etx, (node.evmTxs block)[j]? = some etx ∧
      node.listed block etx ≠ none ∧ node.ethHash etx = h ∧ node.listedBefore block j = n := by
  rw [listing, List.mem_zipIdx_iff_getElem?, getElem?_filterMap_iff]
  refine exists_congr fun j => exists_congr fun etx => and_congr_right fun _ => ?_
  rw [List.length_filterMap_eq_countP, Option.map_eq_some_iff]
  simp only [Option.isSome_map, listedBefore, ← and_assoc]
  refine and_congr_left fun _ => ?_
  constructor
  · rintro ⟨r, hr, e⟩
    exact ⟨hr ▸ Option.some_ne_none r, e⟩
  · rintro ⟨hlisted, e⟩
    obtain ⟨r, hr⟩ := Option.ne_none_iff_exists'.mp hlisted
    exact ⟨r, hr, e⟩

theorem getBlockReceipts_listing (hmix : node.Mixed block)
    (hblock : node.blockByNumber block.height = .ok block) :
    ∃ rs, node.getBlockReceipts newBlockAPI block = .ok rs ∧
      rs.map (fun r => (r.transactionHash, r.transactionIndex)) = node.listing block := by
  refine ⟨_, getBlockReceipts_eq hmix hblock, ?_⟩
  have hhashes : ((node.evmTxs block).filterMap (node.listedReceipt block)).map
      (fun r => r.transactionHash) = (node.evmTxs block).filterMap fun etx =>
        (node.listed block etx).map fun _ => node.ethHash etx := by
    rw [List.map_filterMap]
    refine List.filterMap_congr fun etx _ => ?_
    rcases listedReceipt_cases hmix hblock etx with ⟨hnone, hnone'⟩ | ⟨r, rr, hr, hrr, hhash⟩
    · rw [hnone, hnone']
      rfl
    · rw [hr, hrr, Option.map_some, Option.map_some, hhash]
  rw [listing, ← hhashes, List.zipIdx_map, renumber, List.map_map]
  rfl

theorem encodeTmBlock_listing (hmix : node.Mixed block) :
    ∃ b, node.encodeTmBlock (newBlockAPI.query true) block = .ok b ∧
      ∀ h n, (∃ t, BlockTx.evm t ∈ b.transactions ∧ node.ethHash t.etx = h ∧
        t.transactionIndex = n) ↔ (h, n) ∈ node.listing block := by
  obtain ⟨b, hb, htxs⟩ := encodeTmBlock_eq hmix
  refine ⟨b, hb, fun h n => ?_⟩
  have hhashes : (node.listedTxs block).map (fun e => node.ethHash e.1) =
      (node.evmTxs block).filterMap fun etx =>
        (node.listed block etx).map fun _ => node.ethHash etx := by
    rw [listedTxs, List.map_filterMap]
    refine List.filterMap_congr fun etx _ => ?_
    rw [Option.map_map]
    rfl
  rw [listing, ← hhashes, List.zipIdx_map, List.mem_map, htxs]
  constructor
  · rintro ⟨t, ht, rfl, rfl⟩
    obtain ⟨e, he, ht⟩ := List.mem_map.mp ht
    cases ht
    exact ⟨e, he, rfl⟩
  · rintro ⟨e, he, heq⟩
    cases heq
    exact ⟨_, List.mem_map.mpr ⟨e, he, rfl⟩, rfl, rfl⟩

theorem listedBefore_lt {j : Nat} (hjk : j < k) (hj : (node.evmTxs block)[j]? = some etx)
    (hlisted : node.listed block etx ≠ none) :
    node.listedBefore block j < node.listedBefore block k := by
  have hle : node.listedBefore block (j + 1) ≤ node.listedBefore block k :=
    (List.take_sublist_take_left hjk).countP_le
  have hnext : node.listedBefore block (j + 1) = node.listedBefore block j + 1 := by
    rw [listedBefore, List.take_add_one, hj, Option.toList_some, List.countP_append,
      List.countP_singleton, if_pos (Option.isSome_iff_ne_none.mpr hlisted), listedBefore]
  omega

def OneIndex (entries : List (Hash × Nat)) (h : Hash) (n : Nat) : Prop :=
  (∃ m, (h, m) ∈ entries) ∧ ∀ m, (h, m) ∈ entries → m = n

theorem oneIndex_listing_iff (hk : (node.evmTxs block)[k]? = some etx) :
    OneIndex (node.listing block) (node.ethHash etx) n ↔ node.listed block etx ≠ none ∧
      (∀ (j : Nat) e, (node.evmTxs block)[j]? = some e → node.ethHash e = node.ethHash etx →
        j = k) ∧ node.listedBefore block k = n := by
  constructor
  · rintro ⟨⟨m, hm⟩, hall⟩
    obtain ⟨j, e, -, hlisted, hhash, -⟩ := mem_listing.mp hm
    rw [listed_congr hhash] at hlisted
    have hbefore : ∀ (j : Nat) e, (node.evmTxs block)[j]? = some e →
        node.ethHash e = node.ethHash etx → node.listedBefore block j = n := fun j e hj hhash =>
      hall _ (mem_listing.mpr ⟨j, e, hj, listed_congr hhash ▸ hlisted, hhash, rfl⟩)
    refine ⟨hlisted, fun j e hj hhash => ?_, hbefore k etx hk rfl⟩
    have heq := (hbefore j e hj hhash).trans (hbefore k etx hk rfl).symm
    -- a second position with the hash would be listed too, with another index
    rcases Nat.lt_trichotomy j k with hlt | rfl | hlt
    · have := listedBefore_lt hlt hj (listed_congr hhash ▸ hlisted)
      omega
    · rfl
    · have := listedBefore_lt hlt hk hlisted
      omega
  · rintro ⟨hlisted, honce, rfl⟩
    refine ⟨⟨_, mem_listing.mpr ⟨k, etx, hk, hlisted, rfl, rfl⟩⟩, fun m hm => ?_⟩
    obtain ⟨j, e, hj, -, hhash, rfl⟩ := mem_listing.mp hm
    rw [honce j e hj hhash]

theorem oneIndex_iff {α : Type} {P : α → Prop} {hash : α → Hash} {index : α → Nat}
    {entries : List (Hash × Nat)}
    (hentries : ∀ h n, (∃ x, P x ∧ hash x = h ∧ index x = n) ↔ (h, n) ∈ entries) :
    OneIndex entries h n ↔
      (∃ x, P x ∧ hash x = h) ∧ ∀ x, P x → hash x = h → index x = n := by
  constructor
  · rintro ⟨⟨m, hm⟩, hall⟩
    obtain ⟨x, hx, hhash, -⟩ := (hentries h m).mpr hm
    exact ⟨⟨x, hx, hhash⟩, fun y hy hhash' => hall _ ((hentries h _).mp ⟨y, hy, hhash', rfl⟩)⟩
  · rintro ⟨⟨x, hx, hhash⟩, hall⟩
    refine ⟨⟨_, (hentries h _).mp ⟨x, hx, hhash, rfl⟩⟩, fun m hm => ?_⟩
    obtain ⟨y, hy, hhash', rfl⟩ := (hentries h m).mpr hm
    exact hall y hy hhash'

theorem blockReceipts_iff (hmix : node.Mixed block)
    (hblock : node.blockByNumber block.height = .ok block) :
    (∃ rs, node.getBlockReceipts newBlockAPI block = .ok rs ∧
      (∃ r ∈ rs, r.transactionHash = h) ∧
      ∀ r ∈ rs, r.transactionHash = h → r.transactionIndex = n) ↔
      OneIndex (node.listing block) h n := by
  obtain ⟨rs, hrs, hlisting⟩ := getBlockReceipts_listing hmix hblock
  have hentries : ∀ h n, (∃ r, r ∈ rs ∧ r.transactionHash = h ∧ r.transactionIndex = n) ↔
      (h, n) ∈ node.listing block := by
    intro h n
    rw [← hlisting, List.mem_map]
    simp only [Prod.mk.injEq]
  rw [oneIndex_iff hentries, hrs]
  constructor
  · rintro ⟨_, e, hall⟩
    cases e
    exact hall
  · exact fun hall => ⟨rs, rfl, hall⟩

theorem fullBlock_iff (hmix : node.Mixed block) :
    (∃ b, node.encodeTmBlock (newBlockAPI.query true) block = .ok b ∧
      (∃ t, BlockTx.evm t ∈ b.transactions ∧ node.ethHash t.etx = h) ∧
      ∀ t, BlockTx.evm t ∈ b.transactions → node.ethHash t.etx = h → t.transactionIndex = n) ↔
      OneIndex (node.listing block) h n := by
  obtain ⟨b, hb, hlisting⟩ := encodeTmBlock_listing hmix
  rw [oneIndex_iff hlisting, hb]
  constructor
  · rintro ⟨_, e, hall⟩
    cases e
    exact hall
  · exact fun hall => ⟨b, rfl, hall⟩

theorem unconfirmed_of_committed {t : RPCTransaction}
    (ht : node.getTransactionByHash h = .ok (some (.committed t))) :
    node.unconfirmed h = .ok none := by
  obtain ⟨o, ho, hrest⟩ := bind_eq_ok.mp ht
  cases o with
  | none => exact Fallible.ofOutcome_eq_ok.mp ho
  | some etx =>
    obtain ⟨sender, -, hsender⟩ := bind_eq_ok.mp hrest
    cases hsender

theorem getTransactionByHash_eq (hmix : node.Mixed block)
    (hblock : node.blockByNumber block.height = .ok block) (hk : (node.evmTxs block)[k]? = some etx)
    (honce : ∀ (j : Nat) e, (node.evmTxs block)[j]? = some e →
      node.ethHash e = node.ethHash etx → j = k)
    (hconfirmed : node.unconfirmed (node.ethHash etx) = .ok none)
    (hr : node.getReceipt (node.ethHash etx) = .ok r)
    (hnum : r.blockNumber.toInt64 = block.height) :
    ∃ t, node.getTransactionByHash (node.ethHash etx) = .ok (some (.committed t)) ∧
      t.transactionIndex = k := by
  have hfound := txByHashFrom_eq (fun tx htx => hmix.reads htx) hk
    (fun j e hj h => (honce j e hj h).ge) (node.baseFeePerGas block.height) 0
  rw [Nat.zero_add] at hfound
  have hblock' : ofErr (node.blockByNumber r.blockNumber.toInt64) = .ok block := by
    rw [hnum, ofErr, hblock]
    rfl
  have hfrom : node.getTransactionByHashFromBlock (node.ethHash etx) r =
      .ok (some (newRPCTransaction block etx k (node.baseFeePerGas block.height))) := by
    refine bind_eq_ok.mpr ⟨block, hblock', ?_⟩
    rw [hnum]
    exact hfound
  refine ⟨newRPCTransaction block etx k (node.baseFeePerGas block.height),
    bind_eq_ok.mpr ⟨_, Fallible.ofOutcome_eq_ok.mpr hconfirmed, ?_⟩, rfl⟩
  simp only [hr]
  exact bind_eq_ok.mpr ⟨_, hfrom, rfl⟩

theorem collected_of_listed (h : node.listed block etx = some r) :
    node.collected false (node.ethHash etx) = some r := by
  obtain ⟨hr, -, hante, hshell⟩ := listed_eq_some.mp h
  rw [collected, receipt?_eq_some.mpr hr]
  refine Option.filter_some_pos ?_
  rw [isReceiptFromAnteError] at hante
  simp [hante, hshell]

theorem logs_txIndex (hmix : node.Mixed block) (hk : (node.evmTxs block)[k]? = some etx)
    (h : node.ListedThrough block k etx) (crit : FilterCriteria) :
    ∃ logs, node.getLogsForBlockPooled false block crit = .ok logs ∧
      ∀ log ∈ logs, log.txHash = node.ethHash etx → log.txIndex = k := by
  obtain ⟨logs, hlogs, hmem⟩ := mem_getLogsForBlockPooled hmix crit
  refine ⟨logs, hlogs, fun log hlog hhash => ?_⟩
  obtain ⟨⟨j, e, r, hj, hr, hlog⟩, -⟩ := (hmem log).mp hlog
  obtain ⟨hhash', hindex, -⟩ := mem_reportedLogs hlog
  have hsame : node.ethHash e = node.ethHash etx := by
    rw [← hhash, hhash', node.receipt_hash (collected_eq_some hr)]
  cases h.once j e hj hsame
  rw [hindex]
  refine (countP_take_eq_iff (List.getElem?_eq_some_iff.mp hk).1.le).mpr fun i hi e' he' => ?_
  obtain ⟨r', hr'⟩ := Option.ne_none_iff_exists'.mp (h.listed i hi.le e' he')
  rw [collected_of_listed hr']
  rfl

theorem getTransactionReceipt_index (hmix : node.Mixed block)
    (hblock : node.blockByNumber block.height = .ok block)
    (honce : ∀ (j : Nat) e, (node.evmTxs block)[j]? = some e →
      node.ethHash e = node.ethHash etx → j = k) (hr : node.getReceipt (node.ethHash etx) = .ok r)
    (hnum : r.blockNumber.toInt64 = block.height) :
    ∃ rr, node.getTransactionReceipt (node.ethHash etx) none false = .ok (some rr) ∧
      rr.transactionIndex = k := by
  obtain ⟨rr, hrr, hindex, -⟩ := getTransactionReceipt_eq hmix hblock hr hnum
  obtain ⟨tx, etx', htx, hetx, hhash⟩ := receipt_evmTx hmix hblock hr hnum
  exact ⟨rr, hrr, hindex.trans (honce _ _ (getElem?_rank htx hetx) hhash)⟩

end Node

/-- **One index for a transaction.**  In a block with any mix of transactions, the handlers agree on
the index of an EVM transaction, and the lookup by that index finds it, exactly when the block lists
this transaction and every EVM transaction before it, no other one has its hash, and it has left
the mempool. -/
theorem txIndex_agrees_iff {node : Node} {block : ResultBlock}
    (hblock : node.blockByNumber block.height = .ok block) (hmix : node.Mixed block) {k : Nat}
    {etx : Geth.Transaction} (hk : (node.evmTxs block)[k]? = some etx) :
    (∃ n, node.TxIndexAgrees block etx n) ↔ node.ListedThrough block k etx := by
  have hlen : k ≤ (node.evmTxs block).length := (List.getElem?_eq_some_iff.mp hk).1.le
  have hheight : ∀ {r}, node.listed block etx = some r → r.blockNumber.toInt64 = block.height :=
    fun h => Node.height_of_blockNumber (Node.listed_eq_some.mp h).2.1
  constructor
  · rintro ⟨n, h⟩
    obtain ⟨hlisted, honce, hbefore⟩ := (Node.oneIndex_listing_iff hk).mp
      ((Node.blockReceipts_iff hmix hblock).mp h.blockReceipts)
    obtain ⟨r, hr⟩ := Option.ne_none_iff_exists'.mp hlisted
    -- the receipt counts all EVM transactions, so as many are listed as there are
    obtain ⟨rr, hrr, hindex⟩ := Node.getTransactionReceipt_index hmix hblock honce
      (Node.listed_eq_some.mp hr).1 (hheight hr)
    obtain ⟨rr', hrr', rfl⟩ := h.receipt
    rw [hrr] at hrr'
    cases hrr'
    rw [hindex] at hbefore
    obtain ⟨t, ht, -⟩ := h.byHash
    refine ⟨Node.unconfirmed_of_committed ht, fun j hj e he => ?_, honce⟩
    rcases Nat.lt_or_eq_of_le hj with hlt | rfl
    · exact Option.isSome_iff_ne_none.mp ((countP_take_eq_iff hlen).mp hbefore j hlt e he)
    · rw [hk] at he
      cases he
      exact hlisted
  · intro h
    have hlisted := h.listed k le_rfl etx hk
    obtain ⟨r, hr⟩ := Option.ne_none_iff_exists'.mp hlisted
    have hreceipt := (Node.listed_eq_some.mp hr).1
    have hbefore : node.listedBefore block k = k := (countP_take_eq_iff hlen).mpr
      fun j hj e he => Option.isSome_iff_ne_none.mpr (h.listed j hj.le e he)
    have hone := (Node.oneIndex_listing_iff hk).mpr ⟨hlisted, h.once, hbefore⟩
    have hat := Node.txAtFrom_eq (fun tx htx => hmix.reads htx) hk hreceipt 0
    rw [Nat.zero_add] at hat
    exact ⟨k, Node.getTransactionReceipt_index hmix hblock h.once hreceipt (hheight hr),
      (Node.blockReceipts_iff hmix hblock).mpr hone, (Node.fullBlock_iff hmix).mpr hone,
      Node.getTransactionByHash_eq hmix hblock hk h.once h.confirmed hreceipt (hheight hr),
      Node.logs_txIndex hmix hk h, _, hat, rfl⟩

theorem Node.listed_of_paid {node : Node} {block : ResultBlock} {etx : Geth.Transaction}
    {r : Receipt} (hr : node.getReceipt (node.ethHash etx) = .ok r) {height : UInt64}
    {index : UInt32} (hpaid : Paid height index r) :
    node.listed block etx = if height = block.height.toUInt64 then some r else none := by
  have hlists : (newBlockAPI.query true).lists block r =
      decide (height = block.height.toUInt64) := by
    rw [Bool.eq_iff_iff, lists_iff, hpaid.blockNumber, hpaid.txType, isReceiptFromAnteError,
      hpaid.effectiveGasPrice, decide_eq_true_iff]
    exact and_iff_left (by decide)
  rw [listed, receipt?_eq_some.mpr hr, Option.filter_some, hlists]
  simp only [decide_eq_true_iff]

theorem txIndex_agrees_retried : ∃ c : Chain AccAddress ℤ, Retried c.node ∧
    ∃ n, c.node.TxIndexAgrees secondResult (creationTx 0) n := by
  obtain ⟨c, h⟩ := exists_retried
  obtain ⟨r, hr, hpaid⟩ := h.receipt
  have hk : (c.node.evmTxs secondResult)[0]? = some (creationTx 0) := by rw [h.evmTxs_second]; rfl
  refine ⟨c, h, (txIndex_agrees_iff h.second h.mixed_second hk).mpr ⟨h.unconfirmed_eq _, ?_, ?_⟩⟩
  · intro j hj e he
    cases Nat.le_zero.mp hj
    rw [hk] at he
    cases he
    rw [Node.listed_of_paid hr hpaid]
    exact Option.some_ne_none r
  · intro j e he _
    rw [h.evmTxs_second] at he
    exact Nat.lt_one_iff.mp (List.getElem?_eq_some_iff.mp he).1

theorem txIndex_differs_retried : ∃ c : Chain AccAddress ℤ, Retried c.node ∧
    c.node.Mixed firstResult ∧ (c.node.evmTxs firstResult)[1]? = some (creationTx 1) ∧
    (∃ rr, c.node.getTransactionReceipt (c.node.ethHash (creationTx 1)) none false = .ok (some rr) ∧
      rr.transactionIndex = 1) ∧
    (∃ rs, c.node.getBlockReceipts Node.newBlockAPI firstResult = .ok rs ∧ ∃ rr ∈ rs,
      rr.transactionHash = c.node.ethHash (creationTx 1) ∧ rr.transactionIndex = 0) ∧
    ¬ ∃ n, c.node.TxIndexAgrees firstResult (creationTx 1) n := by
  obtain ⟨c, h⟩ := exists_retried
  obtain ⟨r, hr, hpaid⟩ := h.receipt
  obtain ⟨r', hr', hpaid'⟩ := h.other
  have hk : (c.node.evmTxs firstResult)[1]? = some (creationTx 1) := by rw [h.evmTxs_first]; rfl
  obtain ⟨rr, hrr, hindex, -⟩ := Node.getTransactionReceipt_eq h.mixed_first h.first hr'
    (by rw [hpaid'.blockNumber]; rfl)
  have hone : rr.transactionIndex = 1 := by
    rw [hindex, hpaid'.transactionIndex]
    exact h.rank_first
  have hlisting : (c.node.ethHash (creationTx 1), 0) ∈ c.node.listing firstResult := by
    refine Node.mem_listing.mpr ⟨1, _, hk, ?_, rfl, ?_⟩
    · rw [Node.listed_of_paid hr' hpaid']
      exact Option.some_ne_none r'
    · rw [Node.listedBefore, h.evmTxs_first, show [creationTx 0, creationTx 1].take 1 =
        [creationTx 0] from rfl, List.countP_singleton, Node.listed_of_paid hr hpaid]
      rfl
  obtain ⟨rs, hrs, hmap⟩ := Node.getBlockReceipts_listing h.mixed_first h.first
  rw [← hmap] at hlisting
  obtain ⟨rr', hmem, heq⟩ := List.mem_map.mp hlisting
  obtain ⟨hhash, hzero⟩ := Prod.mk.inj heq
  refine ⟨c, h, h.mixed_first, hk, ⟨rr, hrr, hone⟩, ⟨rs, hrs, rr', hmem, hhash, hzero⟩, ?_⟩
  rintro ⟨n, hagrees⟩
  obtain ⟨_, hrr₂, hn⟩ := hagrees.receipt
  obtain ⟨_, hrs₂, -, hall⟩ := hagrees.blockReceipts
  rw [hrr] at hrr₂
  rw [hrs] at hrs₂
  cases hrr₂
  cases hrs₂
  have := hall rr' hmem hhash
  omega

end Tabi.Rpc
