import Tabi.Receipts.Immutable

/-!
# Receipts — what a receipt names

A receipt names a transaction three times: by hash, by the height of its block and by its index
there (`subject`).
-/

namespace Tabi.Receipts

open Support StateDB Synthetic

variable {β γ : Type} {geth : Geth} {cdc : Codec} {k : Keepers β γ} {sorter : SortSlice} {tx : Tx}

def subject (r : Receipt) : Hash × UInt64 × UInt32 := (r.txHash, r.blockNumber, r.transactionIndex)

def subjectOf (tx : Tx) : Hash × UInt64 × UInt32 :=
  (hashOf tx, tx.blockHeight, .ofNat tx.txIndex.toNat)

structure WrittenFor (tx : Tx) (r : Receipt) : Prop where
  names : subject r = subjectOf tx
  priced : r.effectiveGasPrice ≠ 0 → tx.evmTxHash ≠ none ∧ r.txType ≠ shellEVMTxType

structure Continues (r₀ r : Receipt) : Prop where
  names : subject r = subject r₀
  effectiveGasPrice : r.effectiveGasPrice = r₀.effectiveGasPrice
  txType : r.txType = r₀.txType

theorem Continues.refl (r : Receipt) : Continues r r := ⟨rfl, rfl, rfl⟩

variable {r : Receipt} {t t' : Transient} {txHash : Hash} {xs : List Included} {b : Block}
  {a a' : Archive}

theorem WrittenFor.continues {r₀ : Receipt} (h : WrittenFor tx r₀) (hc : Continues r₀ r) :
    WrittenFor tx r := by
  refine ⟨hc.names.trans h.names, fun hprice => ?_⟩
  rw [hc.effectiveGasPrice] at hprice
  rw [hc.txType]
  exact h.priced hprice

theorem toUInt32_ne_shellEVMTxType (txType : UInt8) : txType.toUInt32 ≠ shellEVMTxType := by
  intro h
  have hlt := UInt8.toNat_lt txType
  have htoNat := congrArg UInt32.toNat h
  rw [UInt8.toNat_toUInt32] at htoNat
  rw [htoNat] at hlt
  exact absurd hlt (by decide)

theorem hooked_writes (hcdc : RoundTrips cdc) (h : @Hooked β γ geth cdc tx t t')
    (hr : getTransientReceipt cdc t' (hashOf tx) = some r) :
    WrittenFor tx r ∨ ∃ r₀, getTransientReceipt cdc t (hashOf tx) = some r₀ ∧ Continues r₀ r := by
  rcases hooked_cases h with rfl | ⟨env, logs, -, -, hrecord⟩
  · exact .inr ⟨r, hr, .refl r⟩
  rw [(recordLogs_stored hcdc hrecord).receipt, if_pos rfl] at hr
  unfold receiptWith at hr
  split at hr
  · rename_i r₀ hr₀
    cases hr
    exact .inr ⟨r₀, hr₀, rfl, rfl, rfl⟩
  · cases hr
    exact .inl ⟨rfl, fun hprice => absurd rfl hprice⟩

theorem messages_writes (hcdc : RoundTrips cdc) (hash : hashOf tx = tx.checksum)
    (h : Messages geth cdc k tx t t') (hr : getTransientReceipt cdc t' (hashOf tx) = some r) :
    WrittenFor tx r ∨ getTransientReceipt cdc t (hashOf tx) = some r := by
  induction h with
  | refl t => exact .inr hr
  | call call _ ih =>
    rcases ih hr with hwritten | hr
    · exact .inl hwritten
    obtain ⟨-, -, hcall⟩ := call
    obtain ⟨logs, x, hs, -, hfree⟩ := recordCall_stored hcdc hcall
    rw [hs.receipt, if_pos hash] at hr
    cases hr
    refine .inl ⟨congrArg (·, _) hash.symm, fun hprice => absurd ?_ hprice⟩
    rw [receiptOf, hfree]
    rfl

theorem transacts_writes (hcdc : RoundTrips cdc) (hash : tx.evmTxHash = some txHash)
    (h : Transacts geth cdc k tx txHash t t') (hr : getTransientReceipt cdc t' (hashOf tx) = some r)
    : WrittenFor tx r := by
  obtain ⟨-, -, hrecord⟩ := h
  obtain ⟨logs, x, t₁, hs, -⟩ := recordTransaction_stored hcdc hrecord
  rw [hs.receipt, if_pos (hashOf_evm hash)] at hr
  cases hr
  exact ⟨congrArg (·, _) (hashOf_evm hash).symm, fun _ =>
    ⟨hash ▸ Option.some_ne_none txHash, toUInt32_ne_shellEVMTxType x.txType⟩⟩

theorem succeeds_writes (hcdc : RoundTrips cdc) (h : Succeeds geth cdc k tx t t')
    (hr : getTransientReceipt cdc t' (hashOf tx) = some r) :
    WrittenFor tx r ∨ ∃ r₀, getTransientReceipt cdc t (hashOf tx) = some r₀ ∧ Continues r₀ r := by
  cases h with
  | evm hash transacts hook =>
    rcases hooked_writes hcdc hook hr with hwritten | ⟨r₁, hr₁, hcont⟩
    · exact .inl hwritten
    · exact .inl ((transacts_writes hcdc hash transacts hr₁).continues hcont)
  | cosmos hash messages hook =>
    rcases hooked_writes hcdc hook hr with hwritten | ⟨r₁, hr₁, hcont⟩
    · exact .inl hwritten
    rcases messages_writes hcdc (hashOf_cosmos hash) messages hr₁ with hwritten₁ | hr₀
    · exact .inl (hwritten₁.continues hcont)
    · exact .inr ⟨r₁, hr₀, hcont⟩
  | associate _ => exact .inr ⟨r, hr, .refl r⟩

theorem executes_receipts (hcdc : RoundTrips cdc) (hbloom : geth.ReadsTopics)
    {P : Hash → Receipt → Prop} (h : Executes geth cdc k xs t t')
    (hxs : ∀ x ∈ xs, ∀ {t t' : Transient}, Succeeds geth cdc k x.tx t t' →
      (∀ r₀, getTransientReceipt cdc t (hashOf x.tx) = some r₀ → P (hashOf x.tx) r₀) →
      ∀ r, getTransientReceipt cdc t' (hashOf x.tx) = some r → P (hashOf x.tx) r)
    (ht : ∀ h r, getTransientReceipt cdc t h = some r → P h r) :
    ∀ h r, getTransientReceipt cdc t' h = some r → P h r := by
  induction h with
  | nil t => exact ht
  | @cons x xs t t₁ t₂ hx _ ih =>
    obtain ⟨hown, hxs⟩ := List.forall_mem_cons.mp hxs
    refine ih hxs fun a r hr => ?_
    cases hx with
    | failed _ s => exact ht a r hr
    | succeeded _ s h =>
      by_cases e : a = hashOf x.tx
      · subst e
        exact hown h (ht _) r hr
      · rcases (succeeds_effects hcdc hbloom h).others a e with hsame | hnone
        · exact ht a r (hsame.symm.trans hr)
        · rw [hnone] at hr
          cases hr

theorem executes_sound (hcdc : RoundTrips cdc) (hbloom : geth.ReadsTopics)
    (h : Executes geth cdc k xs noTransient t) :
    ∀ h r, getTransientReceipt cdc t h = some r → Sound geth r := by
  refine executes_receipts hcdc hbloom h (fun x _ _ _ hx hold r hr => ?_) nofun
  rcases (succeeds_effects hcdc hbloom hx).own with hsame | ⟨r', d, hr', hsound, -⟩
  · rw [hsame] at hr
    exact hold r hr
  · cases hr.symm.trans hr'
    exact hsound

theorem executes_written (hcdc : RoundTrips cdc) (hbloom : geth.ReadsTopics)
    {P : Hash → Receipt → Prop} (hcont : ∀ {h r₀ r}, Continues r₀ r → P h r₀ → P h r)
    (h : Executes geth cdc k xs noTransient t)
    (hxs : ∀ x ∈ xs, ∀ r, WrittenFor x.tx r → P (hashOf x.tx) r) :
    ∀ h r, getTransientReceipt cdc t h = some r → P h r := by
  refine executes_receipts hcdc hbloom h (fun x hmem _ _ hx hold r hr => ?_) nofun
  rcases succeeds_writes hcdc hx hr with hwritten | ⟨r₀, hr₀, hc⟩
  · exact hxs x hmem r hwritten
  · exact hcont hc (hold r₀ hr₀)

structure Block.Timed (b : Block) : Prop where
  height : ∀ x ∈ b.txs, x.tx.blockHeight = b.blockHeight
  fits : b.txs.length ≤ 2 ^ 32

structure Block.Named (b : Block) (h : Hash) (r : Receipt) : Prop where
  txHash : r.txHash = h
  blockNumber : r.blockNumber = b.blockHeight
  tx : ∃ x, b.txs[r.transactionIndex.toNat]? = some x ∧ hashOf x.tx = h

def Logged (geth : Geth) (r : Receipt) : Prop := Sound geth r ∨ r.logs = [] ∧ r.logsBloom = []

theorem Logged.withGas (h : Logged geth r) (gas : UInt64) :
    Logged geth { r with cumulativeGasUsed := gas } :=
  h.imp (fun hsound => ⟨hsound.numbered, hsound.bloom⟩) id

theorem Block.Named.congr {h : Hash} {r' : Receipt} (hnamed : b.Named h r)
    (hsubject : subject r' = subject r) : b.Named h r' := by
  obtain ⟨hhash, hrest⟩ := Prod.mk.inj hsubject
  obtain ⟨hnum, hindex⟩ := Prod.mk.inj hrest
  exact ⟨hhash.trans hnamed.txHash, hnum.trans hnamed.blockNumber, hindex ▸ hnamed.tx⟩

theorem Block.Timed.toNat_ofNat (hb : b.Timed) {i : Nat} {x : Included} (hx : b.txs[i]? = some x) :
    (UInt32.ofNat i).toNat = i :=
  UInt32.toNat_ofNat_of_lt' ((List.getElem?_eq_some_iff.mp hx).1.trans_le hb.fits)

theorem Block.Timed.named_of_subjectOf (hb : b.Timed) {x : Included} (hx : x ∈ b.txs)
    (hsubject : subject r = subjectOf x.tx) : b.Named (hashOf x.tx) r := by
  obtain ⟨i, hi⟩ := List.mem_iff_getElem?.mp hx
  obtain ⟨hhash, hrest⟩ := Prod.mk.inj hsubject
  obtain ⟨hnum, hindex⟩ := Prod.mk.inj hrest
  refine ⟨hhash, hnum.trans (hb.height x hx), x, ?_, rfl⟩
  rw [hindex, b.index i x hi, hb.toNat_ofNat hi]
  exact hi

theorem deferredInfoAt_index (ht : Tidy cdc t) {results : List Settlement.ExecTxResult} {i : UInt64}
    {msg : Option Settlement.MsgEVMTransaction} {info : Settlement.DeferredInfo}
    (hat : Settlement.deferredInfoAt cdc.deferred t.deferred results i.toNat msg = .ok (some info))
    (herr : info.IsError) : info.txIndex = .ofNat i.toNat := by
  rcases Settlement.deferredInfoAt_cases hat with ⟨info', hstored, e⟩ |
    ⟨-, ⟨-, e⟩ | ⟨m, hash, txRes, -, -, -, e⟩⟩
  · cases e
    exact absurd (ht.infos i info hstored) herr.1
  · cases e
  · cases e
    rfl

section

variable (hcdc : RoundTrips cdc) (hbloom : geth.ReadsTopics) {b : Block} (hb : b.Timed)

include hcdc hbloom hb

theorem executes_named {t : Transient} (h : Executes geth cdc k b.order noTransient t) :
    ∀ h r, getTransientReceipt cdc t h = some r → b.Named h r :=
  executes_written hcdc hbloom (fun hc hnamed => hnamed.congr hc.names) h
    fun _ hx _ hr => hb.named_of_subjectOf (b.perm.mem_iff.mp hx) hr.names

theorem error_named {t : Transient} (hexec : Executes geth cdc k b.order noTransient t)
    {infos : List Settlement.DeferredInfo}
    (hinfos : Settlement.getAllEVMTxDeferredInfo cdc.deferred t.deferred
      (b.txs.map Included.msg) (b.txs.map fun x => ⟨x.log⟩) = .ok infos)
    {info : Settlement.DeferredInfo} (hmem : info ∈ infos) (herr : info.IsError) :
    b.Named info.hash (failureReceipt b.blockHeight info) := by
  obtain ⟨found, hfound, hinfos⟩ := bind_eq_ok.mp hinfos
  cases hinfos
  obtain ⟨⟨msg, i⟩, hentry, hat⟩ :=
    exists_of_mem_mapM hfound (List.reduceOption_mem_iff.mp hmem)
  rw [List.mem_zipIdx_iff_getElem?, List.getElem?_map] at hentry
  obtain ⟨y, hy, rfl⟩ := Option.map_eq_some_iff.mp hentry
  obtain ⟨-, hevm, -⟩ :=
    (deferredInfoAt_error_iff hcdc hbloom b hexec hy hat info.hash).mp ⟨info, rfl, herr, rfl⟩
  have hindex : info.txIndex = .ofNat i := by
    rw [← b.index i y hy] at hat ⊢
    exact deferredInfoAt_index (executes_tidy hcdc hexec noTransient_tidy) hat herr
  refine ⟨rfl, rfl, y, ?_, hashOf_evm hevm⟩
  rw [failureReceipt, hindex, hb.toNat_ofNat hy]
  exact hy

theorem closed_named {t t' : Transient} {v v' : Stores β γ}
    (hexec : Executes geth cdc k b.order noTransient t)
    (hclose : endBlock cdc k b.blockHeight v t b.txs = .ok (v', t')) {h : Hash} {r : Receipt}
    (hr : getTransientReceipt cdc t' h = some r) : b.Named h r ∧ Logged geth r := by
  obtain ⟨infos, s, hinfos, -, rfl, rfl⟩ := endBlock_eq_ok hclose
  rcases recordFailures_cases hcdc b.blockHeight infos t h with
    ⟨info, hmem, ⟨herr, rfl⟩, hget⟩ | ⟨-, hget⟩
  · cases hr.symm.trans hget
    exact ⟨error_named hcdc hbloom hb hexec hinfos hmem herr, .inr ⟨rfl, rfl⟩⟩
  · rw [hget] at hr
    exact ⟨executes_named hcdc hbloom hb hexec h r hr,
      .inl (executes_sound hcdc hbloom hexec h r hr)⟩

theorem commits_named {a a' : Archive} (h : Commits geth cdc k sorter b a a') {txHash : Hash}
    {r : Receipt} (hr : getReceipt cdc a' txHash = some r) :
    (b.Named txHash r ∧ Logged geth r) ∨ getReceipt cdc a txHash = some r := by
  obtain ⟨hexec, hclose, hflush⟩ := h
  rcases getReceipt_flush hcdc (closed_keys hcdc hexec hclose) hflush txHash with
    ⟨r', gas, hr', hread⟩ | ⟨-, hsame⟩
  · cases hr.symm.trans hread
    obtain ⟨hnamed, hlogged⟩ := closed_named hcdc hbloom hb hexec hclose hr'
    exact .inl ⟨hnamed.congr rfl, hlogged.withGas gas⟩
  · exact .inr (hsame ▸ hr)

end

theorem extends_named (hcdc : RoundTrips cdc) (hbloom : geth.ReadsTopics) {blocks : List Block}
    (h : Extends geth cdc k sorter a blocks a') (hblocks : ∀ b ∈ blocks, b.Timed)
    (hr : getReceipt cdc a' txHash = some r) :
    (∃ b ∈ blocks, b.Named txHash r ∧ Logged geth r) ∨ getReceipt cdc a txHash = some r := by
  induction h with
  | nil a => exact .inr hr
  | @cons b blocks a a₁ a₂ hb _ ih =>
    obtain ⟨htimed, hblocks⟩ := List.forall_mem_cons.mp hblocks
    rcases ih hblocks hr with ⟨b', hb', hnamed⟩ | hr₁
    · exact .inl ⟨b', List.mem_cons_of_mem _ hb', hnamed⟩
    rcases commits_named hcdc hbloom htimed hb hr₁ with hnamed | hr₀
    · exact .inl ⟨b, List.mem_cons_self, hnamed⟩
    · exact .inr hr₀

theorem extends_kept (hcdc : RoundTrips cdc) (hbloom : geth.ReadsTopics) {blocks : List Block}
    (h : Extends geth cdc k sorter a blocks a') (hblocks : ∀ b ∈ blocks, b.Timed)
    (hnone : ∀ b ∈ blocks, ∀ x ∈ b.txs, hashOf x.tx ≠ txHash) :
    getReceipt cdc a' txHash = getReceipt cdc a txHash := by
  induction h with
  | nil a => rfl
  | @cons b blocks a a₁ a₂ hb _ ih =>
    obtain ⟨htimed, hblocks⟩ := List.forall_mem_cons.mp hblocks
    obtain ⟨hnone₁, hnone⟩ := List.forall_mem_cons.mp hnone
    rw [ih hblocks hnone]
    obtain ⟨hexec, hclose, hflush⟩ := hb
    rcases getReceipt_flush hcdc (closed_keys hcdc hexec hclose) hflush txHash with
      ⟨r, gas, hr, -⟩ | ⟨-, hsame⟩
    · -- a receipt that was written names a transaction with the hash
      obtain ⟨x, hx, hash⟩ := (closed_named hcdc hbloom htimed hexec hclose hr).1.tx
      exact absurd hash (hnone₁ x (List.mem_of_getElem? hx))
    · exact hsame

end Tabi.Receipts
