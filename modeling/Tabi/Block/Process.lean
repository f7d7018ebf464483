import Tabi.Ante.Messages
import Tabi.Ante.Sender
import Tabi.Support.Scatter
import Mathlib.Data.List.Perm.Lattice

/-!
# Block — processing

`ProcessBlock` (`app/app.go`) decodes the transactions of a block, splits them into six parallel
lists, prioritized and other, runs the two groups one after the other, and writes results and EVM
messages back by index for `EndBlock`.
-/

namespace Tabi.Block

open Support Ante

/-- `sdk.DeliverTxEntry`; of a single delivery, the index of the context and the arguments of
`DeliverTx`.  The estimated write sets are left out. -/
structure DeliverTxEntry where
  tx : Bytes
  sdkTx : Option SdkTx
  checksum : FixedBytes 32
  absoluteIndex : Nat

structure ResponseDeliverTx where
  code : UInt32
  data : Bytes
  log : Bytes
  info : Bytes
  gasWanted : Int64
  gasUsed : Int64
  events : List Event
  codespace : Bytes
  evmTxInfo : Option Bytes
  deriving DecidableEq

structure ExecTxResult where
  code : UInt32
  data : Bytes
  log : Bytes
  info : Bytes
  gasWanted : Int64
  gasUsed : Int64
  events : List Event
  codespace : Bytes
  evmTxInfo : Option Bytes
  deriving DecidableEq

def execTxResult (r : ResponseDeliverTx) : ExecTxResult where
  code := r.code
  data := r.data
  log := r.log
  info := r.info
  gasWanted := r.gasWanted
  gasUsed := r.gasUsed
  events := r.events
  codespace := r.codespace
  evmTxInfo := r.evmTxInfo

structure App (σ : Type) where
  txDecoder : Bytes → Option SdkTx
  crypto : Association.Crypto
  block : Ante.Block
  sha256 : Bytes → FixedBytes 32
  occEnabled : Bool
  deliverTx : σ → DeliverTxEntry → ResponseDeliverTx × σ
  deliverTxBatch : σ → List DeliverTxEntry → List ResponseDeliverTx × σ
  beginBlock : σ → List Event × σ
  writeDeferredBalances : σ → List Event × σ
  midBlock : σ → List Event × σ
  /-- `EndBlock`, after `SetTxResults` and `SetMsgs`, with `BlockGasUsed`. -/
  endBlock : σ → List (Option ExecTxResult) → List (Option MsgEVMTransaction) → Int64 →
    List Event × σ

variable {σ : Type}

structure Run (σ : Type) where
  ctx : σ
  delivered : List DeliverTxEntry

structure Processed (σ : Type) where
  events : List Event
  txResults : List (Option ExecTxResult)
  msgs : List (Option MsgEVMTransaction)
  run : Run σ

section Code

variable (app : App σ)

/-- One transaction of `DecodeTransactionsConcurrently`; nil if it does not decode, or is an EVM
message that cannot be preprocessed. -/
def decodeTransaction (encodedTx : Bytes) : Option SdkTx :=
  match app.txDecoder encodedTx with
  | none => none
  | some typedTx =>
    match isEVMMessage typedTx, getEVMTransactionMessage typedTx with
    | .ok true, some msg =>
      match preprocess app.crypto app.block msg with
      | .error _ => none
      | .ok msg => some [.evmTransaction msg]
    | _, _ => some typedTx

def decodeTransactionsConcurrently (txs : List Bytes) : List (Option SdkTx) :=
  txs.map (decodeTransaction app)

structure Partition where
  prioritizedTxs : List Bytes := []
  otherTxs : List Bytes := []
  prioritizedTypedTxs : List (Option SdkTx) := []
  otherTypedTxs : List (Option SdkTx) := []
  prioritizedIndices : List Nat := []
  otherIndices : List Nat := []

def partitionRound (typedTxs : List (Option SdkTx)) (acc : Partition) (x : Bytes × Nat) :
    Outcome Partition :=
  match typedTxs[x.2]? with
  | none => .error .indexOutOfRange
  | some none => .ok { acc with
      otherTxs := acc.otherTxs ++ [x.1]
      otherTypedTxs := acc.otherTypedTxs ++ [none]
      otherIndices := acc.otherIndices ++ [x.2] }
  | some (some typedTx) =>
    if isTxPrioritized typedTx then .ok { acc with
      prioritizedTxs := acc.prioritizedTxs ++ [x.1]
      prioritizedTypedTxs := acc.prioritizedTypedTxs ++ [some typedTx]
      prioritizedIndices := acc.prioritizedIndices ++ [x.2] }
    else .ok { acc with
      otherTxs := acc.otherTxs ++ [x.1]
      otherTypedTxs := acc.otherTypedTxs ++ [some typedTx]
      otherIndices := acc.otherIndices ++ [x.2] }

def partitionPrioritizedTxs (txs : List Bytes) (typedTxs : List (Option SdkTx)) :
    Outcome Partition :=
  txs.zipIdx.foldlM (partitionRound typedTxs) {}

def deliverTxEntries : List Bytes → List (Option SdkTx) → List Nat → Outcome (List DeliverTxEntry)
  | [], _, _ => .ok []
  | tx :: txs, typedTx :: typedTxs, i :: absoluteTxIndices =>
    (deliverTxEntries txs typedTxs absoluteTxIndices).map
      (⟨tx, typedTx, app.sha256 tx, i⟩ :: ·)
  | _ :: _, _, _ => .error .indexOutOfRange

/-- `ProcessBlockSynchronous`: each transaction under its own index. -/
def processBlockSynchronous (run : Run σ) : List DeliverTxEntry → List ExecTxResult × Run σ
  | [] => ([], run)
  | e :: es =>
    let (res, ctx) := app.deliverTx run.ctx e
    let (rest, run) := processBlockSynchronous ⟨ctx, run.delivered ++ [e]⟩ es
    (execTxResult res :: rest, run)

def processTXsWithOCC (run : Run σ) (entries : List DeliverTxEntry) : List ExecTxResult × Run σ :=
  let (results, ctx) := app.deliverTxBatch run.ctx entries
  (results.map execTxResult, ⟨ctx, run.delivered ++ entries⟩)

def executeTxsConcurrently (run : Run σ) (txs : List Bytes) (typedTxs : List (Option SdkTx))
    (absoluteTxIndices : List Nat) : Outcome (List ExecTxResult × Run σ) := do
  let entries ← deliverTxEntries app txs typedTxs absoluteTxIndices
  return if app.occEnabled then processTXsWithOCC app run entries
    else processBlockSynchronous app run entries

/-- The gas the EVM transactions used; a missing result panics. -/
def evmTotalGasUsed (txResults : List (Option ExecTxResult)) : Outcome Int64 :=
  txResults.foldlM (fun total txResult =>
    match txResult with
    | none => .error .nilDereference
    | some r => .ok (if r.evmTxInfo.isSome then total + r.gasUsed else total)) 0

def processBlock (ctx : σ) (txs : List Bytes) : Outcome (Processed σ) := do
  let (beginEvents, ctx) := app.beginBlock ctx
  let typedTxs := decodeTransactionsConcurrently app txs
  let parts ← partitionPrioritizedTxs txs typedTxs
  let (prioritizedResults, run) ← executeTxsConcurrently app ⟨ctx, []⟩ parts.prioritizedTxs
    parts.prioritizedTypedTxs parts.prioritizedIndices
  let txResults ← scatter (List.replicate txs.length none) parts.prioritizedIndices
    (prioritizedResults.map some)
  let evmTxs ← scatter (List.replicate txs.length none) parts.prioritizedIndices
    (parts.prioritizedTypedTxs.map getEVMMsg)
  let (deferredWriteEvents, ctx) := app.writeDeferredBalances run.ctx
  let (midBlockEvents, ctx) := app.midBlock ctx
  let (otherResults, run) ← executeTxsConcurrently app ⟨ctx, run.delivered⟩ parts.otherTxs
    parts.otherTypedTxs parts.otherIndices
  let txResults ← scatter txResults parts.otherIndices (otherResults.map some)
  let evmTxs ← scatter evmTxs parts.otherIndices (parts.otherTypedTxs.map getEVMMsg)
  let (lazyWriteEvents, ctx) := app.writeDeferredBalances run.ctx
  let blockGasUsed ← evmTotalGasUsed txResults
  let (endBlockEvents, ctx) := app.endBlock ctx txResults evmTxs blockGasUsed
  return {
    events := beginEvents ++ deferredWriteEvents ++ midBlockEvents ++ lazyWriteEvents ++
      endBlockEvents
    txResults := txResults, msgs := evmTxs, run := ⟨ctx, run.delivered⟩ }

end Code

section Entries

variable (app : App σ)

def entryAt (x : Bytes × Nat) : DeliverTxEntry :=
  ⟨x.1, decodeTransaction app x.1, app.sha256 x.1, x.2⟩

def blockEntries (txs : List Bytes) : List DeliverTxEntry := txs.zipIdx.map (entryAt app)

def DeliverTxEntry.prioritized (e : DeliverTxEntry) : Bool :=
  match e.sdkTx with
  | none => false
  | some tx => isTxPrioritized tx

def Belongs (R : DeliverTxEntry → ResponseDeliverTx → Prop) (e : DeliverTxEntry)
    (r : Option ExecTxResult) : Prop :=
  ∃ resp, r = some (execTxResult resp) ∧
    if app.occEnabled then R e resp else ∃ ctx, resp = (app.deliverTx ctx e).1

end Entries

variable {app : App σ} {txs : List Bytes} {es : List DeliverTxEntry}
  {R : DeliverTxEntry → ResponseDeliverTx → Prop}

theorem blockEntries_index (i : Nat) (e : DeliverTxEntry)
    (h : (blockEntries app txs)[i]? = some e) : e.absoluteIndex = i := by
  rw [blockEntries, List.getElem?_map, List.getElem?_zipIdx, Option.map_map] at h
  obtain ⟨tx, -, rfl⟩ := Option.map_eq_some_iff.mp h
  exact Nat.zero_add i

theorem length_blockEntries : (blockEntries app txs).length = txs.length := by
  rw [blockEntries, List.length_map, List.length_zipIdx]

def Partition.ofEntries (P O : List DeliverTxEntry) : Partition where
  prioritizedTxs := P.map DeliverTxEntry.tx
  otherTxs := O.map DeliverTxEntry.tx
  prioritizedTypedTxs := P.map DeliverTxEntry.sdkTx
  otherTypedTxs := O.map DeliverTxEntry.sdkTx
  prioritizedIndices := P.map DeliverTxEntry.absoluteIndex
  otherIndices := O.map DeliverTxEntry.absoluteIndex

theorem partitionRound_eq {typedTxs : List (Option SdkTx)} {x : Bytes × Nat}
    {P O : List DeliverTxEntry} (hx : typedTxs[x.2]? = some (decodeTransaction app x.1)) :
    partitionRound typedTxs (.ofEntries P O) x =
      .ok (if (entryAt app x).prioritized then .ofEntries (P ++ [entryAt app x]) O
        else .ofEntries P (O ++ [entryAt app x])) := by
  rw [partitionRound, hx]
  cases hd : decodeTransaction app x.1 with
  | none => simp [DeliverTxEntry.prioritized, entryAt, Partition.ofEntries, hd]
  | some tx =>
    by_cases hp : isTxPrioritized tx
    · simp [DeliverTxEntry.prioritized, entryAt, Partition.ofEntries, hd, hp]
    · simp [DeliverTxEntry.prioritized, entryAt, Partition.ofEntries, hd, hp]

theorem partition_rounds {typedTxs : List (Option SdkTx)} {xs : List (Bytes × Nat)}
    {P O : List DeliverTxEntry} (hx : ∀ x ∈ xs, typedTxs[x.2]? = some (decodeTransaction app x.1)) :
    xs.foldlM (partitionRound typedTxs) (.ofEntries P O) =
      .ok (.ofEntries (P ++ (xs.map (entryAt app)).filter DeliverTxEntry.prioritized)
        (O ++ (xs.map (entryAt app)).filter fun e => !e.prioritized)) := by
  induction xs generalizing P O with
  | nil => simp
  | cons x xs ih =>
    have hrest := fun y hy => hx y (List.mem_cons_of_mem _ hy)
    rw [List.foldlM_cons, partitionRound_eq (hx x List.mem_cons_self), Outcome.ok_bind,
      List.map_cons]
    by_cases hp : (entryAt app x).prioritized
    · rw [if_pos hp, ih hrest, List.filter_cons_of_pos hp, List.filter_cons_of_neg (by simp [hp]),
        List.append_assoc, List.singleton_append]
    · rw [if_neg hp, ih hrest, List.filter_cons_of_neg hp, List.filter_cons_of_pos (by simp [hp]),
        List.append_assoc, List.singleton_append]

theorem partition_eq : partitionPrioritizedTxs txs (decodeTransactionsConcurrently app txs) =
    .ok (.ofEntries ((blockEntries app txs).filter DeliverTxEntry.prioritized)
      ((blockEntries app txs).filter fun e => !e.prioritized)) := by
  refine partition_rounds (P := []) (O := []) fun x hx => ?_
  obtain ⟨-, hlt, hget⟩ := List.mem_zipIdx hx
  rw [decodeTransactionsConcurrently, List.getElem?_map,
    List.getElem?_eq_getElem (by simpa using hlt), Option.map_some, hget]
  rfl

theorem deliverTxEntries_eq (hes : ∀ e ∈ es, e.checksum = app.sha256 e.tx) :
    deliverTxEntries app (es.map DeliverTxEntry.tx) (es.map DeliverTxEntry.sdkTx)
      (es.map DeliverTxEntry.absoluteIndex) = .ok es := by
  induction es with
  | nil => rfl
  | cons e es ih =>
    rw [List.map_cons, List.map_cons, List.map_cons, deliverTxEntries,
      ih fun e' he' => hes e' (List.mem_cons_of_mem _ he'), ← hes e List.mem_cons_self]
    rfl

theorem processBlockSynchronous_spec (run : Run σ) (es : List DeliverTxEntry) :
    (processBlockSynchronous app run es).2.delivered = run.delivered ++ es ∧
      List.Forall₂ (fun e r => ∃ ctx, r = execTxResult (app.deliverTx ctx e).1) es
        (processBlockSynchronous app run es).1 := by
  induction es generalizing run with
  | nil => exact ⟨(List.append_nil _).symm, .nil⟩
  | cons e es ih =>
    obtain ⟨hdelivered, hresults⟩ := ih ⟨(app.deliverTx run.ctx e).2, run.delivered ++ [e]⟩
    refine ⟨?_, .cons ⟨run.ctx, rfl⟩ hresults⟩
    rw [processBlockSynchronous]
    exact hdelivered.trans (List.append_assoc ..)

theorem executeTxsConcurrently_spec (run : Run σ)
    (hbatch : ∀ ctx es, List.Forall₂ R es (app.deliverTxBatch ctx es).1)
    (hes : ∀ e ∈ es, e.checksum = app.sha256 e.tx) :
    ∃ results run', executeTxsConcurrently app run (es.map DeliverTxEntry.tx)
        (es.map DeliverTxEntry.sdkTx) (es.map DeliverTxEntry.absoluteIndex) =
        .ok (results, run') ∧
      run'.delivered = run.delivered ++ es ∧
      List.Forall₂ (Belongs app R) es (results.map some) := by
  rw [executeTxsConcurrently, deliverTxEntries_eq hes, Outcome.ok_bind]
  cases hocc : app.occEnabled with
  | true =>
    refine ⟨_, _, rfl, rfl, ?_⟩
    rw [List.map_map, List.forall₂_map_right_iff]
    refine (hbatch run.ctx es).imp fun e r hr => ⟨r, rfl, ?_⟩
    rw [if_pos hocc]
    exact hr
  | false =>
    have ⟨hdelivered, hresults⟩ : _ ∧ List.Forall₂ (fun e r => ∃ ctx, r =
        execTxResult (app.deliverTx ctx e).1) es _ := processBlockSynchronous_spec run es
    refine ⟨_, _, rfl, hdelivered, ?_⟩
    rw [List.forall₂_map_right_iff]
    refine hresults.imp fun e r hr => ?_
    obtain ⟨ctx, rfl⟩ := hr
    refine ⟨_, rfl, ?_⟩
    rw [if_neg (by rw [hocc]; exact Bool.false_ne_true)]
    exact ⟨ctx, rfl⟩

theorem evmTotalGasUsed_returns {txResults : List (Option ExecTxResult)}
    (h : List.Forall₂ (Belongs app R) es txResults) :
    ∃ gas, evmTotalGasUsed txResults = .ok gas := by
  unfold evmTotalGasUsed
  generalize (0 : Int64) = total
  induction h generalizing total with
  | nil => exact ⟨total, rfl⟩
  | cons hr _ ih =>
    obtain ⟨resp, rfl, -⟩ := hr
    rw [List.foldlM_cons]
    exact ih _

def indexApp : App Unit where
  txDecoder bz :=
    if bz = [0] then some [.other (Bytes.ofString "/oracle.MsgDelegateFeedConsent")] else none
  crypto := plainCrypto
  block := ⟨0, 0, 0⟩
  sha256 := FixedBytes.ofBytes 32
  occEnabled := true
  deliverTx _ e := (⟨0, [], [], [], 0, Int64.ofNat e.absoluteIndex, [], [], none⟩, ())
  deliverTxBatch _ es :=
    (es.map fun e => ⟨0, [], [], [], 0, Int64.ofNat e.absoluteIndex, [], [], none⟩, ())
  beginBlock _ := ([], ())
  writeDeferredBalances _ := ([], ())
  midBlock _ := ([], ())
  endBlock _ _ _ _ := ([], ())

end Tabi.Block
