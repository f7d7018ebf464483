import Tabi.Receipts.Blocks
import Tabi.StateDB.Bank
import Mathlib.Logic.Equiv.List

/-!
# Receipts — the log invariant

Whatever wrote a receipt last, its logs are numbered by position, its bloom is the bloom of exactly
these logs, and the deferred info of the transaction has the same bloom.
-/

namespace Tabi.Receipts

open Support StateDB Synthetic

variable {β γ : Type}

/-- **The log invariant.**  A successful transaction leaves no receipt, or a sound one together
with its bloom; an EVM transaction always leaves one; and the block bloom covers the bloom of
every receipt the block leaves. -/
theorem receipts_sound {geth : Geth} {cdc : Codec} (hcdc : RoundTrips cdc)
    (hbloom : geth.ReadsTopics) (k : Keepers β γ) :
    (∀ {tx t t'}, Succeeds geth cdc k tx t t' → t' = t ∨ Left geth cdc tx (hashOf tx) t') ∧
      (∀ {tx txHash t t₁ t₂}, tx.evmTxHash = some txHash → Transacts geth cdc k tx txHash t t₁ →
        @Hooked β γ geth cdc tx t₁ t₂ → Left geth cdc tx txHash t₂) ∧
      ∀ (b : Block) {t t' v v'}, Executes geth cdc k b.order noTransient t →
        endBlock cdc k b.blockHeight v t b.txs = .ok (v', t') →
        ∃ blockBloom, v'.evm [0x0d] = some blockBloom ∧
          ∀ h r, getTransientReceipt cdc t' h = some r → Covers blockBloom (bloomOf r).bytes :=
  ⟨fun h => (succeeds_effects hcdc hbloom h).own,
    fun hash transacts hook => transacts_left hcdc hbloom hash transacts hook,
    fun b _ _ _ _ hexec hend => block_covers hcdc hbloom b hexec hend⟩

local instance encodableUInt8 : Encodable UInt8 :=
  .ofLeftInverse UInt8.toNat UInt8.ofNat fun _ => UInt8.ofNat_toNat
local instance encodableUInt32 : Encodable UInt32 :=
  .ofLeftInverse UInt32.toNat UInt32.ofNat fun _ => UInt32.ofNat_toNat
local instance encodableUInt64 : Encodable UInt64 :=
  .ofLeftInverse UInt64.toNat UInt64.ofNat fun _ => UInt64.ofNat_toNat
local instance encodableFixedBytes (n : Nat) : Encodable (FixedBytes n) :=
  .ofLeftInverse FixedBytes.bytes (FixedBytes.ofBytes n) FixedBytes.ofBytes_bytes

local instance encodableDeferredInfo : Encodable Settlement.DeferredInfo :=
  .ofLeftInverse (fun i => (i.txIndex, i.txHash, i.txBloom, i.surplus, i.error))
    (fun p => ⟨p.1, p.2.1, p.2.2.1, p.2.2.2.1, p.2.2.2.2⟩) fun _ => rfl

local instance encodableStoredLog : Encodable StoredLog :=
  .ofLeftInverse (fun l => (l.address, l.topics, l.data, l.index, l.synthetic))
    (fun p => ⟨p.1, p.2.1, p.2.2.1, p.2.2.2.1, p.2.2.2.2⟩) fun _ => rfl

local instance encodableReceipt : Encodable Receipt :=
  .ofLeftInverse
    (fun r => ((r.txType, r.cumulativeGasUsed, r.contractAddress, r.txHash, r.gasUsed),
      (r.effectiveGasPrice, r.blockNumber, r.transactionIndex, r.status, r.from_),
      r.to_, r.vmError, r.logs, r.logsBloom))
    (fun p => ⟨p.1.1, p.1.2.1, p.1.2.2.1, p.1.2.2.2.1, p.1.2.2.2.2, p.2.1.1, p.2.1.2.1,
      p.2.1.2.2.1, p.2.1.2.2.2.1, p.2.1.2.2.2.2, p.2.2.1, p.2.2.2.1, p.2.2.2.2.1, p.2.2.2.2.2⟩)
    fun _ => rfl

def toCode {α : Type} [Encodable α] (a : α) : Bytes := natBytes (Encodable.encode a)

def ofCode (α : Type) [Encodable α] (b : Bytes) : Option α := Encodable.decode (beNat b)

theorem ofCode_toCode {α : Type} [Encodable α] (a : α) : ofCode α (toCode a) = some a := by
  rw [ofCode, toCode, beNat_natBytes, Encodable.encodek]

def numberCodec : Codec where
  deferred :=
    { marshalInfo := fun i => some (toCode { i with surplus := some (i.surplus.getD 0) })
      unmarshalInfo := ofCode _
      marshalInt := fun z => some (toCode z)
      unmarshalInt := ofCode _ }
  marshalReceipt r := some (toCode r)
  unmarshalReceipt := ofCode _

theorem numberCodec_roundTrips : RoundTrips numberCodec where
  deferred := ⟨fun _ => ⟨_, rfl, ofCode_toCode _⟩, fun _ => ⟨_, rfl, ofCode_toCode _⟩⟩
  receipt _ := ⟨_, rfl, ofCode_toCode _⟩

def addressGeth : Geth where
  createBloom logs := .ofBytes 256 ((logs.map fun l => (l.address, l.topics)).flatMap (·.1.bytes))
  createAddress a _ := a

theorem addressGeth_readsTopics : addressGeth.ReadsTopics := fun h => by
  simp only [addressGeth, h]

def quietHook : Env AccAddress ℤ where
  view := ⟨fun _ => none, fun _ => none, fun _ => none⟩
  registry := .empty
  ctx := ⟨false, 0⟩
  bech32 := ⟨some, id⟩
  newIntFromString _ := none
  querySmart _ _ := .ok none
  unmarshalAllowance _ := none
  abi := ⟨fun _ _ => .error [], fun _ => none, nofun⟩
  createBloom := addressGeth.createBloom
  wasmModuleEventType := []
  eventTypeCW721PreTransferOwner := []
  attributeKeyContractAddr := []

theorem record_returns (geth : Geth) {cdc : Codec} (hcdc : RoundTrips cdc) (t : Transient) (tx : Tx)
    (logs : List Log) (txHash : Hash) (x : Executed) (z : ℤ) :
    ∃ bz val, record geth cdc t tx logs txHash x (.ok z) = .ok
        ⟨t.receipts.set txHash.bytes bz, { t.deferred with
          deferredInfo :=
            t.deferred.deferredInfo.set (Settlement.deferredInfoKey tx.txIndex.toNat) val }⟩ ∧
      cdc.unmarshalReceipt bz = some (receiptOf geth tx logs txHash x) ∧
      cdc.deferred.unmarshalInfo val = some ⟨.ofNat tx.txIndex.toNat, txHash.bytes,
        (geth.createBloom logs).bytes, some z, []⟩ := by
  obtain ⟨bz, hbz, hreceipt⟩ := hcdc.receipt (receiptOf geth tx logs txHash x)
  obtain ⟨val, hval, hinfo⟩ := hcdc.deferred.info
    ⟨.ofNat tx.txIndex.toNat, txHash.bytes, (geth.createBloom logs).bytes, some z, []⟩
  obtain ⟨t₁, ht₁, hwrite⟩ : ∃ t₁ : Transient,
      t₁ = { t with receipts := t.receipts.set txHash.bytes bz } ∧
        writeReceipt geth cdc t tx logs txHash x = .ok (t₁, receiptOf geth tx logs txHash x) :=
    ⟨_, rfl, by rw [writeReceipt, hbz]⟩
  have happend : Settlement.appendToEvmTxDeferredInfo cdc.deferred t₁.deferred
      tx.txIndex (geth.createBloom logs) txHash (some z) = .ok { t₁.deferred with
        deferredInfo :=
          t₁.deferred.deferredInfo.set (Settlement.deferredInfoKey tx.txIndex.toNat) val } := by
    rw [Settlement.appendToEvmTxDeferredInfo, hval]
  have hbytes : Settlement.bytesToBloom (receiptOf geth tx logs txHash x).logsBloom =
      .ok (geth.createBloom logs) := bytesToBloom_bytes _
  subst ht₁
  exact ⟨bz, val, bind_eq_ok.mpr ⟨_, hwrite, bind_eq_ok.mpr ⟨z, rfl,
    bind_eq_ok.mpr ⟨_, Fallible.ofOutcome_eq_ok.mpr hbytes,
      bind_eq_ok.mpr ⟨_, Fallible.ofOutcome_eq_ok.mpr happend, rfl⟩⟩⟩⟩, hreceipt, hinfo⟩

theorem runs_of_ops {geth : Geth} {cdc : Codec} {k : Keepers β γ} {tx : Tx} {calls : Bool}
    {ops : List (Op β γ)} {f f' : Frame β γ} (h : ops.foldlM (fun f op => f.step k op) f = .ok f') :
    Runs geth cdc k tx calls f f' := by
  induction ops generalizing f with
  | nil =>
    cases h
    exact .refl _
  | cons op ops ih =>
    rw [List.foldlM_cons, bind_eq_ok] at h
    obtain ⟨f₁, h₁, h⟩ := h
    exact .op h₁ (ih h)

def loggingOps : List (Op AccAddress ℤ) :=
  [.addLog ⟨alice, [], [], 0⟩, .snapshot, .addLog ⟨bob, [], [], 0⟩, .revertToSnapshot 1,
    .addLog ⟨alice, [], [], 0⟩]

def loggingTx : Tx := ⟨.ofBytes 32 [1], some (.ofBytes 32 [2]), 0, 1, 0, []⟩

def plainExecution : Executed := ⟨⟨alice, some bob, 0, [], 1⟩, 0, 21000, [], none⟩

def loggingHash : Hash := .ofBytes 32 [2]

def loggedTransient (bz val : Bytes) : Transient :=
  ⟨SortedStore.empty.set loggingHash.bytes bz,
    { noTransient.deferred with
      deferredInfo := SortedStore.empty.set (Settlement.deferredInfoKey 0) val }⟩

def keptLogs : List Log := [⟨alice, [], [], 0⟩, ⟨alice, [], [], 1⟩]

def writtenTransient (txHash : Hash) (txIndex : UInt64) (bz val : Bytes) : Transient :=
  ⟨SortedStore.empty.set txHash.bytes bz,
    { noTransient.deferred with
      deferredInfo := SortedStore.empty.set (Settlement.deferredInfoKey txIndex.toNat) val }⟩

theorem logging_transacts (geth : Geth) (tx : Tx) (txHash : Hash) (x : Executed) : ∃ bz val,
    Transacts geth numberCodec (ledgerKeepers []) tx txHash noTransient
        (writtenTransient txHash tx.txIndex bz val) ∧
      numberCodec.unmarshalReceipt bz = some (receiptOf geth tx keptLogs txHash x) ∧
      numberCodec.deferred.unmarshalInfo val = some ⟨.ofNat tx.txIndex.toNat, txHash.bytes,
        (geth.createBloom keptLogs).bytes, some 0, []⟩ := by
  obtain ⟨g, hrun, hquiet, db, hfin, hlogs⟩ :
      ∃ g, loggingOps.foldlM (fun f op => f.step (ledgerKeepers []) op)
        (Frame.opened (ledgerKeepers []) ⟨fun _ => none, fun _ => none, fun _ => none⟩ ⟨1, []⟩
          tx noTransient) = .ok g ∧ g.transient = noTransient ∧
      ∃ db, g.db.finalize (ledgerKeepers []) entryOrder = .ok (db, .ok 0) ∧ logsOf db = keptLogs :=
    ⟨_, rfl, rfl, _, rfl, rfl⟩
  obtain ⟨bz, val, hrecord, hreceipt, hinfo⟩ := record_returns geth numberCodec_roundTrips
    noTransient tx keptLogs txHash x 0
  have hwritten : recordTransaction geth numberCodec g.transient tx db txHash false x 0 =
      .ok (writtenTransient txHash tx.txIndex bz val) := by
    rw [hquiet]
    rw [← hlogs] at hrecord
    exact hrecord
  exact ⟨bz, val, .intro (runs_of_ops hrun) hfin hwritten, hreceipt, hinfo⟩

theorem loggingTx_transacts : ∃ bz val logs,
    Transacts addressGeth numberCodec (ledgerKeepers []) loggingTx loggingHash noTransient
        (loggedTransient bz val) ∧
      numberCodec.unmarshalReceipt bz =
        some (receiptOf addressGeth loggingTx logs loggingHash plainExecution) ∧
      numberCodec.deferred.unmarshalInfo val =
        some ⟨0, loggingHash.bytes, (addressGeth.createBloom logs).bytes, some 0, []⟩ := by
  obtain ⟨bz, val, h⟩ := logging_transacts addressGeth loggingTx loggingHash plainExecution
  exact ⟨bz, val, keptLogs, h⟩

theorem quietHook_hooked (geth : Geth) (cdc : Codec) (tx : Tx) (t : Transient) :
    @Hooked AccAddress ℤ geth cdc tx t t :=
  ⟨{ quietHook with createBloom := geth.createBloom }, [], [], rfl, rfl⟩

theorem receipts_sound_revertedLog :
    ∃ t', Succeeds addressGeth numberCodec (ledgerKeepers []) loggingTx noTransient t' ∧
      t' ≠ noTransient ∧ Left addressGeth numberCodec loggingTx (.ofBytes 32 [2]) t' := by
  obtain ⟨bz, val, logs, htransacts, -, -⟩ := loggingTx_transacts
  have hhook := quietHook_hooked addressGeth numberCodec loggingTx
    (loggedTransient bz val)
  have hsound := receipts_sound numberCodec_roundTrips addressGeth_readsTopics
    (ledgerKeepers ([] : List AccAddress))
  have hleft := hsound.2.1 rfl htransacts hhook
  refine ⟨_, .evm rfl htransacts hhook, fun e => ?_, hleft⟩
  rw [e] at hleft
  obtain ⟨r, _, hr, -⟩ := hleft
  cases hr

end Tabi.Receipts
