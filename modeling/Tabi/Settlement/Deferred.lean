import Tabi.Chain.Types
import Tabi.Support.SortedStore

/-!
# Settlement — what a block leaves for its end

Transactions leave two kinds of record in the transient store: what the ante handler's fee charge
took out of the bank, per transaction hash (`x/evm/keeper/ante.go`), and the surplus of the
execution, per transaction index (`x/evm/keeper/deferred.go`).
-/

namespace Tabi.Settlement

open Support

/-- `types.DeferredInfo`; the surplus is an `sdk.Int` that may be nil. -/
structure DeferredInfo where
  txIndex : UInt32
  txHash : Bytes
  txBloom : Bytes
  surplus : Option ℤ
  error : Bytes
  deriving DecidableEq

structure FailureReceipt where
  txHash : Hash
  transactionIndex : UInt32
  vmError : Bytes
  blockNumber : UInt64
  deriving DecidableEq

structure Transient where
  anteSurplus : SortedStore Bytes Bytes
  deferredInfo : SortedStore Bytes Bytes
  receipts : SortedStore Bytes FailureReceipt

/-- The protobuf coders.  `unmarshalInt` is what `Int.Unmarshal` leaves behind, nil included,
whatever error it returns. -/
structure Codec where
  marshalInfo : DeferredInfo → Option Bytes
  unmarshalInfo : Bytes → Option DeferredInfo
  marshalInt : ℤ → Option Bytes
  unmarshalInt : Bytes → Option ℤ

structure MsgEVMTransaction where
  asTransaction : Option Hash
  deriving DecidableEq

structure ExecTxResult where
  log : Bytes
  deriving DecidableEq

variable (cdc : Codec)

def addAnteSurplus (t : Transient) (txHash : Hash) (surplus : ℤ) : Option Transient := do
  let bz ← cdc.marshalInt surplus
  return { t with anteSurplus := t.anteSurplus.set txHash.bytes bz }

def getAnteSurplusSum (t : Transient) : Outcome ℤ :=
  t.anteSurplus.entries.foldlM (fun res e => SdkInt.addPtr res (cdc.unmarshalInt e.2)) 0

/-- The surpluses in the store, in the order of the iterator; an entry that is nil is left
out. -/
def anteSurpluses (t : Transient) : List ℤ :=
  t.anteSurplus.entries.filterMap fun e => cdc.unmarshalInt e.2

def deferredInfoKey (txIdx : Nat) : Bytes := beBytes 8 txIdx

def appendToEvmTxDeferredInfo (t : Transient) (txIdx : UInt64) (bloom : FixedBytes 256)
    (txHash : Hash) (surplus : Option ℤ) : Outcome Transient :=
  match cdc.marshalInfo ⟨.ofNat txIdx.toNat, txHash.bytes, bloom.bytes, surplus, []⟩ with
  | none => .error (.raised "failed to marshal deferred info")
  | some bz =>
    .ok { t with deferredInfo := t.deferredInfo.set (deferredInfoKey txIdx.toNat) bz }

def getEVMTxDeferredInfo (t : Transient) (txIdx : UInt64) : Option DeferredInfo :=
  (t.deferredInfo.get (deferredInfoKey txIdx.toNat)).bind cdc.unmarshalInfo

def deferredInfoAt (t : Transient) (txResults : List ExecTxResult) (txIdx : Nat)
    (msg : Option MsgEVMTransaction) : Outcome (Option DeferredInfo) :=
  match txResults[txIdx]? with
  | none => .error .indexOutOfRange
  | some txRes =>
    match t.deferredInfo.get (deferredInfoKey txIdx) with
    | none =>
      match msg with
      | none => .ok none
      | some m =>
        match m.asTransaction with
        | none => .error (.raised ("etx is nil for EVM DeferredInfo msg.AsTransaction(). " ++
            "This should never happen."))
        | some hash => .ok (some ⟨.ofNat txIdx, hash.bytes, [], none, txRes.log⟩)
    | some val =>
      match cdc.unmarshalInfo val with
      | none => .error (.raised "failed to unmarshal deferred info")
      | some info => .ok (some info)

def getAllEVMTxDeferredInfo (t : Transient) (msgs : List (Option MsgEVMTransaction))
    (txResults : List ExecTxResult) : Outcome (List DeferredInfo) := do
  let found ← msgs.zipIdx.mapM fun (msg, txIdx) => deferredInfoAt cdc t txResults txIdx msg
  return found.reduceOption

structure DeferredInfo.WellFormed (info : DeferredInfo) : Prop where
  surplus : ∃ z, info.surplus = some z ∧ SdkInt.Fits z
  bloom : info.txBloom.length ≤ 256

def Transient.AnteWellFormed (t : Transient) : Prop := ∀ {key val},
  t.anteSurplus.get key = some val → ∃ z, cdc.unmarshalInt val = some z ∧ SdkInt.Fits z

structure Transient.WellFormed (t : Transient) : Prop where
  ante : t.AnteWellFormed cdc
  info : ∀ {key val}, t.deferredInfo.get key = some val →
    ∃ i, cdc.unmarshalInfo val = some i ∧ i.WellFormed

/-- What is marshalled comes back; a nil surplus comes back as zero. -/
structure Codec.RoundTrips : Prop where
  int : ∀ {z}, SdkInt.Fits z → ∃ bz, cdc.marshalInt z = some bz ∧ cdc.unmarshalInt bz = some z
  info : ∀ i, ∃ bz, cdc.marshalInfo i = some bz ∧
    cdc.unmarshalInfo bz = some { i with surplus := some (i.surplus.getD 0) }

variable {cdc}

theorem deferredInfoAt_cases {t : Transient} {txResults : List ExecTxResult} {txIdx : Nat}
    {msg : Option MsgEVMTransaction} {o : Option DeferredInfo}
    (h : deferredInfoAt cdc t txResults txIdx msg = .ok o) :
    (∃ info, (t.deferredInfo.get (deferredInfoKey txIdx)).bind cdc.unmarshalInfo = some info ∧
      o = some info) ∨
    t.deferredInfo.get (deferredInfoKey txIdx) = none ∧ (msg = none ∧ o = none ∨
      ∃ m hash txRes, msg = some m ∧ m.asTransaction = some hash ∧
        txResults[txIdx]? = some txRes ∧
        o = some ⟨.ofNat txIdx, hash.bytes, [], none, txRes.log⟩) := by
  unfold deferredInfoAt at h
  split at h
  · cases h
  · rename_i txRes hres
    split at h
    · rename_i hget
      split at h
      · cases h
        exact .inr ⟨hget, .inl ⟨rfl, rfl⟩⟩
      · rename_i m
        split at h
        · cases h
        · rename_i hash hhash
          cases h
          exact .inr ⟨hget, .inr ⟨m, hash, txRes, rfl, hhash, hres, rfl⟩⟩
    · rename_i val hget
      split at h
      · cases h
      · rename_i info hinfo
        cases h
        exact .inl ⟨info, by rw [hget, Option.bind_some, hinfo], rfl⟩

theorem addAnteSurplus_wellFormed (hcdc : cdc.RoundTrips) {t : Transient} (ht : t.WellFormed cdc)
    (txHash : Hash) {surplus : ℤ} (hs : SdkInt.Fits surplus) :
    ∃ t', addAnteSurplus cdc t txHash surplus = some t' ∧ t'.WellFormed cdc := by
  obtain ⟨bz, hbz, hback⟩ := hcdc.int hs
  refine ⟨{ t with anteSurplus := t.anteSurplus.set txHash.bytes bz }, ?_, ?_⟩
  · rw [addAnteSurplus, hbz]
    rfl
  refine ⟨fun {key val} h => ?_, ht.info⟩
  rw [SortedStore.get_set] at h
  split at h
  · cases h
    exact ⟨surplus, hback, hs⟩
  · exact ht.ante h

theorem appendToEvmTxDeferredInfo_wellFormed (hcdc : cdc.RoundTrips) {t : Transient}
    (ht : t.WellFormed cdc) (txIdx : UInt64) (bloom : FixedBytes 256) (txHash : Hash)
    {surplus : Option ℤ} (hs : ∀ z ∈ surplus, SdkInt.Fits z) :
    ∃ t', appendToEvmTxDeferredInfo cdc t txIdx bloom txHash surplus = .ok t' ∧
      t'.WellFormed cdc := by
  obtain ⟨bz, hbz, hback⟩ := hcdc.info ⟨.ofNat txIdx.toNat, txHash.bytes, bloom.bytes, surplus, []⟩
  refine ⟨{ t with deferredInfo := t.deferredInfo.set (deferredInfoKey txIdx.toNat) bz }, ?_, ?_⟩
  · rw [appendToEvmTxDeferredInfo, hbz]
  refine ⟨ht.ante, fun {key val} h => ?_⟩
  rw [SortedStore.get_set] at h
  split at h
  · cases h
    refine ⟨_, hback, ⟨⟨_, rfl, ?_⟩, bloom.length_eq.le⟩⟩
    cases surplus with
    | none =>
      show SdkInt.Fits 0
      decide
    | some z => exact hs z rfl
  · exact ht.info h

end Tabi.Settlement
