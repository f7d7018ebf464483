import Tabi.Settlement.Run
import Tabi.StateDB.Bank

/-!
# Settlement — when the end of a block completes

A panic at the end of a block halts the chain.
-/

namespace Tabi.Settlement

open Support StateDB

variable {β γ : Type}

def DeferredInfo.due (info : DeferredInfo) : Option ℤ :=
  if info.IsError then none else info.surplus

section Collect

variable (cdc : Codec) (t : Transient) (txResults : List ExecTxResult)

def storedAt (txIdx : Nat) : Option DeferredInfo :=
  (t.deferredInfo.get (deferredInfoKey txIdx)).bind cdc.unmarshalInfo

def logAt (txIdx : Nat) : Bytes := (txResults[txIdx]?.map ExecTxResult.log).getD []

def recordAt (txIdx : Nat) (msg : Option MsgEVMTransaction) : Option DeferredInfo :=
  (storedAt cdc t txIdx).or ((msg.bind MsgEVMTransaction.asTransaction).map fun hash =>
    ⟨.ofNat txIdx, hash.bytes, [], none, logAt txResults txIdx⟩)

def storedSurpluses (n : Nat) : List ℤ :=
  (List.range n).filterMap fun txIdx => (storedAt cdc t txIdx).bind DeferredInfo.due

variable {cdc t txResults}

theorem deferredInfoAt_eq (ht : t.WellFormed cdc) {txIdx : Nat} (hlt : txIdx < txResults.length)
    {msg : Option MsgEVMTransaction} (hmsg : ∀ m ∈ msg, m.asTransaction ≠ none) :
    deferredInfoAt cdc t txResults txIdx msg = .ok (recordAt cdc t txResults txIdx msg) := by
  have hres : txResults[txIdx]? = some txResults[txIdx] := List.getElem?_eq_getElem hlt
  unfold deferredInfoAt recordAt storedAt logAt
  rw [hres]
  cases hget : t.deferredInfo.get (deferredInfoKey txIdx) with
  | none =>
    cases msg with
    | none => rfl
    | some m =>
      cases hm : m.asTransaction with
      | none => exact absurd hm (hmsg m rfl)
      | some hash => simp [hm]
  | some val =>
    obtain ⟨info, hinfo, -⟩ := ht.info hget
    simp [hinfo]

theorem getAllEVMTxDeferredInfo_eq (ht : t.WellFormed cdc) {msgs : List (Option MsgEVMTransaction)}
    (hlen : txResults.length = msgs.length) (hmsgs : ∀ m, some m ∈ msgs → m.asTransaction ≠ none) :
    getAllEVMTxDeferredInfo cdc t msgs txResults =
      .ok (msgs.zipIdx.filterMap fun p => recordAt cdc t txResults p.2 p.1) := by
  have hmap : msgs.zipIdx.mapM (fun p => deferredInfoAt cdc t txResults p.2 p.1) =
      .ok (msgs.zipIdx.map fun p => recordAt cdc t txResults p.2 p.1) := by
    refine mapM_eq_ok fun p hp => ?_
    have hp' := List.mem_zipIdx_iff_getElem?.mp hp
    obtain ⟨hlt, -⟩ := List.getElem?_eq_some_iff.mp hp'
    exact deferredInfoAt_eq ht (hlen ▸ hlt) fun m hm => hmsgs m (hm ▸ List.mem_of_getElem? hp')
  show (msgs.zipIdx.mapM _ >>= fun found => pure found.reduceOption) = _
  rw [hmap, Outcome.ok_bind, List.reduceOption, List.filterMap_map]
  rfl

theorem filterMap_settled (msgs : List (Option MsgEVMTransaction)) :
    (settled (msgs.zipIdx.filterMap fun p => recordAt cdc t txResults p.2 p.1)).filterMap
      DeferredInfo.surplus = storedSurpluses cdc t msgs.length := by
  have hdue : ∀ infos : List DeferredInfo,
      (settled infos).filterMap DeferredInfo.surplus = infos.filterMap DeferredInfo.due := by
    intro infos
    rw [settled, List.filterMap_filter]
    congr 1
    funext info
    by_cases e : info.IsError <;> simp [DeferredInfo.due, e]
  have hrecord : ∀ p : Option MsgEVMTransaction × Nat,
      (recordAt cdc t txResults p.2 p.1).bind DeferredInfo.due =
        (storedAt cdc t p.2).bind DeferredInfo.due := by
    intro p
    unfold recordAt
    cases storedAt cdc t p.2 with
    | some info => rfl
    | none =>
      cases p.1.bind MsgEVMTransaction.asTransaction with
      | none => rfl
      | some hash => exact ite_self _
  rw [hdue, List.filterMap_filterMap, storedSurpluses, List.range_eq_range',
    ← List.zipIdx_map_snd 0 msgs, List.filterMap_map]
  congr 1
  funext p
  exact hrecord p

theorem none_notMem_settled (ht : t.WellFormed cdc) {msgs : List (Option MsgEVMTransaction)} :
    none ∉ (settled (msgs.zipIdx.filterMap fun p => recordAt cdc t txResults p.2 p.1)).map
        DeferredInfo.surplus ↔
      ∀ txIdx m hash, msgs[txIdx]? = some (some m) → m.asTransaction = some hash →
        storedAt cdc t txIdx = none → logAt txResults txIdx ≠ [] ∧ hash ≠ emptyTxsHash := by
  simp only [settled, List.mem_map, List.mem_filter, List.mem_filterMap, Prod.exists,
    List.mem_zipIdx_iff_getElem?, not_exists, not_and, decide_eq_true_eq]
  constructor
  · intro h txIdx m hash hmsg hhash hstored
    by_contra herr
    refine h ⟨.ofNat txIdx, hash.bytes, [], none, logAt txResults txIdx⟩
      ⟨⟨some m, txIdx, hmsg, ?_⟩, ?_⟩ rfl
    · simp [recordAt, hstored, hhash]
    · simpa [DeferredInfo.IsError, DeferredInfo.hash] using herr
  · rintro h info ⟨⟨msg, txIdx, hmsg, hrec⟩, hok⟩ hnone
    unfold recordAt at hrec
    cases hstored : storedAt cdc t txIdx with
    | some stored =>
      -- a stored record is well formed, so its surplus is there
      rw [hstored] at hrec
      cases hrec
      obtain ⟨val, hget, hval⟩ := Option.bind_eq_some_iff.mp hstored
      obtain ⟨i, hi, hwf⟩ := ht.info hget
      cases hval.symm.trans hi
      obtain ⟨z, hz, -⟩ := hwf.surplus
      rw [hnone] at hz
      cases hz
    | none =>
      rw [hstored, Option.none_or] at hrec
      obtain ⟨hash, hhash, rfl⟩ := Option.map_eq_some_iff.mp hrec
      obtain ⟨m, rfl, hm⟩ := Option.bind_eq_some_iff.mp hhash
      refine hok ⟨(h txIdx m hash hmsg hm hstored).1, ?_⟩
      simpa [DeferredInfo.hash] using (h txIdx m hash hmsg hm hstored).2

theorem recordAt_bloom (ht : t.WellFormed cdc) {txIdx : Nat} {msg : Option MsgEVMTransaction}
    {info : DeferredInfo} (h : recordAt cdc t txResults txIdx msg = some info) :
    info.txBloom.length ≤ 256 := by
  unfold recordAt at h
  rcases Option.or_eq_some_iff.mp h with hstored | ⟨-, hmade⟩
  · obtain ⟨val, hget, hval⟩ := Option.bind_eq_some_iff.mp hstored
    obtain ⟨i, hi, hwf⟩ := ht.info hget
    cases hval.symm.trans hi
    exact hwf.bloom
  · obtain ⟨hash, -, rfl⟩ := Option.map_eq_some_iff.mp hmade
    exact Nat.zero_le _

end Collect

variable {k : Keepers β γ} {valid : Stores β γ → Prop} {blockHeight : UInt64}
  {cdc : Codec} {t : Transient}
  {msgs : List (Option MsgEVMTransaction)} {txResults : List ExecTxResult}

/-- **When the end of a block completes.**  For every block of EVM messages that convert, results
of the same number, and well-formed records: exactly when every message without a record left a
log that is not empty (and is not the empty-transactions hash), and no running sum of the
surpluses overflows. -/
theorem endBlock_completes_iff (hbank : BankReads k.bank valid) {v : Stores β γ} (hv : valid v)
    (ht : t.WellFormed cdc) (hlen : txResults.length = msgs.length)
    (hmsgs : ∀ m, some m ∈ msgs → m.asTransaction ≠ none) :
    (∃ s, endBlock k blockHeight cdc v t msgs txResults = .ok s) ↔
      (∀ txIdx m hash, msgs[txIdx]? = some (some m) → m.asTransaction = some hash →
        storedAt cdc t txIdx = none → logAt txResults txIdx ≠ [] ∧ hash ≠ emptyTxsHash) ∧
      SdkInt.FitsAlong 0 (anteSurpluses cdc t ++ storedSurpluses cdc t msgs.length) := by
  have hbloom : ∀ info ∈ msgs.zipIdx.filterMap fun p => recordAt cdc t txResults p.2 p.1,
      info.txBloom.length ≤ 256 := by
    intro info hinfo
    obtain ⟨p, -, hrec⟩ := List.mem_filterMap.mp hinfo
    exact recordAt_bloom ht hrec
  rw [endBlock, getAllEVMTxDeferredInfo_eq ht hlen hmsgs, Outcome.ok_bind,
    endBlockWith_completes_iff hbank hv ht.ante hbloom, none_notMem_settled ht, surpluses,
    filterMap_settled]

def plainCodec : Codec where
  marshalInfo _ := none
  unmarshalInfo bz := some ⟨0, [], [], some (beNat bz), []⟩
  marshalInt _ := none
  unmarshalInt bz := some (beNat bz)

def noStores : Stores AccAddress ℤ := ⟨fun _ => none, fun _ => none, fun _ => none⟩

def NothingHeld (v : Stores AccAddress ℤ) : Prop := v = noStores

theorem bankReads_ledger : BankReads (ledgerBank []) NothingHeld where
  balance_nonneg h _ := by cases h; exact le_rfl
  balance_fits h _ := by cases h; show SdkInt.Fits 0; decide
  locked_nonneg _ _ := le_rfl
  locked_fits _ _ := by show SdkInt.Fits 0; decide
  send _ h := by cases h

def noRecords : Transient := ⟨.empty, .empty, .empty⟩

theorem noRecords_wellFormed : noRecords.WellFormed plainCodec := ⟨nofun, nofun⟩

def mixedBlock : List (Option MsgEVMTransaction) :=
  [some ⟨some (.ofBytes 32 [1])⟩, none, some ⟨some (.ofBytes 32 [2])⟩]

def mixedRecords : Transient where
  anteSurplus := (SortedStore.empty.set [1] [3]).set [2] [3]
  deferredInfo := SortedStore.empty.set (deferredInfoKey 0) [5]
  receipts := .empty

theorem mixedRecords_wellFormed : mixedRecords.WellFormed plainCodec := by
  refine ⟨fun {key val} h => ?_, fun {key val} h => ?_⟩
  · have hval : val = [3] := by
      unfold mixedRecords at h
      simp only [SortedStore.get_set, SortedStore.get_empty] at h
      split_ifs at h <;> exact (Option.some.inj h).symm
    subst hval
    exact ⟨3, rfl, by decide⟩
  · have hval : val = [5] := by
      unfold mixedRecords at h
      simp only [SortedStore.get_set, SortedStore.get_empty] at h
      split_ifs at h
      exact (Option.some.inj h).symm
    subst hval
    exact ⟨_, rfl, ⟨5, rfl, by decide⟩, by decide⟩

theorem endBlock_completes_mixedBlock :
    ∃ s, endBlock (ledgerKeepers []) 1 plainCodec noStores mixedRecords mixedBlock
      [⟨[]⟩, ⟨[]⟩, ⟨[111]⟩] = .ok s := by
  have hmsgs : ∀ m, some m ∈ mixedBlock → m.asTransaction ≠ none := by
    intro m hm
    simp only [mixedBlock, List.mem_cons, Option.some.injEq, reduceCtorEq, List.not_mem_nil,
      or_false, false_or] at hm
    rcases hm with rfl | rfl <;> decide
  refine (endBlock_completes_iff bankReads_ledger (show NothingHeld noStores from rfl)
    mixedRecords_wellFormed rfl hmsgs).mpr ⟨fun txIdx m hash hmsg hhash hstored => ?_,
      by decide⟩
  match txIdx, hmsg with
  | 0, hmsg => cases hstored
  | 2, hmsg =>
    cases hmsg
    cases hhash
    decide

/-- A single EVM message that left no record and an empty log: its nil surplus is added. -/
theorem endBlock_emptyLog :
    noRecords.WellFormed plainCodec ∧
      endBlock (ledgerKeepers []) 1 plainCodec noStores noRecords [some ⟨some (.zero 32)⟩] [⟨[]⟩] =
        .error .nilDereference :=
  ⟨noRecords_wellFormed, rfl⟩

end Tabi.Settlement
