import Tabi.Receipts.Invariant
import Tabi.Support.Tally

/-!
# Receipts — several calls in one transaction

A Cosmos transaction may call the EVM several times (`CallEVM`, `x/evm/keeper/evm.go`).
-/

namespace Tabi.Receipts

open Support StateDB Synthetic

variable {β γ : Type}

def contentOf (l : Log) : Address × List Hash × Bytes := (l.address, l.topics, l.data)

def storedContent (l : StoredLog) : Address × List Hash × Bytes := (l.address, l.topics, l.data)

structure Called where
  logs : List Log
  gasUsed : UInt64

section

variable (geth : Geth) (cdc : Codec) (k : Keepers β γ) (tx : Tx)

inductive CallsEVM (t : Transient) : Called → Transient → Prop where
  | intro {g : Frame β γ} {root : Stores β γ} {ctx : Ctx β γ} {order : MapOrder}
      {db : DBImpl β γ} {surplus : ℤ} {msg : Message} {gasUsed : UInt64}
      {precompileError : Option Bytes} {t' : Transient}
      (inner : Runs geth cdc k tx false (Frame.opened k root ctx tx t) g)
      (hfin : g.db.finalize k order = .ok (db, .ok surplus))
      (h : recordCall geth cdc g.transient tx db msg gasUsed precompileError surplus = .ok t') :
      CallsEVM t ⟨logsOf db, gasUsed⟩ t'

inductive CallSequence : Transient → List Called → Transient → Prop where
  | nil (t : Transient) : CallSequence t [] t
  | cons {c : Called} {calls : List Called} {t t₁ t₂ : Transient}
      (h : CallsEVM geth cdc k tx t c t₁) (rest : CallSequence t₁ calls t₂) :
      CallSequence t (c :: calls) t₂

end

def ListsCalls (calls : List Called) (r : Receipt) : Prop :=
  r.logs.map storedContent = calls.flatMap (fun c => c.logs.map contentOf) ∧
    r.gasUsed.toNat = (calls.map fun c => c.gasUsed.toNat).sum

variable {geth : Geth} {cdc : Codec} {k : Keepers β γ} {tx : Tx}

theorem Runs.allowCalls {calls : Bool} {f f' : Frame β γ} (h : Runs geth cdc k tx calls f f') :
    Runs geth cdc k tx true f f' := by
  induction h with
  | refl f => exact .refl f
  | op h _ ih => exact .op h ih
  | call _ hfin h _ ihInner ih => exact .call ihInner hfin h ih

variable {t t' : Transient}

theorem CallSequence.messages {calls : List Called} (h : CallSequence geth cdc k tx t calls t') :
    Messages geth cdc k tx t t' := by
  induction h with
  | nil t => exact .refl t
  | cons h _ ih =>
    obtain ⟨inner, hfin, h⟩ := h
    exact .call (.intro inner.allowCalls hfin h) ih

def loggedSoFar (cdc : Codec) (tx : Tx) (t : Transient) : List (Address × List Hash × Bytes) :=
  ((getTransientReceipt cdc t tx.checksum).map fun r => r.logs.map storedContent).getD []

theorem logsOf_addLogs (db : DBImpl β γ) (logs : List StoredLog) :
    (logsOf (addLogs db logs)).map contentOf =
      (logsOf db).map contentOf ++ logs.map storedContent := by
  induction logs generalizing db with
  | nil => rw [List.map_nil, List.append_nil, addLogs, List.foldl_nil]
  | cons l logs ih =>
    have hadd : addLogs db (l :: logs) =
        addLogs (db.addLog ⟨l.address, l.topics, l.data, 0⟩) logs := rfl
    rw [hadd, ih, logsOf_addLog, List.map_append, List.append_assoc]
    rfl

theorem receiptOf_contents (logs : List Log) (txHash : Hash) (x : Executed) :
    (receiptOf geth tx logs txHash x).logs.map storedContent = logs.map contentOf :=
  List.map_map

theorem recordCall_receipt (hcdc : RoundTrips cdc) {db : DBImpl β γ} {msg : Message}
    {gasUsed : UInt64} {precompileError : Option Bytes} {surplus : ℤ}
    (h : recordCall geth cdc t tx db msg gasUsed precompileError surplus = .ok t') :
    ∃ r, getTransientReceipt cdc t' tx.checksum = some r ∧
      r.logs.map storedContent = (logsOf db).map contentOf ++ loggedSoFar cdc tx t ∧
      r.gasUsed = gasUsed := by
  unfold recordCall at h
  cases hr : getTransientReceipt cdc t tx.checksum with
  | none =>
    rw [hr] at h
    obtain ⟨z, -, h⟩ := bind_eq_ok.mp h
    refine ⟨_, ((record_stored hcdc h).receipt _).trans (if_pos rfl), ?_, rfl⟩
    rw [receiptOf_contents, loggedSoFar, hr, Option.map_none, Option.getD_none, List.append_nil]
  | some r =>
    rw [hr] at h
    obtain ⟨z, -, h⟩ := bind_eq_ok.mp h
    refine ⟨_, ((record_stored hcdc h).receipt _).trans (if_pos rfl), ?_, rfl⟩
    rw [receiptOf_contents, logsOf_addLogs, loggedSoFar, hr, Option.map_some, Option.getD_some]

theorem callsEVM_receipt (hcdc : RoundTrips cdc) {c : Called} (h : CallsEVM geth cdc k tx t c t') :
    ∃ r, getTransientReceipt cdc t' tx.checksum = some r ∧
      r.logs.map storedContent = c.logs.map contentOf ++ loggedSoFar cdc tx t ∧
      r.gasUsed = c.gasUsed := by
  obtain ⟨inner, hfin, h⟩ := h
  -- the execution makes no calls, so it leaves the transient store alone
  rw [(runs_touches hcdc inner).2 rfl] at h
  exact recordCall_receipt hcdc h

theorem callSequence_receipt (hcdc : RoundTrips cdc) {calls : List Called} {last : Called}
    (h : CallSequence geth cdc k tx t (calls ++ [last]) t') :
    ∃ r, getTransientReceipt cdc t' tx.checksum = some r ∧
      r.logs.map storedContent = (calls ++ [last]).reverse.flatMap (fun c => c.logs.map contentOf)
        ++ loggedSoFar cdc tx t ∧ r.gasUsed = last.gasUsed := by
  induction calls generalizing t with
  | nil =>
    obtain _ | ⟨h, rest⟩ := h
    cases rest
    obtain ⟨r, hr, hlogs, hgas⟩ := callsEVM_receipt hcdc h
    exact ⟨r, hr, by rw [hlogs]; simp, hgas⟩
  | cons c calls ih =>
    rw [List.cons_append] at h
    obtain _ | ⟨h, rest⟩ := h
    obtain ⟨r₁, hr₁, hlogs₁, -⟩ := callsEVM_receipt hcdc h
    obtain ⟨r, hr, hlogs, hgas⟩ := ih rest
    refine ⟨r, hr, ?_, hgas⟩
    rw [hlogs, loggedSoFar, hr₁, Option.map_some, Option.getD_some, hlogs₁, List.cons_append,
      List.reverse_cons, List.flatMap_append, List.append_assoc]
    simp

def OrderFree (calls : List Called) : Prop :=
  calls.reverse.flatMap (fun c => c.logs.map contentOf) =
    calls.flatMap fun c => c.logs.map contentOf

theorem last_eq_sum_iff (calls : List Called) (last : Called) :
    last.gasUsed.toNat = ((calls ++ [last]).map fun c => c.gasUsed.toNat).sum ↔
      ∀ c ∈ calls, c.gasUsed = 0 := by
  rw [List.map_append, List.sum_append, List.map_singleton, List.sum_singleton, eq_comm,
    Nat.add_eq_right, List.sum_eq_zero_iff, List.forall_mem_map]
  exact forall₂_congr fun c _ => UInt64.toNat_inj (b := 0)

theorem length_flatMap_reverse (calls : List Called) :
    (calls.reverse.flatMap fun c => c.logs.map contentOf).length =
      (calls.flatMap fun c => c.logs.map contentOf).length :=
  ((List.reverse_perm calls).flatMap_right _).length_eq

/-- **The receipt of several calls.**  It lists the logs in the order they were emitted and has the
gas of all calls exactly when no logs were there before, the logs are the same in the other order
and no call but the last used gas; when every call uses gas, exactly when there was one call. -/
theorem receipt_lists_calls_iff {geth : Geth} {cdc : Codec} (hcdc : RoundTrips cdc)
    (k : Keepers β γ) {tx : Tx} {t t' : Transient} {calls : List Called} (hne : calls ≠ [])
    (h : CallSequence geth cdc k tx t calls t') :
    ∃ r, getTransientReceipt cdc t' tx.checksum = some r ∧
      (ListsCalls calls r ↔ loggedSoFar cdc tx t = [] ∧ OrderFree calls ∧
        ∀ c ∈ calls.dropLast, c.gasUsed = 0) ∧
      ((∀ c ∈ calls, c.gasUsed ≠ 0) →
        (ListsCalls calls r ↔ loggedSoFar cdc tx t = [] ∧ calls.length = 1)) := by
  obtain ⟨calls, last, rfl⟩ := (List.eq_nil_or_concat' calls).resolve_left hne
  obtain ⟨r, hr, hlogs, hgas⟩ := callSequence_receipt hcdc h
  have hiff : ListsCalls (calls ++ [last]) r ↔ loggedSoFar cdc tx t = [] ∧
      OrderFree (calls ++ [last]) ∧ ∀ c ∈ (calls ++ [last]).dropLast, c.gasUsed = 0 := by
    rw [ListsCalls, hlogs, hgas, last_eq_sum_iff, List.dropLast_concat, ← and_assoc]
    refine and_congr_left fun _ => ⟨fun heq => ?_, fun h => ?_⟩
    · -- the logs of the calls are as many in the other order, so there are no others
      have hlength := congrArg List.length heq
      rw [List.length_append, length_flatMap_reverse] at hlength
      have hnone : loggedSoFar cdc tx t = [] := List.length_eq_zero_iff.mp (by omega)
      rw [hnone, List.append_nil] at heq
      exact ⟨hnone, heq⟩
    · rw [h.1, List.append_nil]
      exact h.2
  refine ⟨r, hr, hiff, fun hpos => hiff.trans (and_congr_right fun _ => ⟨fun h => ?_, ?_⟩)⟩
  · have hzero := h.2
    rw [List.dropLast_concat] at hzero
    cases calls with
    | nil => rfl
    | cons c calls =>
      exact absurd (hzero c List.mem_cons_self) (hpos c List.mem_cons_self)
  · intro hone
    have hnil : calls = [] := List.length_eq_zero_iff.mp (by simpa using hone)
    subst hnil
    exact ⟨rfl, fun _ hc => absurd hc List.not_mem_nil⟩

theorem recordCall_returns (geth : Geth) (hcdc : RoundTrips cdc) (t : Transient) (db : DBImpl β γ)
    (msg : Message) (gasUsed : UInt64) (precompileError : Option Bytes) {surplus z : ℤ}
    (hsurplus : addDeferredSurplus cdc t tx surplus = .ok z) :
    ∃ t' d, recordCall geth cdc t tx db msg gasUsed precompileError surplus = .ok t' ∧
      Settlement.getEVMTxDeferredInfo cdc.deferred t'.deferred tx.txIndex = some d ∧
      d.surplus = some z := by
  obtain ⟨logs, x, hcall⟩ : ∃ logs x,
      recordCall geth cdc t tx db msg gasUsed precompileError surplus =
        record geth cdc t tx logs tx.checksum x (.ok z) := by
    unfold recordCall
    rw [hsurplus]
    exact ⟨_, _, rfl⟩
  obtain ⟨bz, val, hrecord, -, hinfo⟩ := record_returns geth hcdc t tx logs tx.checksum x z
  refine ⟨_, _, hcall.trans hrecord, Eq.trans ?_ hinfo, rfl⟩
  rw [Settlement.getEVMTxDeferredInfo, SortedStore.get_set, if_pos rfl]
  rfl

def callTx : Tx := ⟨.ofBytes 32 [1], none, 0, 1, 0, []⟩

def logsOnce (a : Address) : Called := ⟨[⟨a, [], [], 0⟩], 21000⟩

theorem logsOnce_calls (a : Address)
    (hsurplus : addDeferredSurplus numberCodec t callTx 0 = .ok 0) :
    ∃ t', CallsEVM addressGeth numberCodec (ledgerKeepers []) callTx t (logsOnce a) t' ∧
      addDeferredSurplus numberCodec t' callTx 0 = .ok 0 := by
  obtain ⟨g, hrun, hquiet, db, hfin, hlogs⟩ :
      ∃ g, [Op.addLog ⟨a, [], [], 0⟩].foldlM (fun f op => f.step (ledgerKeepers []) op)
        (Frame.opened (ledgerKeepers []) ⟨fun _ => none, fun _ => none, fun _ => none⟩ ⟨1, []⟩
          callTx t) = .ok g ∧ g.transient = t ∧
      ∃ db, g.db.finalize (ledgerKeepers []) entryOrder = .ok (db, .ok 0) ∧
        logsOf db = (logsOnce a).logs :=
    ⟨_, rfl, rfl, _, rfl, rfl⟩
  rw [← hquiet] at hsurplus
  obtain ⟨t', d, hcall, hinfo, hd⟩ := recordCall_returns addressGeth
    numberCodec_roundTrips g.transient db ⟨alice, some bob, 0, [], 0⟩ 21000 none hsurplus
  refine ⟨t', ?_, ?_⟩
  · have hcalls := CallsEVM.intro (runs_of_ops hrun) hfin hcall
    rw [hlogs] at hcalls
    exact hcalls
  · rw [addDeferredSurplus, hinfo]
    show Fallible.ofOutcome (SdkInt.addPtr 0 d.surplus) = _
    rw [hd]
    rfl

theorem two_calls : ∃ t₁ t₂,
    CallSequence addressGeth numberCodec (ledgerKeepers []) callTx noTransient [logsOnce alice]
        t₁ ∧
      CallSequence addressGeth numberCodec (ledgerKeepers []) callTx noTransient
        [logsOnce alice, logsOnce bob] t₂ := by
  obtain ⟨t₁, h₁, hsurplus⟩ := logsOnce_calls alice (t := noTransient) rfl
  obtain ⟨t₂, h₂, -⟩ := logsOnce_calls bob hsurplus
  exact ⟨t₁, t₂, .cons h₁ (.nil t₁), .cons h₁ (.cons h₂ (.nil t₂))⟩

theorem receipt_lists_one_call : ∃ t r,
    CallSequence addressGeth numberCodec (ledgerKeepers []) callTx noTransient [logsOnce alice] t ∧
      getTransientReceipt numberCodec t callTx.checksum = some r ∧
      ListsCalls [logsOnce alice] r := by
  obtain ⟨t, -, h, -⟩ := two_calls
  obtain ⟨r, hr, -, hone⟩ := receipt_lists_calls_iff numberCodec_roundTrips _
    (List.cons_ne_nil _ _) h
  exact ⟨t, r, h, hr, (hone (by decide)).mpr ⟨rfl, rfl⟩⟩

theorem receipt_reorders_calls : ∃ t r,
    CallSequence addressGeth numberCodec (ledgerKeepers []) callTx noTransient
        [logsOnce alice, logsOnce bob] t ∧
      getTransientReceipt numberCodec t callTx.checksum = some r ∧
      r.logs.map StoredLog.address = [bob, alice] ∧ r.gasUsed = 21000 ∧
      ¬ ListsCalls [logsOnce alice, logsOnce bob] r := by
  obtain ⟨-, t, -, h⟩ := two_calls
  obtain ⟨r, hr, hlogs, hgas⟩ := callSequence_receipt numberCodec_roundTrips
    (show CallSequence _ _ _ _ _ ([logsOnce alice] ++ [logsOnce bob]) _ from h)
  have haddresses := congrArg (List.map Prod.fst) hlogs
  rw [List.map_map] at haddresses
  refine ⟨t, r, h, hr, haddresses, hgas, fun hlists => ?_⟩
  have hsum := hlists.2
  rw [hgas] at hsum
  exact absurd hsum (by decide)

end Tabi.Receipts
