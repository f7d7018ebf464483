import Tabi.Receipts.Transactions
import Tabi.StateDB.Stores
import Tabi.Support.Numbering

/-!
# Receipts — logs, numbers and blooms

The logs of a state database are numbered from zero whatever was reverted in between
(`runs_numbered`), because a log gets the number of logs there are, and a revert cuts the list off.
-/

namespace Tabi.Receipts

open Support StateDB Synthetic

variable {β γ : Type}

def LogsNumbered (logs : List Log) : Prop := Numbered Log.index id logs

def DBNumbered (db : DBImpl β γ) : Prop :=
  ∀ w ∈ db.abs.cur :: db.abs.saved, LogsNumbered w.logs

variable {k : Keepers β γ} {db : DBImpl β γ}

theorem change_numbered {p : Permits} {s s' : Flat β γ} (h : Flat.Change k p s s')
    (hs : LogsNumbered s.cur.logs) : LogsNumbered s'.cur.logs := by
  cases h with
  | debit _ h | credit _ h =>
    rcases Flat.moveBalance_cases h with ⟨e, rfl⟩ | ⟨r, e, rfl⟩ | ⟨_, _, r, r', -, -, -, rfl⟩ <;>
      exact hs
  | memory w _ _ _ hlogs => exact hlogs ▸ hs
  | log l => exact hs.concat rfl
  | _ => exact hs

theorem newDBImpl_numbered (root : Stores β γ) (ctx : Ctx β γ) (txIndex : UInt64)
    (isTracing simulation : Bool) :
    DBNumbered (DBImpl.newDBImpl k root ctx txIndex isTracing simulation) := by
  unfold DBNumbered
  rw [DBImpl.abs_newDBImpl, Flat.new]
  intro w hw
  rcases List.mem_pair.mp hw with rfl | rfl <;> exact .nil

theorem step_numbered {op : Op β γ} {db' : DBImpl β γ} (hdb : DBNumbered db)
    (h : DBImpl.step k op db = .ok db') : DBNumbered db' :=
  Flat.step_everywhere change_numbered hdb ((DBImpl.step_simulates k op).ok h)

theorem commit_numbered (hdb : DBNumbered db) (e : Effect β γ) : DBNumbered (db.commit e) := by
  unfold DBNumbered
  rw [DBImpl.abs_commit]
  exact List.forall_mem_cons.mpr (List.forall_mem_cons.mp hdb)

variable {surplus : ℤ} {logs : List Log} {r : Receipt} {t t' : Transient} {txHash : Hash}
  {env : Env β γ}

theorem finalize_numbered {order : MapOrder} {db' : DBImpl β γ} (hdb : DBNumbered db)
    (h : db.finalize k order = .ok (db', .ok surplus)) : LogsNumbered (logsOf db') := by
  obtain ⟨s₁, hch, -, -, -, hlogs⟩ :=
    DBImpl.finalize_cases ⟨false, false⟩ (DBImpl.finalize_err h) h
  rw [logsOf, hlogs]
  exact Flat.changes_everywhere change_numbered hch hdb _ List.mem_cons_self

theorem logsOf_addLog (db : DBImpl β γ) (l : Log) :
    logsOf (db.addLog l) = logsOf db ++ [{ l with index := (logsOf db).length }] := by
  simp only [logsOf, getAllLogs, DBImpl.addLog, List.append_assoc]

theorem addLogs_numbered (hdb : LogsNumbered (logsOf db)) (logs : List StoredLog) :
    LogsNumbered (logsOf (addLogs db logs)) := by
  induction logs generalizing db with
  | nil => exact hdb
  | cons l logs ih =>
    refine ih ?_
    rw [logsOf_addLog]
    exact hdb.concat rfl

variable {geth : Geth} {cdc : Codec} {tx : Tx}

theorem Frame.step_db {op : Op β γ} {f f' : Frame β γ} (h : f.step k op = .ok f') :
    DBImpl.step k op f.db = .ok f'.db ∧
      Frame.stores op f.transient f.saved = .ok (f'.transient, f'.saved) := by
  obtain ⟨db, hdb, h⟩ := bind_eq_ok.mp h
  obtain ⟨⟨t, saved⟩, hstores, h⟩ := bind_eq_ok.mp h
  cases h
  exact ⟨hdb, hstores⟩

theorem runs_numbered {calls : Bool} {f f' : Frame β γ} (h : Runs geth cdc k tx calls f f')
    (hf : DBNumbered f.db) : DBNumbered f'.db := by
  induction h with
  | refl f => exact hf
  | op h _ ih => exact ih (step_numbered hf (Frame.step_db h).1)
  | call _ _ _ _ _ ih => exact ih (commit_numbered hf _)

/-- What a bloom is taken of: `CreateBloom` reads the addresses and the topics. -/
def Geth.ReadsTopics (geth : Geth) : Prop :=
  ∀ {logs logs' : List Log}, logs.map (fun l => (l.address, l.topics)) =
    logs'.map (fun l => (l.address, l.topics)) → geth.createBloom logs = geth.createBloom logs'

structure RoundTrips (cdc : Codec) : Prop where
  deferred : cdc.deferred.RoundTrips
  receipt : ∀ r, ∃ bz, cdc.marshalReceipt r = some bz ∧ cdc.unmarshalReceipt bz = some r

structure Sound (geth : Geth) (r : Receipt) : Prop where
  numbered : Numbered StoredLog.index UInt32.ofNat r.logs
  bloom : r.logsBloom = (geth.createBloom (getLogsForTx r)).bytes

def Left (geth : Geth) (cdc : Codec) (tx : Tx) (txHash : Hash) (t : Transient) : Prop :=
  ∃ r d, getTransientReceipt cdc t txHash = some r ∧ Sound geth r ∧
    Settlement.getEVMTxDeferredInfo cdc.deferred t.deferred tx.txIndex = some d ∧
    d.txBloom = r.logsBloom ∧ d.error = []

theorem convert_numbered {convert : Log → StoredLog}
    (hconvert : ∀ l, (convert l).index = .ofNat l.index) (h : LogsNumbered logs) :
    Numbered StoredLog.index UInt32.ofNat (logs.map convert) :=
  h.map convert fun l i hl => by rw [hconvert, hl, id]

theorem sound_of_convert (hbloom : geth.ReadsTopics) {convert : Log → StoredLog}
    (hindex : ∀ l, (convert l).index = .ofNat l.index)
    (hcontents : ∀ l, ((convert l).address, (convert l).topics) = (l.address, l.topics))
    (hlogs : LogsNumbered logs) (hr : r.logs = logs.map convert)
    (hb : r.logsBloom = (geth.createBloom logs).bytes) : Sound geth r := by
  refine ⟨hr ▸ convert_numbered hindex hlogs, ?_⟩
  rw [hb, getLogsForTx, hr, List.map_map]
  refine congrArg FixedBytes.bytes (hbloom ?_)
  rw [List.map_map]
  exact List.map_congr_left fun l _ => (hcontents l).symm

def infoBytes (t : Transient) (i : UInt64) : Option Bytes :=
  t.deferred.deferredInfo.get (Settlement.deferredInfoKey i.toNat)

structure Stored (cdc : Codec) (tx : Tx) (txHash : Hash) (r : Receipt) (bloom : FixedBytes 256)
    (t t' : Transient) : Prop where
  receipt : ∀ h, getTransientReceipt cdc t' h =
    if h = txHash then some r else getTransientReceipt cdc t h
  own : ∃ d, Settlement.getEVMTxDeferredInfo cdc.deferred t'.deferred tx.txIndex = some d ∧
    d.txBloom = bloom.bytes ∧ d.error = []
  info : ∀ i, i ≠ tx.txIndex → infoBytes t' i = infoBytes t i
  keys : ∀ key val, t'.receipts.get key = some val →
    key = txHash.bytes ∨ t.receipts.get key = some val

theorem deferredInfoKey_injective {i j : UInt64}
    (h : Settlement.deferredInfoKey i.toNat = Settlement.deferredInfoKey j.toNat) : i = j :=
  UInt64.toNat.inj (beBytes_injective i.toNat_lt j.toNat_lt h)

theorem getTransientReceipt_set {bz : Bytes} {deferred : Settlement.Transient} (h : Hash) :
    getTransientReceipt cdc ⟨t.receipts.set txHash.bytes bz, deferred⟩ h =
      if h = txHash then cdc.unmarshalReceipt bz else getTransientReceipt cdc t h := by
  rw [getTransientReceipt, SortedStore.get_set]
  by_cases e : h = txHash
  · rw [if_pos (congrArg FixedBytes.bytes e), if_pos e]
    rfl
  · rw [if_neg fun hb => e (FixedBytes.ext hb), if_neg e]
    rfl

theorem stored_of_append (hcdc : RoundTrips cdc) {bz : Bytes}
    (hbz : cdc.unmarshalReceipt bz = some r) {bloom : FixedBytes 256} {surplus : Option ℤ}
    {deferred : Settlement.Transient}
    (h : Settlement.appendToEvmTxDeferredInfo cdc.deferred t.deferred tx.txIndex bloom txHash
      surplus = .ok deferred) :
    Stored cdc tx txHash r bloom t ⟨t.receipts.set txHash.bytes bz, deferred⟩ := by
  obtain ⟨val, hval, hback⟩ :=
    hcdc.deferred.info ⟨.ofNat tx.txIndex.toNat, txHash.bytes, bloom.bytes, surplus, []⟩
  rw [Settlement.appendToEvmTxDeferredInfo, hval] at h
  cases h
  have hown : ((t.deferred.deferredInfo.set (Settlement.deferredInfoKey tx.txIndex.toNat) val).get
      (Settlement.deferredInfoKey tx.txIndex.toNat)).bind cdc.deferred.unmarshalInfo =
        cdc.deferred.unmarshalInfo val := by
    rw [SortedStore.get_set, if_pos rfl]
    rfl
  refine ⟨fun h => ?_, ⟨_, hown.trans hback, rfl, rfl⟩, fun i hi => ?_, fun key v hkey => ?_⟩
  · rw [getTransientReceipt_set, hbz]
  · exact (SortedStore.get_set ..).trans (if_neg fun e => hi (deferredInfoKey_injective e))
  · rw [SortedStore.get_set] at hkey
    split at hkey
    · exact .inl ‹_›
    · exact .inr hkey

theorem Stored.left {bloom : FixedBytes 256} (h : Stored cdc tx txHash r bloom t t')
    (hr : Sound geth r) (hb : r.logsBloom = bloom.bytes) : Left geth cdc tx txHash t' := by
  obtain ⟨d, hd, hbloom, herr⟩ := h.own
  exact ⟨r, d, by rw [h.receipt, if_pos rfl], hr, hd, hbloom.trans hb.symm, herr⟩

theorem bytesToBloom_bytes (bloom : FixedBytes 256) :
    Settlement.bytesToBloom bloom.bytes = .ok bloom := by
  rw [Settlement.bytesToBloom, if_neg (bloom.length_eq.le.not_gt), FixedBytes.ofBytes_bytes]

theorem record_stored (hcdc : RoundTrips cdc) {x : Executed} {surplus : Fallible ℤ}
    (h : record geth cdc t tx logs txHash x surplus = .ok t') :
    Stored cdc tx txHash (receiptOf geth tx logs txHash x) (geth.createBloom logs) t t' := by
  obtain ⟨bz, hbz, hback⟩ := hcdc.receipt (receiptOf geth tx logs txHash x)
  rw [record, writeReceipt, hbz] at h
  obtain ⟨_, hwrite, h⟩ := bind_eq_ok.mp h
  cases hwrite
  obtain ⟨z, -, h⟩ := bind_eq_ok.mp h
  obtain ⟨bloom, hbloom, h⟩ := bind_eq_ok.mp h
  obtain ⟨deferred, hdeferred, h⟩ := bind_eq_ok.mp h
  cases h
  have hb : bloom = geth.createBloom logs :=
    (Except.ok.inj ((bytesToBloom_bytes _).symm.trans (Fallible.ofOutcome_eq_ok.mp hbloom))).symm
  rw [← hb]
  exact stored_of_append hcdc hback (Fallible.ofOutcome_eq_ok.mp hdeferred)

theorem receiptOf_sound (hbloom : geth.ReadsTopics) (hlogs : LogsNumbered logs) (txHash : Hash)
    (x : Executed) : Sound geth (receiptOf geth tx logs txHash x) :=
  sound_of_convert hbloom (fun _ => rfl) (fun _ => rfl) hlogs rfl rfl

theorem recordCall_stored (hcdc : RoundTrips cdc) {msg : Message} {gasUsed : UInt64}
    {precompileError : Option Bytes}
    (h : recordCall geth cdc t tx db msg gasUsed precompileError surplus = .ok t') :
    ∃ logs x, Stored cdc tx tx.checksum (receiptOf geth tx logs tx.checksum x)
      (geth.createBloom logs) t t' ∧ (LogsNumbered (logsOf db) → LogsNumbered logs) ∧
      x.msg.gasPrice = 0 := by
  unfold recordCall at h
  cases hr : getTransientReceipt cdc t tx.checksum with
  | none =>
    rw [hr] at h
    obtain ⟨z, -, h⟩ := bind_eq_ok.mp h
    exact ⟨_, _, record_stored hcdc h, id, rfl⟩
  | some r =>
    rw [hr] at h
    obtain ⟨z, -, h⟩ := bind_eq_ok.mp h
    exact ⟨_, _, record_stored hcdc h, fun hdb => addLogs_numbered hdb _, rfl⟩

theorem mergeSynthetic_transient (cdc : Codec) (tx : Tx) (t : Transient) (db : DBImpl β γ)
    (vmError : Bytes) :
    (∀ h, getTransientReceipt cdc (mergeSynthetic cdc t tx db vmError).1 h =
      if h = tx.checksum then none else getTransientReceipt cdc t h) ∧
      (mergeSynthetic cdc t tx db vmError).1.deferred = t.deferred ∧
      ∀ key val, (mergeSynthetic cdc t tx db vmError).1.receipts.get key = some val →
        t.receipts.get key = some val := by
  unfold mergeSynthetic
  cases hr : getTransientReceipt cdc t tx.checksum with
  | none =>
    refine ⟨fun h => ?_, rfl, fun _ _ hkey => hkey⟩
    by_cases e : h = tx.checksum
    · rw [if_pos e, e]
      exact hr
    · rw [if_neg e]
  | some r =>
    refine ⟨fun h => ?_, rfl, fun key val hkey => ?_⟩
    · show ((t.receipts.delete tx.checksum.bytes).get h.bytes).bind _ = _
      rw [SortedStore.get_delete]
      by_cases e : h = tx.checksum
      · rw [if_pos (congrArg FixedBytes.bytes e), if_pos e]
        rfl
      · rw [if_neg fun hb => e (FixedBytes.ext hb), if_neg e]
        rfl
    · rw [deleteTransientReceipt, SortedStore.get_delete] at hkey
      split at hkey
      · cases hkey
      · exact hkey

theorem mergeSynthetic_numbered (cdc : Codec) (tx : Tx) (t : Transient) (db : DBImpl β γ)
    (vmError : Bytes) (hdb : LogsNumbered (logsOf db)) :
    LogsNumbered (logsOf (mergeSynthetic cdc t tx db vmError).2.1) := by
  unfold mergeSynthetic
  split
  · exact hdb
  · exact addLogs_numbered hdb _

theorem recordTransaction_stored (hcdc : RoundTrips cdc) {viaWasmd : Bool} {x : Executed}
    (h : recordTransaction geth cdc t tx db txHash viaWasmd x surplus = .ok t') :
    ∃ logs x t₁,
      Stored cdc tx txHash (receiptOf geth tx logs txHash x) (geth.createBloom logs) t₁ t' ∧
      (LogsNumbered (logsOf db) → LogsNumbered logs) ∧ t₁.deferred = t.deferred ∧
      (∀ h, getTransientReceipt cdc t₁ h =
        if viaWasmd = true ∧ h = tx.checksum then none else getTransientReceipt cdc t h) ∧
      ∀ key val, t₁.receipts.get key = some val → t.receipts.get key = some val := by
  unfold recordTransaction at h
  cases viaWasmd with
  | false =>
    refine ⟨_, _, t, record_stored hcdc h, id, rfl, ?_, fun _ _ hkey => hkey⟩
    exact fun h => (if_neg fun e => Bool.false_ne_true e.1).symm
  | true =>
    obtain ⟨hreceipts, hdeferred, hkeys⟩ := mergeSynthetic_transient cdc tx t db x.vmError
    have hlogs := mergeSynthetic_numbered cdc tx t db x.vmError
    rw [if_pos rfl] at h
    generalize mergeSynthetic cdc t tx db x.vmError = m at h hreceipts hdeferred hkeys hlogs
    obtain ⟨t₁, db₁, vmError⟩ := m
    obtain ⟨z, -, h⟩ := bind_eq_ok.mp h
    refine ⟨_, _, t₁, record_stored hcdc h, hlogs, hdeferred, ?_, hkeys⟩
    intro h
    rw [hreceipts]
    exact if_congr (by simp) rfl rfl

theorem appendLogs_numbered (h : LogsNumbered logs) (new : List Log) :
    LogsNumbered (appendLogs logs new) :=
  h.foldl (fun logs (log : Log) => ({ log with index := logs.length } : Log)) (fun _ _ => rfl) new

theorem translateWasmEvent_appends {owners : Bytes → List Bytes} {acc acc' : Translated}
    {event : Event} (h : translateWasmEvent env owners acc event = .ok acc') :
    ∃ new, acc'.logs = appendLogs acc.logs new := by
  unfold translateWasmEvent at h
  split at h
  · cases h
    exact ⟨[], rfl⟩
  · obtain ⟨cw20, -, h⟩ := bind_eq_ok.mp h
    cases cw20 with
    | some p =>
      cases h
      exact ⟨_, rfl⟩
    | none =>
      obtain ⟨cw721, -, h⟩ := bind_eq_ok.mp h
      cases cw721 with
      | some p =>
        cases h
        exact ⟨_, rfl⟩
      | none =>
        obtain ⟨cw1155, -, h⟩ := bind_eq_ok.mp h
        cases cw1155 with
        | some p =>
          obtain ⟨new, -, h⟩ := bind_eq_ok.mp h
          cases h
          exact ⟨new, rfl⟩
        | none =>
          cases h
          exact ⟨[], rfl⟩

theorem translateEvents_numbered {events : List Event} (h : translateEvents env events = .ok logs) :
    LogsNumbered logs := by
  obtain ⟨acc, hacc, h⟩ := bind_eq_ok.mp h
  cases h
  have hstart : LogsNumbered (Translated.mk [] fun _ => 0).logs := Numbered.nil
  refine Outcome.foldlM_invariant (I := fun acc : Translated => LogsNumbered acc.logs) ?_ hstart
    hacc
  intro acc event acc' _ hacc hstep
  obtain ⟨new, hnew⟩ := translateWasmEvent_appends hstep
  rw [hnew]
  exact appendLogs_numbered hacc new

theorem receiptWith_sound (cdc : Codec) (tx : Tx) (hbloom : geth.ReadsTopics)
    (henv : env.createBloom = geth.createBloom) (hlogs : LogsNumbered logs) (t : Transient)
    (txHash : Hash) :
    Sound geth (receiptWith env cdc t tx txHash logs).1 ∧
      (receiptWith env cdc t tx txHash logs).1.logsBloom =
        (receiptWith env cdc t tx txHash logs).2.bytes := by
  unfold receiptWith
  split
  · refine ⟨⟨Numbered.zipIdx (fun _ _ => rfl) _, ?_⟩, rfl⟩
    rw [henv]
    rfl
  · refine ⟨sound_of_convert hbloom (fun _ => rfl) (fun _ => rfl) hlogs rfl ?_, rfl⟩
    rw [henv]

theorem recordLogs_stored (hcdc : RoundTrips cdc) (h : recordLogs env cdc t tx logs = .ok t') :
    Stored cdc tx (hashOf tx) (receiptWith env cdc t tx (hashOf tx) logs).1
      (receiptWith env cdc t tx (hashOf tx) logs).2 t t' := by
  unfold recordLogs at h
  dsimp only at h
  rw [← hashOf] at h
  -- the receipt is opaque from here on: what is stored does not depend on how it was made
  generalize receiptWith env cdc t tx (hashOf tx) logs = p at h ⊢
  obtain ⟨r, bloom⟩ := p
  obtain ⟨bz, hbz, hback⟩ := hcdc.receipt r
  have hset : setTransientReceipt cdc t (hashOf tx) r =
      { t with receipts := t.receipts.set (hashOf tx).bytes bz } := by
    rw [setTransientReceipt, hbz]
  rw [hset] at h
  obtain ⟨deferred, hdeferred, h⟩ := bind_eq_ok.mp h
  cases h
  exact stored_of_append hcdc hback hdeferred

theorem hooked_cases (h : @Hooked β γ geth cdc tx t t') :
    t' = t ∨ ∃ (env : Env β γ) (logs : List Log), env.createBloom = geth.createBloom ∧
      LogsNumbered logs ∧ recordLogs env cdc t tx logs = .ok t' := by
  obtain ⟨env, events, logs, henv, h⟩ := h
  unfold addCosmosEventsToEVMReceiptIfApplicable at h
  split at h
  · cases h
    exact .inl rfl
  obtain ⟨new, hnew, h⟩ := bind_eq_ok.mp h
  split at h
  · cases h
    exact .inl rfl
  obtain ⟨t₁, hrecord, h⟩ := bind_eq_ok.mp h
  cases h
  exact .inr ⟨env, logs, henv, translateEvents_numbered hnew, hrecord⟩

theorem hooked_stored (hcdc : RoundTrips cdc) (hbloom : geth.ReadsTopics)
    (h : @Hooked β γ geth cdc tx t t') :
    t' = t ∨ ∃ r bloom, Stored cdc tx (hashOf tx) r bloom t t' ∧ Sound geth r ∧
      r.logsBloom = bloom.bytes := by
  rcases hooked_cases h with rfl | ⟨env, logs, henv, hlogs, hrecord⟩
  · exact .inl rfl
  · obtain ⟨hsound, hlogsBloom⟩ := receiptWith_sound cdc tx hbloom henv hlogs t (hashOf tx)
    exact .inr ⟨_, _, recordLogs_stored hcdc hrecord, hsound, hlogsBloom⟩

end Tabi.Receipts
