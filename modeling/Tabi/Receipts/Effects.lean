import Tabi.Receipts.Logs

/-!
# Receipts — what a successful transaction leaves

The inversion of `Succeeds`: a transaction changes the receipt under its own hash and the deferred
info of its own index (`succeeds_effects`).
-/

namespace Tabi.Receipts

open Support StateDB Synthetic

variable {β γ : Type} {k : Keepers β γ} {geth : Geth} {cdc : Codec} {tx : Tx}

variable {txHash : Hash} {t t' t₁ t₂ : Transient} {calls : Bool} {r : Receipt}
  {bloom : FixedBytes 256} {root : Stores β γ} {ctx : Ctx β γ} {g : Frame β γ}

theorem hashOf_evm (h : tx.evmTxHash = some txHash) : hashOf tx = txHash := by
  rw [hashOf, h, Option.getD_some]

theorem hashOf_cosmos (h : tx.evmTxHash = none) : hashOf tx = tx.checksum := by
  rw [hashOf, h, Option.getD_none]

theorem Frame.stores_mem {op : Op β γ} {saved saved' : List Transient}
    (h : Frame.stores op t saved = .ok (t', saved')) : ∀ s ∈ t' :: saved', s ∈ t :: saved := by
  cases op with
  | snapshot | prepare =>
    cases h
    intro s hs
    simp only [List.mem_cons, List.mem_append, List.not_mem_nil, or_false] at hs ⊢
    tauto
  | revertToSnapshot rev =>
    simp only [Frame.stores] at h
    split at h
    · cases h
    · rename_i old hold
      cases h
      intro s hs
      simp only [List.mem_cons, List.mem_append, List.not_mem_nil, or_false] at hs ⊢
      rcases hs with rfl | hs | rfl
      · exact .inr (List.mem_of_getElem? hold)
      · exact .inr (List.mem_of_mem_take hs)
      · exact .inr (List.mem_of_getElem? hold)
  | _ =>
    cases h
    exact fun s hs => hs

theorem runs_transient {P : Transient → Prop} {f f' : Frame β γ} (h : Runs geth cdc k tx calls f f')
    (hP : calls = true → ∀ {t t' : Transient} {db : DBImpl β γ} {msg gasUsed perr surplus},
      recordCall geth cdc t tx db msg gasUsed perr surplus = .ok t' → P t → P t')
    (hf : ∀ s ∈ f.transient :: f.saved, P s) : ∀ s ∈ f'.transient :: f'.saved, P s := by
  induction h with
  | refl f => exact hf
  | op h _ ih => exact ih hP fun s hs => hf s (Frame.stores_mem (Frame.step_db h).2 s hs)
  | call _ _ h _ ihInner ih =>
    -- the call starts from the current transient store, and what it stores is the new one
    have hcur := hf _ List.mem_cons_self
    have hinner := ihInner hP
      (List.forall_mem_cons.mpr ⟨hcur, List.forall_mem_singleton.mpr hcur⟩)
    refine ih hP (List.forall_mem_cons.mpr ⟨?_, (List.forall_mem_cons.mp hf).2⟩)
    exact hP rfl h (hinner _ List.mem_cons_self)

structure Touches (cdc : Codec) (tx : Tx) (t t' : Transient) : Prop where
  receipt : ∀ h, h ≠ tx.checksum → getTransientReceipt cdc t' h = getTransientReceipt cdc t h
  info : ∀ i, i ≠ tx.txIndex → infoBytes t' i = infoBytes t i

theorem Touches.refl (t : Transient) : Touches cdc tx t t := ⟨fun _ _ => rfl, fun _ _ => rfl⟩

theorem Touches.trans (h : Touches cdc tx t t₁) (h' : Touches cdc tx t₁ t₂) : Touches cdc tx t t₂ :=
  ⟨fun a ha => (h'.receipt a ha).trans (h.receipt a ha),
    fun i hi => (h'.info i hi).trans (h.info i hi)⟩

theorem Stored.touches (h : Stored cdc tx tx.checksum r bloom t t') : Touches cdc tx t t' :=
  ⟨fun a ha => by rw [h.receipt, if_neg ha], h.info⟩

theorem runs_touches (hcdc : RoundTrips cdc)
    (h : Runs geth cdc k tx calls (Frame.opened k root ctx tx t) g) :
    Touches cdc tx t g.transient ∧ (calls = false → g.transient = t) := by
  constructor
  · refine runs_transient h (fun _ _ _ _ _ _ _ _ hcall ht => ?_)
      (List.forall_mem_cons.mpr ⟨.refl t, List.forall_mem_singleton.mpr (.refl t)⟩) _
      List.mem_cons_self
    obtain ⟨logs, x, hstored, -⟩ := recordCall_stored hcdc hcall
    exact ht.trans hstored.touches
  · intro hcalls
    refine runs_transient (P := (· = t)) h (fun e => ?_)
      (List.forall_mem_cons.mpr ⟨rfl, List.forall_mem_singleton.mpr rfl⟩) _ List.mem_cons_self
    rw [hcalls] at e
    cases e

theorem runs_finalize_numbered (h : Runs geth cdc k tx calls (Frame.opened k root ctx tx t) g)
    {order : MapOrder} {db : DBImpl β γ} {surplus : ℤ}
    (hfin : g.db.finalize k order = .ok (db, .ok surplus)) : LogsNumbered (logsOf db) :=
  finalize_numbered (runs_numbered h (newDBImpl_numbered root ctx tx.txIndex false false)) hfin

structure Effects (geth : Geth) (cdc : Codec) (tx : Tx) (t t' : Transient) : Prop where
  kept : ∀ h, h ≠ hashOf tx → h ≠ tx.checksum →
    getTransientReceipt cdc t' h = getTransientReceipt cdc t h
  others : ∀ h, h ≠ hashOf tx → getTransientReceipt cdc t' h = getTransientReceipt cdc t h ∨
    getTransientReceipt cdc t' h = none
  info : ∀ i, i ≠ tx.txIndex → infoBytes t' i = infoBytes t i
  own : t' = t ∨ Left geth cdc tx (hashOf tx) t'

theorem Effects.refl (t : Transient) : Effects geth cdc tx t t :=
  ⟨fun _ _ _ => rfl, fun _ _ => .inl rfl, fun _ _ => rfl, .inl rfl⟩

theorem Effects.stored (h : Effects geth cdc tx t t₁) (hs : Stored cdc tx (hashOf tx) r bloom t₁ t₂)
    (hr : Sound geth r) (hb : r.logsBloom = bloom.bytes) : Effects geth cdc tx t t₂ where
  kept a ha hc := by rw [hs.receipt, if_neg ha, h.kept a ha hc]
  others a ha := by
    rw [hs.receipt, if_neg ha]
    exact h.others a ha
  info i hi := (hs.info i hi).trans (h.info i hi)
  own := .inr (hs.left hr hb)

variable (hcdc : RoundTrips cdc) (hbloom : geth.ReadsTopics)

include hcdc hbloom

theorem hooked_effects (h : Effects geth cdc tx t t₁) (hook : @Hooked β γ geth cdc tx t₁ t₂) :
    Effects geth cdc tx t t₂ := by
  rcases hooked_stored hcdc hbloom hook with rfl | ⟨r, bloom, hs, hr, hb⟩
  · exact h
  · exact h.stored hs hr hb

theorem calls_effects (hash : hashOf tx = tx.checksum) (h : Effects geth cdc tx t t₁)
    (call : Calls geth cdc k tx t₁ t₂) : Effects geth cdc tx t t₂ := by
  obtain ⟨inner, hfin, hcall⟩ := call
  have htouch := (runs_touches hcdc inner).1
  obtain ⟨logs, x, hs, hlogs, -⟩ := recordCall_stored hcdc hcall
  have hnum := hlogs (runs_finalize_numbered inner hfin)
  refine ⟨fun a ha hc => ?_, fun a ha => ?_, fun i hi => ?_, .inr ?_⟩
  · rw [hs.receipt, if_neg hc, htouch.receipt a hc, h.kept a ha hc]
  · rw [hs.receipt, if_neg (hash ▸ ha), htouch.receipt a (hash ▸ ha)]
    exact h.others a ha
  · rw [hs.info i hi, htouch.info i hi, h.info i hi]
  · rw [hash]
    exact hs.left (receiptOf_sound hbloom hnum _ x) rfl

theorem messages_effects (hash : hashOf tx = tx.checksum) (h : Effects geth cdc tx t t₁)
    (messages : Messages geth cdc k tx t₁ t₂) : Effects geth cdc tx t t₂ := by
  induction messages with
  | refl t => exact h
  | call call _ ih => exact ih (calls_effects hcdc hbloom hash h call)

theorem transacts_effects (hash : hashOf tx = txHash) (h : Transacts geth cdc k tx txHash t t') :
    Effects geth cdc tx t t' ∧ Left geth cdc tx txHash t' := by
  obtain ⟨inner, hfin, hrecord⟩ := h
  obtain ⟨htouch, hquiet⟩ := runs_touches hcdc inner
  obtain ⟨logs, x, t₁, hs, hlogs, hdeferred, hmerged, -⟩ := recordTransaction_stored hcdc hrecord
  have hleft := hs.left (receiptOf_sound hbloom (hlogs (runs_finalize_numbered inner hfin)) _ x) rfl
  refine ⟨⟨fun a ha hc => ?_, fun a ha => ?_, fun i hi => ?_, .inr (hash ▸ hleft)⟩, hleft⟩
  · rw [hs.receipt, if_neg (hash ▸ ha), hmerged, if_neg fun e => hc e.2, htouch.receipt a hc]
  · rw [hs.receipt, if_neg (hash ▸ ha), hmerged]
    split
    · exact .inr rfl
    · rename_i hnot
      by_cases hc : a = tx.checksum
      · -- no merge, so there were no calls
        rw [hquiet (Bool.eq_false_iff.mpr fun e => hnot ⟨e, hc⟩)]
        exact .inl rfl
      · exact .inl (htouch.receipt a hc)
  · rw [hs.info i hi, infoBytes, hdeferred, ← infoBytes, htouch.info i hi]

theorem transacts_left (hash : tx.evmTxHash = some txHash)
    (transacts : Transacts geth cdc k tx txHash t t₁) (hook : @Hooked β γ geth cdc tx t₁ t₂) :
    Left geth cdc tx txHash t₂ := by
  rcases hooked_stored hcdc hbloom hook with rfl | ⟨r, bloom, hs, hr, hb⟩
  · exact (transacts_effects hcdc hbloom (hashOf_evm hash) transacts).2
  · exact hashOf_evm hash ▸ hs.left hr hb

theorem succeeds_effects (h : Succeeds geth cdc k tx t t') : Effects geth cdc tx t t' := by
  cases h with
  | evm hash transacts hook =>
    exact hooked_effects hcdc hbloom
      (transacts_effects hcdc hbloom (hashOf_evm hash) transacts).1 hook
  | cosmos hash messages hook =>
    exact hooked_effects hcdc hbloom
      (messages_effects hcdc hbloom (hashOf_cosmos hash) (.refl t) messages) hook
  | associate _ => exact .refl t

omit hbloom

def IsExecution (r : Receipt) : Prop := r.from_ ≠ none ∨ r.status = receiptStatusSuccessful

instance (r : Receipt) : Decidable (IsExecution r) := inferInstanceAs (Decidable (_ ∨ _))

/-- While transactions run, the receipts are those of executions, their keys are hashes, and no
deferred info has an error. -/
structure Tidy (cdc : Codec) (t : Transient) : Prop where
  executions : ∀ h r, getTransientReceipt cdc t h = some r → IsExecution r
  hashes : ∀ key val, t.receipts.get key = some val → key.length = 32
  infos : ∀ i d, (infoBytes t i).bind cdc.deferred.unmarshalInfo = some d → d.error = []

omit hcdc in
theorem Stored.tidy (h : Stored cdc tx txHash r bloom t t') (hr : IsExecution r) (ht : Tidy cdc t) :
    Tidy cdc t' := by
  refine ⟨fun a r' hr' => ?_, fun key val hkey => ?_, fun i d hd => ?_⟩
  · rw [h.receipt] at hr'
    split at hr'
    · cases hr'
      exact hr
    · exact ht.executions a r' hr'
  · rcases h.keys key val hkey with rfl | hkey
    · exact txHash.length_eq
    · exact ht.hashes key val hkey
  · by_cases e : i = tx.txIndex
    · obtain ⟨d', hd', -, herr⟩ := h.own
      rw [e] at hd
      cases hd.symm.trans hd'
      exact herr
    · rw [h.info i e] at hd
      exact ht.infos i d hd

omit hcdc in
theorem receiptOf_isExecution (logs : List Log) (txHash : Hash) (x : Executed) :
    IsExecution (receiptOf geth tx logs txHash x) := .inl nofun

theorem runs_tidy (ht : Tidy cdc t) (h : Runs geth cdc k tx calls (Frame.opened k root ctx tx t) g)
    : Tidy cdc g.transient := by
  refine runs_transient h (fun _ _ _ _ _ _ _ _ hcall ht => ?_)
    (List.forall_mem_cons.mpr ⟨ht, List.forall_mem_singleton.mpr ht⟩) _ List.mem_cons_self
  obtain ⟨logs, x, hs, -⟩ := recordCall_stored hcdc hcall
  exact hs.tidy (receiptOf_isExecution logs _ x) ht

theorem hooked_tidy (ht : Tidy cdc t) (h : @Hooked β γ geth cdc tx t t') : Tidy cdc t' := by
  rcases hooked_cases h with rfl | ⟨env, logs, -, -, hrecord⟩
  · exact ht
  refine (recordLogs_stored hcdc hrecord).tidy ?_ ht
  unfold receiptWith
  split
  · rename_i r hr
    exact ht.executions _ r hr
  · exact .inr rfl

theorem messages_tidy (h : Messages geth cdc k tx t t') (ht : Tidy cdc t) : Tidy cdc t' := by
  induction h with
  | refl t => exact ht
  | call call _ ih =>
    obtain ⟨inner, -, hcall⟩ := call
    obtain ⟨logs, x, hs, -⟩ := recordCall_stored hcdc hcall
    exact ih (hs.tidy (receiptOf_isExecution logs _ x) (runs_tidy hcdc ht inner))

theorem succeeds_tidy (h : Succeeds geth cdc k tx t t') (ht : Tidy cdc t) : Tidy cdc t' := by
  cases h with
  | evm hash transacts hook =>
    obtain ⟨inner, -, hrecord⟩ := transacts
    obtain ⟨logs, x, t₁, hs, -, hdeferred, hmerged, hkeys⟩ :=
      recordTransaction_stored hcdc hrecord
    have hg := runs_tidy hcdc ht inner
    refine hooked_tidy hcdc (hs.tidy (receiptOf_isExecution logs _ x) ⟨?_, ?_, ?_⟩) hook
    · intro a r hr
      rw [hmerged] at hr
      split at hr
      · cases hr
      · exact hg.executions a r hr
    · exact fun key val hkey => hg.hashes key val (hkeys key val hkey)
    · intro i d hd
      rw [infoBytes, hdeferred] at hd
      exact hg.infos i d hd
  | cosmos hash messages hook => exact hooked_tidy hcdc (messages_tidy hcdc messages ht) hook
  | associate _ => exact ht

end Tabi.Receipts
