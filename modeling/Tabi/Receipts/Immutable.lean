import Tabi.Receipts.Flush
import Tabi.Receipts.Invariant
import Tabi.Settlement.Completes

/-!
# Receipts — are they immutable?

Once a transaction has been executed and its receipt is flushed, `GetReceipt` should return it for
good.
-/

namespace Tabi.Receipts

open Support StateDB Synthetic

variable {β γ : Type}

def Included.FailsUnder (y : Included) (h : Hash) : Prop :=
  y.succeeded = false ∧ y.tx.evmTxHash = some h ∧ y.log ≠ [] ∧ h ≠ Settlement.emptyTxsHash

instance (y : Included) (h : Hash) : Decidable (y.FailsUnder h) :=
  inferInstanceAs (Decidable (_ ∧ _ ∧ _ ∧ _))

def Included.ExecutesUnder (y : Included) (h : Hash) : Prop :=
  y.succeeded = true ∧ (hashOf y.tx = h ∨ y.tx.checksum = h)

instance (y : Included) (h : Hash) : Decidable (y.ExecutesUnder h) :=
  inferInstanceAs (Decidable (_ ∧ (_ ∨ _)))

section

variable (geth : Geth) (cdc : Codec) (k : Keepers β γ) (sorter : SortSlice)

inductive Commits (b : Block) (a : Archive) : Archive → Prop where
  | intro {t t' : Transient} {v v' : Stores β γ} {a' : Archive}
      (exec : Executes geth cdc k b.order noTransient t)
      (close : endBlock cdc k b.blockHeight v t b.txs = .ok (v', t'))
      (flush : flushTransientReceipts sorter cdc t' a = some a') : Commits b a a'

inductive CommitsReceipt (b : Block) (h : Hash) (r : Receipt) (a : Archive) : Archive → Prop where
  | intro {before after : List Included} {x : Included} {t₀ t₁ t t' : Transient}
      {v v' : Stores β γ} {a' : Archive} (split : b.order = before ++ x :: after)
      (first : Executes geth cdc k before noTransient t₀) (executed : x.succeeded = true)
      (hash : hashOf x.tx = h) (delivered : Delivers geth cdc k x t₀ t₁)
      (receipt : getTransientReceipt cdc t₁ h = some r) (rest : Executes geth cdc k after t₁ t)
      (once : ∀ y ∈ after, ¬ y.ExecutesUnder h)
      (close : endBlock cdc k b.blockHeight v t b.txs = .ok (v', t'))
      (flush : flushTransientReceipts sorter cdc t' a = some a') : CommitsReceipt b h r a a'

inductive Extends : Archive → List Block → Archive → Prop where
  | nil (a : Archive) : Extends a [] a
  | cons {b : Block} {blocks : List Block} {a a₁ a₂ : Archive}
      (h : Commits geth cdc k sorter b a a₁) (rest : Extends a₁ blocks a₂) :
      Extends a (b :: blocks) a₂

end

variable {geth : Geth} {cdc : Codec} {k : Keepers β γ} {sorter : SortSlice}

/-! ### The transactions of a block -/

theorem noTransient_tidy : Tidy cdc noTransient := ⟨nofun, nofun, nofun⟩

variable {t t' : Transient} {xs : List Included} {b : Block} {a a' : Archive} {h : Hash}
  {r : Receipt}

theorem delivers_tidy (hcdc : RoundTrips cdc) {x : Included} (h : Delivers geth cdc k x t t')
    (ht : Tidy cdc t) : Tidy cdc t' := by
  cases h with
  | failed _ s => exact ⟨ht.executions, ht.hashes, ht.infos⟩
  | succeeded _ s h => exact succeeds_tidy hcdc h ⟨ht.executions, ht.hashes, ht.infos⟩

theorem executes_tidy (hcdc : RoundTrips cdc) (h : Executes geth cdc k xs t t') (ht : Tidy cdc t) :
    Tidy cdc t' := by
  induction h with
  | nil t => exact ht
  | cons hx _ ih => exact ih (delivers_tidy hcdc hx ht)

theorem executes_append {ys : List Included} {t₁ t₂ : Transient} (h : Executes geth cdc k xs t t₁)
    (h' : Executes geth cdc k ys t₁ t₂) : Executes geth cdc k (xs ++ ys) t t₂ := by
  induction h with
  | nil t => exact h'
  | cons hx _ ih => exact .cons hx (ih h')

section

variable (hcdc : RoundTrips cdc) (hbloom : geth.ReadsTopics)

include hcdc hbloom

variable {xs : List Included} {t t' : Transient}

theorem executes_kept {h : Hash} (hexec : Executes geth cdc k xs t t')
    (hxs : ∀ y ∈ xs, ¬ y.ExecutesUnder h) :
    getTransientReceipt cdc t' h = getTransientReceipt cdc t h := by
  induction hexec with
  | nil t => rfl
  | cons hx _ ih =>
    rw [ih fun y hy => hxs y (List.mem_cons_of_mem _ hy)]
    have hnot := hxs _ List.mem_cons_self
    cases hx with
    | failed _ s => rfl
    | succeeded hsucc s hx =>
      exact (succeeds_effects hcdc hbloom hx).kept h (fun e => hnot ⟨hsucc, .inl e.symm⟩)
        fun e => hnot ⟨hsucc, .inr e.symm⟩

theorem delivers_info {x : Included} (h : Delivers geth cdc k x t t') {i : UInt64}
    (hi : i ≠ x.tx.txIndex) : infoBytes t' i = infoBytes t i := by
  cases h with
  | failed _ s => rfl
  | succeeded _ s h => exact (succeeds_effects hcdc hbloom h).info i hi

theorem executes_info (h : Executes geth cdc k xs t t') {i : UInt64}
    (hi : ∀ y ∈ xs, i ≠ y.tx.txIndex) : infoBytes t' i = infoBytes t i := by
  induction h with
  | nil t => rfl
  | cons hx _ ih =>
    rw [ih fun y hy => hi y (List.mem_cons_of_mem _ hy)]
    exact delivers_info hcdc hbloom hx (hi _ List.mem_cons_self)

theorem executes_info_iff (h : Executes geth cdc k xs t t')
    (hnodup : (xs.map fun x => x.tx.txIndex).Nodup)
    (hfresh : ∀ y ∈ xs, infoBytes t y.tx.txIndex = none) {y : Included} (hy : y ∈ xs)
    (hevm : y.tx.evmTxHash ≠ none) : infoBytes t' y.tx.txIndex ≠ none ↔ y.succeeded = true := by
  induction h with
  | nil t => cases hy
  | @cons x xs t t₁ t₂ hx hrest ih =>
    rw [List.map_cons, List.nodup_cons] at hnodup
    have hne : ∀ z ∈ xs, z.tx.txIndex ≠ x.tx.txIndex := fun z hz e =>
      hnodup.1 (List.mem_map.mpr ⟨z, hz, e⟩)
    rcases List.mem_cons.mp hy with rfl | hy
    · rw [executes_info hcdc hbloom hrest fun z hz => (hne z hz).symm]
      cases hx with
      | failed hfail s =>
        refine ⟨fun hinfo => absurd (hfresh y List.mem_cons_self) hinfo, fun e => ?_⟩
        rw [hfail] at e
        cases e
      | succeeded hsucc s hx =>
        refine ⟨fun _ => hsucc, fun _ hnone => ?_⟩
        cases hx with
        | evm hash transacts hook =>
          obtain ⟨_, d, -, -, hd, -⟩ := transacts_left hcdc hbloom hash transacts hook
          rw [Settlement.getEVMTxDeferredInfo, ← infoBytes, hnone] at hd
          cases hd
        | cosmos hash => exact hevm hash
        | associate hash => exact hevm hash
    · refine ih hnodup.2 (fun z hz => ?_) hy
      rw [delivers_info hcdc hbloom hx (hne z hz)]
      exact hfresh z (List.mem_cons_of_mem _ hz)

/-! ### The infos of failures -/

theorem deferredInfoAt_error_iff (b : Block) (hexec : Executes geth cdc k b.order noTransient t)
    {i : Nat} {y : Included} (hy : b.txs[i]? = some y) {o : Option Settlement.DeferredInfo}
    (hat : Settlement.deferredInfoAt cdc.deferred t.deferred (b.txs.map fun x => ⟨x.log⟩) i y.msg =
      .ok o) (h : Hash) :
    (∃ info, o = some info ∧ info.IsError ∧ info.hash = h) ↔ y.FailsUnder h := by
  have hmem : y ∈ b.order := b.perm.mem_iff.mpr (List.mem_of_getElem? hy)
  have hinfo := executes_info_iff hcdc hbloom hexec b.nodup (fun _ _ => rfl) hmem
  have hkey : infoBytes t y.tx.txIndex =
      t.deferred.deferredInfo.get (Settlement.deferredInfoKey i) := by
    rw [infoBytes, b.index i y hy]
  rw [hkey] at hinfo
  rcases Settlement.deferredInfoAt_cases hat with ⟨info, hstored, rfl⟩ |
    ⟨hget, ⟨hmsg, rfl⟩ | ⟨m, hash, txRes, hmsg, hhash, hres, rfl⟩⟩
  · -- an info that was stored has no error, and its transaction succeeded
    have hclean : info.error = [] := by
      refine (executes_tidy hcdc hexec noTransient_tidy).infos y.tx.txIndex info ?_
      rw [hkey]
      exact hstored
    constructor
    · rintro ⟨_, e, herr, -⟩
      cases e
      exact absurd hclean herr.1
    · rintro ⟨hfail, hevm, -⟩
      obtain ⟨val, hval, -⟩ := Option.bind_eq_some_iff.mp hstored
      have hsucc := (hinfo (hevm ▸ Option.some_ne_none h)).mp (hval ▸ Option.some_ne_none val)
      cases hfail.symm.trans hsucc
  · constructor
    · rintro ⟨info, e, -⟩
      cases e
    · rintro ⟨-, e, -⟩
      rw [Included.msg, e] at hmsg
      cases hmsg
  · -- one that is made up stands for an EVM transaction that failed
    obtain ⟨evmHash, hevm, rfl⟩ := Option.map_eq_some_iff.mp hmsg
    cases hhash
    have hlog : txRes = ⟨y.log⟩ := by
      rw [List.getElem?_map, hy, Option.map_some] at hres
      exact (Option.some.inj hres).symm
    have hfail : y.succeeded = false := Bool.eq_false_iff.mpr fun e =>
      (hinfo (hevm ▸ Option.some_ne_none hash)).mpr e hget
    have hofBytes := FixedBytes.ofBytes_bytes hash
    rw [Included.FailsUnder, hevm, hfail, hlog]
    constructor
    · rintro ⟨_, e, ⟨herr, hne⟩, rfl⟩
      cases e
      exact ⟨rfl, congrArg some hofBytes.symm, herr, hne⟩
    · rintro ⟨-, e, herr, hne⟩
      cases e
      exact ⟨_, rfl, ⟨herr, fun e => hne (hofBytes.symm.trans e)⟩, hofBytes⟩

theorem exists_error_iff (b : Block) (hexec : Executes geth cdc k b.order noTransient t)
    {infos : List Settlement.DeferredInfo}
    (hinfos : Settlement.getAllEVMTxDeferredInfo cdc.deferred t.deferred (b.txs.map Included.msg)
      (b.txs.map fun x => ⟨x.log⟩) = .ok infos) (h : Hash) :
    (∃ info ∈ infos, info.IsError ∧ info.hash = h) ↔ ∃ y ∈ b.txs, y.FailsUnder h := by
  obtain ⟨found, hfound, hinfos⟩ := bind_eq_ok.mp hinfos
  cases hinfos
  constructor
  · rintro ⟨info, hmem, herr⟩
    obtain ⟨⟨msg, i⟩, hentry, hat⟩ :=
      exists_of_mem_mapM hfound (List.reduceOption_mem_iff.mp hmem)
    rw [List.mem_zipIdx_iff_getElem?, List.getElem?_map] at hentry
    obtain ⟨y, hy, rfl⟩ := Option.map_eq_some_iff.mp hentry
    exact ⟨y, List.mem_of_getElem? hy,
      (deferredInfoAt_error_iff hcdc hbloom b hexec hy hat h).mp ⟨info, rfl, herr⟩⟩
  · rintro ⟨y, hmem, hfails⟩
    obtain ⟨i, hy⟩ := List.mem_iff_getElem?.mp hmem
    have hentry : (y.msg, i) ∈ (b.txs.map Included.msg).zipIdx := by
      rw [List.mem_zipIdx_iff_getElem?, List.getElem?_map, hy, Option.map_some]
    obtain ⟨o, ho, hat⟩ := mem_of_mapM hfound hentry
    obtain ⟨info, rfl, herr⟩ :=
      (deferredInfoAt_error_iff hcdc hbloom b hexec hy hat h).mpr hfails
    exact ⟨info, List.reduceOption_mem_iff.mpr ho, herr⟩

end

/-! ### The end of a block -/

theorem recordFailures_entries {P : Bytes → Bytes → Prop}
    (hP : ∀ (h : Hash) r bz, cdc.marshalReceipt r = some bz → P h.bytes bz) (blockHeight : UInt64)
    (infos : List Settlement.DeferredInfo)
    (ht : ∀ key val, t.receipts.get key = some val → P key val) :
    ∀ key val, (recordFailures cdc blockHeight t infos).receipts.get key = some val →
      P key val := by
  induction infos generalizing t with
  | nil => exact ht
  | cons info infos ih =>
    refine ih fun key val hkey => ?_
    unfold recordFailure setTransientReceipt at hkey
    split at hkey
    · split at hkey
      · exact ht key val hkey
      · rename_i hbz
        rw [SortedStore.get_set] at hkey
        split at hkey
        · rename_i e
          cases hkey
          exact e ▸ hP _ _ _ hbz
        · exact ht key val hkey
    · exact ht key val hkey

theorem closed_keys (hcdc : RoundTrips cdc) {v v' : Stores β γ}
    (hexec : Executes geth cdc k b.order noTransient t)
    (hclose : endBlock cdc k b.blockHeight v t b.txs = .ok (v', t')) :
    ∀ key val, t'.receipts.get key = some val → key.length = 32 := by
  obtain ⟨infos, s, -, -, rfl, rfl⟩ := endBlock_eq_ok hclose
  exact recordFailures_entries (fun h _ _ _ => h.length_eq) b.blockHeight infos
    (executes_tidy hcdc hexec noTransient_tidy).hashes

def ShowsFailure (cdc : Codec) (a : Archive) (h : Hash) : Prop :=
  ∃ r, getReceipt cdc a h = some r ∧ ¬ IsExecution r

theorem failureReceipt_not_isExecution (blockHeight gas : UInt64) (info : Settlement.DeferredInfo) :
    ¬ IsExecution { failureReceipt blockHeight info with cumulativeGasUsed := gas } := by
  rintro (h | h)
  · exact h rfl
  · cases h

theorem blockEnd_cases (hcdc : RoundTrips cdc) (hbloom : geth.ReadsTopics) (b : Block)
    {v v' : Stores β γ} (hexec : Executes geth cdc k b.order noTransient t)
    (hclose : endBlock cdc k b.blockHeight v t b.txs = .ok (v', t'))
    (hflush : flushTransientReceipts sorter cdc t' a = some a') (h : Hash) :
    ((∃ y ∈ b.txs, y.FailsUnder h) ∧ ShowsFailure cdc a' h) ∨
      (¬ ∃ y ∈ b.txs, y.FailsUnder h) ∧
        ((∃ r gas, getTransientReceipt cdc t h = some r ∧
            getReceipt cdc a' h = some { r with cumulativeGasUsed := gas }) ∨
          getTransientReceipt cdc t h = none ∧ getReceipt cdc a' h = getReceipt cdc a h) := by
  have hread := getReceipt_flush hcdc (closed_keys hcdc hexec hclose) hflush h
  obtain ⟨infos, s, hinfos, -, rfl, rfl⟩ := endBlock_eq_ok hclose
  have herrors := exists_error_iff hcdc hbloom b hexec hinfos h
  rcases recordFailures_cases hcdc b.blockHeight infos t h with
    ⟨info, hmem, herr, hget⟩ | ⟨hnone, hget⟩
  · refine .inl ⟨herrors.mp ⟨info, hmem, herr⟩, ?_⟩
    rw [hget] at hread
    rcases hread with ⟨r, gas, e, hr⟩ | ⟨e, -⟩
    · cases e
      exact ⟨_, hr, failureReceipt_not_isExecution _ gas info⟩
    · cases e
  · refine .inr ⟨fun hfails => ?_, hget ▸ hread⟩
    obtain ⟨info, hmem, herr⟩ := herrors.mpr hfails
    exact hnone info hmem herr

/-! ### Blocks that execute nothing under the hash -/

theorem commits_cases (hcdc : RoundTrips cdc) (hbloom : geth.ReadsTopics)
    (hb : Commits geth cdc k sorter b a a') (honce : ∀ y ∈ b.txs, ¬ y.ExecutesUnder h) :
    ((∃ y ∈ b.txs, y.FailsUnder h) ∧ ShowsFailure cdc a' h) ∨
      (¬ ∃ y ∈ b.txs, y.FailsUnder h) ∧ getReceipt cdc a' h = getReceipt cdc a h := by
  obtain ⟨hexec, hclose, hflush⟩ := hb
  have hnone := executes_kept hcdc hbloom hexec fun y hy => honce y (b.perm.mem_iff.mp hy)
  rcases blockEnd_cases hcdc hbloom b hexec hclose hflush h with
    hfails | ⟨hfails, ⟨r, gas, hr, -⟩ | ⟨-, hsame⟩⟩
  · exact .inl hfails
  · rw [hnone] at hr
    cases hr
  · exact .inr ⟨hfails, hsame⟩

theorem extends_cases (hcdc : RoundTrips cdc) (hbloom : geth.ReadsTopics) {blocks : List Block}
    (hrun : Extends geth cdc k sorter a blocks a')
    (honce : ∀ b ∈ blocks, ∀ y ∈ b.txs, ¬ y.ExecutesUnder h) :
    ((∃ b ∈ blocks, ∃ y ∈ b.txs, y.FailsUnder h) ∧ ShowsFailure cdc a' h) ∨
      (¬ ∃ b ∈ blocks, ∃ y ∈ b.txs, y.FailsUnder h) ∧
        getReceipt cdc a' h = getReceipt cdc a h := by
  induction hrun with
  | nil a => exact .inr ⟨by rintro ⟨_, ⟨⟩, -⟩, rfl⟩
  | @cons b blocks a a₁ a₂ hb _ ih =>
    obtain ⟨honce₁, honce⟩ := List.forall_mem_cons.mp honce
    rw [List.exists_mem_cons_iff]
    rcases ih honce with ⟨hfails, hshows⟩ | ⟨hnone, hsame⟩
    · exact .inl ⟨.inr hfails, hshows⟩
    rcases commits_cases hcdc hbloom hb honce₁ with ⟨hfails, r, hr, hnot⟩ | ⟨hnone₁, hsame₁⟩
    · exact .inl ⟨.inl hfails, r, hsame.trans hr, hnot⟩
    · exact .inr ⟨not_or.mpr ⟨hnone₁, hnone⟩, hsame.trans hsame₁⟩

/-! ### The receipt of an execution -/

theorem CommitsReceipt.commits (hb : CommitsReceipt geth cdc k sorter b h r a a') :
    Commits geth cdc k sorter b a a' := by
  obtain ⟨split, first, -, -, delivered, -, rest, -, close, flush⟩ := hb
  exact .intro (split ▸ executes_append first (.cons delivered rest)) close flush

theorem commitsReceipt_cases (hcdc : RoundTrips cdc) (hbloom : geth.ReadsTopics)
    (hb : CommitsReceipt geth cdc k sorter b h r a a') :
    IsExecution r ∧ (((∃ y ∈ b.txs, y.FailsUnder h) ∧ ShowsFailure cdc a' h) ∨
      (¬ ∃ y ∈ b.txs, y.FailsUnder h) ∧
        ∃ gas, getReceipt cdc a' h = some { r with cumulativeGasUsed := gas }) := by
  obtain ⟨split, first, executed, hash, delivered, receipt, rest, once, close, flush⟩ := hb
  have hexec := executes_append first (.cons delivered rest)
  rw [← split] at hexec
  have htidy := delivers_tidy hcdc delivered (executes_tidy hcdc first noTransient_tidy)
  refine ⟨htidy.executions h r receipt, ?_⟩
  -- what comes after the execution leaves its receipt in the transient store
  have hkept := executes_kept hcdc hbloom rest once
  rcases blockEnd_cases hcdc hbloom b hexec close flush h with
    hfails | ⟨hnone, ⟨r', gas, hr', hread⟩ | ⟨hr', -⟩⟩
  · exact .inl hfails
  · cases hr'.symm.trans (hkept.trans receipt)
    exact .inr ⟨hnone, gas, hread⟩
  · cases hr'.symm.trans (hkept.trans receipt)

theorem ShowsFailure.ne (hr : IsExecution r) (hshows : ShowsFailure cdc a h) (gas : UInt64) :
    getReceipt cdc a h ≠ some { r with cumulativeGasUsed := gas } := by
  obtain ⟨r', hr', hnot⟩ := hshows
  intro e
  cases hr'.symm.trans e
  exact hnot hr

/-- **When a receipt stays.**  The receipt of an execution is what `GetReceipt` returns after the
flush of its block, and after any later blocks, exactly when no entry of its block and no entry of
the later blocks failed under the same hash. -/
theorem receipt_kept_iff {geth : Geth} {cdc : Codec} (hcdc : RoundTrips cdc)
    (hbloom : geth.ReadsTopics) {k : Keepers β γ} {sorter : SortSlice} {b : Block}
    {blocks : List Block} {h : Hash} {r : Receipt} {a a₁ a₂ : Archive}
    (hfirst : CommitsReceipt geth cdc k sorter b h r a a₁)
    (hlater : Extends geth cdc k sorter a₁ blocks a₂)
    (honce : ∀ b' ∈ blocks, ∀ y ∈ b'.txs, ¬ y.ExecutesUnder h) :
    (∃ gas, getReceipt cdc a₁ h = some { r with cumulativeGasUsed := gas } ∧
        getReceipt cdc a₂ h = some { r with cumulativeGasUsed := gas }) ↔
      ∀ b' ∈ b :: blocks, ∀ y ∈ b'.txs, ¬ y.FailsUnder h := by
  obtain ⟨hr, hend⟩ := commitsReceipt_cases hcdc hbloom hfirst
  have hblocks := extends_cases hcdc hbloom hlater honce
  rw [List.forall_mem_cons]
  constructor
  · rintro ⟨gas, h₁, h₂⟩
    constructor
    · intro y hy hfails
      rcases hend with ⟨-, hshows⟩ | ⟨hnone, -⟩
      · exact hshows.ne hr gas h₁
      · exact hnone ⟨y, hy, hfails⟩
    · intro b' hb' y hy hfails
      rcases hblocks with ⟨-, hshows⟩ | ⟨hnone, -⟩
      · exact hshows.ne hr gas h₂
      · exact hnone ⟨b', hb', y, hy, hfails⟩
  · rintro ⟨hnone, hnones⟩
    rcases hend with ⟨⟨y, hy, hfails⟩, -⟩ | ⟨-, gas, hread⟩
    · exact absurd hfails (hnone y hy)
    rcases hblocks with ⟨⟨b', hb', y, hy, hfails⟩, -⟩ | ⟨-, hsame⟩
    · exact absurd hfails (hnones b' hb' y hy)
    · exact ⟨gas, hread, hsame.trans hread⟩

/-! ### A transaction that is included twice -/

def byIndex : SortSlice where
  sort l := l.mergeSort fun x y => x.2.transactionIndex ≤ y.2.transactionIndex
  perm l := List.mergeSort_perm l _
  sorted l := by
    refine (List.pairwise_mergeSort (fun x y z h h' => ?_) (fun x y => ?_) l).imp
      of_decide_eq_true
    · exact decide_eq_true (UInt32.le_trans (of_decide_eq_true h) (of_decide_eq_true h'))
    · rw [Bool.or_eq_true, decide_eq_true_iff, decide_eq_true_iff]
      exact UInt32.le_total _ _

def inOrder (blockHeight : UInt64) (txs : List Included)
    (h : txs.map (fun x => x.tx.txIndex.toNat) = List.range txs.length) : Block where
  blockHeight := blockHeight
  txs := txs
  order := txs
  perm := .refl txs
  index i x hx := by
    have hi : (txs.map fun x => x.tx.txIndex.toNat)[i]? = (List.range txs.length)[i]? := by rw [h]
    rw [List.getElem?_map, hx, List.getElem?_range (List.getElem?_eq_some_iff.mp hx).1] at hi
    exact Option.some.inj hi

def executed : Included := ⟨loggingTx, true, []⟩

def turnedDown (tx : Tx) : Included := ⟨tx, false, Bytes.ascii "nonce too low"⟩

def onceBlock : Block := inOrder 1 [executed] rfl

def twiceBlock : Block := inOrder 1 [executed, turnedDown { loggingTx with txIndex := 1 }] rfl

def repeatBlock : Block := inOrder 2 [turnedDown { loggingTx with blockHeight := 2 }] rfl

def otherBlock : Block :=
  inOrder 2 [turnedDown ⟨.ofBytes 32 [3], some (.ofBytes 32 [4]), 0, 2, 0, []⟩] rfl

def noArchive : Archive := ⟨fun _ => none, fun _ => none⟩

theorem closes (b : Block) {infos : List Settlement.DeferredInfo}
    (hinfos : Settlement.getAllEVMTxDeferredInfo numberCodec.deferred t.deferred (b.txs.map
      Included.msg) (b.txs.map fun x => ⟨x.log⟩) = .ok infos)
    (hante : t.deferred.anteSurplus = .empty)
    (hreceipts : ∀ key val, t.receipts.get key = some val → numberCodec.unmarshalReceipt val ≠ none)
    (hbloom : ∀ info ∈ infos, info.txBloom.length ≤ 256)
    (hsurplus : ∀ info ∈ infos, ¬ info.IsError → info.surplus = some 0) (a : Archive) :
    ∃ v' t' a', endBlock numberCodec (ledgerKeepers []) b.blockHeight Settlement.noStores t b.txs =
        .ok (v', t') ∧ flushTransientReceipts byIndex numberCodec t' a = some a' := by
  have hwf : t.deferred.AnteWellFormed numberCodec.deferred := fun {key val} h => by
    rw [hante] at h
    cases h
  have hsettled : ∀ info ∈ Settlement.settled infos, info.surplus = some 0 := fun info hinfo => by
    obtain ⟨hmem, hok⟩ := List.mem_filter.mp hinfo
    exact hsurplus info hmem (of_decide_eq_true hok)
  -- nothing is owed and nothing is held, so the settlement goes through
  obtain ⟨s, hs⟩ : ∃ s, Settlement.endBlockWith (ledgerKeepers []) b.blockHeight
      numberCodec.deferred Settlement.noStores t.deferred infos = .ok s := by
    refine (Settlement.endBlockWith_completes_iff Settlement.bankReads_ledger
      (show Settlement.NothingHeld Settlement.noStores from rfl) hwf hbloom).mpr
      ⟨fun hnone => ?_, fun n => ?_⟩
    · obtain ⟨info, hinfo, hnone⟩ := List.mem_map.mp hnone
      cases (hsettled info hinfo).symm.trans hnone
    have hzero : ((Settlement.surpluses numberCodec.deferred t.deferred infos).take n).sum = 0 := by
      refine List.sum_eq_zero fun z hz => ?_
      have hz := List.mem_of_mem_take hz
      rw [Settlement.surpluses, Settlement.anteSurpluses, hante] at hz
      obtain ⟨info, hinfo, hz⟩ := List.mem_filterMap.mp hz
      exact Option.some.inj (hz.symm.trans (hsettled info hinfo))
    rw [hzero]
    decide
  have hdecode : ∀ key val, (recordFailures numberCodec b.blockHeight t infos).receipts.get key =
      some val → numberCodec.unmarshalReceipt val ≠ none := by
    refine recordFailures_entries (fun _ r bz hbz => ?_) b.blockHeight infos hreceipts
    obtain ⟨bz', hbz', hback⟩ := numberCodec_roundTrips.receipt r
    cases hbz.symm.trans hbz'
    rw [hback]
    exact Option.some_ne_none r
  obtain ⟨a', ha'⟩ : ∃ a', flushTransientReceipts byIndex numberCodec _ a = some a' :=
    flush_returns numberCodec_roundTrips hdecode a
  exact ⟨s.stores, _, a', bind_eq_ok.mpr ⟨infos, hinfos,
    bind_eq_ok.mpr ⟨s, hs, rfl⟩⟩, ha'⟩

theorem executes_failed (hante : t.deferred.anteSurplus = .empty)
    (hxs : ∀ x ∈ xs, x.succeeded = false) : Executes geth cdc k xs t t := by
  induction xs with
  | nil => exact .nil t
  | cons x xs ih =>
    obtain ⟨hx, hxs⟩ := List.forall_mem_cons.mp hxs
    have ht : withAnteSurplus t .empty = t := by rw [withAnteSurplus, ← hante]
    have hstep : Delivers geth cdc k x t (withAnteSurplus t .empty) := .failed hx .empty
    rw [ht] at hstep
    exact .cons hstep (ih hxs)

theorem turnedDown_failed {txs : List Tx} : ∀ x ∈ txs.map turnedDown, x.succeeded = false := by
  intro x hx
  obtain ⟨tx, -, rfl⟩ := List.mem_map.mp hx
  rfl

theorem commits_turnedDown (b : Block) (txs : List Tx) (horder : b.order = txs.map turnedDown)
    {infos : List Settlement.DeferredInfo}
    (hinfos : Settlement.getAllEVMTxDeferredInfo numberCodec.deferred noTransient.deferred
      (b.txs.map Included.msg) (b.txs.map fun x => ⟨x.log⟩) = .ok infos)
    (hbloom : ∀ info ∈ infos, info.txBloom.length ≤ 256)
    (hsurplus : ∀ info ∈ infos, ¬ info.IsError → info.surplus = some 0)
    (a : Archive) : ∃ a', Commits addressGeth numberCodec (ledgerKeepers []) byIndex b a a' := by
  obtain ⟨v', t', a', hclose, hflush⟩ := closes b hinfos rfl nofun hbloom hsurplus a
  exact ⟨a', .intro (horder ▸ executes_failed rfl turnedDown_failed) hclose hflush⟩

theorem commits_logging (geth : Geth) (b : Block) {before after : List Included} {tx : Tx}
    {txHash : Hash} (x : Executed) (hash : tx.evmTxHash = some txHash)
    (horder : b.order = before ++ ⟨tx, true, []⟩ :: after)
    (hbefore : ∀ y ∈ before, y.succeeded = false) (hafter : ∀ y ∈ after, y.succeeded = false)
    (failures : List Settlement.DeferredInfo)
    (hinfos : ∀ {cdc : Settlement.Codec} {bz val d}, cdc.unmarshalInfo val = some d →
      ∃ infos, Settlement.getAllEVMTxDeferredInfo cdc
        (writtenTransient txHash tx.txIndex bz val).deferred (b.txs.map Included.msg)
        (b.txs.map fun x => ⟨x.log⟩) = .ok infos ∧ infos.Perm (d :: failures))
    (hbloom : ∀ info ∈ failures, info.txBloom.length ≤ 256)
    (hsurplus : ∀ info ∈ failures, ¬ info.IsError → info.surplus = some 0) (a : Archive) :
    ∃ a', CommitsReceipt geth numberCodec (ledgerKeepers []) byIndex b txHash
      (receiptOf geth tx keptLogs txHash x) a a' := by
  obtain ⟨bz, val, htransacts, hreceipt, hinfo⟩ := logging_transacts geth tx txHash x
  have hread : getTransientReceipt numberCodec (writtenTransient txHash tx.txIndex bz val) txHash =
      some (receiptOf geth tx keptLogs txHash x) := by
    rw [getTransientReceipt, writtenTransient, SortedStore.get_set, if_pos rfl]
    exact hreceipt
  have hreceipts : ∀ key bz', (writtenTransient txHash tx.txIndex bz val).receipts.get key =
      some bz' → numberCodec.unmarshalReceipt bz' ≠ none := by
    intro key bz' hkey
    rw [writtenTransient, SortedStore.get_set] at hkey
    split at hkey
    · cases hkey
      rw [hreceipt]
      exact Option.some_ne_none _
    · cases hkey
  have hdelivered : Delivers geth numberCodec (ledgerKeepers []) ⟨tx, true, []⟩ noTransient
      (writtenTransient txHash tx.txIndex bz val) :=
    .succeeded rfl .empty (.evm hash htransacts (quietHook_hooked _ _ _ _))
  -- the collected infos are that of the transaction and those of the failures
  obtain ⟨infos, hinfos, hperm⟩ := hinfos hinfo
  generalize geth.createBloom keptLogs = bloom at hperm
  have hblooms : ∀ info ∈ infos, info.txBloom.length ≤ 256 := by
    intro info hmem
    rcases List.mem_cons.mp (hperm.mem_iff.mp hmem) with rfl | hmem
    · exact bloom.length_eq.le
    · exact hbloom info hmem
  have hsurpluses : ∀ info ∈ infos, ¬ info.IsError → info.surplus = some 0 := by
    intro info hmem hok
    rcases List.mem_cons.mp (hperm.mem_iff.mp hmem) with rfl | hmem
    · rfl
    · exact hsurplus info hmem hok
  obtain ⟨v', t', a', hclose, hflush⟩ := closes b hinfos rfl hreceipts hblooms hsurpluses a
  refine ⟨a', .intro horder (executes_failed rfl hbefore) rfl (hashOf_evm hash) hdelivered hread
    (executes_failed rfl hafter) ?_ hclose hflush⟩
  intro y hy hexec
  cases (hafter y hy).symm.trans hexec.1

theorem commits_executed (b : Block) (txs : List Tx)
    (horder : b.order = executed :: txs.map turnedDown) (infos : List Settlement.DeferredInfo)
    (hinfos : ∀ {cdc : Settlement.Codec} {bz val d}, cdc.unmarshalInfo val = some d →
      Settlement.getAllEVMTxDeferredInfo cdc (loggedTransient bz val).deferred
        (b.txs.map Included.msg) (b.txs.map fun x => ⟨x.log⟩) = .ok (d :: infos))
    (hbloom : ∀ info ∈ infos, info.txBloom.length ≤ 256)
    (hsurplus : ∀ info ∈ infos, ¬ info.IsError → info.surplus = some 0)
    (a : Archive) : ∃ r a', CommitsReceipt addressGeth numberCodec (ledgerKeepers []) byIndex b
      loggingHash r a a' := by
  have hsplit : b.order = [] ++ ⟨loggingTx, true, []⟩ :: txs.map turnedDown := horder
  have hash : loggingTx.evmTxHash = some loggingHash := rfl
  have hnone : ∀ y ∈ ([] : List Included), y.succeeded = false := by simp
  obtain ⟨a', h⟩ := commits_logging addressGeth b plainExecution hash hsplit hnone turnedDown_failed
    infos (fun hval => ⟨_, hinfos hval, .refl _⟩) hbloom hsurplus a
  exact ⟨_, a', h⟩

theorem onceBlock_commits : ∃ r a', CommitsReceipt addressGeth numberCodec (ledgerKeepers [])
    byIndex onceBlock loggingHash r noArchive a' := by
  refine commits_executed onceBlock [] rfl [] (fun hval => ?_) nofun nofun noArchive
  simp [Settlement.getAllEVMTxDeferredInfo, Settlement.deferredInfoAt, loggedTransient,
    SortedStore.get_set, hval, onceBlock, inOrder]

theorem twiceBlock_commits : ∃ r a', CommitsReceipt addressGeth numberCodec (ledgerKeepers [])
    byIndex twiceBlock loggingHash r noArchive a' := by
  refine commits_executed twiceBlock [{ loggingTx with txIndex := 1 }] rfl
    [⟨1, loggingHash.bytes, [], none, Bytes.ascii "nonce too low"⟩] (fun hval => ?_)
    (by decide) (by decide) noArchive
  simp [Settlement.getAllEVMTxDeferredInfo, Settlement.deferredInfoAt, loggedTransient,
    SortedStore.get_set, hval, twiceBlock, inOrder]
  rfl

theorem receipt_kept_otherBlock : ∃ r a₁ a₂,
    CommitsReceipt addressGeth numberCodec (ledgerKeepers []) byIndex onceBlock loggingHash r
        noArchive a₁ ∧
      Extends addressGeth numberCodec (ledgerKeepers []) byIndex a₁ [otherBlock] a₂ ∧
      ∃ gas, getReceipt numberCodec a₁ loggingHash = some { r with cumulativeGasUsed := gas } ∧
        getReceipt numberCodec a₂ loggingHash = some { r with cumulativeGasUsed := gas } := by
  obtain ⟨r, a₁, hfirst⟩ := onceBlock_commits
  obtain ⟨a₂, hother⟩ := commits_turnedDown otherBlock
    [⟨.ofBytes 32 [3], some (.ofBytes 32 [4]), 0, 2, 0, []⟩] rfl
    (show _ = Except.ok [⟨0, _, [], none, Bytes.ascii "nonce too low"⟩] from rfl)
    (by decide) (by decide) a₁
  have hlater := Extends.cons hother (.nil a₂)
  exact ⟨r, a₁, a₂, hfirst, hlater, (receipt_kept_iff numberCodec_roundTrips
    addressGeth_readsTopics hfirst hlater (by decide)).mpr (by decide)⟩

/-- When the transaction is included again and turned down, `GetReceipt` returns the receipt of a
failure: for a second inclusion in the same block, and for one in the next block. -/
theorem receipt_overwritten : (∃ r a₁,
      CommitsReceipt addressGeth numberCodec (ledgerKeepers []) byIndex twiceBlock loggingHash r
        noArchive a₁ ∧ IsExecution r ∧ ShowsFailure numberCodec a₁ loggingHash) ∧
    ∃ r gas a₁ a₂, CommitsReceipt addressGeth numberCodec (ledgerKeepers []) byIndex onceBlock
        loggingHash r noArchive a₁ ∧ IsExecution r ∧
      getReceipt numberCodec a₁ loggingHash = some { r with cumulativeGasUsed := gas } ∧
      Commits addressGeth numberCodec (ledgerKeepers []) byIndex repeatBlock a₁ a₂ ∧
      ShowsFailure numberCodec a₂ loggingHash := by
  constructor
  · obtain ⟨r, a₁, hfirst⟩ := twiceBlock_commits
    obtain ⟨hr, ⟨-, hshows⟩ | ⟨hnone, -⟩⟩ :=
      commitsReceipt_cases numberCodec_roundTrips addressGeth_readsTopics hfirst
    · exact ⟨r, a₁, hfirst, hr, hshows⟩
    · exact absurd (by decide) hnone
  · obtain ⟨r, a₁, hfirst⟩ := onceBlock_commits
    obtain ⟨a₂, hrepeat⟩ := commits_turnedDown repeatBlock
      [{ loggingTx with blockHeight := 2 }] rfl
      (show _ = Except.ok [⟨0, loggingHash.bytes, [], none, Bytes.ascii "nonce too low"⟩] from rfl)
      (by decide) (by decide) a₁
    obtain ⟨hr, ⟨hfails, -⟩ | ⟨-, gas, hread⟩⟩ :=
      commitsReceipt_cases numberCodec_roundTrips addressGeth_readsTopics hfirst
    · exact absurd hfails (by decide)
    refine ⟨r, gas, a₁, a₂, hfirst, hr, hread, hrepeat, ?_⟩
    rcases commits_cases (h := loggingHash) numberCodec_roundTrips addressGeth_readsTopics hrepeat
      (by decide) with ⟨-, hshows⟩ | ⟨hnone, -⟩
    · exact hshows
    · exact absurd (by decide) hnone

end Tabi.Receipts
