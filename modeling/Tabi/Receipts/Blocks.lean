import Tabi.Receipts.Effects
import Tabi.Support.ByteUnion

/-!
# Receipts — a block

The transactions of a block run in some order, each at its own index, over a transient store that
starts empty; then `EndBlock` writes the receipts of the failures and merges the blooms of the
deferred infos into the block bloom.
-/

namespace Tabi.Receipts

open Support StateDB Synthetic

variable {β γ : Type}

structure Included where
  tx : Tx
  succeeded : Bool
  log : Bytes

/-- `GetEVMMsg`: the EVM message of a transaction, if it is one. -/
def Included.msg (x : Included) : Option Settlement.MsgEVMTransaction :=
  x.tx.evmTxHash.map fun hash => ⟨some hash⟩

def noTransient : Transient := ⟨.empty, ⟨.empty, .empty, .empty⟩⟩

def withAnteSurplus (t : Transient) (s : SortedStore Bytes Bytes) : Transient :=
  { t with deferred := { t.deferred with anteSurplus := s } }

section

variable (geth : Geth) (cdc : Codec) (k : Keepers β γ)

inductive Delivers (x : Included) (t : Transient) : Transient → Prop where
  | failed (hx : x.succeeded = false) (s : SortedStore Bytes Bytes) :
      Delivers x t (withAnteSurplus t s)
  | succeeded (hx : x.succeeded = true) (s : SortedStore Bytes Bytes) {t' : Transient}
      (h : Succeeds geth cdc k x.tx (withAnteSurplus t s) t') : Delivers x t t'

inductive Executes : List Included → Transient → Transient → Prop where
  | nil (t : Transient) : Executes [] t t
  | cons {x : Included} {xs : List Included} {t t₁ t₂ : Transient}
      (h : Delivers geth cdc k x t t₁) (rest : Executes xs t₁ t₂) : Executes (x :: xs) t t₂

/-- `EndBlock` over the transactions of a block, by index: the stores and the transient store
after it. -/
def endBlock (blockHeight : UInt64) (v : Stores β γ) (t : Transient) (txs : List Included) :
    Outcome (Stores β γ × Transient) := do
  let infos ← Settlement.getAllEVMTxDeferredInfo cdc.deferred t.deferred (txs.map Included.msg)
    (txs.map fun x => ⟨x.log⟩)
  let s ← Settlement.endBlockWith k blockHeight cdc.deferred v t.deferred infos
  return (s.stores, recordFailures cdc blockHeight t infos)

structure Block where
  blockHeight : UInt64
  txs : List Included
  order : List Included
  perm : order.Perm txs
  index : ∀ (i : Nat) (x : Included), txs[i]? = some x → x.tx.txIndex.toNat = i

end

variable {geth : Geth} {cdc : Codec} {k : Keepers β γ}

theorem Block.index_lt (b : Block) {x : Included} (hx : x ∈ b.order) :
    x.tx.txIndex.toNat < b.txs.length := by
  obtain ⟨i, hi⟩ := List.mem_iff_getElem?.mp (b.perm.mem_iff.mp hx)
  rw [b.index i x hi]
  exact (List.getElem?_eq_some_iff.mp hi).1

theorem Block.nodup (b : Block) : (b.order.map fun x => x.tx.txIndex).Nodup := by
  refine (b.perm.map _).nodup_iff.mpr ?_
  rw [List.Nodup, List.pairwise_iff_getElem]
  intro i j hi hj hlt e
  rw [List.getElem_map, List.getElem_map] at e
  have hi' := b.index i _ (List.getElem?_eq_getElem (by simpa using hi))
  have hj' := b.index j _ (List.getElem?_eq_getElem (by simpa using hj))
  rw [e, hj'] at hi'
  exact hlt.ne' hi'

def Recorded (cdc : Codec) (done : List UInt64) (t : Transient) : Prop :=
  ∀ h r, getTransientReceipt cdc t h = some r → ∃ i ∈ done, ∃ d,
    Settlement.getEVMTxDeferredInfo cdc.deferred t.deferred i = some d ∧ d.txBloom = r.logsBloom

theorem delivers_recorded (hcdc : RoundTrips cdc) (hbloom : geth.ReadsTopics) {x : Included}
    {done : List UInt64} (hnew : x.tx.txIndex ∉ done) {t t' : Transient}
    (h : Delivers geth cdc k x t t') (ht : Recorded cdc done t) :
    Recorded cdc (x.tx.txIndex :: done) t' := by
  cases h with
  | failed _ s =>
    intro a r hr
    obtain ⟨i, hi, hd⟩ := ht a r hr
    exact ⟨i, List.mem_cons_of_mem _ hi, hd⟩
  | succeeded _ s h =>
    have heff := succeeds_effects hcdc hbloom h
    -- a receipt that was there before has its info at another index
    have hold : ∀ a r, getTransientReceipt cdc t a = some r →
        ∃ i ∈ x.tx.txIndex :: done, ∃ d,
          Settlement.getEVMTxDeferredInfo cdc.deferred t'.deferred i = some d ∧
            d.txBloom = r.logsBloom := by
      intro a r hr
      obtain ⟨i, hi, d, hd, hb⟩ := ht a r hr
      have hne : i ≠ x.tx.txIndex := fun e => hnew (e ▸ hi)
      refine ⟨i, List.mem_cons_of_mem _ hi, d, ?_, hb⟩
      rw [Settlement.getEVMTxDeferredInfo, ← infoBytes, heff.info i hne]
      exact hd
    intro a r hr
    by_cases e : a = hashOf x.tx
    · rcases heff.own with hsame | ⟨r', d, hr', -, hd, hb, -⟩
      · rw [hsame] at hr
        exact hold a r hr
      · rw [e, hr'] at hr
        cases hr
        exact ⟨_, List.mem_cons_self, d, hd, hb⟩
    · rcases heff.others a e with hsame | hnone
      · rw [hsame] at hr
        exact hold a r hr
      · rw [hnone] at hr
        cases hr

theorem executes_recorded (hcdc : RoundTrips cdc) (hbloom : geth.ReadsTopics) {xs : List Included}
    {t t' : Transient} (h : Executes geth cdc k xs t t') :
    ∀ {done : List UInt64}, (xs.map fun x => x.tx.txIndex).Nodup →
      (∀ x ∈ xs, x.tx.txIndex ∉ done) → Recorded cdc done t →
      ∃ done', (∀ i ∈ done', i ∈ done ∨ ∃ x ∈ xs, x.tx.txIndex = i) ∧ Recorded cdc done' t' := by
  induction h with
  | nil t => exact fun _ _ ht => ⟨_, fun i hi => .inl hi, ht⟩
  | @cons x xs t t₁ t₂ hx _ ih =>
    intro done hnodup hfresh ht
    rw [List.map_cons, List.nodup_cons] at hnodup
    have hx' := delivers_recorded hcdc hbloom (hfresh x List.mem_cons_self) hx ht
    have hrest : ∀ y ∈ xs, y.tx.txIndex ∉ x.tx.txIndex :: done := by
      intro y hy hmem
      rcases List.mem_cons.mp hmem with e | hmem
      · exact hnodup.1 (List.mem_map.mpr ⟨y, hy, e⟩)
      · exact hfresh y (List.mem_cons_of_mem _ hy) hmem
    obtain ⟨done', hdone', ht'⟩ := ih hnodup.2 hrest hx'
    refine ⟨done', fun i hi => ?_, ht'⟩
    rcases hdone' i hi with hi | ⟨y, hy, rfl⟩
    · rcases List.mem_cons.mp hi with rfl | hi
      · exact .inr ⟨x, List.mem_cons_self, rfl⟩
      · exact .inl hi
    · exact .inr ⟨y, List.mem_cons_of_mem _ hy, rfl⟩

theorem endBlock_eq_ok {blockHeight : UInt64} {v v' : Stores β γ} {t t' : Transient}
    {txs : List Included} (h : endBlock cdc k blockHeight v t txs = .ok (v', t')) :
    ∃ infos s, Settlement.getAllEVMTxDeferredInfo cdc.deferred t.deferred
        (txs.map Included.msg) (txs.map fun x => ⟨x.log⟩) = .ok infos ∧
      Settlement.endBlockWith k blockHeight cdc.deferred v t.deferred infos = .ok s ∧
      v' = s.stores ∧ t' = recordFailures cdc blockHeight t infos := by
  obtain ⟨infos, hinfos, h⟩ := bind_eq_ok.mp h
  obtain ⟨s, hs, h⟩ := bind_eq_ok.mp h
  cases h
  exact ⟨infos, s, hinfos, hs, rfl, rfl⟩

theorem endBlockWith_bloom {blockHeight : UInt64} {v : Stores β γ} {t : Settlement.Transient}
    {infos : List Settlement.DeferredInfo} {s : Settlement.Settling β γ}
    (h : Settlement.endBlockWith k blockHeight cdc.deferred v t infos = .ok s) :
    ∃ blockBloom, s.stores.evm [0x0d] = some blockBloom ∧ blockBloom.length = 256 ∧
      ∀ info ∈ infos, Covers blockBloom (FixedBytes.ofBytes 256 info.txBloom).bytes := by
  obtain ⟨surplus, -, h⟩ := bind_eq_ok.mp h
  obtain ⟨s₁, -, h⟩ := bind_eq_ok.mp h
  obtain ⟨stores, -, h⟩ := bind_eq_ok.mp h
  obtain ⟨blooms, hblooms, h⟩ := bind_eq_ok.mp h
  cases h
  obtain ⟨hlen, -, hall⟩ := foldl_or_covers blooms (List.length_replicate (n := 256) (a := 0))
  refine ⟨_, rfl, hlen, fun info hinfo => ?_⟩
  obtain ⟨bloom, hmem, hbloom⟩ := mem_of_mapM hblooms hinfo
  have hof : bloom = .ofBytes 256 info.txBloom := by
    unfold Settlement.bytesToBloom at hbloom
    split at hbloom
    · cases hbloom
    · exact (Except.ok.inj hbloom).symm
  exact hof ▸ hall bloom hmem

theorem mem_infos {t : Settlement.Transient} {txs : List Included}
    {infos : List Settlement.DeferredInfo}
    (h : Settlement.getAllEVMTxDeferredInfo cdc.deferred t (txs.map Included.msg)
      (txs.map fun x => ⟨x.log⟩) = .ok infos)
    {i : UInt64} (hi : i.toNat < txs.length) {d : Settlement.DeferredInfo}
    (hd : Settlement.getEVMTxDeferredInfo cdc.deferred t i = some d) : d ∈ infos := by
  obtain ⟨found, hfound, h⟩ := bind_eq_ok.mp h
  cases h
  obtain ⟨val, hval, hback⟩ := Option.bind_eq_some_iff.mp hd
  have hmem : ((txs[i.toNat]).msg, i.toNat) ∈ (txs.map Included.msg).zipIdx := by
    rw [List.mem_zipIdx_iff_getElem?, List.getElem?_map, List.getElem?_eq_getElem hi]
    rfl
  obtain ⟨o, ho, hat⟩ := mem_of_mapM hfound hmem
  have hlog : (txs.map fun x => Settlement.ExecTxResult.mk x.log)[i.toNat]? =
      some ⟨(txs[i.toNat]).log⟩ := by
    rw [List.getElem?_map, List.getElem?_eq_getElem hi]
    rfl
  simp only [Settlement.deferredInfoAt, hlog, hval, hback] at hat
  cases hat
  exact List.reduceOption_mem_iff.mpr ho

theorem recordFailure_get (hcdc : RoundTrips cdc) (blockHeight : UInt64) (t : Transient)
    (info : Settlement.DeferredInfo) (h : Hash) :
    getTransientReceipt cdc (recordFailure cdc blockHeight t info) h =
      if info.IsError ∧ info.hash = h then some (failureReceipt blockHeight info)
      else getTransientReceipt cdc t h := by
  obtain ⟨bz, hbz, hback⟩ := hcdc.receipt (failureReceipt blockHeight info)
  unfold recordFailure
  by_cases herr : info.IsError
  · rw [if_pos herr, setTransientReceipt, hbz, getTransientReceipt_set, hback]
    simp only [herr, true_and, eq_comm]
  · rw [if_neg herr, if_neg fun e => herr e.1]

theorem recordFailures_cases (hcdc : RoundTrips cdc) (blockHeight : UInt64)
    (infos : List Settlement.DeferredInfo) (t : Transient) (h : Hash) :
    (∃ info ∈ infos, (info.IsError ∧ info.hash = h) ∧
        getTransientReceipt cdc (recordFailures cdc blockHeight t infos) h =
          some (failureReceipt blockHeight info)) ∨
      (∀ info ∈ infos, ¬ (info.IsError ∧ info.hash = h)) ∧
        getTransientReceipt cdc (recordFailures cdc blockHeight t infos) h =
          getTransientReceipt cdc t h := by
  induction infos generalizing t with
  | nil => exact .inr ⟨nofun, rfl⟩
  | cons info infos ih =>
    rcases ih (recordFailure cdc blockHeight t info) with ⟨info', hmem, hrest⟩ | ⟨hnone, hget⟩
    · exact .inl ⟨info', List.mem_cons_of_mem _ hmem, hrest⟩
    rw [recordFailure_get hcdc] at hget
    by_cases herr : info.IsError ∧ info.hash = h
    · rw [if_pos herr] at hget
      exact .inl ⟨info, List.mem_cons_self, herr, hget⟩
    · rw [if_neg herr] at hget
      exact .inr ⟨List.forall_mem_cons.mpr ⟨herr, hnone⟩, hget⟩

def bloomOf (r : Receipt) : FixedBytes 256 := .ofBytes 256 r.logsBloom

theorem block_covers (hcdc : RoundTrips cdc) (hbloom : geth.ReadsTopics) (b : Block)
    {t t' : Transient} {v v' : Stores β γ} (hexec : Executes geth cdc k b.order noTransient t)
    (hend : endBlock cdc k b.blockHeight v t b.txs = .ok (v', t')) :
    ∃ blockBloom, v'.evm [0x0d] = some blockBloom ∧
      ∀ h r, getTransientReceipt cdc t' h = some r → Covers blockBloom (bloomOf r).bytes := by
  obtain ⟨infos, s, hinfos, hs, rfl, rfl⟩ := endBlock_eq_ok hend
  obtain ⟨blockBloom, hget, hlen, hcovers⟩ := endBlockWith_bloom hs
  obtain ⟨done, hdone, hrecorded⟩ :=
    executes_recorded hcdc hbloom hexec b.nodup (fun _ _ => List.not_mem_nil) nofun
  refine ⟨blockBloom, hget, fun h r hr => ?_⟩
  rcases recordFailures_cases hcdc b.blockHeight infos t h with ⟨info, -, -, hr'⟩ | ⟨-, hr'⟩
  · cases hr.symm.trans hr'
    exact Covers.ofBytes_nil hlen
  · obtain ⟨i, hi, d, hd, hb⟩ := hrecorded h r (hr'.symm.trans hr)
    rcases hdone i hi with hi | ⟨x, hx, rfl⟩
    · cases hi
    · have hcover := hcovers d (mem_infos hinfos (b.index_lt hx) hd)
      rwa [hb] at hcover

end Tabi.Receipts
