import Tabi.Settlement.EndBlock

/-!
# Settlement — the loop, taken apart

The loop over the deferred infos does three things that do not look at each other: it empties
accounts, it writes receipts, and it adds up a surplus.
-/

namespace Tabi.Settlement

open Support StateDB

variable {β γ : Type}

structure BankReads (bank : BankKeeper β γ) (valid : Stores β γ → Prop) : Prop where
  balance_nonneg : ∀ {v}, valid v → ∀ a, 0 ≤ bank.getBalance v a
  balance_fits : ∀ {v}, valid v → ∀ a, SdkInt.Fits (bank.getBalance v a)
  locked_nonneg : ∀ {v}, valid v → ∀ a, 0 ≤ bank.lockedCoins v a
  locked_fits : ∀ {v}, valid v → ∀ a, SdkInt.Fits (bank.lockedCoins v a)
  send : ∀ {v a b atabi wei r}, valid v → bank.sendCoinsAndWei v a b atabi wei = .ok r →
    valid (Writes.ofBank r.1 • v)

def settled (infos : List DeferredInfo) : List DeferredInfo := infos.filter (¬ ·.IsError)

def spendableAtabi (k : Keepers β γ) (v : Stores β γ) (a : AccAddress) : ℤ :=
  k.bank.getBalance v a - k.bank.lockedCoins v a

def collected (k : Keepers β γ) (v : Stores β γ) (info : DeferredInfo) : Stores β γ :=
  if spendableAtabi k v info.coinbase ≠ 0 ∨ k.bank.getWeiBalance v info.coinbase ≠ 0 then
    applyBank v (k.bank.sendCoinsAndWei v info.coinbase k.feeCollectorModuleAddress
      (spendableAtabi k v info.coinbase) (k.bank.getWeiBalance v info.coinbase))
  else v

def recorded (blockHeight : UInt64) (receipts : SortedStore Bytes FailureReceipt)
    (info : DeferredInfo) : SortedStore Bytes FailureReceipt :=
  receipts.set (receiptKey info.hash) ⟨info.hash, info.txIndex, info.error, blockHeight⟩

def credited (k : Keepers β γ) (v : Stores β γ) (surplus : ℤ) : Stores β γ :=
  if 0 < surplus then
    let atabi := surplus.tdiv atabiToWeiMultiplier
    let wei := surplus % atabiToWeiMultiplier
    let v := if 0 < atabi then applyBank v (k.bank.addCoins v k.evmModuleAddress atabi) else v
    if 0 < wei then applyBank v (k.bank.addWei v k.evmModuleAddress wei) else v
  else v

variable {k : Keepers β γ} {valid : Stores β γ → Prop} {blockHeight : UInt64} {v : Stores β γ}

theorem collect_eq (hbank : BankReads k.bank valid) (hv : valid v) (info : DeferredInfo) :
    collect k v info = .ok (collected k v info) := by
  have hfits := SdkInt.fits_sub (hbank.balance_nonneg hv info.coinbase)
    (hbank.balance_fits hv info.coinbase) (hbank.locked_nonneg hv info.coinbase)
    (hbank.locked_fits hv info.coinbase)
  have hread : spendable k v info.coinbase =
      .ok (spendableAtabi k v info.coinbase, k.bank.getWeiBalance v info.coinbase) :=
    bind_eq_ok.mpr ⟨_, SdkInt.ofBig_eq_ok.mpr ⟨hfits, rfl⟩, rfl⟩
  rw [collect, hread]
  rfl

theorem collected_valid (hbank : BankReads k.bank valid) (hv : valid v) (info : DeferredInfo) :
    valid (collected k v info) := by
  unfold collected
  split
  · cases h : k.bank.sendCoinsAndWei v info.coinbase k.feeCollectorModuleAddress
        (spendableAtabi k v info.coinbase) (k.bank.getWeiBalance v info.coinbase) with
    | ok r => exact hbank.send hv h
    | error e => exact hv
  · exact hv

variable {s : Settling β γ}

theorem settle_error {info : DeferredInfo} (h : info.IsError) :
    settle k blockHeight s info =
      .ok ⟨s.stores, recorded blockHeight s.receipts info, s.surplus⟩ := if_pos h

theorem settle_settled (hbank : BankReads k.bank valid) (hv : valid s.stores) {info : DeferredInfo}
    (h : ¬ info.IsError) :
    settle k blockHeight s info = (SdkInt.addPtr s.surplus info.surplus).map fun z =>
      ⟨collected k s.stores info, s.receipts, z⟩ := by
  rw [settle, if_neg h, collect_eq hbank hv, Outcome.ok_bind]
  cases SdkInt.addPtr s.surplus info.surplus <;> rfl

theorem settle_run (hbank : BankReads k.bank valid) (infos : List DeferredInfo)
    (hv : valid s.stores) :
    infos.foldlM (settle k blockHeight) s =
      (SdkInt.sumPtrs s.surplus ((settled infos).map DeferredInfo.surplus)).map fun z =>
        ⟨(settled infos).foldl (collected k) s.stores,
          (infos.filter (·.IsError)).foldl (recorded blockHeight) s.receipts, z⟩ := by
  induction infos generalizing s with
  | nil => rfl
  | cons info infos ih =>
    rw [List.foldlM_cons]
    by_cases e : info.IsError
    · have hsettled : settled (info :: infos) = settled infos := by simp [settled, e]
      have herrors : (info :: infos).filter (·.IsError) = info :: infos.filter (·.IsError) := by
        simp [e]
      rw [settle_error e, hsettled, herrors]
      exact ih (s := ⟨s.stores, recorded blockHeight s.receipts info, s.surplus⟩) hv
    · rw [settle_settled hbank hv e]
      have hsettled : settled (info :: infos) = info :: settled infos := by simp [settled, e]
      have herrors : (info :: infos).filter (·.IsError) = infos.filter (·.IsError) := by simp [e]
      rw [hsettled, herrors, List.map_cons, SdkInt.sumPtrs, List.foldlM_cons]
      cases SdkInt.addPtr s.surplus info.surplus with
      | error p => rfl
      | ok z =>
        exact ih (s := ⟨collected k s.stores info, s.receipts, z⟩)
          (collected_valid hbank hv info)

theorem creditSurplus_eq {surplus : ℤ} (h : SdkInt.Fits surplus) :
    creditSurplus k v surplus = .ok (credited k v surplus) := by
  unfold creditSurplus credited
  split
  · rw [splitAtabiWeiAmount_ok h]
    rfl
  · rfl

def settledBlock (k : Keepers β γ) (blockHeight : UInt64) (v : Stores β γ)
    (receipts : SortedStore Bytes FailureReceipt) (infos : List DeferredInfo) (z : ℤ) :
    Settling β γ :=
  ⟨setBlockBloom (credited k ((settled infos).foldl (collected k) v) z)
      (infos.map fun info => .ofBytes 256 info.txBloom),
    (infos.filter (·.IsError)).foldl (recorded blockHeight) receipts, z⟩

theorem settleBlock_eq (hbank : BankReads k.bank valid) (hv : valid v) {surplus : ℤ}
    (hfits : SdkInt.Fits surplus) {infos : List DeferredInfo}
    (hbloom : ∀ info ∈ infos, info.txBloom.length ≤ 256)
    (receipts : SortedStore Bytes FailureReceipt) :
    settleBlock k blockHeight surplus v receipts infos =
      (SdkInt.sumPtrs surplus ((settled infos).map DeferredInfo.surplus)).map
        (settledBlock k blockHeight v receipts infos) := by
  have hblooms : infos.mapM (fun info => bytesToBloom info.txBloom) =
      .ok (infos.map fun info => .ofBytes 256 info.txBloom) :=
    mapM_eq_ok fun info hinfo => if_neg (not_lt.mpr (hbloom info hinfo))
  rw [settleBlock, settle_run hbank infos hv, hblooms]
  cases hsum : SdkInt.sumPtrs surplus ((settled infos).map DeferredInfo.surplus) with
  | error p => rfl
  | ok z =>
    obtain ⟨-, halong, rfl⟩ := (SdkInt.sumPtrs_eq_ok hfits).mp hsum
    show (creditSurplus k _ _ >>= fun _ => _) = _
    rw [creditSurplus_eq halong.sum]
    rfl

/-- Everything that is added up, nil included: the ante surpluses, then the settled infos'. -/
def surplusPtrs (cdc : Codec) (t : Transient) (infos : List DeferredInfo) : List (Option ℤ) :=
  (t.anteSurplus.entries.map fun e => cdc.unmarshalInt e.2) ++
    (settled infos).map DeferredInfo.surplus

def surpluses (cdc : Codec) (t : Transient) (infos : List DeferredInfo) : List ℤ :=
  anteSurpluses cdc t ++ (settled infos).filterMap DeferredInfo.surplus

variable {cdc : Codec} {t : Transient} {infos : List DeferredInfo}

theorem reduceOption_surplusPtrs : (surplusPtrs cdc t infos).reduceOption =
    surpluses cdc t infos := by
  rw [surplusPtrs, List.reduceOption_append]
  exact congrArg₂ (· ++ ·) List.filterMap_map List.filterMap_map

theorem none_notMem_surplusPtrs (ht : t.AnteWellFormed cdc) :
    none ∉ surplusPtrs cdc t infos ↔ none ∉ (settled infos).map DeferredInfo.surplus := by
  have hante : none ∉ t.anteSurplus.entries.map fun e => cdc.unmarshalInt e.2 := by
    intro hmem
    obtain ⟨e, he, hnone⟩ := List.mem_map.mp hmem
    obtain ⟨z, hz, -⟩ := ht (SortedStore.mem_entries.mp he)
    rw [hnone] at hz
    cases hz
  rw [surplusPtrs, List.mem_append, not_or]
  exact and_iff_right hante

theorem endBlockWith_eq (hbank : BankReads k.bank valid) (hv : valid v)
    (hbloom : ∀ info ∈ infos, info.txBloom.length ≤ 256) :
    endBlockWith k blockHeight cdc v t infos =
      (SdkInt.sumPtrs 0 (surplusPtrs cdc t infos)).map
        (settledBlock k blockHeight v t.receipts infos) := by
  have hante : getAnteSurplusSum cdc t =
      SdkInt.sumPtrs 0 (t.anteSurplus.entries.map fun e => cdc.unmarshalInt e.2) :=
    List.foldlM_map.symm
  rw [endBlockWith, hante, surplusPtrs, SdkInt.sumPtrs_append]
  cases hsum : SdkInt.sumPtrs 0 (t.anteSurplus.entries.map fun e => cdc.unmarshalInt e.2) with
  | error p => rfl
  | ok z =>
    obtain ⟨-, halong, rfl⟩ := (SdkInt.sumPtrs_eq_ok (by decide)).mp hsum
    rw [Outcome.ok_bind, Outcome.ok_bind, settleBlock_eq hbank hv halong.sum hbloom]

theorem endBlockWith_completes_iff (hbank : BankReads k.bank valid) (hv : valid v)
    (ht : t.AnteWellFormed cdc) (hbloom : ∀ info ∈ infos, info.txBloom.length ≤ 256) :
    (∃ s, endBlockWith k blockHeight cdc v t infos = .ok s) ↔
      none ∉ (settled infos).map DeferredInfo.surplus ∧
        SdkInt.FitsAlong 0 (surpluses cdc t infos) := by
  rw [endBlockWith_eq hbank hv hbloom, ← none_notMem_surplusPtrs ht, ← reduceOption_surplusPtrs]
  constructor
  · rintro ⟨s, h⟩
    obtain ⟨z, hz, -⟩ := map_eq_ok.mp h
    obtain ⟨hnone, halong, -⟩ := (SdkInt.sumPtrs_eq_ok (by decide)).mp hz
    exact ⟨hnone, halong⟩
  · rintro ⟨hnone, halong⟩
    exact ⟨_, map_eq_ok.mpr
      ⟨_, (SdkInt.sumPtrs_eq_ok (by decide)).mpr ⟨hnone, halong, rfl⟩, rfl⟩⟩

end Tabi.Settlement
