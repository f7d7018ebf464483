import Tabi.Settlement.Completes
import Tabi.StateDB.Bank
import Mathlib.Algebra.Order.BigOperators.Group.List

/-!
# Settlement — no wei is lost at the end of a block

The ante handler and the execution of a block take wei out of the bank and record how much, as
surpluses; the end of the block puts the sum back.
-/

namespace Tabi.Settlement

open Support StateDB

variable {β γ : Type}

def held (bank : BankKeeper β γ) (v : Stores β γ) (a : AccAddress) : ℤ :=
  bank.getBalance v a * atabiToWeiMultiplier + bank.getWeiBalance v a

structure SameAt (bank : BankKeeper β γ) (v v' : Stores β γ) (a : AccAddress) : Prop where
  balance : bank.getBalance v' a = bank.getBalance v a
  locked : bank.lockedCoins v' a = bank.lockedCoins v a
  wei : bank.getWeiBalance v' a = bank.getWeiBalance v a

structure Transfers (k : Keepers β γ) (B : Books β γ) (valid : Stores β γ → Prop) : Prop
    extends BankReads k.bank valid where
  wei_range : ∀ {v}, valid v → ∀ a,
    0 ≤ k.bank.getWeiBalance v a ∧ k.bank.getWeiBalance v a < atabiToWeiMultiplier
  send_ok : ∀ {v a}, valid v → a ≠ k.feeCollectorModuleAddress →
    ∃ r, k.bank.sendCoinsAndWei v a k.feeCollectorModuleAddress (spendableAtabi k v a)
      (k.bank.getWeiBalance v a) = .ok r
  send_sender : ∀ {v a b atabi wei r}, valid v → a ≠ b →
    k.bank.sendCoinsAndWei v a b atabi wei = .ok r →
    held k.bank (Writes.ofBank r.1 • v) a =
        held k.bank v a - (atabi * atabiToWeiMultiplier + wei) ∧
      k.bank.lockedCoins (Writes.ofBank r.1 • v) a = k.bank.lockedCoins v a
  send_receiver : ∀ {v a b atabi wei r}, valid v → a ≠ b →
    k.bank.sendCoinsAndWei v a b atabi wei = .ok r →
    held k.bank (Writes.ofBank r.1 • v) b = held k.bank v b + (atabi * atabiToWeiMultiplier + wei)
  send_other : ∀ {v a b atabi wei r c}, valid v → c ≠ a → c ≠ b →
    k.bank.sendCoinsAndWei v a b atabi wei = .ok r → SameAt k.bank v (Writes.ofBank r.1 • v) c
  send_total : ∀ {v a b atabi wei r}, valid v → a ≠ b →
    k.bank.sendCoinsAndWei v a b atabi wei = .ok r → B.total (Writes.ofBank r.1 • v) = B.total v
  addCoins : ∀ v {amt}, 0 < amt → ∃ r, k.bank.addCoins v k.evmModuleAddress amt = .ok r ∧
    B.total (Writes.ofBank r.1 • v) = B.total v + amt * atabiToWeiMultiplier ∧
    ∀ c, c ≠ k.evmModuleAddress → SameAt k.bank v (Writes.ofBank r.1 • v) c
  addWei : ∀ v {amt}, 0 < amt → ∃ r, k.bank.addWei v k.evmModuleAddress amt = .ok r ∧
    B.total (Writes.ofBank r.1 • v) = B.total v + amt ∧
    ∀ c, c ≠ k.evmModuleAddress → SameAt k.bank v (Writes.ofBank r.1 • v) c
  evm_irrelevant : ∀ (p : Patch Bytes Bytes) v c,
    SameAt k.bank v ((Writes.ofEvm p : Writes β γ) • v) c

namespace SameAt

variable {bank : BankKeeper β γ} {v v' v'' : Stores β γ} {a : AccAddress}

theorem refl : SameAt bank v v a := ⟨rfl, rfl, rfl⟩

theorem trans (h : SameAt bank v v' a) (h' : SameAt bank v' v'' a) : SameAt bank v v'' a :=
  ⟨h'.balance.trans h.balance, h'.locked.trans h.locked, h'.wei.trans h.wei⟩

theorem held (h : SameAt bank v v' a) : held bank v' a = Settlement.held bank v a := by
  unfold Settlement.held
  rw [h.balance, h.wei]

end SameAt

def spendableWei (k : Keepers β γ) (v : Stores β γ) (a : AccAddress) : ℤ :=
  spendableAtabi k v a * atabiToWeiMultiplier + k.bank.getWeiBalance v a

def Emptied (k : Keepers β γ) (v : Stores β γ) (a : AccAddress) : Prop :=
  spendableAtabi k v a = 0 ∧ k.bank.getWeiBalance v a = 0

section

variable {k : Keepers β γ} {B : Books β γ} {valid : Stores β γ → Prop} {v v' : Stores β γ}

variable {a : AccAddress}

theorem SameAt.spendableWei (h : SameAt k.bank v v' a) :
    spendableWei k v' a = Settlement.spendableWei k v a := by
  unfold Settlement.spendableWei spendableAtabi
  rw [h.balance, h.locked, h.wei]

theorem SameAt.emptied (h : SameAt k.bank v v' a) (he : Emptied k v a) : Emptied k v' a := by
  unfold Emptied spendableAtabi at *
  rw [h.balance, h.locked, h.wei]
  exact he

/-! ### One account -/

structure Collects (k : Keepers β γ) (B : Books β γ) (v v' : Stores β γ) (a : AccAddress) :
    Prop where
  emptied : Emptied k v' a
  collector : held k.bank v' k.feeCollectorModuleAddress =
    held k.bank v k.feeCollectorModuleAddress + spendableWei k v a
  other : ∀ c, c ≠ a → c ≠ k.feeCollectorModuleAddress → SameAt k.bank v v' c
  total : B.total v' = B.total v

theorem collected_collects (L : Transfers k B valid) (hv : valid v) {info : DeferredInfo}
    (hne : info.coinbase ≠ k.feeCollectorModuleAddress) :
    Collects k B v (collected k v info) info.coinbase := by
  unfold collected
  split
  · obtain ⟨r, hsend⟩ := L.send_ok hv hne
    rw [hsend]
    obtain ⟨hheld, hlocked⟩ := L.send_sender hv hne hsend
    refine ⟨?_, L.send_receiver hv hne hsend, fun c h₁ h₂ => L.send_other hv h₁ h₂ hsend,
      L.send_total hv hne hsend⟩
    -- what is left is the locked part, so there is no wei beside it
    have hwei := L.wei_range (L.send hv hsend) info.coinbase
    have hM : atabiToWeiMultiplier = 1000000000000 := rfl
    unfold held at hheld
    unfold Emptied
    unfold spendableAtabi at *
    rw [hM] at hheld hwei
    show k.bank.getBalance (Writes.ofBank r.1 • v) info.coinbase -
        k.bank.lockedCoins (Writes.ofBank r.1 • v) info.coinbase = 0 ∧
      k.bank.getWeiBalance (Writes.ofBank r.1 • v) info.coinbase = 0
    omega
  · rename_i h
    push Not at h
    refine ⟨h, ?_, fun _ _ _ => .refl, rfl⟩
    simp [spendableWei, h.1, h.2]

/-! ### The loop -/

structure CollectsAll (k : Keepers β γ) (B : Books β γ) (v v' : Stores β γ)
    (accts : List AccAddress) : Prop where
  emptied : ∀ a ∈ accts, Emptied k v' a
  collector : held k.bank v' k.feeCollectorModuleAddress =
    held k.bank v k.feeCollectorModuleAddress + (accts.map (spendableWei k v)).sum
  other : ∀ c, c ∉ accts → c ≠ k.feeCollectorModuleAddress → SameAt k.bank v v' c
  total : B.total v' = B.total v

theorem foldl_collects (L : Transfers k B valid) (hv : valid v) {infos : List DeferredInfo}
    (hnodup : (infos.map DeferredInfo.coinbase).Nodup)
    (hne : ∀ info ∈ infos, info.coinbase ≠ k.feeCollectorModuleAddress) :
    CollectsAll k B v (infos.foldl (collected k) v) (infos.map DeferredInfo.coinbase) := by
  induction infos generalizing v with
  | nil => exact ⟨nofun, (add_zero _).symm, fun _ _ _ => .refl, rfl⟩
  | cons info infos ih =>
    rw [List.map_cons, List.nodup_cons] at hnodup
    have hhead := collected_collects L hv (hne info List.mem_cons_self)
    have htail := ih (collected_valid L.toBankReads hv info) hnodup.2
      fun i hi => hne i (List.mem_cons_of_mem info hi)
    -- the accounts of the tail are not touched by the head, nor the other way round
    have hrest : ∀ a ∈ infos.map DeferredInfo.coinbase,
        SameAt k.bank v (collected k v info) a := by
      intro a ha
      obtain ⟨i, hi, rfl⟩ := List.mem_map.mp ha
      refine hhead.other _ (fun e => hnodup.1 (e ▸ ha)) (hne i (List.mem_cons_of_mem info hi))
    have hsum : (infos.map DeferredInfo.coinbase).map (spendableWei k (collected k v info)) =
        (infos.map DeferredInfo.coinbase).map (spendableWei k v) :=
      List.map_congr_left fun a ha => (hrest a ha).spendableWei
    refine ⟨fun a ha => ?_, ?_, fun c hc hcf => ?_, htail.total.trans hhead.total⟩
    · rcases List.mem_cons.mp ha with rfl | ha
      · exact (htail.other _ hnodup.1 (hne info List.mem_cons_self)).emptied hhead.emptied
      · exact htail.emptied a ha
    · rw [List.map_cons, List.map_cons, List.sum_cons, List.foldl_cons, htail.collector, hsum,
        hhead.collector, add_assoc]
    · exact (hhead.other c (List.ne_of_not_mem_cons hc) hcf).trans
        (htail.other c (List.not_mem_of_not_mem_cons hc) hcf)

/-! ### The deposit -/

theorem deposit_spec {call : BankCall β γ} {unit amt : ℤ}
    (hcall : ∀ v {amt}, 0 < amt →
      ∃ r, call v a amt = .ok r ∧ B.total (Writes.ofBank r.1 • v) = B.total v + amt * unit ∧
      ∀ c, c ≠ a → SameAt k.bank v (Writes.ofBank r.1 • v) c) (hamt : 0 ≤ amt)
    (hv' : v' = if 0 < amt then applyBank v (call v a amt) else v) :
    B.total v' = B.total v + amt * unit ∧ ∀ c, c ≠ a → SameAt k.bank v v' c := by
  subst hv'
  split
  · rename_i hpos
    obtain ⟨r, hr, htotal, hsame⟩ := hcall v hpos
    rw [hr]
    exact ⟨htotal, hsame⟩
  · rename_i hpos
    rw [show amt = 0 by omega, zero_mul, add_zero]
    exact ⟨rfl, fun _ _ => .refl⟩

theorem credited_spec (L : Transfers k B valid) (v : Stores β γ) (surplus : ℤ) :
    B.total (credited k v surplus) = B.total v + max 0 surplus ∧
      ∀ c, c ≠ k.evmModuleAddress → SameAt k.bank v (credited k v surplus) c := by
  by_cases hpos : 0 < surplus
  · have hM : (0 : ℤ) < atabiToWeiMultiplier := by decide
    have hatabi : 0 ≤ surplus.tdiv atabiToWeiMultiplier := Int.tdiv_nonneg hpos.le hM.le
    have hwei : 0 ≤ surplus % atabiToWeiMultiplier := Int.emod_nonneg _ (ne_of_gt hM)
    have hsplit : surplus.tdiv atabiToWeiMultiplier * atabiToWeiMultiplier +
        surplus % atabiToWeiMultiplier = surplus := by
      rw [Int.tdiv_eq_ediv_of_nonneg hpos.le]
      exact Int.ediv_mul_add_emod surplus atabiToWeiMultiplier
    obtain ⟨v₁, hv₁⟩ : ∃ v₁, v₁ = if 0 < surplus.tdiv atabiToWeiMultiplier then
        applyBank v (k.bank.addCoins v k.evmModuleAddress (surplus.tdiv atabiToWeiMultiplier))
      else v := ⟨_, rfl⟩
    have hcredited : credited k v surplus = if 0 < surplus % atabiToWeiMultiplier then
        applyBank v₁ (k.bank.addWei v₁ k.evmModuleAddress (surplus % atabiToWeiMultiplier))
      else v₁ := by
      rw [credited, if_pos hpos, hv₁]
    have haddWei : ∀ v {amt}, 0 < amt → ∃ r, k.bank.addWei v k.evmModuleAddress amt = .ok r ∧
        B.total (Writes.ofBank r.1 • v) = B.total v + amt * 1 ∧
        ∀ c, c ≠ k.evmModuleAddress → SameAt k.bank v (Writes.ofBank r.1 • v) c := by
      simpa only [mul_one] using L.addWei
    obtain ⟨h₁, same₁⟩ := deposit_spec L.addCoins hatabi hv₁
    obtain ⟨h₂, same₂⟩ := deposit_spec haddWei hwei hcredited
    refine ⟨?_, fun c hc => (same₁ c hc).trans (same₂ c hc)⟩
    rw [h₂, h₁, max_eq_right hpos.le, mul_one, add_assoc, hsplit]
  · rw [credited, if_neg hpos, max_eq_left (not_lt.mp hpos), add_zero]
    exact ⟨rfl, fun _ _ => .refl⟩

/-! ### The block -/

theorem getCoinbaseAddress_injective : Function.Injective getCoinbaseAddress := by
  intro i j h
  have hbytes : beBytes 8 i.toNat = beBytes 8 j.toNat := List.append_cancel_left h
  exact UInt64.toNat_inj.mp (beBytes_injective (w := 8) i.toNat_lt j.toNat_lt hbytes)

theorem coinbase_injective {i j : DeferredInfo} (h : i.coinbase = j.coinbase) :
    i.txIndex = j.txIndex := by
  have hidx := congrArg UInt64.toNat (getCoinbaseAddress_injective h)
  have hi : i.txIndex.toNat < 2 ^ 64 := lt_trans i.txIndex.toNat_lt (by decide)
  have hj : j.txIndex.toNat < 2 ^ 64 := lt_trans j.txIndex.toNat_lt (by decide)
  rw [UInt64.toNat_ofNat_of_lt' hi, UInt64.toNat_ofNat_of_lt' hj] at hidx
  exact UInt32.toNat_inj.mp hidx

theorem nodup_coinbase {infos : List DeferredInfo} (h : (infos.map DeferredInfo.txIndex).Nodup) :
    ((settled infos).map DeferredInfo.coinbase).Nodup := by
  have hsub : ((settled infos).map DeferredInfo.txIndex).Nodup :=
    h.sublist (List.filter_sublist.map _)
  have hpair := List.pairwise_map.mp hsub
  exact List.pairwise_map.mpr (hpair.imp fun hne e => hne (coinbase_injective e))

structure Settles (k : Keepers β γ) (B : Books β γ) (infos : List DeferredInfo) (surplus : ℤ)
    (v v' : Stores β γ) : Prop where
  total : B.total v' = B.total v + max 0 surplus
  emptied : ∀ info ∈ settled infos, Emptied k v' info.coinbase
  collector : held k.bank v' k.feeCollectorModuleAddress =
    held k.bank v k.feeCollectorModuleAddress +
      ((settled infos).map fun info => spendableWei k v info.coinbase).sum
  balanced : 0 ≤ surplus → ∀ before, B.total v = before - surplus → B.total v' = before

variable {blockHeight : UInt64} {cdc : Codec} {t : Transient} {infos : List DeferredInfo}

theorem settledBlock_settles (L : Transfers k B valid) (hv : valid v)
    (hdistinct : (infos.map DeferredInfo.txIndex).Nodup)
    (hcollector : ∀ info ∈ infos, info.coinbase ≠ k.feeCollectorModuleAddress)
    (hmodule : ∀ info ∈ infos, info.coinbase ≠ k.evmModuleAddress)
    (hmodules : k.feeCollectorModuleAddress ≠ k.evmModuleAddress) (surplus : ℤ) :
    Settles k B infos surplus v
      (settledBlock k blockHeight v t.receipts infos surplus).stores := by
  have hsub : ∀ info ∈ settled infos, info ∈ infos := fun _ h => (List.mem_filter.mp h).1
  have hall := foldl_collects L hv (nodup_coinbase hdistinct) fun i hi => hcollector i (hsub i hi)
  obtain ⟨htotal, hsame⟩ := credited_spec L ((settled infos).foldl (collected k) v) surplus
  -- the block bloom is not in the bank
  have hend : ∀ c, c ≠ k.evmModuleAddress → SameAt k.bank ((settled infos).foldl (collected k) v)
      (settledBlock k blockHeight v t.receipts infos surplus).stores c :=
    fun c hc => (hsame c hc).trans (L.evm_irrelevant _ _ c)
  have htotal' : B.total (settledBlock k blockHeight v t.receipts infos surplus).stores =
      B.total v + max 0 surplus := by
    rw [← hall.total, ← htotal]
    rfl
  refine ⟨htotal', fun info hinfo => ?_, ?_, fun hpos before hbefore => ?_⟩
  · exact (hend _ (hmodule info (hsub info hinfo))).emptied
      (hall.emptied _ (List.mem_map_of_mem hinfo))
  · rw [(hend _ hmodules).held, hall.collector, List.map_map]
    rfl
  · rw [htotal', hbefore, max_eq_right hpos]
    ring

/-- **The law of the end of a block.**  For infos with distinct indexes and blooms of the right
size, whose settled ones have a surplus: either a running sum of the surpluses overflows and the
end of the block panics with that, or it completes, and settles. -/
theorem endBlock_settles (L : Transfers k B valid) (hv : valid v) (ht : t.AnteWellFormed cdc)
    (hdistinct : (infos.map DeferredInfo.txIndex).Nodup)
    (hsurplus : ∀ info ∈ infos, ¬ info.IsError → info.surplus ≠ none)
    (hbloom : ∀ info ∈ infos, info.txBloom.length ≤ 256)
    (hcollector : ∀ info ∈ infos, info.coinbase ≠ k.feeCollectorModuleAddress)
    (hmodule : ∀ info ∈ infos, info.coinbase ≠ k.evmModuleAddress)
    (hmodules : k.feeCollectorModuleAddress ≠ k.evmModuleAddress) :
    if SdkInt.FitsAlong 0 (surpluses cdc t infos) then
      ∃ s, endBlockWith k blockHeight cdc v t infos = .ok s ∧
        Settles k B infos (surpluses cdc t infos).sum v s.stores
    else endBlockWith k blockHeight cdc v t infos = .error .integerOverflow := by
  have hnone : none ∉ surplusPtrs cdc t infos := by
    rw [none_notMem_surplusPtrs ht]
    intro hmem
    obtain ⟨info, hinfo, hnone⟩ := List.mem_map.mp hmem
    obtain ⟨hinfo, herr⟩ := List.mem_filter.mp hinfo
    exact hsurplus info hinfo (of_decide_eq_true herr) hnone
  rw [endBlockWith_eq L.toBankReads hv hbloom, ← reduceOption_surplusPtrs]
  split
  · rename_i halong
    rw [(SdkInt.sumPtrs_eq_ok (by decide)).mpr ⟨hnone, halong, rfl⟩, zero_add]
    exact ⟨_, rfl, settledBlock_settles L hv hdistinct hcollector hmodule hmodules _⟩
  · rename_i halong
    cases hsum : SdkInt.sumPtrs 0 (surplusPtrs cdc t infos) with
    | ok z => exact absurd ((SdkInt.sumPtrs_eq_ok (by decide)).mp hsum).2.1 halong
    | error p =>
      cases SdkInt.sumPtrs_eq_error hnone hsum
      rfl

end

/-! ### A ledger with transfers

The ledger of the state database, with transfers switched on. -/

def tillAmount (v : Stores AccAddress ℤ) (a : AccAddress) : ℤ := (v.bank a).getD 0

def tillMove (accts : List AccAddress) (v : Stores AccAddress ℤ) (a b : AccAddress) (amt : ℤ) :
    BankResult AccAddress ℤ :=
  if a ≠ b ∧ b ∈ accts ∧ 0 ≤ amt ∧ amt ≤ tillAmount v a then
    .ok (Patch.set b (tillAmount v b + amt) * Patch.set a (tillAmount v a - amt), [])
  else .error "transfer refused"

def tillKeepers (accts : List AccAddress) (collector evmModule : AccAddress) :
    Keepers AccAddress ℤ :=
  { ledgerKeepers accts with
    bank :=
      { ledgerBank accts with
        sendCoinsAndWei := fun v a b atabi wei =>
          tillMove accts v a b (atabi * atabiToWeiMultiplier + wei) }
    feeCollectorModuleAddress := collector
    evmModuleAddress := evmModule }

structure TillValid (accts : List AccAddress) (v : Stores AccAddress ℤ) : Prop where
  nonneg : ∀ a, 0 ≤ tillAmount v a
  listed : ∀ a, a ∉ accts → tillAmount v a = 0
  total : (ledgerBooks accts).total v < 2 ^ 255

section Till

variable {accts : List AccAddress} {collector evmModule : AccAddress} {v : Stores AccAddress ℤ}

theorem till_held (v : Stores AccAddress ℤ) (a : AccAddress) :
    held (tillKeepers accts collector evmModule).bank v a = tillAmount v a :=
  Int.ediv_mul_add_emod _ _

variable {a b : AccAddress} {amt : ℤ} {r : Patch AccAddress ℤ × List Event}

theorem tillMove_eq_ok (h : tillMove accts v a b amt = .ok r) :
    (a ≠ b ∧ b ∈ accts ∧ 0 ≤ amt ∧ amt ≤ tillAmount v a) ∧
      r.1 = Patch.set b (tillAmount v b + amt) * Patch.set a (tillAmount v a - amt) := by
  unfold tillMove at h
  split at h
  · rename_i hc
    cases h
    exact ⟨hc, rfl⟩
  · cases h

theorem tillMove_amount (h : tillMove accts v a b amt = .ok r) (c : AccAddress) :
    tillAmount (Writes.ofBank r.1 • v) c =
      if c = b then tillAmount v b + amt
      else if c = a then tillAmount v a - amt else tillAmount v c := by
  rw [(tillMove_eq_ok h).2]
  show (((Patch.set b _ * Patch.set a _) • v.bank) c).getD 0 = _
  rw [mul_smul]
  by_cases hb : c = b
  · rw [if_pos hb, hb, Patch.set_smul_same]
    rfl
  · rw [if_neg hb, Patch.set_smul_other hb]
    by_cases ha : c = a
    · rw [if_pos ha, ha, Patch.set_smul_same]
      rfl
    · rw [if_neg ha, Patch.set_smul_other ha]
      rfl

theorem tillMove_total (hnd : accts.Nodup) (hv : TillValid accts v)
    (h : tillMove accts v a b amt = .ok r) :
    (ledgerBooks accts).total (Writes.ofBank r.1 • v) = (ledgerBooks accts).total v := by
  obtain ⟨⟨hne, hb, hamt, hle⟩, hr⟩ := tillMove_eq_ok h
  have hback : tillAmount v b = ((Patch.set a (tillAmount v a - amt) • v.bank) b).getD 0 := by
    rw [Patch.set_smul_other hne.symm]
    rfl
  rw [ledgerBooks_total, ledgerBooks_total, ofBank_smul_bank, hr, mul_smul, hback,
    sum_map_set hnd hb]
  by_cases ha : a ∈ accts
  · have hout := sum_map_set hnd ha v.bank (-amt)
    rw [← sub_eq_add_neg] at hout
    show (accts.map fun x => ((Patch.set a ((v.bank a).getD 0 - amt) • v.bank) x).getD 0).sum +
      amt = _
    omega
  · -- an account that is not listed holds nothing, so nothing is moved
    have hzero := hv.listed a ha
    have hrest : (accts.map fun x =>
        ((Patch.set a (tillAmount v a - amt) • v.bank) x).getD 0) =
        accts.map fun x => (v.bank x).getD 0 :=
      List.map_congr_left fun x hx => by
        have hxa : x ≠ a := fun e => ha (e ▸ hx)
        rw [Patch.set_smul_other hxa]
    rw [hrest]
    omega

theorem tillMove_valid (hnd : accts.Nodup) (hv : TillValid accts v)
    (h : tillMove accts v a b amt = .ok r) : TillValid accts (Writes.ofBank r.1 • v) := by
  obtain ⟨⟨-, hb, hamt, hle⟩, -⟩ := tillMove_eq_ok h
  refine ⟨fun c => ?_, fun c hc => ?_, (tillMove_total hnd hv h).symm ▸ hv.total⟩
  · have hc := hv.nonneg c
    have hb := hv.nonneg b
    rw [tillMove_amount h]
    split_ifs <;> omega
  · have hzero := hv.listed c hc
    have hcb : c ≠ b := fun e => hc (e ▸ hb)
    rw [tillMove_amount h, if_neg hcb]
    split_ifs with e
    · subst e
      omega
    · exact hzero

theorem tillAmount_lt (hv : TillValid accts v) (a : AccAddress) : tillAmount v a < 2 ^ 255 := by
  by_cases ha : a ∈ accts
  · have hle := List.single_le_sum (l := accts.map fun x => (v.bank x).getD 0)
      (fun x hx => by
        obtain ⟨c, -, rfl⟩ := List.mem_map.mp hx
        exact hv.nonneg c) _ (List.mem_map_of_mem ha)
    rw [← ledgerBooks_total] at hle
    exact lt_of_le_of_lt hle hv.total
  · rw [hv.listed a ha]
    decide

theorem tillDeposit (hnd : accts.Nodup) (hmodule : evmModule ∈ accts) (v : Stores AccAddress ℤ)
    (unit amt : ℤ) :
    ∃ r, ledgerAdd accts unit v evmModule amt = .ok r ∧
      (ledgerBooks accts).total (Writes.ofBank r.1 • v) =
        (ledgerBooks accts).total v + amt * unit ∧
      ∀ c, c ≠ evmModule →
        SameAt (tillKeepers accts collector evmModule).bank v (Writes.ofBank r.1 • v) c := by
  have hr : ledgerAdd accts unit v evmModule amt =
      .ok (Patch.set evmModule ((v.bank evmModule).getD 0 + amt * unit), []) := if_pos hmodule
  refine ⟨_, hr, ledgerAdd_total hnd hr, fun c hc => ?_⟩
  have hread : tillAmount (Writes.ofBank
      (Patch.set evmModule ((v.bank evmModule).getD 0 + amt * unit)) • v) c = tillAmount v c := by
    show ((Patch.set evmModule _ • v.bank) c).getD 0 = _
    rw [Patch.set_smul_other hc]
    rfl
  exact ⟨congrArg (· / atabiToWeiMultiplier) hread, rfl,
    congrArg (· % atabiToWeiMultiplier) hread⟩

theorem till_transfers (hnd : accts.Nodup) (hcollector : collector ∈ accts)
    (hmodule : evmModule ∈ accts) :
    Transfers (tillKeepers accts collector evmModule) (ledgerBooks accts) (TillValid accts) where
  balance_nonneg hv a := Int.ediv_nonneg (hv.nonneg a) (by decide)
  balance_fits hv a := by
    have hle := Int.ediv_le_self atabiToWeiMultiplier (hv.nonneg a)
    have hnonneg : 0 ≤ tillAmount _ a / atabiToWeiMultiplier :=
      Int.ediv_nonneg (hv.nonneg a) (by decide)
    have hlt := tillAmount_lt hv a
    show (tillAmount _ a / atabiToWeiMultiplier).natAbs < 2 ^ 256
    omega
  locked_nonneg _ _ := le_rfl
  locked_fits _ _ := by show SdkInt.Fits 0; decide
  send hv h := tillMove_valid hnd hv h
  wei_range _ _ := ⟨Int.emod_nonneg _ (by decide), Int.emod_lt_of_pos _ (by decide)⟩
  send_ok {v a} hv hne := by
    have hall : tillAmount v a / atabiToWeiMultiplier * atabiToWeiMultiplier +
        tillAmount v a % atabiToWeiMultiplier = tillAmount v a := Int.ediv_mul_add_emod _ _
    have hsend : (tillAmount v a / atabiToWeiMultiplier - 0) * atabiToWeiMultiplier +
        tillAmount v a % atabiToWeiMultiplier = tillAmount v a := by rw [sub_zero, hall]
    refine ⟨_, if_pos ⟨hne, hcollector, ?_, ?_⟩⟩
    · exact le_of_le_of_eq (hv.nonneg a) hsend.symm
    · exact le_of_eq hsend
  send_sender hv hne h := by
    rw [till_held, till_held, tillMove_amount h, if_neg hne, if_pos rfl]
    exact ⟨rfl, rfl⟩
  send_receiver hv hne h := by
    rw [till_held, till_held, tillMove_amount h, if_pos rfl]
  send_other {v a b atabi wei r c} hv ha hb h := by
    have hc : tillAmount (Writes.ofBank r.1 • v) c = tillAmount v c := by
      rw [tillMove_amount h, if_neg hb, if_neg ha]
    exact ⟨congrArg (· / atabiToWeiMultiplier) hc, rfl, congrArg (· % atabiToWeiMultiplier) hc⟩
  send_total hv hne h := tillMove_total hnd hv h
  addCoins v _ _ := tillDeposit hnd hmodule v _ _
  addWei v amt _ := (tillDeposit hnd hmodule v 1 amt).imp fun _ h =>
    ⟨h.1, h.2.1.trans (by rw [mul_one]), h.2.2⟩
  evm_irrelevant _ _ _ := ⟨rfl, rfl, rfl⟩

end Till

def tillAccounts : List AccAddress := [[1], [2], getCoinbaseAddress 0, getCoinbaseAddress 1]

def tillStores : Stores AccAddress ℤ where
  evm _ := none
  acc _ := none
  bank a := if a = getCoinbaseAddress 0 then some 2000000000007 else none

theorem tillStores_valid : TillValid tillAccounts tillStores := by
  have hamount : ∀ a, tillAmount tillStores a =
      if a = getCoinbaseAddress 0 then 2000000000007 else 0 := by
    intro a
    by_cases e : a = getCoinbaseAddress 0 <;> simp [tillAmount, tillStores, e]
  refine ⟨fun a => ?_, fun a ha => ?_, by decide⟩
  · rw [hamount]
    split <;> decide
  · have hne : a ≠ getCoinbaseAddress 0 := by
      rintro rfl
      exact ha (by decide)
    rw [hamount, if_neg hne]

def tillInfos : List DeferredInfo := [⟨0, [1], [], some 5, []⟩, ⟨1, [2], [], none, [111]⟩]

def tillRecords : Transient := ⟨SortedStore.empty.set [1] [3], .empty, .empty⟩

theorem tillRecords_wellFormed : tillRecords.AnteWellFormed plainCodec := by
  intro key val h
  have hval : val = [3] := by
    unfold tillRecords at h
    simp only [SortedStore.get_set, SortedStore.get_empty] at h
    split_ifs at h
    exact (Option.some.inj h).symm
  subst hval
  exact ⟨3, rfl, by decide⟩

theorem endBlock_settles_till :
    ∃ s, endBlockWith (tillKeepers tillAccounts [1] [2]) 1 plainCodec tillStores tillRecords
        tillInfos = .ok s ∧
      Settles (tillKeepers tillAccounts [1] [2]) (ledgerBooks tillAccounts) tillInfos
        (surpluses plainCodec tillRecords tillInfos).sum tillStores s.stores := by
  have hfits : SdkInt.FitsAlong 0 (surpluses plainCodec tillRecords tillInfos) := by decide
  exact (if_pos hfits).mp (endBlock_settles (till_transfers (by decide) (by decide) (by decide))
    tillStores_valid tillRecords_wellFormed (by decide) (by decide) (by decide) (by decide)
    (by decide) (by decide))

def hugeInfos : List DeferredInfo :=
  [⟨0, [1], [], some (2 ^ 256 - 1), []⟩, ⟨1, [2], [], some (2 ^ 256 - 1), []⟩]

/-- The sum of the surpluses is no `sdk.Int`, and the end of the block panics. -/
theorem endBlock_hugeSurplus :
    (hugeInfos.map DeferredInfo.txIndex).Nodup ∧
      (∀ info ∈ hugeInfos, ¬ info.IsError → info.surplus ≠ none) ∧
      endBlockWith (tillKeepers tillAccounts [1] [2]) 1 plainCodec tillStores noRecords hugeInfos =
        .error .integerOverflow :=
  ⟨by decide, by decide, by rfl⟩

end Tabi.Settlement
