import Tabi.StateDB.Bank
import Tabi.StateDB.Refinement

/-!
# StateDB — what a self-destruct debits

`SelfDestruct` removes the association of the account, and then reads and debits its balance.
-/

namespace Tabi.StateDB

open Support

variable {β γ : Type}

namespace DBImpl

variable {k : Keepers β γ} {s s' : DBImpl β γ} {acc : Address} {amt : ℤ}

theorem view_commit (e : Effect β γ) : (s.commit e).view = e.writes • s.view := by
  rw [view_eq_abs, abs_commit, view_eq_abs]
  rfl

theorem eq_shown_of_getBalance {v : Stores β γ} {a : AccAddress} {b : ℤ}
    (h : StateDB.getBalance k v a = .ok b) : b = shown k.bank v a := by
  obtain ⟨atabi, ha, h⟩ := bind_eq_ok.mp h
  obtain ⟨coins, hc, h⟩ := bind_eq_ok.mp h
  obtain ⟨-, rfl⟩ := SdkInt.sub_eq_ok.mp ha
  obtain ⟨-, rfl⟩ := SdkInt.ofBig_eq_ok.mp hc
  exact (SdkInt.add_eq_ok.mp h).2

theorem getBalance_of_shown {v : Stores β γ} {a : AccAddress} (h : shown k.bank v a = 0)
    (hwei : WeiInRange k.bank v a) : StateDB.getBalance k v a = .ok 0 := by
  have hM : atabiToWeiMultiplier = 1000000000000 := rfl
  unfold shown at h
  unfold WeiInRange at hwei
  rw [hM] at h hwei
  have hcoins : k.bank.getBalance v a - k.bank.lockedCoins v a = 0 := by omega
  have hw : k.bank.getWeiBalance v a = 0 := by omega
  simp only [StateDB.getBalance, SdkInt.sub, hcoins, hw]
  rfl

structure Debits (k : Keepers β γ) (s s' : DBImpl β γ) (acc : Address) (amt : ℤ) : Prop where
  shown : ∀ a, shown k.bank s'.view a =
    shown k.bank s.view a - if a = s.getTabiAddress acc then amt else 0
  surplus : s'.tempStateCurrent.surplus = s.tempStateCurrent.surplus + amt
  backing : s'.getTabiAddress acc = s.getTabiAddress acc

theorem moveBalance_ok {coins wei : BankCall β γ} {book : ℤ → ℤ → Outcome ℤ}
    (h : s.moveBalance coins wei book acc amt = .ok s') (herr : s'.err = none) :
    ∃ parts r r' z, splitAtabiWeiAmount amt = .ok parts ∧
      coins s.view (s.getTabiAddress acc) parts.1 = .ok r ∧
      wei (Writes.ofBank r.1 • s.view) (s.getTabiAddress acc) parts.2 = .ok r' ∧
      book s.tempStateCurrent.surplus amt = .ok z ∧
      s' = ((s.commitBank r).commitBank r').setSurplus z := by
  obtain ⟨parts, hparts, h⟩ := bind_eq_ok.mp h
  dsimp only at h
  cases hr : coins s.view (s.getTabiAddress acc) parts.1 with
  | error e =>
    rw [hr] at h
    cases h
    cases herr
  | ok r =>
    rw [hr] at h
    dsimp only at h
    have hview : (s.commitBank r).view = Writes.ofBank r.1 • s.view := view_commit _
    rw [hview] at h
    cases hr' : wei (Writes.ofBank r.1 • s.view) (s.getTabiAddress acc) parts.2 with
    | error e =>
      rw [hr'] at h
      cases h
      cases herr
    | ok r' =>
      rw [hr'] at h
      dsimp only at h
      obtain ⟨amt', hamt', hbook⟩ := bind_eq_ok.mp h
      obtain ⟨z, hz, hret⟩ := bind_eq_ok.mp hbook
      rw [(SdkInt.ofBig_eq_ok.mp hamt').2] at hz
      cases hret
      exact ⟨parts, r, r', z, hparts, hr, hr', hz, rfl⟩

theorem moveBalance_debits {coins wei : BankCall β γ} {book : ℤ → ℤ → Outcome ℤ} {e : ℤ}
    (hcoins : Shifts k.bank coins (-(e * atabiToWeiMultiplier))) (hwei : Shifts k.bank wei (-e))
    (hrange : ∀ {v a amt r}, wei v a amt = .ok r → WeiInRange k.bank (Writes.ofBank r.1 • v) a)
    (hbook : ∀ {x y z}, book x y = .ok z → z = x + e * y) (hamt : 0 < amt)
    (h : s.moveBalance coins wei book acc amt = .ok s') (herr : s'.err = none) :
    Debits k s s' acc (e * amt) ∧ WeiInRange k.bank s'.view (s.getTabiAddress acc) := by
  obtain ⟨parts, r, r', z, hparts, hr, hr', hz, rfl⟩ := moveBalance_ok h herr
  have hview : (((s.commitBank r).commitBank r').setSurplus z).view =
      Writes.ofBank r'.1 • Writes.ofBank r.1 • s.view := by
    change ((s.commitBank r).commitBank r').view = _
    rw [commitBank, view_commit, commitBank, view_commit]
  have hvalue := splitAtabiWeiAmount_value hamt.le hparts
  refine ⟨⟨fun a => ?_, hbook hz, ?_⟩, ?_⟩
  · rw [hview, hwei _ _ _ _ hr' a, hcoins _ _ _ _ hr a, ← hvalue]
    by_cases ha : a = s.getTabiAddress acc
    · rw [if_pos ha, if_pos ha, if_pos ha]
      ring
    · rw [if_neg ha, if_neg ha, if_neg ha]
      ring
  · -- the bank's writes are not the EVM store's
    unfold getTabiAddress
    rw [hview]
    rfl
  · rw [hview]
    exact hrange hr'

theorem subBalance_debits (L : AccountLaws k.bank) (h : s.subBalance k acc amt = .ok s')
    (herr : s'.err = none) :
    Debits k s s' acc amt ∧ (amt ≠ 0 → WeiInRange k.bank s'.view (s.getTabiAddress acc)) := by
  unfold subBalance at h
  split_ifs at h with hzero hneg
  · cases h
    subst hzero
    refine ⟨⟨fun a => ?_, (add_zero _).symm, rfl⟩, fun hne => absurd rfl hne⟩
    rw [ite_self, sub_zero]
  · have hspec := moveBalance_debits (k := k) (e := -1)
      (by rw [neg_one_mul, neg_neg]; exact L.addCoins) (by rw [neg_neg]; exact L.addWei)
      L.addWei_range
      (fun hz => by rw [(SdkInt.ofBig_eq_ok.mp hz).2]; ring) (neg_pos.mpr hneg) h herr
    rw [neg_one_mul, neg_neg] at hspec
    exact ⟨hspec.1, fun _ => hspec.2⟩
  · have hpos : 0 < amt := by omega
    have hspec := moveBalance_debits (k := k) (e := 1)
      (by rw [one_mul]; exact L.subUnlockedCoins) L.subWei L.subWei_range
      (fun hz => by rw [(SdkInt.add_eq_ok.mp hz).2]; ring) hpos h herr
    rw [one_mul] at hspec
    exact ⟨hspec.1, fun _ => hspec.2⟩

theorem dissociate_getTabiAddress : (s.dissociate acc).getTabiAddress acc =
    if s.coinbaseEvmAddress = acc then s.coinbaseAddress else acc.bytes := by
  unfold dissociate
  cases ht : StateDB.getTabiAddress s.view acc with
  | none =>
    unfold getTabiAddress getTabiAddressOrDefault
    rw [ht]
    rfl
  | some t =>
    have hgone :
        StateDB.getTabiAddress (s.commit (deleteAddressMapping t acc)).view acc = none := by
      have hkey : evmAddressToTabiAddressKey acc ≠ tabiAddressToEVMAddressKey t := by
        intro he
        cases (List.cons.inj he).1
      rw [view_commit]
      change ((Patch.delete _ * Patch.delete _) • s.view.evm)
        (evmAddressToTabiAddressKey acc) = none
      rw [mul_smul, Patch.delete_smul_other hkey, Patch.delete_smul_same]
    unfold getTabiAddress getTabiAddressOrDefault
    rw [hgone]
    rfl

theorem dissociate_shown (L : AccountLaws k.bank) (a : AccAddress) :
    shown k.bank (s.dissociate acc).view a = shown k.bank s.view a := by
  unfold dissociate
  cases StateDB.getTabiAddress s.view acc with
  | none => rfl
  | some t =>
    dsimp only
    rw [view_commit]
    exact L.evm_irrelevant _ _ a

theorem dissociate_surplus :
    (s.dissociate acc).tempStateCurrent.surplus = s.tempStateCurrent.surplus := by
  unfold dissociate
  cases StateDB.getTabiAddress s.view acc with
  | none => rfl
  | some t => rfl

theorem selfDestruct_spec (L : AccountLaws k.bank) (h : s.selfDestruct k acc = .ok s')
    (herr : s'.err = none) :
    let t := if s.coinbaseEvmAddress = acc then s.coinbaseAddress else acc.bytes
    (∀ a, shown k.bank s'.view a = if a = t then 0 else shown k.bank s.view a) ∧
      s'.tempStateCurrent.surplus = s.tempStateCurrent.surplus + shown k.bank s.view t ∧
      s'.getBalance k acc = .ok 0 := by
  intro t
  obtain ⟨balance, hbalance, h⟩ := bind_eq_ok.mp h
  obtain ⟨s₁, hsub, h⟩ := bind_eq_ok.mp h
  cases h
  -- balance and debit are of the account behind the address once the association is gone
  have hback : (s.dissociate acc).getTabiAddress acc = t := dissociate_getTabiAddress
  have hshown : balance = shown k.bank s.view t := by
    rw [← dissociate_shown L, ← hback]
    exact eq_shown_of_getBalance hbalance
  obtain ⟨hdebits, hrange⟩ := subBalance_debits L hsub herr
  have hafter : ∀ a, shown k.bank s₁.view a = if a = t then 0 else shown k.bank s.view a := by
    intro a
    rw [hdebits.shown a, dissociate_shown L, hback]
    by_cases ha : a = t
    · rw [if_pos ha, if_pos ha, hshown, ha, sub_self]
    · rw [if_neg ha, if_neg ha, sub_zero]
  refine ⟨hafter, ?_, ?_⟩
  · change s₁.tempStateCurrent.surplus = _
    rw [hdebits.surplus, dissociate_surplus, hshown]
  · change StateDB.getBalance k s₁.view (s₁.getTabiAddress acc) = .ok 0
    rw [hdebits.backing]
    by_cases hzero : balance = 0
    · -- nothing was debited
      subst hzero
      rw [subBalance, if_pos rfl] at hsub
      cases hsub
      exact hbalance
    · refine getBalance_of_shown ?_ (hrange hzero)
      rw [hback, hafter t, if_pos rfl]

/-- **What a self-destruct debits**: without error it takes from the account that backed the address
what was shown of it, books exactly that, and leaves nothing shown, if and only if the address is
the coinbase, or has no association other than with its cast account, or neither account showed
anything. -/
theorem selfDestruct_debits_iff (L : AccountLaws k.bank) (h : s.selfDestruct k acc = .ok s')
    (herr : s'.err = none) {balance : ℤ} (hbalance : s.getBalance k acc = .ok balance) :
    (shown k.bank s'.view (s.getTabiAddress acc) =
        shown k.bank s.view (s.getTabiAddress acc) - balance ∧
      s'.tempStateCurrent.surplus = s.tempStateCurrent.surplus + balance ∧
      s'.getBalance k acc = .ok 0) ↔
    s.coinbaseEvmAddress = acc ∨
      (∀ t, StateDB.getTabiAddress s.view acc = some t → t = acc.bytes) ∨
      (balance = 0 ∧ shown k.bank s.view acc.bytes = 0) := by
  obtain ⟨hafter, hsurplus, hzero⟩ := selfDestruct_spec L h herr
  have hshown := eq_shown_of_getBalance hbalance
  -- the account debited is the one that was shown
  have hsame : s.getTabiAddress acc =
      (if s.coinbaseEvmAddress = acc then s.coinbaseAddress else acc.bytes) →
      shown k.bank s'.view (s.getTabiAddress acc) =
          shown k.bank s.view (s.getTabiAddress acc) - balance ∧
        s'.tempStateCurrent.surplus = s.tempStateCurrent.surplus + balance ∧
        s'.getBalance k acc = .ok 0 := by
    intro he
    refine ⟨?_, ?_, hzero⟩
    · rw [hafter, if_pos he, ← hshown, sub_self]
    · rw [hsurplus, ← he, ← hshown]
  by_cases hcoin : s.coinbaseEvmAddress = acc
  · refine iff_of_true (hsame ?_) (.inl hcoin)
    rw [getTabiAddress, if_pos hcoin, if_pos hcoin]
  by_cases hassoc : ∀ t, StateDB.getTabiAddress s.view acc = some t → t = acc.bytes
  · refine iff_of_true (hsame ?_) (.inr (.inl hassoc))
    rw [getTabiAddress, if_neg hcoin, if_neg hcoin, getTabiAddressOrDefault]
    cases ht : StateDB.getTabiAddress s.view acc with
    | none => rfl
    | some t => exact hassoc t ht
  · -- another account was shown: it is not touched
    have hne : s.getTabiAddress acc ≠ acc.bytes := by
      push Not at hassoc
      obtain ⟨t, ht, hne⟩ := hassoc
      rw [getTabiAddress, if_neg hcoin, getTabiAddressOrDefault, ht]
      exact hne
    rw [if_neg hcoin] at hsurplus
    rw [hafter, if_neg hcoin, if_neg hne, ← hshown, hsurplus]
    constructor
    · rintro ⟨hb, hs, -⟩
      exact .inr (.inr ⟨by omega, by omega⟩)
    · rintro (hc | ha | ⟨hb, hc⟩)
      · exact absurd hc hcoin
      · exact absurd ha hassoc
      · exact ⟨by omega, by omega, hzero⟩

end DBImpl

def aliceTabi : AccAddress := [0xa1, 0x7a]

def threeAccounts : List AccAddress := [aliceTabi, alice.bytes, bob.bytes]

def aliceAssociated : Stores AccAddress ℤ where
  evm key :=
    if key = evmAddressToTabiAddressKey alice then some aliceTabi
    else if key = tabiAddressToEVMAddressKey aliceTabi then some alice.bytes else none
  acc _ := none
  bank a :=
    if a = aliceTabi then some 10000000000000 else if a = bob.bytes then some 5 else none

def aliceDB : DBImpl AccAddress ℤ :=
  .newDBImpl (ledgerKeepers threeAccounts) aliceAssociated ⟨1, []⟩ 0 false false

theorem selfDestruct_debits_bob :
    ∃ s', aliceDB.selfDestruct (ledgerKeepers threeAccounts) bob = .ok s' ∧
      s'.tempStateCurrent.surplus = aliceDB.tempStateCurrent.surplus + 5 := by
  obtain ⟨s', h, herr⟩ : ∃ s', aliceDB.selfDestruct (ledgerKeepers threeAccounts) bob = .ok s' ∧
      s'.err = none := ⟨_, rfl, rfl⟩
  have hassoc : ∀ t, getTabiAddress aliceDB.view bob = some t → t = bob.bytes := by
    intro t ht
    cases ht
  exact ⟨s', h, ((DBImpl.selfDestruct_debits_iff (ledgerAccounts threeAccounts) h herr
    (show aliceDB.getBalance (ledgerKeepers threeAccounts) bob = .ok 5 from rfl)).mpr
    (.inr (.inl hassoc))).2.1⟩

theorem selfDestruct_keeps_alice :
    aliceDB.getBalance (ledgerKeepers threeAccounts) alice = .ok 10000000000000 ∧
    ∃ s', aliceDB.selfDestruct (ledgerKeepers threeAccounts) alice = .ok s' ∧ s'.err = none ∧
      shown (ledgerBank threeAccounts) s'.view aliceTabi = 10000000000000 ∧
      s'.tempStateCurrent.surplus = aliceDB.tempStateCurrent.surplus :=
  ⟨rfl, _, rfl, rfl, rfl, rfl⟩

end Tabi.StateDB
