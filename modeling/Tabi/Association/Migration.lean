import Tabi.Association.Bank

/-!
# Association — nothing is lost

What an association moves, over any bank that does what it is told (`BankLaws`).
-/

namespace Tabi.Association

open Support StateDB

variable {β γ : Type}

section Migration

variable {K : Keepers β γ} (L : BankLaws K) {v v' : Stores β γ} {tabiAddr : AccAddress}
  {evmAddr : Address} {pubkey : Bytes}

def SameHoldings (v v' : Stores β γ) : Prop :=
  v'.bank = v.bank ∧ L.locked v'.acc = L.locked v.acc

theorem mapAddress_sameHoldings (v : Stores β γ) (tabiAddr : AccAddress) (evmAddr : Address) :
    SameHoldings L v (mapAddress K v tabiAddr evmAddr) := by
  refine ⟨one_smul _ v.bank, ?_⟩
  show L.locked ((if K.account.hasAccount v.acc tabiAddr then 1
    else K.account.setNewAccount v.acc tabiAddr) • v.acc) = _
  split
  · rw [one_smul]
  · rename_i hacc
    exact L.locked_setNewAccount v.acc tabiAddr (Bool.eq_false_iff.mpr hacc)

theorem setMissingPubKey_sameHoldings (h : setMissingPubKey K v tabiAddr pubkey = .ok v') :
    SameHoldings L v v' := by
  rcases setMissingPubKey_cases h with rfl | ⟨p, hp, rfl⟩
  · exact ⟨rfl, rfl⟩
  · exact ⟨one_smul _ v.bank, L.locked_setPubKey hp⟩

theorem removeCast_sameHoldings (v : Stores β γ) (castAddr : AccAddress) :
    SameHoldings L v (removeCast K v castAddr) := by
  unfold removeCast
  split
  · rename_i hzero
    refine ⟨one_smul _ v.bank, L.locked_removeAccount v.acc castAddr fun d => ?_⟩
    rw [← L.lockedCoins_eq]
    exact Coins.amountOf_of_isZero hzero d
  · exact ⟨rfl, rfl⟩

variable {castAddr : AccAddress}

theorem migrateCoins_moves (hne : castAddr ≠ tabiAddr)
    (hlocked : ∀ d, L.locked v.acc castAddr d ≤ L.balance v.bank castAddr d)
    (h : migrateCoins K v castAddr tabiAddr = .ok v') :
    v'.acc = v.acc ∧ L.wei v'.bank = L.wei v.bank ∧
      ∀ d, Moves (L.balance v.bank · d) (L.balance v'.bank · d) castAddr tabiAddr
        (L.balance v.bank castAddr d - L.locked v.acc castAddr d) := by
  have hspendable := L.spendableCoins_eq v castAddr hlocked
  unfold migrateCoins at h
  split at h
  · -- there is nothing to spend
    rename_i hzero
    cases h
    refine ⟨rfl, rfl, fun d => ?_⟩
    rw [← hspendable d, Coins.amountOf_of_isZero hzero d]
    exact .refl _ _ _
  · cases hr : K.sendCoins v castAddr tabiAddr (K.spendableCoins v castAddr) with
    | error e =>
      rw [hr] at h
      cases h
    | ok r =>
      rw [hr] at h
      cases h
      obtain ⟨hmoves, hwei⟩ := L.sendCoins_moves hne hr
      refine ⟨one_smul _ v.acc, hwei, fun d => ?_⟩
      rw [← hspendable d]
      exact hmoves d

theorem migrateWei_moves (hne : castAddr ≠ tabiAddr)
    (h : migrateWei K v castAddr tabiAddr = .ok v') :
    v'.acc = v.acc ∧ (∀ d ≠ L.baseDenom, ∀ x, L.balance v'.bank x d = L.balance v.bank x d) ∧
      Moves (L.value v.bank) (L.value v'.bank) castAddr tabiAddr (L.wei v.bank castAddr) ∧
      L.wei v'.bank castAddr = 0 ∧
      (L.wei v'.bank tabiAddr = L.wei v.bank tabiAddr ∨
        0 ≤ L.wei v'.bank tabiAddr ∧ L.wei v'.bank tabiAddr < atabiToWeiMultiplier) := by
  unfold migrateWei at h
  rw [L.getWeiBalance_eq] at h
  split at h
  · rename_i hzero
    cases h
    rw [hzero]
    exact ⟨rfl, fun _ _ _ => rfl, .refl _ _ _, rfl, .inl rfl⟩
  · cases hr : K.bank.sendCoinsAndWei v castAddr tabiAddr 0 (L.wei v.bank castAddr) with
    | error e =>
      rw [hr] at h
      cases h
    | ok r =>
      rw [hr] at h
      cases h
      obtain ⟨hdenoms, hmoves, hrange⟩ := L.sendWei_moves hne hr
      refine ⟨one_smul _ v.acc, hdenoms, hmoves, ?_, .inr (hrange tabiAddr (.inr rfl))⟩
      -- the value left is one of whole atabi, and wei are a remainder
      have hleft := hmoves.source
      have hcast := hrange castAddr (.inl rfl)
      show L.wei (r.1 • v.bank) castAddr = 0
      have hunit : atabiToWeiMultiplier = 1000000000000 := rfl
      rw [hunit] at hleft hcast
      omega

structure Migrated (castAddr tabiAddr : AccAddress) (v v' : Stores β γ) : Prop where
  locked : L.locked v'.acc = L.locked v.acc
  denoms : ∀ d ≠ L.baseDenom, Moves (L.balance v.bank · d) (L.balance v'.bank · d) castAddr tabiAddr
    (L.balance v.bank castAddr d - L.locked v.acc castAddr d)
  value : Moves (L.value v.bank) (L.value v'.bank) castAddr tabiAddr (L.evmBalance v castAddr)
  wei : L.wei v'.bank castAddr = 0
  range : L.wei v'.bank tabiAddr = L.wei v.bank tabiAddr ∨
    0 ≤ L.wei v'.bank tabiAddr ∧ L.wei v'.bank tabiAddr < atabiToWeiMultiplier

theorem migrateBalance_migrated (hne : evmAddr.bytes ≠ tabiAddr)
    (hlocked : ∀ d, L.locked v.acc evmAddr.bytes d ≤ L.balance v.bank evmAddr.bytes d)
    (h : migrateBalance K v evmAddr tabiAddr = .ok v') :
    Migrated L evmAddr.bytes tabiAddr v v' := by
  obtain ⟨v₁, h₁, h⟩ := bind_eq_ok.mp h
  obtain ⟨v₂, h₂, h⟩ := bind_eq_ok.mp h
  cases h
  obtain ⟨hacc₁, hwei₁, hcoins⟩ := migrateCoins_moves L hne hlocked h₁
  obtain ⟨hacc₂, hdenoms, hvalue, hwei₂, hrange⟩ := migrateWei_moves L hne h₂
  obtain ⟨hbank, hlocked₃⟩ := removeCast_sameHoldings L v₂ evmAddr.bytes
  refine ⟨?_, ?_, ?_, hbank ▸ hwei₂, ?_⟩
  · rw [hlocked₃, hacc₂, hacc₁]
  · intro d hd
    have hsame : (L.balance v₂.bank · d) = (L.balance v₁.bank · d) := funext (hdenoms d hd)
    rw [hbank, hsame]
    exact hcoins d
  · -- the coins count `10^12` wei each, and the wei follow
    have hbase : Moves (L.value v.bank) (L.value v₁.bank) evmAddr.bytes tabiAddr
        ((L.balance v.bank evmAddr.bytes L.baseDenom -
          L.locked v.acc evmAddr.bytes L.baseDenom) * atabiToWeiMultiplier) := by
      have hunits := (hcoins L.baseDenom).map (AddMonoidHom.mulRight atabiToWeiMultiplier)
      have hadd := hunits.add (.refl (L.wei v.bank) evmAddr.bytes tabiAddr)
      rw [add_zero] at hadd
      rw [show L.value v₁.bank = fun x => L.balance v₁.bank x L.baseDenom *
        atabiToWeiMultiplier + L.wei v.bank x from funext fun x => by rw [BankLaws.value, hwei₁]]
      exact hadd
    rw [hbank, BankLaws.evmBalance, ← hwei₁]
    exact hbase.trans hvalue
  · rw [hbank, ← hwei₁]
    exact hrange

theorem associateAddresses_migrated (hne : evmAddr.bytes ≠ tabiAddr)
    (hlocked : ∀ d, L.locked v.acc evmAddr.bytes d ≤ L.balance v.bank evmAddr.bytes d)
    (h : associateAddresses K v tabiAddr evmAddr pubkey = .ok v') :
    Migrated L evmAddr.bytes tabiAddr v v' := by
  obtain ⟨v₁, h₁, h⟩ := bind_eq_ok.mp h
  obtain ⟨hbank₀, hlocked₀⟩ := mapAddress_sameHoldings L v tabiAddr evmAddr
  obtain ⟨hbank₁, hlocked₁⟩ := setMissingPubKey_sameHoldings L h₁
  have hbank : v₁.bank = v.bank := hbank₁.trans hbank₀
  have hacc : L.locked v₁.acc = L.locked v.acc := hlocked₁.trans hlocked₀
  obtain ⟨hl, hd, hv, hw, hr⟩ := migrateBalance_migrated L hne
    (by rw [hacc, hbank]; exact hlocked) h
  simp only [BankLaws.evmBalance, hbank, hacc] at hl hd hv hw hr
  exact ⟨hl, hd, hv, hw, hr⟩

theorem Migrated.spent (h : Migrated L castAddr tabiAddr v v') (d : Bytes) :
    L.balance v'.bank castAddr d = L.locked v'.acc castAddr d := by
  rw [h.locked]
  by_cases hd : d = L.baseDenom
  · -- what is left is worth the locked atabi, and there are no wei
    have hvalue := h.value.source
    rw [L.evmBalance_eq_value, BankLaws.value, h.wei] at hvalue
    rw [hd]
    have hunit : atabiToWeiMultiplier = 1000000000000 := rfl
    rw [hunit] at hvalue
    omega
  · have hsource := (h.denoms d hd).source
    omega

theorem Migrated.evmBalance_eq (h : Migrated L castAddr tabiAddr v v') :
    L.evmBalance v' tabiAddr = L.evmBalance v castAddr + L.evmBalance v tabiAddr := by
  rw [L.evmBalance_eq_value v', h.value.target, h.locked, L.evmBalance_eq_value v tabiAddr]
  ring

theorem getBalance_of_range {x : ℤ}
    (hwei : 0 ≤ L.wei v.bank tabiAddr ∧ L.wei v.bank tabiAddr < atabiToWeiMultiplier)
    (hx : L.evmBalance v tabiAddr = x) (hlimit : x.natAbs + 10 ^ 12 < 2 ^ 256) :
    getBalance K.toKeepers v tabiAddr = .ok x := by
  subst hx
  refine L.getBalance_eq_ok.mpr ⟨?_, rfl⟩
  have hunit : atabiToWeiMultiplier = 1000000000000 := rfl
  unfold BankLaws.evmBalance at hlimit ⊢
  rw [hunit] at hwei hlimit ⊢
  unfold SdkInt.Fits SdkInt.maxBitLen
  omega

/-- **Nothing is lost.**  A successful association of two different accounts, of which the cast
one holds at least its locked coins, keeps the total of every denomination other than the base
denomination, and the total value of atabi and wei.  It leaves the cast account without wei and
without a coin to spend, and the balance of the EVM address, through the new mapping, is the sum
of the balances of the two accounts. -/
theorem associateAddresses_migrates (hne : evmAddr.bytes ≠ tabiAddr)
    (hlocked : ∀ d, L.locked v.acc evmAddr.bytes d ≤ L.balance v.bank evmAddr.bytes d)
    (h : associateAddresses K v tabiAddr evmAddr pubkey = .ok v') :
    (∀ accts : Finset AccAddress, evmAddr.bytes ∈ accts → tabiAddr ∈ accts →
      (∀ d ≠ L.baseDenom,
        ∑ x ∈ accts, L.balance v'.bank x d = ∑ x ∈ accts, L.balance v.bank x d) ∧
      ∑ x ∈ accts, L.value v'.bank x = ∑ x ∈ accts, L.value v.bank x) ∧
    (∀ d, (K.spendableCoins v' evmAddr.bytes).amountOf d = 0) ∧
    K.bank.getWeiBalance v' evmAddr.bytes = 0 ∧
    L.evmBalance v' (getTabiAddressOrDefault v' evmAddr) =
      L.evmBalance v evmAddr.bytes + L.evmBalance v tabiAddr ∧
    ∀ x y, getBalance K.toKeepers v evmAddr.bytes = .ok x →
      getBalance K.toKeepers v tabiAddr = .ok y →
      0 ≤ L.wei v.bank tabiAddr ∧ L.wei v.bank tabiAddr < atabiToWeiMultiplier →
      (x + y).natAbs + 10 ^ 12 < 2 ^ 256 →
      getBalance K.toKeepers v' (getTabiAddressOrDefault v' evmAddr) = .ok (x + y) := by
  have hmig := associateAddresses_migrated L hne hlocked h
  have hmapped : getTabiAddressOrDefault v' evmAddr = tabiAddr := by
    have hevm : v'.evm (evmAddressToTabiAddressKey evmAddr) = some tabiAddr := by
      rw [associateAddresses_evm h]
      exact (congrFun (getTabiAddress_mapAddress K v tabiAddr evmAddr) evmAddr).trans
        (Function.update_self ..)
    rw [getTabiAddressOrDefault, getTabiAddress, hevm]
    rfl
  rw [hmapped]
  refine ⟨fun accts hcast htrue => ⟨fun d hd => ?_, ?_⟩, fun d => ?_, ?_, hmig.evmBalance_eq,
    fun x y hx hy hwei hlimit => ?_⟩
  · exact (hmig.denoms d hd).sum_eq hne hcast htrue
  · exact hmig.value.sum_eq hne hcast htrue
  · rw [L.spendableCoins_eq v' _ fun d => (hmig.spent L d).ge, hmig.spent, sub_self]
  · rw [L.getWeiBalance_eq]
    exact hmig.wei
  · obtain ⟨-, rfl⟩ := L.getBalance_eq_ok.mp hx
    obtain ⟨-, rfl⟩ := L.getBalance_eq_ok.mp hy
    refine getBalance_of_range L ?_ hmig.evmBalance_eq hlimit
    rcases hmig.range with e | hrange
    · rw [e]
      exact hwei
    · exact hrange

end Migration

def castOwner : Address := FixedBytes.ofBytes 20 [0xa1]
def trueOwner : AccAddress := [0xb0]

def bothHold (lockedCoin : UInt8) (castWei trueWei : ℤ) : Stores PurseKey ℤ where
  evm _ := none
  acc a := if a = castOwner.bytes then some [2, lockedCoin] else none
  bank key :=
    if key = (castOwner.bytes, some [0]) then some 3
    else if key = (castOwner.bytes, some [1]) then some 4
    else if key = (castOwner.bytes, none) then some castWei
    else if key = (trueOwner, none) then some trueWei
    else none

theorem associateAddresses_migrates_bothHold :
    ∃ v', associateAddresses purse (bothHold 1 5 6) trueOwner castOwner [] = .ok v' ∧
      purse.bank.getWeiBalance v' castOwner.bytes = 0 ∧
      getBalance purse.toKeepers v' (getTabiAddressOrDefault v' castOwner) =
        .ok 1000000000011 := by
  obtain ⟨v', h⟩ :
      ∃ v', associateAddresses purse (bothHold 1 5 6) trueOwner castOwner [] = .ok v' := ⟨_, rfl⟩
  have hlocked : ∀ d, purseLocked (bothHold 1 5 6).acc castOwner.bytes d ≤
      purseBalance (bothHold 1 5 6).bank castOwner.bytes d := by
    intro d
    unfold purseLocked purseBalance
    split
    · rename_i hd
      rcases List.mem_pair.mp hd with rfl | rfl
      · decide
      · decide
    · rfl
  obtain ⟨-, -, hwei, -, hbalance⟩ := associateAddresses_migrates purseLaws (by decide) hlocked h
  refine ⟨v', h, hwei, ?_⟩
  exact hbalance 1000000000005 6 (by decide) (by decide) (by decide) (by decide)

theorem associateAddresses_carries :
    (∃ v', associateAddresses purse (bothHold 1 600000000000 600000000000) trueOwner castOwner [] =
        .ok v' ∧
      ∑ x ∈ {castOwner.bytes, trueOwner}, purseBalance v'.bank x [0] =
        ∑ x ∈ {castOwner.bytes, trueOwner},
          purseBalance (bothHold 1 600000000000 600000000000).bank x [0] + 1) ∧
    ∃ v', associateAddresses purse (bothHold 9 5 6) trueOwner castOwner [] = .ok v' ∧
      getBalance purse.toKeepers (bothHold 9 5 6) castOwner.bytes = .ok 1000000000005 ∧
      getBalance purse.toKeepers (bothHold 9 5 6) trueOwner = .ok 6 ∧
      getBalance purse.toKeepers v' (getTabiAddressOrDefault v' castOwner) = .ok 11 := by
  refine ⟨⟨_, rfl, ?_⟩, _, rfl, ?_, ?_, ?_⟩
  · decide
  · decide
  · decide
  · decide

end Tabi.Association
