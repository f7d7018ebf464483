import Tabi.Ante.Sender
import Tabi.Association.Helper
import Tabi.Support.Transfer

/-!
# Association — what is assumed of the bank

The bank and account modules are parameters.
-/

namespace Tabi.Association

open Support StateDB

variable {β γ : Type}

structure BankLaws (K : Keepers β γ) where
  baseDenom : Bytes
  balance : Store β γ → AccAddress → Bytes → ℤ
  wei : Store β γ → AccAddress → ℤ
  locked : Store Bytes Bytes → AccAddress → Bytes → ℤ
  getBalance_eq : ∀ (v : Stores β γ) (a : AccAddress),
    K.bank.getBalance v a = balance v.bank a baseDenom
  getWeiBalance_eq : ∀ (v : Stores β γ) (a : AccAddress), K.bank.getWeiBalance v a = wei v.bank a
  lockedCoins_eq : ∀ (v : Stores β γ) (a : AccAddress) (d : Bytes),
    (K.lockedCoins v a).amountOf d = locked v.acc a d
  lockedAtabi_eq : ∀ (v : Stores β γ) (a : AccAddress),
    K.bank.lockedCoins v a = locked v.acc a baseDenom
  spendableCoins_eq : ∀ (v : Stores β γ) (a : AccAddress),
    (∀ d, locked v.acc a d ≤ balance v.bank a d) →
      ∀ d, (K.spendableCoins v a).amountOf d = balance v.bank a d - locked v.acc a d
  sendCoins_moves : ∀ {v : Stores β γ} {a b : AccAddress} {coins : Coins}
    {r : Patch β γ × List Event}, a ≠ b → K.sendCoins v a b coins = .ok r →
      (∀ d, Moves (balance v.bank · d) (balance (r.1 • v.bank) · d) a b (coins.amountOf d)) ∧
        wei (r.1 • v.bank) = wei v.bank
  sendWei_moves : ∀ {v : Stores β γ} {a b : AccAddress} {amt : ℤ} {r : Patch β γ × List Event},
    a ≠ b → K.bank.sendCoinsAndWei v a b 0 amt = .ok r →
      (∀ d ≠ baseDenom, ∀ x, balance (r.1 • v.bank) x d = balance v.bank x d) ∧
        Moves (fun x => balance v.bank x baseDenom * atabiToWeiMultiplier + wei v.bank x)
          (fun x => balance (r.1 • v.bank) x baseDenom * atabiToWeiMultiplier +
            wei (r.1 • v.bank) x) a b amt ∧
        ∀ x, x = a ∨ x = b → 0 ≤ wei (r.1 • v.bank) x ∧ wei (r.1 • v.bank) x < atabiToWeiMultiplier
  locked_setNewAccount : ∀ (s : Store Bytes Bytes) (a : AccAddress),
    K.account.hasAccount s a = false → locked (K.account.setNewAccount s a • s) = locked s
  locked_setPubKey : ∀ {s : Store Bytes Bytes} {a : AccAddress} {key : Bytes}
    {p : Patch Bytes Bytes}, K.setPubKey s a key = .ok p → locked (p • s) = locked s
  locked_removeAccount : ∀ (s : Store Bytes Bytes) (a : AccAddress),
    (∀ d, locked s a d = 0) → locked (K.removeAccount s a • s) = locked s

namespace BankLaws

variable {K : Keepers β γ} (L : BankLaws K)

def value (m : Store β γ) (a : AccAddress) : ℤ :=
  L.balance m a L.baseDenom * atabiToWeiMultiplier + L.wei m a

def evmBalance (v : Stores β γ) (a : AccAddress) : ℤ :=
  (L.balance v.bank a L.baseDenom - L.locked v.acc a L.baseDenom) * atabiToWeiMultiplier +
    L.wei v.bank a

theorem evmBalance_eq_value (v : Stores β γ) (a : AccAddress) :
    L.evmBalance v a =
      L.value v.bank a - L.locked v.acc a L.baseDenom * atabiToWeiMultiplier := by
  rw [evmBalance, value]
  ring

theorem getBalance_eq_ok {v : Stores β γ} {a : AccAddress} {x : ℤ} :
    getBalance K.toKeepers v a = .ok x ↔
      (SdkInt.Fits (L.balance v.bank a L.baseDenom - L.locked v.acc a L.baseDenom) ∧
        SdkInt.Fits ((L.balance v.bank a L.baseDenom - L.locked v.acc a L.baseDenom) *
          atabiToWeiMultiplier) ∧
        SdkInt.Fits (L.evmBalance v a)) ∧ x = L.evmBalance v a := by
  unfold getBalance
  rw [L.getBalance_eq, L.lockedAtabi_eq, L.getWeiBalance_eq]
  simp only [bind_eq_ok, SdkInt.sub_eq_ok, SdkInt.mul, SdkInt.ofBig_eq_ok,
    SdkInt.add_eq_ok]
  constructor
  · rintro ⟨_, ⟨hsub, rfl⟩, _, ⟨hmul, rfl⟩, hadd, rfl⟩
    exact ⟨⟨hsub, hmul, hadd⟩, rfl⟩
  · rintro ⟨⟨hsub, hmul, hadd⟩, rfl⟩
    exact ⟨_, ⟨hsub, rfl⟩, _, ⟨hmul, rfl⟩, hadd, rfl⟩

end BankLaws

abbrev PurseKey := AccAddress × Option Bytes

def purseDenoms : List Bytes := [[0], [1]]

section Purse

variable (m : Store PurseKey ℤ) (s : Store Bytes Bytes) (a : AccAddress)

def purseBalance (d : Bytes) : ℤ := if d ∈ purseDenoms then (m (a, some d)).getD 0 else 0

def purseWei : ℤ := (m (a, none)).getD 0

def purseValue : ℤ := purseBalance m a [0] * atabiToWeiMultiplier + purseWei m a

def purseLocked (d : Bytes) : ℤ :=
  if d ∈ purseDenoms then (((s a).getD []).getD (purseDenoms.idxOf d) 0).toNat else 0

end Purse

def purseSet (a : AccAddress) (x : ℤ) : Patch PurseKey ℤ :=
  Patch.set (a, some [0]) (x / atabiToWeiMultiplier) *
    Patch.set (a, none) (x % atabiToWeiMultiplier)

def purseAdd (unit : ℤ) (v : Stores PurseKey ℤ) (a : AccAddress) (amt : ℤ) :
    BankResult PurseKey ℤ :=
  .ok (purseSet a (purseValue v.bank a + amt * unit), [])

def purseSub (unit : ℤ) (v : Stores PurseKey ℤ) (a : AccAddress) (amt : ℤ) :
    BankResult PurseKey ℤ :=
  if amt * unit ≤ purseValue v.bank a then
    .ok (purseSet a (purseValue v.bank a - amt * unit), [])
  else .error "insufficient funds"

def purseSendValue (v : Stores PurseKey ℤ) (a b : AccAddress) (amt : ℤ) : BankResult PurseKey ℤ :=
  if amt ≤ purseValue v.bank a then
    .ok (purseSet b (purseValue v.bank b + amt) * purseSet a (purseValue v.bank a - amt), [])
  else .error "insufficient funds"

def purseMove (m : Store PurseKey ℤ) (a b : AccAddress) (coins : Coins) : Patch PurseKey ℤ :=
  ⟨fun key => match key.2 with
    | none => none
    | some d =>
      if key.1 = a then some (some (purseBalance m a d - coins.amountOf d))
      else if key.1 = b then some (some (purseBalance m b d + coins.amountOf d))
      else none⟩

def purseSendCoins (v : Stores PurseKey ℤ) (a b : AccAddress) (coins : Coins) :
    BankResult PurseKey ℤ :=
  if coins.all (·.denom ∈ purseDenoms) ∧
      ∀ d ∈ purseDenoms, coins.amountOf d ≤ purseBalance v.bank a d - purseLocked v.acc a d then
    .ok (purseMove v.bank a b coins, [])
  else .error "insufficient funds"

def purseCoins (f : Bytes → ℤ) : Coins := purseDenoms.map fun d => ⟨d, f d⟩

def purse : Keepers PurseKey ℤ where
  bank :=
    { addCoins := purseAdd atabiToWeiMultiplier
      addWei := purseAdd 1
      subUnlockedCoins := purseSub atabiToWeiMultiplier
      subWei := purseSub 1
      sendCoinsAndWei := fun v a b atabi wei =>
        purseSendValue v a b (atabi * atabiToWeiMultiplier + wei)
      mintCoins := fun _ _ => .error "minting is disabled"
      getBalance := fun v a => purseBalance v.bank a [0]
      lockedCoins := fun v a => purseLocked v.acc a [0]
      getWeiBalance := fun v a => purseWei v.bank a }
  account := ⟨fun s a => (s a).isSome, fun _ a => Patch.set a []⟩
  keccak _ := emptyHash
  bech32 a := a
  hex a := a.bytes
  cachedFeeCollectorAddress := some (FixedBytes.zero 20)
  feeCollectorModuleAddress := [0xfc]
  evmModuleAddress := []
  crypto := Ante.plainCrypto
  spendableCoins v a :=
    if ∀ d ∈ purseDenoms, purseLocked v.acc a d ≤ purseBalance v.bank a d then
      purseCoins fun d => purseBalance v.bank a d - purseLocked v.acc a d
    else []
  lockedCoins v a := purseCoins (purseLocked v.acc a)
  sendCoins := purseSendCoins
  getPubKey _ _ := .ok none
  setPubKey _ _ _ := .ok 1
  removeAccount _ a := Patch.delete a

def noStores : Stores PurseKey ℤ := ⟨fun _ => none, fun _ => none, fun _ => none⟩

theorem purseCoins_amountOf (f : Bytes → ℤ) (d : Bytes) :
    (purseCoins f).amountOf d = if d ∈ purseDenoms then f d else 0 := by
  by_cases h₀ : d = [0]
  · subst h₀
    rfl
  · by_cases h₁ : d = [1]
    · subst h₁
      rfl
    · have hd : d ∉ purseDenoms := by simp [purseDenoms, h₀, h₁]
      rw [if_neg hd]
      simp [purseCoins, purseDenoms, Coins.amountOf, Ne.symm h₀, Ne.symm h₁]

theorem amountOf_of_not_mem {coins : Coins} (h : coins.all (·.denom ∈ purseDenoms) = true)
    {d : Bytes} (hd : d ∉ purseDenoms) : coins.amountOf d = 0 := by
  have hnone : (coins.find? fun c => c.denom = d) = none := by
    refine List.find?_eq_none.mpr fun c hc e => hd ?_
    rw [← of_decide_eq_true e]
    simpa using List.all_eq_true.mp h c hc
  rw [Coins.amountOf, hnone]
  rfl

section PurseLaws

variable {m : Store PurseKey ℤ} {a b : AccAddress}

theorem purseMove_moves {coins : Coins} (hne : a ≠ b)
    (hcoins : coins.all (·.denom ∈ purseDenoms) = true) (d : Bytes) :
    Moves (purseBalance m · d) (purseBalance (purseMove m a b coins • m) · d) a b
      (coins.amountOf d) := by
  by_cases hd : d ∈ purseDenoms
  · refine ⟨?_, ?_, fun x ha hb => ?_⟩
    · simp [purseBalance, hd, Patch.smul_apply, purseMove]
    · simp [purseBalance, hd, Patch.smul_apply, purseMove, hne.symm]
    · simp [purseBalance, hd, Patch.smul_apply, purseMove, ha, hb]
  · rw [amountOf_of_not_mem hcoins hd]
    have hzero : ∀ m x, purseBalance m x d = 0 := fun _ _ => if_neg hd
    exact ⟨by simp [hzero], by simp [hzero], by simp [hzero]⟩

variable {x : AccAddress}

theorem purseSet_other (h : x ≠ a) (z : ℤ) (o : Option Bytes) :
    (purseSet a z • m) (x, o) = m (x, o) := by
  have hne : ∀ o', (x, o) ≠ (a, o') := fun _ e => h (congrArg Prod.fst e)
  rw [purseSet, mul_smul, Patch.set_smul_other (hne _), Patch.set_smul_other (hne _)]

theorem purseSet_denom {d : Bytes} (h : d ≠ [0]) (x : AccAddress) (z : ℤ) :
    (purseSet a z • m) (x, some d) = m (x, some d) := by
  have h₁ : (x, some d) ≠ (a, some [0]) := fun e => h (Option.some.inj (congrArg Prod.snd e))
  have h₂ : (x, some d) ≠ (a, none) := fun e => nomatch congrArg Prod.snd e
  rw [purseSet, mul_smul, Patch.set_smul_other h₁, Patch.set_smul_other h₂]

theorem purseSet_wei (a : AccAddress) (z : ℤ) :
    purseWei (purseSet a z • m) a = z % atabiToWeiMultiplier := by
  have hne : (a, (none : Option Bytes)) ≠ (a, some [0]) := fun e => nomatch congrArg Prod.snd e
  rw [purseWei, purseSet, mul_smul, Patch.set_smul_other hne, Patch.set_smul_same]
  rfl

theorem purseSet_value (a : AccAddress) (z : ℤ) : purseValue (purseSet a z • m) a = z := by
  have hbalance : purseBalance (purseSet a z • m) a [0] = z / atabiToWeiMultiplier := by
    rw [purseBalance, if_pos (by decide), purseSet, mul_smul, Patch.set_smul_same]
    rfl
  rw [purseValue, hbalance, purseSet_wei]
  exact Int.ediv_mul_add_emod z _

theorem purseSet_value_other (h : x ≠ a) (z : ℤ) :
    purseValue (purseSet a z • m) x = purseValue m x := by
  simp only [purseValue, purseBalance, purseWei, purseSet_other h]

theorem purseSet_wei_other (h : x ≠ a) (z : ℤ) : purseWei (purseSet a z • m) x = purseWei m x := by
  simp only [purseWei, purseSet_other h]

theorem purseSendValue_moves {v : Stores PurseKey ℤ} {amt : ℤ} {r : Patch PurseKey ℤ × List Event}
    (hne : a ≠ b) (h : purseSendValue v a b amt = .ok r) :
    (∀ d ≠ [0], ∀ x, purseBalance (r.1 • v.bank) x d = purseBalance v.bank x d) ∧
      Moves (purseValue v.bank) (purseValue (r.1 • v.bank)) a b amt ∧
      ∀ x, x = a ∨ x = b →
        0 ≤ purseWei (r.1 • v.bank) x ∧ purseWei (r.1 • v.bank) x < atabiToWeiMultiplier := by
  unfold purseSendValue at h
  split at h
  · cases h
    dsimp only
    rw [mul_smul]
    have hrange : ∀ z : ℤ, 0 ≤ z % atabiToWeiMultiplier ∧
        z % atabiToWeiMultiplier < atabiToWeiMultiplier := fun z =>
      ⟨Int.emod_nonneg z (by decide), Int.emod_lt_of_pos z (by decide)⟩
    refine ⟨fun d hd x => ?_, ⟨?_, ?_, fun x ha hb => ?_⟩, ?_⟩
    · simp only [purseBalance, purseSet_denom hd]
    · rw [purseSet_value_other hne, purseSet_value]
    · rw [purseSet_value]
    · rw [purseSet_value_other hb, purseSet_value_other ha]
    · rintro x (rfl | rfl)
      · rw [purseSet_wei_other hne, purseSet_wei]
        exact hrange _
      · rw [purseSet_wei]
        exact hrange _
  · cases h

def purseLaws : BankLaws purse where
  baseDenom := [0]
  balance := purseBalance
  wei := purseWei
  locked := purseLocked
  getBalance_eq _ _ := rfl
  getWeiBalance_eq _ _ := rfl
  lockedCoins_eq v a d := by
    refine (purseCoins_amountOf _ d).trans ?_
    unfold purseLocked
    split <;> rfl
  lockedAtabi_eq _ _ := rfl
  spendableCoins_eq v a h d := by
    have hall : ∀ d ∈ purseDenoms, purseLocked v.acc a d ≤ purseBalance v.bank a d :=
      fun d _ => h d
    show (if ∀ d ∈ purseDenoms, purseLocked v.acc a d ≤ purseBalance v.bank a d then
      purseCoins fun d => purseBalance v.bank a d - purseLocked v.acc a d else []).amountOf d = _
    rw [if_pos hall, purseCoins_amountOf]
    unfold purseBalance purseLocked
    split <;> simp
  sendCoins_moves hne h := by
    simp only [purse, purseSendCoins] at h
    split at h
    · rename_i hc
      cases h
      exact ⟨purseMove_moves hne hc.1, rfl⟩
    · cases h
  sendWei_moves hne h := by
    have h := purseSendValue_moves hne h
    rw [zero_mul, zero_add] at h
    exact h
  locked_setNewAccount s a h := by
    have hnone : s a = none := by simpa [purse] using h
    funext x d
    show purseLocked (Patch.set a [] • s) x d = _
    by_cases hx : x = a
    · subst hx
      simp only [purseLocked, Patch.set_smul_same, hnone]
      rfl
    · simp only [purseLocked, Patch.set_smul_other hx]
  locked_setPubKey h := by
    cases h
    rw [one_smul]
  locked_removeAccount s a h := by
    funext x d
    show purseLocked (Patch.delete a • s) x d = _
    by_cases hx : x = a
    · subst hx
      rw [h d, purseLocked, Patch.delete_smul_same]
      split <;> rfl
    · simp only [purseLocked, Patch.delete_smul_other hx]

end PurseLaws

end Tabi.Association
