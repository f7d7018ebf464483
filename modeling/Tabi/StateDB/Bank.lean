import Tabi.StateDB.Keeper
import Mathlib.Tactic.LinearCombination

/-!
# StateDB — what is assumed of the bank

The bank module is not part of the repository.
-/

namespace Tabi.StateDB

open Support

variable {β γ : Type}

structure Books (β γ : Type) where
  atabi : Store β γ → ℤ
  wei : Store β γ → ℤ

def Books.total (B : Books β γ) (v : Stores β γ) : ℤ :=
  B.atabi v.bank * atabiToWeiMultiplier + B.wei v.bank

structure BankTotal (bank : BankKeeper β γ) extends Books β γ where
  addCoins : ∀ {v a amt r}, bank.addCoins v a amt = .ok r →
    toBooks.total (Writes.ofBank r.1 • v) = toBooks.total v + amt * atabiToWeiMultiplier
  addWei : ∀ {v a amt r}, bank.addWei v a amt = .ok r →
    toBooks.total (Writes.ofBank r.1 • v) = toBooks.total v + amt
  subUnlockedCoins : ∀ {v a amt r}, bank.subUnlockedCoins v a amt = .ok r →
    toBooks.total (Writes.ofBank r.1 • v) = toBooks.total v - amt * atabiToWeiMultiplier
  subWei : ∀ {v a amt r}, bank.subWei v a amt = .ok r →
    toBooks.total (Writes.ofBank r.1 • v) = toBooks.total v - amt

/-- The wei `GetBalance` shows of an account: what is not locked, and the wei. -/
def shown (bank : BankKeeper β γ) (v : Stores β γ) (a : AccAddress) : ℤ :=
  (bank.getBalance v a - bank.lockedCoins v a) * atabiToWeiMultiplier + bank.getWeiBalance v a

def WeiInRange (bank : BankKeeper β γ) (v : Stores β γ) (a : AccAddress) : Prop :=
  0 ≤ bank.getWeiBalance v a ∧ bank.getWeiBalance v a < atabiToWeiMultiplier

def Shifts (bank : BankKeeper β γ) (call : BankCall β γ) (d : ℤ) : Prop :=
  ∀ v a amt r, call v a amt = .ok r → ∀ b,
    shown bank (Writes.ofBank r.1 • v) b = shown bank v b + if b = a then d * amt else 0

structure AccountLaws (bank : BankKeeper β γ) : Prop where
  addCoins : Shifts bank bank.addCoins atabiToWeiMultiplier
  addWei : Shifts bank bank.addWei 1
  subUnlockedCoins : Shifts bank bank.subUnlockedCoins (-atabiToWeiMultiplier)
  subWei : Shifts bank bank.subWei (-1)
  addWei_range : ∀ {v a amt r}, bank.addWei v a amt = .ok r →
    WeiInRange bank (Writes.ofBank r.1 • v) a
  subWei_range : ∀ {v a amt r}, bank.subWei v a amt = .ok r →
    WeiInRange bank (Writes.ofBank r.1 • v) a
  evm_irrelevant : ∀ (p : Patch Bytes Bytes) v a,
    shown bank ((Writes.ofEvm p : Writes β γ) • v) a = shown bank v a

def ledgerAdd (accts : List AccAddress) (unit : ℤ) : BankCall AccAddress ℤ := fun v a amt =>
  if a ∈ accts then .ok (Patch.set a ((v.bank a).getD 0 + amt * unit), [])
  else .error "unknown account"

def ledgerSub (accts : List AccAddress) (unit : ℤ) : BankCall AccAddress ℤ := fun v a amt =>
  if amt * unit ≤ (v.bank a).getD 0 then ledgerAdd accts unit v a (-amt)
  else .error "insufficient funds"

def ledgerBank (accts : List AccAddress) : BankKeeper AccAddress ℤ where
  addCoins := ledgerAdd accts atabiToWeiMultiplier
  addWei := ledgerAdd accts 1
  subUnlockedCoins := ledgerSub accts atabiToWeiMultiplier
  subWei := ledgerSub accts 1
  sendCoinsAndWei _ _ _ _ _ := .error "transfers are disabled"
  mintCoins _ _ := .error "minting is disabled"
  getBalance v a := (v.bank a).getD 0 / atabiToWeiMultiplier
  lockedCoins _ _ := 0
  getWeiBalance v a := (v.bank a).getD 0 % atabiToWeiMultiplier

def ledgerBooks (accts : List AccAddress) : Books AccAddress ℤ where
  atabi m := (accts.map fun a => (m a).getD 0 / atabiToWeiMultiplier).sum
  wei m := (accts.map fun a => (m a).getD 0 % atabiToWeiMultiplier).sum

theorem ledgerBooks_total (accts : List AccAddress) (v : Stores AccAddress ℤ) :
    (ledgerBooks accts).total v = (accts.map fun a => (v.bank a).getD 0).sum := by
  show (accts.map _).sum * _ + (accts.map _).sum = _
  induction accts with
  | nil => rfl
  | cons a accts ih =>
    simp only [List.map_cons, List.sum_cons, add_mul] at ih ⊢
    rw [← ih]
    linear_combination Int.ediv_mul_add_emod ((v.bank a).getD 0) atabiToWeiMultiplier

variable {accts : List AccAddress} {a : AccAddress}

theorem sum_map_set (hnd : accts.Nodup) (ha : a ∈ accts) (m : Store AccAddress ℤ) (d : ℤ) :
    (accts.map fun x => ((Patch.set a ((m a).getD 0 + d) • m) x).getD 0).sum =
      (accts.map fun x => (m x).getD 0).sum + d := by
  induction accts with
  | nil => cases ha
  | cons b accts ih =>
    obtain ⟨hb, hnd⟩ := List.nodup_cons.mp hnd
    rw [List.map_cons, List.sum_cons, List.map_cons, List.sum_cons]
    by_cases e : b = a
    · subst e
      have hrest : (accts.map fun x => ((Patch.set b ((m b).getD 0 + d) • m) x).getD 0) =
          accts.map fun x => (m x).getD 0 :=
        List.map_congr_left fun x hx => by
          have hne : x ≠ b := fun e => hb (e ▸ hx)
          rw [Patch.set_smul_other hne]
      rw [hrest, Patch.set_smul_same]
      show (m b).getD 0 + d + _ = _
      ring
    · rw [ih hnd ((List.mem_cons.mp ha).resolve_left fun e' => e e'.symm),
        Patch.set_smul_other e]
      ring

theorem ledgerAdd_total (hnd : accts.Nodup) {unit : ℤ} {v : Stores AccAddress ℤ} {amt : ℤ}
    {r : Patch AccAddress ℤ × List Event} (h : ledgerAdd accts unit v a amt = .ok r) :
    (ledgerBooks accts).total (Writes.ofBank r.1 • v) =
      (ledgerBooks accts).total v + amt * unit := by
  unfold ledgerAdd at h
  split at h
  · rename_i ha
    cases h
    rw [ledgerBooks_total, ledgerBooks_total]
    exact sum_map_set hnd ha v.bank (amt * unit)
  · cases h

theorem ledgerSub_total (hnd : accts.Nodup) {unit : ℤ} {v : Stores AccAddress ℤ} {amt : ℤ}
    {r : Patch AccAddress ℤ × List Event} (h : ledgerSub accts unit v a amt = .ok r) :
    (ledgerBooks accts).total (Writes.ofBank r.1 • v) =
      (ledgerBooks accts).total v - amt * unit := by
  unfold ledgerSub at h
  split at h
  · rw [ledgerAdd_total hnd h]
    ring
  · cases h

def ledgerTotal {accts : List AccAddress} (hnd : accts.Nodup) : BankTotal (ledgerBank accts) where
  toBooks := ledgerBooks accts
  addCoins := ledgerAdd_total hnd
  addWei h := (ledgerAdd_total hnd h).trans (by rw [mul_one])
  subUnlockedCoins := ledgerSub_total hnd
  subWei h := (ledgerSub_total hnd h).trans (by rw [mul_one])

theorem shown_ledger (accts : List AccAddress) (v : Stores AccAddress ℤ) (a : AccAddress) :
    shown (ledgerBank accts) v a = (v.bank a).getD 0 := by
  show ((v.bank a).getD 0 / atabiToWeiMultiplier - 0) * _ + (v.bank a).getD 0 % _ = _
  rw [sub_zero]
  exact Int.ediv_mul_add_emod ..

theorem ledgerAdd_shifts (accts : List AccAddress) (unit : ℤ) :
    Shifts (ledgerBank accts) (ledgerAdd accts unit) unit := by
  intro v a amt r h b
  unfold ledgerAdd at h
  split at h
  · cases h
    rw [shown_ledger, shown_ledger]
    show ((Patch.set a _ • v.bank) b).getD 0 = _
    by_cases e : b = a
    · subst e
      rw [Patch.set_smul_same, if_pos rfl, mul_comm]
      rfl
    · rw [Patch.set_smul_other e, if_neg e, add_zero]
  · cases h

theorem ledgerSub_shifts (accts : List AccAddress) (unit : ℤ) :
    Shifts (ledgerBank accts) (ledgerSub accts unit) (-unit) := by
  intro v a amt r h b
  unfold ledgerSub at h
  split at h
  · rw [ledgerAdd_shifts accts unit v a _ r h b, mul_neg, neg_mul]
  · cases h

theorem ledger_weiInRange (accts : List AccAddress) (v : Stores AccAddress ℤ) (a : AccAddress) :
    WeiInRange (ledgerBank accts) v a :=
  ⟨Int.emod_nonneg _ (by decide), Int.emod_lt_of_pos _ (by decide)⟩

theorem ledgerAccounts (accts : List AccAddress) : AccountLaws (ledgerBank accts) where
  addCoins := ledgerAdd_shifts accts _
  addWei := ledgerAdd_shifts accts 1
  subUnlockedCoins := ledgerSub_shifts accts _
  subWei := ledgerSub_shifts accts 1
  addWei_range _ := ledger_weiInRange accts _ _
  subWei_range _ := ledger_weiInRange accts _ _
  evm_irrelevant _ v a := by rw [shown_ledger, shown_ledger]; rfl

def ledgerKeepers (accts : List AccAddress) : Keepers AccAddress ℤ where
  bank := ledgerBank accts
  account := ⟨fun _ _ => true, fun _ _ => 1⟩
  keccak _ := emptyHash
  bech32 a := a
  hex a := a.bytes
  cachedFeeCollectorAddress := some (FixedBytes.zero 20)
  feeCollectorModuleAddress := []
  evmModuleAddress := []

def alice : Address := FixedBytes.ofBytes 20 [0xa1]
def bob : Address := FixedBytes.ofBytes 20 [0xb0]

def twoUsers : List AccAddress := [alice.bytes, bob.bytes, getCoinbaseAddress 0]

def aliceRich : Stores AccAddress ℤ where
  evm _ := none
  acc _ := none
  bank a := if a = alice.bytes then some 10000000000000 else none

end Tabi.StateDB
