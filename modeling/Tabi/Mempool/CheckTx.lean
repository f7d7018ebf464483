import Tabi.Ante.Deliver
import Tabi.Mempool.PendingNonces
import Tabi.StateDB.Bank
import Mathlib.Data.Finset.Card

/-!
# Mempool — the next nonce and the pending check

`CalculateNextNonce` looks for the first nonce of a sender that nothing in the mempool has, from the
nonce of the account on.
-/

namespace Tabi.Mempool

open Support StateDB Fallible

variable {β γ : Type}

def accountNonce (v : Stores β γ) (addr : Address) : UInt64 := UInt64.ofNat (getNonce v addr)

/-- The loop of `CalculateNextNonce`; `none` when the rounds do not suffice. -/
def nextGap (pending : List PendingTx) : Nat → UInt64 → Option UInt64
  | 0, _ => none
  | fuel + 1, nextNonce =>
    if (findNonce pending nextNonce).2 then nextGap pending fuel (nextNonce + 1)
    else some nextNonce

def calculateNextNonce (fuel : Nat) (v : Stores β γ) (x : Index) (addr : Address)
    (includePending : Bool) : Option UInt64 :=
  if includePending then nextGap (x.pending addr) fuel (accountNonce v addr)
  else some (accountNonce v addr)

inductive PendingTxCheckerResponse where
  | accepted
  | rejected
  | pending
  deriving DecidableEq

def hasSufficientBalance (k : Keepers β γ) (v : Stores β γ) (evmAddr : Address)
    (tx : Geth.Transaction) : Outcome Bool := do
  let senderTabiAddr := getTabiAddressOrDefault v evmAddr
  let balanceWei ← StateDB.getBalance k v senderTabiAddr
  return tx.cost ≤ balanceWei

/-- The function `WithPendingTxChecker` is given, at the latest context. -/
def pendingTxChecker (k : Keepers β γ) (fuel : Nat) (latest : Stores β γ) (x : Index)
    (evmAddr : Address) (ethTx : Geth.Transaction) : Option (Outcome PendingTxCheckerResponse) :=
  let nextNonceToBeMined := accountNonce latest evmAddr
  (calculateNextNonce fuel latest x evmAddr true).map fun nextPendingNonce =>
    if ethTx.nonce < nextNonceToBeMined then .ok .rejected
    else if ethTx.nonce < nextPendingNonce then do
      if ← hasSufficientBalance k latest evmAddr ethTx then return .accepted else return .pending
    else .ok .pending

structure Checked where
  txKey : TxKey
  evmAddr : Address
  ethTx : Geth.Transaction
  isPending : Bool

def sigVerifyCheckTx (env : Ante.Env β γ) (txKey : TxKey) (v : Stores β γ)
    (msg : Ante.MsgEVMTransaction) : Fallible Checked := do
  let ethTx ← ofOutcome (Ante.asTransaction msg)
  let derived ← ofOutcome (Ante.derivedOf msg)
  require (Ante.chainIDAccepted env ethTx) "invalid chain-id"
  let nextNonce := accountNonce v derived.senderEVMAddr
  require (¬ ethTx.nonce < nextNonce) "incorrect account sequence"
  return ⟨txKey, derived.senderEVMAddr, ethTx, nextNonce < ethTx.nonce⟩

namespace Checked

def checkTxCallback (c : Checked) (failed : Bool) (priority : Int64) (x : Index) : Index :=
  if failed then x else x.addPendingNonce c.txKey c.evmAddr c.ethTx.nonce priority

def expireTxHandler (c : Checked) (x : Index) : Index := x.removePendingNonce c.txKey

end Checked

inductive Handled : Index → Prop where
  | empty : Handled Index.empty
  | checked {x : Index} (c : Checked) (failed : Bool) (priority : Int64) (h : Handled x) :
      Handled (c.checkTxCallback failed priority x)
  | expired {x : Index} (c : Checked) (h : Handled x) : Handled (c.expireTxHandler x)

theorem Handled.exists_run {x : Index} (h : Handled x) : ∃ calls, x = Index.empty.run calls := by
  induction h with
  | empty => exact ⟨[], rfl⟩
  | checked c failed priority _ ih =>
    obtain ⟨calls, rfl⟩ := ih
    cases failed with
    | true => exact ⟨calls, rfl⟩
    | false =>
      refine ⟨calls ++ [.addPendingNonce c.txKey c.evmAddr c.ethTx.nonce priority], ?_⟩
      rw [Index.run_concat]
      rfl
  | expired c _ ih =>
    obtain ⟨calls, rfl⟩ := ih
    refine ⟨calls ++ [.removePendingNonce c.txKey], ?_⟩
    rw [Index.run_concat]
    rfl

section Search

variable {ps : List PendingTx} {fuel : Nat} {n r : UInt64}

theorem nextGap_sound (hs : Sorted ps) (h : nextGap ps fuel n = some r) :
    (¬ ∃ p ∈ ps, p.nonce = r) ∧ ∀ m, n ≤ m → m < r → ∃ p ∈ ps, p.nonce = m := by
  induction fuel generalizing n with
  | zero => cases h
  | succ fuel ih =>
    rw [nextGap] at h
    by_cases hfound : (findNonce ps n).2 = true
    · rw [if_pos hfound] at h
      obtain ⟨hgap, hbefore⟩ := ih h
      refine ⟨hgap, fun m hnm hmr => ?_⟩
      by_cases hmn : n = m
      · subst hmn
        exact (findNonce_found_iff hs).mp hfound
      · refine hbefore m ?_ hmr
        -- a word above `n` is at least `n + 1`, also where `n + 1` wraps to zero
        rw [UInt64.le_iff_toNat_le, UInt64.toNat_add] at *
        have hne : n.toNat ≠ m.toNat := fun e => hmn (UInt64.toNat_inj.mp e)
        have hm := m.toNat_lt
        change (n.toNat + 1) % 2 ^ 64 ≤ m.toNat
        omega
    · rw [if_neg hfound] at h
      obtain rfl := Option.some.inj h
      refine ⟨fun hp => hfound ((findNonce_found_iff hs).mpr hp), fun m hnm hmr => ?_⟩
      exact absurd hmr (UInt64.not_lt.mpr hnm)

theorem toNat_succ (h : n.toNat ≠ 2 ^ 64 - 1) : (n + 1).toNat = n.toNat + 1 := by
  have hlt := n.toNat_lt
  rw [UInt64.toNat_add]
  change (n.toNat + 1) % 2 ^ 64 = _
  omega

theorem nextGap_ge (hs : Sorted ps) (hmax : ∀ p ∈ ps, p.nonce.toNat ≠ 2 ^ 64 - 1)
    (h : nextGap ps fuel n = some r) : n ≤ r := by
  induction fuel generalizing n with
  | zero => cases h
  | succ fuel ih =>
    rw [nextGap] at h
    by_cases hfound : (findNonce ps n).2 = true
    · rw [if_pos hfound] at h
      obtain ⟨p, hp, rfl⟩ := (findNonce_found_iff hs).mp hfound
      have hsucc := toNat_succ (hmax p hp)
      have hle := UInt64.le_iff_toNat_le.mp (ih h)
      rw [UInt64.le_iff_toNat_le]
      omega
    · rw [if_neg hfound] at h
      rw [Option.some.inj h]
      exact UInt64.le_refl r

theorem pending_of_nextGap_none (hs : Sorted ps) (hmax : ∀ p ∈ ps, p.nonce.toNat ≠ 2 ^ 64 - 1)
    (h : nextGap ps fuel n = none) {i : Nat} (hi : i < fuel) :
    ∃ p ∈ ps, p.nonce.toNat = n.toNat + i := by
  induction fuel generalizing n i with
  | zero => exact absurd hi (Nat.not_lt_zero i)
  | succ fuel ih =>
    rw [nextGap] at h
    by_cases hfound : (findNonce ps n).2 = true
    · rw [if_pos hfound] at h
      obtain ⟨p, hp, rfl⟩ := (findNonce_found_iff hs).mp hfound
      cases i with
      | zero => exact ⟨p, hp, rfl⟩
      | succ i =>
        obtain ⟨q, hq, hqn⟩ := ih h (Nat.lt_of_succ_lt_succ hi)
        rw [toNat_succ (hmax p hp)] at hqn
        exact ⟨q, hq, by omega⟩
    · rw [if_neg hfound] at h
      cases h

theorem nextGap_returns (hs : Sorted ps) (hmax : ∀ p ∈ ps, p.nonce.toNat ≠ 2 ^ 64 - 1)
    (hfuel : ps.length < fuel) : ∃ r, nextGap ps fuel n = some r := by
  by_contra hnone
  have h : nextGap ps fuel n = none :=
    Option.eq_none_iff_forall_not_mem.mpr fun r hr => hnone ⟨r, hr⟩
  have hsub : (Finset.range fuel).image (n.toNat + ·) ⊆
      (ps.map fun p => p.nonce.toNat).toFinset := by
    intro m hm
    obtain ⟨i, hi, rfl⟩ := Finset.mem_image.mp hm
    obtain ⟨p, hp, hpn⟩ := pending_of_nextGap_none hs hmax h (Finset.mem_range.mp hi)
    exact List.mem_toFinset.mpr (List.mem_map.mpr ⟨p, hp, hpn⟩)
  have hcard := (Finset.card_le_card hsub).trans (List.toFinset_card_le _)
  rw [Finset.card_image_of_injective _ (add_right_injective n.toNat), Finset.card_range,
    List.length_map] at hcard
  omega

theorem nextGap_unique (hs : Sorted ps) (hmax : ∀ p ∈ ps, p.nonce.toNat ≠ 2 ^ 64 - 1) {fuel' : Nat}
    {r' : UInt64} (h : nextGap ps fuel n = some r) (h' : nextGap ps fuel' n = some r') :
    r = r' := by
  obtain ⟨hgap, hbefore⟩ := nextGap_sound hs h
  obtain ⟨hgap', hbefore'⟩ := nextGap_sound hs h'
  by_contra hne
  rcases UInt64.lt_or_lt_of_ne hne with hlt | hlt
  · exact hgap (hbefore' r (nextGap_ge hs hmax h) hlt)
  · exact hgap' (hbefore r' (nextGap_ge hs hmax h') hlt)

end Search

section Answers

variable {k : Keepers β γ} {fuel : Nat} {latest : Stores β γ} {x : Index} {a : Address}
  {tx : Geth.Transaction}

theorem accepted_cases (h : pendingTxChecker k fuel latest x a tx = some (.ok .accepted)) :
    ¬ tx.nonce < accountNonce latest a ∧
      (∃ next, calculateNextNonce fuel latest x a true = some next ∧ tx.nonce < next) ∧
      ∃ balance, StateDB.getBalance k latest (getTabiAddressOrDefault latest a) = .ok balance ∧
        tx.cost ≤ balance := by
  obtain ⟨next, hnext, h⟩ := Option.map_eq_some_iff.mp h
  split_ifs at h with hmined hpending
  · cases h
  · obtain ⟨covered, hcovered, h⟩ := bind_eq_ok.mp h
    cases covered with
    | false => cases h
    | true =>
      obtain ⟨balance, hbalance, hle⟩ := bind_eq_ok.mp hcovered
      exact ⟨hmined, ⟨next, hnext, hpending⟩, balance, hbalance,
        decide_eq_true_iff.mp (Except.ok.inj hle)⟩
  · cases h

theorem rejected_iff {answer : Outcome PendingTxCheckerResponse}
    (h : pendingTxChecker k fuel latest x a tx = some answer) :
    answer = .ok .rejected ↔ tx.nonce < accountNonce latest a := by
  obtain ⟨next, -, rfl⟩ := Option.map_eq_some_iff.mp h
  split_ifs with hmined hpending
  · exact iff_of_true rfl hmined
  · refine iff_of_false (fun he => ?_) hmined
    obtain ⟨covered, -, he⟩ := bind_eq_ok.mp he
    cases covered <;> cases he
  · refine iff_of_false (fun he => ?_) hmined
    cases he

/-- **The next nonce and the pending check**: for every index that calls can build, and every
sender without a pending nonce `2 ^ 64 - 1`, the search returns the least nonce from the account's
on that is not pending; the check returns, accepts only a transaction at a nonce that is not mined,
after nonces that are all pending, itself included, whose cost the balance covers, and rejects
exactly one at a nonce that is mined. -/
theorem nextNonce_and_checker (k : Keepers β γ) (latest : Stores β γ) (calls : List Call)
    (a : Address) (tx : Geth.Transaction)
    (hmax : ∀ p ∈ (Index.empty.run calls).pending a, p.nonce.toNat ≠ 2 ^ 64 - 1) :
    (∃ next, IsLeast {n | accountNonce latest a ≤ n ∧ ¬ (Index.empty.run calls).Occupied a n} next ∧
      ∀ fuel, ((Index.empty.run calls).pending a).length < fuel →
        calculateNextNonce fuel latest (Index.empty.run calls) a true = some next) ∧
    ∀ fuel, ((Index.empty.run calls).pending a).length < fuel →
      ∃ answer, pendingTxChecker k fuel latest (Index.empty.run calls) a tx = some answer ∧
        (answer = .ok .accepted → accountNonce latest a ≤ tx.nonce ∧
          (∀ n, accountNonce latest a ≤ n → n ≤ tx.nonce →
            (Index.empty.run calls).Occupied a n) ∧
          ∃ balance, StateDB.getBalance k latest (getTabiAddressOrDefault latest a) = .ok balance ∧
            tx.cost ≤ balance) ∧
        (answer = .ok .rejected ↔ tx.nonce < accountNonce latest a) := by
  have hs : Sorted ((Index.empty.run calls).pending a) := Index.valid_empty.run.sorted a
  generalize Index.empty.run calls = x at hmax hs ⊢
  constructor
  · obtain ⟨next, hnext⟩ := nextGap_returns hs hmax (Nat.lt_succ_self _)
      (n := accountNonce latest a)
    obtain ⟨hgap, hbefore⟩ := nextGap_sound hs hnext
    refine ⟨next, ⟨⟨nextGap_ge hs hmax hnext, hgap⟩, ?_⟩, fun fuel hfuel => ?_⟩
    · rintro n ⟨hn, hfree⟩
      by_contra hlt
      exact hfree (hbefore n hn (UInt64.not_le.mp hlt))
    · obtain ⟨next', hnext'⟩ := nextGap_returns hs hmax hfuel (n := accountNonce latest a)
      rw [calculateNextNonce, if_pos rfl, hnext', nextGap_unique hs hmax hnext hnext']
  · intro fuel hfuel
    obtain ⟨next, hnext⟩ := nextGap_returns hs hmax hfuel (n := accountNonce latest a)
    have hcalc : calculateNextNonce fuel latest x a true = some next := by
      rw [calculateNextNonce, if_pos rfl, hnext]
    obtain ⟨answer, hanswer⟩ : ∃ answer, pendingTxChecker k fuel latest x a tx = some answer := by
      rw [pendingTxChecker, hcalc]
      exact ⟨_, rfl⟩
    refine ⟨answer, hanswer, ?_, rejected_iff hanswer⟩
    rintro rfl
    obtain ⟨hmined, ⟨next', hnext', hlt⟩, hbalance⟩ := accepted_cases hanswer
    rw [hcalc] at hnext'
    obtain rfl := Option.some.inj hnext'
    obtain ⟨-, hbefore⟩ := nextGap_sound hs hnext
    refine ⟨UInt64.not_lt.mp hmined, fun n hn hle => hbefore n hn ?_, hbalance⟩
    exact UInt64.lt_of_le_of_lt hle hlt

def expiredCalls : List Call :=
  [.addPendingNonce (FixedBytes.ofBytes 32 [1]) (FixedBytes.zero 20) 0 5,
   .addPendingNonce (FixedBytes.ofBytes 32 [2]) (FixedBytes.zero 20) 2 7,
   .addPendingNonce (FixedBytes.ofBytes 32 [3]) (FixedBytes.zero 20) 1 7,
   .removePendingNonce (FixedBytes.ofBytes 32 [2])]

theorem nextNonce_and_checker_expired :
    (∀ p ∈ (Index.empty.run expiredCalls).pending (FixedBytes.zero 20),
      p.nonce.toNat ≠ 2 ^ 64 - 1) ∧
    ∃ answer, pendingTxChecker (ledgerKeepers []) 3 ⟨fun _ => none, fun _ => none, fun _ => none⟩
      (Index.empty.run expiredCalls) (FixedBytes.zero 20)
      (.legacyTx ⟨1, 0, 0, none, 0, [], 0, 0, 0⟩) = some answer :=
  have hmax : ∀ p ∈ (Index.empty.run expiredCalls).pending (FixedBytes.zero 20),
      p.nonce.toNat ≠ 2 ^ 64 - 1 := by decide
  have hfuel : ((Index.empty.run expiredCalls).pending (FixedBytes.zero 20)).length < 3 := by decide
  ⟨hmax, (nextNonce_and_checker (ledgerKeepers []) ⟨fun _ => none, fun _ => none, fun _ => none⟩
    expiredCalls (FixedBytes.zero 20) (.legacyTx ⟨1, 0, 0, none, 0, [], 0, 0, 0⟩) hmax).2 3
      hfuel |>.imp fun _ h => h.1⟩

end Answers

end Tabi.Mempool
