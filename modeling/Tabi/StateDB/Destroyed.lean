import Tabi.StateDB.Effects
import Tabi.StateDB.SelfDestruct
import Tabi.StateDB.Stores
import Tabi.Support.Tally
import Tabi.Support.Transfer

/-!
# StateDB — what `Finalize` destroys

`HasSelfDestructed` asks the newest layer that knows the account.
-/

namespace Tabi.StateDB

open Support

variable {β γ : Type}

namespace DBImpl

variable {k : Keepers β γ} {s s' : DBImpl β γ} {acc : Address} {amt : ℤ}

theorem addBalance_eq_subBalance (s : DBImpl β γ) (acc : Address) (amt : ℤ) :
    s.addBalance k acc amt = s.subBalance k acc (-amt) := by
  unfold addBalance subBalance
  rcases lt_trichotomy amt 0 with h | rfl | h
  · rw [if_neg h.ne, if_pos h, if_neg (by omega), if_neg (by omega)]
  · rfl
  · rw [if_neg h.ne', if_neg (by omega), if_neg (by omega), if_pos (by omega), neg_neg]

structure SameCoinbase (s s' : DBImpl β γ) : Prop where
  account : s'.coinbaseAddress = s.coinbaseAddress
  address : s'.coinbaseEvmAddress = s.coinbaseEvmAddress

theorem moveBalance_frame {coins wei : BankCall β γ} {book : ℤ → ℤ → Outcome ℤ}
    (h : s.moveBalance coins wei book acc amt = .ok s') (herr : s'.err = none) :
    s.err = none ∧ SameCoinbase s s' ∧ s'.view.evm = s.view.evm := by
  obtain ⟨_, r, r', z, -, -, -, -, rfl⟩ := moveBalance_ok h herr
  refine ⟨herr, ⟨rfl, rfl⟩, ?_⟩
  show ((s.commitBank r).commitBank r').view.evm = _
  rw [commitBank, view_commit, commitBank, view_commit]
  rfl

theorem subBalance_frame (h : s.subBalance k acc amt = .ok s') (herr : s'.err = none) :
    s.err = none ∧ SameCoinbase s s' ∧ s'.view.evm = s.view.evm := by
  unfold subBalance at h
  split_ifs at h
  · cases h
    exact ⟨herr, ⟨rfl, rfl⟩, rfl⟩
  · exact moveBalance_frame h herr
  · exact moveBalance_frame h herr

theorem SameCoinbase.trans {s₁ : DBImpl β γ} (h : SameCoinbase s s₁) (h' : SameCoinbase s₁ s') :
    SameCoinbase s s' := ⟨h'.account.trans h.account, h'.address.trans h.address⟩

theorem getTabiAddress_congr (hcoinbase : SameCoinbase s s')
    (hevm : ∀ a, s'.view.evm (evmAddressToTabiAddressKey a) =
      s.view.evm (evmAddressToTabiAddressKey a)) : s'.getTabiAddress = s.getTabiAddress := by
  funext a
  unfold getTabiAddress getTabiAddressOrDefault StateDB.getTabiAddress
  rw [hcoinbase.account, hcoinbase.address, hevm]

theorem getTabiAddress_coinbase (s : DBImpl β γ) :
    s.getTabiAddress s.coinbaseEvmAddress = s.coinbaseAddress := if_pos rfl

structure Settles (k : Keepers β γ) (drained cleared : List Address) (s s' : DBImpl β γ) :
    Prop where
  coinbase : SameCoinbase s s'
  evm : s'.view.evm = without s.view.evm fun key => cleared.any fun a => accountKey a key
  shown : shown k.bank s'.view =
    (drained.map s.getTabiAddress).foldl (drain s.coinbaseAddress) (shown k.bank s.view)

theorem accountKey_association (a b : Address) :
    accountKey a (evmAddressToTabiAddressKey b) = false := by
  simp [accountKey, evmAddressToTabiAddressKey, nonceKey, codeHashKey, codeSizeKey, codeKey,
    stateKey, List.isPrefixOf]

theorem Settles.backing {drained cleared : List Address} (h : Settles k drained cleared s s') :
    s'.getTabiAddress = s.getTabiAddress := by
  refine getTabiAddress_congr h.coinbase fun a => ?_
  rw [h.evm, without, if_neg]
  simp [accountKey_association]

theorem Settles.refl (s : DBImpl β γ) : Settles k [] [] s s :=
  ⟨⟨rfl, rfl⟩, rfl, rfl⟩

theorem Settles.trans {drained drained' cleared cleared' : List Address} {s₁ : DBImpl β γ}
    (h : Settles k drained cleared s s₁) (h' : Settles k drained' cleared' s₁ s') :
    Settles k (drained ++ drained') (cleared ++ cleared') s s' where
  coinbase := h.coinbase.trans h'.coinbase
  evm := by
    rw [h'.evm, h.evm, without_without]
    simp only [List.any_append]
  shown := by
    rw [h'.shown, h.shown, h.backing, h.coinbase.account, List.map_append, List.foldl_append]

def deletedOf (entries : List (Address × AccountStatus)) : List Address :=
  (entries.filter (·.2 = .deleted)).map Prod.fst

theorem deletedOf_cons (entry : Address × AccountStatus)
    (entries : List (Address × AccountStatus)) :
    deletedOf (entry :: entries) = deletedOf [entry] ++ deletedOf entries := by
  unfold deletedOf
  rw [← List.map_append, ← List.filter_append]
  rfl

theorem handleResidualFunds_settles (L : AccountLaws k.bank) {entry : Address × AccountStatus}
    (h : handleResidualFunds k entry s = .ok s') (herr : s'.err = none) :
    s.err = none ∧ Settles k (deletedOf [entry]) [] s s' := by
  unfold handleResidualFunds at h
  split_ifs at h with hkept
  · cases h
    have hnone : deletedOf [entry] = [] := by simp [deletedOf, hkept]
    rw [hnone]
    exact ⟨herr, .refl s⟩
  · have hone : deletedOf [entry] = [entry.1] := by simp [deletedOf, not_not.mp hkept]
    obtain ⟨residual, hresidual, h⟩ := bind_eq_ok.mp h
    have hshown := eq_shown_of_getBalance hresidual
    rw [hone]
    split_ifs at h with hzero
    · cases h
      refine ⟨herr, ⟨rfl, rfl⟩, rfl, ?_⟩
      show _ = drain _ _ _
      funext a
      rw [drain, ← hshown, hzero, ite_self, ite_self, sub_zero, add_zero]
    · obtain ⟨s₁, hsub, hadd⟩ := bind_eq_ok.mp h
      rw [addBalance_eq_subBalance] at hadd
      obtain ⟨herr₁, hcoinbase, hevm⟩ := subBalance_frame hadd herr
      obtain ⟨herr₀, hcoinbase₁, hevm₁⟩ := subBalance_frame hsub herr₁
      refine ⟨herr₀, hcoinbase₁.trans hcoinbase, hevm.trans hevm₁, ?_⟩
      show _ = drain _ _ _
      funext a
      rw [(subBalance_debits L hadd herr).1.shown, (subBalance_debits L hsub herr₁).1.shown,
        getTabiAddress_coinbase, hcoinbase₁.account, drain, ← hshown]
      split <;> split <;> ring

theorem clearIfDestructed_settles (L : AccountLaws k.bank) (entry : Address × AccountStatus)
    (s : DBImpl β γ) : Settles k [] (deletedOf [entry]) s (clearIfDestructed entry s) := by
  unfold clearIfDestructed
  split_ifs with hkept
  · have hnone : deletedOf [entry] = [] := by simp [deletedOf, hkept]
    rw [hnone]
    exact .refl s
  · have hone : deletedOf [entry] = [entry.1] := by simp [deletedOf, not_not.mp hkept]
    rw [hone]
    refine ⟨⟨rfl, rfl⟩, ?_, ?_⟩
    · rw [view_commit, clearAccountState_evm]
      simp
    · rw [view_commit]
      exact funext (L.evm_irrelevant _ _)

theorem clears_settle (L : AccountLaws k.bank) (entries : List (Address × AccountStatus))
    (s : DBImpl β γ) :
    (entries.foldl (fun s entry => clearIfDestructed entry s) s).err = s.err ∧
      Settles k [] (deletedOf entries) s
        (entries.foldl (fun s entry => clearIfDestructed entry s) s) := by
  induction entries generalizing s with
  | nil => exact ⟨rfl, .refl s⟩
  | cons entry entries ih =>
    obtain ⟨herr, hrest⟩ := ih (clearIfDestructed entry s)
    rw [deletedOf_cons]
    refine ⟨herr.trans ?_, (clearIfDestructed_settles L entry s).trans hrest⟩
    unfold clearIfDestructed
    split <;> rfl

theorem residuals_settle (L : AccountLaws k.bank) {entries : List (Address × AccountStatus)}
    (h : entries.foldlM (fun s entry => handleResidualFunds k entry s) s = .ok s')
    (herr : s'.err = none) : s.err = none ∧ Settles k (deletedOf entries) [] s s' := by
  induction entries generalizing s with
  | nil =>
    cases h
    exact ⟨herr, .refl _⟩
  | cons entry entries ih =>
    rw [List.foldlM_cons] at h
    obtain ⟨s₁, hentry, h⟩ := bind_eq_ok.mp h
    obtain ⟨herr₁, hrest⟩ := ih h
    obtain ⟨herr, hentry⟩ := handleResidualFunds_settles L hentry herr₁
    rw [deletedOf_cons]
    exact ⟨herr, hentry.trans hrest⟩

theorem settle_settles (L : AccountLaws k.bank) {residuals clears : List (Address × AccountStatus)}
    (h : settle k residuals clears s = .ok s') (herr : s'.err = none) :
    s.err = none ∧ Settles k (deletedOf residuals) (deletedOf clears) s s' := by
  obtain ⟨s₁, hresiduals, h⟩ := bind_eq_ok.mp h
  cases h
  obtain ⟨herr₁, hcleared⟩ := clears_settle L clears s₁
  obtain ⟨herr, hdrained⟩ := residuals_settle L hresiduals (herr₁.symm.trans herr)
  have hboth := hdrained.trans hcleared
  rw [List.append_nil, List.nil_append] at hboth
  exact ⟨herr, hboth⟩

theorem settlements_settles (L : AccountLaws k.bank)
    {ls : List (List (Address × AccountStatus) × List (Address × AccountStatus))}
    (h : ls.foldlM (fun s l => settle k l.1 l.2 s) s = .ok s') (herr : s'.err = none) :
    s.err = none ∧
      Settles k (ls.flatMap fun l => deletedOf l.1) (ls.flatMap fun l => deletedOf l.2) s s' := by
  induction ls generalizing s with
  | nil =>
    cases h
    exact ⟨herr, .refl s'⟩
  | cons l ls ih =>
    rw [List.foldlM_cons] at h
    obtain ⟨s₁, hl, h⟩ := bind_eq_ok.mp h
    obtain ⟨herr₁, hrest⟩ := ih h
    obtain ⟨herr, hl⟩ := settle_settles L hl herr₁
    rw [List.flatMap_cons, List.flatMap_cons]
    exact ⟨herr, hl.trans hrest⟩

def marked (s : DBImpl β γ) : List Address :=
  (s.tempStateCurrent :: s.tempStatesHist).flatMap fun ts => deletedOf ts.accounts

def destroyed (s : DBImpl β γ) : List Address := s.marked.filter s.hasSelfDestructed

theorem mem_deletedOf {ts : TemporaryState} {a : Address} :
    a ∈ deletedOf ts.accounts ↔ ts.transientAccounts.lookup a = some .deleted := by
  rw [← Option.mem_def, AList.mem_lookup_iff, deletedOf, List.mem_map]
  simp only [TemporaryState.accounts, List.mem_filter, List.mem_map, decide_eq_true_eq]
  constructor
  · rintro ⟨_, ⟨⟨e, he, rfl⟩, hstatus⟩, rfl⟩
    rw [← hstatus]
    exact he
  · intro h
    exact ⟨(a, .deleted), ⟨⟨_, h, rfl⟩, rfl⟩, rfl⟩

theorem mem_marked {a : Address} : a ∈ s.marked ↔
    ∃ ts ∈ s.tempStateCurrent :: s.tempStatesHist,
      ts.transientAccounts.lookup a = some .deleted := by
  rw [marked, List.mem_flatMap]
  simp only [mem_deletedOf]

theorem mem_destroyed {a : Address} : a ∈ s.destroyed ↔ s.hasSelfDestructed a = true := by
  rw [destroyed, List.mem_filter, and_iff_right_iff_imp, mem_marked]
  intro h
  have hstatus : newestFirst s.tempStateCurrent s.tempStatesHist
      (fun ts => ts.transientAccounts.lookup a) = some .deleted := of_decide_eq_true h
  obtain ⟨ts, hts, hdeleted⟩ := List.exists_of_findSome?_eq_some hstatus
  refine ⟨ts, ?_, hdeleted⟩
  rcases List.mem_cons.mp hts with rfl | hts
  · exact List.mem_cons_self
  · exact List.mem_cons_of_mem _ (List.mem_reverse.mp hts)

theorem mem_deletedOf_visit (order : MapOrder) (n : ℕ) (entries : List (Address × AccountStatus))
    (a : Address) : a ∈ deletedOf (order.visit n entries) ↔ a ∈ deletedOf entries :=
  (((order.perm n entries).filter _).map _).mem_iff

theorem mem_settlements (s : DBImpl β γ) (order : MapOrder) (a : Address) :
    (a ∈ (s.settlements order).flatMap (fun l => deletedOf l.1) ↔ a ∈ s.marked) ∧
      (a ∈ (s.settlements order).flatMap (fun l => deletedOf l.2) ↔ a ∈ s.marked) := by
  unfold settlements marked
  refine ⟨mem_flatMap_mapIdx ?_, mem_flatMap_mapIdx ?_⟩
  · exact fun i ts a => mem_deletedOf_visit order (2 * i) ts.accounts a
  · exact fun i ts a => mem_deletedOf_visit order (2 * i + 1) ts.accounts a

end DBImpl

@[ext] structure AccountState where
  storage : Hash → Hash
  code : Bytes
  codeSize : Nat
  codeHash : Option Bytes
  nonce : Nat

def AccountState.cleared : AccountState := ⟨fun _ => emptyHash, [], 0, none, 0⟩

def accountState (v : Stores β γ) (a : Address) : AccountState where
  storage := getState v a
  code := getCode v a
  codeSize := getCodeSize v a
  codeHash := v.evm (codeHashKey a)
  nonce := getNonce v a

theorem accountKey_storage (a : Address) (h : Hash) :
    accountKey a (stateKey a ++ h.bytes) = true := by
  simp [accountKey]

theorem accountKey_fields (a : Address) : accountKey a (codeKey a) = true ∧
    accountKey a (codeSizeKey a) = true ∧ accountKey a (codeHashKey a) = true ∧
      accountKey a (nonceKey a) = true := by
  simp [accountKey]

theorem accountKey_address {a : Address} {key : Bytes} (h : accountKey a key = true) :
    (key.drop 1).take 20 = a.bytes := by
  have hlength : (a.bytes).take 20 = a.bytes := List.take_of_length_le a.length_eq.le
  simp only [accountKey, Bool.or_eq_true, decide_eq_true_eq, List.isPrefixOf_iff_prefix] at h
  rcases h with rfl | rfl | rfl | rfl | ⟨rest, rfl⟩
  · exact hlength
  · exact hlength
  · exact hlength
  · exact hlength
  · exact List.take_left' a.length_eq

theorem accountKey_inj {a b : Address} {key : Bytes} (ha : accountKey a key = true)
    (hb : accountKey b key = true) : a = b :=
  FixedBytes.ext ((accountKey_address ha).symm.trans (accountKey_address hb))

theorem accountState_congr {v v' : Stores β γ} {a : Address}
    (h : ∀ key, accountKey a key = true → v'.evm key = v.evm key) :
    accountState v' a = accountState v a := by
  obtain ⟨hcode, hsize, hhash, hnonce⟩ := accountKey_fields a
  unfold accountState getState getCode getCodeSize getNonce
  rw [h _ hcode, h _ hsize, h _ hhash, h _ hnonce]
  simp only [h _ (accountKey_storage a _)]

theorem accountState_cleared {v : Stores β γ} {a : Address}
    (h : ∀ key, accountKey a key = true → v.evm key = none) :
    accountState v a = AccountState.cleared := by
  obtain ⟨hcode, hsize, hhash, hnonce⟩ := accountKey_fields a
  unfold accountState getState getCode getCodeSize getNonce
  rw [h _ hcode, h _ hsize, h _ hhash, h _ hnonce]
  simp only [h _ (accountKey_storage a _)]
  rfl

namespace DBImpl

variable {k : Keepers β γ} {s s' : DBImpl β γ}

def accountsBehind (s : DBImpl β γ) (addrs : List Address) : Finset AccAddress :=
  (addrs.map s.getTabiAddress).toFinset.erase s.coinbaseAddress

structure Destroys (k : Keepers β γ) (addrs : List Address) (s s' : DBImpl β γ) : Prop where
  state : ∀ a, accountState s'.originalStores a =
    if a ∈ addrs then AccountState.cleared else accountState s.view a
  balance : ∀ x, x ≠ s.coinbaseAddress → shown k.bank s'.originalStores x =
    if x ∈ s.accountsBehind addrs then 0 else shown k.bank s.view x
  coinbase : shown k.bank s'.originalStores s.coinbaseAddress =
    shown k.bank s.view s.coinbaseAddress + ∑ x ∈ s.accountsBehind addrs, shown k.bank s.view x

theorem finalize_settles (L : AccountLaws k.bank) {order : MapOrder} {surplus : ℤ}
    (h : s.finalize k order = .ok (s', .ok surplus)) (herr : s'.err = none) :
    Destroys k s.marked s s' := by
  obtain ⟨s₁, hsettled, herr₁, hstores, -⟩ := finalize_settled (finalize_err h) h
  obtain ⟨-, hsettles⟩ := settlements_settles L hsettled (herr₁.symm.trans herr)
  rw [← view_eq_abs] at hstores
  have hmarked := mem_settlements s order
  -- which accounts are drained does not depend on how often they are met
  have hbehind : ∀ x, x ∈ ((s.settlements order).flatMap fun l => deletedOf l.1).map
      s.getTabiAddress ↔ x ∈ s.marked.map s.getTabiAddress := by
    intro x
    simp only [List.mem_map, (hmarked _).1]
  refine ⟨fun a => ?_, fun x hx => ?_, ?_⟩
  · rw [hstores]
    split
    · rename_i ha
      refine accountState_cleared fun key hkey => ?_
      rw [hsettles.evm, without, if_pos]
      exact List.any_eq_true.mpr ⟨a, (hmarked a).2.mpr ha, hkey⟩
    · rename_i ha
      refine accountState_congr fun key hkey => ?_
      rw [hsettles.evm, without, if_neg]
      intro hany
      obtain ⟨b, hb, hkey'⟩ := List.any_eq_true.mp hany
      rw [accountKey_inj hkey' hkey] at hb
      exact ha ((hmarked a).2.mp hb)
  · rw [hstores, hsettles.shown, foldl_drain _ _ hx]
    simp only [hbehind, accountsBehind, Finset.mem_erase, List.mem_toFinset, ne_eq, hx,
      not_false_eq_true, true_and]
  · rw [hstores, hsettles.shown, foldl_drain_target]
    have hset : (((s.settlements order).flatMap fun l => deletedOf l.1).map
        s.getTabiAddress).toFinset = (s.marked.map s.getTabiAddress).toFinset :=
      Finset.ext fun x => by rw [List.mem_toFinset, List.mem_toFinset, hbehind]
    rw [hset, accountsBehind]

theorem mem_accountsBehind {addrs : List Address} {x : AccAddress} :
    x ∈ s.accountsBehind addrs ↔ x ≠ s.coinbaseAddress ∧ ∃ a ∈ addrs, s.getTabiAddress a = x := by
  rw [accountsBehind, Finset.mem_erase, List.mem_toFinset, List.mem_map]

theorem accountsBehind_subset {addrs addrs' : List Address} (h : addrs' ⊆ addrs) :
    s.accountsBehind addrs' ⊆ s.accountsBehind addrs := by
  intro x hx
  obtain ⟨hx, a, ha, rfl⟩ := mem_accountsBehind.mp hx
  exact mem_accountsBehind.mpr ⟨hx, a, h ha, rfl⟩

theorem Destroys.iff_of_subset {addrs addrs' : List Address} (h : Destroys k addrs s s')
    (hsub : addrs' ⊆ addrs) :
    Destroys k addrs' s s' ↔ ∀ a ∈ addrs, a ∉ addrs' →
      accountState s.view a = AccountState.cleared ∧
        (s.getTabiAddress a = s.coinbaseAddress ∨
          s.getTabiAddress a ∈ s.accountsBehind addrs' ∨
          shown k.bank s.view (s.getTabiAddress a) = 0) := by
  constructor
  · intro hexact a ha hnot
    constructor
    · have hstate := hexact.state a
      rw [h.state a, if_pos ha, if_neg hnot] at hstate
      exact hstate.symm
    · by_cases hcoinbase : s.getTabiAddress a = s.coinbaseAddress
      · exact .inl hcoinbase
      by_cases hbehind : s.getTabiAddress a ∈ s.accountsBehind addrs'
      · exact .inr (.inl hbehind)
      have hbalance := hexact.balance _ hcoinbase
      rw [h.balance _ hcoinbase, if_pos (mem_accountsBehind.mpr ⟨hcoinbase, a, ha, rfl⟩),
        if_neg hbehind] at hbalance
      exact .inr (.inr hbalance.symm)
  · intro hnothing
    -- an account behind one of the addresses is behind one of the fewer, or shows nothing
    have hempty : ∀ x ∈ s.accountsBehind addrs, x ∉ s.accountsBehind addrs' →
        shown k.bank s.view x = 0 := by
      intro x hx hnot
      obtain ⟨hx, a, ha, rfl⟩ := mem_accountsBehind.mp hx
      have hkept : a ∉ addrs' := fun ha' => hnot (mem_accountsBehind.mpr ⟨hx, a, ha', rfl⟩)
      exact ((hnothing a ha hkept).2.resolve_left hx).resolve_left hnot
    refine ⟨fun a => ?_, fun x hx => ?_, ?_⟩
    · rw [h.state a]
      by_cases ha' : a ∈ addrs'
      · rw [if_pos ha', if_pos (hsub ha')]
      · rw [if_neg ha']
        split
        · rename_i ha
          exact (hnothing a ha ha').1.symm
        · rfl
    · rw [h.balance x hx]
      by_cases hx' : x ∈ s.accountsBehind addrs'
      · rw [if_pos hx', if_pos (accountsBehind_subset hsub hx')]
      · rw [if_neg hx']
        split
        · rename_i hm
          exact (hempty x hm hx').symm
        · rfl
    · rw [h.coinbase, Finset.sum_subset (accountsBehind_subset hsub) hempty]

/-- **`Finalize` and destroyed accounts.**  It destroys the accounts for which `HasSelfDestructed`
is true, and no others, if and only if every address that is marked as deleted in an older layer,
but not destroyed, has no state to lose, and no balance: it is backed by the coinbase's account, or
by that of a destroyed address, or by one that shows nothing. -/
theorem finalize_destroys_iff (L : AccountLaws k.bank) {order : MapOrder} {surplus : ℤ}
    (h : s.finalize k order = .ok (s', .ok surplus)) (herr : s'.err = none) :
    (∀ a, a ∈ s.destroyed ↔ s.hasSelfDestructed a = true) ∧
      (Destroys k s.destroyed s s' ↔ ∀ a ∈ s.marked, s.hasSelfDestructed a = false →
        accountState s.view a = AccountState.cleared ∧
          (s.getTabiAddress a = s.coinbaseAddress ∨
            s.getTabiAddress a ∈ s.accountsBehind s.destroyed ∨
            shown k.bank s.view (s.getTabiAddress a) = 0)) := by
  have hkept : ∀ a, a ∉ s.destroyed ↔ s.hasSelfDestructed a = false := fun a => by
    rw [mem_destroyed, Bool.not_eq_true]
  have hsub : s.destroyed ⊆ s.marked := List.filter_subset_self _
  have hiff := (finalize_settles L h herr).iff_of_subset hsub
  simp only [hkept] at hiff
  exact ⟨fun a => mem_destroyed, hiff⟩

end DBImpl

def richDB : DBImpl AccAddress ℤ :=
  .newDBImpl (ledgerKeepers twoUsers) aliceRich ⟨1, []⟩ 0 false false

theorem finalize_destroys_alice : ∃ s s' surplus,
    DBImpl.run (ledgerKeepers twoUsers) [.selfDestruct alice, .snapshot, .addBalance alice 5]
        richDB = .ok s ∧
      s.finalize (ledgerKeepers twoUsers) entryOrder = .ok (s', .ok surplus) ∧
      s.hasSelfDestructed alice = true ∧
      DBImpl.Destroys (ledgerKeepers twoUsers) s.destroyed s s' := by
  obtain ⟨s, s', surplus, hrun, hfin, herr, hmarked, hd⟩ : ∃ s s' surplus,
      DBImpl.run (ledgerKeepers twoUsers) [.selfDestruct alice, .snapshot, .addBalance alice 5]
          richDB = .ok s ∧
        s.finalize (ledgerKeepers twoUsers) entryOrder = .ok (s', .ok surplus) ∧
        s'.err = none ∧ s.marked = [alice] ∧ s.hasSelfDestructed alice = true :=
    ⟨_, _, _, rfl, rfl, rfl, rfl, rfl⟩
  refine ⟨s, s', surplus, hrun, hfin, hd,
    (DBImpl.finalize_destroys_iff (ledgerAccounts twoUsers) hfin herr).2.mpr fun a ha hkept => ?_⟩
  rw [hmarked, List.mem_singleton] at ha
  rw [ha, hd] at hkept
  cases hkept

def recreation : List (Op AccAddress ℤ) :=
  [.selfDestruct alice, .snapshot, .createAccount alice, .setCode alice [1], .setNonce alice 1,
    .addBalance alice 5]

theorem finalize_destroys_recreated : ∃ s s' surplus,
    DBImpl.run (ledgerKeepers twoUsers) recreation richDB = .ok s ∧ s.err = none ∧
      s.finalize (ledgerKeepers twoUsers) entryOrder = .ok (s', .ok surplus) ∧ s'.err = none ∧
      s.hasSelfDestructed alice = false ∧
      (getCode s.view alice, getNonce s.view alice) = ([1], 1) ∧
      (getCode s'.originalStores alice, getNonce s'.originalStores alice) = ([], 0) ∧
      shown (ledgerBank twoUsers) s.view alice.bytes = 5 ∧
      shown (ledgerBank twoUsers) s'.originalStores alice.bytes = 0 ∧
      ¬ DBImpl.Destroys (ledgerKeepers twoUsers) s.destroyed s s' := by
  obtain ⟨s, s', surplus, hrun, herr, hfin, herr', hkept, hbefore, hafter, hheld, hlost⟩ :
      ∃ s s' surplus, DBImpl.run (ledgerKeepers twoUsers) recreation richDB = .ok s ∧
        s.err = none ∧
        s.finalize (ledgerKeepers twoUsers) entryOrder = .ok (s', .ok surplus) ∧ s'.err = none ∧
        s.hasSelfDestructed alice = false ∧
        (getCode s.view alice, getNonce s.view alice) = ([1], 1) ∧
        (getCode s'.originalStores alice, getNonce s'.originalStores alice) = ([], 0) ∧
        shown (ledgerBank twoUsers) s.view alice.bytes = 5 ∧
        shown (ledgerBank twoUsers) s'.originalStores alice.bytes = 0 :=
    ⟨_, _, _, rfl, rfl, rfl, rfl, rfl, rfl, rfl, rfl, rfl⟩
  refine ⟨s, s', surplus, hrun, herr, hfin, herr', hkept, hbefore, hafter, hheld, hlost,
    fun hexact => ?_⟩
  have hnot : alice ∉ s.destroyed := fun hd => by
    rw [DBImpl.mem_destroyed, hkept] at hd
    cases hd
  have hcode := congrArg AccountState.code (hexact.state alice)
  rw [if_neg hnot] at hcode
  cases (Prod.mk.inj hafter).1.symm.trans (hcode.trans (Prod.mk.inj hbefore).1)

end Tabi.StateDB
