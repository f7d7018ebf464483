import Tabi.StateDB.Destroyed
import Mathlib.Algebra.Order.BigOperators.Group.Finset

/-!
# StateDB — `Finalize` in any order

Go visits the entries of a map in no fixed order, and `Finalize` goes through the map of every layer
twice: it drains the destroyed accounts into the coinbase, and clears them.
-/

namespace Tabi.StateDB

open Support

variable {β γ : Type}

/-! ### A solvent bank -/

/-- What is assumed of the bank besides `AccountLaws`: no account has more locked than it holds, the
wei stay below one atabi, what is there can be withdrawn, and a deposit is accepted. -/
structure SolventLaws (bank : BankKeeper β γ) : Prop extends AccountLaws bank where
  unlocked : ∀ v a, bank.lockedCoins v a ≤ bank.getBalance v a
  weiInRange : ∀ v a, WeiInRange bank v a
  subUnlockedCoins_ok : ∀ v a {amt}, 0 ≤ amt →
    amt ≤ bank.getBalance v a - bank.lockedCoins v a → ∃ r, bank.subUnlockedCoins v a amt = .ok r
  subWei_ok : ∀ v a {amt}, 0 ≤ amt → amt ≤ shown bank v a → ∃ r, bank.subWei v a amt = .ok r
  addCoins_ok : ∀ v a {amt}, 0 ≤ amt → ∃ r, bank.addCoins v a amt = .ok r
  addWei_ok : ∀ v a {amt}, 0 ≤ amt → ∃ r, bank.addWei v a amt = .ok r

section Shown

variable {k : Keepers β γ} {v : Stores β γ} {a : AccAddress}

theorem SolventLaws.parts (L : SolventLaws k.bank) (v : Stores β γ) (a : AccAddress) :
    0 ≤ shown k.bank v a ∧
      (shown k.bank v a).tdiv atabiToWeiMultiplier =
        k.bank.getBalance v a - k.bank.lockedCoins v a ∧
      shown k.bank v a % atabiToWeiMultiplier = k.bank.getWeiBalance v a := by
  have hunlocked := L.unlocked v a
  obtain ⟨hwei, hlt⟩ := L.weiInRange v a
  have hM : atabiToWeiMultiplier = 1000000000000 := rfl
  have hnonneg : 0 ≤ shown k.bank v a := by
    unfold shown
    rw [hM]
    omega
  rw [Int.tdiv_eq_ediv_of_nonneg hnonneg]
  unfold shown
  rw [hM] at hlt ⊢
  omega

theorem fits_of_le {z y : ℤ} (hz : 0 ≤ z) (h : z ≤ y) (hy : SdkInt.Fits y) : SdkInt.Fits z := by
  unfold SdkInt.Fits at *
  omega

theorem SolventLaws.getBalance_ok (L : SolventLaws k.bank) (h : SdkInt.Fits (shown k.bank v a)) :
    StateDB.getBalance k v a = .ok (shown k.bank v a) := by
  obtain ⟨hnonneg, -, -⟩ := L.parts v a
  have hunlocked := L.unlocked v a
  obtain ⟨hwei, -⟩ := L.weiInRange v a
  have hcoins : SdkInt.Fits ((k.bank.getBalance v a - k.bank.lockedCoins v a) *
      atabiToWeiMultiplier) := by
    refine fits_of_le ?_ ?_ h
    · exact Int.mul_nonneg (by omega) (by decide)
    · unfold shown
      omega
  have hatabi : SdkInt.Fits (k.bank.getBalance v a - k.bank.lockedCoins v a) := by
    refine fits_of_le (by omega) ?_ hcoins
    have hM : atabiToWeiMultiplier = 1000000000000 := rfl
    rw [hM]
    omega
  rw [StateDB.getBalance, SdkInt.sub_eq_ok.mpr ⟨hatabi, rfl⟩, Outcome.ok_bind, SdkInt.mul,
    SdkInt.ofBig_eq_ok.mpr ⟨hcoins, rfl⟩, Outcome.ok_bind]
  exact SdkInt.add_eq_ok.mpr ⟨h, rfl⟩

end Shown

namespace DBImpl

variable {k : Keepers β γ} {s s' : DBImpl β γ} {acc : Address} {amt : ℤ}

/-! ### Draining one account -/

structure Booked (s s' : DBImpl β γ) (z : ℤ) : Prop where
  err : s'.err = s.err
  current : s'.tempStateCurrent = { s.tempStateCurrent with surplus := z }
  hist : s'.tempStatesHist = s.tempStatesHist
  ctxs : s'.snapshottedCtxs = s.snapshottedCtxs
  acc : s'.view.acc = s.view.acc

theorem Booked.refl (s : DBImpl β γ) : Booked s s s.tempStateCurrent.surplus :=
  ⟨rfl, rfl, rfl, rfl, rfl⟩

theorem Booked.trans {s₁ : DBImpl β γ} {z z' : ℤ} (h : Booked s s₁ z) (h' : Booked s₁ s' z') :
    Booked s s' z' where
  err := h'.err.trans h.err
  current := by rw [h'.current, h.current]
  hist := h'.hist.trans h.hist
  ctxs := h'.ctxs.trans h.ctxs
  acc := h'.acc.trans h.acc

theorem Booked.surplus {z : ℤ} (h : Booked s s' z) : s'.tempStateCurrent.surplus = z := by
  rw [h.current]

theorem moveBalance_eq {coins wei : BankCall β γ} (book : ℤ → ℤ → Outcome ℤ)
    {r r' : Patch β γ × List Event} (hamt : SdkInt.Fits amt)
    (hcoins : coins s.view (s.getTabiAddress acc) (amt.tdiv atabiToWeiMultiplier) = .ok r)
    (hwei : wei (Writes.ofBank r.1 • s.view) (s.getTabiAddress acc) (amt % atabiToWeiMultiplier) =
      .ok r') :
    ∃ f : ℤ → DBImpl β γ, s.moveBalance coins wei book acc amt =
      (book s.tempStateCurrent.surplus amt).map f ∧ ∀ z, Booked s (f z) z := by
  have hview : (s.commitBank r).view = Writes.ofBank r.1 • s.view := view_commit _
  refine ⟨((s.commitBank r).commitBank r').setSurplus, ?_, fun z => ⟨rfl, rfl, rfl, rfl, ?_⟩⟩
  · rw [moveBalance, splitAtabiWeiAmount_ok hamt, Outcome.ok_bind]
    dsimp only
    rw [hcoins]
    dsimp only
    rw [hview, hwei]
    dsimp only
    rw [SdkInt.ofBig_eq_ok.mpr ⟨hamt, rfl⟩]
    rfl
  · show ((s.commitBank r).commitBank r').view.acc = _
    rw [commitBank, view_commit, commitBank, view_commit]
    rfl

theorem subBalance_eq (L : SolventLaws k.bank) (hpos : 0 < amt)
    (hamt : amt = shown k.bank s.view (s.getTabiAddress acc)) (hfits : SdkInt.Fits amt) :
    ∃ f : ℤ → DBImpl β γ, s.subBalance k acc amt =
      (SdkInt.add s.tempStateCurrent.surplus amt).map f ∧ ∀ z, Booked s (f z) z := by
  obtain ⟨-, hatabi, hwei⟩ := L.parts s.view (s.getTabiAddress acc)
  rw [← hamt] at hatabi hwei
  have hunlocked := L.unlocked s.view (s.getTabiAddress acc)
  obtain ⟨hwei₀, -⟩ := L.weiInRange s.view (s.getTabiAddress acc)
  obtain ⟨r, hr⟩ := L.subUnlockedCoins_ok s.view (s.getTabiAddress acc)
    (show 0 ≤ amt.tdiv atabiToWeiMultiplier by omega) hatabi.le
  -- the wei are left
  have hleft : shown k.bank (Writes.ofBank r.1 • s.view) (s.getTabiAddress acc) =
      amt % atabiToWeiMultiplier := by
    rw [L.subUnlockedCoins _ _ _ _ hr, if_pos rfl, ← hamt, neg_mul]
    have hsplit := Int.mul_ediv_add_emod amt atabiToWeiMultiplier
    rw [← Int.tdiv_eq_ediv_of_nonneg hpos.le] at hsplit
    omega
  obtain ⟨r', hr'⟩ := L.subWei_ok (Writes.ofBank r.1 • s.view) (s.getTabiAddress acc)
    (show 0 ≤ amt % atabiToWeiMultiplier by omega) hleft.ge
  rw [subBalance, if_neg hpos.ne', if_neg hpos.not_gt]
  exact moveBalance_eq SdkInt.add hfits hr hr'

theorem addBalance_eq (L : SolventLaws k.bank) (s : DBImpl β γ) (acc : Address) (hpos : 0 < amt)
    (hfits : SdkInt.Fits amt) :
    ∃ f : ℤ → DBImpl β γ, s.addBalance k acc amt =
      (SdkInt.sub s.tempStateCurrent.surplus amt).map f ∧ ∀ z, Booked s (f z) z := by
  have hM : (0 : ℤ) < atabiToWeiMultiplier := by decide
  obtain ⟨r, hr⟩ := L.addCoins_ok s.view (s.getTabiAddress acc)
    (Int.tdiv_nonneg hpos.le hM.le)
  obtain ⟨r', hr'⟩ := L.addWei_ok (Writes.ofBank r.1 • s.view) (s.getTabiAddress acc)
    (Int.emod_nonneg amt hM.ne')
  rw [addBalance, if_neg hpos.ne', if_neg hpos.not_gt]
  exact moveBalance_eq SdkInt.sub hfits hr hr'

theorem drainAccount_eq (L : SolventLaws k.bank) (hpos : 0 < amt)
    (hamt : amt = shown k.bank s.view (s.getTabiAddress acc)) (hfits : SdkInt.Fits amt) :
    (∀ {s'}, (s.subBalance k acc amt >>= fun s => s.addBalance k s.coinbaseEvmAddress amt) =
      .ok s' → Booked s s' s.tempStateCurrent.surplus) ∧
    (SdkInt.Fits s.tempStateCurrent.surplus → SdkInt.Fits (s.tempStateCurrent.surplus + amt) →
      ∃ s', (s.subBalance k acc amt >>= fun s => s.addBalance k s.coinbaseEvmAddress amt) =
        .ok s') := by
  obtain ⟨f, hf, hdebit⟩ := subBalance_eq L hpos hamt hfits
  have hback : ∀ z, z = s.tempStateCurrent.surplus + amt →
      (f z).tempStateCurrent.surplus - amt = s.tempStateCurrent.surplus := by
    rintro z rfl
    rw [(hdebit _).surplus, add_sub_cancel_right]
  rw [hf]
  constructor
  · intro s' h
    obtain ⟨s₁, h₁, h⟩ := bind_eq_ok.mp h
    obtain ⟨z, hz, rfl⟩ := map_eq_ok.mp h₁
    obtain ⟨f', hf', hcredit⟩ := addBalance_eq L (f z) (f z).coinbaseEvmAddress hpos hfits
    rw [hf'] at h
    obtain ⟨z', hz', rfl⟩ := map_eq_ok.mp h
    have hsame := (SdkInt.sub_eq_ok.mp hz').2.trans (hback z (SdkInt.add_eq_ok.mp hz).2)
    rw [← hsame]
    exact (hdebit z).trans (hcredit z')
  · intro hsurplus hboth
    obtain ⟨f', hf', -⟩ := addBalance_eq L (f (s.tempStateCurrent.surplus + amt))
      (f (s.tempStateCurrent.surplus + amt)).coinbaseEvmAddress hpos hfits
    have hsub : SdkInt.sub (f (s.tempStateCurrent.surplus + amt)).tempStateCurrent.surplus amt =
        .ok s.tempStateCurrent.surplus := by
      rw [SdkInt.sub_eq_ok, hback _ rfl]
      exact ⟨hsurplus, rfl⟩
    refine ⟨f' s.tempStateCurrent.surplus, ?_⟩
    rw [SdkInt.add_eq_ok.mpr ⟨hboth, rfl⟩]
    refine Eq.trans hf' ?_
    rw [hsub]
    rfl

theorem fits_of_getBalance {v : Stores β γ} {a : AccAddress} {b : ℤ}
    (h : StateDB.getBalance k v a = .ok b) : SdkInt.Fits b := by
  obtain ⟨atabi, -, h⟩ := bind_eq_ok.mp h
  obtain ⟨coins, -, h⟩ := bind_eq_ok.mp h
  obtain ⟨hfits, rfl⟩ := SdkInt.add_eq_ok.mp h
  exact hfits

theorem handleResidualFunds_booked (L : SolventLaws k.bank) {entry : Address × AccountStatus}
    (h : handleResidualFunds k entry s = .ok s') : Booked s s' s.tempStateCurrent.surplus := by
  unfold handleResidualFunds at h
  split_ifs at h
  · cases h
    exact .refl s
  · obtain ⟨residual, hresidual, h⟩ := bind_eq_ok.mp h
    have hshown := eq_shown_of_getBalance hresidual
    split_ifs at h with hzero
    · cases h
      exact .refl s
    · have hpos : 0 < residual := by
        rw [hshown] at hzero ⊢
        exact lt_of_le_of_ne (L.parts s.view _).1 (Ne.symm hzero)
      exact (drainAccount_eq L hpos hshown (fits_of_getBalance hresidual)).1 h

theorem handleResidualFunds_returns (L : SolventLaws k.bank) {entry : Address × AccountStatus}
    (hfits : SdkInt.Fits (shown k.bank s.view (s.getTabiAddress entry.1)))
    (hsurplus : SdkInt.Fits s.tempStateCurrent.surplus)
    (hboth : SdkInt.Fits
      (s.tempStateCurrent.surplus + shown k.bank s.view (s.getTabiAddress entry.1))) :
    ∃ s', handleResidualFunds k entry s = .ok s' := by
  unfold handleResidualFunds
  split_ifs
  · exact ⟨s, rfl⟩
  · have hbalance : s.getBalance k entry.1 = .ok (shown k.bank s.view (s.getTabiAddress entry.1)) :=
      L.getBalance_ok hfits
    rw [hbalance, Outcome.ok_bind]
    split_ifs with hzero
    · exact ⟨s, rfl⟩
    · have hpos : 0 < shown k.bank s.view (s.getTabiAddress entry.1) :=
        lt_of_le_of_ne (L.parts s.view _).1 (Ne.symm hzero)
      exact (drainAccount_eq L hpos rfl hfits).2 hsurplus hboth

/-! ### Draining all of them -/

theorem residuals_booked (L : SolventLaws k.bank) {entries : List (Address × AccountStatus)}
    (h : entries.foldlM (fun s entry => handleResidualFunds k entry s) s = .ok s') :
    Booked s s' s.tempStateCurrent.surplus := by
  refine Outcome.foldlM_invariant (I := fun s' => Booked s s' s.tempStateCurrent.surplus)
    (fun s₁ entry s₂ _ hI h => ?_) (.refl s) h
  have hstep := handleResidualFunds_booked L h
  rw [hI.surplus] at hstep
  exact hI.trans hstep

theorem clears_booked (entries : List (Address × AccountStatus)) (s : DBImpl β γ) :
    Booked s (entries.foldl (fun s entry => clearIfDestructed entry s) s)
      s.tempStateCurrent.surplus := by
  refine List.foldlRecOn (motive := fun s' => Booked s s' s.tempStateCurrent.surplus) entries _
    (.refl s) fun s₁ hI entry _ => hI.trans ?_
  unfold clearIfDestructed
  split
  · have hrefl := Booked.refl s₁
    rwa [hI.surplus] at hrefl
  · refine ⟨rfl, ?_, rfl, rfl, ?_⟩
    · rw [← hI.surplus]
      rfl
    · rw [view_commit]
      exact one_smul _ s₁.view.acc

theorem settle_booked (L : SolventLaws k.bank) {residuals clears : List (Address × AccountStatus)}
    (h : settle k residuals clears s = .ok s') : Booked s s' s.tempStateCurrent.surplus := by
  obtain ⟨s₁, h₁, h⟩ := bind_eq_ok.mp h
  cases h
  have hdrained := residuals_booked L h₁
  have hcleared := clears_booked clears s₁
  rw [hdrained.surplus] at hcleared
  exact hdrained.trans hcleared

theorem settlements_booked (L : SolventLaws k.bank)
    {ls : List (List (Address × AccountStatus) × List (Address × AccountStatus))}
    (h : ls.foldlM (fun s l => settle k l.1 l.2 s) s = .ok s') :
    Booked s s' s.tempStateCurrent.surplus := by
  refine Outcome.foldlM_invariant (I := fun s' => Booked s s' s.tempStateCurrent.surplus)
    (fun s₁ l s₂ _ hI h => ?_) (.refl s) h
  have hstep := settle_booked L h
  rw [hI.surplus] at hstep
  exact hI.trans hstep

/-! ### Room -/

structure Room (k : Keepers β γ) (S : Finset AccAddress) (s : DBImpl β γ) : Prop where
  coinbase : s.coinbaseAddress ∈ S
  total : SdkInt.Fits (∑ x ∈ S, shown k.bank s.view x)
  surplus : SdkInt.Fits s.tempStateCurrent.surplus
  both : SdkInt.Fits (s.tempStateCurrent.surplus + ∑ x ∈ S, shown k.bank s.view x)

variable {S : Finset AccAddress}

theorem Room.account (h : Room k S s) (L : SolventLaws k.bank) {x : AccAddress} (hx : x ∈ S) :
    SdkInt.Fits (shown k.bank s.view x) ∧
      SdkInt.Fits (s.tempStateCurrent.surplus + shown k.bank s.view x) := by
  have hnonneg : ∀ y, 0 ≤ shown k.bank s.view y := fun y => (L.parts s.view y).1
  have hle : shown k.bank s.view x ≤ ∑ y ∈ S, shown k.bank s.view y :=
    Finset.single_le_sum (fun y _ => hnonneg y) hx
  have htotal := h.total
  have hsurplus := h.surplus
  have hboth := h.both
  have hx₀ := hnonneg x
  unfold SdkInt.Fits at *
  omega

theorem Room.settles (h : Room k S s) {drained cleared : List Address}
    (hsettles : Settles k drained cleared s s') (hbooked : Booked s s' s.tempStateCurrent.surplus)
    (hdrained : ∀ a ∈ drained, s.getTabiAddress a ∈ S) : Room k S s' := by
  have hsum : ∀ (l : List AccAddress) (f : AccAddress → ℤ), (∀ x ∈ l, x ∈ S) →
      ∑ x ∈ S, l.foldl (drain s.coinbaseAddress) f x = ∑ x ∈ S, f x := by
    intro l
    induction l with
    | nil => exact fun f _ => rfl
    | cons a l ih =>
      intro f hl
      obtain ⟨ha, hl⟩ := List.forall_mem_cons.mp hl
      rw [List.foldl_cons, ih _ hl, sum_drain ha h.coinbase]
  have hsame : ∑ x ∈ S, shown k.bank s'.view x = ∑ x ∈ S, shown k.bank s.view x := by
    rw [hsettles.shown]
    refine hsum _ _ fun x hx => ?_
    obtain ⟨a, ha, rfl⟩ := List.mem_map.mp hx
    exact hdrained a ha
  refine ⟨?_, ?_, ?_, ?_⟩
  · rw [hsettles.coinbase.account]
    exact h.coinbase
  · rw [hsame]
    exact h.total
  · rw [hbooked.surplus]
    exact h.surplus
  · rw [hsame, hbooked.surplus]
    exact h.both

theorem residuals_return (L : SolventLaws k.bank) {entries : List (Address × AccountStatus)}
    (herr : s.err = none) (hroom : Room k S s)
    (hentries : ∀ a ∈ deletedOf entries, s.getTabiAddress a ∈ S) :
    ∃ s', entries.foldlM (fun s entry => handleResidualFunds k entry s) s = .ok s' := by
  induction entries generalizing s with
  | nil => exact ⟨s, rfl⟩
  | cons entry entries ih =>
    rw [deletedOf_cons] at hentries
    obtain ⟨s₁, h₁⟩ : ∃ s₁, handleResidualFunds k entry s = .ok s₁ := by
      by_cases hkept : entry.2 = .deleted
      · have hmem : s.getTabiAddress entry.1 ∈ S := hentries _ (by simp [deletedOf, hkept])
        obtain ⟨hfits, hboth⟩ := hroom.account L hmem
        exact handleResidualFunds_returns L hfits hroom.surplus hboth
      · exact ⟨s, if_pos hkept⟩
    have hbooked := handleResidualFunds_booked L h₁
    have herr₁ : s₁.err = none := hbooked.err.trans herr
    obtain ⟨-, hsettles⟩ := handleResidualFunds_settles L.toAccountLaws h₁ herr₁
    have hroom₁ := hroom.settles hsettles hbooked fun a ha =>
      hentries a (List.mem_append_left _ ha)
    obtain ⟨s', hrest⟩ := ih herr₁ hroom₁ fun a ha => by
      rw [hsettles.backing]
      exact hentries a (List.mem_append_right _ ha)
    refine ⟨s', ?_⟩
    rw [List.foldlM_cons, h₁]
    exact hrest

theorem settlements_return (L : SolventLaws k.bank)
    (ls : List (List (Address × AccountStatus) × List (Address × AccountStatus)))
    (herr : s.err = none) (hroom : Room k S s)
    (hls : ∀ a ∈ ls.flatMap fun l => deletedOf l.1, s.getTabiAddress a ∈ S) :
    ∃ s', ls.foldlM (fun s l => settle k l.1 l.2 s) s = .ok s' := by
  induction ls generalizing s with
  | nil => exact ⟨s, rfl⟩
  | cons l ls ih =>
    rw [List.flatMap_cons] at hls
    obtain ⟨s₁, h₁⟩ : ∃ s₁, settle k l.1 l.2 s = .ok s₁ := by
      obtain ⟨t, ht⟩ := residuals_return L herr hroom fun a ha =>
        hls a (List.mem_append_left _ ha)
      refine ⟨l.2.foldl (fun s entry => clearIfDestructed entry s) t, ?_⟩
      rw [settle, ht]
      rfl
    have hbooked := settle_booked L h₁
    have herr₁ : s₁.err = none := hbooked.err.trans herr
    obtain ⟨-, hsettles⟩ := settle_settles L.toAccountLaws h₁ herr₁
    have hroom₁ := hroom.settles hsettles hbooked fun a ha =>
      hls a (List.mem_append_left _ ha)
    obtain ⟨s', hrest⟩ := ih herr₁ hroom₁ fun a ha => by
      rw [hsettles.backing]
      exact hls a (List.mem_append_right _ ha)
    refine ⟨s', ?_⟩
    rw [List.foldlM_cons, h₁]
    exact hrest

end DBImpl

/-! ### In any order -/

structure SameContents (bank : BankKeeper β γ) (v v' : Stores β γ) : Prop where
  evm : v.evm = v'.evm
  acc : v.acc = v'.acc
  atabi : ∀ a, bank.getBalance v a - bank.lockedCoins v a =
    bank.getBalance v' a - bank.lockedCoins v' a
  wei : ∀ a, bank.getWeiBalance v a = bank.getWeiBalance v' a

namespace DBImpl

variable {k : Keepers β γ} {s s' : DBImpl β γ}

/-- Two calls of `Finalize` end alike: with the same panic, or with the same surplus or error and
the same contents. -/
def SameEnd (k : Keepers β γ) :
    Outcome (DBImpl β γ × Except String ℤ) → Outcome (DBImpl β γ × Except String ℤ) → Prop
  | .ok (s₁, r₁), .ok (s₂, r₂) =>
    r₁ = r₂ ∧ SameContents k.bank s₁.originalStores s₂.originalStores
  | .error p₁, .error p₂ => p₁ = p₂
  | _, _ => False

def involved (s : DBImpl β γ) : Finset AccAddress :=
  insert s.coinbaseAddress (s.marked.map s.getTabiAddress).toFinset

variable {s₁ s₂ : DBImpl β γ}

theorem sameContents_of_settles (L : SolventLaws k.bank)
    {drained drained' cleared cleared' : List Address} (h₁ : Settles k drained cleared s s₁)
    (h₂ : Settles k drained' cleared' s s₂) (hacc : s₁.view.acc = s₂.view.acc)
    (hdrained : ∀ a, a ∈ drained ↔ a ∈ drained') (hcleared : ∀ a, a ∈ cleared ↔ a ∈ cleared') :
    SameContents k.bank s₁.view s₂.view := by
  have hmem : ∀ x, x ∈ drained.map s.getTabiAddress ↔ x ∈ drained'.map s.getTabiAddress := by
    intro x
    simp only [List.mem_map, hdrained]
  have hshown : ∀ x, shown k.bank s₁.view x = shown k.bank s₂.view x := by
    intro x
    rw [h₁.shown, h₂.shown]
    by_cases hx : x = s.coinbaseAddress
    · have hset : (drained.map s.getTabiAddress).toFinset =
          (drained'.map s.getTabiAddress).toFinset :=
        Finset.ext fun y => by rw [List.mem_toFinset, List.mem_toFinset, hmem]
      rw [hx, foldl_drain_target, foldl_drain_target, hset]
    · rw [foldl_drain _ _ hx, foldl_drain _ _ hx]
      by_cases hd : x ∈ drained.map s.getTabiAddress
      · rw [if_pos hd, if_pos ((hmem x).mp hd)]
      · rw [if_neg hd, if_neg fun hd' => hd ((hmem x).mpr hd')]
  have hany : ∀ key, (cleared.any fun a => accountKey a key) =
      cleared'.any fun a => accountKey a key := by
    intro key
    rw [Bool.eq_iff_iff, List.any_eq_true, List.any_eq_true]
    simp only [hcleared]
  refine ⟨?_, hacc, fun a => ?_, fun a => ?_⟩
  · rw [h₁.evm, h₂.evm]
    simp only [hany]
  · rw [← (L.parts s₁.view a).2.1, ← (L.parts s₂.view a).2.1, hshown]
  · rw [← (L.parts s₁.view a).2.2, ← (L.parts s₂.view a).2.2, hshown]

def conclude (s : DBImpl β γ) : Outcome (DBImpl β γ × Except String ℤ) := do
  let s ← s.flushCtxs.flushEvents
  let surplus ← sumSurplus s.tempStateCurrent s.tempStatesHist
  return (s, .ok surplus)

theorem conclude_sameEnd {z : ℤ} (h₁ : Booked s s₁ z) (h₂ : Booked s s₂ z)
    (hcontents : SameContents k.bank s₁.view s₂.view) : SameEnd k s₁.conclude s₂.conclude := by
  by_cases hne : s.snapshottedCtxs = []
  · have hpanic : ∀ s' : DBImpl β γ, s'.snapshottedCtxs = [] →
        s'.conclude = .error .indexOutOfRange := by
      intro s' hs'
      obtain ⟨root, ctx, ctxs, ts, hist, err, ca, ce, sim, sup, tr, al⟩ := s'
      cases hs'
      rfl
    rw [hpanic s₁ (h₁.ctxs.trans hne), hpanic s₂ (h₂.ctxs.trans hne)]
    rfl
  · obtain ⟨t₁, ht₁, hstores₁, -, -, hcur₁, hhist₁⟩ :=
      flush_eq_ok (s := s₁) (by rw [h₁.ctxs]; exact hne)
    obtain ⟨t₂, ht₂, hstores₂, -, -, hcur₂, hhist₂⟩ :=
      flush_eq_ok (s := s₂) (by rw [h₂.ctxs]; exact hne)
    rw [conclude, conclude, ht₁, ht₂, Outcome.ok_bind, Outcome.ok_bind, hcur₁, hhist₁, hcur₂,
      hhist₂, h₁.current, h₁.hist, h₂.current, h₂.hist]
    cases sumSurplus { s.tempStateCurrent with surplus := z } s.tempStatesHist with
    | error p => rfl
    | ok surplus =>
      refine ⟨rfl, ?_⟩
      rw [hstores₁, hstores₂, ← view_eq_abs, ← view_eq_abs]
      exact hcontents

theorem finalize_eq_conclude (hsim : ¬ s.simulation = true) (herr : s.err = none) {order : MapOrder}
    (h : (s.settlements order).foldlM (fun s l => settle k l.1 l.2 s) s = .ok s₁) :
    s.finalize k order = s₁.conclude := by
  rw [finalize, if_neg hsim, herr]
  dsimp only
  rw [h]
  rfl

theorem settled_sameEnd (L : SolventLaws k.bank) (herr : s.err = none) {order order' : MapOrder}
    (h₁ : (s.settlements order).foldlM (fun s l => settle k l.1 l.2 s) s = .ok s₁)
    (h₂ : (s.settlements order').foldlM (fun s l => settle k l.1 l.2 s) s = .ok s₂) :
    SameEnd k s₁.conclude s₂.conclude := by
  have hbooked₁ := settlements_booked L h₁
  have hbooked₂ := settlements_booked L h₂
  obtain ⟨-, hsettles₁⟩ := settlements_settles L.toAccountLaws h₁ (hbooked₁.err.trans herr)
  obtain ⟨-, hsettles₂⟩ := settlements_settles L.toAccountLaws h₂ (hbooked₂.err.trans herr)
  refine conclude_sameEnd hbooked₁ hbooked₂ (sameContents_of_settles L hsettles₁ hsettles₂
    (hbooked₁.acc.trans hbooked₂.acc.symm) (fun a => ?_) fun a => ?_)
  · rw [(mem_settlements s order a).1, (mem_settlements s order' a).1]
  · rw [(mem_settlements s order a).2, (mem_settlements s order' a).2]

end DBImpl

/-! ### A vault

A bank that holds a number of wei for each account. -/

def vaultAdd (unit : ℤ) : BankCall AccAddress ℕ := fun v a amt =>
  if 0 ≤ amt then .ok (Patch.set a ((v.bank a).getD 0 + (amt * unit).toNat), [])
  else .error "invalid coins"

def vaultSub (unit : ℤ) : BankCall AccAddress ℕ := fun v a amt =>
  if 0 ≤ amt ∧ amt * unit ≤ (v.bank a).getD 0 then
    .ok (Patch.set a ((v.bank a).getD 0 - (amt * unit).toNat), [])
  else .error "insufficient funds"

def vaultBank : BankKeeper AccAddress ℕ where
  addCoins := vaultAdd atabiToWeiMultiplier
  addWei := vaultAdd 1
  subUnlockedCoins := vaultSub atabiToWeiMultiplier
  subWei := vaultSub 1
  sendCoinsAndWei _ _ _ _ _ := .error "transfers are disabled"
  mintCoins _ _ := .error "minting is disabled"
  getBalance v a := ((v.bank a).getD 0 : ℤ) / atabiToWeiMultiplier
  lockedCoins _ _ := 0
  getWeiBalance v a := ((v.bank a).getD 0 : ℤ) % atabiToWeiMultiplier

theorem shown_vault (v : Stores AccAddress ℕ) (a : AccAddress) :
    shown vaultBank v a = ((v.bank a).getD 0 : ℤ) := by
  show (((v.bank a).getD 0 : ℤ) / atabiToWeiMultiplier - 0) * _ + ((v.bank a).getD 0 : ℤ) % _ = _
  rw [sub_zero]
  exact Int.ediv_mul_add_emod ..

theorem vault_set {a b : AccAddress} (v : Stores AccAddress ℕ) (n : ℕ) :
    shown vaultBank (Writes.ofBank (Patch.set a n) • v) b =
      if b = a then (n : ℤ) else shown vaultBank v b := by
  rw [shown_vault, shown_vault]
  show (((Patch.set a n • v.bank) b).getD 0 : ℤ) = _
  rw [Patch.set_smul]
  split <;> rfl

theorem vaultAdd_shifts {unit : ℤ} (hunit : 0 ≤ unit) : Shifts vaultBank (vaultAdd unit) unit := by
  intro v a amt r h b
  unfold vaultAdd at h
  split at h
  · rename_i hamt
    cases h
    have hnonneg : 0 ≤ amt * unit := Int.mul_nonneg hamt hunit
    rw [vault_set]
    split
    · rename_i e
      rw [e, shown_vault, mul_comm unit]
      omega
    · rw [add_zero]
  · cases h

theorem vaultSub_shifts {unit : ℤ} (hunit : 0 ≤ unit) :
    Shifts vaultBank (vaultSub unit) (-unit) := by
  intro v a amt r h b
  unfold vaultSub at h
  split at h
  · rename_i hamt
    obtain ⟨hamt, hle⟩ := hamt
    cases h
    have hnonneg : 0 ≤ amt * unit := Int.mul_nonneg hamt hunit
    rw [vault_set]
    split
    · rename_i e
      rw [e, shown_vault, neg_mul, mul_comm unit]
      omega
    · rw [add_zero]
  · cases h

theorem vault_weiInRange (v : Stores AccAddress ℕ) (a : AccAddress) : WeiInRange vaultBank v a :=
  ⟨Int.emod_nonneg _ (by decide), Int.emod_lt_of_pos _ (by decide)⟩

theorem vaultLaws : SolventLaws vaultBank where
  addCoins := vaultAdd_shifts (by decide)
  addWei := vaultAdd_shifts (by decide)
  subUnlockedCoins := vaultSub_shifts (by decide)
  subWei := vaultSub_shifts (by decide)
  addWei_range _ := vault_weiInRange _ _
  subWei_range _ := vault_weiInRange _ _
  evm_irrelevant _ v a := by rw [shown_vault, shown_vault]; rfl
  unlocked v a := Int.ediv_nonneg (Int.natCast_nonneg _) (by decide)
  weiInRange := vault_weiInRange
  subUnlockedCoins_ok v a {amt} hamt hle := by
    have hM : (0 : ℤ) < atabiToWeiMultiplier := by decide
    have hfits : amt * atabiToWeiMultiplier ≤ ((v.bank a).getD 0 : ℤ) :=
      (Int.le_ediv_iff_mul_le hM).mp (hle.trans (sub_zero _).le)
    exact ⟨_, if_pos ⟨hamt, hfits⟩⟩
  subWei_ok v a {amt} hamt hle := by
    rw [shown_vault] at hle
    exact ⟨_, if_pos ⟨hamt, by rwa [mul_one]⟩⟩
  addCoins_ok v a {amt} hamt := ⟨_, if_pos hamt⟩
  addWei_ok v a {amt} hamt := ⟨_, if_pos hamt⟩

def vaultKeepers : Keepers AccAddress ℕ where
  bank := vaultBank
  account := ⟨fun _ _ => true, fun _ _ => 1⟩
  keccak _ := emptyHash
  bech32 a := a
  hex a := a.bytes
  cachedFeeCollectorAddress := some (FixedBytes.zero 20)
  feeCollectorModuleAddress := []
  evmModuleAddress := []

def destroyedBoth (n : ℕ) : DBImpl AccAddress ℕ :=
  ((DBImpl.newDBImpl vaultKeepers
    ⟨fun _ => none, fun _ => none,
      fun a => if a = alice.bytes ∨ a = getCoinbaseAddress 0 then some n else none⟩
    ⟨1, []⟩ 0 false false).markAccount alice .deleted).markAccount (FixedBytes.zero 20) .deleted

def reverseOrder : MapOrder := ⟨fun _ l => l.reverse, fun _ l => l.reverse_perm⟩

theorem destroyedBoth_room :
    DBImpl.Room vaultKeepers (destroyedBoth 5).involved (destroyedBoth 5) := by
  have hsum : ∑ x ∈ (destroyedBoth 5).involved,
      shown vaultKeepers.bank (destroyedBoth 5).view x = 10 := by
    decide +kernel
  refine ⟨Finset.mem_insert_self _ _, ?_, ?_, ?_⟩
  · rw [hsum]
    decide
  · decide
  · rw [hsum]
    decide

end Tabi.StateDB
