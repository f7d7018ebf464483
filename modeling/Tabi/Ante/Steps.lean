import Tabi.Ante.Deliver
import Tabi.StateDB.Stores

/-!
# Ante — what a delivery does to nonces

Every way a delivered transaction can go, as one case distinction (`evmAnteHandler_cases`): it stops
before `BasicDecorator`, it is an associate transaction, or it *enters* `BasicDecorator` with its
sender associated (`Entered`), and from there fails with the callback installed or passes.
-/

namespace Tabi.Ante

open Support StateDB Fallible

variable {β γ : Type}

variable {v v' : Stores β γ}

theorem getNonce_congr (h : v'.evm = v.evm) (a : Address) : getNonce v' a = getNonce v a := by
  unfold getNonce
  rw [h]

theorem nonceKey_injective : Function.Injective nonceKey :=
  fun _ _ e => FixedBytes.ext (List.tail_eq_of_cons_eq e)

theorem getNonce_setNonce (v : Stores β γ) (a : Address) (n : UInt64) :
    getNonce ((setNonce a n : Effect β γ).writes • v) a = n.toNat := by
  have hset : ((setNonce a n : Effect β γ).writes • v).evm (nonceKey a) =
      some (beBytes 8 n.toNat) := Patch.set_smul_same _ _ _
  rw [getNonce, hset]
  exact (beNat_beBytes 8 n.toNat).trans (Nat.mod_eq_of_lt n.toNat_lt)

theorem getNonce_setNonce_of_ne (v : Stores β γ) {a b : Address} (h : b ≠ a) (n : UInt64) :
    getNonce ((setNonce a n : Effect β γ).writes • v) b = getNonce v b := by
  have hset : ((setNonce a n : Effect β γ).writes • v).evm (nonceKey b) = v.evm (nonceKey b) :=
    Patch.set_smul_other (nonceKey_injective.ne h) _ _
  rw [getNonce, hset]
  rfl

theorem getNonce_mapAddress (K : Association.Keepers β γ) (v : Stores β γ) (t : AccAddress)
    (e a : Address) : getNonce (Association.mapAddress K v t e) a = getNonce v a := by
  have hkey : (Association.mapAddress K v t e).evm (nonceKey a) = v.evm (nonceKey a) := by
    have h₁ : nonceKey a ≠ tabiAddressToEVMAddressKey t :=
      fun h => absurd (List.head_eq_of_cons_eq h) (by decide)
    have h₂ : nonceKey a ≠ evmAddressToTabiAddressKey e :=
      fun h => absurd (List.head_eq_of_cons_eq h) (by decide)
    rw [Association.mapAddress_evm, Patch.set_smul_other h₁, Patch.set_smul_other h₂]
  unfold getNonce
  rw [hkey]

theorem associateAddresses_nonce {K : Association.Keepers β γ} {t : AccAddress} {e : Address}
    {pubkey : Bytes} (h : Association.associateAddresses K v t e pubkey = .ok v') (a : Address) :
    getNonce v' a = getNonce v a :=
  (getNonce_congr (Association.associateAddresses_evm h) a).trans (getNonce_mapAddress K v t e a)

theorem evmPreprocess_nonce {K : Association.Keepers β γ} {derived : Derived} {done : Bool}
    (h : Association.evmPreprocess K v derived = .ok (v', done)) (a : Address) :
    getNonce v' a = getNonce v a := by
  rcases (Association.evmPreprocess_cases h).2 with rfl | hassoc
  · rfl
  · exact associateAddresses_nonce hassoc a

theorem subBalance_finalize_evm {k : StateDB.Keepers β γ} {txIndex : UInt64} {a : Address} {amt : ℤ}
    {s s' : DBImpl β γ} {order : MapOrder} {surplus : ℤ}
    (hsub : (DBImpl.newDBImpl k v ⟨1, []⟩ txIndex false false).subBalance k a amt = .ok s)
    (hfin : s.finalize k order = .ok (s', .ok surplus)) : s'.originalStores.evm = v.evm := by
  have hrun : DBImpl.run k [.subBalance a amt]
      (DBImpl.newDBImpl k v ⟨1, []⟩ txIndex false false) = .ok s :=
    bind_eq_ok.mpr ⟨s, hsub, rfl⟩
  obtain ⟨s₁, hstores, -, hcases⟩ := DBImpl.finalize_run hrun rfl (DBImpl.finalize_err hfin)
    (fun op hop => by rw [List.mem_singleton.mp hop]; rfl) order
  have hs₁ : s₁ = s' := by
    rcases hcases with h | h
    · rw [h] at hfin
      cases hfin
      rfl
    · rw [h] at hfin
      cases hfin
  have hflat := (DBImpl.simulates_subBalance k a amt).ok hsub
  rw [← hs₁, hstores, DBImpl.view_eq_abs]
  refine Flat.subBalance_store (P := fun w => w.evm = v.evm) (fun _ _ h => h) hflat ?_
  rw [DBImpl.abs_newDBImpl]
  rfl

variable {env : Env β γ} {v v' : Stores β γ} {msg msg' : MsgEVMTransaction}

theorem feeCheck_nonce (h : feeCheck env v msg = .ok v') (a : Address) :
    getNonce v' a = getNonce v a := by
  obtain ⟨txData, -, h⟩ := bind_eq_ok.mp h
  obtain ⟨_, -, h⟩ := bind_eq_ok.mp h
  obtain ⟨etx, -, h⟩ := bind_eq_ok.mp h
  obtain ⟨derived, -, h⟩ := bind_eq_ok.mp h
  obtain ⟨_, -, h⟩ := bind_eq_ok.mp h
  obtain ⟨_, -, h⟩ := bind_eq_ok.mp h
  obtain ⟨mgval, -, h⟩ := bind_eq_ok.mp h
  obtain ⟨s, hsub, h⟩ := bind_eq_ok.mp h
  obtain ⟨⟨s', r⟩, hfin, h⟩ := bind_eq_ok.mp h
  obtain ⟨surplus, hr, h⟩ := bind_eq_ok.mp h
  obtain ⟨_, -, h⟩ := bind_eq_ok.mp h
  cases h
  obtain rfl : r = .ok surplus := mapError_eq_ok.mp hr
  exact getNonce_congr
    (subBalance_finalize_evm (ofOutcome_eq_ok.mp hsub) (ofOutcome_eq_ok.mp hfin)) a

section After

variable {α : Type} {ctx ctx' : Context β γ} {x : Fallible α} {k : α → AnteResult β γ}

theorem after_eq_passed : AnteResult.after ctx x k = .passed ctx' msg ↔
    ∃ a, x = .ok a ∧ k a = .passed ctx' msg := by
  constructor
  · intro h
    unfold AnteResult.after at h
    split at h
    · cases h
    · cases h
    · exact ⟨_, rfl, h⟩
  · rintro ⟨a, rfl, h⟩
    exact h

theorem after_eq_failed {e : String} (h : AnteResult.after ctx x k = .failed ctx' e) :
    ctx' = ctx ∨ ∃ a, x = .ok a ∧ k a = .failed ctx' e := by
  unfold AnteResult.after at h
  split at h
  · cases h
  · cases h
    exact .inl rfl
  · exact .inr ⟨_, rfl, h⟩

theorem after_ok {a : α} (h : x = .ok a) : AnteResult.after ctx x k = k a := by
  rw [h]
  rfl

theorem after_of_not_ok (h : ∀ a, x ≠ .ok a) :
    (∃ p, AnteResult.after ctx x k = .panicked p) ∨
      ∃ e, AnteResult.after ctx x k = .failed ctx e := by
  cases x with
  | error f =>
    cases f with
    | panic p => exact .inl ⟨p, rfl⟩
    | err e => exact .inr ⟨e, rfl⟩
  | ok a => exact absurd rfl (h a)

end After

def lastChecks (env : Env β γ) : AnteHandler β γ :=
  chainAnteDecorators [evmFeeCheckDecorator env, evmSigVerifyDecorator env, gasDecorator env]

variable {ctx ctx' : Context β γ}

theorem lastChecks_failed {e : String} (h : lastChecks env ctx msg = .failed ctx' e) :
    ctx'.deliverTxCallback = ctx.deliverTxCallback := by
  rcases after_eq_failed h with rfl | ⟨v₁, -, h⟩
  · rfl
  · rcases after_eq_failed h with rfl | ⟨_, -, h⟩
    · rfl
    · rcases after_eq_failed h with rfl | ⟨txData, -, h⟩
      · rfl
      · rcases after_eq_failed h with rfl | ⟨_, -, h⟩
        · rfl
        · cases h

theorem lastChecks_passed (h : lastChecks env ctx msg = .passed ctx' msg') :
    msg' = msg ∧ ctx'.deliverTxCallback = ctx.deliverTxCallback ∧
      (∀ a, getNonce ctx'.stores a = getNonce ctx.stores a) ∧
      ∃ etx derived, asTransaction msg = .ok etx ∧ msg.derived = some derived ∧
        chainIDAccepted env etx ∧
        etx.nonce.toNat = getNonce ctx.stores derived.senderEVMAddr := by
  obtain ⟨v₁, hfee, h⟩ := after_eq_passed.mp h
  obtain ⟨_, hsig, h⟩ := after_eq_passed.mp h
  obtain ⟨txData, -, h⟩ := after_eq_passed.mp h
  obtain ⟨_, -, h⟩ := after_eq_passed.mp h
  cases h
  refine ⟨rfl, rfl, feeCheck_nonce hfee, ?_⟩
  obtain ⟨etx, htx, hsig⟩ := bind_eq_ok.mp hsig
  obtain ⟨derived, hderived, hsig⟩ := bind_eq_ok.mp hsig
  obtain ⟨_, hchain, hnonce⟩ := bind_eq_ok.mp hsig
  refine ⟨etx, derived, ofOutcome_eq_ok.mp htx, ?_, require_eq_ok.mp hchain, ?_⟩
  · have hderived := ofOutcome_eq_ok.mp hderived
    unfold derivedOf at hderived
    split at hderived
    · cases hderived
    · rename_i d hd
      cases hderived
      exact hd
  · rw [require_eq_ok.mp hnonce]
    exact feeCheck_nonce hfee _

/-- The transaction gets to `BasicDecorator`: its sender is known and associated. -/
structure Entered (env : Env β γ) (v : Stores β γ) (msg msg' : MsgEVMTransaction)
    (derived : Derived) (v₁ : Stores β γ) (etx : Geth.Transaction) : Prop where
  preprocess : preprocess env.K.crypto env.block msg = .ok msg'
  carried : msg'.derived = some derived
  associated : Association.evmPreprocess env.K v derived = .ok (v₁, false)
  transaction : asTransaction msg' = .ok etx

variable {derived : Derived} {v₁ : Stores β γ} {etx : Geth.Transaction}

theorem Entered.evmAnteHandler_eq (h : Entered env v msg msg' derived v₁ etx) :
    evmAnteHandler env ⟨v, none⟩ msg =
      .after (nonceCallback ⟨v₁, none⟩ msg' etx) (basicChecks env etx) fun _ =>
        lastChecks env (nonceCallback ⟨v₁, none⟩ msg' etx) msg' := by
  have hderived : ofOutcome (derivedOf msg') = .ok derived := by
    rw [derivedOf, h.carried]
    rfl
  have htx : ofOutcome (asTransaction msg') = .ok etx := by
    rw [h.transaction]
    rfl
  refine (after_ok h.preprocess).trans ((after_ok hderived).trans
    ((after_ok h.associated).trans ?_))
  exact after_ok htx

theorem Entered.callback (h : Entered env v msg msg' derived v₁ etx) :
    (nonceCallback ⟨v₁, none⟩ msg' etx).deliverTxCallback =
      if getNonce v derived.senderEVMAddr = etx.nonce.toNat then
        some ⟨derived.senderEVMAddr, etx.nonce⟩ else none := by
  unfold nonceCallback
  rw [h.carried]
  dsimp only
  rw [evmPreprocess_nonce h.associated]
  split
  · rfl
  · rfl

theorem Entered.callback_failed (h : Entered env v msg msg' derived v₁ etx) {e : String}
    (hfail : evmAnteHandler env ⟨v, none⟩ msg = .failed ctx e) :
    ctx.deliverTxCallback = (nonceCallback ⟨v₁, none⟩ msg' etx).deliverTxCallback := by
  rw [h.evmAnteHandler_eq] at hfail
  rcases after_eq_failed hfail with rfl | ⟨_, -, hfail⟩
  · rfl
  · exact lastChecks_failed hfail

theorem Entered.of_passed (h : Entered env v msg msg' derived v₁ etx) {msg'' : MsgEVMTransaction}
    (hpass : evmAnteHandler env ⟨v, none⟩ msg = .passed ctx msg'') :
    msg'' = msg' ∧ (∀ a, getNonce ctx.stores a = getNonce v a) ∧ chainIDAccepted env etx ∧
      getNonce v derived.senderEVMAddr = etx.nonce.toNat ∧
      ctx.deliverTxCallback = some ⟨derived.senderEVMAddr, etx.nonce⟩ := by
  rw [h.evmAnteHandler_eq] at hpass
  obtain ⟨_, -, hpass⟩ := after_eq_passed.mp hpass
  obtain ⟨rfl, hcallback, hnonces, etx', derived', htx, hderived, hchain, hnonce⟩ :=
    lastChecks_passed hpass
  have hstores : (nonceCallback ⟨v₁, none⟩ msg'' etx).stores = v₁ := by
    unfold nonceCallback
    rw [h.carried]
    dsimp only
    split
    · rfl
    · rfl
  rw [h.transaction] at htx
  cases htx
  rw [h.carried] at hderived
  cases hderived
  rw [hstores, evmPreprocess_nonce h.associated] at hnonce
  refine ⟨rfl, fun a => ?_, hchain, hnonce.symm, ?_⟩
  · rw [hnonces, hstores, evmPreprocess_nonce h.associated]
  · rw [hcallback, h.callback, if_pos hnonce.symm]

theorem evmAnteHandler_cases (env : Env β γ) (v : Stores β γ) (msg : MsgEVMTransaction) :
    (∃ p, evmAnteHandler env ⟨v, none⟩ msg = .panicked p) ∨
    (∃ e, evmAnteHandler env ⟨v, none⟩ msg = .failed ⟨v, none⟩ e ∧
      ∀ msg' derived v₁ etx, ¬ Entered env v msg msg' derived v₁ etx) ∨
    (∃ msg' derived v₁, preprocess env.K.crypto env.block msg = .ok msg' ∧
      msg'.derived = some derived ∧
      Association.evmPreprocess env.K v derived = .ok (v₁, true) ∧
      evmAnteHandler env ⟨v, none⟩ msg = .passed ⟨v₁, none⟩ msg') ∨
    ∃ msg' derived v₁ etx, Entered env v msg msg' derived v₁ etx := by
  by_cases hpre : ∃ msg', preprocess env.K.crypto env.block msg = .ok msg'
  · obtain ⟨msg', hpre⟩ := hpre
    cases hderived : msg'.derived with
    | none =>
      refine .inl ⟨.nilDereference, (after_ok hpre).trans ?_⟩
      simp only [derivedOf, hderived]
      rfl
    | some derived =>
      have hread : ofOutcome (derivedOf msg') = .ok derived := by
        rw [derivedOf, hderived]
        rfl
      by_cases hassoc : ∃ r, Association.evmPreprocess env.K v derived = .ok r
      · obtain ⟨⟨v₁, done⟩, hassoc⟩ := hassoc
        have heq : evmAnteHandler env ⟨v, none⟩ msg = _ :=
          (after_ok hpre).trans ((after_ok hread).trans (after_ok hassoc))
        cases done with
        | true => exact .inr (.inr (.inl ⟨msg', derived, v₁, hpre, hderived, hassoc, heq⟩))
        | false =>
          cases htx : asTransaction msg' with
          | error p =>
            refine .inl ⟨p, heq.trans ?_⟩
            simp only [Bool.false_eq_true, if_false, chainAnteDecorators, basicDecorator, htx]
            rfl
          | ok etx =>
            exact .inr (.inr (.inr ⟨msg', derived, v₁, etx, hpre, hderived, hassoc, htx⟩))
      · -- the association failed
        have heq : evmAnteHandler env ⟨v, none⟩ msg = _ := (after_ok hpre).trans (after_ok hread)
        rcases after_of_not_ok (fun r e => hassoc ⟨r, e⟩) with ⟨p, h⟩ | ⟨e, h⟩
        · exact .inl ⟨p, heq.trans h⟩
        · refine .inr (.inl ⟨e, heq.trans h, fun msg'' derived' v₁ etx hent => hassoc ?_⟩)
          have hmsg := hent.preprocess
          rw [hpre] at hmsg
          cases hmsg
          have hd := hent.carried
          rw [hderived] at hd
          cases hd
          exact ⟨_, hent.associated⟩
  · rcases after_of_not_ok (fun r e => hpre ⟨r, e⟩) with ⟨p, h⟩ | ⟨e, h⟩
    · exact .inl ⟨p, h⟩
    · exact .inr (.inl ⟨e, h, fun msg' _ _ _ hent => hpre ⟨msg', hent.preprocess⟩⟩)

end Tabi.Ante
