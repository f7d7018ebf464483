import Tabi.Ante.Nonce

/-!
# Ante — transactions for another chain

A transaction that was signed for another chain recovers its sender with that chain's ID, and goes
through `Preprocess`, `BasicDecorator` and `EVMFeeCheckDecorator` like any other; only then
`EVMSigVerifyDecorator` looks at the chain ID.
-/

namespace Tabi.Ante

open Support StateDB Fallible

variable {β γ : Type}

structure Unchanged (K : Association.Keepers β γ) (derived : Derived) (v v' : Stores β γ) :
    Prop where
  nonce : getNonce v' derived.senderEVMAddr = getNonce v derived.senderEVMAddr
  balance : getBalance K.toKeepers v' (getTabiAddressOrDefault v' derived.senderEVMAddr) =
    getBalance K.toKeepers v (getTabiAddressOrDefault v derived.senderEVMAddr)
  tabiAddress : getTabiAddress v' derived.senderEVMAddr = getTabiAddress v derived.senderEVMAddr
  evmAddress : getEVMAddress v' derived.senderTabiAddr = getEVMAddress v derived.senderTabiAddr

theorem Unchanged.refl (K : Association.Keepers β γ) (derived : Derived) (v : Stores β γ) :
    Unchanged K derived v v := ⟨rfl, rfl, rfl, rfl⟩

def ChangesNonce (execute : Execution β γ) : Prop :=
  ∀ env v msg derived v', msg.derived = some derived → execute env v msg = some v' →
    getNonce v' derived.senderEVMAddr ≠ getNonce v derived.senderEVMAddr

theorem succ_toNat_ne (n : UInt64) : (n + 1).toNat ≠ n.toNat := by
  have hn := n.toNat_lt
  have hadd : (n + 1).toNat = (n.toNat + 1) % 2 ^ 64 := UInt64.toNat_add n 1
  omega

theorem runCallback_changes {v : Stores β γ} {s : Address} {n : UInt64}
    (h : getNonce v s = n.toNat) : getNonce (runCallback (some ⟨s, n⟩) v) s ≠ n.toNat := by
  have hrun : runCallback (some ⟨s, n⟩) v = (setNonce s (n + 1) : Effect β γ).writes • v :=
    if_pos h
  rw [hrun, getNonce_setNonce]
  exact succ_toNat_ne n

variable {execute : Execution β γ} {env : Env β γ} {v v₁ : Stores β γ}
  {msg msg' : MsgEVMTransaction} {derived : Derived} {etx : Geth.Transaction}

theorem Entered.deliverTx_changes (hexec : ChangesNonce execute)
    (h : Entered env v msg msg' derived v₁ etx)
    (hnonce : getNonce v derived.senderEVMAddr = etx.nonce.toNat)
    (hpanic : ∀ p, evmAnteHandler env ⟨v, none⟩ msg ≠ .panicked p) :
    getNonce (deliverTx execute env v msg).stores derived.senderEVMAddr ≠
      getNonce v derived.senderEVMAddr := by
  rw [hnonce]
  cases hres : evmAnteHandler env ⟨v, none⟩ msg with
  | panicked p => exact absurd hres (hpanic p)
  | failed ctx e =>
    have hcallback := (h.callback_failed hres).trans h.callback
    rw [if_pos hnonce] at hcallback
    rw [deliverTx, hres]
    dsimp only
    rw [hcallback]
    exact runCallback_changes hnonce
  | passed ctx msg'' =>
    obtain ⟨rfl, hnonces, -, -, hcallback⟩ := h.of_passed hres
    have hstart := (hnonces derived.senderEVMAddr).trans hnonce
    rw [deliverTx, hres]
    dsimp only
    rw [hcallback, runMsg, isAssociateTx_of_transaction h.transaction]
    cases hrun : execute env ctx.stores msg'' with
    | none => exact runCallback_changes hstart
    | some v' =>
      have hchanged := hexec _ _ _ _ _ h.carried hrun
      rw [hstart] at hchanged
      have hkept : runCallback (some ⟨derived.senderEVMAddr, etx.nonce⟩) v' = v' :=
        if_neg hchanged
      exact fun e => hchanged ((congrArg (getNonce · derived.senderEVMAddr) hkept).symm.trans e)

theorem Entered.deliverTx_eq (h : Entered env v msg msg' derived v₁ etx)
    (hstop : getNonce v derived.senderEVMAddr ≠ etx.nonce.toNat ∨
      ∃ p, evmAnteHandler env ⟨v, none⟩ msg = .panicked p) :
    (deliverTx execute env v msg).stores = v := by
  cases hres : evmAnteHandler env ⟨v, none⟩ msg with
  | panicked p => rw [deliverTx, hres]
  | failed ctx e =>
    have hnonce : getNonce v derived.senderEVMAddr ≠ etx.nonce.toNat := by
      rcases hstop with h | ⟨p, hp⟩
      · exact h
      · rw [hres] at hp
        cases hp
    have hcallback := (h.callback_failed hres).trans h.callback
    rw [if_neg hnonce] at hcallback
    rw [deliverTx, hres]
    dsimp only
    rw [hcallback]
    rfl
  | passed ctx msg'' =>
    obtain ⟨-, -, -, hnonce, -⟩ := h.of_passed hres
    rcases hstop with h | ⟨p, hp⟩
    · exact absurd hnonce h
    · rw [hres] at hp
      cases hp

theorem Entered.executed_accepted (h : Entered env v msg msg' derived v₁ etx)
    (hexecuted : (deliverTx execute env v msg).executed = true) : chainIDAccepted env etx := by
  cases hres : evmAnteHandler env ⟨v, none⟩ msg with
  | panicked p =>
    rw [deliverTx, hres] at hexecuted
    cases hexecuted
  | failed ctx e =>
    rw [deliverTx, hres] at hexecuted
    cases hexecuted
  | passed ctx msg'' => exact (h.of_passed hres).2.2.1

section Fresh

variable {txData : EthTx.TxData} (hderive : derive env.K.crypto env.block txData = .ok derived)
  (htx : asTransaction ⟨.ok txData, none⟩ = .ok etx)

include hderive htx

theorem Entered.of_fresh (hassoc : Association.evmPreprocess env.K v derived = .ok (v₁, false)) :
    Entered env v ⟨.ok txData, none⟩ ⟨.ok txData, some derived⟩ derived v₁ etx :=
  ⟨bind_eq_ok.mpr ⟨txData, rfl, bind_eq_ok.mpr ⟨derived, hderive, rfl⟩⟩, rfl, hassoc, htx⟩

theorem deliverTx_of_not_associated
    (hassoc : ∀ v₁, Association.evmPreprocess env.K v derived ≠ .ok (v₁, false)) :
    deliverTx execute env v ⟨.ok txData, none⟩ = ⟨v, false⟩ := by
  have hpre : preprocess env.K.crypto env.block ⟨.ok txData, none⟩ =
      .ok ⟨.ok txData, some derived⟩ :=
    bind_eq_ok.mpr ⟨txData, rfl, bind_eq_ok.mpr ⟨derived, hderive, rfl⟩⟩
  rcases evmAnteHandler_cases env v ⟨.ok txData, none⟩ with ⟨p, h⟩ | ⟨e, h, -⟩ |
    ⟨msg', derived', v₁, hpre', hderived, hdone, h⟩ | ⟨msg', derived', v₁, etx', hent⟩
  · rw [deliverTx, h]
  · rw [deliverTx, h]
    rfl
  · -- an associate transaction has no transaction of go-ethereum
    cases hpre.symm.trans hpre'
    cases hderived
    obtain ⟨t, rfl⟩ := derive_isAssociate hderive (Association.evmPreprocess_cases hdone).1
    cases htx
  · cases hpre.symm.trans hent.preprocess
    cases hent.carried
    exact absurd hent.associated (hassoc v₁)

end Fresh

theorem raiseNonce_changes : ChangesNonce raiseNonce := by
  intro env v msg derived v' hmsg h
  rw [raiseNonce, hmsg] at h
  cases h
  rw [getNonce_setNonce, UInt64.toNat_ofNat']
  omega

def protectedTransfer (v : UInt8) (nonce : UInt64) : EthTx.TxData := .legacyTx
  { nonce := nonce, gasPrice := some 1, gasLimit := 21000, amount := some 1, data := []
    v := [v], r := [5], s := [6] }

end Tabi.Ante
