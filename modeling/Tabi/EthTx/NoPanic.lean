import Tabi.EthTx.RoundTrip

/-!
# EthTx — conversions that panic

`NewTxDataFromTx` converts the numbers of a submitted transaction to `sdk.Int`, which panics for a
number of more than 256 bits.
-/

namespace Tabi.EthTx

open Support Fallible

theorem noPanic_validateGasPrice (gasPrice : Option ℤ) : NoPanic (validateGasPrice gasPrice) := by
  cases gasPrice with
  | none => exact noPanic_err (.error _)
  | some _ => exact noPanic_require _ _

theorem noPanic_validateFeeCaps (gasTipCap gasFeeCap : Option ℤ) :
    NoPanic (validateFeeCaps gasTipCap gasFeeCap) := by
  cases gasTipCap with
  | none => exact noPanic_err (.error _)
  | some _ =>
    cases gasFeeCap with
    | none => exact noPanic_err (.error _)
    | some _ =>
      exact noPanic_bind (noPanic_require _ _) fun _ _ =>
        noPanic_bind (noPanic_require _ _) fun _ _ => noPanic_require _ _

theorem noPanic_validateFee {fee : Outcome ℤ} (h : ∃ z, fee = .ok z) :
    NoPanic (validateFee fee) := by
  obtain ⟨z, rfl⟩ := h
  exact noPanic_require _ _

theorem noPanic_validateAmount (amount : Option ℤ) : NoPanic (validateAmount amount) := by
  cases amount with
  | none => exact noPanic_ok ()
  | some _ => exact noPanic_require _ _

theorem fee_of_validateGasPrice {gasPrice : Option ℤ} {u : Unit}
    (h : validateGasPrice gasPrice = .ok u) (gas : UInt64) : ∃ z, fee gasPrice gas = .ok z := by
  cases gasPrice with
  | none => cases h
  | some p => exact ⟨_, rfl⟩

theorem fee_of_validateFeeCaps {gasTipCap gasFeeCap : Option ℤ} {u : Unit}
    (h : validateFeeCaps gasTipCap gasFeeCap = .ok u) (gas : UInt64) :
    ∃ z, fee gasFeeCap gas = .ok z := by
  cases gasTipCap with
  | none => cases h
  | some _ =>
    cases gasFeeCap with
    | none => cases h
    | some p => exact ⟨_, rfl⟩

theorem LegacyTx.noPanic_validate (tx : LegacyTx) : NoPanic tx.validate :=
  noPanic_bind (noPanic_validateGasPrice _) fun _ h =>
    noPanic_bind (noPanic_validateFee (fee_of_validateGasPrice h _)) fun _ _ =>
      noPanic_bind (noPanic_validateAmount _) fun _ _ =>
        noPanic_bind (noPanic_require _ _) fun _ _ => noPanic_require _ _

theorem AccessListTx.noPanic_validate (tx : AccessListTx) : NoPanic tx.validate :=
  noPanic_bind (noPanic_validateGasPrice _) fun _ h =>
    noPanic_bind (noPanic_validateAmount _) fun _ _ =>
      noPanic_bind (noPanic_validateFee (fee_of_validateGasPrice h _)) fun _ _ =>
        noPanic_bind (noPanic_require _ _) fun _ _ => noPanic_require _ _

theorem DynamicFeeTx.noPanic_validate (tx : DynamicFeeTx) : NoPanic tx.validate :=
  noPanic_bind (noPanic_validateFeeCaps _ _) fun _ h =>
    noPanic_bind (noPanic_validateFee (fee_of_validateFeeCaps h _)) fun _ _ =>
      noPanic_bind (noPanic_validateAmount _) fun _ _ =>
        noPanic_bind (noPanic_require _ _) fun _ _ => noPanic_require _ _

theorem BlobTx.noPanic_validate {tx : BlobTx} (hblob : tx.blobFeeCap.isSome) :
    NoPanic tx.validate := by
  refine noPanic_bind (noPanic_validateFeeCaps _ _) fun _ h => ?_
  have hfee : ∃ z, tx.fee = .ok z := by
    obtain ⟨gasFee, hgas⟩ := fee_of_validateFeeCaps h tx.gasLimit
    obtain ⟨cap, hcap⟩ := Option.isSome_iff_exists.mp hblob
    exact ⟨gasFee + cap * tx.blobGas.toNat, by rw [BlobTx.fee, hgas, hcap]; rfl⟩
  exact noPanic_bind (noPanic_validateFee hfee) fun _ _ =>
    noPanic_bind (noPanic_validateAmount _) fun _ _ =>
      noPanic_bind (noPanic_require _ _) fun _ _ => noPanic_require _ _

structure Checked (tx : Geth.Transaction) : Prop where
  value : isValidInt256 (some tx.value)
  gasPrice : isValidInt256 (some tx.gasPrice)
  gasFeeCap : isValidInt256 (some tx.gasFeeCap)
  gasTipCap : isValidInt256 (some tx.gasTipCap)
  blobGasFeeCap : isValidInt256 tx.blobGasFeeCap

theorem validateEthTx_eq_ok {tx : Geth.Transaction} : validateEthTx tx = .ok () ↔ Checked tx := by
  constructor
  · intro h
    obtain ⟨_, hvalue, h⟩ := bind_eq_ok.mp h
    obtain ⟨_, hprice, h⟩ := bind_eq_ok.mp h
    obtain ⟨_, hfee, h⟩ := bind_eq_ok.mp h
    obtain ⟨_, htip, h⟩ := bind_eq_ok.mp h
    exact ⟨require_eq_ok.mp hvalue, require_eq_ok.mp hprice, require_eq_ok.mp hfee,
      require_eq_ok.mp htip, require_eq_ok.mp h⟩
  · intro h
    exact bind_eq_ok.mpr ⟨(), require_eq_ok.mpr h.value,
      bind_eq_ok.mpr ⟨(), require_eq_ok.mpr h.gasPrice,
        bind_eq_ok.mpr ⟨(), require_eq_ok.mpr h.gasFeeCap,
          bind_eq_ok.mpr ⟨(), require_eq_ok.mpr h.gasTipCap, require_eq_ok.mpr h.blobGasFeeCap⟩⟩⟩⟩

theorem noPanic_validateEthTx (tx : Geth.Transaction) : NoPanic (validateEthTx tx) :=
  noPanic_bind (noPanic_require _ _) fun _ _ =>
    noPanic_bind (noPanic_require _ _) fun _ _ =>
      noPanic_bind (noPanic_require _ _) fun _ _ =>
        noPanic_bind (noPanic_require _ _) fun _ _ => noPanic_require _ _

theorem noPanic_checked_bind {α : Type} {tx : Geth.Transaction} {f : Unit → Fallible α} :
    NoPanic (validateEthTx tx >>= f) ↔ (Checked tx → NoPanic (f ())) := by
  by_cases hc : Checked tx
  · rw [validateEthTx_eq_ok.mpr hc]
    exact ⟨fun h _ => h, fun h => h hc⟩
  · refine ⟨fun _ h => absurd h hc, fun _ => noPanic_bind (noPanic_validateEthTx tx) ?_⟩
    exact fun _ h => absurd (validateEthTx_eq_ok.mp h) hc

section Conversions

variable {T V U : Type} {t : T}

theorem setConvertIfPresent_checked {z : Option ℤ} {setter : ℤ → T → T} (h : isValidInt256 z) :
    ∃ t', setConvertIfPresent z newIntFromBigInt setter t = .ok t' := by
  cases z with
  | none => exact ⟨t, rfl⟩
  | some z =>
    have hz := newIntFromBigInt_eq_ok.mpr ⟨of_decide_eq_true h, rfl⟩
    exact ⟨setter z t, setConvertIfPresent_some.mpr ⟨z, hz, rfl⟩⟩

theorem noPanic_of_returns {x : Fallible U} (hx : ∃ u, x = .ok u) : NoPanic x := by
  obtain ⟨u, rfl⟩ := hx
  exact noPanic_ok u

theorem noPanic_bind_iff {x : Fallible U} {f : U → Fallible V} {P : Prop} (hx : ∃ u, x = .ok u)
    (hf : ∀ u, NoPanic (f u) ↔ P) : NoPanic (x >>= f) ↔ P := by
  obtain ⟨u, rfl⟩ := hx
  exact hf u

theorem noPanic_newIntFromBigInt_bind {z : ℤ} {f : ℤ → Fallible V} (hf : ∀ z, NoPanic (f z)) :
    NoPanic (newIntFromBigInt z >>= f) ↔ SdkInt.Fits z := by
  by_cases hz : SdkInt.Fits z
  · rw [newIntFromBigInt_eq_ok.mpr ⟨hz, rfl⟩]
    exact ⟨fun _ => hz, fun _ => hf z⟩
  · have hpanic : newIntFromBigInt z = .error (.panic .integerOverflow) := by
      rw [newIntFromBigInt, SdkInt.ofBig, if_neg hz]
      rfl
    rw [hpanic]
    exact ⟨fun h => absurd rfl (h .integerOverflow), fun h => absurd h hz⟩

end Conversions

section Constructors

variable (keccak256 : Bytes → Hash) (tx : Geth.Transaction)

theorem newLegacyTx_noPanic : NoPanic (newLegacyTx keccak256 tx) := by
  refine noPanic_checked_bind.mpr fun hc => ?_
  refine noPanic_bind (noPanic_of_returns setConvertIfPresent_total) fun _ _ => ?_
  refine noPanic_bind (noPanic_of_returns (setConvertIfPresent_checked hc.value)) fun _ _ => ?_
  refine noPanic_bind (noPanic_of_returns (setConvertIfPresent_checked hc.gasPrice)) fun _ _ => ?_
  exact noPanic_bind (LegacyTx.noPanic_validate _) fun _ _ => noPanic_ok _

theorem newAccessListTx_noPanic_iff :
    NoPanic (newAccessListTx keccak256 tx) ↔ (Checked tx → SdkInt.Fits tx.chainId) := by
  refine noPanic_checked_bind.trans (forall_congr' fun hc => ?_)
  refine noPanic_bind_iff setConvertIfPresent_total fun _ => ?_
  refine noPanic_bind_iff (setConvertIfPresent_checked hc.value) fun _ => ?_
  refine noPanic_bind_iff (setConvertIfPresent_checked hc.gasPrice) fun _ => ?_
  refine noPanic_bind_iff setConvertIfPresent_total fun _ => ?_
  rw [AccessListTx.setSignatureValues, bind_assoc]
  exact noPanic_newIntFromBigInt_bind fun _ => noPanic_bind (noPanic_ok _) fun d _ =>
    noPanic_bind d.noPanic_validate fun _ _ => noPanic_ok d

theorem newDynamicFeeTx_noPanic_iff :
    NoPanic (newDynamicFeeTx keccak256 tx) ↔ (Checked tx → SdkInt.Fits tx.chainId) := by
  refine noPanic_checked_bind.trans (forall_congr' fun hc => ?_)
  refine noPanic_bind_iff setConvertIfPresent_total fun _ => ?_
  refine noPanic_bind_iff (setConvertIfPresent_checked hc.value) fun _ => ?_
  refine noPanic_bind_iff (setConvertIfPresent_checked hc.gasFeeCap) fun _ => ?_
  refine noPanic_bind_iff (setConvertIfPresent_checked hc.gasTipCap) fun _ => ?_
  refine noPanic_bind_iff setConvertIfPresent_total fun _ => ?_
  rw [DynamicFeeTx.setSignatureValues, bind_assoc]
  exact noPanic_newIntFromBigInt_bind fun _ => noPanic_bind (noPanic_ok _) fun d _ =>
    noPanic_bind d.noPanic_validate fun _ _ => noPanic_ok d

theorem newBlobTx_noPanic (t : Geth.BlobTx Geth.Uint256) :
    NoPanic (newBlobTx keccak256 (.blobTx t)) := by
  refine noPanic_checked_bind.mpr fun hc => ?_
  have hchain : SdkInt.Fits (Geth.Transaction.chainId (.blobTx t)) := t.chainID.isLt
  refine noPanic_bind (noPanic_of_returns setConvertIfPresent_total) fun _ _ => ?_
  refine noPanic_bind (noPanic_of_returns (setConvertIfPresent_checked hc.value)) fun _ _ => ?_
  refine noPanic_bind (noPanic_of_returns (setConvertIfPresent_checked hc.gasFeeCap)) fun _ _ => ?_
  refine noPanic_bind (noPanic_of_returns (setConvertIfPresent_checked hc.gasTipCap)) fun _ _ => ?_
  refine noPanic_bind (noPanic_of_returns setConvertIfPresent_total) fun _ _ => ?_
  refine noPanic_bind (noPanic_of_returns (setConvertIfPresent_checked hc.blobGasFeeCap))
    fun d₆ h₆ => ?_
  refine noPanic_bind (noPanic_of_returns setConvertIfPresent_total) fun d₇ h₇ => ?_
  refine noPanic_bind (noPanic_of_returns setConvertIfPresent_total) fun d₈ h₈ => ?_
  have hblob : d₈.blobFeeCap.isSome := by
    obtain ⟨_, -, rfl⟩ := setConvertIfPresent_some.mp h₆
    obtain ⟨_, -, rfl⟩ := setConvertIfPresent_some.mp h₇
    cases hs : Geth.Transaction.blobTxSidecar (.blobTx t) with
    | none =>
      rw [hs] at h₈
      cases h₈
      rfl
    | some sidecar =>
      rw [hs] at h₈
      cases h₈
      rfl
  rw [BlobTx.setSignatureValues, bind_assoc]
  refine (noPanic_newIntFromBigInt_bind fun _ => noPanic_bind (noPanic_ok _) fun d hd => ?_).mpr
    hchain
  cases hd
  exact noPanic_bind (BlobTx.noPanic_validate hblob) fun _ _ => noPanic_ok _

end Constructors

theorem noPanic_map {α β : Type} {x : Fallible α} {f : α → β} : NoPanic (x.map f) ↔ NoPanic x := by
  cases x with
  | ok a => exact ⟨fun _ => noPanic_ok a, fun _ => noPanic_ok (f a)⟩
  | error e => exact ⟨fun h p hp => h p (by cases hp; rfl), fun h p hp => h p (by cases hp; rfl)⟩

/-- **Conversions that panic.**  The conversion of a submitted transaction panics exactly when it is
an access list or a dynamic fee transaction, passes `ValidateEthTx`, and has a chain ID of more than
256 bits. -/
theorem newTxDataFromTx_noPanic_iff (keccak256 : Bytes → Hash) (tx : Geth.Transaction) :
    NoPanic (newTxDataFromTx keccak256 tx) ↔
      (tx.type = Geth.accessListTxType ∨ tx.type = Geth.dynamicFeeTxType →
        validateEthTx tx = .ok () → SdkInt.Fits tx.chainId) := by
  rw [validateEthTx_eq_ok]
  cases tx with
  | legacyTx t =>
    refine ⟨fun _ htype => ?_, fun _ => noPanic_map.mpr (newLegacyTx_noPanic keccak256 _)⟩
    have hother : ¬ (Geth.legacyTxType = Geth.accessListTxType ∨
        Geth.legacyTxType = Geth.dynamicFeeTxType) := by decide
    exact absurd htype hother
  | accessListTx t =>
    refine (noPanic_map.trans (newAccessListTx_noPanic_iff keccak256 _)).trans ?_
    exact ⟨fun h _ => h, fun h => h (.inl rfl)⟩
  | dynamicFeeTx t =>
    refine (noPanic_map.trans (newDynamicFeeTx_noPanic_iff keccak256 _)).trans ?_
    exact ⟨fun h _ => h, fun h => h (.inr rfl)⟩
  | blobTx t =>
    refine ⟨fun _ htype => ?_, fun _ => noPanic_map.mpr (newBlobTx_noPanic keccak256 t)⟩
    have hother : ¬ (Geth.blobTxType = Geth.accessListTxType ∨
        Geth.blobTxType = Geth.dynamicFeeTxType) := by decide
    exact absurd htype hother

def hugeChainIDTx : Geth.Transaction := .dynamicFeeTx
  { chainID := 2 ^ 256, nonce := 0, gasTipCap := 0, gasFeeCap := 0, gas := 21000
    recipient := none, value := 0, data := [], accessList := [], v := 0, r := 1, s := 1 }

theorem newTxDataFromTx_hugeChainID :
    validateEthTx hugeChainIDTx = .ok () ∧
      newTxDataFromTx (fun _ => emptyHash) hugeChainIDTx = .error (.panic .integerOverflow) :=
  ⟨rfl, rfl⟩

end Tabi.EthTx
