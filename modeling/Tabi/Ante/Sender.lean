import Tabi.Ante.Preprocess

/-!
# Ante — the sender is go-ethereum's

`Preprocess` does by hand what go-ethereum's signers do: it re-encodes `V` for the type of the
transaction, picks the hash that was signed, and recovers.
-/

namespace Tabi.Ante

open Support Fallible

variable {K : Association.Crypto} {block : Block}

section Signer

variable {version : SignerVersion} {chainID : ℤ}

theorem sender_legacyTx (t : Geth.LegacyTx ℤ) :
    (signerMap version chainID).sender K.toCrypto (.legacyTx t) =
      Geth.eip155Sender K.toCrypto (Geth.newEIP155Signer chainID) (.legacyTx t) := by
  cases version with
  | london => rfl
  | cancun => rfl

theorem sender_of_type_ne_legacy {tx : Geth.Transaction}
    (hallowed : isTxTypeAllowed version tx.type = true) (htype : tx.type ≠ Geth.legacyTxType) :
    (signerMap version chainID).sender K.toCrypto tx = (do
      Geth.checkChainId (Geth.newEIP155Signer chainID) tx
      Geth.recoverPlain K.toCrypto ((signerMap version chainID).hash K.toCrypto tx)
        tx.rawR tx.rawS (tx.rawV + 27) true) := by
  cases tx with
  | legacyTx t => exact absurd rfl htype
  | accessListTx t => cases version <;> rfl
  | dynamicFeeTx t => cases version <;> rfl
  | blobTx t =>
    cases version with
    | london => exact absurd hallowed (by decide : ¬ isTxTypeAllowed .london Geth.blobTxType)
    | cancun => rfl

end Signer

variable {tx : Geth.Transaction}

theorem sender_eq_recoverPlain {version : SignerVersion} {cfg : EthConfig}
    (hcfg : cfg.chainID = tx.chainId) (hallowed : isTxTypeAllowed version tx.type = true) :
    (signerMap version tx.chainId).sender K.toCrypto tx =
      Geth.recoverPlain K.toCrypto (signedHash K (signerMap version tx.chainId) cfg tx).2
        tx.rawR tx.rawS (signedHash K (signerMap version tx.chainId) cfg tx).1 true := by
  -- the check of the chain ID compares it with itself
  have hchain : Geth.checkChainId (Geth.newEIP155Signer tx.chainId) tx = .ok () := if_pos rfl
  by_cases htype : tx.type = Geth.legacyTxType
  · obtain ⟨t, rfl⟩ := Geth.Transaction.type_eq_legacyTxType.mp htype
    rw [sender_legacyTx, signedHash, hcfg]
    change (if Geth.Transaction.isProtected (.legacyTx t) = false then _ else _) = _
    by_cases hp : Geth.Transaction.isProtected (.legacyTx t) = true
    · rw [if_pos hp, if_neg (by rw [hp]; nofun), hchain]
      cases version <;> rfl
    · rw [if_neg hp, if_pos (Bool.eq_false_iff.mpr hp)]
      rfl
  · have hp : tx.isProtected = true := by
      cases tx with
      | legacyTx t => exact absurd rfl htype
      | accessListTx t | dynamicFeeTx t | blobTx t => rfl
    rw [sender_of_type_ne_legacy hallowed htype, hchain, signedHash, if_pos hp, adjustV,
      if_pos htype]
    rfl

/-- The version and the signer `Preprocess` selects for a transaction. -/
def selectedVersion (block : Block) (tx : Geth.Transaction) : SignerVersion :=
  getVersion block (ethereumConfig block.cancunTime tx.chainId)

def selectedSigner (block : Block) (tx : Geth.Transaction) : Geth.Signer :=
  signerMap (selectedVersion block tx) tx.chainId

def selectedHash (K : Association.Crypto) (block : Block) (tx : Geth.Transaction) : ℤ × Hash :=
  signedHash K (selectedSigner block tx) (ethereumConfig block.cancunTime tx.chainId) tx

theorem selectedSigner_sender (hallowed : isTxTypeAllowed
    (selectedVersion block tx) tx.type = true) :
    (selectedSigner block tx).sender K.toCrypto tx =
      Geth.recoverPlain K.toCrypto (selectedHash K block tx).2 tx.rawR tx.rawS
        (selectedHash K block tx).1 true :=
  sender_eq_recoverPlain rfl hallowed

theorem preprocessTx_sender (hK : Association.RecoversPoints K)
    (hallowed : isTxTypeAllowed (selectedVersion block tx) tx.type = true) :
    (preprocessTx K block tx).map Derived.senderEVMAddr =
      (selectedSigner block tx).sender K.toCrypto tx := by
  have hrequire : require (isTxTypeAllowed (selectedVersion block tx) tx.type)
      Geth.errInvalidChainId = .ok () := if_pos hallowed
  rw [selectedSigner_sender hallowed, ← Association.getAddresses_map_evmAddr hK]
  change (require (isTxTypeAllowed (selectedVersion block tx) tx.type) _ >>= fun _ =>
    Association.getAddresses K (selectedHash K block tx).1 _ _ (selectedHash K block tx).2 >>=
      fun _ => _).map _ = _
  rw [hrequire]
  cases Association.getAddresses K (selectedHash K block tx).1 tx.rawR tx.rawS _ with
  | error e => rfl
  | ok a => rfl

theorem derive_eq_preprocessTx {d : EthTx.TxData} {data : Geth.TxData}
    (hdata : d.asEthereumData = .ok data) :
    derive K block d = preprocessTx K block (Geth.newTx data) := by
  cases d with
  | associateTx a => cases hdata
  | legacyTx t | accessListTx t | dynamicFeeTx t | blobTx t =>
    rw [derive, hdata]
    · rfl
    · nofun

theorem sender_ne_panic (hallowed : isTxTypeAllowed (selectedVersion block tx) tx.type = true)
    (p : Panic) : (selectedSigner block tx).sender K.toCrypto tx ≠ .error (.panic p) := by
  rw [selectedSigner_sender hallowed]
  exact Association.recoverPlain_ne_panic _ _ _ _ _ _ p

/-- A legacy `V` that says neither a recovery value nor a chain ID. -/
def MalformedV (v : ℤ) : Prop := 0 ≤ v ∧ v < 35 ∧ v ≠ 27 ∧ v ≠ 28

theorem MalformedV.exists_nat {v : ℤ} (h : MalformedV v) :
    ∃ n : Nat, v = n ∧ n < 35 ∧ n ≠ 27 ∧ n ≠ 28 := by
  obtain ⟨h₀, h35, h27, h28⟩ := h
  exact ⟨v.toNat, by omega, by omega, by omega, by omega⟩

theorem deriveChainId_malformed :
    ∀ n < 35, n ≠ 27 → n ≠ 28 → Geth.deriveChainId (n : Nat) = (2 ^ 64 - 35 + (n : ℤ)) / 2 := by
  decide

theorem adjustV_malformed {v : ℤ} (h : MalformedV v) :
    2 ^ 8 ≤ (adjustV v Geth.legacyTxType (Geth.deriveChainId v)).natAbs := by
  obtain ⟨n, rfl, h35, h27, h28⟩ := h.exists_nat
  rw [deriveChainId_malformed n h35 h27 h28, adjustV, if_neg (by decide)]
  omega

theorem unprotected_malformed :
    ∀ n < 35, n ≠ 27 → n ≠ 28 → Geth.isProtectedV (n : Nat) = false →
      ∀ m : UInt8, m = 0 ∨ m = 1 → (Geth.uint64 (n : Nat) - 27).toUInt8 ≠ m := by
  intro n h35 h27 h28 hp
  have hvalue : (Geth.uint64 (n : Nat) - 27).toUInt8 ≠ 0 ∧
      (Geth.uint64 (n : Nat) - 27).toUInt8 ≠ 1 := by
    revert n
    decide
  rintro m (rfl | rfl)
  · exact hvalue.1
  · exact hvalue.2

theorem isTxTypeAllowed_legacyTxType (version : SignerVersion) :
    isTxTypeAllowed version Geth.legacyTxType = true := by
  cases version with
  | london => rfl
  | cancun => rfl

theorem sender_malformed {t : Geth.LegacyTx ℤ} (h : MalformedV t.v) :
    (selectedSigner block (.legacyTx t)).sender K.toCrypto (.legacyTx t) =
      .error (.err Geth.errInvalidSig) := by
  rw [selectedSigner_sender (isTxTypeAllowed_legacyTxType (selectedVersion block (.legacyTx t)))]
  apply Association.recoverPlain_error
  intro m hm hV
  rw [selectedHash, signedHash] at hV ⊢
  by_cases hp : Geth.Transaction.isProtected (.legacyTx t) = true
  · rw [if_pos hp] at hV
    exact absurd hV (not_lt.mpr (adjustV_malformed h))
  · rw [if_neg hp]
    obtain ⟨n, hn, h35, h27, h28⟩ := h.exists_nat
    have hp : Geth.isProtectedV t.v = false := Bool.eq_false_iff.mpr hp
    change (Geth.uint64 t.v - 27).toUInt8 ≠ m
    rw [hn] at hp ⊢
    exact unprotected_malformed n h35 h27 h28 hp m hm

def MsgEVMTransaction.sender (msg : MsgEVMTransaction) : Option Address :=
  msg.derived.map Derived.senderEVMAddr

theorem preprocess_map_sender {d : EthTx.TxData} :
    (preprocess K block ⟨.ok d, none⟩).map MsgEVMTransaction.sender =
      ((derive K block d).map Derived.senderEVMAddr).map some := by
  change (derive K block d >>= fun derived => pure _).map _ = _
  cases derive K block d with
  | error e => rfl
  | ok derived => rfl

/-- **The sender is go-ethereum's.**  For every record that stands for a transaction of an allowed
type, `Preprocess` derives the sender that go-ethereum's signer of the selected fork recovers for
the transaction's own chain ID, or both return the same error; neither panics.  From a malformed
legacy `V` nothing is recovered. -/
theorem preprocess_sender (hK : Association.RecoversPoints K) {d : EthTx.TxData}
    {data : Geth.TxData} (hdata : d.asEthereumData = .ok data)
    (hallowed : isTxTypeAllowed (selectedVersion block (Geth.newTx data)) (Geth.newTx data).type) :
    (preprocess K block ⟨.ok d, none⟩).map MsgEVMTransaction.sender =
        ((selectedSigner block (Geth.newTx data)).sender K.toCrypto (Geth.newTx data)).map some ∧
      (∀ p, preprocess K block ⟨.ok d, none⟩ ≠ .error (.panic p)) ∧
      ∀ t, Geth.newTx data = .legacyTx t → MalformedV t.v →
        preprocess K block ⟨.ok d, none⟩ = .error (.err Geth.errInvalidSig) := by
  have hsender : (preprocess K block ⟨.ok d, none⟩).map MsgEVMTransaction.sender =
      ((selectedSigner block (Geth.newTx data)).sender K.toCrypto (Geth.newTx data)).map some := by
    rw [preprocess_map_sender, derive_eq_preprocessTx hdata, preprocessTx_sender hK hallowed]
  refine ⟨hsender, fun p hp => ?_, fun t ht hmalformed => ?_⟩
  · rw [hp] at hsender
    cases hs : (selectedSigner block (Geth.newTx data)).sender K.toCrypto (Geth.newTx data) with
    | ok a =>
      rw [hs] at hsender
      cases hsender
    | error e =>
      rw [hs] at hsender
      cases hsender
      exact sender_ne_panic hallowed p hs
  · rw [ht, sender_malformed hmalformed] at hsender
    cases hpre : preprocess K block ⟨.ok d, none⟩ with
    | ok m =>
      rw [hpre] at hsender
      cases hsender
    | error e =>
      rw [hpre] at hsender
      cases hsender
      rfl

def plainCrypto : Association.Crypto where
  rlpHash _ := emptyHash
  prefixedRlpHash _ _ := emptyHash
  keccak256 := FixedBytes.ofBytes 32
  ecrecover _ sig := .ok (4 :: sig)
  compressPubkey := some
  parsePubkey := some
  pubkeyAddress := id

def legacyTransfer (v : UInt8) : EthTx.TxData := .legacyTx
  { nonce := 0, gasPrice := some 1, gasLimit := 21000, amount := some 1, data := []
    v := [v], r := [5], s := [6] }

theorem preprocess_sender_legacyTransfer :
    (∃ a, (preprocess plainCrypto ⟨1, 0, 0⟩ ⟨.ok (legacyTransfer 28), none⟩).map
        MsgEVMTransaction.sender = .ok (some a)) ∧
      preprocess plainCrypto ⟨1, 0, 0⟩ ⟨.ok (legacyTransfer 30), none⟩ =
        .error (.err Geth.errInvalidSig) := by
  have hK : Association.RecoversPoints plainCrypto := fun _ _ _ _ => rfl
  have hok := @preprocess_sender plainCrypto ⟨1, 0, 0⟩ hK (legacyTransfer 28) _ rfl rfl
  have hmalformed := @preprocess_sender plainCrypto ⟨1, 0, 0⟩ hK (legacyTransfer 30) _ rfl rfl
  exact ⟨⟨_, hok.1⟩, hmalformed.2.2 _ rfl ⟨by decide, by decide, by decide, by decide⟩⟩

end Tabi.Ante
