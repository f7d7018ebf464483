import Tabi.EthTx.TxData
import Tabi.Geth.Signer

/-!
# EthTx — the round trip

A transaction that `NewTxDataFromTx` encodes is given back by `AsEthereumData`, field for field:
what the record holds reads as the transaction it was built from.
-/

namespace Tabi.EthTx

open Support Fallible

theorem rawSignatureValue_bigBytes {z : ℤ} (h : 0 ≤ z) : rawSignatureValue (bigBytes z) = z := by
  have hz : (beNat (bigBytes z) : ℤ) = z := by
    rw [bigBytes, beNat_natBytes, Int.natAbs_of_nonneg h]
  unfold rawSignatureValue
  split
  · exact hz
  · rename_i hlen
    -- no bytes at all spell zero
    have hnil : bigBytes z = [] := List.length_eq_zero_iff.mp (by omega)
    rw [hnil] at hz
    exact hz

def recipientText (keccak256 : Bytes → Hash) : Option Address → Bytes
  | none => []
  | some a => Geth.checksumHex keccak256 a

@[simp] theorem getTo_recipientText (keccak256 : Bytes → Hash) (a : Option Address) :
    getTo (recipientText keccak256 a) = a := by
  cases a with
  | none => rfl
  | some a =>
    rw [getTo, recipientText, if_neg (Geth.checksumHex_ne_nil keccak256 a),
      Geth.hexToAddress_checksumHex]

@[simp] theorem toEthAccessList_newAccessList (keccak256 : Bytes → Hash) (l : Geth.AccessList) :
    toEthAccessList (newAccessList keccak256 l) = l := by
  rw [toEthAccessList, newAccessList, List.map_map]
  conv_rhs => rw [← List.map_id l]
  apply List.map_congr_left
  intro tuple _
  have hkeys : (tuple.storageKeys.map Geth.hashHex).map Geth.hexToHash = tuple.storageKeys := by
    rw [List.map_map]
    exact List.map_id'' Geth.hexToHash_hashHex _
  simp only [Function.comp_apply, Geth.hexToAddress_checksumHex, hkeys, id_eq]

theorem map_copyOf_bytes {n : Nat} (l : List (FixedBytes n)) :
    (l.map FixedBytes.bytes).map (FixedBytes.copyOf n) = l := by
  rw [List.map_map]
  exact List.map_id'' FixedBytes.copyOf_bytes l

theorem mapM_sliceToArray {n : Nat} (l : List (FixedBytes n)) :
    (l.map FixedBytes.bytes).mapM (sliceToArray n) = .ok l := by
  have hslice : ∀ b ∈ l.map FixedBytes.bytes, sliceToArray n b = .ok (FixedBytes.copyOf n b) := by
    intro b hb
    obtain ⟨a, -, rfl⟩ := List.mem_map.mp hb
    rw [sliceToArray, a.length_eq, if_neg (lt_irrefl n)]
  rw [mapM_eq_ok hslice, map_copyOf_bytes]

@[simp] theorem sidecarToEthSidecar_sidecarConverter (sidecar : Option Geth.BlobTxSidecar) :
    sidecarToEthSidecar (sidecar.map sidecarConverter) = .ok sidecar := by
  cases sidecar with
  | none => rfl
  | some sidecar =>
    simp only [Option.map_some, sidecarToEthSidecar, sidecarConverter, mapM_sliceToArray]
    rfl

theorem newIntFromBigInt_eq_ok {z r : ℤ} : newIntFromBigInt z = .ok r ↔ SdkInt.Fits z ∧ r = z :=
  ofOutcome_eq_ok.trans SdkInt.ofBig_eq_ok

section Conversions

variable {T V U : Type} {t t' : T}

theorem setConvertIfPresent_some {u : U} {converter : U → Fallible V} {setter : V → T → T} :
    setConvertIfPresent (some u) converter setter t = .ok t' ↔
      ∃ v, converter u = .ok v ∧ setter v t = t' := map_eq_ok

theorem setConvertIfPresent_recipient {keccak256 : Bytes → Hash} {a : Option Address}
    {setter : Bytes → T → T} (hempty : setter [] t = t)
    (h : setConvertIfPresent a (addressHex keccak256) setter t = .ok t') :
    t' = setter (recipientText keccak256 a) t := by
  cases a with
  | none =>
    cases h
    exact hempty.symm
  | some a =>
    cases h
    rfl

theorem setConvertIfPresent_total {u : Option U} {f : U → V} {setter : V → T → T} :
    ∃ t', setConvertIfPresent u (fun u => .ok (f u)) setter t = .ok t' := by
  cases u with
  | none => exact ⟨t, rfl⟩
  | some u => exact ⟨setter (f u) t, rfl⟩

end Conversions

section Records

variable {keccak256 : Bytes → Hash} {tx : Geth.Transaction}

theorem newLegacyTx_eq_ok {d : LegacyTx} (h : newLegacyTx keccak256 tx = .ok d) :
    d = { nonce := tx.nonce, gasPrice := some tx.gasPrice, gasLimit := tx.gas
          recipient := recipientText keccak256 tx.recipient, amount := some tx.value
          data := tx.data, v := bigBytes tx.rawV, r := bigBytes tx.rawR
          s := bigBytes tx.rawS } := by
  simp only [newLegacyTx, bind_eq_ok, setConvertIfPresent_some, newIntFromBigInt_eq_ok] at h
  obtain ⟨_, -, _, hto, _, ⟨_, ⟨-, rfl⟩, rfl⟩, _, ⟨_, ⟨-, rfl⟩, rfl⟩, _, -, h⟩ := h
  obtain rfl := setConvertIfPresent_recipient rfl hto
  cases h
  rfl

theorem newAccessListTx_eq_ok {d : AccessListTx} (h : newAccessListTx keccak256 tx = .ok d) :
    d = { chainID := some tx.chainId, nonce := tx.nonce, gasPrice := some tx.gasPrice
          gasLimit := tx.gas, recipient := recipientText keccak256 tx.recipient
          amount := some tx.value, data := tx.data
          accesses := newAccessList keccak256 tx.accessList
          v := bigBytes tx.rawV, r := bigBytes tx.rawR, s := bigBytes tx.rawS } := by
  simp only [newAccessListTx, AccessListTx.setSignatureValues, bind_eq_ok,
    setConvertIfPresent_some, newIntFromBigInt_eq_ok, Except.ok.injEq] at h
  obtain ⟨_, -, _, hto, _, ⟨_, ⟨-, rfl⟩, rfl⟩, _, ⟨_, ⟨-, rfl⟩, rfl⟩, _, ⟨_, rfl, rfl⟩, _,
    ⟨_, ⟨-, rfl⟩, hsig⟩, _, -, h⟩ := h
  obtain rfl := setConvertIfPresent_recipient rfl hto
  cases hsig
  cases h
  rfl

theorem newDynamicFeeTx_eq_ok {d : DynamicFeeTx} (h : newDynamicFeeTx keccak256 tx = .ok d) :
    d = { chainID := some tx.chainId, nonce := tx.nonce, gasTipCap := some tx.gasTipCap
          gasFeeCap := some tx.gasFeeCap, gasLimit := tx.gas
          recipient := recipientText keccak256 tx.recipient
          amount := some tx.value, data := tx.data
          accesses := newAccessList keccak256 tx.accessList
          v := bigBytes tx.rawV, r := bigBytes tx.rawR, s := bigBytes tx.rawS } := by
  simp only [newDynamicFeeTx, DynamicFeeTx.setSignatureValues, bind_eq_ok,
    setConvertIfPresent_some, newIntFromBigInt_eq_ok, Except.ok.injEq] at h
  obtain ⟨_, -, _, hto, _, ⟨_, ⟨-, rfl⟩, rfl⟩, _, ⟨_, ⟨-, rfl⟩, rfl⟩, _, ⟨_, ⟨-, rfl⟩, rfl⟩, _,
    ⟨_, rfl, rfl⟩, _, ⟨_, ⟨-, rfl⟩, hsig⟩, _, -, h⟩ := h
  obtain rfl := setConvertIfPresent_recipient rfl hto
  cases hsig
  cases h
  rfl

theorem newBlobTx_eq_ok {t : Geth.BlobTx Geth.Uint256} {d : BlobTx}
    (h : newBlobTx keccak256 (.blobTx t) = .ok d) :
    d = { chainID := some (Geth.toBig t.chainID), nonce := t.nonce
          gasTipCap := some (Geth.toBig t.gasTipCap), gasFeeCap := some (Geth.toBig t.gasFeeCap)
          gasLimit := t.gas, recipient := Geth.checksumHex keccak256 t.recipient
          amount := some (Geth.toBig t.value), data := t.data
          accesses := newAccessList keccak256 t.accessList
          blobFeeCap := some (Geth.toBig t.blobFeeCap)
          blobHashes := t.blobHashes.map FixedBytes.bytes
          sidecar := t.sidecar.map sidecarConverter
          v := bigBytes (Geth.toBig t.v), r := bigBytes (Geth.toBig t.r)
          s := bigBytes (Geth.toBig t.s) } := by
  simp only [newBlobTx, BlobTx.setSignatureValues, Geth.Transaction.blobGasFeeCap, bind_eq_ok,
    setConvertIfPresent_some, newIntFromBigInt_eq_ok, Except.ok.injEq] at h
  obtain ⟨_, -, _, hto, _, ⟨_, ⟨-, rfl⟩, rfl⟩, _, ⟨_, ⟨-, rfl⟩, rfl⟩, _, ⟨_, ⟨-, rfl⟩, rfl⟩, _,
    ⟨_, rfl, rfl⟩, _, ⟨_, ⟨-, rfl⟩, rfl⟩, _, ⟨_, rfl, rfl⟩, _, hsidecar, _,
    ⟨_, ⟨-, rfl⟩, hsig⟩, _, -, h⟩ := h
  obtain rfl := setConvertIfPresent_recipient rfl hto
  cases hsig
  cases h
  -- a sidecar is set when there is one
  obtain ⟨sidecar, hs⟩ : ∃ sidecar, t.sidecar = sidecar := ⟨_, rfl⟩
  rw [Geth.Transaction.blobTxSidecar, hs] at hsidecar
  rw [hs]
  cases sidecar with
  | none =>
    cases hsidecar
    rfl
  | some sidecar =>
    cases hsidecar
    rfl

end Records

section RoundTrip

variable {keccak256 : Bytes → Hash}

structure SignatureNonneg (tx : Geth.Transaction) : Prop where
  v : 0 ≤ tx.rawV
  r : 0 ≤ tx.rawR
  s : 0 ≤ tx.rawS

theorem legacyTx_roundTrip {t : Geth.LegacyTx ℤ} {d : LegacyTx}
    (hsig : SignatureNonneg (.legacyTx t)) (h : newLegacyTx keccak256 (.legacyTx t) = .ok d) :
    Geth.newTx (.legacyTx d.asEthereumData) = .legacyTx t := by
  obtain rfl := newLegacyTx_eq_ok h
  simp only [Geth.newTx, LegacyTx.asEthereumData, getTo_recipientText,
    rawSignatureValue_bigBytes hsig.v, rawSignatureValue_bigBytes hsig.r,
    rawSignatureValue_bigBytes hsig.s]
  rfl

theorem accessListTx_roundTrip {t : Geth.AccessListTx ℤ} {d : AccessListTx}
    (hsig : SignatureNonneg (.accessListTx t))
    (h : newAccessListTx keccak256 (.accessListTx t) = .ok d) :
    Geth.newTx (.accessListTx d.asEthereumData) = .accessListTx t := by
  obtain rfl := newAccessListTx_eq_ok h
  simp only [Geth.newTx, AccessListTx.asEthereumData, getTo_recipientText,
    toEthAccessList_newAccessList, rawSignatureValue_bigBytes hsig.v,
    rawSignatureValue_bigBytes hsig.r, rawSignatureValue_bigBytes hsig.s]
  rfl

theorem dynamicFeeTx_roundTrip {t : Geth.DynamicFeeTx ℤ} {d : DynamicFeeTx}
    (hsig : SignatureNonneg (.dynamicFeeTx t))
    (h : newDynamicFeeTx keccak256 (.dynamicFeeTx t) = .ok d) :
    Geth.newTx (.dynamicFeeTx d.asEthereumData) = .dynamicFeeTx t := by
  obtain rfl := newDynamicFeeTx_eq_ok h
  simp only [Geth.newTx, DynamicFeeTx.asEthereumData, getTo_recipientText,
    toEthAccessList_newAccessList, rawSignatureValue_bigBytes hsig.v,
    rawSignatureValue_bigBytes hsig.r, rawSignatureValue_bigBytes hsig.s]
  rfl

theorem rawSignatureValue_toBig (u : Geth.Uint256) :
    rawSignatureValue (bigBytes (Geth.toBig u)) = Geth.toBig u :=
  rawSignatureValue_bigBytes (Int.natCast_nonneg u.toNat)

theorem blobTx_roundTrip {t : Geth.BlobTx Geth.Uint256} {d : BlobTx}
    (h : newBlobTx keccak256 (.blobTx t) = .ok d) :
    ∃ data, d.asEthereumData = .ok data ∧ Geth.newTx (.blobTx data) = .blobTx t := by
  obtain rfl := newBlobTx_eq_ok h
  have hto : getTo (Geth.checksumHex keccak256 t.recipient) = some t.recipient :=
    getTo_recipientText keccak256 (some t.recipient)
  simp only [BlobTx.asEthereumData, Geth.mustFromBig_toBig, rawSignatureValue_toBig,
    sidecarToEthSidecar_sidecarConverter, toEthAccessList_newAccessList, map_copyOf_bytes,
    Outcome.ok_bind, hto, Option.getD_some]
  exact ⟨_, rfl, rfl⟩

end RoundTrip

theorem newTxDataFromTx_roundTrip {keccak256 : Bytes → Hash} {tx : Geth.Transaction} {d : TxData}
    (hsig : SignatureNonneg tx) (h : newTxDataFromTx keccak256 tx = .ok d) :
    ∃ data, d.asEthereumData = .ok data ∧ Geth.newTx data = tx := by
  cases tx with
  | legacyTx t =>
    obtain ⟨d, hd, rfl⟩ := map_eq_ok.mp h
    exact ⟨_, rfl, legacyTx_roundTrip hsig hd⟩
  | accessListTx t =>
    obtain ⟨d, hd, rfl⟩ := map_eq_ok.mp h
    exact ⟨_, rfl, accessListTx_roundTrip hsig hd⟩
  | dynamicFeeTx t =>
    obtain ⟨d, hd, rfl⟩ := map_eq_ok.mp h
    exact ⟨_, rfl, dynamicFeeTx_roundTrip hsig hd⟩
  | blobTx t =>
    obtain ⟨d, hd, rfl⟩ := map_eq_ok.mp h
    obtain ⟨data, hdata, htx⟩ := blobTx_roundTrip hd
    exact ⟨.blobTx data, by rw [TxData.asEthereumData, hdata]; rfl, htx⟩

/-- **The round trip.**  A transaction that `NewTxDataFromTx` encodes is what `AsEthereumData`
gives back: the same type and the same fields, and so the same hash and, under every signer, the
same signing hash. -/
theorem asEthereumData_newTxDataFromTx {keccak256 : Bytes → Hash} {tx : Geth.Transaction}
    {d : TxData} (hsig : SignatureNonneg tx) (h : newTxDataFromTx keccak256 tx = .ok d) :
    ∃ data, d.asEthereumData = .ok data ∧ Geth.newTx data = tx ∧
      (∀ H : Geth.Hasher, H.hash (Geth.newTx data) = H.hash tx) ∧
      ∀ (C : Geth.Crypto) (signer : Geth.Signer),
        signer.hash C (Geth.newTx data) = signer.hash C tx := by
  obtain ⟨data, hdata, htx⟩ := newTxDataFromTx_roundTrip hsig h
  exact ⟨data, hdata, htx, fun H => by rw [htx], fun C signer => by rw [htx]⟩

def creationTx : Geth.Transaction := .dynamicFeeTx
  { chainID := 9788, nonce := 7, gasTipCap := 2, gasFeeCap := 30, gas := 21000
    recipient := none, value := 0, data := [1, 2]
    accessList := [⟨FixedBytes.zero 20, [emptyHash]⟩], v := 1, r := 256, s := 3 }

theorem asEthereumData_newTxDataFromTx_creation :
    ∃ d data, newTxDataFromTx (fun _ => emptyHash) creationTx = .ok d ∧
      d.asEthereumData = .ok data ∧ Geth.newTx data = creationTx := by
  obtain ⟨d, hd⟩ : ∃ d, newTxDataFromTx (fun _ => emptyHash) creationTx = .ok d := ⟨_, rfl⟩
  obtain ⟨data, hdata, htx, -⟩ := asEthereumData_newTxDataFromTx
    ⟨by decide, by decide, by decide⟩ hd
  exact ⟨d, data, hd, hdata, htx⟩

end Tabi.EthTx
