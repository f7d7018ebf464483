import Tabi.Geth.Signer

/-!
# Association — the two addresses of a public key

`utils/helpers/address.go`: a signature gives a public key, and a public key an EVM address and a
Cosmos address.
-/

namespace Tabi.Association

open Support Fallible

structure Crypto extends Geth.Crypto where
  /-- `crypto.UnmarshalPubkey` and the compressed form of the key; `none` when the bytes are not
  a point of the curve. -/
  compressPubkey : Bytes → Option Bytes
  /-- `btcec.ParsePubKey` and the uncompressed form of the key; `none` is the error. -/
  parsePubkey : Bytes → Option Bytes
  pubkeyAddress : Bytes → AccAddress

variable (K : Crypto)

def recoverPubkey (sighash : Hash) (R S Vb : ℤ) (homestead : Bool) : Fallible Bytes := do
  require (¬ 2 ^ 8 ≤ Vb.natAbs) Geth.errInvalidSig
  let V := (Geth.uint64 Vb - 27).toUInt8
  require (Geth.validateSignatureValues V R S homestead) Geth.errInvalidSig
  let sig ← ofOutcome (Geth.signatureBytes R S V)
  (K.ecrecover sighash sig).mapError .err

def pubkeyToEVMAddress (pub : Bytes) : Fallible Address := do
  require (pub.head? = some 4) "invalid public key"
  return FixedBytes.copyOf 20 ((K.keccak256 pub.tail).bytes.drop 12)

/-- `PubkeyBytesToTabiPubKey`: the error is dropped, and the nil key dereferenced. -/
def pubkeyBytesToTabiPubKey (pub : Bytes) : Outcome Bytes :=
  match K.compressPubkey pub with
  | none => .error .nilDereference
  | some key => .ok key

/-- `GetAddressesFromPubkeyBytes`: the EVM address, the Cosmos address and the compressed key. -/
def getAddressesFromPubkeyBytes (pubkey : Bytes) : Fallible (Address × AccAddress × Bytes) := do
  let evmAddr ← pubkeyToEVMAddress K pubkey
  let tabiPubkey ← ofOutcome (pubkeyBytesToTabiPubKey K pubkey)
  return (evmAddr, K.pubkeyAddress tabiPubkey, tabiPubkey)

def getAddresses (V R S : ℤ) (data : Hash) : Fallible (Address × AccAddress × Bytes) := do
  let pubkey ← recoverPubkey K data R S V true
  getAddressesFromPubkeyBytes K pubkey

theorem recoverPlain_eq (sighash : Hash) (R S Vb : ℤ) (homestead : Bool) :
    Geth.recoverPlain K.toCrypto sighash R S Vb homestead =
      recoverPubkey K sighash R S Vb homestead >>= pubkeyToEVMAddress K := by
  simp only [Geth.recoverPlain, recoverPubkey, bind_assoc, not_le]
  rfl

def RecoversPoints : Prop :=
  ∀ sighash sig pub, K.ecrecover sighash sig = .ok pub → (K.compressPubkey pub).isSome

variable {K}

theorem getAddresses_map_evmAddr (hK : RecoversPoints K) (V R S : ℤ) (data : Hash) :
    (getAddresses K V R S data).map Prod.fst = Geth.recoverPlain K.toCrypto data R S V true := by
  rw [recoverPlain_eq, getAddresses]
  cases hpub : recoverPubkey K data R S V true with
  | error e => rfl
  | ok pub =>
    -- the key came from recovery, so it has a compressed form
    obtain ⟨key, hkey⟩ : ∃ key, K.compressPubkey pub = some key := by
      obtain ⟨_, -, h⟩ := bind_eq_ok.mp hpub
      obtain ⟨_, -, h⟩ := bind_eq_ok.mp h
      obtain ⟨sig, -, h⟩ := bind_eq_ok.mp h
      exact Option.isSome_iff_exists.mp (hK data sig pub (mapError_eq_ok.mp h))
    change (getAddressesFromPubkeyBytes K pub).map Prod.fst = pubkeyToEVMAddress K pub
    unfold getAddressesFromPubkeyBytes
    cases pubkeyToEVMAddress K pub with
    | error e => rfl
    | ok evmAddr =>
      simp only [pubkeyBytesToTabiPubKey, hkey]
      rfl

theorem recoverPlain_ne_panic (C : Geth.Crypto) (sighash : Hash) (R S Vb : ℤ) (homestead : Bool)
    (p : Panic) : Geth.recoverPlain C sighash R S Vb homestead ≠ .error (.panic p) := by
  refine noPanic_bind (noPanic_require _ _) (fun _ _ => ?_) p
  refine noPanic_bind (noPanic_require _ _) fun _ hsig => ?_
  obtain ⟨sig, hbytes⟩ := Geth.signatureBytes_ok (require_eq_ok.mp hsig)
  refine noPanic_bind (by rw [hbytes]; exact noPanic_ok sig) fun _ _ => ?_
  refine noPanic_bind (noPanic_err _) fun _ _ => ?_
  exact noPanic_bind (noPanic_require _ _) fun _ _ => noPanic_ok _

theorem recoverPlain_error (C : Geth.Crypto) (sighash : Hash) (R S : ℤ) {Vb : ℤ} (homestead : Bool)
    (h : ∀ n : UInt8, n = 0 ∨ n = 1 → Vb.natAbs < 2 ^ 8 → (Geth.uint64 Vb - 27).toUInt8 ≠ n) :
    Geth.recoverPlain C sighash R S Vb homestead = .error (.err Geth.errInvalidSig) := by
  unfold Geth.recoverPlain
  by_cases hV : Vb.natAbs < 2 ^ 8
  · have hsig : ¬ Geth.validateSignatureValues (Geth.uint64 Vb - 27).toUInt8 R S homestead := by
      intro hsig
      obtain ⟨-, -, -, -, hv⟩ := Geth.validateSignatureValues_eq_true hsig
      exact h _ hv hV rfl
    simp only [require, if_pos hV, if_neg hsig]
    rfl
  · simp only [require, if_neg hV]
    rfl

end Tabi.Association
