import Tabi.Geth.Transaction

/-!
# Geth — signers

How go-ethereum recovers the sender of a transaction (`core/types/transaction_signing.go`).
-/

namespace Tabi.Geth

open Support Fallible

structure Crypto extends Hasher where
  keccak256 : Bytes → Hash
  /-- `crypto.Ecrecover`: the public key of a hash and a signature, or an error. -/
  ecrecover : Hash → Bytes → Except String Bytes

def errInvalidSig : String := "invalid transaction v, r, s values"

def errTxTypeNotSupported : String := "transaction type not supported"

def errInvalidChainId : String := "invalid chain id for signer"

def secp256k1N : ℤ := 0xfffffffffffffffffffffffffffffffebaaedce6af48a03bbfd25e8cd0364141

def secp256k1halfN : ℤ := secp256k1N / 2

def validateSignatureValues (v : UInt8) (r s : ℤ) (homestead : Bool) : Bool :=
  if r < 1 ∨ s < 1 then false
  else if homestead ∧ secp256k1halfN < s then false
  else r < secp256k1N ∧ s < secp256k1N ∧ (v = 0 ∨ v = 1)

/-- The signature in the 65 bytes that recovery takes: `copy` into a slice whose start would be
negative panics. -/
def signatureBytes (r s : ℤ) (v : UInt8) : Outcome Bytes :=
  let r := natBytes r.natAbs
  let s := natBytes s.natAbs
  if 32 < r.length ∨ 32 < s.length then .error .indexOutOfRange
  else .ok (List.replicate (32 - r.length) 0 ++ r ++ (List.replicate (32 - s.length) 0 ++ s) ++ [v])

section Recovery

variable (C : Crypto)

def recoverPlain (sighash : Hash) (R S Vb : ℤ) (homestead : Bool) : Fallible Address := do
  require (Vb.natAbs < 2 ^ 8) errInvalidSig
  let V := (uint64 Vb - 27).toUInt8
  require (validateSignatureValues V R S homestead) errInvalidSig
  let sig ← ofOutcome (signatureBytes R S V)
  let pub ← (C.ecrecover sighash sig).mapError .err
  require (pub.head? = some 4) "invalid public key"
  return FixedBytes.copyOf 20 ((C.keccak256 pub.tail).bytes.drop 12)

def legacyFields (tx : Transaction) : List Rlp :=
  [.uint64 tx.nonce, .int tx.gasPrice, .uint64 tx.gas, .recipient tx.recipient, .int tx.value,
    .bytes tx.data]

/-- `FrontierSigner.Hash`; `HomesteadSigner` has the same. -/
def frontierHash (tx : Transaction) : Hash := C.rlpHash (.list (legacyFields tx))

def homesteadSender (tx : Transaction) : Fallible Address := do
  require (tx.type = legacyTxType) errTxTypeNotSupported
  recoverPlain C (frontierHash C tx) tx.rawR tx.rawS tx.rawV true

structure EIP155Signer where
  chainId : ℤ
  chainIdMul : ℤ

def newEIP155Signer (chainId : ℤ) : EIP155Signer := ⟨chainId, chainId * 2⟩

def checkChainId (s : EIP155Signer) (tx : Transaction) : Fallible Unit :=
  require (tx.chainId = s.chainId) errInvalidChainId

def eip155Hash (s : EIP155Signer) (tx : Transaction) : Hash :=
  C.rlpHash (.list (legacyFields tx ++ [.int s.chainId, .int 0, .int 0]))

def eip155Sender (s : EIP155Signer) (tx : Transaction) : Fallible Address := do
  require (tx.type = legacyTxType) errTxTypeNotSupported
  if tx.isProtected = false then homesteadSender C tx
  else do
    checkChainId s tx
    recoverPlain C (eip155Hash C s tx) tx.rawR tx.rawS (tx.rawV - s.chainIdMul - 8) true

def eip2930Hash (s : EIP155Signer) (tx : Transaction) : Hash :=
  if tx.type = legacyTxType then eip155Hash C s tx
  else if tx.type = accessListTxType then
    C.prefixedRlpHash tx.type (.list
      [.int s.chainId, .uint64 tx.nonce, .int tx.gasPrice, .uint64 tx.gas, .recipient tx.recipient,
        .int tx.value, .bytes tx.data, .accessList tx.accessList])
  else emptyHash

def eip2930Sender (s : EIP155Signer) (tx : Transaction) : Fallible Address :=
  if tx.type = legacyTxType then eip155Sender C s tx
  else do
    require (tx.type = accessListTxType) errTxTypeNotSupported
    checkChainId s tx
    recoverPlain C (eip2930Hash C s tx) tx.rawR tx.rawS (tx.rawV + 27) true

def londonHash (s : EIP155Signer) (tx : Transaction) : Hash :=
  if tx.type ≠ dynamicFeeTxType then eip2930Hash C s tx
  else C.prefixedRlpHash tx.type (.list
    [.int s.chainId, .uint64 tx.nonce, .int tx.gasTipCap, .int tx.gasFeeCap, .uint64 tx.gas,
      .recipient tx.recipient, .int tx.value, .bytes tx.data, .accessList tx.accessList])

def londonSender (s : EIP155Signer) (tx : Transaction) : Fallible Address :=
  if tx.type ≠ dynamicFeeTxType then eip2930Sender C s tx
  else do
    checkChainId s tx
    recoverPlain C (londonHash C s tx) tx.rawR tx.rawS (tx.rawV + 27) true

def cancunHash (s : EIP155Signer) (tx : Transaction) : Hash :=
  if tx.type ≠ blobTxType then londonHash C s tx
  else C.prefixedRlpHash tx.type (.list
    [.int s.chainId, .uint64 tx.nonce, .int tx.gasTipCap, .int tx.gasFeeCap, .uint64 tx.gas,
      .recipient tx.recipient, .int tx.value, .bytes tx.data, .accessList tx.accessList,
      .int (tx.blobGasFeeCap.getD 0), .hashes tx.blobHashes])

def cancunSender (s : EIP155Signer) (tx : Transaction) : Fallible Address :=
  if tx.type ≠ blobTxType then londonSender C s tx
  else do
    checkChainId s tx
    recoverPlain C (cancunHash C s tx) tx.rawR tx.rawS (tx.rawV + 27) true

inductive Signer where
  | london (s : EIP155Signer)
  | cancun (s : EIP155Signer)

def newLondonSigner (chainId : ℤ) : Signer := .london (newEIP155Signer chainId)

def newCancunSigner (chainId : ℤ) : Signer := .cancun (newEIP155Signer chainId)

def Signer.hash : Signer → Transaction → Hash
  | .london s => londonHash C s
  | .cancun s => cancunHash C s

def Signer.sender : Signer → Transaction → Fallible Address
  | .london s => londonSender C s
  | .cancun s => cancunSender C s

end Recovery

theorem validateSignatureValues_eq_true {v : UInt8} {r s : ℤ} {homestead : Bool}
    (h : validateSignatureValues v r s homestead = true) :
    1 ≤ r ∧ r < secp256k1N ∧ 1 ≤ s ∧ s < secp256k1N ∧ (v = 0 ∨ v = 1) := by
  unfold validateSignatureValues at h
  split at h
  · cases h
  · split at h
    · cases h
    · obtain ⟨hr, hs, hv⟩ := of_decide_eq_true h
      exact ⟨by omega, hr, by omega, hs, hv⟩

theorem length_natBytes_of_lt_secp256k1N {z : ℤ} (h₀ : 1 ≤ z) (h : z < secp256k1N) :
    (natBytes z.natAbs).length ≤ 32 := by
  have hN : secp256k1N < 256 ^ 32 := by decide
  apply length_natBytes_le
  omega

theorem signatureBytes_ok {v : UInt8} {r s : ℤ} {homestead : Bool}
    (h : validateSignatureValues v r s homestead = true) :
    ∃ sig, signatureBytes r s v = .ok sig := by
  obtain ⟨hr₀, hr, hs₀, hs, -⟩ := validateSignatureValues_eq_true h
  have hlr := length_natBytes_of_lt_secp256k1N hr₀ hr
  have hls := length_natBytes_of_lt_secp256k1N hs₀ hs
  unfold signatureBytes
  rw [if_neg (by omega)]
  exact ⟨_, rfl⟩

end Tabi.Geth
