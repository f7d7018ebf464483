import Tabi.Chain.Types
import Tabi.Support.Hex

/-!
# Geth — transactions

The transactions of go-ethereum, as far as this repository builds and reads them: the four kinds of
`types.TxData`, `types.Transaction` over them, and the texts of addresses and hashes.
-/

namespace Tabi.Geth

open Support

/-- `Address.Hex` (`checksumHex`): lowercase digits, where a letter is made a capital if the digit
of the text's own hash at its position is above seven. -/
def checksumHex (keccak256 : Bytes → Hash) (a : Address) : Bytes :=
  let buf := Hex.encode a.bytes
  let hash := keccak256 buf
  Bytes.ascii "0x" ++ List.zipWith (fun c hashByte => if 57 < c ∧ 7 < hashByte then c - 32 else c)
    buf (Hex.nibbles hash.bytes)

def hashHex (h : Hash) : Bytes := Bytes.ascii "0x" ++ Hex.encode h.bytes

def hexToAddress (s : Bytes) : Address := FixedBytes.ofBytes 20 (Hex.ofText s)

def hexToHash (s : Bytes) : Hash := FixedBytes.ofBytes 32 (Hex.ofText s)

def isHexAddress (s : Bytes) : Bool :=
  (Hex.strip0x s).length == 2 * 20 && Hex.isHex (Hex.strip0x s)

theorem ascii_0x_append (s : Bytes) : Bytes.ascii "0x" ++ s = 48 :: 120 :: s := rfl

theorem values_checksum (a : Address) (hash : Hash) :
    (List.zipWith (fun c hashByte => if 57 < c ∧ 7 < hashByte then c - 32 else c)
      (Hex.encode a.bytes) (Hex.nibbles hash.bytes)).map Hex.value?
        = (Hex.nibbles a.bytes).map some := by
  rw [← Hex.values_encode]
  apply Hex.values_zipWith
  · intro c hc hashByte
    obtain ⟨n, hn, rfl⟩ := List.mem_map.mp hc
    have hn16 := Hex.nibbles_lt a.bytes n hn
    split
    · rename_i h
      rw [Hex.value_digit_upper n hn16 h.1, Hex.value_digit n hn16]
    · rfl
  · rw [Hex.length_encode, Hex.length_nibbles, a.length_eq, hash.length_eq]
    decide

@[simp] theorem hexToAddress_checksumHex (keccak256 : Bytes → Hash) (a : Address) :
    hexToAddress (checksumHex keccak256 a) = a := by
  rw [hexToAddress, checksumHex, ascii_0x_append, Hex.ofText_of_values (values_checksum a _),
    FixedBytes.ofBytes_bytes]

@[simp] theorem hexToHash_hashHex (h : Hash) : hexToHash (hashHex h) = h := by
  rw [hexToHash, hashHex, ascii_0x_append, Hex.ofText_of_values (Hex.values_encode h.bytes),
    FixedBytes.ofBytes_bytes]

theorem checksumHex_ne_nil (keccak256 : Bytes → Hash) (a : Address) :
    checksumHex keccak256 a ≠ [] := by
  rw [checksumHex, ascii_0x_append]
  exact List.cons_ne_nil _ _

structure AccessTuple where
  address : Address
  storageKeys : List Hash
  deriving DecidableEq

abbrev AccessList := List AccessTuple

structure BlobTxSidecar where
  blobs : List (FixedBytes 131072)
  commitments : List (FixedBytes 48)
  proofs : List (FixedBytes 48)
  deriving DecidableEq

/-- `types.LegacyTx`, over numbers `B`; `recipient` is the field `To`, absent for a contract
creation. -/
structure LegacyTx (B : Type) where
  nonce : UInt64
  gasPrice : B
  gas : UInt64
  recipient : Option Address
  value : B
  data : Bytes
  v : B
  r : B
  s : B
  deriving DecidableEq

structure AccessListTx (B : Type) where
  chainID : B
  nonce : UInt64
  gasPrice : B
  gas : UInt64
  recipient : Option Address
  value : B
  data : Bytes
  accessList : AccessList
  v : B
  r : B
  s : B
  deriving DecidableEq

structure DynamicFeeTx (B : Type) where
  chainID : B
  nonce : UInt64
  gasTipCap : B
  gasFeeCap : B
  gas : UInt64
  recipient : Option Address
  value : B
  data : Bytes
  accessList : AccessList
  v : B
  r : B
  s : B
  deriving DecidableEq

structure BlobTx (U : Type) where
  chainID : U
  nonce : UInt64
  gasTipCap : U
  gasFeeCap : U
  gas : UInt64
  recipient : Address
  value : U
  data : Bytes
  accessList : AccessList
  blobFeeCap : U
  blobHashes : List Hash
  sidecar : Option BlobTxSidecar
  v : U
  r : U
  s : U
  deriving DecidableEq

inductive Inner (B U : Type) where
  | legacyTx (t : LegacyTx B)
  | accessListTx (t : AccessListTx B)
  | dynamicFeeTx (t : DynamicFeeTx B)
  | blobTx (t : BlobTx U)
  deriving DecidableEq

abbrev Uint256 := BitVec 256

abbrev TxData := Inner (Option ℤ) (Option Uint256)

abbrev Transaction := Inner ℤ Uint256

def newTx : TxData → Transaction
  | .legacyTx t => .legacyTx
      { nonce := t.nonce, gasPrice := t.gasPrice.getD 0, gas := t.gas, recipient := t.recipient
        value := t.value.getD 0, data := t.data
        v := t.v.getD 0, r := t.r.getD 0, s := t.s.getD 0 }
  | .accessListTx t => .accessListTx
      { chainID := t.chainID.getD 0, nonce := t.nonce, gasPrice := t.gasPrice.getD 0, gas := t.gas
        recipient := t.recipient, value := t.value.getD 0, data := t.data
        accessList := t.accessList, v := t.v.getD 0, r := t.r.getD 0, s := t.s.getD 0 }
  | .dynamicFeeTx t => .dynamicFeeTx
      { chainID := t.chainID.getD 0, nonce := t.nonce, gasTipCap := t.gasTipCap.getD 0
        gasFeeCap := t.gasFeeCap.getD 0, gas := t.gas, recipient := t.recipient
        value := t.value.getD 0, data := t.data, accessList := t.accessList
        v := t.v.getD 0, r := t.r.getD 0, s := t.s.getD 0 }
  | .blobTx t => .blobTx
      { chainID := t.chainID.getD 0, nonce := t.nonce, gasTipCap := t.gasTipCap.getD 0
        gasFeeCap := t.gasFeeCap.getD 0, gas := t.gas, recipient := t.recipient
        value := t.value.getD 0, data := t.data, accessList := t.accessList
        blobFeeCap := t.blobFeeCap.getD 0, blobHashes := t.blobHashes, sidecar := t.sidecar
        v := t.v.getD 0, r := t.r.getD 0, s := t.s.getD 0 }

/-- `uint256.MustFromBig`: nil stays nil, a number of more than 256 bits panics. -/
def mustFromBig : Option ℤ → Outcome (Option Uint256)
  | none => .ok none
  | some z =>
    if z.natAbs < 2 ^ 256 then .ok (some (BitVec.ofInt 256 z))
    else .error (.raised "overflow")

def toBig (u : Uint256) : ℤ := u.toNat

@[simp] theorem mustFromBig_toBig (u : Uint256) : mustFromBig (some (toBig u)) = .ok (some u) := by
  have hlt : (toBig u).natAbs < 2 ^ 256 := u.isLt
  have hu : BitVec.ofInt 256 (toBig u) = u := by
    rw [toBig, BitVec.ofInt_natCast, BitVec.ofNat_toNat, BitVec.setWidth_eq]
  rw [mustFromBig, if_pos hlt, hu]

def legacyTxType : UInt8 := 0
def accessListTxType : UInt8 := 1
def dynamicFeeTxType : UInt8 := 2
def blobTxType : UInt8 := 3

def uint64 (z : ℤ) : UInt64 := UInt64.ofNat z.natAbs

/-- `deriveChainId`: the subtraction on machine words wraps. -/
def deriveChainId (v : ℤ) : ℤ :=
  if v.natAbs < 2 ^ 64 then
    if uint64 v = 27 ∨ uint64 v = 28 then 0 else (((uint64 v - 35) / 2).toNat : ℤ)
  else (v - 35) / 2

def isProtectedV (v : ℤ) : Bool :=
  if v.natAbs < 2 ^ 8 then
    uint64 v != 27 && uint64 v != 28 && uint64 v != 1 && uint64 v != 0
  else true

namespace Transaction

def type : Transaction → UInt8
  | .legacyTx _ => legacyTxType
  | .accessListTx _ => accessListTxType
  | .dynamicFeeTx _ => dynamicFeeTxType
  | .blobTx _ => blobTxType

/-- `Transaction.ChainId`: of a legacy transaction, what `V` says. -/
def chainId : Transaction → ℤ
  | .legacyTx t => deriveChainId t.v
  | .accessListTx t => t.chainID
  | .dynamicFeeTx t => t.chainID
  | .blobTx t => toBig t.chainID

def isProtected : Transaction → Bool
  | .legacyTx t => isProtectedV t.v
  | _ => true

def nonce : Transaction → UInt64
  | .legacyTx t => t.nonce
  | .accessListTx t => t.nonce
  | .dynamicFeeTx t => t.nonce
  | .blobTx t => t.nonce

def gas : Transaction → UInt64
  | .legacyTx t => t.gas
  | .accessListTx t => t.gas
  | .dynamicFeeTx t => t.gas
  | .blobTx t => t.gas

def gasFeeCap : Transaction → ℤ
  | .legacyTx t => t.gasPrice
  | .accessListTx t => t.gasPrice
  | .dynamicFeeTx t => t.gasFeeCap
  | .blobTx t => toBig t.gasFeeCap

def gasPrice (tx : Transaction) : ℤ := gasFeeCap tx

def gasTipCap : Transaction → ℤ
  | .legacyTx t => t.gasPrice
  | .accessListTx t => t.gasPrice
  | .dynamicFeeTx t => t.gasTipCap
  | .blobTx t => toBig t.gasTipCap

/-- `Transaction.BlobGasFeeCap`: nil but for a blob transaction. -/
def blobGasFeeCap : Transaction → Option ℤ
  | .blobTx t => some (toBig t.blobFeeCap)
  | _ => none

def value : Transaction → ℤ
  | .legacyTx t => t.value
  | .accessListTx t => t.value
  | .dynamicFeeTx t => t.value
  | .blobTx t => toBig t.value

def data : Transaction → Bytes
  | .legacyTx t => t.data
  | .accessListTx t => t.data
  | .dynamicFeeTx t => t.data
  | .blobTx t => t.data

def recipient : Transaction → Option Address
  | .legacyTx t => t.recipient
  | .accessListTx t => t.recipient
  | .dynamicFeeTx t => t.recipient
  | .blobTx t => some t.recipient

def accessList : Transaction → AccessList
  | .legacyTx _ => []
  | .accessListTx t => t.accessList
  | .dynamicFeeTx t => t.accessList
  | .blobTx t => t.accessList

def blobHashes : Transaction → List Hash
  | .blobTx t => t.blobHashes
  | _ => []

/-- `Transaction.BlobGas`: `params.BlobTxBlobGasPerBlob` for each blob. -/
def blobGas (tx : Transaction) : UInt64 := 131072 * UInt64.ofNat (blobHashes tx).length

/-- `Transaction.Cost`: the gas, the blob gas of a blob transaction, and the value. -/
def cost (tx : Transaction) : ℤ :=
  gasPrice tx * (gas tx).toNat + (blobGasFeeCap tx).getD 0 * (blobGas tx).toNat + value tx

def blobTxSidecar : Transaction → Option BlobTxSidecar
  | .blobTx t => t.sidecar
  | _ => none

def rawV : Transaction → ℤ
  | .legacyTx t => t.v
  | .accessListTx t => t.v
  | .dynamicFeeTx t => t.v
  | .blobTx t => toBig t.v

def rawR : Transaction → ℤ
  | .legacyTx t => t.r
  | .accessListTx t => t.r
  | .dynamicFeeTx t => t.r
  | .blobTx t => toBig t.r

def rawS : Transaction → ℤ
  | .legacyTx t => t.s
  | .accessListTx t => t.s
  | .dynamicFeeTx t => t.s
  | .blobTx t => toBig t.s

end Transaction

theorem Transaction.type_eq_legacyTxType {tx : Transaction} :
    tx.type = legacyTxType ↔ ∃ t, tx = .legacyTx t := by
  cases tx with
  | legacyTx t => exact ⟨fun _ => ⟨t, rfl⟩, fun _ => rfl⟩
  | accessListTx t => exact ⟨(absurd · (by decide : accessListTxType ≠ legacyTxType)), nofun⟩
  | dynamicFeeTx t => exact ⟨(absurd · (by decide : dynamicFeeTxType ≠ legacyTxType)), nofun⟩
  | blobTx t => exact ⟨(absurd · (by decide : blobTxType ≠ legacyTxType)), nofun⟩

inductive Rlp where
  | int (z : ℤ)
  | bytes (b : Bytes)
  | list (l : List Rlp)

namespace Rlp

def uint64 (n : UInt64) : Rlp := .int n.toNat

def recipient : Option Address → Rlp
  | none => .bytes []
  | some a => .bytes a.bytes

def accessList (l : AccessList) : Rlp :=
  .list (l.map fun t =>
    .list [.bytes t.address.bytes, .list (t.storageKeys.map fun h => .bytes h.bytes)])

def hashes (l : List Hash) : Rlp := .list (l.map fun h => .bytes h.bytes)

end Rlp

structure Hasher where
  rlpHash : Rlp → Hash
  prefixedRlpHash : UInt8 → Rlp → Hash

def Hasher.hash (H : Hasher) : Transaction → Hash
  | .legacyTx t => H.rlpHash (.list
      [.uint64 t.nonce, .int t.gasPrice, .uint64 t.gas, .recipient t.recipient, .int t.value,
        .bytes t.data, .int t.v, .int t.r, .int t.s])
  | .accessListTx t => H.prefixedRlpHash accessListTxType (.list
      [.int t.chainID, .uint64 t.nonce, .int t.gasPrice, .uint64 t.gas, .recipient t.recipient,
        .int t.value, .bytes t.data, .accessList t.accessList, .int t.v, .int t.r, .int t.s])
  | .dynamicFeeTx t => H.prefixedRlpHash dynamicFeeTxType (.list
      [.int t.chainID, .uint64 t.nonce, .int t.gasTipCap, .int t.gasFeeCap, .uint64 t.gas,
        .recipient t.recipient, .int t.value, .bytes t.data, .accessList t.accessList,
        .int t.v, .int t.r, .int t.s])
  | .blobTx t => H.prefixedRlpHash blobTxType (.list
      [.int (toBig t.chainID), .uint64 t.nonce, .int (toBig t.gasTipCap),
        .int (toBig t.gasFeeCap), .uint64 t.gas, .bytes t.recipient.bytes,
        .int (toBig t.value), .bytes t.data, .accessList t.accessList,
        .int (toBig t.blobFeeCap), .hashes t.blobHashes,
        .int (toBig t.v), .int (toBig t.r), .int (toBig t.s)])

end Tabi.Geth
