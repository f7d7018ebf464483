import Tabi.Association.EntryPoints
import Tabi.BaseFee.Adjust
import Tabi.Registry.Pointers
import Tabi.Settlement.EndBlock

/-!
# Genesis — export and import

`ExportGenesis` (`x/evm/genesis.go`) goes through the EVM store, part by part: associations, codes,
storage and nonces become records with their addresses as texts, and the entries under six more
prefixes are copied as they are.
-/

namespace Tabi.Genesis

open Support StateDB

structure Params extends BaseFee.Params where
  whitelistedCwCodeHashesForDelegateCall : List Bytes
  registerPointerDisabled : Bool

structure AddressAssociation where
  tabiAddress : Bytes
  ethAddress : Bytes

structure Code where
  address : Bytes
  code : Bytes

structure ContractState where
  address : Bytes
  key : Bytes
  value : Bytes

structure Nonce where
  address : Bytes
  nonce : UInt64

structure Serialized where
  pref : Bytes
  key : Bytes
  value : Bytes

structure GenesisState where
  params : Params
  addressAssociations : List AddressAssociation
  codes : List Code
  states : List ContractState
  nonces : List Nonce
  serialized : List Serialized

/-- Addresses as texts: `AccAddress.String` and `sdk.AccAddressFromBech32`, `Address.Hex` and
`common.HexToAddress`. -/
structure Texts extends Registry.Bech32 where
  hex : Address → Bytes
  hexToAddress : Bytes → Address

def uint64 (bz : Bytes) : Outcome UInt64 :=
  if bz.length < 8 then .error .indexOutOfRange else .ok (.ofNat (beNat (bz.take 8)))

def iterate (s : SortedStore Bytes Bytes) (pref : Bytes) : List (Bytes × Bytes) :=
  (s.scan pref.isPrefixOf).map fun e => (e.1.drop pref.length, e.2)

section Export

variable (T : Texts) (s : SortedStore Bytes Bytes)

def exportAssociations : List AddressAssociation :=
  (iterate s [0x01]).map fun e => ⟨T.string e.2, T.hex (.ofBytes 20 e.1)⟩

def exportCodes : List Code :=
  (iterate s [0x07]).map fun e => ⟨T.hex (.ofBytes 20 e.1), e.2⟩

def exportStates : Outcome (List ContractState) :=
  (iterate s [0x03]).mapM fun e =>
    if e.1.length < 20 then .error .indexOutOfRange
    else .ok ⟨T.hex (.ofBytes 20 (e.1.take 20)),
      (FixedBytes.ofBytes 32 (e.1.drop 20)).bytes, (FixedBytes.ofBytes 32 e.2).bytes⟩

def exportNonces : Outcome (List Nonce) :=
  (iterate s [0x0a]).mapM fun e => do
    let nonce ← uint64 e.2
    return ⟨T.hex (.ofBytes 20 e.1), nonce⟩

def serializedPrefixes : List Bytes := [[0x0b], [0x0d], [0x0e], [0x15], [0x16], [0x17]]

def exportSerialized : List Serialized :=
  serializedPrefixes.flatMap fun pref => (iterate s pref).map fun e => ⟨pref, e.1, e.2⟩

def exportGenesis (params : Params) : Outcome GenesisState := do
  let states ← exportStates T s
  let nonces ← exportNonces T s
  return ⟨params, exportAssociations T s, exportCodes T s, states, nonces, exportSerialized s⟩

end Export

def Params.validatePairs (p : Params) : Except BaseFee.ParamsError Unit := do
  BaseFee.validatePriorityNormalizer p.priorityNormalizer
  BaseFee.validateBaseFeePerGas p.baseFeePerGas
  BaseFee.validateBaseFeeAdjustment p.maxDynamicBaseFeeUpwardAdjustment
  BaseFee.validateBaseFeeAdjustment p.maxDynamicBaseFeeDownwardAdjustment
  BaseFee.validateMinFeePerGas p.minimumFeePerGas
  BaseFee.validateDeliverTxHookWasmGasLimit p.deliverTxHookWasmGasLimit
  BaseFee.validateMaxFeePerGas p.maximumFeePerGas

def setParams (p : Params) : Outcome Params :=
  match p.validatePairs with
  | .error _ => .error (.raised "value from ParamSetPair is invalid")
  | .ok _ => .ok p

def Serialized.storeKey (e : Serialized) : Bytes :=
  if e.key.length = 0 then e.pref else e.pref ++ e.key

def GenesisState.parse (T : Texts) (g : GenesisState) : Outcome Association.GenesisState := do
  let addressAssociations ← g.addressAssociations.mapM fun aa => do
    let tabiAddress ← Registry.mustAccAddressFromBech32 T.toBech32 aa.tabiAddress
    return (tabiAddress, T.hexToAddress aa.ethAddress)
  return {
    addressAssociations := addressAssociations
    codes := g.codes.map fun c => (T.hexToAddress c.address, c.code)
    states := g.states.map fun s =>
      (T.hexToAddress s.address, FixedBytes.ofBytes 32 s.key, FixedBytes.ofBytes 32 s.value)
    nonces := g.nonces.map fun n => (T.hexToAddress n.address, n.nonce)
    serialized := g.serialized.map fun e => (e.storeKey, e.value) }

def pointerCWCodeKey (k : Registry.CW) : Bytes :=
  let byte : UInt8 := match k with
    | .erc20 => 0x3
    | .erc721 => 0x4
    | .erc1155 => 0x6
  [0x16, byte] ++ beBytes 2 k.currentVersion.toNat

/-- What is around the module: the keepers, the texts of addresses, and `GetCoinbaseAddress`. -/
structure Env (β γ : Type) where
  keepers : Association.Keepers β γ
  texts : Texts
  coinbase : Address

variable {β γ : Type} (env : Env β γ)

/-- The code of one kind of CosmWasm pointers; `codeIDs` is what `Create` returns, `none` an error,
which is logged. -/
def storePointerCode (codeIDs : Registry.CW → Option UInt64) (v : Stores β γ) (k : Registry.CW) :
    Stores β γ :=
  match codeIDs k with
  | none => v
  | some id => (Writes.ofEvm (Patch.set (pointerCWCodeKey k) (beBytes 8 id.toNat)) : Writes β γ) • v

def storePointerCodes (codeIDs : Registry.CW → Option UInt64) (v : Stores β γ) : Stores β γ :=
  [Registry.CW.erc20, .erc721, .erc1155].foldl (storePointerCode codeIDs) v

def keeperInitGenesis (codeIDs : Registry.CW → Option UInt64) (v : Stores β γ)
    (gs : Association.GenesisState) : Stores β γ :=
  let v := Association.mapAddress env.keepers v env.keepers.feeCollectorModuleAddress env.coinbase
  let v := Association.mapAll env.keepers v gs.addressAssociations
  storePointerCodes codeIDs v

def importState (codeIDs : Registry.CW → Option UInt64) (v : Stores β γ)
    (gs : Association.GenesisState) : Stores β γ :=
  let v := keeperInitGenesis env codeIDs v gs
  let v := Association.mapAll env.keepers v gs.addressAssociations
  let v := gs.codes.foldl (fun v c => Association.setContractCode env.keepers v c.1 c.2) v
  Association.setEntries v gs

def initGenesis (codeIDs : Registry.CW → Option UInt64) (v : Stores β γ) (g : GenesisState) :
    Outcome (Params × Stores β γ) := do
  let params ← setParams g.params
  let gs ← g.parse env.texts
  return (params, importState env codeIDs v gs)

/-- `GetStoredPointerCodeID`, for a kind of CosmWasm pointers. -/
def getStoredPointerCodeID (v : Stores β γ) (k : Registry.CW) : Outcome UInt64 :=
  match v.evm (pointerCWCodeKey k) with
  | none => .ok 0
  | some bz => uint64 bz

def blockBloomKey (height : Int64) : Bytes := 0x0d :: beBytes 8 height.toUInt64.toNat

def getLegacyBlockBloomCutoffHeight (v : Stores β γ) : Outcome Int64 :=
  match v.evm [0x1a] with
  | none => .ok 0
  | some [] => .ok 0
  | some bz => do return (← uint64 bz).toInt64

def setLegacyBlockBloomCutoffHeight (height : Int64) : Effect β γ where
  writes := .ofEvm (Patch.set [0x1a] (beBytes 8 height.toUInt64.toNat))

def bloomOf : Option Bytes → Outcome (FixedBytes 256 × Bool)
  | none => .ok (.zero 256, false)
  | some bz => do return (← Settlement.bytesToBloom bz, true)

def getBlockBloomWithExists (v : Stores β γ) (height : Int64) : Outcome (FixedBytes 256 × Bool) :=
  match v.evm [0x0d] with
  | some bz => bloomOf (some bz)
  | none => do
    let cutoff ← getLegacyBlockBloomCutoffHeight v
    if cutoff = 0 ∨ height < cutoff then bloomOf (v.evm (blockBloomKey height)) else bloomOf none

def getLegacyBlockBloom (v : Stores β γ) (height : Int64) : Outcome (FixedBytes 256) :=
  match v.evm (blockBloomKey height) with
  | some bz => Settlement.bytesToBloom bz
  | none => .ok (.zero 256)

structure DecJSON where
  marshalJSON : ℤ → Bytes
  unmarshalJSON : Bytes → Except String ℤ

variable (J : DecJSON) (p : Params) (v : Stores β γ)

/-- The fee at a key: without one, the minimum.  A minimum that was checked is not nil. -/
def baseFeeAt (key : Bytes) : Outcome ℤ :=
  match v.evm key with
  | none => .ok p.minimumFeePerGas
  | some bz =>
    match J.unmarshalJSON bz with
    | .error e => .error (.raised e)
    | .ok d => .ok d

def getCurrBaseFeePerGas : Outcome ℤ := baseFeeAt J p v [0x1b]
def getNextBaseFeePerGas : Outcome ℤ := baseFeeAt J p v [0x1c]

def setCurrBaseFeePerGas (baseFeePerGas : ℤ) : Effect β γ where
  writes := .ofEvm (Patch.set [0x1b] (J.marshalJSON baseFeePerGas))

def setNextBaseFeePerGas (baseFeePerGas : ℤ) : Effect β γ where
  writes := .ofEvm (Patch.set [0x1c] (J.marshalJSON baseFeePerGas))

end Tabi.Genesis
