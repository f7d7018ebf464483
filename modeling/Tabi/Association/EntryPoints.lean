import Tabi.Ante.Preprocess
import Tabi.Association.Helper

/-!
# Association — the entry points

The places of the repository that write the two address tables, each with the check it makes first.
-/

namespace Tabi.Association

open Support StateDB Fallible

variable {β γ : Type} (K : Keepers β γ)

def isAccountBalancePositive (v : Stores β γ) (tabiAddr : AccAddress) (evmAddr : Address) : Bool :=
  0 < K.bank.getBalance v tabiAddr || 0 < K.bank.getBalance v evmAddr.bytes ||
    0 < K.bank.getWeiBalance v tabiAddr || 0 < K.bank.getWeiBalance v evmAddr.bytes

/-- `EVMPreprocessDecorator.AnteHandle` after `Preprocess`: the stores, and whether the chain of
decorators ends here. -/
def evmPreprocess (v : Stores β γ) (derived : Ante.Derived) : Fallible (Stores β γ × Bool) := do
  let tabiAddr := derived.senderTabiAddr
  let evmAddr := derived.senderEVMAddr
  let pubkey := derived.pubKey.getD []
  let isAssociated := (getEVMAddress v tabiAddr).isSome
  if derived.isAssociate ∧ isAssociated then
    .error (.err "account already has association set: invalid request")
  else if derived.isAssociate then do
    require (isAccountBalancePositive K v tabiAddr evmAddr)
      "account needs to have a positive balance to force association: insufficient funds"
    let v ← associateAddresses K v tabiAddr evmAddr pubkey
    return (v, true)
  else if isAssociated then return (v, false)
  else do
    let v ← associateAddresses K v tabiAddr evmAddr pubkey
    return (v, false)

theorem evmPreprocess_cases {K : Keepers β γ} {v v' : Stores β γ} {derived : Ante.Derived}
    {done : Bool} (h : evmPreprocess K v derived = .ok (v', done)) :
    derived.isAssociate = done ∧ (v' = v ∨ associateAddresses K v derived.senderTabiAddr
      derived.senderEVMAddr (derived.pubKey.getD []) = .ok v') := by
  unfold evmPreprocess at h
  dsimp only at h
  split at h
  · cases h
  · split at h
    · rename_i hassoc
      obtain ⟨_, -, h⟩ := bind_eq_ok.mp h
      obtain ⟨v₁, h₁, h⟩ := bind_eq_ok.mp h
      cases h
      exact ⟨hassoc, .inr h₁⟩
    · rename_i hassoc
      have hfalse : derived.isAssociate = false := Bool.eq_false_iff.mpr hassoc
      split at h
      · cases h
        exact ⟨hfalse, .inl rfl⟩
      · obtain ⟨v₁, h₁, h⟩ := bind_eq_ok.mp h
        cases h
        exact ⟨hfalse, .inr h₁⟩

def signerEVMAddress (v : Stores β γ) (signer : AccAddress) : Outcome (Option Address) := do
  match ← K.getPubKey v.acc signer with
  | none => return none
  | some key =>
    match K.crypto.parsePubkey key with
    | none => return none
    | some pub =>
      match pubkeyToEVMAddress K.crypto pub with
      | .error _ => return none
      | .ok evmAddr => return some evmAddr

def associateSigner (isTxMsgAssociate : Bool) (v : Stores β γ) (signer : AccAddress) :
    Fallible (Stores β γ) := do
  if (getEVMAddress v signer).isSome then return v
  else do
    match ← ofOutcome (signerEVMAddress K v signer) with
    | none => return v
    | some evmAddr => do
      let v ← migrateBalance K (mapAddress K v signer evmAddr) evmAddr signer
      require (isTxMsgAssociate = true →
          0 < K.bank.getBalance v signer ∨ 0 < K.bank.getWeiBalance v signer)
        "account needs to have a positive balance to force association: insufficient funds"
      return v

def evmAddressDecorator (isTxMsgAssociate : Bool) (v : Stores β γ) (signers : List AccAddress) :
    Fallible (Stores β γ) :=
  signers.foldlM (associateSigner K isTxMsgAssociate) v

def precompileAssociate (v : Stores β γ) (evmAddr : Address) (tabiAddr : AccAddress)
    (pubkey : Bytes) : Fallible (Stores β γ) := do
  require ((getEVMAddress v tabiAddr).isSome = false)
    "address %s is already associated with evm address %s"
  associateAddresses K v tabiAddr evmAddr pubkey

/-- `associate`: the key is recovered from a signature over a message. -/
def associate (v : Stores β γ) (vValue rValue sValue : ℤ) (customMessage : Bytes) :
    Fallible (Stores β γ) := do
  let (evmAddr, tabiAddr, pubkey) ← getAddresses K.crypto (vValue + 27) rValue sValue
    (K.crypto.keccak256 customMessage)
  precompileAssociate K v evmAddr tabiAddr pubkey

def associatePublicKey (v : Stores β γ) (pubKeyBytes : Bytes) : Fallible (Stores β γ) :=
  match K.crypto.parsePubkey pubKeyBytes with
  | none => .error (.err "invalid public key")
  | some uncompressedPubKey => do
    let (evmAddr, tabiAddr, pubkey) ← getAddressesFromPubkeyBytes K.crypto uncompressedPubKey
    precompileAssociate K v evmAddr tabiAddr pubkey

/-- `AssociateContractAddress`; `isContract` is whether `GetContractInfo` finds the address. -/
def associateContractAddress (v : Stores β γ) (isContract : Bool) (addr : AccAddress) :
    Fallible (Stores β γ) := do
  require (isContract = true) "no wasm contract found at the given address"
  require ((getEVMAddress v addr).isSome = false) "contract already has an associated address"
  return mapAddress K v addr (FixedBytes.ofBytes 20 addr)

/-- The parts of `GenesisState` that are written to the EVM store, with their addresses parsed. -/
structure GenesisState where
  addressAssociations : List (AccAddress × Address)
  codes : List (Address × Bytes)
  states : List (Address × Hash × Hash)
  nonces : List (Address × UInt64)
  serialized : List (Bytes × Bytes)

/-- The loop over the associations, which both `InitGenesis` functions run. -/
def mapAll (v : Stores β γ) (l : List (AccAddress × Address)) : Stores β γ :=
  l.foldl (fun v aa => mapAddress K v aa.1 aa.2) v

def setContractCode (v : Stores β γ) (addr : Address) (code : Bytes) : Stores β γ :=
  (setCode K.toKeepers v addr code).writes • v

def setEntries (v : Stores β γ) (genState : GenesisState) : Stores β γ :=
  let v := genState.states.foldl
    (fun v s => (setState s.1 s.2.1 s.2.2 : Effect β γ).writes • v) v
  let v := genState.nonces.foldl (fun v n => (setNonce n.1 n.2 : Effect β γ).writes • v) v
  genState.serialized.foldl (fun v e => (Writes.ofEvm (Patch.set e.1 e.2) : Writes β γ) • v) v

/-- `InitGenesis`: the fee collector is associated with the coinbase, then the listed pairs
twice over, then code and the other entries. -/
def initGenesis (v : Stores β γ) (coinbase : Address) (genState : GenesisState) : Stores β γ :=
  let v := mapAddress K v K.feeCollectorModuleAddress coinbase
  let v := mapAll K v genState.addressAssociations
  let v := mapAll K v genState.addressAssociations
  let v := genState.codes.foldl (fun v c => setContractCode K v c.1 c.2) v
  setEntries v genState

end Tabi.Association
