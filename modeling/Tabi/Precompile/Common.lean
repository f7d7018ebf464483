import Tabi.Precompile.Metered

/-!
# Precompile — what the executors share

`precompiles/common/precompiles.go`: the arguments of a call, the checks every method makes, the
payment helpers, and the two functions around an executor, `prepare` and `runAndCalculateGas`.
-/

namespace Tabi.Precompile

open Support

abbrev Coins := List (Bytes × ℤ)

structure ExecuteMsg where
  contractAddress : Bytes
  msg : Bytes
  coins : Bytes
  deriving DecidableEq

inductive Value where
  | address (a : Address)
  | string (s : Bytes)
  | bool (b : Bool)
  | int (z : ℤ)
  | uint8 (n : UInt8)
  | uint16 (n : UInt16)
  | uint64 (n : UInt64)
  | bytes (b : Bytes)
  | strings (l : List Bytes)
  | bytesList (l : List Bytes)
  | coins (l : Coins)
  | rewards (perValidator : List (Bytes × Coins)) (total : Coins)
  | executeMsgs (l : List ExecuteMsg)
  deriving DecidableEq

namespace Value

def address? : Value → Option Address
  | .address a => some a
  | _ => none

def string? : Value → Option Bytes
  | .string s => some s
  | _ => none

def int? : Value → Option ℤ
  | .int z => some z
  | _ => none

def uint16? : Value → Option UInt16
  | .uint16 n => some n
  | _ => none

def uint64? : Value → Option UInt64
  | .uint64 n => some n
  | _ => none

def bytes? : Value → Option Bytes
  | .bytes b => some b
  | _ => none

def strings? : Value → Option (List Bytes)
  | .strings l => some l
  | _ => none

def executeMsgs? : Value → Option (List ExecuteMsg)
  | .executeMsgs l => some l
  | _ => none

end Value

structure CallInfo where
  caller : Address
  callingContract : Address
  value : Option ℤ
  readOnly : Bool
  calledFromDelegateCall : Bool
  isEVM : Bool
  blockTime : ℤ
  deriving DecidableEq

/-- What the ABI coder answers: packed bytes, or the text of its error. -/
abbrev Packed := Except Bytes Bytes

structure MsgExecuteContract where
  sender : Bytes
  contract : Bytes
  msg : Bytes
  funds : Coins

structure MsgInstantiateContract where
  sender : Bytes
  codeID : UInt64
  label : Bytes
  funds : Coins
  msg : Bytes
  admin : Bytes

structure MsgSend where
  fromAddress : Bytes
  toAddress : Bytes
  amount : Coins

structure Height where
  revisionNumber : UInt64
  revisionHeight : UInt64
  deriving DecidableEq

structure MsgTransfer where
  sourcePort : Bytes
  sourceChannel : Bytes
  token : Bytes × ℤ
  sender : Bytes
  receiver : Bytes
  timeoutHeight : Height
  timeoutTimestamp : UInt64
  memo : Bytes

structure ERCMetadata where
  name : Bytes
  symbol : Bytes
  decimals : UInt8

structure DenomUnit where
  denom : Bytes
  exponent : UInt32
  aliases : List Bytes

structure Metadata where
  name : Bytes
  symbol : Bytes
  denomUnits : List DenomUnit

structure Pointer where
  address : Address
  version : UInt16
  found : Bool

/-- The kinds of pointee `UpsertERC…Pointer` registers an ERC contract for. -/
inductive Pointee where
  | native | cw20 | cw721 | cw1155
  deriving DecidableEq

structure Keepers (σ : Type) where
  priorityNormalizer : ℤ
  baseDenom : Bytes
  render : Panic → Bytes
  hex : Address → Bytes
  accAddressString : AccAddress → Bytes
  pack : String → List Value → Packed
  accAddressFromBech32 : Bytes → GasM σ AccAddress
  valAddressFromBech32 : Bytes → GasM σ Bytes
  newCoin : Bytes → ℤ → GasM σ (Bytes × ℤ)
  newCoins : List (Bytes × ℤ) → GasM σ Coins
  amountOf : Coins → Bytes → GasM σ ℤ
  unmarshalCoins : Bytes → GasM σ Coins
  unmarshalObject : Bytes → GasM σ (Bytes → Option Value)
  hexDecodeString : Bytes → GasM σ Bytes
  keccak256Hash : Bytes → Hash
  getAddresses : ℤ → ℤ → ℤ → Hash → GasM σ (Address × AccAddress × Bytes)
  parsePubKey : Bytes → GasM σ Bytes
  getAddressesFromPubkeyBytes : Bytes → GasM σ (Address × AccAddress × Bytes)
  validateMsgSend : MsgSend → GasM σ Unit
  validateMsgExecute : MsgExecuteContract → GasM σ Unit
  validateMsgInstantiate : MsgInstantiateContract → GasM σ Unit
  validateRawContractMessage : Bytes → GasM σ Unit
  validateMsgTransfer : MsgTransfer → GasM σ Unit
  parseDefaultTimeoutHeight : GasM σ Height
  defaultRelativePacketTimeoutTimestamp : UInt64
  getTabiAddress : Address → GasM σ (Option AccAddress)
  getTabiAddressOrDefault : Address → GasM σ AccAddress
  getEVMAddress : AccAddress → GasM σ (Option Address)
  associateAddresses : AccAddress → Address → Bytes → GasM σ Unit
  getERC20NativePointer : Bytes → GasM σ Pointer
  getERC20CW20Pointer : Bytes → GasM σ Pointer
  getERC721CW721Pointer : Bytes → GasM σ Pointer
  getERC1155CW1155Pointer : Bytes → GasM σ Pointer
  upsertERCPointer : Pointee → Bytes → ERCMetadata → GasM σ Address
  getBalance : AccAddress → Bytes → GasM σ ℤ
  getAllBalances : AccAddress → GasM σ Coins
  getDenomMetaData : Bytes → GasM σ (Option Metadata)
  getSupply : Bytes → GasM σ ℤ
  bankSend : MsgSend → GasM σ Unit
  sendCoins : AccAddress → AccAddress → Coins → GasM σ Unit
  sendCoinsAndWei : AccAddress → AccAddress → ℤ → ℤ → GasM σ Unit
  hasAccount : AccAddress → GasM σ Bool
  setNewAccount : AccAddress → GasM σ Unit
  wasmInstantiate : UInt64 → AccAddress → AccAddress → Bytes → Bytes → Coins →
    GasM σ (AccAddress × Bytes)
  wasmExecute : AccAddress → AccAddress → Bytes → Coins → GasM σ Bytes
  querySmartSafe : AccAddress → Bytes → GasM σ Bytes
  setWithdrawAddr : AccAddress → AccAddress → GasM σ Unit
  withdrawDelegationRewards : AccAddress → Bytes → GasM σ Coins
  withdrawValidatorCommission : Bytes → GasM σ Coins
  delegationTotalRewards : Bytes → GasM σ (List (Bytes × Coins) × Coins)
  ibcTransfer : MsgTransfer → GasM σ Unit
  /-- `GetChannel`: the connection hops of the channel. -/
  getChannel : Bytes → Bytes → GasM σ (Option (List Bytes))
  /-- `GetConnection`: the client of the connection. -/
  getConnection : Bytes → GasM σ (Option Bytes)
  getClientState : Bytes → GasM σ (Option Height)
  getClientConsensusState : Bytes → Height → GasM σ (Option UInt64)
  deriving Inhabited

section

variable {σ α : Type} (K : Keepers σ)

open GasM

def index (l : List α) (i : Nat) : GasM σ α :=
  match l[i]? with
  | some a => pure a
  | none => panic .indexOutOfRange

def assertArg (project : Value → Option α) (args : List Value) (i : Nat) : GasM σ α := do
  match project (← index args i) with
  | some a => return a
  | none => panic (.raised "interface conversion")

def validateArgsLength (args : List Value) (length : Nat) : GasM σ Unit := do
  if args.length ≠ length then
    failText ("expected " ++ toString length ++ " arguments but got " ++ toString args.length)

def validateNonPayable (value : Option ℤ) : GasM σ Unit := do
  if value.any (· ≠ 0) then failText "sending funds to a non-payable function"

variable {m : GasMeter} {w w' : World σ}

theorem validateNonPayable_eq_ok {value : Option ℤ} {u : Unit}
    (h : validateNonPayable value m w = .ok (u, w')) : w' = w := by
  unfold validateNonPayable at h
  split at h
  · cases h
  · cases h
    rfl

theorem validateArgsLength_eq_ok {args : List Value} {n : Nat} {u : Unit}
    (h : validateArgsLength args n m w = .ok (u, w')) : w' = w := by
  unfold validateArgsLength at h
  split at h
  · cases h
  · cases h
    rfl

theorem assertArg_eq_ok {project : Value → Option α} {args : List Value} {i : Nat} {a : α}
    (h : assertArg project args i m w = .ok (a, w')) :
    w' = w ∧ ∃ v, args[i]? = some v ∧ project v = some a := by
  unfold assertArg at h
  obtain ⟨v, w₁, hv, hp⟩ := GasM.steps_iff.mp h
  unfold index at hv
  cases hget : args[i]? with
  | none =>
    rw [hget] at hv
    cases hv
  | some v' =>
    rw [hget] at hv
    cases hv
    cases hproj : project v with
    | none =>
      rw [hproj] at hp
      cases hp
    | some a' =>
      rw [hproj] at hp
      cases hp
      exact ⟨rfl, v, rfl, hproj⟩

def associationMissingErr (address : Bytes) : Bytes :=
  Bytes.ofString "address " ++ address ++ Bytes.ofString " is not linked"

def handlePaymentUtabi (precompileAddr payer : AccAddress) (value : ℤ) :
    GasM σ (Bytes × ℤ) := do
  let (atabi, wei) ← ofOutcome (splitAtabiWeiAmount value)
  if wei ≠ 0 then
    failText ("selected precompile function does not allow payment with non-zero wei " ++
      "remainder: received " ++ toString value)
  let coin ← K.newCoin K.baseDenom atabi
  K.sendCoins precompileAddr payer (← K.newCoins [coin])
  return coin

def handlePaymentUtabiWei (precompileAddr payer : AccAddress) (value : ℤ) : GasM σ (ℤ × ℤ) := do
  let (atabi, wei) ← ofOutcome (splitAtabiWeiAmount value)
  K.sendCoinsAndWei precompileAddr payer atabi wei
  return (atabi, wei)

/-- What `Execute` returns: packed outputs, remaining gas, and an error. -/
structure Reply where
  ret : Bytes
  remainingGas : UInt64
  err : Option Bytes
  deriving DecidableEq

def getRemainingGas : GasM σ UInt64 := fun m w =>
  ofOutcome (getEvmGasLimitFromCtx K.priorityNormalizer m w.consumed) m w

def respond (packed : Packed) : GasM σ Reply := do
  let remainingGas ← getRemainingGas K
  match packed with
  | .ok ret => return ⟨ret, remainingGas, none⟩
  | .error e => return ⟨[], remainingGas, some e⟩

structure Executor (σ : Type) where
  Method : Type
  /-- `ExtractMethodID`, `MethodById` and `Inputs.Unpack` of the input. -/
  unpack : Bytes → Except Bytes (Method × List Value)
  execute : Method → CallInfo → List Value → GasM σ Reply

def prepare (p : Executor σ) (input : Bytes) : Except Bytes (p.Method × List Value) :=
  if input.length < 4 then .error (Bytes.ofString "input too short to extract method ID")
  else p.unpack input

def errExecutionReverted : Bytes := Bytes.ofString "execution reverted"

/-- The deferred function: an error becomes the returned data. -/
def reverted (message : Bytes) (remainingGas : UInt64) : Reply :=
  ⟨message, remainingGas, some errExecutionReverted⟩

/-- `RunAndCalculateGas`: the reply, and the world when there was no error. -/
def runAndCalculateGas (p : Executor σ) (adjust : UInt64 → UInt64) (input : Bytes)
    (suppliedGas : UInt64) (c : CallInfo) (store : σ) (events : List Event) :
    Outcome (Reply × Option (World σ)) := do
  match prepare p input with
  | .error e => return (reverted e 0, none)
  | .ok (method, args) =>
    let gasLimit ← getCosmosGasLimitFromEVMGas K.priorityNormalizer suppliedGas
    -- the executor emits into an event manager of its own
    match p.execute method c args ⟨gasLimit, adjust⟩ ⟨0, store, []⟩ with
    | .error (.panic q) => .error q
    | .error (.error e) => return (reverted e 0, none)
    | .ok (r, w) =>
      match r.err with
      | some e => return (reverted e r.remainingGas, none)
      | none => return (r, some { w with events := events ++ w.events })

theorem respond_eq_ok {packed : Packed} {r : Reply} (h : respond K packed m w = .ok (r, w')) :
    w' = w := by
  obtain ⟨g, w₁, hg, h⟩ := GasM.steps_iff.mp h
  obtain ⟨-, e⟩ := GasM.ofOutcome_eq_ok.mp hg
  cases packed <;> cases h <;> exact e

theorem runAndCalculateGas_ok {p : Executor σ} {adjust : UInt64 → UInt64} {input : Bytes}
    {suppliedGas : UInt64} {c : CallInfo} {store : σ} {events : List Event} {reply : Reply}
    {o : Option (World σ)}
    (h : runAndCalculateGas K p adjust input suppliedGas c store events = .ok (reply, o))
    (hok : reply.err = none) :
    ∃ method args limit w', prepare p input = .ok (method, args) ∧
      getCosmosGasLimitFromEVMGas K.priorityNormalizer suppliedGas = .ok limit ∧
      p.execute method c args ⟨limit, adjust⟩ ⟨0, store, []⟩ = .ok (reply, w') ∧
      o = some { w' with events := events ++ w'.events } := by
  unfold runAndCalculateGas at h
  split at h
  · cases h
    cases hok
  · rename_i method args hprepare
    obtain ⟨limit, hlimit, h⟩ := bind_eq_ok.mp h
    split at h
    · cases h
    · cases h
      cases hok
    · rename_i r w' hrun
      split at h
      · cases h
        cases hok
      · cases h
        exact ⟨method, args, limit, w', hprepare, hlimit, hrun, rfl⟩

end

end Tabi.Precompile
