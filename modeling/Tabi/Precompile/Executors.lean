import Tabi.Precompile.Common

/-!
# Precompile — the executors

The six precompiles that meter their own gas: bank, wasmd, pointer, addr, distribution and ibc.
-/

namespace Tabi.Precompile

open Support GasM

variable {σ : Type} (K : Keepers σ)

/-! ### bank -/

namespace Bank

inductive Method where
  | send | sendNative | balance | allBalances | name | symbol | decimals | supply
  deriving DecidableEq

def address : Address := .ofBytes 20 [0x10, 0x01]

/-- `accAddressFromArg`: an address that is not associated is cast. -/
def accAddressFromArg (args : List Value) (i : Nat) : GasM σ AccAddress := do
  let addr ← assertArg Value.address? args i
  if addr = .zero 20 then failText "invalid addr"
  match ← K.getTabiAddress addr with
  | some tabiAddr => return tabiAddr
  | none => return addr.bytes

def send (c : CallInfo) (args : List Value) : GasM σ Packed := do
  if c.readOnly then failText "cannot call send from staticcall"
  validateNonPayable c.value
  validateArgsLength args 4
  let denom ← assertArg Value.string? args 2
  if denom = [] then failText "invalid denom"
  let pointer ← K.getERC20NativePointer denom
  if !pointer.found || pointer.address ≠ c.caller then
    fail (Bytes.ofString "only pointer " ++ K.hex pointer.address ++ Bytes.ofString " can send " ++
      denom ++ Bytes.ofString " but got " ++ K.hex c.caller)
  let amount ← assertArg Value.int? args 3
  if amount = 0 then return K.pack "send" [.bool true]
  let sender ← accAddressFromArg K args 0
  let receiver ← accAddressFromArg K args 1
  let coin ← K.newCoin denom (← ofOutcome (SdkInt.ofBig amount))
  let msg := ⟨K.accAddressString sender, K.accAddressString receiver, ← K.newCoins [coin]⟩
  K.validateMsgSend msg
  K.bankSend msg
  return K.pack "send" [.bool true]

/-- `sendNative`: the value of the call goes from the caller to a Cosmos address. -/
def sendNative (c : CallInfo) (args : List Value) : GasM σ Packed := do
  if c.readOnly then failText "cannot call sendNative from staticcall"
  if c.calledFromDelegateCall then failText "cannot delegatecall sendNative"
  validateArgsLength args 1
  let some value := c.value.filter (· ≠ 0) | failText "set `value` field to non-zero to send"
  let some sender ← K.getTabiAddress c.caller | failText "invalid addr"
  let some receiverAddr := (← index args 0).string?.filter (· ≠ []) | failText "invalid addr"
  let receiver ← K.accAddressFromBech32 receiverAddr
  let (atabi, wei) ←
    handlePaymentUtabiWei K (← K.getTabiAddressOrDefault address) sender value
  K.sendCoinsAndWei sender receiver atabi wei
  if !(← K.hasAccount receiver) then K.setNewAccount receiver
  return K.pack "sendNative" [.bool true]

def balance (c : CallInfo) (args : List Value) : GasM σ Packed := do
  validateNonPayable c.value
  validateArgsLength args 2
  let addr ← accAddressFromArg K args 0
  let denom ← assertArg Value.string? args 1
  if denom = [] then failText "invalid denom"
  return K.pack "balance" [.int (← K.getBalance addr denom)]

def allBalances (c : CallInfo) (args : List Value) : GasM σ Packed := do
  validateNonPayable c.value
  validateArgsLength args 1
  let addr ← accAddressFromArg K args 0
  return K.pack "all_balances" [.coins (← K.getAllBalances addr)]

def metadataField (method : String) (field : Metadata → Bytes) (c : CallInfo)
    (args : List Value) : GasM σ Packed := do
  validateNonPayable c.value
  validateArgsLength args 1
  let denom ← assertArg Value.string? args 0
  let some metadata ← K.getDenomMetaData denom
    | fail (Bytes.ofString "denom " ++ denom ++ Bytes.ofString " not found")
  return K.pack method [.string (field metadata)]

def name : CallInfo → List Value → GasM σ Packed := metadataField K "name" Metadata.name

def symbol : CallInfo → List Value → GasM σ Packed := metadataField K "symbol" Metadata.symbol

def decimals (c : CallInfo) (_ : List Value) : GasM σ Packed := do
  validateNonPayable c.value
  return K.pack "decimals" [.uint8 0]

def totalSupply (c : CallInfo) (args : List Value) : GasM σ Packed := do
  validateNonPayable c.value
  validateArgsLength args 1
  let denom ← assertArg Value.string? args 0
  return K.pack "supply" [.int (← K.getSupply denom)]

def executionReverted (p : Panic) : Bytes := Bytes.ofString "execution reverted: " ++ K.render p

def dispatch (c : CallInfo) (args : List Value) : Method → GasM σ Packed
  | .send => send K c args
  | .sendNative => sendNative K c args
  | .balance => balance K c args
  | .allBalances => allBalances K c args
  | .name => name K c args
  | .symbol => symbol K c args
  | .decimals => decimals K c args
  | .supply => totalSupply K c args

def execute (method : Method) (c : CallInfo) (args : List Value) : GasM σ Reply :=
  recovering (executionReverted K) (dispatch K c args method >>= respond K)

end Bank

/-! ### wasmd -/

namespace Wasmd

inductive Method where
  | instantiate | execute | executeBatch | query
  deriving DecidableEq

def address : Address := .ofBytes 20 [0x10, 0x02]

def coinsValue (coins : Coins) : GasM σ ℤ := do
  ofOutcome (SdkInt.mul (← K.amountOf coins K.baseDenom) atabiToWeiMultiplier)

def mismatched (value : Option ℤ) (amount : ℤ) : Bool :=
  match value with
  | none => decide (0 < amount)
  | some v => decide (amount ≠ v)

def pay (payer : AccAddress) (atabiAmt : ℤ) : GasM σ (Bytes × ℤ) := do
  let atabiAmtAsWei ← ofOutcome (SdkInt.mul atabiAmt atabiToWeiMultiplier)
  handlePaymentUtabi K (← K.getTabiAddressOrDefault address) payer atabiAmtAsWei

def instantiate (c : CallInfo) (args : List Value) : GasM σ Packed := do
  if c.readOnly then failText "cannot call instantiate from staticcall"
  validateArgsLength args 5
  if c.calledFromDelegateCall then failText "cannot delegatecall instantiate"
  let codeID ← assertArg Value.uint64? args 0
  let some creator ← K.getTabiAddress c.caller | fail (associationMissingErr (K.hex c.caller))
  let adminAddrStr ← assertArg Value.string? args 1
  let admin ← if adminAddrStr = [] then pure [] else K.accAddressFromBech32 adminAddrStr
  let msg ← assertArg Value.bytes? args 2
  let label ← assertArg Value.string? args 3
  let coins ← K.unmarshalCoins (← assertArg Value.bytes? args 4)
  if mismatched c.value (← coinsValue K coins) then
    failText "coin amount must equal value specified"
  K.validateMsgInstantiate ⟨K.accAddressString creator, codeID, label, coins, msg, adminAddrStr⟩
  let atabiAmt ← K.amountOf coins K.baseDenom
  if c.value.isSome && atabiAmt ≠ 0 then
    let coin ← pay K creator atabiAmt
    if coin.2 ≠ atabiAmt then failText "mismatch between coins and payment value"
  let (addr, data) ← K.wasmInstantiate codeID creator admin msg label coins
  return K.pack "instantiate" [.string (K.accAddressString addr), .bytes data]

def checkPointer (c : CallInfo) (contractAddr : Bytes) : GasM σ Unit := do
  if c.calledFromDelegateCall then
    let erc20 ← K.getERC20CW20Pointer contractAddr
    let erc721 ← K.getERC721CW721Pointer contractAddr
    let erc1155 ← K.getERC1155CW1155Pointer contractAddr
    if [erc20, erc721, erc1155].all fun p => !p.found || p.address ≠ c.callingContract then
      fail (K.hex c.callingContract ++ Bytes.ofString " is not a pointer of " ++ contractAddr)

def batchValue (executeMsgs : List ExecuteMsg) : GasM σ ℤ :=
  executeMsgs.foldlM (fun sum executeMsg => do
    return sum + (← coinsValue K (← K.unmarshalCoins executeMsg.coins))) 0

def executeOne (c : CallInfo) (valueLeft : Option ℤ) (executeMsg : ExecuteMsg) :
    GasM σ (Option ℤ × Bytes) := do
  checkPointer K c executeMsg.contractAddress
  let contractAddr ← K.accAddressFromBech32 executeMsg.contractAddress
  let some sender ← K.getTabiAddress c.caller | fail (associationMissingErr (K.hex c.caller))
  let coins ← K.unmarshalCoins executeMsg.coins
  let atabiAmt ← K.amountOf coins K.baseDenom
  let mut left := valueLeft
  if let some v := valueLeft then
    if atabiAmt ≠ 0 then
      let coin ← pay K sender atabiAmt
      left := some (v - atabiAmt * atabiToWeiMultiplier)
      if v - atabiAmt * atabiToWeiMultiplier < 0 then
        failText "insufficient value provided for payment"
      if coin.2 ≠ atabiAmt then failText "mismatch between coins and payment value"
  K.validateMsgExecute
    ⟨K.accAddressString sender, K.accAddressString contractAddr, executeMsg.msg, coins⟩
  let res ← K.wasmExecute contractAddr sender executeMsg.msg coins
  return (left, res)

def executeBatch (c : CallInfo) (args : List Value) : GasM σ Packed := do
  if c.readOnly then failText "cannot call execute from staticcall"
  validateArgsLength args 1
  let executeMsgs ← assertArg Value.executeMsgs? args 0
  if mismatched c.value (← batchValue K executeMsgs) then
    failText "sum of coin amounts must equal value specified"
  let (left, responses) ← executeMsgs.foldlM (fun (left, responses) executeMsg => do
    let (left, res) ← executeOne K c left executeMsg
    return (left, responses ++ [res])) (c.value, ([] : List Bytes))
  if left.any (· ≠ 0) then
    failText "value remaining after execution, must match provided amounts exactly"
  return K.pack "execute_batch" [.bytesList responses]

def executeMessage (c : CallInfo) (args : List Value) : GasM σ Packed := do
  if c.readOnly then failText "cannot call execute from staticcall"
  validateArgsLength args 3
  let contractAddrStr ← assertArg Value.string? args 0
  checkPointer K c contractAddrStr
  let contractAddr ← K.accAddressFromBech32 contractAddrStr
  let some sender ← K.getTabiAddress c.caller | fail (associationMissingErr (K.hex c.caller))
  let msg ← assertArg Value.bytes? args 1
  let coins ← K.unmarshalCoins (← assertArg Value.bytes? args 2)
  if mismatched c.value (← coinsValue K coins) then
    failText "coin amount must equal value specified"
  K.validateMsgExecute ⟨K.accAddressString sender, K.accAddressString contractAddr, msg, coins⟩
  let atabiAmt ← K.amountOf coins K.baseDenom
  if c.value.isSome && atabiAmt ≠ 0 then
    let coin ← pay K sender atabiAmt
    if coin.2 ≠ atabiAmt then failText "mismatch between coins and payment value"
  let res ← K.wasmExecute contractAddr sender msg coins
  return K.pack "execute" [.bytes res]

def query (c : CallInfo) (args : List Value) : GasM σ Packed := do
  validateNonPayable c.value
  validateArgsLength args 2
  let contractAddr ← K.accAddressFromBech32 (← assertArg Value.string? args 0)
  let req ← assertArg Value.bytes? args 1
  K.validateRawContractMessage req
  return K.pack "query" [.bytes (← K.querySmartSafe contractAddr req)]

def dispatch (c : CallInfo) (args : List Value) : Method → GasM σ Packed
  | .instantiate => instantiate K c args
  | .execute => executeMessage K c args
  | .executeBatch => executeBatch K c args
  | .query => query K c args

def execute (method : Method) (c : CallInfo) (args : List Value) : GasM σ Reply := do
  if method ≠ .query && !c.isEVM then
    failText "tabi does not support CW->EVM->CW call pattern"
  recovering K.render (dispatch K c args method >>= respond K)

end Wasmd

/-! ### pointer -/

namespace Pointers

inductive Method where
  | addNativePointer | addCW20Pointer | addCW721Pointer | addCW1155Pointer
  deriving DecidableEq

def nativeMetadata (metadata : Metadata) : ERCMetadata :=
  metadata.denomUnits.foldl (fun e denomUnit =>
    if e.decimals.toNat < denomUnit.exponent.toNat ∧ denomUnit.exponent.toNat ≤ 255 then
      { name := denomUnit.aliases.headD denomUnit.denom
        symbol := denomUnit.denom
        decimals := .ofNat denomUnit.exponent.toNat }
    else e) ⟨metadata.name, metadata.symbol, 0⟩

def addNative (c : CallInfo) (args : List Value) : GasM σ Packed := do
  validateNonPayable c.value
  validateArgsLength args 1
  let token ← assertArg Value.string? args 0
  let some metadata ← K.getDenomMetaData token
    | fail (Bytes.ofString "denom " ++ token ++ Bytes.ofString (" does not have metadata stored " ++
        "and thus can only have its pointer set through gov proposal"))
  let contractAddr ← K.upsertERCPointer .native token (nativeMetadata metadata)
  return K.pack "addNativePointer" [.address contractAddr]

def stringField (formattedRes : Bytes → Option Value) (field : String) : GasM σ Bytes :=
  match (formattedRes (Bytes.ofString field)).bind Value.string? with
  | some s => pure s
  | none => panic (.raised "interface conversion")

/-- What `AddCW20`, `AddCW721` and `AddCW1155` share: the contract is asked for its name and
symbol. -/
def addCW (method : String) (pointee : Pointee) (question : String) (c : CallInfo)
    (args : List Value) : GasM σ Packed := do
  validateNonPayable c.value
  validateArgsLength args 1
  let cwAddr ← assertArg Value.string? args 0
  let cwAddress ← K.accAddressFromBech32 cwAddr
  let res ← K.querySmartSafe cwAddress (Bytes.ofString question)
  let formattedRes ← K.unmarshalObject res
  let name ← stringField formattedRes "name"
  let symbol ← stringField formattedRes "symbol"
  let contractAddr ← K.upsertERCPointer pointee cwAddr ⟨name, symbol, 0⟩
  return K.pack method [.address contractAddr]

def addCW20 : CallInfo → List Value → GasM σ Packed :=
  addCW K "addCW20Pointer" .cw20 "\x7b\"token_info\":\x7b\x7d\x7d"

def addCW721 : CallInfo → List Value → GasM σ Packed :=
  addCW K "addCW721Pointer" .cw721 "\x7b\"contract_info\":\x7b\x7d\x7d"

def addCW1155 : CallInfo → List Value → GasM σ Packed :=
  addCW K "addCW1155Pointer" .cw1155 "\x7b\"contract_info\":\x7b\x7d\x7d"

def dispatch (c : CallInfo) (args : List Value) : Method → GasM σ Packed
  | .addNativePointer => addNative K c args
  | .addCW20Pointer => addCW20 K c args
  | .addCW721Pointer => addCW721 K c args
  | .addCW1155Pointer => addCW1155 K c args

def execute (method : Method) (c : CallInfo) (args : List Value) : GasM σ Reply := do
  if c.readOnly then failText "cannot call pointer precompile from staticcall"
  if c.calledFromDelegateCall then failText "cannot delegatecall pointer"
  dispatch K c args method >>= respond K

end Pointers

/-! ### addr -/

namespace Addr

inductive Method where
  | getTabiAddr | getEvmAddr | associate | associatePubKey
  deriving DecidableEq

def getTabiAddr (c : CallInfo) (args : List Value) : GasM σ Packed := do
  validateNonPayable c.value
  validateArgsLength args 1
  let addr ← assertArg Value.address? args 0
  let some tabiAddr ← K.getTabiAddress addr
    | fail (Bytes.ofString "EVM address " ++ K.hex addr ++ Bytes.ofString " is not associated")
  return K.pack "getTabiAddr" [.string (K.accAddressString tabiAddr)]

def getEvmAddr (c : CallInfo) (args : List Value) : GasM σ Packed := do
  validateNonPayable c.value
  validateArgsLength args 1
  let arg ← assertArg Value.string? args 0
  let tabiAddr ← K.accAddressFromBech32 arg
  let some evmAddr ← K.getEVMAddress tabiAddr
    | fail (Bytes.ofString "tabi address " ++ arg ++ Bytes.ofString " is not associated")
  return K.pack "getEvmAddr" [.address evmAddr]

/-- `decodeHexString`: an optional `0x`, and a zero before an odd number of digits. -/
def decodeHexString (hexString : Bytes) : GasM σ Bytes :=
  let trimmed := if (Bytes.ofString "0x").isPrefixOf hexString then hexString.drop 2 else hexString
  K.hexDecodeString (if trimmed.length % 2 ≠ 0 then Bytes.ofString "0" ++ trimmed else trimmed)

def associateAddresses (method : String) (evmAddr : Address) (tabiAddr : AccAddress)
    (pubkey : Bytes) : GasM σ Packed := do
  if (← K.getEVMAddress tabiAddr).isSome then
    fail (Bytes.ofString "address " ++ K.accAddressString tabiAddr ++
      Bytes.ofString " is already associated with evm address " ++ K.hex evmAddr)
  K.associateAddresses tabiAddr evmAddr pubkey
  return K.pack method [.string (K.accAddressString tabiAddr), .address evmAddr]

def associate (c : CallInfo) (args : List Value) : GasM σ Packed := do
  validateNonPayable c.value
  validateArgsLength args 4
  let v ← assertArg Value.string? args 0
  let r ← assertArg Value.string? args 1
  let s ← assertArg Value.string? args 2
  let customMessage ← assertArg Value.string? args 3
  let rBytes ← decodeHexString K r
  let sBytes ← decodeHexString K s
  let vBytes ← decodeHexString K v
  let (evmAddr, tabiAddr, pubkey) ← K.getAddresses (beNat vBytes + 27) (beNat rBytes)
    (beNat sBytes) (K.keccak256Hash customMessage)
  associateAddresses K "associate" evmAddr tabiAddr pubkey

def associatePublicKey (c : CallInfo) (args : List Value) : GasM σ Packed := do
  validateNonPayable c.value
  validateArgsLength args 1
  let pubKeyBytes ← K.hexDecodeString (← assertArg Value.string? args 0)
  let uncompressedPubKey ← K.parsePubKey pubKeyBytes
  let (evmAddr, tabiAddr, pubkey) ← K.getAddressesFromPubkeyBytes uncompressedPubKey
  associateAddresses K "associatePubKey" evmAddr tabiAddr pubkey

def dispatch (c : CallInfo) (args : List Value) : Method → GasM σ Packed
  | .getTabiAddr => getTabiAddr K c args
  | .getEvmAddr => getEvmAddr K c args
  | .associate => do
    if c.readOnly then failText "cannot call associate precompile from staticcall"
    associate K c args
  | .associatePubKey => do
    if c.readOnly then failText "cannot call associate pub key precompile from staticcall"
    associatePublicKey K c args

def execute (method : Method) (c : CallInfo) (args : List Value) : GasM σ Reply :=
  recovering (Bank.executionReverted K) (dispatch K c args method >>= respond K)

end Addr

/-! ### distribution -/

namespace Distribution

inductive Method where
  | setWithdrawAddress | withdrawDelegationRewards | withdrawMultipleDelegationRewards
  | withdrawValidatorCommission | rewards
  deriving DecidableEq

/-- `accAddressFromArg`: here an address must be associated. -/
def accAddressFromArg (args : List Value) (i : Nat) : GasM σ AccAddress := do
  let addr ← assertArg Value.address? args i
  if addr = .zero 20 then failText "invalid addr"
  let some tabiAddr ← K.getTabiAddress addr
    | failText "cannot use an unassociated address as withdraw address"
  return tabiAddr

def getDelegator (caller : Address) : GasM σ AccAddress := do
  let some delegator ← K.getTabiAddress caller | fail (associationMissingErr (K.hex caller))
  return delegator

def validateInput (c : CallInfo) (args : List Value) (expectedArgsLength : Nat) :
    GasM σ Unit := do
  validateNonPayable c.value
  validateArgsLength args expectedArgsLength

def withdraw (delegator : AccAddress) (validatorAddress : Bytes) : GasM σ Coins := do
  K.withdrawDelegationRewards delegator (← K.valAddressFromBech32 validatorAddress)

def setWithdrawAddress (c : CallInfo) (args : List Value) : GasM σ Packed := do
  validateNonPayable c.value
  validateArgsLength args 1
  let delegator ← getDelegator K c.caller
  let withdrawAddr ← accAddressFromArg K args 0
  K.setWithdrawAddr delegator withdrawAddr
  return K.pack "setWithdrawAddress" [.bool true]

def withdrawDelegationRewards (c : CallInfo) (args : List Value) : GasM σ Packed := do
  validateInput c args 1
  let delegator ← getDelegator K c.caller
  let _ ← withdraw K delegator (← assertArg Value.string? args 0)
  return K.pack "withdrawDelegationRewards" [.bool true]

/-- `withdrawMultipleDelegationRewards`: an empty list of validators withdraws nothing. -/
def withdrawMultipleDelegationRewards (c : CallInfo) (args : List Value) : GasM σ Packed := do
  validateInput c args 1
  let delegator ← getDelegator K c.caller
  let validators ← assertArg Value.strings? args 0
  validators.forM fun valAddr => do
    let _ ← withdraw K delegator valAddr
  return K.pack "withdrawMultipleDelegationRewards" [.bool true]

def withdrawValidatorCommission (c : CallInfo) (args : List Value) : GasM σ Packed := do
  validateInput c args 1
  let validatorAddr ← K.valAddressFromBech32 (← assertArg Value.string? args 0)
  let _ ← K.withdrawValidatorCommission validatorAddr
  return K.pack "withdrawValidatorCommission" [.bool true]

def rewards (args : List Value) : GasM σ Packed := do
  validateArgsLength args 1
  let delegator ← accAddressFromArg K args 0
  let (perValidator, total) ← K.delegationTotalRewards (K.accAddressString delegator)
  return K.pack "rewards" [.rewards perValidator total]

def dispatch (c : CallInfo) (args : List Value) : Method → GasM σ Packed
  | .setWithdrawAddress => setWithdrawAddress K c args
  | .withdrawDelegationRewards => withdrawDelegationRewards K c args
  | .withdrawMultipleDelegationRewards => withdrawMultipleDelegationRewards K c args
  | .withdrawValidatorCommission => withdrawValidatorCommission K c args
  | .rewards => rewards K args

/-- `Execute`: only `rewards` may be called from a static call. -/
def execute (method : Method) (c : CallInfo) (args : List Value) : GasM σ Reply := do
  if c.calledFromDelegateCall then failText "cannot delegatecall distr"
  if method ≠ .rewards && c.readOnly then failText "cannot call distr precompile from staticcall"
  recovering K.render (dispatch K c args method >>= respond K)

end Distribution

/-! ### ibc -/

namespace Ibc

inductive Method where
  | transfer | transferWithDefaultTimeout
  deriving DecidableEq

structure ValidatedArgs where
  sender : AccAddress
  receiverAddress : Bytes
  port : Bytes
  channelID : Bytes
  denom : Bytes
  amount : ℤ

def validateCommonArgs (c : CallInfo) (args : List Value) : GasM σ ValidatedArgs := do
  let some sender ← K.getTabiAddress c.caller | failText "caller is not a valid SEI address"
  let some receiverAddress := (← index args 0).string?.filter (· ≠ [])
    | failText "receiverAddress is not a string or empty"
  let some port := (← index args 1).string? | failText "port is not a string"
  if port = [] then failText "port cannot be empty"
  let some channelID := (← index args 2).string? | failText "channelID is not a string"
  if channelID = [] then failText "channelID cannot be empty"
  let denom ← assertArg Value.string? args 3
  if denom = [] then failText "invalid denom"
  let some amount := (← index args 4).int? | failText "amount is not a big.Int"
  return ⟨sender, receiverAddress, port, channelID, denom, amount⟩

def sendTransfer (a : ValidatedArgs) (amount : ℤ) (height : Height) (timeoutTimestamp : UInt64)
    (memo : Bytes) : GasM σ Unit := do
  let msg := ⟨a.port, a.channelID, (a.denom, amount), K.accAddressString a.sender,
    a.receiverAddress, height, timeoutTimestamp, memo⟩
  K.validateMsgTransfer msg
  K.ibcTransfer msg

def transfer (c : CallInfo) (args : List Value) : GasM σ Packed := do
  validateArgsLength args 9
  let a ← validateCommonArgs K c args
  if a.amount = 0 then return K.pack "transfer" [.bool true]
  let amount ← ofOutcome (SdkInt.ofBig a.amount)
  let some revisionNumber := (← index args 5).uint64? | failText "revisionNumber is not a uint64"
  let some revisionHeight := (← index args 6).uint64? | failText "revisionHeight is not a uint64"
  let some timeout := (← index args 7).uint64? | failText "timeoutTimestamp is not a uint64"
  let memo ← assertArg Value.string? args 8
  sendTransfer K a amount ⟨revisionNumber, revisionHeight⟩ timeout memo
  return K.pack "transfer" [.bool true]

/-- `getChannelConnection`: the client of the first hop's connection. -/
def getChannelConnection (port channelID : Bytes) : GasM σ Bytes := do
  let some hops ← K.getChannel port channelID | failText "channel not found"
  let some connection ← K.getConnection (← index hops 0) | failText "connection not found"
  return connection

def getConsensusLatestHeight (clientId : Bytes) : GasM σ Height := do
  let some latestHeight ← K.getClientState clientId | failText "could not get the client state"
  return latestHeight

def getAdjustedHeight (latest : Height) : GasM σ Height := do
  let timeout ← K.parseDefaultTimeoutHeight
  return ⟨latest.revisionNumber + timeout.revisionNumber,
    latest.revisionHeight + timeout.revisionHeight⟩

def getAdjustedTimestamp (blockTime : ℤ) (clientId : Bytes) (height : Height) :
    GasM σ UInt64 := do
  let consensusTimestamp := (← K.getClientConsensusState clientId height).getD 0
  if blockTime ≤ 0 then failText "block time is not greater than Jan 1st, 1970 12:00 AM"
  let now := UInt64.ofNat blockTime.toNat
  return (if consensusTimestamp < now then now else consensusTimestamp) +
    K.defaultRelativePacketTimeoutTimestamp

def transferWithDefaultTimeout (c : CallInfo) (args : List Value) : GasM σ Packed := do
  validateArgsLength args 6
  let a ← validateCommonArgs K c args
  if a.amount = 0 then return K.pack "transferWithDefaultTimeout" [.bool true]
  let amount ← ofOutcome (SdkInt.ofBig a.amount)
  let clientId ← getChannelConnection K a.port a.channelID
  let latestConsensusHeight ← getConsensusLatestHeight K clientId
  let height ← getAdjustedHeight K latestConsensusHeight
  let timeout ← getAdjustedTimestamp K c.blockTime clientId latestConsensusHeight
  let memo ← assertArg Value.string? args 5
  sendTransfer K a amount height timeout memo
  return K.pack "transferWithDefaultTimeout" [.bool true]

def dispatch (c : CallInfo) (args : List Value) : Method → GasM σ Packed
  | .transfer => transfer K c args
  | .transferWithDefaultTimeout => transferWithDefaultTimeout K c args

def execute (method : Method) (c : CallInfo) (args : List Value) : GasM σ Reply := do
  validateNonPayable c.value
  if c.readOnly then failText "cannot call IBC precompile from staticcall"
  if c.calledFromDelegateCall then failText "cannot delegatecall IBC"
  recovering K.render (dispatch K c args method >>= respond K)

end Ibc

/-! ### The precompiles -/

inductive Custom where
  | bank | wasmd | pointer | addr | distribution | ibc
  deriving DecidableEq

def Custom.Method : Custom → Type
  | .bank => Bank.Method
  | .wasmd => Wasmd.Method
  | .pointer => Pointers.Method
  | .addr => Addr.Method
  | .distribution => Distribution.Method
  | .ibc => Ibc.Method

def Custom.execute : (p : Custom) → p.Method → CallInfo → List Value → GasM σ Reply
  | .bank => Bank.execute K
  | .wasmd => Wasmd.execute K
  | .pointer => Pointers.execute K
  | .addr => Addr.execute K
  | .distribution => Distribution.execute K
  | .ibc => Ibc.execute K

def Custom.executor (p : Custom) (unpack : Bytes → Except Bytes (p.Method × List Value)) :
    Executor σ := ⟨p.Method, unpack, p.execute K⟩

end Tabi.Precompile
