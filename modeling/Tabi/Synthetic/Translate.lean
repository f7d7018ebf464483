import Tabi.Synthetic.Actions
import Tabi.Settlement.Deferred

/-!
# Synthetic — CosmWasm events as EVM logs

After a transaction, the `wasm` events of contracts that have an ERC pointer are translated into
logs of that pointer, and added to the transaction's receipt
(`AddCosmosEventsToEVMReceiptIfApplicable`, `app/receipt.go`).
-/

namespace Tabi.Synthetic

open Support Registry
open StateDB (Log)

def erc20ApprovalTopic : Hash :=
  bigToHash 0x8c5be1e5ebec7d5bd14f71427d1e84f3dd0314c0f7b2291e5b200ac8c7c3b925
def erc20TransferTopic : Hash :=
  bigToHash 0xddf252ad1be2c89b69c2b068fc378daa952ba7f163c4a11628f55a4df523b3ef
def erc721TransferTopic : Hash :=
  bigToHash 0xddf252ad1be2c89b69c2b068fc378daa952ba7f163c4a11628f55a4df523b3ef
def erc721ApprovalTopic : Hash :=
  bigToHash 0x8c5be1e5ebec7d5bd14f71427d1e84f3dd0314c0f7b2291e5b200ac8c7c3b925
def erc721ApproveAllTopic : Hash :=
  bigToHash 0x17307eab39ab6107e8899845ad3d59bd9653f200f220920489ca2b5937696c31
def erc1155TransferSingleTopic : Hash :=
  bigToHash 0xc3d58168c5ae7397731d063d5bbf3d657854427343f4c083240f7aacaa2d0f62
def erc1155TransferBatchTopic : Hash :=
  bigToHash 0x4a39dc06d4c0dbc64b70af90fd698a233a518aa5d07e595d983b8c0526c8f7fb
def erc1155ApprovalForAllTopic : Hash :=
  bigToHash 0x17307eab39ab6107e8899845ad3d59bd9653f200f220920489ca2b5937696c31
def trueHash : Hash := bigToHash 1

variable {β γ : Type} (env : Env β γ)

def Action.isOneOf (a : Action) (types : List String) : Bool :=
  (types.map Bytes.ascii).contains a.type

def allowanceQuery (owner spender : Bytes) : Bytes :=
  Bytes.ascii "\x7b\"allowance\":\x7b\"owner\":\"" ++ owner ++ Bytes.ascii "\",\"spender\":\"" ++
    spender ++ Bytes.ascii "\"\x7d\x7d"

def accountString (h : Hash) : Bytes :=
  env.bech32.string (StateDB.getTabiAddressOrDefault env.view (.ofBytes 20 h.bytes))

def translateCW20Action (pointerAddr : Address) (contractAddr : Bytes) (a : Action) :
    Outcome (Option Log) :=
  if a.isOneOf ["mint", "burn", "send", "transfer", "transfer_from", "send_from", "burn_from"] then
    match a.amount with
    | none => .ok none
    | some amount =>
      .ok (some ⟨pointerAddr, [erc20TransferTopic, a.from_, a.to_], (bigToHash amount).bytes, 0⟩)
  else if a.isOneOf ["increase_allowance", "decrease_allowance"] then do
    let contract ← mustAccAddressFromBech32 env.bech32 contractAddr
    match ← env.querySmart contract
        (allowanceQuery (accountString env a.owner) (accountString env a.spender)) with
    | none => return none
    | some ret =>
      match env.unmarshalAllowance ret with
      | none => return none
      | some none => .error .nilDereference
      | some (some allowance) =>
        return some ⟨pointerAddr, [erc20ApprovalTopic, a.owner, a.spender],
          (bigToHash allowance).bytes, 0⟩
  else .ok none

/-- The logs of a loop whose panics are recovered: those from before the first panic. -/
def logsBeforePanic (translate : Action → Outcome (Option Log)) : List Action → List Log
  | [] => []
  | a :: actions =>
    match translate a with
    | .error _ => []
    | .ok log => log.toList ++ logsBeforePanic translate actions

def translateCW20Event (event : Event) (pointerAddr : Address) (contractAddr : Bytes) : List Log :=
  logsBeforePanic (translateCW20Action env pointerAddr contractAddr)
    (getActionsFromWasmEvent env event)

def getOwnerEventKey (contractAddr tokenID : Bytes) : Bytes :=
  contractAddr ++ Bytes.ascii "-" ++ tokenID

/-- The `ownerEventsMap`: the owners named by the owner events of a contract and token, in order.
An event without exactly three attributes is skipped. -/
def ownerEventsMap (ownerEvents : List Event) : Bytes → List Bytes :=
  ownerEvents.foldl (fun owners event =>
    match event.attributes with
    | [contract, token, owner] =>
      let key := getOwnerEventKey contract.2 token.2
      Function.update owners key (owners key ++ [owner.2])
    | _ => owners) fun _ => []

abbrev Counters := Bytes → Nat

def transferSender (owners : List Bytes) (currentCounter : Nat) (sender : Hash) : Hash :=
  match owners[currentCounter]? with
  | none => sender
  | some owner =>
    match env.bech32.accAddressFromBech32 owner with
    | none => sender
    | some tabiAddr => addressHash (StateDB.getEVMAddressOrDefault env.view tabiAddr)

def transferKey (contractAddr : Bytes) (tokenId : ℤ) : Bytes :=
  getOwnerEventKey contractAddr (Bytes.ascii (toString tokenId))

def tokenLog (pointerAddr : Address) (topic sender other : Hash) (tokenId : Option ℤ) :
    Option Log :=
  tokenId.map fun id => ⟨pointerAddr, [topic, sender, other, bigToHash id], emptyHash.bytes, 0⟩

def translateCW721Action (owners : Bytes → List Bytes) (pointerAddr : Address)
    (contractAddr : Bytes) (counters : Counters) (a : Action) : Option Log × Counters :=
  if a.isOneOf ["transfer_nft", "send_nft", "burn"] then
    match a.tokenId with
    | none => (none, counters)
    | some tokenId =>
      (tokenLog pointerAddr erc721TransferTopic
          (transferSender env (owners (transferKey contractAddr tokenId))
            (counters (transferKey contractAddr tokenId)) a.sender)
          a.recipient (some tokenId),
        Function.update counters (transferKey contractAddr tokenId)
          (counters (transferKey contractAddr tokenId) + 1))
  else if a.isOneOf ["mint"] then
    (tokenLog pointerAddr erc721TransferTopic emptyHash a.owner a.tokenId, counters)
  else if a.isOneOf ["approve"] then
    (tokenLog pointerAddr erc721ApprovalTopic a.sender a.spender a.tokenId, counters)
  else if a.isOneOf ["revoke"] then
    (tokenLog pointerAddr erc721ApprovalTopic a.sender emptyHash a.tokenId, counters)
  else if a.isOneOf ["approve_all"] then
    (some ⟨pointerAddr, [erc721ApproveAllTopic, a.sender, a.operator], trueHash.bytes, 0⟩, counters)
  else if a.isOneOf ["revoke_all"] then
    (some ⟨pointerAddr, [erc721ApproveAllTopic, a.sender, a.operator], emptyHash.bytes, 0⟩,
      counters)
  else (none, counters)

def translateCW721Event (owners : Bytes → List Bytes) (pointerAddr : Address)
    (contractAddr : Bytes) (counters : Counters) (event : Event) : List Log × Counters :=
  (getActionsFromWasmEvent env event).foldl (fun (logs, counters) a =>
    let (log, counters) := translateCW721Action env owners pointerAddr contractAddr counters a
    (logs ++ log.toList, counters)) ([], counters)

def batchTypes : List String := ["transfer_batch", "mint_batch", "burn_batch"]

/-- The `fromHash` of a transfer: the owner, except when tokens are minted. -/
def Action.fromHash (a : Action) (mint : String) : Hash :=
  if a.isOneOf [mint] then emptyHash else a.owner

/-- The `toHash` of a transfer: the recipient, except when tokens are burned. -/
def Action.toHash (a : Action) (burn : String) : Hash :=
  if a.isOneOf [burn] then emptyHash else a.recipient

def translateSingle (pointerAddr : Address) (a : Action) : Option Log :=
  match a.tokenId, a.amount with
  | some tokenId, some amount =>
    some ⟨pointerAddr, [erc1155TransferSingleTopic, a.sender, a.fromHash "mint_single",
      a.toHash "burn_single"], (bigToHash tokenId).bytes ++ (bigToHash amount).bytes, 0⟩
  | _, _ => none

def translateBatch (pointerAddr : Address) (a : Action) : Outcome (Option Log) :=
  if a.tokenIds = [] ∨ a.amounts = [] then .ok none
  else do
    match ← env.abi.packPtrs a.tokenIds a.amounts with
    | .error _ => return none
    | .ok value =>
      return some ⟨pointerAddr, [erc1155TransferBatchTopic, a.sender, a.fromHash "mint_batch",
        a.toHash "burn_batch"], value, 0⟩

def translateCW1155Action (pointerAddr : Address) (a : Action) : Outcome (Option Log) :=
  if a.isOneOf ["transfer_single", "mint_single", "burn_single"] then
    .ok (translateSingle pointerAddr a)
  else if a.isOneOf batchTypes then translateBatch env pointerAddr a
  else if a.isOneOf ["approve_all"] then
    .ok (some ⟨pointerAddr, [erc1155ApprovalForAllTopic, a.sender, a.operator], trueHash.bytes, 0⟩)
  else if a.isOneOf ["revoke_all"] then
    .ok (some ⟨pointerAddr, [erc1155ApprovalForAllTopic, a.sender, a.operator],
      emptyHash.bytes, 0⟩)
  else .ok none

def translateCW1155Event (event : Event) (pointerAddr : Address) : Outcome (List Log) := do
  let logs ← (getActionsFromWasmEvent env event).mapM (translateCW1155Action env pointerAddr)
  return logs.reduceOption

structure Translated where
  logs : List Log
  counters : Counters

def appendLogs (logs new : List Log) : List Log :=
  new.foldl (fun logs log => logs ++ [{ log with index := logs.length }]) logs

def translateIfCW1155 (acc : Translated) (event : Event) (contractAddr : Bytes) :
    Outcome Translated := do
  match ← getERC1155CW1155Pointer env.ctx env.registry contractAddr with
  | some (pointerAddr, _) =>
    let new ← translateCW1155Event env event pointerAddr
    return ⟨appendLogs acc.logs new, acc.counters⟩
  | none => return acc

def translateIfCW721 (owners : Bytes → List Bytes) (acc : Translated) (event : Event)
    (contractAddr : Bytes) : Outcome Translated := do
  match ← getERC721CW721Pointer env.ctx env.registry contractAddr with
  | some (pointerAddr, _) =>
    let r := translateCW721Event env owners pointerAddr contractAddr acc.counters event
    return ⟨appendLogs acc.logs r.1, r.2⟩
  | none => translateIfCW1155 env acc event contractAddr

def translateWasmEvent (owners : Bytes → List Bytes) (acc : Translated) (event : Event) :
    Outcome Translated :=
  match getAttributeValue event env.attributeKeyContractAddr with
  | none => .ok acc
  | some contractAddr => do
    match ← getERC20CW20Pointer env.ctx env.registry contractAddr with
    | some (pointerAddr, _) =>
      let new := translateCW20Event env event pointerAddr contractAddr
      return ⟨appendLogs acc.logs new, acc.counters⟩
    | none => translateIfCW721 env owners acc event contractAddr

def translateEvents (events : List Event) : Outcome (List Log) := do
  let owners := ownerEventsMap (getEventsOfType events env.eventTypeCW721PreTransferOwner)
  let acc ← (getEventsOfType events env.wasmModuleEventType).foldlM (translateWasmEvent env owners)
    ⟨[], fun _ => 0⟩
  return acc.logs

structure StoredLog where
  address : Address
  topics : List Hash
  data : Bytes
  index : UInt32
  synthetic : Bool
  deriving DecidableEq

/-- `evmtypes.Receipt`; an address that is the empty string is `none`.  A field that a writer does
not set has its zero value. -/
structure Receipt where
  txType : UInt32 := 0
  cumulativeGasUsed : UInt64 := 0
  contractAddress : Option Address := none
  txHash : Hash
  gasUsed : UInt64 := 0
  effectiveGasPrice : UInt64 := 0
  blockNumber : UInt64 := 0
  transactionIndex : UInt32 := 0
  status : UInt32 := 0
  from_ : Option Address := none
  to_ : Option Address := none
  vmError : Bytes := []
  logs : List StoredLog := []
  logsBloom : Bytes := []
  deriving DecidableEq

structure Codec where
  deferred : Settlement.Codec
  marshalReceipt : Receipt → Option Bytes
  unmarshalReceipt : Bytes → Option Receipt

structure Transient where
  receipts : SortedStore Bytes Bytes
  deferred : Settlement.Transient

structure Tx where
  checksum : FixedBytes 32
  evmTxHash : Option Hash
  gasConsumed : UInt64
  blockHeight : UInt64
  txIndex : UInt64
  signers : List AccAddress

def shellEVMTxType : UInt32 := 0xffffffff

def receiptStatusSuccessful : UInt32 := 1

def convertEthLog (l : Log) : StoredLog := ⟨l.address, l.topics, l.data, .ofNat l.index, false⟩

def convertSyntheticEthLog (l : Log) : StoredLog := { convertEthLog l with synthetic := true }

def getLogsForTx (r : Receipt) : List Log :=
  r.logs.map fun l => ⟨l.address, l.topics, l.data, l.index.toNat⟩

def renumber (logs : List StoredLog) : List StoredLog :=
  logs.zipIdx.map fun (l, i) => { l with index := .ofNat i }

def setTransientReceipt (cdc : Codec) (t : Transient) (txHash : Hash) (r : Receipt) : Transient :=
  match cdc.marshalReceipt r with
  | none => t
  | some bz => { t with receipts := t.receipts.set txHash.bytes bz }

def getTransientReceipt (cdc : Codec) (t : Transient) (txHash : Hash) : Option Receipt :=
  (t.receipts.get txHash.bytes).bind cdc.unmarshalReceipt

def receiptWith (cdc : Codec) (t : Transient) (tx : Tx) (txHash : Hash) (logs : List Log) :
    Receipt × FixedBytes 256 :=
  match getTransientReceipt cdc t txHash with
  | some r =>
    let r := { r with logs := renumber (r.logs ++ logs.map convertSyntheticEthLog) }
    let bloom := env.createBloom (getLogsForTx r)
    ({ r with logsBloom := bloom.bytes }, bloom)
  | none =>
    let bloom := env.createBloom logs
    ({ txType := shellEVMTxType
       txHash
       gasUsed := tx.gasConsumed
       blockNumber := tx.blockHeight
       transactionIndex := .ofNat tx.txIndex.toNat
       logs := logs.map convertSyntheticEthLog
       logsBloom := bloom.bytes
       status := receiptStatusSuccessful
       from_ := tx.signers.head?.map (StateDB.getEVMAddressOrDefault env.view) }, bloom)

def recordLogs (cdc : Codec) (t : Transient) (tx : Tx) (logs : List Log) : Outcome Transient := do
  let txHash := tx.evmTxHash.getD tx.checksum
  let (r, bloom) := receiptWith env cdc t tx txHash logs
  let t := setTransientReceipt cdc t txHash r
  let surplus :=
    match Settlement.getEVMTxDeferredInfo cdc.deferred t.deferred tx.txIndex with
    | some d => d.surplus
    | none => some 0
  let deferred ← Settlement.appendToEvmTxDeferredInfo cdc.deferred t.deferred tx.txIndex
    bloom txHash surplus
  return { t with deferred }

/-- `AddCosmosEventsToEVMReceiptIfApplicable`, and the logs it emits. -/
def addCosmosEventsToEVMReceiptIfApplicable (cdc : Codec) (t : Transient) (tx : Tx)
    (events : List Event) : Outcome (Transient × List Log) := do
  if getEventsOfType events env.wasmModuleEventType = [] then return (t, [])
  let logs ← translateEvents env events
  if logs = [] then return (t, [])
  let t ← recordLogs env cdc t tx logs
  return (t, logs)

end Tabi.Synthetic
