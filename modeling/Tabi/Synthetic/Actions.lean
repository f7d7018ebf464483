import Tabi.Registry.Pointers
import Tabi.StateDB.Temporary

/-!
# Synthetic — the actions of a CosmWasm event

A contract describes what it did in the attributes of its `wasm` event: `action` opens an action,
and the attributes after it fill the action's fields (`app/receipt.go`, `GetActionsFromWasmEvent`).
-/

namespace Tabi.Synthetic

open Support

/-- The data part of `TransferBatch`, as the ABI packs it: two arrays, whose lengths can be read
back. -/
structure BatchABI where
  pack : List ℤ → List ℤ → Except Bytes Bytes
  lengths : Bytes → Option (Nat × Nat)
  lengths_pack : ∀ {ids amounts : List ℤ} {data : Bytes}, pack ids amounts = .ok data →
    lengths data = some (ids.length, amounts.length)

/-- `Arguments.Pack` of two arrays of `*big.Int`: a nil entry panics. -/
def BatchABI.packPtrs (abi : BatchABI) (ids amounts : List (Option ℤ)) :
    Outcome (Except Bytes Bytes) :=
  if none ∈ ids ∨ none ∈ amounts then .error .nilDereference
  else .ok (abi.pack ids.reduceOption amounts.reduceOption)

structure Env (β γ : Type) where
  view : StateDB.Stores β γ
  registry : Registry.Store
  ctx : Registry.Ctx
  bech32 : Registry.Bech32
  newIntFromString : Bytes → Option ℤ
  querySmart : AccAddress → Bytes → Outcome (Option Bytes)
  /-- `json.Unmarshal` of an `AllowanceResponse`; `none` is an error, and the allowance is nil
  when the response has none. -/
  unmarshalAllowance : Bytes → Option (Option ℤ)
  abi : BatchABI
  createBloom : List StateDB.Log → FixedBytes 256
  wasmModuleEventType : Bytes
  eventTypeCW721PreTransferOwner : Bytes
  attributeKeyContractAddr : Bytes

variable {β γ : Type} (env : Env β γ)

def bigToHash (z : ℤ) : Hash := ⟨beBytes 32 z.natAbs, length_beBytes 32 _⟩

def addressHash (a : Address) : Hash := .ofBytes 32 a.bytes

structure Action where
  type : Bytes
  amount : Option ℤ := none
  amounts : List (Option ℤ) := []
  tokenId : Option ℤ := none
  tokenIds : List (Option ℤ) := []
  sender : Hash := emptyHash
  recipient : Hash := emptyHash
  spender : Hash := emptyHash
  operator : Hash := emptyHash
  owner : Hash := emptyHash
  from_ : Hash := emptyHash
  to_ : Hash := emptyHash

def getEventsOfType (events : List Event) (ty : Bytes) : List Event :=
  events.filter fun e => e.type = ty

def getAttributeValue (event : Event) (key : Bytes) : Option Bytes :=
  (event.attributes.find? fun attr => attr.1 = key).map Prod.snd

def getEvmAddressHash (addrStr : Bytes) : Hash :=
  match env.bech32.accAddressFromBech32 addrStr with
  | some tabiAddr => addressHash (StateDB.getEVMAddressOrDefault env.view tabiAddr)
  | none => emptyHash

/-- `strings.Split` at commas, each part read by `safeBigIntFromString`. -/
def bigIntsFromString (value : Bytes) : List (Option ℤ) :=
  (value.splitOn 0x2c).map env.newIntFromString

def assign (a : Action) (key value : Bytes) : Action :=
  if key = Bytes.ascii "amount" then { a with amount := env.newIntFromString value }
  else if key = Bytes.ascii "amounts" then { a with amounts := bigIntsFromString env value }
  else if key = Bytes.ascii "token_id" then { a with tokenId := env.newIntFromString value }
  else if key = Bytes.ascii "token_ids" then { a with tokenIds := bigIntsFromString env value }
  else if key = Bytes.ascii "sender" then { a with sender := getEvmAddressHash env value }
  else if key = Bytes.ascii "recipient" then { a with recipient := getEvmAddressHash env value }
  else if key = Bytes.ascii "spender" then { a with spender := getEvmAddressHash env value }
  else if key = Bytes.ascii "operator" then { a with operator := getEvmAddressHash env value }
  else if key = Bytes.ascii "owner" then { a with owner := getEvmAddressHash env value }
  else if key = Bytes.ascii "from" then { a with from_ := getEvmAddressHash env value }
  else if key = Bytes.ascii "to" then { a with to_ := getEvmAddressHash env value }
  else a

/-- `GetActionsFromWasmEvent`, from the actions read so far and the rest of the attributes.  An
attribute before the first `action` is skipped. -/
def actionsFrom : List Action → List (Bytes × Bytes) → List Action
  | actions, [] => actions
  | actions, (key, value) :: attrs =>
    if key = Bytes.ascii "action" then actionsFrom (actions ++ [{ type := value }]) attrs
    else
      match actions.getLast? with
      | none => actionsFrom actions attrs
      | some curAction => actionsFrom (actions.dropLast ++ [assign env curAction key value]) attrs

def getActionsFromWasmEvent (event : Event) : List Action := actionsFrom env [] event.attributes

end Tabi.Synthetic
