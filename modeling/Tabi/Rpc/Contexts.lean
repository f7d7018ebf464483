import Tabi.Rpc.Chain

/-!
# Rpc — contexts of heights

The handlers of `evmrpc` read state through contexts.
-/

namespace Tabi.Rpc

open Support Fallible

structure QueryContext where
  height : Int64
  /-- `VersionExists` of the stores of the module and of the bank, at this height. -/
  evmExists : Bool
  bankExists : Bool
  /-- `GetCurrBaseFeePerGas`, truncated; reading it may panic. -/
  baseFeePerGas : Outcome ℤ
  /-- What the store of the module holds under the `StateKey` of an address. -/
  storage : Address → Hash → Option Bytes

def checkVersion (ctx : QueryContext) : Except String Unit :=
  if ctx.evmExists = false then
    .error ("evm module does not exist on height " ++ toString ctx.height.toInt)
  else if ctx.bankExists = false then
    .error ("bank module does not exist on height " ++ toString ctx.height.toInt)
  else .ok ()

def QueryContext.getState (ctx : QueryContext) (addr : Address) (hash : Hash) : Hash :=
  match ctx.storage addr hash with
  | none => emptyHash
  | some val => FixedBytes.ofBytes 32 val

def latestCtxHeight : Int64 := -1

structure Contexts where
  latest : QueryContext
  createQueryContext : Int64 → Except String QueryContext

namespace Contexts

variable (c : Contexts)

def rpcContextProvider (i : Int64) : QueryContext :=
  if i = latestCtxHeight then c.latest
  else match c.createQueryContext i with
    | .ok ctx => ctx
    | .error _ => c.latest

def ofHeight (i : Int64) : Option QueryContext :=
  if i = latestCtxHeight then none else (c.createQueryContext i).toOption

variable {c}

theorem rpcContextProvider_of_height {i : Int64} {ctx : QueryContext}
    (h : c.ofHeight i = some ctx) : c.rpcContextProvider i = ctx := by
  unfold ofHeight at h
  split at h
  · cases h
  · rename_i hne
    rw [rpcContextProvider, if_neg hne]
    cases hctx : c.createQueryContext i with
    | error e =>
      rw [hctx] at h
      cases h
    | ok ctx' =>
      rw [hctx] at h
      cases h
      rfl

end Contexts

inductive BlockNumber where
  | safe
  | finalized
  | latest
  | pending
  | earliest
  | number (n : Int64)
  deriving DecidableEq

inductive BlockNumberOrHash where
  | number (blockNumber : BlockNumber)
  | hash (blockHash : Hash)

structure HeightNode extends Node where
  contexts : Contexts
  genesis : Except String Int64
  latestBlock : Except String ResultBlock

namespace HeightNode

variable (node : HeightNode)

def ctx (height : Int64) : QueryContext := node.contexts.rpcContextProvider height

def currentHeight : Int64 := (node.ctx latestCtxHeight).height

def getBlockNumber : BlockNumber → Fallible (Option Int64)
  | .safe | .finalized | .latest | .pending => .ok none
  | .earliest => do
    let genesisHeight ← ofErr node.genesis
    return some genesisHeight
  | .number n => .ok (some n)

def getBlockNumberByNrOrHash : BlockNumberOrHash → Fallible (Option Int64)
  | .hash blockHash => do
    let res ← ofErr (node.blockByHash blockHash)
    return some res.height
  | .number blockNumber => node.getBlockNumber blockNumber

def blockAt : Option Int64 → Except String ResultBlock
  | none => node.latestBlock
  | some height => node.blockByNumber height

end HeightNode

def emptyBlockAt (n : Int64) : Except String ResultBlock := .ok (resultBlock emptyHash n [])

def noBlock (_ : Hash) : Except String ResultBlock := .error "could not find block"

def noReceipt (_ : Hash) : Except String Synthetic.Receipt := .error "not found"

theorem emptyBlockAt_height {n : Int64} {b : ResultBlock} (h : emptyBlockAt n = .ok b) :
    b.height = n := by
  cases h
  rfl

theorem noBlock_hash {h : Hash} {b : ResultBlock} (hb : noBlock h = .ok b) :
    b.hash = h ∧ emptyBlockAt b.height = .ok b := by
  cases hb

theorem noReceipt_readable {h : Hash} {err : String} (hr : noReceipt h = .error err) :
    isNotFound err = true := by
  cases hr
  decide

theorem noReceipt_absurd {P : Prop} {h : Hash} {r : Synthetic.Receipt} (hr : noReceipt h = .ok r) :
    P := by
  cases hr

def emptyNode : Node where
  toSurroundings := quietSurroundings
  keccak256 _ := emptyHash
  sha256 _ := .ofBytes 32 [1]
  hasher := nonceHasher
  txDecoder _ _ := none
  blockByNumber := emptyBlockAt
  blockByHash := noBlock
  getReceipt := noReceipt
  blockByNumber_height := emptyBlockAt_height
  blockByHash_hash := noBlock_hash
  receipt_readable := noReceipt_readable
  receipt_hash := noReceipt_absurd
  receipt_tx hr _ := noReceipt_absurd hr
  receipt_logs := noReceipt_absurd
  receipt_bloom := noReceipt_absurd
  checksum_ne _ := nonceHasher_ne

def emptyHeightNode (contexts : Contexts) : HeightNode where
  toNode := emptyNode
  contexts
  genesis := .ok 1
  latestBlock := emptyBlockAt 3

end Tabi.Rpc
