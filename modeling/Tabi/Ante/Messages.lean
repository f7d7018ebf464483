import Tabi.Ante.Preprocess
import Mathlib.Data.List.Infix

/-!
# Ante — the messages of a transaction

An `sdk.Tx` is the list of its messages; a `MsgExec` of authz holds messages of its own, as `Any`s.
-/

namespace Tabi.Ante

open Support

inductive Msg where
  | evmTransaction (msg : MsgEVMTransaction)
  | exec (msgs : List Msg)
  | other (typeURL : Bytes)
  | notMsg

abbrev SdkTx := List Msg

def Msg.typeURL : Msg → Bytes
  | .evmTransaction _ => Bytes.ofString "/tabilabs.tabiv2.evm.MsgEVMTransaction"
  | .exec _ => Bytes.ofString "/cosmos.authz.v1beta1.MsgExec"
  | .other typeURL => typeURL
  | .notMsg => []

def Msg.isEVM : Msg → Bool
  | .evmTransaction _ => true
  | _ => false

/-- `IsEVMMessage`; an EVM message beside others is an error. -/
def isEVMMessage (tx : SdkTx) : Except String Bool :=
  let hasEVMMsg := tx.any Msg.isEVM
  if hasEVMMsg ∧ tx.length ≠ 1 then .error "EVM tx must have exactly one message"
  else .ok hasEVMMsg

def getEVMTransactionMessage : SdkTx → Option MsgEVMTransaction
  | [.evmTransaction msg] => some msg
  | _ => none

/-- `App.GetEVMMsg`: not for an associate transaction; data that cannot be unpacked panic, and the
panic is caught. -/
def getEVMMsg : Option SdkTx → Option MsgEVMTransaction
  | none => none
  | some tx =>
    match getEVMTransactionMessage tx with
    | none => none
    | some emsg =>
      match emsg.data with
      | .error _ => none
      | .ok (.associateTx _) => none
      | .ok _ => some emsg

/-- `MsgExec.GetMessages`: every `Any` has to hold a message. -/
def getMessages : List Msg → Except String (List Msg)
  | [] => .ok []
  | .notMsg :: _ => .error "messages contains %T which is not a sdk.MsgRequest: invalid request"
  | m :: ms => (getMessages ms).map (m :: ·)

section Search

variable (found : Msg → Bool) (maxNested : Nat) (tooDeep : Except String Bool)

mutual

/-- The walk into a `MsgExec` at a level; of any other message, whether it is what is looked for. -/
def search (nestedLvl : Nat) : Msg → Except String Bool
  | .exec msgs =>
    if maxNested ≤ nestedLvl then tooDeep
    else
      match getMessages msgs with
      | .error err => .error err
      | .ok _ => searchAll nestedLvl msgs
  | .evmTransaction msg => .ok (found (.evmTransaction msg))
  | .other typeURL => .ok (found (.other typeURL))
  | .notMsg => .ok false

/-- The loop over the messages of a `MsgExec` at a level: the first that is found, or that fails,
ends it. -/
def searchAll (nestedLvl : Nat) : List Msg → Except String Bool
  | [] => .ok false
  | m :: ms =>
    match search (nestedLvl + 1) m with
    | .error err => .error err
    | .ok true => .ok true
    | .ok false => searchAll nestedLvl ms

end

end Search

def oracleMsgTypeURLs : List Bytes :=
  ["/tabilabs.tabi.oracle.MsgAggregateExchangeRatePrevote",
   "/tabilabs.tabi.oracle.MsgAggregateExchangeRateVote",
   "/tabilabs.tabi.oracle.MsgDelegateFeedConsent",
   "/oracle.MsgAggregateExchangeRatePrevote",
   "/oracle.MsgAggregateExchangeRateVote",
   "/oracle.MsgDelegateFeedConsent"].map Bytes.ofString

def toLower (b : UInt8) : UInt8 := if 65 ≤ b ∧ b ≤ 90 then b + 32 else b

def isOracleTypeURL (typeURL : Bytes) : Bool :=
  decide (typeURL ∈ oracleMsgTypeURLs) ||
    (let lower := typeURL.map toLower
     decide (Bytes.ofString ".oracle." <:+: lower) || decide (Bytes.ofString "/oracle." <:+: lower))

def isOracleMsg (msg : Msg) : Bool := isOracleTypeURL msg.typeURL

def maxNestedOracleMsgs : Nat := 5

/-- `containsOracleInAuthz`, of a `MsgExec`: what is too deep is not looked at. -/
def containsOracleInAuthz (nestedLvl : Nat) (msg : Msg) : Except String Bool :=
  search isOracleMsg maxNestedOracleMsgs (.ok false) nestedLvl msg

/-- `IsTxPrioritized`: an oracle message at the top or inside a `MsgExec` that unpacks. -/
def isTxPrioritized (tx : SdkTx) : Bool :=
  tx.any fun msg => isOracleMsg msg || match msg with
    | .exec msgs =>
      match containsOracleInAuthz 0 (.exec msgs) with
      | .ok contains => contains
      | .error _ => false
    | _ => false

end Tabi.Ante
