import Tabi.Chain.Types
import Tabi.Support.ChangeSet

/-!
# Supply — the check after a block

`LightInvarianceTotalSupply` (`app/invariance.go`) runs before a block is committed.
-/

namespace Tabi.Supply

open Support

/-- `sdk.Coin`; the amount is nil if the field is missing. -/
structure Coin where
  denom : Bytes
  amount : Option ℤ

structure BankTypes where
  balancesPrefix : UInt8
  weiBalancesPrefix : UInt8
  supplyKey : UInt8
  unmarshalCoin : Bytes → Option Coin
  /-- `Int.Unmarshal`; `none` is the error, and empty bytes leave the `Int` nil. -/
  unmarshalInt : Bytes → Option (Option ℤ)
  baseDenom : Bytes
  accAddressString : AccAddress → String
  coinString : Coin → String

structure KVPair where
  delete : Bool
  key : Bytes
  value : Bytes

structure CommitmentStore where
  tree : SortedStore Bytes Bytes
  changeSet : List KVPair

/-- `GetChangedPairs`; every prefix the check asks for is one byte. -/
def CommitmentStore.getChangedPairs (ckv : CommitmentStore) (pre : UInt8) : List KVPair :=
  ckv.changeSet.filter fun p => p.key.head? = some pre

def CommitmentStore.get (ckv : CommitmentStore) (key : Bytes) : Option Bytes := ckv.tree.get key

variable (bt : BankTypes)

/-- `address.MustLengthPrefix`: no length in front of the empty address.  (A length of more than
255 is a panic; the check only has addresses whose length was one byte.) -/
def mustLengthPrefix (a : AccAddress) : Bytes :=
  if a = [] then [] else UInt8.ofNat a.length :: a

def createAccountBalancesPrefix (a : AccAddress) : Bytes := bt.balancesPrefix :: mustLengthPrefix a

/-- The address and the denom of a balance key; `none` if the key is too short. -/
def splitBalanceKey : Bytes → Option (AccAddress × Bytes)
  | _ :: addrLen :: rest =>
    if rest.length < addrLen.toNat then none
    else some (rest.take addrLen.toNat, rest.drop addrLen.toNat)
  | _ => none

structure Tally where
  postTotal : ℤ
  changedAddrs : List AccAddress

def tallyBaseBalance (t : Tally) (addr : AccAddress) (p : KVPair) : Outcome Tally :=
  if p.delete then return { t with changedAddrs := t.changedAddrs ++ [addr] }
  else match bt.unmarshalCoin p.value with
    | none => return t
    | some balance => do
      if ← SdkInt.isNegativePtr balance.amount then
        .error (.raised ("negative balance found for addr " ++ bt.accAddressString addr ++ ": " ++
          bt.coinString balance))
      else
        let postTotal ← SdkInt.addPtr t.postTotal balance.amount
        return ⟨postTotal, t.changedAddrs ++ [addr]⟩

def tallyBalance (t : Tally) (p : KVPair) : Outcome Tally :=
  match splitBalanceKey p.key with
  | none => return t
  | some (addr, denom) => if denom ≠ bt.baseDenom then return t else tallyBaseBalance bt t addr p

def tallyWei (t : Tally) (p : KVPair) : Outcome Tally :=
  match p.key with
  | [] => return t
  | _ :: addr =>
    if p.delete then return { t with changedAddrs := t.changedAddrs ++ [addr] }
    else match bt.unmarshalInt p.value with
      | none => return t
      | some amt => do
        let postTotal ← SdkInt.addPtr t.postTotal amt
        if ← SdkInt.isNegativePtr amt then
          .error (.raised ("negative wei balance found for addr " ++ bt.accAddressString addr ++
            ": " ++ toString (amt.getD 0)))
        else return ⟨postTotal, t.changedAddrs ++ [addr]⟩

def addPre (unmarshal : Bytes → Option (Option ℤ)) (ckv : CommitmentStore) (preTotal : ℤ)
    (key : Bytes) : Outcome ℤ :=
  match ckv.get key with
  | none => return preTotal
  | some val =>
    match unmarshal val with
    | none => return preTotal
    | some amt => SdkInt.addPtr preTotal amt

def unmarshalBalance (val : Bytes) : Option (Option ℤ) := (bt.unmarshalCoin val).map Coin.amount

def atabiPreTotal (ckv : CommitmentStore) (addrs : List AccAddress) : Outcome ℤ :=
  (addrs.map fun a => createAccountBalancesPrefix bt a ++ bt.baseDenom).foldlM
    (addPre (unmarshalBalance bt) ckv) 0

def weiPreTotal (ckv : CommitmentStore) (addrs : List AccAddress) : Outcome ℤ :=
  (addrs.map fun a => bt.weiBalancesPrefix :: a).foldlM (addPre bt.unmarshalInt ckv) 0

/-- `preTotalSupply`; the outer `none` is a value that does not unmarshal. -/
def preTotalSupply (ckv : CommitmentStore) : Option (Option ℤ) :=
  match ckv.get (bt.supplyKey :: bt.baseDenom) with
  | none => some (some 0)
  | some bz => bt.unmarshalInt bz

def supplyChange (pre : Option ℤ) (p : KVPair) : Outcome ℤ :=
  if p.delete then SdkInt.negPtr pre
  else match bt.unmarshalInt p.value with
    | none => return 0
    | some amt => SdkInt.subPtr amt pre

/-- `supplyChanged`: the loop stops at the first pair of the base denom. -/
def supplyChanged (pre : Option ℤ) : List KVPair → Outcome ℤ
  | [] => return 0
  | p :: ps =>
    match p.key with
    | [] => .error .indexOutOfRange
    | _ :: denom => if denom = bt.baseDenom then supplyChange bt pre p else supplyChanged pre ps

structure Totals where
  atabiPre : ℤ
  atabiPost : ℤ
  weiPre : ℤ
  weiPost : ℤ
  preSupply : Option ℤ
  supplyChanged : ℤ

def compareTotals (t : Totals) : Outcome Unit := do
  let weiDiff ← SdkInt.sub t.weiPost t.weiPre
  let (weiDiffInAtabi, weiDiffRemainder) ← splitAtabiWeiAmount weiDiff
  if weiDiffRemainder ≠ 0 then
    .error (.raised ("non-zero wei diff found! Pre-block wei total " ++ toString t.weiPre ++
      ", post-block wei total " ++ toString t.weiPost))
  let diff ← SdkInt.sub t.atabiPre t.atabiPost
  let diff ← SdkInt.sub diff weiDiffInAtabi
  let atabiDiff ← SdkInt.add diff t.supplyChanged
  if atabiDiff ≠ 0 then
    let postSupply ← SdkInt.addPtr t.supplyChanged t.preSupply
    .error (.raised ("unexpected atabibalance total found! Pre-block atabitotal " ++
      toString t.atabiPre ++ " wei total " ++ toString t.weiPre ++ " total supply " ++
      toString (t.preSupply.getD 0) ++ ", post-block atabitotal " ++ toString t.atabiPost ++
      " wei total " ++ toString t.weiPost ++ " total supply " ++ toString postSupply))

/-- `LightInvarianceTotalSupply`; `none` is a bank store of another kind, which is not checked. -/
def lightInvarianceTotalSupply : Option CommitmentStore → Outcome Unit
  | none => return
  | some ckv => do
    let atabi ← (ckv.getChangedPairs bt.balancesPrefix).foldlM (tallyBalance bt) ⟨0, []⟩
    let atabiPre ← atabiPreTotal bt ckv atabi.changedAddrs
    let wei ← (ckv.getChangedPairs bt.weiBalancesPrefix).foldlM (tallyWei bt) ⟨0, []⟩
    let weiPre ← weiPreTotal bt ckv wei.changedAddrs
    match preTotalSupply bt ckv with
    | none => return
    | some pre =>
      let supplyChanged ← supplyChanged bt pre (ckv.getChangedPairs bt.supplyKey)
      compareTotals ⟨atabiPre, atabi.postTotal, weiPre, wei.postTotal, pre, supplyChanged⟩

end Tabi.Supply
