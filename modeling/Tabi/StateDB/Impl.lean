import Tabi.StateDB.Temporary

/-!
# StateDB — `DBImpl`, the layered state database

`x/evm/state` gives the EVM its view of the chain.
-/

namespace Tabi.StateDB

open Support

structure Ctx (β γ : Type) where
  dirty : Writes β γ
  events : List Event

/-- `DBImpl`.  `root` is what lies under the context the database is opened on. -/
structure DBImpl (β γ : Type) where
  root : Stores β γ
  ctx : Ctx β γ
  snapshottedCtxs : List (Ctx β γ)
  tempStateCurrent : TemporaryState
  tempStatesHist : List TemporaryState
  err : Option String
  coinbaseAddress : AccAddress
  coinbaseEvmAddress : Address
  simulation : Bool
  eventsSuppressed : Bool
  isTracing : Bool
  aligned : snapshottedCtxs.length = tempStatesHist.length

namespace DBImpl

variable {β γ : Type} (k : Keepers β γ) (s : DBImpl β γ)

def view : Stores β γ := Layers.view s.root ((s.snapshottedCtxs ++ [s.ctx]).map Ctx.dirty)

def commit (e : Effect β γ) : DBImpl β γ :=
  { s with ctx := ⟨e.writes * s.ctx.dirty, s.ctx.events ++ e.events⟩ }

def commitBank (r : Patch β γ × List Event) : DBImpl β γ :=
  s.commit ⟨.ofBank r.1, if s.eventsSuppressed then [] else r.2⟩

/-- `DBImpl.Snapshot`: the state after, and the id it returns. -/
def snapshot : DBImpl β γ × Nat :=
  let ctxs := s.snapshottedCtxs ++ [s.ctx]
  ({ s with
      snapshottedCtxs := ctxs
      ctx := ⟨1, []⟩
      tempStatesHist := s.tempStatesHist ++ [s.tempStateCurrent]
      tempStateCurrent := newTemporaryState
      aligned := by simp [ctxs, s.aligned] },
    ctxs.length - 1)

theorem aligned_take (rev : Nat) :
    (s.snapshottedCtxs.take rev).length = (s.tempStatesHist.take rev).length := by
  rw [List.length_take, List.length_take, s.aligned]

def revertToSnapshot (rev : Nat) : Outcome (DBImpl β γ) :=
  match s.snapshottedCtxs[rev]?, s.tempStatesHist[rev]? with
  | some ctx, some ts =>
    .ok (snapshot
      { s with
        ctx := ctx
        snapshottedCtxs := s.snapshottedCtxs.take rev
        tempStateCurrent := ts
        tempStatesHist := s.tempStatesHist.take rev
        aligned := s.aligned_take rev }).1
  | _, _ => .error .indexOutOfRange

def markAccount (acc : Address) (status : AccountStatus) : DBImpl β γ :=
  { s with tempStateCurrent :=
      { s.tempStateCurrent with
        transientAccounts := s.tempStateCurrent.transientAccounts.insert acc status } }

def created (acc : Address) : Bool :=
  getTransientAccount s.tempStateCurrent s.tempStatesHist acc = some .created

def hasSelfDestructed (acc : Address) : Bool :=
  getTransientAccount s.tempStateCurrent s.tempStatesHist acc = some .deleted

def setTransientState (addr : Address) (key val : Hash) : DBImpl β γ :=
  { s with tempStateCurrent :=
      { s.tempStateCurrent with
        transientStates := fun a h =>
          if a = addr ∧ h = key then some val else s.tempStateCurrent.transientStates a h } }

def getRefund : UInt64 :=
  match getTransientModule s.tempStateCurrent s.tempStatesHist gasRefundKey with
  | none => 0
  | some bz => .ofNat (beNat bz.bytes)

def setRefund (gas : UInt64) : DBImpl β γ :=
  { s with tempStateCurrent :=
      { s.tempStateCurrent with
        transientModuleStates := fun key =>
          if key = gasRefundKey then some ⟨beBytes 8 gas.toNat, length_beBytes 8 gas.toNat⟩
          else s.tempStateCurrent.transientModuleStates key } }

def addRefund (gas : UInt64) : DBImpl β γ := s.setRefund (s.getRefund + gas)

def subRefund (gas : UInt64) : Outcome (DBImpl β γ) :=
  if s.getRefund < gas then
    .error (.raised ("Refund counter below zero (gas: " ++ toString gas.toNat ++ " > refund: " ++
      toString s.getRefund.toNat ++ ")"))
  else .ok (s.setRefund (s.getRefund - gas))

def addAddressToAccessList (addr : Address) : DBImpl β γ :=
  { s with tempStateCurrent :=
      { s.tempStateCurrent with
        transientAccessLists := s.tempStateCurrent.transientAccessLists.addAddress addr } }

def addSlotToAccessList (addr : Address) (slot : Hash) : DBImpl β γ :=
  { s with tempStateCurrent :=
      { s.tempStateCurrent with
        transientAccessLists := s.tempStateCurrent.transientAccessLists.addSlot addr slot } }

/-- `DBImpl.AddLog`: the log's index is the number of logs so far. -/
def addLog (l : Log) : DBImpl β γ :=
  { s with tempStateCurrent :=
      { s.tempStateCurrent with
        logs := s.tempStateCurrent.logs ++
          [{ l with index := (getAllLogs s.tempStateCurrent s.tempStatesHist).length }] } }

def setSurplus (surplus : ℤ) : DBImpl β γ :=
  { s with tempStateCurrent := { s.tempStateCurrent with surplus := surplus } }

def addSurplus (surplus : Option ℤ) : Outcome (DBImpl β γ) :=
  match surplus with
  | none => .ok s
  | some z =>
    if z = 0 then .ok s else do
      return s.setSurplus (← SdkInt.add s.tempStateCurrent.surplus z)

def setErr (e : String) : DBImpl β γ := { s with err := some e }

/-- `DBImpl.getTabiAddress`: the coinbase stands for the account of this transaction. -/
def getTabiAddress (evmAddr : Address) : AccAddress :=
  if s.coinbaseEvmAddress = evmAddr then s.coinbaseAddress
  else getTabiAddressOrDefault s.view evmAddr

def getBalance (evmAddr : Address) : Outcome ℤ :=
  StateDB.getBalance k s.view (s.getTabiAddress evmAddr)

/-- The common body of `SubBalance` and `AddBalance` for a positive amount: the coins, then the
wei, then the surplus.  An error of the bank is recorded and ends the operation. -/
def moveBalance (coins wei : BankCall β γ) (book : ℤ → ℤ → Outcome ℤ) (evmAddr : Address)
    (amt : ℤ) : Outcome (DBImpl β γ) := do
  let (atabi, weiAmt) ← splitAtabiWeiAmount amt
  let addr := s.getTabiAddress evmAddr
  match coins s.view addr atabi with
  | .error e => .ok (s.setErr e)
  | .ok r =>
    let s := s.commitBank r
    match wei s.view addr weiAmt with
    | .error e => .ok (s.setErr e)
    | .ok r => do
      let s := s.commitBank r
      let amt ← SdkInt.ofBig amt
      return s.setSurplus (← book s.tempStateCurrent.surplus amt)

def debit (evmAddr : Address) (amt : ℤ) : Outcome (DBImpl β γ) :=
  s.moveBalance k.bank.subUnlockedCoins k.bank.subWei SdkInt.add evmAddr amt

def credit (evmAddr : Address) (amt : ℤ) : Outcome (DBImpl β γ) :=
  s.moveBalance k.bank.addCoins k.bank.addWei SdkInt.sub evmAddr amt

def subBalance (evmAddr : Address) (amt : ℤ) : Outcome (DBImpl β γ) :=
  if amt = 0 then .ok s
  else if amt < 0 then s.credit k evmAddr (-amt)
  else s.debit k evmAddr amt

def addBalance (evmAddr : Address) (amt : ℤ) : Outcome (DBImpl β γ) :=
  if amt = 0 then .ok s
  else if amt < 0 then s.debit k evmAddr (-amt)
  else s.credit k evmAddr amt

def suppressEvents (b : Bool) : DBImpl β γ := { s with eventsSuppressed := b }

def transferWithoutEvents (sender recipient : Address) (amount : ℤ) : Outcome (DBImpl β γ) := do
  let s ← (s.suppressEvents true).subBalance k sender amount
  let s ← s.addBalance k recipient amount
  return s.suppressEvents false

def send (src dst : AccAddress) (amt : ℤ) : Outcome (DBImpl β γ) := do
  let (atabi, wei) ← splitAtabiWeiAmount amt
  match k.bank.sendCoinsAndWei s.view src dst atabi wei with
  | .error e => .ok (s.setErr e)
  | .ok r => .ok (s.commit ⟨.ofBank r.1, r.2⟩)

def panicOnErr : Outcome (DBImpl β γ) :=
  match s.err with
  | some e => .error (.raised e)
  | none => .ok s

/-- The `MintCoins` call of `SetBalance`: one atabi more than the new balance, and a panic on an
error. -/
def mintFor (amt : ℤ) : Outcome (DBImpl β γ) := do
  let (atabi, _) ← splitAtabiWeiAmount amt
  let coin ← SdkInt.add atabi 1
  if coin < 0 then .error (.raised "negative coin amount") else
    match k.bank.mintCoins s.view coin with
    | .error e => .error (.raised e)
    | .ok r => .ok (s.commit ⟨.ofBank r.1, r.2⟩)

def setBalance (evmAddr : Address) (amt : ℤ) : Outcome (DBImpl β γ) :=
  if s.simulation = false then
    .error (.raised "should never call SetBalance in a non-simulation setting")
  else do
    let tabiAddr := s.getTabiAddress evmAddr
    let balance ← s.getBalance k evmAddr
    let s ← s.send k tabiAddr k.evmModuleAddress balance
    let s ← s.panicOnErr
    let s ← s.mintFor k amt
    let s ← s.send k k.evmModuleAddress tabiAddr amt
    s.panicOnErr

/-- `DBImpl.CreateAccount`: no state is cleared while tracing. -/
def createAccount (acc : Address) : DBImpl β γ :=
  (if s.isTracing then s else s.commit (clearAccountState s.view acc)).markAccount acc .created

/-- `DBImpl.SetStorage`: the old state is cleared, then every slot is set. -/
def setStorage (addr : Address) (states : List (Hash × Hash)) : DBImpl β γ :=
  states.foldl (fun s kv => s.commit (setState addr kv.1 kv.2))
    (s.commit (clearAccountState s.view addr))

def dissociate (acc : Address) : DBImpl β γ :=
  match StateDB.getTabiAddress s.view acc with
  | some tabiAddr => s.commit (deleteAddressMapping tabiAddr acc)
  | none => s

def selfDestruct (acc : Address) : Outcome (DBImpl β γ) := do
  let s := s.dissociate acc
  let balance ← s.getBalance k acc
  let s ← s.subBalance k acc balance
  return s.markAccount acc .deleted

def selfdestruct6780 (acc : Address) : Outcome (DBImpl β γ) :=
  if s.created acc then s.selfDestruct k acc else .ok s

def customPrecompileStartingAddr : Nat := 0x1001

/-- A precompile made warm by `Prepare`; custom ones are skipped unless the transaction is
traced. -/
def addPrecompile (addr : Address) : DBImpl β γ :=
  if customPrecompileStartingAddr ≤ beNat addr.bytes ∧ s.isTracing = false then s
  else s.addAddressToAccessList addr

def addAccessTuple (el : Address × List Hash) : DBImpl β γ :=
  el.2.foldl (fun s key => s.addSlotToAccessList el.1 key) (s.addAddressToAccessList el.1)

/-- `DBImpl.Prepare`: a snapshot, then the addresses and slots that are warm from the start. -/
def prepare (sender coinbase : Address) (dest : Option Address) (precompiles : List Address)
    (txAccesses : List (Address × List Hash)) : DBImpl β γ :=
  let s := s.snapshot.1
  let s := s.addAddressToAccessList sender
  let s := match dest with
    | some dest => s.addAddressToAccessList dest
    | none => s
  let s := precompiles.foldl addPrecompile s
  let s := txAccesses.foldl addAccessTuple s
  s.addAddressToAccessList coinbase

def exist (addr : Address) : Outcome Bool := do
  let codeHash ← getCodeHash k s.view addr
  if codeHash ≠ emptyHash then return true
  if 0 < getNonce s.view addr then return true
  if 0 < (← s.getBalance k addr) then return true
  return s.hasSelfDestructed addr

def empty (addr : Address) : Outcome Bool := do
  let balance ← s.getBalance k addr
  if balance ≠ 0 then return false
  if getNonce s.view addr ≠ 0 then return false
  return (← getCodeHash k s.view addr) = emptyHash

/-- `DBImpl.GetCommittedState`: the context the database was opened on is the oldest one. -/
def getCommittedState (addr : Address) (hash : Hash) : Outcome Hash :=
  match s.snapshottedCtxs with
  | [] => .error .indexOutOfRange
  | base :: _ => .ok (getState (base.dirty • s.root) addr hash)

def totalSurplus : ℤ := (s.tempStatesHist.map (·.surplus)).sum + s.tempStateCurrent.surplus

end DBImpl

/-- The operations of the database.  `native` is a call of another module on the current context,
as a precompile makes it through `Ctx()`. -/
inductive Op (β γ : Type) where
  | subBalance (addr : Address) (amt : ℤ)
  | addBalance (addr : Address) (amt : ℤ)
  | transferWithoutEvents (sender recipient : Address) (amount : ℤ)
  | setBalance (addr : Address) (amt : ℤ)
  | createAccount (acc : Address)
  | selfDestruct (acc : Address)
  | selfdestruct6780 (acc : Address)
  | setState (addr : Address) (key val : Hash)
  | setStorage (addr : Address) (states : List (Hash × Hash))
  | setCode (addr : Address) (code : Bytes)
  | setNonce (addr : Address) (nonce : UInt64)
  | setTransientState (addr : Address) (key val : Hash)
  | addRefund (gas : UInt64)
  | subRefund (gas : UInt64)
  | addAddressToAccessList (addr : Address)
  | addSlotToAccessList (addr : Address) (slot : Hash)
  | prepare (sender coinbase : Address) (dest : Option Address) (precompiles : List Address)
      (txAccesses : List (Address × List Hash))
  | addLog (l : Log)
  | addSurplus (surplus : Option ℤ)
  | native (call : Stores β γ → Effect β γ)
  | snapshot
  | revertToSnapshot (rev : Nat)

namespace DBImpl

variable {β γ : Type} (k : Keepers β γ)

def step (op : Op β γ) (s : DBImpl β γ) : Outcome (DBImpl β γ) :=
  match op with
  | .subBalance addr amt => s.subBalance k addr amt
  | .addBalance addr amt => s.addBalance k addr amt
  | .transferWithoutEvents sender recipient amount =>
    s.transferWithoutEvents k sender recipient amount
  | .setBalance addr amt => s.setBalance k addr amt
  | .createAccount acc => .ok (s.createAccount acc)
  | .selfDestruct acc => s.selfDestruct k acc
  | .selfdestruct6780 acc => s.selfdestruct6780 k acc
  | .setState addr key val => .ok (s.commit (setState addr key val))
  | .setStorage addr states => .ok (s.setStorage addr states)
  | .setCode addr code => .ok (s.commit (setCode k s.view addr code))
  | .setNonce addr nonce => .ok (s.commit (setNonce addr nonce))
  | .setTransientState addr key val => .ok (s.setTransientState addr key val)
  | .addRefund gas => .ok (s.addRefund gas)
  | .subRefund gas => s.subRefund gas
  | .addAddressToAccessList addr => .ok (s.addAddressToAccessList addr)
  | .addSlotToAccessList addr slot => .ok (s.addSlotToAccessList addr slot)
  | .prepare sender coinbase dest precompiles txAccesses =>
    .ok (s.prepare sender coinbase dest precompiles txAccesses)
  | .addLog l => .ok (s.addLog l)
  | .addSurplus surplus => s.addSurplus surplus
  | .native call => .ok (s.commit (call s.view))
  | .snapshot => .ok s.snapshot.1
  | .revertToSnapshot rev => s.revertToSnapshot rev

def run (ops : List (Op β γ)) (s : DBImpl β γ) : Outcome (DBImpl β γ) :=
  ops.foldlM (fun s op => step k op s) s

/-- `NewDBImpl` on the context `ctx` over the stores `root`. -/
def newDBImpl (root : Stores β γ) (ctx : Ctx β γ) (txIndex : UInt64) (isTracing simulation : Bool) :
    DBImpl β γ :=
  (snapshot
    { root, ctx, isTracing, simulation
      snapshottedCtxs := []
      tempStateCurrent := newTemporaryState
      tempStatesHist := []
      err := none
      coinbaseAddress := getCoinbaseAddress txIndex
      coinbaseEvmAddress :=
        (getFeeCollectorAddress k (ctx.dirty • root)).getD (FixedBytes.zero 20)
      eventsSuppressed := false
      aligned := rfl }).1

end DBImpl

structure MapOrder where
  visit : Nat → List (Address × AccountStatus) → List (Address × AccountStatus)
  perm : ∀ n l, (visit n l).Perm l

def entryOrder : MapOrder := ⟨fun _ l => l, fun _ l => .refl l⟩

def TemporaryState.accounts (ts : TemporaryState) : List (Address × AccountStatus) :=
  ts.transientAccounts.entries.map fun e => (e.1, e.2)

namespace DBImpl

variable {β γ : Type} (k : Keepers β γ) (s : DBImpl β γ)

/-- One account of `handleResidualFundsInDestructedAccounts`: what a destroyed account still
holds goes to the coinbase. -/
def handleResidualFunds (entry : Address × AccountStatus) (s : DBImpl β γ) :
    Outcome (DBImpl β γ) :=
  if entry.2 ≠ .deleted then .ok s else do
    let residual ← s.getBalance k entry.1
    if residual = 0 then .ok s else do
      let s ← s.subBalance k entry.1 residual
      s.addBalance k s.coinbaseEvmAddress residual

def clearIfDestructed (entry : Address × AccountStatus) (s : DBImpl β γ) : DBImpl β γ :=
  if entry.2 ≠ .deleted then s else s.commit (clearAccountState s.view entry.1)

/-- Both loops of `Finalize` over one layer, in the given orders. -/
def settle (residuals clears : List (Address × AccountStatus)) (s : DBImpl β γ) :
    Outcome (DBImpl β γ) := do
  let s ← residuals.foldlM (fun s entry => handleResidualFunds k entry s) s
  return clears.foldl (fun s entry => clearIfDestructed entry s) s

/-- The layers `Finalize` settles, the current one first, each with its two orders of visit.
Settling marks no account, so the maps are those at the start. -/
def settlements (order : MapOrder) :
    List (List (Address × AccountStatus) × List (Address × AccountStatus)) :=
  (s.tempStateCurrent :: s.tempStatesHist).mapIdx fun i ts =>
    (order.visit (2 * i) ts.accounts, order.visit (2 * i + 1) ts.accounts)

/-- `flushCtxs`: every cache but the oldest is written into the one under it. -/
def flushCtxs : DBImpl β γ :=
  match s.snapshottedCtxs, s.aligned with
  | [], _ => s
  | base :: rest, h =>
    { s with
      ctx := { s.ctx with dirty := 1 }
      snapshottedCtxs :=
        { base with dirty := Layers.writeBack base.dirty ((rest ++ [s.ctx]).map Ctx.dirty) } ::
          rest.map fun c => { c with dirty := 1 }
      aligned := by simpa using h }

/-- The calls of `flushEvents`: the events of every context but the oldest are emitted on the
oldest. -/
def flushEvents : Outcome (DBImpl β γ) :=
  match s.snapshottedCtxs, s.aligned with
  | [], _ => .error .indexOutOfRange
  | base :: rest, h =>
    .ok { s with
      snapshottedCtxs :=
        { base with events := base.events ++ (rest ++ [s.ctx]).flatMap Ctx.events } :: rest
      aligned := by simpa using h }

/-- `DBImpl.Finalize`: the state after, and the surplus or the recorded error. -/
def finalize (order : MapOrder) : Outcome (DBImpl β γ × Except String ℤ) :=
  if s.simulation then .error (.raised "should never call finalize on a simulation DB")
  else match s.err with
    | some e => .ok (s, .error e)
    | none => do
      let s ← (s.settlements order).foldlM (fun s l => settle k l.1 l.2 s) s
      let s ← s.flushCtxs.flushEvents
      let surplus ← sumSurplus s.tempStateCurrent s.tempStatesHist
      return (s, .ok surplus)

def originalStores : Stores β γ :=
  match s.snapshottedCtxs with
  | [] => s.view
  | base :: _ => base.dirty • s.root

def originalEvents : List Event :=
  match s.snapshottedCtxs with
  | [] => s.ctx.events
  | base :: _ => base.events

end DBImpl

end Tabi.StateDB
