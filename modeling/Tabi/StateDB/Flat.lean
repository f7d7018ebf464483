import Tabi.StateDB.Impl

/-!
# StateDB — the flat state database

What the layered database is for, said without layers.
-/

namespace Tabi.StateDB

open Support

structure World (β γ : Type) where
  store : Stores β γ
  events : List Event
  logs : List Log
  transient : Address → Hash → Hash
  status : Address → Option AccountStatus
  refund : UInt64
  accessAddress : Address → Bool
  accessSlot : Address → Hash → Bool
  surplus : ℤ

def World.start {β γ : Type} (store : Stores β γ) (events : List Event) : World β γ where
  store := store
  events := events
  logs := []
  transient _ _ := emptyHash
  status _ := none
  refund := 0
  accessAddress _ := false
  accessSlot _ _ := false
  surplus := 0

structure Flat (β γ : Type) where
  cur : World β γ
  saved : List (World β γ)
  err : Option String
  coinbaseAddress : AccAddress
  coinbaseEvmAddress : Address
  simulation : Bool
  eventsSuppressed : Bool
  isTracing : Bool

namespace Flat

variable {β γ : Type} (k : Keepers β γ) (t : Flat β γ)

def commit (e : Effect β γ) : Flat β γ :=
  { t with cur := { t.cur with
      store := e.writes • t.cur.store
      events := t.cur.events ++ e.events } }

def commitBank (r : Patch β γ × List Event) : Flat β γ :=
  t.commit ⟨.ofBank r.1, if t.eventsSuppressed then [] else r.2⟩

def snapshot : Flat β γ := { t with saved := t.saved ++ [t.cur] }

def revertToSnapshot (rev : Nat) : Outcome (Flat β γ) :=
  match t.saved[rev]? with
  | some w => .ok { t with cur := w, saved := t.saved.take (rev + 1) }
  | none => .error .indexOutOfRange

def markAccount (acc : Address) (status : AccountStatus) : Flat β γ :=
  { t with cur := { t.cur with
      status := fun a => if a = acc then some status else t.cur.status a } }

def created (acc : Address) : Bool := t.cur.status acc = some .created

def hasSelfDestructed (acc : Address) : Bool := t.cur.status acc = some .deleted

def setTransientState (addr : Address) (key val : Hash) : Flat β γ :=
  { t with cur := { t.cur with
      transient := fun a h => if a = addr ∧ h = key then val else t.cur.transient a h } }

def setRefund (gas : UInt64) : Flat β γ := { t with cur := { t.cur with refund := gas } }

def subRefund (gas : UInt64) : Outcome (Flat β γ) :=
  if t.cur.refund < gas then
    .error (.raised ("Refund counter below zero (gas: " ++ toString gas.toNat ++ " > refund: " ++
      toString t.cur.refund.toNat ++ ")"))
  else .ok (t.setRefund (t.cur.refund - gas))

def addAddressToAccessList (addr : Address) : Flat β γ :=
  { t with cur := { t.cur with
      accessAddress := fun a => decide (a = addr) || t.cur.accessAddress a } }

def addSlotToAccessList (addr : Address) (slot : Hash) : Flat β γ :=
  { t with cur := { t.cur with
      accessAddress := fun a => decide (a = addr) || t.cur.accessAddress a
      accessSlot := fun a h => decide (a = addr ∧ h = slot) || t.cur.accessSlot a h } }

def addLog (l : Log) : Flat β γ :=
  { t with cur := { t.cur with
      logs := t.cur.logs ++ [{ l with index := t.cur.logs.length }] } }

def bookSurplus (d : ℤ) : Flat β γ :=
  { t with cur := { t.cur with surplus := t.cur.surplus + d } }

def setErr (e : String) : Flat β γ := { t with err := some e }

def getTabiAddress (evmAddr : Address) : AccAddress :=
  if t.coinbaseEvmAddress = evmAddr then t.coinbaseAddress
  else getTabiAddressOrDefault t.cur.store evmAddr

def getBalance (evmAddr : Address) : Outcome ℤ :=
  StateDB.getBalance k t.cur.store (t.getTabiAddress evmAddr)

/-- The coins, the wei, then the surplus; an error of the bank is recorded. -/
def moveBalance (coins wei : BankCall β γ) (book : ℤ) (evmAddr : Address) (amt : ℤ) :
    Outcome (Flat β γ) := do
  let (atabi, weiAmt) ← splitAtabiWeiAmount amt
  let addr := t.getTabiAddress evmAddr
  match coins t.cur.store addr atabi with
  | .error e => .ok (t.setErr e)
  | .ok r =>
    let t := t.commitBank r
    match wei t.cur.store addr weiAmt with
    | .error e => .ok (t.setErr e)
    | .ok r => .ok ((t.commitBank r).bookSurplus book)

def debit (evmAddr : Address) (amt : ℤ) : Outcome (Flat β γ) :=
  t.moveBalance k.bank.subUnlockedCoins k.bank.subWei amt evmAddr amt

def credit (evmAddr : Address) (amt : ℤ) : Outcome (Flat β γ) :=
  t.moveBalance k.bank.addCoins k.bank.addWei (-amt) evmAddr amt

def subBalance (evmAddr : Address) (amt : ℤ) : Outcome (Flat β γ) :=
  if amt = 0 then .ok t
  else if amt < 0 then t.credit k evmAddr (-amt)
  else t.debit k evmAddr amt

def addBalance (evmAddr : Address) (amt : ℤ) : Outcome (Flat β γ) :=
  if amt = 0 then .ok t
  else if amt < 0 then t.debit k evmAddr (-amt)
  else t.credit k evmAddr amt

def suppressEvents (b : Bool) : Flat β γ := { t with eventsSuppressed := b }

def transferWithoutEvents (sender recipient : Address) (amount : ℤ) : Outcome (Flat β γ) := do
  let t ← (t.suppressEvents true).subBalance k sender amount
  let t ← t.addBalance k recipient amount
  return t.suppressEvents false

def send (src dst : AccAddress) (amt : ℤ) : Outcome (Flat β γ) := do
  let (atabi, wei) ← splitAtabiWeiAmount amt
  match k.bank.sendCoinsAndWei t.cur.store src dst atabi wei with
  | .error e => .ok (t.setErr e)
  | .ok r => .ok (t.commit ⟨.ofBank r.1, r.2⟩)

def panicOnErr : Outcome (Flat β γ) :=
  match t.err with
  | some e => .error (.raised e)
  | none => .ok t

def mintFor (amt : ℤ) : Outcome (Flat β γ) := do
  let (atabi, _) ← splitAtabiWeiAmount amt
  let coin ← SdkInt.add atabi 1
  if coin < 0 then .error (.raised "negative coin amount") else
    match k.bank.mintCoins t.cur.store coin with
    | .error e => .error (.raised e)
    | .ok r => .ok (t.commit ⟨.ofBank r.1, r.2⟩)

def setBalance (evmAddr : Address) (amt : ℤ) : Outcome (Flat β γ) :=
  if t.simulation = false then
    .error (.raised "should never call SetBalance in a non-simulation setting")
  else do
    let tabiAddr := t.getTabiAddress evmAddr
    let balance ← t.getBalance k evmAddr
    let t ← t.send k tabiAddr k.evmModuleAddress balance
    let t ← t.panicOnErr
    let t ← t.mintFor k amt
    let t ← t.send k k.evmModuleAddress tabiAddr amt
    t.panicOnErr

def createAccount (acc : Address) : Flat β γ :=
  (if t.isTracing then t else t.commit (clearAccountState t.cur.store acc)).markAccount acc .created

def setStorage (addr : Address) (states : List (Hash × Hash)) : Flat β γ :=
  states.foldl (fun t kv => t.commit (setState addr kv.1 kv.2))
    (t.commit (clearAccountState t.cur.store addr))

def dissociate (acc : Address) : Flat β γ :=
  match StateDB.getTabiAddress t.cur.store acc with
  | some tabiAddr => t.commit (deleteAddressMapping tabiAddr acc)
  | none => t

def selfDestruct (acc : Address) : Outcome (Flat β γ) := do
  let t := t.dissociate acc
  let balance ← t.getBalance k acc
  let t ← t.subBalance k acc balance
  return t.markAccount acc .deleted

def selfdestruct6780 (acc : Address) : Outcome (Flat β γ) :=
  if t.created acc then t.selfDestruct k acc else .ok t

def addPrecompile (addr : Address) : Flat β γ :=
  if DBImpl.customPrecompileStartingAddr ≤ beNat addr.bytes ∧ t.isTracing = false then t
  else t.addAddressToAccessList addr

def addAccessTuple (el : Address × List Hash) : Flat β γ :=
  el.2.foldl (fun t key => t.addSlotToAccessList el.1 key) (t.addAddressToAccessList el.1)

def prepare (sender coinbase : Address) (dest : Option Address) (precompiles : List Address)
    (txAccesses : List (Address × List Hash)) : Flat β γ :=
  let t := t.snapshot
  let t := t.addAddressToAccessList sender
  let t := match dest with
    | some dest => t.addAddressToAccessList dest
    | none => t
  let t := precompiles.foldl addPrecompile t
  let t := txAccesses.foldl addAccessTuple t
  t.addAddressToAccessList coinbase

def step (op : Op β γ) (t : Flat β γ) : Outcome (Flat β γ) :=
  match op with
  | .subBalance addr amt => t.subBalance k addr amt
  | .addBalance addr amt => t.addBalance k addr amt
  | .transferWithoutEvents sender recipient amount =>
    t.transferWithoutEvents k sender recipient amount
  | .setBalance addr amt => t.setBalance k addr amt
  | .createAccount acc => .ok (t.createAccount acc)
  | .selfDestruct acc => t.selfDestruct k acc
  | .selfdestruct6780 acc => t.selfdestruct6780 k acc
  | .setState addr key val => .ok (t.commit (setState addr key val))
  | .setStorage addr states => .ok (t.setStorage addr states)
  | .setCode addr code => .ok (t.commit (setCode k t.cur.store addr code))
  | .setNonce addr nonce => .ok (t.commit (setNonce addr nonce))
  | .setTransientState addr key val => .ok (t.setTransientState addr key val)
  | .addRefund gas => .ok (t.setRefund (t.cur.refund + gas))
  | .subRefund gas => t.subRefund gas
  | .addAddressToAccessList addr => .ok (t.addAddressToAccessList addr)
  | .addSlotToAccessList addr slot => .ok (t.addSlotToAccessList addr slot)
  | .prepare sender coinbase dest precompiles txAccesses =>
    .ok (t.prepare sender coinbase dest precompiles txAccesses)
  | .addLog l => .ok (t.addLog l)
  | .addSurplus surplus => .ok (t.bookSurplus (surplus.getD 0))
  | .native call => .ok (t.commit (call t.cur.store))
  | .snapshot => .ok t.snapshot
  | .revertToSnapshot rev => t.revertToSnapshot rev

def run (ops : List (Op β γ)) (t : Flat β γ) : Outcome (Flat β γ) :=
  ops.foldlM (fun t op => step k op t) t

/-- The flat database opened on a context, with the copy `NewDBImpl` takes. -/
def new (root : Stores β γ) (ctx : Ctx β γ) (txIndex : UInt64) (isTracing simulation : Bool) :
    Flat β γ where
  cur := .start (ctx.dirty • root) ctx.events
  saved := [.start (ctx.dirty • root) ctx.events]
  err := none
  coinbaseAddress := getCoinbaseAddress txIndex
  coinbaseEvmAddress := (getFeeCollectorAddress k (ctx.dirty • root)).getD (FixedBytes.zero 20)
  simulation := simulation
  eventsSuppressed := false
  isTracing := isTracing

end Flat

structure Observation where
  getBalance : Address → Outcome ℤ
  getNonce : Address → Nat
  getCode : Address → Bytes
  getCodeHash : Address → Outcome Hash
  getCodeSize : Address → Nat
  getState : Address → Hash → Hash
  getTransientState : Address → Hash → Hash
  getRefund : UInt64
  addressInAccessList : Address → Bool
  slotInAccessList : Address → Hash → Outcome (Bool × Bool)
  getAllLogs : List Log
  created : Address → Bool
  hasSelfDestructed : Address → Bool
  exist : Address → Outcome Bool
  empty : Address → Outcome Bool
  totalSurplus : ℤ

variable {β γ : Type} (k : Keepers β γ)

def DBImpl.observe (s : DBImpl β γ) : Observation where
  getBalance := s.getBalance k
  getNonce := getNonce s.view
  getCode := getCode s.view
  getCodeHash := getCodeHash k s.view
  getCodeSize := getCodeSize s.view
  getState := getState s.view
  getTransientState a h :=
    (getTransientState s.tempStateCurrent s.tempStatesHist a h).getD emptyHash
  getRefund := s.getRefund
  addressInAccessList := addressInAccessList s.tempStateCurrent s.tempStatesHist
  slotInAccessList := slotInAccessList s.tempStateCurrent s.tempStatesHist
  getAllLogs := getAllLogs s.tempStateCurrent s.tempStatesHist
  created := s.created
  hasSelfDestructed := s.hasSelfDestructed
  exist := s.exist k
  empty := s.empty k
  totalSurplus := s.totalSurplus

def Flat.observe (t : Flat β γ) : Observation where
  getBalance := t.getBalance k
  getNonce := getNonce t.cur.store
  getCode := getCode t.cur.store
  getCodeHash := getCodeHash k t.cur.store
  getCodeSize := getCodeSize t.cur.store
  getState := getState t.cur.store
  getTransientState := t.cur.transient
  getRefund := t.cur.refund
  addressInAccessList := t.cur.accessAddress
  slotInAccessList a h := .ok (t.cur.accessAddress a, t.cur.accessSlot a h)
  getAllLogs := t.cur.logs
  created := t.created
  hasSelfDestructed := t.hasSelfDestructed
  exist a := do
    let codeHash ← getCodeHash k t.cur.store a
    if codeHash ≠ emptyHash then return true
    if 0 < getNonce t.cur.store a then return true
    if 0 < (← t.getBalance k a) then return true
    return t.hasSelfDestructed a
  empty a := do
    let balance ← t.getBalance k a
    if balance ≠ 0 then return false
    if getNonce t.cur.store a ≠ 0 then return false
    return (← getCodeHash k t.cur.store a) = emptyHash
  totalSurplus := t.cur.surplus

end Tabi.StateDB
