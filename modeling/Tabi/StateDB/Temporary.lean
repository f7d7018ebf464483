import Tabi.StateDB.Keeper
import Mathlib.Data.List.AList

/-!
# StateDB — temporary state

The state of a transaction that is never written to a store: logs, transient storage, the created
and destroyed accounts, the refund counter, the access list and the surplus (`TemporaryState`,
`x/evm/state/statedb.go`).
-/

namespace Tabi.StateDB

open Support

inductive AccountStatus where
  | created
  | deleted
  deriving DecidableEq, Repr

structure Log where
  address : Address
  topics : List Hash
  data : Bytes
  index : Nat
  deriving DecidableEq

/-- `accessList`.  The index `-1` of an address without slots is `none`. -/
structure AccessList where
  addresses : Address → Option (Option Nat)
  slots : List (Hash → Bool)
  inRange : ∀ a i, addresses a = some (some i) → i < slots.length
  distinct : ∀ a b i, addresses a = some (some i) → addresses b = some (some i) → a = b

namespace AccessList

def empty : AccessList := ⟨fun _ => none, [], nofun, nofun⟩

def addAddress (al : AccessList) (addr : Address) : AccessList :=
  match al.addresses addr with
  | some _ => al
  | none =>
    have old : ∀ a i, (if a = addr then some none else al.addresses a) = some (some i) →
        al.addresses a = some (some i) := fun a i h => by
      split at h
      · cases h
      · exact h
    { al with
      addresses := fun a => if a = addr then some none else al.addresses a
      inRange := fun a i h => al.inRange a i (old a i h)
      distinct := fun a b i ha hb => al.distinct a b i (old a i ha) (old b i hb) }

theorem addresses_new (al : AccessList) (addr : Address) {a : Address} {i : Nat}
    (h : (if a = addr then some (some al.slots.length) else al.addresses a) = some (some i)) :
    a = addr ∧ i = al.slots.length ∨ i < al.slots.length ∧ al.addresses a = some (some i) := by
  split at h
  · rename_i e
    cases h
    exact .inl ⟨e, rfl⟩
  · exact .inr ⟨al.inRange a i h, h⟩

theorem inRange_new (al : AccessList) (addr : Address) (m : Hash → Bool) (a : Address) (i : Nat)
    (h : (if a = addr then some (some al.slots.length) else al.addresses a) = some (some i)) :
    i < (al.slots ++ [m]).length := by
  rw [List.length_append, List.length_singleton]
  rcases al.addresses_new addr h with ⟨-, e⟩ | ⟨e, -⟩ <;> omega

theorem distinct_new (al : AccessList) (addr a b : Address) (i : Nat)
    (ha : (if a = addr then some (some al.slots.length) else al.addresses a) = some (some i))
    (hb : (if b = addr then some (some al.slots.length) else al.addresses b) = some (some i)) :
    a = b := by
  rcases al.addresses_new addr ha with ⟨ea, ei⟩ | ⟨hi, ha'⟩
  · rcases al.addresses_new addr hb with ⟨eb, -⟩ | ⟨hi', -⟩
    · exact ea.trans eb.symm
    · omega
  · rcases al.addresses_new addr hb with ⟨-, ei'⟩ | ⟨-, hb'⟩
    · omega
    · exact al.distinct a b i ha' hb'

theorem inRange_modify (al : AccessList) (idx : Nat) (f : (Hash → Bool) → Hash → Bool) (a : Address)
    (i : Nat) (h : al.addresses a = some (some i)) : i < (al.slots.modify idx f).length := by
  rw [List.length_modify]
  exact al.inRange a i h

/-- `AddSlotToAccessList`: the slot set of an address that has one is extended in place, and any
other address gets a new set at the end of the list. -/
def addSlot (al : AccessList) (addr : Address) (slot : Hash) : AccessList :=
  match al.addresses addr with
  | some (some idx) =>
    { al with
      slots := al.slots.modify idx (fun m h => decide (h = slot) || m h)
      inRange := al.inRange_modify idx _ }
  | _ =>
    { addresses := fun a => if a = addr then some (some al.slots.length) else al.addresses a
      slots := al.slots ++ [fun h => decide (h = slot)]
      inRange := al.inRange_new addr _
      distinct := al.distinct_new addr }

def check (al : AccessList) (addr : Address) (slot : Hash) : Outcome (Bool × Bool) :=
  match al.addresses addr with
  | none => .ok (false, false)
  | some none => .ok (true, false)
  | some (some idx) =>
    match al.slots[idx]? with
    | none => .error .indexOutOfRange
    | some m => .ok (true, m slot)

def hasAddress (al : AccessList) (addr : Address) : Bool := (al.addresses addr).isSome

def hasSlot (al : AccessList) (addr : Address) (slot : Hash) : Bool :=
  match al.addresses addr with
  | some (some idx) => ((al.slots[idx]?).map (· slot)).getD false
  | _ => false

theorem check_eq (al : AccessList) (addr : Address) (slot : Hash) :
    al.check addr slot = .ok (al.hasAddress addr, al.hasSlot addr slot) := by
  unfold check hasAddress hasSlot
  match h : al.addresses addr with
  | none => rfl
  | some none => rfl
  | some (some idx) =>
    have hlt := al.inRange addr idx h
    simp [List.getElem?_eq_getElem hlt]

theorem hasAddress_of_hasSlot {al : AccessList} {addr : Address} {slot : Hash}
    (h : al.hasSlot addr slot = true) : al.hasAddress addr = true := by
  unfold hasSlot at h
  unfold hasAddress
  split at h
  · rename_i e; rw [e]; rfl
  · cases h

theorem hasAddress_addAddress (al : AccessList) (addr a : Address) :
    (al.addAddress addr).hasAddress a = (decide (a = addr) || al.hasAddress a) := by
  unfold addAddress
  split
  · rename_i x h
    by_cases e : a = addr
    · subst e; simp [hasAddress, h]
    · simp [e]
  · by_cases e : a = addr <;> simp [hasAddress, e]

theorem hasSlot_addAddress (al : AccessList) (addr a : Address) (h : Hash) :
    (al.addAddress addr).hasSlot a h = al.hasSlot a h := by
  unfold addAddress
  split
  · rfl
  · rename_i hnone
    by_cases e : a = addr
    · subst e; simp [hasSlot, hnone]
    · simp [hasSlot, e]

theorem hasAddress_addSlot (al : AccessList) (addr a : Address) (slot : Hash) :
    (al.addSlot addr slot).hasAddress a = (decide (a = addr) || al.hasAddress a) := by
  unfold addSlot
  split
  · rename_i idx h
    by_cases e : a = addr
    · subst e; simp [hasAddress, h]
    · simp [hasAddress, e]
  · by_cases e : a = addr <;> simp [hasAddress, e]

theorem hasSlot_addSlot (al : AccessList) (addr a : Address) (slot h : Hash) :
    (al.addSlot addr slot).hasSlot a h =
      (decide (a = addr ∧ h = slot) || al.hasSlot a h) := by
  unfold addSlot
  split
  · rename_i idx hidx
    by_cases e : a = addr
    · subst e
      have hlt := al.inRange a idx hidx
      simp [hasSlot, hidx, List.getElem?_eq_getElem hlt]
    · -- another address has another index, whose set is not touched
      unfold hasSlot
      dsimp only
      split
      · rename_i j hj
        have hne : idx ≠ j := fun e' => e (al.distinct a addr j hj (e' ▸ hidx))
        simp [hne, e]
      · simp [e]
  · rename_i hnone
    by_cases e : a = addr
    · subst e
      have hno : al.hasSlot a h = false := by
        unfold hasSlot
        split
        · rename_i idx hidx; exact absurd hidx (hnone idx)
        · rfl
      rw [hno]
      simp [hasSlot]
    · unfold hasSlot
      simp only [e, if_false, false_and, decide_false, Bool.false_or]
      split
      · rename_i j hj
        rw [List.getElem?_append_left (al.inRange a j hj)]
      · rfl

end AccessList

def gasRefundKey : Bytes := [0x01]

/-- `TemporaryState`.  A module state is eight bytes long: the refund counter is the only one. -/
structure TemporaryState where
  logs : List Log
  transientStates : Address → Hash → Option Hash
  transientAccounts : AList (fun _ : Address => AccountStatus)
  transientModuleStates : Bytes → Option (FixedBytes 8)
  transientAccessLists : AccessList
  surplus : ℤ

def newTemporaryState : TemporaryState where
  logs := []
  transientStates _ _ := none
  transientAccounts := ∅
  transientModuleStates _ := none
  transientAccessLists := .empty
  surplus := 0

section Read

variable (cur : TemporaryState) (hist : List TemporaryState)

def newestFirst {α : Type} (f : TemporaryState → Option α) : Option α :=
  (cur :: hist.reverse).findSome? f

def getTransientState (a : Address) (key : Hash) : Option Hash :=
  newestFirst cur hist fun ts => ts.transientStates a key

def getTransientAccount (a : Address) : Option AccountStatus :=
  newestFirst cur hist fun ts => ts.transientAccounts.lookup a

def getTransientModule (key : Bytes) : Option (FixedBytes 8) :=
  newestFirst cur hist fun ts => ts.transientModuleStates key

def addressInAccessList (a : Address) : Bool :=
  cur.transientAccessLists.hasAddress a || hist.any (·.transientAccessLists.hasAddress a)

def slotInOlder (a : Address) (slot : Hash) :
    List TemporaryState → Bool → Outcome (Bool × Bool)
  | [], addrOk => .ok (addrOk, false)
  | ts :: rest, addrOk => do
    let (ok, slotOk) ← ts.transientAccessLists.check a slot
    if slotOk then .ok (true, true) else slotInOlder a slot rest (addrOk || ok)

def slotInAccessList (a : Address) (slot : Hash) : Outcome (Bool × Bool) := do
  let (addrOk, slotOk) ← cur.transientAccessLists.check a slot
  if slotOk then .ok (true, true) else slotInOlder a slot hist addrOk

def getAllLogs : List Log := hist.flatMap (·.logs) ++ cur.logs

def sumSurplus : Outcome ℤ :=
  hist.foldlM (fun surplus ts => SdkInt.add surplus ts.surplus) cur.surplus

end Read

theorem newestFirst_eq {α : Type} (cur : TemporaryState) (hist : List TemporaryState)
    (f : TemporaryState → Option α) :
    newestFirst cur hist f = (f cur).or (hist.foldl (fun o ts => (f ts).or o) none) := by
  have older : ∀ (hist : List TemporaryState) (o : Option α),
      hist.foldl (fun o ts => (f ts).or o) o = (hist.reverse.findSome? f).or o := by
    intro hist
    induction hist with
    | nil => exact fun o => rfl
    | cons ts hist ih =>
      intro o
      rw [List.foldl_cons, ih, List.reverse_cons, List.findSome?_append, Option.or_assoc]
      congr 1
      cases h : f ts <;> simp [h]
  rw [older, Option.or_none, newestFirst, List.findSome?_cons]
  cases f cur <;> rfl

theorem slotInOlder_eq (a : Address) (slot : Hash) (hist : List TemporaryState) (addrOk : Bool) :
    slotInOlder a slot hist addrOk =
      .ok (addrOk || hist.any (·.transientAccessLists.hasAddress a),
        hist.any (·.transientAccessLists.hasSlot a slot)) := by
  induction hist generalizing addrOk with
  | nil => simp [slotInOlder]
  | cons ts hist ih =>
    rw [slotInOlder, AccessList.check_eq, Outcome.ok_bind]
    dsimp only
    split
    · rename_i h
      simp [h, AccessList.hasAddress_of_hasSlot h]
    · rename_i h
      simp [ih, h, Bool.or_assoc]

theorem slotInAccessList_eq (cur : TemporaryState) (hist : List TemporaryState) (a : Address)
    (slot : Hash) :
    slotInAccessList cur hist a slot =
      .ok (addressInAccessList cur hist a,
        cur.transientAccessLists.hasSlot a slot ||
          hist.any (·.transientAccessLists.hasSlot a slot)) := by
  rw [slotInAccessList, AccessList.check_eq, Outcome.ok_bind]
  dsimp only
  split
  · rename_i h
    simp [addressInAccessList, h, AccessList.hasAddress_of_hasSlot h]
  · rename_i h
    simp [addressInAccessList, slotInOlder_eq, h]

end Tabi.StateDB
