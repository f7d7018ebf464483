import Tabi.Receipts.Writers

/-!
# Receipts — transactions

What a transaction of a block does to the transient store, when it succeeds.
-/

namespace Tabi.Receipts

open Support StateDB Synthetic

variable {β γ : Type}

structure Frame (β γ : Type) where
  db : DBImpl β γ
  transient : Transient
  saved : List Transient

namespace Frame

def opened (k : Keepers β γ) (root : Stores β γ) (ctx : Ctx β γ) (tx : Tx) (t : Transient) :
    Frame β γ :=
  ⟨DBImpl.newDBImpl k root ctx tx.txIndex false false, t, [t]⟩

/-- The transient stores after an operation.  `Prepare` takes a snapshot too. -/
def stores (op : Op β γ) (t : Transient) (saved : List Transient) :
    Outcome (Transient × List Transient) :=
  match op with
  | .snapshot | .prepare .. => .ok (t, saved ++ [t])
  | .revertToSnapshot rev =>
    match saved[rev]? with
    | none => .error .indexOutOfRange
    | some t => .ok (t, saved.take rev ++ [t])
  | _ => .ok (t, saved)

def step (k : Keepers β γ) (op : Op β γ) (f : Frame β γ) : Outcome (Frame β γ) := do
  let db ← DBImpl.step k op f.db
  let (transient, saved) ← stores op f.transient f.saved
  return ⟨db, transient, saved⟩

end Frame

def hashOf (tx : Tx) : Hash := tx.evmTxHash.getD tx.checksum

section

variable (geth : Geth) (cdc : Codec) (k : Keepers β γ) (tx : Tx)

inductive Runs : Bool → Frame β γ → Frame β γ → Prop where
  | refl {calls : Bool} (f : Frame β γ) : Runs calls f f
  | op {calls : Bool} {f f₁ f₂ : Frame β γ} {o : Op β γ} (h : f.step k o = .ok f₁)
      (rest : Runs calls f₁ f₂) : Runs calls f f₂
  | call {f g f₂ : Frame β γ} {root : Stores β γ} {ctx : Ctx β γ} {order : MapOrder}
      {db : DBImpl β γ} {surplus : ℤ} {msg : Message} {gasUsed : UInt64}
      {precompileError : Option Bytes} {t : Transient} {e : Effect β γ}
      (inner : Runs true (Frame.opened k root ctx tx f.transient) g)
      (hfin : g.db.finalize k order = .ok (db, .ok surplus))
      (h : recordCall geth cdc g.transient tx db msg gasUsed precompileError surplus = .ok t)
      (rest : Runs true { f with db := f.db.commit e, transient := t } f₂) : Runs true f f₂

inductive Calls (t : Transient) : Transient → Prop where
  | intro {g : Frame β γ} {root : Stores β γ} {ctx : Ctx β γ} {order : MapOrder}
      {db : DBImpl β γ} {surplus : ℤ} {msg : Message} {gasUsed : UInt64}
      {precompileError : Option Bytes} {t' : Transient}
      (inner : Runs geth cdc k tx true (Frame.opened k root ctx tx t) g)
      (hfin : g.db.finalize k order = .ok (db, .ok surplus))
      (h : recordCall geth cdc g.transient tx db msg gasUsed precompileError surplus = .ok t') :
      Calls t t'

inductive Messages : Transient → Transient → Prop where
  | refl (t : Transient) : Messages t t
  | call {t t₁ t₂ : Transient} (h : Calls geth cdc k tx t t₁) (rest : Messages t₁ t₂) :
      Messages t t₂

inductive Transacts (txHash : Hash) (t : Transient) : Transient → Prop where
  | intro {g : Frame β γ} {root : Stores β γ} {ctx : Ctx β γ} {order : MapOrder}
      {db : DBImpl β γ} {surplus : ℤ} {viaWasmd : Bool} {x : Executed} {t' : Transient}
      (inner : Runs geth cdc k tx viaWasmd (Frame.opened k root ctx tx t) g)
      (hfin : g.db.finalize k order = .ok (db, .ok surplus))
      (h : recordTransaction geth cdc g.transient tx db txHash viaWasmd x surplus = .ok t') :
      Transacts txHash t t'

def Hooked (t t' : Transient) : Prop :=
  ∃ (env : Env β γ) (events : List Event) (logs : List Log), env.createBloom = geth.createBloom ∧
    addCosmosEventsToEVMReceiptIfApplicable env cdc t tx events = .ok (t', logs)

/-- A transaction that succeeds.  A transaction that only associates addresses does nothing to the
transient store, and counts as no EVM message (`GetEVMMsg`). -/
inductive Succeeds (t : Transient) : Transient → Prop where
  | evm {txHash : Hash} {t₁ t₂ : Transient} (hash : tx.evmTxHash = some txHash)
      (transacts : Transacts geth cdc k tx txHash t t₁)
      (hook : @Hooked β γ geth cdc tx t₁ t₂) : Succeeds t t₂
  | cosmos {t₁ t₂ : Transient} (hash : tx.evmTxHash = none)
      (messages : Messages geth cdc k tx t t₁)
      (hook : @Hooked β γ geth cdc tx t₁ t₂) : Succeeds t t₂
  | associate (hash : tx.evmTxHash = none) : Succeeds t t

end

end Tabi.Receipts
