import Tabi.Precompile.Gas

/-!
# Precompile — metered code

`GasM σ` is code that runs on a Cosmos gas meter.
-/

namespace Tabi.Precompile

open Support

inductive Stop where
  | error (message : Bytes)
  | panic (p : Panic)
  deriving DecidableEq

structure World (σ : Type) where
  consumed : UInt64
  store : σ
  events : List Event

abbrev GasM (σ : Type) := ReaderT GasMeter (StateT (World σ) (Except Stop))

namespace GasM

variable {σ α β : Type}

def fail (message : Bytes) : GasM σ α := fun _ _ => .error (.error message)

def failText (message : String) : GasM σ α := fail (Bytes.ofString message)

def panic (p : Panic) : GasM σ α := fun _ _ => .error (.panic p)

/-- A keeper that was never set: a call through its nil interface panics. -/
instance : Inhabited (GasM σ α) := ⟨panic .nilDereference⟩

def consumeGas (amount : UInt64) : GasM σ Unit := fun m w =>
  if 2 ^ 64 ≤ w.consumed.toNat + (m.adjust amount).toNat then
    .error (.panic (.raised "gas overflow"))
  else if m.limit < w.consumed + m.adjust amount then .error (.panic .outOfGas)
  else .ok ((), { w with consumed := w.consumed + m.adjust amount })

def ofOutcome : Outcome α → GasM σ α
  | .ok a => pure a
  | .error p => panic p

/-- A deferred `recover` that turns a panic into an error. -/
def recovering (message : Panic → Bytes) (x : GasM σ α) : GasM σ α := fun m w =>
  match x m w with
  | .error (.panic p) => .error (.error (message p))
  | r => r

def Reads (x : GasM σ α) (P : σ → α → Prop) : Prop :=
  ∀ ⦃m w a w'⦄, x m w = .ok (a, w') → P w.store a ∧ w'.store = w.store

variable {m : GasMeter} {w w' : World σ}

variable {x : GasM σ α} {a : α}

theorem steps_iff {f : α → GasM σ β} {b : β} :
    (x >>= f) m w = .ok (b, w') ↔ ∃ a w₁, x m w = .ok (a, w₁) ∧ f a m w₁ = .ok (b, w') := by
  show (x m w >>= fun p => f p.1 m p.2) = _ ↔ _
  cases x m w with
  | ok p => exact ⟨fun h => ⟨p.1, p.2, rfl, h⟩, fun ⟨_, _, e, h⟩ => by cases e; exact h⟩
  | error e => exact ⟨nofun, fun ⟨_, _, e, _⟩ => nomatch e⟩

theorem bind_of_ok {f : α → GasM σ β} {w₁ : World σ} (h : x m w = .ok (a, w₁)) :
    (x >>= f) m w = f a m w₁ := by
  show (x m w >>= fun p => f p.1 m p.2) = _
  rw [h]
  rfl

theorem ofOutcome_eq_ok {x : Outcome α} :
    (ofOutcome x : GasM σ α) m w = .ok (a, w') ↔ x = .ok a ∧ w' = w := by
  cases x with
  | ok b =>
    constructor
    · intro h; cases h; exact ⟨rfl, rfl⟩
    · rintro ⟨h, rfl⟩; cases h; rfl
  | error p => exact ⟨nofun, nofun⟩

theorem recovering_eq_ok {message : Panic → Bytes} :
    recovering message x m w = .ok (a, w') ↔ x m w = .ok (a, w') := by
  unfold recovering
  split
  · rename_i p h
    rw [h]
    exact ⟨nofun, nofun⟩
  · exact Iff.rfl

theorem guard_eq_ok {p : Prop} [Decidable p] {message : Bytes} {x : GasM σ β} {b : β} :
    (if p then (fail message : GasM σ α) >>= fun _ => x else x) m w = .ok (b, w') ↔
      ¬ p ∧ x m w = .ok (b, w') := by
  split
  · rename_i h
    exact ⟨nofun, fun h' => absurd h h'.1⟩
  · rename_i h
    exact ⟨fun h' => ⟨h, h'⟩, fun h' => h'.2⟩

end GasM

end Tabi.Precompile
