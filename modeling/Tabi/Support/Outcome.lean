import Mathlib.Tactic.Common

/-!
# Support — Outcome

The result of a call that may panic.
-/

namespace Support

inductive Panic where
  | indexOutOfRange
  | nilDereference
  | integerOverflow
  | divisionByZero
  | outOfGas
  | raised (message : String)
  deriving DecidableEq, Repr

variable {ε α β : Type} {x : Except ε α} {f : α → Except ε β} {xs : List α} {ys : List β}

theorem bind_eq_ok {b : β} : (x >>= f) = .ok b ↔ ∃ a, x = .ok a ∧ f a = .ok b := by
  cases x with
  | ok a => exact ⟨fun h => ⟨a, rfl, h⟩, fun ⟨_, e, h⟩ => by cases e; exact h⟩
  | error p => exact ⟨nofun, fun ⟨_, e, _⟩ => nomatch e⟩

theorem mapError_eq_ok {ε' : Type} {f : ε → ε'} {a : α} : x.mapError f = .ok a ↔ x = .ok a := by
  cases x with
  | ok b => simp [Except.mapError]
  | error e => simp [Except.mapError]

theorem map_eq_ok {f : α → β} {b : β} : x.map f = .ok b ↔ ∃ a, x = .ok a ∧ f a = b := by
  cases x with
  | ok a => exact ⟨fun h => ⟨a, rfl, Except.ok.inj h⟩, fun ⟨_, e, h⟩ => by cases e; rw [← h]; rfl⟩
  | error p => exact ⟨nofun, nofun⟩

theorem mapM_eq_ok {g : α → β} (h : ∀ a ∈ xs, f a = .ok (g a)) : xs.mapM f = .ok (xs.map g) := by
  induction xs with
  | nil => rfl
  | cons a xs ih =>
    rw [List.mapM_cons, h a List.mem_cons_self, ih fun b hb => h b (List.mem_cons_of_mem a hb)]
    rfl

theorem foldlM_obs {σ ρ : Type} {f : σ → α → Except ε σ} (obs : σ → ρ) (g : ρ → α → ρ)
    (hstep : ∀ {s a s'}, f s a = .ok s' → obs s' = g (obs s) a) {s s' : σ}
    (h : xs.foldlM f s = .ok s') : obs s' = xs.foldl g (obs s) := by
  induction xs generalizing s with
  | nil =>
    cases h
    rfl
  | cons a xs ih =>
    rw [List.foldlM_cons] at h
    obtain ⟨s₁, h₁, h⟩ := bind_eq_ok.mp h
    rw [ih h, List.foldl_cons, hstep h₁]

theorem exists_mapM_iff {P : β → Prop} :
    (∃ ys, xs.mapM f = .ok ys ∧ ∀ y ∈ ys, P y) ↔ ∀ x ∈ xs, ∃ y, f x = .ok y ∧ P y := by
  induction xs with
  | nil => exact ⟨fun _ => nofun, fun _ => ⟨[], rfl, nofun⟩⟩
  | cons x xs ih =>
    rw [List.forall_mem_cons, ← ih]
    constructor
    · rintro ⟨ys, h, hP⟩
      rw [List.mapM_cons, bind_eq_ok] at h
      obtain ⟨y, hy, h⟩ := h
      obtain ⟨ys', hys, h⟩ := bind_eq_ok.mp h
      cases h
      exact ⟨⟨y, hy, hP y List.mem_cons_self⟩, ys', hys,
        fun z hz => hP z (List.mem_cons_of_mem y hz)⟩
    · rintro ⟨⟨y, hy, hPy⟩, ys, hys, hP⟩
      refine ⟨y :: ys, ?_, List.forall_mem_cons.mpr ⟨hPy, hP⟩⟩
      rw [List.mapM_cons, hy, hys]
      rfl

theorem mem_of_mapM (h : xs.mapM f = .ok ys) {x : α} (hx : x ∈ xs) : ∃ y ∈ ys, f x = .ok y := by
  obtain ⟨y, hy, hmem⟩ := exists_mapM_iff.mp ⟨ys, h, fun _ hy => hy⟩ x hx
  exact ⟨y, hmem, hy⟩

theorem exists_of_mem_mapM (h : xs.mapM f = .ok ys) {y : β} (hy : y ∈ ys) :
    ∃ x ∈ xs, f x = .ok y := by
  have hall : ∀ x ∈ xs, ∃ y, f x = .ok y ∧ ∃ x ∈ xs, f x = .ok y := fun x hx => by
    obtain ⟨y, -, hy⟩ := mem_of_mapM h hx
    exact ⟨y, hy, x, hx, hy⟩
  obtain ⟨ys', h', hcalls⟩ := exists_mapM_iff.mpr hall
  cases h.symm.trans h'
  exact hcalls y hy

theorem length_of_mapM (h : xs.mapM f = .ok ys) : ys.length = xs.length := by
  induction xs generalizing ys with
  | nil =>
    cases h
    rfl
  | cons x xs ih =>
    rw [List.mapM_cons, bind_eq_ok] at h
    obtain ⟨y, -, h⟩ := h
    obtain ⟨ys', hys, h⟩ := bind_eq_ok.mp h
    cases h
    rw [List.length_cons, List.length_cons, ih hys]

abbrev Outcome (α : Type) := Except Panic α

namespace Outcome

variable {α β σ : Type}

variable {x : Outcome α} {f : α → Outcome β} {xs : List α} {ys : List β}

theorem bind_eq_error {p : Panic} :
    (x >>= f) = .error p ↔ x = .error p ∨ ∃ a, x = .ok a ∧ f a = .error p := by
  cases x with
  | ok a =>
    refine ⟨fun h => .inr ⟨a, rfl, h⟩, fun h => ?_⟩
    rcases h with h | ⟨_, e, h⟩
    · cases h
    · cases e; exact h
  | error q =>
    refine ⟨fun h => .inl (by cases h; rfl), fun h => ?_⟩
    rcases h with h | ⟨_, e, _⟩
    · cases h; rfl
    · cases e

theorem bind_returns (hx : ∃ a, x = .ok a) (hf : ∀ a, ∃ b, f a = .ok b) :
    ∃ b, (x >>= f) = .ok b := by
  obtain ⟨a, rfl⟩ := hx
  exact hf a

@[simp] theorem ok_bind (a : α) (f : α → Outcome β) : (Except.ok a >>= f : Outcome β) = f a := rfl

@[simp] theorem error_bind (p : Panic) (f : α → Outcome β) :
    (Except.error p >>= f : Outcome β) = .error p := rfl

@[simp] theorem pure_eq_ok (a : α) : (pure a : Outcome α) = .ok a := rfl

theorem foldlM_invariant {I : σ → Prop} {f : σ → α → Outcome σ}
    (hstep : ∀ s a s', a ∈ xs → I s → f s a = .ok s' → I s') :
    ∀ {s s' : σ}, I s → xs.foldlM f s = .ok s' → I s' := by
  induction xs with
  | nil =>
    intro s s' hI h
    cases h
    exact hI
  | cons a xs ih =>
    intro s s' hI h
    rw [List.foldlM_cons, bind_eq_ok] at h
    obtain ⟨s₁, h₁, h₂⟩ := h
    exact ih (fun s b s' hb => hstep s b s' (List.mem_cons_of_mem _ hb))
      (hstep s a s₁ List.mem_cons_self hI h₁) h₂

theorem exists_foldlM_iff {f : σ → α → Outcome σ} {I : σ → Prop} {P : α → Prop}
    (hstep : ∀ s a, (∃ s', f s a = .ok s' ∧ I s') ↔ I s ∧ P a) (xs : List α) (s : σ) :
    (∃ s', xs.foldlM f s = .ok s' ∧ I s') ↔ I s ∧ ∀ a ∈ xs, P a := by
  induction xs generalizing s with
  | nil => exact ⟨fun ⟨_, e, h⟩ => by cases e; exact ⟨h, nofun⟩, fun h => ⟨s, rfl, h.1⟩⟩
  | cons a xs ih =>
    rw [List.forall_mem_cons, ← and_assoc, ← hstep]
    constructor
    · rintro ⟨s', h, hI⟩
      rw [List.foldlM_cons, bind_eq_ok] at h
      obtain ⟨s₁, h₁, h⟩ := h
      obtain ⟨hI₁, hP⟩ := (ih s₁).mp ⟨s', h, hI⟩
      exact ⟨⟨s₁, h₁, hI₁⟩, hP⟩
    · rintro ⟨⟨s₁, h₁, hI₁⟩, hP⟩
      obtain ⟨s', h, hI⟩ := (ih s₁).mpr ⟨hI₁, hP⟩
      exact ⟨s', by rw [List.foldlM_cons, h₁, ok_bind, h], hI⟩

end Outcome

inductive Failure where
  | panic (p : Panic)
  | err (text : String)
  deriving DecidableEq, Repr

/-- A call that returns an `α`, returns an error or panics. -/
abbrev Fallible (α : Type) := Except Failure α

namespace Fallible

variable {α β : Type}

def ofOutcome (x : Outcome α) : Fallible α := x.mapError .panic

theorem ofOutcome_eq_ok {x : Outcome α} {a : α} : ofOutcome x = .ok a ↔ x = .ok a :=
  mapError_eq_ok

def require (p : Prop) [Decidable p] (text : String) : Fallible Unit :=
  if p then .ok () else .error (.err text)

theorem require_eq_ok {p : Prop} [Decidable p] {text : String} {u : Unit} :
    require p text = .ok u ↔ p := by
  unfold require
  split
  · rename_i h
    exact ⟨fun _ => h, fun _ => rfl⟩
  · rename_i h
    exact ⟨nofun, fun hp => absurd hp h⟩

def NoPanic (x : Fallible α) : Prop := ∀ p, x ≠ .error (.panic p)

theorem noPanic_ok (a : α) : NoPanic (.ok a) := nofun

theorem noPanic_require (p : Prop) [Decidable p] (text : String) : NoPanic (require p text) := by
  unfold require
  split
  · nofun
  · nofun

theorem noPanic_err (x : Except String α) : NoPanic (x.mapError .err : Fallible α) := by
  cases x with
  | ok a => nofun
  | error e => nofun

theorem noPanic_bind {x : Fallible α} {f : α → Fallible β} (hx : NoPanic x)
    (hf : ∀ a, x = .ok a → NoPanic (f a)) : NoPanic (x >>= f) := by
  cases x with
  | ok a => exact hf a rfl
  | error e =>
    intro p h
    cases h
    exact hx p rfl

end Fallible

end Support
