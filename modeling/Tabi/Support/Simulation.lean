import Tabi.Support.Outcome

/-!
# Support — Simulation

Two machines whose steps may panic, and a function that reads the abstract state off the concrete
one.
-/

namespace Support

variable {σ τ α : Type}

/-- The concrete step `f` does through `abs` what the abstract step `g` does, or ends in a panic
of its own. -/
def Simulates (E : Panic → Prop) (abs : σ → τ) (f : σ → Outcome σ) (g : τ → Outcome τ) : Prop :=
  ∀ s, (f s).map abs = g (abs s) ∨ ∃ p, E p ∧ f s = .error p

theorem foldl_abs (abs : σ → τ) {f : σ → α → σ} {g : τ → α → τ}
    (h : ∀ s a, abs (f s a) = g (abs s) a) (xs : List α) (s : σ) :
    abs (xs.foldl f s) = xs.foldl g (abs s) :=
  (List.foldl_hom abs fun s a => (h s a).symm).symm

namespace Simulates

variable {E : Panic → Prop} {abs : σ → τ} {f f' : σ → Outcome σ} {g g' : τ → Outcome τ}

theorem ok (h : Simulates E abs f g) {s s' : σ} (hs : f s = .ok s') : g (abs s) = .ok (abs s') := by
  rcases h s with e | ⟨p, -, e⟩
  · rw [← e, hs]
    rfl
  · rw [hs] at e
    cases e

theorem total {f : σ → σ} {g : τ → τ} (h : ∀ s, abs (f s) = g (abs s)) :
    Simulates E abs (fun s => .ok (f s)) (fun t => .ok (g t)) :=
  fun s => .inl (congrArg Except.ok (h s))

theorem bind (h : Simulates E abs f g) (h' : Simulates E abs f' g') :
    Simulates E abs (fun s => f s >>= f') (fun t => g t >>= g') := by
  intro s
  rcases h s with e | ⟨p, hp, e⟩
  · dsimp only
    rw [← e]
    cases f s with
    | ok s' => exact h' s'
    | error p => exact .inl rfl
  · exact .inr ⟨p, hp, by simp [e]⟩

theorem comp {i : σ → σ} {j : τ → τ} (h : Simulates E abs f g) (hi : ∀ s, abs (i s) = j (abs s)) :
    Simulates E abs (fun s => f (i s)) (fun t => g (j t)) := by
  intro s
  have := h (i s)
  rwa [hi] at this

theorem read {r : σ → Outcome α} {r' : τ → Outcome α} {f : α → σ → Outcome σ}
    {g : α → τ → Outcome τ} (hr : ∀ s, r s = r' (abs s)) (h : ∀ a, Simulates E abs (f a) (g a)) :
    Simulates E abs (fun s => r s >>= fun a => f a s) (fun t => r' t >>= fun a => g a t) := by
  intro s
  dsimp only
  rw [← hr s]
  cases r s with
  | ok a => exact h a s
  | error p => exact .inl rfl

theorem ite {c : σ → Prop} {d : τ → Prop} [∀ s, Decidable (c s)] [∀ t, Decidable (d t)]
    (hc : ∀ s, c s ↔ d (abs s)) (h : Simulates E abs f g) (h' : Simulates E abs f' g') :
    Simulates E abs (fun s => if c s then f s else f' s) (fun t => if d t then g t else g' t) := by
  intro s
  dsimp only
  by_cases e : c s
  · rw [if_pos e, if_pos ((hc s).mp e)]
    exact h s
  · rw [if_neg e, if_neg (fun e' => e ((hc s).mpr e'))]
    exact h' s

theorem foldlM {f : α → σ → Outcome σ} {g : α → τ → Outcome τ}
    (h : ∀ a, Simulates E abs (f a) (g a)) (xs : List α) :
    Simulates E abs (fun s => xs.foldlM (fun s a => f a s) s)
      (fun t => xs.foldlM (fun t a => g a t) t) := by
  induction xs with
  | nil => exact fun s => .inl rfl
  | cons a xs ih =>
    simp only [List.foldlM_cons]
    exact bind (h a) ih

end Simulates

end Support
