import Mathlib.Data.List.Induction
import Mathlib.Tactic.Common

/-!
# Support — Trace

Runs of a labelled transition system, with the labels they show.
-/

namespace Support

variable {σ ℓ α : Type}

inductive Trace (step : σ → ℓ → σ → Prop) (init : σ) : List ℓ → σ → Prop where
  | nil : Trace step init [] init
  | snoc {τ : List ℓ} {s s' : σ} {l : ℓ} (h : Trace step init τ s) (hs : step s l s') :
      Trace step init (τ ++ [l]) s'

namespace Trace

variable {step : σ → ℓ → σ → Prop} {init : σ}

theorem invariant {I : List ℓ → σ → Prop} (hinit : I [] init)
    (hstep : ∀ τ s l s', I τ s → step s l s' → I (τ ++ [l]) s') {τ : List ℓ} {s : σ}
    (h : Trace step init τ s) : I τ s := by
  induction h with
  | nil => exact hinit
  | snoc _ hs ih => exact hstep _ _ _ _ ih hs

theorem split {τ : List ℓ} {s : σ} (h : Trace step init τ s) :
    ∀ {a b : List ℓ} {l : ℓ}, τ = a ++ l :: b →
      ∃ s₀ s₁, Trace step init a s₀ ∧ step s₀ l s₁ := by
  induction h with
  | nil =>
    intro a b l e
    exact absurd e (by simp)
  | snoc h hs ih =>
    intro a b l e
    rcases List.eq_nil_or_concat b with rfl | ⟨b', l', rfl⟩
    · obtain ⟨rfl, hl⟩ := List.append_inj' e rfl
      cases hl
      exact ⟨_, _, h, hs⟩
    · rw [List.concat_eq_append, ← List.cons_append, ← List.append_assoc] at e
      exact ih (List.append_inj' e rfl).1

theorem last {τ : List ℓ} {l : ℓ} {s : σ} (h : Trace step init (τ ++ [l]) s) :
    ∃ m, Trace step init τ m ∧ step m l s := by
  generalize e : τ ++ [l] = τ' at h
  cases h with
  | nil => simp at e
  | snoc h hs =>
    obtain ⟨rfl, hl⟩ := List.append_inj' e rfl
    obtain rfl := List.singleton_inj.mp hl
    exact ⟨_, h, hs⟩

theorem middle {a b : List ℓ} {s : σ} (h : Trace step init (a ++ b) s) :
    ∃ m, Trace step init a m ∧ Trace step m b s := by
  induction b using List.reverseRecOn generalizing s with
  | nil => exact ⟨s, by simpa using h, .nil⟩
  | append_singleton b l ih =>
    rw [← List.append_assoc] at h
    obtain ⟨s', h', hs⟩ := h.last
    obtain ⟨m, ha, hb⟩ := ih h'
    exact ⟨m, ha, hb.snoc hs⟩

theorem append {a b : List ℓ} {m s : σ} (ha : Trace step init a m) (hb : Trace step m b s) :
    Trace step init (a ++ b) s := by
  induction hb with
  | nil => simpa using ha
  | snoc _ hs ih =>
    rw [← List.append_assoc]
    exact ih.snoc hs

end Trace

section Episode

variable (opens : ℓ → Option α) (closes : ℓ → Bool)

def Episode.next (e : Option (α × List ℓ)) (l : ℓ) : Option (α × List ℓ) :=
  match opens l with
  | some a => some (a, [])
  | none => if closes l then none else e.map fun p => (p.1, p.2 ++ [l])

def episode (τ : List ℓ) : Option (α × List ℓ) := τ.foldl (Episode.next opens closes) none

variable {opens closes}

theorem episode_snoc (τ : List ℓ) (l : ℓ) :
    episode opens closes (τ ++ [l]) = Episode.next opens closes (episode opens closes τ) l := by
  rw [episode, List.foldl_append]
  rfl

theorem episode_eq_some {τ b : List ℓ} {x : α} (h : episode opens closes τ = some (x, b)) :
    ∃ a l, τ = a ++ l :: b ∧ opens l = some x ∧ ∀ l' ∈ b, closes l' = false := by
  induction τ using List.reverseRecOn generalizing b with
  | nil => cases h
  | append_singleton τ l ih =>
    rw [episode_snoc, Episode.next] at h
    split at h
    · rename_i y hy
      cases h
      exact ⟨τ, l, rfl, hy, nofun⟩
    · split at h
      · cases h
      · rename_i hclose
        obtain ⟨⟨y, c⟩, hep, hb⟩ := Option.map_eq_some_iff.mp h
        cases hb
        obtain ⟨a, l', rfl, hopen, hc⟩ := ih hep
        refine ⟨a, l', by simp, hopen, fun l'' hl'' => ?_⟩
        rcases List.mem_append.mp hl'' with h' | h'
        · exact hc l'' h'
        · rw [List.mem_singleton.mp h']
          exact Bool.eq_false_iff.mpr hclose

end Episode

end Support
