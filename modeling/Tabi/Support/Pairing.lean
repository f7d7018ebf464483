import Mathlib.Data.Set.Function
import Mathlib.Logic.Function.Basic
import Mathlib.Tactic.Common

/-!
# Support — Pairing

Two tables that give each thing two names: one leads from the first name to the second, the other
back.
-/

namespace Support

variable {ι α β : Type}

def MutuallyInverse (f : α → Option β) (g : β → Option α) : Prop :=
  ∀ a b, f a = some b ↔ g b = some a

def Table (E : ι → α) (T : ι → β) (S : Set ι) (f : α → Option β) : Prop :=
  ∀ a b, f a = some b ↔ ∃ x ∈ S, E x = a ∧ T x = b

namespace Table

variable {E : ι → α} {T : ι → β} {S U : Set ι} {f : α → Option β} {x : ι}

theorem empty (hf : ∀ a, f a = none) : Table E T ∅ f := by
  intro a b
  simp [hf a]

variable [DecidableEq α]

theorem insert (h : Table E T S f) (hE : U.InjOn E) (hS : S ⊆ U) (hx : x ∈ U) :
    Table E T (Insert.insert x S) (Function.update f (E x) (some (T x))) := by
  intro a b
  by_cases e : a = E x
  · subst e
    rw [Function.update_self]
    constructor
    · intro hb
      exact ⟨x, Set.mem_insert x S, rfl, Option.some.inj hb⟩
    · -- another thing cannot have the first name of `x`
      rintro ⟨y, hy, hEy, rfl⟩
      rw [hE (Set.insert_subset hx hS hy) hx hEy]
  · rw [Function.update_of_ne e, h]
    constructor
    · rintro ⟨y, hy, hEy, hTy⟩
      exact ⟨y, Set.mem_insert_of_mem x hy, hEy, hTy⟩
    · rintro ⟨y, hy, hEy, hTy⟩
      rcases Set.mem_insert_iff.mp hy with rfl | hy
      · exact absurd hEy.symm e
      · exact ⟨y, hy, hEy, hTy⟩

theorem erase (h : Table E T S f) (hE : U.InjOn E) (hS : S ⊆ U) (hx : x ∈ S) :
    Table E T (S \ {x}) (Function.update f (E x) none) := by
  intro a b
  by_cases e : a = E x
  · subst e
    rw [Function.update_self]
    refine ⟨nofun, ?_⟩
    rintro ⟨y, ⟨hy, hyx⟩, hEy, -⟩
    exact absurd (hE (hS hy) (hS hx) hEy) hyx
  · rw [Function.update_of_ne e, h]
    constructor
    · rintro ⟨y, hy, rfl, hTy⟩
      exact ⟨y, ⟨hy, fun hyx => e (by rw [hyx])⟩, rfl, hTy⟩
    · rintro ⟨y, ⟨hy, -⟩, hEy, hTy⟩
      exact ⟨y, hy, hEy, hTy⟩

end Table

structure Lists (E : ι → α) (T : ι → β) (S : Set ι) (f : α → Option β) (g : β → Option α) :
    Prop where
  fst : Table E T S f
  snd : Table T E S g

namespace Lists

variable {E : ι → α} {T : ι → β} {S U : Set ι} {f : α → Option β} {g : β → Option α} {x : ι}

theorem empty (hf : ∀ a, f a = none) (hg : ∀ b, g b = none) : Lists E T ∅ f g :=
  ⟨.empty hf, .empty hg⟩

theorem mutuallyInverse (h : Lists E T S f g) : MutuallyInverse f g := by
  intro a b
  rw [h.fst a b, h.snd b a]
  exact exists_congr fun x => and_congr_right fun _ => and_comm

variable [DecidableEq α] [DecidableEq β]

theorem insert (h : Lists E T S f g) (hE : U.InjOn E) (hT : U.InjOn T) (hS : S ⊆ U) (hx : x ∈ U) :
    Lists E T (Insert.insert x S) (Function.update f (E x) (some (T x)))
      (Function.update g (T x) (some (E x))) :=
  ⟨h.fst.insert hE hS hx, h.snd.insert hT hS hx⟩

theorem erase (h : Lists E T S f g) (hE : U.InjOn E) (hT : U.InjOn T) (hS : S ⊆ U) (hx : x ∈ S) :
    Lists E T (S \ {x}) (Function.update f (E x) none) (Function.update g (T x) none) :=
  ⟨h.fst.erase hE hS hx, h.snd.erase hT hS hx⟩

end Lists

end Support
