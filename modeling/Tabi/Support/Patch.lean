import Mathlib.Algebra.Group.Action.Defs
import Mathlib.Data.Set.Defs
import Mathlib.Tactic.Common

/-!
# Support — Patch

A cache store records the writes made on top of a parent store without changing the parent.
-/

namespace Support

abbrev Store (κ ν : Type) := κ → Option ν

/-- The writes of one cache: a key is untouched (`none`), deleted (`some none`) or set
(`some (some v)`). -/
structure Patch (κ ν : Type) where
  writes : κ → Option (Option ν)

namespace Patch

variable {κ ν : Type}

@[ext] theorem ext {p q : Patch κ ν} (h : ∀ k, p.writes k = q.writes k) : p = q := by
  cases p; cases q; congr; exact funext h

instance : Monoid (Patch κ ν) where
  one := ⟨fun _ => none⟩
  mul p q := ⟨fun k => (p.writes k).or (q.writes k)⟩
  one_mul _ := rfl
  mul_one p := Patch.ext fun k => Option.or_none
  mul_assoc p q r := Patch.ext fun k => Option.or_assoc

instance : MulAction (Patch κ ν) (Store κ ν) where
  smul p m := fun k => (p.writes k).getD (m k)
  one_smul _ := rfl
  mul_smul p q m := funext fun k => by
    show ((p.writes k).or (q.writes k)).getD (m k) = (p.writes k).getD ((q.writes k).getD (m k))
    cases p.writes k <;> rfl

def set [DecidableEq κ] (k : κ) (v : ν) : Patch κ ν :=
  ⟨fun k' => if k' = k then some (some v) else none⟩

def delete [DecidableEq κ] (k : κ) : Patch κ ν :=
  ⟨fun k' => if k' = k then some none else none⟩

def deleteAll (p : κ → Bool) : Patch κ ν :=
  ⟨fun k => if p k then some none else none⟩

theorem smul_apply (p : Patch κ ν) (m : Store κ ν) (k : κ) :
    (p • m) k = (p.writes k).getD (m k) := rfl

@[simp] theorem set_smul_same [DecidableEq κ] (k : κ) (v : ν) (m : Store κ ν) :
    (set k v • m) k = some v := by simp [smul_apply, set]

theorem set_smul [DecidableEq κ] (k : κ) (v : ν) (m : Store κ ν) (k' : κ) :
    (set k v • m) k' = if k' = k then some v else m k' := by
  by_cases e : k' = k <;> simp [smul_apply, set, e]

variable {k : κ}

theorem set_smul_other [DecidableEq κ] {k' : κ} (h : k' ≠ k) (v : ν) (m : Store κ ν) :
    (set k v • m) k' = m k' := by simp [smul_apply, set, h]

@[simp] theorem delete_smul_same [DecidableEq κ] (k : κ) (m : Store κ ν) :
    ((delete k : Patch κ ν) • m) k = none := by simp [smul_apply, delete]

theorem delete_smul_other [DecidableEq κ] {k' : κ} (h : k' ≠ k) (m : Store κ ν) :
    ((delete k : Patch κ ν) • m) k' = m k' := by simp [smul_apply, delete, h]

def Within (D : Set κ) (p : Patch κ ν) : Prop := ∀ k, k ∉ D → p.writes k = none

variable {D : Set κ} {p q : Patch κ ν}

theorem Within.smul_apply (h : p.Within D) (hk : k ∉ D) (m : Store κ ν) : (p • m) k = m k := by
  rw [Patch.smul_apply, h k hk]
  rfl

theorem Within.mono (h : p.Within D) {D' : Set κ} (hD : D ⊆ D') : p.Within D' :=
  fun k hk => h k fun hk' => hk (hD hk')

theorem within_one : (1 : Patch κ ν).Within D := fun _ _ => rfl

theorem Within.mul (hp : p.Within D) (hq : q.Within D) : (p * q).Within D := by
  intro k hk
  show (p.writes k).or (q.writes k) = none
  rw [hp k hk, hq k hk]
  rfl

theorem within_set [DecidableEq κ] (hk : k ∈ D) (v : ν) : (set k v).Within D :=
  fun k' hk' => if_neg fun e : k' = k => hk' (e ▸ hk)

theorem within_delete [DecidableEq κ] (hk : k ∈ D) : (delete k : Patch κ ν).Within D :=
  fun k' hk' => if_neg fun e : k' = k => hk' (e ▸ hk)

theorem within_deleteAll {f : κ → Bool} (hf : ∀ k, f k = true → k ∈ D) :
    (deleteAll f : Patch κ ν).Within D :=
  fun k hk => if_neg fun e => hk (hf k e)

@[simp] theorem smul_smul_self (p : Patch κ ν) (m : Store κ ν) : p • p • m = p • m := by
  funext k
  simp only [Patch.smul_apply]
  cases p.writes k <;> rfl

def AgreeOff (D : Set κ) (m n : Store κ ν) : Prop := ∀ k, k ∉ D → m k = n k

variable {m n : Store κ ν}

theorem AgreeOff.smul (h : AgreeOff D m n) (p : Patch κ ν) : AgreeOff D (p • m) (p • n) := by
  intro k hk
  rw [Patch.smul_apply, Patch.smul_apply, h k hk]

theorem AgreeOff.within_smul (h : AgreeOff D m n) (hp : p.Within D) : AgreeOff D (p • m) n :=
  fun k hk => (hp.smul_apply hk m).trans (h k hk)

def Sets (Q : κ → ν → Prop) (p : Patch κ ν) : Prop := ∀ k v, p.writes k = some (some v) → Q k v

variable {Q : κ → ν → Prop}

theorem Sets.smul (h : p.Sets Q) {m : Store κ ν} (hm : ∀ k v, m k = some v → Q k v) {v : ν}
    (hk : (p • m) k = some v) : Q k v := by
  rw [Patch.smul_apply] at hk
  cases hp : p.writes k with
  | none =>
    rw [hp] at hk
    exact hm k v hk
  | some w =>
    rw [hp] at hk
    exact h k v (hp.trans (congrArg some hk))

theorem sets_one : (1 : Patch κ ν).Sets Q := by
  intro k v h
  cases h

theorem Sets.mul (hp : p.Sets Q) (hq : q.Sets Q) : (p * q).Sets Q := by
  intro k v h
  rcases Option.or_eq_some_iff.mp h with h | ⟨-, h⟩
  · exact hp k v h
  · exact hq k v h

theorem sets_set [DecidableEq κ] {v : ν} (h : Q k v) : (set k v).Sets Q := by
  intro k' v' h'
  obtain ⟨rfl, rfl⟩ : k' = k ∧ v = v' := by simpa [set] using h'
  exact h

theorem sets_deleteAll (f : κ → Bool) : (deleteAll f : Patch κ ν).Sets Q := by
  intro k v h
  simp [deleteAll] at h

theorem sets_delete [DecidableEq κ] (k : κ) : (delete k : Patch κ ν).Sets Q := by
  intro k' v h
  simp [delete] at h

end Patch

namespace Layers

variable {P S : Type} [Monoid P] [MulAction P S]

def view (m : S) (ps : List P) : S := ps.foldl (fun s p => p • s) m

def writeBack (p : P) : List P → P
  | [] => p
  | q :: qs => writeBack q qs * p

@[simp] theorem view_append (m : S) (ps qs : List P) :
    view m (ps ++ qs) = view (view m ps) qs := by simp [view]

theorem writeBack_smul (m : S) (p : P) (ps : List P) : writeBack p ps • m = view m (p :: ps) := by
  induction ps generalizing m p with
  | nil => rfl
  | cons q qs ih =>
    rw [writeBack, mul_smul, ih]
    rfl

end Layers

end Support
