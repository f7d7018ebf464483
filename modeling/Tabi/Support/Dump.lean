import Tabi.Support.Patch
import Tabi.Support.SortedStore

/-!
# Support — Dump

A store that is written out as a list of entries and read in again, one entry after the other.
-/

namespace Support

section Enters

variable {σ α κ ν : Type} [DecidableEq κ]

def Enters (f : σ → α → σ) (obs : σ → κ → Option ν) (key : α → κ) (val : α → ν) (l : List α) :
    Prop :=
  ∀ s, ∀ x ∈ l, obs (f s x) = Function.update (obs s) (key x) (some (val x))

variable {f : σ → α → σ} {obs : σ → κ → Option ν} {key : α → κ} {val : α → ν} {l : List α}

theorem enters_of_set {ρ : Type} [DecidableEq ρ] {m : σ → ρ → Option ν} {enc : κ → ρ}
    (henc : Function.Injective enc)
    (h : ∀ s, ∀ x ∈ l, ∀ i, m (f s x) (enc i) =
      if enc i = enc (key x) then some (val x) else m s (enc i)) :
    Enters f (fun s i => m s (enc i)) key val l := by
  intro s x hx
  funext i
  refine (h s x hx i).trans ?_
  by_cases e : i = key x
  · rw [e, if_pos rfl, Function.update_self]
  · rw [if_neg (henc.ne e), Function.update_of_ne e]

theorem Enters.foldl_last (h : Enters f obs key val l) (s : σ) (k : κ) :
    obs (l.foldl f s) k =
      (((l.filter fun x => key x = k).getLast?).map val).or (obs s k) := by
  induction l using List.reverseRecOn with
  | nil => rfl
  | append_singleton l x ih =>
    have hl : Enters f obs key val l := fun s y hy => h s y (List.mem_append_left _ hy)
    have hx := h (l.foldl f s) x (List.mem_append_right _ List.mem_cons_self)
    rw [List.foldl_append, List.foldl_cons, List.foldl_nil, hx, List.filter_append]
    by_cases e : key x = k
    · simp [e]
    · rw [Function.update_of_ne (Ne.symm e), ih hl]
      simp [e]

def Dumps (key : α → κ) (val : α → ν) (l : List α) (table : κ → Option ν) : Prop :=
  ∀ k v, table k = some v ↔ ∃ x ∈ l, key x = k ∧ val x = v

variable {table : κ → Option ν}

theorem Enters.foldl_dump (h : Enters f obs key val l) (hl : Dumps key val l table) (s : σ)
    (k : κ) :
    obs (l.foldl f s) k = (table k).or (obs s k) := by
  rw [h.foldl_last]
  cases hlast : (l.filter fun x => key x = k).getLast? with
  | some x =>
    obtain ⟨hx, hk⟩ := List.mem_filter.mp (List.mem_of_getLast? hlast)
    have hbound : table k = some (val x) := (hl k (val x)).mpr ⟨x, hx, by simpa using hk, rfl⟩
    rw [hbound]
    rfl
  | none =>
    have hnone : table k = none := by
      by_contra hne
      obtain ⟨v, hv⟩ := Option.ne_none_iff_exists'.mp hne
      obtain ⟨x, hx, hk, -⟩ := (hl k v).mp hv
      have hmem : x ∈ l.filter fun x => key x = k := List.mem_filter.mpr ⟨hx, by simpa using hk⟩
      rw [List.getLast?_eq_none_iff.mp hlast] at hmem
      cases hmem
    rw [hnone]
    rfl

theorem foldl_frame {ρ : Type} {f : σ → α → σ} {l : List α} (obs : σ → ρ)
    (h : ∀ s, ∀ x ∈ l, obs (f s x) = obs s) (s : σ) : obs (l.foldl f s) = obs s := by
  induction l generalizing s with
  | nil => rfl
  | cons x l ih =>
    rw [List.foldl_cons, ih fun s y hy => h s y (List.mem_cons_of_mem x hy),
      h s x List.mem_cons_self]

end Enters

section Presents

variable {κ ν : Type} [LinearOrder κ]

def Presents (s : SortedStore κ ν) (m : Store κ ν) : Prop := ∀ k, s.get k = m k

theorem dumps_scan {ι μ α : Type} {s : SortedStore κ ν} {p : κ → Bool} {decode : κ × ν → α}
    {key : α → ι} {val : α → μ} {table : ι → Option μ} (enc : ι → κ)
    (hentry : ∀ e ∈ s.scan p, table (key (decode e)) = some (val (decode e)))
    (hbound : ∀ i w, table i = some w → ∃ v, (enc i, v) ∈ s.scan p ∧
      key (decode (enc i, v)) = i ∧ val (decode (enc i, v)) = w) :
    Dumps key val ((s.scan p).map decode) table := by
  intro i w
  constructor
  · intro hi
    obtain ⟨v, hmem, hkey, hval⟩ := hbound i w hi
    exact ⟨_, List.mem_map_of_mem hmem, hkey, hval⟩
  · rintro ⟨x, hx, rfl, rfl⟩
    obtain ⟨e, hmem, rfl⟩ := List.mem_map.mp hx
    exact hentry e hmem

def Patch.Finite (p : Patch κ ν) : Prop :=
  ∀ m, (∃ s : SortedStore κ ν, Presents s m) → ∃ s : SortedStore κ ν, Presents s (p • m)

theorem Patch.Finite.mul {p q : Patch κ ν} (hp : p.Finite) (hq : q.Finite) : (p * q).Finite := by
  intro m hm
  rw [mul_smul]
  exact hp _ (hq m hm)

variable [DecidableEq κ]

theorem Presents.set {s : SortedStore κ ν} {m : Store κ ν} (h : Presents s m) (k : κ) (v : ν) :
    Presents (s.set k v) (Patch.set k v • m) := by
  intro k'
  rw [SortedStore.get_set, Patch.set_smul, h]
  by_cases e : k' = k <;> simp [e]

theorem Patch.finite_set (k : κ) (v : ν) : (Patch.set k v).Finite :=
  fun _ ⟨s, hs⟩ => ⟨s.set k v, hs.set k v⟩

theorem Patch.finite_delete (k : κ) : (Patch.delete k : Patch κ ν).Finite := by
  rintro m ⟨s, hs⟩
  refine ⟨s.delete k, fun k' => ?_⟩
  rw [SortedStore.get_delete, hs]
  by_cases e : k' = k
  · simp [e]
  · simp [e, Patch.delete_smul_other e]

end Presents

end Support
