import Tabi.Support.Bytes
import Mathlib.Algebra.BigOperators.Group.Finset.Piecewise
import Mathlib.Data.List.Lex
import Mathlib.Tactic.Common

/-!
# Support — SortedStore

A finite map kept in key order, as a key-value store with iterators keeps it: reading, writing and
deleting a key, and scanning a set of keys upwards or downwards.
-/

namespace Support

instance linearOrderUInt8 : LinearOrder UInt8 where
  le_refl := UInt8.le_refl
  le_trans _ _ _ := UInt8.le_trans
  le_antisymm _ _ := UInt8.le_antisymm
  le_total := UInt8.le_total
  lt_iff_le_not_ge _ _ := by
    rw [UInt8.not_le]
    exact ⟨fun h => ⟨UInt8.le_of_lt h, h⟩, fun h => h.2⟩
  toDecidableLE := inferInstance

structure SortedStore (κ β : Type) [LinearOrder κ] where
  entries : List (κ × β)
  sorted : entries.Pairwise (·.1 < ·.1)

namespace SortedStore

variable {κ β : Type} [LinearOrder κ]

def empty : SortedStore κ β := ⟨[], .nil⟩

def get (s : SortedStore κ β) (k : κ) : Option β := (s.entries.find? (·.1 = k)).map Prod.snd

def set (s : SortedStore κ β) (k : κ) (v : β) : SortedStore κ β :=
  ⟨s.entries.filter (·.1 < k) ++ (k, v) :: s.entries.filter (k < ·.1), by
    rw [List.pairwise_append, List.pairwise_cons]
    refine ⟨s.sorted.filter _, ⟨fun e he => ?_, s.sorted.filter _⟩, fun a ha b hb => ?_⟩
    · exact of_decide_eq_true (List.mem_filter.mp he).2
    · have hak : a.1 < k := of_decide_eq_true (List.mem_filter.mp ha).2
      rcases List.mem_cons.mp hb with rfl | hb
      · exact hak
      · exact hak.trans (of_decide_eq_true (List.mem_filter.mp hb).2)⟩

def delete (s : SortedStore κ β) (k : κ) : SortedStore κ β :=
  ⟨s.entries.filter (·.1 ≠ k), s.sorted.filter _⟩

def scan (s : SortedStore κ β) (p : κ → Bool) : List (κ × β) := s.entries.filter fun e => p e.1

def last (s : SortedStore κ β) (p : κ → Bool) : Option (κ × β) := (s.scan p).getLast?

variable {s : SortedStore κ β} {k : κ} {v : β} {p : κ → Bool}

theorem eq_of_mem {a b : κ × β} (ha : a ∈ s.entries) (hb : b ∈ s.entries) (h : a.1 = b.1) :
    a = b := by
  have hp : s.entries.Pairwise fun a b => a.1 = b.1 → a = b :=
    s.sorted.imp fun hlt e => absurd e hlt.ne
  by_cases e : a = b
  · exact e
  · exact hp.forall_of_forall_of_flip (fun _ _ _ => rfl)
      (s.sorted.imp fun hlt e => absurd e.symm hlt.ne) ha hb h

theorem mem_entries : (k, v) ∈ s.entries ↔ s.get k = some v := by
  unfold get
  constructor
  · intro h
    cases hf : s.entries.find? (·.1 = k) with
    | none =>
      have hne := List.find?_eq_none.mp hf _ h
      simp at hne
    | some e =>
      have hk : e.1 = k := by simpa using List.find?_some hf
      rw [eq_of_mem (List.mem_of_find?_eq_some hf) h hk, Option.map_some]
  · intro h
    obtain ⟨e, hf, rfl⟩ := Option.map_eq_some_iff.mp h
    have hk : e.1 = k := by simpa using List.find?_some hf
    rw [← hk]
    exact List.mem_of_find?_eq_some hf

theorem get_set (s : SortedStore κ β) (k k' : κ) (v : β) :
    (s.set k v).get k' = if k' = k then some v else s.get k' := by
  ext w
  rw [← mem_entries]
  simp only [set, List.mem_append, List.mem_cons, List.mem_filter, decide_eq_true_eq,
    Prod.mk.injEq, mem_entries]
  by_cases e : k' = k
  · simp [e, eq_comm]
  · have := lt_or_gt_of_ne e
    simp [e]
    tauto

theorem entries_set_of_last (h : ∀ e ∈ s.entries, e.1 < k) (v : β) :
    (s.set k v).entries = s.entries ++ [(k, v)] := by
  have hbelow : s.entries.filter (·.1 < k) = s.entries :=
    List.filter_eq_self.mpr fun e he => decide_eq_true (h e he)
  have habove : s.entries.filter (k < ·.1) = [] :=
    List.filter_eq_nil_iff.mpr fun e he => by
      rw [decide_eq_true_iff]
      exact (h e he).not_gt
  show s.entries.filter _ ++ (k, v) :: s.entries.filter _ = _
  rw [hbelow, habove]

theorem get_delete (s : SortedStore κ β) (k k' : κ) :
    (s.delete k).get k' = if k' = k then none else s.get k' := by
  ext w
  rw [← mem_entries]
  simp only [delete, List.mem_filter, decide_eq_true_eq, mem_entries]
  by_cases e : k' = k <;> simp [e]

theorem get_empty (k : κ) : (empty : SortedStore κ β).get k = none := rfl

theorem mem_scan : (k, v) ∈ s.scan p ↔ s.get k = some v ∧ p k = true := by
  rw [scan, List.mem_filter, mem_entries]

theorem le_of_last {e a : κ × β} (h : s.last p = some e) (ha : a ∈ s.scan p) : a.1 ≤ e.1 := by
  have hsorted : (s.scan p).Pairwise (·.1 < ·.1) := s.sorted.filter _
  obtain ⟨l, hl⟩ := List.getLast?_eq_some_iff.mp h
  rw [hl, List.mem_append, List.mem_singleton] at ha
  rcases ha with ha | rfl
  · rw [hl, List.pairwise_append] at hsorted
    exact (hsorted.2.2 _ ha _ (List.mem_singleton_self _)).le
  · exact le_rfl

theorem last_eq_some :
    s.last p = some (k, v) ↔
      s.get k = some v ∧ p k = true ∧ ∀ k' v', s.get k' = some v' → p k' = true → k' ≤ k := by
  constructor
  · intro h
    obtain ⟨hget, hp⟩ := mem_scan.mp (List.mem_of_getLast? h)
    exact ⟨hget, hp, fun k' v' hget' hp' => le_of_last h (mem_scan.mpr ⟨hget', hp'⟩)⟩
  · rintro ⟨hget, hp, hmax⟩
    have hmem := mem_scan.mpr ⟨hget, hp⟩
    cases hlast : s.last p with
    | none => exact absurd (List.getLast?_eq_none_iff.mp hlast) (List.ne_nil_of_mem hmem)
    | some e =>
      obtain ⟨k', v'⟩ := e
      obtain ⟨hget', hp'⟩ := mem_scan.mp (List.mem_of_getLast? hlast)
      -- the last entry is not below the maximum, so it is the maximum
      have e : k' = k := le_antisymm (hmax _ _ hget' hp') (le_of_last hlast hmem)
      subst e
      rw [Option.some.inj (hget'.symm.trans hget)]

theorem last_eq_none : s.last p = none ↔ ∀ k v, s.get k = some v → p k = false := by
  rw [last, List.getLast?_eq_none_iff, List.eq_nil_iff_forall_not_mem]
  constructor
  · intro h k v hget
    by_contra hp
    exact h (k, v) (mem_scan.mpr ⟨hget, by simpa using hp⟩)
  · rintro h ⟨k, v⟩ hmem
    obtain ⟨hget, hp⟩ := mem_scan.mp hmem
    rw [h k v hget] at hp
    cases hp

theorem last_congr {s' : SortedStore κ β} (h : ∀ k, p k = true → s'.get k = s.get k) :
    s'.last p = s.last p := by
  cases hlast : s.last p with
  | none =>
    rw [last_eq_none] at hlast ⊢
    intro k v hget
    by_contra hp
    have hp : p k = true := by simpa using hp
    rw [h k hp] at hget
    exact absurd (hlast k v hget) (by simp [hp])
  | some e =>
    obtain ⟨k, v⟩ := e
    rw [last_eq_some] at hlast ⊢
    obtain ⟨hget, hp, hmax⟩ := hlast
    refine ⟨(h k hp).trans hget, hp, fun k' v' hget' hp' => ?_⟩
    exact hmax k' v' ((h k' hp').symm.trans hget') hp'

def weigh {M : Type} [Zero M] (f : κ → β → M) (k : κ) : Option β → M
  | none => 0
  | some v => f k v

theorem find?_eq_none_of_sorted {e : κ × β} {l : List (κ × β)} (h : (e :: l).Pairwise (·.1 < ·.1)) :
    l.find? (·.1 = e.1) = none := by
  rw [List.find?_eq_none]
  intro a ha
  simpa using ((List.pairwise_cons.mp h).1 a ha).ne'

theorem sum_entries {M : Type} [AddCommMonoid M] (s : SortedStore κ β) (f : κ → β → M)
    {keys : Finset κ} (h : ∀ k v, s.get k = some v → k ∈ keys) :
    (s.entries.map fun e => f e.1 e.2).sum = ∑ k ∈ keys, weigh f k (s.get k) := by
  have hmem : ∀ e ∈ s.entries, e.1 ∈ keys := fun e he => h e.1 e.2 (mem_entries.mp he)
  obtain ⟨entries, hsorted⟩ := s
  clear h
  unfold get
  induction entries with
  | nil => exact (Finset.sum_eq_zero fun _ _ => rfl).symm
  | cons e l ih =>
    -- the head is counted once, at its own key, where the rest counts nothing
    have hsplit : ∀ k, weigh f k (((e :: l).find? (·.1 = k)).map Prod.snd) =
        (if k = e.1 then f e.1 e.2 else 0) +
          weigh f k ((l.find? (·.1 = k)).map Prod.snd) := by
      intro k
      by_cases hk : k = e.1
      · subst hk
        simp [find?_eq_none_of_sorted hsorted, weigh]
      · simp [hk, Ne.symm hk]
    rw [List.map_cons, List.sum_cons, ih hsorted.of_cons
      fun a ha => hmem a (List.mem_cons_of_mem e ha)]
    simp only [hsplit]
    rw [Finset.sum_add_distrib, Finset.sum_ite_eq' keys e.1, if_pos (hmem e List.mem_cons_self)]

end SortedStore

def assoc {κ ν : Type} [DecidableEq κ] (xs : List (κ × ν)) (k : κ) : Option ν :=
  (xs.find? (·.1 = k)).map Prod.snd

variable {κ ν : Type} {xs : List (κ × ν)}

theorem SortedStore.get_eq_assoc [LinearOrder κ] [d : DecidableEq κ] (s : SortedStore κ ν) (k : κ) :
    s.get k = assoc s.entries k := by
  rw [Subsingleton.elim d LinearOrder.toDecidableEq]
  rfl

theorem exists_mapM_eq_some {α β : Type} {f : α → Option β} {xs : List α}
    (h : ∀ x ∈ xs, ∃ y, f x = some y) : ∃ ys, xs.mapM f = some ys := by
  induction xs with
  | nil => exact ⟨[], rfl⟩
  | cons x xs ih =>
    obtain ⟨⟨y, hy⟩, hxs⟩ := List.forall_mem_cons.mp h
    obtain ⟨ys, hys⟩ := ih hxs
    exact ⟨y :: ys, by rw [List.mapM_cons, hy, hys]; rfl⟩

theorem map_of_mapM {α β γ : Type} {f : α → Option β} {g : β → γ} {h : α → γ} {xs : List α}
    {ys : List β} (hxs : xs.mapM f = some ys) (hf : ∀ x ∈ xs, ∀ y, f x = some y → g y = h x) :
    ys.map g = xs.map h := by
  induction xs generalizing ys with
  | nil =>
    cases hxs
    rfl
  | cons x xs ih =>
    rw [List.mapM_cons] at hxs
    obtain ⟨y, hy, hxs⟩ := Option.bind_eq_some_iff.mp hxs
    obtain ⟨ys', hys', hxs⟩ := Option.bind_eq_some_iff.mp hxs
    cases hxs
    obtain ⟨hx, hf⟩ := List.forall_mem_cons.mp hf
    rw [List.map_cons, List.map_cons, hx y hy, ih hys' hf]

theorem assoc_of_mem [DecidableEq κ] (hxs : xs.Pairwise fun e e' => e.1 ≠ e'.1) {e : κ × ν}
    (he : e ∈ xs) : assoc xs e.1 = some e.2 := by
  obtain ⟨before, after, rfl⟩ := List.append_of_mem he
  have hbefore : ∀ x ∈ before, ¬ decide (x.1 = e.1) = true := fun x hx => by
    rw [decide_eq_true_iff]
    exact (List.pairwise_append.mp hxs).2.2 x hx e List.mem_cons_self
  rw [assoc, List.find?_append, List.find?_eq_none.mpr hbefore, Option.none_or,
    List.find?_cons_of_pos (by exact decide_eq_true rfl), Option.map_some]

theorem mem_of_assoc [DecidableEq κ] {k : κ} {v : ν} (h : assoc xs k = some v) : (k, v) ∈ xs := by
  obtain ⟨e, he, rfl⟩ := Option.map_eq_some_iff.mp h
  have hkey : e.1 = k := by simpa using List.find?_some he
  exact hkey ▸ List.mem_of_find?_eq_some he

theorem assoc_mapM {κ' ν' : Type} [DecidableEq κ] [DecidableEq κ'] {g : κ → κ'}
    {f : κ × ν → Option (κ' × ν')} (hkey : ∀ {e e'}, f e = some e' → e'.1 = g e.1) {k : κ}
    {ys : List (κ' × ν')} (h : xs.mapM f = some ys) (hinj : ∀ e ∈ xs, g e.1 = g k → e.1 = k) :
    assoc ys (g k) = (assoc xs k).bind fun v => (f (k, v)).map Prod.snd := by
  induction xs generalizing ys with
  | nil =>
    cases h
    rfl
  | cons e xs ih =>
    rw [List.mapM_cons] at h
    obtain ⟨e', he', h⟩ := Option.bind_eq_some_iff.mp h
    obtain ⟨ys', hys', h⟩ := Option.bind_eq_some_iff.mp h
    cases h
    have hrest := ih hys' fun a ha => hinj a (List.mem_cons_of_mem e ha)
    by_cases hk : e.1 = k
    · have hk' : e'.1 = g k := (hkey he').trans (congrArg g hk)
      obtain ⟨a, v⟩ := e
      cases hk
      simp [assoc, hk', he']
    · have hk' : e'.1 ≠ g k := fun e₁ => hk (hinj e List.mem_cons_self ((hkey he').symm.trans e₁))
      simpa [assoc, hk, hk'] using hrest

end Support
