import Mathlib.Data.List.Induction
import Mathlib.Data.Set.Function
import Mathlib.Order.Defs.LinearOrder

/-!
# Support — slots

A set of entries, at most one for each slot.
-/

namespace Support.Slots

variable {ε κ σ β : Type*} [LinearOrder β]

inductive Call (ε κ : Type*) where
  | offer (e : ε)
  | withdraw (k : κ)

section Machine

variable (key : ε → κ) (slot : ε → σ) (priority : ε → β)

open Classical in
noncomputable def step (T : Set ε) : Call ε κ → Set ε
  | .offer e =>
    if key e ∈ key '' T then T
    else if ∃ p ∈ T, slot p = slot e ∧ priority e ≤ priority p then T
    else insert e {p ∈ T | slot p ≠ slot e}
  | .withdraw k => {p ∈ T | key p ≠ k}

noncomputable def run (T : Set ε) (calls : List (Call ε κ)) : Set ε :=
  calls.foldl (step key slot priority) T

open Classical in
noncomputable def offered (s : σ) (T : Set ε) : Call ε κ → List ε
  | .offer e => if slot e = s ∧ key e ∉ key '' T then [e] else []
  | .withdraw _ => []

noncomputable def offers (s : σ) : Set ε → List (Call ε κ) → List ε
  | _, [] => []
  | T, c :: cs => offered key slot s T c ++ offers s (step key slot priority T c) cs

def Foremost (e : ε) (l : List ε) : Prop :=
  ∃ before after, l = before ++ e :: after ∧ (∀ p ∈ before, priority p < priority e) ∧
    ∀ p ∈ after, priority p ≤ priority e

end Machine

section Steps

variable {key : ε → κ} {slot : ε → σ} {priority : ε → β} {T : Set ε} {c : Call ε κ}
  {cs ds : List (Call ε κ)} {s : σ} {e : ε}

@[simp] theorem run_concat :
    run key slot priority T (cs ++ [c]) = step key slot priority (run key slot priority T cs) c :=
  List.foldl_append ..

theorem offers_concat :
    offers key slot priority s T (cs ++ [c]) = offers key slot priority s T cs ++
      offered key slot s (run key slot priority T cs) c := by
  induction cs generalizing T with
  | nil => exact List.append_nil _
  | cons d cs ih =>
    rw [List.cons_append, offers, offers, ih, List.append_assoc]
    rfl

theorem mem_step (h : e ∈ step key slot priority T c) :
    e ∈ T ∨ c = .offer e ∧ key e ∉ key '' T ∧
      ∀ p ∈ T, slot p = slot e → priority p < priority e := by
  cases c with
  | withdraw k => exact .inl h.1
  | offer o =>
    rw [step] at h
    split_ifs at h with hkey hlow
    · exact .inl h
    · exact .inl h
    · rcases h with rfl | h
      · refine .inr ⟨rfl, hkey, fun p hp hs => ?_⟩
        by_contra hle
        exact hlow ⟨p, hp, hs, not_lt.mp hle⟩
      · exact .inl h.1

theorem injOn_slot_step (h : Set.InjOn slot T) : Set.InjOn slot (step key slot priority T c) := by
  cases c with
  | withdraw k => exact h.mono fun p hp => hp.1
  | offer o =>
    rw [step]
    split_ifs with hkey hlow
    · exact h
    · exact h
    · have hrest : Set.InjOn slot {p ∈ T | slot p ≠ slot o} := h.mono fun p hp => hp.1
      refine (Set.injOn_insert fun ho => ho.2 rfl).mpr ⟨hrest, ?_⟩
      rintro ⟨p, hp, hs⟩
      exact hp.2 hs

theorem le_of_mem_step (hslot : Set.InjOn slot T) (he : e ∈ T)
    (h : e ∈ step key slot priority T c) :
    ∀ p ∈ offered key slot (slot e) T c, priority p ≤ priority e := by
  cases c with
  | withdraw k => exact fun p hp => absurd hp List.not_mem_nil
  | offer o =>
    intro p hp
    rw [offered] at hp
    split_ifs at hp with ho
    · obtain rfl := List.mem_singleton.mp hp
      rw [step, if_neg ho.2] at h
      split_ifs at h with hlow
      · obtain ⟨q, hq, hs, hle⟩ := hlow
        obtain rfl := hslot hq he (hs.trans ho.1)
        exact hle
      · rcases h with rfl | h
        · exact le_rfl
        · exact absurd ho.1.symm h.2
    · exact absurd hp List.not_mem_nil

theorem Foremost.append {l m : List ε} (h : Foremost priority e l)
    (hm : ∀ p ∈ m, priority p ≤ priority e) : Foremost priority e (l ++ m) := by
  obtain ⟨before, after, rfl, hb, ha⟩ := h
  refine ⟨before, after ++ m, by simp, hb, fun p hp => ?_⟩
  exact (List.mem_append.mp hp).elim (ha p) (hm p)

theorem Foremost.replace {l : List ε} {o : ε} (h : Foremost priority o l)
    (hlt : priority o < priority e) : Foremost priority e (l ++ [e]) := by
  obtain ⟨before, after, rfl, hb, ha⟩ := h
  refine ⟨before ++ o :: after, [], rfl, fun p hp => ?_, fun p hp => absurd hp List.not_mem_nil⟩
  rcases List.mem_append.mp hp with hp | hp
  · exact (hb p hp).trans hlt
  · rcases List.mem_cons.mp hp with rfl | hp
    · exact hlt
    · exact (ha p hp).trans_lt hlt

theorem Foremost.of_map {δ : Type*} {f : δ → ε} (hf : Function.Injective f) {d : δ} {l : List δ}
    (h : Foremost priority (f d) (l.map f)) : Foremost (fun d => priority (f d)) d l := by
  obtain ⟨before, after, hl, hb, ha⟩ := h
  obtain ⟨b, r, rfl, rfl, hr⟩ := List.map_eq_append_iff.mp hl
  obtain ⟨d', a, rfl, hd, rfl⟩ := List.map_eq_cons_iff.mp hr
  obtain rfl := hf hd
  exact ⟨b, a, rfl, fun p hp => hb _ (List.mem_map_of_mem hp),
    fun p hp => ha _ (List.mem_map_of_mem hp)⟩

end Steps

section Runs

variable {key : ε → κ} {slot : ε → σ} {priority : ε → β} {calls : List (Call ε κ)} {e : ε}

theorem injOn_slot_run : Set.InjOn slot (run key slot priority ∅ calls) := by
  induction calls using List.reverseRecOn with
  | nil => exact Set.injOn_empty _
  | append_singleton cs c ih =>
    rw [run_concat]
    exact injOn_slot_step ih

theorem foremost_run (h : e ∈ run key slot priority ∅ calls) :
    ∃ free since, calls = free ++ since ∧ slot e ∉ slot '' run key slot priority ∅ free ∧
      (∀ mid rest, since = mid ++ rest → mid ≠ [] →
        slot e ∈ slot '' run key slot priority ∅ (free ++ mid)) ∧
      Foremost priority e
        (offers key slot priority (slot e) (run key slot priority ∅ free) since) := by
  induction calls using List.reverseRecOn generalizing e with
  | nil => exact absurd h (Set.notMem_empty e)
  | append_singleton cs c ih =>
    have hlast : slot e ∈ slot '' run key slot priority ∅ (cs ++ [c]) := ⟨e, h, rfl⟩
    rw [run_concat] at h
    by_cases hheld : slot e ∈ slot '' run key slot priority ∅ cs
    · -- the slot was held: its holder's offers go on
      obtain ⟨o, ho, hoe⟩ : ∃ o ∈ run key slot priority ∅ cs, slot o = slot e ∧
          (e ∈ run key slot priority ∅ cs → o = e) := by
        by_cases he : e ∈ run key slot priority ∅ cs
        · exact ⟨e, he, rfl, fun _ => rfl⟩
        · obtain ⟨o, ho, hs⟩ := hheld
          exact ⟨o, ho, hs, fun h => absurd h he⟩
      obtain ⟨free, since, rfl, hfree, hmid, hfore⟩ := ih ho
      rw [hoe.1] at hfree hmid hfore
      refine ⟨free, since ++ [c], List.append_assoc .., hfree, fun mid rest hsplit hne => ?_, ?_⟩
      · rcases List.eq_nil_or_concat rest with rfl | ⟨rest, d, rfl⟩
        · rw [List.append_nil] at hsplit
          rw [← hsplit, ← List.append_assoc]
          exact hlast
        · rw [List.concat_eq_append, ← List.append_assoc] at hsplit
          exact hmid mid rest (List.append_inj_left' hsplit rfl) hne
      · have hrun : run key slot priority ∅ (free ++ since) =
            run key slot priority (run key slot priority ∅ free) since := List.foldl_append ..
        rw [offers_concat, ← hrun]
        rcases mem_step h with he | ⟨rfl, hkey, hlow⟩
        · obtain rfl := hoe.2 he
          exact hfore.append (le_of_mem_step injOn_slot_run he h)
        · rw [offered, if_pos ⟨rfl, hkey⟩]
          exact hfore.replace (hlow o ho hoe.1)
    · -- the slot was free: the call offers the entry
      refine ⟨cs, [c], rfl, hheld, fun mid rest hsplit hne => ?_, ?_⟩
      · obtain ⟨rfl, rfl⟩ : mid = [c] ∧ rest = [] := by
          rcases List.append_eq_singleton_iff.mp hsplit.symm with ⟨rfl, -⟩ | ⟨hm, hr⟩
          · exact absurd rfl hne
          · exact ⟨hm, hr⟩
        exact hlast
      · rcases mem_step h with he | ⟨rfl, hkey, -⟩
        · exact absurd ⟨e, he, rfl⟩ hheld
        · rw [offers, offers, offered, if_pos ⟨rfl, hkey⟩]
          exact ⟨[], [], rfl, fun p hp => absurd hp List.not_mem_nil,
            fun p hp => absurd hp List.not_mem_nil⟩

end Runs

end Support.Slots
