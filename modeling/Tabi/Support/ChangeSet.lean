import Tabi.Support.SortedStore
import Mathlib.Algebra.BigOperators.Group.List.Basic
import Mathlib.Tactic.Abel

/-!
# Support — ChangeSet

Changing a finite map at some keys, each written or deleted once, and what that does to a sum over
the whole map.
-/

namespace Support

namespace SortedStore

variable {κ β M : Type} [LinearOrder κ] [AddCommGroup M]

def put (s : SortedStore κ β) (k : κ) : Option β → SortedStore κ β
  | none => s.delete k
  | some v => s.set k v

theorem get_put (s : SortedStore κ β) (k k' : κ) (o : Option β) :
    (s.put k o).get k' = if k' = k then o else s.get k' := by
  cases o with
  | none => exact s.get_delete k k'
  | some v => exact s.get_set k k' v

def total (f : κ → β → M) (s : SortedStore κ β) : M := (s.entries.map fun e => f e.1 e.2).sum

theorem total_put (f : κ → β → M) (s : SortedStore κ β) (k : κ) (o : Option β) :
    total f (s.put k o) = total f s + (weigh f k o - weigh f k (s.get k)) := by
  -- both totals, as sums over the keys of the store and the key that changes
  let keys : Finset κ := insert k (s.entries.map Prod.fst).toFinset
  have hold : ∀ k' v, s.get k' = some v → k' ∈ keys := fun k' v h =>
    Finset.mem_insert_of_mem (List.mem_toFinset.mpr (List.mem_map_of_mem (mem_entries.mpr h)))
  have hnew : ∀ k' v, (s.put k o).get k' = some v → k' ∈ keys := by
    intro k' v h
    by_cases e : k' = k
    · exact e ▸ Finset.mem_insert_self k _
    · rw [get_put, if_neg e] at h
      exact hold k' v h
  rw [total, total, sum_entries _ f hnew, sum_entries _ f hold]
  have hk : k ∈ keys := Finset.mem_insert_self k _
  rw [← Finset.add_sum_erase keys _ hk, ← Finset.add_sum_erase keys _ hk, get_put, if_pos rfl]
  have hrest : ∑ k' ∈ keys.erase k, weigh f k' ((s.put k o).get k') =
      ∑ k' ∈ keys.erase k, weigh f k' (s.get k') :=
    Finset.sum_congr rfl fun k' h => by rw [get_put, if_neg (Finset.ne_of_mem_erase h)]
  rw [hrest]
  abel

def applyAll (s : SortedStore κ β) (cs : List (κ × Option β)) : SortedStore κ β :=
  cs.foldl (fun s c => s.put c.1 c.2) s

variable {cs : List (κ × Option β)}

theorem get_applyAll_of_not_mem {k : κ} (h : k ∉ cs.map Prod.fst) :
    ∀ s : SortedStore κ β, (s.applyAll cs).get k = s.get k := by
  induction cs with
  | nil => exact fun _ => rfl
  | cons c cs ih =>
    intro s
    rw [List.map_cons, List.mem_cons, not_or] at h
    exact (ih h.2 _).trans (by rw [get_put, if_neg h.1])

theorem get_applyAll (hcs : (cs.map Prod.fst).Nodup) {c : κ × Option β} (hc : c ∈ cs) :
    ∀ s : SortedStore κ β, (s.applyAll cs).get c.1 = c.2 := by
  induction cs with
  | nil => cases hc
  | cons d cs ih =>
    intro s
    rw [List.map_cons, List.nodup_cons] at hcs
    rcases List.mem_cons.mp hc with rfl | hc
    · exact (get_applyAll_of_not_mem hcs.1 _).trans (by rw [get_put, if_pos rfl])
    · exact ih hcs.2 hc _

theorem total_applyAll (f : κ → β → M) (hcs : (cs.map Prod.fst).Nodup) : ∀ s : SortedStore κ β,
      total f (s.applyAll cs) =
        total f s + (cs.map fun c => weigh f c.1 c.2 - weigh f c.1 (s.get c.1)).sum := by
  induction cs with
  | nil => exact fun s => (add_zero _).symm
  | cons c cs ih =>
    intro s
    rw [List.map_cons, List.nodup_cons] at hcs
    -- the first change is not seen at the later keys
    have hlater : ∀ d ∈ cs, (s.put c.1 c.2).get d.1 = s.get d.1 := by
      intro d hd
      have hne : d.1 ≠ c.1 := fun e => hcs.1 (List.mem_map.mpr ⟨d, hd, e⟩)
      rw [get_put, if_neg hne]
    calc total f ((s.put c.1 c.2).applyAll cs)
        = total f (s.put c.1 c.2) +
            (cs.map fun d => weigh f d.1 d.2 - weigh f d.1 (s.get d.1)).sum := by
          rw [ih hcs.2, List.map_congr_left fun d hd => by rw [hlater d hd]]
      _ = _ := by
          rw [total_put, List.map_cons, List.sum_cons, add_assoc]

def totalWhere (P : κ → Prop) [DecidablePred P] (f : β → M) (s : SortedStore κ β) : M :=
  total (fun k v => if P k then f v else 0) s

omit [LinearOrder κ] in
theorem weigh_where (P : κ → Prop) [DecidablePred P] (f : β → M) (k : κ) (o : Option β) :
    weigh (fun k v => if P k then f v else 0) k o = if P k then weigh (fun _ => f) k o else 0 := by
  cases o with
  | none => exact (ite_self 0).symm
  | some v => rfl

theorem totalWhere_applyAll (P : κ → Prop) [DecidablePred P] (f : β → M)
    (hcs : (cs.map Prod.fst).Nodup) (s : SortedStore κ β) :
    totalWhere P f (s.applyAll cs) = totalWhere P f s +
      (((cs.filter fun c => P c.1).map fun c => weigh (fun _ => f) c.1 c.2).sum -
        ((cs.filter fun c => P c.1).map fun c => weigh (fun _ => f) c.1 (s.get c.1)).sum) := by
  rw [totalWhere, total_applyAll _ hcs]
  congr 1
  clear hcs
  induction cs with
  | nil => exact (sub_self 0).symm
  | cons c cs ih =>
    rw [List.map_cons, List.sum_cons, ih, weigh_where, weigh_where]
    by_cases h : P c.1
    · simp only [h, if_true, List.filter_cons_of_pos, decide_true, List.map_cons, List.sum_cons]
      abel
    · simp [h]

end SortedStore

end Support
