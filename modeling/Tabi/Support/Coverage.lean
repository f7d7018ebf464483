import Mathlib.Data.List.Nodup
import Mathlib.Data.List.Perm.Basic
import Mathlib.Tactic.Common

/-!
# Support — Coverage

Something reads one list of places and returns part of what it found there, and should return what
is found at another list of places.
-/

namespace Support

variable {α β : Type}

def without [DecidableEq α] (xs ys : List α) : List α := xs.filter fun x => decide (x ∉ ys)

theorem mem_without [DecidableEq α] {xs ys : List α} {x : α} :
    x ∈ without xs ys ↔ x ∈ xs ∧ x ∉ ys := by
  rw [without, List.mem_filter, decide_eq_true_iff]

theorem perm_shared_without [DecidableEq α] (f : α → List β) (xs ys : List α) :
    ((xs.filter fun x => decide (x ∈ ys)).flatMap f ++ (without xs ys).flatMap f).Perm
      (xs.flatMap f) := by
  rw [← List.flatMap_append, without]
  refine List.Perm.flatMap_right f ?_
  have hnot : (fun x => decide (x ∉ ys)) = fun x => !decide (x ∈ ys) := by
    funext x
    exact decide_not
  rw [hnot]
  exact List.filter_append_perm _ xs

theorem perm_shared [DecidableEq α] {xs ys : List α} (hx : xs.Nodup) (hy : ys.Nodup) :
    (xs.filter fun x => decide (x ∈ ys)).Perm (ys.filter fun y => decide (y ∈ xs)) := by
  refine (List.perm_ext_iff_of_nodup (hx.filter _) (hy.filter _)).mpr fun a => ?_
  simp only [List.mem_filter, decide_eq_true_iff]
  exact and_comm

theorem perm_wanted_iff [DecidableEq α] {read wanted : List α} (hread : read.Nodup)
    (hwanted : wanted.Nodup) {f : α → List β} {kept cut : List β}
    (h : (kept ++ cut).Perm (read.flatMap f)) :
    kept.Perm (wanted.flatMap f) ↔
      ((without wanted read).flatMap f ++ cut).Perm ((without read wanted).flatMap f) := by
  -- both lists of places are compared with what they share
  have hsame := (perm_shared hread hwanted).flatMap_right f
  have hr := h.trans (perm_shared_without f read wanted).symm
  have hw := perm_shared_without f wanted read
  constructor
  · intro hkept
    refine (List.perm_append_left_iff ((read.filter fun x => decide (x ∈ wanted)).flatMap f)).mp ?_
    refine List.Perm.trans ?_ hr
    rw [← List.append_assoc]
    exact ((hsame.append_right _).trans (hw.trans hkept.symm)).append_right cut
  · intro hmissed
    refine (List.perm_append_right_iff cut).mp (hr.trans ?_)
    refine ((hmissed.symm.append_left _).trans ?_)
    rw [← List.append_assoc]
    exact ((hsame.append_right _).trans hw).append_right cut

theorem perm_wanted_iff_of_apart [DecidableEq α] {read wanted : List α} (hread : read.Nodup)
    (hwanted : wanted.Nodup) {f : α → List β} {kept cut : List β}
    (hapart : ∀ x ∈ wanted, ∀ y ∈ read, ∀ b ∈ f x, b ∈ f y → x = y)
    (h : (kept ++ cut).Perm (read.flatMap f)) :
    kept.Perm (wanted.flatMap f) ↔
      (∀ x ∈ wanted, x ∉ read → f x = []) ∧ cut.Perm ((without read wanted).flatMap f) := by
  rw [perm_wanted_iff hread hwanted h]
  constructor
  · intro hmissed
    have hnone : (without wanted read).flatMap f = [] := by
      refine List.eq_nil_iff_forall_not_mem.mpr fun b hb => ?_
      obtain ⟨y, hy, hby⟩ :=
        List.mem_flatMap.mp (hmissed.mem_iff.mp (List.mem_append_left cut hb))
      obtain ⟨x, hx, hbx⟩ := List.mem_flatMap.mp hb
      obtain ⟨hx, hxr⟩ := mem_without.mp hx
      obtain ⟨hy, -⟩ := mem_without.mp hy
      exact hxr (hapart x hx y hy b hbx hby ▸ hy)
    rw [hnone, List.nil_append] at hmissed
    exact ⟨fun x hx hxr => List.flatMap_eq_nil_iff.mp hnone x (mem_without.mpr ⟨hx, hxr⟩), hmissed⟩
  · rintro ⟨hnone, hcut⟩
    have hempty : (without wanted read).flatMap f = [] := List.flatMap_eq_nil_iff.mpr fun x hx =>
      hnone x (mem_without.mp hx).1 (mem_without.mp hx).2
    rw [hempty, List.nil_append]
    exact hcut

theorem forall_perm_take_iff {f g : α → List β} {xs : List α} :
    (∀ k, ((xs.take k).flatMap f).Perm ((xs.take k).flatMap g)) ↔ ∀ x ∈ xs, (f x).Perm (g x) := by
  constructor
  · intro h x hx
    obtain ⟨k, hk⟩ := List.mem_iff_getElem?.mp hx
    have hsucc := h (k + 1)
    simp only [List.take_add_one, hk, Option.toList_some, List.flatMap_append,
      List.flatMap_singleton] at hsucc
    exact (List.perm_append_left_iff _).mp (((h k).symm.append_right _).trans hsucc)
  · intro h k
    exact List.Perm.flatMap_left _ fun x hx => h x (List.mem_of_mem_take hx)

end Support
