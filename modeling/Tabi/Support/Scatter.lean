import Tabi.Support.Outcome
import Mathlib.Data.List.Forall2
import Mathlib.Data.List.Nodup
import Mathlib.Data.List.Perm.Basic

/-!
# Support — scattering by index

Values are written back to the places a list of indices names.
-/

namespace Support

variable {α ε : Type}

def scatter (out : List α) : List Nat → List α → Outcome (List α)
  | [], _ => .ok out
  | _ :: _, [] => .error .indexOutOfRange
  | i :: is, v :: vs =>
    if i < out.length then scatter (out.set i v) is vs else .error .indexOutOfRange

theorem scatter_spec {is : List Nat} {out vals : List α} (hnodup : is.Nodup)
    (hrange : ∀ i ∈ is, i < out.length) (hlen : is.length = vals.length) :
    ∃ res, scatter out is vals = .ok res ∧ res.length = out.length ∧
      (∀ i ∉ is, res[i]? = out[i]?) ∧ ∀ j i : Nat, is[j]? = some i → res[i]? = vals[j]? := by
  induction is generalizing out vals with
  | nil => exact ⟨out, by rw [scatter], rfl, fun i _ => rfl, fun j i hj => by cases hj⟩
  | cons i is ih =>
    cases vals with
    | nil => cases hlen
    | cons v vs =>
      obtain ⟨hi, hnodup⟩ := List.nodup_cons.mp hnodup
      have hin : i < out.length := hrange i List.mem_cons_self
      have hrange' : ∀ k ∈ is, k < (out.set i v).length := fun k hk => by
        rw [List.length_set]
        exact hrange k (List.mem_cons_of_mem _ hk)
      obtain ⟨res, hres, hlength, hout, hvals⟩ := ih hnodup hrange' (Nat.succ.inj hlen)
      refine ⟨res, ?_, hlength.trans List.length_set, fun k hk => ?_, fun j k hj => ?_⟩
      · rw [scatter, if_pos hin, hres]
      · rw [List.mem_cons, not_or] at hk
        rw [hout k hk.2, List.getElem?_set_ne fun e => hk.1 e.symm]
      · cases j with
        | zero =>
          cases hj
          rw [hout i hi, List.getElem?_set_self hin]
          rfl
        | succ j => exact hvals j k hj

section Split

variable {es : List ε} {idx : ε → Nat} {p : ε → Bool} {R : ε → α → Prop}

theorem map_idx_eq_range (hidx : ∀ i e, es[i]? = some e → idx e = i) :
    es.map idx = List.range es.length := by
  refine List.ext_getElem? fun i => ?_
  rw [List.getElem?_map]
  cases he : es[i]? with
  | none =>
    rw [List.getElem?_eq_none]
    · rfl
    · rw [List.length_range]
      exact List.getElem?_eq_none_iff.mp he
  | some e =>
    obtain ⟨hi, -⟩ := List.getElem?_eq_some_iff.mp he
    rw [Option.map_some, hidx i e he, List.getElem?_range hi]

theorem idx_filter (hidx : ∀ i e, es[i]? = some e → idx e = i) :
    ((es.filter p).map idx).Nodup ∧ ∀ i ∈ (es.filter p).map idx, i < es.length := by
  have hsub : ((es.filter p).map idx).Sublist (List.range es.length) := by
    rw [← map_idx_eq_range hidx]
    exact List.filter_sublist.map idx
  exact ⟨hsub.nodup List.nodup_range, fun i hi => List.mem_range.mp (hsub.subset hi)⟩

theorem idx_injective (hidx : ∀ i e, es[i]? = some e → idx e = i) {e e' : ε} (he : e ∈ es)
    (he' : e' ∈ es) (h : idx e = idx e') : e = e' := by
  obtain ⟨i, hi⟩ := List.getElem?_of_mem he
  obtain ⟨j, hj⟩ := List.getElem?_of_mem he'
  rw [hidx i e hi, hidx j e' hj] at h
  subst h
  exact Option.some.inj (hi.symm.trans hj)

theorem scatter_part (hidx : ∀ i e, es[i]? = some e → idx e = i) {out vals : List α}
    (hlen : out.length = es.length) (hvals : List.Forall₂ R (es.filter p) vals) :
    ∃ res, scatter out ((es.filter p).map idx) vals = .ok res ∧ res.length = es.length ∧
      ∀ (i : Nat) (e : ε), es[i]? = some e →
        (p e = true → ∃ v, res[i]? = some v ∧ R e v) ∧ (p e = false → res[i]? = out[i]?) := by
  have ⟨hnodup, hrange⟩ := idx_filter hidx (p := p)
  have hlength : ((es.filter p).map idx).length = vals.length := by
    rw [List.length_map, hvals.length_eq]
  obtain ⟨res, hres, hreslen, hout, hin⟩ := scatter_spec hnodup
    (fun i hi => hlen ▸ hrange i hi) hlength
  refine ⟨res, hres, hreslen.trans hlen, fun i e he => ⟨fun hp => ?_, fun hp => ?_⟩⟩
  · obtain ⟨j, hj⟩ := List.getElem?_of_mem (List.mem_filter.mpr ⟨List.mem_of_getElem? he, hp⟩)
    have hji : ((es.filter p).map idx)[j]? = some i := by
      rw [List.getElem?_map, hj, Option.map_some, hidx i e he]
    obtain ⟨hjlt, hje⟩ := List.getElem?_eq_some_iff.mp hj
    have hjv : j < vals.length := by rw [← hvals.length_eq]; exact hjlt
    refine ⟨vals[j], ?_, ?_⟩
    · rw [hin j i hji, List.getElem?_eq_getElem hjv]
    · rw [← hje]
      exact (List.forall₂_iff_get.mp hvals).2 j hjlt hjv
  · refine hout i fun hi => ?_
    obtain ⟨e', he', hei⟩ := List.mem_map.mp hi
    obtain ⟨hmem, hp'⟩ := List.mem_filter.mp he'
    have heq : e' = e := idx_injective hidx hmem (List.mem_of_getElem? he)
      (hei.trans (hidx i e he).symm)
    rw [heq, hp] at hp'
    cases hp'

theorem scatter_split (hidx : ∀ i e, es[i]? = some e → idx e = i) {out v₁ v₂ : List α}
    (hlen : out.length = es.length) (h₁ : List.Forall₂ R (es.filter p) v₁)
    (h₂ : List.Forall₂ R (es.filter fun e => !p e) v₂) :
    ∃ mid res, scatter out ((es.filter p).map idx) v₁ = .ok mid ∧
      scatter mid ((es.filter fun e => !p e).map idx) v₂ = .ok res ∧ List.Forall₂ R es res := by
  obtain ⟨mid, hmid, hmidlen, hmidget⟩ := scatter_part hidx hlen h₁
  obtain ⟨res, hres, hreslen, hresget⟩ := scatter_part hidx hmidlen h₂
  refine ⟨mid, res, hmid, hres, List.forall₂_iff_get.mpr ⟨hreslen.symm, fun i hi hi' => ?_⟩⟩
  have he : es[i]? = some es[i] := List.getElem?_eq_getElem hi
  obtain ⟨v, hv, hR⟩ : ∃ v, res[i]? = some v ∧ R es[i] v := by
    cases hp : p es[i] with
    | true =>
      rw [(hresget i _ he).2 (by rw [hp]; rfl)]
      exact (hmidget i _ he).1 hp
    | false => exact (hresget i _ he).1 (by rw [hp]; rfl)
  rw [List.getElem?_eq_getElem hi'] at hv
  obtain rfl := Option.some.inj hv
  exact hR

end Split

end Support
