import Tabi.Registry.Exact
import Tabi.Support.TwoWay

/-!
# Registry — forward and reverse entries

A setter enters a version of a pointee in its forward registry and the same version of the pointer
in the reverse registry.
-/

namespace Tabi.Registry

open Support Support.Versioned

def forwardEntry (s : Store) (kind : Kind) (x : Bytes) (v : UInt16) : Option Bytes :=
  s.get (versionKey (kind.key x) v)

def reverseEntry (s : Store) (a : Address) (v : UInt16) : Option Bytes :=
  s.get (versionKey (pointerReverseRegistryKey a) v)

def Consistent (kind : Kind) (s : Store) : Prop :=
  TwoWay.Consistent (FixedBytes.ofBytes 20) (forwardEntry s kind) (reverseEntry s)

def Op.target (B : Bech32) (s : Store) : Ctx × Op → Option (Bytes × Address × UInt16)
  | (_, .setERC _ x a v) => if cwAddressIsPointer s x = .ok false then some (x, a, v) else none
  | (ctx, .deleteERC k x v) =>
    match k.getPointer ctx s x with
    | .ok (some (addr, _)) => some (x, addr, v)
    | _ => none
  | (_, .setCW _ a p v) =>
    if evmAddressIsPointer s a = .ok false then some (a.bytes, .ofBytes 20 p, v) else none
  | (ctx, .deleteCW k a v) =>
    match k.getPointer B ctx s a with
    | .ok (some (addr, _)) => some (a.bytes, .ofBytes 20 (B.string addr), v)
    | _ => none

def Wrote (kind : Kind) (s s' : Store) (x : Bytes) (a : Address) (v : UInt16) : Prop :=
  ∃ r, TwoWay.Write (FixedBytes.ofBytes 20) (forwardEntry s kind) (forwardEntry s' kind)
    (reverseEntry s) (reverseEntry s') x a v r

theorem wrote_set (s : Store) (kind : Kind) (x p : Bytes) (v : UInt16) :
    Wrote kind s (setPointerInfo (setPointerInfo s (kind.key x) p v)
      (pointerReverseRegistryKey (.ofBytes 20 p)) x v) x (.ofBytes 20 p) v := by
  refine ⟨some p, ?_, fun y w h => ?_, ?_, fun u w h => ?_, fun _ e => by cases e; rfl⟩
  · simp [forwardEntry, setPointerInfo, SortedStore.get_set, forward_ne_reverse]
  · simp [forwardEntry, setPointerInfo, SortedStore.get_set, forward_ne_reverse, key_inj, h]
  · simp [reverseEntry, setPointerInfo, SortedStore.get_set]
  · simp [reverseEntry, setPointerInfo, SortedStore.get_set, forward_ne_reverse.symm, reverse_inj,
      h]

theorem wrote_delete (s : Store) (kind : Kind) (x : Bytes) (a : Address) (v : UInt16) :
    Wrote kind s (deletePointerInfo (deletePointerInfo s (kind.key x) v)
      (pointerReverseRegistryKey a) v) x a v := by
  refine ⟨none, ?_, fun y w h => ?_, ?_, fun u w h => ?_, nofun⟩
  · simp [forwardEntry, deletePointerInfo, SortedStore.get_delete]
  · simp [forwardEntry, deletePointerInfo, SortedStore.get_delete, forward_ne_reverse, key_inj, h]
  · simp [reverseEntry, deletePointerInfo, SortedStore.get_delete]
  · simp [reverseEntry, deletePointerInfo, SortedStore.get_delete, forward_ne_reverse.symm,
      reverse_inj, h]

theorem step_cases {B : Bech32} {s s' : Store} {o : Ctx × Op} (h : step B s o = .ok s') :
    (Op.target B s o = none ∧ s' = s) ∨
    (∃ kind x p v, o.2.change = .set kind x p v ∧ Op.target B s o = some (x, .ofBytes 20 p, v) ∧
      s' = setPointerInfo (setPointerInfo s (kind.key x) p v)
        (pointerReverseRegistryKey (.ofBytes 20 p)) x v) ∨
    ∃ kind x a v, o.2.change = .delete kind x v ∧ Op.target B s o = some (x, a, v) ∧
      s' = deletePointerInfo (deletePointerInfo s (kind.key x) v)
        (pointerReverseRegistryKey a) v := by
  obtain ⟨ctx, op⟩ := o
  cases op with
  | setERC k x a v =>
    obtain ⟨r, hr, rfl⟩ := map_eq_ok.mp h
    obtain ⟨b, hb, hr⟩ := bind_eq_ok.mp hr
    cases b with
    | true =>
      cases hr
      exact .inl ⟨by simp [Op.target, hb], rfl⟩
    | false =>
      cases hr
      refine .inr (.inl ⟨.erc k, x, a.bytes, v, rfl, by simp [Op.target, hb], ?_⟩)
      rw [afterSet, ERC.key_eq, FixedBytes.ofBytes_bytes]
  | deleteERC k x v =>
    obtain ⟨r, hr, h⟩ := bind_eq_ok.mp h
    rcases r with _ | ⟨addr, w⟩
    · cases h
      exact .inl ⟨by simp [Op.target, hr], rfl⟩
    · cases h
      refine .inr (.inr ⟨.erc k, x, addr, v, rfl, by simp [Op.target, hr], ?_⟩)
      rw [ERC.key_eq]
  | setCW k a p v =>
    obtain ⟨r, hr, rfl⟩ := map_eq_ok.mp h
    obtain ⟨b, hb, hr⟩ := bind_eq_ok.mp hr
    cases b with
    | true =>
      cases hr
      exact .inl ⟨by simp [Op.target, hb], rfl⟩
    | false =>
      cases hr
      refine .inr (.inl ⟨.cw k, a.bytes, p, v, rfl, by simp [Op.target, hb], ?_⟩)
      rw [afterSet, CW.key_eq]
  | deleteCW k a v =>
    obtain ⟨r, hr, h⟩ := bind_eq_ok.mp h
    rcases r with _ | ⟨addr, w⟩
    · cases h
      exact .inl ⟨by simp [Op.target, hr], rfl⟩
    · cases h
      refine .inr (.inr ⟨.cw k, a.bytes, .ofBytes 20 (B.string addr), v, rfl,
        by simp [Op.target, hr], ?_⟩)
      rw [CW.key_eq]

def Op.Harmless (B : Bech32) (kind : Kind) (s : Store) (o : Ctx × Op) : Prop :=
  ∀ x a v, Op.target B s o = some (x, a, v) →
    TwoWay.Paired (FixedBytes.ofBytes 20) (forwardEntry s kind) (reverseEntry s) x a v

theorem step_consistent_iff {B : Bech32} {kind : Kind} {s s' : Store} {o : Ctx × Op}
    (hkind : o.2.change.name.1 = kind) (h : Consistent kind s) (hstep : step B s o = .ok s') :
    Consistent kind s' ↔ Op.Harmless B kind s o := by
  have hwrote : ∀ {x a v}, Op.target B s o = some (x, a, v) → Wrote kind s s' x a v →
      (Consistent kind s' ↔ Op.Harmless B kind s o) := by
    intro x a v htarget hw
    obtain ⟨r, hw⟩ := hw
    refine (TwoWay.consistent_write_iff h hw).trans ⟨fun hp x' a' v' ht => ?_, fun hall => ?_⟩
    · cases htarget.symm.trans ht
      exact hp
    · exact hall x a v htarget
  rcases step_cases hstep with ⟨hnone, rfl⟩ | ⟨kind', x, p, v, hc, htarget, rfl⟩ |
      ⟨kind', x, a, v, hc, htarget, rfl⟩
  · refine ⟨fun _ x a v ht => ?_, fun _ => h⟩
    rw [hnone] at ht
    cases ht
  · rw [hc] at hkind
    cases hkind
    exact hwrote htarget (wrote_set s kind' x p v)
  · rw [hc] at hkind
    cases hkind
    exact hwrote htarget (wrote_delete s kind' x a v)

theorem consistent_empty (kind : Kind) : Consistent kind .empty :=
  fun _ _ _ => ⟨nofun, nofun⟩

def PrefixFree (cs : List Change) : Prop :=
  ∀ c ∈ cs, ∀ c' ∈ cs, c.name.2 <+: c'.name.2 → c.name.2 = c'.name.2

def Unshared (cs : List Change) : Prop :=
  ∀ kind x y p v w, .set kind x p v ∈ cs → .set kind y p w ∈ cs → x = y

structure Traced (cs : List Change) (s : Store) : Prop where
  forward : ∀ kind x v p, forwardEntry s kind x v = some p → .set kind x p v ∈ cs
  reverse : ∀ a v y, reverseEntry s a v = some y →
    ∃ kind p, .set kind y p v ∈ cs ∧ FixedBytes.ofBytes 20 p = a
  keyed : Keyed s

variable {cs : List Change} {s s' : Store}

theorem Traced.empty (cs : List Change) : Traced cs .empty where
  forward _ _ _ _ h := nomatch h
  reverse _ _ _ h := nomatch h
  keyed _ _ h := nomatch h

theorem Traced.set (h : Traced cs s) {kind : Kind} {x p : Bytes} {v : UInt16}
    (hmem : .set kind x p v ∈ cs) :
    Traced cs (setPointerInfo (setPointerInfo s (kind.key x) p v)
      (pointerReverseRegistryKey (.ofBytes 20 p)) x v) where
  forward kind' y w q hq := by
    simp only [forwardEntry, setPointerInfo, SortedStore.get_set, forward_ne_reverse, if_false,
      key_inj] at hq
    split_ifs at hq with he
    · obtain ⟨rfl, rfl, rfl⟩ := he
      cases hq
      exact hmem
    · exact h.forward kind' y w q hq
  reverse a w y hy := by
    simp only [reverseEntry, setPointerInfo, SortedStore.get_set, forward_ne_reverse.symm,
      if_false, reverse_inj] at hy
    split_ifs at hy with he
    · obtain ⟨rfl, rfl⟩ := he
      cases hy
      exact ⟨kind, p, hmem, rfl⟩
    · exact h.reverse a w y hy
  keyed key b hget := by
    rw [setPointerInfo, setPointerInfo, SortedStore.get_set, SortedStore.get_set] at hget
    split_ifs at hget with hrev hfwd
    · exact .inr ⟨_, _, hrev⟩
    · exact .inl ⟨kind, x, v, hfwd⟩
    · exact h.keyed key b hget

theorem Traced.delete (h : Traced cs s) (key key' : Bytes) :
    Traced cs ((s.delete key).delete key') := by
  have hget : ∀ k b, ((s.delete key).delete key').get k = some b → s.get k = some b := by
    intro k b hb
    rw [SortedStore.get_delete, SortedStore.get_delete] at hb
    split_ifs at hb
    exact hb
  exact ⟨fun kind x v p hp => h.forward kind x v p (hget _ _ hp),
    fun a v y hy => h.reverse a v y (hget _ _ hy), fun k b hb => h.keyed k b (hget _ _ hb)⟩

variable {B : Bech32} {ops : List (Ctx × Op)} {o : Ctx × Op}

theorem Traced.step (h : Traced (changesOf ops) s) (ho : o ∈ ops) (hstep : step B s o = .ok s') :
    Traced (changesOf ops) s' := by
  rcases step_cases hstep with ⟨-, rfl⟩ | ⟨kind, x, p, v, hc, -, rfl⟩ | ⟨kind, x, a, v, -, -, rfl⟩
  · exact h
  · exact h.set (hc ▸ mem_changesOf ho)
  · exact h.delete _ _

theorem Traced.run (h : Traced (changesOf ops) s) {os : List (Ctx × Op)} (hsub : ∀ o ∈ os, o ∈ ops)
    (hrun : run B s os = .ok s') : Traced (changesOf ops) s' :=
  Outcome.foldlM_invariant (fun _ _ _ ho h hstep => h.step (hsub _ ho) hstep) h hrun

theorem Traced.isolated (h : Traced cs s) (hpre : PrefixFree cs) {c : Change} (hc : c ∈ cs) :
    Isolated s (c.name.1.key c.name.2) := by
  intro key b hget hkey
  rcases h.keyed key b hget with ⟨kind, y, v, rfl⟩ | ⟨a, v, rfl⟩
  · obtain ⟨hkind, hxy⟩ := key_prefix.mp hkey
    have hset := h.forward kind y v b hget
    refine ⟨v, ?_⟩
    rcases List.prefix_or_prefix_of_prefix hxy (List.prefix_append y _) with hp | hp
    · rw [hpre c hc _ hset hp, hkind]
      rfl
    · rw [← hpre _ hset c hc hp, hkind]
      rfl
  · simp [Kind.key, versionKey, pointerReverseRegistryKey] at hkey

variable {k : ERC}

theorem Traced.getERC (h : Traced cs s) (hpre : PrefixFree cs) {c : Change} (hc : c ∈ cs)
    (hk : c.name.1 = .erc k) (ctx : Ctx) :
    ∃ r, k.getPointer ctx s c.name.2 = .ok r ∧ ∀ a w, r = some (a, w) →
      ∃ p, .set (.erc k) c.name.2 p w ∈ cs ∧ FixedBytes.ofBytes 20 p = a := by
  have hiso := h.isolated hpre hc
  rw [hk] at hiso
  refine ⟨_, by rw [ERC.getPointer, ERC.key_eq, getPointerInfo_eq, newest_of_isolated hiso]; rfl,
    fun a w hr => ?_⟩
  obtain ⟨⟨p, w'⟩, hhigh, heq⟩ := Option.map_eq_some_iff.mp hr
  cases heq
  exact ⟨p, h.forward _ _ _ _ (of_highest hhigh), rfl⟩

theorem Traced.step_returns (h : Traced (changesOf ops) s) (hpre : PrefixFree (changesOf ops))
    (ho : o ∈ ops) (hk : o.2.change.name.1 = .erc k) : ∃ s', Registry.step B s o = .ok s' := by
  have hmem := mem_changesOf ho
  obtain ⟨ctx, op⟩ := o
  cases op with
  | setERC k' x a v =>
    have hiso := newest_of_isolated (h.keyed.isolated_reverse (.ofBytes 20 x))
    rw [Registry.step, ERC.setPointerWithVersion, cwAddressIsPointer, getAnyPointerInfo, hiso]
    cases (highest fun v => s.get (versionKey (pointerReverseRegistryKey (.ofBytes 20 x)) v)) with
    | none => exact ⟨_, rfl⟩
    | some _ => exact ⟨_, rfl⟩
  | deleteERC k' x v =>
    cases hk
    obtain ⟨r, hget, -⟩ := h.getERC hpre hmem rfl ctx
    rw [Registry.step, ERC.deletePointer]
    refine Outcome.bind_returns ⟨r, hget⟩ fun r => ?_
    rcases r with _ | ⟨addr, w⟩
    · exact ⟨_, rfl⟩
    · exact ⟨_, rfl⟩
  | setCW => cases hk
  | deleteCW => cases hk

theorem run_returns (hkind : ∀ o ∈ ops, o.2.change.name.1 = .erc k)
    (hpre : PrefixFree (changesOf ops)) : ∃ s, run B .empty ops = .ok s := by
  suffices hrun : ∀ os, (∀ o ∈ os, o ∈ ops) → ∀ s, Traced (changesOf ops) s →
      ∃ s', run B s os = .ok s' from hrun ops (fun _ ho => ho) _ (Traced.empty _)
  intro os
  induction os with
  | nil => exact fun _ s _ => ⟨s, rfl⟩
  | cons o os ih =>
    intro hsub s h
    have ho := hsub o List.mem_cons_self
    obtain ⟨s₁, hstep⟩ := h.step_returns (B := B) hpre ho (hkind o ho)
    obtain ⟨s', hrun⟩ := ih (fun o' ho' => hsub o' (List.mem_cons_of_mem o ho')) s₁
      (h.step ho hstep)
    exact ⟨s', by rw [run, List.foldlM_cons, hstep]; exact hrun⟩

theorem Traced.target_set (h : Traced (changesOf ops) s) (hpre : PrefixFree (changesOf ops))
    (ho : o ∈ ops) (hk : o.2.change.name.1 = .erc k) {x : Bytes} {a : Address} {v : UInt16}
    (ht : Op.target B s o = some (x, a, v)) :
    ∃ p w, .set (.erc k) x p w ∈ changesOf ops ∧ FixedBytes.ofBytes 20 p = a := by
  have hmem := mem_changesOf ho
  obtain ⟨ctx, op⟩ := o
  cases op with
  | setERC k' y b w =>
    cases hk
    simp only [Op.target, Option.ite_none_right_eq_some] at ht
    obtain ⟨-, ht⟩ := ht
    cases ht
    exact ⟨a.bytes, v, hmem, FixedBytes.ofBytes_bytes a⟩
  | deleteERC k' y w =>
    cases hk
    obtain ⟨r, hget, hr⟩ := h.getERC hpre hmem rfl ctx
    have hget' : k.getPointer ctx s y = .ok r := hget
    rcases r with _ | ⟨addr, w'⟩
    · simp [Op.target, hget'] at ht
    · simp only [Op.target, hget', Option.some.injEq] at ht
      cases ht
      obtain ⟨p, hset, hp⟩ := hr a w' rfl
      exact ⟨p, w', hset, hp⟩
  | setCW => cases hk
  | deleteCW => cases hk

theorem Traced.harmless_iff (h : Traced (changesOf ops) s) (hpre : PrefixFree (changesOf ops))
    (hun : Unshared (changesOf ops)) (hkind : ∀ o ∈ ops, o.2.change.name.1 = .erc k)
    (ho : o ∈ ops) :
    Op.Harmless B (.erc k) s o ↔ ∀ x a v, Op.target B s o = some (x, a, v) →
      ∀ p, forwardEntry s (.erc k) x v = some p → p = a.bytes := by
  have haddr : ∀ {x p v}, .set (.erc k) x p v ∈ changesOf ops → ∀ {a : Address},
      FixedBytes.ofBytes 20 p = a → p = a.bytes := by
    intro x p v hset a he
    rw [← address_of_mem hset, he]
  constructor
  · intro hall x a v ht p hp
    exact haddr (h.forward _ _ _ _ hp) ((hall x a v ht).value p hp)
  · intro hall x a v ht
    refine ⟨fun p hp => ?_, fun y hy => ?_⟩
    · rw [hall x a v ht p hp, FixedBytes.ofBytes_bytes]
    · obtain ⟨p, w, hset, hp⟩ := h.target_set hpre ho (hkind o ho) ht
      obtain ⟨kind, q, hset', hq⟩ := h.reverse a v y hy
      obtain ⟨o', ho', hc⟩ := List.mem_map.mp hset'
      have hk : kind = .erc k := by
        have hk' := hkind o' ho'
        rw [hc] at hk'
        exact hk'
      subst hk
      rw [haddr hset hp] at hset
      rw [haddr hset' hq] at hset'
      exact hun _ _ _ _ _ _ hset' hset

/-- **Forward and reverse registries.**  In a run on one kind of pointer the two registries are
consistent all along exactly when every operation that returns is harmless.  On an ERC registry
whose names stay apart and whose pointees share no pointers, every operation returns, and it is
harmless exactly when the version it sets or deletes has no entry yet or one with the pointer it is
about: the new pointer of a setter, the pointer of the highest version for a deletion. -/
theorem registries_consistent_iff (B : Bech32) (kind : Kind) (ops : List (Ctx × Op))
    (hkind : ∀ o ∈ ops, o.2.change.name.1 = kind) :
    ((∀ taken s, taken <+: ops → run B .empty taken = .ok s → Consistent kind s) ↔
      ∀ taken o s s', taken ++ [o] <+: ops → run B .empty taken = .ok s → step B s o = .ok s' →
        Op.Harmless B kind s o) ∧
    ∀ k, kind = .erc k → PrefixFree (changesOf ops) → Unshared (changesOf ops) →
      (∃ s, run B .empty ops = .ok s) ∧
      ∀ taken o s, taken ++ [o] <+: ops → run B .empty taken = .ok s →
        (Op.Harmless B kind s o ↔ ∀ x a v, Op.target B s o = some (x, a, v) →
          ∀ p, forwardEntry s kind x v = some p → p = a.bytes) := by
  refine ⟨TwoWay.along_iff (consistent_empty kind) fun s o ho s' h hstep =>
    step_consistent_iff (hkind o ho) h hstep, ?_⟩
  rintro k rfl hpre hun
  refine ⟨run_returns hkind hpre, fun taken o s htaken hrun => ?_⟩
  have hsub : ∀ o' ∈ taken, o' ∈ ops := fun o' ho' =>
    htaken.subset (List.mem_append_left _ ho')
  have htraced : Traced (changesOf ops) s := (Traced.empty _).run hsub hrun
  exact htraced.harmless_iff hpre hun hkind
    (htaken.subset (List.mem_append_right _ List.mem_cons_self))

def atomDenom : Bytes := [0x61, 0x74, 0x6f, 0x6d]

theorem registries_consistent_oneDenom :
    ∃ s, run ⟨some, id⟩ .empty [(⟨false, 2⟩, .setERC .native atomDenom (.ofBytes 20 [1]) 1)] =
      .ok s ∧ Consistent (.erc .native) s := by
  obtain ⟨hiff, -⟩ := registries_consistent_iff ⟨some, id⟩ (.erc .native)
    [(⟨false, 2⟩, .setERC .native atomDenom (.ofBytes 20 [1]) 1)] (by simp [Op.change, Change.name])
  refine ⟨_, rfl, hiff.mpr (fun taken o s s' hpre hrun _ x a v _ => ?_) _ _ (List.prefix_refl _)
    rfl⟩
  -- the only step is taken in the empty registry
  obtain ⟨rest, hrest⟩ := hpre
  cases taken with
  | nil =>
    cases hrun
    exact ⟨nofun, nofun⟩
  | cons o' taken => simp at hrest

theorem deletePointer_dangling : let ctx : Ctx := ⟨false, 2⟩
    let ops : List (Ctx × Op) :=
      [(ctx, .setERC .native atomDenom (.ofBytes 20 [1]) 1),
        (ctx, .setERC .native atomDenom (.ofBytes 20 [2]) 2),
        (ctx, .deleteERC .native atomDenom 1)]
    PrefixFree (changesOf ops) ∧ Unshared (changesOf ops) ∧
      ∃ s, run ⟨some, id⟩ .empty ops = .ok s ∧ reverseEntry s (.ofBytes 20 [1]) 1 = some atomDenom ∧
        forwardEntry s (.erc .native) atomDenom 1 = none ∧ ¬ Consistent (.erc .native) s := by
  intro ctx ops
  refine ⟨?_, ?_, _, rfl, rfl, rfl, fun h => ?_⟩
  · intro c hc c' hc' _
    have hname : ∀ c ∈ changesOf ops, c.name.2 = atomDenom := by
      simp [ops, changesOf, Op.change, Change.name]
    rw [hname c hc, hname c' hc']
  · intro kind x y p v w hx hy
    have hset : ∀ {x p v}, Change.set kind x p v ∈ changesOf ops → x = atomDenom := by
      intro x p v h
      simp only [ops, changesOf, Op.change, List.map_cons, List.map_nil, List.mem_cons,
        Change.set.injEq, reduceCtorEq, List.not_mem_nil, or_false] at h
      rcases h with h | h
      · exact h.2.1
      · exact h.2.1
    rw [hset hx, hset hy]
  · obtain ⟨p, hp, -⟩ := (h (.ofBytes 20 [1]) atomDenom 1).mp rfl
    cases hp

end Tabi.Registry
