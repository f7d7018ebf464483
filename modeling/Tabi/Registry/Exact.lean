import Tabi.Registry.Pointers

/-!
# Registry — the registry as a table

What the registry is for, without keys: a table of pointers per registry, name and version
(`Exact`), in which a name is the whole name.
-/

namespace Tabi.Registry

open Support Support.Versioned

inductive Op where
  | setERC (k : ERC) (pointee : Bytes) (addr : Address) (version : UInt16)
  | deleteERC (k : ERC) (pointee : Bytes) (version : UInt16)
  | setCW (k : CW) (pointee : Address) (addr : Bytes) (version : UInt16)
  | deleteCW (k : CW) (pointee : Address) (version : UInt16)

def afterSet (s : Store) : Except String Store → Store
  | .ok s' => s'
  | .error _ => s

def step (B : Bech32) (s : Store) : Ctx × Op → Outcome Store
  | (_, .setERC k x a v) => (k.setPointerWithVersion s x a v).map (afterSet s)
  | (ctx, .deleteERC k x v) => k.deletePointer ctx s x v
  | (_, .setCW k a p v) => (k.setPointerWithVersion s a p v).map (afterSet s)
  | (ctx, .deleteCW k a v) => k.deletePointer B ctx s a v

def run (B : Bech32) (s : Store) (ops : List (Ctx × Op)) : Outcome Store := ops.foldlM (step B) s

inductive Kind where
  | erc (k : ERC)
  | cw (k : CW)
  deriving DecidableEq

inductive Change where
  | set (kind : Kind) (pointee pointer : Bytes) (version : UInt16)
  | delete (kind : Kind) (pointee : Bytes) (version : UInt16)

def Op.change : Op → Change
  | .setERC k x a v => .set (.erc k) x a.bytes v
  | .deleteERC k x v => .delete (.erc k) x v
  | .setCW k a p v => .set (.cw k) a.bytes p v
  | .deleteCW k a v => .delete (.cw k) a.bytes v

def Change.name : Change → Kind × Bytes
  | .set kind x _ _ => (kind, x)
  | .delete kind x _ => (kind, x)

structure Exact where
  forward : Kind → Bytes → UInt16 → Option Bytes
  reverse : Bytes → UInt16 → Option Bytes

namespace Exact

def empty : Exact := ⟨fun _ _ _ => none, fun _ _ => none⟩

/-- Enter (`some`) or remove (`none`) a version of `x`, and of `p` in the other table. -/
def put (e : Exact) (kind : Kind) (x p : Bytes) (v : UInt16) (b : Bool) : Exact where
  forward k y w := if k = kind ∧ y = x ∧ w = v then (if b then some p else none)
    else e.forward k y w
  reverse q w := if q = p ∧ w = v then (if b then some x else none) else e.reverse q w

theorem put_forward (e : Exact) (kind : Kind) (x p : Bytes) (v : UInt16) (b : Bool) (k : Kind)
    (y : Bytes) (w : UInt16) : (e.put kind x p v b).forward k y w =
      if k = kind ∧ y = x ∧ w = v then (if b then some p else none) else e.forward k y w := rfl

noncomputable def step (e : Exact) : Change → Exact
  | .set kind x p v => if (highest (e.reverse x)).isSome then e else e.put kind x p v true
  | .delete kind x v =>
    match highest (e.forward kind x) with
    | none => e
    | some (p, _) => e.put kind x p v false

noncomputable def pointerOf (e : Exact) : Change → Option Bytes
  | .set _ _ p _ => some p
  | .delete kind x _ => (highest (e.forward kind x)).map Prod.fst

theorem step_forward (e : Exact) {c : Change} {kind : Kind} {x : Bytes} (h : c.name ≠ (kind, x)) :
    (e.step c).forward kind x = e.forward kind x := by
  have hput : ∀ p v b, (e.put c.name.1 c.name.2 p v b).forward kind x = e.forward kind x := by
    intro p v b
    funext w
    refine if_neg fun hk => h ?_
    rw [hk.1, hk.2.1]
  cases c with
  | set kind' y p v =>
    rw [step]
    split
    · rfl
    · exact hput p v true
  | delete kind' y v =>
    rw [step]
    split
    · rfl
    · exact hput _ v false

theorem step_reverse (e : Exact) {c : Change} {q : Bytes} (h : e.pointerOf c ≠ some q) :
    (e.step c).reverse q = e.reverse q := by
  have hput : ∀ kind x p v b, p ≠ q → (e.put kind x p v b).reverse q = e.reverse q := by
    intro kind x p v b hp
    funext w
    exact if_neg fun hq => hp hq.1.symm
  cases c with
  | set kind' y p v =>
    rw [step]
    split
    · rfl
    · exact hput _ _ _ _ _ fun e => h (congrArg some e)
  | delete kind' y v =>
    rw [step]
    split
    · rfl
    · rename_i p w hhigh
      refine hput _ _ _ _ _ fun e' => h ?_
      rw [pointerOf, hhigh, ← e']
      rfl

end Exact

noncomputable def exact (cs : List Change) : Exact := cs.foldl Exact.step .empty

theorem exact_append (cs : List Change) (c : Change) : exact (cs ++ [c]) = (exact cs).step c := by
  rw [exact, List.foldl_append]
  rfl

def Change.ClearOf (kind : Kind) (x : Bytes) : Change → Prop
  | .set kind' y _ v => kind' = kind → x <+: versionKey y v → y = x
  | .delete _ _ _ => True

def Change.DistinctFrom (x : Bytes) : Change → Prop
  | .set _ _ p _ => FixedBytes.ofBytes 20 p = .ofBytes 20 x → p = x
  | .delete _ _ _ => True

instance (kind : Kind) (x : Bytes) : DecidablePred (Change.ClearOf kind x)
  | .set _ _ _ _ => inferInstanceAs (Decidable (_ → _ → _))
  | .delete _ _ _ => inferInstanceAs (Decidable True)

instance (x : Bytes) : DecidablePred (Change.DistinctFrom x)
  | .set _ _ _ _ => inferInstanceAs (Decidable (_ → _))
  | .delete _ _ _ => inferInstanceAs (Decidable True)

def Clear (cs : List Change) (kind : Kind) (x : Bytes) : Prop := ∀ c ∈ cs, c.ClearOf kind x

def Distinct (cs : List Change) (x : Bytes) : Prop := ∀ c ∈ cs, c.DistinctFrom x

def Canonical (B : Bech32) (p : Bytes) : Prop :=
  (B.accAddressFromBech32 p).any (B.string · = p) = true

instance (cs : List Change) (kind : Kind) (x : Bytes) : Decidable (Clear cs kind x) :=
  inferInstanceAs (Decidable (∀ c ∈ cs, _))

instance (cs : List Change) (x : Bytes) : Decidable (Distinct cs x) :=
  inferInstanceAs (Decidable (∀ c ∈ cs, _))

def Op.Apart (B : Bech32) (cs : List Change) : Op → Prop
  | .setERC _ x _ _ => Distinct cs x
  | .deleteERC k x _ => Clear cs (.erc k) x
  | .setCW _ a p _ => Distinct cs a.bytes ∧ Canonical B p
  | .deleteCW _ _ _ => True

instance (B : Bech32) (cs : List Change) : DecidablePred (Op.Apart B cs)
  | .setERC _ x _ _ => inferInstanceAs (Decidable (Distinct cs x))
  | .deleteERC k x _ => inferInstanceAs (Decidable (Clear cs (.erc k) x))
  | .setCW _ a p _ =>
    inferInstanceAs (Decidable (Distinct cs a.bytes ∧ (B.accAddressFromBech32 p).any _ = true))
  | .deleteCW _ _ _ => inferInstanceAs (Decidable True)

def changesOf (ops : List (Ctx × Op)) : List Change := ops.map (·.2.change)

def Apart (B : Bech32) (ops : List (Ctx × Op)) : Prop := ∀ o ∈ ops, o.2.Apart B (changesOf ops)

instance (B : Bech32) (ops : List (Ctx × Op)) : Decidable (Apart B ops) :=
  inferInstanceAs (Decidable (∀ o ∈ ops, _))

variable {ops : List (Ctx × Op)} {x y : Bytes} {v w : UInt16} {kind : Kind}

theorem mem_changesOf {o : Ctx × Op} (h : o ∈ ops) :
    o.2.change ∈ changesOf ops := List.mem_map.mpr ⟨o, h, rfl⟩

theorem clear_cw (ops : List (Ctx × Op)) (k : CW) (a : Address) :
    Clear (changesOf ops) (.cw k) a.bytes := by
  intro c hmem
  obtain ⟨⟨ctx, op⟩, _, rfl⟩ := List.mem_map.mp hmem
  cases op with
  | setERC => exact nofun
  | deleteERC => trivial
  | deleteCW => trivial
  | setCW k' b p v =>
  intro _ hpre
  have hlen : a.bytes.length = b.bytes.length := a.length_eq.trans b.length_eq.symm
  exact ((List.prefix_of_prefix_length_le hpre (List.prefix_append b.bytes _) hlen.le).eq_of_length
    hlen).symm

theorem canonical_of_mem {B : Bech32} (h : Apart B ops) {k : CW} {p : Bytes}
    (hmem : .set (.cw k) x p v ∈ changesOf ops) :
    ∃ acc, B.accAddressFromBech32 p = some acc ∧ B.string acc = p := by
  obtain ⟨⟨ctx, op⟩, ho, hop⟩ := List.mem_map.mp hmem
  cases op with
  | setCW k' b p' v' =>
    cases hop
    obtain ⟨acc, hparse, hstring⟩ := Option.any_eq_true _ _ |>.mp (h _ ho).2
    exact ⟨acc, hparse, of_decide_eq_true hstring⟩
  | _ => cases hop

theorem address_of_mem {k : ERC} {p : Bytes} (hmem : .set (.erc k) x p v ∈ changesOf ops) :
    (FixedBytes.ofBytes 20 p).bytes = p := by
  obtain ⟨⟨ctx, op⟩, ho, hop⟩ := List.mem_map.mp hmem
  cases op with
  | setERC k' b a v' =>
    cases hop
    rw [FixedBytes.ofBytes_bytes]
  | _ => cases hop

def Kind.byte : Kind → UInt8
  | .erc .native => 0x0
  | .erc .cw20 => 0x1
  | .erc .cw721 => 0x2
  | .cw .erc20 => 0x3
  | .cw .erc721 => 0x4
  | .erc .cw1155 => 0x5
  | .cw .erc1155 => 0x6

def Kind.key (kind : Kind) (x : Bytes) : Bytes := 0x15 :: kind.byte :: x

theorem ERC.key_eq (k : ERC) (x : Bytes) : k.key x = (Kind.erc k).key x := by cases k <;> rfl

theorem CW.key_eq (k : CW) (a : Address) : k.key a = (Kind.cw k).key a.bytes := by cases k <;> rfl

theorem Kind.byte_injective : Function.Injective Kind.byte := by
  rintro (_ | _) (_ | _) h <;> rename_i k k' <;> cases k <;> cases k' <;> first | rfl | cases h

theorem key_prefix {kind' : Kind} :
    kind.key x <+: versionKey (kind'.key y) v ↔ kind = kind' ∧ x <+: versionKey y v := by
  simp only [Kind.key, versionKey, List.cons_append, List.cons_prefix_cons, true_and]
  rw [Kind.byte_injective.eq_iff]

theorem key_inj {kind' : Kind} :
    versionKey (kind.key x) v = versionKey (kind'.key y) w ↔ kind = kind' ∧ x = y ∧ v = w := by
  constructor
  · intro h
    have hlen : (kind.key x).length = (kind'.key y).length := by
      simpa [versionKey] using congrArg List.length h
    obtain ⟨hk, hv⟩ := List.append_inj h hlen
    obtain ⟨hb, hx⟩ : kind.byte = kind'.byte ∧ x = y := by simpa [Kind.key] using hk
    subst hx
    refine ⟨Kind.byte_injective hb, rfl, versionKey_injective [] ?_⟩
    simpa [versionKey] using hv
  · rintro ⟨rfl, rfl, rfl⟩
    rfl

theorem reverse_inj {a b : Address} :
    versionKey (pointerReverseRegistryKey a) v = versionKey (pointerReverseRegistryKey b) w ↔
      a = b ∧ v = w := by
  constructor
  · intro h
    have hlen : (pointerReverseRegistryKey a).length = (pointerReverseRegistryKey b).length := by
      simpa [versionKey] using congrArg List.length h
    obtain ⟨hk, hv⟩ := List.append_inj h hlen
    refine ⟨FixedBytes.ext (by simpa [pointerReverseRegistryKey] using hk),
      versionKey_injective [] ?_⟩
    simpa [versionKey] using hv
  · rintro ⟨rfl, rfl⟩
    rfl

theorem forward_ne_reverse {a : Address} :
    versionKey (kind.key x) v ≠ versionKey (pointerReverseRegistryKey a) w := by
  simp [versionKey, Kind.key, pointerReverseRegistryKey]

def Keyed (s : Store) : Prop :=
  ∀ key b, s.get key = some b → (∃ kind x v, key = versionKey (Kind.key kind x) v) ∨
    ∃ a v, key = versionKey (pointerReverseRegistryKey a) v

theorem Keyed.isolated_reverse {s : Store} (h : Keyed s) (a : Address) :
    Isolated s (pointerReverseRegistryKey a) := by
  intro key b hget hpre
  rcases h key b hget with ⟨kind', y, v, rfl⟩ | ⟨a', v, rfl⟩
  · simp [Kind.key, versionKey, pointerReverseRegistryKey] at hpre
  · have hlen : a.bytes.length = a'.bytes.length := a.length_eq.trans a'.length_eq.symm
    have hpre' : a.bytes <+: a'.bytes ++ beBytes 2 v.toNat := by
      simpa [versionKey, pointerReverseRegistryKey] using hpre
    have heq : a.bytes = a'.bytes := (List.prefix_of_prefix_length_le hpre'
      (List.prefix_append a'.bytes _) hlen.le).eq_of_length hlen
    exact ⟨v, by rw [FixedBytes.ext heq]⟩

structure Sim (cs : List Change) (s : Store) (e : Exact) : Prop where
  forward : ∀ kind x v, s.get (versionKey (kind.key x) v) = e.forward kind x v
  reverse : ∀ x, Distinct cs x → ∀ v,
    s.get (versionKey (pointerReverseRegistryKey (.ofBytes 20 x)) v) = e.reverse x v
  keys : ∀ key b, s.get key = some b →
    (∃ kind x p v, .set kind x p v ∈ cs ∧ key = versionKey (kind.key x) v) ∨
      ∃ a v, key = versionKey (pointerReverseRegistryKey a) v
  registered : ∀ kind x v p, e.forward kind x v = some p → ∃ y w, .set kind y p w ∈ cs

variable {cs : List Change} {s : Store} {e : Exact} {kind : Kind} {x p : Bytes}

theorem Sim.empty (cs : List Change) : Sim cs .empty .empty where
  forward _ _ _ := rfl
  reverse _ _ _ := rfl
  keys _ _ h := nomatch h
  registered _ _ _ _ h := nomatch h

theorem Sim.isolated (h : Sim cs s e) (hx : Clear cs kind x) : Isolated s (kind.key x) := by
  intro key b hget hpre
  rcases h.keys key b hget with ⟨kind', y, p, v, hmem, rfl⟩ | ⟨a, v, rfl⟩
  · obtain ⟨rfl, hxy⟩ := key_prefix.mp hpre
    exact ⟨v, by rw [hx _ hmem rfl hxy]⟩
  · simp [Kind.key, versionKey, pointerReverseRegistryKey] at hpre

theorem Sim.isolated_reverse (h : Sim cs s e) (a : Address) :
    Isolated s (pointerReverseRegistryKey a) := by
  refine Keyed.isolated_reverse (fun key b hget => ?_) a
  rcases h.keys key b hget with ⟨kind', y, p, v, -, rfl⟩ | hrev
  · exact .inl ⟨kind', y, v, rfl⟩
  · exact .inr hrev

theorem Sim.getPointerInfo (h : Sim cs s e) (hx : Clear cs kind x) (ctx : Ctx)
    (maxVersion : UInt16) :
    getPointerInfo ctx s (kind.key x) maxVersion = .ok (highest (e.forward kind x)) := by
  rw [getPointerInfo_eq, newest_of_isolated (h.isolated hx)]
  simp only [h.forward]

theorem Sim.getAnyPointerInfo (h : Sim cs s e) (hx : Distinct cs x) :
    getAnyPointerInfo s (pointerReverseRegistryKey (.ofBytes 20 x)) =
      .ok (highest (e.reverse x)) := by
  rw [Registry.getAnyPointerInfo, newest_of_isolated (h.isolated_reverse _)]
  simp only [h.reverse x hx]

theorem Sim.set (h : Sim cs s e) (hmem : .set kind x p v ∈ cs) :
    Sim cs (setPointerInfo (setPointerInfo s (kind.key x) p v)
      (pointerReverseRegistryKey (.ofBytes 20 p)) x v) (e.put kind x p v true) where
  forward kind' y w := by
    simp only [setPointerInfo, SortedStore.get_set, forward_ne_reverse, if_false, key_inj,
      h.forward, Exact.put, if_true]
  reverse y hy w := by
    have hiff : (FixedBytes.ofBytes 20 y = .ofBytes 20 p ∧ w = v) ↔ (y = p ∧ w = v) := by
      refine and_congr_left fun _ => ⟨fun e => (hy _ hmem e.symm).symm, fun e => by rw [e]⟩
    simp only [setPointerInfo, SortedStore.get_set, reverse_inj, forward_ne_reverse.symm, if_false,
      h.reverse y hy, Exact.put, if_true, hiff]
  keys key b hget := by
    rw [setPointerInfo, setPointerInfo, SortedStore.get_set, SortedStore.get_set] at hget
    split_ifs at hget with hrev hfwd
    · exact .inr ⟨_, _, hrev⟩
    · exact .inl ⟨kind, x, p, v, hmem, hfwd⟩
    · exact h.keys key b hget
  registered kind' y w q hq := by
    rw [Exact.put_forward] at hq
    split at hq
    · rename_i hk
      cases hq
      rw [hk.1]
      exact ⟨x, v, hmem⟩
    · exact h.registered kind' y w q hq

theorem Sim.delete (h : Sim cs s e) (hmem : .set kind y p w ∈ cs) :
    Sim cs (deletePointerInfo (deletePointerInfo s (kind.key x) v)
      (pointerReverseRegistryKey (.ofBytes 20 p)) v) (e.put kind x p v false) where
  forward kind' y w := by
    simp only [deletePointerInfo, SortedStore.get_delete, forward_ne_reverse, if_false, key_inj,
      h.forward, Exact.put]
    rfl
  reverse z hz w := by
    have hiff : (FixedBytes.ofBytes 20 z = .ofBytes 20 p ∧ w = v) ↔ (z = p ∧ w = v) := by
      refine and_congr_left fun _ => ⟨fun e => (hz _ hmem e.symm).symm, fun e => by rw [e]⟩
    simp only [deletePointerInfo, SortedStore.get_delete, reverse_inj, forward_ne_reverse.symm,
      if_false, h.reverse z hz, Exact.put, hiff]
    rfl
  keys key b hget := by
    rw [deletePointerInfo, deletePointerInfo, SortedStore.get_delete, SortedStore.get_delete]
      at hget
    split_ifs at hget
    exact h.keys key b hget
  registered kind' z w q hq := by
    rw [Exact.put_forward] at hq
    split at hq
    · cases hq
    · exact h.registered kind' z w q hq

end Tabi.Registry
