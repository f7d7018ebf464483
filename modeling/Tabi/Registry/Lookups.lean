import Tabi.Precompile.Executors
import Tabi.Registry.Exact

/-!
# Registry — what a lookup returns

Runs of the registry on names that stay apart.
-/

namespace Tabi.Registry

open Support Support.Versioned Precompile

variable {B : Bech32} {ops : List (Ctx × Op)} {s : Store} {e : Exact}

variable {k : ERC} {x : Bytes} {o : Ctx × Op}

theorem Sim.getERC (h : Sim (changesOf ops) s e) (hx : Clear (changesOf ops) (.erc k) x)
    (ctx : Ctx) :
    ∃ r, k.getPointer ctx s x = .ok r ∧
      r.map (Prod.map FixedBytes.bytes id) = highest (e.forward (.erc k) x) := by
  refine ⟨_, by rw [ERC.getPointer, ERC.key_eq, h.getPointerInfo hx]; rfl, ?_⟩
  cases hhigh : highest (e.forward (.erc k) x) with
  | none => rfl
  | some info =>
    obtain ⟨p, v⟩ := info
    obtain ⟨y, w, hmem⟩ := h.registered _ _ _ _ (of_highest hhigh)
    simp only [Option.map_some, Prod.map, address_of_mem hmem, id]

theorem Sim.getCW (hap : Apart B ops) (h : Sim (changesOf ops) s e) (k : CW) (a : Address)
    (ctx : Ctx) :
    ∃ r, k.getPointer B ctx s a = .ok r ∧
      r.map (Prod.map B.string id) = highest (e.forward (.cw k) a.bytes) := by
  rw [CW.getPointer, CW.key_eq, h.getPointerInfo (clear_cw ops k a), Outcome.ok_bind]
  cases hhigh : highest (e.forward (.cw k) a.bytes) with
  | none => exact ⟨none, rfl, rfl⟩
  | some info =>
    obtain ⟨p, v⟩ := info
    obtain ⟨y, w, hmem⟩ := h.registered _ _ _ _ (of_highest hhigh)
    obtain ⟨acc, hparse, hstring⟩ := canonical_of_mem hap hmem
    refine ⟨some (acc, v), ?_, by rw [Option.map_some, Prod.map_apply, hstring, id]⟩
    simp only [mustAccAddressFromBech32, hparse, Outcome.ok_bind, Outcome.pure_eq_ok]

theorem Sim.setERC (h : Sim (changesOf ops) s e) {a : Address} {v : UInt16}
    (hmem : .set (.erc k) x a.bytes v ∈ changesOf ops) (hx : Distinct (changesOf ops) x) :
    ∃ s', (k.setPointerWithVersion s x a v).map (afterSet s) = .ok s' ∧
      Sim (changesOf ops) s' (e.step (.set (.erc k) x a.bytes v)) := by
  rw [ERC.setPointerWithVersion, cwAddressIsPointer, h.getAnyPointerInfo hx, Exact.step]
  cases hhigh : highest (e.reverse x) with
  | some info => exact ⟨s, rfl, h⟩
  | none =>
    refine ⟨_, rfl, ?_⟩
    have hset := h.set hmem
    rw [FixedBytes.ofBytes_bytes] at hset
    rw [ERC.key_eq]
    exact hset

theorem Sim.setCW (h : Sim (changesOf ops) s e) {k : CW} {a : Address} {p : Bytes} {v : UInt16}
    (hmem : .set (.cw k) a.bytes p v ∈ changesOf ops) (hx : Distinct (changesOf ops) a.bytes) :
    ∃ s', (k.setPointerWithVersion s a p v).map (afterSet s) = .ok s' ∧
      Sim (changesOf ops) s' (e.step (.set (.cw k) a.bytes p v)) := by
  have hlookup := h.getAnyPointerInfo hx
  rw [FixedBytes.ofBytes_bytes] at hlookup
  rw [CW.setPointerWithVersion, evmAddressIsPointer, hlookup, Exact.step]
  cases hhigh : highest (e.reverse a.bytes) with
  | some info => exact ⟨s, rfl, h⟩
  | none =>
    refine ⟨_, rfl, ?_⟩
    rw [CW.key_eq]
    exact h.set hmem

theorem Sim.deleteERC (h : Sim (changesOf ops) s e) (hx : Clear (changesOf ops) (.erc k) x)
    (ctx : Ctx) (v : UInt16) :
    ∃ s', k.deletePointer ctx s x v = .ok s' ∧
      Sim (changesOf ops) s' (e.step (.delete (.erc k) x v)) := by
  obtain ⟨r, hget, hr⟩ := h.getERC hx ctx
  rw [ERC.deletePointer, hget, Exact.step, ← hr]
  rcases r with _ | ⟨addr, w⟩
  · exact ⟨s, rfl, h⟩
  · obtain ⟨y, w', hmem⟩ := h.registered _ _ _ _ (of_highest hr.symm)
    refine ⟨_, rfl, ?_⟩
    have hdel := h.delete (x := x) (v := v) hmem
    rw [FixedBytes.ofBytes_bytes] at hdel
    rw [ERC.key_eq]
    exact hdel

theorem Sim.deleteCW (hap : Apart B ops) (h : Sim (changesOf ops) s e) (k : CW) (a : Address)
    (ctx : Ctx) (v : UInt16) :
    ∃ s', k.deletePointer B ctx s a v = .ok s' ∧
      Sim (changesOf ops) s' (e.step (.delete (.cw k) a.bytes v)) := by
  obtain ⟨r, hget, hr⟩ := h.getCW hap k a ctx
  rw [CW.deletePointer, hget, Exact.step, ← hr]
  rcases r with _ | ⟨acc, w⟩
  · exact ⟨s, rfl, h⟩
  · obtain ⟨y, w', hmem⟩ := h.registered _ _ _ _ (of_highest hr.symm)
    refine ⟨_, rfl, ?_⟩
    rw [CW.key_eq]
    exact h.delete hmem

theorem Sim.step (hap : Apart B ops) (h : Sim (changesOf ops) s e) (ho : o ∈ ops) :
    ∃ s', step B s o = .ok s' ∧ Sim (changesOf ops) s' (e.step o.2.change) := by
  have hmem := mem_changesOf ho
  have hopart := hap o ho
  obtain ⟨ctx, op⟩ := o
  cases op with
  | setERC k x a v => exact h.setERC hmem hopart
  | deleteERC k x v => exact h.deleteERC hopart ctx v
  | setCW k a p v => exact h.setCW hmem hopart.1
  | deleteCW k a v => exact h.deleteCW hap k a ctx v

theorem sim_run (hap : Apart B ops) :
    ∃ s, run B .empty ops = .ok s ∧ Sim (changesOf ops) s (exact (changesOf ops)) := by
  suffices hrun : ∀ os, (∀ o ∈ os, o ∈ ops) → ∀ s e, Sim (changesOf ops) s e →
      ∃ s', run B s os = .ok s' ∧
        Sim (changesOf ops) s' ((changesOf os).foldl Exact.step e) from
    hrun ops (fun _ ho => ho) _ _ (Sim.empty _)
  intro os
  induction os with
  | nil => exact fun _ s e h => ⟨s, rfl, h⟩
  | cons o os ih =>
    intro hsub s e h
    obtain ⟨s₁, hstep, h₁⟩ := h.step hap (hsub o List.mem_cons_self)
    obtain ⟨s', hrun, h'⟩ := ih (fun o' ho' => hsub o' (List.mem_cons_of_mem o ho')) s₁ _ h₁
    exact ⟨s', by rw [run, List.foldlM_cons, hstep]; exact hrun, h'⟩

structure Answers (B : Bech32) (cs : List Change) (s : Store) (e : Exact) : Prop where
  erc : ∀ ctx k x, Clear cs (.erc k) x → ∃ r, ERC.getPointer k ctx s x = .ok r ∧
    r.map (Prod.map FixedBytes.bytes id) = highest (e.forward (.erc k) x)
  cw : ∀ ctx k a, ∃ r, CW.getPointer B k ctx s a = .ok r ∧
    r.map (Prod.map B.string id) = highest (e.forward (.cw k) a.bytes)
  reverse : ∀ x, Distinct cs x →
    getAnyPointerInfo s (pointerReverseRegistryKey (.ofBytes 20 x)) = .ok (highest (e.reverse x))

structure Undisturbed (B : Bech32) (cs : List Change) (e : Exact) (c : Change) (s s' : Store) :
    Prop where
  erc : ∀ ctx k x, Clear cs (.erc k) x → c.name ≠ (.erc k, x) →
    ERC.getPointer k ctx s' x = ERC.getPointer k ctx s x
  cw : ∀ ctx k a, c.name ≠ (.cw k, a.bytes) →
    CW.getPointer B k ctx s' a = CW.getPointer B k ctx s a
  reverse : ∀ x, Distinct cs x → e.pointerOf c ≠ some x →
    getAnyPointerInfo s' (pointerReverseRegistryKey (.ofBytes 20 x)) =
      getAnyPointerInfo s (pointerReverseRegistryKey (.ofBytes 20 x))

theorem Sim.answers (hap : Apart B ops) (h : Sim (changesOf ops) s e) :
    Answers B (changesOf ops) s e where
  erc ctx _ _ hx := h.getERC hx ctx
  cw ctx k a := h.getCW hap k a ctx
  reverse _ hx := h.getAnyPointerInfo hx

theorem Clear.of_append {cs : List Change} {c : Change} {kind : Kind} (h : Clear (cs ++ [c]) kind x)
    : Clear cs kind x :=
  fun c' hmem => h c' (List.mem_append_left _ hmem)

theorem Distinct.of_append {cs : List Change} {c : Change} (h : Distinct (cs ++ [c]) x) :
    Distinct cs x :=
  fun c' hmem => h c' (List.mem_append_left _ hmem)

theorem Sim.undisturbed (h : Sim (changesOf ops) s e) {s' : Store}
    (h' : Sim (changesOf (ops ++ [o])) s' (e.step o.2.change)) :
    Undisturbed B (changesOf (ops ++ [o])) e o.2.change s s' := by
  have happ : changesOf (ops ++ [o]) = changesOf ops ++ [o.2.change] := List.map_append
  constructor
  · intro ctx k x hx hne
    have hx₀ : Clear (changesOf ops) (.erc k) x := Clear.of_append (happ ▸ hx)
    rw [ERC.getPointer, ERC.getPointer, ERC.key_eq, h'.getPointerInfo hx, h.getPointerInfo hx₀,
      e.step_forward hne]
  · intro ctx k a hne
    rw [CW.getPointer, CW.getPointer, CW.key_eq, h'.getPointerInfo (clear_cw _ k a),
      h.getPointerInfo (clear_cw _ k a), e.step_forward hne]
  · intro x hx hne
    have hx₀ : Distinct (changesOf ops) x := Distinct.of_append (happ ▸ hx)
    rw [h'.getAnyPointerInfo hx, h.getAnyPointerInfo hx₀, e.step_reverse hne]

theorem undisturbed_of_run (hrun : run B .empty ops = .ok s)
    (h : Sim (changesOf ops) s (exact (changesOf ops))) (hap : Apart B (ops ++ [o])) :
    ∃ s', step B s o = .ok s' ∧
      Undisturbed B (changesOf (ops ++ [o])) (exact (changesOf ops)) o.2.change s s' := by
  obtain ⟨s', hrun', h'⟩ := sim_run hap
  rw [run, List.foldlM_append, ← run, hrun, Outcome.ok_bind, List.foldlM_cons] at hrun'
  obtain ⟨s₁, hstep, hs₁⟩ := bind_eq_ok.mp hrun'
  cases hs₁
  have happ : changesOf (ops ++ [o]) = changesOf ops ++ [o.2.change] := List.map_append
  rw [happ, exact_append, ← happ] at h'
  exact ⟨s', hstep, h.undisturbed h'⟩

section Bank

variable {σ : Type}

/-- `GetERC20NativePointer` on a gas meter: reading the store costs gas. -/
def meteredNativePointer (reg : σ → Store) (cost : Store → Bytes → UInt64) (ctx : Ctx)
    (denom : Bytes) : GasM σ Pointer := fun m w => (do
  GasM.consumeGas (cost (reg w.store) denom)
  match ← GasM.ofOutcome (getERC20NativePointer ctx (reg w.store) denom) with
  | some (addr, version) => return ⟨addr, version, true⟩
  | none => return ⟨.zero 20, 0, false⟩ : GasM σ Pointer) m w

def withRegistry (K : Keepers σ) (reg : σ → Store) (cost : Store → Bytes → UInt64) (ctx : Ctx) :
    Keepers σ :=
  { K with getERC20NativePointer := meteredNativePointer reg cost ctx }

variable {K : Keepers σ} {reg : σ → Store} {cost : Store → Bytes → UInt64} {ctx : Ctx}
  {m : GasMeter} {w w' : World σ}

theorem meteredNativePointer_eq_ok {denom : Bytes} {p : Pointer}
    (h : meteredNativePointer reg cost ctx denom m w = .ok (p, w')) (hfound : p.found = true) :
    getERC20NativePointer ctx (reg w.store) denom = .ok (some (p.address, p.version)) := by
  unfold meteredNativePointer at h
  obtain ⟨_, w₁, _, h⟩ := GasM.steps_iff.mp h
  obtain ⟨r, w₂, hr, h⟩ := GasM.steps_iff.mp h
  rw [(GasM.ofOutcome_eq_ok.mp hr).1]
  rcases r with _ | ⟨addr, version⟩
  · cases h
    cases hfound
  · cases h
    rfl

theorem send_caller {c : CallInfo} {args : List Value} {denom : Bytes} {r : Packed}
    (hdenom : args[2]? = some (.string denom))
    (h : Bank.send (withRegistry K reg cost ctx) c args m w = .ok (r, w')) :
    ∃ v, getERC20NativePointer ctx (reg w.store) denom = .ok (some (c.caller, v)) := by
  unfold Bank.send at h
  have hchecks := (GasM.guard_eq_ok.mp h).2
  clear h
  obtain ⟨_, w₁, h₁, hchecks⟩ := GasM.steps_iff.mp hchecks
  obtain ⟨_, w₂, h₂, hchecks⟩ := GasM.steps_iff.mp hchecks
  obtain ⟨denom', w₃, h₃, hchecks⟩ := GasM.steps_iff.mp hchecks
  have hchecks := (GasM.guard_eq_ok.mp hchecks).2
  obtain ⟨p, w₄, h₄, hchecks⟩ := GasM.steps_iff.mp hchecks
  have hp := (GasM.guard_eq_ok.mp hchecks).1
  clear hchecks
  -- the checks before the lookup leave the world as it is
  obtain ⟨hw₃, v, hget, hproj⟩ := assertArg_eq_ok h₃
  rw [hw₃, validateArgsLength_eq_ok h₂, validateNonPayable_eq_ok h₁] at h₄
  rw [hdenom] at hget
  cases hget
  cases hproj
  obtain ⟨hfound, hcaller⟩ : p.found = true ∧ p.address = c.caller := by simpa using hp
  rw [← hcaller]
  exact ⟨p.version, meteredNativePointer_eq_ok h₄ hfound⟩

end Bank

/-- **Lookups are exact** on names that are apart: every operation of the run returns; every
lookup, in the seven forward registries and in the reverse one, answers with the highest version
that is set for exactly the name; an operation on another name changes no answer; and only the
pointer registered for exactly a denom can `send` it. -/
theorem lookups_exact (B : Bech32) (ops : List (Ctx × Op)) (hap : Apart B ops) :
    ∃ s, run B .empty ops = .ok s ∧
      Answers B (changesOf ops) s (exact (changesOf ops)) ∧
      (∀ o, Apart B (ops ++ [o]) → ∃ s', step B s o = .ok s' ∧
        Undisturbed B (changesOf (ops ++ [o])) (exact (changesOf ops)) o.2.change s s') ∧
      ∀ (σ : Type) (K : Keepers σ) reg cost ctx c args denom m w r w',
        reg w.store = s → args[2]? = some (.string denom) →
        Clear (changesOf ops) (.erc .native) denom →
        Bank.send (withRegistry K reg cost ctx) c args m w = .ok (r, w') →
        ∃ v, highest ((exact (changesOf ops)).forward (.erc .native) denom) =
          some (c.caller.bytes, v) := by
  obtain ⟨s, hrun, h⟩ := sim_run hap
  refine ⟨s, hrun, h.answers hap, fun o ho => undisturbed_of_run hrun h ho, ?_⟩
  intro σ K reg cost ctx c args denom m w r w' hs hdenom hclear hsend
  obtain ⟨v, hget⟩ := send_caller hdenom hsend
  obtain ⟨info, hget', hinfo⟩ := h.getERC hclear ctx
  rw [hs] at hget
  obtain rfl : some (c.caller, v) = info := Except.ok.inj (hget.symm.trans hget')
  exact ⟨v, hinfo.symm⟩

theorem lookups_exact_twoDenoms : let B : Bech32 := ⟨some, id⟩
    let ctx : Ctx := ⟨false, 2⟩
    let atom : Bytes := [0x61, 0x74, 0x6f, 0x6d]
    let osmo : Bytes := [0x6f, 0x73, 0x6d, 0x6f]
    let ops : List (Ctx × Op) :=
      [(ctx, .setERC .native atom (.ofBytes 20 [1]) 1),
        (ctx, .setERC .native osmo (.ofBytes 20 [2]) 1),
        (ctx, .setERC .native atom (.ofBytes 20 [3]) 2),
        (ctx, .setCW .erc20 (.ofBytes 20 [4]) (List.replicate 20 7) 2),
        (ctx, .deleteERC .native atom 2), (ctx, .deleteCW .erc20 (.ofBytes 20 [4]) 2)]
    Apart B ops ∧ ∃ s, run B .empty ops = .ok s ∧
      Answers B (changesOf ops) s (exact (changesOf ops)) := by
  intro B ctx atom osmo ops
  have hap : Apart B ops := by decide
  obtain ⟨s, hrun, hans, _⟩ := lookups_exact B ops hap
  exact ⟨hap, s, hrun, hans⟩

theorem getERC20NativePointer_longerDenom : let B : Bech32 := ⟨some, id⟩
    let ctx : Ctx := ⟨false, 2⟩
    let uatom : Bytes := [0x75, 0x61, 0x74, 0x6f, 0x6d]
    let pointer : Address := .ofBytes 20 [1]
    let ops : List (Ctx × Op) := [(ctx, .setERC .native (uatom ++ [0x78]) pointer 1)]
    -- a bank that keeps the messages it is sent
    let K : Keepers (Store × List MsgSend) :=
      { (default : Keepers (Store × List MsgSend)) with
        getTabiAddress := fun _ => pure none
        newCoin := fun denom amount => pure (denom, amount)
        newCoins := fun coins => pure coins
        validateMsgSend := fun _ => pure ()
        bankSend := fun msg => modify fun w => { w with store := (w.store.1, [msg]) } }
    let args : List Value :=
      [.address (.ofBytes 20 [2]), .address (.ofBytes 20 [3]), .string uatom, .int 5]
    (∀ v, (exact (changesOf ops)).forward (.erc .native) uatom v = none) ∧
      ∃ s, run B .empty ops = .ok s ∧
        getERC20NativePointer ctx s uatom = .ok (some (pointer, 0x7800)) ∧
        ∃ r w, Bank.send (withRegistry K Prod.fst (fun _ _ => 0) ctx)
            ⟨pointer, pointer, none, false, false, true, 0⟩ args ⟨100, id⟩ ⟨0, (s, []), []⟩ =
              .ok (r, w) ∧ w.store.2.map (·.amount) = [[(uatom, 5)]] := by
  intro B ctx uatom pointer ops K args
  refine ⟨fun v => ?_, _, rfl, rfl, _, _, rfl, rfl⟩
  have hother : (exact (changesOf ops)).forward (.erc .native) uatom = _ :=
    Exact.empty.step_forward (c := .set (.erc .native) (uatom ++ [0x78]) pointer.bytes 1)
      (by simp [Change.name, uatom])
  rw [hother]
  rfl

end Tabi.Registry
