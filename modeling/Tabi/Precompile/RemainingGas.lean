import Tabi.Precompile.Executors

/-!
# Precompile — the gas a call gives back

What a precompile call that succeeds returns is what is left on its meter (`Responds`), so it is
bounded by the supplied gas whenever the meter got a positive limit.
-/

namespace Tabi.Precompile

open Support

def Responds {σ : Type} (K : Keepers σ) (x : GasM σ Reply) : Prop :=
  ∀ ⦃m w r w'⦄, x m w = .ok (r, w') → r.err = none →
    getEvmGasLimitFromCtx K.priorityNormalizer m w'.consumed = .ok r.remainingGas

namespace Responds

variable {σ α : Type} {K : Keepers σ}

theorem respond (packed : Packed) : Responds K (Precompile.respond K packed) := by
  intro m w r w' h hok
  obtain ⟨g, w₁, hg, h⟩ := GasM.steps_iff.mp h
  obtain ⟨hleft, e⟩ := GasM.ofOutcome_eq_ok.mp hg
  cases packed with
  | ok ret =>
    cases h
    rw [e]
    exact hleft
  | error _ =>
    cases h
    cases hok

theorem bind {x : GasM σ α} {f : α → GasM σ Reply} (hf : ∀ a, Responds K (f a)) :
    Responds K (x >>= f) := by
  intro m w r w' h hok
  obtain ⟨a, w₁, -, h⟩ := GasM.steps_iff.mp h
  exact hf a h hok

theorem recovering {message : Panic → Bytes} {x : GasM σ Reply} (hx : Responds K x) :
    Responds K (GasM.recovering message x) := fun _ _ _ _ h => hx (GasM.recovering_eq_ok.mp h)

theorem guarded {p : Prop} [Decidable p] {y : GasM σ α} {x : GasM σ Reply} (hx : Responds K x) :
    Responds K (if p then y >>= fun _ => x else x) := by
  split
  · exact .bind fun _ => hx
  · exact hx

theorem execute (K : Keepers σ) : ∀ (p : Custom) (method : p.Method) (c : CallInfo)
    (args : List Value), Responds K (p.execute K method c args)
  | .bank, _, _, _ => .recovering (.bind .respond)
  | .wasmd, _, _, _ => .guarded (.recovering (.bind .respond))
  | .pointer, _, _, _ => .guarded (.guarded (.bind .respond))
  | .addr, _, _, _ => .recovering (.bind .respond)
  | .distribution, _, _, _ => .guarded (.guarded (.recovering (.bind .respond)))
  | .ibc, _, _, _ => .bind fun _ => .guarded (.guarded (.recovering (.bind .respond)))

end Responds

variable {σ : Type} {K : Keepers σ}

theorem runAndCalculateGas_success {p : Custom}
    {unpack : Bytes → Except Bytes (p.Method × List Value)} {adjust : UInt64 → UInt64}
    {input : Bytes} {suppliedGas : UInt64} {c : CallInfo} {store : σ} {events : List Event}
    {reply : Reply} {w : Option (World σ)}
    (h : runAndCalculateGas K (p.executor K unpack) adjust input suppliedGas c store events =
      .ok (reply, w)) (hok : reply.err = none) :
    ∃ limit consumed,
      getCosmosGasLimitFromEVMGas K.priorityNormalizer suppliedGas = .ok limit ∧
      getEvmGasLimitFromCtx K.priorityNormalizer ⟨limit, adjust⟩ consumed =
        .ok reply.remainingGas := by
  obtain ⟨method, args, limit, w', -, hlimit, hrun, -⟩ := runAndCalculateGas_ok K h hok
  exact ⟨limit, w'.consumed, hlimit, Responds.execute K p method c args hrun hok⟩

/-- **The gas a call gives back.**  For every method of every dynamic gas precompile, whatever
the keepers do and charge: a call that succeeds returns at most the gas it was given exactly when
that gas makes at least one unit of Cosmos gas. -/
theorem remainingGas_le_iff (hN : 0 < K.priorityNormalizer) {p : Custom}
    {unpack : Bytes → Except Bytes (p.Method × List Value)} {adjust : UInt64 → UInt64}
    {input : Bytes} {suppliedGas : UInt64} {c : CallInfo} {store : σ} {events : List Event}
    {reply : Reply} {w : Option (World σ)}
    (h : runAndCalculateGas K (p.executor K unpack) adjust input suppliedGas c store events =
      .ok (reply, w)) (hok : reply.err = none) :
    reply.remainingGas ≤ suppliedGas ↔ Dec.unit ≤ suppliedGas.toNat * K.priorityNormalizer := by
  obtain ⟨limit, consumed, hlimit, hleft⟩ := runAndCalculateGas_success h hok
  have hzero := limit_eq_zero_iff hN hlimit
  by_cases e : limit = 0
  · -- the meter passes for an infinite one
    have hlt := hzero.mp e
    rw [getEvmGasLimitFromCtx_zero e] at hleft
    rw [← Except.ok.inj hleft]
    refine ⟨fun hle => ?_, fun hle => absurd hlt (not_lt.mpr hle)⟩
    exact absurd (lt_maxUint64_of_lt_unit hN hlt) (UInt64.not_lt.mpr hle)
  · exact ⟨fun _ => not_lt.mp fun hlt => e (hzero.mpr hlt),
      fun _ => getEvmGasLimitFromCtx_le hN hlimit e hleft⟩

def plainKeepers : Keepers Unit :=
  { (default : Keepers Unit) with
    priorityNormalizer := Dec.unit
    pack := fun _ _ => .ok [1]
    getSupply := fun _ => do
      GasM.consumeGas 3000
      return 7 }

def plainCall : CallInfo := ⟨.zero 20, .zero 20, none, false, false, true, 1⟩

/-- `RunAndCalculateGas` of the bank precompile for one of its methods. -/
def callBank (method : Bank.Method) (args : List Value) (suppliedGas : UInt64) :
    Outcome (Reply × Option (World Unit)) :=
  runAndCalculateGas plainKeepers (Custom.executor plainKeepers .bank fun _ => .ok (method, args))
    id [1, 2, 3, 4] suppliedGas plainCall () []

theorem remainingGas_le_supply :
    ∃ w, callBank .supply [.string [97]] 10000 = .ok (⟨[1], 7000, none⟩, w) ∧
      ((7000 : UInt64) ≤ 10000 ↔ Dec.unit ≤ (10000 : UInt64).toNat * Dec.unit) := by
  have h : ∃ r w, callBank .supply [.string [97]] 10000 = .ok (r, w) ∧ r = ⟨[1], 7000, none⟩ :=
    ⟨_, _, rfl, by decide⟩
  obtain ⟨r, w, h, rfl⟩ := h
  exact ⟨w, h, remainingGas_le_iff (K := plainKeepers) (by decide) h rfl⟩

theorem decimals_freeGas :
    ∃ r w, callBank .decimals [.string [97]] 0 = .ok (r, w) ∧ r.err = none ∧
      r.remainingGas = maxUint64 ∧ ¬ r.remainingGas ≤ 0 := by
  exact ⟨_, _, rfl, rfl, rfl, by decide⟩

end Tabi.Precompile
