import Tabi.StateDB.Changes
import Tabi.StateDB.Refinement

/-!
# StateDB — the end of a transaction

`Finalize` settles the destroyed accounts and then writes the caches back.
-/

namespace Tabi.StateDB

open Support

variable {β γ : Type} (k : Keepers β γ)

namespace Flat

def handleResidualFunds (entry : Address × AccountStatus) (t : Flat β γ) : Outcome (Flat β γ) :=
  if entry.2 ≠ .deleted then .ok t else do
    let residual ← t.getBalance k entry.1
    if residual = 0 then .ok t else do
      let t ← t.subBalance k entry.1 residual
      t.addBalance k t.coinbaseEvmAddress residual

def clearIfDestructed (t : Flat β γ) (entry : Address × AccountStatus) : Flat β γ :=
  if entry.2 ≠ .deleted then t else t.commit (clearAccountState t.cur.store entry.1)

def settle (residuals clears : List (Address × AccountStatus)) (t : Flat β γ) :
    Outcome (Flat β γ) := do
  let t ← residuals.foldlM (fun t entry => handleResidualFunds k entry t) t
  return clears.foldl clearIfDestructed t

variable {k} {p : Permits} {t t' : Flat β γ}

theorem foldlM_changes {α : Type} {f : α → Flat β γ → Outcome (Flat β γ)} {xs : List α}
    (h : ∀ a ∈ xs, ∀ {t t'}, f a t = .ok t' → Changes k p t t')
    (hrun : xs.foldlM (fun t a => f a t) t = .ok t') : Changes k p t t' :=
  Outcome.foldlM_invariant (I := Changes k p t)
    (fun _ a _ ha hI hs => hI.trans (h a ha hs)) .refl hrun

theorem handleResidualFunds_changes {entry : Address × AccountStatus}
    (h : handleResidualFunds k entry t = .ok t') : Changes k p t t' := by
  unfold handleResidualFunds at h
  split at h
  · cases h; exact .refl
  · obtain ⟨residual, -, h⟩ := bind_eq_ok.mp h
    split at h
    · cases h; exact .refl
    · obtain ⟨t₁, h₁, h⟩ := bind_eq_ok.mp h
      exact (subBalance_changes h₁).trans (addBalance_changes h)

theorem settle_changes {residuals clears : List (Address × AccountStatus)}
    (h : settle k residuals clears t = .ok t') : Changes k p t t' := by
  obtain ⟨t₁, h₁, h⟩ := bind_eq_ok.mp h
  cases h
  refine (foldlM_changes (fun _ _ _ _ => handleResidualFunds_changes) h₁).trans
    (foldl_changes (fun t entry => ?_) clears)
  unfold clearIfDestructed
  split
  · exact .refl
  · exact .single (.keeper _ rfl)

end Flat

namespace DBImpl

theorem simulates_handleResidualFunds (entry : Address × AccountStatus) :
    Simulates Overflow abs (handleResidualFunds k entry) (Flat.handleResidualFunds k entry) := by
  refine .ite (fun _ => Iff.rfl) (.total fun _ => rfl)
    (.read (fun s => congrFun (getBalance_abs k s) entry.1) fun residual => ?_)
  refine .ite (fun _ => Iff.rfl) (.total fun _ => rfl)
    (.bind (simulates_subBalance k entry.1 residual) fun s => ?_)
  exact simulates_addBalance k s.coinbaseEvmAddress residual s

theorem abs_clearIfDestructed (s : DBImpl β γ) (entry : Address × AccountStatus) :
    (s.clearIfDestructed entry).abs = s.abs.clearIfDestructed entry := by
  rw [clearIfDestructed, apply_ite abs, abs_commit, view_eq_abs]
  rfl

theorem simulates_settle (residuals clears : List (Address × AccountStatus)) :
    Simulates Overflow abs (settle k residuals clears) (Flat.settle k residuals clears) :=
  .bind (.foldlM (simulates_handleResidualFunds k) residuals)
    (.total fun s => foldl_abs abs (g := Flat.clearIfDestructed) abs_clearIfDestructed clears s)

variable {k} {p : Permits} {s s' : DBImpl β γ}

theorem settlements_changes
    {ls : List (List (Address × AccountStatus) × List (Address × AccountStatus))}
    (h : ls.foldlM (fun s l => settle k l.1 l.2 s) s = .ok s') : s.abs.Changes k p s'.abs :=
  Flat.foldlM_changes (fun _ _ _ _ => Flat.settle_changes)
    ((Simulates.foldlM (fun l => simulates_settle k l.1 l.2) ls).ok h)

theorem events_abs (s : DBImpl β γ) :
    (s.snapshottedCtxs ++ [s.ctx]).flatMap Ctx.events = s.abs.cur.events := by
  have hflat : ∀ (cs : List (Ctx β γ)) (es : List Event),
      cs.foldl (fun es c => es ++ c.events) es = es ++ cs.flatMap Ctx.events := by
    intro cs
    induction cs with
    | nil => simp
    | cons c cs ih =>
      exact fun es => by rw [List.foldl_cons, ih, List.flatMap_cons, List.append_assoc]
  have hbelow := below_ctx World.events (fun es c => es ++ c.events) (fun _ _ _ => rfl) s
  rw [hflat] at hbelow
  rw [List.flatMap_append, List.flatMap_singleton]
  exact congrArg (· ++ s.ctx.events) hbelow.symm

theorem flush_eq_ok (hne : s.snapshottedCtxs ≠ []) :
    ∃ s', s.flushCtxs.flushEvents = .ok s' ∧ s'.originalStores = s.abs.cur.store ∧
      s'.originalEvents = s.abs.cur.events ∧ s'.err = s.err ∧
      s'.tempStateCurrent = s.tempStateCurrent ∧ s'.tempStatesHist = s.tempStatesHist := by
  obtain ⟨base, rest, hctxs⟩ := List.exists_cons_of_ne_nil hne
  have hview := view_eq_abs s
  have hevents := events_abs s
  obtain ⟨root, ctx, ctxs, ts, hist, err, ca, ce, sim, sup, tr, al⟩ := s
  cases hctxs
  refine ⟨_, rfl, ?_, ?_, rfl, rfl, rfl⟩
  · rw [← hview]
    exact Layers.writeBack_smul root base.dirty ((rest ++ [ctx]).map Ctx.dirty)
  · rw [← hevents]
    show base.events ++ List.flatMap Ctx.events (rest.map (fun c => (⟨1, c.events⟩ : Ctx β γ)) ++
      [(⟨1, ctx.events⟩ : Ctx β γ)]) = _
    simp [List.flatMap_map]

theorem sumSurplus_cases (s : DBImpl β γ) :
    sumSurplus s.tempStateCurrent s.tempStatesHist = .ok s.totalSurplus ∨
      sumSurplus s.tempStateCurrent s.tempStatesHist = .error .integerOverflow := by
  have hsum : ∀ (hist : List TemporaryState) (z : ℤ),
      hist.foldlM (fun surplus ts => SdkInt.add surplus ts.surplus) z =
        .ok ((hist.map (·.surplus)).sum + z) ∨
      hist.foldlM (fun surplus ts => SdkInt.add surplus ts.surplus) z =
        .error .integerOverflow := by
    intro hist
    induction hist with
    | nil => exact fun z => .inl (by simp)
    | cons ts hist ih =>
      intro z
      rw [List.foldlM_cons, SdkInt.add]
      rcases ofBig_cases (z + ts.surplus) with h | ⟨p, hp, h⟩
      · rw [h, Outcome.ok_bind]
        have hadd : ((ts :: hist).map (·.surplus)).sum + z =
            (hist.map (·.surplus)).sum + (z + ts.surplus) := by
          simp only [List.map_cons, List.sum_cons]
          omega
        rw [hadd]
        exact ih (z + ts.surplus)
      · cases hp
        rw [h]
        exact .inr rfl
  exact hsum s.tempStatesHist s.tempStateCurrent.surplus

theorem finalize_settled {order : MapOrder} {r : Except String ℤ} (herr : s.err = none)
    (h : s.finalize k order = .ok (s', r)) :
    ∃ s₁ : DBImpl β γ, (s.settlements order).foldlM (fun s l => settle k l.1 l.2 s) s = .ok s₁ ∧
      s'.err = s₁.err ∧ s'.originalStores = s₁.abs.cur.store ∧ r = .ok s₁.abs.cur.surplus ∧
      getAllLogs s'.tempStateCurrent s'.tempStatesHist = s₁.abs.cur.logs := by
  unfold finalize at h
  split at h
  · cases h
  · rw [herr] at h
    obtain ⟨s₁, h₁, h⟩ := bind_eq_ok.mp h
    obtain ⟨s₂, h₂, h⟩ := bind_eq_ok.mp h
    obtain ⟨z, hz, h⟩ := bind_eq_ok.mp h
    cases h
    have hne : s₁.snapshottedCtxs ≠ [] := by
      intro e
      obtain ⟨root, ctx, ctxs, ts, hist, err, ca, ce, sim, sup, tr, al⟩ := s₁
      cases e
      cases h₂
    obtain ⟨s₃, h₃, hstores, -, hserr, hcur, hhist⟩ := flush_eq_ok hne
    rw [h₂] at h₃
    cases h₃
    refine ⟨s₁, h₁, hserr, hstores, ?_, by rw [hcur, hhist, getAllLogs_abs]⟩
    rw [hcur, hhist] at hz
    rcases sumSurplus_cases s₁ with hs | hs
    · rw [hs] at hz
      cases hz
      rw [totalSurplus_abs]
    · rw [hs] at hz
      cases hz

theorem finalize_cases (p : Permits) {order : MapOrder} {r : Except String ℤ} (herr : s.err = none)
    (h : s.finalize k order = .ok (s', r)) :
    ∃ s₁ : DBImpl β γ, s.abs.Changes k p s₁.abs ∧ s'.err = s₁.err ∧
      s'.originalStores = s₁.abs.cur.store ∧ r = .ok s₁.abs.cur.surplus ∧
      getAllLogs s'.tempStateCurrent s'.tempStatesHist = s₁.abs.cur.logs := by
  obtain ⟨s₁, h₁, hrest⟩ := finalize_settled herr h
  exact ⟨s₁, settlements_changes h₁, hrest⟩

end DBImpl

end Tabi.StateDB
