import Tabi.StateDB.Bank
import Tabi.StateDB.Finalize

/-!
# StateDB — snapshots and reverts

What the EVM relies on when a call frame fails.
-/

namespace Tabi.StateDB

open Support

variable {β γ : Type} {k : Keepers β γ}

namespace Flat

variable {p : Permits} {t t' : Flat β γ}

def frame (t : Flat β γ) : AccAddress × Address × Bool × Bool :=
  (t.coinbaseAddress, t.coinbaseEvmAddress, t.simulation, t.isTracing)

theorem Change.saved_frame (h : Change k p t t') : t'.saved = t.saved ∧ t'.frame = t.frame := by
  cases h with
  | debit _ h | credit _ h =>
    rcases moveBalance_cases h with ⟨e, rfl⟩ | ⟨r, e, rfl⟩ | ⟨_, _, r, r', -, -, -, rfl⟩ <;>
      exact ⟨rfl, rfl⟩
  | _ => exact ⟨rfl, rfl⟩

theorem Changes.saved_frame (h : Changes k p t t') : t'.saved = t.saved ∧ t'.frame = t.frame := by
  induction h with
  | refl => exact ⟨rfl, rfl⟩
  | tail _ hstep ih =>
    obtain ⟨hs, hf⟩ := hstep.saved_frame
    exact ⟨hs.trans ih.1, hf.trans ih.2⟩

theorem revertToSnapshot_eq_ok {rev : Nat} (h : t.revertToSnapshot rev = .ok t') :
    ∃ w, t.saved[rev]? = some w ∧ t' = { t with cur := w, saved := t.saved.take (rev + 1) } := by
  unfold revertToSnapshot at h
  split at h
  · rename_i w hw
    cases h
    exact ⟨w, hw, rfl⟩
  · cases h

theorem revertToSnapshot_of_copy {rev : Nat} {w : World β γ} (hw : t.saved[rev]? = some w) :
    t.revertToSnapshot rev = .ok { t with cur := w, saved := t.saved.take (rev + 1) } := by
  rw [revertToSnapshot, hw]

structure Live (n : Nat) (t t' : Flat β γ) : Prop where
  le : n ≤ t'.saved.length
  saved : t'.saved.take n = t.saved.take n
  frame : t'.frame = t.frame

theorem step_live {n : Nat} {t₀ : Flat β γ} {op : Op β γ}
    (hop : ∀ rev, op = .revertToSnapshot rev → n ≤ rev + 1) (hlive : Live n t₀ t)
    (h : step k op t = .ok t') : Live n t₀ t' := by
  rcases step_cases h with ⟨rev, rfl, h⟩ | h | h
  · obtain ⟨w, hw, rfl⟩ := revertToSnapshot_eq_ok h
    have hrev := hop rev rfl
    have hlt := (List.getElem?_eq_some_iff.mp hw).1
    refine ⟨?_, ?_, hlive.frame⟩
    · rw [List.length_take]
      omega
    · rw [List.take_take, Nat.min_eq_left hrev]
      exact hlive.saved
  · obtain ⟨hs, hf⟩ := h.saved_frame
    exact ⟨hs ▸ hlive.le, hs ▸ hlive.saved, hf.trans hlive.frame⟩
  · obtain ⟨hs, hf⟩ := h.saved_frame
    refine ⟨?_, ?_, hf.trans hlive.frame⟩
    · rw [hs]
      exact hlive.le.trans (by simp [snapshot])
    · rw [hs]
      exact (List.take_append_of_le_length hlive.le).trans hlive.saved

theorem run_live {n : Nat} {ops : List (Op β γ)} (hn : n ≤ t.saved.length)
    (hops : ∀ rev, .revertToSnapshot rev ∈ ops → n ≤ rev + 1) (h : run k ops t = .ok t') :
    Live n t t' :=
  Outcome.foldlM_invariant (I := Live n t)
    (fun _ _ _ hop hI hs => step_live (fun rev e => hops rev (e ▸ hop)) hI hs) ⟨hn, rfl, rfl⟩ h

theorem Live.revert {rev : Nat} (h : Live (rev + 1) t t') {w : World β γ}
    (hw : t.saved[rev]? = some w) :
    t'.revertToSnapshot rev = .ok { t' with cur := w, saved := t.saved.take (rev + 1) } := by
  have hget : t'.saved[rev]? = some w := by
    have := congrArg (·[rev]?) h.saved
    simpa [List.getElem?_take_of_lt, hw] using this
  rw [revertToSnapshot_of_copy hget, h.saved]

theorem observe_congr (hcur : t'.cur = t.cur) (hframe : t'.frame = t.frame) :
    t'.observe k = t.observe k := by
  obtain ⟨cur, saved, err, ca, ce, sim, sup, tr⟩ := t
  obtain ⟨cur', saved', err', ca', ce', sim', sup', tr'⟩ := t'
  cases hcur
  cases hframe
  rfl

theorem changes_everywhere {P : World β γ → Prop}
    (hP : ∀ {t t'}, Change k p t t' → P t.cur → P t'.cur) (h : Changes k p t t')
    (hall : ∀ w ∈ t.cur :: t.saved, P w) : ∀ w ∈ t'.cur :: t'.saved, P w := by
  rw [List.forall_mem_cons] at hall ⊢
  refine ⟨?_, h.saved_frame.1 ▸ hall.2⟩
  induction h with
  | refl => exact hall.1
  | tail _ hstep ih => exact hP hstep ih

theorem step_everywhere {P : World β γ → Prop} {op : Op β γ}
    (hP : ∀ {t t'}, Change k op.permits t t' → P t.cur → P t'.cur)
    (hall : ∀ w ∈ t.cur :: t.saved, P w) (h : step k op t = .ok t') :
    ∀ w ∈ t'.cur :: t'.saved, P w := by
  rcases step_cases h with ⟨rev, -, h⟩ | h | h
  · obtain ⟨w, hw, rfl⟩ := revertToSnapshot_eq_ok h
    intro w' hw'
    rcases List.mem_cons.mp hw' with rfl | hw'
    · exact hall _ (List.mem_cons_of_mem _ (List.mem_of_getElem? hw))
    · exact hall w' (List.mem_cons_of_mem _ (List.mem_of_mem_take hw'))
  · exact changes_everywhere hP h hall
  · refine changes_everywhere hP h fun w hw => hall w ?_
    simp only [snapshot, List.mem_cons, List.mem_append, List.not_mem_nil, or_false] at hw ⊢
    tauto

end Flat

def World.Undestroyed (w : World β γ) : Prop := ∀ a, w.status a ≠ some .deleted

namespace Flat

variable {p : Permits} {t t' : Flat β γ}

theorem Change.undestroyed (hp : p.destruct = false) (h : Change k p t t')
    (hw : t.cur.Undestroyed) : t'.cur.Undestroyed := by
  cases h with
  | debit _ h | credit _ h =>
    rcases moveBalance_cases h with ⟨e, rfl⟩ | ⟨r, e, rfl⟩ | ⟨_, _, r, r', -, -, -, rfl⟩ <;>
      exact hw
  | memory w _ hstatus _ _ =>
    intro a
    rw [hstatus]
    exact hw a
  | mark a status h =>
    intro b
    have hne : status ≠ .deleted := fun e => by rw [h e] at hp; cases hp
    simp only [markAccount]
    split
    · exact fun e => hne (Option.some.inj e)
    · exact hw b
  | _ => exact hw

def Undestroyed (t : Flat β γ) : Prop := ∀ w ∈ t.cur :: t.saved, w.Undestroyed

theorem step_undestroyed {op : Op β γ} (hop : op.destructs = false) (hall : t.Undestroyed)
    (h : step k op t = .ok t') : t'.Undestroyed :=
  step_everywhere (fun hchange => hchange.undestroyed hop) hall h

theorem run_undestroyed {ops : List (Op β γ)} (hops : ∀ op ∈ ops, op.destructs = false)
    (hall : t.Undestroyed) (h : run k ops t = .ok t') : t'.Undestroyed :=
  Outcome.foldlM_invariant (fun _ op _ hop hI hs => step_undestroyed (hops op hop) hI hs) hall h

end Flat

namespace DBImpl

variable {s s' : DBImpl β γ}

theorem accounts_of_undestroyed (h : s.abs.Undestroyed) :
    ∀ ts ∈ s.tempStateCurrent :: s.tempStatesHist, ∀ e ∈ ts.accounts, e.2 ≠ .deleted := by
  have top : ∀ {w : World β γ} {c : Ctx β γ} {ts : TemporaryState},
      (w.extend c ts).Undestroyed → ∀ e ∈ ts.accounts, e.2 ≠ .deleted := by
    intro w c ts hw e he hdel
    obtain ⟨⟨a, status⟩, hmem, rfl⟩ := List.mem_map.mp he
    have hlook : ts.transientAccounts.lookup a = some status := AList.mem_lookup_iff.mpr hmem
    refine hw a ?_
    show (ts.transientAccounts.lookup a).or _ = _
    rw [hlook]
    exact congrArg some hdel
  intro ts hts
  rcases List.mem_cons.mp hts with rfl | hts
  · exact top (h _ List.mem_cons_self)
  · obtain ⟨i, hi, rfl⟩ := List.getElem_of_mem hts
    have hi' : i < s.snapshottedCtxs.length := s.aligned ▸ hi
    have hlen : i < s.history.length := by simp [history, hi, hi']
    have hsaved : s.abs.saved[i]? = some _ := (getElem?_saved s i).trans (if_pos hi')
    have hw := h _ (List.mem_cons_of_mem _ (List.mem_of_getElem? hsaved))
    rw [List.take_add_one, List.getElem?_eq_getElem hlen, World.stack, List.foldl_append] at hw
    have hget : s.history[i] = (s.snapshottedCtxs[i], s.tempStatesHist[i]) := List.getElem_zip
    rw [hget] at hw
    exact top hw

theorem settle_eq_ok {residuals clears : List (Address × AccountStatus)}
    (hr : ∀ e ∈ residuals, e.2 ≠ .deleted) (hc : ∀ e ∈ clears, e.2 ≠ .deleted) :
    settle k residuals clears s = .ok s := by
  have hres : residuals.foldlM (fun s entry => handleResidualFunds k entry s) s = .ok s := by
    clear hc
    induction residuals with
    | nil => rfl
    | cons e es ih =>
      rw [List.foldlM_cons, handleResidualFunds, if_pos (hr e List.mem_cons_self)]
      exact ih fun e' he' => hr e' (List.mem_cons_of_mem _ he')
  have hclr : clears.foldl (fun s entry => clearIfDestructed entry s) s = s := by
    clear hr hres
    induction clears with
    | nil => rfl
    | cons e es ih =>
      rw [List.foldl_cons, clearIfDestructed, if_pos (hc e List.mem_cons_self)]
      exact ih fun e' he' => hc e' (List.mem_cons_of_mem _ he')
  rw [settle, hres, Outcome.ok_bind, hclr]
  rfl

theorem settlements_eq_ok (h : s.abs.Undestroyed) (order : MapOrder) :
    (s.settlements order).foldlM (fun s l => settle k l.1 l.2 s) s = .ok s := by
  have hmem : ∀ l ∈ s.settlements order,
      (∀ e ∈ l.1, e.2 ≠ .deleted) ∧ ∀ e ∈ l.2, e.2 ≠ .deleted := by
    intro l hl
    obtain ⟨i, hi, rfl⟩ := List.mem_mapIdx.mp hl
    have := accounts_of_undestroyed h _ (List.getElem_mem hi)
    exact ⟨fun e he => this e ((order.perm _ _).mem_iff.mp he),
      fun e he => this e ((order.perm _ _).mem_iff.mp he)⟩
  generalize s.settlements order = ls at hmem
  induction ls with
  | nil => rfl
  | cons l ls ih =>
    obtain ⟨h₁, h₂⟩ := hmem l List.mem_cons_self
    rw [List.foldlM_cons, settle_eq_ok h₁ h₂]
    exact ih fun l' hl' => hmem l' (List.mem_cons_of_mem _ hl')

theorem length_saved (s : DBImpl β γ) : s.abs.saved.length = s.snapshottedCtxs.length := by
  simp [abs, history, s.aligned]

theorem revertToSnapshot_of_abs {rev : Nat} {t : Flat β γ}
    (h : s.abs.revertToSnapshot rev = .ok t) :
    ∃ s', s.revertToSnapshot rev = .ok s' ∧ s'.abs = t := by
  rcases simulates_revertToSnapshot (fun _ => False) rev s with e | ⟨_, hf, -⟩
  · dsimp only at e
    rw [h] at e
    cases hs : s.revertToSnapshot rev with
    | error p => rw [hs] at e; cases e
    | ok s' =>
      rw [hs] at e
      exact ⟨s', rfl, Except.ok.inj e⟩
  · exact hf.elim

variable {ops : List (Op β γ)}

theorem run_ne_nil (hne : s.snapshottedCtxs ≠ []) (h : run k ops s = .ok s') :
    s'.snapshottedCtxs ≠ [] := by
  have hlen : 1 ≤ s.abs.saved.length := by
    rw [length_saved]
    exact List.length_pos_iff.mpr hne
  have hlive := Flat.run_live hlen (fun rev _ => by omega) ((run_simulates k ops).ok h)
  have := hlive.le
  rw [length_saved] at this
  exact List.length_pos_iff.mp this

theorem newDBImpl_ne_nil (k : Keepers β γ) (root : Stores β γ) (ctx : Ctx β γ) (txIndex : UInt64)
    (isTracing simulation : Bool) :
    (newDBImpl k root ctx txIndex isTracing simulation).snapshottedCtxs ≠ [] := by
  simp [newDBImpl, snapshot]

theorem observe_congr (hcur : s'.abs.cur = s.abs.cur) (hframe : s'.abs.frame = s.abs.frame) :
    s'.observe k = s.observe k := by
  rw [observe_abs, observe_abs]
  exact Flat.observe_congr hcur hframe

theorem revert_restores (hops : ∀ rev, .revertToSnapshot rev ∈ ops → s.snapshot.2 ≤ rev)
    (h : run k ops s.snapshot.1 = .ok s') :
    ∃ s'', s'.revertToSnapshot s.snapshot.2 = .ok s'' ∧ s''.abs.cur = s.abs.cur ∧
      s''.abs.saved = s.snapshot.1.abs.saved ∧ s''.abs.frame = s.abs.frame := by
  have hid : s.snapshot.2 = s.abs.saved.length := by simp [snapshot, length_saved]
  have hrun := (run_simulates k ops).ok h
  rw [abs_snapshot] at hrun
  have hlive := Flat.run_live (n := s.snapshot.2 + 1) (by simp [Flat.snapshot, hid])
    (fun rev hrev => Nat.succ_le_succ (hops rev hrev)) hrun
  have hcopy : s.abs.snapshot.saved[s.snapshot.2]? = some s.abs.cur := by
    simp [Flat.snapshot, hid]
  obtain ⟨s'', hs'', habs⟩ := revertToSnapshot_of_abs (hlive.revert hcopy)
  refine ⟨s'', hs'', by rw [habs], ?_, ?_⟩
  · rw [habs, abs_snapshot, hid]
    exact List.take_of_length_le (by simp [Flat.snapshot])
  · rw [habs]
    exact hlive.frame

theorem revert_congr (hsaved : s'.abs.saved = s.abs.saved) (hframe : s'.abs.frame = s.abs.frame)
    {rev : Nat} (hrev : rev < s.snapshottedCtxs.length) :
    ∃ s₁ s₁', s.revertToSnapshot rev = .ok s₁ ∧ s'.revertToSnapshot rev = .ok s₁' ∧
      s₁'.observe k = s₁.observe k := by
  obtain ⟨w, hcopy⟩ : ∃ w, s.abs.saved[rev]? = some w :=
    ⟨_, List.getElem?_eq_getElem (length_saved s ▸ hrev)⟩
  have hcopy' : s'.abs.saved[rev]? = some w := by rw [hsaved, hcopy]
  obtain ⟨s₁, h₁, e₁⟩ := revertToSnapshot_of_abs (Flat.revertToSnapshot_of_copy hcopy)
  obtain ⟨s₁', h₁', e₁'⟩ := revertToSnapshot_of_abs (Flat.revertToSnapshot_of_copy hcopy')
  refine ⟨s₁, s₁', h₁, h₁', observe_congr ?_ ?_⟩
  · rw [e₁, e₁']
  · rw [e₁, e₁']
    exact hframe

theorem finalize_undestroyed (hsim : s.simulation = false) (herr : s.err = none)
    (hne : s.snapshottedCtxs ≠ []) (h : s.abs.Undestroyed) (order : MapOrder) :
    ∃ s', s'.originalStores = s.view ∧ s'.originalEvents = s.abs.cur.events ∧
      (s.finalize k order = .ok (s', .ok s.totalSurplus) ∨
        s.finalize k order = .error .integerOverflow) := by
  obtain ⟨s', hflush, hstores, hevents, -, hcur, hhist⟩ := flush_eq_ok hne
  refine ⟨s', hstores.trans (view_eq_abs s).symm, hevents, ?_⟩
  have hfin : s.finalize k order =
      (sumSurplus s.tempStateCurrent s.tempStatesHist).map fun z => (s', .ok z) := by
    rw [finalize, hsim, herr]
    simp only [Bool.false_eq_true, if_false]
    rw [settlements_eq_ok h, Outcome.ok_bind, hflush, Outcome.ok_bind, hcur, hhist]
    rfl
  rw [hfin]
  rcases sumSurplus_cases s with e | e
  · exact .inl (by rw [e]; rfl)
  · exact .inr (by rw [e]; rfl)

theorem finalize_run {root : Stores β γ} {ctx : Ctx β γ} {txIndex : UInt64}
    {isTracing simulation : Bool}
    (hrun : run k ops (.newDBImpl k root ctx txIndex isTracing simulation) = .ok s)
    (hsim : simulation = false) (herr : s.err = none) (hops : ∀ op ∈ ops, op.destructs = false)
    (order : MapOrder) :
    ∃ s', s'.originalStores = s.view ∧ s'.originalEvents = s.abs.cur.events ∧
      (s.finalize k order = .ok (s', .ok s.totalSurplus) ∨
        s.finalize k order = .error .integerOverflow) := by
  have hflat := (run_simulates k ops).ok hrun
  have hlive := Flat.run_live (Nat.zero_le _) (fun _ _ => Nat.zero_le _) hflat
  have hsim' : s.simulation = false := (congrArg (fun f => f.2.2.1) hlive.frame).trans hsim
  have hstart : Flat.Undestroyed (newDBImpl k root ctx txIndex isTracing simulation).abs := by
    rw [abs_newDBImpl]
    intro w hw
    have : w = .start (ctx.dirty • root) ctx.events := by simpa [Flat.new] using hw
    subst this
    exact fun _ => nofun
  exact finalize_undestroyed hsim' herr (run_ne_nil (newDBImpl_ne_nil _ _ _ _ _ _) hrun)
    (Flat.run_undestroyed hops hstart hflat) order

end DBImpl

/-- **Snapshot refinement.**  Over every database `NewDBImpl` opens:

* every run does what the flat database with full copies does, up to an overflow of a surplus,
  and every observation is the flat one;
* no slot lookup and no lookup of committed state goes out of range;
* a revert to a live id restores every observation to what it was when the id was returned, and
  every id up to it stays valid and restores what it did;
* `Finalize` after a run without self-destructs, of a database that is not a simulation and has no
  error recorded, leaves in the original context the final stores and the surviving events in
  the order of emission. -/
theorem snapshot_refinement (k : Keepers β γ) (root : Stores β γ) (ctx : Ctx β γ) (txIndex : UInt64)
    (isTracing simulation : Bool) :
    (∀ ops, (DBImpl.run k ops (.newDBImpl k root ctx txIndex isTracing simulation)).map
          DBImpl.abs = Flat.run k ops (.new k root ctx txIndex isTracing simulation) ∨
        DBImpl.run k ops (.newDBImpl k root ctx txIndex isTracing simulation) =
          .error .integerOverflow) ∧
    (∀ s : DBImpl β γ, s.observe k = s.abs.observe k) ∧
    ∀ ops s, DBImpl.run k ops (.newDBImpl k root ctx txIndex isTracing simulation) = .ok s →
      (∀ a h, ∃ r, (s.observe k).slotInAccessList a h = .ok r) ∧
      (∀ a h, ∃ v, s.getCommittedState a h = .ok v) ∧
      (∀ ops' s', (∀ rev, .revertToSnapshot rev ∈ ops' → s.snapshot.2 ≤ rev) →
        DBImpl.run k ops' s.snapshot.1 = .ok s' →
        ∃ s'', s'.revertToSnapshot s.snapshot.2 = .ok s'' ∧ s''.observe k = s.observe k ∧
          ∀ rev ≤ s.snapshot.2, ∃ s₁ s₂, s.snapshot.1.revertToSnapshot rev = .ok s₁ ∧
            s''.revertToSnapshot rev = .ok s₂ ∧ s₂.observe k = s₁.observe k) ∧
      (simulation = false → s.err = none → (∀ op ∈ ops, op.destructs = false) → ∀ order,
        ∃ s', s'.originalStores = s.view ∧ s'.originalEvents = s.abs.cur.events ∧
          (s.finalize k order = .ok (s', .ok s.totalSurplus) ∨
            s.finalize k order = .error .integerOverflow)) := by
  have habs := DBImpl.abs_newDBImpl k root ctx txIndex isTracing simulation
  refine ⟨fun ops => ?_, fun s => DBImpl.observe_abs k s, fun ops s hrun => ⟨?_, ?_, ?_, ?_⟩⟩
  · rw [← habs]
    rcases DBImpl.run_simulates k ops (.newDBImpl k root ctx txIndex isTracing simulation) with
      h | ⟨p, rfl, h⟩
    · exact .inl h
    · exact .inr h
  · exact fun a h => ⟨_, DBImpl.slotInAccessList_abs s a h⟩
  · obtain ⟨base, rest, hctxs⟩ := List.exists_cons_of_ne_nil
      (DBImpl.run_ne_nil (DBImpl.newDBImpl_ne_nil _ _ _ _ _ _) hrun)
    exact fun a h => ⟨_, by rw [DBImpl.getCommittedState, hctxs]⟩
  · intro ops' s' hops' hrun'
    obtain ⟨s'', hs'', hcur, hsaved, hframe⟩ := DBImpl.revert_restores hops' hrun'
    refine ⟨s'', hs'', DBImpl.observe_congr hcur hframe, fun rev hrev => ?_⟩
    refine DBImpl.revert_congr hsaved ?_ (by simp [DBImpl.snapshot] at hrev ⊢; omega)
    rw [hframe, DBImpl.abs_snapshot]
    rfl
  · exact fun hsim herr hops order => DBImpl.finalize_run hrun hsim herr hops order

def revertedCall : List (Op AccAddress ℤ) :=
  [.setNonce alice 1, .snapshot, .transferWithoutEvents alice bob 7,
    .addSlotToAccessList bob emptyHash, .addLog ⟨bob, [], [], 0⟩, .revertToSnapshot 1,
    .addBalance bob 1]

theorem snapshot_refinement_revertedCall :
    ∃ s s',
      DBImpl.run (ledgerKeepers twoUsers) revertedCall
        (.newDBImpl (ledgerKeepers twoUsers) aliceRich ⟨1, []⟩ 0 false false) = .ok s ∧
      s.err = none ∧
      s.finalize (ledgerKeepers twoUsers) entryOrder = .ok (s', .ok (-1)) ∧
      s'.originalStores = s.view := by
  have hops : ∀ op ∈ revertedCall, op.destructs = false := by
    simp [revertedCall, Op.destructs, Op.permits]
  obtain ⟨s, s', hrun, herr, hfin⟩ : ∃ s s',
      DBImpl.run (ledgerKeepers twoUsers) revertedCall
        (.newDBImpl (ledgerKeepers twoUsers) aliceRich ⟨1, []⟩ 0 false false) = .ok s ∧
      s.err = none ∧
      s.finalize (ledgerKeepers twoUsers) entryOrder = .ok (s', .ok (-1)) :=
    ⟨_, _, rfl, rfl, rfl⟩
  obtain ⟨-, -, hreach⟩ :=
    snapshot_refinement (ledgerKeepers twoUsers) aliceRich ⟨1, []⟩ 0 false false
  obtain ⟨-, -, -, hfinal⟩ := hreach revertedCall s hrun
  obtain ⟨s'', hstores, -, h | h⟩ := hfinal rfl herr hops entryOrder
  · rw [hfin] at h
    have hs : s' = s'' := (Prod.mk.inj (Except.ok.inj h)).1
    exact ⟨s, s', hrun, herr, hfin, hs ▸ hstores⟩
  · rw [hfin] at h
    cases h

def failedDebit : List (Op AccAddress ℤ) := [.setNonce alice 1, .subBalance bob 5]

/-- A run without self-destructs that `Finalize` does not write back: the bank refused a debit,
the error was recorded, and `Finalize` returns it before it writes anything. -/
theorem finalize_failedDebit :
    ∃ s s',
      DBImpl.run (ledgerKeepers twoUsers) failedDebit
        (.newDBImpl (ledgerKeepers twoUsers) aliceRich ⟨1, []⟩ 0 false false) = .ok s ∧
      (∀ op ∈ failedDebit, op.destructs = false) ∧
      s.finalize (ledgerKeepers twoUsers) entryOrder = .ok (s', .error "insufficient funds") ∧
      getNonce s.view alice = 1 ∧ getNonce s'.originalStores alice = 0 :=
  ⟨_, _, rfl, by simp [failedDebit, Op.destructs, Op.permits], rfl, rfl, rfl⟩

end Tabi.StateDB
