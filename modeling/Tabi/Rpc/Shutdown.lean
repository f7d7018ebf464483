import Tabi.Rpc.WorkerPool

/-!
# Rpc — shutdown

What holds when the worker pool is closed while calls of `Submit` are in progress
(`evmrpc/worker_pool.go`).
-/

namespace Tabi.Rpc.WorkerPool

open Support

variable {ι : Type} {n : Nat} [DecidableEq ι] {s s' : WorkerPool ι n} {a : Actor ι n}

def Entered (σ : List (Actor ι n)) (i : ι) : Prop :=
  ∃ p₁ p₂, σ = p₁ ++ .submit i :: p₂ ∧ .submit i ∉ p₁ ∧ .submit i ∉ p₂ ∧ .close ∉ p₁

/-- **The call is late**: it asked before `Close` began, and makes its select after the third step
of `Close`, which closes the queue. -/
def Late (σ : List (Actor ι n)) (i : ι) : Prop :=
  ∃ p₁ p₂ q, σ = p₁ ++ .submit i :: (p₂ ++ .submit i :: q) ∧ .submit i ∉ p₁ ∧ .submit i ∉ p₂ ∧
    .close ∉ p₁ ∧ 3 ≤ p₂.count .close

def Past (σ : List (Actor ι n)) (i : ι) : SubmitState → Prop
  | .start => .submit i ∉ σ
  | .passed => Entered σ i
  | .returned _ => .submit i ∈ σ
  | .panicked => Late σ i

/-- The steps of `Close` so far, up to the one that closes the queue. -/
def closeSteps : CloseState → Nat
  | .start => 0
  | .flagged => 1
  | .doneClosed => 2
  | .waiting | .returned => 3

structure History (σ : List (Actor ι n)) (s : WorkerPool ι n) : Prop where
  past : ∀ i, Past σ i (s.submits i)
  steps : closeSteps s.close = min (σ.count .close) 3
  queue : s.taskQueue.closed = decide (3 ≤ σ.count .close)

variable {σ : List (Actor ι n)} {i : ι}

theorem Entered.count (h : Entered σ i) : σ.count (.submit i) = 1 := by
  obtain ⟨p₁, p₂, rfl, h₁, h₂, -⟩ := h
  simp [List.count_eq_zero_of_not_mem h₁, List.count_eq_zero_of_not_mem h₂]

theorem Late.mem (h : Late σ i) : .submit i ∈ σ := by
  obtain ⟨p₁, p₂, q, rfl, -⟩ := h
  simp

theorem Late.snoc (h : Late σ i) (a : Actor ι n) : Late (σ ++ [a]) i := by
  obtain ⟨p₁, p₂, q, rfl, h⟩ := h
  exact ⟨p₁, p₂, q ++ [a], by simp, h⟩

theorem Entered.late (h : Entered σ i) (hc : 3 ≤ σ.count .close) : Late (σ ++ [.submit i]) i := by
  obtain ⟨p₁, p₂, rfl, h₁, h₂, h₃⟩ := h
  refine ⟨p₁, p₂, [], by simp, h₁, h₂, h₃, ?_⟩
  simpa [List.count_eq_zero_of_not_mem h₃] using hc

theorem Past.snoc {r : SubmitState} (h : Past σ i r) (ha : a ≠ .submit i) :
    Past (σ ++ [a]) i r := by
  cases r with
  | start => simpa [Past, ha.symm] using h
  | passed =>
    obtain ⟨p₁, p₂, rfl, h₁, h₂, h₃⟩ := h
    exact ⟨p₁, p₂ ++ [a], by simp, h₁, by simpa [ha.symm] using h₂, h₃⟩
  | returned err => exact List.mem_append_left _ h
  | panicked => exact Late.snoc h a

theorem History.started (queueSize : Nat) :
    History [] (started queueSize : WorkerPool ι n) where
  past _ := List.not_mem_nil
  steps := rfl
  queue := rfl

theorem Moves.submits_of_ne (hm : Moves s a s') (ha : a ≠ .submit i) :
    s'.submits i = s.submits i := by
  cases hm with
  | answered | already | flag | closeDone | closeQueue | join | wait | take | exit | park | finish
  | rest => rfl
  | @refuse j | @pass j | @panic j | @buffer j | @hand j =>
    have e : i ≠ j := fun e => ha (by rw [e])
    exact Function.update_of_ne e _ _

theorem submits_setSubmit (s : WorkerPool ι n) (i : ι) (r : SubmitState) :
    (s.setSubmit i r).submits i = r := Function.update_self ..

theorem History.past_step (h : History σ s) (hI : Inv s) (hm : Moves s a s') (i : ι) :
    Past (σ ++ [a]) i (s'.submits i) := by
  have hpast := h.past i
  by_cases ha : a = .submit i
  · subst ha
    have hmem : Actor.submit i ∈ σ ++ [.submit i] := by simp
    cases hm with
    | refuse | buffer | hand => simp [setSubmit, setWorker, Past]
    | pass hs hc =>
      rw [submits_setSubmit]
      rw [hs] at hpast
      have hsteps := h.steps
      rw [hI.flagged.mp hc] at hsteps
      refine ⟨σ, [], rfl, hpast, List.not_mem_nil, List.count_eq_zero.mp ?_⟩
      simp only [closeSteps] at hsteps
      omega
    | panic hs hc =>
      rw [submits_setSubmit]
      rw [hs] at hpast
      exact hpast.late (of_decide_eq_true (h.queue ▸ hc))
    | answered hs hp =>
      cases e : s.submits i with
      | start => exact absurd e hs
      | passed => exact absurd e hp
      | returned err => exact hmem
      | panicked =>
        rw [e] at hpast
        exact Late.snoc hpast _
  · rw [hm.submits_of_ne ha]
    exact hpast.snoc ha

theorem Moves.close_of_ne (hm : Moves s a s') (ha : a ≠ .close) :
    s'.close = s.close ∧ s'.taskQueue.closed = s.taskQueue.closed := by
  cases hm with
  | already | flag | closeDone | closeQueue | join | wait => exact absurd rfl ha
  | refuse | pass | panic | buffer | hand | answered | take | exit | park | finish | rest =>
    exact ⟨rfl, rfl⟩

theorem History.close_step (h : History σ s) (hI : Inv s) (hm : Moves s a s') :
    closeSteps s'.close = min ((σ ++ [a]).count .close) 3 ∧
      s'.taskQueue.closed = decide (3 ≤ (σ ++ [a]).count .close) := by
  have hsteps := h.steps
  have hqueue := h.queue
  by_cases ha : a = .close
  · subst ha
    rw [List.count_append, List.count_singleton_self]
    cases hm with
    | already hs hc => exact absurd (hI.flagged.mpr hs) (by simp [hc])
    | flag hs | closeDone hs | closeQueue hs | join hs =>
      simp only [hs, closeSteps] at hsteps
      simp only [hqueue, Chan.close, closeSteps]
      exact ⟨by omega, by simp; omega⟩
    | wait hs =>
      have h3 : closeSteps s.close = 3 := by rcases hs with e | e <;> rw [e] <;> rfl
      rw [h3] at hsteps ⊢
      rw [hqueue]
      exact ⟨by omega, by simp; omega⟩
  · obtain ⟨hclose, hclosed⟩ := hm.close_of_ne ha
    simp [hclose, hclosed, hsteps, hqueue, ha]

variable {queueSize : Nat}

theorem reachable_history (h : Trace Step (started queueSize) σ s) : History σ s := by
  induction h with
  | nil => exact .started queueSize
  | snoc ht hs ih =>
    have hI := reachable_inv ht
    exact ⟨ih.past_step hI hs.moves, (ih.close_step hI hs.moves).1,
      (ih.close_step hI hs.moves).2⟩

/-- **The shutdown is safe** at the end of an interleaving: a call that has had its two steps has
returned and none panicked; once `Close` has returned, the tasks of the calls that returned nil
have been run, once; and no other task is run or will be. -/
structure Safe (σ : List (Actor ι n)) (s : WorkerPool ι n) : Prop where
  returns : ∀ i, 2 ≤ σ.count (.submit i) → ∃ err, s.submits i = .returned err
  noPanic : ∀ i, s.submits i ≠ .panicked
  ranOnce : ∀ i, s.close = .returned → s.submits i = .returned none → s.ran.count i = 1
  atMostOnce : ∀ i, s.held i ≤ 1
  refused : ∀ i, s.submits i ≠ .returned none → s.held i = 0

theorem Inv.held_eq_of_exited (h : Inv s) (hn : 0 < n) (hw : ∀ w, s.workers w = .exited) (i : ι) :
    s.held i = s.ran.count i := by
  have hbuf := (h.drained ⟨0, hn⟩ (hw _)).2
  simp [WorkerPool.held, hbuf, inHand, hw]

theorem safe_of_noPanic (hn : 0 < n) (h : Trace Step (started queueSize) σ s)
    (hp : ∀ i, s.submits i ≠ .panicked) : Safe σ s where
  returns i hi := by
    have hpast := (reachable_history h).past i
    cases e : s.submits i with
    | start =>
      rw [e] at hpast
      rw [List.count_eq_zero_of_not_mem hpast] at hi
      cases hi
    | passed =>
      rw [e] at hpast
      rw [hpast.count] at hi
      exact absurd hi (by simp)
    | returned err => exact ⟨err, rfl⟩
    | panicked => exact absurd e (hp i)
  noPanic := hp
  ranOnce i hc hs := by
    have hI := reachable_inv h
    rw [← hI.held_eq_of_exited hn (hI.joined hc), hI.held i, if_pos hs]
  atMostOnce i := by
    rw [(reachable_inv h).held i]
    split_ifs <;> simp
  refused i hs := by rw [(reachable_inv h).held i, if_neg hs]

theorem step_panics (hs : s.submits i = .passed) (hc : s.taskQueue.closed = true) :
    Step s (.submit i) (s.setSubmit i .panicked) :=
  ⟨true, by simp [step, submit, hs, select, Chan.trySend_of_closed hc, Chan.Send.isFull]⟩

theorem Moves.panicked (hm : Moves s a s') (hs : s.submits i = .panicked) :
    s'.submits i = .panicked := by
  by_cases ha : a = .submit i
  · subst ha
    cases hm with
    | refuse h => exact absurd h (by simp [hs])
    | pass h | panic h | buffer h | hand h => exact absurd h (by simp [hs])
    | answered => exact hs
  · rw [hm.submits_of_ne ha, hs]

theorem exists_trace {s₀ s : WorkerPool ι n} (h : Trace Step s₀ σ s) (τ : List (Actor ι n)) :
    ∃ s', Trace Step s₀ (σ ++ τ) s' ∧
      ∀ i, .submit i ∉ τ ∨ s.submits i = .panicked → s'.submits i = s.submits i := by
  induction τ generalizing σ s with
  | nil => exact ⟨s, by simpa using h, fun _ _ => rfl⟩
  | cons a τ ih =>
    have hstep : Step s a (s.step true a) := ⟨true, rfl⟩
    obtain ⟨s', h', hstay⟩ := ih (h.snoc hstep)
    refine ⟨s', by simpa using h', fun i hi => ?_⟩
    rcases hi with hi | hi
    · rw [List.mem_cons, not_or] at hi
      rw [hstay i (.inl hi.2), hstep.moves.submits_of_ne (Ne.symm hi.1)]
    · have hp := hstep.moves.panicked hi
      rw [hstay i (.inr hp), hp, hi]

theorem History.start_of_not_mem (h : History σ s) (hi : .submit i ∉ σ) : s.submits i = .start := by
  have hpast := h.past i
  cases e : s.submits i with
  | start => rfl
  | passed =>
    rw [e] at hpast
    exact absurd (List.count_pos_iff.mp (hpast.count ▸ Nat.one_pos)) hi
  | returned err => rw [e] at hpast; exact absurd hpast hi
  | panicked => rw [e] at hpast; exact absurd hpast.mem hi

theorem History.open_of_not_mem (h : History σ s) (hI : Inv s) (hc : .close ∉ σ) :
    s.closed = false := by
  have hsteps := h.steps
  rw [List.count_eq_zero_of_not_mem hc] at hsteps
  rw [hI.flagged]
  cases e : s.close <;> simp_all [closeSteps]

theorem Late.exists_panicked (queueSize : Nat) (h : Late σ i) :
    ∃ s, Trace Step (started queueSize) σ s ∧ s.submits i = .panicked := by
  obtain ⟨p₁, p₂, q, rfl, h₁, h₂, h₃, hcount⟩ := h
  obtain ⟨s₁, ht₁, -⟩ := exists_trace (.nil : Trace Step (started queueSize) [] _) p₁
  have hstart := (reachable_history ht₁).start_of_not_mem h₁
  have hopen := (reachable_history ht₁).open_of_not_mem (reachable_inv ht₁) h₃
  -- the check passes, and while `Close` goes on the call does not move
  have hcheck : Step s₁ (.submit i) (s₁.setSubmit i .passed) :=
    ⟨true, by simp [step, submit, hstart, hopen]⟩
  obtain ⟨s₂, ht₂, hstay⟩ := exists_trace (ht₁.snoc hcheck) p₂
  have hpassed : s₂.submits i = .passed := by
    rw [hstay i (.inl h₂), submits_setSubmit]
  have hclosed : s₂.taskQueue.closed = true := by
    rw [(reachable_history ht₂).queue, decide_eq_true_eq]
    simp only [List.count_append]
    omega
  -- the select takes the send
  obtain ⟨s₃, ht₃, hrest⟩ := exists_trace (ht₂.snoc (step_panics hpassed hclosed)) q
  refine ⟨s₃, by simpa using ht₃, ?_⟩
  rw [hrest i (.inr (submits_setSubmit ..)), submits_setSubmit]

/-- **Shutdown**: whatever the selects of an interleaving choose it is safe, exactly when no call
of `Submit` in it asks before `Close` begins and selects after `Close` has closed the queue. -/
theorem safe_iff_not_late (hn : 0 < n) (queueSize : Nat) (σ : List (Actor ι n)) :
    (∀ s, Trace Step (started queueSize) σ s → Safe σ s) ↔ ∀ i, ¬Late σ i := by
  constructor
  · intro h i hlate
    obtain ⟨s, ht, hp⟩ := hlate.exists_panicked queueSize
    exact (h s ht).noPanic i hp
  · intro h s ht
    refine safe_of_noPanic hn ht fun i hp => h i ?_
    have hpast := (reachable_history ht).past i
    rwa [hp] at hpast

def orderly : List (Actor Unit 1) :=
  [.submit (), .submit (), .close, .close, .close, .worker 0, .worker 0, .worker 0, .close]

theorem orderly_not_late (i : Unit) : ¬Late orderly i := by
  rintro ⟨p₁, p₂, q, e, h₁, h₂, -, hcount⟩
  cases p₁ with
  | nil =>
    cases p₂ with
    | nil => simp at hcount
    | cons x p₂ =>
      obtain rfl : .submit () = x := (List.cons.inj (List.cons.inj e).2).1
      exact h₂ List.mem_cons_self
  | cons x p₁ =>
    obtain rfl : .submit () = x := (List.cons.inj e).1
    exact h₁ List.mem_cons_self

theorem orderly_safe : 0 < 1 ∧ ∀ s, Trace Step (started 1) orderly s → Safe orderly s :=
  ⟨Nat.one_pos, (safe_iff_not_late Nat.one_pos 1 orderly).mpr orderly_not_late⟩

theorem trace_foldl (pick : Bool) (s : WorkerPool ι n) (σ : List (Actor ι n)) :
    Trace Step s σ (σ.foldl (step pick) s) := by
  induction σ using List.reverseRecOn with
  | nil => exact .nil
  | append_singleton σ a ih =>
    rw [List.foldl_append]
    exact ih.snoc ⟨pick, rfl⟩

/-- `Submit` finds the pool open, `Close` sets the flag and closes both channels, and then `Submit`
selects the send: it panics. -/
theorem submit_panics_after_close :
    ∃ s, Trace Step (started 1 : WorkerPool Unit 1)
        [.submit (), .close, .close, .close, .submit ()] s ∧
      s.submits () = .panicked ∧ ¬Safe [.submit (), .close, .close, .close, .submit ()] s :=
  ⟨_, trace_foldl true _ _, rfl, fun h => h.noPanic () rfl⟩

def turns : WorkerState ι → Nat
  | .ready => 1
  | .running _ => 2
  | .parked | .exited => 0

section

omit [DecidableEq ι]

theorem turns_ready : turns (.ready : WorkerState ι) = 1 := rfl

theorem turns_running (t : ι) : turns (.running t) = 2 := rfl

theorem turns_exited : turns (.exited : WorkerState ι) = 0 := rfl

end

def load (s : WorkerPool ι n) : Nat := 2 * s.taskQueue.buf.length + ∑ w, turns (s.workers w)

theorem Inv.not_parked (h : Inv s) (hc : s.taskQueue.closed = true) (w : Fin n) :
    s.workers w ≠ .parked := by
  rw [Ne, ← h.parked w, h.woken hc]
  exact List.not_mem_nil

theorem Inv.released_eq (h : Inv s) (hc : s.taskQueue.closed = true) :
    released s.workers = s.workers := by
  funext w
  have hw := h.not_parked hc w
  unfold released
  cases e : s.workers w <;> simp_all

theorem Moves.closed_of_ne (hm : Moves s a s') (h : Inv s) (hc : s.taskQueue.closed = true)
    (ha : ∀ w, a ≠ .worker w) : s'.workers = s.workers ∧ s'.taskQueue.buf = s.taskQueue.buf := by
  cases hm with
  | refuse | pass | panic | answered | already | flag | closeDone | join | wait => exact ⟨rfl, rfl⟩
  | buffer hs hc' | hand hs hc' => exact absurd hc (by simp [hc'])
  | closeQueue => exact ⟨h.released_eq hc, rfl⟩
  | take | exit | park | finish | rest => exact absurd rfl (ha _)

theorem Moves.load_lt {w : Fin n} (hm : Moves s (.worker w) s') (h : Inv s)
    (hc : s.taskQueue.closed = true) (hw : s.workers w ≠ .exited) : s'.load < s.load := by
  cases hm with
  | @take _ t ts hs hb =>
    have hsum := sum_update turns s.workers w (.running t)
    rw [hs, turns_ready, turns_running] at hsum
    simp only [load, setWorker, hb, List.length_cons]
    omega
  | exit hs =>
    have hsum := sum_update turns s.workers w .exited
    rw [hs, turns_ready, turns_exited] at hsum
    simp only [load, setWorker]
    omega
  | park hs hc' => exact absurd hc (by simp [hc'])
  | finish hs =>
    have hsum := sum_update turns s.workers w .ready
    rw [hs, turns_ready, turns_running] at hsum
    simp only [load, setWorker]
    omega
  | rest hs =>
    rcases hs with e | e
    · exact absurd e (h.not_parked hc w)
    · exact absurd e hw

theorem Moves.workers_of_ne {w : Fin n} (hm : Moves s a s') (h : Inv s)
    (hc : s.taskQueue.closed = true) (ha : a ≠ .worker w) : s'.workers w = s.workers w := by
  by_cases hworker : ∃ w', a = .worker w'
  · obtain ⟨w', rfl⟩ := hworker
    have e : w ≠ w' := fun e => ha (by rw [e])
    cases hm with
    | take | exit | park | finish => exact Function.update_of_ne e _ _
    | rest => rfl
  · push Not at hworker
    rw [(hm.closed_of_ne h hc hworker).1]

theorem Moves.load_le (hm : Moves s a s') (h : Inv s) (hc : s.taskQueue.closed = true) :
    s'.load ≤ s.load := by
  by_cases hworker : ∃ w, a = .worker w
  · obtain ⟨w, rfl⟩ := hworker
    by_cases hw : s.workers w = .exited
    · cases hm with
      | take hs | exit hs | park hs | finish hs => exact absurd hw (by simp [hs])
      | rest => exact le_rfl
    · exact (hm.load_lt h hc hw).le
  · push Not at hworker
    obtain ⟨hworkers, hbuf⟩ := hm.closed_of_ne h hc hworker
    simp [load, hworkers, hbuf]

theorem Moves.stays_closed (hm : Moves s a s') (hc : s.taskQueue.closed = true) :
    s'.taskQueue.closed = true := by
  by_cases ha : a = .close
  · subst ha
    cases hm with
    | already | flag | closeDone | join | wait => exact hc
    | closeQueue => rfl
  · rw [(hm.close_of_ne ha).2, hc]

theorem Inv.exited_of_load (h : Inv s) (hc : s.taskQueue.closed = true) (hl : s.load = 0)
    (w : Fin n) : s.workers w = .exited := by
  have hsum : ∑ w, turns (s.workers w) = 0 := by
    unfold load at hl
    omega
  have hw := Finset.sum_eq_zero_iff.mp hsum w (Finset.mem_univ w)
  cases e : s.workers w with
  | ready | running => simp [e, turns] at hw
  | parked => exact absurd e (h.not_parked hc w)
  | exited => rfl

theorem Inv.load_of_exited (h : Inv s) (hn : 0 < n) (hw : ∀ w, s.workers w = .exited) :
    s.load = 0 := by
  have hbuf := (h.drained ⟨0, hn⟩ (hw _)).2
  simp [load, hbuf, hw, turns]

def Waited : Actor ι n → WorkerPool ι n → Prop
  | .worker w, s => s.workers w ≠ .exited
  | _, _ => False

theorem load_progress (hn : 0 < n) :
    Progress Step (fun s : WorkerPool ι n => Inv s ∧ s.taskQueue.closed = true) load Waited where
  keep h hs := ⟨h.1.step hs.moves, hs.moves.stays_closed h.2⟩
  le h hs := hs.moves.load_le h.1 h.2
  exists_helpful {s} h hpos := by
    by_contra hnone
    push Not at hnone
    have hw : ∀ w, s.workers w = .exited := fun w => not_not.mp (hnone (.worker w))
    exact hpos.ne' (h.1.load_of_exited hn hw)
  stay {s a b s'} h ha hb hs := by
    cases a with
    | submit | close => exact ha.elim
    | worker w =>
      have hw := hs.moves.workers_of_ne h.1 h.2 hb
      exact .inl (by rwa [Waited, hw])
  act {s a s'} h ha hs := by
    cases a with
    | submit | close => exact ha.elim
    | worker w => exact hs.moves.load_lt h.1 h.2 ha

/-- **`Close` returns.** -/
theorem close_returns (hn : 0 < n) (ht : Trace Step (started queueSize) σ s)
    (hc : 3 ≤ σ.count .close) {rounds : List (List (Actor ι n))}
    (hr : ∀ ρ ∈ rounds, ∀ w, .worker w ∈ ρ) (hl : s.load ≤ rounds.length)
    (ht' : Trace Step s (rounds.flatten ++ [.close]) s') : s'.close = .returned := by
  obtain ⟨m, htm, pick, rfl⟩ := ht'.last
  have hclosed : s.taskQueue.closed = true := by
    rw [(reachable_history ht).queue, decide_eq_true hc]
  have hI : Inv s ∧ s.taskQueue.closed = true := ⟨reachable_inv ht, hclosed⟩
  obtain ⟨hm, hcm⟩ := ((load_progress hn).run htm hI).1
  have hzero : m.load ≤ s.load - rounds.length := by
    refine (load_progress hn).rounds (fun ρ hρ a s' ha => ?_) hI htm
    cases a with
    | submit | close => exact ha.elim
    | worker w => exact hr ρ hρ w
  have hw := hm.exited_of_load hcm (by omega)
  have hsteps := (reachable_history (ht.append htm)).steps
  rw [List.count_append] at hsteps
  cases e : m.close with
  | start | flagged | doneClosed =>
    simp only [e, closeSteps] at hsteps
    omega
  | waiting | returned => simp [step, closeStep, e, hw]

/-- A task is submitted and `Close` closes the queue; three turns of the worker are enough. -/
theorem close_returns_orderly :
    ∃ s s' : WorkerPool Unit 1,
      Trace Step (started 1) [.submit (), .submit (), .close, .close, .close] s ∧
      Trace Step s [.worker 0, .worker 0, .worker 0, .close] s' ∧ s'.close = .returned := by
  let rounds : List (List (Actor Unit 1)) := [[.worker 0], [.worker 0], [.worker 0]]
  have ht := trace_foldl true (started 1 : WorkerPool Unit 1)
    [.submit (), .submit (), .close, .close, .close]
  have ht' := trace_foldl true (List.foldl (step true) (started 1)
    [.submit (), .submit (), .close, .close, .close]) (rounds.flatten ++ [.close])
  refine ⟨_, _, ht, ht', close_returns Nat.one_pos ht (by decide) (fun ρ hρ w => ?_) (by decide) ht'⟩
  have hmem : ρ = [.worker 0] := by simpa [rounds] using hρ
  rw [hmem, Subsingleton.elim w 0]
  exact List.mem_singleton_self _

end Tabi.Rpc.WorkerPool
