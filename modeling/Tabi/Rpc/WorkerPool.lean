import Tabi.Support.Channel
import Tabi.Support.Rounds

/-!
# Rpc — worker pool

The log queries of the RPC server run their batches on a pool of workers (`evmrpc/worker_pool.go`).
-/

namespace Tabi.Rpc

open Support

/-- Where a call of `Submit` is: not begun, between the check and the select, or at its end. -/
inductive SubmitState where
  | start
  | passed
  | returned (err : Option String)
  | panicked
  deriving DecidableEq

inductive CloseState where
  | start
  | flagged
  | doneClosed
  | waiting
  | returned
  deriving DecidableEq

inductive WorkerState (ι : Type) where
  | ready
  | parked
  | running (task : ι)
  | exited
  deriving DecidableEq

inductive Actor (ι : Type) (n : Nat) where
  | submit (i : ι)
  | close
  | worker (w : Fin n)
  deriving DecidableEq

structure WorkerPool (ι : Type) (n : Nat) where
  taskQueue : Chan ι (Fin n)
  done : Bool
  closed : Bool
  submits : ι → SubmitState
  close : CloseState
  workers : Fin n → WorkerState ι
  ran : List ι

namespace WorkerPool

variable {ι : Type} {n : Nat}

def started (queueSize : Nat) : WorkerPool ι n where
  taskQueue := .make queueSize
  done := false
  closed := false
  submits _ := .start
  close := .start
  workers _ := .ready
  ran := []

def released (workers : Fin n → WorkerState ι) : Fin n → WorkerState ι := fun w =>
  match workers w with
  | .parked => .ready
  | st => st

section Step

variable [DecidableEq ι]

def setSubmit (s : WorkerPool ι n) (i : ι) (r : SubmitState) : WorkerPool ι n :=
  { s with submits := Function.update s.submits i r }

def setWorker (s : WorkerPool ι n) (w : Fin n) (st : WorkerState ι) : WorkerPool ι n :=
  { s with workers := Function.update s.workers w st }

/-- The `select` of `Submit`.  The receive from `done` is ready once that is closed; where the send
is ready too, `pick` says whether it is taken. -/
def select (pick : Bool) (s : WorkerPool ι n) (i : ι) : WorkerPool ι n :=
  let sent := s.taskQueue.trySend i
  if s.done && (sent.isFull || !pick) then
    s.setSubmit i (.returned (some "worker pool is closing"))
  else match sent with
    -- Queue is full - fail fast
    | .full => s.setSubmit i (.returned (some "worker pool queue is full"))
    | .panics => s.setSubmit i .panicked
    | .buffered c => { s.setSubmit i (.returned none) with taskQueue := c }
    | .handed w c =>
      { (s.setSubmit i (.returned none)).setWorker w (.running i) with taskQueue := c }

def submit (pick : Bool) (s : WorkerPool ι n) (i : ι) : WorkerPool ι n :=
  match s.submits i with
  | .start =>
    -- Check if pool is closed first
    if s.closed then s.setSubmit i (.returned (some "worker pool is closing"))
    else s.setSubmit i .passed
  | .passed => s.select pick i
  | .returned _ | .panicked => s

/-- `Close`.  The flag lets one call through, so neither channel is closed twice. -/
def closeStep (s : WorkerPool ι n) : WorkerPool ι n :=
  match s.close with
  | .start =>
    if s.closed then { s with close := .returned } -- Already closed
    else { s with closed := true, close := .flagged }
  | .flagged => { s with done := true, close := .doneClosed }
  | .doneClosed =>
    { s with taskQueue := s.taskQueue.close, workers := released s.workers, close := .waiting }
  | .waiting =>
    if (List.finRange n).all fun w => s.workers w = .exited then { s with close := .returned }
    else s
  | .returned => s

/-- The loop of a worker.  A task that panics is recovered and counts as run. -/
def work (s : WorkerPool ι n) (w : Fin n) : WorkerPool ι n :=
  match s.workers w with
  | .ready =>
    match s.taskQueue.recv w with
    | .value task c => { s.setWorker w (.running task) with taskQueue := c }
    | .closed => s.setWorker w .exited
    | .parked c => { s.setWorker w .parked with taskQueue := c }
  | .running task => { s.setWorker w .ready with ran := s.ran ++ [task] }
  | .parked | .exited => s

def step (pick : Bool) (s : WorkerPool ι n) : Actor ι n → WorkerPool ι n
  | .submit i => s.submit pick i
  | .close => s.closeStep
  | .worker w => s.work w

def Step (s : WorkerPool ι n) (a : Actor ι n) (s' : WorkerPool ι n) : Prop :=
  ∃ pick, s' = s.step pick a

inductive Moves (s : WorkerPool ι n) : Actor ι n → WorkerPool ι n → Prop where
  | refuse {i : ι} {err : String} (hs : s.submits i = .start ∨ s.submits i = .passed) :
      Moves s (.submit i) (s.setSubmit i (.returned (some err)))
  | pass {i : ι} (hs : s.submits i = .start) (hc : s.closed = false) :
      Moves s (.submit i) (s.setSubmit i .passed)
  | panic {i : ι} (hs : s.submits i = .passed) (hc : s.taskQueue.closed = true) :
      Moves s (.submit i) (s.setSubmit i .panicked)
  | buffer {i : ι} (hs : s.submits i = .passed) (hc : s.taskQueue.closed = false) :
      Moves s (.submit i) { s.setSubmit i (.returned none) with
        taskQueue := { s.taskQueue with buf := s.taskQueue.buf ++ [i] } }
  | hand {i : ι} {w : Fin n} {ws : List (Fin n)} (hs : s.submits i = .passed)
      (hc : s.taskQueue.closed = false) (hq : s.taskQueue.recvq = w :: ws) :
      Moves s (.submit i) { (s.setSubmit i (.returned none)).setWorker w (.running i) with
        taskQueue := { s.taskQueue with recvq := ws } }
  | answered {i : ι} (hs : s.submits i ≠ .start) (hp : s.submits i ≠ .passed) :
      Moves s (.submit i) s
  | already (hs : s.close = .start) (hc : s.closed = true) :
      Moves s .close { s with close := .returned }
  | flag (hs : s.close = .start) (hc : s.closed = false) :
      Moves s .close { s with closed := true, close := .flagged }
  | closeDone (hs : s.close = .flagged) :
      Moves s .close { s with done := true, close := .doneClosed }
  | closeQueue (hs : s.close = .doneClosed) :
      Moves s .close { s with
        taskQueue := s.taskQueue.close, workers := released s.workers, close := .waiting }
  | join (hs : s.close = .waiting) (hw : ∀ w, s.workers w = .exited) :
      Moves s .close { s with close := .returned }
  | wait (hs : s.close = .waiting ∨ s.close = .returned) : Moves s .close s
  | take {w : Fin n} {t : ι} {ts : List ι} (hs : s.workers w = .ready)
      (hb : s.taskQueue.buf = t :: ts) :
      Moves s (.worker w) { s.setWorker w (.running t) with
        taskQueue := { s.taskQueue with buf := ts } }
  | exit {w : Fin n} (hs : s.workers w = .ready) (hb : s.taskQueue.buf = [])
      (hc : s.taskQueue.closed = true) : Moves s (.worker w) (s.setWorker w .exited)
  | park {w : Fin n} (hs : s.workers w = .ready) (hc : s.taskQueue.closed = false) :
      Moves s (.worker w) { s.setWorker w .parked with
        taskQueue := { s.taskQueue with recvq := s.taskQueue.recvq ++ [w] } }
  | finish {w : Fin n} {t : ι} (hs : s.workers w = .running t) :
      Moves s (.worker w) { s.setWorker w .ready with ran := s.ran ++ [t] }
  | rest {w : Fin n} (hs : s.workers w = .parked ∨ s.workers w = .exited) : Moves s (.worker w) s

theorem select_moves (pick : Bool) {s : WorkerPool ι n} {i : ι} (hs : s.submits i = .passed) :
    Moves s (.submit i) (s.select pick i) := by
  by_cases hd : (s.done && ((s.taskQueue.trySend i).isFull || !pick)) = true
  · simpa only [select, hd, if_true] using Moves.refuse (.inr hs)
  · simp only [select, hd]
    cases hc : s.taskQueue.closed with
    | true => simpa [Chan.trySend_of_closed hc] using Moves.panic hs hc
    | false =>
      cases hq : s.taskQueue.recvq with
      | cons w ws => simpa [Chan.trySend_of_parked hc hq] using Moves.hand hs hc hq
      | nil =>
        by_cases hb : s.taskQueue.buf.length < s.taskQueue.cap
        · simpa [Chan.trySend_of_room hc hq hb] using Moves.buffer hs hc
        · simpa [Chan.trySend_of_full hc hq hb] using Moves.refuse (.inr hs)

theorem submit_moves (pick : Bool) (s : WorkerPool ι n) (i : ι) :
    Moves s (.submit i) (s.submit pick i) := by
  cases hs : s.submits i with
  | start =>
    cases hc : s.closed with
    | true => simpa [submit, hs, hc] using Moves.refuse (.inl hs)
    | false => simpa [submit, hs, hc] using Moves.pass hs hc
  | passed => simpa [submit, hs] using select_moves pick hs
  | returned err | panicked =>
    have hstay : Moves s (.submit i) s := .answered (by simp [hs]) (by simp [hs])
    simpa [submit, hs] using hstay

theorem closeStep_moves (s : WorkerPool ι n) : Moves s .close s.closeStep := by
  cases hs : s.close with
  | start =>
    cases hc : s.closed with
    | true => simpa [closeStep, hs, hc] using Moves.already hs hc
    | false => simpa [closeStep, hs, hc] using Moves.flag hs hc
  | flagged => simpa [closeStep, hs] using Moves.closeDone hs
  | doneClosed => simpa [closeStep, hs] using Moves.closeQueue hs
  | waiting =>
    by_cases hw : ∀ w, s.workers w = .exited
    · simpa [closeStep, hs, hw] using Moves.join hs hw
    · simpa [closeStep, hs, hw] using Moves.wait (.inl hs)
  | returned => simpa [closeStep, hs] using Moves.wait (.inr hs)

theorem work_moves (s : WorkerPool ι n) (w : Fin n) : Moves s (.worker w) (s.work w) := by
  cases hs : s.workers w with
  | ready =>
    cases hb : s.taskQueue.buf with
    | cons t ts => simpa [work, hs, Chan.recv_of_cons hb] using Moves.take hs hb
    | nil =>
      cases hc : s.taskQueue.closed with
      | true => simpa [work, hs, Chan.recv_of_drained hb hc] using Moves.exit hs hb hc
      | false => simpa [work, hs, Chan.recv_of_empty hb hc] using Moves.park hs hc
  | parked => simpa [work, hs] using Moves.rest (.inl hs)
  | running t => simpa [work, hs] using Moves.finish hs
  | exited => simpa [work, hs] using Moves.rest (.inr hs)

theorem Step.moves {s s' : WorkerPool ι n} {a : Actor ι n} (h : Step s a s') : Moves s a s' := by
  obtain ⟨pick, rfl⟩ := h
  cases a with
  | submit i => exact submit_moves pick s i
  | close => exact closeStep_moves s
  | worker w => exact work_moves s w

def inHand (workers : Fin n → WorkerState ι) (i : ι) : Nat :=
  ∑ w, if workers w = .running i then 1 else 0

def held (s : WorkerPool ι n) (i : ι) : Nat :=
  s.taskQueue.buf.count i + inHand s.workers i + s.ran.count i

theorem inHand_update (workers : Fin n → WorkerState ι) (w : Fin n) (st : WorkerState ι) (i : ι) :
    inHand (Function.update workers w st) i + (if workers w = .running i then 1 else 0) =
      inHand workers i + (if st = .running i then 1 else 0) :=
  sum_update (fun st : WorkerState ι => if st = .running i then 1 else 0) workers w st

theorem inHand_of_idle {workers : Fin n → WorkerState ι} {w : Fin n} {st : WorkerState ι}
    (hw : ∀ i, workers w ≠ .running i) (hst : ∀ i, st ≠ .running i) (j : ι) :
    inHand (Function.update workers w st) j = inHand workers j := by
  simpa [hw, hst] using inHand_update workers w st j

theorem inHand_of_begun {workers : Fin n → WorkerState ι} {w : Fin n}
    (hw : ∀ i, workers w ≠ .running i) (i j : ι) :
    inHand (Function.update workers w (.running i)) j =
      inHand workers j + if i = j then 1 else 0 := by
  simpa [hw] using inHand_update workers w (.running i) j

theorem inHand_released (workers : Fin n → WorkerState ι) (i : ι) :
    inHand (released workers) i = inHand workers i := by
  refine Finset.sum_congr rfl fun w _ => ?_
  unfold released
  cases workers w <;> rfl

/-- What the pool keeps: the receivers of the queue are the parked workers, and it has none once it
is closed; the flag says whether `Close` has begun; a worker that has gone left a closed and empty
queue, `Close` returns after all of them, and a task is held
once where its call returned nil and nowhere else. -/
structure Inv (s : WorkerPool ι n) : Prop where
  parked : ∀ w, w ∈ s.taskQueue.recvq ↔ s.workers w = .parked
  nodup : s.taskQueue.recvq.Nodup
  woken : s.taskQueue.closed = true → s.taskQueue.recvq = []
  flagged : s.closed = false ↔ s.close = .start
  drained : ∀ w, s.workers w = .exited → s.taskQueue.closed = true ∧ s.taskQueue.buf = []
  joined : s.close = .returned → ∀ w, s.workers w = .exited
  held : ∀ i, s.held i = if s.submits i = .returned none then 1 else 0

theorem Inv.started (queueSize : Nat) : Inv (started queueSize : WorkerPool ι n) where
  parked w := by simp [WorkerPool.started, Chan.make]
  nodup := List.nodup_nil
  woken _ := rfl
  flagged := by simp [WorkerPool.started]
  drained w h := by simp [WorkerPool.started] at h
  joined h := by simp [WorkerPool.started] at h
  held i := by simp [WorkerPool.held, WorkerPool.started, Chan.make, inHand]

variable {s s' : WorkerPool ι n} {a : Actor ι n}

theorem Inv.parked_update (h : Inv s) {w : Fin n} {st : WorkerState ι} (hw : s.workers w ≠ .parked)
    (hst : st ≠ .parked) (w' : Fin n) :
    w' ∈ s.taskQueue.recvq ↔ Function.update s.workers w st w' = .parked := by
  by_cases e : w' = w
  · subst e
    simp [h.parked, hw, hst]
  · rw [Function.update_of_ne e]
    exact h.parked w'

theorem Inv.parked_step (h : Inv s) (hm : Moves s a s') :
    (∀ w, w ∈ s'.taskQueue.recvq ↔ s'.workers w = .parked) ∧ s'.taskQueue.recvq.Nodup := by
  cases hm with
  | refuse | pass | panic | buffer | answered | already | flag | closeDone | join | wait | rest =>
    exact ⟨h.parked, h.nodup⟩
  | @hand i w ws hs hc hq =>
    have hnd := h.nodup
    rw [hq, List.nodup_cons] at hnd
    refine ⟨fun w' => ?_, hnd.2⟩
    have hw' := h.parked w'
    rw [hq, List.mem_cons] at hw'
    by_cases e : w' = w
    · subst e
      simpa [setWorker] using hnd.1
    · simpa [setWorker, setSubmit, e] using hw'
  | closeQueue hs =>
    refine ⟨fun w => ?_, List.nodup_nil⟩
    cases hw : s.workers w <;> simp [Chan.close, released, hw]
  | take hs hb => exact ⟨h.parked_update (by simp [hs]) (by simp), h.nodup⟩
  | exit hs hb hc => exact ⟨h.parked_update (by simp [hs]) (by simp), h.nodup⟩
  | finish hs => exact ⟨h.parked_update (by simp [hs]) (by simp), h.nodup⟩
  | @park w hs hc =>
    have hnot : w ∉ s.taskQueue.recvq := by simp [h.parked, hs]
    refine ⟨fun w' => ?_, List.nodup_append.mpr ⟨h.nodup, List.nodup_singleton w, ?_⟩⟩
    · by_cases e : w' = w
      · subst e
        simp [setWorker]
      · simpa [setWorker, e] using h.parked w'
    · intro x hx y hy
      rw [List.mem_singleton.mp hy]
      exact ne_of_mem_of_not_mem hx hnot

theorem Inv.woken_step (h : Inv s) (hm : Moves s a s') (hc' : s'.taskQueue.closed = true) :
    s'.taskQueue.recvq = [] := by
  cases hm with
  | refuse | pass | panic | buffer | answered | already | flag | closeDone | join | wait | take
  | exit | finish | rest => exact h.woken hc'
  | closeQueue => rfl
  | hand hs hc | park hs hc => exact absurd hc' (by simp [hc])

theorem Inv.flagged_step (h : Inv s) (hm : Moves s a s') :
    s'.closed = false ↔ s'.close = .start := by
  have hf := h.flagged
  cases hm with
  | refuse | pass | panic | buffer | hand | answered | wait | take | exit | park | finish | rest =>
    exact hf
  | already hs hc => simp [hc]
  | flag => simp
  | closeDone hs => simpa [hs] using hf
  | closeQueue hs => simpa [hs] using hf
  | join hs => simpa [hs] using hf

omit [DecidableEq ι] in
theorem exited_of_update {w w' : Fin n} {st : WorkerState ι} (hst : st ≠ .exited)
    (hw : Function.update s.workers w' st w = .exited) : s.workers w = .exited := by
  by_cases e : w = w'
  · subst e
    exact absurd (by simpa using hw) hst
  · rwa [Function.update_of_ne e] at hw

theorem Inv.drained_step (h : Inv s) (hm : Moves s a s') (w : Fin n) (hw : s'.workers w = .exited) :
    s'.taskQueue.closed = true ∧ s'.taskQueue.buf = [] := by
  cases hm with
  | refuse | pass | panic | answered | already | flag | closeDone | join | wait | rest =>
    exact h.drained w hw
  | buffer hs hc => exact absurd (h.drained w hw).1 (by simp [hc])
  | hand hs hc hq => exact absurd (h.drained w (exited_of_update (by simp) hw)).1 (by simp [hc])
  | closeQueue hs =>
    refine ⟨rfl, (h.drained w ?_).2⟩
    cases hw' : s.workers w <;> simp [released, hw'] at hw ⊢
  | take hs hb => exact absurd (h.drained w (exited_of_update (by simp) hw)).2 (by simp [hb])
  | exit hs hb hc => exact ⟨hc, hb⟩
  | park hs hc => exact absurd (h.drained w (exited_of_update (by simp) hw)).1 (by simp [hc])
  | finish hs => exact h.drained w (exited_of_update (by simp) hw)

theorem Inv.joined_step (h : Inv s) (hm : Moves s a s') (hr : s'.close = .returned) (w : Fin n) :
    s'.workers w = .exited := by
  cases hm with
  | refuse | pass | panic | buffer | answered | wait | rest => exact h.joined hr w
  | @hand i w' ws hs hc hq =>
    have hp := (h.parked w').mp (by simp [hq])
    exact absurd (h.joined hr w') (by simp [hp])
  | already hs hc => exact absurd (h.flagged.mpr hs) (by simp [hc])
  | flag | closeDone | closeQueue => simp at hr
  | join hs hw => exact hw w
  | @take w' t ts hs hb => exact absurd (h.joined hr w') (by simp [hs])
  | @exit w' hs hb hc => exact absurd (h.joined hr w') (by simp [hs])
  | @park w' hs hc => exact absurd (h.joined hr w') (by simp [hs])
  | @finish w' t hs => exact absurd (h.joined hr w') (by simp [hs])

theorem held_setSubmit {i : ι} {r : SubmitState} (h : Inv s) (hs : s.submits i ≠ .returned none)
    (hr : r ≠ .returned none) (j : ι) :
    s.held j = if (s.setSubmit i r).submits j = .returned none then 1 else 0 := by
  rw [h.held j]
  by_cases e : j = i
  · subst e
    simp [setSubmit, hs, hr]
  · simp [setSubmit, e]

theorem held_nil {i : ι} (h : Inv s) (hs : s.submits i ≠ .returned none) (j : ι) :
    s.held j + (if i = j then 1 else 0) =
      if (s.setSubmit i (.returned none)).submits j = .returned none then 1 else 0 := by
  rw [h.held j]
  by_cases e : j = i
  · subst e
    simp [setSubmit, hs]
  · simp [setSubmit, e, Ne.symm e]

theorem Inv.held_step (h : Inv s) (hm : Moves s a s') (j : ι) :
    s'.held j = if s'.submits j = .returned none then 1 else 0 := by
  cases hm with
  | answered | already | flag | closeDone | join | wait | rest => exact h.held j
  | refuse hs => exact held_setSubmit h (by rcases hs with e | e <;> simp [e]) (by simp) j
  | pass hs hc => exact held_setSubmit h (by simp [hs]) (by simp) j
  | panic hs hc => exact held_setSubmit h (by simp [hs]) (by simp) j
  | @buffer i hs hc =>
    refine Eq.trans ?_ (held_nil h (by simp [hs]) j)
    simp only [WorkerPool.held, setSubmit, List.count_append, List.count_singleton, beq_iff_eq]
    ac_rfl
  | @hand i w ws hs hc hq =>
    refine Eq.trans ?_ (held_nil h (by simp [hs]) j)
    have hw := (h.parked w).mp (by simp [hq])
    simp only [WorkerPool.held, setWorker, setSubmit]
    rw [inHand_of_begun (by simp [hw])]
    ac_rfl
  | closeQueue hs =>
    refine Eq.trans ?_ (h.held j)
    simp [WorkerPool.held, Chan.close, inHand_released]
  | take hs hb =>
    refine Eq.trans ?_ (h.held j)
    simp only [WorkerPool.held, setWorker, hb, List.count_cons, beq_iff_eq]
    rw [inHand_of_begun (by simp [hs])]
    ac_rfl
  | exit hs | park hs =>
    refine Eq.trans ?_ (h.held j)
    simp only [WorkerPool.held, setWorker]
    rw [inHand_of_idle (by simp [hs]) (by simp)]
  | @finish w t hs =>
    refine Eq.trans ?_ (h.held j)
    have hu := inHand_update s.workers w .ready j
    simp only [hs, reduceCtorEq, if_false, add_zero, WorkerState.running.injEq] at hu
    simp only [WorkerPool.held, setWorker, ← hu, List.count_append, List.count_singleton,
      beq_iff_eq]
    ac_rfl

theorem Inv.step (h : Inv s) (hm : Moves s a s') : Inv s' where
  parked := (h.parked_step hm).1
  nodup := (h.parked_step hm).2
  woken := h.woken_step hm
  flagged := h.flagged_step hm
  drained := h.drained_step hm
  joined := h.joined_step hm
  held := h.held_step hm

theorem reachable_inv {queueSize : Nat} {σ : List (Actor ι n)}
    (h : Trace Step (started queueSize) σ s) : Inv s :=
  h.invariant (I := fun _ s => Inv s) (Inv.started queueSize) fun _ _ _ _ hI hs => hI.step hs.moves

end Step

end WorkerPool

end Tabi.Rpc
