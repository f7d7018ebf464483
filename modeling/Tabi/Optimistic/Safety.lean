import Tabi.Optimistic.Protocol

/-!
# Optimistic — what holds in every interleaving

The record has one story, from the section that makes it to the one that clears it (`Phase`): first
the upgrade plan is read, with no worker and an empty channel; then either a worker runs, and the
channel is empty, or the processing is over, and the token is in the channel; then `FinalizeBlocker`
takes the token, and nothing runs any more.
-/

namespace Tabi.Optimistic

open Support

variable {E T B : Type}

def Label.opens : Label E T B → Option Proposal
  | .opened p => some p
  | _ => none

def Label.closes : Label E T B → Bool
  | .cleared _ => true
  | _ => false

abbrev live (τ : List (Label E T B)) : Option (Proposal × List (Label E T B)) :=
  episode Label.opens Label.closes τ

/-- The record is aborted, or holds what `ProcessBlock` of the proposal returned. -/
def Settled (i : Info E T B) (p : Proposal) (since : List (Label E T B)) : Prop :=
  i.aborted = true ∨ .processed p (.returned i.result) ∈ since

def Worker.For (p : Proposal) (since : List (Label E T B)) : Worker E T B → Prop
  | running q => q = p
  | ending q d => q = p ∧ .processed p d ∈ since

def Pending (ws : List (Worker E T B)) (token : Bool) (i : Info E T B) (p : Proposal)
    (since : List (Label E T B)) : Prop :=
  (∃ w, ws = [w] ∧ w.For p since ∧ token = false) ∨
    (ws = [] ∧ token = true ∧ Settled i p since)

def Phase (ws : List (Worker E T B)) (token : Bool) (i : Info E T B) (p : Proposal)
    (since : List (Label E T B)) : Thread → Prop
  | .idle | .checking _ | .opening _ | .marking _ | .starting _ => Pending ws token i p since
  | .planning q | .aborting q => q = p ∧ ws = [] ∧ token = false
  | .waiting _ ch => ch = i.completion ∧ Pending ws token i p since
  | .reading _ => ws = [] ∧ Settled i p since
  | .processing _ | .clearing _ => ws = []
  | .stuck _ => False

def Conflicts (i : Info E T B) (p : Proposal) (since : List (Label E T B)) (t : Thread) : Prop :=
  ∀ q, .seen q ∈ since → q.hash ≠ p.hash → i.aborted = true ∨ t = .opening q ∨ t = .marking q

def Quiet : Thread → Prop
  | .idle | .checking _ | .opening _ | .starting _ | .processing _ | .clearing _ => True
  | _ => False

inductive Inv (τ : List (Label E T B)) (s : State E T B) : Prop where
  | absent (hi : s.shared.info = none) (hl : live τ = none) (hw : s.workers = [])
      (ht : Quiet s.thread)
  | present {i : Info E T B} {p : Proposal} {since : List (Label E T B)}
      (hi : s.shared.info = some i) (hl : live τ = some (p, since)) (hh : i.hash = p.hash)
      (hp : Phase s.workers (s.shared.full i.completion) i p since s.thread)
      (hc : Conflicts i p since s.thread)

variable {ws : List (Worker E T B)} {token : Bool} {i : Info E T B} {p : Proposal}
  {since : List (Label E T B)} {l : Label E T B} {t t' : Thread}

theorem Settled.mono (h : Settled i p since) : Settled i p (since ++ [l]) :=
  h.imp_right (List.mem_append_left _)

theorem Worker.For.mono {w : Worker E T B} (h : w.For p since) : w.For p (since ++ [l]) := by
  cases w with
  | running q => exact h
  | ending q d => exact ⟨h.1, List.mem_append_left _ h.2⟩

theorem Pending.mono (h : Pending ws token i p since) : Pending ws token i p (since ++ [l]) := by
  rcases h with ⟨w, hws, hw, ht⟩ | ⟨hws, ht, hs⟩
  · exact .inl ⟨w, hws, hw.mono, ht⟩
  · exact .inr ⟨hws, ht, hs.mono⟩

theorem Pending.aborted (h : Pending ws token i p since) :
    Pending ws token { i with aborted := true } p since :=
  h.imp_right fun ⟨hws, ht, _⟩ => ⟨hws, ht, .inl rfl⟩

theorem Pending.full (h : Pending ws token i p since) (hw : ws = []) : token = true := by
  rcases h with ⟨w, hws, _⟩ | ⟨_, ht, _⟩
  · rw [hw] at hws
    cases hws
  · exact ht

theorem Phase.mono (h : Phase ws token i p since t) : Phase ws token i p (since ++ [l]) t := by
  cases t with
  | idle => exact Pending.mono h
  | checking q => exact Pending.mono h
  | opening q => exact Pending.mono h
  | marking q => exact Pending.mono h
  | starting f => exact Pending.mono h
  | planning q => exact h
  | aborting q => exact h
  | waiting f ch => exact ⟨h.1, h.2.mono⟩
  | reading f => exact ⟨h.1, h.2.mono⟩
  | processing f => exact h
  | clearing f => exact h
  | stuck f => exact h

theorem Conflicts.mono (h : Conflicts i p since t) (hl : ∀ q, l ≠ .seen q)
    (ht : ∀ q, q.hash ≠ p.hash → t = .opening q ∨ t = .marking q →
      t' = .opening q ∨ t' = .marking q) :
    Conflicts i p (since ++ [l]) t' := by
  intro q hq hne
  rcases List.mem_append.mp hq with hq | hq
  · rcases h q hq hne with h | h
    · exact .inl h
    · exact .inr (ht q hne h)
  · exact absurd (List.mem_singleton.mp hq).symm (hl q)

theorem live_snoc (τ : List (Label E T B)) (hopen : l.opens = none) (hclose : l.closes = false) :
    live (τ ++ [l]) = (live τ).map fun e => (e.1, e.2 ++ [l]) := by
  rw [live, episode_snoc, Episode.next, hopen, hclose]
  rfl

theorem live_snoc_none {τ : List (Label E T B)} (hl : live τ = none) (hopen : l.opens = none)
    (hclose : l.closes = false) : live (τ ++ [l]) = none := by
  rw [live_snoc τ hopen hclose, hl]
  rfl

theorem live_snoc_some {τ since : List (Label E T B)} {p : Proposal} (hl : live τ = some (p, since))
    (hopen : l.opens = none) (hclose : l.closes = false) :
    live (τ ++ [l]) = some (p, since ++ [l]) := by
  rw [live_snoc τ hopen hclose, hl]
  rfl

def Between (ch : Nat) : Thread → Prop
  | .idle | .checking _ | .opening _ | .marking _ | .starting _ => True
  | .waiting _ ch' => ch' = ch
  | _ => False

theorem Between.phase (h : Between i.completion t) (hp : Pending ws token i p since) :
    Phase ws token i p since t := by
  cases t with
  | idle => exact hp
  | checking q => exact hp
  | opening q => exact hp
  | marking q => exact hp
  | starting f => exact hp
  | waiting f ch => exact ⟨h, hp⟩
  | _ => exact h.elim

theorem Phase.worker {l₁ l₂ : List (Worker E T B)} {w : Worker E T B}
    (h : Phase ws token i p since t) (hw : ws = l₁ ++ w :: l₂) :
    l₁ = [] ∧ l₂ = [] ∧ w.For p since ∧ token = false ∧ Between i.completion t := by
  subst hw
  have hpending : Pending (l₁ ++ w :: l₂) token i p since →
      l₁ = [] ∧ l₂ = [] ∧ w.For p since ∧ token = false := by
    rintro (⟨w', hws, hw', ht⟩ | ⟨hws, _⟩)
    · rcases l₁ with _ | ⟨w₁, l₁⟩
      · cases hws
        exact ⟨rfl, rfl, hw', ht⟩
      · exact absurd hws (by simp)
    · exact absurd hws (by simp)
  have hnone : ¬ l₁ ++ w :: l₂ = [] := by simp
  have hbetween : Pending (l₁ ++ w :: l₂) token i p since → Between i.completion t →
      l₁ = [] ∧ l₂ = [] ∧ w.For p since ∧ token = false ∧ Between i.completion t := by
    intro hp hb
    obtain ⟨h₁, h₂, h₃, h₄⟩ := hpending hp
    exact ⟨h₁, h₂, h₃, h₄, hb⟩
  cases t with
  | idle => exact hbetween h trivial
  | checking q => exact hbetween h trivial
  | opening q => exact hbetween h trivial
  | marking q => exact hbetween h trivial
  | starting f => exact hbetween h trivial
  | waiting f ch => exact hbetween h.2 h.1
  | planning q => exact absurd h.2.1 hnone
  | aborting q => exact absurd h.2.1 hnone
  | reading f => exact absurd h.1 hnone
  | processing f => exact absurd h hnone
  | clearing f => exact absurd h hnone
  | stuck f => exact h.elim

section Steps

variable {τ : List (Label E T B)} {s : State E T B}

theorem Inv.move (h : Inv τ s) (ht : s.thread = t) (hopen : l.opens = none)
    (hclose : l.closes = false) (hseen : ∀ q, l ≠ .seen q)
    (hquiet : s.shared.info = none → Quiet t → Quiet t')
    (hphase : ∀ {ws token i p since}, s.shared.info = some i →
      Phase ws token i p since t → Phase ws token i p since t')
    (hconf : ∀ q, t = .opening q ∨ t = .marking q → t' = .opening q ∨ t' = .marking q) :
    Inv (τ ++ [l]) { s with thread := t' } := by
  cases h with
  | absent hi hl hw hq =>
    exact .absent hi (live_snoc_none hl hopen hclose) hw (hquiet hi (ht ▸ hq))
  | present hi hl hh hp hc =>
    rw [ht] at hp hc
    exact .present hi (live_snoc_some hl hopen hclose) hh (hphase hi hp).mono
      (hc.mono hseen fun q _ => hconf q)

variable {q : Proposal} {f : Decided}

theorem Inv.pass (h : Inv τ s) (ht : s.thread = .checking q) :
    Inv (τ ++ [.seen q]) { s with thread := .opening q } := by
  cases h with
  | absent hi hl hw _ => exact .absent hi (live_snoc_none hl rfl rfl) hw trivial
  | present hi hl hh hp hc =>
    rw [ht] at hp hc
    refine .present hi (live_snoc_some hl rfl rfl) hh (Phase.mono hp) ?_
    intro q' hq' hne
    rcases List.mem_append.mp hq' with hq' | hq'
    · rcases hc q' hq' hne with h | h | h
      · exact .inl h
      · cases h
      · cases h
    · cases List.mem_singleton.mp hq'
      exact .inr (.inl rfl)

theorem Inv.start [Inhabited B] (h : Inv τ s) (hi : s.shared.info = none) :
    Inv (τ ++ [.opened q])
      { s with shared := startProcessing s.shared q, thread := .planning q } := by
  cases h with
  | absent _ hl hw _ =>
    refine .present rfl (by rw [live, episode_snoc]; rfl) rfl ⟨rfl, hw, ?_⟩
      fun _ hq => absurd hq List.not_mem_nil
    exact Function.update_self ..
  | present hi' _ _ _ _ =>
    rw [hi] at hi'
    cases hi'

theorem Inv.abort (h : Inv τ s) (ht : s.thread = .aborting q) :
    Inv (τ ++ [.silent])
      { s with shared := optimisticAbortLocked s.shared, thread := .idle } := by
  cases h with
  | absent _ _ _ hq =>
    rw [ht] at hq
    exact hq.elim
  | present hi hl hh hp hc =>
    rw [ht] at hp hc
    rw [optimisticAbortLocked_eq hi]
    refine .present rfl (live_snoc_some hl rfl rfl) hh (.inr ⟨hp.2.1, ?_, .inl rfl⟩) ?_
    · exact Function.update_self ..
    · exact fun _ _ _ => .inl rfl

theorem Inv.spawn (h : Inv τ s) (ht : s.thread = .planning q) :
    Inv (τ ++ [.silent]) { s with workers := .running q :: s.workers, thread := .idle } := by
  cases h with
  | absent _ _ _ hq =>
    rw [ht] at hq
    exact hq.elim
  | present hi hl hh hp hc =>
    rw [ht] at hp hc
    refine .present hi (live_snoc_some hl rfl rfl) hh
      (.inl ⟨.running q, by rw [hp.2.1], hp.1, hp.2.2⟩) ?_
    refine hc.mono nofun ?_
    rintro q' _ (h | h) <;> cases h

theorem Inv.mark (h : Inv τ s) (ht : s.thread = .marking q) :
    Inv (τ ++ [.silent]) { s with shared := markConflict s.shared q, thread := .idle } := by
  cases h with
  | absent _ _ _ hq =>
    rw [ht] at hq
    exact hq.elim
  | present hi hl hh hp hc =>
    rw [ht] at hp hc
    rename_i i p since
    have hl' : live (τ ++ [.silent]) = some (p, since ++ [.silent]) :=
      live_snoc_some hl rfl rfl
    by_cases hne : i.hash = q.hash
    · -- the same proposal again: nothing changes, and it is no conflict
      have hinfo : (markConflict s.shared q).info = some i := by
        rw [markConflict, hi]
        simp [hne]
      refine .present hinfo hl' hh (Pending.mono hp) ?_
      refine hc.mono nofun ?_
      rintro q' hq' (h | h)
      · cases h
      · cases h
        exact absurd (hne.symm.trans hh) hq'
    · have hinfo : (markConflict s.shared q).info = some { i with aborted := true } := by
        rw [markConflict, hi]
        simp [hne]
      exact .present hinfo hl' hh (Pending.mono (Pending.aborted hp)) fun _ _ _ => .inl rfl

theorem Inv.receive (h : Inv τ s) {ch : Nat} (ht : s.thread = .waiting f ch)
    (hfull : s.shared.full ch = true) :
    Inv (τ ++ [.silent]) { s with
      shared := { s.shared with full := Function.update s.shared.full ch false }
      thread := .reading f } := by
  cases h with
  | absent _ _ _ hq =>
    rw [ht] at hq
    exact hq.elim
  | present hi hl hh hp hc =>
    rw [ht] at hp hc
    obtain ⟨rfl, hp⟩ := hp
    rcases hp with ⟨w, _, _, hempty⟩ | ⟨hws, _, hs⟩
    · rw [hfull] at hempty
      cases hempty
    · refine .present hi (live_snoc_some hl rfl rfl) hh ⟨hws, hs.mono⟩ ?_
      refine hc.mono nofun ?_
      rintro q' _ (h | h) <;> cases h

theorem Inv.clear (h : Inv τ s) (ht : s.thread = .clearing f) :
    Inv (τ ++ [.cleared f])
      { s with shared := clearOptimisticProcessingInfo s.shared, thread := .idle } := by
  have hw : s.workers = [] := by
    cases h with
    | absent _ _ hw _ => exact hw
    | present _ _ _ hp _ =>
      rw [ht] at hp
      exact hp
  exact .absent rfl (by rw [live, episode_snoc]; rfl) hw trivial

theorem Inv.work (h : Inv τ s) {l₁ l₂ : List (Worker E T B)}
    (hw : s.workers = l₁ ++ .running q :: l₂) (d : Processed E T B) :
    Inv (τ ++ [.processed q d]) { s with workers := l₁ ++ .ending q d :: l₂ } := by
  cases h with
  | absent _ _ hws _ =>
    rw [hws] at hw
    exact absurd hw (by simp)
  | present hi hl hh hp hc =>
    obtain ⟨rfl, rfl, rfl, htoken, hbetween⟩ := hp.worker hw
    refine .present hi (live_snoc_some hl rfl rfl) hh
      (hbetween.phase (.inl ⟨_, rfl, ⟨rfl, ?_⟩, htoken⟩)) (hc.mono (by simp) fun _ _ h => h)
    exact List.mem_append_right _ (List.mem_singleton_self _)

theorem Inv.finish (h : Inv τ s) {l₁ l₂ : List (Worker E T B)} {d : Processed E T B}
    (hw : s.workers = l₁ ++ .ending q d :: l₂) :
    Inv (τ ++ [.silent])
      { s with shared := Optimistic.finish s.shared d, workers := l₁ ++ l₂ } := by
  cases h with
  | absent _ _ hws _ =>
    rw [hws] at hw
    exact absurd hw (by simp)
  | present hi hl hh hp hc =>
    rename_i i p since
    obtain ⟨rfl, rfl, ⟨rfl, hd⟩, _, hbetween⟩ := hp.worker hw
    have hl' : live (τ ++ [.silent]) = some (q, since ++ [.silent]) :=
      live_snoc_some hl rfl rfl
    have hover : ∀ i' : Info E T B, i'.hash = i.hash → i'.completion = i.completion →
        (i.aborted = true → i'.aborted = true) → Settled i' q since →
        Inv (τ ++ [.silent]) { s with
          shared := signalCompletion { s.shared with info := some i' } i.completion
          workers := [] } := by
      intro i' hhash hcomp hab hs
      refine .present rfl hl' (hhash.trans hh) ?_ ?_
      · refine (hcomp ▸ hbetween : Between i'.completion s.thread).phase
          (.inr ⟨rfl, ?_, hs.mono⟩)
        rw [hcomp]
        exact Function.update_self ..
      · exact Conflicts.mono (l := .silent) (fun q' hq' hne => (hc q' hq' hne).imp_left hab) nofun
          fun _ _ h => h
    cases d with
    | returned r =>
      have hover' := hover (i.commit (some r)) rfl rfl id (.inr hd)
      rwa [← optimisticCommitLocked_eq hi] at hover'
    | failed =>
      have hover' := hover (i.commit none) rfl rfl (fun _ => rfl) (.inl rfl)
      rwa [← optimisticCommitLocked_eq hi] at hover'
    | panicked =>
      have hover' := hover { i with aborted := true } rfl rfl (fun _ => rfl) (.inl rfl)
      rwa [← optimisticAbortLocked_eq hi] at hover'

theorem inv_step [Inhabited B] {s' : State E T B} (h : Inv τ s) (hs : Step s l s') :
    Inv (τ ++ [l]) s' := by
  cases hs with
  | propose q ht =>
    exact h.move ht rfl rfl nofun (fun _ _ => trivial) (fun _ hp => hp) (by simp)
  | reject ht => exact h.move ht rfl rfl nofun (fun _ _ => trivial) (fun _ hp => hp) (by simp)
  | pass ht => exact h.pass ht
  | start ht hi => exact h.start hi
  | notFirst ht hi =>
    exact h.move ht rfl rfl nofun (fun hi' => absurd hi' hi) (fun _ hp => hp) (by simp)
  | upgrade ht => exact h.move ht rfl rfl nofun (fun _ hq => hq) (fun _ hp => hp) (by simp)
  | abort ht => exact h.abort ht
  | spawn ht => exact h.spawn ht
  | mark ht => exact h.mark ht
  | finalize f ht =>
    exact h.move ht rfl rfl nofun (fun _ _ => trivial) (fun _ hp => hp) (by simp)
  | noInfo ht hi =>
    refine h.move ht rfl rfl nofun (fun _ _ => trivial) (fun hi' => ?_) (by simp)
    rw [hi] at hi'
    cases hi'
  | wait ht hi =>
    refine h.move ht rfl rfl nofun (fun hi' => ?_) (fun hi' hp => ⟨?_, hp⟩) (by simp)
    · rw [hi] at hi'
      cases hi'
    · rw [hi] at hi'
      cases hi'
      rfl
  | receive ht hf => exact h.receive ht hf
  | fast ht hi ha hh =>
    exact h.move ht rfl rfl nofun (fun _ _ => trivial) (fun _ hp => hp.1) (by simp)
  | ineligible ht hi ha =>
    exact h.move ht rfl rfl nofun (fun _ _ => trivial) (fun _ hp => hp.1) (by simp)
  | nilInfo ht hi =>
    refine h.move ht rfl rfl nofun (fun _ hq => hq) (fun hi' => ?_) (by simp)
    rw [hi] at hi'
    cases hi'
  | process ht => exact h.move ht rfl rfl nofun (fun _ _ => trivial) (fun _ hp => hp) (by simp)
  | clear ht => exact h.clear ht
  | work _ _ d hw => exact h.work hw d
  | finish _ _ hw => exact h.finish hw

theorem Inv.workers_le (h : Inv τ s) : s.workers.length ≤ 1 := by
  cases hw : s.workers with
  | nil => simp
  | cons w ws =>
    cases h with
    | absent _ _ hws _ =>
      rw [hws] at hw
      cases hw
    | present _ _ _ hp _ =>
      obtain ⟨_, rfl, _⟩ := hp.worker (hw.trans (List.nil_append _).symm)
      simp

theorem Inv.full_of_idle (h : Inv τ s) (ht : s.thread = .idle) (hw : s.workers = [])
    (hi : s.shared.info = some i) : s.shared.full i.completion = true := by
  cases h with
  | absent hi' _ _ _ =>
    rw [hi] at hi'
    cases hi'
  | present hi' _ _ hp _ =>
    rw [hi] at hi'
    cases hi'
    rw [ht] at hp
    exact Pending.full hp hw

theorem Inv.full_of_waiting (h : Inv τ s) {ch : Nat} (ht : s.thread = .waiting f ch)
    (hw : s.workers = []) : s.shared.full ch = true := by
  cases h with
  | absent _ _ _ hq =>
    rw [ht] at hq
    exact hq.elim
  | present _ _ _ hp _ =>
    rw [ht] at hp
    obtain ⟨rfl, hp⟩ := hp
    exact hp.full hw

theorem Inv.not_stuck (h : Inv τ s) (f : Decided) : s.thread ≠ .stuck f := by
  intro ht
  cases h with
  | absent _ _ _ hq =>
    rw [ht] at hq
    exact hq
  | present _ _ _ hp _ =>
    rw [ht] at hp
    exact hp

end Steps

section Guarantees

variable [Inhabited B] {τ : List (Label E T B)} {s s' : State E T B}

theorem inv_run (h : Run τ s) : Inv τ s :=
  h.invariant (.absent rfl rfl rfl trivial) fun _ _ _ _ h hs => inv_step h hs

theorem Inv.fast {f : Decided} {r : BlockResult E T B} (h : Inv τ s) (hs : Step s (.fast f r) s') :
    ∃ a p b, τ = a ++ .opened p :: b ∧ p.hash = f.hash ∧ .processed p (.returned r) ∈ b ∧
      (∀ f', .cleared f' ∉ b) ∧ ∀ q, .seen q ∈ b → q.hash = f.hash := by
  cases hs with
  | fast ht hi ha hh =>
    cases h with
    | absent hi' _ _ _ =>
      rw [hi] at hi'
      cases hi'
    | present hi' hl hp hphase hc =>
      rw [hi] at hi'
      cases hi'
      rw [ht] at hphase hc
      obtain ⟨a, l, rfl, hopen, hclosed⟩ := episode_eq_some hl
      rename_i p since
      obtain rfl : l = .opened p := by
        cases l with
        | opened q =>
          cases hopen
          rfl
        | _ => cases hopen
      refine ⟨a, p, since, rfl, hp.symm.trans hh, ?_, fun f' hf' => ?_, fun q hq => ?_⟩
      · rcases hphase.2 with hab | hdone
        · rw [ha] at hab
          cases hab
        · exact hdone
      · exact absurd (hclosed _ hf') (by simp [Label.closes])
      · by_contra hne
        rcases hc q hq (fun e => hne (e.trans (hp.symm.trans hh))) with hab | h | h
        · rw [ha] at hab
          cases hab
        · cases h
        · cases h

theorem info_of_finalized {l : Label E T B} (hs : Step s l s') (h : s.thread.Finalizing)
    (h' : ¬ s'.thread.Finalizing) : s'.thread = .idle ∧ s'.shared.info = none := by
  cases hs with
  | clear ht => exact ⟨rfl, rfl⟩
  | work => exact absurd h h'
  | finish => exact absurd h h'
  | _ => simp_all [Thread.Finalizing]

/-- **The protocol is safe in every interleaving.**  The fast path is taken only with the results
of a `ProcessBlock` of the decided block, and only if every proposal that passed the gas check
while the record was live was that block; the record is gone after `FinalizeBlocker`; at most one
worker runs; and the token is in the channel whenever no worker runs, between calls and while
`FinalizeBlocker` waits for it, so that it never waits for a worker that is not there. -/
theorem optimistic_safe (h : Run τ s) :
    (∀ a f r b, τ = a ++ .fast f r :: b → ∃ a₀ p c, a = a₀ ++ .opened p :: c ∧ p.hash = f.hash ∧
      .processed p (.returned r) ∈ c ∧ (∀ f', .cleared f' ∉ c) ∧
      ∀ q, .seen q ∈ c → q.hash = f.hash) ∧
    (∀ l s', Step s l s' → s.thread.Finalizing → ¬ s'.thread.Finalizing →
      s'.thread = .idle ∧ s'.shared.info = none) ∧
    s.workers.length ≤ 1 ∧
    (s.thread = .idle → s.workers = [] → ∀ i, s.shared.info = some i →
      s.shared.full i.completion = true) ∧
    (∀ f ch, s.thread = .waiting f ch → s.workers = [] → s.shared.full ch = true) ∧
    ∀ f, s.thread ≠ .stuck f := by
  have hinv := inv_run h
  refine ⟨fun a f r b e => ?_, fun _ _ => info_of_finalized, hinv.workers_le,
    fun ht hw _ hi => hinv.full_of_idle ht hw hi, fun _ _ ht hw => hinv.full_of_waiting ht hw,
    hinv.not_stuck⟩
  obtain ⟨s₀, s₁, h₀, hs⟩ := h.split e
  exact (inv_run h₀).fast hs

end Guarantees

def proposedOne : Proposal := ⟨[1], 1, []⟩

def workingOne : State Unit Unit Unit :=
  ⟨startProcessing State.init.shared proposedOne, .idle, [.running proposedOne]⟩

theorem run_workingOne :
    Run [.silent, .seen proposedOne, .opened proposedOne, .silent] workingOne :=
  .snoc (.snoc (.snoc (.snoc .nil (.propose _ rfl)) (.pass rfl)) (.start rfl rfl)) (.spawn rfl)

theorem run_fastOne {τ : List (Label Unit Unit Unit)} (h : Run τ workingOne) :
    ∃ s, Run (τ ++ [.processed proposedOne (.returned ⟨[], [], ()⟩)] ++ [.silent] ++ [.silent] ++
      [.silent] ++ [.silent] ++ [.fast ⟨[1], []⟩ ⟨[], [], ()⟩]) s ∧
      s.thread = .clearing ⟨[1], []⟩ := by
  have hworked := (h.snoc (.work [] [] (.returned ⟨[], [], ()⟩) rfl)).snoc (.finish [] [] rfl)
  have hread := ((hworked.snoc (.finalize ⟨[1], []⟩ rfl)).snoc
    (.wait (i := ⟨1, [1], false, 0, [], [], ()⟩) rfl rfl)).snoc (.receive rfl rfl)
  exact ⟨_, hread.snoc (.fast (i := ⟨1, [1], false, 0, [], [], ()⟩) rfl rfl rfl rfl), rfl⟩

theorem optimistic_safe_oneBlock : let p : Proposal := ⟨[1], 1, []⟩
    let f : Decided := ⟨[1], []⟩
    let r : BlockResult Unit Unit Unit := ⟨[], [], ()⟩
    let τ : List (Label Unit Unit Unit) := [.silent, .seen p, .opened p, .silent,
      .silent, .seen p, .silent, .silent, .processed p (.returned r), .silent,
      .silent, .silent, .silent, .fast f r, .cleared f]
    ∃ s, Run τ s ∧ s.workers.length ≤ 1 ∧ s.shared.info = none := by
  intro p f r τ
  have hsame : markConflict workingOne.shared p = workingOne.shared := rfl
  have hmarking := ((run_workingOne.snoc (.propose p rfl)).snoc (.pass rfl)).snoc
    (.notFirst rfl nofun)
  have hagain := hmarking.snoc (.mark rfl)
  rw [hsame] at hagain
  obtain ⟨s, hfast, hclearing⟩ := run_fastOne hagain
  have hrun : Run τ _ := hfast.snoc (.clear hclearing)
  exact ⟨_, hrun, (optimistic_safe hrun).2.2.1, rfl⟩

theorem fast_after_rejectedProposal : let p : Proposal := ⟨[1], 1, []⟩
    let q : Proposal := ⟨[2], 1, []⟩
    let f : Decided := ⟨[1], []⟩
    let r : BlockResult Unit Unit Unit := ⟨[], [], ()⟩
    let τ : List (Label Unit Unit Unit) := [.silent, .seen p, .opened p, .silent,
      .silent, .rejected q, .processed p (.returned r), .silent,
      .silent, .silent, .silent, .fast f r]
    q.hash ≠ p.hash ∧ ∃ s, Run τ s := by
  intro p q f r τ
  have hrejected : Run [.silent, .seen p, .opened p, .silent, .silent, .rejected q] workingOne :=
    (run_workingOne.snoc (.propose q rfl)).snoc (.reject rfl)
  obtain ⟨s, hfast, -⟩ := run_fastOne hrejected
  exact ⟨by decide, s, hfast⟩

end Tabi.Optimistic
