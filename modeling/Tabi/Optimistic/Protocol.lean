import Tabi.Support.Trace
import Tabi.Chain.Types
import Mathlib.Logic.Function.Basic

/-!
# Optimistic — processing a block before it is decided

`ProcessProposalHandler` starts to process the first proposal of a height in the background;
`FinalizeBlocker` uses the results if the decided block is that proposal, and processes the block
itself otherwise (`app/app.go`).
-/

namespace Tabi.Optimistic

open Support

structure Proposal where
  hash : Bytes
  height : ℤ
  txs : List Bytes
  deriving DecidableEq

structure Decided where
  hash : Bytes
  txs : List Bytes
  deriving DecidableEq

structure BlockResult (E T B : Type) where
  events : List E
  txRes : List T
  endBlockResp : B
  deriving DecidableEq

inductive Processed (E T B : Type) where
  | returned (r : BlockResult E T B)
  | failed
  | panicked
  deriving DecidableEq

structure Info (E T B : Type) where
  height : ℤ
  hash : Bytes
  aborted : Bool
  completion : Nat
  events : List E
  txRes : List T
  endBlockResp : B

variable {E T B : Type}

def Info.result (i : Info E T B) : BlockResult E T B := ⟨i.events, i.txRes, i.endBlockResp⟩

structure Shared (E T B : Type) where
  info : Option (Info E T B)
  made : Nat
  full : Nat → Bool

def signalCompletion (g : Shared E T B) (ch : Nat) : Shared E T B :=
  { g with full := Function.update g.full ch true }

def optimisticAbortLocked (g : Shared E T B) : Shared E T B :=
  match g.info with
  | none => g
  | some info =>
    signalCompletion { g with info := some { info with aborted := true } } info.completion

/-- The record after `ProcessBlock` returned or, for `none`, failed. -/
def Info.commit (info : Info E T B) : Option (BlockResult E T B) → Info E T B
  | none => { info with aborted := true }
  | some r => { info with events := r.events, txRes := r.txRes, endBlockResp := r.endBlockResp }

def optimisticCommitLocked (g : Shared E T B) (r : Option (BlockResult E T B)) : Shared E T B :=
  match g.info with
  | none => g
  | some info => signalCompletion { g with info := some (info.commit r) } info.completion

/-- The end of a worker: the commit, or the abort of the deferred `recover`. -/
def finish (g : Shared E T B) : Processed E T B → Shared E T B
  | .returned r => optimisticCommitLocked g (some r)
  | .failed => optimisticCommitLocked g none
  | .panicked => optimisticAbortLocked g

/-- The first section of `ProcessProposalHandler`, when there is no record. -/
def startProcessing [Inhabited B] (g : Shared E T B) (p : Proposal) : Shared E T B where
  info := some ⟨p.height, p.hash, false, g.made, [], [], default⟩
  made := g.made + 1
  full := Function.update g.full g.made false

/-- The second section of `ProcessProposalHandler`, for a proposal that found a record. -/
def markConflict (g : Shared E T B) (p : Proposal) : Shared E T B :=
  { g with info := g.info.map fun info =>
      if info.hash ≠ p.hash then { info with aborted := true } else info }

def clearOptimisticProcessingInfo (g : Shared E T B) : Shared E T B := { g with info := none }

section

variable {g : Shared E T B} {info : Info E T B}

theorem optimisticAbortLocked_eq (h : g.info = some info) :
    optimisticAbortLocked g =
      signalCompletion { g with info := some { info with aborted := true } } info.completion := by
  rw [optimisticAbortLocked, h]

theorem optimisticCommitLocked_eq (h : g.info = some info) (r : Option (BlockResult E T B)) :
    optimisticCommitLocked g r =
      signalCompletion { g with info := some (info.commit r) } info.completion := by
  rw [optimisticCommitLocked, h]

end

inductive Thread where
  | idle
  /-- `ProcessProposalHandler`: before the gas check, before the first section, before the upgrade
  plan is read, before the abort for an upgrade, and before the second section. -/
  | checking (p : Proposal)
  | opening (p : Proposal)
  | planning (p : Proposal)
  | aborting (p : Proposal)
  | marking (p : Proposal)
  /-- `FinalizeBlocker`: before the first read of the record, at the channel, before the second
  read, before `ProcessBlock`, and before the deferred clearing. -/
  | starting (f : Decided)
  | waiting (f : Decided) (ch : Nat)
  | reading (f : Decided)
  | processing (f : Decided)
  | clearing (f : Decided)
  /-- A nil record was read under the read lock: the panic leaves the lock held. -/
  | stuck (f : Decided)
  deriving DecidableEq

def Thread.Finalizing : Thread → Prop
  | starting _ | waiting _ _ | reading _ | processing _ | clearing _ | stuck _ => True
  | _ => False

/-- Where a worker is: before `ProcessBlock` ends, and before its last section. -/
inductive Worker (E T B : Type) where
  | running (p : Proposal)
  | ending (p : Proposal) (d : Processed E T B)

structure State (E T B : Type) where
  shared : Shared E T B
  thread : Thread
  workers : List (Worker E T B)

def State.init : State E T B := ⟨⟨none, 0, fun _ => false⟩, .idle, []⟩

inductive Label (E T B : Type) where
  | silent
  | rejected (p : Proposal)
  | seen (p : Proposal)
  | opened (p : Proposal)
  /-- `ProcessBlock` of a proposal ends in the background. -/
  | processed (p : Proposal) (d : Processed E T B)
  /-- `FinalizeBlocker` decides for the results of the record. -/
  | fast (f : Decided) (r : BlockResult E T B)
  | cleared (f : Decided)

inductive Step [Inhabited B] (s : State E T B) : Label E T B → State E T B → Prop where
  | propose (p : Proposal) (h : s.thread = .idle) : Step s .silent { s with thread := .checking p }
  | reject {p : Proposal} (h : s.thread = .checking p) :
      Step s (.rejected p) { s with thread := .idle }
  | pass {p : Proposal} (h : s.thread = .checking p) :
      Step s (.seen p) { s with thread := .opening p }
  | start {p : Proposal} (h : s.thread = .opening p) (hi : s.shared.info = none) :
      Step s (.opened p) { s with shared := startProcessing s.shared p, thread := .planning p }
  | notFirst {p : Proposal} (h : s.thread = .opening p) (hi : s.shared.info ≠ none) :
      Step s .silent { s with thread := .marking p }
  | upgrade {p : Proposal} (h : s.thread = .planning p) :
      Step s .silent { s with thread := .aborting p }
  | abort {p : Proposal} (h : s.thread = .aborting p) :
      Step s .silent { s with shared := optimisticAbortLocked s.shared, thread := .idle }
  | spawn {p : Proposal} (h : s.thread = .planning p) :
      Step s .silent { s with workers := .running p :: s.workers, thread := .idle }
  | mark {p : Proposal} (h : s.thread = .marking p) :
      Step s .silent { s with shared := markConflict s.shared p, thread := .idle }
  | finalize (f : Decided) (h : s.thread = .idle) : Step s .silent { s with thread := .starting f }
  | noInfo {f : Decided} (h : s.thread = .starting f) (hi : s.shared.info = none) :
      Step s .silent { s with thread := .processing f }
  | wait {f : Decided} {i : Info E T B} (h : s.thread = .starting f)
      (hi : s.shared.info = some i) : Step s .silent { s with thread := .waiting f i.completion }
  | receive {f : Decided} {ch : Nat} (h : s.thread = .waiting f ch) (hf : s.shared.full ch = true) :
      Step s .silent { s with
        shared := { s.shared with full := Function.update s.shared.full ch false }
        thread := .reading f }
  | fast {f : Decided} {i : Info E T B} (h : s.thread = .reading f) (hi : s.shared.info = some i)
      (ha : i.aborted = false) (hh : i.hash = f.hash) :
      Step s (.fast f i.result) { s with thread := .clearing f }
  | ineligible {f : Decided} {i : Info E T B} (h : s.thread = .reading f)
      (hi : s.shared.info = some i) (ha : i.aborted = true ∨ i.hash ≠ f.hash) :
      Step s .silent { s with thread := .processing f }
  | nilInfo {f : Decided} (h : s.thread = .reading f) (hi : s.shared.info = none) :
      Step s .silent { s with thread := .stuck f }
  /-- `ProcessBlock` of the decided block returns, fails or panics. -/
  | process {f : Decided} (h : s.thread = .processing f) :
      Step s .silent { s with thread := .clearing f }
  | clear {f : Decided} (h : s.thread = .clearing f) :
      Step s (.cleared f)
        { s with shared := clearOptimisticProcessingInfo s.shared, thread := .idle }
  | work (l₁ l₂ : List (Worker E T B)) {p : Proposal} (d : Processed E T B)
      (h : s.workers = l₁ ++ .running p :: l₂) :
      Step s (.processed p d) { s with workers := l₁ ++ .ending p d :: l₂ }
  | finish (l₁ l₂ : List (Worker E T B)) {p : Proposal} {d : Processed E T B}
      (h : s.workers = l₁ ++ .ending p d :: l₂) :
      Step s .silent { s with shared := finish s.shared d, workers := l₁ ++ l₂ }

abbrev Run [Inhabited B] (τ : List (Label E T B)) (s : State E T B) : Prop :=
  Trace Step State.init τ s

end Tabi.Optimistic
