import Mathlib.Tactic.Common

/-!
# Support — Channel

A Go channel whose senders never wait: a buffer, the receivers that are parked on it, and whether it
is closed.
-/

namespace Support

structure Chan (τ ω : Type) where
  cap : Nat
  buf : List τ
  closed : Bool
  recvq : List ω

namespace Chan

variable {τ ω : Type} {c : Chan τ ω} {v : τ} {w : ω}

def make (cap : Nat) : Chan τ ω := ⟨cap, [], false, []⟩

inductive Send (τ ω : Type) where
  | panics
  | full
  | buffered (c : Chan τ ω)
  | handed (w : ω) (c : Chan τ ω)

def Send.isFull : Send τ ω → Bool
  | .full => true
  | _ => false

def trySend (c : Chan τ ω) (v : τ) : Send τ ω :=
  if c.closed then .panics
  else match c.recvq with
    | w :: ws => .handed w { c with recvq := ws }
    | [] => if c.buf.length < c.cap then .buffered { c with buf := c.buf ++ [v] } else .full

inductive Recv (τ ω : Type) where
  | value (v : τ) (c : Chan τ ω)
  | closed
  | parked (c : Chan τ ω)

def recv (c : Chan τ ω) (w : ω) : Recv τ ω :=
  match c.buf with
  | v :: vs => .value v { c with buf := vs }
  | [] => if c.closed then .closed else .parked { c with recvq := c.recvq ++ [w] }

def close (c : Chan τ ω) : Chan τ ω := { c with closed := true, recvq := [] }

theorem trySend_of_closed (h : c.closed = true) : c.trySend v = .panics := by
  simp [trySend, h]

theorem trySend_of_parked {ws : List ω} (h : c.closed = false) (hq : c.recvq = w :: ws) :
    c.trySend v = .handed w { c with recvq := ws } := by
  simp [trySend, h, hq]

theorem trySend_of_room (h : c.closed = false) (hq : c.recvq = []) (hb : c.buf.length < c.cap) :
    c.trySend v = .buffered { c with buf := c.buf ++ [v] } := by
  simp [trySend, h, hq, hb]

theorem trySend_of_full (h : c.closed = false) (hq : c.recvq = []) (hb : ¬c.buf.length < c.cap) :
    c.trySend v = .full := by
  simp [trySend, h, hq, hb]

theorem recv_of_cons {vs : List τ} (hb : c.buf = v :: vs) :
    c.recv w = .value v { c with buf := vs } := by
  simp [recv, hb]

theorem recv_of_drained (hb : c.buf = []) (h : c.closed = true) : c.recv w = .closed := by
  simp [recv, hb, h]

theorem recv_of_empty (hb : c.buf = []) (h : c.closed = false) :
    c.recv w = .parked { c with recvq := c.recvq ++ [w] } := by
  simp [recv, hb, h]

end Chan

end Support
