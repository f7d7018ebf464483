import Mathlib.Data.List.Perm.Subperm
import Tabi.Support.Channel
import Tabi.Support.Trace

/-!
# Rpc — new heads

`NewHeads` (`evmrpc/subscribe.go`) gives every subscription a channel with room for ten headers and
a goroutine that passes on what comes through it.  One loop takes up the headers of new blocks and,
under the mutex of the subscriptions, offers each to every channel.  It never waits: a subscription
whose channel is full is closed and dropped.

The goroutines, the loop and calls of `NewHeads` are interleaved in any way; `Event` is what moves.

* `Flow`: what a subscription was notified of, what is on its way and what the loop still owes it
  are together the headers since it was made.
* `newHeads_inOrder`: so every subscription is notified of an initial part of these, in order, and
  of a nil header after it only if it misses one.
* `newHeads_bounded`: the subscriptions stay within the limit, and none outlives its goroutine.
-/

namespace Tabi.Rpc.NewHeads

open Support

variable {ι η : Type}

/-! ### A subscription -/

/-- Where the goroutine of a subscription is.  What it received is nil when the channel was closed,
and it notifies the client of that too. -/
inductive Goroutine (η : Type) where
  | selecting
  | parked
  | notifying (res : Option η)
  | leaving
  | gone

/-- A subscription: its channel, its goroutine, and what the client was notified of. -/
structure Sub (η : Type) where
  listener : Chan η Unit
  goroutine : Goroutine η
  notified : List (Option η)

/-- What the goroutine has received and not yet passed on. -/
def Goroutine.inHand : Goroutine η → List η
  | .notifying (some res) => [res]
  | _ => []

/-- `NewHeadsListenerBuffer`. -/
def newHeadsListenerBuffer : Nat := 10

namespace Sub

/-- A new subscription. -/
def make : Sub η := ⟨.make newHeadsListenerBuffer, .selecting, []⟩

/-- `handleListener`.  The panic of a send on a closed channel is recovered, and the answer is
false. -/
def handleListener (c : Sub η) (ethHeader : η) : Sub η × Bool :=
  match c.listener.trySend ethHeader with
  | .panics => (c, false)
  | .full => ({ c with listener := c.listener.close }, false)
  | .buffered l => ({ c with listener := l }, true)
  | .handed _ l => ({ c with listener := l, goroutine := .notifying (some ethHeader) }, true)

/-- The select takes what the channel has, or waits. -/
def receive (c : Sub η) : Sub η :=
  match c.listener.recv () with
  | .value res l => { c with listener := l, goroutine := .notifying (some res) }
  | .closed => { c with goroutine := .notifying none }
  | .parked l => { c with listener := l, goroutine := .parked }

/-- `Notify` returns; after an error, or for a closed channel, the loop ends. -/
def notify (c : Sub η) (res : Option η) (ok : Bool) : Sub η where
  listener := c.listener
  goroutine := if ok && res.isSome then .selecting else .leaving
  notified := if ok then c.notified ++ [res] else c.notified

/-- The select finds that the subscription or the connection has ended. -/
def stop (c : Sub η) : Sub η :=
  { c with listener := { c.listener with recvq := [] }, goroutine := .leaving }

/-- The goroutine ends; the channel may have been closed before, which is recovered. -/
def leave (c : Sub η) : Sub η := { c with listener := c.listener.close, goroutine := .gone }

variable (c : Sub η) (h : η)

/-- What an offer comes to: it is refused by a closed channel, closes a full one, or is taken. -/
theorem handleListener_cases :
    (c.listener.closed = true ∧ c.handleListener h = (c, false)) ∨
    (c.listener.closed = false ∧ c.listener.recvq = [] ∧
      (c.handleListener h = ({ c with listener := c.listener.close }, false) ∨
        c.handleListener h =
          ({ c with listener := { c.listener with buf := c.listener.buf ++ [h] } }, true))) ∨
    (c.listener.closed = false ∧ ∃ ws, c.listener.recvq = () :: ws ∧
      c.handleListener h = ({ c with
        listener := { c.listener with recvq := ws }
        goroutine := .notifying (some h) }, true)) := by
  cases hc : c.listener.closed with
  | true => exact .inl ⟨rfl, by rw [handleListener, Chan.trySend_of_closed hc]⟩
  | false =>
    cases hq : c.listener.recvq with
    | nil =>
      refine .inr (.inl ⟨rfl, rfl, ?_⟩)
      by_cases hb : c.listener.buf.length < c.listener.cap
      · exact .inr (by rw [handleListener, Chan.trySend_of_room hc hq hb])
      · exact .inl (by rw [handleListener, Chan.trySend_of_full hc hq hb])
    | cons w ws =>
      exact .inr (.inr ⟨rfl, ws, rfl, by rw [handleListener, Chan.trySend_of_parked hc hq]⟩)

end Sub

/-! ### The subscriptions -/

/-- The loop while it has the mutex: the header, whom it has yet to offer it to, and whom it will
drop. -/
structure Offering (ι η : Type) where
  ethHeader : η
  rest : List ι
  toDelete : List ι

/-- `SubscriptionAPI`, with the subscriptions there have been. -/
structure SubscriptionAPI (ι η : Type) where
  newHeadListeners : List ι
  subs : ι → Option (Sub η)
  loop : Option (Offering ι η)

/-- Before any subscription. -/
def started : SubscriptionAPI ι η := ⟨[], fun _ => none, none⟩

/-- What moves. -/
inductive Event (ι η : Type) where
  | header (ethHeader : η)
  | offer
  | unlock
  | newHeads (i : ι)
  | receive (i : ι)
  | notify (i : ι) (ok : Bool)
  | stop (i : ι)
  | leave (i : ι)

/-- What the loop still owes to a subscription. -/
def SubscriptionAPI.owed [DecidableEq ι] (s : SubscriptionAPI ι η) (i : ι) : List η :=
  match s.loop with
  | some o => if i ∈ o.rest then [o.ethHeader] else []
  | none => []

section Step

variable [DecidableEq ι]

/-- A subscription moves. -/
def SubscriptionAPI.set (s : SubscriptionAPI ι η) (i : ι) (c : Sub η) : SubscriptionAPI ι η :=
  { s with subs := Function.update s.subs i (some c) }

/-- One move.  The loop visits the map in any order, and nobody else has the mutex meanwhile. -/
inductive Step (newHeadLimit : Nat) (s : SubscriptionAPI ι η) :
    Event ι η → SubscriptionAPI ι η → Prop where
  | header {h : η} {order : List ι} (hl : s.loop = none) (hp : order.Perm s.newHeadListeners) :
      Step newHeadLimit s (.header h) { s with loop := some ⟨h, order, []⟩ }
  | offer {h : η} {i : ι} {rest toDelete : List ι} {c : Sub η}
      (hl : s.loop = some ⟨h, i :: rest, toDelete⟩) (hc : s.subs i = some c) :
      Step newHeadLimit s .offer { s.set i (c.handleListener h).1 with
        loop := some ⟨h, rest, if (c.handleListener h).2 then toDelete else toDelete ++ [i]⟩ }
  | unlock {h : η} {toDelete : List ι} (hl : s.loop = some ⟨h, [], toDelete⟩) :
      Step newHeadLimit s .unlock { s with
        newHeadListeners := s.newHeadListeners.filter (· ∉ toDelete), loop := none }
  | newHeads {i : ι} (hl : s.loop = none) (hi : s.subs i = none)
      (hlimit : s.newHeadListeners.length < newHeadLimit) :
      Step newHeadLimit s (.newHeads i) { s.set i .make with
        newHeadListeners := i :: s.newHeadListeners }
  /-- No new subscription can be created. -/
  | refuse {i : ι} (hl : s.loop = none) (hi : s.subs i = none)
      (hlimit : newHeadLimit ≤ s.newHeadListeners.length) : Step newHeadLimit s (.newHeads i) s
  | receive {i : ι} {c : Sub η} (hc : s.subs i = some c) (hg : c.goroutine = .selecting) :
      Step newHeadLimit s (.receive i) (s.set i c.receive)
  | notify {i : ι} {c : Sub η} {res : Option η} {ok : Bool} (hc : s.subs i = some c)
      (hg : c.goroutine = .notifying res) :
      Step newHeadLimit s (.notify i ok) (s.set i (c.notify res ok))
  | stop {i : ι} {c : Sub η} (hc : s.subs i = some c)
      (hg : c.goroutine = .selecting ∨ c.goroutine = .parked) :
      Step newHeadLimit s (.stop i) (s.set i c.stop)
  | leave {i : ι} {c : Sub η} (hl : s.loop = none) (hc : s.subs i = some c)
      (hg : c.goroutine = .leaving) :
      Step newHeadLimit s (.leave i) { s.set i c.leave with
        newHeadListeners := s.newHeadListeners.erase i }

/-- The headers that were taken up since the last call of `NewHeads` for a subscription. -/
def headersSince (i : ι) (τ : List (Event ι η)) : List η :=
  τ.foldl (fun hs e => match e with
    | .header h => hs ++ [h]
    | .newHeads j => if j = i then [] else hs
    | _ => hs) []

/-! ### What a subscription is notified of -/

/-- After `got`, a channel that nobody waits at has the next of the headers `hs`.  The rest is owed,
or will be missed once the channel is closed. -/
structure Carries (hs owed got rest : List η) (l : Chan η Unit) : Prop where
  headers : got ++ (l.buf ++ rest) = hs
  rest : if l.closed then rest ≠ [] else rest = owed
  idle : l.recvq = []

namespace Carries

variable {hs owed got rest : List η} {l : Chan η Unit} {h : η}

theorem header (k : Carries hs [] got rest l) (ho : l.closed = false → owed = [h]) :
    Carries (hs ++ [h]) owed got (rest ++ [h]) l where
  headers := by rw [← k.headers, List.append_assoc, List.append_assoc]
  rest := by
    have hr := k.rest
    cases hc : l.closed with
    | true => simp
    | false =>
      rw [hc] at hr
      simpa [ho hc] using hr
  idle := k.idle

theorem close (k : Carries hs [h] got rest l) (hc : l.closed = false) :
    Carries hs [] got rest l.close where
  headers := k.headers
  rest := by
    have hr : rest = [h] := by simpa [hc] using k.rest
    simp [Chan.close, hr]
  idle := rfl

theorem push (k : Carries hs [h] got rest l) (hc : l.closed = false) :
    Carries hs [] got [] { l with buf := l.buf ++ [h] } where
  headers := by
    have hr : rest = [h] := by simpa [hc] using k.rest
    rw [← k.headers, hr, List.append_nil]
  rest := by rw [hc]; rfl
  idle := k.idle

/-- A closed channel is owed nothing any more. -/
theorem of_closed (k : Carries hs owed got rest l) (hc : l.closed = true) (owed' : List η) :
    Carries hs owed' got rest l where
  headers := k.headers
  rest := by simpa [hc] using k.rest
  idle := k.idle

/-- The loop offers what it owes, and the channel has it or is closed. -/
theorem handleListener {c : Sub η} (k : Carries hs [h] got rest c.listener) :
    ∃ l rest', (c.handleListener h).1 = { c with listener := l } ∧ Carries hs [] got rest' l := by
  rcases c.handleListener_cases h with ⟨hc, e⟩ | ⟨hc, -, e | e⟩ | ⟨-, ws, hq, -⟩
  · exact ⟨_, _, by rw [e], k.of_closed hc []⟩
  · exact ⟨_, _, by rw [e], k.close hc⟩
  · exact ⟨_, _, by rw [e], k.push hc⟩
  · cases k.idle.symm.trans hq

end Carries

/-- Where a subscription is in the headers `hs` since it was made. -/
inductive Flow (hs owed : List η) : Sub η → Prop where
  | selecting {l : Chan η Unit} {got rest : List η} (k : Carries hs owed got rest l) :
      Flow hs owed ⟨l, .selecting, got.map some⟩
  | parked {l : Chan η Unit} {got : List η} (e : got ++ owed = hs) (hb : l.buf = [])
      (hc : l.closed = false) (hq : l.recvq = [()]) : Flow hs owed ⟨l, .parked, got.map some⟩
  | notifying {l : Chan η Unit} {h : η} {got rest : List η}
      (k : Carries hs owed (got ++ [h]) rest l) :
      Flow hs owed ⟨l, .notifying (some h), got.map some⟩
  | closing {l : Chan η Unit} {got rest : List η} (k : Carries hs owed got rest l)
      (hb : l.buf = []) (hc : l.closed = true) : Flow hs owed ⟨l, .notifying none, got.map some⟩
  | ended {l : Chan η Unit} {g : Goroutine η} {notified : List (Option η)} {got rest : List η}
      (e : got ++ rest = hs) (hq : l.recvq = []) (hg : g = .leaving ∨ g = .gone)
      (hn : notified = got.map some ∨ rest ≠ [] ∧ notified = got.map some ++ [none]) :
      Flow hs owed ⟨l, g, notified⟩

namespace Flow

variable {hs owed : List η} {c : Sub η} {h : η}

theorem make : Flow [] [] (Sub.make : Sub η) :=
  have k : Carries [] [] [] [] (Chan.make newHeadsListenerBuffer : Chan η Unit) := ⟨rfl, rfl, rfl⟩
  .selecting k

/-- The loop takes up a header; an open channel is owed it. -/
theorem header (f : Flow hs [] c) (ho : c.listener.closed = false → owed = [h]) :
    Flow (hs ++ [h]) owed c := by
  cases f with
  | selecting k => exact .selecting (k.header ho)
  | parked e hb hc hq =>
    refine .parked ?_ hb hc hq
    rw [← e, List.append_nil, ho hc]
  | notifying k => exact .notifying (k.header ho)
  | closing k hb hc => exact .closing (k.header ho) hb hc
  | @ended l g notified got rest e hq hg hn =>
    have e' : got ++ (rest ++ [h]) = hs ++ [h] := by rw [← e, List.append_assoc]
    refine .ended e' hq hg (hn.imp_right fun hn => ⟨?_, hn.2⟩)
    exact List.append_ne_nil_of_right_ne_nil rest (List.cons_ne_nil h [])

/-- The loop offers the header it owes. -/
theorem handleListener (f : Flow hs [h] c) : Flow hs [] (c.handleListener h).1 := by
  cases f with
  | selecting k =>
    obtain ⟨l, rest, e, k'⟩ := k.handleListener (c := ⟨_, .selecting, _⟩)
    rw [e]
    exact .selecting k'
  | notifying k =>
    obtain ⟨l, rest, e, k'⟩ := k.handleListener (c := ⟨_, .notifying _, _⟩)
    rw [e]
    exact .notifying k'
  | @parked l got e hb hc hq =>
    rw [Sub.handleListener, Chan.trySend_of_parked hc hq]
    have k : Carries hs [] (got ++ [h]) [] { l with recvq := [] } :=
      ⟨by simpa [hb] using e, by simp [hc], rfl⟩
    exact .notifying k
  | closing k hb hc =>
    rw [Sub.handleListener, Chan.trySend_of_closed hc]
    exact .closing (k.of_closed hc []) hb hc
  | @ended l g notified got rest e hq hg hn =>
    rcases Sub.handleListener_cases ⟨l, g, notified⟩ h with
      ⟨-, e'⟩ | ⟨-, -, e' | e'⟩ | ⟨-, ws, hq', -⟩
    · rw [e']
      exact .ended e hq hg hn
    · rw [e']
      exact .ended e rfl hg hn
    · rw [e']
      exact .ended e hq hg hn
    · cases hq.symm.trans hq'

theorem receive (f : Flow hs owed c) (hg : c.goroutine = .selecting) : Flow hs owed c.receive := by
  cases f with
  | @selecting l got rest k =>
    cases hb : l.buf with
    | cons x buf =>
      rw [Sub.receive, Chan.recv_of_cons hb]
      exact .notifying ⟨by simpa [hb] using k.headers, k.rest, k.idle⟩
    | nil =>
      cases hc : l.closed with
      | true =>
        rw [Sub.receive, Chan.recv_of_drained hb hc]
        exact .closing k hb hc
      | false =>
        rw [Sub.receive, Chan.recv_of_empty hb hc]
        have hr : rest = owed := by simpa [hc] using k.rest
        have e : got ++ owed = hs := by simpa [hb, hr] using k.headers
        exact .parked e hb hc (by simp [k.idle])
  | parked | notifying | closing => cases hg
  | ended _ _ hend => rcases hend with rfl | rfl <;> cases hg

theorem notify {res : Option η} (f : Flow hs owed c) (hg : c.goroutine = .notifying res)
    (ok : Bool) : Flow hs owed (c.notify res ok) := by
  cases f with
  | @notifying l x got rest k =>
    cases hg
    cases ok with
    | true =>
      have f' := Flow.selecting k
      rwa [List.map_append] at f'
    | false =>
      have e : got ++ (x :: (l.buf ++ rest)) = hs := by simpa using k.headers
      exact .ended e k.idle (.inl rfl) (.inl rfl)
  | @closing l got rest k hb hc =>
    cases hg
    have e : got ++ rest = hs := by simpa [hb] using k.headers
    have hr : rest ≠ [] := by simpa [hc] using k.rest
    cases ok with
    | true => exact .ended e k.idle (.inl rfl) (.inr ⟨hr, rfl⟩)
    | false => exact .ended e k.idle (.inl rfl) (.inl rfl)
  | selecting | parked => cases hg
  | ended _ _ hend => rcases hend with rfl | rfl <;> cases hg

theorem stop (f : Flow hs owed c) (hg : c.goroutine = .selecting ∨ c.goroutine = .parked) :
    Flow hs owed c.stop := by
  cases f with
  | selecting k => exact .ended k.headers rfl (.inl rfl) (.inl rfl)
  | parked e => exact .ended e rfl (.inl rfl) (.inl rfl)
  | notifying | closing => rcases hg with hg | hg <;> cases hg
  | ended _ _ hend => rcases hend with rfl | rfl <;> rcases hg with hg | hg <;> cases hg

theorem leave (f : Flow hs owed c) (hg : c.goroutine = .leaving) : Flow hs owed c.leave := by
  cases f with
  | selecting | parked | notifying | closing => cases hg
  | ended e hq _ hn => exact .ended e rfl (.inr rfl) hn

end Flow

/-! ### Who is registered -/

/-- The map and the subscriptions agree: who is registered has a goroutine to unregister it, an open
channel is registered, and the loop goes once over registered channels and drops closed ones. -/
structure Registered (newHeadLimit : Nat) (s : SubscriptionAPI ι η) : Prop where
  nodup : s.newHeadListeners.Nodup
  bounded : s.newHeadListeners.length ≤ newHeadLimit
  served : ∀ i ∈ s.newHeadListeners, ∃ c, s.subs i = some c ∧ c.goroutine ≠ .gone
  listed : ∀ i c, s.subs i = some c → c.listener.closed = false → i ∈ s.newHeadListeners
  loop : ∀ o, s.loop = some o → o.rest.Nodup ∧ o.rest ⊆ s.newHeadListeners ∧
    ∀ i ∈ o.toDelete, ∀ c, s.subs i = some c → c.listener.closed = true

variable {newHeadLimit : Nat} {s s' : SubscriptionAPI ι η} {i j : ι} {c c' : Sub η}

theorem SubscriptionAPI.set_self (s : SubscriptionAPI ι η) (i : ι) (c : Sub η) :
    (s.set i c).subs i = some c := Function.update_self ..

theorem SubscriptionAPI.set_of_ne (s : SubscriptionAPI ι η) (c : Sub η) (h : j ≠ i) :
    (s.set i c).subs j = s.subs j := Function.update_of_ne h ..

/-- Who is found after a subscription moved: itself, or another one that did not. -/
theorem SubscriptionAPI.set_cases {d : Sub η} (h : (s.set i c).subs j = some d) :
    (j = i ∧ c = d) ∨ (j ≠ i ∧ s.subs j = some d) := by
  by_cases e : j = i
  · rw [e, s.set_self] at h
    exact .inl ⟨e, Option.some_inj.mp h⟩
  · rw [s.set_of_ne c e] at h
    exact .inr ⟨e, h⟩

namespace Registered

/-- A subscription moves that does not go, and whose channel is not opened. -/
theorem set (r : Registered newHeadLimit s) (hc : s.subs i = some c) (hg : c'.goroutine ≠ .gone)
    (ho : c'.listener.closed = false → c.listener.closed = false) :
    Registered newHeadLimit (s.set i c') where
  nodup := r.nodup
  bounded := r.bounded
  served j hj := by
    by_cases e : j = i
    · exact ⟨c', by rw [e, s.set_self], hg⟩
    · rw [s.set_of_ne c' e]
      exact r.served j hj
  listed j d hd hopen := by
    rcases s.set_cases hd with ⟨rfl, rfl⟩ | ⟨-, hd⟩
    · exact r.listed j c hc (ho hopen)
    · exact r.listed j d hd hopen
  loop o hl := by
    obtain ⟨honce, hoffered, hdropped⟩ := r.loop o hl
    refine ⟨honce, hoffered, fun j hj d hd => ?_⟩
    rcases s.set_cases hd with ⟨rfl, rfl⟩ | ⟨-, hd⟩
    · have hclosed := hdropped j hj c hc
      by_contra hopen
      rw [ho (Bool.eq_false_iff.mpr hopen)] at hclosed
      cases hclosed
    · exact hdropped j hj d hd

omit [DecidableEq ι] in
/-- Nobody is registered without a subscription. -/
theorem unlisted (r : Registered newHeadLimit s) (hi : s.subs i = none) :
    i ∉ s.newHeadListeners := by
  intro h
  obtain ⟨c, hc, -⟩ := r.served i h
  cases hi.symm.trans hc

end Registered

/-- An offer neither ends a goroutine nor opens a channel, and a refused one leaves it closed. -/
theorem Sub.handleListener_keeps (c : Sub η) (h : η) (hg : c.goroutine ≠ .gone) :
    (c.handleListener h).1.goroutine ≠ .gone ∧
    ((c.handleListener h).1.listener.closed = false → c.listener.closed = false) ∧
    ((c.handleListener h).2 = false → (c.handleListener h).1.listener.closed = true) := by
  rcases c.handleListener_cases h with ⟨hc, e⟩ | ⟨hc, -, e | e⟩ | ⟨hc, ws, -, e⟩ <;>
    rw [e]
  · exact ⟨hg, id, fun _ => hc⟩
  · exact ⟨hg, fun _ => hc, fun _ => rfl⟩
  · exact ⟨hg, fun _ => hc, fun h => by cases h⟩
  · exact ⟨by simp, fun _ => hc, fun h => by cases h⟩

theorem Sub.receive_keeps (c : Sub η) :
    c.receive.goroutine ≠ .gone ∧ c.receive.listener.closed = c.listener.closed := by
  unfold Sub.receive Chan.recv
  cases c.listener.buf with
  | cons => exact ⟨by simp, rfl⟩
  | nil => cases hc : c.listener.closed <;> simp [hc]

theorem Sub.notify_keeps (c : Sub η) (res : Option η) (ok : Bool) :
    (c.notify res ok).goroutine ≠ .gone := by
  unfold Sub.notify
  split <;> simp

/-- What a move does to the registrations. -/
theorem Step.registered {e : Event ι η} (h : Step newHeadLimit s e s')
    (r : Registered newHeadLimit s) : Registered newHeadLimit s' := by
  cases h with
  | @header h order hl hp =>
    exact {
      nodup := r.nodup
      bounded := r.bounded
      served := r.served
      listed := r.listed
      loop := by
        rintro o ⟨⟩
        exact ⟨hp.nodup_iff.mpr r.nodup, hp.subset, fun i hi => by cases hi⟩ }
  | @offer h i rest toDelete c hl hc =>
    obtain ⟨honce, hoffered, -⟩ := r.loop _ hl
    obtain ⟨d, hd, hgone⟩ := r.served i (hoffered (List.mem_cons_self ..))
    obtain rfl : c = d := Option.some_inj.mp (hc.symm.trans hd)
    obtain ⟨hg, ho, hrefused⟩ := c.handleListener_keeps h hgone
    have r' := r.set hc hg ho
    obtain ⟨-, -, hdropped⟩ := r'.loop _ hl
    exact {
      nodup := r'.nodup
      bounded := r'.bounded
      served := r'.served
      listed := r'.listed
      loop := by
        rintro o ⟨⟩
        refine ⟨(List.nodup_cons.mp honce).2, fun j hj => hoffered (List.mem_cons_of_mem i hj), ?_⟩
        intro j hj d hd
        by_cases hmem : j ∈ toDelete
        · exact hdropped j hmem d hd
        · cases hok : (c.handleListener h).2 with
          | true => exact absurd (by simpa [hok] using hj) hmem
          | false =>
            obtain rfl : j = i := by simpa [hok, hmem] using hj
            obtain rfl := Option.some_inj.mp ((s.set_self j _).symm.trans hd)
            exact hrefused hok }
  | @unlock h toDelete hl =>
    exact {
      nodup := r.nodup.filter _
      bounded := Nat.le_trans (List.length_filter_le ..) r.bounded
      served := fun i hi => r.served i (List.mem_filter.mp hi).1
      listed := by
        intro i c hc hopen
        refine List.mem_filter.mpr ⟨r.listed i c hc hopen, ?_⟩
        rw [decide_eq_true_iff]
        intro hdel
        rw [(r.loop _ hl).2.2 i hdel c hc] at hopen
        cases hopen
      loop := by rintro o ⟨⟩ }
  | @newHeads i hl hi hlimit =>
    have hnew := r.unlisted hi
    exact {
      nodup := List.nodup_cons.mpr ⟨hnew, r.nodup⟩
      bounded := hlimit
      served := by
        intro j hj
        by_cases e : j = i
        · exact ⟨.make, by rw [e, s.set_self], by simp [Sub.make]⟩
        · rw [s.set_of_ne _ e]
          exact r.served j (List.mem_of_ne_of_mem e hj)
      listed := by
        intro j c hc hopen
        rcases s.set_cases hc with ⟨rfl, -⟩ | ⟨-, hc⟩
        · exact List.mem_cons_self ..
        · exact List.mem_cons_of_mem i (r.listed j c hc hopen)
      loop := fun o h => by cases hl.symm.trans h }
  | refuse => exact r
  | @receive i c hc hg => exact r.set hc c.receive_keeps.1 fun h => c.receive_keeps.2 ▸ h
  | @notify i c res ok hc hg => exact r.set hc (c.notify_keeps res ok) id
  | @stop i c hc hg => exact r.set hc (by simp [Sub.stop]) id
  | @leave i c hl hc hg =>
    exact {
      nodup := r.nodup.erase i
      bounded := Nat.le_trans List.length_erase_le r.bounded
      served := by
        intro j hj
        obtain ⟨e, hj⟩ := (r.nodup.mem_erase_iff).mp hj
        rw [s.set_of_ne _ e]
        exact r.served j hj
      listed := by
        intro j d hd hopen
        rcases s.set_cases hd with ⟨rfl, rfl⟩ | ⟨e, hd⟩
        · cases hopen
        · exact (List.mem_erase_of_ne e).mpr (r.listed j d hd hopen)
      loop := fun o h => by cases hl.symm.trans h }

/-! ### Whole runs -/

@[simp] theorem headersSince_nil (i : ι) : headersSince i ([] : List (Event ι η)) = [] := rfl

theorem headersSince_snoc (i : ι) (τ : List (Event ι η)) (e : Event ι η) :
    headersSince i (τ ++ [e]) = match e with
      | .header h => headersSince i τ ++ [h]
      | .newHeads j => if j = i then [] else headersSince i τ
      | _ => headersSince i τ := by
  rw [headersSince, List.foldl_append]
  rfl

/-- After the events `τ` every subscription is where it should be. -/
def Flows (τ : List (Event ι η)) (s : SubscriptionAPI ι η) : Prop :=
  ∀ i c, s.subs i = some c → Flow (headersSince i τ) (s.owed i) c

namespace Flows

variable {τ : List (Event ι η)}

/-- One subscription moves, the others wait. -/
theorem set {τ' : List (Event ι η)} {o : Option (Offering ι η)} {ls : List ι} (f : Flows τ s)
    (hf : Flow (headersSince i τ') (({ s with loop := o } : SubscriptionAPI ι η).owed i) c)
    (hτ : ∀ j, j ≠ i → headersSince j τ' = headersSince j τ)
    (ho : ∀ j, j ≠ i → ({ s with loop := o } : SubscriptionAPI ι η).owed j = s.owed j) :
    Flows τ' { s.set i c with newHeadListeners := ls, loop := o } := by
  intro j d hd
  rcases s.set_cases hd with ⟨rfl, rfl⟩ | ⟨e, hd⟩
  · exact hf
  · have hj := f j d hd
    rw [← hτ j e, ← ho j e] at hj
    exact hj

/-- A goroutine moves; no header is taken up. -/
theorem move {e : Event ι η} {ls : List ι} (f : Flows τ s)
    (he : ∀ j, headersSince j (τ ++ [e]) = headersSince j τ)
    (hf : Flow (headersSince i τ) (s.owed i) c) :
    Flows (τ ++ [e]) { s.set i c with newHeadListeners := ls } :=
  f.set (o := s.loop) ((he i).symm ▸ hf) (fun j _ => he j) fun _ _ => rfl

end Flows

/-- What a move does to what the subscriptions are notified of. -/
theorem Step.flows {e : Event ι η} {τ : List (Event ι η)} (h : Step newHeadLimit s e s')
    (r : Registered newHeadLimit s) (f : Flows τ s) : Flows (τ ++ [e]) s' := by
  cases h with
  | @header h order hl hp =>
    intro i c hc
    have hi := f i c hc
    rw [headersSince_snoc]
    rw [SubscriptionAPI.owed, hl] at hi
    refine hi.header fun hopen => ?_
    exact if_pos (hp.mem_iff.mpr (r.listed i c hc hopen))
  | @offer h i rest toDelete c hl hc =>
    have hi := f i c hc
    have hnot : i ∉ rest := (List.nodup_cons.mp (r.loop _ hl).1).1
    rw [SubscriptionAPI.owed, hl] at hi
    simp only [List.mem_cons, true_or, if_true] at hi
    refine f.set ?_ (fun j _ => headersSince_snoc ..) fun j hj => ?_
    · rw [headersSince_snoc]
      simpa [SubscriptionAPI.owed, hnot] using hi.handleListener
    · simp [SubscriptionAPI.owed, hl, hj]
  | @unlock h toDelete hl =>
    intro i c hc
    have hi := f i c hc
    rw [SubscriptionAPI.owed, hl] at hi
    rw [headersSince_snoc]
    exact hi
  | @newHeads i hl hi hlimit =>
    refine f.set (o := s.loop) ?_ (fun j hj => ?_) fun _ _ => rfl
    · rw [headersSince_snoc, SubscriptionAPI.owed, hl]
      simpa using Flow.make
    · rw [headersSince_snoc]
      exact if_neg hj.symm
  | @refuse i hl hi hlimit =>
    intro j c hc
    have hne : i ≠ j := by
      rintro rfl
      cases hi.symm.trans hc
    rw [headersSince_snoc]
    simpa [hne] using f j c hc
  | @receive i c hc hg => exact f.move (headersSince_snoc · τ _) ((f i c hc).receive hg)
  | @notify i c res ok hc hg => exact f.move (headersSince_snoc · τ _) ((f i c hc).notify hg ok)
  | @stop i c hc hg => exact f.move (headersSince_snoc · τ _) ((f i c hc).stop hg)
  | @leave i c hl hc hg => exact f.move (headersSince_snoc · τ _) ((f i c hc).leave hg)

omit [DecidableEq ι] in
theorem registered_started : Registered newHeadLimit (started : SubscriptionAPI ι η) where
  nodup := List.nodup_nil
  bounded := Nat.zero_le _
  served i hi := by cases hi
  listed i c hc := by cases hc
  loop o ho := by cases ho

/-- Both hold along every run. -/
theorem run_sound {τ : List (Event ι η)} (ht : Trace (Step newHeadLimit) started τ s) :
    Registered newHeadLimit s ∧ Flows τ s := by
  refine ht.invariant (I := fun τ s => Registered newHeadLimit s ∧ Flows τ s) ?_ ?_
  · exact ⟨registered_started, fun i c hc => by cases hc⟩
  · rintro τ s e s' ⟨r, f⟩ h
    exact ⟨h.registered r, h.flows r f⟩

/-- **Every subscription is notified in order**, without a gap and without a repetition, of the
headers since it was made; of a nil header only at the end, and then it misses one.  While its
channel is open and the loop is not at work, nothing is missing. -/
theorem newHeads_inOrder {τ : List (Event ι η)} (ht : Trace (Step newHeadLimit) started τ s)
    (hc : s.subs i = some c) :
    (∃ got rest, got ++ rest = headersSince i τ ∧
      (c.notified = got.map some ∨ rest ≠ [] ∧ c.notified = got.map some ++ [none])) ∧
    (c.listener.closed = false → c.goroutine ≠ .leaving → s.loop = none →
      c.notified ++ (c.goroutine.inHand ++ c.listener.buf).map some =
        (headersSince i τ).map some) := by
  obtain ⟨r, f⟩ := run_sound ht
  have hi := f i c hc
  have hlisted := r.listed i c hc
  have hserved := r.served i
  refine ⟨?_, fun hopen hleave hl => ?_⟩
  · cases hi with
    | selecting k => exact ⟨_, _, k.headers, .inl rfl⟩
    | parked e => exact ⟨_, _, e, .inl rfl⟩
    | notifying k => exact ⟨_, _, by simpa using k.headers, .inl rfl⟩
    | closing k => exact ⟨_, _, k.headers, .inl rfl⟩
    | ended e _ _ hn => exact ⟨_, _, e, hn⟩
  · have howed : s.owed i = [] := by rw [SubscriptionAPI.owed, hl]
    rw [howed] at hi
    cases hi with
    | @selecting l got rest k =>
      have hr : rest = [] := by simpa [show l.closed = false from hopen] using k.rest
      simp [← k.headers, hr, Goroutine.inHand]
    | parked e hb => simp [← e, hb, Goroutine.inHand]
    | @notifying l x got rest k =>
      have hr : rest = [] := by simpa [show l.closed = false from hopen] using k.rest
      simp [← k.headers, hr, Goroutine.inHand]
    | closing k hb hclosed => cases hopen.symm.trans hclosed
    | ended e hq hg hn =>
      rcases hg with rfl | rfl
      · exact absurd rfl hleave
      · -- a goroutine that is gone has closed its channel
        obtain ⟨d, hd, hgone⟩ := hserved (hlisted hopen)
        obtain rfl := Option.some_inj.mp (hc.symm.trans hd)
        exact absurd rfl hgone

/-- A subscription is made and gets one header. -/
theorem oneHeader :
    ∃ s, Trace (Step 1) (started : SubscriptionAPI Nat Nat)
        [.newHeads 0, .header 7, .offer, .unlock, .receive 0, .notify 0 true] s ∧
      s.subs 0 = some ⟨⟨10, [], false, []⟩, .selecting, [some 7]⟩ ∧ s.loop = none := by
  have hmade : Trace (Step 1) (started : SubscriptionAPI Nat Nat) [.newHeads 0] _ :=
    Trace.nil.snoc (.newHeads rfl rfl (by decide))
  have hheader := hmade.snoc (.header (h := 7) rfl (.refl _))
  have hunlocked := (hheader.snoc (.offer rfl rfl)).snoc (.unlock rfl)
  have hreceived := hunlocked.snoc (.receive (i := 0) rfl rfl)
  exact ⟨_, hreceived.snoc (.notify (c := ⟨_, .notifying (some 7), []⟩) rfl rfl), rfl, rfl⟩

theorem newHeads_inOrder_oneHeader :
    ∃ s c, Trace (Step 1) (started : SubscriptionAPI Nat Nat)
        [.newHeads 0, .header 7, .offer, .unlock, .receive 0, .notify 0 true] s ∧
      s.subs 0 = some c ∧ c.notified = [some 7] ∧
      ∃ got rest, got ++ rest = [7] ∧
        (c.notified = got.map some ∨ rest ≠ [] ∧ c.notified = got.map some ++ [none]) := by
  obtain ⟨s, ht, hc, hl⟩ := oneHeader
  exact ⟨s, _, ht, hc, rfl, (newHeads_inOrder ht hc).1⟩

/-- **The subscriptions stay within the limit**, and so do the open channels; who is gone is not
registered, and its channel is closed. -/
theorem newHeads_bounded {τ : List (Event ι η)} (ht : Trace (Step newHeadLimit) started τ s) :
    s.newHeadListeners.Nodup ∧ s.newHeadListeners.length ≤ newHeadLimit ∧
    (∀ is : List ι, is.Nodup →
      (∀ i ∈ is, ∃ c, s.subs i = some c ∧ c.listener.closed = false) →
      is.length ≤ newHeadLimit) ∧
    ∀ i c, s.subs i = some c → c.goroutine = .gone →
      i ∉ s.newHeadListeners ∧ c.listener.closed = true := by
  obtain ⟨r, -⟩ := run_sound ht
  have hgone : ∀ i c, s.subs i = some c → c.goroutine = .gone → i ∉ s.newHeadListeners := by
    intro i c hc hg hi
    obtain ⟨d, hd, hd'⟩ := r.served i hi
    obtain rfl := Option.some_inj.mp (hc.symm.trans hd)
    exact hd' hg
  refine ⟨r.nodup, r.bounded, fun is hn hopen => ?_, fun i c hc hg => ⟨hgone i c hc hg, ?_⟩⟩
  · have hsub : is ⊆ s.newHeadListeners := by
      intro i hi
      obtain ⟨c, hc, ho⟩ := hopen i hi
      exact r.listed i c hc ho
    exact Nat.le_trans (List.Nodup.subperm hn hsub).length_le r.bounded
  · by_contra ho
    exact hgone i c hc hg (r.listed i c hc (Bool.eq_false_iff.mpr ho))

theorem newHeads_bounded_oneHeader :
    ∃ s : SubscriptionAPI Nat Nat, (∃ c, s.subs 0 = some c) ∧ s.newHeadListeners.length ≤ 1 := by
  obtain ⟨s, ht, hc, -⟩ := oneHeader
  exact ⟨s, ⟨_, hc⟩, (newHeads_bounded ht).2.1⟩

end Step

end Tabi.Rpc.NewHeads
