/-
# One data tunnel, many services

The server side of a multiplexed data tunnel (`upgrade_to_tunnel` and `route_tunnel_stream` in
`core/server.rs`, `run_server_tunnel` in `transport/multiplex.rs`).  The tunnel's driver accepts
the streams the client opens and puts them into a bounded bridge; one loop takes them from there,
reads the prologue that names a service, looks the service up in the session, and hands the
stream to the service's queue.  A stream that names no service of the session is dropped, and
the loop goes on.  A hand-off to a queue whose receiver is gone ends the loop.

A service's queue loses its receiver while the session still has the service's handle: its pool
died and the client has not re-registered it yet, or it is deregistered between the lookup and
the hand-off.  One stream for it then ends the tunnel for every other service.

The results: where no stream of another service meets such a queue, what happens to the streams
of a service is what happens on a tunnel that carries no others (`tunnel_isolation`); where one
does, nothing is routed ever after (`ended_forever`, `sibling_stopped`).
-/
import Mathlib.Logic.Function.Basic
import Molehill.Lib.Table
import Molehill.Lib.Transition

namespace Molehill.Server

open Lib Function

/-! ## 1. The state -/

/-- A service's id on its session. -/
abbrev ServiceId := Nat

/-- A stream the client opened; its prologue names a service, unless the stream ended before
it. -/
structure Stream where
  tag : Nat
  service : Option ServiceId
  deriving DecidableEq

/-- The stream's prologue names this service. -/
def Stream.names (b : ServiceId) (x : Stream) : Bool := x.service = some b

/-- A service's data-channel queue: what waits in it, and whether its receiver still exists. -/
structure Queue where
  waiting : List Stream
  receiver : Bool
  deriving DecidableEq

/-- Where the bridge loop stands. -/
inductive Task
  | idle
  /-- Past the lookup: handing the stream to the queue. -/
  | sending (x : Stream) (queue : Nat)
  | ended
  deriving DecidableEq

/-- What the loop did with a stream. -/
inductive Fate
  | dropped
  | handed (queue : Nat)
  | refused (queue : Nat)
  deriving DecidableEq

/-- The tunnel and the session it routes for.  `arrived` and `log` record, for the statements,
the streams the driver accepted and what the loop did with each. -/
structure Tunnel where
  services : Table ServiceId Nat
  queues : Nat → Queue
  nextQueue : Nat
  driving : Bool
  bridge : List Stream
  task : Task
  arrived : List Stream
  log : List (Stream × Fate)

/-- A tunnel that has just been upgraded, on a session without services. -/
def Tunnel.new : Tunnel :=
  { services := ∅, queues := fun _ => ⟨[], false⟩, nextQueue := 0, driving := true, bridge := [],
    task := .idle, arrived := [], log := [] }

/-- The capacity of the bridge. -/
def bridgeCap : Nat := 64

/-- The capacity of a service's queue, `CHAN_SIZE * 2`. -/
def queueCap : Nat := 4096

/-- What happens next on the tunnel or in the session. -/
inductive TunnelEvent
  /-- The driver accepts a stream. -/
  | arrive (x : Stream)
  /-- The loop takes a stream from the bridge, reads its prologue and looks the service up. -/
  | take
  /-- The hand-off completes. -/
  | handOff
  /-- A service's pool takes a channel from its queue. -/
  | consume (queue : Nat)
  /-- A service is registered, with a queue of its own. -/
  | register (id : ServiceId)
  /-- The session forgets a service's handle. -/
  | deregister (id : ServiceId)
  /-- A service's pool ends, and with it the queue's receiver. -/
  | close (queue : Nat)
  /-- The driver stops: the connection or the session ended. -/
  | disconnect
  deriving DecidableEq

/-! ## 2. The step -/

namespace Tunnel

/-- `run_server_tunnel`, for one accepted stream. -/
def arrive (s : Tunnel) (x : Stream) : Option Tunnel :=
  if s.driving then
    match s.task with
    -- the bridge's receiver is gone: the driver breaks, and the connection with it
    | .ended => some { s with driving := false, arrived := s.arrived ++ [x] }
    | _ =>
      if s.bridge.length < bridgeCap then
        some { s with bridge := s.bridge ++ [x], arrived := s.arrived ++ [x] }
      else none
  else none

/-- `route_tunnel_stream`: the queue of the service the stream names. -/
def routeTunnelStream (s : Tunnel) (x : Stream) : Option Nat := x.service.bind s.services.lookup

/-- The loop takes one stream and routes it. -/
def take (s : Tunnel) : Option Tunnel :=
  match s.task, s.bridge with
  | .idle, x :: rest =>
    match s.routeTunnelStream x with
    | none => some { s with bridge := rest, log := s.log ++ [(x, .dropped)] }
    | some q => some { s with bridge := rest, task := .sending x q }
  | _, _ => none

/-- `queue.send(..)`: waits while the queue is full, and fails where the receiver is gone. -/
def handOff (s : Tunnel) : Option Tunnel :=
  match s.task with
  | .sending x q =>
    if (s.queues q).receiver then
      if (s.queues q).waiting.length < queueCap then
        some
          { s with
            task := .idle
            queues := update s.queues q { s.queues q with waiting := (s.queues q).waiting ++ [x] }
            log := s.log ++ [(x, .handed q)] }
      else none
    else some { s with task := .ended, bridge := [], log := s.log ++ [(x, .refused q)] }
  | _ => none

/-- A pool takes the first channel of its queue. -/
def consume (s : Tunnel) (q : Nat) : Option Tunnel :=
  match (s.queues q).waiting with
  | [] => none
  | _ :: rest => some { s with queues := update s.queues q { s.queues q with waiting := rest } }

/-- A step of the tunnel. -/
def step (s : Tunnel) : TunnelEvent → Option Tunnel
  | .arrive x => s.arrive x
  | .take => s.take
  | .handOff => s.handOff
  | .consume q => s.consume q
  | .register id =>
    some
      { s with
        services := s.services.insert id s.nextQueue
        queues := update s.queues s.nextQueue ⟨[], true⟩
        nextQueue := s.nextQueue + 1 }
  | .deregister id => some { s with services := s.services.erase id }
  | .close q => some { s with queues := update s.queues q ⟨[], false⟩ }
  | .disconnect => some { s with driving := false }

end Tunnel

/-- The runs of a tunnel. -/
def tunnel : Lts Tunnel TunnelEvent where
  init s := s = .new
  step s e s' := s.step e = some s'

/-! ## 3. A tunnel with only one service's streams -/

/-- Only streams of the service arrive. -/
def StreamsOf (b : ServiceId) (_ : Tunnel) (e : TunnelEvent) : Prop :=
  ∀ x, e = .arrive x → x.names b = true

/-- The step does not hand a stream of another service to a queue without a receiver. -/
def HandsOffWell (b : ServiceId) (s : Tunnel) (e : TunnelEvent) : Prop :=
  e = .handOff → ∀ x q, s.task = .sending x q → x.names b = false → (s.queues q).receiver = true

/-- The queue without the streams of other services. -/
def Queue.only (b : ServiceId) (q : Queue) : Queue :=
  { q with waiting := q.waiting.filter (·.names b) }

/-- The loop, when it is busy with another service's stream, is idle for this one. -/
def Task.only (b : ServiceId) : Task → Task
  | .idle => .idle
  | .sending x q => if x.names b then .sending x q else .idle
  | .ended => .ended

/-- **The two tunnels agree on the service**: `t` is `s` without the streams of other services.
(The driver of `t` may still run where that of `s` stopped.) -/
structure Matches (b : ServiceId) (s t : Tunnel) : Prop where
  services : t.services = s.services
  queues : t.queues = fun q => (s.queues q).only b
  nextQueue : t.nextQueue = s.nextQueue
  driving : s.driving = true → t.driving = true
  bridge : t.bridge = s.bridge.filter (·.names b)
  task : t.task = s.task.only b
  arrived : t.arrived = s.arrived.filter (·.names b)
  log : t.log = s.log.filter fun e => e.1.names b

/-! ## 4. Every step is answered

A step on a stream of another service is answered by no step at all; every other step is
answered by itself. -/

theorem Queue.only_push_of_names {b : ServiceId} {x : Stream} (q : Queue)
    (hx : x.names b = true) :
    ({ q with waiting := q.waiting ++ [x] } : Queue).only b
      = { q.only b with waiting := (q.only b).waiting ++ [x] } := by
  simp [Queue.only, List.filter_append, hx]

theorem Queue.only_push_of_not_names {b : ServiceId} {x : Stream} (q : Queue)
    (hx : x.names b = false) :
    ({ q with waiting := q.waiting ++ [x] } : Queue).only b = q.only b := by
  simp [Queue.only, List.filter_append, hx]

/-- Dropping the other services' streams commutes with replacing one queue. -/
theorem only_update {b : ServiceId} (queues : Nat → Queue) (q : Nat) (new : Queue) :
    (fun i => (update queues q new i).only b)
      = update (fun i => (queues i).only b) q (new.only b) := by
  funext i
  by_cases hi : i = q
  · subst hi
    rw [update_self, update_self]
  · rw [update_of_ne hi, update_of_ne hi]

theorem Task.only_eq_ended {b : ServiceId} {task : Task} (h : task.only b = .ended) :
    task = .ended := by
  cases task with
  | idle => cases h
  | sending x q =>
    rw [Task.only] at h
    split at h <;> cases h
  | ended => rfl

namespace Matches

variable {b : ServiceId} {s s' t : Tunnel}

/-- The driver accepts a stream. -/
theorem arrive (h : Matches b s t) {x : Stream} (hs : s.arrive x = some s') :
    (x.names b = true ∧ ∃ t', t.arrive x = some t' ∧ Matches b s' t') ∨ Matches b s' t := by
  unfold Tunnel.arrive at hs
  split at hs
  case isFalse => cases hs
  case isTrue hd =>
    have htd := h.driving hd
    split at hs
    case h_1 hended =>
      cases hs
      have htask : t.task = .ended := by rw [h.task, hended]; rfl
      cases hx : x.names b with
      | false =>
        right
        exact { h with
          driving := by rintro ⟨⟩
          arrived := by simp [h.arrived, List.filter_append, hx] }
      | true =>
        left
        refine ⟨rfl, { t with driving := false, arrived := t.arrived ++ [x] },
          by simp [Tunnel.arrive, htd, htask], ?_⟩
        exact { h with
          driving := by rintro ⟨⟩
          arrived := by simp [h.arrived, List.filter_append, hx] }
    case h_2 hne =>
      split at hs
      case isFalse => cases hs
      case isTrue hlen =>
        cases hs
        cases hx : x.names b with
        | false =>
          right
          exact { h with
            bridge := by simp [h.bridge, List.filter_append, hx]
            arrived := by simp [h.arrived, List.filter_append, hx] }
        | true =>
          left
          have hroom : t.bridge.length < bridgeCap := by
            rw [h.bridge]
            exact Nat.lt_of_le_of_lt (List.length_filter_le _ _) hlen
          have hnot : t.task ≠ .ended := fun hended =>
            hne (Task.only_eq_ended (h.task.symm.trans hended))
          refine ⟨rfl, { t with bridge := t.bridge ++ [x], arrived := t.arrived ++ [x] }, ?_, ?_⟩
          · rw [Tunnel.arrive, if_pos htd]
            split
            case h_1 hended => exact absurd hended hnot
            case h_2 => rw [if_pos hroom]
          · exact { h with
              bridge := by simp [h.bridge, List.filter_append, hx]
              arrived := by simp [h.arrived, List.filter_append, hx] }

/-- Routing reads the session only. -/
theorem routeTunnelStream (h : Matches b s t) (x : Stream) :
    t.routeTunnelStream x = s.routeTunnelStream x := by
  rw [Tunnel.routeTunnelStream, Tunnel.routeTunnelStream, h.services]

/-- The loop takes a stream: the other services' are invisible to this one. -/
theorem take (h : Matches b s t) (hs : s.take = some s') :
    (∃ t', t.take = some t' ∧ Matches b s' t') ∨ Matches b s' t := by
  unfold Tunnel.take at hs
  split at hs
  case h_2 => cases hs
  case h_1 x rest htask hbridge =>
    have httask : t.task = .idle := by rw [h.task, htask]; rfl
    cases hx : x.names b with
    | false =>
      right
      have htb : t.bridge = rest.filter (·.names b) := by simp [h.bridge, hbridge, hx]
      split at hs
      · cases hs
        exact { h with bridge := htb, log := by simp [h.log, List.filter_append, hx] }
      · cases hs
        exact { h with bridge := htb, task := by simp [httask, Task.only, hx] }
    | true =>
      left
      have htb : t.bridge = x :: rest.filter (·.names b) := by simp [h.bridge, hbridge, hx]
      split at hs
      case h_1 hroute =>
        cases hs
        refine ⟨{ t with bridge := rest.filter (·.names b), log := t.log ++ [(x, .dropped)] },
          ?_, ?_⟩
        · simp [Tunnel.take, httask, htb, h.routeTunnelStream, hroute]
        · exact { h with bridge := rfl, log := by simp [h.log, List.filter_append, hx] }
      case h_2 q hroute =>
        cases hs
        refine ⟨{ t with bridge := rest.filter (·.names b), task := .sending x q }, ?_, ?_⟩
        · simp [Tunnel.take, httask, htb, h.routeTunnelStream, hroute]
        · exact { h with bridge := rfl, task := by simp [Task.only, hx] }

/-- The hand-off: that of another service's stream must succeed, and then it fills a queue this
service does not see. -/
theorem handOff (h : Matches b s t) (hc : HandsOffWell b s .handOff)
    (hs : s.handOff = some s') :
    (∃ t', t.handOff = some t' ∧ Matches b s' t') ∨ Matches b s' t := by
  unfold Tunnel.handOff at hs
  split at hs
  case h_2 => cases hs
  case h_1 x q htask =>
    cases hx : x.names b with
    | false =>
      right
      have httask : t.task = .idle := by simp [h.task, htask, Task.only, hx]
      rw [if_pos (hc rfl x q htask hx)] at hs
      split at hs
      case isFalse => cases hs
      case isTrue =>
        cases hs
        exact { h with
          task := httask
          queues := by
            rw [only_update, Queue.only_push_of_not_names _ hx, h.queues]
            exact (update_eq_self q _).symm
          log := by simp [h.log, List.filter_append, hx] }
    | true =>
      left
      have httask : t.task = .sending x q := by simp [h.task, htask, Task.only, hx]
      have hqueue : t.queues q = (s.queues q).only b := by rw [h.queues]
      split at hs
      case isFalse hrecv =>
        cases hs
        refine ⟨{ t with task := .ended, bridge := [], log := t.log ++ [(x, .refused q)] },
          ?_, ?_⟩
        · simp only [Tunnel.handOff, httask, hqueue]
          exact if_neg hrecv
        · exact { h with
            task := rfl
            bridge := rfl
            log := by simp [h.log, List.filter_append, hx] }
      case isTrue hrecv =>
        split at hs
        case isFalse => cases hs
        case isTrue hlen =>
          cases hs
          have hroom : ((s.queues q).only b).waiting.length < queueCap :=
            Nat.lt_of_le_of_lt (List.length_filter_le _ _) hlen
          refine ⟨{ t with
            task := .idle
            queues := update t.queues q
              { t.queues q with waiting := (t.queues q).waiting ++ [x] }
            log := t.log ++ [(x, .handed q)] }, ?_, ?_⟩
          · simp only [Tunnel.handOff, httask, hqueue]
            exact (if_pos hrecv).trans (if_pos hroom)
          · exact { h with
              task := rfl
              queues := by rw [only_update, Queue.only_push_of_names _ hx, hqueue, h.queues]
              log := by simp [h.log, List.filter_append, hx] }

/-- A pool takes a channel: of this service, or of another. -/
theorem consume (h : Matches b s t) {q : Nat} (hs : s.consume q = some s') :
    (∃ t', t.consume q = some t' ∧ Matches b s' t') ∨ Matches b s' t := by
  unfold Tunnel.consume at hs
  split at hs
  case h_1 => cases hs
  case h_2 x rest hwait =>
    cases hs
    have hqueue : t.queues q = (s.queues q).only b := by rw [h.queues]
    cases hx : x.names b with
    | false =>
      right
      have hsame : ({ s.queues q with waiting := rest } : Queue).only b = (s.queues q).only b := by
        simp [Queue.only, hwait, hx]
      exact { h with
        queues := by
          rw [only_update, hsame, h.queues]
          exact (update_eq_self q _).symm }
    | true =>
      left
      have htw : (t.queues q).waiting = x :: rest.filter (·.names b) := by
        simp [hqueue, Queue.only, hwait, hx]
      refine ⟨{ t with
        queues := update t.queues q { t.queues q with waiting := rest.filter (·.names b) } },
        by simp [Tunnel.consume, htw], ?_⟩
      exact { h with queues := by rw [only_update, hqueue, h.queues]; rfl }

end Matches

/-- **One step.**  A step that hands the other services' streams off well is answered on the
tunnel that carries only this service's. -/
theorem Matches.step {b : ServiceId} {s s' t : Tunnel} {e : TunnelEvent} (h : Matches b s t)
    (hc : HandsOffWell b s e) (hs : s.step e = some s')
    (ht : (tunnel.restrict (StreamsOf b)).Reach t) :
    ∃ t', (tunnel.restrict (StreamsOf b)).Reach t' ∧ Matches b s' t' := by
  cases e with
  | arrive x =>
    obtain ⟨hx, t', hst, hm⟩ | hm := h.arrive hs
    · refine ⟨t', ht.step (a := .arrive x) ⟨?_, hst⟩, hm⟩
      rintro y ⟨⟩
      exact hx
    · exact ⟨t, ht, hm⟩
  | take =>
    obtain ⟨t', hst, hm⟩ | hm := h.take hs
    · exact ⟨t', ht.step (a := .take) ⟨by rintro x ⟨⟩, hst⟩, hm⟩
    · exact ⟨t, ht, hm⟩
  | handOff =>
    obtain ⟨t', hst, hm⟩ | hm := h.handOff hc hs
    · exact ⟨t', ht.step (a := .handOff) ⟨by rintro x ⟨⟩, hst⟩, hm⟩
    · exact ⟨t, ht, hm⟩
  | consume q =>
    obtain ⟨t', hst, hm⟩ | hm := h.consume hs
    · exact ⟨t', ht.step (a := .consume q) ⟨by rintro x ⟨⟩, hst⟩, hm⟩
    · exact ⟨t, ht, hm⟩
  | register id =>
    cases hs
    refine ⟨_, ht.step (a := .register id) ⟨by rintro x ⟨⟩, rfl⟩, ?_⟩
    exact { h with
      services := by rw [h.services, h.nextQueue]
      queues := by rw [only_update, h.queues, h.nextQueue]; rfl
      nextQueue := by rw [h.nextQueue] }
  | deregister id =>
    cases hs
    refine ⟨_, ht.step (a := .deregister id) ⟨by rintro x ⟨⟩, rfl⟩, ?_⟩
    exact { h with services := by rw [h.services] }
  | close q =>
    cases hs
    refine ⟨_, ht.step (a := .close q) ⟨by rintro x ⟨⟩, rfl⟩, ?_⟩
    exact { h with queues := by rw [only_update, h.queues]; rfl }
  | disconnect =>
    cases hs
    exact ⟨t, ht, { h with driving := by rintro ⟨⟩ }⟩

/-! ## 5. What the loop does with each stream -/

/-- The stream the loop holds. -/
def Task.held : Task → List Stream
  | .sending x _ => [x]
  | _ => []

/-- The loop's records: while it runs, every accepted stream is settled, held or waiting, in the
order of arrival; and it ends only on a refused hand-off. -/
structure Tunnel.Recorded (s : Tunnel) : Prop where
  settled : s.task ≠ .ended → s.arrived = s.log.map Prod.fst ++ (s.task.held ++ s.bridge)
  ended : s.task = .ended → ∃ x q, (x, Fate.refused q) ∈ s.log

namespace Tunnel.Recorded

variable {s s' : Tunnel}

theorem arrive (h : s.Recorded) {x : Stream} (hs : s.arrive x = some s') : s'.Recorded := by
  unfold Tunnel.arrive at hs
  split at hs
  case isFalse => cases hs
  case isTrue =>
    split at hs
    case h_1 hended =>
      cases hs
      exact ⟨fun hne => absurd hended hne, h.ended⟩
    case h_2 hne =>
      split at hs
      case isFalse => cases hs
      case isTrue =>
        cases hs
        refine ⟨fun hne => ?_, h.ended⟩
        dsimp only
        rw [h.settled hne]
        simp only [List.append_assoc]

theorem take (h : s.Recorded) (hs : s.take = some s') : s'.Recorded := by
  unfold Tunnel.take at hs
  split at hs
  case h_2 => cases hs
  case h_1 x rest htask hbridge =>
    have harr := h.settled (by rw [htask]; rintro ⟨⟩)
    rw [htask, hbridge] at harr
    split at hs
    · cases hs
      refine ⟨fun _ => ?_, fun hended => by cases htask.symm.trans hended⟩
      dsimp only
      rw [harr, htask]
      simp [Task.held]
    · cases hs
      refine ⟨fun _ => ?_, by rintro ⟨⟩⟩
      dsimp only
      rw [harr]
      simp [Task.held]

theorem handOff (h : s.Recorded) (hs : s.handOff = some s') : s'.Recorded := by
  unfold Tunnel.handOff at hs
  split at hs
  case h_2 => cases hs
  case h_1 x q htask =>
    split at hs
    case isFalse =>
      cases hs
      exact ⟨fun hne => absurd rfl hne,
        fun _ => ⟨x, q, List.mem_append_right _ List.mem_cons_self⟩⟩
    case isTrue =>
      split at hs
      case isFalse => cases hs
      case isTrue =>
        cases hs
        refine ⟨fun _ => ?_, by rintro ⟨⟩⟩
        dsimp only
        rw [h.settled (by rw [htask]; rintro ⟨⟩), htask]
        simp [Task.held]

theorem step (h : s.Recorded) {e : TunnelEvent} (hs : s.step e = some s') : s'.Recorded := by
  cases e with
  | arrive x => exact h.arrive hs
  | take => exact h.take hs
  | handOff => exact h.handOff hs
  | consume q =>
    simp only [Tunnel.step, Tunnel.consume] at hs
    split at hs
    · cases hs
    · cases hs
      exact ⟨h.settled, h.ended⟩
  | _ =>
    cases hs
    exact ⟨h.settled, h.ended⟩

theorem of_reach (h : tunnel.Reach s) : s.Recorded := by
  refine h.invariant ?_ fun s a s' hr hs => hr.step hs
  rintro s rfl
  exact ⟨fun _ => rfl, by rintro ⟨⟩⟩

end Tunnel.Recorded

/-- Where the other services' streams are handed off well, only a stream of this service is ever
refused. -/
def OnlyRefuses (b : ServiceId) (s : Tunnel) : Prop :=
  ∀ x q, (x, Fate.refused q) ∈ s.log → x.names b = true

theorem OnlyRefuses.handOff {b : ServiceId} {s s' : Tunnel} (h : OnlyRefuses b s)
    (hc : HandsOffWell b s .handOff) (hs : s.handOff = some s') : OnlyRefuses b s' := by
  unfold Tunnel.handOff at hs
  split at hs
  case h_2 => cases hs
  case h_1 x q htask =>
    split at hs
    case isTrue =>
      split at hs
      case isFalse => cases hs
      case isTrue =>
        cases hs
        intro y r hy
        obtain hy | hy := List.mem_append.mp hy
        · exact h y r hy
        · cases List.mem_singleton.mp hy
    case isFalse hrecv =>
      cases hs
      intro y r hy
      obtain hy | hy := List.mem_append.mp hy
      · exact h y r hy
      · cases List.mem_singleton.mp hy
        cases hx : x.names b with
        | true => rfl
        | false => exact absurd (hc rfl x q htask hx) hrecv

theorem OnlyRefuses.step {b : ServiceId} {s s' : Tunnel} {e : TunnelEvent} (h : OnlyRefuses b s)
    (hc : HandsOffWell b s e) (hs : s.step e = some s') : OnlyRefuses b s' := by
  cases e with
  | arrive x =>
    simp only [Tunnel.step, Tunnel.arrive] at hs
    split at hs
    · split at hs
      · cases hs
        exact h
      · split at hs
        · cases hs
          exact h
        · cases hs
    · cases hs
  | take =>
    simp only [Tunnel.step, Tunnel.take] at hs
    split at hs
    · split at hs
      · cases hs
        intro y r hy
        obtain hy | hy := List.mem_append.mp hy
        · exact h y r hy
        · cases List.mem_singleton.mp hy
      · cases hs
        exact h
    · cases hs
  | handOff => exact h.handOff hc hs
  | consume q =>
    simp only [Tunnel.step, Tunnel.consume] at hs
    split at hs
    · cases hs
    · cases hs
      exact h
  | _ =>
    cases hs
    exact h

theorem OnlyRefuses.of_reach {b : ServiceId} {s : Tunnel}
    (h : (tunnel.restrict (HandsOffWell b)).Reach s) : OnlyRefuses b s := by
  refine h.invariant (P := OnlyRefuses b) ?_ ?_
  · rintro s rfl x q ⟨⟩
  · rintro s e s' hr ⟨hc, hs⟩
    exact hr.step hc hs

/-! ## 6. Every run -/

/-- **A service's streams are routed as if the tunnel carried no others**, in every run in which
no stream of another service is handed to a queue without a receiver: the streams of the service
that arrived, wait, are being handed off or were settled (and how) are those of a run in which
only this service's streams arrive, with the same services coming and going.  The loop has ended
only if a stream of this very service was refused, and when it has nothing left to do every
stream that arrived is settled. -/
theorem tunnel_isolation (b : ServiceId) {s : Tunnel}
    (h : (tunnel.restrict (HandsOffWell b)).Reach s) :
    (∃ t, (tunnel.restrict (StreamsOf b)).Reach t ∧ Matches b s t) ∧
      (s.task = .ended → ∃ x q, x.names b = true ∧ (x, Fate.refused q) ∈ s.log) ∧
      (s.task = .idle → s.bridge = [] → s.log.map Prod.fst = s.arrived) := by
  have hrec := Tunnel.Recorded.of_reach h.of_restrict
  refine ⟨?_, fun hended => ?_, fun hidle hempty => ?_⟩
  · refine h.simulation ?_ fun s a s' t ht hm hs => hm.step hs.1 hs.2 ht
    rintro s rfl
    exact ⟨.new, .init rfl, ⟨rfl, rfl, rfl, fun _ => rfl, rfl, rfl, rfl, rfl⟩⟩
  · obtain ⟨x, q, hmem⟩ := hrec.ended hended
    exact ⟨x, q, OnlyRefuses.of_reach h x q hmem, hmem⟩
  · have harr := hrec.settled (by rw [hidle]; rintro ⟨⟩)
    rw [hidle, hempty] at harr
    simpa [Task.held] using harr.symm

/-- The condition is exact: once a hand-off was refused, no stream is settled any more. -/
theorem ended_forever {s s' : Tunnel} {e : TunnelEvent} (h : s.task = .ended)
    (hs : s.step e = some s') : s'.task = .ended ∧ s'.log = s.log := by
  cases e with
  | arrive x =>
    simp only [Tunnel.step, Tunnel.arrive, h] at hs
    split at hs
    · cases hs
      exact ⟨rfl, rfl⟩
    · cases hs
  | take => simp [Tunnel.step, Tunnel.take, h] at hs
  | handOff => simp [Tunnel.step, Tunnel.handOff, h] at hs
  | consume q =>
    simp only [Tunnel.step, Tunnel.consume] at hs
    split at hs
    · cases hs
    · cases hs
      exact ⟨h, rfl⟩
  | _ =>
    cases hs
    exact ⟨h, rfl⟩

/-! ## 7. Two services on a tunnel -/

/-- Services 0 and 1 share the tunnel, and a stream of each is handed over. -/
def sharedRun : List TunnelEvent :=
  [.register 0, .register 1, .arrive ⟨0, some 0⟩, .arrive ⟨1, some 1⟩, .take, .handOff, .take,
    .handOff]

/-- The same tunnel, but the pool of service 0 died, and the session still has its handle. -/
def deadSiblingRun : List TunnelEvent :=
  [.register 0, .register 1, .close 0, .arrive ⟨0, some 0⟩, .take, .handOff,
    .arrive ⟨1, some 1⟩]

/-- The check of a step of `sharedRun`: no hand-off meets a closed queue. -/
def meetsReceiver (s : Tunnel) : TunnelEvent → Bool
  | .handOff =>
    match s.task with
    | .sending _ q => (s.queues q).receiver
    | _ => true
  | _ => true

theorem handsOffWell_of_meetsReceiver {b : ServiceId} (s : Tunnel) (e : TunnelEvent)
    (h : meetsReceiver s e = true) : HandsOffWell b s e := by
  rintro rfl x q htask -
  simpa [meetsReceiver, htask] using h

theorem tunnel_isolation_shared :
    ∃ s, (tunnel.restrict (HandsOffWell 1)).Reach s ∧ s.log = [(⟨0, some 0⟩, .handed 0),
        (⟨1, some 1⟩, .handed 1)] ∧
      ∃ t, (tunnel.restrict (StreamsOf 1)).Reach t ∧ t.log = [(⟨1, some 1⟩, .handed 1)] := by
  have hrun : (Lts.runWith Tunnel.step meetsReceiver .new sharedRun).any (fun s =>
      decide (s.log = [(⟨0, some 0⟩, .handed 0), (⟨1, some 1⟩, .handed 1)])) = true := by
    decide +kernel
  obtain ⟨s, hs, hend⟩ := (Option.any_eq_true ..).mp hrun
  have hreach : (tunnel.restrict (HandsOffWell 1)).Reach s :=
    Lts.Reach.runWith (fun _ _ _ h => h) handsOffWell_of_meetsReceiver (Lts.Reach.init rfl) hs
  have hlog := of_decide_eq_true hend
  obtain ⟨⟨t, ht, hm⟩, -⟩ := tunnel_isolation 1 hreach
  exact ⟨s, hreach, hlog, t, ht, by rw [hm.log, hlog]; decide⟩

/-- **A dead sibling stops a live service.**  Service 1 is registered and its queue is open; its
stream is accepted by the tunnel and never routed, and no run without the sibling's stream does
that. -/
theorem sibling_stopped :
    ∃ s, tunnel.Reach s ∧ s.services.lookup 1 = some 1 ∧ (s.queues 1).receiver = true ∧
      ⟨1, some 1⟩ ∈ s.arrived ∧ s.task = .ended ∧
      ¬ ∃ t, (tunnel.restrict (StreamsOf 1)).Reach t ∧ Matches 1 s t := by
  have hrun : (Lts.runWith Tunnel.step (fun _ _ => true) .new deadSiblingRun).any (fun s =>
      decide (s.services.lookup 1 = some 1 ∧ (s.queues 1).receiver = true ∧
        ⟨1, some 1⟩ ∈ s.arrived ∧ s.task = .ended ∧ s.log.filter (·.1.names 1) = [])) = true := by
    decide +kernel
  obtain ⟨s, hs, hend⟩ := (Option.any_eq_true ..).mp hrun
  have hreach : (tunnel.restrict fun _ _ => True).Reach s :=
    Lts.Reach.runWith (fun _ _ _ h => h) (fun _ _ _ => trivial) (Lts.Reach.init rfl) hs
  obtain ⟨hl, hr, ha, hended, hlog⟩ := of_decide_eq_true hend
  refine ⟨s, hreach.of_restrict, hl, hr, ha, hended, ?_⟩
  rintro ⟨t, ht, hm⟩
  -- without the sibling's stream the loop would have to have refused one of service 1
  have htended : t.task = .ended := by rw [hm.task, hended]; rfl
  obtain ⟨x, q, hmem⟩ := (Tunnel.Recorded.of_reach ht.of_restrict).ended htended
  rw [hm.log, hlog] at hmem
  cases hmem

end Molehill.Server
