/-
# One forwarder per UDP peer

A UDP service of the client gives every remote peer a socket of its own to the local service
(`UdpHub::deliver`, `run_udp_forwarder`, `core/client.rs`), so that the local service sees one
source port per peer.  Several data channels deliver at once: a channel that meets a new peer binds
a socket without the lock, and looks again before it inserts the route; a forwarder that leaves its
loop takes the lock to remove the route, and removes it only if it is its own.

Every task is modelled from one lock to the next, and every datagram is numbered when it is
delivered; `handed`, `sent` and `dropped` record what became of it.

The result (`one_forwarder`): a peer has one forwarder at a time that has not given its route back,
and the route is that forwarder's; nobody else removes it; a datagram of a peer with a route goes to
the queue of that route's forwarder, and if it is sent at all, then through that forwarder's
socket.  It need not be sent: the queue is bounded, a datagram that waited too long is dropped
(`datagram_dropped`), and what is queued to a forwarder that ends is lost with it.
-/
import Mathlib.Logic.Function.Basic
import Molehill.Lib.Table
import Molehill.Lib.Transition

namespace Molehill.Client.Forwarding

open Lib Function

/-! ## 1. The state -/

/-- `UDP_QUEUE_SIZE`. -/
def udpQueueSize : Nat := 1024

/-- `UDP_CODEL_TARGET`, in milliseconds. -/
def udpCodelTarget : Nat := 10

/-- `UdpVisitorRoute`: the forwarder at the other end of `inbound`, and the data channel the
peer's replies go out on. -/
structure Route where
  inbound : Nat
  outbound : Nat
  deriving DecidableEq

/-- Where a forwarder stands. -/
inductive Stage
  /-- In its loop. -/
  | serving
  /-- In its loop, writing a datagram to its socket. -/
  | sending (n : Nat)
  /-- Out of the loop, on the way to the lock. -/
  | leaving
  /-- Past the lock, its socket and its queue not dropped yet. -/
  | closing
  | over
  deriving DecidableEq

/-- The forwarder has not given its route back. -/
def Stage.isLive : Stage → Bool
  | .serving => true
  | .sending _ => true
  | .leaving => true
  | _ => false

/-- `run_udp_forwarder`, with its queue: a datagram and when it was queued. -/
structure Forwarder (Peer : Type) where
  peer : Peer
  queue : List (Nat × Nat)
  stage : Stage
  deriving DecidableEq

/-- Where a data channel's read loop stands. -/
inductive Channel (Peer : Type)
  | reading
  /-- In `deliver`: the peer is new, and the socket for it not connected yet. -/
  | connecting (peer : Peer) (n : Nat)
  | closed
  deriving DecidableEq

/-- Why a datagram was not sent. -/
inductive Drop
  | noSocket
  | queueFull
  /-- It waited past the sojourn target. -/
  | late
  | sendFailed
  /-- It was in the queue when its forwarder ended. -/
  | forgotten
  deriving DecidableEq

/-- One service's hub, its data channels and its forwarders. -/
structure Hub (Peer : Type) where
  now : Nat
  routes : Table Peer Route
  forwarders : List (Forwarder Peer)
  channels : List (Channel Peer)
  delivered : Nat
  /-- The forwarder whose route the datagram was delivered to. -/
  handed : Nat → Option Nat
  /-- The socket and the datagram. -/
  sent : List (Nat × Nat)
  dropped : List (Nat × Drop)

/-- What a task does between two awaits. -/
inductive Event (Peer : Type)
  | openChannel
  /-- The read loop of a channel ends. -/
  | closeChannel (c : Nat)
  /-- A datagram of the peer arrived on the channel. -/
  | deliver (c : Nat) (peer : Peer)
  | connected (c : Nat)
  | connectFailed (c : Nat)
  /-- The forwarder takes a datagram from its queue. -/
  | take (f : Nat)
  | sendOk (f : Nat)
  | sendFailed (f : Nat)
  /-- `send_outbound` falls back to another channel. -/
  | fallBack (f c : Nat)
  /-- Idle for too long, or the socket failed. -/
  | leave (f : Nat)
  | removeRoute (f : Nat)
  /-- The forwarder's socket and queue are dropped. -/
  | finish (f : Nat)
  | pass (ms : Nat)
  deriving DecidableEq

/-! ## 2. The step -/

namespace Hub

variable {Peer : Type}

def new : Hub Peer :=
  { now := 0, routes := ∅, forwarders := [], channels := [], delivered := 0,
    handed := fun _ => none, sent := [], dropped := [] }

def setForwarder (s : Hub Peer) (f : Nat) (fwd : Forwarder Peer) : Hub Peer :=
  { s with forwarders := s.forwarders.set f fwd }

def setChannel (s : Hub Peer) (c : Nat) (stage : Channel Peer) : Hub Peer :=
  { s with channels := s.channels.set c stage }

def drop (s : Hub Peer) (n : Nat) (why : Drop) : Hub Peer :=
  { s with dropped := s.dropped ++ [(n, why)] }

/-- `route.inbound.try_send`. -/
def enqueue (s : Hub Peer) (f : Nat) (fwd : Forwarder Peer) (n : Nat) : Hub Peer :=
  let s := { s with handed := update s.handed n (some f) }
  if fwd.queue.length < udpQueueSize then
    s.setForwarder f { fwd with queue := fwd.queue ++ [(n, s.now)] }
  else s.drop n .queueFull

variable [DecidableEq Peer]

/-- The peer has a route: the delivering channel becomes its outbound path, and the datagram goes
to its forwarder. -/
def reuse (s : Hub Peer) (c : Nat) (peer : Peer) (route : Route) (n : Nat) : Option (Hub Peer) :=
  s.forwarders[route.inbound]?.map fun fwd =>
    { s with routes := s.routes.insert peer { route with outbound := c } }.enqueue
      route.inbound fwd n

/-- The peer has none: a forwarder for it, its route, and the datagram. -/
def create (s : Hub Peer) (c : Nat) (peer : Peer) (n : Nat) : Hub Peer :=
  let fwd : Forwarder Peer := { peer := peer, queue := [], stage := .serving }
  { s with
    forwarders := s.forwarders ++ [fwd]
    routes := s.routes.insert peer { inbound := s.forwarders.length, outbound := c } }.enqueue
      s.forwarders.length fwd n

/-- `deliver`, up to the socket of a new peer. -/
def deliver (s : Hub Peer) (c : Nat) (peer : Peer) : Option (Hub Peer) :=
  let n := s.delivered
  let s := { s with delivered := s.delivered + 1 }
  match s.routes.lookup peer with
  | some route => s.reuse c peer route n
  | none => some (s.setChannel c (.connecting peer n))

/-- The rest of `deliver`, with the socket connected. -/
def connected (s : Hub Peer) (c : Nat) (peer : Peer) (n : Nat) : Option (Hub Peer) :=
  let s := s.setChannel c .reading
  match s.routes.lookup peer with
  -- lost the race: the fresh socket is dropped
  | some route => s.reuse c peer route n
  | none => some (s.create c peer n)

/-- The forwarder takes a datagram: one that waited too long is dropped. -/
def take (s : Hub Peer) (f : Nat) (fwd : Forwarder Peer) : Option (Hub Peer) :=
  match fwd.stage, fwd.queue with
  | .serving, (n, enqueued) :: rest =>
    if udpCodelTarget < s.now - enqueued then
      some ((s.setForwarder f { fwd with queue := rest }).drop n .late)
    else some (s.setForwarder f { fwd with queue := rest, stage := .sending n })
  | _, _ => none

/-- The socket took the datagram, or failed. -/
def sendDone (s : Hub Peer) (f : Nat) (fwd : Forwarder Peer) (ok : Bool) : Option (Hub Peer) :=
  match fwd.stage with
  | .sending n =>
    if ok then
      some { s.setForwarder f { fwd with stage := .serving } with sent := s.sent ++ [(f, n)] }
    else some ((s.setForwarder f { fwd with stage := .leaving }).drop n .sendFailed)
  | _ => none

/-- `send_outbound` moves the peer's route to another channel, if there is a route. -/
def fallBack (s : Hub Peer) (fwd : Forwarder Peer) (c : Nat) : Option (Hub Peer) :=
  match fwd.stage with
  | .serving =>
    some { s with routes := (s.routes.lookup fwd.peer).elim s.routes fun route =>
      s.routes.insert fwd.peer { route with outbound := c } }
  | _ => none

/-- The end of `run_udp_forwarder`: the route goes only if it still points at this forwarder. -/
def removeRoute (s : Hub Peer) (f : Nat) (fwd : Forwarder Peer) : Option (Hub Peer) :=
  match fwd.stage with
  | .leaving =>
    some { s.setForwarder f { fwd with stage := .closing } with
      routes := if (s.routes.lookup fwd.peer).any (·.inbound = f) then s.routes.erase fwd.peer
        else s.routes }
  | _ => none

def finish (s : Hub Peer) (f : Nat) (fwd : Forwarder Peer) : Option (Hub Peer) :=
  match fwd.stage with
  | .closing =>
    some { s.setForwarder f { fwd with queue := [], stage := .over } with
      dropped := s.dropped ++ fwd.queue.map fun item => (item.1, .forgotten) }
  | _ => none

def leave (s : Hub Peer) (f : Nat) (fwd : Forwarder Peer) : Option (Hub Peer) :=
  match fwd.stage with
  | .serving => some (s.setForwarder f { fwd with stage := .leaving })
  | _ => none

/-- One step. -/
def step (s : Hub Peer) : Event Peer → Option (Hub Peer)
  | .openChannel => some { s with channels := s.channels ++ [.reading] }
  | .closeChannel c =>
    if s.channels[c]? = some .reading then some (s.setChannel c .closed) else none
  | .deliver c peer => if s.channels[c]? = some .reading then s.deliver c peer else none
  | .connected c =>
    match s.channels[c]? with
    | some (.connecting peer n) => s.connected c peer n
    | _ => none
  | .connectFailed c =>
    match s.channels[c]? with
    | some (.connecting _ n) => some ((s.setChannel c .reading).drop n .noSocket)
    | _ => none
  | .take f => s.forwarders[f]?.bind (s.take f)
  | .sendOk f => s.forwarders[f]?.bind (s.sendDone f · true)
  | .sendFailed f => s.forwarders[f]?.bind (s.sendDone f · false)
  | .fallBack f c => s.forwarders[f]?.bind (s.fallBack · c)
  | .leave f => s.forwarders[f]?.bind (s.leave f)
  | .removeRoute f => s.forwarders[f]?.bind (s.removeRoute f)
  | .finish f => s.forwarders[f]?.bind (s.finish f)
  | .pass ms => some { s with now := s.now + ms }

end Hub

/-- Every run of one service's hub. -/
def forwarding (Peer : Type) [DecidableEq Peer] : Lts (Hub Peer) (Event Peer) where
  init s := s = .new
  step s e s' := s.step e = some s'

/-! ## 3. Who owns a route -/

namespace Hub

variable {Peer : Type} [DecidableEq Peer] {s s' : Hub Peer} {e : Event Peer}

/-- The forwarder a peer's route points at. -/
def owner (s : Hub Peer) (peer : Peer) : Option Nat := (s.routes.lookup peer).map Route.inbound

/-- The peer of a forwarder that has not given its route back. -/
def serves (s : Hub Peer) (f : Nat) : Option Peer :=
  s.forwarders[f]?.bind fun fwd => if fwd.stage.isLive then some fwd.peer else none

/-- **A route belongs to the one live forwarder of its peer.** -/
def Owned (s : Hub Peer) : Prop := ∀ peer f, s.owner peer = some f ↔ s.serves f = some peer

/-- The two roles are as before. -/
def SameRoles (s s' : Hub Peer) : Prop := s'.owner = s.owner ∧ s'.serves = s.serves

omit [DecidableEq Peer] in
theorem serves_setForwarder {f : Nat} {fwd fwd' : Forwarder Peer}
    (h : s.forwarders[f]? = some fwd) (hpeer : fwd'.peer = fwd.peer)
    (hlive : fwd'.stage.isLive = fwd.stage.isLive) : (s.setForwarder f fwd').serves = s.serves := by
  obtain ⟨hf, -⟩ := List.getElem?_eq_some_iff.mp h
  funext g
  unfold serves setForwarder
  by_cases hg : f = g
  · subst hg
    rw [List.getElem?_set_self hf, h]
    simp [hpeer, hlive]
  · simp [hg]

theorem owner_insert (s : Hub Peer) (peer : Peer) (route : Route) :
    owner { s with routes := s.routes.insert peer route } =
      update s.owner peer (some route.inbound) := by
  funext p
  unfold owner
  rw [Table.lookup_insert_eq, update_apply]
  split <;> rfl

theorem owner_erase (s : Hub Peer) (peer : Peer) :
    owner { s with routes := s.routes.erase peer } = update s.owner peer none := by
  funext p
  unfold owner
  rw [Table.lookup_erase_eq, update_apply]
  split <;> rfl

theorem enqueue_owner (f : Nat) (fwd : Forwarder Peer) (n : Nat) :
    (s.enqueue f fwd n).owner = s.owner := by
  unfold enqueue
  dsimp only
  split <;> rfl

omit [DecidableEq Peer] in
theorem enqueue_serves {f : Nat} {fwd : Forwarder Peer} (h : s.forwarders[f]? = some fwd)
    (n : Nat) :
    (s.enqueue f fwd n).serves = s.serves := by
  unfold enqueue
  dsimp only
  split
  · exact serves_setForwarder (s := { s with handed := update s.handed n (some f) }) h rfl rfl
  · rfl

/-- Delivering to a peer that has a route changes no role. -/
theorem sameRoles_reuse {c : Nat} {peer : Peer} {route : Route} {n : Nat}
    (hr : s.routes.lookup peer = some route) (h : s.reuse c peer route n = some s') :
    SameRoles s s' := by
  obtain ⟨fwd, hf, rfl⟩ := Option.map_eq_some_iff.mp h
  refine ⟨?_, ?_⟩
  · rw [enqueue_owner, owner_insert]
    refine update_eq_self_iff.mpr ?_
    rw [owner, hr]
    rfl
  · exact enqueue_serves (s := { s with routes := s.routes.insert peer { route with outbound := c } })
      hf n

/-- A new peer's forwarder gets the peer's route. -/
theorem roles_create (s : Hub Peer) (c : Nat) (peer : Peer) (n : Nat) :
    (s.create c peer n).owner = update s.owner peer (some s.forwarders.length) ∧
      (s.create c peer n).serves = update s.serves s.forwarders.length (some peer) := by
  refine ⟨?_, ?_⟩
  · unfold create
    dsimp only
    rw [enqueue_owner]
    exact owner_insert s peer { inbound := s.forwarders.length, outbound := c }
  · unfold create
    dsimp only
    rw [enqueue_serves (by simp)]
    funext g
    unfold serves
    rw [update_apply]
    rcases Nat.lt_trichotomy g s.forwarders.length with hg | rfl | hg
    · rw [if_neg (Nat.ne_of_lt hg)]
      simp [List.getElem?_append_left hg]
    · simp [Stage.isLive]
    · rw [if_neg (Nat.ne_of_gt hg)]
      have h1 : s.forwarders[g]? = none := List.getElem?_eq_none (Nat.le_of_lt hg)
      have h2 : (s.forwarders ++ [(⟨peer, [], .serving⟩ : Forwarder Peer)])[g]? = none := by
        refine List.getElem?_eq_none ?_
        simp
        omega
      rw [h1, h2]

theorem sameRoles_take {f : Nat} {fwd : Forwarder Peer} (hf : s.forwarders[f]? = some fwd)
    (h : s.take f fwd = some s') : SameRoles s s' := by
  unfold take at h
  split at h
  case h_1 hs _ =>
    split at h
    · cases h
      exact ⟨rfl, serves_setForwarder hf rfl rfl⟩
    · cases h
      exact ⟨rfl, serves_setForwarder hf rfl (by rw [hs]; rfl)⟩
  case h_2 => cases h

theorem sameRoles_sendDone {f : Nat} {fwd : Forwarder Peer} {ok : Bool}
    (hf : s.forwarders[f]? = some fwd) (h : s.sendDone f fwd ok = some s') : SameRoles s s' := by
  unfold sendDone at h
  split at h
  case h_1 n hs =>
    split at h
    · cases h
      exact ⟨rfl, serves_setForwarder hf rfl (by rw [hs]; rfl)⟩
    · cases h
      exact ⟨rfl, serves_setForwarder hf rfl (by rw [hs]; rfl)⟩
  case h_2 => cases h

/-- Another channel for the replies changes no role. -/
theorem sameRoles_fallBack {fwd : Forwarder Peer} {c : Nat} (h : s.fallBack fwd c = some s') :
    SameRoles s s' := by
  unfold fallBack at h
  split at h
  case h_1 =>
    cases h
    refine ⟨?_, rfl⟩
    cases hr : s.routes.lookup fwd.peer with
    | none => rfl
    | some route =>
      rw [Option.elim_some, owner_insert]
      refine update_eq_self_iff.mpr ?_
      rw [owner, hr]
      rfl
  case h_2 => cases h

theorem sameRoles_leave {f : Nat} {fwd : Forwarder Peer} (hf : s.forwarders[f]? = some fwd)
    (h : s.leave f fwd = some s') : SameRoles s s' := by
  unfold leave at h
  split at h
  case h_1 hs =>
    cases h
    exact ⟨rfl, serves_setForwarder hf rfl (by rw [hs]; rfl)⟩
  case h_2 => cases h

theorem sameRoles_finish {f : Nat} {fwd : Forwarder Peer} (hf : s.forwarders[f]? = some fwd)
    (h : s.finish f fwd = some s') : SameRoles s s' := by
  unfold finish at h
  split at h
  case h_1 hs =>
    cases h
    exact ⟨rfl, serves_setForwarder hf rfl (by rw [hs]; rfl)⟩
  case h_2 => cases h

/-- A forwarder gives its route back, if the route is its own. -/
theorem roles_removeRoute {f : Nat} {fwd : Forwarder Peer} (hf : s.forwarders[f]? = some fwd)
    (h : s.removeRoute f fwd = some s') :
    s.serves f = some fwd.peer ∧ s'.serves = update s.serves f none ∧
      s'.owner = if s.owner fwd.peer = some f then update s.owner fwd.peer none else s.owner := by
  unfold removeRoute at h
  split at h
  case h_1 hs =>
    cases h
    refine ⟨?_, ?_, ?_⟩
    · simp [serves, hf, hs, Stage.isLive]
    · obtain ⟨hlt, -⟩ := List.getElem?_eq_some_iff.mp hf
      funext g
      unfold serves setForwarder
      rw [update_apply]
      by_cases hg : f = g
      · subst hg
        simp [hlt, Stage.isLive]
      · simp [hg, Ne.symm hg]
    · have hany : (s.routes.lookup fwd.peer).any (·.inbound = f) = true ↔
          s.owner fwd.peer = some f := by
        unfold owner
        cases s.routes.lookup fwd.peer <;> simp
      by_cases hown : s.owner fwd.peer = some f
      · rw [if_pos hown, if_pos (hany.mpr hown)]
        exact owner_erase s fwd.peer
      · rw [if_neg hown, if_neg (hany.not.mpr hown)]
        rfl
  case h_2 => cases h

/-- **What a step does to the roles**: nothing, unless a new peer gets a forwarder, or a forwarder
gives its route back. -/
theorem step_roles (h : s.step e = some s') :
    SameRoles s s' ∨
    (∃ peer, s.owner peer = none ∧
      s'.owner = update s.owner peer (some s.forwarders.length) ∧
      s'.serves = update s.serves s.forwarders.length (some peer)) ∨
    (∃ f peer, e = .removeRoute f ∧ s.serves f = some peer ∧ s'.serves = update s.serves f none ∧
      s'.owner = if s.owner peer = some f then update s.owner peer none else s.owner) := by
  cases e with
  | openChannel | pass =>
    cases h
    exact .inl ⟨rfl, rfl⟩
  | closeChannel c =>
    simp only [step, Option.ite_none_right_eq_some, Option.some.injEq] at h
    obtain ⟨-, rfl⟩ := h
    exact .inl ⟨rfl, rfl⟩
  | deliver c peer =>
    simp only [step, Option.ite_none_right_eq_some] at h
    obtain ⟨-, h⟩ := h
    unfold deliver at h
    dsimp only at h
    split at h
    case h_1 route hr =>
      obtain ⟨ho, hs⟩ := sameRoles_reuse (s := { s with delivered := s.delivered + 1 }) hr h
      exact .inl ⟨ho, hs⟩
    case h_2 =>
      cases h
      exact .inl ⟨rfl, rfl⟩
  | connected c =>
    simp only [step] at h
    split at h
    case h_1 peer n _ =>
      unfold connected at h
      dsimp only at h
      split at h
      case h_1 route hr =>
        obtain ⟨ho, hs⟩ := sameRoles_reuse hr h
        exact .inl ⟨ho, hs⟩
      case h_2 hr =>
        cases h
        obtain ⟨ho, hs⟩ := roles_create (s.setChannel c .reading) c peer n
        refine .inr (.inl ⟨peer, ?_, ho, hs⟩)
        exact Option.map_eq_none_iff.mpr hr
    case h_2 => cases h
  | connectFailed c =>
    simp only [step] at h
    split at h
    · cases h
      exact .inl ⟨rfl, rfl⟩
    · cases h
  | take f =>
    obtain ⟨fwd, hf, h⟩ := Option.bind_eq_some_iff.mp h
    exact .inl (sameRoles_take hf h)
  | sendOk f | sendFailed f =>
    obtain ⟨fwd, hf, h⟩ := Option.bind_eq_some_iff.mp h
    exact .inl (sameRoles_sendDone hf h)
  | fallBack f c =>
    obtain ⟨fwd, -, h⟩ := Option.bind_eq_some_iff.mp h
    exact .inl (sameRoles_fallBack h)
  | leave f =>
    obtain ⟨fwd, hf, h⟩ := Option.bind_eq_some_iff.mp h
    exact .inl (sameRoles_leave hf h)
  | removeRoute f =>
    obtain ⟨fwd, hf, h⟩ := Option.bind_eq_some_iff.mp h
    exact .inr (.inr ⟨f, fwd.peer, rfl, roles_removeRoute hf h⟩)
  | finish f =>
    obtain ⟨fwd, hf, h⟩ := Option.bind_eq_some_iff.mp h
    exact .inl (sameRoles_finish hf h)

omit [DecidableEq Peer] in
theorem serves_length : s.serves s.forwarders.length = none := by
  simp [serves]

/-- **One step** keeps every route with its peer's live forwarder. -/
theorem Owned.step (h : s.Owned) (hstep : s.step e = some s') : s'.Owned := by
  intro peer f
  rcases step_roles hstep with ⟨ho, hs⟩ | ⟨p, hnone, ho, hs⟩ | ⟨g, p, -, hg, hs, ho⟩
  · rw [ho, hs]
    exact h peer f
  · rw [ho, hs, update_apply, update_apply]
    by_cases hp : peer = p
    · subst hp
      by_cases hf : f = s.forwarders.length
      · simp [hf]
      · rw [if_pos rfl, if_neg hf]
        refine iff_of_false (fun heq => hf (Option.some.inj heq).symm) fun heq => ?_
        have hold := (h peer f).mpr heq
        rw [hnone] at hold
        cases hold
    · rw [if_neg hp]
      by_cases hf : f = s.forwarders.length
      · subst hf
        rw [if_pos rfl, h]
        refine iff_of_false ?_ (fun heq => hp (Option.some.inj heq).symm)
        rw [serves_length]
        nofun
      · rw [if_neg hf]
        exact h peer f
  · have hown : s.owner p = some g := (h p g).mpr hg
    rw [ho, if_pos hown, hs, update_apply, update_apply]
    by_cases hp : peer = p
    · subst hp
      rw [if_pos rfl]
      refine iff_of_false nofun fun heq => ?_
      split at heq
      case isTrue => cases heq
      case isFalse hf =>
        have hold := (h peer f).mpr heq
        rw [hown] at hold
        exact hf (Option.some.inj hold).symm
    · rw [if_neg hp]
      by_cases hf : f = g
      · subst hf
        rw [if_pos rfl, h, hg]
        exact iff_of_false (fun heq => hp (Option.some.inj heq).symm) nofun
      · rw [if_neg hf]
        exact h peer f

/-- A route changes hands only when the forwarder it points at gives it back. -/
theorem Owned.removed_by_owner (h : s.Owned) (hstep : s.step e = some s') {peer : Peer} {f : Nat}
    (hf : s.owner peer = some f) (hgone : s'.owner peer ≠ some f) : e = .removeRoute f := by
  rcases step_roles hstep with ⟨ho, -⟩ | ⟨p, hnone, ho, -⟩ | ⟨g, p, rfl, hg, -, ho⟩
  · rw [ho] at hgone
    exact absurd hf hgone
  · rw [ho, update_apply] at hgone
    split at hgone
    case isTrue hp =>
      rw [hp, hnone] at hf
      cases hf
    case isFalse => exact absurd hf hgone
  · have hown : s.owner p = some g := (h p g).mpr hg
    rw [ho, if_pos hown, update_apply] at hgone
    split at hgone
    case isTrue hp =>
      rw [hp, hown] at hf
      rw [Option.some.inj hf]
    case isFalse => exact absurd hf hgone

theorem reach_owned (h : (forwarding Peer).Reach s) : s.Owned := by
  refine h.invariant (P := fun s => s.Owned) ?_ ?_
  · rintro s rfl peer f
    exact iff_of_false nofun nofun
  · exact fun s e s' hs hstep => hs.step hstep

/-! ## 4. What becomes of a datagram -/

end Hub

/-- The forwarder has the datagram in its queue or is writing it. -/
def Forwarder.has {Peer : Type} (fwd : Forwarder Peer) (n : Nat) : Prop :=
  (∃ t, (n, t) ∈ fwd.queue) ∨ fwd.stage = .sending n

namespace Hub

variable {Peer : Type} {s s' : Hub Peer} {e : Event Peer}

/-- A `deliver` of the datagram is under way on the channel. -/
def Connecting (s : Hub Peer) (c : Nat) (peer : Peer) (n : Nat) : Prop :=
  s.channels[c]? = some (.connecting peer n)

/-- Forwarder `f` has datagram `n`. -/
def Holding (s : Hub Peer) (f n : Nat) : Prop := ∃ fwd, s.forwarders[f]? = some fwd ∧ fwd.has n

/-- The datagram is with the forwarder, went through its socket, or was dropped. -/
def Settled (s : Hub Peer) (f n : Nat) : Prop :=
  s.Holding f n ∨ (f, n) ∈ s.sent ∨ ∃ why, (n, why) ∈ s.dropped

/-- **Where the datagrams are.**  A datagram that was handed to a forwarder is settled there; what a
forwarder has, or has sent, was handed to it; and one whose `deliver` is still under way was handed
to none. -/
structure Tracked (s : Hub Peer) : Prop where
  below : ∀ n f, s.handed n = some f → n < s.delivered
  underWay : ∀ c p n, s.Connecting c p n → n < s.delivered ∧ s.handed n = none
  apart : ∀ c c' p p' n, s.Connecting c p n → s.Connecting c' p' n → c = c'
  held : ∀ f n, s.Holding f n → s.handed n = some f
  sent : ∀ f n, (f, n) ∈ s.sent → s.handed n = some f
  settled : ∀ f n, s.handed n = some f → s.Settled f n

theorem holding_setForwarder {f : Nat} {fwd fwd' : Forwarder Peer}
    (h : s.forwarders[f]? = some fwd) {g m : Nat} :
    (s.setForwarder f fwd').Holding g m ↔ if g = f then fwd'.has m else s.Holding g m := by
  obtain ⟨hf, -⟩ := List.getElem?_eq_some_iff.mp h
  unfold Holding setForwarder
  by_cases hg : g = f
  · subst hg
    simp [hf]
  · simp [hg, List.getElem?_set_ne (Ne.symm hg)]

theorem holding_iff {f : Nat} {fwd : Forwarder Peer} (h : s.forwarders[f]? = some fwd) {n : Nat} :
    s.Holding f n ↔ fwd.has n := by
  simp [Holding, h]

/-- A step that hands nothing out: forwarders pass datagrams on or lose them, and no `deliver` comes
under way. -/
structure Passes (s s' : Hub Peer) : Prop where
  handed : s'.handed = s.handed
  delivered : s'.delivered = s.delivered
  channels : ∀ c p n, s'.Connecting c p n →
    s.Connecting c p n
  held : ∀ f n, s'.Holding f n → s.Holding f n
  sent : ∀ f n, (f, n) ∈ s'.sent → (f, n) ∈ s.sent ∨ s.Holding f n
  settled : ∀ f n, s.Settled f n → s'.Settled f n

theorem Tracked.passes (h : s.Tracked) (hp : Passes s s') : s'.Tracked where
  below n f := by
    rw [hp.handed, hp.delivered]
    exact h.below n f
  underWay c p n hc := by
    rw [hp.handed, hp.delivered]
    exact h.underWay c p n (hp.channels c p n hc)
  apart c c' p p' n hc hc' := h.apart c c' p p' n (hp.channels c p n hc) (hp.channels c' p' n hc')
  held f n hh := by
    rw [hp.handed]
    exact h.held f n (hp.held f n hh)
  sent f n hs := by
    rw [hp.handed]
    rcases hp.sent f n hs with hs | hh
    · exact h.sent f n hs
    · exact h.held f n hh
  settled f n hn := by
    rw [hp.handed] at hn
    exact hp.settled f n (h.settled f n hn)

/-- A step that only moves other things. -/
theorem Passes.of_eq (hh : s'.handed = s.handed) (hd : s'.delivered = s.delivered)
    (hc : ∀ c p n, s'.Connecting c p n →
      s.Connecting c p n)
    (hf : ∀ f n, s'.Holding f n ↔ s.Holding f n) (hs : s'.sent = s.sent)
    (hdr : ∀ x ∈ s.dropped, x ∈ s'.dropped) : Passes s s' where
  handed := hh
  delivered := hd
  channels := hc
  held f n := (hf f n).mp
  sent f n h := .inl (hs ▸ h)
  settled f n := by
    rintro (h | h | ⟨why, h⟩)
    · exact .inl ((hf f n).mpr h)
    · exact .inr (.inl (hs ▸ h))
    · exact .inr (.inr ⟨why, hdr _ h⟩)

/-- One forwarder moves on. -/
theorem Passes.of_forwarder {f : Nat} {fwd fwd' : Forwarder Peer} (hf : s.forwarders[f]? = some fwd)
    (hs' : s'.forwarders = s.forwarders.set f fwd') (hh : s'.handed = s.handed)
    (hd : s'.delivered = s.delivered) (hc : s'.channels = s.channels)
    (hheld : ∀ n, fwd'.has n → fwd.has n)
    (hsent : ∀ g n, (g, n) ∈ s'.sent → (g, n) ∈ s.sent ∨ (g = f ∧ fwd.has n))
    (hsent' : ∀ x ∈ s.sent, x ∈ s'.sent) (hdr : ∀ x ∈ s.dropped, x ∈ s'.dropped)
    (hkeep : ∀ n, fwd.has n → fwd'.has n ∨ (f, n) ∈ s'.sent ∨ ∃ why, (n, why) ∈ s'.dropped) :
    Passes s s' := by
  have hiff : ∀ g n, s'.Holding g n ↔ if g = f then fwd'.has n else s.Holding g n := by
    intro g n
    rw [← holding_setForwarder hf, Holding, Holding, hs']
    rfl
  refine ⟨hh, hd, fun c p n h => ?_, fun g n h => ?_, fun g n h => ?_, fun g n h => ?_⟩
  · rw [Connecting, ← hc]
    exact h
  · rw [hiff] at h
    split at h
    case isTrue hg => exact hg ▸ (holding_iff hf).mpr (hheld n h)
    case isFalse => exact h
  · rcases hsent g n h with h | ⟨rfl, h⟩
    · exact .inl h
    · exact .inr ((holding_iff hf).mpr h)
  · rcases h with h | h | ⟨why, h⟩
    · by_cases hg : g = f
      · subst hg
        rcases hkeep n ((holding_iff hf).mp h) with h | h | h
        · exact .inl ((hiff g n).mpr (by rwa [if_pos rfl]))
        · exact .inr (.inl h)
        · exact .inr (.inr h)
      · exact .inl ((hiff g n).mpr (by rwa [if_neg hg]))
    · exact .inr (.inl (hsent' _ h))
    · exact .inr (.inr ⟨why, hdr _ h⟩)

/-- A datagram goes to a forwarder. -/
structure Hands (f n : Nat) (s s' : Hub Peer) : Prop where
  handed : s'.handed = update s.handed n (some f)
  delivered : s.delivered ≤ s'.delivered
  new : n < s'.delivered ∧ s.handed n = none
  channels : ∀ c p m, s'.Connecting c p m →
    s.Connecting c p m ∧ m ≠ n
  held : ∀ g m, s'.Holding g m → s.Holding g m ∨ (g = f ∧ m = n)
  sent : s'.sent = s.sent
  keeps : ∀ g m, s.Settled g m → s'.Settled g m
  settled : s'.Settled f n

theorem Tracked.hands {f n : Nat} (h : s.Tracked) (hp : Hands f n s s') : s'.Tracked where
  below m g := by
    rw [hp.handed, update_apply]
    split
    case isTrue hm =>
      intro _
      exact hm ▸ hp.new.1
    case isFalse => exact fun hm => Nat.lt_of_lt_of_le (h.below m g hm) hp.delivered
  underWay c p m hc := by
    obtain ⟨hold, hm⟩ := hp.channels c p m hc
    obtain ⟨hlt, hnone⟩ := h.underWay c p m hold
    rw [hp.handed, update_of_ne hm]
    exact ⟨Nat.lt_of_lt_of_le hlt hp.delivered, hnone⟩
  apart c c' p p' m hc hc' :=
    h.apart c c' p p' m (hp.channels c p m hc).1 (hp.channels c' p' m hc').1
  held g m hh := by
    rw [hp.handed, update_apply]
    rcases hp.held g m hh with hold | ⟨rfl, rfl⟩
    · have hg := h.held g m hold
      split
      case isTrue hm =>
        rw [hm, hp.new.2] at hg
        cases hg
      case isFalse => exact hg
    · rw [if_pos rfl]
  sent g m hs := by
    rw [hp.sent] at hs
    have hg := h.sent g m hs
    rw [hp.handed, update_apply]
    split
    case isTrue hm =>
      rw [hm, hp.new.2] at hg
      cases hg
    case isFalse => exact hg
  settled g m hm := by
    rw [hp.handed, update_apply] at hm
    split at hm
    case isTrue heq =>
      cases hm
      exact heq ▸ hp.settled
    case isFalse => exact hp.keeps g m (h.settled g m hm)

/-- `try_send`, seen from the forwarders. -/
theorem enqueue_holding {f : Nat} {fwd : Forwarder Peer} (hf : s.forwarders[f]? = some fwd)
    (n : Nat) :
    (s.enqueue f fwd n).handed = update s.handed n (some f) ∧
    (s.enqueue f fwd n).delivered = s.delivered ∧
    (s.enqueue f fwd n).channels = s.channels ∧
    (s.enqueue f fwd n).sent = s.sent ∧
    (∀ g m, (s.enqueue f fwd n).Holding g m → s.Holding g m ∨ (g = f ∧ m = n)) ∧
    (∀ g m, s.Settled g m → (s.enqueue f fwd n).Settled g m) ∧
    (s.enqueue f fwd n).Settled f n := by
  unfold enqueue
  dsimp only
  split
  case isTrue =>
    set s1 : Hub Peer := { s with handed := update s.handed n (some f) } with hs1
    set fwd' : Forwarder Peer := { fwd with queue := fwd.queue ++ [(n, s.now)] } with hfwd'
    have hf1 : s1.forwarders[f]? = some fwd := hf
    have hhas : ∀ m, fwd'.has m ↔ fwd.has m ∨ m = n := by
      intro m
      simp only [Forwarder.has, hfwd', List.mem_append, List.mem_singleton, Prod.mk.injEq]
      constructor
      · rintro (⟨t, ht | ⟨rfl, -⟩⟩ | hst)
        · exact .inl (.inl ⟨t, ht⟩)
        · exact .inr rfl
        · exact .inl (.inr hst)
      · rintro ((⟨t, ht⟩ | hst) | rfl)
        · exact .inl ⟨t, .inl ht⟩
        · exact .inr hst
        · exact .inl ⟨s.now, .inr ⟨rfl, rfl⟩⟩
    have hhold : ∀ g m, (s1.setForwarder f fwd').Holding g m ↔
        s.Holding g m ∨ (g = f ∧ m = n) := by
      intro g m
      rw [holding_setForwarder hf1]
      by_cases hg : g = f
      · subst hg
        rw [if_pos rfl, hhas, holding_iff hf]
        simp
      · rw [if_neg hg]
        simp only [hg, false_and, or_false]
        exact Iff.rfl
    refine ⟨rfl, rfl, rfl, rfl, fun g m => (hhold g m).mp, ?_,
      .inl ((hhold f n).mpr (.inr ⟨rfl, rfl⟩))⟩
    rintro g m (h | h | h)
    · exact .inl ((hhold g m).mpr (.inl h))
    · exact .inr (.inl h)
    · exact .inr (.inr h)
  case isFalse =>
    refine ⟨rfl, rfl, rfl, rfl, fun g m h => .inl h, ?_, .inr (.inr ⟨.queueFull, ?_⟩)⟩
    · rintro g m (h | h | ⟨why, h⟩)
      · exact .inl h
      · exact .inr (.inl h)
      · exact .inr (.inr ⟨why, List.mem_append_left _ h⟩)
    · exact List.mem_append_right _ (List.mem_singleton_self _)

/-- A `try_send` after a change that only touched the routes, the channels and the count. -/
theorem hands_enqueue {base : Hub Peer} {f n : Nat} {fwd : Forwarder Peer}
    (hf : base.forwarders[f]? = some fwd) (hh : base.handed = s.handed)
    (hd : s.delivered ≤ base.delivered) (hn : n < base.delivered ∧ s.handed n = none)
    (hc : ∀ c p m, base.Connecting c p m → s.Connecting c p m ∧ m ≠ n)
    (hhold : ∀ g m, base.Holding g m ↔ s.Holding g m) (hs : base.sent = s.sent)
    (hdr : base.dropped = s.dropped) : Hands f n s (base.enqueue f fwd n) := by
  obtain ⟨ehanded, edelivered, echannels, esent, eheld, ekeeps, esettled⟩ := enqueue_holding hf n
  refine ⟨?_, ?_, ?_, ?_, ?_, ?_, ?_, esettled⟩
  · rw [ehanded, hh]
  · rwa [edelivered]
  · rwa [edelivered]
  · intro c p m h
    rw [Connecting, echannels] at h
    exact hc c p m h
  · intro g m h
    rcases eheld g m h with h | h
    · exact .inl ((hhold g m).mp h)
    · exact .inr h
  · rw [esent, hs]
  · rintro g m (h | h | h)
    · exact ekeeps g m (.inl ((hhold g m).mpr h))
    · exact ekeeps g m (.inr (.inl (hs ▸ h)))
    · exact ekeeps g m (.inr (.inr (hdr ▸ h)))

theorem connecting_setChannel {c : Nat} {stage : Channel Peer} {c' : Nat} {p : Peer} {n : Nat}
    (h : (s.setChannel c stage).Connecting c' p n) :
    (c' = c ∧ stage = .connecting p n) ∨ (c' ≠ c ∧ s.Connecting c' p n) := by
  unfold Connecting setChannel at h
  by_cases hc : c' = c
  · subst hc
    refine .inl ⟨rfl, ?_⟩
    by_cases hlt : c' < s.channels.length
    · rw [List.getElem?_set_self hlt] at h
      exact Option.some.inj h
    · rw [List.getElem?_eq_none (by rw [List.length_set]; omega)] at h
      cases h
  · rw [List.getElem?_set_ne (Ne.symm hc)] at h
    exact .inr ⟨hc, h⟩

/-- A channel that is no longer connecting. -/
theorem connecting_of_setChannel_reading {c c' : Nat} {p : Peer} {n : Nat}
    (h : (s.setChannel c .reading).Connecting c' p n) : c' ≠ c ∧ s.Connecting c' p n := by
  rcases connecting_setChannel h with ⟨-, h⟩ | h
  · cases h
  · exact h

/-- The forwarder drops the head of its queue, or starts to write it. -/
theorem Passes.take {f : Nat} {fwd : Forwarder Peer} (hf : s.forwarders[f]? = some fwd)
    (h : s.take f fwd = some s') : Passes s s' := by
  unfold Hub.take at h
  split at h
  case h_1 n t rest hstage hqueue =>
    have hhas : ∀ m, fwd.has m ↔ m = n ∨ ∃ t, (m, t) ∈ rest := by
      intro m
      simp only [Forwarder.has, hqueue, hstage, List.mem_cons, Prod.mk.injEq, reduceCtorEq, or_false]
      constructor
      · rintro ⟨t', ⟨rfl, -⟩ | ht⟩
        · exact .inl rfl
        · exact .inr ⟨t', ht⟩
      · rintro (rfl | ⟨t', ht⟩)
        · exact ⟨t, .inl ⟨rfl, rfl⟩⟩
        · exact ⟨t', .inr ht⟩
    split at h
    case isTrue =>
      cases h
      refine .of_forwarder hf rfl rfl rfl rfl ?_ (fun g m hm => .inl hm) (fun x hx => hx)
        (fun x hx => List.mem_append_left _ hx) ?_
      · rintro m (ht | hs)
        · exact (hhas m).mpr (.inr ht)
        · rw [hstage] at hs
          cases hs
      · intro m hm
        rcases (hhas m).mp hm with rfl | ht
        · exact .inr (.inr ⟨.late, List.mem_append_right _ (List.mem_singleton_self _)⟩)
        · exact .inl (.inl ht)
    case isFalse =>
      cases h
      refine .of_forwarder hf rfl rfl rfl rfl ?_ (fun g m hm => .inl hm) (fun x hx => hx)
        (fun x hx => hx) ?_
      · rintro m (ht | hs)
        · exact (hhas m).mpr (.inr ht)
        · cases hs
          exact (hhas n).mpr (.inl rfl)
      · intro m hm
        rcases (hhas m).mp hm with rfl | ht
        · exact .inl (.inr rfl)
        · exact .inl (.inl ht)
  case h_2 => cases h

/-- The socket took what the forwarder was writing, or failed. -/
theorem Passes.sendDone {f : Nat} {fwd : Forwarder Peer} {ok : Bool}
    (hf : s.forwarders[f]? = some fwd) (h : s.sendDone f fwd ok = some s') : Passes s s' := by
  unfold Hub.sendDone at h
  split at h
  case h_1 n hstage =>
    have hqueue : ∀ stage m, ({ fwd with stage := stage } : Forwarder Peer).has m →
        (∀ k, stage ≠ .sending k) → fwd.has m := by
      rintro stage m (ht | hs) hnot
      · exact .inl ht
      · exact absurd hs (hnot m)
    split at h
    case isTrue =>
      cases h
      refine .of_forwarder hf rfl rfl rfl rfl (fun m hm => hqueue _ m hm nofun) ?_
        (fun x hx => List.mem_append_left _ hx) (fun x hx => hx) ?_
      · intro g m hm
        rcases List.mem_append.mp hm with hm | hm
        · exact .inl hm
        · cases List.mem_singleton.mp hm
          exact .inr ⟨rfl, .inr hstage⟩
      · rintro m (ht | hs)
        · exact .inl (.inl ht)
        · rw [hstage] at hs
          cases hs
          exact .inr (.inl (List.mem_append_right _ (List.mem_singleton_self _)))
    case isFalse =>
      cases h
      refine .of_forwarder hf rfl rfl rfl rfl (fun m hm => hqueue _ m hm nofun)
        (fun g m hm => .inl hm) (fun x hx => hx) (fun x hx => List.mem_append_left _ hx) ?_
      rintro m (ht | hs)
      · exact .inl (.inl ht)
      · rw [hstage] at hs
        cases hs
        exact .inr (.inr ⟨.sendFailed, List.mem_append_right _ (List.mem_singleton_self _)⟩)
  case h_2 => cases h

/-- A forwarder that is not writing changes its stage to another that is not. -/
theorem Passes.of_stage {f : Nat} {fwd fwd' : Forwarder Peer} (hf : s.forwarders[f]? = some fwd)
    (hs' : s'.forwarders = s.forwarders.set f fwd') (hq : fwd'.queue = fwd.queue)
    (hold : ∀ n, fwd.stage ≠ .sending n) (hnew : ∀ n, fwd'.stage ≠ .sending n)
    (hh : s'.handed = s.handed) (hd : s'.delivered = s.delivered) (hc : s'.channels = s.channels)
    (hsent : s'.sent = s.sent) (hdr : s'.dropped = s.dropped) : Passes s s' := by
  have hhas : ∀ n, fwd'.has n ↔ fwd.has n := by
    intro n
    simp only [Forwarder.has, hq, hold n, hnew n]
  refine .of_forwarder hf hs' hh hd hc (fun n => (hhas n).mp) ?_ ?_ ?_
    fun n h => .inl ((hhas n).mpr h)
  · rw [hsent]
    exact fun g n h => .inl h
  · rw [hsent]
    exact fun x h => h
  · rw [hdr]
    exact fun x h => h

theorem Passes.leave {f : Nat} {fwd : Forwarder Peer} (hf : s.forwarders[f]? = some fwd)
    (h : s.leave f fwd = some s') : Passes s s' := by
  unfold Hub.leave at h
  split at h
  case h_1 hstage =>
    cases h
    exact .of_stage hf rfl rfl (by rw [hstage]; nofun) nofun rfl rfl rfl rfl rfl
  case h_2 => cases h

/-- A forwarder that ends forgets its queue. -/
theorem Passes.finish {f : Nat} {fwd : Forwarder Peer} (hf : s.forwarders[f]? = some fwd)
    (h : s.finish f fwd = some s') : Passes s s' := by
  unfold Hub.finish at h
  split at h
  case h_1 hstage =>
    cases h
    refine .of_forwarder hf rfl rfl rfl rfl ?_ (fun g m hm => .inl hm) (fun x hx => hx)
      (fun x hx => List.mem_append_left _ hx) ?_
    · rintro m (⟨t, ht⟩ | hs)
      · cases ht
      · cases hs
    · rintro m (⟨t, ht⟩ | hs)
      · refine .inr (.inr ⟨.forgotten, List.mem_append_right _ ?_⟩)
        exact List.mem_map_of_mem (f := fun item => (item.1, Drop.forgotten)) ht
      · rw [hstage] at hs
        cases hs
  case h_2 => cases h

/-- A `deliver` comes under way: the peer is new. -/
def begin (s : Hub Peer) (c : Nat) (peer : Peer) : Hub Peer :=
  { s with delivered := s.delivered + 1 }.setChannel c (.connecting peer s.delivered)

theorem Tracked.handed_delivered (h : s.Tracked) : s.handed s.delivered = none := by
  cases hn : s.handed s.delivered with
  | none => rfl
  | some f => exact absurd (h.below _ f hn) (Nat.lt_irrefl _)

theorem Tracked.begin (h : s.Tracked) (c : Nat) (peer : Peer) : (s.begin c peer).Tracked where
  below n f hn := Nat.lt_succ_of_lt (h.below n f hn)
  underWay c' p n hc := by
    rcases connecting_setChannel hc with ⟨-, heq⟩ | ⟨-, hc⟩
    · cases heq
      exact ⟨Nat.lt_succ_self _, h.handed_delivered⟩
    · obtain ⟨hlt, hnone⟩ := h.underWay c' p n hc
      exact ⟨Nat.lt_succ_of_lt hlt, hnone⟩
  apart c1 c2 p1 p2 n h1 h2 := by
    rcases connecting_setChannel h1 with ⟨rfl, heq⟩ | ⟨-, old1⟩
    · rcases connecting_setChannel h2 with ⟨rfl, -⟩ | ⟨-, old2⟩
      · rfl
      · cases heq
        exact absurd (h.underWay c2 p2 _ old2).1 (Nat.lt_irrefl _)
    · rcases connecting_setChannel h2 with ⟨rfl, heq⟩ | ⟨-, old2⟩
      · cases heq
        exact absurd (h.underWay c1 p1 _ old1).1 (Nat.lt_irrefl _)
      · exact h.apart c1 c2 p1 p2 n old1 old2
  held := h.held
  sent := h.sent
  settled := h.settled

variable [DecidableEq Peer]

/-- `deliver`, up to the socket of a new peer. -/
theorem Tracked.deliver_cases (h : s.Tracked) {c : Nat} {peer : Peer}
    (hstep : s.deliver c peer = some s') : (∃ f n, Hands f n s s') ∨ s' = s.begin c peer := by
  unfold Hub.deliver at hstep
  dsimp only at hstep
  split at hstep
  case h_1 route _ =>
    obtain ⟨fwd, hf, rfl⟩ := Option.map_eq_some_iff.mp hstep
    refine .inl ⟨route.inbound, s.delivered, hands_enqueue hf rfl (Nat.le_succ _)
      ⟨Nat.lt_succ_self _, h.handed_delivered⟩ ?_ (fun g m => Iff.rfl) rfl rfl⟩
    intro c' p m hc
    refine ⟨hc, ?_⟩
    have hlt := (h.underWay c' p m hc).1
    omega
  case h_2 =>
    cases hstep
    exact .inr rfl

/-- The rest of `deliver`, with the socket connected. -/
theorem Tracked.connected_hands (h : s.Tracked) {c : Nat} {peer : Peer} {n : Nat}
    (hc : s.Connecting c peer n) (hstep : s.connected c peer n = some s') :
    ∃ f, Hands f n s s' := by
  have hothers : ∀ c' p m, (s.setChannel c .reading).Connecting c' p m →
      s.Connecting c' p m ∧ m ≠ n := by
    intro c' p m hc'
    obtain ⟨hne, hold⟩ := connecting_of_setChannel_reading hc'
    refine ⟨hold, fun hm => hne ?_⟩
    subst hm
    exact h.apart c' c p peer m hold hc
  unfold Hub.connected at hstep
  dsimp only at hstep
  split at hstep
  case h_1 route _ =>
    obtain ⟨fwd, hf, rfl⟩ := Option.map_eq_some_iff.mp hstep
    exact ⟨_, hands_enqueue hf rfl (Nat.le_refl _) (h.underWay c peer n hc) hothers
      (fun g m => Iff.rfl) rfl rfl⟩
  case h_2 =>
    cases hstep
    unfold create
    dsimp only
    refine ⟨_, hands_enqueue ?_ rfl (Nat.le_refl _) (h.underWay c peer n hc) hothers
      (fun g m => ?_) rfl rfl⟩
    · exact List.getElem?_concat_length
    · unfold Holding
      dsimp only [setChannel]
      rcases Nat.lt_trichotomy g s.forwarders.length with hg | rfl | hg
      · rw [List.getElem?_append_left hg]
      · simp [Forwarder.has]
      · rw [List.getElem?_eq_none (by simp; omega), List.getElem?_eq_none (Nat.le_of_lt hg)]

theorem Passes.removeRoute {f : Nat} {fwd : Forwarder Peer} (hf : s.forwarders[f]? = some fwd)
    (h : s.removeRoute f fwd = some s') : Passes s s' := by
  unfold Hub.removeRoute at h
  split at h
  case h_1 hstage =>
    cases h
    exact .of_stage hf rfl rfl (by rw [hstage]; nofun) nofun rfl rfl rfl rfl rfl
  case h_2 => cases h

/-- **What a step does to the datagrams**: it passes some on or drops them, hands one to a
forwarder, or takes one up for a new peer. -/
theorem Tracked.step_cases (h : s.Tracked) (hstep : s.step e = some s') :
    Passes s s' ∨ (∃ f n, Hands f n s s') ∨ ∃ c peer, s' = s.begin c peer := by
  cases e with
  | openChannel =>
    cases hstep
    refine .inl (.of_eq rfl rfl ?_ (fun f n => Iff.rfl) rfl fun x hx => hx)
    intro c p n hc
    unfold Connecting at hc ⊢
    dsimp only at hc
    rcases Nat.lt_trichotomy c s.channels.length with hlt | rfl | hgt
    · rwa [List.getElem?_append_left hlt] at hc
    · rw [List.getElem?_concat_length] at hc
      cases hc
    · rw [List.getElem?_eq_none (by rw [List.length_append]; exact hgt)] at hc
      cases hc
  | closeChannel c =>
    simp only [Hub.step] at hstep
    split at hstep
    case isTrue =>
      cases hstep
      refine .inl (.of_eq rfl rfl ?_ (fun f n => Iff.rfl) rfl fun x hx => hx)
      intro c' p n hc
      rcases connecting_setChannel hc with ⟨-, heq⟩ | ⟨-, hold⟩
      · cases heq
      · exact hold
    case isFalse => cases hstep
  | deliver c peer =>
    simp only [Hub.step] at hstep
    split at hstep
    case isTrue =>
      rcases h.deliver_cases hstep with hands | rfl
      · exact .inr (.inl hands)
      · exact .inr (.inr ⟨c, peer, rfl⟩)
    case isFalse => cases hstep
  | connected c =>
    simp only [Hub.step] at hstep
    split at hstep
    case h_1 peer n hc =>
      obtain ⟨f, hands⟩ := h.connected_hands hc hstep
      exact .inr (.inl ⟨f, n, hands⟩)
    case h_2 => cases hstep
  | connectFailed c =>
    simp only [Hub.step] at hstep
    split at hstep
    case h_1 =>
      cases hstep
      exact .inl (.of_eq rfl rfl (fun c' p n hc => (connecting_of_setChannel_reading hc).2)
        (fun f n => Iff.rfl) rfl fun x hx => List.mem_append_left _ hx)
    case h_2 => cases hstep
  | take f =>
    obtain ⟨fwd, hf, hstep⟩ := Option.bind_eq_some_iff.mp hstep
    exact .inl (.take hf hstep)
  | sendOk f =>
    obtain ⟨fwd, hf, hstep⟩ := Option.bind_eq_some_iff.mp hstep
    exact .inl (.sendDone hf hstep)
  | sendFailed f =>
    obtain ⟨fwd, hf, hstep⟩ := Option.bind_eq_some_iff.mp hstep
    exact .inl (.sendDone hf hstep)
  | fallBack f c =>
    obtain ⟨fwd, -, hstep⟩ := Option.bind_eq_some_iff.mp hstep
    unfold Hub.fallBack at hstep
    split at hstep
    case h_1 =>
      cases hstep
      exact .inl (.of_eq rfl rfl (fun c p n hc => hc) (fun f n => Iff.rfl) rfl fun x hx => hx)
    case h_2 => cases hstep
  | leave f =>
    obtain ⟨fwd, hf, hstep⟩ := Option.bind_eq_some_iff.mp hstep
    exact .inl (.leave hf hstep)
  | removeRoute f =>
    obtain ⟨fwd, hf, hstep⟩ := Option.bind_eq_some_iff.mp hstep
    exact .inl (.removeRoute hf hstep)
  | finish f =>
    obtain ⟨fwd, hf, hstep⟩ := Option.bind_eq_some_iff.mp hstep
    exact .inl (.finish hf hstep)
  | pass ms =>
    cases hstep
    exact .inl (.of_eq rfl rfl (fun c p n hc => hc) (fun f n => Iff.rfl) rfl fun x hx => hx)

/-- **One step** keeps track of every datagram. -/
theorem Tracked.step (h : s.Tracked) (hstep : s.step e = some s') : s'.Tracked := by
  rcases h.step_cases hstep with hp | ⟨f, n, hp⟩ | ⟨c, peer, rfl⟩
  · exact h.passes hp
  · exact h.hands hp
  · exact h.begin c peer

theorem reach_tracked (h : (forwarding Peer).Reach s) : s.Tracked := by
  refine h.invariant (P := fun s => s.Tracked) ?_ fun s e s' hs hstep => hs.step hstep
  rintro s rfl
  refine ⟨nofun, ?_, ?_, ?_, nofun, nofun⟩
  · intro c p n hc
    simp [Connecting, new] at hc
  · intro c c' p p' n hc
    simp [Connecting, new] at hc
  · rintro f n ⟨fwd, hf, -⟩
    simp [new] at hf

/-- The datagram was handed to a forwarder, and is neither with one nor sent. -/
def Lost (s : Hub Peer) (n : Nat) : Prop :=
  s.handed n ≠ none ∧ (∀ f, ¬ s.Holding f n) ∧ ∀ f, (f, n) ∉ s.sent

/-- A lost datagram stays lost. -/
theorem Lost.step {n : Nat} (hn : s.Lost n) (h : s.Tracked) (hstep : s.step e = some s') :
    s'.Lost n := by
  obtain ⟨hhanded, hheld, hsent⟩ := hn
  rcases h.step_cases hstep with hp | ⟨f, m, hp⟩ | ⟨c, peer, rfl⟩
  · refine ⟨by rwa [hp.handed], fun f hf => hheld f (hp.held f n hf), fun f hf => ?_⟩
    rcases hp.sent f n hf with hf | hf
    · exact hsent f hf
    · exact hheld f hf
  · have hne : n ≠ m := fun heq => hhanded (heq ▸ hp.new.2)
    refine ⟨by rwa [hp.handed, update_of_ne hne], fun g hg => ?_,
      fun g hg => hsent g (hp.sent ▸ hg)⟩
    rcases hp.held g n hg with hg | ⟨-, heq⟩
    · exact hheld g hg
    · exact hne heq
  · exact ⟨hhanded, hheld, hsent⟩

theorem Lost.runs {n : Nat} (hn : s.Lost n) (h : s.Tracked)
    (hruns : ((forwarding Peer).startingAt s).Reach s') : s'.Lost n ∧ s'.Tracked := by
  refine hruns.invariant (P := fun s => s.Lost n ∧ s.Tracked) ?_ ?_
  · rintro s rfl
    exact ⟨hn, h⟩
  · rintro s e s' ⟨hn, h⟩ hstep
    exact ⟨hn.step h hstep, h.step hstep⟩

/-! ## 5. One forwarder per peer -/

/-- A datagram of a peer with a route goes to the route's forwarder. -/
theorem deliver_handed {c : Nat} {peer : Peer} {f : Nat} (h : s.Owned)
    (hc : s.channels[c]? = some .reading) (ho : s.owner peer = some f) :
    ∃ s', s.step (.deliver c peer) = some s' ∧ s'.handed s.delivered = some f ∧
      s'.owner = s.owner := by
  obtain ⟨route, hr, rfl⟩ := Option.map_eq_some_iff.mp ho
  have hserves := (h peer route.inbound).mp ho
  obtain ⟨fwd, hf, -⟩ := Option.bind_eq_some_iff.mp hserves
  have hstep : s.step (.deliver c peer) = some
      ({ s with delivered := s.delivered + 1,
                routes := s.routes.insert peer { route with outbound := c } }.enqueue
        route.inbound fwd s.delivered) := by
    simp [step, hc, Hub.deliver, hr, reuse, hf]
  refine ⟨_, hstep, ?_, ?_⟩
  · rw [(enqueue_holding (by exact hf) _).1, update_self]
  · rw [enqueue_owner]
    refine (owner_insert { s with delivered := s.delivered + 1 } peer _).trans ?_
    exact update_eq_self_iff.mpr ho.symm

/-- A datagram whose socket is connected goes to the peer's forwarder: to the one that has got the
route meanwhile, and to a new one only where there is none. -/
theorem connected_handed {c : Nat} {peer : Peer} {n : Nat} (h : s.Owned)
    (hc : s.channels[c]? = some (.connecting peer n)) :
    ∃ s' f, s.step (.connected c) = some s' ∧ s'.handed n = some f ∧ s'.owner peer = some f ∧
      ∀ g, s.owner peer = some g → g = f ∧ s'.owner = s.owner := by
  let back := s.setChannel c .reading
  cases hr : s.routes.lookup peer with
  | some route =>
    have ho : s.owner peer = some route.inbound := by rw [owner, hr, Option.map_some]
    obtain ⟨fwd, hf, -⟩ := Option.bind_eq_some_iff.mp ((h peer route.inbound).mp ho)
    have hstep : s.step (.connected c) = some
        ({ back with routes := s.routes.insert peer { route with outbound := c } }.enqueue
          route.inbound fwd n) := by
      have hr' : (s.setChannel c .reading).routes.lookup peer = some route := hr
      have hf' : (s.setChannel c .reading).forwarders[route.inbound]? = some fwd := hf
      simp only [step, hc, Hub.connected, hr', reuse, hf', Option.map_some]
      rfl
    have howner : ({ back with routes := s.routes.insert peer { route with outbound := c } }.enqueue
        route.inbound fwd n).owner = s.owner := by
      rw [enqueue_owner]
      exact (owner_insert back peer _).trans (update_eq_self_iff.mpr ho.symm)
    refine ⟨_, route.inbound, hstep, ?_, by rw [howner]; exact ho, ?_⟩
    · rw [(enqueue_holding (by exact hf) _).1, update_self]
    · exact fun g hg => ⟨Option.some.inj (hg.symm.trans ho), howner⟩
  | none =>
    have hnone : s.owner peer = none := by rw [owner, hr, Option.map_none]
    have hstep : s.step (.connected c) = some (back.create c peer n) := by
      have hr' : (s.setChannel c .reading).routes.lookup peer = none := hr
      simp only [step, hc, Hub.connected, hr']
      rfl
    refine ⟨_, s.forwarders.length, hstep, ?_, ?_, ?_⟩
    · unfold create
      dsimp only
      rw [(enqueue_holding (by exact List.getElem?_concat_length) _).1]
      exact update_self ..
    · rw [(roles_create back c peer n).1]
      exact update_self ..
    · intro g hg
      rw [hnone] at hg
      cases hg

/-- **One forwarder per peer.**  In every state of every run: two forwarders that both still serve a
peer are one, and the peer's route is that forwarder's; whenever a route stops pointing at a
forwarder, that forwarder removed it; a datagram of a peer with a route can be delivered on every
channel that reads, and is handed to the route's forwarder; so is one for which a socket has been
connected, where another channel was faster; and a datagram that was handed to a forwarder is in
its queue, went through its socket, or was dropped, and never went through another. -/
theorem one_forwarder (s : Hub Peer) (hs : (forwarding Peer).Reach s) :
    (∀ peer f g, s.serves f = some peer → s.serves g = some peer → f = g) ∧
    (∀ peer f, s.owner peer = some f ↔ s.serves f = some peer) ∧
    (∀ e s' peer f, s.step e = some s' → s.owner peer = some f → s'.owner peer ≠ some f →
      e = .removeRoute f) ∧
    (∀ c peer f, s.channels[c]? = some .reading → s.owner peer = some f →
      ∃ s', s.step (.deliver c peer) = some s' ∧ s'.handed s.delivered = some f ∧
        s'.owner = s.owner) ∧
    (∀ c peer n, s.channels[c]? = some (.connecting peer n) →
      ∃ s' f, s.step (.connected c) = some s' ∧ s'.handed n = some f ∧ s'.owner peer = some f ∧
        ∀ g, s.owner peer = some g → g = f ∧ s'.owner = s.owner) ∧
    (∀ n f, s.handed n = some f → s.Settled f n) ∧
    (∀ n f, (f, n) ∈ s.sent → s.handed n = some f) := by
  have howned := reach_owned hs
  have htracked := reach_tracked hs
  refine ⟨?_, howned, ?_, ?_, ?_, ?_, ?_⟩
  · intro peer f g hf hg
    have h1 := (howned peer f).mpr hf
    have h2 := (howned peer g).mpr hg
    exact Option.some.inj (h1.symm.trans h2)
  · exact fun e s' peer f hstep hf hgone => howned.removed_by_owner hstep hf hgone
  · exact fun c peer f hc ho => deliver_handed howned hc ho
  · exact fun c peer n hc => connected_handed howned hc
  · exact fun n f hn => htracked.settled f n hn
  · exact fun n f hn => htracked.sent f n hn

end Hub

/-- Two channels meet a new peer at once, and the second finds the first one's route. -/
def raceRun : List (Event Nat) :=
  [.openChannel, .openChannel, .deliver 0 7, .deliver 1 7, .connected 0, .connected 1, .take 0,
    .sendOk 0]

theorem one_forwarder_race :
    ∃ s : Hub Nat, (forwarding Nat).Reach s ∧ s.owner 7 = some 0 ∧ s.handed 1 = some 0 ∧
      (0, 0) ∈ s.sent ∧ (∀ g, s.serves g = some 7 → g = 0) ∧ s.Settled 0 1 := by
  have hrun : (Lts.runWith Hub.step (fun _ _ => true) (.new : Hub Nat) raceRun).any (fun s =>
      decide (s.owner 7 = some 0 ∧ s.handed 1 = some 0 ∧ (0, 0) ∈ s.sent)) = true := by
    decide +kernel
  obtain ⟨s, hs, hP⟩ :=
    Lts.Reach.exists_run (T := forwarding Nat) (fun s e s' h => h) (s := .new) rfl hrun
  obtain ⟨howner, hhanded, hsent⟩ := of_decide_eq_true hP
  obtain ⟨hone, hroute, -, -, -, hsettled, -⟩ := Hub.one_forwarder s hs
  exact ⟨s, hs, howner, hhanded, hsent, fun g hg => hone 7 g 0 hg ((hroute 7 0).mp howner),
    hsettled 1 0 hhanded⟩

/-- A forwarder that gave its route back still has its socket when the peer gets a new one. -/
theorem exists_two_sockets :
    ∃ s : Hub Nat, (forwarding Nat).Reach s ∧
      s.forwarders.map (fun fwd => (fwd.peer, fwd.stage)) = [(7, .closing), (7, .serving)] := by
  have hrun : (Lts.runWith Hub.step (fun _ _ => true) (.new : Hub Nat)
      [.openChannel, .deliver 0 7, .connected 0, .leave 0, .removeRoute 0, .deliver 0 7,
        .connected 0]).any (fun s => decide (s.forwarders.map (fun fwd => (fwd.peer, fwd.stage)) =
          [(7, .closing), (7, .serving)])) = true := by
    decide +kernel
  obtain ⟨s, hs, hP⟩ :=
    Lts.Reach.exists_run (T := forwarding Nat) (fun s e s' h => h) (s := .new) rfl hrun
  exact ⟨s, hs, of_decide_eq_true hP⟩

/-- **A datagram of a peer with a live route need not be sent**: the forwarder comes to it after
11 ms, and drops it.  And a peer can have two sockets open, one of a forwarder that gave its route
back. -/
theorem datagram_dropped :
    (∃ s s' s'' : Hub Nat, (forwarding Nat).Reach s ∧ s.owner 7 = some 0 ∧
      s.step (.deliver 0 7) = some s' ∧ ((forwarding Nat).startingAt s').Reach s'' ∧
      ∀ t, ((forwarding Nat).startingAt s'').Reach t → ∀ f, (f, s.delivered) ∉ t.sent) ∧
    ∃ s : Hub Nat, (forwarding Nat).Reach s ∧
      s.forwarders.map (fun fwd => (fwd.peer, fwd.stage)) = [(7, .closing), (7, .serving)] := by
  refine ⟨?_, exists_two_sockets⟩
  have hrun : (Lts.runWith Hub.step (fun _ _ => true) (.new : Hub Nat)
      [.openChannel, .deliver 0 7, .connected 0, .take 0, .sendOk 0]).any (fun s =>
      decide (s.owner 7 = some 0) && (s.step (.deliver 0 7)).any fun s' =>
        ((s'.step (.pass 11)).bind (Hub.step · (.take 0))).any fun s'' =>
          decide (s''.handed s.delivered ≠ none ∧
            (∀ fwd ∈ s''.forwarders, fwd.queue = [] ∧ fwd.stage = .serving) ∧
            ∀ x ∈ s''.sent, x.2 ≠ s.delivered)) = true := by
    decide +kernel
  obtain ⟨s, hs, hP⟩ :=
    Lts.Reach.exists_run (T := forwarding Nat) (fun s e s' h => h) (s := .new) rfl hrun
  obtain ⟨howner, hP⟩ := Bool.and_eq_true_iff.mp hP
  obtain ⟨s1, h1, hP⟩ := (Option.any_eq_true ..).mp hP
  obtain ⟨s3, h3, hP⟩ := (Option.any_eq_true ..).mp hP
  obtain ⟨s2, h2, h3⟩ := Option.bind_eq_some_iff.mp h3
  obtain ⟨hhanded, hempty, hsent⟩ := of_decide_eq_true hP
  have hreach : (forwarding Nat).Reach s3 := ((hs.step h1).step h2).step h3
  have hlost : s3.Lost s.delivered := by
    refine ⟨hhanded, ?_, fun f hf => hsent _ hf rfl⟩
    rintro f ⟨fwd, hf, hhas⟩
    obtain ⟨hqueue, hstage⟩ := hempty fwd (List.mem_of_getElem? hf)
    rcases hhas with ⟨t, ht⟩ | hs
    · rw [hqueue] at ht
      cases ht
    · rw [hstage] at hs
      cases hs
  have hlater : ((forwarding Nat).startingAt s1).Reach s3 := ((Lts.Reach.init rfl).step h2).step h3
  refine ⟨s, s1, s3, hs, of_decide_eq_true howner, h1, hlater, fun t ht => ?_⟩
  exact (hlost.runs (Hub.reach_tracked hreach) ht).1.2.2

end Molehill.Client.Forwarding
