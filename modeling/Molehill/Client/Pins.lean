/-
# The client's UDP pin accounting

A UDP service of the client has a hub (`UdpHub`): its peers' routes, each with the queue of the
data channel the peer's replies go out on, and the queues of the channels that are up.  A peer is
pinned to the tunnel its route's channel is a stream of, and the registry (`PinRegistry`), which
all hubs of a session share, counts the pins per tunnel, so that the pool does not drain a tunnel
that carries a peer.

The registry knows a channel by an id.  `run_mux_data_channel` binds the channel's tunnel under an
id of the service's counter `channels`; `run_data_channel_for_udp` pins peers under an id of the
hub's counter `next_channel_id`.  Nothing makes the two equal, each service counts from zero, and
the forwarder that ends removes its route without a word to the registry.

Every task is modelled from one lock to the next: a data channel (`ChannelTask`), a peer's forwarder
(`Forwarder`), and the locks' contents (`UdpState`).  A service is one activation of it, so its
counters start at zero.  `pinned_exact` says which steps keep the counts right, and that no other
step does; `pin_outlives_route` is the shortest run that makes them wrong.
-/
import Mathlib.Logic.Function.Basic
import Molehill.Lib.Table
import Molehill.Lib.Tally
import Molehill.Lib.Transition
import Molehill.Transparent.Packet

namespace Molehill.Client

open Lib Function
open Molehill.Transparent (SocketAddr)

/-! ## 1. The registry -/

/-- `usize::MAX`. -/
def usizeMax : Nat := 2 ^ 64 - 1

/-- `PinRegistry`: the tunnel of a channel id, and the pins of a tunnel. -/
structure PinRegistry where
  bound : Table Nat Nat
  counts : Table Nat Nat
  fits : ∀ t n, counts.lookup t = some n → n ≤ usizeMax

namespace PinRegistry

def new : PinRegistry := ⟨∅, ∅, by intro t n h; simp at h⟩

def bind (r : PinRegistry) (channel tunnel : Nat) : PinRegistry :=
  { r with bound := r.bound.insert channel tunnel }

def unbind (r : PinRegistry) (channel : Nat) : PinRegistry :=
  { r with bound := r.bound.erase channel }

/-- `PinRegistry::pinned_on`. -/
def pinnedOn (r : PinRegistry) (tunnel : Nat) : Nat := (r.counts.lookup tunnel).getD 0

/-- The write of a tunnel's count; a count of zero has no entry. -/
def setCount (r : PinRegistry) (tunnel entry : Nat) (h : entry ≤ usizeMax) : PinRegistry where
  bound := r.bound
  counts := if entry = 0 then r.counts.erase tunnel else r.counts.insert tunnel entry
  fits := by
    intro t n hn
    split at hn
    · rw [Table.lookup_erase_eq] at hn
      split at hn
      · cases hn
      · exact r.fits t n hn
    · rw [Table.lookup_insert_eq] at hn
      split at hn
      · cases hn
        exact h
      · exact r.fits t n hn

theorem pinnedOn_le (r : PinRegistry) (t : Nat) : r.pinnedOn t ≤ usizeMax := by
  rw [pinnedOn]
  rcases h : r.counts.lookup t with _ | n
  · exact Nat.zero_le _
  · exact r.fits t n h

/-- `PinRegistry::update`: up or down by one, saturating; nothing for an id that is not bound. -/
def update (r : PinRegistry) (channel : Nat) (pinned : Bool) : PinRegistry :=
  match r.bound.lookup channel with
  | none => r
  | some tunnel =>
    if pinned then r.setCount tunnel (min (r.pinnedOn tunnel + 1) usizeMax) (Nat.min_le_right _ _)
    else
      r.setCount tunnel (r.pinnedOn tunnel - 1)
        (le_trans (Nat.sub_le _ _) (r.pinnedOn_le tunnel))

@[simp] theorem pinnedOn_bind (r : PinRegistry) (channel tunnel t : Nat) :
    (r.bind channel tunnel).pinnedOn t = r.pinnedOn t := rfl

@[simp] theorem pinnedOn_unbind (r : PinRegistry) (channel t : Nat) :
    (r.unbind channel).pinnedOn t = r.pinnedOn t := rfl

theorem pinnedOn_setCount (r : PinRegistry) (tunnel entry t : Nat) (h : entry ≤ usizeMax) :
    (r.setCount tunnel entry h).pinnedOn t = if t = tunnel then entry else r.pinnedOn t := by
  simp only [setCount, pinnedOn]
  split
  case isTrue h0 =>
    rw [Table.lookup_erase_eq]
    split <;> simp [h0]
  case isFalse =>
    rw [Table.lookup_insert_eq]
    split <;> simp

/-- The registry's say in `begin_handover_on` and `handover_step`: a tunnel with a pin is not
drained. -/
def drainable (r : PinRegistry) (tunnel : Nat) : Bool := r.pinnedOn tunnel = 0

/-- The tunnel an update under `channel` is booked on: the one the id is bound to, unless its
count is at that end of the counter's range already. -/
def tunnelFor (r : PinRegistry) (channel : Nat) (pinned : Bool) : Option Nat :=
  (r.bound.lookup channel).filter fun t =>
    if pinned then r.pinnedOn t < usizeMax else 0 < r.pinnedOn t

/-- An update moves the count of that tunnel by one, and no other. -/
theorem pinnedOn_update (r : PinRegistry) (channel t : Nat) (pinned : Bool) :
    ((r.update channel pinned).pinnedOn t : ℤ) =
      if pinned then r.pinnedOn t + unit (r.tunnelFor channel true) t
      else r.pinnedOn t - unit (r.tunnelFor channel false) t := by
  have hle := r.pinnedOn_le
  rcases hb : r.bound.lookup channel with _ | tunnel
  · simp [update, tunnelFor, hb]
  · have hletunnel := hle tunnel
    cases pinned with
    | true =>
      simp only [update, hb, if_true, pinnedOn_setCount, tunnelFor, Option.filter, unit,
        decide_eq_true_eq]
      by_cases ht : t = tunnel
      · subst ht
        by_cases hlt : r.pinnedOn t < usizeMax
        · have hmin : min (r.pinnedOn t + 1) usizeMax = r.pinnedOn t + 1 := by omega
          rw [hmin]
          simp [hlt]
        · simp [hlt]
          omega
      · have ht' : ¬ tunnel = t := fun h => ht h.symm
        by_cases hlt : r.pinnedOn tunnel < usizeMax <;> simp [hlt, ht, ht']
    | false =>
      simp only [update, hb, if_false, pinnedOn_setCount, tunnelFor, Option.filter, unit,
        decide_eq_true_eq, Bool.false_eq_true]
      by_cases ht : t = tunnel
      · subst ht
        by_cases hlt : 0 < r.pinnedOn t
        · simp [hlt]
        · simp [hlt]
          omega
      · have ht' : ¬ tunnel = t := fun h => ht h.symm
        by_cases hlt : 0 < r.pinnedOn tunnel <;> simp [hlt, ht, ht']

end PinRegistry

/-! ## 2. Hubs, channels and forwarders -/

/-- One data channel's queue towards the server: which one it is, and the tunnel its channel is a
stream of (none for a direct channel). -/
structure Writer where
  handle : Nat
  tunnel : Option Nat
  deriving DecidableEq

/-- `UdpVisitorRoute`: the forwarder at the other end of `inbound`, and the channel. -/
structure UdpVisitorRoute where
  inbound : Nat
  outbound : Writer
  channel : Nat
  deriving DecidableEq

/-- `repin`. -/
def repin (pins : PinRegistry) (route : UdpVisitorRoute) (channel : Writer) (channelId : Nat) :
    PinRegistry × UdpVisitorRoute :=
  if route.channel ≠ channelId then
    ((pins.update route.channel false).update channelId true,
      { route with channel := channelId, outbound := channel })
  else (pins, { route with outbound := channel })

/-- The counters and the live queues of one service: `RunDataChannelArgs::channels` and the
fields of `UdpHub` (its routes are in `UdpState`). -/
structure UdpHub where
  keys : Nat
  channels : List Writer
  nextChannel : Nat
  nextChannelId : Nat

def UdpHub.new : UdpHub := ⟨0, [], 0, 0⟩

/-- Where a data channel's task stands. -/
inductive ChannelStage (Peer : Type)
  /-- The id it will bind is taken. -/
  | keyed
  /-- Waiting for the forwarding command. -/
  | waiting
  /-- Its hub id is minted. -/
  | started (id : Nat)
  /-- In the read loop. -/
  | reading (id : Nat)
  /-- Inside `deliver`, the local socket for a new peer not connected yet. -/
  | connecting (id : Nat) (peer : Peer)
  /-- Out of the read loop and unregistered. -/
  | left
  | over
  deriving DecidableEq

/-- A data channel's task: `run_mux_data_channel`, or `run_data_channel` where it has no tunnel. -/
structure ChannelTask (Peer : Type) where
  service : Nat
  writer : Writer
  key : Nat
  stage : ChannelStage Peer

/-- Where a forwarder stands in `send_outbound`. -/
inductive ForwarderStage
  | idle
  /-- The pinned queue was closed, or there is no route. -/
  | unpinned
  /-- A queue is chosen to fall back to. -/
  | fallingBack (writer : Writer)
  | over
  deriving DecidableEq

/-- `run_udp_forwarder`: `channelId` is the id of the channel it was created on. -/
structure Forwarder (Peer : Type) where
  service : Nat
  peer : Peer
  channelId : Nat
  stage : ForwarderStage

/-- What the locks of one session hold, and its tasks.  The routes of a service's hub are the ones
keyed with the service; `closed` has the queues whose writing task ended. -/
structure UdpState (Peer : Type) where
  pins : PinRegistry
  hubs : Nat → UdpHub
  routes : Table (Nat × Peer) UdpVisitorRoute
  tasks : List (ChannelTask Peer)
  forwarders : List (Forwarder Peer)
  closed : List Nat

namespace UdpState

variable {Peer : Type}

def new : UdpState Peer := ⟨.new, fun _ => .new, ∅, [], [], []⟩

def setTask (s : UdpState Peer) (c : Nat) (task : ChannelTask Peer) (stage : ChannelStage Peer) :
    UdpState Peer :=
  { s with tasks := s.tasks.set c { task with stage := stage } }

def setForwarder (s : UdpState Peer) (f : Nat) (fwd : Forwarder Peer) (stage : ForwarderStage) :
    UdpState Peer :=
  { s with forwarders := s.forwarders.set f { fwd with stage := stage } }

def setHub (s : UdpState Peer) (service : Nat) (hub : UdpHub) : UdpState Peer :=
  { s with hubs := update s.hubs service hub }

@[simp] theorem setTask_routes (s : UdpState Peer) (c : Nat) (task : ChannelTask Peer)
    (stage : ChannelStage Peer) : (s.setTask c task stage).routes = s.routes := rfl

@[simp] theorem setTask_pins (s : UdpState Peer) (c : Nat) (task : ChannelTask Peer)
    (stage : ChannelStage Peer) : (s.setTask c task stage).pins = s.pins := rfl

@[simp] theorem setForwarder_routes (s : UdpState Peer) (f : Nat) (fwd : Forwarder Peer)
    (stage : ForwarderStage) : (s.setForwarder f fwd stage).routes = s.routes := rfl

@[simp] theorem setForwarder_pins (s : UdpState Peer) (f : Nat) (fwd : Forwarder Peer)
    (stage : ForwarderStage) : (s.setForwarder f fwd stage).pins = s.pins := rfl

variable [DecidableEq Peer]

/-- `repin` of a route in the table. -/
def repinAt (s : UdpState Peer) (key : Nat × Peer) (route : UdpVisitorRoute) (channel : Writer)
    (channelId : Nat) : UdpState Peer :=
  { s with
    pins := (repin s.pins route channel channelId).1
    routes := s.routes.insert key (repin s.pins route channel channelId).2 }

/-- The last part of `deliver`: a forwarder for a new peer, its route, its pin. -/
def newPeer (s : UdpState Peer) (service : Nat) (peer : Peer) (channel : Writer) (channelId : Nat) :
    UdpState Peer :=
  { s with
    pins := s.pins.update channelId true
    routes := s.routes.insert (service, peer) ⟨s.forwarders.length, channel, channelId⟩
    forwarders := s.forwarders ++ [⟨service, peer, channelId, .idle⟩] }

/-- A forwarder removes the route only if it still points at it. -/
def dropRoute (s : UdpState Peer) (key : Nat × Peer) (inbound : Nat) : UdpState Peer :=
  match s.routes.lookup key with
  | some route => if route.inbound = inbound then { s with routes := s.routes.erase key } else s
  | none => s

end UdpState

/-! ## 3. The system -/

/-- What a task does between two awaits. -/
inductive PinEvent (Peer : Type)
  /-- A stream of a tunnel is open and its prologue written: the channel's id is taken. -/
  | openMux (service tunnel : Nat)
  /-- A channel on a connection of its own. -/
  | openDirect (service : Nat)
  | bindChannel (c : Nat)
  /-- `StartForwardUdp` was read. -/
  | start (c : Nat)
  | register (c : Nat)
  /-- A datagram of `peer` arrived on the channel. -/
  | datagram (c : Nat) (peer : Peer)
  | connected (c : Nat)
  | connectFailed (c : Nat)
  /-- The read loop ended; the channel leaves the hub. -/
  | unregister (c : Nat)
  /-- The task ends. -/
  | finish (c : Nat)
  /-- The task that writes the channel's queue out ended. -/
  | writerEnds (c : Nat)
  /-- The local service answered the peer. -/
  | reply (f : Nat)
  | chooseFallback (f : Nat)
  | fallBack (f : Nat)
  /-- The forwarder ends: idle for too long, or its socket failed. -/
  | forwarderEnds (f : Nat)

namespace UdpState

variable {Peer : Type} [DecidableEq Peer]

/-- One step of the session's tasks, if it is enabled. -/
def step (s : UdpState Peer) : PinEvent Peer → Option (UdpState Peer)
  | .openMux service tunnel =>
    let hub := s.hubs service
    let task := ⟨service, ⟨s.tasks.length, some tunnel⟩, hub.keys, .keyed⟩
    some { s.setHub service { hub with keys := (hub.keys + 1) % 2 ^ 64 } with
      tasks := s.tasks ++ [task] }
  | .openDirect service =>
    some { s with tasks := s.tasks ++ [⟨service, ⟨s.tasks.length, none⟩, 0, .waiting⟩] }
  | .bindChannel c => do
    let task ← s.tasks[c]?
    let tunnel ← task.writer.tunnel
    guard (task.stage = .keyed)
    some { s.setTask c task .waiting with pins := s.pins.bind task.key tunnel }
  | .start c => do
    let task ← s.tasks[c]?
    guard (task.stage = .waiting)
    let hub := s.hubs task.service
    let s := s.setHub task.service { hub with nextChannelId := (hub.nextChannelId + 1) % 2 ^ 64 }
    some (s.setTask c task (.started hub.nextChannelId))
  | .register c => do
    let task ← s.tasks[c]?
    let .started id := task.stage | none
    let hub := s.hubs task.service
    let s := s.setHub task.service { hub with channels := hub.channels ++ [task.writer] }
    some (s.setTask c task (.reading id))
  | .datagram c peer => do
    let task ← s.tasks[c]?
    let .reading id := task.stage | none
    match s.routes.lookup (task.service, peer) with
    | some route => some (s.repinAt (task.service, peer) route task.writer id)
    | none => some (s.setTask c task (.connecting id peer))
  | .connected c => do
    let task ← s.tasks[c]?
    let .connecting id peer := task.stage | none
    let s := s.setTask c task (.reading id)
    match s.routes.lookup (task.service, peer) with
    -- lost the race: the peer has a route by now
    | some route => some (s.repinAt (task.service, peer) route task.writer id)
    | none => some (s.newPeer task.service peer task.writer id)
  | .connectFailed c => do
    let task ← s.tasks[c]?
    let .connecting id _ := task.stage | none
    some (s.setTask c task (.reading id))
  | .unregister c => do
    let task ← s.tasks[c]?
    let .reading _ := task.stage | none
    let hub := s.hubs task.service
    let s := s.setHub task.service
      { hub with channels := hub.channels.filter (·.handle ≠ task.writer.handle) }
    some (s.setTask c task .left)
  | .finish c => do
    let task ← s.tasks[c]?
    -- also without a read loop, where the forwarding command did not come
    guard (task.stage = .left ∨ task.stage = .waiting)
    let pins := if task.writer.tunnel.isSome then s.pins.unbind task.key else s.pins
    some { s.setTask c task .over with pins := pins }
  | .writerEnds c => do
    let task ← s.tasks[c]?
    some { s with closed := task.writer.handle :: s.closed }
  | .reply f => do
    let fwd ← s.forwarders[f]?
    guard (fwd.stage = .idle)
    match s.routes.lookup (fwd.service, fwd.peer) with
    | some route =>
      if route.outbound.handle ∈ s.closed then some (s.setForwarder f fwd .unpinned) else some s
    | none => some (s.setForwarder f fwd .unpinned)
  | .chooseFallback f => do
    let fwd ← s.forwarders[f]?
    guard (fwd.stage = .unpinned)
    let hub := s.hubs fwd.service
    match hub.channels[hub.nextChannel % hub.channels.length]? with
    | none => some (s.setForwarder f fwd .idle)
    | some writer =>
      let s := s.setHub fwd.service { hub with nextChannel := (hub.nextChannel + 1) % 2 ^ 64 }
      some (s.setForwarder f fwd (.fallingBack writer))
  | .fallBack f => do
    let fwd ← s.forwarders[f]?
    let .fallingBack writer := fwd.stage | none
    let s := s.setForwarder f fwd .idle
    match s.routes.lookup (fwd.service, fwd.peer) with
    | some route => some (s.repinAt (fwd.service, fwd.peer) route writer fwd.channelId)
    | none => some s
  | .forwarderEnds f => do
    let fwd ← s.forwarders[f]?
    guard (fwd.stage = .idle)
    some ((s.setForwarder f fwd .over).dropRoute (fwd.service, fwd.peer) f)

end UdpState

/-- One session of the client. -/
def pinning (Peer : Type) [DecidableEq Peer] : Lts (UdpState Peer) (PinEvent Peer) where
  init s := s = .new
  step s e s' := s.step e = some s'

/-! ## 4. What the counts should be, and the steps that keep them so -/

namespace UdpState

variable {Peer : Type} [DecidableEq Peer]

/-- How many peers' routes go out on a stream of the tunnel, over all hubs of the session. -/
def routesOn (s : UdpState Peer) (tunnel : Nat) : Nat :=
  s.routes.tally (fun route => route.outbound.tunnel) tunnel

/-- The registry counts exactly those. -/
def Exact (s : UdpState Peer) : Prop := ∀ t, s.pins.pinnedOn t = s.routesOn t

/-- The tunnels `repin` books a peer off and on: none where the ids are equal. -/
def bookedBy (pins : PinRegistry) (route : UdpVisitorRoute) (channelId : Nat) :
    Option Nat × Option Nat :=
  if route.channel ≠ channelId then
    (pins.tunnelFor route.channel false,
      (pins.update route.channel false).tunnelFor channelId true)
  else (none, none)

/-- Under the ids `repin` is given, the registry has the tunnels of the channels the peer leaves
and enters; or the peer stays on its tunnel, and the registry books it off and on one tunnel. -/
def repinBooked (pins : PinRegistry) (route : UdpVisitorRoute) (channel : Writer)
    (channelId : Nat) : Bool :=
  let booked := bookedBy pins route channelId
  (booked.1 = route.outbound.tunnel ∧ booked.2 = channel.tunnel) ∨
    (booked.1 = booked.2 ∧ route.outbound.tunnel = channel.tunnel)

/-- The step finds the tunnels it needs in the registry, and no forwarder takes the route of a
peer on a tunnel with it. -/
def booked (s : UdpState Peer) : PinEvent Peer → Bool
  | .datagram c peer =>
    match s.tasks[c]? with
    | some ⟨service, writer, _, .reading id⟩ =>
      (s.routes.lookup (service, peer)).all fun route => repinBooked s.pins route writer id
    | _ => true
  | .connected c =>
    match s.tasks[c]? with
    | some ⟨service, writer, _, .connecting id peer⟩ =>
      match s.routes.lookup (service, peer) with
      | some route => repinBooked s.pins route writer id
      | none => s.pins.tunnelFor id true = writer.tunnel
    | _ => true
  | .fallBack f =>
    match s.forwarders[f]? with
    | some ⟨service, peer, channelId, .fallingBack writer⟩ =>
      (s.routes.lookup (service, peer)).all fun route =>
        repinBooked s.pins route writer channelId
    | _ => true
  | .forwarderEnds f =>
    match s.forwarders[f]? with
    | some fwd =>
      (s.routes.lookup (fwd.service, fwd.peer)).all fun route =>
        route.inbound ≠ f ∨ route.outbound.tunnel = none
    | none => true
  | _ => true

omit [DecidableEq Peer] in
/-- The counts read the registry's `counts` and the routes, nothing else. -/
theorem Exact.congr {s s' : UdpState Peer} (hs : s.Exact)
    (hpins : ∀ t, s'.pins.pinnedOn t = s.pins.pinnedOn t) (hroutes : s'.routes = s.routes) :
    s'.Exact := by
  intro t
  rw [hpins, hs t, routesOn, routesOn, hroutes]

theorem pinnedOn_repin (pins : PinRegistry) (route : UdpVisitorRoute) (channel : Writer)
    (channelId t : Nat) :
    ((repin pins route channel channelId).1.pinnedOn t : ℤ) =
      pins.pinnedOn t + (unit (bookedBy pins route channelId).2 t -
        unit (bookedBy pins route channelId).1 t) := by
  rw [repin, bookedBy]
  split
  case isTrue =>
    rw [PinRegistry.pinnedOn_update, if_pos rfl, PinRegistry.pinnedOn_update]
    simp only [Bool.false_eq_true, if_false]
    omega
  case isFalse => simp

theorem repin_outbound (pins : PinRegistry) (route : UdpVisitorRoute) (channel : Writer)
    (channelId : Nat) : (repin pins route channel channelId).2.outbound = channel := by
  rw [repin]
  split <;> rfl

/-- Moving a peer to another channel keeps the counts exactly when it is booked. -/
theorem exact_repinAt {s : UdpState Peer} (hs : s.Exact) {key : Nat × Peer}
    {route : UdpVisitorRoute} (hroute : s.routes.lookup key = some route) (channel : Writer)
    (channelId : Nat) :
    (s.repinAt key route channel channelId).Exact ↔
      repinBooked s.pins route channel channelId = true := by
  have hcount : ∀ t, ((s.repinAt key route channel channelId).routesOn t : ℤ) =
      s.routesOn t + (unit channel.tunnel t - unit route.outbound.tunnel t) := by
    intro t
    rw [routesOn, repinAt, Table.tally_insert, hroute, repin_outbound]
    simp only [Option.bind_some, routesOn]
    omega
  simp only [repinBooked, decide_eq_true_eq]
  rw [← shift_eq_iff, Exact]
  refine forall_congr' fun t => ?_
  have hp := pinnedOn_repin s.pins route channel channelId t
  have hc := hcount t
  have ht := hs t
  have hpins : (s.repinAt key route channel channelId).pins =
    (repin s.pins route channel channelId).1 := rfl
  rw [hpins]
  omega

/-- A new peer keeps the counts exactly when its pin is booked on the channel's tunnel. -/
theorem exact_newPeer {s : UdpState Peer} (hs : s.Exact) {service : Nat} {peer : Peer}
    (hroute : s.routes.lookup (service, peer) = none) (channel : Writer) (channelId : Nat) :
    (s.newPeer service peer channel channelId).Exact ↔
      s.pins.tunnelFor channelId true = channel.tunnel := by
  have hpins : ∀ t, ((s.newPeer service peer channel channelId).pins.pinnedOn t : ℤ) =
      s.pins.pinnedOn t + unit (s.pins.tunnelFor channelId true) t := by
    intro t
    exact s.pins.pinnedOn_update channelId t true
  have hcount : ∀ t, ((s.newPeer service peer channel channelId).routesOn t : ℤ) =
      s.routesOn t + unit channel.tunnel t := by
    intro t
    rw [routesOn, newPeer, Table.tally_insert, hroute]
    simp [routesOn]
  constructor
  · intro h
    refine unit_injective fun t => ?_
    have := h t
    have := hs t
    have := hpins t
    have := hcount t
    omega
  · intro h t
    have := hs t
    have := h ▸ hpins t
    have := hcount t
    omega

/-- A forwarder that ends keeps the counts exactly when it takes no peer off a tunnel. -/
theorem exact_dropRoute {s : UdpState Peer} (hs : s.Exact) (key : Nat × Peer) (inbound : Nat) :
    (s.dropRoute key inbound).Exact ↔ ∀ route, s.routes.lookup key = some route →
      route.inbound ≠ inbound ∨ route.outbound.tunnel = none := by
  rcases hroute : s.routes.lookup key with _ | route
  · simp [dropRoute, hroute, hs]
  · by_cases hin : route.inbound = inbound
    · have hcount : ∀ t, ((s.dropRoute key inbound).routesOn t : ℤ) =
          s.routesOn t - unit route.outbound.tunnel t := by
        intro t
        simp only [routesOn, dropRoute, hroute, if_pos hin, Table.tally_erase, Option.bind_some]
      have hpins : ∀ t, (s.dropRoute key inbound).pins.pinnedOn t = s.pins.pinnedOn t := by
        intro t
        simp only [dropRoute, hroute, if_pos hin]
      constructor
      · rintro h _ ⟨⟩
        refine .inr (unit_injective fun t => ?_)
        have := h t
        have := hs t
        have := hpins t
        have := hcount t
        rw [unit_none]
        omega
      · intro h t
        rcases h route rfl with h | h
        · exact absurd hin h
        · have := hs t
          have := hpins t
          have := hcount t
          rw [h, unit_none] at this
          omega
    · simp [dropRoute, hroute, hin, hs]

/-- The steps that may move a peer: a delivery, a fallback, a forwarder's end. -/
def moves : PinEvent Peer → Bool
  | .datagram .. | .connected _ | .fallBack _ | .forwarderEnds _ => true
  | _ => false

/-- No other step touches a count or a route. -/
theorem frame_step {s s' : UdpState Peer} {e : PinEvent Peer} (he : moves e = false)
    (h : s.step e = some s') :
    (∀ t, s'.pins.pinnedOn t = s.pins.pinnedOn t) ∧ s'.routes = s.routes := by
  cases e with
  | datagram | connected | fallBack | forwarderEnds => cases he
  | openMux | openDirect =>
    cases h
    exact ⟨fun _ => rfl, rfl⟩
  | bindChannel c =>
    simp only [step, Option.bind_eq_bind, Option.bind_eq_some_iff] at h
    obtain ⟨task, htask, tunnel, htunnel, _, _, h⟩ := h
    cases h
    exact ⟨fun _ => rfl, rfl⟩
  | start c =>
    simp only [step, Option.bind_eq_bind, Option.bind_eq_some_iff] at h
    obtain ⟨task, htask, _, _, h⟩ := h
    cases h
    exact ⟨fun _ => rfl, rfl⟩
  | register c | connectFailed c | unregister c =>
    simp only [step, Option.bind_eq_bind, Option.bind_eq_some_iff] at h
    obtain ⟨task, htask, h⟩ := h
    split at h
    · cases h
      exact ⟨fun _ => rfl, rfl⟩
    · cases h
  | finish c =>
    simp only [step, Option.bind_eq_bind, Option.bind_eq_some_iff] at h
    obtain ⟨task, htask, _, _, h⟩ := h
    cases h
    refine ⟨fun t => ?_, rfl⟩
    dsimp only
    split <;> simp
  | writerEnds c =>
    simp only [step, Option.bind_eq_bind, Option.bind_eq_some_iff] at h
    obtain ⟨task, htask, h⟩ := h
    cases h
    exact ⟨fun _ => rfl, rfl⟩
  | reply f =>
    simp only [step, Option.bind_eq_bind, Option.bind_eq_some_iff] at h
    obtain ⟨fwd, hfwd, _, _, h⟩ := h
    split at h
    · split at h <;> cases h <;> exact ⟨fun _ => rfl, rfl⟩
    · cases h
      exact ⟨fun _ => rfl, rfl⟩
  | chooseFallback f =>
    simp only [step, Option.bind_eq_bind, Option.bind_eq_some_iff] at h
    obtain ⟨fwd, hfwd, _, _, h⟩ := h
    split at h <;> cases h <;> exact ⟨fun _ => rfl, rfl⟩

/-- **One step.**  From exact counts, a step leads to exact counts if and only if it is booked. -/
theorem exact_step {s s' : UdpState Peer} {e : PinEvent Peer} (hs : s.Exact)
    (h : s.step e = some s') : s'.Exact ↔ s.booked e = true := by
  cases e with
  | openMux | openDirect | bindChannel | start | register | connectFailed | unregister | finish
  | writerEnds | reply | chooseFallback =>
    obtain ⟨hpins, hroutes⟩ := frame_step rfl h
    exact iff_of_true (hs.congr hpins hroutes) rfl
  | datagram c peer =>
    simp only [step, Option.bind_eq_bind, Option.bind_eq_some_iff] at h
    obtain ⟨⟨service, writer, key, stage⟩, htask, h⟩ := h
    split at h
    case h_2 => cases h
    case h_1 id hstage =>
      simp only at hstage
      subst hstage
      rcases hroute : s.routes.lookup (service, peer) with _ | route
      · simp only [hroute] at h
        cases h
        exact iff_of_true hs (by simp [booked, htask, hroute])
      · simp only [hroute] at h
        cases h
        simpa [booked, htask, hroute] using exact_repinAt hs hroute writer id
  | connected c =>
    simp only [step, Option.bind_eq_bind, Option.bind_eq_some_iff] at h
    obtain ⟨⟨service, writer, key, stage⟩, htask, h⟩ := h
    split at h
    case h_2 => cases h
    case h_1 id peer hstage =>
      simp only at hstage
      subst hstage
      have hs1 : (s.setTask c ⟨service, writer, key, .connecting id peer⟩ (.reading id)).Exact := hs
      rcases hroute : s.routes.lookup (service, peer) with _ | route
      · simp only [setTask_routes, hroute] at h
        cases h
        simpa [booked, htask, hroute] using exact_newPeer hs1 hroute writer id
      · simp only [setTask_routes, hroute] at h
        cases h
        simpa [booked, htask, hroute] using exact_repinAt hs1 hroute writer id
  | fallBack f =>
    simp only [step, Option.bind_eq_bind, Option.bind_eq_some_iff] at h
    obtain ⟨⟨service, peer, channelId, stage⟩, hfwd, h⟩ := h
    split at h
    case h_2 => cases h
    case h_1 writer hstage =>
      simp only at hstage
      subst hstage
      have hs1 : (s.setForwarder f ⟨service, peer, channelId, .fallingBack writer⟩ .idle).Exact := hs
      rcases hroute : s.routes.lookup (service, peer) with _ | route
      · simp only [setForwarder_routes, hroute] at h
        cases h
        exact iff_of_true hs1 (by simp [booked, hfwd, hroute])
      · simp only [setForwarder_routes, hroute] at h
        cases h
        simpa [booked, hfwd, hroute] using exact_repinAt hs1 hroute writer channelId
  | forwarderEnds f =>
    simp only [step, Option.bind_eq_bind, Option.bind_eq_some_iff] at h
    obtain ⟨fwd, hfwd, _, _, h⟩ := h
    cases h
    have hs1 : (s.setForwarder f fwd .over).Exact := hs
    rw [exact_dropRoute hs1, setForwarder_routes]
    rcases hroute : s.routes.lookup (fwd.service, fwd.peer) with _ | route
    · simp [booked, hfwd, hroute]
    · simp [booked, hfwd, hroute]

/-- **The pin counts.**  After any run of booked steps the registry counts, for every tunnel,
exactly the peers whose route goes out on it, so that a tunnel may be drained if and only if no
peer's does; and the next step keeps this if and only if it is booked as well. -/
theorem pinned_exact {s : UdpState Peer}
    (h : ((pinning Peer).restrict fun s e => s.booked e = true).Reach s) :
    (∀ t, s.pins.pinnedOn t = s.routesOn t) ∧
    (∀ t, s.pins.drainable t = true ↔
      ¬ ∃ key route, s.routes.lookup key = some route ∧ route.outbound.tunnel = some t) ∧
    ∀ e s', s.step e = some s' → (s'.Exact ↔ s.booked e = true) := by
  have hexact : s.Exact := by
    refine h.invariant ?_ ?_
    · rintro s rfl
      exact fun _ => rfl
    · rintro s e s' hs ⟨hbooked, hstep⟩
      exact (exact_step hs hstep).mpr hbooked
  refine ⟨hexact, fun t => ?_, fun e s' hstep => exact_step hexact hstep⟩
  have ht := hexact t
  rw [← Table.tally_pos (g := fun route : UdpVisitorRoute => route.outbound.tunnel)]
  rw [PinRegistry.drainable, decide_eq_true_eq, ht, routesOn]
  omega

end UdpState

/-! ## 5. Runs -/

/-- `203.0.113.9:5000`. -/
def visitor : SocketAddr := (.v4 0xcb007109, 5000)

/-- A channel of service 0 on tunnel 7, and its first datagram. -/
def firstPeer : List (PinEvent SocketAddr) :=
  [.openMux 0 7, .bindChannel 0, .start 0, .register 0, .datagram 0 visitor, .connected 0]

/-- The peer moves to a second channel, on tunnel 8. -/
def movedPeer : List (PinEvent SocketAddr) :=
  firstPeer ++ [.openMux 0 8, .bindChannel 1, .start 1, .register 1, .datagram 1 visitor]

theorem pinned_exact_moved :
    ∃ s : UdpState SocketAddr, ((pinning SocketAddr).restrict fun s e => s.booked e = true).Reach s ∧
      (s.routesOn 7 = 0 ∧ s.routesOn 8 = 1) ∧ s.pins.pinnedOn 8 = s.routesOn 8 := by
  have hrun : (Lts.runWith UdpState.step UdpState.booked .new movedPeer).any
      (fun s => decide (s.routesOn 7 = 0 ∧ s.routesOn 8 = 1)) = true := by
    decide +kernel
  obtain ⟨s, hs, hend⟩ := Lts.Reach.exists_runWith (T := pinning SocketAddr) (fun _ _ _ h => h)
    (fun _ _ h => h) rfl hrun
  exact ⟨s, hs, of_decide_eq_true hend, (UdpState.pinned_exact hs).1 8⟩

/-- Service 1 binds its first channel, on tunnel 8, under the id service 0's first one has. -/
def sharedId : List (PinEvent SocketAddr) :=
  [.openMux 0 7, .bindChannel 0, .start 0, .register 0, .openMux 1 8, .bindChannel 1,
    .datagram 0 visitor, .connected 0]

/-- **The counts go wrong both ways.**  The forwarder of a tunnel's only peer ends, and the tunnel
stays held with no peer on it; a second service binds the id of the first one's channel, and the
tunnel that channel is on may be drained with a peer on it. -/
theorem pin_outlives_route :
    (∃ s : UdpState SocketAddr, (pinning SocketAddr).Reach s ∧
      s.pins.drainable 7 = false ∧ s.routesOn 7 = 0 ∧ ¬ s.Exact) ∧
    ∃ s : UdpState SocketAddr, (pinning SocketAddr).Reach s ∧
      s.pins.drainable 7 = true ∧ s.routesOn 7 = 1 ∧ ¬ s.Exact := by
  have hheld : (Lts.runWith UdpState.step (fun _ _ => true) .new
      (firstPeer ++ [.forwarderEnds 0])).any
      (fun s => decide (s.pins.drainable 7 = false ∧ s.routesOn 7 = 0)) = true := by
    decide +kernel
  have hdrained : (Lts.runWith UdpState.step (fun _ _ => true) .new sharedId).any
      (fun s => decide (s.pins.drainable 7 = true ∧ s.routesOn 7 = 1)) = true := by
    decide +kernel
  constructor
  · obtain ⟨s, hs, hend⟩ :=
      Lts.Reach.exists_run (T := pinning SocketAddr) (fun _ _ _ h => h) rfl hheld
    obtain ⟨hpin, hroutes⟩ := of_decide_eq_true hend
    refine ⟨s, hs, hpin, hroutes, fun h => ?_⟩
    have := h 7
    simp [PinRegistry.drainable] at hpin
    omega
  · obtain ⟨s, hs, hend⟩ :=
      Lts.Reach.exists_run (T := pinning SocketAddr) (fun _ _ _ h => h) rfl hdrained
    obtain ⟨hpin, hroutes⟩ := of_decide_eq_true hend
    refine ⟨s, hs, hpin, hroutes, fun h => ?_⟩
    have := h 7
    simp [PinRegistry.drainable] at hpin
    omega

end Molehill.Client
