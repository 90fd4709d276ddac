/-
# The UDP worker pool

A UDP service of the server spreads its visitors over a set of workers, one per data channel the
client opened (`run_udp_connection_pool`, `core/server.rs`).  One task, the pool loop, reads the
socket, keeps the affinity table and the worker set, asks the client for more channels when a
datagram finds no room, and retires a worker that nobody uses; every worker is a task of its own,
and when it ends, its guard takes it out of the set and asks for a replacement.

The pool loop and the guards share the worker map, the retiring set and the shutdown flag, each
under a lock or atomic of its own, so a guard's drop is three steps here, and a retire tick two.
The requests, the channels the client is opening for them and those the loop has not taken yet are
counted, since a worker counts only once its channel is there.

Which worker a new peer gets depends on the order in which the map iterates, which comes in with the
datagram.  What the later modules prove about is recorded beside the state: where each peer's
datagrams went, the ids given out, when an id last lost a route, and the retirements.
-/
import Mathlib.Logic.Function.Basic
import Molehill.Lib.Table
import Molehill.Lib.Transition

namespace Molehill.Server.Udp

open Lib Function

/-! ## 1. The state -/

/-- `UDP_QUEUE_SIZE`. -/
def udpQueueSize : Nat := 1024

/-- `UDP_ROUTE_TTL_SECS`, in milliseconds. -/
def udpRouteTtl : Nat := 300000

/-- The age from which a worker without peers may be retired, in milliseconds. -/
def retireAge : Nat := 30000

/-- Pressure asks for a worker at most once in this many milliseconds. -/
def growthPause : Nat := 1000

/-- The number of values of the id counter's type. -/
def usize : Nat := 2 ^ 64

/-- `UdpRoute`: the worker's id, and when a datagram of the peer was last taken. -/
structure UdpRoute where
  worker : Nat
  lastSeen : Nat
  deriving DecidableEq

/-- `UdpRouteOutcome`. -/
inductive UdpRouteOutcome
  | enqueued
  | droppedQueueFull
  | droppedNoWorker
  deriving DecidableEq

/-- Where a worker stands. -/
inductive Stage
  /-- In the loop of `udp_forward_worker`. -/
  | serving
  /-- Out of the loop, the guard not dropped yet. -/
  | leaving
  /-- Its guard took it out of the map. -/
  | removed
  /-- Its guard saw no shutdown. -/
  | asking
  /-- The guard is done, and the queue's receiver dropped. -/
  | over
  deriving DecidableEq

/-- What a worker's exit was. -/
inductive Exit
  /-- It was no longer in the map: the pool had let go of it. -/
  | released
  /-- The pool was shutting down. -/
  | shutdown
  | unexpected
  deriving DecidableEq

/-- `udp_forward_worker` with its guard: its id, the queue it reads, and where it stands; what its
exit was, and how many replacements its guard asked for. -/
structure Worker (Peer : Type) where
  id : Nat
  queue : List Peer
  stage : Stage
  exit : Option Exit
  asked : Nat
  deriving DecidableEq

/-- Why a worker leaves its loop. -/
inductive Cause
  /-- The data channel ended or failed, or the task panicked. -/
  | lost
  /-- The queue is closed and empty. -/
  | drained
  /-- The shutdown signal. -/
  | signal
  deriving DecidableEq

/-- Where the pool loop stands. -/
inductive Loop
  | selecting
  /-- In `retire_idle_udp_worker`, past the growth check. -/
  | retiring
  | ended
  deriving DecidableEq

/-- One retirement: the id that was chosen, the worker the map had under it, and when. -/
structure Retirement where
  id : Nat
  worker : Option Nat
  time : Nat
  deriving DecidableEq

/-- `UdpWorkerSet`, the pool loop's own state, and the rest of the service: the workers so far, the
shutdown signal, and the channels on their way; then what is recorded. -/
structure Pool (Peer : Type) where
  now : Nat
  /-- The live data channels: from an id to the worker at the other end. -/
  workers : Table Nat Nat
  shuttingDown : Bool
  retiring : List Nat
  spawned : Table Nat Nat
  next : Nat
  maxWorkers : Nat
  routes : Table Peer UdpRoute
  lastGrowth : Nat
  loop : Loop
  tasks : List (Worker Peer)
  signalled : Bool
  /-- Requests the client has not read. -/
  requests : Nat
  /-- Channels the client is opening. -/
  openings : Nat
  /-- Channels the pool loop has not taken. -/
  arrived : Nat
  /-- The worker the peer's last datagram went to, until a sweep forgets the peer. -/
  homes : Peer → Option Nat
  /-- Peers that had a datagram enqueued elsewhere while the worker of the one before was live. -/
  splits : List Peer
  issued : List Nat
  /-- When a route that named the id was last dropped. -/
  lostRoutes : Nat → Option Nat
  retirements : List Retirement

/-- What a task does next. -/
inductive Event (Peer : Type)
  | pass (ms : Nat)
  /-- The service is shut down: the broadcast goes out. -/
  | signal
  /-- The pool loop ends: on the signal, with the control channel, or for want of a socket. -/
  | stop
  /-- The client reads a request and opens a channel, or ignores it. -/
  | read (opens : Bool)
  /-- The channel the client was opening arrives, or fails. -/
  | connect (ok : Bool)
  /-- A channel that an earlier registration of the service had asked for. -/
  | late
  /-- The pool loop takes a channel and sends it the start command. -/
  | channel (ok : Bool)
  /-- A visitor's datagram, and the order in which the worker map iterates. -/
  | datagram (peer : Peer) (order : List Nat)
  /-- The retire tick, up to the growth check. -/
  | tick
  | retire
  | sweep
  /-- The worker writes a datagram of its queue to its channel. -/
  | forward (k : Nat)
  | leave (k : Nat) (cause : Cause)
  /-- The guard's three accesses. -/
  | remove (k : Nat)
  | check (k : Nat)
  | ask (k : Nat)
  deriving DecidableEq

/-! ## 2. The step -/

/-- The receiver is gone. -/
def Worker.closed {Peer : Type} (w : Worker Peer) : Bool := w.stage = .over

def Worker.full {Peer : Type} (w : Worker Peer) : Bool := udpQueueSize ≤ w.queue.length

namespace Pool

variable {Peer : Type}

/-- A pool with the one channel the client opens when its service is accepted. -/
def new (maxWorkers : Nat) : Pool Peer :=
  { now := 0, workers := ∅, shuttingDown := false, retiring := [], spawned := ∅, next := 0,
    maxWorkers := maxWorkers, routes := ∅, lastGrowth := 0, loop := .selecting, tasks := [],
    signalled := false, requests := 0, openings := 1, arrived := 0, homes := fun _ => none,
    splits := [], issued := [], lostRoutes := fun _ => none, retirements := [] }

def setTask (s : Pool Peer) (k : Nat) (w : Worker Peer) : Pool Peer :=
  { s with tasks := s.tasks.set k w }

/-- The worker is in the map. -/
def live (s : Pool Peer) (k : Nat) : Bool :=
  s.tasks[k]?.any fun w => s.workers.lookup w.id = some k

/-- `next.wrapping_add(1)`. -/
def moveCursor (s : Pool Peer) : Pool Peer := { s with next := (s.next + 1) % usize }

/-- `req_tx.send(DataChannelRequest::Plain)`. -/
def request (s : Pool Peer) : Pool Peer := { s with requests := s.requests + 1 }

/-- `spawn_worker`. -/
def spawnWorker (s : Pool Peer) : Pool Peer :=
  { s.moveCursor with
    workers := s.workers.insert s.next s.tasks.length
    spawned := s.spawned.insert s.next s.now
    tasks := s.tasks ++ [{ id := s.next, queue := [], stage := .serving, exit := none, asked := 0 }]
    issued := s.issued ++ [s.next] }

/-- The sender the map has under an id. -/
def sender (s : Pool Peer) (id : Nat) : Option (Nat × Worker Peer) :=
  (s.workers.lookup id).bind fun k => s.tasks[k]?.map fun w => (k, w)

/-- The datagram goes to the worker's queue. -/
def enqueue [DecidableEq Peer] (s : Pool Peer) (k : Nat) (w : Worker Peer) (peer : Peer) :
    Pool Peer :=
  { s.setTask k { w with queue := w.queue ++ [peer] } with
    homes := update s.homes peer (some k)
    splits := if (s.homes peer).any (fun k' => k' ≠ k && s.live k') then peer :: s.splits
      else s.splits }

/-- A route that named the id is dropped. -/
def dropRoute (s : Pool Peer) (id : Nat) : Pool Peer :=
  { s with lostRoutes := update s.lostRoutes id (some s.now) }

variable [DecidableEq Peer]

/-- The peer's route names the id from now on, and the cursor moves. -/
def reassign (s : Pool Peer) (peer : Peer) (id : Nat) : Pool Peer :=
  let s := (s.routes.lookup peer).elim s fun route => s.dropRoute route.worker
  { s.moveCursor with routes := s.routes.insert peer { worker := id, lastSeen := s.now } }

/-- `route.last_seen = now`. -/
def touchRoute (s : Pool Peer) (peer : Peer) (route : UdpRoute) : Pool Peer :=
  { s with routes := s.routes.insert peer { route with lastSeen := s.now } }

/-- The second half of `route_udp_datagram`: the peer gets the next worker. -/
def assign (s : Pool Peer) (peer : Peer) (order : List Nat) : Pool Peer × UdpRouteOutcome :=
  if s.workers.keys = [] then (s, .droppedNoWorker)
  else
    match order[s.next % order.length]? with
    | none => (s.moveCursor, .droppedNoWorker)
    | some id =>
      match s.sender id with
      | none => (s.moveCursor, .droppedNoWorker)
      | some (k, w) =>
        if w.closed || w.full then (s.reassign peer id, .droppedQueueFull)
        else ((s.reassign peer id).enqueue k w peer, .enqueued)

/-- `route_udp_datagram`. -/
def routeUdpDatagram (s : Pool Peer) (peer : Peer) (order : List Nat) :
    Pool Peer × UdpRouteOutcome :=
  match s.routes.lookup peer with
  | none => s.assign peer order
  | some route =>
    match s.sender route.worker with
    | none => s.assign peer order
    | some (k, w) =>
      -- the assigned worker died: assign again
      if w.closed then s.assign peer order
      else if w.full then (s, .droppedQueueFull)
      else ((s.touchRoute peer route).enqueue k w peer, .enqueued)

/-- `note_udp_pressure`. -/
def noteUdpPressure (s : Pool Peer) (outcome : UdpRouteOutcome) : Pool Peer :=
  if outcome = .enqueued ∨ s.now - s.lastGrowth < growthPause then s
  else { s.request with lastGrowth := s.now }

/-- The ids some route names, one for each route. -/
def named (s : Pool Peer) : List Nat := s.routes.entries.map (·.2.worker)

/-- The peers of the busiest worker. -/
def busiest (s : Pool Peer) : Nat := (s.named.map s.named.count).foldr max 0

/-- The first half of `retire_idle_udp_worker`. -/
def growthCheck (s : Pool Peer) : Pool Peer :=
  if 2 < s.busiest ∧ s.workers.keys.length < s.maxWorkers then s.request else s

/-- The ids the retirement chooses from: of age by the spawn map, and named by no route. -/
def retirable (s : Pool Peer) : List Nat :=
  (s.spawned.entries.filter fun e => !s.named.contains e.1 && retireAge ≤ s.now - e.2).map (·.1)

/-- What is recorded of a retirement. -/
def retirement (s : Pool Peer) (id : Nat) : Retirement :=
  { id := id, worker := s.workers.lookup id, time := s.now }

/-- The chosen id leaves the worker map and the spawn map. -/
def retireId (s : Pool Peer) (id : Nat) : Pool Peer :=
  { s with
    workers := s.workers.erase id
    spawned := s.spawned.erase id
    retiring := s.retiring.insert id
    retirements := s.retirements ++ [s.retirement id] }

/-- The second half of `retire_idle_udp_worker`. -/
def retireIdle (s : Pool Peer) : Pool Peer :=
  if s.workers.keys.length ≤ 1 then s else s.retirable.max?.elim s s.retireId

/-- A route no datagram was taken for in a while. -/
def expired (s : Pool Peer) (route : UdpRoute) : Bool := udpRouteTtl ≤ s.now - route.lastSeen

/-- The sweep of the affinity table. -/
def sweep (s : Pool Peer) : Pool Peer :=
  { s with
    routes := s.routes.filterVals fun route => !s.expired route
    homes := fun peer => if (s.routes.lookup peer).any s.expired then none else s.homes peer
    lostRoutes := fun id =>
      if s.routes.entries.any fun e => e.2.worker = id && s.expired e.2 then some s.now
      else s.lostRoutes id }

/-- The worker writes the head of its queue. -/
def forward (s : Pool Peer) (k : Nat) (w : Worker Peer) : Option (Pool Peer) :=
  match w.stage, w.queue with
  | .serving, _ :: rest => some (s.setTask k { w with queue := rest })
  | _, _ => none

/-- Whether the worker may leave for this cause. -/
def mayLeave (s : Pool Peer) (k : Nat) (w : Worker Peer) : Cause → Bool
  | .lost => true
  | .drained => w.queue = [] && !s.live k
  | .signal => s.signalled

def leave (s : Pool Peer) (k : Nat) (w : Worker Peer) (cause : Cause) : Option (Pool Peer) :=
  if w.stage = .serving ∧ s.mayLeave k w cause then some (s.setTask k { w with stage := .leaving })
  else none

/-- The guard's first access: `workers.remove(&self.id)`. -/
def guardRemove (s : Pool Peer) (k : Nat) (w : Worker Peer) : Option (Pool Peer) :=
  match w.stage, s.workers.lookup w.id with
  | .leaving, some _ =>
    some { s.setTask k { w with stage := .removed } with workers := s.workers.erase w.id }
  | .leaving, none => some (s.setTask k { w with stage := .over, exit := some .released })
  | _, _ => none

/-- Its second: `shutting_down.load`. -/
def guardCheck (s : Pool Peer) (k : Nat) (w : Worker Peer) : Option (Pool Peer) :=
  match w.stage with
  | .removed =>
    if s.shuttingDown then some (s.setTask k { w with stage := .over, exit := some .shutdown })
    else some (s.setTask k { w with
      stage := .asking
      exit := some (if s.signalled then .shutdown else .unexpected) })
  | _ => none

/-- Its last: `retiring.remove(&self.id)`, and the request. -/
def guardAsk (s : Pool Peer) (k : Nat) (w : Worker Peer) : Option (Pool Peer) :=
  match w.stage with
  | .asking =>
    if s.retiring.contains w.id then
      some { s.setTask k { w with stage := .over } with retiring := s.retiring.erase w.id }
    else some (s.setTask k { w with stage := .over, asked := w.asked + 1 }).request
  | _ => none

/-- One step. -/
def step (s : Pool Peer) : Event Peer → Option (Pool Peer)
  | .pass ms => some { s with now := s.now + ms }
  | .signal => some { s with signalled := true }
  | .stop =>
    if s.loop = .selecting then some { s with shuttingDown := true, loop := .ended } else none
  | .read opens =>
    if 0 < s.requests then
      some { s with requests := s.requests - 1, openings := s.openings + opens.toNat }
    else none
  | .connect ok =>
    if 0 < s.openings then
      some { s with openings := s.openings - 1, arrived := s.arrived + ok.toNat }
    else none
  | .late => some { s with arrived := s.arrived + 1 }
  | .channel ok =>
    if s.loop = .selecting ∧ 0 < s.arrived then
      let s := { s with arrived := s.arrived - 1 }
      some (if ok then s.spawnWorker else s)
    else none
  | .datagram peer order =>
    if s.loop = .selecting ∧ order.isPerm s.workers.keys then
      let routed := s.routeUdpDatagram peer order
      some (routed.1.noteUdpPressure routed.2)
    else none
  | .tick =>
    if s.loop = .selecting then some { s.growthCheck with loop := .retiring } else none
  | .retire =>
    if s.loop = .retiring then some { s.retireIdle with loop := .selecting } else none
  | .sweep => if s.loop = .selecting then some s.sweep else none
  | .forward k => s.tasks[k]?.bind (s.forward k)
  | .leave k cause => s.tasks[k]?.bind (s.leave k · cause)
  | .remove k => s.tasks[k]?.bind (s.guardRemove k)
  | .check k => s.tasks[k]?.bind (s.guardCheck k)
  | .ask k => s.tasks[k]?.bind (s.guardAsk k)

end Pool

/-- Every run of a UDP service whose client may have at least one worker, as the configuration
demands. -/
def udpPool (Peer : Type) [DecidableEq Peer] : Lts (Pool Peer) (Event Peer) where
  init s := ∃ maxWorkers, 0 < maxWorkers ∧ s = .new maxWorkers
  step s e s' := s.step e = some s'

/-! ## 3. What routing a datagram does -/

namespace Pool

variable {Peer : Type} [DecidableEq Peer] {s s' : Pool Peer}

/-- The peer's route leads to a worker that reads its queue. -/
def Sticks (s : Pool Peer) (peer : Peer) : Prop :=
  ∃ route k w, s.routes.lookup peer = some route ∧ s.sender route.worker = some (k, w) ∧
    w.closed = false

/-- **What routing a datagram comes to.** -/
inductive Routed (s : Pool Peer) (peer : Peer) : Pool Peer → UdpRouteOutcome → Prop
  /-- The peer's worker takes it. -/
  | sticky (route : UdpRoute) (k : Nat) (w : Worker Peer) (hr : s.routes.lookup peer = some route)
    (hk : s.sender route.worker = some (k, w)) (hopen : w.closed = false) :
    Routed s peer ((s.touchRoute peer route).enqueue k w peer) .enqueued
  /-- It is dropped, and nothing else changes. -/
  | dropped (outcome : UdpRouteOutcome) (h : outcome ≠ .enqueued) : Routed s peer s outcome
  /-- It is dropped, and the cursor moves. -/
  | noWorker : Routed s peer s.moveCursor .droppedNoWorker
  /-- The peer gets a worker that has no room for it. -/
  | refused (id k : Nat) (w : Worker Peer) (hk : s.sender id = some (k, w)) (h : ¬ s.Sticks peer) :
    Routed s peer (s.reassign peer id) .droppedQueueFull
  /-- The peer gets a worker, which takes it. -/
  | assigned (id k : Nat) (w : Worker Peer) (hk : s.sender id = some (k, w))
    (h : ¬ s.Sticks peer) : Routed s peer ((s.reassign peer id).enqueue k w peer) .enqueued

theorem routed_assign {peer : Peer} (h : ¬ s.Sticks peer) (order : List Nat) :
    Routed s peer (s.assign peer order).1 (s.assign peer order).2 := by
  unfold assign
  split
  case isTrue => exact .dropped _ nofun
  case isFalse =>
    split
    case h_1 => exact .noWorker
    case h_2 id _ =>
      split
      case h_1 => exact .noWorker
      case h_2 k w hk =>
        split
        case isTrue => exact .refused id k w hk h
        case isFalse => exact .assigned id k w hk h

theorem routed (s : Pool Peer) (peer : Peer) (order : List Nat) :
    Routed s peer (s.routeUdpDatagram peer order).1 (s.routeUdpDatagram peer order).2 := by
  unfold routeUdpDatagram
  split
  case h_1 hr =>
    refine routed_assign ?_ order
    rintro ⟨route, k, w, hr', -⟩
    rw [hr] at hr'
    cases hr'
  case h_2 route hr =>
    split
    case h_1 hk =>
      refine routed_assign ?_ order
      rintro ⟨route', k, w, hr', hk', -⟩
      rw [hr] at hr'
      cases hr'
      rw [hk] at hk'
      cases hk'
    case h_2 k w hk =>
      split
      case isTrue hclosed =>
        refine routed_assign ?_ order
        rintro ⟨route', k', w', hr', hk', hopen⟩
        rw [hr] at hr'
        cases hr'
        rw [hk] at hk'
        cases hk'
        rw [hclosed] at hopen
        cases hopen
      case isFalse hopen =>
        split
        case isTrue => exact .dropped _ nofun
        case isFalse => exact .sticky route k w hr hk (Bool.eq_false_iff.mpr hopen)

omit [DecidableEq Peer] in
theorem sender_eq_some {id k : Nat} {w : Worker Peer} (h : s.sender id = some (k, w)) :
    s.workers.lookup id = some k ∧ s.tasks[k]? = some w := by
  obtain ⟨k', hk, h⟩ := Option.bind_eq_some_iff.mp h
  obtain ⟨w', hw, heq⟩ := Option.map_eq_some_iff.mp h
  cases heq
  exact ⟨hk, hw⟩

/-- What a routed datagram leaves alone, but for the queue of one worker. -/
structure SameSet (s s' : Pool Peer) : Prop where
  now : s'.now = s.now
  workers : s'.workers = s.workers
  shuttingDown : s'.shuttingDown = s.shuttingDown
  retiring : s'.retiring = s.retiring
  spawned : s'.spawned = s.spawned
  maxWorkers : s'.maxWorkers = s.maxWorkers
  lastGrowth : s'.lastGrowth = s.lastGrowth
  loop : s'.loop = s.loop
  signalled : s'.signalled = s.signalled
  requests : s'.requests = s.requests
  openings : s'.openings = s.openings
  arrived : s'.arrived = s.arrived
  issued : s'.issued = s.issued
  retirements : s'.retirements = s.retirements
  tasks : s'.tasks = s.tasks ∨ ∃ k w queue, s.tasks[k]? = some w ∧
    s'.tasks = s.tasks.set k { w with queue := queue }

theorem sameSet_reassign (s : Pool Peer) (peer : Peer) (id : Nat) :
    SameSet s (s.reassign peer id) := by
  unfold reassign
  cases s.routes.lookup peer <;>
    exact ⟨rfl, rfl, rfl, rfl, rfl, rfl, rfl, rfl, rfl, rfl, rfl, rfl, rfl, rfl, .inl rfl⟩

theorem tasks_reassign (s : Pool Peer) (peer : Peer) (id : Nat) :
    (s.reassign peer id).tasks = s.tasks := by
  unfold reassign
  cases s.routes.lookup peer <;> rfl

theorem Routed.sameSet {peer : Peer} {outcome : UdpRouteOutcome} (h : Routed s peer s' outcome) :
    SameSet s s' := by
  cases h with
  | sticky route k w hr hk hopen =>
    obtain ⟨-, hw⟩ := sender_eq_some hk
    exact ⟨rfl, rfl, rfl, rfl, rfl, rfl, rfl, rfl, rfl, rfl, rfl, rfl, rfl, rfl,
      .inr ⟨k, w, _, hw, rfl⟩⟩
  | dropped _ _ | noWorker =>
    exact ⟨rfl, rfl, rfl, rfl, rfl, rfl, rfl, rfl, rfl, rfl, rfl, rfl, rfl, rfl, .inl rfl⟩
  | refused id k w hk h => exact sameSet_reassign s peer id
  | assigned id k w hk h =>
    obtain ⟨-, hw⟩ := sender_eq_some hk
    obtain ⟨h1, h2, h3, h4, h5, h6, h7, h8, h9, h10, h11, h12, h13, h14, -⟩ :=
      sameSet_reassign s peer id
    refine ⟨h1, h2, h3, h4, h5, h6, h7, h8, h9, h10, h11, h12, h13, h14,
      .inr ⟨k, w, w.queue ++ [peer], hw, ?_⟩⟩
    unfold enqueue setTask
    rw [tasks_reassign]

/-! ## 4. What a worker's own step does -/

/-- A worker or its guard moves on: the worker keeps its id, and no more than its own entry leaves
the map. -/
structure OwnMove (s : Pool Peer) (k : Nat) (s' : Pool Peer) : Prop where
  task : ∃ w w' : Worker Peer, s.tasks[k]? = some w ∧ w'.id = w.id ∧ s'.tasks = s.tasks.set k w'
  workers : ∀ id j, s'.workers.lookup id = some j → s.workers.lookup id = some j
  now : s'.now = s.now
  routes : s'.routes = s.routes
  homes : s'.homes = s.homes
  splits : s'.splits = s.splits
  lostRoutes : s'.lostRoutes = s.lostRoutes
  retirements : s'.retirements = s.retirements

omit [DecidableEq Peer] in
theorem OwnMove.of_setTask {k : Nat} {w : Worker Peer} (w' : Worker Peer)
    (hw : s.tasks[k]? = some w) (hid : w'.id = w.id) : OwnMove s k (s.setTask k w') :=
  ⟨⟨w, w', hw, hid, rfl⟩, fun _ _ h => h, rfl, rfl, rfl, rfl, rfl, rfl⟩

theorem ownMove_forward {k : Nat} (h : s.step (.forward k) = some s') : OwnMove s k s' := by
  obtain ⟨w, hw, h⟩ := Option.bind_eq_some_iff.mp h
  unfold forward at h
  split at h
  case h_1 =>
    cases h
    exact .of_setTask _ hw rfl
  case h_2 => cases h

theorem ownMove_leave {k : Nat} {cause : Cause} (h : s.step (.leave k cause) = some s') :
    OwnMove s k s' := by
  obtain ⟨w, hw, h⟩ := Option.bind_eq_some_iff.mp h
  simp only [leave, Option.ite_none_right_eq_some, Option.some.injEq] at h
  obtain ⟨-, rfl⟩ := h
  exact .of_setTask _ hw rfl

theorem ownMove_remove {k : Nat} (h : s.step (.remove k) = some s') : OwnMove s k s' := by
  obtain ⟨w, hw, h⟩ := Option.bind_eq_some_iff.mp h
  unfold guardRemove at h
  split at h
  case h_1 =>
    cases h
    refine ⟨⟨w, { w with stage := .removed }, hw, rfl, rfl⟩, fun id j hj => ?_, rfl, rfl, rfl, rfl,
      rfl, rfl⟩
    exact (Table.lookup_of_erase hj).2
  case h_2 =>
    cases h
    exact .of_setTask _ hw rfl
  case h_3 => cases h

theorem ownMove_check {k : Nat} (h : s.step (.check k) = some s') : OwnMove s k s' := by
  obtain ⟨w, hw, h⟩ := Option.bind_eq_some_iff.mp h
  unfold guardCheck at h
  split at h
  case h_1 =>
    split at h
    · cases h
      exact .of_setTask _ hw rfl
    · cases h
      exact .of_setTask _ hw rfl
  case h_2 => cases h

theorem ownMove_ask {k : Nat} (h : s.step (.ask k) = some s') : OwnMove s k s' := by
  obtain ⟨w, hw, h⟩ := Option.bind_eq_some_iff.mp h
  unfold guardAsk at h
  split at h
  case h_1 =>
    split at h
    · cases h
      exact ⟨⟨w, { w with stage := .over }, hw, rfl, rfl⟩, fun _ _ h => h, rfl, rfl, rfl, rfl, rfl,
        rfl⟩
    · cases h
      exact ⟨⟨w, { w with stage := .over, asked := w.asked + 1 }, hw, rfl, rfl⟩, fun _ _ h => h, rfl,
        rfl, rfl, rfl, rfl, rfl⟩
  case h_2 => cases h

end Pool

end Molehill.Server.Udp
