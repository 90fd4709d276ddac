/-
# One control session of the client

`ClientSession::drive` and `run` (`core/client.rs`) as a transition system.  The session's task
is sequential, so its state is its fields plus where in `run` it stands (`Phase`); an event is
what the next `await` gives it: an answer of the server, a request of the client, a failure.
Everything between two awaits is one step, with one exception that matters here: `activate`
removes the service's entry before it awaits the resolver and the tunnel pool, so being inside
it is a phase of its own.

A request may be queued at any time (`ask`); the session takes queued requests in its select
loop, and applies all of them at once when a connection comes up.  What the session's services
open is recorded in `opened`, one entry per data channel, so that statements can be made about
every channel of a run; nothing reads it.

The reports a session passes on (`CarrierReport`, `TunnelHealth`, `LaneDrainAck`) and the status
asks touch none of these fields and are left out, and so is the data phase of a channel.
-/
import Mathlib.Data.List.Sort
import Molehill.Lib.Table
import Molehill.Lib.Transition
import Molehill.Client.Config
import Molehill.Pool.Placement

namespace Molehill.Client

open Lib Molehill.Pool

/-! ## 1. The data plane of one service -/

/-- What a connection of the data plane is dialed with: a pool's `PoolDial`, or the `connector`
and `noise` of a direct channel's `RunDataChannelArgs`. -/
structure Dial where
  transport : ClientTransport
  noise : Option NoiseConfig
  deriving DecidableEq

/-- The pair a data connection is wrapped with: over TCP the transport's own, over KCP the one
`connect_stream` is given. -/
def Dial.layer (d : Dial) : Carrier → Option NoiseConfig
  | .tcp => d.transport.layer
  | .kcp => d.noise

/-- The dial of a slot's own settings. -/
def ServiceSlot.dial (slot : ServiceSlot) : Dial :=
  { transport := slot.transport, noise := slot.data.noise }

/-- A live service: what its direct channels are dialed with, and the tunnel pool it holds when
it multiplexes (the pool is what its tunnels were dialed with). -/
structure ActiveService where
  args : ServiceSlot
  tunnel : Option Dial
  poolKey : Option String
  deriving DecidableEq

/-- One data channel: the service it was opened for, and what the connection under it was
dialed with. -/
structure DataChannel where
  service : ServiceSlot
  ride : Dial
  deriving DecidableEq

/-- `spawn_data_channel`: a stream of the pool when there is one, else a connection of its own. -/
def spawnDataChannel (args : ServiceSlot) (tunnel : Option Dial) : DataChannel :=
  { service := args, ride := tunnel.getD args.dial }

/-- `open_data_channel`. -/
def ActiveService.openDataChannel (active : ActiveService) : DataChannel :=
  spawnDataChannel active.args active.tunnel

/-! ## 2. The state of the session -/

/-- The lifecycle of one service inside its session. -/
inductive ServiceState
  | registering
  | active (data : ActiveService)
  | rejected
  deriving DecidableEq

/-- A service of the session. -/
structure ServiceEntry where
  slot : ServiceSlot
  state : ServiceState
  deriving DecidableEq

/-- What the client's other code asks a session to do. -/
inductive SessionRequest
  | register (slot : ServiceSlot)
  | deregister (id : ServiceId)
  | drainLane (id : ServiceId) (lane : Nat) (cancel : Bool)
  deriving DecidableEq

/-- Where in `run` the session stands.  `todo` is what the re-registration sweep still has to
do; the select loop is the sweep with nothing left. -/
inductive Phase
  /-- Between connections: resolving, connecting, in the handshake, or backing off. -/
  | down
  /-- About to register the next service of the sweep, or (`[]`) in the select loop. -/
  | sweep (todo : List ServiceId)
  /-- In `drain_dropped`. -/
  | draining (todo : List ServiceId)
  /-- In `register`, waiting for the verdict. -/
  | verdict (id : ServiceId) (todo : List ServiceId)
  /-- In `activate`, past the removal of the entry. -/
  | activating (id : ServiceId) (slot : ServiceSlot) (todo : List ServiceId)
  /-- `drive` has returned. -/
  | over
  deriving DecidableEq

/-- The session. -/
structure ClientSession where
  phase : Phase
  queue : List SessionRequest
  services : Table ServiceId ServiceEntry
  /-- A stack: `drain_dropped` pops what was pushed last. -/
  pendingDrops : List ServiceId
  pools : Table String Dial
  /-- The claims given to the lane allocator, which dials lanes for them on its own. -/
  claims : List ServiceSlot
  /-- Every data channel opened so far. -/
  opened : List DataChannel

/-- A session as `session_index` builds it. -/
def ClientSession.new : ClientSession :=
  { phase := .down, queue := [], services := ∅, pendingDrops := [], pools := ∅, claims := [],
    opened := [] }

/-- The server's answer to a registration. -/
inductive Ack
  | ok
  | rejected
  /-- `AuthFailed`, `SessionOk` or `TunnelRefused`: not an answer to a registration. -/
  | unexpected
  deriving DecidableEq

/-- What the session's next await gives it. -/
inductive Event
  /-- The client queues a request. -/
  | ask (r : SessionRequest)
  /-- Resolved, connected, authenticated. -/
  | connect
  /-- A failure before that; a fatal one ends the session. -/
  | connectFailed (fatal : Bool)
  /-- The sweep goes on to its next service; `sent`: the registration was built and written. -/
  | next (sent : Bool)
  /-- `drain_dropped` goes on. -/
  | drain (sent : Bool)
  /-- The select loop takes a request; `sent`: what it writes for it was written. -/
  | take (sent : Bool)
  /-- The verdict of the registration in flight. -/
  | answer (ack : Ack)
  /-- `ServiceDropped`. -/
  | dropped (id : ServiceId)
  /-- `CreateDataChannelFor` or `CreateDataChannelForStripe`. -/
  | openFor (id : ServiceId)
  /-- The data endpoint resolved to `addr`, and the pool (if one had to be built) came up. -/
  | activated (addr : String)
  /-- The data endpoint did not resolve, or (`some addr`) the pool could not be built. -/
  | activationFailed (addr : Option String)
  /-- The lane allocator dials one more lane for a claim. -/
  | lane (slot : ServiceSlot)
  /-- The connection is lost, or the heartbeat timed out. -/
  | lost
  /-- The client shut the session down, or is gone. -/
  | stop
  deriving DecidableEq

/-! ## 3. The operations -/

namespace ServiceEntry

/-- `matches!(entry.state, ServiceState::Rejected)`. -/
def isRejected (e : ServiceEntry) : Bool :=
  match e.state with
  | .rejected => true
  | _ => false

/-- `matches!(entry.state, ServiceState::Registering)`. -/
def isRegistering (e : ServiceEntry) : Bool :=
  match e.state with
  | .registering => true
  | _ => false

/-- A reconnect puts every service back to `Registering`, except a refused one. -/
def reset (e : ServiceEntry) : ServiceEntry :=
  if e.isRejected then e else { e with state := .registering }

end ServiceEntry

namespace ClientSession

/-- One iteration of `apply_pending_requests`. -/
def applyRequest (services : Table ServiceId ServiceEntry) :
    SessionRequest → Table ServiceId ServiceEntry
  | .register slot => services.insert slot.id { slot := slot, state := .registering }
  | .deregister id => services.erase id
  -- a drain ask that arrives while the session is reconnecting is about lanes of the previous
  -- connection
  | .drainLane _ _ _ => services

/-- `apply_pending_requests`. -/
def applyPendingRequests (s : ClientSession) : ClientSession :=
  { s with queue := [], services := s.queue.foldl applyRequest s.services }

/-- `services_to_reregister`: the ids to register, and the session with its pools dropped. -/
def servicesToReregister (s : ClientSession) : List ServiceId × ClientSession :=
  let services := s.services.mapVals ServiceEntry.reset
  ((services.keysWhere ServiceEntry.isRegistering).insertionSort (· ≤ ·),
    { s with pools := ∅, services := services })

/-- A connection came up: the queued requests, then the sweep. -/
def connected (s : ClientSession) : ClientSession :=
  let swept := s.applyPendingRequests.servicesToReregister
  { swept.2 with phase := .sweep swept.1 }

/-- A `?` of `run`: `drive` reconnects. -/
def fail (s : ClientSession) : ClientSession := { s with phase := .down }

/-- `register`, up to its wait for the verdict. -/
def register (s : ClientSession) (id : ServiceId) (sent : Bool) (todo : List ServiceId) :
    ClientSession :=
  match s.services.lookup id with
  | none => { s with phase := .draining todo }
  | some _ => if sent then { s with phase := .verdict id todo } else s.fail

/-- `re_register`. -/
def reRegister (s : ClientSession) (id : ServiceId) (sent : Bool) (todo : List ServiceId) :
    ClientSession :=
  match s.services.lookup id with
  | none => { s with phase := .draining todo }
  | some entry =>
    if entry.isRejected then { s with phase := .draining todo }
    else
      { s with services := s.services.insert id { entry with state := .registering } }.register
        id sent todo

/-- The verdict is `Ok`: `activate`, up to the resolver. -/
def startActivate (s : ClientSession) (id : ServiceId) (todo : List ServiceId) : ClientSession :=
  match s.services.lookup id with
  | none => { s with phase := .draining todo }
  | some entry =>
    { s with phase := .activating id entry.slot todo, services := s.services.erase id }

/-- The verdict is a rejection: terminal for the service, and only for it. -/
def reject (s : ClientSession) (id : ServiceId) (todo : List ServiceId) : ClientSession :=
  match s.services.lookup id with
  | none => { s with phase := .draining todo }
  | some entry =>
    { s with
      phase := .draining todo
      services := s.services.insert id { entry with state := .rejected } }

/-- The key of the pool to a data endpoint: `session:<data endpoint>`. -/
def poolKey (addr : String) : String := "session:" ++ addr

/-- `service_pool`, where the pool can be built: the pool under the key of the resolved endpoint,
dialed with this service's settings when there is none yet. -/
def servicePool (pools : Table String Dial) (addr : String) (slot : ServiceSlot) :
    Dial × Table String Dial :=
  match pools.lookup (poolKey addr) with
  | some pool => (pool, pools)
  | none => (slot.dial, pools.insert (poolKey addr) slot.dial)

/-- The data plane `activate` builds once the endpoint has resolved. -/
def activeService (pools : Table String Dial) (addr : String) (slot : ServiceSlot) :
    ActiveService × Table String Dial :=
  if slot.data.enabled then
    let pool := servicePool pools addr slot
    ({ args := slot, tunnel := some pool.1, poolKey := some (poolKey addr) }, pool.2)
  else ({ args := slot, tunnel := none, poolKey := none }, pools)

/-- The rest of `activate`: open the configured channels, hand a claim to the lane allocator,
and put the entry back. -/
def finishActivate (s : ClientSession) (id : ServiceId) (slot : ServiceSlot)
    (todo : List ServiceId) (addr : String) : ClientSession :=
  let data := activeService s.pools addr slot
  { s with
    phase := .draining todo
    pools := data.2
    opened := s.opened ++ List.replicate slot.channels data.1.openDataChannel
    claims := if slot.service.serviceType = .transparent then slot :: s.claims else s.claims
    services := s.services.insert id { slot := slot, state := .active data.1 } }

/-- `open_placed_channel`.  A claim that holds the lanes it was allotted opens none; that the
server asks and no channel is opened is the same step as no ask. -/
def openPlacedChannel (s : ClientSession) (id : ServiceId) : ClientSession :=
  match s.services.lookup id with
  | some { state := .active data, .. } => { s with opened := s.opened ++ [data.openDataChannel] }
  | _ => s

/-- One request taken by the select loop. -/
def handleRequest (s : ClientSession) (sent : Bool) : SessionRequest → ClientSession
  | .register slot =>
    { s with services := s.services.insert slot.id { slot := slot, state := .registering } }.register
      slot.id sent []
  | .deregister id =>
    -- `Deregister` is written only for a service the session had
    if (s.services.lookup id).isNone || sent then { s with services := s.services.erase id }
    else { s with services := s.services.erase id }.fail
  | .drainLane _ _ _ => if sent then s else s.fail

end ClientSession

/-! ## 4. The step -/

/-- Whether the session is connected. -/
def Phase.isUp : Phase → Bool
  | .down => false
  | .over => false
  | _ => true

/-- The session's step, where the event is possible. -/
def sessionStep (s : ClientSession) (e : Event) : Option ClientSession :=
  match e, s.phase with
  | .ask _, .over => none
  | .ask r, _ => some { s with queue := s.queue ++ [r] }
  | .connect, .down => some s.connected
  | .connectFailed false, .down => some s
  | .connectFailed true, .down => some { s with phase := .over }
  | .next sent, .sweep (id :: todo) => some (s.register id sent todo)
  | .drain sent, .draining todo =>
    match s.pendingDrops with
    | [] => some { s with phase := .sweep todo }
    | id :: drops => some ({ s with pendingDrops := drops }.reRegister id sent todo)
  | .take sent, .sweep [] =>
    match s.queue with
    | [] => none
    | r :: queue => some ({ s with queue := queue }.handleRequest sent r)
  | .answer .ok, .verdict id todo => some (s.startActivate id todo)
  | .answer .rejected, .verdict id todo => some (s.reject id todo)
  | .answer .unexpected, .verdict _ _ => some s.fail
  -- in the select loop a dropped service is served at once, while a registration waits for its
  -- verdict it is only queued
  | .dropped id, .sweep [] =>
    some { s with pendingDrops := id :: s.pendingDrops, phase := .draining [] }
  | .dropped id, .verdict _ _ => some { s with pendingDrops := id :: s.pendingDrops }
  | .openFor id, .sweep [] => some (s.openPlacedChannel id)
  | .openFor id, .verdict _ _ => some (s.openPlacedChannel id)
  | .activated addr, .activating id slot todo => some (s.finishActivate id slot todo addr)
  | .activationFailed none, .activating _ _ _ => some s.fail
  | .activationFailed (some addr), .activating _ slot _ =>
    -- a pool is only built by a service that multiplexes, under a key that has none yet
    if slot.data.enabled && (s.pools.lookup (ClientSession.poolKey addr)).isNone then some s.fail
    else none
  | .lane slot, _ =>
    if slot ∈ s.claims then some { s with opened := s.opened ++ [spawnDataChannel slot none] }
    else none
  | .lost, .sweep [] => some s.fail
  | .lost, .verdict _ _ => some s.fail
  | .stop, .sweep [] => some { s with phase := .over }
  | .stop, .down => some { s with phase := .over }
  | _, _ => none

/-! ## 5. What a step can do

One constructor for each thing a step does to the services, the pools and the channels; where it
only moves the session along, it is `moved`. -/

/-- The session is inside `activate`. -/
def Phase.isActivating : Phase → Bool
  | .activating _ _ _ => true
  | _ => false

/-- The events that settle what the client wants: the session takes requests, or a service is
refused. -/
def Event.decides : Event → Bool
  | .connect => true
  | .take _ => true
  | .answer .rejected => true
  | _ => false

/-- **What a step can do.** -/
inductive Turn (s : ClientSession) : Event → ClientSession → Prop
  | asked (r : SessionRequest) : Turn s (.ask r) { s with queue := s.queue ++ [r] }
  | connected (h : s.phase = .down) : Turn s .connect s.connected
  | moved {e : Event} (p : Phase) (drops : List ServiceId) (he : e.decides = false)
      (h : s.phase.isActivating = false) (hp : p.isActivating = false) :
      Turn s e { s with phase := p, pendingDrops := drops }
  | reRegistered {sent : Bool} {id : ServiceId} {entry : ServiceEntry} (p : Phase)
      (drops : List ServiceId) (h : s.phase.isActivating = false) (hp : p.isActivating = false)
      (hl : s.services.lookup id = some entry) :
      Turn s (.drain sent)
        { s with
          phase := p
          pendingDrops := drops
          services := s.services.insert id { entry with state := .registering } }
  | took {sent : Bool} {r : SessionRequest} {rest : List SessionRequest} (p : Phase)
      (h : s.phase.isActivating = false) (hp : p.isActivating = false)
      (hq : s.queue = r :: rest) :
      Turn s (.take sent)
        { s with phase := p, queue := rest, services := ClientSession.applyRequest s.services r }
  | activating {id : ServiceId} {todo : List ServiceId} {entry : ServiceEntry}
      (h : s.phase = .verdict id todo) (hl : s.services.lookup id = some entry) :
      Turn s (.answer .ok)
        { s with phase := .activating id entry.slot todo, services := s.services.erase id }
  | rejected {id : ServiceId} {todo : List ServiceId} (h : s.phase = .verdict id todo) :
      Turn s (.answer .rejected) (s.reject id todo)
  | opened {id : ServiceId} {entry : ServiceEntry} {data : ActiveService}
      (hl : s.services.lookup id = some entry) (he : entry.state = .active data) :
      Turn s (.openFor id) { s with opened := s.opened ++ [data.openDataChannel] }
  | activated {id : ServiceId} {slot : ServiceSlot} {todo : List ServiceId} {addr : String}
      (h : s.phase = .activating id slot todo) :
      Turn s (.activated addr) (s.finishActivate id slot todo addr)
  | activationFailed {id : ServiceId} {slot : ServiceSlot} {todo : List ServiceId}
      (addr : Option String) (h : s.phase = .activating id slot todo) :
      Turn s (.activationFailed addr) s.fail
  | laneDialed {slot : ServiceSlot} (h : slot ∈ s.claims) :
      Turn s (.lane slot) { s with opened := s.opened ++ [spawnDataChannel slot none] }

namespace Turn

variable {s : ClientSession}

/-- Where `register` leaves the session, and that it touches nothing else. -/
theorem register_eq (s : ClientSession) (id : ServiceId) (sent : Bool) (todo : List ServiceId) :
    ∃ p : Phase, p.isActivating = false ∧ s.register id sent todo = { s with phase := p } := by
  unfold ClientSession.register
  split
  case h_1 => exact ⟨.draining todo, rfl, rfl⟩
  case h_2 =>
    split
    · exact ⟨.verdict id todo, rfl, rfl⟩
    · exact ⟨.down, rfl, rfl⟩

/-- One iteration of `drain_dropped`. -/
theorem of_reRegister {drops : List ServiceId} {id : ServiceId} {sent : Bool}
    {todo : List ServiceId} (h : s.phase.isActivating = false) :
    Turn s (.drain sent) ({ s with pendingDrops := drops }.reRegister id sent todo) := by
  unfold ClientSession.reRegister
  split
  case h_1 => exact moved (.draining todo) drops rfl h rfl
  case h_2 entry hl =>
    split
    case isTrue => exact moved (.draining todo) drops rfl h rfl
    case isFalse =>
      obtain ⟨p, hp, heq⟩ := register_eq
        { s with
          pendingDrops := drops
          services := s.services.insert id { entry with state := .registering } } id sent todo
      rw [heq]
      exact reRegistered p drops h hp hl

/-- One request taken by the select loop does to the services what it does before a sweep. -/
theorem of_handleRequest {r : SessionRequest} {rest : List SessionRequest} {sent : Bool}
    (h : s.phase.isActivating = false) (hq : s.queue = r :: rest) :
    Turn s (.take sent) ({ s with queue := rest }.handleRequest sent r) := by
  cases r with
  | register slot =>
    obtain ⟨p, hp, heq⟩ := register_eq
      { s with
        queue := rest
        services := s.services.insert slot.id { slot := slot, state := .registering } }
      slot.id sent []
    rw [ClientSession.handleRequest, heq]
    exact took p h hp hq
  | deregister id =>
    rw [ClientSession.handleRequest]
    split
    · exact took s.phase h h hq
    · exact took .down h rfl hq
  | drainLane id lane cancel =>
    rw [ClientSession.handleRequest]
    split
    · exact took s.phase h h hq
    · exact took .down h rfl hq

/-- A channel asked for by the server is opened for an active service, and for no other. -/
theorem of_openPlacedChannel {id : ServiceId} (h : s.phase.isActivating = false) :
    Turn s (.openFor id) (s.openPlacedChannel id) := by
  unfold ClientSession.openPlacedChannel
  split
  case h_1 hl => exact opened hl rfl
  case h_2 => exact moved s.phase s.pendingDrops rfl h h

/-- **Inversion.**  Every step of the session is one of these. -/
theorem of_step {e : Event} {s' : ClientSession} (h : sessionStep s e = some s') :
    Turn s e s' := by
  have hact : ∀ {p : Phase}, s.phase = p → p.isActivating = false → s.phase.isActivating = false :=
    fun hp hq => hp ▸ hq
  unfold sessionStep at h
  split at h
  case h_1 => cases h
  case h_2 r _ =>
    cases h
    exact asked r
  case h_3 hp =>
    cases h
    exact connected hp
  case h_4 hp =>
    cases h
    exact moved s.phase s.pendingDrops rfl (hact hp rfl) (hact hp rfl)
  case h_5 hp =>
    cases h
    exact moved .over s.pendingDrops rfl (hact hp rfl) rfl
  case h_6 sent id todo hp =>
    cases h
    obtain ⟨p, hpa, heq⟩ := register_eq s id sent todo
    rw [heq]
    exact moved p s.pendingDrops rfl (hact hp rfl) hpa
  case h_7 sent todo hp =>
    split at h
    · cases h
      exact moved (.sweep todo) s.pendingDrops rfl (hact hp rfl) rfl
    · cases h
      exact of_reRegister (hact hp rfl)
  case h_8 sent hp =>
    split at h
    · cases h
    case h_2 r rest hq =>
      cases h
      exact of_handleRequest (hact hp rfl) hq
  case h_9 id todo hp =>
    cases h
    unfold ClientSession.startActivate
    split
    case h_1 => exact moved (.draining todo) s.pendingDrops rfl (hact hp rfl) rfl
    case h_2 entry hl => exact activating hp hl
  case h_10 id todo hp =>
    cases h
    exact rejected hp
  case h_11 hp =>
    cases h
    exact moved .down s.pendingDrops rfl (hact hp rfl) rfl
  case h_12 id hp =>
    cases h
    exact moved (.draining []) (id :: s.pendingDrops) rfl (hact hp rfl) rfl
  case h_13 id _ _ hp =>
    cases h
    exact moved s.phase (id :: s.pendingDrops) rfl (hact hp rfl) (hact hp rfl)
  case h_14 id hp =>
    cases h
    exact of_openPlacedChannel (hact hp rfl)
  case h_15 id _ _ hp =>
    cases h
    exact of_openPlacedChannel (hact hp rfl)
  case h_16 addr id slot todo hp =>
    cases h
    exact activated hp
  case h_17 hp =>
    cases h
    exact activationFailed none hp
  case h_18 addr _ slot _ hp =>
    split at h
    · cases h
      exact activationFailed (some addr) hp
    · cases h
  case h_19 slot _ =>
    split at h
    case isTrue hc =>
      cases h
      exact laneDialed hc
    case isFalse => cases h
  case h_20 hp =>
    cases h
    exact moved .down s.pendingDrops rfl (hact hp rfl) rfl
  case h_21 hp =>
    cases h
    exact moved .down s.pendingDrops rfl (hact hp rfl) rfl
  case h_22 hp =>
    cases h
    exact moved .over s.pendingDrops rfl (hact hp rfl) rfl
  case h_23 hp =>
    cases h
    exact moved .over s.pendingDrops rfl (hact hp rfl) rfl
  case h_24 => cases h

end Turn

end Molehill.Client
