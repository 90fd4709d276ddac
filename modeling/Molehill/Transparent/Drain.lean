/-
# Draining a lane: the two ends of the protocol

A lane is one carrier connection of a transparent claim.  The client, which dialed it, may retire
it only when the server too holds no flow in it, so it asks: `ask_drain` sends a drain request
over the control session, the server marks the lane (`begin_drain`) and answers `READY`,
`PENDING` or `UNKNOWN`; its lane reporter sends `READY` again when the lane has become quiet; the
client records the last answer (`LaneDrainState`) and acts on it at its next look (`drain_step`).
A drain that stays without an answer is called off with a cancel request.

Requests and answers name a lane by the service and the lane's id, and nothing else.  Everything
the two ends keep of the protocol is kept per such name; so the state is a record per name, with its
own queues (the shared FIFO channels of the session only order more).  What the names share are the
slots of the service's claim: `drain_step` reads the slot of the lane and retires it in two holds of
the hub's lock, and `retire_lane` marks whatever the slot has by then, an empty slot too.  The
allocator's lending retires a slot as well (`lend`), and no message says so.

A step goes from one lock or channel to the next: the allocator's ticker picks a lane, records the
ask and sends it, or takes an answer, finds the slot, retires it and forgets the ask (`Looking`);
the server's session marks the lane and then sends its answer (`replying`), and the reporter goes
through what it has read of the lanes (`sampled`) while they change.

Lanes are told apart, for the statements, by the order in which they were dialed (`born`), and asks
by their number (`attempt`); no step reads either.
-/
import Mathlib.Logic.Function.Basic
import Molehill.Lib.Transition

namespace Molehill.Transparent

open Lib Function

/-! ## 1. Messages -/

/-- The states of a `LaneDrainAck`. -/
inductive DrainAck
  | ready
  | pending
  | unknown
  | cancelled
  deriving DecidableEq

/-- `SessionRequest::DrainLane`, and the `DrainLane` or `CancelDrain` it becomes. -/
structure DrainRequest where
  cancel : Bool
  attempt : Nat
  deriving DecidableEq

/-- A `LaneDrainAck`. -/
structure DrainAnswer where
  state : DrainAck
  attempt : Nat
  deriving DecidableEq

/-! ## 2. What the two ends keep under one name -/

/-- A lane in the client's hub. -/
structure ClientLane where
  born : Nat
  slot : Nat
  /-- Asked to end by `retire_lane`. -/
  draining : Bool
  deriving DecidableEq

/-- A lane in the server's hub. -/
structure ServerLane where
  born : Nat
  peerDraining : Bool
  /-- No flow of this end has carried a packet within the quiet window. -/
  quiet : Bool
  /-- The ask that marked it last. -/
  drain : Nat
  deriving DecidableEq

/-- A lane `drain_step` retired: which one, on which answer about it, and what had been asked. -/
structure Retirement where
  lane : Nat
  answered : Option Nat
  attempt : Nat
  target : Option Nat
  deriving DecidableEq

/-- Where the allocator's ticker stands under a name. -/
inductive Looking
  | done
  /-- The policy has picked the lane. -/
  | picked (born : Nat)
  /-- `ask_drain` has changed the `draining` map, and sends the request next. -/
  | sending (request : DrainRequest)
  /-- `drain_step` has taken a `READY`. -/
  | answered (answer : DrainAnswer)
  /-- It has found the lane's slot. -/
  | found (slot : Nat) (answer : DrainAnswer)
  /-- It takes the ask off the `draining` map next. -/
  | dropping
  deriving DecidableEq

/-- The `READY` that `drain_step` acts on. -/
def Looking.answer : Looking → Option DrainAnswer
  | .answered answer => some answer
  | .found _ answer => some answer
  | _ => none

def Looking.request : Looking → Option DrainRequest
  | .sending request => some request
  | _ => none

/-- Everything about one (service, lane id). -/
structure LaneRecord where
  /-- In the allocator's `draining` map. -/
  asked : Bool
  /-- The `LaneDrainState` entry. -/
  noted : Option DrainAnswer
  looking : Looking
  /-- By slot. -/
  lanes : List ClientLane
  /-- In the session's request channel. -/
  queued : List DrainRequest
  toServer : List DrainRequest
  /-- The answer of the server's session that is not sent yet. -/
  replying : Option DrainAnswer
  toClient : List DrainAnswer
  members : List ServerLane
  /-- What the reporter has read of the lanes and not gone through. -/
  sampled : List ServerLane
  /-- In the reporter's `ready_sent` set. -/
  readySent : Bool
  /-- Lanes dialed so far, and those that have yet to join each end's hub. -/
  dialed : Nat
  clientDue : List Nat
  serverDue : List Nat
  /-- The number of the last ask, and the lane it was made for. -/
  attempt : Nat
  target : Option Nat
  retired : List Retirement

/-- Nothing was ever dialed or asked under this name. -/
def LaneRecord.new : LaneRecord where
  asked := false
  noted := none
  looking := .done
  lanes := []
  queued := []
  toServer := []
  replying := none
  toClient := []
  members := []
  sampled := []
  readySent := false
  dialed := 0
  clientDue := []
  serverDue := []
  attempt := 0
  target := none
  retired := []

/-- What can happen under one name. -/
inductive LaneEvent
  /-- The policy picks a lane of the client. -/
  | pick (born : Nat)
  /-- The ask for its drain is recorded. -/
  | ask
  /-- The request is sent to the session. -/
  | send
  /-- `drain_step` comes to this name and takes what was noted.  `stale`: the ask has waited for the
  whole budget. -/
  | look (stale : Bool)
  /-- It reads the lane's slot.  `found`: a claim of this session dials the lane and its device is
  up. -/
  | find (found : Bool)
  /-- The ask is taken off the map. -/
  | drop
  /-- The session's loop writes the next request. -/
  | write
  /-- The server's session acts on the next request.  `known`: it has the service, whose hub is
  up. -/
  | serve (known : Bool)
  /-- It sends its answer. -/
  | reply
  /-- The reporter reads the lanes. -/
  | sample
  /-- It comes to one of those it has read. -/
  | report (i : Nat)
  /-- The reporter starts anew with the service. -/
  | reporterStarts
  /-- The client's session loop reads the next answer. -/
  | note
  /-- A server lane's flows fall silent, or talk. -/
  | flows (quiet : Bool)
  /-- The client dials a lane under this name. -/
  | dial
  /-- A dialed lane joins the client's hub; `draining`: in a slot that is marked. -/
  | clientJoins (born slot : Nat) (draining : Bool)
  | clientEnds (born : Nat)
  | serverJoins (born place : Nat)
  | serverEnds (born : Nat)
  /-- The control session is lost and comes up again: what was on the wire is gone, and the
  requests still queued are dropped by `apply_pending_requests`. -/
  | reconnect
  deriving DecidableEq

/-! ## 3. The client -/

namespace LaneRecord

/-- `ask_drain` with `cancel = false`, up to the request: one ask per name. -/
def askDrain (r : LaneRecord) (born : Nat) : LaneRecord :=
  if r.asked then { r with looking := .done }
  else
    { r with
      asked := true
      attempt := r.attempt + 1
      target := some born
      looking := .sending ⟨false, r.attempt + 1⟩ }

/-- `ask_drain` with `cancel = true`, for a name in `draining`. -/
def cancelDrain (r : LaneRecord) : LaneRecord :=
  { r with asked := false, looking := .sending ⟨true, r.attempt⟩ }

/-- `drain_step`, for a name in `draining`: what was noted is taken. -/
def drainStep (r : LaneRecord) (stale : Bool) : LaneRecord :=
  match r.noted with
  | none => if stale then r.cancelDrain else r
  | some answer =>
    let taken := { r with noted := none }
    match answer.state with
    | .ready => { taken with looking := .answered answer }
    | .pending => taken
    | .unknown => { taken with looking := .dropping }
    | .cancelled => { taken with looking := .dropping }

/-- `drain_step` on a `READY`: the slot of the first lane of that id. -/
def find (r : LaneRecord) (answer : DrainAnswer) (found : Bool) : LaneRecord :=
  if found then
    match r.lanes with
    | [] => { r with looking := .dropping }
    | lane :: _ => { r with looking := .found lane.slot answer }
  else { r with looking := .done }

/-- `retire_lane`: the lane in the slot is marked. -/
def mark (r : LaneRecord) (slot : Nat) : LaneRecord :=
  { r with lanes := r.lanes.map fun l => if l.slot = slot then { l with draining := true } else l }

/-- The lane in the slot is retired by `drain_step`, on an answer about it or about another. -/
def hit (r : LaneRecord) (slot : Nat) (answered : Option Nat) : LaneRecord :=
  { r.mark slot with
    retired := r.retired ++ (r.lanes.filter (·.slot = slot)).map fun l =>
      ⟨l.born, answered, r.attempt, r.target⟩ }

/-- `drain_step` retires the slot it found. -/
def retire (r : LaneRecord) (slot : Nat) (answer : DrainAnswer) : LaneRecord :=
  { r.hit slot (some answer.attempt) with looking := .dropping }

/-! ## 4. The server -/

/-- `lane_drain`: the mark, and the answer. -/
def laneDrain (r : LaneRecord) (request : DrainRequest) (known : Bool) : LaneRecord :=
  let answer (r : LaneRecord) (state : DrainAck) : LaneRecord :=
    { r with replying := some ⟨state, request.attempt⟩ }
  match known, r.members with
  | true, lane :: rest =>
    if request.cancel then
      answer { r with members := { lane with peerDraining := false } :: rest } .cancelled
    else
      answer
        { r with members := { lane with peerDraining := true, drain := request.attempt } :: rest }
        (if lane.quiet then .ready else .pending)
  | _, _ => answer r .unknown

/-- The lane reporter at a lane, as it has read it. -/
def reportLane (r : LaneRecord) (lane : ServerLane) : LaneRecord :=
  if lane.peerDraining && lane.quiet then
    if r.readySent then r
    else { r with readySent := true, toClient := r.toClient ++ [⟨.ready, lane.drain⟩] }
  else if lane.peerDraining then r
  else { r with readySent := false }

/-- A new connection of the session. -/
def reconnect (r : LaneRecord) : LaneRecord :=
  { r with queued := [], toServer := [], replying := none, toClient := [], sampled := [] }

end LaneRecord

/-! ## 5. The step -/

/-- A step under one name. -/
def LaneRecord.step (r : LaneRecord) : LaneEvent → Option LaneRecord
  | .pick born =>
    if born ∈ r.lanes.map ClientLane.born ∧ r.looking = .done then
      some { r with looking := .picked born }
    else none
  | .ask =>
    match r.looking with
    | .picked born => some (r.askDrain born)
    | _ => none
  | .send =>
    match r.looking with
    | .sending q => some { r with queued := r.queued ++ [q], looking := .done }
    | _ => none
  | .look stale => if r.asked ∧ r.looking = .done then some (r.drainStep stale) else none
  | .find found =>
    match r.looking with
    | .answered answer => some (r.find answer found)
    | _ => none
  | .drop =>
    if r.looking = .dropping then some { r with asked := false, looking := .done } else none
  | .write =>
    match r.queued with
    | [] => none
    | q :: rest => some { r with queued := rest, toServer := r.toServer ++ [q] }
  | .serve known =>
    match r.toServer, r.replying with
    | q :: rest, none => some ({ r with toServer := rest }.laneDrain q known)
    | _, _ => none
  | .reply => r.replying.map fun a => { r with replying := none, toClient := r.toClient ++ [a] }
  | .sample => some { r with sampled := r.sampled ++ r.members }
  | .report i =>
    r.sampled[i]?.map fun m => { r with sampled := r.sampled.eraseIdx i }.reportLane m
  | .reporterStarts => some { r with readySent := false }
  | .note =>
    match r.toClient with
    | [] => none
    | a :: rest => some { r with toClient := rest, noted := some a }
  | .flows quiet => some { r with members := r.members.map fun m => { m with quiet := quiet } }
  | .dial =>
    some
      { r with
        dialed := r.dialed + 1
        clientDue := r.dialed :: r.clientDue
        serverDue := r.dialed :: r.serverDue }
  | .clientJoins born slot draining =>
    if born ∈ r.clientDue then
      some
        { r with
          clientDue := r.clientDue.erase born
          lanes := r.lanes.filter (·.slot < slot) ++
            ⟨born, slot, draining⟩ :: r.lanes.filter (slot ≤ ·.slot) }
    else none
  | .clientEnds born =>
    some
      { r with
        clientDue := r.clientDue.erase born
        lanes := r.lanes.filter (·.born ≠ born) }
  | .serverJoins born place =>
    if born ∈ r.serverDue then
      some
        { r with
          serverDue := r.serverDue.erase born
          members := r.members.take place ++ ⟨born, false, true, 0⟩ :: r.members.drop place }
    else none
  | .serverEnds born =>
    some
      { r with
        serverDue := r.serverDue.erase born
        members := r.members.filter (·.born ≠ born) }
  | .reconnect => some r.reconnect

/-- A lane's name: the service and the lane id. -/
abbrev LaneName := Nat × Nat

/-- The two ends: a record per name, and the marks of the client's slots by service. -/
structure Drains where
  records : LaneName → LaneRecord
  marks : Nat → Nat → Bool

inductive DrainEvent
  /-- Something happens under one name. -/
  | under (name : LaneName) (e : LaneEvent)
  /-- `drain_step` retires the slot that it found for the name's lane. -/
  | retire (name : LaneName)
  /-- The allocator lends the lane in the slot. -/
  | lend (service slot : Nat)
  /-- The control session reconnects, under all names. -/
  | reconnect
  deriving DecidableEq

namespace Drains

def new : Drains := ⟨fun _ => .new, fun _ _ => false⟩

variable (s : Drains)

def set (name : LaneName) (r : LaneRecord) : Drains := { s with records := update s.records name r }

/-- A lane is gone, and the mark of its slot with it. -/
def left (name : LaneName) (born : Nat) : Drains :=
  { s with marks := update s.marks name.1 fun slot => s.marks name.1 slot &&
      !(s.records name).lanes.any fun l => l.born = born && l.slot = slot }

/-- `retire_lane`: the slot is marked, and `f` is what it means for the lane in it. -/
def retireLane (service slot : Nat) (f : LaneName → LaneRecord → LaneRecord) : Drains where
  records name := if name.1 = service then f name (s.records name) else s.records name
  marks := update s.marks service (update (s.marks service) slot true)

/-- A step under one name. -/
def stepUnder (name : LaneName) (e : LaneEvent) : Option Drains :=
  match e with
  -- a marked slot may be gone with its claim by the time the lane joins
  | .clientJoins _ slot draining =>
    if draining → s.marks name.1 slot then ((s.records name).step e).map (s.set name) else none
  | .clientEnds born => ((s.records name).step e).map ((s.left name born).set name)
  | .reconnect => none
  | _ => ((s.records name).step e).map (s.set name)

/-- A step of the protocol. -/
def step : DrainEvent → Option Drains
  | .under name e => s.stepUnder name e
  | .retire name =>
    match (s.records name).looking with
    | .found slot answer => some (s.retireLane name.1 slot fun other r =>
        if other = name then r.retire slot answer else r.hit slot none)
    | _ => none
  | .lend service slot => some (s.retireLane service slot fun _ r => r.mark slot)
  | .reconnect => some { s with records := fun name => (s.records name).reconnect }

end Drains

/-- The runs of the protocol. -/
def drains : Lts Drains DrainEvent where
  init s := s = .new
  step s e s' := s.step e = some s'

/-! ## 6. What the protocol is for -/

namespace LaneRecord

/-- The requests the server has yet to act on, oldest first. -/
def requests (r : LaneRecord) : List DrainRequest :=
  r.toServer ++ r.queued ++ r.looking.request.toList

/-- The answers the client has yet to take, oldest first. -/
def answers (r : LaneRecord) : List DrainAnswer :=
  r.noted.toList ++ r.toClient ++ r.replying.toList

/-- No drain message is in flight: no request the server has yet to act on, no answer on its way,
and no answer to an outstanding ask that the client has noted and not taken, or has taken and is
about to drop the ask for. -/
def Quiescent (r : LaneRecord) : Prop :=
  r.requests = [] ∧ r.toClient = [] ∧ r.replying = none ∧
    (r.asked = true → r.noted = none ∧ r.looking ≠ .dropping)

/-- Every retirement was decided on an answer about the lane to the ask that was current (and not
called off), and retired the lane that ask was made for. -/
def RetiresOnCurrent (r : LaneRecord) : Prop :=
  ∀ t ∈ r.retired, t.answered = some t.attempt ∧ t.target = some t.lane

/-- The ends agree on every lane both of them hold: it is peer-draining at the server exactly when
the client has an outstanding ask or has begun to retire it. -/
def Agrees (r : LaneRecord) : Prop :=
  ∀ l ∈ r.lanes, ∀ m ∈ r.members, l.born = m.born →
    (m.peerDraining = true ↔ r.asked = true ∨ l.draining = true)

end LaneRecord

end Molehill.Transparent
