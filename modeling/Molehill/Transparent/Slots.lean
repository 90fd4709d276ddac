/-
# The lane set of a claim

`ClaimSlots` (`transparent/hub.rs`): the slots of a claimed endpoint, the lanes that hold them with
their counters, and the table of the flows that were placed in them.  A slot stays when its lane
goes, so that the replacement takes over its index and its flows.  This module has the operations
on one claim, as the hub calls them under its lock, and what each of them does to one slot and to
one flow; the modules after it are about their runs.

Times are in milliseconds.  The counters are natural numbers: the source's are 64 bits wide, and
count packets.
-/
import Mathlib.Data.List.Basic
import Molehill.Lib.Table
import Molehill.Pool.Placement
import Molehill.Transparent.Flow

namespace Molehill.Transparent.Slots

open Lib

/-! ## 1. The data -/

/-- `LaneCounters`. -/
structure LaneCounters where
  offeredPackets : Nat := 0
  offeredBytes : Nat := 0
  enqueuedPackets : Nat := 0
  enqueuedBytes : Nat := 0
  overflowPackets : Nat := 0
  overflowBytes : Nat := 0
  disconnectedPackets : Nat := 0
  disconnectedBytes : Nat := 0
  injectedPackets : Nat := 0
  injectedBytes : Nat := 0
  deriving DecidableEq

namespace LaneCounters

variable (c : LaneCounters) (packets bytes : Nat)

def offer : LaneCounters :=
  { c with offeredPackets := c.offeredPackets + packets, offeredBytes := c.offeredBytes + bytes }

/-- The queue took the batch (`flush`). -/
def enqueue : LaneCounters :=
  { c with
    enqueuedPackets := c.enqueuedPackets + packets
    enqueuedBytes := c.enqueuedBytes + bytes }

def refuse (laneAbsent : Bool) : LaneCounters :=
  if laneAbsent then
    { c with
      disconnectedPackets := c.disconnectedPackets + packets
      disconnectedBytes := c.disconnectedBytes + bytes }
  else
    { c with
      overflowPackets := c.overflowPackets + packets
      overflowBytes := c.overflowBytes + bytes }

def inject : LaneCounters :=
  { c with
    injectedPackets := c.injectedPackets + packets
    injectedBytes := c.injectedBytes + bytes }

end LaneCounters

/-- `RemoteLane`: what the peer reported last. -/
structure RemoteLane where
  offered : U32
  refused : U32
  seq : BitVec 8
  deriving DecidableEq

/-- `LaneKey`. -/
structure LaneKey where
  id : Nat
  generation : Nat
  deriving DecidableEq

/-- `RetiredLane`, in its claim. -/
structure RetiredLane where
  lane : LaneKey
  counters : LaneCounters
  deriving DecidableEq

/-- `MemberSlot`.  The queue is known by the number of the lane it leads to; `flag` is `draining`
once more, outside the lock, and is left out. -/
structure MemberSlot where
  queue : Option Nat := none
  draining : Bool := false
  peerDraining : Bool := false
  counters : LaneCounters := {}
  remote : Option RemoteLane := none
  retired : List RetiredLane := []
  lane : Option LaneKey := none
  carrier : Option Pool.Carrier := none
  forwarded : Nat := 0
  noChannel : Nat := 0
  flows : Nat := 0
  deriving DecidableEq

/-- `FlowEntry`. -/
structure FlowEntry where
  slot : Nat
  lastSeen : Nat
  deriving DecidableEq

/-- `ClaimSlots`, without the wire format and the wake. -/
structure ClaimSlots where
  slots : List MemberSlot
  flows : Table U64 FlowEntry
  retired : List RetiredLane
  generation : Nat
  swept : Nat

/-- `RETIRED_LANES`. -/
def retiredLanes : Nat := 4

/-- `FLOW_IDLE_EVICTION`. -/
def flowIdleEviction : Nat := 60000

/-- `DRAIN_QUIET`. -/
def drainQuiet : Nat := 3000

/-- `MAX_TRACKED_FLOWS`. -/
def maxTrackedFlows : Nat := 4096

/-- A list of retired lanes with one more, the oldest gone when there are too many. -/
def remember (retired : List RetiredLane) (lane : RetiredLane) : List RetiredLane :=
  let retired := retired ++ [lane]
  if retiredLanes < retired.length then retired.tail else retired

/-! ## 2. One slot -/

namespace MemberSlot

variable (x : MemberSlot)

def new : MemberSlot := {}

/-- The slot gets a lane (`place`). -/
def hold (queue : Nat) (lane : Option LaneKey) (carrier : Option Pool.Carrier) : MemberSlot :=
  let x :=
    match x.lane with
    | some previous => { x with
        counters := {}
        remote := none
        retired := remember x.retired ⟨previous, x.counters⟩ }
    | none => x
  { x with queue := some queue, lane := lane, carrier := carrier }

/-- The slot is emptied (`vacate`). -/
def empty : MemberSlot := { x with queue := none, draining := false, peerDraining := false }

/-- The slot's lane is let go (`forget_lane`). -/
def forget : MemberSlot :=
  match x.lane with
  | some previous => { x with
      lane := none
      counters := {}
      retired := remember x.retired ⟨previous, x.counters⟩ }
  | none => x

/-- A report of the peer: one that is older than the one held is no news (`note_remote`). -/
def noteRemote (report : RemoteLane) : MemberSlot :=
  if x.remote.all fun held => (report.seq - held.seq).toNat < 128 then
    { x with remote := some report }
  else x

/-- A batch meets the slot's queue, which takes it or not (`flush`). -/
def flush (count bytes : Nat) (takes : Bool) : MemberSlot :=
  let counters := x.counters.offer count bytes
  if x.queue.isSome && takes then
    { x with forwarded := x.forwarded + count, counters := counters.enqueue count bytes }
  else
    { x with
      noChannel := x.noChannel + count
      counters := counters.refuse count bytes x.queue.isNone }

/-- Packets of the slot's lane are injected (`count_injected`). -/
def countInjected (packets bytes : Nat) : MemberSlot :=
  { x with counters := x.counters.inject packets bytes }

/-- Whether a new flow may be placed here. -/
def usable : Bool := x.queue.isSome && !x.draining && !x.peerDraining

/-- Whether the slot's lane has the id. -/
def named (lane : Nat) : Bool := x.lane.any fun key => key.id = lane

end MemberSlot

/-- What `flush` reads of a `Batch`. -/
structure Batch where
  bytes : Nat
  packets : Nat
  packetTotal : Nat
  deriving DecidableEq

/-- The packets a batch counts for; the count is a `u32` that saturates. -/
def Batch.count (batch : Batch) : Nat := min (max batch.packetTotal batch.packets) (2 ^ 32 - 1)

/-! ## 3. The claim's lanes -/

namespace ClaimSlots

variable (c : ClaimSlots)

def new (now : Nat) : ClaimSlots := ⟨[.new], ∅, [], 0, now⟩

/-- The entry of a slot changes. -/
def modify (slot : Nat) (f : MemberSlot → MemberSlot) : ClaimSlots :=
  { c with slots := c.slots.modify slot f }

theorem getElem?_modify (k : Nat) (f : MemberSlot → MemberSlot) (j : Nat) :
    (c.modify k f).slots[j]? = if j = k then c.slots[k]?.map f else c.slots[j]? := by
  rw [modify, List.getElem?_modify]
  by_cases h : k = j
  · rw [if_pos h.symm, h]
    simp only [if_true]
    rfl
  · rw [if_neg fun heq => h heq.symm]
    simp only [h, if_false]
    exact Option.map_id' ..

theorem modify_self (k : Nat) : c.modify k id = c := by
  rw [modify, List.modify_id]

/-- The lowest empty slot, or the one behind the last. -/
def freeSlot : Nat := c.slots.findIdx fun x => x.queue.isNone

/-- The lane's key: the generation tells it from the lanes before. -/
def laneKey (lane : Option Nat) : Option LaneKey :=
  lane.map fun id => ⟨id, (c.generation + 1) % 2 ^ 32⟩

/-- The set is wider by a slot, if all are taken. -/
def widen : ClaimSlots :=
  if c.freeSlot < c.slots.length then c else { c with slots := c.slots ++ [.new] }

/-- `place`: a slot for the lane. -/
def place (queue : Nat) (lane : Option Nat) (carrier : Option Pool.Carrier) : ClaimSlots × Nat :=
  ({ c.widen.modify c.freeSlot fun x => x.hold queue (c.laneKey lane) carrier with
    generation := if lane.isSome then (c.generation + 1) % 2 ^ 32 else c.generation }, c.freeSlot)

/-- `forget_lane`. -/
def forgetLane (slot : Nat) : ClaimSlots :=
  match c.slots[slot]?.bind fun x => x.lane.map fun lane => (⟨lane, x.counters⟩ : RetiredLane) with
  | some retired => { c.modify slot MemberSlot.forget with retired := remember c.retired retired }
  | none => c

/-- `vacate`, in the claim. -/
def vacate (slot : Nat) : ClaimSlots := (c.modify slot MemberSlot.empty).forgetLane slot

/-- The slot that a lane takes: it was empty, or there was none. -/
theorem queue_freeSlot {x : MemberSlot} (hx : c.slots[c.freeSlot]? = some x) : x.queue = none := by
  obtain ⟨hlt, hx⟩ := List.getElem?_eq_some_iff.mp hx
  have hfree : (c.slots.get ⟨c.freeSlot, hlt⟩).queue.isNone = true := List.findIdx_getElem (w := hlt)
  rw [List.get_eq_getElem, hx] at hfree
  exact Option.isNone_iff_eq_none.mp hfree

theorem getElem?_widen (j : Nat) : c.widen.slots[j]? =
    if j = c.freeSlot then some (c.slots[c.freeSlot]?.getD .new) else c.slots[j]? := by
  have hle : c.freeSlot ≤ c.slots.length := List.findIdx_le_length
  unfold widen
  split
  case isTrue hlt =>
    split
    case isTrue heq => rw [heq, List.getElem?_eq_getElem hlt]; rfl
    case isFalse => rfl
  case isFalse hge =>
    have heq : c.freeSlot = c.slots.length := Nat.le_antisymm hle (Nat.not_lt.mp hge)
    split
    case isTrue hj =>
      rw [hj, heq, List.getElem?_concat_length, List.getElem?_eq_none (Nat.le_refl _)]
      rfl
    case isFalse hj =>
      rw [List.getElem?_append]
      split
      case isTrue => rfl
      case isFalse hlen =>
        rw [List.getElem?_eq_none (Nat.not_lt.mp hlen), List.getElem?_eq_none]
        rw [List.length_singleton]
        omega

/-- The slots after a lane was placed. -/
theorem getElem?_place (queue : Nat) (lane : Option Nat) (carrier : Option Pool.Carrier)
    (j : Nat) : (c.place queue lane carrier).1.slots[j]? =
      if j = c.freeSlot then
        some ((c.slots[c.freeSlot]?.getD .new).hold queue (c.laneKey lane) carrier)
      else c.slots[j]? := by
  change (c.widen.modify c.freeSlot _).slots[j]? = _
  rw [getElem?_modify, getElem?_widen, if_pos rfl, getElem?_widen]
  split
  case isTrue => rfl
  case isFalse => rfl

@[simp] theorem retired_widen : c.widen.retired = c.retired := by
  unfold widen
  split <;> rfl

@[simp] theorem retired_place (queue : Nat) (lane : Option Nat) (carrier : Option Pool.Carrier) :
    (c.place queue lane carrier).1.retired = c.retired :=
  c.retired_widen

theorem getElem?_forgetLane (k j : Nat) : (c.forgetLane k).slots[j]? =
    if j = k then c.slots[k]?.map MemberSlot.forget else c.slots[j]? := by
  unfold forgetLane
  split
  case h_1 => exact c.getElem?_modify k MemberSlot.forget j
  case h_2 hnone =>
    split
    case isTrue heq =>
      subst heq
      cases hx : c.slots[j]? with
      | none => rfl
      | some x =>
        rw [hx, Option.bind_some, Option.map_eq_none_iff] at hnone
        rw [Option.map_some, MemberSlot.forget, hnone]
    case isFalse => rfl

/-- The slot that a lane leaves. -/
theorem getElem?_vacate (k j : Nat) : (c.vacate k).slots[j]? =
    if j = k then c.slots[k]?.map fun x => x.empty.forget else c.slots[j]? := by
  rw [vacate, getElem?_forgetLane, getElem?_modify, getElem?_modify, if_pos rfl, Option.map_map]
  split <;> rfl

theorem mem_remember {retired : List RetiredLane} {r r' : RetiredLane}
    (h : r ∈ remember retired r') : r ∈ retired ∨ r = r' := by
  have hmem : r ∈ retired ++ [r'] := by
    unfold remember at h
    dsimp only at h
    split at h
    case isTrue => exact List.mem_of_mem_tail h
    case isFalse => exact h
  rcases List.mem_append.mp hmem with hmem | hmem
  · exact .inl hmem
  · exact .inr (List.mem_singleton.mp hmem)

theorem queue_left (x : MemberSlot) : x.empty.forget.queue = none := by
  unfold MemberSlot.forget
  split <;> rfl

theorem lane_left (x : MemberSlot) : x.empty.forget.lane = none := by
  unfold MemberSlot.forget
  split
  case h_1 => rfl
  case h_2 h => exact h

/-- What the slot remembers after a lane left. -/
theorem mem_retired_left {x : MemberSlot} {r : RetiredLane} (h : r ∈ x.empty.forget.retired) :
    r ∈ x.retired ∨ (x.lane = some r.lane ∧ r.counters = x.counters) := by
  unfold MemberSlot.forget at h
  split at h
  case h_1 previous hp =>
    rcases mem_remember h with hmem | rfl
    · exact .inl hmem
    · exact .inr ⟨hp, rfl⟩
  case h_2 => exact .inl h

/-- What the claim remembers after a lane left: the lane too, if it has an id. -/
theorem mem_retired_vacate {k : Nat} {r : RetiredLane} (h : r ∈ (c.vacate k).retired) :
    r ∈ c.retired ∨ ∃ x, c.slots[k]? = some x ∧ x.lane = some r.lane ∧ r.counters = x.counters := by
  unfold vacate forgetLane at h
  split at h
  case h_1 retired hr =>
    rcases mem_remember h with hmem | rfl
    · exact .inl hmem
    · rw [getElem?_modify, if_pos rfl] at hr
      obtain ⟨y, hy, hlane⟩ := Option.bind_eq_some_iff.mp hr
      obtain ⟨x, hx, rfl⟩ := Option.map_eq_some_iff.mp hy
      obtain ⟨lane, hl, rfl⟩ := Option.map_eq_some_iff.mp hlane
      exact .inr ⟨x, hx, hl, rfl⟩
  case h_2 => exact .inl h

/-- Whether a lane is left. -/
def live : Bool := c.slots.any fun x => x.queue.isSome

/-- `slot_of`. -/
def slotOf (lane : Nat) : Option Nat := c.slots.findIdx? fun x => x.named lane

/-- `note_remote`, in the claim: the first slot with the id. -/
def noteRemote (lane : Nat) (report : RemoteLane) : ClaimSlots :=
  match c.slotOf lane with
  | some slot => c.modify slot fun x => x.noteRemote report
  | none => c

/-- `flush`, in the claim. -/
def flush (slot : Nat) (batch : Batch) (takes : Bool) : ClaimSlots :=
  c.modify slot fun x => x.flush batch.count batch.bytes takes

/-- `count_injected`, in the claim. -/
def countInjected (slot packets bytes : Nat) : ClaimSlots :=
  c.modify slot fun x => x.countInjected packets bytes

/-- `live_slots`. -/
def liveSlots : List Nat :=
  (List.range c.slots.length).filter fun slot => c.slots[slot]?.any MemberSlot.usable

/-! ## 4. The flows -/

/-- `active_flows`. -/
def activeFlows (slot window now : Nat) : Nat :=
  c.flows.entries.countP fun e => e.2.slot = slot && now - e.2.lastSeen < window

/-- `drain_ready`. -/
def drainReady (slot now : Nat) : Bool := c.activeFlows slot drainQuiet now = 0

/-- `retire`, and whether the lane is idle. -/
def retire (slot : Nat) : ClaimSlots × Bool :=
  (c.modify slot fun x => { x with draining := true }, c.slots[slot]?.any fun x => x.flows = 0)

/-- `peer_drain`, and whether this end holds none of the lane's flows. -/
def peerDrain (slot now : Nat) : ClaimSlots × Bool :=
  (c.modify slot fun x => { x with peerDraining := true },
    c.slots[slot]?.isSome && c.drainReady slot now)

/-- `peer_undrain`. -/
def peerUndrain (slot : Nat) : ClaimSlots := c.modify slot fun x => { x with peerDraining := false }

/-- `should_retire`. -/
def shouldRetire (slot now : Nat) : Bool :=
  c.slots[slot]?.any fun x => x.draining && c.activeFlows slot drainQuiet now = 0

/-- A flow is forgotten. -/
def drop (key : U64) (slot : Nat) : ClaimSlots :=
  { c with flows := c.flows.erase key }.modify slot fun x => { x with flows := x.flows - 1 }

/-- `sweep_if_due`. -/
def sweepIfDue (now : Nat) : ClaimSlots :=
  if now - c.swept < 1000 then c
  else
    (c.flows.entries.filter fun e => flowIdleEviction ≤ now - e.2.lastSeen).foldl
      (fun c e => c.drop e.1 e.2.slot) { c with swept := now }

/-- The least loaded of the slots. -/
def leastLoaded (live : List Nat) : List Nat :=
  let loads := live.filterMap fun slot => c.slots[slot]?.map MemberSlot.flows
  match loads.min? with
  | some least => live.filter fun slot => c.slots[slot]?.any fun x => x.flows = least
  | none => []

/-- Where a flow that the table does not have is placed: among the least loaded of the usable
slots, or, if the table is full, among all of them. -/
def choose (key : U64) (live : List Nat) : Option Nat :=
  let candidates :=
    if maxTrackedFlows ≤ c.flows.entries.length then live else c.leastLoaded live
  candidates[Flow.slot key candidates.length]?

/-- The placement is remembered, if there is room. -/
def track (key : U64) (slot now : Nat) : ClaimSlots :=
  if c.flows.entries.length < maxTrackedFlows then
    { c with flows := c.flows.insert key ⟨slot, now⟩ }.modify slot fun x =>
      { x with flows := x.flows + 1 }
  else c

/-- `route`: the lane of a packet of the flow. -/
def route (key : U64) (now : Nat) : ClaimSlots × Option Nat :=
  match c.flows.lookup key with
  | some e => ({ c with flows := c.flows.insert key { e with lastSeen := now } }, some e.slot)
  | none =>
    let live := c.liveSlots
    let c := c.sweepIfDue now
    match c.choose key live with
    | some slot => (c.track key slot now, some slot)
    | none => (c, none)

/-- `touch`. -/
def touch (key : U64) (now : Nat) : ClaimSlots :=
  match c.flows.lookup key with
  | some e => { c with flows := c.flows.insert key { e with lastSeen := now } }
  | none => c

end ClaimSlots

end Molehill.Transparent.Slots
