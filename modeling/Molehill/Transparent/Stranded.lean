/-
# The flows of a lane that was let go

A lane ends on request when its slot is asked to (`retire`, by a handover or by lending) and no
flow of it has been heard of for `DRAIN_QUIET` (`should_retire`, three seconds).  The end that let
it go vacates the slot, and so does the other one when the connection closes.  But both flow tables
keep an entry for `FLOW_IDLE_EVICTION` (a minute), and a flow that is in the table keeps its slot
whatever becomes of it.  A flow that pauses for three seconds and goes on is sent to the empty slot
from then on (`pause_stranded`).  Lending does not ask the peer at all, so that the peer's flows are
stranded while they are talking (`flow_stranded`), and nobody takes the lane's place.

This module has the two hubs of one claim, as the client and the server run them, and what is true
of them in every run in which a slot is let go only when the last sweep has forgotten its flows:
no entry names such a slot, and no packet is routed to it (`not_stranded`).
-/
import Mathlib.Data.List.Basic
import Molehill.Lib.Transition
import Molehill.Transparent.FlowPlacement

namespace Molehill.Transparent.Slots

open Lib

/-! ## 1. One end -/

/-- One end's hub, for the claim.  `carried` has the packets of the flows that the table knows, each
with the entry it left behind; `left` has the lane that was last in a slot that is empty. -/
structure HubEnd where
  claim : Option ClaimSlots
  carried : List (U64 × FlowEntry)
  left : Table Nat Nat

namespace HubEnd

variable (x : HubEnd)

/-- No lane, and no claim in the table. -/
def vacant : HubEnd := ⟨none, [], ∅⟩

/-- `TunRoutes::retire_lane`. -/
def retireLane (slot : Nat) : HubEnd := { x with claim := x.claim.map fun c => (c.retire slot).1 }

/-- The slot of the lane with the id. -/
def slotOf (id : Nat) : Option Nat := x.claim.bind fun c => c.slotOf id

/-- `TunRoutes::begin_drain`. -/
def beginDrain (id now : Nat) : HubEnd :=
  match x.slotOf id with
  | some slot => { x with claim := x.claim.map fun c => (c.peerDrain slot now).1 }
  | none => x

/-- `TunRoutes::cancel_drain`. -/
def cancelDrain (id : Nat) : HubEnd :=
  match x.slotOf id with
  | some slot => { x with claim := x.claim.map fun c => c.peerUndrain slot }
  | none => x

/-- `TunRoutes::join`, and the slot. -/
def join (lane id : Nat) (carrier : Option Pool.Carrier) (now : Nat) : HubEnd × Nat :=
  let placed := (x.claim.getD (.new now)).place lane (some id) carrier
  ({ x with claim := some placed.1, left := x.left.erase placed.2 }, placed.2)

/-- `TunRoutes::vacate`: the claim goes with its last lane. -/
def vacate (slot lane : Nat) : HubEnd :=
  match x.claim with
  | some c =>
    let c := c.vacate slot
    if c.live then { x with claim := some c, left := x.left.insert slot lane } else .vacant
  | none => x

/-- The claim after a packet of the flow. -/
def carry (key : U64) (c : ClaimSlots) : HubEnd :=
  { x with
    claim := some c
    carried := x.carried ++ (c.flows.lookup key).toList.map fun e => (key, e) }

/-- `TunRoutes::route`. -/
def route (info : PacketInfo) (now : Nat) : HubEnd :=
  match x.claim with
  | some c => x.carry (Flow.key info) (c.route (Flow.key info) now).1
  | none => x

/-- `TunRoutes::touch`. -/
def touch (info : PacketInfo) (now : Nat) : HubEnd :=
  match x.claim with
  | some c => x.carry (Flow.key info) (c.touch (Flow.key info) now)
  | none => x

/-- Whether the flows of a slot fell silent in time: the last packet of each came an eviction time
before the last sweep. -/
def silent (slot : Nat) : Bool :=
  x.claim.all fun c => x.carried.all fun p =>
    p.2.slot ≠ slot || p.2.lastSeen + flowIdleEviction ≤ c.swept

/-- The same of the slot that the lane left before, if it has. -/
def leftSilent (lane : Nat) : Bool := x.left.entries.all fun e => e.2 ≠ lane || x.silent e.1

end HubEnd

/-! ## 2. The two ends -/

/-- A lane, with the slots its two guards hold. -/
structure LaneSeats where
  id : Nat
  carrier : Option Pool.Carrier
  client : Option Nat
  server : Option Nat
  accepted : Bool
  /-- Its task has found `should_retire`. -/
  ending : Bool
  deriving DecidableEq

/-- The claim at both ends.  `ended` are the lanes that ended on request. -/
structure JointHubs where
  client : HubEnd
  server : HubEnd
  lanes : List LaneSeats
  ended : List Nat
  now : Nat

inductive HubEvent
  /-- The client dials a lane, which joins its hub. -/
  | dial (id : Nat) (carrier : Option Pool.Carrier)
  /-- The lane's connection joins the server's hub. -/
  | accept (n : Nat)
  /-- A packet of a device. -/
  | send (client : Bool) (info : PacketInfo)
  /-- A packet off a lane. -/
  | receive (client : Bool) (info : PacketInfo)
  /-- `begin_drain`, at the server. -/
  | drain (id : Nat)
  /-- `cancel_drain`, at the server. -/
  | undrain (id : Nat)
  /-- `retire_lane`, at the client: a handover, or lending. -/
  | retire (slot : Nat)
  /-- The lane's task sees that the lane has nothing left to carry. -/
  | quiet (n : Nat)
  /-- It ends, and its guard with it. -/
  | finish (n : Nat)
  /-- The client's end of the lane fails. -/
  | fail (n : Nat)
  /-- The server's end of the lane is gone. -/
  | close (n : Nat)
  | tick (ms : Nat)

namespace JointHubs

variable (s : JointHubs)

def new : JointHubs := ⟨.vacant, .vacant, [], [], 0⟩

def step : HubEvent → Option JointHubs
  | .dial id carrier =>
    let joined := s.client.join s.lanes.length id carrier s.now
    some { s with
      client := joined.1
      lanes := s.lanes ++ [⟨id, carrier, some joined.2, none, false, false⟩] }
  | .accept n =>
    match s.lanes[n]? with
    | some l =>
      if l.accepted then none
      else
        let joined := s.server.join n l.id l.carrier s.now
        some { s with
          server := joined.1
          lanes := s.lanes.set n { l with server := some joined.2, accepted := true } }
    | none => none
  | .send true info => some { s with client := s.client.route info s.now }
  | .send false info => some { s with server := s.server.route info s.now }
  | .receive true info => some { s with client := s.client.touch info s.now }
  | .receive false info => some { s with server := s.server.touch info s.now }
  | .drain id => some { s with server := s.server.beginDrain id s.now }
  | .undrain id => some { s with server := s.server.cancelDrain id }
  | .retire slot => some { s with client := s.client.retireLane slot }
  | .quiet n =>
    match s.lanes[n]? with
    | some l =>
      if l.client.any fun slot => s.client.claim.any fun c => c.shouldRetire slot s.now then
        some { s with lanes := s.lanes.set n { l with ending := true } }
      else none
    | none => none
  | .finish n =>
    match s.lanes[n]? with
    | some l =>
      match l.client with
      | some slot =>
        if l.ending then
          some { s with
            client := s.client.vacate slot n
            lanes := s.lanes.set n { l with client := none }
            ended := n :: s.ended }
        else none
      | none => none
    | none => none
  | .fail n =>
    match s.lanes[n]? with
    | some l =>
      match l.client with
      | some slot =>
        some { s with
          client := s.client.vacate slot n
          lanes := s.lanes.set n { l with client := none } }
      | none => none
    | none => none
  | .close n =>
    match s.lanes[n]? with
    | some l =>
      match l.server with
      | some slot =>
        some { s with
          server := s.server.vacate slot n
          lanes := s.lanes.set n { l with server := none } }
      | none => none
    | none => none
  | .tick ms => some { s with now := s.now + ms }

/-- Whether the step lets a slot go only after its flows were forgotten. -/
def letsGoSilent : HubEvent → Bool
  | .finish n => ((s.lanes[n]?.bind LaneSeats.client).all fun slot => s.client.silent slot) &&
      s.client.leftSilent n && s.server.leftSilent n
  | .fail n => n ∉ s.ended || (s.lanes[n]?.bind LaneSeats.client).all fun slot =>
      s.client.silent slot
  | .close n => n ∉ s.ended || (s.lanes[n]?.bind LaneSeats.server).all fun slot =>
      s.server.silent slot
  | _ => true

/-- **No flow is stranded** at an end: where a lane that ended on request has left its slot, no flow
is in the slot, and no packet is routed to it. -/
def ClearAt (x : HubEnd) : Prop :=
  ∀ (c : ClaimSlots) (slot lane : Nat), x.claim = some c → x.left.lookup slot = some lane →
    lane ∈ s.ended →
    (∀ (key : U64) e, c.flows.lookup key = some e → e.slot ≠ slot) ∧
      ∀ (info : PacketInfo) (now : Nat), (c.route (Flow.key info) now).2 ≠ some slot

def Clear : Prop := s.ClearAt s.client ∧ s.ClearAt s.server

end JointHubs

/-- The runs of the two hubs. -/
def jointHubs : Lts JointHubs HubEvent where
  init s := s = .new
  step s e s' := s.step e = some s'

/-! ## 3. What is kept at one end -/

namespace ClaimSlots

variable (c : ClaimSlots)

theorem swept_foldl_drop (stale : List (Sigma fun _ : U64 => FlowEntry)) :
    (stale.foldl (fun c e => c.drop e.1 e.2.slot) c).swept = c.swept := by
  induction stale generalizing c with
  | nil => rfl
  | cons e stale ih => exact ih (c.drop e.1 e.2.slot)

/-- What a sweep leaves fell silent after it, or less than an eviction time before. -/
theorem swept_sweepIfDue {now : Nat} {e : FlowEntry} (hkept : c.stale now e = false)
    (hfresh : c.swept < e.lastSeen + flowIdleEviction) :
    (c.sweepIfDue now).swept < e.lastSeen + flowIdleEviction := by
  unfold sweepIfDue
  split
  case isTrue => exact hfresh
  case isFalse hdue =>
    rw [stale, decide_eq_true (Nat.not_lt.mp hdue), Bool.true_and, decide_eq_false_iff_not] at hkept
    rw [swept_foldl_drop]
    change now < e.lastSeen + flowIdleEviction
    omega

theorem swept_sweepIfDue_le {now : Nat} (h : c.swept ≤ now) : (c.sweepIfDue now).swept ≤ now := by
  unfold sweepIfDue
  split
  case isTrue => exact h
  case isFalse =>
    rw [swept_foldl_drop]

theorem swept_track (key : U64) (slot now : Nat) : (c.track key slot now).swept = c.swept := by
  unfold track
  split <;> rfl

theorem swept_vacate (slot : Nat) : (c.vacate slot).swept = c.swept := by
  unfold vacate forgetLane
  split <;> rfl

theorem swept_place (queue : Nat) (lane : Option Nat) (carrier : Option Pool.Carrier) :
    (c.place queue lane carrier).1.swept = c.swept := by
  change c.widen.swept = c.swept
  unfold widen
  split <;> rfl

/-- The queues after a sweep, and after a flow was placed. -/
theorem queues_sweepIfDue (now : Nat) :
    (c.sweepIfDue now).slots.map MemberSlot.queue = c.slots.map MemberSlot.queue := by
  have hqueue : MemberSlot.queue = MemberSlot.queue ∘ MemberSlot.uncounted := rfl
  rw [hqueue, ← List.map_map, (c.sweepIfDue_spec now).1, List.map_map]

theorem queues_track (key : U64) (slot now : Nat) :
    (c.track key slot now).slots.map MemberSlot.queue = c.slots.map MemberSlot.queue := by
  unfold track
  split
  case isTrue =>
    exact ({ c with flows := c.flows.insert key ⟨slot, now⟩ } : ClaimSlots).map_modify
      MemberSlot.queue (f := fun x => { x with flows := x.flows + 1 }) (fun _ => rfl) slot
  case isFalse => rfl

end ClaimSlots

namespace HubEnd

variable {x : HubEnd} {c c' : ClaimSlots} {ended : List Nat} {now : Nat}

/-- **What holds at an end.** -/
structure Kept (x : HubEnd) (c : ClaimSlots) (ended : List Nat) (now : Nat) : Prop where
  /-- An entry is its flow's last packet, which the last sweep did not find silent. -/
  fresh : ∀ (key : U64) e, c.flows.lookup key = some e →
    (key, e) ∈ x.carried ∧ c.swept < e.lastSeen + flowIdleEviction
  swept : c.swept ≤ now
  empty : ∀ (slot lane : Nat), x.left.lookup slot = some lane →
    ∀ m, c.slots[slot]? = some m → m.queue = none
  clear : ∀ (slot lane : Nat), x.left.lookup slot = some lane → lane ∈ ended →
    ∀ (key : U64) e, c.flows.lookup key = some e → e.slot ≠ slot

def Inv (x : HubEnd) (ended : List Nat) (now : Nat) : Prop :=
  ∀ c, x.claim = some c → x.Kept c ended now

theorem inv_vacant (ended : List Nat) (now : Nat) : vacant.Inv ended now := nofun

/-- A claim that is new has no flows. -/
theorem kept_new (x : HubEnd) (ended : List Nat) (now : Nat) : x.Kept (.new now) ended now := by
  refine ⟨nofun, Nat.le_refl now, fun slot lane _ m hm => ?_, fun _ _ _ _ => nofun⟩
  rw [List.mem_singleton.mp (List.mem_of_getElem? hm)]
  rfl

namespace Kept

/-- No flow in a slot that was let go, and none on its way there. -/
theorem not_routed (h : x.Kept c ended now) {slot lane : Nat}
    (hleft : x.left.lookup slot = some lane) (hended : lane ∈ ended) (key : U64) (at_ : Nat) :
    (c.route key at_).2 ≠ some slot := by
  intro hroute
  rcases c.route_cases key at_ with ⟨e, he, heq⟩ | ⟨-, ⟨k, hk, -, heq⟩ | ⟨-, heq⟩⟩
  · rw [heq] at hroute
    exact h.clear slot lane hleft hended key e he (Option.some.inj hroute)
  · rw [heq] at hroute
    cases hroute
    obtain ⟨m, hm, husable⟩ := c.mem_liveSlots.mp hk
    rw [MemberSlot.usable, h.empty slot lane hleft m hm] at husable
    cases husable
  · rw [heq] at hroute
    cases hroute

theorem later (h : x.Kept c ended now) (ms : Nat) : x.Kept c ended (now + ms) :=
  ⟨h.fresh, h.swept.trans (Nat.le_add_right ..), h.empty, h.clear⟩

/-- A mark is set or taken off. -/
theorem marked (h : x.Kept c ended now) (slot : Nat) {f : MemberSlot → MemberSlot}
    (hf : ∀ m, (f m).queue = m.queue) :
    Kept { x with claim := some (c.modify slot f) } (c.modify slot f) ended now := by
  refine ⟨h.fresh, h.swept, fun k lane hleft m hm => ?_, h.clear⟩
  rw [ClaimSlots.getElem?_modify] at hm
  split at hm
  case isTrue heq =>
    obtain ⟨m', hm', rfl⟩ := Option.map_eq_some_iff.mp hm
    exact (hf m').trans (h.empty k lane hleft m' (heq ▸ hm'))
  case isFalse => exact h.empty k lane hleft m hm

/-- A lane takes a slot. -/
theorem placed (h : x.Kept c ended now) (queue : Nat) (lane : Option Nat)
    (carrier : Option Pool.Carrier) :
    Kept { x with
      claim := some (c.place queue lane carrier).1
      left := x.left.erase c.freeSlot } (c.place queue lane carrier).1 ended now := by
  have hflows := (c.sameFlows_place queue lane carrier).1
  have hleft : ∀ k m, (x.left.erase c.freeSlot).lookup k = some m →
      k ≠ c.freeSlot ∧ x.left.lookup k = some m := fun k m hm => Table.lookup_of_erase hm
  refine ⟨?_, ?_, fun k m hm y hy => ?_, fun k m hm hended => ?_⟩
  · rw [hflows, ClaimSlots.swept_place]
    exact h.fresh
  · rw [ClaimSlots.swept_place]
    exact h.swept
  · obtain ⟨hne, hold⟩ := hleft k m hm
    rw [ClaimSlots.getElem?_place, if_neg hne] at hy
    exact h.empty k m hold y hy
  · rw [hflows]
    exact h.clear k m (hleft k m hm).2 hended

/-- What the table has of a slot is on record, so a silent slot has no flow. -/
theorem clear_of_silent (h : x.Kept c ended now) (hc : x.claim = some c) {slot : Nat}
    (hsilent : x.silent slot = true) {key : U64} {e : FlowEntry}
    (he : c.flows.lookup key = some e) : e.slot ≠ slot := by
  intro hslot
  obtain ⟨hmem, hfresh⟩ := h.fresh key e he
  rw [silent, hc, Option.all_some, List.all_eq_true] at hsilent
  have hp := hsilent _ hmem
  rw [Bool.or_eq_true, decide_eq_true_eq, decide_eq_true_eq] at hp
  rcases hp with hne | hle
  · exact hne hslot
  · exact absurd hfresh (Nat.not_lt.mpr hle)

/-- A lane leaves its slot; if it ended on request, the slot is silent. -/
theorem vacated (h : x.Kept c ended now) (hc : x.claim = some c) {slot lane : Nat}
    (hsilent : lane ∈ ended → x.silent slot = true) :
    Kept { x with
      claim := some (c.vacate slot)
      left := x.left.insert slot lane } (c.vacate slot) ended now := by
  have hflows := (c.sameFlows_vacate slot).1
  refine ⟨?_, ?_, fun k m hm y hy => ?_, fun k m hm hended key e he => ?_⟩
  · rw [hflows, ClaimSlots.swept_vacate]
    exact h.fresh
  · rw [ClaimSlots.swept_vacate]
    exact h.swept
  · rw [Table.lookup_insert_eq] at hm
    rw [ClaimSlots.getElem?_vacate] at hy
    split at hm
    case isTrue heq =>
      rw [if_pos heq] at hy
      obtain ⟨y', -, rfl⟩ := Option.map_eq_some_iff.mp hy
      exact ClaimSlots.queue_left y'
    case isFalse hne =>
      rw [if_neg hne] at hy
      exact h.empty k m hm y hy
  · rw [hflows] at he
    rw [Table.lookup_insert_eq] at hm
    split at hm
    case isTrue heq =>
      cases hm
      rw [heq]
      exact h.clear_of_silent hc (hsilent hended) he
    case isFalse => exact h.clear k m hm hended key e he

/-- One more lane has ended on request: what it left before is silent. -/
theorem ends (h : x.Kept c ended now) (hc : x.claim = some c) {n : Nat}
    (hsilent : x.leftSilent n = true) : x.Kept c (n :: ended) now := by
  refine ⟨h.fresh, h.swept, h.empty, fun k m hm hended key e he => ?_⟩
  rcases List.mem_cons.mp hended with rfl | hmem
  · have hentry := List.all_eq_true.mp hsilent ⟨k, m⟩ (AList.mem_lookup_iff.mp hm)
    rw [Bool.or_eq_true, decide_eq_true_eq] at hentry
    exact h.clear_of_silent hc (hentry.resolve_left fun hne => hne rfl) he
  · exact h.clear k m hm hmem key e he

/-- A packet of a flow: what the table has after it was there, or is the flow's own entry, which
keeps its slot or gets a usable one. -/
theorem carried (h : x.Kept c ended now) {key : U64}
    (hentry : ∀ (k : U64) e, c'.flows.lookup k = some e →
      (k = key ∨ c.flows.lookup k = some e) ∧ c'.swept < e.lastSeen + flowIdleEviction ∧
        ((∃ e', c.flows.lookup k = some e' ∧ e'.slot = e.slot) ∨ e.slot ∈ c.liveSlots))
    (hswept : c'.swept ≤ now)
    (hqueue : c'.slots.map MemberSlot.queue = c.slots.map MemberSlot.queue) :
    (x.carry key c').Kept c' ended now := by
  refine ⟨fun k e he => ?_, hswept, fun k m hm y hy => ?_, fun k m hm hended key' e he => ?_⟩
  · obtain ⟨hk, hfresh, -⟩ := hentry k e he
    refine ⟨?_, hfresh⟩
    change (k, e) ∈ x.carried ++ (c'.flows.lookup key).toList.map fun e => (key, e)
    rcases hk with rfl | hold
    · rw [he]
      exact List.mem_append_right _ (List.mem_singleton_self _)
    · exact List.mem_append_left _ (h.fresh k e hold).1
  · have hk : (c'.slots.map MemberSlot.queue)[k]? = (c.slots.map MemberSlot.queue)[k]? := by
      rw [hqueue]
    rw [List.getElem?_map, List.getElem?_map, hy] at hk
    obtain ⟨y', hy', heq⟩ := Option.map_eq_some_iff.mp hk.symm
    exact heq.symm.trans (h.empty k m hm y' hy')
  · rcases (hentry key' e he).2.2 with ⟨e', he', hslot⟩ | hlive
    · rw [← hslot]
      exact h.clear k m hm hended key' e' he'
    · rintro rfl
      obtain ⟨y, hy, husable⟩ := c.mem_liveSlots.mp hlive
      rw [MemberSlot.usable, h.empty e.slot m hm y hy] at husable
      cases husable

/-- A flow of the table is seen again. -/
theorem seen (h : x.Kept c ended now) {key : U64} {e : FlowEntry}
    (he : c.flows.lookup key = some e) :
    let c' := { c with flows := c.flows.insert key { e with lastSeen := now } }
    (x.carry key c').Kept c' ended now := by
  refine h.carried (fun k e' he' => ?_) h.swept rfl
  rw [Table.lookup_insert_eq] at he'
  split at he'
  case isTrue heq =>
    cases he'
    refine ⟨.inl heq, ?_, .inl ⟨e, heq ▸ he, rfl⟩⟩
    exact Nat.lt_of_le_of_lt h.swept (Nat.lt_add_of_pos_right (by decide))
  case isFalse => exact ⟨.inr he', (h.fresh k e' he').2, .inl ⟨e', he', rfl⟩⟩

/-- What a sweep leaves. -/
theorem left_by_sweep (h : x.Kept c ended now) {key : U64} {e : FlowEntry}
    (he : (c.sweepIfDue now).flows.lookup key = some e) : c.flows.lookup key = some e ∧
      (c.sweepIfDue now).swept < e.lastSeen + flowIdleEviction := by
  rw [(c.sweepIfDue_spec now).2.1, Option.filter_eq_some_iff] at he
  have hkept : c.stale now e = false := by
    have := he.2
    rwa [Bool.not_eq_true'] at this
  exact ⟨he.1, c.swept_sweepIfDue hkept (h.fresh key e he.1).2⟩

/-- **A packet is routed.** -/
theorem routed (h : x.Kept c ended now) (key : U64) :
    (x.carry key (c.route key now).1).Kept (c.route key now).1 ended now := by
  rcases c.route_cases key now with ⟨e, he, heq⟩ | ⟨hkey, ⟨slot, hslot, -, heq⟩ | ⟨-, heq⟩⟩
  · rw [heq]
    exact h.seen he
  · rw [heq]
    refine h.carried (fun k e he => ?_) ?_ ?_
    · rw [ClaimSlots.swept_track]
      rw [ClaimSlots.lookup_track] at he
      split at he
      case isTrue hnew =>
        cases he
        refine ⟨.inl hnew.1, ?_, .inr hslot⟩
        exact Nat.lt_of_le_of_lt (c.swept_sweepIfDue_le h.swept)
          (Nat.lt_add_of_pos_right (by decide))
      case isFalse =>
        obtain ⟨hold, hfresh⟩ := h.left_by_sweep he
        exact ⟨.inr hold, hfresh, .inl ⟨e, hold, rfl⟩⟩
    · rw [ClaimSlots.swept_track]
      exact c.swept_sweepIfDue_le h.swept
    · rw [ClaimSlots.queues_track, ClaimSlots.queues_sweepIfDue]
  · rw [heq]
    refine h.carried (fun k e he => ?_) (c.swept_sweepIfDue_le h.swept) (c.queues_sweepIfDue now)
    obtain ⟨hold, hfresh⟩ := h.left_by_sweep he
    exact ⟨.inr hold, hfresh, .inl ⟨e, hold, rfl⟩⟩

/-- A packet of the peer's. -/
theorem touched (h : x.Kept c ended now) (key : U64) :
    (x.carry key (c.touch key now)).Kept (c.touch key now) ended now := by
  unfold ClaimSlots.touch
  split
  case h_1 e he => exact h.seen he
  case h_2 =>
    refine h.carried (fun k e he => ?_) h.swept rfl
    exact ⟨.inr he, (h.fresh k e he).2, .inl ⟨e, he, rfl⟩⟩

end Kept

namespace Inv

theorem later (h : x.Inv ended now) (ms : Nat) : x.Inv ended (now + ms) := fun c hc =>
  (h c hc).later ms

theorem ends (h : x.Inv ended now) {n : Nat} (hsilent : x.leftSilent n = true) :
    x.Inv (n :: ended) now := fun c hc => (h c hc).ends hc hsilent

/-- A mark on a slot. -/
theorem marked (h : x.Inv ended now) (slot : Nat) {f : MemberSlot → MemberSlot}
    (hf : ∀ m, (f m).queue = m.queue) :
    Inv { x with claim := x.claim.map fun c => c.modify slot f } ended now := by
  intro c' hc'
  obtain ⟨c, hc, rfl⟩ := Option.map_eq_some_iff.mp hc'
  rw [hc]
  exact (h c hc).marked slot hf

theorem retired (h : x.Inv ended now) (slot : Nat) : (x.retireLane slot).Inv ended now :=
  h.marked slot (f := fun m => { m with draining := true }) fun _ => rfl

theorem drained (h : x.Inv ended now) (id at_ : Nat) : (x.beginDrain id at_).Inv ended now := by
  unfold beginDrain
  split
  case h_1 slot _ =>
    exact h.marked slot (f := fun m => { m with peerDraining := true }) fun _ => rfl
  case h_2 => exact h

theorem undrained (h : x.Inv ended now) (id : Nat) : (x.cancelDrain id).Inv ended now := by
  unfold cancelDrain
  split
  case h_1 slot _ =>
    exact h.marked slot (f := fun m => { m with peerDraining := false }) fun _ => rfl
  case h_2 => exact h

theorem joined (h : x.Inv ended now) (lane id : Nat) (carrier : Option Pool.Carrier) :
    (x.join lane id carrier now).1.Inv ended now := by
  have hclaim : x.Kept (x.claim.getD (.new now)) ended now := by
    cases hc : x.claim with
    | none => exact x.kept_new ended now
    | some c => exact h c hc
  intro c' hc'
  cases hc'
  exact hclaim.placed lane (some id) carrier

theorem vacated (h : x.Inv ended now) {slot lane : Nat}
    (hsilent : lane ∈ ended → x.silent slot = true) : (x.vacate slot lane).Inv ended now := by
  unfold vacate
  split
  case h_1 c hc =>
    dsimp only
    split
    case isTrue =>
      intro c' hc'
      cases hc'
      exact (h c hc).vacated hc hsilent
    case isFalse => exact inv_vacant ended now
  case h_2 => exact h

theorem routed (h : x.Inv ended now) (info : PacketInfo) : (x.route info now).Inv ended now := by
  unfold route
  split
  case h_1 c hc =>
    intro c' hc'
    cases hc'
    exact (h c hc).routed (Flow.key info)
  case h_2 => exact h

theorem touched (h : x.Inv ended now) (info : PacketInfo) : (x.touch info now).Inv ended now := by
  unfold touch
  split
  case h_1 c hc =>
    intro c' hc'
    cases hc'
    exact (h c hc).touched (Flow.key info)
  case h_2 => exact h

end Inv

end HubEnd

/-! ## 4. The runs -/

namespace JointHubs

variable {s s' : JointHubs}

def Inv (s : JointHubs) : Prop := s.client.Inv s.ended s.now ∧ s.server.Inv s.ended s.now

theorem Inv.clear (h : s.Inv) : s.Clear := by
  have hat : ∀ x : HubEnd, x.Inv s.ended s.now → s.ClearAt x := by
    intro x hx c slot lane hc hleft hended
    exact ⟨(hx c hc).clear slot lane hleft hended, fun info now =>
      (hx c hc).not_routed hleft hended (Flow.key info) now⟩
  exact ⟨hat s.client h.1, hat s.server h.2⟩

/-- **One event** that lets no slot go before its flows are forgotten. -/
theorem Inv.step {e : HubEvent} (h : s.Inv) (hok : s.letsGoSilent e = true)
    (hs : s.step e = some s') : s'.Inv := by
  cases e with
  | dial id carrier =>
    cases hs
    exact ⟨h.1.joined _ id carrier, h.2⟩
  | accept n =>
    simp only [JointHubs.step] at hs
    split at hs
    case h_1 l hl =>
      split at hs
      case isTrue => cases hs
      case isFalse =>
        cases hs
        exact ⟨h.1, h.2.joined n l.id l.carrier⟩
    case h_2 => cases hs
  | send client info =>
    cases client with
    | true =>
      cases hs
      exact ⟨h.1.routed info, h.2⟩
    | false =>
      cases hs
      exact ⟨h.1, h.2.routed info⟩
  | receive client info =>
    cases client with
    | true =>
      cases hs
      exact ⟨h.1.touched info, h.2⟩
    | false =>
      cases hs
      exact ⟨h.1, h.2.touched info⟩
  | drain id =>
    cases hs
    exact ⟨h.1, h.2.drained id s.now⟩
  | undrain id =>
    cases hs
    exact ⟨h.1, h.2.undrained id⟩
  | retire slot =>
    cases hs
    exact ⟨h.1.retired slot, h.2⟩
  | quiet n =>
    simp only [JointHubs.step] at hs
    split at hs
    case h_1 l hl =>
      split at hs
      case isTrue =>
        cases hs
        exact h
      case isFalse => cases hs
    case h_2 => cases hs
  | finish n =>
    simp only [JointHubs.step] at hs
    split at hs
    case h_1 l hl =>
      split at hs
      case h_1 slot hslot =>
        split at hs
        case isTrue =>
          cases hs
          rw [letsGoSilent, hl, Option.bind_some, hslot, Option.all_some, Bool.and_eq_true,
            Bool.and_eq_true] at hok
          exact ⟨(h.1.ends hok.1.2).vacated fun _ => hok.1.1, h.2.ends hok.2⟩
        case isFalse => cases hs
      case h_2 => cases hs
    case h_2 => cases hs
  | fail n =>
    simp only [JointHubs.step] at hs
    split at hs
    case h_1 l hl =>
      split at hs
      case h_1 slot hslot =>
        cases hs
        rw [letsGoSilent, hl, Option.bind_some, hslot, Option.all_some, Bool.or_eq_true,
          decide_eq_true_eq] at hok
        exact ⟨h.1.vacated fun hmem => hok.resolve_left fun hne => hne hmem, h.2⟩
      case h_2 => cases hs
    case h_2 => cases hs
  | close n =>
    simp only [JointHubs.step] at hs
    split at hs
    case h_1 l hl =>
      split at hs
      case h_1 slot hslot =>
        cases hs
        rw [letsGoSilent, hl, Option.bind_some, hslot, Option.all_some, Bool.or_eq_true,
          decide_eq_true_eq] at hok
        exact ⟨h.1, h.2.vacated fun hmem => hok.resolve_left fun hne => hne hmem⟩
      case h_2 => cases hs
    case h_2 => cases hs
  | tick ms =>
    cases hs
    exact ⟨h.1.later ms, h.2.later ms⟩

end JointHubs

/-- **No flow is stranded**, in every run in which a lane that ends on request lets its slots go
only after the flows placed in them were silent for an eviction time at the last sweep. -/
theorem not_stranded {s : JointHubs}
    (h : (jointHubs.restrict fun s e => s.letsGoSilent e = true).Reach s) : s.Clear := by
  refine JointHubs.Inv.clear (h.invariant ?_ ?_)
  · rintro s rfl
    exact ⟨HubEnd.inv_vacant [] 0, HubEnd.inv_vacant [] 0⟩
  · rintro s e s' hinv ⟨hok, hs⟩
    exact hinv.step hok hs

/-- A flow in slot 0 falls silent for a minute, and another flow's packet makes the sweep due,
before the lane in slot 0 is let go; then the flow goes on. -/
def silentFirst : List HubEvent :=
  [.dial 1 (some .kcp), .accept 0, .dial 2 (some .tcp), .accept 1, .send true (flowNo 3),
    .receive false (flowNo 3), .tick 5000, .drain 1, .retire 0, .tick 60000,
    .send true (flowNo 0), .quiet 0, .finish 0, .close 0, .tick 1000, .send true (flowNo 3)]

theorem not_stranded_silentFirst :
    ∃ s, (jointHubs.restrict fun s e => s.letsGoSilent e = true).Reach s ∧ s.ended = [0] ∧
      s.client.left.lookup 0 = some 0 ∧ s.server.left.lookup 0 = some 0 ∧
      s.client.claim.map (fun c => (c.flows.lookup (Flow.key (flowNo 3))).map FlowEntry.slot) =
        some (some 1) ∧ s.Clear := by
  have hrun : (Lts.runWith JointHubs.step JointHubs.letsGoSilent .new silentFirst).any (fun s =>
      s.ended = [0] ∧ s.client.left.lookup 0 = some 0 ∧ s.server.left.lookup 0 = some 0 ∧
        s.client.claim.map (fun c => (c.flows.lookup (Flow.key (flowNo 3))).map FlowEntry.slot) =
          some (some 1)) = true := by
    decide +kernel
  obtain ⟨s, hreach, hs⟩ := Lts.Reach.exists_runWith (T := jointHubs)
    (C := fun s e => s.letsGoSilent e = true) (fun _ _ _ h => h) (fun _ _ h => h) rfl hrun
  obtain ⟨hended, hclient, hserver, hflow⟩ := of_decide_eq_true hs
  exact ⟨s, hreach, hended, hclient, hserver, hflow, not_stranded hreach⟩

/-- The server has a flow in slot 0, the client has none; so the client lends the lane. -/
def lent : List HubEvent :=
  [.dial 1 (some .kcp), .accept 0, .dial 2 (some .tcp), .accept 1, .send false (flowNo 3),
    .retire 0, .quiet 0, .finish 0, .close 0, .tick 5]

/-- **A flow that is stranded**: the lane in slot 0 was lent, slot 1 is live and takes flows, and
the next packet of the flow that the server had in slot 0 is routed there. -/
theorem flow_stranded :
    ∃ s c, jointHubs.Reach s ∧ s.ended = [0] ∧ s.server.claim = some c ∧ c.liveSlots = [1] ∧
      s.server.left.lookup 0 = some 0 ∧
      (c.route (Flow.key (flowNo 3)) s.now).2 = some 0 ∧ ¬ s.Clear := by
  have hrun : (Lts.runWith JointHubs.step (fun _ _ => true) .new lent).any (fun s =>
      s.ended = [0] ∧ s.server.left.lookup 0 = some 0 ∧ s.server.claim.any fun c =>
        c.liveSlots = [1] ∧ (c.route (Flow.key (flowNo 3)) s.now).2 = some 0) = true := by
    decide +kernel
  obtain ⟨s, hreach, hs⟩ := Lts.Reach.exists_run (T := jointHubs) (fun _ _ _ h => h) rfl hrun
  obtain ⟨hended, hleft, hany⟩ := of_decide_eq_true hs
  obtain ⟨c, hc, hclaim⟩ := (Option.any_eq_true ..).mp hany
  obtain ⟨hlive, hroute⟩ := of_decide_eq_true hclaim
  refine ⟨s, c, hreach, hended, hc, hlive, hleft, hroute, fun hclear => ?_⟩
  exact (hclear.2 c 0 0 hc hleft (hended ▸ List.mem_singleton_self 0)).2 (flowNo 3) s.now hroute

/-- A flow in slot 0 of the client pauses for three seconds, and the lane is handed over. -/
def paused : List HubEvent :=
  [.dial 1 (some .kcp), .accept 0, .dial 2 (some .tcp), .accept 1, .send true (flowNo 3),
    .tick 3000, .drain 1, .retire 0, .quiet 0, .finish 0, .close 0, .tick 1000]

/-- The client's own flow is stranded, too, until another lane takes the slot. -/
theorem pause_stranded :
    ∃ s c, jointHubs.Reach s ∧ s.ended = [0] ∧ s.client.claim = some c ∧ c.liveSlots = [1] ∧
      (c.route (Flow.key (flowNo 3)) s.now).2 = some 0 := by
  have hrun : (Lts.runWith JointHubs.step (fun _ _ => true) .new paused).any (fun s =>
      s.ended = [0] ∧ s.client.claim.any fun c =>
        c.liveSlots = [1] ∧ (c.route (Flow.key (flowNo 3)) s.now).2 = some 0) = true := by
    decide +kernel
  obtain ⟨s, hreach, hs⟩ := Lts.Reach.exists_run (T := jointHubs) (fun _ _ _ h => h) rfl hrun
  obtain ⟨hended, hany⟩ := of_decide_eq_true hs
  obtain ⟨c, hc, hclaim⟩ := (Option.any_eq_true ..).mp hany
  obtain ⟨hlive, hroute⟩ := of_decide_eq_true hclaim
  exact ⟨s, c, hreach, hended, hc, hlive, hroute⟩

end Molehill.Transparent.Slots
