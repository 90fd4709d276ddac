/-
# The lane allocator

The transparent claims of a session share its lanes.  A claim that is activated has its share of
data channels dialed and joins the pool with that share as its target; the pool's budget is the
sum of the shares.  Once a second the ticker looks at what the lanes carry, decides on one move
(`plan`), and dials a lane for the claim that is short; when the budget is used up, it first asks
an idle lane of another claim to end.  The server asks for a replacement when a lane has ended,
and the client dials it if the claim has fewer lanes than its target.

The dials, the ends of the lanes and the requests happen in tasks of their own, so between the
ticker's look, its decision and its dial anything may happen; the model has a step for each.

The pool means to stay within its budget, in the targets as in the lanes.  It does not
(`budget_exceeded`): it counts live lanes and not the ones that are being dialed, an added lane
raises a target that nothing lowers, and a swap dials before the lent lane has ended.  What room
lending leaves, and what it does to the targets, is here too (`lend_full`, `targets_eq_budget`);
which runs keep the budget is the subject of `Client/LaneBudget.lean`.
-/
import Mathlib.Algebra.Order.BigOperators.Group.List
import Molehill.Lib.Tally
import Molehill.Lib.Transition
import Molehill.Transparent.Drain
import Molehill.Transparent.Lanes

namespace Molehill.Client

open Function Lib Transparent

/-! ## 1. The pool -/

/-- `ClaimEntry`, with the service of its `args`. -/
structure ClaimEntry where
  tun : String
  service : Nat
  share : Nat
  target : Nat
  /-- A claim keeps the lane that makes it reachable. -/
  target_pos : 0 < target
  deriving DecidableEq

/-- The claim is to have one lane more (`dial`). -/
def ClaimEntry.raised (entry : ClaimEntry) : ClaimEntry :=
  { entry with target := entry.target + 1, target_pos := Nat.succ_pos _ }

/-- The claim has lent a lane (`step`). -/
def ClaimEntry.lowered (entry : ClaimEntry) : ClaimEntry :=
  { entry with target := max (entry.target - 1) 1, target_pos := by omega }

/-- A lane that has joined its hub, as `member_stats` shows it. -/
structure Member where
  slot : Nat
  flows : Nat
  lane : Option Nat
  /-- Asked to end. -/
  draining : Bool
  deriving DecidableEq

/-- A data channel of a claim that has not ended; without a member it is being dialed. -/
structure Lane where
  service : Nat
  endpoint : Endpoint
  tun : String
  member : Option Member
  deriving DecidableEq

/-- Where the ticker is in `LanePool::step`. -/
inductive Ticker
  | waiting
  /-- The drains are handled. -/
  | looking
  | sampled (loads : List ClaimLoad) (used : Nat)
  | lending (donor : Endpoint) (slot : Nat) (taker : Endpoint)
  /-- With the lane that was lent for it, if it is not one more. -/
  | dialing (taker : Endpoint) (lent : Option (Endpoint × Nat))
  deriving DecidableEq

/-- `LanePool`, with the session's active services, the lanes and the devices that are up. -/
structure LanePool where
  lend : Bool
  claims : Table Endpoint ClaimEntry
  /-- The drains asked for, by service and lane. -/
  draining : List (Nat × Nat)
  drainState : Table (Nat × Nat) DrainAck
  /-- The endpoint and device of every active service. -/
  services : Table Nat (Endpoint × String)
  up : List String
  lanes : List Lane
  ticker : Ticker

namespace LanePool

def new (lend : Bool) : LanePool := ⟨lend, ∅, [], ∅, ∅, [], [], .waiting⟩

variable (s : LanePool)

/-- `LanePool::register`. -/
def register (e : Endpoint) (tun : String) (service share : Nat) : LanePool :=
  { s with claims := s.claims.insert e ⟨tun, service, max share 1, max share 1, by omega⟩ }

/-- `LanePool::unregister`. -/
def unregister (e : Endpoint) : LanePool := { s with claims := s.claims.erase e }

/-- `LanePool::budget`. -/
def budget : Nat := s.claims.total ClaimEntry.share

/-- The sum of the claims' targets. -/
def targets : Nat := s.claims.total ClaimEntry.target

/-- The claim's live lanes on the device. -/
def members (e : Endpoint) (tun : String) : List Member :=
  (s.lanes.filter fun lane => lane.endpoint = e ∧ lane.tun = tun).filterMap Lane.member

/-- `spawn_data_channel`. -/
def spawnDataChannel (service : Nat) (e : Endpoint) (tun : String) (count : Nat) : LanePool :=
  { s with lanes := s.lanes ++ List.replicate count ⟨service, e, tun, none⟩ }

/-- `LanePool::wants_another_lane`. -/
def wantsAnotherLane (e : Endpoint) : Bool :=
  match s.claims.lookup e with
  | none => true
  | some entry =>
    if entry.tun ∈ s.up then decide ((s.members e entry.tun).length < entry.target) else true

/-- What the policy sees of one claim. -/
def claimLoad (e : Endpoint) (entry : ClaimEntry) : ClaimLoad where
  endpoint := e
  lanes := (s.members e entry.tun).map fun m =>
    ⟨m.slot, m.flows, m.lane.any fun lane => decide ((entry.service, lane) ∈ s.draining)⟩

/-- `LanePool::snapshot`: claims whose device is not up are left out. -/
def snapshot : List ClaimLoad × Nat :=
  let loads := (s.claims.entries.filter fun c => c.2.tun ∈ s.up).map fun c => s.claimLoad c.1 c.2
  (loads, (loads.map fun load => load.lanes.length).sum)

/-- `TunHub::retire_lane`: mark the lane in the slot. -/
def retireLane (e : Endpoint) (tun : String) (slot : Nat) : LanePool :=
  { s with
    lanes := s.lanes.map fun lane =>
      match lane.member with
      | some m =>
        if lane.endpoint = e ∧ lane.tun = tun ∧ m.slot = slot then
          { lane with member := some { m with draining := true } }
        else lane
      | none => lane }

/-- What `retire_lane` answers: whether no flow is placed in the slot.  Of a slot whose lane has
ended meanwhile only the hub knows. -/
def idleAt (e : Endpoint) (tun : String) (slot : Nat) (vacant : Bool) : Bool :=
  match (s.members e tun).find? fun m => m.slot = slot with
  | some m => decide (m.flows = 0)
  | none => vacant

/-- `LanePool::dial`. -/
def dial (e : Endpoint) : LanePool :=
  match s.claims.lookup e with
  | none => s
  | some entry =>
    { s with claims := s.claims.insert e entry.raised }.spawnDataChannel entry.service e entry.tun 1

/-- One drain that was asked for, in `drain_step`; `stale`: it has waited for too long. -/
def drainOne (stale : Bool) (key : Nat × Nat) : LanePool :=
  match s.drainState.lookup key with
  | none => if stale then { s with draining := s.draining.erase key } else s
  | some state =>
    let s := { s with drainState := s.drainState.erase key }
    let forgotten := { s with draining := s.draining.erase key }
    match state with
    | .pending => s
    | .unknown | .cancelled => forgotten
    | .ready =>
      match s.claims.entries.find? fun c => c.2.service = key.1 with
      | none => s
      | some ⟨e, entry⟩ =>
        if entry.tun ∈ s.up then
          match (s.members e entry.tun).find? fun m => m.lane = some key.2 with
          | none => forgotten
          | some m => forgotten.retireLane e entry.tun m.slot
        else s

/-- `LanePool::drain_step`. -/
def drainStep (stale : List (Nat × Nat)) : LanePool :=
  s.draining.foldl (fun s key => s.drainOne (decide (key ∈ stale)) key) s

/-- `LanePool::ask_drain`, asked for by the carrier rule or the diagnostic switch. -/
def askDrain (key : Nat × Nat) : LanePool := { s with draining := s.draining.insert key }

/-- The first free slot of the claim's set. -/
def freeSlot (e : Endpoint) (tun : String) : Nat :=
  let held := (s.members e tun).map Member.slot
  ((List.range (held.length + 1)).find? (· ∉ held)).getD held.length

end LanePool

/-! ## 2. Its runs -/

inductive PoolEvent
  /-- A service's registration was accepted: its channels are dialed and its claim joins. -/
  | activate (service : Nat) (e : Endpoint) (tun : String) (channels : Nat)
  /-- The server dropped the service; it is registering again. -/
  | dropped (service : Nat)
  | deregister (service : Nat)
  /-- The server asks for a data channel of the service. -/
  | request (service : Nat)
  /-- A dial succeeded and the lane took its slot, with the flows that are placed in it. -/
  | joined (i : Nat) (lane : Option Nat) (flows : Nat)
  /-- A dial failed, or a lane ended. -/
  | ended (i : Nat)
  /-- The flows placed in a lane, as the hub counts them. -/
  | load (i flows : Nat)
  | device (tun : String) (up : Bool)
  /-- The server answered about a drain. -/
  | answer (key : Nat × Nat) (state : DrainAck)
  /-- The ticker handles the drains and asks for others. -/
  | drains (stale asks : List (Nat × Nat))
  /-- It looks at the lanes. -/
  | look
  /-- It decides. -/
  | plan
  /-- It asks the donor's lane to end; `vacant`: what the hub says of a slot without a lane. -/
  | retire (vacant : Bool)
  | dial
  deriving DecidableEq

namespace LanePool

variable (s : LanePool)

/-- `activate`, from the channels on. -/
def activate (service : Nat) (e : Endpoint) (tun : String) (channels : Nat) : LanePool :=
  { (s.spawnDataChannel service e tun channels).register e tun service channels with
    services := s.services.insert service (e, tun) }

/-- `deregister`: only an active service's claim is forgotten. -/
def deregister (service : Nat) : LanePool :=
  match s.services.lookup service with
  | some (e, _) => { s.unregister e with services := s.services.erase service }
  | none => s

/-- `open_placed_channel`. -/
def request (service : Nat) : LanePool :=
  match s.services.lookup service with
  | some (e, tun) => if s.wantsAnotherLane e then s.spawnDataChannel service e tun 1 else s
  | none => s

/-- A dialed lane joins the hub of its device. -/
def joined (i : Nat) (id : Option Nat) (flows : Nat) : Option LanePool :=
  match s.lanes[i]? with
  | some lane =>
    if lane.member = none ∧ lane.tun ∈ s.up then
      let member : Member := ⟨s.freeSlot lane.endpoint lane.tun, flows, id, false⟩
      some { s with lanes := s.lanes.set i { lane with member := some member } }
    else none
  | none => none

/-- The flow count of a live lane. -/
def load (i flows : Nat) : Option LanePool :=
  match s.lanes[i]? with
  | some lane =>
    lane.member.map fun m =>
      { s with lanes := s.lanes.set i { lane with member := some { m with flows := flows } } }
  | none => none

/-- `step` up to lending. -/
def drains (stale asks : List (Nat × Nat)) : LanePool :=
  let s := asks.foldl askDrain (s.drainStep stale)
  { s with ticker := if s.lend then .looking else .waiting }

/-- `step`: the snapshot. -/
def look : LanePool :=
  if 2 ≤ s.snapshot.1.length then { s with ticker := .sampled s.snapshot.1 s.snapshot.2 }
  else { s with ticker := .waiting }

/-- `step`: the plan, with the budget of this moment. -/
def planned : Option LanePool :=
  match s.ticker with
  | .sampled loads used =>
    some
      { s with
        ticker :=
          match plan loads s.budget used with
          | none => .waiting
          | some (.add taker) => .dialing taker none
          | some (.lend donor slot taker) => .lending donor slot taker }
  | _ => none

/-- `step`: the donor's half of a swap. -/
def retire (vacant : Bool) : Option LanePool :=
  match s.ticker with
  | .lending donor slot taker =>
    match s.claims.lookup donor with
    | none => some { s with ticker := .waiting }
    | some entry =>
      if entry.tun ∈ s.up then
        let marked := s.retireLane donor entry.tun slot
        if s.idleAt donor entry.tun slot vacant then
          some
            { marked with
              claims := s.claims.insert donor entry.lowered
              ticker := .dialing taker (some (donor, slot)) }
        else some { marked with ticker := .waiting }
      else some { s with ticker := .waiting }
  | _ => none

/-- One step of the session and its lanes. -/
def step : PoolEvent → Option LanePool
  | .activate service e tun channels => some (s.activate service e tun channels)
  | .dropped service => some { s with services := s.services.erase service }
  | .deregister service => some (s.deregister service)
  | .request service => some (s.request service)
  | .joined i id flows => s.joined i id flows
  | .ended i => if i < s.lanes.length then some { s with lanes := s.lanes.eraseIdx i } else none
  | .load i flows => s.load i flows
  | .device tun up =>
    some { s with up := if up then s.up.insert tun else s.up.erase tun }
  | .answer key state => some { s with drainState := s.drainState.insert key state }
  | .drains stale asks => if s.ticker = .waiting then some (s.drains stale asks) else none
  | .look => if s.ticker = .looking then some s.look else none
  | .plan => s.planned
  | .retire vacant => s.retire vacant
  | .dial =>
    match s.ticker with
    | .dialing taker _ => some { s.dial taker with ticker := .waiting }
    | _ => none

end LanePool

/-- The runs of a session's lane allocator, with lending on or off. -/
def laneAllocator (lend : Bool) : Lts LanePool PoolEvent where
  init s := s = .new lend
  step s e s' := s.step e = some s'

/-! ## 3. What is counted -/

namespace LanePool

section Counts

variable (s : LanePool)

/-- The claim's lanes, dialed or alive. -/
def held (e : Endpoint) : Nat := (s.lanes.map Lane.endpoint).count e

/-- The lanes the claim is to have; none if there is no such claim. -/
def target (e : Endpoint) : Nat := ((s.claims.lookup e).map ClaimEntry.target).getD 0

/-- The lane is the one that was asked to end, for the lane the ticker is about to dial. -/
def isLent (lane : Lane) : Bool :=
  match s.ticker with
  | .dialing _ (some (e, slot)) =>
    lane.endpoint = e && lane.member.any fun m => m.slot = slot && m.draining
  | _ => false

/-- The claim that has lent a lane, while that has not ended. -/
def lender : List Endpoint :=
  match s.ticker with
  | .dialing _ (some (e, _)) => if s.lanes.any s.isLent then [e] else []
  | _ => []

end Counts

/-! ### What the steps leave as it is -/

/-- What is counted stays: the claims, and whose the lanes are. -/
structure Keeps (s s' : LanePool) : Prop where
  lend : s'.lend = s.lend
  claims : s'.claims = s.claims
  endpoints : s'.lanes.map Lane.endpoint = s.lanes.map Lane.endpoint
  ticker : s'.ticker = s.ticker

variable {s s' s'' : LanePool}

theorem Keeps.refl (s : LanePool) : Keeps s s := ⟨rfl, rfl, rfl, rfl⟩

theorem Keeps.trans (h : Keeps s s') (h' : Keeps s' s'') : Keeps s s'' where
  lend := h'.lend.trans h.lend
  claims := h'.claims.trans h.claims
  endpoints := h'.endpoints.trans h.endpoints
  ticker := h'.ticker.trans h.ticker

theorem keeps_foldl {α : Type} {f : LanePool → α → LanePool} (hf : ∀ s a, Keeps s (f s a))
    (xs : List α) (s : LanePool) : Keeps s (xs.foldl f s) := by
  induction xs generalizing s with
  | nil => exact .refl s
  | cons a rest ih => exact (hf s a).trans (ih (f s a))

theorem keeps_retireLane (s : LanePool) (e : Endpoint) (tun : String) (slot : Nat) :
    Keeps s (s.retireLane e tun slot) := by
  refine ⟨rfl, rfl, ?_, rfl⟩
  simp only [retireLane, List.map_map]
  refine List.map_congr_left fun lane _ => ?_
  simp only [Function.comp_apply]
  split
  · split <;> rfl
  · rfl

theorem keeps_drainOne (s : LanePool) (stale : Bool) (key : Nat × Nat) :
    Keeps s (s.drainOne stale key) := by
  unfold drainOne
  split
  · split <;> exact ⟨rfl, rfl, rfl, rfl⟩
  · split
    · exact ⟨rfl, rfl, rfl, rfl⟩
    · exact ⟨rfl, rfl, rfl, rfl⟩
    · exact ⟨rfl, rfl, rfl, rfl⟩
    · dsimp only
      split
      · exact ⟨rfl, rfl, rfl, rfl⟩
      · split
        · split
          · exact ⟨rfl, rfl, rfl, rfl⟩
          · exact ⟨rfl, rfl, (keeps_retireLane _ _ _ _).endpoints, rfl⟩
        · exact ⟨rfl, rfl, rfl, rfl⟩

/-- The drains and the asks of a tick. -/
theorem keeps_drains (s : LanePool) (stale asks : List (Nat × Nat)) :
    Keeps s (asks.foldl askDrain (s.drainStep stale)) := by
  have hask : ∀ (s : LanePool) (key : Nat × Nat), Keeps s (s.askDrain key) :=
    fun _ _ => ⟨rfl, rfl, rfl, rfl⟩
  have hdrain : Keeps s (s.drainStep stale) :=
    keeps_foldl (fun s key => keeps_drainOne s _ key) s.draining s
  exact hdrain.trans (keeps_foldl hask asks _)

theorem held_congr (h : s'.lanes.map Lane.endpoint = s.lanes.map Lane.endpoint) (e : Endpoint) :
    s'.held e = s.held e := by rw [held, held, h]

/-- A lane that changes, but not in whose it is and whether it was lent. -/
theorem set_lane {i : Nat} {lane lane' : Lane} (hi : s.lanes[i]? = some lane)
    (hend : lane'.endpoint = lane.endpoint) (hlent : s.isLent lane' = s.isLent lane) :
    Keeps s { s with lanes := s.lanes.set i lane' } ∧
      lender { s with lanes := s.lanes.set i lane' } = s.lender := by
  obtain ⟨hlt, rfl⟩ := List.getElem?_eq_some_iff.mp hi
  have hmap : ∀ {β : Type} (f : Lane → β), f lane' = f s.lanes[i] →
      (s.lanes.set i lane').map f = s.lanes.map f := by
    intro β f hf
    rw [List.map_set, hf, ← List.getElem_map f, List.set_getElem_self]
    simpa using hlt
  have hany : (s.lanes.set i lane').any s.isLent = s.lanes.any s.isLent := by
    have h := congrArg (fun bs : List Bool => bs.any id) (hmap s.isLent hlent)
    simpa only [List.any_map, Function.id_comp] using h
  refine ⟨⟨rfl, rfl, hmap Lane.endpoint hend, rfl⟩, ?_⟩
  have hsame : isLent { s with lanes := s.lanes.set i lane' } = s.isLent := rfl
  simp only [lender, hsame, hany]

theorem joined_spec {i : Nat} {id : Option Nat} {flows : Nat} (h : s.joined i id flows = some s') :
    Keeps s s' ∧ s'.lender = s.lender := by
  unfold joined at h
  split at h
  case h_1 lane hi =>
    split at h
    case isTrue hc =>
      cases h
      refine set_lane hi rfl ?_
      -- a lane that joins is not asked to end
      simp only [isLent, hc.1]
      split <;> simp
    case isFalse => cases h
  case h_2 => cases h

theorem load_spec {i flows : Nat} (h : s.load i flows = some s') :
    Keeps s s' ∧ s'.lender = s.lender := by
  unfold load at h
  split at h
  case h_1 lane hi =>
    obtain ⟨m, hm, rfl⟩ := Option.map_eq_some_iff.mp h
    refine set_lane hi rfl ?_
    simp only [isLent, hm]
    split <;> simp
  case h_2 => cases h

/-- Lanes that are being dialed are nobody's loan. -/
theorem lender_spawn (s : LanePool) (service : Nat) (e : Endpoint) (tun : String) (count : Nat) :
    (s.spawnDataChannel service e tun count).lender = s.lender := by
  have hnew : s.isLent ⟨service, e, tun, none⟩ = false := by
    simp only [isLent]
    split <;> simp
  have hsame : (s.spawnDataChannel service e tun count).isLent = s.isLent := rfl
  have hticker : (s.spawnDataChannel service e tun count).ticker = s.ticker := rfl
  have hany : (s.spawnDataChannel service e tun count).lanes.any s.isLent =
      s.lanes.any s.isLent := by
    simp [spawnDataChannel, hnew]
  simp only [lender, hticker, hsame, hany]

theorem held_spawn (s : LanePool) (service : Nat) (e : Endpoint) (tun : String) (count : Nat)
    (e' : Endpoint) : (s.spawnDataChannel service e tun count).held e' =
      s.held e' + if e = e' then count else 0 := by
  simp [held, spawnDataChannel, List.count_replicate]

/-! ### Who has lent a lane -/

theorem lender_length_le (s : LanePool) : s.lender.length ≤ 1 := by
  unfold lender
  split
  · split <;> simp
  · simp

/-- What has been lent is lent for the lane that the ticker dials next, and is a lane. -/
theorem mem_lender {e : Endpoint} (h : e ∈ s.lender) :
    (∃ taker slot, s.ticker = .dialing taker (some (e, slot))) ∧ 0 < s.held e := by
  unfold lender at h
  split at h
  case h_1 taker donor slot hticker =>
    split at h
    case isTrue hany =>
      obtain rfl := List.mem_singleton.mp h
      refine ⟨⟨taker, slot, hticker⟩, ?_⟩
      obtain ⟨lane, hlane, hlent⟩ := List.any_eq_true.mp hany
      simp only [isLent, hticker, Bool.and_eq_true, decide_eq_true_eq] at hlent
      exact List.count_pos_iff.mpr (hlent.1 ▸ List.mem_map_of_mem hlane)
    case isFalse => cases h
  case h_2 => cases h

theorem lender_eq_nil (h : ∀ taker lent, s.ticker ≠ .dialing taker (some lent)) :
    s.lender = [] := by
  refine List.eq_nil_iff_forall_not_mem.mpr fun e he => ?_
  obtain ⟨⟨taker, slot, hticker⟩, -⟩ := mem_lender he
  exact h taker _ hticker

/-- The lane that is lent is its lender's. -/
theorem lender_of_isLent {lane : Lane} (hmem : lane ∈ s.lanes) (h : s.isLent lane = true) :
    s.lender = [lane.endpoint] := by
  have hany : s.lanes.any s.isLent = true := List.any_eq_true.mpr ⟨lane, hmem, h⟩
  unfold lender
  unfold isLent at h
  split
  case h_1 taker e slot hticker =>
    simp only [hticker, Bool.and_eq_true, decide_eq_true_eq] at h
    rw [if_pos hany, h.1]
  case h_2 hno =>
    split at h
    case h_1 taker e slot hticker => exact absurd hticker (hno taker e slot)
    case h_2 => cases h

/-! ### Counting -/

theorem target_of_lookup {e : Endpoint} {entry : ClaimEntry} (h : s.claims.lookup e = some entry) :
    s.target e = entry.target := by rw [target, h, Option.map_some, Option.getD_some]

theorem target_of_notMem {e : Endpoint} (h : e ∉ s.claims) : s.target e = 0 := by
  rw [target, AList.lookup_eq_none.mpr h]
  rfl

theorem sum_target (s : LanePool) : (s.claims.keys.map s.target).sum = s.targets := by
  have hkeys : s.claims.keys = s.claims.entries.map Sigma.fst := rfl
  rw [hkeys, List.map_map, targets, Table.total]
  refine congrArg List.sum (List.map_congr_left fun c hc => ?_)
  exact target_of_lookup (AList.mem_lookup_iff.mpr hc)

/-- A claim's entry replaced by one with the same share: the targets change by the difference. -/
theorem totals_insert {e : Endpoint} {entry : ClaimEntry}
    (hentry : s.claims.lookup e = some entry) (entry' : ClaimEntry)
    (hshare : entry'.share = entry.share) :
    Table.total ClaimEntry.share (s.claims.insert e entry') = s.budget ∧
      Table.total ClaimEntry.target (s.claims.insert e entry') + entry.target =
        s.targets + entry'.target := by
  have hbudget := s.claims.total_erase ClaimEntry.share e
  have htargets := s.claims.total_erase ClaimEntry.target e
  rw [hentry, Option.map_some, Option.getD_some] at hbudget htargets
  rw [Table.total_insert, Table.total_insert, hshare]
  refine ⟨hbudget, ?_⟩
  rw [targets, ← htargets]
  omega

/-- The claim's live lanes are some of its lanes. -/
theorem members_length_le (s : LanePool) (e : Endpoint) (tun : String) :
    (s.members e tun).length ≤ s.held e := by
  refine (List.length_filterMap_le ..).trans ?_
  rw [← List.countP_eq_length_filter, held, List.count, List.countP_map]
  refine List.countP_mono_left fun lane _ hlane => ?_
  exact beq_iff_eq.mpr (of_decide_eq_true hlane).1

end LanePool

/-! ## 4. What lending is due for -/

namespace LanePool

variable {s s' : LanePool}

/-- The snapshot counts live lanes, each under its own claim. -/
theorem snapshot_used_le (s : LanePool) : s.snapshot.2 ≤ s.lanes.length := by
  let keys := s.claims.keysWhere fun entry => decide (entry.tun ∈ s.up)
  have hkeys : keys.Nodup := s.claims.nodup_keysWhere _
  calc s.snapshot.2 = ((s.claims.entries.filter fun c => decide (c.2.tun ∈ s.up)).map
        fun c => (s.members c.1 c.2.tun).length).sum := by
        simp [snapshot, claimLoad, Function.comp_def]
    _ ≤ ((s.claims.entries.filter fun c => decide (c.2.tun ∈ s.up)).map
        fun c => s.held c.1).sum :=
        List.sum_le_sum fun c _ => s.members_length_le c.1 c.2.tun
    _ = (keys.map s.held).sum := by simp [keys, Table.keysWhere, Function.comp_def]
    _ ≤ (s.lanes.map Lane.endpoint).length :=
        sum_countP_le_length id (fun _ _ h => beq_iff_eq.mp h) hkeys _
    _ = s.lanes.length := List.length_map ..

/-- **A swap is decided when nothing is free.**  If the plan is to lend, the budget's lanes are all
there; so the dial it ends in finds no room unless a lane has ended by then. -/
theorem lend_full {donor taker : Endpoint} {slot : Nat}
    (h : plan s.snapshot.1 s.budget s.snapshot.2 = some (.lend donor slot taker)) :
    s.budget ≤ s.lanes.length :=
  (plan_lend h).1.trans s.snapshot_used_le

/-- Without lending the ticker only waits, and every claim's target is its share. -/
structure Unlent (s : LanePool) : Prop where
  lend : s.lend = false
  ticker : s.ticker = .waiting
  target : ∀ e entry, s.claims.lookup e = some entry → entry.target = entry.share

theorem Unlent.of_keeps (hs : s.Unlent) (h : Keeps s s') : s'.Unlent where
  lend := h.lend.trans hs.lend
  ticker := h.ticker.trans hs.ticker
  target := by
    rw [h.claims]
    exact hs.target

theorem Unlent.drains (hs : s.Unlent) (stale asks : List (Nat × Nat)) :
    (s.drains stale asks).Unlent := by
  have hkept := hs.of_keeps (keeps_drains s stale asks)
  refine ⟨hkept.lend, ?_, hkept.target⟩
  simp [LanePool.drains, hkept.lend]

theorem Unlent.activate (hs : s.Unlent) (service : Nat) (e : Endpoint) (tun : String)
    (channels : Nat) : (s.activate service e tun channels).Unlent where
  lend := hs.lend
  ticker := hs.ticker
  target := by
    intro e' entry hentry
    have hlook : (s.claims.insert e ⟨tun, service, max channels 1, max channels 1, by omega⟩).lookup
        e' = some entry := hentry
    rw [Table.lookup_insert_eq] at hlook
    split at hlook
    · cases hlook
      rfl
    · exact hs.target e' entry hlook

theorem Unlent.deregister (hs : s.Unlent) (service : Nat) : (s.deregister service).Unlent := by
  unfold LanePool.deregister
  split
  case h_1 e _ _ =>
    refine ⟨hs.lend, hs.ticker, fun e' entry hentry => ?_⟩
    have hlook : (s.claims.erase e).lookup e' = some entry := hentry
    exact hs.target e' entry (Table.lookup_of_erase hlook).2
  case h_2 => exact hs

theorem Unlent.request (hs : s.Unlent) (service : Nat) : (s.request service).Unlent := by
  unfold LanePool.request
  split
  · split
    · exact ⟨hs.lend, hs.ticker, hs.target⟩
    · exact hs
  · exact hs

theorem Unlent.step (hs : s.Unlent) {e : PoolEvent} (h : s.step e = some s') : s'.Unlent := by
  cases e with
  | activate service e tun channels =>
    cases h
    exact hs.activate service e tun channels
  | deregister service =>
    cases h
    exact hs.deregister service
  | request service =>
    cases h
    exact hs.request service
  | ended i =>
    simp only [LanePool.step] at h
    split at h
    · cases h
      exact ⟨hs.lend, hs.ticker, hs.target⟩
    · cases h
  | drains stale asks =>
    simp only [LanePool.step, hs.ticker, if_true] at h
    cases h
    exact hs.drains stale asks
  | joined i id flows => exact hs.of_keeps (joined_spec h).1
  | load i flows => exact hs.of_keeps (load_spec h).1
  | dropped service =>
    cases h
    exact ⟨hs.lend, hs.ticker, hs.target⟩
  | device tun up =>
    cases h
    exact ⟨hs.lend, hs.ticker, hs.target⟩
  | answer key state =>
    cases h
    exact ⟨hs.lend, hs.ticker, hs.target⟩
  -- the ticker waits, so it has nothing to look at, to decide, to lend or to dial
  | look => simp [LanePool.step, hs.ticker] at h
  | plan => simp [LanePool.step, planned, hs.ticker] at h
  | retire vacant => simp [LanePool.step, LanePool.retire, hs.ticker] at h
  | dial => simp [LanePool.step, hs.ticker] at h

/-- **Only lending moves a target.**  In a session that does not lend, the targets add up to the
budget in every state. -/
theorem targets_eq_budget (h : (laneAllocator false).Reach s) : s.targets = s.budget := by
  have hs : s.Unlent := by
    refine h.invariant (P := Unlent) ?_ fun s e s' hs hstep => hs.step hstep
    rintro s rfl
    exact ⟨rfl, rfl, fun e entry he => by simp [new] at he⟩
  rw [targets, budget, Table.total, Table.total]
  refine congrArg List.sum (List.map_congr_left fun c hc => ?_)
  exact hs.target c.1 c.2 (AList.mem_lookup_iff.mpr hc)

end LanePool

/-! ## 5. Over the budget -/

/-- Two public endpoints. -/
def web : Endpoint := ⟨.v4 0xcb007101, 443⟩

def dns : Endpoint := ⟨.v4 0xcb007102, 53⟩

/-- Two claims with two lanes each join; one carries three flows, and a lane of the other ends. -/
def shortOfALane : List PoolEvent :=
  [.device "mh0" true, .activate 1 web "mh0" 2, .activate 2 dns "mh0" 2,
    .joined 0 (some 1) 0, .joined 1 (some 2) 0, .joined 2 (some 1) 0, .joined 3 (some 2) 0,
    .load 0 2, .load 1 1, .ended 3]

/-- **More lanes than the budget.**  The tick gives the free lane to the claim that is short and
raises its target, and no other target is lowered; then the replacement is dialed too. -/
theorem budget_exceeded :
    ∃ s, (laneAllocator true).Reach s ∧ s.budget = 4 ∧ s.targets = 5 ∧ s.lanes.length = 5 := by
  have hrun : (Lts.runWith LanePool.step (fun _ _ => true) (.new true)
      (shortOfALane ++ [.drains [] [], .look, .plan, .dial, .request 2])).any
      (fun s => decide (s.budget = 4 ∧ s.targets = 5 ∧ s.lanes.length = 5)) = true := by
    decide +kernel
  obtain ⟨s, hs, hend⟩ := Lts.Reach.exists_run (T := laneAllocator true)
    (fun _ _ _ h => h) rfl hrun
  exact ⟨s, hs, of_decide_eq_true hend⟩

end Molehill.Client
