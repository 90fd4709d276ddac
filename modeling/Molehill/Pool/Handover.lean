/-
# The tunnel pool: moving a tunnel to another carrier

A handover takes one tunnel of a carrier out of placement (`begin_handover_on`), waits for its
streams, pending opens and pins to end, takes it out of the pool (`handover_step`), and is over
when the repair has dialed a tunnel in its place (`grow_locked`).  Meanwhile streams are opened and
closed, tunnels die, are reaped and repaired, and UDP peers are pinned and let go, in tasks of
their own.

The pool's state is behind a lock, which a dial does not hold while it is awaited.  The counters
of a tunnel and the pins are not behind it: `handover_step` reads the streams, then the pending
opens, then the pins, and an open that is answered raises the streams, then lowers the pending
opens.  Each of these is a step of its own here, and only what takes the lock is kept apart from
`handover_step`.

This module has the pool, its runs, what is promised of them (`Safe`, `StepSafe`), and what holds
in every run: the pool and the record of its handover agree (`Sound`), so there are no more tunnels
than configured, and the only one that drains is the record's.
-/
import Mathlib.Data.List.MinMax
import Mathlib.Data.Prod.Lex
import Molehill.Lib.Transition
import Molehill.Pool.Placement

namespace Molehill.Pool

open Function Lib

/-! ## 1. The pool -/

/-- `HandoverPhase`. -/
inductive HandoverPhase
  | draining
  | dialing
  deriving DecidableEq

/-- `PoolHandover`; `source` is the carrier the move began on, which no step reads. -/
structure PoolHandover where
  tunnelId : Nat
  target : Carrier
  phase : HandoverPhase
  source : Carrier
  deriving DecidableEq

/-- What `handover_step` has read of the draining tunnel; it holds the lock until it is done. -/
inductive Look
  | done
  | streams (t : Nat)
  | pending (t streams : Nat)
  | pins (t streams pending : Nat)
  | all (t streams pending pins : Nat)
  deriving DecidableEq

/-- The tunnel `handover_step` looks at. -/
def Look.tunnel : Look → Option Nat
  | .done => none
  | .streams t | .pending t _ | .pins t _ _ | .all t _ _ _ => some t

/-- An open in `open_stream`; `counted`: answered, and its stream counted, while its reservation
still is. -/
structure Flight where
  tunnel : Nat
  counted : Bool
  deriving DecidableEq

/-- A pool with its handover, the dial in flight (`resizing`, with the carrier it dials), the opens
in flight, the leases, and the tunnel the handover took out. -/
structure CarrierPool where
  state : PoolState
  count : Nat
  handover : Option PoolHandover
  alive : Nat → Bool
  nextId : Nat
  pinned : Nat → Nat
  resizing : Option Carrier
  flights : List Flight
  leases : List Nat
  look : Look
  removed : Option PoolEntry

namespace CarrierPool

/-- The pool as `establish_tunnels` starts it, with the tunnels that came up. -/
def new (carrier : Carrier) (tunnels established : Nat) : CarrierPool where
  state := ⟨(List.range established).map fun t => ⟨carrier, .serving, t⟩, 0, none, fun _ => ⟨0, 0⟩⟩
  count := max tunnels 1
  handover := none
  alive := fun t => t < established
  nextId := established
  pinned := fun _ => 0
  resizing := none
  flights := []
  leases := []
  look := .done
  removed := none

variable (s : CarrierPool)

def entries : List PoolEntry := s.state.entries

def setEntries (entries : List PoolEntry) : CarrierPool :=
  { s with state := { s.state with entries := entries } }

/-- The phase of one tunnel. -/
def setTunnelPhase (t : Nat) (phase : TunnelPhase) : CarrierPool :=
  s.setEntries (s.entries.map fun e => if e.tunnel = t then { e with phase := phase } else e)

/-- The pool without the tunnel. -/
def without (t : Nat) : CarrierPool := s.setEntries (s.entries.filter fun e => e.tunnel ≠ t)

/-- The serving tunnel of the carrier that is to drain: the preferred one, or the least loaded. -/
def drainable (source : Carrier) (preferred : Option Nat) : Option PoolEntry :=
  (s.entries.filter fun e => e.phase = .serving ∧ e.carrier = source ∧ s.pinned e.tunnel = 0).argmin
    fun e => toLex (if some e.tunnel = preferred then 0 else 1, (s.state.load e).total)

/-- `begin_handover_on`. -/
def beginHandoverOn (source target : Carrier) (preferred : Option Nat) : CarrierPool :=
  if source = target ∨ s.handover.isSome ∨ s.entries.countP (fun e => e.phase = .serving) ≤ 1 then s
  else
    match s.drainable source preferred with
    | none => s
    | some e =>
      { s.setTunnelPhase e.tunnel .draining with
        handover := some ⟨e.tunnel, target, .draining, source⟩
        removed := none }

/-- `handover_step`, up to the counters; `late`: the phase has outlived its budget. -/
def handoverStep (late : Bool) : CarrierPool :=
  match s.handover with
  | none => s
  | some h =>
    match late, h.phase with
    | true, .draining => { s.setTunnelPhase h.tunnelId .serving with handover := none }
    | true, .dialing => { s with handover := none }
    | false, .dialing => s
    | false, .draining =>
      if s.entries.any fun e => e.tunnel = h.tunnelId then
        if s.alive h.tunnelId then { s with look := .streams h.tunnelId }
        else { s.without h.tunnelId with handover := none }
      else { s with handover := none }

/-- `handover_step`, its reads: the streams, the pending opens, the pins. -/
def read : Option CarrierPool :=
  match s.look with
  | .streams t => some { s with look := .pending t (s.state.counters t).streams }
  | .pending t streams => some { s with look := .pins t streams (s.state.counters t).pending }
  | .pins t streams pending => some { s with look := .all t streams pending (s.pinned t) }
  | _ => none

/-- `handover_step`, the rest: a tunnel read empty is taken out, and its replacement is due. -/
def finish : Option CarrierPool :=
  match s.look with
  | .all t streams pending pins =>
    if streams = 0 ∧ pending = 0 ∧ pins = 0 then
      some
        { s.without t with
          handover := s.handover.map fun h => { h with phase := .dialing }
          removed := s.entries.find? fun e => e.tunnel = t
          look := .done }
    else some { s with look := .done }
  | _ => none

/-- The carrier `grow_locked` dials: a due replacement's target, else the preference of now. -/
def wanted (preferred : Carrier) : Carrier :=
  match s.handover with
  | some h => if h.phase = .dialing then h.target else preferred
  | none => preferred

/-- `grow_locked` up to its dial, under the resize flag. -/
def grow (preferred : Carrier) : Option CarrierPool :=
  if s.resizing = none ∧ s.entries.length < s.count then
    some { s with resizing := some (s.wanted preferred) }
  else none

/-- The pool with the dialed tunnel. -/
def pushed (carrier : Carrier) : CarrierPool :=
  { s.setEntries (s.entries ++ [⟨carrier, .serving, s.nextId⟩]) with
    alive := update s.alive s.nextId true
    nextId := s.nextId + 1
    resizing := none }

/-- Whether the record is taken to be complete: a replacement is due, and a tunnel rides the
target. -/
def completes : Bool :=
  s.handover.any fun h => h.phase = .dialing ∧ s.entries.any fun e => e.carrier = h.target

/-- `grow_locked` once its dial is through. -/
def dialed (ok : Bool) : Option CarrierPool :=
  match s.resizing with
  | none => none
  | some carrier =>
    if ok ∧ s.entries.length < s.count then
      let s := s.pushed carrier
      some (if s.completes then { s with handover := none } else s)
    else some { s with resizing := none }

/-- A placement: `reserve`, and the open goes on with what it got. -/
def place (tried avoid : List Nat) : CarrierPool :=
  match s.state.reserve tried avoid (tunnelCeiling streamCap) with
  | (state, some r) => { s with state := state, flights := s.flights ++ [⟨r.tunnel, false⟩] }
  | (state, none) => { s with state := state }

end CarrierPool

/-! ## 2. Its runs -/

inductive MoveEvent
  /-- A carrier rule, a probe or the diagnostic hatch asks for a move. -/
  | beginHandover (source target : Carrier) (preferred : Option Nat)
  | handover (late : Bool)
  | read
  | finish
  /-- A repair begins; `preferred`: what the endpoint's choice says. -/
  | grow (preferred : Carrier)
  | dialed (ok : Bool)
  | reap
  | place (tried avoid : List Nat)
  /-- An open is answered: `charge` counts its stream, and then lets its reservation go. -/
  | opened (i : Nat)
  | settled (i : Nat)
  /-- An open is refused; `closed`: its tunnel is found dead. -/
  | refused (i : Nat) (closed : Bool)
  | dropLease (t : Nat)
  /-- The tunnel's pin count changes. -/
  | pin (t n : Nat)
  | die (t : Nat)
  | probe (carrier : Option Carrier)
  deriving DecidableEq

/-- Whether the event takes the pool's lock. -/
def MoveEvent.locks : MoveEvent → Bool
  | .beginHandover .. | .handover _ | .grow _ | .dialed true | .reap | .place .. => true
  | _ => false

namespace CarrierPool

variable (s : CarrierPool)

/-- The first half of `charge`. -/
def opened (i : Nat) : Option CarrierPool :=
  match s.flights[i]? with
  | some ⟨t, false⟩ =>
    some
      { s with
        state := s.state.touch t fun c => { c with streams := c.streams + 1 }
        flights := s.flights.set i ⟨t, true⟩ }
  | _ => none

/-- The second half of `charge`, and the lease. -/
def settled (i : Nat) : Option CarrierPool :=
  match s.flights[i]? with
  | some ⟨t, true⟩ =>
    some
      { s with
        state := s.state.touch t TunnelCounters.release
        flights := s.flights.eraseIdx i
        leases := t :: s.leases }
  | _ => none

/-- The open's error: the reservation comes back, and a closed tunnel is marked dead. -/
def refused (i : Nat) (closed : Bool) : Option CarrierPool :=
  match s.flights[i]? with
  | some ⟨t, false⟩ =>
    some
      { s with
        state := s.state.touch t TunnelCounters.release
        flights := s.flights.eraseIdx i
        alive := if closed then update s.alive t false else s.alive }
  | _ => none

/-- The drop of a `StreamLease`. -/
def dropLease (t : Nat) : Option CarrierPool :=
  if t ∈ s.leases then
    some { s with state := s.state.touch t TunnelCounters.retire, leases := s.leases.erase t }
  else none

/-- What an event does. -/
def act : MoveEvent → Option CarrierPool
  | .beginHandover source target preferred => some (s.beginHandoverOn source target preferred)
  | .handover late => some (s.handoverStep late)
  | .read => s.read
  | .finish => s.finish
  | .grow preferred => s.grow preferred
  | .dialed ok => s.dialed ok
  | .reap => some (s.setEntries (s.entries.filter fun e => s.alive e.tunnel))
  | .place tried avoid => some (s.place tried avoid)
  | .opened i => s.opened i
  | .settled i => s.settled i
  | .refused i closed => s.refused i closed
  | .dropLease t => s.dropLease t
  | .pin t n => some { s with pinned := update s.pinned t n }
  | .die t => some { s with alive := update s.alive t false }
  | .probe carrier => some { s with state.probe := carrier }

/-- A step: what takes the lock waits for `handover_step`. -/
def step (e : MoveEvent) : Option CarrierPool :=
  if e.locks ∧ s.look ≠ .done then none else s.act e

end CarrierPool

/-- The runs of a pool, from the tunnels that came up at its start. -/
def carrierPool : Lts CarrierPool MoveEvent where
  init s := ∃ carrier tunnels established, established ≤ tunnels ∧
    s = .new carrier tunnels established
  step s e s' := s.step e = some s'

/-! ## 3. What is promised -/

namespace CarrierPool

/-- **What holds of a state**: no more tunnels than configured; a draining tunnel is the one the
record names, so that there is at most one. -/
structure Safe (s : CarrierPool) : Prop where
  size : s.entries.length ≤ s.count
  draining : ∀ e ∈ s.entries, e.phase = .draining → s.handover.map PoolHandover.tunnelId =
    some e.tunnel
  single : s.entries.countP (fun e => e.phase = .draining) ≤ 1

/-- **What holds of a step**: an open is placed on a serving tunnel; a live tunnel that leaves the
pool has no streams, pending opens or pins; and a handover that a dial completes has replaced its
tunnel, of the source carrier, by a new one on the target. -/
structure StepSafe (s : CarrierPool) (e : MoveEvent) (s' : CarrierPool) : Prop where
  placed : s.flights.length < s'.flights.length →
    ∃ entry ∈ s.entries, entry.phase = .serving ∧ s'.flights = s.flights ++ [⟨entry.tunnel, false⟩]
  kept : ∀ entry ∈ s.entries, (∀ entry' ∈ s'.entries, entry'.tunnel ≠ entry.tunnel) →
    s.alive entry.tunnel = true →
      s.state.counters entry.tunnel = ⟨0, 0⟩ ∧ s.pinned entry.tunnel = 0
  completed : ∀ ok h, e = .dialed ok → s.handover = some h → s'.handover = none →
    s.removed = some ⟨h.source, .draining, h.tunnelId⟩ ∧ h.source ≠ h.target ∧
      (∀ entry ∈ s.entries, entry.tunnel ≠ h.tunnelId) ∧
      s'.entries = s.entries ++ [⟨h.target, .serving, s.nextId⟩]

/-- Whether the step keeps out of the handover's way: no open of the draining tunnel is settled
after its streams were read as zero and before its pending opens are, no pin is put on it after it
was read empty, and no tunnel of another carrier comes back from its dial while a replacement is
due and a tunnel rides the target already. -/
def orderly (s : CarrierPool) : MoveEvent → Bool
  | .settled i => s.flights[i]?.all fun f => s.look ≠ .pending f.tunnel 0
  | .pin t n => s.look ≠ .all t 0 0 0 ∨ n = 0
  | .dialed ok =>
    s.resizing.all fun carrier => s.handover.all fun h =>
      ok = false ∨ s.count ≤ s.entries.length ∨ s.completes = false ∨ carrier = h.target
  | _ => true

/-! ## 4. The pool and its record -/

/-- What the record says of the pool. -/
structure Recorded (s : CarrierPool) (h : PoolHandover) : Prop where
  carriers : h.source ≠ h.target
  known : h.tunnelId < s.nextId
  draining : h.phase = .draining →
    ∀ e ∈ s.entries, e.tunnel = h.tunnelId → e.carrier = h.source ∧ e.phase = .draining
  dialing : h.phase = .dialing →
    s.removed = some ⟨h.source, .draining, h.tunnelId⟩ ∧ ∀ e ∈ s.entries, e.tunnel ≠ h.tunnelId

/-- **The pool and its record agree**, in every run. -/
structure Sound (s : CarrierPool) : Prop where
  size : s.entries.length ≤ s.count
  fresh : ∀ e ∈ s.entries, e.tunnel < s.nextId
  distinct : (s.entries.map PoolEntry.tunnel).Nodup
  draining : ∀ e ∈ s.entries, e.phase = .draining →
    ∃ h, s.handover = some h ∧ h.phase = .draining ∧ h.tunnelId = e.tunnel
  record : ∀ h, s.handover = some h → Recorded s h
  looking : ∀ t, s.look.tunnel = some t →
    ∃ h, s.handover = some h ∧ h.phase = .draining ∧ h.tunnelId = t ∧ ∃ e ∈ s.entries, e.tunnel = t

variable {s s' : CarrierPool}

theorem not_looking (hlook : s.look = .done) {t : Nat} (ht : s.look.tunnel = some t) : False := by
  rw [hlook] at ht
  cases ht

/-- Only the entries, the count, the record, the ids and the look matter. -/
theorem Sound.congr (hs : Sound s) (hentries : s'.entries = s.entries) (hcount : s'.count = s.count)
    (hhandover : s'.handover = s.handover) (hid : s'.nextId = s.nextId)
    (hremoved : s'.removed = s.removed) (hlook : s'.look.tunnel = s.look.tunnel) : Sound s' where
  size := by rw [hentries, hcount]; exact hs.size
  fresh := by rw [hentries, hid]; exact hs.fresh
  distinct := by rw [hentries]; exact hs.distinct
  draining := by rw [hentries, hhandover]; exact hs.draining
  record := by
    intro h hh
    obtain ⟨hcarriers, hknown, hdraining, hdialing⟩ := hs.record h (hhandover ▸ hh)
    refine ⟨hcarriers, hid ▸ hknown, ?_, ?_⟩
    · rw [hentries]
      exact hdraining
    · rw [hentries, hremoved]
      exact hdialing
  looking := by rw [hentries, hhandover, hlook]; exact hs.looking

/-- `handover_step` looks at the tunnel of the record, or at none. -/
theorem Sound.withLook (hs : Sound s) {look : Look}
    (hlook : ∀ t, look.tunnel = some t → ∃ h, s.handover = some h ∧ h.phase = .draining ∧
      h.tunnelId = t ∧ ∃ e ∈ s.entries, e.tunnel = t) : Sound { s with look := look } where
  size := hs.size
  fresh := hs.fresh
  distinct := hs.distinct
  draining := hs.draining
  record := fun h hh =>
    have hrec := hs.record h hh
    ⟨hrec.carriers, hrec.known, hrec.draining, hrec.dialing⟩
  looking := hlook

/-- Tunnels leave the pool while nobody looks at one. -/
theorem Sound.sublist (hs : Sound s) (hlook : s.look = .done) {entries : List PoolEntry}
    (hsub : entries.Sublist s.entries) : Sound (s.setEntries entries) where
  size := hsub.length_le.trans hs.size
  fresh := fun e he => hs.fresh e (hsub.subset he)
  distinct := hs.distinct.sublist (hsub.map _)
  draining := fun e he => hs.draining e (hsub.subset he)
  record := by
    intro h hh
    obtain ⟨hcarriers, hknown, hdraining, hdialing⟩ := hs.record h hh
    refine ⟨hcarriers, hknown, fun hp e he => hdraining hp e (hsub.subset he), fun hp => ?_⟩
    exact ⟨(hdialing hp).1, fun e he => (hdialing hp).2 e (hsub.subset he)⟩
  looking := fun t ht => (not_looking hlook ht).elim

/-- The record goes while no tunnel drains. -/
theorem Sound.clear (hs : Sound s) (hlook : s.look = .done)
    (hserving : ∀ e ∈ s.entries, e.phase ≠ .draining) : Sound { s with handover := none } where
  size := hs.size
  fresh := hs.fresh
  distinct := hs.distinct
  draining := fun e he hp => absurd hp (hserving e he)
  record := fun h hh => by cases hh
  looking := fun t ht => (not_looking hlook ht).elim

/-- A draining tunnel is the one of the record, so without it nothing drains. -/
theorem Sound.serving_of_ne (hs : Sound s) {h : PoolHandover} (hh : s.handover = some h)
    {e : PoolEntry} (he : e ∈ s.entries) (hne : e.tunnel ≠ h.tunnelId) : e.phase ≠ .draining := by
  intro hp
  obtain ⟨h', hh', -, hid⟩ := hs.draining e he hp
  rw [hh] at hh'
  cases hh'
  exact hne hid.symm

/-- While a replacement is due nothing drains. -/
theorem Sound.serving_of_dialing (hs : Sound s) {h : PoolHandover} (hh : s.handover = some h)
    (hp : h.phase = .dialing) : ∀ e ∈ s.entries, e.phase ≠ .draining := by
  intro e he
  exact hs.serving_of_ne hh he (((hs.record h hh).dialing hp).2 e he)

@[simp] theorem entries_setEntries (s : CarrierPool) (entries : List PoolEntry) :
    (s.setEntries entries).entries = entries := rfl

theorem tunnels_setTunnelPhase (s : CarrierPool) (t : Nat) (phase : TunnelPhase) :
    (s.setTunnelPhase t phase).entries.map PoolEntry.tunnel = s.entries.map PoolEntry.tunnel := by
  simp only [setTunnelPhase, entries_setEntries, List.map_map]
  refine List.map_congr_left fun e _ => ?_
  simp only [Function.comp_apply]
  split <;> rfl

/-- An entry after a phase change is one of before, with the phase if it is the tunnel's. -/
theorem mem_setTunnelPhase {t : Nat} {phase : TunnelPhase} {e : PoolEntry}
    (he : e ∈ (s.setTunnelPhase t phase).entries) :
    ∃ e₀ ∈ s.entries, e.tunnel = e₀.tunnel ∧ e.carrier = e₀.carrier ∧
      e.phase = if e₀.tunnel = t then phase else e₀.phase := by
  obtain ⟨e₀, he₀, rfl⟩ := List.mem_map.mp he
  refine ⟨e₀, he₀, ?_⟩
  split
  · exact ⟨rfl, rfl, rfl⟩
  · exact ⟨rfl, rfl, rfl⟩

theorem drainable_spec {source : Carrier} {preferred : Option Nat} {e : PoolEntry}
    (h : s.drainable source preferred = some e) :
    e ∈ s.entries ∧ e.phase = .serving ∧ e.carrier = source ∧ s.pinned e.tunnel = 0 := by
  obtain ⟨hmem, hp⟩ := List.mem_filter.mp (List.argmin_mem h)
  exact ⟨hmem, of_decide_eq_true hp⟩

/-- A phase change keeps which tunnels there are. -/
theorem Sound.tunnels (hs : Sound s) (t : Nat) (phase : TunnelPhase) :
    (s.setTunnelPhase t phase).entries.length ≤ s.count ∧
      (∀ e ∈ (s.setTunnelPhase t phase).entries, e.tunnel < s.nextId) ∧
      ((s.setTunnelPhase t phase).entries.map PoolEntry.tunnel).Nodup := by
  have htunnels := tunnels_setTunnelPhase s t phase
  refine ⟨?_, fun e he => ?_, htunnels ▸ hs.distinct⟩
  · have hlen := congrArg List.length htunnels
    simp only [List.length_map] at hlen
    exact hlen.trans_le hs.size
  · obtain ⟨e₀, he₀, ht, -⟩ := mem_setTunnelPhase he
    exact ht ▸ hs.fresh e₀ he₀

/-- A handover begins: its tunnel drains, and nothing else does. -/
theorem Sound.drain (hs : Sound s) (hlook : s.look = .done) (hnone : s.handover = none)
    {e : PoolEntry} (he : e ∈ s.entries) {target : Carrier} (hne : e.carrier ≠ target) :
    Sound
      { s.setTunnelPhase e.tunnel .draining with
        handover := some ⟨e.tunnel, target, .draining, e.carrier⟩
        removed := none } := by
  obtain ⟨hsize, hfresh, hdistinct⟩ := hs.tunnels e.tunnel .draining
  refine ⟨hsize, hfresh, hdistinct, ?_, ?_, fun t ht => (not_looking hlook ht).elim⟩
  · intro e' he' hp
    obtain ⟨e₀, he₀, ht, -, hphase⟩ := mem_setTunnelPhase he'
    refine ⟨_, rfl, rfl, ?_⟩
    by_contra hother
    rw [if_neg fun h0 => hother (h0.symm.trans ht.symm)] at hphase
    obtain ⟨h, hh, -⟩ := hs.draining e₀ he₀ (hphase.symm.trans hp)
    rw [hnone] at hh
    cases hh
  · intro h hh
    cases hh
    refine ⟨hne, hs.fresh e he, fun _ e' he' ht' => ?_, fun hp => by cases hp⟩
    obtain ⟨e₀, he₀, ht, hc, hphase⟩ := mem_setTunnelPhase he'
    have hsame : e₀.tunnel = e.tunnel := ht.symm.trans ht'
    have heq : e₀ = e := List.inj_on_of_nodup_map hs.distinct he₀ he hsame
    rw [if_pos hsame] at hphase
    exact ⟨hc.trans (congrArg PoolEntry.carrier heq), hphase⟩

theorem Sound.beginHandoverOn (hs : Sound s) (hlook : s.look = .done) (source target : Carrier)
    (preferred : Option Nat) : Sound (s.beginHandoverOn source target preferred) := by
  unfold CarrierPool.beginHandoverOn
  split
  case isTrue => exact hs
  case isFalse hmay =>
    obtain ⟨hne, hmay⟩ := not_or.mp hmay
    have hnone : s.handover = none := by simpa using (not_or.mp hmay).1
    split
    case h_1 => exact hs
    case h_2 e hdrain =>
      obtain ⟨he, -, rfl, -⟩ := drainable_spec hdrain
      exact hs.drain hlook hnone he hne

/-- A drain is called off: the tunnel serves again. -/
theorem Sound.resume (hs : Sound s) (hlook : s.look = .done) {h : PoolHandover}
    (hh : s.handover = some h) :
    Sound { s.setTunnelPhase h.tunnelId .serving with handover := none } := by
  obtain ⟨hsize, hfresh, hdistinct⟩ := hs.tunnels h.tunnelId .serving
  refine ⟨hsize, hfresh, hdistinct, ?_, fun h hh => (by cases hh),
    fun t ht => (not_looking hlook ht).elim⟩
  intro e he hp
  obtain ⟨e₀, he₀, -, -, hphase⟩ := mem_setTunnelPhase he
  rw [hp] at hphase
  split at hphase
  · cases hphase
  case isFalse hne => exact absurd hphase.symm (hs.serving_of_ne hh he₀ hne)

/-- The tunnel of the record is gone, and nothing drains. -/
theorem Sound.without_record (hs : Sound s) (hlook : s.look = .done) {h : PoolHandover}
    (hh : s.handover = some h) : Sound { s.without h.tunnelId with handover := none } := by
  have hsub : (s.entries.filter fun e => decide (e.tunnel ≠ h.tunnelId)).Sublist s.entries :=
    List.filter_sublist
  refine (hs.sublist hlook hsub).clear hlook fun e he => ?_
  obtain ⟨hmem, hne⟩ := List.mem_filter.mp he
  exact hs.serving_of_ne hh hmem (of_decide_eq_true hne)

theorem Sound.handoverStep (hs : Sound s) (hlook : s.look = .done) (late : Bool) :
    Sound (s.handoverStep late) := by
  unfold CarrierPool.handoverStep
  split
  case h_1 => exact hs
  case h_2 h hh =>
    split
    case h_1 hp => exact hs.resume hlook hh
    case h_2 hp => exact hs.clear hlook (hs.serving_of_dialing hh hp)
    case h_3 => exact hs
    case h_4 hp =>
      split
      case isTrue hin =>
        obtain ⟨e, he, ht⟩ := List.any_eq_true.mp hin
        split
        · refine hs.withLook fun t hlooked => ?_
          cases hlooked
          exact ⟨h, hh, hp, rfl, e, he, of_decide_eq_true ht⟩
        · exact hs.without_record hlook hh
      case isFalse hnot =>
        refine hs.clear hlook fun e he => hs.serving_of_ne hh he fun ht => hnot ?_
        exact List.any_eq_true.mpr ⟨e, he, decide_eq_true ht⟩

theorem Sound.read (hs : Sound s) (h : s.read = some s') : Sound s' := by
  unfold CarrierPool.read at h
  split at h
  case h_1 hlook | h_2 hlook | h_3 hlook =>
    cases h
    exact hs.congr rfl rfl rfl rfl rfl (congrArg Look.tunnel hlook).symm
  case h_4 => cases h

/-- The drained tunnel is taken out, and its replacement is due. -/
theorem Sound.takeOut (hs : Sound s) {t : Nat} (hlook : s.look.tunnel = some t) :
    Sound
      { s.without t with
        handover := s.handover.map fun h => { h with phase := .dialing }
        removed := s.entries.find? fun e => e.tunnel = t
        look := .done } := by
  obtain ⟨h, hh, hp, rfl, e, he, hte⟩ := hs.looking t hlook
  have hsub : (s.entries.filter fun e => decide (e.tunnel ≠ h.tunnelId)).Sublist s.entries :=
    List.filter_sublist
  obtain ⟨e₀, hfind⟩ : ∃ e₀, s.entries.find? (fun e => e.tunnel = h.tunnelId) = some e₀ := by
    refine Option.isSome_iff_exists.mp (List.find?_isSome.mpr ⟨e, he, decide_eq_true hte⟩)
  have hrec := hs.record h hh
  have hremoved : e₀ = ⟨h.source, .draining, h.tunnelId⟩ := by
    have ht₀ : e₀.tunnel = h.tunnelId := by simpa using List.find?_some hfind
    obtain ⟨hc, hp₀⟩ := hrec.draining hp e₀ (List.mem_of_find?_eq_some hfind) ht₀
    rw [← hc, ← hp₀, ← ht₀]
  have hgone : ∀ e ∈ (s.without h.tunnelId).entries, e.tunnel ≠ h.tunnelId :=
    fun e he => of_decide_eq_true (List.mem_filter.mp he).2
  refine ⟨hsub.length_le.trans hs.size, fun e he => hs.fresh e (hsub.subset he),
    hs.distinct.sublist (hsub.map _), ?_, ?_, fun t ht => by cases ht⟩
  · intro e he hpe
    exact absurd hpe (hs.serving_of_ne hh (hsub.subset he) (hgone e he))
  · intro h' hh'
    have hh'' : s.handover.map (fun h => { h with phase := .dialing }) = some h' := hh'
    rw [hh] at hh''
    cases hh''
    refine ⟨hrec.carriers, hrec.known, fun hp => (by cases hp), fun _ => ⟨?_, hgone⟩⟩
    exact hfind.trans (congrArg some hremoved)

theorem Sound.finish (hs : Sound s) (h : s.finish = some s') : Sound s' := by
  unfold CarrierPool.finish at h
  split at h
  case h_1 t streams pending pins hlook =>
    split at h
    · cases h
      exact hs.takeOut (by rw [hlook]; rfl)
    · cases h
      exact hs.withLook fun t ht => by cases ht
  case h_2 => cases h

/-- A dialed tunnel joins: it serves, and its id is new. -/
theorem Sound.pushed (hs : Sound s) (hlook : s.look = .done) (hroom : s.entries.length < s.count)
    (carrier : Carrier) : Sound (s.pushed carrier) := by
  have hmem : ∀ e ∈ (s.pushed carrier).entries,
      e ∈ s.entries ∨ e = ⟨carrier, .serving, s.nextId⟩ := by
    intro e he
    have he' : e ∈ s.entries ++ [⟨carrier, .serving, s.nextId⟩] := he
    simpa using he'
  refine ⟨?_, ?_, ?_, ?_, ?_, fun t ht => (not_looking hlook ht).elim⟩
  · change (s.entries ++ [_]).length ≤ s.count
    rw [List.length_append, List.length_singleton]
    exact hroom
  · intro e he
    rcases hmem e he with hold | rfl
    · exact (hs.fresh e hold).trans (Nat.lt_succ_self _)
    · exact Nat.lt_succ_self _
  · change ((s.entries ++ [_]).map PoolEntry.tunnel).Nodup
    rw [List.map_append, List.map_singleton]
    refine hs.distinct.append (List.nodup_singleton _) ?_
    intro t ht ht'
    obtain ⟨e, he, rfl⟩ := List.mem_map.mp ht
    exact absurd (List.mem_singleton.mp ht') (Nat.ne_of_lt (hs.fresh e he))
  · intro e he hp
    rcases hmem e he with hold | rfl
    · exact hs.draining e hold hp
    · cases hp
  · intro h hh
    obtain ⟨hcarriers, hknown, hdraining, hdialing⟩ := hs.record h hh
    have hnew : ∀ e ∈ (s.pushed carrier).entries, e.tunnel = h.tunnelId → e ∈ s.entries := by
      intro e he ht
      rcases hmem e he with hold | rfl
      · exact hold
      · exact absurd ht.symm (Nat.ne_of_lt hknown)
    refine ⟨hcarriers, hknown.trans (Nat.lt_succ_self _),
      fun hp e he ht => hdraining hp e (hnew e he ht) ht, fun hp => ⟨(hdialing hp).1, ?_⟩⟩
    intro e he ht
    exact (hdialing hp).2 e (hnew e he ht) ht

/-- What a dial that came back does to the pool. -/
theorem dialed_cases {ok : Bool} (h : s.dialed ok = some s') :
    (∃ carrier, s.resizing = some carrier ∧ ok = true ∧ s.entries.length < s.count ∧
      ((s.pushed carrier).completes = true ∧ s' = { s.pushed carrier with handover := none } ∨
        (s.pushed carrier).completes = false ∧ s' = s.pushed carrier)) ∨
      s' = { s with resizing := none } := by
  unfold CarrierPool.dialed at h
  split at h
  case h_1 => cases h
  case h_2 carrier hresizing =>
    split at h
    case isTrue hroom =>
      cases h
      refine .inl ⟨carrier, hresizing, hroom.1, hroom.2, ?_⟩
      split
      case isTrue hc => exact .inl ⟨hc, rfl⟩
      case isFalse hc => exact .inr ⟨by simpa using hc, rfl⟩
    case isFalse =>
      cases h
      exact .inr rfl

/-- A record is only taken to be complete when a replacement is due. -/
theorem completes_spec (h : s.completes = true) :
    ∃ r, s.handover = some r ∧ r.phase = .dialing ∧ ∃ e ∈ s.entries, e.carrier = r.target := by
  obtain ⟨r, hr, hp⟩ := (Option.any_eq_true ..).mp h
  obtain ⟨hphase, hany⟩ := of_decide_eq_true hp
  obtain ⟨e, he, hc⟩ := List.any_eq_true.mp hany
  exact ⟨r, hr, hphase, e, he, of_decide_eq_true hc⟩

theorem Sound.dialed (hs : Sound s) {ok : Bool} (hlook : ok = true → s.look = .done)
    (h : s.dialed ok = some s') : Sound s' := by
  rcases dialed_cases h with ⟨carrier, -, rfl, hroom, hcase⟩ | rfl
  · have hpushed := hs.pushed (hlook rfl) hroom carrier
    rcases hcase with ⟨hcompletes, rfl⟩ | ⟨-, rfl⟩
    · obtain ⟨r, hr, hphase, -⟩ := completes_spec hcompletes
      exact hpushed.clear (hlook rfl) (hpushed.serving_of_dialing hr hphase)
    · exact hpushed
  · exact hs.congr rfl rfl rfl rfl rfl rfl

/-- A placement charges a serving tunnel of the pool, or none. -/
theorem place_cases (s : CarrierPool) (tried avoid : List Nat) :
    s.place tried avoid = { s with state := s.state.moveCursor } ∨
      ∃ e ∈ s.entries, e.phase = .serving ∧
        s.place tried avoid = { s with
          state := s.state.charged e
          flights := s.flights ++ [⟨e.tunnel, false⟩] } := by
  unfold CarrierPool.place PoolState.reserve
  rcases hchoose : s.state.choose tried avoid (tunnelCeiling streamCap) with _ | ⟨index, fallback⟩
  · exact .inl rfl
  · obtain ⟨e, he, hserving⟩ := mem_candidates (choose_mem hchoose)
    refine .inr ⟨e, List.mem_of_getElem? he, hserving, ?_⟩
    simp only [he]
    rfl

theorem Sound.place (hs : Sound s) (tried avoid : List Nat) : Sound (s.place tried avoid) := by
  rcases place_cases s tried avoid with hnone | ⟨e, -, -, hsome⟩
  · rw [hnone]
    exact hs.congr rfl rfl rfl rfl rfl rfl
  · rw [hsome]
    exact hs.congr rfl rfl rfl rfl rfl rfl

theorem step_spec {e : MoveEvent} (h : s.step e = some s') :
    (e.locks = true → s.look = .done) ∧ s.act e = some s' := by
  unfold CarrierPool.step at h
  split at h
  case isTrue => cases h
  case isFalse hfree => exact ⟨fun hlocks => by_contra fun hlook => hfree ⟨hlocks, hlook⟩, h⟩

theorem opened_spec {i : Nat} (h : s.opened i = some s') :
    ∃ t, s.flights[i]? = some ⟨t, false⟩ ∧
      s' = { s with
        state := s.state.touch t fun c => { c with streams := c.streams + 1 }
        flights := s.flights.set i ⟨t, true⟩ } := by
  unfold CarrierPool.opened at h
  split at h
  case h_1 t hf =>
    cases h
    exact ⟨t, hf, rfl⟩
  case h_2 => cases h

theorem settled_spec {i : Nat} (h : s.settled i = some s') :
    ∃ t, s.flights[i]? = some ⟨t, true⟩ ∧
      s' = { s with
        state := s.state.touch t TunnelCounters.release
        flights := s.flights.eraseIdx i
        leases := t :: s.leases } := by
  unfold CarrierPool.settled at h
  split at h
  case h_1 t hf =>
    cases h
    exact ⟨t, hf, rfl⟩
  case h_2 => cases h

theorem refused_spec {i : Nat} {closed : Bool} (h : s.refused i closed = some s') :
    ∃ t, s.flights[i]? = some ⟨t, false⟩ ∧
      s' = { s with
        state := s.state.touch t TunnelCounters.release
        flights := s.flights.eraseIdx i
        alive := if closed then update s.alive t false else s.alive } := by
  unfold CarrierPool.refused at h
  split at h
  case h_1 t hf =>
    cases h
    exact ⟨t, hf, rfl⟩
  case h_2 => cases h

theorem dropLease_spec {t : Nat} (h : s.dropLease t = some s') :
    t ∈ s.leases ∧
      s' = { s with state := s.state.touch t TunnelCounters.retire, leases := s.leases.erase t } := by
  unfold CarrierPool.dropLease at h
  split at h
  case isTrue ht =>
    cases h
    exact ⟨ht, rfl⟩
  case isFalse => cases h

theorem grow_spec {preferred : Carrier} (h : s.grow preferred = some s') :
    s' = { s with resizing := some (s.wanted preferred) } := by
  unfold CarrierPool.grow at h
  split at h
  · cases h
    rfl
  · cases h

/-- **One step keeps the pool and its record in agreement.** -/
theorem Sound.step (hs : Sound s) {e : MoveEvent} (h : s.step e = some s') : Sound s' := by
  obtain ⟨hlook, hact⟩ := step_spec h
  cases e with
  | beginHandover source target preferred =>
    cases hact
    exact hs.beginHandoverOn (hlook rfl) source target preferred
  | handover late =>
    cases hact
    exact hs.handoverStep (hlook rfl) late
  | read => exact hs.read hact
  | finish => exact hs.finish hact
  | grow preferred =>
    obtain rfl := grow_spec hact
    exact hs.congr rfl rfl rfl rfl rfl rfl
  | dialed ok => exact hs.dialed (fun hok => hlook (by rw [hok]; rfl)) hact
  | reap =>
    cases hact
    exact hs.sublist (hlook rfl) List.filter_sublist
  | place tried avoid =>
    cases hact
    exact hs.place tried avoid
  | opened i =>
    obtain ⟨t, -, rfl⟩ := opened_spec hact
    exact hs.congr rfl rfl rfl rfl rfl rfl
  | settled i =>
    obtain ⟨t, -, rfl⟩ := settled_spec hact
    exact hs.congr rfl rfl rfl rfl rfl rfl
  | refused i closed =>
    obtain ⟨t, -, rfl⟩ := refused_spec hact
    exact hs.congr rfl rfl rfl rfl rfl rfl
  | dropLease t =>
    obtain ⟨-, rfl⟩ := dropLease_spec hact
    exact hs.congr rfl rfl rfl rfl rfl rfl
  | pin t n =>
    cases hact
    exact hs.congr rfl rfl rfl rfl rfl rfl
  | die t =>
    cases hact
    exact hs.congr rfl rfl rfl rfl rfl rfl
  | probe carrier =>
    cases hact
    exact hs.congr rfl rfl rfl rfl rfl rfl

theorem sound_new {carrier : Carrier} {tunnels established : Nat} (h : established ≤ tunnels) :
    Sound (.new carrier tunnels established) := by
  have hmem : ∀ e ∈ (new carrier tunnels established).entries,
      e.tunnel < established ∧ e.phase = .serving := by
    intro e he
    obtain ⟨t, ht, rfl⟩ := List.mem_map.mp he
    exact ⟨List.mem_range.mp ht, rfl⟩
  refine ⟨?_, fun e he => (hmem e he).1, ?_, fun e he hp => ?_, fun h hh => ?_, fun t ht => ?_⟩
  · change ((List.range established).map _).length ≤ max tunnels 1
    rw [List.length_map, List.length_range]
    omega
  · change (((List.range established).map _).map PoolEntry.tunnel).Nodup
    simp only [List.map_map, Function.comp_def, List.map_id']
    exact List.nodup_range
  · rw [(hmem e he).2] at hp
    cases hp
  · cases hh
  · cases ht

/-- **The record and the pool agree in every run.** -/
theorem sound {s : CarrierPool} (h : carrierPool.Reach s) : Sound s := by
  refine h.invariant (P := Sound) ?_ fun s e s' hs hstep => hs.step hstep
  rintro s ⟨carrier, tunnels, established, hle, rfl⟩
  exact sound_new hle

/-- At most one tunnel drains, the record's. -/
theorem Sound.safe (hs : Sound s) : s.Safe where
  size := hs.size
  draining := by
    intro e he hp
    obtain ⟨h, hh, -, ht⟩ := hs.draining e he hp
    rw [hh, Option.map_some, ht]
  single := by
    rw [List.countP_eq_length_filter]
    set drained := s.entries.filter fun e => decide (e.phase = .draining) with hdrained
    have hnodup : (drained.map PoolEntry.tunnel).Nodup :=
      hs.distinct.sublist (List.filter_sublist.map PoolEntry.tunnel)
    rcases hhandover : s.handover with _ | h
    · have hnil : drained = [] := by
        refine List.filter_eq_nil_iff.mpr fun e he hp => ?_
        obtain ⟨h, hh, -⟩ := hs.draining e he (of_decide_eq_true hp)
        rw [hhandover] at hh
        cases hh
      simp [hnil]
    · -- every drained tunnel is the record's, and the tunnels are distinct
      have hall : drained.map PoolEntry.tunnel = List.replicate drained.length h.tunnelId := by
        refine List.eq_replicate_iff.mpr ⟨List.length_map .., fun t ht => ?_⟩
        obtain ⟨e, he, rfl⟩ := List.mem_map.mp ht
        obtain ⟨hmem, hp⟩ := List.mem_filter.mp he
        obtain ⟨h', hh', -, hid⟩ := hs.draining e hmem (of_decide_eq_true hp)
        rw [hhandover] at hh'
        cases hh'
        exact hid.symm
      rw [hall] at hnodup
      exact List.nodup_replicate.mp hnodup

end CarrierPool

end Molehill.Pool
