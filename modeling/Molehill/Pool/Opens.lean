/-
# The tunnel pool: opens and looks

Concurrent opens over one pool, each a run of `open_avoiding` and `complete`, together with
stream leases being dropped, tunnels dying, being reaped, repaired, drained and handed over.
The steps of different opens interleave in any order.  What an `open_stream` answers comes in with
the step.  The cold start of `open_avoiding` (dial, and wait for the dial) is the pool's repair
followed by the open's first look.

A look at the pool is one step here, and so is the charge of an open that is answered.  The lock of
the pool's state makes a look one step as far as the tunnels and their phases go, but not for the
counters, which are not behind it: `Pool/Accounting.lean` takes both steps apart, and the runs of
this module are those of its runs in which nothing comes between (its `CountedPool.reach_accesses`).
-/
import Molehill.Pool.Placement
import Molehill.Lib.Transition

namespace Molehill.Pool

open Function Lib

/-! ## 1. The opens -/

/-- What `open_stream` may fail with. -/
inductive ConnectionError
  | io
  | decode
  | noMoreStreamIds
  | closed
  | tooManyStreams
  | invalidWindowUpdate
  deriving DecidableEq

/-- Why an open failed. -/
inductive OpenError
  | noTunnel
  | refused (e : ConnectionError)
  | atCapacity
  deriving DecidableEq

/-- Where one open stands: before its first look, told that nothing is under the ceiling, before
its second and its third look, in `open_stream` with a reservation (`tried` is empty on the
first attempt), before the next attempt, or over. -/
inductive OpenPhase
  | first
  | sizing
  | second
  | third
  | opening (r : Reservation) (tried : List Nat)
  | retrying (tried : List Nat) (last : ConnectionError)
  | leased
  | failed (e : OpenError)
  deriving DecidableEq

/-- One open: the indices it avoids, and where it stands. -/
structure Open where
  avoid : List Nat
  phase : OpenPhase
  deriving DecidableEq

/-- Whether an open's reservation is in flight on tunnel `t`. -/
def Open.inFlightOn (t : Nat) (o : Open) : Bool :=
  match o.phase with
  | .opening r _ => r.tunnel = t
  | _ => false

/-- Whether an open is over. -/
def Open.finished (o : Open) : Bool :=
  match o.phase with
  | .leased => true
  | .failed _ => true
  | _ => false

/-! ## 2. The pool -/

/-- A pool with its users: the configured count, which tunnels' drivers still run, the next
tunnel id, the opens, the live stream leases by tunnel, and the reservations that second looks
dropped. -/
structure TunnelPool where
  state : PoolState
  count : Nat
  alive : Nat → Bool
  nextId : Nat
  opens : List Open
  leases : List Nat
  dropped : List Nat

namespace TunnelPool

/-- `TunnelPool::ceiling`. -/
def ceiling : Nat := tunnelCeiling streamCap

/-- The pool before its first tunnel. -/
def new (count : Nat) : TunnelPool :=
  ⟨⟨[], 0, none, fun _ => ⟨0, 0⟩⟩, count, fun _ => false, 0, [], [], []⟩

/-- The opens in flight on a tunnel. -/
def inFlight (p : TunnelPool) (t : Nat) : Nat := p.opens.countP (Open.inFlightOn t)

/-- `indices_of`. -/
def indicesOf (p : TunnelPool) (ids : List Nat) : List Nat :=
  (List.range p.state.entries.length).filter fun i =>
    p.state.entries[i]?.any fun e => ids.contains e.tunnel

/-- Open `i` moves on. -/
def setPhase (p : TunnelPool) (i : Nat) (o : Open) (phase : OpenPhase) : TunnelPool :=
  { p with opens := p.opens.set i { o with phase := phase } }

/-- A look at the pool: `reserve`, and what the open does with its answer. -/
def look (p : TunnelPool) (i : Nat) (o : Open) (tried : List Nat) (got : Reservation → OpenPhase)
    (refused : OpenPhase) : TunnelPool :=
  match p.state.reserve tried o.avoid ceiling with
  | (s, some r) => { p with state := s }.setPhase i o (got r)
  | (s, none) => { p with state := s }.setPhase i o refused

/-- The second look of a full-pool open: `if self.reserve(..).is_none() { wait }`. -/
def secondLook (p : TunnelPool) (i : Nat) (o : Open) : TunnelPool :=
  match p.state.reserve [] o.avoid ceiling with
  | (s, some r) => { p with state := s, dropped := r.tunnel :: p.dropped }.setPhase i o .third
  | (s, none) => { p with state := s }.setPhase i o .third

/-- A step of open `i` that needs no answer from its tunnel. -/
def proceed (p : TunnelPool) (i : Nat) (o : Open) : Option TunnelPool :=
  match o.phase with
  | .first => some (p.look i o [] (fun r => .opening r []) .sizing)
  | .sizing =>
    some (p.setPhase i o (if p.state.entries = [] then .failed .noTunnel else .second))
  | .second => some (p.secondLook i o)
  | .third => some (p.look i o [] (fun r => .opening r []) (.failed .atCapacity))
  | .retrying tried last =>
    some (p.look i o tried (fun r => .opening r (tried ++ [r.index])) (.failed (.refused last)))
  | _ => none

/-- `Ok(stream)`: the reservation becomes a live stream. -/
def opened (p : TunnelPool) (i : Nat) (o : Open) (r : Reservation) : TunnelPool :=
  { p with
    state := p.state.touch r.tunnel TunnelCounters.charge
    leases := r.tunnel :: p.leases }.setPhase i o .leased

/-- A tunnel that answered `Closed` is marked dead. -/
def noteClosed (p : TunnelPool) (t : Nat) (e : ConnectionError) : TunnelPool :=
  if e = .closed then { p with alive := update p.alive t false } else p

/-- Where an open goes on after an error: a full tunnel ends the first attempt, everything else
falls through to the next candidate. -/
def afterError (r : Reservation) (tried : List Nat) (e : ConnectionError) : OpenPhase :=
  if tried = [] then
    if e = .tooManyStreams then .failed (.refused e) else .retrying [r.index] e
  else .retrying tried e

/-- `Err(e)`: the reservation comes back. -/
def refused (p : TunnelPool) (i : Nat) (o : Open) (r : Reservation) (tried : List Nat)
    (e : ConnectionError) : TunnelPool :=
  ({ p with state := p.state.touch r.tunnel TunnelCounters.release }.noteClosed r.tunnel e).setPhase
    i o (afterError r tried e)

/-- The answer of `open_stream`. -/
def answer (p : TunnelPool) (i : Nat) (o : Open) (ans : Option ConnectionError) :
    Option TunnelPool :=
  match o.phase, ans with
  | .opening r _, none => some (p.opened i o r)
  | .opening r tried, some e => some (p.refused i o r tried e)
  | _, _ => none

def setEntries (p : TunnelPool) (entries : List PoolEntry) : TunnelPool :=
  { p with state := { p.state with entries := entries } }

/-- `grow_locked` once its dial is through. -/
def grow (p : TunnelPool) (carrier : Carrier) : TunnelPool :=
  { p.setEntries (p.state.entries ++ [⟨carrier, .serving, p.nextId⟩]) with
    state.counters := update p.state.counters p.nextId ⟨0, 0⟩
    alive := update p.alive p.nextId true
    nextId := p.nextId + 1 }

/-- A phase change of one entry. -/
def setTunnelPhase (p : TunnelPool) (t : Nat) (phase : TunnelPhase) : TunnelPool :=
  p.setEntries (p.state.entries.map fun e => if e.tunnel = t then { e with phase := phase } else e)

/-- The steps of the pool: a new open (of a stripe whose group has the tunnels `ids`), an open's
own step, the answer of its tunnel, the drop of a lease, a driver's end, the reaper, a repair, a
handover's drain, its end in one of two ways, and a probe's beginning or end. -/
inductive Label
  | spawn (ids : List Nat)
  | proceed (i : Nat)
  | answer (i : Nat) (ans : Option ConnectionError)
  | dropLease (t : Nat)
  | die (t : Nat)
  | reap
  | repair (carrier : Carrier)
  | drain (t : Nat)
  | resume (t : Nat)
  | retire (t : Nat)
  | probe (carrier : Option Carrier)
  deriving DecidableEq

def step (p : TunnelPool) : Label → Option TunnelPool
  | .spawn ids => some { p with opens := p.opens ++ [⟨p.indicesOf ids, .first⟩] }
  | .proceed i => p.opens[i]?.bind (p.proceed i)
  | .answer i ans => p.opens[i]?.bind (p.answer i · ans)
  | .dropLease t =>
    if t ∈ p.leases then
      some { p with
        state := p.state.touch t TunnelCounters.retire
        leases := p.leases.erase t }
    else none
  | .die t => some { p with alive := update p.alive t false }
  | .reap => some (p.setEntries (p.state.entries.filter fun e => p.alive e.tunnel))
  | .repair carrier =>
    if p.state.entries.length < p.count then some (p.grow carrier) else none
  | .drain t => some (p.setTunnelPhase t .draining)
  | .resume t => some (p.setTunnelPhase t .serving)
  | .retire t => some (p.setEntries (p.state.entries.filter fun e => e.tunnel ≠ t))
  | .probe carrier => some { p with state.probe := carrier }

end TunnelPool

/-- **The system**: one pool and everything that happens to it. -/
def tunnelPool : Lts TunnelPool TunnelPool.Label where
  init p := ∃ count, p = TunnelPool.new count
  step p a p' := p.step a = some p'

/-- Marking a tunnel dead touches no counter. -/
theorem noteClosed_eq (p : TunnelPool) (t : Nat) (e : ConnectionError) :
    p.noteClosed t e = { p with alive := (p.noteClosed t e).alive } := by
  unfold TunnelPool.noteClosed
  split <;> rfl

end Molehill.Pool
