/-
# The tunnel pool: what the counters count

A look at the pool (`reserve`) holds the lock of the pool's state, but the counters of a tunnel are
not behind it: the look reads the streams and then the pending opens of every tunnel, and of each
candidate again, while an open that is answered raises the streams and then lowers the pending
opens, and a lease that is dropped lowers the streams.  Each of these accesses is a step of its own
here, beside the other steps of `Pool/Opens.lean`, and only what takes the lock is kept apart from a
look.  A run of that module is one of these accesses in which nothing comes between
(`CountedPool.reach_accesses`).

A reservation is charged in `reserve` and has no destructor: it comes back with `charge` or
`release` in `complete`.  One path drops it: the second look of an open that met a full pool only
asks whether there is room, and the reservation it got for an answer is lost.  `dropped` records
these, and the law of the counters is `pending = in flight + dropped` (`Balanced`).  So the
counters count what they are meant to in every run in which a second look reads every tunnel that it
may choose at the ceiling (`counters_exact`), and one second look that does not leaves a tunnel
charged for ever: because a lease went before it (`counters_leak`), or because an open was answered
between its two reads of a tunnel that was full throughout (`counters_leak_between_reads`).
-/
import Molehill.Pool.Opens
import Molehill.Lib.Tally

namespace Molehill.Pool

open Function Lib

/-! ## 1. A look, access by access -/

/-- The first half of `charge`: the stream is counted. -/
def TunnelCounters.count (c : TunnelCounters) : TunnelCounters := { c with streams := c.streams + 1 }

/-- What a look has done under the lock: the loads it has listed, the candidates it has still to
read (with the first one over its budget), or its choice. -/
inductive Scan
  | listing (seen : List TunnelCounters)
  | choosing (order rest : List Nat) (overBudget : Option Nat)
  | done (order : List Nat) (choice : Option (Nat × Bool))
  deriving DecidableEq

/-- The load of the tunnel under the look is read. -/
def Scan.note (load : TunnelCounters) : Scan → Scan
  | .listing seen => .listing (seen ++ [load])
  | .choosing order (index :: rest) overBudget =>
    if TunnelPool.ceiling ≤ load.total then .choosing order rest overBudget
    else if load.pending < openBudget then .done order (some (index, false))
    else .choosing order rest (overBudget.or (some index))
  | scan => scan

/-- Whether the look is at its candidates. -/
def Scan.chooses : Scan → Bool
  | .choosing .. => true
  | _ => false

/-- Whether the look has found no room so far. -/
def Scan.refuses : Scan → Bool
  | .listing _ => true
  | .choosing _ _ overBudget => overBudget.isNone
  | .done _ choice => choice.isNone

/-- A look of one open; `streams`: those of the tunnel under the look, if they are read and its
pending opens are not. -/
structure Reserving where
  opener : Nat
  scan : Scan
  streams : Option Nat
  deriving DecidableEq

namespace PoolState

variable (s : PoolState)

/-- The tunnel that a look reads next. -/
def lookedAt : Scan → Option PoolEntry
  | .listing seen => s.entries[seen.length]?
  | .choosing _ (index :: _) _ => s.entries[index]?
  | _ => none

/-- The load that a look has of its tunnel after its next read; none if that is of the streams. -/
def loadRead (r : Reserving) : Option TunnelCounters :=
  r.streams.bind fun streams => (s.lookedAt r.scan).map fun e => ⟨streams, (s.load e).pending⟩

/-- The serving tunnels by the loads that were listed. -/
def orderBy (loads : List TunnelCounters) : List Nat :=
  let serving := (orderCandidates loads s.nextCursor).filter fun index =>
    s.entries[index]?.any fun e => e.phase = .serving
  match s.probeIndex with
  | some index => index :: serving.filter (· ≠ index)
  | none => serving

/-- The reservation of the entry at `index`, which has been charged. -/
def reservationBy (order : List Nat) (index : Nat) (fallback : Bool) (e : PoolEntry) :
    Reservation :=
  let load := s.load e
  let worst := (order.getLast?.bind s.loadAt).getD ⟨0, 0⟩
  ⟨index, ⟨index, order.length, load, worst, load, fallback⟩, e.tunnel⟩

end PoolState

namespace Open

/-- The open is before a look. -/
def looks (o : Open) : Bool :=
  match o.phase with
  | .first | .second | .third | .retrying _ _ => true
  | _ => false

/-- The indices its look is not to answer. -/
def visited (o : Open) : List Nat :=
  match o.phase with
  | .retrying tried _ => tried
  | _ => []

/-- Where a look that got a reservation leaves the open: the second one forgets it. -/
def granted (o : Open) (r : Reservation) : OpenPhase :=
  match o.phase with
  | .second => .third
  | .retrying tried _ => .opening r (tried ++ [r.index])
  | _ => .opening r []

/-- Where a look that got none leaves the open. -/
def denied (o : Open) : OpenPhase :=
  match o.phase with
  | .first => .sizing
  | .second => .third
  | .retrying _ last => .failed (.refused last)
  | _ => .failed .atCapacity

end Open

/-! ## 2. The system -/

/-- The pool, the look that holds its lock, and the opens that are answered and whose streams are
counted while their reservations still are. -/
structure CountedPool where
  pool : TunnelPool
  reserving : Option Reserving
  settling : List Nat

/-- The steps of the pool, access by access. -/
inductive Access
  | spawn (ids : List Nat)
  /-- Open `i` takes the lock for a look. -/
  | begin (i : Nat)
  /-- The look reads one counter. -/
  | read
  /-- The look has listed the loads, or has no candidate left. -/
  | turn
  /-- The look charges its choice, and lets the lock go. -/
  | finish
  /-- `size() == 0`. -/
  | sizing (i : Nat)
  /-- `open_stream` answers; an `Ok` counts the stream. -/
  | answer (i : Nat) (ans : Option ConnectionError)
  /-- The rest of `charge`. -/
  | settle (i : Nat)
  | dropLease (t : Nat)
  | die (t : Nat)
  | reap
  | repair (carrier : Carrier)
  | drain (t : Nat)
  | resume (t : Nat)
  | retire (t : Nat)
  | probe (carrier : Option Carrier)
  deriving DecidableEq

/-- Whether the step takes the lock of the pool's state. -/
def Access.locks : Access → Bool
  | .spawn _ | .begin _ | .sizing _ | .reap | .repair _ | .drain _ | .resume _ | .retire _ => true
  | _ => false

/-- Whether the access is one of the look that has the lock, or of one that begins. -/
def Access.scans : Access → Bool
  | .begin _ | .read | .turn | .finish => true
  | _ => false

namespace CountedPool

def new (count : Nat) : CountedPool := ⟨.new count, none, []⟩

variable (p : CountedPool)

def begin (i : Nat) (o : Open) : Option CountedPool :=
  if o.looks then some { p with reserving := some ⟨i, .listing [], none⟩ } else none

/-- One counter of the tunnel under the look. -/
def read (r : Reserving) : Option CountedPool :=
  match p.pool.state.loadRead r with
  | some load =>
    some { p with reserving := some { r with scan := r.scan.note load, streams := none } }
  | none =>
    (p.pool.state.lookedAt r.scan).map fun e =>
      { p with reserving := some { r with streams := some (p.pool.state.load e).streams } }

/-- What a look does without reading a counter. -/
def turn (r : Reserving) (o : Open) : Option CountedPool :=
  match r.scan with
  | .listing seen =>
    if seen.length = p.pool.state.entries.length then
      let order := p.pool.state.orderBy seen
      some { p with
        pool := { p.pool with state := p.pool.state.moveCursor }
        reserving := some { r with
          scan := .choosing order (orderCandidatesFor order o.visited o.avoid) none } }
    else none
  | .choosing order [] overBudget =>
    some { p with reserving := some { r with
      scan := .done order (overBudget.map fun index => (index, true)) } }
  | .choosing order (index :: rest) overBudget =>
    if p.pool.state.entries[index]? = none then
      some { p with reserving := some { r with scan := .choosing order rest overBudget } }
    else none
  | .done .. => none

/-- A look that answers nothing. -/
def deny (i : Nat) (o : Open) : CountedPool :=
  { p with pool := p.pool.setPhase i o o.denied, reserving := none }

/-- A look that answers a reservation; a second look drops it. -/
def grant (i : Nat) (o : Open) (order : List Nat) (index : Nat) (fallback : Bool) (e : PoolEntry) :
    CountedPool :=
  let state := p.pool.state.touch e.tunnel TunnelCounters.reserve
  let dropped := if o.phase = .second then e.tunnel :: p.pool.dropped else p.pool.dropped
  let pool := { p.pool with state := state, dropped := dropped }
  { p with
    pool := pool.setPhase i o (o.granted (state.reservationBy order index fallback e))
    reserving := none }

def finish (r : Reserving) (o : Open) : Option CountedPool :=
  match r.scan with
  | .done _ none => some (p.deny r.opener o)
  | .done order (some (index, fallback)) =>
    match p.pool.state.entries[index]? with
    | none => some (p.deny r.opener o)
    | some e => some (p.grant r.opener o order index fallback e)
  | _ => none

/-- `size() == 0`, for an open that nothing was under the ceiling for. -/
def sizing (i : Nat) (o : Open) : Option CountedPool :=
  if o.phase = .sizing then
    let phase := if p.pool.state.entries = [] then .failed .noTunnel else .second
    some { p with pool := p.pool.setPhase i o phase }
  else none

/-- The answer of `open_stream`: an `Ok` counts the stream, an error lets the reservation go. -/
def answer (i : Nat) (o : Open) (ans : Option ConnectionError) : Option CountedPool :=
  if i ∈ p.settling then none
  else
    match o.phase, ans with
    | .opening r _, none =>
      some { p with
        pool := { p.pool with
          state := p.pool.state.touch r.tunnel TunnelCounters.count
          leases := r.tunnel :: p.pool.leases }
        settling := i :: p.settling }
    | .opening r tried, some e => some { p with pool := p.pool.refused i o r tried e }
    | _, _ => none

/-- The second half of `charge`: the reservation goes, and the open has its lease. -/
def settle (i : Nat) (o : Open) : Option CountedPool :=
  match o.phase with
  | .opening r _ =>
    if i ∈ p.settling then
      some { p with
        pool := { p.pool with
          state := p.pool.state.touch r.tunnel TunnelCounters.release }.setPhase i o .leased
        settling := p.settling.erase i }
    else none
  | _ => none

/-- The streams on a tunnel whose leases are not made yet. -/
def unmade (t : Nat) : Nat :=
  p.settling.countP fun i => p.pool.opens[i]?.any (Open.inFlightOn t)

/-- What an access does. -/
def act : Access → Option CountedPool
  | .spawn ids =>
    some { p with pool := { p.pool with opens := p.pool.opens ++ [⟨p.pool.indicesOf ids, .first⟩] } }
  | .begin i => p.pool.opens[i]?.bind (p.begin i)
  | .read => p.reserving.bind p.read
  | .turn => p.reserving.bind fun r => p.pool.opens[r.opener]?.bind (p.turn r)
  | .finish => p.reserving.bind fun r => p.pool.opens[r.opener]?.bind (p.finish r)
  | .sizing i => p.pool.opens[i]?.bind (p.sizing i)
  | .answer i ans => p.pool.opens[i]?.bind (p.answer i · ans)
  | .settle i => p.pool.opens[i]?.bind (p.settle i)
  | .dropLease t =>
    if p.unmade t < p.pool.leases.count t then
      some { p with pool := { p.pool with
        state := p.pool.state.touch t TunnelCounters.retire
        leases := p.pool.leases.erase t } }
    else none
  | .die t => some { p with pool := { p.pool with alive := update p.pool.alive t false } }
  | .reap => some { p with
      pool := p.pool.setEntries (p.pool.state.entries.filter fun e => p.pool.alive e.tunnel) }
  | .repair carrier =>
    if p.pool.state.entries.length < p.pool.count then
      some { p with pool := p.pool.grow carrier }
    else none
  | .drain t => some { p with pool := p.pool.setTunnelPhase t .draining }
  | .resume t => some { p with pool := p.pool.setTunnelPhase t .serving }
  | .retire t => some { p with
      pool := p.pool.setEntries (p.pool.state.entries.filter fun e => e.tunnel ≠ t) }
  | .probe carrier => some { p with pool := { p.pool with state.probe := carrier } }

/-- A step: what takes the lock waits for the look that has it. -/
def step (a : Access) : Option CountedPool :=
  if a.locks ∧ p.reserving ≠ none then none else p.act a

end CountedPool

/-- **The system**: one pool and every access to it. -/
def countedPool : Lts CountedPool Access where
  init p := ∃ count, p = CountedPool.new count
  step p a p' := p.step a = some p'

/-! ## 3. The law of the counters -/

/-- **The law of the counters.**  A tunnel's pending opens are those in flight on it and those
that second looks dropped; its streams are its live leases. -/
structure Balanced (p : TunnelPool) : Prop where
  pending : ∀ t, (p.state.counters t).pending = p.inFlight t + p.dropped.count t
  streams : ∀ t, (p.state.counters t).streams = p.leases.count t
  fresh : ∀ t, p.nextId ≤ t → p.state.counters t = ⟨0, 0⟩
  known : ∀ e ∈ p.state.entries, e.tunnel < p.nextId

/-- One open moves on: the flights gain its new phase and lose its old one. -/
theorem inFlight_setPhase {p : TunnelPool} {i : Nat} {o : Open} (ho : p.opens[i]? = some o)
    (phase : OpenPhase) (t : Nat) :
    (p.setPhase i o phase).inFlight t + (o.inFlightOn t).toNat
      = p.inFlight t + (Open.inFlightOn t { o with phase := phase }).toNat := by
  exact countP_set_add ho { o with phase := phase }

/-- One operation on the counters of one tunnel keeps the law if it keeps it there. -/
theorem Balanced.touch {p p' : TunnelPool} (h : Balanced p) {t₀ : Nat} (hk : t₀ < p.nextId)
    {c : TunnelCounters} (hc : p'.state.counters = update p.state.counters t₀ c)
    (hentries : p'.state.entries = p.state.entries) (hid : p'.nextId = p.nextId)
    (hpend₀ : c.pending = p'.inFlight t₀ + p'.dropped.count t₀)
    (hpend : ∀ t, t ≠ t₀ → p'.inFlight t + p'.dropped.count t = p.inFlight t + p.dropped.count t)
    (hstr₀ : c.streams = p'.leases.count t₀)
    (hstr : ∀ t, t ≠ t₀ → p'.leases.count t = p.leases.count t) : Balanced p' := by
  refine ⟨fun t => ?_, fun t => ?_, fun t ht => ?_, ?_⟩
  · rw [hc]
    by_cases ht : t = t₀
    · subst ht
      rw [update_self]
      exact hpend₀
    · rw [update_of_ne ht, hpend t ht]
      exact h.pending t
  · rw [hc]
    by_cases ht : t = t₀
    · subst ht
      rw [update_self]
      exact hstr₀
    · rw [update_of_ne ht, hstr t ht]
      exact h.streams t
  · rw [hid] at ht
    rw [hc, update_of_ne (by omega)]
    exact h.fresh t ht
  · rw [hentries, hid]
    exact h.known

/-- A step of an open that neither takes nor gives back a reservation. -/
theorem Balanced.quietPhase {p : TunnelPool} (h : Balanced p) {i : Nat} {o : Open}
    (ho : p.opens[i]? = some o) {phase : OpenPhase} (hold : ∀ t, o.inFlightOn t = false)
    (hnew : ∀ t, Open.inFlightOn t { o with phase := phase } = false) :
    Balanced (p.setPhase i o phase) := by
  refine ⟨fun t => ?_, h.streams, h.fresh, h.known⟩
  have hf := inFlight_setPhase ho phase t
  rw [hold, hnew] at hf
  have hp := h.pending t
  change (p.state.counters t).pending = (p.setPhase i o phase).inFlight t + p.dropped.count t
  simp only [Bool.toNat_false] at hf
  omega

theorem Balanced.moveCursor {p : TunnelPool} (h : Balanced p) :
    Balanced { p with state := p.state.moveCursor } :=
  ⟨h.pending, h.streams, h.fresh, h.known⟩

/-- The open's own flight is among those its tunnel's counter knows. -/
theorem Balanced.opening_pos {p : TunnelPool} (h : Balanced p) {i : Nat} {o : Open}
    (ho : p.opens[i]? = some o) {r : Reservation} {tried : List Nat}
    (hp : o.phase = .opening r tried) :
    0 < p.inFlight r.tunnel ∧ r.tunnel < p.nextId := by
  have hpos : 0 < p.inFlight r.tunnel := by
    unfold TunnelPool.inFlight
    rw [List.countP_pos_iff]
    exact ⟨o, List.mem_of_getElem? ho, by simp [Open.inFlightOn, hp]⟩
  refine ⟨hpos, ?_⟩
  by_contra hge
  have hzero := h.fresh r.tunnel (by omega)
  have hpend := h.pending r.tunnel
  rw [hzero] at hpend
  dsimp only at hpend
  omega

theorem afterError_quiet (o : Open) (r : Reservation) (tried : List Nat) (e : ConnectionError)
    (t : Nat) :
    Open.inFlightOn t { o with phase := TunnelPool.afterError r tried e } = false := by
  unfold TunnelPool.afterError
  split
  · split <;> rfl
  · rfl

/-- **A reservation that is let go** comes back. -/
theorem Balanced.released {p : TunnelPool} (h : Balanced p) {i : Nat} {o : Open}
    (ho : p.opens[i]? = some o) {r : Reservation} {tried : List Nat}
    (hp : o.phase = .opening r tried) {phase : OpenPhase}
    (hquiet : ∀ t, Open.inFlightOn t { o with phase := phase } = false) (alive : Nat → Bool) :
    Balanced ({ p with
      state := p.state.touch r.tunnel TunnelCounters.release
      alive := alive }.setPhase i o phase) := by
  obtain ⟨hpos, hk⟩ := h.opening_pos ho hp
  have hf : ∀ t, ({ p with
      state := p.state.touch r.tunnel TunnelCounters.release
      alive := alive }.setPhase i o phase).inFlight t
        + (decide (r.tunnel = t)).toNat = p.inFlight t := by
    intro t
    have h1 := inFlight_setPhase (p := { p with
      state := p.state.touch r.tunnel TunnelCounters.release
      alive := alive }) ho phase t
    have h2 : o.inFlightOn t = decide (r.tunnel = t) := by simp [Open.inFlightOn, hp]
    rw [h2, hquiet] at h1
    exact h1
  have hf0 := hf r.tunnel
  have hpend := h.pending r.tunnel
  simp only [decide_true, Bool.toNat_true] at hf0
  refine h.touch hk rfl rfl rfl ?_ ?_ (h.streams r.tunnel) (fun _ _ => rfl)
  · simp only [TunnelCounters.release, TunnelPool.setPhase] at hf0 ⊢
    omega
  · intro t ht
    have hft := hf t
    rw [decide_eq_false (Ne.symm ht)] at hft
    rw [← hft]
    rfl

/-- **An open that is refused** gives its reservation back. -/
theorem Balanced.refused {p : TunnelPool} (h : Balanced p) {i : Nat} {o : Open}
    (ho : p.opens[i]? = some o) {r : Reservation} {tried : List Nat}
    (hp : o.phase = .opening r tried) (e : ConnectionError) :
    Balanced (p.refused i o r tried e) := by
  unfold TunnelPool.refused
  rw [noteClosed_eq]
  exact h.released ho hp (afterError_quiet o r tried e) _

/-- **An open that is answered** has its stream counted. -/
theorem Balanced.counted {p : TunnelPool} (h : Balanced p) {t₀ : Nat} (hk : t₀ < p.nextId) :
    Balanced { p with
      state := p.state.touch t₀ TunnelCounters.count
      leases := t₀ :: p.leases } := by
  have hstr := h.streams t₀
  refine h.touch hk rfl rfl rfl (h.pending t₀) (fun _ _ => rfl) ?_ ?_
  · simp only [TunnelCounters.count, List.count_cons_self, hstr]
  · intro t ht
    exact List.count_cons_of_ne (Ne.symm ht)

/-- **The drop of a lease** retires its stream. -/
theorem Balanced.dropLease {p : TunnelPool} (h : Balanced p) {t : Nat} (ht : t ∈ p.leases) :
    Balanced { p with
      state := p.state.touch t TunnelCounters.retire
      leases := p.leases.erase t } := by
  have hpos := List.count_pos_iff.mpr ht
  have hstr := h.streams t
  have hk : t < p.nextId := by
    by_contra hge
    rw [h.fresh t (by omega)] at hstr
    dsimp only at hstr
    omega
  refine h.touch hk rfl rfl rfl (h.pending t) (fun _ _ => rfl) ?_ ?_
  · simp only [TunnelCounters.retire, List.count_erase_self]
    omega
  · intro u hu
    exact List.count_erase_of_ne hu

/-- A repair adds a tunnel that nobody has opened anything on. -/
theorem Balanced.grow {p : TunnelPool} (h : Balanced p) (carrier : Carrier) :
    Balanced (p.grow carrier) := by
  have hsame : update p.state.counters p.nextId ⟨0, 0⟩ = p.state.counters := by
    rw [← h.fresh p.nextId (Nat.le_refl _), update_eq_self]
  refine ⟨?_, ?_, ?_, ?_⟩
  · intro t
    dsimp only [TunnelPool.grow, TunnelPool.setEntries]
    rw [hsame]
    exact h.pending t
  · intro t
    dsimp only [TunnelPool.grow, TunnelPool.setEntries]
    rw [hsame]
    exact h.streams t
  · intro t ht
    dsimp only [TunnelPool.grow, TunnelPool.setEntries] at ht ⊢
    rw [hsame]
    exact h.fresh t (by omega)
  · intro e he
    dsimp only [TunnelPool.grow, TunnelPool.setEntries] at he ⊢
    rcases List.mem_append.mp he with he | he
    · exact Nat.lt_succ_of_lt (h.known e he)
    · rw [List.mem_singleton.mp he]
      exact Nat.lt_succ_self _

/-- Rearranging the entries adds no tunnel. -/
theorem Balanced.setEntries {p : TunnelPool} (h : Balanced p) {entries : List PoolEntry}
    (hsub : ∀ e ∈ entries, ∃ e' ∈ p.state.entries, e'.tunnel = e.tunnel) :
    Balanced (p.setEntries entries) := by
  refine ⟨h.pending, h.streams, h.fresh, ?_⟩
  intro e he
  obtain ⟨e', he', heq⟩ := hsub e he
  rw [← heq]
  exact h.known e' he'

theorem Balanced.setTunnelPhase {p : TunnelPool} (h : Balanced p) (t : Nat)
    (phase : TunnelPhase) : Balanced (p.setTunnelPhase t phase) := by
  refine h.setEntries ?_
  intro e he
  obtain ⟨e', he', rfl⟩ := List.mem_map.mp he
  refine ⟨e', he', ?_⟩
  split <;> rfl

/-! ## 4. Every access, every run -/

/-- An open before a look is in flight nowhere. -/
theorem quiet_of_looks {o : Open} (h : o.looks = true) (t : Nat) : o.inFlightOn t = false := by
  unfold Open.looks at h
  unfold Open.inFlightOn
  cases hp : o.phase with
  | opening r tried =>
    rw [hp] at h
    cases h
  | _ => rfl

theorem denied_quiet (o : Open) (t : Nat) :
    Open.inFlightOn t { o with phase := o.denied } = false := by
  unfold Open.denied
  split
  · rfl
  · rfl
  · rfl
  · rfl

/-- A reservation is the open's, or is among those that were dropped. -/
theorem granted_count {o : Open} {r : Reservation} {t₀ : Nat} (hr : r.tunnel = t₀)
    (dropped : List Nat) (t : Nat) :
    (Open.inFlightOn t { o with phase := o.granted r }).toNat +
        (if o.phase = .second then t₀ :: dropped else dropped).count t =
      dropped.count t + (decide (t₀ = t)).toNat := by
  subst hr
  unfold Open.granted
  cases hp : o.phase with
  | second =>
    rw [if_pos rfl, List.count_cons]
    simp [Open.inFlightOn, Bool.toNat]
  | retrying tried last =>
    rw [if_neg nofun, Nat.add_comm]
    rfl
  | _ =>
    rw [if_neg nofun, Nat.add_comm]
    rfl

/-- **A look that answers a reservation** charges it. -/
theorem Balanced.grant {p : CountedPool} (h : Balanced p.pool) {i : Nat} {o : Open}
    (ho : p.pool.opens[i]? = some o) (hquiet : ∀ t, o.inFlightOn t = false) (order : List Nat)
    {index : Nat} (fallback : Bool) {e : PoolEntry} (he : e ∈ p.pool.state.entries) :
    Balanced (p.grant i o order index fallback e).pool := by
  have hf : ∀ t, (p.grant i o order index fallback e).pool.inFlight t +
      (p.grant i o order index fallback e).pool.dropped.count t =
        p.pool.inFlight t + p.pool.dropped.count t + (decide (e.tunnel = t)).toNat := by
    intro t
    have h1 := inFlight_setPhase (p := { p.pool with
      state := p.pool.state.touch e.tunnel TunnelCounters.reserve
      dropped := if o.phase = .second then e.tunnel :: p.pool.dropped else p.pool.dropped }) ho
      (o.granted ((p.pool.state.touch e.tunnel TunnelCounters.reserve).reservationBy order index
        fallback e)) t
    have hr : ((p.pool.state.touch e.tunnel TunnelCounters.reserve).reservationBy order index
      fallback e).tunnel = e.tunnel := rfl
    have h2 := granted_count (o := o) hr p.pool.dropped t
    rw [hquiet, Bool.toNat_false] at h1
    change (p.grant i o order index fallback e).pool.inFlight t + 0 = p.pool.inFlight t + _ at h1
    change _ + (p.grant i o order index fallback e).pool.dropped.count t = _ at h2
    omega
  have hf0 := hf e.tunnel
  have hp := h.pending e.tunnel
  simp only [decide_true, Bool.toNat_true] at hf0
  refine h.touch (h.known e he) rfl rfl rfl ?_ (fun t ht => ?_) (h.streams e.tunnel)
    (fun _ _ => rfl)
  · rw [hf0]
    simp only [TunnelCounters.reserve]
    omega
  · rw [hf, decide_eq_false (Ne.symm ht)]
    rfl

namespace CountedPool

/-- A step is the access; what takes the lock finds no look that has it. -/
theorem step_act {p p' : CountedPool} {a : Access} (hs : p.step a = some p') :
    (a.locks = true → p.reserving = none) ∧ p.act a = some p' := by
  unfold CountedPool.step at hs
  split at hs
  case isTrue => cases hs
  case isFalse hn =>
    refine ⟨fun hl => ?_, hs⟩
    by_contra hne
    exact hn ⟨hl, hne⟩

/-- A read takes one counter of the look's tunnel, and with the second one the load is complete. -/
theorem read_cases {p p' : CountedPool} {r : Reserving} (hs : p.read r = some p') :
    ∃ scan streams, p' = { p with reserving := some ⟨r.opener, scan, streams⟩ } ∧
      (scan = r.scan ∨ ∃ load, p.pool.state.loadRead r = some load ∧ scan = r.scan.note load) := by
  unfold CountedPool.read at hs
  split at hs
  case h_1 load hl =>
    cases hs
    exact ⟨_, _, rfl, Or.inr ⟨load, hl, rfl⟩⟩
  case h_2 =>
    obtain ⟨e, -, rfl⟩ := Option.map_eq_some_iff.mp hs
    exact ⟨_, _, rfl, Or.inl rfl⟩

/-- A turn reads nothing, so that a look without a choice is left without one. -/
theorem turn_cases {p p' : CountedPool} {r : Reserving} {o : Open} (hs : p.turn r o = some p') :
    ∃ state scan, p' = { p with
        pool := { p.pool with state := state }
        reserving := some { r with scan := scan } } ∧
      (state = p.pool.state ∨ state = p.pool.state.moveCursor) ∧
      (r.scan.refuses = true → scan.refuses = true) := by
  unfold CountedPool.turn at hs
  split at hs
  case h_1 seen hscan =>
    simp only [Option.ite_none_right_eq_some, Option.some.injEq] at hs
    obtain ⟨-, rfl⟩ := hs
    exact ⟨_, _, rfl, Or.inr rfl, fun _ => rfl⟩
  case h_2 order overBudget hscan =>
    cases hs
    refine ⟨_, _, rfl, Or.inl rfl, fun h => ?_⟩
    rw [hscan] at h
    rw [Option.isNone_iff_eq_none.mp h]
    rfl
  case h_3 order index rest overBudget hscan =>
    simp only [Option.ite_none_right_eq_some, Option.some.injEq] at hs
    obtain ⟨-, rfl⟩ := hs
    refine ⟨_, _, rfl, Or.inl rfl, fun h => ?_⟩
    rw [hscan] at h
    exact h
  case h_4 => cases hs

/-- A look ends with a reservation of a tunnel of the pool, if it has a choice, or with none. -/
theorem finish_cases {p p' : CountedPool} {r : Reserving} {o : Open}
    (hs : p.finish r o = some p') :
    p' = p.deny r.opener o ∨
      ∃ order index fallback e, r.scan = .done order (some (index, fallback)) ∧
        e ∈ p.pool.state.entries ∧ p' = p.grant r.opener o order index fallback e := by
  unfold CountedPool.finish at hs
  split at hs
  case h_1 =>
    cases hs
    exact Or.inl rfl
  case h_2 order index fallback hscan =>
    split at hs
    case h_1 =>
      cases hs
      exact Or.inl rfl
    case h_2 e he =>
      cases hs
      exact Or.inr ⟨order, index, fallback, e, hscan, List.mem_of_getElem? he, rfl⟩
  case h_3 => cases hs

/-- An answer counts the stream, or lets the reservation go. -/
theorem answer_cases {p p' : CountedPool} {i : Nat} {o : Open} {ans : Option ConnectionError}
    (hs : p.answer i o ans = some p') :
    ∃ r tried, o.phase = .opening r tried ∧
      (p' = { p with
          pool := { p.pool with
            state := p.pool.state.touch r.tunnel TunnelCounters.count
            leases := r.tunnel :: p.pool.leases }
          settling := i :: p.settling } ∨
        ∃ e, p' = { p with pool := p.pool.refused i o r tried e }) := by
  unfold CountedPool.answer at hs
  split at hs
  case isTrue => cases hs
  case isFalse =>
    split at hs
    case h_1 r tried hp =>
      cases hs
      exact ⟨r, tried, hp, Or.inl rfl⟩
    case h_2 r tried e hp =>
      cases hs
      exact ⟨r, tried, hp, Or.inr ⟨e, rfl⟩⟩
    case h_3 => cases hs

/-- The rest of a charge lets the reservation go. -/
theorem settle_cases {p p' : CountedPool} {i : Nat} {o : Open} (hs : p.settle i o = some p') :
    ∃ r tried, o.phase = .opening r tried ∧ p' = { p with
      pool := { p.pool with
        state := p.pool.state.touch r.tunnel TunnelCounters.release }.setPhase i o .leased
      settling := p.settling.erase i } := by
  unfold CountedPool.settle at hs
  split at hs
  case h_1 r tried hp =>
    simp only [Option.ite_none_right_eq_some, Option.some.injEq] at hs
    obtain ⟨-, rfl⟩ := hs
    exact ⟨r, tried, hp, rfl⟩
  case h_2 => cases hs

/-! ### The look and its open -/

/-- What a pool has been through: the law holds, and the open of the look is before one. -/
structure Sound (p : CountedPool) : Prop where
  balanced : Balanced p.pool
  opener : ∀ r o, p.reserving = some r → p.pool.opens[r.opener]? = some o → o.looks = true

/-- The look that has the lock, if any, and its open are as they were. -/
def LookKept (p p' : CountedPool) : Prop :=
  ∀ r, p'.reserving = some r →
    p.reserving = some r ∧ p'.pool.opens[r.opener]? = p.pool.opens[r.opener]?

theorem LookKept.of_none {p p' : CountedPool} (h : p'.reserving = none) : LookKept p p' := by
  intro r hr
  rw [h] at hr
  cases hr

/-- An open that waits for its answer is not the one that looks. -/
theorem Sound.keptBy {p p' : CountedPool} (h : Sound p) {i : Nat} {o o' : Open}
    (ho : p.pool.opens[i]? = some o) (hl : o.looks = false) (hr : p'.reserving = p.reserving)
    (hopens : p'.pool.opens = p.pool.opens.set i o') : LookKept p p' := by
  intro r hr'
  rw [hr] at hr'
  refine ⟨hr', ?_⟩
  have hne : i ≠ r.opener := by
    rintro rfl
    rw [h.opener r o hr' ho] at hl
    cases hl
  rw [hopens, List.getElem?_set_ne hne]

theorem not_looks {o : Open} {r : Reservation} {tried : List Nat} (hp : o.phase = .opening r tried) :
    o.looks = false := by
  simp [Open.looks, hp]

/-- **An access outside the lock leaves the look, and drops no reservation.** -/
theorem Sound.aside {p p' : CountedPool} (h : Sound p) {a : Access} (ha : a.scans = false)
    (hs : p.step a = some p') : LookKept p p' ∧ p'.pool.dropped = p.pool.dropped := by
  obtain ⟨hlock, hact⟩ := step_act hs
  cases a with
  | begin i => cases ha
  | read => cases ha
  | turn => cases ha
  | finish => cases ha
  | spawn ids =>
    cases hact
    exact ⟨.of_none (hlock rfl), rfl⟩
  | sizing i =>
    obtain ⟨o, -, hact⟩ := Option.bind_eq_some_iff.mp hact
    simp only [CountedPool.sizing, Option.ite_none_right_eq_some, Option.some.injEq] at hact
    obtain ⟨-, rfl⟩ := hact
    exact ⟨.of_none (hlock rfl), rfl⟩
  | answer i ans =>
    obtain ⟨o, ho, hact⟩ := Option.bind_eq_some_iff.mp hact
    obtain ⟨r, tried, hp, rfl | ⟨e, rfl⟩⟩ := answer_cases hact
    · exact ⟨fun r hr => ⟨hr, rfl⟩, rfl⟩
    · unfold TunnelPool.refused
      rw [noteClosed_eq]
      exact ⟨h.keptBy ho (not_looks hp) rfl rfl, rfl⟩
  | settle i =>
    obtain ⟨o, ho, hact⟩ := Option.bind_eq_some_iff.mp hact
    obtain ⟨r, tried, hp, rfl⟩ := settle_cases hact
    exact ⟨h.keptBy ho (not_looks hp) rfl rfl, rfl⟩
  | dropLease t =>
    simp only [CountedPool.act, Option.ite_none_right_eq_some, Option.some.injEq] at hact
    obtain ⟨-, rfl⟩ := hact
    exact ⟨fun r hr => ⟨hr, rfl⟩, rfl⟩
  | die t =>
    cases hact
    exact ⟨fun r hr => ⟨hr, rfl⟩, rfl⟩
  | reap =>
    cases hact
    exact ⟨.of_none (hlock rfl), rfl⟩
  | repair carrier =>
    simp only [CountedPool.act, Option.ite_none_right_eq_some, Option.some.injEq] at hact
    obtain ⟨-, rfl⟩ := hact
    exact ⟨.of_none (hlock rfl), rfl⟩
  | drain t =>
    cases hact
    exact ⟨.of_none (hlock rfl), rfl⟩
  | resume t =>
    cases hact
    exact ⟨.of_none (hlock rfl), rfl⟩
  | retire t =>
    cases hact
    exact ⟨.of_none (hlock rfl), rfl⟩
  | probe carrier =>
    cases hact
    exact ⟨fun r hr => ⟨hr, rfl⟩, rfl⟩

/-- **Every access keeps the law.** -/
theorem Sound.balanced_step {p p' : CountedPool} (h : Sound p) {a : Access}
    (hs : p.step a = some p') : Balanced p'.pool := by
  have hb := h.balanced
  obtain ⟨-, hact⟩ := step_act hs
  cases a with
  | spawn ids =>
    cases hact
    refine ⟨fun t => ?_, hb.streams, hb.fresh, hb.known⟩
    have hp := hb.pending t
    simpa [TunnelPool.inFlight, Open.inFlightOn] using hp
  | begin i =>
    obtain ⟨o, -, hact⟩ := Option.bind_eq_some_iff.mp hact
    simp only [CountedPool.begin, Option.ite_none_right_eq_some, Option.some.injEq] at hact
    obtain ⟨-, rfl⟩ := hact
    exact hb
  | read =>
    obtain ⟨r, -, hact⟩ := Option.bind_eq_some_iff.mp hact
    obtain ⟨scan, streams, rfl, -⟩ := read_cases hact
    exact hb
  | turn =>
    obtain ⟨r, -, hact⟩ := Option.bind_eq_some_iff.mp hact
    obtain ⟨o, -, hact⟩ := Option.bind_eq_some_iff.mp hact
    obtain ⟨state, scan, rfl, rfl | rfl, -⟩ := turn_cases hact
    · exact hb
    · exact hb.moveCursor
  | finish =>
    obtain ⟨r, hr, hact⟩ := Option.bind_eq_some_iff.mp hact
    obtain ⟨o, ho, hact⟩ := Option.bind_eq_some_iff.mp hact
    have hquiet := quiet_of_looks (h.opener r o hr ho)
    obtain rfl | ⟨order, index, fallback, e, -, he, rfl⟩ := finish_cases hact
    · exact hb.quietPhase ho hquiet (denied_quiet o)
    · exact hb.grant ho hquiet order fallback he
  | sizing i =>
    obtain ⟨o, ho, hact⟩ := Option.bind_eq_some_iff.mp hact
    simp only [CountedPool.sizing, Option.ite_none_right_eq_some, Option.some.injEq] at hact
    obtain ⟨hp, rfl⟩ := hact
    refine hb.quietPhase ho (by simp [Open.inFlightOn, hp]) ?_
    intro t
    split <;> rfl
  | answer i ans =>
    obtain ⟨o, ho, hact⟩ := Option.bind_eq_some_iff.mp hact
    obtain ⟨r, tried, hp, rfl | ⟨e, rfl⟩⟩ := answer_cases hact
    · exact hb.counted (hb.opening_pos ho hp).2
    · exact hb.refused ho hp e
  | settle i =>
    obtain ⟨o, ho, hact⟩ := Option.bind_eq_some_iff.mp hact
    obtain ⟨r, tried, hp, rfl⟩ := settle_cases hact
    exact hb.released ho hp (fun _ => rfl) p.pool.alive
  | dropLease t =>
    simp only [CountedPool.act, Option.ite_none_right_eq_some, Option.some.injEq] at hact
    obtain ⟨hlt, rfl⟩ := hact
    exact hb.dropLease (List.count_pos_iff.mp (by omega))
  | die t =>
    cases hact
    exact ⟨hb.pending, hb.streams, hb.fresh, hb.known⟩
  | reap =>
    cases hact
    refine hb.setEntries ?_
    intro e he
    exact ⟨e, (List.mem_filter.mp he).1, rfl⟩
  | repair carrier =>
    simp only [CountedPool.act, Option.ite_none_right_eq_some, Option.some.injEq] at hact
    obtain ⟨-, rfl⟩ := hact
    exact hb.grow carrier
  | drain t =>
    cases hact
    exact hb.setTunnelPhase t .draining
  | resume t =>
    cases hact
    exact hb.setTunnelPhase t .serving
  | retire t =>
    cases hact
    refine hb.setEntries ?_
    intro e he
    exact ⟨e, (List.mem_filter.mp he).1, rfl⟩
  | probe carrier =>
    cases hact
    exact ⟨hb.pending, hb.streams, hb.fresh, hb.known⟩

/-- Every access leaves the look, if there is one, to an open that is before one. -/
theorem Sound.opener_step {p p' : CountedPool} (h : Sound p) {a : Access}
    (hs : p.step a = some p') :
    ∀ r o, p'.reserving = some r → p'.pool.opens[r.opener]? = some o → o.looks = true := by
  intro r' o hr' ho
  cases hscans : a.scans with
  | false =>
    obtain ⟨hr, hsame⟩ := (h.aside hscans hs).1 r' hr'
    rw [hsame] at ho
    exact h.opener r' o hr ho
  | true =>
    obtain ⟨-, hact⟩ := step_act hs
    cases a with
    | begin i =>
      obtain ⟨o₀, ho₀, hact⟩ := Option.bind_eq_some_iff.mp hact
      simp only [CountedPool.begin, Option.ite_none_right_eq_some, Option.some.injEq] at hact
      obtain ⟨hlooks, rfl⟩ := hact
      cases hr'
      change p.pool.opens[i]? = some o at ho
      rw [ho₀] at ho
      cases ho
      exact hlooks
    | read =>
      obtain ⟨r, hr, hact⟩ := Option.bind_eq_some_iff.mp hact
      obtain ⟨scan, streams, rfl, -⟩ := read_cases hact
      cases hr'
      exact h.opener r o hr ho
    | turn =>
      obtain ⟨r, hr, hact⟩ := Option.bind_eq_some_iff.mp hact
      obtain ⟨o₀, -, hact⟩ := Option.bind_eq_some_iff.mp hact
      obtain ⟨state, scan, rfl, -, -⟩ := turn_cases hact
      cases hr'
      exact h.opener r o hr ho
    | finish =>
      obtain ⟨r, -, hact⟩ := Option.bind_eq_some_iff.mp hact
      obtain ⟨o₀, -, hact⟩ := Option.bind_eq_some_iff.mp hact
      obtain rfl | ⟨order, index, fallback, e, -, -, rfl⟩ := finish_cases hact <;> cases hr'
    | _ => cases hscans

theorem Sound.step {p p' : CountedPool} (h : Sound p) {a : Access} (hs : p.step a = some p') :
    Sound p' :=
  ⟨h.balanced_step hs, h.opener_step hs⟩

theorem sound_new (count : Nat) : Sound (CountedPool.new count) :=
  ⟨⟨fun _ => rfl, fun _ => rfl, fun _ _ => rfl, nofun⟩, nofun⟩

/-- **Every run keeps the law.** -/
theorem sound {p : CountedPool} (h : countedPool.Reach p) : Sound p := by
  refine h.invariant (P := Sound) ?_ ?_
  · rintro p ⟨count, rfl⟩
    exact sound_new count
  · intro p a p' hp hs
    exact hp.step hs

/-- The counters are off exactly by what second looks dropped. -/
theorem pending_exact_iff {p : CountedPool} (h : countedPool.Reach p) :
    (∀ t, (p.pool.state.counters t).pending = p.pool.inFlight t) ↔ p.pool.dropped = [] := by
  have hb := (sound h).balanced
  constructor
  · intro hexact
    by_contra hne
    obtain ⟨t, ht⟩ := List.exists_mem_of_ne_nil _ hne
    have hpos := List.count_pos_iff.mpr ht
    have h1 := hexact t
    have h2 := hb.pending t
    omega
  · intro hnil t
    have h2 := hb.pending t
    rw [hnil] at h2
    exact h2

/-! ## 5. Runs whose second looks read no room -/

/-- A second look that reads the second counter of a candidate has read it at the ceiling: the
streams that it read and the pending opens of now. -/
def secondLookFull (p : CountedPool) (a : Access) : Bool :=
  match a, p.reserving with
  | .read, some r =>
    !(r.scan.chooses && p.pool.opens[r.opener]?.any fun o => o.phase = .second) ||
      (p.pool.state.loadRead r).all fun load => TunnelPool.ceiling ≤ load.total
  | _, _ => true

/-- Nothing was dropped, and a second look has no choice. -/
structure Refusing (p : CountedPool) : Prop where
  none_dropped : p.pool.dropped = []
  no_choice : ∀ r o, p.reserving = some r → p.pool.opens[r.opener]? = some o →
    o.phase = .second → r.scan.refuses = true

/-- A tunnel that is read at the ceiling is not chosen. -/
theorem note_refuses {scan : Scan} {load : TunnelCounters} (h : scan.refuses = true)
    (hfull : scan.chooses = true → TunnelPool.ceiling ≤ load.total) :
    (scan.note load).refuses = true := by
  unfold Scan.note
  split
  case h_1 => rfl
  case h_2 order index rest overBudget =>
    rw [if_pos (hfull rfl)]
    exact h
  case h_3 => exact h

/-- **A step that meets the condition drops no reservation.** -/
theorem Refusing.step {p p' : CountedPool} (hsound : Sound p) (h : Refusing p) {a : Access}
    (hc : secondLookFull p a = true) (hs : p.step a = some p') : Refusing p' := by
  cases hscans : a.scans with
  | false =>
    obtain ⟨hkept, hdropped⟩ := hsound.aside hscans hs
    refine ⟨hdropped.trans h.none_dropped, ?_⟩
    intro r o hr ho hp
    obtain ⟨hr', hsame⟩ := hkept r hr
    rw [hsame] at ho
    exact h.no_choice r o hr' ho hp
  | true =>
    obtain ⟨-, hact⟩ := step_act hs
    cases a with
    | begin i =>
      obtain ⟨o₀, -, hact⟩ := Option.bind_eq_some_iff.mp hact
      simp only [CountedPool.begin, Option.ite_none_right_eq_some, Option.some.injEq] at hact
      obtain ⟨-, rfl⟩ := hact
      refine ⟨h.none_dropped, fun r o hr _ _ => ?_⟩
      cases hr
      rfl
    | read =>
      obtain ⟨r₀, hr₀, hact⟩ := Option.bind_eq_some_iff.mp hact
      obtain ⟨scan, streams, rfl, hscan⟩ := read_cases hact
      refine ⟨h.none_dropped, fun r o hr ho hp => ?_⟩
      cases hr
      have hold := h.no_choice r₀ o hr₀ ho hp
      obtain rfl | ⟨load, hload, rfl⟩ := hscan
      · exact hold
      · refine note_refuses hold fun hch => ?_
        have hopen : p.pool.opens[r₀.opener]? = some o := ho
        simpa [secondLookFull, hr₀, hch, hopen, hp, hload] using hc
    | turn =>
      obtain ⟨r₀, hr₀, hact⟩ := Option.bind_eq_some_iff.mp hact
      obtain ⟨o₀, -, hact⟩ := Option.bind_eq_some_iff.mp hact
      obtain ⟨state, scan, rfl, -, hscan⟩ := turn_cases hact
      refine ⟨h.none_dropped, fun r o hr ho hp => ?_⟩
      cases hr
      exact hscan (h.no_choice r₀ o hr₀ ho hp)
    | finish =>
      obtain ⟨r₀, hr₀, hact⟩ := Option.bind_eq_some_iff.mp hact
      obtain ⟨o₀, ho₀, hact⟩ := Option.bind_eq_some_iff.mp hact
      obtain rfl | ⟨order, index, fallback, e, hdone, -, rfl⟩ := finish_cases hact
      · exact ⟨h.none_dropped, fun r o hr => by cases hr⟩
      · refine ⟨?_, fun r o hr => by cases hr⟩
        -- a second look would have to have a choice
        have hfirst : o₀.phase ≠ .second := by
          intro hp
          have hold := h.no_choice r₀ o₀ hr₀ ho₀ hp
          rw [hdone] at hold
          cases hold
        exact (if_neg hfirst).trans h.none_dropped
    | _ => cases hscans

/-- **Every run that meets the condition drops no reservation.** -/
theorem refusing {p : CountedPool}
    (h : (countedPool.restrict fun p a => p.secondLookFull a).Reach p) : Refusing p := by
  refine (h.invariant (P := fun p => Sound p ∧ Refusing p) ?_ ?_).2
  · rintro p ⟨count, rfl⟩
    exact ⟨sound_new count, rfl, nofun⟩
  · rintro p a p' ⟨hsound, hp⟩ ⟨hc, hs⟩
    exact ⟨hsound.step hs, hp.step hsound hc hs⟩

end CountedPool

/-- A pool with a serving tunnel always has a candidate. -/
theorem exists_candidate {s : PoolState} (avoid : List Nat) {e : PoolEntry}
    (he : e ∈ s.entries) (hs : e.phase = .serving) : ∃ index, index ∈ s.candidates [] avoid := by
  obtain ⟨i, hi⟩ := List.getElem?_of_mem he
  have hord : i ∈ s.order := mem_order.mpr ⟨e, hi, hs⟩
  unfold PoolState.candidates orderCandidatesFor
  dsimp only
  split
  case isTrue => exact ⟨i, by simpa using hord⟩
  case isFalse hne =>
    by_cases hempty : avoid = []
    · exact ⟨i, by simpa [hempty] using hord⟩
    · have hsome :
          (s.order.filter fun i => !([] : List Nat).contains i && !avoid.contains i) ≠ [] := by
        intro hnil
        rw [hnil] at hne
        simp [hempty] at hne
      exact List.exists_mem_of_ne_nil _ hsome

/-- **A pool with idle counters admits an open**, whatever the open avoids. -/
theorem reserve_isSome_of_idle {s : PoolState} (hzero : ∀ t, s.counters t = ⟨0, 0⟩)
    (hserving : ∃ e ∈ s.entries, e.phase = .serving) (avoid : List Nat) :
    (s.reserve [] avoid TunnelPool.ceiling).2.isSome = true := by
  obtain ⟨e, he, hs⟩ := hserving
  obtain ⟨index, hindex⟩ := exists_candidate avoid he hs
  rw [Option.isSome_iff_ne_none]
  intro hnone
  have hfull := reserve_none_iff.mp hnone index hindex
  obtain ⟨e', he', -⟩ := mem_candidates hindex
  have hload : s.loadAt index = some ⟨0, 0⟩ := by
    rw [PoolState.loadAt, he']
    simp [PoolState.load, hzero]
  exact absurd (hfull _ hload) (by decide)

/-- **The counters count what they are meant to.**  In every run in which each second look reads
every candidate at the ceiling: a tunnel's `pending` counter is the number of opens in flight on it
and its `streams` counter is the number of its live leases; and once every open is over and every
lease is dropped, all counters are zero and a pool with a serving tunnel admits the next open. -/
theorem counters_exact {p : CountedPool}
    (h : (countedPool.restrict fun p a => p.secondLookFull a).Reach p) :
    (∀ t, (p.pool.state.counters t).pending = p.pool.inFlight t ∧
      (p.pool.state.counters t).streams = p.pool.leases.count t) ∧
    ((∀ o ∈ p.pool.opens, o.finished = true) → p.pool.leases = [] →
      (∀ t, p.pool.state.counters t = ⟨0, 0⟩) ∧
      ((∃ e ∈ p.pool.state.entries, e.phase = .serving) →
        ∀ avoid, (p.pool.state.reserve [] avoid TunnelPool.ceiling).2.isSome = true)) := by
  have hb := (CountedPool.sound h.of_restrict).balanced
  have hdropped := (CountedPool.refusing h).none_dropped
  have hpend := (CountedPool.pending_exact_iff h.of_restrict).mpr hdropped
  refine ⟨fun t => ⟨hpend t, hb.streams t⟩, ?_⟩
  intro hover hleases
  have hzero : ∀ t, p.pool.state.counters t = ⟨0, 0⟩ := by
    intro t
    have hnone : p.pool.inFlight t = 0 := by
      unfold TunnelPool.inFlight
      rw [List.countP_eq_zero]
      intro o ho
      have hfin := hover o ho
      unfold Open.finished at hfin
      unfold Open.inFlightOn
      cases hp : o.phase <;> simp_all
    have h1 := hpend t
    have h2 := hb.streams t
    rw [hnone] at h1
    rw [hleases, List.count_nil] at h2
    cases hc : p.pool.state.counters t with
    | mk streams pending =>
      rw [hc] at h1 h2
      simp_all
  exact ⟨hzero, fun hserving avoid => reserve_isSome_of_idle hzero hserving avoid⟩

/-- A look of open `i` at `n` tunnels that answers the first candidate. -/
def lookRun (i n : Nat) : List Access :=
  .begin i :: List.replicate (2 * n) .read ++ [.turn, .read, .read, .finish]

/-- Two opens on two tunnels: the second one's tunnel is closed and it falls through to the
first one's.  Both leases are dropped. -/
def twoOpens : List Access :=
  [.repair .tcp, .repair .kcp, .spawn []] ++ lookRun 0 2 ++ [.spawn []] ++ lookRun 1 2 ++
    [.answer 0 none, .answer 1 (some .closed)] ++ lookRun 1 2 ++
    [.answer 1 none, .settle 0, .settle 1, .reap, .dropLease 0, .dropLease 0]

theorem counters_exact_two_opens :
    ∃ p, (countedPool.restrict fun p a => p.secondLookFull a).Reach p ∧ p.pool.opens.length = 2 ∧
      p.pool.state.counters 0 = ⟨0, 0⟩ ∧
      (p.pool.state.reserve [] [] TunnelPool.ceiling).2.isSome = true := by
  have hrun : (Lts.runWith CountedPool.step CountedPool.secondLookFull (CountedPool.new 2)
      twoOpens).any
      (fun p => p.pool.opens.length = 2 ∧ (∀ o ∈ p.pool.opens, o.finished = true) ∧
        p.pool.leases = [] ∧ ∃ e ∈ p.pool.state.entries, e.phase = .serving) = true := by
    decide +kernel
  obtain ⟨p, hreach, hfacts⟩ :=
    Lts.Reach.exists_runWith (T := countedPool) (C := fun p a => p.secondLookFull a)
      (fun _ _ _ hs => hs) (fun _ _ h => h) ⟨2, rfl⟩ hrun
  obtain ⟨hlen, hover, hleases, hserving⟩ := of_decide_eq_true hfacts
  obtain ⟨hzero, hadmits⟩ := (counters_exact hreach).2 hover hleases
  exact ⟨p, hreach, hlen, hzero 0, hadmits hserving []⟩

/-! ## 6. Looks that nothing comes between

A step of `Pool/Opens.lean` is a run of accesses here: a look reads its tunnels one after the other,
and an answered open is charged in both halves. -/

namespace CountedPool

section Undisturbed

variable {p : TunnelPool} {i : Nat} {o : Open}

/-- The pool under a look that is between two tunnels. -/
abbrev looking (p : TunnelPool) (i : Nat) (scan : Scan) : CountedPool :=
  ⟨p, some ⟨i, scan, none⟩, []⟩

/-- The two reads of a tunnel, one after the other. -/
theorem reach_note {scan : Scan} {e : PoolEntry} (h : countedPool.Reach (looking p i scan))
    (he : p.state.lookedAt scan = some e) :
    countedPool.Reach (looking p i (scan.note (p.state.load e))) := by
  have hfirst : (looking p i scan).step .read =
      some ⟨p, some ⟨i, scan, some (p.state.load e).streams⟩, []⟩ := by
    simp [step, act, read, Access.locks, PoolState.loadRead, he]
  have hsecond : CountedPool.step ⟨p, some ⟨i, scan, some (p.state.load e).streams⟩, []⟩ .read =
      some (looking p i (scan.note (p.state.load e))) := by
    simp [step, act, read, Access.locks, PoolState.loadRead, he]
  exact (h.step hfirst).step hsecond

/-- The loads of the pool, listed tunnel by tunnel. -/
theorem reach_listing (h : countedPool.Reach (looking p i (.listing []))) (n : Nat)
    (hn : n ≤ p.state.entries.length) :
    countedPool.Reach (looking p i (.listing ((p.state.entries.take n).map p.state.load))) := by
  induction n with
  | zero => exact h
  | succ n ih =>
    have hlt : n < p.state.entries.length := hn
    have hat : p.state.lookedAt (.listing ((p.state.entries.take n).map p.state.load)) =
        some p.state.entries[n] := by
      simp [PoolState.lookedAt, Nat.min_eq_left (Nat.le_of_lt hlt)]
    have hnext := reach_note (ih (Nat.le_of_lt hlt)) hat
    rwa [Scan.note, ← List.map_singleton, ← List.map_append, List.take_append_getElem hlt] at hnext

/-- The loads of one moment give the order of that moment. -/
theorem orderBy_loads (s : PoolState) : s.orderBy (s.entries.map s.load) = s.order := rfl

/-- What a look answers of a search that has met `overBudget`. -/
def answerOf (found : Option Nat × Option Nat) : Option (Nat × Bool) :=
  match found with
  | (some index, _) => some (index, false)
  | (none, overBudget) => overBudget.map fun index => (index, true)

theorem answerOf_choose (s : PoolState) (tried avoid : List Nat) (ceiling : Nat) :
    answerOf (s.chooseLoop ceiling (s.candidates tried avoid) none) =
      s.choose tried avoid ceiling := by
  unfold PoolState.choose
  match s.chooseLoop ceiling (s.candidates tried avoid) none with
  | (some _, _) => rfl
  | (none, some _) => rfl
  | (none, none) => rfl

/-- The candidates, read one after the other up to the choice. -/
theorem reach_choosing {order : List Nat} (ho : p.opens[i]? = some o) (rest : List Nat)
    (overBudget : Option Nat)
    (h : countedPool.Reach (looking p i (.choosing order rest overBudget))) :
    countedPool.Reach (looking p i
      (.done order (answerOf (p.state.chooseLoop TunnelPool.ceiling rest overBudget)))) := by
  induction rest generalizing overBudget with
  | nil =>
    have hturn : (looking p i (.choosing order [] overBudget)).step .turn =
        some (looking p i (.done order (overBudget.map fun index => (index, true)))) := by
      simp [step, act, turn, Access.locks, ho]
    exact h.step hturn
  | cons index rest ih =>
    rw [PoolState.chooseLoop]
    cases he : p.state.entries[index]? with
    | none =>
      have hturn : (looking p i (.choosing order (index :: rest) overBudget)).step .turn =
          some (looking p i (.choosing order rest overBudget)) := by
        simp [step, act, turn, Access.locks, ho, he]
      simp only [PoolState.loadAt, he, Option.map_none]
      exact ih overBudget (h.step hturn)
    | some e =>
      have hnext := reach_note h (e := e) he
      simp only [PoolState.loadAt, he, Option.map_some]
      rw [Scan.note] at hnext
      split at hnext
      case isTrue hfull =>
        rw [if_pos hfull]
        exact ih overBudget hnext
      case isFalse hfull =>
        rw [if_neg hfull]
        split at hnext
        case isTrue hbudget =>
          rw [if_pos hbudget]
          exact hnext
        case isFalse hbudget =>
          rw [if_neg hbudget]
          exact ih _ hnext

/-- The search does not look at the cursor. -/
theorem chooseLoop_moveCursor (s : PoolState) (ceiling : Nat) (rest : List Nat)
    (overBudget : Option Nat) :
    s.moveCursor.chooseLoop ceiling rest overBudget = s.chooseLoop ceiling rest overBudget := by
  induction rest generalizing overBudget with
  | nil => rfl
  | cons index rest ih =>
    rw [PoolState.chooseLoop, PoolState.chooseLoop, ih, ih]
    rfl

/-- A look up to its answer. -/
theorem reach_choice (h : countedPool.Reach ⟨p, none, []⟩) (ho : p.opens[i]? = some o)
    (hlooks : o.looks = true) :
    countedPool.Reach (looking { p with state := p.state.moveCursor } i
      (.done p.state.order (p.state.choose o.visited o.avoid TunnelPool.ceiling))) := by
  have hbegin : CountedPool.step ⟨p, none, []⟩ (.begin i) = some (looking p i (.listing [])) := by
    simp [step, act, begin, ho, hlooks]
  have hlisted := reach_listing (h.step hbegin) _ (Nat.le_refl _)
  rw [List.take_length] at hlisted
  have hturn : (looking p i (.listing (p.state.entries.map p.state.load))).step .turn =
      some (looking { p with state := p.state.moveCursor } i
        (.choosing p.state.order (p.state.candidates o.visited o.avoid) none)) := by
    simp [step, act, turn, Access.locks, ho, orderBy_loads, PoolState.candidates]
  have hchosen := reach_choosing (p := { p with state := p.state.moveCursor }) ho _ _
    (hlisted.step hturn)
  rwa [chooseLoop_moveCursor, answerOf_choose] at hchosen

/-- A whole look, with what the open makes of it. -/
theorem reach_reserve (h : countedPool.Reach ⟨p, none, []⟩) (ho : p.opens[i]? = some o)
    (hlooks : o.looks = true) :
    countedPool.Reach ⟨match p.state.reserve o.visited o.avoid TunnelPool.ceiling with
      | (s, some r) => { p with
          state := s
          dropped := if o.phase = OpenPhase.second then r.tunnel :: p.dropped
            else p.dropped }.setPhase i o (o.granted r)
      | (s, none) => { p with state := s }.setPhase i o o.denied, none, []⟩ := by
  have hchosen := reach_choice h ho hlooks
  have hentries : p.state.moveCursor.entries = p.state.entries := rfl
  unfold PoolState.reserve
  cases hc : p.state.choose o.visited o.avoid TunnelPool.ceiling with
  | none =>
    rw [hc] at hchosen
    refine hchosen.step (a := .finish) ?_
    simp [countedPool, step, act, finish, deny, Access.locks, ho]
  | some choice =>
    obtain ⟨index, fallback⟩ := choice
    rw [hc] at hchosen
    refine hchosen.step (a := .finish) ?_
    cases he : p.state.entries[index]? with
    | none => simp [countedPool, step, act, finish, deny, Access.locks, ho, hentries, he]
    | some e =>
      simp [countedPool, step, act, finish, grant, Access.locks, ho, hentries, he]
      rfl

/-- An open's own step. -/
theorem reach_proceed {p' : TunnelPool} (h : countedPool.Reach ⟨p, none, []⟩)
    (ho : p.opens[i]? = some o) (hs : p.proceed i o = some p') :
    countedPool.Reach ⟨p', none, []⟩ := by
  have hlook := reach_reserve h ho
  unfold Open.looks Open.visited Open.granted Open.denied at hlook
  unfold TunnelPool.proceed TunnelPool.look TunnelPool.secondLook at hs
  split at hs
  case h_1 hp =>
    cases hs
    simp only [hp, reduceCtorEq, if_false] at hlook
    exact hlook trivial
  case h_2 hp =>
    cases hs
    refine h.step (a := .sizing i) ?_
    simp [countedPool, step, act, sizing, ho, hp]
  case h_3 hp =>
    cases hs
    simp only [hp, if_true] at hlook
    exact hlook trivial
  case h_4 hp =>
    cases hs
    simp only [hp, reduceCtorEq, if_false] at hlook
    exact hlook trivial
  case h_5 tried last hp =>
    cases hs
    simp only [hp, reduceCtorEq, if_false] at hlook
    exact hlook trivial
  case h_6 => cases hs

/-- The two halves of a charge. -/
theorem release_count (c : TunnelCounters) : c.count.release = c.charge := rfl

/-- An answer, and the rest of the charge at once. -/
theorem reach_answer {p' : TunnelPool} {ans : Option ConnectionError}
    (h : countedPool.Reach ⟨p, none, []⟩) (ho : p.opens[i]? = some o)
    (hs : p.answer i o ans = some p') : countedPool.Reach ⟨p', none, []⟩ := by
  unfold TunnelPool.answer at hs
  split at hs
  case h_1 r tried hp =>
    cases hs
    have hcount : CountedPool.step ⟨p, none, []⟩ (.answer i none) = some
        ⟨{ p with
          state := p.state.touch r.tunnel TunnelCounters.count
          leases := r.tunnel :: p.leases }, none, [i]⟩ := by
      simp [step, act, answer, Access.locks, ho, hp]
    refine (h.step hcount).step (a := .settle i) ?_
    simp [countedPool, step, act, settle, Access.locks, ho, hp, TunnelPool.opened, PoolState.touch,
      release_count, TunnelPool.setPhase]
  case h_2 r tried e hp =>
    cases hs
    refine h.step (a := .answer i (some e)) ?_
    simp [countedPool, step, act, answer, Access.locks, ho, hp]
  case h_3 => cases hs

end Undisturbed

/-- **The runs of whole looks and charges are runs of accesses.** -/
theorem reach_accesses {p : TunnelPool} (h : tunnelPool.Reach p) :
    countedPool.Reach ⟨p, none, []⟩ := by
  refine h.invariant (P := fun p => countedPool.Reach ⟨p, none, []⟩) ?_ ?_
  · rintro p ⟨count, rfl⟩
    exact .init ⟨count, rfl⟩
  · rintro p a p' hp hs
    cases a with
    | proceed i =>
      obtain ⟨o, ho, hs⟩ := Option.bind_eq_some_iff.mp hs
      exact reach_proceed hp ho hs
    | answer i ans =>
      obtain ⟨o, ho, hs⟩ := Option.bind_eq_some_iff.mp hs
      exact reach_answer hp ho hs
    | dropLease t =>
      refine hp.step (a := .dropLease t) ?_
      simpa [tunnelPool, countedPool, step, act, Access.locks, TunnelPool.step, unmade,
        List.count_pos_iff] using hs
    | repair carrier =>
      refine hp.step (a := .repair carrier) ?_
      simpa [tunnelPool, countedPool, step, act, TunnelPool.step] using hs
    | spawn ids => cases hs; exact hp.step (a := .spawn ids) rfl
    | die t => cases hs; exact hp.step (a := .die t) rfl
    | reap => cases hs; exact hp.step (a := .reap) rfl
    | drain t => cases hs; exact hp.step (a := .drain t) rfl
    | resume t => cases hs; exact hp.step (a := .resume t) rfl
    | retire t => cases hs; exact hp.step (a := .retire t) rfl
    | probe carrier => cases hs; exact hp.step (a := .probe carrier) rfl

end CountedPool

/-! ## 7. The leak -/

/-- An open of a pool of one tunnel that is answered. -/
def openRun (i : Nat) : List Access :=
  .spawn [] :: lookRun i 1 ++ [.answer i none, .settle i]

/-- A look of open `i` at one tunnel that is read at the ceiling. -/
def fullLook (i : Nat) : List Access := [.begin i, .read, .read, .turn, .read, .read, .turn, .finish]

/-- One tunnel filled to the ceiling by 56 opens, and a 57th that meets the full pool: a lease is
dropped between its first look and its second, and every other lease after it. -/
def leakRun : List Access :=
  .repair .tcp :: (List.range 56).flatMap openRun ++ [.spawn []] ++ fullLook 56 ++
    [.sizing 56, .dropLease 0] ++ lookRun 56 1 ++ fullLook 56 ++ List.replicate 55 (.dropLease 0)

/-- **One second look that finds room leaks.**  Every open is over, every lease is dropped, and
the tunnel is still charged with an open that is in flight nowhere; the open that looked twice
was refused by its own forgotten reservation. -/
theorem counters_leak :
    ∃ p, countedPool.Reach p ∧ (∀ o ∈ p.pool.opens, o.finished = true) ∧ p.pool.leases = [] ∧
      p.pool.inFlight 0 = 0 ∧ (p.pool.state.counters 0).pending = 1 ∧
      p.pool.opens[56]?.map Open.phase = some (.failed .atCapacity) := by
  have hrun : (Lts.runWith CountedPool.step (fun _ _ => true) (CountedPool.new 1) leakRun).any
      (fun p => (∀ o ∈ p.pool.opens, o.finished = true) ∧ p.pool.leases = [] ∧
        p.pool.inFlight 0 = 0 ∧ (p.pool.state.counters 0).pending = 1 ∧
        p.pool.opens[56]?.map Open.phase = some (.failed .atCapacity)) = true := by
    decide +kernel
  obtain ⟨p, hreach, hfacts⟩ :=
    Lts.Reach.exists_run (T := countedPool) (fun _ _ _ hs => hs) ⟨1, rfl⟩ hrun
  exact ⟨p, hreach, of_decide_eq_true hfacts⟩

/-- 55 streams and one open that waits for its answer fill the tunnel: open 56 meets the full pool,
and between its second look's two reads of the tunnel the answer is charged. -/
def leakBetweenReads : List Access :=
  .repair .tcp :: (List.range 55).flatMap openRun ++ [.spawn []] ++ lookRun 55 1 ++ [.spawn []] ++
    fullLook 56 ++ [.sizing 56, .begin 56, .read, .read, .turn, .read, .answer 55 none, .settle 55,
      .read, .finish] ++ fullLook 56 ++ List.replicate 56 (.dropLease 0)

/-- **A tunnel that is full throughout leaks as well**: the second look reads 55 streams before the
answer is charged and no pending open after it. -/
theorem counters_leak_between_reads :
    ∃ p, countedPool.Reach p ∧ (∀ o ∈ p.pool.opens, o.finished = true) ∧ p.pool.leases = [] ∧
      p.pool.inFlight 0 = 0 ∧ (p.pool.state.counters 0).pending = 1 := by
  have hrun : (Lts.runWith CountedPool.step (fun _ _ => true) (CountedPool.new 1)
      leakBetweenReads).any
      (fun p => (∀ o ∈ p.pool.opens, o.finished = true) ∧ p.pool.leases = [] ∧
        p.pool.inFlight 0 = 0 ∧ (p.pool.state.counters 0).pending = 1) = true := by
    decide +kernel
  obtain ⟨p, hreach, hfacts⟩ :=
    Lts.Reach.exists_run (T := countedPool) (fun _ _ _ hs => hs) ⟨1, rfl⟩ hrun
  exact ⟨p, hreach, of_decide_eq_true hfacts⟩

end Molehill.Pool
