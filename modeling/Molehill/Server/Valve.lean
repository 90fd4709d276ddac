/-
# The connection valve

The server's `[server.data].max_tunnels` bounds the carrier connections of all its sessions
together (`TunnelCount`, `LaneValve` and `reserve_tunnel` in `core/server.rs`).  Every tunnel and
every lane of a transparent claim charges one atomic counter: `try_reserve` reads it and exchanges
what it read for one more, and reads again when another opening was faster or the exchange failed
for no reason; the guard it returns travels with the tunnel or the lane and gives the slot back
when it drops, whatever ended the connection.

The openings of all sessions are modelled one by one, each with the point of the code it stands
at, and their steps interleave freely: only the accesses to the counter are atomic.

The result, for every positive cap: the counter is the number of openings that hold a guard, it
never passes the cap, and the read that refuses an opening finds every slot held
(`valve_invariant`).
-/
import Mathlib.Data.List.Basic
import Molehill.Lib.Tally
import Molehill.Lib.Transition

namespace Molehill.Server

open Lib

namespace Valve

/-! ## 1. The state -/

/-- The nonce a session is registered under. -/
abbrev Nonce := Nat

/-- What an opening is to become: a tunnel of a session, or a lane of one of its services. -/
inductive Carrier
  | tunnel (session : Nonce)
  | lane (session : Nonce) (service : Nat)
  deriving DecidableEq

/-- Where an opening stands. -/
inductive Stage
  /-- A tunnel hello that waits for the session map. -/
  | waiting
  /-- In `try_reserve`, before its first read. -/
  | asking
  /-- In `try_reserve`: `held` was read and is under the cap. -/
  | loaded (held : Nat)
  /-- The guard is held, and the ack or the start command is being written. -/
  | starting
  | live
  /-- Failed, ended or aborted, with the guard about to drop. -/
  | closing
  | ended
  /-- Over the cap. -/
  | refused (held : Nat)
  /-- The hello's nonce names no live session. -/
  | noSession
  deriving DecidableEq

structure Opening where
  carrier : Carrier
  stage : Stage
  deriving DecidableEq

/-- One server: its cap, the shared counter, the session map, the transparent services whose
supervisors run, and every opening so far. -/
structure Registry where
  cap : Nat
  tunnels : Nat
  sessions : List Nonce
  services : List (Nonce × Nat)
  openings : List Opening
  deriving DecidableEq

/-- A server that has just started. -/
def Registry.new (cap : Nat) : Registry :=
  { cap := cap, tunnels := 0, sessions := [], services := [], openings := [] }

/-- The number of values of the counter's type. -/
def usize : Nat := 2 ^ 64

/-- The opening owns a guard. -/
def Opening.holds (o : Opening) : Bool :=
  match o.stage with
  | .starting | .live | .closing => true
  | _ => false

/-- The opening is a running tunnel or lane. -/
def Opening.isLive (o : Opening) : Bool := o.stage = .live

/-- The opening is inside `try_reserve`. -/
def Opening.reserving (o : Opening) : Bool :=
  match o.stage with
  | .asking | .loaded _ => true
  | _ => false

/-- The guards that exist. -/
def Registry.held (s : Registry) : Nat := s.openings.countP Opening.holds

/-- The tunnels and lanes that run. -/
def Registry.live (s : Registry) : Nat := s.openings.countP Opening.isLive

/-- What happens next on the server. -/
inductive Event
  /-- A session is registered. -/
  | connect (session : Nonce)
  /-- A session leaves the map. -/
  | disconnect (session : Nonce)
  /-- The supervisor of a transparent service starts. -/
  | serve (session : Nonce) (service : Nat)
  /-- The supervisor returns, and its members are aborted. -/
  | teardown (session : Nonce) (service : Nat)
  /-- A tunnel hello arrives. -/
  | hello (session : Nonce)
  /-- `reserve_tunnel` looks the hello's session up. -/
  | lookup (i : Nat)
  /-- A channel of a transparent service named its lane. -/
  | laneArrives (session : Nonce) (service : Nat)
  /-- The first read of `try_reserve`. -/
  | load (i : Nat)
  /-- `compare_exchange_weak`, which may fail for no reason. -/
  | exchange (i : Nat) (spurious : Bool)
  /-- The ack or the start command went out, or could not. -/
  | start (i : Nat) (ok : Bool)
  /-- The connection's IO ended, or its session did. -/
  | close (i : Nat)
  /-- The guard drops. -/
  | release (i : Nat)
  deriving DecidableEq

/-! ## 2. The step -/

namespace Registry

/-- No tunnel hello is inside `reserve_tunnel` with the session map locked for reading. -/
def unlocked (s : Registry) : Bool :=
  s.openings.all fun o => match o.carrier with
    | .tunnel _ => !o.reserving
    | .lane _ _ => true

/-- The supervisor of the service is not inside `LaneValve::reserve`: it takes one channel at a
time, and reserves without yielding. -/
def supervising (s : Registry) (session : Nonce) (service : Nat) : Bool :=
  s.openings.all fun o => o.carrier ≠ .lane session service || !o.reserving

def setStage (s : Registry) (i : Nat) (o : Opening) (stage : Stage) : Registry :=
  { s with openings := s.openings.set i { o with stage := stage } }

def setTunnels (s : Registry) (n : Nat) : Registry := { s with tunnels := n }

/-- The head of the loop of `try_reserve`, on a value just read from the counter. -/
def check (s : Registry) (held : Nat) : Stage :=
  if s.cap ≠ 0 ∧ s.cap ≤ held then .refused held else .loaded held

/-- Dropping the supervisor's `JoinSet`: every member of the service still running is aborted. -/
def abort (session : Nonce) (service : Nat) (o : Opening) : Opening :=
  if o.carrier = .lane session service ∧ o.holds then { o with stage := .closing } else o

def lookup (s : Registry) (i : Nat) (o : Opening) : Option Registry :=
  match o.carrier, o.stage with
  | .tunnel n, .waiting => some (s.setStage i o (if n ∈ s.sessions then .asking else .noSession))
  | _, _ => none

def load (s : Registry) (i : Nat) (o : Opening) : Option Registry :=
  match o.stage with
  | .asking => some (s.setStage i o (s.check s.tunnels))
  | _ => none

def exchange (s : Registry) (i : Nat) (o : Opening) (spurious : Bool) : Option Registry :=
  match o.stage with
  | .loaded held =>
    if !spurious ∧ s.tunnels = held then
      some ((s.setStage i o .starting).setTunnels ((held + 1) % usize))
    else some (s.setStage i o (s.check s.tunnels))
  | _ => none

def start (s : Registry) (i : Nat) (o : Opening) (ok : Bool) : Option Registry :=
  match o.stage with
  | .starting => some (s.setStage i o (if ok then .live else .closing))
  | _ => none

def close (s : Registry) (i : Nat) (o : Opening) : Option Registry :=
  match o.stage with
  | .live => some (s.setStage i o .closing)
  | _ => none

/-- `TunnelGuard::drop`: the subtraction wraps at zero. -/
def release (s : Registry) (i : Nat) (o : Opening) : Option Registry :=
  match o.stage with
  | .closing =>
    some ((s.setStage i o .ended).setTunnels ((s.tunnels + (usize - 1)) % usize))
  | _ => none

/-- One step. -/
def step (s : Registry) : Event → Option Registry
  | .connect n => if s.unlocked then some { s with sessions := n :: s.sessions } else none
  | .disconnect n =>
    if s.unlocked then some { s with sessions := s.sessions.filter (· ≠ n) } else none
  | .serve n b => some { s with services := (n, b) :: s.services }
  | .teardown n b =>
    if s.supervising n b then
      some { s with
        services := s.services.filter (· ≠ (n, b)), openings := s.openings.map (abort n b) }
    else none
  | .hello n => some { s with openings := s.openings ++ [⟨.tunnel n, .waiting⟩] }
  | .laneArrives n b =>
    if (n, b) ∈ s.services ∧ s.supervising n b then
      some { s with openings := s.openings ++ [⟨.lane n b, .asking⟩] }
    else none
  | .lookup i => s.openings[i]?.bind (s.lookup i)
  | .load i => s.openings[i]?.bind (s.load i)
  | .exchange i spurious => s.openings[i]?.bind (s.exchange i · spurious)
  | .start i ok => s.openings[i]?.bind (s.start i · ok)
  | .close i => s.openings[i]?.bind (s.close i)
  | .release i => s.openings[i]?.bind (s.release i)

end Registry

/-- Every run of one server with this cap. -/
def server (cap : Nat) : Lts Registry Event where
  init s := s = .new cap
  step s a s' := s.step a = some s'

/-! ## 3. What one step can do -/

variable {s s' : Registry} {a : Event}

@[simp] theorem Registry.setStage_cap (s : Registry) (i : Nat) (o : Opening) (stage : Stage) :
    (s.setStage i o stage).cap = s.cap := rfl

@[simp] theorem Registry.setStage_tunnels (s : Registry) (i : Nat) (o : Opening) (stage : Stage) :
    (s.setStage i o stage).tunnels = s.tunnels := rfl

@[simp] theorem Registry.setTunnels_cap (s : Registry) (n : Nat) : (s.setTunnels n).cap = s.cap :=
  rfl

@[simp] theorem Registry.setTunnels_tunnels (s : Registry) (n : Nat) :
    (s.setTunnels n).tunnels = n := rfl

/-- The stages that have nothing to do with what was read from the counter. -/
def Stage.plain (stage : Stage) : Prop := ∀ held, stage ≠ .loaded held ∧ stage ≠ .refused held

/-- An opening moves on without touching the counter: it keeps or lacks its guard as before, and
stands at a stage that follows from a read of the counter or from none. -/
def Quiet (s : Registry) (o : Opening) (stage : Stage) : Prop :=
  Opening.holds { o with stage := stage } = o.holds ∧ (stage = s.check s.tunnels ∨ stage.plain)

theorem check_not_holds (s : Registry) (o : Opening) (held : Nat) :
    Opening.holds { o with stage := s.check held } = false := by
  unfold Registry.check
  split <;> rfl

/-- Everything a step can do to the counter and the openings. -/
theorem step_cases (h : s.step a = some s') :
    s'.cap = s.cap ∧
      ((s'.tunnels = s.tunnels ∧ s'.openings = s.openings) ∨
       (∃ o, s'.tunnels = s.tunnels ∧ s'.openings = s.openings ++ [o] ∧ o.holds = false ∧
          o.stage.plain) ∨
       (∃ n b, s'.tunnels = s.tunnels ∧ s'.openings = s.openings.map (Registry.abort n b)) ∨
       (∃ i o stage, s.openings[i]? = some o ∧ Quiet s o stage ∧ s' = s.setStage i o stage) ∨
       (∃ i o, s.openings[i]? = some o ∧ o.stage = .loaded s.tunnels ∧
          s' = (s.setStage i o .starting).setTunnels ((s.tunnels + 1) % usize)) ∨
       (∃ i o, s.openings[i]? = some o ∧ o.stage = .closing ∧
          s' = (s.setStage i o .ended).setTunnels ((s.tunnels + (usize - 1)) % usize))) := by
  cases a with
  | connect n | disconnect n =>
    simp only [Registry.step, Option.ite_none_right_eq_some, Option.some.injEq] at h
    obtain ⟨-, rfl⟩ := h
    exact ⟨rfl, .inl ⟨rfl, rfl⟩⟩
  | serve n b =>
    simp only [Registry.step, Option.some.injEq] at h
    subst h
    exact ⟨rfl, .inl ⟨rfl, rfl⟩⟩
  | teardown n b =>
    simp only [Registry.step, Option.ite_none_right_eq_some, Option.some.injEq] at h
    obtain ⟨-, rfl⟩ := h
    exact ⟨rfl, .inr (.inr (.inl ⟨n, b, rfl, rfl⟩))⟩
  | hello n =>
    simp only [Registry.step, Option.some.injEq] at h
    subst h
    exact ⟨rfl, .inr (.inl ⟨_, rfl, rfl, rfl, fun held => ⟨nofun, nofun⟩⟩)⟩
  | laneArrives n b =>
    simp only [Registry.step, Option.ite_none_right_eq_some, Option.some.injEq] at h
    obtain ⟨-, rfl⟩ := h
    exact ⟨rfl, .inr (.inl ⟨_, rfl, rfl, rfl, fun held => ⟨nofun, nofun⟩⟩)⟩
  | lookup i =>
    obtain ⟨o, ho, h⟩ := Option.bind_eq_some_iff.mp h
    unfold Registry.lookup at h
    split at h
    case h_1 hs =>
      cases h
      refine ⟨rfl, .inr (.inr (.inr (.inl ⟨i, o, _, ho, ⟨?_, .inr ?_⟩, rfl⟩)))⟩
      · split <;> simp [Opening.holds, hs]
      · split <;> exact fun held => ⟨nofun, nofun⟩
    case h_2 => cases h
  | load i =>
    obtain ⟨o, ho, h⟩ := Option.bind_eq_some_iff.mp h
    unfold Registry.load at h
    split at h
    case h_1 hs =>
      cases h
      refine ⟨rfl, .inr (.inr (.inr (.inl ⟨i, o, _, ho, ⟨?_, .inl rfl⟩, rfl⟩)))⟩
      rw [check_not_holds]
      simp [Opening.holds, hs]
    case h_2 => cases h
  | exchange i spurious =>
    obtain ⟨o, ho, h⟩ := Option.bind_eq_some_iff.mp h
    unfold Registry.exchange at h
    split at h
    case h_1 held hs =>
      split at h
      case isTrue hx =>
        cases h
        obtain ⟨-, rfl⟩ := hx
        exact ⟨rfl, .inr (.inr (.inr (.inr (.inl ⟨i, o, ho, hs, rfl⟩))))⟩
      case isFalse =>
        cases h
        refine ⟨rfl, .inr (.inr (.inr (.inl ⟨i, o, _, ho, ⟨?_, .inl rfl⟩, rfl⟩)))⟩
        rw [check_not_holds]
        simp [Opening.holds, hs]
    case h_2 => cases h
  | start i ok =>
    obtain ⟨o, ho, h⟩ := Option.bind_eq_some_iff.mp h
    unfold Registry.start at h
    split at h
    case h_1 hs =>
      cases h
      refine ⟨rfl, .inr (.inr (.inr (.inl ⟨i, o, _, ho, ⟨?_, .inr ?_⟩, rfl⟩)))⟩
      · split <;> simp [Opening.holds, hs]
      · split <;> exact fun held => ⟨nofun, nofun⟩
    case h_2 => cases h
  | close i =>
    obtain ⟨o, ho, h⟩ := Option.bind_eq_some_iff.mp h
    unfold Registry.close at h
    split at h
    case h_1 hs =>
      cases h
      refine ⟨rfl, .inr (.inr (.inr (.inl ⟨i, o, _, ho, ⟨?_, .inr ?_⟩, rfl⟩)))⟩
      · simp [Opening.holds, hs]
      · exact fun held => ⟨nofun, nofun⟩
    case h_2 => cases h
  | release i =>
    obtain ⟨o, ho, h⟩ := Option.bind_eq_some_iff.mp h
    unfold Registry.release at h
    split at h
    case h_1 hs =>
      cases h
      refine ⟨?_, .inr (.inr (.inr (.inr (.inr ⟨i, o, ho, hs, rfl⟩))))⟩
      rw [Registry.setTunnels_cap, Registry.setStage_cap]
    case h_2 => cases h

/-! ## 4. The counter and the guards -/

/-- The counter is the number of guards, no more than the cap, and every value an opening is about
to exchange is under the cap. -/
structure Balanced (s : Registry) : Prop where
  tunnels : s.tunnels = s.held
  bound : s.tunnels ≤ s.cap
  loaded : ∀ o ∈ s.openings, ∀ held, o.stage = .loaded held → held < s.cap

/-- One opening moves on: the guards gain its new stage and lose its old one. -/
theorem held_setStage {i : Nat} {o : Opening} (ho : s.openings[i]? = some o) (stage : Stage) :
    (s.setStage i o stage).held + o.holds.toNat
      = s.held + (Opening.holds { o with stage := stage }).toNat :=
  countP_set_add ho _

theorem held_setTunnels (s : Registry) (n : Nat) : (s.setTunnels n).held = s.held := rfl

/-- Aborting a lane leaves it its guard until it is dropped. -/
theorem abort_holds (n : Nonce) (b : Nat) (o : Opening) :
    (Registry.abort n b o).holds = o.holds := by
  unfold Registry.abort
  split
  case isTrue h => exact h.2.symm
  case isFalse => rfl

theorem abort_stage (n : Nonce) (b : Nat) (o : Opening) :
    (Registry.abort n b o).stage = o.stage ∨ (Registry.abort n b o).stage = .closing := by
  unfold Registry.abort
  split
  · exact .inr rfl
  · exact .inl rfl

/-- What a read under the cap leaves to exchange is under the cap. -/
theorem check_loaded {held k : Nat} (hcap : 0 < s.cap) (h : s.check held = .loaded k) :
    k < s.cap := by
  unfold Registry.check at h
  split at h
  · cases h
  · cases h
    omega

theorem loaded_setStage (h : Balanced s) {i : Nat} {o : Opening} {stage : Stage}
    (hs : ∀ held, stage = .loaded held → held < s.cap) :
    ∀ o' ∈ (s.setStage i o stage).openings, ∀ held, o'.stage = .loaded held → held < s.cap := by
  intro o' ho' held hl
  rcases List.mem_or_eq_of_mem_set ho' with hold | rfl
  · exact h.loaded o' hold held hl
  · exact hs held hl

/-- The subtraction of a guard that is counted does not wrap. -/
theorem sub_one_mod {n : Nat} (hpos : 0 < n) (hn : n < usize) :
    (n + (usize - 1)) % usize = n - 1 := by
  have hsplit : n + (usize - 1) = n - 1 + usize := by omega
  rw [hsplit, Nat.add_mod_right]
  exact Nat.mod_eq_of_lt (by omega)

/-- **One step** keeps the counter the number of guards. -/
theorem Balanced.step (hcap : 0 < s.cap) (husize : s.cap < usize) (h : Balanced s)
    (hstep : s.step a = some s') : Balanced s' := by
  have heq := h.tunnels
  have hle := h.bound
  obtain ⟨hc, ⟨ht, ho⟩ | ⟨o, ht, ho, hh, hp⟩ | ⟨n, b, ht, ho⟩ | ⟨i, o, stage, ho, hq, rfl⟩ |
    ⟨i, o, ho, hs, rfl⟩ | ⟨i, o, ho, hs, rfl⟩⟩ := step_cases hstep
  · refine ⟨?_, by rw [ht, hc]; exact hle, ?_⟩
    · rw [ht, heq, Registry.held, Registry.held, ho]
    · rw [ho, hc]
      exact h.loaded
  · refine ⟨?_, by rw [ht, hc]; exact hle, ?_⟩
    · simp [ht, heq, Registry.held, ho, hh]
    · rw [ho, hc]
      intro o' ho' held hl
      rcases List.mem_append.mp ho' with hold | hnew
      · exact h.loaded o' hold held hl
      · rw [List.mem_singleton.mp hnew] at hl
        exact absurd hl (hp held).1
  · refine ⟨?_, by rw [ht, hc]; exact hle, ?_⟩
    · have hcomp : Opening.holds ∘ Registry.abort n b = Opening.holds := funext (abort_holds n b)
      rw [ht, heq, Registry.held, Registry.held, ho, List.countP_map, hcomp]
    · rw [ho, hc]
      intro o' ho' held hl
      obtain ⟨o, hold, rfl⟩ := List.mem_map.mp ho'
      rcases abort_stage n b o with hs | hs
      · exact h.loaded o hold held (hs ▸ hl)
      · rw [hs] at hl
        cases hl
  · have hheld := held_setStage ho stage
    rw [hq.1] at hheld
    refine ⟨?_, hle, loaded_setStage h ?_⟩
    · rw [Registry.setStage_tunnels]
      omega
    · intro held hl
      rcases hq.2 with hcheck | hplain
      · exact check_loaded hcap (hcheck.symm.trans hl)
      · exact absurd hl (hplain held).1
  · -- the exchange: what was read is what is there, and it is under the cap
    have hlt : s.tunnels < s.cap := h.loaded o (List.mem_of_getElem? ho) _ hs
    have hheld := held_setStage ho .starting
    have hold : o.holds = false := by simp [Opening.holds, hs]
    have hnew : Opening.holds { o with stage := .starting } = true := rfl
    rw [hold, hnew, Bool.toNat_false, Bool.toNat_true] at hheld
    have hmod : (s.tunnels + 1) % usize = s.tunnels + 1 := Nat.mod_eq_of_lt (by omega)
    rw [hmod]
    refine ⟨?_, hlt, loaded_setStage h (by simp)⟩
    rw [held_setTunnels, Registry.setTunnels_tunnels]
    omega
  · -- the drop: its guard is one of those counted
    have hheld := held_setStage ho .ended
    have hold : o.holds = true := by simp [Opening.holds, hs]
    have hnew : Opening.holds { o with stage := .ended } = false := rfl
    rw [hold, hnew, Bool.toNat_false, Bool.toNat_true] at hheld
    have hpos : 0 < s.tunnels := by omega
    rw [sub_one_mod hpos (hle.trans_lt husize)]
    refine ⟨?_, (Nat.sub_le _ _).trans hle, loaded_setStage h (by simp)⟩
    rw [held_setTunnels, Registry.setTunnels_tunnels]
    omega

/-- The cap is the one the server started with. -/
theorem reach_cap {cap : Nat} (h : (server cap).Reach s) : s.cap = cap := by
  refine h.invariant (P := fun s => s.cap = cap) ?_ ?_
  · rintro s rfl
    rfl
  · intro s a s' hs hstep
    rw [(step_cases hstep).1, hs]

theorem reach_balanced {cap : Nat} (hcap : 0 < cap) (husize : cap < usize)
    (h : (server cap).Reach s) : Balanced s := by
  refine (h.invariant (P := fun s => s.cap = cap ∧ Balanced s) ?_ ?_).2
  · rintro s rfl
    exact ⟨rfl, ⟨rfl, Nat.zero_le _, by simp [Registry.new]⟩⟩
  · rintro s a s' ⟨hc, hb⟩ hstep
    exact ⟨(step_cases hstep).1.trans hc, hb.step (hc ▸ hcap) (hc ▸ husize) hstep⟩

/-! ## 5. Refusals -/

/-- The stage of an opening, once it exists. -/
def Registry.stageOf (s : Registry) (i : Nat) : Option Stage := s.openings[i]?.map Opening.stage

theorem stageOf_setStage {i j : Nat} {o : Opening} {stage : Stage}
    (ho : s.openings[i]? = some o) :
    (s.setStage i o stage).stageOf j = if i = j then some stage else s.stageOf j := by
  obtain ⟨hi, -⟩ := List.getElem?_eq_some_iff.mp ho
  unfold Registry.stageOf Registry.setStage
  by_cases hij : i = j
  · subst hij
    simp [hi]
  · simp [hij]

theorem stageOf_setTunnels (s : Registry) (n i : Nat) :
    (s.setTunnels n).stageOf i = s.stageOf i := rfl

/-- **A refusal.**  The read of the counter that turns an opening away finds the counter at the
cap. -/
theorem refused_step {i held : Nat} (h : Balanced s) (hstep : s.step a = some s')
    (hnew : s'.stageOf i = some (.refused held)) (hold : s.stageOf i ≠ some (.refused held)) :
    held = s.cap ∧ s.held = s.cap := by
  have heq := h.tunnels
  have hle := h.bound
  obtain ⟨-, ⟨-, ho⟩ | ⟨o, -, ho, -, hp⟩ | ⟨n, b, -, ho⟩ | ⟨j, o, stage, ho, hq, rfl⟩ |
    ⟨j, o, ho, -, rfl⟩ | ⟨j, o, ho, -, rfl⟩⟩ := step_cases hstep
  · rw [Registry.stageOf, ho] at hnew
    exact absurd hnew hold
  · rw [Registry.stageOf, ho] at hnew
    rcases Nat.lt_or_ge i s.openings.length with hi | hi
    · rw [List.getElem?_append_left hi] at hnew
      exact absurd hnew hold
    · obtain ⟨o', ho', hst⟩ := Option.map_eq_some_iff.mp hnew
      rw [List.getElem?_append_right hi] at ho'
      have : o' = o := List.mem_singleton.mp (List.mem_of_getElem? ho')
      exact absurd (this ▸ hst) (hp held).2
  · rw [Registry.stageOf, ho, List.getElem?_map, Option.map_map] at hnew
    obtain ⟨o, ho, hst⟩ := Option.map_eq_some_iff.mp hnew
    rcases abort_stage n b o with hs | hs
    · refine absurd ?_ hold
      rw [Registry.stageOf, ho, Option.map_some, ← hs]
      exact congrArg some hst
    · rw [Function.comp_apply, hs] at hst
      cases hst
  · rw [stageOf_setStage ho] at hnew
    split at hnew
    case isTrue =>
      cases hnew
      rcases hq.2 with hcheck | hplain
      · unfold Registry.check at hcheck
        split at hcheck
        case isTrue hc =>
          cases hcheck
          omega
        case isFalse => cases hcheck
      · exact absurd rfl (hplain held).2
    case isFalse => exact absurd hnew hold
  · rw [stageOf_setTunnels, stageOf_setStage ho] at hnew
    split at hnew
    · cases hnew
    · exact absurd hnew hold
  · rw [stageOf_setTunnels, stageOf_setStage ho] at hnew
    split at hnew
    · cases hnew
    · exact absurd hnew hold

theorem live_le_held (s : Registry) : s.live ≤ s.held := by
  refine List.countP_mono_left fun o _ ho => ?_
  have hs : o.stage = .live := of_decide_eq_true ho
  simp [Opening.holds, hs]

/-- A connection that is over gives its slot back by a step of its own, which nothing can hold
up. -/
theorem release_enabled {i : Nat} {o : Opening} (h : Balanced s) (husize : s.cap < usize)
    (ho : s.openings[i]? = some o) (hs : o.stage = .closing) :
    ∃ s', s.step (.release i) = some s' ∧ s'.stageOf i = some .ended ∧
      s'.tunnels + 1 = s.tunnels := by
  have hcounted : 0 < s.held := by
    refine List.countP_pos_iff.mpr ⟨o, List.mem_of_getElem? ho, ?_⟩
    simp [Opening.holds, hs]
  have hpos : 0 < s.tunnels := h.tunnels ▸ hcounted
  refine ⟨(s.setStage i o .ended).setTunnels (s.tunnels - 1), ?_, ?_, ?_⟩
  · rw [Registry.step, ho, Option.bind_some, Registry.release, hs,
      sub_one_mod hpos (h.bound.trans_lt husize)]
  · rw [stageOf_setTunnels, stageOf_setStage ho, if_pos rfl]
  · rw [Registry.setTunnels_tunnels]
    omega

/-- **The valve.**  In every run of a server with a positive cap: the tunnels and lanes that live
are no more than the cap; the counter is the number of openings that were granted a guard and have
not dropped it, so that an opening that ended, failed or was turned away holds no slot; one that is
over drops its guard by a step of its own and takes exactly its slot from the counter; and the read
that refuses an opening is made while all of the cap's slots are held. -/
theorem valve_invariant {cap : Nat} (hcap : 0 < cap) (husize : cap < usize)
    (h : (server cap).Reach s) :
    s.live ≤ cap ∧ s.held ≤ cap ∧ s.tunnels = s.held ∧
      (∀ i o, s.openings[i]? = some o → o.stage = .closing →
        ∃ s', s.step (.release i) = some s' ∧ s'.stageOf i = some .ended ∧
          s'.tunnels + 1 = s.tunnels) ∧
      ∀ a s' i held, s.step a = some s' → s'.stageOf i = some (.refused held) →
        s.stageOf i ≠ some (.refused held) → s.held = cap := by
  have hb := reach_balanced hcap husize h
  have hc := reach_cap h
  have hheld : s.held ≤ cap := hc ▸ hb.tunnels ▸ hb.bound
  refine ⟨(live_le_held s).trans hheld, hheld, hb.tunnels, ?_, ?_⟩
  · intro i o ho hs
    exact release_enabled hb (hc ▸ husize) ho hs
  · intro a s' i held hstep hnew hold
    exact hc ▸ (refused_step hb hstep hnew hold).2

/-- Two hellos of two sessions and a lane on a server with two slots: the exchange of the lane
meets a counter the second hello has moved, and the lane is turned away by what it reads. -/
def threeOpenings : List Event :=
  [.connect 0, .connect 1, .serve 0 7, .hello 0, .hello 1, .lookup 0, .load 0, .exchange 0 true,
    .exchange 0 false, .start 0 true, .lookup 1, .load 1, .laneArrives 0 7, .load 2,
    .exchange 1 false, .start 1 true]

theorem valve_invariant_full :
    ∃ s s', (server 2).Reach s ∧ s.live = 2 ∧ s.step (.exchange 2 false) = some s' ∧
      s'.stageOf 2 = some (.refused 2) ∧ s.held = 2 := by
  have hrun : (Lts.runWith Registry.step (fun _ _ => true) (.new 2) threeOpenings).any
      (fun s => decide (s.live = 2 ∧ s.stageOf 2 ≠ some (.refused 2) ∧
        (s.step (.exchange 2 false)).any fun s' => s'.stageOf 2 = some (.refused 2))) = true := by
    decide +kernel
  obtain ⟨s, hs, hend⟩ := Lts.Reach.exists_run (T := server 2) (fun _ _ _ h => h) rfl hrun
  obtain ⟨hlive, hold, hnext⟩ := of_decide_eq_true hend
  obtain ⟨s', hs', href⟩ := (Option.any_eq_true ..).mp hnext
  have hnew := of_decide_eq_true href
  have hvalve := valve_invariant (by decide) (by unfold usize; decide) hs
  exact ⟨s, s', hs, hlive, hs', hnew, hvalve.2.2.2.2 _ s' 2 2 hs' hnew hold⟩

end Valve

end Molehill.Server
