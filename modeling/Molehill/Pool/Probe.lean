/-
# The carrier a probe tests

The pool's carrier rule (`carrier_rule_step`, `transport/multiplex.rs`) does not move the pool on a
suspicion.  It hands one tunnel to the other carrier (`probe_step`), compares what the two carry,
and then moves the pool (`Move`) or hands the tunnel back (`Revert`).  "The probe rides the carrier
the pool is NOT on", the code says, and takes the other one of `shared.carrier`, the carrier the
pool was made with.  The endpoint's choice is what dials follow and what a move changes; the
pool's own record never changes.  So after a move the next probe tests the carrier that is already
in use (`probe_of_preferred`), and reverts go to the carrier that was left.

A revert also does not look at whether its handover began, and a probe that outlives its budget
locks the mutex that it holds, and is never given back.  In every run in which a probe starts
only while the choice is on the pool's own carrier, and a probe is given back in time and while a
handover can begin, each probe tests the carrier that is not preferred and each revert hands its
tunnel back to the one that was (`probes_directed`).
-/
import Molehill.Pool.CarrierChoice
import Molehill.Pool.Handover
import Molehill.Pool.Locks

namespace Molehill.Pool

open Lib

/-! ## 1. The rule -/

/-- `ProbeVerdict`, on the bytes that were carried. -/
inductive ProbeVerdict
  | move
  | revert
  | hold
  deriving DecidableEq

namespace CarrierPool

variable (s : CarrierPool)

/-- Whether `begin_handover` begins one. -/
def canBegin (source target : Carrier) : Bool :=
  source ≠ target && s.handover.isNone &&
    1 < s.entries.countP (fun e => e.phase = .serving) && (s.drainable source none).isSome

/-- `probe_tunnel_of`: the one serving tunnel of the carrier. -/
def probeTunnelOf (probed : Carrier) : Option Nat :=
  match s.entries.filter fun e => e.phase = .serving ∧ e.carrier = probed with
  | [e] => some e.tunnel
  | _ => none

end CarrierPool

/-- `ProbeState::active`; `before` is the carrier that was preferred when the probe started, which
no step reads. -/
structure ActiveProbe where
  probed : Carrier
  started : Nat
  before : Carrier
  deriving DecidableEq

/-- What is noted of the probes: one starts, with the carrier preferred then; one is given back,
with its tunnel and the handover that begins. -/
inductive ProbeNote
  | started (probed preferred : Carrier)
  | gaveBack (probed before : Carrier) (tunnel : Option Nat) (handed : Option PoolHandover)
  deriving DecidableEq

/-- A pool with its rule, and the endpoint's choice.  `carrier` is `shared.carrier`; `hung`: the
maintenance task waits for the mutex it holds. -/
structure RuledPool where
  build : Build
  carrier : Carrier
  pool : CarrierPool
  choice : CarrierChoice
  active : Option ActiveProbe
  backoffUntil : Option Nat
  streak : Nat
  now : Nat
  hung : Bool
  log : List ProbeNote

/-- `CARRIER_RULE_CONFIRM_TICKS`. -/
def confirmTicks : Nat := 3

namespace RuledPool

/-- A pool that was made with the carrier. -/
def new (build : Build) (carrier : Carrier) (tunnels established : Nat) (choice : CarrierChoice)
    (now : Nat) : RuledPool :=
  ⟨build, carrier, .new carrier tunnels established, choice, none, none, 0, now, false, []⟩

variable (s : RuledPool)

/-- The active probe, which placement looks up too. -/
def setActive (active : Option ActiveProbe) : RuledPool :=
  { s with active := active, pool.state.probe := active.map ActiveProbe.probed }

/-- `begin_handover`. -/
def beginHandover (source target : Carrier) : RuledPool :=
  { s with pool := s.pool.beginHandoverOn source target none }

/-- Whether `probe_step` waits for its backoff. -/
def backedOff : Bool := s.backoffUntil.any fun t => s.now < t

/-- `probe_step`. -/
def probeStep : RuledPool × Bool :=
  if s.active.isSome then (s, true)
  else if s.backedOff then (s, false)
  else
    let probed := s.carrier.other
    if s.pool.canBegin s.carrier probed then
      ({ (s.beginHandover s.carrier probed).setActive (some ⟨probed, s.now, s.choice.chosen⟩) with
         log := s.log ++ [.started probed s.choice.chosen] }, true)
    else (s, false)

/-- A verdict `Move`. -/
def move (probed : Carrier) : RuledPool :=
  let s := s.setActive none
  match s.choice.prefer s.build s.now probed with
  | (choice, true) => { s.beginHandover s.carrier probed with choice := choice }
  | (_, false) => s

/-- A verdict `Revert`: whether the handover begins is not looked at. -/
def revert (p : ActiveProbe) (tunnel : Nat) : RuledPool :=
  let handed := (s.pool.beginHandoverOn p.probed s.carrier none).handover
  let begins := s.pool.canBegin p.probed s.carrier
  { (s.setActive none).beginHandover p.probed s.carrier with
    backoffUntil := some (s.now + probeBackoff)
    log := s.log ++ [.gaveBack p.probed p.before (some tunnel) (if begins then handed else none)] }

/-- `probe_judge`, on a window: what the comparison says, if the probe carried enough. -/
def judge (reading : Option ProbeVerdict) : RuledPool :=
  match s.active with
  | none => s
  | some p =>
    -- the expired branch locks the probe's mutex again, and never gets to the handover
    if probeMax < s.now - p.started then
      { s with hung := true, log := s.log ++ [.gaveBack p.probed p.before none none] }
    else
      match s.pool.probeTunnelOf p.probed, reading with
      | some _, some .move => s.move p.probed
      | some tunnel, some .revert => s.revert p tunnel
      | _, _ => s

/-- The move that a confirmed verdict earns when no probe can start. -/
def moveConvicted (tunnel : Nat) : RuledPool :=
  match s.choice.prefer s.build s.now .tcp with
  | (choice, true) =>
    { s with choice := choice, pool := s.pool.beginHandoverOn .kcp .tcp (some tunnel) }
  | (_, false) => s

/-- The rest of `carrier_rule_step`: the tunnel that the window convicts, and whether a tunnel's
share is suspicious. -/
def decide (convicted : Option Nat) (suspicion : Bool) : RuledPool :=
  match convicted with
  | none =>
    if suspicion then
      match s.probeStep with
      | (s, true) => s
      | (s, false) => { s with streak := 0 }
    else { s with streak := 0 }
  | some tunnel =>
    if s.streak + 1 < confirmTicks then { s with streak := s.streak + 1 }
    else
      match { s with streak := 0 }.probeStep with
      | (s, true) => s
      | (s, false) => s.moveConvicted tunnel

end RuledPool

/-! ## 2. Its runs -/

inductive RuleEvent
  | judge (reading : Option ProbeVerdict)
  | decide (convicted : Option Nat) (suspicion : Bool)
  /-- Anything else that happens to the pool. -/
  | pool (e : MoveEvent)
  /-- A dial of the endpoint, or another rule, changes the choice. -/
  | choice (call : Call)
  | wait (ms : Nat)

namespace RuledPool

/-- What a call of another task does to the choice. -/
def calls (s : RuledPool) : Call → CarrierChoice
  | .prefer carrier => (s.choice.prefer s.build s.now carrier).1
  | .fellBack => (s.choice.onKcpFailure s.build s.now).1
  | .reachedKcp => s.choice.reachedKcp s.now
  | .tryKcp => s.choice

/-- A step.  The rule runs in the task that looks at the handover, and not under a forced carrier;
only it sets the probe. -/
def step (s : RuledPool) : RuleEvent → Option RuledPool
  | .judge reading =>
    if s.hung ∨ s.build.forced.isSome ∨ s.pool.look ≠ .done then none else some (s.judge reading)
  | .decide convicted suspicion =>
    if s.hung ∨ s.build.forced.isSome ∨ s.pool.look ≠ .done then none
    else some (s.decide convicted suspicion)
  | .pool (.probe _) => none
  | .pool e => (s.pool.step e).map fun pool => { s with pool := pool }
  | .choice call => some { s with choice := s.calls call }
  | .wait ms => some { s with now := s.now + ms }

/-- Whether the window leads to `probe_step`. -/
def suspects (s : RuledPool) (convicted : Option Nat) (suspicion : Bool) : Bool :=
  match convicted with
  | none => suspicion
  | some _ => confirmTicks ≤ s.streak + 1

/-- Whether the step keeps to the direction: a probe starts only while the choice is on the pool's
own carrier; and a probe is looked at within its budget, and given back only when a handover can
begin. -/
def keepsDirection (s : RuledPool) : RuleEvent → Bool
  | .judge reading => s.active.all fun p => s.now - p.started ≤ probeMax &&
      (reading ≠ some .revert || (s.pool.probeTunnelOf p.probed).isNone ||
        s.pool.canBegin p.probed s.carrier)
  | .decide convicted suspicion => !s.suspects convicted suspicion || s.active.isSome ||
      s.backedOff || !s.pool.canBegin s.carrier s.carrier.other || s.choice.chosen = s.carrier
  | _ => true

end RuledPool

/-- The runs of a pool with its rule. -/
def ruledPool : Lts RuledPool RuleEvent where
  init s := ∃ build carrier tunnels established choice now, established ≤ tunnels ∧
    s = .new build carrier tunnels established choice now
  step s e s' := s.step e = some s'

/-- **What is promised** of the probes: one that starts tests the carrier that is not preferred, and
one that is given back has its tunnel handed to the carrier that was preferred before. -/
def ProbeNote.Directed : ProbeNote → Prop
  | .started probed preferred => probed ≠ preferred
  | .gaveBack probed before tunnel handed =>
    ∃ t, tunnel = some t ∧ handed = some ⟨t, before, .draining, probed⟩

/-! ## 3. One step -/

theorem Carrier.other_ne (c : Carrier) : c.other ≠ c := by
  cases c <;> decide

namespace CarrierPool

variable {s : CarrierPool} {source target : Carrier}

/-- A handover that begins drains the probe's tunnel, if the probe has one. -/
theorem handover_of_canBegin (h : s.canBegin source target = true) {t : Nat}
    (ht : s.probeTunnelOf source = some t) :
    (s.beginHandoverOn source target none).handover = some ⟨t, target, .draining, source⟩ := by
  rw [canBegin, Bool.and_eq_true, Bool.and_eq_true, Bool.and_eq_true, decide_eq_true_eq,
    decide_eq_true_eq, Option.isNone_iff_eq_none] at h
  obtain ⟨⟨⟨hne, hnone⟩, hserving⟩, hsome⟩ := h
  obtain ⟨e, he⟩ := Option.isSome_iff_exists.mp hsome
  obtain ⟨hmem, hphase, hcarrier, -⟩ := drainable_spec he
  -- the tunnel that drains is a serving one of the carrier, and there is one only
  have htunnel : e.tunnel = t := by
    have hcandidate : e ∈ s.entries.filter fun e => e.phase = .serving ∧ e.carrier = source :=
      List.mem_filter.mpr ⟨hmem, decide_eq_true ⟨hphase, hcarrier⟩⟩
    unfold probeTunnelOf at ht
    split at ht
    case h_1 e' hone =>
      rw [hone, List.mem_singleton] at hcandidate
      rw [hcandidate]
      exact Option.some.inj ht
    case h_2 => cases ht
  unfold beginHandoverOn
  rw [if_neg, he]
  · dsimp only
    rw [htunnel]
  · rintro (heq | hbusy | hfew)
    · exact hne heq
    · rw [hnone] at hbusy
      cases hbusy
    · omega

end CarrierPool

namespace RuledPool

variable {s s' : RuledPool}

/-- **What holds between the steps**: the active probe tests the other carrier than the pool's own,
which was preferred when it started. -/
structure Aimed (s : RuledPool) : Prop where
  active : ∀ p, s.active = some p → p.probed = s.carrier.other ∧ p.before = s.carrier
  log : ∀ note ∈ s.log, note.Directed

theorem Aimed.same (h : s.Aimed) (hcarrier : s'.carrier = s.carrier)
    (hactive : s'.active = s.active) (hlog : s'.log = s.log) : s'.Aimed := by
  constructor
  · rw [hactive, hcarrier]
    exact h.active
  · rw [hlog]
    exact h.log

/-- No probe is active any more. -/
theorem Aimed.over (h : s.Aimed) (hactive : s'.active = none) (hlog : s'.log = s.log) :
    s'.Aimed := by
  constructor
  · intro p hp
    rw [hactive] at hp
    cases hp
  · rw [hlog]
    exact h.log

theorem Aimed.noted (h : s.Aimed) {note : ProbeNote} (hnote : note.Directed) :
    ∀ x ∈ s.log ++ [note], x.Directed := by
  intro x hx
  rcases List.mem_append.mp hx with hx | hx
  · exact h.log x hx
  · rw [List.mem_singleton.mp hx]
    exact hnote

theorem Aimed.move (h : s.Aimed) (probed : Carrier) : (s.move probed).Aimed := by
  unfold RuledPool.move
  dsimp only
  split <;> exact h.over rfl rfl

/-- The tunnel is handed back to the pool's own carrier. -/
theorem Aimed.revert (h : s.Aimed) {p : ActiveProbe} {tunnel : Nat} (hp : s.active = some p)
    (htunnel : s.pool.probeTunnelOf p.probed = some tunnel)
    (hbegins : s.pool.canBegin p.probed s.carrier = true) : (s.revert p tunnel).Aimed := by
  have hnote : ProbeNote.Directed (.gaveBack p.probed p.before (some tunnel)
      (if s.pool.canBegin p.probed s.carrier then
        (s.pool.beginHandoverOn p.probed s.carrier none).handover else none)) := by
    rw [if_pos hbegins, CarrierPool.handover_of_canBegin hbegins htunnel, (h.active p hp).2]
    exact ⟨tunnel, rfl, rfl⟩
  exact ⟨nofun, h.noted hnote⟩

theorem Aimed.judge (h : s.Aimed) {reading : Option ProbeVerdict}
    (hok : s.keepsDirection (.judge reading) = true) : (s.judge reading).Aimed := by
  unfold RuledPool.judge
  split
  case h_1 => exact h
  case h_2 p hp =>
    rw [keepsDirection, hp, Option.all_some, Bool.and_eq_true, decide_eq_true_eq] at hok
    rw [if_neg (Nat.not_lt.mpr hok.1)]
    split
    case h_1 => exact h.move p.probed
    case h_2 tunnel htunnel =>
      refine h.revert hp htunnel ?_
      have hcan := hok.2
      rw [htunnel] at hcan
      simpa using hcan
    case h_3 => exact h

/-- A probe starts, if at all, while the pool's own carrier is preferred. -/
theorem Aimed.probeStep (h : s.Aimed) (hok : s.active = none → s.backedOff = false →
    s.pool.canBegin s.carrier s.carrier.other = true → s.choice.chosen = s.carrier) :
    s.probeStep.1.Aimed := by
  unfold RuledPool.probeStep
  split
  case isTrue => exact h
  case isFalse hactive =>
    split
    case isTrue => exact h
    case isFalse hback =>
      dsimp only
      split
      case isTrue hbegins =>
        have hnone : s.active = none := by simpa using hactive
        have hchosen := hok hnone (by simpa using hback) hbegins
        constructor
        · intro p hp
          cases hp
          exact ⟨rfl, hchosen⟩
        · refine h.noted ?_
          rw [hchosen]
          exact s.carrier.other_ne
      case isFalse => exact h

theorem Aimed.moveConvicted (h : s.Aimed) (tunnel : Nat) : (s.moveConvicted tunnel).Aimed := by
  unfold RuledPool.moveConvicted
  split
  case h_1 => exact h.same rfl rfl rfl
  case h_2 => exact h

theorem Aimed.decide (h : s.Aimed) {convicted : Option Nat} {suspicion : Bool}
    (hok : s.keepsDirection (.decide convicted suspicion) = true) :
    (s.decide convicted suspicion).Aimed := by
  have hchosen : s.suspects convicted suspicion = true → s.active = none → s.backedOff = false →
      s.pool.canBegin s.carrier s.carrier.other = true → s.choice.chosen = s.carrier := by
    intro hsuspects hactive hback hbegins
    rw [keepsDirection, hsuspects, hactive, hback, hbegins] at hok
    simpa using hok
  unfold RuledPool.decide
  split
  case h_1 =>
    split
    case isTrue hsuspicion =>
      have hprobe := h.probeStep (hchosen hsuspicion)
      split
      case h_1 s1 heq =>
        rw [heq] at hprobe
        exact hprobe
      case h_2 s1 heq =>
        rw [heq] at hprobe
        exact hprobe.same rfl rfl rfl
    case isFalse => exact h.same rfl rfl rfl
  case h_2 tunnel =>
    split
    case isTrue => exact h.same rfl rfl rfl
    case isFalse hconfirmed =>
      have hreset : Aimed { s with streak := 0 } := h.same rfl rfl rfl
      have hprobe := hreset.probeStep (hchosen (decide_eq_true (Nat.not_lt.mp hconfirmed)))
      split
      case h_1 s1 heq =>
        rw [heq] at hprobe
        exact hprobe
      case h_2 s1 heq =>
        rw [heq] at hprobe
        exact hprobe.moveConvicted tunnel

/-- **One step** that keeps to the direction. -/
theorem Aimed.step {e : RuleEvent} (h : s.Aimed) (hok : s.keepsDirection e = true)
    (hs : s.step e = some s') : s'.Aimed := by
  cases e with
  | judge reading =>
    simp only [RuledPool.step] at hs
    split at hs
    case isTrue => cases hs
    case isFalse =>
      cases hs
      exact h.judge hok
  | decide convicted suspicion =>
    simp only [RuledPool.step] at hs
    split at hs
    case isTrue => cases hs
    case isFalse =>
      cases hs
      exact h.decide hok
  | pool e =>
    cases e with
    | probe carrier => cases hs
    | _ =>
      simp only [RuledPool.step, Option.map_eq_some_iff] at hs
      obtain ⟨pool, -, rfl⟩ := hs
      exact h.same rfl rfl rfl
  | choice call =>
    cases hs
    exact h.same rfl rfl rfl
  | wait ms =>
    cases hs
    exact h.same rfl rfl rfl

end RuledPool

/-- **Probes are directed** in every run in which a probe starts only while the choice is on the
carrier that the pool was made with, and is looked at within its budget and given back while a
handover can begin. -/
theorem probes_directed {s : RuledPool}
    (h : (ruledPool.restrict fun s e => s.keepsDirection e = true).Reach s) :
    ∀ note ∈ s.log, note.Directed := by
  refine (h.invariant (P := RuledPool.Aimed) ?_ ?_).log
  · rintro s ⟨build, carrier, tunnels, established, choice, now, -, rfl⟩
    exact ⟨nofun, nofun⟩
  · rintro s e s' hinv ⟨hok, hs⟩
    exact hinv.step hok hs

/-- The handover that has begun drains its empty tunnel, and the repair dials another. -/
def handedOver (carrier : Carrier) : List RuleEvent :=
  [.pool (.handover false), .pool .read, .pool .read, .pool .read, .pool .finish,
    .pool (.grow carrier), .pool (.dialed true)]

/-- A probe that comes back, and the one after it. -/
def probedTwice : List RuleEvent :=
  [.judge none, .decide none true] ++ handedOver .kcp ++ [.wait 1000, .judge (some .revert)] ++
    handedOver .kcp ++ [.wait 600000, .decide none true]

theorem probes_directed_probedTwice :
    ∃ s, (ruledPool.restrict fun s e => s.keepsDirection e = true).Reach s ∧
      s.log = [.started .tcp .kcp, .gaveBack .tcp .kcp (some 3) (some ⟨3, .kcp, .draining, .tcp⟩),
        .started .tcp .kcp] ∧ ∀ note ∈ s.log, note.Directed := by
  let first : RuledPool := .new ⟨none, true⟩ .kcp 3 3 (.new ⟨none, true⟩) 0
  have hrun : (Lts.runWith RuledPool.step RuledPool.keepsDirection first probedTwice).any (fun s =>
      s.log = [.started .tcp .kcp, .gaveBack .tcp .kcp (some 3) (some ⟨3, .kcp, .draining, .tcp⟩),
        .started .tcp .kcp]) = true := by
    decide +kernel
  have hinit : ruledPool.init first := ⟨_, _, 3, 3, _, 0, Nat.le_refl 3, rfl⟩
  obtain ⟨s, hreach, hs⟩ := Lts.Reach.exists_runWith (T := ruledPool)
    (C := fun s e => s.keepsDirection e = true) (fun _ _ _ h => h) (fun _ _ h => h) hinit hrun
  exact ⟨s, hreach, of_decide_eq_true hs, probes_directed hreach⟩

/-- A probe whose carrier carries more, so that the pool moves; and the probe after the move. -/
def movedOnce : List RuleEvent :=
  [.decide none true] ++ handedOver .kcp ++ [.wait 1000, .judge (some .move)] ++
    handedOver .tcp ++ [.wait 1000, .decide none true]

/-- **A probe of the carrier in use**: the pool has moved to TCP, and the next probe tests TCP. -/
theorem probe_of_preferred :
    ∃ s, ruledPool.Reach s ∧ s.choice.chosen = .tcp ∧
      s.log = [.started .tcp .kcp, .started .tcp .tcp] ∧ ¬ ∀ note ∈ s.log, note.Directed := by
  let first : RuledPool := .new ⟨none, true⟩ .kcp 3 3 (.new ⟨none, true⟩) 0
  have hrun : (Lts.runWith RuledPool.step (fun _ _ => true) first movedOnce).any (fun s =>
      s.choice.chosen = .tcp ∧ s.log = [.started .tcp .kcp, .started .tcp .tcp]) = true := by
    decide +kernel
  have hinit : ruledPool.init first := ⟨_, _, 3, 3, _, 0, Nat.le_refl 3, rfl⟩
  obtain ⟨s, hreach, hs⟩ := Lts.Reach.exists_run (T := ruledPool) (fun _ _ _ h => h) hinit hrun
  obtain ⟨hchosen, hlog⟩ := of_decide_eq_true hs
  refine ⟨s, hreach, hchosen, hlog, fun hall => ?_⟩
  have hmem : ProbeNote.started .tcp .tcp ∈ s.log := by
    rw [hlog]
    exact List.mem_cons_of_mem _ (List.mem_singleton_self _)
  exact hall _ hmem rfl

end Molehill.Pool
