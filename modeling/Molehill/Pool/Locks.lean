/-
# The tunnel pool: its two mutexes

Every pool method as the acquisitions and releases of the `state` and the `probe` mutex it
performs, a guard living to the end of its scope: the opens (`open_avoiding` with `reserve` and
the fall-through of `complete`, and the cold start's `grow`) and the maintenance tick (`maintain`
with `carrier_rule_step`, `probe_judge`, `probe_step`, `handover_step`, `repair`).  Branches on
the probe's own fields, which the `probe` mutex guards, are taken as the code takes them;
everything else a branch depends on is a free choice.  Clock values are milliseconds.

Two things go wrong (`pool_gets_stuck`).  `probe_judge` finds its probe expired and asks for the
`probe` mutex it holds.  And `reserve` asks for `probe` under `state`, while `probe_step` asks for
`state` (in `begin_handover_on`) under `probe`: an open and a tick that are inside these two
sections at the same time wait for each other.  In every run that avoids the two, nobody is ever
stuck (`pool_never_stuck`).
-/
import Molehill.Pool.Placement
import Molehill.Lib.LockProgram
import Molehill.Lib.Transition

namespace Molehill.Pool

open Lib Function

/-! ## 1. The methods -/

inductive Lock
  | state
  | probe
  deriving DecidableEq

/-- The branches on the probe's fields: in `probe_judge`, in `probe_step`, and where a verdict
is concluded. -/
inductive Site
  | judge
  | probeStep
  | conclude
  | expired
  deriving DecidableEq

/-- The carrier rule's probe with the clock, and the carrier the pool was made with. -/
structure Probe where
  carrier : Carrier
  active : Option (Carrier × Nat)
  backoffUntil : Option Nat
  now : Nat

abbrev Code := Prog Lock Probe Site

/-- `CARRIER_RULE_PROBE_MAX`. -/
def probeMax : Nat := 30000

/-- `CARRIER_RULE_PROBE_BACKOFF`. -/
def probeBackoff : Nat := 600000

def Carrier.other : Carrier → Carrier
  | .kcp => .tcp
  | .tcp => .kcp

/-- A statement or function that holds `state` and nothing else: `size`, `indices_of`,
`report_saturation`, `health_sample`, `probe_tunnel_of`, `reap_dead`, `handover_step` and the
sections of `grow_locked`. -/
def briefState (k : Code) : Code := Prog.briefly .state k

/-- `begin_handover_on`: nothing to do between equal carriers, otherwise under `state`. -/
def beginHandover (source target : Carrier) (k : Bool → Code) : Code :=
  if source = target then k false else .lock .state (.choose fun b => .unlock .state (k b))

/-- `reserve`: the probe is looked up under `state`. -/
def reserveLocks (k : Bool → Code) : Code :=
  .lock .state (.lock .probe (.unlock .probe (.choose fun b => .unlock .state (k b))))

/-- `probe_conclude`. -/
def probeConclude (probed : Carrier) (k : Bool → Code) : Code :=
  .lock .probe (.read .conclude fun p =>
    if p.active.map Prod.fst = some probed then
      .write (fun p => { p with active := none }) (.unlock .probe (k true))
    else .unlock .probe (k false))

/-- `probe_step`. -/
def probeStep (k : Bool → Code) : Code :=
  .lock .probe (.read .probeStep fun p =>
    if p.active.isSome then .unlock .probe (k true)
    else if p.backoffUntil.any (p.now < ·) then .unlock .probe (k false)
    else beginHandover p.carrier p.carrier.other fun begun =>
      if begun then
        .write (fun p => { p with active := some (p.carrier.other, p.now) })
          (.unlock .probe (k true))
      else .unlock .probe (k false))

/-- The expired branch of `probe_judge`: a second guard, and the first one lives on. -/
def probeExpired (carrier probed : Carrier) (k : Code) : Code :=
  .lock .probe (.read .expired fun p =>
    if p.active.isSome then
      .write (fun p => { p with active := none, backoffUntil := some (p.now + probeBackoff) })
        (.unlock .probe (beginHandover probed carrier fun _ => .unlock .probe k))
    else .unlock .probe (.unlock .probe k))

/-- The verdict on a probe whose tunnel carried material traffic. -/
def probeVerdict (carrier probed : Carrier) (k : Code) : Code :=
  .choose fun hold =>
    if hold then k
    else .choose fun move =>
      probeConclude probed fun concluded =>
        if concluded then
          if move then .choose fun switched =>
            if switched then beginHandover carrier probed fun _ => k else k
          else .lock .probe
            (.write (fun p => { p with backoffUntil := some (p.now + probeBackoff) })
              (.unlock .probe (beginHandover probed carrier fun _ => k)))
        else k

/-- `probe_judge`. -/
def probeJudge (k : Code) : Code :=
  .lock .probe (.read .judge fun p =>
    match p.active with
    | some (probed, started) =>
      if p.now - started ≤ probeMax then
        .unlock .probe (briefState (.choose fun found =>
          if found then probeVerdict p.carrier probed k else k))
      else probeExpired p.carrier probed k
    | none => .unlock .probe k)

/-- The end of `carrier_rule_step`: a confirmed verdict earns a probe, or the move. -/
def confirmedMove (k : Code) : Code :=
  probeStep fun probing =>
    if probing then k
    else .choose fun switched => if switched then beginHandover .kcp .tcp fun _ => k else k

/-- `carrier_rule_step`. -/
def carrierRuleStep (k : Code) : Code :=
  .choose fun due =>
    if due then briefState (.choose fun baseline =>
      if baseline then k
      else probeJudge (.choose fun verdict =>
        if verdict then .choose fun confirmed => if confirmed then confirmedMove k else k
        else .choose fun suspicion => if suspicion then probeStep fun _ => k else k))
    else k

/-- `diagnostic_handover`. -/
def diagnosticHandover (k : Code) : Code :=
  .choose fun due =>
    if due then briefState (.choose fun serving => .choose fun kcp =>
      if serving then
        beginHandover (if kcp then .kcp else .tcp) (if kcp then .tcp else .kcp) fun _ => k
      else k)
    else k

/-- `grow` with `grow_locked`. -/
def grow (k : Code) : Code :=
  .choose fun resizing =>
    if resizing then k
    else .choose fun dialer =>
      if dialer then briefState (.choose fun short =>
        if short then briefState (.choose fun dialed => if dialed then briefState k else k)
        else k)
      else k

/-- `repair`. -/
def repair (k : Code) : Code :=
  briefState (.choose fun short => if short then grow k else k)

/-- `maintain`: the two rules, `reap_dead`, `handover_step`, and the repair. -/
def maintain : Code :=
  diagnosticHandover (carrierRuleStep (briefState (briefState (repair .done))))

/-- `complete`: `open_stream`, and up to `attempts` turns of the fall-through loop. -/
def complete : Nat → Code
  | 0 => .done
  | attempts + 1 => .choose fun answered =>
      if answered then .done
      else reserveLocks fun got => if got then complete attempts else .done

/-- The size checks of `await_growth`. -/
def awaitGrowth : Nat → Code → Code
  | 0, k => k
  | looks + 1, k => briefState (awaitGrowth looks k)

/-- `open_avoiding` from its first look on: three looks, and two reports of a failure. -/
def openPlaced (attempts : Nat) : Code :=
  reserveLocks fun got =>
    if got then complete attempts
    else briefState (.choose fun empty =>
      if empty then .done
      else reserveLocks fun _ => reserveLocks fun got =>
        if got then complete attempts
        else briefState (.choose fun handover => if handover then .done else briefState .done))

/-- `indices_of`, which needs the pool for a stripe only, and the rest of the open. -/
def openAvoided (attempts : Nat) : Code :=
  .choose fun stripe =>
    if stripe then briefState (openPlaced attempts) else openPlaced attempts

/-- `open_avoiding`, with the turns its two loops make. -/
def openAvoiding (looks attempts : Nat) : Code :=
  briefState (.choose fun cold =>
    if cold then grow (awaitGrowth looks (openAvoided attempts)) else openAvoided attempts)

/-! ## 2. The system -/

/-- The maintenance task, or one of the opens. -/
inductive Task
  | tick
  | opener (i : Nat)
  deriving DecidableEq

abbrev Locks := Machine Task Lock Probe Site

/-- A task begins its next run, takes a step, or the clock moves. -/
inductive LockLabel
  | maintain
  | openAvoiding (i looks attempts : Nat)
  | step (t : Task) (b : Bool)
  | clock (ms : Nat)
  deriving DecidableEq

/-- Begin a run, if the last one is over. -/
def begin (m : Locks) (t : Task) (code : Code) : Option Locks :=
  match m.prog t with
  | .done => some { m with prog := update m.prog t code }
  | _ => none

def lockStep (m : Locks) : LockLabel → Option Locks
  | .maintain => begin m .tick maintain
  | .openAvoiding i looks attempts => begin m (.opener i) (openAvoiding looks attempts)
  | .step t b => m.step t b
  | .clock ms => some { m with data := { m.data with now := m.data.now + ms } }

/-- A pool of tunnels on `carrier`, with nobody at work. -/
def idleLocks (carrier : Carrier) : Locks :=
  ⟨fun _ => none, ⟨carrier, none, none, 0⟩, fun _ => .done⟩

/-- **The system.** -/
def poolLocks : Lts Locks LockLabel where
  init m := ∃ carrier, m = idleLocks carrier
  step m a m' := lockStep m a = some m'

/-! ## 3. The discipline

What the code of a task does with the mutexes it holds, as a predicate on what is left of it:
`st` and `pr` say whether the task holds `state` and `probe` where the code starts. -/

/-- The active probe, if there is one, is within its budget. -/
def ProbeAlive (p : Probe) : Prop :=
  ∀ probed started, p.active = some (probed, started) → p.now - started ≤ probeMax

/-- `probe_step` goes on to begin a handover. -/
def StartsProbe (p : Probe) : Prop :=
  p.active = none ∧ p.backoffUntil.any (p.now < ·) = false

/-- The code does not ask for a second mutex at once. -/
def Quiet (st pr : Bool) (code : Code) : Prop :=
  (pr = true → code.wants ≠ some .state) ∧ (st = true → code.wants ≠ some .probe)

/-- **The discipline.**  No mutex is asked for by its holder, and none is released by another.
`state` is asked for under `probe` only where `probe_step` starts a probe, and `probe` under
`state` only right after taking `state`.  The branch of `probe_judge` over an expired probe is
left out. -/
def Disciplined : Bool → Bool → Code → Prop
  | st, pr, .done => st = false ∧ pr = false
  | st, pr, .lock .state k => st = false ∧ Disciplined true pr k
  | st, pr, .lock .probe k => pr = false ∧ k.wants ≠ some .state ∧ Disciplined st true k
  | st, pr, .unlock .state k => st = true ∧ Quiet false pr k ∧ Disciplined false pr k
  | st, pr, .unlock .probe k => pr = true ∧ Quiet st false k ∧ Disciplined st false k
  | st, pr, .choose k => ∀ b, Quiet st pr (k b) ∧ Disciplined st pr (k b)
  | st, pr, .read site k => ∀ d, (site = .judge → ProbeAlive d) →
      (st = true → (k d).wants ≠ some .probe) ∧
      (pr = true → (k d).wants = some .state → site = .probeStep ∧ StartsProbe d) ∧
      Disciplined st pr (k d)
  | st, pr, .write _ k => Quiet st pr k ∧ Disciplined st pr k

/-- Code that starts with no mutex held. -/
abbrev Clean (code : Code) : Prop := Disciplined false false code

theorem quiet_free (code : Code) : Quiet false false code :=
  ⟨fun h => absurd h (by decide), fun h => absurd h (by decide)⟩

theorem clean_briefState {k : Code} (hk : Clean k) : Clean (briefState k) :=
  ⟨rfl, rfl, quiet_free k, hk⟩

theorem clean_choose {k : Bool → Code} (hk : ∀ b, Clean (k b)) : Clean (.choose k) :=
  fun b => ⟨quiet_free (k b), hk b⟩

theorem clean_choose_ite {k k' : Code} (hk : Clean k) (hk' : Clean k') :
    Clean (.choose fun b => if b then k else k') := by
  apply clean_choose
  intro b
  cases b with
  | true => exact hk
  | false => exact hk'

theorem disciplined_beginHandover {source target : Carrier} {pr : Bool} {k : Bool → Code}
    (hk : ∀ b, Quiet false pr (k b) ∧ Disciplined false pr (k b)) :
    Disciplined false pr (beginHandover source target k) := by
  unfold beginHandover
  split
  · exact (hk false).2
  · refine ⟨rfl, fun b => ⟨⟨?_, ?_⟩, rfl, hk b⟩⟩
    · intro _
      simp [Prog.wants]
    · intro _
      simp [Prog.wants]

theorem clean_beginHandover {source target : Carrier} {k : Bool → Code}
    (hk : ∀ b, Clean (k b)) : Clean (beginHandover source target k) :=
  disciplined_beginHandover fun b => ⟨quiet_free (k b), hk b⟩

theorem clean_reserveLocks {k : Bool → Code} (hk : ∀ b, Clean (k b)) :
    Clean (reserveLocks k) := by
  refine ⟨rfl, rfl, by simp [Prog.wants], rfl, ⟨by simp [Prog.wants], by simp [Prog.wants]⟩, ?_⟩
  intro b
  exact ⟨⟨by simp [Prog.wants], by simp [Prog.wants]⟩, rfl, quiet_free (k b), hk b⟩

/-- Releasing `probe` and going on with clean code. -/
theorem disciplined_unlockProbe {k : Code} (hk : Clean k) :
    Disciplined false true (.unlock .probe k) :=
  ⟨rfl, quiet_free k, hk⟩

theorem clean_probeConclude {probed : Carrier} {k : Bool → Code} (hk : ∀ b, Clean (k b)) :
    Clean (probeConclude probed k) := by
  refine ⟨rfl, by simp [Prog.wants], ?_⟩
  intro d _
  dsimp only
  refine ⟨by simp, ?_, ?_⟩
  · split <;> simp [Prog.wants]
  · split
    · exact ⟨⟨by simp [Prog.wants], by simp⟩, disciplined_unlockProbe (hk true)⟩
    · exact disciplined_unlockProbe (hk false)

theorem clean_probeStep {k : Bool → Code} (hk : ∀ b, Clean (k b)) : Clean (probeStep k) := by
  refine ⟨rfl, by simp [Prog.wants], ?_⟩
  intro d _
  dsimp only
  cases ha : d.active with
  | some a =>
    rw [if_pos (by rfl)]
    exact ⟨by simp, by simp [Prog.wants], disciplined_unlockProbe (hk true)⟩
  | none =>
    rw [if_neg (by simp)]
    cases hb : d.backoffUntil.any (d.now < ·) with
    | true =>
      rw [if_pos rfl]
      exact ⟨by simp, by simp [Prog.wants], disciplined_unlockProbe (hk false)⟩
    | false =>
      rw [if_neg (by decide)]
      refine ⟨by simp, fun _ _ => ⟨rfl, ha, hb⟩, disciplined_beginHandover ?_⟩
      intro b
      cases b with
      | true =>
        exact ⟨⟨by simp [Prog.wants], by simp⟩, ⟨by simp [Prog.wants], by simp⟩,
          disciplined_unlockProbe (hk true)⟩
      | false => exact ⟨⟨by simp [Prog.wants], by simp⟩, disciplined_unlockProbe (hk false)⟩

theorem clean_probeVerdict {carrier probed : Carrier} {k : Code} (hk : Clean k) :
    Clean (probeVerdict carrier probed k) := by
  apply clean_choose_ite hk
  apply clean_choose
  intro move
  apply clean_probeConclude
  intro concluded
  cases concluded with
  | false => exact hk
  | true =>
    cases move with
    | true => exact clean_choose_ite (clean_beginHandover fun _ => hk) hk
    | false =>
      refine ⟨rfl, by simp [Prog.wants], ⟨by simp [Prog.wants], by simp⟩, ?_⟩
      exact disciplined_unlockProbe (clean_beginHandover fun _ => hk)

theorem clean_probeJudge {k : Code} (hk : Clean k) : Clean (probeJudge k) := by
  refine ⟨rfl, by simp [Prog.wants], ?_⟩
  intro d halive
  dsimp only
  cases ha : d.active with
  | none => exact ⟨by simp, by simp [Prog.wants], disciplined_unlockProbe hk⟩
  | some a =>
    obtain ⟨probed, started⟩ := a
    dsimp only
    rw [if_pos (halive rfl probed started ha)]
    refine ⟨by simp, by simp [Prog.wants], disciplined_unlockProbe ?_⟩
    exact clean_briefState (clean_choose_ite (clean_probeVerdict hk) hk)

theorem clean_confirmedMove {k : Code} (hk : Clean k) : Clean (confirmedMove k) := by
  apply clean_probeStep
  intro probing
  cases probing with
  | true => exact hk
  | false => exact clean_choose_ite (clean_beginHandover fun _ => hk) hk

theorem clean_carrierRuleStep {k : Code} (hk : Clean k) : Clean (carrierRuleStep k) := by
  refine clean_choose_ite (clean_briefState (clean_choose_ite hk (clean_probeJudge ?_))) hk
  refine clean_choose_ite (clean_choose_ite (clean_confirmedMove hk) hk) ?_
  exact clean_choose_ite (clean_probeStep fun _ => hk) hk

theorem clean_diagnosticHandover {k : Code} (hk : Clean k) : Clean (diagnosticHandover k) := by
  refine clean_choose_ite ?_ hk
  refine clean_briefState (clean_choose fun serving => clean_choose fun kcp => ?_)
  cases serving with
  | true => exact clean_beginHandover fun _ => hk
  | false => exact hk

theorem clean_grow {k : Code} (hk : Clean k) : Clean (grow k) := by
  refine clean_choose_ite hk (clean_choose_ite (clean_briefState (clean_choose_ite ?_ hk)) hk)
  exact clean_briefState (clean_choose_ite (clean_briefState hk) hk)

theorem clean_done : Clean .done := ⟨rfl, rfl⟩

theorem clean_maintain : Clean maintain := by
  refine clean_diagnosticHandover (clean_carrierRuleStep (clean_briefState (clean_briefState ?_)))
  exact clean_briefState (clean_choose_ite (clean_grow clean_done) clean_done)

theorem clean_complete : ∀ attempts, Clean (complete attempts)
  | 0 => clean_done
  | attempts + 1 => by
    refine clean_choose_ite clean_done (clean_reserveLocks ?_)
    intro got
    cases got with
    | true => exact clean_complete attempts
    | false => exact clean_done

theorem clean_awaitGrowth {k : Code} (hk : Clean k) : ∀ looks, Clean (awaitGrowth looks k)
  | 0 => hk
  | looks + 1 => clean_briefState (clean_awaitGrowth hk looks)

theorem clean_openPlaced (attempts : Nat) : Clean (openPlaced attempts) := by
  apply clean_reserveLocks
  intro got
  cases got with
  | true => exact clean_complete attempts
  | false =>
    refine clean_briefState (clean_choose_ite clean_done (clean_reserveLocks fun _ => ?_))
    apply clean_reserveLocks
    intro got
    cases got with
    | true => exact clean_complete attempts
    | false =>
      exact clean_briefState (clean_choose_ite clean_done (clean_briefState clean_done))

theorem clean_openAvoiding (looks attempts : Nat) : Clean (openAvoiding looks attempts) := by
  have hplaced : Clean (openAvoided attempts) :=
    clean_choose_ite (clean_briefState (clean_openPlaced attempts)) (clean_openPlaced attempts)
  exact clean_briefState
    (clean_choose_ite (clean_grow (clean_awaitGrowth hplaced looks)) hplaced)

/-! ## 4. Every step, every run -/

/-- Task `t` holds `state` on its way to `probe`: it is in `reserve`. -/
def InReserve (m : Locks) (t : Task) : Prop :=
  m.owner .state = some t ∧ (m.prog t).wants = some .probe

/-- Task `t` holds `probe` on its way to `state`: it is in `probe_step`. -/
def InProbeStep (m : Locks) (t : Task) : Prop :=
  m.owner .probe = some t ∧ (m.prog t).wants = some .state

/-- The side condition on a step: `probe_judge` finds no expired probe; `probe_step` starts no
probe while a task is in `reserve`; and `reserve` takes `state` at no moment when a task is in
`probe_step`. -/
def Meets (m : Locks) (l : LockLabel) : Prop :=
  ∀ t b, l = .step t b →
    (∀ k, m.prog t = .read .judge k → ProbeAlive m.data) ∧
    (∀ k, m.prog t = .read .probeStep k → StartsProbe m.data → ∀ u, ¬ InReserve m u) ∧
    (∀ k, m.prog t = .lock .state (.lock .probe k) → ∀ u, ¬ InProbeStep m u)

/-- **The invariant.**  Every task is disciplined, and the two nested sections do not overlap. -/
structure LockInv (m : Locks) : Prop where
  disciplined : ∀ t, Disciplined (m.owner .state = some t) (m.owner .probe = some t) (m.prog t)
  apart : ∀ t u, InProbeStep m t → ¬ InReserve m u

/-- **Nobody is stuck** where the invariant holds: with no task in `probe_step` the locks rank
`state` below `probe`, with one they rank the other way. -/
theorem LockInv.not_stuck {m : Locks} (h : LockInv m) : ¬ m.Stuck := by
  have hself : ∀ t l, (m.prog t).wants = some l → m.owner l ≠ some t := by
    intro t l hw ho
    have hd := h.disciplined t
    cases hp : m.prog t with
    | lock l' k =>
      rw [hp] at hd hw
      cases hw
      cases l with
      | state => exact absurd ho (by simpa using hd.1)
      | probe => exact absurd ho (by simpa using hd.1)
    | _ =>
      rw [hp] at hw
      cases hw
  by_cases hex : ∃ t, InProbeStep m t
  · obtain ⟨t₀, ht₀⟩ := hex
    refine Machine.not_stuck_of_rank (fun l => if l = .state then 1 else 0) ?_
    intro t l l' hw ho
    have hne := hself t l hw
    cases l with
    | state =>
      cases l' with
      | state => exact absurd ho hne
      | probe => decide
    | probe =>
      cases l' with
      | state => exact absurd ⟨ho, hw⟩ (h.apart t₀ t ht₀)
      | probe => exact absurd ho hne
  · refine Machine.not_stuck_of_rank (fun l => if l = .probe then 1 else 0) ?_
    intro t l l' hw ho
    have hne := hself t l hw
    cases l with
    | state =>
      cases l' with
      | state => exact absurd ho hne
      | probe => exact absurd ⟨t, ho, hw⟩ hex
    | probe =>
      cases l' with
      | state => decide
      | probe => exact absurd ho hne

/-- A task moves on to `code`; what the others hold and run stays. -/
theorem LockInv.advance {m m' : Locks} (h : LockInv m) {t : Task} {code : Code}
    (hprog : m'.prog = update m.prog t code)
    (hothers : ∀ l u, u ≠ t → (m'.owner l = some u ↔ m.owner l = some u))
    (hd : Disciplined (m'.owner .state = some t) (m'.owner .probe = some t) code)
    (hstep : InProbeStep m' t → ∀ u, u ≠ t → ¬ InReserve m u)
    (hres : InReserve m' t → ∀ u, u ≠ t → ¬ InProbeStep m u) : LockInv m' := by
  have hsame : ∀ u, u ≠ t → m'.prog u = m.prog u := by
    intro u hu
    rw [hprog, update_of_ne hu]
  refine ⟨?_, ?_⟩
  · intro u
    by_cases hu : u = t
    · subst hu
      rw [hprog, update_self]
      exact hd
    · rw [hsame u hu]
      simp only [hothers _ u hu]
      exact h.disciplined u
  · intro u v hu hv
    have hback : ∀ w, w ≠ t → (InProbeStep m' w → InProbeStep m w) ∧
        (InReserve m' w → InReserve m w) := by
      intro w hw
      unfold InProbeStep InReserve
      rw [hsame w hw, hothers _ w hw, hothers _ w hw]
      exact ⟨fun h => h, fun h => h⟩
    by_cases hut : u = t
    · subst hut
      by_cases hvt : v = u
      · subst hvt
        have := hu.2.symm.trans hv.2
        exact absurd this (by decide)
      · exact hstep hu v hvt ((hback v hvt).2 hv)
    · by_cases hvt : v = t
      · subst hvt
        exact hres hv u hut ((hback u hut).1 hu)
      · exact h.apart u v ((hback u hut).1 hu) ((hback v hvt).2 hv)

/-- A step that leaves the mutexes alone and does not ask for a second one at once. -/
theorem LockInv.quietStep {m m' : Locks} (h : LockInv m) {t : Task} {code : Code}
    (hprog : m'.prog = update m.prog t code) (howner : m'.owner = m.owner)
    (hd : Quiet (m.owner .state = some t) (m.owner .probe = some t) code ∧
      Disciplined (m.owner .state = some t) (m.owner .probe = some t) code) : LockInv m' := by
  have hcode : m'.prog t = code := by rw [hprog, update_self]
  refine h.advance hprog (fun l u _ => by rw [howner]) (by rw [howner]; exact hd.2) ?_ ?_
  · rintro ⟨ho, hw⟩
    rw [howner] at ho
    rw [hcode] at hw
    exact absurd hw (hd.1.1 (by simpa using ho))
  · rintro ⟨ho, hw⟩
    rw [howner] at ho
    rw [hcode] at hw
    exact absurd hw (hd.1.2 (by simpa using ho))

/-- What others hold does not change when a task takes a free mutex. -/
theorem owner_lock {m : Locks} {t u : Task} {l l' : Lock} (hfree : m.owner l = none)
    (hu : u ≠ t) : update m.owner l (some t) l' = some u ↔ m.owner l' = some u := by
  by_cases hl : l' = l
  · subst hl
    rw [update_self, hfree]
    simp [Ne.symm hu]
  · rw [update_of_ne hl]

/-- Nor when it releases its own. -/
theorem owner_unlock {m : Locks} {t u : Task} {l l' : Lock} (hown : m.owner l = some t)
    (hu : u ≠ t) : update m.owner l none l' = some u ↔ m.owner l' = some u := by
  by_cases hl : l' = l
  · subst hl
    rw [update_self, hown]
    simp [Ne.symm hu]
  · rw [update_of_ne hl]

theorem LockInv.lock {m : Locks} (h : LockInv m) {t : Task} {l : Lock} {k : Code}
    (hp : m.prog t = .lock l k) (hfree : m.owner l = none)
    (hmeets : ∀ k', k = .lock .probe k' → l = .state → ∀ u, ¬ InProbeStep m u) :
    LockInv { m with owner := update m.owner l (some t), prog := update m.prog t k } := by
  have hd := h.disciplined t
  rw [hp] at hd
  refine h.advance rfl (fun l' u hu => owner_lock hfree hu) ?_ ?_ ?_
  · cases l with
    | state => simpa using hd.2
    | probe => simpa using hd.2.2
  · rintro ⟨ho, hw⟩
    dsimp only at ho hw
    rw [update_self] at hw
    cases l with
    | state =>
      -- holding `state`, the code does not ask for it
      cases k with
      | lock l' k' =>
        cases hw
        have hd' := hd.2.1
        simp at hd'
      | _ => cases hw
    | probe => exact absurd hw hd.2.1
  · rintro ⟨ho, hw⟩ u hu
    dsimp only at ho hw
    rw [update_self] at hw
    cases k with
    | lock l' k' =>
      cases hw
      cases l with
      | state => exact hmeets k' rfl rfl u
      | probe =>
        have hd' := hd.2.2.1
        simp at hd'
    | _ => cases hw

theorem LockInv.unlock {m : Locks} (h : LockInv m) {t : Task} {l : Lock} {k : Code}
    (hp : m.prog t = .unlock l k) :
    LockInv { m with owner := update m.owner l none, prog := update m.prog t k } := by
  have hd := h.disciplined t
  rw [hp] at hd
  have hown : m.owner l = some t := by
    cases l with
    | state => simpa using hd.1
    | probe => simpa using hd.1
  have hdisc : Quiet (update m.owner l none .state = some t) (update m.owner l none .probe = some t) k
      ∧ Disciplined (update m.owner l none .state = some t)
        (update m.owner l none .probe = some t) k := by
    cases l with
    | state => simpa using hd.2
    | probe => simpa using hd.2
  refine h.advance rfl (fun l' u hu => owner_unlock hown hu) hdisc.2 ?_ ?_
  · rintro ⟨ho, hw⟩
    dsimp only at ho hw
    rw [update_self] at hw
    exact absurd hw (hdisc.1.1 (by simpa using ho))
  · rintro ⟨ho, hw⟩
    dsimp only at ho hw
    rw [update_self] at hw
    exact absurd hw (hdisc.1.2 (by simpa using ho))

theorem LockInv.read {m : Locks} (h : LockInv m) {t : Task} {site : Site} {k : Probe → Code}
    (hp : m.prog t = .read site k) (hjudge : site = .judge → ProbeAlive m.data)
    (hmeets : site = .probeStep → StartsProbe m.data → ∀ u, ¬ InReserve m u) :
    LockInv { m with prog := update m.prog t (k m.data) } := by
  have hd := h.disciplined t
  rw [hp] at hd
  obtain ⟨h1, h2, h3⟩ := hd m.data hjudge
  refine h.advance rfl (fun _ _ _ => Iff.rfl) h3 ?_ ?_
  · rintro ⟨ho, hw⟩ u _
    dsimp only at ho hw
    rw [update_self] at hw
    obtain ⟨hsite, hstarts⟩ := h2 (by simpa using ho) hw
    exact hmeets hsite hstarts u
  · rintro ⟨ho, hw⟩
    dsimp only at ho hw
    rw [update_self] at hw
    exact absurd hw (h1 (by simpa using ho))

theorem LockInv.begin {m m' : Locks} (h : LockInv m) {t : Task} {code : Code} (hc : Clean code)
    (hs : begin m t code = some m') : LockInv m' := by
  unfold Pool.begin at hs
  have hd := h.disciplined t
  cases hp : m.prog t with
  | done =>
    rw [hp] at hs hd
    cases hs
    obtain ⟨h1, h2⟩ := hd
    refine h.quietStep rfl rfl ?_
    rw [h1, h2]
    exact ⟨quiet_free code, hc⟩
  | _ =>
    rw [hp] at hs
    cases hs

/-- **Every step that meets the side condition keeps the invariant.** -/
theorem LockInv.step {m m' : Locks} (h : LockInv m) {l : LockLabel} (hm : Meets m l)
    (hs : lockStep m l = some m') : LockInv m' := by
  cases l with
  | maintain => exact h.begin clean_maintain hs
  | openAvoiding i looks attempts => exact h.begin (clean_openAvoiding looks attempts) hs
  | clock ms =>
    cases hs
    exact ⟨h.disciplined, h.apart⟩
  | step t b =>
    obtain ⟨hjudge, hstart, hreserve⟩ := hm t b rfl
    have hd := h.disciplined t
    simp only [lockStep, Machine.step] at hs
    cases hp : m.prog t with
    | done =>
      rw [hp] at hs
      cases hs
    | lock l k =>
      rw [hp] at hs
      dsimp only at hs
      cases ho : m.owner l with
      | some u =>
        rw [ho] at hs
        cases hs
      | none =>
        rw [ho] at hs
        cases hs
        refine h.lock hp ho ?_
        rintro k' rfl rfl
        exact hreserve k' hp
    | unlock l k =>
      rw [hp] at hs
      cases hs
      exact h.unlock hp
    | choose k =>
      rw [hp] at hs hd
      cases hs
      exact h.quietStep rfl rfl (hd b)
    | read site k =>
      rw [hp] at hs
      cases hs
      refine h.read hp ?_ ?_
      · rintro rfl
        exact hjudge k hp
      · rintro rfl
        exact hstart k hp
    | write f k =>
      rw [hp] at hs hd
      cases hs
      exact h.quietStep rfl rfl hd

/-- **The pool's lock discipline.**  In every run whose steps meet the side condition, no task
ever asks for a mutex it holds, and no tasks wait for each other in a circle. -/
theorem pool_never_stuck {m : Locks} (h : (poolLocks.restrict Meets).Reach m) : ¬ m.Stuck := by
  have hinv : LockInv m := by
    refine h.invariant (P := LockInv) ?_ ?_
    · rintro m ⟨carrier, rfl⟩
      exact ⟨fun t => clean_done, fun t u hu => absurd hu.1 (by simp [idleLocks])⟩
    · intro m l m' hm hs
      exact hm.step hs.1 hs.2
  exact hinv.not_stuck

/-- Steps of one task with the outcomes of its choices. -/
def stepsOf (t : Task) (outcomes : List Bool) : List LockLabel := outcomes.map (.step t)

/-- The check of an explicit run: no branch on the probe, and `state` is taken while `probe` is
free. -/
def plainStep (m : Locks) : LockLabel → Bool
  | .step t _ =>
    match m.prog t with
    | .read _ _ => false
    | .lock .state _ => m.owner .probe = none
    | _ => true
  | _ => true

theorem meets_of_plainStep (m : Locks) (l : LockLabel) (h : plainStep m l = true) :
    Meets m l := by
  rintro t b rfl
  refine ⟨fun k hp => ?_, fun k hp => ?_, fun k hp u hu => ?_⟩
  · simp [plainStep, hp] at h
  · simp [plainStep, hp] at h
  · simp [plainStep, hp] at h
    exact absurd hu.1 (by simp [h])

/-- An open inside `reserve` holds both mutexes, and nobody is stuck. -/
theorem pool_never_stuck_in_reserve :
    ∃ m, (poolLocks.restrict Meets).Reach m ∧ m.owner .state = some (.opener 0) ∧
      m.owner .probe = some (.opener 0) ∧ ¬ m.Stuck := by
  have hrun : (Lts.runWith lockStep plainStep (idleLocks .kcp)
      (.openAvoiding 0 0 0 :: stepsOf (.opener 0) [false, false, false, false, false, false])).any
      (fun m => m.owner .state = some (.opener 0) ∧ m.owner .probe = some (.opener 0)) = true := by
    decide +kernel
  obtain ⟨m, hm, hfacts⟩ := (Option.any_eq_true ..).mp hrun
  obtain ⟨h1, h2⟩ := of_decide_eq_true hfacts
  have hreach : (poolLocks.restrict Meets).Reach m :=
    Lts.Reach.runWith (fun _ _ _ hs => hs) meets_of_plainStep (Lts.Reach.init ⟨.kcp, rfl⟩) hm
  exact ⟨m, hreach, h1, h2, pool_never_stuck hreach⟩

/-! ## 5. The two ways to get stuck -/

/-- A tick up to the branch of `probe_step`, with a suspicion and no probe running. -/
def tickToProbeStep : List LockLabel :=
  .maintain :: stepsOf .tick
    [false, true, false, false, false, false, false, false, false, true, false, false]

/-- A whole tick that starts a probe, half a minute, and the next tick up to its verdict. -/
def expiryRun : List LockLabel :=
  tickToProbeStep ++
    stepsOf .tick
      [false, true, false, false, false, false, false, false, false, false, false, false] ++
    [.clock 30001, .maintain] ++
    stepsOf .tick [false, true, false, false, false, false, false]

/-- An open takes `state` in `reserve` while a tick is in `probe_step`. -/
def inversionRun : List LockLabel :=
  tickToProbeStep ++ .openAvoiding 0 0 0 ::
    stepsOf (.opener 0) [false, false, false, false, false]

/-- A computed run of the pool. -/
theorem reach_of_run {m : Locks} {labels : List LockLabel}
    (h : Lts.runWith lockStep (fun _ _ => true) (idleLocks .kcp) labels = some m) :
    poolLocks.Reach m := by
  have hreach : (poolLocks.restrict fun _ _ => True).Reach m :=
    Lts.Reach.runWith (fun _ _ _ hs => hs) (fun _ _ _ => trivial) (Lts.Reach.init ⟨.kcp, rfl⟩) h
  exact hreach.of_restrict

/-- **The pool does get stuck.**  A tick that finds its probe expired waits for the mutex it
holds; and a tick that starts a probe and an open that places its stream wait for each other. -/
theorem pool_gets_stuck :
    (∃ m, poolLocks.Reach m ∧ m.WaitsFor .tick .tick) ∧
      ∃ m, poolLocks.Reach m ∧ m.WaitsFor .tick (.opener 0) ∧ m.WaitsFor (.opener 0) .tick := by
  constructor
  · have hrun : (Lts.runWith lockStep (fun _ _ => true) (idleLocks .kcp) expiryRun).any
        (fun m => (m.prog .tick).wants = some .probe ∧ m.owner .probe = some .tick) = true := by
      decide +kernel
    obtain ⟨m, hm, hfacts⟩ := (Option.any_eq_true ..).mp hrun
    exact ⟨m, reach_of_run hm, .probe, of_decide_eq_true hfacts⟩
  · have hrun : (Lts.runWith lockStep (fun _ _ => true) (idleLocks .kcp) inversionRun).any
        (fun m => ((m.prog .tick).wants = some .state ∧ m.owner .state = some (.opener 0)) ∧
          (m.prog (.opener 0)).wants = some .probe ∧ m.owner .probe = some .tick) = true := by
      decide +kernel
    obtain ⟨m, hm, hfacts⟩ := (Option.any_eq_true ..).mp hrun
    obtain ⟨h1, h2⟩ := of_decide_eq_true hfacts
    exact ⟨m, reach_of_run hm, ⟨.state, h1⟩, .probe, h2⟩

end Molehill.Pool
