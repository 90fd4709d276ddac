/-
# One endpoint's carrier, and how long a switch is held

`CarrierChoice` (`transport/carrier.rs`) is the decision every channel that dials one endpoint
shares.  Two kinds of events move it.  A fallback is involuntary: KCP could not be established, TCP
is used, and KCP may be tried again after `KCP_RETRY_COOLDOWN`.  A switch is deliberate
(`prefer`): the carrier asked for is measured to carry more, and it is to be held for
`SWITCH_COOLDOWN`.

Both write the same `retry_at_ms`.  A switch to TCP puts it at the end of its hold, so that no dial
tries KCP before; but a dial begun earlier may still end while the switch is held, and its failure
puts the mark 60 s from then, its success at zero (`hold_broken`).  In every run in which neither
happens early, and no switch is made in the clock's last 120 s, the hold is kept
(`switch_held`).

Times are milliseconds since the epoch, as `now_ms` gives them.
-/
import Molehill.Lib.Transition
import Molehill.Pool.Placement

namespace Molehill.Pool

open Lib

/-! ## 1. The choice -/

/-- What the process is fixed to: `forced_carrier`, and whether the `kcp` feature is built in. -/
structure Build where
  forced : Option Carrier
  kcp : Bool
  deriving DecidableEq

/-- `first_carrier`. -/
def Build.firstCarrier (b : Build) : Carrier :=
  match b.forced with
  | some forced => forced
  | none => if b.kcp then .kcp else .tcp

/-- `u64::MAX`. -/
def clockMax : Nat := 2 ^ 64 - 1

/-- `u64::saturating_add`. -/
def saturatingAdd (a b : Nat) : Nat := min (a + b) clockMax

/-- `KCP_RETRY_COOLDOWN`. -/
def kcpRetryCooldown : Nat := 60000

/-- `SWITCH_COOLDOWN`. -/
def switchCooldown : Nat := 120000

/-- `CarrierChoice`, without the endpoint's name and notice. -/
structure CarrierChoice where
  chosen : Carrier
  retryAt : Nat
  switchAllowedAt : Nat
  deriving DecidableEq

namespace CarrierChoice

variable (b : Build) (c : CarrierChoice) (now : Nat)

def new : CarrierChoice := ⟨b.firstCarrier, 0, 0⟩

/-- `try_kcp`. -/
def tryKcp : Bool :=
  match b.forced with
  | some forced => forced = .kcp
  | none => b.kcp && (c.chosen = .kcp || c.retryAt ≤ now)

/-- `fell_back`. -/
def fellBack : CarrierChoice :=
  { c with chosen := .tcp, retryAt := saturatingAdd now kcpRetryCooldown }

/-- `on_kcp_failure`, the caller of `fell_back`: a forced KCP does not fall back. -/
def onKcpFailure : CarrierChoice × Bool :=
  if b.forced = some .kcp then (c, false) else (c.fellBack now, true)

/-- `prefer`. -/
def prefer (carrier : Carrier) : CarrierChoice × Bool :=
  if b.forced.isSome ∨ b.kcp = false then (c, false)
  else if c.chosen = carrier then (c, false)
  else if now < c.switchAllowedAt then (c, false)
  else
    ({ chosen := carrier
       retryAt := if carrier = .kcp then 0 else saturatingAdd now switchCooldown
       switchAllowedAt := saturatingAdd now switchCooldown }, true)

/-- `reached_kcp`. -/
def reachedKcp : CarrierChoice :=
  if now < c.switchAllowedAt then { c with retryAt := 0 }
  else if c.chosen = .tcp then { c with chosen := .kcp, retryAt := 0 }
  else c

end CarrierChoice

/-! ## 2. Its calls -/

inductive Call
  | prefer (carrier : Carrier)
  /-- A KCP dial failed. -/
  | fellBack
  /-- A KCP dial came up. -/
  | reachedKcp
  | tryKcp
  deriving DecidableEq

/-- What is noted of the calls: an accepted `prefer`, and an answer of `try_kcp`. -/
inductive Noted
  | switched (time : Nat) (carrier : Carrier)
  | asked (time : Nat) (answer : Bool)
  deriving DecidableEq

/-- A choice, the time of the last call, what was noted, oldest first, and the last switch. -/
structure Dated where
  build : Build
  choice : CarrierChoice
  now : Nat
  log : List Noted
  last : Option (Nat × Carrier)
  deriving DecidableEq

namespace Dated

def new (b : Build) : Dated := ⟨b, .new b, 0, [], none⟩

/-- What a call at time `t` does. -/
def act (s : Dated) (t : Nat) : Call → Dated
  | .prefer carrier =>
    match s.choice.prefer s.build t carrier with
    | (choice, true) =>
      { s with
        choice := choice
        now := t
        log := s.log ++ [.switched t carrier]
        last := some (t, carrier) }
    | (choice, false) => { s with choice := choice, now := t }
  | .fellBack => { s with choice := (s.choice.onKcpFailure s.build t).1, now := t }
  | .reachedKcp => { s with choice := s.choice.reachedKcp t, now := t }
  | .tryKcp => { s with now := t, log := s.log ++ [.asked t (s.choice.tryKcp s.build t)] }

/-- A call: the clock does not go back, and is a `u64`. -/
def step (s : Dated) : Nat × Call → Option Dated
  | (t, call) => if s.now ≤ t ∧ t ≤ clockMax then some (s.act t call) else none

end Dated

/-- The runs of one choice. -/
def carrierChoice : Lts Dated (Nat × Call) where
  init s := ∃ b, s = .new b
  step s e s' := s.step e = some s'

/-! ## 3. What a switch promises -/

/-- What two notes, the first before the second, promise: no ask inside the hold of a switch to TCP
is answered yes, and two switches are a hold apart. -/
def Noted.Apart : Noted → Noted → Prop
  | .switched t .tcp, .asked u answer => u < t + switchCooldown → answer = false
  | .switched t _, .switched u _ => t + switchCooldown ≤ u
  | _, _ => True

namespace Dated

/-- When the switch to TCP that is held at `t` was made. -/
def heldAt (s : Dated) (t : Nat) : Option Nat :=
  match s.last with
  | some (u, .tcp) => if t < u + switchCooldown then some u else none
  | _ => none

/-- Whether the call leaves a held switch alone: no KCP dial comes up while a switch to TCP is
held, none fails in the first 60 s of it, and no switch is made that the clock cannot hold. -/
def leavesHold (s : Dated) : Nat × Call → Bool
  | (t, .prefer carrier) =>
    !(s.choice.prefer s.build t carrier).2 || t + switchCooldown ≤ clockMax
  | (t, .fellBack) => (s.heldAt t).all fun u => u + switchCooldown ≤ t + kcpRetryCooldown
  | (t, .reachedKcp) => (s.heldAt t).isNone
  | (_, .tryKcp) => true

/-! ## 4. The hold -/

/-- **What holds between the calls** of a run that leaves every hold alone. -/
structure Held (s : Dated) : Prop where
  /-- Every switch but the last is over. -/
  known : ∀ t carrier, .switched t carrier ∈ s.log →
    s.last = some (t, carrier) ∨ t + switchCooldown ≤ s.now
  allowed : ∀ t carrier, s.last = some (t, carrier) →
    s.choice.switchAllowedAt = t + switchCooldown ∧ t + switchCooldown ≤ clockMax ∧ t ≤ s.now
  kept : ∀ t, s.last = some (t, .tcp) → s.now < t + switchCooldown →
    s.choice.chosen = .tcp ∧ t + switchCooldown ≤ s.choice.retryAt
  unforced : s.last.isSome = true → s.build.forced = none ∧ s.build.kcp = true
  apart : s.log.Pairwise Noted.Apart

variable {s s' : Dated} {t u : Nat} {carrier : Carrier}

theorem heldAt_eq_some :
    s.heldAt t = some u ↔ s.last = some (u, .tcp) ∧ t < u + switchCooldown := by
  unfold heldAt
  split
  case h_1 v hv =>
    rw [hv]
    by_cases hlt : t < v + switchCooldown
    · rw [if_pos hlt]
      simp only [Option.some.injEq, Prod.mk.injEq, and_true]
      exact ⟨fun h => ⟨h, h ▸ hlt⟩, fun h => h.1⟩
    · rw [if_neg hlt]
      simp only [Option.some.injEq, Prod.mk.injEq, and_true, reduceCtorEq, false_iff, not_and]
      exact fun h => h ▸ hlt
  case h_2 hno =>
    simp only [reduceCtorEq, false_iff, not_and]
    exact fun h => absurd h (hno u)

/-- A held switch's `try_kcp`. -/
theorem Held.tryKcp (h : s.Held) (hnow : s.now ≤ t) (hlast : s.last = some (u, .tcp))
    (hlt : t < u + switchCooldown) : s.choice.tryKcp s.build t = false := by
  obtain ⟨hchosen, hretry⟩ := h.kept u hlast (by omega)
  obtain ⟨hforced, -⟩ := h.unforced (by rw [hlast]; rfl)
  unfold CarrierChoice.tryKcp
  rw [hforced, hchosen]
  simp only [reduceCtorEq, decide_false, Bool.false_or, Bool.and_eq_false_iff,
    decide_eq_false_iff_not]
  exact .inr (by omega)

/-- What `prefer` answers, and what it leaves. -/
theorem prefer_cases (b : Build) (c : CarrierChoice) (t : Nat) (carrier : Carrier) :
    c.prefer b t carrier = (c, false) ∨
      (b.forced = none ∧ b.kcp = true ∧ c.switchAllowedAt ≤ t ∧
        c.prefer b t carrier =
          (⟨carrier, if carrier = .kcp then 0 else saturatingAdd t switchCooldown,
            saturatingAdd t switchCooldown⟩, true)) := by
  unfold CarrierChoice.prefer
  split
  case isTrue => exact .inl rfl
  case isFalse hbuild =>
    split
    case isTrue => exact .inl rfl
    case isFalse =>
      split
      case isTrue => exact .inl rfl
      case isFalse hallowed =>
        simp only [not_or, Bool.not_eq_true, Option.isSome_eq_false_iff,
          Option.isNone_iff_eq_none, Bool.not_eq_false] at hbuild
        exact .inr ⟨hbuild.1, hbuild.2, by omega, rfl⟩

/-- The clock goes on, and the choice with it as long as what a held switch needs is kept. -/
theorem Held.pass (h : s.Held) (hnow : s.now ≤ t) {choice : CarrierChoice}
    (hallowed : choice.switchAllowedAt = s.choice.switchAllowedAt)
    (hkept : ∀ u, s.heldAt t = some u →
      choice.chosen = .tcp ∧ u + switchCooldown ≤ choice.retryAt) :
    Held { s with choice := choice, now := t } where
  known := by
    intro u carrier hmem
    rcases h.known u carrier hmem with hlast | hover
    · exact .inl hlast
    · exact .inr (hover.trans hnow)
  allowed := by
    intro u carrier hlast
    obtain ⟨heq, hmax, hle⟩ := h.allowed u carrier hlast
    exact ⟨hallowed.trans heq, hmax, hle.trans hnow⟩
  kept := fun u hlast hlt => hkept u (heldAt_eq_some.mpr ⟨hlast, hlt⟩)
  unforced := h.unforced
  apart := h.apart

/-- While a switch to TCP is held, nothing but the clock need move. -/
theorem Held.still (h : s.Held) (hnow : s.now ≤ t) (hheld : s.heldAt t = some u) :
    s.choice.chosen = .tcp ∧ u + switchCooldown ≤ s.choice.retryAt := by
  obtain ⟨hlast, hlt⟩ := heldAt_eq_some.mp hheld
  exact h.kept u hlast (by omega)

/-- The next note keeps apart from the switches before it. -/
theorem Held.note (h : s.Held) (hnow : s.now ≤ t) {note : Noted}
    (hover : ∀ u carrier, u + switchCooldown ≤ t → Noted.Apart (.switched u carrier) note)
    (hlast : ∀ u carrier, s.last = some (u, carrier) → Noted.Apart (.switched u carrier) note) :
    (s.log ++ [note]).Pairwise Noted.Apart := by
  rw [List.pairwise_append]
  refine ⟨h.apart, List.pairwise_singleton _ _, fun x hx y hy => ?_⟩
  rw [List.mem_singleton.mp hy]
  cases x with
  | asked u answer => cases note <;> trivial
  | switched u carrier =>
    rcases h.known u carrier hx with hl | ho
    · exact hlast u carrier hl
    · exact hover u carrier (ho.trans hnow)

/-- A switch that the clock can hold. -/
theorem Held.switched (h : s.Held) (hnow : s.now ≤ t) (hmax : t + switchCooldown ≤ clockMax)
    (hforced : s.build.forced = none) (hkcp : s.build.kcp = true)
    (hallowed : s.choice.switchAllowedAt ≤ t) :
    Held
      { s with
        choice := ⟨carrier, if carrier = .kcp then 0 else saturatingAdd t switchCooldown,
          saturatingAdd t switchCooldown⟩
        now := t
        log := s.log ++ [.switched t carrier]
        last := some (t, carrier) } := by
  have hadd : saturatingAdd t switchCooldown = t + switchCooldown := Nat.min_eq_left hmax
  have hlast : ∀ u carrier', s.last = some (u, carrier') → u + switchCooldown ≤ t := by
    intro u carrier' hl
    rw [← (h.allowed u carrier' hl).1]
    exact hallowed
  refine ⟨fun u carrier' hmem => ?_, fun u carrier' hl => ?_, fun u hl _ => ?_,
    fun _ => ⟨hforced, hkcp⟩, ?_⟩
  · rcases List.mem_append.mp hmem with hold | hnew
    · rcases h.known u carrier' hold with hl | ho
      · exact .inr (hlast u carrier' hl)
      · exact .inr (ho.trans hnow)
    · cases List.mem_singleton.mp hnew
      exact .inl rfl
  · cases hl
    exact ⟨hadd, hmax, Nat.le_refl _⟩
  · cases hl
    exact ⟨rfl, by rw [if_neg (by decide), hadd]⟩
  · refine h.note hnow (fun u carrier' ho => ?_) (fun u carrier' hl => ?_)
    · cases carrier' <;> exact ho
    · cases carrier' <;> exact hlast u _ hl

/-- An answer is noted. -/
theorem Held.asked (h : s.Held) (hnow : s.now ≤ t) :
    Held { s with now := t, log := s.log ++ [.asked t (s.choice.tryKcp s.build t)] } := by
  have hpass : Held { s with choice := s.choice, now := t } :=
    h.pass hnow rfl fun u hheld => h.still hnow hheld
  refine ⟨fun u carrier hmem => ?_, hpass.allowed, hpass.kept, hpass.unforced, ?_⟩
  · rcases List.mem_append.mp hmem with hold | hnew
    · exact hpass.known u carrier hold
    · cases List.mem_singleton.mp hnew
  · refine h.note hnow (fun u carrier ho => ?_) (fun u carrier hl => ?_)
    · cases carrier with
      | kcp => trivial
      | tcp => exact fun hlt => absurd ho (by omega)
    · cases carrier with
      | kcp => trivial
      | tcp => exact fun hlt => h.tryKcp hnow hl hlt

theorem leavesHold_fellBack (hheld : s.heldAt t = some u) :
    s.leavesHold (t, .fellBack) = true ↔ u + switchCooldown ≤ t + kcpRetryCooldown := by
  rw [leavesHold, hheld, Option.all_some, decide_eq_true_iff]

/-- **One call** that leaves a held switch alone. -/
theorem Held.step {e : Nat × Call} (h : s.Held) (hc : s.leavesHold e = true)
    (hs : s.step e = some s') : s'.Held := by
  obtain ⟨t, call⟩ := e
  simp only [Dated.step, Option.ite_none_right_eq_some, Option.some.injEq] at hs
  obtain ⟨⟨hnow, -⟩, rfl⟩ := hs
  cases call with
  | prefer carrier =>
    rcases prefer_cases s.build s.choice t carrier with hno | ⟨hforced, hkcp, hallowed, hyes⟩
    · simp only [act, hno]
      exact h.pass hnow rfl fun u hheld => h.still hnow hheld
    · simp only [leavesHold, hyes, Bool.not_true, Bool.false_or, decide_eq_true_eq] at hc
      simp only [act, hyes]
      exact h.switched hnow hc hforced hkcp hallowed
  | fellBack =>
    dsimp only [act]
    unfold CarrierChoice.onKcpFailure
    split
    case isTrue => exact h.pass hnow rfl fun u hheld => h.still hnow hheld
    case isFalse =>
      refine h.pass hnow rfl fun u hheld => ⟨rfl, ?_⟩
      rw [leavesHold_fellBack hheld] at hc
      have hmax := (h.allowed u .tcp (heldAt_eq_some.mp hheld).1).2.1
      rw [CarrierChoice.fellBack, saturatingAdd]
      exact Nat.le_min.mpr ⟨hc, hmax⟩
  | reachedKcp =>
    -- the switch that is held, if any, is one to KCP, and asks nothing of the choice
    have hnone : ∀ u, s.heldAt t ≠ some u := by
      intro u hheld
      rw [leavesHold, hheld] at hc
      cases hc
    refine h.pass hnow ?_ fun u hheld => absurd hheld (hnone u)
    unfold CarrierChoice.reachedKcp
    split
    case isTrue => rfl
    case isFalse => split <;> rfl
  | tryKcp => exact h.asked hnow

theorem held_new (b : Build) : (Dated.new b).Held where
  known := fun _ _ h => absurd h List.not_mem_nil
  allowed := fun _ _ h => by cases h
  kept := fun _ h => by cases h
  unforced := fun h => by cases h
  apart := List.Pairwise.nil

/-- What a run that goes on owes to a held switch: no ask from now on, while it is held, is answered
yes. -/
def Quiet (s : Dated) : Prop :=
  ∀ u t, s.now ≤ t → s.heldAt t = some u → s.choice.tryKcp s.build t = false

/-- A mark that the clock has passed lets KCP be tried. -/
theorem Held.tryKcp_of_mark (h : s.Held) (hlast : s.last = some (u, carrier))
    {choice : CarrierChoice} (hmark : choice.retryAt ≤ t) : choice.tryKcp s.build t = true := by
  obtain ⟨hforced, hkcp⟩ := h.unforced (by rw [hlast]; rfl)
  unfold CarrierChoice.tryKcp
  rw [hforced, hkcp]
  simp only [hmark, decide_true, Bool.or_true, Bool.and_self]

/-- **The condition is exact** for the two calls that report a dial: they leave a held switch quiet
if and only if they meet it. -/
theorem quiet_step_iff {call : Call} (h : s.Held) (hcall : call = .fellBack ∨ call = .reachedKcp)
    (hs : s.step (t, call) = some s') : s'.Quiet ↔ s.leavesHold (t, call) = true := by
  constructor
  · intro hquiet
    simp only [Dated.step, Option.ite_none_right_eq_some, Option.some.injEq] at hs
    obtain ⟨⟨hnow, hclock⟩, rfl⟩ := hs
    cases hheld : s.heldAt t with
    | none => rcases hcall with rfl | rfl <;> simp only [leavesHold, hheld] <;> rfl
    | some u =>
      obtain ⟨hlast, hlt⟩ := heldAt_eq_some.mp hheld
      obtain ⟨hforced, -⟩ := h.unforced (by rw [hlast]; rfl)
      obtain ⟨hallowed, hmax, -⟩ := h.allowed u .tcp hlast
      rcases hcall with rfl | rfl
      · rw [leavesHold_fellBack hheld]
        -- otherwise an ask 60 s from now is still inside the hold, and past the mark
        by_contra hearly
        have hmark : (s.choice.fellBack t).retryAt ≤ t + kcpRetryCooldown := Nat.min_le_left _ _
        have hyes := h.tryKcp_of_mark hlast hmark
        have hno := hquiet u (t + kcpRetryCooldown) (Nat.le_add_right _ _)
          (heldAt_eq_some.mpr ⟨hlast, by omega⟩)
        simp only [act, CarrierChoice.onKcpFailure, hforced, reduceCtorEq, if_false] at hno
        rw [hyes] at hno
        cases hno
      · have hmark : (s.choice.reachedKcp t).retryAt ≤ t := by
          unfold CarrierChoice.reachedKcp
          rw [if_pos (by omega)]
          exact Nat.zero_le _
        have hyes := h.tryKcp_of_mark hlast hmark
        have hno := hquiet u t (Nat.le_refl _) (heldAt_eq_some.mpr ⟨hlast, hlt⟩)
        rw [act, hyes] at hno
        cases hno
  · intro hc u v hnow hheld
    obtain ⟨hlast, hlt⟩ := heldAt_eq_some.mp hheld
    exact (h.step hc hs).tryKcp hnow hlast hlt

end Dated

/-- **The hold of a switch.**  In every run in which no KCP dial comes up while a switch to TCP is
held, none fails in the first 60 s of it, and no switch is made in the last 120 s of the clock,
`try_kcp` answers no throughout the hold of a switch to TCP, and two switches are a hold apart. -/
theorem switch_held {s : Dated}
    (h : (carrierChoice.restrict fun s e => s.leavesHold e = true).Reach s) :
    s.log.Pairwise Noted.Apart := by
  refine (h.invariant (P := Dated.Held) ?_ ?_).apart
  · rintro s ⟨b, rfl⟩
    exact Dated.held_new b
  · intro s e s' hs hstep
    exact hs.step hstep.1 hstep.2

/-- A switch to TCP that a failed dial meets after 60 s, asks on both sides of its end, and the way
back. -/
def heldCalls : List (Nat × Call) :=
  [(1000, .prefer .tcp), (2000, .tryKcp), (61000, .fellBack), (120999, .tryKcp), (121000, .tryKcp),
    (121000, .reachedKcp), (121000, .prefer .tcp)]

theorem switch_held_twice :
    ∃ s, (carrierChoice.restrict fun s e => s.leavesHold e = true).Reach s ∧
      s.log = [.switched 1000 .tcp, .asked 2000 false, .asked 120999 false, .asked 121000 true,
        .switched 121000 .tcp] ∧ s.log.Pairwise Noted.Apart := by
  have hrun : (Lts.runWith Dated.step Dated.leavesHold (.new ⟨none, true⟩) heldCalls).any (fun s =>
      decide (s.log = [.switched 1000 .tcp, .asked 2000 false, .asked 120999 false,
        .asked 121000 true, .switched 121000 .tcp])) = true := by
    decide +kernel
  obtain ⟨s, hs, hlog⟩ := Lts.Reach.exists_runWith (T := carrierChoice)
    (C := fun s e => s.leavesHold e = true) (fun _ _ _ h => h) (fun _ _ h => h)
    (s := .new ⟨none, true⟩) ⟨_, rfl⟩ hrun
  exact ⟨s, hs, of_decide_eq_true hlog, switch_held hs⟩

/-- A dial that was begun before the switch comes up, or fails, a second after it. -/
def brokenCalls (call : Call) : List (Nat × Call) :=
  [(1000, .prefer .tcp), (2000, call), (62000, .tryKcp)]

theorem exists_broken {call : Call} (hcall : call = .reachedKcp ∨ call = .fellBack) :
    ∃ s, carrierChoice.Reach s ∧
      Lts.runWith Dated.step (fun _ _ => true) (.new ⟨none, true⟩) (brokenCalls call) = some s ∧
      ¬ s.log.Pairwise Noted.Apart := by
  have hrun : (Lts.runWith Dated.step (fun _ _ => true) (.new ⟨none, true⟩)
      (brokenCalls call)).any (fun s =>
        decide (s.log = [.switched 1000 .tcp, .asked 62000 true])) = true := by
    rcases hcall with rfl | rfl <;> decide +kernel
  obtain ⟨s, hs, hlog⟩ := (Option.any_eq_true ..).mp hrun
  have hreach : (carrierChoice.restrict fun _ _ => True).Reach s :=
    Lts.Reach.runWith (fun _ _ _ h => h) (fun _ _ _ => trivial) (.init ⟨_, rfl⟩) hs
  refine ⟨s, hreach.of_restrict, hs, fun hall => ?_⟩
  rw [of_decide_eq_true hlog, List.pairwise_pair] at hall
  exact absurd (hall (by decide)) (by decide)

/-- **The hold is broken** by a dial that came up and by one that failed: both times a dial is told
to try KCP one minute after the switch to TCP. -/
theorem hold_broken :
    (∃ s, carrierChoice.Reach s ∧
      Lts.runWith Dated.step (fun _ _ => true) (.new ⟨none, true⟩) (brokenCalls .reachedKcp) =
        some s ∧ ¬ s.log.Pairwise Noted.Apart) ∧
    ∃ s, carrierChoice.Reach s ∧
      Lts.runWith Dated.step (fun _ _ => true) (.new ⟨none, true⟩) (brokenCalls .fellBack) =
        some s ∧ ¬ s.log.Pairwise Noted.Apart :=
  ⟨exists_broken (.inl rfl), exists_broken (.inr rfl)⟩

end Molehill.Pool
