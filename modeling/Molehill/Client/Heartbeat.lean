/-
# A session and its heartbeat

The server declares a heartbeat cadence when it accepts a session, and the client derives from it
how long it waits for a frame before it takes the server for dead (`resolve_heartbeat_timeout` and
the select loop of `ClientSession::run`, `core/client.rs`).  The session of `Client.Session` is run
here against a clock that counts milliseconds, as the runtime's timers do.  Frames, requests and
status asks arrive at any time; whatever the session's task can do at once it does before time
passes, so the clock moves only while the task awaits something that is not there.

The timer is an arm of the select, made anew by every iteration.  What it measures is therefore not
how long the server has been silent but how long this one iteration has waited: a status ask or a
request starts another, and while a handler awaits a verdict, a resolver or a tunnel pool there is
no timer at all.  Once the last sender of the status asks is dropped, their receiver is ready with
nothing at every turn, and the loop spins through timers that it never waits for.

The results: where the loop has been waiting since the last frame whenever the timeout is over, and
can still be asked, a session outlives no silence longer than the timeout, and frames are handled no
further apart (`silence_bounded`); at each passing of time that condition is exact
(`timely_pass_iff`); and asks alone, one per timeout, keep a session up for as long as they come
(`asks_postpone`).
-/
import Molehill.Client.Session

namespace Molehill.Client

open Lib

/-! ## 1. The timeout -/

/-- `u64::MAX`. -/
def u64Max : Nat := 2 ^ 64 - 1

/-- `derived_heartbeat_floor`, in seconds: two missed beats plus slack, never below 10 s. -/
def derivedHeartbeatFloor (interval : Nat) : Option Nat :=
  if interval ≠ 0 then some (max (min (min (interval * 2) u64Max + 5) u64Max) 10) else none

/-- The text of the refusal of a timeout below the floor. -/
def belowFloor (interval floor configured : Nat) : String :=
  "the server declares a " ++ toString interval ++ " s heartbeat, which needs at least " ++
    toString floor ++ " s; you configured " ++ toString configured ++ " s"

/-- `resolve_heartbeat_timeout`, in seconds. -/
def resolveHeartbeatTimeout (interval : Nat) (default : Option Nat) :
    Except String (Option Nat) :=
  -- an explicit 0 disables the check, whatever the server declares
  if default = some 0 then .ok none
  else
    match default, derivedHeartbeatFloor interval with
    | none, floor => .ok floor
    | some configured, some floor =>
      if configured < floor then .error (belowFloor interval floor configured)
      else .ok (some configured)
    | some configured, none => .ok (some configured)

/-! ## 2. The session and the clock -/

/-- What the server sends on a control session. -/
inductive ServerFrame
  /-- A heartbeat, a report or a release: nothing the session's own state depends on. -/
  | notice
  | openFor (id : ServiceId)
  | dropped (id : ServiceId)
  | verdict (ack : Ack)
  /-- The command of an older dialect. -/
  | createDataChannel
  deriving DecidableEq

/-- An established session and its clock.  `waitingSince` is when the task began the wait it is
in; `lastArrived` and `lastHandled` record the last frame of the server, for the statements. -/
structure Timed where
  session : ClientSession
  /-- The resolved timeout, in milliseconds. -/
  timeout : Option Nat
  now : Nat
  waitingSince : Nat
  /-- Frames the socket has and the task has not read. -/
  inbox : List ServerFrame
  /-- Status asks that wait. -/
  asks : Nat
  /-- Whether a sender of status asks is left. -/
  askOpen : Bool
  lastArrived : Nat
  lastHandled : Nat

/-- What happens next. -/
inductive TimedEvent
  | arrive (f : ServerFrame)
  | statusAsk
  /-- The last sender of status asks is dropped. -/
  | asksGone
  /-- The client queues a request, or the lane allocator dials. -/
  | background (e : Event)
  /-- The task reads a frame. -/
  | read
  /-- The loop answers a status ask. -/
  | answerAsk
  /-- The task goes on: an await of its own completes. -/
  | task (e : Event)
  /-- The timer of the select fires. -/
  | timeout
  | pass (ms : Nat)

/-- What other tasks do to the session. -/
def Event.isBackground : Event → Bool
  | .ask _ => true
  | .lane _ => true
  | _ => false

/-- What the session's task goes on by without a frame of the server. -/
def Event.isTask : Event → Bool
  | .next _ => true
  | .drain _ => true
  | .take _ => true
  | .activated _ => true
  | .activationFailed _ => true
  | .lost => true
  | .stop => true
  | _ => false

/-- The phases in which the task reads frames: the select loop, and the wait for a verdict. -/
def Phase.reads : Phase → Bool
  | .sweep [] => true
  | .verdict _ _ => true
  | _ => false

/-- What a frame is to the session.  A verdict is told from a command by its first byte, which is
the tag of `CreateDataChannel`, a protocol violation. -/
def ServerFrame.event (phase : Phase) : ServerFrame → Option Event
  | .notice => none
  | .openFor id => some (.openFor id)
  | .dropped id => some (.dropped id)
  | .verdict ack =>
    match phase with
    | .verdict _ _ => some (.answer ack)
    | _ => some .lost
  | .createDataChannel => some .lost

namespace Timed

/-- The session as its handshake leaves it: the ack was the server's first frame. -/
def established (s : ClientSession) (timeout : Option Nat) : Timed :=
  { session := s.connected, timeout := timeout, now := 0, waitingSince := 0, inbox := [], asks := 0,
    askOpen := true, lastArrived := 0, lastHandled := 0 }

/-- The session has not ended. -/
def isUp (x : Timed) : Bool := x.session.phase.isUp

/-- The task has moved on, and waits anew. -/
def resume (x : Timed) (s : ClientSession) : Timed :=
  { x with session := s, waitingSince := x.now }

/-- The task reads the next frame. -/
def read (x : Timed) : Option Timed :=
  match x.inbox with
  | [] => none
  | f :: rest =>
    if x.session.phase.reads then
      let x := { x with inbox := rest, lastHandled := x.now }
      match f.event x.session.phase with
      | none => some (x.resume x.session)
      | some e => (sessionStep x.session e).map x.resume
    else none

/-- Nobody is left to ask: `ask_rx.recv()` gives the loop a `None` at every turn. -/
def spins (x : Timed) : Bool := x.session.phase = .sweep [] ∧ x.askOpen = false ∧ x.asks = 0

/-- The task can do nothing for so long: in the loop no arm is ready and the timer does not fire
before, in a verdict wait nothing has arrived, and every other wait may take its time.  A loop that
spins has no timer to wait for, and does nothing by its turns. -/
def rests (x : Timed) (ms : Nat) : Bool :=
  match x.session.phase with
  | .sweep [] =>
    x.inbox.isEmpty && x.asks = 0 && x.session.queue.isEmpty &&
      (x.spins || x.timeout.all fun t => x.now + ms ≤ x.waitingSince + t)
  | .verdict _ _ => x.inbox.isEmpty
  | .draining _ => !x.session.pendingDrops.isEmpty
  | _ => true

/-- The timer of the select. -/
def fire (x : Timed) : Option Timed :=
  match x.session.phase, x.timeout with
  | .sweep [], some t =>
    if x.waitingSince + t ≤ x.now then some (x.resume x.session.fail) else none
  | _, _ => none

/-- The loop answers a status ask. -/
def answerAsk (x : Timed) : Option Timed :=
  if x.session.phase = .sweep [] ∧ 0 < x.asks then
    some ({ x with asks := x.asks - 1 }.resume x.session)
  else none

/-- Time passes; a loop that spins starts its wait anew all along. -/
def pass (x : Timed) (ms : Nat) : Timed :=
  { x with
    now := x.now + ms
    waitingSince := if x.spins then x.now + ms else x.waitingSince }

/-- One step; a session that has ended only grows older. -/
def step (x : Timed) : TimedEvent → Option Timed
  | .pass ms => if x.isUp → x.rests ms then some (x.pass ms) else none
  | a =>
    if x.isUp then
      match a with
      | .arrive f => some { x with inbox := x.inbox ++ [f], lastArrived := x.now }
      | .statusAsk => if x.askOpen then some { x with asks := x.asks + 1 } else none
      | .asksGone => some { x with askOpen := false }
      | .background e =>
        if e.isBackground then (sessionStep x.session e).map fun s => { x with session := s }
        else none
      | .read => x.read
      | .answerAsk => x.answerAsk
      | .task e => if e.isTask then (sessionStep x.session e).map x.resume else none
      | .timeout => x.fire
      | .pass _ => none
    else none

end Timed

/-- Every run of a session whose server declared the cadence `interval`, under the client's own
setting `default`. -/
def timedSession (interval : Nat) (default : Option Nat) : Lts Timed TimedEvent where
  init x := ∃ s secs, resolveHeartbeatTimeout interval default = .ok secs ∧
    x = .established s (secs.map (· * 1000))
  step x a x' := x.step a = some x'

/-! ## 3. What the clock does -/

namespace Timed

variable {x x' : Timed} {a : TimedEvent}

@[simp] theorem resume_now (x : Timed) (s : ClientSession) : (x.resume s).now = x.now := rfl

@[simp] theorem resume_timeout (x : Timed) (s : ClientSession) :
    (x.resume s).timeout = x.timeout := rfl

@[simp] theorem resume_lastArrived (x : Timed) (s : ClientSession) :
    (x.resume s).lastArrived = x.lastArrived := rfl

@[simp] theorem resume_lastHandled (x : Timed) (s : ClientSession) :
    (x.resume s).lastHandled = x.lastHandled := rfl

/-- A step that is not the passing of time leaves the clock alone, and moves the two records to it
or not at all. -/
structure Still (x x' : Timed) : Prop where
  now : x'.now = x.now
  timeout : x'.timeout = x.timeout
  arrived : x'.lastArrived = x.lastArrived ∨ x'.lastArrived = x.now
  handled : x'.lastHandled = x.lastHandled ∨ x'.lastHandled = x.now

theorem Still.resume (s : ClientSession) : Still x (x.resume s) :=
  ⟨rfl, rfl, .inl rfl, .inl rfl⟩

theorem still_read (h : x.read = some x') : Still x x' := by
  unfold Timed.read at h
  split at h
  · cases h
  · split at h
    case isFalse => cases h
    case isTrue =>
      simp only at h
      split at h
      · cases h
        exact ⟨rfl, rfl, .inl rfl, .inr rfl⟩
      · obtain ⟨s, -, rfl⟩ := Option.map_eq_some_iff.mp h
        exact ⟨rfl, rfl, .inl rfl, .inr rfl⟩

/-- **What a step does to the clock**: nothing, unless time passes.  What has ended does nothing
else. -/
theorem step_clock (h : x.step a = some x') :
    (∃ ms, a = .pass ms ∧ (x.isUp = true → x.rests ms = true) ∧ x' = x.pass ms) ∨
      (x.isUp = true ∧ Still x x') := by
  unfold Timed.step at h
  split at h
  case h_1 ms =>
    split at h
    case isTrue hr =>
      cases h
      exact .inl ⟨ms, rfl, hr, rfl⟩
    case isFalse => cases h
  case h_2 =>
    split at h
    case isFalse => cases h
    case isTrue hup =>
      refine .inr ⟨hup, ?_⟩
      split at h
      case h_1 =>
        cases h
        exact ⟨rfl, rfl, .inr rfl, .inl rfl⟩
      case h_2 =>
        split at h
        · cases h
          exact ⟨rfl, rfl, .inl rfl, .inl rfl⟩
        · cases h
      case h_3 =>
        cases h
        exact ⟨rfl, rfl, .inl rfl, .inl rfl⟩
      case h_4 =>
        split at h
        · obtain ⟨s, -, rfl⟩ := Option.map_eq_some_iff.mp h
          exact ⟨rfl, rfl, .inl rfl, .inl rfl⟩
        · cases h
      case h_5 => exact still_read h
      case h_6 =>
        unfold Timed.answerAsk at h
        split at h
        · cases h
          exact ⟨rfl, rfl, .inl rfl, .inl rfl⟩
        · cases h
      case h_7 =>
        split at h
        · obtain ⟨s, -, rfl⟩ := Option.map_eq_some_iff.mp h
          exact .resume s
        · cases h
      case h_8 =>
        unfold Timed.fire at h
        split at h
        · split at h
          · cases h
            exact .resume _
          · cases h
        · cases h
      case h_9 => cases h

/-! ## 4. Silence -/

/-- The server has not been silent for longer than the timeout: neither has the last frame arrived
longer ago, nor was the last one handled longer ago. -/
def Timely (t : Nat) (x : Timed) : Prop := x.now ≤ x.lastArrived + t ∧ x.now ≤ x.lastHandled + t

/-- The loop has been waiting since the last frame: nothing else has started another iteration, no
handler runs, and the loop does not spin. -/
def listening (x : Timed) : Bool :=
  x.session.phase = .sweep [] ∧ x.spins = false ∧ x.waitingSince ≤ x.lastArrived ∧
    x.waitingSince ≤ x.lastHandled

/-- When the silence passes the timeout, the loop has been listening all along. -/
def attentive (x : Timed) : TimedEvent → Bool
  | .pass ms =>
    x.timeout.all fun t =>
      (x.now + ms ≤ x.lastArrived + t ∧ x.now + ms ≤ x.lastHandled + t) ∨ x.listening = true
  | _ => true

/-- A loop that listens lets no more time pass than the timeout. -/
theorem rests_of_listening {t ms : Nat} (ht : x.timeout = some t) (hl : x.listening = true)
    (hr : x.rests ms = true) : Timely t (x.pass ms) := by
  obtain ⟨hp, hspins, ha, hh⟩ := of_decide_eq_true hl
  unfold Timed.rests at hr
  rw [hp, hspins] at hr
  simp only [ht, Option.all_some, Bool.false_or, Bool.and_eq_true, decide_eq_true_eq] at hr
  change x.now + ms ≤ x.lastArrived + t ∧ x.now + ms ≤ x.lastHandled + t
  omega

/-- **One passing of time.**  It leaves a session up with no silence behind it that is longer than
the timeout exactly when the loop was attentive. -/
theorem timely_pass_iff {t ms : Nat} (ht : x.timeout = some t) (hr : x.rests ms = true) :
    Timely t (x.pass ms) ↔ x.attentive (.pass ms) = true := by
  simp only [attentive, ht, Option.all_some, decide_eq_true_eq]
  constructor
  · exact fun h => .inl h
  · rintro (h | h)
    · exact h
    · exact rests_of_listening ht h hr

theorem Timely.still {t : Nat} (h : Timely t x) (hs : Still x x') : Timely t x' := by
  obtain ⟨ha, hh⟩ := h
  obtain ⟨hn, -, ha', hh'⟩ := hs
  unfold Timely
  omega

theorem step_timeout (h : x.step a = some x') : x'.timeout = x.timeout := by
  obtain ⟨ms, -, -, rfl⟩ | ⟨-, hs⟩ := step_clock h
  · rfl
  · exact hs.timeout

/-- **One step** of an attentive session. -/
theorem timely_step {t : Nat} (ht : x.timeout = some t) (h : x.isUp = true → Timely t x)
    (hc : x.attentive a = true) (hstep : x.step a = some x') : x'.isUp = true → Timely t x' := by
  intro hup
  obtain ⟨ms, rfl, hr, rfl⟩ | ⟨hx, hs⟩ := step_clock hstep
  · exact (timely_pass_iff ht (hr hup)).mpr hc
  · exact (h hx).still hs

end Timed

/-- **Dead-server detection**, where the loop is attentive.  In every run of an established session
whose timeout is `t` milliseconds, as long as the session is up no more than `t` have passed since
the last frame arrived, nor since the last frame was handled: a session that hears nothing for
longer has ended, and two frames handled one after the other are no further apart. -/
theorem silence_bounded {interval : Nat} {default : Option Nat} {x : Timed} {t : Nat}
    (h : ((timedSession interval default).restrict fun x a => x.attentive a = true).Reach x)
    (ht : x.timeout = some t) (hup : x.isUp = true) :
    x.now ≤ x.lastArrived + t ∧ x.now ≤ x.lastHandled + t := by
  refine h.invariant (P := fun x => ∀ t, x.timeout = some t → x.isUp = true → Timed.Timely t x)
    ?_ ?_ t ht hup
  · rintro x ⟨s, secs, -, rfl⟩ t - -
    exact ⟨Nat.zero_le _, Nat.zero_le _⟩
  · rintro x a x' hx ⟨hc, hstep⟩ t ht
    have htx : x.timeout = some t := (Timed.step_timeout hstep).symm.trans ht
    exact Timed.timely_step htx (hx t htx) hc hstep

/-! ## 5. Silence that is not noticed -/

namespace Timed

variable {x : Timed}

/-- The loop waits, and nothing is there for it. -/
structure AtRest (x : Timed) : Prop where
  phase : x.session.phase = .sweep []
  queue : x.session.queue = []
  inbox : x.inbox = []
  asks : x.asks = 0
  askable : x.askOpen = true
  since : x.waitingSince = x.now

/-- An ask just before the timer would fire, and its answer. -/
def askRound (t : Nat) : List TimedEvent := [.pass (t - 1), .statusAsk, .answerAsk]

/-- **One ask** puts the timer off by a whole timeout. -/
theorem askRound_run {t : Nat} (h : AtRest x) (ht : x.timeout = some t) :
    Lts.runWith Timed.step (fun _ _ => true) x (askRound t) =
      some { x with now := x.now + (t - 1), waitingSince := x.now + (t - 1) } := by
  have hup : x.isUp = true := by rw [isUp, h.phase]; rfl
  have hrests : x.rests (t - 1) = true := by
    unfold Timed.rests
    rw [h.phase]
    simp [h.inbox, h.asks, h.queue, ht, h.since]
  have hasks := h.asks
  have hopen : (x.pass (t - 1)).askOpen = true := h.askable
  simp only [askRound, Lts.runWith, Timed.step, hrests, implies_true, if_true, Option.bind_some]
  have hup' : (x.pass (t - 1)).isUp = true := hup
  have hup'' : ({ x.pass (t - 1) with asks := (x.pass (t - 1)).asks + 1 } : Timed).isUp = true := hup
  rw [if_pos hup', if_pos hopen, Option.bind_some, if_pos hup'', answerAsk,
    if_pos ⟨h.phase, Nat.succ_pos _⟩]
  simp [resume, pass, hasks]

end Timed

/-- A session without services goes straight to its loop. -/
theorem established_new_atRest (timeout : Option Nat) :
    Timed.AtRest (.established .new timeout) :=
  ⟨rfl, rfl, rfl, rfl, rfl, rfl⟩

/-- **Asks keep a session up.**  Whatever the timeout, a session that hears nothing from its server
is still up after any number of timeouts, if each of them has a status ask in it. -/
theorem asks_postpone {interval : Nat} {default : Option Nat} {secs : Nat}
    (h : resolveHeartbeatTimeout interval default = .ok (some secs)) (n : Nat) :
    ∃ x, (timedSession interval default).Reach x ∧ x.isUp = true ∧ x.lastArrived = 0 ∧
      x.now = n * (secs * 1000 - 1) := by
  suffices hrun : ∃ x,
      ((timedSession interval default).restrict fun _ _ => True).Reach x ∧ x.AtRest ∧
        x.timeout = some (secs * 1000) ∧ x.lastArrived = 0 ∧ x.now = n * (secs * 1000 - 1) by
    obtain ⟨x, hx, hrest, -, ha, hn⟩ := hrun
    exact ⟨x, hx.of_restrict, by rw [Timed.isUp, hrest.phase]; rfl, ha, hn⟩
  induction n with
  | zero =>
    refine ⟨.established .new (some (secs * 1000)), .init ⟨.new, some secs, h, rfl⟩,
      established_new_atRest _, rfl, rfl, ?_⟩
    exact (Nat.zero_mul _).symm
  | succ n ih =>
    obtain ⟨x, hx, hrest, ht, ha, hn⟩ := ih
    refine ⟨_, hx.runWith (fun _ _ _ h => h) (fun _ _ _ => trivial)
      (Timed.askRound_run hrest ht), ?_, ht, ha, ?_⟩
    · exact ⟨hrest.phase, hrest.queue, hrest.inbox, hrest.asks, hrest.askable, rfl⟩
    · change x.now + (secs * 1000 - 1) = _
      rw [hn, Nat.succ_mul]

/-- A service the client adds while the server is silent. -/
def lateService : ServiceSlot where
  id := 0
  service := { serviceType := .tcp, name := "web", remoteBindAddr := "0.0.0.0:80", token := none,
               remoteAddr := none, noise := none, transparentLanes := 0 }
  token := "secret"
  transport := .plain
  data := { enabled := false, addr := "server:2334", noise := none }
  channels := 0

/-- The server's last frame comes after five seconds, and ten more pass. -/
def lastBeat : List TimedEvent := [.pass 5000, .arrive .notice, .read, .pass 10000]

/-- A status ask after nine seconds of silence. -/
def askedRun : List TimedEvent := [.pass 9000, .statusAsk, .answerAsk, .pass 9000]

/-- A registration the server never answers. -/
def registeringRun : List TimedEvent :=
  [.background (.ask (.register lateService)), .task (.take true), .pass 3600000]

theorem silence_bounded_lastBeat :
    ∃ x, ((timedSession 2 none).restrict fun x a => x.attentive a = true).Reach x ∧
      x.timeout = some 10000 ∧ x.isUp = true ∧ x.now = 15000 ∧ x.now ≤ x.lastArrived + 10000 := by
  have hrun : (Lts.runWith Timed.step Timed.attentive (.established .new (some 10000))
      lastBeat).any (fun x => decide (x.timeout = some 10000 ∧ x.isUp = true ∧
        x.now = 15000)) = true := by
    decide +kernel
  obtain ⟨x, hx, hend⟩ := Lts.Reach.exists_runWith (T := timedSession 2 none)
    (fun _ _ _ h => h) (fun _ _ h => h) ⟨.new, some 10, rfl, rfl⟩ hrun
  obtain ⟨ht, hup, hnow⟩ := of_decide_eq_true hend
  exact ⟨x, hx, ht, hup, hnow, (silence_bounded hx ht hup).1⟩

/-- Another session takes the endpoint of this one, and with it the sender of its asks. -/
def unaskedRun : List TimedEvent := [.asksGone, .pass 3600000]

/-- **A dead server is not noticed**: with a timeout of ten seconds a session is up after eighteen
seconds without a frame, because a status ask was answered in between; it is up after an hour in a
registration the server does not answer; and after an hour in which nobody could ask it anything. -/
theorem silence_unnoticed :
    (∃ x, (timedSession 2 none).Reach x ∧ x.timeout = some 10000 ∧ x.isUp = true ∧
      x.lastArrived = 0 ∧ x.now = 18000) ∧
    (∃ x, (timedSession 2 none).Reach x ∧ x.timeout = some 10000 ∧ x.isUp = true ∧
      x.lastArrived = 0 ∧ x.now = 3600000) ∧
    ∃ x, (timedSession 2 none).Reach x ∧ x.timeout = some 10000 ∧ x.isUp = true ∧
      x.lastArrived = 0 ∧ x.session.queue = [] ∧ x.askOpen = false ∧ x.now = 3600000 := by
  have hinit : (timedSession 2 none).init (.established .new (some 10000)) :=
    ⟨.new, some 10, rfl, rfl⟩
  have hasked : (Lts.runWith Timed.step (fun _ _ => true) (.established .new (some 10000))
      askedRun).any (fun x => decide (x.timeout = some 10000 ∧ x.isUp = true ∧ x.lastArrived = 0 ∧
        x.now = 18000)) = true := by
    decide +kernel
  have hreg : (Lts.runWith Timed.step (fun _ _ => true) (.established .new (some 10000))
      registeringRun).any (fun x => decide (x.timeout = some 10000 ∧ x.isUp = true ∧
        x.lastArrived = 0 ∧ x.now = 3600000)) = true := by
    decide +kernel
  have hunasked : (Lts.runWith Timed.step (fun _ _ => true) (.established .new (some 10000))
      unaskedRun).any (fun x => decide (x.timeout = some 10000 ∧ x.isUp = true ∧
        x.lastArrived = 0 ∧ x.session.queue = [] ∧ x.askOpen = false ∧ x.now = 3600000)) = true := by
    decide +kernel
  refine ⟨?_, ?_, ?_⟩
  · obtain ⟨x, hx, hend⟩ := Lts.Reach.exists_run (T := timedSession 2 none)
      (fun _ _ _ h => h) hinit hasked
    exact ⟨x, hx, of_decide_eq_true hend⟩
  · obtain ⟨x, hx, hend⟩ := Lts.Reach.exists_run (T := timedSession 2 none)
      (fun _ _ _ h => h) hinit hreg
    exact ⟨x, hx, of_decide_eq_true hend⟩
  · obtain ⟨x, hx, hend⟩ := Lts.Reach.exists_run (T := timedSession 2 none)
      (fun _ _ _ h => h) hinit hunasked
    exact ⟨x, hx, of_decide_eq_true hend⟩

end Molehill.Client
