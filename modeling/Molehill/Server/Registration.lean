/-
# The server's registrations

A control session registers services one after another (`SessionCtx::register` in
`core/server.rs`).  A registration takes over the id's previous service, passes the server's
policy, claims its public endpoint, binds it, answers `Ack::Ok`, starts the service's tasks and
puts the handle into the session's map, where the channel handlers find it.  Every `await` on the
way is a point where other tasks run, so each leg between two of them is a step of its own
(`Registering`).

A transparent service binds nothing: what keeps its endpoint unique is a claim in a set of the
whole process (`CLAIMS`), a guard that the service's task drops when it ends.  A takeover and a
deregistration only signal the task; the claim is gone when the task has ended, some time later.
The registration that follows asks for the claim once and takes a refusal for final, although
`bind_with_retry` waits for the same teardown where there is a port to bind.

`no_self_collision`: a refusal is due to another service exactly where the own predecessor has
dropped its claim before the registration asks; and no endpoint ever has two holders.
`refused_by_own_claim` is the re-registration that is refused by its own past.

The texts of the answers are left out: a refusal is the reason it gives (`Reason`).
-/
import Mathlib.Logic.Function.Basic
import Molehill.Lib.Table
import Molehill.Lib.Transition
import Molehill.Client.Config
import Molehill.Pool.Placement
import Molehill.Server.Tunnel
import Molehill.Transparent.Packet

namespace Molehill.Server

open Lib Function
open Molehill.Transparent (SocketAddr)
open Molehill.Client (ServiceType)
open Molehill.Pool (Carrier)

/-! ## 1. The policy -/

/-- Why a registration is refused (`Ack::RegisterRejected`). -/
inductive Reason
  | token
  | capabilities (name : String)
  | portsDisabled (port : Nat)
  | portNotAllowed (port : Nat)
  | listener (error : String)
  | notServed
  | device (error : String)
  | check (error : String)
  | claimed (addr : SocketAddr)
  | hub (error : String)
  | endpoint (error : String)
  deriving DecidableEq

/-- `SessionRegistration`: `auth` says whether its credential is the session's key. -/
structure SessionRegistration where
  service : ServiceId
  auth : Bool
  name : String
  serviceType : ServiceType
  bindAddr : SocketAddr
  carrier : Carrier
  capabilities : Bool
  deriving DecidableEq

/-- What `register_service` reads of the server's configuration. -/
structure ServerPolicy where
  allowPorts : List (Nat × Nat)
  transparent : Option String

/-- What the system answers to the checks of one registration: an error, or nothing. -/
structure Checks where
  kcpListener : Option String
  prepareDevice : Option String
  requireInterface : Option String
  checkServer : Option String

/-- `register_service` up to the claim: the first check that fails. -/
def ServerPolicy.refuses (cfg : ServerPolicy) (checks : Checks) (reg : SessionRegistration) :
    Option Reason :=
  let port := reg.bindAddr.2.toNat
  if reg.serviceType ≠ .transparent ∧ reg.capabilities then some (.capabilities reg.name)
  else if ¬ cfg.allowPorts.any (fun r => r.1 ≤ port ∧ port ≤ r.2) then
    some (if cfg.allowPorts.isEmpty then .portsDisabled port else .portNotAllowed port)
  else
    let carrier := if reg.carrier = .kcp then checks.kcpListener.map Reason.listener else none
    let transparent :=
      if reg.serviceType = .transparent then
        match cfg.transparent with
        | none => some .notServed
        | some _ =>
          (checks.prepareDevice.map Reason.device).or
            ((checks.requireInterface.or checks.checkServer).map Reason.check)
      else none
    carrier.or transparent

/-! ## 2. The state -/

/-- A service's tasks: `starting` until the `Ok` is queued, `acked` until they are spawned,
`stopping` once they are told to end. -/
inductive TaskPhase
  | unborn
  | starting
  | acked
  | running
  | stopping
  | ended
  deriving DecidableEq

/-- One accepted registration and its tasks; `claim` says whether it holds the claim of its
endpoint. -/
structure ServiceTask where
  session : Nat
  service : ServiceId
  endpoint : SocketAddr
  claim : Bool
  phase : TaskPhase
  deriving DecidableEq

def ServiceTask.unborn : ServiceTask := ⟨0, 0, (.v4 0, 0), false, .unborn⟩

/-- The session and the id a task serves. -/
def ServiceTask.owner (t : ServiceTask) : Nat × ServiceId := (t.session, t.service)

/-- `ControlChannelHandle::shutdown`, or the drop of the last handle. -/
def ServiceTask.shutdown (t : ServiceTask) : ServiceTask :=
  if t.phase = .running then { t with phase := .stopping } else t

/-- Where a session's task stands in `register`. -/
inductive Registering
  | unborn
  | idle
  /-- The predecessor is taken over. -/
  | deciding (reg : SessionRegistration)
  /-- The policy has no objection. -/
  | claiming (reg : SessionRegistration)
  | binding (task : Nat)
  | bound (task : Nat)
  /-- `Ack::Ok` is queued. -/
  | acked (task : Nat)
  /-- The tasks are spawned, the handle is not in the map yet. -/
  | created (task : Nat)
  | over
  deriving DecidableEq

/-- A control session; `up` says whether the registry has it. -/
structure Session where
  stage : Registering
  up : Bool
  services : Table ServiceId Nat

/-- One answer to a registration: the task it started, or the reason.  `holder` records, for the
statements, who held the endpoint at that moment. -/
structure Answer where
  session : Nat
  service : ServiceId
  verdict : Except Reason Nat
  holder : Option (Nat × ServiceId)
  deriving DecidableEq

structure ServerState where
  sessions : Nat → Session
  tasks : Nat → ServiceTask
  nextTask : Nat
  claims : List SocketAddr
  answers : List Answer

/-- What happens next on the server. -/
inductive ServerEvent
  | connect (n : Nat)
  /-- The session leaves the registry: its connection ended, or the server shuts down. -/
  | close (n : Nat)
  | register (n : Nat) (reg : SessionRegistration)
  | deregister (n : Nat) (id : ServiceId)
  | decide (n : Nat) (checks : Checks)
  | claim (n : Nat)
  /-- The hub and the endpoint answer, with an error or without. -/
  | bind (n : Nat) (error : Option String)
  | ack (n : Nat)
  | create (n : Nat)
  | insert (n : Nat)
  /-- A service's tasks end: told to, or on their own. -/
  | taskEnds (i : Nat)

/-! ## 3. The step -/

namespace ServerState

def new : ServerState where
  sessions _ := ⟨.unborn, false, ∅⟩
  tasks _ := .unborn
  nextTask := 0
  claims := []
  answers := []

def setSession (s : ServerState) (n : Nat) (session : Session) : ServerState :=
  { s with sessions := update s.sessions n session }

def setStage (s : ServerState) (n : Nat) (stage : Registering) : ServerState :=
  s.setSession n { s.sessions n with stage := stage }

def setTask (s : ServerState) (i : Nat) (task : ServiceTask) : ServerState :=
  { s with tasks := update s.tasks i task }

/-- The task holds the claim of the endpoint. -/
def holds (s : ServerState) (i : Nat) (addr : SocketAddr) : Bool :=
  (s.tasks i).claim ∧ (s.tasks i).endpoint = addr

/-- Who holds the claim of the endpoint. -/
def holderOf (s : ServerState) (addr : SocketAddr) : Option (Nat × ServiceId) :=
  ((List.range s.nextTask).find? (s.holds · addr)).map fun i => (s.tasks i).owner

def answer (s : ServerState) (n : Nat) (service : ServiceId) (verdict : Except Reason Nat)
    (holder : Option (Nat × ServiceId)) : ServerState :=
  { s with answers := s.answers ++ [⟨n, service, verdict, holder⟩] }

/-- `send_ack` of a refusal, which ends the session's task where the registry has no session. -/
def reject (s : ServerState) (n : Nat) (service : ServiceId) (reason : Reason)
    (holder : Option (Nat × ServiceId)) : ServerState :=
  if (s.sessions n).up then (s.answer n service (.error reason) holder).setStage n .idle
  else s.setStage n .over

/-- The tasks are over: the queue's receiver is gone, and the claim is dropped. -/
def endTask (s : ServerState) (i : Nat) : ServerState :=
  { s with
    tasks := update s.tasks i { s.tasks i with claim := false, phase := .ended }
    claims := if (s.tasks i).claim then s.claims.erase (s.tasks i).endpoint else s.claims }

/-- `services.remove` and `shutdown`. -/
def takeOver (s : ServerState) (n : Nat) (id : ServiceId) : ServerState :=
  match (s.sessions n).services.lookup id with
  | some i =>
    (s.setTask i (s.tasks i).shutdown).setSession n
      { s.sessions n with services := (s.sessions n).services.erase id }
  | none => s

/-- `Claim::acquire`, and the record of the registration from here on. -/
def acquire (s : ServerState) (n : Nat) (reg : SessionRegistration) (claim : Bool) : ServerState :=
  let task := ⟨n, reg.service, reg.bindAddr, claim, .starting⟩
  { s.setTask s.nextTask task with
    nextTask := s.nextTask + 1
    claims := if claim then reg.bindAddr :: s.claims else s.claims }

/-- The reason an endpoint is not served after it is claimed: the hub's of a transparent
service, else the socket's. -/
def unserved (t : ServiceTask) (error : String) : Reason :=
  if t.claim then .hub error else .endpoint error

/-- One step of the server, if it is enabled. -/
def step (cfg : ServerPolicy) (s : ServerState) : ServerEvent → Option ServerState
  | .connect n =>
    if (s.sessions n).stage = .unborn then some (s.setSession n ⟨.idle, true, ∅⟩) else none
  | .close n =>
    if (s.sessions n).up then
      let gone := (s.sessions n).services.entries.map (·.2)
      let stage := if (s.sessions n).stage = .idle then .over else (s.sessions n).stage
      some { s.setSession n ⟨stage, false, ∅⟩ with
        tasks := fun i => if i ∈ gone then (s.tasks i).shutdown else s.tasks i }
    else none
  | .register n reg =>
    if (s.sessions n).stage = .idle then
      if reg.auth then some ((s.takeOver n reg.service).setStage n (.deciding reg))
      else some (s.reject n reg.service .token none)
    else none
  | .deregister n id =>
    if (s.sessions n).stage = .idle then some (s.takeOver n id) else none
  | .decide n checks =>
    match (s.sessions n).stage with
    | .deciding reg =>
      match cfg.refuses checks reg with
      | some reason => some (s.reject n reg.service reason none)
      | none => some (s.setStage n (.claiming reg))
    | _ => none
  | .claim n =>
    match (s.sessions n).stage with
    | .claiming reg =>
      if reg.serviceType = .transparent then
        if reg.bindAddr ∈ s.claims then
          some (s.reject n reg.service (.claimed reg.bindAddr) (s.holderOf reg.bindAddr))
        else some ((s.acquire n reg true).setStage n (.binding s.nextTask))
      else some ((s.acquire n reg false).setStage n (.binding s.nextTask))
    | _ => none
  | .bind n error =>
    match (s.sessions n).stage with
    | .binding i =>
      match error with
      | some e => some ((s.endTask i).reject n (s.tasks i).service (unserved (s.tasks i) e) none)
      | none => some (s.setStage n (.bound i))
    | _ => none
  | .ack n =>
    match (s.sessions n).stage with
    | .bound i =>
      if (s.sessions n).up then
        some (((s.answer n (s.tasks i).service (.ok i) none).setTask i
          { s.tasks i with phase := .acked }).setStage n (.acked i))
      -- the session is gone, and the registration with it
      else some ((s.endTask i).setStage n .over)
    | _ => none
  | .create n =>
    match (s.sessions n).stage with
    | .acked i =>
      if (s.sessions n).up then
        some ((s.setTask i { s.tasks i with phase := .running }).setStage n (.created i))
      else some ((s.endTask i).setStage n .over)
    | _ => none
  | .insert n =>
    match (s.sessions n).stage with
    | .created i =>
      if (s.sessions n).up then
        some (s.setSession n ⟨.idle, true, (s.sessions n).services.insert (s.tasks i).service i⟩)
      -- the handle is dropped instead
      else some ((s.setTask i (s.tasks i).shutdown).setStage n .over)
    | _ => none
  | .taskEnds i =>
    match (s.tasks i).phase with
    | .running | .stopping => some (s.endTask i)
    | _ => none

end ServerState

/-- One server. -/
def registration (cfg : ServerPolicy) : Lts ServerState ServerEvent where
  init s := s = .new
  step s e s' := s.step cfg e = some s'

/-! ## 4. What a step can do -/

namespace ServerState

/-- A stage at which the session's task holds no registration of its own. -/
def Free (stage : Registering) : Prop :=
  stage = .idle ∨ stage = .over ∨ ∃ reg, stage = .deciding reg ∨ stage = .claiming reg

/-- **What a step can do**, with what was the case before it. -/
inductive Turn (s : ServerState) : ServerEvent → ServerState → Prop
  | connect (n) (hn : (s.sessions n).stage = .unborn) :
      Turn s (.connect n) (s.setSession n ⟨.idle, true, ∅⟩)
  | close (n) (hup : (s.sessions n).up = true) :
      Turn s (.close n) { s.setSession n
          ⟨if (s.sessions n).stage = .idle then .over else (s.sessions n).stage, false, ∅⟩ with
        tasks := fun i => if i ∈ (s.sessions n).services.entries.map (·.2)
          then (s.tasks i).shutdown else s.tasks i }
  | takeOver (n reg) (hn : (s.sessions n).stage = .idle) :
      Turn s (.register n reg) ((s.takeOver n reg.service).setStage n (.deciding reg))
  | refuseToken (n reg) (hn : (s.sessions n).stage = .idle) :
      Turn s (.register n reg) (s.reject n reg.service .token none)
  | deregister (n id) (hn : (s.sessions n).stage = .idle) :
      Turn s (.deregister n id) (s.takeOver n id)
  | refusePolicy (n checks reg reason) (hn : (s.sessions n).stage = .deciding reg)
      (hreason : ∀ addr, reason ≠ .claimed addr) :
      Turn s (.decide n checks) (s.reject n reg.service reason none)
  | decide (n checks reg) (hn : (s.sessions n).stage = .deciding reg) :
      Turn s (.decide n checks) (s.setStage n (.claiming reg))
  | refuseClaim (n reg) (hn : (s.sessions n).stage = .claiming reg)
      (htype : reg.serviceType = .transparent) (hclaimed : reg.bindAddr ∈ s.claims) :
      Turn s (.claim n)
        (s.reject n reg.service (.claimed reg.bindAddr) (s.holderOf reg.bindAddr))
  | claim (n reg) (hn : (s.sessions n).stage = .claiming reg)
      (hfree : reg.serviceType = .transparent → reg.bindAddr ∉ s.claims) :
      Turn s (.claim n) ((s.acquire n reg (reg.serviceType = .transparent)).setStage n
        (.binding s.nextTask))
  | refuseBind (n i error) (hn : (s.sessions n).stage = .binding i) :
      Turn s (.bind n (some error))
        ((s.endTask i).reject n (s.tasks i).service (unserved (s.tasks i) error) none)
  | bind (n i) (hn : (s.sessions n).stage = .binding i) :
      Turn s (.bind n none) (s.setStage n (.bound i))
  | ack (n i) (hn : (s.sessions n).stage = .bound i) (hup : (s.sessions n).up = true) :
      Turn s (.ack n) (((s.answer n (s.tasks i).service (.ok i) none).setTask i
        { s.tasks i with phase := .acked }).setStage n (.acked i))
  | abandonBound (n i) (hn : (s.sessions n).stage = .bound i) (hdown : (s.sessions n).up ≠ true) :
      Turn s (.ack n) ((s.endTask i).setStage n .over)
  | create (n i) (hn : (s.sessions n).stage = .acked i) (hup : (s.sessions n).up = true) :
      Turn s (.create n) ((s.setTask i { s.tasks i with phase := .running }).setStage n (.created i))
  | abandonAcked (n i) (hn : (s.sessions n).stage = .acked i) (hdown : (s.sessions n).up ≠ true) :
      Turn s (.create n) ((s.endTask i).setStage n .over)
  | insert (n i) (hn : (s.sessions n).stage = .created i) (hup : (s.sessions n).up = true) :
      Turn s (.insert n)
        (s.setSession n ⟨.idle, true, (s.sessions n).services.insert (s.tasks i).service i⟩)
  | dropHandle (n i) (hn : (s.sessions n).stage = .created i) (hdown : (s.sessions n).up ≠ true) :
      Turn s (.insert n) ((s.setTask i (s.tasks i).shutdown).setStage n .over)
  | taskEnds (i) (hi : (s.tasks i).phase = .running ∨ (s.tasks i).phase = .stopping) :
      Turn s (.taskEnds i) (s.endTask i)

theorem refuses_ne_claimed {cfg : ServerPolicy} {checks : Checks} {reg : SessionRegistration}
    {reason : Reason} (h : cfg.refuses checks reg = some reason) (addr : SocketAddr) :
    reason ≠ .claimed addr := by
  rintro rfl
  simp only [ServerPolicy.refuses] at h
  split at h
  · cases h
  · split at h
    · simp only [Option.some.injEq] at h
      split at h <;> cases h
    · rcases Option.or_eq_some_iff.mp h with h | ⟨_, h⟩
      · split at h
        · simp at h
        · cases h
      · split at h
        · split at h
          · cases h
          · simp [Option.or_eq_some_iff] at h
        · cases h

theorem turn_of_step {cfg : ServerPolicy} {s s' : ServerState} {e : ServerEvent}
    (h : s.step cfg e = some s') : Turn s e s' := by
  cases e with
  | connect n =>
    simp only [ServerState.step, Option.ite_none_right_eq_some, Option.some.injEq] at h
    obtain ⟨hn, rfl⟩ := h
    exact .connect _ hn
  | close n =>
    simp only [ServerState.step, Option.ite_none_right_eq_some, Option.some.injEq] at h
    obtain ⟨hup, rfl⟩ := h
    exact .close _ hup
  | register n reg =>
    simp only [ServerState.step, Option.ite_none_right_eq_some] at h
    obtain ⟨hn, h⟩ := h
    split at h
    · obtain rfl := Option.some.inj h
      exact .takeOver _ _ hn
    · obtain rfl := Option.some.inj h
      exact .refuseToken _ _ hn
  | deregister n id =>
    simp only [ServerState.step, Option.ite_none_right_eq_some, Option.some.injEq] at h
    obtain ⟨hn, rfl⟩ := h
    exact .deregister _ _ hn
  | decide n checks =>
    simp only [ServerState.step] at h
    split at h
    case h_2 => cases h
    case h_1 reg hn =>
      split at h
      case h_1 reason hreason =>
        obtain rfl := Option.some.inj h
        exact .refusePolicy _ _ _ _ hn (refuses_ne_claimed hreason)
      case h_2 =>
        obtain rfl := Option.some.inj h
        exact .decide _ _ _ hn
  | claim n =>
    simp only [ServerState.step] at h
    split at h
    case h_2 => cases h
    case h_1 reg hn =>
      split at h
      case isTrue htype =>
        split at h
        case isTrue hclaimed =>
          obtain rfl := Option.some.inj h
          exact .refuseClaim _ _ hn htype hclaimed
        case isFalse hfree =>
          obtain rfl := Option.some.inj h
          have hturn := Turn.claim _ _ hn fun _ => hfree
          rwa [decide_eq_true htype] at hturn
      case isFalse htype =>
        obtain rfl := Option.some.inj h
        have hturn := Turn.claim _ _ hn fun h => absurd h htype
        rwa [decide_eq_false htype] at hturn
  | bind n error =>
    simp only [ServerState.step] at h
    split at h
    case h_2 => cases h
    case h_1 i hn =>
      split at h
      · obtain rfl := Option.some.inj h
        exact .refuseBind _ _ _ hn
      · obtain rfl := Option.some.inj h
        exact .bind _ _ hn
  | ack n =>
    simp only [ServerState.step] at h
    split at h
    case h_2 => cases h
    case h_1 i hn =>
      split at h
      case isTrue hup =>
        obtain rfl := Option.some.inj h
        exact .ack _ _ hn hup
      case isFalse hdown =>
        obtain rfl := Option.some.inj h
        exact .abandonBound _ _ hn hdown
  | create n =>
    simp only [ServerState.step] at h
    split at h
    case h_2 => cases h
    case h_1 i hn =>
      split at h
      case isTrue hup =>
        obtain rfl := Option.some.inj h
        exact .create _ _ hn hup
      case isFalse hdown =>
        obtain rfl := Option.some.inj h
        exact .abandonAcked _ _ hn hdown
  | insert n =>
    simp only [ServerState.step] at h
    split at h
    case h_2 => cases h
    case h_1 i hn =>
      split at h
      case isTrue hup =>
        obtain rfl := Option.some.inj h
        exact .insert _ _ hn hup
      case isFalse hdown =>
        obtain rfl := Option.some.inj h
        exact .dropHandle _ _ hn hdown
  | taskEnds i =>
    simp only [ServerState.step] at h
    split at h
    case h_1 hi =>
      obtain rfl := Option.some.inj h
      exact .taskEnds _ (.inl hi)
    case h_2 hi =>
      obtain rfl := Option.some.inj h
      exact .taskEnds _ (.inr hi)
    case h_3 => cases h

/-! ## 5. Claims and their holders -/

/-- The claims are the endpoints of the tasks that hold one, each of one task. -/
structure Kept (s : ServerState) : Prop where
  fresh : ∀ i, s.nextTask ≤ i → (s.tasks i).claim = false
  nodup : s.claims.Nodup
  held : ∀ a, a ∈ s.claims ↔ ∃ i, s.holds i a = true
  unique : ∀ i j a, s.holds i a = true → s.holds j a = true → i = j

theorem holds_iff {s : ServerState} {i : Nat} {a : SocketAddr} :
    s.holds i a = true ↔ (s.tasks i).claim = true ∧ (s.tasks i).endpoint = a := by
  simp [holds]

theorem Kept.new : Kept new where
  fresh _ _ := rfl
  nodup := List.nodup_nil
  held a := by simp [holds, ServerState.new, ServiceTask.unborn]
  unique i j a hi := by simp [holds, ServerState.new, ServiceTask.unborn] at hi

/-- The task that holds a claim is found. -/
theorem Kept.holderOf {s : ServerState} (hs : s.Kept) {i : Nat} {a : SocketAddr}
    (hi : s.holds i a = true) : s.holderOf a = some (s.tasks i).owner := by
  have hlt : i < s.nextTask := by
    by_contra hge
    have := hs.fresh i (by omega)
    simp [holds_iff, this] at hi
  rcases hfind : (List.range s.nextTask).find? (s.holds · a) with _ | j
  · have := List.find?_eq_none.mp hfind i (List.mem_range.mpr hlt)
    exact absurd hi this
  · have hj := List.find?_some hfind
    rw [ServerState.holderOf, hfind, hs.unique i j a hi hj]
    rfl

/-- What does not touch the claims keeps them. -/
theorem Kept.congr {s s' : ServerState} (hs : s.Kept) (hclaims : s'.claims = s.claims)
    (hnext : s'.nextTask = s.nextTask)
    (htasks : ∀ i, (s'.tasks i).claim = (s.tasks i).claim ∧
      (s'.tasks i).endpoint = (s.tasks i).endpoint) : s'.Kept := by
  have hholds : ∀ i a, s'.holds i a = s.holds i a := by
    intro i a
    rw [holds, holds, (htasks i).1, (htasks i).2]
  constructor
  · intro i hi
    rw [(htasks i).1]
    exact hs.fresh i (hnext ▸ hi)
  · rw [hclaims]
    exact hs.nodup
  · intro a
    simp only [hclaims, hholds]
    exact hs.held a
  · intro i j a
    simp only [hholds]
    exact hs.unique i j a

theorem Kept.setTask {s : ServerState} (hs : s.Kept) (i : Nat) (t : ServiceTask)
    (hclaim : t.claim = (s.tasks i).claim) (hend : t.endpoint = (s.tasks i).endpoint) :
    (s.setTask i t).Kept := by
  refine hs.congr rfl rfl fun j => ?_
  by_cases hj : j = i
  · subst hj
    simp [ServerState.setTask, hclaim, hend]
  · simp [ServerState.setTask, hj]

theorem Kept.setPhase {s : ServerState} (hs : s.Kept) (i : Nat) (phase : TaskPhase) :
    (s.setTask i { s.tasks i with phase := phase }).Kept :=
  hs.setTask i { s.tasks i with phase := phase } rfl rfl

theorem shutdown_claim (t : ServiceTask) : t.shutdown.claim = t.claim := by
  rw [ServiceTask.shutdown]
  split <;> rfl

theorem shutdown_endpoint (t : ServiceTask) : t.shutdown.endpoint = t.endpoint := by
  rw [ServiceTask.shutdown]
  split <;> rfl

theorem Kept.takeOver {s : ServerState} (hs : s.Kept) (n : Nat) (id : ServiceId) :
    (s.takeOver n id).Kept := by
  rw [ServerState.takeOver]
  split
  · exact (hs.setTask _ _ (shutdown_claim _) (shutdown_endpoint _)).congr rfl rfl
      fun _ => ⟨rfl, rfl⟩
  · exact hs

theorem Kept.reject {s : ServerState} (hs : s.Kept) (n : Nat) (service : ServiceId)
    (reason : Reason) (holder : Option (Nat × ServiceId)) :
    (s.reject n service reason holder).Kept := by
  rw [ServerState.reject]
  split <;> exact hs.congr rfl rfl fun _ => ⟨rfl, rfl⟩

/-- A claim is granted where nobody has it. -/
theorem Kept.acquire {s : ServerState} (hs : s.Kept) (n : Nat) (reg : SessionRegistration)
    (claim : Bool) (hfree : claim = true → reg.bindAddr ∉ s.claims) :
    (s.acquire n reg claim).Kept := by
  have hnone : ∀ a, s.holds s.nextTask a = false := by
    intro a
    simp [holds, hs.fresh s.nextTask le_rfl]
  have hholds : ∀ i a, (s.acquire n reg claim).holds i a =
      if i = s.nextTask then decide (claim = true ∧ reg.bindAddr = a) else s.holds i a := by
    intro i a
    by_cases hi : i = s.nextTask
    · simp [holds, ServerState.acquire, ServerState.setTask, hi]
    · simp [holds, ServerState.acquire, ServerState.setTask, hi]
  constructor
  · intro i hi
    have hlt : s.nextTask < i := hi
    have hne : i ≠ s.nextTask := by omega
    simp only [ServerState.acquire, ServerState.setTask, update_of_ne hne]
    exact hs.fresh i hlt.le
  · rw [ServerState.acquire]
    cases claim with
    | true => exact List.nodup_cons.mpr ⟨hfree rfl, hs.nodup⟩
    | false => exact hs.nodup
  · intro a
    simp only [hholds]
    constructor
    · intro ha
      have : (claim = true ∧ reg.bindAddr = a) ∨ a ∈ s.claims := by
        cases claim with
        | true =>
          rcases List.mem_cons.mp ha with rfl | ha
          · exact .inl ⟨rfl, rfl⟩
          · exact .inr ha
        | false => exact .inr ha
      rcases this with hnew | ha
      · exact ⟨s.nextTask, by simpa using hnew⟩
      · obtain ⟨i, hi⟩ := (hs.held a).mp ha
        have hne : i ≠ s.nextTask := by
          rintro rfl
          simp [hnone] at hi
        exact ⟨i, by simpa [hne] using hi⟩
    · rintro ⟨i, hi⟩
      split at hi
      · obtain ⟨rfl, rfl⟩ := of_decide_eq_true hi
        exact List.mem_cons_self
      · have ha := (hs.held a).mpr ⟨i, hi⟩
        rw [ServerState.acquire]
        cases claim with
        | true => exact List.mem_cons_of_mem _ ha
        | false => exact ha
  · intro i j a hi hj
    simp only [hholds] at hi hj
    split at hi
    case isTrue hin =>
      split at hj
      case isTrue hjn => omega
      case isFalse =>
        obtain ⟨hc, rfl⟩ := of_decide_eq_true hi
        exact absurd ((hs.held _).mpr ⟨j, hj⟩) (hfree hc)
    case isFalse =>
      split at hj
      case isTrue =>
        obtain ⟨hc, rfl⟩ := of_decide_eq_true hj
        exact absurd ((hs.held _).mpr ⟨i, hi⟩) (hfree hc)
      case isFalse => exact hs.unique i j a hi hj

/-- A task that ends drops its claim and no other. -/
theorem Kept.endTask {s : ServerState} (hs : s.Kept) (i : Nat) : (s.endTask i).Kept := by
  have hholds : ∀ j a, (s.endTask i).holds j a = (decide (j ≠ i) && s.holds j a) := by
    intro j a
    by_cases hj : j = i
    · simp [holds, ServerState.endTask, hj]
    · simp [holds, ServerState.endTask, hj]
  constructor
  · intro j hj
    by_cases hji : j = i
    · simp [ServerState.endTask, hji]
    · simp only [ServerState.endTask, update_of_ne hji]
      exact hs.fresh j hj
  · rw [ServerState.endTask]
    dsimp only
    split
    · exact hs.nodup.erase _
    · exact hs.nodup
  · intro a
    have hclaims : a ∈ (s.endTask i).claims ↔ a ∈ s.claims ∧ s.holds i a = false := by
      rw [ServerState.endTask]
      dsimp only
      split
      case isTrue hc =>
        rw [hs.nodup.mem_erase_iff]
        simp only [holds, hc, true_and, decide_eq_false_iff_not]
        exact ⟨fun h => ⟨h.2, fun h' => h.1 h'.symm⟩, fun h => ⟨fun h' => h.2 h'.symm, h.1⟩⟩
      case isFalse hc => simp [holds, hc]
    rw [hclaims, hs.held a]
    simp only [hholds, Bool.and_eq_true, decide_eq_true_eq]
    constructor
    · rintro ⟨⟨j, hj⟩, hi⟩
      refine ⟨j, ?_, hj⟩
      rintro rfl
      simp [hj] at hi
    · rintro ⟨j, hne, hj⟩
      refine ⟨⟨j, hj⟩, ?_⟩
      by_contra hi
      exact hne (hs.unique j i a hj (by simpa using hi))
  · intro j k a hj hk
    simp only [hholds, Bool.and_eq_true] at hj hk
    exact hs.unique j k a hj.2 hk.2

/-- **One holder, one step.** -/
theorem Kept.step {cfg : ServerPolicy} {s s' : ServerState} {e : ServerEvent} (hs : s.Kept)
    (h : s.step cfg e = some s') : s'.Kept := by
  have hsame : ∀ {x : ServerState}, x.Kept → ∀ n stage, (x.setStage n stage).Kept :=
    fun hx _ _ => hx.congr rfl rfl fun _ => ⟨rfl, rfl⟩
  cases turn_of_step h with
  | connect | bind | insert => exact hs.congr rfl rfl fun _ => ⟨rfl, rfl⟩
  | close =>
    refine hs.congr rfl rfl fun i => ?_
    dsimp only
    split
    · exact ⟨shutdown_claim _, shutdown_endpoint _⟩
    · exact ⟨rfl, rfl⟩
  | takeOver => exact hsame (hs.takeOver _ _) _ _
  | deregister => exact hs.takeOver _ _
  | refuseToken | refusePolicy | refuseClaim => exact hs.reject _ _ _ _
  | decide => exact hsame hs _ _
  | claim n reg _ hfree => exact hsame (hs.acquire n reg _ fun h => hfree (of_decide_eq_true h)) n _
  | refuseBind => exact (hs.endTask _).reject _ _ _ _
  | ack n i =>
    have hanswered : (s.answer n (s.tasks i).service (.ok i) none).Kept :=
      hs.congr rfl rfl fun _ => ⟨rfl, rfl⟩
    exact hsame (hanswered.setPhase i .acked) n _
  | create n i => exact hsame (hs.setPhase i .running) n _
  | abandonBound | abandonAcked => exact hsame (hs.endTask _) _ _
  | dropHandle => exact hsame (hs.setTask _ _ (shutdown_claim _) (shutdown_endpoint _)) _ _
  | taskEnds => exact hs.endTask _

/-- The claims of every reachable state. -/
theorem kept_of_reach {cfg : ServerPolicy} {s : ServerState} (h : (registration cfg).Reach s) :
    s.Kept := by
  refine h.invariant ?_ ?_
  · rintro s rfl
    exact Kept.new
  · intro s e s' hs hstep
    exact hs.step hstep

end ServerState

/-! ## 6. Refusals -/

/-- A refusal for a claimed endpoint is due to another service. -/
def Answer.Fair (x : Answer) : Prop :=
  ∀ addr, x.verdict = .error (.claimed addr) →
    ∃ owner, x.holder = some owner ∧ owner ≠ (x.session, x.service)

namespace ServerState

def Fair (s : ServerState) : Prop := ∀ x ∈ s.answers, x.Fair

/-- A registration asks for a claim only after the tasks of the same service that held it have
dropped it. -/
def settled (s : ServerState) : ServerEvent → Bool
  | .claim n =>
    match (s.sessions n).stage with
    | .claiming reg =>
      reg.serviceType ≠ .transparent ∨ ¬ (s.sessions n).up ∨
        (List.range s.nextTask).all fun i =>
          ¬ (s.holds i reg.bindAddr ∧ (s.tasks i).owner = (n, reg.service))
    | _ => true
  | _ => true

theorem Fair.answer {s : ServerState} (hs : s.Fair) (n : Nat) (service : ServiceId)
    (verdict : Except Reason Nat) (holder : Option (Nat × ServiceId)) :
    (s.answer n service verdict holder).Fair ↔ Answer.Fair ⟨n, service, verdict, holder⟩ := by
  constructor
  · intro h
    exact h _ (List.mem_append_right _ List.mem_cons_self)
  · intro h x hx
    rcases List.mem_append.mp hx with hx | hx
    · exact hs x hx
    · rw [List.mem_singleton.mp hx]
      exact h

/-- A refusal for another reason is fair. -/
theorem Fair.reject {s : ServerState} (hs : s.Fair) (n : Nat) (service : ServiceId)
    {reason : Reason} (hreason : ∀ addr, reason ≠ .claimed addr)
    (holder : Option (Nat × ServiceId)) : (s.reject n service reason holder).Fair := by
  rw [ServerState.reject]
  split
  · refine (hs.answer n service (.error reason) holder).mpr fun addr h => ?_
    cases h
    exact absurd rfl (hreason addr)
  · exact hs

theorem unserved_ne_claimed (t : ServiceTask) (e : String) (addr : SocketAddr) :
    unserved t e ≠ .claimed addr := by
  rw [unserved]
  split <;> simp

/-- The answers are what decides fairness. -/
theorem Fair.congr {s s' : ServerState} (hs : s.Fair) (h : s'.answers = s.answers) : s'.Fair := by
  intro x hx
  exact hs x (h ▸ hx)

theorem takeOver_answers (s : ServerState) (n : Nat) (id : ServiceId) :
    (s.takeOver n id).answers = s.answers := by
  rw [takeOver]
  split <;> rfl

/-- A refusal of a claimed endpoint is fair exactly when the registration asked after the tasks of
its own service had dropped the claim. -/
theorem fair_refuseClaim {s : ServerState} (hk : s.Kept) (hs : s.Fair) {n : Nat}
    {reg : SessionRegistration} (hstage : (s.sessions n).stage = .claiming reg)
    (htype : reg.serviceType = .transparent) (hclaimed : reg.bindAddr ∈ s.claims) :
    (s.reject n reg.service (.claimed reg.bindAddr) (s.holderOf reg.bindAddr)).Fair ↔
      s.settled (.claim n) = true := by
  obtain ⟨i, hi⟩ := (hk.held _).mp hclaimed
  have hholder := hk.holderOf hi
  have hlt : i < s.nextTask := by
    by_contra hge
    have := hk.fresh i (by omega)
    simp [holds_iff, this] at hi
  by_cases hup : (s.sessions n).up = true
  · have hfair : (s.reject n reg.service (.claimed reg.bindAddr)
        (s.holderOf reg.bindAddr)).Fair ↔ (s.tasks i).owner ≠ (n, reg.service) := by
      rw [reject, if_pos hup, hholder]
      refine (hs.answer n reg.service _ _).trans ?_
      simp [Answer.Fair]
    rw [hfair]
    simp only [settled, hstage, List.all_eq_true, decide_eq_true_eq, List.mem_range, htype, hup,
      ne_eq, not_true_eq_false, false_or]
    constructor
    · intro howner j _ hj
      rw [hk.unique i j _ hi hj.1] at howner
      exact howner hj.2
    · intro hall howner
      exact hall i hlt ⟨hi, howner⟩
  · refine iff_of_true ?_ ?_
    · rw [reject, if_neg hup]
      exact hs.congr rfl
    · simp [settled, hstage, hup]

/-- **One step.**  From fair answers, a step leads to fair answers if and only if it is settled. -/
theorem fair_step {cfg : ServerPolicy} {s s' : ServerState} {e : ServerEvent} (hk : s.Kept)
    (hs : s.Fair) (h : s.step cfg e = some s') : s'.Fair ↔ s.settled e = true := by
  cases turn_of_step h with
  | connect | close | decide | bind | abandonBound | create | abandonAcked | insert | dropHandle
  | taskEnds => exact iff_of_true (hs.congr rfl) rfl
  | takeOver | deregister => exact iff_of_true (hs.congr (takeOver_answers _ _ _)) rfl
  | refuseToken => exact iff_of_true (hs.reject _ _ (by simp) _) rfl
  | refusePolicy _ _ _ _ _ hreason => exact iff_of_true (hs.reject _ _ hreason _) rfl
  | refuseClaim n reg hstage htype hclaimed =>
    exact fair_refuseClaim hk hs hstage htype hclaimed
  | claim n reg hstage hfree =>
    refine iff_of_true (hs.congr rfl) ?_
    simp only [settled, hstage, List.all_eq_true, decide_eq_true_eq]
    -- nobody holds the endpoint of a transparent service
    by_cases htype : reg.serviceType = .transparent
    · exact .inr (.inr fun i _ hi => hfree htype ((hk.held _).mpr ⟨i, hi.1⟩))
    · exact .inl htype
  | refuseBind n i =>
    have hend : (s.endTask i).Fair := hs.congr rfl
    exact iff_of_true (hend.reject _ _ (unserved_ne_claimed _ _) _) rfl
  | ack =>
    refine iff_of_true ?_ rfl
    refine Fair.congr ((hs.answer _ _ (.ok _) none).mpr ?_) rfl
    intro addr hx
    cases hx

/-- **Re-registration.**  In every run each claimed endpoint has one holder.  In a run of settled
steps every refusal of a claimed endpoint is due to another service, and the next step keeps it so
if and only if it is settled as well. -/
theorem no_self_collision (cfg : ServerPolicy) :
    (∀ s, (registration cfg).Reach s →
      (∀ i j a, s.holds i a = true → s.holds j a = true → i = j) ∧
      ∀ a, a ∈ s.claims ↔ ∃ i, s.holds i a = true) ∧
    ∀ s, ((registration cfg).restrict fun s e => s.settled e = true).Reach s →
      s.Fair ∧ ∀ e s', s.step cfg e = some s' → (s'.Fair ↔ s.settled e = true) := by
  constructor
  · intro s h
    have hk := kept_of_reach h
    exact ⟨hk.unique, hk.held⟩
  · intro s h
    have hfair : s.Kept ∧ s.Fair := by
      refine h.invariant (P := fun s => s.Kept ∧ s.Fair) ?_ ?_
      · rintro s rfl
        refine ⟨Kept.new, ?_⟩
        intro x hx
        cases hx
      · rintro s e s' ⟨hk, hs⟩ ⟨hsettled, hstep⟩
        exact ⟨hk.step hstep, (fair_step hk hs hstep).mpr hsettled⟩
    exact ⟨hfair.2, fun e s' hstep => fair_step hfair.1 hfair.2 hstep⟩

end ServerState

/-! ## 7. Runs -/

/-- A server that serves the ports up to 1024 and has a TUN device. -/
def openServer : ServerPolicy := ⟨[(1, 1024)], some "mh0"⟩

/-- Service 5 claims `10.99.0.1:443`. -/
def webRegistration : SessionRegistration :=
  ⟨5, true, "web", .transparent, (.v4 0x0a630001, 443), .tcp, true⟩

/-- The registration up to the claim, on session `n`. -/
def asks (n : Nat) : List ServerEvent :=
  [.register n webRegistration, .decide n ⟨none, none, none, none⟩, .claim n]

/-- The rest of it. -/
def serves (n : Nat) : List ServerEvent := [.bind n none, .ack n, .create n, .insert n]

/-- Session 0 registers the service, registers it again once the first task has ended, and then
session 1 asks for the same endpoint. -/
def settledRun : List ServerEvent :=
  .connect 0 :: asks 0 ++ serves 0 ++
    [.register 0 webRegistration, .decide 0 ⟨none, none, none, none⟩, .taskEnds 0, .claim 0] ++
    serves 0 ++ .connect 1 :: asks 1

theorem no_self_collision_settled :
    ∃ s, ((registration openServer).restrict fun s e => s.settled e = true).Reach s ∧
      s.answers = [⟨0, 5, .ok 0, none⟩, ⟨0, 5, .ok 1, none⟩,
        ⟨1, 5, .error (.claimed (.v4 0x0a630001, 443)), some (0, 5)⟩] ∧ s.Fair := by
  have hrun : (Lts.runWith (ServerState.step openServer) ServerState.settled .new settledRun).any
      (fun s => decide (s.answers = [⟨0, 5, .ok 0, none⟩, ⟨0, 5, .ok 1, none⟩,
        ⟨1, 5, .error (.claimed (.v4 0x0a630001, 443)), some (0, 5)⟩])) = true := by
    decide +kernel
  obtain ⟨s, hs, hend⟩ := Lts.Reach.exists_runWith (T := registration openServer)
    (fun _ _ _ h => h) (fun _ _ h => h) rfl hrun
  exact ⟨s, hs, of_decide_eq_true hend, ((ServerState.no_self_collision openServer).2 s hs).1⟩

/-- **A service is refused by its own past.**  The session registers it again before the first
task has ended: the answer is that the endpoint is claimed, and its holder is that task. -/
theorem refused_by_own_claim :
    ∃ s, (registration openServer).Reach s ∧
      s.answers = [⟨0, 5, .ok 0, none⟩,
        ⟨0, 5, .error (.claimed (.v4 0x0a630001, 443)), some (0, 5)⟩] ∧ ¬ s.Fair := by
  have hrun : (Lts.runWith (ServerState.step openServer) (fun _ _ => true) .new
      (.connect 0 :: asks 0 ++ serves 0 ++ asks 0)).any
      (fun s => decide (s.answers = [⟨0, 5, .ok 0, none⟩,
        ⟨0, 5, .error (.claimed (.v4 0x0a630001, 443)), some (0, 5)⟩])) = true := by
    decide +kernel
  obtain ⟨s, hs, hend⟩ :=
    Lts.Reach.exists_run (T := registration openServer) (fun _ _ _ h => h) rfl hrun
  have hanswers := of_decide_eq_true hend
  refine ⟨s, hs, hanswers, fun hfair => ?_⟩
  have hmem : (⟨0, 5, .error (.claimed (.v4 0x0a630001, 443)), some (0, 5)⟩ : Answer) ∈
      s.answers := by
    rw [hanswers]
    exact List.mem_cons_of_mem _ List.mem_cons_self
  obtain ⟨owner, howner, hne⟩ := hfair _ hmem _ rfl
  cases howner
  exact hne rfl

end Molehill.Server
