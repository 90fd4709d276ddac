/-
# Channels after the `Ok`

A client opens data channels for a service once it has read the `Ok` of its registration: direct
ones, which `do_v4_data_channel` looks up in the session and hands to the service's queue, and
streams of a tunnel, which the tunnel's loop takes one by one (`route_tunnel_stream`).  The server
queues the `Ok` before it puts the service's handle into the session's map, so that the `Ok` stays
ahead of the service's first command; a channel that is looked up in between finds nothing and is
dropped, although its service is registered.  And a tunnel's loop ends at the first queue whose
receiver is gone, with every stream that waits behind.

`handed_unless_gone`: in a run without these two, no channel of a live service is dropped, and
what is handed over goes to the service it was opened for; from a state of such a run, a step
keeps this exactly where it is neither of the two.  `dropped_after_ok` is the lost first channel.

The server's side is `Registration`; a service is live from its `Ok` until its tasks are told to
stop or end, or its session is gone.
-/
import Molehill.Server.Registration

namespace Molehill.Server

open Lib Function

/-! ## 1. Where a service is -/

namespace ServerState

/-- The phases of a task whose handle exists or existed. -/
def Created (p : TaskPhase) : Prop := p = .running ∨ p = .stopping ∨ p = .ended

/-- The phases after the `Ok`. -/
def Acked (p : TaskPhase) : Prop := p = .acked ∨ Created p

/-- The service is registered, and neither its tasks nor its session have been told to end. -/
def live (s : ServerState) (i : Nat) : Bool :=
  ((s.tasks i).phase = .acked ∨ (s.tasks i).phase = .running) ∧ (s.sessions (s.tasks i).session).up

/-- The session's task is between a task's `Ok` and the handle's place in the map. -/
def Pending (stage : Registering) (i : Nat) : Prop := stage = .acked i ∨ stage = .created i

/-- Every task has its place: in its session's registration, or in the session's map. -/
structure Placed (s : ServerState) : Prop where
  fresh : ∀ i, s.nextTask ≤ i → (s.tasks i).phase = .unborn
  starting : ∀ i, (s.tasks i).phase = .starting →
    (s.sessions (s.tasks i).session).stage = .binding i ∨
      (s.sessions (s.tasks i).session).stage = .bound i
  acked : ∀ i, (s.tasks i).phase = .acked → (s.sessions (s.tasks i).session).stage = .acked i
  running : ∀ i, (s.tasks i).phase = .running →
    (s.sessions (s.tasks i).session).stage = .created i ∨
      (s.sessions (s.tasks i).session).services.lookup (s.tasks i).service = some i
  born : ∀ i, (s.tasks i).phase ≠ .unborn → (s.sessions (s.tasks i).session).stage ≠ .unborn
  asked : ∀ n reg, (s.sessions n).stage = .deciding reg ∨ (s.sessions n).stage = .claiming reg →
    (s.sessions n).services.lookup reg.service = none
  bindingTask : ∀ n i, (s.sessions n).stage = .binding i ∨ (s.sessions n).stage = .bound i →
    (s.tasks i).session = n ∧ (s.tasks i).phase = .starting ∧
      (s.sessions n).services.lookup (s.tasks i).service = none
  ackedTask : ∀ n i, (s.sessions n).stage = .acked i →
    (s.tasks i).session = n ∧ (s.tasks i).phase = .acked ∧
      (s.sessions n).services.lookup (s.tasks i).service = none
  createdTask : ∀ n i, (s.sessions n).stage = .created i →
    (s.tasks i).session = n ∧ Created (s.tasks i).phase ∧
      (s.sessions n).services.lookup (s.tasks i).service = none
  listed : ∀ n id i, (s.sessions n).services.lookup id = some i →
    (s.tasks i).session = n ∧ (s.tasks i).service = id ∧ Created (s.tasks i).phase

theorem Placed.new : Placed new := by
  constructor <;> simp [ServerState.new, ServiceTask.unborn]

theorem shutdown_session (t : ServiceTask) : t.shutdown.session = t.session := by
  rw [ServiceTask.shutdown]
  split <;> rfl

theorem shutdown_service (t : ServiceTask) : t.shutdown.service = t.service := by
  rw [ServiceTask.shutdown]
  split <;> rfl

theorem shutdown_phase (t : ServiceTask) :
    t.shutdown.phase = if t.phase = .running then .stopping else t.phase := by
  rw [ServiceTask.shutdown]
  split <;> simp_all

/-- What an answer or a claim changes is not read here. -/
theorem Placed.congr {s s' : ServerState} (hs : s.Placed) (hsessions : s'.sessions = s.sessions)
    (htasks : s'.tasks = s.tasks) (hnext : s'.nextTask = s.nextTask) : s'.Placed := by
  obtain ⟨sessions, tasks, next, claims, answers⟩ := s
  obtain ⟨sessions', tasks', next', claims', answers'⟩ := s'
  simp only at hsessions htasks hnext
  subst hsessions htasks hnext
  exact ⟨hs.fresh, hs.starting, hs.acked, hs.running, hs.born, hs.asked, hs.bindingTask,
    hs.ackedTask, hs.createdTask, hs.listed⟩

theorem Placed.connect {s : ServerState} (hs : s.Placed) {n : Nat}
    (hn : (s.sessions n).stage = .unborn) : (s.setSession n ⟨.idle, true, ∅⟩).Placed := by
  obtain ⟨hfresh, hstarting, hacked, hrunning, hborn, hasked, hbinding, hackedT, hcreated,
    hlisted⟩ := hs
  constructor <;> simp only [setSession, update_apply] <;> grind [AList.lookup_empty]

theorem Placed.close {s : ServerState} (hs : s.Placed) (n : Nat) :
    ServerState.Placed { s.setSession n
        ⟨if (s.sessions n).stage = .idle then .over else (s.sessions n).stage, false, ∅⟩ with
      tasks := fun i => if i ∈ (s.sessions n).services.entries.map (·.2)
        then (s.tasks i).shutdown else s.tasks i } := by
  have hgone : ∀ i, i ∈ (s.sessions n).services.entries.map (·.2) ↔
      ∃ id, (s.sessions n).services.lookup id = some i := fun _ => Table.mem_vals
  generalize (s.sessions n).services.entries.map (·.2) = gone at hgone ⊢
  obtain ⟨hfresh, hstarting, hacked, hrunning, hborn, hasked, hbinding, hackedT, hcreated,
    hlisted⟩ := hs
  constructor <;> simp only [setSession, update_apply] <;>
    grind [AList.lookup_empty, shutdown_session, shutdown_service, shutdown_phase, Created]

theorem Placed.setFree {s : ServerState} (hs : s.Placed) {n : Nat} {stage : Registering}
    (hold : Free (s.sessions n).stage) (hnew : Free stage)
    (hreg : ∀ reg, stage = .deciding reg ∨ stage = .claiming reg →
      (s.sessions n).services.lookup reg.service = none) : (s.setStage n stage).Placed := by
  obtain ⟨hfresh, hstarting, hacked, hrunning, hborn, hasked, hbinding, hackedT, hcreated,
    hlisted⟩ := hs
  constructor <;> simp only [setStage, setSession, update_apply] <;> grind [Free]

/-- A takeover on an idle session leaves no service under the id. -/
theorem Placed.takeOver {s : ServerState} (hs : s.Placed) {n : Nat} (id : ServiceId)
    (hn : (s.sessions n).stage = .idle) :
    (s.takeOver n id).Placed ∧ ((s.takeOver n id).sessions n).stage = .idle ∧
      ((s.takeOver n id).sessions n).services.lookup id = none := by
  rw [ServerState.takeOver]
  split
  case h_2 hnone => exact ⟨hs, hn, hnone⟩
  case h_1 i hi =>
    refine ⟨?_, by simp [setSession, hn], by simp [setSession]⟩
    obtain ⟨hfresh, hstarting, hacked, hrunning, hborn, hasked, hbinding, hackedT, hcreated,
      hlisted⟩ := hs
    constructor <;> simp only [setSession, setTask, update_apply] <;>
      grind [Table.lookup_erase_eq, shutdown_session, shutdown_service, shutdown_phase, Created]

theorem Placed.acquire {s : ServerState} (hs : s.Placed) {n : Nat} {reg : SessionRegistration}
    (hn : (s.sessions n).stage = .claiming reg) (claim : Bool) :
    ((s.acquire n reg claim).setStage n (.binding s.nextTask)).Placed := by
  obtain ⟨hfresh, hstarting, hacked, hrunning, hborn, hasked, hbinding, hackedT, hcreated,
    hlisted⟩ := hs
  constructor <;>
    simp only [setStage, setSession, ServerState.acquire, setTask, update_apply] <;>
    grind [Created]

/-- A registration that goes no further takes its task with it. -/
theorem Placed.abandon {s : ServerState} (hs : s.Placed) {n i : Nat} {stage : Registering}
    (hn : (s.sessions n).stage = .binding i ∨ (s.sessions n).stage = .bound i ∨
      (s.sessions n).stage = .acked i) (hnew : stage = .idle ∨ stage = .over) :
    ((s.endTask i).setStage n stage).Placed := by
  obtain ⟨hfresh, hstarting, hacked, hrunning, hborn, hasked, hbinding, hackedT, hcreated,
    hlisted⟩ := hs
  constructor <;> simp only [setStage, setSession, endTask, update_apply] <;> grind [Created]

theorem Placed.bound {s : ServerState} (hs : s.Placed) {n i : Nat}
    (hn : (s.sessions n).stage = .binding i) : (s.setStage n (.bound i)).Placed := by
  obtain ⟨hfresh, hstarting, hacked, hrunning, hborn, hasked, hbinding, hackedT, hcreated,
    hlisted⟩ := hs
  constructor <;> simp only [setStage, setSession, update_apply] <;> grind

theorem Placed.ack {s : ServerState} (hs : s.Placed) {n i : Nat}
    (hn : (s.sessions n).stage = .bound i) :
    ((s.setTask i { s.tasks i with phase := .acked }).setStage n (.acked i)).Placed := by
  obtain ⟨hfresh, hstarting, hacked, hrunning, hborn, hasked, hbinding, hackedT, hcreated,
    hlisted⟩ := hs
  constructor <;> simp only [setStage, setSession, setTask, update_apply] <;> grind [Created]

theorem Placed.create {s : ServerState} (hs : s.Placed) {n i : Nat}
    (hn : (s.sessions n).stage = .acked i) :
    ((s.setTask i { s.tasks i with phase := .running }).setStage n (.created i)).Placed := by
  obtain ⟨hfresh, hstarting, hacked, hrunning, hborn, hasked, hbinding, hackedT, hcreated,
    hlisted⟩ := hs
  constructor <;> simp only [setStage, setSession, setTask, update_apply] <;> grind [Created]

theorem Placed.insert {s : ServerState} (hs : s.Placed) {n i : Nat}
    (hn : (s.sessions n).stage = .created i) :
    (s.setSession n ⟨.idle, true, (s.sessions n).services.insert (s.tasks i).service i⟩).Placed := by
  obtain ⟨hfresh, hstarting, hacked, hrunning, hborn, hasked, hbinding, hackedT, hcreated,
    hlisted⟩ := hs
  constructor <;> simp only [setSession, update_apply] <;>
    grind [Created, Table.lookup_insert_eq]

theorem Placed.dropHandle {s : ServerState} (hs : s.Placed) {n i : Nat}
    (hn : (s.sessions n).stage = .created i) :
    ((s.setTask i (s.tasks i).shutdown).setStage n .over).Placed := by
  obtain ⟨hfresh, hstarting, hacked, hrunning, hborn, hasked, hbinding, hackedT, hcreated,
    hlisted⟩ := hs
  constructor <;> simp only [setStage, setSession, setTask, update_apply] <;>
    grind [Created, shutdown_session, shutdown_service, shutdown_phase]

theorem Placed.endTask {s : ServerState} (hs : s.Placed) {i : Nat}
    (hi : (s.tasks i).phase = .running ∨ (s.tasks i).phase = .stopping) : (s.endTask i).Placed := by
  obtain ⟨hfresh, hstarting, hacked, hrunning, hborn, hasked, hbinding, hackedT, hcreated,
    hlisted⟩ := hs
  constructor <;> simp only [ServerState.endTask, update_apply] <;> grind [Created]

theorem Placed.reject {s : ServerState} (hs : s.Placed) {n : Nat}
    (hn : Free (s.sessions n).stage) (service : ServiceId) (reason : Reason)
    (holder : Option (Nat × ServiceId)) : (s.reject n service reason holder).Placed := by
  rw [ServerState.reject]
  split
  · have ha : (s.answer n service (.error reason) holder).Placed := hs.congr rfl rfl rfl
    exact ha.setFree hn (.inl rfl) (by simp)
  · exact hs.setFree hn (.inr (.inl rfl)) (by simp)

/-- **Every step keeps the tasks in their places.** -/
theorem Placed.step {cfg : ServerPolicy} {s s' : ServerState} {e : ServerEvent} (hs : s.Placed)
    (h : s.step cfg e = some s') : s'.Placed := by
  cases turn_of_step h with
  | connect n hn => exact hs.connect hn
  | close n => exact hs.close n
  | takeOver n reg hn =>
    obtain ⟨ht, hidle, hnone⟩ := hs.takeOver reg.service hn
    refine ht.setFree (.inl hidle) (.inr (.inr ⟨reg, .inl rfl⟩)) ?_
    rintro r (hr | hr)
    · cases hr
      exact hnone
    · cases hr
  | refuseToken n reg hn => exact hs.reject (.inl hn) _ _ _
  | deregister n id hn => exact (hs.takeOver id hn).1
  | refusePolicy n checks reg reason hn => exact hs.reject (.inr (.inr ⟨reg, .inl hn⟩)) _ _ _
  | decide n checks reg hn =>
    refine hs.setFree (.inr (.inr ⟨reg, .inl hn⟩)) (.inr (.inr ⟨reg, .inr rfl⟩)) ?_
    rintro r (hr | hr)
    · cases hr
    · cases hr
      exact hs.asked n reg (.inl hn)
  | refuseClaim n reg hn => exact hs.reject (.inr (.inr ⟨reg, .inr hn⟩)) _ _ _
  | claim n reg hn => exact hs.acquire hn _
  | refuseBind n i error hn =>
    rw [ServerState.reject]
    split
    · exact (hs.abandon (.inl hn) (.inl rfl)).congr rfl rfl rfl
    · exact hs.abandon (.inl hn) (.inr rfl)
  | bind n i hn => exact hs.bound hn
  | ack n i hn => exact (hs.ack hn).congr rfl rfl rfl
  | abandonBound n i hn => exact hs.abandon (.inr (.inl hn)) (.inr rfl)
  | create n i hn => exact hs.create hn
  | abandonAcked n i hn => exact hs.abandon (.inr (.inr hn)) (.inr rfl)
  | insert n i hn => exact hs.insert hn
  | dropHandle n i hn => exact hs.dropHandle hn
  | taskEnds i hi => exact hs.endTask hi

/-- A live service that is not pending is in its session's map. -/
theorem Placed.lookup_live {s : ServerState} (hs : s.Placed) {i : Nat} (hi : s.live i = true)
    (hp : ¬ Pending (s.sessions (s.tasks i).session).stage i) :
    (s.sessions (s.tasks i).session).services.lookup (s.tasks i).service = some i := by
  simp only [live, decide_eq_true_eq] at hi
  rcases hi.1 with hphase | hphase
  · exact absurd (.inl (hs.acked i hphase)) hp
  · rcases hs.running i hphase with hstage | hlook
    · exact absurd (.inr hstage) hp
    · exact hlook

/-- A pending service is not in the map yet. -/
theorem Placed.lookup_pending {s : ServerState} (hs : s.Placed) {n i : Nat}
    (hp : Pending (s.sessions n).stage i) :
    (s.sessions n).services.lookup (s.tasks i).service = none := by
  rcases hp with hp | hp
  · exact (hs.ackedTask n i hp).2.2
  · exact (hs.createdTask n i hp).2.2

/-! ## 2. What becomes of a registered service -/

/-- From `s` to `s'`, every registered service keeps its owner, and none comes back to life. -/
def Grows (s s' : ServerState) : Prop :=
  ∀ i, Acked (s.tasks i).phase →
    Acked (s'.tasks i).phase ∧ (s'.tasks i).owner = (s.tasks i).owner ∧
      (Created (s.tasks i).phase → Created (s'.tasks i).phase) ∧
      (s'.live i = true → s.live i = true)

/-- A registered task goes on to a later phase, of the same owner. -/
structure Fades (t t' : ServiceTask) : Prop where
  acked : Acked t'.phase
  owner : t'.owner = t.owner
  created : Created t.phase → Created t'.phase
  alive : t'.phase = .acked ∨ t'.phase = .running → t.phase = .acked ∨ t.phase = .running

theorem Fades.refl {t : ServiceTask} (ht : Acked t.phase) : Fades t t := ⟨ht, rfl, id, id⟩

theorem Fades.shutdown {t : ServiceTask} (ht : Acked t.phase) : Fades t t.shutdown := by
  rw [ServiceTask.shutdown]
  split
  case isTrue hrun =>
    exact ⟨.inr (.inr (.inl rfl)), rfl, fun _ => .inr (.inl rfl), fun _ => .inr hrun⟩
  case isFalse => exact .refl ht

theorem Fades.ended (t : ServiceTask) : Fades t { t with claim := false, phase := .ended } := by
  refine ⟨.inr (.inr (.inr rfl)), rfl, fun _ => .inr (.inr rfl), ?_⟩
  rintro (h | h)
  · cases h
  · cases h

/-- The tasks fade, and no session of theirs comes up. -/
theorem Grows.of_fades {s s' : ServerState}
    (hfades : ∀ i, Acked (s.tasks i).phase → Fades (s.tasks i) (s'.tasks i))
    (hup : ∀ i, Acked (s.tasks i).phase → (s'.sessions (s.tasks i).session).up = true →
      (s.sessions (s.tasks i).session).up = true) : Grows s s' := by
  intro i hi
  have hfade := hfades i hi
  refine ⟨hfade.acked, hfade.owner, hfade.created, fun hlive => ?_⟩
  have hsession : (s'.tasks i).session = (s.tasks i).session := congrArg Prod.fst hfade.owner
  simp only [live, decide_eq_true_eq, hsession] at hlive ⊢
  exact ⟨hfade.alive hlive.1, hup i hi hlive.2⟩

/-- One task is written; the sessions that are up were up before. -/
theorem Grows.of_write {s s' : ServerState} {i : Nat} {t : ServiceTask}
    (htasks : s'.tasks = update s.tasks i t)
    (hup : ∀ n, (s'.sessions n).up = true → (s.sessions n).up = true)
    (ht : Acked (s.tasks i).phase → Fades (s.tasks i) t) : Grows s s' := by
  refine .of_fades (fun j hj => ?_) fun j _ => hup _
  rw [htasks]
  by_cases hji : j = i
  · subst hji
    rw [update_self]
    exact ht hj
  · rw [update_of_ne hji]
    exact .refl hj

/-- No task is written. -/
theorem Grows.of_tasks {s s' : ServerState} (htasks : s'.tasks = s.tasks)
    (hup : ∀ n, (s'.sessions n).up = true → (s.sessions n).up = true) : Grows s s' := by
  refine .of_fades (fun j hj => ?_) fun j _ => hup _
  rw [htasks]
  exact .refl hj

/-- A new stage leaves the session up or down. -/
theorem up_setStage (s : ServerState) (n : Nat) (stage : Registering) (m : Nat)
    (h : ((s.setStage n stage).sessions m).up = true) : (s.sessions m).up = true := by
  simp only [setStage, setSession, update_apply] at h
  split at h
  case isTrue hmn => exact hmn ▸ h
  case isFalse => exact h

theorem up_reject (s : ServerState) (n : Nat) (service : ServiceId) (reason : Reason)
    (holder : Option (Nat × ServiceId)) (m : Nat)
    (h : ((s.reject n service reason holder).sessions m).up = true) :
    (s.sessions m).up = true := by
  rw [ServerState.reject] at h
  split at h
  · exact up_setStage (s.answer n service (.error reason) holder) n .idle m h
  · exact up_setStage s n .over m h

theorem tasks_reject (s : ServerState) (n : Nat) (service : ServiceId) (reason : Reason)
    (holder : Option (Nat × ServiceId)) : (s.reject n service reason holder).tasks = s.tasks := by
  rw [ServerState.reject]
  split <;> rfl

theorem Grows.reject (s : ServerState) (n : Nat) (service : ServiceId) (reason : Reason)
    (holder : Option (Nat × ServiceId)) : Grows s (s.reject n service reason holder) :=
  .of_tasks (tasks_reject ..) (up_reject s n service reason holder)

/-- A takeover tells the task to end and leaves the session up. -/
theorem Grows.takeOver {s s' : ServerState} {n : Nat} {id : ServiceId}
    (htasks : s'.tasks = (s.takeOver n id).tasks)
    (hup : ∀ m, (s'.sessions m).up = true → ((s.takeOver n id).sessions m).up = true) :
    Grows s s' := by
  rw [ServerState.takeOver] at htasks hup
  split at htasks
  case h_1 i hi =>
    rw [hi] at hup
    refine .of_write (i := i) htasks (fun m hm => ?_) Fades.shutdown
    have h := hup m hm
    simp only [setSession, setTask, update_apply] at h
    split at h
    case isTrue hmn => exact hmn ▸ h
    case isFalse => exact h
  case h_2 hnone =>
    rw [hnone] at hup
    exact .of_tasks htasks hup

theorem Grows.step {cfg : ServerPolicy} {s s' : ServerState} {e : ServerEvent} (hs : s.Placed)
    (h : s.step cfg e = some s') : Grows s s' := by
  cases turn_of_step h with
  | connect n hn =>
    refine .of_fades (fun i hi => .refl hi) fun i hi hup => ?_
    -- the session that connects is new, so no task is of it
    have hne : (s.tasks i).session ≠ n := by
      rintro rfl
      refine hs.born i ?_ hn
      rintro hunborn
      rw [hunborn] at hi
      rcases hi with h | h | h | h <;> cases h
    simpa only [setSession, update_of_ne hne] using hup
  | close n =>
    refine .of_fades (fun i hi => ?_) fun i _ hup => ?_
    · dsimp only
      split
      · exact .shutdown hi
      · exact .refl hi
    · simp only [setSession, update_apply] at hup
      split at hup
      · cases hup
      · exact hup
  | takeOver n reg => exact .takeOver rfl (up_setStage (s.takeOver n reg.service) n (.deciding reg))
  | deregister n id => exact .takeOver rfl fun _ h => h
  | refuseToken | refusePolicy | refuseClaim => exact Grows.reject s _ _ _ _
  | decide n | bind n => exact .of_tasks rfl (up_setStage s n _)
  | claim n reg =>
    refine .of_write rfl (up_setStage (s.acquire n reg _) n _) fun hacked => ?_
    -- the new task's number was free
    rw [hs.fresh s.nextTask (Nat.le_refl _)] at hacked
    rcases hacked with h | h | h | h <;> cases h
  | refuseBind n i =>
    exact .of_write (tasks_reject ..) (up_reject (s.endTask i) n _ _ _) fun _ => .ended _
  | ack n i hn =>
    refine .of_write rfl (up_setStage ((s.answer n _ _ _).setTask i _) n _) fun hacked => ?_
    -- a bound registration has no `Ok` yet
    rw [(hs.bindingTask n i (.inr hn)).2.1] at hacked
    rcases hacked with h | h | h | h <;> cases h
  | create n i hn =>
    refine .of_write rfl (up_setStage (s.setTask i _) n _) fun _ => ?_
    exact ⟨.inr (.inl rfl), rfl, fun _ => .inl rfl, fun _ => .inl (hs.ackedTask n i hn).2.1⟩
  | abandonBound n i | abandonAcked n i =>
    exact .of_write rfl (up_setStage (s.endTask i) n .over) fun _ => .ended _
  | insert n i _ hup =>
    refine .of_tasks rfl fun m hm => ?_
    simp only [setSession, update_apply] at hm
    split at hm
    case isTrue hmn => exact hmn ▸ hup
    case isFalse => exact hm
  | dropHandle n i => exact .of_write rfl (up_setStage (s.setTask i _) n .over) .shutdown
  | taskEnds i => exact .of_write rfl (fun _ h => h) fun _ => .ended _

/-- Every `Ok` is the answer to the registration its task serves. -/
def Answered (s : ServerState) : Prop :=
  ∀ x ∈ s.answers, ∀ i, x.verdict = .ok i →
    Acked (s.tasks i).phase ∧ (s.tasks i).owner = (x.session, x.service)

/-- A refusal is no `Ok`. -/
theorem answers_reject (s : ServerState) (n : Nat) (service : ServiceId) (reason : Reason)
    (holder : Option (Nat × ServiceId)) :
    let s' := s.reject n service reason holder
    s'.answers = s.answers ∨ ∃ x, s'.answers = s.answers ++ [x] ∧ ∀ i, x.verdict = .ok i →
      Acked (s'.tasks i).phase ∧ (s'.tasks i).owner = (x.session, x.service) := by
  intro s'
  by_cases hup : (s.sessions n).up = true
  · refine .inr ⟨⟨n, service, .error reason, holder⟩, ?_, ?_⟩
    · simp only [s', ServerState.reject, if_pos hup]
      rfl
    · intro i hi
      cases hi
  · refine .inl ?_
    simp only [s', ServerState.reject, if_neg hup]
    rfl

/-- A step gives at most one answer; an `Ok` is about a task of that service. -/
theorem answers_step {cfg : ServerPolicy} {s s' : ServerState} {e : ServerEvent} (hs : s.Placed)
    (h : s.step cfg e = some s') :
    s'.answers = s.answers ∨ ∃ x, s'.answers = s.answers ++ [x] ∧ ∀ i, x.verdict = .ok i →
      Acked (s'.tasks i).phase ∧ (s'.tasks i).owner = (x.session, x.service) := by
  cases turn_of_step h with
  | connect | close | decide | claim | bind | abandonBound | create | abandonAcked | insert
  | dropHandle | taskEnds => exact .inl rfl
  | takeOver | deregister => exact .inl (takeOver_answers _ _ _)
  | refuseToken | refusePolicy | refuseClaim => exact answers_reject s _ _ _ _
  | refuseBind n i => exact answers_reject (s.endTask i) n _ _ _
  | ack n i hn =>
    have hsession := (hs.bindingTask n i (.inr hn)).1
    refine .inr ⟨_, rfl, ?_⟩
    intro j hj
    cases hj
    simp [setStage, setSession, setTask, answer, Acked, ServiceTask.owner, hsession]

theorem Answered.step {cfg : ServerPolicy} {s s' : ServerState} {e : ServerEvent} (hs : s.Placed)
    (ha : s.Answered) (h : s.step cfg e = some s') : s'.Answered := by
  have hgrows := Grows.step hs h
  have hold : ∀ x ∈ s.answers, ∀ i, x.verdict = .ok i →
      Acked (s'.tasks i).phase ∧ (s'.tasks i).owner = (x.session, x.service) := by
    intro x hx i hi
    obtain ⟨hacked, howner⟩ := ha x hx i hi
    obtain ⟨hacked', howner', -⟩ := hgrows i hacked
    exact ⟨hacked', howner'.trans howner⟩
  intro x hx
  rcases answers_step hs h with hsame | ⟨y, hy, hok⟩
  · exact hold x (hsame ▸ hx)
  · rw [hy] at hx
    rcases List.mem_append.mp hx with hx | hx
    · exact hold x hx
    · rw [List.mem_singleton.mp hx]
      exact hok

end ServerState

/-! ## 3. The client and the channels -/

/-- What the server has done with a channel; `sending` names the task it was looked up for. -/
inductive ChannelFate
  | inFlight
  /-- In a tunnel's bridge. -/
  | queued
  | sending (task : Nat)
  | handed (task : Nat)
  | dropped
  deriving DecidableEq

/-- A data channel the client opened: on a tunnel of its session, or directly.  `task` records
the registration whose `Ok` the client had read. -/
structure Channel where
  session : Nat
  service : ServiceId
  tunnel : Option Nat
  task : Nat
  fate : ChannelFate
  deriving DecidableEq

/-- The loop of one tunnel: the streams in the bridge, and the one it is handing over. -/
structure BridgeLoop where
  bridge : List Nat
  current : Option (Nat × Nat)
  ended : Bool

/-- The server, the clients and what is between them.  Session `n`'s client has read the first
`read n` of its answers, and knows the services `known n`. -/
structure Routing where
  server : ServerState
  read : Nat → Nat
  known : Nat → ServiceId → Option Nat
  channels : Nat → Channel
  nextChannel : Nat
  loops : Nat → Nat → BridgeLoop

inductive RoutingEvent
  | server (e : ServerEvent)
  | readAnswer (n : Nat)
  | openChannel (n : Nat) (id : ServiceId) (tunnel : Option Nat)
  /-- `do_v4_data_channel`: `session_service`. -/
  | lookUp (c : Nat)
  /-- `do_v4_data_channel`: the hand-off. -/
  | send (c : Nat)
  /-- The driver puts a stream into the bridge. -/
  | arrive (c : Nat)
  /-- The loop takes the next stream and routes it. -/
  | take (n t : Nat)
  | handOff (n t : Nat)

namespace Routing

def new : Routing where
  server := .new
  read _ := 0
  known _ _ := none
  channels _ := ⟨0, 0, none, 0, .inFlight⟩
  nextChannel := 0
  loops _ _ := ⟨[], none, false⟩

def setFate (s : Routing) (c : Nat) (fate : ChannelFate) : Routing :=
  { s with channels := update s.channels c { s.channels c with fate := fate } }

def setLoop (s : Routing) (n t : Nat) (loop : BridgeLoop) : Routing :=
  { s with loops := update s.loops n (update (s.loops n) t loop) }

/-- The service a channel names, as the session has it. -/
def routeOf (s : Routing) (c : Nat) : Option Nat :=
  (s.server.sessions (s.channels c).session).services.lookup (s.channels c).service

/-- The queue of a task has a receiver. -/
def receives (s : Routing) (i : Nat) : Bool :=
  (s.server.tasks i).phase = .running ∨ (s.server.tasks i).phase = .stopping

/-- Everything in the bridge is dropped with it. -/
def dropAll (s : Routing) (waiting : List Nat) : Routing :=
  { s with channels := fun c =>
      if c ∈ waiting then { s.channels c with fate := .dropped } else s.channels c }

/-- One step, if it is enabled. -/
def step (cfg : ServerPolicy) (s : Routing) : RoutingEvent → Option Routing
  | .server e => (s.server.step cfg e).map fun server => { s with server := server }
  | .readAnswer n =>
    match (s.server.answers.filter (·.session = n))[s.read n]? with
    | some x =>
      let task := match x.verdict with
        | .ok i => some i
        | .error _ => none
      some { s with
        read := update s.read n (s.read n + 1)
        known := update s.known n (update (s.known n) x.service task) }
    | none => none
  | .openChannel n id tunnel =>
    match s.known n id with
    | some i =>
      some { s with
        channels := update s.channels s.nextChannel ⟨n, id, tunnel, i, .inFlight⟩
        nextChannel := s.nextChannel + 1 }
    | none => none
  | .lookUp c =>
    if c < s.nextChannel ∧ (s.channels c).tunnel = none ∧ (s.channels c).fate = .inFlight then
      match s.routeOf c with
      | some i => some (s.setFate c (.sending i))
      | none => some (s.setFate c .dropped)
    else none
  | .send c =>
    match (s.channels c).tunnel, (s.channels c).fate with
    | none, .sending i => some (s.setFate c (if s.receives i then .handed i else .dropped))
    | _, _ => none
  | .arrive c =>
    match (s.channels c).tunnel with
    | some t =>
      let loop := s.loops (s.channels c).session t
      if c < s.nextChannel ∧ (s.channels c).fate = .inFlight then
        -- the bridge's receiver is gone: the driver breaks, and the connection with it
        if loop.ended then some (s.setFate c .dropped)
        else if loop.bridge.length < bridgeCap then
          some ((s.setFate c .queued).setLoop (s.channels c).session t
            { loop with bridge := loop.bridge ++ [c] })
        else none
      else none
    | none => none
  | .take n t =>
    let loop := s.loops n t
    match loop.ended, loop.current, loop.bridge with
    | false, none, c :: rest =>
      match s.routeOf c with
      | some i =>
        some ((s.setFate c (.sending i)).setLoop n t { loop with bridge := rest, current := some (c, i) })
      | none => some ((s.setFate c .dropped).setLoop n t { loop with bridge := rest })
    | _, _, _ => none
  | .handOff n t =>
    let loop := s.loops n t
    match loop.current with
    | some (c, i) =>
      if s.receives i then
        some ((s.setFate c (.handed i)).setLoop n t { loop with current := none })
      -- the loop breaks, and the bridge goes with it
      else some (((s.setFate c .dropped).dropAll loop.bridge).setLoop n t ⟨[], none, true⟩)
    | none => none

end Routing

/-- The server and its clients. -/
def routing (cfg : ServerPolicy) : Lts Routing RoutingEvent where
  init s := s = .new
  step s e s' := s.step cfg e = some s'

/-! ## 4. What a step can do -/

namespace Routing

open ServerState (Acked Created Pending)

/-- **What a step can do**, with what was the case before it. -/
inductive Turn (cfg : ServerPolicy) (s : Routing) : RoutingEvent → Routing → Prop
  | server (e server) (h : s.server.step cfg e = some server) :
      Turn cfg s (.server e) { s with server := server }
  | readAnswer (n x task) (hx : (s.server.answers.filter (·.session = n))[s.read n]? = some x)
      (htask : ∀ i, task = some i → x.verdict = .ok i) :
      Turn cfg s (.readAnswer n) { s with
        read := update s.read n (s.read n + 1)
        known := update s.known n (update (s.known n) x.service task) }
  | openChannel (n id tunnel i) (hi : s.known n id = some i) :
      Turn cfg s (.openChannel n id tunnel) { s with
        channels := update s.channels s.nextChannel ⟨n, id, tunnel, i, .inFlight⟩
        nextChannel := s.nextChannel + 1 }
  | found (c i) (hlt : c < s.nextChannel) (hc : (s.channels c).fate = .inFlight)
      (hi : s.routeOf c = some i) : Turn cfg s (.lookUp c) (s.setFate c (.sending i))
  | missed (c) (hlt : c < s.nextChannel) (hc : (s.channels c).fate = .inFlight)
      (hnone : s.routeOf c = none) : Turn cfg s (.lookUp c) (s.setFate c .dropped)
  | sent (c i) (htunnel : (s.channels c).tunnel = none) (hc : (s.channels c).fate = .sending i)
      (hr : s.receives i = true) : Turn cfg s (.send c) (s.setFate c (.handed i))
  | unsent (c i) (htunnel : (s.channels c).tunnel = none) (hc : (s.channels c).fate = .sending i)
      (hr : s.receives i = false) : Turn cfg s (.send c) (s.setFate c .dropped)
  | shut (c t) (ht : (s.channels c).tunnel = some t) (hlt : c < s.nextChannel)
      (hc : (s.channels c).fate = .inFlight)
      (hended : (s.loops (s.channels c).session t).ended = true) :
      Turn cfg s (.arrive c) (s.setFate c .dropped)
  | queued (c t) (ht : (s.channels c).tunnel = some t) (hlt : c < s.nextChannel)
      (hc : (s.channels c).fate = .inFlight)
      (hended : (s.loops (s.channels c).session t).ended = false) :
      Turn cfg s (.arrive c) ((s.setFate c .queued).setLoop (s.channels c).session t
        { s.loops (s.channels c).session t with
          bridge := (s.loops (s.channels c).session t).bridge ++ [c] })
  | routed (n t c rest i) (hidle : (s.loops n t).current = none)
      (hbridge : (s.loops n t).bridge = c :: rest) (hi : s.routeOf c = some i) :
      Turn cfg s (.take n t) ((s.setFate c (.sending i)).setLoop n t
        { s.loops n t with bridge := rest, current := some (c, i) })
  | unrouted (n t c rest) (hidle : (s.loops n t).current = none)
      (hbridge : (s.loops n t).bridge = c :: rest) (hnone : s.routeOf c = none) :
      Turn cfg s (.take n t) ((s.setFate c .dropped).setLoop n t
        { s.loops n t with bridge := rest })
  | handedOff (n t c i) (hcurrent : (s.loops n t).current = some (c, i))
      (hr : s.receives i = true) :
      Turn cfg s (.handOff n t) ((s.setFate c (.handed i)).setLoop n t
        { s.loops n t with current := none })
  | broken (n t c i) (hcurrent : (s.loops n t).current = some (c, i))
      (hr : s.receives i = false) :
      Turn cfg s (.handOff n t)
        (((s.setFate c .dropped).dropAll (s.loops n t).bridge).setLoop n t ⟨[], none, true⟩)

theorem turn_of_step {cfg : ServerPolicy} {s s' : Routing} {e : RoutingEvent}
    (h : s.step cfg e = some s') : Turn cfg s e s' := by
  cases e with
  | server e =>
    simp only [Routing.step, Option.map_eq_some_iff] at h
    obtain ⟨server, hserver, rfl⟩ := h
    exact .server _ _ hserver
  | readAnswer n =>
    simp only [Routing.step] at h
    split at h
    case h_2 => cases h
    case h_1 x hx =>
      obtain rfl := Option.some.inj h
      refine .readAnswer _ _ _ hx fun i hi => ?_
      split at hi
      case h_1 j hj => exact Option.some.inj hi ▸ hj
      case h_2 => cases hi
  | openChannel n id tunnel =>
    simp only [Routing.step] at h
    split at h
    case h_2 => cases h
    case h_1 i hi =>
      obtain rfl := Option.some.inj h
      exact .openChannel _ _ _ _ hi
  | lookUp c =>
    simp only [Routing.step, Option.ite_none_right_eq_some] at h
    obtain ⟨⟨hlt, -, hc⟩, h⟩ := h
    split at h
    case h_1 i hi =>
      obtain rfl := Option.some.inj h
      exact .found _ _ hlt hc hi
    case h_2 hnone =>
      obtain rfl := Option.some.inj h
      exact .missed _ hlt hc hnone
  | send c =>
    simp only [Routing.step] at h
    split at h
    case h_2 => cases h
    case h_1 i htunnel hc =>
      obtain rfl := Option.some.inj h
      split
      case isTrue hr => exact .sent _ _ htunnel hc hr
      case isFalse hr => exact .unsent _ _ htunnel hc (by simpa using hr)
  | arrive c =>
    simp only [Routing.step] at h
    split at h
    case h_2 => cases h
    case h_1 t ht =>
      obtain ⟨⟨hlt, hc⟩, h⟩ := Option.ite_none_right_eq_some.mp h
      split at h
      case isTrue hended =>
        obtain rfl := Option.some.inj h
        exact .shut _ _ ht hlt hc hended
      case isFalse hended =>
        obtain ⟨-, h⟩ := Option.ite_none_right_eq_some.mp h
        obtain rfl := Option.some.inj h
        exact .queued _ _ ht hlt hc (by simpa using hended)
  | take n t =>
    simp only [Routing.step] at h
    split at h
    case h_2 => cases h
    case h_1 c rest _ hidle hbridge =>
      split at h
      case h_1 i hi =>
        obtain rfl := Option.some.inj h
        exact .routed _ _ _ _ _ hidle hbridge hi
      case h_2 hnone =>
        obtain rfl := Option.some.inj h
        exact .unrouted _ _ _ _ hidle hbridge hnone
  | handOff n t =>
    simp only [Routing.step] at h
    split at h
    case h_2 => cases h
    case h_1 c i hcurrent =>
      split at h
      case isTrue hr =>
        obtain rfl := Option.some.inj h
        exact .handedOff _ _ _ _ hcurrent hr
      case isFalse hr =>
        obtain rfl := Option.some.inj h
        exact .broken _ _ _ _ hcurrent (by simpa using hr)

/-! ## 5. The channels' invariant -/

/-- The service of a channel is between its `Ok` and its place in the session's map. -/
def pending (s : Routing) (c : Nat) : Bool :=
  let stage := (s.server.sessions (s.channels c).session).stage
  stage = .acked (s.channels c).task ∨ stage = .created (s.channels c).task

/-- The service a channel was opened for is live. -/
def liveFor (s : Routing) (c : Nat) : Bool := s.server.live (s.channels c).task

/-- Every channel was opened for a registered service, and what it was looked up for is that
service, unless the service has ended by now. -/
structure Sound (s : Routing) : Prop where
  placed : s.server.Placed
  answered : s.server.Answered
  known : ∀ n id i, s.known n id = some i →
    Acked (s.server.tasks i).phase ∧ (s.server.tasks i).owner = (n, id)
  opened : ∀ c, c < s.nextChannel → Acked (s.server.tasks (s.channels c).task).phase ∧
    (s.server.tasks (s.channels c).task).owner = ((s.channels c).session, (s.channels c).service)
  unopened : ∀ c, s.nextChannel ≤ c → (s.channels c).fate = .inFlight
  found : ∀ c i, (s.channels c).fate = .sending i ∨ (s.channels c).fate = .handed i →
    Created (s.server.tasks i).phase ∧
      (s.server.tasks i).owner = ((s.channels c).session, (s.channels c).service) ∧
      (i = (s.channels c).task ∨ s.liveFor c = false)
  current : ∀ n t c i, (s.loops n t).current = some (c, i) →
    (s.channels c).fate = .sending i ∧ (s.channels c).session = n ∧ (s.channels c).tunnel = some t
  waiting : ∀ n t c, c ∈ (s.loops n t).bridge →
    (s.channels c).fate = .queued ∧ (s.channels c).session = n ∧ (s.channels c).tunnel = some t
  nodup : ∀ n t, (s.loops n t).bridge.Nodup

theorem Sound.new : Sound new where
  placed := .new
  answered := by
    intro x hx
    cases hx
  known n id i h := by cases h
  opened c hc := by
    simp [Routing.new] at hc
  unopened c _ := rfl
  found c i h := by simp [Routing.new] at h
  current n t c i h := by cases h
  waiting n t c h := by cases h
  nodup n t := List.nodup_nil

/-- What the lookup finds is the service the channel was opened for, unless that has ended. -/
theorem Sound.routeOf {s : Routing} (hs : s.Sound) {c i : Nat} (hc : c < s.nextChannel)
    (h : s.routeOf c = some i) :
    Created (s.server.tasks i).phase ∧
      (s.server.tasks i).owner = ((s.channels c).session, (s.channels c).service) ∧
      (i = (s.channels c).task ∨ s.liveFor c = false) := by
  obtain ⟨hsession, hservice, hcreated⟩ := hs.placed.listed _ _ _ h
  refine ⟨hcreated, by simp [ServiceTask.owner, hsession, hservice], ?_⟩
  rcases hlive : s.liveFor c with _ | _
  · exact .inr rfl
  · left
    obtain ⟨-, howner⟩ := hs.opened c hc
    simp only [ServiceTask.owner, Prod.mk.injEq] at howner
    by_cases hp : Pending
        (s.server.sessions (s.server.tasks (s.channels c).task).session).stage (s.channels c).task
    · have hnone := hs.placed.lookup_pending hp
      rw [howner.1, howner.2] at hnone
      rw [Routing.routeOf, hnone] at h
      cases h
    · have hlook := hs.placed.lookup_live hlive hp
      rw [howner.1, howner.2] at hlook
      rw [Routing.routeOf, hlook] at h
      exact (Option.some.inj h).symm

/-- The lookup for a live service fails exactly while the service is pending. -/
theorem Sound.routeOf_none {s : Routing} (hs : s.Sound) {c : Nat} (hc : c < s.nextChannel)
    (hlive : s.liveFor c = true) : s.routeOf c = none ↔ s.pending c = true := by
  obtain ⟨-, howner⟩ := hs.opened c hc
  simp only [ServiceTask.owner, Prod.mk.injEq] at howner
  have hp : s.pending c = true ↔ Pending
      (s.server.sessions (s.server.tasks (s.channels c).task).session).stage (s.channels c).task := by
    simp [pending, Pending, howner.1]
  rw [hp]
  constructor
  · intro hnone
    by_contra hno
    have hlook := hs.placed.lookup_live hlive hno
    rw [howner.1, howner.2] at hlook
    rw [Routing.routeOf, hlook] at hnone
    cases hnone
  · intro hpend
    have hnone := hs.placed.lookup_pending hpend
    rwa [howner.1, howner.2] at hnone

theorem Sound.lt_of_fate {s : Routing} (hs : s.Sound) {c : Nat}
    (h : (s.channels c).fate ≠ .inFlight) : c < s.nextChannel := by
  by_contra hge
  exact h (hs.unopened c (by omega))

theorem Sound.server {cfg : ServerPolicy} {s : Routing} (hs : s.Sound) {e : ServerEvent}
    {server : ServerState} (h : s.server.step cfg e = some server) :
    Sound { s with server := server } := by
  have hgrows := ServerState.Grows.step hs.placed h
  refine { hs with
    placed := hs.placed.step h
    answered := hs.answered.step hs.placed h
    known := ?_
    opened := ?_
    found := ?_ }
  · intro n id i hi
    obtain ⟨hacked, howner⟩ := hs.known n id i hi
    exact ⟨(hgrows i hacked).1, (hgrows i hacked).2.1.trans howner⟩
  · intro c hc
    obtain ⟨hacked, howner⟩ := hs.opened c hc
    exact ⟨(hgrows _ hacked).1, (hgrows _ hacked).2.1.trans howner⟩
  · intro c i hf
    dsimp only at hf
    have hc : c < s.nextChannel := hs.lt_of_fate (by rcases hf with hf | hf <;> simp [hf])
    obtain ⟨hcreated, howner, htask⟩ := hs.found c i hf
    obtain ⟨-, howner', hcreated', -⟩ := hgrows i (.inr hcreated)
    refine ⟨hcreated' hcreated, howner'.trans howner, htask.imp_right fun hdead => ?_⟩
    have hlive := (hgrows _ (hs.opened c hc).1).2.2.2
    rw [Bool.eq_false_iff] at hdead ⊢
    exact fun h => hdead (hlive h)

theorem Sound.readAnswer {s : Routing} (hs : s.Sound) {n : Nat} {x : Answer}
    (hx : (s.server.answers.filter (·.session = n))[s.read n]? = some x) (task : Option Nat)
    (htask : ∀ i, task = some i → x.verdict = .ok i) :
    Sound { s with
      read := update s.read n (s.read n + 1)
      known := update s.known n (update (s.known n) x.service task) } := by
  refine { hs with known := ?_ }
  obtain ⟨hmem, hn⟩ := List.mem_filter.mp (List.mem_of_getElem? hx)
  intro m id i hi
  simp only [update_apply] at hi
  by_cases hm : m = n
  · subst hm
    by_cases hid : id = x.service
    · subst hid
      simp only [if_true, update_self] at hi
      obtain ⟨hacked, howner⟩ := hs.answered x hmem i (htask i hi)
      exact ⟨hacked, by rw [howner, of_decide_eq_true hn]⟩
    · rw [if_pos rfl, update_of_ne hid] at hi
      exact hs.known m id i hi
  · rw [if_neg hm] at hi
    exact hs.known m id i hi

theorem Sound.openChannel {s : Routing} (hs : s.Sound) {n i : Nat} {id : ServiceId}
    (hknown : s.known n id = some i) (tunnel : Option Nat) :
    Sound { s with
      channels := update s.channels s.nextChannel ⟨n, id, tunnel, i, .inFlight⟩
      nextChannel := s.nextChannel + 1 } := by
  obtain ⟨hplaced, hanswered, hknown', hopened, hunopened, hfound, hcurrent, hwaiting, hnodup⟩ := hs
  have hk := hknown' n id i hknown
  constructor <;> simp only [liveFor, update_apply] <;> grind [liveFor]

/-- A channel's fate, written where it is in no loop any more. -/
theorem Sound.setFate {s : Routing} (hs : s.Sound) {c : Nat} (hc : c < s.nextChannel)
    {fate : ChannelFate}
    (hfate : ∀ i, fate = .sending i ∨ fate = .handed i → Created (s.server.tasks i).phase ∧
      (s.server.tasks i).owner = ((s.channels c).session, (s.channels c).service) ∧
      (i = (s.channels c).task ∨ s.liveFor c = false))
    (hcur : ∀ n t i, (s.loops n t).current ≠ some (c, i))
    (hwait : ∀ n t, c ∉ (s.loops n t).bridge) : (s.setFate c fate).Sound := by
  obtain ⟨hplaced, hanswered, hknown, hopened, hunopened, hfound, hcurrent, hwaiting, hnodup⟩ := hs
  constructor <;> simp only [Routing.setFate, liveFor, update_apply] <;> grind [liveFor]

theorem Sound.setLoop {s : Routing} (hs : s.Sound) {n t : Nat} {loop : BridgeLoop}
    (hcur : ∀ c i, loop.current = some (c, i) → (s.channels c).fate = .sending i ∧
      (s.channels c).session = n ∧ (s.channels c).tunnel = some t)
    (hwait : ∀ c ∈ loop.bridge, (s.channels c).fate = .queued ∧
      (s.channels c).session = n ∧ (s.channels c).tunnel = some t)
    (hnodup : loop.bridge.Nodup) : (s.setLoop n t loop).Sound := by
  have hloop : ∀ m u, (s.setLoop n t loop).loops m u =
      if m = n ∧ u = t then loop else s.loops m u := by
    intro m u
    simp only [Routing.setLoop, update_apply]
    by_cases hm : m = n
    · subst hm
      by_cases hu : u = t <;> simp [hu]
    · simp [hm]
  refine { hs with current := ?_, waiting := ?_, nodup := ?_ }
  · intro m u c i h
    rw [hloop] at h
    split at h
    case isTrue hmu =>
      rw [hmu.1, hmu.2]
      exact hcur c i h
    case isFalse => exact hs.current m u c i h
  · intro m u c h
    rw [hloop] at h
    split at h
    case isTrue hmu =>
      rw [hmu.1, hmu.2]
      exact hwait c h
    case isFalse => exact hs.waiting m u c h
  · intro m u
    rw [hloop]
    split
    · exact hnodup
    · exact hs.nodup m u

/-- What is in no loop may all be dropped. -/
theorem Sound.dropAll {s : Routing} (hs : s.Sound) {waiting : List Nat}
    (hopen : ∀ c ∈ waiting, c < s.nextChannel)
    (hcur : ∀ c ∈ waiting, ∀ n t i, (s.loops n t).current ≠ some (c, i))
    (hwait : ∀ c ∈ waiting, ∀ n t, c ∉ (s.loops n t).bridge) : (s.dropAll waiting).Sound := by
  obtain ⟨hplaced, hanswered, hknown, hopened, hunopened, hfound, hcurrent, hwaiting, hnodup⟩ := hs
  constructor <;> simp only [Routing.dropAll, liveFor] <;> grind [liveFor]

/-- A stream that its own loop does not have is in no loop. -/
theorem Sound.nowhere {s : Routing} (hs : s.Sound) {n t c : Nat}
    (hc : (s.channels c).session = n ∧ (s.channels c).tunnel = some t)
    (hcur : ∀ i, (s.loops n t).current ≠ some (c, i)) (hwait : c ∉ (s.loops n t).bridge) :
    (∀ m u i, (s.loops m u).current ≠ some (c, i)) ∧ ∀ m u, c ∉ (s.loops m u).bridge := by
  constructor
  · intro m u i hi
    obtain ⟨-, hm, hu⟩ := hs.current m u c i hi
    cases hm.symm.trans hc.1
    cases hu.symm.trans hc.2
    exact hcur i hi
  · intro m u hmem
    obtain ⟨-, hm, hu⟩ := hs.waiting m u c hmem
    cases hm.symm.trans hc.1
    cases hu.symm.trans hc.2
    exact hwait hmem

/-- A channel in flight is in no loop yet. -/
theorem Sound.nowhere_of_inFlight {s : Routing} (hs : s.Sound) {c : Nat}
    (hc : (s.channels c).fate = .inFlight) :
    (∀ n t i, (s.loops n t).current ≠ some (c, i)) ∧ ∀ n t, c ∉ (s.loops n t).bridge := by
  constructor
  · intro n t i hi
    cases hc.symm.trans (hs.current n t c i hi).1
  · intro n t hmem
    cases hc.symm.trans (hs.waiting n t c hmem).1

/-- A loop that is written back with fewer streams. -/
theorem Sound.shrinkLoop {s : Routing} (hs : s.Sound) {n t : Nat} {loop : BridgeLoop}
    (hcur : loop.current = none) (hsub : loop.bridge.Sublist (s.loops n t).bridge) :
    (s.setLoop n t loop).Sound := by
  refine hs.setLoop ?_ ?_ ((hs.nodup n t).sublist hsub)
  · intro c i hi
    rw [hcur] at hi
    cases hi
  · intro c hc
    exact hs.waiting n t c (hsub.subset hc)

@[simp] theorem setLoop_self (s : Routing) (n t : Nat) (loop : BridgeLoop) :
    (s.setLoop n t loop).loops n t = loop := by
  simp [setLoop]

theorem setLoop_setLoop (s : Routing) (n t : Nat) (old loop : BridgeLoop) :
    (s.setLoop n t old).setLoop n t loop = s.setLoop n t loop := by
  simp [setLoop]

theorem setFate_setLoop (s : Routing) (c n t : Nat) (fate : ChannelFate) (loop : BridgeLoop) :
    (s.setFate c fate).setLoop n t loop = (s.setLoop n t loop).setFate c fate := rfl

/-- What the loop takes out of its bridge is a stream of its tunnel, and in no loop any more. -/
theorem Sound.pop {s : Routing} (hs : s.Sound) {n t c : Nat} {rest : List Nat}
    (hidle : (s.loops n t).current = none) (hbridge : (s.loops n t).bridge = c :: rest) :
    let popped := s.setLoop n t { s.loops n t with bridge := rest }
    c < s.nextChannel ∧ ((s.channels c).session = n ∧ (s.channels c).tunnel = some t) ∧
      popped.Sound ∧ (∀ m u i, (popped.loops m u).current ≠ some (c, i)) ∧
      ∀ m u, c ∉ (popped.loops m u).bridge := by
  intro popped
  have hc := hs.waiting n t c (by rw [hbridge]; exact List.mem_cons_self)
  have hpop : popped.Sound := by
    refine hs.shrinkLoop hidle ?_
    rw [hbridge]
    exact List.sublist_cons_self c rest
  have hnd := hs.nodup n t
  rw [hbridge] at hnd
  refine ⟨hs.lt_of_fate (by simp [hc.1]), hc.2, hpop, hpop.nowhere hc.2 ?_ ?_⟩
  · simp [popped, hidle]
  · simpa [popped] using (List.nodup_cons.mp hnd).1

theorem Sound.queued {s : Routing} (hs : s.Sound) {c t : Nat} (ht : (s.channels c).tunnel = some t)
    (hlt : c < s.nextChannel) (hc : (s.channels c).fate = .inFlight) :
    ((s.setFate c .queued).setLoop (s.channels c).session t
      { s.loops (s.channels c).session t with
        bridge := (s.loops (s.channels c).session t).bridge ++ [c] }).Sound := by
  obtain ⟨hcur, hwait⟩ := hs.nowhere_of_inFlight hc
  have hq : (s.setFate c .queued).Sound := hs.setFate hlt (by simp) hcur hwait
  refine hq.setLoop ?_ ?_ ?_
  · intro x i hx
    exact hq.current _ t x i hx
  · intro x hx
    rcases List.mem_append.mp hx with hx | hx
    · exact hq.waiting _ t x hx
    · rw [List.mem_singleton.mp hx]
      simp [Routing.setFate, ht]
  · rw [List.nodup_append]
    refine ⟨hs.nodup _ t, List.nodup_singleton c, ?_⟩
    rintro x hx y hy rfl
    rw [List.mem_singleton.mp hy] at hx
    exact hwait _ t hx

theorem Sound.routed {s : Routing} (hs : s.Sound) {n t c i : Nat} {rest : List Nat}
    (hidle : (s.loops n t).current = none) (hbridge : (s.loops n t).bridge = c :: rest)
    (hi : s.routeOf c = some i) :
    ((s.setFate c (.sending i)).setLoop n t
      { s.loops n t with bridge := rest, current := some (c, i) }).Sound := by
  obtain ⟨hlt, hc, hpop, hcur, hwait⟩ := hs.pop hidle hbridge
  have hsend : ((s.setLoop n t { s.loops n t with bridge := rest }).setFate c
      (.sending i)).Sound := by
    refine hpop.setFate hlt ?_ hcur hwait
    intro j hj
    rcases hj with hj | hj <;> cases hj
    exact hs.routeOf hlt hi
  have hnd := hs.nodup n t
  rw [hbridge] at hnd
  rw [← setFate_setLoop] at hsend
  rw [← setLoop_setLoop _ n t { s.loops n t with bridge := rest }]
  refine hsend.setLoop ?_ ?_ (List.nodup_cons.mp hnd).2
  · intro x j hx
    cases hx
    exact ⟨by simp [Routing.setFate, Routing.setLoop], by
      simpa [Routing.setFate, Routing.setLoop] using hc⟩
  · intro x hx
    exact hsend.waiting n t x (by simpa [setFate_setLoop, Routing.setFate] using hx)

theorem Sound.unrouted {s : Routing} (hs : s.Sound) {n t c : Nat} {rest : List Nat}
    (hidle : (s.loops n t).current = none) (hbridge : (s.loops n t).bridge = c :: rest) :
    ((s.setFate c .dropped).setLoop n t { s.loops n t with bridge := rest }).Sound := by
  obtain ⟨hlt, -, hpop, hcur, hwait⟩ := hs.pop hidle hbridge
  exact hpop.setFate hlt (by simp) hcur hwait

theorem Sound.handedOff {s : Routing} (hs : s.Sound) {n t c i : Nat}
    (hcurrent : (s.loops n t).current = some (c, i)) :
    ((s.setFate c (.handed i)).setLoop n t { s.loops n t with current := none }).Sound := by
  have hc := hs.current n t c i hcurrent
  have hnotin : c ∉ (s.loops n t).bridge := by
    intro hmem
    cases hc.1.symm.trans (hs.waiting n t c hmem).1
  have hidle : (s.setLoop n t { s.loops n t with current := none }).Sound :=
    hs.shrinkLoop rfl (List.Sublist.refl _)
  obtain ⟨hcur, hwait⟩ := hidle.nowhere hc.2 (by simp) (by simpa using hnotin)
  refine hidle.setFate (hs.lt_of_fate (by simp [hc.1])) ?_ hcur hwait
  intro j hj
  rcases hj with hj | hj <;> cases hj
  exact hs.found c i (.inl hc.1)

/-- A loop that breaks drops the stream at hand and those that wait. -/
theorem Sound.broken {s : Routing} (hs : s.Sound) {n t c i : Nat}
    (hcurrent : (s.loops n t).current = some (c, i)) :
    (((s.setFate c .dropped).dropAll (s.loops n t).bridge).setLoop n t ⟨[], none, true⟩).Sound := by
  have hc := hs.current n t c i hcurrent
  have hbroken : (s.setLoop n t ⟨[], none, true⟩).Sound :=
    hs.shrinkLoop rfl (List.nil_sublist _)
  obtain ⟨hcur, hwait⟩ := hbroken.nowhere hc.2 (by simp) (by simp)
  have hdrop : ((s.setLoop n t ⟨[], none, true⟩).setFate c .dropped).Sound :=
    hbroken.setFate (hs.lt_of_fate (by simp [hc.1])) (by simp) hcur hwait
  have hwaiting : ∀ x ∈ (s.loops n t).bridge,
      (∀ m u j, ((s.setLoop n t ⟨[], none, true⟩).loops m u).current ≠ some (x, j)) ∧
      ∀ m u, x ∉ ((s.setLoop n t ⟨[], none, true⟩).loops m u).bridge := by
    intro x hx
    exact hbroken.nowhere (hs.waiting n t x hx).2 (by simp) (by simp)
  refine hdrop.dropAll ?_ (fun x hx => (hwaiting x hx).1) (fun x hx => (hwaiting x hx).2)
  intro x hx
  exact hs.lt_of_fate (by simp [(hs.waiting n t x hx).1])

/-- A direct channel on its way to a queue is in no loop. -/
theorem Sound.nowhere_of_direct {s : Routing} (hs : s.Sound) {c : Nat}
    (htunnel : (s.channels c).tunnel = none) :
    (∀ n t i, (s.loops n t).current ≠ some (c, i)) ∧ ∀ n t, c ∉ (s.loops n t).bridge := by
  constructor
  · intro n t i hi
    cases htunnel.symm.trans (hs.current n t c i hi).2.2
  · intro n t hmem
    cases htunnel.symm.trans (hs.waiting n t c hmem).2.2

/-- **Every step keeps the channels sound.** -/
theorem Sound.step {cfg : ServerPolicy} {s s' : Routing} {e : RoutingEvent} (hs : s.Sound)
    (h : s.step cfg e = some s') : s'.Sound := by
  cases turn_of_step h with
  | server e server hserver => exact hs.server hserver
  | readAnswer n x task hx htask => exact hs.readAnswer hx task htask
  | openChannel n id tunnel i hi => exact hs.openChannel hi tunnel
  | found c i hlt hc hi =>
    obtain ⟨hcur, hwait⟩ := hs.nowhere_of_inFlight hc
    refine hs.setFate hlt ?_ hcur hwait
    intro j hj
    rcases hj with hj | hj <;> cases hj
    exact hs.routeOf hlt hi
  | missed c hlt hc | shut c t _ hlt hc =>
    obtain ⟨hcur, hwait⟩ := hs.nowhere_of_inFlight hc
    exact hs.setFate hlt (by simp) hcur hwait
  | sent c i htunnel hc =>
    obtain ⟨hcur, hwait⟩ := hs.nowhere_of_direct htunnel
    refine hs.setFate (hs.lt_of_fate (by simp [hc])) ?_ hcur hwait
    intro j hj
    rcases hj with hj | hj <;> cases hj
    exact hs.found c i (.inl hc)
  | unsent c i htunnel hc =>
    obtain ⟨hcur, hwait⟩ := hs.nowhere_of_direct htunnel
    exact hs.setFate (hs.lt_of_fate (by simp [hc])) (by simp) hcur hwait
  | queued c t ht hlt hc => exact hs.queued ht hlt hc
  | routed n t c rest i hidle hbridge hi => exact hs.routed hidle hbridge hi
  | unrouted n t c rest hidle hbridge => exact hs.unrouted hidle hbridge
  | handedOff n t c i hcurrent => exact hs.handedOff hcurrent
  | broken n t c i hcurrent => exact hs.broken hcurrent

/-! ## 6. No channel of a live service is dropped -/

/-- What is dropped was opened for a service that is not live. -/
def NoneLost (s : Routing) : Prop :=
  ∀ c, (s.channels c).fate = .dropped → s.liveFor c = false

/-- The step drops no channel of a live service: none is looked up while its service is pending,
and no tunnel's loop ends, or has ended, with one in its bridge. -/
def routable (s : Routing) : RoutingEvent → Bool
  | .lookUp c => ¬ (s.pending c ∧ s.liveFor c)
  | .take n t =>
    match (s.loops n t).bridge with
    | c :: _ => ¬ (s.pending c ∧ s.liveFor c)
    | [] => true
  | .handOff n t =>
    match (s.loops n t).current with
    | some (_, i) => s.receives i ∨ (s.loops n t).bridge.all fun c => ¬ s.liveFor c
    | none => true
  | .arrive c =>
    match (s.channels c).tunnel with
    | some t => ¬ ((s.loops (s.channels c).session t).ended ∧ s.liveFor c)
    | none => true
  | _ => true

@[simp] theorem liveFor_setFate (s : Routing) (c x : Nat) (fate : ChannelFate) :
    (s.setFate c fate).liveFor x = s.liveFor x := by
  by_cases hx : x = c
  · subst hx
    simp [liveFor, setFate]
  · simp [liveFor, setFate, hx]

theorem noneLost_setFate {s : Routing} (hs : s.NoneLost) (c : Nat) (fate : ChannelFate) :
    (s.setFate c fate).NoneLost ↔ (fate = .dropped → s.liveFor c = false) := by
  constructor
  · intro h hfate
    rw [← liveFor_setFate]
    exact h c (by simp [setFate, hfate])
  · intro h x hx
    rw [liveFor_setFate]
    by_cases hxc : x = c
    · subst hxc
      exact h (by simpa [setFate] using hx)
    · exact hs x (by simpa [setFate, hxc] using hx)

theorem noneLost_dropAll {s : Routing} (hs : s.NoneLost) (waiting : List Nat) :
    (s.dropAll waiting).NoneLost ↔ ∀ c ∈ waiting, s.liveFor c = false := by
  have hlive : ∀ x, (s.dropAll waiting).liveFor x = s.liveFor x := by
    intro x
    simp only [liveFor, dropAll]
    split <;> rfl
  constructor
  · intro h c hc
    rw [← hlive]
    exact h c (by simp [dropAll, hc])
  · intro h x hx
    rw [hlive]
    by_cases hmem : x ∈ waiting
    · exact h x hmem
    · exact hs x (by simpa [dropAll, hmem] using hx)

theorem noneLost_setLoop {s : Routing} {n t : Nat} {loop : BridgeLoop} :
    (s.setLoop n t loop).NoneLost ↔ s.NoneLost := Iff.rfl

/-- A lookup that fails loses a live service's channel exactly where the service is pending. -/
theorem Sound.lookup_loses {s : Routing} (hs : s.Sound) {c : Nat} (hc : c < s.nextChannel)
    (hnone : s.routeOf c = none) :
    s.liveFor c = false ↔ ¬ (s.pending c = true ∧ s.liveFor c = true) := by
  constructor
  · intro hdead hp
    rw [hdead] at hp
    cases hp.2
  · intro hp
    rcases hlive : s.liveFor c with _ | _
    · rfl
    · exact absurd ⟨(hs.routeOf_none hc hlive).mp hnone, hlive⟩ hp

/-- A lookup that succeeds is not of a pending service. -/
theorem Sound.not_pending_of_route {s : Routing} (hs : s.Sound) {c i : Nat}
    (hc : c < s.nextChannel) (hi : s.routeOf c = some i) :
    ¬ (s.pending c = true ∧ s.liveFor c = true) := by
  rintro ⟨hp, hlive⟩
  rw [(hs.routeOf_none hc hlive).mpr hp] at hi
  cases hi

/-- A task whose queue has no receiver is not live once its handle exists. -/
theorem not_live_of_not_receives {s : Routing} {i : Nat} (hr : s.receives i = false)
    (hcreated : Created (s.server.tasks i).phase) : s.server.live i = false := by
  simp only [receives, decide_eq_false_iff_not, not_or] at hr
  rcases hcreated with h | h | h
  · exact absurd h hr.1
  · exact absurd h hr.2
  · simp [ServerState.live, h]

/-- A channel whose hand-off fails was for a service that is not live. -/
theorem Sound.dead_of_refused {s : Routing} (hs : s.Sound) {c i : Nat}
    (hfate : (s.channels c).fate = .sending i) (hr : s.receives i = false) :
    s.liveFor c = false := by
  obtain ⟨hcreated, -, htask⟩ := hs.found c i (.inl hfate)
  rcases htask with rfl | hdead
  · exact not_live_of_not_receives hr hcreated
  · exact hdead

/-- **One step.**  From a state without losses, a step loses no channel if and only if it is
routable. -/
theorem noneLost_step {cfg : ServerPolicy} {s s' : Routing} {e : RoutingEvent} (hs : s.Sound)
    (hn : s.NoneLost) (h : s.step cfg e = some s') : s'.NoneLost ↔ s.routable e = true := by
  cases turn_of_step h with
  | server e server hserver =>
    refine iff_of_true ?_ rfl
    intro c hc
    have hlt : c < s.nextChannel := hs.lt_of_fate (by
      have hf : (s.channels c).fate = .dropped := hc
      simp [hf])
    have hlive := (ServerState.Grows.step hs.placed hserver _ (hs.opened c hlt).1).2.2.2
    have hdead := hn c hc
    rw [Bool.eq_false_iff] at hdead ⊢
    exact fun h => hdead (hlive h)
  | readAnswer => exact iff_of_true hn rfl
  | openChannel =>
    refine iff_of_true ?_ rfl
    intro c hc
    by_cases hnew : c = s.nextChannel
    · simp [hnew] at hc
    · simp only [update_of_ne hnew] at hc
      have := hn c hc
      simpa [liveFor, update_of_ne hnew] using this
  | found c i hlt hc hi =>
    rw [noneLost_setFate hn]
    have := hs.not_pending_of_route hlt hi
    simp [routable, this]
  | missed c hlt hc hnone =>
    rw [noneLost_setFate hn, forall_prop_of_true rfl, hs.lookup_loses hlt hnone]
    simp only [routable, decide_eq_true_eq]
  | sent => exact iff_of_true ((noneLost_setFate hn _ _).mpr (by simp)) rfl
  | unsent c i _ hc hr =>
    exact iff_of_true ((noneLost_setFate hn _ _).mpr fun _ => hs.dead_of_refused hc hr) rfl
  | shut c t ht _ _ hended =>
    rw [noneLost_setFate hn]
    simp [routable, ht, hended]
  | queued c t ht _ _ hended =>
    rw [noneLost_setLoop, noneLost_setFate hn]
    simp [routable, ht, hended]
  | routed n t c rest i hidle hbridge hi =>
    rw [noneLost_setLoop, noneLost_setFate hn]
    have := hs.not_pending_of_route (hs.pop hidle hbridge).1 hi
    simp [routable, hbridge, this]
  | unrouted n t c rest hidle hbridge hnone =>
    rw [noneLost_setLoop, noneLost_setFate hn, forall_prop_of_true rfl,
      hs.lookup_loses (hs.pop hidle hbridge).1 hnone]
    simp only [routable, hbridge, decide_eq_true_eq]
  | handedOff n t c i hcurrent hr =>
    rw [noneLost_setLoop, noneLost_setFate hn]
    simp [routable, hcurrent, hr]
  | broken n t c i hcurrent hr =>
    have hdead := hs.dead_of_refused (hs.current n t c i hcurrent).1 hr
    rw [noneLost_setLoop, noneLost_dropAll ((noneLost_setFate hn _ _).mpr fun _ => hdead)]
    simp [routable, hcurrent, hr]

/-- **After the `Ok`.**  In a run of routable steps, no channel opened for a live service is
dropped, and one that is handed over goes to the service it names, which is the registration it
was opened for unless that has ended since.  The next step loses no such channel if and only if it
is routable as well. -/
theorem handed_unless_gone {cfg : ServerPolicy} {s : Routing}
    (h : ((routing cfg).restrict fun s e => s.routable e = true).Reach s) :
    (∀ c, c < s.nextChannel →
      ((s.channels c).fate = .dropped → s.server.live (s.channels c).task = false) ∧
      ∀ i, (s.channels c).fate = .handed i →
        (s.server.tasks i).owner = ((s.channels c).session, (s.channels c).service) ∧
        (i = (s.channels c).task ∨ s.server.live (s.channels c).task = false)) ∧
    ∀ e s', s.step cfg e = some s' → (s'.NoneLost ↔ s.routable e = true) := by
  have hsound : s.Sound ∧ s.NoneLost := by
    refine h.invariant (P := fun s => s.Sound ∧ s.NoneLost) ?_ ?_
    · rintro s rfl
      refine ⟨Sound.new, ?_⟩
      intro c hc
      cases hc
    · rintro s e s' ⟨hs, hn⟩ ⟨hroutable, hstep⟩
      exact ⟨hs.step hstep, (noneLost_step hs hn hstep).mpr hroutable⟩
  obtain ⟨hs, hn⟩ := hsound
  refine ⟨fun c _ => ⟨hn c, ?_⟩, fun e s' hstep => noneLost_step hs hn hstep⟩
  intro i hi
  exact (hs.found c i (.inr hi)).2

end Routing

/-! ## 7. Runs -/

/-- Session 0 registers a service up to the `Ok`. -/
def okRun : List RoutingEvent :=
  (.connect 0 :: asks 0 ++ [.bind 0 none, .ack 0] : List ServerEvent).map .server

/-- The client's first channels, one direct and one on a tunnel, arrive once the service is in
the map. -/
def firstChannels : List RoutingEvent :=
  okRun ++ [.server (.create 0), .server (.insert 0), .readAnswer 0, .openChannel 0 5 none,
    .openChannel 0 5 (some 0), .lookUp 0, .send 0, .arrive 1, .take 0 0, .handOff 0 0]

theorem handed_unless_gone_first :
    ∃ s, ((routing openServer).restrict fun s e => s.routable e = true).Reach s ∧
      ((s.channels 0).fate = .handed 0 ∧ (s.channels 1).fate = .handed 0) ∧
      (s.server.tasks 0).owner = ((s.channels 1).session, (s.channels 1).service) := by
  have hrun : (Lts.runWith (Routing.step openServer) Routing.routable .new firstChannels).any
      (fun s => decide (s.nextChannel = 2 ∧
        (s.channels 0).fate = .handed 0 ∧ (s.channels 1).fate = .handed 0)) = true := by
    decide +kernel
  obtain ⟨s, hs, hend⟩ := Lts.Reach.exists_runWith (T := routing openServer)
    (fun _ _ _ h => h) (fun _ _ h => h) rfl hrun
  obtain ⟨hnext, h0, h1⟩ := of_decide_eq_true hend
  refine ⟨s, hs, ⟨h0, h1⟩, ?_⟩
  exact (((Routing.handed_unless_gone hs).1 1 (by omega)).2 0 h1).1

/-- **The first channel is lost.**  The client reads the `Ok` and opens a channel, direct or on a
tunnel, before the server has put the handle into the map: the channel is dropped, and its service
is registered. -/
theorem dropped_after_ok :
    (∃ s, (routing openServer).Reach s ∧ (s.channels 0).fate = .dropped ∧
      s.server.live (s.channels 0).task = true) ∧
    ∃ s, (routing openServer).Reach s ∧ (s.channels 0).tunnel = some 0 ∧
      (s.channels 0).fate = .dropped ∧ s.server.live (s.channels 0).task = true := by
  have hdirect : (Lts.runWith (Routing.step openServer) (fun _ _ => true) .new
      (okRun ++ [.readAnswer 0, .openChannel 0 5 none, .lookUp 0])).any
      (fun s => decide ((s.channels 0).fate = .dropped ∧
        s.server.live (s.channels 0).task = true)) = true := by
    decide +kernel
  have htunnel : (Lts.runWith (Routing.step openServer) (fun _ _ => true) .new
      (okRun ++ [.readAnswer 0, .openChannel 0 5 (some 0), .arrive 0, .take 0 0])).any
      (fun s => decide ((s.channels 0).tunnel = some 0 ∧ (s.channels 0).fate = .dropped ∧
        s.server.live (s.channels 0).task = true)) = true := by
    decide +kernel
  constructor
  · obtain ⟨s, hs, hend⟩ :=
      Lts.Reach.exists_run (T := routing openServer) (fun _ _ _ h => h) rfl hdirect
    exact ⟨s, hs, of_decide_eq_true hend⟩
  · obtain ⟨s, hs, hend⟩ :=
      Lts.Reach.exists_run (T := routing openServer) (fun _ _ _ h => h) rfl htunnel
    exact ⟨s, hs, of_decide_eq_true hend⟩

end Molehill.Server
