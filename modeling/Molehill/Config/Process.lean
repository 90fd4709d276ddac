/-
# One process, from its file to its instance

`run` (`lib.rs`) starts an instance with the configuration that the watcher read first.  The
watcher's events reach it through a channel: a change of the client's services goes on to the
instance, through a channel of its own that holds 1024; any other change restarts the instance,
which is told to stop, and whose end the loop waits for before it starts the next one.  An instance
that ends on its own ends the process.

Reading the file, the loop and the instance run side by side (`Process.step`).  In every order of
their steps there is one instance at most, its end is never lost, and what it runs with, once the
changes on their way have arrived, is the file as it was read last (`file_followed`): the condition
on the edits is the one under which the watcher's events are complete.
-/
import Molehill.Config.Reload
import Molehill.Lib.Transition

namespace Molehill.Reload

open Lib

/-! ## 1. The process -/

section

variable {Service : Type} (name : Service → String) (Server Head L3 : Type)

/-- An instance that was started: the configuration it runs with, the service updates it has not
read, and how it ended (without an error or with one). -/
structure Instance where
  config : Config name Server Head L3
  updates : List (ConfigChange name Server Head L3)
  ended : Option Bool

/-- Where the loop of `run` is: in its select, sending an update to the instance, waiting for the
end of the instance it told to stop, over. -/
inductive RunPhase
  | selecting
  | forwarding (update : ConfigChange name Server Head L3)
  | restarting (config : Config name Server Head L3)
  | returned (ok : Bool)

/-- The watcher with the last file it could read, the loop of `run`, and the instances it started,
newest first. -/
structure Process where
  file : Config name Server Head L3
  watching : Bool
  /-- `cfg_watcher.event_rx`. -/
  events : List (ConfigChange name Server Head L3)
  phase : RunPhase name Server Head L3
  running : Bool
  instances : List (Instance name Server Head L3)
  /-- `end_rx`. -/
  ends : List Bool

inductive ProcessEvent
  /-- The watcher reads a valid file. -/
  | edit (new : Config name Server Head L3)
  /-- The watcher ends: a shutdown, or it cannot watch. -/
  | unwatch
  /-- The loop takes the next event; `heard`: some task of an instance still listens for the
  signal. -/
  | next (heard : Bool)
  /-- The update is sent. -/
  | forwarded
  /-- The loop takes the next end. -/
  | ending
  /-- The loop sees that the watcher is gone. -/
  | unwatched
  /-- The instance reads an update. -/
  | update
  /-- The instance ends. -/
  | exit (ok : Bool)

end

variable {Server Head L3 Service : Type} {name : Service → String}
  [DecidableEq Server] [DecidableEq Head] [DecidableEq L3] [DecidableEq Service]

/-- The capacity of the service update channel. -/
def serviceUpdates : Nat := 1024

omit [DecidableEq Server] [DecidableEq Head] [DecidableEq L3] [DecidableEq Service] in
theorem applyAll_append (c : Config name Server Head L3)
    (changes more : List (ConfigChange name Server Head L3)) :
    c.applyAll (changes ++ more) = (c.applyAll changes).applyAll more :=
  List.foldl_append ..

namespace Process

/-- `ConfigWatcherHandle::new`: the first file is the first event. -/
def new (file : Config name Server Head L3) : Process name Server Head L3 :=
  ⟨file, true, [.general file], .selecting, false, [], []⟩

/-- An instance is started. -/
def start (s : Process name Server Head L3) (config : Config name Server Head L3) :
    Process name Server Head L3 :=
  { s with phase := .selecting, running := true, instances := ⟨config, [], none⟩ :: s.instances }

/-- Whether the newest instance runs. -/
def alive (s : Process name Server Head L3) : Bool :=
  s.instances.head?.any fun i => i.ended.isNone

def step (s : Process name Server Head L3) :
    ProcessEvent name Server Head L3 → Option (Process name Server Head L3)
  | .edit new =>
    if s.watching then some { s with file := new, events := s.events ++ s.file.events new }
    else none
  | .unwatch => some { s with watching := false }
  | .next heard =>
    match s.phase, s.events with
    | .selecting, .general config :: rest =>
      if s.running then
        if heard || s.alive then some { s with events := rest, phase := .restarting config }
        else some { s with events := rest, phase := .returned false }
      else some ({ s with events := rest }.start config)
    | .selecting, change :: rest =>
      if s.running then some { s with events := rest, phase := .forwarding change }
      else some { s with events := rest }
    | _, _ => none
  | .forwarded =>
    match s.phase, s.instances with
    | .forwarding change, i :: older =>
      if i.ended.isSome then some { s with phase := .selecting }
      else if i.updates.length < serviceUpdates then
        some { s with
          phase := .selecting
          instances := { i with updates := i.updates ++ [change] } :: older }
      else none
    | _, _ => none
  | .ending =>
    match s.phase, s.ends with
    | .selecting, ok :: rest =>
      if s.running then some { s with ends := rest, phase := .returned ok } else none
    | .restarting config, ok :: rest =>
      if ok then some ({ s with ends := rest }.start config)
      else some { s with ends := rest, phase := .returned false }
    | _, _ => none
  | .unwatched =>
    match s.phase, s.events with
    | .selecting, [] => if s.watching then none else some { s with phase := .returned true }
    | _, _ => none
  | .update =>
    match s.instances with
    | ⟨config, change :: rest, none⟩ :: older =>
      some { s with instances := ⟨config.apply change, rest, none⟩ :: older }
    | _ => none
  | .exit ok =>
    match s.instances with
    | ⟨config, updates, none⟩ :: older =>
      some { s with instances := ⟨config, updates, some ok⟩ :: older, ends := s.ends ++ [ok] }
    | _ => none

end Process

/-- The runs of a process on a file. -/
def process (file : Config name Server Head L3) :
    Lts (Process name Server Head L3) (ProcessEvent name Server Head L3) where
  init s := s = .new file
  step s e s' := s.step e = some s'

/-! ## 2. What is promised -/

namespace Process

/-- Whether the loop is over. -/
def finished (s : Process name Server Head L3) : Bool :=
  match s.phase with
  | .returned _ => true
  | _ => false

/-- An edit that the watcher's events answer: the server's block is the same, or something else
restarts the instance. -/
def Answered (s : Process name Server Head L3) : ProcessEvent name Server Head L3 → Prop
  | .edit new => s.file.server = new.server ∨ s.file.restarts new = true
  | _ => True

instance (s : Process name Server Head L3) (e : ProcessEvent name Server Head L3) :
    Decidable (s.Answered e) :=
  match e with
  | .edit new => inferInstanceAs (Decidable (s.file.server = new.server ∨ _))
  | .unwatch | .next _ | .forwarded | .ending | .unwatched | .update | .exit _ =>
    inferInstanceAs (Decidable True)

/-- **What is promised** of the process. -/
structure Sound (s : Process name Server Head L3) : Prop where
  /-- Only the newest instance runs. -/
  one : ∀ i ∈ s.instances.tail, i.ended.isSome = true
  /-- No end is lost: while the loop goes on, the instance runs, or its end waits to be read. -/
  noticed : s.finished = false → s.running = true → s.alive = true ∨ s.ends ≠ []
  /-- The process stops as it should: with success if the watcher is gone or the instance stopped
  without an error, and without only if the instance ended. -/
  verdict : ∀ ok, s.phase = .returned ok → (ok = true ∧ s.watching = false) ∨
    ∃ i older end', s.instances = i :: older ∧ i.ended = some end' ∧ (ok = true → end' = true)
  /-- Once the changes on their way have arrived, the instance runs with the last file. -/
  followed : s.phase = .selecting → s.events = [] → ∀ i older, s.instances = i :: older →
    i.ended = none → i.updates = [] → i.config.Same s.file

/-! ## 3. What every step keeps -/

/-- What the loop has taken from the watcher and not passed on, while the instance is to have it. -/
def passing (s : Process name Server Head L3) : Option (List (ConfigChange name Server Head L3)) :=
  match s.phase with
  | .selecting => some []
  | .forwarding change => some [change]
  | .restarting _ | .returned _ => none

/-- The changes on their way bring what the instance runs with to the file. -/
structure Held (s : Process name Server Head L3) : Prop where
  older : ∀ i ∈ s.instances.tail, i.ended.isSome = true
  newest : s.running = true → s.instances ≠ []
  idle : s.running = false → s.instances = [] ∧ s.ends = []
  counted : s.finished = false → ∀ i older, s.instances = i :: older → s.ends = i.ended.toList
  verdict : ∀ ok, s.phase = .returned ok → (ok = true ∧ s.watching = false) ∨
    ∃ i older end', s.instances = i :: older ∧ i.ended = some end' ∧ (ok = true → end' = true)
  followed : ∀ pending, s.passing = some pending → ∃ base : Config name Server Head L3,
    (base.applyAll (pending ++ s.events)).Same s.file ∧
      ∀ i older, s.instances = i :: older → i.ended = none → i.config.applyAll i.updates = base
  restarting : ∀ config, s.phase = .restarting config → s.running = true ∧
    (config.applyAll s.events).Same s.file

namespace Held

variable {s s' : Process name Server Head L3} {file : Config name Server Head L3}

omit [DecidableEq Server] [DecidableEq Head] [DecidableEq L3] [DecidableEq Service] in
theorem new (file : Config name Server Head L3) : Held (.new file) where
  older := fun i hi => absurd hi List.not_mem_nil
  newest := fun h => by cases h
  idle := fun _ => ⟨rfl, rfl⟩
  counted := fun _ i older h => by cases h
  verdict := fun ok h => by cases h
  followed := fun pending h => by
    obtain rfl := Option.some.inj h
    exact ⟨file, Config.Same.refl file, fun i older h => by cases h⟩
  restarting := fun config h => by cases h

/-- **A file is read**: its events bring what was to be the last file to it. -/
theorem edit (h : Held s) {new : Config name Server Head L3}
    (hanswered : s.file.server = new.server ∨ s.file.restarts new = true) :
    Held { s with file := new, events := s.events ++ s.file.events new } where
  older := h.older
  newest := h.newest
  idle := h.idle
  counted := h.counted
  verdict := h.verdict
  followed := fun pending hp => by
    obtain ⟨base, hbase, hruns⟩ := h.followed pending hp
    refine ⟨base, ?_, hruns⟩
    rw [← List.append_assoc, applyAll_append]
    exact Config.same_applyAll hbase hanswered
  restarting := fun config hphase => by
    obtain ⟨hrunning, hsame⟩ := h.restarting config hphase
    refine ⟨hrunning, ?_⟩
    rw [applyAll_append]
    exact Config.same_applyAll hsame hanswered

omit [DecidableEq Server] [DecidableEq Head] [DecidableEq L3] [DecidableEq Service] in
/-- An instance is started with the configuration whose remaining events lead to the file. -/
theorem start {config : Config name Server Head L3} {events : List _}
    {ends : List Bool} (hended : ∀ i ∈ s.instances, i.ended.isSome = true) (hends : ends = [])
    (hsame : (config.applyAll events).Same s.file) :
    Held ({ s with events := events, ends := ends }.start config) where
  older := hended
  newest := fun _ => List.cons_ne_nil _ _
  idle := fun hrunning => by cases hrunning
  counted := fun _ i older hi => by
    obtain ⟨rfl, -⟩ := List.cons.inj hi
    exact hends
  verdict := fun ok hphase => by cases hphase
  followed := fun pending hp => by
    obtain rfl := Option.some.inj hp
    refine ⟨config, hsame, fun i older hi _ => ?_⟩
    obtain ⟨rfl, -⟩ := List.cons.inj hi
    rfl
  restarting := fun config hphase => by cases hphase

omit [DecidableEq Server] [DecidableEq Head] [DecidableEq L3] [DecidableEq Service] in
theorem unfinished_of_passing {pending : List (ConfigChange name Server Head L3)}
    (h : s.passing = some pending) : s.finished = false := by
  obtain ⟨_, _, _, phase, _, _, _⟩ := s
  cases phase with
  | selecting | forwarding => rfl
  | restarting | returned => cases h

omit [DecidableEq Server] [DecidableEq Head] [DecidableEq L3] [DecidableEq Service] in
/-- The loop is in its select, or sends an update: the next place with what it holds there. -/
theorem moves (h : Held s) {pending pending' : List (ConfigChange name Server Head L3)}
    {phase : RunPhase name Server Head L3} {events : List (ConfigChange name Server Head L3)}
    (hp : s.passing = some pending) (hp' : passing { s with phase := phase } = some pending')
    (hsame : pending ++ s.events = pending' ++ events) :
    Held { s with phase := phase, events := events } := by
  have hgoing : finished { s with phase := phase } = false := unfinished_of_passing hp'
  refine ⟨h.older, h.newest, h.idle, fun _ => h.counted (unfinished_of_passing hp),
    fun ok hphase => ?_, fun pending'' hp'' => ?_, fun config hphase => ?_⟩
  · change phase = .returned ok at hphase
    subst hphase
    cases hgoing
  · change passing { s with phase := phase } = some pending'' at hp''
    obtain rfl := Option.some.inj (hp'.symm.trans hp'')
    obtain ⟨base, hbase, hruns⟩ := h.followed pending hp
    exact ⟨base, hsame ▸ hbase, hruns⟩
  · change phase = .restarting config at hphase
    subst hphase
    cases hp'

omit [DecidableEq Server] [DecidableEq Head] [DecidableEq L3] [DecidableEq Service] in
/-- A change for an instance that is not there: what was to be the file is counted on. -/
theorem drops (h : Held s) {pending events : List (ConfigChange name Server Head L3)}
    {change : ConfigChange name Server Head L3} (hp : s.passing = some pending)
    (hended : ∀ i ∈ s.instances, i.ended.isSome = true)
    (hsame : pending ++ s.events = change :: events) :
    Held { s with phase := .selecting, events := events } := by
  refine ⟨h.older, h.newest, h.idle, fun _ => h.counted (unfinished_of_passing hp),
    (fun ok hphase => by cases hphase), fun pending' hp' => ?_,
    (fun config hphase => by cases hphase)⟩
  obtain rfl := Option.some.inj hp'
  obtain ⟨base, hbase, -⟩ := h.followed pending hp
  rw [hsame] at hbase
  refine ⟨base.apply change, hbase, fun i older hi hnone => ?_⟩
  have hsome := hended i (by
    change s.instances = i :: older at hi
    rw [hi]
    exact List.mem_cons_self)
  rw [hnone] at hsome
  cases hsome

omit [DecidableEq Server] [DecidableEq Head] [DecidableEq L3] [DecidableEq Service] in
/-- Where the newest instance does not run, none does. -/
theorem all_ended (h : Held s) (hdead : s.alive = false) :
    ∀ i ∈ s.instances, i.ended.isSome = true := by
  have holder := h.older
  unfold alive at hdead
  intro i hi
  cases hinst : s.instances with
  | nil =>
    rw [hinst] at hi
    cases hi
  | cons newest older =>
    rw [hinst] at hi hdead holder
    rcases List.mem_cons.mp hi with rfl | hi
    · rw [List.head?_cons, Option.any_some, Option.isNone_eq_false_iff] at hdead
      exact hdead
    · exact holder i hi

/-- **The loop takes an event.** -/
theorem next (h : Held s) {heard : Bool} (hs : s.step (.next heard) = some s') : Held s' := by
  simp only [step] at hs
  split at hs
  case h_1 config rest hphase hevents =>
    have hp : s.passing = some [] := by rw [passing, hphase]
    obtain ⟨base, hbase, hruns⟩ := h.followed [] hp
    rw [hevents] at hbase
    split at hs
    case isTrue hrunning =>
      split at hs
      case isTrue =>
        obtain rfl := Option.some.inj hs
        exact ⟨h.older, h.newest, h.idle, fun _ => h.counted (unfinished_of_passing hp),
          (fun ok hphase => by cases hphase), (fun pending hp => by cases hp),
          fun config' hphase => by
            obtain rfl := RunPhase.restarting.inj hphase
            exact ⟨hrunning, hbase⟩⟩
      case isFalse hdead =>
        obtain rfl := Option.some.inj hs
        refine ⟨h.older, h.newest, h.idle, (fun hgoing => by cases hgoing), fun ok hphase => ?_,
          (fun pending hp => by cases hp), (fun config hphase => by cases hphase)⟩
        rw [Bool.or_eq_true, not_or, Bool.not_eq_true, Bool.not_eq_true] at hdead
        obtain ⟨i, older, hinst⟩ := List.exists_cons_of_ne_nil (h.newest hrunning)
        have hsome := h.all_ended hdead.2 i (by rw [hinst]; exact List.mem_cons_self)
        obtain ⟨end', hend⟩ := Option.isSome_iff_exists.mp hsome
        obtain rfl := RunPhase.returned.inj hphase
        exact .inr ⟨i, older, end', hinst, hend, (fun hok => by cases hok)⟩
    case isFalse hidle =>
      obtain rfl := Option.some.inj hs
      obtain ⟨hnone, hends⟩ := h.idle (Bool.eq_false_iff.mpr hidle)
      have hended : ∀ i ∈ s.instances, i.ended.isSome = true := by
        rw [hnone]
        exact fun i hi => absurd hi List.not_mem_nil
      exact start hended hends hbase
  case h_2 change rest hgeneral hphase hevents =>
    have hp : s.passing = some [] := by rw [passing, hphase]
    split at hs
    case isTrue hrunning =>
      obtain rfl := Option.some.inj hs
      exact h.moves hp rfl hevents
    case isFalse hidle =>
      obtain rfl := Option.some.inj hs
      have hended : ∀ i ∈ s.instances, i.ended.isSome = true := by
        rw [(h.idle (Bool.eq_false_iff.mpr hidle)).1]
        exact fun i hi => absurd hi List.not_mem_nil
      have hdrops := h.drops hp hended hevents
      rwa [← hphase] at hdrops
  case h_3 => cases hs

/-- **An update is sent**, or there is nobody to send it to. -/
theorem forwarded (h : Held s) (hs : s.step .forwarded = some s') : Held s' := by
  simp only [step] at hs
  split at hs
  case h_1 change i older hphase hinst =>
    have hp : s.passing = some [change] := by rw [passing, hphase]
    split at hs
    case isTrue hend =>
      obtain rfl := Option.some.inj hs
      have hended : ∀ j ∈ s.instances, j.ended.isSome = true := by
        refine h.all_ended ?_
        rw [alive, hinst, List.head?_cons, Option.any_some, Option.isNone_eq_false_iff]
        exact hend
      exact h.drops hp hended rfl
    case isFalse hend =>
      split at hs
      case isTrue =>
        obtain rfl := Option.some.inj hs
        obtain ⟨base, hbase, hruns⟩ := h.followed [change] hp
        have hnone : i.ended = none := Option.not_isSome_iff_eq_none.mp hend
        refine ⟨?_, fun _ => List.cons_ne_nil _ _, fun hidle => ?_, fun _ j older' hj => ?_,
          (fun ok hphase => by cases hphase), fun pending hp' => ?_,
          (fun config hphase => by cases hphase)⟩
        · have holder := h.older
          rw [hinst] at holder
          exact holder
        · rw [(h.idle hidle).1] at hinst
          cases hinst
        · obtain ⟨rfl, rfl⟩ := List.cons.inj hj
          exact h.counted (unfinished_of_passing hp) i older hinst
        · obtain rfl := Option.some.inj hp'
          refine ⟨base.apply change, hbase, fun j older' hj _ => ?_⟩
          obtain ⟨rfl, rfl⟩ := List.cons.inj hj
          rw [applyAll_append, hruns i older hinst hnone]
          rfl
      case isFalse => cases hs
  case h_2 => cases hs

/-- **The loop takes an end**: its own, or the one that a restart waits for. -/
theorem ending (h : Held s) (hs : s.step .ending = some s') : Held s' := by
  simp only [step] at hs
  have hread : s.finished = false → ∀ ok rest, s.ends = ok :: rest → s.running = true →
      ∃ i older, s.instances = i :: older ∧ i.ended = some ok ∧ rest = [] := by
    intro hgoing ok rest hends hrunning
    obtain ⟨i, older, hinst⟩ := List.exists_cons_of_ne_nil (h.newest hrunning)
    have hcounted := h.counted hgoing i older hinst
    rw [hends] at hcounted
    cases hend : i.ended with
    | none =>
      rw [hend] at hcounted
      cases hcounted
    | some end' =>
      rw [hend, Option.toList_some, List.cons.injEq] at hcounted
      exact ⟨i, older, hinst, hcounted.1 ▸ hend, hcounted.2⟩
  split at hs
  case h_1 ok rest hphase hends =>
    split at hs
    case isTrue hrunning =>
      obtain rfl := Option.some.inj hs
      have hgoing : s.finished = false := by rw [finished, hphase]
      obtain ⟨i, older, hinst, hend, -⟩ := hread hgoing ok rest hends hrunning
      refine ⟨h.older, h.newest, fun hidle => ?_, (fun hgoing => by cases hgoing), fun ok' hok => ?_,
        (fun pending hp => by cases hp), (fun config hphase => by cases hphase)⟩
      · rw [hidle] at hrunning
        cases hrunning
      · obtain rfl := RunPhase.returned.inj hok
        exact .inr ⟨i, older, ok, hinst, hend, id⟩
    case isFalse => cases hs
  case h_2 config ok rest hphase hends =>
    have hgoing : s.finished = false := by rw [finished, hphase]
    obtain ⟨hrunning, hsame⟩ := h.restarting config hphase
    obtain ⟨i, older, hinst, hend, hrest⟩ := hread hgoing ok rest hends hrunning
    split at hs
    case isTrue =>
      obtain rfl := Option.some.inj hs
      refine start (h.all_ended ?_) hrest hsame
      rw [alive, hinst, List.head?_cons, Option.any_some, hend]
      rfl
    case isFalse hok =>
      obtain rfl := Option.some.inj hs
      refine ⟨h.older, h.newest, fun hidle => ?_, (fun hgoing => by cases hgoing), fun ok' hok' => ?_,
        (fun pending hp => by cases hp), (fun config hphase => by cases hphase)⟩
      · rw [hidle] at hrunning
        cases hrunning
      · obtain rfl := RunPhase.returned.inj hok'
        exact .inr ⟨i, older, ok, hinst, hend, (fun hfalse => by cases hfalse)⟩
  case h_3 => cases hs

omit [DecidableEq Server] [DecidableEq Head] [DecidableEq L3] [DecidableEq Service] in
/-- **The instance goes on**: it reads an update, or it ends. -/
theorem newest_steps (h : Held s) {config config' : Config name Server Head L3}
    {updates updates' : List (ConfigChange name Server Head L3)} {end' : Option Bool}
    {older : List (Instance name Server Head L3)}
    (hinst : s.instances = ⟨config, updates, none⟩ :: older)
    (happly : end' = none → config'.applyAll updates' = config.applyAll updates) :
    Held { s with
      instances := ⟨config', updates', end'⟩ :: older
      ends := s.ends ++ end'.toList } := by
  refine ⟨?_, fun _ => List.cons_ne_nil _ _, fun hidle => ?_, fun hgoing j older' hj => ?_,
    fun ok hphase => ?_, fun pending hp => ?_, h.restarting⟩
  · have holder := h.older
    rw [hinst] at holder
    exact holder
  · rw [(h.idle hidle).1] at hinst
    cases hinst
  · obtain ⟨rfl, rfl⟩ := List.cons.inj hj
    rw [h.counted hgoing _ older hinst]
    rfl
  · rcases h.verdict ok hphase with hgone | ⟨i, older', end'', hi, hend, -⟩
    · exact .inl hgone
    · obtain ⟨rfl, -⟩ := List.cons.inj (hinst.symm.trans hi)
      cases hend
  · obtain ⟨base, hbase, hruns⟩ := h.followed pending hp
    refine ⟨base, hbase, fun j older' hj hnone => ?_⟩
    obtain ⟨rfl, -⟩ := List.cons.inj hj
    exact (happly hnone).trans (hruns _ older hinst rfl)

/-- **One step** of the process. -/
theorem step {e : ProcessEvent name Server Head L3} (h : Held s) (hanswered : s.Answered e)
    (hs : s.step e = some s') : Held s' := by
  cases e with
  | edit new =>
    simp only [Process.step, Option.ite_none_right_eq_some, Option.some.injEq] at hs
    obtain ⟨-, rfl⟩ := hs
    exact h.edit hanswered
  | unwatch =>
    obtain rfl := Option.some.inj hs
    exact ⟨h.older, h.newest, h.idle, h.counted,
      fun ok hphase => (h.verdict ok hphase).imp_left fun hgone => ⟨hgone.1, rfl⟩, h.followed,
      h.restarting⟩
  | next heard => exact h.next hs
  | forwarded => exact h.forwarded hs
  | ending => exact h.ending hs
  | unwatched =>
    simp only [Process.step] at hs
    split at hs
    case h_1 hphase hevents =>
      split at hs
      case isTrue => cases hs
      case isFalse hgone =>
        obtain rfl := Option.some.inj hs
        exact ⟨h.older, h.newest, h.idle, (fun hgoing => by cases hgoing),
          fun ok hok => .inl ⟨(RunPhase.returned.inj hok).symm, Bool.eq_false_iff.mpr hgone⟩,
          (fun pending hp => by cases hp), (fun config hphase => by cases hphase)⟩
    case h_2 => cases hs
  | update =>
    simp only [Process.step] at hs
    split at hs
    case h_1 config change rest older hinst =>
      obtain rfl := Option.some.inj hs
      have hsteps : Held { s with
          instances := ⟨config.apply change, rest, none⟩ :: older
          ends := s.ends ++ (none : Option Bool).toList } := h.newest_steps hinst fun _ => rfl
      rwa [Option.toList_none, List.append_nil] at hsteps
    case h_2 => cases hs
  | exit ok =>
    simp only [Process.step] at hs
    split at hs
    case h_1 config updates older hinst =>
      obtain rfl := Option.some.inj hs
      exact h.newest_steps hinst fun hnone => by cases hnone
    case h_2 => cases hs

omit [DecidableEq Server] [DecidableEq Head] [DecidableEq L3] [DecidableEq Service] in
theorem sound (h : Held s) : s.Sound where
  one := h.older
  noticed := by
    intro hgoing hrunning
    obtain ⟨i, older, hinst⟩ := List.exists_cons_of_ne_nil (h.newest hrunning)
    rw [h.counted hgoing i older hinst, alive, hinst, List.head?_cons, Option.any_some]
    cases i.ended with
    | none => exact .inl rfl
    | some end' => exact .inr (List.cons_ne_nil _ _)
  verdict := h.verdict
  followed := by
    intro hphase hevents i older hinst hnone hupdates
    have hp : s.passing = some [] := by rw [passing, hphase]
    obtain ⟨base, hbase, hruns⟩ := h.followed [] hp
    rw [hevents] at hbase
    have hconfig := hruns i older hinst hnone
    rw [hupdates] at hconfig
    change i.config = base at hconfig
    rw [hconfig]
    exact hbase

end Held

end Process

/-- **One process and its file.**  In every order in which the watcher, the loop and the instance
take their steps, while the watcher's events answer every edit: one instance runs at most, its end
is never lost, the process stops as it should, and what is on its way makes of the instance's
configuration the last file. -/
theorem file_followed {file : Config name Server Head L3} {s : Process name Server Head L3}
    (hr : ((process file).restrict Process.Answered).Reach s) : s.Sound := by
  refine Process.Held.sound (hr.invariant ?_ ?_)
  · rintro s rfl
    exact .new file
  · rintro s e s' hheld ⟨hanswered, hs⟩
    exact hheld.step hanswered hs

/-- A client's file, with the settings and the names of its services. -/
def clientFile (head : Nat) (services : List String) :
    Config (id : String → String) Unit Nat Unit :=
  ⟨none, some (services.foldl ClientBlock.insert ⟨head, ∅, fun _ _ h => by cases h⟩), none⟩

/-- A service is added while the client runs, and then the settings are changed: the client is
restarted. -/
def twoEdits : List (ProcessEvent (id : String → String) Unit Nat Unit) :=
  [.next true, .edit (clientFile 1 ["ssh"]), .next true, .forwarded, .update,
    .edit (clientFile 2 ["ssh"]), .next true, .exit true, .ending]

theorem file_followed_edits :
    ∃ s, ((process (clientFile 1 [])).restrict Process.Answered).Reach s ∧
      s.instances.map Instance.ended = [none, some true] ∧ s.Sound := by
  have hrun : (Lts.runWith Process.step (fun s e => decide (s.Answered e))
      (.new (clientFile 1 [])) twoEdits).any
      (fun s => decide (s.instances.map Instance.ended = [none, some true])) = true := by
    decide +kernel
  obtain ⟨s, hr, hend⟩ := Lts.Reach.exists_runWith (T := process (clientFile 1 []))
    (C := Process.Answered) (fun _ _ _ h => h) (fun _ _ h => of_decide_eq_true h) rfl hrun
  exact ⟨s, hr, of_decide_eq_true hend, file_followed hr⟩

end Molehill.Reload
