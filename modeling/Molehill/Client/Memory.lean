/-
# What a session remembers

A service that the client added, did not delete, and that the server did not refuse is the
session's to keep: it stays in the `services` map, and every reconnect's sweep registers it
again.  What the client wants is kept beside the session (`Watched`): a request counts from
when the session takes it, and a refusal is terminal.

All operations on the map keep a wanted service except one.  `activate` takes the entry out,
awaits the resolver and the tunnel pool with `?`, and puts it back at the end: when one of the
two fails, `run` returns with the entry gone, and the sweep of the next connection does not see
the service (`forgets_wanted`).  Without a failed activation of the service, it is remembered
in every run (`service_remembered`).
-/
import Mathlib.Data.Finset.Erase
import Mathlib.Data.Finset.Insert
import Molehill.Client.Session

namespace Molehill.Client

open Lib

/-! ## 1. What the client wants -/

/-- The services wanted once the session has taken one request. -/
def wantedBy (w : Finset ServiceId) : SessionRequest → Finset ServiceId
  | .register slot => insert slot.id w
  | .deregister id => w.erase id
  | .drainLane _ _ _ => w

/-- The services wanted after a step of the session. -/
def wantedAfter (s : ClientSession) (w : Finset ServiceId) : Event → Finset ServiceId
  | .connect => s.queue.foldl wantedBy w
  | .take _ =>
    match s.queue with
    | [] => w
    | r :: _ => wantedBy w r
  | .answer .rejected =>
    match s.phase with
    | .verdict id _ => w.erase id
    | _ => w
  | _ => w

/-- A session, and what the client wants of it. -/
structure Watched where
  session : ClientSession
  wanted : Finset ServiceId

/-- The session's step, and what the client wants after it. -/
def Watched.step (x : Watched) (e : Event) : Option Watched :=
  (sessionStep x.session e).map fun s => ⟨s, wantedAfter x.session x.wanted e⟩

/-- The runs of a session. -/
def sessions : Lts Watched Event where
  init x := x = ⟨.new, ∅⟩
  step x e x' := x.step e = some x'

/-- The session is activating the service: its entry is in `activate`'s hands. -/
def ClientSession.Activating (s : ClientSession) (id : ServiceId) : Prop :=
  ∃ slot todo, s.phase = .activating id slot todo

/-- The service is in the map, and not as a refused one. -/
def ClientSession.InMap (s : ClientSession) (id : ServiceId) : Prop :=
  ∃ entry, s.services.lookup id = some entry ∧ entry.isRejected = false

/-- A wanted service is in the map, except while `activate` holds its entry. -/
def Watched.Remembers (x : Watched) (id : ServiceId) : Prop :=
  id ∈ x.wanted → ¬ x.session.Activating id → x.session.InMap id

/-- A connection that comes up now registers every service wanted by then. -/
def Watched.Reregisters (x : Watched) (id : ServiceId) : Prop :=
  ∀ x', sessions.step x .connect x' → id ∈ x'.wanted →
    ∃ todo, x'.session.phase = .sweep todo ∧ id ∈ todo

/-! ## 2. The map under each operation -/

/-- What is wanted stays what it was, unless the session takes a request or a service is
refused. -/
theorem wantedAfter_of_not_decides {s : ClientSession} {w : Finset ServiceId} {e : Event}
    (h : e.decides = false) : wantedAfter s w e = w := by
  cases e with
  | answer ack =>
    cases ack with
    | rejected => cases h
    | ok => rfl
    | unexpected => rfl
  | connect => cases h
  | take sent => cases h
  | _ => rfl

namespace ClientSession

/-- The map as the sweep and the select loop leave it: being there and not refused is a
property of the looked-up entry alone. -/
theorem InMap.of_lookup_eq {s s' : ClientSession} {id : ServiceId} (h : s.InMap id)
    (heq : s'.services.lookup id = s.services.lookup id) : s'.InMap id := by
  obtain ⟨entry, hl, hr⟩ := h
  exact ⟨entry, heq.trans hl, hr⟩

/-- An entry that is put in, and is not a refused one, keeps every service in the map. -/
theorem InMap.of_insert {s s' : ClientSession} {id j : ServiceId} {entry : ServiceEntry}
    (h : id ≠ j → s.InMap id) (hr : entry.isRejected = false)
    (heq : s'.services = s.services.insert j entry) : s'.InMap id := by
  by_cases hj : id = j
  · subst hj
    exact ⟨entry, by rw [heq, AList.lookup_insert], hr⟩
  · exact (h hj).of_lookup_eq (by rw [heq, AList.lookup_insert_ne hj])

/-- Taking an entry out keeps every other service in the map. -/
theorem InMap.of_erase {s s' : ClientSession} {id j : ServiceId} (h : s.InMap id) (hj : id ≠ j)
    (heq : s'.services = s.services.erase j) : s'.InMap id :=
  h.of_lookup_eq (by rw [heq, AList.lookup_erase_ne hj])

/-- One request keeps the map in step with what is wanted. -/
theorem inMap_applyRequest {s s' : ClientSession} {w : Finset ServiceId} {id : ServiceId}
    {r : SessionRequest} (h : id ∈ w → s.InMap id) (hw : id ∈ wantedBy w r)
    (heq : s'.services = applyRequest s.services r) : s'.InMap id := by
  cases r with
  | register slot =>
    refine InMap.of_insert (fun hne => ?_) rfl heq
    exact h (Finset.mem_of_mem_insert_of_ne hw hne)
  | deregister j =>
    obtain ⟨hne, hmem⟩ := Finset.mem_erase.mp hw
    exact (h hmem).of_erase hne heq
  | drainLane j lane cancel => exact (h hw).of_lookup_eq (by rw [heq]; rfl)

/-- All the queued requests do. -/
theorem inMap_applyRequests {w : Finset ServiceId} {id : ServiceId}
    (queue : List SessionRequest) (s s' : ClientSession) (h : id ∈ w → s.InMap id)
    (hw : id ∈ queue.foldl wantedBy w) (heq : s'.services = queue.foldl applyRequest s.services) :
    s'.InMap id := by
  induction queue generalizing s w with
  | nil => exact (h hw).of_lookup_eq (by rw [heq]; rfl)
  | cons r rest ih =>
    -- the session with the first request applied stands between the two
    exact ih { s with services := applyRequest s.services r }
      (fun hmem => inMap_applyRequest h hmem rfl) hw heq

theorem lookup_connected (s : ClientSession) (id : ServiceId) :
    s.connected.services.lookup id
      = (s.applyPendingRequests.services.lookup id).map ServiceEntry.reset :=
  Table.lookup_mapVals _ _ _

/-- The reset of a service that is not refused: it is registering. -/
theorem reset_isRegistering {e : ServiceEntry} (h : e.isRejected = false) :
    e.reset.isRegistering = true ∧ e.reset.isRejected = false := by
  rw [ServiceEntry.reset, if_neg (by rw [h]; exact Bool.false_ne_true)]
  exact ⟨rfl, rfl⟩

/-- A connection keeps what the requests left in the map. -/
theorem InMap.connected {s : ClientSession} {id : ServiceId}
    (h : s.applyPendingRequests.InMap id) : s.connected.InMap id := by
  obtain ⟨entry, hl, hr⟩ := h
  exact ⟨entry.reset, by rw [lookup_connected, hl]; rfl, (reset_isRegistering hr).2⟩

/-- The sweep has every service that is in the map and not refused. -/
theorem InMap.mem_sweep {s : ClientSession} {id : ServiceId}
    (h : s.applyPendingRequests.InMap id) :
    ∃ todo, s.connected.phase = .sweep todo ∧ id ∈ todo := by
  obtain ⟨entry, hl, hr⟩ := h
  refine ⟨_, rfl, (List.mem_insertionSort (· ≤ ·)).mpr (Table.mem_keysWhere.mpr ?_)⟩
  exact ⟨entry.reset, (lookup_connected s id).trans (by rw [hl]; rfl), (reset_isRegistering hr).1⟩

end ClientSession

/-! ## 3. The invariant -/

/-- A wanted service is in the map, or its entry is in the hands of `activate`. -/
def Watched.Keeps (x : Watched) (id : ServiceId) : Prop :=
  id ∈ x.wanted → x.session.InMap id ∨ x.session.Activating id

/-- The step does not fail an activation of the service. -/
def ActivatesWell (id : ServiceId) (x : Watched) (e : Event) : Prop :=
  ∀ addr, e = .activationFailed addr → ¬ x.session.Activating id

theorem ClientSession.not_activating {s : ClientSession} {id : ServiceId}
    (h : s.phase.isActivating = false) : ¬ s.Activating id := by
  rintro ⟨slot, todo, hp⟩
  rw [hp] at h
  cases h

/-- **The step lemma.**  A step that does not fail an activation of the service keeps it. -/
theorem Watched.Keeps.turn {x : Watched} {id : ServiceId} {e : Event} {s' : ClientSession}
    (hk : x.Keeps id) (hc : ActivatesWell id x e) (ht : Turn x.session e s') :
    (⟨s', wantedAfter x.session x.wanted e⟩ : Watched).Keeps id := by
  -- outside `activate` a wanted service is in the map
  have hmap : x.session.phase.isActivating = false → id ∈ x.wanted → x.session.InMap id :=
    fun hp hw => (hk hw).resolve_right (ClientSession.not_activating hp)
  intro hw
  cases ht with
  | asked r =>
    obtain hm | ⟨slot, todo, hp⟩ := hk hw
    · exact .inl (hm.of_lookup_eq rfl)
    · exact .inr ⟨slot, todo, hp⟩
  | connected h =>
    refine .inl (ClientSession.InMap.connected ?_)
    exact ClientSession.inMap_applyRequests x.session.queue x.session _
      (hmap (by rw [h]; rfl)) hw rfl
  | moved p drops he h hp =>
    rw [wantedAfter_of_not_decides he] at hw
    exact .inl ((hmap h hw).of_lookup_eq rfl)
  | reRegistered p drops h hp hl =>
    exact .inl (.of_insert (fun _ => hmap h hw) rfl rfl)
  | took p h hp hq =>
    simp only [wantedAfter, hq] at hw
    exact .inl (ClientSession.inMap_applyRequest (hmap h) hw rfl)
  | @activating j todo entry h hl =>
    have hm := hmap (by rw [h]; rfl) hw
    by_cases hj : id = j
    · exact .inr ⟨entry.slot, todo, by rw [hj]⟩
    · exact .inl (hm.of_erase hj rfl)
  | @rejected j todo h =>
    simp only [wantedAfter, h] at hw
    obtain ⟨hj, hw⟩ := Finset.mem_erase.mp hw
    have hm := hmap (by rw [h]; rfl) hw
    left
    unfold ClientSession.reject
    split
    case h_1 => exact hm.of_lookup_eq rfl
    case h_2 => exact hm.of_lookup_eq (AList.lookup_insert_ne hj)
  | opened hl he =>
    obtain hm | ⟨slot, todo, hp⟩ := hk hw
    · exact .inl (hm.of_lookup_eq rfl)
    · exact .inr ⟨slot, todo, hp⟩
  | @activated j slot todo addr h =>
    refine .inl (.of_insert (fun hj => ?_) rfl rfl)
    refine (hk hw).resolve_right ?_
    rintro ⟨slot', todo', hp⟩
    cases h.symm.trans hp
    exact hj rfl
  | activationFailed addr h =>
    exact .inl (((hk hw).resolve_right (hc addr rfl)).of_lookup_eq rfl)
  | laneDialed h =>
    obtain hm | ⟨slot, todo, hp⟩ := hk hw
    · exact .inl (hm.of_lookup_eq rfl)
    · exact .inr ⟨slot, todo, hp⟩

/-- A step of the watched session is a turn of the session. -/
theorem Watched.turn_of_step {x x' : Watched} {e : Event} (h : sessions.step x e x') :
    Turn x.session e x'.session ∧ x'.wanted = wantedAfter x.session x.wanted e := by
  obtain ⟨s', hs, rfl⟩ := Option.map_eq_some_iff.mp h
  exact ⟨Turn.of_step hs, rfl⟩

/-- **The run lemma.**  In every run without a failed activation of the service it is kept. -/
theorem Watched.Keeps.of_reach {id : ServiceId} {x : Watched}
    (h : (sessions.restrict (ActivatesWell id)).Reach x) : x.Keeps id := by
  refine h.invariant (P := fun x => x.Keeps id) ?_ ?_
  · rintro x rfl hw
    exact absurd hw (Finset.notMem_empty id)
  · rintro x e ⟨s', w'⟩ hk ⟨hc, hs⟩
    obtain ⟨ht, rfl⟩ := Watched.turn_of_step hs
    exact hk.turn hc ht

/-- Only a session that is down can connect. -/
theorem Turn.phase_of_connect {s s' : ClientSession} (h : sessionStep s .connect = some s') :
    s.phase = .down ∧ s' = s.connected := by
  unfold sessionStep at h
  split at h <;> simp_all

/-- What is kept outside an activation is remembered, and the next sweep registers it. -/
theorem Watched.Keeps.remembered {x : Watched} {id : ServiceId} (hk : x.Keeps id) :
    x.Remembers id ∧ x.Reregisters id := by
  refine ⟨fun hw ha => (hk hw).resolve_right ha, ?_⟩
  intro x' hs hw
  obtain ⟨s', hstep, rfl⟩ := Option.map_eq_some_iff.mp hs
  obtain ⟨hdown, rfl⟩ := Turn.phase_of_connect hstep
  refine ClientSession.InMap.mem_sweep ?_
  refine ClientSession.inMap_applyRequests x.session.queue x.session _ (fun hmem => ?_) hw rfl
  exact (hk hmem).resolve_right (ClientSession.not_activating (by rw [hdown]; rfl))

/-! ## 4. Every run -/

/-- **A service is never forgotten, unless an activation of it fails.**  In every state of a run
in which no activation of the service fails, the service is in the map if it was added, not
deleted and not refused (its entry may be in the hands of an activation that is under way), and a
connection that comes up then registers it again. -/
theorem service_remembered (id : ServiceId) {x : Watched}
    (h : (sessions.restrict (ActivatesWell id)).Reach x) : x.Remembers id ∧ x.Reregisters id :=
  (Watched.Keeps.of_reach h).remembered

/-- While the session is activating a service, the map does not have it. -/
theorem Turn.not_in_map {s s' : ClientSession} {e : Event} (ht : Turn s e s')
    (h : ∀ id, s.Activating id → s.services.lookup id = none) :
    ∀ id, s'.Activating id → s'.services.lookup id = none := by
  rintro id ⟨slot, todo, hp⟩
  cases ht with
  | asked r => exact h id ⟨slot, todo, hp⟩
  | connected _ => cases hp
  | moved p drops he _ hpa => exact absurd ⟨slot, todo, hp⟩ (ClientSession.not_activating hpa)
  | reRegistered p drops _ hpa hl =>
    exact absurd ⟨slot, todo, hp⟩ (ClientSession.not_activating hpa)
  | took p _ hpa hq => exact absurd ⟨slot, todo, hp⟩ (ClientSession.not_activating hpa)
  | activating _ hl =>
    cases hp
    exact AList.lookup_erase _ _
  | rejected _ =>
    unfold ClientSession.reject at hp
    split at hp <;> cases hp
  | opened hl he => exact h id ⟨slot, todo, hp⟩
  | activated _ => cases hp
  | activationFailed addr _ => cases hp
  | laneDialed _ => exact h id ⟨slot, todo, hp⟩

theorem lookup_none_of_activating {x : Watched} (h : sessions.Reach x) :
    ∀ id, x.session.Activating id → x.session.services.lookup id = none := by
  refine h.invariant (P := fun x => ∀ id, x.session.Activating id →
    x.session.services.lookup id = none) ?_ ?_
  · rintro x rfl id ⟨slot, todo, hp⟩
    cases hp
  · intro x e x' hi hs
    exact (Watched.turn_of_step hs).1.not_in_map hi

/-- The condition is exact: a failed activation of a wanted service always forgets it. -/
theorem forgets_wanted {x x' : Watched} {id : ServiceId} {addr : Option String}
    (h : sessions.Reach x) (hw : id ∈ x.wanted) (ha : x.session.Activating id)
    (hs : sessions.step x (.activationFailed addr) x') :
    id ∈ x'.wanted ∧ ¬ x'.session.InMap id := by
  obtain ⟨s', w'⟩ := x'
  obtain ⟨ht, rfl⟩ := Watched.turn_of_step hs
  refine ⟨hw, ?_⟩
  have hnone := lookup_none_of_activating h id ha
  rintro ⟨entry, hl, -⟩
  cases ht with
  | moved p drops he hna hpa => exact ClientSession.not_activating hna ha
  | activationFailed _ _ => cases hnone.symm.trans hl

/-! ## 5. One service, with and without a failed activation -/

/-- A TCP service that multiplexes, on a plain data plane. -/
def webSlot : ServiceSlot where
  id := 0
  service :=
    { serviceType := .tcp, name := "web", remoteBindAddr := "0.0.0.0:6022", token := none,
      remoteAddr := none, noise := none, transparentLanes := 0 }
  token := "secret"
  transport := .plain
  data := { enabled := true, addr := "example.com:2333", noise := none }
  channels := 0

/-- The service is added before the first connection, registered, and activated. -/
def activatedRun : List Event :=
  [.ask (.register webSlot), .connect, .next true, .answer .ok, .activated "192.0.2.1:2333"]

/-- The same, but the data endpoint does not resolve. -/
def failedRun : List Event :=
  [.ask (.register webSlot), .connect, .next true, .answer .ok, .activationFailed none]

/-- The check of a step of `activatedRun`: it fails no activation. -/
def failsNone : Event → Bool
  | .activationFailed _ => false
  | _ => true

theorem activatesWell_of_failsNone {id : ServiceId} (x : Watched) (e : Event)
    (h : failsNone e = true) : ActivatesWell id x e := by
  rintro addr rfl
  cases h

theorem service_remembered_activated :
    ∃ x : Watched, (sessions.restrict (ActivatesWell 0)).Reach x ∧ 0 ∈ x.wanted ∧
      x.session.phase = .draining [] ∧ x.Remembers 0 ∧ x.Reregisters 0 := by
  have hrun : (Lts.runWith Watched.step (fun _ e => failsNone e) ⟨.new, ∅⟩ activatedRun).any
      (fun x => decide (0 ∈ x.wanted ∧ x.session.phase = .draining [])) = true := by
    decide +kernel
  obtain ⟨x, hx, hend⟩ := (Option.any_eq_true ..).mp hrun
  have hreach : (sessions.restrict (ActivatesWell 0)).Reach x :=
    Lts.Reach.runWith (fun _ _ _ hs => hs) activatesWell_of_failsNone (Lts.Reach.init rfl) hx
  obtain ⟨hw, hp⟩ := of_decide_eq_true hend
  exact ⟨x, hreach, hw, hp, service_remembered 0 hreach⟩

/-- **A failed activation loses the service for good.**  The service is wanted, it is not in the
map, and the connection that comes up next registers nothing. -/
theorem service_forgotten :
    ∃ x : Watched, sessions.Reach x ∧ ¬ x.Remembers 0 ∧ ¬ x.Reregisters 0 := by
  have hrun : (Lts.runWith Watched.step (fun _ _ => true) ⟨.new, ∅⟩ failedRun).any
      (fun x => decide (0 ∈ x.wanted ∧ x.session.phase = .down ∧
        x.session.services.lookup 0 = none ∧
        x.session.connected.phase = .sweep [] ∧ 0 ∈ wantedAfter x.session x.wanted .connect))
      = true := by decide +kernel
  obtain ⟨x, hx, hend⟩ := (Option.any_eq_true ..).mp hrun
  have hreach : (sessions.restrict fun _ _ => True).Reach x :=
    Lts.Reach.runWith (fun _ _ _ hs => hs) (fun _ _ _ => trivial) (Lts.Reach.init rfl) hx
  obtain ⟨hw, hdown, hnone, hsweep, hw'⟩ := of_decide_eq_true hend
  refine ⟨x, hreach.of_restrict, ?_, ?_⟩
  · intro hr
    obtain ⟨entry, hl, -⟩ := hr hw (ClientSession.not_activating (by rw [hdown]; rfl))
    cases hnone.symm.trans hl
  · intro hr
    have hstep : sessions.step x .connect
        ⟨x.session.connected, wantedAfter x.session x.wanted .connect⟩ := by
      simp [sessions, Watched.step, sessionStep, hdown]
    obtain ⟨todo, hp, hmem⟩ := hr _ hstep hw'
    cases hsweep.symm.trans hp
    cases hmem

end Molehill.Client
