/-
# Where hot reload places the services

`add_service`, `reap_idle_sessions`, `session_index` and `handle_hot_reload` (`core/client.rs`)
keep four things in step: the list of sessions, the ids handed out on each, the requests queued to
each, and the table that says where every service was placed.  `addServiceM` is `add_service`
statement by statement, with its errors; it does what `ClientState.addService` says, and nothing
at all where it fails (`addServiceM_run`).

What the four have to do with one another is `WellPlaced`: the sessions have distinct keys and a
service each, no two services share an id on a session, every service is on the session its own
configuration names, and the requests queued to a session, replayed in order, leave exactly the
services that are placed on it.

A session's ids come from a counter of 32 bits that is never reset while the session lives, so a
session that has seen 2^32 services hands out an id that may still be in use.  Where no service is
given an id that another one has, every reload keeps `WellPlaced` (`reload_wellPlaced`); that is so
while no session has drawn 2^32 ids (`reach_of_unspent`), and after 2^32 services a run exists in
which two services share an id (`id_reused`).
-/
import Molehill.Client.Credentials

namespace Molehill.Client

open Lib

/-! ## 1. `add_service`, statement by statement -/

/-- The client with another table of services. -/
def ClientState.withServices (c : ClientState) (t : Table String ServiceLocation) : ClientState :=
  { c with services := t }

/-- Why `add_service` returns an error. -/
inductive AddError
  /-- One of the two wire stacks could not be built. -/
  | transport
  /-- A claim's address or device is not ready. -/
  | transparent
  deriving DecidableEq

/-- What reads and changes the client, and may fail half-way. -/
abbrev ClientM := ExceptT AddError (StateM ClientState)

/-- `ClientTransport::from_config(..)?`. -/
def buildTransport (host : Host) (t : TransportConfig) : ClientM ClientTransport :=
  match ClientTransport.fromConfig host.decodes t with
  | some transport => pure transport
  | none => throw .transport

/-- The id of the service on the session of the key: its own where it is already there, else the
next one. -/
def takeId (previous : Option ServiceLocation) (key : SessionKey) : ClientM ServiceId :=
  match previous.filter (·.session = key) with
  | some loc => pure loc.id
  | none => do
    let id := (← get).nextId key
    modify (·.onSession key SessionEntry.bump)
    pure id

/-- `add_service`. -/
def addServiceM (host : Host) (cfg : ClientServiceConfig) : ClientM Unit := do
  let config := (← get).config
  let key := sessionKey config cfg
  let _control ← buildTransport host (ClientTransport.controlConfig config cfg)
  let transport ← buildTransport host (ClientTransport.dataConfig config cfg)
  if cfg.serviceType = .transparent && !host.ready cfg then
    throw .transparent
  let previous := (← get).services.lookup cfg.name
  modify fun c => c.withServices (c.services.erase cfg.name)
  modify (·.leaveSession previous key)
  modify (·.sessionIndex key)
  let id ← takeId previous key
  let slot : ServiceSlot :=
    { id := id
      service := cfg
      token := cfg.token.getD config.defaultToken
      transport := transport
      data := DataOpts.forService config cfg
      channels := channelsOf cfg }
  modify (·.onSession key (·.send (.register slot)))
  modify fun c => c.withServices (c.services.insert cfg.name { session := key, id := id })
  modify (·.reapIdleSessions)

/-! ## 2. All of it or nothing -/

section Exec

variable {α β : Type} {c c' : ClientState}

/-- Run on a client: the outcome, and the client after it. -/
def exec (m : ClientM α) (c : ClientState) : Except AddError α × ClientState := m.run.run c

theorem exec_bind_ok {m : ClientM α} {f : α → ClientM β} {a : α} (h : exec m c = (.ok a, c')) :
    exec (m >>= f) c = exec (f a) c' := by
  unfold exec at h ⊢
  rw [ExceptT.run_bind, StateT.run_bind, h]
  rfl

theorem exec_bind_error {m : ClientM α} {f : α → ClientM β} {e : AddError}
    (h : exec m c = (.error e, c')) : exec (m >>= f) c = (.error e, c') := by
  unfold exec at h ⊢
  rw [ExceptT.run_bind, StateT.run_bind, h]
  rfl

theorem exec_get : exec get c = (.ok c, c) := rfl

theorem exec_modify (f : ClientState → ClientState) : exec (modify f) c = (.ok ⟨⟩, f c) := rfl

theorem exec_buildTransport (host : Host) (t : TransportConfig) (c : ClientState) :
    exec (buildTransport host t) c =
      match ClientTransport.fromConfig host.decodes t with
      | some transport => (.ok transport, c)
      | none => (.error .transport, c) := by
  unfold buildTransport
  cases ClientTransport.fromConfig host.decodes t <;> rfl

theorem exec_takeId (previous : Option ServiceLocation) (key : SessionKey) (c : ClientState) :
    exec (takeId previous key) c =
      (.ok (((previous.filter (·.session = key)).map ServiceLocation.id).getD (c.nextId key)),
        if (previous.filter (·.session = key)).isSome then c
        else c.onSession key SessionEntry.bump) := by
  unfold takeId
  cases previous.filter (·.session = key) <;> rfl

/-! Which services there are is no business of the sessions. -/

theorem withServices_services (t : Table String ServiceLocation) :
    (c.withServices t).services = t := rfl

theorem withServices_withServices (t t' : Table String ServiceLocation) :
    (c.withServices t).withServices t' = c.withServices t' := rfl

theorem withServices_onSession (t : Table String ServiceLocation) (key : SessionKey)
    (f : SessionEntry → SessionEntry) :
    (c.withServices t).onSession key f = (c.onSession key f).withServices t := rfl

theorem withServices_nextId (t : Table String ServiceLocation) (key : SessionKey) :
    (c.withServices t).nextId key = c.nextId key := rfl

theorem withServices_leaveSession (t : Table String ServiceLocation)
    (previous : Option ServiceLocation) (key : SessionKey) :
    (c.withServices t).leaveSession previous key = (c.leaveSession previous key).withServices t := by
  unfold ClientState.leaveSession
  split
  · rfl
  · split <;> rfl

theorem withServices_sessionIndex (t : Table String ServiceLocation) (key : SessionKey) :
    (c.withServices t).sessionIndex key = (c.sessionIndex key).withServices t := by
  unfold ClientState.sessionIndex
  by_cases h : c.sessions.any (·.key = key) = true
  · rw [if_pos h]
    exact if_pos h
  · rw [if_neg h]
    exact if_neg h

/-- **A failing `add_service`** leaves the client as it was. -/
theorem addServiceM_error {host : Host} {cfg : ClientServiceConfig}
    (h : c.addService host cfg = none) : ∃ e, exec (addServiceM host cfg) c = (.error e, c) := by
  unfold addServiceM
  rw [exec_bind_ok exec_get]
  have hcontrol := exec_buildTransport host (ClientTransport.controlConfig c.config cfg) c
  have hdata := exec_buildTransport host (ClientTransport.dataConfig c.config cfg) c
  cases hc : ClientTransport.fromConfig host.decodes (ClientTransport.controlConfig c.config cfg) with
  | none =>
    rw [hc] at hcontrol
    exact ⟨_, exec_bind_error hcontrol⟩
  | some control =>
    rw [hc] at hcontrol
    rw [exec_bind_ok hcontrol]
    cases hd : ClientTransport.fromConfig host.decodes (ClientTransport.dataConfig c.config cfg) with
    | none =>
      rw [hd] at hdata
      exact ⟨_, exec_bind_error hdata⟩
    | some transport =>
      rw [hd] at hdata
      rw [exec_bind_ok hdata]
      by_cases hr : (cfg.serviceType = .transparent && !host.ready cfg) = true
      · rw [if_pos hr]
        exact ⟨.transparent, rfl⟩
      · simp [ClientState.addService, hr, slotFor, hc, hd] at h

/-- **A succeeding `add_service`** does what `addService` says. -/
theorem addServiceM_ok {host : Host} {cfg : ClientServiceConfig}
    (h : c.addService host cfg = some c') : exec (addServiceM host cfg) c = (.ok ⟨⟩, c') := by
  unfold ClientState.addService at h
  split at h
  case isTrue => cases h
  case isFalse hr =>
    obtain ⟨slot, hslot, hplaced⟩ := Option.map_eq_some_iff.mp h
    unfold slotFor at hslot
    obtain ⟨control, hc, hslot⟩ := Option.bind_eq_some_iff.mp hslot
    obtain ⟨transport, hd, hslot⟩ := Option.bind_eq_some_iff.mp hslot
    have hcontrol := exec_buildTransport host (ClientTransport.controlConfig c.config cfg) c
    have hdata := exec_buildTransport host (ClientTransport.dataConfig c.config cfg) c
    rw [hc] at hcontrol
    rw [hd] at hdata
    unfold addServiceM
    rw [exec_bind_ok exec_get, exec_bind_ok hcontrol, exec_bind_ok hdata, if_neg hr]
    change exec (get >>= _) c = _
    rw [exec_bind_ok exec_get, exec_bind_ok (exec_modify _), exec_bind_ok (exec_modify _),
      exec_bind_ok (exec_modify _), exec_bind_ok (exec_takeId _ _ _), exec_bind_ok (exec_modify _),
      exec_bind_ok (exec_modify _), exec_modify, ← hplaced, ← Option.some.inj hslot]
    simp only [withServices_leaveSession, withServices_sessionIndex, withServices_nextId]
    split
    · simp only [withServices_onSession, withServices_services, withServices_withServices,
        Table.insert_erase_self]
      rfl
    · simp only [withServices_onSession, withServices_services, withServices_withServices,
        Table.insert_erase_self]
      rfl

end Exec

/-! ## 3. Reloads, and what they have to keep -/

/-- The client and, beside it, the configuration every placed service was last added with. -/
structure Placement where
  client : ClientState
  added : Table String ClientServiceConfig

/-- `handle_hot_reload`, and a service of the initial configuration. -/
def Placement.reload (host : Host) (x : Placement) : Change → Placement
  | .add cfg =>
    match exec (addServiceM host cfg) x.client with
    | (.ok _, c) => { client := c, added := x.added.insert cfg.name cfg }
    | (.error _, c) => { x with client := c }
  | .delete name => { client := x.client.deleteService name, added := x.added.erase name }

/-- Every sequence of added and deleted services. -/
def reloads (host : Host) (config : ClientConfig) : Lts Placement Change where
  init x := x = { client := { config := config, sessions := [], services := ∅ }, added := ∅ }
  step x change x' := x' = x.reload host change

namespace ClientState

/-- The keys of the sessions. -/
def keys (c : ClientState) : List SessionKey := c.sessions.map SessionEntry.key

/-- The session of the key. -/
def sessionAt (c : ClientState) (key : SessionKey) : Option SessionEntry :=
  c.sessions.find? (·.key = key)

/-- The requests queued to the session of the key. -/
def requestsOf (c : ClientState) (key : SessionKey) : List SessionRequest :=
  ((c.sessionAt key).map SessionEntry.requests).getD []

/-- Some service is placed on the session of the key. -/
def Live (c : ClientState) (key : SessionKey) : Prop :=
  ∃ name loc, c.services.lookup name = some loc ∧ loc.session = key

end ClientState

/-- What the requests, taken in order, leave a session with. -/
def replay (requests : List SessionRequest) : Table ServiceId ServiceEntry :=
  requests.foldl ClientSession.applyRequest ∅

/-- A service is placed under this id on the session of this key, and `entry` is what its own
configuration makes of it there. -/
def Placement.Holds (host : Host) (x : Placement) (key : SessionKey) (id : ServiceId)
    (entry : ServiceEntry) : Prop :=
  ∃ name cfg, x.client.services.lookup name = some { session := key, id := id } ∧
    x.added.lookup name = some cfg ∧
    slotFor host.decodes x.client.config cfg id = some entry.slot ∧ entry.state = .registering

/-- What has to hold also while a session without services is still in the list. -/
structure Consistent (host : Host) (x : Placement) : Prop where
  /-- The sessions have distinct keys. -/
  keys : x.client.keys.Nodup
  /-- No two services have one id on one session. -/
  ids : ∀ name name' loc, x.client.services.lookup name = some loc →
    x.client.services.lookup name' = some loc → name = name'
  /-- Every placed service is on a session. -/
  hosted : ∀ name loc, x.client.services.lookup name = some loc → loc.session ∈ x.client.keys
  /-- It is the one its configuration names, and only what was added is placed. -/
  placed : ∀ name, (x.client.services.lookup name).map ServiceLocation.session =
    (x.added.lookup name).map (sessionKey x.client.config)
  /-- The requests of a session leave the services placed on it. -/
  replayed : ∀ key id entry,
    (replay (x.client.requestsOf key)).lookup id = some entry ↔ x.Holds host key id entry

/-- **What the sessions and the placements have to do with one another.** -/
structure WellPlaced (host : Host) (x : Placement) : Prop extends Consistent host x where
  /-- Every session has a service. -/
  live : ∀ key ∈ x.client.keys, x.client.Live key

/-! ## 4. The operations on the session list -/

namespace ClientState

variable {c : ClientState} {key k : SessionKey}

theorem sessionAt_isSome : (c.sessionAt k).isSome = true ↔ k ∈ c.keys := by
  simp [sessionAt, keys, List.find?_isSome]

theorem sessionAt_key {e : SessionEntry} (h : c.sessionAt k = some e) : e.key = k := by
  simpa using List.find?_some h

theorem requestsOf_of_not_mem (h : k ∉ c.keys) : c.requestsOf k = [] := by
  have hnone : c.sessionAt k = none := by
    rw [← Option.not_isSome_iff_eq_none, sessionAt_isSome]
    exact h
  rw [requestsOf, hnone]
  rfl

/-- A change of one session that keeps its key. -/
theorem sessionAt_onSession {f : SessionEntry → SessionEntry} (hf : ∀ e, (f e).key = e.key) :
    (c.onSession key f).sessionAt k = if k = key then (c.sessionAt k).map f else c.sessionAt k := by
  have hkey : ∀ e : SessionEntry, (if e.key = key then f e else e).key = e.key := by
    intro e
    split
    · exact hf e
    · rfl
  rw [sessionAt, onSession, List.find?_map]
  have hcomp : ((fun e => decide (e.key = k)) ∘ fun e => if e.key = key then f e else e) =
      fun e : SessionEntry => decide (e.key = k) := by
    funext e
    rw [Function.comp_apply, hkey]
  rw [hcomp]
  cases hat : c.sessions.find? fun e => decide (e.key = k) with
  | none => simp [sessionAt, hat]
  | some e =>
    have hk : e.key = k := sessionAt_key hat
    simp only [Option.map_some, hk, sessionAt, hat]
    split <;> rfl

theorem keys_onSession {f : SessionEntry → SessionEntry} (hf : ∀ e, (f e).key = e.key) :
    (c.onSession key f).keys = c.keys := by
  rw [keys, keys, onSession, List.map_map]
  refine List.map_congr_left fun e _ => ?_
  rw [Function.comp_apply]
  split
  · exact hf e
  · rfl

theorem keys_send {r : SessionRequest} : (c.onSession key (·.send r)).keys = c.keys :=
  keys_onSession (f := (·.send r)) fun _ => rfl

theorem keys_bump : (c.onSession key SessionEntry.bump).keys = c.keys :=
  keys_onSession (f := SessionEntry.bump) fun _ => rfl

/-- Queueing a request to a session that exists. -/
theorem requestsOf_send {r : SessionRequest} (h : key ∈ c.keys) :
    (c.onSession key (·.send r)).requestsOf k =
      if k = key then c.requestsOf k ++ [r] else c.requestsOf k := by
  rw [requestsOf, sessionAt_onSession (f := (·.send r)) fun _ => rfl]
  split
  case isTrue hk =>
    obtain ⟨e, he⟩ := Option.isSome_iff_exists.mp (sessionAt_isSome.mpr (hk ▸ h))
    simp [requestsOf, he, SessionEntry.send]
  case isFalse => rfl

theorem requestsOf_bump : (c.onSession key SessionEntry.bump).requestsOf k = c.requestsOf k := by
  rw [requestsOf, sessionAt_onSession (f := SessionEntry.bump) fun _ => rfl, requestsOf]
  split
  · cases c.sessionAt k <;> rfl
  · rfl

/-- Starting a session leaves the requests of all sessions as they are. -/
theorem requestsOf_sessionIndex : (c.sessionIndex key).requestsOf k = c.requestsOf k := by
  unfold sessionIndex
  split
  case isTrue => rfl
  case isFalse h =>
    rw [requestsOf, requestsOf, sessionAt, sessionAt, List.find?_append]
    cases c.sessions.find? fun e => decide (e.key = k) with
    | some e => rfl
    | none =>
      rw [Option.none_or, List.find?_cons]
      split <;> rfl

theorem keys_sessionIndex :
    (c.sessionIndex key).keys = if key ∈ c.keys then c.keys else c.keys ++ [key] := by
  have hany : c.sessions.any (·.key = key) = true ↔ key ∈ c.keys := by
    simp [keys, List.any_eq_true]
  unfold sessionIndex
  by_cases h : key ∈ c.keys
  · rw [if_pos (hany.mpr h), if_pos h]
  · rw [if_neg (hany.not.mpr h), if_neg h]
    simp [keys]

theorem mem_keys_sessionIndex : key ∈ (c.sessionIndex key).keys := by
  rw [keys_sessionIndex]
  split
  · assumption
  · simp

theorem nodup_keys_sessionIndex (h : c.keys.Nodup) : (c.sessionIndex key).keys.Nodup := by
  rw [keys_sessionIndex]
  split
  case isTrue => exact h
  case isFalse hk => exact List.nodup_append.mpr ⟨h, by simp, by rintro a ha b hb rfl; simp_all⟩

theorem live_iff {t : Table String ServiceLocation} :
    (t.entries.any fun l => l.2.session = k) = true ↔
      ∃ name loc, t.lookup name = some loc ∧ loc.session = k := by
  rw [List.any_eq_true]
  constructor
  · rintro ⟨l, hl, hk⟩
    exact ⟨l.1, l.2, AList.mem_lookup_iff.mpr hl, of_decide_eq_true hk⟩
  · rintro ⟨name, loc, hl, hk⟩
    exact ⟨⟨name, loc⟩, AList.mem_lookup_iff.mp hl, decide_eq_true hk⟩

theorem keys_reapIdleSessions :
    c.reapIdleSessions.keys =
      c.keys.filter fun k => c.services.entries.any fun l => l.2.session = k := by
  rw [keys, keys, reapIdleSessions, List.filter_map]
  rfl

theorem mem_keys_reapIdleSessions : k ∈ c.reapIdleSessions.keys ↔ k ∈ c.keys ∧ c.Live k := by
  rw [keys_reapIdleSessions, List.mem_filter, live_iff]
  rfl

/-- A session that has a service is not stopped. -/
theorem sessionAt_reapIdleSessions (h : c.Live k) :
    c.reapIdleSessions.sessionAt k = c.sessionAt k := by
  rw [sessionAt, reapIdleSessions, List.find?_filter]
  refine congrArg (fun p => List.find? p c.sessions) (funext fun e => ?_)
  by_cases hk : e.key = k
  · rw [hk, live_iff.mpr h]
    simp
  · simp [hk]

theorem requestsOf_reapIdleSessions (h : c.Live k) :
    c.reapIdleSessions.requestsOf k = c.requestsOf k := by
  rw [requestsOf, sessionAt_reapIdleSessions h, requestsOf]

end ClientState

/-! ## 5. What one reload does -/

theorem replay_append (rs : List SessionRequest) (r : SessionRequest) :
    replay (rs ++ [r]) = ClientSession.applyRequest (replay rs) r :=
  List.foldl_append

namespace ClientState

variable {c c' : ClientState} {host : Host} {cfg : ClientServiceConfig}

/-- The id `add_service` gives the service: its own where it is already on the session, else the
session's next one. -/
def idFor (c : ClientState) (cfg : ClientServiceConfig) : ServiceId :=
  (((c.services.lookup cfg.name).filter (·.session = sessionKey c.config cfg)).map
    ServiceLocation.id).getD (c.nextId (sessionKey c.config cfg))

theorem nextId_eq (c : ClientState) (key : SessionKey) :
    c.nextId key = ((c.sessionAt key).map SessionEntry.nextId).getD 0 := rfl

/-- A session that is not there counts from zero, as a new one does. -/
theorem nextId_sessionIndex (key k : SessionKey) : (c.sessionIndex key).nextId k = c.nextId k := by
  unfold sessionIndex
  split
  case isTrue => rfl
  case isFalse =>
    rw [nextId_eq, nextId_eq, sessionAt, List.find?_append]
    change Option.getD (Option.map _ ((c.sessionAt k).or _)) 0 = _
    cases c.sessionAt k with
    | some e => rfl
    | none =>
      by_cases hk : key = k
      · simp [hk]
      · simp [hk]

theorem nextId_send (r : SessionRequest) (key k : SessionKey) :
    (c.onSession key (·.send r)).nextId k = c.nextId k := by
  rw [nextId_eq, nextId_eq, sessionAt_onSession (f := (·.send r)) fun _ => rfl]
  split
  · cases c.sessionAt k <;> rfl
  · rfl

theorem nextId_leaveSession (previous : Option ServiceLocation) (key k : SessionKey) :
    (c.leaveSession previous key).nextId k = c.nextId k := by
  unfold leaveSession
  split
  · rfl
  · split
    · rfl
    · exact nextId_send ..

theorem keys_leaveSession (previous : Option ServiceLocation) (key : SessionKey) :
    (c.leaveSession previous key).keys = c.keys := by
  unfold leaveSession
  split
  · rfl
  · split
    · rfl
    · exact keys_send

/-- A service that moves away is deregistered from the session it leaves. -/
theorem requestsOf_leaveSession {previous : Option ServiceLocation} {key : SessionKey}
    (h : ∀ loc, previous = some loc → loc.session ∈ c.keys) (k : SessionKey) :
    (c.leaveSession previous key).requestsOf k =
      previous.elim (c.requestsOf k) fun loc =>
        if loc.session ≠ key ∧ k = loc.session then c.requestsOf k ++ [.deregister loc.id]
        else c.requestsOf k := by
  cases previous with
  | none => rfl
  | some loc =>
    by_cases hk : loc.session = key
    · simp [leaveSession, hk]
    · simp only [leaveSession, Option.elim_some, hk, if_false, ne_eq, not_false_eq_true, true_and]
      exact requestsOf_send (h loc rfl)

/-- The client before it stops the idle sessions. -/
def placing (c : ClientState) (cfg : ClientServiceConfig) (slot : ServiceSlot) : ClientState :=
  let key := sessionKey c.config cfg
  let previous := c.services.lookup cfg.name
  let c1 := (c.leaveSession previous key).sessionIndex key
  let c2 := if (previous.filter (·.session = key)).isSome then c1
    else c1.onSession key SessionEntry.bump
  (c2.onSession key (·.send (.register slot))).withServices
    (c.services.insert cfg.name { session := key, id := c.idFor cfg })

theorem addService_eq : c.addService host cfg =
    if cfg.serviceType = .transparent && !host.ready cfg then none
    else (slotFor host.decodes c.config cfg (c.idFor cfg)).map fun slot =>
      (c.placing cfg slot).reapIdleSessions := by
  unfold addService placing idFor
  dsimp only
  rw [nextId_sessionIndex, nextId_leaveSession]
  rfl

theorem addService_eq_some (h : c.addService host cfg = some c') :
    ∃ slot, slotFor host.decodes c.config cfg (c.idFor cfg) = some slot ∧
      c' = (c.placing cfg slot).reapIdleSessions := by
  rw [addService_eq] at h
  split at h
  · cases h
  · obtain ⟨slot, hslot, rfl⟩ := Option.map_eq_some_iff.mp h
    exact ⟨slot, hslot, rfl⟩

theorem placing_lookup (slot : ServiceSlot) (n : String) :
    (c.placing cfg slot).services.lookup n =
      if n = cfg.name then some { session := sessionKey c.config cfg, id := c.idFor cfg }
      else c.services.lookup n :=
  Table.lookup_insert_eq _ _ _ _

theorem leaveSession_config (previous : Option ServiceLocation) (key : SessionKey) :
    (c.leaveSession previous key).config = c.config := by
  unfold leaveSession
  split
  · rfl
  · split <;> rfl

theorem sessionIndex_config (key : SessionKey) : (c.sessionIndex key).config = c.config := by
  unfold sessionIndex
  split <;> rfl

theorem placing_config (slot : ServiceSlot) : (c.placing cfg slot).config = c.config := by
  unfold placing
  dsimp only
  split
  · exact (sessionIndex_config _).trans (leaveSession_config _ _)
  · exact (sessionIndex_config _).trans (leaveSession_config _ _)

theorem placing_keys (slot : ServiceSlot) :
    (c.placing cfg slot).keys = (c.sessionIndex (sessionKey c.config cfg)).keys := by
  have hkeys : ((c.leaveSession (c.services.lookup cfg.name) (sessionKey c.config cfg)).sessionIndex
      (sessionKey c.config cfg)).keys = (c.sessionIndex (sessionKey c.config cfg)).keys := by
    rw [keys_sessionIndex, keys_sessionIndex, keys_leaveSession]
  unfold placing
  refine keys_send.trans ?_
  split
  · exact hkeys
  · exact keys_bump.trans hkeys

/-- The session the service goes to is asked to register it, and the one it leaves to deregister
it. -/
theorem placing_requestsOf {slot : ServiceSlot}
    (h : ∀ loc, c.services.lookup cfg.name = some loc → loc.session ∈ c.keys) (k : SessionKey) :
    (c.placing cfg slot).requestsOf k =
      if k = sessionKey c.config cfg then c.requestsOf k ++ [.register slot]
      else (c.services.lookup cfg.name).elim (c.requestsOf k) fun loc =>
        if k = loc.session then c.requestsOf k ++ [.deregister loc.id] else c.requestsOf k := by
  set key := sessionKey c.config cfg with hkey
  have hmem : key ∈ ((c.leaveSession (c.services.lookup cfg.name) key).sessionIndex key).keys :=
    mem_keys_sessionIndex
  have hleave : (c.leaveSession (c.services.lookup cfg.name) key).requestsOf k = _ :=
    requestsOf_leaveSession h k
  have hsend : (c.placing cfg slot).requestsOf k =
      if k = key then (c.leaveSession (c.services.lookup cfg.name) key).requestsOf k ++
        [.register slot]
      else (c.leaveSession (c.services.lookup cfg.name) key).requestsOf k := by
    unfold placing
    dsimp only
    split
    · refine (requestsOf_send hmem).trans ?_
      rw [requestsOf_sessionIndex]
    · refine (requestsOf_send ?_).trans ?_
      · rw [keys_bump]
        exact hmem
      · rw [requestsOf_bump, requestsOf_sessionIndex]
  rw [hsend, hleave]
  cases c.services.lookup cfg.name with
  | none => rfl
  | some loc =>
    simp only [Option.elim_some]
    by_cases hk : k = key
    · rw [if_pos hk, if_pos hk, if_neg]
      rintro ⟨hne, heq⟩
      exact hne (heq.symm.trans hk)
    · rw [if_neg hk, if_neg hk]
      by_cases hl : k = loc.session
      · rw [if_pos hl, if_pos ⟨fun h => hk (hl.trans h), hl⟩]
      · rw [if_neg hl, if_neg fun h => hl h.2]

/-- The client before it stops the idle sessions, for a deleted service. -/
def deleting (c : ClientState) (name : String) : ClientState :=
  (c.services.lookup name).elim c fun loc =>
    (c.onSession loc.session (·.send (.deregister loc.id))).withServices (c.services.erase name)

theorem deleteService_eq (name : String) :
    c.deleteService name = (c.deleting name).reapIdleSessions := by
  unfold deleteService deleting
  cases c.services.lookup name <;> rfl

theorem deleting_lookup (name n : String) : (c.deleting name).services.lookup n =
    if n = name then none else c.services.lookup n := by
  unfold deleting
  cases hl : c.services.lookup name with
  | none =>
    rw [Option.elim_none]
    split
    case isTrue hn => rw [hn, hl]
    case isFalse => rfl
  | some loc => exact Table.lookup_erase_eq _ _ _

theorem deleting_config (name : String) : (c.deleting name).config = c.config := by
  unfold deleting
  cases c.services.lookup name <;> rfl

theorem deleting_keys (name : String) : (c.deleting name).keys = c.keys := by
  unfold deleting
  cases c.services.lookup name with
  | none => rfl
  | some loc => exact keys_send

theorem deleting_requestsOf {name : String}
    (h : ∀ loc, c.services.lookup name = some loc → loc.session ∈ c.keys) (k : SessionKey) :
    (c.deleting name).requestsOf k = (c.services.lookup name).elim (c.requestsOf k) fun loc =>
      if k = loc.session then c.requestsOf k ++ [.deregister loc.id] else c.requestsOf k := by
  unfold deleting
  cases hl : c.services.lookup name with
  | none => rfl
  | some loc => exact requestsOf_send (h loc hl)

end ClientState

/-! ## 6. Every reload keeps it -/

section Keeps

variable {host : Host} {x : Placement} {cfg : ClientServiceConfig}

/-- A session is left with what it had, less the service that leaves it. -/
theorem lookup_replay_leaving (rs : List SessionRequest) (previous : Option ServiceLocation)
    (k : SessionKey) (i : ServiceId) :
    (replay (previous.elim rs fun loc =>
        if k = loc.session then rs ++ [.deregister loc.id] else rs)).lookup i =
      if previous = some { session := k, id := i } then none else (replay rs).lookup i := by
  cases previous with
  | none => simp
  | some loc =>
    obtain ⟨session, id⟩ := loc
    simp only [Option.elim_some]
    by_cases hk : k = session
    · subst hk
      rw [if_pos rfl, replay_append, ClientSession.applyRequest, Table.lookup_erase_eq]
      by_cases hi : i = id
      · simp [hi]
      · simp [hi, Ne.symm hi]
    · simp [hk, Ne.symm hk]

/-- Another service is where it was, and the one that changes is not. -/
theorem holds_other (h : Consistent host x) {name : String} {k : SessionKey} {i : ServiceId}
    {entry : ServiceEntry} :
    (∃ n c, n ≠ name ∧ x.client.services.lookup n = some { session := k, id := i } ∧
        x.added.lookup n = some c ∧
        slotFor host.decodes x.client.config c i = some entry.slot ∧ entry.state = .registering) ↔
      x.Holds host k i entry ∧
        x.client.services.lookup name ≠ some { session := k, id := i } := by
  constructor
  · rintro ⟨n, c, hn, hl, ha, hslot, hst⟩
    exact ⟨⟨n, c, hl, ha, hslot, hst⟩, fun hname => hn (h.ids n name _ hl hname)⟩
  · rintro ⟨⟨n, c, hl, ha, hslot, hst⟩, hname⟩
    refine ⟨n, c, ?_, hl, ha, hslot, hst⟩
    rintro rfl
    exact hname hl

/-- What is consistent stays so when the idle sessions are stopped, and then every session has a
service. -/
theorem Consistent.reap (h : Consistent host x) :
    WellPlaced host { x with client := x.client.reapIdleSessions } where
  keys := by
    rw [ClientState.keys_reapIdleSessions]
    exact h.keys.filter _
  ids := h.ids
  hosted name loc hl :=
    ClientState.mem_keys_reapIdleSessions.mpr ⟨h.hosted name loc hl, name, loc, hl, rfl⟩
  placed := h.placed
  live key hkey := (ClientState.mem_keys_reapIdleSessions.mp hkey).2
  replayed key id entry := by
    by_cases hlive : x.client.Live key
    · rw [ClientState.requestsOf_reapIdleSessions hlive]
      exact h.replayed key id entry
    · have hnot : key ∉ x.client.reapIdleSessions.keys := fun hk =>
        hlive (ClientState.mem_keys_reapIdleSessions.mp hk).2
      rw [ClientState.requestsOf_of_not_mem hnot]
      refine iff_of_false (by simp [replay]) ?_
      rintro ⟨name, c, hl, -⟩
      exact hlive ⟨name, _, hl, rfl⟩

/-- The service gets an id no other service has on that session. -/
def Placement.Free (x : Placement) (cfg : ClientServiceConfig) : Prop :=
  ∀ n, n ≠ cfg.name → x.client.services.lookup n ≠
    some { session := sessionKey x.client.config cfg, id := x.client.idFor cfg }

/-- A service that stays on its session keeps its id. -/
theorem idFor_of_stays {c : ClientState} {i : ServiceId}
    (h : c.services.lookup cfg.name = some { session := sessionKey c.config cfg, id := i }) :
    c.idFor cfg = i := by
  rw [ClientState.idFor, h]
  simp [Option.filter]

theorem idFor_of_moves {c : ClientState}
    (h : (c.services.lookup cfg.name).any (·.session = sessionKey c.config cfg) = false) :
    c.idFor cfg = c.nextId (sessionKey c.config cfg) := by
  rw [ClientState.idFor]
  cases hl : c.services.lookup cfg.name with
  | none => rfl
  | some loc =>
    rw [hl, Option.any_some] at h
    simp [Option.filter, h]

/-- What is placed afterwards: the service itself, and the others where they were. -/
theorem holds_placing (h : Consistent host x) {slot : ServiceSlot}
    (hslot : slotFor host.decodes x.client.config cfg (x.client.idFor cfg) = some slot)
    (k : SessionKey) (i : ServiceId) (entry : ServiceEntry) :
    Placement.Holds host ⟨x.client.placing cfg slot, x.added.insert cfg.name cfg⟩ k i entry ↔
      (k = sessionKey x.client.config cfg ∧ i = x.client.idFor cfg ∧
          entry = { slot := slot, state := .registering }) ∨
        (x.Holds host k i entry ∧
          x.client.services.lookup cfg.name ≠ some { session := k, id := i }) := by
  rw [← holds_other h]
  simp only [Placement.Holds, ClientState.placing_lookup, Table.lookup_insert_eq,
    ClientState.placing_config]
  constructor
  · rintro ⟨n, c, hl, ha, hsl, hst⟩
    by_cases hn : n = cfg.name
    · simp only [hn, if_true, Option.some.injEq, ServiceLocation.mk.injEq] at hl ha
      obtain ⟨rfl, rfl⟩ := hl
      subst ha
      rw [hslot] at hsl
      refine .inl ⟨rfl, rfl, ?_⟩
      rw [Option.some.inj hsl, ← hst]
    · rw [if_neg hn] at hl ha
      exact .inr ⟨n, c, hn, hl, ha, hsl, hst⟩
  · rintro (⟨rfl, rfl, rfl⟩ | ⟨n, c, hn, hl, ha, hsl, hst⟩)
    · exact ⟨cfg.name, cfg, if_pos rfl, if_pos rfl, hslot, rfl⟩
    · exact ⟨n, c, (if_neg hn).trans hl, (if_neg hn).trans ha, hsl, hst⟩

/-- What the requests leave afterwards is what is placed. -/
theorem replayed_placing (h : Consistent host x) (hfree : x.Free cfg) {slot : ServiceSlot}
    (hslot : slotFor host.decodes x.client.config cfg (x.client.idFor cfg) = some slot)
    (k : SessionKey) (i : ServiceId) (entry : ServiceEntry) :
    (replay ((x.client.placing cfg slot).requestsOf k)).lookup i = some entry ↔
      Placement.Holds host ⟨x.client.placing cfg slot, x.added.insert cfg.name cfg⟩ k i entry := by
  have hid : slot.id = x.client.idFor cfg := by rw [(slotFor_eq_some.mp hslot).2]
  rw [holds_placing h hslot, ClientState.placing_requestsOf (h.hosted cfg.name)]
  by_cases hk : k = sessionKey x.client.config cfg
  · rw [if_pos hk, replay_append, ClientSession.applyRequest, Table.lookup_insert_eq, hid]
    by_cases hi : i = x.client.idFor cfg
    · rw [if_pos hi, Option.some.injEq]
      constructor
      · exact fun he => .inl ⟨hk, hi, he.symm⟩
      · rintro (⟨-, -, he⟩ | hother)
        · exact he.symm
        · obtain ⟨n, c, hn, hl, -⟩ := (holds_other h).mpr hother
          exact absurd (hk ▸ hi ▸ hl) (hfree n hn)
    · rw [if_neg hi, h.replayed]
      constructor
      · refine fun hold => .inr ⟨hold, fun hprev => hi ?_⟩
        exact (idFor_of_stays (hk ▸ hprev)).symm
      · rintro (⟨-, hi', -⟩ | ⟨hold, -⟩)
        · exact absurd hi' hi
        · exact hold
  · rw [if_neg hk, lookup_replay_leaving]
    by_cases hprev : x.client.services.lookup cfg.name = some { session := k, id := i }
    · simp [hprev, hk]
    · simp only [hprev, hk, if_false, false_and, false_or, ne_eq, not_false_eq_true, and_true]
      exact h.replayed k i entry

theorem Consistent.placing (h : Consistent host x) (hfree : x.Free cfg) {slot : ServiceSlot}
    (hslot : slotFor host.decodes x.client.config cfg (x.client.idFor cfg) = some slot) :
    Consistent host ⟨x.client.placing cfg slot, x.added.insert cfg.name cfg⟩ := by
  refine ⟨?_, ?_, ?_, ?_, replayed_placing h hfree hslot⟩
  · rw [ClientState.placing_keys]
    exact ClientState.nodup_keys_sessionIndex h.keys
  · intro n n' loc hl hl'
    rw [ClientState.placing_lookup] at hl hl'
    by_cases hn : n = cfg.name
    · by_cases hn' : n' = cfg.name
      · rw [hn, hn']
      · rw [if_pos hn] at hl
        rw [if_neg hn'] at hl'
        exact absurd (hl'.trans hl.symm) (hfree n' hn')
    · by_cases hn' : n' = cfg.name
      · rw [if_neg hn] at hl
        rw [if_pos hn'] at hl'
        exact absurd (hl.trans hl'.symm) (hfree n hn)
      · rw [if_neg hn] at hl
        rw [if_neg hn'] at hl'
        exact h.ids n n' loc hl hl'
  · intro n loc hl
    rw [ClientState.placing_lookup] at hl
    rw [ClientState.placing_keys]
    split at hl
    · cases hl
      exact ClientState.mem_keys_sessionIndex
    · rw [ClientState.keys_sessionIndex]
      split
      · exact h.hosted n loc hl
      · exact List.mem_append_left _ (h.hosted n loc hl)
  · intro n
    rw [ClientState.placing_lookup, Table.lookup_insert_eq, ClientState.placing_config]
    split
    · rfl
    · exact h.placed n

theorem Consistent.deleting (h : Consistent host x) (name : String) :
    Consistent host ⟨x.client.deleting name, x.added.erase name⟩ := by
  have hadd : ∀ n, (x.added.erase name).lookup n = if n = name then none else x.added.lookup n :=
    fun n => Table.lookup_erase_eq _ _ _
  have hlook := ClientState.deleting_lookup (c := x.client) name
  have hholds : ∀ k i entry,
      Placement.Holds host ⟨x.client.deleting name, x.added.erase name⟩ k i entry ↔
        x.Holds host k i entry ∧ x.client.services.lookup name ≠ some { session := k, id := i } := by
    intro k i entry
    rw [← holds_other h]
    simp only [Placement.Holds, hlook, hadd, ClientState.deleting_config]
    constructor
    · rintro ⟨n, c, hl, ha, hrest⟩
      by_cases hn : n = name
      · simp [hn] at hl
      · rw [if_neg hn] at hl ha
        exact ⟨n, c, hn, hl, ha, hrest⟩
    · rintro ⟨n, c, hn, hl, ha, hrest⟩
      exact ⟨n, c, (if_neg hn).trans hl, (if_neg hn).trans ha, hrest⟩
  have hkept : ∀ n loc, (x.client.deleting name).services.lookup n = some loc →
      x.client.services.lookup n = some loc := by
    intro n loc hl
    rw [hlook] at hl
    split at hl
    · cases hl
    · exact hl
  refine ⟨?_, ?_, ?_, ?_, ?_⟩
  · rw [ClientState.deleting_keys]
    exact h.keys
  · exact fun n n' loc hl hl' => h.ids n n' loc (hkept n loc hl) (hkept n' loc hl')
  · intro n loc hl
    rw [ClientState.deleting_keys]
    exact h.hosted n loc (hkept n loc hl)
  · intro n
    rw [hlook, hadd, ClientState.deleting_config]
    split
    · rfl
    · exact h.placed n
  · intro k i entry
    rw [hholds, ClientState.deleting_requestsOf (h.hosted name), lookup_replay_leaving]
    by_cases hprev : x.client.services.lookup name = some { session := k, id := i }
    · simp [hprev]
    · simp only [hprev, if_false, ne_eq, not_false_eq_true, and_true]
      exact h.replayed k i entry

/-- `add_service` succeeds on this host. -/
def Host.accepts (host : Host) (config : ClientConfig) (cfg : ClientServiceConfig) : Bool :=
  host.decodes (ClientTransport.noiseKeys config cfg) &&
    !(cfg.serviceType = .transparent && !host.ready cfg)

theorem addService_isSome {c : ClientState} :
    (c.addService host cfg).isSome = host.accepts c.config cfg := by
  have hslot : (slotFor host.decodes c.config cfg (c.idFor cfg)).isSome =
      host.decodes (ClientTransport.noiseKeys c.config cfg) := by
    rw [Bool.eq_iff_iff, Option.isSome_iff_exists]
    constructor
    · rintro ⟨slot, h⟩
      exact (slotFor_eq_some.mp h).1
    · exact fun h => ⟨_, slotFor_eq_some.mpr ⟨h, rfl⟩⟩
  rw [ClientState.addService_eq, Host.accepts]
  split
  case isTrue h => simp [h]
  case isFalse h => simp [h, hslot]

/-- A service that is added to a session it is not on gets an id no other service has there. -/
def Placement.freshId (host : Host) (x : Placement) : Change → Bool
  | .add cfg =>
    !host.accepts x.client.config cfg ||
      (x.client.services.lookup cfg.name).any (·.session = sessionKey x.client.config cfg) ||
      x.client.services.entries.all fun l => l.1 = cfg.name ||
        l.2 ≠ { session := sessionKey x.client.config cfg,
                id := x.client.nextId (sessionKey x.client.config cfg) }
  | .delete _ => true

theorem reload_add_of_some {c' : ClientState} (h : x.client.addService host cfg = some c') :
    x.reload host (.add cfg) = ⟨c', x.added.insert cfg.name cfg⟩ := by
  rw [Placement.reload, addServiceM_ok h]

theorem reload_add_of_none (h : x.client.addService host cfg = none) :
    x.reload host (.add cfg) = x := by
  obtain ⟨e, he⟩ := addServiceM_error h
  rw [Placement.reload, he]

/-- In a consistent client the id is free exactly when the next id is, or the service stays. -/
theorem free_iff_freshId (h : Consistent host x) (hok : host.accepts x.client.config cfg = true) :
    x.Free cfg ↔ x.freshId host (.add cfg) = true := by
  unfold Placement.Free
  rw [Placement.freshId, hok]
  cases hstay : (x.client.services.lookup cfg.name).any
      (·.session = sessionKey x.client.config cfg) with
  | true =>
    simp only [Bool.not_true, Bool.false_or, Bool.true_or, iff_true]
    obtain ⟨⟨session, id⟩, hloc, hs⟩ := (Option.any_eq_true ..).mp hstay
    obtain rfl := of_decide_eq_true hs
    intro n hn hl
    rw [idFor_of_stays hloc] at hl
    exact hn (h.ids n cfg.name _ hl hloc)
  | false =>
    rw [idFor_of_moves hstay]
    simp only [Bool.not_true, Bool.false_or, List.all_eq_true, Bool.or_eq_true, decide_eq_true_eq]
    constructor
    · intro hfree l hl
      by_cases hn : l.1 = cfg.name
      · exact .inl hn
      · refine .inr fun heq => hfree l.1 hn ?_
        rw [← heq]
        exact AList.mem_lookup_iff.mpr hl
    · intro hall n hn hl
      rcases hall ⟨n, _⟩ (AList.mem_lookup_iff.mp hl) with heq | hne
      · exact hn heq
      · exact hne rfl

/-- **One reload** keeps everything in step exactly when it hands out no id that is in use. -/
theorem wellPlaced_reload_iff (h : WellPlaced host x) (change : Change) :
    WellPlaced host (x.reload host change) ↔ x.freshId host change = true := by
  cases change with
  | delete name =>
    refine iff_of_true ?_ rfl
    rw [Placement.reload, ClientState.deleteService_eq]
    exact (h.toConsistent.deleting name).reap
  | add cfg =>
    cases hs : x.client.addService host cfg with
    | none =>
      have hnot : host.accepts x.client.config cfg = false := by
        rw [← addService_isSome, hs]
        rfl
      rw [reload_add_of_none hs]
      refine iff_of_true h ?_
      simp [Placement.freshId, hnot]
    | some c' =>
      have hok : host.accepts x.client.config cfg = true := by
        rw [← addService_isSome, hs]
        rfl
      rw [reload_add_of_some hs, ← free_iff_freshId h.toConsistent hok]
      obtain ⟨slot, hslot, rfl⟩ := ClientState.addService_eq_some hs
      constructor
      · -- two services with one id on one session
        intro h' n hn hl
        refine hn (h'.ids n cfg.name
          { session := sessionKey x.client.config cfg, id := x.client.idFor cfg } ?_ ?_)
        · exact (ClientState.placing_lookup slot n).trans ((if_neg hn).trans hl)
        · exact (ClientState.placing_lookup slot cfg.name).trans (if_pos rfl)
      · exact fun hfree => (h.toConsistent.placing hfree hslot).reap

end Keeps

/-- The requests of a session in the list are the ones of its key. -/
theorem WellPlaced.requestsOf {host : Host} {x : Placement} (h : WellPlaced host x)
    {e : SessionEntry} (he : e ∈ x.client.sessions) : x.client.requestsOf e.key = e.requests := by
  have hat : x.client.sessionAt e.key = some e := by
    obtain ⟨e', he'⟩ := Option.isSome_iff_exists.mp
      (ClientState.sessionAt_isSome.mpr (List.mem_map_of_mem he))
    have hmem : e' ∈ x.client.sessions := List.mem_of_find?_eq_some he'
    rw [he', List.inj_on_of_nodup_map h.keys hmem he (ClientState.sessionAt_key he')]
  rw [ClientState.requestsOf, hat]
  rfl

theorem reload_config {host : Host} (x : Placement) (change : Change) :
    (x.reload host change).client.config = x.client.config := by
  cases change with
  | delete name =>
    rw [Placement.reload, ClientState.deleteService_eq]
    exact ClientState.deleting_config name
  | add cfg =>
    cases hs : x.client.addService host cfg with
    | none => rw [reload_add_of_none hs]
    | some c' =>
      rw [reload_add_of_some hs]
      obtain ⟨slot, -, rfl⟩ := ClientState.addService_eq_some hs
      exact ClientState.placing_config slot

theorem wellPlaced_empty (host : Host) (config : ClientConfig) :
    WellPlaced host ⟨{ config := config, sessions := [], services := ∅ }, ∅⟩ where
  keys := List.nodup_nil
  ids name name' loc h := by cases h
  hosted name loc h := by cases h
  placed name := rfl
  replayed key id entry := by
    refine iff_of_false (by rintro ⟨⟩) ?_
    rintro ⟨name, cfg, h, -⟩
    cases h
  live key h := by cases h

/-- **Hot reload keeps sessions and placements in step**, where no service is given an id in use.
In every run: the sessions have distinct keys and a service each, ids are unique on a session, every
placed service is on the one session its own endpoint and pair name, the requests queued to a
session leave exactly the services placed on it when they are replayed in order, and an `Add` that
fails changes nothing. -/
theorem reload_wellPlaced {host : Host} {config : ClientConfig} {x : Placement}
    (h : ((reloads host config).restrict fun x change => x.freshId host change = true).Reach x) :
    x.client.config = config ∧ WellPlaced host x ∧
      (∀ e ∈ x.client.sessions, ∀ id entry,
        (replay e.requests).lookup id = some entry ↔ x.Holds host e.key id entry) ∧
      ∀ cfg e c', exec (addServiceM host cfg) x.client = (.error e, c') → c' = x.client := by
  have hx : x.client.config = config ∧ WellPlaced host x := by
    refine h.invariant (P := fun x => x.client.config = config ∧ WellPlaced host x) ?_ ?_
    · rintro x rfl
      exact ⟨rfl, wellPlaced_empty host config⟩
    · rintro x change x' ⟨hc, hw⟩ ⟨hfresh, rfl⟩
      exact ⟨(reload_config x change).trans hc, (wellPlaced_reload_iff hw change).mpr hfresh⟩
  refine ⟨hx.1, hx.2, ?_, ?_⟩
  · intro e he id entry
    rw [← hx.2.requestsOf he]
    exact hx.2.replayed e.key id entry
  · intro cfg e c' hrun
    cases hs : x.client.addService host cfg with
    | none =>
      obtain ⟨e', he'⟩ := addServiceM_error hs
      rw [he'] at hrun
      exact (Prod.mk.inj hrun).2.symm
    | some c'' =>
      rw [addServiceM_ok hs] at hrun
      cases (Prod.mk.inj hrun).1

/-! ## 7. The ids of a session -/

section Wrap

variable {c c' : ClientState} {host : Host} {cfg : ClientServiceConfig}

/-- A session that is not stopped keeps its counter. -/
theorem nextId_reapIdleSessions {k : SessionKey} (h : c.Live k) :
    c.reapIdleSessions.nextId k = c.nextId k := by
  rw [ClientState.nextId_eq, ClientState.sessionAt_reapIdleSessions h, ← ClientState.nextId_eq]

/-- A service that is not on its session yet takes the next id. -/
theorem nextId_placing {slot : ServiceSlot}
    (h : (c.services.lookup cfg.name).any (·.session = sessionKey c.config cfg) = false) :
    (c.placing cfg slot).nextId (sessionKey c.config cfg) =
      (c.nextId (sessionKey c.config cfg) + 1) % 2 ^ 32 := by
  have hmoves :
      (c.services.lookup cfg.name).filter (·.session = sessionKey c.config cfg) = none := by
    cases hl : c.services.lookup cfg.name with
    | none => rfl
    | some loc =>
      rw [hl, Option.any_some] at h
      simp [Option.filter, h]
  set key := sessionKey c.config cfg with hkey
  set c1 := (c.leaveSession (c.services.lookup cfg.name) key).sessionIndex key with hc1
  have hbump : (c.placing cfg slot).nextId key =
      ((c1.onSession key SessionEntry.bump).onSession key (·.send (.register slot))).nextId key := by
    unfold ClientState.placing
    dsimp only
    rw [← hkey, hmoves]
    rfl
  have hmem : key ∈ c1.keys := ClientState.mem_keys_sessionIndex
  obtain ⟨e, he⟩ := Option.isSome_iff_exists.mp (ClientState.sessionAt_isSome.mpr hmem)
  have hnext : c.nextId key = e.nextId := by
    rw [← ClientState.nextId_leaveSession (c.services.lookup cfg.name) key,
      ← ClientState.nextId_sessionIndex key, ← hc1, ClientState.nextId_eq, he]
    rfl
  rw [hbump, hnext, ClientState.nextId_eq,
    ClientState.sessionAt_onSession (f := (·.send (.register slot))) fun _ => rfl,
    ClientState.sessionAt_onSession (f := SessionEntry.bump) fun _ => rfl, if_pos rfl, if_pos rfl,
    he]
  rfl

theorem nextId_deleting (name : String) (k : SessionKey) :
    (c.deleting name).nextId k = c.nextId k := by
  unfold ClientState.deleting
  cases c.services.lookup name with
  | none => rfl
  | some loc =>
    exact ClientState.nextId_send (.deregister loc.id) loc.session k

/-- A counter that does not wrap goes up, and the others stay. -/
theorem nextId_le_bump {key : SessionKey} (h : c.nextId key + 1 < 2 ^ 32) (k : SessionKey) :
    c.nextId k ≤ (c.onSession key SessionEntry.bump).nextId k := by
  rw [ClientState.nextId_eq (c.onSession key SessionEntry.bump),
    ClientState.sessionAt_onSession (f := SessionEntry.bump) fun _ => rfl]
  split
  case isTrue hk =>
    subst hk
    rw [ClientState.nextId_eq] at h ⊢
    cases hat : c.sessionAt k with
    | none => exact Nat.le_refl 0
    | some e =>
      rw [hat] at h
      simp only [Option.map_some, Option.getD_some, SessionEntry.bump] at h ⊢
      rw [Nat.mod_eq_of_lt h]
      exact Nat.le_succ _
  case isFalse => exact Nat.le_refl _

theorem nextId_le_placing {slot : ServiceSlot}
    (h : c.nextId (sessionKey c.config cfg) + 1 < 2 ^ 32) (k : SessionKey) :
    c.nextId k ≤ (c.placing cfg slot).nextId k := by
  set key := sessionKey c.config cfg with hkey
  set c1 := (c.leaveSession (c.services.lookup cfg.name) key).sessionIndex key with hc1
  have hsame : ∀ k, c1.nextId k = c.nextId k := by
    intro k
    rw [hc1, ClientState.nextId_sessionIndex, ClientState.nextId_leaveSession]
  unfold ClientState.placing
  dsimp only
  rw [withServices_nextId, ClientState.nextId_send, ← hkey, ← hc1]
  split
  · exact Nat.le_of_eq (hsame k).symm
  · rw [← hsame k]
    exact nextId_le_bump (by rwa [hsame]) k

/-- The session the service is placed on has not drawn its last id: it has drawn fewer than
`2 ^ 32`, with the one it draws now. -/
def Placement.unspent (x : Placement) : Change → Bool
  | .add cfg => x.client.nextId (sessionKey x.client.config cfg) + 1 < 2 ^ 32
  | .delete _ => true

/-- The ids in use are ids that have been drawn. -/
def Placement.Numbered (x : Placement) : Prop :=
  ∀ name loc, x.client.services.lookup name = some loc → loc.id < x.client.nextId loc.session

/-- The next id of a session that has not drawn its last one is nobody's. -/
theorem Placement.Numbered.freshId {x : Placement} (h : x.Numbered) (change : Change) :
    x.freshId host change = true := by
  cases change with
  | delete name => rfl
  | add cfg =>
    simp only [Placement.freshId, Bool.or_eq_true, List.all_eq_true, decide_eq_true_eq]
    refine .inr fun l hl => .inr fun heq => ?_
    have hlt := h l.1 l.2 (AList.mem_lookup_iff.mpr hl)
    rw [heq] at hlt
    exact Nat.lt_irrefl _ hlt

theorem Placement.Numbered.reap {x : Placement} (h : x.Numbered)
    (added : Table String ClientServiceConfig) :
    Placement.Numbered ⟨x.client.reapIdleSessions, added⟩ := by
  intro name loc hl
  have hl : x.client.services.lookup name = some loc := hl
  rw [nextId_reapIdleSessions ⟨name, loc, hl, rfl⟩]
  exact h name loc hl

theorem Placement.Numbered.reload {x : Placement} (h : x.Numbered) {change : Change}
    (hc : x.unspent change = true) : (x.reload host change).Numbered := by
  cases change with
  | delete name =>
    rw [Placement.reload, ClientState.deleteService_eq]
    refine Placement.Numbered.reap (x := ⟨x.client.deleting name, x.added⟩) ?_ _
    intro n loc hl
    have hl := (ClientState.deleting_lookup (c := x.client) name n).symm.trans hl
    split at hl
    · cases hl
    · dsimp only
      rw [nextId_deleting]
      exact h n loc hl
  | add cfg =>
    have hlt := of_decide_eq_true hc
    cases hs : x.client.addService host cfg with
    | none =>
      rw [reload_add_of_none hs]
      exact h
    | some c' =>
      rw [reload_add_of_some hs]
      obtain ⟨slot, -, rfl⟩ := ClientState.addService_eq_some hs
      refine Placement.Numbered.reap (x := ⟨x.client.placing cfg slot, x.added⟩) ?_ _
      intro n loc hl
      have hl := (ClientState.placing_lookup slot n).symm.trans hl
      split at hl
      case isTrue =>
        cases hl
        -- the id it had, or the one it draws
        cases hstay : (x.client.services.lookup cfg.name).any
            (·.session = sessionKey x.client.config cfg) with
        | true =>
          obtain ⟨⟨session, id⟩, hloc, hs⟩ := (Option.any_eq_true ..).mp hstay
          obtain rfl := of_decide_eq_true hs
          rw [idFor_of_stays hloc]
          exact (h _ _ hloc).trans_le (nextId_le_placing hlt _)
        | false =>
          dsimp only
          rw [idFor_of_moves hstay, nextId_placing hstay, Nat.mod_eq_of_lt hlt]
          exact Nat.lt_succ_self _
      case isFalse => exact (h n loc hl).trans_le (nextId_le_placing hlt _)

/-- **Fewer than 2^32 services**: a run in which no session draws its last id hands out no id that
is in use. -/
theorem reach_of_unspent {config : ClientConfig} {x : Placement}
    (h : ((reloads host config).restrict fun x change => x.unspent change = true).Reach x) :
    ((reloads host config).restrict fun x change => x.freshId host change = true).Reach x := by
  have hx : x.Numbered ∧
      ((reloads host config).restrict fun x change => x.freshId host change = true).Reach x := by
    refine h.invariant (P := fun x => x.Numbered ∧ ((reloads host config).restrict fun x change =>
      x.freshId host change = true).Reach x) ?_ ?_
    · rintro x rfl
      refine ⟨fun name loc hl => ?_, .init rfl⟩
      cases hl
    · rintro x change x' ⟨hn, hr⟩ ⟨hc, rfl⟩
      exact ⟨hn.reload hc, hr.step ⟨hn.freshId change, rfl⟩⟩
  exact hx.2

end Wrap

/-! After 2^32 of them. -/

/-- A second service of the same server. -/
def churnedService : ClientServiceConfig := { plainService with name := "churn" }

/-- The one session of the two. -/
def officeKey : SessionKey := sessionKey officeClient plainService

/-- The first service has the id 0, the second is not there, and this is the next id. -/
structure Churned (n : Nat) (x : Placement) : Prop where
  reached : (reloads officeHost officeClient).Reach x
  config : x.client.config = officeClient
  web : x.client.services.lookup "web" = some { session := officeKey, id := 0 }
  churn : x.client.services.lookup "churn" = none
  next : x.client.nextId officeKey = n % 2 ^ 32

/-- The second service is added: it gets the next id. -/
theorem Churned.added {n : Nat} {x : Placement} (h : Churned n x) :
    ∃ x', (reloads officeHost officeClient).Reach x' ∧ x'.client.config = officeClient ∧
      x'.client.services.lookup "web" = some { session := officeKey, id := 0 } ∧
      x'.client.services.lookup "churn" = some { session := officeKey, id := n % 2 ^ 32 } ∧
      x'.client.nextId officeKey = (n + 1) % 2 ^ 32 := by
  have hkey : sessionKey x.client.config churnedService = officeKey := by
    rw [h.config]
    rfl
  have hmoves : (x.client.services.lookup churnedService.name).any
      (·.session = sessionKey x.client.config churnedService) = false := by
    change (x.client.services.lookup "churn").any _ = false
    rw [h.churn]
    rfl
  have hid : x.client.idFor churnedService = n % 2 ^ 32 := by
    rw [idFor_of_moves hmoves, hkey, h.next]
  have hplaced : (x.client.addService officeHost churnedService).isSome = true := by
    rw [addService_isSome, h.config]
    decide
  obtain ⟨c', hc'⟩ := Option.isSome_iff_exists.mp hplaced
  obtain ⟨slot, -, rfl⟩ := ClientState.addService_eq_some hc'
  refine ⟨x.reload officeHost (.add churnedService), .step h.reached rfl, ?_⟩
  rw [reload_add_of_some hc']
  have hweb : (x.client.placing churnedService slot).services.lookup "web" =
      some { session := officeKey, id := 0 } :=
    (Table.lookup_insert_eq _ _ _ _).trans h.web
  refine ⟨(ClientState.placing_config slot).trans h.config, hweb, ?_, ?_⟩
  · refine (AList.lookup_insert _).trans ?_
    rw [hkey, hid]
  · rw [nextId_reapIdleSessions ⟨"web", _, hweb, rfl⟩]
    have hnext : (x.client.placing churnedService slot).nextId _ = _ := nextId_placing hmoves
    rw [hkey, h.next, Nat.mod_add_mod] at hnext
    exact hnext

/-- Adding the second service and deleting it again moves the counter by one. -/
theorem Churned.succ {n : Nat} {x : Placement} (h : Churned n x) : ∃ x', Churned (n + 1) x' := by
  obtain ⟨x', hreach, hconfig, hweb, -, hnext⟩ := h.added
  refine ⟨x'.reload officeHost (.delete "churn"), .step hreach rfl, ?_, ?_, ?_, ?_⟩
  · exact (reload_config x' _).trans hconfig
  · rw [Placement.reload, ClientState.deleteService_eq]
    refine (ClientState.deleting_lookup (c := x'.client) "churn" "web").trans ?_
    rw [if_neg (by decide), hweb]
  · rw [Placement.reload, ClientState.deleteService_eq]
    exact (ClientState.deleting_lookup (c := x'.client) "churn" "churn").trans (if_pos rfl)
  · rw [Placement.reload, ClientState.deleteService_eq]
    have hlive : (x'.client.deleting "churn").Live officeKey := by
      refine ⟨"web", { session := officeKey, id := 0 }, ?_, rfl⟩
      rw [ClientState.deleting_lookup, if_neg (by decide), hweb]
    rw [nextId_reapIdleSessions hlive, nextId_deleting]
    exact hnext

theorem churned_one : ∃ x, Churned 1 x := by
  refine ⟨Placement.reload officeHost
    ⟨{ config := officeClient, sessions := [], services := ∅ }, ∅⟩ (.add plainService),
    .step (.init rfl) rfl, ?_, ?_, ?_, ?_⟩
  · exact reload_config _ _
  · decide +kernel
  · decide +kernel
  · decide +kernel

theorem exists_churned (n : Nat) : ∃ x, Churned (n + 1) x := by
  induction n with
  | zero => exact churned_one
  | succ n ih =>
    obtain ⟨x, hx⟩ := ih
    exact hx.succ

/-- **An id is handed out twice.**  One service stays while another is added and deleted 2^32 - 1
times; the next time it is added, both have the id 0 on one session. -/
theorem id_reused :
    ∃ x, (reloads officeHost officeClient).Reach x ∧
      x.client.services.lookup "web" = some { session := officeKey, id := 0 } ∧
      x.client.services.lookup "churn" = some { session := officeKey, id := 0 } ∧
      ¬ WellPlaced officeHost x := by
  obtain ⟨x, hx⟩ := exists_churned (2 ^ 32 - 1)
  obtain ⟨x', hreach, -, hweb, hchurn, -⟩ := hx.added
  have hzero : (2 ^ 32 - 1 + 1) % 2 ^ 32 = 0 := by decide
  rw [hzero] at hchurn
  refine ⟨x', hreach, hweb, hchurn, fun h => ?_⟩
  have hsame := h.ids _ _ _ hweb hchurn
  exact absurd hsame (by decide)

/-- A service moves to another server and back while its sibling stays. -/
def movedAndBack : List Change :=
  [.add plainService, .add churnedService,
    .add { churnedService with remoteAddr := some "198.51.100.7:2333" }, .add churnedService]

theorem reload_wellPlaced_moved :
    ∃ x, ((reloads officeHost officeClient).restrict fun x change =>
        x.freshId officeHost change = true).Reach x ∧
      x.client.services.lookup "churn" = some { session := officeKey, id := 2 } ∧
      x.client.keys = [officeKey] ∧ WellPlaced officeHost x := by
  have hrun : (Lts.runWith (fun x change => some (Placement.reload officeHost x change))
      (Placement.freshId officeHost)
      ⟨{ config := officeClient, sessions := [], services := ∅ }, ∅⟩ movedAndBack).any
      (fun x => decide (x.client.services.lookup "churn" = some { session := officeKey, id := 2 } ∧
        x.client.keys = [officeKey])) = true := by
    decide +kernel
  obtain ⟨x, hx, hend⟩ := Lts.Reach.exists_runWith (T := reloads officeHost officeClient)
    (fun _ _ _ h => (Option.some.inj h).symm) (fun _ _ h => h) rfl hrun
  obtain ⟨hid, hkeys⟩ := of_decide_eq_true hend
  exact ⟨x, hx, hid, hkeys, (reload_wellPlaced hx).2.1⟩

end Molehill.Client
