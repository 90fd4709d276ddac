/-
# The status task and the sessions it asks

Every session is started with a channel on which the status API asks it for its view
(`session_index`, `core/client.rs`).  The client files the sender under the address the session
dials, and the status task, when there is one, starts with a copy of the client's map.

A session's identity is more than its address: two sessions of one address differ in their key
pair, and the map has room for one of them.  And the copy is made once: a session that a hot reload
starts is in the client's map only.  A session whose sender was overwritten before the copy was
made has a receiver nobody can send to; from then on the ask arm of its select loop is ready at
every turn, with nothing to answer.

The result: where sessions are only started before the status task, each at an address no other
session stays at, the client and the running task hold the sender of every session
(`asks_reach_sessions`); and an `Add` keeps it so exactly then (`held_add_iff`).
-/
import Mathlib.Logic.Function.Basic
import Molehill.Client.Placement

namespace Molehill.Client

open Lib Function

/-! ## 1. Senders and receivers -/

/-- The status task: before it is spawned, running with its copy of the senders, or over. -/
inductive StatusTask
  | notStarted
  | running (asks : Table String Nat)
  | stopped

/-- The client with its ask channels, which are numbered in the order they are made.  `receiver`
says which one the session of a key was started with. -/
structure AskState where
  client : ClientState
  made : Nat
  receiver : SessionKey → Nat
  statusAsks : Table String Nat
  statusTask : StatusTask

/-- A client that has just been built. -/
def AskState.new (config : ClientConfig) : AskState :=
  { client := { config := config, sessions := [], services := ∅ }, made := 0,
    receiver := fun _ => 0, statusAsks := ∅, statusTask := .notStarted }

inductive AskEvent
  | change (c : Change)
  /-- `run` spawns the status task. -/
  | startStatus
  /-- The task ends: its listener could not be bound. -/
  | stopStatus

namespace AskState

/-- What `session_index` does to the ask channels when it starts the session of the key. -/
def startSession (x : AskState) (key : SessionKey) : AskState :=
  { x with
    made := x.made + 1
    receiver := update x.receiver key x.made
    statusAsks := x.statusAsks.insert key.addr x.made }

/-- `session_index` finds no session of the key. -/
def starts (x : AskState) (cfg : ClientServiceConfig) : Bool :=
  decide (sessionKey x.client.config cfg ∉ x.client.keys)

/-- `add_service` and the ask channels. -/
def add (host : Host) (x : AskState) (cfg : ClientServiceConfig) : AskState :=
  match exec (addServiceM host cfg) x.client with
  | (.ok _, c) =>
    { (if x.starts cfg then x.startSession (sessionKey x.client.config cfg) else x) with
      client := c }
  | (.error _, c) => { x with client := c }

def step (host : Host) (x : AskState) : AskEvent → Option AskState
  | .change (.add cfg) => some (x.add host cfg)
  | .change (.delete name) => some { x with client := x.client.deleteService name }
  | .startStatus =>
    match x.statusTask with
    | .notStarted => some { x with statusTask := .running x.statusAsks }
    | _ => none
  | .stopStatus =>
    match x.statusTask with
    | .running _ => some { x with statusTask := .stopped }
    | _ => none

/-- The client's map and, while it runs, the status task's have the sender of the session. -/
def Held (x : AskState) (key : SessionKey) : Prop :=
  x.statusAsks.lookup key.addr = some (x.receiver key) ∧
    ∀ asks, x.statusTask = .running asks → asks.lookup key.addr = some (x.receiver key)

/-- Nobody has the sender of the session: its `recv` returns at once, at every turn of the loop. -/
def Severed (x : AskState) (key : SessionKey) : Prop :=
  (∀ addr, x.statusAsks.lookup addr ≠ some (x.receiver key)) ∧
    ∀ asks, x.statusTask = .running asks → ∀ addr, asks.lookup addr ≠ some (x.receiver key)

/-- A session is started only before the status task is, and only at an address at which no other
session stays: one whose only service is the one that moves away is stopped by the same `Add`. -/
def startsAlone (host : Host) (x : AskState) : AskEvent → Bool
  | .change (.add cfg) =>
    !host.accepts x.client.config cfg || !x.starts cfg ||
      ((match x.statusTask with
        | .running _ => false
        | _ => true) &&
        x.client.keys.all fun k => k.addr ≠ (sessionKey x.client.config cfg).addr ||
          x.client.services.entries.all fun l => l.1 = cfg.name || l.2.session ≠ k)
  | _ => true

end AskState

/-- Every run of a client with a status API. -/
def askSystem (host : Host) (config : ClientConfig) : Lts AskState AskEvent where
  init x := x = .new config
  step x a x' := x.step host a = some x'

/-! ## 2. What an `Add` does -/

namespace AskState

variable {host : Host} {x x' : AskState} {cfg : ClientServiceConfig}

/-- Every sender in use was made before. -/
structure Numbered (x : AskState) : Prop where
  asks : ∀ addr n, x.statusAsks.lookup addr = some n → n < x.made
  task : ∀ asks, x.statusTask = .running asks → ∀ addr n, asks.lookup addr = some n → n < x.made

theorem add_of_none (h : x.client.addService host cfg = none) : x.add host cfg = x := by
  obtain ⟨e, he⟩ := addServiceM_error h
  rw [add, he]

theorem add_of_some {c' : ClientState} (h : x.client.addService host cfg = some c') :
    x.add host cfg =
      { (if x.starts cfg then x.startSession (sessionKey x.client.config cfg) else x) with
        client := c' } := by
  rw [add, addServiceM_ok h]

/-- The sessions after an `Add`: the one the service was placed on, and those other services are
placed on. -/
theorem mem_keys_add {c' : ClientState} (h : x.client.addService host cfg = some c')
    (k : SessionKey) :
    k ∈ c'.keys ↔ k = sessionKey x.client.config cfg ∨
      (k ∈ x.client.keys ∧ ∃ name loc, name ≠ cfg.name ∧
        x.client.services.lookup name = some loc ∧ loc.session = k) := by
  obtain ⟨slot, -, rfl⟩ := ClientState.addService_eq_some h
  rw [ClientState.mem_keys_reapIdleSessions, ClientState.placing_keys]
  constructor
  · rintro ⟨hk, name, loc, hl, hloc⟩
    rw [ClientState.placing_lookup] at hl
    by_cases hn : name = cfg.name
    · rw [if_pos hn] at hl
      cases hl
      exact .inl hloc.symm
    · rw [if_neg hn] at hl
      rw [ClientState.keys_sessionIndex] at hk
      by_cases hkey : k = sessionKey x.client.config cfg
      · exact .inl hkey
      · refine .inr ⟨?_, name, loc, hn, hl, hloc⟩
        split at hk
        · exact hk
        · exact (List.mem_append.mp hk).resolve_right fun h => hkey (List.mem_singleton.mp h)
  · rintro (rfl | ⟨hk, name, loc, hn, hl, hloc⟩)
    · refine ⟨ClientState.mem_keys_sessionIndex, cfg.name,
        { session := sessionKey x.client.config cfg, id := x.client.idFor cfg }, ?_, rfl⟩
      rw [ClientState.placing_lookup, if_pos rfl]
    · refine ⟨?_, name, loc,
        (ClientState.placing_lookup slot name).trans ((if_neg hn).trans hl), hloc⟩
      rw [ClientState.keys_sessionIndex]
      split
      · exact hk
      · exact List.mem_append_left _ hk

/-- Starting a session files its sender over whatever stood under its address. -/
theorem held_startSession {key k : SessionKey} {c : ClientState} (hnum : Numbered x)
    (hheld : k ≠ key → x.Held k) :
    Held { x.startSession key with client := c } k ↔
      if k = key then ∀ asks, x.statusTask ≠ .running asks else k.addr ≠ key.addr := by
  simp only [Held, startSession, Table.lookup_insert_eq]
  by_cases hk : k = key
  · subst hk
    simp only [if_true, update_self, true_and]
    constructor
    · intro h asks hrun
      exact absurd (hnum.task asks hrun _ _ (h asks hrun)) (Nat.lt_irrefl _)
    · exact fun h asks hrun => absurd hrun (h asks)
  · rw [if_neg hk, update_of_ne hk]
    obtain ⟨hasks, htask⟩ := hheld hk
    constructor
    · rintro ⟨h, -⟩ haddr
      rw [if_pos haddr] at h
      have hlt := hnum.asks _ _ hasks
      rw [← Option.some.inj h] at hlt
      exact absurd hlt (Nat.lt_irrefl _)
    · intro haddr
      rw [if_neg haddr]
      exact ⟨hasks, htask⟩

/-- The client and the running task hold the sender of every session. -/
def AllHeld (x : AskState) : Prop := ∀ k ∈ x.client.keys, x.Held k

/-- **One `Add`** keeps every sender held exactly when the session it starts, if it starts one, is
alone at its address and in time for the status task. -/
theorem held_add_iff (hnum : Numbered x) (h : AllHeld x) :
    AllHeld (x.add host cfg) ↔ x.startsAlone host (.change (.add cfg)) = true := by
  cases hs : x.client.addService host cfg with
  | none =>
    have hnot : host.accepts x.client.config cfg = false := by
      rw [← addService_isSome, hs]
      rfl
    rw [add_of_none hs]
    exact iff_of_true h (by simp [startsAlone, hnot])
  | some c' =>
    have hok : host.accepts x.client.config cfg = true := by
      rw [← addService_isSome, hs]
      rfl
    have hkeys := mem_keys_add hs
    rw [add_of_some hs, startsAlone, hok]
    cases hst : x.starts cfg with
    | false =>
      have hin : sessionKey x.client.config cfg ∈ x.client.keys := by
        simpa [starts] using hst
      refine iff_of_true (fun k hk => ?_) (by simp)
      rcases (hkeys k).mp hk with rfl | ⟨hold, -⟩
      · exact h _ hin
      · exact h k hold
    | true =>
      have hout : sessionKey x.client.config cfg ∉ x.client.keys := of_decide_eq_true hst
      have hheld : ∀ k, k ∈ c'.keys → k ≠ sessionKey x.client.config cfg → x.Held k :=
        fun k hk hne => h k (((hkeys k).mp hk).resolve_left hne).1
      have hnew : AllHeld { x.startSession (sessionKey x.client.config cfg) with client := c' } ↔
          ∀ k ∈ c'.keys, if k = sessionKey x.client.config cfg then
            ∀ asks, x.statusTask ≠ .running asks
          else k.addr ≠ (sessionKey x.client.config cfg).addr :=
        forall₂_congr fun k hk => held_startSession hnum (hheld k hk)
      simp only [if_true, Bool.not_true, Bool.false_or, Bool.and_eq_true, List.all_eq_true,
        Bool.or_eq_true, decide_eq_true_eq]
      refine hnew.trans ⟨fun hall => ⟨?_, ?_⟩, ?_⟩
      · have hkey := hall _ ((hkeys _).mpr (.inl rfl))
        rw [if_pos rfl] at hkey
        cases htask : x.statusTask with
        | running asks => exact absurd htask (hkey asks)
        | notStarted => rfl
        | stopped => rfl
      · intro k hk
        by_cases haddr : k.addr = (sessionKey x.client.config cfg).addr
        · refine .inr fun l hl => ?_
          by_cases hn : l.1 = cfg.name
          · exact .inl hn
          · refine .inr fun hloc => ?_
            have hstays := hall k ((hkeys k).mpr
              (.inr ⟨hk, l.1, l.2, hn, AList.mem_lookup_iff.mpr hl, hloc⟩))
            have hne : k ≠ sessionKey x.client.config cfg := fun heq => hout (heq ▸ hk)
            rw [if_neg hne] at hstays
            exact hstays haddr
        · exact .inl haddr
      · rintro ⟨htask, halone⟩ k hk
        by_cases hkey : k = sessionKey x.client.config cfg
        · rw [if_pos hkey]
          intro asks hrun
          rw [hrun] at htask
          cases htask
        · rw [if_neg hkey]
          obtain ⟨hold, name, loc, hn, hl, hloc⟩ := ((hkeys k).mp hk).resolve_left hkey
          rcases halone k hold with haddr | hgone
          · exact haddr
          · rcases hgone ⟨name, loc⟩ (AList.mem_lookup_iff.mp hl) with heq | hne
            · exact absurd heq hn
            · exact absurd hloc hne

/-! ## 3. Every run -/

theorem keys_deleteService (c : ClientState) (name : String) {k : SessionKey}
    (h : k ∈ (c.deleteService name).keys) : k ∈ c.keys := by
  rw [ClientState.deleteService_eq, ClientState.mem_keys_reapIdleSessions,
    ClientState.deleting_keys] at h
  exact h.1

theorem Numbered.add (h : Numbered x) : Numbered (x.add host cfg) := by
  cases hs : x.client.addService host cfg with
  | none =>
    rw [add_of_none hs]
    exact h
  | some c' =>
    rw [add_of_some hs]
    split
    · refine ⟨fun addr n hl => ?_, fun asks hrun addr n hl => ?_⟩
      · have hl' := (Table.lookup_insert_eq ..).symm.trans hl
        split at hl'
        · cases hl'
          exact Nat.lt_succ_self _
        · exact Nat.lt_succ_of_lt (h.asks addr n hl')
      · exact Nat.lt_succ_of_lt (h.task asks hrun addr n hl)
    · exact ⟨h.asks, h.task⟩

/-- **One step** of a client that starts its sessions alone. -/
theorem held_step {a : AskEvent} (hnum : Numbered x) (h : AllHeld x)
    (hc : x.startsAlone host a = true) (hs : x.step host a = some x') :
    Numbered x' ∧ AllHeld x' := by
  cases a with
  | change ch =>
    cases ch with
    | add cfg =>
      cases hs
      exact ⟨hnum.add, (held_add_iff hnum h).mpr hc⟩
    | delete name =>
      cases hs
      exact ⟨⟨hnum.asks, hnum.task⟩, fun k hk => h k (keys_deleteService _ _ hk)⟩
  | startStatus =>
    simp only [step] at hs
    split at hs
    case h_1 =>
      cases hs
      refine ⟨⟨hnum.asks, fun asks hrun => ?_⟩, fun k hk => ⟨(h k hk).1, fun asks hrun => ?_⟩⟩
      · cases hrun
        exact hnum.asks
      · cases hrun
        exact (h k hk).1
    case h_2 => cases hs
  | stopStatus =>
    simp only [step] at hs
    split at hs
    case h_1 =>
      cases hs
      exact ⟨⟨hnum.asks, nofun⟩, fun k hk => ⟨(h k hk).1, nofun⟩⟩
    case h_2 => cases hs

theorem Held.not_severed {k : SessionKey} (h : x.Held k) : ¬ x.Severed k :=
  fun hsev => hsev.1 _ h.1

end AskState

/-- **Status asks reach every session**, where sessions start alone.  In every run whose sessions
are started before the status task and at an address of their own, the client and the running
status task hold the sender of every session's ask channel; no session's receiver is closed, so no
ask arm is ready without an ask. -/
theorem asks_reach_sessions {host : Host} {config : ClientConfig} {x : AskState}
    (h : ((askSystem host config).restrict fun x a => x.startsAlone host a = true).Reach x) :
    ∀ e ∈ x.client.sessions, x.Held e.key ∧ ¬ x.Severed e.key := by
  have hx : x.Numbered ∧ x.AllHeld := by
    refine h.invariant (P := fun x => x.Numbered ∧ x.AllHeld) ?_ ?_
    · rintro x rfl
      exact ⟨⟨nofun, nofun⟩, nofun⟩
    · rintro x a x' ⟨hnum, hheld⟩ ⟨hc, hs⟩
      exact AskState.held_step hnum hheld hc hs
  intro e he
  have hheld := hx.2 e.key (List.mem_map_of_mem he)
  exact ⟨hheld, hheld.not_severed⟩

/-! ## 4. Two sessions of one server, and a session that comes late -/

/-- A service of the same server with a key pair of its own. -/
def keyedService : ClientServiceConfig :=
  { plainService with
    name := "keyed", noise := some { publicKey := some "C", privateKey := none, dataEnable := none } }

/-- Two services of two servers before the status task, and the second one deleted after it. -/
def twoServers : List AskEvent :=
  [.change (.add plainService), .change (.add foreignService), .startStatus,
    .change (.delete "foreign")]

theorem asks_reach_sessions_twoServers :
    ∃ x, ((askSystem officeHost officeClient).restrict fun x a =>
        x.startsAlone officeHost a = true).Reach x ∧
      ∃ e ∈ x.client.sessions, e.key = officeKey ∧ x.Held e.key := by
  have hrun : (Lts.runWith (AskState.step officeHost) (AskState.startsAlone officeHost)
      (.new officeClient) twoServers).any (fun x => decide (∃ e ∈ x.client.sessions,
        e.key = officeKey)) = true := by
    decide +kernel
  obtain ⟨x, hx, hend⟩ := Lts.Reach.exists_runWith (T := askSystem officeHost officeClient)
    (fun _ _ _ h => h) (fun _ _ h => h) rfl hrun
  obtain ⟨e, he, hkey⟩ := of_decide_eq_true hend
  exact ⟨x, hx, e, he, hkey, (asks_reach_sessions hx e he).1⟩

/-- `Severed`, as a test. -/
def AskState.severedTest (x : AskState) (key : SessionKey) : Bool :=
  (x.statusAsks.entries.all fun l => l.2 ≠ x.receiver key) && match x.statusTask with
    | .running asks => asks.entries.all fun l => l.2 ≠ x.receiver key
    | _ => true

theorem AskState.severed_of_test {x : AskState} {key : SessionKey}
    (h : x.severedTest key = true) : x.Severed key := by
  have hnone : ∀ {t : Table String Nat}, (t.entries.all fun l => l.2 ≠ x.receiver key) = true →
      ∀ addr, t.lookup addr ≠ some (x.receiver key) := by
    intro t ht addr hl
    have hne := List.all_eq_true.mp ht _ (AList.mem_lookup_iff.mp hl)
    exact of_decide_eq_true hne rfl
  obtain ⟨hasks, htask⟩ := (Bool.and_eq_true _ _).mp h
  refine ⟨hnone hasks, fun asks hrun => hnone ?_⟩
  rw [hrun] at htask
  exact htask

/-- The running task, if there is one, asks the session. -/
def AskState.askedTest (x : AskState) (key : SessionKey) : Bool :=
  match x.statusTask with
  | .running asks => asks.lookup key.addr = some (x.receiver key)
  | _ => true

theorem AskState.Held.asked {x : AskState} {key : SessionKey} (h : x.Held key) :
    x.askedTest key = true := by
  unfold AskState.askedTest
  split
  case h_1 asks hrun => exact decide_eq_true (h.2 asks hrun)
  case h_2 => rfl

/-- Two sessions of one address, and the status task after them. -/
def sharedAddress : List AskEvent :=
  [.change (.add plainService), .change (.add keyedService), .startStatus]

/-- The status task, and a session after it. -/
def lateSession : List AskEvent :=
  [.change (.add plainService), .startStatus, .change (.add foreignService)]

/-- **Sessions nobody asks.**  Of two sessions to one address only the second is asked, and the
first one's receiver is closed while it runs; a session started by a hot reload is not asked by the
running task. -/
theorem session_not_asked :
    (∃ x, (askSystem officeHost officeClient).Reach x ∧
      (∃ e ∈ x.client.sessions, e.key = officeKey) ∧ x.Severed officeKey) ∧
    ∃ x, (askSystem officeHost officeClient).Reach x ∧
      ∃ e ∈ x.client.sessions, e.key = sessionKey officeClient foreignService ∧ ¬ x.Held e.key := by
  have hshared : (Lts.runWith (AskState.step officeHost) (fun _ _ => true) (.new officeClient)
      sharedAddress).any (fun x => decide ((∃ e ∈ x.client.sessions, e.key = officeKey) ∧
        x.severedTest officeKey = true)) = true := by
    decide +kernel
  have hlate : (Lts.runWith (AskState.step officeHost) (fun _ _ => true) (.new officeClient)
      lateSession).any (fun x => decide (∃ e ∈ x.client.sessions,
        e.key = sessionKey officeClient foreignService ∧ x.askedTest e.key = false)) = true := by
    decide +kernel
  constructor
  · obtain ⟨x, hx, hend⟩ := Lts.Reach.exists_run (T := askSystem officeHost officeClient)
      (fun _ _ _ h => h) rfl hshared
    obtain ⟨hsession, hsev⟩ := of_decide_eq_true hend
    exact ⟨x, hx, hsession, AskState.severed_of_test hsev⟩
  · obtain ⟨x, hx, hend⟩ := Lts.Reach.exists_run (T := askSystem officeHost officeClient)
      (fun _ _ _ h => h) rfl hlate
    obtain ⟨e, he, hkey, hnot⟩ := of_decide_eq_true hend
    refine ⟨x, hx, e, he, hkey, fun hheld => ?_⟩
    rw [hheld.asked] at hnot
    cases hnot

end Molehill.Client
