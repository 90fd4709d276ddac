/-
# Tokens: the session's and the service's

A client proves a token twice: once for the control session (`ClientSession::handshake`), and
once per service (`ServiceSlot::registration`).  The server checks both against its one default
token (`do_session_handshake`, `SessionCtx::register`).  A registration carries the service's
effective token; the session carries the client-wide default token, whichever services are
placed on it (`session_index`).

So a service with a `token` of its own, on a server whose default token is that token, is
refused before it can register: the handshake of its session fails.  Where a service's effective
token is the server's, both checks pass exactly when it is also the client-wide one
(`credentials_accepted_iff`).

The client is modelled with its table of sessions and its table of services, under every
sequence of added and deleted services.
-/
import Molehill.Client.Session

namespace Molehill.Client

open Lib

/-! ## 1. The client -/

/-- What adding a service asks of the host: that a key pair decodes, and (for a claim) that the
claimed address and the device are ready. -/
structure Host where
  decodes : NoiseConfig → Bool
  ready : ClientServiceConfig → Bool

/-- A live session, as the client sees it: its key, the token it authenticates with, the source
of its service ids, and every request handed to it. -/
structure SessionEntry where
  key : SessionKey
  token : String
  nextId : Nat
  requests : List SessionRequest
  deriving DecidableEq

/-- Where one service was placed. -/
structure ServiceLocation where
  session : SessionKey
  id : ServiceId
  deriving DecidableEq

/-- The client. -/
structure ClientState where
  config : ClientConfig
  sessions : List SessionEntry
  services : Table String ServiceLocation

namespace SessionEntry

/-- `handle.register` and `handle.deregister`. -/
def send (e : SessionEntry) (r : SessionRequest) : SessionEntry :=
  { e with requests := e.requests ++ [r] }

/-- Hand out the next service id: a `u32` that wraps. -/
def bump (e : SessionEntry) : SessionEntry := { e with nextId := (e.nextId + 1) % 2 ^ 32 }

end SessionEntry

namespace ClientState

/-- Apply `f` to the session that has the key. -/
def onSession (c : ClientState) (key : SessionKey) (f : SessionEntry → SessionEntry) : ClientState :=
  { c with sessions := c.sessions.map fun e => if e.key = key then f e else e }

/-- `session_index`: the session of the key is started on first use, with the client-wide
token. -/
def sessionIndex (c : ClientState) (key : SessionKey) : ClientState :=
  if c.sessions.any (·.key = key) then c
  else
    { c with
      sessions := c.sessions ++
        [{ key := key, token := c.config.defaultToken, nextId := 0, requests := [] }] }

/-- The id of the next service on the session of the key. -/
def nextId (c : ClientState) (key : SessionKey) : ServiceId :=
  ((c.sessions.find? (·.key = key)).map SessionEntry.nextId).getD 0

/-- `reap_idle_sessions`: stop every session no service dials any more. -/
def reapIdleSessions (c : ClientState) : ClientState :=
  { c with
    sessions := c.sessions.filter fun e => c.services.entries.any fun l => l.2.session = e.key }

/-- A service that moved to another server: its public endpoint on the old one has to go. -/
def leaveSession (c : ClientState) (previous : Option ServiceLocation) (key : SessionKey) : ClientState :=
  match previous with
  | none => c
  | some loc =>
    if loc.session = key then c else c.onSession loc.session (·.send (.deregister loc.id))

/-- `add_service`; `none` where it returns an error. -/
def addService (host : Host) (c : ClientState) (cfg : ClientServiceConfig) : Option ClientState :=
  if cfg.serviceType = .transparent && !host.ready cfg then none
  else
    let key := sessionKey c.config cfg
    let previous := c.services.lookup cfg.name
    let c1 := (c.leaveSession previous key).sessionIndex key
    -- on the same session the service keeps its id
    let kept := previous.filter (·.session = key)
    let id := (kept.map ServiceLocation.id).getD (c1.nextId key)
    let c2 := if kept.isSome then c1 else c1.onSession key SessionEntry.bump
    (slotFor host.decodes c.config cfg id).map fun slot =>
      let c3 := c2.onSession key (·.send (.register slot))
      { c3 with services := c.services.insert cfg.name { session := key, id := id }
        : ClientState }.reapIdleSessions

/-- `handle_hot_reload`, for a deleted service. -/
def deleteService (c : ClientState) (name : String) : ClientState :=
  match c.services.lookup name with
  | none => c.reapIdleSessions
  | some loc =>
    let c1 := c.onSession loc.session (·.send (.deregister loc.id))
    { c1 with services := c.services.erase name : ClientState }.reapIdleSessions

end ClientState

/-- What the configuration does to the client, at its start and at every hot reload. -/
inductive Change
  | add (cfg : ClientServiceConfig)
  | delete (name : String)
  deriving DecidableEq

/-- One change. -/
def ClientState.apply (host : Host) (c : ClientState) : Change → Option ClientState
  | .add cfg => c.addService host cfg
  | .delete name => some (c.deleteService name)

/-- The runs of a client with this configuration. -/
def clients (host : Host) (config : ClientConfig) : Lts ClientState Change where
  init c := c = { config := config, sessions := [], services := ∅ }
  step c change c' := c.apply host change = some c'

/-! ## 2. The two credentials and their checks -/

section Credentials

variable {D : Type} [DecidableEq D] (digest : List UInt8 → D)

/-- A token bound to a nonce. -/
def bound (token : String) (nonce : List UInt8) : D :=
  digest (token.toUTF8.data.toList ++ nonce)

/-- `handshake`: what the session proves. -/
def SessionEntry.auth (e : SessionEntry) (nonce : List UInt8) : D := bound digest e.token nonce

/-- `registration`: what the service proves. -/
def ServiceSlot.auth (slot : ServiceSlot) (nonce : List UInt8) : D := bound digest slot.token nonce

/-- `do_session_handshake`: the session key of a server with this default token. -/
def serverSessionKey (serverToken : String) (nonce : List UInt8) : D :=
  bound digest serverToken nonce

/-- `do_session_handshake`: the server's answer to the session's credential. -/
def sessionAccepted (serverToken : String) (nonce : List UInt8) (auth : D) : Bool :=
  auth = serverSessionKey digest serverToken nonce

/-- `SessionCtx::register`: the server's answer to a service's credential.  The server owns no
per-service token table, so this is the session key again. -/
def registrationAccepted (serverToken : String) (nonce : List UInt8) (auth : D) : Bool :=
  auth = serverSessionKey digest serverToken nonce

/-- Both checks pass, whatever nonce the server issues, where the session dials the server with
this default token. -/
def Accepted (serverToken : String) (e : SessionEntry) (slot : ServiceSlot) : Prop :=
  ∀ nonce,
    sessionAccepted digest serverToken nonce (e.auth digest nonce) = true ∧
      registrationAccepted digest serverToken nonce (slot.auth digest nonce) = true

/-- The hash tells two tokens apart: under some nonce their digests differ. -/
def TellsApart : Prop :=
  ∀ a b : String, (∀ nonce, bound digest a nonce = bound digest b nonce) → a = b

variable {digest}

/-- Both checks compare with the server's own token. -/
theorem accepted_of_tokens {serverToken : String} {e : SessionEntry} {slot : ServiceSlot}
    (he : e.token = serverToken) (hs : slot.token = serverToken) :
    Accepted digest serverToken e slot := by
  intro nonce
  constructor
  · exact decide_eq_true (by rw [SessionEntry.auth, he, serverSessionKey])
  · exact decide_eq_true (by rw [ServiceSlot.auth, hs, serverSessionKey])

/-- A session that is never refused carries the server's token. -/
theorem token_of_accepted (hd : TellsApart digest) {serverToken : String} {e : SessionEntry}
    {slot : ServiceSlot} (h : Accepted digest serverToken e slot) : e.token = serverToken :=
  hd _ _ fun nonce => of_decide_eq_true (h nonce).1

end Credentials

/-! ## 3. Where a service is placed -/

/-- The service's slot was handed to the session. -/
def SessionEntry.Carries (e : SessionEntry) (slot : ServiceSlot) : Prop :=
  .register slot ∈ e.requests

/-- A session of the client: the client-wide token, and only services of its key, each with its
own effective token. -/
structure SessionEntry.Ordinary (config : ClientConfig) (e : SessionEntry) : Prop where
  token : e.token = config.defaultToken
  carried : ∀ slot, e.Carries slot →
    sessionKey config slot.service = e.key ∧ slot.token = config.tokenOf slot.service

/-- The client's configuration is what it started with, and its sessions are ordinary. -/
structure ClientState.Ordinary (config : ClientConfig) (c : ClientState) : Prop where
  config_eq : c.config = config
  sessions : ∀ e ∈ c.sessions, e.Ordinary config

namespace SessionEntry.Ordinary

variable {config : ClientConfig} {e : SessionEntry}

theorem bump (h : e.Ordinary config) : e.bump.Ordinary config := ⟨h.token, h.carried⟩

theorem send_deregister (h : e.Ordinary config) (id : ServiceId) :
    (e.send (.deregister id)).Ordinary config := by
  refine ⟨h.token, fun slot hs => ?_⟩
  obtain hs | hs := List.mem_append.mp hs
  · exact h.carried slot hs
  · cases List.mem_singleton.mp hs

theorem send_register (h : e.Ordinary config) {slot : ServiceSlot}
    (hkey : sessionKey config slot.service = e.key)
    (htoken : slot.token = config.tokenOf slot.service) :
    (e.send (.register slot)).Ordinary config := by
  refine ⟨h.token, fun q hq => ?_⟩
  obtain hq | hq := List.mem_append.mp hq
  · exact h.carried q hq
  · cases List.mem_singleton.mp hq
    exact ⟨hkey, htoken⟩

end SessionEntry.Ordinary

namespace ClientState.Ordinary

variable {config : ClientConfig} {c : ClientState}

theorem onSession {key : SessionKey} {f : SessionEntry → SessionEntry} (h : c.Ordinary config)
    (hf : ∀ e, e.key = key → e.Ordinary config → (f e).Ordinary config) :
    (c.onSession key f).Ordinary config := by
  refine ⟨h.config_eq, fun e he => ?_⟩
  obtain ⟨e0, he0, rfl⟩ := List.mem_map.mp he
  split
  case isTrue hk => exact hf e0 hk (h.sessions e0 he0)
  case isFalse => exact h.sessions e0 he0

/-- A session that is started has the client-wide token and carries nothing. -/
theorem sessionIndex (h : c.Ordinary config) (key : SessionKey) :
    (c.sessionIndex key).Ordinary config := by
  unfold ClientState.sessionIndex
  split
  · exact h
  · refine ⟨h.config_eq, fun e he => ?_⟩
    obtain he | he := List.mem_append.mp he
    · exact h.sessions e he
    · cases List.mem_singleton.mp he
      exact ⟨by rw [h.config_eq], by rintro slot ⟨⟩⟩

theorem leaveSession (h : c.Ordinary config) (previous : Option ServiceLocation)
    (key : SessionKey) : (c.leaveSession previous key).Ordinary config := by
  unfold ClientState.leaveSession
  split
  · exact h
  · split
    · exact h
    · exact h.onSession fun _ _ he => he.send_deregister _

/-- Which services there are is no part of it, and neither is how many sessions stay. -/
theorem reapIdleSessions (h : c.Ordinary config) (services : Table String ServiceLocation) :
    ({ c with services := services } : ClientState).reapIdleSessions.Ordinary config :=
  ⟨h.config_eq, fun e he => h.sessions e (List.mem_filter.mp he).1⟩

theorem addService {host : Host} {cfg : ClientServiceConfig} {c' : ClientState}
    (h : c.Ordinary config) (hs : c.addService host cfg = some c') : c'.Ordinary config := by
  unfold ClientState.addService at hs
  split at hs
  · cases hs
  · obtain ⟨slot, hslot, rfl⟩ := Option.map_eq_some_iff.mp hs
    obtain ⟨-, rfl⟩ := slotFor_eq_some.mp hslot
    refine (Ordinary.onSession ?_ fun e hk he => he.send_register ?_ ?_).reapIdleSessions _
    · split
      · exact (h.leaveSession _ _).sessionIndex _
      · exact ((h.leaveSession _ _).sessionIndex _).onSession fun _ _ he => he.bump
    · rw [hk, h.config_eq]
    · dsimp only
      rw [h.config_eq]

theorem deleteService (h : c.Ordinary config) (name : String) :
    (c.deleteService name).Ordinary config := by
  unfold ClientState.deleteService
  split
  · exact h.reapIdleSessions c.services
  · exact (h.onSession fun _ _ he => he.send_deregister _).reapIdleSessions _

/-- **The run lemma.**  In every state of every client. -/
theorem of_reach {host : Host} (h : (clients host config).Reach c) : c.Ordinary config := by
  refine h.invariant ?_ ?_
  · rintro c rfl
    exact ⟨rfl, by rintro e ⟨⟩⟩
  · rintro c (cfg | name) c' hc hs
    · exact hc.addService hs
    · cases hs
      exact hc.deleteService name

end ClientState.Ordinary

/-! ## 4. Every client -/

/-- **Per-service credentials work exactly for services that present the client-wide token.**
For every configuration, every sequence of added and deleted services, every assignment of
default tokens to servers (by the endpoint dialed) and every service placed on a session: the
property "if the service's effective token is the default token of the server at its effective
control endpoint, then neither the handshake of its session nor its registration is refused for
a wrong token" holds if and only if, whenever the premise holds, the service's effective token is
the client-wide default token. -/
theorem credentials_accepted_iff {D : Type} [DecidableEq D] {digest : List UInt8 → D}
    (hd : TellsApart digest) {host : Host} {config : ClientConfig} (tokens : String → String)
    {c : ClientState} (hc : (clients host config).Reach c) {e : SessionEntry} (he : e ∈ c.sessions)
    {slot : ServiceSlot} (hs : e.Carries slot) :
    (config.tokenOf slot.service = tokens (slot.service.endpointWith config.defaultRemoteAddr) →
        Accepted digest (tokens e.key.addr) e slot) ↔
      (config.tokenOf slot.service
          = tokens (slot.service.endpointWith config.defaultRemoteAddr) →
        config.tokenOf slot.service = config.defaultToken) := by
  have ho := (ClientState.Ordinary.of_reach hc).sessions e he
  obtain ⟨hkey, htoken⟩ := ho.carried slot hs
  have haddr : slot.service.endpointWith config.defaultRemoteAddr = e.key.addr := by
    rw [← hkey]
    rfl
  rw [haddr]
  constructor
  · intro h heq
    rw [heq, ← token_of_accepted hd (h heq), ho.token]
  · intro h heq
    exact accepted_of_tokens (by rw [ho.token, ← h heq, heq]) (htoken.trans heq)

/-! ## 5. Two servers, one token each -/

/-- A client of one server. -/
def officeClient : ClientConfig where
  defaultToken := "secret"
  defaultRemoteAddr := "192.0.2.1:2333"
  defaultDataAddr := none
  noise := { keys := { publicKey := "A", privateKey := "B" }, dataEnable := none }

/-- A service that inherits the client-wide token and server. -/
def plainService : ClientServiceConfig where
  serviceType := .tcp
  name := "web"
  remoteBindAddr := "0.0.0.0:443"
  token := none
  remoteAddr := none
  noise := none
  transparentLanes := 0

/-- A service on another server, with that server's token. -/
def foreignService : ClientServiceConfig :=
  { plainService with
    name := "foreign", token := some "other", remoteAddr := some "198.51.100.7:2333" }

/-- The default token of each server. -/
def serverTokens (addr : String) : String :=
  if addr = "198.51.100.7:2333" then "other" else "secret"

/-- A host on which every key pair decodes. -/
def officeHost : Host := { decodes := fun _ => true, ready := fun _ => true }

/-- The digest that tells every two inputs apart. -/
def plainDigest (bytes : List UInt8) : List UInt8 := bytes

theorem tellsApart_plainDigest : TellsApart plainDigest := by
  intro a b h
  have hbytes := h []
  rw [bound, bound, plainDigest, plainDigest, List.append_nil, List.append_nil] at hbytes
  have hdata : a.toUTF8.data = b.toUTF8.data := Array.ext' hbytes
  exact String.toByteArray_inj.mp (ByteArray.ext hdata)

/-- The client with these two services, on the sessions `add_service` places them on. -/
def placed (cfgs : List ClientServiceConfig) : Option ClientState :=
  Lts.runWith (ClientState.apply officeHost) (fun _ _ => true)
    { config := officeClient, sessions := [], services := ∅ } (cfgs.map .add)

theorem reach_placed {cfgs : List ClientServiceConfig} {c : ClientState}
    (h : placed cfgs = some c) : (clients officeHost officeClient).Reach c :=
  Lts.Reach.of_restrict (C := fun _ _ => True)
    (Lts.Reach.runWith (fun _ _ _ hs => hs) (fun _ _ _ => trivial) (Lts.Reach.init rfl) h)

/-- Some service with this configuration is carried by a session to this endpoint. -/
def carriedAt (cfg : ClientServiceConfig) (addr : String) (c : ClientState) : Bool :=
  c.sessions.any fun e => e.key.addr = addr && e.requests.any fun
    | .register slot => slot.service = cfg
    | _ => false

theorem carriedAt_spec {cfg : ClientServiceConfig} {addr : String} {c : ClientState}
    (h : carriedAt cfg addr c = true) :
    ∃ e ∈ c.sessions, e.key.addr = addr ∧ ∃ slot, e.Carries slot ∧ slot.service = cfg := by
  obtain ⟨e, he, hand⟩ := List.any_eq_true.mp h
  obtain ⟨haddr, hany⟩ := (Bool.and_eq_true _ _).mp hand
  obtain ⟨r, hr, hreg⟩ := List.any_eq_true.mp hany
  cases r with
  | register slot =>
    exact ⟨e, he, of_decide_eq_true haddr, slot, hr, of_decide_eq_true hreg⟩
  | deregister id => cases hreg
  | drainLane id lane cancel => cases hreg

theorem credentials_accepted_inherited :
    ∃ c e slot, (clients officeHost officeClient).Reach c ∧ e ∈ c.sessions ∧ e.Carries slot ∧
      officeClient.tokenOf slot.service
        = serverTokens (slot.service.endpointWith officeClient.defaultRemoteAddr) ∧
      Accepted plainDigest (serverTokens e.key.addr) e slot := by
  have hrun : (placed [foreignService, plainService]).any (carriedAt plainService "192.0.2.1:2333")
      = true := by decide +kernel
  obtain ⟨c, hc, hend⟩ := (Option.any_eq_true ..).mp hrun
  obtain ⟨e, he, haddr, slot, hs, hcfg⟩ := carriedAt_spec hend
  have htoken : officeClient.tokenOf slot.service
      = serverTokens (slot.service.endpointWith officeClient.defaultRemoteAddr) := by
    rw [hcfg]
    decide
  refine ⟨c, e, slot, reach_placed hc, he, hs, htoken, ?_⟩
  refine (credentials_accepted_iff tellsApart_plainDigest serverTokens (reach_placed hc) he hs).mpr
    (fun _ => ?_) htoken
  rw [hcfg]
  decide

/-- **A service with the right token of its own is refused with its session.**  Its effective
token is the default token of the server it dials; the session it is placed on proves the
client-wide token there. -/
theorem own_token_refused :
    ∃ c e slot, (clients officeHost officeClient).Reach c ∧ e ∈ c.sessions ∧ e.Carries slot ∧
      officeClient.tokenOf slot.service
        = serverTokens (slot.service.endpointWith officeClient.defaultRemoteAddr) ∧
      ¬ Accepted plainDigest (serverTokens e.key.addr) e slot := by
  have hrun : (placed [plainService, foreignService]).any
      (carriedAt foreignService "198.51.100.7:2333") = true := by decide +kernel
  obtain ⟨c, hc, hend⟩ := (Option.any_eq_true ..).mp hrun
  obtain ⟨e, he, haddr, slot, hs, hcfg⟩ := carriedAt_spec hend
  refine ⟨c, e, slot, reach_placed hc, he, hs, by rw [hcfg]; decide, fun ha => ?_⟩
  have hwrong : e.token = "other" := by
    rw [token_of_accepted tellsApart_plainDigest ha, haddr]
    decide
  have hdefault := ((ClientState.Ordinary.of_reach (reach_placed hc)).sessions e he).token
  rw [hwrong] at hdefault
  exact absurd hdefault (by decide)

end Molehill.Client
