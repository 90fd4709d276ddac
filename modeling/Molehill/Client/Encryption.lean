/-
# Which data channels are encrypted

A service's effective `data_enable` says whether its data channels are wrapped in Noise.  A
direct channel is dialed with the service's own settings.  A multiplexed one rides the session's
tunnel pool, and `service_pool` finds that pool by the resolved data endpoint alone: it is
dialed with the settings of whichever service was activated first.  So every channel follows its
own service's setting, in every run, exactly when no two services that multiplex and may reach
one data endpoint disagree (`encryption_follows_iff`).

The services, the client's settings and the resolver are those of a `Deployment`: the slots a
session is asked to register are the ones `add_service` builds from them, under any ids, in any
order and any number of times, and a data endpoint resolves to what the resolver may answer.
-/
import Molehill.Client.Session

namespace Molehill.Client

open Lib Molehill.Pool

/-! ## 1. The services of a session -/

/-- The client's settings, the services of one session, and the environment: the base64 check of
a key pair, and the socket addresses a name may resolve to. -/
structure Deployment where
  config : ClientConfig
  services : List ClientServiceConfig
  decodes : NoiseConfig → Bool
  resolves : String → String → Prop

namespace Deployment

variable (d : Deployment)

/-- The slots `add_service` builds. -/
def Offers (slot : ServiceSlot) : Prop :=
  ∃ s ∈ d.services, ∃ id, slotFor d.decodes d.config s id = some slot

/-- The events this deployment admits: only its services are registered, and a name resolves to
what the resolver may answer. -/
def Admits (s : ClientSession) : Event → Prop
  | .ask (.register slot) => d.Offers slot
  | .activated addr =>
    ∀ id slot todo, s.phase = .activating id slot todo → d.resolves slot.data.addr addr
  | _ => True

/-- The runs of the session. -/
def runs : Lts ClientSession Event where
  init s := s = .new
  step s e s' := d.Admits s e ∧ sessionStep s e = some s'

/-- The channel is wrapped in Noise, over whichever carrier, if and only if its service's
effective `data_enable` says so. -/
def Follows (ch : DataChannel) : Prop :=
  ∀ carrier, (ch.ride.layer carrier).isSome = d.config.dataEnable ch.service.service

/-- The service can start: its key pair decodes. -/
def Starts (s : ClientServiceConfig) : Prop :=
  d.decodes (ClientTransport.noiseKeys d.config s) = true

/-- The data endpoints of the two services may resolve to one address. -/
def Meet (a b : ClientServiceConfig) : Prop :=
  ∃ addr, d.resolves (a.endpointWith d.config.dataAddr) addr ∧
    d.resolves (b.endpointWith d.config.dataAddr) addr

/-- Services that multiplex and may reach one data endpoint agree on `data_enable`. -/
def Agree : Prop :=
  ∀ a ∈ d.services, ∀ b ∈ d.services, a.usesPool → b.usesPool → d.Starts a → d.Starts b →
    d.Meet a b → d.config.dataEnable a = d.config.dataEnable b

end Deployment

/-! ## 2. A slot's own settings -/

namespace Deployment

variable {d : Deployment}

/-- What a slot of the deployment says: it is one of its services, with that service's stack. -/
theorem Offers.spec {slot : ServiceSlot} (h : d.Offers slot) :
    slot.service ∈ d.services ∧ d.Starts slot.service ∧
      slot.data = DataOpts.forService d.config slot.service ∧
      slot.transport = if d.config.dataEnable slot.service then
        .noise (ClientTransport.noiseKeys d.config slot.service) else .plain := by
  obtain ⟨s, hs, id, heq⟩ := h
  obtain ⟨hk, rfl⟩ := slotFor_eq_some.mp heq
  exact ⟨hs, hk, rfl, rfl⟩

/-- **A dial of a service's own settings is wrapped as the service says**, over either carrier. -/
theorem Offers.layer_dial {slot : ServiceSlot} (h : d.Offers slot) (carrier : Carrier) :
    (slot.dial.layer carrier).isSome = d.config.dataEnable slot.service := by
  obtain ⟨-, -, hdata, htransport⟩ := h.spec
  cases carrier with
  | tcp =>
    rw [ServiceSlot.dial, Dial.layer, htransport]
    cases d.config.dataEnable slot.service <;> rfl
  | kcp =>
    rw [ServiceSlot.dial, Dial.layer, hdata, DataOpts.forService]
    change (if d.config.dataEnable slot.service then _ else _ : Option NoiseConfig).isSome = _
    cases d.config.dataEnable slot.service <;> rfl

/-- A channel on a connection of its own follows its service. -/
theorem Offers.follows_direct {slot : ServiceSlot} (h : d.Offers slot) :
    d.Follows (spawnDataChannel slot none) := h.layer_dial

end Deployment

/-! ## 3. The invariant -/

/-- Where the session's pools come from: each was dialed with the settings of a service that
multiplexes, to an address its endpoint resolved to. -/
def Deployment.PoolsFrom (d : Deployment) (pools : Table String Dial) : Prop :=
  ∀ key pool, pools.lookup key = some pool →
    ∃ slot addr, d.Offers slot ∧ slot.data.enabled = true ∧ d.resolves slot.data.addr addr ∧
      key = ClientSession.poolKey addr ∧ pool = slot.dial

/-- A request names a slot of the deployment. -/
def Deployment.Requests (d : Deployment) (r : SessionRequest) : Prop :=
  ∀ slot, r = .register slot → d.Offers slot

/-- An entry is of the deployment, and a live one opens channels that follow their service. -/
structure Deployment.GoodEntry (d : Deployment) (e : ServiceEntry) : Prop where
  slot : d.Offers e.slot
  active : ∀ data, e.state = .active data → d.Follows data.openDataChannel

/-- The state of a session all of whose channels follow their service. -/
structure Deployment.Good (d : Deployment) (s : ClientSession) : Prop where
  queue : ∀ r ∈ s.queue, d.Requests r
  services : ∀ id e, s.services.lookup id = some e → d.GoodEntry e
  activating : ∀ id slot todo, s.phase = .activating id slot todo → d.Offers slot
  pools : d.PoolsFrom s.pools
  claims : ∀ slot ∈ s.claims, d.Offers slot
  opened : ∀ ch ∈ s.opened, d.Follows ch

namespace Deployment

variable {d : Deployment}

/-- Two slots of the deployment that multiplex to one address agree. -/
theorem Agree.slots (ha : d.Agree) {p q : ServiceSlot} {addr : String} (hp : d.Offers p)
    (hq : d.Offers q) (hpe : p.data.enabled = true) (hqe : q.data.enabled = true)
    (hpr : d.resolves p.data.addr addr) (hqr : d.resolves q.data.addr addr) :
    d.config.dataEnable p.service = d.config.dataEnable q.service := by
  obtain ⟨hps, hpk, hpd, -⟩ := hp.spec
  obtain ⟨hqs, hqk, hqd, -⟩ := hq.spec
  rw [hpd] at hpe hpr
  rw [hqd] at hqe hqr
  exact ha _ hps _ hqs hpe hqe hpk hqk ⟨addr, hpr, hqr⟩

/-- **One activation.**  The service's pool may be another service's, but then the two agree. -/
theorem Agree.activeService (ha : d.Agree) {pools : Table String Dial} {slot : ServiceSlot}
    {addr : String} (hp : d.PoolsFrom pools) (hs : d.Offers slot)
    (hr : d.resolves slot.data.addr addr) :
    d.Follows (ClientSession.activeService pools addr slot).1.openDataChannel ∧
      d.PoolsFrom (ClientSession.activeService pools addr slot).2 := by
  unfold ClientSession.activeService
  split
  case isFalse => exact ⟨hs.follows_direct, hp⟩
  case isTrue he =>
    unfold ClientSession.servicePool
    split
    case h_1 pool hl =>
      obtain ⟨first, addr', hf, hfe, hfr, hkey, rfl⟩ := hp _ _ hl
      cases (String.append_right_inj "session:").mp hkey
      refine ⟨fun carrier => ?_, hp⟩
      calc (first.dial.layer carrier).isSome
          = d.config.dataEnable first.service := hf.layer_dial carrier
        _ = d.config.dataEnable slot.service := ha.slots hf hs hfe he hfr hr
    case h_2 =>
      refine ⟨hs.layer_dial, ?_⟩
      intro key pool hl
      rw [Table.lookup_insert_eq] at hl
      split at hl
      case isTrue hk =>
        cases hl
        exact ⟨slot, addr, hs, he, hr, hk, rfl⟩
      case isFalse => exact hp key pool hl

/-- Putting a good entry into the map keeps every entry good. -/
theorem goodEntry_insert {services : Table ServiceId ServiceEntry} {j : ServiceId}
    {entry : ServiceEntry} (h : ∀ id e, services.lookup id = some e → d.GoodEntry e)
    (he : d.GoodEntry entry) :
    ∀ id e, (services.insert j entry).lookup id = some e → d.GoodEntry e := by
  intro id e hl
  rw [Table.lookup_insert_eq] at hl
  split at hl
  · cases hl
    exact he
  · exact h id e hl

theorem goodEntry_erase {services : Table ServiceId ServiceEntry} {j : ServiceId}
    (h : ∀ id e, services.lookup id = some e → d.GoodEntry e) :
    ∀ id e, (services.erase j).lookup id = some e → d.GoodEntry e := by
  intro id e hl
  exact h id e (Table.lookup_of_erase hl).2

/-- An entry in a state other than active is good when its slot is. -/
theorem GoodEntry.of_idle {e : ServiceEntry} (hs : d.Offers e.slot)
    (h : ∀ data, e.state ≠ .active data) : d.GoodEntry e :=
  ⟨hs, fun data hd => absurd hd (h data)⟩

theorem GoodEntry.reset {e : ServiceEntry} (h : d.GoodEntry e) : d.GoodEntry e.reset := by
  unfold ServiceEntry.reset
  split
  · exact h
  · exact .of_idle h.slot (by simp)

/-- One request keeps the entries good. -/
theorem goodEntry_applyRequest {services : Table ServiceId ServiceEntry} {r : SessionRequest}
    (h : ∀ id e, services.lookup id = some e → d.GoodEntry e) (hr : d.Requests r) :
    ∀ id e, (ClientSession.applyRequest services r).lookup id = some e → d.GoodEntry e := by
  cases r with
  | register slot => exact goodEntry_insert h (.of_idle (hr slot rfl) (by simp))
  | deregister j => exact goodEntry_erase h
  | drainLane j lane cancel => exact h

theorem goodEntry_applyRequests {services : Table ServiceId ServiceEntry}
    (queue : List SessionRequest)
    (h : ∀ id e, services.lookup id = some e → d.GoodEntry e) (hr : ∀ r ∈ queue, d.Requests r) :
    ∀ id e, (queue.foldl ClientSession.applyRequest services).lookup id = some e →
      d.GoodEntry e := by
  induction queue generalizing services with
  | nil => exact h
  | cons r rest ih =>
    exact ih (goodEntry_applyRequest h (hr r List.mem_cons_self))
      (fun q hq => hr q (List.mem_cons_of_mem r hq))

/-- A phase outside `activate` holds no slot. -/
theorem offers_of_not_activating {p : Phase} (hp : p.isActivating = false) :
    ∀ id slot todo, p = .activating id slot todo → d.Offers slot := by
  rintro id slot todo rfl
  cases hp

/-- What `activate` holds is in the hands of nothing else, so a good session stays good through
every turn that does not activate. -/
theorem Good.turn (ha : d.Agree) {s s' : ClientSession} {e : Event} (hg : d.Good s)
    (hadm : d.Admits s e) (ht : Turn s e s') : d.Good s' := by
  cases ht with
  | asked r =>
    refine { hg with queue := fun q hq => ?_ }
    obtain hq | hq := List.mem_append.mp hq
    · exact hg.queue q hq
    · cases List.mem_singleton.mp hq
      rintro slot rfl
      exact hadm
  | connected h =>
    refine
      { queue := by rintro r ⟨⟩
        services := fun id e hl => ?_
        activating := by rintro id slot todo ⟨⟩
        pools := by rintro key pool ⟨⟩
        claims := hg.claims
        opened := hg.opened }
    have hl : (s.applyPendingRequests.services.lookup id).map ServiceEntry.reset = some e :=
      (Table.lookup_mapVals _ _ _).symm.trans hl
    obtain ⟨entry, hentry, rfl⟩ := Option.map_eq_some_iff.mp hl
    exact (goodEntry_applyRequests s.queue hg.services hg.queue id entry hentry).reset
  | moved p drops he h hp =>
    exact { hg with activating := offers_of_not_activating hp }
  | reRegistered p drops h hp hl =>
    have he : d.GoodEntry { slot := _, state := .registering } :=
      .of_idle (hg.services _ _ hl).slot (by simp)
    exact
      { hg with
        activating := offers_of_not_activating hp
        services := goodEntry_insert hg.services he }
  | took p h hp hq =>
    have hr := hg.queue _ (hq ▸ List.mem_cons_self)
    exact
      { hg with
        activating := offers_of_not_activating hp
        queue := fun q hmem => hg.queue q (hq ▸ List.mem_cons_of_mem _ hmem)
        services := goodEntry_applyRequest hg.services hr }
  | activating h hl =>
    refine { hg with activating := ?_, services := goodEntry_erase hg.services }
    rintro id slot todo ⟨⟩
    exact (hg.services _ _ hl).slot
  | @rejected j todo h =>
    unfold ClientSession.reject
    split
    case h_1 => exact { hg with activating := by rintro id slot todo ⟨⟩ }
    case h_2 entry hl =>
      have he : d.GoodEntry { entry with state := .rejected } :=
        .of_idle (hg.services _ _ hl).slot (by simp)
      exact
        { hg with
          activating := by rintro id slot todo ⟨⟩
          services := goodEntry_insert hg.services he }
  | opened hl he =>
    refine { hg with opened := fun ch hch => ?_ }
    obtain hch | hch := List.mem_append.mp hch
    · exact hg.opened ch hch
    · cases List.mem_singleton.mp hch
      exact (hg.services _ _ hl).active _ he
  | @activated j slot todo addr h =>
    have hs := hg.activating _ _ _ h
    obtain ⟨hf, hp⟩ := ha.activeService hg.pools hs (hadm _ _ _ h)
    refine
      { queue := hg.queue
        services := goodEntry_insert hg.services ⟨hs, ?_⟩
        activating := by rintro id slot todo ⟨⟩
        pools := hp
        claims := fun q hq => ?_
        opened := fun ch hch => ?_ }
    · rintro data ⟨⟩
      exact hf
    · dsimp only [ClientSession.finishActivate] at hq
      split at hq
      · obtain rfl | hq := List.mem_cons.mp hq
        · exact hs
        · exact hg.claims q hq
      · exact hg.claims q hq
    · obtain hch | hch := List.mem_append.mp hch
      · exact hg.opened ch hch
      · cases List.eq_of_mem_replicate hch
        exact hf
  | activationFailed addr h =>
    exact { hg with activating := by rintro id slot todo ⟨⟩ }
  | @laneDialed slot h =>
    refine { hg with opened := fun ch hch => ?_ }
    obtain hch | hch := List.mem_append.mp hch
    · exact hg.opened ch hch
    · cases List.mem_singleton.mp hch
      exact (hg.claims slot h).follows_direct

/-- **The run lemma.**  Where the services agree, every state of every run is good. -/
theorem Good.of_reach (ha : d.Agree) {s : ClientSession} (h : d.runs.Reach s) : d.Good s := by
  refine h.invariant ?_ ?_
  · rintro s rfl
    exact
      { queue := by rintro r ⟨⟩
        services := by rintro id e ⟨⟩
        activating := by rintro id slot todo ⟨⟩
        pools := by rintro key pool ⟨⟩
        claims := by rintro slot ⟨⟩
        opened := by rintro ch ⟨⟩ }
  · rintro s e s' hg ⟨hadm, hs⟩
    exact hg.turn ha hadm (Turn.of_step hs)

/-! ## 4. A run in which two services share a pool -/

/-- One more step of a run. -/
theorem reach_step {s s' : ClientSession} (hr : d.runs.Reach s) (e : Event)
    (hadm : d.Admits s e) (hs : sessionStep s e = some s') : d.runs.Reach s' :=
  hr.step ⟨hadm, hs⟩

/-- A connected session with nothing to do. -/
structure Idle (s : ClientSession) : Prop where
  phase : s.phase = .sweep []
  queue : s.queue = []
  drops : s.pendingDrops = []

/-- An idle session registers and activates one more service: asked for, taken from the queue,
accepted by the server, resolved, and back in the select loop. -/
theorem Idle.activates {s : ClientSession} (hr : d.runs.Reach s) (hi : Idle s)
    {slot : ServiceSlot} (ho : d.Offers slot) {addr : String}
    (hres : d.resolves slot.data.addr addr) :
    ∃ s', d.runs.Reach s' ∧ Idle s' ∧
      s'.pools = (ClientSession.activeService s.pools addr slot).2 ∧
      s'.services.lookup slot.id
        = some { slot := slot
                 state := .active (ClientSession.activeService s.pools addr slot).1 } := by
  obtain ⟨phase, queue, services, drops, pools, claims, opened⟩ := s
  obtain ⟨rfl, rfl, rfl⟩ := hi
  -- `register` finds the entry it has just put in, and so does `activate`
  have htake : ∀ (services' : Table ServiceId ServiceEntry) (entry : ServiceEntry),
      services'.lookup slot.id = some entry →
      (ClientSession.register ⟨.sweep [], [], services', [], pools, claims, opened⟩ slot.id true [])
        = ⟨.verdict slot.id [], [], services', [], pools, claims, opened⟩ := by
    intro services' entry hl
    simp [ClientSession.register, hl]
  have hstart : ∀ (services' : Table ServiceId ServiceEntry) (entry : ServiceEntry),
      services'.lookup slot.id = some entry →
      (ClientSession.startActivate
          ⟨.verdict slot.id [], [], services', [], pools, claims, opened⟩ slot.id [])
        = ⟨.activating slot.id entry.slot [], [], services'.erase slot.id, [], pools, claims,
            opened⟩ := by
    intro services' entry hl
    simp [ClientSession.startActivate, hl]
  have hl : (services.insert slot.id { slot := slot, state := .registering }).lookup slot.id
      = some { slot := slot, state := .registering } := AList.lookup_insert _
  have hresolved : ∀ id q todo, Phase.activating slot.id slot [] = .activating id q todo →
      d.resolves q.data.addr addr := by
    rintro id q todo ⟨⟩
    exact hres
  have h1 := reach_step hr (.ask (.register slot)) ho rfl
  have h2 := reach_step h1 (.take true) trivial (congrArg some (htake _ _ hl))
  have h3 := reach_step h2 (.answer .ok) trivial (congrArg some (hstart _ _ hl))
  have h4 := reach_step h3 (.activated addr) hresolved rfl
  have h5 := reach_step h4 (.drain true) trivial rfl
  exact ⟨_, h5, ⟨rfl, rfl, rfl⟩, rfl, AList.lookup_insert _⟩

/-- The first connection of a session without services is idle, and has no pool. -/
theorem reach_idle (d : Deployment) : ∃ s, d.runs.Reach s ∧ Idle s ∧ s.pools = ∅ :=
  ⟨_, reach_step (Lts.Reach.init rfl) .connect trivial rfl, ⟨rfl, rfl, rfl⟩, rfl⟩

/-- A service that multiplexes, activated where there is no pool yet, leaves its own behind. -/
theorem activeService_first {slot : ServiceSlot} (he : slot.data.enabled = true) (addr : String) :
    (ClientSession.activeService ∅ addr slot).2.lookup (ClientSession.poolKey addr)
      = some slot.dial := by
  rw [ClientSession.activeService, if_pos he]
  exact AList.lookup_insert _

/-- A service that multiplexes rides the pool that is there. -/
theorem activeService_second {slot : ServiceSlot} {pools : Table String Dial} {addr : String}
    {pool : Dial} (he : slot.data.enabled = true)
    (hp : pools.lookup (ClientSession.poolKey addr) = some pool) :
    (ClientSession.activeService pools addr slot).1.openDataChannel
      = { service := slot, ride := pool } := by
  simp only [ClientSession.activeService, if_pos he, ClientSession.servicePool, hp]
  rfl

/-- **A shared pool is the first service's.**  Of two services that multiplex and resolve to one
address, a channel of the second is dialed with the settings of the first. -/
theorem opened_on_first {p q : ServiceSlot} {addr : String} (hp : d.Offers p) (hq : d.Offers q)
    (hpe : p.data.enabled = true) (hqe : q.data.enabled = true)
    (hpr : d.resolves p.data.addr addr) (hqr : d.resolves q.data.addr addr) :
    ∃ s, d.runs.Reach s ∧ { service := q, ride := p.dial } ∈ s.opened := by
  obtain ⟨s0, h0, hi0, hpools0⟩ := reach_idle d
  obtain ⟨s1, h1, hi1, hpools1, -⟩ := hi0.activates h0 hp hpr
  obtain ⟨s2, h2, hi2, -, hl2⟩ := hi1.activates h1 hq hqr
  have hshared : (ClientSession.activeService s1.pools addr q).1.openDataChannel
      = { service := q, ride := p.dial } := by
    refine activeService_second hqe ?_
    rw [hpools1, hpools0]
    exact activeService_first hpe addr
  have hopen : sessionStep s2 (.openFor q.id)
      = some { s2 with opened := s2.opened ++ [{ service := q, ride := p.dial }] } := by
    rw [← hshared]
    simp only [sessionStep, hi2.phase, ClientSession.openPlacedChannel, hl2]
  exact ⟨_, reach_step h2 (.openFor q.id) trivial hopen, List.mem_append_right _ List.mem_cons_self⟩

/-- Where every channel of every run follows its service, the services agree. -/
theorem agree_of_follows
    (h : ∀ s, d.runs.Reach s → ∀ ch ∈ s.opened, d.Follows ch) : d.Agree := by
  rintro a ha b hb hap hbp hak hbk ⟨addr, har, hbr⟩
  have hoa : d.Offers _ := ⟨a, ha, 0, slotFor_eq_some.mpr ⟨hak, rfl⟩⟩
  have hob : d.Offers _ := ⟨b, hb, 1, slotFor_eq_some.mpr ⟨hbk, rfl⟩⟩
  obtain ⟨s, hs, hmem⟩ := opened_on_first hoa hob hap hbp har hbr
  calc d.config.dataEnable a
      = (Dial.layer _ .tcp).isSome := (hoa.layer_dial .tcp).symm
    _ = d.config.dataEnable b := h s hs _ hmem .tcp

end Deployment

/-! ## 5. Every deployment -/

/-- **Data-channel encryption follows the service's own setting exactly where the services agree
per data endpoint.**  For every client configuration, every list of services and every
resolver: in every run of the session (any order of registrations, re-registrations, losses and
reconnects), every data channel opened for a service is wrapped in Noise if and only if that
service's effective `data_enable` says so, precisely when any two services that multiplex, can
start, and may resolve to one data endpoint have the same effective `data_enable`. -/
theorem encryption_follows_iff (d : Deployment) :
    (∀ s, d.runs.Reach s → ∀ ch ∈ s.opened, d.Follows ch) ↔ d.Agree :=
  ⟨Deployment.agree_of_follows, fun ha _ hr => (Deployment.Good.of_reach ha hr).opened⟩

/-- A client with one pair, data channels encrypted by default. -/
def homeClient : ClientConfig where
  defaultToken := "secret"
  defaultRemoteAddr := "192.0.2.1:2333"
  defaultDataAddr := none
  noise := { keys := { publicKey := "A", privateKey := "B" }, dataEnable := none }

/-- A service that carries its own TLS and turns the data encryption off. -/
def bulkService : ClientServiceConfig where
  serviceType := .tcp
  name := "bulk"
  remoteBindAddr := "0.0.0.0:443"
  token := none
  remoteAddr := none
  noise := some { publicKey := none, privateKey := none, dataEnable := some false }
  transparentLanes := 0

/-- A service that says nothing, and so inherits the default: encrypted. -/
def sshService : ClientServiceConfig :=
  { bulkService with name := "ssh", remoteBindAddr := "0.0.0.0:6022", noise := none }

/-- The two services on the client's one session; the address is a literal. -/
def homeDeployment : Deployment where
  config := homeClient
  services := [bulkService, sshService]
  decodes _ := true
  resolves name addr := addr = name

/-- **An encrypted service on a plain tunnel.**  The two services dial one server with one pair,
so they share the session; `bulk` is activated first, and a channel of `ssh` then rides its plain
pool, although the effective `data_enable` of `ssh` is on. -/
theorem encrypted_service_plain :
    sessionKey homeClient bulkService = sessionKey homeClient sshService ∧
      homeClient.dataEnable sshService = true ∧
      ∃ s, homeDeployment.runs.Reach s ∧ ∃ ch ∈ s.opened,
        ch.service.service = sshService ∧ ∀ carrier, ch.ride.layer carrier = none := by
  refine ⟨by decide, by decide, ?_⟩
  have hbulk : homeDeployment.Offers _ := ⟨bulkService, by simp [homeDeployment], 0, rfl⟩
  have hssh : homeDeployment.Offers _ := ⟨sshService, by simp [homeDeployment], 1, rfl⟩
  obtain ⟨s, hs, hmem⟩ := Deployment.opened_on_first hbulk hssh rfl rfl rfl rfl
  refine ⟨s, hs, _, hmem, rfl, fun carrier => ?_⟩
  cases carrier <;> rfl

end Molehill.Client
