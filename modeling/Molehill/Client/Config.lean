/-
# The client's configuration, as its sessions read it

What `config/parsing.rs` and the head of `core/client.rs` make of one service: the server it
dials, the key pair of its session, the two wire stacks (control and data), its credential, and
the knobs of its data plane.  Only the keys these functions read are kept; the local side of a
service (`local_addr`, the UDP sizes, the TUN device) is left out.

The build is the full one: `multiplex`, `kcp`, `noise`, `client` and `transparent` are all on.
-/
import Mathlib.Algebra.GroupWithZero.Nat
import Mathlib.Logic.Basic

namespace Molehill.Client

/-! ## 1. The configuration tables -/

/-- The protocol of a service. -/
inductive ServiceType
  | tcp
  | udp
  | transparent
  deriving DecidableEq

/-- Noise key material: the two static keys of the fixed KK handshake. -/
structure NoiseConfig where
  publicKey : String
  privateKey : String
  deriving DecidableEq

/-- `[client.services.<name>.noise]`: each key optional, unset inherits `[client.noise]`. -/
structure ServiceNoiseConfig where
  publicKey : Option String
  privateKey : Option String
  dataEnable : Option Bool
  deriving DecidableEq

/-- `[client.noise]`. -/
structure ClientNoiseConfig where
  keys : NoiseConfig
  dataEnable : Option Bool
  deriving DecidableEq

/-- `[client.services.<name>]`. -/
structure ClientServiceConfig where
  serviceType : ServiceType
  name : String
  remoteBindAddr : String
  /-- Override `[client].default_token` for this service only. -/
  token : Option String
  /-- Override `[client.control].default_remote_addr` for this service only. -/
  remoteAddr : Option String
  noise : Option ServiceNoiseConfig
  transparentLanes : Nat
  deriving DecidableEq

/-- `[client]`, with the keys of `[client.control]`, `[client.data]` and `[client.noise]`. -/
structure ClientConfig where
  defaultToken : String
  defaultRemoteAddr : String
  defaultDataAddr : Option String
  noise : ClientNoiseConfig
  deriving DecidableEq

namespace ClientServiceConfig

/-- The server this service dials: its own `remote_addr` when it declares one, else `default`. -/
def endpointWith (s : ClientServiceConfig) (default : String) : String :=
  s.remoteAddr.getD default

/-- The effective KK key pair of this service's session. -/
def noiseKeysWith (s : ClientServiceConfig) (global : NoiseConfig) : NoiseConfig :=
  match s.noise with
  | none => global
  | some noise =>
    { publicKey := noise.publicKey.getD global.publicKey
      privateKey := noise.privateKey.getD global.privateKey }

/-- Whether this service's data channels are encrypted: its own override, else `global`. -/
def dataEnabledWith (s : ClientServiceConfig) (global : Bool) : Bool :=
  (s.noise.bind ServiceNoiseConfig.dataEnable).getD global

/-- The lane count of a claim, at least one. -/
def lanes (s : ClientServiceConfig) : Nat := max s.transparentLanes 1

/-- Whether this service's data channels ride the multiplexed pool. -/
def usesPool (s : ClientServiceConfig) : Bool := s.serviceType != .transparent

end ClientServiceConfig

namespace ClientConfig

/-- The endpoint the data plane dials when the service has no `remote_addr` of its own. -/
def dataAddr (c : ClientConfig) : String := c.defaultDataAddr.getD c.defaultRemoteAddr

/-- **The effective `data_enable` of a service**: its own setting, else the client's, else on. -/
def dataEnable (c : ClientConfig) (s : ClientServiceConfig) : Bool :=
  s.dataEnabledWith (c.noise.dataEnable.getD true)

/-- **The effective token of a service**: its own, else `[client].default_token`. -/
def tokenOf (c : ClientConfig) (s : ClientServiceConfig) : String := s.token.getD c.defaultToken

end ClientConfig

/-! ## 2. The wire stacks -/

/-- Wire stack of a connection: plain bytes or Noise. -/
inductive TransportType
  | plain
  | noise
  deriving DecidableEq

/-- An internal wire-stack selection, built from the client's settings. -/
structure TransportConfig where
  transportType : TransportType
  noise : Option NoiseConfig
  deriving DecidableEq

/-- A built wire stack. -/
inductive ClientTransport
  | plain
  | noise (keys : NoiseConfig)
  deriving DecidableEq

namespace ClientTransport

/-- The KK pair one service's session authenticates with. -/
def noiseKeys (c : ClientConfig) (s : ClientServiceConfig) : NoiseConfig :=
  s.noiseKeysWith c.noise.keys

/-- The control channel's stack: always Noise with the effective pair. -/
def controlConfig (c : ClientConfig) (s : ClientServiceConfig) : TransportConfig :=
  { transportType := .noise, noise := some (noiseKeys c s) }

/-- The data plane's stack: Noise with the same pair when the service's effective `data_enable`
is true, plain otherwise. -/
def dataConfig (c : ClientConfig) (s : ClientServiceConfig) : TransportConfig :=
  let enabled := s.dataEnabledWith (c.noise.dataEnable.getD true)
  { transportType := if enabled then .noise else .plain
    noise := if enabled then some (noiseKeys c s) else none }

/-- Build a wire stack.  `decodes` is `NoiseKeys::from_config`, the base64 check of a pair; a
stack that cannot be built is an error. -/
def fromConfig (decodes : NoiseConfig → Bool) (cfg : TransportConfig) : Option ClientTransport :=
  match cfg.transportType, cfg.noise with
  | .plain, _ => some .plain
  | .noise, none => none
  | .noise, some keys => if decodes keys then some (.noise keys) else none

/-- The pair a connection of this stack is wrapped with. -/
def layer : ClientTransport → Option NoiseConfig
  | .plain => none
  | .noise keys => some keys

end ClientTransport

/-! ## 3. One service, as its session receives it -/

/-- A service's id on its session: four wire bytes, ordered as the number they spell. -/
abbrev ServiceId := Nat

/-- Data-plane knobs for one service. -/
structure DataOpts where
  /-- Whether the service multiplexes its data plane onto tunnels. -/
  enabled : Bool
  /-- Endpoint the data plane dials. -/
  addr : String
  /-- What a KCP connection of the data plane is wrapped with. -/
  noise : Option NoiseConfig
  deriving DecidableEq

/-- `DataOpts::for_service`. -/
def DataOpts.forService (c : ClientConfig) (s : ClientServiceConfig) : DataOpts :=
  { enabled := s.usesPool
    addr := s.endpointWith c.dataAddr
    noise :=
      if s.dataEnabledWith (c.noise.dataEnable.getD true) then some (ClientTransport.noiseKeys c s)
      else none }

/-- One service placed on one session. -/
structure ServiceSlot where
  id : ServiceId
  service : ClientServiceConfig
  /-- The service's credential: its own `token` when set, else `[client].default_token`. -/
  token : String
  /-- The wire stack this service's data plane dials with. -/
  transport : ClientTransport
  data : DataOpts
  /-- Data channels opened before a visitor arrives. -/
  channels : Nat
  deriving DecidableEq

/-- The channels `add_service` gives a service of each type. -/
def channelsOf (s : ClientServiceConfig) : Nat :=
  match s.serviceType with
  | .tcp => 0
  | .udp => 1
  | .transparent => s.lanes

/-- The slot `add_service` builds for a service under the id `id`; `none` when one of its two
wire stacks cannot be built (the `?` of `from_config`). -/
def slotFor (decodes : NoiseConfig → Bool) (c : ClientConfig) (s : ClientServiceConfig)
    (id : ServiceId) : Option ServiceSlot := do
  -- the control stack goes to the session, see `sessionIndex`
  let _ ← ClientTransport.fromConfig decodes (ClientTransport.controlConfig c s)
  let transport ← ClientTransport.fromConfig decodes (ClientTransport.dataConfig c s)
  some
    { id := id
      service := s
      token := s.token.getD c.defaultToken
      transport := transport
      data := DataOpts.forService c s
      channels := channelsOf s }

/-- A slot is built exactly when the service's pair decodes, and then it has the service's own
settings. -/
theorem slotFor_eq_some {decodes : NoiseConfig → Bool} {c : ClientConfig}
    {s : ClientServiceConfig} {id : ServiceId} {slot : ServiceSlot} :
    slotFor decodes c s id = some slot ↔
      decodes (ClientTransport.noiseKeys c s) = true ∧
        slot = { id := id
                 service := s
                 token := c.tokenOf s
                 transport := if c.dataEnable s then .noise (ClientTransport.noiseKeys c s)
                   else .plain
                 data := DataOpts.forService c s
                 channels := channelsOf s } := by
  have hcontrol : ClientTransport.fromConfig decodes (ClientTransport.controlConfig c s)
      = if decodes (ClientTransport.noiseKeys c s) then some (.noise (ClientTransport.noiseKeys c s))
        else none := rfl
  have hdata : ClientTransport.fromConfig decodes (ClientTransport.dataConfig c s)
      = if c.dataEnable s then
          if decodes (ClientTransport.noiseKeys c s) then
            some (.noise (ClientTransport.noiseKeys c s))
          else none
        else some .plain := by
    unfold ClientTransport.dataConfig ClientConfig.dataEnable
    cases s.dataEnabledWith (c.noise.dataEnable.getD true) <;> rfl
  rw [slotFor, hcontrol, hdata]
  cases decodes (ClientTransport.noiseKeys c s) with
  | false => simp
  | true =>
    cases c.dataEnable s with
    | false => simpa [ClientConfig.tokenOf] using eq_comm
    | true => simpa [ClientConfig.tokenOf] using eq_comm

/-- The identity of one control session: the endpoint and the pair it is dialed with. -/
structure SessionKey where
  addr : String
  noise : NoiseConfig
  deriving DecidableEq

/-- The endpoint and pair one service dials. -/
def sessionKey (c : ClientConfig) (s : ClientServiceConfig) : SessionKey :=
  { addr := s.endpointWith c.defaultRemoteAddr
    noise := ClientTransport.noiseKeys c s }

end Molehill.Client
