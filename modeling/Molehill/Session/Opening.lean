/-
# How a connection opens

Every connection begins with a hello: a tag, the two bytes of the protocol version, and a digest.
On a control connection the server answers with a nonce of its own, the client proves its token by
the digest of token and nonce, and a framed ack declares the heartbeat; a data channel carries the
nonce as its credential and names its service; a tunnel carries the nonce and is answered with one
byte.  A peer of another version is refused on the first three bytes.

Both ends are programs of `Lib.Talk`, so that the results hold for every cut of the bytes and every
order in which the two ends run.  The hash and the acks' codec are parameters; what the server knows
of its sessions (which services are live, whether a tunnel or a lane may be had) enters as functions
of the nonce, and what the client's stripe registry and packet device answer as functions of the
command.
-/
import Molehill.Client.Config
import Molehill.Lib.Dialogue
import Molehill.Session.ControlStream
import Molehill.Wire.IpFrames

namespace Molehill.Session.Opening

open Lib ControlStream Wire Client

/-! ## 1. Hellos -/

structure ProtocolVersion where
  major : Byte
  minor : Byte
  deriving DecidableEq

/-- `CURRENT_PROTO_VERSION`. -/
def currentProtoVersion : ProtocolVersion := ⟨5, 2⟩

/-- `SUPPORTED_PROTO_VERSIONS`. -/
def supportedProtoVersions : List ProtocolVersion := [currentProtoVersion]

/-- `HASH_WIDTH_IN_BYTES`. -/
def hashWidthInBytes : Nat := 32

/-- `HELLO_PREFIX_LEN`. -/
def helloPrefixLen : Nat := 3

/-- `Digest`: a session tag, a nonce or a credential. -/
abbrev Digest := { bs : Bytes // bs.length = hashWidthInBytes }

inductive Hello
  | controlChannelHello (version : ProtocolVersion) (tag : Digest)
  | dataChannelHello (version : ProtocolVersion) (nonce : Digest)
  | dataChannelTunnelHello (version : ProtocolVersion) (nonce : Digest)

namespace Hello

/-- The variant's tag, the version, the digest. -/
def toStdvec : Hello → Bytes
  | controlChannelHello v d => 0 :: v.major :: v.minor :: d.val
  | dataChannelHello v d => 1 :: v.major :: v.minor :: d.val
  | dataChannelTunnelHello v d => 2 :: v.major :: v.minor :: d.val

/-- What the bytes stand for; those behind the digest are not looked at. -/
def fromBytes : Bytes → Option Hello
  | tag :: major :: minor :: rest =>
    if h : hashWidthInBytes ≤ rest.length then
      let d : Digest := ⟨rest.take hashWidthInBytes, List.length_take_of_le h⟩
      if tag = 0 then some (controlChannelHello ⟨major, minor⟩ d)
      else if tag = 1 then some (dataChannelHello ⟨major, minor⟩ d)
      else if tag = 2 then some (dataChannelTunnelHello ⟨major, minor⟩ d)
      else none
    else none
  | _ => none

def version : Hello → ProtocolVersion
  | controlChannelHello v _ | dataChannelHello v _ | dataChannelTunnelHello v _ => v

def digest : Hello → Digest
  | controlChannelHello _ d | dataChannelHello _ d | dataChannelTunnelHello _ d => d

def tag : Hello → Byte
  | controlChannelHello _ _ => 0
  | dataChannelHello _ _ => 1
  | dataChannelTunnelHello _ _ => 2

theorem toStdvec_eq (h : Hello) :
    h.toStdvec = [h.tag, h.version.major, h.version.minor] ++ h.digest.val := by
  cases h <;> rfl

@[simp] theorem toStdvec_length (h : Hello) :
    h.toStdvec.length = helloPrefixLen + hashWidthInBytes := by
  rw [toStdvec_eq, List.length_append, h.digest.property]
  rfl

/-- A hello is read back. -/
theorem fromBytes_toStdvec (h : Hello) : fromBytes h.toStdvec = some h := by
  have hlen : hashWidthInBytes ≤ h.digest.val.length := Nat.le_of_eq h.digest.property.symm
  have htake : h.digest.val.take hashWidthInBytes = h.digest.val :=
    List.take_of_length_le (Nat.le_of_eq h.digest.property)
  cases h with
  | controlChannelHello v d | dataChannelHello v d | dataChannelTunnelHello v d =>
    simp only [digest] at hlen htake
    simp [toStdvec, fromBytes, hlen, htake]

/-- Only a hello's own bytes are read as it. -/
theorem toStdvec_of_fromBytes {bs : Bytes} {h : Hello} (hlen : bs.length = helloPrefixLen + 32)
    (hr : fromBytes bs = some h) : bs = h.toStdvec := by
  match bs, hlen with
  | t :: major :: minor :: rest, hlen =>
    have hrest : rest.length = hashWidthInBytes := by
      simp only [List.length_cons, helloPrefixLen] at hlen
      change rest.length = 32
      omega
    have htake : rest.take hashWidthInBytes = rest := List.take_of_length_le (Nat.le_of_eq hrest)
    rw [fromBytes, dif_pos (Nat.le_of_eq hrest.symm)] at hr
    simp only [htake] at hr
    split at hr
    · cases hr
      simp_all [toStdvec]
    split at hr
    · cases hr
      simp_all [toStdvec]
    split at hr
    · cases hr
      simp_all [toStdvec]
    · cases hr

end Hello

/-- `PACKET_LEN.hello`. -/
def packetLenHello : Nat := helloPrefixLen + hashWidthInBytes

/-- Why a hello was refused. -/
inductive HelloError
  | read
  | version (got : ProtocolVersion)
  | deserialize
  deriving DecidableEq

variable {α : Type}

/-- `read_hello` behind the prefix: a supported version's digest follows, any other is refused. -/
def readDigest (refuse : HelloError → α) (k : ProtocolVersion → Hello → Talk α) (pre : Bytes) :
    Talk α :=
  let version : ProtocolVersion := ⟨pre.getD 1 0, pre.getD 2 0⟩
  if version ∈ supportedProtoVersions then
    .exact (packetLenHello - helloPrefixLen) (fun rest =>
      match Hello.fromBytes (pre ++ rest) with
      | some hello => k version hello
      | none => .done (refuse .deserialize)) (refuse .read)
  else .done (refuse (.version version))

/-- `read_hello`. -/
def readHello (refuse : HelloError → α) (k : ProtocolVersion → Hello → Talk α) : Talk α :=
  .exact helloPrefixLen (readDigest refuse k) (refuse .read)

section ReadHello

variable {refuse : HelloError → α} {k : ProtocolVersion → Hello → Talk α}

/-- **A hello of a supported version is read**, and nothing behind it. -/
theorem acts_readHello {h : Hello} (hv : h.version ∈ supportedProtoVersions) (ended : Bool)
    (rest : Bytes) :
    Talk.Acts ended (readHello refuse k) (h.toStdvec ++ rest) (k h.version h) rest [] := by
  have hpre : [h.tag, h.version.major, h.version.minor].length = helloPrefixLen := rfl
  have hdigest : h.digest.val.length = packetLenHello - helloPrefixLen :=
    h.digest.property.trans (Nat.add_sub_cancel_left ..).symm
  have hkept : readDigest refuse k [h.tag, h.version.major, h.version.minor] =
      .exact (packetLenHello - helloPrefixLen) (fun rest =>
        match Hello.fromBytes ([h.tag, h.version.major, h.version.minor] ++ rest) with
        | some hello => k h.version hello
        | none => .done (refuse .deserialize)) (refuse .read) := if_pos hv
  rw [Hello.toStdvec_eq, List.append_assoc]
  refine (Talk.Acts.exact _ _ _ hpre).silent ?_
  rw [hkept]
  refine (Talk.Acts.exact _ _ _ hdigest).silent ?_
  rw [← Hello.toStdvec_eq, Hello.fromBytes_toStdvec]
  exact .refl _ _

/-- **Three bytes refuse another dialect.** -/
theorem acts_readHello_version (tag : Byte) {major minor : Byte}
    (hv : (⟨major, minor⟩ : ProtocolVersion) ∉ supportedProtoVersions) (ended : Bool)
    (rest : Bytes) :
    Talk.Acts ended (readHello refuse k) ([tag, major, minor] ++ rest)
      (.done (refuse (.version ⟨major, minor⟩))) rest [] := by
  have hpre : [tag, major, minor].length = helloPrefixLen := rfl
  have hrefused : readDigest refuse k [tag, major, minor] =
      .done (refuse (.version ⟨major, minor⟩)) := if_neg hv
  refine (Talk.Acts.exact _ _ _ hpre).silent ?_
  rw [hrefused]
  exact .refl _ _

/-- What went past the hello has heard one of a supported version. -/
theorem went_readHello {heard sent : Bytes} {t : Talk α}
    (h : Talk.Went (readHello refuse k) heard sent t) :
    (sent = [] ∧ ∀ a, t = .done a → ∃ e, a = refuse e) ∨
      ∃ hello heard', heard = hello.toStdvec ++ heard' ∧ hello.version ∈ supportedProtoVersions ∧
        Talk.Went (k hello.version hello) heard' sent t := by
  obtain ⟨hsent, hres⟩ | ⟨pre, heard', rfl, hpre, h⟩ := h.of_exact
  · exact Or.inl ⟨hsent, fun a ha => ⟨.read, hres a ha⟩⟩
  rw [readDigest] at h
  split at h
  case isFalse =>
    obtain ⟨hsent, rfl⟩ := h.of_done
    refine Or.inl ⟨hsent, fun a ha => ⟨_, (Talk.done.inj ha).symm⟩⟩
  case isTrue hv =>
    obtain ⟨hsent, hres⟩ | ⟨rest, heard'', rfl, hrest, h⟩ := h.of_exact
    · exact Or.inl ⟨hsent, fun a ha => ⟨.read, hres a ha⟩⟩
    split at h
    next hello hread =>
      have hlen : (pre ++ rest).length = helloPrefixLen + 32 := by
        rw [List.length_append, hpre, hrest]
        rfl
      have hbytes := Hello.toStdvec_of_fromBytes hlen hread
      have hversion : hello.version = ⟨pre.getD 1 0, pre.getD 2 0⟩ := by
        have hfront : pre = [hello.tag, hello.version.major, hello.version.minor] := by
          rw [Hello.toStdvec_eq] at hbytes
          exact (List.append_inj hbytes hpre).1
        rw [hfront]
        rfl
      refine Or.inr ⟨hello, heard'', ?_, ?_, ?_⟩
      · rw [← List.append_assoc, hbytes]
      · rw [hversion]
        exact hv
      · rw [hversion]
        exact h
    next =>
      obtain ⟨hsent, rfl⟩ := h.of_done
      exact Or.inl ⟨hsent, fun a ha => ⟨_, (Talk.done.inj ha).symm⟩⟩

end ReadHello

/-! ## 2. The commands that start a data channel -/

/-- `FrameFormat`, one byte on the wire. -/
def formatByte : FrameFormat → Byte
  | .ip => 0
  | .vnet => 1

inductive DataChannelCmd
  | startForwardUdp
  | startForwardStripedTcp (group : U32) (index count : Byte)
  | startForwardTransparent (wire : FrameFormat)
  deriving DecidableEq

namespace DataChannelCmd

def toStdvec : DataChannelCmd → Bytes
  | startForwardUdp => [0]
  | startForwardStripedTcp group index count => 1 :: (word group ++ [index, count])
  | startForwardTransparent wire => [2, formatByte wire]

end DataChannelCmd

/-- `read_data_cmd`: the tag decides how many bytes follow. -/
def readDataCmd : Reader DataChannelCmd :=
  .exact 1 fun tag =>
    if tag.headD 0 = 0 then .done .startForwardUdp
    else if tag.headD 0 = 1 then
      .exact 6 fun buf =>
        .done (.startForwardStripedTcp (wordAt buf 0) (byteAt buf 4) (byteAt buf 5))
    else if tag.headD 0 = 2 then
      .exact 1 fun buf =>
        if buf.headD 0 = 0 then .done (.startForwardTransparent .ip)
        else if buf.headD 0 = 1 then .done (.startForwardTransparent .vnet)
        else .fail
    else .fail

/-- A command is read back, and nothing behind it. -/
theorem poll_readDataCmd (cmd : DataChannelCmd) (rest : Bytes) :
    readDataCmd.poll (cmd.toStdvec ++ rest) = (.done cmd, rest) := by
  have hone : ∀ b : Byte, [b].length = 1 := fun _ => rfl
  cases cmd with
  | startForwardUdp => exact Reader.poll_exact_append _ (hone 0)
  | startForwardStripedTcp group index count =>
    have hsix : (word group ++ [index, count]).length = 6 := by
      rw [List.length_append, word, beBytes_length]
      rfl
    refine (Reader.poll_exact_append _ (hone 1)).trans ?_
    refine (Reader.poll_exact_append _ hsix).trans ?_
    have hindex := byteAt_skip group [index, count] 0
    have hcount := byteAt_skip group [index, count] 1
    rw [Nat.zero_add] at hindex
    rw [Reader.poll_done, wordAt_word, hindex, hcount]
    rfl
  | startForwardTransparent wire =>
    change readDataCmd.poll ([2] ++ ([formatByte wire] ++ rest)) = _
    refine (Reader.poll_exact_append _ (hone 2)).trans ?_
    refine (Reader.poll_exact_append _ (hone _)).trans ?_
    cases wire <;> rfl

/-! ## 3. The server's end -/

/-- How a service's pool starts a channel it was handed: the first command it writes. -/
inductive Start
  | udp
  | stripedTcp (group : U32) (index count : Byte)
  | transparent (wire : FrameFormat)
  deriving DecidableEq

def Start.cmd : Start → DataChannelCmd
  | udp => .startForwardUdp
  | stripedTcp group index count => .startForwardStripedTcp group index count
  | transparent wire => .startForwardTransparent wire

/-- The protocol of the service. -/
def Start.serviceType : Start → ServiceType
  | udp => .udp
  | stripedTcp _ _ _ => .tcp
  | transparent _ => .transparent

/-- `TunnelSlot`. -/
inductive TunnelSlot
  | noSession
  | held
  | overCap
  deriving DecidableEq

/-- What the server brings to a connection: how it came in, its token and its heartbeat, the nonce
it draws for a session, the services that are live on each session and how their pools start a
channel, the valve's answers to a tunnel and to a lane, and the bytes that go out once the opening
is done (a session's commands, a channel's traffic). -/
structure Server where
  plain : Bool
  kcp : Bool
  defaultToken : Bytes
  heartbeatInterval : U64
  nonce : Digest
  registered : Digest → U32 → Option Start
  reserveTunnel : Digest → TunnelSlot
  reserveLane : Digest → Bool
  outgoing : Bytes

/-- What became of a connection at the server. -/
inductive Served
  | session (nonce : Digest)
  | dataChannel (nonce : Digest) (service : U32) (start : Start) (lane : Option U32)
  | tunnel (nonce : Digest)
  | refusedHello (e : HelloError)
  | plaintextControl
  | controlOnKcp
  | noAuth
  | authFailed
  | ackTooLarge
  | noPrologue
  | unknownService (nonce : Digest) (service : U32)
  | noLane
  | laneRefused (nonce : Digest) (service : U32)
  | noSession
  | tunnelRefused

/-- Only these keep the connection. -/
def Served.closes : Served → Bool
  | session _ | dataChannel _ _ _ _ | tunnel _ => false
  | _ => true

section Programs

variable (sha256 : Bytes → Digest) (p : Postcard ControlStream.Ack)

/-- The credential: the token bound to a nonce. -/
def credential (token : Bytes) (nonce : Digest) : Digest := sha256 (token ++ nonce.val)

namespace Server

variable (srv : Server)

/-- The credential is right, or the connection ends. -/
def checkAuth (d : Bytes) : Talk Served :=
  if d = (credential sha256 srv.defaultToken srv.nonce).val then
    match writeRegisterResult p (.sessionOk srv.heartbeatInterval) with
    | some ack => .write ack (.write srv.outgoing (.done (.session srv.nonce)))
    | none => .done .ackTooLarge
  else .write (p.toStdvec .authFailed) (.done .authFailed)

/-- `do_session_handshake`, up to the session's first commands. -/
def doSessionHandshake : Talk Served :=
  .write (Hello.controlChannelHello currentProtoVersion srv.nonce).toStdvec <|
  .exact hashWidthInBytes (srv.checkAuth sha256 p) .noAuth

/-- The pool starts a channel: a claim reads the lane's half of the prologue first, and charges the
lane to the session's valve. -/
def startChannel (nonce : Digest) (service : U32) : Start → Talk Served
  | .transparent wire =>
    .exact 4 (fun lane =>
      if srv.reserveLane nonce then
        .write (Start.transparent wire).cmd.toStdvec <|
        .write srv.outgoing <|
        .done (.dataChannel nonce service (.transparent wire) (some (wordAt lane 0)))
      else .done (.laneRefused nonce service)) .noLane
  | start =>
    .write start.cmd.toStdvec <|
    .write srv.outgoing (.done (.dataChannel nonce service start none))

/-- `do_v4_data_channel`, with the pool that takes the channel. -/
def doV4DataChannel (nonce : Digest) (service : U32) : Talk Served :=
  match srv.registered nonce service with
  | some start => srv.startChannel nonce service start
  | none => .done (.unknownService nonce service)

/-- `do_v4_tunnel` and `serve_kcp_tunnel`. -/
def doV4Tunnel (nonce : Digest) : Talk Served :=
  match srv.reserveTunnel nonce with
  | .noSession => .done .noSession
  | .held => .write (p.toStdvec .ok) (.write srv.outgoing (.done (.tunnel nonce)))
  | .overCap => .write (p.toStdvec .tunnelRefused) (.done .tunnelRefused)

/-- What the hello asks for. -/
def serveHello : Hello → Talk Served
  | .controlChannelHello _ _ =>
    if srv.kcp then .done .controlOnKcp
    else if srv.plain then .done .plaintextControl
    else srv.doSessionHandshake sha256 p
  | .dataChannelHello _ nonce =>
    .exact 4 (fun id => srv.doV4DataChannel nonce (wordAt id 0)) .noPrologue
  | .dataChannelTunnelHello _ nonce => srv.doV4Tunnel p nonce

/-- `handle_connection` and `handle_kcp_session`. -/
def handleConnection : Talk Served :=
  readHello .refusedHello fun _ hello => srv.serveHello sha256 p hello

/-- `route_tunnel_stream`, for a stream of that session's tunnel. -/
def routeTunnelStream (nonce : Digest) : Talk Served :=
  .exact 8 (fun buf => srv.doV4DataChannel nonce (wordAt buf 0)) .noPrologue

end Server

/-! ## 4. The client's end -/

/-- What became of the client's session. -/
inductive SessionEnd
  | ok (nonce : Digest) (heartbeatIntervalSecs : U64)
  | unansweredHello (e : HelloError)
  | refusedVersion (got : ProtocolVersion)
  | unexpectedHello
  | closedAtAuth
  | brokenAck
  | authFailed
  | unexpectedAck (ack : ControlStream.Ack)

def SessionEnd.closes : SessionEnd → Bool
  | ok _ _ => false
  | _ => true

/-- The client makes of the ack what its kind says. -/
def sessionAck (nonce : Digest) : Message → SessionEnd
  | .ack (.sessionOk secs) => .ok nonce secs
  | .ack .authFailed => .authFailed
  | .ack ack => .unexpectedAck ack
  | .command _ => .brokenAck

/-- The session goes on with what it says first, or ends. -/
def afterAck (nonce : Digest) (first : Bytes) (m : Message) : Talk SessionEnd :=
  match sessionAck nonce m with
  | .ok nonce secs => .write first (.done (.ok nonce secs))
  | failed => .done failed

/-- The ack's shape shows in its first byte: a framed one starts with a zero. -/
def awaitAck (nonce : Digest) (first : Bytes) : Talk SessionEnd :=
  .peek (fun b =>
    Talk.read (afterAck nonce first) .brokenAck .brokenAck (framedOr p (readAck p) b))
    .closedAtAuth

/-- The server's hello is answered with the credential. -/
def answerHello (token first : Bytes) (version : ProtocolVersion) (hello : Hello) :
    Talk SessionEnd :=
  if version ∈ supportedProtoVersions then
    match hello with
    | .controlChannelHello _ nonce =>
      .write (credential sha256 token nonce).val (awaitAck p nonce first)
    | _ => .done .unexpectedHello
  else .done (.refusedVersion version)

/-- `handshake`, and what the session says first. -/
def handshake (token : Bytes) (tag : Digest) (first : Bytes) : Talk SessionEnd :=
  .write (Hello.controlChannelHello currentProtoVersion tag).toStdvec <|
  readHello .unansweredHello (answerHello sha256 p token first)

/-- What became of a tunnel the client dialed. -/
inductive TunnelEnd
  | established
  | refused (ack : ControlStream.Ack)
  | broken

def TunnelEnd.closes : TunnelEnd → Bool
  | established => false
  | _ => true

/-- The tunnel starts, or the server's answer is reported. -/
def afterTunnelAck (first : Bytes) : Message → Talk TunnelEnd
  | .ack .ok => .write first (.done .established)
  | .ack ack => .done (.refused ack)
  | .command _ => .done .broken

/-- `establish_tunnel`. -/
def establishTunnel (nonce : Digest) (first : Bytes) : Talk TunnelEnd :=
  .write (Hello.dataChannelTunnelHello currentProtoVersion nonce).toStdvec <|
  Talk.read (afterTunnelAck first) .broken .broken (readAck p)

/-- What the stripe registry makes of a stripe: an error, a group the server has released, one that
waits for its other stripes, or one that is complete, for which the local service is dialed. -/
inductive StripeAnswer
  | refused
  | released
  | parked
  | unconnected
  | complete
  deriving DecidableEq

/-- What the client brings to a data channel: the session's nonce, the service with its protocol,
the next lane id, the service's UDP hub and stripe registry, its packet device with the frames it
has and whether the claim may carry those of the command, and the traffic it sends. -/
structure DataChannelArgs where
  sessionNonce : Digest
  serviceId : U32
  serviceType : ServiceType
  nextLaneId : U32
  udpHub : Bool
  register : U32 → Byte → Byte → StripeAnswer
  device : Option FrameFormat
  setWireFormat : FrameFormat → Bool
  traffic : Bytes

/-- What became of a data channel at the client. -/
inductive ChannelEnd
  | forwarding (cmd : DataChannelCmd) (lane : Option U32)
  | parked (group : U32) (index count : Byte)
  | brokenCmd
  | closed
  | unexpected (cmd : DataChannelCmd)
  | noHub
  | stripeRefused (answer : StripeAnswer)
  | noDevice
  | vnetRefused
  | wireRefused

/-- A parked stripe is held by the registry. -/
def ChannelEnd.closes : ChannelEnd → Bool
  | forwarding _ _ | parked _ _ _ => false
  | _ => true

namespace DataChannelArgs

variable (args : DataChannelArgs)

/-- A stripe goes to the registry, and only the last of its group finds it complete. -/
def registerStripe (lane : Option U32) (group : U32) (index count : Byte) : ChannelEnd :=
  match args.register group index count with
  | .complete => .forwarding (.startForwardStripedTcp group index count) lane
  | .parked => .parked group index count
  | answer => .stripeRefused answer

/-- `run_transparent_channel`, up to the hub's lane. -/
def runTransparentChannel (lane : Option U32) (wire : FrameFormat) : ChannelEnd :=
  match args.device with
  | none => .noDevice
  | some format =>
    if wire = .vnet ∧ format ≠ wire then .vnetRefused
    else if args.setWireFormat wire then .forwarding (.startForwardTransparent wire) lane
    else .wireRefused

/-- What the client makes of the server's command. -/
def takeCommand (lane : Option U32) : DataChannelCmd → ChannelEnd
  | .startForwardUdp =>
    if args.serviceType ≠ .udp then .unexpected .startForwardUdp
    else if args.udpHub then .forwarding .startForwardUdp lane
    else .noHub
  | .startForwardStripedTcp group index count =>
    if args.serviceType ≠ .tcp then .unexpected (.startForwardStripedTcp group index count)
    else args.registerStripe lane group index count
  | .startForwardTransparent wire =>
    if args.serviceType ≠ .transparent then .unexpected (.startForwardTransparent wire)
    else args.runTransparentChannel lane wire

/-- Traffic flows on a channel that forwards, and on no other. -/
def trafficOn : ChannelEnd → Bytes
  | .forwarding _ _ => args.traffic
  | _ => []

/-- The command is taken, and traffic follows. -/
def startForward (lane : Option U32) (cmd : DataChannelCmd) : Talk ChannelEnd :=
  let taken := args.takeCommand lane cmd
  .write (args.trafficOn taken) (.done taken)

/-- `forward_data_channel`, up to the first traffic. -/
def forwardDataChannel (lane : Option U32) : Talk ChannelEnd :=
  Talk.read (args.startForward lane) .brokenCmd .closed readDataCmd

/-- `run_data_channel`: `do_data_channel_handshake`, where a claim's channel names its lane, and
the forwarding. -/
def runDataChannel : Talk ChannelEnd :=
  .write (Hello.dataChannelHello currentProtoVersion args.sessionNonce).toStdvec <|
  if args.serviceType = .transparent then
    .write (word args.serviceId ++ word args.nextLaneId) <|
    args.forwardDataChannel (some args.nextLaneId)
  else .write (word args.serviceId) (args.forwardDataChannel none)

/-- `run_mux_data_channel`, on a stream of that tunnel. -/
def runMuxDataChannel (tunnel : U32) : Talk ChannelEnd :=
  .write (word args.serviceId ++ word tunnel) (args.forwardDataChannel none)

end DataChannelArgs

end Programs

/-! ## 5. Openings between the two ends -/

section Openings

open Dialogue

variable {sha256 : Bytes → Digest} {p : Postcard ControlStream.Ack}

theorem current_supported : currentProtoVersion ∈ supportedProtoVersions :=
  List.mem_singleton.mpr rfl

/-- A bare ack of one byte is read. -/
theorem poll_readAck (hp : Format p) {ack : ControlStream.Ack} (hlen : ack.fitted.fieldLen = 0)
    (hfit : ack.fitted = ack) (rest : Bytes) :
    (readAck p).poll (p.toStdvec ack ++ rest) = (.done (.ack ack), rest) := by
  have hbytes := hp.length ack
  have hread := hp.roundTrips ack
  rw [hlen, hfit] at hbytes
  rw [hfit] at hread
  rw [readAck, Reader.poll_exact_append _ hbytes]
  simp only [hread, Reader.poll_done]

/-- The server's half of the handshake, up to its hello. -/
theorem acts_serveControl {srv : Server} (hplain : srv.plain = false) (hkcp : srv.kcp = false)
    (tag : Digest) (ended : Bool) (rest : Bytes) :
    Talk.Acts ended (srv.handleConnection sha256 p)
      ((Hello.controlChannelHello currentProtoVersion tag).toStdvec ++ rest)
      (.exact hashWidthInBytes (srv.checkAuth sha256 p) .noAuth) rest
      (Hello.controlChannelHello currentProtoVersion srv.nonce).toStdvec := by
  have hcase : srv.serveHello sha256 p (.controlChannelHello currentProtoVersion tag) =
      srv.doSessionHandshake sha256 p := by
    rw [Server.serveHello, hplain, hkcp]
    rfl
  refine (acts_readHello (h := .controlChannelHello currentProtoVersion tag) current_supported
    ended rest).silent ?_
  rw [hcase]
  exact .write _ _ _

/-- The server's answer to a credential. -/
theorem acts_checkAuth (hp : Format p) (srv : Server) (d : Digest) (ended : Bool) (rest : Bytes) :
    Talk.Acts ended (.exact hashWidthInBytes (srv.checkAuth sha256 p) .noAuth) (d.val ++ rest)
      (.done (if d = credential sha256 srv.defaultToken srv.nonce then .session srv.nonce
        else .authFailed)) rest
      (if d = credential sha256 srv.defaultToken srv.nonce then
        (Message.ack (.sessionOk srv.heartbeatInterval)).bytes p ++ srv.outgoing
      else p.toStdvec .authFailed) := by
  refine (Talk.Acts.exact _ _ _ d.property).silent ?_
  rw [Server.checkAuth]
  by_cases h : d = credential sha256 srv.defaultToken srv.nonce
  · rw [if_pos (congrArg Subtype.val h), if_pos h, if_pos h, writeRegisterResult_eq hp]
    exact (Talk.Acts.write _ _ _).trans (.write _ _ _)
  · rw [if_neg (fun hv => h (Subtype.ext hv)), if_neg h, if_neg h]
    exact .write _ _ _

/-- The client's half, up to its credential. -/
theorem acts_answerHello (token first : Bytes) (nonce : Digest) (ended : Bool) (rest : Bytes) :
    Talk.Acts ended (readHello .unansweredHello (answerHello sha256 p token first))
      ((Hello.controlChannelHello currentProtoVersion nonce).toStdvec ++ rest)
      (awaitAck p nonce first) rest (credential sha256 token nonce).val := by
  have hcase : answerHello sha256 p token first currentProtoVersion
      (.controlChannelHello currentProtoVersion nonce) =
        .write (credential sha256 token nonce).val (awaitAck p nonce first) :=
    if_pos current_supported
  refine (acts_readHello (h := .controlChannelHello currentProtoVersion nonce) current_supported
    ended rest).silent ?_
  refine Eq.mpr (congrArg (fun t => Talk.Acts ended t rest _ rest _) hcase) ?_
  exact .write _ _ _

/-- The client reads the ack that admits it, and nothing behind it. -/
theorem acts_admitted (hp : Format p) (nonce : Digest) (secs : U64) (first rest : Bytes)
    (ended : Bool) :
    Talk.Acts ended (awaitAck p nonce first) ((Message.ack (.sessionOk secs)).bytes p ++ rest)
      (.done (.ok nonce secs)) rest first := by
  have hread := poll_readRegisterResult hp (.sessionOk secs) rest
  obtain ⟨tail, htail⟩ := ack_bytes_eq hp (.sessionOk secs)
  rw [htail, List.cons_append] at hread ⊢
  refine (Talk.Acts.peek _ _ _ _).silent ?_
  refine (Talk.Acts.read (r := framedOr p (readAck p) 0) _ _ _ hread).silent ?_
  exact .write _ _ _

/-- The client reads the refusal of its credential. -/
theorem acts_rejected (hp : Format p) (hbare : p.toStdvec .authFailed ≠ [0]) (nonce : Digest)
    (first rest : Bytes) (ended : Bool) :
    Talk.Acts ended (awaitAck p nonce first) (p.toStdvec .authFailed ++ rest)
      (.done .authFailed) rest [] := by
  have hread := poll_readAck hp (rfl : ControlStream.Ack.authFailed.fitted.fieldLen = 0) rfl rest
  have hone : (p.toStdvec .authFailed).length = 1 := hp.length .authFailed
  obtain ⟨b, hb⟩ := List.length_eq_one_iff.mp hone
  have hne : b ≠ 0 := fun h => hbare (by rw [hb, h])
  rw [hb] at hread ⊢
  refine (Talk.Acts.peek _ _ _ _).silent ?_
  rw [framedOr, if_neg hne]
  exact (Talk.Acts.read _ _ _ hread).silent (.refl _ _)

/-- A server with one live UDP service on one session, over Noise. -/
def oneService (token : Bytes) (nonce : Digest) : Server where
  plain := false
  kcp := false
  defaultToken := token
  heartbeatInterval := 30
  nonce := nonce
  registered n service := if n = nonce ∧ service = 7 then some .udp else none
  reserveTunnel _ := .held
  reserveLane _ := true
  outgoing := []

def zeroDigest : Digest := ⟨List.replicate 32 0, rfl⟩

/-- A digest that tells short tokens apart: the first bytes of its input. -/
def frontDigest (bs : Bytes) : Digest :=
  ⟨(bs ++ List.replicate 32 0).take 32, by
    rw [List.length_take, List.length_append, List.length_replicate]
    exact Nat.min_eq_left (by omega)⟩

/-- **A session opens on the right token, and on no other.**  However the bytes are cut and
whichever end runs when, the handshake ends, and it ends with both ends holding the server's nonce
and cadence, or, where the credentials differ, with both knowing it.  The bytes each end sends next
are all still there for the session to read. -/
theorem session_opens (hp : Format p) (hbare : p.toStdvec .authFailed ≠ [0]) {srv : Server}
    (hplain : srv.plain = false) (hkcp : srv.kcp = false) (token : Bytes) (tag : Digest)
    (first : Bytes) :
    SettlesIn (step SessionEnd.closes Served.closes)
      (start (handshake sha256 p token tag first) (srv.handleConnection sha256 p))
      (if credential sha256 token srv.nonce = credential sha256 srv.defaultToken srv.nonce then
        { left := .done (.ok srv.nonce srv.heartbeatInterval)
          right := .done (.session srv.nonce)
          toLeft := srv.outgoing
          toRight := first
          leftSaid := (Hello.controlChannelHello currentProtoVersion tag).toStdvec ++
            (credential sha256 token srv.nonce).val ++ first
          rightSaid := (Hello.controlChannelHello currentProtoVersion srv.nonce).toStdvec ++
            ((Message.ack (.sessionOk srv.heartbeatInterval)).bytes p ++ srv.outgoing) }
      else
        { left := .done .authFailed
          right := .done .authFailed
          toLeft := []
          toRight := []
          leftSaid := (Hello.controlChannelHello currentProtoVersion tag).toStdvec ++
            (credential sha256 token srv.nonce).val
          rightSaid := (Hello.controlChannelHello currentProtoVersion srv.nonce).toStdvec ++
            p.toStdvec .authFailed }) := by
  have hhello : Talk.Acts false (srv.handleConnection sha256 p) _ _ _ _ :=
    acts_serveControl hplain hkcp tag false []
  have hanswer : Talk.Acts false (readHello _ (answerHello sha256 p token first)) _ _ _ _ :=
    acts_answerHello token first srv.nonce false []
  have hcheck : Talk.Acts false (.exact _ (srv.checkAuth sha256 p) _) _ _ _ _ :=
    acts_checkAuth hp srv (credential sha256 token srv.nonce) false []
  rw [List.append_nil] at hhello hanswer hcheck
  by_cases h : credential sha256 token srv.nonce = credential sha256 srv.defaultToken srv.nonce
  · have hread := acts_admitted hp srv.nonce srv.heartbeatInterval first srv.outgoing false
    rw [if_pos h, if_pos h] at hcheck
    rw [if_pos h]
    refine settles_of_leads ?_ rfl rfl
    refine Leads.trans (Leads.left (.write _ _ _) rfl) ?_
    refine Leads.trans (Leads.right hhello rfl) ?_
    refine Leads.trans (Leads.left hanswer rfl) ?_
    refine Leads.trans (Leads.right hcheck rfl) ?_
    exact Leads.left hread rfl
  · have hread := acts_rejected hp hbare srv.nonce first [] true
    rw [List.append_nil] at hread
    rw [if_neg h, if_neg h] at hcheck
    rw [if_neg h]
    refine settles_of_leads ?_ rfl rfl
    refine Leads.trans (Leads.left (.write _ _ _) rfl) ?_
    refine Leads.trans (Leads.right hhello rfl) ?_
    refine Leads.trans (Leads.left hanswer rfl) ?_
    refine Leads.trans (Leads.right hcheck rfl) ?_
    exact Leads.left_reads hread rfl

/-- The right token opens the session, a wrong one does not. -/
theorem session_opens_tokens :
    (∃ r, SettlesIn (step SessionEnd.closes Served.closes)
      (start (handshake frontDigest postcard [1, 2] zeroDigest [])
        ((oneService [1, 2] zeroDigest).handleConnection frontDigest postcard)) r ∧
        r.left = .done (.ok zeroDigest 30) ∧ r.right = .done (.session zeroDigest)) ∧
    ∃ r, SettlesIn (step SessionEnd.closes Served.closes)
      (start (handshake frontDigest postcard [1, 3] zeroDigest [])
        ((oneService [1, 2] zeroDigest).handleConnection frontDigest postcard)) r ∧
        r.left = .done .authFailed ∧ r.right = .done .authFailed := by
  have hbare : postcard.toStdvec .authFailed ≠ [0] := by decide
  have hopens : ∀ token, SettlesIn (step SessionEnd.closes Served.closes)
      (start (handshake frontDigest postcard token zeroDigest [])
        ((oneService [1, 2] zeroDigest).handleConnection frontDigest postcard)) _ := fun token =>
    session_opens postcard_format hbare rfl rfl token zeroDigest []
  have hsame : credential frontDigest [1, 2] (oneService [1, 2] zeroDigest).nonce =
      credential frontDigest (oneService [1, 2] zeroDigest).defaultToken
        (oneService [1, 2] zeroDigest).nonce := rfl
  have hother : credential frontDigest [1, 3] (oneService [1, 2] zeroDigest).nonce ≠
      credential frontDigest (oneService [1, 2] zeroDigest).defaultToken
        (oneService [1, 2] zeroDigest).nonce := by decide
  have hright := hopens [1, 2]
  have hwrong := hopens [1, 3]
  rw [if_pos hsame] at hright
  rw [if_neg hother] at hwrong
  exact ⟨⟨_, hright, rfl, rfl⟩, ⟨_, hwrong, rfl, rfl⟩⟩

/-- A client's read of the hello of a server that hung up. -/
theorem acts_unanswered (k : ProtocolVersion → Hello → Talk SessionEnd) :
    Talk.Acts true (readHello .unansweredHello k) [] (.done (.unansweredHello .read)) [] [] :=
  .exact_eof _ _ (Nat.zero_lt_succ 2)

/-- A plain connection, or one of the other carrier, gets no session: the server says nothing, its
nonce least of all. -/
theorem control_refused {srv : Server} (hrefused : (srv.kcp || srv.plain) = true) (token : Bytes)
    (tag : Digest) (first : Bytes) :
    SettlesIn (step SessionEnd.closes Served.closes)
      (start (handshake sha256 p token tag first) (srv.handleConnection sha256 p))
      { left := .done (.unansweredHello .read)
        right := .done (if srv.kcp then .controlOnKcp else .plaintextControl)
        toLeft := []
        toRight := []
        leftSaid := (Hello.controlChannelHello currentProtoVersion tag).toStdvec
        rightSaid := [] } := by
  have hcase : srv.serveHello sha256 p (.controlChannelHello currentProtoVersion tag) =
      .done (if srv.kcp then .controlOnKcp else .plaintextControl) := by
    rw [Server.serveHello]
    cases hkcp : srv.kcp with
    | true => rfl
    | false =>
      rw [hkcp, Bool.false_or] at hrefused
      rw [hrefused]
      rfl
  have hhello : Talk.Acts false (srv.handleConnection sha256 p)
      (Hello.controlChannelHello currentProtoVersion tag).toStdvec
      (.done (if srv.kcp then .controlOnKcp else .plaintextControl)) [] [] := by
    have hread : Talk.Acts false (srv.handleConnection sha256 p) _ _ _ _ :=
      acts_readHello (h := .controlChannelHello currentProtoVersion tag) current_supported false []
    rw [List.append_nil] at hread
    exact hcase ▸ hread
  have hover : hungUp Served.closes
      (.done (if srv.kcp then .controlOnKcp else .plaintextControl)) = true := by
    split <;> rfl
  refine settles_of_leads ?_ rfl rfl
  refine Leads.trans (Leads.left (.write _ _ _) rfl) ?_
  refine Leads.trans (Leads.right_reads hhello rfl) ?_
  exact Leads.left_reads (acts_unanswered _) hover

/-- **Another dialect is refused on its first three bytes**, whatever follows them: the server says
nothing, and the client is told that its hello was not answered. -/
theorem dialect_refused (srv : Server) {tag major minor : Byte}
    (hv : (⟨major, minor⟩ : ProtocolVersion) ∉ supportedProtoVersions) (more : Bytes)
    (k : ProtocolVersion → Hello → Talk SessionEnd) :
    SettlesIn (step SessionEnd.closes Served.closes)
      (start (.write ([tag, major, minor] ++ more) (readHello .unansweredHello k))
        (srv.handleConnection sha256 p))
      { left := .done (.unansweredHello .read)
        right := .done (.refusedHello (.version ⟨major, minor⟩))
        toLeft := []
        toRight := more
        leftSaid := [tag, major, minor] ++ more
        rightSaid := [] } := by
  have hhello : Talk.Acts false (srv.handleConnection sha256 p) _ _ _ _ :=
    acts_readHello_version tag hv false more
  refine settles_of_leads ?_ rfl rfl
  refine Leads.trans (Leads.left (.write _ _ _) rfl) ?_
  refine Leads.trans (Leads.right_reads hhello rfl) ?_
  exact Leads.left_reads (acts_unanswered k) rfl

/-! ### Tunnels -/

/-- What becomes of a tunnel, by the valve's answer. -/
def tunnelOutcome (p : Postcard ControlStream.Ack) (srv : Server) (nonce : Digest) (first : Bytes) :
    TunnelSlot → Dialogue TunnelEnd Served
  | .noSession =>
    { left := .done .broken
      right := .done .noSession
      toLeft := []
      toRight := []
      leftSaid := (Hello.dataChannelTunnelHello currentProtoVersion nonce).toStdvec
      rightSaid := [] }
  | .held =>
    { left := .done .established
      right := .done (.tunnel nonce)
      toLeft := srv.outgoing
      toRight := first
      leftSaid := (Hello.dataChannelTunnelHello currentProtoVersion nonce).toStdvec ++ first
      rightSaid := p.toStdvec .ok ++ srv.outgoing }
  | .overCap =>
    { left := .done (.refused .tunnelRefused)
      right := .done .tunnelRefused
      toLeft := []
      toRight := []
      leftSaid := (Hello.dataChannelTunnelHello currentProtoVersion nonce).toStdvec
      rightSaid := p.toStdvec .tunnelRefused }

/-- The client makes of the one byte what its valve's answer says. -/
theorem acts_tunnelAck (hp : Format p) {ack : ControlStream.Ack}
    (hack : ack = .ok ∨ ack = .tunnelRefused) (first rest : Bytes) (ended : Bool) :
    Talk.Acts ended (Talk.read (afterTunnelAck first) .broken .broken (readAck p))
      (p.toStdvec ack ++ rest)
      (.done (if ack = .ok then .established else .refused ack)) rest
      (if ack = .ok then first else []) := by
  obtain rfl | rfl := hack
  · refine (Talk.Acts.read _ _ _ (poll_readAck hp rfl rfl rest)).silent ?_
    exact .write _ _ _
  · refine (Talk.Acts.read _ _ _ (poll_readAck hp rfl rfl rest)).silent ?_
    exact .refl _ _

/-- **A tunnel is up at both ends or at neither**: the valve's answer decides, and a refusal reaches
the client as one. -/
theorem tunnel_opens (hp : Format p) (srv : Server) (nonce : Digest) (first : Bytes) :
    SettlesIn (step TunnelEnd.closes Served.closes)
      (start (establishTunnel p nonce first) (srv.handleConnection sha256 p))
      (tunnelOutcome p srv nonce first (srv.reserveTunnel nonce)) := by
  have hread : Talk.Acts false (srv.handleConnection sha256 p) _ (srv.doV4Tunnel p nonce) _ _ :=
    acts_readHello (h := .dataChannelTunnelHello currentProtoVersion nonce) current_supported false
      []
  rw [List.append_nil, Server.doV4Tunnel] at hread
  cases hslot : srv.reserveTunnel nonce with
  | noSession =>
    rw [hslot] at hread
    refine settles_of_leads ?_ rfl rfl
    refine Leads.trans (Leads.left (.write _ _ _) rfl) ?_
    refine Leads.trans (Leads.right_reads hread rfl) ?_
    exact Leads.left_reads (.exact_eof _ _ Nat.one_pos) rfl
  | held =>
    rw [hslot] at hread
    have hack := acts_tunnelAck hp (Or.inl rfl) first srv.outgoing false
    refine settles_of_leads ?_ rfl rfl
    refine Leads.trans (Leads.left (.write _ _ _) rfl) ?_
    refine Leads.trans (Leads.right (hread.silent ((Talk.Acts.write _ _ _).trans (.write _ _ _)))
      rfl) ?_
    exact Leads.left hack rfl
  | overCap =>
    rw [hslot] at hread
    have hack := acts_tunnelAck hp (Or.inr rfl) first [] true
    rw [List.append_nil] at hack
    refine settles_of_leads ?_ rfl rfl
    refine Leads.trans (Leads.left (.write _ _ _) rfl) ?_
    refine Leads.trans (Leads.right (hread.silent (.write _ _ _)) rfl) ?_
    exact Leads.left_reads hack rfl

/-- A tunnel of a live session is held, and carries on with what follows the ack. -/
theorem tunnel_opens_held :
    ∃ r, SettlesIn (step TunnelEnd.closes Served.closes)
      (start (establishTunnel postcard zeroDigest [5])
        ((oneService [] zeroDigest).handleConnection frontDigest postcard)) r ∧
        r.left = .done .established ∧ r.right = .done (.tunnel zeroDigest) ∧ r.toRight = [5] :=
  ⟨_, tunnel_opens postcard_format (oneService [] zeroDigest) zeroDigest [5], rfl, rfl, rfl⟩

/-! ### Data channels -/

theorem wordAt_self (x : U32) : wordAt (word x) 0 = x := by
  simpa using wordAt_word x []

/-- The lane the client names on a direct channel: a claim's channels do. -/
def DataChannelArgs.lane (args : DataChannelArgs) : Option U32 :=
  if args.serviceType = .transparent then some args.nextLaneId else none

/-- The lane's half of the prologue. -/
def DataChannelArgs.laneHalf (args : DataChannelArgs) : Bytes :=
  if args.serviceType = .transparent then word args.nextLaneId else []

/-- The prologue of a direct channel. -/
def DataChannelArgs.prologue (args : DataChannelArgs) : Bytes :=
  word args.serviceId ++ args.laneHalf

theorem runDataChannel_eq (args : DataChannelArgs) :
    args.runDataChannel =
      .write (Hello.dataChannelHello currentProtoVersion args.sessionNonce).toStdvec
        (.write args.prologue (args.forwardDataChannel args.lane)) := by
  rw [DataChannelArgs.runDataChannel, DataChannelArgs.prologue, DataChannelArgs.laneHalf,
    DataChannelArgs.lane]
  split
  · rfl
  · rw [List.append_nil]

/-- The server finds the service the prologue names. -/
theorem acts_direct (srv : Server) (nonce : Digest) (service : U32) (ended : Bool) (rest : Bytes) :
    Talk.Acts ended (srv.handleConnection sha256 p)
      ((Hello.dataChannelHello currentProtoVersion nonce).toStdvec ++ (word service ++ rest))
      (srv.doV4DataChannel nonce service) rest [] := by
  refine (acts_readHello (h := .dataChannelHello currentProtoVersion nonce) current_supported ended
    (word service ++ rest)).silent ?_
  have hread : Talk.Acts ended
      (.exact 4 (fun id => srv.doV4DataChannel nonce (wordAt id 0)) .noPrologue)
      (word service ++ rest) (srv.doV4DataChannel nonce (wordAt (word service) 0)) rest [] :=
    .exact _ _ rest (word_length service)
  rwa [wordAt_self] at hread

/-- The valve has a lane for a claim's channel; the others need none. -/
def Server.admits (srv : Server) (nonce : Digest) : Start → Bool
  | .transparent _ => srv.reserveLane nonce
  | _ => true

/-- The pool of the service starts the channel. -/
theorem acts_startChannel (srv : Server) (args : DataChannelArgs) (start : Start)
    (hkind : start.serviceType = args.serviceType)
    (hlane : srv.admits args.sessionNonce start = true) (ended : Bool) (rest : Bytes) :
    Talk.Acts ended (srv.startChannel args.sessionNonce args.serviceId start)
      (args.laneHalf ++ rest)
      (.done (.dataChannel args.sessionNonce args.serviceId start args.lane)) rest
      (start.cmd.toStdvec ++ srv.outgoing) := by
  cases start with
  | udp | stripedTcp group index count =>
    have hno : args.serviceType ≠ .transparent := by
      rw [← hkind, Start.serviceType]
      decide
    rw [DataChannelArgs.lane, DataChannelArgs.laneHalf, if_neg hno, if_neg hno]
    exact (Talk.Acts.write _ _ _).trans (.write _ _ _)
  | transparent wire =>
    have hyes : args.serviceType = .transparent := hkind.symm
    rw [DataChannelArgs.lane, DataChannelArgs.laneHalf, if_pos hyes, if_pos hyes]
    refine (Talk.Acts.exact _ _ _ (word_length args.nextLaneId)).silent ?_
    have hroom : srv.reserveLane args.sessionNonce = true := hlane
    rw [if_pos hroom, wordAt_self]
    exact (Talk.Acts.write _ _ _).trans (.write _ _ _)

/-- A lane the valve has no room for is dropped once it has named itself. -/
theorem acts_laneRefused (srv : Server) (args : DataChannelArgs) {start : Start}
    (hkind : start.serviceType = args.serviceType)
    (hlane : srv.admits args.sessionNonce start = false) (ended : Bool) (rest : Bytes) :
    Talk.Acts ended (srv.startChannel args.sessionNonce args.serviceId start)
      (args.laneHalf ++ rest)
      (.done (.laneRefused args.sessionNonce args.serviceId)) rest [] := by
  cases start with
  | udp => cases hlane
  | stripedTcp group index count => cases hlane
  | transparent wire =>
    have hyes : args.serviceType = .transparent := hkind.symm
    rw [DataChannelArgs.laneHalf, if_pos hyes]
    refine (Talk.Acts.exact _ _ _ (word_length args.nextLaneId)).silent ?_
    have hfull : ¬ srv.reserveLane args.sessionNonce = true := Bool.eq_false_iff.mp hlane
    rw [if_neg hfull]
    exact .refl _ _

/-- The client takes the command, or refuses it, and reads nothing behind it. -/
theorem acts_forward (args : DataChannelArgs) (cmd : DataChannelCmd) (lane : Option U32)
    (ended : Bool) (rest : Bytes) :
    Talk.Acts ended (args.forwardDataChannel lane) (cmd.toStdvec ++ rest)
      (.done (args.takeCommand lane cmd)) rest
      (args.trafficOn (args.takeCommand lane cmd)) :=
  (Talk.Acts.read _ _ _ (poll_readDataCmd cmd rest)).silent (.write _ _ _)

/-- What a client that refuses a command is short of. -/
def DataChannelArgs.Lacks (args : DataChannelArgs) : Start → Prop
  | .udp => args.udpHub = false
  | .stripedTcp group index count => args.register group index count ≠ .complete
  | .transparent wire => args.device = none ∨ args.setWireFormat wire = false ∨
      (wire = .vnet ∧ args.device = some .ip)

/-- A command for a service of its kind is refused for want of something, and for nothing else. -/
theorem takeCommand_forwards_iff (args : DataChannelArgs) {begun : Start}
    (hkind : begun.serviceType = args.serviceType) (lane : Option U32) :
    args.takeCommand lane begun.cmd = .forwarding begun.cmd lane ↔ ¬ args.Lacks begun := by
  cases begun with
  | udp =>
    have hsame : ¬ args.serviceType ≠ .udp := not_not_intro hkind.symm
    rw [Start.cmd, DataChannelArgs.takeCommand, if_neg hsame, DataChannelArgs.Lacks]
    cases args.udpHub <;> simp
  | stripedTcp group index count =>
    have hsame : ¬ args.serviceType ≠ .tcp := not_not_intro hkind.symm
    rw [Start.cmd, DataChannelArgs.takeCommand, if_neg hsame, DataChannelArgs.registerStripe,
      DataChannelArgs.Lacks]
    cases args.register group index count <;> simp
  | transparent wire =>
    have hsame : ¬ args.serviceType ≠ .transparent := not_not_intro hkind.symm
    rw [Start.cmd, DataChannelArgs.takeCommand, if_neg hsame, DataChannelArgs.runTransparentChannel,
      DataChannelArgs.Lacks]
    cases args.device with
    | none => simp
    | some format => cases hwire : args.setWireFormat wire <;> cases wire <;> cases format <;> simp

/-- What becomes of a direct channel, by how the service's pool starts it. -/
def channelOutcome (srv : Server) (args : DataChannelArgs) :
    Option Start → Dialogue ChannelEnd Served
  | some begun =>
    if srv.admits args.sessionNonce begun then
      { left := .done (args.takeCommand args.lane begun.cmd)
        right := .done (.dataChannel args.sessionNonce args.serviceId begun args.lane)
        toLeft := srv.outgoing
        toRight := args.trafficOn (args.takeCommand args.lane begun.cmd)
        leftSaid := (Hello.dataChannelHello currentProtoVersion args.sessionNonce).toStdvec ++
          args.prologue ++ args.trafficOn (args.takeCommand args.lane begun.cmd)
        rightSaid := begun.cmd.toStdvec ++ srv.outgoing }
    else
      { left := .done .closed
        right := .done (.laneRefused args.sessionNonce args.serviceId)
        toLeft := []
        toRight := []
        leftSaid := (Hello.dataChannelHello currentProtoVersion args.sessionNonce).toStdvec ++
          args.prologue
        rightSaid := [] }
  | none =>
    { left := .done .closed
      right := .done (.unknownService args.sessionNonce args.serviceId)
      toLeft := []
      toRight := args.laneHalf
      leftSaid := (Hello.dataChannelHello currentProtoVersion args.sessionNonce).toStdvec ++
        args.prologue
      rightSaid := [] }

/-- **A direct channel opens for the service it names**, on the session its nonce names: whatever
the order and the cuts, both ends come to forward what the service's pool started, both know the
lane of a claim's channel, and the traffic of both directions is untouched.  Where the client cannot
take the command it ends its own end and sends nothing behind the prologue.  A service that is not
live, and a lane the valve has no room for, get nothing but the end of the stream. -/
theorem data_channel_opens (srv : Server) (args : DataChannelArgs)
    (hkind : ∀ begun, srv.registered args.sessionNonce args.serviceId = some begun →
      begun.serviceType = args.serviceType) :
    SettlesIn (step ChannelEnd.closes Served.closes)
      (start args.runDataChannel (srv.handleConnection sha256 p))
      (channelOutcome srv args (srv.registered args.sessionNonce args.serviceId)) := by
  have hdirect : Talk.Acts false (srv.handleConnection sha256 p)
      ((Hello.dataChannelHello currentProtoVersion args.sessionNonce).toStdvec ++ args.prologue)
      (srv.doV4DataChannel args.sessionNonce args.serviceId) args.laneHalf [] :=
    acts_direct srv args.sessionNonce args.serviceId false args.laneHalf
  have hopen : Talk.Acts false args.runDataChannel [] (args.forwardDataChannel args.lane) []
      ((Hello.dataChannelHello currentProtoVersion args.sessionNonce).toStdvec ++
        args.prologue) := by
    rw [runDataChannel_eq]
    exact (Talk.Acts.write _ _ _).trans (.write _ _ _)
  cases hstart : srv.registered args.sessionNonce args.serviceId with
  | none =>
    rw [Server.doV4DataChannel, hstart] at hdirect
    refine settles_of_leads ?_ rfl rfl
    refine Leads.trans (Leads.left hopen rfl) ?_
    refine Leads.trans (Leads.right_reads hdirect rfl) ?_
    exact Leads.left_reads (.exact_eof _ _ Nat.one_pos) rfl
  | some begun =>
    have hsame := hkind begun hstart
    rw [Server.doV4DataChannel, hstart] at hdirect
    rw [channelOutcome]
    cases hlane : srv.admits args.sessionNonce begun with
    | true =>
      have hstarts := acts_startChannel srv args begun hsame hlane false []
      have hforward := acts_forward args begun.cmd args.lane false srv.outgoing
      rw [List.append_nil] at hstarts
      rw [if_pos rfl]
      refine settles_of_leads ?_ rfl rfl
      refine Leads.trans (Leads.left hopen rfl) ?_
      refine Leads.trans (Leads.right (hdirect.silent hstarts) rfl) ?_
      exact Leads.left hforward rfl
    | false =>
      have hrefused := acts_laneRefused srv args hsame hlane false []
      rw [List.append_nil] at hrefused
      rw [if_neg Bool.false_ne_true]
      refine settles_of_leads ?_ rfl rfl
      refine Leads.trans (Leads.left hopen rfl) ?_
      refine Leads.trans (Leads.right_reads (hdirect.silent hrefused) rfl) ?_
      exact Leads.left_reads (.exact_eof _ _ Nat.one_pos) rfl

/-- A UDP service's channel: no stripes, no packet device. -/
def udpChannel (service : U32) (traffic : Bytes) : DataChannelArgs where
  sessionNonce := zeroDigest
  serviceId := service
  serviceType := .udp
  nextLaneId := 0
  udpHub := true
  register _ _ _ := .refused
  device := none
  setWireFormat _ := true
  traffic := traffic

/-- The live service's channel opens; another id's gets the end of the stream. -/
theorem data_channel_opens_one :
    (∃ r, SettlesIn (step ChannelEnd.closes Served.closes)
      (start (udpChannel 7 [9]).runDataChannel
        ((oneService [] zeroDigest).handleConnection frontDigest postcard)) r ∧
        r.left = .done (.forwarding .startForwardUdp none) ∧ r.toRight = [9]) ∧
    ∃ r, SettlesIn (step ChannelEnd.closes Served.closes)
      (start (udpChannel 8 [9]).runDataChannel
        ((oneService [] zeroDigest).handleConnection frontDigest postcard)) r ∧
        r.left = .done .closed := by
  have hlive : (oneService [] zeroDigest).registered zeroDigest 7 = some .udp := by decide
  have hgone : (oneService [] zeroDigest).registered zeroDigest 8 = none := by decide
  have hopens : SettlesIn _
      (start _ ((oneService [] zeroDigest).handleConnection frontDigest postcard)) _ :=
    data_channel_opens (oneService [] zeroDigest) (udpChannel 7 [9]) (by
      intro begun hbegun
      cases hlive.symm.trans hbegun
      rfl)
  have hcloses : SettlesIn _
      (start _ ((oneService [] zeroDigest).handleConnection frontDigest postcard)) _ :=
    data_channel_opens (oneService [] zeroDigest) (udpChannel 8 [9]) (by
      intro begun hbegun
      cases hgone.symm.trans hbegun)
  have hopened : (oneService [] zeroDigest).registered (udpChannel 7 [9]).sessionNonce
      (udpChannel 7 [9]).serviceId = some .udp := hlive
  have hclosed : (oneService [] zeroDigest).registered (udpChannel 8 [9]).sessionNonce
      (udpChannel 8 [9]).serviceId = none := hgone
  rw [hopened] at hopens
  rw [hclosed] at hcloses
  exact ⟨⟨_, hopens, rfl, rfl⟩, ⟨_, hcloses, rfl⟩⟩

/-- **A stream of a tunnel opens for the service it names**, as a direct channel does; a claim's
traffic is never on one. -/
theorem mux_channel_opens (srv : Server) (args : DataChannelArgs) (tunnel : U32) {begun : Start}
    (hlive : srv.registered args.sessionNonce args.serviceId = some begun)
    (hkind : begun.serviceType = args.serviceType) (hmux : args.serviceType ≠ .transparent) :
    SettlesIn (step ChannelEnd.closes Served.closes)
      (start (args.runMuxDataChannel tunnel) (srv.routeTunnelStream args.sessionNonce))
      { left := .done (args.takeCommand none begun.cmd)
        right := .done (.dataChannel args.sessionNonce args.serviceId begun none)
        toLeft := srv.outgoing
        toRight := args.trafficOn (args.takeCommand none begun.cmd)
        leftSaid := word args.serviceId ++ word tunnel ++
          args.trafficOn (args.takeCommand none begun.cmd)
        rightSaid := begun.cmd.toStdvec ++ srv.outgoing } := by
  have hlen : (word args.serviceId ++ word tunnel).length = 8 := by
    rw [List.length_append, word_length, word_length]
  have hlane : args.lane = none := if_neg hmux
  have hhalf : args.laneHalf = [] := if_neg hmux
  have hadmits : srv.admits args.sessionNonce begun = true := by
    cases begun with
    | udp | stripedTcp group index count => rfl
    | transparent wire => exact absurd hkind.symm hmux
  have hstarts := acts_startChannel srv args begun hkind hadmits false []
  rw [hlane, hhalf, List.append_nil] at hstarts
  have hroute : Talk.Acts false (srv.routeTunnelStream args.sessionNonce)
      (word args.serviceId ++ word tunnel ++ [])
      (srv.doV4DataChannel args.sessionNonce
        (wordAt (word args.serviceId ++ word tunnel) 0)) [] [] := .exact _ _ [] hlen
  rw [wordAt_word, List.append_nil, Server.doV4DataChannel, hlive] at hroute
  have hforward := acts_forward args begun.cmd none false srv.outgoing
  refine settles_of_leads ?_ rfl rfl
  refine Leads.trans (Leads.left (.write _ _ _) rfl) ?_
  refine Leads.trans (Leads.right (hroute.silent hstarts) rfl) ?_
  exact Leads.left hforward rfl

theorem mux_channel_opens_one :
    ∃ r, SettlesIn (step ChannelEnd.closes Served.closes)
      (start ((udpChannel 7 [9]).runMuxDataChannel 3)
        ((oneService [] zeroDigest).routeTunnelStream zeroDigest)) r ∧
        r.left = .done (.forwarding .startForwardUdp none) ∧ r.toRight = [9] := by
  have hlive : (oneService [] zeroDigest).registered zeroDigest 7 = some .udp := by decide
  exact ⟨_, mux_channel_opens (oneService [] zeroDigest) (udpChannel 7 [9]) 3 hlive rfl (by decide),
    rfl, rfl⟩

end Openings

/-! ## 6. Any peer at all -/

section Strangers

open Dialogue

variable {sha256 : Bytes → Digest} {p : Postcard ControlStream.Ack} {srv : Server}

/-- What the peer has shown for what the server gives it. -/
def Server.Earned (sha256 : Bytes → Digest) (srv : Server) (said : Bytes) : Served → Prop
  | .session nonce =>
    nonce = srv.nonce ∧ srv.plain = false ∧ srv.kcp = false ∧
      ∃ tag, (Hello.controlChannelHello currentProtoVersion tag).toStdvec ++
        (credential sha256 srv.defaultToken srv.nonce).val <+: said
  | .dataChannel nonce service begun lane =>
    srv.registered nonce service = some begun ∧ srv.admits nonce begun = true ∧
      (Hello.dataChannelHello currentProtoVersion nonce).toStdvec ++
        (word service ++ lane.elim [] word) <+: said
  | .tunnel nonce =>
    srv.reserveTunnel nonce = .held ∧
      (Hello.dataChannelTunnelHello currentProtoVersion nonce).toStdvec <+: said
  | _ => True

theorem eq_current {v : ProtocolVersion} (h : v ∈ supportedProtoVersions) :
    v = currentProtoVersion := List.mem_singleton.mp h

theorem word_wordAt {buf : Bytes} (h : buf.length = 4) : word (wordAt buf 0) = buf := by
  have htake : buf.take 0 ++ word (wordAt buf 0) = buf.take (0 + 4) :=
    take_word (Nat.le_of_eq h.symm)
  rwa [List.take_zero, List.nil_append, Nat.zero_add,
    List.take_of_length_le (Nat.le_of_eq h)] at htake

/-- The end of a program that writes before it is done. -/
theorem went_write {bs heard sent : Bytes} {next : Talk Served} {r : Served}
    (h : Talk.Went (.write bs next) heard sent (.done r)) :
    ∃ sent', Talk.Went next heard sent' (.done r) := by
  obtain hne | ⟨sent', -, hgo⟩ := h.of_write
  · exact absurd rfl (hne r)
  · exact ⟨sent', hgo⟩

theorem went_done {heard sent : Bytes} {r r' : Served}
    (h : Talk.Went (.done r') heard sent (.done r)) : r = r' := Talk.done.inj h.of_done.2

/-- What the pool gives, it was handed a live service for. -/
theorem went_doV4DataChannel {nonce : Digest} {service : U32} {heard sent : Bytes} {r : Served}
    (h : Talk.Went (srv.doV4DataChannel nonce service) heard sent (.done r)) :
    srv.Earned sha256 ((Hello.dataChannelHello currentProtoVersion nonce).toStdvec ++
      (word service ++ heard)) r := by
  rw [Server.doV4DataChannel] at h
  split at h
  next begun hlive =>
    cases begun with
    | udp | stripedTcp group index count =>
      obtain ⟨_, h⟩ := went_write h
      obtain ⟨_, h⟩ := went_write h
      cases went_done h
      refine ⟨hlive, rfl, heard, ?_⟩
      simp
    | transparent wire =>
      obtain ⟨-, hres⟩ | ⟨buf, heard', rfl, hlen, h⟩ := Talk.Went.of_exact h
      · cases hres r rfl
        trivial
      split at h
      case isFalse =>
        cases went_done h
        trivial
      obtain ⟨_, h⟩ := went_write h
      obtain ⟨_, h⟩ := went_write h
      cases went_done h
      refine ⟨hlive, ‹_›, heard', ?_⟩
      simp [word_wordAt hlen]
  next =>
    cases went_done h
    trivial

/-- What a credential earns. -/
theorem went_checkAuth {d heard sent : Bytes} {r : Served}
    (h : Talk.Went (srv.checkAuth sha256 p d) heard sent (.done r)) :
    (r = .session srv.nonce ∧ d = (credential sha256 srv.defaultToken srv.nonce).val) ∨
      r = .ackTooLarge ∨ r = .authFailed := by
  rw [Server.checkAuth] at h
  split at h
  case isTrue hd =>
    split at h
    · obtain ⟨_, h⟩ := went_write h
      obtain ⟨_, h⟩ := went_write h
      exact Or.inl ⟨went_done h, hd⟩
    · exact Or.inr (Or.inl (went_done h))
  case isFalse =>
    obtain ⟨_, h⟩ := went_write h
    exact Or.inr (Or.inr (went_done h))

/-- What a hello earns, with what follows it. -/
theorem went_serveHello {hello : Hello} (hv : hello.version ∈ supportedProtoVersions)
    {heard sent : Bytes} {r : Served}
    (h : Talk.Went (srv.serveHello sha256 p hello) heard sent (.done r)) :
    srv.Earned sha256 (hello.toStdvec ++ heard) r := by
  cases hello with
  | controlChannelHello v tag =>
    obtain rfl : v = currentProtoVersion := eq_current hv
    rw [Server.serveHello] at h
    split at h
    · cases went_done h
      trivial
    case isFalse hkcp =>
    split at h
    · cases went_done h
      trivial
    case isFalse hplain =>
    obtain ⟨_, h⟩ := went_write h
    obtain ⟨-, hres⟩ | ⟨buf, heard', rfl, -, h⟩ := h.of_exact
    · cases hres r rfl
      trivial
    obtain ⟨rfl, rfl⟩ | rfl | rfl := went_checkAuth h
    · refine ⟨rfl, Bool.eq_false_iff.mpr hplain, Bool.eq_false_iff.mpr hkcp, tag,
        heard', ?_⟩
      rw [List.append_assoc]
    · trivial
    · trivial
  | dataChannelHello v nonce =>
    obtain rfl : v = currentProtoVersion := eq_current hv
    obtain ⟨-, hres⟩ | ⟨buf, heard', rfl, hlen, h⟩ := Talk.Went.of_exact h
    · cases hres r rfl
      trivial
    have hearned : srv.Earned sha256 _ r := went_doV4DataChannel h
    rwa [word_wordAt hlen] at hearned
  | dataChannelTunnelHello v nonce =>
    obtain rfl : v = currentProtoVersion := eq_current hv
    rw [Server.serveHello, Server.doV4Tunnel] at h
    split at h
    · cases went_done h
      trivial
    next hheld =>
      obtain ⟨_, h⟩ := went_write h
      obtain ⟨_, h⟩ := went_write h
      cases went_done h
      exact ⟨hheld, heard, rfl⟩
    · obtain ⟨_, h⟩ := went_write h
      cases went_done h
      trivial

/-- What was earned stays so when the peer says more. -/
theorem Server.Earned.mono {said more : Bytes} {r : Served} (h : srv.Earned sha256 said r) :
    srv.Earned sha256 (said ++ more) r := by
  have hmore : said <+: said ++ more := List.prefix_append said more
  cases r with
  | session nonce =>
    obtain ⟨hn, hplain, hkcp, tag, hsaid⟩ := h
    exact ⟨hn, hplain, hkcp, tag, hsaid.trans hmore⟩
  | dataChannel nonce service begun lane => exact ⟨h.1, h.2.1, h.2.2.trans hmore⟩
  | tunnel nonce => exact ⟨h.1, h.2.trans hmore⟩
  | _ => trivial

/-- **The server gives nothing away**, whatever program runs at the other end, however its bytes are
cut and in every order of steps: a session is opened only behind a hello of this version and the
digest of the token with the nonce of this very connection, on a connection that is encrypted and
not KCP; a channel only for a service that is live on the session named, a claim's only where the
valve holds the lane; a tunnel only where it holds one for the session; and not a byte is written
before a hello of this version was heard whole. -/
theorem granted_earned {α : Type} {closes : α → Bool} {peer : Talk α} {s : Dialogue α Served}
    (h : (lts closes Served.closes peer (srv.handleConnection sha256 p)).Reach s) :
    (∀ r, s.right = .done r → srv.Earned sha256 s.leftSaid r) ∧
      (s.rightSaid ≠ [] → ∃ hello : Hello, hello.version = currentProtoVersion ∧
        hello.toStdvec <+: s.leftSaid) := by
  obtain ⟨heard, hsaid, hwent⟩ := right_went h
  rw [hsaid]
  obtain ⟨hmute, hres⟩ | ⟨hello, heard', rfl, hv, hgo⟩ := went_readHello hwent
  · refine ⟨fun r hr => ?_, fun hne => absurd hmute hne⟩
    obtain ⟨e, rfl⟩ := hres r hr
    trivial
  · refine ⟨fun r hr => ?_, fun _ => ⟨hello, eq_current hv, ?_⟩⟩
    · rw [hr] at hgo
      exact (went_serveHello hv hgo).mono
    · rw [List.append_assoc]
      exact List.prefix_append _ _

/-- A peer that says the wrong thing is refused in silence. -/
theorem granted_earned_wrong :
    ∃ s : Dialogue SessionEnd Served,
      (lts SessionEnd.closes Served.closes (.write [0, 4, 0] (.done .brokenAck))
        ((oneService [] zeroDigest).handleConnection frontDigest postcard)).Reach s ∧
      s.right = .done (.refusedHello (.version ⟨4, 0⟩)) ∧
      (s.rightSaid ≠ [] → ∃ hello : Hello, hello.version = currentProtoVersion ∧
        hello.toStdvec <+: s.leftSaid) := by
  have hrun : Lts.runWith (step SessionEnd.closes Served.closes) (fun _ _ => true)
      (start (.write [0, 4, 0] (.done .brokenAck))
        ((oneService [] zeroDigest).handleConnection frontDigest postcard))
      [.left, .left, .left, .left, .right, .right, .right, .right] =
        some ⟨.done .brokenAck, .done (.refusedHello (.version ⟨4, 0⟩)), [], [], [0, 4, 0], []⟩ :=
    rfl
  have hreach : (lts SessionEnd.closes Served.closes (.write [0, 4, 0] (.done .brokenAck))
      ((oneService [] zeroDigest).handleConnection frontDigest postcard)).Reach
        ⟨.done .brokenAck, .done (.refusedHello (.version ⟨4, 0⟩)), [], [], [0, 4, 0], []⟩ := by
    have hstart : ((lts SessionEnd.closes Served.closes (.write [0, 4, 0] (.done .brokenAck))
        ((oneService [] zeroDigest).handleConnection frontDigest postcard)).restrict
          fun _ _ => True).Reach (start _ _) := .init rfl
    exact (hstart.runWith (fun _ _ _ h => h) (fun _ _ _ => trivial) hrun).of_restrict
  exact ⟨_, hreach, rfl, (granted_earned hreach).2⟩

end Strangers

end Molehill.Session.Opening
