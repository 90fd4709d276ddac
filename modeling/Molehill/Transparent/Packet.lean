/-
# Reading an IP packet's routing fields

`ip::parse`: the two addresses of an IPv4 or IPv6 packet, its upper-layer protocol and, when it
carries a transport header this reader knows, its ports.  A packet whose lengths do not add up is
malformed.  In IPv6 the transport header may sit behind a chain of extension headers, which is
walked for at most `maxExtensionHeaders` of them.

The one fact the routing rules rest on is `parse_port`: only TCP and UDP packets have ports.
-/
import Molehill.Lib.Bytes

namespace Molehill.Transparent

open Lib

/-- `IpAddr`. -/
inductive IpAddr
  | v4 (addr : U32)
  | v6 (addr : BitVec 128)
  deriving DecidableEq

/-- An address and a port. -/
abbrev SocketAddr := IpAddr × BitVec 16

/-- `ParseError`. -/
inductive ParseError
  | notIp
  | malformed
  deriving DecidableEq

/-- `PacketInfo`. -/
structure PacketInfo where
  protocol : Nat
  src : IpAddr
  dst : IpAddr
  srcPort : Option U16
  dstPort : Option U16
  deriving DecidableEq

def tcp : Nat := 6
def udp : Nat := 17
def ipv4MinHeader : Nat := 20
def ipv6MinHeader : Nat := 40
def maxExtensionHeaders : Nat := 16

/-! ## 1. Fields -/

/-- The byte at an offset, which every caller has checked to be inside the packet. -/
def byteOf (packet : Bytes) (i : Nat) : Nat := (packet.getD i 0).toNat

/-- The big-endian number in `n` bytes from an offset. -/
def fieldOf (packet : Bytes) (i n : Nat) : Nat := ofBe ((packet.drop i).take n)

/-- `transport_ports`. -/
def transportPorts (packet : Bytes) (offset totalLen : Nat) :
    Except ParseError (Option U16 × Option U16) :=
  if offset + 4 > totalLen then .error .malformed
  else
    .ok (some (BitVec.ofNat 16 (fieldOf packet offset 2)),
      some (BitVec.ofNat 16 (fieldOf packet (offset + 2) 2)))

/-- `extension_len`: the next header and the length of this one. -/
def extensionLen (packet : Bytes) (offset totalLen : Nat) (auth : Bool) :
    Except ParseError (Nat × Nat) :=
  if offset + 2 > totalLen then .error .malformed
  else
    let units := byteOf packet (offset + 1)
    let len := if auth then (units + 2) * 4 else (units + 1) * 8
    if len < 8 ∨ offset + len > totalLen then .error .malformed
    else .ok (byteOf packet offset, len)

/-! ## 2. The two versions -/

/-- `parse_v4`. -/
def parseV4 (packet : Bytes) : Except ParseError PacketInfo :=
  if packet.length < ipv4MinHeader then .error .malformed
  else
    let headerLen := byteOf packet 0 % 16 * 4
    let totalLen := fieldOf packet 2 2
    if headerLen < ipv4MinHeader ∨ headerLen > packet.length then .error .malformed
    else if totalLen < headerLen ∨ totalLen > packet.length then .error .malformed
    else
      let protocol := byteOf packet 9
      let src := IpAddr.v4 (BitVec.ofNat 32 (fieldOf packet 12 4))
      let dst := IpAddr.v4 (BitVec.ofNat 32 (fieldOf packet 16 4))
      let fragmentOffset := fieldOf packet 6 2 % 2 ^ 13
      if fragmentOffset = 0 ∧ (protocol = tcp ∨ protocol = udp) then do
        let (srcPort, dstPort) ← transportPorts packet headerLen totalLen
        .ok ⟨protocol, src, dst, srcPort, dstPort⟩
      else .ok ⟨protocol, src, dst, none, none⟩

/-- The walk over the extension headers; the first argument is how many more may follow. -/
def walkV6 (packet : Bytes) (totalLen : Nat) (src dst : IpAddr) :
    Nat → Nat → Nat → Except ParseError PacketInfo
  | 0, _, _ => .error .malformed
  | left + 1, next, offset =>
    match next with
    | 0 | 43 | 60 | 135 | 139 | 140 => do
      let (headerNext, len) ← extensionLen packet offset totalLen false
      walkV6 packet totalLen src dst left headerNext (offset + len)
    | 51 => do
      let (headerNext, len) ← extensionLen packet offset totalLen true
      walkV6 packet totalLen src dst left headerNext (offset + len)
    | 44 =>
      if offset + 8 > totalLen then .error .malformed
      else
        -- only the first fragment carries the transport header
        if fieldOf packet (offset + 2) 2 / 8 ≠ 0 then
          .ok ⟨byteOf packet offset, src, dst, none, none⟩
        else walkV6 packet totalLen src dst left (byteOf packet offset) (offset + 8)
    | 6 | 17 => do
      let (srcPort, dstPort) ← transportPorts packet offset totalLen
      .ok ⟨next, src, dst, srcPort, dstPort⟩
    -- ESP, no next header, ICMPv6 and every other protocol: by address only
    | _ => .ok ⟨next, src, dst, none, none⟩

/-- `parse_v6`. -/
def parseV6 (packet : Bytes) : Except ParseError PacketInfo :=
  if packet.length < ipv6MinHeader then .error .malformed
  else
    let payloadLen := fieldOf packet 4 2
    let totalLen := ipv6MinHeader + payloadLen
    if payloadLen = 0 ∧ packet.length > ipv6MinHeader then .error .malformed
    else if totalLen > packet.length then .error .malformed
    else
      walkV6 packet totalLen (.v6 (BitVec.ofNat 128 (fieldOf packet 8 16)))
        (.v6 (BitVec.ofNat 128 (fieldOf packet 24 16))) maxExtensionHeaders (byteOf packet 6)
        ipv6MinHeader

/-- `ip::parse`. -/
def parse (packet : Bytes) : Except ParseError PacketInfo :=
  if packet = [] then .error .malformed
  else
    match byteOf packet 0 / 16 with
    | 4 => parseV4 packet
    | 6 => parseV6 packet
    | _ => .error .notIp

/-! ## 3. Ports -/

/-- The packet has ports only if its protocol is one of the two with ports. -/
def PacketInfo.PortsFit (info : PacketInfo) : Prop :=
  (info.protocol = tcp ∨ info.protocol = udp) ∨ info.srcPort = none ∧ info.dstPort = none

/-- What a computation that may fail returned after its first step. -/
theorem bind_ok {ε α β : Type} {x : Except ε α} {f : α → Except ε β} {b : β}
    (h : x >>= f = .ok b) : ∃ a, x = .ok a ∧ f a = .ok b := by
  cases x with
  | error e => cases h
  | ok a => exact ⟨a, rfl, h⟩

theorem parseV4_port {packet : Bytes} {info : PacketInfo} (h : parseV4 packet = .ok info) :
    info.PortsFit := by
  simp only [parseV4] at h
  split at h
  · cases h
  split at h
  · cases h
  split at h
  · cases h
  split at h
  case isTrue hproto =>
    obtain ⟨⟨srcPort, dstPort⟩, -, hok⟩ := bind_ok h
    cases hok
    exact Or.inl hproto.2
  case isFalse =>
    cases h
    exact Or.inr ⟨rfl, rfl⟩

theorem walkV6_port {packet : Bytes} {totalLen : Nat} {src dst : IpAddr} {info : PacketInfo}
    (left next offset : Nat) (h : walkV6 packet totalLen src dst left next offset = .ok info) :
    info.PortsFit := by
  induction left generalizing next offset with
  | zero => cases h
  | succ left ih =>
    simp only [walkV6] at h
    split at h
    -- the plain extension headers and the authentication header
    iterate 7
      obtain ⟨⟨headerNext, len⟩, -, hok⟩ := bind_ok h
      exact ih _ _ hok
    · split at h
      · cases h
      split at h
      · cases h
        exact Or.inr ⟨rfl, rfl⟩
      · exact ih _ _ h
    · obtain ⟨⟨srcPort, dstPort⟩, -, hok⟩ := bind_ok h
      cases hok
      exact Or.inl (Or.inl rfl)
    · obtain ⟨⟨srcPort, dstPort⟩, -, hok⟩ := bind_ok h
      cases hok
      exact Or.inl (Or.inr rfl)
    · cases h
      exact Or.inr ⟨rfl, rfl⟩

/-- **Only TCP and UDP packets have ports.** -/
theorem parse_port {packet : Bytes} {info : PacketInfo} (h : parse packet = .ok info) :
    info.PortsFit := by
  simp only [parse] at h
  split at h
  · cases h
  split at h
  · exact parseV4_port h
  · simp only [parseV6] at h
    split at h
    · cases h
    split at h
    · cases h
    split at h
    · cases h
    exact walkV6_port _ _ _ h
  · cases h

end Molehill.Transparent
