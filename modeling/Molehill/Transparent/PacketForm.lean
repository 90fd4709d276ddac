/-
# Which packets are read

The reader of routing fields takes every offset from the packet itself.  Here it is run on reads
that may fail, where an index outside the slice panics: none does (`parseChecked_eq`).  And what it
accepts is stated apart from it, a packet whose lengths add up (`WellFormed`), in IPv6 with the
chain of extension headers in front of the upper layer (`Chain`).

`MAX_EXTENSION_HEADERS` headers may stand before the transport header, but the walk counts the upper
layer itself as one more.  So a chain of exactly that many headers is refused
(`full_chain_refused`), and no other well-formed packet is (`parsed_well_iff`).
-/
import Molehill.Transparent.Packet

namespace Molehill.Transparent

open Lib

/-! ## 1. The kinds of headers -/

/-- What a next-header value announces, as far as the walk tells them apart. -/
inductive HeaderKind
  | options
  | auth
  | fragment
  | transport
  | upper
  deriving DecidableEq

def headerKind (next : Nat) : HeaderKind :=
  if next = 0 ∨ next = 43 ∨ next = 60 ∨ next = 135 ∨ next = 139 ∨ next = 140 then .options
  else if next = 51 then .auth
  else if next = 44 then .fragment
  else if next = tcp ∨ next = udp then .transport
  else .upper

/-- The fragment a fragment header announces, zero for the first. -/
def fragmentOffset (packet : Bytes) (offset : Nat) : Nat := fieldOf packet (offset + 2) 2 / 8

theorem headerKind_options {next : Nat} (h : headerKind next = .options) :
    next = 0 ∨ next = 43 ∨ next = 60 ∨ next = 135 ∨ next = 139 ∨ next = 140 := by
  rw [headerKind] at h
  split_ifs at h with hoptions
  exact hoptions

theorem headerKind_auth {next : Nat} (h : headerKind next = .auth) : next = 51 := by
  rw [headerKind] at h
  split_ifs at h with hoptions hauth
  exact hauth

theorem headerKind_fragment {next : Nat} (h : headerKind next = .fragment) : next = 44 := by
  rw [headerKind] at h
  split_ifs at h with hoptions hauth hfragment
  exact hfragment

theorem headerKind_transport {next : Nat} (h : headerKind next = .transport) :
    next = tcp ∨ next = udp := by
  rw [headerKind] at h
  split_ifs at h with hoptions hauth hfragment htransport
  exact htransport

section Walk

variable {packet : Bytes} {totalLen : Nat} {src dst : IpAddr} {left next offset : Nat}

theorem walkV6_options (h : headerKind next = .options) :
    walkV6 packet totalLen src dst (left + 1) next offset
      = extensionLen packet offset totalLen false >>= fun header =>
          walkV6 packet totalLen src dst left header.1 (offset + header.2) := by
  rcases headerKind_options h with rfl | rfl | rfl | rfl | rfl | rfl <;> rfl

theorem walkV6_auth (h : headerKind next = .auth) :
    walkV6 packet totalLen src dst (left + 1) next offset
      = extensionLen packet offset totalLen true >>= fun header =>
          walkV6 packet totalLen src dst left header.1 (offset + header.2) := by
  rw [headerKind_auth h]
  rfl

theorem walkV6_fragment (h : headerKind next = .fragment) :
    walkV6 packet totalLen src dst (left + 1) next offset
      = if offset + 8 > totalLen then .error .malformed
        else if fragmentOffset packet offset ≠ 0 then
          .ok ⟨byteOf packet offset, src, dst, none, none⟩
        else walkV6 packet totalLen src dst left (byteOf packet offset) (offset + 8) := by
  rw [headerKind_fragment h]
  rfl

theorem walkV6_transport (h : headerKind next = .transport) :
    walkV6 packet totalLen src dst (left + 1) next offset
      = transportPorts packet offset totalLen >>= fun ports =>
          .ok ⟨next, src, dst, ports.1, ports.2⟩ := by
  rcases headerKind_transport h with rfl | rfl <;> rfl

theorem walkV6_upper (h : headerKind next = .upper) :
    walkV6 packet totalLen src dst (left + 1) next offset
      = .ok ⟨next, src, dst, none, none⟩ := by
  rw [walkV6]
  all_goals
    rintro rfl
    exact absurd h (by decide)

end Walk

/-! ## 2. The reader on reads that may fail

`none` is a panic: an index, or a range, outside the slice. -/

/-- A computation that may panic. -/
abbrev Checked := ExceptT ParseError Option

/-- What cannot panic. -/
def unchecked {α : Type} (x : Except ParseError α) : Checked α := ExceptT.mk (some x)

/-- `packet[i]`. -/
def index (packet : Bytes) (i : Nat) : Checked Nat :=
  match packet[i]? with
  | some byte => pure byte.toNat
  | none => ExceptT.mk none

/-- The big-endian number in `packet[i..i + n]`. -/
def slice (packet : Bytes) (i n : Nat) : Checked Nat :=
  if i + n ≤ packet.length then pure (ofBe ((packet.drop i).take n)) else ExceptT.mk none

/-- `transport_ports`. -/
def transportPortsChecked (packet : Bytes) (offset totalLen : Nat) :
    Checked (Option U16 × Option U16) :=
  if offset + 4 > totalLen then throw .malformed
  else do
    let srcPort ← slice packet offset 2
    let dstPort ← slice packet (offset + 2) 2
    pure (some (BitVec.ofNat 16 srcPort), some (BitVec.ofNat 16 dstPort))

/-- `extension_len`. -/
def extensionLenChecked (packet : Bytes) (offset totalLen : Nat) (auth : Bool) :
    Checked (Nat × Nat) :=
  if offset + 2 > totalLen then throw .malformed
  else do
    let next ← index packet offset
    let units ← index packet (offset + 1)
    let len := if auth then (units + 2) * 4 else (units + 1) * 8
    if len < 8 ∨ offset + len > totalLen then throw .malformed else pure (next, len)

/-- `parse_v4`. -/
def parseV4Checked (packet : Bytes) : Checked PacketInfo :=
  if packet.length < ipv4MinHeader then throw .malformed
  else do
    let first ← index packet 0
    let headerLen := first % 16 * 4
    if headerLen < ipv4MinHeader ∨ headerLen > packet.length then throw .malformed
    else do
      let totalLen ← slice packet 2 2
      if totalLen < headerLen ∨ totalLen > packet.length then throw .malformed
      else do
        let protocol ← index packet 9
        let src ← slice packet 12 4
        let dst ← slice packet 16 4
        let fragment ← slice packet 6 2
        if fragment % 2 ^ 13 = 0 ∧ (protocol = tcp ∨ protocol = udp) then do
          let (srcPort, dstPort) ← transportPortsChecked packet headerLen totalLen
          pure ⟨protocol, .v4 (BitVec.ofNat 32 src), .v4 (BitVec.ofNat 32 dst), srcPort, dstPort⟩
        else pure ⟨protocol, .v4 (BitVec.ofNat 32 src), .v4 (BitVec.ofNat 32 dst), none, none⟩

/-- The loop of `parse_v6`. -/
def walkV6Checked (packet : Bytes) (totalLen : Nat) (src dst : IpAddr) :
    Nat → Nat → Nat → Checked PacketInfo
  | 0, _, _ => throw .malformed
  | left + 1, next, offset =>
    match headerKind next with
    | .options => do
      let (headerNext, len) ← extensionLenChecked packet offset totalLen false
      walkV6Checked packet totalLen src dst left headerNext (offset + len)
    | .auth => do
      let (headerNext, len) ← extensionLenChecked packet offset totalLen true
      walkV6Checked packet totalLen src dst left headerNext (offset + len)
    | .fragment =>
      if offset + 8 > totalLen then throw .malformed
      else do
        let fragment ← slice packet (offset + 2) 2
        let headerNext ← index packet offset
        if fragment / 8 ≠ 0 then pure ⟨headerNext, src, dst, none, none⟩
        else walkV6Checked packet totalLen src dst left headerNext (offset + 8)
    | .transport => do
      let (srcPort, dstPort) ← transportPortsChecked packet offset totalLen
      pure ⟨next, src, dst, srcPort, dstPort⟩
    | .upper => pure ⟨next, src, dst, none, none⟩

/-- `parse_v6`. -/
def parseV6Checked (packet : Bytes) : Checked PacketInfo :=
  if packet.length < ipv6MinHeader then throw .malformed
  else do
    let payloadLen ← slice packet 4 2
    let totalLen := ipv6MinHeader + payloadLen
    if payloadLen = 0 ∧ packet.length > ipv6MinHeader then throw .malformed
    else if totalLen > packet.length then throw .malformed
    else do
      let src ← slice packet 8 16
      let dst ← slice packet 24 16
      let next ← index packet 6
      walkV6Checked packet totalLen (.v6 (BitVec.ofNat 128 src)) (.v6 (BitVec.ofNat 128 dst))
        maxExtensionHeaders next ipv6MinHeader

/-- `ip::parse`. -/
def parseChecked (packet : Bytes) : Checked PacketInfo :=
  match packet.head? with
  | none => throw .malformed
  | some first =>
    match first.toNat / 16 with
    | 4 => parseV4Checked packet
    | 6 => parseV6Checked packet
    | _ => throw .notIp

section Reads

variable {packet : Bytes} {totalLen : Nat}

theorem index_eq {i : Nat} (h : i < packet.length) :
    index packet i = pure (byteOf packet i) := by
  have hbyte : packet[i]? = some (packet.getD i 0) := by
    rw [List.getD_eq_getElem?_getD, List.getElem?_eq_getElem h, Option.getD_some]
  rw [index, hbyte]
  rfl

theorem slice_eq {i n : Nat} (h : i + n ≤ packet.length) :
    slice packet i n = pure (fieldOf packet i n) := if_pos h

theorem unchecked_bind {α β : Type} (x : Except ParseError α) (f : α → Except ParseError β) :
    unchecked (x >>= f) = unchecked x >>= fun a => unchecked (f a) := by
  cases x <;> rfl

theorem transportPortsChecked_eq (htotal : totalLen ≤ packet.length) (offset : Nat) :
    transportPortsChecked packet offset totalLen
      = unchecked (transportPorts packet offset totalLen) := by
  rw [transportPortsChecked, transportPorts]
  split
  case isTrue => rfl
  case isFalse hfits =>
    rw [slice_eq (by omega), slice_eq (by omega)]
    rfl

theorem extensionLenChecked_eq (htotal : totalLen ≤ packet.length) (offset : Nat) (auth : Bool) :
    extensionLenChecked packet offset totalLen auth
      = unchecked (extensionLen packet offset totalLen auth) := by
  rw [extensionLenChecked, extensionLen]
  split
  case isTrue => rfl
  case isFalse hfits =>
    rw [index_eq (by omega), index_eq (by omega), pure_bind, pure_bind]
    dsimp only
    generalize (if auth = true then (byteOf packet (offset + 1) + 2) * 4
      else (byteOf packet (offset + 1) + 1) * 8) = len
    split <;> rfl

theorem parseV4Checked_eq (packet : Bytes) :
    parseV4Checked packet = unchecked (parseV4 packet) := by
  rw [parseV4Checked, parseV4]
  by_cases hmin : packet.length < ipv4MinHeader
  · rw [if_pos hmin, if_pos hmin]
    rfl
  rw [if_neg hmin, if_neg hmin]
  have hlen : 20 ≤ packet.length := Nat.not_lt.mp hmin
  rw [index_eq (by omega), pure_bind]
  by_cases hheader : byteOf packet 0 % 16 * 4 < ipv4MinHeader
      ∨ byteOf packet 0 % 16 * 4 > packet.length
  · rw [if_pos hheader, if_pos hheader]
    rfl
  rw [if_neg hheader, if_neg hheader, slice_eq (by omega), pure_bind]
  by_cases htotal : fieldOf packet 2 2 < byteOf packet 0 % 16 * 4
      ∨ fieldOf packet 2 2 > packet.length
  · rw [if_pos htotal, if_pos htotal]
    rfl
  rw [if_neg htotal, if_neg htotal, index_eq (by omega), slice_eq (by omega), slice_eq (by omega),
    slice_eq (by omega), pure_bind, pure_bind, pure_bind, pure_bind,
    transportPortsChecked_eq (by omega)]
  by_cases hports : fieldOf packet 6 2 % 2 ^ 13 = 0
      ∧ (byteOf packet 9 = tcp ∨ byteOf packet 9 = udp)
  · rw [if_pos hports, if_pos hports, unchecked_bind]
    rfl
  · rw [if_neg hports, if_neg hports]
    rfl

theorem walkV6Checked_eq (htotal : totalLen ≤ packet.length) (src dst : IpAddr)
    (left next offset : Nat) :
    walkV6Checked packet totalLen src dst left next offset
      = unchecked (walkV6 packet totalLen src dst left next offset) := by
  induction left generalizing next offset with
  | zero => rfl
  | succ left ih =>
    rw [walkV6Checked]
    cases hkind : headerKind next with
    | options =>
      rw [walkV6_options hkind, unchecked_bind, ← extensionLenChecked_eq htotal]
      exact bind_congr fun (header : Nat × Nat) => ih header.1 (offset + header.2)
    | auth =>
      rw [walkV6_auth hkind, unchecked_bind, ← extensionLenChecked_eq htotal]
      exact bind_congr fun (header : Nat × Nat) => ih header.1 (offset + header.2)
    | fragment =>
      rw [walkV6_fragment hkind, fragmentOffset]
      dsimp only
      by_cases hfits : offset + 8 > totalLen
      · rw [if_pos hfits, if_pos hfits]
        rfl
      rw [if_neg hfits, if_neg hfits, slice_eq (by omega), index_eq (by omega), pure_bind,
        pure_bind]
      by_cases hlater : fieldOf packet (offset + 2) 2 / 8 ≠ 0
      · rw [if_pos hlater, if_pos hlater]
        rfl
      · rw [if_neg hlater, if_neg hlater, ih]
    | transport =>
      rw [walkV6_transport hkind, unchecked_bind, transportPortsChecked_eq htotal]
      rfl
    | upper =>
      rw [walkV6_upper hkind]
      rfl

theorem parseV6Checked_eq (packet : Bytes) :
    parseV6Checked packet = unchecked (parseV6 packet) := by
  rw [parseV6Checked, parseV6]
  by_cases hmin : packet.length < ipv6MinHeader
  · rw [if_pos hmin, if_pos hmin]
    rfl
  have hlen : 40 ≤ packet.length := Nat.not_lt.mp hmin
  rw [if_neg hmin, if_neg hmin, slice_eq (by omega), pure_bind]
  by_cases hjumbo : fieldOf packet 4 2 = 0 ∧ packet.length > ipv6MinHeader
  · rw [if_pos hjumbo, if_pos hjumbo]
    rfl
  rw [if_neg hjumbo, if_neg hjumbo]
  by_cases htotal : ipv6MinHeader + fieldOf packet 4 2 > packet.length
  · rw [if_pos htotal, if_pos htotal]
    rfl
  rw [if_neg htotal, if_neg htotal, slice_eq (by omega), slice_eq (by omega), index_eq (by omega),
    pure_bind, pure_bind, pure_bind]
  exact walkV6Checked_eq (Nat.not_lt.mp htotal) _ _ _ _ _

theorem ne_nil_of_version {version : Nat} (hpos : 0 < version)
    (h : byteOf packet 0 / 16 = version) : packet ≠ [] := by
  rintro rfl
  exact Nat.ne_of_lt hpos h

theorem parse_of_v4 (h : byteOf packet 0 / 16 = 4) : parse packet = parseV4 packet := by
  rw [parse, if_neg (ne_nil_of_version (by omega) h), h]
  rfl

theorem parse_of_v6 (h : byteOf packet 0 / 16 = 6) : parse packet = parseV6 packet := by
  rw [parse, if_neg (ne_nil_of_version (by omega) h), h]
  rfl

theorem parse_of_other (hne : packet ≠ []) (h4 : byteOf packet 0 / 16 ≠ 4)
    (h6 : byteOf packet 0 / 16 ≠ 6) : parse packet = .error .notIp := by
  rw [parse, if_neg hne]
  split
  case h_1 h => exact absurd h h4
  case h_2 h => exact absurd h h6
  case h_3 => rfl

/-- **No index is outside the slice.** -/
theorem parseChecked_eq (packet : Bytes) : parseChecked packet = unchecked (parse packet) := by
  cases packet with
  | nil => rfl
  | cons first rest =>
    rw [parseChecked, List.head?_cons]
    dsimp only
    by_cases h4 : first.toNat / 16 = 4
    · have hparse : parse (first :: rest) = parseV4 (first :: rest) := parse_of_v4 h4
      rw [hparse, h4]
      exact parseV4Checked_eq _
    by_cases h6 : first.toNat / 16 = 6
    · have hparse : parse (first :: rest) = parseV6 (first :: rest) := parse_of_v6 h6
      rw [hparse, h6]
      exact parseV6Checked_eq _
    have hparse : parse (first :: rest) = .error .notIp :=
      parse_of_other (List.cons_ne_nil first rest) h4 h6
    rw [hparse]
    split
    case h_1 h => exact absurd h h4
    case h_2 h => exact absurd h h6
    case h_3 => rfl

end Reads

/-! ## 3. The chain of extension headers -/

/-- The bytes of an extension header: a fragment header has eight, the others say it themselves. -/
def extensionBytes (packet : Bytes) (next offset : Nat) : Nat :=
  match headerKind next with
  | .options => (byteOf packet (offset + 1) + 1) * 8
  | .auth => (byteOf packet (offset + 1) + 2) * 4
  | _ => 8

/-- The header is one that another header follows. -/
def Extends (packet : Bytes) (next offset : Nat) : Prop :=
  headerKind next = .options ∨ headerKind next = .auth ∨
    headerKind next = .fragment ∧ fragmentOffset packet offset = 0

/-- What a chain of extension headers leads to. -/
inductive ChainEnd
  | upper (protocol : Nat)
  | transport (protocol offset : Nat)
  | laterFragment (protocol : Nat)

/-- A chain of so many extension headers, each inside the packet, and what it leads to. -/
inductive Chain (packet : Bytes) (totalLen : Nat) : Nat → Nat → Nat → ChainEnd → Prop
  | upper {next offset : Nat} (hkind : headerKind next = .upper) :
      Chain packet totalLen 0 next offset (.upper next)
  | transport {next offset : Nat} (hkind : headerKind next = .transport)
      (hports : offset + 4 ≤ totalLen) :
      Chain packet totalLen 0 next offset (.transport next offset)
  | laterFragment {next offset : Nat} (hkind : headerKind next = .fragment)
      (hfits : offset + 8 ≤ totalLen) (hlater : fragmentOffset packet offset ≠ 0) :
      Chain packet totalLen 1 next offset (.laterFragment (byteOf packet offset))
  | header {count next offset : Nat} {last : ChainEnd} (hkind : Extends packet next offset)
      (hfits : offset + extensionBytes packet next offset ≤ totalLen)
      (hrest : Chain packet totalLen count (byteOf packet offset)
        (offset + extensionBytes packet next offset) last) :
      Chain packet totalLen (count + 1) next offset last

/-- The rounds of the walk for the end of a chain: the upper layer takes one of its own. -/
def ChainEnd.rounds : ChainEnd → Nat
  | .upper _ => 1
  | .transport _ _ => 1
  | .laterFragment _ => 0

theorem ChainEnd.rounds_le (last : ChainEnd) : last.rounds ≤ 1 := by
  cases last with
  | upper => exact Nat.le_refl 1
  | transport => exact Nat.le_refl 1
  | laterFragment => exact Nat.zero_le 1

/-- What is read at the end of a chain. -/
def ChainEnd.info (packet : Bytes) (src dst : IpAddr) : ChainEnd → PacketInfo
  | .upper protocol => ⟨protocol, src, dst, none, none⟩
  | .transport protocol offset =>
    ⟨protocol, src, dst, some (BitVec.ofNat 16 (fieldOf packet offset 2)),
      some (BitVec.ofNat 16 (fieldOf packet (offset + 2) 2))⟩
  | .laterFragment protocol => ⟨protocol, src, dst, none, none⟩

section Walk

variable {packet : Bytes} {totalLen : Nat} {src dst : IpAddr} {left next offset : Nat}

theorem extensionLen_eq {auth : Bool} {len : Nat} (hlen : 8 ≤ len)
    (h : len = if auth then (byteOf packet (offset + 1) + 2) * 4
      else (byteOf packet (offset + 1) + 1) * 8) :
    extensionLen packet offset totalLen auth
      = if offset + len > totalLen then .error .malformed else .ok (byteOf packet offset, len) := by
  rw [extensionLen]
  dsimp only
  rw [← h]
  by_cases hfits : offset + len > totalLen
  · rw [if_pos hfits]
    split
    · rfl
    · exact if_pos (Or.inr hfits)
  · rw [if_neg (by omega), if_neg (by omega), if_neg hfits]

/-- **One header of the walk.** -/
theorem walkV6_header (h : Extends packet next offset) :
    walkV6 packet totalLen src dst (left + 1) next offset
      = if offset + extensionBytes packet next offset > totalLen then .error .malformed
        else walkV6 packet totalLen src dst left (byteOf packet offset)
          (offset + extensionBytes packet next offset) := by
  rcases h with hkind | hkind | ⟨hkind, hfirst⟩
  · have hlen : extensionBytes packet next offset = (byteOf packet (offset + 1) + 1) * 8 := by
      rw [extensionBytes, hkind]
    rw [walkV6_options hkind, extensionLen_eq (by omega) hlen]
    split <;> rfl
  · have hlen : extensionBytes packet next offset = (byteOf packet (offset + 1) + 2) * 4 := by
      rw [extensionBytes, hkind]
    rw [walkV6_auth hkind, extensionLen_eq (by omega) hlen]
    split <;> rfl
  · have hlen : extensionBytes packet next offset = 8 := by
      rw [extensionBytes, hkind]
    rw [walkV6_fragment hkind, hlen, if_neg (not_not_intro hfirst)]

/-- **The walk over a chain** reads its end, if it has the rounds for it. -/
theorem Chain.walk {count : Nat} {last : ChainEnd}
    (h : Chain packet totalLen count next offset last) (src dst : IpAddr) (left : Nat) :
    walkV6 packet totalLen src dst left next offset
      = if count + last.rounds ≤ left then .ok (last.info packet src dst)
        else .error .malformed := by
  induction h generalizing left with
  | upper hkind =>
    cases left with
    | zero => rfl
    | succ left =>
      rw [walkV6_upper hkind]
      exact (if_pos (Nat.le_add_left 1 left)).symm
  | transport hkind hports =>
    cases left with
    | zero => rfl
    | succ left =>
      rw [walkV6_transport hkind, transportPorts, if_neg (by omega)]
      exact (if_pos (Nat.le_add_left 1 left)).symm
  | laterFragment hkind hfits hlater =>
    cases left with
    | zero => rfl
    | succ left =>
      rw [walkV6_fragment hkind, if_neg (by omega), if_pos hlater]
      exact (if_pos (Nat.le_add_left 1 left)).symm
  | header hkind hfits hrest ih =>
    cases left with
    | zero =>
      rw [if_neg (by omega)]
      rfl
    | succ left =>
      rw [walkV6_header hkind, if_neg (by omega), ih left]
      simp only [Nat.add_right_comm _ 1, Nat.add_le_add_iff_right]

/-- **What the walk reads** is the end of a chain, for which it had the rounds. -/
theorem chain_of_walk {info : PacketInfo}
    (h : walkV6 packet totalLen src dst left next offset = .ok info) :
    ∃ count last, Chain packet totalLen count next offset last ∧ count + last.rounds ≤ left ∧
      info = last.info packet src dst := by
  induction left generalizing next offset with
  | zero => cases h
  | succ left ih =>
    have hheader : Extends packet next offset →
        ∃ count last, Chain packet totalLen count next offset last ∧
          count + last.rounds ≤ left + 1 ∧ info = last.info packet src dst := by
      intro hextends
      rw [walkV6_header hextends] at h
      split at h
      · cases h
      case isFalse hfits =>
        obtain ⟨count, last, hchain, hrounds, hinfo⟩ := ih h
        exact ⟨count + 1, last, .header hextends (Nat.not_lt.mp hfits) hchain, by omega, hinfo⟩
    cases hkind : headerKind next with
    | options => exact hheader (Or.inl hkind)
    | auth => exact hheader (Or.inr (Or.inl hkind))
    | fragment =>
      by_cases hfirst : fragmentOffset packet offset = 0
      · exact hheader (Or.inr (Or.inr ⟨hkind, hfirst⟩))
      by_cases hfits : offset + 8 > totalLen
      · rw [walkV6_fragment hkind, if_pos hfits] at h
        cases h
      · rw [walkV6_fragment hkind, if_neg hfits, if_pos hfirst] at h
        cases h
        exact ⟨1, _, .laterFragment hkind (Nat.not_lt.mp hfits) hfirst, Nat.le_add_left _ _, rfl⟩
    | transport =>
      rw [walkV6_transport hkind, transportPorts] at h
      split at h
      · cases h
      case isFalse hports =>
        cases h
        exact ⟨0, _, .transport hkind (Nat.not_lt.mp hports), Nat.le_add_left _ _, rfl⟩
    | upper =>
      rw [walkV6_upper hkind] at h
      cases h
      exact ⟨0, _, .upper hkind, Nat.le_add_left _ _, rfl⟩

end Walk

/-! ## 4. Well-formed packets -/

/-- The header length of an IPv4 packet, its options with it. -/
def headerLenV4 (packet : Bytes) : Nat := byteOf packet 0 % 16 * 4

/-- An IPv4 packet that is whole, or a first fragment, of a protocol with ports. -/
def HasPortsV4 (packet : Bytes) : Prop :=
  fieldOf packet 6 2 % 2 ^ 13 = 0 ∧ (byteOf packet 9 = tcp ∨ byteOf packet 9 = udp)

/-- An IPv4 packet whose lengths add up, its ports inside. -/
structure WellFormedV4 (packet : Bytes) : Prop where
  version : byteOf packet 0 / 16 = 4
  min_len : ipv4MinHeader ≤ packet.length
  min_header : ipv4MinHeader ≤ headerLenV4 packet
  header_fits : headerLenV4 packet ≤ fieldOf packet 2 2
  total_fits : fieldOf packet 2 2 ≤ packet.length
  ports_fit : HasPortsV4 packet → headerLenV4 packet + 4 ≤ fieldOf packet 2 2

/-- The declared length of an IPv6 packet. -/
def totalLenV6 (packet : Bytes) : Nat := ipv6MinHeader + fieldOf packet 4 2

/-- The base header of an IPv6 packet: its lengths add up, and it is no jumbogram. -/
structure BaseV6 (packet : Bytes) : Prop where
  version : byteOf packet 0 / 16 = 6
  min_len : ipv6MinHeader ≤ packet.length
  no_jumbo : ¬ (fieldOf packet 4 2 = 0 ∧ packet.length > ipv6MinHeader)
  total_fits : totalLenV6 packet ≤ packet.length

/-- The chain behind the base header. -/
def ChainV6 (packet : Bytes) (count : Nat) (last : ChainEnd) : Prop :=
  Chain packet (totalLenV6 packet) count (byteOf packet 6) ipv6MinHeader last

/-- An IPv6 packet whose lengths add up, with a chain of no more headers than allowed. -/
def WellFormedV6 (packet : Bytes) : Prop :=
  BaseV6 packet ∧ ∃ count last, ChainV6 packet count last ∧ count ≤ maxExtensionHeaders

def WellFormed (packet : Bytes) : Prop := WellFormedV4 packet ∨ WellFormedV6 packet

/-- The transport header of a whole packet, or of a first fragment. -/
def TransportAt (packet : Bytes) (protocol offset : Nat) : Prop :=
  WellFormedV4 packet ∧ HasPortsV4 packet ∧ protocol = byteOf packet 9 ∧
      offset = headerLenV4 packet ∨
    BaseV6 packet ∧ ∃ count, ChainV6 packet count (.transport protocol offset)

/-- Ports, if reported, are the two fields at the start of the transport header. -/
def ReportedPorts (packet : Bytes) (info : PacketInfo) : Prop :=
  info.srcPort = none ∧ info.dstPort = none ∨
    ∃ offset, TransportAt packet info.protocol offset ∧
      info.srcPort = some (BitVec.ofNat 16 (fieldOf packet offset 2)) ∧
      info.dstPort = some (BitVec.ofNat 16 (fieldOf packet (offset + 2) 2))

section Forms

variable {packet : Bytes}

theorem WellFormedV4.parse (h : WellFormedV4 packet) : ∃ info, parse packet = .ok info := by
  have hmin := h.min_len
  have hheader := h.min_header
  have hfits := h.header_fits
  have htotal := h.total_fits
  rw [headerLenV4] at hheader hfits
  rw [parse_of_v4 h.version, parseV4]
  dsimp only
  rw [if_neg (by omega), if_neg (by omega), if_neg (by omega)]
  by_cases hports : HasPortsV4 packet
  · have hinside := h.ports_fit hports
    rw [headerLenV4] at hinside
    rw [HasPortsV4] at hports
    rw [if_pos hports, transportPorts, if_neg (by omega)]
    exact ⟨_, rfl⟩
  · rw [HasPortsV4] at hports
    rw [if_neg hports]
    exact ⟨_, rfl⟩

theorem wellFormed_of_parseV4 {info : PacketInfo} (hversion : byteOf packet 0 / 16 = 4)
    (h : parseV4 packet = .ok info) : WellFormedV4 packet ∧ ReportedPorts packet info := by
  rw [parseV4] at h
  dsimp only at h
  by_cases hmin : packet.length < ipv4MinHeader
  · rw [if_pos hmin] at h
    cases h
  rw [if_neg hmin] at h
  by_cases hheader : byteOf packet 0 % 16 * 4 < ipv4MinHeader
      ∨ byteOf packet 0 % 16 * 4 > packet.length
  · rw [if_pos hheader] at h
    cases h
  rw [if_neg hheader] at h
  by_cases htotal : fieldOf packet 2 2 < byteOf packet 0 % 16 * 4
      ∨ fieldOf packet 2 2 > packet.length
  · rw [if_pos htotal] at h
    cases h
  rw [if_neg htotal] at h
  have hform : (HasPortsV4 packet → headerLenV4 packet + 4 ≤ fieldOf packet 2 2) →
      WellFormedV4 packet := fun hports =>
    ⟨hversion, Nat.not_lt.mp hmin, Nat.not_lt.mp fun hlt => hheader (Or.inl hlt),
      Nat.not_lt.mp fun hlt => htotal (Or.inl hlt), Nat.not_lt.mp fun hlt => htotal (Or.inr hlt),
      hports⟩
  by_cases hports : fieldOf packet 6 2 % 2 ^ 13 = 0
      ∧ (byteOf packet 9 = tcp ∨ byteOf packet 9 = udp)
  · rw [if_pos hports, transportPorts] at h
    split at h
    · cases h
    case isFalse hinside =>
      cases h
      have hwell := hform fun _ => Nat.not_lt.mp hinside
      exact ⟨hwell, Or.inr ⟨_, Or.inl ⟨hwell, hports, rfl, rfl⟩, rfl, rfl⟩⟩
  · rw [if_neg hports] at h
    cases h
    exact ⟨hform fun h => absurd h hports, Or.inl ⟨rfl, rfl⟩⟩

/-- Behind a base header, the walk. -/
theorem BaseV6.parse (h : BaseV6 packet) :
    ∃ src dst, parse packet
      = walkV6 packet (totalLenV6 packet) src dst maxExtensionHeaders (byteOf packet 6)
          ipv6MinHeader := by
  have htotal := h.total_fits
  rw [totalLenV6] at htotal
  refine ⟨.v6 (BitVec.ofNat 128 (fieldOf packet 8 16)),
    .v6 (BitVec.ofNat 128 (fieldOf packet 24 16)), ?_⟩
  rw [parse_of_v6 h.version, parseV6, if_neg (Nat.not_lt.mpr h.min_len)]
  dsimp only
  rw [if_neg h.no_jumbo, if_neg (Nat.not_lt.mpr htotal)]
  rfl

theorem baseV6_of_parseV6 {info : PacketInfo} (hversion : byteOf packet 0 / 16 = 6)
    (h : parseV6 packet = .ok info) : BaseV6 packet := by
  rw [parseV6] at h
  dsimp only at h
  by_cases hmin : packet.length < ipv6MinHeader
  · rw [if_pos hmin] at h
    cases h
  rw [if_neg hmin] at h
  by_cases hjumbo : fieldOf packet 4 2 = 0 ∧ packet.length > ipv6MinHeader
  · rw [if_pos hjumbo] at h
    cases h
  rw [if_neg hjumbo] at h
  by_cases htotal : ipv6MinHeader + fieldOf packet 4 2 > packet.length
  · rw [if_pos htotal] at h
    cases h
  exact ⟨hversion, Nat.not_lt.mp hmin, hjumbo, Nat.not_lt.mp htotal⟩

/-- **What is read is well-formed**, and its ports are those of the transport header. -/
theorem wellFormed_of_parse {info : PacketInfo} (h : parse packet = .ok info) :
    WellFormed packet ∧ ReportedPorts packet info := by
  by_cases h4 : byteOf packet 0 / 16 = 4
  · rw [parse_of_v4 h4] at h
    obtain ⟨hwell, hports⟩ := wellFormed_of_parseV4 h4 h
    exact ⟨Or.inl hwell, hports⟩
  by_cases h6 : byteOf packet 0 / 16 = 6
  · have hbase : BaseV6 packet := by
      rw [parse_of_v6 h6] at h
      exact baseV6_of_parseV6 h6 h
    obtain ⟨src, dst, hwalk⟩ := hbase.parse
    rw [hwalk] at h
    obtain ⟨count, last, hchain, hrounds, rfl⟩ := chain_of_walk h
    refine ⟨Or.inr ⟨hbase, count, last, hchain, by omega⟩, ?_⟩
    cases last with
    | upper protocol => exact Or.inl ⟨rfl, rfl⟩
    | laterFragment protocol => exact Or.inl ⟨rfl, rfl⟩
    | transport protocol offset => exact Or.inr ⟨offset, Or.inr ⟨hbase, count, hchain⟩, rfl, rfl⟩
  have hne : packet ≠ [] := by
    rintro rfl
    cases h
  rw [parse_of_other hne h4 h6] at h
  cases h

end Forms

/-! ## 5. The allowed number of headers -/

/-- An IPv6 packet with all the extension headers that are allowed in front of its upper layer. -/
def FullChain (packet : Bytes) : Prop :=
  BaseV6 packet ∧ ∃ last, ChainV6 packet maxExtensionHeaders last ∧ last.rounds = 1

/-- The reader stays inside the slice, accepts the well-formed packets and no others, and reports
the ports of the transport header. -/
structure ParsedWell (packet : Bytes) : Prop where
  inside : parseChecked packet = unchecked (parse packet)
  accepts : (∃ info, parse packet = .ok info) ↔ WellFormed packet
  ports : ∀ info, parse packet = .ok info → ReportedPorts packet info

theorem FullChain.wellFormed {packet : Bytes} (h : FullChain packet) : WellFormed packet := by
  obtain ⟨hbase, last, hchain, -⟩ := h
  exact Or.inr ⟨hbase, _, last, hchain, Nat.le_refl _⟩

/-- A full chain is refused. -/
theorem FullChain.refused {packet : Bytes} (h : FullChain packet) :
    parse packet = .error .malformed := by
  obtain ⟨hbase, last, hchain, hrounds⟩ := h
  obtain ⟨src, dst, hwalk⟩ := hbase.parse
  rw [hwalk, hchain.walk, if_neg (by omega)]

theorem WellFormed.parse {packet : Bytes} (h : WellFormed packet) (hfull : ¬ FullChain packet) :
    ∃ info, parse packet = .ok info := by
  rcases h with h4 | ⟨hbase, count, last, hchain, hcount⟩
  · exact h4.parse
  obtain ⟨src, dst, hwalk⟩ := hbase.parse
  have hrounds : count + last.rounds ≤ maxExtensionHeaders := by
    refine Nat.not_lt.mp fun hlt => hfull ?_
    have hone := last.rounds_le
    obtain rfl : count = maxExtensionHeaders := by
      omega
    exact ⟨hbase, last, hchain, by omega⟩
  rw [hwalk, hchain.walk, if_pos hrounds]
  exact ⟨_, rfl⟩

theorem FullChain.not_parsed_well {packet : Bytes} (hfull : FullChain packet) :
    ¬ ParsedWell packet := by
  intro h
  obtain ⟨info, hok⟩ := h.accepts.mpr hfull.wellFormed
  rw [hfull.refused] at hok
  cases hok

/-- **Packets are read right**, except for those with as many extension headers as are allowed. -/
theorem parsed_well_iff (packet : Bytes) : ParsedWell packet ↔ ¬ FullChain packet := by
  constructor
  · exact fun h hfull => hfull.not_parsed_well h
  · intro hfull
    refine ⟨parseChecked_eq packet, ⟨?_, fun h => h.parse hfull⟩, fun info h => ?_⟩
    · rintro ⟨info, h⟩
      exact (wellFormed_of_parse h).1
    · exact (wellFormed_of_parse h).2

/-- Sixteen headers of destination options, and no next header. -/
def sixteenHeaders : Bytes :=
  [0x60, 0, 0, 0, 0, 128, 60, 64] ++ List.replicate 32 0 ++
    (List.replicate 15 [60, 0, 0, 0, 0, 0, 0, 0]).flatten ++ [59, 0, 0, 0, 0, 0, 0, 0]

/-- The chain, from its last header on. -/
theorem sixteenHeaders_chain (k : Nat) (hk : k < 16) :
    Chain sixteenHeaders 168 (k + 1) 60 (160 - 8 * k) (.upper 59) := by
  induction k with
  | zero =>
    refine .header (Or.inl (by decide)) (by decide +kernel) ?_
    exact .upper (by decide +kernel)
  | succ k ih =>
    have hbytes : ∀ k < 15, byteOf sixteenHeaders (160 - 8 * (k + 1)) = 60 ∧
        extensionBytes sixteenHeaders 60 (160 - 8 * (k + 1)) = 8 := by
      decide +kernel
    obtain ⟨hnext, hlen⟩ := hbytes k (by omega)
    have hoffset : 160 - 8 * (k + 1) + 8 = 160 - 8 * k := by
      omega
    refine .header (Or.inl (by decide)) (by omega) ?_
    rw [hnext, hlen, hoffset]
    exact ih (by omega)

/-- **Not so**: sixteen headers are allowed, and the packet is refused. -/
theorem full_chain_refused : ¬ ∀ packet : Bytes, ParsedWell packet := by
  intro hall
  have hbase : BaseV6 sixteenHeaders :=
    ⟨by decide +kernel, by decide +kernel, by decide +kernel, by decide +kernel⟩
  have hfull : FullChain sixteenHeaders :=
    ⟨hbase, .upper 59, sixteenHeaders_chain 15 (by omega), rfl⟩
  exact hfull.not_parsed_well (hall sixteenHeaders)

end Molehill.Transparent
