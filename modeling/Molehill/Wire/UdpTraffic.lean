/-
# Datagrams on a UDP data channel

A UDP data channel is a byte stream; a datagram travels on it as `[hdr_len u8][header][payload]`,
the header naming the peer and the payload's length.  There are two readers, one that makes an
owned buffer (`UdpTraffic::read`) and one that reads into the caller's scratch (`read_slice`), and
both drain the payload of a datagram over the receiver's limit.

Whatever the datagrams and however the stream is cut, both readers give the same
(`udp_frames_read`): the datagrams within the limit, in order, with the frames of the others
drained.  A peer's address comes back as its IP and port; the flow label and the scope of an IPv6
address are not on the wire (`scope_is_lost`).

The codec of the header is third-party code: it is a parameter, and what the code relies on is that
it reads the address and the length back and that no header is longer than its buffer.
-/
import Molehill.Lib.FrameStream
import Molehill.Lib.Varint
import Molehill.Session.Commands

namespace Molehill.Wire

open Lib
open Molehill.Session (Postcard)

/-! ## 1. The frame -/

/-- `SocketAddr`. -/
inductive SocketAddr
  | v4 (ip : U32) (port : U16)
  | v6 (ip : BitVec 128) (port : U16) (flowinfo scopeId : U32)
  deriving DecidableEq

/-- The address as the codec has it: IP and port. -/
def SocketAddr.onWire : SocketAddr → SocketAddr
  | v4 ip port => v4 ip port
  | v6 ip port _ _ => v6 ip port 0 0

structure UdpHeader where
  addr : SocketAddr
  len : U16
  deriving DecidableEq

structure UdpTraffic where
  addr : SocketAddr
  data : Bytes
  deriving DecidableEq

def maxUdpHeaderLen : Nat := 32

/-- What the code relies on of the codec. -/
structure HeaderFormat (p : Postcard UdpHeader) : Prop where
  readsBack : ∀ h : UdpHeader, p.fromBytes (p.toStdvec h) = some { h with addr := h.addr.onWire }
  length : ∀ h, (p.toStdvec h).length ≤ maxUdpHeaderLen

/-- `encode_udp_frame`. -/
def encodeUdpFrame (p : Postcard UdpHeader) (addr : SocketAddr) (data : Bytes) : Option Bytes :=
  if data.length < 2 ^ 16 then
    let encoded := p.toStdvec ⟨addr, BitVec.ofNat 16 data.length⟩
    -- the codec writes into a buffer of this size, and fails where it does not fit
    if encoded.length ≤ maxUdpHeaderLen then
      some (BitVec.ofNat 8 encoded.length :: (encoded ++ data))
    else none
  else none

/-- `read_udp_header`. -/
def readUdpHeader {β : Type} (p : Postcard UdpHeader) (hdrLen : Byte)
    (k : UdpHeader → Reader β) : Reader β :=
  if hdrLen.toNat ≤ maxUdpHeaderLen then
    .exact hdrLen.toNat fun buf =>
      match p.fromBytes buf with
      | some hdr => k hdr
      | none => .fail
  else .fail

/-- `u16::try_from(max_len).unwrap_or(UdpPacketLen::MAX)`. -/
def limit (maxLen : Nat) : Nat := if maxLen < 2 ^ 16 then maxLen else 2 ^ 16 - 1

/-- `skip_oversized_payload`. -/
def skipOversizedPayload {β : Type} (len : U16) (dropped : β) : Reader β :=
  .exact len.toNat fun _ => .done dropped

/-- `UdpTraffic::read`. -/
def UdpTraffic.read (p : Postcard UdpHeader) (hdrLen : Byte) (maxLen : Nat) :
    Reader (Option UdpTraffic) :=
  readUdpHeader p hdrLen fun hdr =>
    if limit maxLen < hdr.len.toNat then skipOversizedPayload hdr.len none
    else .exact hdr.len.toNat fun data => .done (some ⟨hdr.addr, data⟩)

/-- `UdpTraffic::read_slice`: the result, and the scratch buffer. -/
def UdpTraffic.readSlice (p : Postcard UdpHeader) (hdrLen : Byte) (scratch : Bytes)
    (maxLen : Nat) : Reader (Option (SocketAddr × Nat) × Bytes) :=
  readUdpHeader p hdrLen fun hdr =>
    if limit maxLen < hdr.len.toNat then skipOversizedPayload hdr.len (none, scratch)
    else .exact hdr.len.toNat fun data => .done (some (hdr.addr, hdr.len.toNat), data)

/-- One turn of the client's loop: the header's length, then the datagram. -/
def readDatagram (p : Postcard UdpHeader) (maxLen : Nat) : Reader (Option UdpTraffic) :=
  .exact 1 fun b => UdpTraffic.read p (b.headD 0) maxLen

/-- One turn of the server's loop. -/
def readDatagramSlice (p : Postcard UdpHeader) (scratch : Bytes) (maxLen : Nat) :
    Reader (Option (SocketAddr × Nat) × Bytes) :=
  .exact 1 fun b => UdpTraffic.readSlice p (b.headD 0) scratch maxLen

/-! ## 2. One datagram -/

/-- What the receiver makes of a datagram. -/
def received (maxLen : Nat) (d : SocketAddr × Bytes) : Option UdpTraffic :=
  if limit maxLen < d.2.length then none else some ⟨d.1.onWire, d.2⟩

/-- What the scratch buffer holds of a datagram. -/
def ofSlice : Option (SocketAddr × Nat) × Bytes → Option UdpTraffic
  | (some (addr, len), scratch) => some ⟨addr, scratch.take len⟩
  | (none, _) => none

/-- The bytes of a frame. -/
def udpFrame (p : Postcard UdpHeader) (d : SocketAddr × Bytes) : Bytes :=
  let encoded := p.toStdvec ⟨d.1, BitVec.ofNat 16 d.2.length⟩
  BitVec.ofNat 8 encoded.length :: (encoded ++ d.2)

/-- Every datagram that a length of two bytes can name is framed. -/
theorem encodeUdpFrame_eq {p : Postcard UdpHeader} (hp : HeaderFormat p)
    {d : SocketAddr × Bytes} (hlen : d.2.length < 2 ^ 16) :
    encodeUdpFrame p d.1 d.2 = some (udpFrame p d) :=
  (if_pos hlen).trans (if_pos (hp.length _))

/-- **A frame is read back as the datagram, or drained**, and nothing behind it is touched. -/
theorem poll_readDatagram {p : Postcard UdpHeader} (hp : HeaderFormat p) (maxLen : Nat)
    {d : SocketAddr × Bytes} (hlen : d.2.length < 2 ^ 16) (rest : Bytes) :
    (readDatagram p maxLen).poll (udpFrame p d ++ rest) = (.done (received maxLen d), rest) := by
  obtain ⟨addr, data⟩ := d
  have hshort : data.length < 2 ^ 16 := hlen
  have hone : ∀ b : Byte, ([b] : Bytes).length = 1 := fun _ => rfl
  have hheader := hp.length ⟨addr, BitVec.ofNat 16 data.length⟩
  have hmax : maxUdpHeaderLen = 32 := rfl
  have hread := hp.readsBack ⟨addr, BitVec.ofNat 16 data.length⟩
  generalize hencoded : p.toStdvec ⟨addr, BitVec.ofNat 16 data.length⟩ = encoded at hheader hread
  have hhdr : (BitVec.ofNat 8 encoded.length).toNat = encoded.length := by
    rw [BitVec.toNat_ofNat]
    omega
  have hdata : (BitVec.ofNat 16 data.length).toNat = data.length := by
    rw [BitVec.toNat_ofNat]
    omega
  have hframe : udpFrame p (addr, data) ++ rest =
      [BitVec.ofNat 8 encoded.length] ++ (encoded ++ (data ++ rest)) := by
    simp only [udpFrame, hencoded, List.cons_append, List.nil_append, List.append_assoc]
  rw [hframe, readDatagram, Reader.poll_exact_append _ (hone _), List.headD_cons, UdpTraffic.read,
    readUdpHeader, hhdr, if_pos hheader, Reader.poll_exact_append _ rfl, hread]
  simp only [hdata]
  split
  case isTrue hover =>
    rw [skipOversizedPayload, hdata, Reader.poll_exact_append _ rfl, received, if_pos hover]
    rfl
  case isFalse hfits =>
    rw [Reader.poll_exact_append _ rfl, received, if_neg hfits]
    rfl

/-- **Both readers take the same bytes to the same datagrams**, whatever the stream. -/
theorem readDatagram_agrees (p : Postcard UdpHeader) (scratch : Bytes) (maxLen : Nat) :
    Reader.Agrees ofSlice (readDatagram p maxLen) (readDatagramSlice p scratch maxLen) := by
  refine Reader.Agrees.exact fun b _ => ?_
  rw [UdpTraffic.read, UdpTraffic.readSlice, readUdpHeader, readUdpHeader]
  split
  case isFalse => exact Reader.Agrees.fail
  case isTrue =>
    refine Reader.Agrees.exact fun buf _ => ?_
    split
    case h_2 => exact Reader.Agrees.fail
    case h_1 hdr _ =>
      split
      case isTrue =>
        exact Reader.Agrees.exact fun _ _ => Reader.Agrees.done (f := ofSlice) (none, scratch)
      case isFalse =>
        refine Reader.Agrees.exact fun data hdata => ?_
        have hdone := Reader.Agrees.done (f := ofSlice) (some (hdr.addr, hdr.len.toNat), data)
        rw [ofSlice, ← hdata, List.take_length] at hdone
        rwa [← hdata]

/-! ## 3. The stream -/

/-- The frames of datagrams, and the client's loop. -/
def udpFrames (p : Postcard UdpHeader) (maxLen : Nat) :
    Frames (SocketAddr × Bytes) (Option UdpTraffic) where
  reader := readDatagram p maxLen
  frame := udpFrame p
  shows := received maxLen

theorem udpFrames_reads {p : Postcard UdpHeader} (hp : HeaderFormat p) (maxLen : Nat) :
    (udpFrames p maxLen).Reads fun d => d.2.length < 2 ^ 16 where
  waits := Nat.one_pos
  reads := fun _ hlen rest => poll_readDatagram hp maxLen hlen rest

/-- The outputs of `encode_udp_frame`, one after the other. -/
def encodeAll (p : Postcard UdpHeader) (ds : List (SocketAddr × Bytes)) : Option Bytes :=
  (ds.mapM fun d => encodeUdpFrame p d.1 d.2).map List.flatten

theorem encodeAll_eq {p : Postcard UdpHeader} (hp : HeaderFormat p)
    {ds : List (SocketAddr × Bytes)} (hlen : ∀ d ∈ ds, d.2.length < 2 ^ 16) :
    encodeAll p ds = some (ds.flatMap (udpFrame p)) := by
  have hmap : (ds.mapM fun d => encodeUdpFrame p d.1 d.2) = some (ds.map (udpFrame p)) := by
    induction ds with
    | nil => rfl
    | cons d ds ih =>
      have htail := ih fun d' hd' => hlen d' (List.mem_cons_of_mem _ hd')
      rw [List.mapM_cons, encodeUdpFrame_eq hp (hlen d List.mem_cons_self), htail]
      rfl
  rw [encodeAll, hmap, Option.map_some, List.flatMap_def]

/-- What the client hands on of the datagrams it has read. -/
theorem filterMap_received (maxLen : Nat) (ds : List (SocketAddr × Bytes)) :
    (ds.map (received maxLen)).filterMap id =
      (ds.filter fun d => d.2.length ≤ limit maxLen).map fun d => ⟨d.1.onWire, d.2⟩ := by
  induction ds with
  | nil => rfl
  | cons d ds ih =>
    rw [List.map_cons, List.filter_cons]
    by_cases hover : limit maxLen < d.2.length
    · have hnone : received maxLen d = none := if_pos hover
      rw [hnone, List.filterMap_cons_none (f := id) rfl, ih, if_neg (by simpa using hover)]
    · have hsome : received maxLen d = some ⟨d.1.onWire, d.2⟩ := if_neg hover
      rw [hsome, List.filterMap_cons_some (f := id) rfl, ih, if_pos (by simpa using hover),
        List.map_cons]

/-- **The datagrams come through**: for every list of datagrams, every limit and every cut of the
stream, the client has read the first of them, in order, those over the limit drained; what is left
of the stream is the frames of the others, and when nothing is left it has handed on exactly the
datagrams within the limit.  The reader of the server's loop takes the same bytes of any stream to
the same results. -/
theorem udp_frames_read (p : Postcard UdpHeader) (hp : HeaderFormat p) (maxLen : Nat)
    (ds : List (SocketAddr × Bytes)) (hlen : ∀ d ∈ ds, d.2.length < 2 ^ 16) :
    ∃ input, encodeAll p ds = some input ∧
      (∀ s, ((udpFrames p maxLen).lts input).Reach s →
        ∃ rest : List (SocketAddr × Bytes),
          s.out ++ rest.map (received maxLen) = ds.map (received maxLen) ∧ s.failed = false ∧
          s.got ++ s.arrived ++ s.wire = rest.flatMap (udpFrame p) ∧
          (s.arrived = [] → s.wire = [] → s.out.filterMap id =
            (ds.filter fun d => d.2.length ≤ limit maxLen).map fun d => ⟨d.1.onWire, d.2⟩)) ∧
      ∀ scratch, Reader.Agrees ofSlice (readDatagram p maxLen)
        (readDatagramSlice p scratch maxLen) := by
  refine ⟨_, encodeAll_eq hp hlen, fun s hs => ?_, fun scratch => readDatagram_agrees p _ _⟩
  obtain ⟨rest, hout, hfailed, hunread, hall⟩ :=
    Frames.read_all (F := udpFrames p maxLen) (udpFrames_reads hp maxLen) hlen hs
  refine ⟨rest, hout, hfailed, hunread, fun harrived hwire => ?_⟩
  rw [hall harrived hwire]
  exact filterMap_received maxLen ds

/-! ## 4. The codec -/

/-- The address behind its tag and the length, where the IP has `k` bytes. -/
def readAddr (k : Nat) (addr : Nat → U16 → SocketAddr) (buf : Bytes) : Option UdpHeader :=
  if buf.length < k then none
  else
    (getVarint 3 (buf.drop k)).bind fun port =>
      (getVarint 3 port.2).map fun len =>
        ⟨addr (ofBe (buf.take k)) (BitVec.ofNat 16 port.1), BitVec.ofNat 16 len.1⟩

/-- The codec's format: a tag, the IP's bytes, and the port and the length as varints. -/
def udpHeaderCodec : Postcard UdpHeader where
  toStdvec
    | ⟨.v4 ip port, len⟩ =>
      0 :: (beBytes 4 ip.toNat ++ (varint 3 port.toNat ++ varint 3 len.toNat))
    | ⟨.v6 ip port _ _, len⟩ =>
      1 :: (beBytes 16 ip.toNat ++ (varint 3 port.toNat ++ varint 3 len.toNat))
  fromBytes
    | 0 :: buf => readAddr 4 (fun ip port => .v4 (BitVec.ofNat 32 ip) port) buf
    | 1 :: buf => readAddr 16 (fun ip port => .v6 (BitVec.ofNat 128 ip) port 0 0) buf
    | _ => none

theorem readAddr_append (k ip : Nat) (hip : ip < 256 ^ k) (addr : Nat → U16 → SocketAddr)
    (port len : U16) :
    readAddr k addr (beBytes k ip ++ (varint 3 port.toNat ++ varint 3 len.toNat)) =
      some ⟨addr ip port, len⟩ := by
  have hport := port.isLt
  have hlen := len.isLt
  have hreadPort := getVarint_varint_append (k := 3) (by omega : port.toNat < 128 ^ 3) (by decide)
    (varint 3 len.toNat)
  have hreadLen := getVarint_varint_append (k := 3) (by omega : len.toNat < 128 ^ 3) (by decide) []
  rw [List.append_nil] at hreadLen
  rw [readAddr, if_neg (by rw [List.length_append, beBytes_length]; omega),
    List.take_left' (beBytes_length k ip), List.drop_left' (beBytes_length k ip), ofBe_beBytes,
    Nat.mod_eq_of_lt hip, hreadPort, Option.bind_some, hreadLen, Option.map_some,
    BitVec.ofNat_toNat, BitVec.setWidth_eq, BitVec.ofNat_toNat, BitVec.setWidth_eq]

theorem udpHeaderCodec_format : HeaderFormat udpHeaderCodec where
  readsBack := by
    rintro ⟨addr, len⟩
    cases addr with
    | v4 ip port =>
      have hread := readAddr_append 4 ip.toNat ip.isLt
        (fun ip port => .v4 (BitVec.ofNat 32 ip) port) port len
      rw [BitVec.ofNat_toNat, BitVec.setWidth_eq] at hread
      exact hread
    | v6 ip port flowinfo scopeId =>
      have hread := readAddr_append 16 ip.toNat ip.isLt
        (fun ip port => .v6 (BitVec.ofNat 128 ip) port 0 0) port len
      rw [BitVec.ofNat_toNat, BitVec.setWidth_eq] at hread
      exact hread
  length := by
    have hvarint : ∀ n : U16, (varint 3 n.toNat).length ≤ 3 := by
      intro n
      have hn := n.isLt
      exact varint_length_le (by decide) (by omega) 3
    rintro ⟨addr, len⟩
    have hlen := hvarint len
    have hmax : maxUdpHeaderLen = 32 := rfl
    cases addr with
    | v4 ip port | v6 ip port =>
      have hport := hvarint port
      simp only [udpHeaderCodec, List.length_cons, List.length_append, beBytes_length]
      omega

/-- Two visitors, the second of which sends more than the receiver takes; the first frame arrives
in two pieces. -/
def twoDatagrams : List (SocketAddr × Bytes) :=
  [(.v4 0x7f000001 53, [1, 2]), (.v6 1 53 0 0, [1, 2, 3])]

theorem udp_frames_read_two :
    ∃ input s, encodeAll udpHeaderCodec twoDatagrams = some input ∧
      ((udpFrames udpHeaderCodec 2).lts input).Reach s ∧ s.failed = false ∧
      s.out = [some ⟨.v4 0x7f000001 53, [1, 2]⟩, none] := by
  have hlen : ∀ d ∈ twoDatagrams, d.2.length < 2 ^ 16 := by decide
  obtain ⟨input, hinput, hread, -⟩ :=
    udp_frames_read udpHeaderCodec udpHeaderCodec_format 2 twoDatagrams hlen
  have hframes : (encodeAll udpHeaderCodec twoDatagrams).any (fun input =>
      (Lts.runWith (udpFrames udpHeaderCodec 2).step (fun _ _ => true)
        ((udpFrames udpHeaderCodec 2).start input)
        [.deliver 4, .poll, .deliver 99, .poll, .poll]).any
      fun s => decide (s.out = [some ⟨.v4 0x7f000001 53, [1, 2]⟩, none])) = true := by
    decide +kernel
  rw [hinput, Option.any_some] at hframes
  obtain ⟨s, hreach, hout⟩ := Lts.Reach.exists_run
    (T := (udpFrames udpHeaderCodec 2).lts input) (fun _ _ _ h => h) rfl hframes
  obtain ⟨-, -, hfailed, -⟩ := hread s hreach
  exact ⟨input, s, hinput, hreach, hfailed, of_decide_eq_true hout⟩

/-- **The scope of an IPv6 peer is lost**: a datagram of a link-local peer comes back from an
address without its scope. -/
theorem scope_is_lost :
    ¬ ∀ (maxLen : Nat) (d : SocketAddr × Bytes) (rest : Bytes), d.2.length ≤ limit maxLen →
      (readDatagram udpHeaderCodec maxLen).poll (udpFrame udpHeaderCodec d ++ rest) =
        (.done (some ⟨d.1, d.2⟩), rest) := by
  intro hall
  have hclaimed := hall 2048 (.v6 1 53 0 2, [1]) [] (by decide)
  have hread := poll_readDatagram udpHeaderCodec_format 2048 (d := (.v6 1 53 0 2, [1]))
    (by decide) []
  rw [hread] at hclaimed
  cases hclaimed

end Molehill.Wire
