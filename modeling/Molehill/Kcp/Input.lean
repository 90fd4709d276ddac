/-
# The KCP engine's receive path: the wire header, and `input`

A datagram is a run of segments, each a 24-byte header (`encode_header`) and its payload.
`SegHead.parse` reads and validates one header; `Kcp.input` loops over the datagram, lets every
header's `una` and `wnd` act on the send window, branches on the command, and recomputes the
congestion window once the whole batch is consumed.  A malformed segment ends the call with an
error and leaves behind what the segments before it did, as the source's `?` does.

The loop is bounded by a fuel argument that starts at the datagram's length; every round
consumes a header, so it never runs out (`Kcp/Codec.lean`).
-/
import Molehill.Kcp.Engine

namespace Molehill

open Lib

/-! ## 1. The wire header -/

/-- `KcpSegment::encode_header`: `conv cmd frg wnd ts sn una len`, little-endian.  The length
field saturates. -/
def KcpSegment.encodeHeader (s : KcpSegment) : Bytes :=
  leBytes 4 s.conv.toNat ++ (s.cmd :: s.frg :: leBytes 2 s.wnd.toNat) ++ leBytes 4 s.ts.toNat ++
    leBytes 4 s.sn.toNat ++ leBytes 4 s.una.toNat ++ leBytes 4 (min s.data.length (2 ^ 32 - 1))

/-- `KcpSegment::encode`: the header and the payload. -/
def KcpSegment.encode (s : KcpSegment) : Bytes := s.encodeHeader ++ s.data

/-- One parsed segment header. -/
structure SegHead where
  conv : U32
  cmd : Byte
  frg : Byte
  wnd : U16
  ts : U32
  sn : U32
  una : U32
  /-- The wire-declared payload length. -/
  len : Nat
  deriving DecidableEq, Repr

/-- The four commands `SegHead::parse` lets through. -/
def knownCmd (cmd : Byte) : Bool :=
  cmd = kcpCmdPush ∨ cmd = kcpCmdAck ∨ cmd = kcpCmdWask ∨ cmd = kcpCmdWins

/-- `SegHead::parse`: one header off the front of the datagram, and the bytes behind it. -/
def SegHead.parse (expectedConv : U32) (buf : Bytes) : Except KcpError (SegHead × Bytes) :=
  let conv := getLe 4 buf
  if BitVec.ofNat 32 conv.1 ≠ expectedConv then
    .error (.convInconsistent expectedConv (BitVec.ofNat 32 conv.1))
  else
    let cmd := getLe 1 conv.2
    let frg := getLe 1 cmd.2
    let wnd := getLe 2 frg.2
    let ts := getLe 4 wnd.2
    let sn := getLe 4 ts.2
    let una := getLe 4 sn.2
    let len := getLe 4 una.2
    if len.2.length < len.1 then .error (.segmentDataSizeMismatch len.1 len.2.length)
    else if !knownCmd (BitVec.ofNat 8 cmd.1) then .error (.unsupportedCmd (BitVec.ofNat 8 cmd.1))
    else
      .ok ({ conv := BitVec.ofNat 32 conv.1, cmd := BitVec.ofNat 8 cmd.1,
             frg := BitVec.ofNat 8 frg.1, wnd := BitVec.ofNat 16 wnd.1,
             ts := BitVec.ofNat 32 ts.1, sn := BitVec.ofNat 32 sn.1,
             una := BitVec.ofNat 32 una.1, len := len.1 }, len.2)

namespace Kcp

/-! ## 2. What an acknowledgement does to the send window -/

/-- `Kcp::update_ack`: the round-trip estimator. -/
def updateAck (k : Kcp) (rtt : U32) : Kcp :=
  let est : U32 × U32 :=
    if k.rxSrtt = 0 then (rtt, rtt / 2)
    else
      let delta := if rtt < k.rxSrtt then k.rxSrtt - rtt else rtt - k.rxSrtt
      let srtt := (7 * k.rxSrtt + rtt) / 8
      (if srtt < 1 then 1 else srtt, (3 * k.rxRttval + delta) / 4)
  let headroom := wmax (wmax k.interval (4 * est.2)) (est.1 / kcpRtoHeadroomDivisor)
  { k with
    rxSrtt := est.1
    rxRttval := est.2
    rxRto := bound k.rxMinrto (est.1 + headroom) kcpRtoMax }

/-- `Kcp::shrink_buf`: `snd_una` is the first segment still in the send buffer. -/
def shrinkBuf (k : Kcp) : Kcp :=
  { k with sndUna := match k.sndBuf with | seg :: _ => seg.sn | [] => k.sndNxt }

theorem shrinkBuf_nil {k : Kcp} (h : k.sndBuf = []) : k.shrinkBuf.sndUna = k.sndNxt := by
  simp only [shrinkBuf, h]

theorem shrinkBuf_cons {k : Kcp} {seg : KcpSegment} {rest : List KcpSegment}
    (h : k.sndBuf = seg :: rest) : k.shrinkBuf.sndUna = seg.sn := by
  simp only [shrinkBuf, h]

/-- The loop of `parse_ack`.  The comparison is the unsigned one, as in the source. -/
def parseAckLoop (sn : U32) : List KcpSegment → List KcpSegment
  | [] => []
  | seg :: rest =>
    if sn = seg.sn then rest
    else if sn < seg.sn then seg :: rest
    else seg :: parseAckLoop sn rest

/-- `Kcp::parse_ack`. -/
def parseAck (k : Kcp) (sn : U32) : Kcp :=
  if timediff sn k.sndUna < 0 ∨ 0 ≤ timediff sn k.sndNxt then k
  else { k with sndBuf := parseAckLoop sn k.sndBuf }

/-- `Kcp::parse_una`: everything before `una` is acknowledged.  A window that moved stamps
`last_progress`. -/
def parseUna (k : Kcp) (una : U32) : Kcp :=
  { k with
    sndBuf := k.sndBuf.dropWhile (fun seg => 0 < timediff una seg.sn)
    lastProgress :=
      match k.sndBuf with
      | seg :: _ => if 0 < timediff una seg.sn then k.current else k.lastProgress
      | [] => k.lastProgress }

/-- The loop of `parse_fastack`. -/
def parseFastackLoop (sn ts : U32) : List KcpSegment → List KcpSegment
  | [] => []
  | seg :: rest =>
    if timediff sn seg.sn < 0 then seg :: rest
    else if sn ≠ seg.sn ∧ 0 ≤ timediff ts seg.ts then
      { seg with fastack := seg.fastack + 1 } :: parseFastackLoop sn ts rest
    else seg :: parseFastackLoop sn ts rest

/-- `Kcp::parse_fastack`. -/
def parseFastack (k : Kcp) (sn ts : U32) : Kcp :=
  if timediff sn k.sndUna < 0 ∨ 0 ≤ timediff sn k.sndNxt then k
  else { k with sndBuf := parseFastackLoop sn ts k.sndBuf }

/-- The window and byte counter `update_cwnd_after_acks` steps to, before the clamp: slow start
steps the window, congestion avoidance derives it from the byte counter. -/
def grownCwnd (k : Kcp) : U16 × Nat :=
  let mss := k.mss
  if k.cwnd < k.ssthresh then (k.cwnd + 1, usz (k.incr + mss))
  else
    let incr := if k.incr < mss then mss else k.incr
    let incr := usz (incr + usz (mss * mss) / incr + mss / 16)
    if usz ((k.cwnd.toNat + 1) * mss) ≤ incr then
      (u16OrMax (usz (incr + mss - 1) / (if 0 < mss then mss else 1)), incr)
    else (k.cwnd, incr)

/-- `Kcp::update_cwnd_after_acks`. -/
def updateCwndAfterAcks (k : Kcp) (oldUna : U32) : Kcp :=
  if timediff k.sndUna oldUna ≤ 0 ∨ k.rmtWnd ≤ k.cwnd then k
  else if k.rmtWnd < k.grownCwnd.1 then
    { k with cwnd := k.rmtWnd, incr := usz (k.rmtWnd.toNat * k.mss) }
  else { k with cwnd := k.grownCwnd.1, incr := k.grownCwnd.2 }

/-! ## 3. What a data segment does to the receive buffer -/

/-- `Kcp::ack_push`. -/
def ackPush (k : Kcp) (sn ts : U32) : Kcp := { k with acklist := k.acklist ++ [(sn, ts)] }

/-- `parse_data`'s search, from the back of `rcv_buf` (given reversed): the segments the new
one goes behind, or `none` when its number is already there. -/
def insertSlot (sn : U32) : List KcpSegment → Option Nat
  | [] => some 0
  | seg :: front =>
    if seg.sn = sn then none
    else if 0 < timediff sn seg.sn then some (front.length + 1)
    else insertSlot sn front

/-- `parse_data`'s insertion: a repeated segment is dropped. -/
def insertSegment (k : Kcp) (seg : KcpSegment) : Kcp :=
  match insertSlot seg.sn k.rcvBuf.reverse with
  | none => k
  | some i => { k with rcvBuf := k.rcvBuf.insertIdx i seg }

/-- `Kcp::parse_data`. -/
def parseData (k : Kcp) (seg : KcpSegment) : Kcp :=
  if 0 ≤ timediff seg.sn (k.rcvNxt + k.rcvWnd.setWidth 32) ∨ timediff seg.sn k.rcvNxt < 0 then k
  else (k.insertSegment seg).moveBuf

/-- `Kcp::accept_push`: whether the payload was consumed, and the bytes behind it. -/
def acceptPush (k : Kcp) (head : SegHead) (buf : Bytes) :
    Kcp × Except KcpError (Bool × Bytes) :=
  if 0 ≤ timediff head.sn (k.rcvNxt + k.rcvWnd.setWidth 32) then (k, .ok (false, buf))
  else
    let k := k.ackPush head.sn head.ts
    if timediff head.sn k.rcvNxt < 0 then (k, .ok (false, buf))
    else if buf.length < head.len then (k, .error .io)
    else
      let segment : KcpSegment :=
        { conv := head.conv, cmd := head.cmd, frg := head.frg, wnd := head.wnd, ts := head.ts,
          sn := head.sn, una := head.una, data := buf.take head.len }
      (k.parseData segment, .ok (true, buf.drop head.len))

/-! ## 4. `input` -/

/-- What `input` remembers of the acks of one datagram. -/
structure AckRun where
  flag : Bool := false
  maxAck : U32 := 0
  latestTs : U32 := 0
  deriving DecidableEq, Repr

/-- The ack arm's bookkeeping: only a strictly newer ack replaces the max ack. -/
def AckRun.note (r : AckRun) (sn ts : U32) : AckRun :=
  if !r.flag then { flag := true, maxAck := sn, latestTs := ts }
  else if 0 < timediff sn r.maxAck ∧ 0 < timediff ts r.latestTs then
    { r with maxAck := sn, latestTs := ts }
  else r

/-- A non-negative round trip is a sample; a negative one is a clock wrap. -/
def sampleRtt (k : Kcp) (ts : U32) : Kcp :=
  if 0 ≤ timediff k.current ts then k.updateAck (k.current - ts) else k

/-- The `KCP_CMD_ACK` arm of `input`. -/
def inputAck (k : Kcp) (head : SegHead) : Kcp := ((k.sampleRtt head.ts).parseAck head.sn).shrinkBuf

/-- What every header does before its command is looked at. -/
def inputHead (k : Kcp) (head : SegHead) : Kcp :=
  (({ k with rmtWnd := head.wnd }).parseUna head.una).shrinkBuf

/-- One round of `input`'s loop, after the header was parsed: the engine, the ack run and the
bytes behind the segment. -/
def inputSegment (k : Kcp) (acks : AckRun) (head : SegHead) (buf : Bytes) :
    Kcp × AckRun × Except KcpError Bytes :=
  if head.cmd = kcpCmdAck then
    ((k.inputHead head).inputAck head, acks.note head.sn head.ts, .ok (buf.drop head.len))
  else if head.cmd = kcpCmdPush then
    match (k.inputHead head).acceptPush head buf with
    | (k, .error e) => (k, acks, .error e)
    | (k, .ok (true, rest)) => (k, acks, .ok rest)
    | (k, .ok (false, rest)) => (k, acks, .ok (rest.drop head.len))
  else if head.cmd = kcpCmdWask then
    ((k.inputHead head).askTell, acks, .ok (buf.drop head.len))
  else (k.inputHead head, acks, .ok (buf.drop head.len))

/-- `input`'s loop over the segments of a datagram. -/
def inputLoop : Nat → Kcp → AckRun → Bytes → Kcp × AckRun × Except KcpError Bytes
  | 0, k, acks, buf => (k, acks, .ok buf)
  | fuel + 1, k, acks, buf =>
    if buf.length < kcpOverhead then (k, acks, .ok buf)
    else
      match SegHead.parse k.conv buf with
      | .error e => (k, acks, .error e)
      | .ok (head, rest) =>
        match k.inputSegment acks head rest with
        | (k, acks, .error e) => (k, acks, .error e)
        | (k, acks, .ok rest) => inputLoop fuel k acks rest

/-- What `input` does once the datagram is consumed: fast-retransmit credit, then the window. -/
def inputEnd (k : Kcp) (acks : AckRun) (oldUna : U32) : Kcp :=
  (if acks.flag then k.parseFastack acks.maxAck acks.latestTs else k).updateCwndAfterAcks oldUna

/-- `Kcp::input`: the number of bytes consumed, or an error. -/
def input (k : Kcp) (buf : Bytes) : Kcp × Except KcpError Nat :=
  if buf.length < kcpOverhead then (k, .error (.invalidSegmentSize buf.length))
  else
    match inputLoop buf.length k {} buf with
    | (k', _, .error e) => (k', .error e)
    | (k', acks, .ok rest) => (k'.inputEnd acks k.sndUna, .ok (buf.length - rest.length))

end Kcp

end Molehill
