/-
# The KCP engine: its state, its two queues and its configuration

`src/kcp.rs` is a pure state machine: it owns no socket and no clock.  This module embeds its
data model (`Kcp`, `KcpSegment`) and the operations that touch neither the wire nor the clock:
`new_stream`, `set_mtu`, `set_nodelay`, `set_wndsize`, `send_owned`, `move_buf`, `recv_pop` and
`retransmit_sn`.  The wire (`SegHead::parse`, `input`) is in `Kcp/Input.lean`, the clock
(`flush`, `update`) in `Kcp/Flush.lean`.

Machine words are bit vectors, so every sum wraps as it does in the release profile.  `usize`
fields are naturals, with the wrap written out (`usz`) where a product could exceed the word.
The `DatagramSink` is the adapter's `DatagramOut`, whose writes never fail: `output` is the
list of the datagrams written to it.  The process-wide counters and the `health` pair are read
by telemetry only and are left out.
-/
import Mathlib.Data.List.Basic
import Molehill.Lib.Bytes
import Molehill.Lib.SeqSpace

namespace Molehill

open Lib

/-! ## 1. Constants and word arithmetic -/

def kcpRtoNdl : U32 := 30
def kcpRtoMin : U32 := 100
def kcpRtoHeadroomDivisor : U32 := 8
def kcpRtoDef : U32 := 200
def kcpRtoMax : U32 := 60000
def kcpCmdPush : Byte := 81
def kcpCmdAck : Byte := 82
def kcpCmdWask : Byte := 83
def kcpCmdWins : Byte := 84
def kcpAskSend : U32 := 1
def kcpAskTell : U32 := 2
def kcpWndSnd : U16 := 32
def kcpWndRcv : U16 := 128
def kcpMtuDef : Nat := 1400
def kcpInterval : U32 := 100
def kcpOverhead : Nat := 24
def kcpDeadlink : U32 := 20
def kcpDeadGraceMs : Int := 5000
def kcpThreshInit : U16 := 2
def kcpThreshMin : U16 := 2
def kcpProbeInit : U32 := 5000
def kcpProbeLimit : U32 := 120000
def kcpFastackLimit : U32 := 5

/-- `cmp::max` on words. -/
def wmax {w : Nat} (a b : BitVec w) : BitVec w := if a < b then b else a

/-- `cmp::min` on words. -/
def wmin {w : Nat} (a b : BitVec w) : BitVec w := if b < a then b else a

/-- `bound(lower, v, upper)`. -/
def bound (lower v upper : U32) : U32 := wmin (wmax lower v) upper

/-- A `usize` result of a sum or product that may exceed the word. -/
def usz (n : Nat) : Nat := n % 2 ^ 64

/-- `u16::try_from(n).unwrap_or(u16::MAX)`. -/
def u16OrMax (n : Nat) : U16 := BitVec.ofNat 16 (min n 65535)

/-- `timediff(later, earlier)`: the mod-2^32 difference, reinterpreted as signed. -/
def timediff (later earlier : U32) : Int := seqDiff later earlier

/-! ## 2. The data model -/

/-- The engine's errors (`kcp/error.rs`).  `Io` is raised by the payload read only. -/
inductive KcpError
  | convInconsistent (expected found : U32)
  | invalidSegmentSize (size : Nat)
  | segmentDataSizeMismatch (expected found : Nat)
  | io
  | needUpdate
  | recvQueueEmpty
  | expectingFragment
  | unsupportedCmd (cmd : Byte)
  | userBufTooBig
  deriving DecidableEq, Repr

structure KcpSegment where
  conv : U32 := 0
  cmd : Byte := 0
  frg : Byte := 0
  wnd : U16 := 0
  ts : U32 := 0
  sn : U32 := 0
  una : U32 := 0
  resendts : U32 := 0
  rto : U32 := 0
  fastack : U32 := 0
  xmit : U32 := 0
  data : Bytes := []
  deriving DecidableEq, Repr

/-- `KcpSegment::new_with_data`. -/
def KcpSegment.newWithData (data : Bytes) : KcpSegment := { data := data }

/-- `KcpFlags`: the packed session flags. -/
structure KcpFlags where
  nodelay : Bool := false
  updated : Bool := false
  nocwnd : Bool := false
  stream : Bool := false
  deriving DecidableEq, Repr

/-- KCP control. -/
structure Kcp where
  conv : U32
  mtu : Nat
  mss : Nat
  state : Int
  sndUna : U32
  sndNxt : U32
  rcvNxt : U32
  ssthresh : U16
  rxRttval : U32
  rxSrtt : U32
  rxRto : U32
  rxMinrto : U32
  sndWnd : U16
  rcvWnd : U16
  rmtWnd : U16
  cwnd : U16
  probe : U32
  current : U32
  interval : U32
  tsFlush : U32
  xmit : U32
  flags : KcpFlags
  tsProbe : U32
  probeWait : U32
  deadLink : U32
  lastProgress : U32
  incr : Nat
  sndQueue : List KcpSegment
  rcvQueue : List KcpSegment
  sndBuf : List KcpSegment
  rcvBuf : List KcpSegment
  /-- Pending acks, `(sn, ts)`. -/
  acklist : List (U32 × U32)
  /-- The packing buffer of the datagram in progress. -/
  buf : Bytes
  fastresend : U32
  fastlimit : U32
  /-- The datagrams written to the sink. -/
  output : List Bytes
  deriving DecidableEq, Repr

/-- `Kcp::construct`. -/
def construct (conv : U32) (stream : Bool) : Kcp where
  conv := conv
  mtu := kcpMtuDef
  mss := kcpMtuDef - kcpOverhead
  state := 0
  sndUna := 0
  sndNxt := 0
  rcvNxt := 0
  ssthresh := kcpThreshInit
  rxRttval := 0
  rxSrtt := 0
  rxRto := kcpRtoDef
  rxMinrto := kcpRtoMin
  sndWnd := kcpWndSnd
  rcvWnd := kcpWndRcv
  rmtWnd := kcpWndRcv
  cwnd := 0
  probe := 0
  current := 0
  interval := kcpInterval
  tsFlush := kcpInterval
  xmit := 0
  flags := { stream := stream }
  tsProbe := 0
  probeWait := 0
  deadLink := kcpDeadlink
  lastProgress := 0
  incr := 0
  sndQueue := []
  rcvQueue := []
  sndBuf := []
  rcvBuf := []
  acklist := []
  buf := []
  fastresend := 0
  fastlimit := kcpFastackLimit
  output := []

/-- `Kcp::new_stream`. -/
def newStream (conv : U32) : Kcp := construct conv true

namespace Kcp

/-! ## 3. Configuration -/

/-- `Kcp::set_mtu`: a datagram always has room for at least one payload byte. -/
def setMtu (k : Kcp) (mtu : Nat) : Kcp :=
  let mtu := max mtu (kcpOverhead + 1)
  if mtu ≠ k.mtu then { k with mtu := mtu, mss := mtu - kcpOverhead } else k

/-- `Kcp::set_nodelay`; `interval` and `resend` are `i32`. -/
def setNodelay (k : Kcp) (nodelay : Bool) (interval resend : Int) (nc : Bool) : Kcp :=
  { k with
    flags := { k.flags with nodelay := nodelay, nocwnd := nc }
    rxMinrto := if nodelay then kcpRtoNdl else kcpRtoMin
    interval :=
      if interval < 10 then 10 else if interval > 5000 then 5000 else BitVec.ofInt 32 interval
    fastresend := if 0 ≤ resend then BitVec.ofInt 32 resend else k.fastresend }

/-- `Kcp::set_wndsize`. -/
def setWndsize (k : Kcp) (sndwnd rcvwnd : U16) : Kcp :=
  { k with
    sndWnd := if sndwnd > 0 then sndwnd else k.sndWnd
    rcvWnd := if rcvwnd > 0 then wmax rcvwnd kcpWndRcv else k.rcvWnd }

/-! ## 4. The receive queue -/

/-- The loop of `move_buf`: segments leave the front of `rcv_buf` for the back of `rcv_queue`
while they are the next in order and the queue has room. -/
def moveBufLoop (wnd : Nat) : List KcpSegment → U32 → List KcpSegment →
    List KcpSegment × U32 × List KcpSegment
  | [], nxt, queue => ([], nxt, queue)
  | seg :: rest, nxt, queue =>
    if seg.sn = nxt ∧ queue.length < wnd then moveBufLoop wnd rest (nxt + 1) (queue ++ [seg])
    else (seg :: rest, nxt, queue)

/-- `Kcp::move_buf`. -/
def moveBuf (k : Kcp) : Kcp :=
  let r := moveBufLoop k.rcvWnd.toNat k.rcvBuf k.rcvNxt k.rcvQueue
  { k with rcvBuf := r.1, rcvNxt := r.2.1, rcvQueue := r.2.2 }

/-- `self.probe |= KCP_ASK_TELL`: tell the remote this side's window at the next flush. -/
def askTell (k : Kcp) : Kcp := { k with probe := k.probe ||| kcpAskTell }

/-- `recv_pop`'s fast recovery: the queue was full before the pop and has room after it. -/
def fastRecover (k : Kcp) (recover : Bool) : Kcp :=
  if k.rcvQueue.length < k.rcvWnd.toNat ∧ recover then k.askTell else k

/-- `Kcp::recv_pop`, which is all `recv_owned` does. -/
def recvPop (k : Kcp) : Kcp × Except KcpError Bytes :=
  match k.rcvQueue with
  | [] => (k, .error .recvQueueEmpty)
  | seg :: rest =>
    if seg.frg ≠ 0 then (k, .error .expectingFragment)
    else
      (({ k with rcvQueue := rest }).moveBuf.fastRecover (k.rcvWnd.toNat ≤ k.rcvQueue.length),
        .ok seg.data)

/-! ## 5. The send queue -/

/-- `send_owned`'s last loop: cut `data` into `count` segments of at most `mss` bytes. -/
def cutSegments (stream : Bool) (mss : Nat) : Nat → Bytes → List KcpSegment
  | 0, _ => []
  | count + 1, data =>
    { KcpSegment.newWithData (data.take mss) with
      frg := if stream then 0 else BitVec.ofNat 8 count } ::
      cutSegments stream mss count (data.drop mss)

/-- How many bytes of `data` `send_owned` appends to the last queued segment in stream mode. -/
def extendLen (k : Kcp) (data : Bytes) : Nat :=
  if k.flags.stream then
    match k.sndQueue.getLast? with
    | some old => if old.data.length < k.mss then min data.length (k.mss - old.data.length) else 0
    | none => 0
  else 0

/-- The send queue after `send_owned`'s append step: the last segment is rebuilt with the
appended bytes. -/
def extendTail (k : Kcp) (data : Bytes) : List KcpSegment :=
  if k.flags.stream then
    match k.sndQueue.getLast? with
    | some old =>
      if old.data.length < k.mss then
        k.sndQueue.dropLast ++
          [{ old with data := old.data ++ data.take (k.extendLen data), frg := 0 }]
      else k.sndQueue
    | none => k.sndQueue
  else k.sndQueue

/-- `Kcp::send_owned`: the number of bytes accepted, or an error. -/
def sendOwned (k : Kcp) (data : Bytes) : Kcp × Except KcpError Nat :=
  let sent := k.extendLen data
  let k1 := { k with sndQueue := k.extendTail data }
  let rest := data.drop sent
  if k.flags.stream ∧ rest = [] then (k1, .ok sent)
  else
    let count := (rest.length + k.mss - 1) / k.mss
    if kcpWndRcv.toNat ≤ count then
      -- stream mode already extended the queued segment: report the partial progress
      if k.flags.stream ∧ 0 < sent then (k1, .ok sent) else (k1, .error .userBufTooBig)
    else
      let segs := cutSegments k.flags.stream k.mss (max 1 count) rest
      ({ k1 with sndQueue := k1.sndQueue ++ segs }, .ok (sent + rest.length))

/-! ## 6. Forced resends -/

/-- The loop of `retransmit_sn`. -/
def retransmitLoop (sn current : U32) : List KcpSegment → List KcpSegment
  | [] => []
  | seg :: rest =>
    if seg.sn = sn then { seg with resendts := current } :: rest
    else if timediff sn seg.sn < 0 then seg :: rest
    else seg :: retransmitLoop sn current rest

/-- `Kcp::retransmit_sn`: force segment `sn` to be due at the next flush. -/
def retransmitSn (k : Kcp) (sn : U32) : Kcp :=
  { k with sndBuf := retransmitLoop sn k.current k.sndBuf }

end Kcp

end Molehill
