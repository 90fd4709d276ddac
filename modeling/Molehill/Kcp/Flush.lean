/-
# The KCP engine's send path: `flush`, `flush_ack` and `update`

`flush` stages the pending acks and probes in the packing buffer, moves queued segments into
the send buffer while the window allows, walks the send buffer once and emits every segment
that is new, timed out or skipped by later acks, and settles the congestion window.  A data
segment goes out as header plus payload when nothing is staged, and is packed behind the staged
acks otherwise; the bytes on the wire are the same either way.
-/
import Molehill.Kcp.Input

namespace Molehill

open Lib

namespace Kcp

/-! ## 1. Staging -/

/-- `self.output.write_all(&self.buf)?; self.buf.clear()`: one datagram, unless there is
nothing to write. -/
def writeBuf (k : Kcp) : Kcp :=
  if k.buf = [] then k else { k with output := k.output ++ [k.buf], buf := [] }

/-- Make room for `need` bytes in the datagram being packed. -/
def roomFor (k : Kcp) (need : Nat) : Kcp :=
  if k.mtu < k.buf.length + need then k.writeBuf else k

/-- Stage one segment in the packing buffer. -/
def stage (k : Kcp) (seg : KcpSegment) : Kcp := { k with buf := k.buf ++ seg.encode }

/-- `Kcp::wnd_unused`. -/
def wndUnused (k : Kcp) : U16 :=
  BitVec.ofNat 16 (k.rcvWnd.toNat - (u16OrMax k.rcvQueue.length).toNat)

/-- The control segment `flush` and `flush_ack` start from. -/
def ackSegment (k : Kcp) : KcpSegment :=
  { conv := k.conv, cmd := kcpCmdAck, wnd := k.wndUnused, una := k.rcvNxt }

/-- The loop of `flush_ack_inner`. -/
def flushAckLoop : List (U32 × U32) → Kcp → KcpSegment → Kcp × KcpSegment
  | [], k, segment => (k, segment)
  | (sn, ts) :: acks, k, segment =>
    let segment := { segment with sn := sn, ts := ts }
    flushAckLoop acks ((k.roomFor kcpOverhead).stage segment) segment

/-- `Kcp::flush_ack_inner`. -/
def flushAckInner (k : Kcp) (segment : KcpSegment) : Kcp × KcpSegment :=
  let r := flushAckLoop k.acklist k segment
  ({ r.1 with acklist := [] }, r.2)

/-- `Kcp::flush_probe_commands_inner`. -/
def flushProbeCommandsInner (k : Kcp) (cmd : Byte) (segment : KcpSegment) : Kcp × KcpSegment :=
  let segment := { segment with cmd := cmd }
  ((k.roomFor kcpOverhead).stage segment, segment)

/-- Stage one probe command if the engine asked for it. -/
def flushProbe (ask : U32) (cmd : Byte) (r : Kcp × KcpSegment) : Kcp × KcpSegment :=
  if r.1.probe &&& ask ≠ 0 then r.1.flushProbeCommandsInner cmd r.2 else r

/-- `Kcp::flush_probe_commands`. -/
def flushProbeCommands (k : Kcp) (segment : KcpSegment) : Kcp :=
  { (flushProbe kcpAskTell kcpCmdWins (flushProbe kcpAskSend kcpCmdWask (k, segment))).1 with
    probe := 0 }

/-- `Kcp::flush_ack`: acks are staged, not sent. -/
def flushAck (k : Kcp) : Kcp × Except KcpError Unit :=
  if !k.flags.updated then (k, .error .needUpdate)
  else ((k.flushAckInner k.ackSegment).1, .ok ())

/-- The probe wait's backoff: half again, within its limits. -/
def nextProbeWait (wait : U32) : U32 :=
  let wait := if wait < kcpProbeInit then kcpProbeInit else wait
  let wait := wait + wait / 2
  if kcpProbeLimit < wait then kcpProbeLimit else wait

/-- Set the probe timer. -/
def armProbe (k : Kcp) (wait : U32) : Kcp :=
  { k with probeWait := wait, tsProbe := k.current + wait }

/-- `Kcp::probe_wnd_size`. -/
def probeWndSize (k : Kcp) : Kcp :=
  if k.rmtWnd = 0 then
    if k.probeWait = 0 then k.armProbe kcpProbeInit
    else if 0 ≤ timediff k.current k.tsProbe then
      { k.armProbe (nextProbeWait k.probeWait) with probe := k.probe ||| kcpAskSend }
    else k
  else { k with tsProbe := 0, probeWait := 0 }

/-! ## 2. Filling the send buffer -/

/-- The loop of `fill_snd_buf`: queued segments are numbered while the window is open. -/
def fillLoop (k : Kcp) (cwnd wnd : U16) : List KcpSegment → U32 → List KcpSegment →
    List KcpSegment × U32 × List KcpSegment
  | [], nxt, sndBuf => ([], nxt, sndBuf)
  | seg :: queue, nxt, sndBuf =>
    if timediff nxt (k.sndUna + cwnd.setWidth 32) < 0 then
      fillLoop k cwnd wnd queue (nxt + 1)
        (sndBuf ++ [{ seg with
          conv := k.conv, cmd := kcpCmdPush, wnd := wnd, ts := k.current, sn := nxt,
          una := k.rcvNxt, resendts := k.current, rto := k.rxRto, fastack := 0, xmit := 0 }])
    else (seg :: queue, nxt, sndBuf)

/-- `Kcp::fill_snd_buf`. -/
def fillSndBuf (k : Kcp) (cwnd wnd : U16) : Kcp :=
  let r := k.fillLoop cwnd wnd k.sndQueue k.sndNxt k.sndBuf
  { k with sndQueue := r.1, sndNxt := r.2.1, sndBuf := r.2.2 }

/-! ## 3. The walk over the send buffer -/

/-- `peer_is_gone`. -/
def peerIsGone (xmit deadLink : U32) (windowStill : Bool) : Bool := deadLink ≤ xmit ∧ windowStill

/-- What `flush` fixes before it walks the send buffer. -/
structure FlushEnv where
  resent : U32
  rtomin : U32
  windowStill : Bool
  /-- The window this flush advertises. -/
  wnd : U16

/-- What `flush` accumulates over the walk. -/
structure FlushAcc where
  kcp : Kcp
  lost : Bool := false
  change : U32 := 0

/-- The three reasons to send: new, timed out, or skipped by later acks. -/
def needSend (env : FlushEnv) (acc : FlushAcc) (seg : KcpSegment) :
    Option (FlushAcc × KcpSegment) :=
  let k := acc.kcp
  if seg.xmit = 0 then
    some (acc, { seg with
      xmit := seg.xmit + 1, rto := k.rxRto, resendts := k.current + k.rxRto + env.rtomin })
  else if 0 ≤ timediff k.current seg.resendts then
    let rto := if k.flags.nodelay then seg.rto + seg.rto / 2 else seg.rto + wmax seg.rto k.rxRto
    some ({ acc with kcp := { k with xmit := k.xmit + 1 }, lost := true },
      { seg with xmit := seg.xmit + 1, rto := rto, resendts := k.current + rto })
  else if env.resent ≤ seg.fastack ∧ (seg.xmit ≤ k.fastlimit ∨ k.fastlimit = 0) then
    some ({ acc with change := acc.change + 1 },
      { seg with xmit := seg.xmit + 1, fastack := 0, resendts := k.current + seg.rto })
  else none

/-- Emit one data segment: as a datagram of its own when nothing is staged, packed behind what
is staged otherwise. -/
def emitSegment (k : Kcp) (seg : KcpSegment) : Kcp :=
  if k.buf = [] ∧ seg.cmd = kcpCmdPush then
    { k with output := k.output ++ [seg.encodeHeader ++ seg.data] }
  else (k.roomFor (kcpOverhead + seg.data.length)).stage seg

/-- Dead is a stalled sender, not a retransmitted segment: the count is the trigger, the
silence is the verdict. -/
def noteDead (k : Kcp) (xmit : U32) (windowStill : Bool) : Kcp :=
  if peerIsGone xmit k.deadLink windowStill then { k with state := -1 } else k

/-- One segment of the walk. -/
def flushSegment (env : FlushEnv) (acc : FlushAcc) (seg : KcpSegment) : FlushAcc × KcpSegment :=
  match needSend env acc seg with
  | none => (acc, seg)
  | some (acc, seg) =>
    let seg := { seg with ts := acc.kcp.current, wnd := env.wnd, una := acc.kcp.rcvNxt }
    ({ acc with kcp := (acc.kcp.emitSegment seg).noteDead seg.xmit env.windowStill }, seg)

/-- The walk. -/
def flushLoop (env : FlushEnv) : FlushAcc → List KcpSegment → FlushAcc × List KcpSegment
  | acc, [] => (acc, [])
  | acc, seg :: rest =>
    let r := flushSegment env acc seg
    let t := flushLoop env r.1 rest
    (t.1, r.2 :: t.2)

/-! ## 4. `flush` and `update` -/

/-- `half` raised to the threshold's minimum. -/
def threshOf (half : U16) : U16 := if half < kcpThreshMin then kcpThreshMin else half

/-- A fast-retransmit run halves the in-flight estimate. -/
def ssthreshAfterFast (k : Kcp) (change resent : U32) : Kcp :=
  if 0 < change then
    let ssthresh := threshOf (u16OrMax (k.sndNxt - k.sndUna).toNat / 2)
    let cwnd := ssthresh + u16OrMax resent.toNat
    { k with ssthresh := ssthresh, cwnd := cwnd, incr := usz (cwnd.toNat * k.mss) }
  else k

/-- A timeout halves the window the flush began with. -/
def ssthreshAfterLoss (k : Kcp) (lost : Bool) (priorCwnd : U16) : Kcp :=
  if lost then { k with ssthresh := threshOf (priorCwnd / 2), cwnd := 1, incr := k.mss } else k

/-- A zero window is raised back to one. -/
def cwndFloor (k : Kcp) : Kcp := if k.cwnd = 0 then { k with cwnd := 1, incr := k.mss } else k

/-- `Kcp::update_ssthresh`. -/
def updateSsthresh (k : Kcp) (change resent : U32) (lost : Bool) (priorCwnd : U16) : Kcp :=
  ((k.ssthreshAfterFast change resent).ssthreshAfterLoss lost priorCwnd).cwndFloor

/-- The send window of one flush. -/
def flushWindow (k : Kcp) : U16 :=
  let cwnd := wmin k.sndWnd k.rmtWnd
  if k.flags.nocwnd then cwnd else wmin k.cwnd cwnd

/-- `flush`'s control part: acks and probes staged. -/
def flushControl (k : Kcp) : Kcp :=
  let r := k.flushAckInner k.ackSegment
  r.1.probeWndSize.flushProbeCommands r.2

/-- `flush` up to the walk: acks and probes staged, the send buffer filled. -/
def flushFill (k : Kcp) : Kcp :=
  k.flushControl.fillSndBuf k.flushControl.flushWindow k.wndUnused

/-- What the walk reads. -/
def flushEnv (k : Kcp) (wnd : U16) : FlushEnv where
  resent := if 0 < k.fastresend then k.fastresend else BitVec.ofNat 32 (2 ^ 32 - 1)
  rtomin := if k.flags.nodelay then 0 else k.rxRto >>> 3
  windowStill := kcpDeadGraceMs < timediff k.current k.lastProgress
  wnd := wnd

/-- `Kcp::flush`. -/
def flush (k : Kcp) : Kcp × Except KcpError Unit :=
  if !k.flags.updated then (k, .error .needUpdate)
  else
    let filled := k.flushFill
    let env := filled.flushEnv k.wndUnused
    let r := flushLoop env { kcp := filled } filled.sndBuf
    let walked := ({ r.1.kcp with sndBuf := r.2 }).writeBuf
    (walked.updateSsthresh r.1.change env.resent r.1.lost k.cwnd, .ok ())

/-- `update`'s first call stamps the flush clock. -/
def markUpdated (k : Kcp) : Kcp :=
  if !k.flags.updated then
    { k with flags := { k.flags with updated := true }, tsFlush := k.current }
  else k

/-- `!(-10000..10000).contains(&slap)`: the clock jumped. -/
def clockJumped (k : Kcp) : Bool :=
  timediff k.current k.tsFlush < -10000 ∨ 10000 ≤ timediff k.current k.tsFlush

/-- The next flush time `update` sets before it flushes. -/
def nextFlush (k : Kcp) : Kcp :=
  let tsFlush := k.tsFlush + k.interval
  { k with
    tsFlush := if 0 ≤ timediff k.current tsFlush then k.current + k.interval else tsFlush }

/-- `Kcp::update`. -/
def update (k : Kcp) (current : U32) : Kcp × Except KcpError Unit :=
  let k := ({ k with current := current }).markUpdated
  if k.clockJumped then ({ k with tsFlush := k.current }).nextFlush.flush
  else if 0 ≤ timediff k.current k.tsFlush then k.nextFlush.flush
  else (k, .ok ())

end Kcp

end Molehill
