/-
# The pump of a session and how it ends

One task owns the engine of a session.  Its loop runs the due updates, waits for the writer, for a
datagram or for its timer, delivers what the engine has received, flushes, drains the datagrams, and
looks whether the session is over.  With both halves of the stream gone it is to flush what the
writer gave it, tell the peer by three CLOSE frames, and end; a dead link, a CLOSE of the peer or a
deadline ends it before that.

Each step below is one stage of the loop, one turn of `drain_writer` or of `deliver_recv`, or
something the writer, the reader, the network or the clock does in between.  What the drain of the
datagrams leaves (`Outbound`) is open: it sent something or not, something stays parked or not.

* `orderly_close`: in every run in which, once both halves are gone, no delivery has a batch for the
  reader that is gone, the ingress stays, the engine takes the chunks that are left and the socket
  takes the CLOSE frames, the pump ends as it should; and a step that is none of these ends it
  otherwise;
* `reader_gone_skips_close`: a run in which data for the gone reader ends the pump at once, with a
  byte of the writer's unacknowledged and no CLOSE frame sent;
* `read_reach`: the session's read path runs as `readPath` does.
-/
import Molehill.Kcp.Listener
import Molehill.Kcp.ReadPath
import Molehill.Kcp.SendWindow

namespace Molehill

open Lib
open Listener (isCtrlFrame)

/-! ## 1. The data -/

/-- `SND_QUEUE_LIMIT`. -/
def sndQueueLimit : Nat := 2 * 8192

/-- `SEND_CHUNK`. -/
def sendChunk : Nat := 64 * 1024

/-- `CLOSE_FLUSH_TIMEOUT`, in milliseconds. -/
def closeFlushTimeout : Nat := 5000

/-- `CLOSE_QUIET_ROUNDS`. -/
def closeQuietRounds : Nat := 3

/-- `CTRL_CLOSE_FRAMES`. -/
def ctrlCloseFrames : Nat := 3

/-- `INPUT_BATCH_LIMIT`. -/
def inputBatchLimit : Nat := 512

/-- `CTRL_SACK`. -/
def ctrlSack : Byte := 0x03

/-- `CTRL_CLOSE`. -/
def ctrlClose : Byte := 0x04

/-- `configure`, on a fresh engine. -/
def configured (conv : U32) : Kcp :=
  ((newStream conv).setNodelay true 10 2 true).setWndsize 8192 4096

namespace Kcp

/-- `Kcp::wait_snd`. -/
def waitSnd (k : Kcp) : Nat := k.sndBuf.length + k.sndQueue.length

/-- `Kcp::is_dead_link`. -/
def isDeadLink (k : Kcp) : Bool := k.state ≠ 0

/-- The loop of `check`: the first resend that is due, or nothing if one is due already. -/
def resendDue (current : U32) : List KcpSegment → U32 → Option U32
  | [], due => some due
  | seg :: rest, due =>
    let diff := timediff seg.resendts current
    if diff ≤ 0 then none else resendDue current rest (wmin due (BitVec.ofInt 32 diff))

/-- `Kcp::check`: how long until the next update. -/
def check (k : Kcp) (current : U32) : U32 :=
  if !k.flags.updated then 0
  else
    let slap := timediff current k.tsFlush
    let tsFlush := if 10000 ≤ slap ∨ slap < -10000 then current else k.tsFlush
    if 0 ≤ timediff current tsFlush then 0
    else
      match resendDue current k.sndBuf (BitVec.ofNat 32 (2 ^ 32 - 1)) with
      | none => 0
      | some due => wmin (wmin due (BitVec.ofInt 32 (timediff tsFlush current))) k.interval

/-- The engine has room for `data` in one call: it makes less than 128 segments of it. -/
def takesWhole (k : Kcp) (data : Bytes) : Bool :=
  (data.length - k.extendLen data + k.mss - 1) / k.mss < kcpWndRcv.toNat

end Kcp

/-- Why the pump ended. -/
inductive ExitReason
  | updateFailed
  | flushFailed
  | sendFailed
  | ackFlushFailed
  | ingressGone
  | readerGone
  | peerClosed
  | deadLink
  /-- Behind the CLOSE frames. -/
  | closed
  deriving DecidableEq

/-- Where the pump stands. -/
inductive PumpPhase
  /-- Before the first update. -/
  | priming
  | head
  | select
  /-- In `drain_writer`, with the rest of a message. -/
  | writing (data : Bytes)
  /-- In `deliver_recv`. -/
  | delivering
  | tail (delivered : Bool)
  /-- Sending CLOSE frames. -/
  | farewell
  /-- Ended; whether both halves of the stream were gone. -/
  | exited (reason : ExitReason) (orphaned : Bool)
  deriving DecidableEq

/-- A session: its pump and the two halves of its stream. -/
structure Pump (cap : Nat) where
  read : ReadPath cap
  /-- `out_tx` is there. -/
  writer : Bool
  /-- The writer channel. -/
  out : List Bytes
  ackFlushDue : Bool
  closing : Bool
  closeDeadline : Nat
  quietRounds : Nat
  sentAny : Bool
  /-- The pacer holds something back. -/
  parked : Bool
  /-- Milliseconds since the start. -/
  now : Nat
  phase : PumpPhase
  /-- The bytes `poll_write` took. -/
  written : Bytes
  /-- The bytes the engine took of them. -/
  handed : Bytes
  /-- The CLOSE frames that were sent. -/
  closeSent : Nat
  deriving DecidableEq

namespace Pump

variable {cap : Nat}

abbrev kcp (s : Pump cap) : Kcp := s.read.kcp

def setKcp (s : Pump cap) (kcp : Kcp) : Pump cap := { s with read := { s.read with kcp := kcp } }

/-- `ms_now`. -/
def msNow (s : Pump cap) : U32 := BitVec.ofNat 32 s.now

/-- Both halves of the stream are gone. -/
def bothDropped (s : Pump cap) : Bool := !s.writer && s.read.isClosed

/-- The end of `run_session`: it lets go of `in_tx`. -/
def exit (s : Pump cap) (reason : ExitReason) : Pump cap :=
  { s with
    read := { s.read with pump := false }
    phase := .exited reason s.bothDropped }

/-! ## 2. The head and the arms of the select -/

/-- The first update, without which the engine does not flush. -/
def prime (s : Pump cap) : Pump cap :=
  match s.kcp.update s.msNow with
  | (kcp, .ok _) => { s.setKcp kcp with phase := .head }
  | (kcp, .error _) => (s.setKcp kcp).exit .updateFailed

/-- `maybe_path_mtu`: the path's datagram size, if it was read again. -/
def maybePathMtu (kcp : Kcp) : Option Nat → Kcp
  | some fits => kcp.setMtu fits
  | none => kcp

/-- `pump_head`. -/
def pumpHead (s : Pump cap) (mtu : Option Nat) : Pump cap :=
  if s.kcp.check s.msNow = 0 then
    match s.kcp.update s.msNow with
    | (kcp, .ok _) => { s.setKcp (maybePathMtu kcp mtu) with phase := .select, sentAny := false }
    | (kcp, .error _) => (s.setKcp kcp).exit .updateFailed
  else { s.setKcp (maybePathMtu s.kcp mtu) with phase := .select, sentAny := false }

/-- The writer's arm: a message, or the end of the writer. -/
def recvWrite (s : Pump cap) : Option (Pump cap) :=
  if s.closing ∨ sndQueueLimit ≤ s.kcp.waitSnd then none
  else
    match s.out with
    | data :: out => some { s with out := out, phase := .writing data }
    | [] =>
      if s.writer then none
      else some { s with
        closing := true
        closeDeadline := s.now + closeFlushTimeout
        phase := .delivering }

/-- The flush behind `drain_writer`. -/
def flushWrites (s : Pump cap) (fatal : Bool) : Pump cap :=
  match s.kcp.flush with
  | (kcp, .ok _) =>
    if fatal then (s.setKcp kcp).exit .sendFailed
    else { s.setKcp kcp with phase := .delivering }
  | (kcp, .error _) => (s.setKcp kcp).exit .flushFailed

/-- A turn of `drain_writer`: the next chunk of the message goes to the engine, or the next message
is taken. -/
def writeTurn (s : Pump cap) (data : Bytes) : Pump cap :=
  if data = [] then
    if sndQueueLimit ≤ s.kcp.waitSnd then s.flushWrites false
    else
      match s.out with
      | more :: out => { s with out := out, phase := .writing more }
      | [] => s.flushWrites false
  else
    let chunk := data.take sendChunk
    match s.kcp.sendOwned chunk with
    | (kcp, .ok n) =>
      if n = chunk.length then
        { s.setKcp kcp with handed := s.handed ++ chunk, phase := .writing (data.drop sendChunk) }
      else (s.setKcp kcp).flushWrites true
    | (kcp, .error _) => (s.setKcp kcp).flushWrites true

/-- `handle_ctrl`, as far as the engine goes; `false` when the peer has closed the session. -/
def handleCtrl (kcp : Kcp) (frame : Bytes) : Kcp × Bool :=
  let kind := frame.getD 5 0
  if kind = ctrlSack then
    (kcp.retransmitSn (BitVec.ofNat 32 (ofLe ((frame.drop 6).take 4))), true)
  else (kcp, kind ≠ ctrlClose)

/-- The control frames of a batch, up to a CLOSE. -/
def handleCtrls (kcp : Kcp) : List Bytes → Kcp × Bool
  | [] => (kcp, true)
  | frame :: rest =>
    match handleCtrl kcp frame with
    | (kcp, true) => handleCtrls kcp rest
    | (kcp, false) => (kcp, false)

/-- `feed_batch`: the engine, whether it took a datagram, and the control frames. -/
def feedBatch (kcp : Kcp) : List Bytes → Kcp × Bool × List Bytes
  | [] => (kcp, false, [])
  | pkt :: rest =>
    if isCtrlFrame pkt then
      let r := feedBatch kcp rest
      (r.1, r.2.1, pkt :: r.2.2)
    else
      let r := feedBatch (kcp.input pkt).1 rest
      (r.1, (kcp.input pkt).2.isOk || r.2.1, r.2.2)

/-- `intake`: a control frame alone, or a batch. -/
def intake (s : Pump cap) (pkt : Bytes) (backlog : List Bytes) : Pump cap :=
  let fed := if isCtrlFrame pkt then (s.kcp, false, [pkt]) else feedBatch s.kcp (pkt :: backlog)
  let handled := handleCtrls fed.1 fed.2.2
  let s := { s.setKcp handled.1 with ackFlushDue := s.ackFlushDue || fed.2.1 }
  if handled.2 then { s with phase := .delivering } else s.exit .peerClosed

/-- The timer's arm. -/
def timer (s : Pump cap) : Pump cap :=
  match s.kcp.update s.msNow with
  | (kcp, .ok _) => { s.setKcp kcp with phase := .delivering }
  | (kcp, .error _) => (s.setKcp kcp).exit .updateFailed

/-! ## 3. The tail -/

/-- A turn of `deliver_recv`, and what the tail does when it returns. -/
def deliverTurn (s : Pump cap) : Option (Pump cap) :=
  (s.read.step .deliver).map fun read =>
    match s.read.delivering, read.delivering with
    | .done delivered, _ => { s with read := read, phase := .tail delivered }
    | _, .readerGone => ({ s with read := read } : Pump cap).exit .readerGone
    | _, _ => { s with read := read }

/-- `flush_after_batch`, if acks are due. -/
def ackFlush (s : Pump cap) : Pump cap × Except KcpError Unit :=
  if s.ackFlushDue then
    let s := { s with ackFlushDue := false }
    match s.kcp.flushAck with
    | (kcp, .ok _) => (s.setKcp kcp.flush.1, kcp.flush.2)
    | (kcp, .error e) => (s.setKcp kcp, .error e)
  else (s, .ok ())

/-- Nothing moves, and nothing is left to move. -/
def quiet (s : Pump cap) (delivered : Bool) : Bool :=
  !s.sentAny && !delivered && s.kcp.waitSnd = 0 && s.read.spill = [] && !s.parked

/-- `closing_quiescent`. -/
def closingQuiescent (s : Pump cap) (delivered : Bool) : Pump cap × Bool :=
  let rounds := if s.quiet delivered then s.quietRounds + 1 else 0
  ({ s with quietRounds := rounds },
    decide (closeQuietRounds ≤ rounds) || decide (s.closeDeadline ≤ s.now))

/-- `pump_tail` behind the delivery; `sent` and `parked` are what the drain comes to. -/
def pumpTail (s : Pump cap) (delivered sent parked : Bool) : Pump cap :=
  match s.ackFlush with
  | (s, .error _) => s.exit .ackFlushFailed
  | (s, .ok _) =>
    let s := { s with sentAny := s.sentAny || sent, parked := parked }
    if s.kcp.isDeadLink then s.exit .deadLink
    else if s.closing && s.read.isClosed then
      match s.closingQuiescent delivered with
      | (s, true) => { s with phase := .farewell }
      | (s, false) => { s with phase := .head }
    else { s with phase := .head }

/-- A CLOSE frame; the first the socket refuses is the last that is tried. -/
def closeFrame (s : Pump cap) (taken : Bool) : Pump cap :=
  if taken then
    let s := { s with closeSent := s.closeSent + 1 }
    if s.closeSent < ctrlCloseFrames then s else s.exit .closed
  else s.exit .closed

/-! ## 4. The system -/

inductive Event
  | prime
  | head (mtu : Option Nat)
  | recvWrite
  | writeTurn
  | inbound (pkt : Bytes) (backlog : List Bytes)
  /-- The other end of the ingress is gone. -/
  | ingressGone
  | timer
  | deliver
  | tail (sent parked : Bool)
  | closeFrame (taken : Bool)
  /-- `poll_write` takes bytes; the stream's halves are dropped; `poll_read`; time passes. -/
  | write (data : Bytes)
  | dropWriter
  | dropReader
  | poll (remaining : Nat)
  | tick (ms : Nat)
  deriving DecidableEq

/-- One step; `none` where it cannot happen. -/
def step (s : Pump cap) : Event → Option (Pump cap)
  | .prime => if s.phase = .priming then some s.prime else none
  | .head mtu => if s.phase = .head then some (s.pumpHead mtu) else none
  | .recvWrite => if s.phase = .select then s.recvWrite else none
  | .writeTurn =>
    match s.phase with
    | .writing data => some (s.writeTurn data)
    | _ => none
  | .inbound pkt backlog =>
    if s.phase = .select ∧ backlog.length < inputBatchLimit then some (s.intake pkt backlog)
    else none
  | .ingressGone => if s.phase = .select then some (s.exit .ingressGone) else none
  | .timer => if s.phase = .select then some s.timer else none
  | .deliver => if s.phase = .delivering then s.deliverTurn else none
  | .tail sent parked =>
    match s.phase with
    | .tail delivered => some (s.pumpTail delivered sent parked)
    | _ => none
  | .closeFrame taken => if s.phase = .farewell then some (s.closeFrame taken) else none
  | .write data =>
    if s.writer ∧ s.read.pump ∧ data ≠ [] then
      some { s with out := s.out ++ [data], written := s.written ++ data }
    else none
  | .dropWriter => some { s with writer := false }
  | .dropReader => (s.read.step .drop).map fun read => { s with read := read }
  | .poll remaining => (s.read.step (.poll remaining)).map fun read => { s with read := read }
  | .tick ms => some { s with now := s.now + ms }

/-- A session as it is spawned. -/
def new (cap : Nat) (conv : U32) : Pump cap where
  read := .new cap (configured conv)
  writer := true
  out := []
  ackFlushDue := false
  closing := false
  closeDeadline := closeFlushTimeout
  quietRounds := 0
  sentAny := false
  parked := false
  now := 0
  phase := .priming
  written := []
  handed := []
  closeSent := 0

end Pump

/-- The system: any conversation, any network, any use of the stream. -/
def pump (cap : Nat) : Lts (Pump cap) Pump.Event where
  init s := ∃ conv, s = .new cap conv
  step s e s' := s.step e = some s'

/-! ## 5. The engine's flags

Once the engine's clock runs, no flush fails; and no call of the pump stops it. -/

namespace Kcp

theorem flags_of_limits {k k' : Kcp} (h : k'.limits = k.limits) : k'.flags = k.flags :=
  congrArg (fun v => v.2.2.2) h

@[simp] theorem flags_recvPop (k : Kcp) : k.recvPop.1.flags = k.flags := by
  unfold recvPop
  split
  · rfl
  · split
    · rfl
    · unfold fastRecover
      split
      · rfl
      · rfl

@[simp] theorem flags_sendOwned (k : Kcp) (data : Bytes) :
    (k.sendOwned data).1.flags = k.flags := by
  unfold sendOwned
  dsimp only
  split
  · rfl
  · split
    · split
      · rfl
      · rfl
    · rfl

@[simp] theorem flags_retransmitSn (k : Kcp) (sn : U32) : (k.retransmitSn sn).flags = k.flags := rfl

@[simp] theorem flags_setMtu (k : Kcp) (mtu : Nat) : (k.setMtu mtu).flags = k.flags := by
  unfold setMtu
  dsimp only
  split
  · rfl
  · rfl

theorem flags_acceptPush (k : Kcp) (head : SegHead) (buf : Bytes) :
    (k.acceptPush head buf).1.flags = k.flags := by
  have hdata : ∀ (k : Kcp) (seg : KcpSegment), (k.parseData seg).flags = k.flags := by
    intro k seg
    unfold parseData
    split
    · rfl
    · change (k.insertSegment seg).flags = k.flags
      unfold insertSegment
      split
      · rfl
      · rfl
  unfold acceptPush
  dsimp only
  split
  · rfl
  · split
    · rfl
    · split
      · rfl
      · exact hdata _ _

theorem flags_inputAck (k : Kcp) (head : SegHead) : (k.inputAck head).flags = k.flags := by
  have hsample : (k.sampleRtt head.ts).flags = k.flags := by
    unfold sampleRtt
    split
    · rfl
    · rfl
  rw [← hsample]
  change ((k.sampleRtt head.ts).parseAck head.sn).flags = _
  unfold parseAck
  split
  · rfl
  · rfl

theorem flags_inputSegment (k : Kcp) (acks : AckRun) (head : SegHead) (buf : Bytes) :
    (k.inputSegment acks head buf).1.flags = k.flags := by
  unfold inputSegment
  split
  · exact flags_inputAck (k.inputHead head) head
  · split
    · have h := flags_acceptPush (k.inputHead head) head buf
      split
      · rename_i hr
        rw [hr] at h
        exact h
      · rename_i hr
        rw [hr] at h
        exact h
      · rename_i hr
        rw [hr] at h
        exact h
    · split
      · rfl
      · rfl

theorem flags_inputEnd (k : Kcp) (acks : AckRun) (oldUna : U32) :
    (k.inputEnd acks oldUna).flags = k.flags := by
  have hcwnd : ∀ k : Kcp, (k.updateCwndAfterAcks oldUna).flags = k.flags := by
    intro k
    unfold updateCwndAfterAcks
    split
    · rfl
    · split
      · rfl
      · rfl
  rw [inputEnd, hcwnd]
  split
  · unfold parseFastack
    split
    · rfl
    · rfl
  · rfl

@[simp] theorem flags_input (k : Kcp) (buf : Bytes) : (k.input buf).1.flags = k.flags := by
  have hloop := inputLoop_inv (P := fun k' => k'.flags = k.flags)
    (fun k' acks head rest h => (flags_inputSegment k' acks head rest).trans h)
    buf.length k {} buf rfl
  unfold input
  split
  · rfl
  · split
    · rename_i hr
      rw [hr] at hloop
      exact hloop
    · rename_i k' acks rest hr
      rw [hr] at hloop
      exact (flags_inputEnd k' acks k.sndUna).trans hloop

@[simp] theorem flags_flushAck (k : Kcp) : k.flushAck.1.flags = k.flags := by
  unfold flushAck
  split
  · rfl
  · exact flags_of_limits (limits_flushAckLoop k.acklist k k.ackSegment)

theorem flags_flushSegment (env : FlushEnv) (acc : FlushAcc) (seg : KcpSegment) :
    (flushSegment env acc seg).1.kcp.flags = acc.kcp.flags := by
  have hneed : ∀ {acc' : FlushAcc} {seg' : KcpSegment}, needSend env acc seg = some (acc', seg') →
      acc'.kcp.flags = acc.kcp.flags := by
    intro acc' seg' h
    unfold needSend at h
    dsimp only at h
    split at h
    · cases h
      rfl
    · split at h
      · cases h
        rfl
      · split at h
        · cases h
          rfl
        · cases h
  have hemit : ∀ (k : Kcp) (seg : KcpSegment), (k.emitSegment seg).flags = k.flags := by
    intro k seg
    unfold emitSegment
    split
    · rfl
    · exact flags_of_limits (limits_roomFor k _)
  unfold flushSegment
  split
  case h_1 => rfl
  case h_2 acc' seg' hsome =>
    dsimp only
    unfold noteDead
    split
    · exact (hemit _ _).trans (hneed hsome)
    · exact (hemit _ _).trans (hneed hsome)

theorem flags_flushLoop (env : FlushEnv) (segs : List KcpSegment) (acc : FlushAcc) :
    (flushLoop env acc segs).1.kcp.flags = acc.kcp.flags := by
  induction segs generalizing acc with
  | nil => rfl
  | cons seg rest ih =>
    rw [flushLoop]
    exact (ih _).trans (flags_flushSegment env acc seg)

theorem flags_updateSsthresh (k : Kcp) (change resent : U32) (lost : Bool) (priorCwnd : U16) :
    (k.updateSsthresh change resent lost priorCwnd).flags = k.flags := by
  have h1 : (k.ssthreshAfterFast change resent).flags = k.flags := by
    unfold ssthreshAfterFast
    split
    · rfl
    · rfl
  have h2 : ((k.ssthreshAfterFast change resent).ssthreshAfterLoss lost priorCwnd).flags =
      (k.ssthreshAfterFast change resent).flags := by
    unfold ssthreshAfterLoss
    split
    · rfl
    · rfl
  rw [← h1, ← h2]
  unfold updateSsthresh cwndFloor
  split
  · rfl
  · rfl

@[simp] theorem flags_flush (k : Kcp) : k.flush.1.flags = k.flags := by
  unfold flush
  split
  · rfl
  · dsimp only
    rw [flags_updateSsthresh, flags_of_limits (limits_writeBuf _)]
    exact (flags_flushLoop _ _ _).trans (flags_of_limits (limits_flushControl k))

/-- A flush fails only before the first update. -/
theorem flush_ok {k : Kcp} (h : k.flags.updated = true) : k.flush.2 = .ok () := by
  unfold flush
  rw [if_neg (by simp [h])]

theorem flushAck_ok {k : Kcp} (h : k.flags.updated = true) : k.flushAck.2 = .ok () := by
  unfold flushAck
  rw [if_neg (by simp [h])]

/-- An update starts the engine's clock, and does not fail. -/
theorem update_ok (k : Kcp) (current : U32) :
    (k.update current).2 = .ok () ∧ (k.update current).1.flags.updated = true ∧
      (k.update current).1.flags.stream = k.flags.stream := by
  have hmark : ({ k with current := current } : Kcp).markUpdated.flags.updated = true ∧
      ({ k with current := current } : Kcp).markUpdated.flags.stream = k.flags.stream := by
    unfold markUpdated
    split
    case isTrue => exact ⟨rfl, rfl⟩
    case isFalse h => exact ⟨by simpa using h, rfl⟩
  have hflush : ∀ m : Kcp, m.flags = ({ k with current := current } : Kcp).markUpdated.flags →
      m.flush.2 = .ok () ∧ m.flush.1.flags.updated = true ∧
        m.flush.1.flags.stream = k.flags.stream := by
    intro m hm
    rw [flags_flush, hm]
    exact ⟨flush_ok (by rw [hm]; exact hmark.1), hmark.1, hmark.2⟩
  unfold update
  dsimp only
  split
  · exact hflush _ rfl
  · split
    · exact hflush _ rfl
    · exact ⟨rfl, hmark.1, hmark.2⟩

/-- What an update returns. -/
theorem update_eq_ok (k : Kcp) (current : U32) :
    ∃ k', k.update current = (k', .ok ()) ∧ k'.flags.updated = true ∧
      k'.flags.stream = k.flags.stream := by
  obtain ⟨hok, hupdated, hstream⟩ := k.update_ok current
  exact ⟨(k.update current).1, Prod.ext rfl hok, hupdated, hstream⟩

@[simp] theorem takesWhole_nil (k : Kcp) : k.takesWhole [] = true := by
  rw [takesWhole, decide_eq_true_iff, List.length_nil, Nat.zero_sub, Nat.zero_add]
  rcases Nat.eq_zero_or_pos k.mss with hmss | hmss
  · rw [hmss, Nat.div_zero]
    decide
  · rw [Nat.div_eq_of_lt (by omega)]
    decide

/-- In stream mode the engine takes `data` in one call exactly when it has room for all of it. -/
theorem sendOwned_ok_iff {k : Kcp} (hstream : k.flags.stream = true) (data : Bytes) :
    (k.sendOwned data).2 = .ok data.length ↔ k.takesWhole data = true := by
  have hle : k.extendLen data ≤ data.length := extendLen_le k data
  rw [takesWhole, decide_eq_true_iff]
  unfold sendOwned
  dsimp only
  rw [List.length_drop]
  split
  case isTrue hall =>
    have hlen : data.length - k.extendLen data = 0 := by
      rw [← List.length_drop, hall.2, List.length_nil]
    have hsum : k.extendLen data = data.length := by omega
    rw [hlen, hsum]
    refine ⟨fun _ => ?_, fun _ => rfl⟩
    rcases Nat.eq_zero_or_pos k.mss with hmss | hmss
    · rw [hmss, Nat.div_zero]
      decide
    · rw [Nat.div_eq_of_lt (by omega)]
      decide
  case isFalse hrest =>
    split
    case isTrue hbig =>
      refine ⟨fun h => ?_, fun h => absurd h (Nat.not_lt.mpr hbig)⟩
      split at h
      · have hsum : k.extendLen data = data.length := by simpa using h
        exact absurd ⟨hstream, by rw [hsum, List.drop_length]⟩ hrest
      · cases h
    case isFalse hfits =>
      refine ⟨fun _ => Nat.not_le.mp hfits, fun _ => ?_⟩
      rw [Nat.add_sub_cancel' hle]

end Kcp

namespace ReadPath

variable {cap : Nat}

/-- The delivery has a batch for the reader before its end. -/
def handsOver (s : ReadPath cap) : Bool :=
  match s.delivering with
  | .spilling _ => s.spill ≠ []
  | .flushing _ => true
  | _ => false

/-- What a turn of the delivery leaves alone: the stream's halves and the engine's flags. -/
structure SameEnds (s s' : ReadPath cap) : Prop where
  readHalf : s'.readHalf = s.readHalf
  pump : s'.pump = s.pump
  flags : s'.kcp.flags = s.kcp.flags

theorem sameEnds_flushParts (s : ReadPath cap) (sent spilled closed : Delivering) :
    SameEnds s (s.flushParts sent spilled closed) := by
  rw [flushParts]
  simp only
  split
  · exact ⟨rfl, rfl, rfl⟩
  · exact ⟨rfl, rfl, rfl⟩
  · exact ⟨rfl, rfl, rfl⟩

theorem sameEnds_spillTurn (s : ReadPath cap) (delivered : Bool) :
    SameEnds s (s.spillTurn delivered) := by
  rw [spillTurn]
  split
  · exact ⟨rfl, rfl, rfl⟩
  · split
    · exact ⟨rfl, rfl, rfl⟩
    · exact ⟨rfl, rfl, rfl⟩
    · exact ⟨rfl, rfl, rfl⟩

theorem sameEnds_recvTurn (s : ReadPath cap) (delivered : Bool) (partsBytes : Nat) :
    SameEnds s (s.recvTurn delivered partsBytes) := by
  have hflags := Kcp.flags_recvPop s.kcp
  rw [recvTurn]
  split
  case h_1 => exact ⟨rfl, rfl, rfl⟩
  case h_2 hpop =>
    rw [hpop] at hflags
    simp only
    split
    · exact ⟨rfl, rfl, hflags⟩
    · split
      · exact ⟨rfl, rfl, hflags⟩
      · exact ⟨rfl, rfl, hflags⟩

theorem sameEnds_deliver {s s' : ReadPath cap} (hs : s.deliver = some s') : SameEnds s s' := by
  rw [deliver] at hs
  split at hs
  case h_1 =>
    cases hs
    exact ⟨rfl, rfl, rfl⟩
  case h_2 delivered _ =>
    cases hs
    exact s.sameEnds_spillTurn delivered
  case h_3 delivered partsBytes _ =>
    cases hs
    exact s.sameEnds_recvTurn delivered partsBytes
  case h_4 =>
    cases hs
    exact s.sameEnds_flushParts _ _ _
  case h_5 =>
    cases hs
    split
    · exact ⟨rfl, rfl, rfl⟩
    · exact s.sameEnds_flushParts _ _ _
  case h_6 =>
    cases hs
    exact ⟨rfl, rfl, rfl⟩
  case h_7 => cases hs

theorem trySend_closed_iff (s : ReadPath cap) (batch : ReadBatch) :
    s.trySend batch = .closed ↔ s.isClosed = true := by
  rw [trySend]
  split
  case isTrue hc => exact ⟨fun _ => hc, fun _ => rfl⟩
  case isFalse hc =>
    constructor
    · intro h
      split at h
      · cases h
      · cases h
    · exact fun h => absurd h hc

/-- A batch in hand finds the reader gone where the channel is closed and its caller looks. -/
theorem flushParts_readerGone (s : ReadPath cap) (sent spilled closed : Delivering)
    (hsent : sent ≠ .readerGone) (hspilled : spilled ≠ .readerGone) :
    (s.flushParts sent spilled closed).delivering = .readerGone ↔
      s.isClosed = true ∧ closed = .readerGone := by
  have hclosed : ({ s with parts := [] } : ReadPath cap).trySend s.batchInHand = .closed ↔
      s.isClosed = true := trySend_closed_iff _ s.batchInHand
  rw [flushParts]
  simp only
  split
  case h_1 hs =>
    rw [hs] at hclosed
    exact ⟨fun h => absurd h hsent, fun h => absurd (hclosed.mpr h.1) (by simp)⟩
  case h_2 hs =>
    rw [hs] at hclosed
    exact ⟨fun h => absurd h hspilled, fun h => absurd (hclosed.mpr h.1) (by simp)⟩
  case h_3 hs => exact ⟨fun h => ⟨hclosed.mp hs, h⟩, fun h => h.2⟩

/-- So does a spilled batch. -/
theorem spillTurn_readerGone (s : ReadPath cap) (delivered : Bool) :
    (s.spillTurn delivered).delivering = .readerGone ↔ s.isClosed = true ∧ s.spill ≠ [] := by
  rw [spillTurn]
  split
  case h_1 hnil => simp [hnil]
  case h_2 batch rest hspill =>
    have hclosed := s.trySend_closed_iff batch
    simp only [hspill, ne_eq, reduceCtorEq, not_false_eq_true, and_true]
    split
    case h_1 hs =>
      rw [hs] at hclosed
      exact ⟨(fun h => by cases h), fun h => absurd (hclosed.mpr h) (by simp)⟩
    case h_2 hs =>
      rw [hs] at hclosed
      exact ⟨(fun h => by cases h), fun h => absurd (hclosed.mpr h) (by simp)⟩
    case h_3 hs => exact ⟨fun _ => hclosed.mp hs, fun _ => rfl⟩

/-- **Who finds the reader gone**: a turn with a batch to hand over, and no other. -/
theorem deliver_readerGone {s s' : ReadPath cap} (hs : s.deliver = some s') :
    s'.delivering = .readerGone ↔ s.isClosed = true ∧ s.handsOver = true := by
  rw [deliver] at hs
  rw [handsOver]
  split at hs
  case h_1 hd =>
    cases hs
    rw [hd]
    simp
  case h_2 delivered hd =>
    cases hs
    rw [hd, spillTurn_readerGone]
    simp
  case h_3 delivered partsBytes hd =>
    cases hs
    rw [hd, recvTurn]
    split
    case h_1 => simp
    case h_2 =>
      simp only
      split
      · simp
      · split
        · simp
        · simp
  case h_4 delivered hd =>
    cases hs
    rw [hd, s.flushParts_readerGone (.receiving true 0) (.ending delivered) _ (by simp) (by simp)]
    simp
  case h_5 delivered hd =>
    cases hs
    rw [hd]
    split
    · simp
    · rw [s.flushParts_readerGone (.done true) (.done delivered) _ (by simp) (by simp)]
      simp
  case h_6 hd =>
    cases hs
    rw [hd]
    simp
  case h_7 => cases hs

/-- What the reader does leaves the pump's side alone. -/
theorem step_poll_frame {s s' : ReadPath cap} {remaining : Nat}
    (hs : s.step (.poll remaining) = some s') :
    s'.kcp = s.kcp ∧ s'.pump = s.pump ∧ s'.spill = s.spill ∧ s'.delivering = s.delivering ∧
      (s.isClosed = true → s'.isClosed = true) := by
  rw [step] at hs
  split at hs
  case isTrue => cases hs
  case isFalse =>
    cases hs
    rw [pollRead]
    split
    · exact ⟨rfl, rfl, rfl, rfl, fun h => h⟩
    · split
      · split
        · exact ⟨rfl, rfl, rfl, rfl, fun h => h⟩
        · split
          · exact ⟨rfl, rfl, rfl, rfl, fun h => h⟩
          · exact ⟨rfl, rfl, rfl, rfl, fun _ => rfl⟩
      · exact ⟨rfl, rfl, rfl, rfl, fun h => h⟩

end ReadPath

/-- The pump has not ended. -/
def PumpPhase.live : PumpPhase → Bool
  | .exited _ _ => false
  | _ => true

/-- The rest of the message `drain_writer` is at. -/
def PumpPhase.inHand : PumpPhase → Bytes
  | .writing data => data
  | _ => []

namespace Pump

variable {cap : Nat} {s s' : Pump cap}

/-! ## 6. What holds in every run -/

/-- Everything the writer gave is acknowledged by the peer, and nothing is held back. -/
structure Flushed (s : Pump cap) : Prop where
  handed : s.handed = s.written
  out : s.out = []
  waitSnd : s.kcp.waitSnd = 0
  spill : s.read.spill = []
  parked : s.parked = false

structure Inv (s : Pump cap) : Prop where
  pump : s.read.pump = s.phase.live
  stream : s.kcp.flags.stream = true
  updated : s.phase ≠ .priming → s.kcp.flags.updated = true
  closing : s.closing = true → s.writer = false ∧ s.out = [] ∧ s.phase.inHand = []
  accounted : s.phase.live = true → s.written = s.handed ++ s.phase.inHand ++ s.out.flatten
  early : s.phase.live = true → s.phase ≠ .farewell → s.closeSent = 0
  farewell : s.phase = .farewell →
    s.bothDropped = true ∧ s.closing = true ∧ s.closeSent < ctrlCloseFrames ∧
      (s.Flushed ∨ s.closeDeadline ≤ s.now)

/-- A stage of the loop that stays in it and leaves the writer's side alone. -/
structure Stage (s s' : Pump cap) : Prop where
  pump : s'.read.pump = s.read.pump
  stream : s'.kcp.flags.stream = s.kcp.flags.stream
  updated : s'.kcp.flags.updated = true
  writer : s'.writer = s.writer
  out : s'.out = s.out
  closing : s'.closing = s.closing
  written : s'.written = s.written
  handed : s'.handed = s.handed
  closeSent : s'.closeSent = s.closeSent
  live : s'.phase.live = true
  inHand : s'.phase.inHand = s.phase.inHand
  farewell : s'.phase ≠ .farewell

theorem Inv.stage (h : Inv s) (hlive : s.phase.live = true) (hphase : s.phase ≠ .farewell)
    (hs : Stage s s') : Inv s' := by
  refine ⟨?_, hs.stream.trans h.stream, fun _ => hs.updated, ?_, ?_, ?_, ?_⟩
  · rw [hs.pump, hs.live, h.pump, hlive]
  · rw [hs.closing, hs.writer, hs.out, hs.inHand]
    exact h.closing
  · intro _
    rw [hs.written, hs.handed, hs.inHand, hs.out]
    exact h.accounted hlive
  · intro _ _
    rw [hs.closeSent]
    exact h.early hlive hphase
  · exact fun hf => absurd hf hs.farewell

/-- How the pump is to end, once both halves of the stream are gone. -/
def EndsWell (s : Pump cap) : ExitReason → Prop
  | .deadLink => s.kcp.isDeadLink = true
  | .peerClosed => True
  | .closed => s.closeSent = ctrlCloseFrames ∧ (s.Flushed ∨ s.closeDeadline ≤ s.now)
  | _ => False

/-- If the pump has ended with both halves gone, it has ended well. -/
def Orderly (s : Pump cap) : Prop := ∀ reason, s.phase = .exited reason true → s.EndsWell reason

/-- What an orderly end needs of a step, once both halves are gone: no batch for the reader, the
ingress, room for the next chunk, and a socket that takes the CLOSE frame. -/
def orderlyStep (s : Pump cap) (e : Event) : Bool :=
  !s.bothDropped ||
    match e with
    | .deliver => !s.read.handsOver
    | .ingressGone => false
    | .writeTurn =>
      match s.phase with
      | .writing data => s.kcp.takesWhole (data.take sendChunk)
      | _ => true
    | .closeFrame taken => taken
    | _ => true

theorem orderly_of_live (h : s.phase.live = true) : s.Orderly := by
  intro reason hphase
  rw [hphase] at h
  cases h

theorem orderly_exit {t : Pump cap} {reason : ExitReason} (h : t.EndsWell reason) :
    (t.exit reason).Orderly := by
  intro reason' hphase
  injection hphase with hreason
  subst hreason
  cases reason with
  | closed =>
    refine ⟨h.1, h.2.imp (fun hf => ?_) id⟩
    exact ⟨hf.handed, hf.out, hf.waitSnd, hf.spill, hf.parked⟩
  | _ => exact h

/-- An end for any other reason is orderly only where a half of the stream was left. -/
theorem orderly_exit_iff {t : Pump cap} (reason : ExitReason)
    (h : ¬ (t.exit reason).EndsWell reason) :
    (t.exit reason).Orderly ↔ t.bothDropped = false := by
  constructor
  · intro ho
    rw [← Bool.not_eq_true]
    intro hboth
    exact h (ho reason (congrArg (PumpPhase.exited reason) hboth))
  · intro hboth reason' hphase
    rw [exit, hboth] at hphase
    cases hphase

/-! ## 7. The stages -/

theorem Stage.prime (s : Pump cap) (hphase : s.phase = .priming) : Stage s s.prime := by
  obtain ⟨kcp, hu, hupdated, hstream⟩ := s.kcp.update_eq_ok s.msNow
  have hs : s.prime = { s.setKcp kcp with phase := .head } := by
    unfold Pump.prime
    simp only [hu]
  rw [hs]
  have hhand := congrArg PumpPhase.inHand hphase.symm
  exact ⟨rfl, hstream, hupdated, rfl, rfl, rfl, rfl, rfl, rfl, rfl, hhand, nofun⟩

theorem Stage.pumpHead (h : Inv s) (hphase : s.phase = .head) (mtu : Option Nat) :
    Stage s (s.pumpHead mtu) := by
  obtain ⟨kcp, hu, hupdated, hstream⟩ := s.kcp.update_eq_ok s.msNow
  have hup : s.kcp.flags.updated = true := h.updated (by rw [hphase]; nofun)
  have hadapt : ∀ kcp : Kcp, (maybePathMtu kcp mtu).flags = kcp.flags := by
    intro kcp
    cases mtu with
    | some fits => exact kcp.flags_setMtu fits
    | none => rfl
  have hstage : ∀ kcp : Kcp, kcp.flags.updated = true → kcp.flags.stream = s.kcp.flags.stream →
      Stage s { s.setKcp (maybePathMtu kcp mtu) with phase := .select, sentAny := false } := by
    intro kcp hk hs
    refine ⟨rfl, ?_, ?_, rfl, rfl, rfl, rfl, rfl, rfl, rfl, by rw [hphase]; rfl, nofun⟩
    · exact (congrArg KcpFlags.stream (hadapt kcp)).trans hs
    · exact (congrArg KcpFlags.updated (hadapt kcp)).trans hk
  rw [Pump.pumpHead, hu]
  split
  · exact hstage kcp hupdated hstream
  · exact hstage s.kcp hup rfl

theorem Stage.timer (s : Pump cap) (hphase : s.phase = .select) : Stage s s.timer := by
  obtain ⟨kcp, hu, hupdated, hstream⟩ := s.kcp.update_eq_ok s.msNow
  have hs : s.timer = { s.setKcp kcp with phase := .delivering } := by
    unfold Pump.timer
    simp only [hu]
  rw [hs]
  have hhand := congrArg PumpPhase.inHand hphase.symm
  exact ⟨rfl, hstream, hupdated, rfl, rfl, rfl, rfl, rfl, rfl, rfl, hhand, nofun⟩

/-- The writer's arm takes a message in hand, or notes the end of the writer. -/
theorem Inv.recvWrite (h : Inv s) (hphase : s.phase = .select) (hs : s.recvWrite = some s') :
    Inv s' ∧ s'.phase.live = true := by
  have haccounted := h.accounted (by rw [hphase]; rfl)
  have hearly := h.early (by rw [hphase]; rfl) (by rw [hphase]; nofun)
  have hupdated := h.updated (by rw [hphase]; nofun)
  have hpump := h.pump
  rw [hphase] at haccounted hpump
  rw [Pump.recvWrite] at hs
  split at hs
  case isTrue => cases hs
  case isFalse hopen =>
    split at hs
    case h_1 data out hout =>
      cases hs
      refine ⟨⟨hpump, h.stream, fun _ => hupdated, ?_, fun _ => ?_, fun _ _ => hearly, nofun⟩, rfl⟩
      · exact fun hc => absurd (Or.inl hc) hopen
      · rw [haccounted, hout]
        simp [PumpPhase.inHand]
    case h_2 hout =>
      split at hs
      case isTrue => cases hs
      case isFalse hwriter =>
        cases hs
        refine ⟨⟨hpump, h.stream, fun _ => hupdated, fun _ => ?_, fun _ => ?_, fun _ _ => hearly,
          nofun⟩, rfl⟩
        · exact ⟨by simpa using hwriter, hout, rfl⟩
        · exact haccounted

/-- The flush behind the writes does not fail. -/
theorem flushWrites_eq (hup : s.kcp.flags.updated = true) (fatal : Bool) :
    s.flushWrites fatal = if fatal then (s.setKcp s.kcp.flush.1).exit .sendFailed
      else { s.setKcp s.kcp.flush.1 with phase := .delivering } := by
  have hok := Kcp.flush_ok hup
  rw [flushWrites]
  split
  case h_1 hf => rw [hf]
  case h_2 hf =>
    rw [hf] at hok
    cases hok

/-- A stage that ends the pump. -/
theorem Inv.exit_of (h : Inv s) {t : Pump cap} (hstream : t.kcp.flags.stream = true)
    (hupdated : t.kcp.flags.updated = true) (hwriter : t.writer = s.writer) (hout : t.out = s.out)
    (hclosing : t.closing = s.closing) (reason : ExitReason) : Inv (t.exit reason) := by
  refine ⟨rfl, hstream, fun _ => hupdated, ?_, nofun, nofun, nofun⟩
  intro hc
  obtain ⟨hw, ho, -⟩ := h.closing (hclosing ▸ hc)
  exact ⟨hwriter.trans hw, hout.trans ho, rfl⟩

/-- The writer's end is not noted while a message is in hand or in the channel. -/
theorem Inv.open_of_writing (h : Inv s) {data : Bytes} (hphase : s.phase = .writing data)
    (hmore : data ≠ [] ∨ s.out ≠ []) : s.closing = false := by
  rw [← Bool.not_eq_true]
  intro hc
  obtain ⟨-, hout, hhand⟩ := h.closing hc
  rw [hphase] at hhand
  rcases hmore with hmore | hmore
  · exact hmore hhand
  · exact hmore hout

/-- Behind the last message, the pump goes on to the delivery. -/
theorem Stage.flushWrites (h : Inv s) (hphase : s.phase = .writing []) :
    Stage s (s.flushWrites false) := by
  have hup : s.kcp.flags.updated = true := h.updated (by rw [hphase]; nofun)
  have hflags := Kcp.flags_flush s.kcp
  rw [flushWrites_eq hup]
  exact ⟨rfl, congrArg KcpFlags.stream hflags, (congrArg KcpFlags.updated hflags).trans hup, rfl,
    rfl, rfl, rfl, rfl, rfl, rfl, by rw [hphase]; rfl, nofun⟩

/-- The next message is taken in hand. -/
theorem Inv.takeMessage (h : Inv s) (hphase : s.phase = .writing []) {more : Bytes}
    {out : List Bytes} (hout : s.out = more :: out) :
    Inv { s with out := out, phase := .writing more } := by
  have hlive : s.phase.live = true := by
    rw [hphase]
    rfl
  have haccounted := h.accounted hlive
  have hpump := h.pump
  have hopen := h.open_of_writing hphase (Or.inr (by rw [hout]; exact List.cons_ne_nil _ _))
  rw [hphase] at haccounted hpump
  refine ⟨hpump, h.stream, fun _ => h.updated (by rw [hphase]; nofun), fun hc => ?_, fun _ => ?_,
    fun _ _ => h.early hlive (by rw [hphase]; nofun), nofun⟩
  · have hc' : s.closing = true := hc
    rw [hopen] at hc'
    cases hc'
  · rw [haccounted, hout]
    simp [PumpPhase.inHand]

/-- The next chunk is handed to the engine. -/
theorem Inv.handOver (h : Inv s) {data : Bytes} (hphase : s.phase = .writing data)
    (hdata : data ≠ []) {kcp : Kcp} (hflags : kcp.flags = s.kcp.flags) :
    Inv { s.setKcp kcp with
      handed := s.handed ++ data.take sendChunk
      phase := .writing (data.drop sendChunk) } := by
  have hlive : s.phase.live = true := by
    rw [hphase]
    rfl
  have haccounted := h.accounted hlive
  have hpump := h.pump
  have hopen := h.open_of_writing hphase (Or.inl hdata)
  have hup : s.kcp.flags.updated = true := h.updated (by rw [hphase]; nofun)
  rw [hphase] at haccounted hpump
  refine ⟨hpump, (congrArg KcpFlags.stream hflags).trans h.stream,
    fun _ => (congrArg KcpFlags.updated hflags).trans hup, fun hc => ?_, fun _ => ?_,
    fun _ _ => h.early hlive (by rw [hphase]; nofun), nofun⟩
  · have hc' : s.closing = true := hc
    rw [hopen] at hc'
    cases hc'
  · change s.written = s.handed ++ data.take sendChunk ++ data.drop sendChunk ++ s.out.flatten
    rw [haccounted]
    simp [PumpPhase.inHand]

/-- A chunk the engine refuses ends the pump. -/
theorem Inv.refused (h : Inv s) (hphase : s.phase ≠ .priming) {kcp : Kcp}
    (hflags : kcp.flags = s.kcp.flags) :
    Inv ((s.setKcp kcp).flushWrites true) ∧
      (((s.setKcp kcp).flushWrites true).Orderly ↔ s.bothDropped = false) := by
  have hup := h.updated hphase
  have hkup : (s.setKcp kcp).kcp.flags.updated = true :=
    (congrArg KcpFlags.updated hflags).trans hup
  have hf : kcp.flush.1.flags = s.kcp.flags := (Kcp.flags_flush kcp).trans hflags
  rw [flushWrites_eq hkup]
  constructor
  · exact h.exit_of (t := (s.setKcp kcp).setKcp kcp.flush.1)
      ((congrArg KcpFlags.stream hf).trans h.stream)
      ((congrArg KcpFlags.updated hf).trans hup) rfl rfl rfl .sendFailed
  · exact orderly_exit_iff (t := (s.setKcp kcp).setKcp kcp.flush.1) .sendFailed nofun

/-- A turn of `drain_writer` hands a chunk over, or ends the pump if the engine refuses it. -/
theorem Inv.writeTurn (h : Inv s) {data : Bytes} (hphase : s.phase = .writing data) :
    Inv (s.writeTurn data) ∧
      (s.kcp.takesWhole (data.take sendChunk) = true → (s.writeTurn data).phase.live = true) ∧
      (s.kcp.takesWhole (data.take sendChunk) = false →
        ((s.writeTurn data).Orderly ↔ s.bothDropped = false)) := by
  by_cases hnil : data = []
  · subst hnil
    have hst := Stage.flushWrites h hphase
    have hflushed : Inv (s.flushWrites false) :=
      h.stage (by rw [hphase]; rfl) (by rw [hphase]; nofun) hst
    rw [List.take_nil, Kcp.takesWhole_nil, Pump.writeTurn, if_pos rfl]
    split
    case isTrue => exact ⟨hflushed, fun _ => hst.live, nofun⟩
    case isFalse =>
      split
      case h_1 more out hout => exact ⟨h.takeMessage hphase hout, fun _ => rfl, nofun⟩
      case h_2 => exact ⟨hflushed, fun _ => hst.live, nofun⟩
  · have hiff := Kcp.sendOwned_ok_iff h.stream (data.take sendChunk)
    have hflags := Kcp.flags_sendOwned s.kcp (data.take sendChunk)
    have hprimed : s.phase ≠ .priming := by
      rw [hphase]
      nofun
    rw [Pump.writeTurn, if_neg hnil]
    dsimp only
    split
    case h_1 kcp n hsend =>
      rw [hsend] at hiff hflags
      split
      case isTrue hn =>
        rw [hiff.mp (by rw [hn])]
        exact ⟨h.handOver hphase hnil hflags, fun _ => rfl, nofun⟩
      case isFalse hn =>
        obtain ⟨hinv, horderly⟩ := h.refused hprimed hflags
        exact ⟨hinv, fun hwhole => absurd (Except.ok.inj (hiff.mpr hwhole)) hn, fun _ => horderly⟩
    case h_2 kcp e hsend =>
      rw [hsend] at hiff hflags
      obtain ⟨hinv, horderly⟩ := h.refused hprimed hflags
      exact ⟨hinv, fun hwhole => (nomatch hiff.mpr hwhole), fun _ => horderly⟩

theorem handleCtrl_flags (kcp : Kcp) (frame : Bytes) :
    (handleCtrl kcp frame).1.flags = kcp.flags := by
  rw [handleCtrl]
  split
  · rfl
  · rfl

theorem handleCtrls_flags (frames : List Bytes) (kcp : Kcp) :
    (handleCtrls kcp frames).1.flags = kcp.flags := by
  induction frames generalizing kcp with
  | nil => rfl
  | cons frame rest ih =>
    have hflags := handleCtrl_flags kcp frame
    rw [handleCtrls]
    split
    case h_1 kcp' hc =>
      rw [hc] at hflags
      exact (ih kcp').trans hflags
    case h_2 kcp' hc =>
      rw [hc] at hflags
      exact hflags

theorem feedBatch_flags (pkts : List Bytes) (kcp : Kcp) :
    (feedBatch kcp pkts).1.flags = kcp.flags := by
  induction pkts generalizing kcp with
  | nil => rfl
  | cons pkt rest ih =>
    rw [feedBatch]
    split
    · exact ih kcp
    · exact (ih _).trans (Kcp.flags_input kcp pkt)

/-- The intake goes on to the tail, or ends the pump because the peer has. -/
theorem Inv.intake (h : Inv s) (hphase : s.phase = .select) (pkt : Bytes) (backlog : List Bytes) :
    Inv (s.intake pkt backlog) ∧ (s.intake pkt backlog).Orderly := by
  have hup : s.kcp.flags.updated = true := h.updated (by rw [hphase]; nofun)
  have hlive : s.phase.live = true := by
    rw [hphase]
    rfl
  rw [Pump.intake]
  set fed := if isCtrlFrame pkt then (s.kcp, false, [pkt]) else feedBatch s.kcp (pkt :: backlog)
  have hfed : fed.1.flags = s.kcp.flags := by
    change (if isCtrlFrame pkt then (s.kcp, false, [pkt])
      else feedBatch s.kcp (pkt :: backlog)).1.flags = _
    split
    · rfl
    · exact feedBatch_flags (pkt :: backlog) s.kcp
  have hflags : (handleCtrls fed.1 fed.2.2).1.flags = s.kcp.flags :=
    (handleCtrls_flags fed.2.2 fed.1).trans hfed
  have hstream := (congrArg KcpFlags.stream hflags).trans h.stream
  have hupdated := (congrArg KcpFlags.updated hflags).trans hup
  split
  · have hst : Stage s { ({ s.setKcp (handleCtrls fed.1 fed.2.2).1 with
        ackFlushDue := s.ackFlushDue || fed.2.1 } : Pump cap) with phase := .delivering } :=
      ⟨rfl, congrArg KcpFlags.stream hflags, hupdated, rfl, rfl, rfl, rfl, rfl, rfl, rfl,
        by rw [hphase]; rfl, nofun⟩
    exact ⟨h.stage hlive (by rw [hphase]; nofun) hst, orderly_of_live rfl⟩
  · exact ⟨h.exit_of (t := { s.setKcp (handleCtrls fed.1 fed.2.2).1 with
      ackFlushDue := s.ackFlushDue || fed.2.1 }) hstream hupdated rfl rfl rfl .peerClosed,
      orderly_exit trivial⟩

/-- A turn of the delivery goes on, or ends the pump because it has a batch for a reader that is
gone. -/
theorem Inv.deliverTurn (h : Inv s) (hphase : s.phase = .delivering)
    (hs : s.deliverTurn = some s') :
    Inv s' ∧ (s'.Orderly ↔ s.bothDropped = false ∨ s.read.handsOver = false) := by
  have hup : s.kcp.flags.updated = true := h.updated (by simp [hphase])
  have hlive : s.phase.live = true := by
    rw [hphase]
    rfl
  have hpump : s.read.pump = true := h.pump.trans hlive
  rw [Pump.deliverTurn, ReadPath.step, if_pos hpump] at hs
  obtain ⟨read, hread, hs⟩ := Option.map_eq_some_iff.mp hs
  obtain ⟨hhalf, hpump', hflags⟩ := ReadPath.sameEnds_deliver hread
  have hgone := ReadPath.deliver_readerGone hread
  have hclosed : read.isClosed = s.read.isClosed := by
    rw [ReadPath.isClosed, ReadPath.isClosed, hhalf]
  have hstage : ∀ phase : PumpPhase, phase.live = true → phase.inHand = [] → phase ≠ .farewell →
      Inv { s with read := read, phase := phase } := by
    intro phase h1 h2 h3
    refine h.stage hlive (by simp [hphase]) ⟨hpump', ?_, ?_, rfl, rfl, rfl, rfl, rfl, rfl, h1,
      by rw [hphase]; exact h2, h3⟩
    · exact congrArg KcpFlags.stream hflags
    · exact (congrArg KcpFlags.updated hflags).trans hup
  split at hs
  case h_1 delivered hd =>
    subst hs
    refine ⟨hstage (.tail delivered) rfl rfl (by simp), fun _ => Or.inr ?_,
      fun _ => orderly_of_live rfl⟩
    rw [ReadPath.handsOver, hd]
  case h_2 hd _ =>
    subst hs
    obtain ⟨hc, hhand⟩ := hgone.mp hd
    constructor
    · exact h.exit_of (t := { s with read := read })
        ((congrArg KcpFlags.stream hflags).trans h.stream)
        ((congrArg KcpFlags.updated hflags).trans hup) rfl rfl rfl .readerGone
    · rw [orderly_exit_iff (t := { s with read := read }) .readerGone (fun h => by cases h), hhand]
      have hboth : ({ s with read := read } : Pump cap).bothDropped = s.bothDropped := by
        rw [bothDropped, bothDropped, hclosed]
      rw [hboth]
      simp
  case h_3 hdone hnot =>
    subst hs
    have hkept : ({ s with read := read } : Pump cap) =
        { s with read := read, phase := .delivering } := by
      rw [← hphase]
    rw [hkept]
    refine ⟨hstage .delivering rfl rfl (by simp), fun _ => ?_, fun _ => orderly_of_live rfl⟩
    by_cases hboth : s.bothDropped = true
    · right
      rw [← Bool.not_eq_true]
      intro hhand
      have hc : s.read.isClosed = true := by
        rw [bothDropped, Bool.and_eq_true] at hboth
        exact hboth.2
      exact hnot (hgone.mpr ⟨hc, hhand⟩)
    · left
      simpa using hboth

/-- The ack flush of a session whose clock runs does not fail, and leaves the rest alone. -/
theorem ackFlush_spec (hup : s.kcp.flags.updated = true) :
    ∃ kcp : Kcp, kcp.flags = s.kcp.flags ∧
      s.ackFlush = ({ s.setKcp kcp with ackFlushDue := false }, .ok ()) := by
  rw [ackFlush]
  split
  case isTrue =>
    have hok := Kcp.flushAck_ok hup
    have hflags := Kcp.flags_flushAck s.kcp
    dsimp only
    split
    case h_1 kcp _ hf =>
      rw [show s.kcp.flushAck = (kcp, .ok ()) from hf] at hflags
      refine ⟨kcp.flush.1, (Kcp.flags_flush kcp).trans hflags, ?_⟩
      rw [Kcp.flush_ok ((congrArg KcpFlags.updated hflags).trans hup)]
      rfl
    case h_2 hf =>
      rw [show s.kcp.flushAck = _ from hf] at hok
      cases hok
  case isFalse hno =>
    refine ⟨s.kcp, rfl, ?_⟩
    rw [Bool.not_eq_true] at hno
    simp [setKcp, ← hno]

/-- Three quiet rounds end with a round in which everything is flushed. -/
theorem closingQuiescent_spec {delivered : Bool}
    (h : (s.closingQuiescent delivered).2 = true) :
    s.closeDeadline ≤ s.now ∨
      s.kcp.waitSnd = 0 ∧ s.read.spill = [] ∧ s.parked = false := by
  rw [closingQuiescent] at h
  simp only [Bool.or_eq_true, decide_eq_true_eq] at h
  rcases h with h | h
  · right
    have hquiet : s.quiet delivered = true := by
      by_contra hno
      rw [if_neg hno] at h
      exact absurd h (by decide)
    rw [quiet] at hquiet
    simp only [Bool.and_eq_true, decide_eq_true_eq, Bool.not_eq_true'] at hquiet
    exact ⟨hquiet.1.1.2, hquiet.1.2, hquiet.2⟩
  · exact Or.inl h

/-- The tail goes on, goes over to the CLOSE frames, or ends the pump because the link is dead. -/
theorem Inv.pumpTail (h : Inv s) {delivered : Bool} (hphase : s.phase = .tail delivered)
    (sent parked : Bool) :
    Inv (s.pumpTail delivered sent parked) ∧ (s.pumpTail delivered sent parked).Orderly := by
  have hlive : s.phase.live = true := by
    rw [hphase]
    rfl
  have hearly := h.early hlive (by rw [hphase]; nofun)
  have haccounted := h.accounted hlive
  have hpump := h.pump
  obtain ⟨kcp, hflags, hack⟩ := ackFlush_spec (h.updated (by rw [hphase]; nofun))
  have hstream := (congrArg KcpFlags.stream hflags).trans h.stream
  have hupdated := (congrArg KcpFlags.updated hflags).trans (h.updated (by rw [hphase]; nofun))
  rw [hphase] at haccounted hpump
  rw [Pump.pumpTail, hack]
  dsimp only
  set t : Pump cap := { ({ s.setKcp kcp with ackFlushDue := false } : Pump cap) with
    sentAny := s.sentAny || sent, parked := parked }
  -- Every way back to the head of the loop.
  have hhead : ∀ rounds : Nat, Inv { t with quietRounds := rounds, phase := .head } := by
    intro rounds
    refine ⟨hpump, hstream, fun _ => hupdated, fun hc => ?_, fun _ => haccounted,
      fun _ _ => hearly, nofun⟩
    obtain ⟨hwriter, hout, -⟩ := h.closing hc
    exact ⟨hwriter, hout, rfl⟩
  split
  case isTrue hdead =>
    exact ⟨h.exit_of (t := t) hstream hupdated rfl rfl rfl .deadLink, orderly_exit hdead⟩
  case isFalse =>
    split
    case isTrue hboth =>
      rw [Bool.and_eq_true] at hboth
      obtain ⟨hwriter, hout, -⟩ := h.closing hboth.1
      have hspec := @closingQuiescent_spec cap t delivered
      rw [closingQuiescent] at hspec ⊢
      split
      case h_1 hq =>
        injection hq with hq1 hq2
        subst hq1
        refine ⟨⟨hpump, hstream, fun _ => hupdated, fun _ => ⟨hwriter, hout, rfl⟩,
          fun _ => haccounted, fun _ hf => absurd rfl hf, fun _ => ⟨?_, hboth.1, ?_, ?_⟩⟩,
          orderly_of_live rfl⟩
        · change (!s.writer && s.read.isClosed) = true
          rw [hwriter, show s.read.isClosed = true from hboth.2]
          rfl
        · change s.closeSent < ctrlCloseFrames
          rw [hearly]
          decide
        · rcases hspec hq2 with hlate | ⟨hwait, hspill, hparked⟩
          · exact Or.inr hlate
          · refine Or.inl ⟨?_, hout, hwait, hspill, hparked⟩
            change s.handed = s.written
            rw [haccounted, hout]
            simp [PumpPhase.inHand]
      case h_2 hq =>
        injection hq with hq1 hq2
        subst hq1
        exact ⟨hhead _, orderly_of_live rfl⟩
    case isFalse => exact ⟨hhead s.quietRounds, orderly_of_live rfl⟩

/-- The CLOSE frames: the third ends the pump well, a refused one does not. -/
theorem Inv.closeFrame (h : Inv s) (hphase : s.phase = .farewell) (taken : Bool) :
    Inv (s.closeFrame taken) ∧ ((s.closeFrame taken).Orderly ↔ taken = true) := by
  obtain ⟨hboth, hclosing, hcount, hwell⟩ := h.farewell hphase
  have hupdated := h.updated (by rw [hphase]; nofun)
  have hwell' : ∀ n, ({ s with closeSent := n } : Pump cap).Flushed ∨ s.closeDeadline ≤ s.now :=
    fun n => hwell.imp (fun hf => ⟨hf.handed, hf.out, hf.waitSnd, hf.spill, hf.parked⟩) id
  rw [Pump.closeFrame]
  split
  case isTrue htaken =>
    dsimp only
    split
    case isTrue hmore =>
      refine ⟨⟨h.pump, h.stream, h.updated, h.closing, h.accounted, fun _ hf => absurd hphase hf,
        fun _ => ⟨hboth, hclosing, hmore, hwell' _⟩⟩, fun _ => htaken, fun _ => ?_⟩
      refine orderly_of_live ?_
      change s.phase.live = true
      rw [hphase]
      rfl
    case isFalse hlast =>
      refine ⟨h.exit_of (t := { s with closeSent := s.closeSent + 1 }) h.stream hupdated rfl rfl rfl
        .closed, fun _ => htaken, fun _ => ?_⟩
      refine orderly_exit (t := { s with closeSent := s.closeSent + 1 }) ⟨?_, hwell' _⟩
      change s.closeSent + 1 = ctrlCloseFrames
      omega
  case isFalse htaken =>
    refine ⟨h.exit_of (t := s) h.stream hupdated rfl rfl rfl .closed, fun ho => ?_,
      fun ht => absurd ht htaken⟩
    have hfew : ¬ (s.exit .closed).EndsWell .closed := by
      intro hends
      have heq : s.closeSent = ctrlCloseFrames := hends.1
      omega
    rw [(orderly_exit_iff .closed hfew).mp ho] at hboth
    cases hboth

/-! ## 8. The step -/

/-- What a step can do: a stage of the loop where the pump stands before it, or something from
outside. -/
inductive Turn (s : Pump cap) : Event → Pump cap → Prop
  | prime (hphase : s.phase = .priming) : Turn s .prime s.prime
  | head (mtu : Option Nat) (hphase : s.phase = .head) : Turn s (.head mtu) (s.pumpHead mtu)
  | recvWrite {s' : Pump cap} (hphase : s.phase = .select) (hs : s.recvWrite = some s') :
      Turn s .recvWrite s'
  | writeTurn (data : Bytes) (hphase : s.phase = .writing data) :
      Turn s .writeTurn (s.writeTurn data)
  | inbound (pkt : Bytes) (backlog : List Bytes) (hphase : s.phase = .select) :
      Turn s (.inbound pkt backlog) (s.intake pkt backlog)
  | ingressGone (hphase : s.phase = .select) : Turn s .ingressGone (s.exit .ingressGone)
  | timer (hphase : s.phase = .select) : Turn s .timer s.timer
  | deliver {s' : Pump cap} (hphase : s.phase = .delivering) (hs : s.deliverTurn = some s') :
      Turn s .deliver s'
  | tail (delivered sent parked : Bool) (hphase : s.phase = .tail delivered) :
      Turn s (.tail sent parked) (s.pumpTail delivered sent parked)
  | closeFrame (taken : Bool) (hphase : s.phase = .farewell) :
      Turn s (.closeFrame taken) (s.closeFrame taken)
  | write (data : Bytes) (hwriter : s.writer = true) (hpump : s.read.pump = true) :
      Turn s (.write data) { s with out := s.out ++ [data], written := s.written ++ data }
  | dropWriter : Turn s .dropWriter { s with writer := false }
  | dropReader {read : ReadPath cap} (hread : s.read.step .drop = some read) :
      Turn s .dropReader { s with read := read }
  | poll (remaining : Nat) {read : ReadPath cap}
      (hread : s.read.step (.poll remaining) = some read) :
      Turn s (.poll remaining) { s with read := read }
  | tick (ms : Nat) : Turn s (.tick ms) { s with now := s.now + ms }

theorem turn_of_step {e : Event} (hs : s.step e = some s') : Turn s e s' := by
  cases e with
  | prime =>
    obtain ⟨hphase, hs⟩ := Option.ite_none_right_eq_some.mp hs
    cases hs
    exact .prime hphase
  | head mtu =>
    obtain ⟨hphase, hs⟩ := Option.ite_none_right_eq_some.mp hs
    cases hs
    exact .head mtu hphase
  | recvWrite =>
    obtain ⟨hphase, hs⟩ := Option.ite_none_right_eq_some.mp hs
    exact .recvWrite hphase hs
  | writeTurn =>
    simp only [Pump.step] at hs
    split at hs
    case h_1 data hphase =>
      cases hs
      exact .writeTurn data hphase
    case h_2 => cases hs
  | inbound pkt backlog =>
    obtain ⟨hphase, hs⟩ := Option.ite_none_right_eq_some.mp hs
    cases hs
    exact .inbound pkt backlog hphase.1
  | ingressGone =>
    obtain ⟨hphase, hs⟩ := Option.ite_none_right_eq_some.mp hs
    cases hs
    exact .ingressGone hphase
  | timer =>
    obtain ⟨hphase, hs⟩ := Option.ite_none_right_eq_some.mp hs
    cases hs
    exact .timer hphase
  | deliver =>
    obtain ⟨hphase, hs⟩ := Option.ite_none_right_eq_some.mp hs
    exact .deliver hphase hs
  | tail sent parked =>
    simp only [Pump.step] at hs
    split at hs
    case h_1 delivered hphase =>
      cases hs
      exact .tail delivered sent parked hphase
    case h_2 => cases hs
  | closeFrame taken =>
    obtain ⟨hphase, hs⟩ := Option.ite_none_right_eq_some.mp hs
    cases hs
    exact .closeFrame taken hphase
  | write data =>
    obtain ⟨⟨hwriter, hpump, -⟩, hs⟩ := Option.ite_none_right_eq_some.mp hs
    cases hs
    exact .write data hwriter hpump
  | dropWriter =>
    cases hs
    exact .dropWriter
  | dropReader =>
    cases hs
    exact .dropReader rfl
  | poll remaining =>
    obtain ⟨read, hread, hs⟩ := Option.map_eq_some_iff.mp hs
    cases hs
    exact .poll remaining hread
  | tick ms =>
    cases hs
    exact .tick ms

/-- Something the stream or the clock does: the pump's side stays as it is. -/
structure Outside (s s' : Pump cap) : Prop where
  phase : s'.phase = s.phase
  kcp : s'.kcp = s.kcp
  pump : s'.read.pump = s.read.pump
  spill : s'.read.spill = s.read.spill
  closed : s.read.isClosed = true → s'.read.isClosed = true
  writer : s.writer = false → s'.writer = false
  handed : s'.handed = s.handed
  /-- Only a writer that is there writes, and only to a pump that is there. -/
  out : (s'.out = s.out ∧ s'.written = s.written) ∨ (s.writer = true ∧ s.read.pump = true ∧
    ∃ data, s'.out = s.out ++ [data] ∧ s'.written = s.written ++ data)
  closing : s'.closing = s.closing
  parked : s'.parked = s.parked
  closeSent : s'.closeSent = s.closeSent
  closeDeadline : s'.closeDeadline = s.closeDeadline
  now : s.now ≤ s'.now

theorem Outside.flushed (ho : Outside s s') (hout : s'.out = s.out ∧ s'.written = s.written)
    (hf : s.Flushed) : s'.Flushed := by
  refine ⟨?_, ?_, ?_, ?_, ?_⟩
  · rw [ho.handed, hout.2]
    exact hf.handed
  · rw [hout.1]
    exact hf.out
  · rw [ho.kcp]
    exact hf.waitSnd
  · rw [ho.spill]
    exact hf.spill
  · rw [ho.parked]
    exact hf.parked

theorem Inv.outside (h : Inv s) (ho : Outside s s') : Inv s' := by
  refine ⟨?_, ?_, ?_, ?_, ?_, ?_, ?_⟩
  · rw [ho.pump, ho.phase]
    exact h.pump
  · rw [ho.kcp]
    exact h.stream
  · rw [ho.phase, ho.kcp]
    exact h.updated
  · intro hc
    obtain ⟨hwriter, hout, hhand⟩ := h.closing (ho.closing ▸ hc)
    rcases ho.out with hsame | ⟨hw, -⟩
    · exact ⟨ho.writer hwriter, by rw [hsame.1]; exact hout, by rw [ho.phase]; exact hhand⟩
    · rw [hwriter] at hw
      cases hw
  · intro hlive
    have hacc := h.accounted (ho.phase ▸ hlive)
    rcases ho.out with hsame | ⟨-, -, data, hout, hwritten⟩
    · rw [hsame.1, hsame.2, ho.handed, ho.phase]
      exact hacc
    · rw [hwritten, hout, ho.handed, ho.phase, hacc]
      simp
  · intro hlive hf
    rw [ho.closeSent]
    exact h.early (ho.phase ▸ hlive) (ho.phase ▸ hf)
  · intro hf
    obtain ⟨hboth, hclosing, hcount, hwell⟩ := h.farewell (ho.phase ▸ hf)
    rw [bothDropped, Bool.and_eq_true, Bool.not_eq_true'] at hboth
    refine ⟨?_, ho.closing.trans hclosing, by rw [ho.closeSent]; exact hcount, ?_⟩
    · rw [bothDropped, ho.writer hboth.1, ho.closed hboth.2]
      rfl
    · rcases hwell with hwell | hlate
      · rcases ho.out with hsame | ⟨hw, -⟩
        · exact Or.inl (ho.flushed hsame hwell)
        · rw [hboth.1] at hw
          cases hw
      · right
        rw [ho.closeDeadline]
        exact Nat.le_trans hlate ho.now

theorem Orderly.outside (h : Inv s) (horderly : s.Orderly) (ho : Outside s s') : s'.Orderly := by
  intro reason hphase
  rw [ho.phase] at hphase
  have hends := horderly reason hphase
  have hpump : s.read.pump = false := by
    rw [h.pump, hphase]
    rfl
  cases reason with
  | deadLink =>
    change s'.kcp.isDeadLink = true
    rw [ho.kcp]
    exact hends
  | closed =>
    refine ⟨ho.closeSent.trans hends.1, ?_⟩
    rcases hends.2 with hflushed | hlate
    · rcases ho.out with hsame | ⟨-, hp, -⟩
      · exact Or.inl (ho.flushed hsame hflushed)
      · rw [hpump] at hp
        cases hp
    · right
      rw [ho.closeDeadline]
      exact Nat.le_trans hlate ho.now
  | _ => exact hends

/-- **One step.**  The pump's accounts are kept, and its end stays orderly exactly when the step is
one that an orderly end allows. -/
theorem Inv.step {e : Event} (h : Inv s) (hs : s.step e = some s') :
    Inv s' ∧ (s.Orderly → (s'.Orderly ↔ s.orderlyStep e = true)) := by
  have hfree : ∀ {t : Pump cap} {e : Event}, t.Orderly → s.orderlyStep e = true →
      (s.Orderly → (t.Orderly ↔ s.orderlyStep e = true)) :=
    fun ht he _ => ⟨fun _ => he, fun _ => ht⟩
  have hquiet : ∀ b : Bool, (b || true) = true := Bool.or_true
  have houtside : ∀ {t : Pump cap} {e : Event}, Outside s t → s.orderlyStep e = true →
      Inv t ∧ (s.Orderly → (t.Orderly ↔ s.orderlyStep e = true)) :=
    fun ho he => ⟨h.outside ho, fun horderly => ⟨fun _ => he, fun _ => horderly.outside h ho⟩⟩
  cases turn_of_step hs with
  | prime hphase =>
    have hst := Stage.prime s hphase
    exact ⟨h.stage (by rw [hphase]; rfl) (by rw [hphase]; nofun) hst,
      hfree (orderly_of_live hst.live) (hquiet _)⟩
  | head mtu hphase =>
    have hst := Stage.pumpHead h hphase mtu
    exact ⟨h.stage (by rw [hphase]; rfl) (by rw [hphase]; nofun) hst,
      hfree (orderly_of_live hst.live) (hquiet _)⟩
  | recvWrite hphase hs =>
    obtain ⟨hinv, hlive⟩ := h.recvWrite hphase hs
    exact ⟨hinv, hfree (orderly_of_live hlive) (hquiet _)⟩
  | writeTurn data hphase =>
    obtain ⟨hinv, htakes, hrefuses⟩ := h.writeTurn hphase
    refine ⟨hinv, fun _ => ?_⟩
    rw [orderlyStep, hphase]
    dsimp only
    cases hw : s.kcp.takesWhole (data.take sendChunk) with
    | true =>
      rw [Bool.or_true]
      exact ⟨fun _ => rfl, fun _ => orderly_of_live (htakes hw)⟩
    | false => rw [hrefuses hw, Bool.or_false, Bool.not_eq_true']
  | inbound pkt backlog hphase =>
    obtain ⟨hinv, horderly⟩ := h.intake hphase pkt backlog
    exact ⟨hinv, hfree horderly (hquiet _)⟩
  | ingressGone hphase =>
    have hupdated := h.updated (by rw [hphase]; nofun)
    refine ⟨h.exit_of (t := s) h.stream hupdated rfl rfl rfl .ingressGone, fun _ => ?_⟩
    rw [orderly_exit_iff (t := s) .ingressGone nofun, orderlyStep, Bool.or_false,
      Bool.not_eq_true']
  | timer hphase =>
    have hst := Stage.timer s hphase
    exact ⟨h.stage (by rw [hphase]; rfl) (by rw [hphase]; nofun) hst,
      hfree (orderly_of_live hst.live) (hquiet _)⟩
  | deliver hphase hs =>
    obtain ⟨hinv, horderly⟩ := h.deliverTurn hphase hs
    refine ⟨hinv, fun _ => ?_⟩
    rw [horderly, orderlyStep, Bool.or_eq_true, Bool.not_eq_true', Bool.not_eq_true']
  | tail delivered sent parked hphase =>
    obtain ⟨hinv, horderly⟩ := h.pumpTail hphase sent parked
    exact ⟨hinv, hfree horderly (hquiet _)⟩
  | closeFrame taken hphase =>
    obtain ⟨hinv, horderly⟩ := h.closeFrame hphase taken
    refine ⟨hinv, fun _ => ?_⟩
    rw [horderly, orderlyStep, (h.farewell hphase).1]
    simp
  | write data hwriter hpump =>
    exact houtside ⟨rfl, rfl, rfl, rfl, fun hc => hc, fun hw => hw, rfl,
      Or.inr ⟨hwriter, hpump, data, rfl, rfl⟩, rfl, rfl, rfl, rfl, Nat.le_refl _⟩ (hquiet _)
  | dropWriter =>
    exact houtside ⟨rfl, rfl, rfl, rfl, fun hc => hc, fun _ => rfl, rfl, Or.inl ⟨rfl, rfl⟩, rfl,
      rfl, rfl, rfl, Nat.le_refl _⟩ (hquiet _)
  | dropReader hread =>
    cases hread
    exact houtside ⟨rfl, rfl, rfl, rfl, fun _ => rfl, fun hw => hw, rfl, Or.inl ⟨rfl, rfl⟩, rfl,
      rfl, rfl, rfl, Nat.le_refl _⟩ (hquiet _)
  | poll remaining hread =>
    obtain ⟨hkcp, hpump, hspill, -, hclosed⟩ := ReadPath.step_poll_frame hread
    exact houtside ⟨rfl, hkcp, hpump, hspill, hclosed, fun hw => hw, rfl, Or.inl ⟨rfl, rfl⟩, rfl,
      rfl, rfl, rfl, Nat.le_refl _⟩ (hquiet _)
  | tick ms =>
    exact houtside ⟨rfl, rfl, rfl, rfl, fun hc => hc, fun hw => hw, rfl, Or.inl ⟨rfl, rfl⟩, rfl,
      rfl, rfl, rfl, Nat.le_add_right _ _⟩ (hquiet _)

theorem inv_new (cap : Nat) (conv : U32) : Inv (Pump.new cap conv) :=
  ⟨rfl, rfl, fun h => absurd rfl h, nofun, fun _ => rfl, fun _ _ => rfl, nofun⟩

theorem inv_of_reach (h : (pump cap).Reach s) : Inv s := by
  refine h.invariant (P := Inv) ?_ ?_
  · rintro _ ⟨conv, rfl⟩
    exact inv_new cap conv
  · intro s e s' hinv hs
    exact (hinv.step hs).1

/-- **The orderly close.**  In every run whose steps an orderly end allows once both halves of the
stream are gone: if the pump has ended with both gone, the link was dead, or the peer had closed, or
the CLOSE frames were sent and, unless the deadline had passed, everything the writer gave was
acknowledged and nothing was held back.  A next step breaks this exactly when it is not such a
step. -/
theorem orderly_close (h : ((pump cap).restrict fun s e => s.orderlyStep e = true).Reach s) :
    (∀ reason, s.phase = .exited reason true →
      reason = .deadLink ∧ s.kcp.isDeadLink = true ∨ reason = .peerClosed ∨
        reason = .closed ∧ s.closeSent = ctrlCloseFrames ∧
          (s.Flushed ∨ s.closeDeadline ≤ s.now)) ∧
    ∀ e s', s.step e = some s' → (s'.Orderly ↔ s.orderlyStep e = true) := by
  have hboth : Inv s ∧ s.Orderly := by
    refine h.invariant (P := fun s => Inv s ∧ s.Orderly) ?_ ?_
    · rintro _ ⟨conv, rfl⟩
      exact ⟨inv_new cap conv, orderly_of_live rfl⟩
    · rintro s e s' ⟨hinv, horderly⟩ ⟨hok, hs⟩
      obtain ⟨hinv', hiff⟩ := hinv.step hs
      exact ⟨hinv', (hiff horderly).mpr hok⟩
  refine ⟨fun reason hphase => ?_, fun e s' hs => (hboth.1.step hs).2 hboth.2⟩
  have hends := hboth.2 reason hphase
  cases reason with
  | deadLink => exact Or.inl ⟨rfl, hends⟩
  | peerClosed => exact Or.inr (Or.inl rfl)
  | closed => exact Or.inr (Or.inr ⟨rfl, hends⟩)
  | _ => exact hends.elim

/-- The delivery of a round, with nothing for the reader. -/
def deliveries : List Event := [.deliver, .deliver, .deliver, .deliver, .deliver]

/-- The writer's byte goes out. -/
def sendOne : List Event :=
  [.prime, .write [9], .head none, .recvWrite, .writeTurn, .writeTurn] ++ deliveries ++
    [.tail true false]

/-- A round of the closing pump in which nothing moves. -/
def quietRound : List Event := [.head none, .timer] ++ deliveries ++ [.tail false false]

/-- The peer's acknowledgement of the first byte. -/
def ackOne : Bytes :=
  KcpSegment.encode { conv := 7, cmd := kcpCmdAck, wnd := 4096, una := 1 }

/-- The byte is acknowledged, the stream is dropped, and the pump closes. -/
def closeInOrder : List Event :=
  sendOne ++ [.head none, .inbound ackOne []] ++ deliveries ++
    [.tail false false, .dropWriter, .dropReader, .head none, .recvWrite] ++ deliveries ++
    [.tail false false] ++ quietRound ++ quietRound ++
    [.closeFrame true, .closeFrame true, .closeFrame true]

/-- Such a run. -/
theorem orderly_close_flushed :
    ∃ s : Pump inboundChannelDepth, s.phase = .exited .closed true ∧ s.written = [9] ∧
      s.closeSent = ctrlCloseFrames ∧ (s.Flushed ∨ s.closeDeadline ≤ s.now) := by
  have hrun : (Lts.runWith Pump.step Pump.orderlyStep (.new inboundChannelDepth 7)
      closeInOrder).any (fun s => s.phase = .exited .closed true ∧ s.written = [9]) = true := by
    decide +kernel
  obtain ⟨s, hs, hp⟩ := Lts.Reach.exists_runWith (T := pump inboundChannelDepth)
    (C := fun s e => s.orderlyStep e = true) (fun _ _ _ h => h) (fun _ _ h => h) ⟨7, rfl⟩ hrun
  obtain ⟨hphase, hwritten⟩ := of_decide_eq_true hp
  rcases (orderly_close hs).1 .closed hphase with ⟨hno, -⟩ | hno | ⟨-, hsent, hwell⟩
  · cases hno
  · cases hno
  · exact ⟨s, hphase, hwritten, hsent, hwell⟩

/-- A datagram with 32 pushes of one byte. -/
def manyPushes : Bytes :=
  encodeAll ((List.range maxReadParts).map fun i =>
    { conv := 7, cmd := kcpCmdPush, wnd := 4096, sn := BitVec.ofNat 32 i, data := [5] })

/-- The byte is on its way and the stream is dropped when the datagram comes. -/
def closeSkipped : List Event :=
  sendOne ++ [.dropWriter, .dropReader, .head none, .inbound manyPushes []] ++
    List.replicate 35 .deliver

/-- **Data for a gone reader ends the pump at once.**  Both halves are gone and no deadline is set,
the link is alive and the peer has not closed; the writer's byte is unacknowledged, and no CLOSE
frame is sent. -/
theorem reader_gone_skips_close :
    ∃ s : Pump inboundChannelDepth, (pump inboundChannelDepth).Reach s ∧
      s.phase = .exited .readerGone true ∧ s.kcp.isDeadLink = false ∧ s.closing = false ∧
      s.written = [9] ∧ s.handed = [9] ∧ s.kcp.waitSnd = 1 ∧ s.closeSent = 0 ∧ ¬ s.Orderly := by
  have hrun : (Lts.runWith Pump.step (fun _ _ => true) (.new inboundChannelDepth 7)
      closeSkipped).any (fun s => s.phase = .exited .readerGone true ∧
        s.kcp.isDeadLink = false ∧ s.closing = false ∧ s.written = [9] ∧ s.handed = [9] ∧
        s.kcp.waitSnd = 1 ∧ s.closeSent = 0) = true := by
    decide +kernel
  obtain ⟨s, hs, hp⟩ := Lts.Reach.exists_run (T := pump inboundChannelDepth) (fun _ _ _ h => h)
    ⟨7, rfl⟩ hrun
  obtain ⟨hphase, hdead, hclosing, hwritten, hhanded, hwait, hsent⟩ := of_decide_eq_true hp
  exact ⟨s, hs, hphase, hdead, hclosing, hwritten, hhanded, hwait, hsent,
    fun ho => ho .readerGone hphase⟩

/-! ## 9. Its read path -/

/-- A stage outside the delivery changes the engine only; at the end `in_tx` goes. -/
def KeepsRead (s s' : Pump cap) : Prop :=
  s'.read = { s.read with kcp := s'.kcp, pump := s'.read.pump }

theorem keepsRead_prime (s : Pump cap) : KeepsRead s s.prime := by
  unfold KeepsRead prime
  split
  · rfl
  · rfl

theorem keepsRead_pumpHead (s : Pump cap) (mtu : Option Nat) : KeepsRead s (s.pumpHead mtu) := by
  rw [KeepsRead, pumpHead]
  split
  · split
    · rfl
    · rfl
  · rfl

theorem keepsRead_timer (s : Pump cap) : KeepsRead s s.timer := by
  unfold KeepsRead timer
  split
  · rfl
  · rfl

theorem keepsRead_recvWrite (h : s.recvWrite = some s') : KeepsRead s s' := by
  rw [recvWrite] at h
  split at h
  · cases h
  · split at h
    · cases h
      rfl
    · split at h
      · cases h
      · cases h
        rfl

theorem keepsRead_flushWrites (s : Pump cap) (fatal : Bool) :
    KeepsRead s (s.flushWrites fatal) := by
  rw [KeepsRead, flushWrites]
  split
  · split
    · rfl
    · rfl
  · rfl

theorem keepsRead_writeTurn (s : Pump cap) (data : Bytes) : KeepsRead s (s.writeTurn data) := by
  have hsent : ∀ kcp : Kcp, KeepsRead s ((s.setKcp kcp).flushWrites true) :=
    fun kcp => keepsRead_flushWrites (s.setKcp kcp) true
  rw [writeTurn]
  split
  · split
    · exact keepsRead_flushWrites s false
    · split
      · rfl
      · exact keepsRead_flushWrites s false
  · dsimp only
    split
    · split
      · rfl
      · exact hsent _
    · exact hsent _

theorem keepsRead_intake (s : Pump cap) (pkt : Bytes) (backlog : List Bytes) :
    KeepsRead s (s.intake pkt backlog) := by
  rw [KeepsRead, intake]
  generalize (if isCtrlFrame pkt then (s.kcp, false, [pkt])
    else feedBatch s.kcp (pkt :: backlog)) = fed
  dsimp only
  split
  · rfl
  · rfl

theorem keepsRead_ackFlush (s : Pump cap) : KeepsRead s s.ackFlush.1 := by
  rw [KeepsRead, ackFlush]
  split
  · dsimp only
    split
    · rfl
    · rfl
  · rfl

theorem keepsRead_pumpTail (s : Pump cap) (delivered sent parked : Bool) :
    KeepsRead s (s.pumpTail delivered sent parked) := by
  have hack := keepsRead_ackFlush s
  rw [KeepsRead, pumpTail]
  split
  case h_1 t _ he =>
    rw [he] at hack
    exact congrArg (fun read : ReadPath cap => { read with pump := false }) hack
  case h_2 t _ he =>
    rw [he] at hack
    dsimp only
    split
    · exact congrArg (fun read : ReadPath cap => { read with pump := false }) hack
    · split
      · split
        case h_1 hq =>
          injection hq with hq1 hq2
          subst hq1
          exact hack
        case h_2 hq =>
          injection hq with hq1 hq2
          subst hq1
          exact hack
      · exact hack

theorem keepsRead_closeFrame (s : Pump cap) (taken : Bool) : KeepsRead s (s.closeFrame taken) := by
  rw [KeepsRead, closeFrame]
  split
  · dsimp only
    split
    · rfl
    · rfl
  · rfl

/-- Such a stage is a change of the engine and, at the end, the end of the read path. -/
theorem KeepsRead.reach (hk : KeepsRead s s') (hpump : s.read.pump = true)
    (hidle : s.read.delivering = .idle) (h : (readPath cap).Reach s.read) :
    (readPath cap).Reach s'.read := by
  have hengine : (readPath cap).Reach { s.read with kcp := s'.kcp } :=
    h.step (a := .engine s'.kcp) (if_pos ⟨hpump, hidle⟩)
  cases hp : s'.read.pump with
  | true =>
    rw [hk, hp, ← hpump]
    exact hengine
  | false =>
    rw [hk, hp]
    exact hengine.step (a := .exit) (if_pos ⟨hpump, Or.inl hidle⟩)

/-- The delivery is under way only where the pump is at it. -/
def Idle (s : Pump cap) : Prop :=
  s.phase.live = true → s.phase ≠ .delivering → s.read.delivering = .idle

theorem KeepsRead.idle (hk : KeepsRead s s') (hidle : s.read.delivering = .idle) : s'.Idle := by
  intro _ _
  rw [hk]
  exact hidle

/-- A turn of the delivery is a turn of the read path's. -/
theorem deliverTurn_read (hphase : s.phase = .delivering) (hpump : s.read.pump = true)
    (hs : s.deliverTurn = some s') (h : (readPath cap).Reach s.read) :
    s'.Idle ∧ (readPath cap).Reach s'.read := by
  rw [deliverTurn] at hs
  obtain ⟨read, hread, hs⟩ := Option.map_eq_some_iff.mp hs
  have hnext : (readPath cap).Reach read := h.step hread
  have hsame : read.pump = true := by
    rw [ReadPath.step, if_pos hpump] at hread
    exact (ReadPath.sameEnds_deliver hread).pump.trans hpump
  split at hs
  case h_1 delivered hd =>
    subst hs
    refine ⟨fun _ _ => ?_, hnext⟩
    rw [ReadPath.step, if_pos hpump, ReadPath.deliver, hd] at hread
    cases hread
    rfl
  case h_2 hd _ =>
    subst hs
    exact ⟨(fun h => by cases h), hnext.step (a := .exit) (if_pos ⟨hsame, Or.inr hd⟩)⟩
  case h_3 =>
    subst hs
    exact ⟨fun _ hno => absurd hphase hno, hnext⟩

/-- Every step of the session is one of its read path, or none. -/
theorem Inv.read {e : Event} (h : Inv s) (hidle : s.Idle) (hs : s.step e = some s')
    (hreach : (readPath cap).Reach s.read) : s'.Idle ∧ (readPath cap).Reach s'.read := by
  have hkeep : ∀ {t : Pump cap}, s.phase.live = true → s.phase ≠ .delivering → KeepsRead s t →
      t.Idle ∧ (readPath cap).Reach t.read := by
    intro t hlive hphase hk
    have hi := hidle hlive hphase
    exact ⟨hk.idle hi, hk.reach (h.pump.trans hlive) hi hreach⟩
  cases turn_of_step hs with
  | prime hphase =>
    exact hkeep (by rw [hphase]; rfl) (by rw [hphase]; nofun) s.keepsRead_prime
  | head mtu hphase =>
    exact hkeep (by rw [hphase]; rfl) (by rw [hphase]; nofun) (s.keepsRead_pumpHead mtu)
  | recvWrite hphase hs =>
    exact hkeep (by rw [hphase]; rfl) (by rw [hphase]; nofun) (keepsRead_recvWrite hs)
  | writeTurn data hphase =>
    exact hkeep (by rw [hphase]; rfl) (by rw [hphase]; nofun) (s.keepsRead_writeTurn data)
  | inbound pkt backlog hphase =>
    exact hkeep (by rw [hphase]; rfl) (by rw [hphase]; nofun) (s.keepsRead_intake pkt backlog)
  | ingressGone hphase => exact hkeep (by rw [hphase]; rfl) (by rw [hphase]; nofun) rfl
  | timer hphase =>
    exact hkeep (by rw [hphase]; rfl) (by rw [hphase]; nofun) s.keepsRead_timer
  | deliver hphase hs =>
    exact deliverTurn_read hphase (h.pump.trans (by rw [hphase]; rfl)) hs hreach
  | tail delivered sent parked hphase =>
    exact hkeep (by rw [hphase]; rfl) (by rw [hphase]; nofun)
      (s.keepsRead_pumpTail delivered sent parked)
  | closeFrame taken hphase =>
    exact hkeep (by rw [hphase]; rfl) (by rw [hphase]; nofun) (s.keepsRead_closeFrame taken)
  | write => exact ⟨hidle, hreach⟩
  | dropWriter => exact ⟨hidle, hreach⟩
  | dropReader hread =>
    refine ⟨?_, hreach.step hread⟩
    cases hread
    exact hidle
  | poll remaining hread =>
    have hsame := (ReadPath.step_poll_frame hread).2.2.2.1
    exact ⟨fun hl hp => hsame.trans (hidle hl hp), hreach.step hread⟩
  | tick => exact ⟨hidle, hreach⟩

/-- **The read path of a session is one.**  Its pump calls the delivery, changes the engine between
two deliveries only, and lets go of the reader channel at the end. -/
theorem read_reach (h : (pump cap).Reach s) : (readPath cap).Reach s.read := by
  have hall : Inv s ∧ s.Idle ∧ (readPath cap).Reach s.read := by
    refine h.invariant (P := fun s => Inv s ∧ s.Idle ∧ (readPath cap).Reach s.read) ?_ ?_
    · rintro _ ⟨conv, rfl⟩
      exact ⟨inv_new cap conv, fun _ _ => rfl, Lts.Reach.init ⟨configured conv, rfl⟩⟩
    · rintro s e s' ⟨hinv, hidle, hreach⟩ hs
      exact ⟨(hinv.step hs).1, hinv.read hidle hs hreach⟩
  exact hall.2.2

end Pump

end Molehill
