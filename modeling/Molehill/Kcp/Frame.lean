/-
# Which part of the engine each operation touches

The engine's state falls into three parts that most operations touch one at a time: the send
direction (`SndView`), the receive direction (`RcvView`) and what goes to the wire (`OutView`).
This module records, for every step of `input`, `flush` and the configuration calls, the parts
it leaves alone.  The proofs about one direction then never unfold an operation of the other.
-/
import Molehill.Kcp.Codec

namespace Molehill

open Lib

/-- The send direction: what is numbered, what is queued, what may be appended to. -/
structure SndView where
  conv : U32
  stream : Bool
  mss : Nat
  sndUna : U32
  sndNxt : U32
  sndQueue : List KcpSegment
  sndBuf : List KcpSegment

/-- The receive direction. -/
structure RcvView where
  rcvNxt : U32
  rcvWnd : U16
  rcvQueue : List KcpSegment
  rcvBuf : List KcpSegment

/-- What is staged and what was emitted. -/
structure OutView where
  buf : Bytes
  output : List Bytes

namespace Kcp

def snd (k : Kcp) : SndView :=
  ⟨k.conv, k.flags.stream, k.mss, k.sndUna, k.sndNxt, k.sndQueue, k.sndBuf⟩

def rcv (k : Kcp) : RcvView := ⟨k.rcvNxt, k.rcvWnd, k.rcvQueue, k.rcvBuf⟩

def out (k : Kcp) : OutView := ⟨k.buf, k.output⟩

theorem conv_eq_of_snd {k k' : Kcp} (h : k'.snd = k.snd) : k'.conv = k.conv :=
  congrArg SndView.conv h

/-! ## 1. The acknowledgement path leaves the receive direction alone -/

section Ack

variable (k : Kcp) (sn ts una : U32)

@[simp] theorem rcv_shrinkBuf : k.shrinkBuf.rcv = k.rcv := rfl
@[simp] theorem rcv_parseUna : (k.parseUna una).rcv = k.rcv := rfl

@[simp] theorem rcv_parseAck : (k.parseAck sn).rcv = k.rcv := by
  unfold parseAck; split <;> rfl

@[simp] theorem out_parseAck : (k.parseAck sn).out = k.out := by
  unfold parseAck; split <;> rfl

@[simp] theorem rcv_parseFastack : (k.parseFastack sn ts).rcv = k.rcv := by
  unfold parseFastack; split <;> rfl

@[simp] theorem out_parseFastack : (k.parseFastack sn ts).out = k.out := by
  unfold parseFastack; split <;> rfl

theorem updateCwndAfterAcks_frame : (k.updateCwndAfterAcks una).snd = k.snd ∧
    (k.updateCwndAfterAcks una).rcv = k.rcv ∧ (k.updateCwndAfterAcks una).out = k.out := by
  unfold updateCwndAfterAcks
  split
  · exact ⟨rfl, rfl, rfl⟩
  · split <;> exact ⟨rfl, rfl, rfl⟩

theorem sampleRtt_frame : (k.sampleRtt ts).snd = k.snd ∧ (k.sampleRtt ts).rcv = k.rcv ∧
    (k.sampleRtt ts).out = k.out := by
  unfold sampleRtt
  split <;> exact ⟨rfl, rfl, rfl⟩

theorem inputAck_frame (head : SegHead) :
    (k.inputAck head).rcv = k.rcv ∧ (k.inputAck head).out = k.out := by
  obtain ⟨-, h2, h3⟩ := sampleRtt_frame k head.ts
  exact ⟨(rcv_parseAck (k.sampleRtt head.ts) head.sn).trans h2,
    (out_parseAck (k.sampleRtt head.ts) head.sn).trans h3⟩

theorem inputEnd_frame (acks : AckRun) :
    (k.inputEnd acks una).rcv = k.rcv ∧ (k.inputEnd acks una).out = k.out := by
  unfold inputEnd
  split
  · obtain ⟨-, h2, h3⟩ := updateCwndAfterAcks_frame (k.parseFastack acks.maxAck acks.latestTs) una
    exact ⟨h2.trans (rcv_parseFastack k _ _), h3.trans (out_parseFastack k _ _)⟩
  · exact (updateCwndAfterAcks_frame k una).2

end Ack

/-! ## 2. The data path leaves the send direction alone -/

@[simp] theorem snd_moveBuf (k : Kcp) : k.moveBuf.snd = k.snd := rfl
@[simp] theorem out_moveBuf (k : Kcp) : k.moveBuf.out = k.out := rfl
@[simp] theorem snd_ackPush (k : Kcp) (sn ts : U32) : (k.ackPush sn ts).snd = k.snd := rfl
@[simp] theorem rcv_ackPush (k : Kcp) (sn ts : U32) : (k.ackPush sn ts).rcv = k.rcv := rfl
@[simp] theorem out_ackPush (k : Kcp) (sn ts : U32) : (k.ackPush sn ts).out = k.out := rfl

theorem parseData_frame (k : Kcp) (seg : KcpSegment) :
    (k.parseData seg).snd = k.snd ∧ (k.parseData seg).out = k.out := by
  unfold parseData
  split
  · exact ⟨rfl, rfl⟩
  · change (k.insertSegment seg).snd = k.snd ∧ (k.insertSegment seg).out = k.out
    unfold insertSegment
    split <;> exact ⟨rfl, rfl⟩

theorem acceptPush_frame (k : Kcp) (head : SegHead) (buf : Bytes) :
    (k.acceptPush head buf).1.snd = k.snd ∧ (k.acceptPush head buf).1.out = k.out := by
  unfold acceptPush
  simp only []
  split
  · exact ⟨rfl, rfl⟩
  · split
    · exact ⟨rfl, rfl⟩
    · split
      · exact ⟨rfl, rfl⟩
      · obtain ⟨h1, h2⟩ := parseData_frame (k.ackPush head.sn head.ts)
          { conv := head.conv, cmd := head.cmd, frg := head.frg, wnd := head.wnd, ts := head.ts,
            sn := head.sn, una := head.una, data := buf.take head.len }
        exact ⟨h1, h2⟩

theorem fastRecover_frame (k : Kcp) (recover : Bool) : (k.fastRecover recover).snd = k.snd ∧
    (k.fastRecover recover).rcv = k.rcv ∧ (k.fastRecover recover).out = k.out := by
  unfold fastRecover
  split <;> exact ⟨rfl, rfl, rfl⟩

theorem recvPop_frame (k : Kcp) : k.recvPop.1.snd = k.snd ∧ k.recvPop.1.out = k.out := by
  unfold recvPop
  split
  · exact ⟨rfl, rfl⟩
  · rename_i seg rest _
    split
    · exact ⟨rfl, rfl⟩
    · obtain ⟨h1, -, h3⟩ := fastRecover_frame ({ k with rcvQueue := rest } : Kcp).moveBuf
        (k.rcvWnd.toNat ≤ k.rcvQueue.length)
      exact ⟨h1, h3⟩

/-- Everything `input` does stays off the wire. -/
theorem out_inputSegment (k : Kcp) (acks : AckRun) (head : SegHead) (buf : Bytes) :
    (k.inputSegment acks head buf).1.out = k.out := by
  unfold inputSegment
  split
  · exact (inputAck_frame (k.inputHead head) head).2
  · split
    · have h := (acceptPush_frame (k.inputHead head) head buf).2
      split <;> (rename_i hr; rw [hr] at h; exact h)
    · split <;> rfl

theorem out_input (k : Kcp) (buf : Bytes) : (k.input buf).1.out = k.out := by
  have hloop := inputLoop_inv (P := fun k' => k'.out = k.out)
    (fun k' acks head rest h => (out_inputSegment k' acks head rest).trans h) buf.length k {} buf
    rfl
  unfold input
  split
  · rfl
  · split
    · rename_i hr; rw [hr] at hloop; exact hloop
    · rename_i k' acks rest hr
      rw [hr] at hloop
      exact (inputEnd_frame k' k.sndUna acks).2.trans hloop

/-! ## 3. Staging and emitting touch neither direction -/

section Stage

variable (k : Kcp)

theorem writeBuf_frame : k.writeBuf.snd = k.snd ∧ k.writeBuf.rcv = k.rcv := by
  unfold writeBuf; split <;> exact ⟨rfl, rfl⟩

theorem roomFor_frame (need : Nat) :
    (k.roomFor need).snd = k.snd ∧ (k.roomFor need).rcv = k.rcv := by
  unfold roomFor
  split
  · exact writeBuf_frame k
  · exact ⟨rfl, rfl⟩

theorem roomFor_stage_frame (need : Nat) (seg : KcpSegment) :
    ((k.roomFor need).stage seg).snd = k.snd ∧ ((k.roomFor need).stage seg).rcv = k.rcv :=
  roomFor_frame k need

theorem flushAckLoop_frame : ∀ (acks : List (U32 × U32)) (k : Kcp) (segment : KcpSegment),
    (flushAckLoop acks k segment).1.snd = k.snd ∧ (flushAckLoop acks k segment).1.rcv = k.rcv
  | [], k, segment => ⟨rfl, rfl⟩
  | (sn, ts) :: acks, k, segment => by
    obtain ⟨h1, h2⟩ := roomFor_stage_frame k kcpOverhead { segment with sn := sn, ts := ts }
    obtain ⟨h3, h4⟩ := flushAckLoop_frame acks
      ((k.roomFor kcpOverhead).stage { segment with sn := sn, ts := ts })
      { segment with sn := sn, ts := ts }
    exact ⟨h3.trans h1, h4.trans h2⟩

theorem flushAckInner_frame (segment : KcpSegment) :
    (k.flushAckInner segment).1.snd = k.snd ∧ (k.flushAckInner segment).1.rcv = k.rcv :=
  flushAckLoop_frame k.acklist k segment

theorem armProbe_frame (wait : U32) : (k.armProbe wait).snd = k.snd ∧
    (k.armProbe wait).rcv = k.rcv ∧ (k.armProbe wait).out = k.out :=
  ⟨rfl, rfl, rfl⟩

theorem probeWndSize_frame : k.probeWndSize.snd = k.snd ∧ k.probeWndSize.rcv = k.rcv ∧
    k.probeWndSize.out = k.out := by
  unfold probeWndSize
  split
  · split
    · exact armProbe_frame k _
    · split
      · exact armProbe_frame k (nextProbeWait k.probeWait)
      · exact ⟨rfl, rfl, rfl⟩
  · exact ⟨rfl, rfl, rfl⟩

theorem flushProbe_frame (ask : U32) (cmd : Byte) (r : Kcp × KcpSegment) :
    (flushProbe ask cmd r).1.snd = r.1.snd ∧ (flushProbe ask cmd r).1.rcv = r.1.rcv := by
  unfold flushProbe
  split
  · exact roomFor_stage_frame r.1 kcpOverhead { r.2 with cmd := cmd }
  · exact ⟨rfl, rfl⟩

theorem flushProbeCommands_frame (segment : KcpSegment) :
    (k.flushProbeCommands segment).snd = k.snd ∧ (k.flushProbeCommands segment).rcv = k.rcv := by
  obtain ⟨h1, h2⟩ := flushProbe_frame kcpAskSend kcpCmdWask (k, segment)
  obtain ⟨h3, h4⟩ := flushProbe_frame kcpAskTell kcpCmdWins
    (flushProbe kcpAskSend kcpCmdWask (k, segment))
  exact ⟨h3.trans h1, h4.trans h2⟩

theorem flushControl_frame : k.flushControl.snd = k.snd ∧ k.flushControl.rcv = k.rcv := by
  obtain ⟨h1, h2⟩ := flushAckInner_frame k k.ackSegment
  obtain ⟨h3, h4, -⟩ := probeWndSize_frame (k.flushAckInner k.ackSegment).1
  obtain ⟨h5, h6⟩ := flushProbeCommands_frame (k.flushAckInner k.ackSegment).1.probeWndSize
    (k.flushAckInner k.ackSegment).2
  exact ⟨h5.trans (h3.trans h1), h6.trans (h4.trans h2)⟩

theorem emitSegment_frame (seg : KcpSegment) :
    (k.emitSegment seg).snd = k.snd ∧ (k.emitSegment seg).rcv = k.rcv := by
  unfold emitSegment
  split
  · exact ⟨rfl, rfl⟩
  · exact roomFor_stage_frame k _ seg

theorem noteDead_frame (xmit : U32) (still : Bool) : (k.noteDead xmit still).snd = k.snd ∧
    (k.noteDead xmit still).rcv = k.rcv ∧ (k.noteDead xmit still).out = k.out := by
  unfold noteDead
  split <;> exact ⟨rfl, rfl, rfl⟩

theorem ssthreshAfterFast_frame (change resent : U32) :
    (k.ssthreshAfterFast change resent).snd = k.snd ∧
      (k.ssthreshAfterFast change resent).rcv = k.rcv ∧
      (k.ssthreshAfterFast change resent).out = k.out := by
  unfold ssthreshAfterFast
  split <;> exact ⟨rfl, rfl, rfl⟩

theorem ssthreshAfterLoss_frame (lost : Bool) (priorCwnd : U16) :
    (k.ssthreshAfterLoss lost priorCwnd).snd = k.snd ∧
      (k.ssthreshAfterLoss lost priorCwnd).rcv = k.rcv ∧
      (k.ssthreshAfterLoss lost priorCwnd).out = k.out := by
  unfold ssthreshAfterLoss
  split <;> exact ⟨rfl, rfl, rfl⟩

theorem cwndFloor_frame : k.cwndFloor.snd = k.snd ∧ k.cwndFloor.rcv = k.rcv ∧
    k.cwndFloor.out = k.out := by
  unfold cwndFloor
  split <;> exact ⟨rfl, rfl, rfl⟩

theorem updateSsthresh_frame (change resent : U32) (lost : Bool) (priorCwnd : U16) :
    (k.updateSsthresh change resent lost priorCwnd).snd = k.snd ∧
      (k.updateSsthresh change resent lost priorCwnd).rcv = k.rcv ∧
      (k.updateSsthresh change resent lost priorCwnd).out = k.out := by
  obtain ⟨a1, a2, a3⟩ := ssthreshAfterFast_frame k change resent
  obtain ⟨b1, b2, b3⟩ :=
    ssthreshAfterLoss_frame (k.ssthreshAfterFast change resent) lost priorCwnd
  obtain ⟨c1, c2, c3⟩ := cwndFloor_frame
    ((k.ssthreshAfterFast change resent).ssthreshAfterLoss lost priorCwnd)
  exact ⟨c1.trans (b1.trans a1), c2.trans (b2.trans a2), c3.trans (b3.trans a3)⟩

theorem markUpdated_frame : k.markUpdated.snd = k.snd ∧ k.markUpdated.rcv = k.rcv ∧
    k.markUpdated.out = k.out := by
  unfold markUpdated
  split <;> exact ⟨rfl, rfl, rfl⟩

theorem setMtu_frame (mtu : Nat) : (k.setMtu mtu).rcv = k.rcv ∧ (k.setMtu mtu).out = k.out ∧
    (k.setMtu mtu).snd = { k.snd with mss := (k.setMtu mtu).mss } := by
  unfold setMtu
  simp only []
  split <;> exact ⟨rfl, rfl, rfl⟩

theorem sendOwned_frame (data : Bytes) : (k.sendOwned data).1.rcv = k.rcv ∧
    (k.sendOwned data).1.out = k.out ∧ (k.sendOwned data).1.conv = k.conv := by
  unfold sendOwned
  simp only []
  split
  · exact ⟨rfl, rfl, rfl⟩
  · split
    · split <;> exact ⟨rfl, rfl, rfl⟩
    · exact ⟨rfl, rfl, rfl⟩

end Stage

end Kcp

end Molehill
