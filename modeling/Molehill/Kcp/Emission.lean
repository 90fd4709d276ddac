/-
# What the engine puts on the wire

Every datagram is the packing of whole segments, and so is the staging buffer at all times
(`Emitting`).  A segment on the wire is a control segment, or a data segment of the send buffer
with its number and payload (`OnWire`).  Between calls only control segments are staged
(`flush_ack` stages and does not send), so a data segment never waits in the staging buffer
while the history moves on.
-/
import Molehill.Kcp.RecvSide

namespace Molehill

open Lib

/-- `bs` packs whole segments, all with `P`. -/
def Staged (P : KcpSegment → Prop) (bs : Bytes) : Prop :=
  ∃ segs : List KcpSegment, bs = encodeAll segs ∧ ∀ s ∈ segs, P s

/-- The staging buffer and every emitted datagram pack segments with `P`. -/
structure Emitting (P : KcpSegment → Prop) (v : OutView) : Prop where
  buf : Staged P v.buf
  output : ∀ d ∈ v.output, Staged P d

/-- A control segment of the conversation. -/
def Control (conv : U32) (s : KcpSegment) : Prop :=
  s.conv = conv ∧ knownCmd s.cmd = true ∧ s.cmd ≠ kcpCmdPush

/-- A segment of the conversation: control, or a data segment numbered from `lo` on. -/
def OnWire (conv : U32) (L : List Bytes) (lo : Nat) (s : KcpSegment) : Prop :=
  s.conv = conv ∧ knownCmd s.cmd = true ∧ (s.cmd = kcpCmdPush → ∃ i, lo ≤ i ∧ Numbered L s i)

theorem Control.onWire {conv : U32} {s : KcpSegment} (h : Control conv s) (L : List Bytes)
    (lo : Nat) : OnWire conv L lo s :=
  ⟨h.1, h.2.1, fun hc => absurd hc h.2.2⟩

theorem OnWire.mono {conv : U32} {L L' : List Bytes} {lo : Nat} {s : KcpSegment}
    (h : OnWire conv L lo s) (hL : L <+: L') : OnWire conv L' lo s :=
  ⟨h.1, h.2.1, fun hc => (h.2.2 hc).imp fun _ hi => ⟨hi.1, hi.2.mono hL⟩⟩

variable {P Q : KcpSegment → Prop} {k : Kcp}

theorem Staged.nil : Staged P [] := ⟨[], rfl, by simp⟩

theorem Staged.imp {bs : Bytes} (h : Staged P bs) (hPQ : ∀ s, P s → Q s) : Staged Q bs := by
  obtain ⟨segs, rfl, hs⟩ := h
  exact ⟨segs, rfl, fun s hm => hPQ s (hs s hm)⟩

theorem Staged.concat {bs : Bytes} (h : Staged P bs) {s : KcpSegment} (hs : P s) :
    Staged P (bs ++ s.encode) := by
  obtain ⟨segs, rfl, hall⟩ := h
  refine ⟨segs ++ [s], by simp [encodeAll_append], fun t ht => ?_⟩
  rcases List.mem_append.mp ht with ht | ht
  · exact hall t ht
  · rw [List.mem_singleton.mp ht]; exact hs

theorem Emitting.imp {v : OutView} (h : Emitting P v) (hPQ : ∀ s, P s → Q s) : Emitting Q v :=
  ⟨h.buf.imp hPQ, fun d hd => (h.output d hd).imp hPQ⟩

/-! ## 1. The staging operations -/

theorem Emitting.writeBuf (h : Emitting P k.out) : Emitting P k.writeBuf.out := by
  unfold Kcp.writeBuf
  split
  · exact h
  · refine ⟨Staged.nil, fun d hd => ?_⟩
    rcases List.mem_append.mp hd with hd | hd
    · exact h.output d hd
    · rw [List.mem_singleton.mp hd]; exact h.buf

theorem Emitting.roomFor (h : Emitting P k.out) (need : Nat) : Emitting P (k.roomFor need).out := by
  unfold Kcp.roomFor
  split
  · exact h.writeBuf
  · exact h

theorem Emitting.stage (h : Emitting P k.out) {s : KcpSegment} (hs : P s) :
    Emitting P (k.stage s).out :=
  ⟨h.buf.concat hs, h.output⟩

/-- A data segment goes out by itself or behind what is staged; either way it is one packed
segment. -/
theorem Emitting.emitSegment (h : Emitting P k.out) {s : KcpSegment} (hs : P s) :
    Emitting P (k.emitSegment s).out := by
  unfold Kcp.emitSegment
  split
  · refine ⟨h.buf, fun d hd => ?_⟩
    rcases List.mem_append.mp hd with hd | hd
    · exact h.output d hd
    · rw [List.mem_singleton.mp hd]
      exact ⟨[s], by simp [KcpSegment.encode], by simpa using hs⟩
  · exact (h.roomFor _).stage hs

/-! ## 2. Acks and probes -/

theorem Emitting.flushAckLoop {conv : U32} : ∀ (acks : List (U32 × U32)) (k : Kcp)
    (segment : KcpSegment), Emitting (Control conv) k.out → Control conv segment →
    Emitting (Control conv) (Kcp.flushAckLoop acks k segment).1.out ∧
      Control conv (Kcp.flushAckLoop acks k segment).2
  | [], k, segment, h, hs => ⟨h, hs⟩
  | (sn, ts) :: acks, k, segment, h, hs => by
    have hs' : Control conv { segment with sn := sn, ts := ts } := hs
    exact Emitting.flushAckLoop acks _ _ ((h.roomFor kcpOverhead).stage hs') hs'

theorem control_ackSegment (k : Kcp) : Control k.conv k.ackSegment :=
  ⟨rfl, show knownCmd kcpCmdAck = true by decide, show kcpCmdAck ≠ kcpCmdPush by decide⟩

theorem Emitting.flushAck (h : Emitting (Control k.conv) k.out) :
    Emitting (Control k.conv) k.flushAck.1.out := by
  unfold Kcp.flushAck
  split
  · exact h
  · obtain ⟨h1, -⟩ := Emitting.flushAckLoop k.acklist k k.ackSegment h (control_ackSegment k)
    exact h1

theorem Emitting.flushProbe {conv : U32} {r : Kcp × KcpSegment}
    (h : Emitting (Control conv) r.1.out) (hs : Control conv r.2) (ask : U32) (cmd : Byte)
    (hcmd : knownCmd cmd = true ∧ cmd ≠ kcpCmdPush) :
    Emitting (Control conv) (Kcp.flushProbe ask cmd r).1.out ∧
      Control conv (Kcp.flushProbe ask cmd r).2 := by
  unfold Kcp.flushProbe
  split
  · have hs' : Control conv { r.2 with cmd := cmd } := ⟨hs.1, hcmd.1, hcmd.2⟩
    exact ⟨(h.roomFor kcpOverhead).stage hs', hs'⟩
  · exact ⟨h, hs⟩

/-- The control part of a flush stages and emits control segments only. -/
theorem Emitting.flushControl (h : Emitting (Control k.conv) k.out) :
    Emitting (Control k.conv) k.flushControl.out := by
  obtain ⟨h1, hs1⟩ := Emitting.flushAckLoop k.acklist k k.ackSegment h (control_ackSegment k)
  have h2 : Emitting (Control k.conv) (k.flushAckInner k.ackSegment).1.probeWndSize.out := by
    rw [(Kcp.probeWndSize_frame _).2.2]
    exact h1
  obtain ⟨h3, hs3⟩ := Emitting.flushProbe
    (r := ((k.flushAckInner k.ackSegment).1.probeWndSize, (k.flushAckInner k.ackSegment).2))
    h2 hs1 kcpAskSend kcpCmdWask (by decide)
  exact (Emitting.flushProbe h3 hs3 kcpAskTell kcpCmdWins (by decide)).1

/-! ## 3. The walk -/

/-- One segment of the walk emits at most that segment, with its core unchanged. -/
theorem Emitting.flushSegment {env : Kcp.FlushEnv} {acc : Kcp.FlushAcc} {seg : KcpSegment}
    (h : Emitting P acc.kcp.out) (hseg : ∀ s, s.core = seg.core → P s) :
    Emitting P (Kcp.flushSegment env acc seg).1.kcp.out := by
  unfold Kcp.flushSegment
  split
  · exact h
  · rename_i acc' seg' hsome
    obtain ⟨-, -, h3, h4⟩ := Kcp.needSend_frame hsome
    have h' : Emitting P acc'.kcp.out := by rw [h3]; exact h
    change Emitting P (Kcp.noteDead _ _ _).out
    rw [(Kcp.noteDead_frame _ _ _).2.2]
    exact h'.emitSegment (hseg _ h4)

theorem Emitting.flushLoop (env : Kcp.FlushEnv) : ∀ (segs : List KcpSegment) (acc : Kcp.FlushAcc),
    Emitting P acc.kcp.out → (∀ t ∈ segs, ∀ s, s.core = t.core → P s) →
    Emitting P (Kcp.flushLoop env acc segs).1.kcp.out
  | [], _, h, _ => h
  | seg :: rest, _, h, hall =>
    Emitting.flushLoop env rest _ (h.flushSegment (hall seg List.mem_cons_self))
      (fun t ht => hall t (List.mem_cons_of_mem _ ht))

/-- **A flush empties the staging buffer**, and what it emits are control segments and segments
of the send buffer. -/
theorem Emitting.flush {L : List Bytes} {U : Nat} (h : Emitting (Control k.conv) k.out)
    (hinv : SendInv L U k.flushFill.snd) (hup : k.flags.updated = true) :
    k.flush.1.buf = [] ∧ ∀ d ∈ k.flush.1.output, Staged (OnWire k.conv L U) d := by
  have hconv : k.flushControl.conv = k.conv := Kcp.conv_eq_of_snd (Kcp.flushControl_frame k).1
  have h1 : Emitting (OnWire k.conv L U) k.flushFill.out :=
    Emitting.imp (v := k.flushControl.out) h.flushControl fun s hs => hs.onWire L U
  have hall : ∀ t ∈ k.flushFill.sndBuf, ∀ s, s.core = t.core → OnWire k.conv L U s := by
    intro t ht s hs
    obtain ⟨i, hi1, -, hi3⟩ := hinv.buf.exists_of_mem ht
    obtain ⟨w1, w2⟩ := hinv.wire t ht
    simp only [KcpSegment.core, Prod.mk.injEq] at hs
    obtain ⟨c1, c2, c3, c4, c5⟩ := hs
    refine ⟨c1.trans (w2.trans hconv), ?_, fun _ => ⟨i, hi1, c3.trans hi3.1, ?_, c5.trans hi3.2.2⟩⟩
    · rw [c2, w1]; decide
    · rw [c4]; exact hi3.2.1
  have h2 := Emitting.flushLoop (k.flushFill.flushEnv k.wndUnused) k.flushFill.sndBuf
    { kcp := k.flushFill } h1 hall
  unfold Kcp.flush
  rw [if_neg (by simp [hup])]
  simp only []
  set r := Kcp.flushLoop (k.flushFill.flushEnv k.wndUnused) { kcp := k.flushFill }
    k.flushFill.sndBuf
  have h3 : Emitting (OnWire k.conv L U) (Kcp.writeBuf { r.1.kcp with sndBuf := r.2 }).out :=
    Emitting.writeBuf (k := { r.1.kcp with sndBuf := r.2 }) h2
  have hout := (Kcp.updateSsthresh_frame (Kcp.writeBuf { r.1.kcp with sndBuf := r.2 })
    r.1.change (k.flushFill.flushEnv k.wndUnused).resent r.1.lost k.cwnd).2.2
  constructor
  · have hb := congrArg OutView.buf hout
    refine hb.trans ?_
    change (Kcp.writeBuf { r.1.kcp with sndBuf := r.2 }).buf = []
    unfold Kcp.writeBuf
    split
    · assumption
    · rfl
  · have ho := congrArg OutView.output hout
    intro d hd
    rw [show (Kcp.updateSsthresh _ _ _ _ _).output = _ from ho] at hd
    exact h3.output d hd

end Molehill
