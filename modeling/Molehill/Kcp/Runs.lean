/-
# The runs of one engine, and what its calls leave alone

`engine` is one engine against any network: its owner makes any call at any moment, and `input` is
handed any bytes.  What holds in its reachable states holds whatever the peer, the network and the
callers do.

Each call writes a part of the record.  `flushKept`, `updateKept` and `inputKept` blank the part
that `flush`, `update` and `input` write, so that one equation for each call says that the rest
stays; a field's own equation is then read off by `congrArg`.  `Configured` is what follows for the
fields that only the configuration calls write.
-/
import Molehill.Kcp.Delivery
import Molehill.Kcp.SendWindow

namespace Molehill

open Lib

/-! ## 1. The system -/

/-- A call of the engine's owner, or a datagram for `input`. -/
inductive EngineEvent
  | act (a : Action)
  | input (buf : Bytes)

/-- A segment without what an acknowledgement and a forced resend change. -/
def KcpSegment.steady (s : KcpSegment) : KcpSegment := { s with fastack := 0, resendts := 0 }

/-- The engine after a call. -/
def Kcp.after (k : Kcp) : EngineEvent → Kcp
  | .act a => (a.run k).1
  | .input buf => (k.input buf).1

/-- **One engine**, against any peer. -/
def engine : Lts Kcp EngineEvent where
  init k := ∃ conv, k = newStream conv
  step k e k' := k.after e = k'

namespace Kcp

variable (k : Kcp)

/-! ## 2. `flush` -/

/-- The engine without what a flush writes up to the end of its walk. -/
def flushKept : Kcp :=
  { k with
    buf := [], output := [], acklist := [], probe := 0, probeWait := 0, tsProbe := 0
    sndQueue := [], sndNxt := 0, sndBuf := [], xmit := 0, state := 0 }

/-- The engine without what a flush writes. -/
def flushedKept : Kcp := { k.flushKept with ssthresh := 0, cwnd := 0, incr := 0 }

theorem flushKept_writeBuf : k.writeBuf.flushKept = k.flushKept := by
  unfold writeBuf
  split <;> rfl

theorem flushKept_roomFor (need : Nat) : (k.roomFor need).flushKept = k.flushKept := by
  unfold roomFor
  split
  · exact flushKept_writeBuf k
  · rfl

theorem flushKept_stage (seg : KcpSegment) : (k.stage seg).flushKept = k.flushKept := rfl

theorem flushKept_flushAckLoop (acks : List (U32 × U32)) (k : Kcp) (segment : KcpSegment) :
    (flushAckLoop acks k segment).1.flushKept = k.flushKept := by
  induction acks generalizing k segment with
  | nil => rfl
  | cons ack acks ih =>
    rw [flushAckLoop, ih, flushKept_stage]
    exact flushKept_roomFor k kcpOverhead

theorem flushKept_flushAckInner (segment : KcpSegment) :
    (k.flushAckInner segment).1.flushKept = k.flushKept :=
  flushKept_flushAckLoop k.acklist k segment

theorem flushKept_flushProbe (ask : U32) (cmd : Byte) (r : Kcp × KcpSegment) :
    (flushProbe ask cmd r).1.flushKept = r.1.flushKept := by
  unfold flushProbe
  split
  · exact flushKept_roomFor r.1 kcpOverhead
  · rfl

theorem flushKept_armProbe (wait : U32) : (k.armProbe wait).flushKept = k.flushKept := rfl

theorem flushKept_probeWndSize : k.probeWndSize.flushKept = k.flushKept := by
  unfold probeWndSize
  split
  · split
    · exact flushKept_armProbe k _
    · split
      · exact flushKept_armProbe k (nextProbeWait k.probeWait)
      · rfl
  · rfl

theorem flushKept_flushControl : k.flushControl.flushKept = k.flushKept :=
  calc k.flushControl.flushKept
      = (flushProbe kcpAskSend kcpCmdWask
          ((k.flushAckInner k.ackSegment).1.probeWndSize,
            (k.flushAckInner k.ackSegment).2)).1.flushKept := flushKept_flushProbe _ _ _
    _ = (k.flushAckInner k.ackSegment).1.probeWndSize.flushKept := flushKept_flushProbe _ _ _
    _ = (k.flushAckInner k.ackSegment).1.flushKept := flushKept_probeWndSize _
    _ = k.flushKept := flushKept_flushAckInner k _

theorem flushKept_flushFill : k.flushFill.flushKept = k.flushKept := flushKept_flushControl k

theorem flushKept_emitSegment (seg : KcpSegment) :
    (k.emitSegment seg).flushKept = k.flushKept := by
  unfold emitSegment
  split
  · rfl
  · exact flushKept_roomFor k _

theorem flushKept_noteDead (xmit : U32) (still : Bool) :
    (k.noteDead xmit still).flushKept = k.flushKept := by
  unfold noteDead
  split <;> rfl

variable {k}

theorem flushKept_needSend {env : FlushEnv} {acc acc' : FlushAcc} {seg seg' : KcpSegment}
    (h : needSend env acc seg = some (acc', seg')) : acc'.kcp.flushKept = acc.kcp.flushKept := by
  unfold needSend at h
  simp only [] at h
  split at h
  · cases h
    rfl
  · split at h
    · cases h
      rfl
    · split at h
      · cases h
        rfl
      · cases h

theorem flushKept_flushSegment (env : FlushEnv) (acc : FlushAcc) (seg : KcpSegment) :
    (flushSegment env acc seg).1.kcp.flushKept = acc.kcp.flushKept := by
  unfold flushSegment
  split
  case h_1 => rfl
  case h_2 acc' seg' hsend =>
    exact (flushKept_noteDead _ _ _).trans
      ((flushKept_emitSegment _ _).trans (flushKept_needSend hsend))

theorem flushKept_flushLoop (env : FlushEnv) (segs : List KcpSegment) (acc : FlushAcc) :
    (flushLoop env acc segs).1.kcp.flushKept = acc.kcp.flushKept := by
  induction segs generalizing acc with
  | nil => rfl
  | cons seg rest ih => exact (ih _).trans (flushKept_flushSegment env acc seg)

variable (k)

/-- The walk of a flush. -/
def flushWalk : FlushAcc × List KcpSegment :=
  flushLoop (k.flushFill.flushEnv k.wndUnused) { kcp := k.flushFill } k.flushFill.sndBuf

/-- The engine behind the walk, with the last datagram written. -/
def flushWalked : Kcp := ({ k.flushWalk.1.kcp with sndBuf := k.flushWalk.2 }).writeBuf

/-- A flush ends with the window's update. -/
theorem flush_eq (hup : k.flags.updated = true) :
    k.flush = (k.flushWalked.updateSsthresh k.flushWalk.1.change
      (k.flushFill.flushEnv k.wndUnused).resent k.flushWalk.1.lost k.cwnd, .ok ()) := by
  rw [flush, hup]
  rfl

theorem flush_of_not_updated (hup : k.flags.updated = false) :
    k.flush = (k, .error .needUpdate) := by
  rw [flush, hup]
  rfl

theorem flushedKept_updateSsthresh (change resent : U32) (lost : Bool) (priorCwnd : U16) :
    (k.updateSsthresh change resent lost priorCwnd).flushedKept = k.flushedKept := by
  have hfloor : ∀ k : Kcp, k.cwndFloor.flushedKept = k.flushedKept := by
    intro k
    unfold cwndFloor
    split <;> rfl
  have hloss : ∀ k : Kcp, (k.ssthreshAfterLoss lost priorCwnd).flushedKept = k.flushedKept := by
    intro k
    unfold ssthreshAfterLoss
    split <;> rfl
  have hfast : (k.ssthreshAfterFast change resent).flushedKept = k.flushedKept := by
    unfold ssthreshAfterFast
    split <;> rfl
  exact (hfloor _).trans ((hloss _).trans hfast)

/-- **What the walk of a flush leaves alone.** -/
theorem flushKept_flushWalked : k.flushWalked.flushKept = k.flushKept :=
  calc k.flushWalked.flushKept
      = k.flushWalk.1.kcp.flushKept := flushKept_writeBuf _
    _ = k.flushFill.flushKept :=
        flushKept_flushLoop (k.flushFill.flushEnv k.wndUnused) k.flushFill.sndBuf _
    _ = k.flushKept := flushKept_flushFill k

/-- **What a flush leaves alone.** -/
theorem flushedKept_flush : k.flush.1.flushedKept = k.flushedKept := by
  cases hup : k.flags.updated with
  | false => rw [flush_of_not_updated k hup]
  | true =>
    rw [flush_eq k hup, flushedKept_updateSsthresh, flushedKept, flushKept_flushWalked]
    rfl

theorem flushKept_flushAck : k.flushAck.1.flushKept = k.flushKept := by
  unfold flushAck
  split
  · rfl
  · exact flushKept_flushAckInner k _

/-! ## 3. `update` -/

/-- The engine without what an update writes besides a flush. -/
def updateKept : Kcp :=
  { k.flushedKept with current := 0, tsFlush := 0, flags := { k.flags with updated := false } }

/-- **What an update leaves alone.** -/
theorem updateKept_update (current : U32) : (k.update current).1.updateKept = k.updateKept := by
  have hflush : ∀ k : Kcp, k.flush.1.updateKept = k.updateKept := by
    intro k
    have h := flushedKept_flush k
    have hflags : k.flush.1.flags = k.flags := (congrArg Kcp.flags h :)
    rw [updateKept, h, hflags]
    rfl
  have hmark : ({ k with current := current } : Kcp).markUpdated.updateKept = k.updateKept := by
    unfold markUpdated
    split <;> rfl
  unfold update
  simp only []
  split
  · exact (hflush _).trans hmark
  · split
    · exact (hflush _).trans hmark
    · exact hmark

/-! ## 4. `input` -/

/-- The engine without what a segment of a datagram writes. -/
def segmentKept : Kcp :=
  { k with
    rmtWnd := 0, sndBuf := [], lastProgress := 0, sndUna := 0, rxSrtt := 0, rxRttval := 0
    rxRto := 0, acklist := [], rcvBuf := [], rcvNxt := 0, rcvQueue := [], probe := 0 }

/-- The engine without what `input` writes. -/
def inputKept : Kcp := { k.segmentKept with cwnd := 0, incr := 0 }

theorem segmentKept_acceptPush (head : SegHead) (buf : Bytes) :
    (k.acceptPush head buf).1.segmentKept = k.segmentKept := by
  unfold acceptPush
  simp only []
  split
  · rfl
  · split
    · rfl
    · split
      · rfl
      · unfold parseData insertSegment
        split
        · rfl
        · split <;> rfl

theorem segmentKept_inputSegment (acks : AckRun) (head : SegHead) (buf : Bytes) :
    (k.inputSegment acks head buf).1.segmentKept = k.segmentKept := by
  have hack : ∀ k : Kcp, (k.inputAck head).segmentKept = k.segmentKept := by
    intro k
    have hsample : (k.sampleRtt head.ts).segmentKept = k.segmentKept := by
      unfold sampleRtt
      split <;> rfl
    have hparse : ((k.sampleRtt head.ts).parseAck head.sn).segmentKept
        = (k.sampleRtt head.ts).segmentKept := by
      unfold parseAck
      split <;> rfl
    exact hparse.trans hsample
  unfold inputSegment
  split
  · exact hack _
  · split
    · have hpush := segmentKept_acceptPush (k.inputHead head) head buf
      split
      case h_1 hr => rwa [hr] at hpush
      case h_2 hr => rwa [hr] at hpush
      case h_3 hr => rwa [hr] at hpush
    · split <;> rfl

theorem inputKept_inputSegment (acks : AckRun) (head : SegHead) (buf : Bytes) :
    (k.inputSegment acks head buf).1.inputKept = k.inputKept := by
  rw [inputKept, segmentKept_inputSegment]
  rfl

theorem inputKept_inputEnd (acks : AckRun) (una : U32) :
    (k.inputEnd acks una).inputKept = k.inputKept := by
  have hcwnd : ∀ k : Kcp, (k.updateCwndAfterAcks una).inputKept = k.inputKept := by
    intro k
    unfold updateCwndAfterAcks
    split
    · rfl
    · split <;> rfl
  unfold inputEnd
  split
  · refine (hcwnd _).trans ?_
    unfold parseFastack
    split <;> rfl
  · exact hcwnd k

/-- **What `input` leaves alone**, whatever it is handed. -/
theorem inputKept_input (buf : Bytes) : (k.input buf).1.inputKept = k.inputKept := by
  unfold input
  split
  · rfl
  · have hloop := inputLoop_inv (P := fun k' => k'.inputKept = k.inputKept)
      (fun k' acks head buf hk => (inputKept_inputSegment k' acks head buf).trans hk)
      buf.length k {} buf rfl
    split
    case h_1 hr => rwa [hr] at hloop
    case h_2 hr =>
      rw [hr] at hloop
      exact (inputKept_inputEnd _ _ _).trans hloop

/-! ## 5. `send_owned` and `recv` -/

/-- `send_owned` writes the send queue. -/
theorem sendOwned_eq (data : Bytes) :
    (k.sendOwned data).1 = { k with sndQueue := (k.sendOwned data).1.sndQueue } := by
  unfold sendOwned
  simp only []
  split
  · rfl
  · split
    · split <;> rfl
    · rfl

/-- `recv_pop` writes the receive side, and may ask for a window update. -/
theorem segmentKept_recvPop : k.recvPop.1.segmentKept = k.segmentKept := by
  unfold recvPop
  split
  · rfl
  · split
    · rfl
    · unfold fastRecover
      split <;> rfl

theorem inputKept_recvPop : k.recvPop.1.inputKept = k.inputKept := by
  rw [inputKept, segmentKept_recvPop]
  rfl

/-- The engine under another clock, with its first update made. -/
def clocked (current tsFlush : U32) : Kcp :=
  { k with current := current, tsFlush := tsFlush, flags := { k.flags with updated := true } }

theorem markUpdated_eq (current : U32) :
    ∃ tsFlush, ({ k with current := current } : Kcp).markUpdated = k.clocked current tsFlush := by
  unfold markUpdated
  cases hup : k.flags.updated with
  | false => exact ⟨current, rfl⟩
  | true =>
    refine ⟨k.tsFlush, ?_⟩
    have hflags : k.flags = { k.flags with updated := true } := by rw [← hup]
    rw [clocked, ← hflags]
    rfl

/-- **An update** hands the engine to `flush` under its new clocks, or only sets them. -/
theorem update_flushes (current : U32) : ∃ tsFlush,
    (k.updateFlushes current = some (k.clocked current tsFlush) ∧
      k.update current = (k.clocked current tsFlush).flush) ∨
    (k.updateFlushes current = none ∧ k.update current = (k.clocked current tsFlush, .ok ())) := by
  obtain ⟨tsFlush, hk⟩ := k.markUpdated_eq current
  unfold update updateFlushes
  simp only [hk]
  split
  · exact ⟨_, Or.inl ⟨rfl, rfl⟩⟩
  · split
    · exact ⟨_, Or.inl ⟨rfl, rfl⟩⟩
    · exact ⟨_, Or.inr ⟨rfl, rfl⟩⟩

/-- An update sets the clocks, and may flush. -/
theorem update_eq (current : U32) : ∃ tsFlush,
    k.update current = (k.clocked current tsFlush, .ok ()) ∨
      k.update current = (k.clocked current tsFlush).flush := by
  obtain ⟨tsFlush, ⟨-, h⟩ | ⟨-, h⟩⟩ := k.update_flushes current
  · exact ⟨tsFlush, Or.inr h⟩
  · exact ⟨tsFlush, Or.inl h⟩

/-- The engine that a call hands to a flush, if it does. -/
def flushing : EngineEvent → Option Kcp
  | .act .flush => if k.flags.updated then some k else none
  | .act (.update current) => k.updateFlushes current
  | _ => none

/-- **A flush of a run**: of the engine itself, or under the clocks of an update. -/
theorem flushing_eq {k k' : Kcp} {e : EngineEvent} (h : k.flushing e = some k') :
    k'.flags.updated = true ∧ k.after e = k'.flush.1 ∧
      ∃ current tsFlush, k' = k.clocked current tsFlush := by
  cases e with
  | input => cases h
  | act a =>
    cases a with
    | flush =>
      cases hup : k.flags.updated with
      | false =>
        rw [flushing, hup] at h
        cases h
      | true =>
        rw [flushing, hup] at h
        cases h
        have hflags : k.flags = { k.flags with updated := true } := by rw [← hup]
        refine ⟨hup, rfl, k.current, k.tsFlush, ?_⟩
        rw [clocked, ← hflags]
    | update current =>
      obtain ⟨tsFlush, ⟨hflushes, heq⟩ | ⟨hflushes, -⟩⟩ := k.update_flushes current
      · have hk : some (k.clocked current tsFlush) = some k' := hflushes.symm.trans h
        cases hk
        exact ⟨rfl, congrArg Prod.fst heq, current, tsFlush, rfl⟩
      · have hnone : none = some k' := hflushes.symm.trans h
        cases hnone
    | send | recv | flushAck | retransmitSn | setMtu | setNodelay | setWndsize => cases h

/-- An update that does not flush only sets the clocks. -/
theorem update_of_none {current : U32} (h : k.flushing (.act (.update current)) = none) :
    ∃ tsFlush, (k.update current).1 = k.clocked current tsFlush := by
  obtain ⟨tsFlush, ⟨hflushes, -⟩ | ⟨-, heq⟩⟩ := k.update_flushes current
  · have hnone : none = some _ := h.symm.trans hflushes
    cases hnone
  · exact ⟨tsFlush, congrArg Prod.fst heq⟩

/-! ## 6. What the send buffer holds -/

variable {α : Type} {f : KcpSegment → α}

/-- Every buffered segment was buffered before, up to what `f` leaves out. -/
def Retained (f : KcpSegment → α) (k k' : Kcp) : Prop :=
  ∀ s' ∈ k'.sndBuf, ∃ s ∈ k.sndBuf, f s' = f s

variable {k} {k' k'' : Kcp}

theorem core_eq {s s' : KcpSegment} (h : s'.core = s.core) :
    s'.conv = s.conv ∧ s'.cmd = s.cmd ∧ s'.data = s.data := by
  simp only [KcpSegment.core, Prod.mk.injEq] at h
  exact ⟨h.1, h.2.1, h.2.2.2.1⟩

theorem Retained.of_map (h : k'.sndBuf.map f = k.sndBuf.map f) : Retained f k k' := by
  intro s' hs'
  have hmem := List.mem_map_of_mem (f := f) hs'
  rw [h] at hmem
  obtain ⟨s, hs, heq⟩ := List.mem_map.mp hmem
  exact ⟨s, hs, heq.symm⟩

theorem Retained.of_sublist (h : k'.sndBuf.Sublist k.sndBuf) : Retained f k k' :=
  fun s' hs' => ⟨s', h.subset hs', rfl⟩

theorem Retained.of_eq (h : k'.sndBuf = k.sndBuf) : Retained f k k' := .of_sublist (by rw [h])

theorem Retained.trans (h : Retained f k k') (h' : Retained f k' k'') : Retained f k k'' := by
  intro s'' hs''
  obtain ⟨s', hs', heq'⟩ := h' s'' hs''
  obtain ⟨s, hs, heq⟩ := h s' hs'
  exact ⟨s, hs, heq'.trans heq⟩

theorem Retained.of_snd (h : k'.snd = k.snd) : Retained f k k' :=
  .of_eq (congrArg SndView.sndBuf h)

/-- What is kept in a steady segment is kept in its core. -/
theorem Retained.core (h : Retained KcpSegment.steady k k') : Retained KcpSegment.core k k' := by
  intro s' hs'
  obtain ⟨s, hs, heq⟩ := h s' hs'
  exact ⟨s, hs, (congrArg KcpSegment.core heq :)⟩

theorem parseFastackLoop_steady (sn ts : U32) (segs : List KcpSegment) :
    (parseFastackLoop sn ts segs).map KcpSegment.steady = segs.map KcpSegment.steady := by
  induction segs with
  | nil => rfl
  | cons seg rest ih =>
    unfold parseFastackLoop
    split
    · rfl
    · split
      · rw [List.map_cons, List.map_cons, ih]
        rfl
      · rw [List.map_cons, List.map_cons, ih]

theorem retransmitLoop_steady (sn current : U32) (segs : List KcpSegment) :
    (retransmitLoop sn current segs).map KcpSegment.steady = segs.map KcpSegment.steady := by
  induction segs with
  | nil => rfl
  | cons seg rest ih =>
    unfold retransmitLoop
    split
    · rfl
    · split
      · rfl
      · rw [List.map_cons, List.map_cons, ih]

theorem retained_inputSegment (k : Kcp) (acks : AckRun) (head : SegHead) (buf : Bytes) :
    Retained KcpSegment.steady k (k.inputSegment acks head buf).1 := by
  have hhead : Retained KcpSegment.steady k (k.inputHead head) :=
    .of_sublist (List.dropWhile_sublist _)
  have hack : ∀ k : Kcp, Retained KcpSegment.steady k (k.inputAck head) := by
    intro k
    have hsample : Retained KcpSegment.steady k (k.sampleRtt head.ts) :=
      .of_snd (sampleRtt_frame k head.ts).1
    refine hsample.trans (.of_sublist ?_)
    change ((k.sampleRtt head.ts).parseAck head.sn).sndBuf.Sublist _
    unfold parseAck
    split
    · exact List.Sublist.refl _
    · exact parseAckLoop_sublist _ _
  unfold inputSegment
  split
  · exact hhead.trans (hack _)
  · split
    · have hpush := (acceptPush_frame (k.inputHead head) head buf).1
      split
      case h_1 hr => exact hhead.trans (.of_snd (by rw [hr] at hpush; exact hpush))
      case h_2 hr => exact hhead.trans (.of_snd (by rw [hr] at hpush; exact hpush))
      case h_3 hr => exact hhead.trans (.of_snd (by rw [hr] at hpush; exact hpush))
    · split <;> exact hhead

/-- **`input` buffers nothing.** -/
theorem retained_input (k : Kcp) (buf : Bytes) : Retained KcpSegment.steady k (k.input buf).1 := by
  unfold input
  split
  · exact .of_snd rfl
  · have hloop := inputLoop_inv (P := Retained KcpSegment.steady k)
      (fun k' acks head buf hk => hk.trans (retained_inputSegment k' acks head buf))
      buf.length k {} buf (.of_snd rfl)
    split
    case h_1 hr =>
      rw [hr] at hloop
      exact hloop
    case h_2 k' acks rest hr =>
      rw [hr] at hloop
      refine hloop.trans ?_
      have hcwnd : ∀ (k : Kcp) (una : U32),
          Retained KcpSegment.steady k (k.updateCwndAfterAcks una) :=
        fun k una => .of_snd (updateCwndAfterAcks_frame k una).1
      unfold inputEnd
      split
      · refine Retained.trans ?_ (hcwnd _ _)
        unfold parseFastack
        split
        · exact .of_snd rfl
        · exact .of_map (parseFastackLoop_steady _ _ _)
      · exact hcwnd k' _

/-- A filled buffer holds what it held, and queued segments under new numbers. -/
theorem mem_fillLoop {k : Kcp} {cwnd wnd : U16} {queue sndBuf : List KcpSegment} {nxt : U32}
    {s : KcpSegment} (h : s ∈ (k.fillLoop cwnd wnd queue nxt sndBuf).2.2) :
    s ∈ sndBuf ∨ ∃ seg ∈ queue, ∃ sn, s = { seg with
      conv := k.conv, cmd := kcpCmdPush, wnd := wnd, ts := k.current, sn := sn, una := k.rcvNxt
      resendts := k.current, rto := k.rxRto, fastack := 0, xmit := 0 } := by
  induction queue generalizing nxt sndBuf with
  | nil => exact Or.inl h
  | cons seg queue ih =>
    rw [fillLoop] at h
    split at h
    · rcases ih h with hold | ⟨t, ht, sn, rfl⟩
      · rcases List.mem_append.mp hold with hold | hnew
        · exact Or.inl hold
        · exact Or.inr ⟨seg, List.mem_cons_self, nxt, List.mem_singleton.mp hnew⟩
      · exact Or.inr ⟨t, List.mem_cons_of_mem _ ht, sn, rfl⟩
    · exact Or.inl h

theorem fillLoop_queue (k : Kcp) (cwnd wnd : U16) (queue : List KcpSegment) (nxt : U32)
    (sndBuf : List KcpSegment) : (k.fillLoop cwnd wnd queue nxt sndBuf).1 <:+ queue := by
  induction queue generalizing nxt sndBuf with
  | nil => exact List.suffix_refl _
  | cons seg queue ih =>
    rw [fillLoop]
    split
    · exact (ih _ _).trans (List.suffix_cons _ _)
    · exact List.suffix_refl _

theorem fillLoop_sndBuf (k : Kcp) (cwnd wnd : U16) (queue : List KcpSegment) (nxt : U32)
    (sndBuf : List KcpSegment) : sndBuf <+: (k.fillLoop cwnd wnd queue nxt sndBuf).2.2 := by
  induction queue generalizing nxt sndBuf with
  | nil => exact List.prefix_refl _
  | cons seg queue ih =>
    rw [fillLoop]
    split
    · exact (List.prefix_append _ _).trans (ih _ _)
    · exact List.prefix_refl _

variable (k)

/-- A fill only adds to the buffer. -/
theorem sndBuf_fill : k.sndBuf <+: k.flushFill.sndBuf := by
  have hbuf : k.flushControl.sndBuf = k.sndBuf :=
    congrArg SndView.sndBuf (flushControl_frame k).1
  rw [← hbuf]
  exact fillLoop_sndBuf _ _ _ _ _ _

/-- The send buffer behind a flush is the walked one. -/
theorem sndBuf_flush (hup : k.flags.updated = true) : k.flush.1.sndBuf = k.flushWalk.2 := by
  have hupd := (updateSsthresh_frame k.flushWalked k.flushWalk.1.change
    (k.flushFill.flushEnv k.wndUnused).resent k.flushWalk.1.lost k.cwnd).1
  have hwrite := (writeBuf_frame { k.flushWalk.1.kcp with sndBuf := k.flushWalk.2 }).1
  rw [flush_eq k hup]
  exact (congrArg SndView.sndBuf hupd).trans (congrArg SndView.sndBuf hwrite)

/-- **What a flush buffers**: what it filled the buffer with, up to the fields a resend changes. -/
theorem retained_flush : Retained KcpSegment.core k.flushFill k.flush.1 ∨ k.flush.1 = k := by
  cases hup : k.flags.updated with
  | false => exact Or.inr (by rw [flush_of_not_updated k hup])
  | true =>
    refine Or.inl (.of_map ?_)
    rw [sndBuf_flush k hup]
    exact flushLoop_core _ _ _

/-- What is buffered for a flush. -/
theorem mem_flushFill {s : KcpSegment} (h : s ∈ k.flushFill.sndBuf) :
    s ∈ k.sndBuf ∨ (s.xmit = 0 ∧ s.fastack = 0) ∧
      ∃ seg ∈ k.sndQueue, s.conv = k.conv ∧ s.cmd = kcpCmdPush ∧ s.data = seg.data := by
  have hc := (flushControl_frame k).1
  have hconv : k.flushControl.conv = k.conv := conv_eq_of_snd hc
  have hqueue : k.flushControl.sndQueue = k.sndQueue := congrArg SndView.sndQueue hc
  have hbuf : k.flushControl.sndBuf = k.sndBuf := congrArg SndView.sndBuf hc
  rcases mem_fillLoop h with hold | ⟨seg, hseg, sn, rfl⟩
  · exact Or.inl (hbuf ▸ hold)
  · exact Or.inr ⟨⟨rfl, rfl⟩, seg, hqueue ▸ hseg, hconv, rfl, rfl⟩

/-- A flush takes segments from the front of the queue. -/
theorem sndQueue_flush : k.flush.1.sndQueue <:+ k.sndQueue := by
  cases hup : k.flags.updated with
  | false =>
    simp only [flush_of_not_updated k hup, List.suffix_refl]
  | true =>
    have hqueue : k.flushControl.sndQueue = k.sndQueue :=
      congrArg SndView.sndQueue (flushControl_frame k).1
    have hloop : k.flushWalk.1.kcp.snd = k.flushFill.snd := (flushLoop_frame _ _ _).1
    have hwrite := (writeBuf_frame { k.flushWalk.1.kcp with sndBuf := k.flushWalk.2 }).1
    have hupd := (updateSsthresh_frame k.flushWalked k.flushWalk.1.change
      (k.flushFill.flushEnv k.wndUnused).resent k.flushWalk.1.lost k.cwnd).1
    rw [flush_eq k hup]
    rw [show (k.flushWalked.updateSsthresh _ _ _ _).sndQueue = k.flushWalked.sndQueue from
      congrArg SndView.sndQueue hupd, show k.flushWalked.sndQueue = k.flushWalk.1.kcp.sndQueue from
      congrArg SndView.sndQueue hwrite, show k.flushWalk.1.kcp.sndQueue = k.flushFill.sndQueue from
      congrArg SndView.sndQueue hloop, ← hqueue]
    exact fillLoop_queue _ _ _ _ _ _

/-! ## 7. What the configuration calls keep sound -/

/-- The fields that only the configuration calls write. -/
def settings : Bool × Nat × Nat × U32 × U32 × U32 × U32 :=
  (k.flags.stream, k.mtu, k.mss, k.interval, k.rxMinrto, k.deadLink, k.fastlimit)

theorem settings_of_updateKept {k k' : Kcp} (h : k'.updateKept = k.updateKept) :
    k'.settings = k.settings :=
  (congrArg settings h :)

theorem conv_of_updateKept {k k' : Kcp} (h : k'.updateKept = k.updateKept) : k'.conv = k.conv :=
  (congrArg Kcp.conv h :)

/-- Every call but `set_mtu` and `set_nodelay` keeps them. -/
theorem settings_after {e : EngineEvent} (hmtu : ∀ mtu, e ≠ .act (.setMtu mtu))
    (hnodelay : ∀ nd interval resend nc, e ≠ .act (.setNodelay nd interval resend nc)) :
    (k.after e).settings = k.settings := by
  cases e with
  | input buf => exact (congrArg settings (inputKept_input k buf) :)
  | act a =>
    cases a with
    | send data =>
      change (k.sendOwned data).1.settings = k.settings
      rw [sendOwned_eq]
      rfl
    | recv => exact (congrArg settings (inputKept_recvPop k) :)
    | update current => exact settings_of_updateKept (updateKept_update k current)
    | flush => exact (congrArg settings (flushedKept_flush k) :)
    | flushAck => exact (congrArg settings (flushKept_flushAck k) :)
    | retransmitSn sn => rfl
    | setMtu mtu => exact absurd rfl (hmtu mtu)
    | setNodelay nd interval resend nc => exact absurd rfl (hnodelay nd interval resend nc)
    | setWndsize sndwnd rcvwnd => rfl

/-- No call changes the conversation. -/
theorem conv_after (e : EngineEvent) : (k.after e).conv = k.conv := by
  cases e with
  | input buf => exact (congrArg Kcp.conv (inputKept_input k buf) :)
  | act a =>
    cases a with
    | send data =>
      change (k.sendOwned data).1.conv = k.conv
      rw [sendOwned_eq]
    | recv => exact (congrArg Kcp.conv (inputKept_recvPop k) :)
    | update current => exact conv_of_updateKept (updateKept_update k current)
    | flush => exact (congrArg Kcp.conv (flushedKept_flush k) :)
    | flushAck => exact (congrArg Kcp.conv (flushKept_flushAck k) :)
    | setMtu mtu =>
      change (k.setMtu mtu).conv = k.conv
      unfold setMtu
      simp only []
      split <;> rfl
    | retransmitSn | setNodelay | setWndsize => rfl

end Kcp

/-- A stream engine whose datagrams have room for a payload byte, and whose timers are set. -/
structure Configured (k : Kcp) : Prop where
  stream : k.flags.stream = true
  mtu : k.mtu = k.mss + kcpOverhead
  mss : 0 < k.mss
  interval : 10 ≤ k.interval ∧ k.interval ≤ 5000
  minrto : k.rxMinrto = kcpRtoNdl ∨ k.rxMinrto = kcpRtoMin
  deadLink : k.deadLink = kcpDeadlink
  fastlimit : k.fastlimit = kcpFastackLimit

namespace Configured

variable {k k' : Kcp}

theorem of_settings (h : Configured k) (hs : k'.settings = k.settings) : Configured k' := by
  simp only [Kcp.settings, Prod.mk.injEq] at hs
  obtain ⟨h1, h2, h3, h4, h5, h6, h7⟩ := hs
  exact ⟨h1.trans h.stream, by rw [h2, h3, h.mtu], by rw [h3]; exact h.mss,
    by rw [h4]; exact h.interval, by rw [h5]; exact h.minrto, h6.trans h.deadLink,
    h7.trans h.fastlimit⟩

theorem new (conv : U32) : Configured (newStream conv) :=
  ⟨rfl, rfl, show 0 < kcpMtuDef - kcpOverhead by decide,
    show 10 ≤ kcpInterval ∧ kcpInterval ≤ 5000 by decide, Or.inr rfl, rfl, rfl⟩

theorem setMtu (h : Configured k) (mtu : Nat) : Configured (k.setMtu mtu) := by
  unfold Kcp.setMtu
  simp only []
  split
  · refine ⟨h.stream, ?_, ?_, h.interval, h.minrto, h.deadLink, h.fastlimit⟩
    · change max mtu (kcpOverhead + 1) = max mtu (kcpOverhead + 1) - kcpOverhead + kcpOverhead
      omega
    · change 0 < max mtu (kcpOverhead + 1) - kcpOverhead
      omega
  · exact h

theorem setNodelay (h : Configured k) (nodelay : Bool) (interval resend : Int) (nc : Bool) :
    Configured (k.setNodelay nodelay interval resend nc) := by
  refine ⟨h.stream, h.mtu, h.mss, ?_, ?_, h.deadLink, h.fastlimit⟩
  · simp only [Kcp.setNodelay]
    split
    · decide
    · split
      · decide
      · obtain ⟨n, rfl⟩ := Int.eq_ofNat_of_zero_le (show 0 ≤ interval by omega)
        rw [BitVec.ofInt_natCast]
        bv_omega
  · cases nodelay
    · exact Or.inr rfl
    · exact Or.inl rfl

theorem after (h : Configured k) (e : EngineEvent) : Configured (k.after e) := by
  by_cases hmtu : ∃ mtu, e = .act (.setMtu mtu)
  · obtain ⟨mtu, rfl⟩ := hmtu
    exact h.setMtu mtu
  by_cases hnodelay : ∃ nd interval resend nc, e = .act (.setNodelay nd interval resend nc)
  · obtain ⟨nd, interval, resend, nc, rfl⟩ := hnodelay
    exact h.setNodelay nd interval resend nc
  exact h.of_settings (Kcp.settings_after k (fun mtu he => hmtu ⟨mtu, he⟩)
    fun nd interval resend nc he => hnodelay ⟨nd, interval, resend, nc, he⟩)

end Configured

/-- **Every reachable engine is configured.** -/
theorem engine_configured {k : Kcp} (h : engine.Reach k) : Configured k := by
  refine h.invariant ?_ ?_
  · rintro k ⟨conv, rfl⟩
    exact Configured.new conv
  · rintro k e k' hk rfl
    exact hk.after e

/-! ## 8. The window of a run, and what a flush takes in -/

/-- A run is a run of its segments. -/
theorem engine_sequenced {k : Kcp} (h : engine.Reach k) : ∃ p, sequenced.Reach ⟨k, p⟩ := by
  refine h.invariant (P := fun k => ∃ p, sequenced.Reach ⟨k, p⟩) ?_ ?_
  · rintro k ⟨conv, rfl⟩
    exact ⟨false, .init ⟨conv, true, 0, 0, rfl⟩⟩
  · rintro k e k' ⟨p, hp⟩ rfl
    cases e with
    | input buf => exact reach_input hp buf
    | act a => exact ⟨_, hp.step (a := .act a) rfl⟩

theorem engine_windowed {k : Kcp} (h : engine.Reach k) : Windowed k := by
  obtain ⟨p, hp⟩ := engine_sequenced h
  exact window_any_run hp

namespace Kcp

/-- What a fill does to a queued segment. -/
def numbered (k : Kcp) (wnd : U16) (nxt : U32) (seg : KcpSegment) : KcpSegment :=
  { seg with
    conv := k.conv, cmd := kcpCmdPush, wnd := wnd, ts := k.current, sn := nxt, una := k.rcvNxt
    resendts := k.current, rto := k.rxRto, fastack := 0, xmit := 0 }

/-- The queued segments under their numbers. -/
def numberFrom (k : Kcp) (wnd : U16) : U32 → List KcpSegment → List KcpSegment
  | _, [] => []
  | nxt, seg :: queue => k.numbered wnd nxt seg :: numberFrom k wnd (nxt + 1) queue

/-- **The fill**: the window says how many queued segments are numbered. -/
theorem fillLoop_eq (k : Kcp) (cwnd wnd : U16) (queue : List KcpSegment) (nxt : U32)
    (sndBuf : List KcpSegment) (hnxt : (nxt - k.sndUna).toNat ≤ 65535) :
    (k.fillLoop cwnd wnd queue nxt sndBuf).2.2 = sndBuf ++
      k.numberFrom wnd nxt (queue.take (cwnd.toNat - (nxt - k.sndUna).toNat)) := by
  have hcw := cwnd.isLt
  have hend : (k.sndUna + cwnd.setWidth 32 - k.sndUna).toNat = cwnd.toNat := by
    bv_omega
  induction queue generalizing nxt sndBuf with
  | nil => simp [fillLoop, numberFrom]
  | cons seg queue ih =>
    have hdiff := timediff_window (a := nxt) (b := k.sndUna + cwnd.setWidth 32) hnxt (by omega)
    rw [hend] at hdiff
    rw [fillLoop]
    by_cases hopen : timediff nxt (k.sndUna + cwnd.setWidth 32) < 0
    · have hstep : (nxt + 1 - k.sndUna).toNat = (nxt - k.sndUna).toNat + 1 := by
        bv_omega
      have htake : cwnd.toNat - (nxt - k.sndUna).toNat
          = (cwnd.toNat - (nxt + 1 - k.sndUna).toNat) + 1 := by
        omega
      rw [if_pos hopen, ih _ _ (by omega), htake, List.take_succ_cons, numberFrom,
        List.append_assoc]
      rfl
    · have htake : cwnd.toNat - (nxt - k.sndUna).toNat = 0 := by
        omega
      rw [if_neg hopen, htake, List.take_zero, numberFrom, List.append_nil]

/-- The queued segments that the window of a flush has room for. -/
def admitted (k : Kcp) : List KcpSegment :=
  k.sndQueue.take (k.flushWindow.toNat - (k.sndNxt - k.sndUna).toNat)

/-- What the walk of a flush finds in the send buffer. -/
theorem sndBuf_flushFill {k : Kcp} (h : Windowed k) : ∃ k' : Kcp, k'.current = k.current ∧
    k.flushFill.sndBuf = k.sndBuf ++ k'.numberFrom k.wndUnused k.sndNxt k.admitted := by
  have hsnd := (flushControl_frame k).1
  have hsame := SameWindow.of_snd hsnd
  have hqueue : k.flushControl.sndQueue = k.sndQueue := congrArg SndView.sndQueue hsnd
  have hbuf : k.flushControl.sndBuf = k.sndBuf := congrArg SndView.sndBuf hsnd
  refine ⟨k.flushControl, (congrArg Kcp.current (flushKept_flushControl k) :), ?_⟩
  have hfill : k.flushFill.sndBuf = _ := k.flushControl.fillLoop_eq k.flushControl.flushWindow
    k.wndUnused k.flushControl.sndQueue k.flushControl.sndNxt k.flushControl.sndBuf
    (hsame.windowed h).width
  rwa [flushWindow_flushControl, hqueue, hbuf, hsame.nxt, hsame.una] at hfill

/-- A segment that a walk sends: it is new, or timed out, or skipped by later acks. -/
def due (k : Kcp) (resent : U32) (seg : KcpSegment) : Bool :=
  seg.xmit = 0 ∨ 0 ≤ timediff k.current seg.resendts ∨
    resent ≤ seg.fastack ∧ (seg.xmit ≤ k.fastlimit ∨ k.fastlimit = 0)

theorem isSome_needSend (env : FlushEnv) (acc : FlushAcc) (seg : KcpSegment) :
    (needSend env acc seg).isSome = acc.kcp.due env.resent seg := by
  unfold needSend due
  simp only []
  split
  case isTrue h => exact (decide_eq_true (Or.inl h)).symm
  case isFalse hnew =>
    split
    case isTrue h => exact (decide_eq_true (Or.inr (Or.inl h))).symm
    case isFalse htime =>
      split
      case isTrue h => exact (decide_eq_true (Or.inr (Or.inr h))).symm
      case isFalse hfast =>
        refine (decide_eq_false ?_).symm
        rintro (h | h | h)
        · exact hnew h
        · exact htime h
        · exact hfast h

/-- The walk does not change what is due. -/
theorem due_of_kept {k k' : Kcp} (h : k'.flushKept = k.flushKept) : k'.due = k.due := by
  have hcur : k'.current = k.current := (congrArg Kcp.current h :)
  have hlimit : k'.fastlimit = k.fastlimit := (congrArg Kcp.fastlimit h :)
  funext resent seg
  rw [due, due, hcur, hlimit]

end Kcp

end Molehill
