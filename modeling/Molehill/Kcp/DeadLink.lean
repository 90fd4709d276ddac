/-
# When the engine gives its peer up

`flush` declares the session dead when it sends a segment for the `dead_link`-th time or later
and the send window "has stood still" past the grace.  Stillness is the age of `last_progress`,
and `last_progress` is stamped by one thing only, a cumulative acknowledgement that removes a
segment (`parse_una`).  It is not stamped when data enters an empty send buffer, nor when a
selective acknowledgement moves `snd_una`: after an idle gap longer than the grace the window
counts as still from the first flush on, and twenty transmissions of one segment (forced resends
count) end a session whose data has been outstanding for a moment (`dead_after_idle_gap`).

Time is the engine's own, the adapter's milliseconds as they are passed to `update`, unwrapped
(`clock`).  `since` is when the present stretch began, in which the send buffer has not been empty
and `snd_una` has not moved.  Where `last_progress` is not older than the stretch, the verdict is
right (`dead_only_after_grace`).
-/
import Molehill.Kcp.Delivery

namespace Molehill

open Lib

/-! ## 1. The engine under watch -/

/-- An engine, the time, and what the claim about its verdict speaks of. -/
structure Watched where
  kcp : Kcp
  clock : Nat
  /-- When the send buffer was last empty, or `snd_una` last moved. -/
  since : Nat
  /-- The longest the window has stood still with data outstanding. -/
  longest : Nat
  /-- For each flush that declared the session dead, how long it had. -/
  verdicts : List Nat
  deriving DecidableEq

inductive WatchedEvent
  /-- The adapter updates the engine at this time. -/
  | update (now : Nat)
  | flush
  /-- A datagram, of the peer or not. -/
  | input (bytes : Bytes)
  /-- Anything else the adapter does: `Action` has `update` and `flush` too, which are the two
  events above. -/
  | act (a : Action)

namespace Watched

def new (conv : U32) : Watched := ⟨newStream conv, 0, 0, 0, []⟩

/-- An engine call made at a time. -/
def book (s : Watched) (now : Nat) (k : Kcp) : Watched :=
  let since := if s.kcp.sndBuf = [] ∨ k.sndUna ≠ s.kcp.sndUna then now else s.since
  { kcp := k
    clock := now
    since := since
    longest := max s.longest (now - since)
    verdicts := if k.state ≠ s.kcp.state then s.verdicts ++ [now - since] else s.verdicts }

def step (s : Watched) : WatchedEvent → Option Watched
  | .update now =>
    if s.clock ≤ now then some (s.book now (s.kcp.update (BitVec.ofNat 32 now)).1) else none
  | .flush => some (s.book s.clock s.kcp.flush.1)
  | .input bytes => some (s.book s.clock (s.kcp.input bytes).1)
  | .act (.update _) | .act .flush => none
  | .act a => some (s.book s.clock (a.run s.kcp).1)

end Watched

/-- An engine, its adapter and any peer. -/
def watched : Lts Watched WatchedEvent where
  init s := ∃ conv, s = .new conv
  step s e s' := s.step e = some s'

/-- The verdict is sound: it fell only after more than the grace of standing still, and so never
on a session that never stood still that long. -/
def Watched.DeadSoundly (s : Watched) : Prop :=
  (∀ d ∈ s.verdicts, kcpDeadGraceMs < d) ∧
    ((s.longest : Int) ≤ kcpDeadGraceMs → s.kcp.state = 0)

/-- The age of `last_progress` by the engine's clock. -/
def Kcp.progressAge (k : Kcp) : Nat := (k.current - k.lastProgress).toNat

/-- Some segment has been sent so often that one more time is the `dead_link`-th. -/
def Kcp.NearDeadLink (k : Kcp) : Prop := ∃ seg ∈ k.sndBuf, kcpDeadlink.toNat ≤ seg.xmit.toNat + 1

/-- Whether `update` flushes at this time. -/
def Kcp.flushesAt (k : Kcp) (current : U32) : Bool :=
  let k := ({ k with current := current }).markUpdated
  k.clockJumped || 0 ≤ timediff k.current k.tsFlush

/-- `last_progress` is not older than the stretch of outstanding data the flush looks at. -/
def Watched.StampCurrent (s : Watched) : WatchedEvent → Prop
  | .update now =>
    s.kcp.flushesAt (BitVec.ofNat 32 now) = true → s.kcp.NearDeadLink →
      ({ s.kcp with current := BitVec.ofNat 32 now } : Kcp).progressAge ≤ now - s.since
  | .flush => s.kcp.NearDeadLink → s.kcp.progressAge ≤ s.clock - s.since
  | _ => True

/-! ## 2. What decides the verdict -/

/-- What `flush` reads for its verdict, and the verdict. -/
structure FateView where
  state : Int
  deadLink : U32
  current : U32
  lastProgress : U32

namespace Kcp

def fate (k : Kcp) : FateView := ⟨k.state, k.deadLink, k.current, k.lastProgress⟩

section Flush

variable (k : Kcp)

@[simp] theorem fate_writeBuf : k.writeBuf.fate = k.fate := by
  unfold writeBuf; split <;> rfl

@[simp] theorem fate_roomFor (need : Nat) : (k.roomFor need).fate = k.fate := by
  unfold roomFor
  split
  · exact fate_writeBuf k
  · rfl

@[simp] theorem fate_stage (seg : KcpSegment) : (k.stage seg).fate = k.fate := rfl

theorem fate_flushAckLoop : ∀ (acks : List (U32 × U32)) (k : Kcp) (segment : KcpSegment),
    (flushAckLoop acks k segment).1.fate = k.fate
  | [], _, _ => rfl
  | (sn, ts) :: acks, k, segment => by
    rw [flushAckLoop, fate_flushAckLoop acks, fate_stage, fate_roomFor]

theorem fate_flushAckInner (segment : KcpSegment) :
    (k.flushAckInner segment).1.fate = k.fate := fate_flushAckLoop k.acklist k segment

theorem fate_armProbe (wait : U32) : (k.armProbe wait).fate = k.fate := rfl

theorem fate_probeWndSize : k.probeWndSize.fate = k.fate := by
  unfold probeWndSize
  split
  · split
    · exact fate_armProbe k kcpProbeInit
    · split
      · exact fate_armProbe k (nextProbeWait k.probeWait)
      · rfl
  · rfl

theorem fate_flushProbe (ask : U32) (cmd : Byte) (r : Kcp × KcpSegment) :
    (flushProbe ask cmd r).1.fate = r.1.fate := by
  unfold flushProbe
  split
  · exact fate_roomFor r.1 kcpOverhead
  · rfl

theorem fate_flushControl : k.flushControl.fate = k.fate := by
  have h1 := fate_flushAckInner k k.ackSegment
  have h2 := fate_probeWndSize (k.flushAckInner k.ackSegment).1
  have h3 := fate_flushProbe kcpAskSend kcpCmdWask
    ((k.flushAckInner k.ackSegment).1.probeWndSize, (k.flushAckInner k.ackSegment).2)
  have h4 := fate_flushProbe kcpAskTell kcpCmdWins (flushProbe kcpAskSend kcpCmdWask
    ((k.flushAckInner k.ackSegment).1.probeWndSize, (k.flushAckInner k.ackSegment).2))
  exact h4.trans (h3.trans (h2.trans h1))

theorem fate_flushFill : k.flushFill.fate = k.fate := fate_flushControl k

theorem fate_emitSegment (seg : KcpSegment) : (k.emitSegment seg).fate = k.fate := by
  unfold emitSegment
  split
  · rfl
  · exact fate_roomFor k _

theorem fate_updateSsthresh (change resent : U32) (lost : Bool) (priorCwnd : U16) :
    (k.updateSsthresh change resent lost priorCwnd).fate = k.fate := by
  have h1 : (k.ssthreshAfterFast change resent).fate = k.fate := by
    unfold ssthreshAfterFast; split <;> rfl
  have h2 : ((k.ssthreshAfterFast change resent).ssthreshAfterLoss lost priorCwnd).fate =
      (k.ssthreshAfterFast change resent).fate := by
    unfold ssthreshAfterLoss; split <;> rfl
  have h3 : (k.updateSsthresh change resent lost priorCwnd).fate =
      ((k.ssthreshAfterFast change resent).ssthreshAfterLoss lost priorCwnd).fate := by
    unfold updateSsthresh cwndFloor; split <;> rfl
  exact h3.trans (h2.trans h1)

end Flush

/-! ## 3. The walk -/

/-- A segment that is sent is counted, and nothing else about the verdict changes. -/
theorem needSend_fate {env : FlushEnv} {acc acc' : FlushAcc} {seg seg' : KcpSegment}
    (h : needSend env acc seg = some (acc', seg')) :
    acc'.kcp.fate = acc.kcp.fate ∧ seg'.xmit = seg.xmit + 1 := by
  unfold needSend at h
  dsimp only at h
  split at h
  · cases h
    exact ⟨rfl, rfl⟩
  · split at h
    · cases h
      exact ⟨rfl, rfl⟩
    · split at h
      · cases h
        exact ⟨rfl, rfl⟩
      · cases h

/-- One segment: the verdict is the old one, or falls because of this segment. -/
theorem flushSegment_fate (env : FlushEnv) (acc : FlushAcc) (seg : KcpSegment) :
    (flushSegment env acc seg).1.kcp.deadLink = acc.kcp.deadLink ∧
      ((flushSegment env acc seg).1.kcp.state = acc.kcp.state ∨
        env.windowStill = true ∧ acc.kcp.deadLink ≤ seg.xmit + 1) := by
  unfold flushSegment
  split
  case h_1 => exact ⟨rfl, Or.inl rfl⟩
  case h_2 acc' seg' hsome =>
    obtain ⟨hfate, hxmit⟩ := needSend_fate hsome
    dsimp only
    set sent : KcpSegment :=
      { seg' with ts := acc'.kcp.current, wnd := env.wnd, una := acc'.kcp.rcvNxt }
    have hemit : (acc'.kcp.emitSegment sent).fate = acc.kcp.fate :=
      (fate_emitSegment acc'.kcp sent).trans hfate
    have hstate : (acc'.kcp.emitSegment sent).state = acc.kcp.state := congrArg FateView.state hemit
    have hlink : (acc'.kcp.emitSegment sent).deadLink = acc.kcp.deadLink :=
      congrArg FateView.deadLink hemit
    unfold noteDead
    split
    case isTrue hgone =>
      refine ⟨hlink, Or.inr ?_⟩
      have hgone := of_decide_eq_true hgone
      rw [hlink] at hgone
      exact ⟨hgone.2, by rw [← hxmit]; exact hgone.1⟩
    case isFalse => exact ⟨hlink, Or.inl hstate⟩

/-- The walk: a new verdict falls because of some segment. -/
theorem flushLoop_fate (env : FlushEnv) (segs : List KcpSegment) (acc : FlushAcc) :
    (flushLoop env acc segs).1.kcp.deadLink = acc.kcp.deadLink ∧
      ((flushLoop env acc segs).1.kcp.state = acc.kcp.state ∨
        env.windowStill = true ∧ ∃ seg ∈ segs, acc.kcp.deadLink ≤ seg.xmit + 1) := by
  induction segs generalizing acc with
  | nil => exact ⟨rfl, Or.inl rfl⟩
  | cons seg rest ih =>
    rw [flushLoop]
    obtain ⟨hlink, hseg⟩ := flushSegment_fate env acc seg
    obtain ⟨hlink', hrest⟩ := ih (flushSegment env acc seg).1
    refine ⟨hlink'.trans hlink, ?_⟩
    obtain hrest | ⟨hstill, seg', hmem, hle⟩ := hrest
    · obtain hseg | ⟨hstill, hle⟩ := hseg
      · exact Or.inl (hrest.trans hseg)
      · exact Or.inr ⟨hstill, seg, List.mem_cons_self, hle⟩
    · rw [hlink] at hle
      exact Or.inr ⟨hstill, seg', List.mem_cons_of_mem _ hmem, hle⟩

/-- Segments that enter the send buffer have not been sent. -/
theorem fillLoop_xmit (k : Kcp) (cwnd wnd : U16) (queue : List KcpSegment) (nxt : U32)
    (sndBuf : List KcpSegment) :
    ∀ seg ∈ (k.fillLoop cwnd wnd queue nxt sndBuf).2.2, seg ∈ sndBuf ∨ seg.xmit = 0 := by
  induction queue generalizing nxt sndBuf with
  | nil => exact fun seg hmem => Or.inl hmem
  | cons next queue ih =>
    rw [fillLoop]
    split
    case isFalse => exact fun seg hmem => Or.inl hmem
    case isTrue =>
      intro seg hmem
      obtain hmem | hzero := ih _ _ seg hmem
      · obtain hmem | hmem := List.mem_append.mp hmem
        · exact Or.inl hmem
        · rw [List.mem_singleton.mp hmem]
          exact Or.inr rfl
      · exact Or.inr hzero

/-- **What a flush needs for its verdict**: a segment of the send buffer that has been sent
`dead_link - 1` times, and a `last_progress` older than the grace. -/
theorem flush_fate {k : Kcp} (hlink : k.deadLink = kcpDeadlink) :
    k.flush.1.deadLink = kcpDeadlink ∧
      (k.flush.1.state = k.state ∨ k.NearDeadLink ∧ kcpDeadGraceMs < k.progressAge) := by
  unfold flush
  split
  case isTrue => exact ⟨hlink, Or.inl rfl⟩
  case isFalse =>
    dsimp only
    have hfill := fate_flushFill k
    have hfillLink : k.flushFill.deadLink = kcpDeadlink :=
      (congrArg FateView.deadLink hfill).trans hlink
    set env := k.flushFill.flushEnv k.wndUnused
    set r := flushLoop env { kcp := k.flushFill } k.flushFill.sndBuf
    obtain ⟨hl, hs⟩ := flushLoop_fate env k.flushFill.sndBuf { kcp := k.flushFill }
    have hend : (({ r.1.kcp with sndBuf := r.2 } : Kcp).writeBuf.updateSsthresh r.1.change
        env.resent r.1.lost k.cwnd).fate = r.1.kcp.fate :=
      (fate_updateSsthresh _ _ _ _ _).trans (fate_writeBuf _)
    refine ⟨(congrArg FateView.deadLink hend).trans (hl.trans hfillLink), ?_⟩
    obtain hs | ⟨hstill, seg, hmem, hle⟩ := hs
    · exact Or.inl
        ((congrArg FateView.state hend).trans (hs.trans (congrArg FateView.state hfill)))
    · refine Or.inr ⟨?_, ?_⟩
      · have hle : kcpDeadlink ≤ seg.xmit + 1 := by
          rw [← hfillLink]
          exact hle
        have hnat : kcpDeadlink.toNat ≤ (seg.xmit.toNat + 1) % 2 ^ 32 := by
          have := BitVec.le_def.mp hle
          rwa [BitVec.toNat_add] at this
        have hlink20 : kcpDeadlink.toNat = 20 := rfl
        have hmod : (seg.xmit.toNat + 1) % 2 ^ 32 ≤ seg.xmit.toNat + 1 := Nat.mod_le _ _
        obtain hold | hzero := fillLoop_xmit _ _ _ _ _ _ seg hmem
        · rw [show k.flushControl.sndBuf = k.sndBuf from
            congrArg SndView.sndBuf (flushControl_frame k).1] at hold
          exact ⟨seg, hold, by omega⟩
        · rw [hzero] at hnat
          exact absurd hnat (by decide)
      · have hstill : kcpDeadGraceMs < timediff k.flushFill.current k.flushFill.lastProgress :=
          of_decide_eq_true hstill
        rw [show k.flushFill.current = k.current from congrArg FateView.current hfill,
          show k.flushFill.lastProgress = k.lastProgress from
            congrArg FateView.lastProgress hfill] at hstill
        have hle : timediff k.current k.lastProgress
            ≤ ((k.current - k.lastProgress).toNat : Int) := by
          rw [timediff, seqDiff, BitVec.toInt_eq_toNat_cond]
          split <;> omega
        exact Int.lt_of_lt_of_le hstill hle

/-! ## 4. Nothing else gives a verdict -/

/-- The verdict and its threshold. -/
def Undecided (k k' : Kcp) : Prop := k'.state = k.state ∧ k'.deadLink = k.deadLink

theorem Undecided.trans {k k' k'' : Kcp} (h : Undecided k k') (h' : Undecided k' k'') :
    Undecided k k'' := ⟨h'.1.trans h.1, h'.2.trans h.2⟩

section Input

variable (k : Kcp)

theorem undecided_inputHead (head : SegHead) : Undecided k (k.inputHead head) := ⟨rfl, rfl⟩

theorem undecided_parseAck (sn : U32) : Undecided k (k.parseAck sn) := by
  unfold parseAck
  split <;> exact ⟨rfl, rfl⟩

theorem undecided_sampleRtt (ts : U32) : Undecided k (k.sampleRtt ts) := by
  unfold sampleRtt
  split <;> exact ⟨rfl, rfl⟩

theorem undecided_inputAck (head : SegHead) : Undecided k (k.inputAck head) :=
  (undecided_sampleRtt k head.ts).trans (undecided_parseAck (k.sampleRtt head.ts) head.sn)

theorem undecided_parseData (seg : KcpSegment) : Undecided k (k.parseData seg) := by
  unfold parseData
  split
  · exact ⟨rfl, rfl⟩
  · have hins : Undecided k (k.insertSegment seg) := by
      unfold insertSegment
      split <;> exact ⟨rfl, rfl⟩
    exact hins

theorem undecided_acceptPush (head : SegHead) (buf : Bytes) :
    Undecided k (k.acceptPush head buf).1 := by
  unfold acceptPush
  dsimp only
  split
  · exact ⟨rfl, rfl⟩
  · split
    · exact ⟨rfl, rfl⟩
    · split
      · exact ⟨rfl, rfl⟩
      · exact undecided_parseData (k.ackPush head.sn head.ts) _

theorem undecided_inputSegment (acks : AckRun) (head : SegHead) (buf : Bytes) :
    Undecided k (k.inputSegment acks head buf).1 := by
  have hhead := undecided_inputHead k head
  unfold inputSegment
  split
  · exact hhead.trans (undecided_inputAck (k.inputHead head) head)
  · split
    · have hpush := hhead.trans (undecided_acceptPush (k.inputHead head) head buf)
      split <;> (rename_i hr; rw [hr] at hpush; exact hpush)
    · split
      · exact hhead
      · exact hhead

theorem undecided_inputEnd (acks : AckRun) (una : U32) : Undecided k (k.inputEnd acks una) := by
  have hcwnd : ∀ k' : Kcp, Undecided k' (k'.updateCwndAfterAcks una) := by
    intro k'
    unfold updateCwndAfterAcks
    split
    · exact ⟨rfl, rfl⟩
    · split <;> exact ⟨rfl, rfl⟩
  unfold inputEnd
  split
  · have hfast : Undecided k (k.parseFastack acks.maxAck acks.latestTs) := by
      unfold parseFastack
      split <;> exact ⟨rfl, rfl⟩
    exact hfast.trans (hcwnd _)
  · exact hcwnd k

theorem undecided_input (buf : Bytes) : Undecided k (k.input buf).1 := by
  have hloop := inputLoop_inv (P := fun k' => Undecided k k')
    (fun k' acks head rest h => h.trans (undecided_inputSegment k' acks head rest))
    buf.length k {} buf ⟨rfl, rfl⟩
  unfold input
  split
  · exact ⟨rfl, rfl⟩
  · split
    · rename_i hr
      rw [hr] at hloop
      exact hloop
    · rename_i k' acks rest hr
      rw [hr] at hloop
      exact hloop.trans (undecided_inputEnd k' acks k.sndUna)

/-- What the adapter does besides `update` and `flush`. -/
theorem undecided_run (a : Action) (hu : ∀ current, a ≠ .update current) (hf : a ≠ .flush) :
    Undecided k (a.run k).1 := by
  cases a with
  | send data =>
    simp only [Action.run, sendOwned]
    split
    · exact ⟨rfl, rfl⟩
    · split
      · split <;> exact ⟨rfl, rfl⟩
      · exact ⟨rfl, rfl⟩
  | recv =>
    simp only [Action.run, recvPop]
    split
    · exact ⟨rfl, rfl⟩
    · split
      · exact ⟨rfl, rfl⟩
      · unfold fastRecover
        split <;> exact ⟨rfl, rfl⟩
  | update current => exact absurd rfl (hu current)
  | flush => exact absurd rfl hf
  | flushAck =>
    simp only [Action.run, flushAck]
    split
    · exact ⟨rfl, rfl⟩
    · have hfate := fate_flushAckInner k k.ackSegment
      exact ⟨congrArg FateView.state hfate, congrArg FateView.deadLink hfate⟩
  | retransmitSn sn => exact ⟨rfl, rfl⟩
  | setMtu mtu =>
    simp only [Action.run, setMtu]
    split <;> exact ⟨rfl, rfl⟩
  | setNodelay nodelay interval resend nc => exact ⟨rfl, rfl⟩
  | setWndsize sndwnd rcvwnd => exact ⟨rfl, rfl⟩

end Input

/-- `update` sets the clock and flushes, or not. -/
theorem update_fate {k : Kcp} (hlink : k.deadLink = kcpDeadlink) (current : U32) :
    (k.update current).1.deadLink = kcpDeadlink ∧
      ((k.update current).1.state = k.state ∨
        k.flushesAt current = true ∧ k.NearDeadLink ∧
          kcpDeadGraceMs < ({ k with current := current } : Kcp).progressAge) := by
  have hmark : ({ k with current := current } : Kcp).markUpdated.fate =
      ({ k with current := current } : Kcp).fate := by
    unfold markUpdated
    split <;> rfl
  have hbuf : ({ k with current := current } : Kcp).markUpdated.sndBuf = k.sndBuf :=
    congrArg SndView.sndBuf (markUpdated_frame { k with current := current }).1
  set m := ({ k with current := current } : Kcp).markUpdated
  -- whichever flush time is set, the flush sees the same send buffer and clock
  have hflush : ∀ m' : Kcp, m'.fate = m.fate → m'.sndBuf = m.sndBuf →
      m'.flush.1.deadLink = kcpDeadlink ∧ (m'.flush.1.state = k.state ∨
        k.NearDeadLink ∧ kcpDeadGraceMs < ({ k with current := current } : Kcp).progressAge) := by
    intro m' hm hb
    have hfate := hm.trans hmark
    obtain ⟨hl, hs⟩ := flush_fate ((congrArg FateView.deadLink hfate).trans hlink)
    refine ⟨hl, ?_⟩
    obtain hs | ⟨⟨seg, hmem, hle⟩, hage⟩ := hs
    · exact Or.inl (hs.trans (congrArg FateView.state hfate))
    · refine Or.inr ⟨⟨seg, ?_, hle⟩, ?_⟩
      · rw [← hbuf, ← hb]
        exact hmem
      · rw [progressAge, show m'.current = current from congrArg FateView.current hfate,
          show m'.lastProgress = k.lastProgress from congrArg FateView.lastProgress hfate] at hage
        exact hage
  have hflushes : ∀ m' : Kcp, m'.fate = m.fate → m'.sndBuf = m.sndBuf →
      (m.clockJumped || 0 ≤ timediff m.current m.tsFlush) = true →
      m'.flush.1.deadLink = kcpDeadlink ∧ (m'.flush.1.state = k.state ∨
        k.flushesAt current = true ∧ k.NearDeadLink ∧
          kcpDeadGraceMs < ({ k with current := current } : Kcp).progressAge) := by
    intro m' hm hb hat
    obtain ⟨hl, hs⟩ := hflush m' hm hb
    exact ⟨hl, hs.imp_right fun h => ⟨hat, h⟩⟩
  unfold update
  dsimp only
  split
  case isTrue hjump => exact hflushes _ rfl rfl (Bool.or_eq_true_iff.mpr (.inl hjump))
  case isFalse =>
    split
    case isTrue hdue =>
      exact hflushes _ rfl rfl (Bool.or_eq_true_iff.mpr (.inr (decide_eq_true hdue)))
    case isFalse =>
      exact ⟨(congrArg FateView.deadLink hmark).trans hlink,
        Or.inl (congrArg FateView.state hmark)⟩

/-- A flush does not move `snd_una`. -/
theorem flush_sndUna (k : Kcp) : k.flush.1.sndUna = k.sndUna := by
  unfold flush
  split
  · rfl
  · dsimp only
    set env := k.flushFill.flushEnv k.wndUnused
    set r := flushLoop env { kcp := k.flushFill } k.flushFill.sndBuf
    have hloop : r.1.kcp.sndUna = k.flushFill.sndUna :=
      congrArg SndView.sndUna (flushLoop_frame env _ _).1
    have hfill : k.flushFill.sndUna = k.sndUna :=
      congrArg SndView.sndUna (flushControl_frame k).1
    have hend := congrArg SndView.sndUna
      ((updateSsthresh_frame ({ r.1.kcp with sndBuf := r.2 } : Kcp).writeBuf r.1.change env.resent
        r.1.lost k.cwnd).1.trans (writeBuf_frame { r.1.kcp with sndBuf := r.2 }).1)
    exact hend.trans (hloop.trans hfill)

theorem update_sndUna (k : Kcp) (current : U32) : (k.update current).1.sndUna = k.sndUna := by
  have hmark : ({ k with current := current } : Kcp).markUpdated.sndUna = k.sndUna :=
    congrArg SndView.sndUna (markUpdated_frame { k with current := current }).1
  unfold update
  dsimp only
  split
  · exact (flush_sndUna _).trans hmark
  · split
    · exact (flush_sndUna _).trans hmark
    · exact hmark

end Kcp

/-! ## 5. Over a run -/

/-- The invariant: every verdict was sound, and there is one if the session is dead. -/
structure Watched.Sound (s : Watched) : Prop where
  link : s.kcp.deadLink = kcpDeadlink
  late : ∀ d ∈ s.verdicts, kcpDeadGraceMs < d
  dead : s.kcp.state ≠ 0 → ∃ d ∈ s.verdicts, d ≤ s.longest

namespace Watched.Sound

variable {s : Watched}

theorem new (conv : U32) : (Watched.new conv).Sound where
  link := rfl
  late := by rintro d ⟨⟩
  dead := fun h => absurd rfl h

/-- An engine call that gave no verdict. -/
theorem quiet (h : s.Sound) {k : Kcp} (hk : Kcp.Undecided s.kcp k) (now : Nat) :
    (s.book now k).Sound := by
  have hverdicts : (s.book now k).verdicts = s.verdicts := if_neg fun hne => hne hk.1
  refine ⟨hk.2.trans h.link, ?_, ?_⟩
  · rw [hverdicts]
    exact h.late
  · intro hdead
    obtain ⟨d, hd, hle⟩ := h.dead (by rw [← hk.1]; exact hdead)
    rw [hverdicts]
    exact ⟨d, hd, le_trans hle (le_max_left _ _)⟩

/-- An engine call that gave a verdict, with the window still for longer than the grace. -/
theorem verdict (h : s.Sound) {k : Kcp} (hlink : k.deadLink = kcpDeadlink) {now : Nat}
    (hlate : kcpDeadGraceMs < (now - s.since : Nat)) (hbuf : s.kcp.sndBuf ≠ [])
    (huna : k.sndUna = s.kcp.sndUna) : (s.book now k).Sound := by
  have hsince : (s.book now k).since = s.since := if_neg (by simp [hbuf, huna])
  have hlongest : now - s.since ≤ (s.book now k).longest := by
    rw [← hsince]
    exact le_max_right _ _
  by_cases hstate : k.state = s.kcp.state
  · have hverdicts : (s.book now k).verdicts = s.verdicts := if_neg fun hne => hne hstate
    refine ⟨hlink, by rw [hverdicts]; exact h.late, ?_⟩
    intro hdead
    obtain ⟨d, hd, hle⟩ := h.dead (by rw [← hstate]; exact hdead)
    rw [hverdicts]
    exact ⟨d, hd, le_trans hle (le_max_left _ _)⟩
  · have hverdicts : (s.book now k).verdicts = s.verdicts ++ [now - s.since] := by
      rw [← hsince]
      exact if_pos hstate
    refine ⟨hlink, ?_, ?_⟩
    · intro d hd
      rw [hverdicts] at hd
      obtain hd | hd := List.mem_append.mp hd
      · exact h.late d hd
      · rw [List.mem_singleton.mp hd]
        exact hlate
    · intro _
      rw [hverdicts]
      exact ⟨now - s.since, List.mem_append_right _ List.mem_cons_self, hlongest⟩

/-- A step at which `last_progress` is current. -/
theorem step (h : s.Sound) {e : WatchedEvent} {s' : Watched} (hc : s.StampCurrent e)
    (hs : s.step e = some s') : s'.Sound := by
  cases e with
  | update now =>
    simp only [Watched.step] at hs
    split at hs
    case isFalse => cases hs
    case isTrue =>
      cases hs
      obtain ⟨hlink, hquiet | ⟨hflushes, hnear, hage⟩⟩ :=
        Kcp.update_fate h.link (BitVec.ofNat 32 now)
      · exact h.quiet ⟨hquiet, hlink.trans h.link.symm⟩ now
      · have hlate := Int.lt_of_lt_of_le hage (Int.ofNat_le.mpr (hc hflushes hnear))
        obtain ⟨seg, hmem, -⟩ := hnear
        exact h.verdict hlink hlate (List.ne_nil_of_mem hmem) (Kcp.update_sndUna s.kcp _)
  | flush =>
    cases hs
    obtain ⟨hlink, hquiet | ⟨hnear, hage⟩⟩ := Kcp.flush_fate h.link
    · exact h.quiet ⟨hquiet, hlink.trans h.link.symm⟩ s.clock
    · have hlate := Int.lt_of_lt_of_le hage (Int.ofNat_le.mpr (hc hnear))
      obtain ⟨seg, hmem, -⟩ := hnear
      exact h.verdict hlink hlate (List.ne_nil_of_mem hmem) (Kcp.flush_sndUna s.kcp)
  | input bytes =>
    cases hs
    exact h.quiet (Kcp.undecided_input s.kcp bytes) s.clock
  | act a =>
    cases a with
    | update current => cases hs
    | flush => cases hs
    | _ =>
      cases hs
      exact h.quiet (Kcp.undecided_run s.kcp _ (by rintro c ⟨⟩) (by rintro ⟨⟩)) s.clock

end Watched.Sound

/-- **A session is given up only after its window has stood still with data outstanding for more
than the grace**, in every run in which no flush that could give the verdict finds a
`last_progress` older than the stretch of outstanding data. -/
theorem dead_only_after_grace {s : Watched}
    (h : (watched.restrict Watched.StampCurrent).Reach s) : s.DeadSoundly := by
  have hsound : s.Sound := by
    refine h.invariant ?_ ?_
    · rintro s ⟨conv, rfl⟩
      exact Watched.Sound.new conv
    · rintro s e s' hs ⟨hc, hstep⟩
      exact hs.step hc hstep
  refine ⟨hsound.late, fun hlong => ?_⟩
  by_contra hdead
  obtain ⟨d, hd, hle⟩ := hsound.dead hdead
  have hlate := hsound.late d hd
  omega

/-! ## 6. Runs -/

/-- A byte is sent at `start`, and its segment is asked for again and resent `n` times, `gap`
apart. -/
def resends (start gap n : Nat) : List WatchedEvent :=
  [.act (.setNodelay true 10 2 true), .update 0, .update start, .act (.send [1]), .flush] ++
    (List.range n).flatMap fun i =>
      [.act (.retransmitSn 0), .update (start + (i + 1) * gap)]

/-- The check of a step of the witness: `last_progress` is current whatever was sent. -/
def isStampCurrent (s : Watched) : WatchedEvent → Bool
  | .update now =>
    ({ s.kcp with current := BitVec.ofNat 32 now } : Kcp).progressAge ≤ now - s.since
  | .flush => s.kcp.progressAge ≤ s.clock - s.since
  | _ => true

theorem stampCurrent_of_isStampCurrent (s : Watched) (e : WatchedEvent)
    (h : isStampCurrent s e = true) : s.StampCurrent e := by
  cases e with
  | update now =>
    simp only [isStampCurrent, decide_eq_true_eq] at h
    exact fun _ _ => h
  | flush =>
    simp only [isStampCurrent, decide_eq_true_eq] at h
    exact fun _ => h
  | _ => trivial

/-- A peer that is gone from the start: the session is given up after 5.7 seconds. -/
theorem dead_only_after_grace_gone :
    ∃ s, (watched.restrict Watched.StampCurrent).Reach s ∧ s.kcp.state = -1 ∧
      s.verdicts = [5700] ∧ s.DeadSoundly := by
  have hrun : (Lts.runWith Watched.step isStampCurrent (.new 7) (resends 0 300 19)).any
      (fun s => decide (s.kcp.state = -1 ∧ s.verdicts = [5700])) = true := by
    decide +kernel
  obtain ⟨s, hs, hend⟩ := (Option.any_eq_true ..).mp hrun
  have hreach : (watched.restrict Watched.StampCurrent).Reach s :=
    Lts.Reach.runWith (fun _ _ _ h => h) stampCurrent_of_isStampCurrent
      (Lts.Reach.init ⟨7, rfl⟩) hs
  obtain ⟨hdead, hv⟩ := of_decide_eq_true hend
  exact ⟨s, hreach, hdead, hv, dead_only_after_grace hreach⟩

/-- **An idle gap longer than the grace makes the first burst fatal.**  The session is idle for
six seconds; then one segment is sent, and asked for again every 100 ms by a peer that is alive:
1.9 seconds later the session is given up. -/
theorem dead_after_idle_gap :
    ∃ s, watched.Reach s ∧ s.kcp.state = -1 ∧ s.verdicts = [1900] ∧ s.longest = 1900 ∧
      ¬ s.DeadSoundly := by
  have hrun : (Lts.runWith Watched.step (fun _ _ => true) (.new 7) (resends 6000 100 19)).any
      (fun s => decide (s.kcp.state = -1 ∧ s.verdicts = [1900] ∧ s.longest = 1900)) = true := by
    decide +kernel
  obtain ⟨s, hs, hend⟩ := (Option.any_eq_true ..).mp hrun
  have hreach : (watched.restrict fun _ _ => True).Reach s :=
    Lts.Reach.runWith (fun _ _ _ h => h) (fun _ _ _ => trivial) (Lts.Reach.init ⟨7, rfl⟩) hs
  obtain ⟨hdead, hv, hlong⟩ := of_decide_eq_true hend
  refine ⟨s, hreach.of_restrict, hdead, hv, hlong, ?_⟩
  rintro ⟨hlate, -⟩
  have hmem : 1900 ∈ s.verdicts := by rw [hv]; exact List.mem_cons_self
  exact absurd (hlate 1900 hmem) (by decide)

end Molehill
