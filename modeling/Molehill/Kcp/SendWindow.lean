/-
# The send window over the whole sequence space

The sequence numbers of a conversation wrap after 2^32 segments.  Most of the engine compares them
by `timediff`, which does not mind; `parse_ack` compares them as plain numbers, and the sums that
bound the two windows and the counters' own steps are plain sums, which a checked build refuses
when they pass the word (`Kcp.flushChecks`, `Kcp.segmentChecks`, `Kcp.recvChecks`).

The system starts at any numbers and takes any calls and any segments; a datagram is a run of
segments (`reach_input`).

* `window_any_run`: the send buffer is in order inside `[snd_una, snd_nxt)`, and `parse_una` removes
  exactly the segments before `una`, in every run;
* `send_window`: in a run in which no window's upper end passes 2^32, nothing overflows and
  `parse_ack` removes exactly the acknowledged segment; a step whose window does so panics;
* `send_window_wraps`: a run in which it does, and an ack that finds its segment and leaves it.
-/
import Molehill.Kcp.RecvPipeline

namespace Molehill

open Lib

/-! ## 1. What a checked build refuses -/

/-- A sum of two words does not overflow. -/
def sumFits (a b : U32) : Bool := a.toNat + b.toNat < 2 ^ 32

/-- The end of a window fits. -/
theorem sumFits_wnd (a : U32) (wnd : U16) :
    sumFits a (wnd.setWidth 32) = decide (a.toNat + wnd.toNat < 2 ^ 32) := by
  have hset : (wnd.setWidth 32 : U32).toNat = wnd.toNat := by
    rw [BitVec.toNat_setWidth]
    exact Nat.mod_eq_of_lt (Nat.lt_trans wnd.isLt (by decide))
  rw [sumFits, hset]

namespace Kcp

/-- The sums of `fill_snd_buf`: the end of the window, at every test of the loop, and `snd_nxt`. -/
def fillChecks (k : Kcp) (cwnd : U16) : List KcpSegment → U32 → Bool
  | [], _ => sumFits k.sndUna (cwnd.setWidth 32)
  | _ :: queue, nxt =>
    sumFits k.sndUna (cwnd.setWidth 32) &&
      (if timediff nxt (k.sndUna + cwnd.setWidth 32) < 0 then
        sumFits nxt 1 && k.fillChecks cwnd queue (nxt + 1)
      else true)

/-- `flush`: the fill, and the in-flight count of `update_ssthresh`. -/
def flushChecks (k : Kcp) : Bool :=
  !k.flags.updated ||
    (k.flushControl.fillChecks k.flushControl.flushWindow k.flushControl.sndQueue
        k.flushControl.sndNxt &&
      let walk := flushLoop (k.flushFill.flushEnv k.wndUnused) { kcp := k.flushFill }
        k.flushFill.sndBuf
      (!decide (0 < walk.1.change) || decide (walk.1.kcp.sndUna ≤ walk.1.kcp.sndNxt)))

/-- The engine `update` hands to `flush`, if it does. -/
def updateFlushes (k : Kcp) (current : U32) : Option Kcp :=
  let k := ({ k with current := current }).markUpdated
  if k.clockJumped then some ({ k with tsFlush := k.current }).nextFlush
  else if 0 ≤ timediff k.current k.tsFlush then some k.nextFlush
  else none

/-- `move_buf`: the steps of `rcv_nxt`. -/
def moveBufChecks (wnd : Nat) : List KcpSegment → U32 → Nat → Bool
  | [], _, _ => true
  | seg :: rest, nxt, queued =>
    if seg.sn = nxt ∧ queued < wnd then sumFits nxt 1 && moveBufChecks wnd rest (nxt + 1) (queued + 1)
    else true

/-- `parse_data`: the end of the window, then `move_buf`. -/
def parseDataChecks (k : Kcp) (seg : KcpSegment) : Bool :=
  sumFits k.rcvNxt (k.rcvWnd.setWidth 32) &&
    (decide (0 ≤ timediff seg.sn (k.rcvNxt + k.rcvWnd.setWidth 32) ∨ timediff seg.sn k.rcvNxt < 0) ||
      moveBufChecks k.rcvWnd.toNat (k.insertSegment seg).rcvBuf k.rcvNxt k.rcvQueue.length)

/-- `accept_push`: the end of the window, then `parse_data`. -/
def acceptPushChecks (k : Kcp) (head : SegHead) (buf : Bytes) : Bool :=
  sumFits k.rcvNxt (k.rcvWnd.setWidth 32) &&
    (decide (0 ≤ timediff head.sn (k.rcvNxt + k.rcvWnd.setWidth 32) ∨
        timediff head.sn k.rcvNxt < 0 ∨ buf.length < head.len) ||
      (k.ackPush head.sn head.ts).parseDataChecks
        { conv := head.conv, cmd := head.cmd, frg := head.frg, wnd := head.wnd, ts := head.ts,
          sn := head.sn, una := head.una, data := buf.take head.len })

/-- One segment of a datagram. -/
def segmentChecks (k : Kcp) (head : SegHead) (buf : Bytes) : Bool :=
  head.cmd = kcpCmdAck || head.cmd ≠ kcpCmdPush || (k.inputHead head).acceptPushChecks head buf

/-- `recv_pop`. -/
def recvChecks (k : Kcp) : Bool :=
  match k.rcvQueue with
  | [] => true
  | seg :: rest =>
    seg.frg ≠ 0 || moveBufChecks k.rcvWnd.toNat k.rcvBuf k.rcvNxt rest.length

end Kcp

/-! ## 2. The system -/

/-- An engine, and whether a checked build has panicked over a sequence number; the release build
goes on with the wrapped one. -/
structure Sequenced where
  kcp : Kcp
  panicked : Bool
  deriving DecidableEq

inductive SequencedEvent
  /-- A call of the adapter. -/
  | act (a : Action)
  /-- One round of `input`'s loop. -/
  | segment (acks : Kcp.AckRun) (head : SegHead) (buf : Bytes)
  /-- The end of a datagram. -/
  | inputEnd (acks : Kcp.AckRun) (una : U32)

namespace Sequenced

/-- The checks that a step makes. -/
def checks (s : Sequenced) : SequencedEvent → Bool
  | .act .flush => s.kcp.flushChecks
  | .act (.update current) => (s.kcp.updateFlushes current).all Kcp.flushChecks
  | .act .recv => s.kcp.recvChecks
  | .act _ => true
  | .segment _ head buf => s.kcp.segmentChecks head buf
  | .inputEnd .. => true

/-- The engine after a step. -/
def run (s : Sequenced) : SequencedEvent → Kcp
  | .act a => (a.run s.kcp).1
  | .segment acks head buf => (s.kcp.inputSegment acks head buf).1
  | .inputEnd acks una => s.kcp.inputEnd acks una

def step (s : Sequenced) (e : SequencedEvent) : Option Sequenced :=
  some ⟨s.run e, s.panicked || !s.checks e⟩

/-- The send window of a flush ends below 2^32. -/
def WindowFits (k : Kcp) : Prop :=
  k.flags.updated = true → k.sndUna.toNat + k.flushWindow.toNat < 2 ^ 32

/-- The window that a step looks at ends below 2^32: the send window at a flush, the receive window
at a data segment. -/
def Fits (s : Sequenced) : SequencedEvent → Prop
  | .act .flush => WindowFits s.kcp
  | .act (.update current) => ∀ k, s.kcp.updateFlushes current = some k → WindowFits k
  | .segment _ head _ => head.cmd = kcpCmdPush → s.kcp.rcvNxt.toNat + s.kcp.rcvWnd.toNat < 2 ^ 32
  | _ => True

end Sequenced

/-- A conversation that starts at any two numbers. -/
def sequenced : Lts Sequenced SequencedEvent where
  init s := ∃ conv stream snd rcv,
    s = ⟨{ construct conv stream with sndUna := snd, sndNxt := snd, rcvNxt := rcv }, false⟩
  step s e s' := s.step e = some s'

/-- A datagram is a run of its segments. -/
theorem reach_input {s : Sequenced} (h : sequenced.Reach s) (buf : Bytes) :
    ∃ p, sequenced.Reach ⟨(s.kcp.input buf).1, p⟩ := by
  have hloop := Kcp.inputLoop_inv (P := fun k => ∃ p, sequenced.Reach ⟨k, p⟩)
    (fun k acks head rest => by
      rintro ⟨p, hp⟩
      exact ⟨_, hp.step (a := .segment acks head rest) rfl⟩)
    buf.length s.kcp {} buf ⟨s.panicked, h⟩
  unfold Kcp.input
  split
  case isTrue => exact ⟨s.panicked, h⟩
  case isFalse =>
    split
    case h_1 heq =>
      rw [heq] at hloop
      exact hloop
    case h_2 acks _ heq =>
      rw [heq] at hloop
      obtain ⟨p, hp⟩ := hloop
      exact ⟨_, hp.step (a := .inputEnd acks s.kcp.sndUna) rfl⟩

/-! ## 3. The window of the send buffer -/

/-- The numbers of the send buffer: in order from `una` on, and before `nxt`.  The first of them is
`una`, and there is nothing between the two ends when there is none. -/
structure SeqWindow (una nxt : U32) (sns : List U32) : Prop where
  width : (nxt - una).toNat ≤ 65535
  ordered : sns.Pairwise fun a b => (a - una).toNat < (b - una).toNat
  within : ∀ a ∈ sns, (a - una).toNat < (nxt - una).toNat
  first : una = sns.head?.getD nxt

variable {una nxt : U32} {sns : List U32}

theorem SeqWindow.start (sn : U32) : SeqWindow sn sn [] where
  width := by simp
  ordered := .nil
  within := nofun
  first := rfl

/-- Distances from a later number. -/
theorem sub_toNat_of_le {a u u' : U32} (h : (u' - u).toNat ≤ (a - u).toNat) :
    (a - u').toNat = (a - u).toNat - (u' - u).toNat := by
  bv_omega

/-- **Segments may leave the buffer**; `snd_una` is the first of those that stay. -/
theorem SeqWindow.shrink (h : SeqWindow una nxt sns) {rest : List U32} (hsub : rest.Sublist sns) :
    SeqWindow (rest.head?.getD nxt) nxt rest := by
  have hord := h.ordered.sublist hsub
  have hwidth := h.width
  cases rest with
  | nil => exact .start nxt
  | cons a rest =>
    have ha := h.within a (hsub.subset List.mem_cons_self)
    have hlater : ∀ b ∈ a :: rest, (a - una).toNat ≤ (b - una).toNat := by
      intro b hb
      obtain rfl | hb := List.mem_cons.mp hb
      · exact Nat.le_refl _
      · exact Nat.le_of_lt ((List.pairwise_cons.mp hord).1 b hb)
    change SeqWindow a nxt (a :: rest)
    have hnxt := sub_toNat_of_le (Nat.le_of_lt ha)
    refine ⟨by omega, hord.imp_of_mem ?_, ?_, rfl⟩
    · intro b c hb hc hlt
      rw [sub_toNat_of_le (hlater b hb), sub_toNat_of_le (hlater c hc)]
      have hle := hlater b hb
      omega
    · intro b hb
      rw [sub_toNat_of_le (hlater b hb), hnxt]
      have hle := hlater b hb
      have hlt := h.within b (hsub.subset hb)
      omega

/-- **A segment enters it** under the next number. -/
theorem SeqWindow.push (h : SeqWindow una nxt sns) (hopen : (nxt - una).toNat < 65535) :
    SeqWindow una (nxt + 1) (sns ++ [nxt]) := by
  have hnxt : (nxt + 1 - una).toNat = (nxt - una).toNat + 1 := by
    bv_omega
  refine ⟨by omega, List.pairwise_append.mpr ⟨h.ordered, List.pairwise_singleton _ _, ?_⟩, ?_, ?_⟩
  · intro a ha b hb
    rw [List.mem_singleton.mp hb]
    exact h.within a ha
  · intro a ha
    rw [hnxt]
    obtain ha | ha := List.mem_append.mp ha
    · exact Nat.lt_succ_of_lt (h.within a ha)
    · rw [List.mem_singleton.mp ha]
      exact Nat.lt_succ_self _
  · rw [h.first]
    cases sns with
    | nil => rfl
    | cons a rest => rfl

/-- Inside the window `timediff` is the difference of the distances. -/
theorem timediff_window {u a b : U32} (ha : (a - u).toNat ≤ 65535) (hb : (b - u).toNat ≤ 65535) :
    timediff a b = ((a - u).toNat : Int) - ((b - u).toNat : Int) := by
  have hname : ∀ c : U32, c = BitVec.ofNat 32 (u.toNat + (c - u).toNat) := by
    intro c
    rw [BitVec.ofNat_add, BitVec.ofNat_toNat, BitVec.ofNat_toNat, BitVec.setWidth_eq,
      BitVec.setWidth_eq, BitVec.add_comm, BitVec.sub_add_cancel]
  have hdiff := seqDiff32_of_near (a := u.toNat + (a - u).toNat) (b := u.toNat + (b - u).toNat)
    (by omega) (by omega)
  rw [timediff]
  conv_lhs => rw [hname a, hname b, hdiff]
  omega

/-- Any number, against one of the window. -/
theorem timediff_of_pos {u a b : U32} (hb : (b - u).toNat ≤ 65535) (ha : 0 < timediff a u) :
    timediff a b = timediff a u - ((b - u).toNat : Int) := by
  have hsub : a - b = (a - u) - (b - u) := by
    bv_omega
  rw [timediff, seqDiff] at ha ⊢
  rw [timediff, seqDiff, hsub, BitVec.toInt_sub, Int.bmod_def]
  have hint : (b - u).toInt = ((b - u).toNat : Int) := by
    rw [BitVec.toInt_eq_toNat_cond, if_pos (by omega)]
  have hlt := BitVec.toInt_lt (x := a - u)
  rw [hint]
  simp only [Nat.reducePow] at *
  omega

/-! ## 4. `parse_una` and `parse_ack` -/

/-- Dropping from the front of a list takes every element there is to take, where what follows one
that stays stays. -/
theorem dropWhile_eq_filter {α : Type} {P : α → Bool} {l : List α}
    (h : l.Pairwise fun x y => P x = false → P y = false) :
    l.dropWhile P = l.filter fun x => !P x := by
  induction l with
  | nil => rfl
  | cons x l ih =>
    obtain ⟨hx, hl⟩ := List.pairwise_cons.mp h
    by_cases hp : P x = true
    · rw [List.dropWhile_cons_of_pos hp, List.filter_cons_of_neg (by simp [hp]), ih hl]
    · have hp' : P x = false := by simpa using hp
      have hall : l.filter (fun x => !P x) = l := by
        refine List.filter_eq_self.mpr fun y hy => ?_
        rw [hx y hy hp']
        rfl
      rw [List.dropWhile_cons_of_neg hp, List.filter_cons_of_pos (by simp [hp']), hall]

/-- The send buffer's numbers are a window. -/
def Windowed (k : Kcp) : Prop := SeqWindow k.sndUna k.sndNxt (k.sndBuf.map KcpSegment.sn)

theorem Windowed.order {k : Kcp} (h : Windowed k) :
    k.sndBuf.Pairwise fun s t => (s.sn - k.sndUna).toNat < (t.sn - k.sndUna).toNat :=
  (List.pairwise_map (f := KcpSegment.sn)
    (R := fun a b => (a - k.sndUna).toNat < (b - k.sndUna).toNat)).mp h.ordered

/-- **`parse_una` removes exactly what is before `una`.** -/
theorem Windowed.parseUna {k : Kcp} (h : Windowed k) (una : U32) :
    (k.parseUna una).sndBuf = k.sndBuf.filter fun s =>
      decide (timediff una k.sndUna ≤ ((s.sn - k.sndUna).toNat : Int)) := by
  have hwidth := h.width
  have hbound : ∀ s ∈ k.sndBuf, (s.sn - k.sndUna).toNat ≤ 65535 := by
    intro s hs
    have hlt := h.within s.sn (List.mem_map_of_mem hs)
    omega
  change k.sndBuf.dropWhile (fun seg => 0 < timediff una seg.sn) = _
  by_cases hpos : 0 < timediff una k.sndUna
  · have heach : ∀ s ∈ k.sndBuf, timediff una s.sn =
        timediff una k.sndUna - ((s.sn - k.sndUna).toNat : Int) := fun s hs =>
      timediff_of_pos (hbound s hs) hpos
    rw [dropWhile_eq_filter]
    · refine List.filter_congr fun s hs => ?_
      rw [heach s hs, ← decide_not, decide_eq_decide]
      omega
    · refine h.order.imp_of_mem ?_
      intro s t hs ht hlt hstay
      rw [decide_eq_false_iff_not, heach s hs] at hstay
      rw [decide_eq_false_iff_not, heach t ht]
      omega
  · -- Then the first segment stays, which is `snd_una`.
    have hall : k.sndBuf.filter (fun s =>
        decide (timediff una k.sndUna ≤ ((s.sn - k.sndUna).toNat : Int))) = k.sndBuf := by
      refine List.filter_eq_self.mpr fun s _ => ?_
      rw [decide_eq_true_iff]
      omega
    have hfirst := h.first
    rw [hall]
    cases hk : k.sndBuf with
    | nil => rfl
    | cons seg rest =>
      rw [hk] at hfirst
      have hsn : k.sndUna = seg.sn := hfirst
      rw [hsn] at hpos
      exact List.dropWhile_cons_of_neg (by simpa using hpos)

/-- The loop of `parse_ack`, on segments that are in plain order. -/
theorem parseAckLoop_eq_filter {segs : List KcpSegment}
    (h : segs.Pairwise fun s t => s.sn.toNat < t.sn.toNat) (sn : U32) :
    Kcp.parseAckLoop sn segs = segs.filter fun s => decide (s.sn ≠ sn) := by
  induction segs with
  | nil => rfl
  | cons seg rest ih =>
    obtain ⟨hseg, hrest⟩ := List.pairwise_cons.mp h
    have hlater : sn.toNat ≤ seg.sn.toNat → rest.filter (fun s => decide (s.sn ≠ sn)) = rest := by
      intro hle
      refine List.filter_eq_self.mpr fun s hs => ?_
      have hlt := hseg s hs
      rw [decide_eq_true_iff]
      rintro rfl
      omega
    rw [Kcp.parseAckLoop]
    split
    case isTrue heq =>
      rw [List.filter_cons_of_neg (by simp [heq]), hlater (by rw [heq])]
    case isFalse hne =>
      have hkeep : decide (seg.sn ≠ sn) = true := by
        rw [decide_eq_true_iff]
        exact fun heq => hne heq.symm
      rw [List.filter_cons_of_pos (p := fun s : KcpSegment => decide (s.sn ≠ sn)) hkeep]
      split
      case isTrue hlt => rw [hlater (Nat.le_of_lt hlt)]
      case isFalse => rw [ih hrest]

/-- A window that has not wrapped. -/
def Plain (k : Kcp) : Prop := k.sndUna.toNat ≤ k.sndNxt.toNat

theorem Windowed.plain_order {k : Kcp} (h : Windowed k) (hp : Plain k) :
    k.sndBuf.Pairwise fun s t => s.sn.toNat < t.sn.toNat := by
  refine h.order.imp_of_mem ?_
  intro s t hs ht hlt
  have hs' := h.within s.sn (List.mem_map_of_mem hs)
  have ht' := h.within t.sn (List.mem_map_of_mem ht)
  rw [Plain] at hp
  bv_omega

/-- **In a window that has not wrapped, `parse_ack` removes exactly the acknowledged segment.** -/
theorem Windowed.parseAck {k : Kcp} (h : Windowed k) (hp : Plain k) (sn : U32) :
    (k.parseAck sn).sndBuf = k.sndBuf.filter fun s => decide (s.sn ≠ sn) := by
  rw [Kcp.parseAck]
  split
  case isFalse => exact parseAckLoop_eq_filter (h.plain_order hp) sn
  case isTrue hout =>
    -- Nothing of the buffer is outside the window.
    refine (List.filter_eq_self.mpr fun s hs => ?_).symm
    rw [decide_eq_true_iff]
    rintro rfl
    have hwidth := h.width
    have hlt := h.within s.sn (List.mem_map_of_mem hs)
    have hzero : (k.sndUna - k.sndUna).toNat = 0 := by simp
    have h1 := timediff_window (a := s.sn) (u := k.sndUna) (b := k.sndUna) (by omega) (by omega)
    have h2 := timediff_window (a := s.sn) (u := k.sndUna) (b := k.sndNxt) (by omega) hwidth
    omega

/-! ## 5. What keeps the window -/

/-- The part of the send direction that the window is made of. -/
structure SameWindow (k k' : Kcp) : Prop where
  una : k'.sndUna = k.sndUna
  nxt : k'.sndNxt = k.sndNxt
  sns : k'.sndBuf.map KcpSegment.sn = k.sndBuf.map KcpSegment.sn

namespace SameWindow

variable {k k' k'' : Kcp}

theorem trans (h : SameWindow k k') (h' : SameWindow k' k'') : SameWindow k k'' :=
  ⟨h'.una.trans h.una, h'.nxt.trans h.nxt, h'.sns.trans h.sns⟩

theorem of_snd (h : k'.snd = k.snd) : SameWindow k k' :=
  ⟨congrArg SndView.sndUna h, congrArg SndView.sndNxt h,
    congrArg (List.map KcpSegment.sn) (congrArg SndView.sndBuf h)⟩

theorem windowed (h : SameWindow k k') (hw : Windowed k) : Windowed k' := by
  rw [Windowed, h.una, h.nxt, h.sns]
  exact hw

theorem plain (h : SameWindow k k') (hp : Plain k) : Plain k' := by
  rw [Plain, h.una, h.nxt]
  exact hp

end SameWindow

/-- What a resend never changes has the number in it. -/
theorem sns_of_core {segs segs' : List KcpSegment}
    (h : segs'.map KcpSegment.core = segs.map KcpSegment.core) :
    segs'.map KcpSegment.sn = segs.map KcpSegment.sn := by
  have hsn := congrArg (List.map fun c => c.2.2.1) h
  simpa [List.map_map, Function.comp_def, KcpSegment.core] using hsn

theorem sameWindow_sendOwned (k : Kcp) (data : Bytes) : SameWindow k (k.sendOwned data).1 := by
  unfold Kcp.sendOwned
  dsimp only
  split
  · exact ⟨rfl, rfl, rfl⟩
  · split
    · split
      · exact ⟨rfl, rfl, rfl⟩
      · exact ⟨rfl, rfl, rfl⟩
    · exact ⟨rfl, rfl, rfl⟩

theorem sameWindow_setMtu (k : Kcp) (mtu : Nat) : SameWindow k (k.setMtu mtu) := by
  unfold Kcp.setMtu
  dsimp only
  split
  · exact ⟨rfl, rfl, rfl⟩
  · exact ⟨rfl, rfl, rfl⟩

theorem sameWindow_retransmitSn (k : Kcp) (sn : U32) : SameWindow k (k.retransmitSn sn) :=
  ⟨rfl, rfl, sns_of_core (Kcp.retransmitLoop_core sn k.current k.sndBuf)⟩

theorem sameWindow_flushAck (k : Kcp) : SameWindow k k.flushAck.1 := by
  unfold Kcp.flushAck
  split
  · exact ⟨rfl, rfl, rfl⟩
  · exact .of_snd (Kcp.flushAckInner_frame k k.ackSegment).1

theorem sameWindow_parseFastack (k : Kcp) (sn ts : U32) : SameWindow k (k.parseFastack sn ts) := by
  unfold Kcp.parseFastack
  split
  · exact ⟨rfl, rfl, rfl⟩
  · exact ⟨rfl, rfl, sns_of_core (Kcp.parseFastackLoop_core sn ts k.sndBuf)⟩

theorem sameWindow_inputEnd (k : Kcp) (acks : Kcp.AckRun) (una : U32) :
    SameWindow k (k.inputEnd acks una) := by
  unfold Kcp.inputEnd
  refine SameWindow.trans ?_ (.of_snd (Kcp.updateCwndAfterAcks_frame _ una).1)
  split
  · exact sameWindow_parseFastack k _ _
  · exact ⟨rfl, rfl, rfl⟩

/-- **Segments leave the buffer, and `shrink_buf` moves `snd_una`.** -/
theorem Windowed.shrinkBuf {k : Kcp} (h : Windowed k) (k' : Kcp) (hnxt : k'.sndNxt = k.sndNxt)
    (hsub : k'.sndBuf.Sublist k.sndBuf) :
    Windowed k'.shrinkBuf ∧ (Plain k → Plain k'.shrinkBuf) := by
  have huna : k'.shrinkBuf.sndUna = (k'.sndBuf.map KcpSegment.sn).head?.getD k.sndNxt := by
    cases hbuf : k'.sndBuf with
    | nil => rw [Kcp.shrinkBuf_nil hbuf, hnxt]; rfl
    | cons seg rest => rw [Kcp.shrinkBuf_cons hbuf]; rfl
  have hnxt' : k'.shrinkBuf.sndNxt = k.sndNxt := hnxt
  have hwin := SeqWindow.shrink h (hsub.map KcpSegment.sn)
  constructor
  · rw [Windowed, huna, hnxt']
    exact hwin
  · intro hp
    rw [Plain, huna, hnxt']
    cases hsns : k'.sndBuf.map KcpSegment.sn with
    | nil => exact Nat.le_refl _
    | cons a rest =>
      have ha := h.within a
        ((hsub.map KcpSegment.sn).subset (by rw [hsns]; exact List.mem_cons_self))
      change a.toNat ≤ k.sndNxt.toNat
      rw [Plain] at hp
      bv_omega

theorem Windowed.inputHead {k : Kcp} (h : Windowed k) (head : SegHead) :
    Windowed (k.inputHead head) ∧ (Plain k → Plain (k.inputHead head)) :=
  h.shrinkBuf (({ k with rmtWnd := head.wnd } : Kcp).parseUna head.una) rfl
    (List.dropWhile_sublist _)

theorem Windowed.inputAck {k : Kcp} (h : Windowed k) (head : SegHead) :
    Windowed (k.inputAck head) ∧ (Plain k → Plain (k.inputAck head)) := by
  have hsame := SameWindow.of_snd (Kcp.sampleRtt_frame k head.ts).1
  have hbuf : (k.sampleRtt head.ts).sndBuf = k.sndBuf :=
    congrArg SndView.sndBuf (Kcp.sampleRtt_frame k head.ts).1
  refine h.shrinkBuf ((k.sampleRtt head.ts).parseAck head.sn) ?_ ?_
  · unfold Kcp.parseAck
    split
    · exact hsame.nxt
    · exact hsame.nxt
  · unfold Kcp.parseAck
    split
    · rw [hbuf]
    · rw [← hbuf]
      exact Kcp.parseAckLoop_sublist head.sn _

/-- **One segment of a datagram.** -/
theorem Windowed.inputSegment {k : Kcp} (h : Windowed k) (acks : Kcp.AckRun) (head : SegHead)
    (buf : Bytes) :
    Windowed (k.inputSegment acks head buf).1 ∧
      (Plain k → Plain (k.inputSegment acks head buf).1) := by
  obtain ⟨hh, hp⟩ := h.inputHead head
  unfold Kcp.inputSegment
  split
  case isTrue =>
    obtain ⟨ha, hp'⟩ := hh.inputAck head
    exact ⟨ha, fun hpk => hp' (hp hpk)⟩
  case isFalse =>
    split
    case isTrue =>
      have hframe := (Kcp.acceptPush_frame (k.inputHead head) head buf).1
      split
      case h_1 heq | h_2 heq | h_3 heq =>
        rw [heq] at hframe
        have hsame := SameWindow.of_snd hframe
        exact ⟨hsame.windowed hh, fun hpk => hsame.plain (hp hpk)⟩
    case isFalse =>
      split
      · exact ⟨hh, hp⟩
      · exact ⟨hh, hp⟩

/-! ## 6. A flush -/

/-- **The fill loop** keeps the window, and in a window that ends below 2^32 nothing overflows. -/
theorem fillLoop_window (k : Kcp) (cwnd wnd : U16) (queue : List KcpSegment) (nxt : U32)
    (buf : List KcpSegment) (h : SeqWindow k.sndUna nxt (buf.map KcpSegment.sn)) :
    SeqWindow k.sndUna (k.fillLoop cwnd wnd queue nxt buf).2.1
        ((k.fillLoop cwnd wnd queue nxt buf).2.2.map KcpSegment.sn) ∧
      (k.sndUna.toNat + cwnd.toNat < 2 ^ 32 → k.sndUna.toNat ≤ nxt.toNat →
        k.fillChecks cwnd queue nxt = true ∧
          k.sndUna.toNat ≤ (k.fillLoop cwnd wnd queue nxt buf).2.1.toNat) := by
  have hcw := cwnd.isLt
  induction queue generalizing nxt buf with
  | nil =>
    refine ⟨h, fun hfits hle => ⟨?_, hle⟩⟩
    rw [Kcp.fillChecks, sumFits_wnd, decide_eq_true_iff]
    exact hfits
  | cons seg queue ih =>
    have hend : (k.sndUna + cwnd.setWidth 32 - k.sndUna).toNat = cwnd.toNat := by
      bv_omega
    have hdiff := timediff_window (a := nxt) (u := k.sndUna) (b := k.sndUna + cwnd.setWidth 32)
      h.width (by omega)
    rw [hend] at hdiff
    have hsum : k.sndUna.toNat + cwnd.toNat < 2 ^ 32 →
        sumFits k.sndUna (cwnd.setWidth 32) = true := by
      intro hfits
      rw [sumFits_wnd, decide_eq_true_iff]
      exact hfits
    rw [Kcp.fillLoop, Kcp.fillChecks]
    by_cases hopen : timediff nxt (k.sndUna + cwnd.setWidth 32) < 0
    · rw [if_pos hopen, if_pos hopen]
      have hpush := h.push (by omega)
      obtain ⟨hwin, hchecks⟩ := ih (nxt + 1) (buf ++ [{ seg with
        conv := k.conv, cmd := kcpCmdPush, wnd := wnd, ts := k.current, sn := nxt,
        una := k.rcvNxt, resendts := k.current, rto := k.rxRto, fastack := 0, xmit := 0 }])
        (by rw [List.map_append, List.map_singleton]; exact hpush)
      refine ⟨hwin, fun hfits hle => ?_⟩
      have hnxt : nxt.toNat + 1 < 2 ^ 32 := by
        have hlt : (nxt - k.sndUna).toNat < cwnd.toNat := by omega
        bv_omega
      have hstep : (nxt + 1).toNat = nxt.toNat + 1 := by
        bv_omega
      obtain ⟨hrest, hplain⟩ := hchecks hfits (by omega)
      have hone : sumFits nxt 1 = true := by
        rw [sumFits, decide_eq_true_iff]
        exact hnxt
      exact ⟨by rw [hsum hfits, hone, hrest]; rfl, hplain⟩
    · rw [if_neg hopen, if_neg hopen]
      exact ⟨h, fun hfits hle => ⟨by rw [hsum hfits]; rfl, hle⟩⟩

namespace Kcp

/-- What the send window of a flush is made of. -/
def limits (k : Kcp) : U16 × U16 × U16 × KcpFlags := (k.sndWnd, k.rmtWnd, k.cwnd, k.flags)

theorem flushWindow_of_limits {k k' : Kcp} (h : k'.limits = k.limits) :
    k'.flushWindow = k.flushWindow := by
  have h1 : k'.sndWnd = k.sndWnd := congrArg Prod.fst h
  have h2 : k'.rmtWnd = k.rmtWnd := congrArg (fun v => v.2.1) h
  have h3 : k'.cwnd = k.cwnd := congrArg (fun v => v.2.2.1) h
  have h4 : k'.flags = k.flags := congrArg (fun v => v.2.2.2) h
  rw [flushWindow, flushWindow, h1, h2, h3, h4]

theorem limits_writeBuf (k : Kcp) : k.writeBuf.limits = k.limits := by
  unfold writeBuf
  split
  · rfl
  · rfl

theorem limits_roomFor (k : Kcp) (need : Nat) : (k.roomFor need).limits = k.limits := by
  unfold roomFor
  split
  · exact limits_writeBuf k
  · rfl

theorem limits_flushAckLoop (acks : List (U32 × U32)) (k : Kcp) (segment : KcpSegment) :
    (flushAckLoop acks k segment).1.limits = k.limits := by
  induction acks generalizing k segment with
  | nil => rfl
  | cons ack acks ih =>
    rw [flushAckLoop]
    exact (ih _ _).trans (limits_roomFor k kcpOverhead)

theorem limits_armProbe (k : Kcp) (wait : U32) : (k.armProbe wait).limits = k.limits := rfl

theorem limits_probeWndSize (k : Kcp) : k.probeWndSize.limits = k.limits := by
  unfold probeWndSize
  split
  · split
    · exact limits_armProbe k _
    · split
      · exact limits_armProbe k (nextProbeWait k.probeWait)
      · rfl
  · rfl

theorem limits_flushProbe (ask : U32) (cmd : Byte) (r : Kcp × KcpSegment) :
    (flushProbe ask cmd r).1.limits = r.1.limits := by
  unfold flushProbe
  split
  · exact limits_roomFor r.1 _
  · rfl

theorem limits_flushControl (k : Kcp) : k.flushControl.limits = k.limits := by
  have h1 : (k.flushAckInner k.ackSegment).1.limits = k.limits :=
    limits_flushAckLoop k.acklist k k.ackSegment
  have h2 := limits_probeWndSize (k.flushAckInner k.ackSegment).1
  have h3 := limits_flushProbe kcpAskSend kcpCmdWask
    ((k.flushAckInner k.ackSegment).1.probeWndSize, (k.flushAckInner k.ackSegment).2)
  have h4 := limits_flushProbe kcpAskTell kcpCmdWins (flushProbe kcpAskSend kcpCmdWask
    ((k.flushAckInner k.ackSegment).1.probeWndSize, (k.flushAckInner k.ackSegment).2))
  exact h4.trans (h3.trans (h2.trans h1))

/-- The control part of a flush leaves the send window of the flush alone. -/
theorem flushWindow_flushControl (k : Kcp) : k.flushControl.flushWindow = k.flushWindow :=
  flushWindow_of_limits (limits_flushControl k)

end Kcp

/-- The fill of a flush. -/
theorem Windowed.flushFill {k : Kcp} (h : Windowed k) :
    Windowed k.flushFill ∧ (k.sndUna.toNat + k.flushWindow.toNat < 2 ^ 32 → Plain k →
      k.flushControl.fillChecks k.flushControl.flushWindow k.flushControl.sndQueue
        k.flushControl.sndNxt = true ∧ Plain k.flushFill) := by
  have hsame := SameWindow.of_snd (Kcp.flushControl_frame k).1
  have hfill := fillLoop_window k.flushControl k.flushControl.flushWindow k.wndUnused
    k.flushControl.sndQueue k.flushControl.sndNxt k.flushControl.sndBuf (hsame.windowed h)
  rw [← hsame.una, ← Kcp.flushWindow_flushControl]
  exact ⟨hfill.1, fun hfits hp => hfill.2 hfits (hsame.plain hp)⟩

/-- The walk of a flush leaves the window alone. -/
theorem sameWindow_flush {k : Kcp} (hup : k.flags.updated = true) :
    SameWindow k.flushFill k.flush.1 := by
  unfold Kcp.flush
  rw [if_neg (by simp [hup])]
  dsimp only
  set env := k.flushFill.flushEnv k.wndUnused
  set r := Kcp.flushLoop env { kcp := k.flushFill } k.flushFill.sndBuf
  have hloop : r.1.kcp.snd = k.flushFill.snd := (Kcp.flushLoop_frame env _ _).1
  have hwalk : SameWindow k.flushFill { r.1.kcp with sndBuf := r.2 } :=
    ⟨congrArg SndView.sndUna hloop, congrArg SndView.sndNxt hloop,
      sns_of_core (Kcp.flushLoop_core env _ _)⟩
  exact (hwalk.trans (.of_snd (Kcp.writeBuf_frame _).1)).trans
    (.of_snd (Kcp.updateSsthresh_frame _ r.1.change env.resent r.1.lost k.cwnd).1)

/-- **A flush.** -/
theorem Windowed.flush {k : Kcp} (h : Windowed k) :
    Windowed k.flush.1 ∧
      (Sequenced.WindowFits k → Plain k → k.flushChecks = true ∧ Plain k.flush.1) := by
  by_cases hup : k.flags.updated = true
  · obtain ⟨hfill, hchecks⟩ := h.flushFill
    have hsame := sameWindow_flush hup
    refine ⟨hsame.windowed hfill, fun hfits hp => ?_⟩
    obtain ⟨hfillChecks, hplain⟩ := hchecks (hfits hup) hp
    refine ⟨?_, hsame.plain hplain⟩
    have hwalk : SameWindow k.flushFill (Kcp.flushLoop (k.flushFill.flushEnv k.wndUnused)
        { kcp := k.flushFill } k.flushFill.sndBuf).1.kcp :=
      .of_snd (Kcp.flushLoop_frame _ _ _).1
    have hle := BitVec.le_def.mpr (hwalk.plain hplain)
    rw [Kcp.flushChecks, hfillChecks]
    dsimp only
    rw [decide_eq_true hle]
    simp
  · have hstay : k.flush.1 = k := by
      rw [Kcp.flush, if_pos (by simpa using hup)]
    rw [hstay]
    refine ⟨h, fun _ hp => ⟨?_, hp⟩⟩
    rw [Kcp.flushChecks]
    simp [hup]

/-- A flush whose window passes 2^32 is refused. -/
theorem flushChecks_of_not_fits {k : Kcp} (h : ¬ Sequenced.WindowFits k) :
    k.flushChecks = false := by
  obtain ⟨hup, hpast⟩ := Classical.not_imp.mp h
  have huna : k.flushControl.sndUna = k.sndUna :=
    congrArg SndView.sndUna (Kcp.flushControl_frame k).1
  have hsum : sumFits k.flushControl.sndUna (k.flushControl.flushWindow.setWidth 32) = false := by
    rw [Kcp.flushWindow_flushControl, huna, sumFits_wnd, decide_eq_false_iff_not]
    exact hpast
  have hfill : ∀ queue nxt,
      k.flushControl.fillChecks k.flushControl.flushWindow queue nxt = false := by
    intro queue nxt
    cases queue with
    | nil => exact hsum
    | cons seg queue => rw [Kcp.fillChecks, hsum, Bool.false_and]
  rw [Kcp.flushChecks, hfill, hup]
  rfl

/-! ## 7. An update -/

/-- An update flushes, or it leaves the window alone. -/
theorem update_cases (k : Kcp) (current : U32) :
    (∃ k', k.updateFlushes current = some k' ∧ SameWindow k k' ∧
      (k.update current).1 = k'.flush.1) ∨
    (k.updateFlushes current = none ∧ SameWindow k (k.update current).1) := by
  have hmark : SameWindow k ({ k with current := current } : Kcp).markUpdated := by
    unfold Kcp.markUpdated
    split
    · exact ⟨rfl, rfl, rfl⟩
    · exact ⟨rfl, rfl, rfl⟩
  rw [Kcp.update, Kcp.updateFlushes]
  split
  case isTrue => exact Or.inl ⟨_, rfl, hmark.trans ⟨rfl, rfl, rfl⟩, rfl⟩
  case isFalse =>
    split
    case isTrue => exact Or.inl ⟨_, rfl, hmark.trans ⟨rfl, rfl, rfl⟩, rfl⟩
    case isFalse => exact Or.inr ⟨rfl, hmark⟩

/-! ## 8. The receive window -/

/-- The numbers of the receive buffer have a successor. -/
def RcvPlain (k : Kcp) : Prop := ∀ s ∈ k.rcvBuf, s.sn.toNat + 1 < 2 ^ 32

theorem moveBufChecks_of_plain (wnd : Nat) {buf : List KcpSegment}
    (h : ∀ s ∈ buf, s.sn.toNat + 1 < 2 ^ 32) (nxt : U32) (queued : Nat) :
    Kcp.moveBufChecks wnd buf nxt queued = true := by
  induction buf generalizing nxt queued with
  | nil => rfl
  | cons seg rest ih =>
    rw [Kcp.moveBufChecks]
    split
    case isTrue htake =>
      have hone : sumFits nxt 1 = true := by
        rw [sumFits, decide_eq_true_iff, ← htake.1]
        exact h seg List.mem_cons_self
      rw [hone, ih fun s hs => h s (List.mem_cons_of_mem _ hs)]
      rfl
    case isFalse => rfl

theorem moveBufLoop_sublist (wnd : Nat) (buf : List KcpSegment) (nxt : U32)
    (queue : List KcpSegment) : (Kcp.moveBufLoop wnd buf nxt queue).1.Sublist buf := by
  induction buf generalizing nxt queue with
  | nil => exact List.Sublist.refl _
  | cons seg rest ih =>
    rw [Kcp.moveBufLoop]
    split
    · exact (ih _ _).cons seg
    · exact List.Sublist.refl _

theorem RcvPlain.moveBuf {k : Kcp} (h : RcvPlain k) : RcvPlain k.moveBuf :=
  fun s hs => h s ((moveBufLoop_sublist _ _ _ _).subset hs)

theorem RcvPlain.of_rcv {k k' : Kcp} (h : RcvPlain k) (hrcv : k'.rcv = k.rcv) : RcvPlain k' := by
  rw [RcvPlain, show k'.rcvBuf = k.rcvBuf from congrArg RcvView.rcvBuf hrcv]
  exact h

theorem RcvPlain.recvPop {k : Kcp} (h : RcvPlain k) : RcvPlain k.recvPop.1 := by
  unfold Kcp.recvPop
  split
  case h_1 => exact h
  case h_2 seg rest _ =>
    split
    case isTrue => exact h
    case isFalse =>
      have hpop : RcvPlain ({ k with rcvQueue := rest } : Kcp) := h
      exact hpop.moveBuf.of_rcv (Kcp.fastRecover_frame _ _).2.1

theorem RcvPlain.recvChecks {k : Kcp} (h : RcvPlain k) : k.recvChecks = true := by
  unfold Kcp.recvChecks
  split
  · rfl
  · rw [moveBufChecks_of_plain _ h, Bool.or_true]

/-- What `parse_data` may put into the buffer. -/
theorem insertSegment_mem {k : Kcp} {seg s : KcpSegment} (h : s ∈ (k.insertSegment seg).rcvBuf) :
    s = seg ∨ s ∈ k.rcvBuf := by
  unfold Kcp.insertSegment at h
  split at h
  case h_1 => exact Or.inr h
  case h_2 j hslot =>
    have hle := insertSlot_le seg.sn hslot
    rw [List.length_reverse] at hle
    exact (List.mem_insertIdx hle).mp h

/-- **A data segment**, where the receive window ends below 2^32. -/
theorem RcvPlain.parseData {k : Kcp} (h : RcvPlain k)
    (hfits : k.rcvNxt.toNat + k.rcvWnd.toNat < 2 ^ 32) (seg : KcpSegment) :
    k.parseDataChecks seg = true ∧ RcvPlain (k.parseData seg) := by
  have hsum : sumFits k.rcvNxt (k.rcvWnd.setWidth 32) = true := by
    rw [sumFits_wnd, decide_eq_true_iff]
    exact hfits
  rw [Kcp.parseDataChecks, Kcp.parseData, hsum]
  split
  case isTrue hout =>
    rw [decide_eq_true hout]
    exact ⟨rfl, h⟩
  case isFalse hin =>
    obtain ⟨hwin, hnew⟩ := not_or.mp hin
    have hoff := offset_lt_of_window (Int.not_le.mp hwin) (Int.not_lt.mp hnew)
    have hins : ∀ s ∈ (k.insertSegment seg).rcvBuf, s.sn.toNat + 1 < 2 ^ 32 := by
      intro s hs
      obtain rfl | hs := insertSegment_mem hs
      · rw [KcpSegment.offset] at hoff
        bv_omega
      · exact h s hs
    refine ⟨?_, RcvPlain.moveBuf hins⟩
    rw [moveBufChecks_of_plain _ hins, Bool.or_true]
    rfl

theorem RcvPlain.acceptPush {k : Kcp} (h : RcvPlain k)
    (hfits : k.rcvNxt.toNat + k.rcvWnd.toNat < 2 ^ 32) (head : SegHead) (buf : Bytes) :
    k.acceptPushChecks head buf = true ∧ RcvPlain (k.acceptPush head buf).1 := by
  have hsum : sumFits k.rcvNxt (k.rcvWnd.setWidth 32) = true := by
    rw [sumFits_wnd, decide_eq_true_iff]
    exact hfits
  have hack : RcvPlain (k.ackPush head.sn head.ts) := h
  obtain ⟨hchecks, hdata⟩ := hack.parseData hfits
    { conv := head.conv, cmd := head.cmd, frg := head.frg, wnd := head.wnd, ts := head.ts,
      sn := head.sn, una := head.una, data := buf.take head.len }
  refine ⟨by rw [Kcp.acceptPushChecks, hsum, hchecks, Bool.or_true]; rfl, ?_⟩
  rw [Kcp.acceptPush]
  split
  case isTrue => exact h
  case isFalse =>
    dsimp only
    split
    case isTrue => exact hack
    case isFalse =>
      split
      case isTrue => exact hack
      case isFalse => exact hdata

theorem acceptPushChecks_of_not_fits {k : Kcp} (h : ¬ k.rcvNxt.toNat + k.rcvWnd.toNat < 2 ^ 32)
    (head : SegHead) (buf : Bytes) : k.acceptPushChecks head buf = false := by
  have hsum : sumFits k.rcvNxt (k.rcvWnd.setWidth 32) = false := by
    rw [sumFits_wnd, decide_eq_false_iff_not]
    exact h
  rw [Kcp.acceptPushChecks, hsum, Bool.false_and]

theorem RcvPlain.inputSegment {k : Kcp} (h : RcvPlain k) (acks : Kcp.AckRun) {head : SegHead}
    (hfits : head.cmd = kcpCmdPush → k.rcvNxt.toNat + k.rcvWnd.toNat < 2 ^ 32) (buf : Bytes) :
    k.segmentChecks head buf = true ∧ RcvPlain (k.inputSegment acks head buf).1 := by
  have hh : RcvPlain (k.inputHead head) := h
  rw [Kcp.segmentChecks]
  unfold Kcp.inputSegment
  split
  case isTrue hack =>
    rw [decide_eq_true hack]
    exact ⟨rfl, hh.of_rcv (Kcp.inputAck_frame _ _).1⟩
  case isFalse =>
    split
    case isTrue hpush =>
      obtain ⟨hchecks, haccept⟩ := hh.acceptPush (hfits hpush) head buf
      refine ⟨by rw [hchecks, Bool.or_true], ?_⟩
      split
      case h_1 heq | h_2 heq | h_3 heq =>
        rw [heq] at haccept
        exact haccept
    case isFalse hpush =>
      refine ⟨by rw [decide_eq_true hpush, Bool.or_true, Bool.true_or], ?_⟩
      split
      · exact hh
      · exact hh

/-! ## 9. Runs -/

namespace Sequenced

/-- A run that has not passed 2^32. -/
structure Safe (s : Sequenced) : Prop where
  windowed : Windowed s.kcp
  plain : Plain s.kcp
  rcvPlain : RcvPlain s.kcp
  quiet : s.panicked = false

variable {s : Sequenced}

theorem windowed_run (h : Windowed s.kcp) (e : SequencedEvent) : Windowed (s.run e) := by
  cases e with
  | segment acks head buf => exact (h.inputSegment acks head buf).1
  | inputEnd acks una => exact (sameWindow_inputEnd s.kcp acks una).windowed h
  | act a =>
    cases a with
    | send data => exact (sameWindow_sendOwned s.kcp data).windowed h
    | recv => exact (SameWindow.of_snd (Kcp.recvPop_frame s.kcp).1).windowed h
    | update current =>
      obtain ⟨k', -, hsame, heq⟩ | ⟨-, hsame⟩ := update_cases s.kcp current
      · change Windowed (s.kcp.update current).1
        rw [heq]
        exact (hsame.windowed h).flush.1
      · exact hsame.windowed h
    | flush => exact h.flush.1
    | flushAck => exact (sameWindow_flushAck s.kcp).windowed h
    | retransmitSn sn => exact (sameWindow_retransmitSn s.kcp sn).windowed h
    | setMtu mtu => exact (sameWindow_setMtu s.kcp mtu).windowed h
    | setNodelay | setWndsize => exact h

/-- **A step that fits** is checked and stays safe. -/
theorem Safe.run (h : s.Safe) {e : SequencedEvent} (hf : s.Fits e) :
    s.checks e = true ∧ Plain (s.run e) ∧ RcvPlain (s.run e) := by
  cases e with
  | segment acks head buf =>
    obtain ⟨hchecks, hrcv⟩ := h.rcvPlain.inputSegment acks hf buf
    exact ⟨hchecks, (h.windowed.inputSegment acks head buf).2 h.plain, hrcv⟩
  | inputEnd acks una =>
    exact ⟨rfl, (sameWindow_inputEnd s.kcp acks una).plain h.plain,
      h.rcvPlain.of_rcv (Kcp.inputEnd_frame s.kcp una acks).1⟩
  | act a =>
    cases a with
    | send data =>
      exact ⟨rfl, (sameWindow_sendOwned s.kcp data).plain h.plain,
        h.rcvPlain.of_rcv (Kcp.sendOwned_frame s.kcp data).1⟩
    | recv =>
      exact ⟨h.rcvPlain.recvChecks, (SameWindow.of_snd (Kcp.recvPop_frame s.kcp).1).plain h.plain,
        h.rcvPlain.recvPop⟩
    | update current =>
      have hrcv : RcvPlain (s.kcp.update current).1 := h.rcvPlain.of_rcv (rcv_update s.kcp current)
      obtain ⟨k', hflushes, hsame, heq⟩ | ⟨hnone, hsame⟩ := update_cases s.kcp current
      · obtain ⟨hchecks, hplain⟩ :=
          (hsame.windowed h.windowed).flush.2 (hf k' hflushes) (hsame.plain h.plain)
        refine ⟨?_, ?_, hrcv⟩
        · change (s.kcp.updateFlushes current).all Kcp.flushChecks = true
          rw [hflushes]
          exact hchecks
        · change Plain (s.kcp.update current).1
          rw [heq]
          exact hplain
      · refine ⟨?_, hsame.plain h.plain, hrcv⟩
        change (s.kcp.updateFlushes current).all Kcp.flushChecks = true
        rw [hnone]
        rfl
    | flush =>
      obtain ⟨hchecks, hplain⟩ := h.windowed.flush.2 hf h.plain
      exact ⟨hchecks, hplain, h.rcvPlain.of_rcv (rcv_flush s.kcp)⟩
    | flushAck =>
      refine ⟨rfl, (sameWindow_flushAck s.kcp).plain h.plain, h.rcvPlain.of_rcv ?_⟩
      change s.kcp.flushAck.1.rcv = s.kcp.rcv
      unfold Kcp.flushAck
      split
      · rfl
      · exact (Kcp.flushAckInner_frame s.kcp s.kcp.ackSegment).2
    | retransmitSn sn => exact ⟨rfl, (sameWindow_retransmitSn s.kcp sn).plain h.plain, h.rcvPlain⟩
    | setMtu mtu =>
      exact ⟨rfl, (sameWindow_setMtu s.kcp mtu).plain h.plain,
        h.rcvPlain.of_rcv (Kcp.setMtu_frame s.kcp mtu).1⟩
    | setNodelay | setWndsize => exact ⟨rfl, h.plain, h.rcvPlain⟩

/-- **A step that does not fit panics.** -/
theorem not_checks_of_not_fits {e : SequencedEvent} (h : ¬ s.Fits e) : s.checks e = false := by
  cases e with
  | segment acks head buf =>
    obtain ⟨hpush, hpast⟩ := Classical.not_imp.mp h
    change s.kcp.segmentChecks head buf = false
    rw [Kcp.segmentChecks, acceptPushChecks_of_not_fits (k := s.kcp.inputHead head) hpast, hpush]
    rfl
  | inputEnd => exact absurd trivial h
  | act a =>
    cases a with
    | flush => exact flushChecks_of_not_fits h
    | update current =>
      obtain ⟨k', hk⟩ := Classical.not_forall.mp h
      obtain ⟨hflushes, hpast⟩ := Classical.not_imp.mp hk
      change (s.kcp.updateFlushes current).all Kcp.flushChecks = false
      rw [hflushes]
      exact flushChecks_of_not_fits hpast
    | send | recv | flushAck | retransmitSn | setMtu | setNodelay | setWndsize =>
      exact absurd trivial h

end Sequenced

/-- **The window, in every run**, also one that passes 2^32: the send buffer is strictly in order
from `snd_una` on and before `snd_nxt`, and `parse_una` removes exactly the segments before `una`,
both counted from `snd_una`. -/
theorem window_any_run {s : Sequenced} (h : sequenced.Reach s) : Windowed s.kcp := by
  refine h.invariant (P := fun s => Windowed s.kcp) ?_ ?_
  · rintro _ ⟨conv, stream, snd, rcv, rfl⟩
    exact .start snd
  · intro s e s' hw hs
    cases hs
    exact s.windowed_run hw e

theorem safe_of_fits {s : Sequenced} (h : (sequenced.restrict Sequenced.Fits).Reach s) :
    s.Safe := by
  refine h.invariant (P := Sequenced.Safe) ?_ ?_
  · rintro _ ⟨conv, stream, snd, rcv, rfl⟩
    exact ⟨.start snd, Nat.le_refl _, nofun, rfl⟩
  · rintro s e s' hsafe ⟨hf, hs⟩
    cases hs
    obtain ⟨hchecks, hplain, hrcv⟩ := hsafe.run hf
    exact ⟨s.windowed_run hsafe.windowed e, hplain, hrcv, by rw [hsafe.quiet, hchecks]; rfl⟩

/-- **The send window over the whole sequence space.**  From any two numbers, in every run: the send
buffer's numbers are strictly in order inside `[snd_una, snd_nxt)`, and `parse_una` removes exactly
those before `una`.  In a run whose windows end below 2^32 wherever they are looked at, no sum of
sequence numbers overflows and `parse_ack` removes exactly the acknowledged segment; and a next
step overflows exactly when its window does not. -/
theorem send_window (s : Sequenced) :
    (sequenced.Reach s →
      s.kcp.sndBuf.Pairwise
        (fun a b => (a.sn - s.kcp.sndUna).toNat < (b.sn - s.kcp.sndUna).toNat) ∧
      (∀ a ∈ s.kcp.sndBuf,
        (a.sn - s.kcp.sndUna).toNat < (s.kcp.sndNxt - s.kcp.sndUna).toNat) ∧
      ∀ una, (s.kcp.parseUna una).sndBuf = s.kcp.sndBuf.filter fun a =>
        decide (timediff una s.kcp.sndUna ≤ ((a.sn - s.kcp.sndUna).toNat : Int))) ∧
    ((sequenced.restrict Sequenced.Fits).Reach s →
      s.panicked = false ∧
      (∀ sn, (s.kcp.parseAck sn).sndBuf = s.kcp.sndBuf.filter fun a => decide (a.sn ≠ sn)) ∧
      ∀ e s', s.step e = some s' → (s'.panicked = false ↔ s.Fits e)) := by
  constructor
  · intro h
    have hw := window_any_run h
    exact ⟨hw.order, fun a ha => hw.within a.sn (List.mem_map_of_mem ha), hw.parseUna⟩
  · intro h
    have hs := safe_of_fits h
    refine ⟨hs.quiet, hs.windowed.parseAck hs.plain, fun e s' hstep => ?_⟩
    cases hstep
    change (s.panicked || !s.checks e) = false ↔ s.Fits e
    rw [hs.quiet, Bool.false_or, Bool.not_eq_false']
    constructor
    · intro hchecks
      by_contra hno
      rw [Sequenced.not_checks_of_not_fits hno] at hchecks
      cases hchecks
    · exact fun hf => (hs.run hf).1

/-! ## 10. Runs on fixed inputs -/

/-- Two segments are sent. -/
def twoSegments : List SequencedEvent :=
  [.act (.setNodelay true 10 2 true), .act (.send [1]), .act (.update 100), .act (.send [2]),
    .act .flush]

/-- A conversation that starts at `sn`. -/
def startingFrom (sn : U32) : Sequenced :=
  ⟨{ construct 7 true with sndUna := sn, sndNxt := sn, rcvNxt := 0 }, false⟩

theorem send_window_from_five :
    ∃ s : Sequenced, s.kcp.sndBuf.map KcpSegment.sn = [5, 6] ∧ s.panicked = false ∧
      (∀ sn, (s.kcp.parseAck sn).sndBuf = s.kcp.sndBuf.filter fun a => decide (a.sn ≠ sn)) := by
  have hrun : (Lts.runWith Sequenced.step Sequenced.checks (startingFrom 5) twoSegments).any
      (fun s => s.kcp.sndBuf.map KcpSegment.sn = [5, 6]) = true := by
    decide +kernel
  have hfits : ∀ (s : Sequenced) e, s.checks e = true → s.Fits e := by
    intro s e hchecks
    by_contra hno
    rw [Sequenced.not_checks_of_not_fits hno] at hchecks
    cases hchecks
  obtain ⟨s, hs, hp⟩ := Lts.Reach.exists_runWith (T := sequenced) (C := Sequenced.Fits)
    (fun _ _ _ h => h) hfits ⟨7, true, 5, 0, rfl⟩ hrun
  obtain ⟨hquiet, hacks, -⟩ := (send_window s).2 hs
  exact ⟨s, of_decide_eq_true hp, hquiet, hacks⟩

/-- **The window passes 2^32**: a checked build has panicked, and an ack finds its segment in the
buffer and leaves it there. -/
theorem send_window_wraps :
    ∃ s : Sequenced, sequenced.Reach s ∧ s.panicked = true ∧
      s.kcp.sndBuf.map KcpSegment.sn = [-1, 0] ∧
      (s.kcp.parseAck 0).sndBuf.map KcpSegment.sn = [-1, 0] := by
  have hrun : (Lts.runWith Sequenced.step (fun _ _ => true) (startingFrom (-1)) twoSegments).any
      (fun s => s.panicked = true ∧ s.kcp.sndBuf.map KcpSegment.sn = [-1, 0] ∧
        (s.kcp.parseAck 0).sndBuf.map KcpSegment.sn = [-1, 0]) = true := by
    decide +kernel
  obtain ⟨s, hs, hp⟩ := Lts.Reach.exists_run (T := sequenced) (fun _ _ _ h => h)
    ⟨7, true, -1, 0, rfl⟩ hrun
  exact ⟨s, hs, of_decide_eq_true hp⟩

end Molehill
