/-
# The receive pipeline under any input

A data segment is acknowledged in `accept_push`, dropped as a repeat or put in its place in
`parse_data`, and moved to the receive queue by `move_buf`, which a pop runs again.  This module
follows the three under datagrams of any bytes:

* `InWindow`: the receive buffer is in order, inside the window and starts behind a gap unless the
  queue is full, and the queue keeps to the window;
* `receive_pipeline`: this holds in every reachable state, the queue is the run of numbers that ends
  at `rcv_nxt`, and a number in the ack list is one of those before `rcv_nxt` or is in the buffer.

A number on the wire is 32 bits wide; which segment it is the number of is read off against
`rcv_nxt` when the datagram comes (`Receiver.mark`), and kept beside the ack list.  The window is
set where the engine is made, as the adapter does.
-/
import Mathlib.Data.List.Forall2
import Mathlib.Data.List.Induction
import Molehill.Kcp.Delivery

namespace Molehill

open Lib

/-! ## 1. Distances from `rcv_nxt` -/

/-- How far a segment is ahead of a number. -/
def KcpSegment.offset (nxt : U32) (s : KcpSegment) : Nat := (s.sn - nxt).toNat

theorem KcpSegment.sn_eq (R : Nat) (s : KcpSegment) :
    s.sn = BitVec.ofNat 32 (R + s.offset (BitVec.ofNat 32 R)) := by
  rw [KcpSegment.offset, BitVec.ofNat_add, BitVec.ofNat_toNat, BitVec.setWidth_eq,
    BitVec.add_comm, BitVec.sub_add_cancel]

theorem KcpSegment.offset_eq_zero {nxt : U32} {s : KcpSegment} : s.offset nxt = 0 ↔ s.sn = nxt := by
  rw [KcpSegment.offset]
  constructor
  · intro h
    bv_omega
  · intro h
    bv_omega

/-- The next number is one nearer to every segment ahead. -/
theorem KcpSegment.offset_succ {nxt : U32} {s : KcpSegment} (h : 0 < s.offset nxt) :
    s.offset (nxt + 1) + 1 = s.offset nxt := by
  rw [KcpSegment.offset] at h ⊢
  rw [KcpSegment.offset]
  bv_omega

/-- Inside a window, the order of two numbers is that of their distances. -/
theorem timediff_offset {R : Nat} {s t : KcpSegment}
    (hs : s.offset (BitVec.ofNat 32 R) < 65536) (ht : t.offset (BitVec.ofNat 32 R) < 65536) :
    timediff s.sn t.sn =
      (s.offset (BitVec.ofNat 32 R) : Int) - (t.offset (BitVec.ofNat 32 R) : Int) := by
  have hdiff := seqDiff32_of_near (a := R + s.offset (BitVec.ofNat 32 R))
    (b := R + t.offset (BitVec.ofNat 32 R)) (by omega) (by omega)
  rw [timediff]
  conv_lhs => rw [s.sn_eq R, t.sn_eq R, hdiff]
  omega

/-- The two tests of the window. -/
theorem offset_lt_of_window {nxt : U32} {wnd : U16} {s : KcpSegment}
    (hwin : timediff s.sn (nxt + wnd.setWidth 32) < 0) (hold : 0 ≤ timediff s.sn nxt) :
    s.offset nxt < wnd.toNat := by
  have hw := wnd.isLt
  have hnxt : nxt = BitVec.ofNat 32 nxt.toNat := by
    rw [BitVec.ofNat_toNat, BitVec.setWidth_eq]
  generalize nxt.toNat = R at hnxt
  rw [hnxt] at hwin hold ⊢
  have hsn := s.sn_eq R
  have hlt : s.offset (BitVec.ofNat 32 R) < 2 ^ 32 := BitVec.isLt _
  generalize s.offset (BitVec.ofNat 32 R) = d at hsn hlt
  rw [ofNat_add_setWidth, hsn, timediff, seqDiff_ofNat, Int.bmod_def] at hwin
  rw [hsn, timediff, seqDiff_ofNat, Int.bmod_def] at hold
  simp only [Nat.reducePow] at hwin hold hlt
  omega

/-! ## 2. The buffer and the queue -/

/-- The buffer is in order. -/
def Ordered (nxt : U32) (buf : List KcpSegment) : Prop :=
  buf.Pairwise fun s t => s.offset nxt < t.offset nxt

/-- Behind the first segment every distance is positive. -/
theorem Ordered.tail_pos {nxt : U32} {seg : KcpSegment} {rest : List KcpSegment}
    (h : Ordered nxt (seg :: rest)) : ∀ s ∈ rest, 0 < s.offset nxt := by
  intro s hs
  have hlt := (List.pairwise_cons.mp h).1 s hs
  omega

theorem Ordered.tail_succ {nxt : U32} {seg : KcpSegment} {rest : List KcpSegment}
    (h : Ordered nxt (seg :: rest)) : Ordered (nxt + 1) rest := by
  refine (List.pairwise_cons.mp h).2.imp_of_mem ?_
  intro s t hs ht hlt
  have hs' := KcpSegment.offset_succ (h.tail_pos s hs)
  have ht' := KcpSegment.offset_succ (h.tail_pos t ht)
  omega

/-- The numbers `lo`, `lo + 1`, … of `n` segments. -/
def numbers (lo n : Nat) : List U32 := (List.range n).map fun i => BitVec.ofNat 32 (lo + i)

theorem numbers_cons (lo n : Nat) :
    numbers lo (n + 1) = BitVec.ofNat 32 lo :: numbers (lo + 1) n := by
  rw [numbers, numbers, List.range_succ_eq_map, List.map_cons, List.map_map, Nat.add_zero]
  congr 1
  refine List.map_congr_left fun i _ => ?_
  change BitVec.ofNat 32 (lo + (i + 1)) = BitVec.ofNat 32 (lo + 1 + i)
  rw [Nat.add_right_comm lo 1 i, Nat.add_assoc]

/-- **What the move loop does**: the first segments of the buffer, as long as they come without a
gap and the queue has room, move to the queue. -/
structure Moved (wnd : Nat) (buf : List KcpSegment) (R : Nat) (queue buf' : List KcpSegment)
    (R' : Nat) (queue' : List KcpSegment) : Prop where
  count : R' + queue.length = R + queue'.length
  forward : R ≤ R'
  ordered : Ordered (BitVec.ofNat 32 R') buf'
  /-- What stays is as much nearer as `rcv_nxt` moved. -/
  stays : ∀ s ∈ buf', s ∈ buf ∧
    R' + s.offset (BitVec.ofNat 32 R') = R + s.offset (BitVec.ofNat 32 R)
  done : queue'.length < wnd → ∀ s ∈ buf', s.sn ≠ BitVec.ofNat 32 R'
  room : queue'.length ≤ wnd
  numbered : queue'.map KcpSegment.sn = queue.map KcpSegment.sn ++ numbers R (R' - R)
  kept : ∀ s ∈ buf, R + s.offset (BitVec.ofNat 32 R) < R' ∨ s ∈ buf'

theorem moveBufLoop_moved {wnd : Nat} {buf : List KcpSegment} {R : Nat} {queue : List KcpSegment}
    (hord : Ordered (BitVec.ofNat 32 R) buf) (hroom : queue.length ≤ wnd) :
    ∃ R', (Kcp.moveBufLoop wnd buf (BitVec.ofNat 32 R) queue).2.1 = BitVec.ofNat 32 R' ∧
      Moved wnd buf R queue (Kcp.moveBufLoop wnd buf (BitVec.ofNat 32 R) queue).1 R'
        (Kcp.moveBufLoop wnd buf (BitVec.ofNat 32 R) queue).2.2 := by
  induction buf generalizing R queue with
  | nil =>
    exact ⟨R, rfl, rfl, Nat.le_refl _, hord, fun _ h => (nomatch h), fun _ _ h => (nomatch h),
      hroom, by simp [Kcp.moveBufLoop, numbers], fun _ h => (nomatch h)⟩
  | cons seg rest ih =>
    rw [Kcp.moveBufLoop]
    split
    case isTrue htake =>
      obtain ⟨hsn, hlt⟩ := htake
      have hsucc : BitVec.ofNat 32 R + 1 = BitVec.ofNat 32 (R + 1) := (BitVec.ofNat_add R 1).symm
      have hzero := KcpSegment.offset_eq_zero.mpr hsn
      rw [hsucc]
      have hroom' : (queue ++ [seg]).length ≤ wnd := by
        rw [List.length_append, List.length_singleton]
        omega
      obtain ⟨R', hnxt, h⟩ := ih (hsucc ▸ hord.tail_succ) hroom'
      have hcount := h.count
      have hforward := h.forward
      rw [List.length_append, List.length_singleton] at hcount
      have hnear : ∀ s ∈ rest, R + 1 + s.offset (BitVec.ofNat 32 (R + 1)) =
          R + s.offset (BitVec.ofNat 32 R) := by
        intro s hs
        have hpos := KcpSegment.offset_succ (hord.tail_pos s hs)
        rw [hsucc] at hpos
        omega
      refine ⟨R', hnxt, by omega, by omega, h.ordered, ?_, h.done, h.room, ?_, ?_⟩
      · intro s hs
        obtain ⟨hmem, heq⟩ := h.stays s hs
        exact ⟨List.mem_cons_of_mem _ hmem, heq.trans (hnear s hmem)⟩
      · have hlen : R' - R = (R' - (R + 1)) + 1 := by omega
        rw [h.numbered, hlen, numbers_cons, List.map_append, List.map_singleton, hsn,
          List.append_assoc]
        rfl
      · intro s hs
        obtain rfl | hs := List.mem_cons.mp hs
        · exact Or.inl (by omega)
        · rw [← hnear s hs]
          exact h.kept s hs
    case isFalse hstop =>
      refine ⟨R, rfl, rfl, Nat.le_refl _, hord, fun s hs => ⟨hs, rfl⟩, ?_, hroom,
        by simp [numbers], fun s hs => Or.inr hs⟩
      intro hlt s hs
      obtain rfl | hs := List.mem_cons.mp hs
      · exact fun hsn => hstop ⟨hsn, hlt⟩
      · intro hsn
        have hpos := hord.tail_pos s hs
        rw [KcpSegment.offset_eq_zero.mpr hsn] at hpos
        exact absurd hpos (Nat.lt_irrefl 0)

/-- **The insertion keeps the order**, and a number that is not put in is there already. -/
theorem insertSlot_ordered {R : Nat} {s : KcpSegment} (hs : s.offset (BitVec.ofNat 32 R) < 65536)
    {segs : List KcpSegment} (hord : Ordered (BitVec.ofNat 32 R) segs)
    (hwin : ∀ t ∈ segs, t.offset (BitVec.ofNat 32 R) < 65536) :
    (Kcp.insertSlot s.sn segs.reverse = none → ∃ t ∈ segs, t.sn = s.sn) ∧
      ∀ j, Kcp.insertSlot s.sn segs.reverse = some j →
        j ≤ segs.length ∧ Ordered (BitVec.ofNat 32 R) (segs.insertIdx j s) := by
  induction segs using List.reverseRecOn with
  | nil =>
    refine ⟨(fun h => by cases h), fun j hj => ?_⟩
    simp only [List.reverse_nil, Kcp.insertSlot, Option.some.injEq] at hj
    subst hj
    exact ⟨Nat.le_refl _, List.pairwise_singleton _ _⟩
  | append_singleton front t ih =>
    obtain ⟨hfront, -, hlast⟩ := List.pairwise_append.mp hord
    have ht := hwin t (List.mem_append_right _ (List.mem_singleton_self t))
    have hdiff := timediff_offset hs ht
    obtain ⟨hnone, hsome⟩ := ih hfront fun t' ht' => hwin t' (List.mem_append_left _ ht')
    rw [List.reverse_append, List.reverse_singleton, List.singleton_append, Kcp.insertSlot]
    by_cases hsame : t.sn = s.sn
    · rw [if_pos hsame]
      exact ⟨fun _ => ⟨t, List.mem_append_right _ (List.mem_singleton_self t), hsame⟩,
        fun j hj => by cases hj⟩
    · rw [if_neg hsame]
      by_cases hbehind : 0 < timediff s.sn t.sn
      · rw [if_pos hbehind]
        refine ⟨(fun h => by cases h), fun j hj => ?_⟩
        rw [List.length_reverse, Option.some.injEq] at hj
        have hall : front.length + 1 = (front ++ [t]).length := by simp
        rw [← hj, hall, List.insertIdx_length_self]
        refine ⟨Nat.le_refl _, List.pairwise_append.mpr ⟨hord, List.pairwise_singleton _ _, ?_⟩⟩
        intro t' ht' u hu
        rw [List.mem_singleton.mp hu]
        obtain ht' | ht' := List.mem_append.mp ht'
        · have hlt := hlast t' ht' t (List.mem_singleton_self t)
          omega
        · rw [List.mem_singleton.mp ht']
          omega
      · rw [if_neg hbehind]
        constructor
        · intro hj
          obtain ⟨t', ht', heq⟩ := hnone hj
          exact ⟨t', List.mem_append_left _ ht', heq⟩
        · intro j hj
          obtain ⟨hle, hins⟩ := hsome j hj
          have hlt : s.offset (BitVec.ofNat 32 R) < t.offset (BitVec.ofNat 32 R) := by
            have hne : s.offset (BitVec.ofNat 32 R) ≠ t.offset (BitVec.ofNat 32 R) := by
              intro heq
              refine hsame ?_
              rw [t.sn_eq R, s.sn_eq R, heq]
            omega
          rw [insertIdx_concat s t front j hle]
          refine ⟨by rw [List.length_append]; omega,
            List.pairwise_append.mpr ⟨hins, List.pairwise_singleton _ _, ?_⟩⟩
          intro t' ht' u hu
          rw [List.mem_singleton.mp hu]
          obtain rfl | ht' := (List.mem_insertIdx hle).mp ht'
          · exact hlt
          · exact hlast t' ht' t (List.mem_singleton_self t)

/-! ## 3. What is acknowledged is there -/

/-- The number that a pending ack stands for has been moved to the queue, or is in the buffer. -/
def Held (R : Nat) (buf : List KcpSegment) (ack : U32 × U32) (n : Int) : Prop :=
  ack.1 = BitVec.ofInt 32 n ∧
    (n < R ∨ ∃ s ∈ buf, s.sn = ack.1 ∧ n = R + s.offset (BitVec.ofNat 32 R))

/-- The receive side of an engine that has handed `popped` segments over, with `R` the number behind
`rcv_nxt` and `marks` the numbers that the pending acks stand for. -/
structure Assembled (popped R : Nat) (marks : List Int) (k : Kcp) : Prop where
  nxt : k.rcvNxt = BitVec.ofNat 32 R
  ordered : Ordered (BitVec.ofNat 32 R) k.rcvBuf
  within : ∀ s ∈ k.rcvBuf, s.offset (BitVec.ofNat 32 R) < k.rcvWnd.toNat
  room : k.rcvQueue.length ≤ k.rcvWnd.toNat
  count : R = popped + k.rcvQueue.length
  queue : k.rcvQueue.map KcpSegment.sn = numbers popped k.rcvQueue.length
  acks : List.Forall₂ (Held R k.rcvBuf) k.acklist marks

/-- What can be moved has been. -/
def Settled (k : Kcp) : Prop :=
  k.rcvQueue.length < k.rcvWnd.toNat → ∀ s ∈ k.rcvBuf, s.sn ≠ k.rcvNxt

variable {popped R : Nat} {marks : List Int} {k k' : Kcp}

/-- What an operation leaves alone. -/
theorem Assembled.of_rcv (h : Assembled popped R marks k) (hrcv : k'.rcv = k.rcv)
    (hacks : k'.acklist = k.acklist) : Assembled popped R marks k' := by
  have h1 : k'.rcvNxt = k.rcvNxt := congrArg RcvView.rcvNxt hrcv
  have h2 : k'.rcvWnd = k.rcvWnd := congrArg RcvView.rcvWnd hrcv
  have h3 : k'.rcvQueue = k.rcvQueue := congrArg RcvView.rcvQueue hrcv
  have h4 : k'.rcvBuf = k.rcvBuf := congrArg RcvView.rcvBuf hrcv
  obtain ⟨hnxt, hord, hwin, hroom, hcount, hqueue, hheld⟩ := h
  rw [← h1] at hnxt
  rw [← h4] at hord hheld
  rw [← h3] at hcount hqueue
  rw [← hacks] at hheld
  rw [← h4, ← h2] at hwin
  rw [← h3, ← h2] at hroom
  exact ⟨hnxt, hord, hwin, hroom, hcount, hqueue, hheld⟩

theorem Settled.of_rcv (h : Settled k) (hrcv : k'.rcv = k.rcv) : Settled k' := by
  have h1 : k'.rcvNxt = k.rcvNxt := congrArg RcvView.rcvNxt hrcv
  have h2 : k'.rcvWnd = k.rcvWnd := congrArg RcvView.rcvWnd hrcv
  have h3 : k'.rcvQueue = k.rcvQueue := congrArg RcvView.rcvQueue hrcv
  have h4 : k'.rcvBuf = k.rcvBuf := congrArg RcvView.rcvBuf hrcv
  rw [Settled, h1, h2, h3, h4]
  exact h

theorem numbers_append (lo m n : Nat) :
    numbers lo (m + n) = numbers lo m ++ numbers (lo + m) n := by
  rw [numbers, List.range_add, List.map_append, List.map_map]
  congr 1
  refine List.map_congr_left fun i _ => ?_
  change BitVec.ofNat 32 (lo + (m + i)) = BitVec.ofNat 32 (lo + m + i)
  rw [Nat.add_assoc]

/-- **`move_buf`** leaves nothing to move. -/
theorem Assembled.moveBuf (h : Assembled popped R marks k) :
    ∃ R', R ≤ R' ∧ Assembled popped R' marks k.moveBuf ∧ Settled k.moveBuf := by
  obtain ⟨R', hnxt, hm⟩ := moveBufLoop_moved h.ordered h.room
  have hcount := h.count
  have hc := hm.count
  have hf := hm.forward
  unfold Kcp.moveBuf
  rw [h.nxt]
  generalize Kcp.moveBufLoop k.rcvWnd.toNat k.rcvBuf (BitVec.ofNat 32 R) k.rcvQueue = r
    at hnxt hm hc
  obtain ⟨buf', nxt', queue'⟩ := r
  dsimp only at hnxt hm hc ⊢
  refine ⟨R', hf, ⟨hnxt, hm.ordered, ?_, hm.room, ?_, ?_, ?_⟩, ?_⟩
  · intro s hs
    obtain ⟨hmem, heq⟩ := hm.stays s hs
    have hwin := h.within s hmem
    have hlt : s.offset (BitVec.ofNat 32 R') < k.rcvWnd.toNat := by omega
    exact hlt
  · change R' = popped + queue'.length
    omega
  · change queue'.map KcpSegment.sn = numbers popped queue'.length
    have hlen : queue'.length = k.rcvQueue.length + (R' - R) := by omega
    rw [hm.numbered, h.queue, hlen, numbers_append, ← hcount]
  · refine h.acks.imp ?_
    rintro ack n ⟨hsn, hheld⟩
    refine ⟨hsn, ?_⟩
    obtain hlt | ⟨s, hs, hsn', rfl⟩ := hheld
    · exact Or.inl (by omega)
    · obtain hmoved | hmem := hm.kept s hs
      · exact Or.inl (by omega)
      · have heq := (hm.stays s hmem).2
        exact Or.inr ⟨s, hmem, hsn', by omega⟩
  · intro hlt
    rw [hnxt]
    exact hm.done hlt

/-- The number that an ack stands for: the one nearest to `rcv_nxt` when its datagram came. -/
def markOf (R : Nat) (ack : U32 × U32) : Int := R + timediff ack.1 (BitVec.ofNat 32 R)

theorem markOf_name (R : Nat) (ack : U32 × U32) : ack.1 = BitVec.ofInt 32 (markOf R ack) := by
  rw [markOf, BitVec.ofInt_add, timediff, seqDiff, BitVec.ofInt_toInt, BitVec.ofInt_natCast,
    BitVec.add_comm, BitVec.sub_add_cancel]

/-- A number that is not ahead of the window is the same all through a datagram, which moves
`rcv_nxt` by less than a window. -/
theorem markOf_eq {R0 : Nat} {wnd : U16} (ack : U32 × U32) (hle : R0 ≤ R) (hlt : R ≤ R0 + 65535)
    (hwin : timediff ack.1 (BitVec.ofNat 32 R + wnd.setWidth 32) < 0) :
    markOf R0 ack = R + timediff ack.1 (BitVec.ofNat 32 R) := by
  have hw := wnd.isLt
  have hsn : ack.1 = BitVec.ofNat 32 ack.1.toNat := by
    rw [BitVec.ofNat_toNat, BitVec.setWidth_eq]
  generalize ack.1.toNat = x at hsn
  rw [hsn, ofNat_add_setWidth, timediff, seqDiff_ofNat, Int.bmod_def] at hwin
  rw [markOf, hsn, timediff, timediff, seqDiff_ofNat, seqDiff_ofNat, Int.bmod_def, Int.bmod_def]
  simp only [Nat.reducePow] at hwin ⊢
  omega

@[simp] theorem Kcp.acklist_parseData (k : Kcp) (seg : KcpSegment) :
    (k.parseData seg).acklist = k.acklist := by
  unfold Kcp.parseData
  split
  · rfl
  · change (k.insertSegment seg).acklist = k.acklist
    unfold Kcp.insertSegment
    split
    · rfl
    · rfl

/-- **`parse_data`** on a segment of the window, which has been acknowledged. -/
theorem Assembled.parseData (h : Assembled popped R marks k) (ts : U32) (seg : KcpSegment)
    (hwin : timediff seg.sn (BitVec.ofNat 32 R + k.rcvWnd.setWidth 32) < 0)
    (hnew : 0 ≤ timediff seg.sn (BitVec.ofNat 32 R)) :
    ∃ R', R ≤ R' ∧
      Assembled popped R' (marks ++ [R + timediff seg.sn (BitVec.ofNat 32 R)])
        ((k.ackPush seg.sn ts).parseData seg) ∧
      Settled ((k.ackPush seg.sn ts).parseData seg) := by
  have hw := k.rcvWnd.isLt
  have hoff := offset_lt_of_window hwin hnew
  have hbound : ∀ t ∈ k.rcvBuf, t.offset (BitVec.ofNat 32 R) < 65536 := fun t ht =>
    Nat.lt_trans (h.within t ht) hw
  obtain ⟨hnone, hsome⟩ := insertSlot_ordered (Nat.lt_trans hoff hw) h.ordered hbound
  -- The distance of the segment is the difference its number was tested by.
  have hdist : timediff seg.sn (BitVec.ofNat 32 R) = seg.offset (BitVec.ofNat 32 R) := by
    have hdiff := seqDiff32_of_near (a := R + seg.offset (BitVec.ofNat 32 R)) (b := R)
      (by omega) (by omega)
    rw [timediff]
    conv_lhs => rw [seg.sn_eq R, hdiff]
    omega
  have hname := markOf_name R (seg.sn, ts)
  rw [markOf] at hname
  have hopen : ¬ (0 ≤ timediff seg.sn
      ((k.ackPush seg.sn ts).rcvNxt + (k.ackPush seg.sn ts).rcvWnd.setWidth 32) ∨
        timediff seg.sn (k.ackPush seg.sn ts).rcvNxt < 0) := by
    change ¬ (0 ≤ timediff seg.sn (k.rcvNxt + k.rcvWnd.setWidth 32) ∨ timediff seg.sn k.rcvNxt < 0)
    rw [h.nxt]
    omega
  rw [Kcp.parseData, if_neg hopen]
  suffices hins : Assembled popped R (marks ++ [R + timediff seg.sn (BitVec.ofNat 32 R)])
      ((k.ackPush seg.sn ts).insertSegment seg) from hins.moveBuf
  have hsn : BitVec.ofInt 32 (R + timediff seg.sn (BitVec.ofNat 32 R)) = seg.sn := hname.symm
  rw [Kcp.insertSegment]
  cases hslot : Kcp.insertSlot seg.sn k.rcvBuf.reverse with
  | none =>
    obtain ⟨t, ht, heq⟩ := hnone hslot
    have hslot' : Kcp.insertSlot seg.sn (k.ackPush seg.sn ts).rcvBuf.reverse = none := hslot
    rw [hslot']
    refine ⟨h.nxt, h.ordered, h.within, h.room, h.count, h.queue, ?_⟩
    refine List.rel_append h.acks (.cons ⟨hsn.symm, Or.inr ⟨t, ht, heq, ?_⟩⟩ .nil)
    rw [hdist, KcpSegment.offset, KcpSegment.offset, heq]
  | some j =>
    obtain ⟨hle, hord⟩ := hsome j hslot
    have hslot' : Kcp.insertSlot seg.sn (k.ackPush seg.sn ts).rcvBuf.reverse = some j := hslot
    rw [hslot']
    refine ⟨h.nxt, hord, ?_, h.room, h.count, h.queue, ?_⟩
    · intro t ht
      obtain rfl | ht := (List.mem_insertIdx hle).mp ht
      · exact hoff
      · exact h.within t ht
    · have hgrows : ∀ t ∈ k.rcvBuf, t ∈ k.rcvBuf.insertIdx j seg := fun t ht =>
        (List.mem_insertIdx hle).mpr (Or.inr ht)
      refine List.rel_append (h.acks.imp ?_) (.cons ⟨hsn.symm, Or.inr ⟨seg, ?_, rfl, ?_⟩⟩ .nil)
      · rintro ack n ⟨hsn', hheld⟩
        refine ⟨hsn', hheld.imp_right ?_⟩
        rintro ⟨s, hs, hs', heq⟩
        exact ⟨s, hgrows s hs, hs', heq⟩
      · exact (List.mem_insertIdx hle).mpr (Or.inl rfl)
      · rw [hdist]

/-- What a part of a datagram did: `new` are the acks it put in the list. -/
structure Taken (popped R0 : Nat) (acks0 : List (U32 × U32)) (marks0 : List Int) (R : Nat)
    (k : Kcp) : Prop where
  forward : R0 ≤ R
  acks : ∃ new, k.acklist = acks0 ++ new ∧
    Assembled popped R (marks0 ++ new.map (markOf R0)) k
  settled : Settled k

/-- **`accept_push`** on a payload that is all there. -/
theorem Taken.acceptPush {R0 : Nat} {acks0 : List (U32 × U32)} {marks0 : List Int}
    (h : Taken popped R0 acks0 marks0 R k) (hnear : R ≤ R0 + 65535) {head : SegHead} {buf : Bytes}
    (hlen : head.len ≤ buf.length) :
    ∃ R', R ≤ R' ∧ Taken popped R0 acks0 marks0 R' (k.acceptPush head buf).1 := by
  obtain ⟨hle, ⟨new, hacks, ha⟩, hsettled⟩ := h
  rw [Kcp.acceptPush]
  split
  case isTrue => exact ⟨R, Nat.le_refl _, hle, ⟨new, hacks, ha⟩, hsettled⟩
  case isFalse hin =>
    have hwin : timediff head.sn (BitVec.ofNat 32 R + k.rcvWnd.setWidth 32) < 0 := by
      rw [← ha.nxt]
      omega
    have hmark := markOf_eq (head.sn, head.ts) hle hnear hwin
    have hnew : (k.ackPush head.sn head.ts).acklist = acks0 ++ (new ++ [(head.sn, head.ts)]) := by
      rw [← List.append_assoc, ← hacks]
      rfl
    have hmarks : marks0 ++ (new ++ [(head.sn, head.ts)]).map (markOf R0) =
        (marks0 ++ new.map (markOf R0)) ++ [R + timediff head.sn (BitVec.ofNat 32 R)] := by
      rw [List.map_append, List.map_singleton, hmark, List.append_assoc]
    dsimp only
    split
    case isTrue hold =>
      have hold' : timediff head.sn (BitVec.ofNat 32 R) < 0 := by
        rw [← ha.nxt]
        exact hold
      refine ⟨R, Nat.le_refl _, hle, ⟨_, hnew, ?_⟩, hsettled⟩
      rw [hmarks]
      refine ⟨ha.nxt, ha.ordered, ha.within, ha.room, ha.count, ha.queue, ?_⟩
      refine List.rel_append ha.acks (.cons ⟨?_, Or.inl (by omega)⟩ .nil)
      exact markOf_name R (head.sn, head.ts)
    case isFalse hnew' =>
      rw [if_neg (by omega)]
      obtain ⟨R', hfor, ha', hs'⟩ := ha.parseData head.ts
        { conv := head.conv, cmd := head.cmd, frg := head.frg, wnd := head.wnd, ts := head.ts,
          sn := head.sn, una := head.una, data := buf.take head.len } hwin
        (by rw [← ha.nxt]; exact Int.not_lt.mp hnew')
      refine ⟨R', hfor, Nat.le_trans hle hfor, ⟨new ++ [(head.sn, head.ts)], ?_, ?_⟩, hs'⟩
      · exact (Kcp.acklist_parseData ..).trans hnew
      · rw [hmarks]
        exact ha'

/-! ## 4. A datagram -/

theorem Kcp.acklist_inputAck (k : Kcp) (head : SegHead) :
    (k.inputAck head).acklist = k.acklist := by
  change ((k.sampleRtt head.ts).parseAck head.sn).acklist = k.acklist
  have hsample : (k.sampleRtt head.ts).acklist = k.acklist := by
    unfold Kcp.sampleRtt
    split
    · rfl
    · rfl
  unfold Kcp.parseAck
  split
  · exact hsample
  · exact hsample

theorem Kcp.acklist_inputEnd (k : Kcp) (acks : Kcp.AckRun) (una : U32) :
    (k.inputEnd acks una).acklist = k.acklist := by
  have hcwnd : ∀ k : Kcp, (k.updateCwndAfterAcks una).acklist = k.acklist := by
    intro k
    unfold Kcp.updateCwndAfterAcks
    split
    · rfl
    · split
      · rfl
      · rfl
  unfold Kcp.inputEnd
  rw [hcwnd]
  split
  · unfold Kcp.parseFastack
    split
    · rfl
    · rfl
  · rfl

theorem Taken.of_rcv {R0 : Nat} {acks0 : List (U32 × U32)} {marks0 : List Int}
    (h : Taken popped R0 acks0 marks0 R k) (hrcv : k'.rcv = k.rcv)
    (hacks : k'.acklist = k.acklist) : Taken popped R0 acks0 marks0 R k' := by
  obtain ⟨hle, ⟨new, hnew, ha⟩, hs⟩ := h
  exact ⟨hle, ⟨new, hacks.trans hnew, ha.of_rcv hrcv hacks⟩, hs.of_rcv hrcv⟩

/-- One round of the loop. -/
theorem Taken.inputSegment {R0 : Nat} {acks0 : List (U32 × U32)} {marks0 : List Int}
    (h : Taken popped R0 acks0 marks0 R k) (hnear : R ≤ R0 + 65535) (acks : Kcp.AckRun)
    {head : SegHead} {buf : Bytes} (hlen : head.len ≤ buf.length) :
    ∃ R', R ≤ R' ∧ Taken popped R0 acks0 marks0 R' (k.inputSegment acks head buf).1 := by
  have hh : Taken popped R0 acks0 marks0 R (k.inputHead head) := h.of_rcv rfl rfl
  unfold Kcp.inputSegment
  split
  case isTrue =>
    exact ⟨R, Nat.le_refl _, hh.of_rcv (Kcp.inputAck_frame _ _).1 (Kcp.acklist_inputAck _ _)⟩
  case isFalse =>
    split
    case isTrue =>
      obtain ⟨R', hle, hpush⟩ := hh.acceptPush hnear hlen
      refine ⟨R', hle, ?_⟩
      split
      case h_1 heq | h_2 heq | h_3 heq =>
        rw [heq] at hpush
        exact hpush
    case isFalse =>
      split
      case isTrue => exact ⟨R, Nat.le_refl _, hh.of_rcv rfl rfl⟩
      case isFalse => exact ⟨R, Nat.le_refl _, hh⟩

/-- A parsed header is followed by the payload it declares. -/
theorem SegHead.parse_len {conv : U32} {buf rest : Bytes} {head : SegHead}
    (h : SegHead.parse conv buf = .ok (head, rest)) : head.len ≤ rest.length := by
  unfold SegHead.parse at h
  dsimp only at h
  split at h
  case isTrue => cases h
  case isFalse =>
    split at h
    case isTrue => cases h
    case isFalse hlen =>
      split at h
      case isTrue => cases h
      case isFalse =>
        cases h
        exact Nat.le_of_not_lt hlen

theorem Taken.near {R0 : Nat} {acks0 : List (U32 × U32)} {marks0 : List Int}
    (h : Taken popped R0 acks0 marks0 R k) (hbase : popped ≤ R0) : R ≤ R0 + 65535 := by
  obtain ⟨-, ⟨_, -, ha⟩, -⟩ := h
  have hcount := ha.count
  have hroom := ha.room
  have hw := k.rcvWnd.isLt
  omega

theorem Taken.inputLoop {R0 : Nat} {acks0 : List (U32 × U32)} {marks0 : List Int}
    (hbase : popped ≤ R0) (h : Taken popped R0 acks0 marks0 R k) (fuel : Nat) (acks : Kcp.AckRun)
    (buf : Bytes) :
    ∃ R', Taken popped R0 acks0 marks0 R' (Kcp.inputLoop fuel k acks buf).1 := by
  induction fuel generalizing R k acks buf with
  | zero => exact ⟨R, h⟩
  | succ fuel ih =>
    unfold Kcp.inputLoop
    split
    case isTrue => exact ⟨R, h⟩
    case isFalse =>
      split
      case h_1 => exact ⟨R, h⟩
      case h_2 head rest hparse =>
        obtain ⟨R', -, hround⟩ := h.inputSegment (h.near hbase) acks (SegHead.parse_len hparse)
        split
        case h_1 heq =>
          rw [heq] at hround
          exact ⟨R', hround⟩
        case h_2 heq =>
          rw [heq] at hround
          exact ih hround _ _

/-- **Any datagram.** -/
theorem Assembled.input (h : Assembled popped R marks k) (hs : Settled k) (buf : Bytes) :
    ∃ R', Taken popped R k.acklist marks R' (k.input buf).1 := by
  have h0 : Taken popped R k.acklist marks R k :=
    ⟨Nat.le_refl _, ⟨[], (List.append_nil _).symm, by simpa using h⟩, hs⟩
  have hbase : popped ≤ R := by
    rw [h.count]
    exact Nat.le_add_right _ _
  obtain ⟨R', hloop⟩ := h0.inputLoop hbase buf.length {} buf
  unfold Kcp.input
  split
  case isTrue => exact ⟨R, h0⟩
  case isFalse =>
    split
    case h_1 heq =>
      rw [heq] at hloop
      exact ⟨R', hloop⟩
    case h_2 heq =>
      rw [heq] at hloop
      exact ⟨R', hloop.of_rcv (Kcp.inputEnd_frame _ _ _).1 (Kcp.acklist_inputEnd _ _ _)⟩

/-! ## 5. A pop and a flush -/

/-- **A pop** hands the first number of the queue over, and moves what has room now. -/
theorem Assembled.recvPop (h : Assembled popped R marks k) :
    (k.recvPop.1 = k ∧ ∃ e, k.recvPop.2 = .error e) ∨
      ∃ R', R ≤ R' ∧ Assembled (popped + 1) R' marks k.recvPop.1 ∧ Settled k.recvPop.1 ∧
        ∃ data, k.recvPop.2 = .ok data := by
  unfold Kcp.recvPop
  split
  case h_1 => exact Or.inl ⟨rfl, _, rfl⟩
  case h_2 seg rest hq =>
    split
    case isTrue => exact Or.inl ⟨rfl, _, rfl⟩
    case isFalse =>
      have hcount := h.count
      have hroom := h.room
      have hqueue := h.queue
      rw [hq, List.length_cons] at hcount hroom
      rw [hq, List.map_cons, List.length_cons, numbers_cons] at hqueue
      have hpop : Assembled (popped + 1) R marks { k with rcvQueue := rest } :=
        ⟨h.nxt, h.ordered, h.within, by show rest.length ≤ k.rcvWnd.toNat; omega,
          by show R = popped + 1 + rest.length; omega, (List.cons.inj hqueue).2, h.acks⟩
      obtain ⟨R', hle, hmoved, hsettled⟩ := hpop.moveBuf
      have hframe := (Kcp.fastRecover_frame ({ k with rcvQueue := rest } : Kcp).moveBuf
        (k.rcvWnd.toNat ≤ k.rcvQueue.length)).2.1
      have hacks : (({ k with rcvQueue := rest } : Kcp).moveBuf.fastRecover
          (k.rcvWnd.toNat ≤ k.rcvQueue.length)).acklist =
            ({ k with rcvQueue := rest } : Kcp).moveBuf.acklist := by
        unfold Kcp.fastRecover
        split
        · rfl
        · rfl
      exact Or.inr ⟨R', hle, hmoved.of_rcv hframe hacks, hsettled.of_rcv hframe, _, rfl⟩

namespace Kcp

/-- What a flush does to the ack list: nothing, or it empties it. -/
def Acked (k k' : Kcp) : Prop := k'.acklist = k.acklist ∨ k'.acklist = []

theorem Acked.refl (k : Kcp) : k.Acked k := Or.inl rfl

theorem acklist_writeBuf (k : Kcp) : k.writeBuf.acklist = k.acklist := by
  unfold writeBuf
  split
  · rfl
  · rfl

theorem acklist_roomFor (k : Kcp) (need : Nat) : (k.roomFor need).acklist = k.acklist := by
  unfold roomFor
  split
  · exact acklist_writeBuf k
  · rfl

theorem acklist_emitSegment (k : Kcp) (seg : KcpSegment) :
    (k.emitSegment seg).acklist = k.acklist := by
  unfold emitSegment
  split
  · rfl
  · exact acklist_roomFor k _

theorem acklist_flushProbe (ask : U32) (cmd : Byte) (r : Kcp × KcpSegment) :
    (flushProbe ask cmd r).1.acklist = r.1.acklist := by
  unfold flushProbe
  split
  · exact acklist_roomFor r.1 _
  · rfl

theorem acklist_armProbe (k : Kcp) (wait : U32) : (k.armProbe wait).acklist = k.acklist := rfl

theorem acklist_flushControl (k : Kcp) : k.flushControl.acklist = [] := by
  have hprobe : ∀ k : Kcp, k.probeWndSize.acklist = k.acklist := by
    intro k
    unfold probeWndSize
    split
    · split
      · exact acklist_armProbe k _
      · split
        · exact acklist_armProbe k (nextProbeWait k.probeWait)
        · rfl
    · rfl
  change (flushProbe kcpAskTell kcpCmdWins (flushProbe kcpAskSend kcpCmdWask
    ((k.flushAckInner k.ackSegment).1.probeWndSize,
      (k.flushAckInner k.ackSegment).2))).1.acklist = []
  rw [acklist_flushProbe, acklist_flushProbe]
  exact hprobe _

theorem acklist_flushSegment (env : FlushEnv) (acc : FlushAcc) (seg : KcpSegment) :
    (flushSegment env acc seg).1.kcp.acklist = acc.kcp.acklist := by
  unfold flushSegment
  split
  case h_1 => rfl
  case h_2 acc' seg' hsend =>
    have hacc : acc'.kcp.acklist = acc.kcp.acklist := by
      unfold needSend at hsend
      dsimp only at hsend
      split at hsend
      · cases hsend
        rfl
      · split at hsend
        · cases hsend
          rfl
        · split at hsend
          · cases hsend
            rfl
          · cases hsend
    dsimp only
    rw [← hacc, ← acklist_emitSegment acc'.kcp { seg' with
      ts := acc'.kcp.current, wnd := env.wnd, una := acc'.kcp.rcvNxt }]
    unfold noteDead
    split
    · rfl
    · rfl

theorem acklist_flushLoop (env : FlushEnv) (segs : List KcpSegment) (acc : FlushAcc) :
    (flushLoop env acc segs).1.kcp.acklist = acc.kcp.acklist := by
  induction segs generalizing acc with
  | nil => rfl
  | cons seg rest ih =>
    rw [flushLoop]
    exact (ih _).trans (acklist_flushSegment env acc seg)

theorem acked_flush (k : Kcp) : k.Acked k.flush.1 := by
  unfold flush
  split
  case isTrue => exact Acked.refl k
  case isFalse =>
    refine Or.inr ?_
    have hthresh : ∀ (k : Kcp) change resent lost cwnd,
        (k.updateSsthresh change resent lost cwnd).acklist = k.acklist := by
      intro k change resent lost cwnd
      unfold updateSsthresh cwndFloor ssthreshAfterLoss ssthreshAfterFast
      split
      all_goals repeat' split
      all_goals rfl
    dsimp only
    rw [hthresh, acklist_writeBuf]
    exact (acklist_flushLoop _ _ _).trans (acklist_flushControl k)

theorem acked_update (k : Kcp) (current : U32) : k.Acked (k.update current).1 := by
  have hmark : ({ k with current := current } : Kcp).markUpdated.acklist = k.acklist := by
    unfold markUpdated
    split
    · rfl
    · rfl
  unfold update
  dsimp only
  split
  case isTrue => exact (acked_flush _).imp_left fun h => h.trans hmark
  case isFalse =>
    split
    case isTrue => exact (acked_flush _).imp_left fun h => h.trans hmark
    case isFalse => exact Or.inl hmark

theorem acked_flushAck (k : Kcp) : k.Acked k.flushAck.1 := by
  unfold flushAck
  split
  case isTrue => exact Acked.refl k
  case isFalse => exact Or.inr rfl

theorem acklist_sendOwned (k : Kcp) (data : Bytes) : (k.sendOwned data).1.acklist = k.acklist := by
  unfold sendOwned
  dsimp only
  split
  · rfl
  · split
    · split
      · rfl
      · rfl
    · rfl

theorem acklist_setMtu (k : Kcp) (mtu : Nat) : (k.setMtu mtu).acklist = k.acklist := by
  unfold setMtu
  dsimp only
  split
  · rfl
  · rfl

end Kcp

/-! ## 6. The receiver -/

/-- An engine, how many segments it has handed over, and the numbers its pending acks stand for. -/
structure Receiver where
  kcp : Kcp
  popped : Nat
  marks : List Int
  deriving DecidableEq

inductive ReceiverEvent
  /-- A datagram of any bytes. -/
  | input (bytes : Bytes)
  /-- A call of the adapter. -/
  | act (a : Action)

/-- The number behind `rcv_nxt`: what was handed over, and what is in the queue. -/
def Receiver.next (r : Receiver) : Nat := r.popped + r.kcp.rcvQueue.length

def Receiver.step (r : Receiver) : ReceiverEvent → Option Receiver
  | .input bytes =>
    let kcp := (r.kcp.input bytes).1
    some { r with
      kcp := kcp
      marks := r.marks ++ (kcp.acklist.drop r.kcp.acklist.length).map (markOf r.next) }
  | .act .recv =>
    let p := r.kcp.recvPop
    some { r with kcp := p.1, popped := if p.2.isOk then r.popped + 1 else r.popped }
  | .act (.setWndsize ..) => none
  | .act a =>
    let kcp := (a.run r.kcp).1
    some { r with kcp := kcp, marks := r.marks.take kcp.acklist.length }

def receiver : Lts Receiver ReceiverEvent where
  init r := ∃ conv stream sndwnd rcvwnd,
    r = ⟨(construct conv stream).setWndsize sndwnd rcvwnd, 0, []⟩
  step r e r' := r.step e = some r'

/-- What the pipeline keeps. -/
structure Receiver.Inv (r : Receiver) : Prop where
  assembled : Assembled r.popped r.next r.marks r.kcp
  settled : Settled r.kcp

/-- A call that leaves the receive direction alone and may send the pending acks. -/
theorem Receiver.Inv.quiet {r : Receiver} (h : r.Inv) {kcp : Kcp} (hrcv : kcp.rcv = r.kcp.rcv)
    (hacks : r.kcp.Acked kcp) :
    Receiver.Inv { r with kcp := kcp, marks := r.marks.take kcp.acklist.length } := by
  have hqueue : kcp.rcvQueue = r.kcp.rcvQueue := congrArg RcvView.rcvQueue hrcv
  have hnext : Receiver.next { r with kcp := kcp, marks := r.marks.take kcp.acklist.length } =
      r.next := by
    rw [Receiver.next, Receiver.next, hqueue]
  have hlen := h.assembled.acks.length_eq
  refine ⟨?_, h.settled.of_rcv hrcv⟩
  rw [hnext]
  obtain hsame | hempty := hacks
  · have hall : r.marks.take kcp.acklist.length = r.marks := by
      rw [hsame, hlen, List.take_length]
    dsimp only
    rw [hall]
    exact h.assembled.of_rcv hrcv hsame
  · have hcleared : Assembled r.popped r.next [] { r.kcp with acklist := [] } :=
      { h.assembled with acks := .nil }
    dsimp only
    rw [hempty, List.length_nil, List.take_zero]
    exact hcleared.of_rcv hrcv hempty

theorem Receiver.Inv.step {r r' : Receiver} (h : r.Inv) {e : ReceiverEvent}
    (hs : r.step e = some r') : r'.Inv := by
  cases e with
  | input bytes =>
    cases hs
    obtain ⟨R', -, ⟨new, hnew, ha⟩, hsettled⟩ := h.assembled.input h.settled bytes
    have hdrop : (r.kcp.input bytes).1.acklist.drop r.kcp.acklist.length = new := by
      rw [hnew, List.drop_left]
    refine ⟨?_, hsettled⟩
    dsimp only
    rw [hdrop, Receiver.next, ← ha.count]
    exact ha
  | act a =>
    cases a with
    | recv =>
      cases hs
      obtain ⟨hsame, e, herr⟩ | ⟨R', -, ha, hsettled, data, hok⟩ := h.assembled.recvPop
      · rw [hsame, herr]
        exact h
      · rw [hok]
        refine ⟨?_, hsettled⟩
        change Assembled (r.popped + 1) (r.popped + 1 + r.kcp.recvPop.1.rcvQueue.length) _ _
        rw [← ha.count]
        exact ha
    | send data =>
      cases hs
      exact h.quiet (Kcp.sendOwned_frame r.kcp data).1 (Or.inl (Kcp.acklist_sendOwned r.kcp data))
    | update current =>
      cases hs
      exact h.quiet (rcv_update r.kcp current) (Kcp.acked_update r.kcp current)
    | flush =>
      cases hs
      exact h.quiet (rcv_flush r.kcp) (Kcp.acked_flush r.kcp)
    | flushAck =>
      cases hs
      refine h.quiet ?_ (Kcp.acked_flushAck r.kcp)
      change r.kcp.flushAck.1.rcv = r.kcp.rcv
      unfold Kcp.flushAck
      split
      · rfl
      · exact (Kcp.flushAckInner_frame r.kcp r.kcp.ackSegment).2
    | retransmitSn sn =>
      cases hs
      exact h.quiet rfl (Or.inl rfl)
    | setMtu mtu =>
      cases hs
      exact h.quiet (Kcp.setMtu_frame r.kcp mtu).1 (Or.inl (Kcp.acklist_setMtu r.kcp mtu))
    | setNodelay nodelay interval resend nc =>
      cases hs
      exact h.quiet rfl (Or.inl rfl)
    | setWndsize sndwnd rcvwnd => cases hs

theorem receiver_inv {r : Receiver} (h : receiver.Reach r) : r.Inv := by
  refine h.invariant (P := Receiver.Inv) ?_ fun r e r' hi hs => hi.step hs
  rintro _ ⟨conv, stream, sndwnd, rcvwnd, rfl⟩
  exact ⟨⟨rfl, .nil, nofun, Nat.zero_le _, rfl, rfl, .nil⟩, fun _ => nofun⟩

/-- **The receive pipeline**, in every state that any datagrams and any calls lead to.  The buffer
is strictly in order and inside the window, and starts behind a gap while the queue has room; the
queue keeps to the window and is the run of numbers from the next one to hand over to `rcv_nxt`; and
the number of every pending ack is before `rcv_nxt`, or its segment is in the buffer. -/
theorem receive_pipeline {r : Receiver} (h : receiver.Reach r) :
    r.kcp.rcvNxt = BitVec.ofNat 32 r.next ∧
    r.kcp.rcvBuf.Pairwise (fun s t => s.offset r.kcp.rcvNxt < t.offset r.kcp.rcvNxt) ∧
    (∀ s ∈ r.kcp.rcvBuf, s.offset r.kcp.rcvNxt < r.kcp.rcvWnd.toNat) ∧
    (r.kcp.rcvQueue.length < r.kcp.rcvWnd.toNat → ∀ s ∈ r.kcp.rcvBuf, s.sn ≠ r.kcp.rcvNxt) ∧
    r.kcp.rcvQueue.length ≤ r.kcp.rcvWnd.toNat ∧
    r.kcp.rcvQueue.map KcpSegment.sn = numbers r.popped r.kcp.rcvQueue.length ∧
    List.Forall₂ (fun ack n => ack.1 = BitVec.ofInt 32 n ∧
      (n < r.next ∨ ∃ s ∈ r.kcp.rcvBuf, s.sn = ack.1 ∧ n = r.next + s.offset r.kcp.rcvNxt))
      r.kcp.acklist r.marks := by
  obtain ⟨ha, hs⟩ := receiver_inv h
  have hnxt := ha.nxt
  refine ⟨hnxt, ?_, ?_, hs, ha.room, ha.queue, ?_⟩
  · rw [hnxt]
    exact ha.ordered
  · rw [hnxt]
    exact ha.within
  · rw [hnxt]
    exact ha.acks

/-- The second segment of a conversation, then one from before its start, then the first: the second
waits in the buffer with its ack pending, until the first comes. -/
def outOfOrder : List ReceiverEvent :=
  [.act (.update 100),
    .input ({ conv := 7, cmd := kcpCmdPush, sn := 1, data := [2] } : KcpSegment).encode,
    .input ({ conv := 7, cmd := kcpCmdPush, sn := -3, data := [9] } : KcpSegment).encode]

theorem receive_pipeline_gap :
    ∃ r, receiver.Reach r ∧ r.kcp.acklist.map Prod.fst = [1, -3] ∧ r.marks = [1, -3] ∧
      r.kcp.rcvBuf.map KcpSegment.sn = [1] ∧
      (r.kcp.rcvQueue.length < r.kcp.rcvWnd.toNat → ∀ s ∈ r.kcp.rcvBuf, s.sn ≠ r.kcp.rcvNxt) ∧
      List.Forall₂ (fun ack n => ack.1 = BitVec.ofInt 32 n ∧
        (n < r.next ∨ ∃ s ∈ r.kcp.rcvBuf, s.sn = ack.1 ∧ n = r.next + s.offset r.kcp.rcvNxt))
        r.kcp.acklist r.marks := by
  have hrun : (Lts.runWith Receiver.step (fun _ _ => true)
      ⟨(construct 7 true).setWndsize 32 128, 0, []⟩ outOfOrder).any (fun r =>
        r.kcp.acklist.map Prod.fst = [1, -3] ∧ r.marks = [1, -3] ∧
          r.kcp.rcvBuf.map KcpSegment.sn = [1]) = true := by
    decide +kernel
  obtain ⟨r, hr, hp⟩ := Lts.Reach.exists_run (T := receiver) (fun _ _ _ h => h)
    ⟨7, true, 32, 128, rfl⟩ hrun
  obtain ⟨hacks, hmarks, hbuf⟩ := of_decide_eq_true hp
  obtain ⟨-, -, -, hmoved, -, -, hheld⟩ := receive_pipeline hr
  exact ⟨r, hr, hacks, hmarks, hbuf, hmoved, hheld⟩

end Molehill
