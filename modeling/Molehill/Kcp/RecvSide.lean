/-
# The receiver's side: reassembly in order

`RecvInv L R popped v` is the receiver's invariant over the sender's history `L`: `R` is the
absolute number behind `rcv_nxt`, the receive buffer is numbered increasingly inside
`[R, R + 2^16)`, the receive queue holds the payloads right below `R`, and what was popped is
exactly the payloads before those.

A data segment may be old or new.  The comparison with `rcv_nxt` is a 32-bit one, so it is
right only about numbers near `R`; `window_exact` says how far a number may be before the two
window tests of `accept_push` let a wrong one through, and that is what the age bound on
delivered datagrams rules out.
-/
import Mathlib.Data.List.Induction
import Molehill.Kcp.SendSide

namespace Molehill

open Lib

/-- The receiver's invariant over the history `L`, with `rcv_nxt` standing for `R`. -/
structure RecvInv (L : List Bytes) (R : Nat) (popped : Bytes) (v : RcvView) : Prop where
  nxt : v.rcvNxt = BitVec.ofNat 32 R
  le : R ≤ L.length
  buf : NumberedIn L R (R + 65536) v.rcvBuf
  /-- The queue is the run of payloads that ends at `R`, behind what was popped. -/
  queue : ∃ n, n + v.rcvQueue.length = R ∧
    v.rcvQueue.map KcpSegment.data = (L.drop n).take v.rcvQueue.length ∧
    popped = (L.take n).flatten
  frg : ∀ s ∈ v.rcvQueue, s.frg = 0
  room : v.rcvQueue.length ≤ 65535

variable {L L' : List Bytes} {R : Nat} {popped : Bytes} {k : Kcp}

/-- The invariant survives a longer history. -/
theorem RecvInv.mono {v : RcvView} (h : RecvInv L R popped v) (hL : L <+: L') :
    RecvInv L' R popped v := by
  have hle := h.le
  obtain ⟨r, rfl⟩ := hL
  obtain ⟨n, h1, h2, h3⟩ := h.queue
  refine ⟨h.nxt, by rw [List.length_append]; omega,
    h.buf.mono (List.prefix_append _ _) (le_refl _), ⟨n, h1, ?_, ?_⟩, h.frg, h.room⟩
  · rw [h2, List.drop_append_of_le_length (by omega), List.take_append_of_le_length]
    rw [List.length_drop]
    omega
  · rw [h3, List.take_append_of_le_length (by omega)]

/-- What was popped is a prefix of everything numbered. -/
theorem RecvInv.popped_prefix {v : RcvView} (h : RecvInv L R popped v) : popped <+: L.flatten := by
  obtain ⟨n, -, -, h3⟩ := h.queue
  refine ⟨(L.drop n).flatten, ?_⟩
  rw [h3, ← List.flatten_append, List.take_append_drop]

/-! ## 1. `move_buf` -/

/-- **The move loop.**  Each segment that leaves the buffer is the `R`-th one, so the queue stays
the run of payloads that ends at `rcv_nxt`. -/
theorem RecvInv.moveBufLoop (wnd : U16) : ∀ (buf : List KcpSegment) (R : Nat) (nxt : U32)
    (queue : List KcpSegment), RecvInv L R popped ⟨nxt, wnd, queue, buf⟩ →
    ∃ R', RecvInv L R' popped
      ⟨(Kcp.moveBufLoop wnd.toNat buf nxt queue).2.1, wnd,
        (Kcp.moveBufLoop wnd.toNat buf nxt queue).2.2,
        (Kcp.moveBufLoop wnd.toNat buf nxt queue).1⟩ ∧ R ≤ R' ∧
      R' + queue.length = R + (Kcp.moveBufLoop wnd.toNat buf nxt queue).2.2.length
  | [], R, nxt, queue, h => ⟨R, h, le_refl _, rfl⟩
  | seg :: rest, R, nxt, queue, h => by
    unfold Kcp.moveBufLoop
    split
    · rename_i htake
      obtain ⟨hsn, hroom⟩ := htake
      have hw := wnd.isLt
      have hnxt : nxt = BitVec.ofNat 32 R := h.nxt
      obtain ⟨i, h1, h2, ⟨h3, h4, h5⟩, h6⟩ := h.buf
      -- the buffer's numbers are less than the whole space away from `R`
      have hi : i = R := by
        refine ofNat32_inj (by omega) (by omega) ?_
        rw [← h3, ← hnxt, hsn]
      subst hi
      have hlt : i < L.length := Numbered.lt (s := seg) ⟨h3, h4, h5⟩
      obtain ⟨n, g1, g2, g3⟩ := h.queue
      simp only at g1 g2
      obtain ⟨R', hR', hle, hlen⟩ := RecvInv.moveBufLoop wnd rest (i + 1) (nxt + 1)
        (queue ++ [seg])
        { nxt := by rw [hnxt, BitVec.ofNat_add]; rfl
          le := hlt
          buf := h6.mono (List.prefix_refl _) (by omega)
          queue := by
            refine ⟨n, by simp only [List.length_append, List.length_singleton]; omega, ?_, g3⟩
            simp only [List.map_append, List.map_cons, List.map_nil, List.length_append,
              List.length_singleton]
            rw [g2, List.take_add_one]
            congr 1
            rw [List.getElem?_drop, g1, h4]
            rfl
          frg := by
            intro s hs
            rcases List.mem_append.mp hs with hs | hs
            · exact h.frg s hs
            · rw [List.mem_singleton.mp hs]; exact h5
          room := by
            simp only [List.length_append, List.length_singleton]
            omega }
      rw [List.length_append, List.length_singleton] at hlen
      exact ⟨R', hR', by omega, by omega⟩
    · exact ⟨R, h, le_refl _, rfl⟩

/-- `move_buf` moves `rcv_nxt` by what it adds to the queue. -/
theorem RecvInv.moveBuf (h : RecvInv L R popped k.rcv) :
    ∃ R', RecvInv L R' popped k.moveBuf.rcv ∧ R ≤ R' ∧
      R' + k.rcvQueue.length = R + k.moveBuf.rcvQueue.length :=
  RecvInv.moveBufLoop k.rcvWnd k.rcvBuf R k.rcvNxt k.rcvQueue h

/-! ## 2. `recv_pop` -/

/-- The bytes a pop hands out. -/
def poppedBytes : Except KcpError Bytes → Bytes
  | .ok data => data
  | .error _ => []

/-- **A pop hands out the next payload**, and the queue moves up behind it. -/
theorem RecvInv.recvPop (h : RecvInv L R popped k.rcv) :
    ∃ R', RecvInv L R' (popped ++ poppedBytes k.recvPop.2) k.recvPop.1.rcv ∧ R ≤ R' ∧
      R' ≤ R + 65535 := by
  unfold Kcp.recvPop
  split
  · exact ⟨R, by simpa [poppedBytes] using h, le_refl _, by omega⟩
  · rename_i seg rest hq
    have hq' : k.rcv.rcvQueue = seg :: rest := hq
    have hfrg : seg.frg = 0 := h.frg seg (by rw [hq']; exact List.mem_cons_self)
    have hle := h.le
    have hroom := h.room
    rw [if_neg (by simp [hfrg])]
    obtain ⟨n, g1, g2, g3⟩ := h.queue
    rw [hq'] at g1 g2 hroom
    simp only [List.length_cons] at g1 g2 hroom
    have hn : n < L.length := by omega
    rw [List.drop_eq_getElem_cons hn, List.take_succ_cons, List.map_cons, List.cons.injEq] at g2
    have hpop : RecvInv L R (popped ++ seg.data) ({ k with rcvQueue := rest } : Kcp).rcv :=
      { nxt := h.nxt
        le := h.le
        buf := h.buf
        queue := by
          refine ⟨n + 1, by show n + 1 + rest.length = R; omega, g2.2, ?_⟩
          rw [List.take_add_one, List.flatten_append, ← g3, List.getElem?_eq_getElem hn, g2.1]
          simp
        frg := fun s hs => h.frg s (by rw [hq']; exact List.mem_cons_of_mem _ hs)
        room := by show rest.length ≤ 65535; omega }
    obtain ⟨R', hR', hRR, hlen⟩ := hpop.moveBuf
    have hroom' : (({ k with rcvQueue := rest } : Kcp).moveBuf).rcvQueue.length ≤ 65535 := hR'.room
    refine ⟨R', ?_, hRR, by omega⟩
    rw [(Kcp.fastRecover_frame _ _).2.1]
    exact hR'

/-! ## 3. Inserting a new segment -/

theorem insertSlot_le (sn : U32) :
    ∀ {segs : List KcpSegment} {j : Nat}, Kcp.insertSlot sn segs = some j → j ≤ segs.length
  | [], j, h => by
    simp only [Kcp.insertSlot, Option.some.injEq] at h
    omega
  | seg :: front, j, h => by
    unfold Kcp.insertSlot at h
    split at h
    · cases h
    · split at h
      · simp only [Option.some.injEq] at h
        rw [List.length_cons]
        omega
      · have := insertSlot_le sn h
        rw [List.length_cons]
        omega

theorem insertIdx_concat {α : Type} (x y : α) :
    ∀ (l : List α) (j : Nat), j ≤ l.length → (l ++ [y]).insertIdx j x = l.insertIdx j x ++ [y]
  | [], j, h => by
    have : j = 0 := by simpa using h
    subst this
    rfl
  | a :: l, 0, _ => rfl
  | a :: l, j + 1, h => by
    rw [List.cons_append, List.insertIdx_succ_cons, List.insertIdx_succ_cons, List.cons_append,
      insertIdx_concat x y l j (by simpa using h)]

/-- **The insertion keeps the buffer in order.**  The search from the back stops behind the last
smaller number; inside one window the 32-bit comparison is the real one. -/
theorem NumberedIn.insertSlot {s : KcpSegment} {i lo : Nat} (hs : Numbered L s i) (hlo : lo ≤ i) :
    ∀ (segs : List KcpSegment) (hi j : Nat), i < hi → hi ≤ lo + 65536 →
      NumberedIn L lo hi segs → Kcp.insertSlot s.sn segs.reverse = some j →
      NumberedIn L lo hi (segs.insertIdx j s) := by
  intro segs
  induction segs using List.reverseRecOn with
  | nil =>
    intro hi j hlt _ _ hj
    simp only [List.reverse_nil, Kcp.insertSlot, Option.some.injEq] at hj
    subst hj
    exact ⟨i, hlo, hlt, hs, trivial⟩
  | append_singleton front t ih =>
    intro hi j hlt hhi hin hj
    obtain ⟨m, h1, h2, h3, h4⟩ := NumberedIn.append_singleton.mp hin
    rw [List.reverse_append, List.reverse_singleton, List.singleton_append,
      Kcp.insertSlot] at hj
    have hdiff : timediff s.sn t.sn = (i : Int) - (m : Int) := by
      rw [hs.1, h3.1, timediff, seqDiff32_of_near (by omega) (by omega)]
    split at hj
    · cases hj
    · rename_i hne
      split at hj
      · rename_i hpos
        simp only [Option.some.injEq, List.length_reverse] at hj
        have hend : (front ++ [t]).insertIdx j s = (front ++ [t]) ++ [s] := by
          rw [← hj, show front.length + 1 = (front ++ [t]).length by simp,
            List.insertIdx_length_self]
        rw [hend]
        exact NumberedIn.append_singleton.mpr ⟨i, hlo, hlt, hs,
          NumberedIn.append_singleton.mpr ⟨m, h1, by omega, h3, h4⟩⟩
      · rename_i hneg
        have hlt' : i < m := by
          rcases Nat.lt_trichotomy i m with hlt' | heq | hgt
          · exact hlt'
          · exact absurd (h3.1.trans (heq ▸ hs.1.symm)) hne
          · omega
        have hle := insertSlot_le s.sn hj
        rw [List.length_reverse] at hle
        rw [insertIdx_concat s t front j hle]
        exact NumberedIn.append_singleton.mpr ⟨m, h1, h2, h3, ih m j hlt' (by omega) h4 hj⟩

/-- **The window tests are exact for numbers that are not too far away.**  A number that passes
both is in the window. -/
theorem window_exact {i R w : Nat} (hw : w ≤ 65535) (hold : R ≤ i + 2 ^ 31 + 65536)
    (hnew : i ≤ R + 2 ^ 31 + 65536)
    (h1 : timediff (BitVec.ofNat 32 i) (BitVec.ofNat 32 (R + w)) < 0)
    (h2 : 0 ≤ timediff (BitVec.ofNat 32 i) (BitVec.ofNat 32 R)) : R ≤ i ∧ i < R + w := by
  rw [timediff, seqDiff_ofNat, Int.bmod_def] at h1 h2
  simp only [Nat.reducePow] at h1 h2
  omega

/-- `parse_data` on a segment of the window. -/
theorem RecvInv.parseData {s : KcpSegment} {i : Nat} (h : RecvInv L R popped k.rcv)
    (hs : Numbered L s i) (hi : R ≤ i) (hlt : i < R + 65536) :
    ∃ R', RecvInv L R' popped (k.parseData s).rcv ∧ R ≤ R' ∧
      R' + k.rcvQueue.length = R + (k.parseData s).rcvQueue.length := by
  unfold Kcp.parseData
  split
  · exact ⟨R, h, le_refl _, rfl⟩
  · have hins : RecvInv L R popped (k.insertSegment s).rcv ∧
        (k.insertSegment s).rcvQueue = k.rcvQueue := by
      unfold Kcp.insertSegment
      split
      · exact ⟨h, rfl⟩
      · rename_i j hj
        exact ⟨⟨h.nxt, h.le, NumberedIn.insertSlot hs hi k.rcvBuf _ j hlt (le_refl _) h.buf hj,
          h.queue, h.frg, h.room⟩, rfl⟩
    obtain ⟨R', h1, h2, h3⟩ := hins.1.moveBuf
    exact ⟨R', h1, h2, by rw [← hins.2]; exact h3⟩

/-! ## 4. `input` on a datagram of the peer -/

/-- What a segment off the wire must be for the receiver of `L`: control, or a numbered data
segment that is not too far behind the next number. -/
def Deliverable (conv : U32) (L : List Bytes) (R : Nat) (s : KcpSegment) : Prop :=
  s.conv = conv ∧ knownCmd s.cmd = true ∧
    (s.cmd = kcpCmdPush → ∃ i, L.length ≤ i + 2 ^ 31 + 65536 ∧ Numbered L s i) ∧
    L.length ≤ R + 2 ^ 31 + 65536

/-- What `input` may do to the receive direction: move `rcv_nxt` forward, by what it adds to a
queue that was `q` long. -/
def RecvStep (conv : U32) (L : List Bytes) (R q : Nat) (popped : Bytes) (k : Kcp) : Prop :=
  k.conv = conv ∧ ∃ R', R ≤ R' ∧ R' + q = R + k.rcvQueue.length ∧ RecvInv L R' popped k.rcv

theorem RecvStep.of_rcv {conv : U32} {q : Nat} {k' : Kcp} (h : RecvStep conv L R q popped k)
    (hconv : k'.conv = k.conv) (hrcv : k'.rcv = k.rcv) : RecvStep conv L R q popped k' := by
  obtain ⟨hc, R', hR, hq, hi⟩ := h
  have hlen : k'.rcvQueue = k.rcvQueue := congrArg RcvView.rcvQueue hrcv
  exact ⟨hconv.trans hc, R', hR, by rw [hlen]; exact hq, by rw [hrcv]; exact hi⟩

/-- The conversation id is fixed. -/
theorem conv_inputAck (k : Kcp) (head : SegHead) : (k.inputAck head).conv = k.conv := by
  change ((k.sampleRtt head.ts).parseAck head.sn).conv = k.conv
  have h : (k.sampleRtt head.ts).conv = k.conv :=
    Kcp.conv_eq_of_snd (Kcp.sampleRtt_frame k head.ts).1
  unfold Kcp.parseAck
  split <;> exact h

/-- One round of `input` on a deliverable segment. -/
theorem RecvStep.inputSegment {conv : U32} {q : Nat} (h : RecvStep conv L R q popped k)
    (acks : Kcp.AckRun) {s : KcpSegment} (hs : Deliverable conv L R s) (rest : Bytes) :
    RecvStep conv L R q popped (k.inputSegment acks s.head (s.data ++ rest)).1 := by
  have hh : RecvStep conv L R q popped (k.inputHead s.head) := h.of_rcv rfl rfl
  unfold Kcp.inputSegment
  split
  · exact hh.of_rcv (conv_inputAck _ _) (Kcp.inputAck_frame _ _).1
  · split
    · rename_i hcmd
      have hconv : ∀ k1 r, Kcp.acceptPush (k.inputHead s.head) s.head (s.data ++ rest) = (k1, r) →
          k1.conv = (k.inputHead s.head).conv := fun k1 r hr => by
        have := (Kcp.acceptPush_frame (k.inputHead s.head) s.head (s.data ++ rest)).1
        rw [hr] at this
        exact Kcp.conv_eq_of_snd this
      rcases Kcp.acceptPush_cases (k.inputHead s.head) s rest with ha | ha | ⟨hwin, hold, ha⟩
      · rw [ha]; exact hh
      · rw [ha]; exact hh.of_rcv rfl rfl
      · obtain ⟨i, hi1, hi2⟩ := hs.2.2.1 hcmd
        obtain ⟨hc, R', hR, hq, hinv⟩ := hh
        have hlen := hs.2.2.2
        have hltL := hi2.lt
        have hleL := hinv.le
        have hw := (k.inputHead s.head).rcvWnd.isLt
        have hnxt : (k.inputHead s.head).rcvNxt = BitVec.ofNat 32 R' := hinv.nxt
        rw [hi2.1, hnxt, ofNat_add_setWidth] at hwin
        rw [hi2.1, hnxt] at hold
        obtain ⟨h1, h2⟩ := window_exact (by omega) (by omega) (by omega) hwin hold
        have hpush : RecvInv L R' popped ((k.inputHead s.head).ackPush s.sn s.ts).rcv := hinv
        have hnum : Numbered L (Kcp.delivered s) i := hi2
        obtain ⟨R'', hinv', hR', hlen'⟩ := hpush.parseData hnum h1 (by omega)
        have hlen'' : R'' + (k.inputHead s.head).rcvQueue.length = R' +
            (((k.inputHead s.head).ackPush s.sn s.ts).parseData (Kcp.delivered s)).rcvQueue.length :=
          hlen'
        have hcv := hconv _ _ ha
        rw [ha]
        refine ⟨hcv.trans hc, R'', by omega, ?_, hinv'⟩
        change R'' + q = R +
          (((k.inputHead s.head).ackPush s.sn s.ts).parseData (Kcp.delivered s)).rcvQueue.length
        omega
    · split
      · exact hh.of_rcv rfl rfl
      · exact hh

/-- **The receiver on a deliverable datagram**: `rcv_nxt` moves forward inside the history and
nothing that was popped changes. -/
theorem RecvInv.input {conv : U32} (h : RecvInv L R popped k.rcv) (hconv : k.conv = conv)
    {segs : List KcpSegment} (hsegs : ∀ s ∈ segs, Deliverable conv L R s)
    (hlen : (encodeAll segs).length < 2 ^ 32) :
    RecvStep conv L R k.rcvQueue.length popped (k.input (encodeAll segs)).1 := by
  have h0 : RecvStep conv L R k.rcvQueue.length popped k := ⟨hconv, R, le_refl _, rfl, h⟩
  unfold Kcp.input
  split
  · exact h0
  · have hloop := Kcp.inputLoop_encodeAll_inv
      (P := RecvStep conv L R k.rcvQueue.length popped)
      (Q := Deliverable conv L R) (fun _ hk => hk.1)
      (fun k acks s rest hq hk => hk.inputSegment acks hq rest)
      (encodeAll segs).length segs k {}
      (fun s hs => ⟨(hsegs s hs).1, (hsegs s hs).2.1,
        lt_of_le_of_lt (data_length_le_encodeAll hs) hlen, hsegs s hs⟩) h0
    split
    · rename_i hr; rw [hr] at hloop; exact hloop
    · rename_i k' acks rest hr
      rw [hr] at hloop
      refine hloop.of_rcv ?_ (Kcp.inputEnd_frame k' k.sndUna acks).1
      change (k'.inputEnd acks k.sndUna).conv = k'.conv
      unfold Kcp.inputEnd
      rw [Kcp.conv_eq_of_snd (Kcp.updateCwndAfterAcks_frame _ k.sndUna).1]
      split
      · unfold Kcp.parseFastack
        split <;> rfl
      · rfl

end Molehill
