/-
# The sender's side: numbering, acknowledging and resending

`SendInv L U v` is the sender's invariant: `L` is the history of numbered payloads, `U` the
absolute number behind `snd_una`.  The window is never wider than a 16-bit advertisement
(`window`), the send buffer is numbered increasingly from `U` on, and every buffered segment is
a data segment of this conversation.

Acknowledgements are never trusted: `SendInv.input` holds for ANY bytes, because all `input`
does to the send direction is drop segments and move `snd_una` to the first one left.  What a
flush adds is exactly the numbered prefix of the queue (`SendInv.flush`).
-/
import Molehill.Kcp.Numbered

namespace Molehill

open Lib

/-- The sender's invariant over the history `L`, with `snd_una` standing for `U`. -/
structure SendInv (L : List Bytes) (U : Nat) (v : SndView) : Prop where
  stream : v.stream = true
  mss : 0 < v.mss
  nxt : v.sndNxt = BitVec.ofNat 32 L.length
  una : v.sndUna = BitVec.ofNat 32 U
  una_le : U ≤ L.length
  window : L.length ≤ U + 65535
  buf : NumberedIn L U L.length v.sndBuf
  wire : ∀ s ∈ v.sndBuf, s.cmd = kcpCmdPush ∧ s.conv = v.conv
  queue : ∀ s ∈ v.sndQueue, s.frg = 0

/-- The fields a resend never changes. -/
def KcpSegment.core (s : KcpSegment) : U32 × Byte × U32 × Bytes × Byte :=
  (s.conv, s.cmd, s.sn, s.data, s.frg)

variable {L : List Bytes} {U : Nat} {k : Kcp}

/-! ## 1. Dropping and retouching buffered segments -/

/-- The send buffer may lose segments. -/
theorem SendInv.of_sublist {v : SndView} (h : SendInv L U v) {segs : List KcpSegment}
    (hsub : segs.Sublist v.sndBuf) : SendInv L U { v with sndBuf := segs } where
  stream := h.stream
  mss := h.mss
  nxt := h.nxt
  una := h.una
  una_le := h.una_le
  window := h.window
  buf := h.buf.sublist hsub
  wire := fun s hs => h.wire s (hsub.subset hs)
  queue := h.queue

/-- The send buffer's segments may change in every field but the core. -/
theorem SendInv.of_core {v : SndView} (h : SendInv L U v) {segs : List KcpSegment}
    (hcore : segs.map KcpSegment.core = v.sndBuf.map KcpSegment.core) :
    SendInv L U { v with sndBuf := segs } := by
  have hnum : v.sndBuf.map (fun s => (s.sn, s.data, s.frg))
      = segs.map (fun s => (s.sn, s.data, s.frg)) := by
    have := congrArg (List.map (fun c => (c.2.2.1, c.2.2.2.1, c.2.2.2.2))) hcore
    simpa [List.map_map, Function.comp_def, KcpSegment.core] using this.symm
  refine ⟨h.stream, h.mss, h.nxt, h.una, h.una_le, h.window, h.buf.congr hnum, ?_, h.queue⟩
  intro s hs
  have hmem : s.core ∈ v.sndBuf.map KcpSegment.core := by
    rw [← hcore]; exact List.mem_map_of_mem hs
  obtain ⟨t, ht, he⟩ := List.mem_map.mp hmem
  obtain ⟨h1, h2⟩ := h.wire t ht
  simp only [KcpSegment.core, Prod.mk.injEq] at he
  exact ⟨he.2.1 ▸ h1, he.1 ▸ h2⟩

namespace Kcp

theorem parseAckLoop_sublist (sn : U32) :
    ∀ segs : List KcpSegment, (parseAckLoop sn segs).Sublist segs
  | [] => List.Sublist.refl _
  | seg :: rest => by
    unfold parseAckLoop
    split
    · exact List.sublist_cons_self _ _
    · split
      · exact List.Sublist.refl _
      · exact (parseAckLoop_sublist sn rest).cons_cons seg

theorem parseFastackLoop_core (sn ts : U32) :
    ∀ segs : List KcpSegment, (parseFastackLoop sn ts segs).map KcpSegment.core
      = segs.map KcpSegment.core
  | [] => rfl
  | seg :: rest => by
    unfold parseFastackLoop
    split
    · rfl
    · split
      · rw [List.map_cons, List.map_cons, parseFastackLoop_core sn ts rest]; rfl
      · rw [List.map_cons, List.map_cons, parseFastackLoop_core sn ts rest]

theorem retransmitLoop_core (sn current : U32) :
    ∀ segs : List KcpSegment, (retransmitLoop sn current segs).map KcpSegment.core
      = segs.map KcpSegment.core
  | [] => rfl
  | seg :: rest => by
    unfold retransmitLoop
    split
    · rfl
    · split
      · rfl
      · rw [List.map_cons, List.map_cons, retransmitLoop_core sn current rest]

end Kcp

theorem SendInv.parseUna (h : SendInv L U k.snd) (una : U32) : SendInv L U (k.parseUna una).snd :=
  h.of_sublist (List.dropWhile_sublist _)

theorem SendInv.parseAck (h : SendInv L U k.snd) (sn : U32) : SendInv L U (k.parseAck sn).snd := by
  unfold Kcp.parseAck
  split
  · exact h
  · exact h.of_sublist (Kcp.parseAckLoop_sublist sn k.sndBuf)

theorem SendInv.parseFastack (h : SendInv L U k.snd) (sn ts : U32) :
    SendInv L U (k.parseFastack sn ts).snd := by
  unfold Kcp.parseFastack
  split
  · exact h
  · exact h.of_core (Kcp.parseFastackLoop_core sn ts k.sndBuf)

theorem SendInv.retransmitSn (h : SendInv L U k.snd) (sn : U32) :
    SendInv L U (k.retransmitSn sn).snd :=
  h.of_core (Kcp.retransmitLoop_core sn k.current k.sndBuf)

/-- A datagram always has room for a payload byte, whatever MTU is asked for. -/
theorem SendInv.setMtu (h : SendInv L U k.snd) (mtu : Nat) : SendInv L U (k.setMtu mtu).snd := by
  have hmss : 0 < (k.setMtu mtu).mss := by
    have h0 : 0 < k.mss := h.mss
    unfold Kcp.setMtu
    simp only []
    split
    · change 0 < max mtu (kcpOverhead + 1) - kcpOverhead
      omega
    · exact h0
  rw [(Kcp.setMtu_frame k mtu).2.2]
  exact ⟨h.stream, hmss, h.nxt, h.una, h.una_le, h.window, h.buf, h.wire, h.queue⟩

/-- `shrink_buf` moves `snd_una` forward, to the first segment still buffered or to the next
number. -/
theorem SendInv.shrinkBuf (h : SendInv L U k.snd) :
    ∃ U', U ≤ U' ∧ SendInv L U' k.shrinkBuf.snd := by
  have hbuf : NumberedIn L U L.length k.sndBuf := h.buf
  have hle := h.una_le
  have hwin := h.window
  cases hk : k.sndBuf with
  | nil =>
    refine ⟨L.length, hle, ⟨h.stream, h.mss, h.nxt, ?_, le_refl _, by omega, ?_, h.wire, h.queue⟩⟩
    · change k.shrinkBuf.sndUna = _
      rw [Kcp.shrinkBuf_nil hk]
      exact h.nxt
    · change NumberedIn L L.length L.length k.sndBuf
      rw [hk]
      trivial
  | cons seg rest =>
    rw [hk] at hbuf
    obtain ⟨i, h1, h2, h3, h4⟩ := hbuf
    refine ⟨i, h1, ⟨h.stream, h.mss, h.nxt, ?_, by omega, by omega, ?_, h.wire, h.queue⟩⟩
    · change k.shrinkBuf.sndUna = _
      rw [Kcp.shrinkBuf_cons hk]
      exact h3.1
    · change NumberedIn L i L.length k.sndBuf
      rw [hk]
      exact ⟨i, le_refl _, h2, h3, h4⟩

/-! ## 2. `input` on any bytes -/

/-- What `input` may do to the send direction: `snd_una` moves forward, the queue stays. -/
def SendStep (L : List Bytes) (U : Nat) (queue : List KcpSegment) (k : Kcp) : Prop :=
  (∃ U', U ≤ U' ∧ SendInv L U' k.snd) ∧ k.sndQueue = queue

theorem SendStep.inputHead {queue : List KcpSegment} (h : SendStep L U queue k) (head : SegHead) :
    SendStep L U queue (k.inputHead head) := by
  obtain ⟨⟨U', hU, hi⟩, hq⟩ := h
  have hi' : SendInv L U' ({ k with rmtWnd := head.wnd } : Kcp).snd := hi
  obtain ⟨U'', hU', hi''⟩ := (hi'.parseUna head.una).shrinkBuf
  exact ⟨⟨U'', by omega, hi''⟩, hq⟩

theorem SendStep.of_snd {queue : List KcpSegment} {k' : Kcp} (h : SendStep L U queue k)
    (hsnd : k'.snd = k.snd) : SendStep L U queue k' := by
  obtain ⟨⟨U', hU, hi⟩, hq⟩ := h
  exact ⟨⟨U', hU, by rw [hsnd]; exact hi⟩, (congrArg SndView.sndQueue hsnd).trans hq⟩

theorem SendStep.inputAck {queue : List KcpSegment} (h : SendStep L U queue k) (head : SegHead) :
    SendStep L U queue (k.inputAck head) := by
  obtain ⟨⟨U', hU, hi⟩, hq⟩ := h.of_snd (Kcp.sampleRtt_frame k head.ts).1
  obtain ⟨U'', hU', hi''⟩ := (hi.parseAck head.sn).shrinkBuf
  refine ⟨⟨U'', by omega, hi''⟩, ?_⟩
  change ((k.sampleRtt head.ts).parseAck head.sn).sndQueue = queue
  unfold Kcp.parseAck
  split <;> exact hq

/-- One round of `input`, whatever its header says. -/
theorem SendStep.inputSegment {queue : List KcpSegment} (h : SendStep L U queue k)
    (acks : Kcp.AckRun) (head : SegHead) (buf : Bytes) :
    SendStep L U queue (k.inputSegment acks head buf).1 := by
  have hh := h.inputHead head
  unfold Kcp.inputSegment
  split
  · exact hh.inputAck head
  · split
    · have hf := (Kcp.acceptPush_frame (k.inputHead head) head buf).1
      split <;> (rename_i hr; rw [hr] at hf; exact hh.of_snd hf)
    · split
      · exact hh.of_snd rfl
      · exact hh

/-- **The sender survives any datagram**: `snd_una` moves forward inside the history, and the
queue is untouched. -/
theorem SendInv.input (h : SendInv L U k.snd) (buf : Bytes) :
    SendStep L U k.sndQueue (k.input buf).1 := by
  have h0 : SendStep L U k.sndQueue k := ⟨⟨U, le_refl _, h⟩, rfl⟩
  unfold Kcp.input
  split
  · exact h0
  · have hloop := Kcp.inputLoop_inv (P := SendStep L U k.sndQueue)
      (fun k acks head buf hk => hk.inputSegment acks head buf) buf.length k {} buf h0
    split
    · rename_i hr; rw [hr] at hloop; exact hloop
    · rename_i k' acks rest hr
      rw [hr] at hloop
      change SendStep L U k.sndQueue (k'.inputEnd acks k.sndUna)
      unfold Kcp.inputEnd
      refine SendStep.of_snd ?_ (Kcp.updateCwndAfterAcks_frame _ k.sndUna).1
      split
      · obtain ⟨⟨U', hU, hi⟩, hq⟩ := hloop
        refine ⟨⟨U', hU, hi.parseFastack _ _⟩, ?_⟩
        unfold Kcp.parseFastack
        split <;> exact hq
      · exact hloop

/-! ## 3. `send_owned` -/

/-- The bytes waiting to be numbered. -/
def queuedBytes (segs : List KcpSegment) : Bytes := (segs.map KcpSegment.data).flatten

theorem queuedBytes_append (xs ys : List KcpSegment) :
    queuedBytes (xs ++ ys) = queuedBytes xs ++ queuedBytes ys := by
  simp [queuedBytes]

/-- The bytes of a send call that were accepted: the answer counts them from the front. -/
def acceptedBytes (data : Bytes) : Except KcpError Nat → Bytes
  | .ok n => data.take n
  | .error _ => []

namespace Kcp

/-- The cut pieces are the data again. -/
theorem queuedBytes_cutSegments (stream : Bool) (mss : Nat) :
    ∀ (count : Nat) (data : Bytes), data.length ≤ count * mss →
      queuedBytes (cutSegments stream mss count data) = data
  | 0, data, h => by
    have : data = [] := List.eq_nil_of_length_eq_zero (by omega)
    rw [this]
    rfl
  | count + 1, data, h => by
    have hrest : (data.drop mss).length ≤ count * mss := by
      rw [List.length_drop]
      rw [Nat.succ_mul] at h
      omega
    have ih := queuedBytes_cutSegments stream mss count (data.drop mss) hrest
    simp only [queuedBytes] at ih
    simp only [queuedBytes, cutSegments, List.map_cons, List.flatten_cons, ih,
      KcpSegment.newWithData]
    exact List.take_append_drop mss data

theorem cutSegments_frg (mss : Nat) :
    ∀ (count : Nat) (data : Bytes), ∀ s ∈ cutSegments true mss count data, s.frg = 0
  | 0, data => by simp [cutSegments]
  | count + 1, data => by
    intro s hs
    rcases List.mem_cons.mp hs with rfl | hs
    · rfl
    · exact cutSegments_frg mss count _ s hs

theorem extendLen_le (k : Kcp) (data : Bytes) : k.extendLen data ≤ data.length := by
  unfold extendLen
  split
  · split
    · split
      · exact Nat.min_le_left _ _
      · exact Nat.zero_le _
    · exact Nat.zero_le _
  · exact Nat.zero_le _

/-- The append step adds exactly the bytes it counts. -/
theorem queuedBytes_extendTail (k : Kcp) (data : Bytes) :
    queuedBytes (k.extendTail data) = queuedBytes k.sndQueue ++ data.take (k.extendLen data) := by
  cases hs : k.flags.stream with
  | false => simp [extendTail, extendLen, hs]
  | true =>
    cases hl : k.sndQueue.getLast? with
    | none => simp [extendTail, extendLen, hs, hl]
    | some old =>
      by_cases hm : old.data.length < k.mss
      · have hq : k.sndQueue = k.sndQueue.dropLast ++ [old] := by
          obtain ⟨ys, hys⟩ := List.getLast?_eq_some_iff.mp hl
          rw [hys, List.dropLast_concat]
        have hext : k.extendTail data = k.sndQueue.dropLast ++
            [{ old with data := old.data ++ data.take (k.extendLen data), frg := 0 }] := by
          simp [extendTail, hs, hl, hm]
        rw [hext, queuedBytes_append]
        conv_rhs => rw [hq, queuedBytes_append]
        simp [queuedBytes]
      · simp [extendTail, extendLen, hs, hl, hm]

theorem extendTail_frg {k : Kcp} (h : ∀ s ∈ k.sndQueue, s.frg = 0) (data : Bytes) :
    ∀ s ∈ k.extendTail data, s.frg = 0 := by
  unfold extendTail
  split
  · split
    · split
      · intro s hs
        rcases List.mem_append.mp hs with hs | hs
        · exact h s (List.dropLast_subset _ hs)
        · rw [List.mem_singleton.mp hs]
      · exact h
    · exact h
  · exact h

/-- A rejected buffer extended nothing. -/
theorem extendLen_eq_zero {k : Kcp} {data : Bytes} (h : ¬ 0 < k.extendLen data) :
    k.extendLen data = 0 := by omega

/-- **`send_owned` queues exactly the bytes it accepts.** -/
theorem queuedBytes_sendOwned {k : Kcp} (hstream : k.flags.stream = true) (hmss : 0 < k.mss)
    (data : Bytes) : queuedBytes (k.sendOwned data).1.sndQueue
      = queuedBytes k.sndQueue ++ acceptedBytes data (k.sendOwned data).2 := by
  have htail := queuedBytes_extendTail k data
  have hle := extendLen_le k data
  unfold sendOwned
  simp only [hstream, true_and]
  split
  · exact htail
  · split
    · split
      · exact htail
      · rename_i hz
        change queuedBytes (k.extendTail data) = queuedBytes k.sndQueue ++ []
        rw [htail, extendLen_eq_zero hz, List.take_zero]
    · have hcount : (data.drop (k.extendLen data)).length ≤
          max 1 (((data.drop (k.extendLen data)).length + k.mss - 1) / k.mss) * k.mss := by
        have h1 := Nat.div_add_mod ((data.drop (k.extendLen data)).length + k.mss - 1) k.mss
        have h2 := Nat.mod_lt ((data.drop (k.extendLen data)).length + k.mss - 1) hmss
        have h3 := Nat.mul_le_mul_right k.mss
          (Nat.le_max_right 1 (((data.drop (k.extendLen data)).length + k.mss - 1) / k.mss))
        rw [Nat.mul_comm] at h1
        omega
      change queuedBytes (k.extendTail data ++ _)
        = queuedBytes k.sndQueue ++ data.take (k.extendLen data + (data.drop _).length)
      rw [queuedBytes_append, htail, queuedBytes_cutSegments _ _ _ _ hcount, List.append_assoc,
        List.take_append_drop, List.length_drop, Nat.add_sub_cancel' hle, List.take_length]

end Kcp

/-- Sending leaves the numbered part of the send direction alone. -/
theorem SendInv.sendOwned (h : SendInv L U k.snd) (data : Bytes) :
    SendInv L U (k.sendOwned data).1.snd := by
  have hframe : ∀ queue : List KcpSegment, (∀ s ∈ queue, s.frg = 0) →
      SendInv L U ({ k with sndQueue := queue } : Kcp).snd := fun queue hq =>
    ⟨h.stream, h.mss, h.nxt, h.una, h.una_le, h.window, h.buf, h.wire, hq⟩
  have hstream : k.flags.stream = true := h.stream
  have htail := Kcp.extendTail_frg (k := k) h.queue data
  unfold Kcp.sendOwned
  simp only [hstream, true_and]
  split
  · exact hframe _ htail
  · split
    · split <;> exact hframe _ htail
    · refine hframe _ fun s hs => ?_
      rcases List.mem_append.mp hs with hs | hs
      · exact htail s hs
      · exact Kcp.cutSegments_frg k.mss _ _ s hs

/-! ## 4. `flush` numbers a prefix of the queue -/

/-- **The fill loop.**  It moves a prefix of the queue into the send buffer under the next
numbers, and stops at the window. -/
theorem SendInv.fillLoop (cwnd wnd : U16) : ∀ (queue : List KcpSegment) (L : List Bytes)
    (nxt : U32) (sndBuf : List KcpSegment),
    SendInv L U { k.snd with sndNxt := nxt, sndBuf := sndBuf, sndQueue := queue } →
    ∃ more : List Bytes, more.flatten ++ queuedBytes (k.fillLoop cwnd wnd queue nxt sndBuf).1
        = queuedBytes queue ∧
      SendInv (L ++ more) U
        { k.snd with
          sndQueue := (k.fillLoop cwnd wnd queue nxt sndBuf).1
          sndNxt := (k.fillLoop cwnd wnd queue nxt sndBuf).2.1
          sndBuf := (k.fillLoop cwnd wnd queue nxt sndBuf).2.2 }
  | [], L, nxt, sndBuf, h => ⟨[], rfl, by simpa [Kcp.fillLoop] using h⟩
  | seg :: queue, L, nxt, sndBuf, h => by
    unfold Kcp.fillLoop
    split
    · rename_i hopen
      have hnxt : nxt = BitVec.ofNat 32 L.length := h.nxt
      have huna : k.sndUna = BitVec.ofNat 32 U := h.una
      have hle := h.una_le
      have hwin := h.window
      have hcw := cwnd.isLt
      have hlt : L.length < U + cwnd.toNat := by
        rw [huna, ofNat_add_setWidth, hnxt, timediff,
          seqDiff32_of_near (by omega) (by omega)] at hopen
        omega
      have hpre : L <+: L ++ [seg.data] := List.prefix_append _ _
      have hfrg : seg.frg = 0 := h.queue seg List.mem_cons_self
      obtain ⟨more, hbytes, hinv⟩ := SendInv.fillLoop cwnd wnd queue (L ++ [seg.data]) (nxt + 1)
        (sndBuf ++ [{ seg with
          conv := k.conv, cmd := kcpCmdPush, wnd := wnd, ts := k.current, sn := nxt,
          una := k.rcvNxt, resendts := k.current, rto := k.rxRto, fastack := 0, xmit := 0 }])
        { stream := h.stream
          mss := h.mss
          nxt := by
            rw [List.length_append, BitVec.ofNat_add, ← hnxt]
            rfl
          una := h.una
          una_le := by rw [List.length_append]; omega
          window := by rw [List.length_append, List.length_singleton]; omega
          buf := by
            refine NumberedIn.append_singleton.mpr
              ⟨L.length, hle, by simp, ⟨hnxt, ?_, hfrg⟩, h.buf.mono hpre (le_refl _)⟩
            rw [List.getElem?_append_right (le_refl _), Nat.sub_self]
            rfl
          wire := by
            intro s hs
            rcases List.mem_append.mp hs with hs | hs
            · exact h.wire s hs
            · rw [List.mem_singleton.mp hs]
              exact ⟨rfl, rfl⟩
          queue := fun s hs => h.queue s (List.mem_cons_of_mem _ hs) }
      refine ⟨seg.data :: more, ?_, ?_⟩
      · rw [List.flatten_cons, List.append_assoc, hbytes]
        rfl
      · rw [List.append_cons]
        exact hinv
    · exact ⟨[], rfl, by simpa using h⟩

/-- One segment of the walk keeps its core, whatever is sent. -/
theorem Kcp.flushSegment_core (env : Kcp.FlushEnv) (acc : Kcp.FlushAcc) (seg : KcpSegment) :
    (Kcp.flushSegment env acc seg).2.core = seg.core := by
  unfold Kcp.flushSegment Kcp.needSend
  simp only []
  split
  · rfl
  · rename_i hsome
    split at hsome
    · cases hsome; rfl
    · split at hsome
      · cases hsome; rfl
      · split at hsome
        · cases hsome; rfl
        · cases hsome

theorem Kcp.flushLoop_core (env : Kcp.FlushEnv) :
    ∀ (segs : List KcpSegment) (acc : Kcp.FlushAcc),
      (Kcp.flushLoop env acc segs).2.map KcpSegment.core = segs.map KcpSegment.core
  | [], acc => rfl
  | seg :: rest, acc => by
    simp only [Kcp.flushLoop, List.map_cons, Kcp.flushSegment_core]
    rw [Kcp.flushLoop_core env rest]

/-- What the reasons to send change besides the segment: the retransmission counter. -/
theorem Kcp.needSend_frame {env : Kcp.FlushEnv} {acc acc' : Kcp.FlushAcc} {seg seg' : KcpSegment}
    (h : Kcp.needSend env acc seg = some (acc', seg')) :
    acc'.kcp.snd = acc.kcp.snd ∧ acc'.kcp.rcv = acc.kcp.rcv ∧ acc'.kcp.out = acc.kcp.out ∧
      seg'.core = seg.core := by
  unfold Kcp.needSend at h
  simp only [] at h
  split at h
  · cases h; exact ⟨rfl, rfl, rfl, rfl⟩
  · split at h
    · cases h; exact ⟨rfl, rfl, rfl, rfl⟩
    · split at h
      · cases h; exact ⟨rfl, rfl, rfl, rfl⟩
      · cases h

theorem Kcp.flushSegment_frame (env : Kcp.FlushEnv) (acc : Kcp.FlushAcc) (seg : KcpSegment) :
    (Kcp.flushSegment env acc seg).1.kcp.snd = acc.kcp.snd ∧
      (Kcp.flushSegment env acc seg).1.kcp.rcv = acc.kcp.rcv := by
  unfold Kcp.flushSegment
  split
  · exact ⟨rfl, rfl⟩
  · rename_i acc' seg' hsome
    obtain ⟨h1, h2, -, -⟩ := Kcp.needSend_frame hsome
    obtain ⟨e1, e2⟩ := Kcp.emitSegment_frame acc'.kcp
      { seg' with ts := acc'.kcp.current, wnd := env.wnd, una := acc'.kcp.rcvNxt }
    obtain ⟨d1, d2, -⟩ := Kcp.noteDead_frame (acc'.kcp.emitSegment
      { seg' with ts := acc'.kcp.current, wnd := env.wnd, una := acc'.kcp.rcvNxt })
      seg'.xmit env.windowStill
    exact ⟨d1.trans (e1.trans h1), d2.trans (e2.trans h2)⟩

theorem Kcp.flushLoop_frame (env : Kcp.FlushEnv) :
    ∀ (segs : List KcpSegment) (acc : Kcp.FlushAcc),
      (Kcp.flushLoop env acc segs).1.kcp.snd = acc.kcp.snd ∧
        (Kcp.flushLoop env acc segs).1.kcp.rcv = acc.kcp.rcv
  | [], acc => ⟨rfl, rfl⟩
  | seg :: rest, acc => by
    obtain ⟨h1, h2⟩ := Kcp.flushSegment_frame env acc seg
    obtain ⟨h3, h4⟩ := Kcp.flushLoop_frame env rest (Kcp.flushSegment env acc seg).1
    exact ⟨h3.trans h1, h4.trans h2⟩

/-- **A flush numbers a prefix of the queue.** -/
theorem SendInv.flushFill (h : SendInv L U k.snd) :
    ∃ more : List Bytes, more.flatten ++ queuedBytes k.flushFill.sndQueue = queuedBytes k.sndQueue ∧
      SendInv (L ++ more) U k.flushFill.snd := by
  have hc := (Kcp.flushControl_frame k).1
  have hq : k.flushControl.sndQueue = k.sndQueue := congrArg SndView.sndQueue hc
  have h0 : SendInv L U k.flushControl.snd := by rw [hc]; exact h
  obtain ⟨more, hbytes, hinv⟩ := SendInv.fillLoop (k := k.flushControl)
    k.flushControl.flushWindow k.wndUnused k.flushControl.sndQueue L
    k.flushControl.sndNxt k.flushControl.sndBuf h0
  exact ⟨more, by rw [← hq]; exact hbytes, hinv⟩

/-- The rest of the flush sends the buffer and settles the window: the numbering stays. -/
theorem SendInv.flushWalk (h : SendInv L U k.flushFill.snd) (hup : k.flags.updated = true) :
    SendInv L U k.flush.1.snd ∧ k.flush.1.sndQueue = k.flushFill.sndQueue ∧
      k.flush.1.conv = k.conv := by
  have hconv : k.flushControl.conv = k.conv := Kcp.conv_eq_of_snd (Kcp.flushControl_frame k).1
  unfold Kcp.flush
  rw [if_neg (by simp [hup])]
  simp only []
  set env := k.flushFill.flushEnv k.wndUnused
  set r := Kcp.flushLoop env { kcp := k.flushFill } k.flushFill.sndBuf
  have hloop : r.1.kcp.snd = k.flushFill.snd := (Kcp.flushLoop_frame env _ _).1
  have hcore : r.2.map KcpSegment.core = k.flushFill.snd.sndBuf.map KcpSegment.core :=
    Kcp.flushLoop_core env _ _
  have hwalk : ({ r.1.kcp with sndBuf := r.2 } : Kcp).snd
      = { k.flushFill.snd with sndBuf := r.2 } := by
    rw [← hloop]
    rfl
  have hsnd := ((Kcp.updateSsthresh_frame (Kcp.writeBuf { r.1.kcp with sndBuf := r.2 })
    r.1.change env.resent r.1.lost k.cwnd).1.trans
      (Kcp.writeBuf_frame { r.1.kcp with sndBuf := r.2 }).1).trans hwalk
  refine ⟨?_, congrArg SndView.sndQueue hsnd, (congrArg SndView.conv hsnd).trans hconv⟩
  rw [hsnd]
  exact h.of_core hcore

end Molehill
