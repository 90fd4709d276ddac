/-
# Cutting a message into segments, and putting a segment on the wire

`Kcp::send` copies its buffer, `send_owned` shares it; the first is kept so that the two can be
compared.  They agree in every state and mode, a rejected buffer changes nothing, and a segment puts
the same bytes on the wire whether it goes out as header and payload or is packed
(`send_eq_sendOwned`).

The adapter writes through `kcp_send_owned_all`, which hands the engine 64 KiB at a time.  One call
takes less than 128 segments, so what a chunk may hold depends on the segment size, and the segment
size follows the path: `sends_all` says exactly which messages go through after a path MTU was
adopted.  At a segment size of 517 and above all of them do (`segmentable_of_mss`); `chunk_too_big`
is a path the adapter admits where a chunk does not.
-/
import Mathlib.Data.Nat.ModEq
import Mathlib.Data.List.Range
import Molehill.Kcp.Pump
import Molehill.Kcp.Runs

namespace Molehill

open Lib

namespace Kcp

/-! ## 1. The copying send -/

/-- `u8::try_from`. -/
def u8TryFrom (n : Nat) : Option Byte := if n < 256 then some (BitVec.ofNat 8 n) else none

/-- The append step of `send`: the queue, what is left of the buffer, and the bytes taken. -/
def sendExtend (k : Kcp) (buf : Bytes) : List KcpSegment × Bytes × Nat :=
  if k.flags.stream then
    match k.sndQueue.getLast? with
    | some old =>
      let l := old.data.length
      if l < k.mss then
        let extend := min buf.length (k.mss - l)
        (k.sndQueue.dropLast ++ [{ old with data := old.data ++ buf.take extend, frg := 0 }],
          buf.drop extend, extend)
      else (k.sndQueue, buf, 0)
    | none => (k.sndQueue, buf, 0)
  else (k.sndQueue, buf, 0)

/-- The loop of `send`, over `i` in `0..count`. -/
def sendLoop (k : Kcp) (count : Nat) :
    List Nat → List KcpSegment → Bytes → Nat → List KcpSegment × Except KcpError Nat
  | [], queue, _, sent => (queue, .ok sent)
  | i :: rest, queue, buf, sent =>
    let size := min k.mss buf.length
    match u8TryFrom (count - i - 1) with
    | none => (queue, .error .userBufTooBig)
    | some frg =>
      let segment := { KcpSegment.newWithData (buf.take size) with
        frg := if k.flags.stream then 0 else frg }
      sendLoop k count rest (queue ++ [segment]) (buf.drop size) (sent + size)

/-- `Kcp::send`. -/
def send (k : Kcp) (buf : Bytes) : Kcp × Except KcpError Nat :=
  let (queue, buf, sent) := k.sendExtend buf
  if k.flags.stream ∧ buf = [] then ({ k with sndQueue := queue }, .ok sent)
  else
    let count := (buf.length + k.mss - 1) / k.mss
    if kcpWndRcv.toNat ≤ count then
      if k.flags.stream ∧ 0 < sent then ({ k with sndQueue := queue }, .ok sent)
      else ({ k with sndQueue := queue }, .error .userBufTooBig)
    else
      let count := max 1 count
      let r := k.sendLoop count (List.range count) queue buf sent
      ({ k with sndQueue := r.1 }, r.2)

theorem sendExtend_eq (k : Kcp) (buf : Bytes) :
    k.sendExtend buf = (k.extendTail buf, buf.drop (k.extendLen buf), k.extendLen buf) := by
  cases hs : k.flags.stream with
  | false => simp [sendExtend, extendTail, extendLen, hs]
  | true =>
    cases hl : k.sndQueue.getLast? with
    | none => simp [sendExtend, extendTail, extendLen, hs, hl]
    | some old =>
      by_cases hm : old.data.length < k.mss
      · simp [sendExtend, extendTail, extendLen, hs, hl, hm]
      · simp [sendExtend, extendTail, extendLen, hs, hl, hm]

theorem le_ceil {mss : Nat} (hmss : 0 < mss) (n : Nat) : n ≤ (n + mss - 1) / mss * mss := by
  have hdiv := Nat.div_add_mod (n + mss - 1) mss
  have hmod := Nat.mod_lt (n + mss - 1) hmss
  rw [Nat.mul_comm] at hdiv
  omega

/-- The pieces are enough for the bytes. -/
theorem le_ceil_mul {mss : Nat} (hmss : 0 < mss) (n : Nat) :
    n ≤ max 1 ((n + mss - 1) / mss) * mss :=
  Nat.le_trans (le_ceil hmss n) (Nat.mul_le_mul_right mss (Nat.le_max_right _ _))

/-- The loop cuts what is left, and counts it. -/
theorem sendLoop_eq (k : Kcp) {count : Nat} (hcount : count ≤ 256) (n i : Nat)
    (hi : i + n = count) (queue : List KcpSegment) (buf : Bytes) (sent : Nat)
    (hlen : buf.length ≤ n * k.mss) :
    k.sendLoop count (List.range' i n) queue buf sent
      = (queue ++ cutSegments k.flags.stream k.mss n buf, .ok (sent + buf.length)) := by
  induction n generalizing i queue buf sent with
  | zero =>
    have hnil : buf = [] := List.eq_nil_of_length_eq_zero (by omega)
    subst hnil
    simp [sendLoop, cutSegments]
  | succ n ih =>
    have hfrg : u8TryFrom (count - i - 1) = some (BitVec.ofNat 8 n) := by
      rw [u8TryFrom, if_pos (by omega), show count - i - 1 = n by omega]
    have hrest : (buf.drop k.mss).length ≤ n * k.mss := by
      rw [List.length_drop]
      rw [Nat.succ_mul] at hlen
      omega
    rw [List.range'_succ, sendLoop, hfrg]
    simp only [← List.take_eq_take_min, ← List.drop_eq_drop_min]
    rw [ih (i + 1) (by omega) _ _ _ hrest, cutSegments, List.append_assoc, List.length_drop]
    have hsum : sent + min k.mss buf.length + (buf.length - k.mss) = sent + buf.length := by omega
    rw [hsum]
    rfl

/-- **The two sends agree.** -/
theorem send_eq {k : Kcp} (hmss : 0 < k.mss) (buf : Bytes) : k.send buf = k.sendOwned buf := by
  rw [send, sendOwned, sendExtend_eq]
  simp only []
  split
  · rfl
  · split
    · rfl
    case isFalse hbig =>
      have hw : kcpWndRcv.toNat = 128 := rfl
      have hceil := le_ceil_mul hmss (buf.drop (k.extendLen buf)).length
      rw [List.range_eq_range', sendLoop_eq k (by omega) _ 0 (Nat.zero_add _) _ _ _ hceil]

/-- Where bytes are left and none were appended, the queue is as it was. -/
theorem extendTail_of_none {k : Kcp} {data : Bytes}
    (hrest : ¬ (k.flags.stream = true ∧ data.drop (k.extendLen data) = []))
    (hsent : ¬ (k.flags.stream = true ∧ 0 < k.extendLen data)) :
    k.extendTail data = k.sndQueue := by
  cases hs : k.flags.stream with
  | false => simp [extendTail, hs]
  | true =>
    have hzero : k.extendLen data = 0 := Nat.eq_zero_of_not_pos fun h => hsent ⟨hs, h⟩
    have hne : data ≠ [] := by
      rintro rfl
      exact hrest ⟨hs, List.drop_nil⟩
    have hpos := List.length_pos_iff.mpr hne
    cases hl : k.sndQueue.getLast? with
    | none => simp [extendTail, hs, hl]
    | some old =>
      by_cases hm : old.data.length < k.mss
      · simp only [extendLen, hs, hl, hm, if_true] at hzero
        omega
      · simp [extendTail, hs, hl, hm]

/-- A rejected buffer changes nothing. -/
theorem sendOwned_of_error {k : Kcp} {data : Bytes} {e : KcpError}
    (h : (k.sendOwned data).2 = .error e) : (k.sendOwned data).1 = k := by
  unfold sendOwned at h ⊢
  simp only [] at h ⊢
  split at h
  case isTrue => cases h
  case isFalse hrest =>
    rw [if_neg hrest]
    split at h
    case isFalse => cases h
    case isTrue hbig =>
      rw [if_pos hbig]
      split at h
      case isTrue => cases h
      case isFalse hsent =>
        rw [if_neg hsent]
        change { k with sndQueue := k.extendTail data } = k
        rw [extendTail_of_none hrest hsent]

/-! ## 2. The two ways onto the wire -/

/-- `write_datagram(header, payload)`: one datagram of two parts. -/
def emitSplit (k : Kcp) (seg : KcpSegment) : Kcp :=
  { k with output := k.output ++ [seg.encodeHeader ++ seg.data] }

/-- The packing path: make room, then stage the segment. -/
def emitPacked (k : Kcp) (seg : KcpSegment) : Kcp :=
  (k.roomFor (kcpOverhead + seg.data.length)).stage seg

/-- Everything given to the wire, and what is staged for it. -/
def wire (k : Kcp) : Bytes := k.output.flatten ++ k.buf

theorem emitSegment_eq (k : Kcp) (seg : KcpSegment) :
    k.emitSegment seg
      = if k.buf = [] ∧ seg.cmd = kcpCmdPush then k.emitSplit seg else k.emitPacked seg := rfl

theorem wire_writeBuf (k : Kcp) : k.writeBuf.wire = k.wire := by
  rw [writeBuf]
  split
  · rfl
  · simp [wire]

theorem wire_roomFor (k : Kcp) (need : Nat) : (k.roomFor need).wire = k.wire := by
  rw [roomFor]
  split
  · exact wire_writeBuf k
  · rfl

theorem wire_emitPacked (k : Kcp) (seg : KcpSegment) :
    (k.emitPacked seg).wire = k.wire ++ seg.encode := by
  rw [← wire_roomFor k (kcpOverhead + seg.data.length)]
  exact (List.append_assoc _ _ _).symm

theorem wire_emitSplit {k : Kcp} (hbuf : k.buf = []) (seg : KcpSegment) :
    (k.emitSplit seg).wire = k.wire ++ seg.encode := by
  simp [wire, emitSplit, hbuf, KcpSegment.encode]

/-- A segment that is packed alone makes the datagram that it makes as header and payload. -/
theorem writeBuf_emitPacked {k : Kcp} (hbuf : k.buf = []) (seg : KcpSegment) :
    (k.emitPacked seg).writeBuf = k.emitSplit seg := by
  have hroom : k.roomFor (kcpOverhead + seg.data.length) = k := by
    rw [roomFor, writeBuf, if_pos hbuf, ite_self]
  have hne : seg.encode ≠ [] := by
    intro hnil
    have hlen := encode_length seg
    rw [hnil, List.length_nil, kcpOverhead] at hlen
    omega
  rw [emitPacked, hroom, stage, writeBuf, hbuf, List.nil_append, if_neg hne, emitSplit, ← hbuf]
  rfl

/-- **The two sends and the two emissions agree.** -/
theorem send_eq_sendOwned {k : Kcp} (hmss : 0 < k.mss) (data : Bytes) :
    k.send data = k.sendOwned data ∧
      (∀ e, (k.sendOwned data).2 = .error e → (k.sendOwned data).1 = k) ∧
      ∀ seg, (k.emitSegment seg).wire = k.wire ++ seg.encode ∧
        (k.buf = [] → (k.emitPacked seg).writeBuf = k.emitSplit seg) := by
  refine ⟨send_eq hmss data, fun e => sendOwned_of_error, fun seg => ⟨?_, fun hbuf => ?_⟩⟩
  · rw [emitSegment_eq]
    split
    case isTrue h => exact wire_emitSplit h.1 seg
    case isFalse => exact wire_emitPacked k seg
  · exact writeBuf_emitPacked hbuf seg

/-- A message of three bytes behind a half full segment, at a segment size of two. -/
theorem send_eq_sendOwned_three :
    let k := { newStream 7 with mss := 2, sndQueue := [.newWithData [1]] }
    k.send [2, 3, 4] = k.sendOwned [2, 3, 4] :=
  (send_eq_sendOwned (by decide) [2, 3, 4]).1

/-! ## 3. The adapter's write -/

/-- `thiserror`'s text of each error; the payload read fails as `read_exact` does. -/
def errorText : KcpError → String
  | .convInconsistent expected found =>
    s!"conv inconsistent, expected {expected.toNat}, found {found.toNat}"
  | .invalidSegmentSize size => s!"invalid segment size {size}"
  | .segmentDataSizeMismatch expected found =>
    s!"invalid segment data size, expected {expected}, found {found}"
  | .io => "failed to fill whole buffer"
  | .needUpdate => "need to call update() once"
  | .recvQueueEmpty => "recv queue is empty"
  | .expectingFragment => "expecting fragment"
  | .unsupportedCmd cmd => s!"command {cmd.toNat} is not supported"
  | .userBufTooBig => "user's send buffer is too big"

/-- `kcp_send_owned_all`: the message, a chunk at a time.  Stream mode queues the whole chunk or
fails; a partial accept is fatal. -/
def kcpSendOwnedAll (k : Kcp) (data : Bytes) : Kcp × Except String Unit :=
  if data = [] then (k, .ok ())
  else
    let head := data.take sendChunk
    match k.sendOwned head with
    | (k, .ok n) =>
      if n = head.length then kcpSendOwnedAll k (data.drop sendChunk)
      else (k, .error "KCP send made partial progress")
    | (k, .error e) => (k, .error s!"KCP send failed: {errorText e}")
termination_by data.length
decreasing_by
  have hpos := List.length_pos_iff.mpr (by assumption : ¬ data = [])
  rw [List.length_drop, sendChunk]
  omega

/-- What is left of a segment of `mss` bytes that had room for `room`, once `n` more bytes were cut
into it and its successors. -/
def roomAfter (mss room n : Nat) : Nat :=
  if n ≤ room then room - n else (mss - (n - room) % mss) % mss

/-- The room in the last queued segment. -/
def room (k : Kcp) : Nat :=
  match k.sndQueue.getLast? with
  | some old => k.mss - old.data.length
  | none => 0

/-- Every chunk of a message of `len` bytes comes to less than 128 segments, the room in the last
queued one aside. -/
def Segmentable (mss room len : Nat) : Prop :=
  ∀ i, i * sendChunk < len →
    min sendChunk (len - i * sendChunk) - roomAfter mss room (i * sendChunk) ≤ 127 * mss

theorem extendLen_eq {k : Kcp} (hstream : k.flags.stream = true) (data : Bytes) :
    k.extendLen data = min data.length k.room := by
  cases hl : k.sndQueue.getLast? with
  | none => simp [extendLen, hstream, room, hl]
  | some old =>
    simp only [extendLen, hstream, room, hl, if_true]
    split
    · rfl
    · omega

/-- One call takes what comes to less than 128 segments. -/
theorem takesWhole_iff {k : Kcp} (hstream : k.flags.stream = true) (hmss : 0 < k.mss)
    (data : Bytes) : k.takesWhole data = true ↔ data.length - k.room ≤ 127 * k.mss := by
  have hw : kcpWndRcv.toNat = 128 := rfl
  rw [takesWhole, decide_eq_true_iff, extendLen_eq hstream, hw, Nat.div_lt_iff_lt_mul hmss]
  omega

/-! ### The room behind a call -/

/-- The last piece holds what the pieces before it leave. -/
theorem cutSegments_getLast (stream : Bool) (mss n : Nat) (data : Bytes)
    (hlt : n * mss < data.length) (hle : data.length ≤ (n + 1) * mss) :
    ∃ s, (cutSegments stream mss (n + 1) data).getLast? = some s ∧
      s.data.length = data.length - n * mss := by
  induction n generalizing data with
  | zero =>
    have hsub : data.length - 0 * mss = (data.take mss).length := by
      rw [List.length_take]
      omega
    exact ⟨_, rfl, hsub.symm⟩
  | succ n ih =>
    rw [Nat.succ_mul] at hlt hle
    obtain ⟨s, hs, hlen⟩ := ih (data.drop mss)
      (by rw [List.length_drop]; omega) (by rw [List.length_drop]; omega)
    refine ⟨s, ?_, ?_⟩
    · rw [cutSegments, List.getLast?_cons, hs]
      rfl
    · rw [hlen, List.length_drop, Nat.succ_mul]
      omega

/-- The pieces of `n` bytes: `q` full ones, and a last one that leaves the rest of its room. -/
theorem exists_pieces {mss n : Nat} (hmss : 0 < mss) (hn : 0 < n) :
    ∃ q, q * mss < n ∧ n ≤ (q + 1) * mss ∧ (n + mss - 1) / mss = q + 1 ∧
      mss - (n - q * mss) = (mss - n % mss) % mss := by
  have hdiv := Nat.div_add_mod (n - 1) mss
  have hmod := Nat.mod_lt (n - 1) hmss
  rw [Nat.mul_comm] at hdiv
  refine ⟨(n - 1) / mss, by omega, by rw [Nat.succ_mul]; omega, ?_, ?_⟩
  · rw [show n + mss - 1 = n - 1 + mss by omega, Nat.add_div_right _ hmss]
  · generalize (n - 1) / mss = q at *
    have hn' : n = (n - 1) % mss + 1 + q * mss := by omega
    rw [show n - q * mss = (n - 1) % mss + 1 by omega,
      show n % mss = ((n - 1) % mss + 1) % mss by
        conv_lhs => rw [hn']
        exact Nat.add_mul_mod_self_right _ _ _]
    generalize (n - 1) % mss = r at *
    rcases Nat.lt_or_ge (r + 1) mss with hlt | hge
    · rw [Nat.mod_eq_of_lt hlt, Nat.mod_eq_of_lt (by omega)]
    · rw [show r + 1 = mss by omega, Nat.mod_self, Nat.sub_self, Nat.sub_zero, Nat.mod_self]

/-- **The room behind a call** that took all of its bytes. -/
theorem room_sendOwned {k : Kcp} (hstream : k.flags.stream = true) (hmss : 0 < k.mss)
    {data : Bytes} (hne : data ≠ []) (hfits : k.takesWhole data = true) :
    (k.sendOwned data).1.room = roomAfter k.mss k.room data.length := by
  have hext := extendLen_eq hstream data
  have hpos := List.length_pos_iff.mpr hne
  have hroom := (takesWhole_iff hstream hmss data).mp hfits
  unfold sendOwned
  simp only [hstream, true_and]
  split
  case isTrue hrest =>
    have hle : data.length ≤ k.room := by
      have hlen := congrArg List.length hrest
      rw [List.length_drop, List.length_nil] at hlen
      omega
    have hafter : roomAfter k.mss k.room data.length = k.room - data.length := by
      rw [roomAfter, if_pos hle]
    cases hl : k.sndQueue.getLast? with
    | none =>
      have hr : k.room = 0 := by rw [room, hl]
      omega
    | some old =>
      have hr : k.room = k.mss - old.data.length := by rw [room, hl]
      have htail : k.extendTail data = k.sndQueue.dropLast ++
          [{ old with data := old.data ++ data.take (k.extendLen data), frg := 0 }] := by
        rw [extendTail, if_pos hstream, hl]
        exact if_pos (by omega)
      rw [hafter, hr, htail, room, List.getLast?_concat]
      change k.mss - (old.data ++ data.take (k.extendLen data)).length = _
      rw [List.length_append, List.length_take, hext]
      omega
  case isFalse hrest =>
    have hgt : k.room < data.length := by
      refine Nat.lt_of_not_le fun hle => hrest ?_
      rw [hext, Nat.min_eq_left hle, List.drop_length]
    have hlen : (data.drop (k.extendLen data)).length = data.length - k.room := by
      rw [List.length_drop, hext, Nat.min_eq_right hgt.le]
    obtain ⟨q, hlt, hle, hcount, hlast⟩ :=
      exists_pieces (n := data.length - k.room) hmss (by omega)
    have hafter : roomAfter k.mss k.room data.length
        = k.mss - (data.length - k.room - q * k.mss) := by
      rw [roomAfter, if_neg (by omega), hlast]
    have hsmall : ¬ kcpWndRcv.toNat ≤ (data.length - k.room + k.mss - 1) / k.mss := by
      have hlt128 : (data.length - k.room + k.mss - 1) / k.mss < 128 := by
        rw [Nat.div_lt_iff_lt_mul hmss]
        omega
      exact Nat.not_le.mpr hlt128
    obtain ⟨s, hs, hslen⟩ := cutSegments_getLast true k.mss q (data.drop (k.extendLen data))
      (by omega) (by omega)
    rw [hafter, hlen, if_neg hsmall, hcount, Nat.max_eq_right (Nat.le_add_left 1 q), room,
      List.getLast?_append, hs]
    change k.mss - s.data.length = _
    rw [hslen, hlen]

/-! ### Chunk after chunk -/

/-- Past the room, what is left completes the last segment. -/
theorem roomAfter_spec {mss room n : Nat} (hmss : 0 < mss) (hn : room < n) :
    roomAfter mss room n < mss ∧ (roomAfter mss room n + (n - room)) % mss = 0 := by
  rw [roomAfter, if_neg (by omega)]
  refine ⟨Nat.mod_lt _ hmss, ?_⟩
  have hmod := Nat.mod_lt (n - room) hmss
  rw [Nat.mod_add_mod, ← Nat.add_mod_mod, Nat.sub_add_cancel hmod.le, Nat.mod_self]

/-- Two cuts are one. -/
theorem roomAfter_add {mss room : Nat} (hmss : 0 < mss) (a b : Nat) :
    roomAfter mss (roomAfter mss room a) b = roomAfter mss room (a + b) := by
  rcases (Nat.lt_or_ge room (a + b)).symm with hab | hab
  · have hra : roomAfter mss room a = room - a := by rw [roomAfter, if_pos (by omega)]
    rw [roomAfter, hra, if_pos (by omega), roomAfter, if_pos hab]
    omega
  rcases Nat.eq_zero_or_pos b with rfl | hb
  · simp [roomAfter]
  obtain ⟨hlt, hmod⟩ := roomAfter_spec hmss hab
  have hboth : roomAfter mss (roomAfter mss room a) b < mss ∧
      (roomAfter mss (roomAfter mss room a) b + (a + b - room)) % mss = 0 := by
    rcases (Nat.lt_or_ge room a).symm with ha | ha
    · have hra : roomAfter mss room a = room - a := by rw [roomAfter, if_pos ha]
      have h := roomAfter_spec hmss (show roomAfter mss room a < b by omega)
      rwa [hra, show b - (room - a) = a + b - room by omega, ← hra] at h
    · obtain ⟨hlta, hmoda⟩ := roomAfter_spec hmss ha
      generalize roomAfter mss room a = r at hlta hmoda ⊢
      rcases (Nat.lt_or_ge r b).symm with hbr | hbr
      · rw [roomAfter, if_pos hbr]
        refine ⟨by omega, ?_⟩
        rwa [show r - b + (a + b - room) = r + (a - room) by omega]
      · obtain ⟨hltb, hmodb⟩ := roomAfter_spec hmss hbr
        refine ⟨hltb, ?_⟩
        rw [show roomAfter mss r b + (a + b - room)
            = roomAfter mss r b + (b - r) + (r + (a - room)) by omega,
          Nat.add_mod, hmodb, hmoda]
        simp
  have hmodEq : roomAfter mss (roomAfter mss room a) b ≡ roomAfter mss room (a + b) [MOD mss] :=
    Nat.ModEq.add_right_cancel' (a + b - room) (hboth.2.trans hmod.symm)
  exact hmodEq.eq_of_lt_of_lt hboth.1 hlt

/-- A message comes to what its first chunk comes to, and the rest behind it. -/
theorem segmentable_step {mss room len : Nat} (hmss : 0 < mss) (hlen : 0 < len) :
    Segmentable mss room len ↔ min sendChunk len - room ≤ 127 * mss ∧
      Segmentable mss (roomAfter mss room sendChunk) (len - sendChunk) := by
  have hsucc : ∀ i, (i + 1) * sendChunk = sendChunk + i * sendChunk := fun i => by
    rw [Nat.succ_mul, Nat.add_comm]
  constructor
  · intro h
    refine ⟨by simpa [roomAfter] using h 0 (by omega), fun i hi => ?_⟩
    have hi' := h (i + 1) (by rw [hsucc]; omega)
    rwa [hsucc, ← roomAfter_add hmss, ← Nat.sub_sub] at hi'
  · rintro ⟨h0, hrest⟩ i hi
    cases i with
    | zero => simpa [roomAfter] using h0
    | succ i =>
      rw [hsucc] at hi ⊢
      rw [← roomAfter_add hmss, ← Nat.sub_sub]
      exact hrest i (by omega)

/-- A message within a single chunk. -/
theorem segmentable_of_nil (mss room : Nat) : Segmentable mss room 0 :=
  fun _ hi => absurd hi (Nat.not_lt_zero _)

/-- `send_owned` leaves the stream flag and the segment size. -/
theorem sendOwned_mss (k : Kcp) (data : Bytes) :
    (k.sendOwned data).1.flags = k.flags ∧ (k.sendOwned data).1.mss = k.mss := by
  rw [sendOwned_eq]
  exact ⟨rfl, rfl⟩

/-- The first chunk of a message that comes to few enough segments is taken. -/
theorem sendOwned_of_segmentable {k : Kcp} (hstream : k.flags.stream = true) (hmss : 0 < k.mss)
    {data : Bytes} (hne : data ≠ []) (h : Segmentable k.mss k.room data.length) :
    (k.sendOwned (data.take sendChunk)).2 = .ok (data.take sendChunk).length := by
  have hfirst := ((segmentable_step hmss (List.length_pos_iff.mpr hne)).mp h).1
  rw [sendOwned_ok_iff hstream, takesWhole_iff hstream hmss, List.length_take]
  exact hfirst

/-- **The loop.**  It goes through exactly when every chunk does, and then the whole message is
queued behind what was queued. -/
theorem kcpSendOwnedAll_ok {k : Kcp} (hstream : k.flags.stream = true) (hmss : 0 < k.mss)
    (data : Bytes) :
    ((k.kcpSendOwnedAll data).2 = .ok () ↔ Segmentable k.mss k.room data.length) ∧
      ((k.kcpSendOwnedAll data).2 = .ok () →
        queuedBytes (k.kcpSendOwnedAll data).1.sndQueue = queuedBytes k.sndQueue ++ data) := by
  fun_induction kcpSendOwnedAll k data with
  | case1 k =>
    refine ⟨iff_of_true rfl (segmentable_of_nil _ _), fun _ => ?_⟩
    rw [List.append_nil]
  | case2 k data hne head k' hsend ih =>
    have hpos := List.length_pos_iff.mpr hne
    have hhead : head ≠ [] := by
      intro hnil
      have := congrArg List.length hnil
      rw [List.length_take, List.length_nil, sendChunk] at this
      omega
    have hlen : head.length = min sendChunk data.length := List.length_take
    have hk : k' = (k.sendOwned head).1 := by rw [hsend]
    have hwhole : k.takesWhole head = true := by
      rw [← sendOwned_ok_iff hstream, hsend]
    obtain ⟨hflags, hmss'⟩ := sendOwned_mss k head
    rw [← hk] at hflags hmss'
    obtain ⟨hiff, hbytes⟩ := ih (by rw [hflags]; exact hstream) (by rw [hmss']; exact hmss)
    have hroom : k'.room = roomAfter k.mss k.room head.length := by
      rw [hk, room_sendOwned hstream hmss hhead hwhole]
    have hqueued : queuedBytes k'.sndQueue = queuedBytes k.sndQueue ++ head := by
      rw [hk, queuedBytes_sendOwned hstream hmss, hsend]
      exact congrArg _ (List.take_length)
    refine ⟨?_, fun hok => ?_⟩
    · rw [hiff, segmentable_step hmss hpos, ← hlen, ← takesWhole_iff hstream hmss, hmss', hroom,
        List.length_drop, and_iff_right hwhole]
      rcases Nat.lt_or_ge data.length sendChunk with hlt | hge
      · rw [Nat.sub_eq_zero_of_le hlt.le]
        exact iff_of_true (segmentable_of_nil _ _) (segmentable_of_nil _ _)
      · rw [hlen, Nat.min_eq_left hge]
    · rw [hbytes hok, hqueued, List.append_assoc]
      exact congrArg _ (List.take_append_drop _ _)
  | case3 k data hne head k' n hsend hn =>
    refine ⟨iff_of_false nofun fun h => hn ?_, nofun⟩
    have hok := sendOwned_of_segmentable hstream hmss hne h
    rw [hsend] at hok
    exact Except.ok.inj hok
  | case4 k data hne head k' e hsend =>
    refine ⟨iff_of_false nofun fun h => ?_, nofun⟩
    have hok := sendOwned_of_segmentable hstream hmss hne h
    rw [hsend] at hok
    cases hok

/-! ## 4. The path -/

/-- `IPV4_UDP_HEADERS`. -/
def ipv4UdpHeaders : Nat := 20 + 8

/-- `IPV6_UDP_HEADERS`. -/
def ipv6UdpHeaders : Nat := 40 + 8

/-- `KCP_MTU_CEILING`. -/
def kcpMtuCeiling : Nat := 8000

/-- `datagram_for_path`. -/
def datagramForPath (pathMtu : Nat) (ipv6 : Bool) : Option Nat :=
  let fits := pathMtu - if ipv6 then ipv6UdpHeaders else ipv4UdpHeaders
  if kcpOverhead < fits then some (min fits kcpMtuCeiling) else none

/-- An admitted datagram size has room for a header and a byte. -/
theorem datagramForPath_bounds {pathMtu fits : Nat} {ipv6 : Bool}
    (h : datagramForPath pathMtu ipv6 = some fits) : kcpOverhead < fits ∧ fits ≤ kcpMtuCeiling := by
  have hceiling : kcpOverhead < kcpMtuCeiling := by decide
  simp only [datagramForPath, Option.ite_none_right_eq_some, Option.some.injEq] at h
  obtain ⟨hlt, rfl⟩ := h
  exact ⟨lt_min hlt hceiling, min_le_right _ _⟩

/-- The segment size that `set_mtu` gives. -/
theorem setMtu_mss {k : Kcp} (hk : Configured k) {fits : Nat} (hfits : kcpOverhead < fits) :
    (k.setMtu fits).mss = fits - kcpOverhead := by
  have hmax : max fits (kcpOverhead + 1) = fits := max_eq_left hfits
  unfold setMtu
  simp only [hmax]
  split
  · rfl
  · have := hk.mtu
    omega

theorem setMtu_sndQueue (k : Kcp) (mtu : Nat) : (k.setMtu mtu).sndQueue = k.sndQueue := by
  unfold setMtu
  simp only []
  split <;> rfl

/-- From a segment size of 517 on, every message goes through. -/
theorem segmentable_of_mss {mss : Nat} (hmss : 517 ≤ mss) (room len : Nat) :
    Segmentable mss room len := by
  intro i _
  have hchunk : sendChunk = 65536 := rfl
  omega

end Kcp

/-- **Every message, or not.**  After a path MTU was adopted, a message is queued whole, once and in
order, exactly when each of its chunks comes to less than 128 segments of the new size. -/
theorem sends_all {k : Kcp} (h : engine.Reach k) {pathMtu fits : Nat} {ipv6 : Bool}
    (hp : Kcp.datagramForPath pathMtu ipv6 = some fits) (data : Bytes) :
    (((k.setMtu fits).kcpSendOwnedAll data).2 = .ok () ∧
      queuedBytes ((k.setMtu fits).kcpSendOwnedAll data).1.sndQueue
        = queuedBytes k.sndQueue ++ data) ↔
    Kcp.Segmentable (fits - kcpOverhead) (k.setMtu fits).room data.length := by
  have hk := engine_configured h
  have hk' := hk.setMtu fits
  obtain ⟨hiff, hbytes⟩ := Kcp.kcpSendOwnedAll_ok hk'.stream hk'.mss data
  rw [← Kcp.setMtu_mss hk (Kcp.datagramForPath_bounds hp).1, ← hiff,
    ← Kcp.setMtu_sndQueue k fits]
  exact ⟨fun hok => hok.1, fun hok => ⟨hok, hbytes hok⟩⟩

/-- Three bytes on a fresh engine over an Ethernet path. -/
theorem sends_all_ethernet :
    (((newStream 7).setMtu 1472).kcpSendOwnedAll [1, 2, 3]).2 = .ok () ∧
      queuedBytes (((newStream 7).setMtu 1472).kcpSendOwnedAll [1, 2, 3]).1.sndQueue = [1, 2, 3] :=
  (sends_all (.init ⟨7, rfl⟩) (show Kcp.datagramForPath 1500 false = some 1472 by decide)
    [1, 2, 3]).mpr (Kcp.segmentable_of_mss (by decide) _ _)

/-- A path MTU of 552 leaves 500 bytes a segment, and 64 KiB come to 132 of them. -/
theorem chunk_too_big :
    ¬ ∀ (k : Kcp), engine.Reach k → ∀ (pathMtu fits : Nat) (ipv6 : Bool),
      Kcp.datagramForPath pathMtu ipv6 = some fits → ∀ data : Bytes,
        ((k.setMtu fits).kcpSendOwnedAll data).2 = .ok () ∧
          queuedBytes ((k.setMtu fits).kcpSendOwnedAll data).1.sndQueue
            = queuedBytes k.sndQueue ++ data := by
  intro hall
  have hok := (hall (newStream 7) (.init ⟨7, rfl⟩) 552 524 false (by decide)
    (List.replicate sendChunk 0)).1
  have hseg := (Kcp.kcpSendOwnedAll_ok (k := (newStream 7).setMtu 524) rfl (by decide) _).1.mp hok
  rw [List.length_replicate] at hseg
  have h0 := hseg 0 (by decide)
  exact absurd h0 (by decide)

end Molehill
