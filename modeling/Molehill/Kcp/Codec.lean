/-
# The KCP wire format round trip, and the induction rules of `input`

What `encode` writes, `SegHead.parse` reads back (`SegHead.parse_encode`), as long as the
payload's length fits the 32-bit length field.  From it, two rules for `input`'s loop, which
every later proof about a delivered datagram uses instead of unfolding the loop:

* `Kcp.inputLoop_inv`: whatever one round preserves, the loop preserves, on ANY bytes;
* `Kcp.inputLoop_encodeAll_inv`: on the encoding of a list of segments the rounds are exactly
  these segments, in order, so a round may assume of its segment what holds of all of them.
-/
import Molehill.Kcp.Flush

namespace Molehill

open Lib

/-! ## 1. The header -/

/-- The header fields of a segment, as its peer parses them. -/
def KcpSegment.head (s : KcpSegment) : SegHead where
  conv := s.conv
  cmd := s.cmd
  frg := s.frg
  wnd := s.wnd
  ts := s.ts
  sn := s.sn
  una := s.una
  len := s.data.length

/-- The datagram that packs a list of segments. -/
def encodeAll (segs : List KcpSegment) : Bytes := (segs.map KcpSegment.encode).flatten

theorem encodeHeader_length (s : KcpSegment) : s.encodeHeader.length = kcpOverhead := by
  simp [KcpSegment.encodeHeader, kcpOverhead]

theorem encode_length (s : KcpSegment) : s.encode.length = kcpOverhead + s.data.length := by
  simp [KcpSegment.encode, encodeHeader_length]

@[simp] theorem encodeAll_nil : encodeAll [] = [] := rfl

@[simp] theorem encodeAll_cons (s : KcpSegment) (segs : List KcpSegment) :
    encodeAll (s :: segs) = s.encode ++ encodeAll segs := rfl

theorem encodeAll_append (xs ys : List KcpSegment) :
    encodeAll (xs ++ ys) = encodeAll xs ++ encodeAll ys := by
  simp [encodeAll]

/-- A datagram is at least as long as any payload in it. -/
theorem data_length_le_encodeAll {s : KcpSegment} :
    ∀ {segs : List KcpSegment}, s ∈ segs → s.data.length ≤ (encodeAll segs).length
  | t :: segs, h => by
    rw [encodeAll_cons, List.length_append, encode_length]
    rcases List.mem_cons.mp h with rfl | h
    · omega
    · have := data_length_le_encodeAll h
      omega

theorem getLe_byte (b : Byte) (rest : Bytes) : getLe 1 (b :: rest) = (b.toNat, rest) := by
  simp [getLe, ofLe]

theorem getLe_word {w k : Nat} (hw : 2 ^ w = 256 ^ k) (v : BitVec w) (rest : Bytes) :
    getLe k (leBytes k v.toNat ++ rest) = (v.toNat, rest) := by
  rw [getLe_leBytes_append, Nat.mod_eq_of_lt (by rw [← hw]; exact v.isLt)]

/-- **The round trip.**  A segment's own encoding parses to its own header fields, and leaves
the payload and what follows it. -/
theorem SegHead.parse_encode {s : KcpSegment} (hcmd : knownCmd s.cmd = true)
    (hlen : s.data.length < 2 ^ 32) (rest : Bytes) :
    SegHead.parse s.conv (s.encode ++ rest) = .ok (s.head, s.data ++ rest) := by
  have hmin : min s.data.length (2 ^ 32 - 1) = s.data.length := by omega
  have hmod : s.data.length % 256 ^ 4 = s.data.length := Nat.mod_eq_of_lt (by omega)
  have hconv := getLe_word (w := 32) (k := 4) (by decide) s.conv
  have hwnd := getLe_word (w := 16) (k := 2) (by decide) s.wnd
  have hts := getLe_word (w := 32) (k := 4) (by decide) s.ts
  have hsn := getLe_word (w := 32) (k := 4) (by decide) s.sn
  have huna := getLe_word (w := 32) (k := 4) (by decide) s.una
  unfold SegHead.parse KcpSegment.encode KcpSegment.encodeHeader KcpSegment.head
  simp only [List.append_assoc, List.cons_append, hconv, getLe_byte, hwnd, hts, hsn, huna,
    getLe_leBytes_append, hmin, hmod, BitVec.ofNat_toNat, BitVec.setWidth_eq, ne_eq,
    not_true_eq_false, if_false, hcmd, Bool.not_true, Bool.false_eq_true, List.length_append]
  rw [if_neg (by omega)]

/-! ## 2. The rules of the loop -/

namespace Kcp

/-- **Any bytes.**  What one round preserves whatever its header says, the loop preserves. -/
theorem inputLoop_inv {P : Kcp → Prop}
    (hround : ∀ k acks head buf, P k → P (k.inputSegment acks head buf).1) :
    ∀ (fuel : Nat) (k : Kcp) (acks : AckRun) (buf : Bytes), P k →
      P (inputLoop fuel k acks buf).1
  | 0, k, acks, buf, h => h
  | fuel + 1, k, acks, buf, h => by
    unfold inputLoop
    split
    · exact h
    · split
      · exact h
      · rename_i head rest _
        have hk := hround k acks head rest h
        split
        · rename_i hr; rw [hr] at hk; exact hk
        · rename_i hr
          rw [hr] at hk
          exact inputLoop_inv hround fuel _ _ _ hk

/-- The segment `accept_push` builds from a header and its payload. -/
def delivered (s : KcpSegment) : KcpSegment :=
  { s with resendts := 0, rto := 0, fastack := 0, xmit := 0 }

/-- **What `accept_push` can do with a whole segment**: refuse it as beyond the window, ack it
as already received, or ack it and hand it to `parse_data`. -/
theorem acceptPush_cases (k : Kcp) (s : KcpSegment) (rest : Bytes) :
    k.acceptPush s.head (s.data ++ rest) = (k, .ok (false, s.data ++ rest)) ∨
    k.acceptPush s.head (s.data ++ rest) = (k.ackPush s.sn s.ts, .ok (false, s.data ++ rest)) ∨
    (timediff s.sn (k.rcvNxt + k.rcvWnd.setWidth 32) < 0 ∧ 0 ≤ timediff s.sn k.rcvNxt ∧
      k.acceptPush s.head (s.data ++ rest) =
        ((k.ackPush s.sn s.ts).parseData (delivered s), .ok (true, rest))) := by
  unfold acceptPush
  simp only [KcpSegment.head, List.length_append, List.take_left, List.drop_left]
  by_cases hwin : 0 ≤ timediff s.sn (k.rcvNxt + k.rcvWnd.setWidth 32)
  · exact Or.inl (by rw [if_pos hwin])
  · rw [if_neg hwin]
    by_cases hold : timediff s.sn k.rcvNxt < 0
    · exact Or.inr (Or.inl (by rw [if_pos (by exact hold)]))
    · refine Or.inr (Or.inr ⟨by omega, by omega, ?_⟩)
      rw [if_neg (by exact hold), if_neg (by omega)]
      rfl

/-- A round over a whole segment consumes exactly its payload, and never fails. -/
theorem inputSegment_rest (k : Kcp) (acks : AckRun) (s : KcpSegment) (rest : Bytes) :
    (k.inputSegment acks s.head (s.data ++ rest)).2.2 = .ok rest := by
  have hdrop : (s.data ++ rest).drop s.head.len = rest := List.drop_left
  unfold inputSegment
  split
  · rw [hdrop]
  · split
    · rcases acceptPush_cases (k.inputHead s.head) s rest with h | h | ⟨-, -, h⟩
      · rw [h]; simp only [hdrop]
      · rw [h]; simp only [hdrop]
      · rw [h]
    · split <;> rw [hdrop]

/-- **The encoding of a list of segments.**  The rounds are these segments in order, so what a
round preserves under an assumption `Q` on its segment, the loop preserves when every segment
has `Q`. -/
theorem inputLoop_encodeAll_inv {P : Kcp → Prop} {Q : KcpSegment → Prop} {conv : U32}
    (hconv : ∀ k, P k → k.conv = conv)
    (hround : ∀ k acks s rest, Q s → P k → P (k.inputSegment acks s.head (s.data ++ rest)).1) :
    ∀ (fuel : Nat) (segs : List KcpSegment) (k : Kcp) (acks : AckRun),
      (∀ s ∈ segs, s.conv = conv ∧ knownCmd s.cmd = true ∧ s.data.length < 2 ^ 32 ∧ Q s) →
      P k → P (inputLoop fuel k acks (encodeAll segs)).1
  | 0, _, k, _, _, h => h
  | fuel + 1, [], k, acks, _, h => by
    simpa [inputLoop, kcpOverhead] using h
  | fuel + 1, s :: segs, k, acks, hs, h => by
    obtain ⟨hc, hcmd, hlen, hq⟩ := hs s List.mem_cons_self
    have hparse : SegHead.parse k.conv (s.encode ++ encodeAll segs)
        = .ok (s.head, s.data ++ encodeAll segs) := by
      rw [hconv k h, ← hc]
      exact SegHead.parse_encode hcmd hlen _
    have hk := hround k acks s (encodeAll segs) hq h
    have hlong : ¬ (encodeAll (s :: segs)).length < kcpOverhead := by
      rw [encodeAll_cons, List.length_append, encode_length]
      omega
    have hrest := inputSegment_rest k acks s (encodeAll segs)
    rw [inputLoop, if_neg hlong, encodeAll_cons, hparse]
    simp only []
    split
    · rename_i hr; rw [hr] at hk; exact hk
    · rename_i hr
      rw [hr] at hk hrest
      simp only [Except.ok.injEq] at hrest
      rw [hrest]
      exact inputLoop_encodeAll_inv hconv hround fuel segs _ _
        (fun t ht => hs t (List.mem_cons_of_mem _ ht)) hk

end Kcp

end Molehill
