/-
# Completing a packet's checksum

A vnet frame may leave the transport checksum to its receiver: the field holds the sum of the
pseudo-header, and the frame's header says where the field is and where the summed bytes start.  On
the way to a device that takes bare packets, `complete_checksum` finishes it.

What it writes is the complement of the sum (`completeChecksum_eq`), with which the packet sums to
all ones.  For a UDP packet whose bytes sum to all ones by themselves that is zero, which says that
no checksum was computed; UDP has all ones for it (`udp_zero_written`).  And the 32-bit sum
overflows for packets of more than 128 KiB, which no device hands over.  Everything else is right
(`checksum_completed_iff`).
-/
import Molehill.Lib.OnesComplement
import Molehill.Transparent.Packet

namespace Molehill.Transparent

open Lib

/-! ## 1. The code -/

/-- `u32::from(u16::from_be_bytes(..))`. -/
def beWord (a b : Byte) : U32 := (a ++ b).setWidth 32

/-- `checksum`: the words are added up, the last byte of an odd length as the first of a word. -/
def addWords : Bytes → U32 → U32
  | a :: b :: rest, sum => addWords rest (sum + beWord a b)
  | [last], sum => sum + last.setWidth 32 <<< 8
  | [], sum => sum

/-- What is above 16 bits is added to the 16 bits. -/
def foldStep (sum : U32) : U32 := (sum &&& (0xffff : U32)) + sum >>> 16

theorem toNat_foldStep (sum : U32) :
    (foldStep sum).toNat = sum.toNat % 65536 + sum.toNat / 65536 := by
  have hlow : (sum &&& 0xffff).toNat = sum.toNat % 65536 := by
    rw [BitVec.toNat_and]
    exact Nat.and_two_pow_sub_one_eq_mod sum.toNat 16
  have hhigh : (sum >>> 16).toNat = sum.toNat / 65536 := by
    rw [BitVec.toNat_ushiftRight, Nat.shiftRight_eq_div_pow]
  have hlt := sum.isLt
  rw [foldStep, BitVec.toNat_add, hlow, hhigh]
  omega

/-- `checksum`: until nothing is above 16 bits. -/
def foldSum (sum : U32) : U32 :=
  if _ : sum >>> 16 = 0 then sum else foldSum (foldStep sum)
termination_by sum.toNat
decreasing_by
  rename_i h
  have hhigh : ¬ sum.toNat / 65536 = 0 := fun h0 => h (BitVec.eq_of_toNat_eq (by
    rw [BitVec.toNat_ushiftRight, Nat.shiftRight_eq_div_pow]
    exact h0))
  rw [toNat_foldStep]
  omega

/-- `checksum`. -/
def checksum (data : Bytes) (sum : U32) : U16 :=
  let sum := foldSum (addWords data sum)
  if sum.toNat < 2 ^ 16 then sum.setWidth 16 else 0xffff

/-- A field of two bytes is written. -/
def setField (packet : Bytes) (i : Nat) (value : U16) : Bytes :=
  (packet.set i ((value >>> 8).setWidth 8)).set (i + 1) (value.setWidth 8)

/-- `complete_checksum`: the packet afterwards, and the result. -/
def completeChecksum (packet : Bytes) (csumStart csumOffset : U16) : Bytes × Except String Unit :=
  let field := csumStart.toNat + csumOffset.toNat
  if field + 2 > packet.length then (packet, .error "checksum field outside the packet")
  else
    let initial := BitVec.ofNat 16 (fieldOf packet field 2)
    let zeroed := setField packet field 0
    let sum := checksum (zeroed.drop csumStart.toNat) (initial.setWidth 32)
    (setField zeroed field (~~~ sum), .ok ())

/-! ## 2. What is added up -/

/-- The big-endian words of the bytes, an odd length padded with a zero. -/
def words : Bytes → List Nat
  | a :: b :: rest => (a.toNat * 256 + b.toNat) :: words rest
  | [last] => [last.toNat * 256]
  | [] => []

/-- No sum of `addWords` overflows. -/
def AddWordsFits : Bytes → U32 → Prop
  | a :: b :: rest, sum =>
    sum.toNat + (beWord a b).toNat < 2 ^ 32 ∧ AddWordsFits rest (sum + beWord a b)
  | [last], sum => sum.toNat + (last.setWidth 32 <<< 8 : U32).toNat < 2 ^ 32
  | [], _ => True

theorem toNat_append (a b : Byte) : (a ++ b).toNat = a.toNat * 256 + b.toNat := by
  rw [BitVec.toNat_append, ← Nat.shiftLeft_add_eq_or_of_lt b.isLt, Nat.shiftLeft_eq]

theorem toNat_beWord (a b : Byte) : (beWord a b).toNat = a.toNat * 256 + b.toNat := by
  have ha := a.isLt
  have hb := b.isLt
  rw [beWord, BitVec.toNat_setWidth, toNat_append]
  omega

theorem toNat_lastWord (last : Byte) : (last.setWidth 32 <<< 8 : U32).toNat = last.toNat * 256 := by
  have hlast := last.isLt
  rw [BitVec.toNat_shiftLeft, BitVec.toNat_setWidth, Nat.shiftLeft_eq]
  omega

theorem toNat_add_fits {a b : U32} (h : a.toNat + b.toNat < 2 ^ 32) :
    (a + b).toNat = a.toNat + b.toNat := by
  rw [BitVec.toNat_add, Nat.mod_eq_of_lt h]

theorem words_le {data : Bytes} : ∀ w ∈ words data, w ≤ 65535 := by
  induction data using words.induct with
  | case1 a b rest ih =>
    intro w hw
    have ha := a.isLt
    have hb := b.isLt
    rcases List.mem_cons.mp hw with rfl | hrest
    · omega
    · exact ih w hrest
  | case2 last =>
    intro w hw
    have hlast := last.isLt
    rw [List.mem_singleton.mp hw]
    omega
  | case3 => exact fun w hw => absurd hw List.not_mem_nil

/-- Bytes of even length in front are words of their own. -/
theorem words_append {front : Bytes} (rest : Bytes) (heven : front.length % 2 = 0) :
    words (front ++ rest) = words front ++ words rest := by
  induction front using words.induct with
  | case1 a b front ih =>
    have hfront : front.length % 2 = 0 := by
      rw [List.length_cons, List.length_cons] at heven
      omega
    change (a.toNat * 256 + b.toNat) :: words (front ++ rest) = _
    rw [ih hfront]
    rfl
  | case2 last => cases heven
  | case3 => rfl

/-- **When no sum overflows**: the sum of all the words fits. -/
theorem addWordsFits_iff (data : Bytes) (sum : U32) :
    AddWordsFits data sum ↔ sum.toNat + (words data).sum < 2 ^ 32 := by
  induction data, sum using addWords.induct with
  | case1 a b rest sum ih =>
    rw [words, List.sum_cons, ← toNat_beWord]
    constructor
    · rintro ⟨hfits, hrest⟩
      have hsum := ih.mp hrest
      rw [toNat_add_fits hfits] at hsum
      omega
    · intro hsum
      have hfits : sum.toNat + (beWord a b).toNat < 2 ^ 32 := by
        omega
      refine ⟨hfits, ih.mpr ?_⟩
      rw [toNat_add_fits hfits]
      omega
  | case2 last sum =>
    rw [words, List.sum_singleton, ← toNat_lastWord]
    exact Iff.rfl
  | case3 sum =>
    rw [words, List.sum_nil]
    exact iff_of_true trivial sum.isLt

/-- The sum of the words, when none overflows. -/
theorem toNat_addWords {data : Bytes} {sum : U32} (h : AddWordsFits data sum) :
    (addWords data sum).toNat = sum.toNat + (words data).sum := by
  induction data, sum using addWords.induct with
  | case1 a b rest sum ih =>
    obtain ⟨hfits, hrest⟩ := h
    rw [addWords, ih hrest, toNat_add_fits hfits, words, List.sum_cons, toNat_beWord]
    omega
  | case2 last sum => rw [addWords, toNat_add_fits h, words, List.sum_singleton, toNat_lastWord]
  | case3 sum => rfl

/-- **Folding** leaves the word of the sum. -/
theorem toNat_foldSum (sum : U32) : (foldSum sum).toNat = residue 65535 sum.toNat := by
  induction sum using foldSum.induct with
  | case1 sum h =>
    have hhigh : sum.toNat / 65536 = 0 := by
      rw [← Nat.shiftRight_eq_div_pow sum.toNat 16, ← BitVec.toNat_ushiftRight, h]
      rfl
    rw [foldSum, dif_pos h, residue_of_le (by omega)]
  | case2 sum h ih =>
    rw [foldSum, dif_neg h, ih, toNat_foldStep]
    exact residue_carry 65535 sum.toNat

/-- **The sum of the bytes** is the word of the sum of their words. -/
theorem toNat_checksum {data : Bytes} {sum : U32} (h : AddWordsFits data sum) :
    (checksum data sum).toNat = residue 65535 (sum.toNat + (words data).sum) := by
  have hle := residue_le (by omega : 0 < 65535) (sum.toNat + (words data).sum)
  have hfold : (foldSum (addWords data sum)).toNat
      = residue 65535 (sum.toNat + (words data).sum) := by
    rw [toNat_foldSum, toNat_addWords h]
  have hlt : (foldSum (addWords data sum)).toNat < 2 ^ 16 := by
    rw [hfold]
    omega
  rw [checksum, if_pos hlt, BitVec.toNat_setWidth, Nat.mod_eq_of_lt hlt, hfold]

/-! ## 3. What is written -/

theorem fieldOf_pair (front : Bytes) (x y : Byte) (rest : Bytes) :
    fieldOf (front ++ x :: y :: rest) front.length 2 = x.toNat * 256 + y.toNat := by
  rw [fieldOf, List.drop_left]
  simp only [List.take_succ_cons, List.take_zero, ofBe, List.reverse_cons, List.reverse_nil,
    List.nil_append, List.cons_append, ofLe]
  omega

theorem setField_pair (front : Bytes) (x y : Byte) (rest : Bytes) (value : U16) :
    setField (front ++ x :: y :: rest) front.length value
      = front ++ (value >>> 8).setWidth 8 :: value.setWidth 8 :: rest := by
  rw [setField, List.set_append_right front.length _ (Nat.le_refl _), Nat.sub_self,
    List.set_cons_zero, List.set_append_right (front.length + 1) _ (Nat.le_succ _),
    Nat.add_sub_cancel_left, List.set_cons_succ, List.set_cons_zero]

/-- The two bytes of a word. -/
theorem toNat_bytes (value : U16) :
    ((value >>> 8).setWidth 8 : Byte).toNat * 256 + (value.setWidth 8 : Byte).toNat
      = value.toNat := by
  have hlt := value.isLt
  rw [BitVec.toNat_setWidth, BitVec.toNat_setWidth, BitVec.toNat_ushiftRight,
    Nat.shiftRight_eq_div_pow]
  omega

/-- A packet around a field inside it. -/
theorem exists_field {packet : Bytes} {start offset : Nat}
    (h : start + offset + 2 ≤ packet.length) :
    ∃ front mid : Bytes, ∃ x y : Byte, ∃ rest : Bytes,
      packet = front ++ mid ++ x :: y :: rest ∧ front.length = start ∧ mid.length = offset := by
  have hfront : start ≤ packet.length := by
    omega
  obtain ⟨x, y, rest, hpair⟩ : ∃ x y rest, packet.drop (start + offset) = x :: y :: rest := by
    have hlen : 2 ≤ (packet.drop (start + offset)).length := by
      rw [List.length_drop]
      omega
    match packet.drop (start + offset), hlen with
    | x :: y :: rest, _ => exact ⟨x, y, rest, rfl⟩
  refine ⟨packet.take start, (packet.drop start).take offset, x, y, rest, ?_, ?_, ?_⟩
  · rw [← hpair, ← List.take_add, List.take_append_drop]
  · rw [List.length_take]
    omega
  · rw [List.length_take, List.length_drop]
    omega

/-- The bytes that are added up, with the field zeroed. -/
def summed (packet : Bytes) (csumStart csumOffset : U16) : Bytes :=
  (setField packet (csumStart.toNat + csumOffset.toNat) 0).drop csumStart.toNat

/-- What the field holds before: the sum of the pseudo-header. -/
def seed (packet : Bytes) (csumStart csumOffset : U16) : U32 :=
  (BitVec.ofNat 16 (fieldOf packet (csumStart.toNat + csumOffset.toNat) 2)).setWidth 32

theorem completeChecksum_outside {packet : Bytes} {csumStart csumOffset : U16}
    (h : packet.length < csumStart.toNat + csumOffset.toNat + 2) :
    completeChecksum packet csumStart csumOffset
      = (packet, .error "checksum field outside the packet") := if_pos h

theorem completeChecksum_inside {packet : Bytes} {csumStart csumOffset : U16}
    (h : ¬ packet.length < csumStart.toNat + csumOffset.toNat + 2) :
    completeChecksum packet csumStart csumOffset
      = (setField (setField packet (csumStart.toNat + csumOffset.toNat) 0)
          (csumStart.toNat + csumOffset.toNat)
          (~~~ checksum (summed packet csumStart csumOffset) (seed packet csumStart csumOffset)),
        .ok ()) := if_neg h

section Field

variable {front mid rest : Bytes} {x y : Byte} {csumStart csumOffset : U16}

theorem summed_field (hfront : front.length = csumStart.toNat)
    (hmid : mid.length = csumOffset.toNat) :
    summed (front ++ mid ++ x :: y :: rest) csumStart csumOffset = mid ++ 0 :: 0 :: rest := by
  rw [summed, ← hfront, ← hmid, ← List.length_append, setField_pair, List.append_assoc,
    List.drop_left]
  rfl

theorem seed_field (hfront : front.length = csumStart.toNat)
    (hmid : mid.length = csumOffset.toNat) :
    (seed (front ++ mid ++ x :: y :: rest) csumStart csumOffset).toNat
      = x.toNat * 256 + y.toNat := by
  have hx := x.isLt
  have hy := y.isLt
  rw [seed, ← hfront, ← hmid, ← List.length_append, fieldOf_pair, BitVec.toNat_setWidth,
    BitVec.toNat_ofNat]
  omega

theorem drop_field (hfront : front.length = csumStart.toNat) :
    (front ++ mid ++ x :: y :: rest).drop csumStart.toNat = mid ++ x :: y :: rest := by
  rw [← hfront, List.append_assoc, List.drop_left]

/-- The seed and the words with the field zeroed add up to the words of the packet itself. -/
theorem seed_add_summed (hfront : front.length = csumStart.toNat)
    (hmid : mid.length = csumOffset.toNat) (heven : csumOffset.toNat % 2 = 0) :
    (seed (front ++ mid ++ x :: y :: rest) csumStart csumOffset).toNat
        + (words (summed (front ++ mid ++ x :: y :: rest) csumStart csumOffset)).sum
      = (words (mid ++ x :: y :: rest)).sum := by
  rw [← hmid] at heven
  have hzero : words (0 :: 0 :: rest) = 0 :: words rest := rfl
  rw [seed_field hfront hmid, summed_field hfront hmid, words_append _ heven,
    words_append _ heven, hzero, words, List.sum_append, List.sum_append, List.sum_cons,
    List.sum_cons]
  omega

/-- **What is written**: the complement of the word of the sum. -/
theorem completeChecksum_field (hfront : front.length = csumStart.toNat)
    (hmid : mid.length = csumOffset.toNat) (heven : csumOffset.toNat % 2 = 0)
    (hfits : AddWordsFits (summed (front ++ mid ++ x :: y :: rest) csumStart csumOffset)
      (seed (front ++ mid ++ x :: y :: rest) csumStart csumOffset)) :
    ∃ value : U16,
      completeChecksum (front ++ mid ++ x :: y :: rest) csumStart csumOffset
        = (front ++ mid ++ (value >>> 8).setWidth 8 :: value.setWidth 8 :: rest, .ok ()) ∧
      value.toNat = 65535 - residue 65535 (words (mid ++ x :: y :: rest)).sum := by
  have hlen : ¬ (front ++ mid ++ x :: y :: rest).length
      < csumStart.toNat + csumOffset.toNat + 2 := by
    rw [← hfront, ← hmid]
    simp only [List.length_append, List.length_cons]
    omega
  refine ⟨~~~ checksum (summed (front ++ mid ++ x :: y :: rest) csumStart csumOffset)
    (seed (front ++ mid ++ x :: y :: rest) csumStart csumOffset), ?_, ?_⟩
  · rw [completeChecksum_inside hlen]
    generalize checksum _ _ = sum
    rw [← hfront, ← hmid, ← List.length_append, setField_pair, setField_pair]
  · rw [BitVec.toNat_not, toNat_checksum hfits, seed_add_summed hfront hmid heven]

end Field

/-! ## 5. A completed packet -/

/-- The reader of routing fields takes the packet for UDP. -/
def IsUdp (packet : Bytes) : Prop := ∃ info, parse packet = .ok info ∧ info.protocol = udp

/-- The packet is completed: only the field has changed; with the seed it sums to all ones; no sum
on the way overflowed; and a UDP packet does not say that it has no checksum. -/
structure Completed (packet : Bytes) (csumStart csumOffset : U16) (completed : Bytes) : Prop where
  length_eq : completed.length = packet.length
  kept : ∀ i, i ≠ csumStart.toNat + csumOffset.toNat → i ≠ csumStart.toNat + csumOffset.toNat + 1 →
    completed[i]? = packet[i]?
  all_ones : onesSum 65535
    ((seed packet csumStart csumOffset).toNat :: words (completed.drop csumStart.toNat)) = 65535
  fits : AddWordsFits (summed packet csumStart csumOffset) (seed packet csumStart csumOffset)
  folds_fit : ∀ sum : U32, (sum &&& (0xffff : U32)).toNat + (sum >>> 16).toNat < 2 ^ 32
  not_zero : IsUdp packet → fieldOf completed (csumStart.toNat + csumOffset.toNat) 2 ≠ 0

/-- `complete_checksum` refuses a field outside the packet, and else completes the packet. -/
def ChecksumCompleted (packet : Bytes) (csumStart csumOffset : U16) : Prop :=
  packet.length < csumStart.toNat + csumOffset.toNat + 2 ∧
      (∃ error, completeChecksum packet csumStart csumOffset = (packet, .error error)) ∨
    ∃ completed, completeChecksum packet csumStart csumOffset = (completed, .ok ()) ∧
      Completed packet csumStart csumOffset completed

theorem folds_fit (sum : U32) :
    (sum &&& (0xffff : U32)).toNat + (sum >>> 16).toNat < 2 ^ 32 := by
  have hlow : (sum &&& (0xffff : U32)).toNat ≤ 65535 := by
    rw [BitVec.toNat_and]
    exact Nat.and_le_right
  have hhigh : (sum >>> 16).toNat = sum.toNat / 65536 := by
    rw [BitVec.toNat_ushiftRight, Nat.shiftRight_eq_div_pow]
  have hlt := sum.isLt
  omega

/-- With the word that is written, the packet sums to all ones. -/
theorem onesSum_field {mid rest : Bytes} {x y : Byte} {value : U16}
    (heven : mid.length % 2 = 0)
    (hvalue : value.toNat = 65535 - residue 65535 (words (mid ++ x :: y :: rest)).sum) :
    onesSum 65535 ((x.toNat * 256 + y.toNat)
      :: words (mid ++ (value >>> 8).setWidth 8 :: value.setWidth 8 :: rest)) = 65535 := by
  have hx := x.isLt
  have hy := y.isLt
  have hseed : ∀ w ∈ (x.toNat * 256 + y.toNat)
      :: words (mid ++ (value >>> 8).setWidth 8 :: value.setWidth 8 :: rest), w ≤ 65535 := by
    intro w hw
    rcases List.mem_cons.mp hw with rfl | hrest
    · omega
    · exact words_le w hrest
  have hsum : ((x.toNat * 256 + y.toNat)
        :: words (mid ++ (value >>> 8).setWidth 8 :: value.setWidth 8 :: rest)).sum
      = (words (mid ++ x :: y :: rest)).sum + value.toNat := by
    rw [words_append _ heven, words_append _ heven, words, words, toNat_bytes,
      List.sum_cons, List.sum_append, List.sum_append, List.sum_cons, List.sum_cons]
    omega
  rw [onesSum_eq (by omega) hseed, hsum, hvalue, residue_complement (by omega)]

section Completed

variable {packet : Bytes} {csumStart csumOffset : U16}

/-- What is added up, as words of the packet handed in. -/
theorem summed_fits_iff (heven : csumOffset.toNat % 2 = 0)
    (hlen : ¬ packet.length < csumStart.toNat + csumOffset.toNat + 2) :
    AddWordsFits (summed packet csumStart csumOffset) (seed packet csumStart csumOffset) ↔
      (words (packet.drop csumStart.toNat)).sum < 2 ^ 32 := by
  obtain ⟨front, mid, x, y, rest, rfl, hfront, hmid⟩ := exists_field (Nat.not_lt.mp hlen)
  rw [addWordsFits_iff, seed_add_summed hfront hmid heven, drop_field hfront]

/-- A completed UDP packet did not sum to all ones by itself. -/
theorem Completed.sum_of_inside {completed : Bytes} (heven : csumOffset.toNat % 2 = 0)
    (hlen : ¬ packet.length < csumStart.toNat + csumOffset.toNat + 2)
    (hcomplete : completeChecksum packet csumStart csumOffset = (completed, .ok ()))
    (h : Completed packet csumStart csumOffset completed) :
    (words (packet.drop csumStart.toNat)).sum < 2 ^ 32 ∧
      ¬ (IsUdp packet ∧ 0 < (words (packet.drop csumStart.toNat)).sum ∧
        65535 ∣ (words (packet.drop csumStart.toNat)).sum) := by
  refine ⟨(summed_fits_iff heven hlen).mp h.fits, ?_⟩
  rintro ⟨hudp, htop⟩
  refine h.not_zero hudp ?_
  have hfits := h.fits
  obtain ⟨front, mid, x, y, rest, rfl, hfront, hmid⟩ := exists_field (Nat.not_lt.mp hlen)
  obtain ⟨value, hvalue, hword⟩ := completeChecksum_field hfront hmid heven hfits
  rw [hcomplete, Prod.mk.injEq] at hvalue
  rw [drop_field hfront] at htop
  rw [hvalue.1, ← hfront, ← hmid, ← List.length_append, fieldOf_pair, toNat_bytes, hword,
    (residue_eq_top_iff (by omega)).mpr htop]

/-- A packet whose words fit, and do not sum to all ones if it is UDP, is completed. -/
theorem completed_of_sum (heven : csumOffset.toNat % 2 = 0)
    (hlen : ¬ packet.length < csumStart.toNat + csumOffset.toNat + 2)
    (hsum : (words (packet.drop csumStart.toNat)).sum < 2 ^ 32)
    (hudp : ¬ (IsUdp packet ∧ 0 < (words (packet.drop csumStart.toNat)).sum ∧
      65535 ∣ (words (packet.drop csumStart.toNat)).sum)) :
    ∃ completed, completeChecksum packet csumStart csumOffset = (completed, .ok ()) ∧
      Completed packet csumStart csumOffset completed := by
  have hfits := (summed_fits_iff heven hlen).mpr hsum
  obtain ⟨front, mid, x, y, rest, rfl, hfront, hmid⟩ := exists_field (Nat.not_lt.mp hlen)
  obtain ⟨value, hvalue, hword⟩ := completeChecksum_field hfront hmid heven hfits
  rw [drop_field hfront] at hudp
  refine ⟨_, hvalue, ?_, ?_, ?_, hfits, folds_fit, ?_⟩
  · simp only [List.length_append, List.length_cons]
  · intro i hi hi'
    rw [← hfront, ← hmid, ← List.length_append] at hi hi'
    rcases Nat.lt_or_gt_of_ne hi with hbefore | hafter
    · rw [List.getElem?_append_left hbefore, List.getElem?_append_left hbefore]
    · obtain ⟨k, rfl⟩ : ∃ k, i = (front ++ mid).length + (k + 2) :=
        ⟨i - (front ++ mid).length - 2, by omega⟩
      rw [List.getElem?_append_right (Nat.le_add_right _ _),
        List.getElem?_append_right (Nat.le_add_right _ _), Nat.add_sub_cancel_left]
      rfl
  · rw [seed_field hfront hmid, drop_field hfront]
    exact onesSum_field (hmid ▸ heven) hword
  · intro hisUdp hzero
    rw [← hfront, ← hmid, ← List.length_append, fieldOf_pair, toNat_bytes, hword] at hzero
    have hle := residue_le (by omega : 0 < 65535) (words (mid ++ x :: y :: rest)).sum
    exact hudp ⟨hisUdp, (residue_eq_top_iff (by omega)).mp (by omega)⟩

end Completed

/-- **The checksum is completed** exactly when the field is outside the packet, or the words from
`csum_start` on fit in 32 bits and, for a UDP packet, do not sum to all ones by themselves. -/
theorem checksum_completed_iff (packet : Bytes) (csumStart csumOffset : U16)
    (heven : csumOffset.toNat % 2 = 0) :
    ChecksumCompleted packet csumStart csumOffset ↔
      packet.length < csumStart.toNat + csumOffset.toNat + 2 ∨
        (words (packet.drop csumStart.toNat)).sum < 2 ^ 32 ∧
          ¬ (IsUdp packet ∧ 0 < (words (packet.drop csumStart.toNat)).sum ∧
            65535 ∣ (words (packet.drop csumStart.toNat)).sum) := by
  by_cases hlen : packet.length < csumStart.toNat + csumOffset.toNat + 2
  · exact iff_of_true (Or.inl ⟨hlen, _, completeChecksum_outside hlen⟩) (Or.inl hlen)
  constructor
  · rintro (⟨h, -⟩ | ⟨completed, hcomplete, h⟩)
    · exact absurd h hlen
    · exact Or.inr (h.sum_of_inside heven hlen hcomplete)
  · rintro (h | ⟨hsum, hudp⟩)
    · exact absurd h hlen
    · exact Or.inr (completed_of_sum heven hlen hsum hudp)

/-- Five bytes, with the field in the second word. -/
theorem checksum_completed_odd : ChecksumCompleted [0x12, 0x34, 0x00, 0x11, 0x56] 0 2 :=
  (checksum_completed_iff _ 0 2 (by decide)).mpr
    (Or.inr ⟨by decide, fun h => absurd h.2.2 (by decide)⟩)

/-- A UDP packet from 10.0.0.1, port 4660, to 10.0.0.2, port 80, with the sum of its pseudo-header
in the checksum field and a payload with which everything sums to all ones. -/
def udpAllOnes : Bytes :=
  [0x45, 0x00, 0x00, 0x1e, 0x00, 0x00, 0x00, 0x00, 0x40, 0x11, 0x00, 0x00,
    0x0a, 0x00, 0x00, 0x01, 0x0a, 0x00, 0x00, 0x02,
    0x12, 0x34, 0x00, 0x50, 0x00, 0x0a, 0x14, 0x1e, 0xd9, 0x53]

/-- **Not so**: zero is written, by which the receiver takes the packet to have no checksum. -/
theorem udp_zero_written :
    ¬ ∀ (packet : Bytes) (csumStart csumOffset : U16), csumOffset.toNat % 2 = 0 →
      ChecksumCompleted packet csumStart csumOffset := by
  intro hall
  have hudp : IsUdp udpAllOnes := ⟨⟨udp, _, _, _, _⟩, rfl, rfl⟩
  rcases hall udpAllOnes 20 6 (by decide) with ⟨houtside, -⟩ | ⟨completed, hcomplete, h⟩
  · exact absurd houtside (by decide)
  · exact (h.sum_of_inside (by decide) (by decide) hcomplete).2 ⟨hudp, by decide, by decide⟩

end Molehill.Transparent
