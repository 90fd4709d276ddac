/-
# Absolute segment numbers

A sender numbers its segments once and for all.  `L`, the list of the payloads in the order
they were numbered, is the history behind the wire's 32-bit numbers: `Numbered L s i` says that
the segment `s` is the `i`-th one, under the name `i mod 2^32` and with the `i`-th payload.
`NumberedIn L lo hi segs` says that `segs` are numbered strictly increasingly, from `lo` on and
below `hi`.  Both buffers of a connection are such lists, the sender's below the next number and
the receiver's inside its window; this module has what the two proofs need of them.
-/
import Molehill.Kcp.Frame

namespace Molehill

open Lib

/-- `s` is the `i`-th numbered segment, as one unfragmented message. -/
def Numbered (L : List Bytes) (s : KcpSegment) (i : Nat) : Prop :=
  s.sn = BitVec.ofNat 32 i ∧ L[i]? = some s.data ∧ s.frg = 0

/-- `segs` are numbered strictly increasingly within `[lo, hi)`. -/
def NumberedIn (L : List Bytes) : Nat → Nat → List KcpSegment → Prop
  | _, _, [] => True
  | lo, hi, s :: rest => ∃ i, lo ≤ i ∧ i < hi ∧ Numbered L s i ∧ NumberedIn L (i + 1) hi rest

variable {L L' : List Bytes} {s t : KcpSegment} {i lo lo' hi hi' : Nat}

theorem Numbered.lt (h : Numbered L s i) : i < L.length := by
  obtain ⟨hi, -⟩ := List.getElem?_eq_some_iff.mp h.2.1
  exact hi

/-- The history only grows at its end. -/
theorem Numbered.mono (h : Numbered L s i) (hL : L <+: L') : Numbered L' s i := by
  obtain ⟨r, rfl⟩ := hL
  refine ⟨h.1, ?_, h.2.2⟩
  rw [List.getElem?_append_left h.lt]
  exact h.2.1

namespace NumberedIn

theorem mono_lo (hlo : lo' ≤ lo) :
    ∀ {segs : List KcpSegment}, NumberedIn L lo hi segs → NumberedIn L lo' hi segs
  | [], _ => trivial
  | _ :: _, ⟨i, h1, h2⟩ => ⟨i, by omega, h2⟩

theorem mono (hL : L <+: L') (hhi : hi ≤ hi') :
    ∀ {segs : List KcpSegment} {lo : Nat}, NumberedIn L lo hi segs → NumberedIn L' lo hi' segs
  | [], _, _ => trivial
  | _ :: _, _, ⟨i, h1, h2, h3, h4⟩ => ⟨i, h1, by omega, h3.mono hL, mono hL hhi h4⟩

/-- Every segment has a number in the range. -/
theorem exists_of_mem : ∀ {segs : List KcpSegment} {lo : Nat}, NumberedIn L lo hi segs →
    s ∈ segs → ∃ i, lo ≤ i ∧ i < hi ∧ Numbered L s i
  | t :: rest, lo, ⟨i, h1, h2, h3, h4⟩, hs => by
    rcases List.mem_cons.mp hs with rfl | hs
    · exact ⟨i, h1, h2, h3⟩
    · obtain ⟨j, g1, g2, g3⟩ := exists_of_mem h4 hs
      exact ⟨j, by omega, g2, g3⟩

/-- Dropping segments keeps the others numbered. -/
theorem sublist {segs segs' : List KcpSegment} (hsub : segs'.Sublist segs) :
    ∀ {lo : Nat}, NumberedIn L lo hi segs → NumberedIn L lo hi segs' := by
  induction hsub with
  | slnil => exact fun h => h
  | cons a _ ih =>
    rintro lo ⟨i, h1, -, -, h4⟩
    exact (ih h4).mono_lo (by omega)
  | cons_cons a _ ih =>
    rintro lo ⟨i, h1, h2, h3, h4⟩
    exact ⟨i, h1, h2, h3, ih h4⟩

/-- The numbering reads `sn`, `data` and `frg` only. -/
theorem congr {segs segs' : List KcpSegment}
    (h : segs.map (fun s => (s.sn, s.data, s.frg)) = segs'.map (fun s => (s.sn, s.data, s.frg))) :
    ∀ {lo : Nat}, NumberedIn L lo hi segs → NumberedIn L lo hi segs' := by
  induction segs generalizing segs' with
  | nil =>
    intro lo _
    rw [List.map_nil, eq_comm, List.map_eq_nil_iff] at h
    rw [h]
    trivial
  | cons a rest ih =>
    cases segs' with
    | nil => simp at h
    | cons b rest' =>
      rw [List.map_cons, List.map_cons, List.cons.injEq, Prod.mk.injEq, Prod.mk.injEq] at h
      obtain ⟨⟨h1, h2, h3⟩, ht⟩ := h
      rintro lo ⟨i, g1, g2, ⟨g3, g4, g5⟩, g6⟩
      exact ⟨i, g1, g2, ⟨h1 ▸ g3, h2 ▸ g4, h3 ▸ g5⟩, ih ht g6⟩

/-- The last segment splits the range. -/
theorem append_singleton : ∀ {segs : List KcpSegment} {lo : Nat},
    NumberedIn L lo hi (segs ++ [t]) ↔
      ∃ i, lo ≤ i ∧ i < hi ∧ Numbered L t i ∧ NumberedIn L lo i segs
  | [], lo => by
    constructor
    · rintro ⟨i, h1, h2, h3, -⟩; exact ⟨i, h1, h2, h3, trivial⟩
    · rintro ⟨i, h1, h2, h3, -⟩; exact ⟨i, h1, h2, h3, trivial⟩
  | a :: rest, lo => by
    constructor
    · rintro ⟨j, h1, h2, h3, h4⟩
      obtain ⟨i, g1, g2, g3, g4⟩ := append_singleton.mp h4
      exact ⟨i, by omega, g2, g3, j, h1, by omega, h3, g4⟩
    · rintro ⟨i, g1, g2, g3, j, h1, h2, h3, h4⟩
      exact ⟨j, h1, by omega, h3, append_singleton.mpr ⟨i, by omega, g2, g3, h4⟩⟩

end NumberedIn

end Molehill
