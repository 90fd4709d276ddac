/-
# Framed reads inside a select loop

A frame reader is a chain of exact reads: ask for so many bytes, look at them, go on.  Its future
is polled with whatever has arrived; what it takes is in the future, not in the stream, so that
dropping the future between two polls drops those bytes.

This module has the reader as a program (`Reader`), what one poll does (`Reader.poll`, with the
laws that make it independent of how the bytes are cut into chunks), and the loop around it: the
peer writes frames in two parts, the transport delivers any number of bytes at a time, the loop
polls, and another arm of the loop's select may be taken at any time, which starts a fresh read.

* `SelectLoop.Readable`: the frames in flight can be read one after the other;
* `SelectLoop.read_in_order`: if no arm is taken while the read holds part of a frame, the loop
  reads exactly the frames that were sent, in order, and does not fail.

Nothing here is about any particular program.
-/
import Mathlib.Data.List.Basic
import Molehill.Lib.Bytes
import Molehill.Lib.Transition

universe u v

namespace Lib

/-! ## 1. Readers -/

/-- A read in progress: done, failed, or waiting for exactly `n` bytes. -/
inductive Reader (α : Type u)
  | done (a : α)
  | fail
  | exact (n : Nat) (k : Bytes → Reader α)

namespace Reader

variable {α : Type u}

/-- One poll: the reader takes what it needs from the bytes that have arrived; the rest stays. -/
def poll : Reader α → Bytes → Reader α × Bytes
  | done a, bs => (done a, bs)
  | fail, bs => (fail, bs)
  | exact n k, bs =>
    if bs.length < n then (exact (n - bs.length) fun more => k (bs ++ more), [])
    else (k (bs.take n)).poll (bs.drop n)

/-- The read waits for at least one byte. -/
def Waiting : Reader α → Prop
  | exact n _ => 0 < n
  | _ => False

@[simp] theorem poll_done (a : α) (bs : Bytes) : (done a).poll bs = (done a, bs) := rfl

@[simp] theorem poll_fail (bs : Bytes) : (fail : Reader α).poll bs = (fail, bs) := rfl

theorem poll_exact_lt {n : Nat} {bs : Bytes} (k : Bytes → Reader α) (h : bs.length < n) :
    (exact n k).poll bs = (exact (n - bs.length) fun more => k (bs ++ more), []) := by
  rw [poll, if_pos h]

theorem poll_exact_append {n : Nat} {bs rest : Bytes} (k : Bytes → Reader α)
    (h : bs.length = n) : (exact n k).poll (bs ++ rest) = (k bs).poll rest := by
  rw [poll, if_neg (by rw [List.length_append]; omega), List.take_left' h, List.drop_left' h]

/-- A read that came to its result took its bytes first. -/
theorem poll_exact_done {n : Nat} {k : Bytes → Reader α} {bs rest : Bytes} {a : α}
    (h : (exact n k).poll bs = (done a, rest)) :
    ∃ buf tail, bs = buf ++ tail ∧ buf.length = n ∧ (k buf).poll tail = (done a, rest) := by
  rw [poll] at h
  split at h
  case isTrue => cases h
  case isFalse hle =>
    exact ⟨bs.take n, bs.drop n, (List.take_append_drop n bs).symm,
      List.length_take_of_le (by omega), h⟩

/-- A poll ends with a result or an error, or it took everything and waits for more. -/
theorem poll_cases (r : Reader α) (bs : Bytes) :
    (∃ a rest, r.poll bs = (done a, rest)) ∨ (∃ rest, r.poll bs = (fail, rest)) ∨
      ∃ r', r.poll bs = (r', []) ∧ r'.Waiting := by
  induction r generalizing bs with
  | done a => exact Or.inl ⟨a, bs, rfl⟩
  | fail => exact Or.inr (Or.inl ⟨bs, rfl⟩)
  | exact n k ih =>
    by_cases h : bs.length < n
    · rw [poll_exact_lt k h]
      refine Or.inr (Or.inr ⟨_, rfl, ?_⟩)
      change 0 < n - bs.length
      omega
    · rw [poll, if_neg h]
      exact ih (bs.take n) (bs.drop n)

/-- A poll that came to an end comes to the same one when more has arrived. -/
theorem poll_append {r r' : Reader α} {bs rest : Bytes} (h : r.poll bs = (r', rest))
    (hw : ¬ r'.Waiting) (more : Bytes) : r.poll (bs ++ more) = (r', rest ++ more) := by
  induction r generalizing bs with
  | done b =>
    cases h
    rfl
  | fail =>
    cases h
    rfl
  | exact n k ih =>
    by_cases hlt : bs.length < n
    · rw [poll_exact_lt k hlt] at h
      cases h
      exact absurd (Nat.sub_pos_of_lt hlt) hw
    · have hle : n ≤ bs.length := by omega
      rw [poll, if_neg hlt] at h
      rw [poll, if_neg (by rw [List.length_append]; omega), List.take_append_of_le_length hle,
        List.drop_append_of_le_length hle]
      exact ih _ h

/-- **Chunks do not matter.**  A read that waits after some bytes goes on from there as the whole
read goes on all of them. -/
theorem poll_poll {r r' : Reader α} {bs : Bytes} (h : r.poll bs = (r', [])) (hw : r'.Waiting)
    (more : Bytes) : r'.poll more = r.poll (bs ++ more) := by
  induction r generalizing bs with
  | done b =>
    cases h
    exact hw.elim
  | fail =>
    cases h
    exact hw.elim
  | exact n k ih =>
    by_cases hlt : bs.length < n
    · rw [poll_exact_lt k hlt] at h
      cases h
      rw [poll, poll, List.length_append]
      by_cases hm : more.length < n - bs.length
      · rw [if_pos hm, if_pos (by omega)]
        simp only [List.append_assoc, Nat.sub_sub]
      · rw [if_neg hm, if_neg (by omega), List.take_append, List.drop_append,
          List.take_of_length_le (by omega : bs.length ≤ n),
          List.drop_of_length_le (by omega : bs.length ≤ n), List.nil_append]
    · have hle : n ≤ bs.length := by omega
      rw [poll, if_neg hlt] at h
      rw [ih _ h, poll, if_neg (by rw [List.length_append]; omega),
        List.take_append_of_le_length hle, List.drop_append_of_le_length hle]

/-- A read that waits does so again when nothing has arrived. -/
theorem Waiting.poll_nil {r : Reader α} (h : r.Waiting) : (r.poll []).1.Waiting := by
  cases r with
  | done a => exact h
  | fail => exact h
  | exact n k =>
    have hn : ([] : Bytes).length < n := h
    rw [poll_exact_lt k hn]
    exact h

theorem poll_nil_rest (r : Reader α) : (r.poll []).2 = [] := by
  induction r with
  | done a => rfl
  | fail => rfl
  | exact n k ih =>
    rw [poll]
    split
    · rfl
    · rw [List.take_nil, List.drop_nil]
      exact ih []

/-- A read that waits takes the next byte. -/
theorem Waiting.poll_singleton {r : Reader α} (h : r.Waiting) (b : Byte) :
    (r.poll [b]).2 = [] := by
  cases r with
  | done a => exact h.elim
  | fail => exact h.elim
  | exact n k =>
    have hn : 0 < n := h
    rw [poll]
    split
    · rfl
    · have hdrop : [b].drop n = [] := List.drop_of_length_le hn
      rw [hdrop]
      exact poll_nil_rest _

/-- Choose the reader by the next byte, which it then reads itself. -/
def peek (choose : Byte → Reader α) : Reader α :=
  exact 1 fun bs => ((choose (bs.headD 0)).poll bs).1

theorem poll_peek {choose : Byte → Reader α} {b : Byte} (hw : (choose b).Waiting) (rest : Bytes) :
    (peek choose).poll (b :: rest) = (choose b).poll (b :: rest) := by
  have htake : (peek choose).poll (b :: rest) = ((choose b).poll [b]).1.poll rest := by
    have hlen : ([b] : Bytes).length = 1 := rfl
    rw [peek, ← List.singleton_append, poll_exact_append _ hlen]
    rfl
  have hnone := hw.poll_singleton b
  rw [htake]
  obtain ⟨a, left, h⟩ | ⟨left, h⟩ | ⟨r, h, hr⟩ := (choose b).poll_cases [b]
  · rw [h] at hnone ⊢
    cases hnone
    exact (poll_append h (by exact id) rest).symm
  · rw [h] at hnone ⊢
    cases hnone
    exact (poll_append h (by exact id) rest).symm
  · rw [h]
    exact poll_poll h hr rest

end Reader

/-! ## 2. The loop -/

/-- What the loop reads and how: `M` are its modes, `α` the frames, `A` the other arms of its
select. -/
structure SelectLoop (M : Type v) (α : Type u) (A : Type*) where
  first : M
  /-- The two parts a frame is written in. -/
  head : α → Bytes
  tail : α → Bytes
  reader : M → Reader α
  /-- The mode after a frame was handled; none if that ends the loop. -/
  after : M → α → Option M
  /-- The mode another arm leaves the loop in; none where the loop is not at its select. -/
  arm : M → A → Option M
  /-- The peer may send this frame, given the arms taken and the frames sent so far. -/
  sends : List A → List α → α → Bool

namespace SelectLoop

variable {M : Type v} {α : Type u} {A : Type*}

/-- A loop, its peer and the transport between them. -/
structure State (M : Type v) (α : Type u) (A : Type*) where
  mode : M
  future : Reader α
  /-- What the future has taken so far. -/
  got : Bytes
  /-- At the reader, on the wire, and still to be written. -/
  arrived : Bytes
  wire : Bytes
  unwritten : Bytes
  armed : List A
  sent : List α
  decoded : List α
  running : Bool

inductive Event (α : Type u) (A : Type*)
  | send (a : α)
  | write
  | deliver (n : Nat)
  | poll
  | other (x : A)

variable (L : SelectLoop M α A)

/-- A frame on the wire. -/
def frame (a : α) : Bytes := L.head a ++ L.tail a

def start : State M α A where
  mode := L.first
  future := L.reader L.first
  got := []
  arrived := []
  wire := []
  unwritten := []
  armed := []
  sent := []
  decoded := []
  running := true

/-- The read arm is polled. -/
def polled (s : State M α A) : State M α A :=
  match s.future.poll s.arrived with
  | (.done a, rest) =>
    match L.after s.mode a with
    | some m =>
      { s with
        decoded := s.decoded ++ [a], mode := m, future := L.reader m, got := [], arrived := rest }
    | none => { s with decoded := s.decoded ++ [a], arrived := rest, running := false }
  | (.fail, rest) => { s with arrived := rest, running := false }
  | (r, rest) => { s with future := r, got := s.got ++ s.arrived, arrived := rest }

/-- A step: taking another arm drops the read and starts a new one. -/
def step (s : State M α A) : Event α A → Option (State M α A)
  | .send a =>
    if s.unwritten = [] ∧ L.sends s.armed s.sent a = true then
      some { s with wire := s.wire ++ L.head a, unwritten := L.tail a, sent := s.sent ++ [a] }
    else none
  | .write => some { s with wire := s.wire ++ s.unwritten, unwritten := [] }
  | .deliver n => some { s with arrived := s.arrived ++ s.wire.take n, wire := s.wire.drop n }
  | .poll => if s.running then some (L.polled s) else none
  | .other x =>
    if s.running then
      (L.arm s.mode x).map fun m =>
        { s with mode := m, future := L.reader m, got := [], armed := s.armed ++ [x] }
    else none

def lts : Lts (State M α A) (Event α A) where
  init s := s = L.start
  step s e s' := L.step s e = some s'

/-- Everything sent has been handed to the reader. -/
def Drained (s : State M α A) : Prop := s.unwritten = [] ∧ s.wire = [] ∧ s.arrived = []

/-- The loop reads what was sent: in order, without failing, and all of it once it has arrived. -/
def ReadsInOrder (s : State M α A) : Prop :=
  s.running = true ∧ s.decoded <+: s.sent ∧ (Drained s → s.decoded = s.sent)

/-- No other arm is taken while the read holds part of a frame. -/
def Uncut (s : State M α A) : Event α A → Prop
  | .other _ => s.got = []
  | _ => True

/-! ## 3. What makes the frames readable -/

/-- `Good mode arms decoded inFlight` is an invariant under which the frame the loop reads next is
one its mode can read. -/
structure Readable (Good : M → List A → List α → List α → Prop) : Prop where
  first : Good L.first [] [] []
  waits : ∀ m, (L.reader m).Waiting
  sends : ∀ m as ds l a, Good m as ds l → L.sends as (ds ++ l) a = true → Good m as ds (l ++ [a])
  arm : ∀ m as ds l x m', Good m as ds l → L.arm m x = some m' → Good m' (as ++ [x]) ds l
  read : ∀ m as ds a l, Good m as ds (a :: l) →
    (∀ rest, (L.reader m).poll (L.frame a ++ rest) = (.done a, rest)) ∧
      ∃ m', L.after m a = some m' ∧ Good m' as (ds ++ [a]) l

/-- The bytes the reader has yet to make a frame of. -/
def State.unread (s : State M α A) : Bytes := s.got ++ s.arrived ++ s.wire ++ s.unwritten

/-- The invariant: the unread bytes are the frames in flight, and the future is where the bytes
it has taken bring a fresh read. -/
structure Synced (Good : M → List A → List α → List α → Prop) (s : State M α A)
    (l : List α) : Prop where
  running : s.running = true
  sent : s.sent = s.decoded ++ l
  good : Good s.mode s.armed s.decoded l
  unread : s.unread = l.flatMap L.frame
  waiting : s.future.Waiting
  resumes : ∀ more, s.future.poll more = (L.reader s.mode).poll (s.got ++ more)

variable {L} {Good : M → List A → List α → List α → Prop} {s s' : State M α A} {l : List α}

theorem Synced.start (hL : L.Readable Good) : L.Synced Good L.start [] where
  running := rfl
  sent := rfl
  good := hL.first
  unread := rfl
  waiting := hL.waits L.first
  resumes := fun _ => rfl

/-- The next frame in flight is what a fresh read of everything unread gives. -/
theorem Synced.next (hL : L.Readable Good) {a : α} (h : L.Synced Good s (a :: l)) :
    (L.reader s.mode).poll s.unread = (.done a, l.flatMap L.frame) := by
  rw [h.unread, List.flatMap_cons]
  exact (hL.read _ _ _ _ _ h.good).1 _

/-- A poll that ends has read the next frame in flight, and leaves what follows it. -/
theorem Synced.ended (hL : L.Readable Good) (h : L.Synced Good s l) {r : Reader α} {rest : Bytes}
    (hr : s.future.poll s.arrived = (r, rest)) (hw : ¬ r.Waiting) :
    ∃ a l', l = a :: l' ∧ r = .done a ∧ rest ++ (s.wire ++ s.unwritten) = l'.flatMap L.frame := by
  have hsplit : s.unread = s.got ++ s.arrived ++ (s.wire ++ s.unwritten) := by
    rw [State.unread, List.append_assoc (s.got ++ s.arrived)]
  rw [h.resumes] at hr
  have hall := Reader.poll_append hr hw (s.wire ++ s.unwritten)
  rw [← hsplit] at hall
  cases l with
  | nil =>
    -- nothing is in flight, so a fresh read still waits
    have hnil : s.unread = [] := h.unread
    have hwait := (hL.waits s.mode).poll_nil
    rw [← hnil, hall] at hwait
    exact absurd hwait hw
  | cons a l =>
    rw [h.next hL] at hall
    obtain ⟨ha, hrest⟩ := Prod.mk.injEq .. ▸ hall
    exact ⟨a, l, rfl, ha.symm, hrest.symm⟩

/-- A poll reads the next frame, or takes part of it. -/
theorem Synced.polled (hL : L.Readable Good) (h : L.Synced Good s l) :
    ∃ l', L.Synced Good (L.polled s) l' := by
  obtain ⟨a, rest, hr⟩ | ⟨rest, hr⟩ | ⟨r, hr, hw⟩ := s.future.poll_cases s.arrived
  · obtain ⟨b, l', rfl, hb, hrest⟩ := h.ended hL hr (by exact id)
    cases hb
    obtain ⟨-, m, hm, hgood⟩ := hL.read _ _ _ _ _ h.good
    refine ⟨l', ?_⟩
    rw [SelectLoop.polled, hr]
    simp only [hm]
    exact
      { running := h.running
        sent := by rw [h.sent, List.append_assoc, List.singleton_append]
        good := hgood
        unread := by
          rw [State.unread, List.nil_append, List.append_assoc]
          exact hrest
        waiting := hL.waits m
        resumes := fun _ => rfl }
  · obtain ⟨b, l', -, hb, -⟩ := h.ended hL hr (by exact id)
    cases hb
  · have hstep : L.polled s =
        { s with future := r, got := s.got ++ s.arrived, arrived := [] } := by
      rw [SelectLoop.polled, hr]
      cases r with
      | done a => exact hw.elim
      | fail => exact hw.elim
      | exact n k => rfl
    rw [h.resumes] at hr
    rw [hstep]
    exact ⟨l,
      { h with
        unread := by
          rw [← h.unread]
          simp only [State.unread, List.append_nil]
        waiting := hw
        resumes := Reader.poll_poll hr hw }⟩

/-- Every step that does not cut a read keeps the loop in step with the stream. -/
theorem Synced.step (hL : L.Readable Good) (h : L.Synced Good s l) {e : Event α A}
    (hc : Uncut s e) (hs : L.step s e = some s') : ∃ l', L.Synced Good s' l' := by
  cases e with
  | send a =>
    simp only [SelectLoop.step] at hs
    split at hs
    case isFalse => cases hs
    case isTrue hsend =>
      cases hs
      obtain ⟨hun, hok⟩ := hsend
      rw [h.sent] at hok
      refine ⟨l ++ [a], ?_⟩
      exact
        { h with
          sent := by rw [h.sent, List.append_assoc]
          good := hL.sends _ _ _ _ _ h.good hok
          unread := by
            rw [List.flatMap_append, List.flatMap_singleton, ← h.unread, State.unread,
              State.unread, hun, SelectLoop.frame]
            simp only [List.append_assoc, List.append_nil] }
  | write =>
    cases hs
    refine ⟨l, ?_⟩
    exact
      { h with
        unread := by
          rw [← h.unread]
          simp only [State.unread, List.append_assoc, List.append_nil] }
  | deliver n =>
    cases hs
    refine ⟨l, ?_⟩
    exact
      { h with
        unread := by
          rw [← h.unread]
          simp only [State.unread, List.append_assoc]
          rw [← List.append_assoc (s.wire.take n), List.take_append_drop] }
  | poll =>
    simp only [SelectLoop.step] at hs
    split at hs
    case isFalse => cases hs
    case isTrue =>
      cases hs
      exact h.polled hL
  | other x =>
    simp only [SelectLoop.step] at hs
    split at hs
    case isFalse => cases hs
    case isTrue =>
      obtain ⟨m, hm, rfl⟩ := Option.map_eq_some_iff.mp hs
      have hgot : s.got = [] := hc
      refine ⟨l, ?_⟩
      exact
        { h with
          good := hL.arm _ _ _ _ _ _ h.good hm
          unread := by
            rw [← h.unread, State.unread, State.unread, hgot]
          waiting := hL.waits m
          resumes := fun _ => rfl }

/-- In step with the stream, the loop has read a part of what was sent, and all of it once it is
drained: what is left would be a whole frame the read has taken and not returned. -/
theorem Synced.readsInOrder (hL : L.Readable Good) (h : L.Synced Good s l) : ReadsInOrder s := by
  refine ⟨h.running, ⟨l, h.sent.symm⟩, ?_⟩
  rintro ⟨hun, hwire, harr⟩
  cases l with
  | nil => rw [h.sent, List.append_nil]
  | cons a l =>
    have hgot : s.unread = s.got ++ [] := by
      rw [State.unread, hun, hwire, harr]
      simp only [List.append_nil]
    have hdone := h.next hL
    rw [hgot, ← h.resumes] at hdone
    have hwait := h.waiting.poll_nil
    rw [hdone] at hwait
    exact hwait.elim

/-- **What is sent is what is read**, for every chunking and every order of the loop's arms, as
long as no arm cuts a read. -/
theorem read_in_order (hL : L.Readable Good) (h : (L.lts.restrict Uncut).Reach s) :
    ReadsInOrder s := by
  have hsync : ∃ l, L.Synced Good s l := by
    refine h.invariant (P := fun s => ∃ l, L.Synced Good s l) ?_ ?_
    · rintro s rfl
      exact ⟨[], Synced.start hL⟩
    · rintro s e s' ⟨l, hl⟩ ⟨hc, hs⟩
      exact hl.step hL hc hs
  obtain ⟨l, hl⟩ := hsync
  exact hl.readsInOrder hL

end SelectLoop

end Lib
