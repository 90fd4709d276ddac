/-
# A frame reader run again and again over a cut stream

The stream arrives in pieces of any size.  The consumer polls its reader with what has arrived and,
when the reader is done, notes the result and starts a fresh one; a poll that waits keeps what it
took in its future.

`Frames.read_all`: where the reader reads one frame back and leaves what is behind it, the results
of every run are those of the first frames, in order, and what is left is the other frames; when
nothing is left to arrive, all of them have been read.

`Reader.Agrees` says that two readers take the same bytes to results that correspond.

Nothing here is about any particular program.
-/
import Mathlib.Data.List.Basic
import Molehill.Lib.SelectLoop

universe u v

namespace Lib

/-! ## 1. Readers that agree -/

/-- Whatever has arrived, `q` comes to a result where `r` comes to what `f` makes of it, and each
fails, or waits for as many bytes, where the other does. -/
def Reader.Agrees {α : Type u} {β : Type v} (f : β → α) (r : Reader α) (q : Reader β) : Prop :=
  ∀ bs, match q.poll bs with
    | (.done b, rest) => r.poll bs = (.done (f b), rest)
    | (.fail, rest) => r.poll bs = (.fail, rest)
    | (.exact n _, rest) => ∃ k, r.poll bs = (.exact n k, rest)

namespace Reader.Agrees

variable {α : Type u} {β : Type v} {f : β → α}

theorem done (b : β) : Agrees f (.done (f b)) (.done b) := fun _ => rfl

theorem fail : Agrees f .fail .fail := fun _ => rfl

theorem exact {n : Nat} {k : Bytes → Reader α} {k' : Bytes → Reader β}
    (h : ∀ buf : Bytes, buf.length = n → Agrees f (k buf) (k' buf)) :
    Agrees f (.exact n k) (.exact n k') := by
  intro bs
  by_cases hlt : bs.length < n
  · rw [Reader.poll_exact_lt k' hlt]
    exact ⟨_, Reader.poll_exact_lt k hlt⟩
  · have hlen : (bs.take n).length = n := List.length_take_of_le (by omega)
    have hagrees := h _ hlen (bs.drop n)
    rw [Reader.poll, if_neg hlt, Reader.poll, if_neg hlt]
    exact hagrees

end Reader.Agrees

/-! ## 2. A stream of frames -/

/-- Frames of values `α`, and the reader that makes a `β` of each. -/
structure Frames (α : Type u) (β : Type v) where
  reader : Reader β
  frame : α → Bytes
  shows : α → β

namespace Frames

variable {α : Type u} {β : Type v}

/-- The consumer and the stream. -/
structure State (β : Type v) where
  future : Reader β
  /-- What the future has taken so far. -/
  got : Bytes
  /-- At the consumer, and on the wire. -/
  arrived : Bytes
  wire : Bytes
  out : List β
  failed : Bool

inductive Event
  | deliver (n : Nat)
  | poll
  deriving DecidableEq

variable (F : Frames α β)

def start (input : Bytes) : State β where
  future := F.reader
  got := []
  arrived := []
  wire := input
  out := []
  failed := false

def polled (s : State β) : State β :=
  match s.future.poll s.arrived with
  | (.done b, rest) =>
    { s with future := F.reader, got := [], arrived := rest, out := s.out ++ [b] }
  | (.fail, rest) => { s with arrived := rest, failed := true }
  | (r, rest) => { s with future := r, got := s.got ++ s.arrived, arrived := rest }

def step (s : State β) : Event → Option (State β)
  | .deliver n => some { s with arrived := s.arrived ++ s.wire.take n, wire := s.wire.drop n }
  | .poll => if s.failed then none else some (F.polled s)

/-- The runs over one input. -/
def lts (input : Bytes) : Lts (State β) Event where
  init s := s = F.start input
  step s e s' := F.step s e = some s'

/-- The reader waits for a frame and reads one back, leaving what is behind it. -/
structure Reads (ok : α → Prop) : Prop where
  waits : F.reader.Waiting
  reads : ∀ a, ok a → ∀ rest, F.reader.poll (F.frame a ++ rest) = (.done (F.shows a), rest)

/-- The invariant: `l` are the frames not yet read, and the future is where the bytes it has taken
bring a fresh read. -/
structure Synced (all l : List α) (s : State β) : Prop where
  out : s.out ++ l.map F.shows = all.map F.shows
  failed : s.failed = false
  unread : s.got ++ s.arrived ++ s.wire = l.flatMap F.frame
  waiting : s.future.Waiting
  resumes : ∀ more, s.future.poll more = F.reader.poll (s.got ++ more)

variable {F} {ok : α → Prop} {all l : List α} {s s' : State β}

theorem Synced.start (hF : F.Reads ok) : F.Synced all all (F.start (all.flatMap F.frame)) where
  out := rfl
  failed := rfl
  unread := rfl
  waiting := hF.waits
  resumes := fun _ => rfl

/-- A poll that ends has read the next frame. -/
theorem Synced.ended (hF : F.Reads ok) (h : F.Synced all l s) (hok : ∀ a ∈ l, ok a)
    {r : Reader β} {rest : Bytes} (hr : s.future.poll s.arrived = (r, rest)) (hw : ¬ r.Waiting) :
    ∃ a l', l = a :: l' ∧ r = .done (F.shows a) ∧ rest ++ s.wire = l'.flatMap F.frame := by
  rw [h.resumes] at hr
  have hall := Reader.poll_append hr hw s.wire
  rw [h.unread] at hall
  cases l with
  | nil =>
    have hwait := hF.waits.poll_nil
    have hnil : ([] : List α).flatMap F.frame = [] := rfl
    rw [← hnil, hall] at hwait
    exact absurd hwait hw
  | cons a l =>
    rw [List.flatMap_cons, hF.reads a (hok a List.mem_cons_self)] at hall
    obtain ⟨ha, hrest⟩ := Prod.mk.injEq .. ▸ hall
    exact ⟨a, l, rfl, ha.symm, hrest.symm⟩

theorem Synced.polled (hF : F.Reads ok) (h : F.Synced all l s) (hok : ∀ a ∈ l, ok a) :
    ∃ l', F.Synced all l' (F.polled s) ∧ ∀ a ∈ l', ok a := by
  obtain ⟨b, rest, hr⟩ | ⟨rest, hr⟩ | ⟨r, hr, hw⟩ := s.future.poll_cases s.arrived
  · obtain ⟨a, l', rfl, hb, hrest⟩ := h.ended hF hok hr (by exact id)
    cases hb
    refine ⟨l', ?_, fun a' ha' => hok a' (List.mem_cons_of_mem _ ha')⟩
    rw [Frames.polled, hr]
    exact
      { out := by
          rw [List.append_assoc]
          exact h.out
        failed := h.failed
        unread := hrest
        waiting := hF.waits
        resumes := fun _ => rfl }
  · obtain ⟨a, l', -, hb, -⟩ := h.ended hF hok hr (by exact id)
    cases hb
  · have hstep : F.polled s = { s with future := r, got := s.got ++ s.arrived, arrived := [] } := by
      rw [Frames.polled, hr]
      cases r with
      | done b => exact hw.elim
      | fail => exact hw.elim
      | exact n k => rfl
    rw [h.resumes] at hr
    rw [hstep]
    refine ⟨l, ?_, hok⟩
    exact
      { h with
        unread := by
          rw [← h.unread]
          simp only [List.append_nil]
        waiting := hw
        resumes := Reader.poll_poll hr hw }

theorem Synced.step (hF : F.Reads ok) (h : F.Synced all l s) (hok : ∀ a ∈ l, ok a) {e : Event}
    (hs : F.step s e = some s') : ∃ l', F.Synced all l' s' ∧ ∀ a ∈ l', ok a := by
  cases e with
  | deliver n =>
    cases hs
    refine ⟨l, ?_, hok⟩
    exact
      { h with
        unread := by
          rw [← h.unread]
          simp only [List.append_assoc]
          rw [List.take_append_drop] }
  | poll =>
    simp only [Frames.step] at hs
    split at hs
    case isTrue => cases hs
    case isFalse =>
      cases hs
      exact h.polled hF hok

/-- Drained, a consumer in step has read everything: what is left would be a whole frame that its
future has taken and not returned. -/
theorem Synced.drained (hF : F.Reads ok) (h : F.Synced all l s) (hok : ∀ a ∈ l, ok a)
    (harrived : s.arrived = []) (hwire : s.wire = []) : l = [] := by
  cases l with
  | nil => rfl
  | cons a l =>
    have hgot : s.got ++ [] = F.frame a ++ l.flatMap F.frame := by
      have hall := h.unread
      rw [harrived, hwire, List.append_nil, List.flatMap_cons] at hall
      exact hall
    have hwait := h.waiting.poll_nil
    rw [h.resumes, hgot, hF.reads a (hok a List.mem_cons_self)] at hwait
    exact hwait.elim

/-- **Every cut gives the frames.** -/
theorem read_all (hF : F.Reads ok) (hok : ∀ a ∈ all, ok a)
    (h : (F.lts (all.flatMap F.frame)).Reach s) :
    ∃ l : List α, s.out ++ l.map F.shows = all.map F.shows ∧ s.failed = false ∧
      s.got ++ s.arrived ++ s.wire = l.flatMap F.frame ∧
      (s.arrived = [] → s.wire = [] → s.out = all.map F.shows) := by
  have hsync : ∃ l, F.Synced all l s ∧ ∀ a ∈ l, ok a := by
    refine Lts.Reach.invariant (P := fun s => ∃ l, F.Synced all l s ∧ ∀ a ∈ l, ok a) ?_ ?_ h
    · rintro s rfl
      exact ⟨all, Synced.start hF, hok⟩
    · rintro s e s' ⟨l, hl, hokl⟩ hs
      exact hl.step hF hokl hs
  obtain ⟨l, hl, hokl⟩ := hsync
  refine ⟨l, hl.out, hl.failed, hl.unread, fun harrived hwire => ?_⟩
  have hnil := hl.drained hF hokl harrived hwire
  rw [← hl.out, hnil, List.map_nil, List.append_nil]

end Frames

end Lib
