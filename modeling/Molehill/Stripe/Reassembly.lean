/-
# The receiving side of a group, against any peer

`Stripe/Tracking.lean` follows a group whose two ends are both this program's.  Here the peer is not
held to anything: bytes come in on every stripe as it likes, so the frames may carry any number, and
it ends each stripe where it likes.  Two things the source says of `recv_loop` fall short of that.

A stripe that is cut in the middle of a frame fails the transfer, whatever the order of the ends.  A
frame that never came does not: when the last stripe ends cleanly the loop returns success with the
frames behind the gap still in its map (`gap_drops_tail`), which `stripe_reader` means to rule out
("instead of waiting forever for a sequence number that will never arrive").  `gap_at_end`: the end
is an honest one exactly when every number below one that came has come as well.

`recv_loop` takes early frames off the queue as fast as they come, so the queue's capacity does not
bound what it holds (`skew_fills_map`).  `reorder_memory`: the stripes have to stay together, no
frame coming off the queue a group's width ahead of its turn; then the map has less than one frame
for each stripe.
-/
import Mathlib.Data.Finset.Card
import Mathlib.Data.Finset.Image
import Mathlib.Order.Interval.Finset.Nat
import Molehill.Stripe.RoundTrip

namespace Molehill.Stripe

open Lib Function

/-! ## 1. The receiving side alone -/

/-- A group whose send loop never starts, and the numbers of the frames that `recv_loop` took off
its queue in the present round of its counter. -/
structure Inbound (k : Nat) where
  group : Group k
  came : List U64

/-- The peer's bytes on a stripe, the end of its writing there, and the moves of the readers and of
the receive loop. -/
inductive InboundEvent (k : Nat)
  | arrive (i : Fin k) (bytes : Bytes)
  | finish (i : Fin k)
  | read (i : Fin k) (a : Group.ReadLabel)
  | recv (a : RecvLabel)

/-- What a move of the receive loop adds to the numbers that came; a new round starts afresh. -/
def RecvLoop.noted (r : RecvLoop) (came : List U64) : RecvLabel → List U64
  | .event =>
    match r.queue with
    | .frame seq _ :: _ => seq :: came
    | _ => came
  | .written => if r.next + 1 = 0 then [] else came
  | _ => came

namespace Inbound

variable {k : Nat}

def step (s : Inbound k) : InboundEvent k → Option (Inbound k)
  | .arrive i bytes =>
    if (s.group.stripes i).closed then none
    else some { s with group.stripes := s.group.put i bytes }
  | .finish i => some { s with group := s.group.closeStripe i }
  | .read i a => (s.group.readStep i a).map fun g => { s with group := g }
  | .recv a => (s.group.recvStep a).map fun g => ⟨g, s.group.recv.noted s.came a⟩

end Inbound

/-- **The receiving side.**  The stripes, their readers and the receive loop, in every
interleaving. -/
def inbound (k : Nat) : Lts (Inbound k) (InboundEvent k) where
  init s := s = ⟨Group.new k, []⟩
  step s e s' := s.step e = some s'

/-! ## 2. What a step does to the readers -/

/-- What the phases of the readers say: a clean end is the end of the stripe, a reader that stopped
has reported why, and success needs clean ends alone. -/
structure Ended {k : Nat} (g : Group k) : Prop where
  eof : ∀ i, (g.stripes i).reader = .eof → (g.stripes i).closed = true ∧ (g.stripes i).unread = []
  stopped : ∀ i, (g.stripes i).reader = .stopped →
    g.recvOver = true ∨ ∃ reason, StripeEvent.broken reason ∈ g.recv.queue
  done : g.recv.phase = .done → ∀ i, (g.stripes i).reader = .eof

namespace Ended

variable {k : Nat} {g g' : Group k}

theorem new : Ended (Group.new k) := ⟨nofun, nofun, nofun⟩

/-- One stripe changes, and the queue loses nothing. -/
theorem changed (h : Ended g) {i : Fin k} {c : Channel} {queue : List StripeEvent}
    (hc : c.reader = .eof → c.closed = true ∧ c.unread = [])
    (hstop : c.reader = .stopped → g.recvOver = true ∨ ∃ reason, .broken reason ∈ queue)
    (hq : ∀ e ∈ g.recv.queue, e ∈ queue) (hdone : g.recv.phase = .done → c.reader = .eof) :
    Ended { g with stripes := update g.stripes i c, recv.queue := queue } := by
  refine ⟨fun j hj => ?_, fun j hj => ?_, fun hd j => ?_⟩
  · rcases eq_or_ne j i with rfl | hji
    · simp only [update_self] at hj ⊢
      exact hc hj
    · simp only [update_of_ne hji] at hj ⊢
      exact h.eof j hj
  · rcases eq_or_ne j i with rfl | hji
    · simp only [update_self] at hj
      exact hstop hj
    · simp only [update_of_ne hji] at hj
      exact (h.stopped j hj).imp_right fun ⟨reason, hr⟩ => ⟨reason, hq _ hr⟩
  · rcases eq_or_ne j i with rfl | hji
    · simpa only [update_self] using hdone hd
    · simpa only [update_of_ne hji] using h.done hd j

/-- A reader goes on to a phase of its own, in which it neither ended nor stopped. -/
theorem moved (h : Ended g) {i : Fin k} {unread : Bytes} {reader : ReaderPhase}
    (hr : (g.stripes i).reader ≠ .eof) (heof : reader ≠ .eof) (hstop : reader ≠ .stopped) :
    Ended (g.setStripe i unread reader) :=
  h.changed (c := { g.stripes i with unread := unread, reader := reader })
    (fun hc => absurd hc heof) (fun hc => absurd hc hstop) (fun _ he => he)
    fun hd => absurd (h.done hd i) hr

/-- A reader stops once the loop has returned. -/
theorem gone (h : Ended g) {i : Fin k} (hover : g.recvOver = true)
    (hr : (g.stripes i).reader ≠ .eof) :
    Ended (g.setStripe i (g.stripes i).unread .stopped) :=
  h.changed (c := { g.stripes i with reader := .stopped }) nofun (fun _ => Or.inl hover)
    (fun _ he => he) fun hd => absurd (h.done hd i) hr

theorem put (h : Ended g) {i : Fin k} (hopen : (g.stripes i).closed ≠ true)
    (bytes : Bytes) : Ended { g with stripes := g.put i bytes } :=
  h.changed (fun hc => absurd (h.eof i hc).1 hopen) (h.stopped i) (fun _ he => he)
    fun hd => h.done hd i

theorem closeStripe (h : Ended g) (i : Fin k) : Ended (g.closeStripe i) :=
  h.changed (fun hc => ⟨rfl, (h.eof i hc).2⟩) (h.stopped i) (fun _ he => he) fun hd => h.done hd i

theorem push (h : Ended g) {i : Fin k} {ev : StripeEvent}
    (hr : (g.stripes i).reader = .holding ev) (hs : g.push i ev = some g') : Ended g' := by
  have hne : (g.stripes i).reader ≠ .eof := by simp [hr]
  rw [Group.push] at hs
  split at hs
  case isTrue hover =>
    cases hs
    exact h.gone hover hne
  case isFalse hover =>
    split at hs
    case isTrue =>
      cases hs
      refine h.changed ?_ ?_ (fun e he => List.mem_append_left _ he)
        fun hd => absurd (h.done hd i) hne
      · intro heof
        cases ev <;> cases heof
      · intro hstop
        cases ev with
        | frame seq bytes => cases hstop
        | broken reason =>
          exact Or.inr ⟨reason, List.mem_append_right _ (List.mem_singleton_self _)⟩
    case isFalse => cases hs

theorem endOfStripe (h : Ended g) {i : Fin k} (hr : (g.stripes i).reader = .reading)
    (hclosed : (g.stripes i).closed = true) : Ended (g.endOfStripe i) := by
  have hne : (g.stripes i).reader ≠ .eof := by rw [hr]; nofun
  rw [Group.endOfStripe]
  split
  case h_1 hend =>
    have hnil : (g.stripes i).unread = [] := by
      rw [readEnd] at hend
      split at hend
      case isTrue hlen => exact List.length_eq_zero_iff.mp hlen
      case isFalse => split at hend <;> cases hend
    exact h.changed (c := { g.stripes i with reader := .eof }) (fun _ => ⟨hclosed, hnil⟩) nofun
      (fun _ he => he) fun _ => rfl
  case h_2 => exact h.moved hne nofun nofun

theorem read (h : Ended g) {i : Fin k} {a : Group.ReadLabel} (hs : g.readStep i a = some g') :
    Ended g' := by
  cases a with
  | frame =>
    simp only [Group.readStep] at hs
    split at hs
    case h_1 hr _ =>
      cases hs
      exact h.moved (by simp [hr]) (fun he => by cases he) fun hstop => by cases hstop
    case h_2 => cases hs
  | push =>
    simp only [Group.readStep] at hs
    split at hs
    case h_1 hr => exact h.push hr hs
    case h_2 => cases hs
  | endOfStripe =>
    simp only [Group.readStep, Option.ite_none_right_eq_some, Option.some.injEq] at hs
    obtain ⟨⟨hr, hclosed, -⟩, rfl⟩ := hs
    exact h.endOfStripe hr hclosed
  | error stage e =>
    simp only [Group.readStep, Option.ite_none_right_eq_some, Option.some.injEq] at hs
    obtain ⟨hr, rfl⟩ := hs
    exact h.moved (by simp [hr]) (fun he => by cases he) fun hstop => by cases hstop
  | abort =>
    simp only [Group.readStep, Option.ite_none_right_eq_some, Option.some.injEq] at hs
    obtain ⟨⟨hover, hr⟩, rfl⟩ := hs
    exact h.gone hover hr

end Ended

/-! ## 3. What a turn of the receive loop does -/

/-- The turns of the receive loop, by what they do. -/
inductive RecvLoop.Turn (r : RecvLoop) : RecvLabel → RecvLoop → Prop
  | frame {seq : U64} {bytes : Bytes} {rest : List StripeEvent} : r.phase = .waiting →
    r.queue = .frame seq bytes :: rest → Turn r .event (r.frame rest seq bytes)
  | broken {reason : String} {rest : List StripeEvent} : r.phase = .waiting →
    r.queue = .broken reason :: rest → Turn r .event { r with queue := rest, phase := .failed }
  | write {n : Nat} {rest : Bytes} : r.phase = .writing rest → Turn r (.write n)
    { r with phase := .writing (rest.drop n), dest := r.dest ++ rest.take n }
  | next {e : U64 × Bytes} : r.phase = .writing [] → e ∈ r.pending → e.1 = r.next + 1 →
    Turn r .written { r with
      next := r.next + 1, pending := r.pending.filter fun e => e.1 ≠ r.next + 1,
      phase := .writing e.2 }
  | gap : r.phase = .writing [] → (∀ e ∈ r.pending, e.1 ≠ r.next + 1) →
    Turn r .written { r with next := r.next + 1, phase := .waiting }
  | failed {a : RecvLabel} : r.phase ≠ .done → r.phase ≠ .failed → a ≠ .event → a ≠ .written →
    a ≠ .close true → Turn r a { r with phase := .failed }
  | done : r.phase = .waiting → r.queue = [] → Turn r (.close true) { r with phase := .done }

/-- The step of the receive loop is one of its turns. -/
theorem turn_of_step {k : Nat} {g g' : Group k} {a : RecvLabel} (hs : g.recvStep a = some g') :
    g.recv.Turn a g'.recv := by
  cases a with
  | event =>
    simp only [Group.recvStep, Option.map_eq_some_iff] at hs
    obtain ⟨r, hr, rfl⟩ := hs
    simp only [RecvLoop.event] at hr
    split at hr
    case h_1 hphase hq =>
      cases hr
      exact .frame hphase hq
    case h_2 hphase hq =>
      cases hr
      exact .broken hphase hq
    case h_3 => cases hr
  | write n =>
    simp only [Group.recvStep, Option.map_eq_some_iff] at hs
    obtain ⟨r, hr, rfl⟩ := hs
    simp only [RecvLoop.write] at hr
    split at hr
    case h_1 hphase =>
      simp only [Option.ite_none_right_eq_some, Option.some.injEq] at hr
      obtain ⟨-, rfl⟩ := hr
      exact .write hphase
    case h_2 => cases hr
  | written =>
    simp only [Group.recvStep, Option.map_eq_some_iff] at hs
    obtain ⟨r, hr, rfl⟩ := hs
    simp only [RecvLoop.written, Option.ite_none_right_eq_some] at hr
    obtain ⟨hphase, hr⟩ := hr
    split at hr
    case h_1 e he =>
      cases hr
      exact .next hphase (List.mem_of_find?_eq_some he) (by simpa using List.find?_some he)
    case h_2 he =>
      cases hr
      exact .gap hphase fun e hm => by simpa using List.find?_eq_none.mp he e hm
  | writeError =>
    simp only [Group.recvStep] at hs
    split at hs
    case h_1 hphase =>
      cases hs
      exact .failed (by simp [hphase]) (by simp [hphase]) (by simp) (by simp) (by simp)
    case h_2 => cases hs
  | close ok =>
    simp only [Group.recvStep, Option.ite_none_right_eq_some, Option.some.injEq] at hs
    obtain ⟨⟨hphase, hq, -⟩, rfl⟩ := hs
    cases ok with
    | true => exact .done hphase hq
    | false => exact .failed (by simp [hphase]) (by simp [hphase]) (by simp) (by simp) (by simp)
  | abort =>
    simp only [Group.recvStep, Option.ite_none_left_eq_some, Option.some.injEq] at hs
    obtain ⟨hover, rfl⟩ := hs
    simp only [Group.recvOver, decide_eq_true_eq, not_or] at hover
    exact .failed hover.1 hover.2 (by simp) (by simp) (by simp)

namespace RecvLoop

variable {r r' : RecvLoop} {a : RecvLabel}

@[simp] theorem frame_queue (r : RecvLoop) (rest : List StripeEvent) (seq : U64) (bytes : Bytes) :
    (r.frame rest seq bytes).queue = rest := by
  unfold frame
  split
  · rfl
  · split <;> rfl

@[simp] theorem frame_next (r : RecvLoop) (rest : List StripeEvent) (seq : U64) (bytes : Bytes) :
    (r.frame rest seq bytes).next = r.next := by
  unfold frame
  split
  · rfl
  · split <;> rfl

/-- A frame is written at its turn; otherwise the loop goes on waiting. -/
theorem frame_phase (r : RecvLoop) (rest : List StripeEvent) (seq : U64) (bytes : Bytes) :
    (r.frame rest seq bytes).phase = if seq = r.next then .writing bytes else r.phase := by
  unfold frame
  split
  · rfl
  · split <;> rfl

/-- A loop that returned takes no turn. -/
theorem Turn.live (t : r.Turn a r') : r.phase ≠ .done ∧ r.phase ≠ .failed := by
  cases t with
  | failed hdone hfailed => exact ⟨hdone, hfailed⟩
  | frame h _ | broken h _ | write h | next h _ _ | gap h _ | done h _ =>
    rw [h]
    exact ⟨nofun, nofun⟩

/-- The news that a stripe broke is lost to a failed loop only. -/
theorem Turn.broken_mem (t : r.Turn a r') {reason : String} (h : .broken reason ∈ r.queue) :
    r'.phase = .failed ∨ .broken reason ∈ r'.queue := by
  cases t with
  | frame _ hq =>
    rw [hq] at h
    rcases List.mem_cons.mp h with heq | hrest
    · cases heq
    · exact Or.inr (by rwa [frame_queue])
  | broken | failed => exact Or.inl rfl
  | write | next | gap => exact Or.inr h
  | done _ hq =>
    rw [hq] at h
    cases h

/-- Success comes with the closed queue. -/
theorem Turn.of_done (t : r.Turn a r') (hd : r'.phase = .done) :
    a = .close true ∧ r.phase = .waiting ∧ r' = { r with phase := .done } := by
  cases t with
  | frame hw _ =>
    rw [frame_phase, hw] at hd
    split at hd <;> cases hd
  | broken | write | next | gap | failed => cases hd
  | done hw _ => exact ⟨rfl, hw, rfl⟩

theorem Turn.of_close (t : r.Turn (.close true) r') : r'.phase = .done := by
  cases t with
  | failed _ _ _ _ hne => exact absurd rfl hne
  | done => rfl

end RecvLoop

namespace Ended

variable {k : Nat} {g g' : Group k}

theorem recv (h : Ended g) {a : RecvLabel} (hs : g.recvStep a = some g') : Ended g' := by
  have t := turn_of_step hs
  have hlive : g.recvOver ≠ true := by
    simp only [Group.recvOver, ne_eq, decide_eq_true_eq, not_or]
    exact t.live
  rw [recvStep_frame hs]
  refine ⟨h.eof, fun i hi => ?_, fun hd i => ?_⟩
  · obtain ⟨reason, hr⟩ := (h.stopped i hi).resolve_left hlive
    rcases t.broken_mem hr with hf | hr
    · exact Or.inl (decide_eq_true (Or.inr hf))
    · exact Or.inr ⟨reason, hr⟩
  · obtain ⟨rfl, -, -⟩ := t.of_done hd
    simp only [Group.recvStep, Option.ite_none_right_eq_some] at hs
    obtain ⟨⟨-, hq, hover⟩, -⟩ := hs
    have hi := hover i
    simp only [Group.readerOver, decide_eq_true_eq] at hi
    refine hi.resolve_right fun hstop => ?_
    obtain ⟨reason, hr⟩ := (h.stopped i hstop).resolve_left hlive
    rw [hq] at hr
    cases hr

end Ended

/-! ## 4. The numbers that came -/

/-- A number the loop holds: it is being written, or it waits in the map. -/
def RecvLoop.Holds (r : RecvLoop) (n : U64) : Prop :=
  (n = r.next ∧ ∃ rest, r.phase = .writing rest) ∨ ∃ bytes, (n, bytes) ∈ r.pending

/-- What came is behind the loop's turn or held, and nothing else is. -/
structure Reordered (r : RecvLoop) (came : List U64) : Prop where
  below : ∀ n < r.next, n ∈ came
  turn : (∃ rest, r.phase = .writing rest) → r.next ∈ came
  parked : ∀ e ∈ r.pending, r.next < e.1 ∧ e.1 ∈ came
  came : ∀ n ∈ came, n < r.next ∨ r.Holds n

/-- What came leaves no number out. -/
def Gapless (came : List U64) : Prop := ∀ n ∈ came, ∀ m < n, m ∈ came

namespace Reordered

variable {r r' : RecvLoop} {came : List U64}

theorem new (k : Nat) : Reordered (Group.new k).recv [] := by
  refine ⟨fun n hn => ?_, ?_, nofun, nofun⟩
  · have h0 : n < 0 := hn
    exact absurd h0 (BitVec.not_lt_zero)
  · rintro ⟨rest, hr⟩
    cases hr

/-- A change of the phase that keeps what is written. -/
theorem rephase (h : Reordered r came) {phase : RecvPhase} {dest : Bytes}
    (hp : (∃ rest, phase = .writing rest) ↔ ∃ rest, r.phase = .writing rest) :
    Reordered { r with phase := phase, dest := dest } came where
  below := h.below
  turn hw := h.turn (hp.mp hw)
  parked := h.parked
  came n hn := (h.came n hn).imp_right fun hh => hh.imp_left fun ⟨heq, hw⟩ => ⟨heq, hp.mpr hw⟩

/-- A frame that is not early goes to the map, in place of one with its number. -/
theorem insert (h : Reordered r came) (hw : r.phase = .waiting) {seq : U64} (hlt : r.next < seq)
    (bytes : Bytes) (rest : List StripeEvent) :
    Reordered { r with queue := rest, pending := r.insert seq bytes } (seq :: came) := by
  refine ⟨fun n hn => List.mem_cons_of_mem _ (h.below n hn), ?_, fun e he => ?_, fun n hn => ?_⟩
  · rintro ⟨more, hm⟩
    rw [hw] at hm
    cases hm
  · rcases List.mem_cons.mp he with rfl | he
    · exact ⟨hlt, List.mem_cons_self⟩
    · obtain ⟨hnext, hcame⟩ := h.parked e (List.mem_of_mem_filter he)
      exact ⟨hnext, List.mem_cons_of_mem _ hcame⟩
  · rcases List.mem_cons.mp hn with rfl | hn
    · exact Or.inr (Or.inr ⟨bytes, List.mem_cons_self⟩)
    rcases eq_or_ne n seq with rfl | hne
    · exact Or.inr (Or.inr ⟨bytes, List.mem_cons_self⟩)
    rcases h.came n hn with hlt | ⟨-, more, hm⟩ | ⟨b, hb⟩
    · exact Or.inl hlt
    · rw [hw] at hm
      cases hm
    · have hf : (n, b) ∈ r.pending.filter fun e => e.1 ≠ seq :=
        List.mem_filter.mpr ⟨hb, by simpa using hne⟩
      exact Or.inr (Or.inr ⟨b, List.mem_cons_of_mem _ hf⟩)

theorem frame (h : Reordered r came) (hw : r.phase = .waiting) (rest : List StripeEvent) (seq : U64)
    (bytes : Bytes) : Reordered (r.frame rest seq bytes) (seq :: came) := by
  rw [RecvLoop.frame]
  split
  case isTrue heq =>
    refine ⟨fun n hn => List.mem_cons_of_mem _ (h.below n hn), fun _ => ?_, fun e he => ?_,
      fun n hn => ?_⟩
    · exact heq ▸ List.mem_cons_self
    · exact ⟨(h.parked e he).1, List.mem_cons_of_mem _ (h.parked e he).2⟩
    · rcases List.mem_cons.mp hn with rfl | hn
      · exact Or.inr (Or.inl ⟨heq, bytes, rfl⟩)
      · rcases h.came n hn with hlt | ⟨-, more, hm⟩ | hb
        · exact Or.inl hlt
        · rw [hw] at hm
          cases hm
        · exact Or.inr (Or.inr hb)
  case isFalse hne =>
    split
    case isTrue hlt => exact h.insert hw hlt bytes rest
    case isFalse hle =>
      have hlt : seq < r.next := by bv_omega
      refine ⟨fun n hn => List.mem_cons_of_mem _ (h.below n hn), ?_, fun e he => ?_, fun n hn => ?_⟩
      · intro hm
        exact List.mem_cons_of_mem _ (h.turn hm)
      · exact ⟨(h.parked e he).1, List.mem_cons_of_mem _ (h.parked e he).2⟩
      · rcases List.mem_cons.mp hn with rfl | hn
        · exact Or.inl hlt
        · exact h.came n hn

/-- The number behind the last one that fits the counter: nothing was ahead of it. -/
theorem last (h : Reordered r came) (hmax : r.next + 1 = 0) : r.pending = [] := by
  refine List.eq_nil_iff_forall_not_mem.mpr fun e he => ?_
  have hlt := (h.parked e he).1
  bv_omega

theorem below_succ (h : Reordered r came) (hw : r.phase = .writing []) {n : U64}
    (hn : n < r.next + 1) : n ∈ came := by
  rcases eq_or_ne n r.next with rfl | hne
  · exact h.turn ⟨[], hw⟩
  · exact h.below n (by bv_omega)

/-- The next frame is there: it is written at once. -/
theorem next (h : Reordered r came) (hw : r.phase = .writing []) {e : U64 × Bytes}
    (he : e ∈ r.pending) (heq : e.1 = r.next + 1) :
    Reordered { r with
      next := r.next + 1, pending := r.pending.filter fun e => e.1 ≠ r.next + 1,
      phase := .writing e.2 } came := by
  have hahead : r.next < r.next + 1 := heq ▸ (h.parked e he).1
  refine ⟨fun n hn => h.below_succ hw hn, fun _ => heq ▸ (h.parked e he).2, fun f hf => ?_,
    fun n hn => ?_⟩
  · obtain ⟨hm, hne⟩ := List.mem_filter.mp hf
    have hne' : f.1 ≠ r.next + 1 := by simpa using hne
    obtain ⟨hnext, hcame⟩ := h.parked f hm
    exact ⟨by bv_omega, hcame⟩
  · rcases eq_or_ne n (r.next + 1) with rfl | hne
    · exact Or.inr (Or.inl ⟨rfl, e.2, rfl⟩)
    rcases h.came n hn with hlt | ⟨rfl, -⟩ | ⟨b, hb⟩
    · exact Or.inl (by bv_omega)
    · exact Or.inl (by bv_omega)
    · exact Or.inr (Or.inr ⟨b, List.mem_filter.mpr ⟨hb, by simpa using hne⟩⟩)

/-- The next frame is not there: the loop waits for it. -/
theorem gap (h : Reordered r came) (hw : r.phase = .writing [])
    (hgap : ∀ e ∈ r.pending, e.1 ≠ r.next + 1) :
    Reordered { r with next := r.next + 1, phase := .waiting }
      (if r.next + 1 = 0 then [] else came) := by
  split
  case isTrue hmax =>
    refine ⟨fun n hn => ?_, ?_, fun e he => ?_, nofun⟩
    · have h0 : n < r.next + 1 := hn
      rw [hmax] at h0
      exact absurd h0 BitVec.not_lt_zero
    · rintro ⟨rest, hr⟩
      cases hr
    · rw [show r.pending = [] from h.last hmax] at he
      cases he
  case isFalse hmax =>
    refine ⟨fun n hn => h.below_succ hw hn, ?_, fun e he => ?_, fun n hn => ?_⟩
    · rintro ⟨rest, hr⟩
      cases hr
    · obtain ⟨hnext, hcame⟩ := h.parked e he
      have hne := hgap e he
      exact ⟨by bv_omega, hcame⟩
    · rcases h.came n hn with hlt | ⟨rfl, -⟩ | hb
      · exact Or.inl (by bv_omega)
      · exact Or.inl (by bv_omega)
      · exact Or.inr (Or.inr hb)

/-- **One turn of the receive loop.**  Nothing is asked of a loop that failed. -/
theorem turn_of (h : Reordered r came) {a : RecvLabel} (t : r.Turn a r') (hr : r'.phase ≠ .failed) :
    Reordered r' (r.noted came a) := by
  cases t with
  | frame hw hq =>
    rw [RecvLoop.noted, hq]
    exact h.frame hw _ _ _
  | broken | failed => exact absurd rfl hr
  | write hw => exact h.rephase (by rw [hw]; simp)
  | next hw he heq =>
    have hlt := (h.parked _ he).1
    rw [RecvLoop.noted, if_neg (by bv_omega)]
    exact h.next hw he heq
  | gap hw hgap => exact h.gap hw hgap
  | done hw _ => exact h.rephase (by rw [hw]; simp)

/-- While the loop waits, its map is empty exactly when no number was left out. -/
theorem pending_eq_nil (h : Reordered r came) (hw : r.phase = .waiting) :
    r.pending = [] ↔ Gapless came := by
  have hnot : ∀ n, r.Holds n → ∃ bytes, (n, bytes) ∈ r.pending := by
    rintro n (⟨-, rest, hr⟩ | hb)
    · rw [hw] at hr
      cases hr
    · exact hb
  constructor
  · intro hnil n hn m hm
    rcases h.came n hn with hlt | hh
    · exact h.below m (by bv_omega)
    · obtain ⟨b, hb⟩ := hnot n hh
      rw [hnil] at hb
      cases hb
  · intro hg
    refine List.eq_nil_iff_forall_not_mem.mpr fun e he => ?_
    obtain ⟨hlt, hcame⟩ := h.parked e he
    rcases h.came _ (hg _ hcame _ hlt) with hself | hh
    · bv_omega
    · obtain ⟨b, hb⟩ := hnot _ hh
      have := (h.parked _ hb).1
      bv_omega

end Reordered

/-! ## 5. The end of a transfer -/

/-- Only what a reader hands over reaches the loop. -/
theorem recv_of_read {k : Nat} {g g' : Group k} {i : Fin k} {a : Group.ReadLabel} (ha : a ≠ .push)
    (hs : g.readStep i a = some g') : g'.recv = g.recv := by
  cases a with
  | frame =>
    simp only [Group.readStep] at hs
    split at hs
    · cases hs
      rfl
    · cases hs
  | push => exact absurd rfl ha
  | endOfStripe =>
    simp only [Group.readStep, Option.ite_none_right_eq_some, Option.some.injEq] at hs
    obtain ⟨-, rfl⟩ := hs
    rw [Group.endOfStripe]
    split <;> rfl
  | error stage e =>
    simp only [Group.readStep, Option.ite_none_right_eq_some, Option.some.injEq] at hs
    obtain ⟨-, rfl⟩ := hs
    rfl
  | abort =>
    simp only [Group.readStep, Option.ite_none_right_eq_some, Option.some.injEq] at hs
    obtain ⟨-, rfl⟩ := hs
    rfl

/-- A reader does nothing to the loop but add to its queue. -/
theorem readStep_recv {k : Nat} {g g' : Group k} {i : Fin k} {a : Group.ReadLabel}
    (hs : g.readStep i a = some g') : g'.recv = { g.recv with queue := g'.recv.queue } := by
  by_cases ha : a = .push
  · subst ha
    simp only [Group.readStep, Group.push] at hs
    split at hs
    · split at hs
      · cases hs
        rfl
      · split at hs
        · cases hs
          rfl
        · cases hs
    · cases hs
  · rw [recv_of_read ha hs]

namespace Inbound

variable {k : Nat} {s s' : Inbound k} {e : InboundEvent k}

/-- The steps that are not the loop's own leave its phase and its map alone. -/
theorem recv_of_step (hs : s.step e = some s') (he : ∀ a, e ≠ .recv a) :
    s'.group.recv = { s.group.recv with queue := s'.group.recv.queue } ∧ s'.came = s.came := by
  cases e with
  | arrive i bytes =>
    simp only [step, Option.ite_none_left_eq_some, Option.some.injEq] at hs
    obtain ⟨-, rfl⟩ := hs
    exact ⟨rfl, rfl⟩
  | finish i =>
    cases hs
    exact ⟨rfl, rfl⟩
  | read i a =>
    simp only [step, Option.map_eq_some_iff] at hs
    obtain ⟨g, hg, rfl⟩ := hs
    exact ⟨readStep_recv hg, rfl⟩
  | recv a => exact absurd rfl (he a)

theorem recv_step {a : RecvLabel} (hs : s.step (.recv a) = some s') :
    s.group.recv.Turn a s'.group.recv ∧ s'.came = s.group.recv.noted s.came a := by
  simp only [step, Option.map_eq_some_iff] at hs
  obtain ⟨g, hg, rfl⟩ := hs
  exact ⟨turn_of_step hg, rfl⟩

/-- What every reachable state has, whatever the peer sends. -/
structure Inv (s : Inbound k) : Prop where
  ended : Ended s.group
  reordered : s.group.recv.phase ≠ .failed → Reordered s.group.recv s.came

theorem ended_step (h : Ended s.group) (hs : s.step e = some s') : Ended s'.group := by
  cases e with
  | arrive i bytes =>
    simp only [step, Option.ite_none_left_eq_some, Option.some.injEq] at hs
    obtain ⟨hopen, rfl⟩ := hs
    exact h.put hopen bytes
  | finish i =>
    cases hs
    exact h.closeStripe i
  | read i a =>
    simp only [step, Option.map_eq_some_iff] at hs
    obtain ⟨g, hg, rfl⟩ := hs
    exact h.read hg
  | recv a =>
    simp only [step, Option.map_eq_some_iff] at hs
    obtain ⟨g, hg, rfl⟩ := hs
    exact h.recv hg

theorem Inv.step (h : s.Inv) (hs : s.step e = some s') : s'.Inv := by
  refine ⟨ended_step h.ended hs, fun hr => ?_⟩
  by_cases he : ∀ a, e ≠ .recv a
  · obtain ⟨hrecv, hcame⟩ := recv_of_step hs he
    rw [hrecv] at hr ⊢
    rw [hcame]
    exact ⟨(h.reordered hr).below, (h.reordered hr).turn, (h.reordered hr).parked,
      (h.reordered hr).came⟩
  · obtain ⟨a, rfl⟩ := not_forall_not.mp he
    obtain ⟨t, hcame⟩ := recv_step hs
    rw [hcame]
    exact (h.reordered t.live.2).turn_of t hr

theorem inv (h : (inbound k).Reach s) : s.Inv := by
  refine h.invariant ?_ fun s e s' => Inv.step
  rintro s rfl
  exact ⟨Ended.new, fun _ => Reordered.new k⟩

/-- Success is honest: no frame is left behind a gap, and every stripe ended cleanly at the end of a
frame. -/
def Complete (s : Inbound k) : Prop :=
  s.group.recv.phase = .done →
    s.group.recv.pending = [] ∧
      ∀ i, (s.group.stripes i).reader = .eof ∧ (s.group.stripes i).unread = []

/-- The readers' queue closes only when the frames that came leave no number out. -/
def ClosesWhole (s : Inbound k) : InboundEvent k → Prop
  | .recv (.close true) => Gapless s.came
  | _ => True

/-- Only the close of the queue can make a state incomplete. -/
theorem Complete.step (hc : s.Complete) (hinv : s.Inv) (hs : s.step e = some s') :
    s'.Complete ↔ s.ClosesWhole e := by
  have hclean : s'.group.recv.phase = .done →
      ∀ i, (s'.group.stripes i).reader = .eof ∧ (s'.group.stripes i).unread = [] := by
    intro hd i
    have hended := (hinv.step hs).ended
    have heof := hended.done hd i
    exact ⟨heof, (hended.eof i heof).2⟩
  by_cases he : ∀ a, e ≠ .recv a
  · have hrecv := (recv_of_step hs he).1
    have hwhole : s.ClosesWhole e := by
      cases e with
      | recv a => exact absurd rfl (he a)
      | arrive | finish | read => trivial
    refine iff_of_true (fun hd => ⟨?_, hclean hd⟩) hwhole
    rw [hrecv] at hd ⊢
    exact (hc hd).1
  · obtain ⟨a, rfl⟩ := not_forall_not.mp he
    have t := (recv_step hs).1
    by_cases hd : s'.group.recv.phase = .done
    · obtain ⟨rfl, hw, hr⟩ := t.of_done hd
      rw [show s.ClosesWhole (.recv (.close true)) ↔ Gapless s.came from Iff.rfl,
        ← (hinv.reordered t.live.2).pending_eq_nil hw]
      constructor
      · intro hc'
        have hnil := (hc' hd).1
        rwa [hr] at hnil
      · intro hnil _
        refine ⟨?_, hclean hd⟩
        rwa [hr]
    · refine iff_of_true (fun hd' => absurd hd' hd) ?_
      match a with
      | .close true => exact absurd t.of_close hd
      | .event | .write _ | .written | .writeError | .close false | .abort => trivial

/-- **A gap at the end.**  As long as the queue closes only behind a whole sequence, success is
honest, and the first close behind a gap breaks it. -/
theorem gap_at_end (h : ((inbound k).restrict ClosesWhole).Reach s) :
    s.Complete ∧ ∀ e s', s.step e = some s' → (s'.Complete ↔ s.ClosesWhole e) := by
  have hinv := inv h.of_restrict
  have hc : s.Complete := by
    induction h with
    | init hi =>
      rw [show _ = _ from hi]
      nofun
    | step hr hs ih => exact ((ih (inv hr.of_restrict)).step (inv hr.of_restrict) hs.2).mpr hs.1
  exact ⟨hc, fun e s' => hc.step hinv⟩

/-- The frame `seq` with one byte of payload. -/
def byteFrame (seq : U64) (b : Byte) : Bytes := beBytes 8 seq.toNat ++ beBytes 2 1 ++ [b]

/-- The readers' queue closes only behind the first two numbers. -/
def closesBehindTwo (s : Inbound 2) : InboundEvent 2 → Bool
  | .recv (.close true) => s.came == [0, 1]
  | _ => true

/-- Two frames that came in the wrong order, on a stripe each: nothing is left behind. -/
theorem gap_at_end_swapped :
    ∃ s : Inbound 2, s.group.recv.phase = .done ∧ s.group.recv.dest = [5, 7] ∧ s.Complete := by
  have hrun : (Lts.runWith step closesBehindTwo ⟨Group.new 2, []⟩
      [.arrive 1 (byteFrame 1 7), .finish 1, .read 1 .frame, .read 1 .push, .recv .event,
        .read 1 .endOfStripe, .arrive 0 (byteFrame 0 5), .finish 0, .read 0 .frame, .read 0 .push,
        .recv .event, .recv (.write 1), .recv .written, .recv (.write 1), .recv .written,
        .read 0 .endOfStripe, .recv (.close true)]).any
      (fun s => decide (s.group.recv.phase = .done ∧ s.group.recv.dest = [5, 7])) = true := by
    decide +kernel
  have hok : ∀ (s : Inbound 2) (e : InboundEvent 2),
      closesBehindTwo s e = true → s.ClosesWhole e := by
    intro s e he
    cases e with
    | arrive | finish | read => trivial
    | recv a =>
      cases a with
      | event | write | written | writeError | abort => trivial
      | close ok =>
        cases ok with
        | false => trivial
        | true =>
          have hcame : s.came = [0, 1] := by simpa [closesBehindTwo] using he
          intro n hn m hm
          simp only [hcame, List.mem_cons, List.not_mem_nil, or_false] at hn ⊢
          bv_omega
  obtain ⟨s, hs, hp⟩ := Lts.Reach.exists_runWith (T := inbound 2) (C := ClosesWhole)
    (fun _ _ _ h => h) hok rfl hrun
  exact ⟨s, (of_decide_eq_true hp).1, (of_decide_eq_true hp).2, (gap_at_end hs).1⟩

/-- The stripe with the first frame ends at once; the second frame waits for it to the end, and the
loop returns success. -/
theorem gap_drops_tail :
    ¬ ∀ (k : Nat) (s : Inbound k), (inbound k).Reach s → s.Complete := by
  intro hall
  have hrun : (Lts.runWith step (fun _ _ => true) ⟨Group.new 2, []⟩
      [.finish 0, .read 0 .endOfStripe, .arrive 1 (byteFrame 1 7), .finish 1, .read 1 .frame,
        .read 1 .push, .recv .event, .read 1 .endOfStripe, .recv (.close true)]).any
      (fun s => decide (s.group.recv.phase = .done ∧ s.group.recv.pending = [(1, [7])]))
      = true := by
    decide +kernel
  obtain ⟨s, hs, hp⟩ := Lts.Reach.exists_run (T := inbound 2) (fun _ _ _ h => h) rfl hrun
  obtain ⟨hd, hpending⟩ := of_decide_eq_true hp
  have hnil := (hall 2 s hs hd).1
  rw [hpending] at hnil
  cases hnil

end Inbound

/-! ## 6. The frames at hand -/

def StripeEvent.isFrame : StripeEvent → Bool
  | .frame _ _ => true
  | .broken _ => false

namespace RecvLoop

variable {r r' : RecvLoop} {a : RecvLabel}

/-- Whether a frame is being written. -/
def busy (r : RecvLoop) : Nat :=
  match r.phase with
  | .writing _ => 1
  | _ => 0

/-- The frames that the loop and its queue hold: in the map, in the queue, and the one being
written. -/
def held (r : RecvLoop) : Nat :=
  r.pending.length + r.queue.countP StripeEvent.isFrame + r.busy

theorem busy_le (r : RecvLoop) : r.busy ≤ 1 := by
  unfold busy
  split <;> simp

theorem insert_length_le (r : RecvLoop) (seq : U64) (bytes : Bytes) :
    (r.insert seq bytes).length ≤ r.pending.length + 1 := by
  have h := r.pending.length_filter_le fun e => e.1 ≠ seq
  simp only [insert, List.length_cons]
  omega

/-- A frame off the queue is written, kept in the map or dropped. -/
theorem held_frame (hw : r.phase = .waiting) {rest : List StripeEvent} {seq : U64} {bytes : Bytes}
    (hq : r.queue = .frame seq bytes :: rest) : (r.frame rest seq bytes).held ≤ r.held := by
  have hr : r.held = r.pending.length + (rest.countP StripeEvent.isFrame + 1) := by
    rw [held, hq, List.countP_cons_of_pos rfl, busy, hw]
    rfl
  have hins := r.insert_length_le seq bytes
  rw [hr, frame]
  split
  · simp only [held, busy]
    omega
  · split
    · simp only [held, busy, hw]
      omega
    · simp only [held, busy, hw]
      omega

/-- The loop's turns only give frames away. -/
theorem Turn.held_le (t : r.Turn a r') : r'.held ≤ r.held := by
  cases t with
  | frame hw hq => exact held_frame hw hq
  | broken hw hq => simp [held, busy, hw, hq, StripeEvent.isFrame]
  | write hw => simp [held, busy, hw]
  | next hw he heq =>
    have hlt : (r.pending.filter fun e => e.1 ≠ r.next + 1).length < r.pending.length :=
      List.length_filter_lt_length_iff_exists.mpr ⟨_, he, by simpa using heq⟩
    simp only [held, busy, hw]
    omega
  | gap hw _ => simp [held, busy, hw]
  | failed =>
    simp only [held, busy]
    omega
  | done hw _ => simp [held, busy, hw]

end RecvLoop

namespace Inbound

variable {k : Nat} {s s' : Inbound k} {e : InboundEvent k}

/-- No frame comes off the queue a group's width or more ahead of its turn. -/
def Together (s : Inbound k) : InboundEvent k → Prop
  | .recv .event => ∀ seq bytes rest, s.group.recv.queue = .frame seq bytes :: rest →
    seq.toNat < s.group.recv.next.toNat + k
  | _ => True

end Inbound

/-- The map's numbers: one frame each, ahead of the turn and within a group's width of it. -/
structure Clustered (k : Nat) (r : RecvLoop) : Prop where
  nodup : (r.pending.map fun e => e.1.toNat).Nodup
  near : ∀ e ∈ r.pending, r.next < e.1 ∧ e.1.toNat < r.next.toNat + k
  queue : r.queue.length ≤ stripeReorderQueue

namespace Clustered

variable {k : Nat} {r r' : RecvLoop} {a : RecvLabel}

theorem insert (h : Clustered k r) {seq : U64} (hlt : r.next < seq)
    (hnear : seq.toNat < r.next.toNat + k) (bytes : Bytes) {rest : List StripeEvent}
    (hrest : rest.length ≤ stripeReorderQueue) :
    Clustered k { r with queue := rest, pending := r.insert seq bytes } := by
  refine ⟨List.nodup_cons.mpr ⟨fun hm => ?_, ?_⟩, fun e he => ?_, hrest⟩
  · obtain ⟨e, he, heq⟩ := List.mem_map.mp hm
    have hne : e.1 ≠ seq := by simpa using (List.mem_filter.mp he).2
    exact hne (BitVec.eq_of_toNat_eq heq)
  · exact h.nodup.sublist (List.filter_sublist.map _)
  · rcases List.mem_cons.mp he with rfl | he
    · exact ⟨hlt, hnear⟩
    · exact h.near e (List.mem_of_mem_filter he)

theorem turn (h : Clustered k r) (t : r.Turn a r')
    (hevent : a = .event → ∀ seq bytes rest, r.queue = .frame seq bytes :: rest →
      seq.toNat < r.next.toNat + k) : Clustered k r' := by
  cases t with
  | frame hw hq =>
    have hnear := hevent rfl _ _ _ hq
    have hrest := h.queue
    rw [hq, List.length_cons] at hrest
    have hle := (Nat.le_succ _).trans hrest
    rw [RecvLoop.frame]
    split
    · exact ⟨h.nodup, h.near, hle⟩
    · split
      case isTrue hlt => exact h.insert hlt hnear _ hle
      case isFalse => exact ⟨h.nodup, h.near, hle⟩
  | broken hw hq =>
    have hrest := h.queue
    rw [hq, List.length_cons] at hrest
    exact ⟨h.nodup, h.near, (Nat.le_succ _).trans hrest⟩
  | write | failed | done => exact ⟨h.nodup, h.near, h.queue⟩
  | next hw he heq =>
    have hahead := (h.near _ he).1
    refine ⟨h.nodup.sublist (List.filter_sublist.map _), fun f hf => ?_, h.queue⟩
    obtain ⟨hm, hne⟩ := List.mem_filter.mp hf
    have hne' : f.1 ≠ r.next + 1 := by simpa using hne
    obtain ⟨hlt, hnear⟩ := h.near f hm
    exact ⟨by bv_omega, by bv_omega⟩
  | gap hw hgap =>
    refine ⟨h.nodup, fun f hf => ?_, h.queue⟩
    have hne := hgap f hf
    obtain ⟨hlt, hnear⟩ := h.near f hf
    exact ⟨by bv_omega, by bv_omega⟩

/-- There are fewer numbers than stripes within a group's width. -/
theorem pending_lt (h : Clustered k r) [NeZero k] : r.pending.length < k := by
  have hsub : (r.pending.map fun e => e.1.toNat).toFinset
      ⊆ Finset.Ioo r.next.toNat (r.next.toNat + k) := by
    intro n hn
    obtain ⟨e, he, rfl⟩ := List.mem_map.mp (List.mem_toFinset.mp hn)
    exact Finset.mem_Ioo.mpr (h.near e he)
  have hcard := Finset.card_le_card hsub
  rw [List.toFinset_card_of_nodup h.nodup, List.length_map, Nat.card_Ioo] at hcard
  have := Nat.pos_of_ne_zero (NeZero.ne k)
  omega

theorem held_le (h : Clustered k r) [NeZero k] : r.held ≤ stripeReorderQueue + k := by
  have hpending := h.pending_lt
  have hqueue := h.queue
  have hframes := r.queue.countP_le_length (p := StripeEvent.isFrame)
  have hbusy := r.busy_le
  rw [RecvLoop.held]
  omega

end Clustered

namespace Inbound

variable {k : Nat} {s s' : Inbound k} {e : InboundEvent k}

/-- The readers stall on a full queue. -/
theorem queue_push {g g' : Group k} {i : Fin k} {ev : StripeEvent}
    (h : g.recv.queue.length ≤ stripeReorderQueue) (hs : g.push i ev = some g') :
    g'.recv.queue.length ≤ stripeReorderQueue := by
  rw [Group.push] at hs
  split at hs
  case isTrue =>
    cases hs
    exact h
  case isFalse =>
    split at hs
    case isTrue hroom =>
      cases hs
      rw [List.length_append]
      exact hroom
    case isFalse => cases hs

theorem clustered_step (h : Clustered k s.group.recv) (ht : s.Together e)
    (hs : s.step e = some s') : Clustered k s'.group.recv := by
  cases e with
  | arrive i bytes =>
    simp only [step, Option.ite_none_left_eq_some, Option.some.injEq] at hs
    obtain ⟨-, rfl⟩ := hs
    exact h
  | finish i =>
    cases hs
    exact h
  | recv a =>
    refine h.turn (recv_step hs).1 ?_
    rintro rfl
    exact ht
  | read i a =>
    simp only [step, Option.map_eq_some_iff] at hs
    obtain ⟨g, hg, rfl⟩ := hs
    have hq : g.recv.queue.length ≤ stripeReorderQueue := by
      by_cases ha : a = .push
      · subst ha
        simp only [Group.readStep] at hg
        split at hg
        case h_1 => exact queue_push h.queue hg
        case h_2 => cases hg
      · rw [recv_of_read ha hg]
        exact h.queue
    rw [readStep_recv hg]
    exact ⟨h.nodup, h.near, hq⟩

/-- A group of no stripes receives nothing. -/
theorem held_none {s : Inbound 0} (h : (inbound 0).Reach s) : s.group.recv.held = 0 := by
  refine h.invariant (P := fun s => s.group.recv.held = 0) ?_ ?_
  · rintro s rfl
    rfl
  · intro s e s' hheld hs
    cases e with
    | arrive i | finish i | read i => exact i.elim0
    | recv a => exact Nat.eq_zero_of_le_zero ((recv_step hs).1.held_le.trans_eq hheld)

/-- **The frames at hand.**  As long as the stripes stay together, the loop and its queue hold no
more than the queue is meant to, and one frame for each stripe. -/
theorem reorder_memory (h : ((inbound k).restrict Together).Reach s) :
    s.group.recv.held ≤ stripeReorderQueue + k := by
  cases k with
  | zero => exact (held_none h.of_restrict).trans_le (Nat.zero_le _)
  | succ k =>
    have hc : Clustered (k + 1) s.group.recv := by
      refine h.invariant (P := fun s => Clustered (k + 1) s.group.recv) ?_ ?_
      · rintro s rfl
        exact ⟨List.nodup_nil, nofun, Nat.zero_le _⟩
      · rintro s e s' hc ⟨ht, hs⟩
        exact clustered_step hc ht hs
    exact hc.held_le

/-- The second frame comes first, and waits for the other. -/
theorem reorder_memory_early :
    ∃ s : Inbound 2, s.group.recv.held = 1 ∧ s.group.recv.held ≤ stripeReorderQueue + 2 := by
  have hrun : (Lts.runWith step
      (fun s e => match e with
        | .recv .event => match s.group.recv.queue with
          | .frame seq _ :: _ => decide (seq.toNat < s.group.recv.next.toNat + 2)
          | _ => true
        | _ => true)
      ⟨Group.new 2, []⟩
      [.arrive 1 (byteFrame 1 7), .read 1 .frame, .read 1 .push, .recv .event]).any
      (fun s => decide (s.group.recv.held = 1)) = true := by
    decide +kernel
  obtain ⟨s, hs, hp⟩ := Lts.Reach.exists_runWith (T := inbound 2) (C := Together)
    (fun _ _ _ h => h) (fun s e he => by
      cases e with
      | arrive | finish | read => trivial
      | recv a =>
        cases a with
        | event =>
          intro seq bytes rest hq
          simp only [hq] at he
          exact of_decide_eq_true he
        | write | written | writeError | close | abort => trivial)
    rfl hrun
  exact ⟨s, of_decide_eq_true hp, reorder_memory hs⟩

/-- Stripe 1 carries the frames 1 to 35 while stripe 0 is silent: all of them are kept. -/
theorem skew_fills_map :
    ¬ ∀ (k : Nat) (s : Inbound k), (inbound k).Reach s →
      s.group.recv.held ≤ stripeReorderQueue + k := by
  intro hall
  have hrun : (Lts.runWith step (fun _ _ => true) ⟨Group.new 2, []⟩
      ((List.range 35).flatMap fun n =>
        [.arrive 1 (byteFrame (n + 1) 7), .read 1 .frame, .read 1 .push, .recv .event])).any
      (fun s => decide (s.group.recv.held = 35)) = true := by
    decide +kernel
  obtain ⟨s, hs, hp⟩ := Lts.Reach.exists_run (T := inbound 2) (fun _ _ _ h => h) rfl hrun
  have hb := hall 2 s hs
  rw [of_decide_eq_true hp] at hb
  exact absurd hb (by decide)

end Inbound

end Molehill.Stripe
