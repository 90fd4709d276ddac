/-
# The stripe round trip

In every reachable state of a stripe group the destination holds a prefix of the source, and
once the source ended and every stripe ended cleanly the receive loop runs to its end with the
whole of it (`stripe_round_trip`).  Both are read off the tracking relation.

The sequence numbers are 64 bits wide, so the round trip is about groups of one stripe, or of at
most `2 ^ 64` chunks.  Past that it fails: `stripe_round_trip_wraps` runs a group of two stripes
one chunk further, where the frame named `0` for the second time overtakes the frame named
`2 ^ 64 - 1` and is taken for a duplicate.
-/
import Molehill.Stripe.Tracking
import Mathlib.Logic.Relation

namespace Molehill.Stripe

open Lib Function

variable {k : Nat} [NeZero k]

/-! ## 1. Every reachable state is tracked -/

theorem accepted_reads (g : Group k) (frame : Bytes) (n : Nat) :
    (g.accepted frame n).reads = g.reads := by
  by_cases h : g.send.committed g.idx + n = frame.length
  · rw [Group.accepted, if_pos h]
  · rw [Group.accepted, if_neg h]

theorem refused_reads (g : Group k) : g.refused.reads = g.reads := by
  unfold Group.refused
  split
  · rfl
  · split <;> rfl

omit [NeZero k] in
theorem endOfStripe_reads (g : Group k) (i : Fin k) : (g.endOfStripe i).reads = g.reads := by
  unfold Group.endOfStripe
  split <;> rfl

/-- Only the send loop's own read adds to the history of the source. -/
theorem sendStep_reads {g g' : Group k} {l : Group.SendLabel k} (hs : g.sendStep l = some g') :
    g.reads.length ≤ g'.reads.length := by
  cases l with
  | read chunk =>
    simp only [Group.sendStep, Option.ite_none_right_eq_some, Option.some.injEq] at hs
    obtain ⟨-, rfl⟩ := hs
    unfold Group.read
    split <;> simp
  | poll ans =>
    simp only [Group.sendStep, Group.poll] at hs
    split at hs
    case h_1 =>
      split at hs
      · cases hs
        exact Nat.le_refl _
      · split at hs
        · cases hs
          rw [accepted_reads]
        · cases hs
    case h_2 =>
      cases hs
      rw [refused_reads]
    case h_3 =>
      cases hs
      exact Nat.le_refl _
    case h_4 => cases hs
  | shutdown ok =>
    simp only [Group.sendStep, Group.shutdown] at hs
    split at hs
    case h_1 =>
      cases hs
      cases ok <;> exact Nat.le_refl _
    case h_2 => cases hs
  | readEof =>
    simp only [Group.sendStep, Option.ite_none_right_eq_some, Option.some.injEq] at hs
    obtain ⟨-, rfl⟩ := hs
    exact Nat.le_refl _
  | readError =>
    simp only [Group.sendStep, Option.ite_none_right_eq_some, Option.some.injEq] at hs
    obtain ⟨-, rfl⟩ := hs
    exact Nat.le_refl _
  | drop i =>
    simp only [Group.sendStep, Option.ite_none_right_eq_some, Option.some.injEq] at hs
    obtain ⟨-, rfl⟩ := hs
    exact Nat.le_refl _
  | abort =>
    simp only [Group.sendStep, Option.ite_none_left_eq_some, Option.some.injEq] at hs
    obtain ⟨-, rfl⟩ := hs
    exact Nat.le_refl _

omit [NeZero k] in
theorem readStep_reads {g g' : Group k} {i : Fin k} {l : Group.ReadLabel}
    (hs : g.readStep i l = some g') : g'.reads = g.reads := by
  cases l with
  | frame =>
    simp only [Group.readStep] at hs
    split at hs
    · cases hs
      rfl
    · cases hs
  | push =>
    simp only [Group.readStep, Group.push] at hs
    split at hs
    · split at hs
      · cases hs
        rfl
      · split at hs
        · cases hs
          rfl
        · cases hs
    · cases hs
  | endOfStripe =>
    simp only [Group.readStep, Option.ite_none_right_eq_some, Option.some.injEq] at hs
    obtain ⟨-, rfl⟩ := hs
    exact endOfStripe_reads g i
  | error stage e =>
    simp only [Group.readStep, Option.ite_none_right_eq_some, Option.some.injEq] at hs
    obtain ⟨-, rfl⟩ := hs
    rfl
  | abort =>
    simp only [Group.readStep, Option.ite_none_right_eq_some, Option.some.injEq] at hs
    obtain ⟨-, rfl⟩ := hs
    rfl

omit [NeZero k] in
/-- The receive loop changes nothing but its own state. -/
theorem recvStep_frame {g g' : Group k} {l : RecvLabel} (hs : g.recvStep l = some g') :
    g' = { g with recv := g'.recv } := by
  cases l with
  | event =>
    simp only [Group.recvStep, Option.map_eq_some_iff] at hs
    obtain ⟨r, -, rfl⟩ := hs
    rfl
  | write n =>
    simp only [Group.recvStep, Option.map_eq_some_iff] at hs
    obtain ⟨r, -, rfl⟩ := hs
    rfl
  | written =>
    simp only [Group.recvStep, Option.map_eq_some_iff] at hs
    obtain ⟨r, -, rfl⟩ := hs
    rfl
  | writeError =>
    simp only [Group.recvStep] at hs
    split at hs
    · cases hs
      rfl
    · cases hs
  | close ok =>
    simp only [Group.recvStep, Option.ite_none_right_eq_some, Option.some.injEq] at hs
    obtain ⟨-, rfl⟩ := hs
    rfl
  | abort =>
    simp only [Group.recvStep, Option.ite_none_left_eq_some, Option.some.injEq] at hs
    obtain ⟨-, rfl⟩ := hs
    rfl

/-- The history of the source only grows. -/
theorem reads_length_le {g g' : Group k} {l : Group.Label k} (hs : g.step l = some g') :
    g.reads.length ≤ g'.reads.length := by
  cases l with
  | send l => exact sendStep_reads hs
  | read i l => rw [readStep_reads hs]
  | recv l => rw [recvStep_frame hs]

theorem tracked {g : Group k} (h : (stripeGroup k).Reach g) : Exact g → ∃ a, Tracks g a := by
  refine h.invariant (P := fun g => Exact g → ∃ a, Tracks g a) ?_ ?_
  · intro g hg _
    rw [show g = Group.new k from hg]
    exact ⟨_, tracks_new⟩
  · intro g l g' ih hs hx'
    have hs' : g.step l = some g' := hs
    have hx : Exact g := by
      rcases hx' with hk | hsmall
      · exact Or.inl hk
      · exact Or.inr ((reads_length_le hs').trans hsmall)
    obtain ⟨a, ha⟩ := ih hx
    cases l with
    | send l => exact ha.send hs'
    | read i l => exact ha.readerStep hs'
    | recv l => exact ha.recvStep hx hs'

/-! ## 2. Prefix, and the whole at the end -/

theorem Tracks.dest_prefix {g : Group k} {a : Reorder (Fin k)} (h : Tracks g a) :
    g.recv.dest <+: g.source := by
  have hr := h.recv
  have hp := delivered_prefix g.reads a.out
  unfold RecvTracks at hr
  cases hphase : g.recv.phase with
  | waiting =>
    rw [hphase] at hr
    rw [hr.2.1]
    exact hp
  | writing rest =>
    rw [hphase] at hr
    exact List.IsPrefix.trans ⟨rest, hr.2⟩ hp
  | done =>
    rw [hphase] at hr
    rw [hr.1]
    exact hp
  | failed =>
    rw [hphase] at hr
    exact hr.trans hp

theorem Tracks.sent_eq {g : Group k} {a : Reorder (Fin k)} (h : Tracks g a)
    (hs : g.SourceEnded) : a.sent = g.reads.length := by
  have ht := h.sender
  unfold SenderTracks at ht
  rcases hs with ⟨i, hp⟩ | hp
  · rw [hp] at ht
    exact ht
  · rw [hp] at ht
    exact ht

/-- The receive loop's end, with every stripe ended cleanly, leaves no chunk out. -/
theorem Tracks.dest_eq {g : Group k} {a : Reorder (Fin k)} (h : Tracks g a)
    (hs : g.SourceEnded) (hc : g.EndedCleanly) (hd : g.recv.phase = .done) :
    g.recv.dest = g.source := by
  have hr := h.recv
  unfold RecvTracks at hr
  rw [hd] at hr
  have hq : a.queue = [] := by
    have hqt := h.queue
    rw [h.closed hd] at hqt
    exact List.map_eq_nil_iff.mp hqt.symm
  have hout : a.out = a.sent :=
    h.conserved.drained (fun i => ((h.stripes i).eof (hc i)).1) hq hr.2
  rw [hr.1, hout, h.sent_eq hs, delivered, List.take_length]
  rfl

/-! ## 3. The receive loop comes to its end -/

/-- Runs of the receive loop alone. -/
def RecvRun : Group k → Group k → Prop :=
  Relation.ReflTransGen fun g g' => ∃ l, g.recvStep l = some g'

/-- What the receive loop has before it: an event costs more than a parked frame, a parked
frame more than the frame it is at. -/
def workLeft (r : RecvLoop) : Nat :=
  3 * r.queue.length + 2 * r.pending.length + match r.phase with
    | .writing _ => 1
    | _ => 0

/-- The end of a frame leaves less to do. -/
theorem written_workLeft {r : RecvLoop} (hw : r.phase = .writing []) :
    ∃ r', r.written = some r' ∧ workLeft r' < workLeft r ∧ r'.phase ≠ .failed := by
  unfold RecvLoop.written
  rw [if_pos hw]
  cases hf : r.pending.find? fun e => e.1 = r.next + 1 with
  | none =>
    refine ⟨_, rfl, ?_, by simp⟩
    simp only [workLeft, hw]
    omega
  | some e =>
    refine ⟨_, rfl, ?_, by simp⟩
    have hmem := List.mem_of_find?_eq_some hf
    have hname : e.1 = r.next + 1 := by simpa using List.find?_some hf
    have hlt : (r.pending.filter fun e => e.1 ≠ r.next + 1).length < r.pending.length := by
      apply List.length_filter_lt_length_iff_exists.mpr
      exact ⟨e, hmem, by simp [hname]⟩
    simp only [workLeft, hw]
    omega

/-- A frame off the queue leaves less to do. -/
theorem frame_workLeft {r : RecvLoop} (hw : r.phase = .waiting) {seq : U64} {bytes : Bytes}
    {rest : List StripeEvent} (hq : r.queue = .frame seq bytes :: rest) :
    workLeft (r.frame rest seq bytes) < workLeft r ∧ (r.frame rest seq bytes).phase ≠ .failed := by
  unfold RecvLoop.frame
  have hins : (r.insert seq bytes).length ≤ r.pending.length + 1 := by
    have := List.length_filter_le (fun e : U64 × Bytes => e.1 ≠ seq) r.pending
    simpa [RecvLoop.insert] using this
  split
  · simp only [workLeft, hw, hq, List.length_cons]
    exact ⟨by omega, by simp⟩
  · split
    · simp only [workLeft, hw, hq, List.length_cons]
      exact ⟨by omega, by simp⟩
    · simp only [workLeft, hw, hq, List.length_cons]
      exact ⟨by omega, by simp⟩

/-- **Progress.**  With every stripe ended cleanly, the receive loop can always go on until it
is done, and does not fail by itself. -/
theorem Tracks.advance {g : Group k} {a : Reorder (Fin k)} (h : Tracks g a)
    (hc : g.EndedCleanly) (hd : g.recv.phase ≠ .done) (hf : g.recv.phase ≠ .failed) :
    ∃ r, RecvRun g { g with recv := r } ∧ r.phase ≠ .failed ∧
      (r.phase = .done ∨ workLeft r < workLeft g.recv) := by
  cases hp : g.recv.phase with
  | done => exact absurd hp hd
  | failed => exact absurd hp hf
  | waiting =>
    cases hq : g.recv.queue with
    | nil =>
      have hcl : g.queueClosed := by
        refine ⟨hq, fun i => ?_⟩
        simp [Group.readerOver, hc i]
      refine ⟨{ g.recv with phase := .done }, ?_, by simp, Or.inl rfl⟩
      apply Relation.ReflTransGen.single
      exact ⟨.close true, by rw [Group.recvStep, if_pos ⟨hp, hcl⟩]; rfl⟩
    | cons ev rest =>
      cases ev with
      | broken reason =>
        obtain ⟨i, hi⟩ := h.broken reason (by simp [hq])
        rw [hc i] at hi
        exact absurd hi (by simp)
      | frame seq bytes =>
        obtain ⟨hlt, hne⟩ := frame_workLeft hp hq
        refine ⟨g.recv.frame rest seq bytes, ?_, hne, Or.inr hlt⟩
        apply Relation.ReflTransGen.single
        refine ⟨.event, ?_⟩
        rw [Group.recvStep, RecvLoop.event]
        simp [hp, hq]
  | writing rest =>
    -- the rest of the frame in one write, if there is any, and then the next frame
    have hall : ∃ r1, RecvRun g { g with recv := r1 } ∧ r1.phase = .writing [] ∧
        workLeft r1 = workLeft g.recv := by
      by_cases hr : rest = []
      · exact ⟨g.recv, Relation.ReflTransGen.refl, by rw [hp, hr], rfl⟩
      · have hpos := List.length_pos_iff.mpr hr
        refine ⟨{ g.recv with phase := .writing [], dest := g.recv.dest ++ rest }, ?_, rfl, ?_⟩
        · apply Relation.ReflTransGen.single
          refine ⟨.write rest.length, ?_⟩
          simp [Group.recvStep, RecvLoop.write, hp, hpos]
        · simp [workLeft, hp]
    obtain ⟨r1, hrun, hw, hsame⟩ := hall
    obtain ⟨r2, hr2, hlt, hne⟩ := written_workLeft hw
    refine ⟨r2, hrun.tail ⟨.written, ?_⟩, hne, Or.inr (hsame ▸ hlt)⟩
    simp [Group.recvStep, hr2]

/-- Runs of the receive loop are tracked. -/
theorem Tracks.recvRun {g g' : Group k} {a : Reorder (Fin k)} (h : Tracks g a) (hx : Exact g)
    (hrun : RecvRun g g') : ∃ a', Tracks g' a' := by
  have hboth : Exact g' ∧ ∃ a', Tracks g' a' := by
    induction hrun with
    | refl => exact ⟨hx, a, h⟩
    | tail _ hs ih =>
      obtain ⟨l, hl⟩ := hs
      obtain ⟨hx1, a1, h1⟩ := ih
      refine ⟨?_, h1.recvStep hx1 hl⟩
      rw [recvStep_frame hl]
      exact hx1
  exact hboth.2

/-- **The receive loop comes to its end**, whatever is queued and parked. -/
theorem Tracks.drains {g : Group k} {a : Reorder (Fin k)} (h : Tracks g a) (hx : Exact g)
    (hc : g.EndedCleanly) (hf : g.recv.phase ≠ .failed) :
    ∃ r a', RecvRun g { g with recv := r } ∧ r.phase = .done ∧
      Tracks { g with recv := r } a' := by
  -- by induction on the work left
  generalize hw : workLeft g.recv = w
  induction w using Nat.strong_induction_on generalizing g a with
  | _ w ih =>
    by_cases hd : g.recv.phase = .done
    · exact ⟨g.recv, a, Relation.ReflTransGen.refl, hd, h⟩
    · obtain ⟨r, hrun, hne, hcase⟩ := h.advance hc hd hf
      obtain ⟨a1, h1⟩ := h.recvRun hx hrun
      rcases hcase with hdone | hlt
      · exact ⟨r, a1, hrun, hdone, h1⟩
      · obtain ⟨r2, a2, hrun2, hdone, h2⟩ :=
          ih (workLeft r) (hw ▸ hlt) h1 hx hc hne rfl
        exact ⟨r2, a2, hrun.trans hrun2, hdone, h2⟩

/-! ## 4. Runs of single bytes

The pieces of two explicit runs: a chunk of one byte goes onto a stripe in one write, a frame
goes from its stripe into the queue, the frame that is due is written, and the group ends. -/

/-- The chunk of the explicit runs. -/
def oneByte : Bytes := [0]

theorem reach_step {g g' : Group k} (h : (stripeGroup k).Reach g) (l : Group.Label k)
    (hs : g.step l = some g') : (stripeGroup k).Reach g' :=
  Lts.Reach.step h hs

/-- A stripe with nothing committed takes a frame in one write. -/
theorem poll_whole {g : Group k} {frame : Bytes} (hp : g.send.phase = .sending frame)
    (hc : g.send.committed = fun _ => 0) (hpos : 0 < frame.length) :
    g.poll (.ready frame.length) = some { g with
      send := ⟨g.send.seq + 1, g.idx + 1, fun _ => 0, 0, .reading⟩
      stripes := g.put g.idx frame } := by
  have hoff : g.send.committed g.idx = 0 := by rw [hc]
  have hupd : update g.send.committed g.idx 0 = fun _ => 0 := by
    rw [hc]
    exact update_eq_self _ _
  have hacc : g.accepted frame frame.length = { g with
      send := ⟨g.send.seq + 1, g.idx + 1, fun _ => 0, 0, .reading⟩
      stripes := g.put g.idx frame } := by
    rw [Group.accepted, hoff, hupd, if_pos (Nat.zero_add _), List.drop_zero, List.take_length]
  unfold Group.poll
  simp only [hp, hoff, hacc]
  rw [if_neg (by omega), if_pos (by omega)]

/-- A group between two frames. -/
def between (reads : List Bytes) (seq : U64) (next : Nat) (stripes : Fin k → Channel)
    (recv : RecvLoop) : Group k :=
  ⟨reads, ⟨seq, next, fun _ => 0, 0, .reading⟩, stripes, recv⟩

section Runs

variable {reads : List Bytes} {seq : U64} {next : Nat} {stripes : Fin k → Channel}
  {recv : RecvLoop}

/-- A chunk is read and framed, and its stripe takes the frame whole. -/
theorem reach_sendByte {i : Fin k} (hi : Fin.ofNat k next = i)
    (h : (stripeGroup k).Reach (between reads seq next stripes recv)) :
    (stripeGroup k).Reach (between (reads ++ [oneByte]) (seq + 1) (i + 1)
      (update stripes i { stripes i with
        unread := (stripes i).unread ++ frameOf seq oneByte }) recv) := by
  subst hi
  have hread : Group.step (between reads seq next stripes recv) (.send (.read oneByte))
      = some ⟨reads ++ [oneByte],
          ⟨seq, next, fun _ => 0, 0, .sending (frameOf seq oneByte)⟩, stripes, recv⟩ := by
    rw [Group.step, Group.sendStep, if_pos ⟨rfl, by decide⟩]
    rfl
  have hpos : 0 < (frameOf seq oneByte).length := by
    rw [frameOf_length]
    decide
  have h1 := reach_step h _ hread
  refine reach_step h1 (.send (.poll (.ready (frameOf seq oneByte).length))) ?_
  have hpoll := poll_whole (g := ⟨reads ++ [oneByte],
    ⟨seq, next, fun _ => 0, 0, .sending (frameOf seq oneByte)⟩, stripes, recv⟩) rfl rfl hpos
  exact hpoll

/-- A frame at the front of a stripe goes into the empty queue. -/
theorem reach_fetch {i : Fin k} {name : U64} {bytes dest : Bytes} {turn : U64}
    (hi : stripes i = ⟨frameOf name bytes, false, .reading⟩) (hlen : bytes.length < 65536)
    (h : (stripeGroup k).Reach
      (between reads seq next stripes ⟨turn, [], [], .waiting, dest⟩)) :
    (stripeGroup k).Reach (between reads seq next (update stripes i ⟨[], false, .reading⟩)
      ⟨turn, [], [.frame name bytes], .waiting, dest⟩) := by
  have htake : Group.step (between reads seq next stripes ⟨turn, [], [], .waiting, dest⟩)
      (.read i .frame) = some (between reads seq next
        (update stripes i ⟨[], false, .holding (.frame name bytes)⟩)
        ⟨turn, [], [], .waiting, dest⟩) := by
    have hread := readFrame_frameOf name hlen []
    rw [List.append_nil] at hread
    simp [Group.step, Group.readStep, Group.setStripe, between, hi, hread]
  have h1 := reach_step h _ htake
  refine reach_step h1 (.read i .push) ?_
  simp [Group.step, Group.readStep, Group.push, Group.recvOver, Group.setStripe, between,
    stripeReorderQueue, Group.afterSend]

/-- The frame that is due is written, and nothing is parked behind it. -/
theorem reach_deliver {bytes dest : Bytes} {turn : U64} (hb : 0 < bytes.length)
    (h : (stripeGroup k).Reach (between reads seq next stripes
      ⟨turn, [], [.frame turn bytes], .waiting, dest⟩)) :
    (stripeGroup k).Reach (between reads seq next stripes
      ⟨turn + 1, [], [], .waiting, dest ++ bytes⟩) := by
  have hevent : Group.step (between reads seq next stripes
      ⟨turn, [], [.frame turn bytes], .waiting, dest⟩) (.recv .event)
      = some (between reads seq next stripes ⟨turn, [], [], .writing bytes, dest⟩) := by
    simp [Group.step, Group.recvStep, RecvLoop.event, RecvLoop.frame, between]
  have hwrite : Group.step (between reads seq next stripes
      ⟨turn, [], [], .writing bytes, dest⟩) (.recv (.write bytes.length))
      = some (between reads seq next stripes ⟨turn, [], [], .writing [], dest ++ bytes⟩) := by
    simp [Group.step, Group.recvStep, RecvLoop.write, between, hb]
  have h2 := reach_step (reach_step h _ hevent) _ hwrite
  refine reach_step h2 (.recv .written) ?_
  simp [Group.step, Group.recvStep, RecvLoop.written, between]

/-- A frame that is neither due nor early is dropped. -/
theorem reach_drop {name : U64} {bytes dest : Bytes} {turn : U64} (hlt : name < turn)
    (h : (stripeGroup k).Reach (between reads seq next stripes
      ⟨turn, [], [.frame name bytes], .waiting, dest⟩)) :
    (stripeGroup k).Reach (between reads seq next stripes ⟨turn, [], [], .waiting, dest⟩) := by
  refine reach_step h (.recv .event) ?_
  have h1 : name ≠ turn := by
    intro he
    rw [he] at hlt
    exact absurd hlt (BitVec.lt_irrefl _)
  have h2 : ¬ turn < name := by
    intro hgt
    exact absurd (BitVec.lt_trans hlt hgt) (BitVec.lt_irrefl _)
  simp [Group.step, Group.recvStep, RecvLoop.event, RecvLoop.frame, between, h1, h2]

end Runs

/-- A stripe with nothing on it. -/
def idle : Channel := ⟨[], false, .reading⟩

/-- A group of two stripes that is through with `n` chunks. -/
def quiet (n next : Nat) : Group 2 :=
  between (List.replicate n oneByte) (BitVec.ofNat 64 n) next (fun _ => idle)
    ⟨BitVec.ofNat 64 n, [], [], .waiting, List.replicate n 0⟩

/-- One chunk more, through and through. -/
theorem reach_quiet_succ {n next : Nat} (h : (stripeGroup 2).Reach (quiet n next)) :
    ∃ next', (stripeGroup 2).Reach (quiet (n + 1) next') := by
  obtain ⟨i, hi⟩ : ∃ i, Fin.ofNat 2 next = i := ⟨_, rfl⟩
  have h1 := reach_sendByte hi h
  have h2 := reach_fetch (update_self i _ _) (by decide) h1
  have h3 := reach_deliver (by decide) h2
  have hst : update (update (fun _ : Fin 2 => idle) i { idle with
      unread := idle.unread ++ frameOf (BitVec.ofNat 64 n) oneByte }) i idle = fun _ => idle := by
    rw [update_idem]
    exact update_eq_self _ _
  refine ⟨i + 1, ?_⟩
  rw [quiet, List.replicate_succ', List.replicate_succ', BitVec.ofNat_add]
  rw [← hst]
  exact h3

/-- A group with nothing on its way ends: the source, the stripes, the receive loop. -/
theorem reach_end {reads : List Bytes} {seq turn : U64} {next : Nat} {dest : Bytes}
    (h : (stripeGroup 2).Reach
      (between reads seq next (fun _ => idle) ⟨turn, [], [], .waiting, dest⟩)) :
    ∃ g, (stripeGroup 2).Reach g ∧ g.SourceEnded ∧ g.EndedCleanly ∧ g.recv.phase = .done ∧
      g.reads = reads ∧ g.recv.dest = dest := by
  have heof := reach_step h (.send .readEof) (by rfl)
  have hs0 := reach_step heof (.send (.shutdown true)) (by rfl)
  have hs1 := reach_step hs0 (.send (.shutdown true)) (by rfl)
  have hr0 := reach_step hs1 (.read 0 .endOfStripe) (by rfl)
  have hr1 := reach_step hr0 (.read 1 .endOfStripe) (by rfl)
  have hend := reach_step hr1 (.recv (.close true)) (by rfl)
  refine ⟨_, hend, Or.inr rfl, ?_, rfl, rfl, rfl⟩
  intro i
  match i with
  | 0 => rfl
  | 1 => rfl

theorem reach_quiet (n : Nat) : ∃ next, (stripeGroup 2).Reach (quiet n next) := by
  induction n with
  | zero => exact ⟨0, Lts.Reach.init rfl⟩
  | succ n ih =>
    obtain ⟨next, h⟩ := ih
    exact reach_quiet_succ h

/-! ## 5. The round trip -/

/-- **The stripe round trip.**  For every number of stripes, every sequence of reads, every
answer of the stripes' writers and every interleaving: the destination holds a prefix of the
source; and once the source ended and every stripe ended cleanly, a receive loop that returned
has written the whole of it, and one that has not failed can run to that end by itself. -/
theorem stripe_round_trip {g : Group k} (h : (stripeGroup k).Reach g)
    (hx : k = 1 ∨ g.reads.length ≤ 2 ^ 64) :
    g.recv.dest <+: g.source ∧
      (g.SourceEnded → g.EndedCleanly →
        (g.recv.phase = .done → g.recv.dest = g.source) ∧
        (g.recv.phase ≠ .failed → ∃ g', RecvRun g g' ∧ g'.recv.phase = .done ∧
          g'.source = g.source ∧ g'.recv.dest = g.source)) := by
  obtain ⟨a, ha⟩ := tracked h hx
  refine ⟨ha.dest_prefix, fun hs hc => ⟨ha.dest_eq hs hc, fun hf => ?_⟩⟩
  obtain ⟨r, a', hrun, hdone, ht⟩ := ha.drains hx hc hf
  exact ⟨{ g with recv := r }, hrun, hdone, rfl, ht.dest_eq hs hc hdone⟩

theorem stripe_round_trip_two_bytes :
    ∃ g : Group 2, (stripeGroup 2).Reach g ∧ g.reads.length ≤ 2 ^ 64 ∧ g.SourceEnded ∧
      g.EndedCleanly ∧ g.recv.phase = .done ∧ g.recv.dest = [0, 0] ∧ g.recv.dest = g.source := by
  obtain ⟨next, h⟩ := reach_quiet 2
  obtain ⟨g, hg, hs, hc, hd, hr, hdest⟩ := reach_end h
  have hlen : g.reads.length ≤ 2 ^ 64 := by
    rw [hr]
    decide
  refine ⟨g, hg, hlen, hs, hc, hd, hdest, ?_⟩
  exact ((stripe_round_trip hg (Or.inr hlen)).2 hs hc).1 hd

/-! ## 6. Two stripes, one chunk too many -/

/-- The second frame overtakes the first: two chunks on two stripes, the receive loop takes the
second one for a duplicate. -/
theorem reach_overtaken {n next : Nat} (hn : n + 1 = 2 ^ 64)
    (h : (stripeGroup 2).Reach (quiet n next)) :
    ∃ next', (stripeGroup 2).Reach (between (List.replicate (n + 2) oneByte)
      (BitVec.ofNat 64 (n + 2)) next' (fun _ => idle)
      ⟨BitVec.ofNat 64 (n + 1), [], [], .waiting, List.replicate (n + 1) 0⟩) := by
  obtain ⟨i, hi⟩ : ∃ i, Fin.ofNat 2 next = i := ⟨_, rfl⟩
  have hj : Fin.ofNat 2 (i + 1) = i + 1 := by
    match i with
    | 0 => rfl
    | 1 => rfl
  have hne : i + 1 ≠ i := by
    match i with
    | 0 => decide
    | 1 => decide
  have h1 := reach_sendByte hi h
  have h2 := reach_sendByte hj h1
  rw [update_of_ne hne] at h2
  have hwrap : BitVec.ofNat 64 n + 1 < BitVec.ofNat 64 n := by
    have hzero : BitVec.ofNat 64 n + 1 = 0 := by
      have hadd : BitVec.ofNat 64 n + 1 = BitVec.ofNat 64 (n + 1) := (BitVec.ofNat_add ..).symm
      rw [hadd, hn]
      decide
    rw [hzero, BitVec.lt_def, BitVec.toNat_ofNat, Nat.mod_eq_of_lt (by omega)]
    change 0 < n
    omega
  have h3 := reach_drop hwrap (reach_fetch (update_self (i + 1) _ _) (by decide) h2)
  have hfirst : ∀ c d : Channel, update (update (update (fun _ => idle) i c) (i + 1) d) (i + 1)
      ⟨[], false, .reading⟩ i = c := by
    intro c d
    rw [update_of_ne hne.symm, update_of_ne hne.symm, update_self]
  have h4 := reach_deliver (by decide) (reach_fetch (hfirst _ _) (by decide) h3)
  have hst : ∀ c d : Channel, update (update (update (update (fun _ => idle) i c) (i + 1) d)
      (i + 1) ⟨[], false, .reading⟩) i ⟨[], false, .reading⟩ = fun _ => idle := by
    intro c d
    funext j
    by_cases hji : j = i
    · rw [hji, update_self]
      rfl
    · have hj1 : j = i + 1 := by
        match i, j with
        | 0, 0 => exact absurd rfl hji
        | 0, 1 => rfl
        | 1, 0 => rfl
        | 1, 1 => exact absurd rfl hji
      rw [update_of_ne hji, hj1, update_self]
      rfl
  rw [hst] at h4
  have hseq : BitVec.ofNat 64 n + 1 + 1 = BitVec.ofNat 64 (n + 2) := by
    rw [BitVec.ofNat_add, BitVec.add_assoc]
    rfl
  rw [hseq] at h4
  refine ⟨(i + 1 : Fin 2) + 1, ?_⟩
  rw [List.replicate_succ', List.replicate_succ', List.replicate_succ', BitVec.ofNat_add n 1]
  exact h4

/-- **The round trip fails where the names run out.**  Two stripes, `2 ^ 64 + 1` chunks of one
byte: every stripe ends cleanly, the receive loop returns, and one byte is missing. -/
theorem stripe_round_trip_wraps :
    ∃ g : Group 2, (stripeGroup 2).Reach g ∧ g.SourceEnded ∧ g.EndedCleanly ∧
      g.recv.phase = .done ∧ g.recv.dest ≠ g.source := by
  obtain ⟨next, h⟩ := reach_quiet (2 ^ 64 - 1)
  obtain ⟨next', h'⟩ := reach_overtaken (by decide) h
  obtain ⟨g, hg, hs, hc, hd, hr, hdest⟩ := reach_end h'
  refine ⟨g, hg, hs, hc, hd, ?_⟩
  intro he
  have hlen := congrArg List.length he
  rw [hdest, Group.source, hr, List.length_replicate, List.length_flatten, List.map_replicate,
    List.sum_replicate] at hlen
  simp [oneByte] at hlen

end Molehill.Stripe
