/-
# Whole polls

The rest of this development takes a write and a shutdown as one step, and a read as two: the
delivery with the window update, and the look for the end.  Here whole polls are justified: a run
access by access is, at every moment, what whole polls would have made of the stream, once the poll
in progress is credited with what it is bound to do (`Pc.finish`).  `poll_atomic` is the simulation:
each access is no step of the atomic system or the one step its poll is.

Two interleavings have to be left out, and both are faults of the code.  `poll_read` gives up the
lock between the delivery and its look at the end, so a read may report the end in front of bytes
that came in between (`read_ends_early`; without that it never does, `read_ends_after_bytes`).
`poll_shutdown` looks at the state before it looks at the channel, so a close may be queued for a
stream that was reset in between.
-/
import Molehill.Mux.Polls

namespace Molehill.Mux

open Function Lib

/-! ## 1. The end comes after the bytes -/

namespace Polled

/-- No bytes arrive while a read is between its two looks at the stream. -/
def Undisturbed (t : Polled) : Next → Prop
  | .hear (.data body _) => body = [] ∨ t.pc.reads = false
  | _ => True

variable {t t' : Polled} {cfg : Config} {id : StreamId}

/-- While a read that had room and delivered nothing goes on, the buffer is empty, and no read has
reported the end in front of bytes. -/
structure EndInv (t : Polled) : Prop where
  cut : t.cut = false
  empty : ∀ cap, 0 < cap → t.pc.delivered = some (cap, 0) → t.s.buffer = []

namespace EndInv

theorem keep (h : t.EndInv) (hpc : t'.pc.delivered = none ∨ t'.pc.delivered = t.pc.delivered)
    (hbuf : t'.s.buffer = t.s.buffer) (hcut : t'.cut = t.cut) : t'.EndInv where
  cut := hcut.trans h.cut
  empty cap hcap hd := by
    rw [hbuf]
    rcases hpc with hpc | hpc
    · rw [hpc] at hd
      cases hd
    · exact h.empty cap hcap (hpc ▸ hd)

theorem advance {accumulated : Nat} {fast : Bool} (h : t.EndInv)
    (hs : t.advance cfg id accumulated fast = some t') : t'.EndInv := by
  unfold Polled.advance at hs
  cases hpc : t.pc with
  | idle =>
    rw [hpc] at hs
    cases hs
  | lockWrite buf =>
    rw [hpc] at hs
    cases hs
    unfold lockWrite
    split
    · exact h.keep (Or.inl rfl) rfl rfl
    split
    · exact h.keep (Or.inl rfl) rfl rfl
    · dsimp only
      rw [Stream.addFlag_eq]
      refine h.keep (Or.inl ?_) rfl rfl
      dsimp only
      split <;> rfl
  | ackWrite f | parkWriter | unparkWriter | stateShutdown =>
    rw [hpc] at hs
    cases hs
    exact h.keep (Or.inl rfl) rfl rfl
  | sendWrite f =>
    rw [hpc] at hs
    cases hs
    exact h.keep (Or.inl rfl) (t.trySend_kept _).buffer rfl
  | recheckWriter | capacityShutdown =>
    rw [hpc] at hs
    cases hs
    split
    · exact h.keep (Or.inl rfl) rfl rfl
    · exact h.keep (Or.inl rfl) rfl rfl
  | sendShutdown ack =>
    rw [hpc] at hs
    cases hs
    refine h.keep (Or.inl ?_) (t.trySend_kept _).buffer rfl
    dsimp only
    split <;> rfl
  | stateRead cap n | capacityRead cap n | recheckReader cap n =>
    rw [hpc] at hs
    cases hs
    refine h.keep (Or.inr ?_) rfl rfl
    rw [hpc]
    dsimp only
    split <;> rfl
  | grantRead cap n =>
    rw [hpc] at hs
    cases hs
    obtain ⟨hg, -⟩ | ⟨s', f, hg, hk, -⟩ := grantRead_cases cfg id accumulated fast cap n t
    · rw [hg]
      exact h.keep (Or.inr (by rw [hpc]; rfl)) rfl rfl
    · rw [hg]
      exact h.keep (Or.inr (by rw [hpc]; rfl)) hk.buffer rfl
  | sendRead cap n f =>
    rw [hpc] at hs
    cases hs
    have hd : (if t.closed then Pc.idle else .endRead cap n).delivered = none ∨
        (if t.closed then Pc.idle else .endRead cap n).delivered = t.pc.delivered := by
      rw [hpc]
      split
      · exact Or.inl rfl
      · exact Or.inr rfl
    exact h.keep hd (t.trySend_kept _).buffer rfl
  | parkReader cap n | unparkReader cap n =>
    rw [hpc] at hs
    cases hs
    exact h.keep (Or.inr (by rw [hpc]; rfl)) rfl rfl
  | endRead cap n =>
    rw [hpc] at hs
    cases hs
    unfold endRead
    split
    · exact h.keep (Or.inl rfl) rfl rfl
    next hn =>
    split
    · -- the read had delivered nothing, so there is nothing in the buffer
      refine ⟨?_, fun cap _ hd => (by cases hd)⟩
      dsimp only
      rw [h.cut, Bool.false_or, Bool.and_eq_false_iff]
      by_cases hcap : 0 < cap
      · have hzero : n = 0 := by omega
        have hbuf := h.empty cap hcap (by rw [hpc, hzero]; rfl)
        exact Or.inr (by rw [hbuf]; rfl)
      · exact Or.inl (decide_eq_false hcap)
    split
    · exact h.keep (Or.inl rfl) rfl rfl
    · exact h.keep (Or.inl rfl) rfl rfl

theorem begin {call : Call} (h : t.EndInv) (hs : t.begin call = some t') : t'.EndInv := by
  unfold Polled.begin at hs
  split at hs
  · cases hs
  cases call with
  | write buf =>
    cases hs
    refine h.keep (Or.inl ?_) rfl rfl
    dsimp only
    split <;> rfl
  | shutdown =>
    cases hs
    refine h.keep (Or.inl ?_) rfl rfl
    dsimp only
    split <;> rfl
  | read cap =>
    cases hs
    refine ⟨h.cut, fun cap' hcap hd => ?_⟩
    obtain ⟨rfl, hmin⟩ : cap = cap' ∧ min cap t.s.buffer.length = 0 := by
      simpa [Pc.delivered] using hd
    have hlen : t.s.buffer.length = 0 := by omega
    change t.s.buffer.drop cap = []
    rw [List.length_eq_zero_iff.mp hlen, List.drop_nil]

theorem hear {e : Heard} (h : t.EndInv) (hu : t.Undisturbed (.hear e))
    (hs : t.hear e = some t') : t'.EndInv := by
  unfold Polled.hear at hs
  split at hs
  · cases hs
  obtain ⟨s1, hs1, rfl⟩ := Option.map_eq_some_iff.mp hs
  cases e with
  | ack =>
    cases hs1
    exact h.keep (Or.inr rfl) rfl rfl
  | data body fin =>
    unfold Stream.heard at hs1
    dsimp only at hs1
    split at hs1
    · cases hs1
    cases hs1
    rcases hu with rfl | hu
    · refine h.keep (Or.inr rfl) ?_ rfl
      cases fin <;> simp [Stream.absorb, Stream.finish]
    · refine ⟨h.cut, fun cap hcap hd => ?_⟩
      change t.pc.delivered = _ at hd
      rw [Pc.reads_of_delivered hd] at hu
      cases hu
  | credit n fin =>
    unfold Stream.heard at hs1
    dsimp only at hs1
    split at hs1
    · cases hs1
    cases hs1
    refine h.keep (Or.inr rfl) ?_ rfl
    cases fin <;> rfl
  | reset =>
    cases hs1
    exact h.keep (Or.inr rfl) rfl rfl

theorem step {a : Next} (h : t.EndInv) (hu : t.Undisturbed a)
    (hs : t.step cfg id a = some t') : t'.EndInv := by
  cases a with
  | begin call => exact h.begin hs
  | advance accumulated fast => exact h.advance hs
  | hear e => exact h.hear hu hs
  | pop =>
    unfold Polled.step Polled.pop at hs
    dsimp only at hs
    split at hs <;> cases hs
    exact h.keep (Or.inr rfl) rfl rfl
  | settle =>
    unfold Polled.step Polled.settle at hs
    dsimp only at hs
    split at hs <;> cases hs
    · exact h.keep (Or.inr rfl) rfl rfl
    · exact h.keep (Or.inr rfl) rfl rfl
  | dropAll =>
    unfold Polled.step Polled.dropAll at hs
    dsimp only at hs
    split at hs <;> cases hs
    exact h.keep (Or.inr rfl) rfl rfl
  | drain =>
    unfold Polled.step Polled.drain at hs
    dsimp only at hs
    split at hs <;> cases hs
    exact h.keep (Or.inr rfl) rfl rfl

end EndInv

end Polled

/-- **The end comes after the bytes**, in every run in which no bytes arrive while a read is
between its two looks at the stream. -/
theorem read_ends_after_bytes {cfg : Config} {id : StreamId} {t : Polled}
    (h : ((polls cfg id).restrict Polled.Undisturbed).Reach t) : t.cut = false := by
  have hinv : t.EndInv := by
    refine h.invariant ?_ fun t a t' hi hs => hi.step hs.1 hs.2
    rintro t ⟨flag, sendWindow, rfl⟩
    exact ⟨rfl, fun cap _ hd => (by cases hd)⟩
  exact hinv.cut

instance (t : Polled) (a : Polled.Next) : Decidable (t.Undisturbed a) :=
  match a with
  | .hear (.data _ _) => inferInstanceAs (Decidable (_ ∨ _))
  | .hear .ack => isTrue trivial
  | .hear (.credit _ _) => isTrue trivial
  | .hear .reset => isTrue trivial
  | .begin _ => isTrue trivial
  | .advance _ _ => isTrue trivial
  | .pop => isTrue trivial
  | .settle => isTrue trivial
  | .dropAll => isTrue trivial
  | .drain => isTrue trivial

/-- A stream's last byte, read before its end. -/
def endAfterBytes : List Polled.Next :=
  [.hear (.data [7] false), .settle, .begin (.read 16), .hear (.data [] true), .settle,
    .advance 0 false, .advance 0 false, .begin (.read 16), .advance 0 false, .advance 0 false]

/-- A read that reports the end when it has everything. -/
theorem read_ends_after_bytes_one :
    ∃ t : Polled, ((polls tunnelConfig 1).restrict Polled.Undisturbed).Reach t ∧
      t.s.eof = true ∧ t.s.readOut = [7] ∧ t.cut = false := by
  have hrun : (Lts.runWith (Polled.step tunnelConfig 1) (fun t a => decide (t.Undisturbed a))
      (.new .none defaultCredit) endAfterBytes).any (fun t =>
        t.s.eof && t.s.readOut == [7]) = true := by
    decide +kernel
  obtain ⟨t, hreach, ht⟩ := Lts.Reach.exists_runWith (T := polls tunnelConfig 1)
    (C := Polled.Undisturbed) (fun _ _ _ hs => hs) (fun _ _ ho => of_decide_eq_true ho)
    ⟨.none, defaultCredit, rfl⟩ hrun
  simp only [Bool.and_eq_true, beq_iff_eq] at ht
  exact ⟨t, hreach, ht.1, ht.2, read_ends_after_bytes hreach⟩

/-- The last bytes of a stream and its end arrive while a read is at work. -/
def endInBetween : List Polled.Next :=
  [.begin (.read 16), .hear (.data [7] false), .settle, .hear (.data [] true), .settle,
    .advance 0 false, .advance 0 false]

/-- The read that began before the bytes reports the end in front of them. -/
theorem read_ends_early :
    ∃ t : Polled, (polls tunnelConfig 1).Reach t ∧ t.ended = false ∧ t.s.eof = true ∧
      t.s.readOut = [] ∧ t.s.buffer = [7] := by
  have hrun : (Lts.runWith (Polled.step tunnelConfig 1) (fun _ _ => true)
      (.new .none defaultCredit) endInBetween).any (fun t =>
        !t.ended && t.s.eof && t.s.readOut == [] && t.s.buffer == [7]) = true := by
    decide +kernel
  obtain ⟨t, hreach, ht⟩ := Lts.Reach.exists_run (T := polls tunnelConfig 1)
    (fun _ _ _ hs => hs) ⟨.none, defaultCredit, rfl⟩ hrun
  simp only [Bool.and_eq_true, Bool.not_eq_true', beq_iff_eq] at ht
  exact ⟨t, hreach, ht.1.1.1, ht.1.1.2, ht.1.2, ht.2⟩

/-! ## 2. What a poll in progress is bound to do -/

namespace Pc

/-- The state a poll in progress leaves. -/
def pendingState (pc : Pc) (st : State) : State :=
  match pc with
  | .ackWrite _ => st.update (.opened true)
  | .sendShutdown _ | .stateShutdown => st.update .sendClosed
  | _ => st

/-- The commands it still sends. -/
def pendingCommands : Pc → List StreamCommand
  | .ackWrite f | .sendWrite f | .sendRead _ _ f => [.sendFrame f]
  | .sendShutdown ack => [.closeStream ack]
  | _ => []

/-- Whether it queues the close. -/
def pendingShut : Pc → Bool
  | .sendShutdown _ | .stateShutdown => true
  | _ => false

/-- The bytes of a read that has not come to its window update: its poll is still to come. -/
def untaken (pc : Pc) (st : State) : Nat :=
  match pc with
  | .stateRead _ n | .capacityRead _ n | .grantRead _ n => if st.canRead then n else 0
  | _ => 0

/-- Whether a read is going to report the end. -/
def ending (pc : Pc) (st : State) : Bool :=
  match pc.delivered with
  | some (cap, 0) => decide (0 < cap) && !st.canRead
  | _ => false

/-- While its end of the stream is open a read reports no end. -/
theorem ending_of_open (pc : Pc) {st : State} (h : st.canRead = true) : pc.ending st = false := by
  rw [ending]
  split
  · rw [h, Bool.not_true, Bool.and_false]
  · rfl

/-- **The stream once the poll in progress is done**, or has not begun. -/
def finish (pc : Pc) (s : Stream) : Stream :=
  { s with
    state := pc.pendingState s.state
    channel := s.channel ++ pc.pendingCommands
    shut := s.shut || pc.pendingShut
    buffer := s.readOut.drop (s.readOut.length - pc.untaken s.state) ++ s.buffer
    readOut := s.readOut.take (s.readOut.length - pc.untaken s.state)
    eof := s.eof || pc.ending s.state }

/-- A poll with nothing left to do. -/
theorem finish_of_quiet {pc : Pc} {s : Stream} (hst : pc.pendingState s.state = s.state)
    (hc : pc.pendingCommands = []) (hsh : pc.pendingShut = false) (hu : pc.untaken s.state = 0)
    (he : pc.ending s.state = false) : pc.finish s = s := by
  rw [finish, hst, hc, hsh, hu, he]
  simp

/-- Polls with the same left to do. -/
theorem finish_congr {pc pc' : Pc} {s : Stream}
    (hst : pc'.pendingState s.state = pc.pendingState s.state)
    (hc : pc'.pendingCommands = pc.pendingCommands) (hsh : pc'.pendingShut = pc.pendingShut)
    (hu : pc'.untaken s.state = pc.untaken s.state)
    (he : pc'.ending s.state = pc.ending s.state) : pc'.finish s = pc.finish s := by
  rw [finish, finish, hst, hc, hsh, hu, he]

end Pc

/-! ## 3. The atomic system -/

/-- A whole poll, a command that is taken, a frame. -/
inductive Whole
  | write (buf : List UInt8)
  | shutdown
  | read (cap accumulated : Nat) (fast : Bool)
  | pop
  | hear (h : Heard)

/-- The delivery and the look for the end of a read that is not interrupted between them. -/
def Stream.deliver (s : Stream) (cap : Nat) : Stream :=
  { s with
    buffer := s.buffer.drop cap
    readOut := s.readOut ++ s.buffer.take cap
    eof := s.eof || (decide (0 < cap) && s.buffer.isEmpty && !s.state.canRead) }

/-- What the stream makes of it: a write and a shutdown as the connection's model has them, a read
without the gap between its two locks. -/
def Stream.whole (cfg : Config) (id : StreamId) (s : Stream) : Whole → Option Stream
  | .write buf => (s.pollWrite cfg id buf).map Prod.fst
  | .shutdown => (s.pollShutdown id).map Prod.fst
  | .read cap accumulated fast =>
    some ((s.deliver cap).sendWindowUpdate cfg accumulated fast id).1
  | .pop => if s.channel.isEmpty then none else some s.popped
  | .hear h => s.heard h

/-- **One stream, poll by poll.** -/
def wholePolls (cfg : Config) (id : StreamId) : Lts Stream Whole where
  init s := ∃ flag sendWindow, s = .new flag sendWindow
  step s a s' := s.whole cfg id a = some s'

/-- What ends a direction of the stream. -/
def Heard.ends : Heard → Bool
  | .data _ fin => fin
  | .credit _ fin => fin
  | .reset => true
  | .ack => false

/-- The part of a read in which its end of the stream is known to be open. -/
def Pc.grants : Pc → Bool
  | .capacityRead _ _ | .grantRead _ _ | .sendRead _ _ _ => true
  | .parkReader _ _ | .recheckReader _ _ | .unparkReader _ _ => true
  | _ => false

theorem Pc.delivered_of_grants {pc : Pc} (h : pc.grants = true) : ∃ p, pc.delivered = some p := by
  cases pc with
  | capacityRead cap n | grantRead cap n | sendRead cap n _ => exact ⟨_, rfl⟩
  | parkReader cap n | recheckReader cap n | unparkReader cap n => exact ⟨_, rfl⟩
  | _ => cases h

namespace Polled

/-- Neither direction of the stream ends while a read is at work, or a shutdown between its look at
the state and its look at the channel. -/
def Apart (t : Polled) : Next → Prop
  | .hear e => e.ends = true → t.pc.reads = false ∧ t.pc ≠ .capacityShutdown
  | _ => True

instance (t : Polled) (a : Next) : Decidable (t.Apart a) :=
  match a with
  | .hear e => inferInstanceAs (Decidable (e.ends = true → _))
  | .begin _ => isTrue trivial
  | .advance _ _ => isTrue trivial
  | .pop => isTrue trivial
  | .settle => isTrue trivial
  | .dropAll => isTrue trivial
  | .drain => isTrue trivial

/-- What a poll in progress rests on. -/
structure Steady (t : Polled) : Prop where
  opened : t.closed = false
  roomWrite : ∀ buf, t.pc = .lockWrite buf → t.s.channel.length < channelDepth
  roomRead : ∀ cap n, t.pc = .grantRead cap n → t.s.channel.length < channelDepth
  taken : ∀ cap n, t.pc.delivered = some (cap, n) → n ≤ t.s.readOut.length
  readable : t.pc.grants = true → t.s.state.canRead = true
  unclosed : t.pc = .capacityShutdown → t.s.state ≠ .closed

/-- The stream with the poll in progress done, or not begun. -/
def whole (t : Polled) : Stream := t.pc.finish t.s

/-- One access: no step of the atomic system, or the step its poll is. -/
def Answered (cfg : Config) (id : StreamId) (t t' : Polled) : Prop :=
  t'.whole = t.whole ∨ ∃ a, t.whole.whole cfg id a = some t'.whole

variable {t t' : Polled} {cfg : Config} {id : StreamId}

theorem whole_of_idle {pc : Pc} (hpc : t.pc = pc) (hc : pc.pendingCommands = [])
    (hsh : pc.pendingShut = false) (hst : pc.pendingState t.s.state = t.s.state)
    (hu : pc.untaken t.s.state = 0) (he : pc.ending t.s.state = false) : t.whole = t.s := by
  rw [whole, hpc]
  exact Pc.finish_of_quiet hst hc hsh hu he

/-- **A write takes its bytes**: here the whole poll happens. -/
theorem answered_lockWrite {buf : List UInt8} (h : t.Steady) (hpc : t.pc = .lockWrite buf) :
    Answered cfg id t (t.lockWrite cfg id buf) := by
  have hwhole : t.whole = t.s := whole_of_idle hpc rfl rfl rfl rfl rfl
  have hroom : ¬ channelDepth ≤ t.s.channel.length := Nat.not_le.mpr (h.roomWrite buf hpc)
  unfold lockWrite
  split
  · exact Or.inl ((whole_of_idle rfl rfl rfl rfl rfl rfl).trans hwhole.symm)
  split
  · exact Or.inl ((whole_of_idle rfl rfl rfl rfl rfl rfl).trans hwhole.symm)
  next hcw hsend =>
  refine Or.inr ⟨.write buf, ?_⟩
  rw [hwhole]
  unfold Stream.whole Stream.pollWrite
  dsimp only
  rw [if_neg hroom, if_neg hcw, if_neg hsend]
  simp only [Stream.addFlag_eq, Option.map_some, Option.some.injEq]
  rw [whole]
  cases hfl : t.s.flag == .ack with
  | false => simp [Frame.data, Pc.finish, Pc.pendingState, Pc.pendingCommands, Pc.pendingShut,
      Pc.untaken, Pc.ending, Pc.delivered, Stream.send]
  | true => simp [Frame.data, Pc.finish, Pc.pendingState, Pc.pendingCommands, Pc.pendingShut,
      Pc.untaken, Pc.ending, Pc.delivered, Stream.send]

/-- **A shutdown finds room**: here the whole poll happens. -/
theorem answered_capacityShutdown (h : t.Steady) (hpc : t.pc = .capacityShutdown)
    (hfull : ¬ t.full = true) {ack : Bool} (hack : ack = (t.s.flag == .ack)) :
    Answered cfg id t
      { t with
        s := { t.s with flag := if ack then .none else t.s.flag }
        pc := .sendShutdown ack } := by
  have hwhole : t.whole = t.s := whole_of_idle hpc rfl rfl rfl rfl rfl
  refine Or.inr ⟨.shutdown, ?_⟩
  rw [hwhole]
  have hroom : ¬ channelDepth ≤ t.s.channel.length := by simpa [full] using hfull
  unfold Stream.whole Stream.pollShutdown
  dsimp only
  rw [if_neg (h.unclosed hpc), if_neg hroom, ← hack]
  simp [whole, Pc.finish, Pc.pendingState, Pc.pendingCommands, Pc.pendingShut, Pc.untaken,
    Pc.ending, Pc.delivered, Stream.send]

/-- The bytes of a read that has not come to its window update go back. -/
theorem deliver_untaken {s : Stream} {n : Nat} (hn : n ≤ s.readOut.length) :
    ({ s with
        buffer := s.readOut.drop (s.readOut.length - n) ++ s.buffer
        readOut := s.readOut.take (s.readOut.length - n) } : Stream).deliver n = s := by
  have hlen : (s.readOut.drop (s.readOut.length - n)).length = n := by
    rw [List.length_drop]
    omega
  have hempty : (decide (0 < n) && (s.readOut.drop (s.readOut.length - n) ++ s.buffer).isEmpty) =
      false := by
    cases n with
    | zero => rfl
    | succ n =>
      have hne : (s.readOut.drop (s.readOut.length - (n + 1)) ++ s.buffer).isEmpty = false := by
        rw [List.isEmpty_eq_false_iff]
        intro hnil
        rw [(List.append_eq_nil_iff.mp hnil).1] at hlen
        cases hlen
      rw [hne, Bool.and_false]
  unfold Stream.deliver
  dsimp only
  rw [hempty, Bool.false_and, Bool.or_false, List.drop_left' hlen, List.take_left' hlen,
    List.take_append_drop]

/-- Before its window update a read has still to happen. -/
theorem whole_untaken {cap n : Nat} (hread : t.s.state.canRead = true)
    (hpc : t.pc = .capacityRead cap n ∨ t.pc = .grantRead cap n) :
    t.whole = { t.s with
      buffer := t.s.readOut.drop (t.s.readOut.length - n) ++ t.s.buffer
      readOut := t.s.readOut.take (t.s.readOut.length - n) } := by
  rw [whole, Pc.finish, Pc.ending_of_open _ hread]
  rcases hpc with hpc | hpc
  · rw [hpc]
    simp [Pc.pendingState, Pc.pendingCommands, Pc.pendingShut, Pc.untaken, hread]
  · rw [hpc]
    simp [Pc.pendingState, Pc.pendingCommands, Pc.pendingShut, Pc.untaken, hread]

/-- A read whose end of the stream is open, after its window update. -/
theorem whole_of_open {cap n : Nat} (hread : t.s.state.canRead = true)
    (hpc : t.pc = .parkReader cap n ∨ t.pc = .endRead cap n) : t.whole = t.s := by
  rcases hpc with hpc | hpc
  · exact whole_of_idle hpc rfl rfl rfl rfl (Pc.ending_of_open _ hread)
  · exact whole_of_idle hpc rfl rfl rfl rfl (Pc.ending_of_open _ hread)

/-- **A read meets the full channel**: the whole poll happens, without a window update. -/
theorem answered_capacityRead {cap n : Nat} (h : t.Steady) (hpc : t.pc = .capacityRead cap n)
    (hfull : t.full = true) : Answered cfg id t { t with pc := .parkReader cap n } := by
  have hread : t.s.state.canRead = true := h.readable (by rw [hpc]; rfl)
  have htaken : n ≤ t.s.readOut.length := h.taken cap n (by rw [hpc]; rfl)
  refine Or.inr ⟨.read n 0 false, ?_⟩
  rw [whole_untaken hread (Or.inl hpc),
    whole_of_open (t := { t with pc := .parkReader cap n }) hread (Or.inl rfl)]
  unfold Stream.whole
  dsimp only
  rw [deliver_untaken htaken, Stream.sendWindowUpdate, hread, if_neg (by simp),
    if_pos (of_decide_eq_true hfull)]

/-- **A read comes to its window update**: the whole poll happens. -/
theorem answered_grantRead {cap n accumulated : Nat} {fast : Bool} (h : t.Steady)
    (hpc : t.pc = .grantRead cap n) :
    Answered cfg id t (t.grantRead cfg id accumulated fast cap n) := by
  have hread : t.s.state.canRead = true := h.readable (by rw [hpc]; rfl)
  have htaken : n ≤ t.s.readOut.length := h.taken cap n (by rw [hpc]; rfl)
  have hroom : ¬ channelDepth ≤ t.s.channel.length := Nat.not_le.mpr (h.roomRead cap n hpc)
  refine Or.inr ⟨.read n accumulated fast, ?_⟩
  rw [whole_untaken hread (Or.inr hpc)]
  unfold Stream.whole grantRead
  dsimp only
  rw [deliver_untaken htaken, Stream.sendWindowUpdate, hread, if_neg (by simp), if_neg hroom]
  rcases hn : t.s.nextWindowUpdate cfg accumulated fast with _ | ⟨credit, s1, acc⟩
  · rw [whole_of_open (t := { t with pc := .endRead cap n }) hread (Or.inr rfl)]
  · obtain ⟨-, newMax, -, -, rfl⟩ := Stream.nextWindowUpdate_spec hn
    have hending : ∀ f, (Pc.sendRead cap n f).ending t.s.state = false := fun f =>
      Pc.ending_of_open _ hread
    simp only [Stream.addFlag_eq, whole, Pc.finish, hending]
    simp [Pc.pendingState, Pc.pendingCommands, Pc.pendingShut, Pc.untaken, Stream.send]

/-- What a live stream sends is sent. -/
theorem trySend_open (h : t.Steady) (cmd : StreamCommand) : t.trySend cmd = t.s.send cmd := by
  rw [trySend, h.opened, if_neg (by simp)]

/-- **The poll's next access.** -/
theorem answered_advance {accumulated : Nat} {fast : Bool} (h : t.Steady)
    (hs : t.advance cfg id accumulated fast = some t') : Answered cfg id t t' := by
  unfold Polled.advance at hs
  cases hpc : t.pc with
  | idle =>
    rw [hpc] at hs
    cases hs
  | lockWrite buf =>
    rw [hpc] at hs
    cases hs
    exact answered_lockWrite h hpc
  | ackWrite f =>
    rw [hpc] at hs
    cases hs
    refine Or.inl ?_
    simp [whole, hpc, Pc.finish, Pc.pendingState, Pc.pendingCommands, Pc.pendingShut, Pc.untaken,
      Pc.ending, Pc.delivered]
  | sendWrite f =>
    rw [hpc] at hs
    cases hs
    refine Or.inl ?_
    simp [whole, hpc, trySend_open h, Stream.send, Pc.finish, Pc.pendingState, Pc.pendingCommands,
      Pc.pendingShut, Pc.untaken, Pc.ending, Pc.delivered]
  | parkWriter | unparkWriter =>
    rw [hpc] at hs
    cases hs
    refine Or.inl ?_
    rw [whole, whole, hpc]
    rfl
  | recheckWriter =>
    rw [hpc] at hs
    cases hs
    refine Or.inl ?_
    split
    · rw [whole, whole, hpc]
      rfl
    · rw [whole, whole, hpc]
      rfl
  | capacityShutdown =>
    rw [hpc] at hs
    cases hs
    split
    · refine Or.inl ?_
      rw [whole, whole, hpc]
      rfl
    next hfull => exact answered_capacityShutdown h hpc hfull rfl
  | sendShutdown ack =>
    rw [hpc] at hs
    cases hs
    refine Or.inl ?_
    simp [whole, hpc, trySend_open h, h.opened, Stream.send, Pc.finish, Pc.pendingState,
      Pc.pendingCommands, Pc.pendingShut, Pc.untaken, Pc.ending, Pc.delivered]
  | stateShutdown =>
    rw [hpc] at hs
    cases hs
    refine Or.inl ?_
    simp [whole, hpc, Pc.finish, Pc.pendingState, Pc.pendingCommands, Pc.pendingShut, Pc.untaken,
      Pc.ending, Pc.delivered]
  | stateRead cap n =>
    rw [hpc] at hs
    cases hs
    refine Or.inl ?_
    rw [whole, whole, hpc]
    dsimp only
    split
    next hread => exact Pc.finish_congr rfl rfl rfl (by simp [Pc.untaken]) rfl
    next hread => exact Pc.finish_congr rfl rfl rfl (by simp [Pc.untaken, hread]) rfl
  | capacityRead cap n =>
    rw [hpc] at hs
    cases hs
    by_cases hfull : t.full = true
    · rw [if_pos hfull]
      exact answered_capacityRead h hpc hfull
    · rw [if_neg hfull]
      refine Or.inl ?_
      rw [whole, whole, hpc]
      rfl
  | grantRead cap n =>
    rw [hpc] at hs
    cases hs
    exact answered_grantRead h hpc
  | sendRead cap n f =>
    rw [hpc] at hs
    cases hs
    refine Or.inl ?_
    have hread : t.s.state.canRead = true := h.readable (by rw [hpc]; rfl)
    simp [whole, hpc, trySend_open h, h.opened, Stream.send, Pc.finish, Pc.pendingState,
      Pc.pendingCommands, Pc.pendingShut, Pc.untaken, Pc.ending_of_open _ hread]
  | parkReader cap n | unparkReader cap n =>
    rw [hpc] at hs
    cases hs
    refine Or.inl ?_
    rw [whole, whole, hpc]
    rfl
  | recheckReader cap n =>
    rw [hpc] at hs
    cases hs
    refine Or.inl ?_
    rw [whole, whole, hpc]
    dsimp only
    split
    · rfl
    · rfl
  | endRead cap n =>
    rw [hpc] at hs
    cases hs
    refine Or.inl ?_
    unfold endRead
    split
    next hn =>
      rw [whole, whole, hpc]
      refine Pc.finish_congr rfl rfl rfl rfl ?_
      cases n with
      | zero => cases hn
      | succ n => rfl
    next hn =>
    have hzero : n = 0 := by omega
    subst hzero
    split
    next hread =>
      simp only [Bool.not_eq_eq_eq_not, Bool.not_true] at hread
      simp [whole, hpc, Pc.finish, Pc.pendingState, Pc.pendingCommands, Pc.pendingShut, Pc.untaken,
        Pc.ending, Pc.delivered, hread]
    next hread =>
    have hread : t.s.state.canRead = true := by simpa using hread
    have hwhole : t.whole = t.s := whole_of_open hread (Or.inr hpc)
    split
    · exact (whole_of_idle rfl rfl rfl rfl rfl rfl).trans hwhole.symm
    · exact (whole_of_idle rfl rfl rfl rfl rfl rfl).trans hwhole.symm

/-- A read of an open end, which has still to happen. -/
theorem finish_copied {s : Stream} (hread : s.state.canRead = true) (cap : Nat) :
    (Pc.stateRead cap (min cap s.buffer.length)).finish (copied s cap) = s := by
  have hcopied : (copied s cap).state.canRead = true := hread
  rw [Pc.finish, Pc.ending_of_open _ hcopied]
  simp [Pc.pendingState, Pc.pendingCommands, Pc.pendingShut, Pc.untaken, copied, hread]

/-- A read at the end, which has happened. -/
theorem finish_copied_ended {s : Stream} (hread : s.state.canRead = false) (cap : Nat) :
    (Pc.stateRead cap (min cap s.buffer.length)).finish (copied s cap) = s.deliver cap := by
  have hend : (Pc.stateRead cap (min cap s.buffer.length)).ending s.state =
      (decide (0 < cap) && s.buffer.isEmpty) := by
    rw [Pc.ending, Pc.delivered]
    cases cap with
    | zero => cases s.buffer <;> simp
    | succ cap => cases s.buffer <;> simp [hread, Nat.succ_min_succ]
  have htake : (s.readOut ++ s.buffer.take cap).take
      (s.readOut.length + min cap s.buffer.length) = s.readOut ++ s.buffer.take cap := by
    rw [← List.length_take, ← List.length_append, List.take_length]
  simp [Pc.finish, Pc.pendingState, Pc.pendingCommands, Pc.pendingShut, Pc.untaken, copied, hread,
    Stream.deliver, hend, htake]

/-- **A call begins**: a read at the end of the stream happens here. -/
theorem answered_begin {call : Call} (hs : t.begin call = some t') : Answered cfg id t t' := by
  unfold Polled.begin at hs
  split at hs
  · cases hs
  next hpc =>
  have hidle : t.pc = .idle := by simpa using hpc
  have hwhole : t.whole = t.s := whole_of_idle hidle rfl rfl rfl rfl rfl
  cases call with
  | write buf =>
    cases hs
    refine Or.inl (Eq.trans ?_ hwhole.symm)
    cases hf : t.full with
    | true => exact whole_of_idle rfl rfl rfl rfl rfl rfl
    | false => exact whole_of_idle rfl rfl rfl rfl rfl rfl
  | shutdown =>
    cases hs
    refine Or.inl (Eq.trans ?_ hwhole.symm)
    by_cases hst : t.s.state = .closed
    · rw [if_pos hst]
      exact whole_of_idle rfl rfl rfl rfl rfl rfl
    · rw [if_neg hst]
      exact whole_of_idle rfl rfl rfl rfl rfl rfl
  | read cap =>
    cases hs
    cases hread : t.s.state.canRead with
    | true => exact Or.inl ((finish_copied hread cap).trans hwhole.symm)
    | false =>
      refine Or.inr ⟨.read cap 0 false, ?_⟩
      have hdeliver : (t.s.deliver cap).state.canRead = false := hread
      rw [hwhole, Stream.whole, Stream.sendWindowUpdate, hdeliver, if_pos (by simp)]
      exact congrArg some (finish_copied_ended hread cap).symm

theorem answered_pop (hs : t.pop = some t') : Answered cfg id t t' := by
  unfold Polled.pop at hs
  split at hs
  · cases hs
  next hopen =>
  cases hs
  have hne : t.s.channel ≠ [] := by
    intro hnil
    simp [hnil] at hopen
  refine Or.inr ⟨.pop, ?_⟩
  unfold Stream.whole
  dsimp only
  have hfull : t.whole.channel.isEmpty = false := by
    simp [whole, Pc.finish, hne]
  rw [hfull, if_neg (by simp)]
  simp [whole, Pc.finish, Stream.popped, List.tail_append_of_ne_nil hne]

theorem answered_settle (hs : t.settle = some t') : Answered cfg id t t' := by
  unfold Polled.settle at hs
  split at hs <;> cases hs <;> exact Or.inl rfl

end Polled

namespace Pc

variable {pc : Pc} {st : State} {s s' : Stream}

/-- What a poll still does to the state commutes with what the peer does to it. -/
theorem pendingState_update (pc : Pc) (st next : State)
    (hnext : next = .opened true ∨ next = .recvClosed ∨ next = .closed) :
    pc.pendingState (st.update next) = (pc.pendingState st).update next := by
  rcases hnext with rfl | rfl | rfl <;> cases pc <;> cases st <;> rfl

theorem untaken_of_not_reads (h : pc.reads = false) (st : State) : pc.untaken st = 0 := by
  cases pc with
  | stateRead _ _ | capacityRead _ _ | grantRead _ _ => cases h
  | _ => rfl

theorem ending_of_not_reads (h : pc.reads = false) (st : State) : pc.ending st = false := by
  rw [ending]
  split
  next hd =>
    rw [reads_of_delivered hd] at h
    cases h
  · rfl

/-- Outside a read, or where the stream stays as readable as it was, the read in progress has as
much left to do. -/
theorem left_congr (pc : Pc) (st st' : State)
    (h : pc.reads = false ∨ st'.canRead = st.canRead) :
    pc.untaken st' = pc.untaken st ∧ pc.ending st' = pc.ending st := by
  rcases h with h | h
  · rw [untaken_of_not_reads h, untaken_of_not_reads h, ending_of_not_reads h,
      ending_of_not_reads h]
    exact ⟨rfl, rfl⟩
  · rw [untaken.eq_def, untaken.eq_def, ending, ending, h]
    exact ⟨rfl, rfl⟩

/-- **A frame commutes with what the poll in progress has left to do.** -/
theorem heard_finish {e : Heard} (hs : s.heard e = some s') (hr : e.ends = true → pc.reads = false) :
    (pc.finish s).heard e = some (pc.finish s') := by
  cases e with
  | ack =>
    cases hs
    obtain ⟨hu, he⟩ := left_congr pc s.state (s.state.update (.opened true))
      (Or.inr (by cases s.state <;> rfl))
    have hst := pendingState_update pc s.state (.opened true) (Or.inl rfl)
    unfold Stream.heard finish
    dsimp only
    rw [hu, he, hst]
  | data body fin =>
    unfold Stream.heard at hs
    dsimp only at hs
    split at hs
    · cases hs
    next hroom =>
    cases hs
    have hroom' : ¬ (pc.finish s).receiveWindow < body.length := hroom
    unfold Stream.heard
    dsimp only
    rw [if_neg hroom']
    cases fin with
    | false => simp [finish, Stream.finish, Stream.absorb]
    | true =>
      obtain ⟨hu, he⟩ := left_congr pc s.state (s.state.update .recvClosed) (Or.inl (hr rfl))
      have hst := pendingState_update pc s.state .recvClosed (Or.inr (Or.inl rfl))
      simp [finish, Stream.finish, Stream.absorb, hu, he, hst]
  | credit n fin =>
    unfold Stream.heard at hs
    dsimp only at hs
    split at hs
    · cases hs
    next hroom =>
    cases hs
    have hroom' : ¬ u32Max < (pc.finish s).sendWindow + n := hroom
    unfold Stream.heard
    dsimp only
    rw [if_neg hroom']
    cases fin with
    | false => simp [finish, Stream.finish]
    | true =>
      obtain ⟨hu, he⟩ := left_congr pc s.state (s.state.update .recvClosed) (Or.inl (hr rfl))
      have hst := pendingState_update pc s.state .recvClosed (Or.inr (Or.inl rfl))
      simp [finish, Stream.finish, hu, he, hst]
  | reset =>
    cases hs
    obtain ⟨hu, he⟩ := left_congr pc s.state (s.state.update .closed)
      (Or.inl (hr rfl))
    have hst := pendingState_update pc s.state .closed (Or.inr (Or.inr rfl))
    unfold Stream.heard finish
    dsimp only
    rw [hu, he, hst]

end Pc

namespace Polled

variable {t t' : Polled} {cfg : Config} {id : StreamId}

theorem answered_hear {e : Heard} (ha : t.Apart (.hear e)) (hs : t.hear e = some t') :
    Answered cfg id t t' := by
  unfold Polled.hear at hs
  split at hs
  · cases hs
  obtain ⟨s1, hs1, rfl⟩ := Option.map_eq_some_iff.mp hs
  have hheard := Pc.heard_finish hs1 (fun he => (ha he).1)
  refine Or.inr ⟨.hear e, ?_⟩
  cases e <;> exact hheard

/-! ## 4. What a poll in progress rests on -/

namespace Steady

/-- A poll that rests on nothing. -/
theorem of_plain (hc : t.closed = false) (hd : t.pc.delivered = none)
    (hl : ∀ buf, t.pc = .lockWrite buf → t.s.channel.length < channelDepth)
    (hcs : t.pc = .capacityShutdown → t.s.state ≠ .closed) : t.Steady where
  opened := hc
  roomWrite := hl
  roomRead cap n hpc := by
    rw [hpc] at hd
    cases hd
  taken cap n hdel := by
    rw [hd] at hdel
    cases hdel
  readable hg := by
    obtain ⟨p, hp⟩ := Pc.delivered_of_grants hg
    rw [hd] at hp
    cases hp
  unclosed := hcs

/-- A read that goes on. -/
theorem of_read {cap n : Nat} (hc : t.closed = false) (hd : t.pc.delivered = some (cap, n))
    (htaken : n ≤ t.s.readOut.length)
    (hroom : t.pc = .grantRead cap n → t.s.channel.length < channelDepth)
    (hread : t.pc.grants = true → t.s.state.canRead = true) : t.Steady where
  opened := hc
  roomWrite buf hpc := by
    rw [hpc] at hd
    cases hd
  roomRead cap' n' hpc := by
    have hsame := hd
    rw [hpc] at hsame
    cases hsame
    exact hroom hpc
  taken cap' n' hdel := by
    rw [hd] at hdel
    cases hdel
    exact htaken
  readable := hread
  unclosed hpc := by
    rw [hpc] at hd
    cases hd

theorem begin {call : Call} (h : t.Steady) (hs : t.begin call = some t') : t'.Steady := by
  unfold Polled.begin at hs
  split at hs
  · cases hs
  cases call with
  | write buf =>
    cases hs
    cases hf : t.full with
    | true => exact of_plain h.opened rfl (by simp) (by simp)
    | false =>
      refine of_plain h.opened rfl (fun _ _ => ?_) (by simp)
      exact Nat.not_le.mp (of_decide_eq_false hf)
  | shutdown =>
    cases hs
    by_cases hst : t.s.state = .closed
    · rw [if_pos hst]
      exact of_plain h.opened rfl (by simp) (by simp)
    · rw [if_neg hst]
      exact of_plain h.opened rfl (by simp) (fun _ => hst)
  | read cap =>
    cases hs
    refine of_read h.opened rfl ?_ (by simp) (fun hg => (by cases hg))
    change _ ≤ (t.s.readOut ++ t.s.buffer.take cap).length
    rw [List.length_append, List.length_take]
    omega

theorem advance {accumulated : Nat} {fast : Bool} (h : t.Steady)
    (hs : t.advance cfg id accumulated fast = some t') : t'.Steady := by
  unfold Polled.advance at hs
  have htaken := h.taken
  have hreadable := h.readable
  cases hpc : t.pc with
  | idle =>
    rw [hpc] at hs
    cases hs
  | lockWrite buf =>
    rw [hpc] at hs
    cases hs
    unfold lockWrite
    split
    · exact of_plain h.opened rfl (by simp) (by simp)
    split
    · exact of_plain h.opened rfl (by simp) (by simp)
    · dsimp only
      split
      · exact of_plain h.opened rfl (by simp) (by simp)
      · exact of_plain h.opened rfl (by simp) (by simp)
  | ackWrite f | sendWrite f | parkWriter | unparkWriter | stateShutdown =>
    rw [hpc] at hs
    cases hs
    exact of_plain h.opened rfl (by simp) (by simp)
  | recheckWriter | capacityShutdown =>
    rw [hpc] at hs
    cases hs
    split
    · exact of_plain h.opened rfl (by simp) (by simp)
    · exact of_plain h.opened rfl (by simp) (by simp)
  | sendShutdown ack =>
    rw [hpc] at hs
    cases hs
    exact of_plain h.opened (by simp [h.opened, Pc.delivered]) (by simp [h.opened])
      (by simp [h.opened])
  | stateRead cap n =>
    rw [hpc] at hs htaken
    cases hs
    have hle := htaken cap n rfl
    cases hread : t.s.state.canRead with
    | true => exact of_read h.opened rfl hle (by simp) (fun _ => hread)
    | false => exact of_read h.opened rfl hle (by simp) (fun hg => (by cases hg))
  | capacityRead cap n =>
    rw [hpc] at hs htaken hreadable
    cases hs
    have hle := htaken cap n rfl
    cases hf : t.full with
    | true => exact of_read h.opened rfl hle (by simp) (fun _ => hreadable rfl)
    | false =>
      exact of_read h.opened rfl hle (fun _ => Nat.not_le.mp (of_decide_eq_false hf))
        (fun _ => hreadable rfl)
  | grantRead cap n =>
    rw [hpc] at hs htaken hreadable
    cases hs
    have hle := htaken cap n rfl
    unfold Polled.grantRead
    split
    · exact of_read h.opened rfl hle (by simp) (fun hg => (by cases hg))
    next credit s1 acc hsome =>
      obtain ⟨-, newMax, -, -, rfl⟩ := Stream.nextWindowUpdate_spec hsome
      simp only [Stream.addFlag_eq]
      exact of_read h.opened rfl hle (by simp) (fun _ => hreadable rfl)
  | sendRead cap n f =>
    rw [hpc] at hs htaken
    cases hs
    have hpc' : (if t.closed then Pc.idle else .endRead cap n) = .endRead cap n := by
      rw [h.opened, if_neg (by simp)]
    rw [trySend_open h, hpc']
    exact of_read h.opened rfl (htaken cap n rfl) (by simp) (fun hg => (by cases hg))
  | parkReader cap n =>
    rw [hpc] at hs htaken hreadable
    cases hs
    exact of_read h.opened rfl (htaken cap n rfl) (by simp) (fun _ => hreadable rfl)
  | recheckReader cap n =>
    rw [hpc] at hs htaken hreadable
    cases hs
    have hle := htaken cap n rfl
    cases hf : t.full with
    | true => exact of_read h.opened rfl hle (by simp) (fun hg => (by cases hg))
    | false => exact of_read h.opened rfl hle (by simp) (fun _ => hreadable rfl)
  | unparkReader cap n =>
    rw [hpc] at hs htaken
    cases hs
    exact of_read h.opened rfl (htaken cap n rfl) (by simp) (fun hg => (by cases hg))
  | endRead cap n =>
    rw [hpc] at hs
    cases hs
    unfold Polled.endRead
    split
    · exact of_plain h.opened rfl (by simp) (by simp)
    split
    · exact of_plain h.opened rfl (by simp) (by simp)
    split
    · exact of_plain h.opened rfl (by simp) (by simp)
    · exact of_plain h.opened rfl (by simp) (by simp)

/-- What the connection does to a stream whose poll is in progress. -/
theorem of_conn (h : t.Steady) (hpc : t'.pc = t.pc) (hc : t'.closed = t.closed)
    (hlen : t'.s.channel.length ≤ t.s.channel.length) (hro : t'.s.readOut = t.s.readOut)
    (hst : t.pc.reads = true ∨ t.pc = .capacityShutdown →
      t'.s.state.canRead = t.s.state.canRead ∧ (t'.s.state = .closed → t.s.state = .closed)) :
    t'.Steady where
  opened := hc.trans h.opened
  roomWrite buf hp := Nat.lt_of_le_of_lt hlen (h.roomWrite buf (hpc ▸ hp))
  roomRead cap n hp := Nat.lt_of_le_of_lt hlen (h.roomRead cap n (hpc ▸ hp))
  taken cap n hd := hro ▸ h.taken cap n (hpc ▸ hd)
  readable hg := by
    rw [hpc] at hg
    obtain ⟨p, hp⟩ := Pc.delivered_of_grants hg
    exact (hst (Or.inl (Pc.reads_of_delivered hp))).1.trans (h.readable hg)
  unclosed hp hclosed := by
    rw [hpc] at hp
    exact h.unclosed hp ((hst (Or.inr hp)).2 hclosed)

theorem pop (h : t.Steady) (hs : t.pop = some t') : t'.Steady := by
  unfold Polled.pop at hs
  split at hs
  · cases hs
  cases hs
  refine h.of_conn rfl rfl ?_ rfl fun _ => ⟨rfl, fun hc => hc⟩
  change t.s.channel.tail.length ≤ _
  rw [List.length_tail]
  exact Nat.sub_le _ _

theorem settle (h : t.Steady) (hs : t.settle = some t') : t'.Steady := by
  unfold Polled.settle at hs
  split at hs
  · cases hs
  · cases hs
    exact h.of_conn rfl rfl (Nat.le_refl _) rfl fun _ => ⟨rfl, fun hc => hc⟩
  · cases hs
    exact h.of_conn rfl rfl (Nat.le_refl _) rfl fun _ => ⟨rfl, fun hc => hc⟩

/-- What a frame leaves alone. -/
theorem heard_kept {s s' : Stream} {e : Heard} (hs : s.heard e = some s') :
    s'.channel = s.channel ∧ s'.readOut = s.readOut ∧
      (e.ends = false →
        s'.state.canRead = s.state.canRead ∧ (s'.state = .closed → s.state = .closed)) := by
  cases e with
  | ack =>
    cases hs
    refine ⟨rfl, rfl, fun _ => ?_⟩
    dsimp only
    cases s.state with
    | opened _ => exact ⟨rfl, fun hc => (by cases hc)⟩
    | sendClosed => exact ⟨rfl, fun hc => hc⟩
    | recvClosed => exact ⟨rfl, fun hc => hc⟩
    | closed => exact ⟨rfl, fun hc => hc⟩
  | data body fin =>
    unfold Stream.heard at hs
    dsimp only at hs
    split at hs
    · cases hs
    cases hs
    cases fin with
    | false => exact ⟨rfl, rfl, fun _ => ⟨rfl, fun hc => hc⟩⟩
    | true => exact ⟨rfl, rfl, fun he => (by cases he)⟩
  | credit n fin =>
    unfold Stream.heard at hs
    dsimp only at hs
    split at hs
    · cases hs
    cases hs
    cases fin with
    | false => exact ⟨rfl, rfl, fun _ => ⟨rfl, fun hc => hc⟩⟩
    | true => exact ⟨rfl, rfl, fun he => (by cases he)⟩
  | reset =>
    cases hs
    exact ⟨rfl, rfl, fun he => (by cases he)⟩

theorem hear {e : Heard} (h : t.Steady) (ha : t.Apart (.hear e)) (hs : t.hear e = some t') :
    t'.Steady := by
  unfold Polled.hear at hs
  split at hs
  · cases hs
  obtain ⟨s1, hs1, rfl⟩ := Option.map_eq_some_iff.mp hs
  obtain ⟨hch, hro, hst⟩ := heard_kept hs1
  have hkeep : ∀ t' : Polled, t'.s = s1 → t'.pc = t.pc → t'.closed = t.closed → t'.Steady := by
    rintro t' rfl hpc hc
    refine h.of_conn hpc hc (Nat.le_of_eq (congrArg List.length hch)) hro fun hor => hst ?_
    cases he : e.ends with
    | false => rfl
    | true =>
      obtain ⟨hreads, hshut⟩ := ha he
      rcases hor with hor | hor
      · rw [hreads] at hor
        cases hor
      · exact absurd hor hshut
  cases e <;> exact hkeep _ rfl rfl rfl

end Steady

/-- **A step of a live stream** answered by the atomic system. -/
theorem answered_step {a : Next} (h : t.Steady) (ha : t.Apart a)
    (hs : t.step cfg id a = some t') (hl : t'.ended = false) :
    t'.Steady ∧ Answered cfg id t t' := by
  cases a with
  | begin call => exact ⟨h.begin hs, answered_begin hs⟩
  | advance accumulated fast => exact ⟨h.advance hs, answered_advance h hs⟩
  | pop => exact ⟨h.pop hs, answered_pop hs⟩
  | settle => exact ⟨h.settle hs, answered_settle hs⟩
  | hear e => exact ⟨h.hear ha hs, answered_hear ha hs⟩
  | dropAll =>
    rw [dropAll_ended hs] at hl
    cases hl
  | drain =>
    have hlive := ended_of_step hs hl
    rw [drain_ended hs] at hlive
    cases hlive

end Polled

/-- **Polls are atomic.**  In every run of a live stream in which neither direction ends while a
read is at work or a shutdown looks, the stream is, at every moment, one that whole polls reach,
once the poll in progress is taken as done or as not begun. -/
theorem poll_atomic {cfg : Config} {id : StreamId} {t : Polled}
    (h : ((polls cfg id).restrict Polled.Apart).Reach t) (hl : t.ended = false) :
    (wholePolls cfg id).Reach (t.pc.finish t.s) := by
  have hinv : t.Steady ∧ (wholePolls cfg id).Reach t.whole := by
    refine Lts.Reach.invariant (P := fun t => t.ended = false →
      t.Steady ∧ (wholePolls cfg id).Reach t.whole) ?_ ?_ h hl
    · rintro t ⟨flag, sendWindow, rfl⟩ -
      refine ⟨.of_plain rfl rfl (by simp [Polled.new]) (by simp [Polled.new]), Lts.Reach.init ?_⟩
      exact ⟨flag, sendWindow, Polled.whole_of_idle rfl rfl rfl rfl rfl rfl⟩
    · rintro t a t' hinv ⟨ha, hs⟩ hl'
      obtain ⟨hsteady, hreach⟩ := hinv (Polled.ended_of_step hs hl')
      obtain ⟨hsteady', heq | ⟨b, hb⟩⟩ := Polled.answered_step hsteady ha hs hl'
      · exact ⟨hsteady', heq ▸ hreach⟩
      · exact ⟨hsteady', hreach.step hb⟩
  exact hinv.2

/-- A write between its lock and its `try_send`, while the peer closes and resets the stream. -/
def resetInBetween : List Polled.Next :=
  [.begin (.write [7]), .advance 0 false, .hear (.data [8] true), .settle, .hear .reset, .settle,
    .advance 0 false]

/-- The write that was under way, as a whole poll. -/
theorem poll_atomic_write :
    ∃ t : Polled, ((polls tunnelConfig 1).restrict Polled.Apart).Reach t ∧ t.pc.writes = true ∧
      t.s.channel = [] ∧ (wholePolls tunnelConfig 1).Reach (t.pc.finish t.s) ∧
        (t.pc.finish t.s).channel.length = 1 := by
  have hrun : (Lts.runWith (Polled.step tunnelConfig 1) (fun t a => decide (t.Apart a))
      (.new .ack defaultCredit) resetInBetween).any (fun t =>
        !t.ended && t.pc.writes && t.s.channel == [] &&
          (t.pc.finish t.s).channel.length == 1) = true := by
    decide +kernel
  obtain ⟨t, hreach, ht⟩ := Lts.Reach.exists_runWith (T := polls tunnelConfig 1)
    (C := Polled.Apart) (fun _ _ _ hs => hs) (fun _ _ ho => of_decide_eq_true ho)
    ⟨.ack, defaultCredit, rfl⟩ hrun
  simp only [Bool.and_eq_true, Bool.not_eq_true', beq_iff_eq] at ht
  obtain ⟨⟨⟨hl, hw⟩, hch⟩, hlen⟩ := ht
  exact ⟨t, hreach, hw, hch, poll_atomic hreach hl, hlen⟩

end Molehill.Mux
