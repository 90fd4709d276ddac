/-
# The read path of a session

What the engine pops reaches the reader through four places: the batch in hand, the spill queue,
the reader channel and the reader's own queue.  `deliver_recv` never waits: a batch the channel
does not take goes to the spill queue, which the next call empties first.

The pump and the reader are two tasks.  Each step below is one turn of a loop, so that the reader
may poll, or be dropped, between any two turns of the pump's delivery; what the pump does to the
engine between two deliveries is left open (`ReadPath.Event.engine`).

The spill queue is the pump's own, and goes with it: a session that ends while the reader is behind
(a close of the peer, a dead link, the ingress gone) loses what was spilled, and the reader is told
of a clean end (`read_path_cut_off`).

* `read_path`: in every run in which the pump ends with an empty spill queue, or after the stream
  was dropped, what was popped is what the reader was given, followed by what lies in the four
  places, in this order; nothing is popped while a batch is spilled, and at most one is;
* a reader that finds nothing has been given all but the spilled batch and the batch in hand, and
  one that is told of the end has been given all.
-/
import Molehill.Kcp.Delivery
import Molehill.Lib.BoundedChannel

namespace Molehill

open Lib

/-! ## 1. The data -/

/-- `COALESCE_LIMIT_BYTES`. -/
def coalesceLimitBytes : Nat := 16 * 1024

/-- `MAX_READ_PARTS`. -/
def maxReadParts : Nat := 32

/-- `COALESCE_PRESSURE_PERMITS`. -/
def coalescePressurePermits : Nat := 64

/-- `INBOUND_CHANNEL_DEPTH`. -/
def inboundChannelDepth : Nat := 2048

/-- `ReadBatch`: the parts of one message, with their total length. -/
structure ReadBatch where
  parts : List Bytes
  bytes : Nat
  bytes_eq : bytes = (parts.map List.length).sum
  deriving DecidableEq

/-- The bytes of some batches, in order. -/
def batchBytes (batches : List ReadBatch) : Bytes := (batches.map fun b => b.parts.flatten).flatten

/-- Where `deliver_recv` stands.  Its local variables are kept here. -/
inductive Delivering
  /-- Not called. -/
  | idle
  /-- The loop over the spill queue. -/
  | spilling (delivered : Bool)
  /-- The loop over the receive queue. -/
  | receiving (delivered : Bool) (partsBytes : Nat)
  /-- In that loop, with a batch to hand over. -/
  | flushing (delivered : Bool)
  /-- Behind the loops, with what may be left in hand. -/
  | ending (delivered : Bool)
  /-- `Delivery::Done`. -/
  | done (delivered : Bool)
  /-- `Delivery::ReaderGone`. -/
  | readerGone
  deriving DecidableEq

/-- The stream's read half: `in_rx` is there, was let go of at the end, or the stream was
dropped. -/
inductive ReadHalf
  | alive
  | eof
  | dropped
  deriving DecidableEq

/-- The read path of a session whose reader channel has depth `cap`. -/
structure ReadPath (cap : Nat) where
  kcp : Kcp
  /-- The reader channel. -/
  channel : BoundedChannel ReadBatch cap
  /-- The pump still holds `in_tx`; with it go the spill queue and the batch in hand, which stay
  here as they were. -/
  pump : Bool
  readHalf : ReadHalf
  spill : List ReadBatch
  parts : List Bytes
  delivering : Delivering
  readQueue : List Bytes
  /-- The payloads `recv_owned` has returned, one behind the other. -/
  popped : Bytes
  /-- What `poll_read` has returned. -/
  returned : Bytes
  deriving DecidableEq

namespace ReadPath

variable {cap : Nat}

/-- `in_tx.is_closed()`. -/
def isClosed (s : ReadPath cap) : Bool := s.readHalf ≠ .alive

/-! ## 2. `deliver_recv` -/

/-- What `in_tx.try_send` answers. -/
inductive TrySend (cap : Nat)
  | sent (channel : BoundedChannel ReadBatch cap)
  | full
  | closed

/-- `in_tx.try_send`: a closed channel is closed before it is full. -/
def trySend (s : ReadPath cap) (batch : ReadBatch) : TrySend cap :=
  if s.isClosed then .closed
  else match s.channel.trySend batch with
    | some channel => .sent channel
    | none => .full

/-- The batch `flush_parts` makes of the parts in hand. -/
def batchInHand (s : ReadPath cap) : ReadBatch := ⟨s.parts, (s.parts.map List.length).sum, rfl⟩

/-- `flush_parts`, and what the delivery does on each answer. -/
def flushParts (s : ReadPath cap) (sent spilled closed : Delivering) : ReadPath cap :=
  let batch := s.batchInHand
  let s := { s with parts := [] }
  match s.trySend batch with
  | .sent channel => { s with channel := channel, delivering := sent }
  | .full => { s with spill := s.spill ++ [batch], delivering := spilled }
  | .closed => { s with delivering := closed }

/-- A turn of the loop over the spill queue. -/
def spillTurn (s : ReadPath cap) (delivered : Bool) : ReadPath cap :=
  match s.spill with
  | [] => { s with delivering := .receiving delivered 0 }
  | batch :: rest =>
    match s.trySend batch with
    | .sent channel =>
      { s with channel := channel, spill := rest, delivering := .spilling true }
    | .full => { s with delivering := .done delivered }
    | .closed => { s with spill := rest, delivering := .readerGone }

/-- The batch in hand is to be handed over now. -/
def mustFlush (s : ReadPath cap) (partsBytes : Nat) : Bool :=
  decide (coalesceLimitBytes ≤ partsBytes) || decide (maxReadParts ≤ s.parts.length) ||
    decide (s.channel.capacity ≤ coalescePressurePermits)

/-- A turn of the loop over the receive queue, up to the hand-over. -/
def recvTurn (s : ReadPath cap) (delivered : Bool) (partsBytes : Nat) : ReadPath cap :=
  match s.kcp.recvPop with
  | (_, .error _) => { s with delivering := .ending delivered }
  | (kcp, .ok data) =>
    let s := { s with kcp := kcp, popped := s.popped ++ data }
    -- An empty segment ends the round.
    if data = [] then { s with delivering := .ending delivered }
    else
      let s := { s with parts := s.parts ++ [data] }
      if s.mustFlush (partsBytes + data.length) then { s with delivering := .flushing delivered }
      else { s with delivering := .receiving delivered (partsBytes + data.length) }

/-- The next turn of `deliver_recv`, its call and its return included. -/
def deliver (s : ReadPath cap) : Option (ReadPath cap) :=
  match s.delivering with
  | .idle => some { s with delivering := .spilling false }
  | .spilling delivered => some (s.spillTurn delivered)
  | .receiving delivered partsBytes => some (s.recvTurn delivered partsBytes)
  | .flushing delivered =>
    some (s.flushParts (.receiving true 0) (.ending delivered) .readerGone)
  | .ending delivered =>
    some (if s.parts = [] then { s with delivering := .done delivered }
      else s.flushParts (.done true) (.done delivered) (.done delivered))
  | .done _ => some { s with delivering := .idle }
  | .readerGone => none

/-! ## 3. `poll_read` -/

/-- What a turn of `poll_read`'s loop comes to. -/
inductive PollRead
  | ready (bytes : Bytes)
  | pending
  | again
  deriving DecidableEq

/-- A turn of `poll_read`'s loop, with `remaining` bytes of room in the caller's buffer. -/
def pollRead (s : ReadPath cap) (remaining : Nat) : ReadPath cap × PollRead :=
  match s.readQueue with
  | front :: rest =>
    let n := min remaining front.length
    let left := front.drop n
    ({ s with
        readQueue := if left = [] then rest else left :: rest
        returned := s.returned ++ front.take n },
      .ready (front.take n))
  | [] =>
    match s.readHalf with
    | .alive =>
      match s.channel.tryRecv with
      | some (batch, channel) =>
        ({ s with channel := channel, readQueue := batch.parts.filter (· ≠ []) }, .again)
      | none => if s.pump then (s, .pending) else ({ s with readHalf := .eof }, .again)
    | _ => (s, .ready [])

/-! ## 4. The system -/

inductive Event
  /-- Between two deliveries the engine changes, in any way. -/
  | engine (kcp : Kcp)
  /-- The next turn of `deliver_recv`. -/
  | deliver
  /-- A turn of `poll_read`'s loop. -/
  | poll (remaining : Nat)
  /-- The stream is dropped. -/
  | drop
  /-- The pump ends, between two deliveries or on `Delivery::ReaderGone`. -/
  | exit
  deriving DecidableEq

/-- One step; `none` where it cannot happen. -/
def step (s : ReadPath cap) : Event → Option (ReadPath cap)
  | .engine kcp =>
    if s.pump ∧ s.delivering = .idle then some { s with kcp := kcp } else none
  | .deliver => if s.pump then s.deliver else none
  | .poll remaining => if s.readHalf = .dropped then none else some (s.pollRead remaining).1
  | .drop => some { s with readHalf := .dropped, channel := .empty, readQueue := [] }
  | .exit =>
    if s.pump ∧ (s.delivering = .idle ∨ s.delivering = .readerGone) then
      some { s with pump := false }
    else none

/-- A session as it starts, with any engine. -/
def new (cap : Nat) (kcp : Kcp) : ReadPath cap :=
  ⟨kcp, .empty, true, .alive, [], [], .idle, [], [], []⟩

end ReadPath

/-- The system: any depth of the channel, any engine, the two tasks in any order. -/
def readPath (cap : Nat) : Lts (ReadPath cap) ReadPath.Event where
  init s := ∃ kcp, s = .new cap kcp
  step s e s' := s.step e = some s'

/-- The pump ends with nothing spilled, or for a stream that was dropped. -/
def ReadPath.EndsClean {cap : Nat} (s : ReadPath cap) : ReadPath.Event → Prop
  | .exit => s.readHalf ≠ .dropped → s.spill = []
  | _ => True

instance {cap : Nat} (s : ReadPath cap) (e : ReadPath.Event) : Decidable (s.EndsClean e) :=
  match e with
  | .exit => inferInstanceAs (Decidable (_ → _))
  | .engine _ | .deliver | .poll _ | .drop => isTrue trivial

/-! ## 5. What the path holds -/

@[simp] theorem batchBytes_nil : batchBytes [] = [] := rfl

@[simp] theorem batchBytes_cons (b : ReadBatch) (rest : List ReadBatch) :
    batchBytes (b :: rest) = b.parts.flatten ++ batchBytes rest := by
  simp [batchBytes]

@[simp] theorem batchBytes_append (xs ys : List ReadBatch) :
    batchBytes (xs ++ ys) = batchBytes xs ++ batchBytes ys := by
  simp [batchBytes]

/-- Empty parts carry nothing. -/
theorem flatten_filter_ne_nil : ∀ parts : List Bytes,
    (parts.filter (· ≠ [])).flatten = parts.flatten
  | [] => rfl
  | [] :: rest => by simpa using flatten_filter_ne_nil rest
  | (x :: xs) :: rest => by
    have ih := flatten_filter_ne_nil rest
    simp only [ne_eq, decide_not] at ih
    simp [ih]

namespace ReadPath

variable {cap : Nat} {s s' : ReadPath cap}

/-- What the pump holds: its spill queue and its batch in hand are gone with it. -/
def pumpHeld (s : ReadPath cap) : Bytes :=
  if s.pump then batchBytes s.spill ++ s.parts.flatten else []

/-- The reader's share, then the four places in the order they are read in. -/
def held (s : ReadPath cap) : Bytes :=
  s.returned ++ (s.readQueue.flatten ++ (batchBytes s.channel.queue ++ s.pumpHeld))

/-- The spill queue and the parts in hand, by where the delivery stands. -/
def Placed (s : ReadPath cap) : Prop :=
  match s.delivering with
  | .idle | .spilling _ | .done _ | .readerGone => s.parts = []
  | .receiving _ _ | .flushing _ => s.spill = []
  | .ending _ => s.spill = [] ∨ s.parts = []

structure Inv (s : ReadPath cap) : Prop where
  held : s.readHalf ≠ .dropped → s.popped = s.held
  given : s.returned <+: s.popped
  oneSpilled : s.spill.length ≤ 1
  placed : s.Placed
  parts : ∀ part ∈ s.readQueue, part ≠ []
  eof : s.readHalf = .eof → s.pump = false ∧ s.channel.queue = []

/-- While there is a pump, all four places count. -/
theorem held_of_pump (h : s.pump = true) : s.held =
    s.returned ++ (s.readQueue.flatten ++ (batchBytes s.channel.queue ++
      (batchBytes s.spill ++ s.parts.flatten))) := by
  rw [held, pumpHeld, if_pos h]

theorem popped_eq_held (h : s.pump = true) (hp : s.popped =
    s.returned ++ (s.readQueue.flatten ++ (batchBytes s.channel.queue ++
      (batchBytes s.spill ++ s.parts.flatten)))) : s.popped = s.held :=
  hp.trans (held_of_pump h).symm

/-- Nothing is asked of a stream that may still be read. -/
theorem eof_of_alive (h : s.readHalf = .alive) :
    s.readHalf = .eof → s.pump = false ∧ s.channel.queue = [] := by
  intro hr
  rw [h] at hr
  cases hr

theorem held_prefix (s : ReadPath cap) : s.returned <+: s.held := List.prefix_append _ _

/-- While the stream is there, what was returned is a part of what was popped. -/
theorem given_of_held (h : s.popped = s.held) : s.returned <+: s.popped := by
  rw [h]
  exact s.held_prefix

/-- What `try_send` answers, in terms of the queue. -/
theorem trySend_cases (s : ReadPath cap) (batch : ReadBatch) :
    (∃ channel, s.trySend batch = .sent channel ∧ channel.queue = s.channel.queue ++ [batch] ∧
        s.readHalf = .alive) ∨
      s.trySend batch = .full ∧ s.readHalf = .alive ∨
      s.trySend batch = .closed ∧ s.readHalf ≠ .alive := by
  rw [trySend]
  split
  case isTrue hc =>
    right; right
    exact ⟨rfl, by simpa [isClosed] using hc⟩
  case isFalse hc =>
    have halive : s.readHalf = .alive := by simpa [isClosed] using hc
    cases hsend : s.channel.trySend batch with
    | some channel =>
      left
      exact ⟨channel, rfl, BoundedChannel.queue_trySend hsend, halive⟩
    | none =>
      right; left
      exact ⟨rfl, halive⟩

/-- While the pump is there, the channel is closed by the stream's drop only. -/
theorem Inv.dropped_of_closed (h : Inv s) (hpump : s.pump = true) (hclosed : s.readHalf ≠ .alive) :
    s.readHalf = .dropped := by
  cases hr : s.readHalf with
  | alive => exact absurd hr hclosed
  | eof =>
    rw [(h.eof hr).1] at hpump
    cases hpump
  | dropped => rfl

/-! ## 6. The turns -/

/-- `flush_parts` moves the batch in hand behind what was popped before it. -/
theorem Inv.flushParts (h : Inv s) (hspill : s.spill = []) {sent spilled closed : Delivering}
    (hpump : s.pump = true)
    (hsent : ∀ s' : ReadPath cap, s'.delivering = sent → s'.spill = [] → s'.parts = [] → s'.Placed)
    (hspilled : ∀ s' : ReadPath cap, s'.delivering = spilled → s'.parts = [] → s'.Placed)
    (hclosed : ∀ s' : ReadPath cap, s'.delivering = closed → s'.parts = [] → s'.Placed) :
    Inv (s.flushParts sent spilled closed) := by
  have hheld := h.held
  rw [held_of_pump hpump, hspill] at hheld
  have htry : ∀ s' : ReadPath cap, s'.channel = s.channel → s'.readHalf = s.readHalf →
      s'.trySend s.batchInHand = s.trySend s.batchInHand := by
    intro s' hc hr
    rw [trySend, trySend, isClosed, isClosed, hc, hr]
  rw [ReadPath.flushParts]
  simp only
  rw [htry { s with parts := [] } rfl rfl]
  obtain ⟨channel, hs, hq, halive⟩ | ⟨hs, halive⟩ | ⟨hs, hgone⟩ := s.trySend_cases s.batchInHand
  · rw [hs]
    refine ⟨fun hr => ?_, h.given, ?_, hsent _ rfl hspill rfl, h.parts, eof_of_alive halive⟩
    · refine popped_eq_held hpump ?_
      rw [hq, hspill]
      simpa [batchInHand] using hheld hr
    · rw [hspill]
      exact Nat.zero_le _
  · rw [hs]
    refine ⟨fun hr => ?_, h.given, ?_, hspilled _ rfl rfl, h.parts, h.eof⟩
    · refine popped_eq_held hpump ?_
      rw [hspill]
      simpa [batchInHand] using hheld hr
    · rw [hspill]
      exact Nat.le_refl _
  · rw [hs]
    have hdropped := h.dropped_of_closed hpump hgone
    exact ⟨fun hr => absurd hdropped hr, h.given, h.oneSpilled, hclosed _ rfl rfl, h.parts, h.eof⟩

/-- A turn over the spill queue moves its front to the end of the channel, or leaves it. -/
theorem Inv.spillTurn (h : Inv s) (hpump : s.pump = true) (hparts : s.parts = [])
    (delivered : Bool) : Inv (s.spillTurn delivered) := by
  rw [ReadPath.spillTurn]
  split
  case h_1 hspill =>
    exact ⟨h.held, h.given, h.oneSpilled, hspill, h.parts, h.eof⟩
  case h_2 batch rest hspill =>
    have hone := h.oneSpilled
    have hheld := h.held
    rw [hspill, List.length_cons] at hone
    rw [held_of_pump hpump, hspill] at hheld
    obtain ⟨channel, hs, hq, halive⟩ | ⟨hs, halive⟩ | ⟨hs, hgone⟩ := s.trySend_cases batch
    · rw [hs]
      refine ⟨fun hr => ?_, h.given, ?_, hparts, h.parts, eof_of_alive halive⟩
      · refine popped_eq_held hpump ?_
        rw [hq]
        simpa using hheld hr
      · change rest.length ≤ 1
        omega
    · rw [hs]
      exact ⟨h.held, h.given, h.oneSpilled, hparts, h.parts, h.eof⟩
    · rw [hs]
      have hdropped : s.readHalf = .dropped := h.dropped_of_closed hpump hgone
      refine ⟨fun hr => absurd hdropped hr, h.given, ?_, hparts, h.parts, h.eof⟩
      change rest.length ≤ 1
      omega

/-- A turn over the receive queue puts what it pops behind the parts in hand. -/
theorem Inv.recvTurn (h : Inv s) (hpump : s.pump = true) (hspill : s.spill = [])
    (delivered : Bool) (partsBytes : Nat) : Inv (s.recvTurn delivered partsBytes) := by
  rw [ReadPath.recvTurn]
  split
  case h_1 =>
    exact ⟨h.held, h.given, h.oneSpilled, Or.inl hspill, h.parts, h.eof⟩
  case h_2 kcp data hpop =>
    have hgiven : s.returned <+: s.popped ++ data := h.given.trans (List.prefix_append _ _)
    simp only
    split
    case isTrue hempty =>
      refine ⟨fun hr => ?_, hgiven, h.oneSpilled, Or.inl hspill, h.parts, h.eof⟩
      change s.popped ++ data = _
      rw [hempty, List.append_nil]
      exact h.held hr
    case isFalse =>
      have hheld : s.readHalf ≠ .dropped → s.popped ++ data =
          ReadPath.held { s with parts := s.parts ++ [data] } := by
        intro hr
        rw [h.held hr, held_of_pump hpump, ReadPath.held, pumpHeld, if_pos hpump]
        simp
      split
      · exact ⟨hheld, hgiven, h.oneSpilled, hspill, h.parts, h.eof⟩
      · exact ⟨hheld, hgiven, h.oneSpilled, hspill, h.parts, h.eof⟩

theorem Inv.deliver (h : Inv s) (hpump : s.pump = true) (hs : s.deliver = some s') : Inv s' := by
  have hplaced := h.placed
  rw [ReadPath.Placed] at hplaced
  rw [ReadPath.deliver] at hs
  split at hs
  case h_1 hd =>
    cases hs
    rw [hd] at hplaced
    exact ⟨h.held, h.given, h.oneSpilled, hplaced, h.parts, h.eof⟩
  case h_2 delivered hd =>
    cases hs
    rw [hd] at hplaced
    exact h.spillTurn hpump hplaced delivered
  case h_3 delivered partsBytes hd =>
    cases hs
    rw [hd] at hplaced
    exact h.recvTurn hpump hplaced delivered partsBytes
  case h_4 delivered hd =>
    cases hs
    rw [hd] at hplaced
    refine h.flushParts hplaced hpump ?_ ?_ ?_
    · intro s' hd' hspill _
      rw [ReadPath.Placed, hd']
      exact hspill
    · intro s' hd' hparts
      rw [ReadPath.Placed, hd']
      exact Or.inr hparts
    · intro s' hd' hparts
      rw [ReadPath.Placed, hd']
      exact hparts
  case h_5 delivered hd =>
    cases hs
    rw [hd] at hplaced
    split
    case isTrue hparts =>
      exact ⟨h.held, h.given, h.oneSpilled, hparts, h.parts, h.eof⟩
    case isFalse hparts =>
      have hdone : ∀ (d : Bool) (s' : ReadPath cap), s'.delivering = .done d → s'.parts = [] →
          s'.Placed := by
        intro d s' hd' hparts
        rw [ReadPath.Placed, hd']
        exact hparts
      exact h.flushParts (hplaced.resolve_right hparts) hpump
        (fun s' hd' _ => hdone true s' hd') (hdone delivered) (hdone delivered)
  case h_6 delivered hd =>
    cases hs
    rw [hd] at hplaced
    exact ⟨h.held, h.given, h.oneSpilled, hplaced, h.parts, h.eof⟩
  case h_7 => cases hs

/-- A turn of the reader moves bytes from the front of what is behind it. -/
theorem Inv.pollRead (h : Inv s) (hstream : s.readHalf ≠ .dropped) (remaining : Nat) :
    Inv (s.pollRead remaining).1 := by
  have hheld := h.held hstream
  rw [ReadPath.pollRead]
  split
  case h_1 front rest hq =>
    have hfront : front.take (min remaining front.length) ++
        front.drop (min remaining front.length) = front := List.take_append_drop _ _
    rw [ReadPath.held, hq, List.flatten_cons] at hheld
    have hnext : s.popped = ReadPath.held (s.pollRead remaining).1 := by
      rw [ReadPath.pollRead, hq, hheld, ReadPath.held]
      simp only
      split
      case isTrue hleft =>
        rw [hleft, List.append_nil] at hfront
        rw [hfront]
        simp only [List.append_assoc]
        rfl
      case isFalse =>
        rw [List.flatten_cons]
        conv_lhs => rw [← hfront]
        simp only [List.append_assoc]
        rfl
    rw [ReadPath.pollRead, hq] at hnext
    refine ⟨fun _ => hnext, given_of_held hnext, h.oneSpilled, h.placed, ?_, h.eof⟩
    intro part hpart
    simp only at hpart
    split at hpart
    · exact h.parts part (by rw [hq]; exact List.mem_cons_of_mem _ hpart)
    case isFalse hleft =>
      rcases List.mem_cons.mp hpart with rfl | hpart
      · exact hleft
      · exact h.parts part (by rw [hq]; exact List.mem_cons_of_mem _ hpart)
  case h_2 hq =>
    split
    case h_1 halive =>
      split
      case h_1 batch channel hrecv =>
        have hchan := BoundedChannel.queue_tryRecv hrecv
        refine ⟨fun _ => ?_, h.given, h.oneSpilled, h.placed, ?_, eof_of_alive halive⟩
        · rw [hheld, ReadPath.held, ReadPath.held, hq, hchan, flatten_filter_ne_nil]
          simp only [List.flatten_nil, List.nil_append, batchBytes_cons, List.append_assoc]
          rfl
        · intro part hpart
          simpa using (List.mem_filter.mp hpart).2
      case h_2 hnone =>
        split
        case isTrue => exact h
        case isFalse hpump =>
          exact ⟨fun _ => hheld, h.given, h.oneSpilled, h.placed, h.parts,
            fun _ => ⟨by simpa using hpump, BoundedChannel.queue_of_tryRecv hnone⟩⟩
    case h_2 => exact h

/-- The pump ends between two deliveries, with nothing in hand and nothing spilled. -/
theorem Inv.exit (h : Inv s) (hpump : s.pump = true)
    (hd : s.delivering = .idle ∨ s.delivering = .readerGone)
    (hc : s.readHalf ≠ .dropped → s.spill = []) : Inv { s with pump := false } := by
  have hplaced := h.placed
  have hparts : s.parts = [] := by
    rw [ReadPath.Placed] at hplaced
    rcases hd with hd | hd
    · rw [hd] at hplaced
      exact hplaced
    · rw [hd] at hplaced
      exact hplaced
  refine ⟨fun hr => ?_, h.given, h.oneSpilled, h.placed, h.parts, fun hr => ⟨rfl, (h.eof hr).2⟩⟩
  have hheld := h.held hr
  rw [held_of_pump hpump, hc hr, hparts] at hheld
  exact hheld

theorem Inv.step {e : Event} (h : Inv s) (hc : s.EndsClean e) (hs : s.step e = some s') :
    Inv s' := by
  cases e with
  | engine kcp =>
    simp only [ReadPath.step] at hs
    split at hs
    case isTrue hpump =>
      cases hs
      exact ⟨h.held, h.given, h.oneSpilled, h.placed, h.parts, h.eof⟩
    case isFalse => cases hs
  | deliver =>
    simp only [ReadPath.step] at hs
    split at hs
    case isTrue hpump => exact h.deliver hpump hs
    case isFalse => cases hs
  | poll remaining =>
    simp only [ReadPath.step] at hs
    split at hs
    case isTrue => cases hs
    case isFalse hstream =>
      cases hs
      exact h.pollRead hstream remaining
  | drop =>
    cases hs
    exact ⟨fun hr => absurd rfl hr, h.given, h.oneSpilled, h.placed, by simp, nofun⟩
  | exit =>
    simp only [ReadPath.step] at hs
    split at hs
    case isTrue hpump =>
      cases hs
      exact h.exit hpump.1 hpump.2 hc
    case isFalse => cases hs

theorem inv_new (cap : Nat) (kcp : Kcp) : Inv (ReadPath.new cap kcp) :=
  ⟨fun _ => rfl, List.nil_prefix, Nat.zero_le 1, rfl, nofun, nofun⟩

theorem inv_of_reach (h : ((readPath cap).restrict EndsClean).Reach s) : Inv s := by
  refine h.invariant (P := Inv) ?_ ?_
  · rintro _ ⟨kcp, rfl⟩
    exact inv_new cap kcp
  · intro s e s' hinv ⟨hc, hs⟩
    exact hinv.step hc hs

/-- While a batch is spilled, no turn pops. -/
theorem Inv.deliver_kcp (h : Inv s) (hspill : s.spill ≠ []) (hs : s.deliver = some s') :
    s'.kcp = s.kcp ∧ s'.popped = s.popped := by
  have hplaced := h.placed
  rw [ReadPath.Placed] at hplaced
  have hflush : ∀ sent spilled closed : Delivering,
      (s.flushParts sent spilled closed).kcp = s.kcp ∧
        (s.flushParts sent spilled closed).popped = s.popped := by
    intro sent spilled closed
    rw [ReadPath.flushParts]
    simp only
    split
    · exact ⟨rfl, rfl⟩
    · exact ⟨rfl, rfl⟩
    · exact ⟨rfl, rfl⟩
  rw [ReadPath.deliver] at hs
  split at hs
  case h_2 delivered _ =>
    cases hs
    rw [ReadPath.spillTurn]
    split
    case h_1 hnil => exact absurd hnil hspill
    case h_2 =>
      split
      · exact ⟨rfl, rfl⟩
      · exact ⟨rfl, rfl⟩
      · exact ⟨rfl, rfl⟩
  case h_3 hd =>
    rw [hd] at hplaced
    exact absurd hplaced hspill
  case h_5 =>
    cases hs
    split
    · exact ⟨rfl, rfl⟩
    · exact hflush _ _ _
  case h_7 => cases hs
  all_goals
    cases hs
    first
      | exact ⟨rfl, rfl⟩
      | exact hflush _ _ _

/-- A reader that has to wait has been given everything the pump has handed over. -/
theorem Inv.pending (h : Inv s) (hstream : s.readHalf ≠ .dropped) {remaining : Nat}
    (hp : (s.pollRead remaining).2 = .pending) :
    s.popped = s.returned ++ (batchBytes s.spill ++ s.parts.flatten) := by
  have hheld := h.held hstream
  rw [ReadPath.pollRead] at hp
  split at hp
  case h_1 => cases hp
  case h_2 hq =>
    split at hp
    case h_1 =>
      split at hp
      case h_1 => cases hp
      case h_2 hnone =>
        have hpump : s.pump = true := by
          by_contra hpump
          rw [if_neg hpump] at hp
          cases hp
        rw [hheld, held_of_pump hpump, hq, BoundedChannel.queue_of_tryRecv hnone]
        simp
    case h_2 => cases hp

/-- A reader with room is given nothing only at the end, and then it has been given all. -/
theorem Inv.ended (h : Inv s) (hstream : s.readHalf ≠ .dropped) {remaining : Nat}
    (hroom : 0 < remaining) (hp : (s.pollRead remaining).2 = .ready []) :
    s.pump = false ∧ s.returned = s.popped := by
  rw [ReadPath.pollRead] at hp
  split at hp
  case h_1 front rest hq =>
    have hne := h.parts front (by rw [hq]; exact List.mem_cons_self)
    have hpos := List.length_pos_of_ne_nil hne
    simp only [PollRead.ready.injEq, List.take_eq_nil_iff] at hp
    rcases hp with hp | hp
    · omega
    · exact absurd hp hne
  case h_2 hq =>
    split at hp
    case h_1 =>
      split at hp
      · cases hp
      · split at hp
        · cases hp
        · cases hp
    case h_2 hr =>
      have heof : s.readHalf = .eof := by
        cases hhalf : s.readHalf with
        | alive => exact absurd hhalf hr
        | eof => rfl
        | dropped => exact absurd hhalf hstream
      obtain ⟨hpump, hqueue⟩ := h.eof heof
      refine ⟨hpump, ?_⟩
      rw [h.held hstream, ReadPath.held, hq, hqueue, pumpHeld, hpump]
      simp

/-- **The read path is a byte stream**, in every run in which the pump does not end over a spilled
batch.  For every engine, every depth of the reader channel and every order of the turns of the two
tasks: what the reader was given is a prefix of what was popped, and while the stream is there the
rest lies, in order, in the reader's queue, the channel, the spill queue and the batch in hand.  A
reader that waits has all but the last two; a reader with room gets nothing at the end only, and
then it has all.  At most one batch is spilled, and while one is, nothing is popped. -/
theorem read_path (h : ((readPath cap).restrict EndsClean).Reach s) :
    s.returned <+: s.popped ∧
    (s.readHalf ≠ .dropped →
      s.popped = s.held ∧
      ∀ remaining,
        ((s.pollRead remaining).2 = .pending →
          s.popped = s.returned ++ (batchBytes s.spill ++ s.parts.flatten)) ∧
        (0 < remaining → (s.pollRead remaining).2 = .ready [] →
          s.pump = false ∧ s.returned = s.popped)) ∧
    s.spill.length ≤ 1 ∧
    (s.spill ≠ [] → ∀ s', s.step .deliver = some s' → s'.kcp = s.kcp ∧ s'.popped = s.popped) := by
  have hinv := inv_of_reach h
  refine ⟨hinv.given, ?_, hinv.oneSpilled, ?_⟩
  · intro hstream
    exact ⟨hinv.held hstream, fun remaining => ⟨hinv.pending hstream, hinv.ended hstream⟩⟩
  · intro hspill s' hs
    simp only [ReadPath.step] at hs
    split at hs
    · exact hinv.deliver_kcp hspill hs
    · cases hs

/-! ## 7. A run on fixed inputs -/

/-- An engine with these payloads in its receive queue. -/
def received (payloads : List Bytes) : Kcp :=
  { newStream 7 with rcvQueue := payloads.map .newWithData }

/-- Two segments and a channel of one: the second batch is spilled, the reader takes the first in
two polls, the next delivery hands the second over, and the pump ends. -/
def spilledOnce : List Event :=
  List.replicate 8 .deliver ++ List.replicate 3 (.poll 2) ++ List.replicate 6 .deliver ++
    .exit :: List.replicate 3 (.poll 2)

theorem read_path_spilled :
    ∃ s : ReadPath 1, s.popped = [1, 2, 3, 4] ∧ (s.pollRead 2).2 = .ready [] ∧
      s.pump = false ∧ s.returned = s.popped := by
  have hrun : (Lts.runWith ReadPath.step (fun s e => decide (s.EndsClean e))
      (.new 1 (received [[1, 2, 3], [4]])) spilledOnce).any
      (fun s => s.popped = [1, 2, 3, 4] ∧ (s.pollRead 2).2 = .ready [] ∧ s.readHalf = .eof) =
      true := by
    decide +kernel
  obtain ⟨s, hs, hp⟩ := Lts.Reach.exists_runWith (T := readPath 1) (C := EndsClean)
    (fun _ _ _ h => h) (fun _ _ ho => of_decide_eq_true ho)
    ⟨received [[1, 2, 3], [4]], rfl⟩ hrun
  obtain ⟨hpopped, hready, heof⟩ := of_decide_eq_true hp
  obtain ⟨-, hread, -⟩ := read_path hs
  have hstream : s.readHalf ≠ .dropped := by
    rw [heof]
    decide
  obtain ⟨-, hall⟩ := hread hstream
  exact ⟨s, hpopped, hready, (hall 2).2 (by decide) hready⟩

/-! ## 8. A session that is cut off -/

/-- A session whose reader has not polled yet. -/
def unread (kcp : Kcp) (channel : BoundedChannel ReadBatch cap) (spill : List ReadBatch)
    (parts : List Bytes) (delivering : Delivering) (popped : Bytes) : ReadPath cap :=
  ⟨kcp, channel, true, .alive, spill, parts, delivering, [], popped, []⟩

/-- The engine when its one segment was popped. -/
def drained : Kcp := (received [[7]]).recvPop.1

/-- A batch of one byte. -/
def oneByte : ReadBatch := ⟨[[7]], 1, rfl⟩

theorem recvPop_received : (received [[7]]).recvPop = (drained, .ok [7]) := rfl

theorem recvPop_drained : drained.recvPop = (drained, .error .recvQueueEmpty) := rfl

variable {channel channel' : BoundedChannel ReadBatch cap} {popped : Bytes} {n : Nat}

/-- A delivery pops the one segment there is; whether it is handed over at once depends on the
room. -/
theorem recvTurn_received (delivering : Delivering) :
    (unread (received [[7]]) channel [] [] delivering popped).recvTurn false 0 =
      if channel.capacity ≤ coalescePressurePermits then
        unread drained channel [] [[7]] (.flushing false) (popped ++ [7])
      else unread drained channel [] [[7]] (.receiving false 1) (popped ++ [7]) := by
  have hmust : ∀ s : ReadPath cap, s.channel = channel → s.parts = [[7]] →
      s.mustFlush 1 = decide (channel.capacity ≤ coalescePressurePermits) := by
    intro s hc hp
    rw [mustFlush, hc, hp]
    simp [coalesceLimitBytes, maxReadParts]
  rw [recvTurn]
  split
  case h_1 hpop => cases hpop.symm.trans recvPop_received
  case h_2 hpop =>
    cases hpop.symm.trans recvPop_received
    simp only
    rw [if_neg (List.cons_ne_nil _ _)]
    by_cases hroom : channel.capacity ≤ coalescePressurePermits
    · rw [if_pos hroom]
      exact if_pos ((hmust _ rfl rfl).trans (decide_eq_true hroom))
    · rw [if_neg hroom]
      refine if_neg fun hm => hroom ?_
      exact of_decide_eq_true ((hmust _ rfl rfl).symm.trans hm)

/-- An engine that has no more ends the round. -/
theorem recvTurn_drained (delivering : Delivering) (delivered : Bool) (partsBytes : Nat)
    (parts : List Bytes) :
    (unread drained channel [] parts delivering popped).recvTurn delivered partsBytes =
      unread drained channel [] parts (.ending delivered) popped := by
  simp only [recvTurn, unread, recvPop_drained]

/-- The batch in hand is handed over where there is room. -/
theorem flushParts_sent (hsend : channel.trySend oneByte = some channel')
    (delivering sent spilled closed : Delivering) :
    (unread drained channel [] [[7]] delivering popped).flushParts sent spilled closed =
      unread drained channel' [] [] sent popped := by
  have htry : (unread drained channel [] [] delivering popped).trySend oneByte =
      .sent channel' := by
    simp [trySend, isClosed, unread, hsend]
  rw [flushParts]
  simp only
  split
  case h_1 hs =>
    cases hs.symm.trans htry
    rfl
  case h_2 hs => cases hs.symm.trans htry
  case h_3 hs => cases hs.symm.trans htry

/-- It is spilled where there is none. -/
theorem flushParts_full (hsend : channel.trySend oneByte = none)
    (delivering sent spilled closed : Delivering) :
    (unread drained channel [] [[7]] delivering popped).flushParts sent spilled closed =
      unread drained channel [oneByte] [] spilled popped := by
  have htry : (unread drained channel [] [] delivering popped).trySend oneByte = .full := by
    simp [trySend, isClosed, unread, hsend]
  rw [flushParts]
  simp only
  split
  case h_1 hs => cases hs.symm.trans htry
  case h_2 => rfl
  case h_3 hs => cases hs.symm.trans htry

/-- One segment comes in, and a delivery pops it. -/
theorem reach_popped {kcp : Kcp}
    (h : (readPath cap).Reach (unread kcp channel [] [] .idle popped)) :
    (readPath cap).Reach
      (if channel.capacity ≤ coalescePressurePermits then
        unread drained channel [] [[7]] (.flushing false) (popped ++ [7])
      else unread drained channel [] [[7]] (.receiving false 1) (popped ++ [7])) := by
  have hin : (readPath cap).Reach (unread (received [[7]]) channel [] [] .idle popped) :=
    h.step (a := .engine (received [[7]])) rfl
  have hcalled : (readPath cap).Reach
      (unread (received [[7]]) channel [] [] (.spilling false) popped) :=
    hin.step (a := .deliver) rfl
  have hloop : (readPath cap).Reach
      (unread (received [[7]]) channel [] [] (.receiving false 0) popped) :=
    hcalled.step (a := .deliver) rfl
  rw [← recvTurn_received (.receiving false 0)]
  exact hloop.step (a := .deliver) rfl

/-- A round that has handed all over. -/
theorem reach_idle {delivered : Bool} {spill : List ReadBatch}
    (h : (readPath cap).Reach (unread drained channel spill [] (.ending delivered) popped)) :
    (readPath cap).Reach (unread drained channel spill [] .idle popped) := by
  have hdone : (readPath cap).Reach (unread drained channel spill [] (.done delivered) popped) :=
    h.step (a := .deliver) rfl
  exact hdone.step (a := .deliver) rfl

/-- A segment on its way to a channel that has room. -/
theorem reach_handed {kcp : Kcp}
    (h : (readPath cap).Reach (unread kcp channel [] [] .idle popped))
    (hsend : channel.trySend oneByte = some channel') :
    (readPath cap).Reach (unread drained channel' [] [] .idle (popped ++ [7])) := by
  have hpopped := reach_popped h
  split at hpopped
  case isTrue =>
    have hsent : (readPath cap).Reach
        (unread drained channel' [] [] (.receiving true 0) (popped ++ [7])) := by
      rw [← flushParts_sent hsend (.flushing false) (.receiving true 0) (.ending false) .readerGone]
      exact hpopped.step (a := .deliver) rfl
    have hend : (readPath cap).Reach
        (unread drained channel' [] [] (.ending true) (popped ++ [7])) := by
      rw [← recvTurn_drained (.receiving true 0) true 0]
      exact hsent.step (a := .deliver) rfl
    exact reach_idle hend
  case isFalse =>
    have hend : (readPath cap).Reach
        (unread drained channel [] [[7]] (.ending false) (popped ++ [7])) := by
      rw [← recvTurn_drained (.receiving false 1) false 1]
      exact hpopped.step (a := .deliver) rfl
    have hsent : (readPath cap).Reach
        (unread drained channel' [] [] (.done true) (popped ++ [7])) := by
      rw [← flushParts_sent hsend (.ending false) (.done true) (.done false) (.done false)]
      exact hend.step (a := .deliver) rfl
    exact hsent.step (a := .deliver) rfl

/-- A segment that meets a full channel is spilled, and goes with the pump. -/
theorem reach_cut_off {kcp : Kcp}
    (h : (readPath cap).Reach (unread kcp channel [] [] .idle popped))
    (hfull : channel.queue.length = cap) :
    (readPath cap).Reach
      { unread drained channel [oneByte] [] .idle (popped ++ [7]) with pump := false } := by
  have hpopped := reach_popped h
  have hpressure : channel.capacity ≤ coalescePressurePermits := by
    rw [BoundedChannel.capacity, hfull, Nat.sub_self]
    exact Nat.zero_le _
  rw [if_pos hpressure] at hpopped
  have hspilled : (readPath cap).Reach
      (unread drained channel [oneByte] [] (.ending false) (popped ++ [7])) := by
    rw [← flushParts_full (BoundedChannel.trySend_of_full oneByte hfull) (.flushing false)
      (.receiving true 0) (.ending false) .readerGone]
    exact hpopped.step (a := .deliver) rfl
  exact (reach_idle hspilled).step (a := .exit) rfl

/-- The channel fills while the reader does not poll. -/
theorem reach_filled (cap : Nat) : ∀ n ≤ cap,
    ∃ (kcp : Kcp) (channel : BoundedChannel ReadBatch cap),
    channel.queue = List.replicate n oneByte ∧
    (readPath cap).Reach (unread kcp channel [] [] .idle (List.replicate n 7)) := by
  intro n
  induction n with
  | zero =>
    intro _
    exact ⟨newStream 7, .empty, rfl, .init ⟨newStream 7, rfl⟩⟩
  | succ n ih =>
    intro hn
    obtain ⟨kcp, channel, hq, hr⟩ := ih (by omega)
    obtain ⟨channel', hsend⟩ := BoundedChannel.trySend_of_lt (c := channel) oneByte (by
      rw [hq, List.length_replicate]
      omega)
    refine ⟨drained, channel', ?_, ?_⟩
    · rw [BoundedChannel.queue_trySend hsend, hq, List.replicate_succ']
    · rw [List.replicate_succ']
      exact reach_handed hr hsend

/-- A reader takes what the channel of a session that has ended holds, and then the end. -/
theorem reach_told {n : Nat} {s : ReadPath cap} (h : (readPath cap).Reach s)
    (hpump : s.pump = false) (halive : s.readHalf = .alive) (hread : s.readQueue = [])
    (hq : s.channel.queue = List.replicate n oneByte) :
    ∃ s', (readPath cap).Reach s' ∧ s'.readHalf = .eof ∧ (s'.pollRead 1).2 = .ready [] ∧
      s'.popped = s.popped ∧ s'.returned = s.returned ++ List.replicate n 7 := by
  have hturn : ∀ s : ReadPath cap, (readPath cap).Reach s → s.readHalf = .alive →
      (readPath cap).Reach (s.pollRead 1).1 := by
    intro s hs hr
    refine hs.step (a := .poll 1) ?_
    change s.step (.poll 1) = _
    rw [ReadPath.step, hr, if_neg (by decide)]
  induction n generalizing s with
  | zero =>
    have hend : (s.pollRead 1).1 = { s with readHalf := .eof } := by
      simp only [pollRead, hread, halive, BoundedChannel.tryRecv_of_nil hq, hpump]
      rfl
    refine ⟨_, hturn s h halive, ?_⟩
    rw [hend]
    simp [pollRead, hread]
  | succ n ih =>
    obtain ⟨channel', hrecv, hq'⟩ := BoundedChannel.tryRecv_of_cons (c := s.channel) hq
    have htaken : (s.pollRead 1).1 = { s with channel := channel', readQueue := [[7]] } := by
      simp only [pollRead, hread, halive, hrecv]
      rfl
    have hgiven : (readPath cap).Reach
        { s with channel := channel', readQueue := [], returned := s.returned ++ [7] } := by
      have h1 := hturn s h halive
      rw [htaken] at h1
      exact hturn _ h1 halive
    obtain ⟨s', hs', heof, hready, hp, hr⟩ := ih hgiven hpump halive rfl hq'
    refine ⟨s', hs', heof, hready, hp, ?_⟩
    rw [hr, List.append_assoc, List.replicate_succ]
    rfl

/-- **A session that ends over a spilled batch.**  The reader lets the channel fill, one more batch
is spilled, the pump ends: the reader is told of the end with a byte missing. -/
theorem read_path_cut_off :
    ∃ s : ReadPath inboundChannelDepth, (readPath inboundChannelDepth).Reach s ∧
      s.readHalf = .eof ∧ (s.pollRead 1).2 = .ready [] ∧ s.returned ≠ s.popped := by
  obtain ⟨kcp, channel, hq, hr⟩ := reach_filled inboundChannelDepth _ le_rfl
  have hcut := reach_cut_off hr (by rw [hq, List.length_replicate])
  obtain ⟨s, hs, heof, hready, hp, hret⟩ := reach_told hcut rfl rfl rfl hq
  refine ⟨s, hs, heof, hready, fun heq => ?_⟩
  rw [hp, hret] at heq
  have hlen := congrArg List.length heq
  simp [unread] at hlen

end ReadPath

end Molehill
