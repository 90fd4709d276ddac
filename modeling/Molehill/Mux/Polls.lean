/-
# The polls of a stream, access by access

The connection runs on one task, the handle of a stream is polled from others, and what they share
is the stream's locked state, its command channel and the slots of its wakers.  Here a poll is what
the code makes of it: one step for each lock it takes and each look at the channel, with the
connection free to act in between.

`full` is the look at the channel's capacity, `begin` and `advance` are the handle's steps, `pop`,
`settle` and `hear` the connection's while it lives, `dropAll` and `drain` those at its end.
-/
import Molehill.Mux.Moves

namespace Molehill.Mux

open Function Lib

/-! ## 1. Calls, slots and steps -/

/-- A call on the handle: `poll_write`, `poll_shutdown`, `poll_read`. -/
inductive Call
  | write (buf : List UInt8)
  | shutdown
  | read (cap : Nat)

/-- Where a poll stands: the access it makes next.  A read carries the room it was given and the
number of bytes it has delivered. -/
inductive Pc
  | idle
  | lockWrite (buf : List UInt8)
  | ackWrite (f : Frame)
  | sendWrite (f : Frame)
  | parkWriter
  | recheckWriter
  | unparkWriter
  | capacityShutdown
  | sendShutdown (ack : Bool)
  | stateShutdown
  | stateRead (cap n : Nat)
  | capacityRead (cap n : Nat)
  | grantRead (cap n : Nat)
  | sendRead (cap n : Nat) (f : Frame)
  | parkReader (cap n : Nat)
  | recheckReader (cap n : Nat)
  | unparkReader (cap n : Nat)
  | endRead (cap n : Nat)
  deriving DecidableEq

/-- A poll of the writer's task. -/
def Pc.writes : Pc → Bool
  | .lockWrite _ | .ackWrite _ | .sendWrite _ => true
  | .parkWriter | .recheckWriter | .unparkWriter => true
  | .capacityShutdown | .sendShutdown _ | .stateShutdown => true
  | _ => false

/-- A poll of the reader's task. -/
def Pc.reads : Pc → Bool
  | .stateRead _ _ | .capacityRead _ _ | .grantRead _ _ | .sendRead _ _ _ => true
  | .parkReader _ _ | .recheckReader _ _ | .unparkReader _ _ | .endRead _ _ => true
  | _ => false

/-- The room and the delivery of a read in progress. -/
def Pc.delivered : Pc → Option (Nat × Nat)
  | .stateRead cap n | .capacityRead cap n | .grantRead cap n | .sendRead cap n _ => some (cap, n)
  | .parkReader cap n | .recheckReader cap n | .unparkReader cap n => some (cap, n)
  | .endRead cap n => some (cap, n)
  | _ => none

theorem Pc.reads_of_delivered {pc : Pc} {p : Nat × Nat} (h : pc.delivered = some p) :
    pc.reads = true := by
  cases pc with
  | idle | lockWrite _ | ackWrite _ | sendWrite _ | parkWriter | recheckWriter | unparkWriter =>
    cases h
  | capacityShutdown | sendShutdown _ | stateShutdown => cases h
  | _ => rfl

/-- Where the connection stands with this stream: `popped` has taken a command and not yet woken
who waits for the channel, `waking` has taken wakers out of their slots and not yet used them. -/
inductive Conn
  | idle
  | popped
  | waking (reader writer : Bool)
  deriving DecidableEq

/-- Whether the connection holds the reader's waker. -/
def Conn.wakesReader : Conn → Bool
  | .waking reader _ => reader
  | _ => false

/-- Whether the connection holds the writer's waker. -/
def Conn.wakesWriter : Conn → Bool
  | .waking _ writer => writer
  | _ => false

/-- What a frame for this stream says. -/
inductive Heard
  | ack
  | data (body : List UInt8) (fin : Bool)
  | credit (n : Nat) (fin : Bool)
  | reset

/-- A frame on a listed stream; what ends the connection instead does not reach the stream. -/
def Stream.heard (s : Stream) : Heard → Option Stream
  | .ack => some { s with state := s.state.update (.opened true) }
  | .data body fin =>
    if s.receiveWindow < body.length then none else some ((s.finish fin).absorb body)
  | .credit n fin =>
    if u32Max < s.sendWindow + n then none
    else some (({ s with sendWindow := s.sendWindow + n } : Stream).finish fin)
  | .reset => some { s with state := s.state.update .closed }

/-- A stream end with the poll in progress, the slots of `Shared`, what its two tasks were last
told (`waits`: the last poll was pending; `woken`: and a wake came since it began), and the
connection.  `ended` is after `drop_all_streams`, `closed` after the receivers are closed and
drained; `cut` records that a read reported the end with bytes in the buffer. -/
structure Polled where
  s : Stream
  pc : Pc
  reader : Bool
  writer : Bool
  readerPark : Bool
  readerWaits : Bool
  readerWoken : Bool
  writerWaits : Bool
  writerWoken : Bool
  conn : Conn
  ended : Bool
  closed : Bool
  cut : Bool

namespace Polled

def new (flag : Flag) (sendWindow : Nat) : Polled where
  s := .new flag sendWindow
  pc := .idle
  reader := false
  writer := false
  readerPark := false
  readerWaits := false
  readerWoken := false
  writerWaits := false
  writerWoken := false
  conn := .idle
  ended := false
  closed := false
  cut := false

/-- `capacity() == 0`. -/
def full (t : Polled) : Bool := decide (channelDepth ≤ t.s.channel.length)

/-- `try_send`; a closed channel takes nothing. -/
def trySend (t : Polled) (cmd : StreamCommand) : Stream :=
  if t.closed then t.s else t.s.send cmd

/-- The bytes `poll_read` copies out, under its first lock. -/
def copied (s : Stream) (cap : Nat) : Stream :=
  { s with buffer := s.buffer.drop cap, readOut := s.readOut ++ s.buffer.take cap }

/-- A call begins, up to its first access. -/
def begin (t : Polled) (call : Call) : Option Polled :=
  if t.pc ≠ .idle then none
  else
    match call with
    | .write buf =>
      some { t with
        writerWaits := false
        writerWoken := false
        pc := if t.full then .parkWriter else .lockWrite buf }
    | .shutdown =>
      some { t with
        writerWaits := false
        writerWoken := false
        pc := if t.s.state = .closed then .idle else .capacityShutdown }
    | .read cap =>
      some { t with
        readerWaits := false
        readerWoken := false
        s := copied t.s cap
        pc := .stateRead cap (min cap t.s.buffer.length) }

/-- `poll_write` under its lock: no more writes, no credit (the writer's slot is filled under the
same lock), or the bytes leave the window. -/
def lockWrite (cfg : Config) (id : StreamId) (buf : List UInt8) (t : Polled) : Polled :=
  if !t.s.state.canWrite then { t with pc := .idle }
  else if t.s.sendWindow = 0 then { t with pc := .idle, writer := true, writerWaits := true }
  else
    let k := min (min t.s.sendWindow buf.length) cfg.splitSendSize
    let body := buf.take k
    let s := { t.s with sendWindow := t.s.sendWindow - k, written := t.s.written ++ body }
    let (s, f) := s.addFlag (.data id body)
    { t with s := s, pc := if f.ack then .ackWrite f else .sendWrite f }

/-- The window update of `send_window_update` under its lock. -/
def grantRead (cfg : Config) (id : StreamId) (accumulated : Nat) (fast : Bool) (cap n : Nat)
    (t : Polled) : Polled :=
  match t.s.nextWindowUpdate cfg accumulated fast with
  | none => { t with pc := .endRead cap n }
  | some (credit, s, _) =>
    let (s, f) := s.addFlag (.windowUpdate id credit)
    { t with s := s, pc := .sendRead cap n f }

/-- The last lock of `poll_read`: bytes were delivered, or the end, or the reader's slot is filled
and the buffer looked at once more. -/
def endRead (cap n : Nat) (t : Polled) : Polled :=
  if 0 < n then { t with pc := .idle }
  else if !t.s.state.canRead then
    { t with
      pc := .idle
      s := { t.s with eof := t.s.eof || decide (0 < cap) }
      cut := t.cut || (decide (0 < cap) && !t.s.buffer.isEmpty) }
  else if t.s.buffer.isEmpty then { t with pc := .idle, reader := true, readerWaits := true }
  else { t with pc := .idle, reader := false, readerWaits := true, readerWoken := true }

/-- **The poll makes its next access**; the account of grown windows and the age of the last
update are what it finds. -/
def advance (cfg : Config) (id : StreamId) (accumulated : Nat) (fast : Bool) (t : Polled) :
    Option Polled :=
  match t.pc with
  | .idle => none
  | .lockWrite buf => some (t.lockWrite cfg id buf)
  | .ackWrite f =>
    some { t with s := { t.s with state := t.s.state.update (.opened true) }, pc := .sendWrite f }
  | .sendWrite f => some { t with s := t.trySend (.sendFrame f), pc := .idle }
  | .parkWriter => some { t with writer := true, pc := .recheckWriter }
  | .recheckWriter =>
    some (if t.full then { t with pc := .idle, writerWaits := true }
      else { t with pc := .unparkWriter })
  | .unparkWriter =>
    some { t with
      pc := .idle
      writer := false
      writerWaits := true
      writerWoken := t.writerWoken || t.writer }
  | .capacityShutdown =>
    some (if t.full then { t with pc := .parkWriter }
      else
        let ack := t.s.flag == .ack
        { t with
          s := { t.s with flag := if ack then .none else t.s.flag }
          pc := .sendShutdown ack })
  | .sendShutdown ack =>
    some { t with
      s := t.trySend (.closeStream ack)
      pc := if t.closed then .idle else .stateShutdown }
  | .stateShutdown =>
    some { t with
      s := { t.s with state := t.s.state.update .sendClosed, shut := true }
      pc := .idle }
  | .stateRead cap n =>
    some { t with pc := if t.s.state.canRead then .capacityRead cap n else .endRead cap n }
  | .capacityRead cap n =>
    some { t with pc := if t.full then .parkReader cap n else .grantRead cap n }
  | .grantRead cap n => some (t.grantRead cfg id accumulated fast cap n)
  | .sendRead cap n f =>
    some { t with
      s := t.trySend (.sendFrame f)
      pc := if t.closed then .idle else .endRead cap n }
  | .parkReader cap n => some { t with readerPark := true, pc := .recheckReader cap n }
  | .recheckReader cap n =>
    some { t with pc := if t.full then .endRead cap n else .unparkReader cap n }
  | .unparkReader cap n =>
    some { t with
      pc := .endRead cap n
      readerPark := false
      readerWoken := t.readerWoken || t.readerPark }
  | .endRead cap n => some (t.endRead cap n)

/-- The connection takes a command off the channel (`TaggedStream::poll_next`). -/
def pop (t : Polled) : Option Polled :=
  if t.ended || t.conn ≠ .idle || t.s.channel.isEmpty then none
  else some { t with s := t.s.popped, conn := .popped }

/-- The connection wakes: after a command, `wake_stream_writer`, both slots under the lock; after
a frame, the wakers it holds. -/
def settle (t : Polled) : Option Polled :=
  match t.conn with
  | .idle => none
  | .popped =>
    some { t with
      conn := .idle
      writer := false
      writerWoken := t.writerWoken || t.writer
      readerPark := false
      readerWoken := t.readerWoken || t.readerPark }
  | .waking r w =>
    some { t with
      conn := .idle
      readerWoken := t.readerWoken || r
      writerWoken := t.writerWoken || w }

/-- `on_frame`, `on_data` and `on_window_update` on a listed stream: what is done under the
stream's lock, and the wakers that are taken out of their slots. -/
def hear (t : Polled) (h : Heard) : Option Polled :=
  if t.ended || t.conn ≠ .idle then none
  else
    (t.s.heard h).map fun s =>
      match h with
      | .ack => { t with s := s }
      | .data _ _ => { t with s := s, reader := false, conn := .waking t.reader false }
      | .credit _ fin =>
        { t with
          s := s
          reader := t.reader && !fin
          writer := false
          conn := .waking (t.reader && fin) t.writer }
      | .reset =>
        { t with s := s, reader := false, writer := false, conn := .waking t.reader t.writer }

/-- `drop_all_streams` on the way to the connection's end. -/
def dropAll (t : Polled) : Option Polled :=
  if t.ended || t.conn ≠ .idle then none
  else
    some { t with
      s := { t.s with state := t.s.state.update .closed }
      reader := false
      writer := false
      conn := .waking t.reader t.writer
      ended := true }

/-- `Cleanup`: the receiver is closed and drained. -/
def drain (t : Polled) : Option Polled :=
  if !t.ended || t.conn ≠ .idle then none
  else some { t with s := { t.s with channel := [] }, closed := true }

/-- What happens next. -/
inductive Next
  | begin (call : Call)
  | advance (accumulated : Nat) (fast : Bool)
  | pop
  | settle
  | hear (h : Heard)
  | dropAll
  | drain

def step (cfg : Config) (id : StreamId) (t : Polled) : Next → Option Polled
  | .begin call => t.begin call
  | .advance accumulated fast => t.advance cfg id accumulated fast
  | .pop => t.pop
  | .settle => t.settle
  | .hear h => t.hear h
  | .dropAll => t.dropAll
  | .drain => t.drain

end Polled

/-- **One stream**: every interleaving of the polls of its handle with the connection. -/
def polls (cfg : Config) (id : StreamId) : Lts Polled Polled.Next where
  init t := ∃ flag sendWindow, t = .new flag sendWindow
  step t a t' := t.step cfg id a = some t'

/-! ## 2. What an access does to the stream -/

/-- The window update is worth sending. -/
def Stream.due (s : Stream) : Prop :=
  s.maxReceiveWindow / 2 ≤ s.maxReceiveWindow - s.receiveWindow - s.buffer.length

namespace Polled

/-- A window that a `u32` holds and half of which is not nothing. -/
def InRange (s : Stream) : Prop := 2 ≤ s.maxReceiveWindow ∧ s.maxReceiveWindow ≤ u32Max

variable {t t' : Polled} {cfg : Config} {id : StreamId}

/-- What an access that sends or grants leaves alone. -/
structure Kept (s s' : Stream) : Prop where
  state : s'.state = s.state
  sendWindow : s'.sendWindow = s.sendWindow
  buffer : s'.buffer = s.buffer

theorem trySend_kept (t : Polled) (cmd : StreamCommand) : Kept t.s (t.trySend cmd) := by
  unfold trySend
  split
  · exact ⟨rfl, rfl, rfl⟩
  · exact ⟨rfl, rfl, rfl⟩

theorem trySend_windows (t : Polled) (cmd : StreamCommand) :
    (t.trySend cmd).maxReceiveWindow = t.s.maxReceiveWindow ∧
      (t.trySend cmd).receiveWindow = t.s.receiveWindow := by
  unfold trySend
  split
  · exact ⟨rfl, rfl⟩
  · exact ⟨rfl, rfl⟩

theorem trySend_length (t : Polled) (cmd : StreamCommand) :
    t.s.channel.length ≤ (t.trySend cmd).channel.length := by
  unfold trySend
  split
  · exact Nat.le_refl _
  · rw [Stream.send, List.length_append]
    exact Nat.le_add_right _ _

/-- **The window update**, under its lock: there was nothing to send, or there is nothing left. -/
theorem grantRead_cases (cfg : Config) (id : StreamId) (accumulated : Nat) (fast : Bool)
    (cap n : Nat) (t : Polled) :
    (t.grantRead cfg id accumulated fast cap n = { t with pc := .endRead cap n } ∧ ¬ t.s.due) ∨
      ∃ s' f, t.grantRead cfg id accumulated fast cap n =
        { t with s := s', pc := .sendRead cap n f } ∧ Kept t.s s' ∧ s'.channel = t.s.channel ∧
          (InRange t.s → InRange s' ∧ ¬ s'.due) := by
  unfold grantRead
  split
  next hnone =>
    refine Or.inl ⟨rfl, fun hdue => ?_⟩
    rw [Stream.nextWindowUpdate, if_neg (Nat.not_lt.mpr hdue)] at hnone
    cases hnone
  next credit s1 acc hsome =>
    obtain ⟨-, newMax, hmax, hcredit, rfl⟩ := Stream.nextWindowUpdate_spec hsome
    rw [Stream.addFlag_eq]
    refine Or.inr ⟨_, _, rfl, ⟨rfl, rfl, rfl⟩, rfl, fun hrange => ?_⟩
    obtain ⟨hlow, hhigh⟩ := hrange
    obtain ⟨hle, hu32⟩ := hmax hhigh
    refine ⟨⟨Nat.le_trans hlow hle, hu32⟩, fun hdue => ?_⟩
    unfold Stream.due at hdue
    dsimp only at hdue
    omega

/-! ### The life of the connection -/

theorem begin_ended {call : Call} (hs : t.begin call = some t') : t'.ended = t.ended := by
  unfold Polled.begin at hs
  split at hs
  · cases hs
  cases call <;> cases hs <;> rfl

theorem advance_ended {accumulated : Nat} {fast : Bool}
    (hs : t.advance cfg id accumulated fast = some t') : t'.ended = t.ended := by
  unfold Polled.advance at hs
  cases hpc : t.pc with
  | idle =>
    rw [hpc] at hs
    cases hs
  | lockWrite buf =>
    rw [hpc] at hs
    cases hs
    unfold lockWrite
    split
    · rfl
    split <;> rfl
  | recheckWriter =>
    rw [hpc] at hs
    cases hs
    split <;> rfl
  | capacityShutdown =>
    rw [hpc] at hs
    cases hs
    split <;> rfl
  | grantRead cap n =>
    rw [hpc] at hs
    cases hs
    obtain ⟨hg, -⟩ | ⟨s', f, hg, -⟩ := grantRead_cases cfg id accumulated fast cap n t
    · rw [hg]
    · rw [hg]
  | endRead cap n =>
    rw [hpc] at hs
    cases hs
    unfold endRead
    split
    · rfl
    split
    · rfl
    split <;> rfl
  | _ =>
    rw [hpc] at hs
    cases hs
    rfl

theorem settle_ended (hs : t.settle = some t') : t'.ended = t.ended := by
  unfold Polled.settle at hs
  split at hs <;> cases hs <;> rfl

/-- What the connection does only while it lives. -/
theorem hear_ended {e : Heard} (hs : t.hear e = some t') : t.ended = false := by
  unfold Polled.hear at hs
  split at hs
  · cases hs
  next hopen => exact (by simpa using hopen : t.ended = false ∧ _).1

theorem pop_ended (hs : t.pop = some t') : t.ended = false := by
  unfold Polled.pop at hs
  split at hs
  · cases hs
  next hopen =>
    cases he : t.ended with
    | false => rfl
    | true => simp [he] at hopen

theorem dropAll_ended (hs : t.dropAll = some t') : t'.ended = true := by
  unfold Polled.dropAll at hs
  split at hs <;> cases hs
  rfl

theorem drain_ended (hs : t.drain = some t') : t.ended = true := by
  unfold Polled.drain at hs
  split at hs
  · cases hs
  next hopen =>
    cases he : t.ended with
    | true => rfl
    | false => simp [he] at hopen

/-- A connection that lives has lived. -/
theorem ended_of_step {a : Next} (hs : t.step cfg id a = some t') (hl : t'.ended = false) :
    t.ended = false := by
  cases a with
  | begin call => exact begin_ended hs ▸ hl
  | advance accumulated fast => exact advance_ended hs ▸ hl
  | pop => exact pop_ended hs
  | settle => exact settle_ended hs ▸ hl
  | hear e => exact hear_ended hs
  | dropAll =>
    rw [dropAll_ended hs] at hl
    cases hl
  | drain =>
    cases hs' : t.ended with
    | false => rfl
    | true =>
      unfold Polled.step Polled.drain at hs
      dsimp only at hs
      split at hs <;> cases hs
      exact hs'.symm.trans hl

end Polled

end Molehill.Mux
