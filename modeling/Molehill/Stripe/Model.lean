/-
# A stripe group: `send_loop`, `stripe_reader` and `recv_loop`

One direction of a striped connection as the code runs it: the send loop reads its source chunk
by chunk and frames each chunk onto one of `k` data channels, `k` reader tasks cut the frames
out of the channels and feed one bounded queue, and the receive loop puts the frames back in
sequence and writes them to the destination.

Each data channel is a byte stream that neither loses nor reorders: what was written and not yet
read is `unread`.  Everything else is up to the environment and comes in with the step's label:
how many bytes a read gives, what a `poll_write` answers (a `Pending` one commits nothing), when
a channel fails, which task moves next, and when a direction is aborted.

The sequence numbers are `u64` and `+= 1` wraps, as it does in the release profile.  Not
modelled: the stall clock of `StripePlan` and the activity stamp, which no byte depends on, and
the shutdown of the destination, which comes after its last byte.
-/
import Molehill.Lib.Bytes
import Molehill.Lib.Transition
import Mathlib.Logic.Function.Basic
import Mathlib.Data.Fintype.Basic

namespace Molehill.Stripe

open Lib Function

/-! ## 1. The frame -/

/-- `STRIPE_HEADER_LEN`: a big-endian `u64` sequence number and a big-endian `u16` length. -/
def stripeHeaderLen : Nat := 10

/-- `STRIPE_REORDER_QUEUE`: the capacity of the readers' common queue. -/
def stripeReorderQueue : Nat := 32

/-- `encode_header`. -/
def encodeHeader (seq : U64) (len : Nat) : Except String Bytes :=
  if len < 65536 then
    .ok (beBytes 8 seq.toNat ++ beBytes 2 len)
  else
    .error s!"stripe frame payload of {len} bytes exceeds the u16 wire length"

/-- `decode_header`. -/
def decodeHeader (buf : Bytes) : U64 × Nat :=
  (BitVec.ofNat 64 (ofBe (buf.take 8)), ofBe (buf.drop 8))

/-- One frame from one stripe, or the news that the stripe broke. -/
inductive StripeEvent
  | frame (seq : U64) (bytes : Bytes)
  | broken (reason : String)
  deriving DecidableEq

/-- Which of a reader's three reads of one frame an error comes from. -/
inductive ReadStage
  | first
  | header
  | payload
  deriving DecidableEq

/-- The reason a reader reports. -/
def ReadStage.reason (e : String) : ReadStage → String
  | .first => s!"stripe read failed: {e}"
  | .header => s!"stripe frame header truncated: {e}"
  | .payload => s!"stripe frame payload truncated: {e}"

/-- One pass of the `stripe_reader` loop over the bytes at hand: the frame at their front and
the bytes behind it, or `none` while the frame is incomplete. -/
def readFrame (unread : Bytes) : Option (StripeEvent × Bytes) :=
  if unread.length < stripeHeaderLen then none
  else
    let (seq, len) := decodeHeader (unread.take stripeHeaderLen)
    let payload := unread.drop stripeHeaderLen
    if payload.length < len then none
    else some (.frame seq (payload.take len), payload.drop len)

/-- What the loop does at the end of its stream, where no whole frame is left: a clean end is
silent, a cut header or payload is reported. -/
def readEnd (unread : Bytes) : Option StripeEvent :=
  if unread.length = 0 then none
  else if unread.length < stripeHeaderLen then
    some (.broken (ReadStage.header.reason "early eof"))
  else some (.broken (ReadStage.payload.reason "early eof"))

/-! ## 2. The state -/

/-- Where `send_loop` stands: in `read_buf`, in `send_owned` with a frame, in `finish` before
stripe `i`, or over. -/
inductive SendPhase
  | reading
  | sending (frame : Bytes)
  | finishing (i : Nat)
  | finished
  | failed
  deriving DecidableEq

/-- `StripeSender` with `send_loop`'s counter and `poll_send`'s. -/
structure StripeSender (k : Nat) where
  seq : U64
  next : Nat
  committed : Fin k → Nat
  tried : Nat
  phase : SendPhase

/-- Where a `stripe_reader` stands: in its reads, in `tx.send` with an event, returned at a
clean end, or returned (or aborted) otherwise. -/
inductive ReaderPhase
  | reading
  | holding (ev : StripeEvent)
  | eof
  | stopped
  deriving DecidableEq

/-- A data channel: the bytes on their way, whether its write side was closed, and its
reader. -/
structure Channel where
  unread : Bytes
  closed : Bool
  reader : ReaderPhase

/-- Where `recv_loop` stands: in `rx.recv`, in `write_dest` with the bytes still to write, or
returned. -/
inductive RecvPhase
  | waiting
  | writing (rest : Bytes)
  | done
  | failed
  deriving DecidableEq

/-- `recv_loop`: its two variables, the readers' queue and what the destination took. -/
structure RecvLoop where
  next : U64
  pending : List (U64 × Bytes)
  queue : List StripeEvent
  phase : RecvPhase
  dest : Bytes

/-- One direction of a stripe group.  `reads` is the history of the source: the chunks it gave
so far. -/
structure Group (k : Nat) where
  reads : List Bytes
  send : StripeSender k
  stripes : Fin k → Channel
  recv : RecvLoop

namespace Group

variable {k : Nat} [NeZero k]

/-- The group as `spawn_group` starts it. -/
def new (k : Nat) : Group k where
  reads := []
  send := ⟨0, 0, fun _ => 0, 0, .reading⟩
  stripes := fun _ => ⟨[], false, .reading⟩
  recv := ⟨0, [], [], .waiting, []⟩

/-- The bytes the source gave. -/
def source (g : Group k) : Bytes := g.reads.flatten

/-! ## 3. The send loop -/

/-- A chunk comes in: frame it under the next number.  A chunk too long for the header's length
field ends the loop. -/
def read (g : Group k) (chunk : Bytes) : Group k :=
  match encodeHeader g.send.seq chunk.length with
  | .ok header =>
    { g with reads := g.reads ++ [chunk], send.phase := .sending (header ++ chunk), send.tried := 0 }
  | .error _ => { g with reads := g.reads ++ [chunk], send.phase := .failed }

/-- What a `poll_write` answers. -/
inductive WriteAnswer
  | ready (n : Nat)
  | pending
  | error
  deriving DecidableEq

/-- The stripe `poll_send` looks at. -/
def idx (g : Group k) : Fin k := Fin.ofNat k g.send.next

/-- Bytes written to a stripe. -/
def put (g : Group k) (i : Fin k) (bytes : Bytes) : Fin k → Channel :=
  update g.stripes i { g.stripes i with unread := (g.stripes i).unread ++ bytes }

/-- `Poll::Ready(Ok(n))`, `n > 0`: the frame ends here, or the stripe is committed to it. -/
def accepted (g : Group k) (frame : Bytes) (n : Nat) : Group k :=
  let off := g.send.committed g.idx
  if off + n = frame.length then
    { g with
      stripes := g.put g.idx ((frame.drop off).take n)
      send :=
        { seq := g.send.seq + 1
          next := g.idx + 1
          committed := update g.send.committed g.idx 0
          tried := 0
          phase := .reading } }
  else
    { g with
      stripes := g.put g.idx ((frame.drop off).take n)
      send.committed := update g.send.committed g.idx (off + n) }

/-- `Poll::Pending`: a committed stripe parks the task; otherwise the next stripe is tried, and
after a full round the task parks.  A parked task starts its next poll with a fresh round. -/
def refused (g : Group k) : Group k :=
  if 0 < g.send.committed g.idx then { g with send.tried := 0 }
  else if g.send.tried + 1 = k then { g with send.next := g.idx + 1, send.tried := 0 }
  else { g with send.next := g.idx + 1, send.tried := g.send.tried + 1 }

def sendFailed (g : Group k) : Group k := { g with send.phase := .failed }

/-- One turn of `poll_send`'s loop.  A write never takes more than it was given. -/
def poll (g : Group k) (ans : WriteAnswer) : Option (Group k) :=
  match g.send.phase, ans with
  | .sending frame, .ready n =>
    if n = 0 then some g.sendFailed
    else if g.send.committed g.idx + n ≤ frame.length then some (g.accepted frame n)
    else none
  | .sending _, .pending => some g.refused
  | .sending _, .error => some g.sendFailed
  | _, _ => none

/-- The write side of a stripe is closed. -/
def closeStripe (g : Group k) (i : Fin k) : Group k :=
  { g with stripes := update g.stripes i { g.stripes i with closed := true } }

/-- One turn of `finish`: stripe `i` is shut down, and an error is ignored. -/
def shutdown (g : Group k) (ok : Bool) : Option (Group k) :=
  match g.send.phase with
  | .finishing i =>
    let g' := { g with send.phase := if i + 1 < k then .finishing (i + 1) else .finished }
    some (if ok then g'.closeStripe (Fin.ofNat k i) else g')
  | _ => none

/-- The steps of the send loop.  Its streams are dropped one by one when it is over. -/
inductive SendLabel (k : Nat)
  | read (chunk : Bytes)
  | readEof
  | readError
  | poll (ans : WriteAnswer)
  | shutdown (ok : Bool)
  | drop (i : Fin k)
  | abort

def sendStep (g : Group k) : SendLabel k → Option (Group k)
  | .read chunk => if g.send.phase = .reading ∧ chunk ≠ [] then some (g.read chunk) else none
  | .readEof =>
    if g.send.phase = .reading then some { g with send.phase := .finishing 0 } else none
  | .readError => if g.send.phase = .reading then some g.sendFailed else none
  | .poll ans => g.poll ans
  | .shutdown ok => g.shutdown ok
  | .drop i =>
    if g.send.phase = .failed ∨ g.send.phase = .finished then some (g.closeStripe i) else none
  | .abort => if g.send.phase = .finished then none else some g.sendFailed

/-! ## 4. The readers -/

/-- `recv_loop` returned, and dropped the queue's receiving end. -/
def recvOver (g : Group k) : Bool := g.recv.phase = .done ∨ g.recv.phase = .failed

def setStripe (g : Group k) (i : Fin k) (unread : Bytes) (reader : ReaderPhase) : Group k :=
  { g with
    stripes := update g.stripes i { g.stripes i with unread := unread, reader := reader } }

/-- The reader's phase after its event went into the queue. -/
def afterSend : StripeEvent → ReaderPhase
  | .frame _ _ => .reading
  | .broken _ => .stopped

/-- `tx.send(ev).await`: fails once the receiver is gone, waits while the queue is full. -/
def push (g : Group k) (i : Fin k) (ev : StripeEvent) : Option (Group k) :=
  let s := g.stripes i
  if g.recvOver then some (g.setStripe i s.unread .stopped)
  else if g.recv.queue.length < stripeReorderQueue then
    some { g.setStripe i s.unread (afterSend ev) with
      recv := { g.recv with queue := g.recv.queue ++ [ev] } }
  else none

/-- The end of the stream: clean, or in the middle of a frame. -/
def endOfStripe (g : Group k) (i : Fin k) : Group k :=
  match readEnd (g.stripes i).unread with
  | none => g.setStripe i (g.stripes i).unread .eof
  | some ev => g.setStripe i (g.stripes i).unread (.holding ev)

inductive ReadLabel
  | frame
  | push
  | endOfStripe
  | error (stage : ReadStage) (e : String)
  | abort
  deriving DecidableEq

/-- The steps of the reader of stripe `i`. -/
def readStep (g : Group k) (i : Fin k) : ReadLabel → Option (Group k)
  | .frame =>
    match (g.stripes i).reader, readFrame (g.stripes i).unread with
    | .reading, some (ev, rest) => some (g.setStripe i rest (.holding ev))
    | _, _ => none
  | .push =>
    match (g.stripes i).reader with
    | .holding ev => g.push i ev
    | _ => none
  | .endOfStripe =>
    if (g.stripes i).reader = .reading ∧ (g.stripes i).closed ∧
        readFrame (g.stripes i).unread = none then
      some (g.endOfStripe i)
    else none
  | .error stage e =>
    if (g.stripes i).reader = .reading then
      some (g.setStripe i (g.stripes i).unread (.holding (.broken (stage.reason e))))
    else none
  | .abort =>
    if g.recvOver ∧ (g.stripes i).reader ≠ .eof then
      some (g.setStripe i (g.stripes i).unread .stopped)
    else none

end Group

/-! ## 5. The receive loop -/

namespace RecvLoop

/-- `BTreeMap::insert`. -/
def insert (r : RecvLoop) (seq : U64) (bytes : Bytes) : List (U64 × Bytes) :=
  (seq, bytes) :: r.pending.filter fun e => e.1 ≠ seq

/-- A frame comes off the queue: its turn, early, or a duplicate. -/
def frame (r : RecvLoop) (rest : List StripeEvent) (seq : U64) (bytes : Bytes) : RecvLoop :=
  if seq = r.next then { r with queue := rest, phase := .writing bytes }
  else if r.next < seq then { r with queue := rest, pending := r.insert seq bytes }
  else { r with queue := rest }

/-- `rx.recv().await` gave an event. -/
def event (r : RecvLoop) : Option RecvLoop :=
  match r.phase, r.queue with
  | .waiting, .frame seq bytes :: rest => some (r.frame rest seq bytes)
  | .waiting, .broken _ :: rest => some { r with queue := rest, phase := .failed }
  | _, _ => none

/-- One write of `write_all`. -/
def write (r : RecvLoop) (n : Nat) : Option RecvLoop :=
  match r.phase with
  | .writing rest =>
    if 0 < n ∧ n ≤ rest.length then
      some { r with phase := .writing (rest.drop n), dest := r.dest ++ rest.take n }
    else none
  | _ => none

/-- A frame is written: count it, and go on with `pending.remove(&next)`. -/
def written (r : RecvLoop) : Option RecvLoop :=
  if r.phase = .writing [] then
    match r.pending.find? fun e => e.1 = r.next + 1 with
    | some e => some { r with
        next := r.next + 1, pending := r.pending.filter fun e => e.1 ≠ r.next + 1,
        phase := .writing e.2 }
    | none => some { r with next := r.next + 1, phase := .waiting }
  else none

end RecvLoop

/-- The steps of the receive loop: an event, a write to the destination, the end of a frame, a
failed write, the closed queue (and whether the destination's shutdown worked), an abort. -/
inductive RecvLabel
  | event
  | write (n : Nat)
  | written
  | writeError
  | close (ok : Bool)
  | abort
  deriving DecidableEq

namespace Group

variable {k : Nat} [NeZero k]

/-- A reader that returned has dropped its sender. -/
def readerOver (g : Group k) (i : Fin k) : Bool :=
  (g.stripes i).reader = .eof ∨ (g.stripes i).reader = .stopped

/-- `rx.recv().await` gives `None`: the queue is empty and no sender is left. -/
def queueClosed (g : Group k) : Prop := g.recv.queue = [] ∧ ∀ i, g.readerOver i

instance (g : Group k) : Decidable g.queueClosed := inferInstanceAs (Decidable (_ ∧ _))

def recvStep (g : Group k) : RecvLabel → Option (Group k)
  | .event => g.recv.event.map fun r => { g with recv := r }
  | .write n => (g.recv.write n).map fun r => { g with recv := r }
  | .written => g.recv.written.map fun r => { g with recv := r }
  | .writeError =>
    match g.recv.phase with
    | .writing (_ :: _) => some { g with recv.phase := .failed }
    | _ => none
  | .close ok =>
    if g.recv.phase = .waiting ∧ g.queueClosed then
      some { g with recv.phase := if ok then .done else .failed }
    else none
  | .abort => if g.recvOver then none else some { g with recv.phase := .failed }

/-! ## 6. The group -/

inductive Label (k : Nat)
  | send (a : SendLabel k)
  | read (i : Fin k) (a : ReadLabel)
  | recv (a : RecvLabel)

def step (g : Group k) : Label k → Option (Group k)
  | .send a => g.sendStep a
  | .read i a => g.readStep i a
  | .recv a => g.recvStep a

end Group

/-- **The system.**  The send loop, the `k` readers and the receive loop, in every
interleaving. -/
def stripeGroup (k : Nat) [NeZero k] : Lts (Group k) (Group.Label k) where
  init g := g = Group.new k
  step g a g' := g.step a = some g'

/-- The source ended and the send loop went on to close the stripes. -/
def Group.SourceEnded {k : Nat} (g : Group k) : Prop :=
  (∃ i, g.send.phase = .finishing i) ∨ g.send.phase = .finished

/-- Every stripe ended at a frame boundary, by the close of its write side. -/
def Group.EndedCleanly {k : Nat} (g : Group k) : Prop := ∀ i, (g.stripes i).reader = .eof

end Molehill.Stripe
