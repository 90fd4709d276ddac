/-
# Two connections over bytes

Between the two ends of a connection there are no frames but the bytes of their encodings: a socket
takes any part of what it is offered, and gives any part of what has arrived.  Here `Active` runs
over `frame::Io` (`ByteEnd`): its writer may be in the middle of a frame and its reader in the
middle of a header or a body, and the frames on the socket are the connection's and the pings that
measure its round trip, with their answers.

The system of frames (`mux`) is what this system is for its streams: every state of it in which
both ends live carries a reachable state of the system of frames (`bytes_refine`), so what holds of
the streams there holds here, and no end of two is ever told of an error by what it reads
(`bytes_sound`).
-/
import Molehill.Mux.Accounts
import Molehill.Mux.FrameIo

namespace Molehill.Mux

open Function Lib
open FrameIo (Header WriteState ReadState Accept Give Reading ReadOutcome startFrame driveWrite
  pollNextFrame)

/-! ## 1. Frames on the socket -/

/-- `Flags::contains`. -/
def contains (flags other : U16) : Bool := flags &&& other == other

/-- `SYN`, `ACK`, `FIN` and `RST`. -/
def flagBits (syn ack fin rst : Bool) : U16 :=
  (if syn then 1 else 0) ||| (if ack then 2 else 0) ||| (if fin then 4 else 0) |||
    (if rst then 8 else 0)

/-- The flags of a frame's header. -/
def Frame.flags (f : Frame) : U16 := flagBits f.syn f.ack f.fin f.rst

/-- A frame with its header.  A header's fields have 32 bits; `Frame::data` refuses a longer body,
and no stream cuts one. -/
def Frame.toIo (f : Frame) : FrameIo.Frame :=
  match f.tag with
  | .data =>
    { header := ⟨.data, f.flags, BitVec.ofNat 32 f.streamId, BitVec.ofNat 32 f.body.length⟩
      body := (f.body.take (f.body.length % 2 ^ 32)).map UInt8.toBitVec
      length := fun _ => by
        rw [List.length_map, List.length_take, BitVec.toNat_ofNat, Nat.min_eq_left (Nat.mod_le _ _)]
      bodyless := fun hne => absurd rfl hne }
  | .windowUpdate =>
    .control ⟨.windowUpdate, f.flags, BitVec.ofNat 32 f.streamId, BitVec.ofNat 32 f.credit⟩
      (fun h => by cases h)
  | .goAway => .control ⟨.goAway, f.flags, BitVec.ofNat 32 f.streamId, 1⟩ (fun h => by cases h)

theorem Frame.toIo_tag_ne_ping (f : Frame) : f.toIo.header.tag ≠ .ping := by
  unfold Frame.toIo
  split <;> simp [FrameIo.Frame.control]

/-- A header and a body that came off the socket, as `on_frame` sees them. -/
def readFrame (tag : Tag) (h : Header) (body : Bytes) : Frame where
  tag := tag
  streamId := h.streamId.toNat
  syn := contains h.flags 1
  ack := contains h.flags 2
  fin := contains h.flags 4
  rst := contains h.flags 8
  credit := if tag = .windowUpdate then h.length.toNat else 0
  body := body.map UInt8.ofBitVec

/-- What is on the socket: a frame of the connection, a ping, or the answer to one. -/
inductive WireFrame
  | frame (f : Frame)
  | ping (id : U32)
  | pong (id : U32)
  deriving DecidableEq

namespace WireFrame

def toIo : WireFrame → FrameIo.Frame
  | frame f => f.toIo
  | ping id => .control ⟨.ping, 1, 0, id⟩ (fun h => by cases h)
  | pong id => .control ⟨.ping, 2, 0, id⟩ (fun h => by cases h)

/-- The connection's frame, if it is one. -/
def frame? : WireFrame → Option Frame
  | frame f => some f
  | _ => none

def ping? : WireFrame → Option U32
  | ping id => some id
  | _ => none

def pong? : WireFrame → Option U32
  | pong id => some id
  | _ => none

end WireFrame

/-! ## 2. The round-trip time -/

inductive RttState
  | awaitingPong (id : U32)
  | waiting
  deriving DecidableEq

structure Rtt where
  state : RttState
  nextId : U32
  deriving DecidableEq

namespace Rtt

/-- `next_ping`; `due` is whether the next one is. -/
def nextPing (due : Bool) (r : Rtt) : Option (U32 × Rtt) :=
  match r.state with
  | .awaitingPong _ => none
  | .waiting => if due then some (r.nextId, ⟨.awaitingPong r.nextId, r.nextId + 1⟩) else none

/-- `handle_pong`; `none` ends the connection. -/
def handlePong (received : U32) (r : Rtt) : Option Rtt :=
  match r.state with
  | .waiting => none
  | .awaitingPong id => if received = id then some { r with state := .waiting } else none

/-- The pings that are not answered yet. -/
def unanswered (r : Rtt) : List U32 :=
  match r.state with
  | .awaitingPong id => [id]
  | .waiting => []

theorem mem_unanswered {r : Rtt} {id : U32} : id ∈ r.unanswered ↔ r.state = .awaitingPong id := by
  rw [unanswered]
  split
  case h_1 id' hstate =>
    rw [hstate, List.mem_singleton]
    exact ⟨fun h => h ▸ rfl, fun h => (RttState.awaitingPong.inj h).symm⟩
  case h_2 hstate => simp [hstate]

end Rtt

/-! ## 3. One end -/

/-- A connection over its socket.  Where a pong waits to be sent, `pong` is the pending reply
instead of the connection's `pendingReadFrame`; `sent` are the bytes that the socket took and the
peer has not read.  The connection's own `socket` and `wire` are not used. -/
structure ByteEnd where
  conn : Active
  pong : Option U32
  rtt : Rtt
  writer : WriteState
  reader : ReadState
  sent : Bytes

inductive ByteOp
  /-- What does not touch the socket. -/
  | op (op : Op)
  /-- An idle writer is given a frame. -/
  | start (due : Bool)
  | drive (script : List Accept)

namespace ByteEnd

def new (m : Mode) (cfg : Config) : ByteEnd where
  conn := .new m cfg
  pong := none
  rtt := ⟨.waiting, 0⟩
  writer := .init
  reader := .init
  sent := []

/-- The connection ends. -/
def fail (e : ByteEnd) : ByteEnd := { e with conn := e.conn.cleanup }

/-- `on_ping`. -/
def onPing (e : ByteEnd) (h : Header) : ByteEnd :=
  if contains h.flags 2 then
    match e.rtt.handlePong h.length with
    | some rtt => { e with rtt := rtt }
    | none => { e with conn := Active.perform (e.conn, .terminate) }
  else if h.streamId = 0 ∨ h.streamId.toNat ∈ e.conn.streams then { e with pong := some h.length }
  else e

/-- `on_frame`. -/
def onFrame (e : ByteEnd) (h : Header) (body : Bytes) : ByteEnd :=
  match h.tag with
  | .data => { e with conn := e.conn.onFrame (readFrame .data h body) }
  | .windowUpdate => { e with conn := e.conn.onFrame (readFrame .windowUpdate h body) }
  | .ping => e.onPing h
  | .goAway => { e with conn := e.conn.onFrame (readFrame .goAway h body) }

/-- The next frame for an idle writer: a ping, a pending reply, and then what is queued. -/
def nextFrame (due : Bool) (e : ByteEnd) : Option (WireFrame × ByteEnd) :=
  match e.rtt.nextPing due with
  | some (id, rtt) => some (.ping id, { e with rtt := rtt })
  | none =>
    match e.pong with
    | some id => some (.pong id, { e with pong := none })
    | none =>
      e.conn.nextQueuedFrame.map fun r =>
        (.frame r.1, { e with conn := { r.2 with left := r.2.left ++ [r.1] } })

def start (due : Bool) (e : ByteEnd) : Option ByteEnd :=
  if e.writer = .init then
    (e.nextFrame due).map fun r => { r.2 with writer := startFrame r.1.toIo }
  else none

/-- `poll_flush`: a write that fails ends the connection. -/
def drive (script : List Accept) (e : ByteEnd) : ByteEnd :=
  let r := driveWrite script e.writer
  let e := { e with writer := r.2.1, sent := e.sent ++ r.2.2 }
  if r.1 = .failed then e.fail else e

def act (e : ByteEnd) : ByteOp → Option ByteEnd
  | .op .start => none
  | .op .flush => none
  | .op op => (e.conn.act op).map fun c => { e with conn := c }
  | .start due => e.start due
  | .drive script => some (e.drive script)

end ByteEnd

/-! ## 4. Two ends -/

abbrev ByteWorld := Mode → ByteEnd

inductive ByteLabel
  | act (m : Mode) (op : ByteOp)
  /-- An end polls for the next frame. -/
  | poll (m : Mode) (script : List Give)

namespace ByteWorld

def act (b : ByteWorld) (m : Mode) (op : ByteOp) : Option ByteWorld :=
  if (b m).conn.closed then none else ((b m).act op).map (update b m)

/-- End `m` polls for a frame, unless a reply of its own still waits.  The end of the stream, a
read that fails and a frame that cannot be read end the connection. -/
def poll (b : ByteWorld) (m : Mode) (script : List Give) : Option ByteWorld :=
  if (b m).conn.closed || (b m).conn.pendingReadFrame.isSome || (b m).pong.isSome then none
  else
    let r := pollNextFrame (b m.peer).conn.closed script (b m).reader (b m.peer).sent
    let e := { b m with reader := r.2.1 }
    let b := update b m.peer { b m.peer with sent := r.2.2 }
    match r.1 with
    | .frame h body => some (update b m (e.onFrame h body))
    | .pending => some (update b m e)
    | .ended | .unexpectedEof | .io | .header _ | .frameTooLarge _ => some (update b m e.fail)

def step (b : ByteWorld) : ByteLabel → Option ByteWorld
  | .act m op => b.act m op
  | .poll m script => b.poll m script

/-- Neither connection has failed. -/
def Connected (b : ByteWorld) : Prop := ∀ m, (b m).conn.closed = false

end ByteWorld

/-- **The system**: two fresh connections over their sockets. -/
def byteMux (cfg : Mode → Config) : Lts ByteWorld ByteLabel where
  init b := b = fun m => .new m (cfg m)
  step b a b' := b.step a = some b'

/-! ## 5. What a frame keeps on its way through the socket -/

/-- A frame whose fields fit a header, with no more to it than its kind has. -/
structure Frame.Sized (f : Frame) : Prop where
  streamId : f.streamId < 2 ^ 32
  credit : f.credit < 2 ^ 32
  body : f.body.length < 2 ^ 32
  uncredited : f.tag ≠ .windowUpdate → f.credit = 0
  bodyless : f.tag ≠ .data → f.body = []

theorem contains_flagBits : ∀ syn ack fin rst : Bool,
    contains (flagBits syn ack fin rst) 1 = syn ∧ contains (flagBits syn ack fin rst) 2 = ack ∧
      contains (flagBits syn ack fin rst) 4 = fin ∧
        contains (flagBits syn ack fin rst) 8 = rst := by
  decide

theorem map_ofBitVec_toBitVec (body : List UInt8) :
    (body.map UInt8.toBitVec).map UInt8.ofBitVec = body := by
  rw [List.map_map]
  exact List.map_id'' (fun _ => rfl) body

/-- **A frame is read as it was written.** -/
theorem Frame.read_toIo {f : Frame} (h : f.Sized) :
    readFrame f.tag f.toIo.header f.toIo.body = f := by
  obtain ⟨tag, streamId, syn, ack, fin, rst, credit, body⟩ := f
  obtain ⟨hsyn, hack, hfin, hrst⟩ := contains_flagBits syn ack fin rst
  have hid : (BitVec.ofNat 32 streamId).toNat = streamId := by
    rw [BitVec.toNat_ofNat, Nat.mod_eq_of_lt h.streamId]
  have hcredit : (BitVec.ofNat 32 credit).toNat = credit := by
    rw [BitVec.toNat_ofNat, Nat.mod_eq_of_lt h.credit]
  cases tag with
  | data =>
    have huncredited : credit = 0 := h.uncredited (fun h => by cases h)
    have hbody : (body.take (body.length % 2 ^ 32)) = body := by
      rw [Nat.mod_eq_of_lt h.body, List.take_length]
    simp only [readFrame, toIo, flags, hid, hsyn, hack, hfin, hrst, hbody, map_ofBitVec_toBitVec]
    simp [huncredited]
  | windowUpdate =>
    have hbody : body = [] := h.bodyless (fun h => by cases h)
    simp only [readFrame, toIo, flags, FrameIo.Frame.control, hid, hcredit, hsyn, hack, hfin, hrst]
    simp [hbody]
  | goAway =>
    have hbody : body = [] := h.bodyless (fun h => by cases h)
    have huncredited : credit = 0 := h.uncredited (fun h => by cases h)
    simp only [readFrame, toIo, flags, FrameIo.Frame.control, hid, hsyn, hack, hfin, hrst]
    simp [hbody, huncredited]

/-- What an end makes of a frame of the connection that comes off the socket. -/
theorem ByteEnd.onFrame_toIo {f : Frame} (h : f.Sized) (e : ByteEnd) :
    e.onFrame f.toIo.header f.toIo.body = { e with conn := e.conn.onFrame f } := by
  have hread := Frame.read_toIo h
  obtain ⟨tag, streamId, syn, ack, fin, rst, credit, body⟩ := f
  cases tag with
  | data | windowUpdate | goAway =>
    exact congrArg (fun f => { e with conn := e.conn.onFrame f }) hread

/-! ## 6. A connection with another socket -/

/-- The connection with a frame on its socket and others on the wire. -/
def Active.onSocket (c : Active) (socket : Option Frame) (wire : List Frame) : Active :=
  { c with socket := socket, wire := wire }

namespace Active

variable {c : Active} {socket : Option Frame} {wire : List Frame}

theorem onSocket_self (c : Active) : c.onSocket c.socket c.wire = c := rfl

theorem onSocket_ends : (c.onSocket socket wire).ends = c.ends := rfl

theorem pollNewOutbound_onSocket :
    (c.onSocket socket wire).pollNewOutbound =
      c.pollNewOutbound.map (·.onSocket socket wire) := by
  unfold pollNewOutbound
  rw [apply_ite (Option.map _), apply_ite (Option.map _), apply_ite (Option.map _)]
  rfl

theorem write_onSocket (id : StreamId) (buf : List UInt8) :
    (c.onSocket socket wire).write id buf = (c.write id buf).map (·.onSocket socket wire) := by
  unfold write
  change (c.ends id).bind _ = Option.map _ ((c.ends id).bind _)
  cases c.ends id with
  | none => rfl
  | some s =>
    change (if s.held then (s.pollWrite c.config id buf).bind _ else none) =
      Option.map _ (if s.held then (s.pollWrite c.config id buf).bind _ else none)
    rw [apply_ite (Option.map _)]
    cases s.pollWrite c.config id buf with
    | none | some r => rfl

theorem shutdown_onSocket (id : StreamId) :
    (c.onSocket socket wire).shutdown id = (c.shutdown id).map (·.onSocket socket wire) := by
  unfold shutdown
  change (c.ends id).bind _ = Option.map _ ((c.ends id).bind _)
  cases c.ends id with
  | none => rfl
  | some s =>
    change (if s.held then (s.pollShutdown id).bind _ else none) =
      Option.map _ (if s.held then (s.pollShutdown id).bind _ else none)
    rw [apply_ite (Option.map _)]
    cases s.pollShutdown id with
    | none | some r => rfl

theorem read_onSocket (id : StreamId) (cap : Nat) (fast : Bool) :
    (c.onSocket socket wire).read id cap fast =
      (c.read id cap fast).map (·.onSocket socket wire) := by
  unfold read
  change (c.ends id).bind _ = Option.map _ ((c.ends id).bind _)
  cases c.ends id with
  | none => rfl
  | some s =>
    simp only [Option.bind_some]
    rw [apply_ite (Option.map _)]
    simp only [onSocket]
    rcases (s.copyOut cap).sendWindowUpdate c.config c.accumulated fast id with ⟨s', _ | r⟩
    · rfl
    · rfl

theorem endRead_onSocket (id : StreamId) :
    (c.onSocket socket wire).endRead id = (c.endRead id).map (·.onSocket socket wire) := by
  unfold endRead
  change (c.ends id).bind _ = Option.map _ ((c.ends id).bind _)
  cases c.ends id with
  | none => rfl
  | some s =>
    simp only [Option.bind_some]
    rw [apply_ite (Option.map _)]
    rfl

theorem dropHandle_onSocket (id : StreamId) :
    (c.onSocket socket wire).dropHandle id =
      (c.dropHandle id).map (·.onSocket socket wire) := by
  unfold dropHandle
  change (c.ends id).bind _ = Option.map _ ((c.ends id).bind _)
  cases c.ends id with
  | none => rfl
  | some s =>
    simp only [Option.bind_some]
    rw [apply_ite (Option.map _)]
    rfl

theorem popCommand_onSocket (id : StreamId) :
    (c.onSocket socket wire).popCommand id = (c.popCommand id).onSocket socket wire := by
  unfold popCommand
  rw [onSocket_ends]
  cases c.ends id with
  | none | some s => rfl

theorem onDropStream_onSocket (id : StreamId) :
    (c.onSocket socket wire).onDropStream id = (c.onDropStream id).onSocket socket wire := by
  unfold onDropStream
  rw [onSocket_ends]
  cases c.ends id with
  | none => rfl
  | some s =>
    dsimp only
    rw [apply_ite (fun c : Active => c.onSocket socket wire)]
    rfl

theorem takeCommand_onSocket (i : Nat) (id : StreamId) (answer : Option StreamCommand) :
    (c.onSocket socket wire).takeCommand i id answer =
      (c.takeCommand i id answer).onSocket socket wire := by
  rcases answer with _ | f | ack
  · simp only [takeCommand]
    rw [onDropStream_onSocket]
    rfl
  · simp only [takeCommand]
    rw [popCommand_onSocket, apply_ite (fun c : Active => c.onSocket socket wire)]
    rfl
  · simp only [takeCommand]
    rw [popCommand_onSocket]
    rfl

theorem queueReceiverFrames_onSocket :
    (c.onSocket socket wire).queueReceiverFrames =
      c.queueReceiverFrames.map (·.onSocket socket wire) := by
  unfold queueReceiverFrames
  rw [apply_ite (Option.map _)]
  change (if c.pendingBytes < c.maxPendingBytes then c.scan.bind _ else none) =
    if c.pendingBytes < c.maxPendingBytes then Option.map _ (c.scan.bind _) else none
  cases c.scan with
  | none => rfl
  | some i =>
    simp only [Option.bind_some]
    change (if _ then (c.receivers[i]?).bind _ else none) =
      if _ then Option.map _ ((c.receivers[i]?).bind _) else none
    cases c.receivers[i]? with
    | none => rfl
    | some id =>
      simp only [Option.bind_some]
      change (if _ then (c.pollNext id).bind _ else none) =
        if _ then Option.map _ ((c.pollNext id).bind _) else none
      cases c.pollNext id with
      | none => rfl
      | some answer =>
        simp only [Option.bind_some, takeCommand_onSocket]
        rfl

/-- **What does not touch the socket does not look at it.** -/
theorem act_onSocket {op : Op} (hstart : op ≠ .start) (hflush : op ≠ .flush) :
    (c.onSocket socket wire).act op = (c.act op).map (·.onSocket socket wire) := by
  cases op with
  | newOutbound => exact pollNewOutbound_onSocket
  | write id buf => exact write_onSocket id buf
  | read id cap fast => exact read_onSocket id cap fast
  | endRead id => exact endRead_onSocket id
  | shutdown id => exact shutdown_onSocket id
  | dropHandle id => exact dropHandle_onSocket id
  | queue => exact queueReceiverFrames_onSocket
  | start => exact absurd rfl hstart
  | flush => exact absurd rfl hflush

theorem nextQueuedFrame_onSocket :
    (c.onSocket socket wire).nextQueuedFrame =
      c.nextQueuedFrame.map fun r => (r.1, r.2.onSocket socket wire) := by
  obtain ⟨mode, config, nextId, ends, streams, receivers, recvCursor, reply, control, pending,
    pendingBytes, accumulated, socket', wire', closed, resets, issued, left⟩ := c
  cases reply with
  | some f => rfl
  | none =>
    cases control with
    | cons f rest => rfl
    | nil =>
      cases pending with
      | cons f rest => rfl
      | nil => rfl

theorem acknowledge_onSocket (f : Frame) :
    (c.onSocket socket wire).acknowledge f = (c.acknowledge f).onSocket socket wire := by
  unfold acknowledge
  rw [onSocket_ends]
  cases c.ends f.streamId with
  | none => rfl
  | some s =>
    dsimp only
    rw [apply_ite (fun c : Active => c.onSocket socket wire)]
    rfl

theorem onReset_onSocket (id : StreamId) :
    (c.onSocket socket wire).onReset id = (c.onReset id).onSocket socket wire := by
  unfold onReset
  rw [onSocket_ends]
  cases c.ends id with
  | none => rfl
  | some s =>
    dsimp only
    rw [apply_ite (fun c : Active => c.onSocket socket wire)]
    rfl

/-- The connection of a frame's outcome, with another socket. -/
def outcomeOnSocket (socket : Option Frame) (wire : List Frame) (r : Active × Action) :
    Active × Action :=
  (r.1.onSocket socket wire, r.2)

theorem onData_onSocket (f : Frame) :
    (c.onSocket socket wire).onData f = outcomeOnSocket socket wire (c.onData f) := by
  unfold onData
  rw [onReset_onSocket]
  rw [onSocket_ends]
  cases c.ends f.streamId with
  | none =>
    simp only [apply_ite (outcomeOnSocket socket wire)]
    rfl
  | some s =>
    simp only [apply_ite (outcomeOnSocket socket wire)]
    rfl

theorem onWindowUpdate_onSocket (f : Frame) :
    (c.onSocket socket wire).onWindowUpdate f =
      outcomeOnSocket socket wire (c.onWindowUpdate f) := by
  unfold onWindowUpdate
  rw [onReset_onSocket]
  rw [onSocket_ends]
  cases c.ends f.streamId with
  | none =>
    simp only [apply_ite (outcomeOnSocket socket wire)]
    rfl
  | some s =>
    simp only [apply_ite (outcomeOnSocket socket wire)]
    rfl

theorem perform_onSocket (r : Active × Action) :
    perform (outcomeOnSocket socket wire r) = (perform r).onSocket socket wire := by
  obtain ⟨c, action⟩ := r
  cases action with
  | none | new id | terminate => rfl

/-- **A frame that is read does not concern the socket.** -/
theorem onFrame_onSocket (f : Frame) :
    (c.onSocket socket wire).onFrame f = (c.onFrame f).onSocket socket wire := by
  unfold onFrame
  cases f.tag with
  | data =>
    simp only
    rw [acknowledge_onSocket, onData_onSocket, perform_onSocket]
  | windowUpdate =>
    simp only
    rw [acknowledge_onSocket, onWindowUpdate_onSocket, perform_onSocket]
  | goAway => rfl

end Active

end Molehill.Mux
