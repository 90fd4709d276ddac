/-
# The multiplexer: one connection and its streams

`Active` and `Stream` as the code has them, up to what a poll can observe: a frame is its header
and its body, a stream end is its handle, its shared state and its command channel, and a
connection has the stream table, the receivers with their cursor, the three queues in front of the
socket, and the frame the socket is writing.  `wire` is what the socket has taken and the peer has
not read yet.

Wakers are left out (a poll that finds nothing changes nothing), and so are pings: they touch no
stream and no queue but their own slot, and the round-trip time they measure enters only as the
`fast` of a window update.  What was written, read and reported to the users of a stream, the
frames in the order the streams issued them and in the order they left, are kept beside the state
for the statements; no operation looks at them.
-/
import Mathlib.Logic.Function.Basic
import Molehill.Lib.Transition

namespace Molehill.Mux

open Function Lib

/-! ## 1. Constants, modes and frames -/

/-- `DEFAULT_CREDIT`. -/
def defaultCredit : Nat := 256 * 1024

/-- `MAX_ACK_BACKLOG`. -/
def maxAckBacklog : Nat := 256

/-- The depth of a stream's command channel. -/
def channelDepth : Nat := 10

/-- `u32::MAX`. -/
def u32Max : Nat := 2 ^ 32 - 1

/-- `usize::MAX`. -/
def usizeMax : Nat := 2 ^ 64 - 1

/-- `Config`, with what its setters assert and the split size no setter changes. -/
structure Config where
  maxConnectionReceiveWindow : Option Nat
  maxNumStreams : Nat
  splitSendSize : Nat
  split_pos : 0 < splitSendSize
  covers : maxNumStreams * defaultCredit ≤ maxConnectionReceiveWindow.getD usizeMax

/-- The configuration of the tunnels: `DEFAULT_MUX_MAX_STREAMS` and `DEFAULT_MUX_RECEIVE_WINDOW`
are set, the split size is the default. -/
def tunnelConfig : Config where
  maxConnectionReceiveWindow := some (32 * 1024 * 1024)
  maxNumStreams := 64
  splitSendSize := 32 * 1024
  split_pos := by decide
  covers := by decide

/-- How the connection is used. -/
inductive Mode
  | client
  | server
  deriving DecidableEq

/-- The other end. -/
def Mode.peer : Mode → Mode
  | .client => .server
  | .server => .client

@[simp] theorem Mode.peer_peer (m : Mode) : m.peer.peer = m := by
  cases m <;> rfl

@[simp] theorem Mode.peer_ne (m : Mode) : m.peer ≠ m := by
  cases m <;> decide

@[simp] theorem Mode.ne_peer (m : Mode) : m ≠ m.peer := by
  cases m <;> decide

theorem Mode.eq_or_eq_peer (m k : Mode) : k = m ∨ k = m.peer := by
  cases m <;> cases k <;> decide

abbrev StreamId := Nat

/-- `is_client` and `is_server`: whether streams of this id are opened by that end. -/
def Mode.opens (m : Mode) (id : StreamId) : Bool :=
  match m with
  | .client => id % 2 == 1
  | .server => id % 2 == 0

theorem Mode.opens_peer (m : Mode) (id : StreamId) : m.peer.opens id = !m.opens id := by
  cases m with
  | client => rcases Nat.mod_two_eq_zero_or_one id with h | h <;> simp [opens, peer, h]
  | server => rcases Nat.mod_two_eq_zero_or_one id with h | h <;> simp [opens, peer, h]

inductive Tag
  | data
  | windowUpdate
  | goAway
  deriving DecidableEq

/-- A frame: the header's tag, stream, flags and credit, and the body. -/
structure Frame where
  tag : Tag
  streamId : StreamId
  syn : Bool
  ack : Bool
  fin : Bool
  rst : Bool
  credit : Nat
  body : List UInt8
  deriving DecidableEq

namespace Frame

/-- `Frame::data`. -/
def data (id : StreamId) (body : List UInt8) : Frame :=
  ⟨.data, id, false, false, false, false, 0, body⟩

/-- `Frame::window_update`. -/
def windowUpdate (id : StreamId) (credit : Nat) : Frame :=
  ⟨.windowUpdate, id, false, false, false, false, credit, []⟩

/-- `Frame::close_stream`. -/
def closeStream (id : StreamId) (ack : Bool) : Frame :=
  ⟨.data, id, false, ack, true, false, 0, []⟩

/-- A bodyless reset of one stream. -/
def reset (id : StreamId) : Frame :=
  ⟨.data, id, false, false, false, true, 0, []⟩

/-- `Frame::protocol_error`, a frame of the connection itself. -/
def protocolError : Frame :=
  ⟨.goAway, 0, false, false, false, false, 0, []⟩

/-- `is_bookkeeping`. -/
def isBookkeeping (f : Frame) : Bool := f.tag == .windowUpdate || f.fin

end Frame

/-! ## 2. One end of a stream -/

/-- The state of a stream. -/
inductive State
  | opened (acknowledged : Bool)
  | sendClosed
  | recvClosed
  | closed
  deriving DecidableEq

namespace State

def canRead : State → Bool
  | .recvClosed => false
  | .closed => false
  | _ => true

def canWrite : State → Bool
  | .sendClosed => false
  | .closed => false
  | _ => true

/-- `Shared::update_state`. -/
def update (current next : State) : State :=
  match current, next with
  | .opened _, next => next
  | .recvClosed, .closed => .closed
  | .recvClosed, .sendClosed => .closed
  | .sendClosed, .closed => .closed
  | .sendClosed, .recvClosed => .closed
  | current, _ => current

end State

/-- Which flag the next frame still has to carry. -/
inductive Flag
  | none
  | syn
  | ack
  deriving DecidableEq

inductive StreamCommand
  | sendFrame (f : Frame)
  | closeStream (ack : Bool)
  deriving DecidableEq

/-- The frame a command becomes. -/
def StreamCommand.frame (id : StreamId) : StreamCommand → Frame
  | .sendFrame f => f
  | .closeStream ack => .closeStream id ack

/-- A stream end: the handle's flag and command channel, the shared state with its windows and
its buffer, whether the handle is still held, and whether a `poll_read` that found nothing is on its
way to its last lock.  The last four fields record what the users of the handle did and saw: the
bytes its writes took, the bytes its reads gave, whether a read reported the end of the stream, and
whether a shutdown queued the close. -/
structure Stream where
  flag : Flag
  state : State
  receiveWindow : Nat
  maxReceiveWindow : Nat
  sendWindow : Nat
  buffer : List UInt8
  channel : List StreamCommand
  held : Bool
  looking : Bool
  written : List UInt8
  readOut : List UInt8
  eof : Bool
  shut : Bool
  deriving DecidableEq

namespace Stream

/-- A fresh end; its flag and its send window are the opener's or the accepter's. -/
def new (flag : Flag) (sendWindow : Nat) : Stream :=
  ⟨flag, .opened false, defaultCredit, defaultCredit, sendWindow, [], [], true, false, [], [], false,
    false⟩

/-- `Stream::new_outbound`. -/
def newOutbound : Stream := new .syn defaultCredit

/-- `Stream::new_inbound`. -/
def newInbound (credit : Nat) : Stream := new .ack credit

/-- `try_send` on the command channel. -/
def send (s : Stream) (cmd : StreamCommand) : Stream := { s with channel := s.channel ++ [cmd] }

/-- The first command leaves the channel. -/
def popped (s : Stream) : Stream := { s with channel := s.channel.tail }

/-- `add_flag`. -/
def addFlag (s : Stream) (f : Frame) : Stream × Frame :=
  match s.flag with
  | .none => (s, f)
  | .syn => ({ s with flag := .none }, { f with syn := true })
  | .ack => ({ s with flag := .none }, { f with ack := true })

/-- The frames waiting in the command channel. -/
def queued (s : Stream) (id : StreamId) : List Frame := s.channel.map (StreamCommand.frame id)

/-- `poll_write` on an end that takes bytes: the bytes leave in one frame, as many as the window,
the buffer and the split size allow. -/
def pollWrite (cfg : Config) (id : StreamId) (s : Stream) (buf : List UInt8) :
    Option (Stream × Frame) :=
  if channelDepth ≤ s.channel.length then none
  else if !s.state.canWrite then none
  else if s.sendWindow = 0 then none
  else
    let k := min (min s.sendWindow buf.length) cfg.splitSendSize
    let body := buf.take k
    let s := { s with sendWindow := s.sendWindow - k, written := s.written ++ body }
    let (s, f) := s.addFlag (.data id body)
    let s := if f.ack then { s with state := s.state.update (.opened true) } else s
    some (s.send (.sendFrame f), f)

/-- `poll_shutdown` on an end that queues its close. -/
def pollShutdown (id : StreamId) (s : Stream) : Option (Stream × Frame) :=
  if s.state = .closed then none
  else if channelDepth ≤ s.channel.length then none
  else
    let ack := s.flag == .ack
    let s := { s with flag := if ack then .none else s.flag }
    let s := s.send (.closeStream ack)
    some ({ s with state := s.state.update .sendClosed, shut := true }, .closeStream id ack)

/-- The auto-tuned receive window: doubled, within what the connection has left. -/
def grownWindow (cfg : Config) (accumulated : Nat) (s : Stream) : Nat :=
  min (min (s.maxReceiveWindow * 2) u32Max)
    (min (s.maxReceiveWindow + (cfg.maxConnectionReceiveWindow.getD usizeMax
      - cfg.maxNumStreams * defaultCredit - accumulated)) u32Max)

/-- `next_window_update`: the credit to grant, the end that granted it and the connection's
account of grown windows.  `fast` is whether the last update is less than two round trips old. -/
def nextWindowUpdate (cfg : Config) (accumulated : Nat) (fast : Bool) (s : Stream) :
    Option (Nat × Stream × Nat) :=
  if s.maxReceiveWindow - s.receiveWindow - s.buffer.length < s.maxReceiveWindow / 2 then none
  else
    let newMax := if fast then s.grownWindow cfg accumulated else s.maxReceiveWindow
    let credit := newMax - s.receiveWindow - s.buffer.length
    some (credit,
      { s with maxReceiveWindow := newMax, receiveWindow := s.receiveWindow + credit },
      accumulated + (newMax - s.maxReceiveWindow))

/-- `send_window_update`: the end afterwards, and the update with the new account if there is
one. -/
def sendWindowUpdate (cfg : Config) (accumulated : Nat) (fast : Bool) (id : StreamId)
    (s : Stream) : Stream × Option (Frame × Nat) :=
  if !s.state.canRead then (s, none)
  else if channelDepth ≤ s.channel.length then (s, none)
  else
    match s.nextWindowUpdate cfg accumulated fast with
    | none => (s, none)
    | some (credit, s, accumulated) =>
      let (s, f) := s.addFlag (.windowUpdate id credit)
      (s.send (.sendFrame f), some (f, accumulated))

/-- `poll_read` under its first lock: as many buffered bytes as fit.  A read that had room and found
nothing goes on to look for the end. -/
def copyOut (s : Stream) (cap : Nat) : Stream :=
  { s with
    buffer := s.buffer.drop cap
    readOut := s.readOut ++ s.buffer.take cap
    looking := decide (0 < cap) && s.buffer.isEmpty }

/-- `poll_read` under its last lock: the end, if nothing more can come. -/
def look (s : Stream) : Stream :=
  { s with looking := false, eof := s.eof || !s.state.canRead }

/-- The half-close of a frame that has `FIN`. -/
def finish (s : Stream) (isFinish : Bool) : Stream :=
  if isFinish then { s with state := s.state.update .recvClosed } else s

/-- A frame's body arrives: it uses up the window and waits in the buffer. -/
def absorb (s : Stream) (body : List UInt8) : Stream :=
  { s with receiveWindow := s.receiveWindow - body.length, buffer := s.buffer ++ body }

end Stream

/-! ## 3. The connection -/

/-- A connection in its active state (`closed` once it has failed).  `ends` has every stream end
the connection ever had, `streams` the keys of the stream table, `receivers` the streams whose
channels are still polled.  `resets` are the streams it sent a reset for, `issued` and `left` the
frames in the order they were issued and handed to the socket. -/
structure Active where
  mode : Mode
  config : Config
  nextId : Nat
  ends : StreamId → Option Stream
  streams : List StreamId
  receivers : List StreamId
  recvCursor : Nat
  pendingReadFrame : Option Frame
  controlFrames : List Frame
  pendingFrames : List Frame
  pendingBytes : Nat
  accumulated : Nat
  socket : Option Frame
  wire : List Frame
  closed : Bool
  resets : List StreamId
  issued : List Frame
  left : List Frame

/-- What handling a frame asks of the connection. -/
inductive Action
  | none
  | new (id : StreamId)
  | terminate
  deriving DecidableEq

namespace Active

/-- `Active::new`. -/
def new (mode : Mode) (config : Config) : Active where
  mode := mode
  config := config
  nextId := match mode with
    | .client => 1
    | .server => 2
  ends := fun _ => none
  streams := []
  receivers := []
  recvCursor := 0
  pendingReadFrame := none
  controlFrames := []
  pendingFrames := []
  pendingBytes := 0
  accumulated := 0
  socket := none
  wire := []
  closed := false
  resets := []
  issued := []
  left := []

/-- `max_pending_bytes`. -/
def maxPendingBytes (c : Active) : Nat :=
  min (c.config.maxNumStreams * c.config.splitSendSize) usizeMax

/-- A stream end changes. -/
def setEnd (c : Active) (id : StreamId) (s : Stream) : Active :=
  { c with ends := update c.ends id (some s) }

/-- `drop_all_streams`, on the way to the connection's end. -/
def cleanup (c : Active) : Active :=
  { c with
    closed := true
    streams := []
    ends := fun id =>
      if id ∈ c.streams then
        (c.ends id).map fun s => { s with state := s.state.update .closed }
      else c.ends id }

/-- `is_pending_ack` of one stream. -/
def isPendingAck (c : Active) (id : StreamId) : Bool :=
  match c.ends id with
  | some s => s.state == .opened false
  | none => false

/-- `ack_backlog`. -/
def ackBacklog (c : Active) : Nat :=
  c.streams.countP fun id => c.mode.opens id && c.isPendingAck id

/-- A stream joins the table, with a receiver for its channel (`make_new_outbound_stream`,
`make_new_inbound_stream`). -/
def addStream (c : Active) (id : StreamId) (s : Stream) : Active :=
  { c.setEnd id s with
    streams := id :: c.streams
    receivers := c.receivers ++ [id] }

/-- `poll_new_outbound`: a stream opens, or the connection fails; `none` is a full backlog. -/
def pollNewOutbound (c : Active) : Option Active :=
  if c.config.maxNumStreams ≤ c.streams.length then some c.cleanup
  else if maxAckBacklog ≤ c.ackBacklog then none
  else if u32Max < c.nextId + 2 then some c.cleanup
  else some { c.addStream c.nextId .newOutbound with nextId := c.nextId + 2 }

/-! ### The users of a stream -/

/-- `poll_write` of a held handle. -/
def write (c : Active) (id : StreamId) (buf : List UInt8) : Option Active := do
  let s ← c.ends id
  if s.held then
    let (s, f) ← s.pollWrite c.config id buf
    some { c.setEnd id s with issued := c.issued ++ [f] }
  else none

/-- `poll_shutdown` of a held handle. -/
def shutdown (c : Active) (id : StreamId) : Option Active := do
  let s ← c.ends id
  if s.held then
    let (s, f) ← s.pollShutdown id
    some { c.setEnd id s with issued := c.issued ++ [f] }
  else none

/-- `poll_read` of a held handle, up to its last lock: buffered bytes first, then the window
update. -/
def read (c : Active) (id : StreamId) (cap : Nat) (fast : Bool) : Option Active := do
  let s ← c.ends id
  if s.held && !s.looking then
    match (s.copyOut cap).sendWindowUpdate c.config c.accumulated fast id with
    | (s, none) => some (c.setEnd id s)
    | (s, some (f, accumulated)) =>
      some { c.setEnd id s with accumulated := accumulated, issued := c.issued ++ [f] }
  else none

/-- The last lock of a `poll_read` that found nothing. -/
def endRead (c : Active) (id : StreamId) : Option Active := do
  let s ← c.ends id
  if s.held && s.looking then some (c.setEnd id s.look) else none

/-- The handle is dropped; the connection notices when it has drained the channel. -/
def dropHandle (c : Active) (id : StreamId) : Option Active := do
  let s ← c.ends id
  if s.held then some (c.setEnd id { s with held := false }) else none

/-! ### The queues -/

/-- `TaggedStream::poll_next`: the next command, or `some none` once the handle is gone. -/
def pollNext (c : Active) (id : StreamId) : Option (Option StreamCommand) := do
  let s ← c.ends id
  match s.channel with
  | cmd :: _ => some (some cmd)
  | [] => if s.held then none else some none

/-- The round-robin scan: the first receiver from the cursor on that is ready. -/
def scan (c : Active) : Option Nat :=
  let n := c.receivers.length
  ((List.range n).map fun offset => (c.recvCursor % n + offset) % n).find? fun i =>
    (c.receivers[i]?).any fun id => (c.pollNext id).isSome

/-- A command leaves its channel. -/
def popCommand (c : Active) (id : StreamId) : Active :=
  match c.ends id with
  | some s => c.setEnd id s.popped
  | none => c

/-- What `on_drop_stream` answers, by the state the stream was in. -/
def dropFrame (id : StreamId) : State → Option Frame
  | .opened _ => some (.reset id)
  | .recvClosed => some (.closeStream id false)
  | .sendClosed => none
  | .closed => none

/-- `on_drop_stream`, with the frame it answers queued: the stream leaves the table, and the
account of grown windows gets its part back. -/
def onDropStream (c : Active) (id : StreamId) : Active :=
  match c.ends id with
  | some s =>
    if id ∈ c.streams then
      { c.setEnd id { s with state := s.state.update .closed } with
        streams := c.streams.filter (· != id)
        accumulated := c.accumulated - (s.maxReceiveWindow - defaultCredit)
        controlFrames := c.controlFrames ++ (dropFrame id s.state).toList
        issued := c.issued ++ (dropFrame id s.state).toList
        resets := if dropFrame id s.state = some (.reset id) then id :: c.resets else c.resets }
    else c
  | none => c

/-- What `queue_receiver_frames` does with a receiver's answer. -/
def takeCommand (c : Active) (i : Nat) (id : StreamId) : Option StreamCommand → Active
  | some (.sendFrame f) =>
    if f.isBookkeeping then
      { c.popCommand id with
        pendingBytes := c.pendingBytes + f.body.length
        controlFrames := c.controlFrames ++ [f] }
    else
      { c.popCommand id with
        pendingBytes := c.pendingBytes + f.body.length
        pendingFrames := c.pendingFrames ++ [f] }
  | some (.closeStream ack) =>
    { c.popCommand id with controlFrames := c.controlFrames ++ [.closeStream id ack] }
  | none => { c.onDropStream id with receivers := c.receivers.eraseIdx i }

/-- The cursor moves past the receiver that was served, within the receivers that are left. -/
def wrapCursor (c : Active) (cursor : Nat) : Active :=
  { c with recvCursor := if c.receivers = [] then cursor else cursor % c.receivers.length }

/-- `queue_receiver_frames`, if it takes a command. -/
def queueReceiverFrames (c : Active) : Option Active := do
  if c.pendingBytes < c.maxPendingBytes then
    let i ← c.scan
    let id ← c.receivers[i]?
    let cmd ← c.pollNext id
    some ((c.takeCommand i id cmd).wrapCursor ((i + 1) % c.receivers.length))
  else none

/-- `next_queued_frame`: a pending reply, then the bookkeeping, then the payload. -/
def nextQueuedFrame (c : Active) : Option (Frame × Active) :=
  match c.pendingReadFrame, c.controlFrames, c.pendingFrames with
  | some f, _, _ => some (f, { c with pendingReadFrame := none })
  | none, f :: rest, _ => some (f, { c with controlFrames := rest })
  | none, [], f :: rest =>
    some (f, { c with pendingFrames := rest, pendingBytes := c.pendingBytes - f.body.length })
  | none, [], [] => none

/-- An idle socket takes the next frame. -/
def startFrame (c : Active) : Option Active :=
  match c.socket with
  | some _ => none
  | none => c.nextQueuedFrame.map fun (f, c) => { c with socket := some f, left := c.left ++ [f] }

/-- The socket has written its frame. -/
def flush (c : Active) : Option Active :=
  c.socket.map fun f => { c with socket := none, wire := c.wire ++ [f] }

/-! ### Frames from the peer -/

/-- A frame's `ACK` acknowledges the stream. -/
def acknowledge (c : Active) (f : Frame) : Active :=
  match c.ends f.streamId with
  | some s =>
    if f.ack && decide (f.streamId ∈ c.streams) then
      c.setEnd f.streamId { s with state := s.state.update (.opened true) }
    else c
  | none => c

/-- A reset from the peer. -/
def onReset (c : Active) (id : StreamId) : Active :=
  match c.ends id with
  | some s =>
    if id ∈ c.streams then c.setEnd id { s with state := s.state.update .closed } else c
  | none => c

/-- `on_data`. -/
def onData (c : Active) (f : Frame) : Active × Action :=
  if f.rst then (c.onReset f.streamId, .none)
  else if f.syn then
    if c.mode.opens f.streamId then (c, .terminate)
    else if f.streamId ∈ c.streams then (c, .terminate)
    else if c.streams.length = c.config.maxNumStreams then
      ({ c with
          pendingReadFrame := some (.reset f.streamId)
          issued := c.issued ++ [.reset f.streamId]
          resets := f.streamId :: c.resets }, .none)
    else if defaultCredit < f.body.length then (c, .terminate)
    else
      let s := ((Stream.newInbound defaultCredit).finish f.fin).absorb f.body
      (c.addStream f.streamId s, .new f.streamId)
  else
    match c.ends f.streamId with
    | some s =>
      if f.streamId ∈ c.streams then
        if s.receiveWindow < f.body.length then (c, .terminate)
        else (c.setEnd f.streamId ((s.finish f.fin).absorb f.body), .none)
      else (c, .none)
    | none => (c, .none)

/-- `on_window_update`. -/
def onWindowUpdate (c : Active) (f : Frame) : Active × Action :=
  if f.rst then (c.onReset f.streamId, .none)
  else if f.syn then
    if c.mode.opens f.streamId then (c, .terminate)
    else if f.streamId ∈ c.streams then (c, .terminate)
    else if c.streams.length = c.config.maxNumStreams then (c, .terminate)
    else if u32Max < f.credit + defaultCredit then (c, .terminate)
    else
      let s := (Stream.newInbound (f.credit + defaultCredit)).finish f.fin
      (c.addStream f.streamId s, .new f.streamId)
  else
    match c.ends f.streamId with
    | some s =>
      if f.streamId ∈ c.streams then
        if u32Max < s.sendWindow + f.credit then (c, .terminate)
        else
          let s := { s with sendWindow := s.sendWindow + f.credit }
          (c.setEnd f.streamId (s.finish f.fin), .none)
      else (c, .none)
    | none => (c, .none)

/-- The connection does what the handling of a frame asks: a protocol error is answered in the
slot of the pending replies. -/
def perform : Active × Action → Active
  | (c, .terminate) =>
    { c with
      pendingReadFrame := some .protocolError
      issued := c.issued ++ [.protocolError] }
  | (c, _) => c

/-- `on_frame`. -/
def onFrame (c : Active) (f : Frame) : Active :=
  match f.tag with
  | .data => perform ((c.acknowledge f).onData f)
  | .windowUpdate => perform ((c.acknowledge f).onWindowUpdate f)
  | .goAway => c.cleanup

end Active

/-! ## 4. Two connections -/

/-- What one end does by itself. -/
inductive Op
  | newOutbound
  | write (id : StreamId) (buf : List UInt8)
  | read (id : StreamId) (cap : Nat) (fast : Bool)
  | endRead (id : StreamId)
  | shutdown (id : StreamId)
  | dropHandle (id : StreamId)
  | queue
  | start
  | flush

/-- An operation of one end. -/
def Active.act (c : Active) : Op → Option Active
  | .newOutbound => c.pollNewOutbound
  | .write id buf => c.write id buf
  | .read id cap fast => c.read id cap fast
  | .endRead id => c.endRead id
  | .shutdown id => c.shutdown id
  | .dropHandle id => c.dropHandle id
  | .queue => c.queueReceiverFrames
  | .start => c.startFrame
  | .flush => c.flush

/-- The two ends of one socket. -/
abbrev World := Mode → Active

/-- An end's own operation, or an end reading the next frame off the socket. -/
inductive Label
  | act (m : Mode) (op : Op)
  | receive (m : Mode)

namespace World

/-- End `m` operates; an end that has failed does nothing more. -/
def act (w : World) (m : Mode) (op : Op) : Option World :=
  if (w m).closed then none else ((w m).act op).map (update w m)

/-- End `m` reads a frame, unless a reply of its own still waits.  When the peer is gone and the
socket has nothing left, the connection ends. -/
def receive (w : World) (m : Mode) : Option World :=
  if (w m).closed || (w m).pendingReadFrame.isSome then none
  else
    match (w m.peer).wire with
    | f :: rest =>
      some (update (update w m.peer { w m.peer with wire := rest }) m ((w m).onFrame f))
    | [] => if (w m.peer).closed then some (update w m (w m).cleanup) else none

/-- One step. -/
def step (w : World) : Label → Option World
  | .act m op => w.act m op
  | .receive m => w.receive m

/-- Neither connection has failed. -/
def Connected (w : World) : Prop := ∀ m, (w m).closed = false

end World

/-- **The system**: two fresh connections, and every interleaving of what their ends do. -/
def mux (cfg : Mode → Config) : Lts World Label where
  init w := w = fun m => .new m (cfg m)
  step w a w' := w.step a = some w'

end Molehill.Mux
