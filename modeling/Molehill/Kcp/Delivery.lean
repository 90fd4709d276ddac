/-
# Two connected engines over a lossy network

Two engines of one conversation, and a network that keeps every datagram either end has emitted
and may deliver any of them, in any order, any number of times, or never.  Each end may at any
moment send, update, flush, flush its acks, force a resend, change its MTU, its timers or its
windows, and pop.

The numbers on the wire are 32 bits wide, so a network that may hold a datagram back for ever
could hand out one whose number has come round again.  `Fresh` is the assumption that rules it
out: a delivered datagram is at most half the sequence space old, measured in the segments its
emitter has numbered since (for the data numbers) and in the segments its receiver has numbered
past the cumulative acknowledgement its emitter stood at (for the ack numbers).  And it is a UDP
datagram: its length fits the 16-bit length field.

The main result is `popped_prefix_accepted`: in every reachable state, what either end has
popped is a prefix of what the other end's send calls accepted.  The joint invariant is
`Direction`: the sender's and the receiver's invariants over ONE history, the wire in between,
and the bound that the sender never runs further ahead of the receiver than half the space and
one window.
-/
import Molehill.Kcp.Emission
import Molehill.Lib.Transition

namespace Molehill

open Lib

/-! ## 1. The system -/

/-- A datagram in the network, stamped with where its emitter stood: how many segments it had
numbered, and how many it had received in order. -/
structure Flight where
  bytes : Bytes
  sndAt : Nat
  rcvAt : Nat
  deriving DecidableEq

/-- One end: its engine, what its send calls accepted, what it popped, its two counters
unwrapped, and every datagram it has emitted. -/
structure Peer where
  kcp : Kcp
  accepted : Bytes
  popped : Bytes
  sndCount : Nat
  rcvCount : Nat
  flights : List Flight
  deriving DecidableEq

/-- What an end may do by itself. -/
inductive Action
  | send (data : Bytes)
  | recv
  | update (current : U32)
  | flush
  | flushAck
  | retransmitSn (sn : U32)
  | setMtu (mtu : Nat)
  | setNodelay (nodelay : Bool) (interval resend : Int) (nc : Bool)
  | setWndsize (sndwnd rcvwnd : U16)

/-- The engine after an action, the bytes it accepted and the bytes it popped. -/
def Action.run (k : Kcp) : Action → Kcp × Bytes × Bytes
  | .send data => ((k.sendOwned data).1, acceptedBytes data (k.sendOwned data).2, [])
  | .recv => (k.recvPop.1, [], poppedBytes k.recvPop.2)
  | .update current => ((k.update current).1, [], [])
  | .flush => (k.flush.1, [], [])
  | .flushAck => (k.flushAck.1, [], [])
  | .retransmitSn sn => (k.retransmitSn sn, [], [])
  | .setMtu mtu => (k.setMtu mtu, [], [])
  | .setNodelay nodelay interval resend nc => (k.setNodelay nodelay interval resend nc, [], [])
  | .setWndsize sndwnd rcvwnd => (k.setWndsize sndwnd rcvwnd, [], [])

/-- Book an engine call: unwrap the counters' moves, and hand what was written to the sink to
the network. -/
def Peer.book (p : Peer) (r : Kcp × Bytes × Bytes) : Peer :=
  let sndCount := p.sndCount + (r.1.sndNxt - p.kcp.sndNxt).toNat
  let rcvCount := p.rcvCount + (r.1.rcvNxt - p.kcp.rcvNxt).toNat
  { kcp := { r.1 with output := [] }
    accepted := p.accepted ++ r.2.1
    popped := p.popped ++ r.2.2
    sndCount := sndCount
    rcvCount := rcvCount
    flights := p.flights ++ r.1.output.map fun d => ⟨d, sndCount, rcvCount⟩ }

def Peer.act (p : Peer) (a : Action) : Peer := p.book (a.run p.kcp)

/-- A delivered datagram goes to `input`. -/
def Peer.receive (p : Peer) (f : Flight) : Peer := p.book ((p.kcp.input f.bytes).1, [], [])

/-- The end a connection starts with. -/
def Peer.new (conv : U32) : Peer := ⟨newStream conv, [], [], 0, 0, []⟩

/-- At most half the sequence space old, and a UDP datagram. -/
structure Fresh (f : Flight) (emitter receiver : Peer) : Prop where
  data : emitter.sndCount ≤ f.sndAt + 2 ^ 31
  ack : receiver.sndCount ≤ f.rcvAt + 2 ^ 31
  udp : f.bytes.length ≤ 65535

/-- The two ends of a conversation. -/
structure Link where
  left : Peer
  right : Peer
  deriving DecidableEq

inductive LinkLabel
  | actLeft (a : Action)
  | actRight (a : Action)
  | deliverLeft (f : Flight)
  | deliverRight (f : Flight)

/-- The steps of the system: an end acts, or a fresh datagram of the other end arrives. -/
inductive LinkStep : Link → LinkLabel → Link → Prop
  | actLeft (s : Link) (a : Action) : LinkStep s (.actLeft a) { s with left := s.left.act a }
  | actRight (s : Link) (a : Action) : LinkStep s (.actRight a) { s with right := s.right.act a }
  | deliverLeft (s : Link) (f : Flight) : f ∈ s.right.flights → Fresh f s.right s.left →
      LinkStep s (.deliverLeft f) { s with left := s.left.receive f }
  | deliverRight (s : Link) (f : Flight) : f ∈ s.left.flights → Fresh f s.left s.right →
      LinkStep s (.deliverRight f) { s with right := s.right.receive f }

/-- Two fresh engines of one conversation. -/
def kcpLink : Lts Link LinkLabel where
  init s := ∃ conv, s = ⟨Peer.new conv, Peer.new conv⟩
  step := LinkStep

/-! ## 2. The joint invariant of one direction -/

/-- One direction of the connection, from `x` to `y`, over the history `L`. -/
structure Direction (L : List Bytes) (U R : Nat) (x y : Peer) : Prop where
  send : SendInv L U x.kcp.snd
  recv : RecvInv L R y.popped y.kcp.rcv
  conv : x.kcp.conv = y.kcp.conv
  sndCount : x.sndCount = L.length
  rcvCount : y.rcvCount = R
  /-- Everything accepted is numbered or still queued. -/
  accepted : x.accepted = L.flatten ++ queuedBytes x.kcp.sndQueue
  /-- The sender is at most half the space ahead of the receiver. -/
  ahead : U ≤ R + 2 ^ 31
  staged : Staged (Control x.kcp.conv) x.kcp.buf
  drained : x.kcp.output = []
  flights : ∀ f ∈ x.flights,
    ∃ lo, f.sndAt ≤ lo + 65535 ∧ Staged (OnWire x.kcp.conv L lo) f.bytes
  acks : ∀ f ∈ y.flights, f.rcvAt ≤ R

variable {L : List Bytes} {U R : Nat} {x y : Peer}

/-- **Delivery so far.**  What one end has popped is a prefix of what the other accepted. -/
theorem Direction.popped_isPrefix (h : Direction L U R x y) : y.popped <+: x.accepted := by
  rw [h.accepted]
  exact h.recv.popped_prefix.trans (List.prefix_append _ _)

theorem direction_new (conv : U32) : Direction [] 0 0 (Peer.new conv) (Peer.new conv) where
  send := ⟨rfl, show 0 < kcpMtuDef - kcpOverhead by decide, rfl, rfl, le_refl _, by simp, trivial,
    by simp [Peer.new, newStream, construct, Kcp.snd],
    by simp [Peer.new, newStream, construct, Kcp.snd]⟩
  recv := ⟨rfl, le_refl _, trivial, ⟨0, rfl, rfl, rfl⟩,
    by simp [Peer.new, newStream, construct, Kcp.rcv],
    by simp [Peer.new, newStream, construct, Kcp.rcv]⟩
  conv := rfl
  sndCount := rfl
  rcvCount := rfl
  accepted := rfl
  ahead := by omega
  staged := Staged.nil
  drained := rfl
  flights := by simp [Peer.new]
  acks := by simp [Peer.new]

/-! ## 3. Engine calls of the sending end -/

/-- What an engine call may do to the send direction: lengthen the history by fewer segments than
a window holds, and emit only what it numbered. -/
structure SendCall (L L' : List Bytes) (U U' : Nat) (k k' : Kcp) (acc : Bytes) : Prop where
  history : L <+: L'
  few : L'.length ≤ L.length + 65535
  inv : SendInv L' U' k'.snd
  conv : k'.conv = k.conv
  bytes : L'.flatten ++ queuedBytes k'.sndQueue = L.flatten ++ queuedBytes k.sndQueue ++ acc
  staged : Staged (Control k.conv) k'.buf
  output : ∀ d ∈ k'.output, Staged (OnWire k.conv L' U') d

/-- Calls that emit nothing and number nothing. -/
theorem SendCall.quiet {k k' : Kcp} {U' : Nat} {acc : Bytes} (hinv : SendInv L U' k'.snd)
    (hconv : k'.conv = k.conv)
    (hbytes : queuedBytes k'.sndQueue = queuedBytes k.sndQueue ++ acc) (hout : k'.out = k.out)
    (hstaged : Staged (Control k.conv) k.buf) (hdrained : k.output = []) :
    SendCall L L U U' k k' acc where
  history := List.prefix_refl _
  few := by omega
  inv := hinv
  conv := hconv
  bytes := by rw [hbytes, List.append_assoc]
  staged := by
    rw [show k'.buf = k.buf from congrArg OutView.buf hout]
    exact hstaged
  output := by
    rw [show k'.output = k.output from congrArg OutView.output hout, hdrained]
    simp

/-- **A flush of the sending end.** -/
theorem SendCall.flush {k : Kcp} (hinv : SendInv L U k.snd)
    (hstaged : Staged (Control k.conv) k.buf) (hdrained : k.output = []) :
    ∃ L', SendCall L L' U U k k.flush.1 [] := by
  cases hup : k.flags.updated with
  | false =>
    have hid : k.flush.1 = k := by unfold Kcp.flush; simp [hup]
    rw [hid]
    exact ⟨L, SendCall.quiet hinv rfl (by simp) rfl hstaged hdrained⟩
  | true =>
    have hemit : Emitting (Control k.conv) k.out := by
      refine ⟨hstaged, fun d hd => ?_⟩
      rw [show k.out.output = [] from hdrained] at hd
      simp at hd
    obtain ⟨more, hbytes, hfill⟩ := hinv.flushFill
    obtain ⟨hwalk, hqueue, hconv⟩ := hfill.flushWalk hup
    obtain ⟨hbuf, hout⟩ := hemit.flush hfill hup
    refine ⟨L ++ more, List.prefix_append _ _, ?_, hwalk, hconv, ?_,
      by rw [hbuf]; exact Staged.nil, hout⟩
    · have hle := hinv.una_le
      have hwin := hfill.window
      omega
    · rw [hqueue, List.flatten_append, List.append_assoc, hbytes, List.append_nil]

/-- A call may be preceded by changes outside the send direction and the wire. -/
theorem SendCall.of_start {L' : List Bytes} {U' : Nat} {k k1 k' : Kcp} {acc : Bytes}
    (h : SendCall L L' U U' k1 k' acc) (hsnd : k1.snd = k.snd) : SendCall L L' U U' k k' acc := by
  have hc := Kcp.conv_eq_of_snd hsnd
  have hq : k1.sndQueue = k.sndQueue := congrArg SndView.sndQueue hsnd
  exact ⟨h.history, h.few, h.inv, h.conv.trans hc, hq ▸ h.bytes, hc ▸ h.staged, hc ▸ h.output⟩

theorem SendCall.update {k : Kcp} (hinv : SendInv L U k.snd)
    (hstaged : Staged (Control k.conv) k.buf) (hdrained : k.output = []) (current : U32) :
    ∃ L', SendCall L L' U U k (k.update current).1 [] := by
  set k1 := ({ k with current := current } : Kcp).markUpdated with hk1
  obtain ⟨hsnd, -, hout⟩ : k1.snd = k.snd ∧ k1.rcv = k.rcv ∧ k1.out = k.out :=
    Kcp.markUpdated_frame { k with current := current }
  have hflush : ∀ k2 : Kcp, k2.snd = k1.snd → k2.out = k1.out →
      ∃ L', SendCall L L' U U k k2.flush.1 [] := by
    intro k2 h2 h3
    have hs := h2.trans hsnd
    have ho := h3.trans hout
    have hc := Kcp.conv_eq_of_snd hs
    have hb : k2.buf = k.buf := congrArg OutView.buf ho
    obtain ⟨L', hcall⟩ := SendCall.flush (k := k2) (by rw [hs]; exact hinv)
      (by rw [hc, hb]; exact hstaged) ((congrArg OutView.output ho).trans hdrained)
    exact ⟨L', hcall.of_start hs⟩
  unfold Kcp.update
  simp only [← hk1]
  split
  · exact hflush _ rfl rfl
  · split
    · exact hflush _ rfl rfl
    · exact ⟨L, SendCall.quiet (by rw [hsnd]; exact hinv) (Kcp.conv_eq_of_snd hsnd)
        (by rw [show k1.sndQueue = k.sndQueue from congrArg SndView.sndQueue hsnd]; simp) hout
        hstaged hdrained⟩

/-- **Every action of the sending end** keeps the history's bytes and the window. -/
theorem SendCall.action {k : Kcp} (hinv : SendInv L U k.snd)
    (hstaged : Staged (Control k.conv) k.buf) (hdrained : k.output = []) (a : Action) :
    ∃ L', SendCall L L' U U k (a.run k).1 (a.run k).2.1 := by
  cases a with
  | send data =>
    exact ⟨L, SendCall.quiet (hinv.sendOwned data) (Kcp.sendOwned_frame k data).2.2
      (Kcp.queuedBytes_sendOwned hinv.stream hinv.mss data) (Kcp.sendOwned_frame k data).2.1
      hstaged hdrained⟩
  | recv =>
    obtain ⟨hsnd, hout⟩ := Kcp.recvPop_frame k
    refine ⟨L, SendCall.quiet ?_ (Kcp.conv_eq_of_snd hsnd) ?_ hout hstaged hdrained⟩
    · change SendInv L U k.recvPop.1.snd
      rw [hsnd]; exact hinv
    · change queuedBytes k.recvPop.1.sndQueue = _
      rw [show k.recvPop.1.sndQueue = k.sndQueue from congrArg SndView.sndQueue hsnd]
      simp [Action.run]
  | update current => exact SendCall.update hinv hstaged hdrained current
  | flush => exact SendCall.flush hinv hstaged hdrained
  | flushAck =>
    have hemit : Emitting (Control k.conv) k.out := by
      refine ⟨hstaged, fun d hd => ?_⟩
      rw [show k.out.output = [] from hdrained] at hd
      simp at hd
    have hsnd : k.flushAck.1.snd = k.snd := by
      unfold Kcp.flushAck
      split
      · rfl
      · exact (Kcp.flushAckInner_frame k k.ackSegment).1
    have hq : k.flushAck.1.sndQueue = k.sndQueue := congrArg SndView.sndQueue hsnd
    refine ⟨L, List.prefix_refl _, by omega, ?_, Kcp.conv_eq_of_snd hsnd, ?_,
      hemit.flushAck.buf, ?_⟩
    · change SendInv L U k.flushAck.1.snd
      rw [hsnd]; exact hinv
    · change L.flatten ++ queuedBytes k.flushAck.1.sndQueue = _
      rw [hq]
      simp [Action.run]
    · exact fun d hd => (hemit.flushAck.output d hd).imp fun s hs => hs.onWire L U
  | retransmitSn sn =>
    exact ⟨L, SendCall.quiet (hinv.retransmitSn sn) rfl
      (by simp [Action.run, Kcp.retransmitSn]) rfl hstaged hdrained⟩
  | setMtu mtu =>
    have hq : (k.setMtu mtu).sndQueue = k.sndQueue :=
      congrArg SndView.sndQueue (Kcp.setMtu_frame k mtu).2.2
    exact ⟨L, SendCall.quiet (hinv.setMtu mtu)
      (congrArg SndView.conv (Kcp.setMtu_frame k mtu).2.2) (by simp [Action.run, hq])
      (Kcp.setMtu_frame k mtu).2.1 hstaged hdrained⟩
  | setNodelay nodelay interval resend nc =>
    exact ⟨L, SendCall.quiet hinv rfl (by simp [Action.run, Kcp.setNodelay]) rfl hstaged hdrained⟩
  | setWndsize sndwnd rcvwnd =>
    exact ⟨L, SendCall.quiet hinv rfl (by simp [Action.run, Kcp.setWndsize]) rfl hstaged hdrained⟩

/-! ## 4. Engine calls of the receiving end -/

/-- What an engine call may do to the receive direction: move `rcv_nxt` forward by at most a
window, and pop. -/
structure RecvCall (L : List Bytes) (R R' : Nat) (popped pop : Bytes) (k' : Kcp) : Prop where
  le : R ≤ R'
  few : R' ≤ R + 65535
  inv : RecvInv L R' (popped ++ pop) k'.rcv

theorem RecvCall.of_rcv {k k' : Kcp} {popped : Bytes} (h : RecvInv L R popped k.rcv)
    (hrcv : k'.rcv = k.rcv) : RecvCall L R R popped [] k' :=
  ⟨le_refl _, by omega, by rw [hrcv, List.append_nil]; exact h⟩

theorem rcv_flush (k : Kcp) : k.flush.1.rcv = k.rcv := by
  unfold Kcp.flush
  split
  · rfl
  · have h1 := (Kcp.flushControl_frame k).2
    have h2 := (Kcp.flushLoop_frame (k.flushFill.flushEnv k.wndUnused)
      k.flushFill.sndBuf { kcp := k.flushFill }).2
    simp only []
    rw [(Kcp.updateSsthresh_frame _ _ _ _ _).2.1, (Kcp.writeBuf_frame _).2]
    exact h2.trans h1

theorem rcv_update (k : Kcp) (current : U32) : (k.update current).1.rcv = k.rcv := by
  have h := (Kcp.markUpdated_frame { k with current := current }).2.1
  unfold Kcp.update
  simp only []
  split
  · exact (rcv_flush _).trans h
  · split
    · exact (rcv_flush _).trans h
    · exact h

/-- **Every action of the receiving end.**  A window that changes size leaves the reassembly
alone. -/
theorem RecvCall.action {k : Kcp} {popped : Bytes} (h : RecvInv L R popped k.rcv) (a : Action) :
    ∃ R', RecvCall L R R' popped (a.run k).2.2 (a.run k).1 := by
  cases a with
  | send data => exact ⟨R, RecvCall.of_rcv h (Kcp.sendOwned_frame k data).1⟩
  | recv =>
    obtain ⟨R', h1, h2, h3⟩ := h.recvPop
    exact ⟨R', h2, h3, h1⟩
  | update current => exact ⟨R, RecvCall.of_rcv h (rcv_update k current)⟩
  | flush => exact ⟨R, RecvCall.of_rcv h (rcv_flush k)⟩
  | flushAck =>
    refine ⟨R, RecvCall.of_rcv h ?_⟩
    change k.flushAck.1.rcv = k.rcv
    unfold Kcp.flushAck
    split
    · rfl
    · exact (Kcp.flushAckInner_frame k k.ackSegment).2
  | retransmitSn sn => exact ⟨R, RecvCall.of_rcv h rfl⟩
  | setMtu mtu => exact ⟨R, RecvCall.of_rcv h (Kcp.setMtu_frame k mtu).1⟩
  | setNodelay nodelay interval resend nc => exact ⟨R, RecvCall.of_rcv h rfl⟩
  | setWndsize sndwnd rcvwnd =>
    have hq := h.queue
    rw [← List.append_nil popped] at hq
    exact ⟨R, le_refl _, by omega, ⟨h.nxt, h.le, h.buf, hq, h.frg, h.room⟩⟩

/-! ## 5. Booking a call -/

/-- **A call of the sending end**, whose new `snd_una` stays within half the space of the
receiver. -/
theorem Direction.bookSend (h : Direction L U R x y) {L' : List Bytes} {U' : Nat}
    {r : Kcp × Bytes × Bytes} (hcall : SendCall L L' U U' x.kcp r.1 r.2.1)
    (hahead : U' ≤ R + 2 ^ 31) : Direction L' U' R (x.book r) y := by
  have hcount : x.sndCount + (r.1.sndNxt - x.kcp.sndNxt).toNat = L'.length := by
    have h1 : x.kcp.sndNxt = BitVec.ofNat 32 L.length := h.send.nxt
    have h2 : r.1.sndNxt = BitVec.ofNat 32 L'.length := hcall.inv.nxt
    have hlen : L'.length = L.length + (L'.length - L.length) := by
      have := hcall.history.length_le
      omega
    have hfew := hcall.few
    rw [h1, h2, hlen, toNat_sub_ofNat (by omega), h.sndCount]
  exact
    { send := hcall.inv
      recv := h.recv.mono hcall.history
      conv := hcall.conv.trans h.conv
      sndCount := hcount
      rcvCount := h.rcvCount
      accepted := by
        change x.accepted ++ r.2.1 = L'.flatten ++ queuedBytes r.1.sndQueue
        rw [h.accepted, hcall.bytes]
      ahead := hahead
      staged := by
        change Staged (Control r.1.conv) r.1.buf
        rw [hcall.conv]
        exact hcall.staged
      drained := rfl
      flights := by
        intro f hf
        change ∃ lo, f.sndAt ≤ lo + 65535 ∧ Staged (OnWire r.1.conv L' lo) f.bytes
        rw [hcall.conv]
        rcases List.mem_append.mp hf with hf | hf
        · obtain ⟨lo, h1, h2⟩ := h.flights f hf
          exact ⟨lo, h1, h2.imp fun s hs => hs.mono hcall.history⟩
        · obtain ⟨d, hd, rfl⟩ := List.mem_map.mp hf
          refine ⟨U', ?_, hcall.output d hd⟩
          change x.sndCount + _ ≤ U' + 65535
          rw [hcount]
          exact hcall.inv.window
      acks := h.acks }

/-- **A call of the receiving end.** -/
theorem Direction.bookRecv (h : Direction L U R x y) {R' : Nat} {r : Kcp × Bytes × Bytes}
    (hcall : RecvCall L R R' y.popped r.2.2 r.1) (hconv : r.1.conv = y.kcp.conv) :
    Direction L U R' x (y.book r) := by
  have hle := hcall.le
  have hahead := h.ahead
  have hcount : y.rcvCount + (r.1.rcvNxt - y.kcp.rcvNxt).toNat = R' := by
    have h1 : y.kcp.rcvNxt = BitVec.ofNat 32 R := h.recv.nxt
    have h2 : r.1.rcvNxt = BitVec.ofNat 32 R' := hcall.inv.nxt
    have hR : R' = R + (R' - R) := by omega
    have hfew := hcall.few
    rw [h1, h2, hR, toNat_sub_ofNat (by omega), h.rcvCount]
  exact
    { send := h.send
      recv := hcall.inv
      conv := h.conv.trans hconv.symm
      sndCount := h.sndCount
      rcvCount := hcount
      accepted := h.accepted
      ahead := by omega
      staged := h.staged
      drained := h.drained
      flights := h.flights
      acks := by
        intro f hf
        rcases List.mem_append.mp hf with hf | hf
        · have := h.acks f hf
          omega
        · obtain ⟨d, -, rfl⟩ := List.mem_map.mp hf
          exact le_of_eq hcount }

/-! ## 6. Both directions, over whole runs -/

/-- The two directions of a connection, each over a history of its own. -/
def Joined (x y : Peer) : Prop :=
  (∃ L U R, Direction L U R x y) ∧ ∃ L U R, Direction L U R y x

theorem Joined.symm (h : Joined x y) : Joined y x := ⟨h.2, h.1⟩

/-- An end acts. -/
theorem Joined.act (h : Joined x y) (a : Action) : Joined (x.act a) y := by
  obtain ⟨⟨L, U, R, hxy⟩, L2, U2, R2, hyx⟩ := h
  obtain ⟨L', hsend⟩ := SendCall.action hxy.send hxy.staged hxy.drained a
  obtain ⟨R', hrecv⟩ := RecvCall.action hyx.recv a
  exact ⟨⟨L', U, R, hxy.bookSend hsend hxy.ahead⟩, L2, U2, R', hyx.bookRecv hrecv hsend.conv⟩

/-- **A fresh datagram arrives.**  For the direction its receiver sends in, any bytes are
harmless and freshness keeps the sender within half the space; for the direction its receiver
receives in, the bytes are segments of the history and freshness keeps their numbers apart. -/
theorem Joined.receive (h : Joined x y) {f : Flight} (hf : f ∈ y.flights) (hfresh : Fresh f y x) :
    Joined (x.receive f) y := by
  obtain ⟨⟨L, U, R, hxy⟩, L2, U2, R2, hyx⟩ := h
  -- the receiver's own send direction
  obtain ⟨⟨U', hU, hinv⟩, hqueue⟩ := hxy.send.input f.bytes
  have hout := Kcp.out_input x.kcp f.bytes
  have hahead : U' ≤ R + 2 ^ 31 := by
    have h1 := hinv.una_le
    have h2 := hfresh.ack
    have h3 := hxy.acks f hf
    rw [hxy.sndCount] at h2
    omega
  -- the receiver's receive direction
  obtain ⟨lo, hlo, segs, hbytes, hsegs⟩ := hyx.flights f hf
  have hdata := hfresh.data
  have hudp := hfresh.udp
  have hwin := hyx.send.window
  have hah := hyx.ahead
  rw [hyx.sndCount] at hdata
  have hdeliver : ∀ s ∈ segs, Deliverable y.kcp.conv L2 R2 s := by
    intro s hs
    obtain ⟨h1, h2, h3⟩ := hsegs s hs
    refine ⟨h1, h2, fun hc => ?_, by omega⟩
    obtain ⟨i, hi1, hi2⟩ := h3 hc
    exact ⟨i, by omega, hi2⟩
  obtain ⟨hconv, R', hR, hlen, hrecv⟩ := hyx.recv.input hyx.conv.symm hdeliver
    (by rw [← hbytes]; omega)
  rw [← hbytes] at hconv hlen hrecv
  have hroom : (x.kcp.input f.bytes).1.rcvQueue.length ≤ 65535 := hrecv.room
  have hquiet : SendCall L L U U' x.kcp (x.kcp.input f.bytes).1 [] :=
    SendCall.quiet hinv (hconv.trans hyx.conv) (by rw [hqueue]; simp) hout hxy.staged hxy.drained
  exact ⟨⟨L, U', R, hxy.bookSend (r := (_, [], [])) hquiet hahead⟩, L2, U2, R',
    hyx.bookRecv (r := (_, [], [])) ⟨hR, by omega, by rw [List.append_nil]; exact hrecv⟩
      (hconv.trans hyx.conv)⟩

theorem joined_of_reach {s : Link} (h : Lts.Reach kcpLink s) : Joined s.left s.right := by
  refine Lts.Reach.invariant (P := fun s => Joined s.left s.right) ?_ ?_ h
  · rintro s ⟨conv, rfl⟩
    exact ⟨⟨_, _, _, direction_new conv⟩, _, _, _, direction_new conv⟩
  · intro s l s' hs hstep
    cases hstep with
    | actLeft a => exact hs.act a
    | actRight a => exact (hs.symm.act a).symm
    | deliverLeft f hf hfresh => exact hs.receive hf hfresh
    | deliverRight f hf hfresh => exact (hs.symm.receive hf hfresh).symm

/-- **End-to-end safety.**  In every reachable state of the connection, what either end has
popped is a prefix of what the other end's send calls accepted: nothing is lost in the middle,
duplicated or reordered. -/
theorem popped_prefix_accepted (s : Link) (h : Lts.Reach kcpLink s) :
    s.right.popped <+: s.left.accepted ∧ s.left.popped <+: s.right.accepted := by
  obtain ⟨⟨L, U, R, h1⟩, L2, U2, R2, h2⟩ := joined_of_reach h
  exact ⟨h1.popped_isPrefix, h2.popped_isPrefix⟩

/-- The first datagram of an end that accepted three bytes and flushed twice: the first flush
finds a zero congestion window and opens it. -/
def threeByteFlight : Flight :=
  ((((Peer.new 7).act (.send [1, 2, 3])).act (.update 1)).act .flush).flights.getD 0 ⟨[], 0, 0⟩

/-- The three bytes arrive. -/
theorem popped_prefix_accepted_three_bytes : ∃ s, Lts.Reach kcpLink s ∧
    s.right.popped = [1, 2, 3] ∧ s.left.accepted = [1, 2, 3] ∧
    s.right.popped <+: s.left.accepted ∧ s.left.popped <+: s.right.accepted := by
  have h0 : Lts.Reach kcpLink ⟨Peer.new 7, Peer.new 7⟩ := .init ⟨7, rfl⟩
  have h1 := h0.step (LinkStep.actLeft _ (.send [1, 2, 3]))
  have h2 := h1.step (LinkStep.actLeft _ (.update 1))
  have h3 := h2.step (LinkStep.actLeft _ .flush)
  have h4 := h3.step (LinkStep.deliverRight _ threeByteFlight (by decide +kernel)
    ⟨by decide +kernel, by decide +kernel, by decide +kernel⟩)
  have h5 := h4.step (LinkStep.actRight _ .recv)
  exact ⟨_, h5, by decide +kernel, by decide +kernel, popped_prefix_accepted _ h5⟩

end Molehill
