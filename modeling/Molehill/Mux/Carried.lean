/-
# What two connections over bytes carry

A frame is in one of three places on its way from a writer to the reader of the other end: in the
writer that has not emitted all of it, among the bytes on the socket, in the reader that has not
filled it.  `Carried` cuts what is in the three places into the frames that were started and not
handed out: whole ones, and the one that is being written.  With the pings and their answers left
out they are the wire and the socket of the system of frames, and every step of a writer, a reader
or a user is a step there or none.

The pings count their way themselves: the answers on the wire, the one that waits to be sent and the
pings on the wire are together the ping that is awaited, so that no answer is unexpected.
-/
import Molehill.Mux.OverBytes

namespace Molehill.Mux

open Function Lib
open FrameIo (Header WriteState ReadState Accept Give Reading ReadOutcome startFrame driveWrite
  pollNextFrame driveWrite_pending reading_poll startFrame_pending)

/-! ## 1. What is on the socket fits its header -/

/-- What the frames of a connection fit into: ids that are left, replies without a body, and on the
socket no body over the split size. -/
structure Active.Within (cfg : Config) (c : Active) : Prop where
  config : c.config = cfg
  nextId : c.nextId ≤ u32Max
  reply : ∀ f, c.pendingReadFrame = some f → f.body = []
  split : ∀ f ∈ c.wire ++ c.socket.toList, f.body.length ≤ cfg.splitSendSize

namespace Active

variable {c c' : Active} {cfg : Config}

theorem Within.new (m : Mode) (cfg : Config) : (Active.new m cfg).Within cfg where
  config := rfl
  nextId := by
    cases m with
    | client => exact (by decide : 1 ≤ u32Max)
    | server => exact (by decide : 2 ≤ u32Max)
  reply _ h := by cases h
  split _ h := absurd h List.not_mem_nil

theorem act_socket {op : Op} (h : c.act op = some c') (hstart : op ≠ .start)
    (hflush : op ≠ .flush) : c'.socket = c.socket ∧ c'.wire = c.wire := by
  have hmap : (c.onSocket c.socket c.wire).act op =
      (c.act op).map (·.onSocket c.socket c.wire) := act_onSocket hstart hflush
  rw [onSocket_self, h, Option.map_some] at hmap
  have heq := Option.some.inj hmap
  have hs : c'.socket = (c'.onSocket c.socket c.wire).socket := congrArg Active.socket heq
  have hw : c'.wire = (c'.onSocket c.socket c.wire).wire := congrArg Active.wire heq
  exact ⟨hs, hw⟩

theorem takeCommand_reply (i cursor : Nat) (k : StreamId) (answer : Option StreamCommand) :
    ((c.takeCommand i k answer).wrapCursor cursor).pendingReadFrame = c.pendingReadFrame := by
  have hpop : (c.popCommand k).pendingReadFrame = c.pendingReadFrame := by
    unfold popCommand
    split
    · rfl
    · rfl
  rcases answer with _ | f | ack
  · change (c.onDropStream k).pendingReadFrame = c.pendingReadFrame
    unfold onDropStream
    split
    · split
      · rfl
      · rfl
    · rfl
  · simp only [takeCommand]
    split
    · exact hpop
    · exact hpop
  · exact hpop

/-- A reply waits until it is started. -/
theorem act_reply {op : Op} (h : c.act op = some c') (hstart : op ≠ .start) :
    c'.pendingReadFrame = c.pendingReadFrame := by
  cases op with
  | newOutbound =>
    rcases pollNewOutbound_cases h with rfl | ⟨-, rfl⟩
    · rfl
    · rfl
  | write k buf =>
    obtain ⟨s, s', f, -, -, -, rfl⟩ := write_cases h
    rfl
  | read k cap fast =>
    obtain ⟨s, -, -, ⟨s', -, rfl⟩ | ⟨s', f, acc, -, rfl⟩⟩ := read_cases h
    · rfl
    · rfl
  | endRead k =>
    obtain ⟨s, -, -, -, rfl⟩ := endRead_cases h
    rfl
  | shutdown k =>
    obtain ⟨s, s', f, -, -, -, rfl⟩ := shutdown_cases h
    rfl
  | dropHandle k =>
    obtain ⟨s, -, -, rfl⟩ := dropHandle_cases h
    rfl
  | queue =>
    obtain ⟨i, k, answer, -, -, -, rfl⟩ := queueReceiverFrames_cases h
    exact takeCommand_reply ..
  | start => exact absurd rfl hstart
  | flush =>
    obtain ⟨f, -, rfl⟩ := Option.map_eq_some_iff.mp h
    rfl

theorem nextQueuedFrame_reply {f : Frame} (h : c.nextQueuedFrame = some (f, c')) :
    (c'.pendingReadFrame = none ∨ c'.pendingReadFrame = c.pendingReadFrame) ∧
      c'.config = c.config ∧ c'.nextId = c.nextId := by
  rw [nextQueuedFrame] at h
  split at h
  case h_1 =>
    cases h
    exact ⟨Or.inl rfl, rfl, rfl⟩
  case h_2 | h_3 =>
    cases h
    exact ⟨Or.inr rfl, rfl, rfl⟩
  case h_4 => cases h

theorem pollNewOutbound_nextId (h : c.pollNewOutbound = some c') (hn : c.nextId ≤ u32Max) :
    c'.nextId ≤ u32Max := by
  rw [pollNewOutbound] at h
  split at h
  · cases h
    exact hn
  · split at h
    · cases h
    · split at h
      · cases h
        exact hn
      next hleft =>
        cases h
        exact Nat.not_lt.mp hleft

/-- A frame that leaves the backlog is within the split size. -/
theorem Within.backlog (h : c.Within cfg) (hq : c.Queues) {f : Frame} (hf : f ∈ c.backlog) :
    f.body.length ≤ cfg.splitSendSize := by
  rcases List.mem_append.mp hf with hf | hf
  · rw [h.reply f (Option.mem_toList.mp hf)]
    exact Nat.zero_le _
  · rcases List.mem_append.mp hf with hf | hf
    · rw [hq.control f hf]
      exact Nat.zero_le _
    · rw [← h.config]
      exact hq.pending f hf

/-- **What an end does** keeps its frames within. -/
theorem Within.act {op : Op} (h : c.Within cfg) (hq : c.Queues) (hact : c.act op = some c') :
    c'.Within cfg := by
  refine ⟨(act_config hact).trans h.config, ?_, ?_, ?_⟩
  · by_cases hop : op = .newOutbound
    · subst hop
      exact pollNewOutbound_nextId hact h.nextId
    · rw [(act_framed hact hop).nextId]
      exact h.nextId
  · by_cases hop : op = .start
    · subst hop
      rw [Active.act, startFrame] at hact
      split at hact
      · cases hact
      · obtain ⟨⟨f, c1⟩, hn, rfl⟩ := Option.map_eq_some_iff.mp hact
        intro g hg
        rcases (nextQueuedFrame_reply hn).1 with hnone | hsame
        · rw [hnone] at hg
          cases hg
        · exact h.reply g (hsame.symm.trans hg)
    · rw [act_reply hact hop]
      exact h.reply
  · by_cases hstart : op = .start
    · subst hstart
      rw [Active.act, startFrame] at hact
      split at hact
      · cases hact
      · obtain ⟨⟨f, c1⟩, hn, rfl⟩ := Option.map_eq_some_iff.mp hact
        obtain ⟨hb, -, -, hw, -, -, -, -⟩ := nextQueuedFrame_cases hn
        intro g hg
        rcases List.mem_append.mp hg with hg | hg
        · refine h.split g (List.mem_append_left _ ?_)
          rw [← hw]
          exact hg
        · obtain rfl := List.mem_singleton.mp hg
          exact h.backlog hq (hb ▸ List.mem_cons_self)
    · by_cases hflush : op = .flush
      · subst hflush
        obtain ⟨f, hs, rfl⟩ := Option.map_eq_some_iff.mp hact
        have hsplit := h.split
        rw [hs] at hsplit
        intro g hg
        exact hsplit g (by simpa using hg)
      · obtain ⟨hs, hw⟩ := act_socket hact hstart hflush
        rw [hs, hw]
        exact h.split

theorem onReset_reply (k : StreamId) : (c.onReset k).pendingReadFrame = c.pendingReadFrame := by
  unfold onReset
  split
  · split
    · rfl
    · rfl
  · rfl

theorem reply_of_none (hp : c.pendingReadFrame = none)
    (h : c'.pendingReadFrame = c.pendingReadFrame) :
    ∀ g, c'.pendingReadFrame = some g → g.body = [] := by
  intro g hg
  rw [h, hp] at hg
  cases hg

/-- A reply has no body. -/
theorem onData_reply (hp : c.pendingReadFrame = none) (f : Frame) :
    ∀ g, (c.onData f).1.pendingReadFrame = some g → g.body = [] := by
  unfold onData
  split
  · exact reply_of_none hp (onReset_reply _)
  · split
    · split
      · exact reply_of_none hp rfl
      · split
        · exact reply_of_none hp rfl
        · split
          · intro g hg
            obtain rfl := Option.some.inj hg
            rfl
          · split
            · exact reply_of_none hp rfl
            · exact reply_of_none hp rfl
    · split
      · split
        · split
          · exact reply_of_none hp rfl
          · exact reply_of_none hp rfl
        · exact reply_of_none hp rfl
      · exact reply_of_none hp rfl

theorem onWindowUpdate_reply (hp : c.pendingReadFrame = none) (f : Frame) :
    ∀ g, (c.onWindowUpdate f).1.pendingReadFrame = some g → g.body = [] := by
  unfold onWindowUpdate
  split
  · exact reply_of_none hp (onReset_reply _)
  · split
    · split
      · exact reply_of_none hp rfl
      · split
        · exact reply_of_none hp rfl
        · split
          · exact reply_of_none hp rfl
          · split
            · exact reply_of_none hp rfl
            · exact reply_of_none hp rfl
    · split
      · split
        · split
          · exact reply_of_none hp rfl
          · exact reply_of_none hp rfl
        · exact reply_of_none hp rfl
      · exact reply_of_none hp rfl

theorem perform_reply {r : Active × Action}
    (h : ∀ g, r.1.pendingReadFrame = some g → g.body = []) :
    ∀ g, (perform r).pendingReadFrame = some g → g.body = [] := by
  obtain ⟨c, action⟩ := r
  cases action with
  | none | new id => exact h
  | terminate =>
    intro g hg
    obtain rfl := Option.some.inj hg
    rfl

theorem onFrame_reply (hp : c.pendingReadFrame = none) (f : Frame) :
    ∀ g, (c.onFrame f).pendingReadFrame = some g → g.body = [] := by
  have hack : (c.acknowledge f).pendingReadFrame = none :=
    (acknowledge_pendingReadFrame f).trans hp
  unfold onFrame
  cases f.tag with
  | data => exact perform_reply (onData_reply hack f)
  | windowUpdate => exact perform_reply (onWindowUpdate_reply hack f)
  | goAway => exact reply_of_none hp rfl

theorem onFrame_socket (f : Frame) :
    (c.onFrame f).socket = c.socket ∧ (c.onFrame f).wire = c.wire := by
  have heq : (c.onSocket c.socket c.wire).onFrame f =
      (c.onFrame f).onSocket c.socket c.wire := onFrame_onSocket f
  rw [onSocket_self] at heq
  have hs : (c.onFrame f).socket = ((c.onFrame f).onSocket c.socket c.wire).socket :=
    congrArg Active.socket heq
  have hw : (c.onFrame f).wire = ((c.onFrame f).onSocket c.socket c.wire).wire :=
    congrArg Active.wire heq
  exact ⟨hs, hw⟩

end Active

/-- Both ends of two live connections. -/
theorem reach_within {cfg : Mode → Config} {w : World} (h : (mux cfg).Reach w)
    (hc : w.Connected) : ∀ m, (w m).Within (cfg m) := by
  have key : (mux cfg).Reach w ∧ (w.Connected → ∀ m, (w m).Within (cfg m)) := by
    refine Lts.Reach.invariant
      (P := fun w => (mux cfg).Reach w ∧ (w.Connected → ∀ m, (w m).Within (cfg m))) ?_ ?_ h
    · rintro w rfl
      exact ⟨.init rfl, fun _ m => .new m (cfg m)⟩
    · rintro w a w' ⟨hr, hw⟩ hstep
      refine ⟨hr.step hstep, fun hc' k => ?_⟩
      obtain ⟨hc, ⟨m, op, c', rfl, hact, rfl⟩ | ⟨m, f, t, rfl, hp, hwire, rfl⟩⟩ :=
        step_cases hstep hc'
      · rcases Mode.eq_or_eq_peer m k with rfl | rfl
        · rw [update_self]
          exact (hw hc k).act (mux_backed hr k (hc k)).queues hact
        · rw [update_of_ne (Mode.peer_ne m)]
          exact hw hc m.peer
      · have hag := reach_agree hr hc
        have hrec := (Active.onFrame_arrival ((hag.ok m).views f.streamId) hp (hag.fits hwire)).2
        rcases Mode.eq_or_eq_peer m k with rfl | rfl
        · rw [update_self]
          obtain ⟨hs, hw'⟩ := (w k).onFrame_socket f
          refine ⟨hrec.config.trans (hw hc k).config, ?_, Active.onFrame_reply hp f, ?_⟩
          · rw [hrec.nextId]
            exact (hw hc k).nextId
          · rw [hs, hw']
            exact (hw hc k).split
        · rw [update_of_ne (Mode.peer_ne m), update_self]
          have hpeer := hw hc m.peer
          refine ⟨hpeer.config, hpeer.nextId, hpeer.reply, fun g hg => hpeer.split g ?_⟩
          rw [hwire]
          exact List.mem_cons_of_mem f hg
  exact key.2 hc

theorem credit_le_granted {f : Frame} {l : List Frame} (h : f ∈ l) : f.credit ≤ granted l := by
  induction l with
  | nil => cases h
  | cons g l ih =>
    rw [granted_cons]
    rcases List.mem_cons.mp h with rfl | h
    · exact Nat.le_add_right _ _
    · exact Nat.le_trans (ih h) (Nat.le_add_left _ _)

theorem Kind.bodyless {id : StreamId} {f : Frame} (h : Kind id f) (ht : f.tag ≠ .data) :
    f.body = [] := by
  cases h with
  | payload | close | reset => exact absurd rfl ht
  | credit => rfl

/-- **A frame on the socket fits its header**, and is not too large for the reader. -/
theorem Agree.sized {cfg : Mode → Config} {w : World} (h : Agree w)
    (hw : ∀ m, (w m).Within (cfg m))
    (hcfg : ∀ m, (cfg m).splitSendSize ≤ FrameIo.maxFrameBodyLen) {m : Mode} {f : Frame}
    (hf : f ∈ (w m).wire ++ (w m).socket.toList) :
    f.Sized ∧ f.body.length ≤ FrameIo.maxFrameBodyLen := by
  have hline : f ∈ ((w m).view f.streamId).half.line :=
    List.mem_append_left _ (List.mem_filter.mpr ⟨hf, ofStream_iff.mpr rfl⟩)
  have hout := h.sound m f.streamId
  have hback := h.back m f.streamId
  have hkind := hout.kinds f hline
  have hbody : f.body.length ≤ FrameIo.maxFrameBodyLen :=
    Nat.le_trans ((hw m).split f hf) (hcfg m)
  have hcredit : f.credit ≤ u32Max := by
    have hflow := hback.flow
    have hle := credit_le_granted hline
    have hwindow := hback.receiveWindow_le
    omega
  have hid : f.streamId ≤ u32Max := by
    -- one of the ends has the stream, and so the end that opens it
    have hsome : ((w m).ends f.streamId).isSome = true ∨
        ((w m.peer).ends f.streamId).isSome = true := by
      by_contra hnone
      obtain ⟨h1, h2⟩ := not_or.mp hnone
      have hempty := (hout.empty (Option.not_isSome_iff_eq_none.mp h1)
        (Option.not_isSome_iff_eq_none.mp h2)).1
      rw [hempty] at hline
      cases hline
    have hfresh : ∀ k, k.opens f.streamId = true → ((w k).ends f.streamId).isSome = true →
        f.streamId ≤ u32Max := by
      intro k hk hs
      have hlt := (h.ok k).fresh f.streamId (by rw [h.mode k]; exact hk) hs
      exact Nat.le_trans (Nat.le_of_lt hlt) (hw k).nextId
    cases hm : m.opens f.streamId with
    | true =>
      rcases hsome with hs | hs
      · exact hfresh m hm hs
      · exact hfresh m hm (hback.opener hs (by rw [hm]; rfl))
    | false =>
      have hp : m.peer.opens f.streamId = true := by rw [Mode.opens_peer, hm]; rfl
      rcases hsome with hs | hs
      · exact hfresh m.peer hp (hout.opener hs hm)
      · exact hfresh m.peer hp hs
  have hmax : u32Max < 2 ^ 32 := by decide
  have hlen : FrameIo.maxFrameBodyLen < 2 ^ 32 := by decide
  refine ⟨⟨Nat.lt_of_le_of_lt hid hmax, Nat.lt_of_le_of_lt hcredit hmax,
    Nat.lt_of_le_of_lt hbody hlen, fun ht => hkind.credit_of_data ht,
    fun ht => hkind.bodyless ht⟩, hbody⟩

/-! ## 2. The writer has something to emit -/

/-- A machine that is not idle has something to emit. -/
def FrameIo.WriteState.Busy (s : WriteState) : Prop :=
  s ≠ .init → s ≠ .poisoned → s.pending ≠ []

theorem drop_ne_nil {l : Bytes} {n : Nat} (h : n < l.length) : l.drop n ≠ [] := by
  intro hnil
  have hle := List.drop_eq_nil_iff.mp hnil
  omega

theorem FrameIo.advance_busy {s : WriteState} (h : s.Busy) (n : Nat) : (s.advance n).Busy := by
  cases s with
  | init | poisoned => exact h
  | header hd buffer offset =>
    rw [WriteState.advance]
    split
    · exact fun _ hne => absurd rfl hne
    · split
      · split
        · exact fun hne => absurd rfl hne
        next hbuffer => exact fun _ _ => hbuffer
      · refine fun _ _ hnil => ?_
        have hdrop := (List.append_eq_nil_iff.mp hnil).1
        exact drop_ne_nil (by omega) hdrop
  | body buffer offset =>
    rw [WriteState.advance]
    split
    · exact fun _ hne => absurd rfl hne
    · split
      · exact fun hne => absurd rfl hne
      · exact fun _ _ => drop_ne_nil (by omega)

theorem FrameIo.driveWrite_busy (script : List Accept) {s : WriteState} (h : s.Busy) :
    (driveWrite script s).2.1.Busy ∧
      ((driveWrite script s).2.1 = .poisoned → (driveWrite script s).1 = .failed) ∧
      (s = .init → (driveWrite script s).2.1 = .init) := by
  induction script generalizing s with
  | nil =>
    cases s with
    | init | header hd buffer offset | body buffer offset =>
      exact ⟨h, (fun hp => by cases hp), id⟩
    | poisoned => exact ⟨h, fun _ => rfl, id⟩
  | cons a script ih =>
    cases s with
    | init => exact ⟨h, (fun hp => by cases hp), id⟩
    | poisoned => exact ⟨h, fun _ => rfl, id⟩
    | header hd buffer offset | body buffer offset =>
      cases a with
      | pending | failed => exact ⟨h, (fun hp => by cases hp), (fun hi => by cases hi)⟩
      | took n =>
        by_cases hn : n = 0
        · subst hn
          exact ⟨h, (fun hp => by cases hp), (fun hi => by cases hi)⟩
        · rw [driveWrite_took (by simp) (by simp) hn]
          obtain ⟨h1, h2, -⟩ := ih (advance_busy h n)
          exact ⟨h1, h2, (fun hi => by cases hi)⟩

theorem FrameIo.bytes_ne_nil (f : FrameIo.Frame) : f.bytes ≠ [] := by
  intro hnil
  have hlen := congrArg List.length (List.append_eq_nil_iff.mp hnil).1
  rw [Header.encode_length] at hlen
  cases hlen

theorem FrameIo.startFrame_ne_init (f : FrameIo.Frame) : startFrame f ≠ .init := by
  rw [startFrame]
  split
  · exact (fun h => by cases h)
  · exact (fun h => by cases h)

/-- A frame is given to an idle writer. -/
theorem FrameIo.Reading.start {s : ReadState} {input : Bytes} {l : List FrameIo.Frame}
    (h : Reading s input [] l) (f : FrameIo.Frame) : Reading s input f.bytes (l ++ [f]) where
  bytes := by
    rw [List.flatMap_append, List.flatMap_singleton, ← h.bytes, List.append_nil]
  fits := h.fits.append f

/-! ## 3. What one direction carries -/

/-- The frames of one direction that were started and not handed out: the ones that were written
whole, and the one that is being written. -/
structure Transit where
  done : List WireFrame
  writing : Option WireFrame

namespace Transit

def all (t : Transit) : List WireFrame := t.done ++ t.writing.toList

/-- What the system of frames has on its socket. -/
def socket (t : Transit) : Option Frame := t.writing.bind WireFrame.frame?

/-- What it has on its wire. -/
def wire (t : Transit) : List Frame := t.done.filterMap WireFrame.frame?

def pings (t : Transit) : List U32 := t.all.filterMap WireFrame.ping?

def pongs (t : Transit) : List U32 := t.all.filterMap WireFrame.pong?

theorem filterMap_snoc {α : Type} (g : WireFrame → Option α) (l : List WireFrame)
    (x : WireFrame) : (l ++ [x]).filterMap g = l.filterMap g ++ (g x).toList := by
  rw [List.filterMap_append]
  cases hx : g x with
  | none => rw [List.filterMap_cons_none hx]; rfl
  | some y => rw [List.filterMap_cons_some hx]; rfl

theorem all_idle {t : Transit} (h : t.writing = none) : t.all = t.done := by
  rw [all, h, Option.toList_none, List.append_nil]

theorem filterMap_head {α : Type} (g : WireFrame → Option α) (x : WireFrame)
    (l : List WireFrame) : (x :: l).filterMap g = (g x).toList ++ l.filterMap g := by
  cases hx : g x with
  | none => rw [List.filterMap_cons_none hx]; rfl
  | some y => rw [List.filterMap_cons_some hx]; rfl

theorem all_cons {t : Transit} {x : WireFrame} {done : List WireFrame} (h : t.done = x :: done) :
    t.all = x :: Transit.all ⟨done, t.writing⟩ := by
  rw [all, h]
  rfl

theorem pings_cons {t : Transit} {x : WireFrame} {done : List WireFrame} (h : t.done = x :: done) :
    t.pings = x.ping?.toList ++ Transit.pings ⟨done, t.writing⟩ := by
  rw [pings, all_cons h, filterMap_head]
  rfl

theorem pongs_cons {t : Transit} {x : WireFrame} {done : List WireFrame} (h : t.done = x :: done) :
    t.pongs = x.pong?.toList ++ Transit.pongs ⟨done, t.writing⟩ := by
  rw [pongs, all_cons h, filterMap_head]
  rfl

theorem frames_all (t : Transit) :
    t.all.filterMap WireFrame.frame? = t.wire ++ t.socket.toList := by
  obtain ⟨done, writing⟩ := t
  cases writing with
  | none => simp [all, wire, socket]
  | some x => exact filterMap_snoc _ _ _

end Transit

/-- **One end and its peer**: the connection of the system of frames that end `e` carries, with what
is on its way from it (`out`) and to it (`back`). -/
structure Carried (e p : ByteEnd) (c : Active) (out back : Transit) : Prop where
  conn : c = e.conn.onSocket out.socket out.wire
  /-- What the peer's reader holds, what is on the socket and what the writer has still to emit are
  the encodings of what is on its way. -/
  reading : Reading p.reader e.sent e.writer.pending (out.all.map WireFrame.toIo)
  idle : e.writer = .init ↔ out.writing = none
  busy : e.writer.Busy
  unpoisoned : e.writer ≠ .poisoned
  slot : e.pong.isSome = true → e.conn.pendingReadFrame = none
  /-- The answers on their way back, the one that waits at the peer and the pings on their way out
  are the ping that is awaited. -/
  pings : back.pongs ++ (p.pong.toList ++ out.pings) = e.rtt.unanswered

/-- Both ends. -/
def Carries (b : ByteWorld) (w : World) (t : Mode → Transit) : Prop :=
  ∀ m, Carried (b m) (b m.peer) (w m) (t m) (t m.peer)

namespace Carried

variable {e p : ByteEnd} {c c' : Active} {out back : Transit}

/-- What does not touch the socket. -/
theorem op {c1 : Active} (h : Carried e p c out back)
    (hreply : c1.pendingReadFrame = e.conn.pendingReadFrame) :
    Carried { e with conn := c1 } p (c1.onSocket out.socket out.wire) out back :=
  ⟨rfl, h.reading, h.idle, h.busy, h.unpoisoned, fun hp => hreply.trans (h.slot hp), h.pings⟩

/-- The other side of a step that leaves the reader and the answers alone. -/
theorem peer (h : Carried p e c back out) (e' : ByteEnd) (out' : Transit)
    (hr : e'.reader = e.reader)
    (hp : out'.pongs ++ e'.pong.toList = out.pongs ++ e.pong.toList) :
    Carried p e' c back out' := by
  refine ⟨h.conn, hr ▸ h.reading, h.idle, h.busy, h.unpoisoned, h.slot, ?_⟩
  rw [← List.append_assoc, hp, List.append_assoc]
  exact h.pings

/-- An answer that waits is the one that is awaited. -/
theorem awaited (h : Carried e p c out back) {id : U32} (hp : p.pong = some id) :
    e.rtt.state = .awaitingPong id := by
  refine Rtt.mem_unanswered.mp ?_
  rw [← h.pings, hp]
  exact List.mem_append_right _ List.mem_cons_self

/-- An answer on its way is the one that is awaited. -/
theorem expected (h : Carried e p c out back) {f : FrameIo.Frame}
    (hf : f ∈ back.all.map WireFrame.toIo) (htag : f.header.tag = .ping)
    (hack : contains f.header.flags 2 = true) : e.rtt.state = .awaitingPong f.header.length := by
  obtain ⟨x, hx, rfl⟩ := List.mem_map.mp hf
  cases x with
  | frame g => exact absurd htag (Frame.toIo_tag_ne_ping g)
  | ping id => exact absurd hack (by decide : ¬ contains 1 2 = true)
  | pong id =>
    refine Rtt.mem_unanswered.mp ?_
    rw [← h.pings]
    exact List.mem_append_left _ (List.mem_filterMap.mpr ⟨_, hx, rfl⟩)

/-- The answer at the head of what comes back is the one that is awaited, and there is no other. -/
theorem answered (h : Carried e p c out back) {id : U32} {done : List WireFrame}
    (hdone : back.done = .pong id :: done) :
    e.rtt.state = .awaitingPong id ∧
      Transit.pongs ⟨done, back.writing⟩ ++ (p.pong.toList ++ out.pings) = [] := by
  have hpings := h.pings
  rw [Transit.pongs_cons hdone, Rtt.unanswered] at hpings
  split at hpings
  case h_1 id' hstate =>
    obtain ⟨rfl, hrest⟩ := List.cons.inj hpings
    exact ⟨hstate, hrest⟩
  case h_2 => cases hpings

/-- **A frame is started.** -/
theorem started {e' : ByteEnd} (h : Carried e p c out back) (hidle : e.writer = .init)
    (x : WireFrame)
    (hconn : c' = e'.conn.onSocket x.frame? out.wire) (hwriter : e'.writer = startFrame x.toIo)
    (hsent : e'.sent = e.sent) (hslot : e'.pong.isSome = true → e'.conn.pendingReadFrame = none)
    (hpings : back.pongs ++ (p.pong.toList ++ (out.pings ++ x.ping?.toList)) =
      e'.rtt.unanswered) :
    Carried e' p c' ⟨out.done, some x⟩ back := by
  have hall : out.all = out.done := Transit.all_idle (h.idle.mp hidle)
  have hreading := h.reading
  rw [hidle, hall] at hreading
  refine ⟨hconn, ?_, ?_, ?_, ?_, hslot, ?_⟩
  · rw [hsent, hwriter, startFrame_pending]
    change Reading _ _ _ ((out.done ++ [x]).map WireFrame.toIo)
    rw [List.map_append]
    exact FrameIo.Reading.start hreading x.toIo
  · rw [hwriter]
    exact ⟨fun hinit => absurd hinit (FrameIo.startFrame_ne_init _), fun hnone => by cases hnone⟩
  · rw [hwriter]
    intro _ _
    rw [startFrame_pending]
    exact FrameIo.bytes_ne_nil _
  · rw [hwriter, startFrame]
    split
    · exact fun hp => by cases hp
    · exact fun hp => by cases hp
  · have hx : Transit.pings ⟨out.done, some x⟩ = out.pings ++ x.ping?.toList := by
      rw [Transit.pings, Transit.pings, hall]
      exact Transit.filterMap_snoc _ _ _
    rw [hx]
    exact hpings

/-- **The writer is driven**, and is not done. -/
theorem driven (h : Carried e p c out back) {script : List Accept}
    (hok : (driveWrite script e.writer).1 ≠ .failed)
    (hmore : (driveWrite script e.writer).2.1 ≠ .init) :
    Carried
      { e with
        writer := (driveWrite script e.writer).2.1
        sent := e.sent ++ (driveWrite script e.writer).2.2 } p c out back := by
  obtain ⟨hbusy, hpoisoned, hinit⟩ := FrameIo.driveWrite_busy script h.busy
  have hunpoisoned : (driveWrite script e.writer).2.1 ≠ .poisoned := fun hp => hok (hpoisoned hp)
  obtain ⟨rest, hrest, hleft⟩ := driveWrite_pending script e.writer
  refine ⟨h.conn, ⟨?_, h.reading.fits⟩, ?_, hbusy, hunpoisoned, h.slot, h.pings⟩
  · rw [← h.reading.bytes, ← hrest, hleft hunpoisoned]
    simp only [List.append_assoc]
  · have hwriting : out.writing ≠ none := fun hnone => hmore (hinit (h.idle.mpr hnone))
    exact ⟨fun hi => absurd hi hmore, fun hnone => absurd hnone hwriting⟩

/-- **The writer is done with its frame**, if it had one. -/
theorem flushed (h : Carried e p c out back) {script : List Accept}
    (hdone : (driveWrite script e.writer).2.1 = .init) :
    Carried
      { e with
        writer := (driveWrite script e.writer).2.1
        sent := e.sent ++ (driveWrite script e.writer).2.2 } p
      (e.conn.onSocket none (out.wire ++ out.socket.toList)) ⟨out.all, none⟩ back := by
  obtain ⟨rest, hrest, hleft⟩ := driveWrite_pending script e.writer
  have hall : Transit.all ⟨out.all, none⟩ = out.all := List.append_nil _
  have hunpoisoned : (driveWrite script e.writer).2.1 ≠ .poisoned := by
    rw [hdone]
    exact fun hp => by cases hp
  refine ⟨?_, ⟨?_, ?_⟩, ⟨fun _ => rfl, fun _ => hdone⟩, ?_, hunpoisoned, h.slot, ?_⟩
  · rw [← Transit.frames_all]
    rfl
  · rw [hall, ← h.reading.bytes, ← hrest, hleft hunpoisoned]
    simp only [List.append_assoc]
  · rw [hall]
    exact h.reading.fits
  · exact fun hi => absurd hdone hi
  · rw [Transit.pings, hall]
    exact h.pings

/-- The peer's reader has gone on without a frame. -/
theorem waited (h : Carried e p c out back) {reader : ReadState} {sent : Bytes}
    (hr : Reading reader sent e.writer.pending (out.all.map WireFrame.toIo)) :
    Carried { e with sent := sent } { p with reader := reader } c out back :=
  ⟨h.conn, hr, h.idle, h.busy, h.unpoisoned, h.slot, h.pings⟩

/-- A frame that is handed out was written whole. -/
theorem first (h : Carried e p c out back) {f : FrameIo.Frame} {l : List FrameIo.Frame}
    {sent : Bytes} (hsplit : out.all.map WireFrame.toIo = f :: l)
    (hr : Reading .init sent e.writer.pending l) :
    ∃ x done, out.done = x :: done ∧ x.toIo = f ∧
      l = (Transit.all ⟨done, out.writing⟩).map WireFrame.toIo := by
  obtain ⟨done, writing⟩ := out
  cases done with
  | cons x done =>
    obtain ⟨hx, hl⟩ := List.cons.inj hsplit
    exact ⟨x, done, rfl, hx, hl.symm⟩
  | nil =>
    cases writing with
    | none => cases hsplit
    | some x =>
      obtain ⟨-, rfl⟩ := List.cons.inj hsplit
      have hpending : e.writer.pending = [] := (List.append_eq_nil_iff.mp hr.bytes).2
      have hwriting : e.writer ≠ .init := fun hi => by cases h.idle.mp hi
      exact absurd hpending (h.busy hwriting h.unpoisoned)

/-- The reader has been handed a frame. -/
theorem heard (h : Carried e p c out back) (e' : ByteEnd) (sent : Bytes) {back' : Transit}
    (hconn : c' = e'.conn.onSocket out.socket out.wire) (hwriter : e'.writer = e.writer)
    (hsent : e'.sent = e.sent) (hslot : e'.pong.isSome = true → e'.conn.pendingReadFrame = none)
    (hpings : back'.pongs ++ (p.pong.toList ++ out.pings) = e'.rtt.unanswered) :
    Carried e' { p with sent := sent } c' out back' := by
  refine ⟨hconn, ?_, ?_, ?_, ?_, hslot, hpings⟩
  · rw [hsent, hwriter]
    exact h.reading
  · rw [hwriter]
    exact h.idle
  · rw [hwriter]
    exact h.busy
  · rw [hwriter]
    exact h.unpoisoned

/-- A frame has been handed out to the peer. -/
theorem took (h : Carried e p c out back) {done : List WireFrame} {p' : ByteEnd}
    {sent : Bytes} {back' : Transit}
    (hr : Reading p'.reader sent e.writer.pending
      ((Transit.all ⟨done, out.writing⟩).map WireFrame.toIo))
    (hpings : back'.pongs ++ (p'.pong.toList ++ Transit.pings ⟨done, out.writing⟩) =
      back.pongs ++ (p.pong.toList ++ out.pings)) :
    Carried { e with sent := sent } p'
      (e.conn.onSocket out.socket (done.filterMap WireFrame.frame?)) ⟨done, out.writing⟩ back' :=
  ⟨rfl, hr, h.idle, h.busy, h.unpoisoned, h.slot, hpings.trans h.pings⟩

end Carried

/-! ## 4. One step -/

theorem Active.startFrame_onSocket {c c1 : Active} {f : Frame} {wire : List Frame}
    (h : c.nextQueuedFrame = some (f, c1)) :
    (c.onSocket none wire).startFrame =
      some (Active.onSocket { c1 with left := c1.left ++ [f] } (some f) wire) := by
  rw [Active.startFrame]
  change Option.map _ (Active.nextQueuedFrame _) = _
  rw [Active.nextQueuedFrame_onSocket, h]
  rfl

namespace Carries

variable {b b' : ByteWorld} {w w' : World} {t t' : Mode → Transit} {m : Mode}

theorem of_sides (hm : Carried (b m) (b m.peer) (w m) (t m) (t m.peer))
    (hp : Carried (b m.peer) (b m) (w m.peer) (t m.peer) (t m)) : Carries b w t := by
  intro k
  rcases Mode.eq_or_eq_peer m k with rfl | rfl
  · exact hm
  · rw [Mode.peer_peer]
    exact hp

theorem back (h : Carries b w t) (m : Mode) :
    Carried (b m.peer) (b m) (w m.peer) (t m.peer) (t m) := by
  have hp := h m.peer
  rwa [Mode.peer_peer] at hp

/-- One end takes a step. -/
theorem update {e' : ByteEnd} {c' : Active} {out : Transit}
    (hm : Carried e' (b m.peer) c' out (t m.peer))
    (hp : Carried (b m.peer) e' (w m.peer) (t m.peer) out) :
    Carries (update b m e') (update w m c') (update t m out) := by
  refine of_sides (m := m) ?_ ?_
  · simp only [update_self, update_of_ne (Mode.peer_ne m)]
    exact hm
  · simp only [update_self, update_of_ne (Mode.peer_ne m)]
    exact hp

/-- One end takes something off the socket. -/
theorem update₂ {e' p' : ByteEnd} {c' cp' : Active} {back' : Transit}
    (hm : Carried e' p' c' (t m) back') (hp : Carried p' e' cp' back' (t m)) :
    Carries (Function.update (Function.update b m.peer p') m e')
      (Function.update (Function.update w m.peer cp') m c') (Function.update t m.peer back') := by
  refine of_sides (m := m) ?_ ?_
  · simp only [update_self, update_of_ne (Mode.peer_ne m), update_of_ne (Mode.ne_peer m)]
    exact hm
  · simp only [update_self, update_of_ne (Mode.peer_ne m), update_of_ne (Mode.ne_peer m)]
    exact hp

theorem closed (h : Carries b w t) (m : Mode) : (w m).closed = (b m).conn.closed := by
  rw [(h m).conn]
  rfl

theorem connected (h : Carries b w t) (hc : b.Connected) : w.Connected := fun m =>
  (h.closed m).trans (hc m)

/-- The connection's frames that are on their way are those of the system of frames. -/
theorem sized (h : Carries b w t)
    (hsized : ∀ m f, f ∈ (w m).wire ++ (w m).socket.toList →
      f.Sized ∧ f.body.length ≤ FrameIo.maxFrameBodyLen)
    {f : Frame} (hf : .frame f ∈ (t m).all) :
    f.Sized ∧ f.body.length ≤ FrameIo.maxFrameBodyLen := by
  refine hsized m f ?_
  rw [(h m).conn]
  change f ∈ (t m).wire ++ (t m).socket.toList
  rw [← Transit.frames_all]
  exact List.mem_filterMap.mpr ⟨_, hf, rfl⟩

/-- **What does not touch the socket** is a step of the system of frames. -/
theorem op (h : Carries b w t) {op : Op} (hstart : op ≠ .start) (hflush : op ≠ .flush)
    {c1 : Active} (hopen : (b m).conn.closed = false) (hact : (b m).conn.act op = some c1) :
    ∃ w', w.act m op = some w' ∧
      Carries (Function.update b m { b m with conn := c1 }) w' (Function.update t m (t m)) := by
  have hreply := Active.act_reply hact hstart
  have hw : (w m).act op = some (c1.onSocket (t m).socket (t m).wire) := by
    rw [(h m).conn, Active.act_onSocket hstart hflush, hact]
    rfl
  refine ⟨_, ?_, update ((h m).op hreply) ((h.back m).peer _ _ rfl rfl)⟩
  rw [World.act, h.closed m, hopen, hw]
  rfl

end Carries

/-- **What an idle writer is given.** -/
theorem ByteEnd.nextFrame_cases {due : Bool} {e e1 : ByteEnd} {x : WireFrame}
    (h : e.nextFrame due = some (x, e1)) :
    (∃ id rtt, e.rtt.unanswered = [] ∧ rtt.unanswered = [id] ∧ x = .ping id ∧
      e1 = { e with rtt := rtt }) ∨
    (∃ id, e.pong = some id ∧ x = .pong id ∧ e1 = { e with pong := none }) ∨
    ∃ f c, e.pong = none ∧ e.conn.nextQueuedFrame = some (f, c) ∧ x = .frame f ∧
      e1 = { e with conn := { c with left := c.left ++ [f] } } := by
  rw [nextFrame] at h
  cases hping : e.rtt.nextPing due with
  | some r =>
    rw [hping] at h
    cases h
    refine Or.inl ⟨r.1, r.2, ?_, ?_, rfl, rfl⟩
    all_goals
      rw [Rtt.nextPing] at hping
      split at hping
      case h_1 => cases hping
      case h_2 hwaiting =>
        split at hping
        · cases hping
          simp [Rtt.unanswered, hwaiting]
        · cases hping
  | none =>
    rw [hping] at h
    refine Or.inr ?_
    cases hpong : e.pong with
    | some id =>
      rw [hpong] at h
      cases h
      exact Or.inl ⟨id, rfl, rfl, rfl⟩
    | none =>
      rw [hpong] at h
      obtain ⟨⟨f, c⟩, hqueued, h⟩ := Option.map_eq_some_iff.mp h
      obtain ⟨rfl, rfl⟩ := Prod.mk.inj h
      exact Or.inr ⟨f, c, rfl, hqueued, rfl, rfl⟩

/-- **A frame is started**: a step of the system of frames if it is one of the connection. -/
theorem Carries.start {b : ByteWorld} {w : World} {t : Mode → Transit} {m : Mode}
    (h : Carries b w t) (hopen : (b m).conn.closed = false) {due : Bool} {e' : ByteEnd}
    (hstart : (b m).start due = some e') :
    ∃ w' out, (w' = w ∨ w.act m .start = some w') ∧
      Carries (Function.update b m e') w' (Function.update t m out) := by
  rw [ByteEnd.start] at hstart
  split at hstart
  case isFalse => cases hstart
  case isTrue hidle =>
    obtain ⟨⟨x, e1⟩, hnext, rfl⟩ := Option.map_eq_some_iff.mp hstart
    have hconn : w m = (b m).conn.onSocket none (t m).wire := by
      rw [(h m).conn, Transit.socket, (h m).idle.mp hidle]
      rfl
    have hpongs : ∀ y : WireFrame, Transit.pongs ⟨(t m).done, some y⟩ =
        (t m).pongs ++ y.pong?.toList := by
      intro y
      rw [Transit.pongs, Transit.pongs, Transit.all_idle ((h m).idle.mp hidle)]
      exact Transit.filterMap_snoc _ _ _
    have hpings := (h m).pings
    obtain ⟨id, rtt, hwaiting, hawaited, rfl, rfl⟩ | ⟨id, hpong, rfl, rfl⟩ |
      ⟨f, c, hpong, hqueued, rfl, rfl⟩ := ByteEnd.nextFrame_cases hnext
    · -- a ping goes out: nothing was awaited, so nothing of one is on its way
      rw [hwaiting] at hpings
      refine ⟨w, ⟨(t m).done, some (.ping id)⟩, Or.inl rfl, ?_⟩
      rw [← Function.update_eq_self m w]
      refine Carries.update ((h m).started hidle (.ping id) hconn rfl rfl (h m).slot ?_)
        ((h.back m).peer _ _ rfl ?_)
      · change _ ++ (_ ++ (_ ++ [id])) = rtt.unanswered
        rw [hawaited, ← List.append_assoc (b m.peer).pong.toList, ← List.append_assoc, hpings,
          List.nil_append]
      · rw [hpongs]
        exact congrArg (· ++ _) (List.append_nil _)
    · -- the answer leaves the slot for the wire
      refine ⟨w, ⟨(t m).done, some (.pong id)⟩, Or.inl rfl, ?_⟩
      rw [← Function.update_eq_self m w]
      refine Carries.update
        ((h m).started hidle (.pong id) hconn rfl rfl (fun hs => by cases hs) ?_)
        ((h.back m).peer _ _ rfl ?_)
      · change _ ++ (_ ++ (_ ++ [])) = (b m).rtt.unanswered
        rw [List.append_nil]
        exact hpings
      · rw [hpongs, hpong]
        exact List.append_nil _
    · have hact : (w m).act .start =
          some (Active.onSocket { c with left := c.left ++ [f] } (some f) (t m).wire) := by
        rw [hconn]
        exact Active.startFrame_onSocket hqueued
      refine ⟨_, ⟨(t m).done, some (.frame f)⟩, Or.inr ?_,
        Carries.update ((h m).started hidle (.frame f) rfl rfl rfl (fun hs => ?_) ?_)
          ((h.back m).peer _ _ rfl ?_)⟩
      · rw [World.act, h.closed m, hopen, hact]
        rfl
      · change (b m).pong.isSome = true at hs
        rw [hpong] at hs
        cases hs
      · change _ ++ (_ ++ (_ ++ [])) = (b m).rtt.unanswered
        rw [List.append_nil]
        exact hpings
      · rw [hpongs]
        exact congrArg (· ++ _) (List.append_nil _)

/-- **The writer is driven**: a step of the system of frames if it is done with one. -/
theorem Carries.drive {b : ByteWorld} {w : World} {t : Mode → Transit} {m : Mode}
    (h : Carries b w t) (hopen : (b m).conn.closed = false) {script : List Accept}
    (hok : (driveWrite script (b m).writer).1 ≠ .failed) :
    ∃ w' out, (w' = w ∨ w.act m .flush = some w') ∧
      Carries (Function.update b m ((b m).drive script)) w' (Function.update t m out) := by
  have hdrive : (b m).drive script =
      { b m with
        writer := (driveWrite script (b m).writer).2.1
        sent := (b m).sent ++ (driveWrite script (b m).writer).2.2 } := if_neg hok
  rw [hdrive]
  by_cases hdone : (driveWrite script (b m).writer).2.1 = .init
  · have hpeer := (h.back m).peer { b m with
      writer := (driveWrite script (b m).writer).2.1
      sent := (b m).sent ++ (driveWrite script (b m).writer).2.2 }
      ⟨(t m).all, none⟩ rfl (by rw [Transit.pongs, Transit.all, Option.toList_none,
        List.append_nil, Transit.pongs])
    refine ⟨_, ⟨(t m).all, none⟩, ?_, Carries.update ((h m).flushed hdone) hpeer⟩
    cases hsocket : (t m).socket with
    | none =>
      refine Or.inl ?_
      rw [Option.toList_none, List.append_nil]
      have hconn := (h m).conn
      rw [hsocket] at hconn
      rw [← hconn]
      exact Function.update_eq_self m w
    | some f =>
      refine Or.inr ?_
      have hconn := (h m).conn
      rw [hsocket] at hconn
      rw [World.act, h.closed m, hopen, hconn]
      rfl
  · refine ⟨w, t m, Or.inl rfl, ?_⟩
    have hup := Carries.update ((h m).driven hok hdone) ((h.back m).peer { b m with
      writer := (driveWrite script (b m).writer).2.1
      sent := (b m).sent ++ (driveWrite script (b m).writer).2.2 } (t m) rfl rfl)
    rwa [Function.update_eq_self] at hup

/-- **What a poll of two live ends comes to.** -/
theorem ByteWorld.poll_cases {b b' : ByteWorld} {m : Mode} {script : List Give}
    (h : b.poll m script = some b') (hc : b'.Connected) :
    b.Connected ∧ (b m).conn.pendingReadFrame = none ∧ (b m).pong = none ∧
      ∃ o reader sent,
        pollNextFrame false script (b m).reader (b m.peer).sent = (o, reader, sent) ∧
          ((∃ hd body, o = .frame hd body ∧
              b' = update (update b m.peer { b m.peer with sent := sent }) m
                (ByteEnd.onFrame { b m with reader := reader } hd body)) ∨
            (o = .pending ∧
              b' = update (update b m.peer { b m.peer with sent := sent }) m
                { b m with reader := reader })) := by
  rw [poll] at h
  split at h
  case isTrue => cases h
  case isFalse hgate =>
    rw [Bool.or_eq_true, Bool.or_eq_true, not_or, not_or] at hgate
    obtain ⟨⟨hopen, hreply⟩, hpong⟩ := hgate
    have hpeer : ∀ e' : ByteEnd, ∀ sent : Bytes,
        b' = update (update b m.peer { b m.peer with sent := sent }) m e' → b.Connected := by
      intro e' sent hb k
      rcases Mode.eq_or_eq_peer m k with rfl | rfl
      · exact Bool.eq_false_iff.mpr hopen
      · have hk := hc m.peer
        rw [hb, update_of_ne (Mode.peer_ne m), update_self] at hk
        exact hk
    generalize hr : pollNextFrame (b m.peer).conn.closed script (b m).reader (b m.peer).sent = r
      at h
    obtain ⟨o, reader, sent⟩ := r
    have hends : ∀ e' : ByteEnd, b' = update (update b m.peer { b m.peer with sent := sent }) m e' →
        b.Connected ∧
          pollNextFrame false script (b m).reader (b m.peer).sent = (o, reader, sent) := by
      intro e' hb
      have hconnected := hpeer e' sent hb
      rw [hconnected m.peer] at hr
      exact ⟨hconnected, hr⟩
    have hfail : some b' ≠ some (update (update b m.peer { b m.peer with sent := sent }) m
        (ByteEnd.fail { b m with reader := reader })) := by
      intro hb
      have hm := hc m
      rw [Option.some.inj hb, update_self] at hm
      cases hm
    cases o with
    | frame hd body =>
      have hb := (Option.some.inj h).symm
      obtain ⟨hconnected, hpolled⟩ := hends _ hb
      exact ⟨hconnected, Option.not_isSome_iff_eq_none.mp hreply,
        Option.not_isSome_iff_eq_none.mp hpong, _, reader, sent, hpolled,
        Or.inl ⟨hd, body, rfl, hb⟩⟩
    | pending =>
      have hb := (Option.some.inj h).symm
      obtain ⟨hconnected, hpolled⟩ := hends _ hb
      exact ⟨hconnected, Option.not_isSome_iff_eq_none.mp hreply,
        Option.not_isSome_iff_eq_none.mp hpong, _, reader, sent, hpolled, Or.inr ⟨rfl, hb⟩⟩
    | ended | unexpectedEof | io | header | frameTooLarge => exact absurd h.symm hfail

theorem Frame.toIo_readable {f : Frame} (h : f.body.length ≤ FrameIo.maxFrameBodyLen) :
    f.toIo.Readable := by
  obtain ⟨tag, streamId, syn, ack, fin, rst, credit, body⟩ := f
  cases tag with
  | data =>
    change ((body.take (body.length % 2 ^ 32)).map UInt8.toBitVec).length ≤ _
    rw [List.length_map, List.length_take]
    exact Nat.le_trans (Nat.min_le_right _ _) h
  | windowUpdate | goAway => exact Nat.zero_le _

/-- Nothing that is on its way is refused by the reader. -/
theorem Carries.readable {b : ByteWorld} {w : World} {t : Mode → Transit} (h : Carries b w t)
    (hsized : ∀ m f, f ∈ (w m).wire ++ (w m).socket.toList →
      f.Sized ∧ f.body.length ≤ FrameIo.maxFrameBodyLen) (m : Mode) :
    ∀ f ∈ (t m).all.map WireFrame.toIo, f.Readable := by
  intro f hf
  obtain ⟨x, hx, rfl⟩ := List.mem_map.mp hf
  cases x with
  | frame f => exact Frame.toIo_readable (h.sized hsized hx).2
  | ping id | pong id => exact Nat.zero_le _

/-- A reader that hands out nothing, while the peer lives. -/
theorem quiet_live {o : ReadOutcome} (h : FrameIo.Quiet false o) : o = .pending ∨ o = .io := by
  cases o with
  | pending => exact Or.inl rfl
  | io => exact Or.inr rfl
  | ended | unexpectedEof => cases h
  | frame | header | frameTooLarge => exact h.elim

/-- A ping is answered. -/
theorem ByteEnd.onFrame_ping (id : U32) (e : ByteEnd) :
    e.onFrame (WireFrame.ping id).toIo.header (WireFrame.ping id).toIo.body =
      { e with pong := some id } := by
  have hack : ¬ contains 1 2 = true := by decide
  exact (if_neg hack).trans (if_pos (Or.inl rfl))

/-- The pong that is awaited. -/
theorem ByteEnd.onFrame_pong {id : U32} {e : ByteEnd} (h : e.rtt.state = .awaitingPong id) :
    e.onFrame (WireFrame.pong id).toIo.header (WireFrame.pong id).toIo.body =
      { e with rtt := { e.rtt with state := .waiting } } := by
  have hack : contains 2 2 = true := by decide
  have hpong : e.rtt.handlePong id = some { e.rtt with state := .waiting } := by
    rw [Rtt.handlePong, h]
    exact if_pos rfl
  change e.onPing ⟨.ping, 2, 0, id⟩ = _
  rw [ByteEnd.onPing, if_pos hack]
  simp only [hpong]

/-- A frame of the connection is handed out: the system of frames receives it. -/
theorem Carries.hear {b : ByteWorld} {w : World} {t : Mode → Transit} {m : Mode}
    (h : Carries b w t) (hopen : (b m).conn.closed = false)
    (hreply : (b m).conn.pendingReadFrame = none) (hpong : (b m).pong = none) {f : Frame}
    {done : List WireFrame} (hdone : (t m.peer).done = .frame f :: done) {sent : Bytes}
    (hreading : Reading .init sent (b m.peer).writer.pending
      ((Transit.all ⟨done, (t m.peer).writing⟩).map WireFrame.toIo)) :
    ∃ w', w.receive m = some w' ∧
      Carries
        (Function.update (Function.update b m.peer { b m.peer with sent := sent }) m
          { b m with reader := .init, conn := (b m).conn.onFrame f })
        w' (Function.update t m.peer ⟨done, (t m.peer).writing⟩) := by
  have hconn : (w m).onFrame f = ((b m).conn.onFrame f).onSocket (t m).socket (t m).wire := by
    rw [(h m).conn, Active.onFrame_onSocket]
  have hgate : ((w m).closed || (w m).pendingReadFrame.isSome) = false := by
    rw [h.closed m, hopen, (h m).conn]
    change (b m).conn.pendingReadFrame.isSome = false
    rw [hreply]
    rfl
  have hpeer : w m.peer = (b m.peer).conn.onSocket (t m.peer).socket
      (f :: done.filterMap WireFrame.frame?) := by
    rw [(h.back m).conn, Transit.wire, hdone]
    rfl
  have hslot : (b m).pong.isSome = true → ((b m).conn.onFrame f).pendingReadFrame = none := by
    intro hsome
    rw [hpong] at hsome
    cases hsome
  have hmine := (h m).pings
  rw [Transit.pongs_cons hdone] at hmine
  refine ⟨_, ?_, Carries.update₂ (b := b) (w := w)
    ((h m).heard { b m with reader := .init, conn := (b m).conn.onFrame f } sent hconn rfl rfl
      hslot hmine)
    ((h.back m).took hreading ?_)⟩
  · rw [World.receive, hgate, hpeer]
    rfl
  · rw [Transit.pings_cons hdone]
    rfl

/-- A ping or an answer is handed out, of which the system of frames knows nothing. -/
theorem Carries.overhear {b : ByteWorld} {w : World} {t : Mode → Transit} {m : Mode}
    (h : Carries b w t) {x : WireFrame} (hx : x.frame? = none) {done : List WireFrame}
    (hdone : (t m.peer).done = x :: done) (e' : ByteEnd) {sent : Bytes}
    (hconn : e'.conn = (b m).conn) (hwriter : e'.writer = (b m).writer)
    (hsent : e'.sent = (b m).sent)
    (hslot : e'.pong.isSome = true → e'.conn.pendingReadFrame = none)
    (hmine : Transit.pongs ⟨done, (t m.peer).writing⟩ ++
      ((b m.peer).pong.toList ++ (t m).pings) = e'.rtt.unanswered)
    (htheirs : e'.pong.toList = (b m).pong.toList ++ x.ping?.toList)
    (hreading : Reading e'.reader sent (b m.peer).writer.pending
      ((Transit.all ⟨done, (t m.peer).writing⟩).map WireFrame.toIo)) :
    Carries
      (Function.update (Function.update b m.peer { b m.peer with sent := sent }) m e') w
      (Function.update t m.peer ⟨done, (t m.peer).writing⟩) := by
  have hmyConn : w m = e'.conn.onSocket (t m).socket (t m).wire := by
    rw [hconn]
    exact (h m).conn
  have hpeer : (b m.peer).conn.onSocket (t m.peer).socket (done.filterMap WireFrame.frame?) =
      w m.peer := by
    rw [(h.back m).conn, Transit.wire, hdone, Transit.filterMap_head, hx]
    rfl
  have hup := Carries.update₂ (b := b) (w := w)
    ((h m).heard e' sent hmyConn hwriter hsent hslot hmine)
    ((h.back m).took hreading (by
      rw [Transit.pings_cons hdone, htheirs, List.append_assoc]))
  rw [hpeer, Function.update_eq_self, Function.update_eq_self] at hup
  exact hup

/-- **An end polls**: a step of the system of frames if a frame of the connection is there whole. -/
theorem Carries.poll {b b' : ByteWorld} {w : World} {t : Mode → Transit} {m : Mode}
    (h : Carries b w t) {script : List Give} (hs : b.poll m script = some b')
    (hc : b'.Connected)
    (hsized : ∀ m f, f ∈ (w m).wire ++ (w m).socket.toList →
      f.Sized ∧ f.body.length ≤ FrameIo.maxFrameBodyLen) :
    ∃ w' t', (w' = w ∨ w.receive m = some w') ∧ Carries b' w' t' := by
  obtain ⟨hconnected, hreply, hpong, o, reader, sent, hpolled, ho⟩ := ByteWorld.poll_cases hs hc
  have hback := h.back m
  have hpoll := reading_poll false script (h.readable hsized m.peer) hback.reading
  rw [hpolled] at hpoll
  rcases ho with ⟨hd, body, rfl, rfl⟩ | ⟨rfl, rfl⟩
  · rcases hpoll with ⟨f, l, hsplit, hout, hreading, hinit⟩ | ⟨hquiet, -⟩
    · obtain ⟨rfl, rfl⟩ := ReadOutcome.frame.inj hout
      change reader = .init at hinit
      subst hinit
      obtain ⟨x, done, hdone, rfl, rfl⟩ := hback.first hsplit hreading
      cases x with
      | frame f =>
        have hmem : WireFrame.frame f ∈ (t m.peer).all := by
          rw [Transit.all_cons hdone]
          exact List.mem_cons_self
        obtain ⟨w', hw, hcarries⟩ := h.hear (hconnected m) hreply hpong hdone hreading
        have hread := ByteEnd.onFrame_toIo (h.sized hsized hmem).1 { b m with reader := .init }
        refine ⟨w', Function.update t m.peer ⟨done, (t m.peer).writing⟩, Or.inr hw, ?_⟩
        change Carries (Function.update _ m (ByteEnd.onFrame _ f.toIo.header f.toIo.body)) w' _
        rw [hread]
        exact hcarries
      | ping id =>
        have hmine := (h m).pings
        rw [Transit.pongs_cons hdone] at hmine
        rw [ByteEnd.onFrame_ping]
        refine ⟨w, _, Or.inl rfl, h.overhear rfl hdone { b m with reader := .init, pong := some id }
          rfl rfl rfl (fun _ => hreply) hmine ?_ hreading⟩
        rw [hpong]
        rfl
      | pong id =>
        obtain ⟨hstate, hmine⟩ := (h m).answered hdone
        have hread : ByteEnd.onFrame { b m with reader := .init } (WireFrame.pong id).toIo.header
            (WireFrame.pong id).toIo.body =
              { b m with reader := .init, rtt := { (b m).rtt with state := .waiting } } :=
          ByteEnd.onFrame_pong hstate
        rw [hread]
        exact ⟨w, _, Or.inl rfl, h.overhear rfl hdone _ rfl rfl rfl (h m).slot hmine
          (List.append_nil _).symm hreading⟩
    · exact hquiet.elim
  · rcases hpoll with ⟨f, l, -, hout, -⟩ | ⟨-, hreading, -⟩
    · cases hout
    · refine ⟨w, t, Or.inl rfl, ?_⟩
      have hup := Carries.update₂ (b := b) (w := w)
        ((h m).heard { b m with reader := reader } sent (h m).conn rfl rfl (h m).slot (h m).pings)
        (hback.waited hreading)
      rwa [Function.update_eq_self, Function.update_eq_self, Function.update_eq_self] at hup

/-- Both ends lived before a step after which both live. -/
theorem ByteWorld.act_connected {b b' : ByteWorld} {m : Mode} {op : ByteOp}
    (h : b.act m op = some b') (hc : b'.Connected) :
    b.Connected ∧ ∃ e', (b m).act op = some e' ∧ b' = update b m e' := by
  rw [act] at h
  split at h
  case isTrue => cases h
  case isFalse hopen =>
    obtain ⟨e', hact, rfl⟩ := Option.map_eq_some_iff.mp h
    refine ⟨fun k => ?_, e', hact, rfl⟩
    rcases Mode.eq_or_eq_peer m k with rfl | rfl
    · exact Bool.eq_false_iff.mpr hopen
    · have hk := hc m.peer
      rw [update_of_ne (Mode.peer_ne m)] at hk
      exact hk

theorem ByteWorld.step_connected {b b' : ByteWorld} {a : ByteLabel} (h : b.step a = some b')
    (hc : b'.Connected) : b.Connected := by
  cases a with
  | act m op => exact (act_connected h hc).1
  | poll m script => exact (poll_cases h hc).1

/-- What does not touch the socket is no start and no flush. -/
theorem ByteEnd.act_op {e e' : ByteEnd} {op : Op} (h : e.act (.op op) = some e') :
    op ≠ .start ∧ op ≠ .flush ∧ ∃ c, e.conn.act op = some c ∧ e' = { e with conn := c } := by
  cases op with
  | start | flush => cases h
  | newOutbound | write | read | endRead | shutdown | dropHandle | queue =>
    obtain ⟨c, hact, rfl⟩ := Option.map_eq_some_iff.mp h
    exact ⟨by simp, by simp, c, hact, rfl⟩

/-- **Every step** is one of the system of frames, or none. -/
theorem Carries.step {b b' : ByteWorld} {w : World} {t : Mode → Transit} (h : Carries b w t)
    {a : ByteLabel} (hs : b.step a = some b') (hc : b'.Connected)
    (hsized : ∀ m f, f ∈ (w m).wire ++ (w m).socket.toList →
      f.Sized ∧ f.body.length ≤ FrameIo.maxFrameBodyLen) :
    ∃ w' t', (w' = w ∨ ∃ a', w.step a' = some w') ∧ Carries b' w' t' := by
  cases a with
  | poll m script =>
    obtain ⟨w', t', hw, hcarries⟩ := h.poll hs hc hsized
    exact ⟨w', t', hw.imp_right fun hw => ⟨.receive m, hw⟩, hcarries⟩
  | act m op =>
    obtain ⟨hconnected, e', hact, rfl⟩ := ByteWorld.act_connected hs hc
    cases op with
    | op op =>
      obtain ⟨hstart, hflush, c, hop, rfl⟩ := ByteEnd.act_op hact
      obtain ⟨w', hw, hcarries⟩ := h.op hstart hflush (hconnected m) hop
      exact ⟨w', _, Or.inr ⟨.act m op, hw⟩, hcarries⟩
    | start due =>
      obtain ⟨w', out, hw, hcarries⟩ := h.start (hconnected m) hact
      exact ⟨w', _, hw.imp_right fun hw => ⟨.act m .start, hw⟩, hcarries⟩
    | drive script =>
      obtain rfl := Option.some.inj hact
      have hok : (driveWrite script (b m).writer).1 ≠ .failed := by
        intro hfailed
        have hm := hc m
        rw [update_self, ByteEnd.drive, if_pos hfailed] at hm
        cases hm
      obtain ⟨w', out, hw, hcarries⟩ := h.drive (hconnected m) hok
      exact ⟨w', _, hw.imp_right fun hw => ⟨.act m .flush, hw⟩, hcarries⟩

/-! ## 5. Every run -/

theorem Carries.new (cfg : Mode → Config) :
    Carries (fun m => .new m (cfg m)) (fun m => .new m (cfg m)) fun _ => ⟨[], none⟩ := fun _ =>
  { conn := rfl
    reading := ⟨rfl, trivial⟩
    idle := ⟨fun _ => rfl, fun _ => rfl⟩
    busy := fun hne => absurd rfl hne
    unpoisoned := fun hp => by cases hp
    slot := fun hs => by cases hs
    pings := rfl }

/-- What is on the sockets of two live connections fits its headers. -/
theorem sized_of_reach {cfg : Mode → Config}
    (hcfg : ∀ m, (cfg m).splitSendSize ≤ FrameIo.maxFrameBodyLen) {w : World}
    (h : (mux cfg).Reach w) (hc : w.Connected) (m : Mode) (f : Frame)
    (hf : f ∈ (w m).wire ++ (w m).socket.toList) :
    f.Sized ∧ f.body.length ≤ FrameIo.maxFrameBodyLen :=
  (reach_agree h hc).sized (reach_within h hc) hcfg hf

/-- **Every run**: while both ends live, what they carry is reachable. -/
theorem carries_of_reach {cfg : Mode → Config}
    (hcfg : ∀ m, (cfg m).splitSendSize ≤ FrameIo.maxFrameBodyLen) {b : ByteWorld}
    (h : (byteMux cfg).Reach b) (hc : b.Connected) :
    ∃ w t, (mux cfg).Reach w ∧ Carries b w t := by
  refine Lts.Reach.invariant
    (P := fun b => b.Connected → ∃ w t, (mux cfg).Reach w ∧ Carries b w t) ?_ ?_ h hc
  · rintro b rfl -
    exact ⟨_, _, .init rfl, .new cfg⟩
  · intro b a b' hb hstep hc'
    have hconnected := ByteWorld.step_connected hstep hc'
    obtain ⟨w, t, hreach, hcarries⟩ := hb hconnected
    obtain ⟨w', t', hw, hcarries'⟩ := hcarries.step hstep hc'
      (sized_of_reach hcfg hreach (hcarries.connected hconnected))
    refine ⟨w', t', ?_, hcarries'⟩
    rcases hw with rfl | ⟨a', hw⟩
    · exact hreach
    · exact hreach.step hw

/-- **What is carried is what two connections over frames do.**  While both ends live, their
connections are those of a reachable state of the system of frames, with what the writers, the
socket and the readers hold put together to whole frames. -/
theorem bytes_refine {cfg : Mode → Config}
    (hcfg : ∀ m, (cfg m).splitSendSize ≤ FrameIo.maxFrameBodyLen) {b : ByteWorld}
    (h : (byteMux cfg).Reach b) (hc : b.Connected) :
    ∃ w t, (mux cfg).Reach w ∧ w.Connected ∧ Carries b w t := by
  obtain ⟨w, t, hreach, hcarries⟩ := carries_of_reach hcfg h hc
  exact ⟨w, t, hreach, hcarries.connected hc, hcarries⟩

/-- A frame that is half written and half read. -/
def halfWay : List ByteLabel :=
  [.act .client (.op .newOutbound), .act .client (.op (.write 1 [7, 8, 9])),
    .act .client (.op .queue), .act .client (.start false),
    .act .client (.drive [.took 5, .pending]), .poll .server [.gave 2]]

theorem bytes_refine_halfWay :
    ∃ b : ByteWorld, (byteMux fun _ => tunnelConfig).Reach b ∧
      (b .client).writer.pending.length = 10 ∧ (b .server).reader.held.length = 3 ∧
        ∃ w t, (mux fun _ => tunnelConfig).Reach w ∧ w.Connected ∧ Carries b w t := by
  have hrun : (Lts.runWith ByteWorld.step (fun _ _ => true) (fun m => .new m tunnelConfig)
      halfWay).any (fun b =>
        !(b .client).conn.closed && !(b .server).conn.closed &&
          (b .client).writer.pending.length == 10 && (b .server).reader.held.length == 3) =
            true := by
    decide +kernel
  obtain ⟨b, hreach, hb⟩ := Lts.Reach.exists_run (T := byteMux fun _ => tunnelConfig)
    (fun _ _ _ hs => hs) rfl hrun
  simp only [Bool.and_eq_true, Bool.not_eq_true', beq_iff_eq] at hb
  obtain ⟨⟨⟨hcc, hcs⟩, hw⟩, hr⟩ := hb
  have hc : b.Connected := fun m => by
    cases m
    · exact hcc
    · exact hcs
  exact ⟨b, hreach, hw, hr, bytes_refine (fun _ => by decide) hreach hc⟩

/-- **Two live ends over any socket**: an end has of a stream a beginning of what the other end
wrote to it, a poll never finds anything but whole frames, an answer that waits to be sent is the
one that the other end awaits, and so is one that is on its way, wherever its bytes are. -/
theorem bytes_sound {cfg : Mode → Config}
    (hcfg : ∀ m, (cfg m).splitSendSize ≤ FrameIo.maxFrameBodyLen) {b : ByteWorld}
    (h : (byteMux cfg).Reach b) (hc : b.Connected) (m : Mode) :
    (∀ id x y, (b m).conn.ends id = some x → (b m.peer).conn.ends id = some y →
      y.got <+: x.written) ∧
    (∀ script, (∃ hd body, (pollNextFrame false script (b m).reader (b m.peer).sent).1 =
        .frame hd body) ∨
      (pollNextFrame false script (b m).reader (b m.peer).sent).1 = .pending ∨
      (pollNextFrame false script (b m).reader (b m.peer).sent).1 = .io) ∧
    (∀ id, (b m.peer).pong = some id → (b m).rtt.state = .awaitingPong id) ∧
    ∃ frames, Reading (b m).reader (b m.peer).sent (b m.peer).writer.pending frames ∧
      ∀ f ∈ frames, f.header.tag = .ping → contains f.header.flags 2 = true →
        (b m).rtt.state = .awaitingPong f.header.length := by
  obtain ⟨w, t, hreach, hcarries⟩ := carries_of_reach hcfg h hc
  have hconnected := hcarries.connected hc
  refine ⟨fun id x y hx hy => ?_, fun script => ?_, fun id hid => ?_, ?_⟩
  · have hends : ∀ k, (w k).ends id = (b k).conn.ends id := fun k => by
      rw [(hcarries k).conn]
      rfl
    have hsound := (reach_agree hreach hconnected).sound m id
    exact (hsound.seen x y ((hends m).trans hx) ((hends m.peer).trans hy)).1
  · have hpoll := reading_poll false script
      (hcarries.readable (sized_of_reach hcfg hreach hconnected) m.peer) (hcarries.back m).reading
    rcases hpoll with ⟨f, l, -, hout, -⟩ | ⟨hquiet, -⟩
    · exact Or.inl ⟨_, _, hout⟩
    · exact Or.inr (quiet_live hquiet)
  · exact (hcarries m).awaited hid
  · exact ⟨_, (hcarries.back m).reading, fun f hf htag hack => (hcarries m).expected hf htag hack⟩

/-- The whole frame, and a ping after it. -/
def restAndPing : List ByteLabel :=
  [.act .client (.drive [.took 10]), .poll .server [.gave 8, .gave 2],
    .act .client (.start true), .act .client (.drive [.took 12]), .poll .server [.gave 11]]

theorem bytes_sound_ping :
    ∃ b : ByteWorld, (byteMux fun _ => tunnelConfig).Reach b ∧ (b .server).pong = some 0 ∧
      (b .client).rtt.state = .awaitingPong 0 ∧
        ∃ x y, (b .client).conn.ends 1 = some x ∧ (b .server).conn.ends 1 = some y ∧
          y.got = [7, 8, 9] ∧ y.got <+: x.written := by
  have hrun : (Lts.runWith ByteWorld.step (fun _ _ => true) (fun m => .new m tunnelConfig)
      (halfWay ++ restAndPing)).any (fun b =>
        !(b .client).conn.closed && !(b .server).conn.closed && (b .server).pong == some 0 &&
          ((b .client).conn.ends 1).isSome &&
            ((b .server).conn.ends 1).any fun y => y.got == [7, 8, 9]) = true := by
    decide +kernel
  obtain ⟨b, hreach, hb⟩ := Lts.Reach.exists_run (T := byteMux fun _ => tunnelConfig)
    (fun _ _ _ hs => hs) rfl hrun
  simp only [Bool.and_eq_true, Bool.not_eq_true', Option.any_eq_true, beq_iff_eq,
    Option.isSome_iff_exists] at hb
  obtain ⟨⟨⟨⟨hcc, hcs⟩, hpong⟩, x, hx⟩, y, hy, hgot⟩ := hb
  have hc : b.Connected := fun m => by
    cases m
    · exact hcc
    · exact hcs
  obtain ⟨hseen, -, hawaited, -⟩ := bytes_sound (fun _ => by decide) hreach hc .client
  exact ⟨b, hreach, hpong, hawaited 0 hpong, x, y, hx, hy, hgot, hseen 1 x y hx hy⟩

end Molehill.Mux
