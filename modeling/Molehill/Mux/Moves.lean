/-
# What one end of a connection can do to a stream

Everything the other end can ever learn about a stream goes through its `View`: the stream end,
whether the table lists it, the frames of the stream that are on their way (`front` is past the
queues, `rest` still in them or in the channel), the order in which they were issued and left, and
whether the stream was reset.  `Move` lists what one operation can do to a view, and `act_move`
says that it does nothing else: the invariants of the later modules are proved by its cases.

The one move that does not keep a stream's frames in order is `overtook`, when the frame a step
takes out of the channel goes to the control queue while frames of the stream (`late`) wait in
the payload queue.
-/
import Mathlib.Tactic.Common
import Molehill.Mux.Connection

namespace Molehill.Mux

open Function Lib

/-! ## 1. Views -/

/-- Whether a frame belongs to the stream. -/
def ofStream (id : StreamId) (f : Frame) : Bool := f.streamId == id

@[simp] theorem ofStream_iff {id : StreamId} {f : Frame} :
    ofStream id f = true ↔ f.streamId = id := beq_iff_eq

@[simp] theorem ofStream_eq_false {id : StreamId} {f : Frame} :
    ofStream id f = false ↔ f.streamId ≠ id := beq_eq_false_iff_ne

namespace Active

/-- The frames in front of the socket, in the order they will leave as things stand. -/
def backlog (c : Active) : List Frame :=
  c.pendingReadFrame.toList ++ (c.controlFrames ++ c.pendingFrames)

/-- The frames still in a stream's channel. -/
def queuedOf (c : Active) (id : StreamId) : List Frame :=
  match c.ends id with
  | some s => s.queued id
  | none => []

end Active

/-- One end's part of a stream. -/
structure View where
  stream : Option Stream
  listed : Bool
  front : List Frame
  rest : List Frame
  issued : List Frame
  left : List Frame
  reset : Bool

/-- The frames on their way to the peer, in the order they will arrive as things stand. -/
def View.line (v : View) : List Frame := v.front ++ v.rest

/-- A connection's part of stream `id`. -/
def Active.view (c : Active) (id : StreamId) : View where
  stream := c.ends id
  listed := decide (id ∈ c.streams)
  front := (c.wire ++ c.socket.toList).filter (ofStream id)
  rest := c.backlog.filter (ofStream id) ++ c.queuedOf id
  issued := c.issued.filter (ofStream id)
  left := c.left.filter (ofStream id)
  reset := decide (id ∈ c.resets)

/-- The frames of the stream that wait in the payload queue. -/
def Active.late (c : Active) (id : StreamId) : List Frame :=
  c.pendingFrames.filter (ofStream id)

/-! ## 2. What a handle's operations do -/

namespace Stream

variable {cfg : Config} {id : StreamId} {s s' : Stream} {f : Frame}

/-- A flag goes onto one frame. -/
theorem addFlag_eq (s : Stream) (f : Frame) :
    s.addFlag f = ({ s with flag := .none },
      { f with syn := f.syn || s.flag == .syn, ack := f.ack || s.flag == .ack }) := by
  have hn : (Flag.none == Flag.syn) = false ∧ (Flag.none == Flag.ack) = false := ⟨rfl, rfl⟩
  have hs : (Flag.syn == Flag.ack) = false ∧ (Flag.ack == Flag.syn) = false := ⟨rfl, rfl⟩
  rcases s with ⟨flag⟩
  cases flag <;> simp [addFlag, hn, hs]

/-- A write that takes bytes. -/
theorem pollWrite_spec {buf : List UInt8} (h : s.pollWrite cfg id buf = some (s', f)) :
    s.state.canWrite = true ∧ ∃ body : List UInt8, body.length ≤ s.sendWindow ∧
      f = ⟨.data, id, s.flag == .syn, s.flag == .ack, false, false, 0, body⟩ ∧
      s' = { s with
        flag := .none
        state := if s.flag = .ack then s.state.update (.opened true) else s.state
        sendWindow := s.sendWindow - body.length
        written := s.written ++ body
        channel := s.channel ++ [.sendFrame f] } := by
  rw [pollWrite] at h
  split at h
  · cases h
  split at h
  · cases h
  next hcw =>
  split at h
  · cases h
  simp only [addFlag_eq, Option.some.injEq, Prod.mk.injEq] at h
  obtain ⟨rfl, rfl⟩ := h
  refine ⟨by simpa using hcw, buf.take (min (min s.sendWindow buf.length) cfg.splitSendSize),
    ?_, ?_, ?_⟩
  · rw [List.length_take]
    omega
  · simp [Frame.data]
  · by_cases hfl : s.flag = .ack <;> simp [send, Frame.data, hfl]

/-- A shutdown that queues its close. -/
theorem pollShutdown_spec (h : s.pollShutdown id = some (s', f)) :
    s.state ≠ .closed ∧ f = .closeStream id (s.flag == .ack) ∧
      s' = { s with
        flag := if s.flag = .ack then .none else s.flag
        state := s.state.update .sendClosed
        channel := s.channel ++ [.closeStream (s.flag == .ack)]
        shut := true } := by
  rw [pollShutdown] at h
  split at h
  · cases h
  next hc =>
  split at h
  · cases h
  cases h
  refine ⟨hc, rfl, ?_⟩
  by_cases hfl : s.flag = .ack <;> simp [send, hfl]

/-- A window update is granted when at least half the window has been read; the grown window is
no smaller, and no larger than a `u32`. -/
theorem nextWindowUpdate_spec {acc acc' credit : Nat} {fast : Bool}
    (h : s.nextWindowUpdate cfg acc fast = some (credit, s', acc')) :
    s.maxReceiveWindow / 2 ≤ s.maxReceiveWindow - s.receiveWindow - s.buffer.length ∧
      ∃ newMax, (s.maxReceiveWindow ≤ u32Max → s.maxReceiveWindow ≤ newMax ∧ newMax ≤ u32Max) ∧
        credit = newMax - s.receiveWindow - s.buffer.length ∧
        s' = { s with
          maxReceiveWindow := newMax
          receiveWindow := s.receiveWindow + credit } := by
  rw [nextWindowUpdate] at h
  split at h
  · cases h
  next hhalf =>
  cases h
  refine ⟨by omega, _, ?_, rfl, rfl⟩
  intro hmax
  cases fast with
  | false => exact ⟨Nat.le_refl _, hmax⟩
  | true =>
    simp only [if_true, grownWindow]
    omega

/-- A window update that is queued. -/
theorem sendWindowUpdate_spec {acc acc' : Nat} {fast : Bool}
    (h : s.sendWindowUpdate cfg acc fast id = (s', some (f, acc'))) :
    s.state.canRead = true ∧
      s.maxReceiveWindow / 2 ≤ s.maxReceiveWindow - s.receiveWindow - s.buffer.length ∧
      ∃ credit newMax,
        (s.maxReceiveWindow ≤ u32Max → s.maxReceiveWindow ≤ newMax ∧ newMax ≤ u32Max) ∧
        credit = newMax - s.receiveWindow - s.buffer.length ∧
        f = ⟨.windowUpdate, id, s.flag == .syn, s.flag == .ack, false, false, credit, []⟩ ∧
        s' = { s with
          flag := .none
          maxReceiveWindow := newMax
          receiveWindow := s.receiveWindow + credit
          channel := s.channel ++ [.sendFrame f] } := by
  rw [sendWindowUpdate] at h
  split at h
  · cases h
  next hcr =>
  split at h
  · cases h
  split at h
  · cases h
  next credit s1 acc1 hn =>
  obtain ⟨hhalf, newMax, hmax, hcredit, rfl⟩ := nextWindowUpdate_spec hn
  simp only [addFlag_eq, Prod.mk.injEq, Option.some.injEq] at h
  obtain ⟨rfl, rfl, rfl⟩ := h
  refine ⟨by simpa using hcr, hhalf, credit, newMax, hmax, hcredit, ?_, ?_⟩
  · simp [Frame.windowUpdate]
  · simp [send, Frame.windowUpdate]

/-- A window update that is not queued changes nothing. -/
theorem sendWindowUpdate_none {acc : Nat} {fast : Bool}
    (h : s.sendWindowUpdate cfg acc fast id = (s', none)) : s' = s := by
  rw [sendWindowUpdate] at h
  split at h
  · cases h
    rfl
  split at h
  · cases h
    rfl
  split at h
  · cases h
    rfl
  · cases h

end Stream

/-! ## 3. Moves -/

/-- The operations of a handle that issue a frame. -/
inductive Spoke (cfg : Config) (id : StreamId) (s : Stream) : Stream → Frame → Prop
  | wrote {buf s' f} : s.pollWrite cfg id buf = some (s', f) → Spoke cfg id s s' f
  | shut {s' f} : s.pollShutdown id = some (s', f) → Spoke cfg id s s' f
  | granted {cap accumulated fast s' f accumulated'} :
      (s.copyOut cap).sendWindowUpdate cfg accumulated fast id = (s', some (f, accumulated')) →
      Spoke cfg id s s' f

/-- **What an operation can do to a view.**  `mine` is whether this
end opens streams of this id; `behind` says which frames of the stream may wait in the payload
queue when a frame of the stream goes to the control queue. -/
inductive Move (cfg : Config) (id : StreamId) (mine : Bool) (behind : List Frame → Prop) :
    View → View → Prop
  | same (v : View) : Move cfg id mine behind v v
  | opened {v : View} : v.stream = none → mine = true →
      Move cfg id mine behind v { v with stream := some .newOutbound, listed := true }
  | spoke {v : View} {s s' : Stream} {f : Frame} : v.stream = some s → s.held = true →
      Spoke cfg id s s' f →
      Move cfg id mine behind v
        { v with stream := some s', rest := v.rest ++ [f], issued := v.issued ++ [f] }
  | heard {v : View} {s : Stream} (cap : Nat) : v.stream = some s → s.held = true →
      Move cfg id mine behind v { v with stream := some (s.copyOut cap) }
  | looked {v : View} {s : Stream} : v.stream = some s → s.held = true → s.looking = true →
      Move cfg id mine behind v { v with stream := some s.look }
  | released {v : View} {s : Stream} : v.stream = some s →
      Move cfg id mine behind v { v with stream := some { s with held := false } }
  | queued {v : View} {s : Stream} : v.stream = some s →
      Move cfg id mine behind v { v with stream := some s.popped }
  | overtook {v : View} {s : Stream} {a p r : List Frame} {f : Frame} : v.stream = some s →
      v.rest = a ++ (p ++ f :: r) → behind p → f ∈ s.queued id →
      (f.isBookkeeping = true) →
      Move cfg id mine behind v
        { v with
          stream := some s.popped
          rest := a ++ (f :: (p ++ r)) }
  | removed {v : View} {s : Stream} {a p : List Frame} : v.stream = some s → s.held = false →
      s.channel = [] → v.listed = true → v.rest = a ++ p → behind p →
      Move cfg id mine behind v
        { v with
          stream := some { s with state := s.state.update .closed }
          listed := false
          rest := a ++ ((Active.dropFrame id s.state).toList ++ p)
          issued := v.issued ++ (Active.dropFrame id s.state).toList
          reset := v.reset || (Active.dropFrame id s.state == some (.reset id)) }
  | started {v : View} {f : Frame} {r : List Frame} : v.rest = f :: r →
      Move cfg id mine behind v { v with front := v.front ++ [f], left := v.left ++ [f], rest := r }

/-! ## 4. What a connection keeps by itself -/

/-- Every frame in a stream's channel is of the stream, a listed stream has an end, and an end
that is not listed any more is done. -/
structure View.Ok (id : StreamId) (v : View) : Prop where
  labelled : ∀ s, v.stream = some s → ∀ f ∈ s.queued id, f.streamId = id
  known : v.listed = true → v.stream.isSome = true
  unlisted : ∀ s, v.stream = some s → v.listed = false → s.held = false ∧ s.channel = []

/-- What a connection keeps by itself: its views, its own ids used up in order, and a receiver
for every listed stream. -/
structure Active.Ok (c : Active) : Prop where
  views : ∀ id, (c.view id).Ok id
  parity : c.mode.opens c.nextId = true
  fresh : ∀ id, c.mode.opens id = true → (c.ends id).isSome = true → id < c.nextId
  polled : ∀ id ∈ c.streams, id ∈ c.receivers

namespace Active

variable {c c' : Active} {id k : StreamId} {behind : List Frame → Prop}

theorem Ok.new (m : Mode) (cfg : Config) : (Active.new m cfg).Ok where
  views _ := ⟨(by intro _ h; cases h), (by intro h; cases h), (by intro _ h; cases h)⟩
  parity := by cases m <;> simp [Active.new, Mode.opens]
  fresh _ _ h := by cases h
  polled _ h := by cases h

/-- The next own id has no end yet. -/
theorem Ok.fresh_nextId (h : c.Ok) : c.ends c.nextId = none := by
  cases hn : c.ends c.nextId with
  | none => rfl
  | some s =>
    have hlt := h.fresh c.nextId h.parity (by rw [hn]; rfl)
    exact absurd hlt (Nat.lt_irrefl _)

/-! ### Views of changed connections -/

@[simp] theorem setEnd_ends (s : Stream) : (c.setEnd id s).ends = update c.ends id (some s) := rfl

@[simp] theorem setEnd_streams (s : Stream) : (c.setEnd id s).streams = c.streams := rfl

@[simp] theorem setEnd_receivers (s : Stream) : (c.setEnd id s).receivers = c.receivers := rfl

@[simp] theorem setEnd_backlog (s : Stream) : (c.setEnd id s).backlog = c.backlog := rfl

theorem queuedOf_setEnd_self (s : Stream) : (c.setEnd id s).queuedOf id = s.queued id := by
  rw [queuedOf, setEnd_ends, update_self]

theorem queuedOf_of_some {s : Stream} (h : c.ends id = some s) : c.queuedOf id = s.queued id := by
  rw [queuedOf, h]

theorem queuedOf_congr (h : c'.ends id = c.ends id) : c'.queuedOf id = c.queuedOf id := by
  rw [queuedOf, queuedOf, h]

/-- A change of another stream's end does not show. -/
theorem setEnd_view_ne (s : Stream) (h : id ≠ k) : (c.setEnd k s).view id = c.view id := by
  have he : (c.setEnd k s).ends id = c.ends id := update_of_ne h _ _
  have hq := queuedOf_congr he
  rw [view, view, he, hq]
  rfl

/-- A change of this stream's end shows in the end and its channel only. -/
theorem setEnd_view_self (s : Stream) :
    (c.setEnd id s).view id =
      { c.view id with
        stream := some s
        rest := c.backlog.filter (ofStream id) ++ s.queued id } := by
  rw [view, queuedOf_setEnd_self]
  simp only [setEnd_ends, update_self, setEnd_backlog, setEnd_streams]
  rfl

/-! ### The users' operations -/

end Active

/-- A handle's operation that issues a frame appends it to the channel. -/
theorem Spoke.queued {cfg : Config} {id : StreamId} {s s' : Stream} {f : Frame}
    (h : Spoke cfg id s s' f) : s'.queued id = s.queued id ++ [f] ∧ f.streamId = id := by
  cases h with
  | wrote h =>
    obtain ⟨-, body, -, hf, hs⟩ := Stream.pollWrite_spec h
    rw [hs, hf]
    simp [Stream.queued, StreamCommand.frame]
  | shut h =>
    obtain ⟨-, hf, hs⟩ := Stream.pollShutdown_spec h
    rw [hs, hf]
    simp [Stream.queued, StreamCommand.frame, Frame.closeStream]
  | granted h =>
    obtain ⟨-, -, credit, newMax, -, -, hf, hs⟩ := Stream.sendWindowUpdate_spec h
    rw [hs, hf]
    simp [Stream.queued, StreamCommand.frame, Stream.copyOut]

/-- A handle's operation keeps the handle. -/
theorem Spoke.held {cfg : Config} {id : StreamId} {s s' : Stream} {f : Frame}
    (h : Spoke cfg id s s' f) : s'.held = s.held := by
  cases h with
  | wrote h =>
    obtain ⟨-, body, -, -, hs⟩ := Stream.pollWrite_spec h
    rw [hs]
  | shut h =>
    obtain ⟨-, -, hs⟩ := Stream.pollShutdown_spec h
    rw [hs]
  | granted h =>
    obtain ⟨-, -, credit, newMax, -, -, -, hs⟩ := Stream.sendWindowUpdate_spec h
    rw [hs]
    rfl

namespace Active

variable {c c' : Active} {id k : StreamId} {behind : List Frame → Prop}

/-- Two connections that agree on everything a view shows. -/
theorem view_congr (he : c'.ends id = c.ends id) (hs : id ∈ c'.streams ↔ id ∈ c.streams)
    (hf : c'.wire ++ c'.socket.toList = c.wire ++ c.socket.toList)
    (hb : c'.backlog.filter (ofStream id) = c.backlog.filter (ofStream id))
    (hi : c'.issued.filter (ofStream id) = c.issued.filter (ofStream id))
    (hl : c'.left = c.left) (hr : id ∈ c'.resets ↔ id ∈ c.resets) : c'.view id = c.view id := by
  have hq := queuedOf_congr he
  simp only [view, he, hf, hb, hi, hl, hq, decide_eq_decide.mpr hs, decide_eq_decide.mpr hr]

/-- A write of a held handle, and the frame it issues. -/
theorem write_cases {buf : List UInt8} (h : c.write k buf = some c') :
    ∃ s s' f, c.ends k = some s ∧ s.held = true ∧ s.pollWrite c.config k buf = some (s', f) ∧
      c' = { c.setEnd k s' with issued := c.issued ++ [f] } := by
  obtain ⟨s, hs, h⟩ := Option.bind_eq_some_iff.mp h
  split at h
  case isFalse => cases h
  case isTrue hh =>
    obtain ⟨⟨s', f⟩, hw, h⟩ := Option.bind_eq_some_iff.mp h
    cases h
    exact ⟨s, s', f, hs, hh, hw, rfl⟩

theorem shutdown_cases (h : c.shutdown k = some c') :
    ∃ s s' f, c.ends k = some s ∧ s.held = true ∧ s.pollShutdown k = some (s', f) ∧
      c' = { c.setEnd k s' with issued := c.issued ++ [f] } := by
  obtain ⟨s, hs, h⟩ := Option.bind_eq_some_iff.mp h
  split at h
  case isFalse => cases h
  case isTrue hh =>
    obtain ⟨⟨s', f⟩, hw, h⟩ := Option.bind_eq_some_iff.mp h
    cases h
    exact ⟨s, s', f, hs, hh, hw, rfl⟩

/-- A read of a held handle, with the window update it issues, if it does. -/
theorem read_cases {cap : Nat} {fast : Bool} (h : c.read k cap fast = some c') :
    ∃ s, c.ends k = some s ∧ s.held = true ∧
      ((∃ s', (s.copyOut cap).sendWindowUpdate c.config c.accumulated fast k = (s', none) ∧
          c' = c.setEnd k s') ∨
        ∃ s' f acc,
          (s.copyOut cap).sendWindowUpdate c.config c.accumulated fast k = (s', some (f, acc)) ∧
          c' = { c.setEnd k s' with accumulated := acc, issued := c.issued ++ [f] }) := by
  obtain ⟨s, hs, h⟩ := Option.bind_eq_some_iff.mp h
  split at h
  case isFalse => cases h
  case isTrue hh =>
    refine ⟨s, hs, (Bool.and_eq_true_iff.mp hh).1, ?_⟩
    split at h
    case h_1 s' hw =>
      cases h
      exact .inl ⟨s', hw, rfl⟩
    case h_2 s' f acc hw =>
      cases h
      exact .inr ⟨s', f, acc, hw, rfl⟩

theorem endRead_cases (h : c.endRead k = some c') :
    ∃ s, c.ends k = some s ∧ s.held = true ∧ s.looking = true ∧ c' = c.setEnd k s.look := by
  obtain ⟨s, hs, h⟩ := Option.bind_eq_some_iff.mp h
  split at h
  case isFalse => cases h
  case isTrue hh =>
    cases h
    obtain ⟨hheld, hlook⟩ := Bool.and_eq_true_iff.mp hh
    exact ⟨s, hs, hheld, hlook, rfl⟩

theorem dropHandle_cases (h : c.dropHandle k = some c') :
    ∃ s, c.ends k = some s ∧ s.held = true ∧ c' = c.setEnd k { s with held := false } := by
  obtain ⟨s, hs, h⟩ := Option.bind_eq_some_iff.mp h
  split at h
  case isFalse => cases h
  case isTrue hh =>
    cases h
    exact ⟨s, hs, hh, rfl⟩

/-- A handle's operation that issues a frame, as a move. -/
theorem spoke_move {s s' : Stream} {f : Frame} (accumulated : Nat) (hs : c.ends k = some s)
    (hh : s.held = true) (h : Spoke c.config k s s' f) (id : StreamId) :
    Move c.config id (c.mode.opens id) behind (c.view id)
      ({ c.setEnd k s' with
          accumulated := accumulated
          issued := c.issued ++ [f] }.view id) := by
  obtain ⟨hq, hf⟩ := h.queued
  by_cases hid : id = k
  case neg =>
    have hne : ofStream id f = false := by
      rw [ofStream_eq_false, hf]
      exact fun h => hid h.symm
    have heq : ({ c.setEnd k s' with
        accumulated := accumulated, issued := c.issued ++ [f] }.view id) = c.view id := by
      refine view_congr (update_of_ne hid _ _) Iff.rfl rfl rfl ?_ rfl Iff.rfl
      rw [List.filter_append, List.filter_cons_of_neg (by simp [hne]), List.filter_nil,
        List.append_nil]
    rw [heq]
    exact Move.same _
  case pos =>
    subst hid
    have heq : ({ c.setEnd id s' with
        accumulated := accumulated, issued := c.issued ++ [f] }.view id) =
        { c.view id with
          stream := some s'
          rest := (c.view id).rest ++ [f]
          issued := (c.view id).issued ++ [f] } := by
      have h1 : c.queuedOf id = s.queued id := queuedOf_of_some hs
      have h2 : ({ c.setEnd id s' with
          accumulated := accumulated, issued := c.issued ++ [f] } : Active).queuedOf id =
          s'.queued id := queuedOf_of_some (update_self ..)
      simp only [view, h1, h2, hq, List.filter_append, ← List.append_assoc]
      simp [setEnd, backlog, hf]
      exact ⟨rfl, rfl⟩
    rw [heq]
    exact Move.spoke hs hh h

theorem write_move {buf : List UInt8} (h : c.write k buf = some c') (id : StreamId) :
    Move c.config id (c.mode.opens id) behind (c.view id) (c'.view id) := by
  obtain ⟨s, s', f, hs, hh, hw, rfl⟩ := write_cases h
  exact spoke_move c.accumulated hs hh (.wrote hw) id

theorem shutdown_move (h : c.shutdown k = some c') (id : StreamId) :
    Move c.config id (c.mode.opens id) behind (c.view id) (c'.view id) := by
  obtain ⟨s, s', f, hs, hh, hw, rfl⟩ := shutdown_cases h
  exact spoke_move c.accumulated hs hh (.shut hw) id

/-- A change of one end that leaves its channel alone. -/
theorem setEnd_move {s s' : Stream} (hs : c.ends k = some s) (hq : s'.channel = s.channel)
    (hm : ∀ v : View, v.stream = some s →
      Move c.config k (c.mode.opens k) behind v { v with stream := some s' }) (id : StreamId) :
    Move c.config id (c.mode.opens id) behind (c.view id) ((c.setEnd k s').view id) := by
  by_cases hid : id = k
  case neg =>
    rw [setEnd_view_ne s' hid]
    exact Move.same _
  case pos =>
    subst hid
    have hrest : c.backlog.filter (ofStream id) ++ s'.queued id = (c.view id).rest := by
      rw [view, queuedOf_of_some hs, Stream.queued, Stream.queued, hq]
    rw [setEnd_view_self, hrest]
    exact hm (c.view id) hs

theorem read_move {cap : Nat} {fast : Bool} (h : c.read k cap fast = some c') (id : StreamId) :
    Move c.config id (c.mode.opens id) behind (c.view id) (c'.view id) := by
  obtain ⟨s, hs, hh, ⟨s', hw, rfl⟩ | ⟨s', f, acc, hw, rfl⟩⟩ := read_cases h
  · rw [Stream.sendWindowUpdate_none hw]
    exact setEnd_move hs (by rfl) (fun v hv => Move.heard cap hv hh) id
  · exact spoke_move acc hs hh (.granted hw) id

theorem endRead_move (h : c.endRead k = some c') (id : StreamId) :
    Move c.config id (c.mode.opens id) behind (c.view id) (c'.view id) := by
  obtain ⟨s, hs, hh, hl, rfl⟩ := endRead_cases h
  exact setEnd_move hs (by rfl) (fun v hv => Move.looked hv hh hl) id

theorem dropHandle_move (h : c.dropHandle k = some c') (id : StreamId) :
    Move c.config id (c.mode.opens id) behind (c.view id) (c'.view id) := by
  obtain ⟨s, hs, -, rfl⟩ := dropHandle_cases h
  exact setEnd_move hs (by rfl) (fun v hv => Move.released hv) id

/-- A stream is opened under the next id, or the connection is over. -/
theorem pollNewOutbound_cases (h : c.pollNewOutbound = some c') :
    c' = c.cleanup ∨ c.streams.length < c.config.maxNumStreams ∧
      c' = { c.addStream c.nextId .newOutbound with nextId := c.nextId + 2 } := by
  rw [pollNewOutbound] at h
  split at h
  · cases h
    exact Or.inl rfl
  next hlen =>
  split at h
  · cases h
  split at h
  · cases h
    exact Or.inl rfl
  · cases h
    exact Or.inr ⟨by omega, rfl⟩

/-- A stream that joins the table does not show in the views of the others. -/
theorem addStream_view_ne (s : Stream) (h : id ≠ k) : (c.addStream k s).view id = c.view id := by
  refine view_congr (update_of_ne h _ _) ?_ rfl rfl rfl rfl Iff.rfl
  rw [addStream, List.mem_cons]
  exact or_iff_right h

theorem addStream_view_self {s : Stream} (hn : c.ends id = none) (hq : s.channel = []) :
    (c.addStream id s).view id = { c.view id with stream := some s, listed := true } := by
  have h1 : c.queuedOf id = [] := by rw [queuedOf, hn]
  have h2 : (c.addStream id s).queuedOf id = [] := by
    rw [queuedOf_of_some (update_self ..), Stream.queued, hq, List.map_nil]
  simp only [view, h1, h2]
  simp [addStream, setEnd, backlog]
  rfl

theorem newOutbound_move (hok : c.Ok) (h : c.pollNewOutbound = some c') (hc : c'.closed = false)
    (id : StreamId) : Move c.config id (c.mode.opens id) behind (c.view id) (c'.view id) := by
  rcases pollNewOutbound_cases h with rfl | ⟨-, rfl⟩
  · cases hc
  · have heq : ({ c.addStream c.nextId .newOutbound with nextId := c.nextId + 2 }.view id) =
        (c.addStream c.nextId .newOutbound).view id := rfl
    rw [heq]
    by_cases hid : id = c.nextId
    · subst hid
      rw [addStream_view_self hok.fresh_nextId rfl]
      exact Move.opened hok.fresh_nextId hok.parity
    · rw [addStream_view_ne _ hid]
      exact Move.same _

/-! ### The queues -/

/-- A ready receiver has a command, or its handle is gone. -/
theorem pollNext_cases {answer : Option StreamCommand} (h : c.pollNext k = some answer) :
    ∃ s, c.ends k = some s ∧
      ((∃ cmd tail, s.channel = cmd :: tail ∧ answer = some cmd) ∨
        (s.channel = [] ∧ s.held = false ∧ answer = none)) := by
  obtain ⟨s, hs, h⟩ := Option.bind_eq_some_iff.mp h
  refine ⟨s, hs, ?_⟩
  split at h
  case h_1 cmd tail hc =>
    cases h
    exact Or.inl ⟨cmd, tail, hc, rfl⟩
  case h_2 hc =>
    split at h
    · cases h
    next hh =>
    cases h
    exact Or.inr ⟨hc, by simpa using hh, rfl⟩

/-- A step of the queues takes what the receiver the scan found has. -/
theorem queueReceiverFrames_cases (h : c.queueReceiverFrames = some c') :
    ∃ i k answer, c.scan = some i ∧ c.receivers[i]? = some k ∧ c.pollNext k = some answer ∧
      c' = (c.takeCommand i k answer).wrapCursor ((i + 1) % c.receivers.length) := by
  rw [queueReceiverFrames] at h
  split at h
  case isFalse => cases h
  case isTrue =>
    obtain ⟨i, hi, h⟩ := Option.bind_eq_some_iff.mp h
    obtain ⟨k, hk, h⟩ := Option.bind_eq_some_iff.mp h
    obtain ⟨answer, ha, h⟩ := Option.bind_eq_some_iff.mp h
    cases h
    exact ⟨i, k, answer, hi, hk, ha, rfl⟩

/-- Whether the next step of the queues takes something of stream `id` that goes to the control
queue. -/
def servesControl (c : Active) (id : StreamId) : Bool :=
  (c.scan.bind (c.receivers[·]?)) == some id &&
    match c.pollNext id with
    | some (some (.sendFrame f)) => f.isBookkeeping
    | some _ => true
    | none => false

/-- A frame of another stream does not count. -/
theorem filter_snoc_ne {l : List Frame} {f : Frame} (h : f.streamId ≠ id) :
    (l ++ [f]).filter (ofStream id) = l.filter (ofStream id) := by
  rw [List.filter_append, List.filter_cons_of_neg (by simpa using h), List.filter_nil,
    List.append_nil]

theorem filter_snoc_self {l : List Frame} {f : Frame} (h : f.streamId = id) :
    (l ++ [f]).filter (ofStream id) = l.filter (ofStream id) ++ [f] := by
  rw [List.filter_append, List.filter_cons_of_pos (by simpa using h), List.filter_nil]

/-- A connection of which only the end, the channel and the queues changed. -/
theorem view_requeued {s' : Stream} (he : c'.ends id = some s') (hs : c'.streams = c.streams)
    (hw : c'.wire = c.wire) (hso : c'.socket = c.socket) (hi : c'.issued = c.issued)
    (hl : c'.left = c.left) (hr : c'.resets = c.resets) :
    c'.view id = { c.view id with
      stream := some s'
      rest := c'.backlog.filter (ofStream id) ++ s'.queued id } := by
  simp only [view, queuedOf_of_some he, he, hs, hw, hso, hi, hl, hr]

/-- A frame goes from its channel to one of the two queues. -/
theorem taken_move (id : StreamId) {s : Stream} {cmd : StreamCommand}
    {tail : List StreamCommand}
    (hs : c.ends k = some s) (hc : s.channel = cmd :: tail)
    (hf : (cmd.frame k).streamId = k)
    (he : c'.ends = update c.ends k (some s.popped))
    (hst : c'.streams = c.streams) (hw : c'.wire = c.wire) (hso : c'.socket = c.socket)
    (hi : c'.issued = c.issued) (hl : c'.left = c.left) (hr : c'.resets = c.resets)
    (hpr : c'.pendingReadFrame = c.pendingReadFrame)
    (hq : (c'.controlFrames = c.controlFrames ∧
        c'.pendingFrames = c.pendingFrames ++ [cmd.frame k]) ∨
      ((cmd.frame k).isBookkeeping = true ∧ (id = k → behind (c.late k)) ∧
        c'.controlFrames = c.controlFrames ++ [cmd.frame k] ∧
        c'.pendingFrames = c.pendingFrames)) :
    Move c.config id (c.mode.opens id) behind (c.view id) (c'.view id) := by
  by_cases hid : id = k
  case neg =>
    have hne : (cmd.frame k).streamId ≠ id := fun h => hid (h.symm.trans hf)
    have hb : c'.backlog.filter (ofStream id) = c.backlog.filter (ofStream id) := by
      rcases hq with ⟨h1, h2⟩ | ⟨-, -, h1, h2⟩
      · simp only [backlog, hpr, h1, h2, List.filter_append, filter_snoc_ne hne]
      · simp only [backlog, hpr, h1, h2, List.filter_append, filter_snoc_ne hne]
    have heq : c'.view id = c.view id := by
      refine view_congr (by rw [he, update_of_ne hid]) (by rw [hst]) (by rw [hw, hso]) hb
        (by rw [hi]) hl (by rw [hr])
    rw [heq]
    exact Move.same _
  case pos =>
    subst hid
    have he' : c'.ends id = some s.popped := by rw [he, update_self]
    have hqu : s.queued id = cmd.frame id :: s.popped.queued id := by
      simp [Stream.queued, Stream.popped, hc]
    rw [view_requeued he' hst hw hso hi hl hr]
    rcases hq with ⟨h1, h2⟩ | ⟨hbook, hlate, h1, h2⟩
    · have hrest : c'.backlog.filter (ofStream id) ++
          s.popped.queued id = (c.view id).rest := by
        simp only [view, queuedOf_of_some hs, hqu, backlog, hpr, h1, h2, List.filter_append,
          filter_snoc_self hf, List.append_assoc, List.singleton_append]
      rw [hrest]
      exact Move.queued hs
    · have hrest : c'.backlog.filter (ofStream id) ++
          s.popped.queued id =
          (c.pendingReadFrame.toList ++ c.controlFrames).filter (ofStream id) ++
            (cmd.frame id :: (c.late id ++
              s.popped.queued id)) := by
        simp only [late, backlog, hpr, h1, h2, List.filter_append,
          List.filter_cons_of_pos (ofStream_iff.mpr hf), List.append_assoc, List.nil_append,
          List.cons_append]
      rw [hrest]
      refine Move.overtook hs ?_ (hlate rfl) ?_ hbook
      · simp only [view, queuedOf_of_some hs, hqu, backlog, late, List.filter_append,
          List.append_assoc]
      · rw [hqu]
        exact List.mem_cons_self

/-- What a dropped stream tells the peer is about itself. -/
theorem dropFrame_streamId {st : State} {f : Frame} (h : dropFrame k st = some f) :
    f.streamId = k := by
  cases st <;> cases h <;> rfl

/-- A dropped stream leaves the table, with the frame that tells the peer. -/
theorem removed_move (id : StreamId) {s : Stream} (hs : c.ends k = some s) (hc : s.channel = [])
    (hh : s.held = false) (hk : k ∈ c.streams) (hlate : id = k → behind (c.late k))
    (he : c'.ends = update c.ends k (some { s with state := s.state.update .closed }))
    (hst : c'.streams = c.streams.filter (· != k)) (hw : c'.wire = c.wire)
    (hso : c'.socket = c.socket) (hi : c'.issued = c.issued ++ (dropFrame k s.state).toList)
    (hl : c'.left = c.left)
    (hr : c'.resets =
      if dropFrame k s.state = some (.reset k) then k :: c.resets else c.resets)
    (hpr : c'.pendingReadFrame = c.pendingReadFrame)
    (hct : c'.controlFrames = c.controlFrames ++ (dropFrame k s.state).toList)
    (hpe : c'.pendingFrames = c.pendingFrames) :
    Move c.config id (c.mode.opens id) behind (c.view id) (c'.view id) := by
  by_cases hid : id = k
  case neg =>
    have hdrop : (dropFrame k s.state).toList.filter (ofStream id) = [] := by
      cases hd : dropFrame k s.state with
      | none => rfl
      | some f =>
        have hne : f.streamId ≠ id := fun h => hid (h.symm.trans (dropFrame_streamId hd))
        exact List.filter_cons_of_neg (by simpa using hne)
    have heq : c'.view id = c.view id := by
      refine view_congr (by rw [he, update_of_ne hid]) ?_ (by rw [hw, hso]) ?_ ?_ hl ?_
      · rw [hst]
        simp [List.mem_filter, hid]
      · simp only [backlog, hpr, hct, hpe, List.filter_append, hdrop, List.append_nil]
      · rw [hi, List.filter_append, hdrop, List.append_nil]
      · rw [hr]
        split
        · exact List.mem_cons.trans (or_iff_right hid)
        · exact Iff.rfl
    rw [heq]
    exact Move.same _
  case pos =>
    subst hid
    have hown : (dropFrame id s.state).toList.filter (ofStream id) =
        (dropFrame id s.state).toList := by
      cases hd : dropFrame id s.state with
      | none => rfl
      | some f => exact List.filter_cons_of_pos (by simpa using dropFrame_streamId hd)
    have hq : c.queuedOf id = [] := by
      rw [queuedOf_of_some hs, Stream.queued, hc, List.map_nil]
    have hq' : c'.queuedOf id = [] := by
      rw [queuedOf_of_some (by rw [he, update_self]), Stream.queued]
      exact (congrArg _ hc).trans List.map_nil
    have hrest : (c.view id).rest =
        (c.pendingReadFrame.toList ++ c.controlFrames).filter (ofStream id) ++ c.late id := by
      simp only [view, hq, backlog, late, List.filter_append, List.append_nil, List.append_assoc]
    have heq : c'.view id =
        { c.view id with
          stream := some { s with state := s.state.update .closed }
          listed := false
          rest := (c.pendingReadFrame.toList ++ c.controlFrames).filter (ofStream id) ++
            ((dropFrame id s.state).toList ++ c.late id)
          issued := (c.view id).issued ++ (dropFrame id s.state).toList
          reset := (c.view id).reset || (dropFrame id s.state == some (.reset id)) } := by
      have hlist : decide (id ∈ c'.streams) = false := by
        rw [hst]
        simp
      have hres : decide (id ∈ c'.resets) =
          (decide (id ∈ c.resets) || (dropFrame id s.state == some (.reset id))) := by
        rw [hr]
        split
        next hd => simp [hd]
        next hd => simp [hd]
      simp only [view, hlist, hres, hq', he, update_self, hw, hso, hi, hl, hpr, hct, hpe, backlog,
        late, hown, List.filter_append, List.append_nil, List.append_assoc]
    rw [heq]
    exact Move.removed hs hh hc (decide_eq_true hk) hrest (hlate rfl)

/-- **A step of the queues is a move**, and one that puts nothing ahead of frames of the stream
that wait, if there are none when something of the stream goes to the control queue. -/
theorem queue_move (hok : c.Ok) (h : c.queueReceiverFrames = some c') (id : StreamId)
    (hlate : c.servesControl id = true → behind (c.late id)) :
    Move c.config id (c.mode.opens id) behind (c.view id) (c'.view id) := by
  obtain ⟨i, k, answer, hi, hk, ha, rfl⟩ := queueReceiverFrames_cases h
  obtain ⟨s, hs, ⟨cmd, tail, hc, rfl⟩ | ⟨hc, hh, rfl⟩⟩ := pollNext_cases ha
  · have hmem : cmd.frame k ∈ s.queued k := by
      rw [Stream.queued, hc]
      exact List.mem_cons_self
    have hlab := (hok.views k).labelled s hs _ hmem
    have hpop : c.popCommand k = c.setEnd k s.popped := by rw [popCommand, hs]
    cases cmd with
    | sendFrame f =>
      rw [takeCommand]
      split
      case isTrue hb =>
        have hserve : c.servesControl k = true := by
          simp [servesControl, hi, hk, ha, hb]
        rw [hpop]
        exact taken_move id hs hc hlab (by rfl) (by rfl) (by rfl) (by rfl) (by rfl) (by rfl)
          (by rfl) (by rfl) (Or.inr ⟨hb, fun h => h ▸ hlate (h ▸ hserve), by rfl, by rfl⟩)
      case isFalse hb =>
        rw [hpop]
        exact taken_move id hs hc hlab (by rfl) (by rfl) (by rfl) (by rfl) (by rfl) (by rfl)
          (by rfl) (by rfl) (Or.inl ⟨by rfl, by rfl⟩)
    | closeStream ack =>
      have hserve : c.servesControl k = true := by
        simp [servesControl, hi, hk, ha]
      rw [takeCommand, hpop]
      exact taken_move id hs hc hlab (by rfl) (by rfl) (by rfl) (by rfl) (by rfl) (by rfl) (by rfl)
        (by rfl) (Or.inr ⟨by rfl, fun h => h ▸ hlate (h ▸ hserve), by rfl, by rfl⟩)
  · have hserve : c.servesControl k = true := by
      simp [servesControl, hi, hk, ha]
    rw [takeCommand, onDropStream, hs]
    dsimp only
    by_cases hks : k ∈ c.streams
    · rw [if_pos hks]
      exact removed_move id hs hc hh hks (fun h => h ▸ hlate (h ▸ hserve)) (by rfl) (by rfl)
        (by rfl) (by rfl) (by rfl) (by rfl) (by rfl) (by rfl) (by rfl) (by rfl)
    · rw [if_neg hks]
      exact Move.same _

/-- The next frame is the head of the backlog. -/
theorem nextQueuedFrame_cases {f : Frame} (h : c.nextQueuedFrame = some (f, c')) :
    c.backlog = f :: c'.backlog ∧ c'.ends = c.ends ∧ c'.streams = c.streams ∧
      c'.wire = c.wire ∧ c'.socket = c.socket ∧ c'.issued = c.issued ∧ c'.left = c.left ∧
      c'.resets = c.resets := by
  rw [nextQueuedFrame] at h
  split at h
  case h_1 hp =>
    cases h
    exact ⟨by simp [backlog, hp], rfl, rfl, rfl, rfl, rfl, rfl, rfl⟩
  case h_2 hp hc =>
    cases h
    exact ⟨by simp [backlog, hp, hc], rfl, rfl, rfl, rfl, rfl, rfl, rfl⟩
  case h_3 hp hc hq =>
    cases h
    exact ⟨by simp [backlog, hp, hc, hq], rfl, rfl, rfl, rfl, rfl, rfl, rfl⟩
  case h_4 => cases h

/-- The head of the backlog goes to an idle socket. -/
theorem started_move {f : Frame} (hb : c.backlog = f :: c'.backlog) (he : c'.ends = c.ends)
    (hst : c'.streams = c.streams) (hw : c'.wire = c.wire) (hso : c.socket = none)
    (hso' : c'.socket = some f) (hi : c'.issued = c.issued) (hl : c'.left = c.left ++ [f])
    (hr : c'.resets = c.resets) (id : StreamId) :
    Move c.config id (c.mode.opens id) behind (c.view id) (c'.view id) := by
  have hq : c'.queuedOf id = c.queuedOf id := queuedOf_congr (by rw [he])
  by_cases hid : f.streamId = id
  · have heq : c'.view id =
        { c.view id with
          front := (c.view id).front ++ [f]
          left := (c.view id).left ++ [f]
          rest := c'.backlog.filter (ofStream id) ++ c.queuedOf id } := by
      simp only [view, hq, he, hst, hw, hso, hso', hi, hl, hr, filter_snoc_self hid,
        Option.toList_some, Option.toList_none, List.append_nil]
    rw [heq]
    refine Move.started ?_
    simp only [view, hb, List.filter_cons_of_pos (ofStream_iff.mpr hid), List.cons_append]
  · have hneg : ¬ ofStream id f = true := by simpa using hid
    have heq : c'.view id = c.view id := by
      simp only [view, hq, he, hst, hw, hso, hso', hi, hl, hr, filter_snoc_ne hid, hb,
        List.filter_cons_of_neg hneg, Option.toList_some, Option.toList_none, List.append_nil]
    rw [heq]
    exact Move.same _

theorem startFrame_move (h : c.startFrame = some c') (id : StreamId) :
    Move c.config id (c.mode.opens id) behind (c.view id) (c'.view id) := by
  rw [startFrame] at h
  split at h
  case h_1 => cases h
  case h_2 hso =>
    obtain ⟨⟨f, c1⟩, hn, rfl⟩ := Option.map_eq_some_iff.mp h
    obtain ⟨hb, he, hst, hw, -, hi, hl, hr⟩ := nextQueuedFrame_cases hn
    refine started_move (by exact hb) (by exact he) (by exact hst) (by exact hw) hso (by rfl)
      (by exact hi) ?_ (by exact hr) id
    exact congrArg (· ++ [f]) hl

theorem flush_move (h : c.flush = some c') (id : StreamId) :
    Move c.config id (c.mode.opens id) behind (c.view id) (c'.view id) := by
  obtain ⟨f, hf, rfl⟩ := Option.map_eq_some_iff.mp h
  have heq : ({ c with socket := none, wire := c.wire ++ [f] } : Active).view id = c.view id := by
    refine view_congr rfl Iff.rfl ?_ rfl rfl rfl Iff.rfl
    simp [hf]
  rw [heq]
  exact Move.same _

/-- **What an end does by itself, it does by moves.** -/
theorem act_move {op : Op} (hok : c.Ok) (h : c.act op = some c') (hc : c'.closed = false)
    (id : StreamId) (hlate : op = .queue → c.servesControl id = true → behind (c.late id)) :
    Move c.config id (c.mode.opens id) behind (c.view id) (c'.view id) := by
  cases op with
  | newOutbound => exact newOutbound_move hok h hc id
  | write k buf => exact write_move h id
  | read k cap fast => exact read_move h id
  | endRead k => exact endRead_move h id
  | shutdown k => exact shutdown_move h id
  | dropHandle k => exact dropHandle_move h id
  | queue => exact queue_move hok h id (hlate rfl)
  | start => exact startFrame_move h id
  | flush => exact flush_move h id

end Active

/-! ## 5. The connection's own facts survive its operations -/

/-- The facts of a view that has an end. -/
theorem View.Ok.of_some {id : StreamId} {v : View} {s : Stream} (hs : v.stream = some s)
    (hl : ∀ f ∈ s.queued id, f.streamId = id)
    (hu : v.listed = false → s.held = false ∧ s.channel = []) : v.Ok id where
  labelled s' hs' := by
    rw [hs] at hs'
    cases hs'
    exact hl
  known _ := by rw [hs]; rfl
  unlisted s' hs' := by
    rw [hs] at hs'
    cases hs'
    exact hu

/-- A command leaves the channel. -/
theorem View.Ok.popped {id : StreamId} {v : View} {s : Stream} (hok : v.Ok id)
    (hs : v.stream = some s) :
    (∀ f ∈ s.popped.queued id, f.streamId = id) ∧
      (v.listed = false → s.popped.held = false ∧ s.popped.channel = []) := by
  constructor
  · intro f hf
    obtain ⟨cmd, hcmd, rfl⟩ := List.mem_map.mp hf
    exact hok.labelled s hs _ (List.mem_map.mpr ⟨cmd, List.mem_of_mem_tail hcmd, rfl⟩)
  · intro hl
    obtain ⟨hh, hc⟩ := hok.unlisted s hs hl
    exact ⟨hh, by rw [Stream.popped, hc]; rfl⟩

/-- A move keeps a view's own facts. -/
theorem Move.ok {cfg : Config} {id : StreamId} {mine : Bool} {behind : List Frame → Prop}
    {v v' : View} (h : Move cfg id mine behind v v') (hok : v.Ok id) : v'.Ok id := by
  cases h with
  | same => exact hok
  | opened hn _ => exact .of_some rfl (fun f hf => by cases hf) (fun hl => by cases hl)
  | spoke hs hh hsp =>
    refine .of_some rfl ?_ ?_
    · intro g hg
      rw [hsp.queued.1, List.mem_append, List.mem_singleton] at hg
      rcases hg with hg | rfl
      · exact hok.labelled _ hs g hg
      · exact hsp.queued.2
    · intro hl
      have hf := (hok.unlisted _ hs hl).1
      rw [hh] at hf
      cases hf
  | heard cap hs hh =>
    have hl := hok.labelled _ hs
    have hu := hok.unlisted _ hs
    exact .of_some rfl hl hu
  | looked hs =>
    have hl := hok.labelled _ hs
    have hu := hok.unlisted _ hs
    exact .of_some rfl hl hu
  | released hs =>
    have hl := hok.labelled _ hs
    have hu := hok.unlisted _ hs
    exact .of_some rfl hl (fun h => ⟨rfl, (hu h).2⟩)
  | queued hs => exact .of_some rfl (hok.popped hs).1 (hok.popped hs).2
  | overtook hs => exact .of_some rfl (hok.popped hs).1 (hok.popped hs).2
  | removed hs hh hc =>
    have hl := hok.labelled _ hs
    exact .of_some rfl hl (fun _ => ⟨hh, hc⟩)
  | started => exact ⟨hok.labelled, hok.known, hok.unlisted⟩

namespace Active

variable {c c' : Active} {id k : StreamId} {behind : List Frame → Prop}

/-- An end that changes is still an end. -/
theorem update_isSome {s s' : Stream} (hs : c.ends k = some s) (id : StreamId) :
    (update c.ends k (some s') id).isSome = (c.ends id).isSome := by
  by_cases h : id = k
  · subst h
    rw [update_self, hs]
    rfl
  · rw [update_of_ne h]

/-- What most operations leave alone. -/
structure Framed (c c' : Active) : Prop where
  mode : c'.mode = c.mode
  config : c'.config = c.config
  nextId : c'.nextId = c.nextId
  closed : c'.closed = c.closed
  ends : ∀ id, (c'.ends id).isSome = (c.ends id).isSome
  polled : ∀ id ∈ c'.streams, id ∈ c.streams ∧ (id ∈ c.receivers → id ∈ c'.receivers)

theorem Framed.of_setEnd {s s' : Stream} (hs : c.ends k = some s) (hm : c'.mode = c.mode)
    (hcf : c'.config = c.config) (hn : c'.nextId = c.nextId) (hcl : c'.closed = c.closed)
    (he : c'.ends = update c.ends k (some s')) (hst : c'.streams = c.streams)
    (hr : c'.receivers = c.receivers) : Framed c c' := by
  refine ⟨hm, hcf, hn, hcl, fun id => ?_, fun id hid => ?_⟩
  · rw [he]
    exact update_isSome hs id
  · rw [hst] at hid
    rw [hr]
    exact ⟨hid, fun h => h⟩

/-- A receiver that is done goes, the others stay. -/
theorem mem_eraseIdx {l : List StreamId} {i : Nat} (hi : l[i]? = some k) (hne : id ≠ k)
    (h : id ∈ l) : id ∈ l.eraseIdx i := by
  obtain ⟨j, hj, hget⟩ := List.mem_iff_getElem.mp h
  refine List.mem_eraseIdx_iff_getElem.mpr ⟨j, hj, ?_, hget⟩
  rintro rfl
  rw [List.getElem?_eq_getElem hj, hget] at hi
  exact hne (Option.some.inj hi)

theorem takeCommand_framed {i cursor : Nat} {answer : Option StreamCommand}
    (hk : c.receivers[i]? = some k) (ha : c.pollNext k = some answer) :
    Framed c ((c.takeCommand i k answer).wrapCursor cursor) := by
  obtain ⟨s, hs, ⟨cmd, tail, hc, rfl⟩ | ⟨hc, hh, rfl⟩⟩ := pollNext_cases ha
  · have hpop : c.popCommand k = c.setEnd k s.popped := by rw [popCommand, hs]
    cases cmd with
    | sendFrame f =>
      rw [takeCommand, hpop]
      split
      · exact .of_setEnd hs rfl rfl rfl rfl rfl rfl rfl
      · exact .of_setEnd hs rfl rfl rfl rfl rfl rfl rfl
    | closeStream ack =>
      rw [takeCommand, hpop]
      exact .of_setEnd hs rfl rfl rfl rfl rfl rfl rfl
  · rw [takeCommand, onDropStream, hs]
    dsimp only
    split
    case isTrue hks =>
      refine ⟨rfl, rfl, rfl, rfl, update_isSome hs, fun id hid => ?_⟩
      obtain ⟨h1, h2⟩ := List.mem_filter.mp hid
      exact ⟨h1, mem_eraseIdx hk (by simpa using h2)⟩
    case isFalse hks =>
      refine ⟨rfl, rfl, rfl, rfl, fun _ => rfl, fun id hid => ⟨hid, mem_eraseIdx hk ?_⟩⟩
      rintro rfl
      exact hks hid

/-- **What an operation leaves alone**, unless it opens a stream. -/
theorem act_framed {op : Op} (h : c.act op = some c') (hop : op ≠ .newOutbound) :
    Framed c c' := by
  cases op with
  | newOutbound => exact absurd rfl hop
  | write k buf =>
    obtain ⟨s, s', f, hs, -, -, rfl⟩ := write_cases h
    exact .of_setEnd hs rfl rfl rfl rfl rfl rfl rfl
  | read k cap fast =>
    obtain ⟨s, hs, -, ⟨s', -, rfl⟩ | ⟨s', f, acc, -, rfl⟩⟩ := read_cases h
    · exact .of_setEnd hs rfl rfl rfl rfl rfl rfl rfl
    · exact .of_setEnd hs rfl rfl rfl rfl rfl rfl rfl
  | endRead k =>
    obtain ⟨s, hs, -, -, rfl⟩ := endRead_cases h
    exact .of_setEnd hs rfl rfl rfl rfl rfl rfl rfl
  | shutdown k =>
    obtain ⟨s, s', f, hs, -, -, rfl⟩ := shutdown_cases h
    exact .of_setEnd hs rfl rfl rfl rfl rfl rfl rfl
  | dropHandle k =>
    obtain ⟨s, hs, -, rfl⟩ := dropHandle_cases h
    exact .of_setEnd hs rfl rfl rfl rfl rfl rfl rfl
  | queue =>
    obtain ⟨i, k, answer, hi, hk, ha, rfl⟩ := queueReceiverFrames_cases h
    exact takeCommand_framed hk ha
  | start =>
    rw [act, startFrame] at h
    split at h
    case h_1 => cases h
    case h_2 =>
      obtain ⟨⟨f, c1⟩, hn, rfl⟩ := Option.map_eq_some_iff.mp h
      rw [nextQueuedFrame] at hn
      split at hn <;> cases hn <;>
        exact ⟨rfl, rfl, rfl, rfl, fun _ => rfl, fun _ h => ⟨h, fun h => h⟩⟩
  | flush =>
    obtain ⟨f, hf, rfl⟩ := Option.map_eq_some_iff.mp h
    exact ⟨rfl, rfl, rfl, rfl, fun _ => rfl, fun _ h => ⟨h, fun h => h⟩⟩

/-- The next own id is of the same kind. -/
theorem opens_add_two (m : Mode) (n : Nat) (h : m.opens n = true) : m.opens (n + 2) = true := by
  cases m with
  | client => simpa [Mode.opens] using h
  | server => simpa [Mode.opens] using h

/-- **The connection's own facts survive its operations.** -/
theorem Ok.act {op : Op} (hok : c.Ok) (h : c.act op = some c') (hc : c'.closed = false) :
    c'.Ok := by
  have hviews : ∀ id, (c'.view id).Ok id := by
    intro id
    have hm : Move c.config id (c.mode.opens id) (fun _ => True) (c.view id) (c'.view id) :=
      act_move hok h hc id (fun _ _ => trivial)
    exact hm.ok (hok.views id)
  by_cases hop : op = .newOutbound
  case pos =>
    subst hop
    rcases pollNewOutbound_cases h with rfl | ⟨-, rfl⟩
    · cases hc
    refine ⟨hviews, opens_add_two _ _ hok.parity, fun id hm hid => ?_, fun id hid => ?_⟩
    · by_cases heq : id = c.nextId
      · rw [heq]
        exact Nat.lt_add_of_pos_right (by decide)
      · have hid' : (c.ends id).isSome = true := by
          simpa [addStream, setEnd, update_of_ne heq] using hid
        exact Nat.lt_trans (hok.fresh id hm hid') (Nat.lt_add_of_pos_right (by decide))
    · rcases List.mem_cons.mp hid with rfl | hid
      · exact List.mem_append_right _ List.mem_cons_self
      · exact List.mem_append_left _ (hok.polled id hid)
  case neg =>
    have hf := act_framed h hop
    refine ⟨hviews, ?_, fun id hm hid => ?_, fun id hid => ?_⟩
    · rw [hf.mode, hf.nextId]
      exact hok.parity
    · rw [hf.mode] at hm
      rw [hf.ends] at hid
      rw [hf.nextId]
      exact hok.fresh id hm hid
    · obtain ⟨h1, h2⟩ := hf.polled id hid
      exact h2 (hok.polled id h1)

end Active

end Molehill.Mux
