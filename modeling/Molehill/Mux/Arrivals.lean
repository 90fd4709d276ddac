/-
# What a frame from the peer does to a stream

The frames two honest ends exchange are of four kinds (`Kind`), and one of them that fits the
receiving end (`Fits`: an opening frame finds no stream, no body exceeds the receive window, no
credit overflows) does one of the things `Arrival` lists, and nothing to any other stream.  In
particular it never ends the connection: `on_data` and `on_window_update` answer with a protocol
error only what does not fit.

At the stream cap the two handlers part ways (`cap_refusal_iff`): `on_data` resets the one stream
that asked, `on_window_update` ends the connection.
-/
import Molehill.Mux.Moves

namespace Molehill.Mux

open Function Lib

/-! ## 1. Kinds of frames, and what they do -/

/-- The frames of a stream: payload (with or without `SYN`), credit, a close and a reset. -/
inductive Kind (id : StreamId) : Frame → Prop
  | payload (syn ack : Bool) (body : List UInt8) :
      Kind id ⟨.data, id, syn, ack, false, false, 0, body⟩
  | credit (ack : Bool) (n : Nat) : Kind id ⟨.windowUpdate, id, false, ack, false, false, n, []⟩
  | close (ack : Bool) : Kind id (.closeStream id ack)
  | reset : Kind id (.reset id)

theorem Kind.streamId {id : StreamId} {f : Frame} (h : Kind id f) : f.streamId = id := by
  cases h <;> rfl

/-- A frame's `ACK` on the end it reaches. -/
def Stream.acked (s : Stream) (ack : Bool) : Stream :=
  { s with state := if ack then s.state.update (.opened true) else s.state }

/-- **What a frame of stream `id` can do to the view of the end it reaches.** -/
inductive Arrival (id : StreamId) (v : View) : Frame → View → Prop
  | ignored {f : Frame} : v.listed = false → f.syn = false → Arrival id v f v
  | payload {s : Stream} {ack : Bool} {body : List UInt8} : v.listed = true →
      v.stream = some s → body.length ≤ s.receiveWindow →
      Arrival id v ⟨.data, id, false, ack, false, false, 0, body⟩
        { v with stream := some ((s.acked ack).absorb body) }
  | credit {s : Stream} {ack : Bool} {n : Nat} : v.listed = true → v.stream = some s →
      Arrival id v ⟨.windowUpdate, id, false, ack, false, false, n, []⟩
        { v with stream := some { s.acked ack with sendWindow := s.sendWindow + n } }
  | close {s : Stream} {ack : Bool} : v.listed = true → v.stream = some s →
      Arrival id v (.closeStream id ack)
        { v with stream := some ((s.acked ack).finish true) }
  | reset {s : Stream} : v.listed = true → v.stream = some s →
      Arrival id v (.reset id)
        { v with stream := some { s with state := s.state.update .closed } }
  | accepted {ack : Bool} {body : List UInt8} : v.stream = none →
      body.length ≤ defaultCredit →
      Arrival id v ⟨.data, id, true, ack, false, false, 0, body⟩
        { v with
          stream := some ((Stream.newInbound defaultCredit).absorb body)
          listed := true }
  | refused {ack : Bool} {body : List UInt8} : v.stream = none →
      Arrival id v ⟨.data, id, true, ack, false, false, 0, body⟩
        { v with
          rest := .reset id :: v.rest
          issued := v.issued ++ [.reset id]
          reset := true }

/-- A frame that gives the receiving end no cause to end the connection. -/
structure Fits (id : StreamId) (mine : Bool) (stream : Option Stream) (f : Frame) : Prop where
  kind : Kind id f
  syn : f.syn = true → mine = false ∧ stream = none ∧ f.body.length ≤ defaultCredit
  window : ∀ s, stream = some s → f.body.length ≤ s.receiveWindow
  credit : ∀ s, stream = some s → s.sendWindow + f.credit ≤ u32Max

/-! ## 2. `on_frame`, frame by frame -/

namespace Active

variable {c : Active} {id : StreamId} {s : Stream}

theorem setEnd_setEnd (s s' : Stream) : (c.setEnd id s).setEnd id s' = c.setEnd id s' := by
  rw [setEnd, setEnd, setEnd]
  simp only [update_idem]

theorem setEnd_of_eq (hs : c.ends id = some s) : c.setEnd id s = c := by
  rw [setEnd, ← hs, update_eq_self]

/-- `acknowledge` on a stream the table lists. -/
theorem acknowledge_listed {f : Frame} (hs : c.ends f.streamId = some s)
    (hl : f.streamId ∈ c.streams) :
    c.acknowledge f = c.setEnd f.streamId (s.acked f.ack) := by
  rw [acknowledge, hs]
  dsimp only
  cases hack : f.ack with
  | false =>
    have hsame : s.acked false = s := rfl
    rw [hsame, setEnd_of_eq hs]
    rfl
  | true => simp [hl, Stream.acked]

theorem acknowledge_unlisted {f : Frame} (hl : f.streamId ∉ c.streams) :
    c.acknowledge f = c := by
  rw [acknowledge]
  split
  · simp [hl]
  · rfl

theorem onFrame_unlisted {f : Frame} (hk : Kind id f) (hl : id ∉ c.streams)
    (hsyn : f.syn = false) : c.onFrame f = c := by
  have hl' : f.streamId ∉ c.streams := by rwa [hk.streamId]
  rw [onFrame, acknowledge_unlisted hl']
  cases hk with
  | payload syn ack body =>
    cases hsyn
    simp only [onData, perform]
    cases hs : c.ends id <;> simp [hl]
  | credit ack n =>
    simp only [onWindowUpdate, perform]
    cases hs : c.ends id <;> simp [hl]
  | close ack =>
    simp only [onData, perform, Frame.closeStream]
    cases hs : c.ends id <;> simp [hl]
  | reset =>
    simp only [onData, onReset, perform, Frame.reset]
    cases hs : c.ends id <;> simp [hl]

theorem onFrame_payload {ack : Bool} {body : List UInt8} (hs : c.ends id = some s)
    (hl : id ∈ c.streams) (hw : body.length ≤ s.receiveWindow) :
    c.onFrame ⟨.data, id, false, ack, false, false, 0, body⟩ =
      c.setEnd id ((s.acked ack).absorb body) := by
  have hw' : ¬ (s.acked ack).receiveWindow < body.length := Nat.not_lt.mpr hw
  rw [onFrame, acknowledge_listed hs hl]
  simp only [onData, setEnd_ends, update_self, setEnd_streams, hl, hw', setEnd_setEnd,
    Stream.finish, perform, if_true, if_false, Bool.false_eq_true]

theorem onFrame_credit {ack : Bool} {n : Nat} (hs : c.ends id = some s) (hl : id ∈ c.streams)
    (hw : s.sendWindow + n ≤ u32Max) :
    c.onFrame ⟨.windowUpdate, id, false, ack, false, false, n, []⟩ =
      c.setEnd id { s.acked ack with sendWindow := s.sendWindow + n } := by
  have hw' : ¬ u32Max < (s.acked ack).sendWindow + n := Nat.not_lt.mpr hw
  rw [onFrame, acknowledge_listed hs hl]
  simp only [onWindowUpdate, setEnd_ends, update_self, setEnd_streams, hl, hw', setEnd_setEnd,
    Stream.finish, perform, if_true, if_false, Bool.false_eq_true]
  rfl

theorem onFrame_close {ack : Bool} (hs : c.ends id = some s) (hl : id ∈ c.streams) :
    c.onFrame (.closeStream id ack) = c.setEnd id ((s.acked ack).finish true) := by
  have habs : ((s.acked ack).finish true).absorb [] = (s.acked ack).finish true := by
    simp [Stream.absorb]
  rw [onFrame, acknowledge_listed hs hl]
  simp only [Frame.closeStream, onData, setEnd_ends, update_self, setEnd_streams, hl,
    setEnd_setEnd, perform, if_true, if_false, Bool.false_eq_true, List.length_nil,
    Nat.not_lt_zero, habs]

theorem onFrame_reset (hs : c.ends id = some s) (hl : id ∈ c.streams) :
    c.onFrame (.reset id) = c.setEnd id { s with state := s.state.update .closed } := by
  rw [onFrame, acknowledge_listed hs hl]
  simp only [Frame.reset, onData, onReset, setEnd_ends, update_self, setEnd_streams, hl,
    setEnd_setEnd, perform, if_true]
  rfl

theorem onFrame_syn {ack : Bool} {body : List UInt8} (hm : c.mode.opens id = false)
    (hl : id ∉ c.streams) (hb : body.length ≤ defaultCredit) :
    c.onFrame ⟨.data, id, true, ack, false, false, 0, body⟩ =
      if c.streams.length = c.config.maxNumStreams then
        { c with
          pendingReadFrame := some (.reset id)
          issued := c.issued ++ [.reset id]
          resets := id :: c.resets }
      else c.addStream id ((Stream.newInbound defaultCredit).absorb body) := by
  have hb' : ¬ defaultCredit < body.length := Nat.not_lt.mpr hb
  rw [onFrame, acknowledge_unlisted hl]
  simp only [onData, hm, hl, hb', if_true, if_false, Bool.false_eq_true, Stream.finish]
  split <;> rfl

/-! ## 3. A frame that fits, as an arrival -/

/-- What an arrival leaves alone: everything about the connection but its stream. -/
structure Received (c c' : Active) (id : StreamId) : Prop where
  mode : c'.mode = c.mode
  config : c'.config = c.config
  nextId : c'.nextId = c.nextId
  closed : c'.closed = c.closed
  others : ∀ k, k ≠ id → c'.view k = c.view k
  polled : ∀ k ∈ c'.streams, (k ∈ c.streams → k ∈ c.receivers) → k ∈ c'.receivers
  bytes : c'.pendingBytes = c.pendingBytes
  frames : c'.pendingFrames = c.pendingFrames
  cap : c.streams.length ≤ c.config.maxNumStreams → c'.streams.length ≤ c.config.maxNumStreams

theorem setEnd_received (s' : Stream) : Received c (c.setEnd id s') id where
  mode := rfl
  config := rfl
  nextId := rfl
  closed := rfl
  others _ h := setEnd_view_ne s' h
  polled _ h hp := hp h
  bytes := rfl
  frames := rfl
  cap h := h

theorem setEnd_arrival {f : Frame} {s' : Stream} (hs : c.ends id = some s)
    (hq : s'.channel = s.channel)
    (ha : Arrival id (c.view id) f { c.view id with stream := some s' }) :
    Arrival id (c.view id) f ((c.setEnd id s').view id) ∧ Received c (c.setEnd id s') id := by
  have hrest : c.backlog.filter (ofStream id) ++ s'.queued id = (c.view id).rest := by
    rw [view, queuedOf_of_some hs, Stream.queued, Stream.queued, hq]
  refine ⟨?_, setEnd_received s'⟩
  rw [setEnd_view_self, hrest]
  exact ha

theorem addStream_received (s' : Stream) (hlen : c.streams.length ≠ c.config.maxNumStreams) :
    Received c (c.addStream id s') id where
  mode := rfl
  config := rfl
  nextId := rfl
  closed := rfl
  others _ h := addStream_view_ne s' h
  polled k h hp := by
    rcases List.mem_cons.mp h with rfl | h
    · exact List.mem_append_right _ List.mem_cons_self
    · exact List.mem_append_left _ (hp h)
  bytes := rfl
  frames := rfl
  cap h := Nat.lt_of_le_of_ne h hlen

/-- The connection after it refused stream `id`. -/
theorem refused_view (hp : c.pendingReadFrame = none) :
    ({ c with
        pendingReadFrame := some (.reset id)
        issued := c.issued ++ [.reset id]
        resets := id :: c.resets } : Active).view id =
      { c.view id with
        rest := .reset id :: (c.view id).rest
        issued := (c.view id).issued ++ [.reset id]
        reset := true } := by
  have hrst : (Frame.reset id).streamId = id := rfl
  simp only [view, backlog, hp, filter_snoc_self hrst, Option.toList_some, Option.toList_none,
    List.nil_append, List.cons_append, List.filter_cons_of_pos (ofStream_iff.mpr hrst)]
  simp [queuedOf]

theorem refused_received (hp : c.pendingReadFrame = none) :
    Received c
      { c with
        pendingReadFrame := some (.reset id)
        issued := c.issued ++ [.reset id]
        resets := id :: c.resets } id where
  mode := rfl
  config := rfl
  nextId := rfl
  closed := rfl
  others k h := by
    have hne : (Frame.reset id).streamId ≠ k := fun he => h he.symm
    have hneg : ¬ ofStream k (.reset id) = true := by simpa using hne
    refine view_congr rfl Iff.rfl rfl ?_ (filter_snoc_ne hne) rfl ?_
    · simp only [backlog, hp, Option.toList_some, Option.toList_none, List.cons_append,
        List.nil_append, List.filter_cons_of_neg hneg]
    · exact List.mem_cons.trans (or_iff_right h)
  polled _ h hp := hp h
  bytes := rfl
  frames := rfl
  cap h := h

/-- **A frame that fits arrives**, and touches nothing but its stream. -/
theorem onFrame_arrival {f : Frame} (hok : (c.view id).Ok id) (hp : c.pendingReadFrame = none)
    (hf : Fits id (c.mode.opens id) (c.ends id) f) :
    Arrival id (c.view id) f ((c.onFrame f).view id) ∧ Received c (c.onFrame f) id := by
  have hsame : Received c c id :=
    ⟨rfl, rfl, rfl, rfl, fun _ _ => rfl, fun _ h hp => hp h, rfl, rfl, fun h => h⟩
  by_cases hsyn : f.syn = true
  case pos =>
    obtain ⟨hm, hn, hb⟩ := hf.syn hsyn
    have hl : id ∉ c.streams := by
      intro hl
      have hk : (c.ends id).isSome = true := hok.known (decide_eq_true hl)
      rw [hn] at hk
      cases hk
    cases hf.kind with
    | payload syn ack body =>
      cases hsyn
      rw [onFrame_syn hm hl hb]
      split
      case isTrue => exact ⟨refused_view hp ▸ Arrival.refused hn, refused_received hp⟩
      case isFalse hlen =>
        refine ⟨?_, addStream_received _ hlen⟩
        rw [addStream_view_self hn rfl]
        exact Arrival.accepted hn hb
    | credit => cases hsyn
    | close => cases hsyn
    | reset => cases hsyn
  case neg =>
    have hsyn : f.syn = false := by simpa using hsyn
    by_cases hl : id ∈ c.streams
    case neg =>
      rw [onFrame_unlisted hf.kind hl hsyn]
      exact ⟨Arrival.ignored (decide_eq_false hl) hsyn, hsame⟩
    case pos =>
      have hlist : (c.view id).listed = true := decide_eq_true hl
      obtain ⟨s, hs⟩ := Option.isSome_iff_exists.mp (hok.known hlist)
      have hwin := hf.window s hs
      have hcred := hf.credit s hs
      cases hf.kind with
      | payload syn ack body =>
        cases hsyn
        rw [onFrame_payload hs hl hwin]
        exact setEnd_arrival hs rfl (Arrival.payload hlist hs hwin)
      | credit ack n =>
        rw [onFrame_credit hs hl hcred]
        exact setEnd_arrival hs rfl (Arrival.credit hlist hs)
      | close ack =>
        rw [onFrame_close hs hl]
        exact setEnd_arrival hs rfl (Arrival.close hlist hs)
      | reset =>
        rw [onFrame_reset hs hl]
        exact setEnd_arrival hs rfl (Arrival.reset hlist hs)

end Active

/-- An arrival keeps a view's own facts. -/
theorem Arrival.ok {id : StreamId} {v v' : View} {f : Frame} (h : Arrival id v f v')
    (hok : v.Ok id) : v'.Ok id := by
  cases h with
  | ignored => exact hok
  | payload _ hs =>
    have hl := hok.labelled _ hs
    have hu := hok.unlisted _ hs
    exact .of_some rfl hl hu
  | credit _ hs =>
    have hl := hok.labelled _ hs
    have hu := hok.unlisted _ hs
    exact .of_some rfl hl hu
  | close _ hs =>
    have hl := hok.labelled _ hs
    have hu := hok.unlisted _ hs
    exact .of_some rfl hl hu
  | reset _ hs =>
    have hl := hok.labelled _ hs
    have hu := hok.unlisted _ hs
    exact .of_some rfl hl hu
  | accepted => exact .of_some rfl (fun _ hf => by cases hf) (fun hl => by cases hl)
  | refused hn =>
    have hl := hok.labelled
    have hk := hok.known
    have hu := hok.unlisted
    exact ⟨hl, hk, hu⟩

/-- Only an opening frame gives a stream an end. -/
theorem Arrival.isSome {id : StreamId} {v v' : View} {f : Frame} (h : Arrival id v f v') :
    v'.stream.isSome = v.stream.isSome ∨ f.syn = true := by
  cases h with
  | ignored => exact Or.inl rfl
  | payload _ hs => exact Or.inl (by rw [hs]; rfl)
  | credit _ hs => exact Or.inl (by rw [hs]; rfl)
  | close _ hs => exact Or.inl (by rw [hs]; rfl)
  | reset _ hs => exact Or.inl (by rw [hs]; rfl)
  | accepted => exact Or.inr rfl
  | refused => exact Or.inr rfl

/-- **The connection's own facts survive a frame that fits.** -/
theorem Active.Ok.onFrame {c : Active} {id : StreamId} {f : Frame} (hok : c.Ok)
    (hp : c.pendingReadFrame = none) (hf : Fits id (c.mode.opens id) (c.ends id) f) :
    (c.onFrame f).Ok := by
  obtain ⟨ha, hr⟩ := onFrame_arrival (hok.views id) hp hf
  have hends : ∀ k, k ≠ id → (c.onFrame f).ends k = c.ends k := fun k hk =>
    congrArg View.stream (hr.others k hk)
  refine ⟨fun k => ?_, ?_, fun k hm hk => ?_, fun k hk => hr.polled k hk (hok.polled k)⟩
  · by_cases heq : k = id
    · rw [heq]
      exact ha.ok (hok.views id)
    · rw [hr.others k heq]
      exact hok.views k
  · rw [hr.mode, hr.nextId]
    exact hok.parity
  · rw [hr.mode] at hm
    rw [hr.nextId]
    by_cases heq : k = id
    · subst heq
      rcases ha.isSome with hsame | hsyn
      · exact hok.fresh k hm (hsame.symm.trans hk)
      · have hmine := (hf.syn hsyn).1
        rw [hm] at hmine
        cases hmine
    · rw [hends k heq] at hk
      exact hok.fresh k hm hk

/-! ## 4. At the stream cap -/

/-- The connection answers a frame with no more than a reset of that one stream: its table, its
streams and its queues are as before, and it goes on. -/
structure RefusesOnly (c : Active) (id : StreamId) (c' : Active) : Prop where
  streams : c'.streams = c.streams
  ends : c'.ends = c.ends
  receivers : c'.receivers = c.receivers
  controlFrames : c'.controlFrames = c.controlFrames
  pendingFrames : c'.pendingFrames = c.pendingFrames
  closed : c'.closed = c.closed
  answer : ∃ frames, c'.issued = c.issued ++ frames ∧ ∀ g ∈ frames, g = .reset id

section Cap

variable {c : Active} {f : Frame}

/-- A connection that says goodbye refuses more than a stream. -/
theorem terminate_not_refusesOnly (c : Active) (id : StreamId) :
    ¬ RefusesOnly c id (Active.perform (c, .terminate)) := by
  intro h
  obtain ⟨frames, hissued, hall⟩ := h.answer
  have hframes : [Frame.protocolError] = frames := List.append_cancel_left hissued
  have hgoodbye := hall .protocolError (by rw [← hframes]; exact List.mem_singleton_self _)
  cases congrArg Frame.tag hgoodbye

/-- A reset of a stream the connection does not have is no news to it. -/
theorem onReset_unlisted {id : StreamId} (hfresh : id ∉ c.streams) : c.onReset id = c := by
  unfold Active.onReset
  split <;> simp [hfresh]

theorem refusesOnly_self (c : Active) (id : StreamId) : RefusesOnly c id c :=
  ⟨rfl, rfl, rfl, rfl, rfl, rfl, [], (List.append_nil _).symm, nofun⟩

/-- `on_data` at the cap: a stream the peer may open is refused alone. -/
theorem onData_cap (hfull : c.streams.length = c.config.maxNumStreams) (hsyn : f.syn = true)
    (hfresh : f.streamId ∉ c.streams) :
    RefusesOnly c f.streamId (Active.perform (c.onData f)) ↔
      f.rst = true ∨ c.mode.opens f.streamId = false := by
  rw [Active.onData]
  by_cases hrst : f.rst = true
  · rw [if_pos hrst, onReset_unlisted hfresh]
    exact iff_of_true (refusesOnly_self c _) (.inl hrst)
  · rw [if_neg hrst, if_pos hsyn]
    by_cases hmine : c.mode.opens f.streamId = true
    · rw [if_pos hmine]
      refine iff_of_false (terminate_not_refusesOnly c _) ?_
      simp [hrst, hmine]
    · rw [if_neg hmine, if_neg hfresh, if_pos hfull]
      refine iff_of_true ⟨rfl, rfl, rfl, rfl, rfl, rfl, [.reset f.streamId], rfl, ?_⟩ (.inr ?_)
      · exact fun g hg => List.mem_singleton.mp hg
      · exact Bool.eq_false_iff.mpr hmine

/-- `on_window_update` at the cap: every new stream ends the connection. -/
theorem onWindowUpdate_cap (hfull : c.streams.length = c.config.maxNumStreams)
    (hsyn : f.syn = true) (hfresh : f.streamId ∉ c.streams) :
    RefusesOnly c f.streamId (Active.perform (c.onWindowUpdate f)) ↔ f.rst = true := by
  rw [Active.onWindowUpdate]
  by_cases hrst : f.rst = true
  · rw [if_pos hrst, onReset_unlisted hfresh]
    exact iff_of_true (refusesOnly_self c _) hrst
  · rw [if_neg hrst, if_pos hsyn]
    refine iff_of_false ?_ hrst
    by_cases hmine : c.mode.opens f.streamId = true
    · rw [if_pos hmine]
      exact terminate_not_refusesOnly c _
    · rw [if_neg hmine, if_neg hfresh, if_pos hfull]
      exact terminate_not_refusesOnly c _

/-- **Refusing at the cap.**  A full connection that reads an opening frame for a stream it does
not have refuses that stream alone exactly when the frame resets what it opens, or is a data frame
for an id the peer may open. -/
theorem cap_refusal_iff (hfull : c.streams.length = c.config.maxNumStreams) (hsyn : f.syn = true)
    (htag : f.tag = .data ∨ f.tag = .windowUpdate) (hfresh : f.streamId ∉ c.streams) :
    RefusesOnly c f.streamId (c.onFrame f) ↔
      f.rst = true ∨ (f.tag = .data ∧ c.mode.opens f.streamId = false) := by
  rw [Active.onFrame, Active.acknowledge_unlisted hfresh]
  rcases htag with htag | htag
  · rw [htag]
    simpa using onData_cap hfull hsyn hfresh
  · rw [htag]
    simpa using onWindowUpdate_cap hfull hsyn hfresh

/-- A bodyless data frame that opens a stream. -/
def openingData (id : StreamId) : Frame := ⟨.data, id, true, false, false, false, 0, []⟩

/-- A window update that opens a stream. -/
def openingUpdate (id : StreamId) : Frame := ⟨.windowUpdate, id, true, false, false, false, 0, []⟩

/-- A server connection whose peer has opened every stream the cap allows. -/
def fullConnection : Active :=
  (List.range 64).foldl (fun c i => c.onFrame (openingData (2 * i + 1)))
    (Active.new .server tunnelConfig)

theorem fullConnection_full :
    fullConnection.streams.length = fullConnection.config.maxNumStreams ∧
      129 ∉ fullConnection.streams := by
  decide +kernel

theorem cap_refusal_iff_data :
    RefusesOnly fullConnection 129 (fullConnection.onFrame (openingData 129)) :=
  (cap_refusal_iff (f := openingData 129) fullConnection_full.1 rfl (.inl rfl)
    fullConnection_full.2).mpr (.inr ⟨rfl, by decide +kernel⟩)

/-- **The cap reached by a window update** costs the connection, not the stream: the answer is a
goodbye, and a peer that reads it drops every stream it has. -/
theorem windowUpdate_ends_connection :
    fullConnection.streams.length = fullConnection.config.maxNumStreams ∧
      129 ∉ fullConnection.streams ∧
      (fullConnection.onFrame (openingUpdate 129)).pendingReadFrame = some .protocolError ∧
      (fullConnection.onFrame .protocolError).streams = [] ∧
      ¬ RefusesOnly fullConnection 129 (fullConnection.onFrame (openingUpdate 129)) := by
  obtain ⟨hfull, hfresh⟩ := fullConnection_full
  have hends : (fullConnection.onFrame (openingUpdate 129)).pendingReadFrame =
      some .protocolError := by
    decide +kernel
  refine ⟨hfull, hfresh, hends, rfl, fun h => ?_⟩
  rw [Active.onFrame, Active.acknowledge_unlisted (f := openingUpdate 129) hfresh] at h
  have hrst := (onWindowUpdate_cap (f := openingUpdate 129) hfull rfl hfresh).mp h
  cases hrst

end Cap

end Molehill.Mux
