/-
# Runs of two connections

A step of the system shows on a stream as one move of one end or as one arrival (`step_effect`),
so what the two ends of every stream agree on in a reachable state of two live connections
(`reach_agree`) follows from the moves and arrivals of the modules before.

`KeepsOrder id` is the side condition on a step under which the reader of stream `id` meets its
frames in the order they were issued: what the step takes for the control queue has no frame of its
own stream waiting in the payload queue, and a close does not arrive between the two locks of a read
that found nothing, behind bytes that arrived there.
-/
import Molehill.Mux.Streams

namespace Molehill.Mux

open Function Lib

/-! ## 1. What a step shows on a stream -/

/-- What holds between two connections that are both alive. -/
structure Agree (w : World) : Prop where
  ok : ∀ m, (w m).Ok
  mode : ∀ m, (w m).mode = m
  sound : ∀ m id, Sound id (m.opens id) ((w m).view id).half ((w m.peer).view id).half

/-- The other direction of a stream. -/
theorem Agree.back {w : World} (h : Agree w) (m : Mode) (id : StreamId) :
    Sound id (!m.opens id) ((w m.peer).view id).half ((w m).view id).half := by
  have hs := h.sound m.peer id
  rw [Mode.peer_peer, Mode.opens_peer] at hs
  exact hs

/-- **A step on one stream**: nothing, a move of an end, or the arrival of the frame at the head
of the line; `heard` says at which end which frames may arrive. -/
inductive Effect (id : StreamId) (behind : List Frame → Prop) (heard : Mode → Frame → Prop)
    (w w' : World) : Prop
  | quiet : (∀ m, (w' m).view id = (w m).view id) → Effect id behind heard w w'
  | move (m : Mode) :
      Move (w m).config id (m.opens id) behind ((w m).view id) ((w' m).view id) →
      (w' m.peer).view id = (w m.peer).view id → Effect id behind heard w w'
  | arrival (m : Mode) (f : Frame) (t : List Frame) :
      heard m f → ((w m.peer).view id).front = f :: t →
      (w' m.peer).view id = { (w m.peer).view id with front := t } →
      Arrival id ((w m).view id) f ((w' m).view id) → Effect id behind heard w w'

/-- A close that arrives while a read which found nothing is on its way to its last look, with
bytes that have come in between. -/
def Active.cutsShort (c : Active) (id : StreamId) (f : Frame) : Bool :=
  f.streamId == id && f.fin && (c.ends id).any fun s => s.looking && !s.buffer.isEmpty

/-- The condition on a step under which stream `id` keeps its order: nothing of the stream goes to
the control queue past frames of the stream, and no close arrives in the middle of a read that it
cuts short. -/
def KeepsOrder (id : StreamId) (w : World) : Label → Prop
  | .act m .queue => (w m).servesControl id = true → (w m).late id = []
  | .receive m => ∀ f ∈ (w m.peer).wire.head?, (w m).cutsShort id f = false
  | _ => True

instance (id : StreamId) (w : World) (a : Label) : Decidable (KeepsOrder id w a) :=
  match a with
  | .act m .queue => inferInstanceAs (Decidable ((w m).servesControl id = true → _))
  | .receive m => inferInstanceAs (Decidable (∀ f ∈ (w m.peer).wire.head?, _))
  | .act _ .newOutbound => isTrue trivial
  | .act _ (.write _ _) => isTrue trivial
  | .act _ (.read _ _ _) => isTrue trivial
  | .act _ (.endRead _) => isTrue trivial
  | .act _ (.shutdown _) => isTrue trivial
  | .act _ (.dropHandle _) => isTrue trivial
  | .act _ .start => isTrue trivial
  | .act _ .flush => isTrue trivial

namespace Active

variable {p : Active} {f : Frame} {t : List Frame} {id : StreamId}

/-- The peer has read a frame of this stream off the socket. -/
theorem view_popped_self (hw : p.wire = f :: t) (hf : f.streamId = id) :
    (p.view id).front = f :: (t ++ p.socket.toList).filter (ofStream id) ∧
      ({ p with wire := t } : Active).view id =
        { p.view id with front := (t ++ p.socket.toList).filter (ofStream id) } := by
  refine ⟨?_, rfl⟩
  simp only [view, hw, List.cons_append, List.filter_cons_of_pos (ofStream_iff.mpr hf)]

theorem view_popped_ne (hw : p.wire = f :: t) (hf : f.streamId ≠ id) :
    ({ p with wire := t } : Active).view id = p.view id := by
  have hneg : ¬ ofStream id f = true := by simpa using hf
  have hfront : (p.wire ++ p.socket.toList).filter (ofStream id) =
      (t ++ p.socket.toList).filter (ofStream id) := by
    rw [hw, List.cons_append, List.filter_cons_of_neg hneg]
  rw [view, view, hfront]
  rfl

/-- A frame read off the socket is no concern of the end that wrote it. -/
theorem Ok.popped (hok : p.Ok) (t : List Frame) :
    Active.Ok { p with wire := t } := by
  refine ⟨fun id => ?_, hok.parity, hok.fresh, hok.polled⟩
  have hv := hok.views id
  exact ⟨hv.labelled, hv.known, hv.unlisted⟩

theorem act_mode {c' : Active} {op : Op} (h : p.act op = some c') : c'.mode = p.mode := by
  by_cases hop : op = .newOutbound
  · subst hop
    rcases pollNewOutbound_cases h with rfl | ⟨-, rfl⟩ <;> rfl
  · exact (act_framed h hop).mode

end Active

/-- What a step of two live connections is. -/
theorem step_cases {w w' : World} {a : Label} (h : w.step a = some w') (hc : w'.Connected) :
    w.Connected ∧
      ((∃ m op c', a = .act m op ∧ (w m).act op = some c' ∧ w' = update w m c') ∨
        (∃ m f t, a = .receive m ∧ (w m).pendingReadFrame = none ∧
          (w m.peer).wire = f :: t ∧
          w' = update (update w m.peer { w m.peer with wire := t }) m ((w m).onFrame f))) := by
  cases a with
  | act m op =>
    rw [World.step, World.act] at h
    split at h
    · cases h
    next hm =>
    obtain ⟨c', hact, rfl⟩ := Option.map_eq_some_iff.mp h
    refine ⟨fun k => ?_, Or.inl ⟨m, op, c', rfl, hact, rfl⟩⟩
    rcases Mode.eq_or_eq_peer m k with rfl | rfl
    · simpa using hm
    · have hk := hc m.peer
      rwa [update_of_ne (Mode.peer_ne m)] at hk
  | receive m =>
    rw [World.step, World.receive] at h
    split at h
    · cases h
    next hm =>
    obtain ⟨hm, hp⟩ : (w m).closed = false ∧ (w m).pendingReadFrame = none := by
      simpa using hm
    split at h
    case h_1 f t hw =>
      cases h
      refine ⟨fun k => ?_, Or.inr ⟨m, f, t, rfl, hp, hw, rfl⟩⟩
      rcases Mode.eq_or_eq_peer m k with rfl | rfl
      · exact hm
      · have hk := hc m.peer
        rwa [update_of_ne (Mode.peer_ne m), update_self] at hk
    case h_2 =>
      split at h
      case isTrue =>
        cases h
        have hk := hc m
        rw [update_self] at hk
        cases hk
      case isFalse => cases h

/-- The frame at the head of the wire fits the end it reaches. -/
theorem Agree.fits {w : World} (h : Agree w) {m : Mode} {f : Frame} {t : List Frame}
    (hw : (w m.peer).wire = f :: t) :
    Fits f.streamId ((w m).mode.opens f.streamId) ((w m).ends f.streamId) f := by
  have hs := h.sound m.peer f.streamId
  have hb := h.back m.peer f.streamId
  rw [Mode.peer_peer] at hs hb
  have hline : ((w m.peer).view f.streamId).half.line =
      f :: ((t ++ (w m.peer).socket.toList).filter (ofStream f.streamId) ++
        ((w m.peer).view f.streamId).rest) := by
    rw [View.half, View.line, (Active.view_popped_self hw rfl).1]
    rfl
  have hf := hs.fits hb hline
  rw [Mode.opens_peer, Bool.not_not] at hf
  rw [h.mode m]
  exact hf

/-- **What a step shows on a stream.** -/
theorem step_effect {w w' : World} {a : Label} {id : StreamId} {behind : List Frame → Prop}
    {heard : Mode → Frame → Prop} (hag : Agree w) (h : w.step a = some w') (hc : w'.Connected)
    (hb : ∀ m, a = .act m .queue → (w m).servesControl id = true → behind ((w m).late id))
    (hh : ∀ m f t, a = .receive m → (w m.peer).wire = f :: t → f.streamId = id → heard m f) :
    Effect id behind heard w w' := by
  obtain ⟨-, ⟨m, op, c', rfl, hact, rfl⟩ | ⟨m, f, t, rfl, hp, hw, rfl⟩⟩ := step_cases h hc
  · have hcl : c'.closed = false := by
      have hk := hc m
      rwa [update_self] at hk
    have hm := Active.act_move (hag.ok m) hact hcl id (fun hop => hb m (by rw [hop]))
    rw [hag.mode m] at hm
    refine Effect.move m ?_ ?_
    · rw [update_self]
      exact hm
    · rw [update_of_ne (Mode.peer_ne m)]
  · obtain ⟨ha, hr⟩ := Active.onFrame_arrival ((hag.ok m).views f.streamId) hp (hag.fits hw)
    by_cases hid : f.streamId = id
    · subst hid
      obtain ⟨h1, h2⟩ := Active.view_popped_self hw rfl
      refine Effect.arrival m f _ (hh m f t rfl hw rfl) h1 ?_ ?_
      · rw [update_of_ne (Mode.peer_ne m), update_self]
        exact h2
      · rw [update_self]
        exact ha
    · refine Effect.quiet fun k => ?_
      rcases Mode.eq_or_eq_peer m k with rfl | rfl
      · rw [update_self]
        exact hr.others id (Ne.symm hid)
      · rw [update_of_ne (Mode.peer_ne m), update_self]
        exact Active.view_popped_ne hw hid

/-! ## 2. The ends agree in every reachable state -/

/-- Two ends that have never heard of the stream. -/
theorem Sound.initial (id : StreamId) (mine : Bool) :
    Sound id mine ⟨none, false, [], false⟩ ⟨none, false, [], false⟩ where
  kinds _ hf := by cases hf
  resets hf := by cases hf
  opener hs := by cases hs
  resetBy hr := by cases hr
  silent _ _ hf := by cases hf
  unread _ := ⟨fun _ hf => (by cases hf), fun _ hy => (by cases hy)⟩
  unseen _ hx := by cases hx
  seen _ _ hx := by cases hx
  flow := Nat.le_refl _
  bound _ hy := by cases hy
  synUnseen _ hx := by cases hx
  synSeen hor := by rcases hor with hor | hor <;> cases hor

theorem Agree.new (cfg : Mode → Config) : Agree fun m => .new m (cfg m) where
  ok m := Active.Ok.new m (cfg m)
  mode _ := rfl
  sound m id := Sound.initial id (m.opens id)

/-- What a step shows on a stream keeps its two ends in agreement. -/
theorem Effect.sound {w w' : World} {id : StreamId} {behind : List Frame → Prop}
    {heard : Mode → Frame → Prop} (he : Effect id behind heard w w') (hag : Agree w) (m : Mode) :
    Sound id (m.opens id) ((w' m).view id).half ((w' m.peer).view id).half := by
  have key : ∀ k : Mode,
      Sound id (k.opens id) ((w' k).view id).half ((w' k.peer).view id).half ∧
        Sound id (!k.opens id) ((w' k.peer).view id).half ((w' k).view id).half →
      Sound id (m.opens id) ((w' m).view id).half ((w' m.peer).view id).half := by
    intro k hk
    rcases Mode.eq_or_eq_peer k m with rfl | rfl
    · exact hk.1
    · rw [Mode.peer_peer, Mode.opens_peer]
      exact hk.2
  cases he with
  | quiet h =>
    rw [h m, h m.peer]
    exact hag.sound m id
  | move k hm hp =>
    refine key k ?_
    rw [hp]
    exact (hag.sound k id).move (hag.back k id) hm
  | arrival k f t _ hfront hp ha =>
    refine key k ?_
    have hs := hag.sound k.peer id
    have hb := hag.back k.peer id
    rw [Mode.peer_peer] at hs hb
    have hline : ((w k.peer).view id).half.line =
        f :: (t ++ ((w k.peer).view id).rest) := by
      rw [View.half, View.line, hfront]
      rfl
    obtain ⟨h1, h2⟩ := hs.arrival hb hline ha
    rw [Mode.opens_peer, Bool.not_not] at h2
    rw [Mode.opens_peer] at h1
    rw [hp]
    exact ⟨h2, h1⟩

/-- A step of two live connections keeps them in agreement. -/
theorem Agree.step {w w' : World} {a : Label} (hag : Agree w) (h : w.step a = some w')
    (hc : w'.Connected) : Agree w' := by
  have heffect : ∀ id, Effect id (fun _ => True) (fun _ _ => True) w w' := fun id =>
    step_effect hag h hc (fun _ _ _ => trivial) (fun _ _ _ _ _ _ => trivial)
  refine ⟨fun k => ?_, fun k => ?_, fun m id => (heffect id).sound hag m⟩
  · obtain ⟨-, ⟨m, op, c', rfl, hact, rfl⟩ | ⟨m, f, t, rfl, hp, hw, rfl⟩⟩ := step_cases h hc
    · rcases Mode.eq_or_eq_peer m k with rfl | rfl
      · have hcl := hc k
        rw [update_self] at hcl ⊢
        exact (hag.ok k).act hact hcl
      · rw [update_of_ne (Mode.peer_ne m)]
        exact hag.ok m.peer
    · rcases Mode.eq_or_eq_peer m k with rfl | rfl
      · rw [update_self]
        exact (hag.ok k).onFrame hp (hag.fits hw)
      · rw [update_of_ne (Mode.peer_ne m), update_self]
        exact (hag.ok m.peer).popped t
  · obtain ⟨-, ⟨m, op, c', rfl, hact, rfl⟩ | ⟨m, f, t, rfl, hp, hw, rfl⟩⟩ := step_cases h hc
    · rcases Mode.eq_or_eq_peer m k with rfl | rfl
      · rw [update_self, Active.act_mode hact]
        exact hag.mode k
      · rw [update_of_ne (Mode.peer_ne m)]
        exact hag.mode m.peer
    · rcases Mode.eq_or_eq_peer m k with rfl | rfl
      · rw [update_self,
          (Active.onFrame_arrival ((hag.ok k).views f.streamId) hp (hag.fits hw)).2.mode]
        exact hag.mode k
      · rw [update_of_ne (Mode.peer_ne m), update_self]
        exact hag.mode m.peer

/-- **In every reachable state of two live connections their ends agree.** -/
theorem reach_agree {cfg : Mode → Config} {w : World} (h : (mux cfg).Reach w)
    (hc : w.Connected) : Agree w := by
  refine Lts.Reach.invariant (P := fun w => w.Connected → Agree w) ?_ ?_ h hc
  · rintro w rfl -
    exact Agree.new cfg
  · intro w a w' hw hstep hc'
    exact (hw (step_cases hstep hc').1).step hstep hc'

end Molehill.Mux
