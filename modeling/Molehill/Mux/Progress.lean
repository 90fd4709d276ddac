/-
# The transport comes to rest, and no stream starves

What the two ends do without their users (a receiver polled, a frame started, written or read) is
the transport.  Every transport step lowers what is still to be carried (`World.burden`), so
however it is scheduled the transport comes to rest, and neither connection fails on the way.

At rest nothing is on its way, and between two ends that both have the stream credit is conserved
(`Balanced`): the writer's window, the bytes on their way and the credit coming back are the
reader's window, exactly.  So at rest the reader has every byte that was written, and when it has
taken them the writer may write, or the reader's next poll grants it credit
(`transport_rests`): flow control never deadlocks.
-/
import Mathlib.Algebra.Order.BigOperators.Group.List
import Mathlib.Algebra.Order.Group.Nat
import Mathlib.Data.List.Perm.Basic
import Molehill.Mux.Backlog

namespace Molehill.Mux

open Function Lib

/-! ## 1. Credit is conserved -/

/-- The window of `X`, its bytes on their way and the credit coming back are the window of `Y`,
while both have the stream (and before `Y` has heard of it). -/
def Balanced (X Y : Half) : Prop :=
  X.listed = true → Y.listed = true ∨ (Y.stream = none ∧ Y.reset = false) →
    X.sendWindow + (payload X.line).length + granted Y.line = Y.receiveWindow

namespace Balanced

variable {id : StreamId} {mine : Bool} {X Y X' Y' : Half}

/-- What the balance depends on. -/
theorem congr (h : Balanced X Y) (hl : X'.listed = X.listed) (hs : X'.sendWindow = X.sendWindow)
    (hp : payload X'.line = payload X.line) (hl' : Y'.listed = Y.listed)
    (hn : Y'.stream = none ∧ Y'.reset = false → Y.stream = none ∧ Y.reset = false)
    (hg : granted Y'.line = granted Y.line) (hr : Y'.receiveWindow = Y.receiveWindow) :
    Balanced X' Y' := by
  intro hx hy
  rw [hs, hp, hg, hr]
  exact h (hl ▸ hx) (hy.imp (fun hy => hl' ▸ hy) hn)

/-- Between an end that does not list the stream and another, nothing is asked. -/
theorem of_unlisted (hx : X.listed = false) : Balanced X Y := by
  intro hl
  rw [hx] at hl
  cases hl

/-- Nor between an end and one that had the stream. -/
theorem of_gone (hy : Y.listed = false) (hs : Y.stream.isSome = true ∨ Y.reset = true) :
    Balanced X Y := by
  intro _ hor
  exfalso
  rcases hor with hl | ⟨hn, hr⟩
  · rw [hy] at hl
    cases hl
  · rcases hs with hs | hs
    · rw [hn] at hs
      cases hs
    · rw [hr] at hs
      cases hs

/-- An end whose windows stay, with the same traffic, in both directions. -/
theorem of_same {x x' : Stream} (h : Balanced X Y) (hr : Balanced Y X) (hx : X.stream = some x)
    (hx' : X'.stream = some x') (hl : X'.listed = X.listed)
    (hs : x'.sendWindow = x.sendWindow) (hrw : x'.receiveWindow = x.receiveWindow)
    (hp : payload X'.line = payload X.line) (hg : granted X'.line = granted X.line) :
    Balanced X' Y ∧ Balanced Y X' := by
  constructor
  · refine h.congr hl ?_ hp rfl (fun hn => hn) rfl rfl
    rw [Half.sendWindow, Half.sendWindow, hx, hx']
    exact hs
  · refine hr.congr rfl rfl rfl hl (fun hn => ?_) hg ?_
    · rw [hx'] at hn
      cases hn.1
    · rw [Half.receiveWindow, Half.receiveWindow, hx, hx']
      exact hrw

/-- An operation that issues a frame moves credit from the window to the frame. -/
theorem of_spoke {x x' : Stream} {cfg : Config} {f : Frame} (h : Balanced X Y)
    (hr : Balanced Y X) (hx : X.stream = some x) (hsp : Spoke cfg id x x' f) :
    Balanced { X with stream := some x', line := X.line ++ [f] } Y ∧
      Balanced Y { X with stream := some x', line := X.line ++ [f] } := by
  have hcredit : x'.sendWindow + f.body.length = x.sendWindow ∧
      x'.receiveWindow = x.receiveWindow + f.credit := by
    cases hsp with
    | wrote hw =>
      obtain ⟨-, body, hlen, rfl, rfl⟩ := Stream.pollWrite_spec hw
      exact ⟨Nat.sub_add_cancel hlen, rfl⟩
    | shut hw =>
      obtain ⟨-, rfl, rfl⟩ := Stream.pollShutdown_spec hw
      exact ⟨rfl, rfl⟩
    | granted hw =>
      obtain ⟨-, -, credit, newMax, -, -, rfl, rfl⟩ := Stream.sendWindowUpdate_spec hw
      exact ⟨rfl, rfl⟩
  constructor
  · intro hl hor
    have hold := h hl hor
    rw [Half.sendWindow, hx] at hold
    simp only [Half.sendWindow, Option.map_some, Option.getD_some, payload_append, payload_cons,
      payload_nil, List.append_nil, List.length_append] at hold ⊢
    omega
  · intro hl hor
    have hold := hr hl (hor.imp (fun h => h) fun hn => (by cases hn.1))
    rw [Half.receiveWindow, hx] at hold
    simp only [Half.receiveWindow, Option.map_some, Option.getD_some, granted_append,
      granted_cons, granted_nil, Nat.add_zero] at hold ⊢
    omega

/-- **A move keeps the balance**, in both directions. -/
theorem move {cfg : Config} {behind : List Frame → Prop} {V V' W : View}
    (hs : Sound id mine V.half W.half) (hsr : Sound id (!mine) W.half V.half) (hW : W.Ok id)
    (h : Balanced V.half W.half) (hr : Balanced W.half V.half)
    (hm : Move cfg id mine behind V V') :
    Balanced V'.half W.half ∧ Balanced W.half V'.half := by
  cases hm with
  | same => exact ⟨h, hr⟩
  | opened hn hmine =>
    subst hmine
    have hw : W.stream = none := by
      cases hw : W.stream with
      | none => rfl
      | some y =>
        have hopen := hsr.opener (by rw [View.half, hw]; rfl) rfl
        rw [View.half, hn] at hopen
        cases hopen
    have hlist : W.half.listed = false := by
      cases hl : W.listed with
      | false => exact hl
      | true =>
        have hk := hW.known hl
        rw [hw] at hk
        cases hk
    refine ⟨fun _ _ => ?_, of_unlisted hlist⟩
    have hline : V.half.line = [] := (hs.empty hn hw).1
    have hback : W.half.line = [] := (hsr.empty hw hn).1
    change defaultCredit + (payload V.half.line).length + granted W.half.line = _
    rw [hline, hback, Half.receiveWindow, View.half, hw]
    rfl
  | spoke hx hh hsp =>
    rename_i s s' f
    have hhalf : View.half { V with
        stream := some s', rest := V.rest ++ [f], issued := V.issued ++ [f] } =
          { V.half with stream := some s', line := V.half.line ++ [f] } := by
      simp [View.half, View.line]
    rw [hhalf]
    exact of_spoke h hr hx hsp
  | heard cap hx => exact of_same h hr hx rfl rfl rfl rfl rfl rfl
  | looked hx => exact of_same h hr hx rfl rfl rfl rfl rfl rfl
  | released hx => exact of_same h hr hx rfl rfl rfl rfl rfl rfl
  | queued hx => exact of_same h hr hx rfl rfl rfl rfl rfl rfl
  | @overtook s a p r f hx hrest _ hmem hb =>
    have hline : V.half.line = (V.front ++ a) ++ (p ++ f :: r) := by
      simp [View.half, View.line, hrest]
    have hk : Kind id f := hs.kinds f (by rw [hline]; simp)
    have hp := hk.of_isBookkeeping hb
    have ht := SameTraffic.overtake (V.front ++ a) p r (hk.of_not_payload hp).1 hp
    rw [← hline] at ht
    refine of_same h hr hx rfl rfl rfl rfl ?_ ?_
    · rw [← ht.payload]
      simp [View.half, View.line]
    · rw [← ht.granted]
      simp [View.half, View.line]
  | removed => exact ⟨of_unlisted rfl, of_gone rfl (Or.inl rfl)⟩
  | @started f r hrest =>
    have hhalf : View.half { V with front := V.front ++ [f], left := V.left ++ [f], rest := r } =
        V.half := by
      simp [View.half, View.line, hrest]
    rw [hhalf]
    exact ⟨h, hr⟩

/-- The balance between an end and the frame at the head of the line to it. -/
theorem of_arrived {f : Frame} {r : List Frame} {y y' : Stream} (h : Balanced X Y)
    (hr : Balanced Y X) (hline : X.line = f :: r) (hy : Y.stream = some y)
    (hl : Y.listed = true)
    (hrecv : y'.receiveWindow + f.body.length = y.receiveWindow)
    (hsend : y'.sendWindow = y.sendWindow + f.credit) :
    Balanced { X with line := r } { Y with stream := some y' } ∧
      Balanced { Y with stream := some y' } { X with line := r } := by
  constructor
  · intro hx _
    have hold := h hx (Or.inl hl)
    rw [Half.receiveWindow, hy, hline, payload_cons, List.length_append] at hold
    simp only [Half.receiveWindow, Option.map_some, Option.getD_some] at hold ⊢
    rw [Half.sendWindow] at hold ⊢
    dsimp only
    omega
  · intro _ hor
    have hold := hr hl hor
    rw [Half.sendWindow, hy, hline, granted_cons] at hold
    simp only [Half.sendWindow, Option.map_some, Option.getD_some] at hold ⊢
    rw [Half.receiveWindow] at hold ⊢
    dsimp only
    omega

/-- **An arrival keeps the balance**, in both directions. -/
theorem arrival {f : Frame} {r : List Frame} {V V' : View} (hs : Sound id mine X V.half)
    (hsr : Sound id (!mine) V.half X) (hV : V.Ok id) (h : Balanced X V.half)
    (hr : Balanced V.half X) (hline : X.line = f :: r) (ha : Arrival id V f V') :
    Balanced { X with line := r } V'.half ∧ Balanced V'.half { X with line := r } := by
  have hmem : f ∈ X.line := by
    rw [hline]
    exact List.mem_cons_self
  cases ha with
  | ignored hl hsyn =>
    refine ⟨?_, of_unlisted hl⟩
    by_cases hseen : V.stream.isSome = true ∨ V.reset = true
    · exact of_gone hl hseen
    · -- before the end has the stream, the first payload is the opening frame
      have hn : V.stream = none := by
        simpa using fun hn => hseen (Or.inl (Option.isSome_iff_ne_none.mpr hn))
      have hrt : V.reset = false := by simpa using fun hrt => hseen (Or.inr hrt)
      have hbody : f.body = [] := by
        cases hx : X.stream with
        | none =>
          rw [hs.silent hx f hmem]
          rfl
        | some x =>
          have hp : f.isPayload = false := by
            by_contra hp
            have hp : f.isPayload = true := by simpa using hp
            rcases hs.synUnseen x hx hn hrt with ⟨-, -, hnil⟩ | ⟨-, g, t, hcons, hg, -⟩
            · rw [hline, List.filter_cons_of_pos hp] at hnil
              cases hnil
            · rw [hline, List.filter_cons_of_pos hp] at hcons
              cases hcons
              rw [hsyn] at hg
              cases hg
          exact ((hs.kinds f hmem).of_not_payload hp).1
      refine h.congr rfl rfl ?_ rfl (fun hn => hn) rfl rfl
      rw [hline, payload_cons, hbody, List.nil_append]
  | payload hl hy hw => exact of_arrived h hr hline hy hl (Nat.sub_add_cancel hw) rfl
  | credit hl hy => exact of_arrived h hr hline hy hl rfl rfl
  | close hl hy => exact of_arrived h hr hline hy hl rfl rfl
  | reset hl hy => exact of_arrived h hr hline hy hl rfl rfl
  | accepted hn hb =>
    obtain ⟨-, -, hrt, hback, x, hx⟩ := hs.opening hsr hline rfl
    constructor
    · intro hl _
      have hold := h hl (Or.inr ⟨hn, hrt⟩)
      have hrecv : V.half.receiveWindow = defaultCredit := by
        rw [Half.receiveWindow, View.half, hn]
        rfl
      rw [hrecv, hline, payload_cons, hback, List.length_append, granted_nil] at hold
      change X.sendWindow + (payload r).length + granted V.half.line = defaultCredit - _
      rw [hback, granted_nil]
      dsimp only at hold
      omega
    · intro _ _
      obtain ⟨hwu, hfresh⟩ := hsr.unread hn
      have hgranted : granted r = 0 := granted_eq_zero fun g hg => by
        have hg : g ∈ X.line := by
          rw [hline]
          exact List.mem_cons_of_mem _ hg
        exact (hs.kinds g hg).credit_of_data (hwu g hg)
      change defaultCredit + (payload V.half.line).length + granted r = X.receiveWindow
      rw [hback, hgranted, Half.receiveWindow, hx]
      exact (hfresh x hx).2.1.symm
  | refused hn =>
    have hl : V.listed = false := by
      cases hl : V.listed with
      | false => rfl
      | true =>
        have hk := hV.known hl
        rw [hn] at hk
        cases hk
    exact ⟨of_gone hl (Or.inr rfl), of_unlisted hl⟩

end Balanced

/-- Every stream is in balance, both ways. -/
def World.Balanced (w : World) : Prop :=
  ∀ m id, Mux.Balanced ((w m).view id).half ((w m.peer).view id).half

/-- What a step shows on a stream keeps it in balance. -/
theorem Effect.balanced {w w' : World} {id : StreamId} {behind : List Frame → Prop}
    {heard : Mode → Frame → Prop} (he : Effect id behind heard w w') (hag : Agree w)
    (hb : w.Balanced) (m : Mode) :
    Balanced ((w' m).view id).half ((w' m.peer).view id).half := by
  have hback : ∀ k : Mode, Balanced ((w k.peer).view id).half ((w k).view id).half := fun k => by
    have hk := hb k.peer id
    rwa [Mode.peer_peer] at hk
  have key : ∀ k : Mode,
      Balanced ((w' k).view id).half ((w' k.peer).view id).half ∧
        Balanced ((w' k.peer).view id).half ((w' k).view id).half →
      Balanced ((w' m).view id).half ((w' m.peer).view id).half := by
    intro k hk
    rcases Mode.eq_or_eq_peer k m with rfl | rfl
    · exact hk.1
    · rw [Mode.peer_peer]
      exact hk.2
  cases he with
  | quiet h =>
    rw [h m, h m.peer]
    exact hb m id
  | move k hm hp =>
    refine key k ?_
    rw [hp]
    exact Balanced.move (hag.sound k id) (hag.back k id) ((hag.ok k.peer).views id) (hb k id)
      (hback k) hm
  | arrival k f t _ hfront hp ha =>
    refine key k ?_
    have hs := hag.sound k.peer id
    have hsr := hag.back k.peer id
    have hline : ((w k.peer).view id).half.line = f :: (t ++ ((w k.peer).view id).rest) := by
      rw [View.half, View.line, hfront]
      rfl
    rw [Mode.peer_peer] at hs hsr
    obtain ⟨h1, h2⟩ := Balanced.arrival hs hsr ((hag.ok k).views id) (hback k) (hb k id) hline ha
    rw [hp]
    exact ⟨h2, h1⟩

/-- **In every reachable state of two live connections credit is conserved.** -/
theorem reach_balanced {cfg : Mode → Config} {w : World} (h : (mux cfg).Reach w)
    (hc : w.Connected) : Agree w ∧ w.Balanced := by
  refine Lts.Reach.invariant (P := fun w => w.Connected → Agree w ∧ w.Balanced) ?_ ?_ h hc
  · rintro w rfl -
    exact ⟨Agree.new cfg, fun m id => Balanced.of_unlisted rfl⟩
  · intro w a w' hw hstep hc'
    obtain ⟨hag, hb⟩ := hw (step_cases hstep hc').1
    refine ⟨hag.step hstep hc', fun m id => ?_⟩
    have heffect : Effect id (fun _ => True) (fun _ _ => True) w w' :=
      step_effect hag hstep hc' (fun _ _ _ => trivial) (fun _ _ _ _ _ _ => trivial)
    exact heffect.balanced hag hb m

/-! ## 2. What is still to be carried -/

/-- The answer a frame may call for: an opening frame may be refused. -/
def Frame.answer (f : Frame) : Nat := if f.syn then 4 else 0

/-- What is left to do for frames that have `stage` steps before them. -/
def toCarry (stage : Nat) (l : List Frame) : Nat := (l.map fun f => stage + f.answer).sum

@[simp] theorem toCarry_nil (stage : Nat) : toCarry stage [] = 0 := rfl

@[simp] theorem toCarry_cons (stage : Nat) (f : Frame) (l : List Frame) :
    toCarry stage (f :: l) = stage + f.answer + toCarry stage l := by
  rw [toCarry, List.map_cons, List.sum_cons]
  rfl

@[simp] theorem toCarry_append (stage : Nat) (l l' : List Frame) :
    toCarry stage (l ++ l') = toCarry stage l + toCarry stage l' := by
  rw [toCarry, List.map_append, List.sum_append]
  rfl

/-- What is left to do for one receiver: its commands, and its end when the handle is gone. -/
def Active.receiverBurden (c : Active) (id : StreamId) : Nat :=
  match c.ends id with
  | some s => toCarry 4 (s.queued id) + if s.held then 0 else 4
  | none => 0

/-- What is left to do for a connection's frames. -/
def Active.burden (c : Active) : Nat :=
  (c.receivers.map c.receiverBurden).sum + toCarry 3 c.backlog + toCarry 2 c.socket.toList +
    toCarry 1 c.wire

def World.burden (w : World) : Nat := (w .client).burden + (w .server).burden

/-- The steps that need no user. -/
def Label.transport : Label → Bool
  | .act _ .queue => true
  | .act _ .start => true
  | .act _ .flush => true
  | .receive _ => true
  | _ => false

/-- One summand is smaller by `d`, and none is larger. -/
theorem sum_map_add_le {α : Type*} {l : List α} {f g : α → Nat} {a : α} {d : Nat}
    (hle : ∀ b ∈ l, f b ≤ g b) (ha : a ∈ l) (hd : f a + d ≤ g a) :
    (l.map f).sum + d ≤ (l.map g).sum := by
  induction l with
  | nil => cases ha
  | cons b l ih =>
    rw [List.map_cons, List.sum_cons, List.map_cons, List.sum_cons]
    have htail : (l.map f).sum ≤ (l.map g).sum :=
      List.sum_le_sum fun c hc => hle c (List.mem_cons_of_mem b hc)
    rcases List.mem_cons.mp ha with rfl | ha
    · omega
    · have hb := hle b List.mem_cons_self
      have hl := ih (fun c hc => hle c (List.mem_cons_of_mem b hc)) ha
      omega

namespace Active

variable {c c' : Active} {id k : StreamId}

theorem receiverBurden_of_some {s : Stream} (h : c.ends id = some s) :
    c.receiverBurden id = toCarry 4 (s.queued id) + if s.held then 0 else 4 := by
  rw [receiverBurden, h]

/-- A change of an end that leaves its channel and its handle alone. -/
theorem receiverBurden_congr {s s' : Stream} (hs : c.ends k = some s)
    (hs' : c'.ends = update c.ends k (some s')) (hq : s'.channel = s.channel)
    (hh : s'.held = s.held) (id : StreamId) : c'.receiverBurden id = c.receiverBurden id := by
  by_cases hid : id = k
  · subst hid
    have hnew : c'.ends id = some s' := by rw [hs', update_self]
    rw [receiverBurden_of_some hnew, receiverBurden_of_some hs, hh, Stream.queued, hq]
    rfl
  · have hsame : c'.ends id = c.ends id := by rw [hs', update_of_ne hid]
    rw [receiverBurden, receiverBurden, hsame]

/-- Connections with the same receivers and ends. -/
theorem receivers_congr (he : c'.ends = c.ends) (hr : c'.receivers = c.receivers) :
    c'.receivers.map c'.receiverBurden = c.receivers.map c.receiverBurden := by
  rw [hr]
  refine List.map_congr_left fun id _ => ?_
  rw [receiverBurden, receiverBurden, he]

/-- What a stream's end answers is one frame at most. -/
theorem toCarry_dropFrame (id : StreamId) (st : State) :
    toCarry 3 (dropFrame id st).toList ≤ 3 := by
  cases st with
  | opened _ => exact Nat.le_refl 3
  | recvClosed => exact Nat.le_refl 3
  | sendClosed => exact Nat.zero_le 3
  | closed => exact Nat.zero_le 3

/-- **A step of the queues** lowers the burden. -/
theorem burden_queue (h : c.queueReceiverFrames = some c') : c'.burden < c.burden := by
  obtain ⟨i, k, answer, -, hk, ha, rfl⟩ := queueReceiverFrames_cases h
  obtain ⟨s, hs, ⟨cmd, tail, hc, rfl⟩ | ⟨hc, hh, rfl⟩⟩ := pollNext_cases ha
  · have hmem : k ∈ c.receivers := List.mem_of_getElem? hk
    have hqueued : s.queued k = cmd.frame k :: s.popped.queued k := by
      rw [Stream.queued, hc, List.map_cons, Stream.queued, Stream.popped, hc]
      rfl
    -- the command leaves its channel, whatever queue it goes to
    have hsum : (c.receivers.map (c.setEnd k s.popped).receiverBurden).sum +
        (4 + (cmd.frame k).answer) ≤ (c.receivers.map c.receiverBurden).sum := by
      have hself : (c.setEnd k s.popped).receiverBurden k + (4 + (cmd.frame k).answer) =
          c.receiverBurden k := by
        rw [receiverBurden_of_some hs, receiverBurden_of_some (update_self ..), hqueued,
          toCarry_cons]
        have hheld : s.popped.held = s.held := rfl
        rw [hheld]
        omega
      refine sum_map_add_le (fun id _ => ?_) hmem (Nat.le_of_eq hself)
      by_cases hid : id = k
      · subst hid
        omega
      · rw [receiverBurden, receiverBurden, setEnd_ends, update_of_ne hid]
    have hpop : c.popCommand k = c.setEnd k s.popped := by rw [popCommand, hs]
    have hstep : ∀ c' : Active, c'.ends = (c.setEnd k s.popped).ends →
        c'.receivers = c.receivers → c'.socket = c.socket → c'.wire = c.wire →
        toCarry 3 c'.backlog = toCarry 3 c.backlog + (3 + (cmd.frame k).answer) →
        c'.burden < c.burden := by
      intro c' he hr hso hw hb
      have hsame : c'.receivers.map c'.receiverBurden =
          c.receivers.map (c.setEnd k s.popped).receiverBurden :=
        receivers_congr (c := c.setEnd k s.popped) he hr
      rw [burden, burden, hsame, hso, hw, hb]
      omega
    have hcontrol : ∀ f : Frame,
        toCarry 3 (c.pendingReadFrame.toList ++ ((c.controlFrames ++ [f]) ++ c.pendingFrames)) =
          toCarry 3 c.backlog + (3 + f.answer) := by
      intro f
      simp only [backlog, toCarry_append, toCarry_cons, toCarry_nil]
      omega
    cases cmd with
    | sendFrame f =>
      rw [takeCommand, hpop]
      split
      case isTrue => exact hstep _ rfl rfl rfl rfl (hcontrol f)
      case isFalse =>
        refine hstep _ rfl rfl rfl rfl ?_
        change toCarry 3 (c.pendingReadFrame.toList ++ (c.controlFrames ++ (c.pendingFrames ++ [f])))
          = toCarry 3 c.backlog + (3 + f.answer)
        simp only [backlog, toCarry_append, toCarry_cons, toCarry_nil]
        omega
    | closeStream ack =>
      rw [takeCommand, hpop]
      exact hstep _ rfl rfl rfl rfl (hcontrol (.closeStream k ack))
  · -- the receiver goes, and the stream answers with one frame at most
    have hown : c.receiverBurden k = 4 := by
      rw [receiverBurden_of_some hs, Stream.queued, hc, hh]
      rfl
    have herase : (c.receivers.map c.receiverBurden).sum =
        4 + ((c.receivers.eraseIdx i).map c.receiverBurden).sum := by
      obtain ⟨hi, hget⟩ := List.getElem?_eq_some_iff.mp hk
      have hperm := (List.getElem_cons_eraseIdx_perm hi).map c.receiverBurden
      rw [← hperm.sum_eq, List.map_cons, List.sum_cons, hget, hown]
    have hstep : ∀ c' : Active, (∀ id, c'.receiverBurden id ≤ c.receiverBurden id) →
        c'.receivers = c.receivers.eraseIdx i → c'.socket = c.socket → c'.wire = c.wire →
        toCarry 3 c'.backlog ≤ toCarry 3 c.backlog + 3 → c'.burden < c.burden := by
      intro c' he hr hso hw hb
      have hle : (c'.receivers.map c'.receiverBurden).sum ≤
          ((c.receivers.eraseIdx i).map c.receiverBurden).sum := by
        rw [hr]
        exact List.sum_le_sum fun id _ => he id
      rw [burden, burden, hso, hw, herase]
      omega
    rw [takeCommand, onDropStream, hs]
    dsimp only
    split
    · refine hstep _ (fun id => ?_) rfl rfl rfl ?_
      · have hends : ∀ c' : Active,
            c'.ends = update c.ends k (some { s with state := s.state.update .closed }) →
              c'.receiverBurden id = c.receiverBurden id := fun c' h =>
          receiverBurden_congr hs h rfl rfl id
        exact Nat.le_of_eq (hends _ rfl)
      · change toCarry 3 (c.pendingReadFrame.toList ++
          ((c.controlFrames ++ (dropFrame k s.state).toList) ++ c.pendingFrames)) ≤ _
        simp only [backlog, toCarry_append]
        have := toCarry_dropFrame k s.state
        omega
    · exact hstep _ (fun id => Nat.le_refl _) rfl rfl rfl (Nat.le_add_right _ 3)

/-- **A frame that is started** is one step further. -/
theorem burden_start (h : c.startFrame = some c') : c'.burden < c.burden := by
  rw [startFrame] at h
  split at h
  case h_1 => cases h
  case h_2 hso =>
    obtain ⟨⟨f, c1⟩, hn, rfl⟩ := Option.map_eq_some_iff.mp h
    have hbacklog := (nextQueuedFrame_cases hn).1
    obtain ⟨-, he, -, hw, -⟩ := nextQueuedFrame_cases hn
    have hrecv : c1.receivers = c.receivers := by
      rw [nextQueuedFrame] at hn
      split at hn <;> cases hn <;> rfl
    have hsame := receivers_congr he hrecv
    have hr : ({ c1 with socket := some f, left := c1.left ++ [f] } : Active).receivers.map
        ({ c1 with socket := some f, left := c1.left ++ [f] } : Active).receiverBurden =
          c1.receivers.map c1.receiverBurden := receivers_congr rfl rfl
    rw [burden, burden, hr, hsame, hso, hbacklog]
    change _ + toCarry 3 c1.backlog + toCarry 2 [f] + toCarry 1 c1.wire < _
    rw [hw]
    simp only [Option.toList_none, toCarry_cons, toCarry_nil]
    omega

/-- A frame that is written is one step further. -/
theorem burden_flush (h : c.flush = some c') : c'.burden < c.burden := by
  obtain ⟨f, hf, rfl⟩ := Option.map_eq_some_iff.mp h
  have hr : ({ c with socket := none, wire := c.wire ++ [f] } : Active).receivers.map
      ({ c with socket := none, wire := c.wire ++ [f] } : Active).receiverBurden =
        c.receivers.map c.receiverBurden := receivers_congr rfl rfl
  have hb : ({ c with socket := none, wire := c.wire ++ [f] } : Active).backlog = c.backlog := rfl
  rw [burden, burden, hr, hb, hf]
  simp only [Option.toList_some, Option.toList_none, toCarry_append, toCarry_cons, toCarry_nil]
  omega

/-- A frame that arrives changes no channel and drops no handle. -/
theorem burden_setEnd {s s' : Stream} (hs : c.ends k = some s) (hq : s'.channel = s.channel)
    (hh : s'.held = s.held) : (c.setEnd k s').burden = c.burden := by
  have hsame : (c.setEnd k s').receivers.map (c.setEnd k s').receiverBurden =
      c.receivers.map c.receiverBurden :=
    List.map_congr_left fun id _ => receiverBurden_congr hs rfl hq hh id
  rw [burden, burden, hsame]
  rfl

/-- A stream that is accepted has nothing to send yet. -/
theorem burden_addStream {s' : Stream} (hn : c.ends k = none) (hq : s'.channel = [])
    (hh : s'.held = true) : (c.addStream k s').burden = c.burden := by
  have hsame : ∀ id, (c.addStream k s').receiverBurden id = c.receiverBurden id := by
    intro id
    by_cases hid : id = k
    · subst hid
      have hnew : (c.addStream id s').ends id = some s' := update_self ..
      rw [receiverBurden_of_some hnew, Stream.queued, hq, hh, receiverBurden, hn]
      rfl
    · have hold : (c.addStream k s').ends id = c.ends id := update_of_ne hid ..
      rw [receiverBurden, receiverBurden, hold]
  have hown : c.receiverBurden k = 0 := by rw [receiverBurden, hn]
  have hsum : ((c.addStream k s').receivers.map (c.addStream k s').receiverBurden).sum =
      (c.receivers.map c.receiverBurden).sum := by
    rw [List.map_congr_left fun id _ => hsame id]
    change ((c.receivers ++ [k]).map c.receiverBurden).sum = _
    rw [List.map_append, List.sum_append, List.map_singleton, hown]
    rfl
  rw [burden, burden, hsum]
  rfl

/-- A refusal takes the slot of the pending replies. -/
theorem burden_refused (hp : c.pendingReadFrame = none) :
    ({ c with
        pendingReadFrame := some (.reset k)
        issued := c.issued ++ [.reset k]
        resets := k :: c.resets } : Active).burden = c.burden + 3 := by
  have hsame : ({ c with
      pendingReadFrame := some (.reset k)
      issued := c.issued ++ [.reset k]
      resets := k :: c.resets } : Active).receivers.map
        ({ c with
          pendingReadFrame := some (.reset k)
          issued := c.issued ++ [.reset k]
          resets := k :: c.resets } : Active).receiverBurden =
      c.receivers.map c.receiverBurden := receivers_congr rfl rfl
  rw [burden, burden, hsame]
  have hanswer : (Frame.reset k).answer = 0 := rfl
  simp only [backlog, hp, Option.toList_some, Option.toList_none, toCarry_append, toCarry_cons,
    toCarry_nil, hanswer]
  omega

/-- **A frame that arrives** asks for less than it was. -/
theorem onFrame_burden {f : Frame} (hok : (c.view k).Ok k) (hp : c.pendingReadFrame = none)
    (hf : Fits k (c.mode.opens k) (c.ends k) f) :
    (c.onFrame f).burden < c.burden + (1 + f.answer) := by
  by_cases hsyn : f.syn = true
  case pos =>
    obtain ⟨hm, hn, hb⟩ := hf.syn hsyn
    have hl : k ∉ c.streams := by
      intro hl
      have hk : (c.ends k).isSome = true := hok.known (decide_eq_true hl)
      rw [hn] at hk
      cases hk
    rw [Frame.answer, if_pos hsyn]
    cases hf.kind with
    | payload syn ack body =>
      cases hsyn
      rw [onFrame_syn hm hl hb]
      split
      case isTrue =>
        rw [burden_refused hp]
        omega
      case isFalse =>
        rw [burden_addStream hn rfl rfl]
        omega
    | credit => cases hsyn
    | close => cases hsyn
    | reset => cases hsyn
  case neg =>
    have hsyn : f.syn = false := by simpa using hsyn
    have hsame : (c.onFrame f).burden = c.burden := by
      by_cases hl : k ∈ c.streams
      case neg => rw [onFrame_unlisted hf.kind hl hsyn]
      case pos =>
        obtain ⟨s, hs⟩ := Option.isSome_iff_exists.mp (hok.known (decide_eq_true hl))
        cases hf.kind with
        | payload syn ack body =>
          cases hsyn
          rw [onFrame_payload hs hl (hf.window s hs)]
          exact burden_setEnd hs rfl rfl
        | credit ack n =>
          rw [onFrame_credit hs hl (hf.credit s hs)]
          exact burden_setEnd hs rfl rfl
        | close ack =>
          rw [onFrame_close hs hl]
          exact burden_setEnd hs rfl rfl
        | reset =>
          rw [onFrame_reset hs hl]
          exact burden_setEnd hs rfl rfl
    omega

/-- A frame that the peer reads is off the wire. -/
theorem burden_popped {f : Frame} {t : List Frame} (hw : c.wire = f :: t) :
    ({ c with wire := t } : Active).burden + (1 + f.answer) = c.burden := by
  have hsame : ({ c with wire := t } : Active).receivers.map
      ({ c with wire := t } : Active).receiverBurden = c.receivers.map c.receiverBurden :=
    receivers_congr rfl rfl
  have hb : ({ c with wire := t } : Active).backlog = c.backlog := rfl
  rw [burden, burden, hsame, hb, hw, toCarry_cons]
  dsimp only
  omega

end Active

/-! ## 3. The transport comes to rest -/

/-- The burden of both ends, from either one. -/
theorem World.burden_eq (w : World) (m : Mode) :
    w.burden = (w m).burden + (w m.peer).burden := by
  cases m with
  | client => rfl
  | server => exact Nat.add_comm _ _

/-- **A step of the transport** fails neither connection and lowers the burden. -/
theorem transport_step {w w' : World} {a : Label} (hag : Agree w) (hc : w.Connected)
    (ha : a.transport = true) (h : w.step a = some w') : w'.Connected ∧ w'.burden < w.burden := by
  cases a with
  | act m op =>
    rw [World.step, World.act, hc m] at h
    obtain ⟨c', hact, rfl⟩ := Option.map_eq_some_iff.mp h
    have hop : op ≠ .newOutbound := by
      rintro rfl
      cases ha
    have hcl : c'.closed = false := (Active.act_framed hact hop).closed.trans (hc m)
    have hlow : c'.burden < (w m).burden := by
      cases op with
      | queue => exact Active.burden_queue hact
      | start => exact Active.burden_start hact
      | flush => exact Active.burden_flush hact
      | newOutbound => cases ha
      | write => cases ha
      | read => cases ha
      | endRead => cases ha
      | shutdown => cases ha
      | dropHandle => cases ha
    constructor
    · intro k
      rcases Mode.eq_or_eq_peer m k with rfl | rfl
      · rw [update_self]
        exact hcl
      · rw [update_of_ne (Mode.peer_ne m)]
        exact hc m.peer
    · rw [World.burden_eq _ m, World.burden_eq w m, update_self, update_of_ne (Mode.peer_ne m)]
      omega
  | receive m =>
    rw [World.step, World.receive] at h
    split at h
    · cases h
    next hm =>
    obtain ⟨-, hp⟩ : (w m).closed = false ∧ (w m).pendingReadFrame = none := by simpa using hm
    split at h
    case h_1 f t hw =>
      cases h
      have hok := (hag.ok m).views f.streamId
      have hcl : ((w m).onFrame f).closed = false :=
        (Active.onFrame_arrival hok hp (hag.fits hw)).2.closed.trans (hc m)
      constructor
      · intro k
        rcases Mode.eq_or_eq_peer m k with rfl | rfl
        · rw [update_self]
          exact hcl
        · rw [update_of_ne (Mode.peer_ne m), update_self]
          exact hc m.peer
      · have hlow := Active.onFrame_burden hok hp (hag.fits hw)
        have hpop := Active.burden_popped hw
        rw [World.burden_eq _ m, World.burden_eq w m, update_self,
          update_of_ne (Mode.peer_ne m), update_self, ← hpop]
        dsimp only
        omega
    case h_2 =>
      split at h
      case isTrue hcl =>
        rw [hc m.peer] at hcl
        cases hcl
      case isFalse => cases h

/-- Where no step of the transport is left, the connections have nothing left to do. -/
theorem quiescent_of_rest {w : World} (h : ∀ a : Label, a.transport = true → w.step a = none) :
    w.Quiescent := fun m =>
  ⟨h (.act m .queue) rfl, h (.act m .start) rfl, h (.act m .flush) rfl, h (.receive m) rfl⟩

/-- **The writer's end `x` and the reader's end `y` at rest**: everything written has arrived, the
writer has the reader's whole window, and when the reader has taken everything, either its next
poll grants credit or the writer may write more than half of the reader's largest window. -/
structure Rested (id : StreamId) (x y : Stream) : Prop where
  arrived : y.got = x.written
  window : x.sendWindow = y.receiveWindow
  moves : y.buffer = [] → y.state.canRead = true → x.state.canWrite = true →
    (∀ cfg accumulated fast, (y.sendWindowUpdate cfg accumulated fast id).2.isSome = true) ∨
      (y.maxReceiveWindow / 2 < x.sendWindow ∧
        ∀ buf, buf ≠ [] → ∃ x' f, x.pollWrite cfg id buf = some (x', f) ∧ f.body ≠ [])

/-- A flag changes no body. -/
theorem Stream.addFlag_body (s : Stream) (f : Frame) : (s.addFlag f).2.body = f.body := by
  rw [addFlag_eq]

/-- An end with credit and an empty channel takes bytes. -/
theorem Stream.pollWrite_takes {cfg : Config} {id : StreamId} {x : Stream} {buf : List UInt8}
    (hch : x.channel = []) (hw : x.state.canWrite = true) (hs : 0 < x.sendWindow)
    (hb : buf ≠ []) : ∃ x' f, x.pollWrite cfg id buf = some (x', f) ∧ f.body ≠ [] := by
  have hdepth : ¬ channelDepth ≤ x.channel.length := by
    rw [hch]
    decide
  obtain ⟨x', f, hres⟩ : ∃ x' f, x.pollWrite cfg id buf = some (x', f) := by
    rw [pollWrite, if_neg hdepth, hw, if_neg (by simp), if_neg (Nat.ne_of_gt hs)]
    exact ⟨_, _, rfl⟩
  refine ⟨x', f, hres, ?_⟩
  have hbody : f.body = buf.take (min (min x.sendWindow buf.length) cfg.splitSendSize) := by
    rw [pollWrite, if_neg hdepth, hw, if_neg (by simp), if_neg (Nat.ne_of_gt hs)] at hres
    cases hres
    exact addFlag_body _ _
  have hpos : 0 < min (min x.sendWindow buf.length) cfg.splitSendSize :=
    Nat.lt_min.mpr ⟨Nat.lt_min.mpr ⟨hs, List.length_pos_iff.mpr hb⟩, cfg.split_pos⟩
  rw [hbody, ← List.length_pos_iff, List.length_take]
  exact Nat.lt_min.mpr ⟨hpos, List.length_pos_iff.mpr hb⟩

/-- An end with room for a grant in its channel and half its window used up grants. -/
theorem Stream.sendWindowUpdate_grants {id : StreamId} {y : Stream} (hch : y.channel = [])
    (hr : y.state.canRead = true) (hb : y.buffer = [])
    (hw : y.maxReceiveWindow / 2 ≤ y.maxReceiveWindow - y.receiveWindow) (cfg : Config)
    (accumulated : Nat) (fast : Bool) :
    (y.sendWindowUpdate cfg accumulated fast id).2.isSome = true := by
  have hdepth : ¬ channelDepth ≤ y.channel.length := by
    rw [hch]
    decide
  have hgrant : ¬ y.maxReceiveWindow - y.receiveWindow - y.buffer.length <
      y.maxReceiveWindow / 2 := by
    rw [hb, List.length_nil]
    exact Nat.not_lt.mpr hw
  rw [sendWindowUpdate, hr, if_neg (by simp), if_neg hdepth, nextWindowUpdate, if_neg hgrant]
  rfl

/-- With nothing on its way an end's channel is empty. -/
theorem Active.channel_of_line_nil {c : Active} {id : StreamId} {s : Stream}
    (hs : c.ends id = some s) (h : (c.view id).line = []) : s.channel = [] := by
  have hqueued : c.queuedOf id = [] := (List.append_eq_nil_iff.mp (List.append_eq_nil_iff.mp h).2).2
  rw [queuedOf_of_some hs, Stream.queued] at hqueued
  exact List.map_eq_nil_iff.mp hqueued

/-- **Two ends of a stream at rest.** -/
theorem rested {cfg : Mode → Config} {w : World} (h : (mux cfg).Reach w) (hc : w.Connected)
    (hq : w.Quiescent) {m : Mode} {id : StreamId} {x y : Stream} (hx : (w m).ends id = some x)
    (hxl : id ∈ (w m).streams) (hy : (w m.peer).ends id = some y)
    (hyl : id ∈ (w m.peer).streams) : Rested id x y := by
  obtain ⟨hag, hb⟩ := reach_balanced h hc
  have hmet : ∀ k, (w k).Metered := fun k => (mux_backed h k (hc k)).metered
  have hlx : ((w m).view id).line = [] := hq.line_nil hc hag hmet m id
  have hly : ((w m.peer).view id).line = [] := hq.line_nil hc hag hmet m.peer id
  have hxl' : ((w m).view id).half.listed = true := decide_eq_true hxl
  have hyl' : ((w m.peer).view id).half.listed = true := decide_eq_true hyl
  have hchx : x.channel = [] := Active.channel_of_line_nil hx hlx
  have hchy : y.channel = [] := Active.channel_of_line_nil hy hly
  have hwin : x.sendWindow = y.receiveWindow := by
    have hbal := hb m id hxl' (Or.inl hyl')
    have hsx : ((w m).view id).half.stream = some x := hx
    have hsy : ((w m.peer).view id).half.stream = some y := hy
    have hl : ((w m).view id).half.line = [] := hlx
    have hr : ((w m.peer).view id).half.line = [] := hly
    rw [Half.sendWindow, Half.receiveWindow, hsx, hsy, hl, hr] at hbal
    exact hbal
  refine ⟨?_, hwin, fun hbuf hread hwrite => ?_⟩
  · have hseen := ((hag.sound m id).seen x y hx hy).2 hyl'
    have hline : ((w m).view id).half.line = [] := hlx
    rw [hline, payload_nil, List.append_nil] at hseen
    exact hseen
  · by_cases hgrant : y.maxReceiveWindow / 2 ≤ y.maxReceiveWindow - y.receiveWindow
    · exact Or.inl (Stream.sendWindowUpdate_grants hchy hread hbuf hgrant)
    · have hhalf : y.maxReceiveWindow / 2 < x.sendWindow := by omega
      exact Or.inr ⟨hhalf, fun buf hne =>
        Stream.pollWrite_takes hchx hwrite (Nat.zero_lt_of_lt hhalf) hne⟩

/-- The pair of connections while both live, under the transport's steps. -/
theorem transport_live {cfg : Mode → Config} (w : World) (a : Label) (w' : World)
    (h : (mux cfg).Reach w ∧ w.Connected) (ha : a.transport = true) (hs : w.step a = some w') :
    ((mux cfg).Reach w' ∧ w'.Connected) ∧ w'.burden < w.burden := by
  obtain ⟨hr, hc⟩ := h
  obtain ⟨hc', hlt⟩ := transport_step (reach_agree hr hc) hc ha hs
  exact ⟨⟨hr.step hs, hc'⟩, hlt⟩

/-- **The transport comes to rest, and no stream starves.**  From every reachable state of two
live connections a run of the transport, in whatever order, is no longer than the burden, fails
neither connection, and goes on to a state with nothing left to do; in such a state every stream
that both ends have is at rest. -/
theorem transport_rests {cfg : Mode → Config} {w w' : World} {labels : List Label}
    (h : (mux cfg).Reach w) (hc : w.Connected)
    (hr : Lts.runWith World.step (fun _ a => a.transport) w labels = some w') :
    labels.length ≤ w.burden ∧ w'.Connected ∧
      (∃ more w'', Lts.runWith World.step (fun _ a => a.transport) w' more = some w'' ∧
        w''.Quiescent) ∧
      (w'.Quiescent → ∀ m id x y, (w' m).ends id = some x → id ∈ (w' m).streams →
        (w' m.peer).ends id = some y → id ∈ (w' m.peer).streams → Rested id x y) := by
  obtain ⟨⟨hreach, hc'⟩, hlen⟩ := Lts.runWith_length transport_live ⟨h, hc⟩ hr
  obtain ⟨more, w'', hmore, hrest⟩ := Lts.exists_runWith_rest transport_live w' ⟨hreach, hc'⟩
  refine ⟨Nat.le_of_add_right_le hlen, hc', ⟨more, w'', hmore, ?_⟩, ?_⟩
  · exact quiescent_of_rest fun a ha => hrest a ha
  · exact fun hq m id x y hx hxl hy hyl => rested hreach hc' hq hx hxl hy hyl

/-- Three bytes on their way from the client, and what carries them. -/
def threeBytes : List Label := [.act .client .newOutbound, .act .client (.write 1 [7, 8, 9])]

def carryingThree : List Label :=
  [.act .client .queue, .act .client .start, .act .client .flush, .receive .server]

/-- Whether an end has nothing left to do. -/
def World.idle (w : World) (m : Mode) : Bool :=
  (w.step (.act m .queue)).isNone && (w.step (.act m .start)).isNone &&
    (w.step (.act m .flush)).isNone && (w.step (.receive m)).isNone

theorem World.quiescent_of_idle {w : World} (hc : w.idle .client = true)
    (hs : w.idle .server = true) : w.Quiescent := by
  intro m
  have hm : w.idle m = true := by
    cases m
    · exact hc
    · exact hs
  simp only [idle, Bool.and_eq_true, Option.isNone_iff_eq_none] at hm
  exact ⟨hm.1.1.1, hm.1.1.2, hm.1.2, hm.2⟩

/-- Three bytes, carried to rest. -/
theorem transport_rests_three :
    ∃ w w' : World, (mux fun _ => tunnelConfig).Reach w ∧ carryingThree.length ≤ w.burden ∧
      w'.Quiescent ∧ ∃ x y, (w' .client).ends 1 = some x ∧ (w' .server).ends 1 = some y ∧
        x.written = [7, 8, 9] ∧ Rested 1 x y := by
  have hrun : (Lts.runWith World.step (fun _ _ => true) (fun m => .new m tunnelConfig)
      threeBytes).any (fun w =>
      !(w .client).closed && !(w .server).closed &&
        (Lts.runWith World.step (fun _ a => a.transport) w carryingThree).any fun w' =>
          w'.idle .client && w'.idle .server && decide (1 ∈ (w' .client).streams) &&
            decide (1 ∈ (w' .server).streams) &&
            (((w' .client).ends 1).any fun x => x.written == [7, 8, 9]) &&
            ((w' .server).ends 1).isSome) = true := by
    decide +kernel
  obtain ⟨w, hreach, hw⟩ := Lts.Reach.exists_run (T := mux fun _ => tunnelConfig)
    (fun _ _ _ hs => hs) rfl hrun
  simp only [Bool.and_eq_true, Bool.not_eq_true', Option.any_eq_true, decide_eq_true_eq,
    beq_iff_eq, Option.isSome_iff_exists] at hw
  obtain ⟨⟨hcc, hcs⟩, w', hr, ⟨⟨⟨⟨hic, his⟩, hlc⟩, hls⟩, x, hx, hxw⟩, y, hy⟩ := hw
  have hc : w.Connected := fun m => by
    cases m
    · exact hcc
    · exact hcs
  have hq : w'.Quiescent := World.quiescent_of_idle hic his
  obtain ⟨hlen, -, -, hrest⟩ := transport_rests hreach hc hr
  exact ⟨w, w', hreach, hlen, hq, x, y, hx, hy, hxw, hrest hq .client 1 x y hx hlc hy hls⟩

end Molehill.Mux
