/-
# The KCP listener's session table

`dispatch` (`transport/kcp.rs`) owns the table of the sessions of one UDP socket.  It takes a batch
of datagrams from the socket and routes them one after the other (`route_datagram`): to the session
that the table has for the datagram's peer and conversation, or to a fresh one, which it puts into
the table and hands to `accept`.  A session that ends sends a notice with its key, and a select
lets the notice, or the shutdown, win over the round of datagrams under way.

Two things go wrong.  A notice names a key and not a session: when the ended session's channel is
found closed first, its key may have been adopted again, and the notice removes the newer session
(`notice_removes_newer`).  And a round that loses the select is dropped where it waits: the rest of
its batch has no fate, and a session that waits for room in the accept queue stays in the table
unseen.  In every run in which no conversation is adopted while a notice with its key is on its way,
no round is dropped under way, and nothing is adopted for an acceptor that is gone, the table is as
it should be (`listener_sound`).  `Noticed` is what the notices on their way may say: a key that
nobody has, or that their sender still has.
-/
import Molehill.Kcp.Engine
import Molehill.Lib.Table
import Molehill.Lib.Transition

namespace Molehill.Listener

open Lib

/-! ## 1. Datagrams -/

/-- `CTRL_MAGIC`. -/
def ctrlMagic : Byte := 0xEE

/-- `CTRL_FRAME_LEN`. -/
def ctrlFrameLen : Nat := 16

/-- `is_ctrl_frame`. -/
def isCtrlFrame (pkt : Bytes) : Bool := pkt.length = ctrlFrameLen && pkt[4]? = some ctrlMagic

/-- The conversation a datagram names, and whether it is a control frame; nothing for a runt. -/
def conversation (data : Bytes) : Option (Nat × Bool) :=
  if isCtrlFrame data then some (ofLe (data.take 4), true)
  else if kcpOverhead ≤ data.length then some (ofLe (data.take 4), false)
  else none

/-- `BATCH`. -/
def batchMax : Nat := 32

/-- `DATAGRAM_CHANNEL_DEPTH`. -/
def datagramChannelDepth : Nat := 8192

/-- `MAX_LISTENER_SESSIONS`. -/
def maxListenerSessions : Nat := 4096

/-- The depth of the accept queue. -/
def acceptDepth : Nat := 16

/-- The depth of the channel of the notices. -/
def goneDepth : Nat := 64

/-! ## 2. The listener -/

/-- `SessionKey`: the peer and its conversation. -/
abbrev SessionKey (P : Type) := P × Nat

/-- Where a session's pump is: it runs, it has sent its notice, its channel is closed. -/
inductive PumpState
  | running
  | announced
  | closed
  deriving DecidableEq

/-- A session, and the datagrams in its channel. -/
structure Session (P : Type) where
  key : SessionKey P
  queue : List Nat
  pump : PumpState
  deriving DecidableEq

/-- A notice; only its key is sent, `sender` says who sent it. -/
structure Notice (P : Type) where
  key : SessionKey P
  sender : Nat
  deriving DecidableEq

/-- Where the round of datagrams is.  It is suspended in its awaits only: for the socket, for room
in a session's channel, for room in the accept queue. -/
inductive Round (P : Type)
  | idle
  | routing (d : Nat) (rest : List Nat)
  | sending (d : Nat) (key : SessionKey P) (session : Nat) (rest : List Nat)
  | handing (session : Nat) (rest : List Nat)
  | stopped
  deriving DecidableEq

/-- Why a datagram is dropped. -/
inductive DropReason
  | runt
  | unknownControl
  | sessionCap
  | closed
  | rejected
  deriving DecidableEq

inductive Fate
  | routed (session : Nat)
  | adopted (session : Nat)
  | dropped (reason : DropReason)
  deriving DecidableEq

/-- What became of a datagram, and the session the table had for it at that moment. -/
structure Fated where
  dgram : Nat
  named : Option Nat
  fate : Fate
  deriving DecidableEq

/-- The dispatcher, its sessions in the order they were spawned, and what happened so far. -/
structure Dispatcher (P : Type) where
  sessions : List (Session P)
  table : Table (SessionKey P) Nat
  round : Round P
  gone : List (Notice P)
  accepted : List Nat
  /-- Whether the acceptor is there. -/
  acceptor : Bool
  /-- Whether the shutdown was signalled. -/
  shutdown : Bool
  /-- The datagrams taken from the socket; a datagram's number is its place here. -/
  received : List (P × Bytes)
  fates : List Fated
  /-- The sessions that were handed to `accept`. -/
  handed : List Nat
  /-- The sessions the notices removed, each with the sender. -/
  removed : List (Nat × Nat)

/-- The datagrams that the round still holds. -/
def Round.unread {P : Type} : Round P → List Nat
  | .idle | .stopped => []
  | .routing d rest | .sending d _ _ rest => d :: rest
  | .handing _ rest => rest

/-- Whether the round waits, so that another arm of the select can win. -/
def Round.suspended {P : Type} : Round P → Bool
  | .idle | .sending .. | .handing .. => true
  | .routing .. | .stopped => false

/-- The round after a datagram. -/
def Round.next {P : Type} : List Nat → Round P
  | [] => .idle
  | d :: rest => .routing d rest

namespace Dispatcher

variable {P : Type} [DecidableEq P] (s : Dispatcher P)

def new : Dispatcher P := ⟨[], ∅, .idle, [], [], true, false, [], [], [], []⟩

/-- The key that a datagram names. -/
def keyOf (d : Nat) : Option (SessionKey P) :=
  match s.received[d]? with
  | none => none
  | some (peer, data) => (conversation data).map fun c => (peer, c.1)

/-- The session the table has for a datagram. -/
def named (d : Nat) : Option Nat := (s.keyOf d).bind fun key => s.table.lookup key

/-- The datagram's fate is decided, and the round goes on. -/
def settle (d : Nat) (fate : Fate) (rest : List Nat) : Dispatcher P :=
  { s with fates := s.fates ++ [⟨d, s.named d, fate⟩], round := .next rest }

/-- `tx.send(pkt).await`, if it does not wait. -/
def trySend (d : Nat) (key : SessionKey P) (i : Nat) (rest : List Nat) : Option (Dispatcher P) :=
  match s.sessions[i]? with
  | some x =>
    if x.pump = .closed then
      some { s.settle d (.dropped .closed) rest with table := s.table.erase key }
    else if x.queue.length < datagramChannelDepth then
      some { s.settle d (.routed i) rest with
        sessions := s.sessions.set i { x with queue := x.queue ++ [d] } }
    else none
  | none => none

/-- `accepted_tx.send(..).await`, if it does not wait; a round whose acceptor is gone ends. -/
def tryHand (i : Nat) (rest : List Nat) : Option (Dispatcher P) :=
  if s.acceptor then
    if s.accepted.length < acceptDepth then
      some { s with
        accepted := s.accepted ++ [i], handed := s.handed ++ [i], round := .next rest }
    else none
  else some { s with round := .idle }

/-- A fresh session gets its first datagram, and the table its entry. -/
def adopt (d : Nat) (key : SessionKey P) (rest : List Nat) : Dispatcher P :=
  { s.settle d (.adopted s.sessions.length) rest with
    sessions := s.sessions ++ [⟨key, [d], .running⟩]
    table := s.table.insert key s.sessions.length
    round := .handing s.sessions.length rest }

/-- A fresh session that ended before its first datagram: its notice is sent. -/
def reject (d : Nat) (key : SessionKey P) (rest : List Nat) : Dispatcher P :=
  { s.settle d (.dropped .rejected) rest with
    sessions := s.sessions ++ [⟨key, [], .closed⟩]
    gone := s.gone ++ [⟨key, s.sessions.length⟩] }

/-- `route_datagram`, up to its first await.  An await that need not wait may be pending all the
same, when the task's budget is used up (`ready` is false then). -/
def routeDatagram (d : Nat) (rest : List Nat) (rejects ready : Bool) : Option (Dispatcher P) :=
  match s.received[d]? with
  | none => none
  | some (peer, data) =>
    match conversation data with
    | none => some (s.settle d (.dropped .runt) rest)
    | some (conv, isCtrl) =>
      match s.table.lookup (peer, conv) with
      | some i =>
        let waiting := { s with round := .sending d (peer, conv) i rest }
        if ready then some ((s.trySend d (peer, conv) i rest).getD waiting) else some waiting
      | none =>
        if isCtrl then some (s.settle d (.dropped .unknownControl) rest)
        else if maxListenerSessions ≤ s.table.entries.length then
          some (s.settle d (.dropped .sessionCap) rest)
        else if rejects then
          if s.gone.length < goneDepth then some (s.reject d (peer, conv) rest) else none
        else
          let fresh := s.adopt d (peer, conv) rest
          if ready then some ((fresh.tryHand s.sessions.length rest).getD fresh) else some fresh

/-- The gone arm wins: the entry under the notice's key is removed, and the round is dropped. -/
def forget (n : Notice P) (rest : List (Notice P)) : Dispatcher P :=
  { s with
    gone := rest
    table := s.table.erase n.key
    round := .idle
    removed := s.removed ++ ((s.table.lookup n.key).map fun i => (n.sender, i)).toList }

end Dispatcher

/-! ## 3. The runs -/

inductive Event (P : Type)
  /-- A batch is taken from the socket. -/
  | recv (batch : List (P × Bytes))
  /-- The round goes on with its next datagram. -/
  | route (rejects ready : Bool)
  /-- What the round waits for is there. -/
  | resume
  /-- The gone arm wins. -/
  | gone
  /-- The shutdown arm wins. -/
  | shutdown
  /-- A session's pump ends and sends its notice. -/
  | announce (i : Nat)
  /-- A session's channel is closed, behind its notice. -/
  | close (i : Nat)
  /-- A session takes a datagram from its channel. -/
  | consume (i : Nat)
  | accept
  /-- The acceptor is dropped: it signals the shutdown, and then its queue goes. -/
  | signal
  | dropAcceptor

namespace Dispatcher

variable {P : Type} [DecidableEq P]

def step (s : Dispatcher P) : Event P → Option (Dispatcher P)
  | .recv batch =>
    if s.round = .idle ∧ batch.length ≤ batchMax then
      some { s with
        received := s.received ++ batch
        round := .next (List.range' s.received.length batch.length) }
    else none
  | .route rejects ready =>
    match s.round with
    | .routing d rest => s.routeDatagram d rest rejects ready
    | _ => none
  | .resume =>
    match s.round with
    | .sending d key i rest => s.trySend d key i rest
    | .handing i rest => s.tryHand i rest
    | _ => none
  | .gone =>
    match s.gone with
    | n :: rest => if s.round.suspended then some (s.forget n rest) else none
    | [] => none
  | .shutdown =>
    if s.shutdown ∧ s.round.suspended then some { s with round := .stopped, table := ∅ } else none
  | .announce i =>
    match s.sessions[i]? with
    | some x =>
      if x.pump = .running ∧ s.gone.length < goneDepth then
        some { s with
          sessions := s.sessions.set i { x with pump := .announced }
          gone := s.gone ++ [⟨x.key, i⟩] }
      else none
    | none => none
  | .close i =>
    match s.sessions[i]? with
    | some x =>
      if x.pump = .announced then
        some { s with sessions := s.sessions.set i { x with pump := .closed } }
      else none
    | none => none
  | .consume i =>
    match s.sessions[i]? with
    | some x =>
      if x.pump = .running then
        some { s with sessions := s.sessions.set i { x with queue := x.queue.tail } }
      else none
    | none => none
  | .accept => some { s with accepted := s.accepted.tail }
  | .signal => some { s with shutdown := true }
  | .dropAcceptor => if s.shutdown then some { s with acceptor := false } else none

end Dispatcher

/-- The runs of a listener. -/
def listener (P : Type) [DecidableEq P] : Lts (Dispatcher P) (Event P) where
  init s := s = .new
  step s e s' := s.step e = some s'

/-! ## 4. What is promised -/

namespace Dispatcher

variable {P : Type} [DecidableEq P]

/-- The keys of the sessions. -/
def keys (s : Dispatcher P) : List (SessionKey P) := s.sessions.map Session.key

/-- The session is one for the datagram's peer and conversation. -/
def Owns (s : Dispatcher P) (i d : Nat) : Prop :=
  ∃ key, s.keyOf d = some key ∧ s.keys[i]? = some key

/-- A datagram went to the session the table had for it, to a fresh one because the table had none,
or was dropped. -/
def Right (s : Dispatcher P) (f : Fated) : Prop :=
  match f.fate with
  | .routed i => f.named = some i ∧ s.Owns i f.dgram
  | .adopted i => f.named = none ∧ s.Owns i f.dgram
  | .dropped _ => True

/-- **What is promised** of the table. -/
structure Sound (s : Dispatcher P) : Prop where
  /-- A notice removed the entry of its sender, or none. -/
  own : ∀ r ∈ s.removed, r.1 = r.2
  /-- The datagrams received have their fates, in order and once each, but for those of the round
  that goes on. -/
  fated : s.fates.map Fated.dgram ++ s.round.unread = List.range s.received.length
  right : ∀ f ∈ s.fates, s.Right f
  /-- Every entry is of a session that was handed to `accept`, or is being handed over. -/
  handed : ∀ key i, s.table.lookup key = some i →
    i ∈ s.handed ∨ ∃ rest, s.round = .handing i rest

/-- Whether the next datagram names a key that the table does not have. -/
def unknown (s : Dispatcher P) : Bool :=
  match s.round with
  | .routing d _ => (s.keyOf d).any fun key => (s.table.lookup key).isNone
  | _ => false

/-- The conversation that the dispatcher adopts for a datagram, unless the fresh session rejects
it. -/
def adopts (s : Dispatcher P) (d : Nat) : Option (SessionKey P) :=
  match s.received[d]? with
  | none => none
  | some (peer, data) =>
    match conversation data with
    | some (conv, false) =>
      if s.table.lookup (peer, conv) = none ∧ s.table.entries.length < maxListenerSessions then
        some (peer, conv)
      else none
    | _ => none

/-- No notice with the key is on its way. -/
def unannounced (s : Dispatcher P) (key : SessionKey P) : Bool := s.gone.all fun n => n.key ≠ key

/-- Whether the step is no slip: nothing is adopted whose key a notice on its way has, or for an
acceptor that is gone; the gone arm wins between two rounds only; and the shutdown arm wins when no
datagram is on its way. -/
def keepsTable (s : Dispatcher P) : Event P → Bool
  | .route rejects _ =>
    match s.round with
    | .routing d _ =>
      (s.acceptor || !s.unknown) && (rejects || (s.adopts d).all fun key => s.unannounced key)
    | _ => true
  | .resume => s.acceptor || (match s.round with | .handing _ _ => false | _ => true)
  | .gone => s.round = .idle
  | .shutdown => s.round.unread = []
  | _ => true

end Dispatcher

/-! ## 5. Every run -/

section Round

variable {P : Type} {rest : List Nat}

theorem Round.unread_next : (Round.next rest : Round P).unread = rest := by
  cases rest with
  | nil => rfl
  | cons d rest => rfl

theorem Round.next_ne_stopped : (Round.next rest : Round P) ≠ .stopped := by
  cases rest with
  | nil => nofun
  | cons d rest => nofun

theorem Round.next_ne_sending {d i : Nat} {key : SessionKey P} {more : List Nat} :
    Round.next rest ≠ .sending d key i more := by
  cases rest with
  | nil => nofun
  | cons d rest => nofun

end Round

/-- What holds between the steps, beside what is promised. -/
structure Inv {P : Type} [DecidableEq P] (s : Dispatcher P) : Prop where
  sound : s.Sound
  keyed : ∀ key i, s.table.lookup key = some i → s.keys[i]? = some key
  sending : ∀ d key i rest, s.round = .sending d key i rest →
    s.keyOf d = some key ∧ s.table.lookup key = some i

namespace Inv

variable {P : Type} [DecidableEq P] {s s' : Dispatcher P} {d i : Nat} {key : SessionKey P}
  {rest : List Nat}

omit [DecidableEq P] in
theorem keyOf_mono (hrec : s.received <+: s'.received) (hkey : s.keyOf d = some key) :
    s'.keyOf d = some key := by
  obtain ⟨more, hmore⟩ := hrec
  unfold Dispatcher.keyOf at hkey ⊢
  split at hkey
  case h_1 => cases hkey
  case h_2 peer data hd =>
    have hlt := (List.getElem?_eq_some_iff.mp hd).1
    rw [← hmore, List.getElem?_append_left hlt, hd]
    exact hkey

omit [DecidableEq P] in
theorem right_mono (hrec : s.received <+: s'.received) (hkeys : s.keys <+: s'.keys) {f : Fated}
    (hf : s.Right f) : s'.Right f := by
  have howns : ∀ i, s.Owns i f.dgram → s'.Owns i f.dgram := by
    rintro i ⟨key, hkey, hi⟩
    obtain ⟨more, hmore⟩ := hkeys
    refine ⟨key, keyOf_mono hrec hkey, ?_⟩
    rw [← hmore, List.getElem?_append_left (List.getElem?_eq_some_iff.mp hi).1]
    exact hi
  unfold Dispatcher.Right at hf ⊢
  split at hf
  case h_1 => exact ⟨hf.1, howns _ hf.2⟩
  case h_2 => exact ⟨hf.1, howns _ hf.2⟩
  case h_3 => trivial

/-- A session that no step of the dispatcher concerns goes on. -/
theorem frame (h : Inv s) (hkeys : s'.keys = s.keys) (htable : s'.table = s.table)
    (hround : s'.round = s.round) (hrec : s'.received = s.received) (hfates : s'.fates = s.fates)
    (hhanded : s'.handed = s.handed) (hremoved : s'.removed = s.removed) : Inv s' := by
  obtain ⟨⟨hown, hfated, hright, hhand⟩, hkeyed, hsending⟩ := h
  refine ⟨⟨?_, ?_, ?_, ?_⟩, ?_, ?_⟩
  · rwa [hremoved]
  · rwa [hfates, hround, hrec]
  · rw [hfates]
    intro f hf
    exact right_mono (hrec ▸ List.prefix_rfl) (hkeys ▸ List.prefix_rfl) (hright f hf)
  · rwa [htable, hhanded, hround]
  · rwa [htable, hkeys]
  · rw [hround, htable]
    intro d key i rest hr
    obtain ⟨hkey, hl⟩ := hsending d key i rest hr
    exact ⟨keyOf_mono (hrec ▸ List.prefix_rfl) hkey, hl⟩

/-- **A datagram's fate is decided.** -/
theorem settled (h : Inv s) (hunread : s.round.unread = d :: rest) {f : Fated}
    (hfates : s'.fates = s.fates ++ [f]) (hd : f.dgram = d) (hright : s'.Right f)
    (hrec : s'.received = s.received) (hkeys : s.keys <+: s'.keys)
    (hremoved : s'.removed = s.removed) (hunread' : s'.round.unread = rest)
    (hsending : ∀ d key i rest, s'.round ≠ .sending d key i rest)
    (hkeyed : ∀ key i, s'.table.lookup key = some i → s'.keys[i]? = some key)
    (hhanded : ∀ key i, s'.table.lookup key = some i →
      i ∈ s'.handed ∨ ∃ rest, s'.round = .handing i rest) : Inv s' where
  sound := by
    refine ⟨?_, ?_, ?_, hhanded⟩
    · rw [hremoved]
      exact h.sound.own
    · rw [hfates, hunread', hrec, List.map_append, List.append_assoc, ← h.sound.fated, hunread,
        ← hd]
      rfl
    · rw [hfates]
      intro g hg
      rcases List.mem_append.mp hg with hg | hg
      · exact right_mono (hrec ▸ List.prefix_rfl) hkeys (h.sound.right g hg)
      · rw [List.mem_singleton.mp hg]
        exact hright
  keyed := hkeyed
  sending := fun d key i rest hr => absurd hr (hsending d key i rest)

/-- The entries of a dispatcher that hands nothing over. -/
theorem entry (h : Inv s) (hround : ∀ i rest, s.round ≠ .handing i rest)
    (hl : s.table.lookup key = some i) : i ∈ s.handed :=
  (h.sound.handed key i hl).resolve_right fun ⟨rest, hr⟩ => hround i rest hr

/-- A datagram is dropped, and the table is as before. -/
theorem dropped (h : Inv s) (hunread : s.round.unread = d :: rest)
    (hround : ∀ i rest, s.round ≠ .handing i rest) (reason : DropReason) :
    Inv (s.settle d (.dropped reason) rest) :=
  h.settled hunread rfl rfl trivial rfl List.prefix_rfl rfl Round.unread_next
    (fun _ _ _ _ => Round.next_ne_sending) h.keyed fun _ _ hl => .inl (h.entry hround hl)

omit [DecidableEq P] in
theorem keys_set {x y : Session P} (hs : s'.sessions = s.sessions.set i y)
    (hx : s.sessions[i]? = some x) (hy : y.key = x.key) : s'.keys = s.keys := by
  rw [Dispatcher.keys, Dispatcher.keys, hs, List.map_set, hy]
  refine List.ext_getElem? fun j => ?_
  rw [List.getElem?_set]
  split
  case isTrue hij =>
    subst hij
    rw [List.length_map, List.getElem?_map, hx, if_pos (List.getElem?_eq_some_iff.mp hx).1]
    rfl
  case isFalse => rfl

/-- `tx.send` is over: the datagram is the session's, or the session is gone. -/
theorem sent (h : Inv s) (hunread : s.round.unread = d :: rest)
    (hround : ∀ i rest, s.round ≠ .handing i rest) (hkey : s.keyOf d = some key)
    (hl : s.table.lookup key = some i) (hs : s.trySend d key i rest = some s') : Inv s' := by
  unfold Dispatcher.trySend at hs
  split at hs
  case h_1 x hx =>
    split at hs
    case isTrue =>
      cases hs
      refine h.settled hunread rfl rfl trivial rfl List.prefix_rfl rfl Round.unread_next
        (fun _ _ _ _ => Round.next_ne_sending) (fun key' j hj => ?_) (fun key' j hj => ?_)
      · exact h.keyed key' j (Table.lookup_of_erase hj).2
      · exact .inl (h.entry hround (Table.lookup_of_erase hj).2)
    case isFalse =>
      split at hs
      case isTrue =>
        have hkeys : s'.keys = s.keys := by
          cases hs
          exact keys_set rfl hx rfl
        cases hs
        refine h.settled hunread rfl rfl ?_ rfl (hkeys ▸ List.prefix_rfl) rfl Round.unread_next
          (fun _ _ _ _ => Round.next_ne_sending) (fun key' j hj => ?_)
          (fun key' j hj => .inl (h.entry hround hj))
        · refine ⟨?_, key, hkey, ?_⟩
          · rw [Dispatcher.named, hkey]
            exact hl
          · rw [hkeys]
            exact h.keyed key i hl
        · rw [hkeys]
          exact h.keyed key' j hj
      case isFalse => cases hs
  case h_2 => cases hs

/-- `accepted_tx.send` is over, and the acceptor is there. -/
theorem handedOver (h : Inv s) (hround : s.round = .handing i rest) (hacceptor : s.acceptor = true)
    (hs : s.tryHand i rest = some s') : Inv s' := by
  unfold Dispatcher.tryHand at hs
  rw [if_pos hacceptor] at hs
  split at hs
  case isTrue =>
    cases hs
    refine ⟨⟨h.sound.own, ?_, h.sound.right, fun key j hj => ?_⟩, h.keyed,
      fun _ _ _ _ hr => absurd hr Round.next_ne_sending⟩
    · rw [Round.unread_next, ← h.sound.fated, hround]
      rfl
    · rcases h.sound.handed key j hj with hmem | ⟨more, hr⟩
      · exact .inl (List.mem_append_left _ hmem)
      · rw [hround] at hr
        cases hr
        exact .inl (List.mem_append_right _ (List.mem_singleton_self _))
  case isFalse => cases hs

/-- A conversation is adopted. -/
theorem adopted (h : Inv s) (hunread : s.round.unread = d :: rest)
    (hround : ∀ i rest, s.round ≠ .handing i rest) (hkey : s.keyOf d = some key)
    (hl : s.table.lookup key = none) : Inv (s.adopt d key rest) := by
  have hkeys : (s.adopt d key rest).keys = s.keys ++ [key] := List.map_append
  have hlen : s.sessions.length = s.keys.length := (List.length_map _).symm
  have hlast : (s.keys ++ [key])[s.sessions.length]? = some key := by
    rw [hlen, List.getElem?_concat_length]
  refine h.settled hunread rfl rfl ?_ rfl (hkeys ▸ List.prefix_append _ _) rfl rfl nofun
    (fun key' j hj => ?_) (fun key' j hj => ?_)
  · refine ⟨?_, key, hkey, hkeys ▸ hlast⟩
    rw [Dispatcher.named, hkey]
    exact hl
  · rw [hkeys]
    change (s.table.insert key s.sessions.length).lookup key' = some j at hj
    rw [Table.lookup_insert_eq] at hj
    split at hj
    case isTrue heq =>
      cases hj
      rw [heq]
      exact hlast
    case isFalse =>
      have hold := h.keyed key' j hj
      rw [List.getElem?_append_left (List.getElem?_eq_some_iff.mp hold).1]
      exact hold
  · change (s.table.insert key s.sessions.length).lookup key' = some j at hj
    rw [Table.lookup_insert_eq] at hj
    split at hj
    case isTrue =>
      cases hj
      exact .inr ⟨rest, rfl⟩
    case isFalse => exact .inl (h.entry hround hj)

/-- A fresh session ended before its first datagram. -/
theorem rejected (h : Inv s) (hunread : s.round.unread = d :: rest)
    (hround : ∀ i rest, s.round ≠ .handing i rest) : Inv (s.reject d key rest) := by
  have hkeys : (s.reject d key rest).keys = s.keys ++ [key] := List.map_append
  refine h.settled hunread rfl rfl trivial rfl (hkeys ▸ List.prefix_append _ _) rfl
    Round.unread_next (fun _ _ _ _ => Round.next_ne_sending) (fun key' j hj => ?_)
    (fun key' j hj => .inl (h.entry hround hj))
  have hold := h.keyed key' j hj
  rw [hkeys, List.getElem?_append_left (List.getElem?_eq_some_iff.mp hold).1]
  exact hold

omit [DecidableEq P] in
theorem keyOf_eq {peer : P} {data : Bytes} {conv : Nat} {isCtrl : Bool}
    (hd : s.received[d]? = some (peer, data)) (hconv : conversation data = some (conv, isCtrl)) :
    s.keyOf d = some (peer, conv) := by
  unfold Dispatcher.keyOf
  rw [hd]
  dsimp only
  rw [hconv]
  rfl

/-- What becomes of a datagram: it is dropped, it is for a session of the table, whose channel takes
it or lets the round wait, or it is for none, and a session ended at once or is fresh and has been
handed over or not. -/
theorem routeDatagram_cases {rejects ready : Bool}
    (hs : s.routeDatagram d rest rejects ready = some s') :
    (∃ reason, s' = s.settle d (.dropped reason) rest) ∨
      ∃ key, s.keyOf d = some key ∧
        ((∃ i, s.table.lookup key = some i ∧
            (s' = { s with round := .sending d key i rest } ∨
              s.trySend d key i rest = some s')) ∨
          s.table.lookup key = none ∧ (s' = s.reject d key rest ∨
            (rejects = false ∧ s.adopts d = some key) ∧ (s' = s.adopt d key rest ∨
              (s.adopt d key rest).tryHand s.sessions.length rest = some s'))) := by
  -- an await that is not over leaves the state before it
  have hawait : ∀ {o : Option (Dispatcher P)} {w : Dispatcher P},
      o.getD w = s' → s' = w ∨ o = some s' := by
    rintro (_ | s1) w rfl
    · exact .inl rfl
    · exact .inr rfl
  unfold Dispatcher.routeDatagram at hs
  split at hs
  case h_1 => cases hs
  case h_2 peer data hd =>
    split at hs
    case h_1 => exact .inl ⟨.runt, (Option.some.inj hs).symm⟩
    case h_2 conv isCtrl hconv =>
      have hkey := keyOf_eq hd hconv
      split at hs
      case h_1 i hl =>
        refine .inr ⟨_, hkey, .inl ⟨i, hl, ?_⟩⟩
        cases ready with
        | false => exact .inl (Option.some.inj hs).symm
        | true => exact hawait (Option.some.inj hs)
      case h_2 hl =>
        split at hs
        case isTrue => exact .inl ⟨.unknownControl, (Option.some.inj hs).symm⟩
        case isFalse hctrl =>
          split at hs
          case isTrue => exact .inl ⟨.sessionCap, (Option.some.inj hs).symm⟩
          case isFalse hcap =>
            refine .inr ⟨_, hkey, .inr ⟨hl, ?_⟩⟩
            split at hs
            case isTrue =>
              split at hs
              case isTrue => exact .inl (Option.some.inj hs).symm
              case isFalse => cases hs
            case isFalse hrejects =>
              have hadopts : s.adopts d = some (peer, conv) := by
                cases isCtrl with
                | true => exact absurd rfl hctrl
                | false =>
                  unfold Dispatcher.adopts
                  rw [hd]
                  dsimp only
                  rw [hconv]
                  exact if_pos ⟨hl, Nat.lt_of_not_le hcap⟩
              refine .inr ⟨⟨Bool.not_eq_true _ ▸ hrejects, hadopts⟩, ?_⟩
              cases ready with
              | false => exact .inl (Option.some.inj hs).symm
              | true => exact hawait (Option.some.inj hs)

/-- The round waits for room in a session's channel. -/
theorem waiting (h : Inv s) (hunread : s.round.unread = d :: rest)
    (hround : ∀ i rest, s.round ≠ .handing i rest) (hkey : s.keyOf d = some key)
    (hl : s.table.lookup key = some i) : Inv { s with round := .sending d key i rest } := by
  refine ⟨⟨h.sound.own, ?_, h.sound.right, fun key' j hj => .inl (h.entry hround hj)⟩,
    h.keyed, fun d' key' i' rest' hr => ?_⟩
  · rw [← h.sound.fated, hunread]
    rfl
  · cases hr
    exact ⟨hkey, hl⟩

/-- **`route_datagram`**, while there is an acceptor for what is new. -/
theorem routed (h : Inv s) {rejects ready : Bool} (hround : s.round = .routing d rest)
    (hok : (s.acceptor || !s.unknown) = true)
    (hs : s.routeDatagram d rest rejects ready = some s') : Inv s' := by
  have hunread : s.round.unread = d :: rest := by rw [hround]; rfl
  have hhanding : ∀ i rest, s.round ≠ .handing i rest := by rw [hround]; nofun
  rcases routeDatagram_cases hs with
    ⟨reason, rfl⟩ | ⟨key, hkey, ⟨i, hl, rfl | hsend⟩ | ⟨hl, rfl | ⟨-, rfl | hhand⟩⟩⟩
  · exact h.dropped hunread hhanding reason
  · exact h.waiting hunread hhanding hkey hl
  · exact h.sent hunread hhanding hkey hl hsend
  · exact h.rejected hunread hhanding
  · exact h.adopted hunread hhanding hkey hl
  · -- the datagram names a key that the table does not have
    have hunknown : s.unknown = true := by
      unfold Dispatcher.unknown
      rw [hround]
      dsimp only
      rw [hkey, Option.any_some, hl]
      rfl
    have hacceptor : (s.adopt d key rest).acceptor = true := by
      rw [hunknown, Bool.not_true, Bool.or_false] at hok
      exact hok
    exact (h.adopted hunread hhanding hkey hl).handedOver rfl hacceptor hhand

/-- A batch is received. -/
theorem received (h : Inv s) (hround : s.round = .idle) (batch : List (P × Bytes)) :
    Inv { s with
      received := s.received ++ batch
      round := .next (List.range' s.received.length batch.length) } := by
  refine ⟨⟨h.sound.own, ?_, fun f hf => ?_, fun key i hl => .inl (h.entry ?_ hl)⟩, h.keyed,
    fun _ _ _ _ hr => absurd hr Round.next_ne_sending⟩
  · have hall : s.fates.map Fated.dgram = List.range s.received.length := by
      rw [← h.sound.fated, hround]
      exact (List.append_nil _).symm
    rw [Round.unread_next, hall, List.length_append, List.range_add, List.range'_eq_map_range]
  · refine right_mono ?_ ?_ (h.sound.right f hf)
    · exact List.prefix_append _ _
    · exact List.prefix_rfl
  · rw [hround]
    nofun

/-- A notice is heeded between two rounds, and its key names its sender or nobody. -/
theorem forgotten (h : Inv s) (hround : s.round = .idle) {n : Notice P} {more : List (Notice P)}
    (hown : ∀ i, s.table.lookup n.key = some i → i = n.sender) : Inv (s.forget n more) := by
  have hkept : ∀ key i, (s.table.erase n.key).lookup key = some i →
      s.table.lookup key = some i := fun key i hl => (Table.lookup_of_erase hl).2
  refine ⟨⟨fun r hr => ?_, ?_, h.sound.right, fun key i hl => ?_⟩,
    fun key i hl => h.keyed key i (hkept key i hl), nofun⟩
  · rcases List.mem_append.mp hr with hr | hr
    · exact h.sound.own r hr
    · rw [Option.mem_toList, Option.map_eq_some_iff] at hr
      obtain ⟨i, hl, rfl⟩ := hr
      exact (hown i hl).symm
  · have hfated := h.sound.fated
    rw [hround] at hfated
    exact hfated
  · refine .inl (h.entry ?_ (hkept key i hl))
    rw [hround]
    nofun

/-- The dispatcher stops, with no datagram on its way. -/
theorem stopped (h : Inv s) (hunread : s.round.unread = []) :
    Inv { s with round := .stopped, table := ∅ } := by
  refine ⟨⟨h.sound.own, ?_, h.sound.right, nofun⟩, nofun, nofun⟩
  rw [← h.sound.fated, hunread]
  rfl

end Inv

/-! ## 6. The notices on their way -/

/-- The sessions of before, each with its key; none of them starts to run again. -/
structure Ages {P : Type} (xs ys : List (Session P)) : Prop where
  length : ys.length = xs.length
  aged : ∀ (i : Nat) (y : Session P), ys[i]? = some y →
    ∃ x : Session P, xs[i]? = some x ∧ y.key = x.key ∧ (y.pump = .running → x.pump = .running)

namespace Ages

variable {P : Type} {xs : List (Session P)} {x y : Session P} {i : Nat}

theorem refl (xs : List (Session P)) : Ages xs xs := ⟨rfl, fun _ y hy => ⟨y, hy, rfl, id⟩⟩

theorem set (hx : xs[i]? = some x) (hkey : y.key = x.key)
    (hpump : y.pump = .running → x.pump = .running) : Ages xs (xs.set i y) := by
  refine ⟨List.length_set, fun j z hz => ?_⟩
  rw [List.getElem?_set] at hz
  split at hz
  case isTrue hij =>
    subst hij
    rw [if_pos (List.getElem?_eq_some_iff.mp hx).1] at hz
    cases hz
    exact ⟨x, hx, hkey, hpump⟩
  case isFalse => exact ⟨z, hz, rfl, id⟩

end Ages

/-- A session that runs has its entry.  The key of a notice on its way is nobody's or its sender's,
and the sender runs no more. -/
structure Noticed {P : Type} [DecidableEq P] (s : Dispatcher P) : Prop where
  running : s.round ≠ .stopped → ∀ i x, s.sessions[i]? = some x → x.pump = .running →
    s.table.lookup x.key = some i
  pending : ∀ n ∈ s.gone, ∀ i, s.table.lookup n.key = some i → i = n.sender
  told : ∀ n ∈ s.gone, ∃ x, s.sessions[n.sender]? = some x ∧ x.pump ≠ .running
  stopped : s.round = .stopped → s.table = ∅

namespace Noticed

variable {P : Type} [DecidableEq P] {s s' : Dispatcher P} {d i : Nat} {key : SessionKey P}
  {rest : List Nat}

/-- The sessions go on; the table and the notices are as before. -/
theorem frame (h : Noticed s) (hsessions : Ages s.sessions s'.sessions)
    (htable : s'.table = s.table) (hgone : s'.gone = s.gone)
    (hround : s'.round = .stopped ↔ s.round = .stopped) : Noticed s' where
  running := by
    intro hr i y hy hpump
    obtain ⟨x, hx, hkey, hrun⟩ := hsessions.aged i y hy
    rw [htable, hkey]
    exact h.running (fun hs => hr (hround.mpr hs)) i x hx (hrun hpump)
  pending := by
    rw [hgone, htable]
    exact h.pending
  told := by
    rw [hgone]
    intro n hn
    obtain ⟨x, hx, hpump⟩ := h.told n hn
    have hlt : n.sender < s'.sessions.length := by
      rw [hsessions.length]
      exact (List.getElem?_eq_some_iff.mp hx).1
    obtain ⟨x', hx', -, hrun⟩ := hsessions.aged _ _ (List.getElem?_eq_getElem hlt)
    cases hx.symm.trans hx'
    exact ⟨_, List.getElem?_eq_getElem hlt, fun hy => hpump (hrun hy)⟩
  stopped := fun hr => by rw [htable, h.stopped (hround.mp hr)]

/-- An entry goes that is nobody's who runs. -/
theorem erased (h : Noticed s) (key : SessionKey P) (hround : s.round ≠ .stopped)
    (hfree : ∀ i x, s.table.lookup key = some i → s.sessions[i]? = some x → x.pump ≠ .running)
    (hsessions : s'.sessions = s.sessions) (htable : s'.table = s.table.erase key)
    (hgone : ∀ n ∈ s'.gone, n ∈ s.gone) (hround' : s'.round ≠ .stopped) : Noticed s' where
  running := by
    rw [hsessions, htable]
    intro _ i x hx hpump
    have hl := h.running hround i x hx hpump
    rw [Table.lookup_erase_eq, if_neg, hl]
    intro hkey
    rw [hkey] at hl
    exact hfree i x hl hx hpump
  pending := by
    rw [htable]
    exact fun n hn i hl => h.pending n (hgone n hn) i (Table.lookup_of_erase hl).2
  told := by
    rw [hsessions]
    exact fun n hn => h.told n (hgone n hn)
  stopped := fun hr => absurd hr hround'

/-- `tx.send` is over. -/
theorem sent (h : Noticed s) (hround : s.round ≠ .stopped) (hl : s.table.lookup key = some i)
    (hs : s.trySend d key i rest = some s') : Noticed s' := by
  unfold Dispatcher.trySend at hs
  split at hs
  case h_1 x hx =>
    split at hs
    case isTrue hclosed =>
      cases hs
      refine h.erased key hround (fun j y hj hy => ?_) rfl rfl (fun n hn => hn)
        Round.next_ne_stopped
      cases hl.symm.trans hj
      cases hx.symm.trans hy
      rw [hclosed]
      decide
    case isFalse =>
      split at hs
      case isTrue =>
        cases hs
        exact h.frame (Ages.set hx rfl id) rfl rfl
          ⟨fun hr => absurd hr Round.next_ne_stopped, fun hr => absurd hr hround⟩
      case isFalse => cases hs
  case h_2 => cases hs

/-- `accepted_tx.send` is over. -/
theorem handedOver (h : Noticed s) (hround : s.round ≠ .stopped)
    (hs : s.tryHand i rest = some s') : Noticed s' := by
  unfold Dispatcher.tryHand at hs
  split at hs
  case isTrue =>
    split at hs
    case isTrue =>
      cases hs
      exact h.frame (Ages.refl _) rfl rfl
        ⟨fun hr => absurd hr Round.next_ne_stopped, fun hr => absurd hr hround⟩
    case isFalse => cases hs
  case isFalse =>
    cases hs
    exact h.frame (Ages.refl _) rfl rfl ⟨nofun, fun hr => absurd hr hround⟩

/-- A fresh session has a key that no notice on its way has. -/
theorem adopted (h : Noticed s) (hround : s.round ≠ .stopped) (hl : s.table.lookup key = none)
    (hfree : s.unannounced key = true) : Noticed (s.adopt d key rest) where
  running := by
    intro _ i x hx hpump
    change (s.sessions ++ [⟨key, [d], .running⟩])[i]? = some x at hx
    change (s.table.insert key s.sessions.length).lookup x.key = some i
    rw [Table.lookup_insert_eq]
    rcases Nat.lt_trichotomy i s.sessions.length with hi | hi | hi
    · rw [List.getElem?_append_left hi] at hx
      have hold := h.running hround i x hx hpump
      rw [if_neg, hold]
      intro hkey
      rw [hkey, hl] at hold
      cases hold
    · subst hi
      rw [List.getElem?_concat_length] at hx
      cases hx
      rw [if_pos rfl]
    · rw [List.getElem?_eq_none] at hx
      · cases hx
      · rw [List.length_append, List.length_singleton]
        omega
  pending := by
    intro n hn i hi
    have hne : n.key ≠ key := of_decide_eq_true (List.all_eq_true.mp hfree n hn)
    change (s.table.insert key s.sessions.length).lookup n.key = some i at hi
    rw [Table.lookup_insert_eq, if_neg hne] at hi
    exact h.pending n hn i hi
  told := by
    intro n hn
    obtain ⟨x, hx, hpump⟩ := h.told n hn
    refine ⟨x, ?_, hpump⟩
    change (s.sessions ++ [_])[n.sender]? = some x
    rw [List.getElem?_append_left (List.getElem?_eq_some_iff.mp hx).1]
    exact hx
  stopped := nofun

/-- One more notice is on its way, of a session that runs no more and shares its key with nobody. -/
theorem announced (h : Noticed s) {n : Notice P} (htable : s'.table = s.table)
    (hgone : s'.gone = s.gone ++ [n]) (hround : s'.round = .stopped ↔ s.round = .stopped)
    (hrunning : ∀ (i : Nat) (x : Session P), s'.sessions[i]? = some x → x.pump = .running →
      s.sessions[i]? = some x)
    (hsender : ∀ i, s.table.lookup n.key = some i → i = n.sender)
    (htold : ∀ m ∈ s'.gone, ∃ x, s'.sessions[m.sender]? = some x ∧ x.pump ≠ .running) :
    Noticed s' where
  running := by
    intro hr i x hx hpump
    rw [htable]
    exact h.running (fun hs => hr (hround.mpr hs)) i x (hrunning i x hx hpump) hpump
  pending := by
    rw [hgone, htable]
    intro m hm i hl
    rcases List.mem_append.mp hm with hm | hm
    · exact h.pending m hm i hl
    · cases List.mem_singleton.mp hm
      exact hsender i hl
  told := htold
  stopped := fun hr => by rw [htable, h.stopped (hround.mp hr)]

/-- A session whose pump ends has the entry of its key, if there is one. -/
theorem ended (h : Noticed s) {x : Session P} (hx : s.sessions[i]? = some x)
    (hrun : x.pump = .running) :
    Noticed { s with
      sessions := s.sessions.set i { x with pump := .announced }
      gone := s.gone ++ [⟨x.key, i⟩] } := by
  have hlt := (List.getElem?_eq_some_iff.mp hx).1
  refine h.announced rfl rfl Iff.rfl (fun j y hy hpump => ?_) (fun j hj => ?_) (fun m hm => ?_)
  · by_cases hij : i = j
    · subst hij
      rw [List.getElem?_set_self hlt] at hy
      cases hy
      cases hpump
    · rwa [List.getElem?_set_ne hij] at hy
  · by_cases hr : s.round = .stopped
    · rw [h.stopped hr] at hj
      cases hj
    · have hl := h.running hr i x hx hrun
      exact Option.some.inj (hj.symm.trans hl)
  · rcases List.mem_append.mp hm with hm | hm
    · obtain ⟨y, hy, hpump⟩ := h.told m hm
      refine ⟨y, ?_, hpump⟩
      rw [List.getElem?_set_ne, hy]
      rintro rfl
      cases hx.symm.trans hy
      exact hpump hrun
    · cases List.mem_singleton.mp hm
      refine ⟨_, List.getElem?_set_self hlt, ?_⟩
      dsimp only
      decide

/-- A fresh session that ended at once has no entry, and nobody else has its key. -/
theorem rejected (h : Noticed s) (hround : s.round ≠ .stopped) (hl : s.table.lookup key = none) :
    Noticed (s.reject d key rest) := by
  refine h.announced rfl rfl
    ⟨fun hr => absurd hr Round.next_ne_stopped, fun hr => absurd hr hround⟩
    (fun j y hy hpump => ?_) (fun j hj => ?_) (fun m hm => ?_)
  · change (s.sessions ++ [_])[j]? = some y at hy
    rcases Nat.lt_trichotomy j s.sessions.length with hj | hj | hj
    · rwa [List.getElem?_append_left hj] at hy
    · subst hj
      rw [List.getElem?_concat_length] at hy
      cases hy
      cases hpump
    · rw [List.getElem?_eq_none] at hy
      · cases hy
      · rw [List.length_append, List.length_singleton]
        omega
  · rw [hl] at hj
    cases hj
  · change ∃ x, (s.sessions ++ [_])[m.sender]? = some x ∧ _
    rcases List.mem_append.mp hm with hm | hm
    · obtain ⟨y, hy, hpump⟩ := h.told m hm
      refine ⟨y, ?_, hpump⟩
      rw [List.getElem?_append_left (List.getElem?_eq_some_iff.mp hy).1]
      exact hy
    · cases List.mem_singleton.mp hm
      refine ⟨_, List.getElem?_concat_length, ?_⟩
      dsimp only
      decide

/-- **`route_datagram`**, while no notice on its way has the key of what is adopted. -/
theorem routed (h : Noticed s) {rejects ready : Bool} (hround : s.round = .routing d rest)
    (hok : (rejects || (s.adopts d).all fun key => s.unannounced key) = true)
    (hs : s.routeDatagram d rest rejects ready = some s') : Noticed s' := by
  have hgoing : s.round ≠ .stopped := by
    rw [hround]
    nofun
  rcases Inv.routeDatagram_cases hs with
    ⟨reason, rfl⟩ | ⟨key, hkey, ⟨i, hl, rfl | hsend⟩ | ⟨hl, rfl | ⟨⟨hr, hadopts⟩, hnew⟩⟩⟩
  · exact h.frame (Ages.refl _) rfl rfl
      ⟨fun hr => absurd hr Round.next_ne_stopped, fun hr => absurd hr hgoing⟩
  · exact h.frame (Ages.refl _) rfl rfl ⟨nofun, fun hr => absurd hr hgoing⟩
  · exact h.sent hgoing hl hsend
  · exact h.rejected hgoing hl
  · rw [hr, hadopts, Bool.false_or, Option.all_some] at hok
    have hadopted : Noticed (s.adopt d key rest) := h.adopted hgoing hl hok
    rcases hnew with rfl | hhand
    · exact hadopted
    · exact hadopted.handedOver nofun hhand

/-- **One step** that is no slip. -/
theorem step {e : Event P} (h : Noticed s) (hinv : Inv s) (hok : s.keepsTable e = true)
    (hs : s.step e = some s') : Noticed s' := by
  cases e with
  | recv batch =>
    simp only [Dispatcher.step] at hs
    split at hs
    case isTrue hidle =>
      cases hs
      refine h.frame (Ages.refl _) rfl rfl ⟨fun hr => absurd hr Round.next_ne_stopped, fun hr => ?_⟩
      rw [hidle.1] at hr
      cases hr
    case isFalse => cases hs
  | route rejects ready =>
    simp only [Dispatcher.step] at hs
    split at hs
    case h_1 d rest hround =>
      rw [Dispatcher.keepsTable, hround] at hok
      exact h.routed hround (Bool.and_eq_true_iff.mp hok).2 hs
    case h_2 => cases hs
  | resume =>
    simp only [Dispatcher.step] at hs
    split at hs
    case h_1 d key i rest hround =>
      exact h.sent (by rw [hround]; nofun) (hinv.sending d key i rest hround).2 hs
    case h_2 i rest hround => exact h.handedOver (by rw [hround]; nofun) hs
    case h_3 => cases hs
  | gone =>
    simp only [Dispatcher.step] at hs
    split at hs
    case h_1 n rest hgone =>
      have hmem : ∀ m ∈ rest, m ∈ s.gone := by
        rw [hgone]
        exact fun m hm => List.mem_cons_of_mem _ hm
      have hn : n ∈ s.gone := by
        rw [hgone]
        exact List.mem_cons_self
      split at hs
      case isTrue =>
        cases hs
        have hidle : s.round = .idle := of_decide_eq_true hok
        refine h.erased n.key (by rw [hidle]; nofun) (fun i x hl hx => ?_) rfl rfl hmem
          nofun
        -- who has the entry has sent the notice
        obtain ⟨y, hy, hpump⟩ := h.told n hn
        rw [h.pending n hn i hl] at hx
        cases hx.symm.trans hy
        exact hpump
      case isFalse => cases hs
    case h_2 => cases hs
  | shutdown =>
    simp only [Dispatcher.step] at hs
    split at hs
    case isTrue =>
      cases hs
      exact ⟨fun hr => absurd rfl hr, nofun, h.told, fun _ => rfl⟩
    case isFalse => cases hs
  | announce i =>
    simp only [Dispatcher.step] at hs
    split at hs
    case h_1 x hx =>
      split at hs
      case isTrue hrun =>
        cases hs
        exact h.ended hx hrun.1
      case isFalse => cases hs
    case h_2 => cases hs
  | close i =>
    simp only [Dispatcher.step] at hs
    split at hs
    case h_1 x hx =>
      split at hs
      case isTrue =>
        cases hs
        exact h.frame (Ages.set hx rfl nofun) rfl rfl Iff.rfl
      case isFalse => cases hs
    case h_2 => cases hs
  | consume i =>
    simp only [Dispatcher.step] at hs
    split at hs
    case h_1 x hx =>
      split at hs
      case isTrue =>
        cases hs
        exact h.frame (Ages.set hx rfl id) rfl rfl Iff.rfl
      case isFalse => cases hs
    case h_2 => cases hs
  | accept | signal =>
    cases hs
    exact h.frame (Ages.refl _) rfl rfl Iff.rfl
  | dropAcceptor =>
    simp only [Dispatcher.step] at hs
    split at hs
    case isTrue =>
      cases hs
      exact h.frame (Ages.refl _) rfl rfl Iff.rfl
    case isFalse => cases hs

end Noticed

namespace Inv

variable {P : Type} [DecidableEq P] {s s' : Dispatcher P}

/-- **One step** that is no slip. -/
theorem step {e : Event P} (h : Inv s) (hnoticed : Noticed s) (hok : s.keepsTable e = true)
    (hs : s.step e = some s') : Inv s' := by
  cases e with
  | recv batch =>
    simp only [Dispatcher.step] at hs
    split at hs
    case isTrue hidle =>
      cases hs
      exact h.received hidle.1 batch
    case isFalse => cases hs
  | route rejects ready =>
    simp only [Dispatcher.step] at hs
    split at hs
    case h_1 d rest hround =>
      rw [Dispatcher.keepsTable, hround] at hok
      exact h.routed hround (Bool.and_eq_true_iff.mp hok).1 hs
    case h_2 => cases hs
  | resume =>
    simp only [Dispatcher.step] at hs
    split at hs
    case h_1 d key i rest hround =>
      obtain ⟨hkey, hl⟩ := h.sending d key i rest hround
      exact h.sent (by rw [hround]; rfl) (by rw [hround]; nofun) hkey hl hs
    case h_2 i rest hround =>
      rw [Dispatcher.keepsTable, hround, Bool.or_false] at hok
      exact h.handedOver hround hok hs
    case h_3 => cases hs
  | gone =>
    simp only [Dispatcher.step] at hs
    split at hs
    case h_1 n rest hgone =>
      split at hs
      case isTrue =>
        cases hs
        exact h.forgotten (of_decide_eq_true hok)
          (hnoticed.pending n (by rw [hgone]; exact List.mem_cons_self))
      case isFalse => cases hs
    case h_2 => cases hs
  | shutdown =>
    simp only [Dispatcher.step] at hs
    split at hs
    case isTrue =>
      cases hs
      exact h.stopped (of_decide_eq_true hok)
    case isFalse => cases hs
  | announce i | close i | consume i =>
    simp only [Dispatcher.step] at hs
    split at hs
    case h_1 x hx =>
      split at hs
      case isTrue =>
        cases hs
        exact h.frame (keys_set rfl hx rfl) rfl rfl rfl rfl rfl rfl
      case isFalse => cases hs
    case h_2 => cases hs
  | accept | signal =>
    cases hs
    exact h.frame rfl rfl rfl rfl rfl rfl rfl
  | dropAcceptor =>
    simp only [Dispatcher.step] at hs
    split at hs
    case isTrue =>
      cases hs
      exact h.frame rfl rfl rfl rfl rfl rfl rfl
    case isFalse => cases hs

end Inv

/-- **The session table.**  In every run without a slip, a notice removes its sender's entry only,
every datagram goes where its peer and conversation name or is dropped, and no entry is kept from
`accept`. -/
theorem listener_sound {P : Type} [DecidableEq P] {s : Dispatcher P}
    (h : ((listener P).restrict fun s e => s.keepsTable e = true).Reach s) : s.Sound := by
  have hboth : Inv s ∧ Noticed s := by
    refine h.invariant (P := fun s => Inv s ∧ Noticed s) ?_ ?_
    · rintro s rfl
      exact ⟨⟨⟨nofun, rfl, nofun, nofun⟩, nofun, nofun⟩, nofun, nofun, nofun, nofun⟩
    · rintro s e s' ⟨hinv, hnoticed⟩ ⟨hok, hs⟩
      exact ⟨hinv.step hnoticed hok hs, hnoticed.step hinv hok hs⟩
  exact hboth.1.sound

/-- A datagram of a conversation. -/
def pushOf (conv : Nat) : Bytes := leBytes 4 conv ++ List.replicate 20 0

/-- A session is adopted and gets a datagram, ends, and is adopted again after its notice; a runt
and a control frame without a session are dropped. -/
def cleanRun : List (Event Nat) :=
  [.recv [(1, pushOf 7), (1, pushOf 7), (1, []), (2, leBytes 4 7 ++ 0xEE :: List.replicate 11 0)],
    .route false true, .route false true, .route false true, .route false true, .accept,
    .announce 0, .close 0, .gone, .recv [(1, pushOf 7)], .route false false, .resume]

theorem listener_sound_clean :
    ∃ s, ((listener Nat).restrict fun s e => s.keepsTable e = true).Reach s ∧ s.Sound ∧
      s.fates = [⟨0, none, .adopted 0⟩, ⟨1, some 0, .routed 0⟩, ⟨2, none, .dropped .runt⟩,
        ⟨3, none, .dropped .unknownControl⟩, ⟨4, none, .adopted 1⟩] ∧
      s.removed = [(0, 0)] ∧ s.handed = [0, 1] := by
  have hrun : (Lts.runWith Dispatcher.step Dispatcher.keepsTable .new cleanRun).any (fun s =>
      s.fates = [⟨0, none, .adopted 0⟩, ⟨1, some 0, .routed 0⟩, ⟨2, none, .dropped .runt⟩,
        ⟨3, none, .dropped .unknownControl⟩, ⟨4, none, .adopted 1⟩] ∧
      s.removed = [(0, 0)] ∧ s.handed = [0, 1]) = true := by
    decide +kernel
  obtain ⟨s, hreach, hs⟩ := Lts.Reach.exists_runWith (T := listener Nat)
    (C := fun s e => s.keepsTable e = true) (fun _ _ _ h => h) (fun _ _ h => h) rfl hrun
  exact ⟨s, hreach, listener_sound hreach, of_decide_eq_true hs⟩

/-- A session ends, and two datagrams of its peer come before its notice is heeded: the first finds
its channel closed, the second is adopted. -/
def staleNotice : List (Event Nat) :=
  [.recv [(1, pushOf 7)], .route false true, .accept, .announce 0, .close 0,
    .recv [(1, pushOf 7), (1, pushOf 7)], .route false true, .route false true, .gone]

/-- The accept queue is full, and a notice wins over the hand-off of the next session; two more
datagrams are in its batch. -/
def cancelledRound : List (Event Nat) :=
  .recv ((List.range 19).map fun conv => (1, pushOf conv)) ::
    List.replicate 17 (.route false true) ++ [.announce 0, .gone]

/-- **The table goes wrong** in two ways: a notice removes a newer session, and a round that is
dropped loses its datagrams and leaves a session in the table that nobody accepts. -/
theorem notice_removes_newer :
    (∃ s, (listener Nat).Reach s ∧ s.removed = [(0, 1)] ∧ ¬ s.Sound) ∧
    ∃ s, (listener Nat).Reach s ∧ (s.round = .idle ∧ s.received.length = 19 ∧
      s.fates.length = 17 ∧ s.table.lookup (1, 16) = some 16 ∧ 16 ∉ s.handed) ∧ ¬ s.Sound := by
  constructor
  · have hrun : (Lts.runWith Dispatcher.step (fun _ _ => true) .new staleNotice).any (fun s =>
        s.removed = [(0, 1)]) = true := by
      decide +kernel
    obtain ⟨s, hreach, hs⟩ := Lts.Reach.exists_run (T := listener Nat) (fun _ _ _ h => h) rfl hrun
    have hremoved : s.removed = [(0, 1)] := of_decide_eq_true hs
    refine ⟨s, hreach, hremoved, fun hsound => ?_⟩
    have hown := hsound.own (0, 1) (by rw [hremoved]; exact List.mem_singleton_self _)
    exact absurd hown (by decide)
  · have hrun : (Lts.runWith Dispatcher.step (fun _ _ => true) .new cancelledRound).any (fun s =>
        s.round = .idle ∧ s.received.length = 19 ∧ s.fates.length = 17 ∧
          s.table.lookup (1, 16) = some 16 ∧ 16 ∉ s.handed) = true := by
      decide +kernel
    obtain ⟨s, hreach, hs⟩ := Lts.Reach.exists_run (T := listener Nat) (fun _ _ _ h => h) rfl hrun
    have hend := of_decide_eq_true hs
    refine ⟨s, hreach, hend, fun hsound => ?_⟩
    obtain ⟨hround, -, -, hentry, hunseen⟩ := hend
    rcases hsound.handed _ _ hentry with hmem | ⟨rest, hr⟩
    · exact hunseen hmem
    · rw [hround] at hr
      cases hr

end Molehill.Listener
