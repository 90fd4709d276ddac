/-
# Pairing a visitor with its stripes

`pair_striped_group` (`core/server.rs`) gathers the data channels of one visitor.  An attempt draws
a group id, asks the client for one channel per stripe, and takes channels from the queue all
visitors of the service share; each one it takes is told its group and the index that is next.  A
channel that breaks ends the attempt, and the visitor goes on with another; a visitor whose waits
are used up is dropped.  Both ways the group is released: the request goes through the service's
control task to the session's writer, as all requests do, and the client drops the stripes it
parked (`StripeGroups::release`).

The function's own text says that every way an attempt can end without forwarding releases its
group.  Three ways do not: the service's shutdown, the end of its control task, and a request
queue that nobody reads.  All three can happen while the session goes on, as a deregistration shows
(`group_not_released`).  In every run in which they do not, and in which fewer than `2 ^ 32`
attempts are made, every attempt has an id of its own, every attempt that is given up is released
unless the session is gone, and a visitor is forwarded over exactly its channels, in order
(`pairing_sound`).
-/
import Mathlib.Data.List.Nodup
import Mathlib.Data.List.Range
import Molehill.Lib.Transition
import Molehill.Stripe.Groups

namespace Molehill.Server.Pairing

open Lib Stripe

/-! ## 1. The visitors of a service -/

/-- `MAX_STRIPES`. -/
def maxStripes : Nat := 64

/-- `PAIR_ATTEMPTS`. -/
def pairAttempts : Nat := 5

/-- `StripePlan::target`, from the counter it reads. -/
def target (counter : Nat) : Nat := max 1 (min counter maxStripes)

/-- `DataChannelRequest`. -/
inductive DataChannelRequest
  | plain
  | stripe (group index count : Nat)
  | releaseGroup (group : Nat)
  deriving DecidableEq

/-- One gather attempt: its group, and the channels it has labelled, in order. -/
structure Attempt where
  group : Nat
  gathered : List Nat
  deriving DecidableEq

/-- Where a visitor's pairing is: not begun, in the select, awaiting the write of a label, over. -/
inductive Phase
  | waiting
  | gathering (attempt : Attempt) (tries : Nat)
  | writing (attempt : Attempt) (tries channel : Nat)
  | finished
  deriving DecidableEq

structure Visitor where
  count : Nat
  phase : Phase
  deriving DecidableEq

/-- An attempt that is over, and whether its visitor is forwarded. -/
structure Ended where
  attempt : Attempt
  count : Nat
  forwarded : Bool
  deriving DecidableEq

/-- A service's pool with its visitors, and what was sent and written. -/
structure Pool where
  /-- `GROUP_IDS`. -/
  groupIds : Nat
  visitors : List Visitor
  /-- Who holds `stripe_gather`. -/
  gather : Option Nat
  queue : List Nat
  nextChannel : Nat
  /-- Whether the queue's sender is there. -/
  queueOpen : Bool
  /-- The requests the control task has not read. -/
  requests : List DataChannelRequest
  /-- Whether the control task runs. -/
  controlAlive : Bool
  /-- Whether the service was told to shut down. -/
  shutdown : Bool
  sessionUp : Bool
  /-- What the control task gave to the session's writer. -/
  sent : List DataChannelRequest
  /-- The labels written to the channels. -/
  labels : List (Nat × Offer)
  /-- The groups of the attempts, in the order they were begun. -/
  begun : List Nat
  ended : List Ended
  deriving DecidableEq

namespace Pool

/-- A service that is served; other services drew ids before. -/
def new : Pool where
  groupIds := 0
  visitors := []
  gather := none
  queue := []
  nextChannel := 0
  queueOpen := true
  requests := []
  controlAlive := true
  shutdown := false
  sessionUp := true
  sent := []
  labels := []
  begun := []
  ended := []

variable (s : Pool)

def setPhase (v : Nat) (x : Visitor) (phase : Phase) : Pool :=
  { s with visitors := s.visitors.set v { x with phase := phase } }

/-- The pairing is over, and the lock is let go. -/
def leave (v : Nat) (x : Visitor) : Pool :=
  { s.setPhase v x .finished with gather := if s.gather = some v then none else s.gather }

/-- The attempt is over. -/
def settle (attempt : Attempt) (count : Nat) (forwarded : Bool) : Pool :=
  { s with ended := s.ended ++ [⟨attempt, count, forwarded⟩] }

/-- `data_ch_req_tx.send` of each request, if somebody reads them. -/
def send (requests : List DataChannelRequest) : Pool :=
  if s.controlAlive then { s with requests := s.requests ++ requests } else s

/-- One turn of `'gather`, up to its select: an id, and a request for each stripe. -/
def beginAttempt (v : Nat) (x : Visitor) : Pool :=
  let group := s.groupIds
  let s := { s with groupIds := (group + 1) % 2 ^ 32, begun := s.begun ++ [group] }
  if s.controlAlive then
    (s.send ((List.range x.count).map fun index => .stripe group index x.count)).setPhase v x
      (.gathering ⟨group, []⟩ 0)
  else (s.settle ⟨group, []⟩ x.count false).leave v x

/-- A wait budget is over: the visitor is dropped, or what is missing is asked for again. -/
def budget (v : Nat) (x : Visitor) (a : Attempt) (tries : Nat) : Pool :=
  if pairAttempts ≤ tries + 1 then
    ((s.send [.releaseGroup a.group]).settle a x.count false).leave v x
  else if s.controlAlive then
    (s.send ((List.range' a.gathered.length (x.count - a.gathered.length)).map fun index =>
      .stripe a.group index x.count)).setPhase v x (.gathering a (tries + 1))
  else (s.settle a x.count false).leave v x

/-- The label is written: the channel is the group's, and the last one starts the forwarding. -/
def gathered (v : Nat) (x : Visitor) (a : Attempt) (tries channel : Nat) : Pool :=
  let a := { a with gathered := a.gathered ++ [channel] }
  if a.gathered.length = x.count then (s.settle a x.count true).leave v x
  else s.setPhase v x (.gathering a tries)

/-- The channel is broken: the attempt is given up, and another one begins. -/
def broken (v : Nat) (x : Visitor) (a : Attempt) : Pool :=
  ((s.send [.releaseGroup a.group]).settle a x.count false).beginAttempt v x

end Pool

/-! ## 2. The runs -/

inductive Event
  /-- A visitor is accepted; `counter` is the plan's. -/
  | visit (counter : Nat)
  /-- A visitor begins, with the lock if it has more than one stripe. -/
  | start (v : Nat)
  /-- A channel of the client arrives. -/
  | arrive
  | take (v : Nat)
  | budget (v : Nat)
  /-- A visitor sees that the service, its control task or its queue is gone. -/
  | stop (v : Nat)
  /-- The write of a label ends. -/
  | written (v : Nat) (ok : Bool)
  /-- The control task passes a request on. -/
  | pass
  | shutdown
  | controlEnds
  | queueCloses
  | sessionGone
  /-- A visitor of another service draws an id. -/
  | elsewhere
  deriving DecidableEq

namespace Pool

def step (s : Pool) : Event → Option Pool
  | .visit counter => some { s with visitors := s.visitors ++ [⟨target counter, .waiting⟩] }
  | .start v =>
    match s.visitors[v]? with
    | some ⟨count, .waiting⟩ =>
      if count ≤ 1 then some (s.beginAttempt v ⟨count, .waiting⟩)
      else if s.gather = none then
        some ({ s with gather := some v }.beginAttempt v ⟨count, .waiting⟩)
      else none
    | _ => none
  | .arrive =>
    if s.queueOpen then
      some { s with queue := s.queue ++ [s.nextChannel], nextChannel := s.nextChannel + 1 }
    else none
  | .take v =>
    match s.visitors[v]?, s.queue with
    | some ⟨count, .gathering a tries⟩, channel :: rest =>
      let s : Pool := { s with
        queue := rest
        labels := s.labels ++ [(channel, ⟨a.group, a.gathered.length, count⟩)] }
      some (s.setPhase v ⟨count, .gathering a tries⟩ (.writing a tries channel))
    | _, _ => none
  | .budget v =>
    match s.visitors[v]? with
    | some ⟨count, .gathering a tries⟩ => some (s.budget v ⟨count, .gathering a tries⟩ a tries)
    | _ => none
  | .stop v =>
    match s.visitors[v]? with
    | some ⟨count, .gathering a tries⟩ =>
      if s.shutdown ∨ s.controlAlive = false ∨ (s.queueOpen = false ∧ s.queue = []) then
        some ((s.settle a count false).leave v ⟨count, .gathering a tries⟩)
      else none
    | _ => none
  | .written v ok =>
    match s.visitors[v]? with
    | some ⟨count, .writing a tries channel⟩ =>
      if ok then some (s.gathered v ⟨count, .writing a tries channel⟩ a tries channel)
      else some (s.broken v ⟨count, .writing a tries channel⟩ a)
    | _ => none
  | .pass =>
    match s.requests with
    | request :: rest =>
      if s.controlAlive then some { s with requests := rest, sent := s.sent ++ [request] } else none
    | [] => none
  | .shutdown => some { s with shutdown := true }
  | .controlEnds => some { s with controlAlive := false }
  | .queueCloses => some { s with queueOpen := false }
  | .sessionGone => some { s with sessionUp := false }
  | .elsewhere =>
    some { s with groupIds := (s.groupIds + 1) % 2 ^ 32, begun := s.begun ++ [s.groupIds] }

end Pool

/-- The runs of a service's pool. -/
def pairing : Lts Pool Event where
  init s := s = .new
  step s e s' := s.step e = some s'

/-! ## 3. What is promised -/

/-- The attempt under way. -/
def Visitor.attempt (x : Visitor) : Option Attempt :=
  match x.phase with
  | .gathering a _ | .writing a _ _ => some a
  | .waiting | .finished => none

/-- Whether the request releases a group. -/
def DataChannelRequest.releases : DataChannelRequest → Bool
  | .releaseGroup _ => true
  | _ => false

namespace Pool

/-- **What is promised** of the attempts. -/
structure Sound (s : Pool) : Prop where
  /-- Every attempt has an id of its own. -/
  fresh : s.begun.Nodup
  /-- An attempt that is given up is released: the client was told, or will be, by a control task
  that has the request. -/
  released : ∀ e ∈ s.ended, e.forwarded = false → s.sessionUp = false ∨
    .releaseGroup e.attempt.group ∈ s.sent ∨
      (s.controlAlive = true ∧ .releaseGroup e.attempt.group ∈ s.requests)
  /-- A forwarded visitor has exactly its count of channels, each told the group and its own index,
  and nothing else. -/
  forwarded : ∀ e ∈ s.ended, e.forwarded = true →
    e.attempt.gathered.length = e.count ∧ e.attempt.gathered.Nodup ∧
      ∀ i channel : Nat, e.attempt.gathered[i]? = some channel →
        s.labels.filter (fun l => l.1 = channel) = [(channel, ⟨e.attempt.group, i, e.count⟩)]

/-- Whether the service is served: nothing a visitor or a request would find gone. -/
def served (s : Pool) : Bool := !s.shutdown && s.controlAlive && s.queueOpen

/-- Whether the control path is needed: for an attempt under way, or a release not yet passed on. -/
def needed (s : Pool) : Bool :=
  s.visitors.any (fun x => x.attempt.isSome) || s.requests.any DataChannelRequest.releases

/-- Whether the step leaves the control path to those who need it: while the session is up, the
service is not shut down, and its control task and queue do not go, under an attempt or a release
on its way, and no attempt begins after that; and an id is left to draw. -/
def keepsPath (s : Pool) : Event → Bool
  | .shutdown | .controlEnds | .queueCloses => !s.sessionUp || !s.needed
  | .start _ => (!s.sessionUp || s.served) && s.begun.length < 2 ^ 32
  | .written _ false | .elsewhere => s.begun.length < 2 ^ 32
  | _ => true

end Pool

/-! ## 4. One visitor's turn -/

/-- What a visitor's turn does: its phase, the attempts it ends, the requests it sends (which
nobody gets if the control task is gone), and whether it draws an id. -/
structure Turn (s : Pool) (v : Nat) (x : Visitor) (ends : List Ended)
    (asks : List DataChannelRequest) (draws : Bool) (s' : Pool) : Prop where
  visitors : s'.visitors = s.visitors.set v x
  ended : s'.ended = s.ended ++ ends
  requests : s'.requests = if s.controlAlive then s.requests ++ asks else s.requests
  begun : s'.begun = if draws then s.begun ++ [s.groupIds] else s.begun
  groupIds : s'.groupIds = if draws then (s.groupIds + 1) % 2 ^ 32 else s.groupIds
  queue : s'.queue = s.queue
  nextChannel : s'.nextChannel = s.nextChannel
  labels : s'.labels = s.labels
  sent : s'.sent = s.sent
  queueOpen : s'.queueOpen = s.queueOpen
  controlAlive : s'.controlAlive = s.controlAlive
  shutdown : s'.shutdown = s.shutdown
  sessionUp : s'.sessionUp = s.sessionUp

namespace Pool

variable {s s' : Pool} {v : Nat} {x : Visitor} {a : Attempt} {tries channel : Nat}

theorem send_eq (s : Pool) (requests : List DataChannelRequest) :
    s.send requests =
      { s with requests := if s.controlAlive then s.requests ++ requests else s.requests } := by
  unfold send
  split
  case isTrue => rfl
  case isFalse => rfl

theorem turn_stop (s : Pool) (v : Nat) (x : Visitor) (a : Attempt) (forwarded : Bool) :
    Turn s v ⟨x.count, .finished⟩ [⟨a, x.count, forwarded⟩] [] false
      ((s.settle a x.count forwarded).leave v x) := by
  refine ⟨rfl, rfl, ?_, rfl, rfl, rfl, rfl, rfl, rfl, rfl, rfl, rfl, rfl⟩
  rw [List.append_nil, ite_self]
  rfl

/-- The next attempt begins, if somebody reads its requests. -/
theorem turn_begin (s : Pool) (v : Nat) (x : Visitor) :
    (s.controlAlive = true ∧ ∃ asks,
        Turn s v ⟨x.count, .gathering ⟨s.groupIds, []⟩ 0⟩ [] asks true (s.beginAttempt v x)) ∨
      (s.controlAlive = false ∧
        Turn s v ⟨x.count, .finished⟩ [⟨⟨s.groupIds, []⟩, x.count, false⟩] [] true
          (s.beginAttempt v x)) := by
  unfold beginAttempt
  dsimp only
  split
  case isTrue hc =>
    refine .inl ⟨hc, (List.range x.count).map fun index => .stripe s.groupIds index x.count, ?_⟩
    rw [send_eq]
    exact ⟨rfl, (List.append_nil _).symm, rfl, rfl, rfl, rfl, rfl, rfl, rfl, rfl, rfl, rfl, rfl⟩
  case isFalse hc =>
    refine .inr ⟨Bool.eq_false_iff.mpr hc, rfl, rfl, ?_, rfl, rfl, rfl, rfl, rfl, rfl, rfl, rfl,
      rfl, rfl⟩
    rw [List.append_nil, ite_self]
    rfl

/-- The visitor is dropped, or it waits on. -/
theorem turn_budget (s : Pool) (v : Nat) (x : Visitor) (a : Attempt) (tries : Nat) :
    (∃ asks, Turn s v ⟨x.count, .finished⟩ [⟨a, x.count, false⟩] asks false (s.budget v x a tries) ∧
        (s.controlAlive = true → .releaseGroup a.group ∈ asks)) ∨
      ∃ asks, Turn s v ⟨x.count, .gathering a (tries + 1)⟩ [] asks false
        (s.budget v x a tries) := by
  unfold budget
  split
  case isTrue =>
    refine .inl ⟨[.releaseGroup a.group], ?_, fun _ => List.mem_singleton_self _⟩
    rw [send_eq]
    exact ⟨rfl, rfl, rfl, rfl, rfl, rfl, rfl, rfl, rfl, rfl, rfl, rfl, rfl⟩
  case isFalse =>
    split
    case isTrue hc =>
      rw [send_eq]
      exact .inr ⟨_, rfl, (List.append_nil _).symm, rfl, rfl, rfl, rfl, rfl, rfl, rfl, rfl, rfl,
        rfl, rfl⟩
    case isFalse hc => exact .inl ⟨[], turn_stop s v x a false, fun h => absurd h hc⟩

/-- The channel is the group's, and the visitor is forwarded if it was the last one. -/
theorem turn_gathered (s : Pool) (v : Nat) (x : Visitor) (a : Attempt) (tries channel : Nat) :
    (a.gathered.length + 1 = x.count ∧
        Turn s v ⟨x.count, .finished⟩ [⟨⟨a.group, a.gathered ++ [channel]⟩, x.count, true⟩] [] false
          (s.gathered v x a tries channel)) ∨
      (a.gathered.length + 1 ≠ x.count ∧
        Turn s v ⟨x.count, .gathering ⟨a.group, a.gathered ++ [channel]⟩ tries⟩ [] [] false
          (s.gathered v x a tries channel)) := by
  unfold gathered
  dsimp only
  rw [List.length_append, List.length_singleton]
  split
  case isTrue hlen => exact .inl ⟨hlen, turn_stop s v x _ true⟩
  case isFalse hlen =>
    refine .inr ⟨hlen, rfl, (List.append_nil _).symm, ?_, rfl, rfl, rfl, rfl, rfl, rfl, rfl, rfl,
      rfl, rfl⟩
    rw [List.append_nil, ite_self]
    rfl

/-- The attempt is released, and the next one begins. -/
theorem turn_broken (s : Pool) (v : Nat) (x : Visitor) (a : Attempt) :
    (s.controlAlive = true ∧ ∃ asks, .releaseGroup a.group ∈ asks ∧
        Turn s v ⟨x.count, .gathering ⟨s.groupIds, []⟩ 0⟩ [⟨a, x.count, false⟩] asks true
          (s.broken v x a)) ∨
      (s.controlAlive = false ∧
        Turn s v ⟨x.count, .finished⟩
          [⟨a, x.count, false⟩, ⟨⟨s.groupIds, []⟩, x.count, false⟩] [] true (s.broken v x a)) := by
  unfold broken
  rcases turn_begin ((s.send [.releaseGroup a.group]).settle a x.count false) v x with
    ⟨hc, asks, ht⟩ | ⟨hc, ht⟩
  · rw [send_eq] at hc ht ⊢
    refine .inl ⟨hc, .releaseGroup a.group :: asks, List.mem_cons_self, ?_⟩
    refine ⟨ht.visitors, ?_, ?_, ht.begun, ht.groupIds, ht.queue, ht.nextChannel, ht.labels,
      ht.sent, ht.queueOpen, ht.controlAlive, ht.shutdown, ht.sessionUp⟩
    · rw [ht.ended, List.append_nil]
      rfl
    · change s.controlAlive = true at hc
      rw [ht.requests, settle, if_pos hc, if_pos hc, if_pos hc, List.append_assoc]
      rfl
  · rw [send_eq] at hc ht ⊢
    refine .inr ⟨hc, ?_⟩
    refine ⟨ht.visitors, ?_, ?_, ht.begun, ht.groupIds, ht.queue, ht.nextChannel, ht.labels,
      ht.sent, ht.queueOpen, ht.controlAlive, ht.shutdown, ht.sessionUp⟩
    · rw [ht.ended, settle, List.append_assoc]
      rfl
    · change s.controlAlive = false at hc
      rw [ht.requests, settle]
      simp only [hc, Bool.false_eq_true, if_false]

end Pool

/-! ## 5. The ids -/

/-- The ids drawn so far are the first ones. -/
structure Numbered (s : Pool) : Prop where
  begun : s.begun = List.range s.begun.length
  counter : s.groupIds = s.begun.length % 2 ^ 32
  bound : s.begun.length ≤ 2 ^ 32

namespace Numbered

variable {s s' : Pool}

/-- An id is drawn while there is one. -/
theorem draw (h : Numbered s) (hlt : s.begun.length < 2 ^ 32)
    (hbegun : s'.begun = s.begun ++ [s.groupIds])
    (hcounter : s'.groupIds = (s.groupIds + 1) % 2 ^ 32) : Numbered s' := by
  have hlen : s'.begun.length = s.begun.length + 1 := by
    rw [hbegun, List.length_append, List.length_singleton]
  have hid : s.groupIds = s.begun.length := h.counter.trans (Nat.mod_eq_of_lt hlt)
  refine ⟨?_, ?_, ?_⟩
  · rw [hlen, hbegun, List.range_succ, hid, ← h.begun]
  · rw [hlen, hcounter, hid]
  · rw [hlen]
    exact hlt

theorem turn {v : Nat} {x : Visitor} {ends : List Ended} {asks : List DataChannelRequest}
    {draws : Bool} (h : Numbered s) (ht : Turn s v x ends asks draws s')
    (hlt : draws = true → s.begun.length < 2 ^ 32) : Numbered s' := by
  cases draws with
  | true => exact h.draw (hlt rfl) ht.begun ht.groupIds
  | false =>
    have hbegun : s'.begun = s.begun := ht.begun
    have hcounter : s'.groupIds = s.groupIds := ht.groupIds
    exact ⟨by rw [hbegun]; exact h.begun, by rw [hbegun, hcounter]; exact h.counter,
      by rw [hbegun]; exact h.bound⟩

end Numbered

/-! ## 6. The labels -/

/-- The channels of the attempt were told its group and their own index. -/
def Attempt.Fits (labels : List (Nat × Offer)) (a : Attempt) (count : Nat) : Prop :=
  ∀ i channel : Nat, a.gathered[i]? = some channel → (channel, ⟨a.group, i, count⟩) ∈ labels

/-- So were the visitor's, and the one it is writing to was told the next index. -/
structure Visitor.Fits (labels : List (Nat × Offer)) (x : Visitor) : Prop where
  count : 1 ≤ x.count
  attempt : ∀ a, x.attempt = some a → a.Fits labels x.count ∧ a.gathered.length < x.count
  writing : ∀ a tries channel, x.phase = .writing a tries channel →
    (channel, ⟨a.group, a.gathered.length, x.count⟩) ∈ labels

/-- **Every channel is told one thing**, when it leaves the queue. -/
structure Labelled (s : Pool) : Prop where
  once : (s.labels.map Prod.fst).Nodup
  known : ∀ l ∈ s.labels, l.1 < s.nextChannel
  queue : s.queue.Nodup
  queued : ∀ channel ∈ s.queue, channel < s.nextChannel ∧ ∀ l ∈ s.labels, l.1 ≠ channel
  visitors : ∀ x ∈ s.visitors, x.Fits s.labels
  forwarded : ∀ e ∈ s.ended, e.forwarded = true →
    e.attempt.Fits s.labels e.count ∧ e.attempt.gathered.length = e.count

theorem Attempt.Fits.mono {labels labels' : List (Nat × Offer)} {a : Attempt} {count : Nat}
    (h : a.Fits labels count) (hsub : labels ⊆ labels') : a.Fits labels' count :=
  fun i channel hi => hsub (h i channel hi)

theorem Visitor.Fits.mono {labels labels' : List (Nat × Offer)} {x : Visitor}
    (h : x.Fits labels) (hsub : labels ⊆ labels') : x.Fits labels' where
  count := h.count
  attempt := fun a ha => ⟨(h.attempt a ha).1.mono hsub, (h.attempt a ha).2⟩
  writing := fun a tries channel hw => hsub (h.writing a tries channel hw)

theorem Attempt.fits_nil (labels : List (Nat × Offer)) (group count : Nat) :
    (⟨group, []⟩ : Attempt).Fits labels count := by
  intro i channel hi
  cases hi

/-- The label that was written last. -/
theorem Attempt.Fits.snoc {labels : List (Nat × Offer)} {a : Attempt} {count channel : Nat}
    (h : a.Fits labels count) (hlast : (channel, ⟨a.group, a.gathered.length, count⟩) ∈ labels) :
    (⟨a.group, a.gathered ++ [channel]⟩ : Attempt).Fits labels count := by
  intro i c hi
  rcases Nat.lt_or_ge i a.gathered.length with hlt | hge
  · rw [List.getElem?_append_left hlt] at hi
    exact h i c hi
  · rw [List.getElem?_append_right hge] at hi
    obtain ⟨hlt, hc⟩ := List.getElem?_eq_some_iff.mp hi
    have heq : i = a.gathered.length := by
      rw [List.length_singleton] at hlt
      omega
    subst heq
    rw [List.getElem_singleton] at hc
    exact hc ▸ hlast

/-- A phase in which no channel is written to. -/
theorem Visitor.fits_of {labels : List (Nat × Offer)} {count : Nat} {phase : Phase}
    (hcount : 1 ≤ count) (hphase : ∀ a tries channel, phase ≠ .writing a tries channel)
    (hattempt : ∀ a, (⟨count, phase⟩ : Visitor).attempt = some a →
      a.Fits labels count ∧ a.gathered.length < count) : (⟨count, phase⟩ : Visitor).Fits labels :=
  ⟨hcount, hattempt, fun a tries channel hw => absurd hw (hphase a tries channel)⟩

theorem Visitor.fits_finished {labels : List (Nat × Offer)} {count : Nat} (hcount : 1 ≤ count) :
    (⟨count, .finished⟩ : Visitor).Fits labels :=
  Visitor.fits_of hcount (fun _ _ _ h => by cases h) (fun _ h => by cases h)

theorem Visitor.fits_gathering {labels : List (Nat × Offer)} {count tries : Nat} {a : Attempt}
    (hcount : 1 ≤ count) (hfits : a.Fits labels count) (hlen : a.gathered.length < count) :
    (⟨count, .gathering a tries⟩ : Visitor).Fits labels := by
  refine Visitor.fits_of hcount (fun _ _ _ h => by cases h) (fun b hb => ?_)
  cases hb
  exact ⟨hfits, hlen⟩

namespace Labelled

variable {s s' : Pool}

theorem turn {v : Nat} {x : Visitor} {ends : List Ended} {asks : List DataChannelRequest}
    {draws : Bool} (h : Labelled s) (ht : Turn s v x ends asks draws s') (hx : x.Fits s.labels)
    (hends : ∀ e ∈ ends, e.forwarded = true →
      e.attempt.Fits s.labels e.count ∧ e.attempt.gathered.length = e.count) : Labelled s' where
  once := by rw [ht.labels]; exact h.once
  known := by rw [ht.labels, ht.nextChannel]; exact h.known
  queue := by rw [ht.queue]; exact h.queue
  queued := by rw [ht.queue, ht.labels, ht.nextChannel]; exact h.queued
  visitors := by
    rw [ht.visitors, ht.labels]
    intro y hy
    rcases List.mem_or_eq_of_mem_set hy with hy | rfl
    · exact h.visitors y hy
    · exact hx
  forwarded := by
    rw [ht.ended, ht.labels]
    intro e he
    rcases List.mem_append.mp he with he | he
    · exact h.forwarded e he
    · exact hends e he

/-- A channel is told its group and its index. -/
theorem label (h : Labelled s) {v count tries channel : Nat} {a : Attempt} {rest : List Nat}
    (hv : s.visitors[v]? = some ⟨count, .gathering a tries⟩) (hq : s.queue = channel :: rest)
    (hs : s' = { s with
      queue := rest
      labels := s.labels ++ [(channel, ⟨a.group, a.gathered.length, count⟩)]
      visitors := s.visitors.set v ⟨count, .writing a tries channel⟩ }) : Labelled s' := by
  subst hs
  have hqueue := h.queue
  have hmem : channel ∈ s.queue := by rw [hq]; exact List.mem_cons_self
  obtain ⟨hknown, hnew⟩ := h.queued channel hmem
  rw [hq, List.nodup_cons] at hqueue
  have hsub : s.labels ⊆ s.labels ++ [(channel, ⟨a.group, a.gathered.length, count⟩)] :=
    List.subset_append_left _ _
  refine ⟨?_, fun l hl => ?_, hqueue.2, fun c hc => ⟨?_, fun l hl => ?_⟩, fun y hy => ?_,
    fun e he hf => ⟨(h.forwarded e he hf).1.mono hsub, (h.forwarded e he hf).2⟩⟩
  · rw [List.map_append, List.nodup_append]
    refine ⟨h.once, List.nodup_singleton _, fun c hc c' hc' heq => ?_⟩
    obtain ⟨l, hl, rfl⟩ := List.mem_map.mp hc
    rw [List.mem_singleton.mp hc'] at heq
    exact hnew l hl heq
  · rcases List.mem_append.mp hl with hl | hl
    · exact h.known l hl
    · rw [List.mem_singleton.mp hl]
      exact hknown
  · exact (h.queued c (by rw [hq]; exact List.mem_cons_of_mem _ hc)).1
  · rcases List.mem_append.mp hl with hl | hl
    · exact (h.queued c (by rw [hq]; exact List.mem_cons_of_mem _ hc)).2 l hl
    · rw [List.mem_singleton.mp hl]
      rintro rfl
      exact hqueue.1 hc
  · have hold := h.visitors _ (List.mem_of_getElem? hv)
    rcases List.mem_or_eq_of_mem_set hy with hy | rfl
    · exact (h.visitors y hy).mono hsub
    · refine ⟨hold.count, fun b hb => ?_, fun b tries' c hw => ?_⟩
      · cases hb
        exact ⟨((hold.attempt a rfl).1).mono hsub, (hold.attempt a rfl).2⟩
      · cases hw
        exact List.mem_append_right _ (List.mem_singleton_self _)

/-- What a forwarded visitor's channels were told. -/
theorem filter_eq (h : Labelled s) {channel : Nat} {o : Offer} (hmem : (channel, o) ∈ s.labels) :
    s.labels.filter (fun l => l.1 = channel) = [(channel, o)] := by
  have honce := h.once
  generalize s.labels = labels at hmem honce
  induction labels with
  | nil => cases hmem
  | cons l rest ih =>
    rw [List.map_cons, List.nodup_cons] at honce
    rcases List.mem_cons.mp hmem with rfl | hmem
    · have hrest : rest.filter (fun l => l.1 = channel) = [] := by
        refine List.filter_eq_nil_iff.mpr fun l hl hkey => ?_
        exact honce.1 (List.mem_map.mpr ⟨l, hl, of_decide_eq_true hkey⟩)
      rw [List.filter_cons, if_pos (decide_eq_true rfl), hrest]
    · have hne : ¬ l.1 = channel := by
        intro hkey
        exact honce.1 (List.mem_map.mpr ⟨_, hmem, hkey.symm⟩)
      rw [List.filter_cons, if_neg (by rw [decide_eq_true_eq]; exact hne)]
      exact ih hmem honce.2

/-- A forwarded visitor's channels are distinct: one channel is told one index. -/
theorem nodup (h : Labelled s) {e : Ended} (hfits : e.attempt.Fits s.labels e.count) :
    e.attempt.gathered.Nodup := by
  rw [List.nodup_iff_getElem?_ne_getElem?]
  intro i j hij hj heq
  have hi := List.getElem?_eq_getElem (Nat.lt_trans hij hj)
  have hli := h.filter_eq (hfits i _ hi)
  have hlj := h.filter_eq (hfits j _ (heq ▸ hi))
  rw [hli] at hlj
  cases hlj
  exact Nat.lt_irrefl _ hij

end Labelled

/-! ## 7. The releases -/

/-- **What is given up is released**, over a control path that is there while it is needed. -/
structure Kept (s : Pool) : Prop where
  path : s.sessionUp = true → s.needed = true → s.served = true
  released : ∀ e ∈ s.ended, e.forwarded = false → s.sessionUp = false ∨
    .releaseGroup e.attempt.group ∈ s.sent ∨
      (s.controlAlive = true ∧ .releaseGroup e.attempt.group ∈ s.requests)

namespace Pool

variable {s s' : Pool} {v : Nat} {x : Visitor}

theorem needed_of_attempt (hv : s.visitors[v]? = some x) (hx : x.attempt.isSome = true) :
    s.needed = true := by
  rw [needed, Bool.or_eq_true, List.any_eq_true]
  exact .inl ⟨x, List.mem_of_getElem? hv, hx⟩

theorem served_iff (s : Pool) :
    s.served = true ↔ s.shutdown = false ∧ s.controlAlive = true ∧ s.queueOpen = true := by
  rw [served, Bool.and_eq_true, Bool.and_eq_true, Bool.not_eq_true', and_assoc]

/-- A release on its way needs the control task. -/
theorem not_mem_requests (h : s.needed = false) (group : Nat) :
    .releaseGroup group ∉ s.requests := by
  intro hmem
  rw [needed, Bool.or_eq_false_iff] at h
  exact Bool.eq_false_iff.mp h.2 (List.any_eq_true.mpr ⟨_, hmem, rfl⟩)

end Pool

namespace Kept

variable {s s' : Pool}

theorem turn {v : Nat} {x : Visitor} {ends : List Ended} {asks : List DataChannelRequest}
    {draws : Bool} (h : Kept s) (ht : Turn s v x ends asks draws s')
    (hserved : s.sessionUp = true → s.served = true)
    (hends : ∀ e ∈ ends, e.forwarded = false → s.sessionUp = true →
      .releaseGroup e.attempt.group ∈ asks) : Kept s' where
  path := by
    intro hup _
    rw [ht.sessionUp] at hup
    have hs := (s.served_iff).mp (hserved hup)
    rw [s'.served_iff, ht.shutdown, ht.controlAlive, ht.queueOpen]
    exact hs
  released := by
    rw [ht.ended, ht.sessionUp, ht.sent, ht.controlAlive, ht.requests]
    intro e he hf
    rcases List.mem_append.mp he with he | he
    · rcases h.released e he hf with hgone | hsent | ⟨hc, hreq⟩
      · exact .inl hgone
      · exact .inr (.inl hsent)
      · rw [if_pos hc]
        exact .inr (.inr ⟨hc, List.mem_append_left _ hreq⟩)
    · cases hup : s.sessionUp with
      | false => exact .inl rfl
      | true =>
        have hc := ((s.served_iff).mp (hserved hup)).2.1
        rw [if_pos hc]
        exact .inr (.inr ⟨hc, List.mem_append_right _ (hends e he hf hup)⟩)

/-- The control path goes while nobody needs it. -/
theorem closed (h : Kept s) (hok : (!s.sessionUp || !s.needed) = true)
    (hneeded : s'.needed = s.needed) (hended : s'.ended = s.ended) (hsent : s'.sent = s.sent)
    (hup : s'.sessionUp = s.sessionUp) : Kept s' := by
  rw [Bool.or_eq_true, Bool.not_eq_true', Bool.not_eq_true'] at hok
  refine ⟨fun hup' hn => ?_, fun e he hf => ?_⟩
  · rw [hup] at hup'
    rw [hneeded] at hn
    rcases hok with hgone | hidle
    · exact absurd (hgone.symm.trans hup') Bool.false_ne_true
    · exact absurd (hidle.symm.trans hn) Bool.false_ne_true
  · rw [hended] at he
    rw [hup, hsent]
    rcases hok with hgone | hidle
    · exact .inl hgone
    · rcases h.released e he hf with hgone | hs | ⟨_, hreq⟩
      · exact .inl hgone
      · exact .inr (.inl hs)
      · exact absurd hreq (Pool.not_mem_requests hidle _)

/-- Nothing happens to the control path. -/
theorem frame (h : Kept s) (hneeded : s'.needed = true → s.needed = true)
    (hserved : s'.served = s.served) (hended : s'.ended = s.ended) (hsent : s'.sent = s.sent)
    (hrequests : s'.requests = s.requests) (hc : s'.controlAlive = s.controlAlive)
    (hup : s'.sessionUp = s.sessionUp) : Kept s' where
  path := by
    rw [hup, hserved]
    exact fun hu hn => h.path hu (hneeded hn)
  released := by
    rw [hended, hup, hsent, hc, hrequests]
    exact h.released

/-- The control task passes a request on. -/
theorem pass (h : Kept s) {request : DataChannelRequest} {rest : List DataChannelRequest}
    (hr : s.requests = request :: rest) :
    Kept { s with requests := rest, sent := s.sent ++ [request] } where
  path := by
    intro hup hn
    refine h.path hup ?_
    rw [Pool.needed, Bool.or_eq_true] at hn ⊢
    refine hn.imp id fun hrest => ?_
    rw [hr, List.any_cons, Bool.or_eq_true]
    exact .inr hrest
  released := by
    intro e he hf
    rcases h.released e he hf with hgone | hs | ⟨hc, hreq⟩
    · exact .inl hgone
    · exact .inr (.inl (List.mem_append_left _ hs))
    · rw [hr] at hreq
      rcases List.mem_cons.mp hreq with heq | hreq
      · exact .inr (.inl (List.mem_append_right _ (heq ▸ List.mem_singleton_self _)))
      · exact .inr (.inr ⟨hc, hreq⟩)

end Kept

/-! ## 8. Every run -/

/-- What the three parts say together, in every state. -/
structure Inv (s : Pool) : Prop where
  numbered : Numbered s
  labelled : Labelled s
  kept : Kept s

namespace Inv

variable {s s' : Pool} {v count : Nat} {phase : Phase}

/-- A visitor that begins, or begins again: the id is fresh and nothing is gathered. -/
theorem begun (h : Inv s) {ends : List Ended} {asks : List DataChannelRequest}
    (hcount : 1 ≤ count)
    (ht : Turn s v ⟨count, .gathering ⟨s.groupIds, []⟩ 0⟩ ends asks true s')
    (hids : s.begun.length < 2 ^ 32) (hserved : s.sessionUp = true → s.served = true)
    (hends : ∀ e ∈ ends, e.forwarded = false ∧ .releaseGroup e.attempt.group ∈ asks) : Inv s' where
  numbered := h.numbered.turn ht fun _ => hids
  labelled := by
    refine h.labelled.turn ht (Visitor.fits_gathering hcount (Attempt.fits_nil _ _ _) hcount) ?_
    intro e he hf
    rw [(hends e he).1] at hf
    cases hf
  kept := h.kept.turn ht hserved fun e he _ _ => (hends e he).2

/-- A visitor that is given up: its last attempts are released, or the session is gone. -/
theorem dropped (h : Inv s) {ends : List Ended} {asks : List DataChannelRequest} {draws : Bool}
    (hcount : 1 ≤ count) (ht : Turn s v ⟨count, .finished⟩ ends asks draws s')
    (hids : draws = true → s.begun.length < 2 ^ 32)
    (hserved : s.sessionUp = true → s.served = true)
    (hends : ∀ e ∈ ends, e.forwarded = false ∧
      (s.sessionUp = true → .releaseGroup e.attempt.group ∈ asks)) : Inv s' where
  numbered := h.numbered.turn ht hids
  labelled := by
    refine h.labelled.turn ht (Visitor.fits_finished hcount) ?_
    intro e he hf
    rw [(hends e he).1] at hf
    cases hf
  kept := h.kept.turn ht hserved fun e he _ hup => (hends e he).2 hup

/-- A visitor that waits for more channels. -/
theorem waits (h : Inv s) {asks : List DataChannelRequest} {a : Attempt} {tries : Nat}
    (hcount : 1 ≤ count) (ht : Turn s v ⟨count, .gathering a tries⟩ [] asks false s')
    (hfits : a.Fits s.labels count) (hlen : a.gathered.length < count)
    (hserved : s.sessionUp = true → s.served = true) : Inv s' where
  numbered := h.numbered.turn ht nofun
  labelled := h.labelled.turn ht (Visitor.fits_gathering hcount hfits hlen) nofun
  kept := h.kept.turn ht hserved nofun

theorem start (h : Inv s) (hcount : 1 ≤ count) (hids : s.begun.length < 2 ^ 32)
    (hserved : s.sessionUp = true → s.served = true) :
    Inv (s.beginAttempt v ⟨count, phase⟩) := by
  rcases s.turn_begin v ⟨count, phase⟩ with ⟨_, asks, ht⟩ | ⟨hc, ht⟩
  · exact h.begun hcount ht hids hserved nofun
  · refine h.dropped hcount ht (fun _ => hids) hserved fun e he => ?_
    rw [List.mem_singleton.mp he]
    refine ⟨rfl, fun hup => ?_⟩
    exact absurd (hc.symm.trans (s.served_iff.mp (hserved hup)).2.1) Bool.false_ne_true

theorem broken (h : Inv s) {a : Attempt} (hcount : 1 ≤ count) (hids : s.begun.length < 2 ^ 32)
    (hserved : s.sessionUp = true → s.served = true) :
    Inv (s.broken v ⟨count, phase⟩ a) := by
  rcases s.turn_broken v ⟨count, phase⟩ a with ⟨_, asks, hrel, ht⟩ | ⟨hc, ht⟩
  · refine h.begun hcount ht hids hserved fun e he => ?_
    rw [List.mem_singleton.mp he]
    exact ⟨rfl, hrel⟩
  · have hgone : s.sessionUp ≠ true := fun hup =>
      absurd (hc.symm.trans (s.served_iff.mp (hserved hup)).2.1) Bool.false_ne_true
    refine h.dropped hcount ht (fun _ => hids) hserved fun e he => ⟨?_, fun hup => absurd hup hgone⟩
    rcases List.mem_cons.mp he with rfl | he
    · rfl
    · rw [List.mem_singleton.mp he]

/-- A wait budget is over. -/
theorem budget (h : Inv s) {a : Attempt} {tries : Nat}
    (hv : s.visitors[v]? = some ⟨count, .gathering a tries⟩)
    (hserved : s.sessionUp = true → s.served = true) :
    Inv (s.budget v ⟨count, .gathering a tries⟩ a tries) := by
  have hx := h.labelled.visitors _ (List.mem_of_getElem? hv)
  rcases s.turn_budget v ⟨count, .gathering a tries⟩ a tries with ⟨asks, ht, hrel⟩ | ⟨asks, ht⟩
  · refine h.dropped hx.count ht nofun hserved fun e he => ?_
    rw [List.mem_singleton.mp he]
    exact ⟨rfl, fun hup => hrel (s.served_iff.mp (hserved hup)).2.1⟩
  · obtain ⟨hfits, hlen⟩ := hx.attempt a rfl
    exact h.waits hx.count ht hfits hlen hserved

/-- A label is written: the channel is the group's, and the last one starts the forwarding. -/
theorem gathered (h : Inv s) {a : Attempt} {tries channel : Nat}
    (hv : s.visitors[v]? = some ⟨count, .writing a tries channel⟩)
    (hserved : s.sessionUp = true → s.served = true) :
    Inv (s.gathered v ⟨count, .writing a tries channel⟩ a tries channel) := by
  have hx := h.labelled.visitors _ (List.mem_of_getElem? hv)
  obtain ⟨hfits, hlen⟩ := hx.attempt a rfl
  have hsnoc := hfits.snoc (hx.writing a tries channel rfl)
  rcases s.turn_gathered v ⟨count, .writing a tries channel⟩ a tries channel with
    ⟨hcount, ht⟩ | ⟨hcount, ht⟩
  · refine ⟨h.numbered.turn ht nofun,
      h.labelled.turn ht (Visitor.fits_finished hx.count) fun e he _ => ?_,
      h.kept.turn ht hserved fun e he hf => ?_⟩
    · rw [List.mem_singleton.mp he]
      exact ⟨hsnoc, by rw [List.length_append, List.length_singleton]; exact hcount⟩
    · rw [List.mem_singleton.mp he] at hf
      cases hf
  · have hlt : (a.gathered ++ [channel]).length < count := by
      rw [List.length_append, List.length_singleton]
      dsimp only at hlen hcount
      omega
    exact h.waits hx.count ht hsnoc hlt hserved

/-- A visitor sees that the service is gone: then the session is. -/
theorem stop (h : Inv s) {a : Attempt} {tries : Nat}
    (hv : s.visitors[v]? = some ⟨count, .gathering a tries⟩)
    (hserved : s.sessionUp = true → s.served = true)
    (hstop : s.shutdown = true ∨ s.controlAlive = false ∨ (s.queueOpen = false ∧ s.queue = [])) :
    Inv ((s.settle a count false).leave v ⟨count, .gathering a tries⟩) := by
  have hx := h.labelled.visitors _ (List.mem_of_getElem? hv)
  have ht := s.turn_stop v ⟨count, .gathering a tries⟩ a false
  refine h.dropped hx.count ht nofun hserved fun e he => ?_
  rw [List.mem_singleton.mp he]
  refine ⟨rfl, fun hup => ?_⟩
  obtain ⟨hshut, hc, hq⟩ := s.served_iff.mp (hserved hup)
  rw [hshut, hc, hq] at hstop
  rcases hstop with hstop | hstop | ⟨hstop, _⟩ <;> cases hstop

/-- What the parts say of a state whose control path, ids and labels are as before. -/
theorem of_kept (h : Inv s) (hkept : Kept s') (hbegun : s'.begun = s.begun)
    (hids : s'.groupIds = s.groupIds) (hlabels : s'.labels = s.labels) (hqueue : s'.queue = s.queue)
    (hnext : s'.nextChannel = s.nextChannel) (hvisitors : s'.visitors = s.visitors)
    (hended : s'.ended = s.ended) : Inv s' := by
  obtain ⟨hfirst, hcounter, hbound⟩ := h.numbered
  obtain ⟨honce, hknown, hnodup, hqueued, hfits, hforwarded⟩ := h.labelled
  refine ⟨⟨?_, ?_, ?_⟩, ⟨?_, ?_, ?_, ?_, ?_, ?_⟩, hkept⟩
  all_goals simp only [hbegun, hids, hlabels, hqueue, hnext, hvisitors, hended]
  all_goals assumption

/-- The control path that an attempt under way finds. -/
theorem served (h : Inv s) {x : Visitor} (hv : s.visitors[v]? = some x)
    (hx : x.attempt.isSome = true) : s.sessionUp = true → s.served = true :=
  fun hup => h.kept.path hup (Pool.needed_of_attempt hv hx)

theorem new : Inv .new := by
  refine ⟨⟨rfl, rfl, Nat.zero_le _⟩,
    ⟨List.nodup_nil, nofun, List.nodup_nil, nofun, nofun, nofun⟩, ?_⟩
  exact ⟨fun _ h => absurd h Bool.false_ne_true, nofun⟩

/-- A visitor is accepted, with one stripe at least. -/
theorem visit (h : Inv s) (counter : Nat) :
    Inv { s with visitors := s.visitors ++ [⟨target counter, .waiting⟩] } := by
  obtain ⟨hfirst, hcounter, hbound⟩ := h.numbered
  obtain ⟨honce, hknown, hnodup, hqueued, hfits, hforwarded⟩ := h.labelled
  refine ⟨⟨hfirst, hcounter, hbound⟩,
    ⟨honce, hknown, hnodup, hqueued, fun x hx => ?_, hforwarded⟩, ?_⟩
  · rcases List.mem_append.mp hx with hx | hx
    · exact hfits x hx
    · rw [List.mem_singleton.mp hx]
      exact Visitor.fits_of (Nat.le_max_left _ _) nofun nofun
  · refine h.kept.frame (fun hn => ?_) rfl rfl rfl rfl rfl rfl
    simpa [Pool.needed, Visitor.attempt] using hn

/-- A channel arrives, under a name of its own. -/
theorem arrive (h : Inv s) :
    Inv { s with queue := s.queue ++ [s.nextChannel], nextChannel := s.nextChannel + 1 } := by
  obtain ⟨hfirst, hcounter, hbound⟩ := h.numbered
  obtain ⟨honce, hknown, hnodup, hqueued, hfits, hforwarded⟩ := h.labelled
  refine ⟨⟨hfirst, hcounter, hbound⟩, ⟨honce, fun l hl => Nat.lt_succ_of_lt (hknown l hl), ?_,
    fun c hc => ?_, hfits, hforwarded⟩, h.kept.frame id rfl rfl rfl rfl rfl rfl⟩
  · rw [List.nodup_append]
    refine ⟨hnodup, List.nodup_singleton _, fun c hc c' hc' heq => ?_⟩
    rw [List.mem_singleton.mp hc'] at heq
    exact absurd (hqueued c hc).1 (by omega)
  · rcases List.mem_append.mp hc with hc | hc
    · exact ⟨Nat.lt_succ_of_lt (hqueued c hc).1, (hqueued c hc).2⟩
    · rw [List.mem_singleton.mp hc]
      exact ⟨Nat.lt_succ_self _, fun l hl heq => absurd (hknown l hl) (by omega)⟩

/-- **One step** of a run whose control path is kept. -/
theorem step {e : Event} (h : Inv s) (hok : s.keepsPath e = true) (hs : s.step e = some s') :
    Inv s' := by
  cases e with
  | visit counter =>
    cases hs
    exact h.visit counter
  | start v =>
    rw [Pool.keepsPath, Bool.and_eq_true, Bool.or_eq_true, Bool.not_eq_true', decide_eq_true_eq]
      at hok
    have hserved : s.sessionUp = true → s.served = true := fun hup =>
      hok.1.resolve_left (by rw [hup]; nofun)
    simp only [Pool.step] at hs
    split at hs
    case h_1 count hv =>
      have hcount := (h.labelled.visitors _ (List.mem_of_getElem? hv)).count
      split at hs
      case isTrue =>
        cases hs
        exact h.start hcount hok.2 hserved
      case isFalse =>
        split at hs
        case isTrue =>
          cases hs
          have h' : Inv { s with gather := some v } := h.of_kept
            (h.kept.frame id rfl rfl rfl rfl rfl rfl) rfl rfl rfl rfl rfl rfl rfl
          exact h'.start hcount hok.2 hserved
        case isFalse => cases hs
    case h_2 => cases hs
  | arrive =>
    simp only [Pool.step] at hs
    split at hs
    case isTrue =>
      cases hs
      exact h.arrive
    case isFalse => cases hs
  | take v =>
    simp only [Pool.step] at hs
    split at hs
    case h_1 count a tries channel rest hv hq =>
      cases hs
      refine ⟨⟨h.numbered.begun, h.numbered.counter, h.numbered.bound⟩,
        h.labelled.label hv hq rfl, ?_⟩
      exact h.kept.frame (fun _ => Pool.needed_of_attempt hv rfl) rfl rfl rfl rfl rfl rfl
    case h_2 => cases hs
  | budget v =>
    simp only [Pool.step] at hs
    split at hs
    case h_1 count a tries hv =>
      cases hs
      exact h.budget hv (h.served hv rfl)
    case h_2 => cases hs
  | stop v =>
    simp only [Pool.step] at hs
    split at hs
    case h_1 count a tries hv =>
      split at hs
      case isTrue hstop =>
        cases hs
        exact h.stop hv (h.served hv rfl) hstop
      case isFalse => cases hs
    case h_2 => cases hs
  | written v ok =>
    simp only [Pool.step] at hs
    split at hs
    case h_1 count a tries channel hv =>
      cases ok with
      | true =>
        cases hs
        exact h.gathered hv (h.served hv rfl)
      | false =>
        cases hs
        have hcount := (h.labelled.visitors _ (List.mem_of_getElem? hv)).count
        exact h.broken hcount (of_decide_eq_true hok) (h.served hv rfl)
    case h_2 => cases hs
  | pass =>
    simp only [Pool.step] at hs
    split at hs
    case h_1 request rest hr =>
      split at hs
      case isTrue =>
        cases hs
        exact h.of_kept (h.kept.pass hr) rfl rfl rfl rfl rfl rfl rfl
      case isFalse => cases hs
    case h_2 => cases hs
  | shutdown | controlEnds | queueCloses =>
    cases hs
    exact h.of_kept (h.kept.closed hok rfl rfl rfl rfl) rfl rfl rfl rfl rfl rfl rfl
  | sessionGone =>
    cases hs
    exact h.of_kept ⟨nofun, fun _ _ _ => .inl rfl⟩ rfl rfl rfl rfl rfl rfl rfl
  | elsewhere =>
    cases hs
    exact ⟨h.numbered.draw (of_decide_eq_true hok) rfl rfl, ⟨h.labelled.once, h.labelled.known,
      h.labelled.queue, h.labelled.queued, h.labelled.visitors, h.labelled.forwarded⟩,
      h.kept.frame id rfl rfl rfl rfl rfl rfl⟩

theorem sound (h : Inv s) : s.Sound where
  fresh := by
    rw [h.numbered.begun]
    exact List.nodup_range
  released := h.kept.released
  forwarded := by
    intro e he hf
    obtain ⟨hfits, hlen⟩ := h.labelled.forwarded e he hf
    exact ⟨hlen, h.labelled.nodup hfits,
      fun i channel hi => h.labelled.filter_eq (hfits i channel hi)⟩

end Inv

/-- **Pairing.**  In every run whose steps leave the control path to those who need it, every
attempt has an id of its own, every attempt that is given up is released unless the session is
gone, and every forwarded visitor has its channels in order. -/
theorem pairing_sound {s : Pool}
    (h : (pairing.restrict fun s e => s.keepsPath e = true).Reach s) : s.Sound := by
  refine Inv.sound (h.invariant ?_ ?_)
  · rintro s rfl
    exact Inv.new
  · rintro s e s' hinv ⟨hok, hs⟩
    exact hinv.step hok hs

/-- A visitor of two stripes whose first channel breaks is forwarded at its second attempt, and the
first one is released. -/
theorem pairing_sound_retry : ∃ s, (pairing.restrict fun s e => s.keepsPath e = true).Reach s ∧
    s.Sound ∧ s.ended = [⟨⟨0, []⟩, 2, false⟩, ⟨⟨1, [1, 2]⟩, 2, true⟩] ∧
      s.sent.count (.releaseGroup 0) = 1 := by
  have hrun : (Lts.runWith Pool.step Pool.keepsPath .new
      [.visit 2, .start 0, .arrive, .arrive, .take 0, .written 0 false, .arrive, .pass, .pass,
        .pass, .take 0, .written 0 true, .take 0, .written 0 true]).any (fun s =>
      s.ended = [⟨⟨0, []⟩, 2, false⟩, ⟨⟨1, [1, 2]⟩, 2, true⟩] ∧
        s.sent.count (.releaseGroup 0) = 1) = true := by
    decide
  obtain ⟨s, hreach, hs⟩ := Lts.Reach.exists_runWith (T := pairing)
    (C := fun s e => s.keepsPath e = true) (fun _ _ _ h => h) (fun _ _ h => h) rfl hrun
  exact ⟨s, hreach, pairing_sound hreach, of_decide_eq_true hs⟩

/-- A service is deregistered while a visitor gathers: nothing releases its group, and the session
goes on. -/
theorem group_not_released : ¬ ∀ s, pairing.Reach s → s.Sound := by
  intro hall
  have hrun : (Lts.runWith Pool.step (fun _ _ => true) .new
      [.visit 1, .start 0, .shutdown, .stop 0]).any (fun s =>
      s.ended = [⟨⟨0, []⟩, 1, false⟩] ∧ s.sessionUp ∧ s.sent = [] ∧
        s.requests = [.stripe 0 0 1]) = true := by
    decide
  obtain ⟨s, hreach, hs⟩ := Lts.Reach.exists_run (T := pairing) (fun _ _ _ h => h) rfl hrun
  obtain ⟨hended, hup, hsent, hrequests⟩ := of_decide_eq_true hs
  have hrel := (hall s hreach).released ⟨⟨0, []⟩, 1, false⟩
    (by rw [hended]; exact List.mem_singleton_self _) rfl
  rw [hup, hsent, hrequests] at hrel
  rcases hrel with hgone | hsent | ⟨_, hreq⟩
  · cases hgone
  · cases hsent
  · cases List.mem_singleton.mp hreq

end Molehill.Server.Pairing
