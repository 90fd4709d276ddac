/-
# Draining a lane: when the two ends agree

The protocol has no attempt number, and the client keeps the last answer it got.  An answer to an
earlier ask, or to its cancel, that is read after a new ask decides the new one: a stale `READY`
retires a lane on an ask that was called off (`drains_disagree`), a stale `CANCELLED` makes the
client forget an ask the server then acts on.  A lane id that is dialed again after a
re-registration inherits what was outstanding under it.  And a lane may be retired that no message
is about: lending retires one without the peer (`lent_without_drain`), and `drain_step` retires the
lane that has come into the slot it read (`retired_for_another`).  Nor are the ends' own steps
whole: the lane that the policy picked may be another by the time it is asked for
(`asked_for_another`), and a `READY` that the reporter is about to send may be about an earlier
lane (`ready_from_before`).

Where that cannot happen the protocol is right (`drain_agreement`).  The condition (`WellTimed`)
is on the state before a step: a lane is asked for only when nothing about its id is outstanding,
it is the one that was picked and neither end, nor what the reporter has read, has it draining; an
id is dialed only when nothing of an earlier lane of that id is left; the session is not lost under
an outstanding drain; the server knows the service of a lane it holds when it serves a request about
it; and no lending, and no retirement for another lane, marks the slot the lane has or joins.
-/
import Molehill.Transparent.Drain

namespace Molehill.Transparent

open Lib Function

/-! ## 1. The condition -/

/-- Nothing under this name can be mistaken for something else by this step. -/
def WellTimed (r : LaneRecord) : LaneEvent → Prop
  | .ask =>
    r.asked = false →
      r.requests = [] ∧ r.answers = [] ∧ r.clientDue = [] ∧
        (∀ l ∈ r.lanes, l.draining = false ∧ r.looking = .picked l.born) ∧
          ∀ m ∈ r.members ++ r.sampled, m.peerDraining = false
  | .serve known => known = true ∨ r.members = []
  | .dial =>
    r.asked = false ∧ r.requests = [] ∧ r.clientDue = [] ∧ r.serverDue = [] ∧ r.lanes = [] ∧
      r.members = []
  | .clientJoins _ _ draining => draining = false
  | .reconnect => r.asked = false ∧ r.requests = []
  | _ => True

/-- The name's lane is not in the slot. -/
def LaneRecord.Clear (r : LaneRecord) (slot : Nat) : Prop := ∀ l ∈ r.lanes, l.slot ≠ slot

/-- The step is well timed for the name. -/
def WellTimedFor (name : LaneName) (s : Drains) : DrainEvent → Prop
  | .under other e => other = name → WellTimed (s.records name) e
  | .retire other => other ≠ name → other.1 = name.1 → ∀ slot answer,
      (s.records other).looking = .found slot answer → (s.records name).Clear slot
  | .lend service slot => service = name.1 → (s.records name).Clear slot
  | .reconnect => WellTimed (s.records name) .reconnect

/-! ## 2. The invariant -/

/-- What holds under a name whose steps are well timed. -/
structure LaneRecord.Orderly (r : LaneRecord) : Prop where
  /-- An outstanding ask has at most its own request before it. -/
  asked : r.asked = true → r.requests = [] ∨ r.requests = [⟨false, r.attempt⟩]
  /-- Without one there is at most the rest of an ask that was called off. -/
  idle : r.asked = false →
    r.requests = [] ∨ r.requests = [⟨true, r.attempt⟩] ∨
      r.requests = [⟨false, r.attempt⟩, ⟨true, r.attempt⟩]
  /-- Every answer is to the last ask, and none calls an outstanding one off. -/
  current : ∀ a ∈ r.answers, a.attempt = r.attempt ∧ (a.state = .cancelled → r.asked = false)
  /-- Until the server acts on an ask it says nothing and has nothing marked. -/
  unread : ∀ rest, r.requests = ⟨false, r.attempt⟩ :: rest →
    r.answers = [] ∧ (∀ m ∈ r.members, m.peerDraining = false) ∧
      ∀ m ∈ r.sampled, m.peerDraining = false
  marked : ∀ m ∈ r.members, m.peerDraining = true → m.drain = r.attempt
  sampled : ∀ m ∈ r.sampled, m.peerDraining = true → m.drain = r.attempt
  /-- Once it has acted on it, it either marked the lane, or had none and says so. -/
  acted : r.asked = true → r.requests = [] → r.looking ≠ .dropping →
    (r.serverDue = [] ∧ (∀ m ∈ r.members, m.peerDraining = true) ∧
        ∀ a ∈ r.answers, a.state ≠ .unknown) ∨
      ((∀ m ∈ r.members, m.peerDraining = false) ∧ (∀ m ∈ r.sampled, m.peerDraining = false) ∧
        r.answers ≠ [] ∧ ∀ a ∈ r.answers, a.state = .unknown)
  settled : r.asked = false → r.requests = [] →
    ∀ l ∈ r.lanes, ∀ m ∈ r.members, l.draining = m.peerDraining
  retiring : ∀ l ∈ r.lanes, l.draining = true →
    r.requests = [] ∧ r.serverDue = [] ∧ (r.asked = false ∨ r.looking = .dropping)
  due : r.clientDue ≠ [] →
    r.asked = false ∧ r.requests = [] ∧ ∀ m ∈ r.members, m.peerDraining = false
  /-- At most one lane of the id exists at each end. -/
  client : r.lanes.length + r.clientDue.length ≤ 1
  server : r.members.length + r.serverDue.length ≤ 1
  target : r.asked = true → ∀ l ∈ r.lanes, r.target = some l.born
  /-- A `READY` is acted on while the server has the lane marked. -/
  deciding : ∀ a, r.looking.answer = some a → r.asked = true ∧ r.requests = [] ∧
    r.serverDue = [] ∧ (∀ m ∈ r.members, m.peerDraining = true) ∧ a.attempt = r.attempt
  found : ∀ slot a, r.looking = .found slot a → ∀ l ∈ r.lanes, l.slot = slot
  /-- An ask is dropped when the two ends have settled what became of the lane. -/
  dropping : r.looking = .dropping → r.asked = true ∧ r.requests = [] ∧
    ∀ l ∈ r.lanes, ∀ m ∈ r.members, l.draining = m.peerDraining
  retired : r.RetiresOnCurrent

/-- The two halves of the claim, read off the invariant. -/
theorem LaneRecord.Orderly.agrees {r : LaneRecord} (h : r.Orderly) (hq : r.Quiescent) :
    r.Agrees := by
  obtain ⟨hreq, hto, hreply, hheld⟩ := hq
  intro l hl m hm _
  cases hasked : r.asked with
  | false =>
    rw [h.settled hasked hreq l hl m hm]
    simp
  | true =>
    obtain ⟨hnoted, hdrop⟩ := hheld hasked
    have hans : r.answers = [] := by rw [LaneRecord.answers, hnoted, hto, hreply]; rfl
    obtain ⟨-, hpd, -⟩ | ⟨-, -, hne, -⟩ := h.acted hasked hreq hdrop
    · simp [hpd m hm]
    · exact absurd hans hne

theorem LaneRecord.Orderly.new : LaneRecord.new.Orderly := by
  constructor <;> simp [LaneRecord.new, LaneRecord.requests, LaneRecord.answers,
    LaneRecord.RetiresOnCurrent, Looking.answer, Looking.request]

namespace LaneRecord.Orderly

variable {r : LaneRecord}

/-- A lane of the client is the only one, and none is due. -/
theorem sole_lane (h : r.Orderly) {l : ClientLane} {rest : List ClientLane}
    (hl : r.lanes = l :: rest) : rest = [] ∧ r.clientDue = [] := by
  have hone := h.client
  rw [hl, List.length_cons] at hone
  exact ⟨List.eq_nil_of_length_eq_zero (by omega), List.eq_nil_of_length_eq_zero (by omega)⟩

theorem sole_member (h : r.Orderly) {m : ServerLane} {rest : List ServerLane}
    (hm : r.members = m :: rest) : rest = [] ∧ r.serverDue = [] := by
  have hone := h.server
  rw [hm, List.length_cons] at hone
  exact ⟨List.eq_nil_of_length_eq_zero (by omega), List.eq_nil_of_length_eq_zero (by omega)⟩

/-- Nobody acts on an answer under a name that is not asked for. -/
theorem not_acting (h : r.Orderly) (hasked : r.asked = false) :
    r.looking.answer = none ∧ r.looking ≠ .dropping := by
  constructor
  · cases ha : r.looking.answer with
    | none => rfl
    | some a => cases hasked.symm.trans (h.deciding a ha).1
  · intro hdrop
    cases hasked.symm.trans (h.dropping hdrop).1

/-- Nor while a request is under way. -/
theorem not_acting_of_requests (h : r.Orderly) (hreq : r.requests ≠ []) :
    r.looking.answer = none ∧ r.looking ≠ .dropping := by
  constructor
  · cases ha : r.looking.answer with
    | none => rfl
    | some a => exact absurd (h.deciding a ha).2.1 hreq
  · exact fun hdrop => hreq (h.dropping hdrop).2.1

/-- Without a request in the ticker's hands, what the server has yet to act on is in the channels. -/
theorem requests_kept (hnone : r.looking.request = none) : r.requests = r.toServer ++ r.queued := by
  rw [LaneRecord.requests, hnone]
  exact List.append_nil _

/-- An outstanding ask whose lane nobody is done with leaves it as it is. -/
theorem not_retiring_of_asked (h : r.Orderly) (hasked : r.asked = true)
    (hne : r.looking ≠ .dropping) : ∀ l ∈ r.lanes, l.draining = false := by
  intro l hl
  cases hd : l.draining with
  | false => rfl
  | true =>
    obtain hfree | hdrop := (h.retiring l hl hd).2.2
    · cases hasked.symm.trans hfree
    · exact absurd hdrop hne

/-- The ticker goes on and acts on no answer; what the server has yet to act on stays. -/
theorem goes_on (h : r.Orderly) {k : Looking} {waiting : List DrainRequest}
    (hdrop : r.looking ≠ .dropping) (hk : k.answer = none) (hkdrop : k ≠ .dropping)
    (hreq : LaneRecord.requests { r with looking := k, queued := waiting } = r.requests) :
    ({ r with looking := k, queued := waiting } : LaneRecord).Orderly :=
  { h with
    asked := by rw [hreq]; exact h.asked
    idle := by rw [hreq]; exact h.idle
    unread := by rw [hreq]; exact h.unread
    acted := fun hasked hr _ => h.acted hasked (hreq ▸ hr) hdrop
    settled := by rw [hreq]; exact h.settled
    retiring := by
      intro l hl hd
      obtain ⟨hr, hdue, hover⟩ := h.retiring l hl hd
      exact ⟨hreq ▸ hr, hdue, hover.imp_right fun heq => absurd heq hdrop⟩
    due := by rw [hreq]; exact h.due
    deciding := fun a ha => by cases hk.symm.trans ha
    found := by
      rintro slot a rfl
      cases hk
    dropping := fun heq => absurd heq hkdrop }

/-- The policy picks a lane. -/
theorem pick (h : r.Orderly) (hdone : r.looking = .done) (born : Nat) :
    ({ r with looking := .picked born } : LaneRecord).Orderly :=
  h.goes_on (by rw [hdone]; nofun) rfl nofun
    (by simp [LaneRecord.requests, hdone, Looking.request])

/-- An ask: nothing is outstanding, so it starts from a settled state. -/
theorem askDrain (h : r.Orderly) {born : Nat} (hpicked : r.looking = .picked born)
    (hc : WellTimed r .ask) : (r.askDrain born).Orderly := by
  unfold LaneRecord.askDrain
  split
  case isTrue =>
    exact h.goes_on (by rw [hpicked]; nofun) rfl nofun
      (by simp [LaneRecord.requests, hpicked, Looking.request])
  case isFalse hasked =>
    have hasked : r.asked = false := by simpa using hasked
    obtain ⟨hreq, hans, hdue, hlanes, hpd⟩ := hc hasked
    rw [requests_kept (by rw [hpicked]; rfl)] at hreq
    obtain ⟨hs, hq⟩ := List.append_eq_nil_iff.mp hreq
    have hborn : ∀ l ∈ r.lanes, l.born = born := by
      intro l hl
      have hlane := hpicked.symm.trans (hlanes l hl).2
      cases hlane
      rfl
    constructor <;> grind [LaneRecord.requests, LaneRecord.answers, LaneRecord.RetiresOnCurrent,
      Looking.answer, Looking.request, h.client, h.server, h.retired]

/-- Calling an ask off puts its cancel behind it. -/
theorem cancelDrain (h : r.Orderly) (hasked : r.asked = true) (hdone : r.looking = .done) :
    r.cancelDrain.Orderly := by
  unfold LaneRecord.cancelDrain
  have hkept := requests_kept (r := r) (by rw [hdone]; rfl)
  obtain hreq | hreq := h.asked hasked
  all_goals
    rw [hkept] at hreq
    constructor <;> grind [LaneRecord.requests, LaneRecord.answers, LaneRecord.RetiresOnCurrent,
      Looking.answer, Looking.request, h.current, h.unread, h.marked, h.sampled, h.retiring, h.due,
      h.client, h.server, h.retired]

/-- The request is on its way as before. -/
theorem send (h : r.Orderly) {q : DrainRequest} (hsend : r.looking = .sending q) :
    ({ r with queued := r.queued ++ [q], looking := .done } : LaneRecord).Orderly :=
  h.goes_on (by rw [hsend]; nofun) rfl nofun
    (by simp [LaneRecord.requests, hsend, Looking.request])

/-- Once there is an answer to take, the server has acted on the ask. -/
theorem requests_of_noted (h : r.Orderly) (hasked : r.asked = true) {a : DrainAnswer}
    (hn : r.noted = some a) : r.requests = [] := by
  obtain hreq | hreq := h.asked hasked
  · exact hreq
  · obtain ⟨hans, -⟩ := h.unread [] hreq
    rw [LaneRecord.answers, hn] at hans
    cases hans

/-- The client takes what was noted. -/
theorem drainStep (h : r.Orderly) (hasked : r.asked = true) (hdone : r.looking = .done)
    (stale : Bool) : (r.drainStep stale).Orderly := by
  unfold LaneRecord.drainStep
  split
  case h_1 hn =>
    split
    · exact h.cancelDrain hasked hdone
    · exact h
  case h_2 a hn =>
    have hreq := h.requests_of_noted hasked hn
    have hmem : a ∈ r.answers := by simp [LaneRecord.answers, hn]
    have hcur := (h.current a hmem).1
    have hacted := h.acted hasked hreq (by rw [hdone]; nofun)
    have hdr := h.not_retiring_of_asked hasked (by rw [hdone]; nofun)
    rw [requests_kept (by rw [hdone]; rfl)] at hreq
    obtain ⟨hs, hq⟩ := List.append_eq_nil_iff.mp hreq
    dsimp only
    split
    case h_1 ha | h_2 ha =>
      -- the server has the lane marked, and the ask stays outstanding
      obtain ⟨hdue, hpd, hans⟩ | ⟨-, -, -, hunk⟩ := hacted
      case inr =>
        rw [hunk a hmem] at ha
        cases ha
      constructor <;> grind [LaneRecord.requests, LaneRecord.answers,
        LaneRecord.RetiresOnCurrent, Looking.answer, Looking.request, h.current, h.marked,
        h.sampled, h.due, h.client, h.server, h.target, h.retired]
    case h_3 ha =>
      obtain ⟨-, -, hans⟩ | ⟨hpd, hsp, -, -⟩ := hacted
      case inl => exact absurd ha (hans a hmem)
      constructor <;> grind [LaneRecord.requests, LaneRecord.answers,
        LaneRecord.RetiresOnCurrent, Looking.answer, Looking.request, h.current, h.marked,
        h.sampled, h.due, h.client, h.server, h.target, h.retired]
    case h_4 ha => cases hasked.symm.trans ((h.current a hmem).2 ha)

/-- The client reads the slot of the lane, if it has one. -/
theorem find (h : r.Orderly) {a : DrainAnswer} (ha : r.looking = .answered a) (found : Bool) :
    (r.find a found).Orderly := by
  obtain ⟨hasked, hreq, hdue, hpd, hcur⟩ := h.deciding a (by rw [ha]; rfl)
  have hacted := h.acted hasked hreq (by rw [ha]; nofun)
  have hdr := h.not_retiring_of_asked hasked (by rw [ha]; nofun)
  rw [requests_kept (by rw [ha]; rfl)] at hreq
  unfold LaneRecord.find
  split
  case isFalse =>
    constructor <;> grind [LaneRecord.requests, LaneRecord.answers, LaneRecord.RetiresOnCurrent,
      Looking.answer, Looking.request, h.current, h.marked, h.sampled, h.due, h.client, h.server,
      h.target, h.retired]
  case isTrue =>
    split
    case h_1 hlanes =>
      constructor <;> grind [LaneRecord.requests, LaneRecord.answers,
        LaneRecord.RetiresOnCurrent, Looking.answer, Looking.request, h.current, h.marked,
        h.sampled, h.due, h.client, h.server, h.retired]
    case h_2 l rest hlanes =>
      obtain ⟨rfl, -⟩ := h.sole_lane hlanes
      constructor <;> grind [LaneRecord.requests, LaneRecord.answers,
        LaneRecord.RetiresOnCurrent, Looking.answer, Looking.request, h.current, h.marked,
        h.sampled, h.due, h.client, h.server, h.target, h.retired]

/-- The client retires the slot it found: the lane is the one it asked for, and the server has it
marked. -/
theorem retire (h : r.Orderly) {slot : Nat} {a : DrainAnswer} (ha : r.looking = .found slot a) :
    (r.retire slot a).Orderly := by
  obtain ⟨hasked, hreq, hdue, hpd, hcur⟩ := h.deciding a (by rw [ha]; rfl)
  rw [requests_kept (by rw [ha]; rfl)] at hreq
  cases hlanes : r.lanes with
  | nil =>
    have heq : r.retire slot a = { r with looking := .dropping } := by
      simp [LaneRecord.retire, LaneRecord.hit, LaneRecord.mark, hlanes]
    rw [heq]
    constructor <;> grind [LaneRecord.requests, LaneRecord.answers, LaneRecord.RetiresOnCurrent,
      Looking.answer, Looking.request, h.current, h.marked, h.sampled, h.due, h.client, h.server,
      h.retired]
  | cons l rest =>
    obtain ⟨rfl, hcdue⟩ := h.sole_lane hlanes
    have hmem : l ∈ r.lanes := by rw [hlanes]; exact List.mem_cons_self
    have hslot := h.found slot a ha l hmem
    have htarget := h.target hasked l hmem
    have heq : r.retire slot a = { r with
        looking := .dropping
        lanes := [{ l with draining := true }]
        retired := r.retired ++ [⟨l.born, some a.attempt, r.attempt, r.target⟩] } := by
      simp [LaneRecord.retire, LaneRecord.hit, LaneRecord.mark, hlanes, hslot]
    rw [heq]
    constructor <;> grind [LaneRecord.requests, LaneRecord.answers, LaneRecord.RetiresOnCurrent,
      Looking.answer, Looking.request, h.current, h.marked, h.sampled, h.client, h.server,
      h.retired]

/-- The ask is off the map. -/
theorem drop (h : r.Orderly) (hdrop : r.looking = .dropping) :
    ({ r with asked := false, looking := .done } : LaneRecord).Orderly := by
  obtain ⟨hasked, hreq, hsame⟩ := h.dropping hdrop
  rw [requests_kept (by rw [hdrop]; rfl)] at hreq
  constructor <;> grind [LaneRecord.requests, LaneRecord.answers, LaneRecord.RetiresOnCurrent,
    Looking.answer, Looking.request, h.current, h.marked, h.sampled, h.retiring, h.due, h.client,
    h.server, h.retired]

/-- What is retired in another slot is not the name's lane. -/
theorem mark_clear {slot : Nat} (hc : r.Clear slot) : r.mark slot = r := by
  have hlanes : (r.lanes.map fun l => if l.slot = slot then { l with draining := true } else l) =
      r.lanes.map fun l => l := List.map_congr_left fun l hl => if_neg (hc l hl)
  rw [LaneRecord.mark, hlanes, List.map_id']

theorem hit_clear {slot : Nat} (hc : r.Clear slot) (answered : Option Nat) :
    r.hit slot answered = r := by
  have hnone : r.lanes.filter (·.slot = slot) = [] :=
    List.filter_eq_nil_iff.mpr fun l hl heq => hc l hl (of_decide_eq_true heq)
  rw [LaneRecord.hit, mark_clear hc, hnone, List.map_nil, List.append_nil]

/-- The session's loop writes a request: the server has it yet to act on as before. -/
theorem write (h : r.Orderly) {q : DrainRequest} {rest : List DrainRequest}
    (hq : r.queued = q :: rest) :
    ({ r with queued := rest, toServer := r.toServer ++ [q] } : LaneRecord).Orderly := by
  have hreq : LaneRecord.requests { r with queued := rest, toServer := r.toServer ++ [q] } =
      r.requests := by
    simp [LaneRecord.requests, hq]
  exact
    { h with
      asked := by rw [hreq]; exact h.asked
      idle := by rw [hreq]; exact h.idle
      unread := by rw [hreq]; exact h.unread
      acted := by rw [hreq]; exact h.acted
      settled := by rw [hreq]; exact h.settled
      retiring := by rw [hreq]; exact h.retiring
      due := by rw [hreq]; exact h.due
      deciding := by rw [hreq]; exact h.deciding
      dropping := by rw [hreq]; exact h.dropping }

/-- The next request the server reads is the last ask, followed by its cancel exactly if it was
called off, or that cancel. -/
theorem next_request (h : r.Orderly) {q : DrainRequest} {rest : List DrainRequest}
    (hq : r.requests = q :: rest) :
    (q = ⟨false, r.attempt⟩ ∧ rest = [] ∧ r.asked = true) ∨
      (q = ⟨false, r.attempt⟩ ∧ rest = [⟨true, r.attempt⟩] ∧ r.asked = false) ∨
      (q = ⟨true, r.attempt⟩ ∧ rest = [] ∧ r.asked = false) := by
  cases hasked : r.asked with
  | true =>
    obtain hreq | hreq := h.asked hasked
    all_goals rw [hreq] at hq; cases hq
    simp
  | false =>
    obtain hreq | hreq | hreq := h.idle hasked
    all_goals rw [hreq] at hq; cases hq
    all_goals simp

/-- While a request is under way no lane is being retired. -/
theorem not_retiring (h : r.Orderly) (hreq : r.requests ≠ []) :
    ∀ l ∈ r.lanes, l.draining = false := by
  intro l hl
  cases hd : l.draining with
  | false => rfl
  | true => exact absurd (h.retiring l hl hd).1 hreq

/-- The server acts on a request. -/
theorem laneDrain (h : r.Orderly) {q : DrainRequest} {rest : List DrainRequest} {known : Bool}
    (hq : r.toServer = q :: rest) (hnone : r.replying = none) (hc : WellTimed r (.serve known)) :
    (({ r with toServer := rest } : LaneRecord).laneDrain q known).Orderly := by
  have hreq : r.requests = q :: (rest ++ r.queued ++ r.looking.request.toList) := by
    simp [LaneRecord.requests, hq]
  have hne : r.requests ≠ [] := by
    rw [hreq]
    exact List.cons_ne_nil _ _
  have hdr := h.not_retiring hne
  obtain ⟨hanswer, hdrop⟩ := h.not_acting_of_requests hne
  have hfound : ∀ slot a, r.looking ≠ .found slot a := by
    intro slot a heq
    rw [heq] at hanswer
    cases hanswer
  have hdue : r.clientDue = [] := by
    by_contra hne
    rw [(h.due hne).2.1] at hreq
    cases hreq
  unfold LaneRecord.laneDrain
  dsimp only
  split
  case h_1 m others hm =>
    obtain ⟨rfl, hsdue⟩ := h.sole_member hm
    obtain ⟨rfl, hrest, hasked⟩ | ⟨rfl, hrest, hasked⟩ | ⟨rfl, hrest, hasked⟩ :=
      h.next_request hreq
    case inr.inr =>
      rw [if_pos rfl]
      constructor <;> grind [LaneRecord.requests, LaneRecord.answers,
        LaneRecord.RetiresOnCurrent, h.current, h.sampled, h.client, h.server, h.retired]
    all_goals
      obtain ⟨hans, hpd, hsp⟩ := h.unread _ hreq
      rw [if_neg (by simp)]
      constructor <;> grind [LaneRecord.requests, LaneRecord.answers,
        LaneRecord.RetiresOnCurrent, h.client, h.server, h.target, h.retired]
  case h_2 hno =>
    have hm : r.members = [] := by
      obtain rfl | hm := hc
      · cases hm : r.members with
        | nil => rfl
        | cons m others => exact absurd hm (hno m others rfl)
      · exact hm
    obtain ⟨rfl, hrest, hasked⟩ | ⟨rfl, hrest, hasked⟩ | ⟨rfl, hrest, hasked⟩ :=
      h.next_request hreq
    case inr.inr =>
      constructor <;> grind [LaneRecord.requests, LaneRecord.answers,
        LaneRecord.RetiresOnCurrent, h.current, h.sampled, h.client, h.server, h.retired]
    all_goals
      obtain ⟨hans, hpd, hsp⟩ := h.unread _ hreq
      constructor <;> grind [LaneRecord.requests, LaneRecord.answers,
        LaneRecord.RetiresOnCurrent, h.client, h.server, h.target, h.retired]

/-- Its answer is on its way as before. -/
theorem reply (h : r.Orderly) {a : DrainAnswer} (ha : r.replying = some a) :
    ({ r with replying := none, toClient := r.toClient ++ [a] } : LaneRecord).Orderly := by
  have hans : LaneRecord.answers { r with replying := none, toClient := r.toClient ++ [a] } =
      r.answers := by
    simp [LaneRecord.answers, ha]
  exact
    { h with
      current := by rw [hans]; exact h.current
      unread := by rw [hans]; exact h.unread
      acted := by rw [hans]; exact h.acted }

/-- The reporter reads the lanes. -/
theorem sample (h : r.Orderly) :
    ({ r with sampled := r.sampled ++ r.members } : LaneRecord).Orderly := by
  constructor <;> grind [LaneRecord.requests, LaneRecord.answers, LaneRecord.RetiresOnCurrent,
    h.asked, h.idle, h.current, h.unread, h.marked, h.sampled, h.acted, h.settled, h.retiring,
    h.due, h.client, h.server, h.target, h.deciding, h.found, h.dropping, h.retired]

/-- A lane that was read is done with. -/
theorem eraseSample (h : r.Orderly) (i : Nat) :
    ({ r with sampled := r.sampled.eraseIdx i } : LaneRecord).Orderly := by
  have hsub : ∀ m ∈ r.sampled.eraseIdx i, m ∈ r.sampled := fun m => List.mem_of_mem_eraseIdx
  exact
    { h with
      unread := fun rest hreq =>
        ⟨(h.unread rest hreq).1, (h.unread rest hreq).2.1,
          fun m hm => (h.unread rest hreq).2.2 m (hsub m hm)⟩
      sampled := fun m hm => h.sampled m (hsub m hm)
      acted := by
        intro hasked hreq hdrop
        obtain hyes | ⟨hpd, hsp, hans⟩ := h.acted hasked hreq hdrop
        · exact Or.inl hyes
        · exact Or.inr ⟨hpd, fun m hm => hsp m (hsub m hm), hans⟩ }

/-- A `READY` sent for a lane that was read as marked answers the last ask. -/
theorem answer_ready (h : r.Orderly) {m : ServerLane} (hm : m ∈ r.sampled)
    (hpd : m.peerDraining = true) :
    ({ r with readySent := true, toClient := r.toClient ++ [⟨.ready, m.drain⟩] } :
      LaneRecord).Orderly := by
  have hdrain := h.sampled m hm hpd
  have hmem : ∀ a ∈ LaneRecord.answers
      { r with readySent := true, toClient := r.toClient ++ [⟨.ready, m.drain⟩] },
      a ∈ r.answers ∨ a = ⟨.ready, r.attempt⟩ := by
    intro a ha
    rw [hdrain] at ha
    simp only [LaneRecord.answers, List.mem_append, List.mem_singleton] at ha ⊢
    obtain (ha | ha | ha) | ha := ha
    · exact Or.inl (Or.inl (Or.inl ha))
    · exact Or.inl (Or.inl (Or.inr ha))
    · exact Or.inr ha
    · exact Or.inl (Or.inr ha)
  exact
    { h with
      current := by
        intro a ha
        obtain ha | rfl := hmem a ha
        · exact h.current a ha
        · exact ⟨rfl, by rintro ⟨⟩⟩
      unread := by
        intro rest hreq
        rw [(h.unread rest hreq).2.2 m hm] at hpd
        cases hpd
      acted := by
        intro hasked hreq hdrop
        obtain ⟨hdue, hall, hans⟩ | ⟨-, hnone, -, -⟩ := h.acted hasked hreq hdrop
        case inr =>
          rw [hnone m hm] at hpd
          cases hpd
        refine Or.inl ⟨hdue, hall, ?_⟩
        intro a ha
        obtain ha | rfl := hmem a ha
        · exact hans a ha
        · rintro ⟨⟩ }

/-- The reporter says `READY` only of a lane that it has read as marked. -/
theorem report (h : r.Orderly) {i : Nat} {m : ServerLane} (hm : r.sampled[i]? = some m) :
    (({ r with sampled := r.sampled.eraseIdx i } : LaneRecord).reportLane m).Orderly := by
  unfold LaneRecord.reportLane
  split
  case isTrue hready =>
    obtain ⟨hpd, -⟩ := (Bool.and_eq_true _ _).mp hready
    split
    · exact h.eraseSample i
    · exact (h.answer_ready (List.mem_of_getElem? hm) hpd).eraseSample i
  case isFalse =>
    split
    · exact h.eraseSample i
    · exact { h.eraseSample i with }

/-- The client's session loop reads an answer; the last one read is kept. -/
theorem note (h : r.Orderly) {a : DrainAnswer} {rest : List DrainAnswer}
    (ha : r.toClient = a :: rest) :
    ({ r with toClient := rest, noted := some a } : LaneRecord).Orderly := by
  have hsub : ∀ b ∈ LaneRecord.answers { r with toClient := rest, noted := some a },
      b ∈ r.answers := by
    intro b hb
    simp only [LaneRecord.answers, ha, Option.toList_some, List.mem_append, List.mem_cons,
      List.not_mem_nil, or_false] at hb ⊢
    obtain (rfl | hb) | hb := hb
    · exact Or.inl (Or.inr (Or.inl rfl))
    · exact Or.inl (Or.inr (Or.inr hb))
    · exact Or.inr hb
  have hmem : a ∈ r.answers := hsub a (by simp [LaneRecord.answers])
  exact
    { h with
      current := fun b hb => h.current b (hsub b hb)
      unread := by
        intro left hreq
        rw [(h.unread left hreq).1] at hmem
        cases hmem
      acted := by
        intro hasked hreq hdrop
        obtain ⟨hdue, hpd, hans⟩ | ⟨hpd, hsp, -, hunk⟩ := h.acted hasked hreq hdrop
        · exact Or.inl ⟨hdue, hpd, fun b hb => hans b (hsub b hb)⟩
        · refine Or.inr ⟨hpd, hsp, ?_, fun b hb => hunk b (hsub b hb)⟩
          simp [LaneRecord.answers] }

/-- The server's lane falls silent, or talks: no mark moves. -/
theorem flows (h : r.Orderly) (quiet : Bool) :
    ({ r with members := r.members.map fun m => { m with quiet := quiet } } :
      LaneRecord).Orderly := by
  constructor <;> grind [LaneRecord.requests, LaneRecord.answers, LaneRecord.RetiresOnCurrent,
    h.asked, h.idle, h.current, h.unread, h.marked, h.sampled, h.acted, h.settled, h.retiring,
    h.due, h.client, h.server, h.target, h.deciding, h.found, h.dropping, h.retired]

/-- A lane is dialed under a name of which nothing is left. -/
theorem dial (h : r.Orderly) (hc : WellTimed r .dial) :
    ({ r with
        dialed := r.dialed + 1
        clientDue := r.dialed :: r.clientDue
        serverDue := r.dialed :: r.serverDue } : LaneRecord).Orderly := by
  obtain ⟨hasked, hreq, hcdue, hsdue, hlanes, hmembers⟩ := hc
  obtain ⟨hanswer, hdrop⟩ := h.not_acting hasked
  constructor <;> grind [LaneRecord.requests, LaneRecord.answers, LaneRecord.RetiresOnCurrent,
    Looking.answer, h.current, h.sampled, h.retired]

/-- The dialed lane joins the client's hub: nothing was asked under its name yet. -/
theorem clientJoins (h : r.Orderly) {born : Nat} (slot : Nat) (hb : born ∈ r.clientDue) :
    ({ r with
        clientDue := r.clientDue.erase born
        lanes := r.lanes.filter (·.slot < slot) ++
          ⟨born, slot, false⟩ :: r.lanes.filter (slot ≤ ·.slot) } :
      LaneRecord).Orderly := by
  have hone := h.client
  have hpos := List.length_pos_of_mem hb
  have hlanes : r.lanes = [] := List.eq_nil_of_length_eq_zero (by omega)
  have herase := List.length_erase_of_mem hb
  obtain ⟨hasked, hreq, hpd⟩ := h.due (List.ne_nil_of_mem hb)
  obtain ⟨hanswer, hdrop⟩ := h.not_acting hasked
  simp only [hlanes, List.filter_nil, List.nil_append]
  constructor <;> grind [LaneRecord.requests, LaneRecord.answers, LaneRecord.RetiresOnCurrent,
    Looking.answer, h.current, h.marked, h.sampled, h.server, h.retired]

/-- It joins the server's hub unmarked: the ask, if there is one, is unread or was answered
`UNKNOWN`. -/
theorem serverJoins (h : r.Orderly) {born : Nat} (place : Nat) (hb : born ∈ r.serverDue) :
    ({ r with
        serverDue := r.serverDue.erase born
        members := r.members.take place ++ ⟨born, false, true, 0⟩ :: r.members.drop place } :
      LaneRecord).Orderly := by
  have hone := h.server
  have hpos := List.length_pos_of_mem hb
  have hmembers : r.members = [] := List.eq_nil_of_length_eq_zero (by omega)
  have herase := List.length_erase_of_mem hb
  have hdue := List.ne_nil_of_mem hb
  constructor <;> grind [LaneRecord.requests, LaneRecord.answers, LaneRecord.RetiresOnCurrent,
    h.asked, h.idle, h.current, h.unread, h.sampled, h.acted, h.retiring, h.due, h.client, h.target,
    h.deciding, h.found, h.dropping, h.retired]

theorem clientEnds (h : r.Orderly) (born : Nat) :
    ({ r with
        clientDue := r.clientDue.erase born
        lanes := r.lanes.filter (·.born ≠ born) } : LaneRecord).Orderly := by
  have hsub : ∀ l ∈ r.lanes.filter (·.born ≠ born), l ∈ r.lanes :=
    fun l hl => (List.mem_filter.mp hl).1
  exact
    { h with
      settled := fun hasked hreq l hl => h.settled hasked hreq l (hsub l hl)
      retiring := fun l hl => h.retiring l (hsub l hl)
      due := by
        intro hne
        refine h.due ?_
        rintro hnil
        rw [hnil] at hne
        exact hne rfl
      client := by
        have hone := h.client
        have h1 := List.length_filter_le (fun l : ClientLane => l.born ≠ born) r.lanes
        have h2 := List.length_erase_le (a := born) (l := r.clientDue)
        dsimp only
        omega
      target := fun hasked l hl => h.target hasked l (hsub l hl)
      found := fun slot a ha l hl => h.found slot a ha l (hsub l hl)
      dropping := fun hdrop =>
        ⟨(h.dropping hdrop).1, (h.dropping hdrop).2.1,
          fun l hl => (h.dropping hdrop).2.2 l (hsub l hl)⟩ }

theorem serverEnds (h : r.Orderly) (born : Nat) :
    ({ r with
        serverDue := r.serverDue.erase born
        members := r.members.filter (·.born ≠ born) } : LaneRecord).Orderly := by
  have hsub : ∀ m ∈ r.members.filter (·.born ≠ born), m ∈ r.members :=
    fun m hm => (List.mem_filter.mp hm).1
  have hnil : r.serverDue = [] → r.serverDue.erase born = [] := by
    intro hdue
    rw [hdue]
    rfl
  exact
    { h with
      unread := fun rest hreq =>
        ⟨(h.unread rest hreq).1, fun m hm => (h.unread rest hreq).2.1 m (hsub m hm),
          (h.unread rest hreq).2.2⟩
      marked := fun m hm => h.marked m (hsub m hm)
      acted := by
        intro hasked hreq hdrop
        obtain ⟨hdue, hpd, hans⟩ | ⟨hpd, hans⟩ := h.acted hasked hreq hdrop
        · exact Or.inl ⟨hnil hdue, fun m hm => hpd m (hsub m hm), hans⟩
        · exact Or.inr ⟨fun m hm => hpd m (hsub m hm), hans⟩
      settled := fun hasked hreq l hl m hm => h.settled hasked hreq l hl m (hsub m hm)
      retiring := by
        intro l hl hd
        obtain ⟨hreq, hdue, hasked⟩ := h.retiring l hl hd
        exact ⟨hreq, hnil hdue, hasked⟩
      due := by
        intro hne
        obtain ⟨hasked, hreq, hpd⟩ := h.due hne
        exact ⟨hasked, hreq, fun m hm => hpd m (hsub m hm)⟩
      server := by
        have hone := h.server
        have h1 := List.length_filter_le (fun m : ServerLane => m.born ≠ born) r.members
        have h2 := List.length_erase_le (a := born) (l := r.serverDue)
        dsimp only
        omega
      deciding := by
        intro a ha
        obtain ⟨hasked, hreq, hdue, hpd, hcur⟩ := h.deciding a ha
        exact ⟨hasked, hreq, hnil hdue, fun m hm => hpd m (hsub m hm), hcur⟩
      dropping := fun hdrop =>
        ⟨(h.dropping hdrop).1, (h.dropping hdrop).2.1,
          fun l hl m hm => (h.dropping hdrop).2.2 l hl m (hsub m hm)⟩ }

/-- The session is lost with no drain outstanding: only late answers go with it. -/
theorem reconnect (h : r.Orderly) (hc : WellTimed r .reconnect) : r.reconnect.Orderly := by
  obtain ⟨hasked, hreq⟩ := hc
  obtain ⟨hsq, hl⟩ := List.append_eq_nil_iff.mp hreq
  obtain ⟨hs, hq⟩ := List.append_eq_nil_iff.mp hsq
  obtain ⟨hanswer, hdrop⟩ := h.not_acting hasked
  unfold LaneRecord.reconnect
  constructor <;> grind [LaneRecord.requests, LaneRecord.answers, LaneRecord.RetiresOnCurrent,
    Looking.answer, h.current, h.marked, h.settled, h.retiring, h.due, h.client, h.server,
    h.retired]

/-- A well-timed step keeps the order. -/
theorem step (h : r.Orderly) {e : LaneEvent} {r' : LaneRecord} (hc : WellTimed r e)
    (hs : r.step e = some r') : r'.Orderly := by
  cases e with
  | pick born =>
    simp only [LaneRecord.step, Option.ite_none_right_eq_some, Option.some.injEq] at hs
    obtain ⟨⟨-, hdone⟩, rfl⟩ := hs
    exact h.pick hdone born
  | ask =>
    simp only [LaneRecord.step] at hs
    split at hs
    case h_1 born hpicked =>
      cases hs
      exact h.askDrain hpicked hc
    case h_2 => cases hs
  | send =>
    simp only [LaneRecord.step] at hs
    split at hs
    case h_1 q hsend =>
      cases hs
      exact h.send hsend
    case h_2 => cases hs
  | look stale =>
    simp only [LaneRecord.step, Option.ite_none_right_eq_some, Option.some.injEq] at hs
    obtain ⟨⟨hasked, hdone⟩, rfl⟩ := hs
    exact h.drainStep hasked hdone stale
  | find found =>
    simp only [LaneRecord.step] at hs
    split at hs
    case h_1 answer ha =>
      cases hs
      exact h.find ha found
    case h_2 => cases hs
  | drop =>
    simp only [LaneRecord.step, Option.ite_none_right_eq_some, Option.some.injEq] at hs
    obtain ⟨hdrop, rfl⟩ := hs
    exact h.drop hdrop
  | write =>
    simp only [LaneRecord.step] at hs
    split at hs
    case h_1 => cases hs
    case h_2 q rest hq =>
      cases hs
      exact h.write hq
  | serve known =>
    simp only [LaneRecord.step] at hs
    split at hs
    case h_1 q rest hq hnone =>
      cases hs
      exact h.laneDrain hq hnone hc
    case h_2 => cases hs
  | reply =>
    obtain ⟨a, ha, rfl⟩ := Option.map_eq_some_iff.mp hs
    exact h.reply ha
  | sample =>
    cases hs
    exact h.sample
  | report i =>
    obtain ⟨m, hm, rfl⟩ := Option.map_eq_some_iff.mp hs
    exact h.report hm
  | reporterStarts =>
    cases hs
    exact { h with }
  | note =>
    simp only [LaneRecord.step] at hs
    split at hs
    case h_1 => cases hs
    case h_2 a rest ha =>
      cases hs
      exact h.note ha
  | flows quiet =>
    cases hs
    exact h.flows quiet
  | dial =>
    cases hs
    exact h.dial hc
  | clientJoins born slot draining =>
    simp only [LaneRecord.step] at hs
    split at hs
    case isTrue hb =>
      cases hs
      obtain rfl : draining = false := hc
      exact h.clientJoins slot hb
    case isFalse => cases hs
  | clientEnds born =>
    cases hs
    exact h.clientEnds born
  | serverJoins born place =>
    simp only [LaneRecord.step] at hs
    split at hs
    case isTrue hb =>
      cases hs
      exact h.serverJoins place hb
    case isFalse => cases hs
  | serverEnds born =>
    cases hs
    exact h.serverEnds born
  | reconnect =>
    cases hs
    exact h.reconnect hc

end LaneRecord.Orderly

/-! ## 3. Over a run -/

/-- What a step under one name leaves under the others, and what it does there. -/
theorem stepUnder_cases {s s' : Drains} {name : LaneName} {e : LaneEvent}
    (hs : s.stepUnder name e = some s') :
    ∃ r, (s.records name).step e = some r ∧ s'.records = update s.records name r := by
  unfold Drains.stepUnder at hs
  split at hs
  case h_1 =>
    split at hs
    case isTrue =>
      obtain ⟨r, hr, rfl⟩ := Option.map_eq_some_iff.mp hs
      exact ⟨r, hr, rfl⟩
    case isFalse => cases hs
  case h_2 =>
    obtain ⟨r, hr, rfl⟩ := Option.map_eq_some_iff.mp hs
    exact ⟨r, hr, rfl⟩
  case h_3 => cases hs
  case h_4 =>
    obtain ⟨r, hr, rfl⟩ := Option.map_eq_some_iff.mp hs
    exact ⟨r, hr, rfl⟩

/-- **One step** that is well timed for the name. -/
theorem orderly_step {name : LaneName} {s s' : Drains} {e : DrainEvent}
    (h : (s.records name).Orderly) (hc : WellTimedFor name s e) (hs : s.step e = some s') :
    (s'.records name).Orderly := by
  cases e with
  | under other e =>
    obtain ⟨r, hr, heq⟩ := stepUnder_cases hs
    rw [heq]
    by_cases hname : other = name
    · subst hname
      rw [update_self]
      exact h.step (hc rfl) hr
    · rw [update_of_ne (Ne.symm hname)]
      exact h
  | retire other =>
    simp only [Drains.step] at hs
    split at hs
    case h_1 slot answer hlook =>
      cases hs
      simp only [Drains.retireLane]
      split
      case isTrue hservice =>
        by_cases hname : name = other
        · subst hname
          rw [if_pos rfl]
          exact h.retire hlook
        · rw [if_neg hname,
            LaneRecord.Orderly.hit_clear (hc (Ne.symm hname) hservice.symm slot answer hlook)]
          exact h
      case isFalse => exact h
    case h_2 => cases hs
  | lend service slot =>
    cases hs
    simp only [Drains.retireLane]
    split
    case isTrue hservice =>
      rw [LaneRecord.Orderly.mark_clear (hc hservice.symm)]
      exact h
    case isFalse => exact h
  | reconnect =>
    cases hs
    exact h.reconnect hc

/-- A name whose steps are all well timed stays in order, whatever happens under the others. -/
theorem orderly_of_reach {name : LaneName} {s : Drains}
    (h : (drains.restrict (WellTimedFor name)).Reach s) : (s.records name).Orderly := by
  refine h.invariant (P := fun s => (s.records name).Orderly) ?_ ?_
  · rintro s rfl
    exact LaneRecord.Orderly.new
  · rintro s e s' ho ⟨hc, hs⟩
    exact orderly_step ho hc hs

/-- **Where every step is well timed for a name, both halves of the protocol hold there**:
`drain_step` retires a lane only on a `READY` the server sent for that lane's current ask, and
with no drain message in flight the ends agree on which live lane is draining. -/
theorem drain_agreement (name : LaneName) {s : Drains}
    (h : (drains.restrict (WellTimedFor name)).Reach s) :
    (s.records name).RetiresOnCurrent ∧
      ((s.records name).Quiescent → (s.records name).Agrees) :=
  ⟨(orderly_of_reach h).retired, (orderly_of_reach h).agrees⟩

/-! ## 4. Runs -/

/-- Under the first name. -/
def first (events : List LaneEvent) : List DrainEvent := events.map (.under (0, 0))

/-- A lane comes up at both ends. -/
def laneUp : List DrainEvent := first [.dial, .clientJoins 0 0 false, .serverJoins 0 0]

/-- The lane is asked for. -/
def asking (born : Nat) : List LaneEvent := [.pick born, .ask, .send]

/-- The next request is written and answered, and the answer is read. -/
def answering : List LaneEvent := [.write, .serve true, .reply, .note]

/-- The `READY` that was noted is acted on. -/
def retireLook : List DrainEvent :=
  first [.look false, .find true] ++ [.retire (0, 0)] ++ first [.drop]

/-- It is asked for once, the server answers `READY`, and the client retires it. -/
def retiredRun : List DrainEvent := laneUp ++ first (asking 0 ++ answering) ++ retireLook

/-- The first ask is answered `READY`, but the client has called it off by the time it reads the
answer, and asked again. -/
def staleReadyRun : List DrainEvent :=
  laneUp ++ first (asking 0 ++ [.write, .serve true, .reply, .look true, .send] ++ asking 0 ++
    [.note]) ++ retireLook

/-- The first ask is called off, and the server says so; the client takes that for the answer to
its second ask, which the server acts on last. -/
def staleCancelRun : List DrainEvent :=
  laneUp ++ first (asking 0 ++ [.look true, .send] ++ answering ++ answering ++ asking 0 ++
    [.look false, .drop] ++ answering)

/-- The check of a step of `retiredRun`. -/
def isWellTimed (s : Drains) : DrainEvent → Bool
  | .under name .ask =>
    decide ((s.records name).requests = [] ∧ (s.records name).answers = [] ∧
      (s.records name).clientDue = [] ∧
        (∀ l ∈ (s.records name).lanes,
          l.draining = false ∧ (s.records name).looking = .picked l.born) ∧
          ∀ m ∈ (s.records name).members ++ (s.records name).sampled, m.peerDraining = false)
  | .under _ (.serve known) => known
  | .under name .dial =>
    decide ((s.records name).asked = false ∧ (s.records name).requests = [] ∧
      (s.records name).clientDue = [] ∧ (s.records name).serverDue = [] ∧
        (s.records name).lanes = [] ∧ (s.records name).members = [])
  | .under _ (.clientJoins _ _ draining) => !draining
  | .under _ .reconnect | .lend _ _ | .reconnect => false
  | .under _ _ => true
  | .retire name => name = (0, 0)

theorem wellTimedFor_of_isWellTimed (s : Drains) (e : DrainEvent) (h : isWellTimed s e = true) :
    WellTimedFor (0, 0) s e := by
  cases e with
  | reconnect => cases h
  | lend service slot => cases h
  | retire name => exact fun hne => absurd (of_decide_eq_true h) hne
  | under other e =>
    rintro rfl
    cases e with
    | ask => exact fun _ => of_decide_eq_true h
    | dial =>
      simp only [isWellTimed, decide_eq_true_eq] at h
      exact h
    | serve known => exact Or.inl h
    | clientJoins born slot draining => exact (Bool.not_eq_true' _).mp h
    | reconnect => cases h
    | _ => trivial

/-- What is at rest under a name: nothing asked for, and nothing on its way. -/
def LaneRecord.Idle (r : LaneRecord) : Prop :=
  r.requests = [] ∧ r.toClient = [] ∧ r.replying = none ∧ r.asked = false

instance (r : LaneRecord) : Decidable r.Idle := inferInstanceAs (Decidable (_ ∧ _))

theorem LaneRecord.Idle.quiescent {r : LaneRecord} (h : r.Idle) : r.Quiescent :=
  ⟨h.1, h.2.1, h.2.2.1, fun hasked => absurd hasked (Bool.eq_false_iff.mp h.2.2.2)⟩

theorem drain_agreement_retired :
    ∃ s, (drains.restrict (WellTimedFor (0, 0))).Reach s ∧
      (s.records (0, 0)).retired = [⟨0, some 1, 1, some 0⟩] ∧
      (s.records (0, 0)).RetiresOnCurrent ∧ (s.records (0, 0)).Quiescent ∧
      (s.records (0, 0)).Agrees := by
  have hrun : (Lts.runWith Drains.step isWellTimed .new retiredRun).any (fun s => decide
      ((s.records (0, 0)).retired = [⟨0, some 1, 1, some 0⟩] ∧
        (s.records (0, 0)).Idle)) = true := by
    decide +kernel
  obtain ⟨s, hreach, hend⟩ := Lts.Reach.exists_runWith (T := drains)
    (fun _ _ _ h => h) wellTimedFor_of_isWellTimed rfl hrun
  obtain ⟨hretired, hidle⟩ := of_decide_eq_true hend
  obtain ⟨hcurrent, hagree⟩ := drain_agreement (0, 0) hreach
  exact ⟨s, hreach, hretired, hcurrent, hidle.quiescent, hagree hidle.quiescent⟩

/-- Nothing is asked for, nothing is in flight, and the two ends hold the same lane, of which one
has it draining. -/
theorem not_agrees {r : LaneRecord} {l : ClientLane} {m : ServerLane} (hidle : r.Idle)
    (hl : r.lanes = [l]) (hm : r.members = [m]) (hborn : l.born = m.born)
    (hne : m.peerDraining ≠ l.draining) : ¬ r.Agrees := by
  intro hagree
  have hiff := hagree l (hl ▸ List.mem_singleton_self l) m (hm ▸ List.mem_singleton_self m) hborn
  rw [hidle.2.2.2] at hiff
  simp only [Bool.false_eq_true, false_or] at hiff
  exact hne (Bool.eq_iff_iff.mpr hiff)

/-- A lane is retired that was not asked for, or on an answer to another ask. -/
theorem not_retiresOnCurrent {r : LaneRecord} {t : Retirement} (ht : t ∈ r.retired)
    (hne : t.answered = some t.attempt → t.target ≠ some t.lane) : ¬ r.RetiresOnCurrent :=
  fun hcurrent => hne (hcurrent t ht).1 (hcurrent t ht).2

/-- **Neither half holds of every run.**  A lane is retired on the answer to an ask that was
called off; and a live lane is left draining at the server though nothing is asked for, retired
or in flight. -/
theorem drains_disagree :
    (∃ s, drains.Reach s ∧ ¬ (s.records (0, 0)).RetiresOnCurrent) ∧
      ∃ s, drains.Reach s ∧ (s.records (0, 0)).Quiescent ∧ ¬ (s.records (0, 0)).Agrees := by
  have hready : (Lts.runWith Drains.step (fun _ _ => true) .new staleReadyRun).any (fun s => decide
      ((s.records (0, 0)).retired = [⟨0, some 1, 2, some 0⟩])) = true := by
    decide +kernel
  have hcancel : (Lts.runWith Drains.step (fun _ _ => true) .new staleCancelRun).any
      (fun s => decide ((s.records (0, 0)).Idle ∧ (s.records (0, 0)).lanes = [⟨0, 0, false⟩] ∧
        (s.records (0, 0)).members = [⟨0, true, true, 2⟩])) = true := by
    decide +kernel
  constructor
  · obtain ⟨s, hreach, hend⟩ := Lts.Reach.exists_run (T := drains) (fun _ _ _ h => h) rfl hready
    have hmem : (⟨0, some 1, 2, some 0⟩ : Retirement) ∈ (s.records (0, 0)).retired := by
      rw [of_decide_eq_true hend]
      exact List.mem_cons_self
    exact ⟨s, hreach, not_retiresOnCurrent hmem nofun⟩
  · obtain ⟨s, hreach, hend⟩ := Lts.Reach.exists_run (T := drains) (fun _ _ _ h => h) rfl hcancel
    obtain ⟨hidle, hlanes, hmembers⟩ := of_decide_eq_true hend
    exact ⟨s, hreach, hidle.quiescent, not_agrees hidle hlanes hmembers rfl nofun⟩

/-- The lane is lent to another claim. -/
def lentRun : List DrainEvent := laneUp ++ [.lend 0 0]

/-- **A lane is lent without a drain**: the client retires it, no message was ever sent, and the
server places flows in it as before. -/
theorem lent_without_drain :
    ∃ s, drains.Reach s ∧ (s.records (0, 0)).Quiescent ∧ ¬ (s.records (0, 0)).Agrees := by
  have hrun : (Lts.runWith Drains.step (fun _ _ => true) .new lentRun).any (fun s => decide
      ((s.records (0, 0)).Idle ∧ (s.records (0, 0)).lanes = [⟨0, 0, true⟩] ∧
        (s.records (0, 0)).members = [⟨0, false, true, 0⟩])) = true := by
    decide +kernel
  obtain ⟨s, hreach, hend⟩ := Lts.Reach.exists_run (T := drains) (fun _ _ _ h => h) rfl hrun
  obtain ⟨hidle, hlanes, hmembers⟩ := of_decide_eq_true hend
  exact ⟨s, hreach, hidle.quiescent, not_agrees hidle hlanes hmembers rfl nofun⟩

/-- Between the two holds of the hub's lock the lane goes, and the next one takes its slot. -/
def slotTakenRun : List DrainEvent :=
  laneUp ++ first (asking 0 ++ answering ++ [.look false, .find true, .clientEnds 0]) ++
    [.under (0, 1) .dial, .under (0, 1) (.clientJoins 0 0 false), .under (0, 1) (.serverJoins 0 0),
      .retire (0, 0)]

/-- **A lane is retired for another**: no ask was ever made for it. -/
theorem retired_for_another :
    ∃ s, drains.Reach s ∧ (s.records (0, 1)).Quiescent ∧ ¬ (s.records (0, 1)).RetiresOnCurrent ∧
      ¬ (s.records (0, 1)).Agrees := by
  have hrun : (Lts.runWith Drains.step (fun _ _ => true) .new slotTakenRun).any (fun s => decide
      ((s.records (0, 1)).Idle ∧ (s.records (0, 1)).lanes = [⟨0, 0, true⟩] ∧
        (s.records (0, 1)).members = [⟨0, false, true, 0⟩] ∧
          (s.records (0, 1)).retired = [⟨0, none, 0, none⟩])) = true := by
    decide +kernel
  obtain ⟨s, hreach, hend⟩ := Lts.Reach.exists_run (T := drains) (fun _ _ _ h => h) rfl hrun
  obtain ⟨hidle, hlanes, hmembers, hretired⟩ := of_decide_eq_true hend
  have hmem : (⟨0, none, 0, none⟩ : Retirement) ∈ (s.records (0, 1)).retired := by
    rw [hretired]
    exact List.mem_cons_self
  exact ⟨s, hreach, hidle.quiescent, not_retiresOnCurrent hmem nofun,
    not_agrees hidle hlanes hmembers rfl nofun⟩

/-- The lane ends at both ends, and its id is dialed again. -/
def dialedAgain : List LaneEvent :=
  [.clientEnds 0, .serverEnds 0, .dial, .clientJoins 1 0 false, .serverJoins 1 0]

/-- Between the policy's choice and its ask the lane is dialed again. -/
def askedLateRun : List DrainEvent :=
  laneUp ++ first (.pick 0 :: dialedAgain ++ [.ask, .send] ++ answering) ++ retireLook

/-- **The ask is for another lane** than the one that was picked, and that one is retired. -/
theorem asked_for_another :
    ∃ s, drains.Reach s ∧ ¬ (s.records (0, 0)).RetiresOnCurrent := by
  have hrun : (Lts.runWith Drains.step (fun _ _ => true) .new askedLateRun).any (fun s => decide
      ((s.records (0, 0)).retired = [⟨1, some 1, 1, some 0⟩])) = true := by
    decide +kernel
  obtain ⟨s, hreach, hend⟩ := Lts.Reach.exists_run (T := drains) (fun _ _ _ h => h) rfl hrun
  have hmem : (⟨1, some 1, 1, some 0⟩ : Retirement) ∈ (s.records (0, 0)).retired := by
    rw [of_decide_eq_true hend]
    exact List.mem_cons_self
  exact ⟨s, hreach, not_retiresOnCurrent hmem (fun _ => nofun)⟩

/-- The reporter reads the marked lane and goes on only when that one is retired, its id dialed
again and asked for, and the server's flows are still on the new lane. -/
def lateReporterRun : List DrainEvent :=
  laneUp ++ first (asking 0 ++ [.write, .serve true, .sample, .reply, .note]) ++ retireLook ++
    first (dialedAgain ++ [.flows false] ++ asking 1 ++ answering ++
      [.look false, .report 0, .note]) ++ retireLook

/-- **A `READY` from before**: it was read of an earlier lane, and is taken for the answer to the
ask for this one. -/
theorem ready_from_before :
    ∃ s, drains.Reach s ∧ ¬ (s.records (0, 0)).RetiresOnCurrent := by
  have hrun : (Lts.runWith Drains.step (fun _ _ => true) .new lateReporterRun).any (fun s => decide
      ((s.records (0, 0)).retired = [⟨0, some 1, 1, some 0⟩, ⟨1, some 1, 2, some 1⟩])) = true := by
    decide +kernel
  obtain ⟨s, hreach, hend⟩ := Lts.Reach.exists_run (T := drains) (fun _ _ _ h => h) rfl hrun
  have hmem : (⟨1, some 1, 2, some 1⟩ : Retirement) ∈ (s.records (0, 0)).retired := by
    rw [of_decide_eq_true hend]
    exact List.mem_cons_of_mem _ List.mem_cons_self
  exact ⟨s, hreach, not_retiresOnCurrent hmem nofun⟩

end Molehill.Transparent
