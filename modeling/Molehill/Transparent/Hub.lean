/-
# A hub's claims and their wire format

A hub routes between one TUN device and the lanes of the claims on it.  Its table has a claim per
endpoint: the wire format its lanes carry, and a slot per lane.  A lane takes a slot when it joins
and empties it when it ends; the claim whose last lane ended leaves the table, and its format with
it.

The callers fix the format before they join: each lane of a client sets it and then joins, the
server sets it once for the service and lets the lanes join as they come.  Between the two another
lane may end, and if that was the claim's last one, the format is gone: the lane that joins next
makes a new claim that has none, and nothing sets it again (`claim_without_wire`).  If no claim
is removed from under a lane or a service that has set its format, every live lane's claim carries
the lane's format (`live_lane_wire`).
-/
import Mathlib.Logic.Function.Basic
import Molehill.Lib.Transition
import Molehill.Transparent.Endpoint

namespace Molehill.Transparent

open Lib Function

/-! ## 1. The table -/

/-- `ClaimSlots`: a slot holds the lane whose queue is in it. -/
structure ClaimSlots where
  wire : Option FrameFormat
  slots : List (Option Nat)
  deriving DecidableEq

def ClaimSlots.new : ClaimSlots := ⟨none, []⟩

/-- `ClaimSlots::place`: the first free slot, or a new one. -/
def ClaimSlots.place (c : ClaimSlots) (lane : Nat) : ClaimSlots × Nat :=
  let slot := c.slots.findIdx Option.isNone
  if slot < c.slots.length then ({ c with slots := c.slots.set slot (some lane) }, slot)
  else ({ c with slots := c.slots ++ [some lane] }, slot)

/-- The routing table. -/
abbrev Routes := EndpointTable ClaimSlots

namespace Routes

/-- `Routes::join`. -/
def join (t : Routes) (e : Endpoint) (lane : Nat) : Routes × Nat :=
  let claim := (t.entries.lookup e).getD .new
  (t.insert e (claim.place lane).1, (claim.place lane).2)

/-- `Routes::set_wire_format`; none if the claim carries another format. -/
def setWireFormat (t : Routes) (e : Endpoint) (format : FrameFormat) : Option Routes :=
  match t.entries.lookup e with
  | some claim =>
    match claim.wire with
    | some existing => if existing ≠ format then none else some t
    | none => some (t.insert e { claim with wire := some format })
  | none => some (t.insert e { ClaimSlots.new with wire := some format })

/-- `Routes::vacate`. -/
def vacate (t : Routes) (e : Endpoint) (slot : Nat) : Routes :=
  match t.entries.lookup e with
  | none => t
  | some claim =>
    let slots := claim.slots.set slot none
    if slots.any Option.isSome then t.insert e { claim with slots := slots } else t.remove e

/-- `Routes::wire_format`. -/
def wireFormat (t : Routes) (e : Endpoint) : Option FrameFormat :=
  (t.entries.lookup e).bind ClaimSlots.wire

end Routes

/-! ## 2. The callers -/

/-- A lane's task: not started, its format negotiated and not yet in the hub, a member, over. -/
inductive LanePhase
  | idle
  | ready (e : Endpoint) (wire : FrameFormat)
  | live (e : Endpoint) (slot : Nat) (wire : FrameFormat)
  | over
  deriving DecidableEq

/-- A hub and those who use it. -/
structure Hub where
  table : Routes
  lanes : Nat → LanePhase
  /-- The running services of a server. -/
  services : Nat → Option (Endpoint × FrameFormat)

def Hub.new : Hub := ⟨EndpointTable.new, fun _ => .idle, fun _ => none⟩

inductive HubEvent
  /-- A client's lane is told the format and sets it. -/
  | set (lane : Nat) (e : Endpoint) (wire : FrameFormat)
  /-- A server's service starts and sets its format. -/
  | serve (service : Nat) (e : Endpoint) (wire : FrameFormat)
  /-- A channel of a service starts: its lane carries the service's format. -/
  | channel (lane service : Nat)
  | join (lane : Nat)
  /-- A lane ends before it joined. -/
  | abandon (lane : Nat)
  /-- A member ends. -/
  | vacate (lane : Nat)
  | serviceEnds (service : Nat)
  deriving DecidableEq

/-- A step of the hub's users. -/
def Hub.step (s : Hub) : HubEvent → Option Hub
  | .set lane e wire =>
    if s.lanes lane = .idle then
      match s.table.setWireFormat e wire with
      | some table => some { s with table := table, lanes := update s.lanes lane (.ready e wire) }
      | none => some { s with lanes := update s.lanes lane .over }
    else none
  | .serve service e wire =>
    if s.services service = none then
      match s.table.setWireFormat e wire with
      | some table =>
        some { s with table := table, services := update s.services service (some (e, wire)) }
      | none => some s
    else none
  | .channel lane service =>
    match s.lanes lane, s.services service with
    | .idle, some (e, wire) => some { s with lanes := update s.lanes lane (.ready e wire) }
    | _, _ => none
  | .join lane =>
    match s.lanes lane with
    | .ready e wire =>
      some
        { s with
          table := (s.table.join e lane).1
          lanes := update s.lanes lane (.live e (s.table.join e lane).2 wire) }
    | _ => none
  | .abandon lane =>
    match s.lanes lane with
    | .ready _ _ => some { s with lanes := update s.lanes lane .over }
    | _ => none
  | .vacate lane =>
    match s.lanes lane with
    | .live e slot _ =>
      some { s with table := s.table.vacate e slot, lanes := update s.lanes lane .over }
    | _ => none
  | .serviceEnds service => some { s with services := update s.services service none }

def hub : Lts Hub HubEvent where
  init s := s = .new
  step s a s' := s.step a = some s'

/-! ## 3. What the format is for -/

/-- Every live lane's claim carries the format the lane negotiated. -/
def Hub.Carries (s : Hub) : Prop :=
  ∀ lane e slot wire, s.lanes lane = .live e slot wire → s.table.wireFormat e = some wire

/-- The claim's only live lane does not end while another lane is between its set and its join,
or a service with this endpoint is running. -/
def KeepsFormat (s : Hub) : HubEvent → Prop
  | .vacate lane =>
    ∀ e slot wire, s.lanes lane = .live e slot wire →
      (s.table.vacate e slot).entries.lookup e = none →
      (∀ other wire', s.lanes other ≠ .ready e wire') ∧
        ∀ service wire', s.services service ≠ some (e, wire')
  | _ => True

/-! ## 4. The table's operations -/

namespace Routes

variable {t t' : Routes} {e e' : Endpoint} {wire : FrameFormat}

theorem lookup_insert (t : Routes) (e e' : Endpoint) (c : ClaimSlots) :
    (t.insert e c).entries.lookup e' = if e' = e then some c else t.entries.lookup e' :=
  Table.lookup_insert_eq t.entries e e' c

theorem lookup_remove (t : Routes) (e e' : Endpoint) :
    (t.remove e).entries.lookup e' = if e' = e then none else t.entries.lookup e' :=
  Table.lookup_erase_eq t.entries e e'

end Routes

theorem ClaimSlots.place_wire (c : ClaimSlots) (lane : Nat) : (c.place lane).1.wire = c.wire := by
  simp only [place]
  split
  · rfl
  · rfl

/-- The lane gets its slot. -/
theorem ClaimSlots.place_slot (c : ClaimSlots) (lane : Nat) :
    (c.place lane).1.slots[(c.place lane).2]? = some (some lane) := by
  simp only [place]
  split
  case isTrue h => simp [h]
  case isFalse h =>
    have hlen : c.slots.findIdx Option.isNone = c.slots.length := by
      have hle : c.slots.findIdx Option.isNone ≤ c.slots.length := List.findIdx_le_length
      omega
    rw [hlen, List.getElem?_append_right (Nat.le_refl _), Nat.sub_self]
    rfl

/-- The others keep theirs. -/
theorem ClaimSlots.place_other {c : ClaimSlots} {lane other slot : Nat}
    (h : c.slots[slot]? = some (some other)) :
    (c.place lane).1.slots[slot]? = some (some other) := by
  simp only [place]
  split
  case isTrue hlt =>
    have hne : c.slots.findIdx Option.isNone ≠ slot := by
      rintro rfl
      have hnone := List.findIdx_getElem (w := hlt)
      rw [List.getElem?_eq_getElem hlt] at h
      rw [Option.some.inj h] at hnone
      cases hnone
    rw [List.getElem?_set_ne hne]
    exact h
  case isFalse => exact List.getElem?_append_left (List.getElem?_eq_some_iff.mp h).1 ▸ h

namespace Routes

variable {t t' : Routes} {e e' : Endpoint} {wire : FrameFormat}

/-- A join leaves every claim's format as it was. -/
theorem wireFormat_join (t : Routes) (e e' : Endpoint) (lane : Nat) :
    (t.join e lane).1.wireFormat e' = t.wireFormat e' := by
  simp only [wireFormat, join]
  rw [lookup_insert]
  split
  case isTrue h =>
    subst h
    rw [Option.bind_some, ClaimSlots.place_wire]
    cases t.entries.lookup e' with
    | none => rfl
    | some c => rfl
  case isFalse => rfl

/-- What fixing a format leaves in the table: this one, every format that was there, and the
slots. -/
def Fixes (t : Routes) (e : Endpoint) (wire : FrameFormat) (t' : Routes) : Prop :=
  t'.wireFormat e = some wire ∧ (∀ e' w, t.wireFormat e' = some w → t'.wireFormat e' = some w) ∧
    ∀ e' c, t.entries.lookup e' = some c →
      ∃ c', t'.entries.lookup e' = some c' ∧ c'.slots = c.slots

/-- A claim without a format is written back with one. -/
theorem fixes_insert {c : ClaimSlots} (hc : c.wire = some wire)
    (hold : ∀ c₀, t.entries.lookup e = some c₀ → c₀.wire = none ∧ c.slots = c₀.slots) :
    Fixes t e wire (t.insert e c) := by
  refine ⟨by rw [wireFormat, lookup_insert, if_pos rfl]; exact hc, ?_, ?_⟩
  · intro e' w hw
    rw [wireFormat, lookup_insert]
    split
    case isFalse => exact hw
    case isTrue he =>
      obtain ⟨c₀, hc₀, hw₀⟩ := Option.bind_eq_some_iff.mp hw
      rw [he] at hc₀
      rw [(hold c₀ hc₀).1] at hw₀
      cases hw₀
  · intro e' c₀ hc₀
    rw [lookup_insert]
    split
    case isFalse => exact ⟨c₀, hc₀, rfl⟩
    case isTrue he =>
      rw [he] at hc₀
      exact ⟨c, rfl, (hold c₀ hc₀).2⟩

theorem setWireFormat_spec (h : t.setWireFormat e wire = some t') : Fixes t e wire t' := by
  rw [setWireFormat] at h
  split at h
  case h_1 c hc =>
    split at h
    case h_1 existing hw =>
      split at h
      case isTrue => cases h
      case isFalse heq =>
        cases h
        have heq : existing = wire := Decidable.not_not.mp heq
        refine ⟨by rw [wireFormat, hc, ← heq]; exact hw, fun _ _ hw => hw, fun e' c' hc' => ?_⟩
        exact ⟨c', hc', rfl⟩
    case h_2 hw =>
      cases h
      refine fixes_insert rfl fun c₀ hc₀ => ?_
      cases hc.symm.trans hc₀
      exact ⟨hw, rfl⟩
  case h_2 hnone =>
    cases h
    refine fixes_insert rfl fun c₀ hc₀ => ?_
    cases hnone.symm.trans hc₀

/-- A vacated slot: the other claims stay as they are, and this one keeps its format and its other
slots, or is gone and had no other lane. -/
theorem vacate_cases (t : Routes) (e : Endpoint) (slot : Nat) :
    (∀ e', e' ≠ e → (t.vacate e slot).entries.lookup e' = t.entries.lookup e') ∧
      ((∃ c, t.entries.lookup e = some c ∧
          (t.vacate e slot).entries.lookup e = some { c with slots := c.slots.set slot none }) ∨
        (t.vacate e slot).entries.lookup e = none ∧
          ∀ c, t.entries.lookup e = some c →
            ∀ i lane, c.slots[i]? = some (some lane) → i = slot) := by
  rw [vacate]
  split
  case h_1 hnone => exact ⟨fun _ _ => rfl, Or.inr ⟨hnone, by rw [hnone]; rintro c ⟨⟩⟩⟩
  case h_2 c hc =>
    dsimp only
    split
    case isTrue hany =>
      refine ⟨fun e' he => by rw [lookup_insert, if_neg he], Or.inl ⟨c, hc, ?_⟩⟩
      rw [lookup_insert, if_pos rfl]
    case isFalse hany =>
      refine ⟨fun e' he => by rw [lookup_remove, if_neg he], Or.inr ⟨?_, ?_⟩⟩
      · rw [lookup_remove, if_pos rfl]
      · intro c' hc' i lane hi
        rw [hc] at hc'
        cases hc'
        by_contra hne
        refine hany (List.any_eq_true.mpr ⟨some lane, ?_, rfl⟩)
        rw [← List.getElem?_set_ne (Ne.symm hne)] at hi
        exact List.mem_of_getElem? hi

end Routes

/-! ## 5. Over a run -/

/-- The invariant: each live lane has its slot, and whoever has set a format finds it in the
table. -/
structure Hub.Settled (s : Hub) : Prop where
  held : ∀ lane e slot wire, s.lanes lane = .live e slot wire →
    ∃ c, s.table.entries.lookup e = some c ∧ c.slots[slot]? = some (some lane)
  live : s.Carries
  ready : ∀ lane e wire, s.lanes lane = .ready e wire → s.table.wireFormat e = some wire
  served : ∀ service e wire, s.services service = some (e, wire) →
    s.table.wireFormat e = some wire

namespace Hub.Settled

variable {s : Hub}

theorem new : Hub.new.Settled where
  held := by rintro lane e slot wire ⟨⟩
  live := by rintro lane e slot wire ⟨⟩
  ready := by rintro lane e wire ⟨⟩
  served := by rintro service e wire ⟨⟩

/-- A table that keeps every format that was set and every slot that is held. -/
theorem withTable (h : s.Settled) {t : Routes}
    (hwire : ∀ e w, s.table.wireFormat e = some w → t.wireFormat e = some w)
    (hslots : ∀ e c, s.table.entries.lookup e = some c →
      ∃ c', t.entries.lookup e = some c' ∧ c'.slots = c.slots) :
    ({ s with table := t } : Hub).Settled where
  held := by
    intro lane e slot wire hl
    obtain ⟨c, hc, hslot⟩ := h.held lane e slot wire hl
    obtain ⟨c', hc', heq⟩ := hslots e c hc
    exact ⟨c', hc', by rw [heq]; exact hslot⟩
  live := fun lane e slot wire hl => hwire e wire (h.live lane e slot wire hl)
  ready := fun lane e wire hl => hwire e wire (h.ready lane e wire hl)
  served := fun service e wire hv => hwire e wire (h.served service e wire hv)

/-- A lane outside the hub changes its phase: nothing depends on it, or the format it now relies
on is there. -/
theorem withPhase (h : s.Settled) {lane : Nat} {phase : LanePhase}
    (hlive : ∀ e slot wire, phase ≠ .live e slot wire)
    (hready : ∀ e wire, phase = .ready e wire → s.table.wireFormat e = some wire) :
    ({ s with lanes := update s.lanes lane phase } : Hub).Settled where
  held := by
    intro other e slot wire hl
    simp only [update_apply] at hl
    split at hl
    · exact absurd hl (hlive e slot wire)
    · exact h.held other e slot wire hl
  live := by
    intro other e slot wire hl
    simp only [update_apply] at hl
    split at hl
    · exact absurd hl (hlive e slot wire)
    · exact h.live other e slot wire hl
  ready := by
    intro other e wire hl
    simp only [update_apply] at hl
    split at hl
    · exact hready e wire hl
    · exact h.ready other e wire hl
  served := h.served

/-- The lane takes a slot of its claim; the claim has the format the lane has set. -/
theorem join (h : s.Settled) {lane : Nat} {e : Endpoint} {wire : FrameFormat}
    (hl : s.lanes lane = .ready e wire) :
    ({ s with
        table := (s.table.join e lane).1
        lanes := update s.lanes lane (.live e (s.table.join e lane).2 wire) } : Hub).Settled := by
  have hwire : ∀ e', (s.table.join e lane).1.wireFormat e' = s.table.wireFormat e' :=
    fun e' => s.table.wireFormat_join e e' lane
  refine ⟨?_, ?_, ?_, ?_⟩
  · intro other e' slot wire' ho
    simp only [update_apply] at ho
    simp only [Routes.join]
    rw [Routes.lookup_insert]
    split at ho
    case isTrue hother =>
      cases ho
      rw [if_pos rfl, hother]
      exact ⟨_, rfl, ClaimSlots.place_slot _ lane⟩
    case isFalse =>
      obtain ⟨c, hc, hslot⟩ := h.held other e' slot wire' ho
      split
      case isTrue he =>
        subst he
        rw [hc]
        exact ⟨_, rfl, ClaimSlots.place_other hslot⟩
      case isFalse => exact ⟨c, hc, hslot⟩
  · intro other e' slot wire' ho
    simp only [update_apply] at ho
    simp only [hwire]
    split at ho
    case isTrue =>
      cases ho
      exact h.ready lane e wire hl
    case isFalse => exact h.live other e' slot wire' ho
  · intro other e' wire' ho
    simp only [update_apply] at ho
    simp only [hwire]
    split at ho
    case isTrue => cases ho
    case isFalse => exact h.ready other e' wire' ho
  · intro service e' wire' hv
    simp only [hwire]
    exact h.served service e' wire' hv

/-- The lane's slot is emptied; the claim stays, or nobody relies on it. -/
theorem vacate (h : s.Settled) {lane : Nat} {e : Endpoint} {slot : Nat} {wire : FrameFormat}
    (hl : s.lanes lane = .live e slot wire) (hc : KeepsFormat s (.vacate lane)) :
    ({ s with table := s.table.vacate e slot, lanes := update s.lanes lane .over } :
      Hub).Settled := by
  obtain ⟨hother, hcase⟩ := s.table.vacate_cases e slot
  -- what others rely on is still there
  have hkeep : ∀ e' w, s.table.wireFormat e' = some w →
      (e' = e → (s.table.vacate e slot).entries.lookup e ≠ none) →
      (s.table.vacate e slot).wireFormat e' = some w := by
    intro e' w hw hstays
    by_cases he : e' = e
    · subst he
      obtain ⟨c, hc0, hc1⟩ | ⟨hgone, -⟩ := hcase
      · rw [Routes.wireFormat, hc1]
        rw [Routes.wireFormat, hc0] at hw
        exact hw
      · exact absurd hgone (hstays rfl)
    · rw [Routes.wireFormat, hother e' he]
      exact hw
  have hstays : ∀ other e' slot' wire', other ≠ lane → s.lanes other = .live e' slot' wire' →
      e' = e → ∃ c, (s.table.vacate e slot).entries.lookup e = some c ∧
        c.slots[slot']? = some (some other) := by
    rintro other e' slot' wire' hne ho rfl
    obtain ⟨c, hc0, hs⟩ := h.held other e' slot' wire' ho
    obtain ⟨c', hc0', hs'⟩ := h.held lane e' slot wire hl
    cases hc0.symm.trans hc0'
    have hslot : slot ≠ slot' := by
      rintro rfl
      cases hs.symm.trans hs'
      exact hne rfl
    obtain ⟨d, hd0, hd1⟩ | ⟨-, hsole⟩ := hcase
    · cases hc0.symm.trans hd0
      exact ⟨_, hd1, by rw [List.getElem?_set_ne hslot]; exact hs⟩
    · exact absurd (hsole c hc0 slot' other hs).symm hslot
  refine ⟨?_, ?_, ?_, ?_⟩
  · intro other e' slot' wire' ho
    simp only [update_apply] at ho
    split at ho
    case isTrue => cases ho
    case isFalse hne =>
      by_cases he : e' = e
      · obtain ⟨c, hc1, hs⟩ := hstays other e' slot' wire' hne ho he
        rw [he]
        exact ⟨c, hc1, hs⟩
      · simp only [hother e' he]
        exact h.held other e' slot' wire' ho
  · intro other e' slot' wire' ho
    simp only [update_apply] at ho
    split at ho
    case isTrue => cases ho
    case isFalse hne =>
      refine hkeep e' wire' (h.live other e' slot' wire' ho) ?_
      intro he hgone
      obtain ⟨c, hc1, -⟩ := hstays other e' slot' wire' hne ho he
      cases hgone.symm.trans hc1
  · intro other e' wire' ho
    simp only [update_apply] at ho
    split at ho
    case isTrue => cases ho
    case isFalse =>
      refine hkeep e' wire' (h.ready other e' wire' ho) ?_
      rintro rfl hgone
      exact (hc e' slot wire hl hgone).1 other wire' ho
  · intro service e' wire' hv
    refine hkeep e' wire' (h.served service e' wire' hv) ?_
    rintro rfl hgone
    exact (hc e' slot wire hl hgone).2 service wire' hv

/-- A step that removes no format somebody relies on. -/
theorem step (h : s.Settled) {a : HubEvent} {s' : Hub} (hc : KeepsFormat s a)
    (hs : s.step a = some s') : s'.Settled := by
  cases a with
  | set lane e wire =>
    simp only [Hub.step] at hs
    split at hs
    case isFalse => cases hs
    case isTrue =>
      split at hs
      case h_1 t ht =>
        cases hs
        obtain ⟨hset, hwire, hslots⟩ := Routes.setWireFormat_spec ht
        refine (h.withTable hwire hslots).withPhase (by rintro e' slot wire' ⟨⟩) ?_
        rintro e' wire' ⟨⟩
        exact hset
      case h_2 =>
        cases hs
        exact h.withPhase (by rintro e' slot wire' ⟨⟩) (by rintro e' wire' ⟨⟩)
  | serve service e wire =>
    simp only [Hub.step] at hs
    split at hs
    case isFalse => cases hs
    case isTrue =>
      split at hs
      case h_1 t ht =>
        cases hs
        obtain ⟨hset, hwire, hslots⟩ := Routes.setWireFormat_spec ht
        refine { h.withTable hwire hslots with served := ?_ }
        intro service' e' wire' hv
        simp only [update_apply] at hv
        split at hv
        case isTrue =>
          cases hv
          exact hset
        case isFalse => exact hwire e' wire' (h.served service' e' wire' hv)
      case h_2 =>
        cases hs
        exact h
  | channel lane service =>
    simp only [Hub.step] at hs
    split at hs
    case h_1 e wire _ hservice =>
      cases hs
      refine h.withPhase (by rintro e' slot wire' ⟨⟩) ?_
      rintro e' wire' ⟨⟩
      exact h.served service e wire hservice
    case h_2 => cases hs
  | join lane =>
    simp only [Hub.step] at hs
    split at hs
    case h_1 e wire hl =>
      cases hs
      exact h.join hl
    case h_2 => cases hs
  | abandon lane =>
    simp only [Hub.step] at hs
    split at hs
    case h_1 =>
      cases hs
      exact h.withPhase (by rintro e' slot wire' ⟨⟩) (by rintro e' wire' ⟨⟩)
    case h_2 => cases hs
  | vacate lane =>
    simp only [Hub.step] at hs
    split at hs
    case h_1 e slot wire hl =>
      cases hs
      exact h.vacate hl hc
    case h_2 => cases hs
  | serviceEnds service =>
    cases hs
    refine { h with served := ?_ }
    intro service' e' wire' hv
    simp only [update_apply] at hv
    split at hv
    · cases hv
    · exact h.served service' e' wire' hv

end Hub.Settled

/-- **Every live lane's claim carries the lane's format**, in every run in which no claim is
removed while a lane is between its set and its join there or a service with that endpoint runs. -/
theorem live_lane_wire {s : Hub} (h : (hub.restrict KeepsFormat).Reach s) : s.Carries := by
  have hsettled : s.Settled := by
    refine h.invariant ?_ ?_
    · rintro s rfl
      exact Hub.Settled.new
    · rintro s a s' hs ⟨hc, hstep⟩
      exact hs.step hc hstep
  exact hsettled.live

/-! ## 6. Runs -/

/-- A claim on `10.99.0.1:443`. -/
def webClaim : Endpoint := ⟨.v4 0x0a630001, 443⟩

/-- The second lane is a member before the first one ends. -/
def overlapRun : List HubEvent :=
  [.set 0 webClaim .vnet, .join 0, .set 1 webClaim .vnet, .join 1, .vacate 0]

/-- The first lane, the claim's only one, ends between the second lane's set and its join. -/
def gapRun : List HubEvent :=
  [.set 0 webClaim .vnet, .join 0, .set 1 webClaim .vnet, .vacate 0, .join 1]

/-- A server's claim whose only lane is replaced. -/
def replacedRun : List HubEvent :=
  [.serve 0 webClaim .vnet, .channel 0 0, .join 0, .vacate 0, .channel 1 0, .join 1]

/-- The check of a step of `overlapRun`: a claim that loses a lane keeps another. -/
def keepsLane (s : Hub) : HubEvent → Bool
  | .vacate lane =>
    match s.lanes lane with
    | .live e slot _ => ((s.table.vacate e slot).entries.lookup e).isSome
    | _ => true
  | _ => true

theorem keepsFormat_of_keepsLane (s : Hub) (a : HubEvent) (h : keepsLane s a = true) :
    KeepsFormat s a := by
  cases a with
  | vacate lane =>
    intro e slot wire hl hgone
    simp [keepsLane, hl, hgone] at h
  | _ => trivial

theorem live_lane_wire_overlap :
    ∃ s, (hub.restrict KeepsFormat).Reach s ∧ s.lanes 1 = .live webClaim 1 .vnet ∧ s.Carries := by
  have hrun : (Lts.runWith Hub.step keepsLane .new overlapRun).any
      (fun s => decide (s.lanes 1 = .live webClaim 1 .vnet)) = true := by
    decide +kernel
  obtain ⟨s, hs, hend⟩ := (Option.any_eq_true ..).mp hrun
  have hreach : (hub.restrict KeepsFormat).Reach s :=
    Lts.Reach.runWith (fun _ _ _ h => h) keepsFormat_of_keepsLane (Lts.Reach.init rfl) hs
  exact ⟨s, hreach, of_decide_eq_true hend, live_lane_wire hreach⟩

/-- **A live claim is left without a format**, on a client whose lanes overlap too little and on a
server whose only lane is replaced: its packets have nowhere to go. -/
theorem claim_without_wire :
    (∃ s, hub.Reach s ∧ s.lanes 1 = .live webClaim 0 .vnet ∧
      s.table.wireFormat webClaim = none ∧ ¬ s.Carries) ∧
    ∃ s, hub.Reach s ∧ s.services 0 = some (webClaim, .vnet) ∧
      s.lanes 1 = .live webClaim 0 .vnet ∧ s.table.wireFormat webClaim = none ∧ ¬ s.Carries := by
  have hclient : (Lts.runWith Hub.step (fun _ _ => true) .new gapRun).any
      (fun s => decide (s.lanes 1 = .live webClaim 0 .vnet ∧
        s.table.wireFormat webClaim = none)) = true := by
    decide +kernel
  have hserver : (Lts.runWith Hub.step (fun _ _ => true) .new replacedRun).any
      (fun s => decide (s.services 0 = some (webClaim, .vnet) ∧
        s.lanes 1 = .live webClaim 0 .vnet ∧ s.table.wireFormat webClaim = none)) = true := by
    decide +kernel
  constructor
  · obtain ⟨s, hs, hend⟩ := (Option.any_eq_true ..).mp hclient
    have hreach : (hub.restrict fun _ _ => True).Reach s :=
      Lts.Reach.runWith (fun _ _ _ h => h) (fun _ _ _ => trivial) (Lts.Reach.init rfl) hs
    obtain ⟨hl, hw⟩ := of_decide_eq_true hend
    refine ⟨s, hreach.of_restrict, hl, hw, fun h => ?_⟩
    cases hw.symm.trans (h 1 webClaim 0 .vnet hl)
  · obtain ⟨s, hs, hend⟩ := (Option.any_eq_true ..).mp hserver
    have hreach : (hub.restrict fun _ _ => True).Reach s :=
      Lts.Reach.runWith (fun _ _ _ h => h) (fun _ _ _ => trivial) (Lts.Reach.init rfl) hs
    obtain ⟨hv, hl, hw⟩ := of_decide_eq_true hend
    refine ⟨s, hreach.of_restrict, hv, hl, hw, fun h => ?_⟩
    cases hw.symm.trans (h 1 webClaim 0 .vnet hl)

end Molehill.Transparent
