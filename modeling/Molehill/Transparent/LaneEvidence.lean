/-
# What a lane is judged by

The hub counts, for each slot, what the lane in it was offered and carried, and keeps what the peer
reported of it; when the lane goes, its numbers are archived (`transparent/hub.rs`).  The numbers
are the lane's, as the code says in several places: a replacement must not inherit what its
predecessor was told.

It can, in three ways.  `forget_lane` resets the counters but not the peer's report, and `place`
resets it only when it still finds the lane that `forget_lane` took (`report_inherited`).  A batch
that meets an empty slot is counted there, and the next lane takes it over; so are all the counters
of a lane without an id, which `forget_lane` does not see.  And a report is matched by the lane's
id, which two lanes of a claim share after a reconnect.  In every run in which lanes are only
placed in slots with nothing on record, and reports only find the lane they are about, every
number is the lane's own (`evidence_own`).  Such are the runs in which every lane has an id that no
other lane of its claim has, no batch meets an empty slot, and no lane goes while a report about it
stands (`reach_keepsApart`).
-/
import Mathlib.Data.List.Basic
import Molehill.Lib.Transition
import Molehill.Transparent.Slots

namespace Molehill.Transparent.Slots

open Lib

/-! ## 1. The hub -/

/-- A lane that was placed, with the claim and the slot its guard vacates.  `carried` is what
happened to it since it joined. -/
structure PlacedLane (E : Type) where
  endpoint : E
  id : Option Nat
  slot : Nat
  live : Bool
  carried : LaneCounters
  deriving DecidableEq

/-- `Routes`: the claims and the archive; the lanes so far; and the peer's reports, each with the
lane it is about. -/
structure Routes (E : Type) where
  table : Table E ClaimSlots
  archive : List (E × RetiredLane)
  lanes : List (PlacedLane E)
  reports : List (Nat × RemoteLane)

/-- `RETIRED_LANES * ARCHIVE_CLAIMS`. -/
def archiveMax : Nat := 32

inductive HubCall (E : Type)
  /-- A lane joins its claim. -/
  | join (endpoint : E) (id : Option Nat) (carrier : Option Pool.Carrier) (now : Nat)
  /-- A lane's guard is dropped. -/
  | vacate (n : Nat)
  /-- A batch is handed to a slot, whose queue takes it or not. -/
  | flush (endpoint : E) (slot : Nat) (batch : Batch) (takes : Bool)
  /-- Packets of a lane are injected. -/
  | inject (n packets bytes : Nat)
  /-- A report of the peer about a lane is read. -/
  | report (n : Nat) (report : RemoteLane)

/-- What a batch adds to the counters of the lane it meets. -/
def LaneCounters.batch (c : LaneCounters) (count bytes : Nat) (takes : Bool) : LaneCounters :=
  if takes then (c.offer count bytes).enqueue count bytes
  else (c.offer count bytes).refuse count bytes false

namespace Routes

variable {E : Type} [DecidableEq E] (s : Routes E)

def new : Routes E := ⟨∅, [], [], []⟩

/-- The entry of a slot. -/
def entryAt (e : E) (k : Nat) : Option MemberSlot := (s.table.lookup e).bind fun c => c.slots[k]?

/-- The lane that holds a slot. -/
def holder (e : E) (k : Nat) : Option Nat := (s.entryAt e k).bind MemberSlot.queue

/-- A claim changes. -/
def withClaim (e : E) (f : ClaimSlots → ClaimSlots) : Routes E :=
  match s.table.lookup e with
  | some c => { s with table := s.table.insert e (f c) }
  | none => s

/-- What a lane carried grows. -/
def credit (holder : Option Nat) (g : LaneCounters → LaneCounters) : Routes E :=
  match holder with
  | some n => { s with lanes := s.lanes.modify n fun l => { l with carried := g l.carried } }
  | none => s

/-- `archive_recent`. -/
def archiveRecent (e : E) (retired : List RetiredLane) : List (E × RetiredLane) :=
  let archive := s.archive ++ retired.map fun r => (e, r)
  archive.drop (archive.length - archiveMax)

/-- The claim, or a new one. -/
def claimOf (e : E) (now : Nat) : ClaimSlots := (s.table.lookup e).getD (.new now)

/-- `join`. -/
def join (e : E) (id : Option Nat) (carrier : Option Pool.Carrier) (now : Nat) : Routes E :=
  let placed := (s.claimOf e now).place s.lanes.length id carrier
  { s with
    table := s.table.insert e placed.1
    lanes := s.lanes ++ [⟨e, id, placed.2, true, {}⟩] }

/-- `flush`: the batch is the lane's that holds the slot, if one does. -/
def flush (e : E) (k : Nat) (batch : Batch) (takes : Bool) : Routes E :=
  if batch.packets = 0 then s
  else
    (s.withClaim e fun c => c.flush k batch takes).credit (s.holder e k) fun c =>
      c.batch batch.count batch.bytes takes

/-- `count_injected`, by the lane's task. -/
def countInjected (n : Nat) (l : PlacedLane E) (packets bytes : Nat) : Routes E :=
  if packets = 0 then s
  else
    (s.withClaim l.endpoint fun c => c.countInjected l.slot packets bytes).credit (some n) fun c =>
      c.inject packets bytes

/-- `vacate`: the claim goes with its last lane. -/
def vacate (e : E) (k : Nat) : Routes E :=
  match s.table.lookup e with
  | some c =>
    let c := c.vacate k
    if c.live then { s with table := s.table.insert e c }
    else { s with table := s.table.erase e, archive := s.archiveRecent e c.retired }
  | none => s

end Routes

namespace Routes

variable {E : Type} [DecidableEq E]

def step (s : Routes E) : HubCall E → Option (Routes E)
  | .join e id carrier now => some (s.join e id carrier now)
  | .vacate n =>
    match s.lanes[n]? with
    | some l =>
      if l.live then
        some { s.vacate l.endpoint l.slot with lanes := s.lanes.set n { l with live := false } }
      else none
    | none => none
  | .flush e k batch takes => some (s.flush e k batch takes)
  | .inject n packets bytes =>
    match s.lanes[n]? with
    | some l => if l.live then some (s.countInjected n l packets bytes) else none
    | none => none
  | .report n report =>
    match s.lanes[n]? with
    | some l =>
      l.id.map fun id => { s.withClaim l.endpoint fun c => c.noteRemote id report with
        reports := s.reports ++ [(n, report)] }
    | none => none

end Routes

/-- The runs of a hub. -/
def hubCalls (E : Type) [DecidableEq E] : Lts (Routes E) (HubCall E) where
  init s := s = .new
  step s e s' := s.step e = some s'

/-! ## 2. What is promised -/

namespace Routes

variable {E : Type} [DecidableEq E]

/-- The record is one of a lane of the claim that is gone, with what that lane carried. -/
def Recorded (s : Routes E) (e : E) (r : RetiredLane) : Prop :=
  ∃ l ∈ s.lanes, l.live = false ∧ l.endpoint = e ∧ l.id = some r.lane.id ∧ r.counters = l.carried

/-- **What is promised** of the evidence. -/
structure EvidenceOwn (s : Routes E) : Prop where
  /-- The counters of a lane are what that lane carried since it joined. -/
  counters : ∀ (e : E) (k n : Nat) x, s.entryAt e k = some x → x.queue = some n →
    ∃ l, s.lanes[n]? = some l ∧ x.counters = l.carried
  /-- The peer's report is one about the lane. -/
  remote : ∀ (e : E) (k n : Nat) x report, s.entryAt e k = some x → x.queue = some n →
    x.remote = some report → (n, report) ∈ s.reports
  /-- So are the numbers of the lanes that were let go. -/
  slotRetired : ∀ (e : E) (k : Nat) x, s.entryAt e k = some x → ∀ r ∈ x.retired, s.Recorded e r
  claimRetired : ∀ (e : E) c, s.table.lookup e = some c → ∀ r ∈ c.retired, s.Recorded e r
  archived : ∀ r ∈ s.archive, s.Recorded r.1 r.2

/-- Whether the step keeps the lanes apart: a lane is placed in a slot that has nothing on record,
and a report finds the lane it is about, or none. -/
def keepsApart (s : Routes E) : HubCall E → Bool
  | .join e _ _ _ => (s.table.lookup e).all fun c =>
      c.slots[c.freeSlot]?.all fun x => x.counters = {} && x.remote.isNone
  | .report n _ => s.lanes[n]?.all fun l => l.id.all fun id => (s.table.lookup l.endpoint).all
      fun c => (c.slotOf id).all fun k => s.holder l.endpoint k = some n
  | _ => true

end Routes

/-! ## 3. Slots and lanes after a step -/

namespace Routes

variable {E : Type} [DecidableEq E] {s s' : Routes E} {e e' : E} {k k' n m : Nat}
  {x : MemberSlot} {l : PlacedLane E}

theorem entryAt_insert (s : Routes E) (e : E) (c : ClaimSlots) (e' : E) (k : Nat) :
    ({ s with table := s.table.insert e c } : Routes E).entryAt e' k =
      if e' = e then c.slots[k]? else s.entryAt e' k := by
  unfold entryAt
  dsimp only
  rw [Table.lookup_insert_eq]
  split <;> rfl

theorem lookup_withClaim (s : Routes E) (e : E) (f : ClaimSlots → ClaimSlots) (e' : E) :
    (s.withClaim e f).table.lookup e' =
      if e' = e then (s.table.lookup e).map f else s.table.lookup e' := by
  unfold withClaim
  split
  case h_1 c hc =>
    rw [hc]
    exact Table.lookup_insert_eq ..
  case h_2 hc =>
    rw [hc]
    split
    case isTrue heq => rw [heq, hc]; rfl
    case isFalse => rfl

theorem entryAt_withClaim (s : Routes E) (e : E) (k : Nat) (f : MemberSlot → MemberSlot) (e' : E)
    (k' : Nat) : (s.withClaim e fun c => c.modify k f).entryAt e' k' =
      if e' = e ∧ k' = k then (s.entryAt e k).map f else s.entryAt e' k' := by
  unfold entryAt
  rw [lookup_withClaim]
  by_cases he : e' = e
  · subst he
    rw [if_pos rfl]
    cases s.table.lookup e' with
    | none => split <;> rfl
    | some c =>
      rw [Option.map_some, Option.bind_some, Option.bind_some, Option.bind_some, c.getElem?_modify]
      by_cases hk : k' = k
      · rw [if_pos hk, if_pos ⟨rfl, hk⟩]
      · rw [if_neg hk, if_neg fun h => hk h.2]
  · rw [if_neg he, if_neg fun h => he h.1]

@[simp] theorem lanes_withClaim (s : Routes E) (e : E) (f : ClaimSlots → ClaimSlots) :
    (s.withClaim e f).lanes = s.lanes := by
  unfold withClaim
  split <;> rfl

@[simp] theorem archive_withClaim (s : Routes E) (e : E) (f : ClaimSlots → ClaimSlots) :
    (s.withClaim e f).archive = s.archive := by
  unfold withClaim
  split <;> rfl

@[simp] theorem reports_withClaim (s : Routes E) (e : E) (f : ClaimSlots → ClaimSlots) :
    (s.withClaim e f).reports = s.reports := by
  unfold withClaim
  split <;> rfl

omit [DecidableEq E] in
@[simp] theorem table_credit (s : Routes E) (o : Option Nat) (g : LaneCounters → LaneCounters) :
    (s.credit o g).table = s.table := by
  cases o <;> rfl

omit [DecidableEq E] in
@[simp] theorem reports_credit (s : Routes E) (o : Option Nat) (g : LaneCounters → LaneCounters) :
    (s.credit o g).reports = s.reports := by
  cases o <;> rfl

omit [DecidableEq E] in
@[simp] theorem archive_credit (s : Routes E) (o : Option Nat) (g : LaneCounters → LaneCounters) :
    (s.credit o g).archive = s.archive := by
  cases o <;> rfl

omit [DecidableEq E] in
theorem getElem?_credit (s : Routes E) (o : Option Nat) (g : LaneCounters → LaneCounters)
    (m : Nat) : (s.credit o g).lanes[m]? =
      s.lanes[m]?.map fun l => if o = some m then { l with carried := g l.carried } else l := by
  cases o with
  | none => exact (Option.map_id' ..).symm
  | some n =>
    change (s.lanes.modify n _)[m]? = _
    rw [List.getElem?_modify]
    by_cases h : n = m
    · simp only [h, if_true]
      rfl
    · simp only [h, if_false, Option.some.injEq]
      rfl

/-! ## 4. The invariant -/

/-- **What holds between the calls**, beside what is promised: a guard's slot is its lane's, and an
empty slot has no lane to forget. -/
structure Inv (s : Routes E) : Prop where
  own : s.EvidenceOwn
  guard : ∀ (n : Nat) l, s.lanes[n]? = some l → l.live = true → s.holder l.endpoint l.slot = some n
  holds : ∀ (e : E) (k n : Nat) x, s.entryAt e k = some x → x.queue = some n →
    ∃ l, s.lanes[n]? = some l ∧ l.live = true ∧ l.endpoint = e ∧ l.slot = k ∧
      l.id = x.lane.map LaneKey.id
  vacant : ∀ (e : E) (k : Nat) x, s.entryAt e k = some x → x.queue = none → x.lane = none

theorem holder_eq (hx : s.entryAt e k = some x) : s.holder e k = x.queue := by
  rw [holder, hx]
  rfl

omit [DecidableEq E] in
theorem Recorded.mono {r : RetiredLane} (h : s.Recorded e r)
    (hdead : ∀ l ∈ s.lanes, l.live = false → l ∈ s'.lanes) : s'.Recorded e r := by
  obtain ⟨l, hl, hlive, hrest⟩ := h
  exact ⟨l, hdead l hl hlive, hlive, hrest⟩

theorem withClaim_congr {c : ClaimSlots} {f g : ClaimSlots → ClaimSlots}
    (hc : s.table.lookup e = some c) (h : f c = g c) : s.withClaim e f = s.withClaim e g := by
  rw [withClaim, withClaim, hc]
  dsimp only
  rw [h]

theorem withClaim_of_none {f : ClaimSlots → ClaimSlots} (hc : s.table.lookup e = none) :
    s.withClaim e f = s := by
  rw [withClaim, hc]

omit [DecidableEq E] in
theorem credit_self (s : Routes E) (o : Option Nat) : s.credit o (fun c => c) = s := by
  cases o with
  | none => rfl
  | some n =>
    change ({ s with lanes := s.lanes.modify n id } : Routes E) = s
    rw [List.modify_id]

theorem entryAt_of_holder (h : s.holder e k = some n) :
    ∃ x, s.entryAt e k = some x ∧ x.queue = some n :=
  Option.bind_eq_some_iff.mp h

theorem entryAt_congr (h : s'.table = s.table) (e : E) (k : Nat) :
    s'.entryAt e k = s.entryAt e k := by
  rw [entryAt, entryAt, h]

/-- An entry of the claim that is joined was there, or is blank. -/
theorem entryAt_of_claimOf (s : Routes E) {now : Nat}
    (hx : (s.claimOf e now).slots[k]? = some x) : s.entryAt e k = some x ∨ x = .new := by
  unfold claimOf at hx
  unfold entryAt
  cases hl : s.table.lookup e with
  | none =>
    rw [hl] at hx
    exact .inr (List.mem_singleton.mp (List.mem_of_getElem? hx))
  | some c =>
    rw [hl] at hx
    exact .inl hx

theorem claimOf_of_entryAt (s : Routes E) (now : Nat) (hx : s.entryAt e k = some x) :
    (s.claimOf e now).slots[k]? = some x := by
  obtain ⟨c, hl, hx⟩ := Option.bind_eq_some_iff.mp hx
  rw [claimOf, hl]
  exact hx

theorem recorded_of_claimOf (s : Routes E) {now : Nat}
    (h : ∀ (e : E) c, s.table.lookup e = some c → ∀ r ∈ c.retired, s.Recorded e r)
    {r : RetiredLane} (hr : r ∈ (s.claimOf e now).retired) : s.Recorded e r := by
  unfold claimOf at hr
  cases hl : s.table.lookup e with
  | none =>
    rw [hl] at hr
    cases hr
  | some c =>
    rw [hl] at hr
    exact h e c hl r hr

/-- The slot that is taken has nothing on record. -/
theorem nothing_on_record (s : Routes E) {id : Option Nat} {carrier : Option Pool.Carrier}
    {now : Nat} (hok : s.keepsApart (.join e id carrier now) = true)
    (hx : (s.claimOf e now).slots[(s.claimOf e now).freeSlot]? = some x) :
    x.counters = {} ∧ x.remote = none := by
  unfold claimOf at hx
  cases hl : s.table.lookup e with
  | none =>
    rw [hl] at hx
    rw [List.mem_singleton.mp (List.mem_of_getElem? hx)]
    exact ⟨rfl, rfl⟩
  | some c =>
    rw [hl] at hx
    change c.slots[c.freeSlot]? = some x at hx
    rw [keepsApart, hl, Option.all_some, hx, Option.all_some, Bool.and_eq_true,
      decide_eq_true_eq, Option.isNone_iff_eq_none] at hok
    exact hok

/-- What a vacated slot leaves of the hub: the slot is empty, or the claim is gone with it. -/
theorem vacate_cases (s : Routes E) {c : ClaimSlots} (hc : s.table.lookup e = some c) (k : Nat) :
    ((c.vacate k).live = true ∧
        s.vacate e k = { s with table := s.table.insert e (c.vacate k) }) ∨
      ((c.vacate k).live = false ∧ s.vacate e k = { s with
        table := s.table.erase e
        archive := s.archiveRecent e (c.vacate k).retired }) := by
  rw [vacate, hc]
  cases hlive : (c.vacate k).live with
  | true =>
    refine .inl ⟨rfl, ?_⟩
    simp only [hlive, if_true]
  | false =>
    refine .inr ⟨rfl, ?_⟩
    simp only [hlive, Bool.false_eq_true, if_false]

omit [DecidableEq E] in
theorem mem_archiveRecent {retired : List RetiredLane} {r : E × RetiredLane}
    (h : r ∈ s.archiveRecent e retired) : r ∈ s.archive ∨ (r.1 = e ∧ r.2 ∈ retired) := by
  rcases List.mem_append.mp (List.mem_of_mem_drop h) with hmem | hmem
  · exact .inl hmem
  · obtain ⟨x, hx, rfl⟩ := List.mem_map.mp hmem
    exact .inr ⟨rfl, hx⟩

/-- An entry after a lane left. -/
theorem entryAt_vacate (s : Routes E) {c : ClaimSlots} (hc : s.table.lookup e = some c)
    (hx : (s.vacate e k).entryAt e' k' = some x) :
    ((e' = e ∧ k' = k) ∧ ∃ y, s.entryAt e k = some y ∧ x = y.empty.forget) ∨
      (¬ (e' = e ∧ k' = k) ∧ s.entryAt e' k' = some x) := by
  rcases s.vacate_cases hc k with ⟨-, heq⟩ | ⟨-, heq⟩
  · rw [heq, entryAt_insert, c.getElem?_vacate] at hx
    split at hx
    case isTrue he =>
      have hentry : ∀ j, s.entryAt e j = c.slots[j]? := fun j => by rw [entryAt, hc]; rfl
      split at hx
      case isTrue hk =>
        obtain ⟨y, hy, rfl⟩ := Option.map_eq_some_iff.mp hx
        exact .inl ⟨⟨he, hk⟩, y, (hentry k).trans hy, rfl⟩
      case isFalse hk => exact .inr ⟨fun h => hk h.2, by rw [he, hentry]; exact hx⟩
    case isFalse he => exact .inr ⟨fun h => he h.1, hx⟩
  · rw [heq] at hx
    unfold entryAt at hx
    dsimp only at hx
    obtain ⟨c', hc', hx⟩ := Option.bind_eq_some_iff.mp hx
    obtain ⟨he, hc'⟩ := Table.lookup_of_erase hc'
    exact .inr ⟨fun h => he h.1, Option.bind_eq_some_iff.mpr ⟨c', hc', hx⟩⟩

/-- The other lanes keep their slots. -/
theorem holder_vacate (s : Routes E) {c : ClaimSlots} (hc : s.table.lookup e = some c)
    (hne : ¬ (e' = e ∧ k' = k)) (hn : s.holder e' k' = some n) :
    (s.vacate e k).holder e' k' = some n := by
  obtain ⟨x, hx, hq⟩ := entryAt_of_holder hn
  rcases s.vacate_cases hc k with ⟨-, heq⟩ | ⟨hdead, heq⟩
  · rw [heq, holder, entryAt_insert, c.getElem?_vacate]
    split
    case isTrue he =>
      rw [if_neg fun hk => hne ⟨he, hk⟩]
      rw [entryAt, he, hc] at hx
      change c.slots[k']? = some x at hx
      rw [hx]
      exact hq
    case isFalse => exact hn
  · by_cases he : e' = e
    · rw [entryAt, he, hc] at hx
      have hx' : (c.vacate k).slots[k']? = some x := by
        rw [c.getElem?_vacate, if_neg fun hk => hne ⟨he, hk⟩]
        exact hx
      have hlive : (c.vacate k).live = true :=
        List.any_eq_true.mpr ⟨x, List.mem_of_getElem? hx', by rw [hq]; rfl⟩
      exact absurd (hdead.symm.trans hlive) Bool.false_ne_true
    · rw [heq, holder, entryAt]
      dsimp only
      rw [Table.lookup_erase_eq, if_neg he]
      exact hn

/-- What the invariant says of one entry. -/
structure EntryRight (s : Routes E) (e : E) (k : Nat) (x : MemberSlot) : Prop where
  lane : ∀ n, x.queue = some n → ∃ l, s.lanes[n]? = some l ∧ (l.live = true ∧ l.endpoint = e ∧
    l.slot = k ∧ l.id = x.lane.map LaneKey.id) ∧ x.counters = l.carried
  remote : ∀ n report, x.queue = some n → x.remote = some report → (n, report) ∈ s.reports
  retired : ∀ r ∈ x.retired, s.Recorded e r
  vacant : x.queue = none → x.lane = none

omit [DecidableEq E] in
theorem entryRight_new (s : Routes E) (e : E) (k : Nat) : s.EntryRight e k .new :=
  ⟨nofun, nofun, nofun, fun _ => rfl⟩

omit [DecidableEq E] in
/-- An entry stays right while its lane is not touched and nothing that was noted is lost. -/
theorem EntryRight.mono (h : s.EntryRight e k x)
    (hlanes : ∀ (n : Nat) l, x.queue = some n → s.lanes[n]? = some l → s'.lanes[n]? = some l)
    (hreports : ∀ y ∈ s.reports, y ∈ s'.reports)
    (hdead : ∀ l ∈ s.lanes, l.live = false → l ∈ s'.lanes) : s'.EntryRight e k x where
  lane n hq := by
    obtain ⟨l, hl, hheld⟩ := h.lane n hq
    exact ⟨l, hlanes n l hq hl, hheld⟩
  remote n report hq hr := hreports _ (h.remote n report hq hr)
  retired r hr := (h.retired r hr).mono hdead
  vacant := h.vacant

/-- The invariant, from the entries. -/
theorem inv_of_entries (hentries : ∀ e k x, s.entryAt e k = some x → s.EntryRight e k x)
    (hclaim : ∀ (e : E) c, s.table.lookup e = some c → ∀ r ∈ c.retired, s.Recorded e r)
    (harchived : ∀ r ∈ s.archive, s.Recorded r.1 r.2)
    (hguard : ∀ (n : Nat) l, s.lanes[n]? = some l → l.live = true →
      s.holder l.endpoint l.slot = some n) : s.Inv := by
  refine ⟨⟨fun e k n x hx hq => ?_, fun e k n x report hx => (hentries e k x hx).remote n report,
    fun e k x hx => (hentries e k x hx).retired, hclaim, harchived⟩, hguard,
    fun e k n x hx hq => ?_, fun e k x hx => (hentries e k x hx).vacant⟩
  · obtain ⟨l, hl, -, hcarried⟩ := (hentries e k x hx).lane n hq
    exact ⟨l, hl, hcarried⟩
  · obtain ⟨l, hl, hheld, -⟩ := (hentries e k x hx).lane n hq
    exact ⟨l, hl, hheld⟩

/-- An entry `x` that lane `n` holds, as the call leaves it of the entry before. -/
def HeldSame (s : Routes E) (call : HubCall E) (e : E) (k n : Nat) (x : MemberSlot) : Prop :=
  ∃ y, s.entryAt e k = some y ∧ y.queue = some n ∧ x.lane = y.lane ∧
    y.counters.injectedPackets ≤ x.counters.injectedPackets ∧
    (x.remote = y.remote ∨ ∃ report, call = .report n report ∧ x.remote = some report)

/-- A slot's numbers change, and its lane stays. -/
theorem heldSame_modify {call : HubCall E} {e0 : E} {k0 : Nat} {f : MemberSlot → MemberSlot}
    (hf : ∀ y, (f y).queue = y.queue ∧ (f y).lane = y.lane ∧
      y.counters.injectedPackets ≤ (f y).counters.injectedPackets)
    (hremote : ∀ y, s.entryAt e0 k0 = some y → y.queue = some n →
      (f y).remote = y.remote ∨ ∃ report, call = .report n report ∧ (f y).remote = some report)
    (hx : (s.withClaim e0 fun c => c.modify k0 f).entryAt e k = some x) (hq : x.queue = some n) :
    s.HeldSame call e k n x := by
  rw [entryAt_withClaim] at hx
  split at hx
  case isTrue heq =>
    obtain ⟨y, hy, rfl⟩ := Option.map_eq_some_iff.mp hx
    obtain ⟨rfl, rfl⟩ := heq
    obtain ⟨hqueue, hlane, hinjected⟩ := hf y
    rw [hqueue] at hq
    exact ⟨y, hy, hq, hlane, hinjected, hremote y hy hq⟩
  case isFalse => exact ⟨x, hx, hq, rfl, Nat.le_refl _, .inl rfl⟩

namespace Inv

theorem entry (h : s.Inv) (hx : s.entryAt e k = some x) : s.EntryRight e k x where
  lane n hq := by
    obtain ⟨l, hl, hheld⟩ := h.holds e k n x hx hq
    obtain ⟨l', hl', hcarried⟩ := h.own.counters e k n x hx hq
    rw [hl] at hl'
    cases hl'
    exact ⟨l, hl, hheld, hcarried⟩
  remote n report := h.own.remote e k n x report hx
  retired := h.own.slotRetired e k x hx
  vacant := h.vacant e k x hx

/-- A lane holds one slot. -/
theorem holder_inj (h : s.Inv) (hk : s.holder e k = some n) (hk' : s.holder e' k' = some n) :
    e' = e ∧ k' = k := by
  obtain ⟨x, hx, hq⟩ := entryAt_of_holder hk
  obtain ⟨x', hx', hq'⟩ := entryAt_of_holder hk'
  obtain ⟨l, hl, -, rfl, rfl, -⟩ := h.holds e k n x hx hq
  obtain ⟨l', hl', -, rfl, rfl, -⟩ := h.holds _ _ n x' hx' hq'
  rw [hl] at hl'
  cases hl'
  exact ⟨rfl, rfl⟩

/-- **A slot's numbers change**: what is counted is credited to the lane that holds it, and what is
kept of the peer's is about that lane. -/
theorem changed (h : s.Inv) (e : E) (k : Nat) {f : MemberSlot → MemberSlot}
    {g : LaneCounters → LaneCounters} (more : List (Nat × RemoteLane))
    (hf : ∀ x, (f x).queue = x.queue ∧ (f x).lane = x.lane ∧ (f x).retired = x.retired)
    (hcounters : ∀ x, s.entryAt e k = some x → x.queue.isSome = true →
      (f x).counters = g x.counters)
    (hremote : ∀ x n report, s.entryAt e k = some x → x.queue = some n →
      (f x).remote = some report → (n, report) ∈ s.reports ++ more) :
    Inv { (s.withClaim e fun c => c.modify k f).credit (s.holder e k) g with
      reports := s.reports ++ more } := by
  let s1 := s.withClaim e fun c => c.modify k f
  let s' : Routes E := { s1.credit (s.holder e k) g with reports := s.reports ++ more }
  change s'.Inv
  have htable : s'.table = s1.table := table_credit ..
  have hentry : ∀ e' k', s'.entryAt e' k' =
      if e' = e ∧ k' = k then (s.entryAt e k).map f else s.entryAt e' k' := fun e' k' =>
    (entryAt_congr htable e' k').trans (s.entryAt_withClaim e k f e' k')
  have hholder : ∀ e' k', s'.holder e' k' = s.holder e' k' := by
    intro e' k'
    rw [holder, holder, hentry]
    split
    case isTrue heq =>
      obtain ⟨rfl, rfl⟩ := heq
      cases s.entryAt e' k' with
      | none => rfl
      | some x => exact (hf x).1
    case isFalse => rfl
  have hlanes : ∀ m : Nat, s'.lanes[m]? = s.lanes[m]?.map fun l =>
      if s.holder e k = some m then { l with carried := g l.carried } else l := by
    intro m
    rw [← s.lanes_withClaim e fun c => c.modify k f]
    exact s1.getElem?_credit (s.holder e k) g m
  have hother : ∀ (m : Nat) l, s.lanes[m]? = some l → s.holder e k ≠ some m →
      s'.lanes[m]? = some l := by
    intro m l hl hne
    rw [hlanes, hl, Option.map_some, if_neg hne]
  have hlive : ∀ (m : Nat) l', s'.lanes[m]? = some l' → ∃ l, s.lanes[m]? = some l ∧
      l'.live = l.live ∧ l'.endpoint = l.endpoint ∧ l'.slot = l.slot := by
    intro m l' hl'
    rw [hlanes] at hl'
    obtain ⟨l, hl, rfl⟩ := Option.map_eq_some_iff.mp hl'
    refine ⟨l, hl, ?_⟩
    split <;> exact ⟨rfl, rfl, rfl⟩
  have hdead : ∀ l ∈ s.lanes, l.live = false → l ∈ s'.lanes := by
    intro l hl hd
    obtain ⟨m, hm⟩ := List.getElem?_of_mem hl
    refine List.mem_of_getElem? (hother m l hm fun hk => ?_)
    obtain ⟨x, hx, hq⟩ := entryAt_of_holder hk
    obtain ⟨l1, hl1, hl1live, -⟩ := h.holds e k m x hx hq
    rw [hm] at hl1
    cases hl1
    rw [hd] at hl1live
    cases hl1live
  have hreports : ∀ y ∈ s.reports, y ∈ s'.reports := fun y hy => List.mem_append_left _ hy
  refine inv_of_entries ?_ ?_ ?_ ?_
  · intro e' k' x' hx'
    rw [hentry] at hx'
    split at hx'
    case isTrue heq =>
      obtain ⟨x, hx, rfl⟩ := Option.map_eq_some_iff.mp hx'
      obtain ⟨rfl, rfl⟩ := heq
      have hright := h.entry hx
      obtain ⟨hqueue, hlane, hretired⟩ := hf x
      refine ⟨fun n hq => ?_, fun n report hq => hremote x n report hx (hqueue ▸ hq),
        fun r hr => (hright.retired r (hretired ▸ hr)).mono hdead, fun hq => ?_⟩
      · rw [hqueue] at hq
        obtain ⟨l, hl, hheld, hc⟩ := hright.lane n hq
        refine ⟨{ l with carried := g l.carried }, ?_, hlane ▸ hheld, ?_⟩
        · rw [hlanes, hl, Option.map_some, if_pos ((holder_eq hx).trans hq)]
        · rw [hcounters x hx (by rw [hq]; rfl), hc]
      · rw [hlane]
        exact hright.vacant (hqueue ▸ hq)
    case isFalse hne =>
      refine (h.entry hx').mono (fun n l hq hl => hother n l hl fun hk => ?_) hreports hdead
      exact hne (h.holder_inj hk ((holder_eq hx').trans hq))
  · intro e' c hc r hr
    rw [htable, s.lookup_withClaim] at hc
    split at hc
    case isTrue heq =>
      obtain ⟨c0, hc0, rfl⟩ := Option.map_eq_some_iff.mp hc
      exact (h.own.claimRetired e' c0 (heq ▸ hc0) r hr).mono hdead
    case isFalse => exact (h.own.claimRetired e' c hc r hr).mono hdead
  · have harchive : s'.archive = s.archive := (archive_credit ..).trans (s.archive_withClaim ..)
    rw [harchive]
    exact fun r hr => (h.own.archived r hr).mono hdead
  · intro m l' hl' hl'live
    obtain ⟨l, hl, hlive', hendpoint, hslot⟩ := hlive m l' hl'
    rw [hholder, hendpoint, hslot]
    exact h.guard m l hl (hlive' ▸ hl'live)

/-- An entry after a lane joined: the slot it took has nothing else of any lane. -/
theorem entryAt_join (h : s.Inv) {id : Option Nat} {carrier : Option Pool.Carrier} {now : Nat}
    (hok : s.keepsApart (.join e id carrier now) = true)
    (hx : (s.join e id carrier now).entryAt e' k' = some x) :
    ((e' = e ∧ k' = (s.claimOf e now).freeSlot) ∧ x.queue = some s.lanes.length ∧
      x.lane = (s.claimOf e now).laneKey id ∧ x.counters = {} ∧ x.remote = none ∧
      ∀ r ∈ x.retired, s.Recorded e r) ∨ s.entryAt e' k' = some x ∨ x = .new := by
  let c := s.claimOf e now
  let x0 := c.slots[c.freeSlot]?.getD .new
  -- the slot that is taken has no lane, no numbers and no report
  obtain ⟨hlane, hcounters, hremote, hretired⟩ : x0.lane = none ∧ x0.counters = {} ∧
      x0.remote = none ∧ ∀ r ∈ x0.retired, s.Recorded e r := by
    cases hx : c.slots[c.freeSlot]? with
    | none =>
      have hblank : x0 = .new := by simp only [x0, hx, Option.getD_none]
      rw [hblank]
      exact ⟨rfl, rfl, rfl, nofun⟩
    | some x =>
      have hsame : x0 = x := by simp only [x0, hx, Option.getD_some]
      rw [hsame]
      rcases s.entryAt_of_claimOf hx with hx' | rfl
      · have hrec := s.nothing_on_record hok hx
        exact ⟨h.vacant e _ x hx' (c.queue_freeSlot hx), hrec.1, hrec.2,
          h.own.slotRetired e _ x hx'⟩
      · exact ⟨rfl, rfl, rfl, nofun⟩
  change ({ s with table := s.table.insert e (c.place s.lanes.length id carrier).1 } :
    Routes E).entryAt e' k' = some x at hx
  rw [entryAt_insert, c.getElem?_place] at hx
  split at hx
  case isTrue he =>
    split at hx
    case isTrue hk =>
      cases hx
      refine .inl ⟨⟨he, hk⟩, rfl, rfl, ?_⟩
      change (x0.hold s.lanes.length (c.laneKey id) carrier).counters = {} ∧
        (x0.hold s.lanes.length (c.laneKey id) carrier).remote = none ∧
        ∀ r ∈ (x0.hold s.lanes.length (c.laneKey id) carrier).retired, s.Recorded e r
      simp only [MemberSlot.hold, hlane]
      exact ⟨hcounters, hremote, hretired⟩
    case isFalse => exact .inr (he ▸ s.entryAt_of_claimOf hx)
  case isFalse => exact .inr (.inl hx)

/-- A lane joins in a slot that has nothing on record. -/
theorem joined (h : s.Inv) (e : E) (id : Option Nat) (carrier : Option Pool.Carrier) (now : Nat)
    (hok : s.keepsApart (.join e id carrier now) = true) : (s.join e id carrier now).Inv := by
  let c := s.claimOf e now
  let l1 : PlacedLane E := ⟨e, id, c.freeSlot, true, {}⟩
  let s' : Routes E := s.join e id carrier now
  change s'.Inv
  have hentry : ∀ e' k', s'.entryAt e' k' =
      if e' = e then (c.place s.lanes.length id carrier).1.slots[k']? else s.entryAt e' k' :=
    fun e' k' => s.entryAt_insert e _ e' k'
  have hlanes : s'.lanes = s.lanes ++ [l1] := rfl
  have hold : ∀ (m : Nat) l, s.lanes[m]? = some l → s'.lanes[m]? = some l := by
    intro m l hl
    rw [hlanes, List.getElem?_append_left (List.getElem?_eq_some_iff.mp hl).1]
    exact hl
  have hlast : s'.lanes[s.lanes.length]? = some l1 := List.getElem?_concat_length
  have hdead : ∀ l ∈ s.lanes, l.live = false → l ∈ s'.lanes := fun l hl _ =>
    List.mem_append_left _ hl
  refine inv_of_entries ?_ ?_ (fun r hr => (h.own.archived r hr).mono hdead) ?_
  · intro e' k' x' hx'
    rcases h.entryAt_join hok hx' with
      ⟨⟨rfl, rfl⟩, hq, hlane, hcounters, hremote, hretired⟩ | hx | rfl
    · refine ⟨fun n hn => ?_, fun n report _ hr => ?_, fun r hr => (hretired r hr).mono hdead,
        fun hn => absurd (hq.symm.trans hn) nofun⟩
      · cases hq.symm.trans hn
        refine ⟨l1, hlast, ⟨rfl, rfl, rfl, ?_⟩, hcounters⟩
        rw [hlane]
        cases id <;> rfl
      · exact absurd (hremote.symm.trans hr) nofun
    · exact (h.entry hx).mono (fun n l _ hl => hold n l hl) (fun y hy => hy) hdead
    · exact s'.entryRight_new e' k'
  · intro e' c' hc' r hr
    change (s.table.insert e _).lookup e' = some c' at hc'
    rw [Table.lookup_insert_eq] at hc'
    split at hc'
    case isTrue he =>
      cases hc'
      rw [ClaimSlots.retired_place] at hr
      rw [he]
      exact (s.recorded_of_claimOf h.own.claimRetired hr).mono hdead
    case isFalse => exact (h.own.claimRetired e' c' hc' r hr).mono hdead
  · intro m l hl hlive
    rw [hlanes, List.getElem?_append] at hl
    split at hl
    case isTrue =>
      obtain ⟨x, hx, hq⟩ := entryAt_of_holder (h.guard m l hl hlive)
      rw [holder, hentry]
      split
      case isTrue he =>
        have hslot : c.slots[l.slot]? = some x := s.claimOf_of_entryAt now (he ▸ hx)
        rw [c.getElem?_place]
        split
        case isTrue hk =>
          rw [hk] at hslot
          rw [c.queue_freeSlot hslot] at hq
          cases hq
        case isFalse => rw [hslot]; exact hq
      case isFalse => rw [hx]; exact hq
    case isFalse hge =>
      rw [List.getElem?_singleton] at hl
      split at hl
      case isTrue hz =>
        cases hl
        have hm : m = s.lanes.length := by omega
        rw [holder, hentry, if_pos rfl, c.getElem?_place, if_pos rfl, hm]
        rfl
      case isFalse => cases hl

/-- A lane leaves, and its numbers are kept under its name. -/
theorem vacated (h : s.Inv) (hl : s.lanes[n]? = some l) (hlive : l.live = true) :
    Inv { s.vacate l.endpoint l.slot with lanes := s.lanes.set n { l with live := false } } := by
  let s' : Routes E :=
    { s.vacate l.endpoint l.slot with lanes := s.lanes.set n { l with live := false } }
  change s'.Inv
  obtain ⟨y, hy, hq⟩ := entryAt_of_holder (h.guard n l hl hlive)
  obtain ⟨c, hc, hslot⟩ := Option.bind_eq_some_iff.mp hy
  obtain ⟨l1, hl1, -, -, -, hid⟩ := h.holds _ _ n y hy hq
  rw [hl] at hl1
  cases hl1
  have hgone : ({ l with live := false } : PlacedLane E) ∈ s'.lanes :=
    List.mem_of_getElem? (List.getElem?_set_self (List.getElem?_eq_some_iff.mp hl).1)
  have hother : ∀ (m : Nat) x, s.lanes[m]? = some x → m ≠ n → s'.lanes[m]? = some x := by
    intro m x hx hne
    change (s.lanes.set n _)[m]? = some x
    rw [List.getElem?_set_ne hne.symm]
    exact hx
  have hdead : ∀ x ∈ s.lanes, x.live = false → x ∈ s'.lanes := by
    intro x hx hd
    obtain ⟨m, hm⟩ := List.getElem?_of_mem hx
    refine List.mem_of_getElem? (hother m x hm ?_)
    rintro rfl
    rw [hl] at hm
    cases hm
    exact absurd (hd.symm.trans hlive) Bool.false_ne_true
  -- the record that is made of the lane
  have hmade : ∀ r : RetiredLane, y.lane = some r.lane → r.counters = y.counters →
      s'.Recorded l.endpoint r := by
    intro r hlane hcounters
    obtain ⟨l2, hl2, hcarried⟩ := h.own.counters _ _ n y hy hq
    rw [hl] at hl2
    cases hl2
    refine ⟨_, hgone, rfl, rfl, ?_, hcounters.trans hcarried⟩
    rw [hid, hlane]
    rfl
  have hrecorded : ∀ r ∈ (c.vacate l.slot).retired, s'.Recorded l.endpoint r := by
    intro r hr
    rcases c.mem_retired_vacate hr with hmem | ⟨x, hx, hlane, hcounters⟩
    · exact (h.own.claimRetired _ c hc r hmem).mono hdead
    · rw [hslot] at hx
      cases hx
      exact hmade r hlane hcounters
  have hback : ∀ e' k' x', s'.entryAt e' k' = some x' →
      ((e' = l.endpoint ∧ k' = l.slot) ∧ x' = y.empty.forget) ∨
        (¬ (e' = l.endpoint ∧ k' = l.slot) ∧ s.entryAt e' k' = some x') := by
    intro e' k' x' hx'
    rcases s.entryAt_vacate hc hx' with ⟨hat, y', hy', rfl⟩ | hrest
    · rw [hy] at hy'
      cases hy'
      exact .inl ⟨hat, rfl⟩
    · exact .inr hrest
  have hne : ∀ e' k' m, ¬ (e' = l.endpoint ∧ k' = l.slot) → s.holder e' k' = some m → m ≠ n := by
    rintro e' k' m hat hm rfl
    exact hat (h.holder_inj (h.guard m l hl hlive) hm)
  have hreports : s'.reports = s.reports := by
    rcases s.vacate_cases hc l.slot with ⟨-, heq⟩ | ⟨-, heq⟩ <;> simp only [s', heq]
  refine inv_of_entries ?_ ?_ ?_ ?_
  · intro e' k' x' hx'
    rcases hback e' k' x' hx' with ⟨⟨rfl, rfl⟩, rfl⟩ | ⟨hat, hx⟩
    · have hempty := ClaimSlots.queue_left y
      refine ⟨fun m hm => ?_, fun m report hm => ?_, fun r hr => ?_,
        fun _ => ClaimSlots.lane_left y⟩
      · exact absurd (hempty.symm.trans hm) nofun
      · exact absurd (hempty.symm.trans hm) nofun
      · rcases ClaimSlots.mem_retired_left hr with hmem | ⟨hlane, hcounters⟩
        · exact (h.own.slotRetired _ _ y hy r hmem).mono hdead
        · exact hmade r hlane hcounters
    · refine (h.entry hx).mono (fun m x hm hmx => ?_) (fun z hz => hreports ▸ hz) hdead
      exact hother m x hmx (hne e' k' m hat ((holder_eq hx).trans hm))
  · intro e' c' hc' r hr
    rcases s.vacate_cases hc l.slot with ⟨-, heq⟩ | ⟨-, heq⟩
    · simp only [s', heq, Table.lookup_insert_eq] at hc'
      split at hc'
      case isTrue he =>
        cases hc'
        rw [he]
        exact hrecorded r hr
      case isFalse => exact (h.own.claimRetired e' c' hc' r hr).mono hdead
    · simp only [s', heq] at hc'
      exact (h.own.claimRetired e' c' (Table.lookup_of_erase hc').2 r hr).mono hdead
  · intro r hr
    rcases s.vacate_cases hc l.slot with ⟨-, heq⟩ | ⟨-, heq⟩
    · simp only [s', heq] at hr
      exact (h.own.archived r hr).mono hdead
    · simp only [s', heq] at hr
      rcases mem_archiveRecent hr with hmem | ⟨he, hmem⟩
      · exact (h.own.archived r hmem).mono hdead
      · rw [he]
        exact hrecorded r.2 hmem
  · intro m x hx hxlive
    have hmn : m ≠ n := by
      rintro rfl
      change (s.lanes.set m _)[m]? = some x at hx
      rw [List.getElem?_set_self (List.getElem?_eq_some_iff.mp hl).1] at hx
      cases hx
      cases hxlive
    change (s.lanes.set n _)[m]? = some x at hx
    rw [List.getElem?_set_ne hmn.symm] at hx
    have hguard := h.guard m x hx hxlive
    refine s.holder_vacate hc (fun hat => hmn ?_) hguard
    rw [hat.1, hat.2, h.guard n l hl hlive] at hguard
    exact (Option.some.inj hguard).symm

/-- A slot's counters change, and what is counted is credited to the lane that holds it. -/
theorem counted (h : s.Inv) (e : E) (k : Nat) {f : MemberSlot → MemberSlot}
    {g : LaneCounters → LaneCounters}
    (hf : ∀ x, (f x).queue = x.queue ∧ (f x).lane = x.lane ∧ (f x).retired = x.retired ∧
      (f x).remote = x.remote)
    (hcounters : ∀ x, s.entryAt e k = some x → x.queue.isSome = true →
      (f x).counters = g x.counters) :
    ((s.withClaim e fun c => c.modify k f).credit (s.holder e k) g).Inv := by
  have hchanged := h.changed e k (g := g) [] (fun x => ⟨(hf x).1, (hf x).2.1, (hf x).2.2.1⟩)
    hcounters fun x n report hx hq hr => by
      rw [List.append_nil]
      exact h.own.remote e k n x report hx hq ((hf x).2.2.2 ▸ hr)
  have hreports : ((s.withClaim e fun c => c.modify k f).credit (s.holder e k) g).reports =
      s.reports := by
    rw [reports_credit, reports_withClaim]
  rw [List.append_nil, ← hreports] at hchanged
  exact hchanged

/-- A batch is counted for the lane that holds the slot. -/
theorem flushed (h : s.Inv) (e : E) (k : Nat) (batch : Batch) (takes : Bool) :
    (s.flush e k batch takes).Inv := by
  unfold flush
  split
  case isTrue => exact h
  case isFalse =>
    refine h.counted e k (fun x => ?_) (fun x _ hq => ?_)
    · unfold MemberSlot.flush
      dsimp only
      split <;> exact ⟨rfl, rfl, rfl, rfl⟩
    · unfold MemberSlot.flush LaneCounters.batch
      obtain ⟨n, hn⟩ := Option.isSome_iff_exists.mp hq
      rw [hn]
      cases takes <;> rfl

/-- Injected packets are counted for the lane whose task injected them. -/
theorem injected (h : s.Inv) (hl : s.lanes[n]? = some l) (hlive : l.live = true)
    (packets bytes : Nat) : (s.countInjected n l packets bytes).Inv := by
  unfold countInjected
  split
  case isTrue => exact h
  case isFalse =>
    rw [← h.guard n l hl hlive]
    exact h.counted l.endpoint l.slot (fun x => ⟨rfl, rfl, rfl, rfl⟩) (fun x _ _ => rfl)

/-- A report is read, and finds the lane it is about, or none. -/
theorem reported (h : s.Inv) {lane : Nat} (report : RemoteLane)
    (hfinds : ∀ c k, s.table.lookup e = some c → c.slotOf lane = some k →
      s.holder e k = some n) :
    Inv { s.withClaim e fun c => c.noteRemote lane report with
      reports := s.reports ++ [(n, report)] } := by
  have hself : ∀ (k : Nat) (f : MemberSlot → MemberSlot),
      (∀ x, (f x).queue = x.queue ∧ (f x).lane = x.lane ∧ (f x).retired = x.retired ∧
        (f x).counters = x.counters) →
      (∀ x m r, s.entryAt e k = some x → x.queue = some m → (f x).remote = some r →
        (m, r) ∈ s.reports ++ [(n, report)]) →
      Inv { s.withClaim e fun c => c.modify k f with reports := s.reports ++ [(n, report)] } := by
    intro k f hf hr
    have hchanged := h.changed e k (g := fun c => c) [(n, report)]
      (fun x => ⟨(hf x).1, (hf x).2.1, (hf x).2.2.1⟩) (fun x _ _ => (hf x).2.2.2) hr
    rwa [credit_self] at hchanged
  have hnothing : Inv { s.withClaim e fun c => c with reports := s.reports ++ [(n, report)] } := by
    have hsame := hself 0 id (fun x => ⟨rfl, rfl, rfl, rfl⟩) fun x m r hx hq hr =>
      List.mem_append_left _ (h.own.remote e 0 m x r hx hq hr)
    simpa only [ClaimSlots.modify_self] using hsame
  cases hc : s.table.lookup e with
  | none =>
    rw [withClaim_of_none hc] at hnothing ⊢
    exact hnothing
  | some c =>
    cases hk : c.slotOf lane with
    | none =>
      rw [withClaim_congr (g := fun c => c) hc (by rw [ClaimSlots.noteRemote, hk])]
      exact hnothing
    | some k =>
      rw [withClaim_congr (g := fun c => c.modify k fun x => x.noteRemote report) hc
        (by rw [ClaimSlots.noteRemote, hk])]
      refine hself k _ (fun x => ?_) (fun x m r hx hq hr => ?_)
      · unfold MemberSlot.noteRemote
        split <;> exact ⟨rfl, rfl, rfl, rfl⟩
      · unfold MemberSlot.noteRemote at hr
        split at hr
        case isTrue =>
          cases hr
          have hm := hfinds c k hc hk
          rw [holder_eq hx, hq] at hm
          cases hm
          exact List.mem_append_right _ (List.mem_singleton_self _)
        case isFalse => exact List.mem_append_left _ (h.own.remote e k m x r hx hq hr)

/-- **One call** that keeps the lanes apart. -/
theorem step {call : HubCall E} (h : s.Inv) (hok : s.keepsApart call = true)
    (hs : s.step call = some s') : s'.Inv := by
  cases call with
  | join e id carrier now =>
    cases hs
    exact h.joined e id carrier now hok
  | vacate n =>
    simp only [Routes.step] at hs
    split at hs
    case h_1 l hl =>
      split at hs
      case isTrue hlive =>
        cases hs
        exact h.vacated hl hlive
      case isFalse => cases hs
    case h_2 => cases hs
  | flush e k batch takes =>
    cases hs
    exact h.flushed e k batch takes
  | inject n packets bytes =>
    simp only [Routes.step] at hs
    split at hs
    case h_1 l hl =>
      split at hs
      case isTrue hlive =>
        cases hs
        exact h.injected hl hlive packets bytes
      case isFalse => cases hs
    case h_2 => cases hs
  | report n report =>
    simp only [Routes.step] at hs
    split at hs
    case h_1 l hl =>
      obtain ⟨id, hid, rfl⟩ := Option.map_eq_some_iff.mp hs
      refine h.reported report fun c k hc hk => ?_
      rw [keepsApart, hl, Option.all_some, hid, Option.all_some, hc, Option.all_some, hk,
        Option.all_some, decide_eq_true_eq] at hok
      exact hok
    case h_2 => cases hs

/-- **What a call leaves in a held slot**: the lane that held it, with counters that only grow and
with a report about it if one was read; or the lane that joined, with nothing on record. -/
theorem held_step {call : HubCall E} (h : s.Inv) (hok : s.keepsApart call = true)
    (hs : s.step call = some s') (hx : s'.entryAt e k = some x) (hq : x.queue = some n) :
    s.HeldSame call e k n x ∨
      ∃ id carrier now, call = .join e id carrier now ∧ n = s.lanes.length ∧
        x.lane.map LaneKey.id = id ∧ x.counters = {} ∧ x.remote = none := by
  have hsame : s.entryAt e k = some x → s.HeldSame call e k n x := fun hx =>
    ⟨x, hx, hq, rfl, Nat.le_refl _, .inl rfl⟩
  cases call with
  | join e0 id carrier now =>
    cases hs
    rcases h.entryAt_join hok hx with ⟨⟨rfl, -⟩, hq', hlane, hcounters, hremote, -⟩ | hx | rfl
    · cases hq'.symm.trans hq
      refine .inr ⟨id, carrier, now, rfl, rfl, ?_, hcounters, hremote⟩
      rw [hlane]
      cases id <;> rfl
    · exact .inl (hsame hx)
    · cases hq
  | vacate m =>
    simp only [Routes.step] at hs
    split at hs
    case h_1 l hl =>
      split at hs
      case isTrue hlive =>
        cases hs
        obtain ⟨y, hy, -⟩ := entryAt_of_holder (h.guard m l hl hlive)
        obtain ⟨c, hc, -⟩ := Option.bind_eq_some_iff.mp hy
        rcases s.entryAt_vacate hc hx with ⟨-, y', -, rfl⟩ | ⟨-, hx⟩
        · exact absurd ((ClaimSlots.queue_left y').symm.trans hq) nofun
        · exact .inl (hsame hx)
      case isFalse => cases hs
    case h_2 => cases hs
  | flush e0 k0 batch takes =>
    cases hs
    unfold flush at hx
    split at hx
    case isTrue => exact .inl (hsame hx)
    case isFalse =>
      rw [entryAt_congr (table_credit ..)] at hx
      refine .inl (heldSame_modify (fun y => ?_) (fun y _ _ => .inl ?_) hx hq)
      · unfold MemberSlot.flush LaneCounters.refuse
        split
        · exact ⟨rfl, rfl, Nat.le_refl _⟩
        · refine ⟨rfl, rfl, ?_⟩
          split <;> exact Nat.le_refl _
      · unfold MemberSlot.flush
        split <;> rfl
  | inject m packets bytes =>
    simp only [Routes.step] at hs
    split at hs
    case h_1 l hl =>
      split at hs
      case isTrue hlive =>
        cases hs
        unfold countInjected at hx
        split at hx
        case isTrue => exact .inl (hsame hx)
        case isFalse =>
          rw [entryAt_congr (table_credit ..)] at hx
          exact .inl (heldSame_modify (f := fun y => y.countInjected packets bytes)
            (fun y => ⟨rfl, rfl, Nat.le_add_right _ _⟩) (fun y _ _ => .inl rfl) hx hq)
      case isFalse => cases hs
    case h_2 => cases hs
  | report m report =>
    simp only [Routes.step] at hs
    split at hs
    case h_1 l hl =>
      obtain ⟨lane, hlane, rfl⟩ := Option.map_eq_some_iff.mp hs
      cases hc : s.table.lookup l.endpoint with
      | none =>
        rw [withClaim_of_none hc] at hx
        exact .inl (hsame hx)
      | some c =>
        cases hk : c.slotOf lane with
        | none =>
          rw [withClaim_congr (g := fun c => c.modify 0 id) hc
            (by rw [ClaimSlots.noteRemote, hk, ClaimSlots.modify_self])] at hx
          exact .inl (heldSame_modify (fun y => ⟨rfl, rfl, Nat.le_refl _⟩) (fun y _ _ => .inl rfl)
            hx hq)
        | some k0 =>
          rw [withClaim_congr (g := fun c => c.modify k0 fun y => y.noteRemote report) hc
            (by rw [ClaimSlots.noteRemote, hk])] at hx
          refine .inl (heldSame_modify (fun y => ?_) (fun y hy hn => ?_) hx hq)
          · unfold MemberSlot.noteRemote
            split <;> exact ⟨rfl, rfl, Nat.le_refl _⟩
          · rw [keepsApart, hl, Option.all_some, hlane, Option.all_some, hc, Option.all_some, hk,
              Option.all_some, decide_eq_true_eq, holder_eq hy, hn] at hok
            cases hok
            unfold MemberSlot.noteRemote
            split
            · exact .inr ⟨report, rfl, rfl⟩
            · exact .inl rfl
    case h_2 => cases hs

end Inv

end Routes

/-- No lane is forgotten. -/
theorem Routes.length_lanes_step {E : Type} [DecidableEq E] {s s' : Routes E} {call : HubCall E}
    (hs : s.step call = some s') : s.lanes.length ≤ s'.lanes.length := by
  have hcredit : ∀ (s : Routes E) (o : Option Nat) (g : LaneCounters → LaneCounters),
      (s.credit o g).lanes.length = s.lanes.length := by
    intro s o g
    cases o with
    | none => rfl
    | some n => exact List.length_modify ..
  cases call with
  | join e id carrier now =>
    cases hs
    exact (List.length_append ..).symm ▸ Nat.le_add_right _ _
  | vacate n =>
    simp only [Routes.step] at hs
    split at hs
    case h_1 l hl =>
      split at hs
      case isTrue =>
        cases hs
        exact (List.length_set ..).ge
      case isFalse => cases hs
    case h_2 => cases hs
  | flush e k batch takes =>
    cases hs
    unfold Routes.flush
    split
    case isTrue => exact Nat.le_refl _
    case isFalse => rw [hcredit, Routes.lanes_withClaim]
  | inject n packets bytes =>
    simp only [Routes.step] at hs
    split at hs
    case h_1 l hl =>
      split at hs
      case isTrue =>
        cases hs
        unfold Routes.countInjected
        split
        case isTrue => exact Nat.le_refl _
        case isFalse => rw [hcredit, Routes.lanes_withClaim]
      case isFalse => cases hs
    case h_2 => cases hs
  | report n report =>
    simp only [Routes.step] at hs
    split at hs
    case h_1 l hl =>
      obtain ⟨lane, -, rfl⟩ := Option.map_eq_some_iff.mp hs
      exact (congrArg List.length (s.lanes_withClaim ..)).ge
    case h_2 => cases hs

theorem inv_of_reach {E : Type} [DecidableEq E] {s : Routes E}
    (h : ((hubCalls E).restrict fun s call => s.keepsApart call = true).Reach s) : s.Inv := by
  refine h.invariant (P := Routes.Inv) ?_ ?_
  · rintro s rfl
    exact Routes.inv_of_entries (fun _ _ _ hx => nomatch hx) (fun _ _ hc => nomatch hc) nofun nofun
  · rintro s call s' hinv ⟨hok, hs⟩
    exact hinv.step hok hs

/-! ## 5. What keeps the lanes apart -/

namespace Routes

variable {E : Type} [DecidableEq E] {s s' : Routes E} {e : E} {k n : Nat} {x : MemberSlot}
  {l : PlacedLane E}

/-- Whether the call is an orderly one: a lane joins with an id that no lane of its claim had, no
batch meets an empty slot, and no lane goes while a report about it stands. -/
def orderly (s : Routes E) : HubCall E → Bool
  | .join e id _ _ => id.isSome && s.lanes.all fun l => l.endpoint ≠ e || l.id ≠ id
  | .vacate n => s.lanes[n]?.all fun l => (s.entryAt l.endpoint l.slot).all fun x =>
      x.remote.isNone
  | .flush e k _ _ => (s.entryAt e k).all fun x => x.queue.isSome
  | _ => true

/-- **What orderly calls keep**: an empty slot has nothing on record, and the lanes of a claim have
ids of their own. -/
structure Tidy (s : Routes E) : Prop where
  vacant : ∀ (e : E) (k : Nat) x, s.entryAt e k = some x → x.queue = none →
    x.counters = {} ∧ x.remote = none
  named : ∀ l ∈ s.lanes, l.id.isSome = true
  distinct : ∀ (n m : Nat) l l', s.lanes[n]? = some l → s.lanes[m]? = some l' →
    l.endpoint = l'.endpoint → l.id = l'.id → n = m

namespace Tidy

/-- **An orderly call keeps the lanes apart.** -/
theorem keepsApart {call : HubCall E} (h : s.Tidy) (hinv : s.Inv) (hok : s.orderly call = true) :
    s.keepsApart call = true := by
  cases call with
  | join e id carrier now =>
    unfold Routes.keepsApart
    refine (Option.all_eq_true ..).mpr fun c hc => (Option.all_eq_true ..).mpr fun x hx => ?_
    have hentry : s.entryAt e c.freeSlot = some x := by
      rw [entryAt, hc]
      exact hx
    obtain ⟨hcounters, hremote⟩ := h.vacant e c.freeSlot x hentry (c.queue_freeSlot hx)
    rw [hcounters, hremote]
    rfl
  | report n report =>
    unfold Routes.keepsApart
    refine (Option.all_eq_true ..).mpr fun l hl => (Option.all_eq_true ..).mpr fun lane hlane => ?_
    refine (Option.all_eq_true ..).mpr fun c hc => (Option.all_eq_true ..).mpr fun k hk => ?_
    obtain ⟨hlt, hnamed, -⟩ := List.findIdx?_eq_some_iff_getElem.mp hk
    obtain ⟨key, hkey, hid⟩ := (Option.any_eq_true ..).mp hnamed
    have hentry : s.entryAt l.endpoint k = some c.slots[k] := by
      rw [entryAt, hc]
      exact List.getElem?_eq_getElem hlt
    -- a slot with a lane's name is held, by a lane of the claim with that id
    cases hq : c.slots[k].queue with
    | none =>
      have hnone := hinv.vacant l.endpoint k _ hentry hq
      rw [hkey] at hnone
      cases hnone
    | some m =>
      obtain ⟨l', hl', -, hendpoint, -, hid'⟩ := hinv.holds l.endpoint k m _ hentry hq
      rw [hkey, Option.map_some, of_decide_eq_true hid, ← hlane] at hid'
      rw [h.distinct n m l l' hl hl' hendpoint.symm hid'.symm, holder_eq hentry, hq]
      exact decide_eq_true rfl
  | vacate n => rfl
  | flush e k batch takes => rfl
  | inject n packets bytes => rfl

/-- The lanes are the same ones, and what is empty was so before. -/
theorem congr (h : s.Tidy)
    (hentry : ∀ e k x, s'.entryAt e k = some x → x.queue = none → s.entryAt e k = some x)
    (hlanes : ∀ (n : Nat) l', s'.lanes[n]? = some l' →
      ∃ l, s.lanes[n]? = some l ∧ l'.endpoint = l.endpoint ∧ l'.id = l.id) : s'.Tidy where
  vacant e k x hx hq := h.vacant e k x (hentry e k x hx hq) hq
  named l' hl' := by
    obtain ⟨n, hn⟩ := List.getElem?_of_mem hl'
    obtain ⟨l, hl, -, hid⟩ := hlanes n l' hn
    rw [hid]
    exact h.named l (List.mem_of_getElem? hl)
  distinct n m l1 l2 h1 h2 hendpoint hid := by
    obtain ⟨l, hl, he, hi⟩ := hlanes n l1 h1
    obtain ⟨l', hl', he', hi'⟩ := hlanes m l2 h2
    exact h.distinct n m l l' hl hl' (by rw [← he, ← he', hendpoint]) (by rw [← hi, ← hi', hid])

/-- The numbers of a slot change, unless it is empty. -/
theorem modified (h : s.Tidy) (o : Option Nat) {f : MemberSlot → MemberSlot}
    (g : LaneCounters → LaneCounters) (hf : ∀ x, (f x).queue = x.queue)
    (hempty : ∀ x, s.entryAt e k = some x → x.queue = none → f x = x) :
    ((s.withClaim e fun c => c.modify k f).credit o g).Tidy := by
  refine h.congr (fun e' k' x hx hq => ?_) (fun m l' hl' => ?_)
  · rw [entryAt_congr (table_credit ..), entryAt_withClaim] at hx
    split at hx
    case isTrue heq =>
      obtain ⟨y, hy, rfl⟩ := Option.map_eq_some_iff.mp hx
      rw [hf] at hq
      rw [heq.1, heq.2, hempty y hy hq]
      exact hy
    case isFalse => exact hx
  · rw [getElem?_credit, lanes_withClaim] at hl'
    obtain ⟨l, hl, rfl⟩ := Option.map_eq_some_iff.mp hl'
    refine ⟨l, hl, ?_⟩
    split <;> exact ⟨rfl, rfl⟩

/-- A lane joins with an id of its own. -/
theorem joined (h : s.Tidy) (hinv : s.Inv) {id : Option Nat} {carrier : Option Pool.Carrier}
    {now : Nat} (hok : s.orderly (.join e id carrier now) = true) :
    Tidy (s.join e id carrier now) := by
  have hapart := h.keepsApart hinv hok
  simp only [orderly, Bool.and_eq_true, List.all_eq_true, Bool.or_eq_true, decide_eq_true_eq] at hok
  obtain ⟨hid, hfresh⟩ := hok
  refine ⟨fun e' k' x hx hq => ?_, fun l hl => ?_, fun n m l l' hl hl' hendpoint heq => ?_⟩
  · rcases hinv.entryAt_join hapart hx with ⟨-, hq', -⟩ | hx | rfl
    · exact absurd (hq'.symm.trans hq) nofun
    · exact h.vacant e' k' x hx hq
    · exact ⟨rfl, rfl⟩
  · rcases List.mem_append.mp hl with hl | hl
    · exact h.named l hl
    · rw [List.mem_singleton.mp hl]
      exact hid
  · -- the lane that joined differs from the ones before
    have hback : ∀ (j : Nat) y, (s.join e id carrier now).lanes[j]? = some y →
        s.lanes[j]? = some y ∨ (j = s.lanes.length ∧ y.endpoint = e ∧ y.id = id) := by
      intro j y hy
      change (s.lanes ++ [_])[j]? = some y at hy
      rw [List.getElem?_append] at hy
      split at hy
      case isTrue => exact .inl hy
      case isFalse hge =>
        rw [List.getElem?_singleton] at hy
        split at hy
        case isTrue =>
          cases hy
          exact .inr ⟨by omega, rfl, rfl⟩
        case isFalse => cases hy
    have hnew : ∀ (j : Nat) y, s.lanes[j]? = some y → y.endpoint = e → y.id = id → False := by
      intro j y hy he hi
      rcases hfresh y (List.mem_of_getElem? hy) with hne | hne
      · exact hne he
      · exact hne hi
    rcases hback n l hl with hn | ⟨rfl, he, hi⟩
    · rcases hback m l' hl' with hm | ⟨rfl, he', hi'⟩
      · exact h.distinct n m l l' hn hm hendpoint heq
      · exact (hnew n l hn (hendpoint.trans he') (heq.trans hi')).elim
    · rcases hback m l' hl' with hm | ⟨rfl, -, -⟩
      · exact (hnew m l' hm (hendpoint.symm.trans he) (heq.symm.trans hi)).elim
      · rfl

/-- A lane goes of which no report stands. -/
theorem vacated (h : s.Tidy) (hinv : s.Inv) (hl : s.lanes[n]? = some l) (hlive : l.live = true)
    (hok : s.orderly (.vacate n) = true) :
    Tidy { s.vacate l.endpoint l.slot with lanes := s.lanes.set n { l with live := false } } := by
  obtain ⟨y, hy, hq⟩ := entryAt_of_holder (hinv.guard n l hl hlive)
  obtain ⟨c, hc, -⟩ := Option.bind_eq_some_iff.mp hy
  obtain ⟨l', hl', -, -, -, hid⟩ := hinv.holds _ _ n y hy hq
  rw [hl] at hl'
  cases hl'
  have hremote : y.remote = none := by
    rw [orderly, hl, Option.all_some, hy, Option.all_some, Option.isNone_iff_eq_none] at hok
    exact hok
  obtain ⟨key, hkey⟩ : ∃ key, y.lane = some key := by
    have hnamed := h.named l (List.mem_of_getElem? hl)
    rw [hid, Option.isSome_map] at hnamed
    exact Option.isSome_iff_exists.mp hnamed
  have hlanes : ∀ (m : Nat) x, (s.lanes.set n { l with live := false })[m]? = some x →
      ∃ z, s.lanes[m]? = some z ∧ x.endpoint = z.endpoint ∧ x.id = z.id := by
    intro m x hx
    rw [List.getElem?_set] at hx
    split at hx
    case isTrue heq =>
      subst heq
      split at hx
      case isTrue =>
        cases hx
        exact ⟨l, hl, rfl, rfl⟩
      case isFalse => cases hx
    case isFalse => exact ⟨x, hx, rfl, rfl⟩
  have hrest : Tidy { s with lanes := s.lanes.set n { l with live := false } } :=
    h.congr (fun _ _ _ hx _ => hx) hlanes
  refine ⟨fun e' k' x hx hxq => ?_, hrest.named, hrest.distinct⟩
  rcases s.entryAt_vacate hc hx with ⟨-, y', hy', rfl⟩ | ⟨-, hx⟩
  · rw [hy] at hy'
    cases hy'
    have hlane : y.empty.lane = some key := hkey
    have hforget : y.empty.forget.counters = {} ∧ y.empty.forget.remote = y.remote := by
      rw [MemberSlot.forget, hlane]
      exact ⟨rfl, rfl⟩
    exact ⟨hforget.1, hforget.2.trans hremote⟩
  · exact h.vacant e' k' x hx hxq

/-- **One orderly call.** -/
theorem step {call : HubCall E} (h : s.Tidy) (hinv : s.Inv) (hok : s.orderly call = true)
    (hs : s.step call = some s') : s'.Tidy := by
  have hapart := h.keepsApart hinv hok
  cases call with
  | join e id carrier now =>
    cases hs
    exact h.joined hinv hok
  | vacate n =>
    simp only [Routes.step] at hs
    split at hs
    case h_1 l hl =>
      split at hs
      case isTrue hlive =>
        cases hs
        exact h.vacated hinv hl hlive hok
      case isFalse => cases hs
    case h_2 => cases hs
  | flush e k batch takes =>
    cases hs
    unfold flush
    split
    case isTrue => exact h
    case isFalse =>
      refine h.modified _ (f := fun x => x.flush batch.count batch.bytes takes) _ (fun x => ?_)
        (fun x hx hq => ?_)
      · unfold MemberSlot.flush
        dsimp only
        split <;> rfl
      · rw [orderly, hx, Option.all_some, hq] at hok
        cases hok
  | inject n packets bytes =>
    simp only [Routes.step] at hs
    split at hs
    case h_1 l hl =>
      split at hs
      case isTrue hlive =>
        cases hs
        unfold countInjected
        split
        case isTrue => exact h
        case isFalse =>
          refine h.modified _ (f := fun x => x.countInjected packets bytes) _ (fun x => rfl)
            (fun x hx hq => ?_)
          have hheld := hinv.guard n l hl hlive
          rw [holder_eq hx, hq] at hheld
          cases hheld
      case isFalse => cases hs
    case h_2 => cases hs
  | report n report =>
    simp only [Routes.step] at hs
    split at hs
    case h_1 l hl =>
      obtain ⟨lane, hlane, rfl⟩ := Option.map_eq_some_iff.mp hs
      have hmodified : (s.withClaim l.endpoint fun c => c.noteRemote lane report).Tidy := by
        cases hc : s.table.lookup l.endpoint with
        | none =>
          rw [withClaim_of_none hc]
          exact h
        | some c =>
          cases hk : c.slotOf lane with
          | none =>
            rw [withClaim_congr (g := fun c => c.modify 0 id) hc
              (by rw [ClaimSlots.noteRemote, hk, ClaimSlots.modify_self])]
            exact h.modified none id (fun _ => rfl) (fun _ _ _ => rfl)
          | some k =>
            rw [withClaim_congr (g := fun c => c.modify k fun x => x.noteRemote report) hc
              (by rw [ClaimSlots.noteRemote, hk])]
            refine h.modified none id (fun x => ?_) (fun x hx hq => ?_)
            · unfold MemberSlot.noteRemote
              split <;> rfl
            · rw [Routes.keepsApart, hl, Option.all_some, hlane, Option.all_some, hc,
                Option.all_some, hk, Option.all_some, decide_eq_true_eq, holder_eq hx, hq] at hapart
              cases hapart
      exact hmodified.congr (fun _ _ _ hx _ => hx) fun m l' hl' => ⟨l', hl', rfl, rfl⟩
    case h_2 => cases hs

end Tidy

end Routes

/-- **Orderly runs keep the lanes apart**: where every lane has an id that no other lane of its
claim has, no batch meets an empty slot and no lane goes while a report about it stands, every call
finds the slots and the lanes as `evidence_own` wants them. -/
theorem reach_keepsApart {E : Type} [DecidableEq E] {s : Routes E}
    (h : ((hubCalls E).restrict fun s call => s.orderly call = true).Reach s) :
    ((hubCalls E).restrict fun s call => s.keepsApart call = true).Reach s ∧ s.Tidy := by
  refine h.invariant (P := fun s => ((hubCalls E).restrict fun s call =>
    s.keepsApart call = true).Reach s ∧ s.Tidy) ?_ ?_
  · rintro s rfl
    refine ⟨.init rfl, ⟨?_, ?_, ?_⟩⟩
    · intro e k x hx
      cases hx
    · intro l hl
      cases hl
    · intro n m l l' hl
      cases hl
  · rintro s call s' ⟨hreach, htidy⟩ ⟨hok, hs⟩
    have hinv := inv_of_reach hreach
    exact ⟨hreach.step ⟨htidy.keepsApart hinv hok, hs⟩, htidy.step hinv hok hs⟩

/-- **The evidence is the lanes' own**, in every run in which a lane is only placed in a slot that
has nothing on record, and a report only finds the lane it is about. -/
theorem evidence_own {E : Type} [DecidableEq E] {s : Routes E}
    (h : ((hubCalls E).restrict fun s call => s.keepsApart call = true).Reach s) :
    s.EvidenceOwn :=
  (inv_of_reach h).own

/-- Two lanes of a claim carry packets, and one is reported of; the other leaves, and a third lane
takes its slot. -/
def thirdLane : List (HubCall Nat) :=
  [.join 5 (some 1) (some .kcp) 0, .join 5 (some 2) (some .tcp) 0, .flush 5 0 ⟨900, 1, 3⟩ true,
    .inject 1 2 80, .report 1 ⟨10, 4, 0⟩, .vacate 0, .join 5 (some 3) (some .tcp) 9,
    .flush 5 0 ⟨100, 1, 1⟩ true]

theorem evidence_own_thirdLane :
    ∃ s, ((hubCalls Nat).restrict fun s call => s.keepsApart call = true).Reach s ∧
      s.holder 5 0 = some 2 ∧
      (s.entryAt 5 0).map (fun x => (x.counters.enqueuedPackets, x.retired.map fun r =>
        (r.lane.id, r.counters.enqueuedPackets))) = some (1, [(1, 3)]) ∧
      s.EvidenceOwn := by
  have hrun : (Lts.runWith Routes.step Routes.keepsApart .new thirdLane).any (fun s =>
      s.holder 5 0 = some 2 ∧ (s.entryAt 5 0).map (fun x => (x.counters.enqueuedPackets,
        x.retired.map fun r => (r.lane.id, r.counters.enqueuedPackets))) =
          some (1, [(1, 3)])) = true := by
    decide +kernel
  obtain ⟨s, hreach, hs⟩ := Lts.Reach.exists_runWith (T := hubCalls Nat)
    (C := fun s call => s.keepsApart call = true) (fun _ _ _ h => h) (fun _ _ h => h) rfl hrun
  obtain ⟨hheld, hentry⟩ := of_decide_eq_true hs
  exact ⟨s, hreach, hheld, hentry, evidence_own hreach⟩

/-- A lane is reported of and leaves; the next lane of the claim takes its slot. -/
def replaced : List (HubCall Nat) :=
  [.join 5 (some 1) (some .kcp) 0, .join 5 (some 2) (some .kcp) 0, .report 0 ⟨10, 4, 0⟩, .vacate 0,
    .join 5 (some 3) (some .tcp) 9]

/-- **A report that is inherited**: the new lane, on another carrier, has refused four packets
before it carried any, and the report is not about it. -/
theorem report_inherited :
    ∃ s x, (hubCalls Nat).Reach s ∧ s.entryAt 5 0 = some x ∧ x.queue = some 2 ∧
      x.remote = some ⟨10, 4, 0⟩ ∧ s.reports = [(0, ⟨10, 4, 0⟩)] ∧ ¬ s.EvidenceOwn := by
  have hrun : (Lts.runWith Routes.step (fun _ _ => true) .new replaced).any (fun s =>
      (s.entryAt 5 0).any (fun x => x.queue = some 2 ∧ x.remote = some ⟨10, 4, 0⟩) ∧
        s.reports = [(0, ⟨10, 4, 0⟩)]) = true := by
    decide +kernel
  obtain ⟨s, hreach, hs⟩ := Lts.Reach.exists_run (T := hubCalls Nat) (fun _ _ _ h => h) rfl hrun
  obtain ⟨hany, hreports⟩ := of_decide_eq_true hs
  obtain ⟨x, hx, hentry⟩ := (Option.any_eq_true ..).mp hany
  obtain ⟨hqueue, hremote⟩ := of_decide_eq_true hentry
  refine ⟨s, x, hreach, hx, hqueue, hremote, hreports, fun hown => ?_⟩
  have hmem := hown.remote 5 0 2 x _ hx hqueue hremote
  rw [hreports, List.mem_singleton] at hmem
  cases hmem

end Molehill.Transparent.Slots
