/-
# Where the flows of a claim are placed

`ClaimSlots::route` keeps a flow in the slot it was placed in, and places a new one in the least
loaded of the usable slots; `sweep_if_due` forgets the flows that fell silent.  In every run the
counters of the slots are those of the table, the table keeps its bound, and a new flow is placed
in a usable slot if there is one (`Sound`).

A flow that finds the table full goes where its hash says, and is not remembered.  The table's doc
says that it keeps that slot for as long as the width of the set does.  It keeps it while the table
stays full: the first packet that finds room again is a new flow's packet, and goes to the least
loaded slot (`flow_moved`).  In every run without such a packet, all packets of a flow are sent to
one slot while the set of the usable slots stays what it is (`flows_placed`).
-/
import Mathlib.Data.List.Basic
import Molehill.Lib.Tally
import Molehill.Lib.Transition
import Molehill.Transparent.Slots

namespace Molehill.Transparent.Slots

open Lib

/-! ## 1. The flow table under the operations -/

/-- A slot without its counter of flows. -/
def MemberSlot.uncounted (x : MemberSlot) : MemberSlot := { x with flows := 0 }

namespace ClaimSlots

variable (c : ClaimSlots)

/-- A change of one entry that leaves some view of it alone. -/
theorem map_modify {β : Type} (g : MemberSlot → β) {f : MemberSlot → MemberSlot}
    (hg : ∀ x, g (f x) = g x) (slot : Nat) :
    (c.modify slot f).slots.map g = c.slots.map g := by
  refine List.ext_getElem? fun k => ?_
  rw [List.getElem?_map, List.getElem?_map, getElem?_modify]
  split
  case isTrue h =>
    rw [h, Option.map_map]
    congr 1
    funext x
    exact hg x
  case isFalse => rfl

theorem mem_liveSlots {slot : Nat} :
    slot ∈ c.liveSlots ↔ ∃ x, c.slots[slot]? = some x ∧ x.usable = true := by
  unfold liveSlots
  rw [List.mem_filter, List.mem_range, Option.any_eq_true]
  constructor
  · exact fun h => h.2
  · rintro ⟨x, hx, husable⟩
    exact ⟨(List.getElem?_eq_some_iff.mp hx).1, x, hx, husable⟩

/-- The usable slots are a matter of the slots' lanes and their marks. -/
theorem liveSlots_congr {c c' : ClaimSlots}
    (h : c'.slots.map MemberSlot.usable = c.slots.map MemberSlot.usable) :
    c'.liveSlots = c.liveSlots := by
  have hlen := congrArg List.length h
  rw [List.length_map, List.length_map] at hlen
  unfold liveSlots
  rw [hlen]
  refine List.filter_congr fun k _ => ?_
  have hk : (c'.slots.map MemberSlot.usable)[k]? = (c.slots.map MemberSlot.usable)[k]? := by rw [h]
  rw [List.getElem?_map, List.getElem?_map] at hk
  cases hx : c'.slots[k]? with
  | none => rw [hx] at hk; rw [Option.map_eq_none_iff.mp hk.symm]
  | some x =>
    rw [hx] at hk
    obtain ⟨y, hy, hu⟩ := Option.map_eq_some_iff.mp hk.symm
    rw [hy, Option.any_some, Option.any_some, hu]

/-- How many flows the counter of a slot has. -/
def load (slot : Nat) : Nat := (c.slots[slot]?.map MemberSlot.flows).getD 0

/-- The flows that the table has in a slot. -/
def placed (slot : Nat) : Nat := c.flows.tally (fun e => some e.slot) slot

/-- The counters are the table's. -/
def Counted : Prop := ∀ slot, c.load slot = c.placed slot

theorem load_modify (slot : Nat) (f : MemberSlot → MemberSlot) (k : Nat) :
    (c.modify slot f).load k =
      if k = slot then (c.slots[slot]?.map fun x => (f x).flows).getD 0 else c.load k := by
  unfold load
  rw [getElem?_modify]
  split
  case isTrue => rw [Option.map_map]; rfl
  case isFalse => rfl

theorem lookup_drop (key : U64) (slot : Nat) (k : U64) :
    (c.drop key slot).flows.lookup k = if k = key then none else c.flows.lookup k :=
  Table.lookup_erase_eq ..

/-- A flow that is forgotten leaves its slot's counter. -/
theorem Counted.drop {c : ClaimSlots} (h : c.Counted) {key : U64} {e : FlowEntry}
    (he : c.flows.lookup key = some e) : (c.drop key e.slot).Counted := by
  intro k
  have herase := Table.tally_erase (fun e : FlowEntry => some e.slot) c.flows key k
  rw [he, Option.bind_some] at herase
  have hk := h k
  change ((({ c with flows := c.flows.erase key } : ClaimSlots).modify e.slot
    fun x => { x with flows := x.flows - 1 }).load k) = Table.tally _ (c.flows.erase key) k
  rw [load_modify]
  unfold placed at hk
  split
  case isTrue heq =>
    subst heq
    rw [unit, if_pos rfl] at herase
    unfold load at hk
    change ((c.slots[e.slot]?.map fun x => x.flows - 1).getD 0) = _
    cases hx : c.slots[e.slot]? with
    | none =>
      rw [hx] at hk
      simp only [Option.map_none, Option.getD_none] at hk ⊢
      omega
    | some x =>
      rw [hx] at hk
      simp only [Option.map_some, Option.getD_some] at hk ⊢
      omega
  case isFalse hne =>
    rw [unit, if_neg fun heq => hne (Option.some.inj heq).symm] at herase
    change c.load k = _
    omega

/-- **What a sweep forgets**, entry by entry. -/
theorem foldl_drop (stale : List (Sigma fun _ : U64 => FlowEntry)) :
    let c' := stale.foldl (fun c e => c.drop e.1 e.2.slot) c
    c'.slots.map MemberSlot.uncounted = c.slots.map MemberSlot.uncounted ∧
      (∀ k, c'.flows.lookup k = if k ∈ stale.map Sigma.fst then none else c.flows.lookup k) ∧
      ((stale.map Sigma.fst).Nodup → (∀ e ∈ stale, c.flows.lookup e.1 = some e.2) → c.Counted →
        c'.Counted) := by
  induction stale generalizing c with
  | nil => exact ⟨rfl, fun k => rfl, fun _ _ h => h⟩
  | cons e stale ih =>
    obtain ⟨hslots, hlookup, hcounted⟩ := ih (c.drop e.1 e.2.slot)
    have hone : (c.drop e.1 e.2.slot).slots.map MemberSlot.uncounted =
        c.slots.map MemberSlot.uncounted :=
      ({ c with flows := c.flows.erase e.1 } : ClaimSlots).map_modify MemberSlot.uncounted
        (f := fun x => { x with flows := x.flows - 1 }) (fun _ => rfl) e.2.slot
    refine ⟨hslots.trans hone, fun k => ?_, ?_⟩
    · refine (hlookup k).trans ?_
      rw [lookup_drop]
      simp only [List.map_cons, List.mem_cons]
      by_cases hk : k ∈ stale.map Sigma.fst
      · rw [if_pos hk, if_pos (.inr hk)]
      · by_cases heq : k = e.1
        · rw [if_neg hk, if_pos heq, if_pos (.inl heq)]
        · rw [if_neg hk, if_neg heq, if_neg fun h => h.elim heq hk]
    · intro hnodup hall hc
      rw [List.map_cons, List.nodup_cons] at hnodup
      refine hcounted hnodup.2 (fun e' he' => ?_) (hc.drop (hall e (List.mem_cons_self ..)))
      have hne : e'.1 ≠ e.1 := fun heq =>
        hnodup.1 (heq ▸ List.mem_map_of_mem (f := Sigma.fst) he')
      rw [lookup_drop, if_neg hne]
      exact hall e' (List.mem_cons_of_mem _ he')

theorem length_foldl_drop (stale : List (Sigma fun _ : U64 => FlowEntry)) :
    (stale.foldl (fun c e => c.drop e.1 e.2.slot) c).flows.entries.length ≤
      c.flows.entries.length := by
  induction stale generalizing c with
  | nil => exact Nat.le_refl _
  | cons e stale ih => exact (ih _).trans (Table.length_erase_le c.flows e.1)

theorem length_sweepIfDue (now : Nat) :
    (c.sweepIfDue now).flows.entries.length ≤ c.flows.entries.length := by
  unfold sweepIfDue
  split
  case isTrue => exact Nat.le_refl _
  case isFalse => exact ({ c with swept := now } : ClaimSlots).length_foldl_drop _

/-- Whether a sweep forgets the flow. -/
def stale (now : Nat) (e : FlowEntry) : Bool :=
  1000 ≤ now - c.swept && flowIdleEviction ≤ now - e.lastSeen

/-- **A sweep**: the silent flows are forgotten, and nothing else changes but the counters. -/
theorem sweepIfDue_spec (now : Nat) :
    (c.sweepIfDue now).slots.map MemberSlot.uncounted = c.slots.map MemberSlot.uncounted ∧
      (∀ k, (c.sweepIfDue now).flows.lookup k =
        (c.flows.lookup k).filter fun e => !c.stale now e) ∧
      (c.Counted → (c.sweepIfDue now).Counted) := by
  unfold sweepIfDue stale
  split
  case isTrue hlt =>
    refine ⟨rfl, fun k => ?_, id⟩
    have hdue : ¬ 1000 ≤ now - c.swept := Nat.not_le.mpr hlt
    simp only [hdue, decide_false, Bool.false_and, Bool.not_false]
    cases c.flows.lookup k <;> rfl
  case isFalse hge =>
    have hdue : 1000 ≤ now - c.swept := Nat.not_lt.mp hge
    let gone := c.flows.entries.filter fun e => flowIdleEviction ≤ now - e.2.lastSeen
    obtain ⟨hslots, hlookup, hcounted⟩ := ({ c with swept := now } : ClaimSlots).foldl_drop gone
    have hmem : ∀ k, k ∈ gone.map Sigma.fst ↔
        ∃ e, c.flows.lookup k = some e ∧ flowIdleEviction ≤ now - e.lastSeen := by
      intro k
      exact (Table.mem_keysWhere (p := fun e : FlowEntry =>
        flowIdleEviction ≤ now - e.lastSeen)).trans (by simp only [decide_eq_true_eq])
    refine ⟨hslots, fun k => (hlookup k).trans ?_, fun h => hcounted ?_ ?_ h⟩
    · simp only [hdue, decide_true, Bool.true_and]
      split
      case isTrue hk =>
        obtain ⟨e, he, hidle⟩ := (hmem k).mp hk
        rw [he, Option.filter_some, decide_eq_true hidle]
        rfl
      case isFalse hk =>
        cases he : c.flows.lookup k with
        | none => rfl
        | some e =>
          have hfresh : ¬ flowIdleEviction ≤ now - e.lastSeen := fun h =>
            hk ((hmem k).mpr ⟨e, he, h⟩)
          rw [Option.filter_some, decide_eq_false hfresh]
          rfl
    · exact c.flows.nodup_keysWhere fun e : FlowEntry => flowIdleEviction ≤ now - e.lastSeen
    · intro e he
      exact AList.mem_lookup_iff.mpr (List.mem_filter.mp he).1

theorem length_slots_sweepIfDue (now : Nat) : (c.sweepIfDue now).slots.length = c.slots.length := by
  have hlen := congrArg List.length (c.sweepIfDue_spec now).1
  rw [List.length_map, List.length_map] at hlen
  exact hlen

theorem liveSlots_of_uncounted {c c' : ClaimSlots}
    (h : c'.slots.map MemberSlot.uncounted = c.slots.map MemberSlot.uncounted) :
    c'.liveSlots = c.liveSlots := by
  refine liveSlots_congr ?_
  have husable : MemberSlot.usable = MemberSlot.usable ∘ MemberSlot.uncounted := rfl
  rw [husable, ← List.map_map, h, List.map_map]

/-! ### The choice of a slot -/

theorem leastLoaded_subset (live : List Nat) : c.leastLoaded live ⊆ live := by
  unfold leastLoaded
  dsimp only
  split
  case h_1 => exact List.filter_subset_self live
  case h_2 => exact List.nil_subset _

/-- Among slots there is a least loaded one. -/
theorem leastLoaded_ne_nil {live : List Nat} (hlive : ∀ k ∈ live, k < c.slots.length)
    (hne : live ≠ []) : c.leastLoaded live ≠ [] := by
  unfold leastLoaded
  dsimp only
  split
  case h_1 least hleast =>
    obtain ⟨k, hk, hload⟩ := List.mem_filterMap.mp (List.min?_mem hleast)
    obtain ⟨x, hx, rfl⟩ := Option.map_eq_some_iff.mp hload
    refine List.ne_nil_of_mem (a := k) (List.mem_filter.mpr ⟨hk, ?_⟩)
    rw [hx, Option.any_some, decide_eq_true rfl]
  case h_2 hnone =>
    obtain ⟨k, hk⟩ := List.exists_mem_of_ne_nil live hne
    obtain ⟨x, hx⟩ : ∃ x, c.slots[k]? = some x := ⟨_, List.getElem?_eq_getElem (hlive k hk)⟩
    have hmem : x.flows ∈ live.filterMap fun slot => c.slots[slot]?.map MemberSlot.flows :=
      List.mem_filterMap.mpr ⟨k, hk, by rw [hx]; rfl⟩
    rw [List.min?_eq_none_iff.mp hnone] at hmem
    cases hmem

theorem choose_mem {key : U64} {live : List Nat} {slot : Nat}
    (h : c.choose key live = some slot) : slot ∈ live := by
  have hmem := List.mem_of_getElem? h
  split at hmem
  case isTrue => exact hmem
  case isFalse => exact c.leastLoaded_subset live hmem

theorem choose_isSome (key : U64) {live : List Nat} (hlive : ∀ k ∈ live, k < c.slots.length)
    (hne : live ≠ []) : (c.choose key live).isSome = true := by
  have hsome : ∀ l : List Nat, l ≠ [] → l[Flow.slot key l.length]?.isSome = true := by
    intro l hl
    rw [List.getElem?_eq_getElem (Flow.slot_lt key (List.length_pos_iff.mpr hl))]
    rfl
  unfold choose
  dsimp only
  split
  case isTrue => exact hsome live hne
  case isFalse => exact hsome _ (c.leastLoaded_ne_nil hlive hne)

/-- Where there is only one usable slot, the load does not matter. -/
theorem choose_of_length_le_one {key : U64} {live : List Nat} {slot : Nat}
    (hone : live.length ≤ 1) (h : c.choose key live = some slot) :
    live[Flow.slot key live.length]? = some slot := by
  have hmem := c.choose_mem h
  have hlive : live = [slot] := by
    match live, hone, hmem with
    | [k], _, hmem => rw [List.mem_singleton.mp hmem]
  rw [hlive]
  rfl

/-! ### A packet of a flow -/

theorem Counted.track {c : ClaimSlots} (h : c.Counted) {key : U64} {slot : Nat} (now : Nat)
    (hkey : c.flows.lookup key = none) (hslot : slot < c.slots.length) :
    (c.track key slot now).Counted := by
  unfold ClaimSlots.track
  split
  case isFalse => exact h
  case isTrue =>
    intro k
    have hinsert := Table.tally_insert (fun e : FlowEntry => some e.slot) c.flows key ⟨slot, now⟩ k
    rw [hkey, Option.bind_none, unit_none, Int.sub_zero] at hinsert
    have hk := h k
    change ((({ c with flows := c.flows.insert key ⟨slot, now⟩ } : ClaimSlots).modify slot
      fun x => { x with flows := x.flows + 1 }).load k) = Table.tally _ (c.flows.insert key _) k
    rw [load_modify]
    unfold placed at hk
    split
    case isTrue heq =>
      subst heq
      rw [unit, if_pos rfl] at hinsert
      obtain ⟨x, hx⟩ : ∃ x, c.slots[k]? = some x := ⟨_, List.getElem?_eq_getElem hslot⟩
      unfold load at hk
      change ((c.slots[k]?.map fun x => x.flows + 1).getD 0) = _
      rw [hx] at hk ⊢
      simp only [Option.map_some, Option.getD_some] at hk ⊢
      omega
    case isFalse hne =>
      rw [unit, if_neg fun heq => hne (Option.some.inj heq).symm] at hinsert
      change c.load k = _
      omega

/-- A flow that is seen again keeps its slot. -/
theorem Counted.seen {c : ClaimSlots} (h : c.Counted) {key : U64} {e : FlowEntry} (now : Nat)
    (he : c.flows.lookup key = some e) :
    Counted { c with flows := c.flows.insert key { e with lastSeen := now } } := by
  intro k
  have hinsert := Table.tally_insert (fun e : FlowEntry => some e.slot) c.flows key
    { e with lastSeen := now } k
  rw [he, Option.bind_some, Int.sub_add_cancel] at hinsert
  have hk := h k
  unfold placed at hk
  change c.load k = Table.tally _ (c.flows.insert key _) k
  omega

/-- **What a packet meets**: its flow's entry; or a usable slot, chosen after the sweep and
remembered if there is room; or no usable slot. -/
theorem route_cases (key : U64) (now : Nat) :
    (∃ e, c.flows.lookup key = some e ∧ c.route key now =
      ({ c with flows := c.flows.insert key { e with lastSeen := now } }, some e.slot)) ∨
    (c.flows.lookup key = none ∧
      ((∃ slot ∈ c.liveSlots, (c.sweepIfDue now).choose key c.liveSlots = some slot ∧
          c.route key now = ((c.sweepIfDue now).track key slot now, some slot)) ∨
        (c.liveSlots = [] ∧ c.route key now = (c.sweepIfDue now, none)))) := by
  unfold route
  cases hkey : c.flows.lookup key with
  | some e => exact .inl ⟨e, rfl, rfl⟩
  | none =>
    refine .inr ⟨rfl, ?_⟩
    dsimp only
    cases hchoice : (c.sweepIfDue now).choose key c.liveSlots with
    | some slot => exact .inl ⟨slot, choose_mem _ hchoice, rfl, rfl⟩
    | none =>
      refine .inr ⟨?_, rfl⟩
      by_contra hne
      have hbound : ∀ k ∈ c.liveSlots, k < (c.sweepIfDue now).slots.length := by
        intro k hk
        obtain ⟨x, hx, -⟩ := c.mem_liveSlots.mp hk
        rw [c.length_slots_sweepIfDue]
        exact (List.getElem?_eq_some_iff.mp hx).1
      have hsome := (c.sweepIfDue now).choose_isSome key hbound hne
      rw [hchoice] at hsome
      cases hsome

/-! ### The lanes' operations -/

/-- The flows and the counters are left alone. -/
def SameFlows (c c' : ClaimSlots) : Prop := c'.flows = c.flows ∧ ∀ slot, c'.load slot = c.load slot

theorem SameFlows.counted {c c' : ClaimSlots} (h : SameFlows c c') (hc : c.Counted) :
    c'.Counted := by
  intro slot
  rw [placed, h.1, h.2]
  exact hc slot

theorem sameFlows_modify {f : MemberSlot → MemberSlot} (hf : ∀ x, (f x).flows = x.flows)
    (slot : Nat) : c.SameFlows (c.modify slot f) := by
  refine ⟨rfl, fun k => ?_⟩
  rw [load_modify]
  split
  case isTrue heq =>
    rw [heq, load]
    congr 2
    funext x
    exact hf x
  case isFalse => rfl

theorem sameFlows_vacate (slot : Nat) : c.SameFlows (c.vacate slot) := by
  refine ⟨?_, fun k => ?_⟩
  · unfold vacate forgetLane
    split <;> rfl
  · have hflows : ∀ x : MemberSlot, x.empty.forget.flows = x.flows := fun x => by
      unfold MemberSlot.forget
      split <;> rfl
    unfold load
    rw [getElem?_vacate]
    split
    case isTrue heq =>
      rw [heq, Option.map_map]
      congr 2
      funext x
      exact hflows x
    case isFalse => rfl

theorem sameFlows_place (queue : Nat) (lane : Option Nat) (carrier : Option Pool.Carrier) :
    c.SameFlows (c.place queue lane carrier).1 := by
  refine ⟨?_, fun k => ?_⟩
  · change c.widen.flows = c.flows
    unfold widen
    split <;> rfl
  · have hflows : ∀ x : MemberSlot, ∀ key, (x.hold queue key carrier).flows = x.flows :=
      fun x key => by
        unfold MemberSlot.hold
        split <;> rfl
    unfold load
    rw [getElem?_place]
    split
    case isTrue heq =>
      rw [heq, Option.map_some, Option.getD_some, hflows]
      cases c.slots[c.freeSlot]? <;> rfl
    case isFalse => rfl

end ClaimSlots

/-! ## 2. The runs of a claim -/

inductive ClaimCall
  | join (queue : Nat) (lane : Option Nat) (carrier : Option Pool.Carrier)
  | vacate (slot : Nat)
  | retire (slot : Nat)
  | peerDrain (slot now : Nat)
  | peerUndrain (slot : Nat)
  /-- A packet of the device's. -/
  | route (info : PacketInfo) (now : Nat)
  /-- A packet of the peer's. -/
  | touch (info : PacketInfo) (now : Nat)
  | sweep (now : Nat)

/-- A claim, and where its packets were sent since the set of the usable slots last changed.  What
was swept since is left out. -/
structure Placing where
  claim : ClaimSlots
  sent : List (U64 × Nat)

namespace Placing

/-- The claim changes: the flows it forgets, and all of them if the usable slots change, may be
placed anew. -/
def becomes (s : Placing) (c : ClaimSlots) : Placing :=
  ⟨c, if c.liveSlots = s.claim.liveSlots then
      s.sent.filter fun x => (s.claim.flows.lookup x.1).isNone || (c.flows.lookup x.1).isSome
    else []⟩

def step (s : Placing) : ClaimCall → Placing
  | .join queue lane carrier => s.becomes (s.claim.place queue lane carrier).1
  | .vacate slot => s.becomes (s.claim.vacate slot)
  | .retire slot => s.becomes (s.claim.retire slot).1
  | .peerDrain slot now => s.becomes (s.claim.peerDrain slot now).1
  | .peerUndrain slot => s.becomes (s.claim.peerUndrain slot)
  | .touch info now => s.becomes (s.claim.touch (Flow.key info) now)
  | .sweep now => s.becomes (s.claim.sweepIfDue now)
  | .route info now =>
    let answer := s.claim.route (Flow.key info) now
    let s := s.becomes answer.1
    match answer.2 with
    | some slot => { s with sent := s.sent ++ [(Flow.key info, slot)] }
    | none => s

/-- Whether the packet meets the rule its flow was placed by.  It does not if the flow was placed by
its hash, and the table has room now. -/
def keepsRule (s : Placing) : ClaimCall → Bool
  | .route info now =>
    (s.claim.flows.lookup (Flow.key info)).isSome || s.sent.all (fun x => x.1 ≠ Flow.key info) ||
      maxTrackedFlows ≤ (s.claim.sweepIfDue now).flows.entries.length ||
      s.claim.liveSlots.length ≤ 1
  | _ => true

end Placing

/-- The runs of a claim. -/
def placements : Lts Placing ClaimCall where
  init s := ∃ now, s = ⟨.new now, []⟩
  step s call s' := s' = s.step call

/-- **What holds of the table.** -/
structure ClaimSlots.Sound (c : ClaimSlots) : Prop where
  /-- A slot's counter is the number of the entries that name it. -/
  counted : ∀ (slot : Nat) x, c.slots[slot]? = some x →
    x.flows = c.flows.entries.countP fun e => e.2.slot = slot
  bounded : c.flows.entries.length ≤ maxTrackedFlows
  /-- A new flow is placed in a slot that has a lane and takes flows. -/
  usable : ∀ (key : U64) (now slot : Nat), c.flows.lookup key = none →
    (c.route key now).2 = some slot → ∃ x, c.slots[slot]? = some x ∧ x.usable = true
  /-- It is placed if there is one. -/
  answered : ∀ (key : U64) (now slot : Nat) x, c.slots[slot]? = some x → x.usable = true →
    (c.route key now).2.isSome = true

/-- **A flow has one lane**: all its packets went to one slot. -/
def Placing.Sticky (s : Placing) : Prop :=
  ∀ (key : U64) (slot slot' : Nat), (key, slot) ∈ s.sent → (key, slot') ∈ s.sent → slot = slot'

/-! ## 3. The table -/

theorem ClaimSlots.Sound.of_counted {c : ClaimSlots} (hcounted : c.Counted)
    (hbounded : c.flows.entries.length ≤ maxTrackedFlows) : c.Sound := by
  refine ⟨fun slot x hx => ?_, hbounded, fun key now slot hkey hroute => ?_,
    fun key now slot x hx husable => ?_⟩
  · have h := hcounted slot
    rw [ClaimSlots.load, hx] at h
    refine h.trans (List.countP_congr fun e _ => ?_)
    simp only [Option.some.injEq]
  · rcases c.route_cases key now with ⟨e, he, -⟩ | ⟨-, ⟨k, hk, -, heq⟩ | ⟨-, heq⟩⟩
    · rw [hkey] at he
      cases he
    · rw [heq] at hroute
      cases hroute
      exact c.mem_liveSlots.mp hk
    · rw [heq] at hroute
      cases hroute
  · rcases c.route_cases key now with ⟨e, -, heq⟩ | ⟨-, ⟨k, -, -, heq⟩ | ⟨hlive, -⟩⟩
    · rw [heq]
      rfl
    · rw [heq]
      rfl
    · have hmem := c.mem_liveSlots.mpr ⟨x, hx, husable⟩
      rw [hlive] at hmem
      cases hmem

/-- The counters are the table's, and the table keeps its bound. -/
def Tabled (c : ClaimSlots) : Prop := c.Counted ∧ c.flows.entries.length ≤ maxTrackedFlows

namespace Tabled

variable {c c' : ClaimSlots}

theorem same (h : Tabled c) (hsame : c.SameFlows c') : Tabled c' :=
  ⟨hsame.counted h.1, hsame.1 ▸ h.2⟩

theorem swept (h : Tabled c) (now : Nat) : Tabled (c.sweepIfDue now) :=
  ⟨(c.sweepIfDue_spec now).2.2 h.1, (c.length_sweepIfDue now).trans h.2⟩

theorem seen (h : Tabled c) {key : U64} {e : FlowEntry} (now : Nat)
    (he : c.flows.lookup key = some e) :
    Tabled { c with flows := c.flows.insert key { e with lastSeen := now } } := by
  refine ⟨h.1.seen now he, ?_⟩
  have hmem : key ∈ c.flows := AList.lookup_isSome.mp (by rw [he]; rfl)
  exact (Table.length_insert_of_mem hmem _).trans_le h.2

theorem tracked (h : Tabled c) {key : U64} {slot : Nat} (now : Nat)
    (hkey : c.flows.lookup key = none) (hslot : slot < c.slots.length) :
    Tabled (c.track key slot now) := by
  refine ⟨h.1.track now hkey hslot, ?_⟩
  unfold ClaimSlots.track
  split
  case isTrue hroom =>
    have hlen := Table.length_insert_of_notMem (AList.lookup_eq_none.mp hkey)
      (⟨slot, now⟩ : FlowEntry)
    exact hlen.trans_le hroom
  case isFalse => exact h.2

theorem routed (h : Tabled c) (key : U64) (now : Nat) : Tabled (c.route key now).1 := by
  rcases c.route_cases key now with ⟨e, he, heq⟩ | ⟨hkey, ⟨slot, hslot, -, heq⟩ | ⟨-, heq⟩⟩
  · rw [heq]
    exact h.seen now he
  · rw [heq]
    obtain ⟨x, hx, -⟩ := c.mem_liveSlots.mp hslot
    refine (h.swept now).tracked now ?_ ?_
    · rw [(c.sweepIfDue_spec now).2.1, hkey]
      rfl
    · rw [c.length_slots_sweepIfDue]
      exact (List.getElem?_eq_some_iff.mp hx).1
  · rw [heq]
    exact h.swept now

end Tabled

/-! ## 4. The packets of a flow -/

namespace ClaimSlots

variable (c : ClaimSlots)

theorem liveSlots_track (key : U64) (slot now : Nat) :
    (c.track key slot now).liveSlots = c.liveSlots := by
  unfold track
  split
  case isTrue =>
    exact liveSlots_congr (({ c with
      flows := c.flows.insert key ⟨slot, now⟩ } : ClaimSlots).map_modify MemberSlot.usable
        (f := fun x => { x with flows := x.flows + 1 }) (fun _ => rfl) slot)
  case isFalse => rfl

/-- The flow is in the table after it was placed, if the table had room. -/
theorem lookup_track (key : U64) (slot now : Nat) (k : U64) :
    (c.track key slot now).flows.lookup k =
      if k = key ∧ c.flows.entries.length < maxTrackedFlows then some ⟨slot, now⟩
      else c.flows.lookup k := by
  unfold track
  split
  case isTrue hroom =>
    refine (Table.lookup_insert_eq ..).trans ?_
    simp only [hroom, and_true]
  case isFalse hfull => rw [if_neg fun h => hfull h.2]

/-- Without room the hash decides. -/
theorem choose_of_full {key : U64} {live : List Nat}
    (hfull : maxTrackedFlows ≤ c.flows.entries.length) :
    c.choose key live = live[Flow.slot key live.length]? := by
  unfold choose
  rw [if_pos hfull]

end ClaimSlots

namespace Placing

variable {s : Placing} {c : ClaimSlots}

theorem mem_becomes {x : U64 × Nat} (h : x ∈ (s.becomes c).sent) :
    x ∈ s.sent ∧ c.liveSlots = s.claim.liveSlots ∧
      (s.claim.flows.lookup x.1 = none ∨ (c.flows.lookup x.1).isSome = true) := by
  unfold becomes at h
  dsimp only at h
  split at h
  case isTrue hlive =>
    obtain ⟨hmem, hkept⟩ := List.mem_filter.mp h
    rw [Bool.or_eq_true, Option.isNone_iff_eq_none] at hkept
    exact ⟨hmem, hlive, hkept⟩
  case isFalse => cases h

/-- **Where a flow's packets went**: to its slot in the table, or where its hash says. -/
structure Told (s : Placing) : Prop where
  tracked : ∀ (key : U64) (slot : Nat) e, (key, slot) ∈ s.sent →
    s.claim.flows.lookup key = some e → e.slot = slot
  hashed : ∀ (key : U64) (slot : Nat), (key, slot) ∈ s.sent → s.claim.flows.lookup key = none →
    s.claim.liveSlots[Flow.slot key s.claim.liveSlots.length]? = some slot

theorem Told.sticky (h : s.Told) : s.Sticky := by
  intro key slot slot' hs hs'
  cases he : s.claim.flows.lookup key with
  | some e => exact (h.tracked key slot e hs he).symm.trans (h.tracked key slot' e hs' he)
  | none =>
    have heq := h.hashed key slot hs he
    rw [h.hashed key slot' hs' he] at heq
    exact (Option.some.inj heq).symm

/-- No flow is placed. -/
theorem Told.becomes (h : s.Told)
    (hold : ∀ (key : U64) e, c.flows.lookup key = some e →
      ∃ e', s.claim.flows.lookup key = some e' ∧ e'.slot = e.slot) : (s.becomes c).Told := by
  refine ⟨fun key slot e hmem he => ?_, fun key slot hmem he => ?_⟩
  · obtain ⟨e', he', hslot⟩ := hold key e he
    exact hslot.symm.trans (h.tracked key slot e' (mem_becomes hmem).1 he')
  · obtain ⟨hsent, hlive, hkept⟩ := mem_becomes hmem
    change c.flows.lookup key = none at he
    change c.liveSlots[Flow.slot key c.liveSlots.length]? = some slot
    rw [hlive]
    refine h.hashed key slot hsent (hkept.resolve_right ?_)
    rw [he]
    exact Bool.false_ne_true

/-- Nothing happens to the table. -/
theorem Told.same (h : s.Told) (hsame : s.claim.SameFlows c) : (s.becomes c).Told :=
  h.becomes fun _ e he => ⟨e, hsame.1 ▸ he, rfl⟩

/-- A flow in the table is seen again. -/
theorem Told.seen (h : s.Told) {key : U64} {e : FlowEntry} (now : Nat)
    (he : s.claim.flows.lookup key = some e) :
    (s.becomes { s.claim with
      flows := s.claim.flows.insert key { e with lastSeen := now } }).Told := by
  refine h.becomes fun k x hx => ?_
  rw [Table.lookup_insert_eq] at hx
  split at hx
  case isTrue heq =>
    cases hx
    exact ⟨e, heq ▸ he, rfl⟩
  case isFalse => exact ⟨x, hx, rfl⟩

theorem Told.swept (h : s.Told) (now : Nat) : (s.becomes (s.claim.sweepIfDue now)).Told := by
  refine h.becomes fun k x hx => ?_
  rw [(s.claim.sweepIfDue_spec now).2.1, Option.filter_eq_some_iff] at hx
  exact ⟨x, hx.1, rfl⟩

/-- A packet was sent to the slot that its flow has. -/
theorem Told.sentTo (h : s.Told) {key : U64} {slot : Nat}
    (htracked : ∀ e, s.claim.flows.lookup key = some e → e.slot = slot)
    (hhashed : s.claim.flows.lookup key = none →
      s.claim.liveSlots[Flow.slot key s.claim.liveSlots.length]? = some slot) :
    Told { s with sent := s.sent ++ [(key, slot)] } := by
  refine ⟨fun k a e hmem he => ?_, fun k a hmem he => ?_⟩
  · rcases List.mem_append.mp hmem with hmem | hmem
    · exact h.tracked k a e hmem he
    · cases List.mem_singleton.mp hmem
      exact htracked e he
  · rcases List.mem_append.mp hmem with hmem | hmem
    · exact h.hashed k a hmem he
    · cases List.mem_singleton.mp hmem
      exact hhashed he

/-- **A new flow is placed**, where its hash says if it was placed by its hash before. -/
theorem Told.placed (h : s.Told) {info : PacketInfo} {now slot : Nat}
    (hkey : s.claim.flows.lookup (Flow.key info) = none)
    (hchoice : (s.claim.sweepIfDue now).choose (Flow.key info) s.claim.liveSlots = some slot)
    (hrule : s.keepsRule (.route info now) = true) :
    (s.becomes ((s.claim.sweepIfDue now).track (Flow.key info) slot now)).Told := by
  let c' := s.claim.sweepIfDue now
  have hlive : (c'.track (Flow.key info) slot now).liveSlots = s.claim.liveSlots :=
    (c'.liveSlots_track ..).trans
      (ClaimSlots.liveSlots_of_uncounted (s.claim.sweepIfDue_spec now).1)
  -- the flow goes to the slot it was sent to before, if it is remembered now
  have hsame : ∀ a, (Flow.key info, a) ∈ s.sent → c'.flows.entries.length < maxTrackedFlows →
      slot = a := by
    intro a hmem hroom
    have hone : s.claim.liveSlots.length ≤ 1 := by
      rw [keepsRule, Bool.or_eq_true, Bool.or_eq_true, Bool.or_eq_true, hkey, Option.isSome_none,
        List.all_eq_true, decide_eq_true_eq, decide_eq_true_eq] at hrule
      rcases hrule with ((hno | hno) | hno) | hone
      · exact absurd hno Bool.false_ne_true
      · exact absurd rfl (of_decide_eq_true (hno _ hmem))
      · exact absurd hroom (Nat.not_lt.mpr hno)
      · exact hone
    have heq := h.hashed _ a hmem hkey
    rw [c'.choose_of_length_le_one hone hchoice] at heq
    exact Option.some.inj heq
  refine ⟨fun k a e hmem he => ?_, fun k a hmem he => ?_⟩
  · have hsent := (mem_becomes hmem).1
    change (c'.track (Flow.key info) slot now).flows.lookup k = some e at he
    rw [ClaimSlots.lookup_track] at he
    split at he
    case isTrue hnew =>
      cases he
      exact hsame a (hnew.1 ▸ hsent) hnew.2
    case isFalse =>
      rw [(s.claim.sweepIfDue_spec now).2.1, Option.filter_eq_some_iff] at he
      exact h.tracked k a e hsent he.1
  · obtain ⟨hsent, -, hkept⟩ := mem_becomes hmem
    change (c'.track (Flow.key info) slot now).flows.lookup k = none at he
    change (c'.track (Flow.key info) slot now).liveSlots[Flow.slot k
      (c'.track (Flow.key info) slot now).liveSlots.length]? = some a
    rw [hlive]
    refine h.hashed k a hsent (hkept.resolve_right ?_)
    rw [he]
    exact Bool.false_ne_true

/-- A packet of the device's, after which its flow has a slot. -/
theorem Told.routed (h : s.Told) {info : PacketInfo} {now : Nat}
    (hrule : s.keepsRule (.route info now) = true) : (s.step (.route info now)).Told := by
  unfold step
  dsimp only
  rcases s.claim.route_cases (Flow.key info) now with ⟨e, he, heq⟩ |
    ⟨hkey, ⟨slot, -, hchoice, heq⟩ | ⟨-, heq⟩⟩
  · rw [heq]
    have hentry : (s.claim.flows.insert (Flow.key info) { e with lastSeen := now }).lookup
        (Flow.key info) = some { e with lastSeen := now } := AList.lookup_insert _
    refine (h.seen now he).sentTo (fun e' he' => ?_) fun hnone => ?_
    · cases hentry.symm.trans he'
      rfl
    · cases hentry.symm.trans hnone
  · rw [heq]
    have hlookup := (s.claim.sweepIfDue now).lookup_track (Flow.key info) slot now (Flow.key info)
    have hgone : (s.claim.sweepIfDue now).flows.lookup (Flow.key info) = none := by
      rw [(s.claim.sweepIfDue_spec now).2.1, hkey]
      rfl
    refine (h.placed hkey hchoice hrule).sentTo (fun e' he' => ?_) fun hnone => ?_
    · have he' := hlookup.symm.trans he'
      split at he'
      case isTrue =>
        cases he'
        rfl
      case isFalse =>
        rw [hgone] at he'
        cases he'
    · have hnone := hlookup.symm.trans hnone
      split at hnone
      case isTrue => cases hnone
      case isFalse hroom =>
        have hfull := Nat.not_lt.mp fun hlt => hroom ⟨rfl, hlt⟩
        rw [ClaimSlots.choose_of_full _ hfull] at hchoice
        change ((s.claim.sweepIfDue now).track (Flow.key info) slot now).liveSlots[Flow.slot _
          ((s.claim.sweepIfDue now).track (Flow.key info) slot now).liveSlots.length]? = some slot
        rw [ClaimSlots.liveSlots_track,
          ClaimSlots.liveSlots_of_uncounted (s.claim.sweepIfDue_spec now).1]
        exact hchoice
  · rw [heq]
    exact h.swept now

/-- **What a call does** to the table: nothing; or a flow is seen again; or the silent flows go; or
a packet is routed. -/
theorem step_cases (s : Placing) (call : ClaimCall) :
    (∃ c, s.claim.SameFlows c ∧ s.step call = s.becomes c) ∨
      (∃ key e now, s.claim.flows.lookup key = some e ∧ s.step call = s.becomes { s.claim with
        flows := s.claim.flows.insert key { e with lastSeen := now } }) ∨
      (∃ now, s.step call = s.becomes (s.claim.sweepIfDue now)) ∨
      ∃ info now, call = .route info now := by
  cases call with
  | join queue lane carrier => exact .inl ⟨_, s.claim.sameFlows_place queue lane carrier, rfl⟩
  | vacate slot => exact .inl ⟨_, s.claim.sameFlows_vacate slot, rfl⟩
  | retire slot =>
    exact .inl ⟨_, s.claim.sameFlows_modify (f := fun x => { x with draining := true })
      (fun _ => rfl) slot, rfl⟩
  | peerDrain slot now =>
    exact .inl ⟨_, s.claim.sameFlows_modify (f := fun x => { x with peerDraining := true })
      (fun _ => rfl) slot, rfl⟩
  | peerUndrain slot =>
    exact .inl ⟨_, s.claim.sameFlows_modify (f := fun x => { x with peerDraining := false })
      (fun _ => rfl) slot, rfl⟩
  | route info now => exact .inr (.inr (.inr ⟨info, now, rfl⟩))
  | touch info now =>
    cases he : s.claim.flows.lookup (Flow.key info) with
    | some e =>
      refine .inr (.inl ⟨Flow.key info, e, now, he, ?_⟩)
      rw [step, ClaimSlots.touch, he]
    | none =>
      refine .inl ⟨s.claim, ⟨rfl, fun _ => rfl⟩, ?_⟩
      rw [step, ClaimSlots.touch, he]
  | sweep now => exact .inr (.inr (.inl ⟨now, rfl⟩))

/-- **One call** keeps what was told. -/
theorem Told.step {call : ClaimCall} (h : s.Told) (hrule : s.keepsRule call = true) :
    (s.step call).Told := by
  rcases s.step_cases call with ⟨c, hsame, heq⟩ | ⟨key, e, now, he, heq⟩ | ⟨now, heq⟩ |
    ⟨info, now, rfl⟩
  · rw [heq]
    exact h.same hsame
  · rw [heq]
    exact h.seen now he
  · rw [heq]
    exact h.swept now
  · exact h.routed hrule

/-- The table after a call. -/
theorem tabled_step (call : ClaimCall) (h : Tabled s.claim) : Tabled (s.step call).claim := by
  rcases s.step_cases call with ⟨c, hsame, heq⟩ | ⟨key, e, now, he, heq⟩ | ⟨now, heq⟩ |
    ⟨info, now, rfl⟩
  · rw [heq]
    exact h.same hsame
  · rw [heq]
    exact h.seen now he
  · rw [heq]
    exact h.swept now
  · have hclaim : (s.step (.route info now)).claim = (s.claim.route (Flow.key info) now).1 := by
      unfold Placing.step
      dsimp only
      split <;> rfl
    rw [hclaim]
    exact h.routed (Flow.key info) now

theorem tabled_new (now : Nat) : Tabled (.new now) := by
  refine ⟨fun slot => ?_, Nat.zero_le _⟩
  cases slot <;> rfl

theorem tabled_of_reach (h : placements.Reach s) : Tabled s.claim := by
  refine h.invariant (P := fun s => Tabled s.claim) ?_ ?_
  · rintro s ⟨now, rfl⟩
    exact tabled_new now
  · rintro s call s' hinv rfl
    exact tabled_step call hinv

end Placing

/-- **Where the flows are placed.**  In every run the table is sound: the counters are its own, it
keeps its bound, and a new flow is placed in a usable slot if there is one.  In every run without
a packet that finds room for a flow which was placed by its hash, all packets of a flow are sent to
one slot while the usable slots stay what they are and the flow is not swept. -/
theorem flows_placed (s : Placing) :
    (placements.Reach s → s.claim.Sound) ∧
      ((placements.restrict fun s call => s.keepsRule call = true).Reach s → s.Sticky) := by
  constructor
  · intro h
    have htabled := Placing.tabled_of_reach h
    exact .of_counted htabled.1 htabled.2
  · intro h
    refine Placing.Told.sticky (h.invariant ?_ ?_)
    · rintro s ⟨now, rfl⟩
      exact ⟨nofun, nofun⟩
    · rintro s call s' hinv ⟨hrule, rfl⟩
      exact hinv.step hrule

/-- Two lanes; two flows, and the first one again; a lane drains and goes, and another joins. -/
def twoFlows : List ClaimCall :=
  [.join 0 (some 1) (some .kcp), .join 1 (some 2) (some .tcp),
    .route ⟨17, .v4 0x0a000002, .v4 0x0a000001, some 1024, some 53⟩ 5,
    .route ⟨17, .v4 0x0a000002, .v4 0x0a000001, some 1025, some 53⟩ 6,
    .touch ⟨17, .v4 0x0a000001, .v4 0x0a000002, some 53, some 1025⟩ 7, .peerDrain 0 8, .vacate 0,
    .join 2 (some 3) (some .tcp),
    .route ⟨17, .v4 0x0a000002, .v4 0x0a000001, some 1025, some 53⟩ 9,
    .route ⟨17, .v4 0x0a000001, .v4 0x0a000002, some 53, some 1025⟩ 10]

theorem flows_placed_twoFlows :
    ∃ s, (placements.restrict fun s call => s.keepsRule call = true).Reach s ∧
      s.sent.map (·.2) = [0, 0] ∧ s.claim.slots.map MemberSlot.flows = [1, 1] ∧
      s.claim.Sound ∧ s.Sticky := by
  have hrun : (Lts.runWith (fun s call => some (s.step call)) Placing.keepsRule ⟨.new 0, []⟩
      twoFlows).any (fun s => s.sent.map (·.2) = [0, 0] ∧
        s.claim.slots.map MemberSlot.flows = [1, 1]) = true := by
    decide +kernel
  obtain ⟨s, hreach, hs⟩ := Lts.Reach.exists_runWith (T := placements)
    (C := fun s call => s.keepsRule call = true) (fun _ _ _ h => (Option.some.inj h).symm)
    (fun _ _ h => h) ⟨0, rfl⟩ hrun
  obtain ⟨hsent, hflows⟩ := of_decide_eq_true hs
  exact ⟨s, hreach, hsent, hflows, (flows_placed s).1 hreach.of_restrict, (flows_placed s).2 hreach⟩

/-! ## 5. A flow that moves -/

/-- Flows that differ in the port of their second endpoint. -/
def flowNo (i : Nat) : PacketInfo :=
  ⟨17, .v4 0x0a000002, .v4 0x0a000001, some (BitVec.ofNat 16 (1024 + i)), some 53⟩

/-- The port is mixed last. -/
theorem hash_flowNo (i : Nat) : Flow.hash (flowNo i) =
    Flow.mix (Flow.mix (Flow.endpoint (Flow.mix Flow.offsetBasis [17]) (.v4 0x0a000001) (some 53))
      (Flow.octets (.v4 0x0a000002))) (Flow.portBytes (BitVec.ofNat 16 (1024 + i))) := by
  unfold Flow.hash
  rw [if_neg]
  · rfl
  · exact Bool.false_ne_true

theorem key_flowNo_inj {i j : Nat} (hi : i ≤ 4100) (hj : j ≤ 4100)
    (h : Flow.key (flowNo i) = Flow.key (flowNo j)) : i = j := by
  have hhash := Flow.avalanche_inj h
  rw [hash_flowNo, hash_flowNo] at hhash
  have hport := congrArg BitVec.toNat (Flow.mix_port_inj hhash)
  rw [BitVec.toNat_ofNat, BitVec.toNat_ofNat] at hport
  omega

/-- Two lanes, and the first flow. -/
def firstFlow : Placing :=
  (((⟨.new 0, []⟩ : Placing).step (.join 0 (some 1) none)).step (.join 1 (some 2) none)).step
    (.route (flowNo 0) 0)

/-- The table has the first `n` flows, all of this instant; the first one is in slot 1. -/
structure Filled (n : Nat) (s : Placing) : Prop where
  live : s.claim.liveSlots = [0, 1]
  swept : s.claim.swept = 0
  size : s.claim.flows.entries.length = n
  first : s.claim.flows.lookup (Flow.key (flowNo 0)) = some ⟨1, 0⟩
  entry : ∀ (key : U64) e, s.claim.flows.lookup key = some e →
    e.lastSeen = 0 ∧ ∃ i < n, key = Flow.key (flowNo i)

theorem filled_firstFlow : Filled 1 firstFlow := by
  have hentries : firstFlow.claim.flows.entries = [⟨Flow.key (flowNo 0), ⟨1, 0⟩⟩] := by
    decide +kernel
  have hflows : firstFlow.claim.flows =
      (∅ : Table U64 FlowEntry).insert (Flow.key (flowNo 0)) ⟨1, 0⟩ :=
    AList.ext hentries
  refine ⟨by decide +kernel, by decide +kernel, by rw [hflows]; rfl,
    by rw [hflows]; exact AList.lookup_insert _, fun key e he => ?_⟩
  rw [hflows, Table.lookup_insert_eq] at he
  split at he
  case isTrue heq =>
    cases he
    exact ⟨rfl, 0, Nat.zero_lt_one, heq⟩
  case isFalse => cases he

namespace Filled

variable {n : Nat} {s : Placing}

theorem lookup_eq_none (h : Filled n s) {i : Nat} (hn : n ≤ i) (hi : i ≤ 4100) :
    s.claim.flows.lookup (Flow.key (flowNo i)) = none := by
  cases he : s.claim.flows.lookup (Flow.key (flowNo i)) with
  | none => rfl
  | some e =>
    obtain ⟨-, j, hj, hkey⟩ := h.entry _ e he
    have := key_flowNo_inj hi (by omega) hkey
    omega

theorem sweepIfDue_eq (h : Filled n s) : s.claim.sweepIfDue 0 = s.claim := by
  unfold ClaimSlots.sweepIfDue
  rw [h.swept, if_pos (by decide)]

/-- One more flow. -/
theorem succ (h : Filled n s) (hn : n < maxTrackedFlows) :
    Filled (n + 1) (s.step (.route (flowNo n) 0)) := by
  have hmax : maxTrackedFlows = 4096 := rfl
  have hkey := h.lookup_eq_none (Nat.le_refl n) (by omega)
  have hclaim : (s.step (.route (flowNo n) 0)).claim =
      (s.claim.route (Flow.key (flowNo n)) 0).1 := by
    unfold Placing.step
    dsimp only
    split <;> rfl
  rcases s.claim.route_cases (Flow.key (flowNo n)) 0 with ⟨e, he, -⟩ |
    ⟨-, ⟨slot, -, -, heq⟩ | ⟨hlive, -⟩⟩
  · rw [hkey] at he
    cases he
  · rw [heq, h.sweepIfDue_eq] at hclaim
    have hlookup := s.claim.lookup_track (Flow.key (flowNo n)) slot 0
    have hroom : s.claim.flows.entries.length < maxTrackedFlows := h.size ▸ hn
    constructor
    · rw [hclaim, ClaimSlots.liveSlots_track, h.live]
    · rw [hclaim, ClaimSlots.track, if_pos hroom]
      exact h.swept
    · rw [hclaim, ClaimSlots.track, if_pos hroom]
      refine (Table.length_insert_of_notMem (AList.lookup_eq_none.mp hkey) _).trans ?_
      rw [h.size]
    · rw [hclaim, hlookup, if_neg, h.first]
      rintro ⟨hsame, -⟩
      rw [← hsame, h.first] at hkey
      cases hkey
    · intro key e he
      rw [hclaim, hlookup] at he
      split at he
      case isTrue hnew =>
        cases he
        exact ⟨rfl, n, Nat.lt_succ_self n, hnew.1⟩
      case isFalse =>
        obtain ⟨hseen, i, hi, hkey⟩ := h.entry key e he
        exact ⟨hseen, i, Nat.lt_succ_of_lt hi, hkey⟩
  · rw [h.live] at hlive
    cases hlive

end Filled

/-- The table can be filled. -/
theorem exists_filled (n : Nat) (hn : n < maxTrackedFlows) :
    ∃ s, placements.Reach s ∧ Filled (n + 1) s := by
  induction n with
  | zero =>
    have hnew : placements.Reach ⟨.new 0, []⟩ := .init ⟨0, rfl⟩
    exact ⟨firstFlow, ((hnew.step rfl).step rfl).step rfl, filled_firstFlow⟩
  | succ n ih =>
    obtain ⟨s, hreach, hfilled⟩ := ih (Nat.lt_of_succ_lt hn)
    exact ⟨_, hreach.step rfl, hfilled.succ hn⟩

/-- Where one of two slots is empty of flows, a new flow goes there. -/
theorem ClaimSlots.choose_lighter {c : ClaimSlots} {x y : MemberSlot} {key : U64}
    (hroom : c.flows.entries.length < maxTrackedFlows) (hx : c.slots[0]? = some x)
    (hy : c.slots[1]? = some y) (hempty : x.flows = 0) (hloaded : 0 < y.flows) :
    c.choose key [0, 1] = some 0 := by
  have hleast : c.leastLoaded [0, 1] = [0] := by
    have hne : y.flows ≠ 0 := Nat.ne_of_gt hloaded
    simp [leastLoaded, hx, hy, hempty, hne]
  unfold choose
  rw [if_neg (Nat.not_le.mpr hroom), hleast]
  rfl

/-- A packet that is sent. -/
theorem Placing.step_route {s : Placing} {info : PacketInfo} {now slot : Nat} {c : ClaimSlots}
    (h : s.claim.route (Flow.key info) now = (c, some slot)) :
    s.step (.route info now) =
      { s.becomes c with sent := (s.becomes c).sent ++ [(Flow.key info, slot)] } := by
  simp only [step, h]

/-- What was told of a flow that is not in the table stands while the usable slots do. -/
theorem Placing.mem_becomes_of_lookup {s : Placing} {c : ClaimSlots} {key : U64} {slot : Nat}
    (hlive : c.liveSlots = s.claim.liveSlots) (hkey : s.claim.flows.lookup key = none)
    (h : (key, slot) ∈ s.sent) : (key, slot) ∈ (s.becomes c).sent := by
  unfold becomes
  rw [if_pos hlive]
  refine List.mem_filter.mpr ⟨h, ?_⟩
  rw [hkey]
  rfl

namespace Filled

variable {s : Placing}

/-- A further flow goes where its hash says, and is not remembered. -/
theorem hashed (h : Filled maxTrackedFlows s) {i : Nat} (hn : maxTrackedFlows ≤ i) (hi : i ≤ 4100)
    (hslot : Flow.slot (Flow.key (flowNo i)) 2 = 1) :
    s.claim.route (Flow.key (flowNo i)) 0 = (s.claim, some 1) := by
  rcases s.claim.route_cases (Flow.key (flowNo i)) 0 with ⟨e, he, -⟩ |
    ⟨-, ⟨slot, -, hchoice, heq⟩ | ⟨hlive, -⟩⟩
  · rw [h.lookup_eq_none hn hi] at he
    cases he
  · rw [h.sweepIfDue_eq, ClaimSlots.choose_of_full _ h.size.ge, h.live] at hchoice
    rw [List.length_cons, List.length_singleton, hslot] at hchoice
    cases hchoice
    rw [heq, h.sweepIfDue_eq, ClaimSlots.track, if_neg (Nat.not_lt.mpr h.size.ge)]
  · rw [h.live] at hlive
    cases hlive

end Filled

/-- A minute later one flow is left, in slot 1; a new one goes to slot 0. -/
theorem ClaimSlots.route_after_silence {c : ClaimSlots} {key first : U64} (hcounted : c.Counted)
    (hlive : c.liveSlots = [0, 1]) (hswept : c.swept = 0) (hkey : c.flows.lookup key = none)
    (hfirst : c.flows.lookup first = some ⟨1, 59000⟩)
    (hentry : ∀ (k : U64) e, c.flows.lookup k = some e → k = first ∨ e.lastSeen = 0) :
    ∃ c', c.route key 60000 = (c', some 0) ∧ c'.liveSlots = [0, 1] := by
  obtain ⟨hslots, hlookup, hsame⟩ := c.sweepIfDue_spec 60000
  have hlive' := (liveSlots_of_uncounted hslots).trans hlive
  have hstale : ∀ e : FlowEntry, c.stale 60000 e = decide (flowIdleEviction ≤ 60000 - e.lastSeen) :=
    fun e => by
      rw [stale, hswept]
      rfl
  have honly : ∀ (k : U64) e, (c.sweepIfDue 60000).flows.lookup k = some e →
      k = first ∧ e = ⟨1, 59000⟩ := by
    intro k e he
    rw [hlookup, Option.filter_eq_some_iff, hstale] at he
    rcases hentry k e he.1 with rfl | hseen
    · exact ⟨rfl, Option.some.inj (he.1.symm.trans hfirst)⟩
    · rw [hseen] at he
      cases he.2
  have hleft : (c.sweepIfDue 60000).flows.lookup first = some ⟨1, 59000⟩ := by
    rw [hlookup, hfirst, Option.filter_some, hstale]
    rfl
  have hroom : (c.sweepIfDue 60000).flows.entries.length ≤ 1 := by
    have hsub : (c.sweepIfDue 60000).flows.keys ⊆ [first] := by
      intro k hk
      obtain ⟨e, he⟩ := Option.isSome_iff_exists.mp (AList.lookup_isSome.mpr hk)
      rw [(honly k e he).1]
      exact List.mem_singleton_self _
    have hlen := (List.subperm_of_subset (c.sweepIfDue 60000).flows.keys_nodup hsub).length_le
    exact (List.length_map ..).symm.trans_le hlen
  obtain ⟨x, hx, -⟩ := (c.sweepIfDue 60000).mem_liveSlots.mp (hlive' ▸ List.mem_cons_self)
  obtain ⟨y, hy, -⟩ := (c.sweepIfDue 60000).mem_liveSlots.mp
    (hlive' ▸ List.mem_cons_of_mem 0 (List.mem_singleton_self 1))
  have hxload := hsame hcounted 0
  have hyload := hsame hcounted 1
  unfold load at hxload hyload
  rw [hx, Option.map_some, Option.getD_some] at hxload
  rw [hy, Option.map_some, Option.getD_some] at hyload
  have hempty : x.flows = 0 := by
    by_contra hne
    obtain ⟨k, e, he, hslot⟩ := Table.tally_pos.mp (hxload ▸ Nat.pos_of_ne_zero hne)
    rw [(honly k e he).2] at hslot
    cases hslot
  have hloaded : 0 < y.flows := hyload ▸ Table.tally_pos.mpr ⟨first, _, hleft, rfl⟩
  have hchoice : (c.sweepIfDue 60000).choose key [0, 1] = some 0 :=
    choose_lighter (Nat.lt_of_le_of_lt hroom (by decide)) hx hy hempty hloaded
  refine ⟨(c.sweepIfDue 60000).track key 0 60000, ?_, (liveSlots_track ..).trans hlive'⟩
  unfold route
  rw [hkey]
  dsimp only
  rw [hlive, hchoice]

/-- **A flow that moves.**  The table is full, and a further flow is placed in slot 1 by its hash.
A minute later all flows but one, in slot 1, have fallen silent; nothing else has changed, and the
flow's next packet is sent to slot 0. -/
theorem flow_moved : ∃ s, placements.Reach s ∧ s.claim.liveSlots = [0, 1] ∧
    (∃ key, (key, 1) ∈ s.sent ∧ (key, 0) ∈ s.sent) ∧ ¬ s.Sticky := by
  obtain ⟨s, hreach, h⟩ := exists_filled 4095 (by decide)
  have hslot : Flow.slot (Flow.key (flowNo 4099)) 2 = 1 := by decide +kernel
  have hkey := h.lookup_eq_none (i := 4099) (by decide) (by decide)
  -- the packet that finds the table full
  let s1 := s.step (.route (flowNo 4099) 0)
  have heq1 : s1 = _ := Placing.step_route (h.hashed (by decide) (by decide) hslot)
  have hclaim1 : s1.claim = s.claim := by
    rw [heq1]
    rfl
  have hsent1 : (Flow.key (flowNo 4099), 1) ∈ s1.sent := by
    rw [heq1]
    exact List.mem_append_right _ (List.mem_singleton_self _)
  -- the flow that goes on talking
  let s2 := s1.step (.touch (flowNo 0) 59000)
  have hclaim2 : s2.claim = { s.claim with
      flows := s.claim.flows.insert (Flow.key (flowNo 0)) ⟨1, 59000⟩ } := by
    change s1.claim.touch (Flow.key (flowNo 0)) 59000 = _
    rw [hclaim1, ClaimSlots.touch, h.first]
  have hlive2 : s2.claim.liveSlots = [0, 1] := by
    rw [hclaim2]
    exact h.live
  have hsent2 : (Flow.key (flowNo 4099), 1) ∈ s2.sent :=
    Placing.mem_becomes_of_lookup (hlive2.trans (hclaim1 ▸ h.live.symm)) (hclaim1 ▸ hkey) hsent1
  have hlookup2 : ∀ k, s2.claim.flows.lookup k =
      if k = Flow.key (flowNo 0) then some ⟨1, 59000⟩ else s.claim.flows.lookup k := by
    intro k
    rw [hclaim2]
    exact Table.lookup_insert_eq ..
  have hkey2 : s2.claim.flows.lookup (Flow.key (flowNo 4099)) = none := by
    rw [hlookup2, if_neg, hkey]
    intro hsame
    exact absurd (key_flowNo_inj (by decide) (by decide) hsame) (by decide)
  have hreach2 : placements.Reach s2 := (hreach.step rfl).step rfl
  -- the packet that finds room
  obtain ⟨c, heq3, hlive3⟩ := ClaimSlots.route_after_silence
    (Placing.tabled_of_reach hreach2).1 hlive2 (hclaim2 ▸ h.swept) hkey2
    ((hlookup2 _).trans (if_pos rfl)) fun k e he => by
      rw [hlookup2] at he
      split at he
      case isTrue hsame => exact .inl hsame
      case isFalse => exact .inr (h.entry k e he).1
  let s3 := s2.step (.route (flowNo 4099) 60000)
  have hs3 : s3 = _ := Placing.step_route heq3
  have hmem1 : (Flow.key (flowNo 4099), 1) ∈ s3.sent := by
    rw [hs3]
    exact List.mem_append_left _
      (Placing.mem_becomes_of_lookup (hlive3.trans hlive2.symm) hkey2 hsent2)
  have hmem0 : (Flow.key (flowNo 4099), 0) ∈ s3.sent := by
    rw [hs3]
    exact List.mem_append_right _ (List.mem_singleton_self _)
  refine ⟨s3, hreach2.step rfl, ?_, ⟨_, hmem1, hmem0⟩, fun hsticky => ?_⟩
  · rw [hs3]
    exact hlive3
  · exact absurd (hsticky _ 1 0 hmem1 hmem0) (by decide)

end Molehill.Transparent.Slots
