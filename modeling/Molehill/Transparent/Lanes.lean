/-
# Which claim gets a lane

The lane allocator's policy is a pure function of what the claims' lanes carry: `plan` answers
with at most one move.  A claim is short when it has lanes, and more talking flows than lanes.
While fewer lanes are held than the budget has, the claim that is furthest from a lane per flow
gets one more (`Plan.add`); otherwise it gets the idle lane of a claim that has one to spare
(`Plan.lend`).

`plan_add` and `plan_lend` say what a move implies about the loads it was decided on.  A claim that
gives a lane keeps another one (`lending_keeps_lane`), but the lanes are counted whatever becomes of
them: the one that is left may be being handed over, and on its way out (`last_usable_lent`).
-/
import Mathlib.Data.List.MinMax
import Mathlib.Data.Prod.Lex
import Molehill.Transparent.Endpoint

namespace Molehill.Transparent

/-- The derived order of endpoints: family, address, port. -/
def Endpoint.key (e : Endpoint) : ℕ ×ₗ ℕ ×ₗ ℕ :=
  match e.ip with
  | .v4 addr => toLex (0, toLex (addr.toNat, e.port.toNat))
  | .v6 addr => toLex (1, toLex (addr.toNat, e.port.toNat))

/-- `LaneLoad`. -/
structure LaneLoad where
  slot : Nat
  flows : Nat
  handover : Bool
  deriving DecidableEq

/-- `ClaimLoad`. -/
structure ClaimLoad where
  endpoint : Endpoint
  lanes : List LaneLoad
  deriving DecidableEq

namespace ClaimLoad

/-- `ClaimLoad::lendable`: the quietest lane that is not being handed over. -/
def lendable (claim : ClaimLoad) : Option LaneLoad :=
  (claim.lanes.filter fun lane => !lane.handover).argmin LaneLoad.flows

/-- `ClaimLoad::talking_flows`. -/
def talkingFlows (claim : ClaimLoad) : Nat := (claim.lanes.map LaneLoad.flows).sum

/-- `ClaimLoad::shortfall`. -/
def shortfall (claim : ClaimLoad) : Nat := max claim.talkingFlows 1 - claim.lanes.length

end ClaimLoad

/-- `Plan`. -/
inductive Plan
  | add (taker : Endpoint)
  | lend (donor : Endpoint) (slot : Nat) (taker : Endpoint)
  deriving DecidableEq

/-- The claim that is furthest from a lane per flow, the last of them in endpoint order. -/
def short (loads : List ClaimLoad) : Option ClaimLoad :=
  (loads.filter fun claim => claim.lanes ≠ [] ∧ 0 < claim.shortfall).reverse.argmax fun claim =>
    toLex (claim.shortfall, claim.endpoint.key)

/-- The idle lane a sibling of the claim can spare, the first of them in endpoint order. -/
def donor (loads : List ClaimLoad) (taker : Endpoint) : Option (LaneLoad × ClaimLoad) :=
  let spare := loads.filter fun claim => claim.endpoint ≠ taker ∧ 1 < claim.lanes.length
  let lanes := spare.filterMap fun claim => claim.lendable.map fun lane => (lane, claim)
  (lanes.filter fun d => d.1.flows = 0).argmin fun d =>
    toLex (d.1.flows, toLex (d.2.endpoint.key, d.1.slot))

/-- `plan`. -/
def plan (loads : List ClaimLoad) (budget used : Nat) : Option Plan :=
  (short loads).bind fun claim =>
    if used < budget then some (.add claim.endpoint)
    else (donor loads claim.endpoint).map fun d => .lend d.2.endpoint d.1.slot claim.endpoint

/-- The claim that is short is one of the loads, and has a lane. -/
theorem short_mem {loads : List ClaimLoad} {claim : ClaimLoad} (h : short loads = some claim) :
    claim ∈ loads ∧ claim.lanes ≠ [] := by
  have hmem := List.argmax_mem h
  rw [List.mem_reverse, List.mem_filter] at hmem
  exact ⟨hmem.1, (of_decide_eq_true hmem.2).1⟩

/-- Who gives a lane is not who gets it, keeps another one, and gives an idle one that is not being
handed over. -/
theorem donor_spec {loads : List ClaimLoad} {taker : Endpoint} {lane : LaneLoad} {claim : ClaimLoad}
    (h : donor loads taker = some (lane, claim)) :
    claim ∈ loads ∧ claim.endpoint ≠ taker ∧ 1 < claim.lanes.length ∧ lane ∈ claim.lanes ∧
      lane.flows = 0 ∧ lane.handover = false := by
  obtain ⟨hmem, hidle⟩ := List.mem_filter.mp (List.argmin_mem h)
  obtain ⟨claim', hclaim, hlane⟩ := List.mem_filterMap.mp hmem
  obtain ⟨hload, hspare⟩ := List.mem_filter.mp hclaim
  obtain ⟨lane', hlendable, heq⟩ := Option.map_eq_some_iff.mp hlane
  obtain ⟨rfl, rfl⟩ := Prod.mk.inj heq
  obtain ⟨hne, hlen⟩ := of_decide_eq_true hspare
  obtain ⟨hin, hkeeps⟩ := List.mem_filter.mp (List.argmin_mem hlendable)
  exact ⟨hload, hne, hlen, hin, of_decide_eq_true hidle, (Bool.not_eq_true' _).mp hkeeps⟩

/-- There is no move where no claim is short. -/
theorem short_of_plan {loads : List ClaimLoad} {budget used : Nat} {move : Plan}
    (h : plan loads budget used = some move) : short loads ≠ none := by
  obtain ⟨claim, hshort, -⟩ := Option.bind_eq_some_iff.mp h
  rw [hshort]
  exact Option.some_ne_none claim

/-- **A lane is added under the budget**, to a claim that has one. -/
theorem plan_add {loads : List ClaimLoad} {budget used : Nat} {taker : Endpoint}
    (h : plan loads budget used = some (.add taker)) :
    used < budget ∧ ∃ claim ∈ loads, claim.endpoint = taker ∧ claim.lanes ≠ [] := by
  obtain ⟨claim, hshort, h⟩ := Option.bind_eq_some_iff.mp h
  split at h
  case isTrue hroom =>
    cases h
    obtain ⟨hmem, hne⟩ := short_mem hshort
    exact ⟨hroom, claim, hmem, rfl, hne⟩
  case isFalse =>
    obtain ⟨d, _, hd⟩ := Option.map_eq_some_iff.mp h
    cases hd

/-- **A lane is lent only when the budget is used up**, by a claim that keeps another one. -/
theorem plan_lend {loads : List ClaimLoad} {budget used : Nat} {giver taker : Endpoint} {slot : Nat}
    (h : plan loads budget used = some (.lend giver slot taker)) :
    budget ≤ used ∧ giver ≠ taker ∧
      ∃ claim ∈ loads, claim.endpoint = giver ∧ 1 < claim.lanes.length ∧
        ∃ lane ∈ claim.lanes, lane.slot = slot ∧ lane.flows = 0 ∧ lane.handover = false := by
  obtain ⟨claim, _, h⟩ := Option.bind_eq_some_iff.mp h
  split at h
  case isTrue => cases h
  case isFalse hfull =>
    obtain ⟨⟨lane, d⟩, hdonor, hd⟩ := Option.map_eq_some_iff.mp h
    cases hd
    obtain ⟨hmem, hne, hlen, hlane, hidle⟩ := donor_spec hdonor
    exact ⟨Nat.le_of_not_lt hfull, hne, d, hmem, rfl, hlen, lane, hlane, rfl, hidle⟩

/-- **Lending is safe**: an idle lane that is not being handed over goes from one claim to another,
the giver keeps a lane, and a lane is added only under the budget. -/
theorem lending_keeps_lane (loads : List ClaimLoad) (budget used : Nat) :
    (∀ giver slot taker, plan loads budget used = some (.lend giver slot taker) →
      giver ≠ taker ∧ ∃ claim ∈ loads, claim.endpoint = giver ∧
        ∃ lane ∈ claim.lanes, lane.slot = slot ∧ lane.flows = 0 ∧ lane.handover = false ∧
          claim.lanes.erase lane ≠ []) ∧
    ∀ taker, plan loads budget used = some (.add taker) → used < budget := by
  constructor
  · intro giver slot taker h
    obtain ⟨-, hne, claim, hmem, hgiver, hlen, lane, hlane, hslot, hidle⟩ := plan_lend h
    refine ⟨hne, claim, hmem, hgiver, lane, hlane, hslot, hidle.1, hidle.2, fun hnil => ?_⟩
    have hleft := List.length_erase_of_mem hlane
    rw [hnil, List.length_nil] at hleft
    omega
  · intro taker h
    exact (plan_add h).1

/-- One of the two lanes of `10.99.0.3` is being handed over; `10.99.0.2` is short of lanes. -/
def halfHandedOver : List ClaimLoad :=
  [⟨⟨.v4 0x0a630003, 8443⟩, [⟨0, 0, true⟩, ⟨1, 0, false⟩]⟩,
    ⟨⟨.v4 0x0a630002, 8443⟩, [⟨0, 5, false⟩]⟩]

/-- The plan is to take its idle lane: it is another claim, and keeps a lane. -/
theorem lending_keeps_lane_handover :
    plan halfHandedOver 4 4 = some (.lend ⟨.v4 0x0a630003, 8443⟩ 1 ⟨.v4 0x0a630002, 8443⟩) ∧
      (⟨.v4 0x0a630003, 8443⟩ : Endpoint) ≠ ⟨.v4 0x0a630002, 8443⟩ ∧
      ∃ claim ∈ halfHandedOver, ∃ lane ∈ claim.lanes, lane.handover = false ∧
        claim.lanes.erase lane ≠ [] := by
  have hplan : plan halfHandedOver 4 4
      = some (.lend ⟨.v4 0x0a630003, 8443⟩ 1 ⟨.v4 0x0a630002, 8443⟩) := by
    decide +kernel
  obtain ⟨hne, claim, hmem, -, lane, hlane, -, -, hkeeps, hleft⟩ :=
    (lending_keeps_lane halfHandedOver 4 4).1 _ _ _ hplan
  exact ⟨hplan, hne, claim, hmem, lane, hlane, hkeeps, hleft⟩

/-- **The last usable lane is lent.**  The giver is left with the lane that is being handed over. -/
theorem last_usable_lent :
    ¬ ∀ (loads : List ClaimLoad) (budget used : Nat) (giver taker : Endpoint) (slot : Nat),
      plan loads budget used = some (.lend giver slot taker) →
        ∃ claim ∈ loads, claim.endpoint = giver ∧ ∃ lane ∈ claim.lanes, lane.slot = slot ∧
          ∃ left ∈ claim.lanes.erase lane, left.handover = false := by
  intro h
  have hplan : plan halfHandedOver 4 4
      = some (.lend ⟨.v4 0x0a630003, 8443⟩ 1 ⟨.v4 0x0a630002, 8443⟩) := by
    decide +kernel
  have hnone : ¬ ∃ claim ∈ halfHandedOver, claim.endpoint = ⟨.v4 0x0a630003, 8443⟩ ∧
      ∃ lane ∈ claim.lanes, lane.slot = 1 ∧
        ∃ left ∈ claim.lanes.erase lane, left.handover = false := by
    decide +kernel
  exact hnone (h _ _ _ _ _ _ hplan)

end Molehill.Transparent
