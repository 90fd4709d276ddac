/-
# The lane budget

Which runs of the lane allocator keep the budget.  A claim that is to have so many lanes has no more
of them, counting those that are being dialed and those that have failed and are about to be asked
for again; a claim that lends has one more until the lane it lent has ended
(`WatchedPool.Sound`).  The targets are within the budget, and below it from the ticker's decision
to its dial.

This holds over a run if no dial is in flight and no lane is missing where the code takes the live
lanes for all: when the server asks for a lane that has not failed, and when the ticker finds a
claim short.  A swap has to wait for the lane that is lent, and a claim comes and goes without lanes
(`WatchedPool.orderly`).  `within_budget` is the result.
-/
import Molehill.Client.Lanes

namespace Molehill.Client

open Function Lib Transparent

/-! ## 1. Runs in order -/

/-- Between its look and its move the ticker relies on the claims it has seen. -/
def Ticker.deciding : Ticker → Bool
  | .sampled .. | .lending .. => true
  | _ => false

namespace LanePool

/-- The targets and the lanes, dialed or alive, are within the budget. -/
def WithinBudget (s : LanePool) : Prop := s.targets ≤ s.budget ∧ s.lanes.length ≤ s.budget

instance (s : LanePool) : Decidable s.WithinBudget := inferInstanceAs (Decidable (_ ∧ _))

variable (s : LanePool)

/-- The claim is to have no fewer lanes than its share: what it lent has come back. -/
def repaid (e : Endpoint) : Bool := (s.claims.lookup e).all fun entry => entry.share ≤ entry.target

/-- None of the claim's lanes is being dialed, and its device is up. -/
def undialed (e : Endpoint) : Bool :=
  match s.claims.lookup e with
  | some entry =>
    entry.tun ∈ s.up && s.lanes.all fun lane =>
      lane.endpoint = e → lane.tun = entry.tun ∧ lane.member.isSome
  | none => false

/-- No lane is missing: the lanes that every claim is to have are alive. -/
def complete : Bool :=
  s.claims.entries.all fun c =>
    c.2.tun ∈ s.up && c.2.target ≤ (s.members c.1 c.2.tun).length

/-- Whether a lane of the claim is in the slot. -/
def taken (e : Endpoint) (slot : Nat) : Bool :=
  match s.claims.lookup e with
  | some entry => (s.members e entry.tun).any fun m => m.slot = slot
  | none => false

end LanePool

/-- The pool, and for each claim how many of its lanes have failed and were not asked for. -/
structure WatchedPool where
  pool : LanePool
  failed : Endpoint → Nat

namespace WatchedPool

variable (s : WatchedPool)

/-- The failed lanes after a step to `pool`. -/
def failedAfter (pool : LanePool) : PoolEvent → Endpoint → Nat
  | .activate _ e _ _ => update s.failed e 0
  | .deregister service =>
    match s.pool.services.lookup service with
    | some (e, _) => update s.failed e 0
    | none => s.failed
  | .request service =>
    match s.pool.services.lookup service with
    | some (e, _) =>
      if s.pool.wantsAnotherLane e then update s.failed e (s.failed e - 1) else s.failed
    | none => s.failed
  | .ended i =>
    match s.pool.lanes[i]? with
    | some lane =>
      if s.pool.isLent lane then s.failed
      else update s.failed lane.endpoint (s.failed lane.endpoint + 1)
    | none => s.failed
  -- where no lane has been asked to end, the lane that is lent has failed before
  | .retire _ =>
    match pool.ticker with
    | .dialing _ (some (e, _)) =>
      if pool.lender = [] then update s.failed e (s.failed e - 1) else s.failed
    | _ => s.failed
  | _ => s.failed

def step (e : PoolEvent) : Option WatchedPool :=
  (s.pool.step e).map fun pool => ⟨pool, s.failedAfter pool e⟩

/-- A claim comes or goes when it has no lanes and nothing to get back, and does not come between
the ticker's look and its move.  The server asks for a lane that has failed, or while none is being
dialed.  When the ticker finds a claim short, no lane is missing; the lane it takes has not been
replaced, and has ended when the other one is dialed. -/
def orderly : PoolEvent → Bool
  | .activate _ e _ _ => !s.pool.ticker.deciding && s.pool.held e = 0 && s.pool.repaid e
  | .deregister service =>
    match s.pool.services.lookup service with
    | some (e, _) => s.pool.held e = 0 && s.pool.repaid e
    | none => true
  | .request service =>
    match s.pool.services.lookup service with
    | some (e, _) => !s.pool.wantsAnotherLane e || 0 < s.failed e || s.pool.undialed e
    | none => true
  | .look =>
    s.pool.snapshot.1.length < 2 || (short s.pool.snapshot.1).isNone || s.pool.complete
  | .retire vacant =>
    match s.pool.ticker with
    | .lending donor slot _ => !vacant || s.pool.taken donor slot || 0 < s.failed donor
    | _ => true
  | .dial => s.pool.lender = []
  | _ => true

end WatchedPool

/-- The runs of the allocator, watched. -/
def watchedAllocator (lend : Bool) : Lts WatchedPool PoolEvent where
  init s := s = ⟨.new lend, fun _ => 0⟩
  step s e s' := s.step e = some s'

/-- Every run of the allocator can be watched. -/
theorem exists_watched {lend : Bool} {p : LanePool} (h : (laneAllocator lend).Reach p) :
    ∃ failed, (watchedAllocator lend).Reach ⟨p, failed⟩ := by
  refine h.invariant (P := fun p => ∃ failed, (watchedAllocator lend).Reach ⟨p, failed⟩) ?_ ?_
  · rintro p rfl
    exact ⟨fun _ => 0, .init rfl⟩
  · rintro p e p' ⟨failed, hw⟩ hs
    have hstep : WatchedPool.step ⟨p, failed⟩ e =
        some ⟨p', WatchedPool.failedAfter ⟨p, failed⟩ p' e⟩ :=
      Option.map_eq_some_iff.mpr ⟨p', hs, rfl⟩
    exact ⟨_, hw.step hstep⟩

/-! ## 2. The invariant -/

namespace LanePool

variable {s s' : LanePool}

/-- A claim that has nothing to get back leaves the others with no more than their shares. -/
theorem repaid_unregister {e : Endpoint} (h : s.repaid e = true) :
    (s.unregister e).targets + s.budget ≤ (s.unregister e).budget + s.targets ∧
      (s.unregister e).budget ≤ s.budget := by
  have hbudget := s.claims.total_erase ClaimEntry.share e
  have htargets := s.claims.total_erase ClaimEntry.target e
  have hle : ((s.claims.lookup e).map ClaimEntry.share).getD 0 ≤
      ((s.claims.lookup e).map ClaimEntry.target).getD 0 := by
    unfold repaid at h
    cases hlook : s.claims.lookup e with
    | none => exact Nat.le_refl 0
    | some entry =>
      rw [hlook] at h
      exact of_decide_eq_true h
  simp only [targets, budget, unregister]
  omega

theorem held_lt_target {e : Endpoint} (hup : s.undialed e = true)
    (hwants : s.wantsAnotherLane e = true) : s.held e < s.target e := by
  unfold undialed at hup
  split at hup
  case h_1 entry hentry =>
    rw [Bool.and_eq_true, decide_eq_true_eq] at hup
    obtain ⟨hdev, hall⟩ := hup
    have hheld : s.held e = (s.members e entry.tun).length := by
      rw [members, List.length_filterMap_eq_countP, List.countP_filter, held, List.count,
        List.countP_map]
      refine List.countP_congr fun lane hlane => ?_
      have hup := of_decide_eq_true (List.all_eq_true.mp hall lane hlane)
      simp only [Function.comp_apply, beq_iff_eq, Bool.and_eq_true, decide_eq_true_eq]
      exact ⟨fun h => ⟨(hup h).2, h, (hup h).1⟩, fun h => h.2.1⟩
    rw [wantsAnotherLane, hentry] at hwants
    simp only [hdev, if_true, decide_eq_true_eq] at hwants
    rw [hheld, target_of_lookup hentry]
    exact hwants
  case h_2 => cases hup

/-- With no lane missing, the lanes that are seen are as many as there are to be. -/
theorem targets_le_used (h : s.complete = true) : s.targets ≤ s.snapshot.2 := by
  have hall : ∀ c ∈ s.claims.entries, c.2.tun ∈ s.up ∧
      c.2.target ≤ (s.members c.1 c.2.tun).length := by
    intro c hc
    have := List.all_eq_true.mp h c hc
    simpa only [Bool.and_eq_true, decide_eq_true_eq] using this
  have hup : (s.claims.entries.filter fun c => decide (c.2.tun ∈ s.up)) = s.claims.entries :=
    List.filter_eq_self.mpr fun c hc => decide_eq_true (hall c hc).1
  have hused : s.snapshot.2 =
      (s.claims.entries.map fun c => (s.members c.1 c.2.tun).length).sum := by
    simp [snapshot, hup, claimLoad, Function.comp_def]
  rw [hused, targets, Table.total]
  exact List.sum_le_sum fun c hc => (hall c hc).2

/-- A lane that is in the slot is marked, and lent. -/
theorem lender_retireLane {donor taker : Endpoint} {entry : ClaimEntry} {slot : Nat}
    (hentry : s.claims.lookup donor = some entry) (h : s.taken donor slot = true)
    (hlanes : s'.lanes = (s.retireLane donor entry.tun slot).lanes)
    (hticker : s'.ticker = .dialing taker (some (donor, slot))) : s'.lender = [donor] := by
  simp only [taken, hentry] at h
  obtain ⟨m, hm, hslot⟩ := List.any_eq_true.mp h
  obtain ⟨lane, hlane, hmember⟩ := List.mem_filterMap.mp hm
  obtain ⟨hmem, hwhere⟩ := List.mem_filter.mp hlane
  obtain ⟨hend, htun⟩ := of_decide_eq_true hwhere
  have hslot := of_decide_eq_true hslot
  let marked : Lane := { lane with member := some { m with draining := true } }
  have hmarked : marked ∈ s'.lanes := by
    rw [hlanes]
    refine List.mem_map.mpr ⟨lane, hmem, ?_⟩
    simp only [hmember, marked]
    exact if_pos ⟨hend, htun, hslot⟩
  have hlent : s'.isLent marked = true := by simp [isLent, hticker, marked, hend, hslot]
  rw [lender_of_isLent hmarked hlent]
  exact congrArg (fun e => [e]) hend

theorem idleAt_of_free {e : Endpoint} {entry : ClaimEntry} {slot : Nat} {vacant : Bool}
    (hentry : s.claims.lookup e = some entry) (h : s.taken e slot = false) :
    s.idleAt e entry.tun slot vacant = vacant := by
  simp only [taken, hentry] at h
  have hnone : (s.members e entry.tun).find? (fun m => m.slot = slot) = none :=
    List.find?_eq_none.mpr fun m hm => by simpa using List.any_eq_false.mp h m hm
  rw [idleAt, hnone]

/-- What the ticker relies on, from its look to its dial. -/
structure Due (s : LanePool) : Prop where
  /-- Who was seen with two lanes is to have two. -/
  spare : ∀ loads used, s.ticker = .sampled loads used → ∀ load ∈ loads, 1 < load.lanes.length →
    ∀ entry, s.claims.lookup load.endpoint = some entry → 1 < entry.target
  /-- Room that was seen is room in the targets. -/
  free : ∀ loads used, s.ticker = .sampled loads used → short loads ≠ none → used < s.budget →
    s.targets < s.budget
  lending : ∀ donor slot taker, s.ticker = .lending donor slot taker →
    ∀ entry, s.claims.lookup donor = some entry → 1 < entry.target
  dialing : ∀ taker lent, s.ticker = .dialing taker lent → s.targets < s.budget

theorem Due.of_idle (h : s.ticker = .waiting ∨ s.ticker = .looking) : s.Due := by
  constructor <;> intros <;> simp_all

theorem Due.congr (h : s.Due) (hclaims : s'.claims = s.claims) (hticker : s'.ticker = s.ticker) :
    s'.Due := by
  have htotals : s'.targets = s.targets ∧ s'.budget = s.budget := by
    simp only [targets, budget, hclaims, and_self]
  constructor
  · rw [hclaims, hticker]
    exact h.spare
  · rw [hticker, htotals.1, htotals.2]
    exact h.free
  · rw [hclaims, hticker]
    exact h.lending
  · rw [hticker, htotals.1, htotals.2]
    exact h.dialing

end LanePool

namespace WatchedPool

open LanePool

/-- A claim has no more lanes than its target, with those that failed, and one more while it has
lent one; the targets are within the budget. -/
structure Sound (s : WatchedPool) : Prop where
  owned : ∀ e, 0 < s.pool.held e → e ∈ s.pool.claims
  fits : ∀ e, s.pool.held e + s.failed e ≤ s.pool.target e + s.pool.lender.count e
  totals : s.pool.targets ≤ s.pool.budget
  due : s.pool.Due

variable {s s' : WatchedPool}

theorem sound_new (lend : Bool) : Sound ⟨.new lend, fun _ => 0⟩ where
  owned := by
    intro e he
    simp [held, LanePool.new] at he
  fits := by
    intro e
    simp [held, LanePool.new]
  totals := Nat.le_refl _
  due := .of_idle (.inl rfl)

/-- **The invariant keeps the budget.** -/
theorem Sound.withinBudget (h : s.Sound) : s.pool.WithinBudget := by
  refine ⟨h.totals, ?_⟩
  have hlanes : s.pool.lanes.length ≤ (s.pool.claims.keys.map s.pool.held).sum := by
    rw [← List.length_map Lane.endpoint]
    refine length_le_sum_countP fun e he => ⟨e, h.owned e ?_, beq_self_eq_true e⟩
    exact List.count_pos_iff.mpr he
  have hfits : (s.pool.claims.keys.map s.pool.held).sum ≤
      s.pool.targets + s.pool.lender.length := by
    calc (s.pool.claims.keys.map s.pool.held).sum
        ≤ (s.pool.claims.keys.map fun e => s.pool.target e + s.pool.lender.count e).sum :=
          List.sum_le_sum fun e _ => (Nat.le_add_right ..).trans (h.fits e)
      _ = s.pool.targets + (s.pool.claims.keys.map fun e => s.pool.lender.count e).sum := by
          rw [List.sum_map_add, sum_target]
      _ ≤ s.pool.targets + s.pool.lender.length :=
          Nat.add_le_add_left (sum_countP_le_length id (fun _ _ he => beq_iff_eq.mp he)
            s.pool.claims.nodupKeys s.pool.lender) _
  cases hlender : s.pool.lender with
  | nil =>
    rw [hlender] at hfits
    exact hlanes.trans (hfits.trans h.totals)
  | cons e rest =>
    obtain ⟨⟨taker, slot, hticker⟩, -⟩ := mem_lender (hlender ▸ List.mem_cons_self)
    have hone := s.pool.lender_length_le
    have hlt := h.due.dialing taker _ hticker
    omega

/-- Nothing that is counted changes. -/
theorem Sound.congr (h : s.Sound) (hclaims : s'.pool.claims = s.pool.claims)
    (hends : s'.pool.lanes.map Lane.endpoint = s.pool.lanes.map Lane.endpoint)
    (hlender : s'.pool.lender = s.pool.lender) (hfailed : s'.failed = s.failed)
    (hdue : s'.pool.Due) : s'.Sound where
  owned := by
    intro e he
    rw [hclaims]
    exact h.owned e (held_congr hends e ▸ he)
  fits := by
    intro e
    have htarget : s'.pool.target e = s.pool.target e := by rw [target, target, hclaims]
    rw [held_congr hends, hfailed, htarget, hlender]
    exact h.fits e
  totals := by
    have hle := h.totals
    simp only [targets, budget, hclaims] at hle ⊢
    exact hle
  due := hdue

theorem Sound.of_keeps (h : s.Sound) (hk : Keeps s.pool s'.pool)
    (hlender : s'.pool.lender = s.pool.lender) (hfailed : s'.failed = s.failed) : s'.Sound :=
  h.congr hk.claims hk.endpoints hlender hfailed (h.due.congr hk.claims hk.ticker)

/-! ## 3. The steps -/

theorem Sound.activate (h : s.Sound) {service : Nat} {e : Endpoint} {tun : String}
    {channels : Nat} (hc : s.orderly (.activate service e tun channels) = true) :
    Sound ⟨s.pool.activate service e tun channels, update s.failed e 0⟩ := by
  simp only [orderly, Bool.and_eq_true, decide_eq_true_eq, Bool.not_eq_true'] at hc
  obtain ⟨⟨hticker, hnone⟩, hrepaid⟩ := hc
  obtain ⟨hrest, -⟩ := repaid_unregister hrepaid
  have htargets : (s.pool.activate service e tun channels).targets =
      (s.pool.unregister e).targets + max channels 1 := Table.total_insert ..
  have hbudget : (s.pool.activate service e tun channels).budget =
      (s.pool.unregister e).budget + max channels 1 := Table.total_insert ..
  have hheld : ∀ e', (s.pool.activate service e tun channels).held e' =
      s.pool.held e' + if e = e' then channels else 0 :=
    held_spawn s.pool service e tun channels
  have hlender : (s.pool.activate service e tun channels).lender = s.pool.lender :=
    lender_spawn s.pool service e tun channels
  have hlookup : ∀ e', (s.pool.activate service e tun channels).claims.lookup e' =
      if e' = e then some ⟨tun, service, max channels 1, max channels 1, by omega⟩
      else s.pool.claims.lookup e' := fun e' => Table.lookup_insert_eq ..
  have hle := h.totals
  refine ⟨?_, ?_, ?_, ?_, ?_, ?_, ?_⟩
  · intro e' he
    by_cases heq : e' = e
    · exact AList.mem_insert _ |>.mpr (.inl heq)
    · rw [hheld, if_neg (Ne.symm heq)] at he
      exact AList.mem_insert _ |>.mpr (.inr (h.owned e' he))
  · intro e'
    have hold := h.fits e'
    dsimp only at hlookup ⊢
    rw [hheld, hlender, target, hlookup]
    by_cases heq : e' = e
    · subst heq
      rw [if_pos rfl, if_pos rfl, update_self, hnone, Nat.zero_add, Nat.add_zero]
      exact (Nat.le_max_left channels 1).trans (Nat.le_add_right ..)
    · rw [if_neg (Ne.symm heq), if_neg heq, update_of_ne heq]
      exact hold
  · dsimp only
    omega
  -- the ticker is not deciding
  · intro loads used ht
    have ht : s.pool.ticker = .sampled loads used := ht
    rw [ht] at hticker
    cases hticker
  · intro loads used ht
    have ht : s.pool.ticker = .sampled loads used := ht
    rw [ht] at hticker
    cases hticker
  · intro donor slot taker ht
    have ht : s.pool.ticker = .lending donor slot taker := ht
    rw [ht] at hticker
    cases hticker
  · intro taker lent ht
    have hlt := h.due.dialing taker lent ht
    dsimp only
    omega

theorem Sound.deregister (h : s.Sound) {service : Nat} {p : LanePool}
    (hc : s.orderly (.deregister service) = true) :
    Sound ⟨s.pool.deregister service, s.failedAfter p (.deregister service)⟩ := by
  cases hlook : s.pool.services.lookup service with
  | some active =>
    obtain ⟨e, tun⟩ := active
    simp only [orderly, hlook, Bool.and_eq_true, decide_eq_true_eq] at hc
    simp only [LanePool.deregister, failedAfter, hlook]
    obtain ⟨hnone, hrepaid⟩ := hc
    obtain ⟨hrest, hless⟩ := repaid_unregister hrepaid
    have hle := h.totals
    refine ⟨?_, ?_, ?_, ?_, ?_, ?_, ?_⟩
    · intro e' he
      have he : 0 < s.pool.held e' := he
      have hne : e' ≠ e := by
        rintro rfl
        omega
      exact AList.mem_erase.mpr ⟨hne, h.owned e' he⟩
    · intro e'
      have hold := h.fits e'
      have hlookup : (s.pool.claims.erase e).lookup e' =
          if e' = e then none else s.pool.claims.lookup e' := Table.lookup_erase_eq ..
      change s.pool.held e' + update s.failed e 0 e' ≤
        (((s.pool.claims.erase e).lookup e').map ClaimEntry.target).getD 0 +
          s.pool.lender.count e'
      rw [hlookup]
      by_cases heq : e' = e
      · subst heq
        rw [update_self, hnone]
        omega
      · rw [update_of_ne heq, if_neg heq]
        exact hold
    · change (s.pool.unregister e).targets ≤ (s.pool.unregister e).budget
      omega
    · intro loads used ht load hload hlen entry hentry
      exact h.due.spare loads used ht load hload hlen entry (Table.lookup_of_erase hentry).2
    · intro loads used ht hshort hused
      change used < (s.pool.unregister e).budget at hused
      change (s.pool.unregister e).targets < (s.pool.unregister e).budget
      have hlt := h.due.free loads used ht hshort (hused.trans_le hless)
      omega
    · intro donor slot taker ht entry hentry
      exact h.due.lending donor slot taker ht entry (Table.lookup_of_erase hentry).2
    · intro taker lent ht
      change (s.pool.unregister e).targets < (s.pool.unregister e).budget
      have hlt := h.due.dialing taker lent ht
      omega
  | none =>
    simp only [LanePool.deregister, failedAfter, hlook]
    exact h

/-- A lane is dialed for a claim that has one less than it is to have, with those that failed. -/
theorem Sound.request (h : s.Sound) {service : Nat} {p : LanePool}
    (hc : s.orderly (.request service) = true) :
    Sound ⟨s.pool.request service, s.failedAfter p (.request service)⟩ := by
  cases hlook : s.pool.services.lookup service with
  | some active =>
    obtain ⟨e, tun⟩ := active
    simp only [orderly, hlook] at hc
    simp only [LanePool.request, failedAfter, hlook]
    split
    case isTrue hwants =>
      simp only [hwants, Bool.not_true, Bool.false_or, Bool.or_eq_true, decide_eq_true_eq] at hc
      have hmiss : 0 < s.failed e ∨ s.pool.held e < s.pool.target e :=
        hc.imp_right fun hup => held_lt_target hup hwants
      have hfit := h.fits e
      refine ⟨?_, ?_, h.totals, h.due.congr rfl rfl⟩
      · intro e' he
        dsimp only at he
        rw [held_spawn] at he
        by_cases heq : e = e'
        · subst heq
          by_contra hmem
          have hmem : e ∉ s.pool.claims := hmem
          have hnot : e ∉ s.pool.lender := fun hl => hmem (h.owned e (mem_lender hl).2)
          rw [target_of_notMem hmem] at hfit hmiss
          rw [List.count_eq_zero_of_not_mem hnot] at hfit
          omega
        · rw [if_neg heq] at he
          exact h.owned e' he
      · intro e'
        have htarget : (s.pool.spawnDataChannel service e tun 1).target e' = s.pool.target e' := rfl
        dsimp only
        rw [held_spawn, lender_spawn, htarget]
        by_cases heq : e = e'
        · subst heq
          rw [if_pos rfl, update_self]
          omega
        · rw [if_neg heq, update_of_ne (Ne.symm heq)]
          exact h.fits e'
    case isFalse => exact h
  | none =>
    simp only [LanePool.request, failedAfter, hlook]
    exact h

/-- A lane that ends has failed, or has been lent and makes up for the lane that is dialed. -/
theorem Sound.ended (h : s.Sound) {i : Nat} {p : LanePool} (hi : i < s.pool.lanes.length) :
    Sound ⟨{ s.pool with lanes := s.pool.lanes.eraseIdx i }, s.failedAfter p (.ended i)⟩ := by
  obtain ⟨lane, heq⟩ : ∃ lane, s.pool.lanes[i] = lane := ⟨_, rfl⟩
  have hlane : s.pool.lanes[i]? = some lane := heq ▸ List.getElem?_eq_getElem hi
  have hmem : lane ∈ s.pool.lanes := heq ▸ List.getElem_mem hi
  let pool : LanePool := { s.pool with lanes := s.pool.lanes.eraseIdx i }
  have hperm : (lane :: pool.lanes).Perm s.pool.lanes := heq ▸ List.getElem_cons_eraseIdx_perm hi
  have hheld : ∀ e, s.pool.held e = pool.held e + if lane.endpoint = e then 1 else 0 := by
    intro e
    rw [held, ← (hperm.map Lane.endpoint).count_eq e, List.map_cons, List.count_cons]
    simp only [held, beq_iff_eq]
  have hany : s.pool.lanes.any s.pool.isLent =
      (s.pool.isLent lane || pool.lanes.any s.pool.isLent) := by
    rw [← hperm.any_eq, List.any_cons]
  refine ⟨?_, ?_, h.totals, h.due.congr rfl rfl⟩
  · intro e he
    refine h.owned e ?_
    rw [hheld]
    exact Nat.add_pos_left he _
  · intro e
    have hfit := h.fits e
    change pool.held e + s.failedAfter p (.ended i) e ≤ s.pool.target e + pool.lender.count e
    simp only [failedAfter, hlane]
    rw [hheld] at hfit
    cases hlent : s.pool.isLent lane with
    | true =>
      rw [if_pos rfl]
      rw [lender_of_isLent hmem hlent, List.count_singleton] at hfit
      simp only [beq_iff_eq] at hfit
      split at hfit <;> omega
    | false =>
      rw [if_neg Bool.false_ne_true]
      have hlender : pool.lender = s.pool.lender := by
        have hsame : pool.isLent = s.pool.isLent := rfl
        have hticker : pool.ticker = s.pool.ticker := rfl
        rw [hlent, Bool.false_or] at hany
        simp only [lender, hsame, hticker, hany]
      rw [hlender]
      by_cases hend : lane.endpoint = e
      · subst hend
        rw [update_self]
        rw [if_pos rfl] at hfit
        omega
      · rw [update_of_ne (Ne.symm hend)]
        rw [if_neg hend] at hfit
        exact hfit

theorem Sound.drains (h : s.Sound) (hticker : s.pool.ticker = .waiting)
    (stale asks : List (Nat × Nat)) : Sound ⟨s.pool.drains stale asks, s.failed⟩ := by
  have hk := keeps_drains s.pool stale asks
  have hidle : (s.pool.drains stale asks).ticker = .waiting ∨
      (s.pool.drains stale asks).ticker = .looking := by
    unfold LanePool.drains
    dsimp only
    split
    · exact .inr rfl
    · exact .inl rfl
  refine h.congr hk.claims hk.endpoints ?_ rfl (.of_idle hidle)
  have hbefore : s.pool.lender = [] := lender_eq_nil (by simp [hticker])
  rw [hbefore]
  rcases hidle with hw | hl
  · exact lender_eq_nil (by simp [hw])
  · exact lender_eq_nil (by simp [hl])

/-- What the ticker sees: no claim has more lanes than its target, and where one is short, the
lanes it has counted are all. -/
theorem Sound.look (h : s.Sound) (hticker : s.pool.ticker = .looking)
    (hc : s.orderly .look = true) : Sound ⟨s.pool.look, s.failed⟩ := by
  have hlender : s.pool.lender = [] := lender_eq_nil (by simp [hticker])
  unfold LanePool.look
  split
  case isTrue htwo =>
    refine h.congr rfl rfl ?_ rfl ⟨?_, ?_, nofun, nofun⟩
    · rw [hlender]
      exact lender_eq_nil (by simp)
    · rintro loads used heq load hload hlen entry hentry
      cases heq
      obtain ⟨c, hc, rfl⟩ := List.mem_map.mp hload
      have hseen : (s.pool.claimLoad c.1 c.2).lanes.length ≤ s.pool.held c.1 := by
        rw [claimLoad, List.length_map]
        exact members_length_le s.pool c.1 c.2.tun
      have hfit := h.fits c.1
      have htarget : s.pool.target c.1 = entry.target := target_of_lookup hentry
      rw [hlender, List.count_nil, htarget] at hfit
      omega
    · rintro loads used heq hshort hused
      cases heq
      simp only [orderly, Bool.or_eq_true, decide_eq_true_eq, Option.isNone_iff_eq_none] at hc
      have hseen : ¬ (s.pool.snapshot.1.length < 2 ∨ short s.pool.snapshot.1 = none) := by
        rintro (hlt | hnone)
        · exact absurd htwo (Nat.not_le_of_lt hlt)
        · exact hshort hnone
      have hcomplete := hc.resolve_left hseen
      exact (targets_le_used hcomplete).trans_lt hused
  case isFalse =>
    refine h.congr rfl rfl ?_ rfl (.of_idle (.inl rfl))
    rw [hlender]
    exact lender_eq_nil (by simp)

theorem Sound.plan (h : s.Sound) {p : LanePool} (hs : s.pool.planned = some p) :
    Sound ⟨p, s.failed⟩ := by
  unfold planned at hs
  split at hs
  case h_1 loads used hticker =>
    cases hs
    have hlender : s.pool.lender = [] := lender_eq_nil (by simp [hticker])
    cases hplan : Transparent.plan loads s.pool.budget used with
    | none =>
      refine h.congr rfl rfl ?_ rfl (.of_idle (.inl rfl))
      rw [hlender]
      exact lender_eq_nil (by simp)
    | some move =>
      cases move with
      | add taker =>
        refine h.congr rfl rfl ?_ rfl ⟨nofun, nofun, nofun, ?_⟩
        · rw [hlender]
          exact lender_eq_nil (by simp)
        · intro _ _ _
          exact h.due.free loads used hticker (short_of_plan hplan) (plan_add hplan).1
      | lend donor slot taker =>
        refine h.congr rfl rfl ?_ rfl ⟨nofun, nofun, ?_, nofun⟩
        · rw [hlender]
          exact lender_eq_nil (by simp)
        · intro donor' slot' taker' heq entry hentry
          cases heq
          obtain ⟨-, -, load, hload, rfl, hlen, -⟩ := plan_lend hplan
          exact h.due.spare loads used hticker load hload hlen entry hentry
  case h_2 => cases hs

/-- The donor's target goes down: the lane it lends is on its way out, or had failed. -/
theorem Sound.lends (h : s.Sound) {vacant : Bool} {donor taker : Endpoint} {slot : Nat}
    {entry : ClaimEntry} (hc : s.orderly (.retire vacant) = true)
    (hticker : s.pool.ticker = .lending donor slot taker)
    (hentry : s.pool.claims.lookup donor = some entry)
    (hidle : s.pool.idleAt donor entry.tun slot vacant = true) {p : LanePool}
    (hp : p = { s.pool.retireLane donor entry.tun slot with
      claims := s.pool.claims.insert donor entry.lowered
      ticker := .dialing taker (some (donor, slot)) }) :
    Sound ⟨p, s.failedAfter p (.retire vacant)⟩ := by
  have hbefore : s.pool.lender = [] := lender_eq_nil (by simp [hticker])
  have hends : p.lanes.map Lane.endpoint = s.pool.lanes.map Lane.endpoint := by
    rw [hp]
    exact (keeps_retireLane s.pool donor entry.tun slot).endpoints
  have hclaims : p.claims = s.pool.claims.insert donor entry.lowered := by rw [hp]
  have hpt : p.ticker = .dialing taker (some (donor, slot)) := by rw [hp]
  have hlender : p.lender = [] ∨ p.lender = [donor] := by
    simp only [lender, hpt]
    split
    · exact .inr rfl
    · exact .inl rfl
  have hlow : entry.lowered.target + 1 = entry.target := by
    have htwo := h.due.lending donor slot taker hticker entry hentry
    simp only [ClaimEntry.lowered]
    omega
  have hdonor : s.pool.held donor + s.failedAfter p (.retire vacant) donor ≤
      entry.lowered.target + p.lender.count donor := by
    have hfit := h.fits donor
    rw [hbefore, List.count_nil, target_of_lookup hentry] at hfit
    simp only [failedAfter, hpt]
    rcases hlender with hnil | hone
    · have hfree : s.pool.taken donor slot = false := by
        cases htaken : s.pool.taken donor slot with
        | false => rfl
        | true =>
          rw [lender_retireLane hentry htaken (by rw [hp]) hpt] at hnil
          cases hnil
      rw [idleAt_of_free hentry hfree] at hidle
      simp only [orderly, hticker, hidle, hfree, Bool.not_true, Bool.false_or,
        decide_eq_true_eq] at hc
      rw [if_pos hnil, update_self, hnil, List.count_nil]
      omega
    · rw [hone, if_neg (List.cons_ne_nil _ _), List.count_singleton_self]
      omega
  refine ⟨?_, ?_, ?_, ⟨?_, ?_, ?_, ?_⟩⟩
  · intro e he
    dsimp only at he ⊢
    rw [held_congr hends] at he
    rw [hclaims]
    exact (AList.mem_insert _).mpr (.inr (h.owned e he))
  · intro e
    have hlookup := Table.lookup_insert_eq s.pool.claims donor e entry.lowered
    dsimp only
    rw [held_congr hends, target, hclaims, hlookup]
    by_cases heq : e = donor
    · subst heq
      rw [if_pos rfl, Option.map_some, Option.getD_some]
      exact hdonor
    · have hsame : s.failedAfter p (.retire vacant) e = s.failed e := by
        simp only [failedAfter, hpt]
        split
        · exact update_of_ne heq ..
        · rfl
      rw [if_neg heq, hsame]
      have hfit := h.fits e
      rw [hbefore, List.count_nil] at hfit
      exact hfit.trans (Nat.le_add_right ..)
  · obtain ⟨hbudget, htargets⟩ := totals_insert hentry entry.lowered rfl
    have hle := h.totals
    simp only [targets, budget, hclaims] at hbudget htargets hle ⊢
    omega
  · intro loads used ht
    cases hpt.symm.trans ht
  · intro loads used ht
    cases hpt.symm.trans ht
  · intro donor' slot' taker' ht
    cases hpt.symm.trans ht
  · intro _ _ _
    obtain ⟨hbudget, htargets⟩ := totals_insert hentry entry.lowered rfl
    have hle := h.totals
    simp only [targets, budget, hclaims] at hbudget htargets hle ⊢
    omega

theorem Sound.retire (h : s.Sound) {vacant : Bool} {p : LanePool}
    (hc : s.orderly (.retire vacant) = true) (hs : s.pool.retire vacant = some p) :
    Sound ⟨p, s.failedAfter p (.retire vacant)⟩ := by
  unfold LanePool.retire at hs
  split at hs
  case h_1 donor slot taker hticker =>
    have hlender : s.pool.lender = [] := lender_eq_nil (by simp [hticker])
    have hnone : ∀ {pool : LanePool}, pool.ticker = .waiting → pool.lender = s.pool.lender := by
      intro pool hw
      rw [hlender]
      exact lender_eq_nil (by simp [hw])
    split at hs
    case h_1 =>
      cases hs
      exact h.congr rfl rfl (hnone rfl) rfl (.of_idle (.inl rfl))
    case h_2 entry hentry =>
      have hk := keeps_retireLane s.pool donor entry.tun slot
      split at hs
      case isTrue =>
        dsimp only at hs
        split at hs
        case isTrue hidle =>
          cases hs
          exact h.lends hc hticker hentry hidle rfl
        case isFalse =>
          cases hs
          exact h.congr rfl hk.endpoints (hnone rfl) rfl (.of_idle (.inl rfl))
      case isFalse =>
        cases hs
        exact h.congr rfl rfl (hnone rfl) rfl (.of_idle (.inl rfl))
  case h_2 => cases hs

/-- A lane is dialed when the one that was lent for it has ended. -/
theorem Sound.dial (h : s.Sound) {taker : Endpoint} {lent : Option (Endpoint × Nat)}
    (hticker : s.pool.ticker = .dialing taker lent) (hlender : s.pool.lender = []) :
    Sound ⟨{ s.pool.dial taker with ticker := .waiting }, s.failed⟩ := by
  have hidle : ∀ {pool : LanePool}, pool.ticker = .waiting → pool.lender = [] := by
    intro pool hw
    exact lender_eq_nil (by simp [hw])
  unfold LanePool.dial
  split
  case h_1 =>
    exact h.congr rfl rfl ((hidle rfl).trans hlender.symm) rfl (.of_idle (.inl rfl))
  case h_2 entry hentry =>
    obtain ⟨hbudget, htargets⟩ := totals_insert hentry entry.raised rfl
    have hraised : entry.raised.target = entry.target + 1 := rfl
    have hlt := h.due.dialing taker lent hticker
    refine ⟨?_, ?_, ?_, .of_idle (.inl rfl)⟩
    · intro e he
      refine (AList.mem_insert _).mpr ?_
      by_cases heq : e = taker
      · exact .inl heq
      · have hheld := held_spawn { s.pool with claims := s.pool.claims.insert taker entry.raised }
          entry.service taker entry.tun 1 e
        rw [if_neg (Ne.symm heq), Nat.add_zero] at hheld
        exact .inr (h.owned e (hheld ▸ he))
    · intro e
      have hfit := h.fits e
      have hheld := held_spawn { s.pool with claims := s.pool.claims.insert taker entry.raised }
        entry.service taker entry.tun 1 e
      have hlookup : (s.pool.claims.insert taker entry.raised).lookup e =
          if e = taker then some entry.raised else s.pool.claims.lookup e :=
        Table.lookup_insert_eq ..
      change _ + s.failed e ≤
        (((s.pool.claims.insert taker entry.raised).lookup e).map ClaimEntry.target).getD 0 + _
      rw [hlookup]
      rw [hlender, List.count_nil] at hfit
      refine (Nat.add_le_add_right (Nat.le_of_eq hheld) _).trans ?_
      change s.pool.held e + _ + _ ≤ _
      by_cases heq : e = taker
      · subst heq
        rw [if_pos rfl, if_pos rfl, Option.map_some, Option.getD_some, hraised]
        rw [target_of_lookup hentry] at hfit
        omega
      · rw [if_neg (Ne.symm heq), if_neg heq]
        exact hfit.trans (Nat.le_add_right ..)
    · change Table.total ClaimEntry.target (s.pool.claims.insert taker entry.raised) ≤
        Table.total ClaimEntry.share (s.pool.claims.insert taker entry.raised)
      omega

/-- **One step** of an orderly run keeps the invariant. -/
theorem Sound.step (h : s.Sound) {e : PoolEvent} (hc : s.orderly e = true)
    (hs : s.step e = some s') : s'.Sound := by
  obtain ⟨p, hp, rfl⟩ := Option.map_eq_some_iff.mp hs
  cases e with
  | activate service e tun channels =>
    cases hp
    exact h.activate hc
  | deregister service =>
    cases hp
    exact h.deregister hc
  | request service =>
    cases hp
    exact h.request hc
  | ended i =>
    simp only [LanePool.step] at hp
    split at hp
    case isTrue hi =>
      cases hp
      exact h.ended hi
    case isFalse => cases hp
  | drains stale asks =>
    simp only [LanePool.step] at hp
    split at hp
    case isTrue hticker =>
      cases hp
      exact h.drains hticker stale asks
    case isFalse => cases hp
  | look =>
    simp only [LanePool.step] at hp
    split at hp
    case isTrue hticker =>
      cases hp
      exact h.look hticker hc
    case isFalse => cases hp
  | plan => exact h.plan hp
  | retire vacant => exact h.retire hc hp
  | dial =>
    simp only [LanePool.step] at hp
    split at hp
    case h_1 taker lent hticker =>
      cases hp
      exact h.dial hticker (of_decide_eq_true hc)
    case h_2 => cases hp
  | joined i id flows =>
    obtain ⟨hk, hlender⟩ := joined_spec hp
    exact h.of_keeps hk hlender rfl
  | load i flows =>
    obtain ⟨hk, hlender⟩ := load_spec hp
    exact h.of_keeps hk hlender rfl
  | dropped service =>
    cases hp
    exact h.of_keeps ⟨rfl, rfl, rfl, rfl⟩ rfl rfl
  | device tun up =>
    cases hp
    exact h.of_keeps ⟨rfl, rfl, rfl, rfl⟩ rfl rfl
  | answer key state =>
    cases hp
    exact h.of_keeps ⟨rfl, rfl, rfl, rfl⟩ rfl rfl

end WatchedPool

/-- **The lane budget.**  In an orderly run the targets and the lanes, dialed or alive, are within
the budget in every state. -/
theorem LanePool.within_budget {lend : Bool} {s : WatchedPool}
    (h : ((watchedAllocator lend).restrict fun s e => s.orderly e = true).Reach s) :
    s.pool.WithinBudget := by
  refine (h.invariant (P := WatchedPool.Sound) ?_ ?_).withinBudget
  · rintro s rfl
    exact WatchedPool.sound_new lend
  · rintro s e s' hs ⟨hc, hstep⟩
    exact hs.step hc hstep

/-- The server asks for the replacement; then the claim that carries nothing lends one of its lanes,
and the other one's lane is dialed when that has ended. -/
def lentAndReplaced : List PoolEvent :=
  shortOfALane ++ [.request 2, .joined 3 (some 3) 0, .drains [] [], .look, .plan, .retire false,
    .ended 2, .dial]

/-- Four lanes, of which the short claim has three. -/
theorem within_budget_replaced :
    ∃ s, ((watchedAllocator true).restrict fun s e => s.orderly e = true).Reach s ∧
      s.pool.budget = 4 ∧ s.pool.lanes.length = 4 ∧ s.pool.target web = 3 ∧
      s.pool.WithinBudget := by
  have hrun : (Lts.runWith WatchedPool.step WatchedPool.orderly ⟨.new true, fun _ => 0⟩
      lentAndReplaced).any (fun s => decide (s.pool.budget = 4 ∧ s.pool.lanes.length = 4 ∧
        s.pool.target web = 3)) = true := by decide +kernel
  obtain ⟨s, hs, hend⟩ := Lts.Reach.exists_runWith (T := watchedAllocator true)
    (fun _ _ _ h => h) (fun _ _ h => h) rfl hrun
  obtain ⟨hbudget, hlanes, htarget⟩ := of_decide_eq_true hend
  exact ⟨s, hs, hbudget, hlanes, htarget, LanePool.within_budget hs⟩

end Molehill.Client
