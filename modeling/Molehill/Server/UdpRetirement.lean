/-
# The UDP worker pool: which worker is retired

The retire tick drops one worker "that has held no peer for 30 s" (`retire_idle_udp_worker`,
`core/server.rs`).  What it looks at is the spawn map: the highest id of a worker that was started
at least 30 s ago and that no route names now.  A worker whose last peer a sweep has just forgotten
is as old as it was, and the entry of a worker that ended on its own stays in the spawn map.

The pool is watched here: `seen` has every moment of the run at which a route named an id, and `log`
every retirement with what had been seen until then.

The result (`retired_idle`): where no ended worker's entry is in front, and the worker in front has
lost no route in the last 30 s, every retirement is of a live worker that no route named at any
moment of the 30 s before; at a retire tick that chooses a worker, this is also necessary
(`choice_idle_iff`).
-/
import Molehill.Server.UdpPool

namespace Molehill.Server.Udp

open Lib Function

/-! ## 1. The pool, watched -/

/-- The pool, when which id was named by a route, and the retirements with what was seen before. -/
structure Watched (Peer : Type) where
  pool : Pool Peer
  seen : List (Nat × Nat)
  log : List (Retirement × List (Nat × Nat))

namespace Watched

variable {Peer : Type} [DecidableEq Peer]

def new (maxWorkers : Nat) : Watched Peer := { pool := .new maxWorkers, seen := [], log := [] }

/-- One step of the pool, and what is seen after it. -/
def step (x : Watched Peer) (e : Event Peer) : Option (Watched Peer) :=
  (x.pool.step e).map fun p =>
    { pool := p
      seen := x.seen ++ p.named.map fun id => (p.now, id)
      log := x.log ++ (p.retirements.drop x.pool.retirements.length).map fun r => (r, x.seen) }

end Watched

/-- Every run of the pool, watched. -/
def watchedPool (Peer : Type) [DecidableEq Peer] : Lts (Watched Peer) (Event Peer) where
  init x := ∃ maxWorkers, 0 < maxWorkers ∧ x = .new maxWorkers
  step x e x' := x.step e = some x'

namespace Pool

variable {Peer : Type}

/-- **No ended worker in front**: above every id of age that no route names and that is out of the
map, there is one that is in it. -/
def noGhost (s : Pool Peer) : Bool :=
  s.retirable.all fun id => (s.workers.lookup id).isSome ||
    s.retirable.any fun id' => id < id' && (s.workers.lookup id').isSome

/-- **The worker in front is idle**: the highest such id, if it is in the map, has lost no route in
the last 30 s. -/
def frontIdle (s : Pool Peer) : Bool :=
  s.retirable.all fun id => (s.workers.lookup id).isNone || s.retirable.any (id < ·) ||
    (s.lostRoutes id).all fun t => retireAge ≤ s.now - t

/-- The retire ticks that keep the rule. -/
def retiresIdle (s : Pool Peer) : Event Peer → Bool
  | .retire => s.workers.keys.length ≤ 1 || (s.noGhost && s.frontIdle)
  | _ => true

end Pool

/-! ## 2. What is seen, and what is remembered -/

namespace Pool

variable {Peer : Type} [DecidableEq Peer] {s s' : Pool Peer} {e : Event Peer}

theorem mem_named {id : Nat} :
    id ∈ s.named ↔ ∃ peer route, s.routes.lookup peer = some route ∧ route.worker = id := by
  unfold named
  rw [List.mem_map]
  constructor
  · rintro ⟨e, he, rfl⟩
    exact ⟨e.1, e.2, AList.mem_lookup_iff.mpr he, rfl⟩
  · rintro ⟨peer, route, hr, rfl⟩
    exact ⟨⟨peer, route⟩, AList.mem_lookup_iff.mp hr, rfl⟩

/-- **What a step does to the names**: an id that is no longer named has lost its route just now,
and nothing else is forgotten. -/
structure Remembers (s s' : Pool Peer) : Prop where
  now : s.now ≤ s'.now
  named : ∀ id ∈ s.named, id ∈ s'.named ∨ s'.lostRoutes id = some s.now
  lost : ∀ id, s'.lostRoutes id = s.lostRoutes id ∨
    (s'.lostRoutes id = some s.now ∧ id ∈ s.named)

omit [DecidableEq Peer] in
theorem Remembers.of_eq (hnow : s.now ≤ s'.now) (hroutes : s'.routes = s.routes)
    (hlost : s'.lostRoutes = s.lostRoutes) : Remembers s s' := by
  refine ⟨hnow, fun id hid => .inl ?_, fun id => .inl (by rw [hlost])⟩
  rw [Pool.named, hroutes]
  exact hid

omit [DecidableEq Peer] in
theorem Remembers.of_ownMove {k : Nat} (h : OwnMove s k s') : Remembers s s' :=
  .of_eq (Nat.le_of_eq h.now.symm) h.routes h.lostRoutes

theorem remembers_reassign (s : Pool Peer) (peer : Peer) (id : Nat) :
    Remembers s (s.reassign peer id) := by
  have hroutes : (s.reassign peer id).routes =
      s.routes.insert peer { worker := id, lastSeen := s.now } := by
    unfold reassign
    cases s.routes.lookup peer <;> rfl
  have hlost : (s.reassign peer id).lostRoutes = (s.routes.lookup peer).elim s.lostRoutes
      fun route => update s.lostRoutes route.worker (some s.now) := by
    unfold reassign
    cases s.routes.lookup peer <;> rfl
  refine ⟨Nat.le_of_eq (sameSet_reassign s peer id).now.symm, ?_, ?_⟩
  · intro id' hid'
    obtain ⟨p, route, hr, rfl⟩ := mem_named.mp hid'
    by_cases hp : p = peer
    · subst hp
      right
      rw [hlost, hr, Option.elim_some, update_self]
    · left
      refine mem_named.mpr ⟨p, route, ?_, rfl⟩
      rw [hroutes, Table.lookup_insert_eq, if_neg hp, hr]
  · intro id'
    rw [hlost]
    cases hr : s.routes.lookup peer with
    | none => exact .inl rfl
    | some route =>
      rw [Option.elim_some]
      by_cases hid : id' = route.worker
      · subst hid
        exact .inr ⟨update_self .., mem_named.mpr ⟨peer, route, hr, rfl⟩⟩
      · exact .inl (update_of_ne hid ..)

theorem Routed.remembers {peer : Peer} {outcome : UdpRouteOutcome} (h : Routed s peer s' outcome) :
    Remembers s s' := by
  cases h with
  | sticky route k w hr hk hopen =>
    refine ⟨Nat.le_refl _, fun id hid => .inl ?_, fun id => .inl rfl⟩
    obtain ⟨p, route', hr', rfl⟩ := mem_named.mp hid
    have hlookup : ((s.touchRoute peer route).enqueue k w peer).routes.lookup p = _ :=
      Table.lookup_insert_eq ..
    by_cases hp : p = peer
    · subst hp
      rw [hr] at hr'
      cases hr'
      rw [if_pos rfl] at hlookup
      exact mem_named.mpr ⟨p, _, hlookup, rfl⟩
    · rw [if_neg hp] at hlookup
      exact mem_named.mpr ⟨p, route', hlookup.trans hr', rfl⟩
  | dropped _ _ => exact .of_eq (Nat.le_refl _) rfl rfl
  | noWorker => exact .of_eq (Nat.le_refl _) rfl rfl
  | refused id k w hk h => exact remembers_reassign s peer id
  | assigned id k w hk h =>
    obtain ⟨hnow, hnamed, hlost⟩ := remembers_reassign s peer id
    exact ⟨hnow, hnamed, hlost⟩

theorem remembers_sweep (s : Pool Peer) : Remembers s s.sweep := by
  have hlost : ∀ id, s.sweep.lostRoutes id =
      if s.routes.entries.any fun e => e.2.worker = id && s.expired e.2 then some s.now
      else s.lostRoutes id := fun id => rfl
  have hany : ∀ id, (s.routes.entries.any fun e => e.2.worker = id && s.expired e.2) = true ↔
      ∃ peer route, s.routes.lookup peer = some route ∧ route.worker = id ∧
        s.expired route = true := by
    intro id
    rw [List.any_eq_true]
    constructor
    · rintro ⟨e, he, hp⟩
      obtain ⟨hid, hexp⟩ := Bool.and_eq_true_iff.mp hp
      exact ⟨e.1, e.2, AList.mem_lookup_iff.mpr he, of_decide_eq_true hid, hexp⟩
    · rintro ⟨peer, route, hr, hid, hexp⟩
      exact ⟨⟨peer, route⟩, AList.mem_lookup_iff.mp hr, by simp [hid, hexp]⟩
  refine ⟨Nat.le_refl _, fun id hid => ?_, fun id => ?_⟩
  · obtain ⟨peer, route, hr, rfl⟩ := mem_named.mp hid
    by_cases hexp : s.expired route = true
    · right
      rw [hlost, if_pos ((hany _).mpr ⟨peer, route, hr, rfl, hexp⟩)]
    · left
      refine mem_named.mpr ⟨peer, route, ?_, rfl⟩
      refine (Table.lookup_filterVals _ _ _).trans ?_
      rw [hr, Option.filter_some, if_pos (by simpa using hexp)]
  · rw [hlost]
    split
    case isTrue h =>
      obtain ⟨peer, route, hr, hid, -⟩ := (hany id).mp h
      exact .inr ⟨rfl, mem_named.mpr ⟨peer, route, hr, hid⟩⟩
    case isFalse => exact .inl rfl

/-- **Every step remembers.** -/
theorem step_remembers (h : s.step e = some s') : Remembers s s' := by
  cases e with
  | datagram peer order =>
    simp only [step, Option.ite_none_right_eq_some, Option.some.injEq] at h
    obtain ⟨-, rfl⟩ := h
    obtain ⟨hnow, hnamed, hlost⟩ := (routed s peer order).remembers
    unfold noteUdpPressure
    split
    · exact ⟨hnow, hnamed, hlost⟩
    · exact ⟨hnow, hnamed, hlost⟩
  | sweep =>
    simp only [step, Option.ite_none_right_eq_some, Option.some.injEq] at h
    obtain ⟨-, rfl⟩ := h
    exact remembers_sweep s
  | pass ms =>
    cases h
    exact .of_eq (Nat.le_add_right _ _) rfl rfl
  | signal | late =>
    cases h
    exact .of_eq (Nat.le_refl _) rfl rfl
  | stop | read _ | connect _ =>
    simp only [step, Option.ite_none_right_eq_some, Option.some.injEq] at h
    obtain ⟨-, rfl⟩ := h
    exact .of_eq (Nat.le_refl _) rfl rfl
  | channel ok =>
    simp only [step, Option.ite_none_right_eq_some, Option.some.injEq] at h
    obtain ⟨-, rfl⟩ := h
    cases ok <;> exact .of_eq (Nat.le_refl _) rfl rfl
  | tick =>
    simp only [step, Option.ite_none_right_eq_some, Option.some.injEq] at h
    obtain ⟨-, rfl⟩ := h
    unfold growthCheck
    split <;> exact .of_eq (Nat.le_refl _) rfl rfl
  | retire =>
    simp only [step, Option.ite_none_right_eq_some, Option.some.injEq] at h
    obtain ⟨-, rfl⟩ := h
    unfold retireIdle
    split
    · exact .of_eq (Nat.le_refl _) rfl rfl
    · cases s.retirable.max? <;> exact .of_eq (Nat.le_refl _) rfl rfl
  | forward k => exact .of_ownMove (ownMove_forward h)
  | leave k cause => exact .of_ownMove (ownMove_leave h)
  | remove k => exact .of_ownMove (ownMove_remove h)
  | check k => exact .of_ownMove (ownMove_check h)
  | ask k => exact .of_ownMove (ownMove_ask h)

end Pool

/-! ## 3. The retire tick -/

namespace Pool

variable {Peer : Type} {s s' : Pool Peer} {e : Event Peer}

/-- The id the tick would retire. -/
def choice (s : Pool Peer) : Option Nat :=
  if s.workers.keys.length ≤ 1 then none else s.retirable.max?

theorem retireIdle_eq : s.retireIdle = s.choice.elim s s.retireId := by
  unfold retireIdle choice
  split <;> rfl

theorem choice_eq_some {id : Nat} (h : s.choice = some id) :
    1 < s.workers.keys.length ∧ id ∈ s.retirable ∧ ∀ id' ∈ s.retirable, id' ≤ id := by
  unfold choice at h
  split at h
  case isTrue => cases h
  case isFalse hlen =>
    obtain ⟨hmem, hmax⟩ := List.max?_eq_some_iff.mp h
    exact ⟨Nat.lt_of_not_le hlen, hmem, hmax⟩

theorem mem_retirable {id : Nat} :
    id ∈ s.retirable ↔ id ∉ s.named ∧ ∃ t, s.spawned.lookup id = some t ∧ retireAge ≤ s.now - t := by
  unfold retirable
  rw [List.mem_map]
  constructor
  · rintro ⟨e, he, rfl⟩
    obtain ⟨hmem, hp⟩ := List.mem_filter.mp he
    obtain ⟨hno, hage⟩ := Bool.and_eq_true_iff.mp hp
    exact ⟨by simpa using hno, e.2, AList.mem_lookup_iff.mpr hmem, of_decide_eq_true hage⟩
  · rintro ⟨hno, t, ht, hage⟩
    exact ⟨⟨id, t⟩, List.mem_filter.mpr ⟨AList.mem_lookup_iff.mp ht, by simp [hno, hage]⟩, rfl⟩

/-- **The condition at a tick that chooses a worker** says that the chosen id is in the map, and has
lost no route in the last 30 s. -/
theorem retiresIdle_iff {id : Nat} (h : s.choice = some id) :
    s.retiresIdle .retire = true ↔
      (s.workers.lookup id).isSome = true ∧
        ∀ t, s.lostRoutes id = some t → retireAge ≤ s.now - t := by
  obtain ⟨hlen, hmem, hmax⟩ := choice_eq_some h
  have habove : ∀ q : Nat → Bool, s.retirable.any (fun id' => id < id' && q id') = false := by
    intro q
    rw [List.any_eq_false]
    intro id' hid'
    have hle := hmax id' hid'
    simp only [Bool.and_eq_true, decide_eq_true_eq, not_and]
    intro hlt
    omega
  have hnot : s.retirable.any (id < ·) = false := by simpa using habove fun _ => true
  have hif : s.retiresIdle .retire = (s.noGhost && s.frontIdle) := by
    rw [retiresIdle, decide_eq_false (Nat.not_le.mpr hlen), Bool.false_or]
  rw [hif, Bool.and_eq_true]
  constructor
  · rintro ⟨hghost, hfront⟩
    have hlive := List.all_eq_true.mp hghost id hmem
    rw [habove, Bool.or_false] at hlive
    refine ⟨hlive, fun t ht => ?_⟩
    have hidle := List.all_eq_true.mp hfront id hmem
    rw [hnot, Bool.or_false, ht, Option.all_some] at hidle
    rcases Bool.or_eq_true_iff.mp hidle with hnone | hage
    · rw [Option.isSome_iff_ne_none] at hlive
      exact absurd (Option.isNone_iff_eq_none.mp hnone) hlive
    · exact of_decide_eq_true hage
  · rintro ⟨hlive, hidle⟩
    refine ⟨List.all_eq_true.mpr fun id' hid' => ?_, List.all_eq_true.mpr fun id' hid' => ?_⟩
    · rcases Nat.lt_or_ge id' id with hlt | hge
      · have hany : s.retirable.any (fun j => id' < j && (s.workers.lookup j).isSome) = true :=
          List.any_eq_true.mpr ⟨id, hmem, by simp [hlt, hlive]⟩
        rw [hany, Bool.or_true]
      · have heq : id' = id := Nat.le_antisymm (hmax id' hid') hge
        rw [heq, hlive, Bool.true_or]
    · rcases Nat.lt_or_ge id' id with hlt | hge
      · have hany : s.retirable.any (id' < ·) = true :=
          List.any_eq_true.mpr ⟨id, hmem, decide_eq_true hlt⟩
        rw [hany, Bool.or_true, Bool.true_or]
      · have heq : id' = id := Nat.le_antisymm (hmax id' hid') hge
        have hall : (s.lostRoutes id).all (fun t => retireAge ≤ s.now - t) = true := by
          rw [Option.all_eq_true]
          exact fun t ht => decide_eq_true (hidle t ht)
        rw [heq, hall, Bool.or_true]

variable [DecidableEq Peer]

/-- Only a retire tick retires, and only what it chooses. -/
theorem step_retirements (h : s.step e = some s') : s'.retirements = s.retirements ∨
    (e = .retire ∧ ∃ id, s.choice = some id ∧
      s'.retirements = s.retirements ++ [s.retirement id]) := by
  cases e with
  | retire =>
    simp only [step, Option.ite_none_right_eq_some, Option.some.injEq] at h
    obtain ⟨-, rfl⟩ := h
    dsimp only
    rw [retireIdle_eq]
    cases hc : s.choice with
    | none => exact .inl rfl
    | some id => exact .inr ⟨rfl, id, rfl, rfl⟩
  | datagram peer order =>
    simp only [step, Option.ite_none_right_eq_some, Option.some.injEq] at h
    obtain ⟨-, rfl⟩ := h
    have hsame := (routed s peer order).sameSet.retirements
    unfold noteUdpPressure
    split
    · exact .inl hsame
    · exact .inl hsame
  | pass _ | signal | late =>
    cases h
    exact .inl rfl
  | stop | read _ | connect _ | sweep =>
    simp only [step, Option.ite_none_right_eq_some, Option.some.injEq] at h
    obtain ⟨-, rfl⟩ := h
    exact .inl rfl
  | channel ok =>
    simp only [step, Option.ite_none_right_eq_some, Option.some.injEq] at h
    obtain ⟨-, rfl⟩ := h
    cases ok <;> exact .inl rfl
  | tick =>
    simp only [step, Option.ite_none_right_eq_some, Option.some.injEq] at h
    obtain ⟨-, rfl⟩ := h
    unfold growthCheck
    split <;> exact .inl rfl
  | forward k => exact .inl (ownMove_forward h).retirements
  | leave k cause => exact .inl (ownMove_leave h).retirements
  | remove k => exact .inl (ownMove_remove h).retirements
  | check k => exact .inl (ownMove_check h).retirements
  | ask k => exact .inl (ownMove_ask h).retirements

end Pool

/-! ## 4. Every retirement of every run -/

namespace Watched

variable {Peer : Type} [DecidableEq Peer] {x x' : Watched Peer} {e : Event Peer}

/-- **What was seen is remembered**: an id that was ever named is named now, or has lost its route
since; and what is named or was lost was seen. -/
structure Told (x : Watched Peer) : Prop where
  past : ∀ t id, (t, id) ∈ x.seen → t ≤ x.pool.now ∧
    (id ∈ x.pool.named ∨ ∃ t', x.pool.lostRoutes id = some t' ∧ t ≤ t')
  present : ∀ id ∈ x.pool.named, (x.pool.now, id) ∈ x.seen
  lost : ∀ id t, x.pool.lostRoutes id = some t → (t, id) ∈ x.seen

theorem Told.step (h : x.Told) (hs : x.step e = some x') : x'.Told := by
  obtain ⟨p, hp, rfl⟩ := Option.map_eq_some_iff.mp hs
  obtain ⟨hnow, hnamed, hlost⟩ := Pool.step_remembers hp
  refine ⟨fun t id hmem => ?_, fun id hid => ?_, fun id t ht => ?_⟩
  · rcases List.mem_append.mp hmem with hmem | hmem
    · obtain ⟨hle, hcases⟩ := h.past t id hmem
      refine ⟨Nat.le_trans hle hnow, ?_⟩
      rcases hcases with hid | ⟨t', ht', hle'⟩
      · rcases hnamed id hid with hid | hlost
        · exact .inl hid
        · exact .inr ⟨_, hlost, hle⟩
      · rcases hlost id with heq | ⟨heq, -⟩
        · exact .inr ⟨t', heq.trans ht', hle'⟩
        · exact .inr ⟨_, heq, hle⟩
    · obtain ⟨id', hid', heq⟩ := List.mem_map.mp hmem
      cases heq
      exact ⟨Nat.le_refl _, .inl hid'⟩
  · exact List.mem_append_right _ (List.mem_map.mpr ⟨id, hid, rfl⟩)
  · refine List.mem_append_left _ ?_
    dsimp only at ht
    rcases hlost id with heq | ⟨heq, hid⟩
    · exact h.lost id t (heq ▸ ht)
    · rw [heq] at ht
      cases ht
      exact h.present id hid

omit [DecidableEq Peer] in
/-- **The rule and the condition.**  At a retire tick that chooses an id, the id is in the map and
no route named it at any moment of the last 30 s, exactly if the condition holds. -/
theorem choice_idle_iff (h : x.Told) {id : Nat} (hc : x.pool.choice = some id) :
    ((x.pool.workers.lookup id).isSome = true ∧
      ∀ t, (t, id) ∈ x.seen → retireAge ≤ x.pool.now - t) ↔ x.pool.retiresIdle .retire = true := by
  obtain ⟨-, hmem, -⟩ := Pool.choice_eq_some hc
  obtain ⟨hno, -⟩ := Pool.mem_retirable.mp hmem
  rw [Pool.retiresIdle_iff hc]
  refine and_congr_right fun _ => ⟨fun hidle t ht => hidle t (h.lost id t ht), fun hidle t ht => ?_⟩
  rcases (h.past t id ht).2 with hid | ⟨t', ht', hle⟩
  · exact absurd hid hno
  · have hage := hidle t' ht'
    omega

/-- The rule, of one retirement and what was seen before it. -/
def Idle (entry : Retirement × List (Nat × Nat)) : Prop :=
  entry.1.worker.isSome = true ∧ ∀ t, (t, entry.1.id) ∈ entry.2 → retireAge ≤ entry.1.time - t

/-- The log has every retirement, and each kept the rule. -/
structure Kept (x : Watched Peer) : Prop where
  told : x.Told
  complete : x.log.map (·.1) = x.pool.retirements
  idle : ∀ entry ∈ x.log, Idle entry

/-- **One step** whose retirement meets the condition keeps the rule. -/
theorem Kept.step (h : x.Kept) (hc : x.pool.retiresIdle e = true) (hs : x.step e = some x') :
    x'.Kept := by
  have htold := h.told.step hs
  obtain ⟨p, hp, rfl⟩ := Option.map_eq_some_iff.mp hs
  rcases Pool.step_retirements hp with heq | ⟨rfl, id, hid, heq⟩
  · refine ⟨htold, ?_, ?_⟩
    · rw [heq, List.drop_length, List.map_nil, List.append_nil]
      exact h.complete
    · rw [heq, List.drop_length, List.map_nil, List.append_nil]
      exact h.idle
  · have hidle : Idle (x.pool.retirement id, x.seen) := (choice_idle_iff h.told hid).mpr hc
    refine ⟨htold, ?_, ?_⟩
    · rw [heq, List.drop_left, List.map_append, h.complete]
      rfl
    · rw [heq, List.drop_left]
      intro entry hmem
      rcases List.mem_append.mp hmem with hmem | hmem
      · exact h.idle entry hmem
      · rw [List.map_singleton, List.mem_singleton] at hmem
        rw [hmem]
        exact hidle

/-- **Only idle workers are retired.**  In every run whose retire ticks find no ended worker's id in
front and the worker in front without a route lost in the last 30 s: every retirement is of an id in
the worker map, and no route named it at any moment of the 30 s before. -/
theorem retired_idle
    (h : ((watchedPool Peer).restrict fun x e => x.pool.retiresIdle e = true).Reach x) :
    x.log.map (·.1) = x.pool.retirements ∧ ∀ entry ∈ x.log, entry.1.worker.isSome = true ∧
      ∀ t, (t, entry.1.id) ∈ entry.2 → retireAge ≤ entry.1.time - t := by
  have hkept : x.Kept := by
    refine h.invariant (P := fun x => x.Kept) ?_ ?_
    · rintro x ⟨maxWorkers, -, rfl⟩
      exact ⟨⟨nofun, nofun, nofun⟩, rfl, nofun⟩
    · intro x e x' hx hs
      exact hx.step hs.1 hs.2
  exact ⟨hkept.complete, hkept.idle⟩

end Watched

/-- A peer stays with worker 0, and worker 1 is retired after 30 s. -/
def idleRun : List (Event Nat) :=
  [.connect true, .channel true, .datagram 7 [0], .late, .channel true, .pass 30000, .tick, .retire]

theorem retired_idle_second :
    ∃ x : Watched Nat, ((watchedPool Nat).restrict fun x e => x.pool.retiresIdle e = true).Reach x ∧
      x.pool.retirements = [{ id := 2, worker := some 1, time := 30000 }] ∧
      x.log.map (·.1) = x.pool.retirements ∧ ∀ entry ∈ x.log, Watched.Idle entry := by
  have hrun : (Lts.runWith Watched.step (fun x e => x.pool.retiresIdle e) (.new 2 : Watched Nat)
      idleRun).any (fun x => decide (x.pool.retirements =
        [{ id := 2, worker := some 1, time := 30000 }])) = true := by
    decide +kernel
  obtain ⟨x, hx, hfacts⟩ := Lts.Reach.exists_runWith (T := watchedPool Nat)
    (C := fun x e => x.pool.retiresIdle e = true) (fun _ _ _ h => h) (fun _ _ h => h)
    (s := .new 2) ⟨2, Nat.two_pos, rfl⟩ hrun
  obtain ⟨hcomplete, hidle⟩ := Watched.retired_idle hx
  exact ⟨x, hx, of_decide_eq_true hfacts, hcomplete, hidle⟩

/-- A sweep forgets the only peer of worker 1, and the next tick retires it. -/
def forgottenRun : List (Event Nat) :=
  [.connect true, .channel true, .late, .channel true, .datagram 7 [1, 0], .pass 300000, .sweep,
    .tick, .retire]

/-- Worker 2 ends on its own, and the tick chooses its id 30 s later. -/
def ghostRun : List (Event Nat) :=
  [.connect true, .channel true, .late, .channel true, .late, .channel true, .leave 2 .lost,
    .remove 2, .check 2, .ask 2, .pass 30000, .tick, .retire]

/-- **A worker is retired at the moment its peer is forgotten**, and **a worker that ended is chosen
while two live ones are there.** -/
theorem retired_wrong :
    (∃ x : Watched Nat, (watchedPool Nat).Reach x ∧ ∃ entry ∈ x.log,
      entry.1 = { id := 1, worker := some 1, time := 300000 } ∧ (300000, 1) ∈ entry.2) ∧
    ∃ x : Watched Nat, (watchedPool Nat).Reach x ∧ ∃ entry ∈ x.log,
      entry.1 = { id := 2, worker := none, time := 30000 } := by
  have hreach : ∀ {labels : List (Event Nat)} {P : Watched Nat → Bool},
      (Lts.runWith Watched.step (fun _ _ => true) (.new 3 : Watched Nat) labels).any P = true →
      ∃ x, (watchedPool Nat).Reach x ∧ P x = true :=
    fun hrun => Lts.Reach.exists_run (fun _ _ _ hs => hs) ⟨3, Nat.succ_pos _, rfl⟩ hrun
  refine ⟨?_, ?_⟩
  · have hrun : (Lts.runWith Watched.step (fun _ _ => true) (.new 3 : Watched Nat) forgottenRun).any
        (fun x => decide (∃ entry ∈ x.log,
          entry.1 = { id := 1, worker := some 1, time := 300000 } ∧ (300000, 1) ∈ entry.2)) = true := by
      decide +kernel
    obtain ⟨x, hx, hfacts⟩ := hreach hrun
    exact ⟨x, hx, of_decide_eq_true hfacts⟩
  · have hrun : (Lts.runWith Watched.step (fun _ _ => true) (.new 3 : Watched Nat) ghostRun).any
        (fun x => decide (∃ entry ∈ x.log,
          entry.1 = { id := 2, worker := none, time := 30000 })) = true := by
      decide +kernel
    obtain ⟨x, hx, hfacts⟩ := hreach hrun
    exact ⟨x, hx, of_decide_eq_true hfacts⟩

end Molehill.Server.Udp
