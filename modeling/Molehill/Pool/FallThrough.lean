/-
# The tunnel pool: the fall-through of an open

An open that its tunnel refuses falls through to the next candidate (`TunnelPool::complete`,
`transport/multiplex.rs`): `tried` is never revisited, and what the stripe's group has already is
avoided while something else is left.  Both lists hold indices of the pool, taken once, while the
entries behind the indices come and go with every reap, repair and handover.

Every open of the pool of `Pool/Opens.lean` gets a trail here, by tunnel id: the tunnels its
group had, those it was given, those that refused it, those that served under the ceiling from its
beginning on, and whether it took a tunnel of its group while another one was left.

The result (`fallThrough_complete`): where every index an open holds stays with its tunnel, an open
is refused only after every tunnel that served under the ceiling throughout has refused it, no
tunnel is tried twice, and a tunnel of the group is taken only when no other is left; two more
refusals have to be ruled out, of a first attempt that met a full tunnel, which does not fall
through, and of a retry that finds what is left outside the group full, which never turns to the
group (`fallThrough_broken`).
-/
import Molehill.Pool.Opens

namespace Molehill.Pool

open Function Lib

/-! ## 1. The trail of an open -/

/-- The indices an open will not look at again: those it tried, with the one it is trying. -/
def Open.tried (o : Open) : List Nat :=
  match o.phase with
  | .opening r [] => [r.index]
  | .opening _ tried => tried
  | .retrying tried _ => tried
  | _ => []

/-- The tunnel an open waits for. -/
def Open.asking (o : Open) : Option Nat :=
  match o.phase with
  | .opening r _ => some r.tunnel
  | _ => none

namespace TunnelPool

/-- The tunnel behind an index. -/
def tunnelAt (p : TunnelPool) (i : Nat) : Option Nat := p.state.entries[i]?.map PoolEntry.tunnel

/-- The tunnel takes new streams. -/
def hasRoom (p : TunnelPool) (e : PoolEntry) : Bool :=
  e.phase = .serving && (p.state.load e).total < ceiling

/-- The tunnels that take new streams. -/
def roomy (p : TunnelPool) : List Nat := (p.state.entries.filter p.hasRoom).map PoolEntry.tunnel

end TunnelPool

/-- What happened to an open, by tunnel id. -/
structure Trail where
  /-- The tunnels its group had when it began. -/
  group : List Nat
  /-- The tunnels it asked for a stream, in order. -/
  attempts : List Nat
  refusals : List Nat
  /-- The tunnels that served under the ceiling from its beginning on. -/
  steady : List Nat
  /-- It asked a tunnel of its group while one outside, serving under the ceiling, was not asked. -/
  strayed : Bool
  deriving DecidableEq

namespace Trail

/-- The open begins. -/
def start (p : TunnelPool) (ids : List Nat) : Trail :=
  { group := ids.filter (· < p.nextId), attempts := [], refusals := [], steady := p.roomy,
    strayed := false }

/-- A look that gave the open tunnel `t`. -/
def ask (tr : Trail) (p : TunnelPool) (t : Nat) : Trail :=
  { tr with
    attempts := tr.attempts ++ [t]
    strayed := tr.strayed || (tr.group.contains t &&
      p.roomy.any fun t' => !tr.group.contains t' && !tr.attempts.contains t') }

def refuse (tr : Trail) (t : Nat) : Trail := { tr with refusals := tr.refusals ++ [t] }

/-- Only what still serves under the ceiling stays steady. -/
def narrow (tr : Trail) (p : TunnelPool) : Trail :=
  { tr with steady := tr.steady.filter p.roomy.contains }

end Trail

/-- The pool, with the trail of every open. -/
structure Trailed where
  pool : TunnelPool
  trails : Nat → Trail

namespace Trailed

/-- The open's tunnel, while it waits for its answer. -/
def asked (p : TunnelPool) (i : Nat) : Option Nat := p.opens[i]?.bind Open.asking

/-- What a step adds to the trails. -/
def record (x : Trailed) (l : TunnelPool.Label) (p' : TunnelPool) : Nat → Trail :=
  match l with
  | .spawn ids => update x.trails x.pool.opens.length (.start x.pool ids)
  | .proceed i => update x.trails i ((asked p' i).elim (x.trails i) ((x.trails i).ask x.pool))
  | .answer i (some _) =>
    update x.trails i ((asked x.pool i).elim (x.trails i) (x.trails i).refuse)
  | _ => x.trails

def step (x : Trailed) (l : TunnelPool.Label) : Option Trailed :=
  (x.pool.step l).map fun p' => { pool := p', trails := fun i => (x.record l p' i).narrow p' }

end Trailed

/-- **The system**: the pool and everything that happens to it, with the trails. -/
def trailedPool : Lts Trailed TunnelPool.Label where
  init x := ∃ count, x.pool = TunnelPool.new count
  step x l x' := x.step l = some x'

/-! ## 2. The condition -/

/-- **No held index changes its tunnel**: what an open that is under way avoids or has tried is
behind the same index after the step, or gone with nothing in its place. -/
def keepsPlaces (p p' : TunnelPool) : Bool :=
  p.opens.all fun o => o.finished || (o.avoid ++ o.tried).all fun i =>
    p'.tunnelAt i = p.tunnelAt i || (p'.tunnelAt i = none &&
      (p.tunnelAt i).all fun t => p'.state.entries.all fun e => e.tunnel ≠ t)

/-- A first attempt that meets a full tunnel leaves no other that served under the ceiling
throughout. -/
def notCutShort (x : Trailed) (i : Nat) (e : ConnectionError) : Bool :=
  match x.pool.opens[i]?.map Open.phase with
  | some (.opening r []) => e ≠ .tooManyStreams || (x.trails i).steady.all (· = r.tunnel)
  | _ => true

/-- A retry that still has tunnels outside its group finds one of them under the ceiling, or has no
tunnel of its group left that served under the ceiling throughout. -/
def notCornered (x : Trailed) (i : Nat) : Bool :=
  x.pool.opens[i]?.all fun o =>
    match o.phase with
    | .retrying tried _ =>
      let outside := x.pool.state.order.filter fun j => !tried.contains j && !o.avoid.contains j
      outside.isEmpty || outside.any (fun j => x.pool.state.entries[j]?.any x.pool.hasRoom) ||
        o.avoid.all fun j => tried.contains j ||
          (x.pool.tunnelAt j).all fun t => !(x.trails i).steady.contains t
    | _ => true

/-- The steps the fall-through is right about. -/
def fallsThrough (x : Trailed) (l : TunnelPool.Label) : Bool :=
  (x.pool.step l).all (keepsPlaces x.pool) &&
    match l with
    | .answer i (some e) => notCutShort x i e
    | .proceed i => notCornered x i
    | _ => true

/-! ## 3. Indices and tunnels -/

namespace TunnelPool

def tunnels (p : TunnelPool) : List Nat := p.state.entries.map PoolEntry.tunnel

theorem tunnelAt_eq (p : TunnelPool) (i : Nat) : p.tunnelAt i = p.tunnels[i]? := by
  rw [tunnelAt, tunnels, List.getElem?_map]

theorem tunnelAt_of_entry {p : TunnelPool} {i : Nat} {e : PoolEntry}
    (h : p.state.entries[i]? = some e) : p.tunnelAt i = some e.tunnel := by
  rw [tunnelAt, h]
  rfl

theorem mem_tunnels_iff {p : TunnelPool} {t : Nat} :
    t ∈ p.tunnels ↔ ∃ i, p.tunnelAt i = some t := by
  simp only [tunnelAt_eq]
  exact List.mem_iff_getElem?

theorem mem_roomy {p : TunnelPool} {t : Nat} :
    t ∈ p.roomy ↔ ∃ (i : Nat) (e : PoolEntry), p.state.entries[i]? = some e ∧ e.tunnel = t ∧
      p.hasRoom e = true := by
  simp only [roomy, List.mem_map, List.mem_filter]
  constructor
  · rintro ⟨e, ⟨he, hroom⟩, ht⟩
    obtain ⟨i, hi⟩ := List.getElem?_of_mem he
    exact ⟨i, e, hi, ht, hroom⟩
  · rintro ⟨i, e, hi, ht, hroom⟩
    exact ⟨e, ⟨List.mem_of_getElem? hi, hroom⟩, ht⟩

/-- One open moves on, and the tunnels stay as they are. -/
structure Moves (p : TunnelPool) (i : Nat) (o : Open) (phase : OpenPhase) (p' : TunnelPool) :
    Prop where
  opens : p'.opens = p.opens.set i { o with phase := phase }
  tunnels : p'.tunnels = p.tunnels
  nextId : p'.nextId = p.nextId

/-- Nothing to look at or to wait for. -/
def Quiet (phase : OpenPhase) : Prop :=
  phase = .sizing ∨ phase = .second ∨ phase = .third ∨ phase = .failed .noTunnel ∨
    phase = .failed .atCapacity

/-- **What an open's own step comes to**: it asks a tunnel it may ask, it gives up because none
is left under the ceiling, or nothing yet. -/
inductive Turn (p : TunnelPool) (o : Open) : OpenPhase → Prop
  | asks (r : Reservation) (tried : List Nat)
    (hmem : r.index ∈ p.state.candidates o.tried o.avoid)
    (htunnel : p.tunnelAt r.index = some r.tunnel)
    (htried : Open.tried ⟨o.avoid, .opening r tried⟩ = o.tried ++ [r.index]) :
    Turn p o (.opening r tried)
  | givesUp (tried : List Nat) (last : ConnectionError) (ho : o.phase = .retrying tried last)
    (hfull : ∀ j ∈ p.state.candidates tried o.avoid, Full p.state ceiling j) :
    Turn p o (.failed (.refused last))
  | quiet {phase : OpenPhase} (ho : o.tried = []) (h : Quiet phase) : Turn p o phase

/-- **A look** gives the open a tunnel it may ask, or finds none under the ceiling. -/
theorem look_cases (p : TunnelPool) (i : Nat) (o : Open) (tried : List Nat)
    (got : Reservation → OpenPhase) (refused : OpenPhase) :
    (∃ r, r.index ∈ p.state.candidates tried o.avoid ∧ p.tunnelAt r.index = some r.tunnel ∧
      Moves p i o (got r) (p.look i o tried got refused)) ∨
    ((∀ j ∈ p.state.candidates tried o.avoid, Full p.state ceiling j) ∧
      Moves p i o refused (p.look i o tried got refused)) := by
  unfold look PoolState.reserve
  cases hc : p.state.choose tried o.avoid ceiling with
  | none =>
    right
    refine ⟨?_, ⟨rfl, rfl, rfl⟩⟩
    refine reserve_none_iff.mp ?_
    rw [PoolState.reserve, hc]
  | some c =>
    obtain ⟨index, fallback⟩ := c
    have hmem := choose_mem hc
    obtain ⟨e, he, -⟩ := mem_candidates hmem
    left
    refine ⟨p.state.reservation index fallback e, hmem, tunnelAt_of_entry he, ?_⟩
    dsimp only
    rw [he]
    exact ⟨rfl, rfl, rfl⟩

theorem proceed_cases {p p' : TunnelPool} {i : Nat} {o : Open} (h : p.proceed i o = some p') :
    ∃ phase, Moves p i o phase p' ∧ Turn p o phase ∧ (∀ t, o.inFlightOn t = false) := by
  unfold proceed at h
  have hquiet : (∀ r tried, o.phase ≠ .opening r tried) → ∀ t, o.inFlightOn t = false := by
    intro hne t
    unfold Open.inFlightOn
    split
    case h_1 r tried hp => exact absurd hp (hne r tried)
    case h_2 => rfl
  split at h
  case h_1 hp =>
    cases h
    have hnil : o.tried = [] := by simp [Open.tried, hp]
    rcases look_cases p i o [] (fun r => .opening r []) .sizing with
      ⟨r, hmem, htunnel, hm⟩ | ⟨-, hm⟩
    · refine ⟨_, hm, .asks r [] (by rwa [hnil]) htunnel ?_, hquiet (by simp [hp])⟩
      rw [hnil]
      rfl
    · exact ⟨_, hm, .quiet hnil (.inl rfl), hquiet (by simp [hp])⟩
  case h_2 hp =>
    cases h
    have hnil : o.tried = [] := by simp [Open.tried, hp]
    refine ⟨_, ⟨rfl, rfl, rfl⟩, .quiet hnil ?_, hquiet (by simp [hp])⟩
    split
    · exact .inr (.inr (.inr (.inl rfl)))
    · exact .inr (.inl rfl)
  case h_3 hp =>
    cases h
    have hnil : o.tried = [] := by simp [Open.tried, hp]
    refine ⟨.third, ?_, .quiet hnil (.inr (.inr (.inl rfl))), hquiet (by simp [hp])⟩
    unfold secondLook
    rcases reserve_cases p.state [] o.avoid ceiling with hr | ⟨r, e, -, -, hr⟩
    · rw [hr]
      exact ⟨rfl, rfl, rfl⟩
    · rw [hr]
      exact ⟨rfl, rfl, rfl⟩
  case h_4 hp =>
    cases h
    have hnil : o.tried = [] := by simp [Open.tried, hp]
    rcases look_cases p i o [] (fun r => .opening r []) (.failed .atCapacity) with
      ⟨r, hmem, htunnel, hm⟩ | ⟨-, hm⟩
    · refine ⟨_, hm, .asks r [] (by rwa [hnil]) htunnel ?_, hquiet (by simp [hp])⟩
      rw [hnil]
      rfl
    · exact ⟨_, hm, .quiet hnil (.inr (.inr (.inr (.inr rfl)))), hquiet (by simp [hp])⟩
  case h_5 tried last hp =>
    cases h
    have htried : o.tried = tried := by simp [Open.tried, hp]
    rcases look_cases p i o tried (fun r => .opening r (tried ++ [r.index]))
        (.failed (.refused last)) with ⟨r, hmem, htunnel, hm⟩ | ⟨hfull, hm⟩
    · refine ⟨_, hm, .asks r _ (by rwa [htried]) htunnel ?_, hquiet (by simp [hp])⟩
      rw [htried]
      unfold Open.tried
      dsimp only
      split
      case h_1 heq => simp at heq
      case h_2 heq =>
        cases heq
        rfl
      case h_3 heq => cases heq
      case h_4 hno _ => exact absurd rfl (hno _ _)
    · exact ⟨_, hm, .givesUp tried last hp hfull, hquiet (by simp [hp])⟩
  case h_6 => cases h

/-- Where an open's answer takes it. -/
def afterAnswer (r : Reservation) (tried : List Nat) : Option ConnectionError → OpenPhase
  | none => .leased
  | some e => afterError r tried e

theorem answer_cases {p p' : TunnelPool} {i : Nat} {o : Open} {ans : Option ConnectionError}
    (h : p.answer i o ans = some p') :
    ∃ r tried, o.phase = .opening r tried ∧ Moves p i o (afterAnswer r tried ans) p' := by
  unfold answer at h
  split at h
  case h_1 r tried hp =>
    cases h
    exact ⟨r, tried, hp, rfl, rfl, rfl⟩
  case h_2 r tried e hp =>
    cases h
    refine ⟨r, tried, hp, ?_⟩
    unfold refused
    rw [noteClosed_eq]
    exact ⟨rfl, rfl, rfl⟩
  case h_3 => cases h

theorem tunnels_setTunnelPhase (p : TunnelPool) (t : Nat) (phase : TunnelPhase) :
    (p.setTunnelPhase t phase).tunnels = p.tunnels := by
  unfold tunnels setTunnelPhase setEntries
  rw [List.map_map]
  refine List.map_congr_left fun e _ => ?_
  dsimp only [Function.comp]
  split <;> rfl

/-- **What a step does to the tunnels**: it takes some out, or adds a new one at the end. -/
theorem step_tunnels {p p' : TunnelPool} {l : Label} (h : p.step l = some p') :
    (p'.tunnels.Sublist p.tunnels ∧ p'.nextId = p.nextId) ∨
      (p'.tunnels = p.tunnels ++ [p.nextId] ∧ p'.nextId = p.nextId + 1) := by
  cases l with
  | proceed i =>
    obtain ⟨o, ho, h⟩ := Option.bind_eq_some_iff.mp h
    obtain ⟨phase, hm, -⟩ := proceed_cases h
    exact .inl ⟨hm.tunnels ▸ List.Sublist.refl _, hm.nextId⟩
  | answer i ans =>
    obtain ⟨o, ho, h⟩ := Option.bind_eq_some_iff.mp h
    obtain ⟨r, tried, -, hm⟩ := answer_cases h
    exact .inl ⟨hm.tunnels ▸ List.Sublist.refl _, hm.nextId⟩
  | spawn ids =>
    cases h
    exact .inl ⟨List.Sublist.refl _, rfl⟩
  | dropLease t =>
    simp only [step, Option.ite_none_right_eq_some, Option.some.injEq] at h
    obtain ⟨-, rfl⟩ := h
    exact .inl ⟨List.Sublist.refl _, rfl⟩
  | die t =>
    cases h
    exact .inl ⟨List.Sublist.refl _, rfl⟩
  | reap =>
    cases h
    exact .inl ⟨List.filter_sublist.map _, rfl⟩
  | repair carrier =>
    simp only [step, Option.ite_none_right_eq_some, Option.some.injEq] at h
    obtain ⟨-, rfl⟩ := h
    exact .inr ⟨List.map_append, rfl⟩
  | drain t =>
    cases h
    exact .inl ⟨(tunnels_setTunnelPhase p t _) ▸ List.Sublist.refl _, rfl⟩
  | resume t =>
    cases h
    exact .inl ⟨(tunnels_setTunnelPhase p t _) ▸ List.Sublist.refl _, rfl⟩
  | retire t =>
    cases h
    exact .inl ⟨List.filter_sublist.map _, rfl⟩
  | probe carrier =>
    cases h
    exact .inl ⟨List.Sublist.refl _, rfl⟩

end TunnelPool

open TunnelPool

/-- Every tunnel of the pool has an id of its own. -/
structure Distinct (p : TunnelPool) : Prop where
  nodup : p.tunnels.Nodup
  known : ∀ t ∈ p.tunnels, t < p.nextId

theorem Distinct.step {p p' : TunnelPool} {l : TunnelPool.Label} (h : Distinct p)
    (hs : p.step l = some p') : Distinct p' := by
  rcases step_tunnels hs with ⟨hsub, hid⟩ | ⟨heq, hid⟩
  · refine ⟨h.nodup.sublist hsub, fun t ht => ?_⟩
    rw [hid]
    exact h.known t (hsub.subset ht)
  · refine ⟨?_, fun t ht => ?_⟩
    · rw [heq]
      refine List.nodup_append.mpr ⟨h.nodup, List.nodup_singleton _, ?_⟩
      rintro t ht u hu rfl
      rw [List.mem_singleton] at hu
      exact absurd (h.known t ht) (by omega)
    · rw [heq, List.mem_append, List.mem_singleton] at ht
      rw [hid]
      rcases ht with ht | rfl
      · exact Nat.lt_succ_of_lt (h.known t ht)
      · exact Nat.lt_succ_self _

theorem Distinct.tunnelAt_inj {p : TunnelPool} (h : Distinct p) {i j t : Nat}
    (hi : p.tunnelAt i = some t) (hj : p.tunnelAt j = some t) : i = j := by
  rw [tunnelAt_eq] at hi hj
  obtain ⟨hi, hit⟩ := List.getElem?_eq_some_iff.mp hi
  obtain ⟨hj, hjt⟩ := List.getElem?_eq_some_iff.mp hj
  exact (List.Nodup.getElem_inj_iff h.nodup).mp (hit.trans hjt.symm)

/-- **The indices name the tunnels**: an index of the pool is among the one exactly if its tunnel is
among the other. -/
def Names (p : TunnelPool) (indices tunnels : List Nat) : Prop :=
  ∀ i t, p.tunnelAt i = some t → (i ∈ indices ↔ t ∈ tunnels)

theorem Names.congr {p p' : TunnelPool} {indices tunnels : List Nat} (h : Names p indices tunnels)
    (heq : p'.tunnels = p.tunnels) : Names p' indices tunnels := by
  intro i t ht
  rw [tunnelAt_eq, heq, ← tunnelAt_eq] at ht
  exact h i t ht

/-- One more index, with its tunnel. -/
theorem Names.append {p : TunnelPool} (hd : Distinct p) {indices tunnels : List Nat}
    (h : Names p indices tunnels) {i t : Nat} (hi : p.tunnelAt i = some t) :
    Names p (indices ++ [i]) (tunnels ++ [t]) := by
  intro j u hj
  have heq : j = i ↔ u = t := by
    constructor
    · rintro rfl
      exact Option.some.inj (hj.symm.trans hi)
    · rintro rfl
      exact hd.tunnelAt_inj hj hi
  simp only [List.mem_append, List.mem_singleton, h j u hj, heq]

/-- **A step that keeps the places** keeps what the indices name. -/
theorem Names.step {p p' : TunnelPool} {l : TunnelPool.Label} (hd : Distinct p)
    (hs : p.step l = some p') {indices tunnels : List Nat} (h : Names p indices tunnels)
    (hknown : ∀ t ∈ tunnels, t < p.nextId)
    (hkeeps : ∀ i ∈ indices, p'.tunnelAt i = p.tunnelAt i ∨
      (p'.tunnelAt i = none ∧ ∀ t, p.tunnelAt i = some t → t ∉ p'.tunnels)) :
    Names p' indices tunnels := by
  intro i t hi
  constructor
  · intro hmem
    rcases hkeeps i hmem with heq | ⟨hnone, -⟩
    · exact (h i t (heq ▸ hi)).mp hmem
    · rw [hnone] at hi
      cases hi
  · intro hmem
    have hnew : t ∈ p'.tunnels := mem_tunnels_iff.mpr ⟨i, hi⟩
    -- an id below the counter was in the pool before the step
    have hold : t ∈ p.tunnels := by
      rcases step_tunnels hs with ⟨hsub, -⟩ | ⟨heq, -⟩
      · exact hsub.subset hnew
      · rw [heq, List.mem_append, List.mem_singleton] at hnew
        rcases hnew with hnew | rfl
        · exact hnew
        · exact absurd (hknown _ hmem) (Nat.lt_irrefl _)
    obtain ⟨j, hj⟩ := mem_tunnels_iff.mp hold
    have hjmem := (h j t hj).mpr hmem
    rcases hkeeps j hjmem with heq | ⟨-, hgone⟩
    · rw [(hd.step hs).tunnelAt_inj hi (heq.trans hj)]
      exact hjmem
    · exact absurd hnew (hgone t hj)

theorem names_indicesOf {p : TunnelPool} (hd : Distinct p) (ids : List Nat) :
    Names p (p.indicesOf ids) (ids.filter (· < p.nextId)) := by
  intro i t hi
  have hknown := hd.known t (mem_tunnels_iff.mpr ⟨i, hi⟩)
  obtain ⟨e, he, rfl⟩ := Option.map_eq_some_iff.mp hi
  obtain ⟨hlt, -⟩ := List.getElem?_eq_some_iff.mp he
  have hmem : i ∈ p.indicesOf ids ↔ e.tunnel ∈ ids := by
    rw [TunnelPool.indicesOf, List.mem_filter, he, List.mem_range]
    simp [hlt]
  rw [hmem, List.mem_filter]
  simp [hknown]

/-! ## 4. What may be asked -/

theorem mem_candidates_iff {s : PoolState} {tried avoid : List Nat} {j : Nat} :
    j ∈ s.candidates tried avoid ↔ j ∈ s.order ∧ j ∉ tried ∧
      (j ∉ avoid ∨ ∀ k ∈ s.order, k ∈ tried ∨ k ∈ avoid) := by
  have hempty : (s.order.filter fun k => !tried.contains k && !avoid.contains k).isEmpty = true ↔
      ∀ k ∈ s.order, k ∈ tried ∨ k ∈ avoid := by
    rw [List.isEmpty_iff, List.filter_eq_nil_iff]
    refine forall₂_congr fun k _ => ?_
    simp only [Bool.and_eq_true, Bool.not_eq_true', List.contains_eq_mem, decide_eq_false_iff_not]
    tauto
  unfold PoolState.candidates orderCandidatesFor
  dsimp only
  by_cases hall : ∀ k ∈ s.order, k ∈ tried ∨ k ∈ avoid
  · by_cases havoid : avoid = []
    · subst havoid
      simp
    · rw [if_pos (by rw [Bool.and_eq_true]; exact ⟨hempty.mpr hall, by simpa using havoid⟩)]
      simp only [List.mem_filter, Bool.not_eq_true', List.contains_eq_mem, decide_eq_false_iff_not]
      tauto
  · rw [if_neg (by rw [Bool.and_eq_true]; exact fun h => hall (hempty.mp h.1))]
    simp only [List.mem_filter, Bool.and_eq_true, Bool.not_eq_true', List.contains_eq_mem,
      decide_eq_false_iff_not]
    tauto

/-- A tunnel with room is in the order, and not at the ceiling. -/
theorem mem_order_of_hasRoom {p : TunnelPool} {j : Nat} {e : PoolEntry}
    (hj : p.state.entries[j]? = some e) (hroom : p.hasRoom e = true) :
    j ∈ p.state.order ∧ ¬ Full p.state ceiling j := by
  obtain ⟨hserving, hload⟩ := Bool.and_eq_true_iff.mp hroom
  refine ⟨mem_order.mpr ⟨e, hj, of_decide_eq_true hserving⟩, fun hfull => ?_⟩
  have hle := hfull (p.state.load e) (by rw [PoolState.loadAt, hj]; rfl)
  exact absurd (of_decide_eq_true hload) (Nat.not_lt.mpr hle)

/-! ## 5. The trail follows its open -/

/-- **An open under way**: its indices name the tunnels of its group and those it asked, and what it
asked has refused it or is yet to answer. -/
structure UnderWay (p : TunnelPool) (o : Open) (tr : Trail) : Prop where
  group : Names p o.avoid tr.group
  tried : Names p o.tried tr.attempts
  groupKnown : ∀ t ∈ tr.group, t < p.nextId
  attemptsKnown : ∀ t ∈ tr.attempts, t < p.nextId
  answered : ∀ t ∈ tr.attempts, t ∈ tr.refusals ∨ o.inFlightOn t = true

/-- **The trail follows the open.** -/
structure Follows (p : TunnelPool) (o : Open) (tr : Trail) : Prop where
  attempts : tr.attempts.Nodup
  strayed : tr.strayed = false
  refused : ∀ e, o.phase = .failed (.refused e) → ∀ t ∈ tr.steady, t ∈ tr.refusals
  underWay : o.finished = false → UnderWay p o tr

theorem Follows.narrow {p : TunnelPool} {o : Open} {tr : Trail} (h : Follows p o tr)
    (q : TunnelPool) : Follows p o (tr.narrow q) where
  attempts := h.attempts
  strayed := h.strayed
  refused e he t ht := h.refused e he t (List.mem_filter.mp ht).1
  underWay hfin := by
    obtain ⟨hgroup, htried, hgk, hak, hans⟩ := h.underWay hfin
    exact ⟨hgroup, htried, hgk, hak, hans⟩

/-- An open that another step leaves alone. -/
theorem Follows.keep {p p' : TunnelPool} {l : TunnelPool.Label} {o : Open} {tr : Trail}
    (hd : Distinct p) (h : Follows p o tr) (ho : o ∈ p.opens) (hs : p.step l = some p')
    (hkeeps : keepsPlaces p p' = true) : Follows p' o tr := by
  refine ⟨h.attempts, h.strayed, h.refused, fun hfin => ?_⟩
  obtain ⟨hgroup, htried, hgk, hak, hans⟩ := h.underWay hfin
  have hheld : ∀ i ∈ o.avoid ++ o.tried, p'.tunnelAt i = p.tunnelAt i ∨
      (p'.tunnelAt i = none ∧ ∀ t, p.tunnelAt i = some t → t ∉ p'.tunnels) := by
    have hall := List.all_eq_true.mp hkeeps o ho
    rw [hfin, Bool.false_or, List.all_eq_true] at hall
    intro i hi
    rcases Bool.or_eq_true_iff.mp (hall i hi) with heq | hgone
    · exact .inl (of_decide_eq_true heq)
    · obtain ⟨hnone, hgone⟩ := Bool.and_eq_true_iff.mp hgone
      refine .inr ⟨of_decide_eq_true hnone, fun t ht hmem => ?_⟩
      rw [ht, Option.all_some, List.all_eq_true] at hgone
      obtain ⟨e, he, rfl⟩ := List.mem_map.mp hmem
      exact of_decide_eq_true (hgone e he) rfl
  have hid : p.nextId ≤ p'.nextId := by
    rcases step_tunnels hs with ⟨-, hid⟩ | ⟨-, hid⟩ <;> omega
  exact ⟨hgroup.step hd hs hgk fun i hi => hheld i (List.mem_append_left _ hi),
    htried.step hd hs hak fun i hi => hheld i (List.mem_append_right _ hi),
    fun t ht => Nat.lt_of_lt_of_le (hgk t ht) hid, fun t ht => Nat.lt_of_lt_of_le (hak t ht) hid,
    hans⟩

/-- A new open. -/
theorem Follows.start {p : TunnelPool} (hd : Distinct p) (ids : List Nat) :
    Follows p ⟨p.indicesOf ids, .first⟩ (.start p ids) where
  attempts := List.nodup_nil
  strayed := rfl
  refused e he := by cases he
  underWay _ := by
    refine ⟨names_indicesOf hd ids, fun i t _ => ?_, fun t ht => ?_, nofun, nofun⟩
    · exact iff_of_false (by simp [Open.tried]) (by simp [Trail.start])
    · simpa using (List.mem_filter.mp ht).2

/-- **A look that gives the open a tunnel.** -/
theorem Follows.ask {p p' : TunnelPool} {i : Nat} {o : Open} {tr : Trail} {r : Reservation}
    {tried : List Nat} (hd : Distinct p) (h : UnderWay p o tr) (hf : Follows p o tr)
    (hm : Moves p i o (.opening r tried) p') (hquiet : ∀ t, o.inFlightOn t = false)
    (hmem : r.index ∈ p.state.candidates o.tried o.avoid)
    (htunnel : p.tunnelAt r.index = some r.tunnel)
    (htried : Open.tried ⟨o.avoid, .opening r tried⟩ = o.tried ++ [r.index]) :
    Follows p' ⟨o.avoid, .opening r tried⟩ (tr.ask p r.tunnel) := by
  obtain ⟨-, hnot, hprefers⟩ := mem_candidates_iff.mp hmem
  have hfresh : r.tunnel ∉ tr.attempts := fun hin => hnot ((h.tried _ _ htunnel).mpr hin)
  refine ⟨?_, ?_, fun e he => (by cases he), fun _ => ⟨?_, ?_, ?_, ?_, ?_⟩⟩
  · refine List.nodup_append.mpr ⟨hf.attempts, List.nodup_singleton _, ?_⟩
    rintro t ht u hu rfl
    rw [List.mem_singleton] at hu
    exact hfresh (hu ▸ ht)
  · -- a tunnel of the group is a candidate only if every other one was tried
    have hnone : (tr.group.contains r.tunnel && p.roomy.any fun t' =>
        !tr.group.contains t' && !tr.attempts.contains t') = false := by
      rw [Bool.eq_false_iff]
      intro hstray
      simp only [Bool.and_eq_true, List.contains_eq_mem, decide_eq_true_eq, List.any_eq_true,
        Bool.not_eq_true', decide_eq_false_iff_not] at hstray
      obtain ⟨hgroup, t', hroomy, hout, huntried⟩ := hstray
      obtain ⟨j, e, hj, rfl, hroom⟩ := mem_roomy.mp hroomy
      have hin : r.index ∈ o.avoid := (h.group _ _ htunnel).mpr hgroup
      rcases hprefers with hno | hall
      · exact hno hin
      · rcases hall j (mem_order_of_hasRoom hj hroom).1 with hj' | hj'
        · exact huntried ((h.tried _ _ (tunnelAt_of_entry hj)).mp hj')
        · exact hout ((h.group _ _ (tunnelAt_of_entry hj)).mp hj')
    simp only [Trail.ask, hf.strayed, Bool.false_or]
    exact hnone
  · exact h.group.congr hm.tunnels
  · rw [htried]
    exact (h.tried.append hd htunnel).congr hm.tunnels
  · rw [hm.nextId]
    exact h.groupKnown
  · intro t ht
    rw [hm.nextId]
    rcases List.mem_append.mp ht with ht | ht
    · exact h.attemptsKnown t ht
    · rw [List.mem_singleton.mp ht]
      exact hd.known _ (mem_tunnels_iff.mpr ⟨_, htunnel⟩)
  · intro t ht
    rcases List.mem_append.mp ht with ht | ht
    · rcases h.answered t ht with ht | hfl
      · exact .inl ht
      · rw [hquiet] at hfl
        cases hfl
    · rw [List.mem_singleton.mp ht]
      exact .inr (by simp [Open.inFlightOn])

/-- **A retry that gives up** has been refused by every tunnel that served under the ceiling
throughout. -/
theorem Follows.giveUp {p p' : TunnelPool} {o : Open} {tr : Trail} {tried : List Nat}
    {last : ConnectionError} (h : UnderWay p o tr) (hf : Follows p o tr)
    (hsteady : ∀ t ∈ tr.steady, t ∈ p.roomy) (ho : o.phase = .retrying tried last)
    (hfull : ∀ j ∈ p.state.candidates tried o.avoid, Full p.state ceiling j)
    (hcorner : (∃ k ∈ p.state.order, k ∉ tried ∧ k ∉ o.avoid) →
      (∀ k ∈ p.state.order, k ∉ tried → k ∉ o.avoid → Full p.state ceiling k) →
      ∀ j ∈ o.avoid, j ∉ tried → ∀ t, p.tunnelAt j = some t → t ∉ tr.steady) :
    Follows p' ⟨o.avoid, .failed (.refused last)⟩ tr := by
  refine ⟨hf.attempts, hf.strayed, fun _ _ t ht => ?_, fun hfin => (by cases hfin)⟩
  have htried : o.tried = tried := by simp [Open.tried, ho]
  have hquiet : o.inFlightOn t = false := by simp [Open.inFlightOn, ho]
  obtain ⟨j, e, hj, rfl, hroom⟩ := mem_roomy.mp (hsteady t ht)
  obtain ⟨horder, hnotFull⟩ := mem_order_of_hasRoom hj hroom
  have hat := tunnelAt_of_entry hj
  by_cases hjt : j ∈ tried
  · rcases h.answered _ ((h.tried _ _ hat).mp (htried ▸ hjt)) with hin | hfl
    · exact hin
    · rw [hquiet] at hfl
      cases hfl
  · exfalso
    -- untried and with room, so it was no candidate: it is avoided, and one outside is left
    by_cases hleft : ∀ k ∈ p.state.order, k ∈ tried ∨ k ∈ o.avoid
    · exact hnotFull (hfull j (mem_candidates_iff.mpr ⟨horder, hjt, .inr hleft⟩))
    · by_cases hja : j ∈ o.avoid
      · refine hcorner ?_ ?_ j hja hjt _ hat ht
        · by_contra hno
          refine hleft fun k hk => ?_
          by_contra hor
          rw [not_or] at hor
          exact hno ⟨k, hk, hor.1, hor.2⟩
        · exact fun k hk hkt hka => hfull k (mem_candidates_iff.mpr ⟨hk, hkt, .inl hka⟩)
      · exact hnotFull (hfull j (mem_candidates_iff.mpr ⟨horder, hjt, .inl hja⟩))

theorem Follows.congr {p p' : TunnelPool} {o : Open} {tr : Trail} (h : Follows p o tr)
    (ht : p'.tunnels = p.tunnels) (hid : p'.nextId = p.nextId) : Follows p' o tr := by
  refine ⟨h.attempts, h.strayed, h.refused, fun hfin => ?_⟩
  obtain ⟨hgroup, htried, hgk, hak, hans⟩ := h.underWay hfin
  exact ⟨hgroup.congr ht, htried.congr ht, hid ▸ hgk, hid ▸ hak, hans⟩

/-- A step of the open that asks nothing. -/
theorem Follows.quiet {p : TunnelPool} {o : Open} {tr : Trail} {phase : OpenPhase}
    (h : UnderWay p o tr) (hf : Follows p o tr) (hquiet : ∀ t, o.inFlightOn t = false)
    (ho : o.tried = []) (hphase : TunnelPool.Quiet phase) : Follows p ⟨o.avoid, phase⟩ tr := by
  have hnil : Open.tried ⟨o.avoid, phase⟩ = [] := by
    rcases hphase with rfl | rfl | rfl | rfl | rfl <;> rfl
  refine ⟨hf.attempts, hf.strayed, fun e he => ?_, fun _ => ⟨h.group, ?_, h.groupKnown,
    h.attemptsKnown, fun t ht => ?_⟩⟩
  · rcases hphase with rfl | rfl | rfl | rfl | rfl <;> cases he
  · rw [hnil, ← ho]
    exact h.tried
  · rcases h.answered t ht with ht | hfl
    · exact .inl ht
    · rw [hquiet] at hfl
      cases hfl

/-- The tunnel gave the open a stream. -/
theorem Follows.opened {p : TunnelPool} {o : Open} {tr : Trail} (hf : Follows p o tr) :
    Follows p ⟨o.avoid, .leased⟩ tr :=
  ⟨hf.attempts, hf.strayed, nofun, nofun⟩

/-- What an open has tried does not change with the answer. -/
theorem tried_afterError {avoid : List Nat} (r : Reservation) (tried : List Nat)
    (e : ConnectionError) (hgo : Open.finished ⟨avoid, afterError r tried e⟩ = false) :
    Open.tried ⟨avoid, afterError r tried e⟩ = Open.tried ⟨avoid, .opening r tried⟩ := by
  unfold afterError at hgo ⊢
  cases tried with
  | nil =>
    rw [if_pos rfl] at hgo ⊢
    split at hgo
    case isTrue => cases hgo
    case isFalse he =>
      rw [if_neg he]
      rfl
  | cons j rest => rfl

/-- **The tunnel refused the open.** -/
theorem Follows.refuse {p : TunnelPool} {o : Open} {tr : Trail} {r : Reservation} {tried : List Nat}
    {e : ConnectionError} (h : UnderWay p o tr) (hf : Follows p o tr)
    (ho : o.phase = .opening r tried)
    (hcut : tried = [] → e = .tooManyStreams → ∀ t ∈ tr.steady, t = r.tunnel) :
    Follows p ⟨o.avoid, afterError r tried e⟩ (tr.refuse r.tunnel) := by
  refine ⟨hf.attempts, hf.strayed, fun e' he' t ht => ?_, fun hgo => ⟨h.group, ?_, h.groupKnown,
    h.attemptsKnown, fun t ht => ?_⟩⟩
  · -- only a full tunnel on the first attempt ends the open here
    unfold afterError at he'
    dsimp only at he'
    split at he'
    case isTrue hnil =>
      split at he'
      case isTrue hfull =>
        rw [hcut hnil hfull t ht]
        exact List.mem_append_right _ (List.mem_singleton_self _)
      case isFalse => cases he'
    case isFalse => cases he'
  · have heq : Open.tried ⟨o.avoid, .opening r tried⟩ = o.tried := by
      unfold Open.tried
      rw [ho]
    rw [tried_afterError r tried e hgo, heq]
    exact h.tried
  · rcases h.answered t ht with ht | hfl
    · exact .inl (List.mem_append_left _ ht)
    · have hr : r.tunnel = t := by simpa [Open.inFlightOn, ho] using hfl
      rw [← hr]
      exact .inl (List.mem_append_right _ (List.mem_singleton_self _))

/-! ## 6. Every step, every run -/

/-- The trails follow the opens, and what they call steady serves under the ceiling. -/
structure Followed (x : Trailed) : Prop where
  distinct : Distinct x.pool
  follows : ∀ k o, x.pool.opens[k]? = some o → Follows x.pool o (x.trails k)
  steady : ∀ k o, x.pool.opens[k]? = some o → ∀ t ∈ (x.trails k).steady, t ∈ x.pool.roomy

/-- An open that is not the one that moved. -/
theorem Followed.others {x : Trailed} {l : TunnelPool.Label} {p' : TunnelPool} (h : Followed x)
    (hs : x.pool.step l = some p') (hkeeps : keepsPlaces x.pool p' = true) {k : Nat} {o : Open}
    (ho : x.pool.opens[k]? = some o) : Follows p' o (x.trails k) :=
  (h.follows k o ho).keep h.distinct (List.mem_of_getElem? ho) hs hkeeps

theorem getElem?_of_moves {p p' : TunnelPool} {i : Nat} {o : Open} {phase : OpenPhase}
    (ho : p.opens[i]? = some o) (hm : Moves p i o phase p') :
    p'.opens[i]? = some ⟨o.avoid, phase⟩ := by
  obtain ⟨hlt, -⟩ := List.getElem?_eq_some_iff.mp ho
  rw [hm.opens, List.getElem?_set_self hlt]

/-- **The open's own step.** -/
theorem Followed.proceed {x : Trailed} {p' : TunnelPool} {i : Nat} {o : Open} (h : Followed x)
    (ho : x.pool.opens[i]? = some o) (hs : x.pool.proceed i o = some p')
    (hcorner : notCornered x i = true) :
    ∃ phase, Moves x.pool i o phase p' ∧ Follows p' ⟨o.avoid, phase⟩
      ((Trailed.asked p' i).elim (x.trails i) ((x.trails i).ask x.pool)) := by
  obtain ⟨phase, hm, hturn, hquiet⟩ := proceed_cases hs
  have hfin : o.finished = false := by
    unfold TunnelPool.proceed at hs
    unfold Open.finished
    split
    case h_1 hp =>
      rw [hp] at hs
      cases hs
    case h_2 hp =>
      rw [hp] at hs
      cases hs
    case h_3 => rfl
  have hf := h.follows i o ho
  have hway := hf.underWay hfin
  refine ⟨phase, hm, ?_⟩
  rw [Trailed.asked, getElem?_of_moves ho hm, Option.bind_some]
  cases hturn with
  | asks r tried hmem htunnel htried =>
    exact Follows.ask h.distinct hway hf hm hquiet hmem htunnel htried
  | givesUp tried last hphase hfull =>
    refine Follows.giveUp hway hf (h.steady i o ho) hphase hfull ?_
    rintro ⟨k, hk, hkt, hka⟩ hall j hja hjt t hat hsteady
    simp only [notCornered, ho, Option.all_some, hphase, Bool.or_eq_true] at hcorner
    rcases hcorner with (hempty | hany) | havoid
    · rw [List.isEmpty_iff, List.filter_eq_nil_iff] at hempty
      exact hempty k hk (by simp [hkt, hka])
    · obtain ⟨k', hk', hroom⟩ := List.any_eq_true.mp hany
      obtain ⟨e, he, hroom⟩ := (Option.any_eq_true ..).mp hroom
      obtain ⟨hk', hout⟩ := List.mem_filter.mp hk'
      simp only [Bool.and_eq_true, Bool.not_eq_true', List.contains_eq_mem,
        decide_eq_false_iff_not] at hout
      exact (mem_order_of_hasRoom he hroom).2 (hall k' hk' hout.1 hout.2)
    · have hj := List.all_eq_true.mp havoid j hja
      rw [hat] at hj
      simp only [List.contains_eq_mem, hjt, decide_false, Bool.false_or, Option.all_some,
        Bool.not_eq_true', decide_eq_false_iff_not] at hj
      exact hj hsteady
  | quiet htried hphase =>
    have hnone : Open.asking ⟨o.avoid, phase⟩ = none := by
      rcases hphase with rfl | rfl | rfl | rfl | rfl <;> rfl
    rw [hnone]
    exact (Follows.quiet hway hf hquiet htried hphase).congr hm.tunnels hm.nextId

/-- **The answer to an open.** -/
theorem Followed.answer {x : Trailed} {p' : TunnelPool} {i : Nat} {o : Open}
    {ans : Option ConnectionError} (h : Followed x) (ho : x.pool.opens[i]? = some o)
    (hs : x.pool.answer i o ans = some p')
    (hcut : ∀ e, ans = some e → notCutShort x i e = true) :
    ∃ phase, Moves x.pool i o phase p' ∧
      Follows p' ⟨o.avoid, phase⟩ (x.record (.answer i ans) p' i) := by
  obtain ⟨r, tried, hphase, hm⟩ := answer_cases hs
  have hf := h.follows i o ho
  refine ⟨_, hm, ?_⟩
  cases ans with
  | none => exact hf.opened.congr hm.tunnels hm.nextId
  | some e =>
    have hasked : Trailed.asked x.pool i = some r.tunnel := by
      rw [Trailed.asked, ho, Option.bind_some, Open.asking, hphase]
    have hway := hf.underWay (by rw [Open.finished, hphase])
    have hrecord : x.record (.answer i (some e)) p' i = (x.trails i).refuse r.tunnel := by
      simp only [Trailed.record, update_self, hasked]
      rfl
    rw [hrecord]
    refine (Follows.refuse hway hf hphase ?_).congr hm.tunnels hm.nextId
    rintro rfl rfl t ht
    have hall := hcut _ rfl
    rw [notCutShort, ho, Option.map_some, hphase] at hall
    simp only [ne_eq, not_true_eq_false, decide_false, Bool.false_or, List.all_eq_true,
      decide_eq_true_eq] at hall
    exact hall t ht

/-- A step of the pool's own leaves the opens alone. -/
theorem step_opens {p p' : TunnelPool} {l : TunnelPool.Label} (hs : p.step l = some p')
    (hspawn : ∀ ids, l ≠ .spawn ids) (hproceed : ∀ i, l ≠ .proceed i)
    (hanswer : ∀ i ans, l ≠ .answer i ans) : p'.opens = p.opens := by
  cases l with
  | spawn ids => exact absurd rfl (hspawn ids)
  | proceed i => exact absurd rfl (hproceed i)
  | answer i ans => exact absurd rfl (hanswer i ans)
  | dropLease t =>
    simp only [TunnelPool.step, Option.ite_none_right_eq_some, Option.some.injEq] at hs
    obtain ⟨-, rfl⟩ := hs
    rfl
  | repair carrier =>
    simp only [TunnelPool.step, Option.ite_none_right_eq_some, Option.some.injEq] at hs
    obtain ⟨-, rfl⟩ := hs
    rfl
  | die t =>
    cases hs
    rfl
  | reap =>
    cases hs
    rfl
  | drain t =>
    cases hs
    rfl
  | resume t =>
    cases hs
    rfl
  | retire t =>
    cases hs
    rfl
  | probe carrier =>
    cases hs
    rfl

/-- One open moved, and every other is as before. -/
theorem Followed.moved {x : Trailed} {l : TunnelPool.Label} {p' : TunnelPool} {i : Nat} {o : Open}
    {phase : OpenPhase} {tr : Trail} (h : Followed x) (hs : x.pool.step l = some p')
    (hkeeps : keepsPlaces x.pool p' = true) (ho : x.pool.opens[i]? = some o)
    (hm : Moves x.pool i o phase p') (hf : Follows p' ⟨o.avoid, phase⟩ tr) {k : Nat} {o' : Open}
    (ho' : p'.opens[k]? = some o') : Follows p' o' (update x.trails i tr k) := by
  by_cases hk : k = i
  · subst hk
    rw [getElem?_of_moves ho hm] at ho'
    cases ho'
    rwa [update_self]
  · rw [hm.opens, List.getElem?_set_ne (Ne.symm hk)] at ho'
    rw [update_of_ne hk]
    exact h.others hs hkeeps ho'

/-- **What one step records** follows the opens. -/
theorem Followed.record {x : Trailed} {l : TunnelPool.Label} {p' : TunnelPool} (h : Followed x)
    (hs : x.pool.step l = some p') (hc : fallsThrough x l = true) {k : Nat} {o' : Open}
    (ho' : p'.opens[k]? = some o') : Follows p' o' (x.record l p' k) := by
  obtain ⟨hkeeps, hc⟩ := Bool.and_eq_true_iff.mp hc
  rw [hs, Option.all_some] at hkeeps
  cases l with
  | proceed i =>
    obtain ⟨o, ho, hown⟩ := Option.bind_eq_some_iff.mp hs
    obtain ⟨phase, hm, hf⟩ := h.proceed ho hown hc
    exact h.moved hs hkeeps ho hm hf ho'
  | answer i ans =>
    obtain ⟨o, ho, hown⟩ := Option.bind_eq_some_iff.mp hs
    obtain ⟨phase, hm, hf⟩ := h.answer ho hown (by rintro e rfl; exact hc)
    have hmoved := h.moved hs hkeeps ho hm hf ho'
    have heq : update x.trails i (x.record (.answer i ans) p' i) = x.record (.answer i ans) p' := by
      cases ans with
      | none => exact update_eq_self i x.trails
      | some e =>
        dsimp only [Trailed.record]
        rw [update_self]
    rwa [heq] at hmoved
  | spawn ids =>
    have hs' := hs
    cases hs'
    dsimp only [Trailed.record]
    rcases Nat.lt_trichotomy k x.pool.opens.length with hlt | rfl | hgt
    · rw [List.getElem?_append_left hlt] at ho'
      rw [update_of_ne (Nat.ne_of_lt hlt)]
      exact h.others hs hkeeps ho'
    · rw [List.getElem?_concat_length] at ho'
      cases ho'
      rw [update_self]
      exact (Follows.start h.distinct ids).congr rfl rfl
    · rw [List.getElem?_eq_none (by rw [List.length_append]; exact hgt)] at ho'
      cases ho'
  | dropLease t | die t | reap | repair carrier | drain t | resume t | retire t | probe carrier =>
    rw [step_opens hs nofun nofun nofun] at ho'
    exact h.others hs hkeeps ho'

/-- **One step** keeps the trails with their opens. -/
theorem Followed.step {x x' : Trailed} {l : TunnelPool.Label} (h : Followed x)
    (hs : x.step l = some x') (hc : fallsThrough x l = true) : Followed x' := by
  obtain ⟨p', hp, rfl⟩ := Option.map_eq_some_iff.mp hs
  refine ⟨h.distinct.step hp, fun k o ho => ?_, fun k o _ t ht => ?_⟩
  · exact (h.record hp hc ho).narrow p'
  · simpa using (List.mem_filter.mp ht).2

theorem followed {x : Trailed}
    (h : (trailedPool.restrict fun x l => fallsThrough x l = true).Reach x) :
    Followed x := by
  refine h.invariant (P := Followed) ?_ ?_
  · rintro ⟨p, trails⟩ ⟨count, rfl⟩
    refine ⟨⟨List.nodup_nil, nofun⟩, ?_, ?_⟩
    · intro k o ho
      simp [TunnelPool.new] at ho
    · intro k o ho
      simp [TunnelPool.new] at ho
  · intro x l x' hx hs
    exact hx.step hs.2 hs.1

/-- **The fall-through is complete and never repeats.**  In every run in which no index that an open
under way holds changes its tunnel, no first attempt ends at a full tunnel while another served
under the ceiling throughout, and no retry is cornered outside its group: an open that was refused
was refused by every tunnel that served under the ceiling from its beginning on; no open asks a
tunnel twice; and no open asks a tunnel of its group while one outside, serving under the ceiling,
has not been asked. -/
theorem fallThrough_complete {x : Trailed}
    (h : (trailedPool.restrict fun x l => fallsThrough x l = true).Reach x) (i : Nat) (o : Open)
    (ho : x.pool.opens[i]? = some o) :
    (∀ e, o.phase = .failed (.refused e) → ∀ t ∈ (x.trails i).steady, t ∈ (x.trails i).refusals) ∧
      (x.trails i).attempts.Nodup ∧ (x.trails i).strayed = false := by
  have hf := (followed h).follows i o ho
  exact ⟨hf.refused, hf.attempts, hf.strayed⟩

/-- A pool without a past. -/
def Trailed.new (count : Nat) : Trailed :=
  { pool := .new count, trails := fun _ => .start (.new count) [] }

/-- A stripe of a group that has the first of three tunnels is refused by the other two, and then by
that one. -/
def refusedStripe : List TunnelPool.Label :=
  [.repair .tcp, .repair .tcp, .repair .tcp, .spawn [0], .proceed 0, .answer 0 (some .io), .proceed 0,
    .answer 0 (some .closed), .proceed 0, .answer 0 (some .io), .proceed 0]

theorem fallThrough_complete_refusedStripe :
    ∃ x, (trailedPool.restrict fun x l => fallsThrough x l = true).Reach x ∧
      (x.trails 0).attempts = [1, 2, 0] ∧ (∀ t ∈ [0, 1, 2], t ∈ (x.trails 0).refusals) ∧
      (x.trails 0).strayed = false := by
  have hrun : (Lts.runWith Trailed.step fallsThrough (.new 3) refusedStripe).any (fun x =>
      x.pool.opens[0]?.any (fun o => o.phase = .failed (.refused .io)) &&
        decide ((x.trails 0).attempts = [1, 2, 0] ∧ (x.trails 0).steady = [0, 1, 2])) = true := by
    decide +kernel
  obtain ⟨x, hx, hfacts⟩ := Lts.Reach.exists_runWith (T := trailedPool)
    (C := fun x l => fallsThrough x l = true) (fun _ _ _ hs => hs) (fun _ _ hc => hc)
    (s := .new 3) ⟨3, rfl⟩ hrun
  obtain ⟨hopen, hfacts⟩ := Bool.and_eq_true_iff.mp hfacts
  obtain ⟨o, ho, hphase⟩ := (Option.any_eq_true ..).mp hopen
  obtain ⟨hattempts, hsteady⟩ := of_decide_eq_true hfacts
  obtain ⟨hrefused, -, hstrayed⟩ := fallThrough_complete hx 0 o ho
  refine ⟨x, hx, hattempts, fun t ht => ?_, hstrayed⟩
  exact hrefused .io (of_decide_eq_true hphase) t (hsteady ▸ ht)

/-! ## 7. Where it fails -/

/-- The first attempt meets a full tunnel, and the other one is never asked. -/
def cutShort : List TunnelPool.Label :=
  [.repair .tcp, .repair .tcp, .spawn [], .proceed 0, .answer 0 (some .tooManyStreams)]

/-- The tunnel before the one that refused is reaped, and the index that was tried is gone. -/
def askedTwice : List TunnelPool.Label :=
  [.repair .tcp, .repair .tcp, .spawn [], .proceed 0, .answer 0 none, .spawn [], .proceed 1,
    .answer 1 (some .io), .die 0, .reap, .proceed 1]

/-- A tunnel of the group is reaped, and the repair puts a new one behind the avoided index. -/
def strayedStripe : List TunnelPool.Label :=
  [.repair .tcp, .repair .tcp, .repair .tcp, .spawn [1, 2], .proceed 0, .answer 0 (some .io), .die 2,
    .reap, .repair .tcp, .proceed 0]

/-- **The fall-through breaks in three ways**: an open is refused although tunnel 1 served under the
ceiling throughout and was not asked; an open asks tunnel 1 twice; and a stripe asks tunnel 1 of its
group while the new tunnel outside is there. -/
theorem fallThrough_broken :
    (∃ x, trailedPool.Reach x ∧ 1 ∈ (x.trails 0).steady ∧ 1 ∉ (x.trails 0).refusals ∧
      x.pool.opens[0]?.map Open.phase = some (.failed (.refused .tooManyStreams))) ∧
    (∃ x, trailedPool.Reach x ∧ (x.trails 1).attempts = [1, 1]) ∧
    (∃ x, trailedPool.Reach x ∧ (x.trails 0).strayed = true ∧ x.pool.roomy = [0, 1, 3] ∧
      (x.trails 0).attempts = [0, 1] ∧ (x.trails 0).group = [1, 2]) := by
  have hreach : ∀ {count : Nat} {labels : List TunnelPool.Label} {P : Trailed → Bool},
      (Lts.runWith Trailed.step (fun _ _ => true) (.new count) labels).any P = true →
      ∃ x, trailedPool.Reach x ∧ P x = true :=
    fun hrun => Lts.Reach.exists_run (fun _ _ _ hs => hs) ⟨_, rfl⟩ hrun
  refine ⟨?_, ?_, ?_⟩
  · have hrun : (Lts.runWith Trailed.step (fun _ _ => true) (.new 2) cutShort).any (fun x =>
        decide (1 ∈ (x.trails 0).steady ∧ 1 ∉ (x.trails 0).refusals ∧
          x.pool.opens[0]?.map Open.phase = some (.failed (.refused .tooManyStreams)))) = true := by
      decide +kernel
    obtain ⟨x, hx, hfacts⟩ := hreach hrun
    exact ⟨x, hx, of_decide_eq_true hfacts⟩
  · have hrun : (Lts.runWith Trailed.step (fun _ _ => true) (.new 2) askedTwice).any (fun x =>
        decide ((x.trails 1).attempts = [1, 1])) = true := by
      decide +kernel
    obtain ⟨x, hx, hfacts⟩ := hreach hrun
    exact ⟨x, hx, of_decide_eq_true hfacts⟩
  · have hrun : (Lts.runWith Trailed.step (fun _ _ => true) (.new 3) strayedStripe).any (fun x =>
        decide ((x.trails 0).strayed = true ∧ x.pool.roomy = [0, 1, 3] ∧
          (x.trails 0).attempts = [0, 1] ∧ (x.trails 0).group = [1, 2])) = true := by
      decide +kernel
    obtain ⟨x, hx, hfacts⟩ := hreach hrun
    exact ⟨x, hx, of_decide_eq_true hfacts⟩

end Molehill.Pool
