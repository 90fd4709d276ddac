/-
# The tunnel pool: what a handover finds

`handover_step` takes the draining tunnel out of the pool when it has read no streams, no pending
opens and no pins of it; and a dial that comes back completes the handover.  The counters count
what they are meant to (`Counted`), and what was read as zero still is when the tunnel goes
(`Current`), unless somebody was in the way.

Two can be.  An open that is answered between the two reads of the counters is seen by neither: its
stream is counted after the streams were read, and its reservation is gone when the pending opens
are.  Its tunnel is taken out under it (`stream_removed`).  And the handover is taken to be over
when a dial comes back and any tunnel rides the target, so that a dial that was begun for the other
carrier completes it (`replaced_on_source`).  `handover_safe` is the result for the runs in which
nobody is in the way.
-/
import Mathlib.Data.List.Perm.Basic
import Molehill.Pool.Handover

namespace Molehill.Pool

open Function Lib

namespace CarrierPool

variable {s s' : CarrierPool}

/-! ## 1. What the counters count -/

/-- The opens in flight on a tunnel, and those of them whose stream is counted. -/
def inFlight (s : CarrierPool) (t : Nat) : Nat := s.flights.countP fun f => f.tunnel = t

def answered (s : CarrierPool) (t : Nat) : Nat :=
  s.flights.countP fun f => f.tunnel = t ∧ f.counted = true

/-- **The counters count** the opens in flight and the streams that are leased or answered. -/
structure Counted (s : CarrierPool) : Prop where
  pending : ∀ t, (s.state.counters t).pending = s.inFlight t
  streams : ∀ t, (s.state.counters t).streams = s.leases.count t + s.answered t

/-- One operation on one tunnel's counters: the others' flights and leases are as before. -/
theorem Counted.touch (hs : Counted s) {t : Nat} {f : TunnelCounters → TunnelCounters}
    (hcounters : s'.state.counters = update s.state.counters t (f (s.state.counters t)))
    (hother : ∀ u, u ≠ t → s'.inFlight u = s.inFlight u ∧ s'.answered u = s.answered u ∧
      s'.leases.count u = s.leases.count u)
    (hpending : (f (s.state.counters t)).pending = s'.inFlight t)
    (hstreams : (f (s.state.counters t)).streams = s'.leases.count t + s'.answered t) :
    Counted s' := by
  constructor
  · intro u
    rw [hcounters]
    by_cases hu : u = t
    · subst hu
      rw [update_self]
      exact hpending
    · rw [update_of_ne hu, (hother u hu).1]
      exact hs.pending u
  · intro u
    rw [hcounters]
    by_cases hu : u = t
    · subst hu
      rw [update_self]
      exact hstreams
    · obtain ⟨-, hanswered, hleases⟩ := hother u hu
      rw [update_of_ne hu, hanswered, hleases]
      exact hs.streams u

/-- The flight an index names, and the rest. -/
theorem flights_perm {i : Nat} {f : Flight} (h : s.flights[i]? = some f) :
    s.flights.Perm (f :: s.flights.eraseIdx i) := by
  obtain ⟨hi, rfl⟩ := List.getElem?_eq_some_iff.mp h
  exact (List.getElem_cons_eraseIdx_perm hi).symm

theorem flights_set_perm {i : Nat} {f : Flight} (h : s.flights[i]? = some f) (f' : Flight) :
    (s.flights.set i f').Perm (f' :: s.flights.eraseIdx i) :=
  List.set_perm_cons_eraseIdx (List.getElem?_eq_some_iff.mp h).1 f'

/-- What is counted of the flights, with one of them in front. -/
theorem inFlight_of_perm {f : Flight} {rest : List Flight} (h : s.flights.Perm (f :: rest))
    (t : Nat) :
    s.inFlight t = rest.countP (fun f => f.tunnel = t) + (if f.tunnel = t then 1 else 0) ∧
      s.answered t = rest.countP (fun f => f.tunnel = t ∧ f.counted = true) +
        if f.tunnel = t ∧ f.counted = true then 1 else 0 := by
  constructor
  · rw [inFlight, h.countP_eq, List.countP_cons]
    simp
  · rw [answered, h.countP_eq, List.countP_cons]
    simp

theorem Counted.opened (hs : Counted s) {i : Nat} (h : s.opened i = some s') : Counted s' := by
  obtain ⟨t, hf, rfl⟩ := opened_spec h
  have hold := inFlight_of_perm (flights_perm hf)
  have hnew := inFlight_of_perm (s := { s with
    state := s.state.touch t fun c => { c with streams := c.streams + 1 }
    flights := s.flights.set i ⟨t, true⟩ }) (flights_set_perm hf ⟨t, true⟩)
  have hpending := hs.pending t
  have hstreams := hs.streams t
  refine hs.touch (t := t) (f := fun c => { c with streams := c.streams + 1 }) rfl ?_ ?_ ?_
  · intro u hu
    obtain ⟨ho, ha⟩ := hold u
    obtain ⟨ho', ha'⟩ := hnew u
    simp only [Ne.symm hu, if_false, false_and] at ho ha ho' ha'
    exact ⟨ho'.trans ho.symm, ha'.trans ha.symm, rfl⟩
  · rw [(hnew t).1]
    rw [(hold t).1] at hpending
    exact hpending
  · rw [(hnew t).2]
    rw [(hold t).2] at hstreams
    simp at hstreams ⊢
    omega

/-- An open lands: its reservation is let go, and what it adds to the leases is what it was counted
for. -/
theorem Counted.land (hs : Counted s) {i t : Nat} {counted : Bool}
    (hf : s.flights[i]? = some ⟨t, counted⟩)
    (hcounters : s'.state.counters =
      update s.state.counters t (TunnelCounters.release (s.state.counters t)))
    (hflights : s'.flights = s.flights.eraseIdx i)
    (hleases : s'.leases = if counted then t :: s.leases else s.leases) : Counted s' := by
  have hold := inFlight_of_perm (flights_perm hf)
  have hpending := hs.pending t
  have hstreams := hs.streams t
  rw [(hold t).1] at hpending
  rw [(hold t).2] at hstreams
  refine hs.touch (t := t) (f := TunnelCounters.release) hcounters ?_ ?_ ?_
  · intro u hu
    obtain ⟨ho, ha⟩ := hold u
    simp only [Ne.symm hu, if_false, false_and, Nat.add_zero] at ho ha
    rw [inFlight, answered, hflights, hleases]
    refine ⟨ho.symm, ha.symm, ?_⟩
    split
    · exact List.count_cons_of_ne (Ne.symm hu)
    · rfl
  · rw [inFlight, hflights, TunnelCounters.release, hpending]
    simp
  · rw [answered, hflights, hleases, TunnelCounters.release, hstreams]
    cases counted
    · simp
    · simp only [if_true, List.count_cons_self, and_self]
      omega

theorem Counted.place (hs : Counted s) (tried avoid : List Nat) :
    Counted (s.place tried avoid) := by
  rcases place_cases s tried avoid with hnone | ⟨e, -, -, hsome⟩
  · rw [hnone]
    exact ⟨hs.pending, hs.streams⟩
  · rw [hsome]
    have hnew := inFlight_of_perm (s := { s with
      state := s.state.charged e
      flights := s.flights ++ [⟨e.tunnel, false⟩] }) (List.perm_append_singleton ..)
    refine hs.touch (t := e.tunnel) (f := TunnelCounters.reserve) rfl ?_ ?_ ?_
    · intro u hu
      obtain ⟨ho, ha⟩ := hnew u
      simp only [Ne.symm hu, if_false, false_and, Nat.add_zero] at ho ha
      exact ⟨ho, ha, rfl⟩
    · rw [(hnew e.tunnel).1, TunnelCounters.reserve, hs.pending]
      simp [inFlight]
    · rw [(hnew e.tunnel).2, TunnelCounters.reserve, hs.streams]
      simp [answered]

theorem Counted.dropLease (hs : Counted s) {t : Nat} (h : s.dropLease t = some s') :
    Counted s' := by
  obtain ⟨ht, rfl⟩ := dropLease_spec h
  have hpos : 0 < s.leases.count t := List.count_pos_iff.mpr ht
  refine hs.touch (t := t) (f := TunnelCounters.retire) rfl ?_ (hs.pending t) ?_
  · intro u hu
    exact ⟨rfl, rfl, List.count_erase_of_ne hu⟩
  · change (s.state.counters t).streams - 1 = (s.leases.erase t).count t + s.answered t
    rw [hs.streams, List.count_erase_self]
    omega

/-- The maintenance of the pool leaves what is counted. -/
structure Uncounted (s s' : CarrierPool) : Prop where
  counters : s'.state.counters = s.state.counters
  flights : s'.flights = s.flights
  leases : s'.leases = s.leases

theorem Counted.congr (hs : Counted s) (h : Uncounted s s') : Counted s' := by
  refine ⟨fun t => ?_, fun t => ?_⟩
  · rw [h.counters, inFlight, h.flights]
    exact hs.pending t
  · rw [h.counters, answered, h.flights, h.leases]
    exact hs.streams t

theorem uncounted_beginHandoverOn (s : CarrierPool) (source target : Carrier)
    (preferred : Option Nat) : Uncounted s (s.beginHandoverOn source target preferred) := by
  unfold CarrierPool.beginHandoverOn
  split
  · exact ⟨rfl, rfl, rfl⟩
  · split
    · exact ⟨rfl, rfl, rfl⟩
    · exact ⟨rfl, rfl, rfl⟩

theorem uncounted_handoverStep (s : CarrierPool) (late : Bool) :
    Uncounted s (s.handoverStep late) := by
  unfold CarrierPool.handoverStep
  split
  · exact ⟨rfl, rfl, rfl⟩
  · split
    · exact ⟨rfl, rfl, rfl⟩
    · exact ⟨rfl, rfl, rfl⟩
    · exact ⟨rfl, rfl, rfl⟩
    · split
      · split
        · exact ⟨rfl, rfl, rfl⟩
        · exact ⟨rfl, rfl, rfl⟩
      · exact ⟨rfl, rfl, rfl⟩

/-- What a read does: one more value is known, of the counters and pins of now. -/
theorem read_cases (h : s.read = some s') :
    ∃ t, (s.look = .streams t ∧ s' = { s with look := .pending t (s.state.counters t).streams }) ∨
      (∃ streams, s.look = .pending t streams ∧
        s' = { s with look := .pins t streams (s.state.counters t).pending }) ∨
      ∃ streams pending, s.look = .pins t streams pending ∧
        s' = { s with look := .all t streams pending (s.pinned t) } := by
  unfold CarrierPool.read at h
  split at h
  case h_1 t hlook =>
    cases h
    exact ⟨t, .inl ⟨hlook, rfl⟩⟩
  case h_2 t streams hlook =>
    cases h
    exact ⟨t, .inr (.inl ⟨streams, hlook, rfl⟩)⟩
  case h_3 t streams pending hlook =>
    cases h
    exact ⟨t, .inr (.inr ⟨streams, pending, hlook, rfl⟩)⟩
  case h_4 => cases h

/-- What the end of `handover_step` does: a tunnel that was read empty goes, else nothing does. -/
theorem finish_cases (h : s.finish = some s') :
    (∃ t, s.look = .all t 0 0 0 ∧ s'.entries = s.entries.filter (fun e => e.tunnel ≠ t) ∧
      s'.look = .done ∧ Uncounted s s') ∨
      s' = { s with look := .done } := by
  unfold CarrierPool.finish at h
  split at h
  case h_1 t streams pending pins hlook =>
    split at h
    case isTrue hzero =>
      obtain ⟨rfl, rfl, rfl⟩ := hzero
      cases h
      exact .inl ⟨t, hlook, rfl, rfl, rfl, rfl, rfl⟩
    case isFalse =>
      cases h
      exact .inr rfl
  case h_2 => cases h

theorem uncounted_dialed {ok : Bool} (h : s.dialed ok = some s') : Uncounted s s' := by
  rcases dialed_cases h with ⟨carrier, -, -, -, ⟨-, rfl⟩ | ⟨-, rfl⟩⟩ | rfl
  · exact ⟨rfl, rfl, rfl⟩
  · exact ⟨rfl, rfl, rfl⟩
  · exact ⟨rfl, rfl, rfl⟩

/-- **One step keeps the count.** -/
theorem Counted.step (hs : Counted s) {e : MoveEvent} (h : s.step e = some s') : Counted s' := by
  obtain ⟨-, hact⟩ := step_spec h
  cases e with
  | beginHandover source target preferred =>
    cases hact
    exact hs.congr (uncounted_beginHandoverOn ..)
  | handover late =>
    cases hact
    exact hs.congr (uncounted_handoverStep ..)
  | read =>
    obtain ⟨t, ⟨-, rfl⟩ | ⟨streams, -, rfl⟩ | ⟨streams, pending, -, rfl⟩⟩ := read_cases hact
    · exact hs.congr ⟨rfl, rfl, rfl⟩
    · exact hs.congr ⟨rfl, rfl, rfl⟩
    · exact hs.congr ⟨rfl, rfl, rfl⟩
  | finish =>
    rcases finish_cases hact with ⟨t, -, -, -, hsame⟩ | rfl
    · exact hs.congr hsame
    · exact hs.congr ⟨rfl, rfl, rfl⟩
  | grow preferred =>
    obtain rfl := grow_spec hact
    exact hs.congr ⟨rfl, rfl, rfl⟩
  | dialed ok => exact hs.congr (uncounted_dialed hact)
  | reap =>
    cases hact
    exact hs.congr ⟨rfl, rfl, rfl⟩
  | place tried avoid =>
    cases hact
    exact hs.place tried avoid
  | opened i => exact hs.opened hact
  | settled i =>
    obtain ⟨t, hf, rfl⟩ := settled_spec hact
    exact hs.land hf rfl rfl rfl
  | refused i closed =>
    obtain ⟨t, hf, rfl⟩ := refused_spec hact
    exact hs.land hf rfl rfl rfl
  | dropLease t => exact hs.dropLease hact
  | pin t n =>
    cases hact
    exact hs.congr ⟨rfl, rfl, rfl⟩
  | die t =>
    cases hact
    exact hs.congr ⟨rfl, rfl, rfl⟩
  | probe carrier =>
    cases hact
    exact hs.congr ⟨rfl, rfl, rfl⟩

theorem counted {s : CarrierPool} (h : carrierPool.Reach s) : Counted s := by
  refine h.invariant (P := Counted) ?_ fun s e s' hs hstep => hs.step hstep
  rintro s ⟨carrier, tunnels, established, -, rfl⟩
  exact ⟨fun t => rfl, fun t => rfl⟩

/-- A tunnel with empty counters has no open in flight and no lease. -/
theorem Counted.idle (hs : Counted s) {t : Nat} (hzero : s.state.counters t = ⟨0, 0⟩) :
    (∀ f ∈ s.flights, f.tunnel ≠ t) ∧ t ∉ s.leases := by
  have hpending := hs.pending t
  have hstreams := hs.streams t
  rw [hzero] at hpending hstreams
  constructor
  · intro f hf ht
    have hpos : 0 < s.inFlight t := List.countP_pos_iff.mpr ⟨f, hf, decide_eq_true ht⟩
    exact absurd hpending.symm (Nat.ne_of_gt hpos)
  · intro ht
    have hpos := List.count_pos_iff.mpr ht
    simp only at hstreams
    omega

/-! ## 2. What was read is still so -/

/-- **What `handover_step` has read as zero still is**: no stream is leased of a tunnel whose
streams were, and a tunnel that was read empty is empty. -/
structure Current (s : CarrierPool) : Prop where
  leases : ∀ t, s.look = .pending t 0 → t ∉ s.leases
  counters : ∀ t, s.look = .pins t 0 0 → s.state.counters t = ⟨0, 0⟩
  pins : ∀ t, s.look = .all t 0 0 0 → s.state.counters t = ⟨0, 0⟩ ∧ s.pinned t = 0

/-- Nothing has been read yet. -/
theorem current_of_unread (h : s.look = .done ∨ ∃ t, s.look = .streams t) : Current s := by
  rcases h with h | ⟨t, h⟩
  all_goals
    refine ⟨fun u hu => ?_, fun u hu => ?_, fun u hu => ?_⟩
    all_goals
      rw [h] at hu
      cases hu

/-- What the others do keeps it, if it leaves empty tunnels empty. -/
theorem Current.congr (hs : Current s) (hlook : s'.look = s.look)
    (hleases : ∀ t, s.look = .pending t 0 → t ∈ s'.leases → t ∈ s.leases)
    (hcounters : ∀ t, s.state.counters t = ⟨0, 0⟩ → s'.state.counters t = ⟨0, 0⟩)
    (hpins : ∀ t, s.look = .all t 0 0 0 → s.pinned t = 0 → s'.pinned t = 0) : Current s' := by
  refine ⟨fun t ht hmem => ?_, fun t ht => ?_, fun t ht => ?_⟩
  · rw [hlook] at ht
    exact hs.leases t ht (hleases t ht hmem)
  · rw [hlook] at ht
    exact hcounters t (hs.counters t ht)
  · rw [hlook] at ht
    obtain ⟨hzero, hpin⟩ := hs.pins t ht
    exact ⟨hcounters t hzero, hpins t ht hpin⟩

/-- An operation on the counters of a tunnel that has an open in flight or a lease. -/
theorem touch_keeps_empty (hc : Counted s) {t : Nat}
    (hbusy : (∃ f ∈ s.flights, f.tunnel = t) ∨ t ∈ s.leases)
    (f : TunnelCounters → TunnelCounters) (u : Nat) (hu : s.state.counters u = ⟨0, 0⟩) :
    (s.state.touch t f).counters u = ⟨0, 0⟩ := by
  obtain ⟨hflights, hleases⟩ := hc.idle hu
  have hne : u ≠ t := by
    rintro rfl
    rcases hbusy with ⟨f, hf, ht⟩ | ht
    · exact hflights f hf ht
    · exact hleases ht
  exact (update_of_ne hne _ _).trans hu

/-- The next value read is the one of now. -/
theorem Current.read (hs : Current s) (hc : Counted s) (h : s.read = some s') : Current s' := by
  obtain ⟨t, ⟨-, rfl⟩ | ⟨streams, hlook, rfl⟩ | ⟨streams, pending, hlook, rfl⟩⟩ := read_cases h
  · refine ⟨fun u hu => ?_, fun u hu => (by cases hu), fun u hu => by cases hu⟩
    obtain ⟨rfl, hzero⟩ := Look.pending.inj hu
    have hstreams := hc.streams t
    have hcount : s.leases.count t = 0 := by omega
    exact List.count_eq_zero.mp hcount
  · refine ⟨fun u hu => (by cases hu), fun u hu => ?_, fun u hu => by cases hu⟩
    obtain ⟨rfl, rfl, hzero⟩ := Look.pins.inj hu
    -- no open is in flight, so none is answered, and none is leased
    have hflights : s.inFlight t = 0 := (hc.pending t).symm.trans hzero
    have hanswered : s.answered t = 0 := by
      refine Nat.le_zero.mp (hflights ▸ List.countP_mono_left fun f _ hf => ?_)
      exact decide_eq_true (of_decide_eq_true hf).1
    have hstreams := hc.streams t
    rw [hanswered, List.count_eq_zero.mpr (hs.leases t hlook)] at hstreams
    exact congrArg₂ TunnelCounters.mk hstreams hzero
  · refine ⟨fun u hu => (by cases hu), fun u hu => (by cases hu), fun u hu => ?_⟩
    obtain ⟨rfl, rfl, rfl, hzero⟩ := Look.all.inj hu
    exact ⟨hs.counters t hlook, hzero⟩

theorem look_beginHandoverOn (s : CarrierPool) (source target : Carrier) (preferred : Option Nat) :
    (s.beginHandoverOn source target preferred).look = s.look := by
  unfold CarrierPool.beginHandoverOn
  split
  · rfl
  · split
    · rfl
    · rfl

theorem look_handoverStep (hlook : s.look = .done) (late : Bool) :
    (s.handoverStep late).look = .done ∨ ∃ t, (s.handoverStep late).look = .streams t := by
  unfold CarrierPool.handoverStep
  split
  · exact .inl hlook
  · split
    · exact .inl hlook
    · exact .inl hlook
    · exact .inl hlook
    · split
      · split
        · exact .inr ⟨_, rfl⟩
        · exact .inl hlook
      · exact .inl hlook

theorem look_dialed {ok : Bool} (h : s.dialed ok = some s') :
    s'.look = s.look ∧ s'.pinned = s.pinned := by
  rcases dialed_cases h with ⟨carrier, -, -, -, ⟨-, rfl⟩ | ⟨-, rfl⟩⟩ | rfl
  · exact ⟨rfl, rfl⟩
  · exact ⟨rfl, rfl⟩
  · exact ⟨rfl, rfl⟩

theorem look_place (s : CarrierPool) (tried avoid : List Nat) :
    (s.place tried avoid).look = s.look := by
  rcases place_cases s tried avoid with hnone | ⟨e, -, -, hsome⟩
  · rw [hnone]
  · rw [hsome]

/-- **One orderly step keeps what was read current.** -/
theorem Current.step (hs : Current s) (hc : Counted s) {e : MoveEvent} (ho : s.orderly e = true)
    (h : s.step e = some s') : Current s' := by
  obtain ⟨hlook, hact⟩ := step_spec h
  cases e with
  | beginHandover source target preferred =>
    cases hact
    exact current_of_unread (.inl ((look_beginHandoverOn ..).trans (hlook rfl)))
  | handover late =>
    cases hact
    exact current_of_unread (look_handoverStep (hlook rfl) late)
  | read => exact hs.read hc hact
  | finish =>
    rcases finish_cases hact with ⟨t, -, -, hdone, -⟩ | rfl
    · exact current_of_unread (.inl hdone)
    · exact current_of_unread (.inl rfl)
  | grow preferred =>
    obtain rfl := grow_spec hact
    exact current_of_unread (.inl (hlook rfl))
  | dialed ok =>
    obtain ⟨hsame, hpinned⟩ := look_dialed hact
    have huncounted := uncounted_dialed hact
    refine hs.congr hsame (fun t _ ht => huncounted.leases ▸ ht) (fun t ht => ?_) fun t _ ht => ?_
    · rw [huncounted.counters]
      exact ht
    · rw [hpinned]
      exact ht
  | reap =>
    cases hact
    exact current_of_unread (.inl (hlook rfl))
  | place tried avoid =>
    cases hact
    exact current_of_unread (.inl ((look_place ..).trans (hlook rfl)))
  | opened i =>
    obtain ⟨t, hf, rfl⟩ := opened_spec hact
    have hbusy : ∃ f ∈ s.flights, f.tunnel = t := ⟨_, List.mem_of_getElem? hf, rfl⟩
    have hempty := touch_keeps_empty hc (.inl hbusy) fun c => { c with streams := c.streams + 1 }
    exact hs.congr rfl (fun _ _ ht => ht) hempty fun _ _ ht => ht
  | settled i =>
    obtain ⟨t, hf, rfl⟩ := settled_spec hact
    have hbusy : ∃ f ∈ s.flights, f.tunnel = t := ⟨_, List.mem_of_getElem? hf, rfl⟩
    refine hs.congr rfl (fun u hu ht => ?_) (touch_keeps_empty hc (.inl hbusy) _) fun _ _ ht => ht
    -- the open that settles is not one of the tunnel that is looked at
    have hne : s.look ≠ .pending t 0 := by simpa [orderly, hf] using ho
    rcases List.mem_cons.mp ht with rfl | ht
    · exact absurd hu hne
    · exact ht
  | refused i closed =>
    obtain ⟨t, hf, rfl⟩ := refused_spec hact
    have hbusy : ∃ f ∈ s.flights, f.tunnel = t := ⟨_, List.mem_of_getElem? hf, rfl⟩
    exact hs.congr rfl (fun _ _ ht => ht) (touch_keeps_empty hc (.inl hbusy) _) fun _ _ ht => ht
  | dropLease t =>
    obtain ⟨ht, rfl⟩ := dropLease_spec hact
    exact hs.congr rfl (fun _ _ hu => List.mem_of_mem_erase hu)
      (touch_keeps_empty hc (.inr ht) _) fun _ _ hu => hu
  | pin t n =>
    cases hact
    refine hs.congr rfl (fun _ _ ht => ht) (fun _ ht => ht) fun u hu hzero => ?_
    have hn : s.look ≠ .all t 0 0 0 ∨ n = 0 := by simpa [orderly] using ho
    by_cases hut : u = t
    · subst hut
      rcases hn with hne | rfl
      · exact absurd hu hne
      · exact update_self ..
    · exact (update_of_ne hut _ _).trans hzero
  | die t =>
    cases hact
    exact hs.congr rfl (fun _ _ ht => ht) (fun _ ht => ht) fun _ _ ht => ht
  | probe carrier =>
    cases hact
    exact hs.congr rfl (fun _ _ ht => ht) (fun _ ht => ht) fun _ _ ht => ht

/-! ## 3. The steps -/

/-- A step that places nothing, takes nothing out and completes nothing. -/
theorem stepSafe_of_kept {e : MoveEvent} (hflights : s'.flights.length ≤ s.flights.length)
    (htunnels : s'.entries.map PoolEntry.tunnel = s.entries.map PoolEntry.tunnel)
    (he : ∀ ok, e ≠ .dialed ok) : StepSafe s e s' where
  placed := fun hmore => absurd hmore (Nat.not_lt.mpr hflights)
  kept := by
    intro entry hentry hgone
    have hmem : entry.tunnel ∈ s'.entries.map PoolEntry.tunnel :=
      htunnels ▸ List.mem_map_of_mem hentry
    obtain ⟨entry', hentry', ht⟩ := List.mem_map.mp hmem
    exact absurd ht (hgone entry' hentry')
  completed := fun ok h hok => absurd hok (he ok)

/-- A step that takes one tunnel out: it is dead, or empty. -/
theorem stepSafe_of_without {e : MoveEvent} {t : Nat} (hflights : s'.flights = s.flights)
    (hentries : s'.entries = s.entries.filter fun e => e.tunnel ≠ t)
    (hidle : s.alive t = true → s.state.counters t = ⟨0, 0⟩ ∧ s.pinned t = 0)
    (he : ∀ ok, e ≠ .dialed ok) : StepSafe s e s' where
  placed := fun hmore => absurd hmore (by rw [hflights]; exact Nat.lt_irrefl _)
  kept := by
    intro entry hentry hgone halive
    have ht : entry.tunnel = t := by
      by_contra hne
      refine hgone entry ?_ rfl
      rw [hentries]
      exact List.mem_filter.mpr ⟨hentry, decide_eq_true hne⟩
    rw [ht] at halive ⊢
    exact hidle halive
  completed := fun ok h hok => absurd hok (he ok)

theorem stepSafe_beginHandover (s : CarrierPool) (source target : Carrier)
    (preferred : Option Nat) :
    StepSafe s (.beginHandover source target preferred)
      (s.beginHandoverOn source target preferred) := by
  have hflights := (uncounted_beginHandoverOn s source target preferred).flights
  refine stepSafe_of_kept (by rw [hflights]) ?_ nofun
  unfold CarrierPool.beginHandoverOn
  split
  · rfl
  · split
    · rfl
    · exact tunnels_setTunnelPhase s _ .draining

theorem stepSafe_handover (s : CarrierPool) (late : Bool) :
    StepSafe s (.handover late) (s.handoverStep late) := by
  unfold CarrierPool.handoverStep
  split
  case h_1 hnone => exact stepSafe_of_kept (Nat.le_refl _) rfl nofun
  case h_2 h hh =>
    split
    case h_1 =>
      exact stepSafe_of_kept (Nat.le_refl _)
        (tunnels_setTunnelPhase s h.tunnelId .serving) nofun
    case h_2 => exact stepSafe_of_kept (Nat.le_refl _) rfl nofun
    case h_3 => exact stepSafe_of_kept (Nat.le_refl _) rfl nofun
    case h_4 =>
      split
      · split
        · exact stepSafe_of_kept (Nat.le_refl _) rfl nofun
        case isFalse hdead =>
          exact stepSafe_of_without (t := h.tunnelId) rfl rfl (fun halive => absurd halive hdead)
            nofun
      · exact stepSafe_of_kept (Nat.le_refl _) rfl nofun

/-- A dial that comes back completes the handover only with a tunnel on its target. -/
theorem completed_dialed {ok : Bool} (ho : s.orderly (.dialed ok) = true)
    (h : s.dialed ok = some s') {r : PoolHandover} (hr : s.handover = some r)
    (hnone : s'.handover = none) :
    r.phase = .dialing ∧ s'.entries = s.entries ++ [⟨r.target, .serving, s.nextId⟩] := by
  rcases dialed_cases h with ⟨carrier, hresizing, rfl, hroom, ⟨hcompletes, rfl⟩ | ⟨-, rfl⟩⟩ | rfl
  · obtain ⟨r', hr', hphase, e, he, hcarrier⟩ := completes_spec hcompletes
    obtain rfl : r = r' := Option.some.inj (hr.symm.trans hr')
    refine ⟨hphase, ?_⟩
    have htarget : carrier = r.target := by
      have hcase : true = false ∨ s.count ≤ s.entries.length ∨ s.completes = false ∨
          carrier = r.target := by
        simpa [orderly, hresizing, hr] using ho
      rcases hcase with hok | hfull | hunmet | htarget
      · cases hok
      · exact absurd hroom (Nat.not_lt.mpr hfull)
      · -- no tunnel rode the target before, so the new one does
        have he' : e ∈ s.entries ++ [⟨carrier, .serving, s.nextId⟩] := he
        rcases List.mem_append.mp he' with hold | hnew
        · have hmet : s.completes = true := by
            refine (Option.any_eq_true ..).mpr ⟨r, hr, decide_eq_true ⟨hphase, ?_⟩⟩
            exact List.any_eq_true.mpr ⟨e, hold, decide_eq_true hcarrier⟩
          rw [hunmet] at hmet
          cases hmet
        · rw [List.mem_singleton.mp hnew] at hcarrier
          exact hcarrier
      · exact htarget
    rw [← htarget]
    rfl
  · have hsame : s.handover = none := hnone
    rw [hr] at hsame
    cases hsame
  · have hsame : s.handover = none := hnone
    rw [hr] at hsame
    cases hsame

theorem stepSafe_dialed (hs : Sound s) {ok : Bool} (ho : s.orderly (.dialed ok) = true)
    (h : s.dialed ok = some s') : StepSafe s (.dialed ok) s' where
  placed := fun hmore => absurd hmore (by rw [(uncounted_dialed h).flights]; exact Nat.lt_irrefl _)
  kept := by
    intro entry hentry hgone
    rcases dialed_cases h with ⟨carrier, -, -, -, ⟨-, rfl⟩ | ⟨-, rfl⟩⟩ | rfl
    · exact absurd rfl (hgone entry (List.mem_append_left _ hentry))
    · exact absurd rfl (hgone entry (List.mem_append_left _ hentry))
    · exact absurd rfl (hgone entry hentry)
  completed := by
    intro _ r _ hr hnone
    obtain ⟨hphase, hentries⟩ := completed_dialed ho h hr hnone
    have hrec := hs.record r hr
    obtain ⟨hremoved, hgone⟩ := hrec.dialing hphase
    exact ⟨hremoved, hrec.carriers, hgone, hentries⟩

/-- **One orderly step is safe.** -/
theorem stepSafe (hs : Sound s) (hc : Current s) {e : MoveEvent} (ho : s.orderly e = true)
    (h : s.step e = some s') : StepSafe s e s' := by
  obtain ⟨-, hact⟩ := step_spec h
  cases e with
  | beginHandover source target preferred =>
    cases hact
    exact stepSafe_beginHandover s source target preferred
  | handover late =>
    cases hact
    exact stepSafe_handover s late
  | read =>
    obtain ⟨t, ⟨-, rfl⟩ | ⟨streams, -, rfl⟩ | ⟨streams, pending, -, rfl⟩⟩ := read_cases hact
    all_goals exact stepSafe_of_kept (Nat.le_refl _) rfl nofun
  | finish =>
    rcases finish_cases hact with ⟨t, hlook, hentries, -, hsame⟩ | rfl
    · exact stepSafe_of_without hsame.flights hentries (fun _ => hc.pins t hlook) nofun
    · exact stepSafe_of_kept (Nat.le_refl _) rfl nofun
  | grow preferred =>
    obtain rfl := grow_spec hact
    exact stepSafe_of_kept (Nat.le_refl _) rfl nofun
  | dialed ok => exact stepSafe_dialed hs ho hact
  | reap =>
    cases hact
    refine ⟨fun hmore => absurd hmore (Nat.lt_irrefl _), ?_, nofun⟩
    intro entry hentry hgone halive
    exact absurd rfl (hgone entry (List.mem_filter.mpr ⟨hentry, halive⟩))
  | place tried avoid =>
    cases hact
    rcases place_cases s tried avoid with hnone | ⟨e, he, hserving, hsome⟩
    · rw [hnone]
      exact stepSafe_of_kept (Nat.le_refl _) rfl nofun
    · rw [hsome]
      refine ⟨fun _ => ⟨e, he, hserving, rfl⟩, ?_, nofun⟩
      intro entry hentry hgone
      exact absurd rfl (hgone entry hentry)
  | opened i =>
    obtain ⟨t, -, rfl⟩ := opened_spec hact
    refine stepSafe_of_kept (Nat.le_of_eq ?_) rfl nofun
    exact List.length_set ..
  | settled i =>
    obtain ⟨t, -, rfl⟩ := settled_spec hact
    exact stepSafe_of_kept (List.length_eraseIdx_le ..) rfl nofun
  | refused i closed =>
    obtain ⟨t, -, rfl⟩ := refused_spec hact
    exact stepSafe_of_kept (List.length_eraseIdx_le ..) rfl nofun
  | dropLease t =>
    obtain ⟨-, rfl⟩ := dropLease_spec hact
    exact stepSafe_of_kept (Nat.le_refl _) rfl nofun
  | pin t n =>
    cases hact
    exact stepSafe_of_kept (Nat.le_refl _) rfl nofun
  | die t =>
    cases hact
    exact stepSafe_of_kept (Nat.le_refl _) rfl nofun
  | probe carrier =>
    cases hact
    exact stepSafe_of_kept (Nat.le_refl _) rfl nofun

/-- **A handover is safe in every orderly run**: in every state, and in the next orderly step. -/
theorem handover_safe {s : CarrierPool}
    (h : (carrierPool.restrict fun s e => s.orderly e = true).Reach s) :
    s.Safe ∧ ∀ e s', s.orderly e = true → s.step e = some s' → s.StepSafe e s' := by
  have hsound := sound h.of_restrict
  have hcurrent : Counted s ∧ Current s := by
    refine h.invariant (P := fun s => Counted s ∧ Current s) ?_ ?_
    · rintro s ⟨carrier, tunnels, established, hle, rfl⟩
      exact ⟨counted (.init ⟨carrier, tunnels, established, hle, rfl⟩),
        current_of_unread (.inl rfl)⟩
    · rintro s e s' ⟨hcounted, hcur⟩ ⟨ho, hstep⟩
      exact ⟨hcounted.step hstep, hcur.step hcounted ho hstep⟩
  exact ⟨hsound.safe, fun e s' ho hstep => stepSafe hsound hcurrent.2 ho hstep⟩

end CarrierPool

/-- A move of tunnel 0 from KCP to TCP, up to the reads. -/
def drainFirst : List MoveEvent := [.beginHandover .kcp .tcp (some 0), .handover false]

/-- The idle tunnel 0 is taken out, and a repair begins. -/
def quietMove : List MoveEvent := drainFirst ++ [.read, .read, .read, .finish, .grow .kcp]

/-- The move is over when the dial comes back. -/
theorem handover_safe_moved :
    ∃ s s', (carrierPool.restrict fun s e => s.orderly e = true).Reach s ∧
      s.step (.dialed true) = some s' ∧ s.handover = some ⟨0, .tcp, .dialing, .kcp⟩ ∧
      s'.handover = none ∧ s'.entries = [⟨.kcp, .serving, 1⟩, ⟨.tcp, .serving, 2⟩] ∧
      s.StepSafe (.dialed true) s' := by
  have hrun : (Lts.runWith CarrierPool.step CarrierPool.orderly (.new .kcp 2 2) quietMove).any
      (fun s => decide (s.orderly (.dialed true) = true ∧
        s.handover = some ⟨0, .tcp, .dialing, .kcp⟩ ∧
        (s.step (.dialed true)).any fun s' => decide (s'.handover = none ∧
          s'.entries = [⟨.kcp, .serving, 1⟩, ⟨.tcp, .serving, 2⟩]))) = true := by decide +kernel
  obtain ⟨s, hs, hend⟩ := Lts.Reach.exists_runWith (T := carrierPool)
    (fun _ _ _ h => h) (fun _ _ h => h) ⟨.kcp, 2, 2, Nat.le_refl _, rfl⟩ hrun
  obtain ⟨ho, hhandover, hnext⟩ := of_decide_eq_true hend
  obtain ⟨s', hstep, hafter⟩ := (Option.any_eq_true ..).mp hnext
  obtain ⟨hnone, hentries⟩ := of_decide_eq_true hafter
  exact ⟨s, s', hs, hstep, hhandover, hnone, hentries,
    (CarrierPool.handover_safe hs).2 _ _ ho hstep⟩

/-! ## 4. Runs that break it -/

/-- An open on tunnel 0 is answered between the two reads. -/
def openedBetweenReads : List MoveEvent :=
  [.place [] []] ++ drainFirst ++ [.read, .opened 0, .settled 0, .read, .read]

/-- **A live tunnel is taken out with a stream on it.** -/
theorem stream_removed :
    ∃ s s', carrierPool.Reach s ∧ s.step .finish = some s' ∧ s.alive 0 = true ∧
      s.state.counters 0 = ⟨1, 0⟩ ∧ s.entries.map PoolEntry.tunnel = [0, 1] ∧
      s'.entries.map PoolEntry.tunnel = [1] := by
  have hrun : (Lts.runWith CarrierPool.step (fun _ _ => true) (.new .kcp 2 2)
      openedBetweenReads).any (fun s => decide (s.alive 0 = true ∧
        s.state.counters 0 = ⟨1, 0⟩ ∧ s.entries.map PoolEntry.tunnel = [0, 1] ∧
        (s.step .finish).any fun s' => decide (s'.entries.map PoolEntry.tunnel = [1]))) = true := by
    decide +kernel
  obtain ⟨s, hs, hend⟩ := Lts.Reach.exists_run (T := carrierPool)
    (fun _ _ _ h => h) ⟨.kcp, 2, 2, Nat.le_refl _, rfl⟩ hrun
  obtain ⟨halive, hcounters, hentries, hnext⟩ := of_decide_eq_true hend
  obtain ⟨s', hstep, hafter⟩ := (Option.any_eq_true ..).mp hnext
  exact ⟨s, s', hs, hstep, halive, hcounters, hentries, of_decide_eq_true hafter⟩

/-- A tunnel rides TCP already, a repair's dial for KCP is out, and tunnel 0 is taken out. -/
def staleDial : List MoveEvent :=
  [.grow .tcp, .dialed true, .die 1, .reap, .grow .kcp] ++ drainFirst ++
    [.read, .read, .read, .finish]

/-- **A move to TCP is over with a new tunnel on KCP.** -/
theorem replaced_on_source :
    ∃ s s', carrierPool.Reach s ∧ s.step (.dialed true) = some s' ∧
      s.handover = some ⟨0, .tcp, .dialing, .kcp⟩ ∧ s'.handover = none ∧
      s'.entries = s.entries ++ [⟨.kcp, .serving, s.nextId⟩] := by
  have hrun : (Lts.runWith CarrierPool.step (fun _ _ => true) (.new .kcp 3 2) staleDial).any
      (fun s => decide (s.handover = some ⟨0, .tcp, .dialing, .kcp⟩ ∧
        (s.step (.dialed true)).any fun s' => decide (s'.handover = none ∧
          s'.entries = s.entries ++ [⟨.kcp, .serving, s.nextId⟩]))) = true := by decide +kernel
  obtain ⟨s, hs, hend⟩ := Lts.Reach.exists_run (T := carrierPool)
    (fun _ _ _ h => h) ⟨.kcp, 3, 2, by decide, rfl⟩ hrun
  obtain ⟨hhandover, hnext⟩ := of_decide_eq_true hend
  obtain ⟨s', hstep, hafter⟩ := (Option.any_eq_true ..).mp hnext
  exact ⟨s, s', hs, hstep, hhandover, of_decide_eq_true hafter⟩

/-- **Neither promise holds of every run**: a live tunnel leaves the pool with a stream on it, and
a dial completes a handover with a tunnel of the source carrier. -/
theorem handover_unsafe :
    (∃ s e s', carrierPool.Reach s ∧ s.step e = some s' ∧ ∃ entry ∈ s.entries,
      (∀ entry' ∈ s'.entries, entry'.tunnel ≠ entry.tunnel) ∧ s.alive entry.tunnel = true ∧
        0 < (s.state.counters entry.tunnel).streams) ∧
    ∃ s s' h, carrierPool.Reach s ∧ s.step (.dialed true) = some s' ∧ s.handover = some h ∧
      s'.handover = none ∧ h.source ≠ h.target ∧
      s'.entries = s.entries ++ [⟨h.source, .serving, s.nextId⟩] := by
  constructor
  · obtain ⟨s, s', hs, hstep, halive, hcounters, hentries, hentries'⟩ := stream_removed
    have hmem : 0 ∈ s.entries.map PoolEntry.tunnel := by rw [hentries]; decide
    obtain ⟨entry, hentry, ht⟩ := List.mem_map.mp hmem
    refine ⟨s, .finish, s', hs, hstep, entry, hentry, fun entry' hentry' => ?_, ?_, ?_⟩
    · have hleft : entry'.tunnel ∈ s'.entries.map PoolEntry.tunnel := List.mem_map_of_mem hentry'
      rw [hentries', List.mem_singleton] at hleft
      rw [hleft, ht]
      decide
    · rw [ht]
      exact halive
    · rw [ht, hcounters]
      decide
  · obtain ⟨s, s', hs, hstep, hhandover, hnone, hentries⟩ := replaced_on_source
    exact ⟨s, s', _, hs, hstep, hhandover, hnone, by decide, hentries⟩

end Molehill.Pool
