/-
# The window in which a probe is compared

The carrier rule judges a probe on two samples of the tunnels' counters (`probe_carried_bytes`,
`transport/multiplex.rs`): the bytes that the probe's tunnel delivered between them, against the
mean of the other tunnels'.  A tunnel that joined in between "has no window and contributes
nothing", the code says, and the two rules beside it skip such a tunnel.  This one does not: it
takes the missing count for zero, so the tunnel contributes all it ever delivered, and counts in
the divisor (`joined_counted`).

`carried_bytes_iff` says exactly when the comparison is right all the same.
-/
import Mathlib.Algebra.Order.Group.Nat
import Molehill.Lib.Bytes
import Molehill.Lib.Table

namespace Molehill.Pool

open Lib

/-! ## 1. The code -/

/-- One tunnel's cumulative counters. -/
structure HealthCounts where
  datagramsOut : U64
  retransmits : U64
  delivered : U64
  handed : U64
  deriving DecidableEq

/-- `HealthSample`, keyed by tunnel id. -/
abbrev HealthSample := Table Nat HealthCounts

/-- `window`: what each tunnel of the sample delivered. -/
def window (last now : HealthSample) : List (Nat × Nat) :=
  now.entries.map fun e =>
    let before := match last.lookup e.1 with
      | some counts => counts.delivered.toNat
      | none => 0
    (e.1, e.2.delivered.toNat - before)

/-- The loop over the deltas: the other tunnels', and the probe's. -/
def splitDeltas (probeTunnel : Nat) : List (Nat × Nat) → List Nat → Nat → List Nat × Nat
  | [], chosen, probe => (chosen, probe)
  | (id, delivered) :: rest, chosen, probe =>
    if id = probeTunnel then splitDeltas probeTunnel rest chosen delivered
    else splitDeltas probeTunnel rest (chosen ++ [delivered]) probe

/-- `probe_carried_bytes`: the mean of the other tunnels, and the probe's. -/
def probeCarriedBytes (last now : HealthSample) (probeTunnel : Nat) : Nat × Nat :=
  let (chosen, probe) := splitDeltas probeTunnel (window last now) [] 0
  let chosenAvg :=
    if chosen.isEmpty then 0 else chosen.sum % 2 ^ 64 / max chosen.length 1
  (chosenAvg, probe)

/-! ## 2. The comparison that is meant -/

/-- What a tunnel delivered between the samples, if it is in both. -/
def delta (last now : HealthSample) (id : Nat) : Option Nat :=
  (last.lookup id).bind fun before =>
    (now.lookup id).map fun counts => counts.delivered.toNat - before.delivered.toNat

/-- The other tunnels of the sample. -/
def others (now : HealthSample) (probeTunnel : Nat) : List ((_ : Nat) × HealthCounts) :=
  now.entries.filter fun e => e.1 ≠ probeTunnel

/-- The deltas of the other tunnels that are in both samples. -/
def sharedDeltas (last now : HealthSample) (probeTunnel : Nat) : List Nat :=
  (others now probeTunnel).filterMap fun e => delta last now e.1

/-- All that the other tunnels delivered that joined between the samples. -/
def joinedBytes (last now : HealthSample) (probeTunnel : Nat) : List Nat :=
  ((others now probeTunnel).filter fun e => (last.lookup e.1).isNone).map (·.2.delivered.toNat)

/-- **The comparison**: the mean over the tunnels in both samples, and the probe's delta. -/
def comparison (last now : HealthSample) (probeTunnel : Nat) : Nat × Nat :=
  let shared := sharedDeltas last now probeTunnel
  (shared.sum / shared.length, (delta last now probeTunnel).getD 0)

/-! ## 3. What the code adds up -/

/-- What the code takes for a tunnel's delta. -/
def rawDelta (last : HealthSample) (e : (_ : Nat) × HealthCounts) : Nat :=
  e.2.delivered.toNat - match last.lookup e.1 with
    | some counts => counts.delivered.toNat
    | none => 0

variable {last now : HealthSample} {probeTunnel : Nat}

/-- The others are collected in order, and the last of the probe's entries is kept. -/
theorem splitDeltas_eq (probeTunnel : Nat) (deltas : List (Nat × Nat)) (chosen : List Nat)
    (probe : Nat) :
    splitDeltas probeTunnel deltas chosen probe =
      (chosen ++ (deltas.filter fun d => d.1 ≠ probeTunnel).map Prod.snd,
        ((deltas.filter fun d => d.1 = probeTunnel).map Prod.snd).getLastD probe) := by
  induction deltas generalizing chosen probe with
  | nil => simp [splitDeltas]
  | cons d rest ih =>
    obtain ⟨id, delivered⟩ := d
    rw [splitDeltas]
    by_cases hid : id = probeTunnel
    · rw [if_pos hid, ih, List.filter_cons_of_neg (by simpa using hid),
        List.filter_cons_of_pos (by simpa using hid), List.map_cons, List.getLastD_cons]
    · rw [if_neg hid, ih, List.filter_cons_of_pos (by simpa using hid),
        List.filter_cons_of_neg (by simpa using hid), List.map_cons, List.append_assoc]
      rfl

theorem window_eq (last now : HealthSample) :
    window last now = now.entries.map fun e => (e.1, rawDelta last e) := rfl

/-- The probe's part of the result. -/
theorem probeCarriedBytes_snd (last now : HealthSample) (probeTunnel : Nat) :
    (probeCarriedBytes last now probeTunnel).2 =
      ((now.lookup probeTunnel).map fun c => rawDelta last ⟨probeTunnel, c⟩).getD 0 := by
  have hprobe : ((now.entries.map fun e => (e.1, rawDelta last e)).filter
      fun d => d.1 = probeTunnel) = (now.lookup probeTunnel).toList.map fun c =>
        (probeTunnel, rawDelta last ⟨probeTunnel, c⟩) := by
    rw [List.filter_map]
    exact (congrArg _ (now.filter_key probeTunnel)).trans (List.map_map ..)
  rw [probeCarriedBytes, splitDeltas_eq, window_eq, hprobe]
  cases now.lookup probeTunnel <;> rfl

/-- The other tunnels' part. -/
theorem probeCarriedBytes_fst (last now : HealthSample) (probeTunnel : Nat) :
    (probeCarriedBytes last now probeTunnel).1 =
      ((others now probeTunnel).map (rawDelta last)).sum % 2 ^ 64
        / (others now probeTunnel).length := by
  have hothers : ((now.entries.map fun e => (e.1, rawDelta last e)).filter
      fun d => d.1 ≠ probeTunnel).map Prod.snd = (others now probeTunnel).map (rawDelta last) := by
    rw [List.filter_map, List.map_map]
    rfl
  rw [probeCarriedBytes, splitDeltas_eq, window_eq, hothers, List.nil_append]
  cases others now probeTunnel with
  | nil => simp
  | cons e rest =>
    have hlength : max (rest.length + 1) 1 = rest.length + 1 := Nat.max_eq_left (by omega)
    simp only [List.map_cons, List.isEmpty_cons, List.length_cons, List.length_map, hlength,
      Bool.false_eq_true, if_false]

/-- **What the code adds up**: the deltas of the tunnels in both samples, and all that the ones that
joined ever delivered. -/
theorem others_split (last now : HealthSample) (probeTunnel : Nat) :
    ((others now probeTunnel).map (rawDelta last)).sum =
        (sharedDeltas last now probeTunnel).sum + (joinedBytes last now probeTunnel).sum ∧
      (others now probeTunnel).length =
        (sharedDeltas last now probeTunnel).length + (joinedBytes last now probeTunnel).length := by
  have hdelta : ∀ e ∈ others now probeTunnel, delta last now e.1 =
      (last.lookup e.1).map fun before => e.2.delivered.toNat - before.delivered.toNat := by
    intro e he
    have hnow : now.lookup e.1 = some e.2 := AList.mem_lookup_iff.mpr (List.mem_filter.mp he).1
    rw [delta, hnow]
    cases last.lookup e.1 <;> rfl
  unfold sharedDeltas joinedBytes
  rw [List.filterMap_congr hdelta]
  induction others now probeTunnel with
  | nil => exact ⟨rfl, rfl⟩
  | cons e rest ih =>
    obtain ⟨hsum, hlength⟩ := ih
    have hsub : ∀ counts, last.lookup e.1 = some counts →
        rawDelta last e = e.2.delivered.toNat - counts.delivered.toNat := by
      intro counts h
      rw [rawDelta, h]
    cases hlast : last.lookup e.1 with
    | none =>
      have hraw : rawDelta last e = e.2.delivered.toNat := by
        rw [rawDelta, hlast]
        rfl
      rw [List.filterMap_cons_none (by rw [hlast]; rfl),
        List.filter_cons_of_pos (by rw [hlast]; rfl)]
      simp only [List.map_cons, List.sum_cons, List.length_cons, hraw]
      omega
    | some before =>
      rw [List.filterMap_cons_some (by rw [hlast]; rfl),
        List.filter_cons_of_neg (by rw [hlast]; exact Bool.false_ne_true)]
      simp only [List.map_cons, List.sum_cons, List.length_cons, hsub before hlast]
      omega

/-! ## 4. When the comparison is right -/

/-- **The mean is right**: no other tunnel joined, or what those delivered that did happens to leave
it where it is. -/
def MeanKept (last now : HealthSample) (probeTunnel : Nat) : Prop :=
  let shared := sharedDeltas last now probeTunnel
  let joined := joinedBytes last now probeTunnel
  let tunnels := shared.length + joined.length
  joined = [] ∧ shared.sum < 2 ^ 64 ∨
    0 < tunnels ∧ shared.sum / shared.length * tunnels ≤ (shared.sum + joined.sum) % 2 ^ 64 ∧
      (shared.sum + joined.sum) % 2 ^ 64 < (shared.sum / shared.length + 1) * tunnels

/-- **The comparison is right** exactly when the mean is, and the probe's tunnel, if it joined, has
delivered nothing yet. -/
theorem carried_bytes_iff (last now : HealthSample) (probeTunnel : Nat) :
    probeCarriedBytes last now probeTunnel = comparison last now probeTunnel ↔
      MeanKept last now probeTunnel ∧ (last.lookup probeTunnel = none →
        ∀ counts, now.lookup probeTunnel = some counts → counts.delivered = 0) := by
  obtain ⟨hsum, hlength⟩ := others_split last now probeTunnel
  rw [Prod.ext_iff, probeCarriedBytes_fst, probeCarriedBytes_snd, hsum, hlength]
  refine and_congr ?_ ?_
  · rw [comparison, MeanKept]
    dsimp only
    generalize sharedDeltas last now probeTunnel = shared
    generalize joinedBytes last now probeTunnel = joined
    rcases Nat.eq_zero_or_pos (shared.length + joined.length) with hnone | hsome
    · have hshared : shared = [] := List.length_eq_zero_iff.mp (by omega)
      have hjoined : joined = [] := List.length_eq_zero_iff.mp (by omega)
      simp [hshared, hjoined]
    · have hmean : ∀ bytes mean, bytes / (shared.length + joined.length) = mean ↔
          mean * (shared.length + joined.length) ≤ bytes ∧
            bytes < (mean + 1) * (shared.length + joined.length) := by
        intro bytes mean
        rw [Nat.div_eq_iff hsome, Nat.succ_mul,
          Nat.le_sub_one_iff_lt (Nat.add_pos_right _ hsome)]
      constructor
      · intro h
        exact Or.inr ⟨hsome, (hmean _ _).mp h⟩
      · rintro (⟨rfl, hfits⟩ | ⟨-, hkept⟩)
        · rw [List.sum_nil, List.length_nil, Nat.add_zero, Nat.add_zero, Nat.mod_eq_of_lt hfits]
        · exact (hmean _ _).mpr hkept
  · rw [comparison, delta]
    cases hlast : last.lookup probeTunnel with
    | none =>
      cases hnow : now.lookup probeTunnel with
      | none => simp
      | some counts =>
        have hzero : counts.delivered.toNat = 0 ↔ counts.delivered = 0 :=
          ⟨fun h => BitVec.eq_of_toNat_eq h, fun h => by rw [h]; rfl⟩
        simp [rawDelta, hlast, hzero]
    | some before =>
      cases hnow : now.lookup probeTunnel with
      | none => simp
      | some counts => simp [rawDelta, hlast]

/-- The probe's tunnel 9 has delivered 3 MiB. -/
def beforeJoin : HealthSample := (∅ : HealthSample).insert 9 ⟨0, 0, 0, 0⟩

/-- Tunnel 1 joined meanwhile, and has delivered 4 MiB. -/
def afterJoin : HealthSample :=
  ((∅ : HealthSample).insert 9 ⟨0, 0, 3145728, 0⟩).insert 1 ⟨0, 0, 4194304, 0⟩

/-- **A tunnel that joined is counted**: nothing was there to compare with, and the probe is told to
have carried less. -/
theorem joined_counted :
    probeCarriedBytes beforeJoin afterJoin 9 = (4194304, 3145728) ∧
      comparison beforeJoin afterJoin 9 = (0, 3145728) := by
  decide +kernel

end Molehill.Pool
