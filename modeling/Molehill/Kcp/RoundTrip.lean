/-
# The round-trip estimator

A sample is the local clock minus a field that the peer chose, up to 2^31 - 1 ms; `update_ack`
folds it into two smoothed values in 32-bit words.  `updateAckChecks` is what a checked build
refuses on the way, `SampleFits` the exact condition on the sample and the two values for nothing to
be refused.  Where it holds the words are the weighted means of `Lib.mean`, so the smoothed round
trip lies between two of the samples (`rtt_bounded`).  Samples below 2^29 ms always fit
(`fits_of_small`).
-/
import Molehill.Kcp.Runs
import Molehill.Lib.Smoothing

namespace Molehill

open Lib

/-! ## 1. What a checked build refuses -/

/-- A product with a constant does not overflow. -/
def mulFits (c : Nat) (a : U32) : Bool := c * a.toNat < 2 ^ 32

namespace Kcp

/-- `rtt.abs_diff(self.rx_srtt)`. -/
def rttDelta (k : Kcp) (rtt : U32) : U32 :=
  if rtt < k.rxSrtt then k.rxSrtt - rtt else rtt - k.rxSrtt

/-- The headroom of the timeout. -/
def rtoHeadroom (k : Kcp) : U32 :=
  wmax (wmax k.interval (4 * k.rxRttval)) (k.rxSrtt / kcpRtoHeadroomDivisor)

/-- The products and sums of `update_ack`. -/
def updateAckChecks (k : Kcp) (rtt : U32) : Bool :=
  (k.rxSrtt = 0 ||
    (mulFits 3 k.rxRttval && sumFits (3 * k.rxRttval) (k.rttDelta rtt) &&
      mulFits 7 k.rxSrtt && sumFits (7 * k.rxSrtt) rtt)) &&
    mulFits 4 (k.updateAck rtt).rxRttval &&
      sumFits (k.updateAck rtt).rxSrtt (k.updateAck rtt).rtoHeadroom

/-- The distance of two numbers. -/
def gap (a b : Nat) : Nat := max a b - min a b

/-- What a sample needs: the first one is at most a third of the word, and a later one fits with
seven times the smoothed round trip, and the new timeout with four times the new deviation. -/
def SampleFits (k : Kcp) (rtt : U32) : Prop :=
  if k.rxSrtt = 0 then rtt.toNat ≤ 1431655765
  else
    7 * k.rxSrtt.toNat + rtt.toNat < 2 ^ 32 ∧
      max 1 (mean 7 k.rxSrtt.toNat rtt.toNat)
        + 4 * mean 3 k.rxRttval.toNat (gap rtt.toNat k.rxSrtt.toNat) < 2 ^ 32

theorem toNat_wmax {w : Nat} (a b : BitVec w) : (wmax a b).toNat = max a.toNat b.toNat := by
  unfold wmax
  split
  case isTrue h => exact (Nat.max_eq_right (Nat.le_of_lt (BitVec.lt_def.mp h))).symm
  case isFalse h =>
    rw [BitVec.lt_def] at h
    exact (Nat.max_eq_left (Nat.le_of_not_lt h)).symm

theorem toNat_wmin {w : Nat} (a b : BitVec w) : (wmin a b).toNat = min a.toNat b.toNat := by
  unfold wmin
  split
  case isTrue h => exact (Nat.min_eq_right (Nat.le_of_lt (BitVec.lt_def.mp h))).symm
  case isFalse h =>
    rw [BitVec.lt_def] at h
    exact (Nat.min_eq_left (Nat.le_of_not_lt h)).symm

theorem toNat_rttDelta (k : Kcp) (rtt : U32) :
    (k.rttDelta rtt).toNat = gap rtt.toNat k.rxSrtt.toNat := by
  unfold rttDelta gap
  split <;> bv_omega

/-- `mul` by a small constant that fits is the real product. -/
theorem toNat_mul_of_fits {c a : U32} (h : mulFits c.toNat a = true) :
    (c * a).toNat = c.toNat * a.toNat := by
  rw [BitVec.toNat_mul]
  exact Nat.mod_eq_of_lt (of_decide_eq_true h)

theorem toNat_add_of_fits {a b : U32} (h : sumFits a b = true) :
    (a + b).toNat = a.toNat + b.toNat := by
  rw [BitVec.toNat_add]
  exact Nat.mod_eq_of_lt (of_decide_eq_true h)

/-- A scaled word and a word more, refused or not. -/
theorem scaledFits (c a b : U32) :
    (mulFits c.toNat a && sumFits (c * a) b) = true ↔
      c.toNat * a.toNat + b.toNat < 2 ^ 32 := by
  constructor
  · intro h
    obtain ⟨hmul, hsum⟩ := Bool.and_eq_true_iff.mp h
    rw [← toNat_mul_of_fits hmul]
    exact of_decide_eq_true hsum
  · intro h
    have hmul : mulFits c.toNat a = true := decide_eq_true (by omega)
    rw [hmul, Bool.true_and, sumFits, decide_eq_true_iff, toNat_mul_of_fits hmul]
    exact h

/-! ## 2. One sample -/

section Sample

variable {k : Kcp} {rtt : U32}

theorem updateAck_first (h : k.rxSrtt = 0) :
    (k.updateAck rtt).rxSrtt = rtt ∧ (k.updateAck rtt).rxRttval = rtt / 2 := by
  unfold updateAck
  simp only [h, if_true, and_self]

theorem updateAck_later (h : k.rxSrtt ≠ 0) :
    (k.updateAck rtt).rxSrtt = wmax ((7 * k.rxSrtt + rtt) / 8) 1 ∧
      (k.updateAck rtt).rxRttval = (3 * k.rxRttval + k.rttDelta rtt) / 4 := by
  unfold updateAck
  simp only [h, if_false]
  exact ⟨rfl, rfl⟩

/-- The smoothed round trip, where its product and its sum fit. -/
theorem toNat_rxSrtt (h : k.rxSrtt ≠ 0) (hfits : 7 * k.rxSrtt.toNat + rtt.toNat < 2 ^ 32) :
    (k.updateAck rtt).rxSrtt.toNat = max 1 (mean 7 k.rxSrtt.toNat rtt.toNat) := by
  have hmul : (7 * k.rxSrtt).toNat = 7 * k.rxSrtt.toNat :=
    toNat_mul_of_fits (c := 7) (decide_eq_true (show 7 * k.rxSrtt.toNat < 2 ^ 32 by omega))
  have hsum : (7 * k.rxSrtt + rtt).toNat = 7 * k.rxSrtt.toNat + rtt.toNat := by
    rw [toNat_add_of_fits (decide_eq_true (by omega)), hmul]
  rw [(updateAck_later h).1, toNat_wmax, BitVec.toNat_udiv, hsum, Nat.max_comm]
  rfl

/-- The deviation, where its product and its sum fit. -/
theorem toNat_rxRttval (h : k.rxSrtt ≠ 0)
    (hfits : 3 * k.rxRttval.toNat + gap rtt.toNat k.rxSrtt.toNat < 2 ^ 32) :
    (k.updateAck rtt).rxRttval.toNat
      = mean 3 k.rxRttval.toNat (gap rtt.toNat k.rxSrtt.toNat) := by
  have hmul : (3 * k.rxRttval).toNat = 3 * k.rxRttval.toNat :=
    toNat_mul_of_fits (c := 3) (decide_eq_true (show 3 * k.rxRttval.toNat < 2 ^ 32 by omega))
  have hsum : (3 * k.rxRttval + k.rttDelta rtt).toNat
      = 3 * k.rxRttval.toNat + gap rtt.toNat k.rxSrtt.toNat := by
    rw [toNat_add_of_fits (decide_eq_true (by rw [hmul, toNat_rttDelta]; exact hfits)), hmul,
      toNat_rttDelta]
  rw [(updateAck_later h).2, BitVec.toNat_udiv, hsum]
  rfl

/-- The sum of the timeout: only four times the deviation can pass the word. -/
theorem sumFits_headroom (hinterval : k.interval ≤ 5000) (hval : mulFits 4 k.rxRttval = true)
    (hsmall : k.rxSrtt.toNat + 4 * k.rxRttval.toNat < 2 ^ 32 → k.rxSrtt.toNat ≤ 1431655765) :
    sumFits k.rxSrtt k.rtoHeadroom = true ↔
      k.rxSrtt.toNat + 4 * k.rxRttval.toNat < 2 ^ 32 := by
  have hmul : (4 * k.rxRttval).toNat = 4 * k.rxRttval.toNat := toNat_mul_of_fits (c := 4) hval
  have hdiv : (k.rxSrtt / kcpRtoHeadroomDivisor).toNat = k.rxSrtt.toNat / 8 := by
    rw [BitVec.toNat_udiv]
    rfl
  have hinterval' : k.interval.toNat ≤ 5000 := BitVec.le_def.mp hinterval
  have hroom : k.rtoHeadroom.toNat
      = max (max k.interval.toNat (4 * k.rxRttval.toNat)) (k.rxSrtt.toNat / 8) := by
    rw [rtoHeadroom, toNat_wmax, toNat_wmax, hmul, hdiv]
  rw [sumFits, decide_eq_true_iff, hroom]
  omega

/-- **Nothing is refused exactly when the sample fits.** -/
theorem updateAckChecks_iff (hinterval : k.interval ≤ 5000) (hrtt : rtt.toNat < 2 ^ 31) :
    k.updateAckChecks rtt = true ↔ k.SampleFits rtt := by
  have hsum : mulFits 4 (k.updateAck rtt).rxRttval = true → _ → _ :=
    sumFits_headroom (k := k.updateAck rtt) hinterval
  rw [updateAckChecks, SampleFits]
  by_cases h0 : k.rxSrtt = 0
  · have hfirst : (k.updateAck rtt).rxSrtt = rtt ∧ (k.updateAck rtt).rxRttval = rtt / 2 :=
      updateAck_first h0
    obtain ⟨hsrtt, hval⟩ := hfirst
    have hhalf : (rtt / 2).toNat = rtt.toNat / 2 := BitVec.toNat_udiv
    have hmul : mulFits 4 (k.updateAck rtt).rxRttval = true := by
      rw [hval, mulFits, decide_eq_true_iff, hhalf]
      omega
    have hiff := hsum hmul (by rw [hsrtt, hval, hhalf]; omega)
    rw [hsrtt, hval, hhalf] at hiff
    rw [if_pos h0, decide_eq_true h0, hmul, Bool.true_or, Bool.true_and, Bool.true_and, hsrtt, hiff]
    omega
  · have hV := scaledFits 3 k.rxRttval (k.rttDelta rtt)
    have hS := scaledFits 7 k.rxSrtt rtt
    rw [toNat_rttDelta] at hV
    rw [if_neg h0, decide_eq_false h0, Bool.false_or, Bool.and_eq_true, Bool.and_eq_true,
      Bool.and_assoc (mulFits 3 _ && _), Bool.and_eq_true, show mulFits 3 = mulFits (3 : U32).toNat
      from rfl, show mulFits 7 = mulFits (7 : U32).toNat from rfl, hV, hS]
    have hsmall : 7 * k.rxSrtt.toNat + rtt.toNat < 2 ^ 32 →
        (k.updateAck rtt).rxSrtt.toNat ≤ 1431655765 := by
      intro hfits
      rw [toNat_rxSrtt h0 hfits, mean]
      omega
    constructor
    · rintro ⟨⟨⟨hval, hsrtt⟩, hmul⟩, hroom⟩
      have hiff := (hsum hmul fun _ => hsmall hsrtt).mp hroom
      rw [toNat_rxSrtt h0 hsrtt, toNat_rxRttval h0 hval] at hiff
      exact ⟨hsrtt, hiff⟩
    · rintro ⟨hsrtt, hroom⟩
      have hval : 3 * k.rxRttval.toNat + gap rtt.toNat k.rxSrtt.toNat < 2 ^ 32 := by
        unfold mean at hroom
        omega
      have hmul : mulFits 4 (k.updateAck rtt).rxRttval = true := by
        rw [mulFits, decide_eq_true_iff, toNat_rxRttval h0 hval]
        omega
      refine ⟨⟨⟨hval, hsrtt⟩, hmul⟩, (hsum hmul fun _ => hsmall hsrtt).mpr ?_⟩
      rw [toNat_rxSrtt h0 hsrtt, toNat_rxRttval h0 hval]
      exact hroom

end Sample

/-- The timeout is within its bounds after every sample. -/
theorem bound_mem {lower upper : U32} (h : lower ≤ upper) (v : U32) :
    lower ≤ bound lower v upper ∧ bound lower v upper ≤ upper := by
  simp only [BitVec.le_def, bound, toNat_wmin, toNat_wmax] at h ⊢
  omega

/-! ## 3. What the estimator's fields are left alone by -/

/-- The estimator, and the settings that it reads. -/
def est (k : Kcp) : U32 × U32 × U32 × U32 × U32 :=
  (k.rxSrtt, k.rxRttval, k.rxRto, k.rxMinrto, k.interval)

/-- The sample that an event brings. -/
def sampleOf (k : Kcp) : SequencedEvent → Option U32
  | .segment _ head _ =>
    if head.cmd = kcpCmdAck ∧ 0 ≤ timediff k.current head.ts then some (k.current - head.ts)
    else none
  | _ => none

theorem est_acceptPush (k : Kcp) (head : SegHead) (buf : Bytes) :
    (k.acceptPush head buf).1.est = k.est := by
  unfold acceptPush
  simp only []
  split
  · rfl
  · split
    · rfl
    · split
      · rfl
      · unfold parseData insertSegment
        split
        · rfl
        · split <;> rfl

theorem est_inputAck (k : Kcp) (head : SegHead) :
    (k.inputAck head).est = (k.sampleRtt head.ts).est := by
  change ((k.sampleRtt head.ts).parseAck head.sn).est = _
  unfold parseAck
  split <;> rfl

theorem est_inputSegment (k : Kcp) (acks : AckRun) (head : SegHead) (buf : Bytes) :
    (k.inputSegment acks head buf).1.est
      = (if head.cmd = kcpCmdAck then k.sampleRtt head.ts else k).est := by
  unfold inputSegment
  split
  case isTrue =>
    refine (est_inputAck (k.inputHead head) head).trans ?_
    unfold sampleRtt
    rw [show (k.inputHead head).current = k.current from rfl]
    split <;> rfl
  case isFalse =>
    split
    · have hpush : ((k.inputHead head).acceptPush head buf).1.est = k.est :=
        est_acceptPush (k.inputHead head) head buf
      split
      case h_1 hr => rwa [hr] at hpush
      case h_2 hr => rwa [hr] at hpush
      case h_3 hr => rwa [hr] at hpush
    · split <;> rfl

theorem est_inputEnd (k : Kcp) (acks : AckRun) (una : U32) : (k.inputEnd acks una).est = k.est := by
  have hcwnd : ∀ k : Kcp, (k.updateCwndAfterAcks una).est = k.est := by
    intro k
    unfold updateCwndAfterAcks
    split
    · rfl
    · split <;> rfl
  unfold inputEnd
  split
  · refine (hcwnd _).trans ?_
    unfold parseFastack
    split <;> rfl
  · exact hcwnd k

theorem est_recvPop (k : Kcp) : k.recvPop.1.est = k.est := by
  unfold recvPop
  split
  · rfl
  · split
    · rfl
    · unfold fastRecover
      split <;> rfl

end Kcp

/-! ## 4. Runs -/

/-- An engine, the samples it has folded in, and whether a checked build has refused one. -/
structure Sampled where
  kcp : Kcp
  samples : List Nat
  overflowed : Bool

/-- The settings are made once, before the first acknowledgement. -/
def KeepsNodelay : SequencedEvent → Prop
  | .act (.setNodelay ..) => False
  | _ => True

namespace Sampled

def after (s : Sampled) (e : SequencedEvent) : Sampled where
  kcp := Sequenced.run ⟨s.kcp, false⟩ e
  samples := s.samples ++ ((s.kcp.sampleOf e).map BitVec.toNat).toList
  overflowed := s.overflowed || !(s.kcp.sampleOf e).all s.kcp.updateAckChecks

/-- Nothing was refused, the smoothed round trip is between two of the samples, and the timeout is
within its bounds. -/
structure Sane (s : Sampled) : Prop where
  quiet : s.overflowed = false
  between : s.samples ≠ [] → Between s.samples s.kcp.rxSrtt.toNat
  rto : s.kcp.rxMinrto ≤ s.kcp.rxRto ∧ s.kcp.rxRto ≤ kcpRtoMax

/-- A step whose sample fits. -/
def Fits (s : Sampled) (e : SequencedEvent) : Prop :=
  ∀ rtt, s.kcp.sampleOf e = some rtt → s.kcp.SampleFits rtt

end Sampled

/-- Any acknowledgements, at any times, between the engine's other calls. -/
def sampling : Lts Sampled SequencedEvent where
  init s := ∃ conv nodelay interval resend nc,
    s = ⟨(newStream conv).setNodelay nodelay interval resend nc, [], false⟩
  step s e s' := KeepsNodelay e ∧ s.after e = s'

theorem est_of_updateKept {k k' : Kcp} (h : k'.updateKept = k.updateKept) : k'.est = k.est :=
  (congrArg Kcp.est h :)

/-- **A step** folds its sample into the estimator, if it has one. -/
theorem est_run {k : Kcp} {e : SequencedEvent} (he : KeepsNodelay e) :
    (Sequenced.run ⟨k, false⟩ e).est
      = match k.sampleOf e with
        | none => k.est
        | some rtt => (k.updateAck rtt).est := by
  cases e with
  | segment acks head buf =>
    change (k.inputSegment acks head buf).1.est = _
    rw [Kcp.est_inputSegment, Kcp.sampleOf]
    by_cases hack : head.cmd = kcpCmdAck
    · by_cases hpast : 0 ≤ timediff k.current head.ts
      · rw [if_pos hack, if_pos ⟨hack, hpast⟩, Kcp.sampleRtt, if_pos hpast]
      · rw [if_pos hack, if_neg fun h => hpast h.2, Kcp.sampleRtt, if_neg hpast]
    · rw [if_neg hack, if_neg fun h => hack h.1]
  | inputEnd acks una => exact Kcp.est_inputEnd k acks una
  | act a =>
    cases a with
    | send data =>
      change (k.sendOwned data).1.est = k.est
      rw [Kcp.sendOwned_eq]
      rfl
    | recv => exact Kcp.est_recvPop k
    | update current => exact est_of_updateKept (Kcp.updateKept_update k current)
    | flush => exact (congrArg Kcp.est (Kcp.flushedKept_flush k) :)
    | flushAck => exact (congrArg Kcp.est (Kcp.flushKept_flushAck k) :)
    | setMtu mtu =>
      change (k.setMtu mtu).est = k.est
      unfold Kcp.setMtu
      simp only []
      split <;> rfl
    | setNodelay => exact absurd he id
    | retransmitSn | setWndsize => rfl

namespace Sampled

variable {s : Sampled} {e : SequencedEvent} {rtt : U32}

/-- The settings, and an estimator that has seen nothing. -/
structure Settled (s : Sampled) : Prop where
  interval : s.kcp.interval ≤ 5000
  minrto : s.kcp.rxMinrto ≤ kcpRtoMax
  start : s.samples = [] → s.kcp.rxSrtt = 0

theorem settled_init {conv : U32} {nodelay nc : Bool} {interval resend : Int} :
    Settled ⟨(newStream conv).setNodelay nodelay interval resend nc, [], false⟩ ∧
      Sane ⟨(newStream conv).setNodelay nodelay interval resend nc, [], false⟩ := by
  have hconf := (Configured.new conv).setNodelay nodelay interval resend nc
  have hmin : ((newStream conv).setNodelay nodelay interval resend nc).rxMinrto ≤ kcpRtoDef := by
    rcases hconf.minrto with h | h
    · rw [h]
      decide
    · rw [h]
      decide
  refine ⟨⟨hconf.interval.2, ?_, fun _ => rfl⟩, ⟨rfl, fun h => absurd rfl h, hmin, ?_⟩⟩
  · exact BitVec.le_trans hmin (by decide)
  · change kcpRtoDef ≤ kcpRtoMax
    decide

/-- A sample is less than half of the clock's range. -/
theorem sampleOf_lt {k : Kcp} (h : k.sampleOf e = some rtt) : rtt.toNat < 2 ^ 31 := by
  cases e with
  | act => cases h
  | inputEnd => cases h
  | segment acks head buf =>
    rw [Kcp.sampleOf] at h
    split at h
    case isTrue hpast =>
      cases h
      have hle : 0 ≤ (k.current - head.ts).toInt := hpast.2
      rw [BitVec.toInt_eq_toNat_cond] at hle
      have hlt := (k.current - head.ts).isLt
      split at hle <;> omega
    case isFalse => cases h

theorem est_eq {k k' : Kcp} (h : k'.est = k.est) :
    k'.rxSrtt = k.rxSrtt ∧ k'.rxRttval = k.rxRttval ∧ k'.rxRto = k.rxRto ∧
      k'.rxMinrto = k.rxMinrto ∧ k'.interval = k.interval := by
  simpa only [Kcp.est, Prod.mk.injEq] using h

/-- A step without a sample. -/
theorem after_none (he : KeepsNodelay e) (h : s.kcp.sampleOf e = none) :
    (s.after e).samples = s.samples ∧ (s.after e).overflowed = s.overflowed ∧
      (s.after e).kcp.est = s.kcp.est := by
  have hest := est_run (k := s.kcp) he
  rw [h] at hest
  refine ⟨?_, ?_, hest⟩
  · rw [after, h]
    exact List.append_nil _
  · rw [after, h]
    exact Bool.or_false _

/-- A step with one. -/
theorem after_some (he : KeepsNodelay e) (h : s.kcp.sampleOf e = some rtt) :
    (s.after e).samples = s.samples ++ [rtt.toNat] ∧
      (s.after e).overflowed = (s.overflowed || !s.kcp.updateAckChecks rtt) ∧
      (s.after e).kcp.est = (s.kcp.updateAck rtt).est := by
  have hest := est_run (k := s.kcp) he
  rw [h] at hest
  refine ⟨?_, ?_, hest⟩
  · rw [after, h]
    rfl
  · rw [after, h]
    rfl

/-- **The smoothed round trip** stays between the samples where they fit. -/
theorem between_updateAck (hset : s.Settled) (hsane : s.Sane) (hfits : s.kcp.SampleFits rtt) :
    Between (s.samples ++ [rtt.toNat]) (s.kcp.updateAck rtt).rxSrtt.toNat := by
  by_cases h0 : s.kcp.rxSrtt = 0
  · rw [(Kcp.updateAck_first h0).1]
    exact .last _ _
  · have hlast := hsane.between fun h => h0 (hset.start h)
    rw [Kcp.SampleFits, if_neg h0] at hfits
    have hlo := min_le_mean 7 s.kcp.rxSrtt.toNat rtt.toNat
    have hhi := mean_le_max 7 s.kcp.rxSrtt.toNat rtt.toNat
    have hpos : 1 ≤ s.kcp.rxSrtt.toNat := Nat.pos_of_ne_zero fun h => h0 (BitVec.eq_of_toNat_eq h)
    rw [Kcp.toNat_rxSrtt h0 hfits.1]
    exact hlast.push (by omega) (by omega)

theorem Settled.after (h : s.Settled) (he : KeepsNodelay e) : (s.after e).Settled := by
  cases hsample : s.kcp.sampleOf e with
  | none =>
    obtain ⟨hsamples, -, hest⟩ := after_none he hsample
    obtain ⟨hsrtt, -, -, hmin, hint⟩ := est_eq hest
    exact ⟨hint ▸ h.interval, hmin ▸ h.minrto, fun hnil => hsrtt ▸ h.start (hsamples ▸ hnil)⟩
  | some rtt =>
    obtain ⟨hsamples, -, hest⟩ := after_some he hsample
    obtain ⟨-, -, -, hmin, hint⟩ := est_eq hest
    refine ⟨hint ▸ h.interval, hmin ▸ h.minrto, fun hnil => ?_⟩
    rw [hsamples] at hnil
    exact absurd hnil (by simp)

/-- **One step** keeps the estimator sane exactly when its sample fits. -/
theorem sane_after (hset : s.Settled) (hsane : s.Sane) (he : KeepsNodelay e) :
    (s.after e).Sane ↔ s.Fits e := by
  cases hsample : s.kcp.sampleOf e with
  | none =>
    obtain ⟨hsamples, hquiet, hest⟩ := after_none he hsample
    obtain ⟨hsrtt, -, hrto, hmin, -⟩ := est_eq hest
    refine iff_of_true ⟨hquiet.trans hsane.quiet, ?_, ?_⟩ fun rtt h => ?_
    · rw [hsamples, hsrtt]
      exact hsane.between
    · rw [hrto, hmin]
      exact hsane.rto
    · rw [hsample] at h
      cases h
  | some rtt =>
    obtain ⟨hsamples, hquiet, hest⟩ := after_some he hsample
    obtain ⟨hsrtt, -, hrto, hmin, -⟩ := est_eq hest
    have hchecks := Kcp.updateAckChecks_iff (k := s.kcp) hset.interval (sampleOf_lt hsample)
    rw [hsane.quiet, Bool.false_or] at hquiet
    constructor
    · intro h r hr
      rw [hsample] at hr
      cases hr
      rw [h.quiet] at hquiet
      exact hchecks.mp (by simpa using hquiet.symm)
    · intro h
      have hfits := h rtt hsample
      refine ⟨?_, fun _ => ?_, ?_⟩
      · rw [hquiet, hchecks.mpr hfits]
        rfl
      · rw [hsamples, hsrtt]
        exact between_updateAck hset hsane hfits
      · rw [hrto, hmin]
        exact Kcp.bound_mem hset.minrto _

end Sampled

/-! ## 5. Samples of less than 2^29 ms -/

namespace Sampled

variable {s : Sampled} {e : SequencedEvent} {rtt : U32}

/-- A step whose sample, if it has one, is less than 2^29 ms: a little over six days. -/
def Small (s : Sampled) (e : SequencedEvent) : Prop :=
  ∀ rtt, s.kcp.sampleOf e = some rtt → rtt.toNat < 2 ^ 29

/-- The samples and the two smoothed values are below 2^29. -/
structure Below (s : Sampled) : Prop where
  samples : ∀ x ∈ s.samples, x < 2 ^ 29
  rttval : s.kcp.rxRttval.toNat < 2 ^ 29

theorem Below.srtt (h : s.Below) (hset : s.Settled) (hsane : s.Sane) :
    s.kcp.rxSrtt.toNat < 2 ^ 29 := by
  by_cases hnil : s.samples = []
  · rw [hset.start hnil]
    decide
  · exact (hsane.between hnil).lt_of_forall h.samples

theorem Below.gap (h : s.Below) (hset : s.Settled) (hsane : s.Sane) (hrtt : rtt.toNat < 2 ^ 29) :
    Kcp.gap rtt.toNat s.kcp.rxSrtt.toNat < 2 ^ 29 := by
  have hsrtt := h.srtt hset hsane
  rw [Kcp.gap]
  omega

theorem Below.sampleFits (h : s.Below) (hset : s.Settled) (hsane : s.Sane)
    (hrtt : rtt.toNat < 2 ^ 29) : s.kcp.SampleFits rtt := by
  have hsrtt := h.srtt hset hsane
  have hgap := h.gap hset hsane hrtt
  have hval := h.rttval
  have hmean := mean_le_max 7 s.kcp.rxSrtt.toNat rtt.toNat
  have hdev := mean_le_max 3 s.kcp.rxRttval.toNat (Kcp.gap rtt.toNat s.kcp.rxSrtt.toNat)
  rw [Kcp.SampleFits]
  split <;> omega

theorem Below.after (h : s.Below) (hset : s.Settled) (hsane : s.Sane) (he : KeepsNodelay e)
    (hsmall : s.Small e) : (s.after e).Below := by
  cases hsample : s.kcp.sampleOf e with
  | none =>
    obtain ⟨hsamples, -, hest⟩ := after_none he hsample
    obtain ⟨-, hval, -⟩ := est_eq hest
    exact ⟨hsamples ▸ h.samples, hval ▸ h.rttval⟩
  | some rtt =>
    have hrtt := hsmall rtt hsample
    obtain ⟨hsamples, -, hest⟩ := after_some he hsample
    obtain ⟨-, hval, -⟩ := est_eq hest
    refine ⟨?_, ?_⟩
    · rw [hsamples]
      intro x hx
      rcases List.mem_append.mp hx with hx | hx
      · exact h.samples x hx
      · exact List.mem_singleton.mp hx ▸ hrtt
    · rw [hval]
      by_cases h0 : s.kcp.rxSrtt = 0
      · rw [(Kcp.updateAck_first h0).2, BitVec.toNat_udiv]
        exact Nat.lt_of_le_of_lt (Nat.div_le_self _ _) hrtt
      · have hgap := h.gap hset hsane hrtt
        have hold := h.rttval
        have hdev := mean_le_max 3 s.kcp.rxRttval.toNat (Kcp.gap rtt.toNat s.kcp.rxSrtt.toNat)
        rw [Kcp.toNat_rxRttval h0 (by omega)]
        omega

end Sampled

/-- The side conditions of a run. -/
theorem settled_of_fits {s : Sampled} (h : (sampling.restrict Sampled.Fits).Reach s) :
    s.Settled ∧ s.Sane := by
  refine h.invariant (P := fun s => s.Settled ∧ s.Sane) ?_ ?_
  · rintro s ⟨conv, nodelay, interval, resend, nc, rfl⟩
    exact Sampled.settled_init
  · rintro s e s' ⟨hset, hsane⟩ ⟨hfits, he, rfl⟩
    exact ⟨hset.after he, (Sampled.sane_after hset hsane he).mpr hfits⟩

/-- **Small samples fit**, in every run. -/
theorem fits_of_small {s : Sampled} (h : (sampling.restrict Sampled.Small).Reach s) :
    (sampling.restrict Sampled.Fits).Reach s ∧ s.Below := by
  refine h.invariant (P := fun s => (sampling.restrict Sampled.Fits).Reach s ∧ s.Below) ?_ ?_
  · rintro s ⟨conv, nodelay, interval, resend, nc, rfl⟩
    refine ⟨.init ⟨conv, nodelay, interval, resend, nc, rfl⟩, nofun, ?_⟩
    change (0 : U32).toNat < 2 ^ 29
    decide
  · rintro s e s' ⟨hr, hbelow⟩ ⟨hsmall, he, rfl⟩
    obtain ⟨hset, hsane⟩ := settled_of_fits hr
    have hfits : s.Fits e := fun rtt h => hbelow.sampleFits hset hsane (hsmall rtt h)
    exact ⟨hr.step (a := e) ⟨hfits, he, rfl⟩, hbelow.after hset hsane he hsmall⟩

/-! ## 6. Every run -/

/-- **The estimator.**  In a run whose samples fit, nothing overflows, the smoothed round trip is
between two of the samples and the timeout within its bounds; and the next step keeps it so exactly
when its sample fits. -/
theorem rtt_bounded {s : Sampled} (h : (sampling.restrict Sampled.Fits).Reach s) :
    s.Sane ∧ ∀ e, KeepsNodelay e → ((s.after e).Sane ↔ s.Fits e) := by
  obtain ⟨hset, hsane⟩ := settled_of_fits h
  exact ⟨hsane, fun e he => Sampled.sane_after hset hsane he⟩

/-- An acknowledgement that echoes `ts`. -/
def echo (ts : U32) : SequencedEvent :=
  .segment {} { conv := 7, cmd := kcpCmdAck, frg := 0, wnd := 128, ts := ts, sn := 0, una := 0,
                len := 0 } []

/-- A new engine under the adapter's settings. -/
def fresh : Sampled := ⟨(newStream 7).setNodelay true 10 2 true, [], false⟩

/-- A round trip of 40 ms. -/
theorem rtt_bounded_forty :
    ∃ s : Sampled, s.samples = [40] ∧ s.kcp.rxSrtt = 40 ∧ s.Sane := by
  have hupdate : fresh.Small (.act (.update 40)) := nofun
  have hsample : (fresh.after (.act (.update 40))).kcp.sampleOf (echo 0) = some 40 := by
    decide +kernel
  have hecho : (fresh.after (.act (.update 40))).Small (echo 0) := by
    intro rtt h
    rw [hsample] at h
    cases h
    decide
  have hstart : (sampling.restrict Sampled.Small).Reach fresh := .init ⟨7, true, 10, 2, true, rfl⟩
  have hupdated : (sampling.restrict Sampled.Small).Reach (fresh.after (.act (.update 40))) :=
    hstart.step (a := .act (.update 40)) ⟨hupdate, trivial, rfl⟩
  have hrun : (sampling.restrict Sampled.Small).Reach
      ((fresh.after (.act (.update 40))).after (echo 0)) :=
    hupdated.step (a := echo 0) ⟨hecho, trivial, rfl⟩
  exact ⟨_, by decide +kernel, by decide +kernel, (rtt_bounded (fits_of_small hrun).1).1⟩

/-- **Two echoes of a time this end never sent.**  Each is a sample of 2^31 - 1 ms; the sums
overflow, and the smoothed round trip falls to a quarter of the samples. -/
theorem rtt_overflows :
    ∃ s : Sampled, sampling.Reach s ∧ s.overflowed = true ∧
      s.samples = [2147483647, 2147483647] ∧ s.kcp.rxSrtt = 536870911 ∧ ¬ s.Sane := by
  have hstart : sampling.Reach fresh := .init ⟨7, true, 10, 2, true, rfl⟩
  have hfirst : sampling.Reach (fresh.after (echo 0x80000001)) :=
    hstart.step (a := echo 0x80000001) ⟨trivial, rfl⟩
  have hrun : sampling.Reach ((fresh.after (echo 0x80000001)).after (echo 0x80000001)) :=
    hfirst.step (a := echo 0x80000001) ⟨trivial, rfl⟩
  have hover : ((fresh.after (echo 0x80000001)).after (echo 0x80000001)).overflowed = true := by
    decide +kernel
  refine ⟨_, hrun, hover, by decide +kernel, by decide +kernel, fun h => ?_⟩
  rw [h.quiet] at hover
  cases hover

end Molehill
