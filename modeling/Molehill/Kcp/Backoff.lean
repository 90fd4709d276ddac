/-
# The resend timers

Every segment carries its own timeout.  A timeout grows it by half (nodelay) or to at least twice
its size, and nothing caps it: the dead-link rule waits for silence, and a resend that the peer asks
for (`retransmit_sn`) goes through the same branch as a timeout.

`TimersFit` is what a flush needs: each timeout that grows stays below half of the clock's range.
Then no sum overflows and every segment that goes out is due later, and less than half of the clock
ahead (`timers_sane`).  Segments that went out at most fifteen times always fit (`fits_of_few`).
-/
import Molehill.Kcp.RoundTrip

namespace Molehill

open Lib

namespace Kcp

/-! ## 1. What a flush does to a timer -/

/-- The segment is out, and its resend time has come. -/
def timedOut (k : Kcp) (seg : KcpSegment) : Bool :=
  seg.xmit ≠ 0 ∧ 0 ≤ timediff k.current seg.resendts

/-- What a timeout adds to itself. -/
def backoffStep (k : Kcp) (seg : KcpSegment) : U32 :=
  if k.flags.nodelay then seg.rto / 2 else wmax seg.rto k.rxRto

/-- A resend time that lies ahead, by less than half of the clock's range. -/
def Ahead (current resendts : U32) : Prop :=
  0 < (resendts - current).toNat ∧ (resendts - current).toNat < 2 ^ 31

instance (current resendts : U32) : Decidable (Ahead current resendts) :=
  inferInstanceAs (Decidable (_ ∧ _))

/-- A segment whose resend time lies ahead is not due yet, and it will be. -/
theorem Ahead.timediff {current resendts : U32} (h : Ahead current resendts) :
    timediff current resendts < 0 ∧ 0 < timediff resendts current := by
  obtain ⟨hpos, hlt⟩ := h
  have hback : (current - resendts).toNat = 2 ^ 32 - (resendts - current).toNat := by
    bv_omega
  constructor
  · change (current - resendts).toInt < 0
    rw [BitVec.toInt_eq_toNat_cond]
    split <;> omega
  · change 0 < (resendts - current).toInt
    rw [BitVec.toInt_eq_toNat_cond]
    split <;> omega

/-- One segment of the walk: the sum of its timeout does not overflow, and if it goes out its resend
time lies ahead. -/
def timerOk (env : FlushEnv) (acc : FlushAcc) (seg : KcpSegment) : Bool :=
  match needSend env acc seg with
  | none => true
  | some (acc', seg') =>
    (!acc.kcp.timedOut seg || sumFits seg.rto (acc.kcp.backoffStep seg)) &&
      decide (Ahead acc'.kcp.current seg'.resendts)

/-- The walk. -/
def walkTimersOk (env : FlushEnv) : FlushAcc → List KcpSegment → Bool
  | _, [] => true
  | acc, seg :: rest => timerOk env acc seg && walkTimersOk env (flushSegment env acc seg).1 rest

/-- A flush. -/
def flushTimersOk (k : Kcp) : Bool :=
  walkTimersOk (k.flushFill.flushEnv k.wndUnused) { kcp := k.flushFill } k.flushFill.sndBuf

/-- A timeout that grows stays below half of the clock's range. -/
def SegmentFits (k : Kcp) (seg : KcpSegment) : Prop :=
  k.timedOut seg = true → seg.rto.toNat + (k.backoffStep seg).toNat < 2 ^ 31

/-- What a flush needs. -/
def TimersFit (k : Kcp) : Prop := ∀ s ∈ k.sndBuf, k.SegmentFits s

/-! ## 2. One segment -/

/-- The timeouts that an engine hands out, and the ones that are out. -/
structure SegmentPaced (s : KcpSegment) : Prop where
  pos : s.xmit ≠ 0 → 0 < s.rto.toNat
  half : s.xmit ≠ 0 → s.rto.toNat < 2 ^ 31
  /-- The timeout at most doubles from one sending to the next. -/
  grown : s.xmit ≠ 0 → s.rto.toNat ≤ 60000 * 2 ^ (s.xmit.toNat - 1)

/-- The timeout of new segments is within the estimator's bounds. -/
structure RtoBounded (k : Kcp) : Prop where
  minrto : 30 ≤ k.rxMinrto ∧ k.rxMinrto ≤ kcpRtoMax
  rto : 30 ≤ k.rxRto ∧ k.rxRto ≤ kcpRtoMax

/-- **What the walk does to a segment's timer**: it is set, it grows, it is kept, or the segment
does not go out. -/
theorem needSend_cases (env : FlushEnv) (acc : FlushAcc) (seg : KcpSegment) :
    (seg.xmit = 0 ∧ needSend env acc seg = some (acc, { seg with
        xmit := seg.xmit + 1, rto := acc.kcp.rxRto
        resendts := acc.kcp.current + acc.kcp.rxRto + env.rtomin })) ∨
    (acc.kcp.timedOut seg = true ∧ ∃ acc', needSend env acc seg = some (acc', { seg with
        xmit := seg.xmit + 1, rto := seg.rto + acc.kcp.backoffStep seg
        resendts := acc.kcp.current + (seg.rto + acc.kcp.backoffStep seg) })) ∨
    (seg.xmit ≠ 0 ∧ acc.kcp.timedOut seg = false ∧
      ((∃ acc', needSend env acc seg = some (acc', { seg with
          xmit := seg.xmit + 1, fastack := 0, resendts := acc.kcp.current + seg.rto })) ∨
        needSend env acc seg = none)) := by
  unfold needSend
  simp only []
  by_cases hnew : seg.xmit = 0
  · exact Or.inl ⟨hnew, if_pos hnew⟩
  · rw [if_neg hnew]
    by_cases htime : 0 ≤ Molehill.timediff acc.kcp.current seg.resendts
    · have hstep : (if acc.kcp.flags.nodelay then seg.rto + seg.rto / 2
          else seg.rto + wmax seg.rto acc.kcp.rxRto) = seg.rto + acc.kcp.backoffStep seg := by
        unfold backoffStep
        split <;> rfl
      rw [if_pos htime, hstep]
      exact Or.inr (Or.inl ⟨decide_eq_true ⟨hnew, htime⟩, _, rfl⟩)
    · rw [if_neg htime]
      refine Or.inr (Or.inr ⟨hnew, decide_eq_false fun h => htime h.2, ?_⟩)
      by_cases hfast : env.resent ≤ seg.fastack ∧
          (seg.xmit ≤ acc.kcp.fastlimit ∨ acc.kcp.fastlimit = 0)
      · rw [if_pos hfast]
        exact Or.inl ⟨_, rfl⟩
      · exact Or.inr (if_neg hfast)

variable {env : FlushEnv} {acc : FlushAcc} {seg : KcpSegment}

theorem toNat_backoffStep_le (k : Kcp) (seg : KcpSegment) :
    (k.backoffStep seg).toNat ≤ max seg.rto.toNat k.rxRto.toNat := by
  unfold backoffStep
  split
  · rw [BitVec.toNat_udiv]
    exact Nat.le_trans (Nat.div_le_self _ _) (Nat.le_max_left _ _)
  · exact Nat.le_of_eq (toNat_wmax _ _)

/-- **One segment**: its timer is in order exactly when it fits. -/
theorem timerOk_iff (hrto : acc.kcp.RtoBounded) (hseg : SegmentPaced seg)
    (hmin : env.rtomin.toNat ≤ acc.kcp.rxRto.toNat) :
    timerOk env acc seg = true ↔ acc.kcp.SegmentFits seg := by
  have hlo : 30 ≤ acc.kcp.rxRto.toNat := BitVec.le_def.mp hrto.rto.1
  have hhi : acc.kcp.rxRto.toNat ≤ 60000 := BitVec.le_def.mp hrto.rto.2
  have hcur : ∀ {acc' seg'}, needSend env acc seg = some (acc', seg') →
      acc'.kcp.current = acc.kcp.current := fun h => (congrArg Kcp.current (flushKept_needSend h) :)
  rw [timerOk]
  rcases needSend_cases env acc seg with ⟨hnew, hsend⟩ | ⟨htime, acc', hsend⟩ |
    ⟨hout, htime, ⟨acc', hsend⟩ | hsend⟩
  · have hnot : acc.kcp.timedOut seg = false := decide_eq_false fun h => h.1 hnew
    rw [hsend, hnot]
    refine iff_of_true ?_ fun h => by rw [hnot] at h; cases h
    refine decide_eq_true (⟨?_, ?_⟩ : Ahead _ _)
    · bv_omega
    · bv_omega
  · have hgrow := hcur hsend
    rw [hsend, htime]
    dsimp only
    rw [hgrow, Bool.not_true, Bool.false_or, Bool.and_eq_true, decide_eq_true_iff, SegmentFits,
      htime, Ahead]
    have hpos := hseg.pos (of_decide_eq_true htime).1
    have hahead : acc.kcp.current + (seg.rto + acc.kcp.backoffStep seg) - acc.kcp.current
        = seg.rto + acc.kcp.backoffStep seg := by
      bv_omega
    rw [hahead]
    constructor
    · rintro ⟨hsum, -, hlt⟩ -
      rwa [toNat_add_of_fits hsum] at hlt
    · intro h
      have hlt := h rfl
      have hsum : sumFits seg.rto (acc.kcp.backoffStep seg) = true := decide_eq_true (by omega)
      rw [toNat_add_of_fits hsum]
      exact ⟨hsum, by omega, hlt⟩
  · have hgrow := hcur hsend
    rw [hsend, htime]
    refine iff_of_true ?_ fun h => by rw [htime] at h; cases h
    have hpos := hseg.pos hout
    have hhalf := hseg.half hout
    refine decide_eq_true (⟨?_, ?_⟩ : Ahead _ _)
    · dsimp only
      rw [hgrow]
      bv_omega
    · dsimp only
      rw [hgrow]
      bv_omega
  · rw [hsend]
    exact iff_of_true rfl fun h => by rw [htime] at h; cases h

/-- **A segment that fits** keeps its pace. -/
theorem SegmentPaced.flushed (hseg : SegmentPaced seg) (hrto : acc.kcp.RtoBounded)
    (hfits : acc.kcp.SegmentFits seg) : SegmentPaced (flushSegment env acc seg).2 := by
  have hlo : 30 ≤ acc.kcp.rxRto.toNat := BitVec.le_def.mp hrto.rto.1
  have hhi : acc.kcp.rxRto.toNat ≤ 60000 := BitVec.le_def.mp hrto.rto.2
  have hnext : seg.xmit + 1 ≠ 0 → (seg.xmit + 1).toNat = seg.xmit.toNat + 1 := by
    intro h
    bv_omega
  rw [flushSegment]
  rcases needSend_cases env acc seg with ⟨hnew, hsend⟩ | ⟨htime, acc', hsend⟩ |
    ⟨hout, -, ⟨acc', hsend⟩ | hsend⟩
  · rw [hsend]
    refine ⟨fun _ => ?_, fun _ => ?_, fun _ => ?_⟩
    · change 0 < acc.kcp.rxRto.toNat
      omega
    · change acc.kcp.rxRto.toNat < 2 ^ 31
      omega
    · change acc.kcp.rxRto.toNat ≤ 60000 * 2 ^ ((seg.xmit + 1).toNat - 1)
      rw [hnew]
      simpa using hhi
  · rw [hsend]
    have hout := (of_decide_eq_true htime).1
    have hsum := hfits htime
    have hadd : (seg.rto + acc.kcp.backoffStep seg).toNat
        = seg.rto.toNat + (acc.kcp.backoffStep seg).toNat :=
      toNat_add_of_fits (decide_eq_true (by omega))
    have hpos := hseg.pos hout
    have hgrown := hseg.grown hout
    refine ⟨fun _ => ?_, fun _ => ?_, fun hne => ?_⟩
    · change 0 < (seg.rto + acc.kcp.backoffStep seg).toNat
      omega
    · change (seg.rto + acc.kcp.backoffStep seg).toNat < 2 ^ 31
      omega
    · change (seg.rto + acc.kcp.backoffStep seg).toNat ≤ 60000 * 2 ^ ((seg.xmit + 1).toNat - 1)
      have hstep := toNat_backoffStep_le acc.kcp seg
      have hx : 0 < seg.xmit.toNat := Nat.pos_of_ne_zero fun h => hout (BitVec.eq_of_toNat_eq h)
      have hdouble : 2 ^ seg.xmit.toNat = 2 * 2 ^ (seg.xmit.toNat - 1) := by
        rw [← Nat.pow_succ', Nat.succ_eq_add_one, Nat.sub_add_cancel hx]
      have hone : 1 ≤ 2 ^ (seg.xmit.toNat - 1) := Nat.one_le_two_pow
      rw [hnext hne, Nat.add_sub_cancel, hadd, hdouble]
      omega
  · rw [hsend]
    refine ⟨fun _ => hseg.pos hout, fun _ => hseg.half hout, fun hne => ?_⟩
    change seg.rto.toNat ≤ 60000 * 2 ^ ((seg.xmit + 1).toNat - 1)
    have hmono : 2 ^ (seg.xmit.toNat - 1) ≤ 2 ^ seg.xmit.toNat :=
      Nat.pow_le_pow_right (by decide) (Nat.sub_le _ _)
    rw [hnext hne, Nat.add_sub_cancel]
    exact Nat.le_trans (hseg.grown hout) (Nat.mul_le_mul_left _ hmono)
  · rw [hsend]
    exact hseg

/-! ## 3. A flush -/

theorem segmentFits_of_kept {k k' : Kcp} (h : k'.flushKept = k.flushKept) (seg : KcpSegment) :
    k'.SegmentFits seg ↔ k.SegmentFits seg := by
  have hcur : k'.current = k.current := (congrArg Kcp.current h :)
  have hflags : k'.flags = k.flags := (congrArg Kcp.flags h :)
  have hrto : k'.rxRto = k.rxRto := (congrArg Kcp.rxRto h :)
  rw [SegmentFits, SegmentFits, timedOut, timedOut, backoffStep, backoffStep, hcur, hflags, hrto]

theorem rtoBounded_of_kept {k k' : Kcp} (h : k'.flushKept = k.flushKept) (hk : k.RtoBounded) :
    k'.RtoBounded := by
  have hmin : k'.rxMinrto = k.rxMinrto := (congrArg Kcp.rxMinrto h :)
  have hrto : k'.rxRto = k.rxRto := (congrArg Kcp.rxRto h :)
  exact ⟨hmin ▸ hk.minrto, hrto ▸ hk.rto⟩

/-- **The walk**: every timer is in order exactly when every segment fits. -/
theorem walkTimersOk_iff {segs : List KcpSegment} (hrto : acc.kcp.RtoBounded)
    (hmin : env.rtomin.toNat ≤ acc.kcp.rxRto.toNat) (hsegs : ∀ s ∈ segs, SegmentPaced s) :
    walkTimersOk env acc segs = true ↔ ∀ s ∈ segs, acc.kcp.SegmentFits s := by
  induction segs generalizing acc with
  | nil => exact iff_of_true rfl nofun
  | cons seg rest ih =>
    have hkept := flushKept_flushSegment env acc seg
    have hrx : (flushSegment env acc seg).1.kcp.rxRto = acc.kcp.rxRto :=
      (congrArg Kcp.rxRto hkept :)
    rw [walkTimersOk, Bool.and_eq_true, List.forall_mem_cons,
      timerOk_iff hrto (hsegs seg List.mem_cons_self) hmin,
      ih (rtoBounded_of_kept hkept hrto) (hrx ▸ hmin)
        fun s hs => hsegs s (List.mem_cons_of_mem _ hs)]
    simp only [segmentFits_of_kept hkept]

theorem segmentPaced_flushLoop {segs : List KcpSegment} (hrto : acc.kcp.RtoBounded)
    (hsegs : ∀ s ∈ segs, SegmentPaced s ∧ acc.kcp.SegmentFits s) :
    ∀ s ∈ (flushLoop env acc segs).2, SegmentPaced s := by
  induction segs generalizing acc with
  | nil => nofun
  | cons seg rest ih =>
    have hkept := flushKept_flushSegment env acc seg
    intro s hs
    rw [flushLoop] at hs
    rcases List.mem_cons.mp hs with rfl | hs
    · obtain ⟨hpaced, hfits⟩ := hsegs seg List.mem_cons_self
      exact hpaced.flushed hrto hfits
    · refine ih (rtoBounded_of_kept hkept hrto) (fun t ht => ?_) s hs
      obtain ⟨hpaced, hfits⟩ := hsegs t (List.mem_cons_of_mem _ ht)
      exact ⟨hpaced, (segmentFits_of_kept hkept t).mpr hfits⟩

end Kcp

theorem rtoBounded_of_est {k k' : Kcp} (h : k'.est = k.est) (hk : k.RtoBounded) :
    k'.RtoBounded := by
  obtain ⟨-, -, hrto, hmin, -⟩ := Sampled.est_eq h
  exact ⟨hmin ▸ hk.minrto, hrto ▸ hk.rto⟩

/-- An engine whose timeouts are in order. -/
structure Paced (k : Kcp) : Prop where
  rto : k.RtoBounded
  sndBuf : ∀ s ∈ k.sndBuf, Kcp.SegmentPaced s

namespace Paced

variable {k k' : Kcp}

/-- A segment that was just numbered is paced and fits: nothing is known of its timer yet. -/
theorem mem_flushFill (h : Paced k) {s : KcpSegment} (hs : s ∈ k.flushFill.sndBuf) :
    Kcp.SegmentPaced s ∧ (s ∈ k.sndBuf ∨ k.SegmentFits s) := by
  rcases Kcp.mem_flushFill k hs with hold | ⟨⟨hnew, -⟩, -⟩
  · exact ⟨h.sndBuf s hold, Or.inl hold⟩
  · refine ⟨⟨fun hne => absurd hnew hne, fun hne => absurd hnew hne,
      fun hne => absurd hnew hne⟩, Or.inr fun htime => ?_⟩
    exact absurd hnew (of_decide_eq_true htime).1

/-- **A flush** keeps the timers in order exactly when they fit. -/
theorem flushTimersOk_iff (h : Paced k) : k.flushTimersOk = true ↔ k.TimersFit := by
  have hkept := Kcp.flushKept_flushFill k
  have hrto : k.flushFill.rxRto = k.rxRto := (congrArg Kcp.rxRto hkept :)
  have hmin : (k.flushFill.flushEnv k.wndUnused).rtomin.toNat ≤ k.flushFill.rxRto.toNat := by
    rw [Kcp.flushEnv]
    dsimp only
    split
    · exact Nat.zero_le _
    · rw [BitVec.toNat_ushiftRight]
      exact Nat.le_trans (Nat.le_of_eq (Nat.shiftRight_eq_div_pow _ _)) (Nat.div_le_self _ _)
  rw [Kcp.flushTimersOk, Kcp.walkTimersOk_iff (Kcp.rtoBounded_of_kept hkept h.rto) hmin
    fun s hs => (h.mem_flushFill hs).1]
  simp only [Kcp.segmentFits_of_kept hkept]
  constructor
  · intro hall s hs
    exact hall s ((Kcp.sndBuf_fill k).subset hs)
  · intro hall s hs
    rcases (h.mem_flushFill hs).2 with hold | hfits
    · exact hall s hold
    · exact hfits

theorem flush (h : Paced k) (hup : k.flags.updated = true) (hfits : k.TimersFit) :
    Paced k.flush.1 := by
  have hkept := Kcp.flushKept_flushFill k
  have hflush : k.flush.1.est = k.est := (congrArg Kcp.est (Kcp.flushedKept_flush k) :)
  refine ⟨rtoBounded_of_est hflush h.rto, fun s hs => ?_⟩
  rw [Kcp.sndBuf_flush k hup] at hs
  refine Kcp.segmentPaced_flushLoop (Kcp.rtoBounded_of_kept hkept h.rto) (fun t ht => ?_) s hs
  obtain ⟨hpaced, hold | hfit⟩ := h.mem_flushFill ht
  · exact ⟨hpaced, (Kcp.segmentFits_of_kept hkept t).mpr (hfits t hold)⟩
  · exact ⟨hpaced, (Kcp.segmentFits_of_kept hkept t).mpr hfit⟩

theorem clocked (h : Paced k) (current tsFlush : U32) : Paced (k.clocked current tsFlush) :=
  ⟨⟨h.rto.minrto, h.rto.rto⟩, h.sndBuf⟩

theorem of_retained (h : Paced k) (hrto : k'.RtoBounded)
    (hret : Kcp.Retained KcpSegment.steady k k') : Paced k' := by
  refine ⟨hrto, fun s' hs' => ?_⟩
  obtain ⟨s, hs, heq⟩ := hret s' hs'
  have hxmit : s'.xmit = s.xmit := (congrArg KcpSegment.xmit heq :)
  have hpace : s'.rto = s.rto := (congrArg KcpSegment.rto heq :)
  obtain ⟨hpos, hhalf, hgrown⟩ := h.sndBuf s hs
  exact ⟨by rwa [hxmit, hpace], by rwa [hxmit, hpace], by rwa [hxmit, hpace]⟩

end Paced

/-! ## 4. The other calls -/

/-- `input` sets the timeout within its bounds. -/
theorem rtoBounded_input {k : Kcp} (h : k.RtoBounded) (buf : Bytes) :
    (k.input buf).1.RtoBounded := by
  have hsegment : ∀ (k : Kcp) acks head buf, k.RtoBounded →
      (k.inputSegment acks head buf).1.RtoBounded := by
    intro k acks head buf hk
    refine rtoBounded_of_est (Kcp.est_inputSegment k acks head buf) ?_
    split
    · unfold Kcp.sampleRtt
      split
      · obtain ⟨hlo, hhi⟩ := Kcp.bound_mem hk.minrto.2
          ((k.updateAck (k.current - head.ts)).rxSrtt
            + (k.updateAck (k.current - head.ts)).rtoHeadroom)
        exact ⟨hk.minrto, BitVec.le_trans hk.minrto.1 hlo, hhi⟩
      · exact hk
    · exact hk
  have hloop := Kcp.inputLoop_inv (P := Kcp.RtoBounded) hsegment buf.length k {} buf h
  unfold Kcp.input
  split
  · exact h
  · split
    case h_1 hr => rwa [hr] at hloop
    case h_2 hr =>
      rw [hr] at hloop
      exact rtoBounded_of_est (Kcp.est_inputEnd _ _ _) hloop

/-- A call of the owner leaves it alone, or picks another minimum. -/
theorem rtoBounded_after {k : Kcp} (h : k.RtoBounded) (e : EngineEvent) :
    (k.after e).RtoBounded := by
  cases e with
  | input buf => exact rtoBounded_input h buf
  | act a =>
    by_cases hkeeps : KeepsNodelay (.act a)
    · exact rtoBounded_of_est (est_run (k := k) (e := .act a) hkeeps) h
    · cases a with
      | setNodelay nodelay interval resend nc =>
        refine ⟨?_, h.rto⟩
        change 30 ≤ (if nodelay then kcpRtoNdl else kcpRtoMin) ∧
          (if nodelay then kcpRtoNdl else kcpRtoMin) ≤ kcpRtoMax
        cases nodelay <;> decide
      | _ => exact absurd trivial hkeeps

/-- **A call whose flush fits** keeps the pace. -/
theorem Paced.after {k : Kcp} (h : Paced k) {e : EngineEvent}
    (hfits : ∀ k', k.flushing e = some k' → k'.TimersFit) : Paced (k.after e) := by
  have hrto := rtoBounded_after h.rto e
  cases hflush : k.flushing e with
  | some k' =>
    obtain ⟨hup, hafter, current, tsFlush, rfl⟩ := Kcp.flushing_eq hflush
    rw [hafter]
    exact (h.clocked current tsFlush).flush hup (hfits _ hflush)
  | none =>
    refine h.of_retained hrto ?_
    cases e with
    | input buf => exact Kcp.retained_input k buf
    | act a =>
      cases a with
      | send data =>
        refine .of_eq ?_
        change (k.sendOwned data).1.sndBuf = k.sndBuf
        rw [Kcp.sendOwned_eq]
      | recv => exact .of_snd (Kcp.recvPop_frame k).1
      | update current =>
        obtain ⟨tsFlush, heq⟩ := Kcp.update_of_none k hflush
        refine .of_eq ?_
        change (k.update current).1.sndBuf = k.sndBuf
        rw [heq]
        rfl
      | flush =>
        cases hup : k.flags.updated with
        | false =>
          refine .of_eq ?_
          change k.flush.1.sndBuf = k.sndBuf
          rw [Kcp.flush_of_not_updated k hup]
        | true =>
          rw [Kcp.flushing, hup] at hflush
          cases hflush
      | flushAck =>
        refine .of_snd ?_
        change k.flushAck.1.snd = k.snd
        unfold Kcp.flushAck
        split
        · rfl
        · exact (Kcp.flushAckInner_frame k k.ackSegment).1
      | retransmitSn sn => exact .of_map (Kcp.retransmitLoop_steady _ _ _)
      | setMtu mtu =>
        refine .of_eq ?_
        change (k.setMtu mtu).sndBuf = k.sndBuf
        unfold Kcp.setMtu
        simp only []
        split <;> rfl
      | setNodelay | setWndsize => exact .of_eq rfl

/-! ## 5. Runs -/

/-- An engine, and whether every timer was in order. -/
structure Timed where
  kcp : Kcp
  ok : Bool

namespace Timed

def after (s : Timed) (e : EngineEvent) : Timed :=
  ⟨s.kcp.after e, s.ok && (s.kcp.flushing e).all Kcp.flushTimersOk⟩

/-- A step whose flush, if it makes one, has timers that fit. -/
def Fits (s : Timed) (e : EngineEvent) : Prop :=
  ∀ k, s.kcp.flushing e = some k → k.TimersFit

/-- A step whose flush finds no segment that went out more than fifteen times. -/
def Few (s : Timed) (e : EngineEvent) : Prop :=
  ∀ k, s.kcp.flushing e = some k → ∀ seg ∈ k.sndBuf, seg.xmit.toNat ≤ 15

end Timed

def timing : Lts Timed EngineEvent where
  init s := ∃ conv, s = ⟨newStream conv, true⟩
  step s e s' := s.after e = s'

theorem paced_new (conv : U32) : Paced (newStream conv) := by
  refine ⟨⟨?_, ?_⟩, nofun⟩
  · change 30 ≤ kcpRtoMin ∧ kcpRtoMin ≤ kcpRtoMax
    decide
  · change 30 ≤ kcpRtoDef ∧ kcpRtoDef ≤ kcpRtoMax
    decide

/-- **One step.** -/
theorem ok_after {s : Timed} (h : Paced s.kcp) (hok : s.ok = true) (e : EngineEvent) :
    (s.after e).ok = true ↔ s.Fits e := by
  change (s.ok && (s.kcp.flushing e).all Kcp.flushTimersOk) = true ↔ _
  rw [hok, Bool.true_and, Timed.Fits]
  cases hflush : s.kcp.flushing e with
  | none =>
    refine iff_of_true rfl fun k hk => ?_
    cases hk
  | some k =>
    obtain ⟨-, -, current, tsFlush, rfl⟩ := Kcp.flushing_eq hflush
    rw [Option.all_some, (h.clocked current tsFlush).flushTimersOk_iff]
    constructor
    · intro hfits k' hk'
      exact Option.some.inj hk' ▸ hfits
    · intro hall
      exact hall _ rfl

theorem paced_of_fits {s : Timed} (h : (timing.restrict Timed.Fits).Reach s) :
    Paced s.kcp ∧ s.ok = true := by
  refine h.invariant (P := fun s => Paced s.kcp ∧ s.ok = true) ?_ ?_
  · rintro s ⟨conv, rfl⟩
    exact ⟨paced_new conv, rfl⟩
  · rintro s e s' ⟨hpaced, hok⟩ ⟨hfits, rfl⟩
    exact ⟨hpaced.after hfits, (ok_after hpaced hok e).mpr hfits⟩

/-- A segment that went out at most fifteen times. -/
theorem Kcp.SegmentPaced.fits {k : Kcp} {seg : KcpSegment} (h : Kcp.SegmentPaced seg)
    (hrto : k.RtoBounded) (hfew : seg.xmit.toNat ≤ 15) : k.SegmentFits seg := by
  intro htime
  have hgrown := h.grown (of_decide_eq_true htime).1
  have hstep := Kcp.toNat_backoffStep_le k seg
  have hhi : k.rxRto.toNat ≤ 60000 := BitVec.le_def.mp hrto.rto.2
  have hpow : 2 ^ (seg.xmit.toNat - 1) ≤ 2 ^ 14 := Nat.pow_le_pow_right (by decide) (by omega)
  omega

/-- **Few resends fit**, in every run. -/
theorem fits_of_few {s : Timed} (h : (timing.restrict Timed.Few).Reach s) :
    (timing.restrict Timed.Fits).Reach s := by
  refine h.invariant (P := (timing.restrict Timed.Fits).Reach) ?_ ?_
  · rintro s ⟨conv, rfl⟩
    exact .init ⟨conv, rfl⟩
  · rintro s e s' hr ⟨hfew, hstep⟩
    refine hr.step ⟨fun k hk seg hseg => ?_, hstep⟩
    have hpaced := (paced_of_fits hr).1
    obtain ⟨-, -, current, tsFlush, rfl⟩ := Kcp.flushing_eq hk
    exact (hpaced.sndBuf seg hseg).fits (hpaced.clocked current tsFlush).rto (hfew _ hk seg hseg)

/-- **The resend timers.**  In a run whose flushes fit, no sum of a timeout overflows and every
segment that goes out is due later, less than half of the clock ahead; and the next step keeps it so
exactly when its flush fits. -/
theorem timers_sane {s : Timed} (h : (timing.restrict Timed.Fits).Reach s) :
    s.ok = true ∧ ∀ e, (s.after e).ok = true ↔ s.Fits e := by
  obtain ⟨hpaced, hok⟩ := paced_of_fits h
  exact ⟨hok, ok_after hpaced hok⟩

/-- A segment goes out, under the adapter's settings, at a clock that is about to wrap. -/
def sentOnce : List EngineEvent :=
  [.act (.setNodelay true 10 2 true), .act (.update 0xfffffff0), .act (.send [1]), .act .flush]

/-- It times out behind the wrap. -/
theorem timers_sane_wrap :
    ∃ s : Timed, s.kcp.sndBuf.map (fun seg => (seg.xmit, seg.rto)) = [(2, 300)] ∧ s.ok = true := by
  have hrun : (Lts.runWith (fun s e => some (Timed.after s e))
      (fun s e => (s.kcp.flushing e).all fun k => k.sndBuf.all fun seg => seg.xmit.toNat ≤ 15)
      ⟨newStream 7, true⟩ (sentOnce ++ [.act (.update 500)])).any
      (fun s => s.kcp.sndBuf.map (fun seg => (seg.xmit, seg.rto)) = [(2, 300)]) = true := by
    decide +kernel
  have hfew : ∀ (s : Timed) e, ((s.kcp.flushing e).all fun k =>
      k.sndBuf.all fun seg => seg.xmit.toNat ≤ 15) = true → s.Few e := by
    intro s e hall k hk seg hseg
    rw [hk] at hall
    exact of_decide_eq_true (List.all_eq_true.mp hall seg hseg)
  obtain ⟨s, hs, hp⟩ := Lts.Reach.exists_runWith (T := timing) (C := Timed.Few)
    (fun s e s' h => (Option.some.inj h :)) hfew ⟨7, rfl⟩ hrun
  exact ⟨s, of_decide_eq_true hp, (timers_sane (fits_of_few hs)).1⟩

/-- **Forty resends that the peer asks for**, in no time at all: the timeout passes half of the
clock, so the segment is due again at once, and the link is not dead. -/
theorem timers_pass_half :
    ∃ s : Timed, timing.Reach s ∧ s.ok = false ∧ s.kcp.state = 0 ∧
      ∃ seg ∈ s.kcp.sndBuf, seg.xmit = 41 ∧ 0 ≤ timediff s.kcp.current seg.resendts := by
  have hrun : (Lts.runWith (fun s e => some (Timed.after s e)) (fun _ _ => true)
      ⟨newStream 7, true⟩
      (sentOnce ++ (List.replicate 40 [.act (.retransmitSn 0), .act .flush]).flatten)).any
      (fun s => s.ok = false ∧ s.kcp.state = 0 ∧
        ∃ seg ∈ s.kcp.sndBuf, seg.xmit = 41 ∧ 0 ≤ timediff s.kcp.current seg.resendts) = true := by
    decide +kernel
  obtain ⟨s, hs, hp⟩ := Lts.Reach.exists_run (T := timing)
    (fun s e s' h => (Option.some.inj h :)) ⟨7, rfl⟩ hrun
  exact ⟨s, hs, of_decide_eq_true hp⟩

end Molehill
