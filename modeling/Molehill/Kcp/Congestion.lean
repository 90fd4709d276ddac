/-
# Flow and congestion control

The window of a flush is the smallest of the sender's, the peer's and (with congestion control on)
the congestion window, and the fill numbers nothing beyond it.  The congestion window and its byte
counter are stepped by acknowledgements and cut back by losses; `Controlled` bounds the counter by
the window, so that no step overflows or divides by zero, whatever the order of the events and
whatever window the peer advertises.

An acknowledgement only clamps the window that it steps: a window that is at or above the peer's
already is left alone (`cwnd_above_peer`).
-/
import Molehill.Kcp.Segmentation
import Molehill.Kcp.RoundTrip

namespace Molehill

open Lib

/-! ## 1. What a checked build refuses -/

/-- A `usize` result that does not overflow. -/
def uszFits (n : Nat) : Bool := n < 2 ^ 64

/-- A `u16` result that does not overflow. -/
def u16Fits (n : Nat) : Bool := n < 2 ^ 16

namespace Kcp

/-- The byte counter that congestion avoidance starts from. -/
def avoidanceBase (k : Kcp) : Nat := if k.incr < k.mss then k.mss else k.incr

/-- The byte counter it steps to. -/
def avoidanceIncr (k : Kcp) : Nat :=
  k.avoidanceBase + k.mss * k.mss / k.avoidanceBase + k.mss / 16

/-- The steps of `update_cwnd_after_acks` before the clamp. -/
def stepChecks (k : Kcp) : Bool :=
  if k.cwnd < k.ssthresh then u16Fits (k.cwnd.toNat + 1) && uszFits (k.incr + k.mss)
  else
    decide (k.avoidanceBase ≠ 0) && uszFits (k.mss * k.mss) && uszFits k.avoidanceIncr &&
      uszFits ((k.cwnd.toNat + 1) * k.mss) &&
        (decide (k.avoidanceIncr < (k.cwnd.toNat + 1) * k.mss) || uszFits (k.avoidanceIncr + k.mss))

/-- The sums, products and quotients of `update_cwnd_after_acks`. -/
def growthChecks (k : Kcp) (oldUna : U32) : Bool :=
  decide (timediff k.sndUna oldUna ≤ 0 ∨ k.rmtWnd ≤ k.cwnd) ||
    (k.stepChecks && (!decide (k.rmtWnd < k.grownCwnd.1) || uszFits (k.rmtWnd.toNat * k.mss)))

/-- The sum and the product of `update_ssthresh`. -/
def ssthreshChecks (k : Kcp) (change resent : U32) : Bool :=
  !decide (0 < change) ||
    (u16Fits ((threshOf (u16OrMax (k.sndNxt - k.sndUna).toNat / 2)).toNat
        + (u16OrMax resent.toNat).toNat) &&
      uszFits ((threshOf (u16OrMax (k.sndNxt - k.sndUna).toNat / 2)
        + u16OrMax resent.toNat).toNat * k.mss))

/-- A flush. -/
def flushCwndChecks (k : Kcp) : Bool :=
  k.flushWalked.ssthreshChecks k.flushWalk.1.change (k.flushFill.flushEnv k.wndUnused).resent

/-- `input`: the window is stepped once the datagram is consumed. -/
def inputCwndChecks (k : Kcp) (buf : Bytes) : Bool :=
  buf.length < kcpOverhead ||
    match inputLoop buf.length k {} buf with
    | (_, _, .error _) => true
    | (k', acks, .ok _) =>
      (if acks.flag then k'.parseFastack acks.maxAck acks.latestTs else k').growthChecks k.sndUna

/-- A call. -/
def cwndChecks (k : Kcp) : EngineEvent → Bool
  | .input buf => k.inputCwndChecks buf
  | e => (k.flushing e).all flushCwndChecks

end Kcp

/-- A bound for the segment size, from the largest datagram that the adapter asks for. -/
def mssCeiling : Nat := Kcp.kcpMtuCeiling - kcpOverhead

/-- What the window's arithmetic rests on: the counter is within the window, or the window is as
large as a word can say. -/
structure Controlled (k : Kcp) : Prop where
  mss : 0 < k.mss ∧ k.mss ≤ mssCeiling
  ssthresh : 2 ≤ k.ssthresh.toNat
  incr : k.incr ≤ (k.cwnd.toNat + 1) * mssCeiling ∨
    k.cwnd.toNat = 65535 ∧ k.incr ≤ 65537 * mssCeiling

/-! ## 2. An acknowledgement -/

theorem toNat_u16OrMax (n : Nat) : (u16OrMax n).toNat = min n 65535 := by
  rw [u16OrMax, BitVec.toNat_ofNat]
  exact Nat.mod_eq_of_lt (by omega)

theorem usz_of_fits {n : Nat} (h : n < 2 ^ 64) : usz n = n := Nat.mod_eq_of_lt h


namespace Controlled

variable {k : Kcp}

/-- The counter, below a window that can grow. -/
theorem incr_le (h : Controlled k) (hroom : k.cwnd.toNat < 65535) :
    k.incr ≤ (k.cwnd.toNat + 1) * mssCeiling := by
  rcases h.incr with hle | ⟨hfull, -⟩
  · exact hle
  · omega

/-- **Congestion avoidance** moves the counter by little more than a segment. -/
theorem avoidance (h : Controlled k) (hroom : k.cwnd.toNat < 65535) :
    0 < k.avoidanceBase ∧
      k.avoidanceIncr ≤ (k.cwnd.toNat + 1) * mssCeiling + mssCeiling + mssCeiling := by
  have hle := h.incr_le hroom
  obtain ⟨hpos, hmss⟩ := h.mss
  have hone : mssCeiling ≤ (k.cwnd.toNat + 1) * mssCeiling := Nat.le_mul_of_pos_left _ (by omega)
  have hbase : k.mss ≤ k.avoidanceBase ∧ k.avoidanceBase ≤ (k.cwnd.toNat + 1) * mssCeiling := by
    rw [Kcp.avoidanceBase]
    split <;> omega
  have hquot : k.mss * k.mss / k.avoidanceBase ≤ k.mss :=
    Nat.div_le_of_le_mul (Nat.mul_le_mul_right _ hbase.1)
  rw [Kcp.avoidanceIncr]
  omega

/-- **The window's step**, by slow start or by congestion avoidance: nothing overflows, and the
counter stays within the window. -/
theorem grown (h : Controlled k) (hroom : k.cwnd.toNat < 65535) :
    k.stepChecks = true ∧ (k.grownCwnd.2 ≤ (k.grownCwnd.1.toNat + 1) * mssCeiling ∨
      k.grownCwnd.1.toNat = 65535 ∧ k.grownCwnd.2 ≤ 65537 * mssCeiling) := by
  have hM : mssCeiling = 7976 := rfl
  have hle := h.incr_le hroom
  obtain ⟨hpos, hmss⟩ := h.mss
  obtain ⟨hbase, havoid⟩ := h.avoidance hroom
  have hwnd : (k.cwnd.toNat + 1) * k.mss ≤ (k.cwnd.toNat + 1) * mssCeiling :=
    Nat.mul_le_mul_left _ hmss
  have hsq : k.mss * k.mss ≤ mssCeiling * mssCeiling := Nat.mul_le_mul hmss hmss
  rw [hM] at *
  rw [Kcp.stepChecks, Kcp.grownCwnd]
  dsimp only
  by_cases hslow : k.cwnd < k.ssthresh
  · have hcwnd : (k.cwnd + 1).toNat = k.cwnd.toNat + 1 := by
      bv_omega
    rw [if_pos hslow, if_pos hslow]
    dsimp only
    rw [usz_of_fits (by omega), hcwnd, u16Fits, uszFits, Bool.and_eq_true, decide_eq_true_iff,
      decide_eq_true_iff]
    omega
  · have hincr : usz (k.avoidanceBase + usz (k.mss * k.mss) / k.avoidanceBase + k.mss / 16)
        = k.avoidanceIncr := by
      rw [usz_of_fits (n := k.mss * k.mss) (by omega)]
      exact usz_of_fits (by rw [Kcp.avoidanceIncr] at havoid; omega)
    have hprod : usz ((k.cwnd.toNat + 1) * k.mss) = (k.cwnd.toNat + 1) * k.mss :=
      usz_of_fits (by omega)
    have hchecks : (decide (k.avoidanceBase ≠ 0) && uszFits (k.mss * k.mss) &&
        uszFits k.avoidanceIncr && uszFits ((k.cwnd.toNat + 1) * k.mss) &&
        (decide (k.avoidanceIncr < (k.cwnd.toNat + 1) * k.mss) ||
          uszFits (k.avoidanceIncr + k.mss))) = true := by
      simp only [uszFits, Bool.and_eq_true, Bool.or_eq_true, decide_eq_true_iff]
      omega
    rw [if_neg hslow, if_neg hslow]
    refine ⟨hchecks, ?_⟩
    rw [show (if k.incr < k.mss then k.mss else k.incr) = k.avoidanceBase from rfl, hincr, hprod]
    split
    case isTrue hfull =>
      have hceil := Kcp.le_ceil hpos k.avoidanceIncr
      have hup : (k.avoidanceIncr + k.mss - 1) / k.mss * k.mss
          ≤ (k.avoidanceIncr + k.mss - 1) / k.mss * 7976 := Nat.mul_le_mul_left _ hmss
      rw [usz_of_fits (by omega), toNat_u16OrMax]
      dsimp only
      by_cases hq : (k.avoidanceIncr + k.mss - 1) / k.mss ≤ 65535
      · rw [Nat.min_eq_left hq]
        omega
      · rw [Nat.min_eq_right (by omega)]
        omega
    case isFalse hpart =>
      exact Or.inl (Nat.le_trans (Nat.le_of_lt (Nat.lt_of_not_le hpart)) hwnd)

/-- **An acknowledgement** steps the window and clamps it, or leaves it alone. -/
theorem growth (h : Controlled k) (oldUna : U32) :
    k.growthChecks oldUna = true ∧ Controlled (k.updateCwndAfterAcks oldUna) ∧
      ((k.updateCwndAfterAcks oldUna).cwnd = k.cwnd ∨
        (k.updateCwndAfterAcks oldUna).cwnd ≤ k.rmtWnd) := by
  have hM : mssCeiling = 7976 := rfl
  rw [Kcp.growthChecks, Kcp.updateCwndAfterAcks]
  by_cases hguard : timediff k.sndUna oldUna ≤ 0 ∨ k.rmtWnd ≤ k.cwnd
  · rw [if_pos hguard, decide_eq_true hguard]
    exact ⟨rfl, h, Or.inl rfl⟩
  · have hpeer := k.rmtWnd.isLt
    have hroom : k.cwnd.toNat < 65535 := by
      have hlt : ¬ k.rmtWnd.toNat ≤ k.cwnd.toNat := fun hle =>
        hguard (Or.inr (BitVec.le_def.mpr hle))
      omega
    obtain ⟨hstep, hincr⟩ := h.grown hroom
    have hclamp : k.rmtWnd.toNat * k.mss ≤ k.rmtWnd.toNat * mssCeiling :=
      Nat.mul_le_mul_left _ h.mss.2
    have hfits : k.rmtWnd.toNat * k.mss < 2 ^ 64 := by
      rw [hM] at hclamp
      omega
    rw [if_neg hguard, decide_eq_false hguard, Bool.false_or, hstep, Bool.true_and, uszFits,
      decide_eq_true hfits, Bool.or_true]
    refine ⟨rfl, ?_⟩
    split
    case isTrue hpast =>
      refine ⟨⟨h.mss, h.ssthresh, Or.inl ?_⟩, Or.inr (BitVec.le_refl _)⟩
      change usz (k.rmtWnd.toNat * k.mss) ≤ (k.rmtWnd.toNat + 1) * mssCeiling
      rw [usz_of_fits hfits]
      exact Nat.le_trans hclamp (Nat.mul_le_mul_right _ (Nat.le_succ _))
    case isFalse hwithin =>
      exact ⟨⟨h.mss, h.ssthresh, hincr⟩, Or.inr (BitVec.not_lt.mp hwithin)⟩

end Controlled

/-! ## 3. A flush -/

theorem threshOf_ge (half : U16) : 2 ≤ (Kcp.threshOf half).toNat ∧
    (Kcp.threshOf half).toNat ≤ max 2 half.toNat := by
  rw [Kcp.threshOf]
  split
  case isTrue => exact ⟨by decide, Nat.le_max_left _ _⟩
  case isFalse h =>
    have hge : 2 ≤ half.toNat := BitVec.le_def.mp (BitVec.not_lt.mp h)
    exact ⟨hge, Nat.le_max_right _ _⟩

/-- The window is raised back to one. -/
theorem one_le_cwndFloor (k : Kcp) : 1 ≤ k.cwndFloor.cwnd.toNat := by
  rw [Kcp.cwndFloor]
  split
  case isTrue => exact Nat.le_refl 1
  case isFalse h => exact Nat.pos_of_ne_zero fun h0 => h (BitVec.eq_of_toNat_eq h0)

namespace Controlled

variable {k : Kcp}

/-- A window with its own counter. -/
theorem of_window (h : Controlled k) {cwnd ssthresh : U16} (hthresh : 2 ≤ ssthresh.toNat)
    {incr : Nat} (hincr : incr ≤ cwnd.toNat * k.mss) :
    Controlled { k with ssthresh := ssthresh, cwnd := cwnd, incr := incr } := by
  refine ⟨h.mss, hthresh, Or.inl (Nat.le_trans hincr ?_)⟩
  exact Nat.mul_le_mul (Nat.le_succ _) h.mss.2

/-- **A flush's window update**: with a fast-resend threshold of at most 32768 nothing overflows. -/
theorem updateSsthresh (h : Controlled k) {resent : U32} (change : U32) (lost : Bool) (prior : U16)
    (hresent : 0 < change → resent.toNat ≤ 32768) :
    k.ssthreshChecks change resent = true ∧
      Controlled (k.updateSsthresh change resent lost prior) ∧
      1 ≤ (k.updateSsthresh change resent lost prior).cwnd.toNat := by
  have hM : mssCeiling = 7976 := rfl
  have hmss := h.mss.2
  have hwords : ∀ w : U16, w.toNat * k.mss < 2 ^ 64 := by
    intro w
    have hw := w.isLt
    have hle : w.toNat * k.mss ≤ 65535 * 7976 := Nat.mul_le_mul (by omega) hmss
    omega
  have hfast : Controlled (k.ssthreshAfterFast change resent) := by
    rw [Kcp.ssthreshAfterFast]
    split
    · refine h.of_window (threshOf_ge _).1 ?_
      rw [usz_of_fits (hwords _)]
    · exact h
  have hloss : ∀ k : Kcp, Controlled k → Controlled (k.ssthreshAfterLoss lost prior) := by
    intro k hk
    rw [Kcp.ssthreshAfterLoss]
    split
    · exact hk.of_window (threshOf_ge _).1 (Nat.le_of_eq (Nat.one_mul _).symm)
    · exact hk
  have hfloor : ∀ k : Kcp, Controlled k → Controlled k.cwndFloor := by
    intro k hk
    rw [Kcp.cwndFloor]
    split
    · exact hk.of_window hk.ssthresh (Nat.le_of_eq (Nat.one_mul _).symm)
    · exact hk
  refine ⟨?_, hfloor _ (hloss _ hfast), one_le_cwndFloor _⟩
  rw [Kcp.ssthreshChecks]
  by_cases hchange : 0 < change
  · have hthresh := (threshOf_ge (u16OrMax (k.sndNxt - k.sndUna).toNat / 2)).2
    have hhalf : (u16OrMax (k.sndNxt - k.sndUna).toNat / 2).toNat ≤ 32767 := by
      rw [BitVec.toNat_udiv, toNat_u16OrMax]
      change min _ 65535 / 2 ≤ 32767
      omega
    have hcast : (u16OrMax resent.toNat).toNat ≤ 32768 := by
      have hle := hresent hchange
      rw [toNat_u16OrMax]
      omega
    simp only [uszFits, u16Fits, Bool.or_eq_true, Bool.and_eq_true, decide_eq_true_iff]
    exact Or.inr ⟨by omega, hwords _⟩
  · rw [decide_eq_false hchange]
    rfl

end Controlled

/-! ## 4. The fill -/

namespace Kcp

theorem numberFrom_sn (k : Kcp) {wnd : U16} {nxt : U32} {queue : List KcpSegment} {s : KcpSegment}
    (h : s ∈ k.numberFrom wnd nxt queue) :
    ∃ i, i < queue.length ∧ s.sn = nxt + BitVec.ofNat 32 i := by
  induction queue generalizing nxt with
  | nil => cases h
  | cons seg queue ih =>
    rcases List.mem_cons.mp h with rfl | h
    · exact ⟨0, Nat.succ_pos _, (BitVec.add_zero nxt).symm⟩
    · obtain ⟨i, hi, hsn⟩ := ih h
      refine ⟨i + 1, Nat.succ_lt_succ hi, ?_⟩
      rw [hsn]
      bv_omega

/-- **What a fill numbers** is inside the window of the flush. -/
theorem fill_within {k : Kcp} (hw : Windowed k) {s : KcpSegment} (h : s ∈ k.flushFill.sndBuf) :
    s ∈ k.sndBuf ∨ (s.sn - k.sndUna).toNat < k.flushWindow.toNat := by
  obtain ⟨k', -, hfill⟩ := sndBuf_flushFill hw
  rw [hfill] at h
  rcases List.mem_append.mp h with hold | hnew
  · exact Or.inl hold
  · obtain ⟨i, hi, hsn⟩ := k'.numberFrom_sn hnew
    rw [admitted, List.length_take] at hi
    have hwidth := hw.width
    have hwnd := k.flushWindow.isLt
    refine Or.inr ?_
    rw [hsn]
    bv_omega

/-- The window of a flush is within each of the windows. -/
theorem flushWindow_le (k : Kcp) :
    k.flushWindow.toNat ≤ min k.sndWnd.toNat k.rmtWnd.toNat ∧
      (k.flags.nocwnd = false → k.flushWindow.toNat ≤ k.cwnd.toNat) := by
  unfold flushWindow
  dsimp only
  split
  case isTrue h =>
    rw [toNat_wmin, h]
    exact ⟨Nat.le_refl _, nofun⟩
  case isFalse =>
    rw [toNat_wmin, toNat_wmin]
    exact ⟨Nat.min_le_right _ _, fun _ => Nat.min_le_left _ _⟩

/-- No segment that the walk looks at has the credit for a fast resend. -/
theorem flushLoop_change {env : FlushEnv} {acc : FlushAcc} {segs : List KcpSegment}
    (h : ∀ seg ∈ segs, ¬ env.resent ≤ seg.fastack) :
    (flushLoop env acc segs).1.change = acc.change := by
  induction segs generalizing acc with
  | nil => rfl
  | cons seg rest ih =>
    rw [flushLoop]
    refine (ih fun s hs => h s (List.mem_cons_of_mem _ hs)).trans ?_
    have hslow := h seg List.mem_cons_self
    rw [flushSegment, needSend]
    dsimp only
    split
    case h_1 => rfl
    case h_2 acc' seg' hsend =>
      split at hsend
      · cases hsend
        rfl
      · split at hsend
        · cases hsend
          rfl
        · rw [if_neg fun hfast => hslow hfast.1] at hsend
          cases hsend

end Kcp

/-! ## 5. One call -/

/-- The congestion window, its byte counter and the threshold. -/
def Kcp.control (k : Kcp) : U16 × Nat × U16 := (k.cwnd, k.incr, k.ssthresh)

/-- What a fast resend adds to the window is at most 32768, and with fast resend off no segment has
collected a word's worth of credit. -/
def Kcp.FastSound (k : Kcp) : Prop :=
  k.fastresend.toNat ≤ 32768 ∧ (k.fastresend = 0 → ∀ s ∈ k.sndBuf, s.fastack ≠ -1)

/-- A datagram size that the adapter admits, and a flush under a sound fast-resend threshold. -/
def Kcp.Admitted (k : Kcp) (e : EngineEvent) : Prop :=
  (∀ mtu, e = .act (.setMtu mtu) → mtu ≤ Kcp.kcpMtuCeiling) ∧
    ∀ k', k.flushing e = some k' → k'.FastSound

namespace Kcp

variable {k k' : Kcp} {e : EngineEvent}

theorem control_eq (h : k'.control = k.control) :
    k'.cwnd = k.cwnd ∧ k'.incr = k.incr ∧ k'.ssthresh = k.ssthresh := by
  simpa only [control, Prod.mk.injEq] using h

/-- A call that neither flushes nor takes a datagram leaves the control alone. -/
theorem control_after {a : Action} (hflush : k.flushing (.act a) = none) :
    (k.after (.act a)).control = k.control := by
  cases a with
  | send data =>
    change (k.sendOwned data).1.control = k.control
    rw [sendOwned_eq]
    rfl
  | recv => exact (congrArg control (segmentKept_recvPop k) :)
  | update current =>
    obtain ⟨tsFlush, heq⟩ := update_of_none k hflush
    change (k.update current).1.control = k.control
    rw [heq]
    rfl
  | flush =>
    cases hup : k.flags.updated with
    | false =>
      change k.flush.1.control = k.control
      rw [flush_of_not_updated k hup]
    | true =>
      rw [flushing, hup] at hflush
      cases hflush
  | flushAck => exact (congrArg control (flushKept_flushAck k) :)
  | setMtu mtu =>
    change (k.setMtu mtu).control = k.control
    unfold setMtu
    simp only []
    split <;> rfl
  | retransmitSn | setNodelay | setWndsize => rfl

/-- The segment size stays within the ceiling. -/
theorem mss_after (hmss : k.mss ≤ mssCeiling) (he : k.Admitted e) :
    (k.after e).mss ≤ mssCeiling := by
  have hkept : (k.after e).settings = k.settings → (k.after e).mss ≤ mssCeiling := by
    intro h
    have heq : (k.after e).mss = k.mss := congrArg (fun s => s.2.2.1) h
    rwa [heq]
  by_cases hmtu : ∃ mtu, e = .act (.setMtu mtu)
  · obtain ⟨mtu, rfl⟩ := hmtu
    have hle := he.1 mtu rfl
    have hmax : max mtu (kcpOverhead + 1) - kcpOverhead ≤ mssCeiling := by
      change max mtu 25 - 24 ≤ 8000 - 24
      have hceiling : mtu ≤ 8000 := hle
      omega
    change (k.setMtu mtu).mss ≤ mssCeiling
    unfold setMtu
    simp only []
    split
    · exact hmax
    · exact hmss
  by_cases hnodelay : ∃ nd interval resend nc, e = .act (.setNodelay nd interval resend nc)
  · obtain ⟨nd, interval, resend, nc, rfl⟩ := hnodelay
    exact hmss
  exact hkept (settings_after k (fun mtu h => hmtu ⟨mtu, h⟩)
    fun nd interval resend nc h => hnodelay ⟨nd, interval, resend, nc, h⟩)

/-- The engine of which `input` steps the window. -/
def credited (k : Kcp) (acks : AckRun) : Kcp :=
  if acks.flag then k.parseFastack acks.maxAck acks.latestTs else k

theorem segmentKept_credited (k : Kcp) (acks : AckRun) :
    (k.credited acks).segmentKept = k.segmentKept := by
  unfold credited
  split
  · unfold parseFastack
    split <;> rfl
  · rfl

theorem segmentKept_inputLoop (k : Kcp) (buf : Bytes) :
    (inputLoop buf.length k {} buf).1.segmentKept = k.segmentKept :=
  inputLoop_inv (P := fun k' => k'.segmentKept = k.segmentKept)
    (fun k' acks head rest hk => (segmentKept_inputSegment k' acks head rest).trans hk)
    buf.length k {} buf rfl

/-- **A datagram** steps the window of the engine its segments leave behind, or none. -/
theorem input_cases (k : Kcp) (buf : Bytes) :
    (∃ k' : Kcp, k'.segmentKept = k.segmentKept ∧ (k.input buf).1 = k' ∧
      k.inputCwndChecks buf = true) ∨
    ∃ k' : Kcp, k'.segmentKept = k.segmentKept ∧ (k.input buf).1 = k'.updateCwndAfterAcks k.sndUna ∧
      k.inputCwndChecks buf = k'.growthChecks k.sndUna := by
  have hloop := segmentKept_inputLoop k buf
  unfold input inputCwndChecks
  split
  case isTrue hshort => exact Or.inl ⟨k, rfl, rfl, by rw [decide_eq_true hshort]; rfl⟩
  case isFalse hlong =>
    rw [decide_eq_false hlong, Bool.false_or]
    cases hr : inputLoop buf.length k {} buf with
    | mk k' rest =>
      obtain ⟨acks, r⟩ := rest
      rw [hr] at hloop
      cases r with
      | error e => exact Or.inl ⟨k', hloop, rfl, rfl⟩
      | ok rest =>
        exact Or.inr ⟨k'.credited acks, (segmentKept_credited k' acks).trans hloop, rfl, rfl⟩

/-- The window after an acknowledgement, whatever its counter. -/
theorem cwnd_updateCwndAfterAcks (k : Kcp) (una : U32) :
    (k.updateCwndAfterAcks una).rmtWnd = k.rmtWnd ∧
      ((k.updateCwndAfterAcks una).cwnd = k.cwnd ∨
        (k.updateCwndAfterAcks una).cwnd ≤ k.rmtWnd) := by
  unfold updateCwndAfterAcks
  split
  case isTrue => exact ⟨rfl, Or.inl rfl⟩
  case isFalse =>
    split
    case isTrue => exact ⟨rfl, Or.inr (BitVec.le_refl _)⟩
    case isFalse hwithin => exact ⟨rfl, Or.inr (BitVec.not_lt.mp hwithin)⟩

/-- **The window after a datagram**: within the peer's, or as it was, at or above the peer's. -/
theorem cwnd_input (k : Kcp) (buf : Bytes) :
    (k.input buf).1.cwnd ≤ (k.input buf).1.rmtWnd ∨
      (k.input buf).1.cwnd = k.cwnd ∧ (k.input buf).1.rmtWnd ≤ k.cwnd := by
  have hsame : ∀ k' : Kcp, k'.cwnd = k.cwnd →
      k'.cwnd ≤ k'.rmtWnd ∨ k'.cwnd = k.cwnd ∧ k'.rmtWnd ≤ k.cwnd := by
    intro k' hcwnd
    rcases BitVec.le_total k'.cwnd k'.rmtWnd with h | h
    · exact Or.inl h
    · exact Or.inr ⟨hcwnd, hcwnd ▸ h⟩
  rcases input_cases k buf with ⟨k', hkept, heq, -⟩ | ⟨k', hkept, heq, -⟩
  · rw [heq]
    exact hsame k' (congrArg Kcp.cwnd hkept :)
  · obtain ⟨hrmt, hcwnd | hle⟩ := cwnd_updateCwndAfterAcks k' k.sndUna
    · rw [heq]
      exact hsame _ (hcwnd.trans (congrArg Kcp.cwnd hkept :))
    · rw [heq, hrmt]
      exact Or.inl hle

end Kcp

namespace Controlled

variable {k k' : Kcp}

theorem of_control (h : Controlled k) (hmss : 0 < k'.mss ∧ k'.mss ≤ mssCeiling)
    (hcontrol : k'.control = k.control) : Controlled k' := by
  obtain ⟨hcwnd, hincr, hthresh⟩ := Kcp.control_eq hcontrol
  refine ⟨hmss, hthresh ▸ h.ssthresh, ?_⟩
  rw [hcwnd, hincr]
  exact h.incr

theorem new (conv : U32) : Controlled (newStream conv) := by
  refine ⟨?_, ?_, Or.inl (Nat.zero_le _)⟩
  · change 0 < kcpMtuDef - kcpOverhead ∧ kcpMtuDef - kcpOverhead ≤ mssCeiling
    decide
  · change 2 ≤ kcpThreshInit.toNat
    decide

/-- **A datagram.** -/
theorem input (h : Controlled k) (buf : Bytes) :
    k.inputCwndChecks buf = true ∧ Controlled (k.input buf).1 := by
  have hkept : ∀ k' : Kcp, k'.segmentKept = k.segmentKept → Controlled k' := by
    intro k' hk'
    have hmss : k'.mss = k.mss := (congrArg Kcp.mss hk' :)
    exact h.of_control (hmss ▸ h.mss) (congrArg Kcp.control hk' :)
  rcases Kcp.input_cases k buf with ⟨k', hk', heq, hchecks⟩ | ⟨k', hk', heq, hchecks⟩
  · rw [heq]
    exact ⟨hchecks, hkept k' hk'⟩
  · obtain ⟨hgrowth, hnext, -⟩ := (hkept k' hk').growth k.sndUna
    rw [heq, hchecks]
    exact ⟨hgrowth, hnext⟩

/-- **A flush.** -/
theorem flush (h : Controlled k) (hup : k.flags.updated = true) (hfast : k.FastSound) :
    k.flushCwndChecks = true ∧ Controlled k.flush.1 := by
  have hkept := Kcp.flushKept_flushWalked k
  have hmss : k.flushWalked.mss = k.mss := (congrArg Kcp.mss hkept :)
  have hwalked : Controlled k.flushWalked :=
    h.of_control (hmss ▸ h.mss) (congrArg Kcp.control hkept :)
  have hresend : k.flushFill.fastresend = k.fastresend :=
    (congrArg Kcp.fastresend (Kcp.flushKept_flushFill k) :)
  have hresent : 0 < k.flushWalk.1.change →
      (k.flushFill.flushEnv k.wndUnused).resent.toNat ≤ 32768 := by
    intro hchange
    rw [Kcp.flushEnv, hresend]
    dsimp only
    split
    case isTrue => exact hfast.1
    case isFalse hoff =>
      have hzero : k.fastresend = 0 := BitVec.eq_of_toNat_eq
        (Nat.eq_zero_of_not_pos fun hpos => hoff (BitVec.lt_def.mpr hpos))
      have hnone : k.flushWalk.1.change = 0 := by
        refine Kcp.flushLoop_change fun seg hseg hcredit => ?_
        rw [Kcp.flushEnv, hresend, if_neg hoff] at hcredit
        rcases Kcp.mem_flushFill k hseg with hold | ⟨⟨-, hnew⟩, -⟩
        · refine hfast.2 hzero seg hold ?_
          have hle : 2 ^ 32 - 1 ≤ seg.fastack.toNat := BitVec.le_def.mp hcredit
          bv_omega
        · rw [hnew] at hcredit
          have hle : (BitVec.ofNat 32 (2 ^ 32 - 1) : U32) ≤ 0 := hcredit
          exact absurd hle (by decide)
      rw [hnone] at hchange
      exact absurd hchange (by decide)
  obtain ⟨hchecks, hnext, -⟩ := hwalked.updateSsthresh k.flushWalk.1.change k.flushWalk.1.lost
    k.cwnd hresent
  rw [Kcp.flush_eq k hup]
  exact ⟨hchecks, hnext⟩

/-- **One call.** -/
theorem after (h : Controlled k) (hk : Configured k) {e : EngineEvent} (he : k.Admitted e) :
    k.cwndChecks e = true ∧ Controlled (k.after e) := by
  have hmss : 0 < (k.after e).mss ∧ (k.after e).mss ≤ mssCeiling :=
    ⟨(hk.after e).mss, Kcp.mss_after h.mss.2 he⟩
  cases e with
  | input buf => exact h.input buf
  | act a =>
    change ((k.flushing (.act a)).all Kcp.flushCwndChecks) = true ∧ _
    cases hflush : k.flushing (.act a) with
    | none => exact ⟨rfl, h.of_control hmss (Kcp.control_after hflush)⟩
    | some k' =>
      obtain ⟨hup, hafter, current, tsFlush, rfl⟩ := Kcp.flushing_eq hflush
      have hclocked : Controlled (k.clocked current tsFlush) := ⟨h.mss, h.ssthresh, h.incr⟩
      rw [hafter]
      exact hclocked.flush hup (he.2 _ hflush)

end Controlled

/-! ## 6. Every run -/

/-- A completed flush leaves a window of one at least. -/
theorem one_le_cwnd_flush {k : Kcp} (hup : k.flags.updated = true) : 1 ≤ k.flush.1.cwnd.toNat := by
  rw [Kcp.flush_eq k hup]
  exact one_le_cwndFloor _

theorem ssthresh_updateSsthresh {k : Kcp} (h : 2 ≤ k.ssthresh.toNat) (change resent : U32)
    (lost : Bool) (prior : U16) :
    2 ≤ (k.updateSsthresh change resent lost prior).ssthresh.toNat := by
  have hfast : 2 ≤ (k.ssthreshAfterFast change resent).ssthresh.toNat := by
    unfold Kcp.ssthreshAfterFast
    split
    · exact (threshOf_ge _).1
    · exact h
  have hloss :
      2 ≤ ((k.ssthreshAfterFast change resent).ssthreshAfterLoss lost prior).ssthresh.toNat := by
    unfold Kcp.ssthreshAfterLoss
    split
    · exact (threshOf_ge _).1
    · exact hfast
  unfold Kcp.updateSsthresh Kcp.cwndFloor
  split
  · exact hloss
  · exact hloss

/-- **The threshold**, after any call. -/
theorem ssthresh_after {k : Kcp} (h : 2 ≤ k.ssthresh.toNat) (e : EngineEvent) :
    2 ≤ (k.after e).ssthresh.toNat := by
  cases e with
  | input buf =>
    have hkept : (k.input buf).1.ssthresh = k.ssthresh :=
      (congrArg Kcp.ssthresh (Kcp.inputKept_input k buf) :)
    exact hkept ▸ h
  | act a =>
    cases hflush : k.flushing (.act a) with
    | none =>
      rw [(Kcp.control_eq (Kcp.control_after hflush)).2.2]
      exact h
    | some k' =>
      obtain ⟨hup, hafter, current, tsFlush, rfl⟩ := Kcp.flushing_eq hflush
      have hwalked : (k.clocked current tsFlush).flushWalked.ssthresh = k.ssthresh :=
        (congrArg Kcp.ssthresh (Kcp.flushKept_flushWalked (k.clocked current tsFlush)) :)
      rw [hafter, Kcp.flush_eq _ hup]
      exact ssthresh_updateSsthresh (by rw [hwalked]; exact h) _ _ _ _

/-- **Flow and congestion control.**  In every run: what a flush numbers is inside the sender's, the
peer's and the congestion window; a flush leaves a congestion window of one at least; a datagram
leaves one within the peer's window, or the one it met, at or above the peer's; and the threshold is
two at least.  In a run of admitted datagram sizes and sound fast-resend thresholds nothing in the
window's arithmetic overflows or divides by zero. -/
theorem congestion_control (k : Kcp) :
    (engine.Reach k →
      (∀ e k', k.flushing e = some k' → 1 ≤ (k.after e).cwnd.toNat ∧
        ∀ s ∈ k'.flushFill.sndBuf, s ∈ k'.sndBuf ∨
          (s.sn - k'.sndUna).toNat < min k'.sndWnd.toNat k'.rmtWnd.toNat ∧
            (k'.flags.nocwnd = false → (s.sn - k'.sndUna).toNat < k'.cwnd.toNat)) ∧
      (∀ buf, (k.input buf).1.cwnd.toNat ≤ max 1 (k.input buf).1.rmtWnd.toNat ∨
        (k.input buf).1.cwnd = k.cwnd ∧ (k.input buf).1.rmtWnd ≤ k.cwnd) ∧
      2 ≤ k.ssthresh.toNat) ∧
    ((engine.restrict Kcp.Admitted).Reach k →
      ∀ e, k.Admitted e → k.cwndChecks e = true) := by
  constructor
  · intro h
    have hw := engine_windowed h
    have hthresh : 2 ≤ k.ssthresh.toNat := by
      refine h.invariant (P := fun k => 2 ≤ k.ssthresh.toNat) ?_ ?_
      · rintro k ⟨conv, rfl⟩
        exact (Controlled.new conv).ssthresh
      · rintro k e k' hk rfl
        exact ssthresh_after hk e
    refine ⟨fun e k' hflush => ?_, fun buf => ?_, hthresh⟩
    · obtain ⟨hup, hafter, current, tsFlush, rfl⟩ := Kcp.flushing_eq hflush
      have hclocked : Windowed (k.clocked current tsFlush) := hw
      obtain ⟨hpeer, hcwnd⟩ := Kcp.flushWindow_le (k.clocked current tsFlush)
      rw [hafter]
      refine ⟨one_le_cwnd_flush hup, fun s hs => ?_⟩
      rcases Kcp.fill_within hclocked hs with hold | hnew
      · exact Or.inl hold
      · exact Or.inr ⟨Nat.lt_of_lt_of_le hnew hpeer,
          fun hcc => Nat.lt_of_lt_of_le hnew (hcwnd hcc)⟩
    · rcases Kcp.cwnd_input k buf with hle | hkeep
      · exact Or.inl (Nat.le_trans (BitVec.le_def.mp hle) (Nat.le_max_right _ _))
      · exact Or.inr hkeep
  · intro h e he
    have hinv : Configured k ∧ Controlled k := by
      refine h.invariant (P := fun k => Configured k ∧ Controlled k) ?_ ?_
      · rintro k ⟨conv, rfl⟩
        exact ⟨.new conv, .new conv⟩
      · rintro k e k' ⟨hconf, hctl⟩ ⟨hadm, rfl⟩
        exact ⟨hconf.after e, (hctl.after hconf hadm).2⟩
    exact (hinv.2.after hinv.1 he).1

/-- An acknowledgement of everything before `una`, with the window that the peer advertises. -/
def ackDatagram (una : U32) (wnd : U16) : EngineEvent :=
  .input ({ conv := 7, cmd := kcpCmdAck, wnd := wnd, sn := una - 1, una := una } :
    KcpSegment).encode

/-- Two segments go out under congestion control, and the first is acknowledged. -/
def secondOut : List EngineEvent :=
  [.act (.update 0), .act (.send [1]), .act .flush, ackDatagram 1 128, .act (.send [2]),
    .act .flush]

/-- What the run has to check for `Admitted`. -/
def admits (k : Kcp) (e : EngineEvent) : Bool :=
  (match e with | .act (.setMtu _) => false | _ => true) &&
    (k.flushing e).all fun k' =>
      k'.fastresend.toNat ≤ 32768 && k'.sndBuf.all fun s => s.fastack ≠ -1

/-- The run is admitted, and its next datagram's arithmetic is in order. -/
theorem congestion_control_second :
    ∃ k : Kcp, k.cwnd = 2 ∧ 2 ≤ k.ssthresh.toNat ∧ k.cwndChecks (ackDatagram 2 128) = true := by
  have hrun : (Lts.runWith (fun k e => some (Kcp.after k e)) admits (newStream 7) secondOut).any
      (fun k => k.cwnd = 2) = true := by
    decide +kernel
  have hok : ∀ (k : Kcp) (e : EngineEvent), admits k e = true → k.Admitted e := by
    intro k e h
    obtain ⟨hmtu, hflush⟩ := Bool.and_eq_true_iff.mp h
    refine ⟨?_, fun k' hk' => ?_⟩
    · rintro mtu rfl
      cases hmtu
    · rw [hk'] at hflush
      obtain ⟨hfast, hcredit⟩ := Bool.and_eq_true_iff.mp hflush
      exact ⟨of_decide_eq_true hfast, fun _ s hs =>
        of_decide_eq_true (List.all_eq_true.mp hcredit s hs)⟩
  obtain ⟨k, hk, hp⟩ := Lts.Reach.exists_runWith (T := engine) (C := Kcp.Admitted)
    (fun k e k' h => (Option.some.inj h :)) hok ⟨7, rfl⟩ hrun
  have hthresh := ((congestion_control k).1 hk.of_restrict).2.2
  refine ⟨k, of_decide_eq_true hp, hthresh, (congestion_control k).2 hk _ ⟨?_, ?_⟩⟩
  · intro mtu h
    cases h
  · intro k' h
    cases h

/-- **The peer closes its window below the congestion window.**  The datagram acknowledges a segment
and leaves the window of two, although the peer takes one. -/
theorem cwnd_above_peer :
    ∃ k : Kcp, engine.Reach k ∧ 0 < timediff (k.after (ackDatagram 2 1)).sndUna k.sndUna ∧
      (k.after (ackDatagram 2 1)).rmtWnd = 1 ∧
      ¬ (k.after (ackDatagram 2 1)).cwnd.toNat
        ≤ max 1 (k.after (ackDatagram 2 1)).rmtWnd.toNat := by
  have hrun : (Lts.runWith (fun k e => some (Kcp.after k e)) (fun _ _ => true)
      (newStream 7) secondOut).any (fun k =>
        0 < timediff (k.after (ackDatagram 2 1)).sndUna k.sndUna ∧
        (k.after (ackDatagram 2 1)).rmtWnd = 1 ∧
        ¬ (k.after (ackDatagram 2 1)).cwnd.toNat
          ≤ max 1 (k.after (ackDatagram 2 1)).rmtWnd.toNat) = true := by
    decide +kernel
  obtain ⟨k, hk, hp⟩ := Lts.Reach.exists_run (T := engine)
    (fun k e k' h => (Option.some.inj h :)) ⟨7, rfl⟩ hrun
  exact ⟨k, hk, of_decide_eq_true hp⟩

end Molehill
