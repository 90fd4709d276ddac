/-
# No wake-up is lost

A task that sleeps is registered, and what it waits for is not there (`no_lost_wakeup`): between
two steps of the connection a sleeping writer finds the channel full or has no credit, and a
sleeping reader has nothing to read, no end to report and no window update to send.  The argument
is the code's own (`park_on_full_channel`): a wake after the store sees the stored waker, a wake
before it is caught by the second look at the channel.

Once the connection has failed that is over: a writer that meets the full channel between the last
wake and the drain sleeps for good (`asleep_after_the_end`).
-/
import Molehill.Mux.Delivery
import Molehill.Mux.Polls

namespace Molehill.Mux

open Function Lib

/-! ## 1. What keeps a task asleep -/

namespace Polled

/-- The channel is full, or the connection has made room and will wake who waits for it. -/
def Blocked (t : Polled) : Prop := channelDepth ≤ t.s.channel.length ∨ t.conn = .popped

/-- A parked read will be woken for its window update. -/
def Promised (t : Polled) : Prop :=
  t.s.due → t.s.state.canRead = true → (t.readerPark = true ∧ t.Blocked) ∨ t.readerWoken = true

/-- **The writer's side**: after a park its waker is in the slot, or has been taken to be used; and
when it sleeps, it has cause to. -/
structure WriterInv (t : Polled) : Prop where
  polling : t.pc.writes = true → t.writerWaits = false
  stored : t.pc = .recheckWriter ∨ t.pc = .unparkWriter →
    t.writer = true ∨ t.writerWoken = true ∨ t.conn.wakesWriter = true
  asleep : t.writerWaits = true → t.writerWoken = true ∨ t.conn.wakesWriter = true ∨
    (t.writer = true ∧
      (t.Blocked ∨ (t.s.state.canWrite = true ∧ t.s.sendWindow = 0)))

/-- **The reader's side.** -/
structure ReaderInv (t : Polled) : Prop where
  polling : t.pc.reads = true → t.readerWaits = false
  range : InRange t.s
  stored : ∀ cap n, t.pc = .recheckReader cap n ∨ t.pc = .unparkReader cap n →
    t.readerPark = true ∨ t.readerWoken = true
  settled : ∀ cap n f, t.pc = .endRead cap n ∨ t.pc = .sendRead cap n f → t.Promised
  asleep : t.readerWaits = true → t.readerWoken = true ∨ t.conn.wakesReader = true ∨
    (t.reader = true ∧ t.s.buffer = [] ∧ t.s.state.canRead = true ∧ t.Promised)

variable {t t' : Polled} {cfg : Config} {id : StreamId}

/-- What keeps a promise to the reader. -/
theorem Promised.mono (h : t.Promised) (hd : t'.s.due → t.s.due)
    (hc : t'.s.state.canRead = true → t.s.state.canRead = true)
    (hp : t.readerPark = true → t.Blocked →
      (t'.readerPark = true ∧ t'.Blocked) ∨ t'.readerWoken = true)
    (hw : t.readerWoken = true → t'.readerWoken = true) : t'.Promised := by
  intro hdue hread
  rcases h (hd hdue) (hc hread) with ⟨hpark, hb⟩ | hwoken
  · exact hp hpark hb
  · exact Or.inr (hw hwoken)

/-- What keeps the writer's side, outside the writer's own polls. -/
theorem WriterInv.mono (h : t.WriterInv)
    (hpc : t'.pc = t.pc ∨ t'.pc.writes = false)
    (hwaits : t'.writerWaits = t.writerWaits)
    (hwoken : t.writerWoken = true → t'.writerWoken = true)
    (hconn : t.conn.wakesWriter = true → t'.writerWoken = true ∨ t'.conn.wakesWriter = true)
    (hslot : t.writer = true →
      t'.writerWoken = true ∨ t'.conn.wakesWriter = true ∨ t'.writer = true)
    (hcause : t'.writer = true → t.Blocked ∨ (t.s.state.canWrite = true ∧ t.s.sendWindow = 0) →
      t'.Blocked ∨ (t'.s.state.canWrite = true ∧ t'.s.sendWindow = 0)) : t'.WriterInv where
  polling hp := by
    rcases hpc with hpc | hpc
    · rw [hwaits]
      exact h.polling (hpc ▸ hp)
    · rw [hpc] at hp
      cases hp
  stored hp := by
    have hold : t.pc = .recheckWriter ∨ t.pc = .unparkWriter := by
      rcases hpc with hpc | hpc
      · exact hpc ▸ hp
      · rcases hp with hp | hp
        · rw [hp] at hpc
          cases hpc
        · rw [hp] at hpc
          cases hpc
    rcases h.stored hold with hs | hs | hs
    · rcases hslot hs with hs | hs | hs
      · exact Or.inr (Or.inl hs)
      · exact Or.inr (Or.inr hs)
      · exact Or.inl hs
    · exact Or.inr (Or.inl (hwoken hs))
    · exact Or.inr (hconn hs)
  asleep hw := by
    rcases h.asleep (hwaits ▸ hw) with hs | hs | ⟨hs, hb⟩
    · exact Or.inl (hwoken hs)
    · exact (hconn hs).imp_right Or.inl
    · rcases hslot hs with hs | hs | hs
      · exact Or.inl hs
      · exact Or.inr (Or.inl hs)
      · exact Or.inr (Or.inr ⟨hs, hcause hs hb⟩)

/-- A step of the writer's own poll that goes on. -/
theorem WriterInv.of_writing (hwaits : t'.writerWaits = false)
    (hstored : t'.pc = .recheckWriter ∨ t'.pc = .unparkWriter →
      t'.writer = true ∨ t'.writerWoken = true ∨ t'.conn.wakesWriter = true) :
    t'.WriterInv where
  polling _ := hwaits
  stored := hstored
  asleep hw := by
    rw [hwaits] at hw
    cases hw

/-! ### The writer's side, step by step -/

namespace WriterInv

theorem begin {call : Call} (h : t.WriterInv) (hs : t.begin call = some t') : t'.WriterInv := by
  unfold Polled.begin at hs
  split at hs
  · cases hs
  cases call with
  | write buf =>
    cases hs
    refine of_writing rfl fun hp => ?_
    dsimp only at hp
    split at hp <;> simp at hp
  | shutdown =>
    cases hs
    refine of_writing rfl fun hp => ?_
    dsimp only at hp
    split at hp <;> simp at hp
  | read cap =>
    cases hs
    exact h.mono (Or.inr rfl) rfl (fun hw => hw) Or.inr (fun hw => Or.inr (Or.inr hw))
      (fun _ hb => hb)

/-- A step of the reader's poll leaves the writer's slot and tasks alone. -/
theorem of_reading (h : t.WriterInv) (hpc : t'.pc.writes = false)
    (hwaits : t'.writerWaits = t.writerWaits) (hwoken : t'.writerWoken = t.writerWoken)
    (hconn : t'.conn = t.conn) (hslot : t'.writer = t.writer)
    (hlen : t.s.channel.length ≤ t'.s.channel.length) (hstate : t'.s.state = t.s.state)
    (hsend : t'.s.sendWindow = t.s.sendWindow) : t'.WriterInv := by
  refine h.mono (Or.inr hpc) hwaits (fun hw => hwoken ▸ hw) (fun hw => Or.inr (hconn ▸ hw))
    (fun hw => Or.inr (Or.inr (hslot ▸ hw))) fun _ hb => ?_
  rcases hb with (hb | hb) | hb
  · exact Or.inl (Or.inl (Nat.le_trans hb hlen))
  · exact Or.inl (Or.inr (hconn ▸ hb))
  · rw [hstate, hsend]
    exact Or.inr hb

/-- **The poll's next access** keeps the writer's side. -/
theorem advance {accumulated : Nat} {fast : Bool} (h : t.WriterInv)
    (hs : t.advance cfg id accumulated fast = some t') : t'.WriterInv := by
  unfold Polled.advance at hs
  have hpoll := h.polling
  have hstored := h.stored
  cases hpc : t.pc with
  | idle =>
    rw [hpc] at hs
    cases hs
  | lockWrite buf =>
    rw [hpc] at hs hpoll
    cases hs
    unfold lockWrite
    split
    · exact of_writing (hpoll rfl) (by simp)
    split
    next hcw hsend =>
      refine ⟨fun hp => (by cases hp), by simp, fun _ => Or.inr (Or.inr ⟨rfl, Or.inr ⟨?_, hsend⟩⟩)⟩
      simpa using hcw
    · refine of_writing (hpoll rfl) fun hp => ?_
      dsimp only at hp
      split at hp <;> simp at hp
  | ackWrite f =>
    rw [hpc] at hs hpoll
    cases hs
    exact of_writing (hpoll rfl) (by simp)
  | sendWrite f =>
    rw [hpc] at hs hpoll
    cases hs
    exact of_writing (hpoll rfl) (by simp)
  | parkWriter =>
    rw [hpc] at hs hpoll
    cases hs
    exact of_writing (hpoll rfl) fun _ => Or.inl rfl
  | recheckWriter =>
    rw [hpc] at hs hpoll hstored
    have hst := hstored (Or.inl rfl)
    cases hs
    split
    next hfull =>
      -- the second look still finds the channel full
      refine ⟨fun hp => (by cases hp), by simp, fun _ => ?_⟩
      rcases hst with hst | hst | hst
      · exact Or.inr (Or.inr ⟨hst, Or.inl (Or.inl (of_decide_eq_true hfull))⟩)
      · exact Or.inl hst
      · exact Or.inr (Or.inl hst)
    · exact of_writing (hpoll rfl) fun _ => hst
  | unparkWriter =>
    rw [hpc] at hs hstored
    have hst := hstored (Or.inr rfl)
    cases hs
    refine ⟨fun hp => (by cases hp), by simp, fun _ => ?_⟩
    dsimp only
    rw [Bool.or_eq_true]
    rcases hst with hst | hst | hst
    · exact Or.inl (Or.inr hst)
    · exact Or.inl (Or.inl hst)
    · exact Or.inr (Or.inl hst)
  | capacityShutdown =>
    rw [hpc] at hs hpoll
    cases hs
    split
    · exact of_writing (hpoll rfl) (by simp)
    · exact of_writing (hpoll rfl) (by simp)
  | sendShutdown ack =>
    rw [hpc] at hs hpoll
    cases hs
    refine of_writing (hpoll rfl) fun hp => ?_
    dsimp only at hp
    split at hp <;> simp at hp
  | stateShutdown =>
    rw [hpc] at hs hpoll
    cases hs
    exact of_writing (hpoll rfl) (by simp)
  | stateRead cap n =>
    rw [hpc] at hs
    cases hs
    refine h.of_reading ?_ rfl rfl rfl rfl (Nat.le_refl _) rfl rfl
    dsimp only
    split <;> rfl
  | capacityRead cap n =>
    rw [hpc] at hs
    cases hs
    refine h.of_reading ?_ rfl rfl rfl rfl (Nat.le_refl _) rfl rfl
    dsimp only
    split <;> rfl
  | grantRead cap n =>
    rw [hpc] at hs
    cases hs
    obtain ⟨hg, -⟩ | ⟨s', f, hg, hk, hch, -⟩ := grantRead_cases cfg id accumulated fast cap n t
    · rw [hg]
      exact h.of_reading rfl rfl rfl rfl rfl (Nat.le_refl _) rfl rfl
    · rw [hg]
      refine h.of_reading rfl rfl rfl rfl rfl (Nat.le_of_eq ?_) hk.state hk.sendWindow
      exact congrArg List.length hch.symm
  | sendRead cap n f =>
    rw [hpc] at hs
    cases hs
    have hk := t.trySend_kept (.sendFrame f)
    refine h.of_reading ?_ rfl rfl rfl rfl (t.trySend_length _) hk.state hk.sendWindow
    dsimp only
    split <;> rfl
  | parkReader cap n =>
    rw [hpc] at hs
    cases hs
    exact h.of_reading rfl rfl rfl rfl rfl (Nat.le_refl _) rfl rfl
  | recheckReader cap n =>
    rw [hpc] at hs
    cases hs
    refine h.of_reading ?_ rfl rfl rfl rfl (Nat.le_refl _) rfl rfl
    dsimp only
    split <;> rfl
  | unparkReader cap n =>
    rw [hpc] at hs
    cases hs
    exact h.of_reading rfl rfl rfl rfl rfl (Nat.le_refl _) rfl rfl
  | endRead cap n =>
    rw [hpc] at hs
    cases hs
    unfold endRead
    split
    · exact h.of_reading rfl rfl rfl rfl rfl (Nat.le_refl _) rfl rfl
    split
    · exact h.of_reading rfl rfl rfl rfl rfl (Nat.le_refl _) rfl rfl
    split
    · exact h.of_reading rfl rfl rfl rfl rfl (Nat.le_refl _) rfl rfl
    · exact h.of_reading rfl rfl rfl rfl rfl (Nat.le_refl _) rfl rfl

/-- **The connection's steps** keep the writer's side. -/
theorem pop (h : t.WriterInv) (hs : t.pop = some t') : t'.WriterInv := by
  unfold Polled.pop at hs
  split at hs
  · cases hs
  next hopen =>
  have hidle : t.conn = .idle := by
    by_contra hne
    simp [hne] at hopen
  cases hs
  refine h.mono (Or.inl rfl) rfl (fun hw => hw) (fun hw => ?_) (fun hw => Or.inr (Or.inr hw))
    fun _ _ => Or.inl (Or.inr rfl)
  rw [hidle] at hw
  cases hw

theorem settle (h : t.WriterInv) (hs : t.settle = some t') : t'.WriterInv := by
  unfold Polled.settle at hs
  split at hs
  · cases hs
  next hconn =>
    cases hs
    refine h.mono (Or.inl rfl) rfl (fun hw => ?_) (fun hw => ?_) (fun hw => Or.inl ?_)
      (fun hw => (by cases hw))
    · exact Bool.or_eq_true_iff.mpr (Or.inl hw)
    · rw [hconn] at hw
      cases hw
    · exact Bool.or_eq_true_iff.mpr (Or.inr hw)
  next r w hconn =>
    cases hs
    refine h.mono (Or.inl rfl) rfl (fun hw => ?_) (fun hw => Or.inl ?_)
      (fun hw => Or.inr (Or.inr hw)) (fun _ hb => ?_)
    · exact Bool.or_eq_true_iff.mpr (Or.inl hw)
    · rw [hconn] at hw
      exact Bool.or_eq_true_iff.mpr (Or.inr hw)
    · rcases hb with (hb | hb) | hb
      · exact Or.inl (Or.inl hb)
      · rw [hconn] at hb
        cases hb
      · exact Or.inr hb

theorem hear {e : Heard} (h : t.WriterInv) (hs : t.hear e = some t') : t'.WriterInv := by
  unfold Polled.hear at hs
  split at hs
  · cases hs
  next hopen =>
  obtain ⟨s1, hs1, rfl⟩ := Option.map_eq_some_iff.mp hs
  have hidle : t.conn = .idle := by
    by_contra hne
    simp [hne] at hopen
  have hquiet : t.conn.wakesWriter = true → False := by
    rw [hidle]
    exact fun hw => (by cases hw)
  have hblocked : t.Blocked → channelDepth ≤ t.s.channel.length := by
    rintro (hb | hb)
    · exact hb
    · rw [hidle] at hb
      cases hb
  cases e with
  | ack =>
    cases hs1
    refine h.mono (Or.inl rfl) rfl (fun hw => hw) (fun hw => (hquiet hw).elim)
      (fun hw => Or.inr (Or.inr hw)) fun _ hb => ?_
    rcases hb with hb | ⟨hcw, hsend⟩
    · exact Or.inl hb
    · exact Or.inr ⟨(State.canWrite_update_opened _).trans hcw, hsend⟩
  | data body fin =>
    unfold Stream.heard at hs1
    dsimp only at hs1
    split at hs1
    · cases hs1
    cases hs1
    refine h.mono (Or.inl rfl) rfl (fun hw => hw) (fun hw => (hquiet hw).elim)
      (fun hw => Or.inr (Or.inr hw)) fun _ hb => ?_
    rcases hb with hb | ⟨hcw, hsend⟩
    · refine Or.inl (Or.inl ?_)
      cases fin <;> exact hblocked hb
    · refine Or.inr ?_
      cases fin with
      | false => exact ⟨hcw, hsend⟩
      | true => exact ⟨(State.canWrite_update_recvClosed _).trans hcw, hsend⟩
  | credit n fin =>
    unfold Stream.heard at hs1
    dsimp only at hs1
    split at hs1
    · cases hs1
    cases hs1
    exact h.mono (Or.inl rfl) rfl (fun hw => hw) (fun hw => (hquiet hw).elim)
      (fun hw => Or.inr (Or.inl hw)) fun hw => (by cases hw)
  | reset =>
    cases hs1
    exact h.mono (Or.inl rfl) rfl (fun hw => hw) (fun hw => (hquiet hw).elim)
      (fun hw => Or.inr (Or.inl hw)) fun hw => (by cases hw)

end WriterInv

/-! ### The reader's side, step by step -/

/-- What keeps the reader's side, outside the reader's own polls. -/
theorem ReaderInv.mono (h : t.ReaderInv) (hpc : t'.pc = t.pc ∨ t'.pc.reads = false)
    (hrange : t'.s.maxReceiveWindow = t.s.maxReceiveWindow)
    (hwaits : t'.readerWaits = t.readerWaits)
    (hwoken : t.readerWoken = true → t'.readerWoken = true)
    (hconn : t.conn.wakesReader = true → t'.readerWoken = true ∨ t'.conn.wakesReader = true)
    (hpark : t.readerPark = true → t'.readerPark = true ∨ t'.readerWoken = true)
    (hpromise : t.Promised → t'.Promised)
    (hslot : t.reader = true → t'.readerWoken = true ∨ t'.conn.wakesReader = true ∨
      (t'.reader = true ∧ (t.s.buffer = [] ∧ t.s.state.canRead = true →
        t'.s.buffer = [] ∧ t'.s.state.canRead = true))) : t'.ReaderInv where
  polling hp := by
    rcases hpc with hpc | hpc
    · rw [hwaits]
      exact h.polling (hpc ▸ hp)
    · rw [hpc] at hp
      cases hp
  range := ⟨hrange ▸ h.range.1, hrange ▸ h.range.2⟩
  stored cap n hp := by
    have hold : t.pc = .recheckReader cap n ∨ t.pc = .unparkReader cap n := by
      rcases hpc with hpc | hpc
      · exact hpc ▸ hp
      · rcases hp with hp | hp
        · rw [hp] at hpc
          cases hpc
        · rw [hp] at hpc
          cases hpc
    rcases h.stored cap n hold with hs | hs
    · exact hpark hs
    · exact Or.inr (hwoken hs)
  settled cap n f hp := by
    refine hpromise (h.settled cap n f ?_)
    rcases hpc with hpc | hpc
    · exact hpc ▸ hp
    · rcases hp with hp | hp
      · rw [hp] at hpc
        cases hpc
      · rw [hp] at hpc
        cases hpc
  asleep hw := by
    rcases h.asleep (hwaits ▸ hw) with hs | hs | ⟨hs, hb, hcr, hp⟩
    · exact Or.inl (hwoken hs)
    · exact (hconn hs).imp_right Or.inl
    · rcases hslot hs with hs | hs | ⟨hs, hkeep⟩
      · exact Or.inl hs
      · exact Or.inr (Or.inl hs)
      · obtain ⟨hb', hcr'⟩ := hkeep ⟨hb, hcr⟩
        exact Or.inr (Or.inr ⟨hs, hb', hcr', hpromise hp⟩)

/-- A step of the reader's own poll that goes on. -/
theorem ReaderInv.of_reading (hrange : InRange t'.s) (hwaits : t'.readerWaits = false)
    (hstored : ∀ cap n, t'.pc = .recheckReader cap n ∨ t'.pc = .unparkReader cap n →
      t'.readerPark = true ∨ t'.readerWoken = true)
    (hsettled : ∀ cap n f, t'.pc = .endRead cap n ∨ t'.pc = .sendRead cap n f → t'.Promised) :
    t'.ReaderInv where
  polling _ := hwaits
  range := hrange
  stored := hstored
  settled := hsettled
  asleep hw := by
    rw [hwaits] at hw
    cases hw

namespace ReaderInv

theorem begin {call : Call} (h : t.ReaderInv) (hs : t.begin call = some t') : t'.ReaderInv := by
  unfold Polled.begin at hs
  split at hs
  · cases hs
  cases call with
  | write buf =>
    cases hs
    refine h.mono (Or.inr ?_) rfl rfl (fun hw => hw) Or.inr Or.inl (fun hp => hp)
      fun hw => Or.inr (Or.inr ⟨hw, fun hk => hk⟩)
    dsimp only
    split <;> rfl
  | shutdown =>
    cases hs
    refine h.mono (Or.inr ?_) rfl rfl (fun hw => hw) Or.inr Or.inl (fun hp => hp)
      fun hw => Or.inr (Or.inr ⟨hw, fun hk => hk⟩)
    dsimp only
    split <;> rfl
  | read cap =>
    cases hs
    exact of_reading h.range rfl (by simp) (by simp)

/-- A step of the writer's poll leaves the reader's slots and tasks alone. -/
theorem of_writing (h : t.ReaderInv) (hpc : t'.pc.reads = false)
    (hrange : t'.s.maxReceiveWindow = t.s.maxReceiveWindow)
    (hrecv : t'.s.receiveWindow = t.s.receiveWindow) (hbuf : t'.s.buffer = t.s.buffer)
    (hread : t'.s.state.canRead = t.s.state.canRead)
    (hlen : t.s.channel.length ≤ t'.s.channel.length) (hwaits : t'.readerWaits = t.readerWaits)
    (hwoken : t'.readerWoken = t.readerWoken) (hconn : t'.conn = t.conn)
    (hslot : t'.reader = t.reader) (hpark : t'.readerPark = t.readerPark) : t'.ReaderInv := by
  refine h.mono (Or.inr hpc) hrange hwaits (fun hw => hwoken ▸ hw) (fun hw => Or.inr (hconn ▸ hw))
    (fun hw => Or.inl (hpark ▸ hw)) (fun hp => ?_) fun hw => Or.inr (Or.inr ⟨hslot ▸ hw, ?_⟩)
  · refine hp.mono (fun hd => ?_) (fun hc => hread ▸ hc) (fun hpk hb => Or.inl ⟨hpark ▸ hpk, ?_⟩)
      (fun hw => hwoken ▸ hw)
    · unfold Stream.due at hd ⊢
      rw [hrange, hrecv, hbuf] at hd
      exact hd
    · rcases hb with hb | hb
      · exact Or.inl (Nat.le_trans hb hlen)
      · exact Or.inr (hconn ▸ hb)
  · rw [hbuf, hread]
    exact fun hk => hk

theorem advance {accumulated : Nat} {fast : Bool} (h : t.ReaderInv)
    (hs : t.advance cfg id accumulated fast = some t') : t'.ReaderInv := by
  unfold Polled.advance at hs
  have hpoll := h.polling
  have hstored := h.stored
  have hsettled := h.settled
  cases hpc : t.pc with
  | idle =>
    rw [hpc] at hs
    cases hs
  | lockWrite buf =>
    rw [hpc] at hs
    cases hs
    unfold lockWrite
    split
    · exact h.of_writing rfl rfl rfl rfl rfl (Nat.le_refl _) rfl rfl rfl rfl rfl
    split
    · exact h.of_writing rfl rfl rfl rfl rfl (Nat.le_refl _) rfl rfl rfl rfl rfl
    · dsimp only
      rw [Stream.addFlag_eq]
      refine h.of_writing ?_ rfl rfl rfl rfl (Nat.le_refl _) rfl rfl rfl rfl rfl
      dsimp only
      split <;> rfl
  | ackWrite f =>
    rw [hpc] at hs
    cases hs
    exact h.of_writing rfl rfl rfl rfl (State.canRead_update_opened _) (Nat.le_refl _) rfl rfl rfl
      rfl rfl
  | sendWrite f =>
    rw [hpc] at hs
    cases hs
    have hk := t.trySend_kept (.sendFrame f)
    have hw := t.trySend_windows (.sendFrame f)
    exact h.of_writing rfl hw.1 hw.2 hk.buffer (congrArg State.canRead hk.state) (t.trySend_length _)
      rfl rfl rfl rfl rfl
  | parkWriter =>
    rw [hpc] at hs
    cases hs
    exact h.of_writing rfl rfl rfl rfl rfl (Nat.le_refl _) rfl rfl rfl rfl rfl
  | recheckWriter =>
    rw [hpc] at hs
    cases hs
    split
    · exact h.of_writing rfl rfl rfl rfl rfl (Nat.le_refl _) rfl rfl rfl rfl rfl
    · exact h.of_writing rfl rfl rfl rfl rfl (Nat.le_refl _) rfl rfl rfl rfl rfl
  | unparkWriter =>
    rw [hpc] at hs
    cases hs
    exact h.of_writing rfl rfl rfl rfl rfl (Nat.le_refl _) rfl rfl rfl rfl rfl
  | capacityShutdown =>
    rw [hpc] at hs
    cases hs
    split
    · exact h.of_writing rfl rfl rfl rfl rfl (Nat.le_refl _) rfl rfl rfl rfl rfl
    · exact h.of_writing rfl rfl rfl rfl rfl (Nat.le_refl _) rfl rfl rfl rfl rfl
  | sendShutdown ack =>
    rw [hpc] at hs
    cases hs
    have hk := t.trySend_kept (.closeStream ack)
    have hw := t.trySend_windows (.closeStream ack)
    refine h.of_writing ?_ hw.1 hw.2 hk.buffer (congrArg State.canRead hk.state)
      (t.trySend_length _) rfl rfl rfl rfl rfl
    dsimp only
    split <;> rfl
  | stateShutdown =>
    rw [hpc] at hs
    cases hs
    exact h.of_writing rfl rfl rfl rfl (State.canRead_update_sendClosed _) (Nat.le_refl _) rfl rfl
      rfl rfl rfl
  | stateRead cap n =>
    rw [hpc] at hs hpoll
    cases hs
    refine of_reading h.range (hpoll rfl) (fun cap n hp => ?_) fun cap' n' f hp => ?_
    · dsimp only at hp
      split at hp <;> simp at hp
    · intro _ hread
      dsimp only at hp hread
      rw [if_pos hread] at hp
      simp at hp
  | capacityRead cap n =>
    rw [hpc] at hs hpoll
    cases hs
    refine of_reading h.range (hpoll rfl) (fun cap n hp => ?_) fun cap n f hp => ?_
    · dsimp only at hp
      split at hp <;> simp at hp
    · dsimp only at hp
      split at hp <;> simp at hp
  | grantRead cap n =>
    rw [hpc] at hs hpoll
    cases hs
    obtain ⟨hg, hdue⟩ | ⟨s', f, hg, hk, hch, hdue⟩ :=
      grantRead_cases cfg id accumulated fast cap n t
    · rw [hg]
      exact of_reading h.range (hpoll rfl) (by simp) fun _ _ _ _ hd => absurd hd hdue
    · rw [hg]
      obtain ⟨hrange, hdue⟩ := hdue h.range
      exact of_reading hrange (hpoll rfl) (by simp) fun _ _ _ _ hd => absurd hd hdue
  | sendRead cap n f =>
    rw [hpc] at hs hpoll hsettled
    cases hs
    have hk := t.trySend_kept (.sendFrame f)
    have hw := t.trySend_windows (.sendFrame f)
    refine of_reading ⟨hw.1 ▸ h.range.1, hw.1 ▸ h.range.2⟩ (hpoll rfl) (fun cap n hp => ?_)
      fun _ _ _ _ => ?_
    · dsimp only at hp
      split at hp <;> simp at hp
    · refine (hsettled cap n f (Or.inr rfl)).mono (fun hd => ?_) (fun hc => ?_)
        (fun hpk hb => Or.inl ⟨hpk, ?_⟩) (fun hw => hw)
      · unfold Stream.due at hd ⊢
        rw [hw.1, hw.2, hk.buffer] at hd
        exact hd
      · exact (congrArg State.canRead hk.state).symm.trans hc
      · exact hb.imp_left fun hb => Nat.le_trans hb (t.trySend_length _)
  | parkReader cap n =>
    rw [hpc] at hs hpoll
    cases hs
    exact of_reading h.range (hpoll rfl) (fun _ _ _ => Or.inl rfl) (by simp)
  | recheckReader cap n =>
    rw [hpc] at hs hpoll hstored
    have hst := hstored cap n (Or.inl rfl)
    cases hs
    refine of_reading h.range (hpoll rfl) (fun _ _ _ => hst) fun _ _ _ hp _ _ => ?_
    dsimp only at hp
    split at hp
    next hfull =>
      -- the second look still finds the channel full
      exact hst.imp_left fun hpk => ⟨hpk, Or.inl (of_decide_eq_true hfull)⟩
    · simp at hp
  | unparkReader cap n =>
    rw [hpc] at hs hpoll hstored
    have hst := hstored cap n (Or.inr rfl)
    cases hs
    refine of_reading h.range (hpoll rfl) (by simp) fun _ _ _ _ _ _ => Or.inr ?_
    dsimp only
    rw [Bool.or_eq_true]
    exact hst.symm
  | endRead cap n =>
    rw [hpc] at hs hpoll hsettled
    have hst := hsettled cap n (.reset 0) (Or.inl rfl)
    cases hs
    unfold endRead
    split
    · exact of_reading h.range (hpoll rfl) (by simp) (by simp)
    split
    · exact of_reading h.range (hpoll rfl) (by simp) (by simp)
    next hread =>
    split
    next hbuf =>
      refine ⟨fun hp => (by cases hp), h.range, by simp, by simp, fun _ => Or.inr (Or.inr ⟨rfl, ?_⟩)⟩
      exact ⟨List.isEmpty_iff.mp hbuf, by simpa using hread, hst⟩
    · exact ⟨fun hp => (by cases hp), h.range, by simp, by simp, fun _ => Or.inl rfl⟩

theorem pop (h : t.ReaderInv) (hs : t.pop = some t') : t'.ReaderInv := by
  unfold Polled.pop at hs
  split at hs
  · cases hs
  next hopen =>
  have hidle : t.conn = .idle := by
    by_contra hne
    simp [hne] at hopen
  cases hs
  refine h.mono (Or.inl rfl) rfl rfl (fun hw => hw) (fun hw => ?_) Or.inl (fun hp => ?_)
    fun hw => Or.inr (Or.inr ⟨hw, fun hk => hk⟩)
  · rw [hidle] at hw
    cases hw
  · exact hp.mono (fun hd => hd) (fun hc => hc) (fun hpk _ => Or.inl ⟨hpk, Or.inr rfl⟩)
      (fun hw => hw)

theorem settle (h : t.ReaderInv) (hs : t.settle = some t') : t'.ReaderInv := by
  unfold Polled.settle at hs
  split at hs
  · cases hs
  next hconn =>
    cases hs
    have hor : ∀ {a b : Bool}, a = true → (a || b) = true := fun ha =>
      Bool.or_eq_true_iff.mpr (Or.inl ha)
    have hor' : ∀ {a b : Bool}, b = true → (a || b) = true := fun hb =>
      Bool.or_eq_true_iff.mpr (Or.inr hb)
    refine h.mono (Or.inl rfl) rfl rfl hor (fun hw => ?_) (fun hw => Or.inr (hor' hw))
      (fun hp => ?_) fun hw => Or.inr (Or.inr ⟨hw, fun hk => hk⟩)
    · rw [hconn] at hw
      cases hw
    · exact hp.mono (fun hd => hd) (fun hc => hc) (fun hpk _ => Or.inr (hor' hpk)) hor
  next r w hconn =>
    cases hs
    have hor : ∀ {a b : Bool}, a = true → (a || b) = true := fun ha =>
      Bool.or_eq_true_iff.mpr (Or.inl ha)
    refine h.mono (Or.inl rfl) rfl rfl hor (fun hw => Or.inl ?_) Or.inl (fun hp => ?_)
      fun hw => Or.inr (Or.inr ⟨hw, fun hk => hk⟩)
    · rw [hconn] at hw
      exact Bool.or_eq_true_iff.mpr (Or.inr hw)
    · refine hp.mono (fun hd => hd) (fun hc => hc) (fun hpk hb => Or.inl ⟨hpk, ?_⟩) hor
      rcases hb with hb | hb
      · exact Or.inl hb
      · rw [hconn] at hb
        cases hb

/-- What the connection does to a stream between two of its steps keeps a promise to the reader,
if the window update is due no sooner. -/
theorem hear {e : Heard} (h : t.ReaderInv) (hs : t.hear e = some t') : t'.ReaderInv := by
  unfold Polled.hear at hs
  split at hs
  · cases hs
  next hopen =>
  obtain ⟨s1, hs1, rfl⟩ := Option.map_eq_some_iff.mp hs
  have hidle : t.conn = .idle := by
    by_contra hne
    simp [hne] at hopen
  have hquiet : t.conn.wakesReader = true → False := by
    rw [hidle]
    exact fun hw => (by cases hw)
  have hpromise : ∀ t' : Polled, (t'.s.due → t.s.due) →
      (t'.s.state.canRead = true → t.s.state.canRead = true) →
      t'.s.channel = t.s.channel → t'.readerPark = t.readerPark →
      t'.readerWoken = t.readerWoken → t.Promised → t'.Promised := by
    intro t' hd hc hch hpk hwk hp
    refine hp.mono hd hc (fun hpark hb => Or.inl ⟨hpk ▸ hpark, Or.inl ?_⟩) (fun hw => hwk ▸ hw)
    rcases hb with hb | hb
    · rw [hch]
      exact hb
    · rw [hidle] at hb
      cases hb
  cases e with
  | ack =>
    cases hs1
    have hread : (t.s.state.update (.opened true)).canRead = t.s.state.canRead :=
      State.canRead_update_opened _
    refine h.mono (Or.inl rfl) rfl rfl (fun hw => hw) (fun hw => (hquiet hw).elim) Or.inl
      (hpromise _ (fun hd => hd) (fun hc => hread ▸ hc) rfl rfl rfl)
      fun hw => Or.inr (Or.inr ⟨hw, fun hk => ⟨hk.1, hread.trans hk.2⟩⟩)
  | data body fin =>
    unfold Stream.heard at hs1
    dsimp only at hs1
    split at hs1
    · cases hs1
    next hroom =>
    cases hs1
    refine h.mono (Or.inl rfl) (by cases fin <;> rfl) rfl (fun hw => hw)
      (fun hw => (hquiet hw).elim) Or.inl
      (hpromise _ (fun hd => ?_) (fun hc => ?_) (by cases fin <;> rfl) rfl rfl)
      fun hw => Or.inr (Or.inl hw)
    · -- the bytes that arrive leave as much to grant as before
      unfold Stream.due Stream.absorb at hd
      unfold Stream.due
      cases fin <;> simp only [Stream.finish, if_true, if_false, Bool.false_eq_true,
        List.length_append] at hd <;> omega
    · cases fin with
      | false => exact hc
      | true =>
        have hno : (t.s.state.update .recvClosed).canRead = false :=
          State.canRead_update_recvClosed _
        exact absurd (hno.symm.trans hc) (by decide)
  | credit n fin =>
    unfold Stream.heard at hs1
    dsimp only at hs1
    split at hs1
    · cases hs1
    cases hs1
    have hno : (t.s.state.update .recvClosed).canRead = false := State.canRead_update_recvClosed _
    refine h.mono (Or.inl rfl) (by cases fin <;> rfl) rfl (fun hw => hw)
      (fun hw => (hquiet hw).elim) Or.inl
      (hpromise _ (fun hd => ?_) (fun hc => ?_) (by cases fin <;> rfl) rfl rfl) fun hw => ?_
    · cases fin <;> exact hd
    · cases fin with
      | false => exact hc
      | true => exact absurd (hno.symm.trans hc) (by decide)
    · cases fin with
      | false => exact Or.inr (Or.inr ⟨by simp [hw], fun hk => hk⟩)
      | true => exact Or.inr (Or.inl (by simp [Conn.wakesReader, hw]))
  | reset =>
    cases hs1
    have hclosed : (t.s.state.update .closed).canRead = true → t.s.state.canRead = true := by
      rw [State.update_closed]
      exact fun hc => (by cases hc)
    exact h.mono (Or.inl rfl) rfl rfl (fun hw => hw) (fun hw => (hquiet hw).elim) Or.inl
      (hpromise _ (fun hd => hd) hclosed rfl rfl rfl) fun hw => Or.inr (Or.inl hw)

end ReaderInv

/-! ## 2. No wake-up is lost while the connection lives -/

/-- **A step after which the connection still lives** keeps both sides. -/
theorem step_live {a : Next} (hs : t.step cfg id a = some t') (hl : t'.ended = false) :
    (t.WriterInv → t'.WriterInv) ∧ (t.ReaderInv → t'.ReaderInv) := by
  have hlive := ended_of_step hs hl
  cases a with
  | begin call => exact ⟨fun h => h.begin hs, fun h => h.begin hs⟩
  | advance accumulated fast => exact ⟨fun h => h.advance hs, fun h => h.advance hs⟩
  | pop => exact ⟨fun h => h.pop hs, fun h => h.pop hs⟩
  | settle => exact ⟨fun h => h.settle hs, fun h => h.settle hs⟩
  | hear e => exact ⟨fun h => h.hear hs, fun h => h.hear hs⟩
  | dropAll =>
    rw [dropAll_ended hs] at hl
    cases hl
  | drain =>
    rw [drain_ended hs] at hlive
    cases hlive

theorem invs_of_reach (h : (polls cfg id).Reach t) (hl : t.ended = false) :
    t.WriterInv ∧ t.ReaderInv := by
  refine Lts.Reach.invariant (P := fun t => t.ended = false → t.WriterInv ∧ t.ReaderInv)
    ?_ ?_ h hl
  · rintro t ⟨flag, sendWindow, rfl⟩ -
    refine ⟨⟨fun _ => rfl, by simp [new], fun hw => (by cases hw)⟩, ⟨fun _ => rfl, ?_, by simp [new],
      by simp [new], fun hw => (by cases hw)⟩⟩
    exact (by decide : 2 ≤ defaultCredit ∧ defaultCredit ≤ u32Max)
  · intro t a t' hinv hs hl'
    obtain ⟨hw, hr⟩ := step_live hs hl'
    have hinv := hinv (ended_of_step hs hl')
    exact ⟨hw hinv.1, hr hinv.2⟩

end Polled

/-- **No wake-up is lost.**  While the connection lives, whenever it stands between two of its
steps (from where it stands otherwise its next step is `settle`), a writer that sleeps has its
waker in the slot and finds the channel full or no credit to write with; a reader that sleeps has
its waker in the slot and finds nothing to read and no end, and if a window update is due its
second waker waits for the full channel. -/
theorem no_lost_wakeup {cfg : Config} {id : StreamId} {t : Polled}
    (h : (polls cfg id).Reach t) (hl : t.ended = false) (hi : t.conn = .idle) :
    (t.writerWaits = true → t.writerWoken = false → t.writer = true ∧
      (t.full = true ∨ (t.s.state.canWrite = true ∧ t.s.sendWindow = 0))) ∧
    (t.readerWaits = true → t.readerWoken = false → t.reader = true ∧ t.s.buffer = [] ∧
      t.s.state.canRead = true ∧ (t.s.due → t.readerPark = true ∧ t.full = true)) := by
  obtain ⟨hw, hr⟩ := Polled.invs_of_reach h hl
  have hfull : t.Blocked → t.full = true := by
    rintro (hb | hb)
    · exact decide_eq_true hb
    · rw [hi] at hb
      cases hb
  constructor
  · intro hwaits hwoken
    rcases hw.asleep hwaits with hs | hs | ⟨hs, hb⟩
    · rw [hs] at hwoken
      cases hwoken
    · rw [hi] at hs
      cases hs
    · exact ⟨hs, hb.imp_left hfull⟩
  · intro hwaits hwoken
    rcases hr.asleep hwaits with hs | hs | ⟨hs, hbuf, hread, hp⟩
    · rw [hs] at hwoken
      cases hwoken
    · rw [hi] at hs
      cases hs
    · refine ⟨hs, hbuf, hread, fun hdue => ?_⟩
      rcases hp hdue hread with ⟨hpk, hb⟩ | hwk
      · exact ⟨hpk, hfull hb⟩
      · rw [hwk] at hwoken
        cases hwoken

/-- One write, from its call to its frame in the channel. -/
def writeOne : List Polled.Next :=
  [.begin (.write [7]), .advance 0 false, .advance 0 false]

/-- A writer fills the channel and parks on it; a reader parks on the empty buffer. -/
def parkBoth : List Polled.Next :=
  (List.replicate channelDepth writeOne).flatten ++
    [.begin (.write [7]), .advance 0 false, .advance 0 false,
      .begin (.read 16), .advance 0 false, .advance 0 false, .advance 0 false, .advance 0 false,
      .advance 0 false]

/-- Both asleep, each with its cause. -/
theorem no_lost_wakeup_parked :
    ∃ t : Polled, (polls tunnelConfig 1).Reach t ∧ t.writerWaits = true ∧ t.readerWaits = true ∧
      t.writer = true ∧ t.reader = true ∧ t.s.buffer = [] ∧
        (t.full = true ∨ (t.s.state.canWrite = true ∧ t.s.sendWindow = 0)) := by
  have hrun : (Lts.runWith (Polled.step tunnelConfig 1) (fun _ _ => true)
      (.new .none defaultCredit) parkBoth).any (fun t =>
        !t.ended && t.conn == .idle && t.writerWaits && t.readerWaits && !t.writerWoken &&
          !t.readerWoken) = true := by
    decide +kernel
  obtain ⟨t, hreach, ht⟩ := Lts.Reach.exists_run (T := polls tunnelConfig 1)
    (fun _ _ _ hs => hs) ⟨.none, defaultCredit, rfl⟩ hrun
  simp only [Bool.and_eq_true, Bool.not_eq_true', beq_iff_eq] at ht
  obtain ⟨⟨⟨⟨⟨hl, hi⟩, hww⟩, hrw⟩, hwn⟩, hrn⟩ := ht
  obtain ⟨hw, hr⟩ := no_lost_wakeup hreach hl hi
  obtain ⟨hslot, hcause⟩ := hw hww hwn
  obtain ⟨hreader, hbuf, -, -⟩ := hr hrw hrn
  exact ⟨t, hreach, hww, hrw, hslot, hreader, hbuf, hcause⟩

/-! ## 3. The end of the connection -/

/-- A full channel when the connection fails: the writer is woken, comes back to the full channel
before it is drained, and parks. -/
def parkAtTheEnd : List Polled.Next :=
  (List.replicate channelDepth writeOne).flatten ++
    [.dropAll, .settle, .begin (.write [7]), .advance 0 false, .advance 0 false, .drain]

/-- **After the connection's end a wake-up may be lost**: a writer sleeps on a channel that is
empty and closed, and the connection has no step left that wakes it. -/
theorem asleep_after_the_end :
    ∃ t : Polled, (polls tunnelConfig 1).Reach t ∧ t.writerWaits = true ∧ t.writerWoken = false ∧
      t.full = false ∧ t.s.state = .closed ∧ t.settle.isNone = true ∧ t.pop.isNone = true ∧
        ∀ e, t.hear e = none := by
  have hrun : (Lts.runWith (Polled.step tunnelConfig 1) (fun _ _ => true)
      (.new .none defaultCredit) parkAtTheEnd).any (fun t =>
        t.ended && t.writerWaits && !t.writerWoken && !t.full && t.s.state == .closed &&
          t.settle.isNone && t.pop.isNone) = true := by
    decide +kernel
  obtain ⟨t, hreach, ht⟩ := Lts.Reach.exists_run (T := polls tunnelConfig 1)
    (fun _ _ _ hs => hs) ⟨.none, defaultCredit, rfl⟩ hrun
  simp only [Bool.and_eq_true, Bool.not_eq_true', beq_iff_eq] at ht
  obtain ⟨⟨⟨⟨⟨⟨he, hww⟩, hwn⟩, hf⟩, hst⟩, hset⟩, hpop⟩ := ht
  refine ⟨t, hreach, hww, hwn, hf, hst, hset, hpop, fun e => ?_⟩
  unfold Polled.hear
  rw [he]
  rfl

end Molehill.Mux
