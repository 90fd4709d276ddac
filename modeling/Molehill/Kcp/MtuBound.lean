/-
# The MTU in force and the datagrams of a run

The sink is promised datagrams of at most one MTU.  Segments are cut when they are queued, acks are
staged when `flush_ack` is called, and both go out later: `set_mtu` may have lowered the MTU in
between, and nothing is cut or emitted again for it.

`StepFits` is what a step that emits needs: that what is staged, and each segment the step sends,
fits the MTU in force.  `mtu_bound` says that in a run of such steps every datagram is within its
MTU, and that the next step is exactly when it meets the condition.  `fits_of_grown` is the part of
the story the engine does promise: an MTU that never shrinks below what is held is enough.
-/
import Molehill.Kcp.Datagrams

namespace Molehill

open Lib

/-! ## 1. The datagrams of a run -/

/-- The datagrams that a call emits. -/
def Kcp.emitted (k : Kcp) (e : EngineEvent) : List Bytes :=
  (k.after e).output.drop k.output.length

/-- An engine, and the datagrams it has emitted, each with the MTU in force at its emission. -/
structure Emitter where
  kcp : Kcp
  sent : List (Nat × Bytes)

namespace Emitter

def after (s : Emitter) (e : EngineEvent) : Emitter :=
  ⟨s.kcp.after e, s.sent ++ (s.kcp.emitted e).map fun d => (s.kcp.mtu, d)⟩

/-- Every datagram was at most its MTU. -/
def Bounded (s : Emitter) : Prop := ∀ d ∈ s.sent, d.2.length ≤ d.1

theorem bounded_after {s : Emitter} (h : s.Bounded) (e : EngineEvent) :
    (s.after e).Bounded ↔ ∀ d ∈ s.kcp.emitted e, d.length ≤ s.kcp.mtu := by
  constructor
  · intro hall d hd
    exact hall (s.kcp.mtu, d) (List.mem_append_right _ (List.mem_map_of_mem hd))
  · intro hall d hd
    rcases List.mem_append.mp hd with hd | hd
    · exact h d hd
    · obtain ⟨bytes, hbytes, rfl⟩ := List.mem_map.mp hd
      exact hall bytes hbytes

end Emitter

def emitter : Lts Emitter EngineEvent where
  init s := ∃ conv, s = ⟨newStream conv, []⟩
  step s e s' := s.after e = s'

theorem emitter_engine {s : Emitter} (h : emitter.Reach s) : engine.Reach s.kcp := by
  refine h.invariant (P := fun s => engine.Reach s.kcp) ?_ ?_
  · rintro s ⟨conv, rfl⟩
    exact .init ⟨conv, rfl⟩
  · rintro s e s' hk rfl
    exact hk.step (a := e) rfl

/-! ## 2. What fits -/

namespace Kcp

/-- The fast-retransmit threshold of a flush. -/
def resent (k : Kcp) : U32 := (k.flushEnv 0).resent

/-- What is staged, the buffered segments that are due and the queued ones that the window admits
fit the MTU. -/
structure FlushFits (k : Kcp) : Prop where
  staged : k.buf.length ≤ k.mtu
  buffered : ∀ s ∈ k.sndBuf, k.due k.resent s = true → s.encodedLen ≤ k.mtu
  admitted : ∀ s ∈ k.admitted, s.encodedLen ≤ k.mtu

/-- What a step that emits needs.  `flush_ack` writes what is staged only when there is an ack to
stage behind it. -/
def StepFits (k : Kcp) : EngineEvent → Prop
  | .act .flush => k.flags.updated = true → k.FlushFits
  | .act (.update current) => ∀ k', k.updateFlushes current = some k' → k'.FlushFits
  | .act .flushAck => k.flags.updated = true → k.acklist ≠ [] → k.buf.length ≤ k.mtu
  | _ => True

theorem encodedLen_numberFrom (k : Kcp) (wnd : U16) (nxt : U32) (queue : List KcpSegment) :
    (k.numberFrom wnd nxt queue).map KcpSegment.encodedLen = queue.map KcpSegment.encodedLen := by
  induction queue generalizing nxt with
  | nil => rfl
  | cons seg queue ih =>
    rw [numberFrom, List.map_cons, List.map_cons, ih]
    rfl

/-- A segment that was just numbered is due. -/
theorem due_numberFrom {k k' : Kcp} {wnd : U16} {nxt resent : U32} {queue : List KcpSegment} :
    ∀ s ∈ k'.numberFrom wnd nxt queue, k.due resent s = true := by
  induction queue generalizing nxt with
  | nil => nofun
  | cons seg queue ih =>
    intro s hs
    rcases List.mem_cons.mp hs with rfl | hs
    · exact decide_eq_true (Or.inl rfl)
    · exact ih s hs

theorem encodedLen_of_core {segs segs' : List KcpSegment}
    (h : segs'.map KcpSegment.core = segs.map KcpSegment.core) :
    segs'.map KcpSegment.encodedLen = segs.map KcpSegment.encodedLen := by
  have hlen := congrArg (List.map fun c => kcpOverhead + c.2.2.2.1.length) h
  rwa [List.map_map, List.map_map] at hlen

/-- A bound on the sizes is one on the list of the sizes. -/
theorem encodedLen_le_iff {segs : List KcpSegment} {mtu : Nat} :
    (∀ s ∈ segs, s.encodedLen ≤ mtu) ↔ ∀ n ∈ segs.map KcpSegment.encodedLen, n ≤ mtu :=
  (List.forall_mem_map (P := fun n => n ≤ mtu)).symm

/-- **The segments of a flush**, by their sizes: the acks and the probes are bare headers. -/
theorem flushSegments_le_iff {k : Kcp} (hw : Windowed k) (hmtu : kcpOverhead ≤ k.mtu) :
    (∀ s ∈ k.flushSegments, s.encodedLen ≤ k.mtu) ↔
      (∀ s ∈ k.sndBuf, k.due k.resent s = true → s.encodedLen ≤ k.mtu) ∧
        ∀ s ∈ k.admitted, s.encodedLen ≤ k.mtu := by
  have hcontrol : ∀ s ∈ k.ackSegments ++ k.probeSegments, s.encodedLen ≤ k.mtu := by
    intro s hs
    have hc : ControlSegment k.conv s := by
      rcases List.mem_append.mp hs with hs | hs
      · exact control_ackSegments k s hs
      · exact control_probeSegments k s hs
    rw [KcpSegment.encodedLen, hc.data]
    exact hmtu
  have hkept := flushKept_flushFill k
  have hresent : (k.flushFill.flushEnv k.wndUnused).resent = k.resent := by
    have hfast : k.flushFill.fastresend = k.fastresend := (congrArg Kcp.fastresend hkept :)
    rw [resent, flushEnv, flushEnv, hfast]
  obtain ⟨k', -, hfill⟩ := sndBuf_flushFill hw
  have hsent := encodedLen_of_core (sentSegments_core (k.flushFill.flushEnv k.wndUnused)
    { kcp := k.flushFill } k.flushFill.sndBuf)
  have hnew : (k'.numberFrom k.wndUnused k.sndNxt k.admitted).filter (k.due k.resent)
      = k'.numberFrom k.wndUnused k.sndNxt k.admitted :=
    List.filter_eq_self.mpr due_numberFrom
  have hdue : (k.flushFill).due = k.due := due_of_kept hkept
  rw [hresent, hdue, hfill, List.filter_append, hnew, List.map_append, encodedLen_numberFrom]
    at hsent
  rw [flushSegments, List.forall_mem_append, and_iff_right hcontrol, encodedLen_le_iff, hfill,
    hsent, List.forall_mem_append, ← encodedLen_le_iff, ← encodedLen_le_iff]
  simp only [List.mem_filter, and_imp]

/-- **A flush** emits datagrams within the MTU exactly when what it sends fits. -/
theorem flush_bounded_iff {k : Kcp} (hw : Windowed k) (hwired : Wired k)
    (hmtu : kcpOverhead ≤ k.mtu) (hup : k.flags.updated = true) :
    (∀ d ∈ k.flush.1.output.drop k.output.length, d.length ≤ k.mtu) ↔ k.FlushFits := by
  obtain ⟨staged, hbuf, -⟩ := hwired.staged
  obtain ⟨hemits, hempty⟩ := emits_flush hup
  obtain ⟨packs, rest, hp, hrest, hout⟩ := hemits.2 staged hbuf
  have hnil : rest = [] := encodeAll_eq_nil (hrest.symm.trans hempty)
  subst hnil
  have hpacks : (∀ d ∈ packs.map encodeAll, d.length ≤ k.mtu) ↔
      ∀ c ∈ packs ++ [[]], total KcpSegment.encodedLen c ≤ k.mtu := by
    rw [List.forall_mem_map, List.forall_mem_append]
    simp only [encodeAll_length, List.mem_singleton, forall_eq, total_nil, Nat.zero_le, and_true]
  have hlen : total KcpSegment.encodedLen staged = k.buf.length := by
    rw [hbuf, encodeAll_length]
  rw [hout, List.drop_left, hpacks, hp.bounded_iff, hlen, flushSegments_le_iff hw hmtu]
  exact ⟨fun h => ⟨h.1, h.2.1, h.2.2⟩, fun h => ⟨h.staged, h.buffered, h.admitted⟩⟩

/-- **`flush_ack`** writes only what was staged before. -/
theorem flushAck_bounded_iff {k : Kcp} (hwired : Wired k) (hmtu : kcpOverhead ≤ k.mtu) :
    (∀ d ∈ k.flushAck.1.output.drop k.output.length, d.length ≤ k.mtu) ↔
      (k.flags.updated = true → k.acklist ≠ [] → k.buf.length ≤ k.mtu) := by
  have hquiet : k.flushAck.1.output = k.output →
      ∀ d ∈ k.flushAck.1.output.drop k.output.length, d.length ≤ k.mtu := by
    intro heq d hd
    rw [heq, List.drop_length] at hd
    cases hd
  cases hup : k.flags.updated with
  | false =>
    have hstay : k.flushAck.1 = k := by rw [flushAck, hup]; rfl
    exact iff_of_true (hquiet (congrArg Kcp.output hstay)) fun h => by cases h
  | true =>
    by_cases hacks : k.acklist = []
    · have hstay : k.flushAck.1.output = k.output := by
        rw [flushAck, hup, flushAckInner, hacks]
        rfl
      exact iff_of_true (hquiet hstay) fun _ hne => absurd hacks hne
    · obtain ⟨staged, hbuf, -⟩ := hwired.staged
      obtain ⟨packs, rest, hp, -, hout⟩ := (emits_flushAck hup).2 staged hbuf
      have hsize : ∀ s ∈ k.ackSegments, s.encodedLen ≤ k.mtu := by
        intro s hs
        rw [KcpSegment.encodedLen, (control_ackSegments k s hs).data]
        exact hmtu
      have hne : k.ackSegments ≠ [] := fun h => hacks (List.map_eq_nil_iff.mp h)
      have hlen : total KcpSegment.encodedLen staged = k.buf.length := by
        rw [hbuf, encodeAll_length]
      rw [hout, List.drop_left, List.forall_mem_map]
      simp only [encodeAll_length]
      rw [hp.closed_bounded_iff hne hsize, hlen]
      exact ⟨fun h _ _ => h, fun h => h trivial hacks⟩

/-- A call that is handed nothing to emit. -/
theorem emitted_of_output {k : Kcp} {e : EngineEvent} (h : (k.after e).output = k.output) :
    k.emitted e = [] := by
  rw [emitted, h, List.drop_length]

/-- **One call.** -/
theorem emitted_bounded_iff {k : Kcp} (hw : Windowed k) (hwired : Wired k)
    (hmtu : kcpOverhead ≤ k.mtu) (e : EngineEvent) :
    (∀ d ∈ k.emitted e, d.length ≤ k.mtu) ↔ k.StepFits e := by
  have hquiet : (k.after e).output = k.output →
      ∀ d ∈ k.emitted e, d.length ≤ k.mtu := by
    intro h d hd
    rw [emitted_of_output h] at hd
    cases hd
  cases e with
  | input buf =>
    exact iff_of_true (hquiet (congrArg Kcp.output (inputKept_input k buf) :)) trivial
  | act a =>
    cases a with
    | flush =>
      cases hup : k.flags.updated with
      | false =>
        refine iff_of_true (hquiet ?_) fun h => absurd h (by simp [hup])
        change k.flush.1.output = k.output
        rw [flush_of_not_updated k hup]
      | true => exact (flush_bounded_iff hw hwired hmtu hup).trans ⟨fun h _ => h, fun h => h hup⟩
    | flushAck => exact flushAck_bounded_iff hwired hmtu
    | update current =>
      obtain ⟨tsFlush, ⟨hflushes, heq⟩ | ⟨hflushes, heq⟩⟩ := k.update_flushes current
      · have hflush := flush_bounded_iff (k := k.clocked current tsFlush) hw
          (hwired.clocked current tsFlush) hmtu rfl
        rw [← heq] at hflush
        refine hflush.trans ⟨fun h k' hk' => ?_, fun h => h _ hflushes⟩
        rw [hflushes] at hk'
        exact Option.some.inj hk' ▸ h
      · refine iff_of_true (hquiet (congrArg (fun r => r.1.output) heq)) fun k' hk' => ?_
        rw [hflushes] at hk'
        cases hk'
    | send data =>
      refine iff_of_true (hquiet ?_) trivial
      change (k.sendOwned data).1.output = k.output
      rw [sendOwned_eq]
    | recv => exact iff_of_true (hquiet (congrArg Kcp.output (inputKept_recvPop k) :)) trivial
    | setMtu mtu =>
      exact iff_of_true (hquiet (congrArg OutView.output (setMtu_frame k mtu).2.1)) trivial
    | retransmitSn | setNodelay | setWndsize => exact iff_of_true (hquiet rfl) trivial

end Kcp

/-! ## 3. An MTU that does not shrink -/

/-- Everything that is held fits the MTU. -/
structure Sized (k : Kcp) : Prop where
  staged : k.buf.length ≤ k.mtu
  sndBuf : ∀ s ∈ k.sndBuf, s.encodedLen ≤ k.mtu
  sndQueue : ∀ s ∈ k.sndQueue, s.encodedLen ≤ k.mtu

theorem cutSegments_length {stream : Bool} {mss count : Nat} {data : Bytes} :
    ∀ s ∈ Kcp.cutSegments stream mss count data, s.data.length ≤ mss := by
  induction count generalizing data with
  | zero => nofun
  | succ count ih =>
    intro s hs
    rcases List.mem_cons.mp hs with rfl | hs
    · exact List.length_take_le _ _
    · exact ih s hs

theorem extendTail_length {k : Kcp} (data : Bytes) (h : ∀ s ∈ k.sndQueue, s.data.length ≤ k.mss) :
    ∀ s ∈ k.extendTail data, s.data.length ≤ k.mss := by
  cases hstream : k.flags.stream with
  | false =>
    rw [Kcp.extendTail, hstream]
    exact h
  | true =>
    cases hlast : k.sndQueue.getLast? with
    | none =>
      rw [Kcp.extendTail, hstream, hlast]
      exact h
    | some old =>
      rw [Kcp.extendTail, Kcp.extendLen, hstream, hlast, if_pos rfl, if_pos rfl]
      dsimp only
      split
      case isTrue hroom =>
        intro s hs
        rcases List.mem_append.mp hs with hs | hs
        · exact h s ((List.dropLast_sublist _).subset hs)
        · rw [List.mem_singleton.mp hs]
          change (old.data ++ _).length ≤ k.mss
          rw [List.length_append, List.length_take]
          omega
      case isFalse => exact h

namespace Sized

variable {k : Kcp}

theorem new (conv : U32) : Sized (newStream conv) := ⟨Nat.zero_le _, nofun, nofun⟩

/-- **What is held fits**, so every step does. -/
theorem stepFits (h : Sized k) (e : EngineEvent) : k.StepFits e := by
  have hflush : ∀ current tsFlush, (k.clocked current tsFlush).FlushFits := fun _ _ =>
    ⟨h.staged, fun s hs _ => h.sndBuf s hs, fun s hs => h.sndQueue s (List.mem_of_mem_take hs)⟩
  cases e with
  | input => trivial
  | act a =>
    cases a with
    | flush =>
      exact fun _ => ⟨h.staged, fun s hs _ => h.sndBuf s hs,
        fun s hs => h.sndQueue s (List.mem_of_mem_take hs)⟩
    | update current =>
      intro k' hk'
      obtain ⟨tsFlush, ⟨hflushes, -⟩ | ⟨hflushes, -⟩⟩ := k.update_flushes current
      · rw [hflushes] at hk'
        exact Option.some.inj hk' ▸ hflush current tsFlush
      · rw [hflushes] at hk'
        cases hk'
    | flushAck => exact fun _ _ => h.staged
    | send | recv | retransmitSn | setMtu | setNodelay | setWndsize => trivial

theorem sendOwned (h : Sized k) (hk : Configured k) (data : Bytes) :
    Sized (k.sendOwned data).1 := by
  have hover : kcpOverhead = 24 := rfl
  have hmtu := hk.mtu
  have hqueue : ∀ s ∈ k.sndQueue, s.data.length ≤ k.mss := by
    intro s hs
    have hle := h.sndQueue s hs
    rw [KcpSegment.encodedLen] at hle
    omega
  have htail := extendTail_length data hqueue
  have hall : ∀ s ∈ (k.sendOwned data).1.sndQueue, s.data.length ≤ k.mss := by
    unfold Kcp.sendOwned
    dsimp only
    split
    · exact htail
    · split
      · split <;> exact htail
      · intro s hs
        rcases List.mem_append.mp hs with hs | hs
        · exact htail s hs
        · exact cutSegments_length s hs
  rw [Kcp.sendOwned_eq]
  refine ⟨h.staged, h.sndBuf, fun s hs => ?_⟩
  have hle := hall s hs
  rw [KcpSegment.encodedLen]
  change kcpOverhead + s.data.length ≤ k.mtu
  omega

/-- A call that queues nothing. -/
theorem of_retained {k' : Kcp} (h : Sized k) (hmtu : k.mtu ≤ k'.mtu)
    (hstaged : k'.buf.length ≤ k'.mtu) (hret : Kcp.Retained KcpSegment.core k k')
    (hqueue : ∀ s ∈ k'.sndQueue, s ∈ k.sndQueue) : Sized k' := by
  refine ⟨hstaged, fun s' hs' => ?_, fun s hs => Nat.le_trans (h.sndQueue s (hqueue s hs)) hmtu⟩
  obtain ⟨s, hs, hcore⟩ := hret s' hs'
  rw [KcpSegment.encodedLen, (Kcp.core_eq hcore).2.2]
  exact Nat.le_trans (h.sndBuf s hs) hmtu

theorem flush (h : Sized k) : Sized k.flush.1 := by
  cases hup : k.flags.updated with
  | false =>
    rw [Kcp.flush_of_not_updated k hup]
    exact h
  | true =>
    have hmtu : k.flush.1.mtu = k.mtu := (congrArg Kcp.mtu (Kcp.flushedKept_flush k) :)
    have hfill : ∀ s ∈ k.flushFill.sndBuf, s.encodedLen ≤ k.mtu := by
      intro s hs
      rcases Kcp.mem_flushFill k hs with hold | ⟨-, seg, hseg, -, -, hdata⟩
      · exact h.sndBuf s hold
      · rw [KcpSegment.encodedLen, hdata]
        exact h.sndQueue seg hseg
    refine ⟨?_, fun s' hs' => ?_, fun s hs => ?_⟩
    · rw [(Kcp.emits_flush hup).2]
      exact Nat.zero_le _
    · rw [hmtu]
      rcases Kcp.retained_flush k with hret | heq
      · obtain ⟨s, hs, hcore⟩ := hret s' hs'
        rw [KcpSegment.encodedLen, (Kcp.core_eq hcore).2.2]
        exact hfill s hs
      · rw [heq] at hs'
        exact h.sndBuf s' hs'
    · rw [hmtu]
      exact h.sndQueue s ((Kcp.sndQueue_flush k).subset hs)

theorem flushAck (h : Sized k) (hk : Configured k) (hw : Wired k) : Sized k.flushAck.1 := by
  cases hup : k.flags.updated with
  | false =>
    rw [Kcp.flushAck, hup]
    exact h
  | true =>
    have hmtu : k.flushAck.1.mtu = k.mtu := (congrArg Kcp.mtu (Kcp.flushKept_flushAck k) :)
    have hsnd : k.flushAck.1.snd = k.snd := by
      rw [Kcp.flushAck, hup]
      exact (Kcp.flushAckInner_frame k k.ackSegment).1
    obtain ⟨staged, hbuf, -⟩ := hw.staged
    obtain ⟨packs, rest, hp, hrest, -⟩ := (Kcp.emits_flushAck hup).2 staged hbuf
    have hstaged : total KcpSegment.encodedLen staged ≤ k.mtu := by
      rw [← encodeAll_length, ← hbuf]
      exact h.staged
    have hacks : ∀ s ∈ k.ackSegments, s.encodedLen ≤ k.mtu := by
      intro s hs
      rw [KcpSegment.encodedLen, (Kcp.control_ackSegments k s hs).data, hk.mtu]
      exact Nat.le_add_left _ _
    refine h.of_retained (Nat.le_of_eq hmtu.symm) ?_ (.of_snd hsnd) fun s hs => ?_
    · rw [hrest, encodeAll_length, hmtu]
      exact hp.bounded hstaged hacks rest (List.mem_append_right _ (List.mem_singleton_self _))
    · rwa [show k.flushAck.1.sndQueue = k.sndQueue from congrArg SndView.sndQueue hsnd] at hs

/-- **Every call keeps it** that does not lower the MTU. -/
theorem after (h : Sized k) (hk : Configured k) (hw : Wired k) (e : EngineEvent)
    (hgrows : k.mtu ≤ (k.after e).mtu) : Sized (k.after e) := by
  have hstaged : (k.after e).buf = k.buf → (k.after e).buf.length ≤ (k.after e).mtu := by
    intro hbuf
    rw [hbuf]
    exact Nat.le_trans h.staged hgrows
  cases e with
  | input buf =>
    have hkept := Kcp.inputKept_input k buf
    have hqueue : (k.input buf).1.sndQueue = k.sndQueue := (congrArg Kcp.sndQueue hkept :)
    exact h.of_retained hgrows (hstaged (congrArg Kcp.buf hkept :))
      (Kcp.retained_input k buf).core fun s hs => hqueue ▸ hs
  | act a =>
    cases a with
    | send data => exact h.sendOwned hk data
    | recv =>
      have hsnd := (Kcp.recvPop_frame k).1
      have hqueue : k.recvPop.1.sndQueue = k.sndQueue := congrArg SndView.sndQueue hsnd
      exact h.of_retained hgrows (hstaged (congrArg Kcp.buf (Kcp.inputKept_recvPop k) :))
        (.of_snd hsnd) fun s hs => hqueue ▸ hs
    | update current =>
      have hclocked : ∀ tsFlush, Sized (k.clocked current tsFlush) := fun _ =>
        ⟨h.staged, h.sndBuf, h.sndQueue⟩
      change Sized (k.update current).1
      obtain ⟨tsFlush, heq | heq⟩ := k.update_eq current
      · rw [heq]
        exact hclocked tsFlush
      · rw [heq]
        exact (hclocked tsFlush).flush
    | flush => exact h.flush
    | flushAck => exact h.flushAck hk hw
    | retransmitSn sn =>
      exact h.of_retained hgrows (hstaged rfl) (.of_map (Kcp.retransmitLoop_core _ _ _))
        fun _ hs => hs
    | setMtu mtu =>
      have hsnd : (k.setMtu mtu).sndBuf = k.sndBuf ∧ (k.setMtu mtu).sndQueue = k.sndQueue := by
        unfold Kcp.setMtu
        simp only []
        split <;> exact ⟨rfl, rfl⟩
      exact h.of_retained hgrows (hstaged (congrArg OutView.buf (Kcp.setMtu_frame k mtu).2.1))
        (.of_eq hsnd.1) fun s hs => hsnd.2 ▸ hs
    | setNodelay | setWndsize =>
      exact h.of_retained hgrows (hstaged rfl) (.of_snd rfl) fun _ hs => hs

end Sized

/-! ## 4. Every run -/

/-- A step whose datagrams fit. -/
def Emitter.Fits (s : Emitter) (e : EngineEvent) : Prop := s.kcp.StepFits e

/-- A step that does not lower the MTU. -/
def Emitter.Grows (s : Emitter) (e : EngineEvent) : Prop := s.kcp.mtu ≤ (s.kcp.after e).mtu

theorem bounded_after_iff {s : Emitter} (h : emitter.Reach s) (hs : s.Bounded) (e : EngineEvent) :
    (s.after e).Bounded ↔ s.Fits e := by
  have hk := emitter_engine h
  have hmtu : kcpOverhead ≤ s.kcp.mtu := by
    rw [(engine_configured hk).mtu]
    exact Nat.le_add_left _ _
  exact (Emitter.bounded_after hs e).trans
    (Kcp.emitted_bounded_iff (engine_windowed hk) (engine_wired hk) hmtu e)

/-- **An MTU that only grows** is kept in every run: each of its steps fits. -/
theorem fits_of_grown {s : Emitter} (h : (emitter.restrict Emitter.Grows).Reach s) :
    (emitter.restrict Emitter.Fits).Reach s ∧ Sized s.kcp := by
  refine h.invariant (P := fun s => (emitter.restrict Emitter.Fits).Reach s ∧ Sized s.kcp) ?_ ?_
  · rintro s ⟨conv, rfl⟩
    exact ⟨.init ⟨conv, rfl⟩, .new conv⟩
  · rintro s e s' ⟨hr, hs⟩ ⟨hgrows, hstep⟩
    have hk := emitter_engine hr.of_restrict
    refine ⟨hr.step ⟨hs.stepFits e, hstep⟩, ?_⟩
    cases hstep
    exact hs.after (engine_configured hk) (engine_wired hk) e hgrows

/-- **The MTU bound.**  In a run whose steps fit, every datagram is at most the MTU that was in
force, and the next step keeps it so exactly when it fits. -/
theorem mtu_bound {s : Emitter} (h : (emitter.restrict Emitter.Fits).Reach s) :
    s.Bounded ∧ ∀ e, (s.after e).Bounded ↔ s.Fits e := by
  have hb : s.Bounded := by
    refine (h.invariant (P := fun s => emitter.Reach s ∧ s.Bounded) ?_ ?_).2
    · rintro s ⟨conv, rfl⟩
      exact ⟨.init ⟨conv, rfl⟩, nofun⟩
    · rintro s e s' ⟨hr, hs⟩ ⟨hfits, hstep⟩
      refine ⟨hr.step hstep, ?_⟩
      cases hstep
      exact (bounded_after_iff hr hs e).mpr hfits
  exact ⟨hb, bounded_after_iff h.of_restrict hb⟩

/-- A message of 1300 bytes is queued at the default MTU. -/
def queued : List EngineEvent :=
  [.act (.update 0), .act (.send (List.replicate 1300 0))]

/-- It goes out whole. -/
theorem mtu_bound_default :
    ∃ s : Emitter, s.sent.map (fun d => (d.1, d.2.length)) = [(1400, 1324)] ∧ s.Bounded := by
  have hrun : (Lts.runWith (fun s e => some (Emitter.after s e))
      (fun s e => decide (s.kcp.mtu ≤ (s.kcp.after e).mtu))
      ⟨newStream 7, []⟩ (queued ++ [.act .flush])).any
      (fun s => s.sent.map (fun d => (d.1, d.2.length)) = [(1400, 1324)]) = true := by
    decide +kernel
  obtain ⟨s, hs, hp⟩ := Lts.Reach.exists_runWith (T := emitter) (C := Emitter.Grows)
    (fun s e s' h => (Option.some.inj h :))
    (fun s e h => (of_decide_eq_true h : s.kcp.mtu ≤ (s.kcp.after e).mtu)) ⟨7, rfl⟩ hrun
  exact ⟨s, of_decide_eq_true hp, (mtu_bound (fits_of_grown hs).1).1⟩

/-- **The path shrinks to the smallest IPv6 one**, and the segment that was cut before goes out at
1324 bytes. -/
theorem mtu_shrinks :
    ∃ s : Emitter, emitter.Reach s ∧ s.sent.map (fun d => (d.1, d.2.length)) = [(1232, 1324)] ∧
      ¬ s.Bounded := by
  have hrun : (Lts.runWith (fun s e => some (Emitter.after s e)) (fun _ _ => true)
      ⟨newStream 7, []⟩ (queued ++ [.act (.setMtu 1232), .act .flush])).any
      (fun s => s.sent.map (fun d => (d.1, d.2.length)) = [(1232, 1324)]) = true := by
    decide +kernel
  obtain ⟨s, hs, hp⟩ := Lts.Reach.exists_run (T := emitter)
    (fun s e s' h => (Option.some.inj h :)) ⟨7, rfl⟩ hrun
  have hsent := of_decide_eq_true hp
  refine ⟨s, hs, hsent, fun hb => ?_⟩
  have hmem : (1232, 1324) ∈ s.sent.map fun d => (d.1, d.2.length) := by
    rw [hsent]
    exact List.mem_singleton_self _
  obtain ⟨d, hd, heq⟩ := List.mem_map.mp hmem
  obtain ⟨hmtu, hlen⟩ := Prod.mk.inj heq
  have hle := hb d hd
  omega

end Molehill
