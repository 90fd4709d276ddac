/-
# What a stream's reader obtains

The bytes a reader has are always a prefix of the bytes written.  Whether they are all of them
when the reader is told of the end depends on the order in which the writer's frames leave: the
close takes the priority queue, and overtakes the stream's own bytes if they still wait in the
payload queue (`delivery_overtaken`).  And a read gives up the lock between its delivery and its
look for the end: bytes and the close that arrive there are reported as the end alone
(`delivery_cut_short`).  A stream is delivered as it should be in every run in which no step takes
something of the stream for the control queue while frames of the stream wait in the payload queue
and no close arrives in the middle of a read that it cuts short (`stream_delivery`): its frames
leave in the order they were issued, the end is reported after all the bytes and not before, and
when the two connections have nothing left to do, a reader of a stream that was shut down has all
the bytes and can only be told of the end.

`Orderly` is the invariant of such runs: a close on its way has no payload behind it.
-/
import Molehill.Mux.Backlog

namespace Molehill.Mux

open Function Lib

/-! ## 1. Moves that keep the order -/

/-- A stream end that has queued its close, or whose handle is gone, takes no more bytes. -/
def Stream.Done (s : Stream) : Prop := s.shut = true ∨ s.held = false

/-- What a move that keeps the order does to an end, with the frames it issues. -/
structure Evolves (x x' : Stream) (new : List Frame) : Prop where
  shut : x.shut = true → x'.shut = true
  held : x.held = false → x'.held = false
  canWrite : x.state.canWrite = false → x'.state.canWrite = false
  shutting : x'.shut = true → x.shut = true ∨
    (x'.state.canWrite = false ∧ ∃ f ∈ new, f.fin = true)
  canRead : x.state.canRead = false → x'.state.canRead = false
  reading : x'.held = true → x'.state.canRead = false → x.state.canRead = false
  written : (x'.written = x.written ∧ payload new = []) ∨
    (x.held = true ∧ x.state.canWrite = true)
  fin : ∀ f ∈ new, f.fin = true → x'.Done
  single : new.length ≤ 1
  flag : x'.flag ≠ .syn → x.flag ≠ .syn ∨
    (∃ f, new = [f] ∧ f.syn = true ∧ x.held = true ∧ x.state.canWrite = true) ∨
    ∃ f ∈ new, f.tag = .windowUpdate
  eof : x'.eof = true → x.eof = true ∨
    (x.held = true ∧ x.looking = true ∧ x.state.canRead = false)
  looking : x'.looking = true → x'.buffer = [] ∨ (x.looking = true ∧ x'.buffer = x.buffer)
  readOut : x.buffer = [] → x'.readOut = x.readOut

namespace State

variable (st : State)

theorem canRead_update_opened : (st.update (.opened true)).canRead = st.canRead := by
  cases st <;> rfl

theorem canWrite_update_opened : (st.update (.opened true)).canWrite = st.canWrite := by
  cases st <;> rfl

theorem canRead_update_sendClosed : (st.update .sendClosed).canRead = st.canRead := by
  cases st <;> rfl

theorem canWrite_update_sendClosed : (st.update .sendClosed).canWrite = false := by
  cases st <;> rfl

theorem canRead_update_recvClosed : (st.update .recvClosed).canRead = false := by
  cases st <;> rfl

theorem canWrite_update_recvClosed : (st.update .recvClosed).canWrite = st.canWrite := by
  cases st <;> rfl

theorem update_closed : st.update .closed = .closed := by
  cases st <;> rfl

end State

namespace Evolves

variable {x x' : Stream}

/-- An end that issues nothing and keeps its state. -/
theorem quiet (hsh : x'.shut = x.shut) (hh : x.held = false → x'.held = false)
    (hst : x'.state = x.state) (hw : x'.written = x.written) (hfl : x'.flag = x.flag)
    (heof : x'.eof = true → x.eof = true ∨
      (x.held = true ∧ x.looking = true ∧ x.state.canRead = false))
    (hlook : x'.looking = true → x'.buffer = [] ∨ (x.looking = true ∧ x'.buffer = x.buffer))
    (hro : x.buffer = [] → x'.readOut = x.readOut) : Evolves x x' [] where
  shut h := hsh.trans h
  held := hh
  canWrite h := by rwa [hst]
  shutting h := Or.inl (hsh.symm.trans h)
  canRead h := by rwa [hst]
  reading _ h := by rwa [hst] at h
  written := Or.inl ⟨hw, rfl⟩
  fin _ hf := by cases hf
  single := Nat.zero_le _
  flag h := Or.inl (by rwa [hfl] at h)
  eof := heof
  looking := hlook
  readOut := hro

theorem refl (x : Stream) : Evolves x x [] :=
  quiet rfl (fun h => h) rfl rfl rfl Or.inl (fun h => Or.inr ⟨h, rfl⟩) (fun _ => rfl)

/-- A read that goes on to look for the end has found nothing buffered. -/
theorem copyOut_looking {cap : Nat} (h : (x.copyOut cap).looking = true) :
    (x.copyOut cap).buffer = [] := by
  obtain ⟨-, hb⟩ := Bool.and_eq_true_iff.mp h
  have hb : x.buffer = [] := List.isEmpty_iff.mp hb
  rw [Stream.copyOut, hb, List.drop_nil]

theorem copyOut_readOut {cap : Nat} (h : x.buffer = []) : (x.copyOut cap).readOut = x.readOut := by
  simp [Stream.copyOut, h]

theorem heard {cap : Nat} : Evolves x (x.copyOut cap) [] :=
  quiet rfl (fun h => h) rfl rfl rfl Or.inl (fun h => Or.inl (copyOut_looking h)) copyOut_readOut

theorem looked (hh : x.held = true) (hl : x.looking = true) : Evolves x x.look [] := by
  refine quiet rfl (fun h => h) rfl rfl rfl (fun h => ?_) (fun h => by cases h) (fun _ => rfl)
  rcases Bool.or_eq_true_iff.mp h with h | h
  · exact Or.inl h
  · exact Or.inr ⟨hh, hl, by simpa using h⟩

theorem wrote {cfg : Config} {id : StreamId} {buf : List UInt8} {f : Frame} (hh : x.held = true)
    (h : x.pollWrite cfg id buf = some (x', f)) : Evolves x x' [f] := by
  obtain ⟨hcw, body, -, hf, hx'⟩ := Stream.pollWrite_spec h
  have hst : x'.state.canRead = x.state.canRead ∧ x'.state.canWrite = x.state.canWrite := by
    rw [hx']
    dsimp only
    split
    · exact ⟨State.canRead_update_opened _, State.canWrite_update_opened _⟩
    · exact ⟨rfl, rfl⟩
  have hsh : x'.shut = x.shut ∧ x'.held = x.held ∧ x'.eof = x.eof ∧ x'.readOut = x.readOut ∧
      x'.looking = x.looking ∧ x'.buffer = x.buffer := by
    rw [hx']
    exact ⟨rfl, rfl, rfl, rfl, rfl, rfl⟩
  obtain ⟨hshut, hheld, heof, hro, hlook, hbuf⟩ := hsh
  refine
    { shut := fun h => hshut.trans h
      held := fun h => hheld.trans h
      canWrite := fun h => hst.2.trans h
      shutting := fun h => Or.inl (hshut.symm.trans h)
      canRead := fun h => hst.1.trans h
      reading := fun _ h => hst.1.symm.trans h
      written := Or.inr ⟨hh, hcw⟩
      fin := fun g hg hfin => ?_
      single := Nat.le_refl _
      flag := fun _ => ?_
      eof := fun h => Or.inl (heof.symm.trans h)
      looking := fun h => Or.inr ⟨hlook.symm.trans h, hbuf⟩
      readOut := fun _ => hro }
  · rw [List.mem_singleton.mp hg, hf] at hfin
    cases hfin
  · by_cases hfl : x.flag = .syn
    · exact Or.inr (Or.inl ⟨f, rfl, by rw [hf, hfl]; rfl, hh, hcw⟩)
    · exact Or.inl hfl

theorem shutdown {id : StreamId} {f : Frame} (h : x.pollShutdown id = some (x', f)) :
    Evolves x x' [f] := by
  obtain ⟨-, hf, hx'⟩ := Stream.pollShutdown_spec h
  have hcw : x'.state.canWrite = false := by
    rw [hx']
    exact State.canWrite_update_sendClosed _
  have hcr : x'.state.canRead = x.state.canRead := by
    rw [hx']
    exact State.canRead_update_sendClosed _
  refine
    { shut := fun _ => by rw [hx']
      held := fun h => by rw [hx']; exact h
      canWrite := fun _ => hcw
      shutting := fun _ => Or.inr ⟨hcw, f, List.mem_singleton_self f, by rw [hf]; rfl⟩
      canRead := fun h => hcr.trans h
      reading := fun _ h => hcr.symm.trans h
      written := Or.inl ⟨by rw [hx'], by rw [hf]; rfl⟩
      fin := fun _ _ _ => Or.inl (by rw [hx'])
      single := Nat.le_refl _
      flag := fun hfl => Or.inl ?_
      eof := fun h => Or.inl (by rw [hx'] at h; exact h)
      looking := fun h => Or.inr (by rw [hx'] at h ⊢; exact ⟨h, rfl⟩)
      readOut := fun _ => by rw [hx'] }
  rw [hx'] at hfl
  intro he
  exact hfl (by simp [he])

theorem granted {cfg : Config} {id : StreamId} {cap acc acc' : Nat} {fast : Bool} {f : Frame}
    (h : (x.copyOut cap).sendWindowUpdate cfg acc fast id = (x', some (f, acc'))) :
    Evolves x x' [f] := by
  obtain ⟨-, -, credit, newMax, -, -, hf, hx'⟩ := Stream.sendWindowUpdate_spec h
  refine
    { shut := fun h => by rw [hx']; exact h
      held := fun h => by rw [hx']; exact h
      canWrite := fun h => by rw [hx']; exact h
      shutting := fun h => Or.inl (by rw [hx'] at h; exact h)
      canRead := fun h => by rw [hx']; exact h
      reading := fun _ h => by rw [hx'] at h; exact h
      written := Or.inl ⟨by rw [hx']; rfl, by rw [hf]; rfl⟩
      fin := fun g hg hfin => ?_
      single := Nat.le_refl _
      flag := fun _ => Or.inr (Or.inr ⟨f, List.mem_singleton_self f, by rw [hf]⟩)
      eof := fun h => Or.inl (by rw [hx'] at h; exact h)
      looking := fun h => Or.inl (by rw [hx'] at h ⊢; exact copyOut_looking h)
      readOut := fun hb => by rw [hx']; exact copyOut_readOut hb }
  rw [List.mem_singleton.mp hg, hf] at hfin
  cases hfin

theorem removed {id : StreamId} (hh : x.held = false) :
    Evolves x { x with state := x.state.update .closed } (Active.dropFrame id x.state).toList := by
  have hcl := State.update_closed x.state
  refine
    { shut := fun h => h
      held := fun h => h
      canWrite := fun _ => by rw [hcl]; rfl
      shutting := Or.inl
      canRead := fun _ => by rw [hcl]; rfl
      reading := fun h => absurd (hh.symm.trans h) (by decide)
      written := Or.inl ⟨rfl, (Sound.dropFrame_traffic id x.state).1⟩
      fin := fun _ _ _ => Or.inr hh
      single := ?_
      flag := Or.inl
      eof := Or.inl
      looking := fun h => Or.inr ⟨h, rfl⟩
      readOut := fun _ => rfl }
  cases Active.dropFrame id x.state with
  | none => exact Nat.zero_le _
  | some _ => exact Nat.le_refl _

end Evolves

/-- What a move that keeps the order does to the frames of the stream: it issues `new`. -/
structure Issues (X X' : View) (new : List Frame) : Prop where
  line : X'.line = X.line ++ new
  order : X'.left ++ X'.rest = X.left ++ X.rest ++ new
  issued : X'.issued = X.issued ++ new
  reset : X'.reset = false → X.reset = false

/-- **A move that keeps the order** opens the stream, or lets its end evolve. -/
theorem Move.evolves {cfg : Config} {id : StreamId} {mine : Bool} {X X' : View}
    (h : Move cfg id mine (· = []) X X') :
    ∃ new, Issues X X' new ∧
      ((new = [] ∧ X'.stream = X.stream) ∨
        (new = [] ∧ X.stream = none ∧ mine = true ∧ X'.stream = some .newOutbound) ∨
        ∃ x x', X.stream = some x ∧ X'.stream = some x' ∧ Evolves x x' new) := by
  have hnil : ∀ Z : View, Z.line = X.line → Z.left ++ Z.rest = X.left ++ X.rest →
      Z.issued = X.issued → Z.reset = X.reset → Issues X Z [] := by
    intro Z h1 h2 h3 h4
    exact ⟨by rw [h1, List.append_nil], by rw [h2, List.append_nil], by rw [h3, List.append_nil],
      fun h => h4.symm.trans h⟩
  cases h with
  | same => exact ⟨[], hnil X rfl rfl rfl rfl, Or.inl ⟨rfl, rfl⟩⟩
  | opened hn hm => exact ⟨[], hnil _ rfl rfl rfl rfl, Or.inr (Or.inl ⟨rfl, hn, hm, rfl⟩)⟩
  | @spoke s s' f hs hh hsp =>
    refine ⟨[f], ⟨?_, ?_, rfl, fun h => h⟩, Or.inr (Or.inr ⟨_, _, hs, rfl, ?_⟩)⟩
    · simp [View.line]
    · simp
    · cases hsp with
      | wrote hw => exact Evolves.wrote hh hw
      | shut hw => exact Evolves.shutdown hw
      | granted hw => exact Evolves.granted hw
  | heard cap hs =>
    exact ⟨[], hnil _ rfl rfl rfl rfl, Or.inr (Or.inr ⟨_, _, hs, rfl, Evolves.heard⟩)⟩
  | looked hs hh hl =>
    exact ⟨[], hnil _ rfl rfl rfl rfl, Or.inr (Or.inr ⟨_, _, hs, rfl, Evolves.looked hh hl⟩)⟩
  | released hs =>
    exact ⟨[], hnil _ rfl rfl rfl rfl, Or.inr (Or.inr ⟨_, _, hs, rfl,
      Evolves.quiet rfl (fun _ => rfl) rfl rfl rfl Or.inl (fun h => Or.inr ⟨h, rfl⟩)
        (fun _ => rfl)⟩)⟩
  | queued hs =>
    exact ⟨[], hnil _ rfl rfl rfl rfl, Or.inr (Or.inr ⟨_, _, hs, rfl,
      Evolves.quiet rfl (fun h => h) rfl rfl rfl Or.inl (fun h => Or.inr ⟨h, rfl⟩)
        (fun _ => rfl)⟩)⟩
  | @overtook s a p r f hs hrest hp hmem hb =>
    subst hp
    refine ⟨[], hnil _ ?_ ?_ rfl rfl, Or.inr (Or.inr ⟨_, _, hs, rfl,
      Evolves.quiet rfl (fun h => h) rfl rfl rfl Or.inl (fun h => Or.inr ⟨h, rfl⟩)
        (fun _ => rfl)⟩)⟩
    · simp [View.line, hrest]
    · simp [hrest]
  | @removed s a p hs hh hc hl hrest hp =>
    subst hp
    refine ⟨(Active.dropFrame id s.state).toList, ⟨?_, ?_, rfl, fun h => ?_⟩,
      Or.inr (Or.inr ⟨_, _, hs, rfl, Evolves.removed hh⟩)⟩
    · simp [View.line, hrest]
    · simp [hrest]
    · exact (Bool.or_eq_false_iff.mp h).1
  | @started f r hrest =>
    refine ⟨[], hnil _ ?_ ?_ rfl rfl, Or.inl ⟨rfl, rfl⟩⟩
    · simp [View.line, hrest]
    · simp [hrest]

/-! ## 2. The invariant of orderly runs -/

/-- **What a stream whose frames leave in order has**, in the direction from `X` to `Y`. -/
structure Orderly (X Y : View) : Prop where
  issued : X.left ++ X.rest = X.issued
  fin : ∀ f ∈ X.line, f.fin = true → ∃ x, X.stream = some x ∧ x.Done
  finLast : ∀ a f r, X.line = a ++ f :: r → f.fin = true → payload r = []
  closed : ∀ y, Y.stream = some y → y.held = true → y.state.canRead = false → X.reset = false →
    payload X.line = [] ∧ ∃ x, X.stream = some x ∧ x.Done
  unread : ∀ y, Y.stream = some y → y.held = true → y.looking = true → y.state.canRead = false →
    X.reset = false → y.buffer = []
  told : ∀ y, Y.stream = some y → y.eof = true → X.reset = false →
    ∃ x, X.stream = some x ∧ x.Done ∧ y.readOut = x.written
  shutState : ∀ x, X.stream = some x → x.shut = true → x.state.canWrite = false
  finSent : ∀ x, X.stream = some x → x.shut = true → X.reset = false → Y.reset = false →
    (∃ f ∈ X.line, f.fin = true) ∨
      (∃ y, Y.stream = some y ∧ (y.state.canRead = false ∨ y.held = false)) ∨
      (Y.stream = none ∧ x.flag = .syn)
  synFirst : ∀ x, X.stream = some x → Y.stream = none → Y.reset = false → x.flag ≠ .syn →
    ∃ f r, X.line = f :: r ∧ f.syn = true

namespace Orderly

variable {id : StreamId} {mine : Bool} {X Y X' Y' : View}

theorem done_mono {x x' : Stream} {new : List Frame} (h : Evolves x x' new) (hd : x.Done) :
    x'.Done := by
  rcases hd with hd | hd
  · exact Or.inl (h.shut hd)
  · exact Or.inr (h.held hd)

/-- An end that is done takes no bytes. -/
theorem written_of_done {x x' : Stream} {new : List Frame} (h : Orderly X Y)
    (hx : X.stream = some x) (he : Evolves x x' new) (hd : x.Done) :
    x'.written = x.written ∧ payload new = [] := by
  rcases he.written with hw | ⟨hh, hcw⟩
  · exact hw
  · rcases hd with hd | hd
    · rw [h.shutState x hx hd] at hcw
      cases hcw
    · rw [hh] at hd
      cases hd

/-- A stream that nothing was issued on before its first bytes. -/
theorem line_nil_of_unopened {x : Stream} (h : Orderly X Y) (hs : Sound id mine X.half Y.half)
    (hb : Sound id (!mine) Y.half X.half) (hx : X.stream = some x) (hh : x.held = true)
    (hcw : x.state.canWrite = true) (hfl : x.flag = .syn) (hy : Y.stream = none)
    (hr : Y.reset = false) : X.line = [] := by
  refine List.eq_nil_iff_forall_not_mem.mpr fun f hf => ?_
  have hk := hs.kinds f hf
  rcases hs.synUnseen x hx hy hr with ⟨-, -, hnil⟩ | ⟨hne, -⟩
  · cases hk with
    | payload syn ack body =>
      exact List.filter_eq_nil_iff.mp hnil _ hf rfl
    | credit ack n => exact (hb.unread hy).1 _ hf rfl
    | close ack =>
      obtain ⟨x1, hx1, hd⟩ := h.fin _ hf rfl
      rw [hx] at hx1
      cases hx1
      rcases hd with hd | hd
      · rw [h.shutState x hx hd] at hcw
        cases hcw
      · rw [hh] at hd
        cases hd
    | reset =>
      have hrt := hs.resets hf
      rw [hs.not_reset_of_held hx hh] at hrt
      cases hrt
  · exact hne hfl

/-- A split of a list with one more element at its end. -/
theorem append_split {l new a r : List Frame} {f : Frame} (hn : new.length ≤ 1)
    (h : l ++ new = a ++ f :: r) :
    (∃ r', l = a ++ f :: r' ∧ r = r' ++ new) ∨ (new = [f] ∧ r = []) := by
  rcases List.append_eq_append_iff.mp h with ⟨c, ha, hc⟩ | ⟨c, hl, hc⟩
  · -- the split is inside `new`
    refine Or.inr ?_
    rw [hc] at hn
    cases c with
    | nil =>
      cases r with
      | nil => exact ⟨hc, rfl⟩
      | cons _ _ => simp at hn
    | cons _ _ => simp at hn
  · cases c with
    | nil =>
      rw [List.nil_append] at hc
      rw [← hc] at hn
      cases r with
      | nil => exact Or.inr ⟨hc.symm, rfl⟩
      | cons _ _ => simp at hn
    | cons g c =>
      obtain ⟨rfl, hr⟩ := List.cons.inj hc
      exact Or.inl ⟨c, hl, hr⟩

/-- An end that evolves keeps the order of what it sends. -/
theorem evolve_writer {x x' : Stream} {new : List Frame} (h : Orderly X Y)
    (hs : Sound id mine X.half Y.half) (hb : Sound id (!mine) Y.half X.half)
    (hb' : Sound id (!mine) Y.half X'.half) (hi : Issues X X' new) (hx : X.stream = some x)
    (hx' : X'.stream = some x') (he : Evolves x x' new) : Orderly X' Y := by
  have hdone : (∃ x1, X.stream = some x1 ∧ x1.Done) → x.Done := by
    rintro ⟨x1, hx1, hd⟩
    rw [hx] at hx1
    cases hx1
    exact hd
  refine
    { issued := by rw [hi.order, hi.issued, h.issued]
      fin := fun f hf hfin => ⟨x', hx', ?_⟩
      finLast := fun a f r hsplit hfin => ?_
      closed := fun y hy hh hr hrt => ?_
      unread := fun y hy hh hl hr hrt => h.unread y hy hh hl hr (hi.reset hrt)
      told := fun y hy heof hrt => ?_
      shutState := fun x1 hx1 hsh => ?_
      finSent := fun x1 hx1 hsh hrt hrt' => ?_
      synFirst := fun x1 hx1 hy hrt hfl => ?_ }
  · rw [hi.line] at hf
    rcases List.mem_append.mp hf with hf | hf
    · exact done_mono he (hdone (h.fin f hf hfin))
    · exact he.fin f hf hfin
  · rw [hi.line] at hsplit
    rcases append_split he.single hsplit with ⟨r', hl, rfl⟩ | ⟨-, rfl⟩
    · have hd := hdone (h.fin f (by rw [hl]; simp) hfin)
      rw [payload_append, h.finLast a f r' hl hfin, (h.written_of_done hx he hd).2]
      rfl
    · rfl
  · obtain ⟨hp, hd⟩ := h.closed y hy hh hr (hi.reset hrt)
    have hd := hdone hd
    refine ⟨?_, x', hx', done_mono he hd⟩
    rw [hi.line, payload_append, hp, (h.written_of_done hx he hd).2]
    rfl
  · obtain ⟨x1, hx1, hd, hro⟩ := h.told y hy heof (hi.reset hrt)
    rw [hx] at hx1
    cases hx1
    exact ⟨x', hx', done_mono he hd, hro.trans (h.written_of_done hx he hd).1.symm⟩
  · rw [hx'] at hx1
    cases hx1
    rcases he.shutting hsh with hsh | ⟨hcw, -⟩
    · exact he.canWrite (h.shutState x hx hsh)
    · exact hcw
  · rw [hx'] at hx1
    cases hx1
    rw [hi.line]
    rcases he.shutting hsh with hsh | ⟨-, f, hf, hfin⟩
    · rcases h.finSent x hx hsh (hi.reset hrt) hrt' with ⟨f, hf, hfin⟩ | hsec | ⟨hy, hfl⟩
      · exact Or.inl ⟨f, List.mem_append_left _ hf, hfin⟩
      · exact Or.inr (Or.inl hsec)
      · refine Or.inr (Or.inr ⟨hy, ?_⟩)
        by_contra hne
        rcases he.flag hne with hne' | ⟨f, -, -, -, hcw⟩ | ⟨f, hf, ht⟩
        · exact hne' hfl
        · rw [h.shutState x hx hsh] at hcw
          cases hcw
        · refine (hb'.unread hy).1 f ?_ ht
          change f ∈ X'.line
          rw [hi.line]
          exact List.mem_append_right _ hf
    · exact Or.inl ⟨f, List.mem_append_right _ hf, hfin⟩
  · rw [hx'] at hx1
    cases hx1
    rw [hi.line]
    rcases he.flag hfl with hne | ⟨f, rfl, hsyn, hh, hcw⟩ | ⟨f, hf, ht⟩
    · obtain ⟨f, r, hl, hsyn⟩ := h.synFirst x hx hy hrt hne
      exact ⟨f, r ++ new, by rw [hl]; rfl, hsyn⟩
    · by_cases hxfl : x.flag = .syn
      · rw [h.line_nil_of_unopened hs hb hx hh hcw hxfl hy hrt]
        exact ⟨f, [], rfl, hsyn⟩
      · obtain ⟨g, r, hl, hg⟩ := h.synFirst x hx hy hrt hxfl
        exact ⟨g, r ++ [f], by rw [hl]; rfl, hg⟩
    · refine absurd ht ((hb'.unread hy).1 f ?_)
      change f ∈ X'.line
      rw [hi.line]
      exact List.mem_append_right _ hf

/-- An end that evolves keeps the order of what it is sent. -/
theorem evolve_reader {x x' : Stream} {new : List Frame} (h : Orderly Y X)
    (hs : Sound id mine Y.half X.half) (hok : X.Ok id) (hi : Issues X X' new)
    (hx : X.stream = some x) (hx' : X'.stream = some x') (he : Evolves x x' new) :
    Orderly Y X' := by
  have hheld : x'.held = true → x.held = true := by
    intro hh
    cases hxh : x.held with
    | true => rfl
    | false =>
      rw [he.held hxh] at hh
      cases hh
  refine
    { issued := h.issued
      fin := h.fin
      finLast := h.finLast
      closed := fun x1 hx1 hh hr hrt => ?_
      unread := fun x1 hx1 hh hl hr hrt => ?_
      told := fun x1 hx1 heof hrt => ?_
      shutState := h.shutState
      finSent := fun y hy hsh hrt hrt' => ?_
      synFirst := fun y hy hn => (by rw [hx'] at hn; cases hn) }
  · rw [hx'] at hx1
    cases hx1
    exact h.closed x hx (hheld hh) (he.reading hh hr) hrt
  · rw [hx'] at hx1
    cases hx1
    rcases he.looking hl with hbuf | ⟨hl, hbuf⟩
    · exact hbuf
    · rw [hbuf]
      exact h.unread x hx (hheld hh) hl (he.reading hh hr) hrt
  · rw [hx'] at hx1
    cases hx1
    rcases he.eof heof with heof | ⟨hh, hlook, hr⟩
    · obtain ⟨y, hy, hd, hro⟩ := h.told x hx heof hrt
      have hpre := (hs.seen y x hy hx).1
      rw [← hro, Stream.got] at hpre
      have hbuf : x.buffer = [] := by
        have hlen := hpre.length_le
        rw [List.length_append] at hlen
        exact List.eq_nil_of_length_eq_zero (by omega)
      exact ⟨y, hy, hd, (he.readOut hbuf).trans hro⟩
    · obtain ⟨hp, y, hy, hd⟩ := h.closed x hx hh hr hrt
      have hbuf := h.unread x hx hh hlook hr hrt
      have hl : X.listed = true := by
        cases hl : X.listed with
        | true => rfl
        | false =>
          rw [(hok.unlisted x hx hl).1] at hh
          cases hh
      have heq := (hs.seen y x hy hx).2 hl
      change x.got ++ payload Y.line = y.written at heq
      rw [hp, List.append_nil, Stream.got, hbuf, List.append_nil] at heq
      exact ⟨y, hy, hd, (he.readOut hbuf).trans heq⟩
  · rcases h.finSent y hy hsh hrt (hi.reset hrt') with hf | ⟨x1, hx1, hor⟩ | ⟨hn, -⟩
    · exact Or.inl hf
    · rw [hx] at hx1
      cases hx1
      refine Or.inr (Or.inl ⟨x', hx', ?_⟩)
      rcases hor with hor | hor
      · exact Or.inl (he.canRead hor)
      · exact Or.inr (he.held hor)
    · rw [hx] at hn
      cases hn

/-- The same ends, with nothing issued. -/
theorem of_same (h : Orderly X Y) (hi : Issues X X' []) (hx : X'.stream = X.stream) :
    Orderly X' Y := by
  have hl : X'.line = X.line := by rw [hi.line, List.append_nil]
  have ho : X'.left ++ X'.rest = X'.issued := by
    rw [hi.order, hi.issued, List.append_nil, List.append_nil, h.issued]
  refine ⟨ho, ?_, ?_, ?_, fun y hy hh hl hr hrt => h.unread y hy hh hl hr (hi.reset hrt), ?_, ?_, ?_,
    ?_⟩
  · rw [hl, hx]
    exact h.fin
  · rw [hl]
    exact h.finLast
  · rw [hl, hx]
    exact fun y hy hh hr hrt => h.closed y hy hh hr (hi.reset hrt)
  · rw [hx]
    exact fun y hy heof hrt => h.told y hy heof (hi.reset hrt)
  · rw [hx]
    exact h.shutState
  · rw [hl, hx]
    exact fun x hx hsh hrt hrt' => h.finSent x hx hsh (hi.reset hrt) hrt'
  · rw [hl, hx]
    exact h.synFirst

theorem of_same_reader {new : List Frame} (h : Orderly Y X) (hi : Issues X X' new)
    (hx : X'.stream = X.stream) : Orderly Y X' := by
  refine ⟨h.issued, h.fin, h.finLast, ?_, ?_, ?_, h.shutState, ?_, ?_⟩
  · rw [hx]
    exact h.closed
  · rw [hx]
    exact h.unread
  · rw [hx]
    exact h.told
  · rw [hx]
    exact fun y hy hsh hrt hrt' => h.finSent y hy hsh hrt (hi.reset hrt')
  · rw [hx]
    exact fun y hy hn hrt => h.synFirst y hy hn (hi.reset hrt)

/-- **A move that keeps the order keeps the invariant**, in both directions. -/
theorem move {cfg : Config} (h : Orderly X Y) (hr : Orderly Y X)
    (hs : Sound id mine X.half Y.half) (hb : Sound id (!mine) Y.half X.half) (hok : X.Ok id)
    (hm : Move cfg id mine (· = []) X X') : Orderly X' Y ∧ Orderly Y X' := by
  obtain ⟨new, hi, ⟨rfl, hx⟩ | ⟨rfl, hn, rfl, hx⟩ | ⟨x, x', hx, hx', he⟩⟩ := hm.evolves
  · exact ⟨h.of_same hi hx, hr.of_same_reader hi hx⟩
  · -- a stream that opens is new to both ends
    have hy : Y.stream = none := by
      cases hy : Y.stream with
      | none => rfl
      | some y =>
        have hother : Y.stream.isSome = true := by
          rw [hy]
          rfl
        have hsome : X.stream.isSome = true := hb.opener hother rfl
        rw [hn] at hsome
        cases hsome
    have hl : X'.line = [] := by
      rw [hi.line, List.append_nil]
      exact (hs.empty hn hy).1
    have hyl : Y.line = [] := (hb.empty hy hn).1
    have ho : X'.left ++ X'.rest = X'.issued := by
      rw [hi.order, hi.issued, List.append_nil, List.append_nil, h.issued]
    constructor
    · refine ⟨ho, ?_, ?_, ?_, ?_, ?_, ?_, ?_, ?_⟩
      · rw [hl]
        intro f hf
        cases hf
      · rw [hl]
        intro a f r hsplit
        simp at hsplit
      · intro y hy1
        rw [hy] at hy1
        cases hy1
      · intro y hy1
        rw [hy] at hy1
        cases hy1
      · intro y hy1
        rw [hy] at hy1
        cases hy1
      · intro x hx1 hsh
        rw [hx] at hx1
        cases hx1
        cases hsh
      · intro x hx1 hsh
        rw [hx] at hx1
        cases hx1
        cases hsh
      · intro x hx1 _ _ hfl
        rw [hx] at hx1
        cases hx1
        exact absurd rfl hfl
    · refine ⟨hr.issued, ?_, ?_, ?_, ?_, ?_, ?_, ?_, ?_⟩
      · rw [hyl]
        intro f hf
        cases hf
      · rw [hyl]
        intro a f r hsplit
        simp at hsplit
      · intro x hx1 _ hcr
        rw [hx] at hx1
        cases hx1
        cases hcr
      · intro x hx1 _ hlook
        rw [hx] at hx1
        cases hx1
        cases hlook
      · intro x hx1 heof
        rw [hx] at hx1
        cases hx1
        cases heof
      · intro y hy1
        rw [hy] at hy1
        cases hy1
      · intro y hy1
        rw [hy] at hy1
        cases hy1
      · intro y hy1
        rw [hy] at hy1
        cases hy1
  · have hb' := (hs.move hb hm).2
    exact ⟨h.evolve_writer hs hb hb' hi hx hx' he, hr.evolve_reader hb hok hi hx hx' he⟩

/-! ## 3. Arrivals -/

/-- What an arrival leaves of an end that has the stream. -/
structure Keeps (y y' : Stream) : Prop where
  shut : y'.shut = y.shut
  held : y'.held = y.held
  written : y'.written = y.written
  readOut : y'.readOut = y.readOut
  eof : y'.eof = y.eof
  looking : y'.looking = y.looking
  flag : y'.flag = y.flag
  canWrite : y.state.canWrite = false → y'.state.canWrite = false
  canRead : y.state.canRead = false → y'.state.canRead = false

theorem canRead_acked (y : Stream) (ack : Bool) :
    (y.acked ack).state.canRead = y.state.canRead := by
  cases ack with
  | false => rfl
  | true => exact State.canRead_update_opened _

theorem buffer_acked (y : Stream) (ack : Bool) : (y.acked ack).buffer = y.buffer := by
  cases ack with
  | false => rfl
  | true => rfl

theorem canWrite_acked (y : Stream) (ack : Bool) :
    (y.acked ack).state.canWrite = y.state.canWrite := by
  cases ack with
  | false => rfl
  | true => exact State.canWrite_update_opened _

theorem Keeps.refl (y : Stream) : Keeps y y :=
  ⟨rfl, rfl, rfl, rfl, rfl, rfl, rfl, fun h => h, fun h => h⟩

/-- An arrival at an end that has the stream. -/
structure Reached (id : StreamId) (f : Frame) (V V' : View) (y y' : Stream) : Prop where
  stream : V'.stream = some y'
  keeps : Keeps y y'
  line : V'.line = V.line
  order : V'.left ++ V'.rest = V.left ++ V.rest
  issued : V'.issued = V.issued
  reset : V'.reset = V.reset
  buffer : V.listed = true → y'.buffer = y.buffer ++ f.body
  closing : y'.state.canRead = false → y.state.canRead = false ∨ f.fin = true ∨ f = .reset id
  fin : f.fin = true → y'.state.canRead = false ∨ V.listed = false

/-- The end a frame reaches, when it has the stream: it can still be read unless the frame is a
close or a reset. -/
theorem reached {f : Frame} {V V' : View} {y : Stream} (ha : Arrival id V f V')
    (hy : V.stream = some y) : ∃ y', Reached id f V V' y y' := by
  cases ha with
  | ignored hl hsyn =>
    refine ⟨y, hy, Keeps.refl y, rfl, rfl, rfl, rfl, fun h => ?_, Or.inl, fun _ => Or.inr hl⟩
    rw [hl] at h
    cases h
  | @payload s ack body hl hs hw =>
    rw [hs] at hy
    cases hy
    have hr := canRead_acked y ack
    have hcw := canWrite_acked y ack
    refine ⟨_, rfl, ⟨rfl, rfl, rfl, rfl, rfl, rfl, rfl, fun h => hcw.trans h, fun h => hr.trans h⟩,
      rfl, rfl, rfl, rfl, fun _ => ?_, fun h => Or.inl (hr.symm.trans h), fun h => by cases h⟩
    exact congrArg (· ++ _) (buffer_acked y ack)
  | @credit s ack n hl hs =>
    rw [hs] at hy
    cases hy
    have hr := canRead_acked y ack
    have hcw := canWrite_acked y ack
    refine ⟨_, rfl, ⟨rfl, rfl, rfl, rfl, rfl, rfl, rfl, fun h => hcw.trans h, fun h => hr.trans h⟩,
      rfl, rfl, rfl, rfl, fun _ => ?_, fun h => Or.inl (hr.symm.trans h), fun h => by cases h⟩
    exact (buffer_acked y ack).trans (List.append_nil _).symm
  | @close s ack hl hs =>
    rw [hs] at hy
    cases hy
    have hr : ((y.acked ack).finish true).state.canRead = false :=
      State.canRead_update_recvClosed _
    have hcw : ((y.acked ack).finish true).state.canWrite = y.state.canWrite :=
      (State.canWrite_update_recvClosed _).trans (canWrite_acked y ack)
    refine ⟨_, rfl, ⟨rfl, rfl, rfl, rfl, rfl, rfl, rfl, fun h => hcw.trans h, fun _ => hr⟩, rfl, rfl,
      rfl, rfl, fun _ => ?_, fun _ => Or.inr (Or.inl rfl), fun _ => Or.inl hr⟩
    exact (buffer_acked y ack).trans (List.append_nil _).symm
  | @reset s hl hs =>
    rw [hs] at hy
    cases hy
    have hc := State.update_closed y.state
    refine ⟨_, rfl, ⟨rfl, rfl, rfl, rfl, rfl, rfl, rfl, fun _ => ?_, fun _ => ?_⟩, rfl, rfl, rfl, rfl,
      fun _ => (List.append_nil _).symm, fun _ => Or.inr (Or.inr rfl), fun h => by cases h⟩
    · rw [hc]
      rfl
    · rw [hc]
      rfl
  | accepted hn =>
    rw [hn] at hy
    cases hy
  | refused hn =>
    rw [hn] at hy
    cases hy

/-- The end that sent a frame, once it has arrived at an end that has the stream. -/
theorem of_sent_known {f : Frame} {t : List Frame} {y y' : Stream} (h : Orderly X Y)
    (hs : Sound id mine X.half Y.half) (hok : Y.Ok id) (hfront : X.front = f :: t)
    (hcut : f.fin = true → y.looking = true → y.buffer = []) (hy : Y.stream = some y)
    (hy' : Reached id f Y Y' y y') : Orderly { X with front := t } Y' := by
  have hline : X.line = f :: (t ++ X.rest) := by
    rw [View.line, hfront]
    rfl
  have hmem : f ∈ X.line := by
    rw [hline]
    exact List.mem_cons_self
  have hsub : ∀ g ∈ t ++ X.rest, g ∈ X.line := fun g hg => by
    rw [hline]
    exact List.mem_cons_of_mem f hg
  refine
    { issued := h.issued
      fin := fun g hg => h.fin g (hsub g hg)
      finLast := fun a g r hsplit => h.finLast (f :: a) g r (by
        rw [hline]
        exact congrArg (f :: ·) hsplit)
      closed := fun y1 hy1 hh hr hrt => ?_
      unread := fun y1 hy1 hh hl hr hrt => ?_
      told := fun y1 hy1 heof hrt => ?_
      shutState := h.shutState
      finSent := fun x hx hsh hrt hrt' => ?_
      synFirst := fun x hx hn => (by rw [hy'.stream] at hn; cases hn) }
  · rw [hy'.stream] at hy1
    cases hy1
    rcases hy'.closing hr with hr | hfin | rfl
    · obtain ⟨hp, hd⟩ := h.closed y hy (hy'.keeps.held.symm.trans hh) hr hrt
      rw [hline, payload_cons] at hp
      exact ⟨(List.append_eq_nil_iff.mp hp).2, hd⟩
    · exact ⟨h.finLast [] f _ hline hfin, h.fin f hmem hfin⟩
    · exact absurd (hrt.symm.trans (hs.resets hmem)) (by decide)
  · rw [hy'.stream] at hy1
    cases hy1
    have hheld : y.held = true := hy'.keeps.held.symm.trans hh
    have hlook : y.looking = true := hy'.keeps.looking.symm.trans hl
    have hlisted : Y.listed = true := by
      cases hl : Y.listed with
      | true => rfl
      | false =>
        rw [(hok.unlisted y hy hl).1] at hheld
        cases hheld
    have hempty : y.buffer = [] ∧ f.body = [] := by
      rcases hy'.closing hr with hr | hfin | rfl
      · obtain ⟨hp, -⟩ := h.closed y hy hheld hr hrt
        rw [hline, payload_cons] at hp
        exact ⟨h.unread y hy hheld hlook hr hrt, (List.append_eq_nil_iff.mp hp).1⟩
      · exact ⟨hcut hfin hlook, (hs.kinds f hmem).body_of_fin hfin⟩
      · exact absurd (hrt.symm.trans (hs.resets hmem)) (by decide)
    rw [hy'.buffer hlisted, hempty.1, hempty.2]
    rfl
  · rw [hy'.stream] at hy1
    cases hy1
    obtain ⟨x, hx, hd, hro⟩ := h.told y hy (hy'.keeps.eof.symm.trans heof) hrt
    exact ⟨x, hx, hd, hy'.keeps.readOut.trans hro⟩
  · rw [hy'.reset] at hrt'
    rcases h.finSent x hx hsh hrt hrt' with ⟨g, hg, hfin⟩ | ⟨y1, hy1, hor⟩ | ⟨hn, -⟩
    · rw [hline] at hg
      rcases List.mem_cons.mp hg with rfl | hg
      · -- the close itself has arrived
        refine Or.inr (Or.inl ⟨y', hy'.stream, ?_⟩)
        rcases hy'.fin hfin with hr | hl
        · exact Or.inl hr
        · exact Or.inr (hy'.keeps.held.trans (hok.unlisted y hy hl).1)
      · exact Or.inl ⟨g, hg, hfin⟩
    · rw [hy] at hy1
      cases hy1
      refine Or.inr (Or.inl ⟨y', hy'.stream, ?_⟩)
      rcases hor with hor | hor
      · exact Or.inl (hy'.keeps.canRead hor)
      · exact Or.inr (hy'.keeps.held.trans hor)
    · rw [hy] at hn
      cases hn

/-- The end that sent a frame, once it has arrived at an end that has not the stream. -/
theorem of_sent_unknown {f : Frame} {t : List Frame} (h : Orderly X Y)
    (hs : Sound id mine X.half Y.half) (hfront : X.front = f :: t) (hy : Y.stream = none)
    (ha : Arrival id Y f Y') : Orderly { X with front := t } Y' := by
  have hline : X.line = f :: (t ++ X.rest) := by
    rw [View.line, hfront]
    rfl
  have hsub : ∀ g ∈ t ++ X.rest, g ∈ X.line := fun g hg => by
    rw [hline]
    exact List.mem_cons_of_mem f hg
  have hnone : ∀ {P : Stream → Prop}, ∀ y, Y.stream = some y → P y := by
    intro P y hy1
    rw [hy] at hy1
    cases hy1
  have hlast : ∀ a g r, t ++ X.rest = a ++ g :: r → g.fin = true → payload r = [] :=
    fun a g r hsplit => h.finLast (f :: a) g r (by rw [hline, hsplit]; rfl)
  cases ha with
  | ignored hl hsyn =>
    refine ⟨h.issued, fun g hg => h.fin g (hsub g hg), hlast, hnone, hnone, hnone, h.shutState,
      fun x hx hsh hrt hrt' => ?_, fun x hx _ hrt' hfl => ?_⟩
    · rcases h.finSent x hx hsh hrt hrt' with ⟨g, hg, hfin⟩ | ⟨y1, hy1, -⟩ | hthird
      · rw [hline] at hg
        rcases List.mem_cons.mp hg with rfl | hg
        · -- a close that finds no stream: the stream was never opened
          refine Or.inr (Or.inr ⟨hy, ?_⟩)
          by_contra hfl
          obtain ⟨k, r, hl', hk⟩ := h.synFirst x hx hy hrt' hfl
          rw [hline] at hl'
          obtain ⟨rfl, -⟩ := List.cons.inj hl'
          rw [hsyn] at hk
          cases hk
        · exact Or.inl ⟨g, hg, hfin⟩
      · rw [hy] at hy1
        cases hy1
      · exact Or.inr (Or.inr hthird)
    · obtain ⟨k, r, hl', hk⟩ := h.synFirst x hx hy hrt' hfl
      rw [hline] at hl'
      obtain ⟨rfl, -⟩ := List.cons.inj hl'
      rw [hsyn] at hk
      cases hk
  | @accepted ack body hn hb =>
    refine ⟨h.issued, fun g hg => h.fin g (hsub g hg), hlast, fun y hy1 _ hr => ?_,
      fun y hy1 _ hlook => ?_, fun y hy1 heof => ?_, h.shutState, fun x hx hsh hrt hrt' => ?_,
      fun x hx hn' => (by cases hn')⟩
    · cases hy1
      cases hr
    · cases hy1
      cases hlook
    · cases hy1
      cases heof
    · rcases h.finSent x hx hsh hrt hrt' with ⟨g, hg, hfin⟩ | ⟨y1, hy1, -⟩ | ⟨-, hfl⟩
      · rw [hline] at hg
        rcases List.mem_cons.mp hg with rfl | hg
        · cases hfin
        · exact Or.inl ⟨g, hg, hfin⟩
      · rw [hy] at hy1
        cases hy1
      · exact absurd hfl (hs.syn_arrived hline rfl hx hy hrt').1
  | refused hn =>
    refine ⟨h.issued, fun g hg => h.fin g (hsub g hg), hlast, hnone, hnone, hnone, h.shutState,
      fun _ _ _ _ hrt' => (by cases hrt'), fun _ _ _ hrt' => (by cases hrt')⟩
  | payload _ hs1 =>
    rw [hy] at hs1
    cases hs1
  | credit _ hs1 =>
    rw [hy] at hs1
    cases hs1
  | close _ hs1 =>
    rw [hy] at hs1
    cases hs1
  | reset _ hs1 =>
    rw [hy] at hs1
    cases hs1

/-- The end a frame has reached, when it has the stream. -/
theorem of_received_known {f : Frame} {t : List Frame} {y y' : Stream} (h : Orderly Y X)
    (hy : Y.stream = some y) (hy' : Reached id f Y Y' y y') :
    Orderly Y' { X with front := t } := by
  have hdone : (∃ y1, Y.stream = some y1 ∧ y1.Done) → ∃ y1, Y'.stream = some y1 ∧ y1.Done := by
    rintro ⟨y1, hy1, hd⟩
    rw [hy] at hy1
    cases hy1
    refine ⟨y', hy'.stream, ?_⟩
    rcases hd with hd | hd
    · exact Or.inl (hy'.keeps.shut.trans hd)
    · exact Or.inr (hy'.keeps.held.trans hd)
  refine
    { issued := by rw [hy'.order, hy'.issued, h.issued]
      fin := fun g hg hfin => ?_
      finLast := fun a g r hsplit => ?_
      closed := fun x hx hh hr hrt => ?_
      unread := fun x hx hh hl hr hrt => h.unread x hx hh hl hr (hy'.reset.symm.trans hrt)
      told := fun x hx heof hrt => ?_
      shutState := fun y1 hy1 hsh => ?_
      finSent := fun y1 hy1 hsh hrt hrt' => ?_
      synFirst := fun y1 hy1 hn hrt hfl => ?_ }
  · rw [hy'.line] at hg
    exact hdone (h.fin g hg hfin)
  · rw [hy'.line] at hsplit
    exact h.finLast a g r hsplit
  · rw [hy'.reset] at hrt
    rw [hy'.line]
    obtain ⟨hp, hd⟩ := h.closed x hx hh hr hrt
    exact ⟨hp, hdone hd⟩
  · rw [hy'.reset] at hrt
    obtain ⟨y1, hy1, hd, hro⟩ := h.told x hx heof hrt
    obtain ⟨y2, hy2, hd2⟩ := hdone ⟨y1, hy1, hd⟩
    rw [hy] at hy1
    cases hy1
    rw [hy'.stream] at hy2
    cases hy2
    exact ⟨y', hy'.stream, hd2, hro.trans hy'.keeps.written.symm⟩
  · rw [hy'.stream] at hy1
    cases hy1
    exact hy'.keeps.canWrite (h.shutState y hy (hy'.keeps.shut.symm.trans hsh))
  · rw [hy'.stream] at hy1
    cases hy1
    rw [hy'.reset] at hrt
    rw [hy'.line, hy'.keeps.flag]
    exact h.finSent y hy (hy'.keeps.shut.symm.trans hsh) hrt hrt'
  · rw [hy'.stream] at hy1
    cases hy1
    rw [hy'.keeps.flag] at hfl
    rw [hy'.line]
    exact h.synFirst y hy hn hrt hfl

/-- The end an opening frame has reached. -/
theorem of_received_unknown {f : Frame} {t : List Frame} (h : Orderly Y X)
    (hs : Sound id mine X.half Y.half) (hb : Sound id (!mine) Y.half X.half)
    (hfront : X.front = f :: t) (hy : Y.stream = none) (ha : Arrival id Y f Y') :
    Orderly Y' { X with front := t } := by
  have hline : X.half.line = f :: (t ++ X.rest) := by
    change X.line = _
    rw [View.line, hfront]
    rfl
  have hnone : ∀ {P : Stream → Prop}, ∀ y, Y.stream = some y → P y := by
    intro P y hy1
    rw [hy] at hy1
    cases hy1
  cases ha with
  | ignored =>
    exact ⟨h.issued, h.fin, h.finLast, h.closed, h.unread, h.told, h.shutState, h.finSent,
      h.synFirst⟩
  | accepted hn hbd =>
    obtain ⟨-, -, hrt, hYline, x, hx⟩ := hs.opening hb hline rfl
    have hYline : Y.line = [] := hYline
    refine ⟨h.issued, ?_, ?_, ?_, ?_, ?_, ?_, ?_, ?_⟩
    · intro g hg
      change g ∈ Y.line at hg
      rw [hYline] at hg
      cases hg
    · intro a g r hsplit
      change Y.line = _ at hsplit
      rw [hYline] at hsplit
      simp at hsplit
    · intro x1 hx1 hh hr hrt'
      obtain ⟨-, y, hy1, -⟩ := h.closed x1 hx1 hh hr hrt'
      rw [hy] at hy1
      cases hy1
    · exact fun x1 hx1 hh hl hr hrt' => h.unread x1 hx1 hh hl hr hrt'
    · intro x1 hx1 heof hrt'
      obtain ⟨y, hy1, -⟩ := h.told x1 hx1 heof hrt'
      rw [hy] at hy1
      cases hy1
    · intro y hy1 hsh
      cases hy1
      cases hsh
    · intro y hy1 hsh
      cases hy1
      cases hsh
    · intro y _ hn'
      change X.stream = none at hn'
      change X.stream = some x at hx
      rw [hx] at hn'
      cases hn'
  | refused hn =>
    obtain ⟨-, -, hrt, hYline, x, hx⟩ := hs.opening hb hline rfl
    obtain ⟨hYfront, hYrest⟩ : Y.front = [] ∧ Y.rest = [] := List.append_eq_nil_iff.mp hYline
    have hYline' : View.line { Y with
        rest := .reset id :: Y.rest, issued := Y.issued ++ [.reset id], reset := true } =
        [.reset id] := by
      simp [View.line, hYfront, hYrest]
    have hissued := h.issued
    rw [hYrest, List.append_nil] at hissued
    refine ⟨?_, ?_, ?_, ?_, fun _ _ _ _ _ hrt' => (by cases hrt'), ?_, hnone, hnone, hnone⟩
    · simp [hYrest, hissued]
    · intro g hg hfin
      rw [hYline'] at hg
      rw [List.mem_singleton.mp hg] at hfin
      cases hfin
    · intro a g r hsplit hfin
      rw [hYline'] at hsplit
      have hg : g ∈ [Frame.reset id] := by
        rw [hsplit]
        simp
      rw [List.mem_singleton.mp hg] at hfin
      cases hfin
    · intro x1 hx1 hh hr hrt'
      cases hrt'
    · intro x1 hx1 heof hrt'
      cases hrt'
  | payload _ hs1 =>
    rw [hy] at hs1
    cases hs1
  | credit _ hs1 =>
    rw [hy] at hs1
    cases hs1
  | close _ hs1 =>
    rw [hy] at hs1
    cases hs1
  | reset _ hs1 =>
    rw [hy] at hs1
    cases hs1

/-- **An arrival keeps the invariant**, in both directions. -/
theorem arrival {f : Frame} {t : List Frame} (h : Orderly X Y) (hr : Orderly Y X)
    (hs : Sound id mine X.half Y.half) (hb : Sound id (!mine) Y.half X.half) (hok : Y.Ok id)
    (hfront : X.front = f :: t)
    (hcut : f.fin = true → ∀ y, Y.stream = some y → y.looking = true → y.buffer = [])
    (ha : Arrival id Y f Y') :
    Orderly { X with front := t } Y' ∧ Orderly Y' { X with front := t } := by
  cases hy : Y.stream with
  | none =>
    exact ⟨h.of_sent_unknown hs hfront hy ha, hr.of_received_unknown hs hb hfront hy ha⟩
  | some y =>
    obtain ⟨y', hy'⟩ := reached ha hy
    exact ⟨h.of_sent_known hs hok hfront (fun hfin => hcut hfin y hy) hy hy',
      hr.of_received_known hy hy'⟩

end Orderly

/-! ## 4. Orderly runs -/

/-- The invariant of a stream's two directions. -/
def OrderlyAt (id : StreamId) (w : World) : Prop :=
  ∀ m, Orderly ((w m).view id) ((w m.peer).view id)

theorem OrderlyAt.new (id : StreamId) (cfg : Mode → Config) :
    OrderlyAt id fun m => .new m (cfg m) := by
  intro m
  refine ⟨rfl, ?_, ?_, ?_, ?_, ?_, ?_, ?_, ?_⟩
  · intro f hf
    cases hf
  · intro a f r hsplit
    change [] = a ++ f :: r at hsplit
    simp at hsplit
  · intro y hy
    cases hy
  · intro y hy
    cases hy
  · intro y hy
    cases hy
  · intro x hx
    cases hx
  · intro x hx
    cases hx
  · intro x hx
    cases hx

/-- What a step in order shows on the stream keeps it in order. -/
theorem Effect.orderly {w w' : World} {id : StreamId}
    (he : Effect id (· = []) (fun m f => f.fin = true → ∀ y, ((w m).view id).stream = some y →
      y.looking = true → y.buffer = []) w w')
    (hag : Agree w) (h : OrderlyAt id w) : OrderlyAt id w' := by
  have key : ∀ k : Mode, Orderly ((w' k).view id) ((w' k.peer).view id) →
      Orderly ((w' k.peer).view id) ((w' k).view id) → OrderlyAt id w' := by
    intro k h1 h2 m
    rcases Mode.eq_or_eq_peer k m with rfl | rfl
    · exact h1
    · rw [Mode.peer_peer]
      exact h2
  have hback : ∀ k : Mode, Orderly ((w k.peer).view id) ((w k).view id) := by
    intro k
    have hk := h k.peer
    rwa [Mode.peer_peer] at hk
  cases he with
  | quiet hq =>
    intro m
    rw [hq m, hq m.peer]
    exact h m
  | move k hm hp =>
    obtain ⟨h1, h2⟩ := (h k).move (hback k) (hag.sound k id) (hag.back k id)
      ((hag.ok k).views id) hm
    refine key k ?_ ?_
    · rw [hp]
      exact h1
    · rw [hp]
      exact h2
  | arrival k f t hcut hfront hp ha =>
    have hs := hag.sound k.peer id
    have hb := hag.back k.peer id
    rw [Mode.peer_peer] at hs hb
    obtain ⟨h1, h2⟩ := (hback k).arrival (h k) hs hb ((hag.ok k).views id) hfront hcut ha
    refine key k ?_ ?_
    · rw [hp]
      exact h2
    · rw [hp]
      exact h1

/-- **In every state of a run that keeps the stream's order, the stream is in order.** -/
theorem reach_orderly {cfg : Mode → Config} {w : World} {id : StreamId}
    (h : ((mux cfg).restrict (KeepsOrder id)).Reach w) (hc : w.Connected) : OrderlyAt id w := by
  have key : w.Connected → Agree w ∧ OrderlyAt id w := by
    refine Lts.Reach.invariant (P := fun w => w.Connected → Agree w ∧ OrderlyAt id w) ?_ ?_ h
    · rintro w rfl -
      exact ⟨Agree.new cfg, OrderlyAt.new id cfg⟩
    · intro w a w' hw hstep hc'
      obtain ⟨hk, hstep⟩ := hstep
      obtain ⟨hag, ho⟩ := hw (step_cases hstep hc').1
      refine ⟨hag.step hstep hc', Effect.orderly (step_effect hag hstep hc' ?_ ?_) hag ho⟩
      · intro m ha
        subst ha
        exact hk
      · rintro m f t rfl hw hid hfin y hy hl
        have hcut : (w m).cutsShort id f = false := hk f (by rw [hw]; rfl)
        by_contra hne
        have htrue : (w m).cutsShort id f = true := by
          rw [Active.cutsShort, Bool.and_eq_true, Bool.and_eq_true]
          refine ⟨⟨by simpa using hid, hfin⟩, (Option.any_eq_true ..).mpr ⟨y, hy, ?_⟩⟩
          rw [hl]
          simpa using hne
        rw [hcut] at htrue
        cases htrue
  exact (key hc).2

/-! ## 5. Delivery -/

/-- Neither end reset the stream, the writer did not drop it before it shut it down, and the
reader did not drop it before it was told of the end. -/
structure World.Undisturbed (w : World) (m : Mode) (id : StreamId) : Prop where
  notReset : id ∉ (w m).resets
  notResetBack : id ∉ (w m.peer).resets
  writer : ∀ x, (w m).ends id = some x → x.held = true ∨ x.shut = true
  reader : ∀ y, (w m.peer).ends id = some y → y.held = true ∨ y.eof = true

/-- **What the reader of a stream is promised**, in the direction from end `m`: the stream's
frames leave in the order they were issued; what was read is what was written, from the start; the
end is reported after all the bytes of a stream that was shut down; and when the connections have
nothing left to do, the reader of a stream that was opened and shut down has all the bytes, and
was told of the end or will be by its next read. -/
structure Delivered (w : World) (m : Mode) (id : StreamId) : Prop where
  ordered : (w m).left.filter (ofStream id) <+: (w m).issued.filter (ofStream id)
  bytes : ∀ x y, (w m).ends id = some x → (w m.peer).ends id = some y → y.readOut <+: x.written
  whole : w.Undisturbed m id → ∀ y, (w m.peer).ends id = some y → y.eof = true →
    ∃ x, (w m).ends id = some x ∧ x.shut = true ∧ y.readOut = x.written
  complete : w.Undisturbed m id → w.Quiescent → ∀ x, (w m).ends id = some x → x.shut = true →
    x.flag ≠ .syn → ∃ y, (w m.peer).ends id = some y ∧ y.readOut ++ y.buffer = x.written ∧
      (y.eof = true ∨ y.state.canRead = false)

/-- An end that is done and was not dropped early has queued its close. -/
theorem World.Undisturbed.shut {w : World} {m : Mode} {id : StreamId} {x : Stream}
    (h : w.Undisturbed m id) (hx : (w m).ends id = some x) (hd : x.Done) : x.shut = true := by
  rcases hd with hd | hd
  · exact hd
  · rcases h.writer x hx with hh | hs
    · rw [hd] at hh
      cases hh
    · exact hs

/-- **Stream delivery.**  In every run in which nothing of a stream goes to the control queue
while frames of the stream wait in the payload queue, and in which no close arrives in the middle of
a read that it cuts short, whatever the other streams do, the stream is delivered. -/
theorem stream_delivery {cfg : Mode → Config} {w : World} {id : StreamId}
    (h : ((mux cfg).restrict (KeepsOrder id)).Reach w) (hc : w.Connected) (m : Mode) :
    Delivered w m id := by
  have hag := reach_agree h.of_restrict hc
  have ho := reach_orderly h hc m
  have hs := hag.sound m id
  have hreset : w.Undisturbed m id →
      ((w m).view id).reset = false ∧ ((w m.peer).view id).reset = false := fun hu =>
    ⟨decide_eq_false hu.notReset, decide_eq_false hu.notResetBack⟩
  refine ⟨⟨_, ho.issued⟩, fun x y hx hy => ?_, fun hu y hy heof => ?_, fun hu hq x hx hsh hfl => ?_⟩
  · exact (List.prefix_append _ _).trans (hs.seen x y hx hy).1
  · obtain ⟨x, hx, hd, hro⟩ := ho.told y hy heof (hreset hu).1
    exact ⟨x, hx, hu.shut hx hd, hro⟩
  · have hline : ((w m).view id).line = [] :=
      hq.line_nil hc hag (fun k => (mux_backed h.of_restrict k (hc k)).metered) m id
    rcases ho.finSent x hx hsh (hreset hu).1 (hreset hu).2 with
      ⟨f, hf, -⟩ | ⟨y, hy, hor⟩ | ⟨-, hsyn⟩
    · rw [hline] at hf
      cases hf
    · refine ⟨y, hy, ?_⟩
      cases heof : y.eof with
      | true =>
        -- the reader was told of the end: it has all the bytes, and nothing is buffered
        obtain ⟨x1, hx1, -, hro⟩ := ho.told y hy heof (hreset hu).1
        cases hx.symm.trans hx1
        have hpre := (hs.seen x y hx hy).1
        rw [← hro, Stream.got] at hpre
        have hbuf : y.buffer = [] := by
          have hlen := hpre.length_le
          rw [List.length_append] at hlen
          exact List.eq_nil_of_length_eq_zero (by omega)
        exact ⟨by rw [hbuf, List.append_nil, hro], Or.inl rfl⟩
      | false =>
        have hheld : y.held = true := by
          rcases hu.reader y hy with hh | he
          · exact hh
          · rw [heof] at he
            cases he
        have hl : ((w m.peer).view id).listed = true := by
          cases hl : ((w m.peer).view id).listed with
          | true => rfl
          | false =>
            rw [(((hag.ok m.peer).views id).unlisted y hy hl).1] at hheld
            cases hheld
        have heq : y.got ++ payload ((w m).view id).line = x.written := (hs.seen x y hx hy).2 hl
        rw [hline, payload_nil, List.append_nil] at heq
        refine ⟨heq, Or.inr ?_⟩
        rcases hor with hor | hor
        · exact hor
        · rw [hheld] at hor
          cases hor
    · exact absurd hsyn hfl

/-! ### Two runs -/

/-- The two fresh ends of a tunnel. -/
def tunnel : World := fun m => .new m tunnelConfig

/-- Stream 1 carries one byte and is closed; the server reads the byte and then the end. -/
def orderlyRun : List Label :=
  [.act .client .newOutbound, .act .client (.write 1 [7]), .act .client .queue,
    .act .client .start, .act .client .flush, .receive .server,
    .act .client (.shutdown 1), .act .client .queue, .act .client .start, .act .client .flush,
    .receive .server, .act .server (.read 1 16 false), .act .server (.read 1 16 false),
    .act .server (.endRead 1)]

/-- Stream 1 carries two bytes in two frames and is closed while the socket is still busy with the
first frame.  The close leaves before the second frame; the server reads the first byte and then
the end. -/
def overtakenRun : List Label :=
  [.act .client .newOutbound, .act .client (.write 1 [7]), .act .client .queue,
    .act .client .start, .act .client (.write 1 [8]), .act .client .queue,
    .act .client (.shutdown 1), .act .client .queue, .act .client .flush, .act .client .start,
    .act .client .flush, .receive .server, .receive .server,
    .act .server (.read 1 16 false), .act .server (.read 1 16 false), .act .server (.endRead 1)]

/-- Stream 1 carries a byte, which the server reads.  A read then finds nothing, and before its look
for the end a second byte and the close arrive. -/
def cutShortRun : List Label :=
  [.act .client .newOutbound, .act .client (.write 1 [7]), .act .client .queue,
    .act .client .start, .act .client .flush, .receive .server,
    .act .server (.read 1 16 false), .act .server (.read 1 16 false),
    .act .client (.write 1 [8]), .act .client .queue, .act .client .start, .act .client .flush,
    .receive .server, .act .client (.shutdown 1), .act .client .queue, .act .client .start,
    .act .client .flush, .receive .server, .act .server (.endRead 1)]

/-- What the end of a run shows of stream 1: both connections live, the stream neither reset nor
dropped, the bytes written and read, and the report of the end. -/
def showsEnd (written read : List UInt8) (w : World) : Bool :=
  !(w .client).closed && !(w .server).closed &&
    !(w .client).resets.contains 1 && !(w .server).resets.contains 1 &&
    (((w .client).ends 1).any fun x => x.held && x.shut && x.written == written) &&
    ((w .server).ends 1).any fun y => y.held && y.eof && y.readOut == read

/-- A state that shows a stream's end. -/
theorem showsEnd_spec {written read : List UInt8} {w : World} (h : showsEnd written read w = true) :
    w.Connected ∧ w.Undisturbed .client 1 ∧
      ∃ x y, (w .client).ends 1 = some x ∧ (w .server).ends 1 = some y ∧ y.eof = true ∧
        x.written = written ∧ y.readOut = read := by
  simp only [showsEnd, Bool.and_eq_true, Bool.not_eq_true', Option.any_eq_true, beq_iff_eq] at h
  obtain ⟨⟨⟨⟨⟨hc, hs⟩, hrc⟩, hrs⟩, x, hx, ⟨hxh, hxs⟩, hxw⟩, y, hy, ⟨hyh, hye⟩, hyr⟩ := h
  refine ⟨fun m => ?_, ⟨?_, ?_, fun x1 hx1 => ?_, fun y1 hy1 => ?_⟩, x, y, hx, hy, hye, hxw, hyr⟩
  · cases m
    · exact hc
    · exact hs
  · simpa using hrc
  · change 1 ∉ (w .server).resets
    simpa using hrs
  · cases hx.symm.trans hx1
    exact Or.inl hxh
  · cases hy.symm.trans hy1
    exact Or.inl hyh

/-- A byte and the end, in order. -/
theorem stream_delivery_one_byte :
    ∃ w : World, ((mux fun _ => tunnelConfig).restrict (KeepsOrder 1)).Reach w ∧ w.Connected ∧
      w.Undisturbed .client 1 ∧ Delivered w .client 1 ∧
      ((w .server).ends 1).any (fun y => y.eof && y.readOut == [7]) = true := by
  have hrun : (Lts.runWith World.step (fun w a => decide (KeepsOrder 1 w a)) tunnel orderlyRun).any
      (showsEnd [7] [7]) = true := by decide +kernel
  obtain ⟨w, hw, hend⟩ := (Option.any_eq_true ..).mp hrun
  have hreach : ((mux fun _ => tunnelConfig).restrict (KeepsOrder 1)).Reach w :=
    Lts.Reach.runWith (fun _ _ _ hs => hs) (fun _ _ ho => of_decide_eq_true ho)
      (Lts.Reach.init rfl) hw
  obtain ⟨hc, hu, x, y, -, hy, heof, -, hro⟩ := showsEnd_spec hend
  refine ⟨w, hreach, hc, hu, stream_delivery hreach hc .client, ?_⟩
  rw [hy]
  simp [heof, hro]

/-- A run that ends with the report of the end and not all the bytes. -/
theorem not_delivered_of_run {run : List Label} {written read : List UInt8}
    (hrun : (Lts.runWith World.step (fun _ _ => true) tunnel run).any
      (showsEnd written read) = true) (hne : read ≠ written) :
    ∃ w : World, (mux fun _ => tunnelConfig).Reach w ∧ w.Connected ∧ w.Undisturbed .client 1 ∧
      ¬ Delivered w .client 1 := by
  obtain ⟨w, hw, hend⟩ := (Option.any_eq_true ..).mp hrun
  have hreach : ((mux fun _ => tunnelConfig).restrict fun _ _ => True).Reach w :=
    Lts.Reach.runWith (fun _ _ _ hs => hs) (fun _ _ _ => trivial) (Lts.Reach.init rfl) hw
  obtain ⟨hc, hu, x, y, hx, hy, heof, hwr, hro⟩ := showsEnd_spec hend
  refine ⟨w, hreach.of_restrict, hc, hu, fun hd => ?_⟩
  obtain ⟨x1, hx1, -, heq⟩ := hd.whole hu y hy heof
  cases hx.symm.trans hx1
  rw [hwr, hro] at heq
  exact hne heq

/-- **The close overtakes the bytes.**  Two live connections, a stream that nobody reset or
dropped, two bytes written before the shutdown: the reader is told of the end after the first. -/
theorem delivery_overtaken :
    ∃ w : World, (mux fun _ => tunnelConfig).Reach w ∧ w.Connected ∧ w.Undisturbed .client 1 ∧
      ¬ Delivered w .client 1 :=
  have hrun : (Lts.runWith World.step (fun _ _ => true) tunnel overtakenRun).any
      (showsEnd [7, 8] [7]) = true := by decide +kernel
  not_delivered_of_run hrun (by decide)

/-- **The end is reported before the bytes.**  The second byte and the close arrive in their order,
in the middle of a read: the reader is told of the end with the byte in the buffer. -/
theorem delivery_cut_short :
    ∃ w : World, (mux fun _ => tunnelConfig).Reach w ∧ w.Connected ∧ w.Undisturbed .client 1 ∧
      ¬ Delivered w .client 1 :=
  have hrun : (Lts.runWith World.step (fun _ _ => true) tunnel cutShortRun).any
      (showsEnd [7, 8] [7]) = true := by decide +kernel
  not_delivered_of_run hrun (by decide)

end Molehill.Mux
