/-
# What a connection can be made to hold

A receiver grants each stream `DEFAULT_CREDIT` and grows a window only out of what the connection
has left beyond that (`next_window_update`).  Whatever the peer sends and whatever the users of
the streams do, the account of grown windows is exactly the sum of what the listed streams grew
by (`Budgeted.account`), so it is returned in full when a stream goes, and the windows of all the
streams together, with the bytes they have buffered, stay within
`max_connection_receive_window` (`receive_budget`).  What `assert_invariants` asserts of the
windows holds on the way, and no subtraction of the flow controller goes below zero.
-/
import Mathlib.Algebra.BigOperators.Group.List.Basic
import Mathlib.Algebra.Order.BigOperators.Group.List
import Mathlib.Algebra.Order.Group.Nat
import Mathlib.Data.List.Nodup
import Molehill.Mux.Accounts

namespace Molehill.Mux

open Function Lib

/-! ## 1. Sums over a list without repetitions -/

section Sums

variable {α : Type*} [DecidableEq α] {l : List α} {f g : α → Nat} {a : α}

/-- One summand apart. -/
theorem sum_map_apart (hn : l.Nodup) (ha : a ∈ l) (f : α → Nat) :
    (l.map f).sum = f a + ((l.filter (· != a)).map f).sum := by
  rw [← hn.erase_eq_filter a]
  exact (List.sum_map_erase f ha).symm

/-- Summands that differ at one place. -/
theorem sum_map_change (hn : l.Nodup) (ha : a ∈ l) (h : ∀ b ∈ l, b ≠ a → f b = g b) :
    (l.map f).sum + g a = (l.map g).sum + f a := by
  have hrest : (l.filter (· != a)).map f = (l.filter (· != a)).map g := by
    refine List.map_congr_left fun b hb => ?_
    obtain ⟨hb, hne⟩ := List.mem_filter.mp hb
    exact h b hb (by simpa using hne)
  rw [sum_map_apart hn ha f, sum_map_apart hn ha g, hrest]
  omega

end Sums

/-! ## 2. The window of one stream -/

/-- What the streams of a connection may share beyond their default windows. -/
def Config.spare (cfg : Config) : Nat :=
  cfg.maxConnectionReceiveWindow.getD usizeMax - cfg.maxNumStreams * defaultCredit

namespace Stream

/-- **What `assert_invariants` asserts of one stream's window**, with what a window update is
granted against. -/
structure Windowed (s : Stream) : Prop where
  floor : defaultCredit ≤ s.maxReceiveWindow
  ceiling : s.maxReceiveWindow ≤ u32Max
  room : s.receiveWindow + s.buffer.length ≤ s.maxReceiveWindow

/-- What a stream's window grew by. -/
def grown (s : Stream) : Nat := s.maxReceiveWindow - defaultCredit

/-- A stream whose window stays and that holds no more than it did. -/
structure Draws (s s' : Stream) : Prop where
  max : s'.maxReceiveWindow = s.maxReceiveWindow
  held : s'.receiveWindow + s'.buffer.length ≤ s.receiveWindow + s.buffer.length

variable {s s' : Stream} {id : StreamId} {cfg : Config}

theorem Windowed.draws (h : s.Windowed) (hd : s.Draws s') : s'.Windowed where
  floor := hd.max ▸ h.floor
  ceiling := hd.max ▸ h.ceiling
  room := hd.max ▸ Nat.le_trans hd.held h.room

/-- An end whose window and buffer stay. -/
theorem Draws.of_eq (hm : s'.maxReceiveWindow = s.maxReceiveWindow)
    (hr : s'.receiveWindow = s.receiveWindow) (hb : s'.buffer = s.buffer) : s.Draws s' where
  max := hm
  held := by rw [hr, hb]

theorem Draws.trans {s'' : Stream} (h : s.Draws s') (h' : s'.Draws s'') : s.Draws s'' where
  max := h'.max.trans h.max
  held := Nat.le_trans h'.held h.held

theorem finish_draws (s : Stream) (isFinish : Bool) : s.Draws (s.finish isFinish) := by
  cases isFinish with
  | false => exact .of_eq rfl rfl rfl
  | true => exact .of_eq rfl rfl rfl

/-- Bytes that arrive use up the window they fill the buffer with. -/
theorem absorb_draws {body : List UInt8} (h : body.length ≤ s.receiveWindow) :
    s.Draws (s.absorb body) where
  max := rfl
  held := by
    rw [absorb]
    dsimp only
    rw [List.length_append]
    omega

theorem copyOut_draws (s : Stream) (cap : Nat) : s.Draws (s.copyOut cap) where
  max := rfl
  held := by
    rw [copyOut]
    dsimp only
    rw [List.length_drop]
    omega

/-- A fresh stream has the default window. -/
theorem new_windowed (flag : Flag) (sendWindow : Nat) : (Stream.new flag sendWindow).Windowed where
  floor := Nat.le_refl _
  ceiling := (by decide : defaultCredit ≤ u32Max)
  room := Nat.le_refl _

theorem grown_new (flag : Flag) (sendWindow : Nat) : (Stream.new flag sendWindow).grown = 0 := by
  have hmax : (Stream.new flag sendWindow).maxReceiveWindow = defaultCredit := rfl
  rw [grown, hmax, Nat.sub_self]

/-- **A window update** fills the window, and takes what it grew by from the connection. -/
theorem nextWindowUpdate_windowed {accumulated accumulated' credit : Nat} {fast : Bool}
    (hw : s.Windowed) (hacc : accumulated ≤ cfg.spare)
    (h : s.nextWindowUpdate cfg accumulated fast = some (credit, s', accumulated')) :
    s'.Windowed ∧ accumulated' + s.grown = accumulated + s'.grown ∧ accumulated' ≤ cfg.spare := by
  obtain ⟨hfloor, hceil, hroom⟩ := hw
  have hbounds : s.maxReceiveWindow ≤ s.grownWindow cfg accumulated ∧
      s.grownWindow cfg accumulated ≤ u32Max ∧
      s.grownWindow cfg accumulated ≤ s.maxReceiveWindow + (cfg.spare - accumulated) := by
    rw [grownWindow, Config.spare]
    omega
  have hmax : ∀ newMax, newMax = (if fast then s.grownWindow cfg accumulated
      else s.maxReceiveWindow) → s.maxReceiveWindow ≤ newMax ∧ newMax ≤ u32Max ∧
        newMax ≤ s.maxReceiveWindow + (cfg.spare - accumulated) := by
    rintro newMax rfl
    split
    · exact hbounds
    · exact ⟨Nat.le_refl _, hceil, Nat.le_add_right _ _⟩
  rw [nextWindowUpdate] at h
  split at h
  · cases h
  cases h
  obtain ⟨hle, hu32, hspare⟩ := hmax _ rfl
  refine ⟨⟨Nat.le_trans hfloor hle, hu32, ?_⟩, ?_, ?_⟩
  · dsimp only
    omega
  · dsimp only [grown]
    omega
  · omega

/-- The frame that carries the update changes no window. -/
theorem sendWindowUpdate_windowed {accumulated accumulated' : Nat} {fast : Bool} {f : Frame}
    (hw : s.Windowed) (hacc : accumulated ≤ cfg.spare)
    (h : s.sendWindowUpdate cfg accumulated fast id = (s', some (f, accumulated'))) :
    s'.Windowed ∧ accumulated' + s.grown = accumulated + s'.grown ∧ accumulated' ≤ cfg.spare := by
  rw [sendWindowUpdate] at h
  split at h
  · cases h
  split at h
  · cases h
  split at h
  · cases h
  next credit s1 acc hnext =>
  rw [addFlag_eq] at h
  cases h
  obtain ⟨hw1, hacc1, hspare⟩ := nextWindowUpdate_windowed hw hacc hnext
  exact ⟨hw1.draws (.of_eq rfl rfl rfl), hacc1, hspare⟩

end Stream

/-! ## 3. The account of grown windows -/

/-- What the window of a stream grew by. -/
def Active.grown (c : Active) (id : StreamId) : Nat := ((c.ends id).map Stream.grown).getD 0

/-- **What a connection keeps of its windows.** -/
structure Active.Budgeted (cfg : Config) (c : Active) : Prop where
  config : c.config = cfg
  nodup : c.streams.Nodup
  windowed : ∀ id ∈ c.streams, ∃ s, c.ends id = some s ∧ s.Windowed
  account : c.accumulated = (c.streams.map c.grown).sum
  spare : c.accumulated ≤ cfg.spare

namespace Active

variable {c c' : Active} {cfg : Config} {k : StreamId} {s s' : Stream}

theorem grown_of_some (hs : c.ends k = some s) : c.grown k = s.grown := by
  rw [grown, hs, Option.map_some, Option.getD_some]

theorem grown_congr (h : c'.ends k = c.ends k) : c'.grown k = c.grown k := by
  rw [grown, grown, h]

namespace Budgeted

theorem new (m : Mode) (cfg : Config) : (Active.new m cfg).Budgeted cfg where
  config := rfl
  nodup := List.nodup_nil
  windowed _ h := by cases h
  account := rfl
  spare := Nat.zero_le _

/-- What the budget depends on. -/
theorem of_eq (h : c.Budgeted cfg) (hc : c'.config = c.config) (hs : c'.streams = c.streams)
    (he : c'.ends = c.ends) (ha : c'.accumulated = c.accumulated) : c'.Budgeted cfg where
  config := hc.trans h.config
  nodup := hs ▸ h.nodup
  windowed id hid := by
    rw [he]
    exact h.windowed id (hs ▸ hid)
  account := by
    have hsame : c'.grown = c.grown := funext fun id => grown_congr (congrFun he id)
    rw [ha, hs, hsame]
    exact h.account
  spare := ha ▸ h.spare

/-- A stream's end changes, and the account by what its window grew. -/
theorem setEnd (h : c.Budgeted cfg) (hs : c.ends k = some s) {accumulated : Nat}
    (hw : s.Windowed → s'.Windowed)
    (ha : k ∈ c.streams → accumulated + s.grown = c.accumulated + s'.grown)
    (hu : k ∉ c.streams → accumulated = c.accumulated)
    (hb : accumulated ≤ cfg.spare) :
    Budgeted cfg { c.setEnd k s' with accumulated := accumulated } where
  config := h.config
  nodup := h.nodup
  windowed id hid := by
    obtain ⟨s1, hs1, hw1⟩ := h.windowed id hid
    by_cases hne : id = k
    · subst hne
      rw [hs] at hs1
      cases hs1
      exact ⟨s', update_self .., hw hw1⟩
    · exact ⟨s1, (update_of_ne hne ..).trans hs1, hw1⟩
  account := by
    have hother : ∀ id, id ≠ k →
        ({ c.setEnd k s' with accumulated := accumulated } : Active).grown id = c.grown id :=
      fun id hne => grown_congr (update_of_ne hne ..)
    have hself : ({ c.setEnd k s' with accumulated := accumulated } : Active).grown k = s'.grown :=
      grown_of_some (update_self ..)
    change accumulated = (c.streams.map _).sum
    by_cases hk : k ∈ c.streams
    · have hsum := sum_map_change h.nodup hk (fun b _ hb => hother b hb)
      rw [hself, grown_of_some hs, ← h.account] at hsum
      have hacc := ha hk
      omega
    · rw [hu hk, h.account]
      refine congrArg List.sum (List.map_congr_left fun id hid => (hother id ?_).symm)
      rintro rfl
      exact hk hid
  spare := hb

/-- A stream's end changes within its window. -/
theorem draws (h : c.Budgeted cfg) (hs : c.ends k = some s) (hd : s.Draws s') :
    (c.setEnd k s').Budgeted cfg := by
  have hgrown : s'.grown = s.grown := by rw [Stream.grown, Stream.grown, hd.max]
  refine setEnd h hs (fun hw => hw.draws hd) (fun _ => ?_) (fun _ => rfl) h.spare
  rw [hgrown]

/-- A stream joins, with the default window. -/
theorem addStream (h : c.Budgeted cfg) (hl : k ∉ c.streams) (hw : s'.Windowed)
    (hg : s'.grown = 0) : (c.addStream k s').Budgeted cfg where
  config := h.config
  nodup := List.nodup_cons.mpr ⟨hl, h.nodup⟩
  windowed id hid := by
    by_cases hne : id = k
    · subst hne
      exact ⟨s', update_self .., hw⟩
    · obtain ⟨s1, hs1, hw1⟩ := h.windowed id ((List.mem_cons.mp hid).resolve_left hne)
      exact ⟨s1, (update_of_ne hne ..).trans hs1, hw1⟩
  account := by
    have hself : (c.addStream k s').grown k = 0 := by
      rw [grown_of_some (c := c.addStream k s') (update_self ..), hg]
    have hother : c.streams.map (c.addStream k s').grown = c.streams.map c.grown := by
      refine List.map_congr_left fun id hid => grown_congr (update_of_ne ?_ ..)
      rintro rfl
      exact hl hid
    change c.accumulated = ((k :: c.streams).map _).sum
    rw [List.map_cons, List.sum_cons, hself, hother, Nat.zero_add]
    exact h.account
  spare := h.spare

/-- A stream goes, and gives back what its window grew by. -/
theorem onDropStream (h : c.Budgeted cfg) (k : StreamId) : (c.onDropStream k).Budgeted cfg := by
  rw [Active.onDropStream]
  cases hs : c.ends k with
  | none => exact h
  | some s =>
    dsimp only
    split
    case isFalse => exact h
    case isTrue hk =>
      have hapart := sum_map_apart h.nodup hk c.grown
      rw [grown_of_some hs, ← h.account] at hapart
      have hback : c.accumulated - s.grown = ((c.streams.filter (· != k)).map c.grown).sum := by
        omega
      have hleft : ∀ id ∈ c.streams.filter (· != k), id ∈ c.streams ∧ id ≠ k := fun id hid =>
        ⟨(List.mem_filter.mp hid).1, by simpa using (List.mem_filter.mp hid).2⟩
      refine ⟨h.config, h.nodup.filter _, fun id hid => ?_, ?_, ?_⟩
      · obtain ⟨hid, hne⟩ := hleft id hid
        obtain ⟨s1, hs1, hw1⟩ := h.windowed id hid
        exact ⟨s1, (update_of_ne hne ..).trans hs1, hw1⟩
      · refine hback.trans (congrArg List.sum (List.map_congr_left fun id hid => ?_))
        exact (grown_congr (update_of_ne (hleft id hid).2 ..)).symm
      · exact Nat.le_trans (Nat.sub_le _ _) h.spare

/-- **What an end does** keeps the budget. -/
theorem act (h : c.Budgeted cfg) (hok : c.Ok) {op : Op} (hact : c.act op = some c')
    (hc : c'.closed = false) : c'.Budgeted cfg := by
  cases op with
  | newOutbound =>
    rcases pollNewOutbound_cases hact with rfl | ⟨-, rfl⟩
    · cases hc
    · refine of_eq (addStream (k := c.nextId) h ?_ (Stream.new_windowed ..)
        (Stream.grown_new ..)) rfl rfl rfl rfl
      intro hl
      have hknown : (c.ends c.nextId).isSome = true :=
        (hok.views c.nextId).known (decide_eq_true hl)
      exact Nat.lt_irrefl _ (hok.fresh c.nextId hok.parity hknown)
  | write k buf =>
    obtain ⟨s, s', f, hs, -, hw, rfl⟩ := write_cases hact
    have hd : s.Draws s' := by
      obtain ⟨-, body, -, -, rfl⟩ := Stream.pollWrite_spec hw
      exact .of_eq rfl rfl rfl
    exact of_eq (draws h hs hd) rfl rfl rfl rfl
  | read k cap fast =>
    obtain ⟨s, hs, hheld, ⟨s', hw, rfl⟩ | ⟨s', f, acc, hw, rfl⟩⟩ := read_cases hact
    · rw [Stream.sendWindowUpdate_none hw]
      exact draws h hs (s.copyOut_draws cap)
    · have hd := s.copyOut_draws cap
      -- a handle that is held keeps its stream in the table
      have hk : k ∈ c.streams := by
        by_contra hk
        rw [((hok.views k).unlisted s hs (decide_eq_false hk)).1] at hheld
        cases hheld
      obtain ⟨s1, hs1, hw1⟩ := h.windowed k hk
      cases hs.symm.trans hs1
      have hspare : c.accumulated ≤ c.config.spare := h.config ▸ h.spare
      obtain ⟨hw', hacc, hle⟩ := Stream.sendWindowUpdate_windowed (hw1.draws hd) hspare hw
      rw [h.config] at hle
      exact of_eq (setEnd h hs (fun _ => hw') (fun _ => hacc) (fun hn => absurd hk hn) hle)
        rfl rfl rfl rfl
  | shutdown k =>
    obtain ⟨s, s', f, hs, -, hw, rfl⟩ := shutdown_cases hact
    have hd : s.Draws s' := by
      obtain ⟨-, -, rfl⟩ := Stream.pollShutdown_spec hw
      exact .of_eq rfl rfl rfl
    exact of_eq (draws h hs hd) rfl rfl rfl rfl
  | endRead k =>
    obtain ⟨s, hs, -, -, rfl⟩ := endRead_cases hact
    exact draws h hs (.of_eq rfl rfl rfl)
  | dropHandle k =>
    obtain ⟨s, hs, -, rfl⟩ := dropHandle_cases hact
    exact draws h hs (.of_eq rfl rfl rfl)
  | queue =>
    obtain ⟨i, k, answer, -, -, ha, rfl⟩ := queueReceiverFrames_cases hact
    obtain ⟨s, hs, ⟨cmd, tail, -, rfl⟩ | ⟨-, -, rfl⟩⟩ := pollNext_cases ha
    · have hpop : (c.popCommand k).Budgeted cfg := by
        rw [popCommand, hs]
        exact draws h hs (.of_eq rfl rfl rfl)
      cases cmd with
      | sendFrame f =>
        rw [takeCommand]
        split
        · exact of_eq hpop rfl rfl rfl rfl
        · exact of_eq hpop rfl rfl rfl rfl
      | closeStream ack => exact of_eq hpop rfl rfl rfl rfl
    · exact of_eq (onDropStream h k) rfl rfl rfl rfl
  | start =>
    rw [Active.act, startFrame] at hact
    split at hact
    case h_1 => cases hact
    case h_2 =>
      obtain ⟨⟨f, c1⟩, hn, rfl⟩ := Option.map_eq_some_iff.mp hact
      rw [nextQueuedFrame] at hn
      split at hn <;> cases hn <;> exact of_eq h rfl rfl rfl rfl
  | flush =>
    obtain ⟨f, hf, rfl⟩ := Option.map_eq_some_iff.mp hact
    exact of_eq h rfl rfl rfl rfl

/-- The peer's acknowledgement. -/
theorem acknowledge (h : c.Budgeted cfg) (f : Frame) : (c.acknowledge f).Budgeted cfg := by
  rw [Active.acknowledge]
  cases hs : c.ends f.streamId with
  | none => exact h
  | some s =>
    dsimp only
    split
    · exact draws h hs (.of_eq rfl rfl rfl)
    · exact h

theorem onReset (h : c.Budgeted cfg) (k : StreamId) : (c.onReset k).Budgeted cfg := by
  rw [Active.onReset]
  cases hs : c.ends k with
  | none => exact h
  | some s =>
    dsimp only
    split
    · exact draws h hs (.of_eq rfl rfl rfl)
    · exact h

theorem terminate (h : c.Budgeted cfg) : (perform (c, .terminate)).Budgeted cfg :=
  of_eq h rfl rfl rfl rfl

theorem onData (h : c.Budgeted cfg) (f : Frame) : (perform (c.onData f)).Budgeted cfg := by
  rw [Active.onData]
  split
  · exact onReset h f.streamId
  split
  · split
    · exact terminate h
    split
    · exact terminate h
    next hl =>
    split
    · exact of_eq h rfl rfl rfl rfl
    split
    · exact terminate h
    next hbody =>
    have hfin := (Stream.newInbound defaultCredit).finish_draws f.fin
    have hroom : f.body.length ≤
        ((Stream.newInbound defaultCredit).finish f.fin).receiveWindow := by
      cases f.fin <;> exact Nat.not_lt.mp hbody
    have hd := hfin.trans (Stream.absorb_draws hroom)
    refine addStream h hl ((Stream.new_windowed .ack defaultCredit).draws hd) ?_
    rw [Stream.grown, hd.max]
    exact Stream.grown_new .ack defaultCredit
  · cases hs : c.ends f.streamId with
    | none => exact h
    | some s =>
      dsimp only
      split
      case isFalse => exact h
      case isTrue =>
        split
        · exact terminate h
        next hbody =>
        have hroom : f.body.length ≤ (s.finish f.fin).receiveWindow := by
          cases f.fin <;> exact Nat.not_lt.mp hbody
        exact draws h hs ((s.finish_draws f.fin).trans (Stream.absorb_draws hroom))

theorem onWindowUpdate (h : c.Budgeted cfg) (f : Frame) :
    (perform (c.onWindowUpdate f)).Budgeted cfg := by
  rw [Active.onWindowUpdate]
  split
  · exact onReset h f.streamId
  split
  · split
    · exact terminate h
    split
    · exact terminate h
    next hl =>
    split
    · exact terminate h
    split
    · exact terminate h
    have hd := (Stream.newInbound (f.credit + defaultCredit)).finish_draws f.fin
    refine addStream h hl ((Stream.new_windowed .ack _).draws hd) ?_
    rw [Stream.grown, hd.max]
    exact Stream.grown_new .ack _
  · cases hs : c.ends f.streamId with
    | none => exact h
    | some s =>
      dsimp only
      split
      case isFalse => exact h
      case isTrue =>
        split
        · exact terminate h
        · have hgrant : s.Draws { s with sendWindow := s.sendWindow + f.credit } :=
            .of_eq rfl rfl rfl
          exact draws h hs (hgrant.trans (Stream.finish_draws _ f.fin))

/-- **Whatever frame arrives** keeps the budget, if the connection lives. -/
theorem onFrame (h : c.Budgeted cfg) {f : Frame} (hc : (c.onFrame f).closed = false) :
    (c.onFrame f).Budgeted cfg := by
  rw [Active.onFrame] at hc ⊢
  cases htag : f.tag with
  | data => exact onData (acknowledge h f) f
  | windowUpdate => exact onWindowUpdate (acknowledge h f) f
  | goAway =>
    rw [htag] at hc
    cases hc

/-- An event that leaves the connection alive keeps its budget. -/
theorem onEvent {e : Event} (hb : c.closed = false → c.Backed)
    (h : c.closed = false → c.Budgeted cfg) (he : c.onEvent e = some c')
    (hc : c'.closed = false) : c'.Budgeted cfg := by
  cases e with
  | act op =>
    rw [Active.onEvent] at he
    split at he
    · cases he
    next hopen =>
    have hopen : c.closed = false := Bool.eq_false_iff.mpr hopen
    exact act (h hopen) (hb hopen).ok he hc
  | frame f =>
    rw [Active.onEvent] at he
    split at he
    · cases he
    next hopen =>
    obtain ⟨hopen, -⟩ : c.closed = false ∧ c.pendingReadFrame = none := by simpa using hopen
    cases he
    exact onFrame (h hopen) hc
  | hangup =>
    rw [Active.onEvent] at he
    split at he
    · cases he
    · cases he
      cases hc

end Budgeted

/-! ## 4. What a connection holds -/

/-- The bytes a stream has buffered, with those its window still lets the peer send. -/
def claim (c : Active) (id : StreamId) : Nat :=
  ((c.ends id).map fun s => s.receiveWindow + s.buffer.length).getD 0

/-- The windows of the streams are their defaults and the account. -/
theorem Budgeted.claims_le (h : c.Budgeted cfg) :
    (c.streams.map c.claim).sum ≤ c.streams.length * defaultCredit + c.accumulated := by
  rw [h.account]
  have hone : ∀ id ∈ c.streams, c.claim id ≤ defaultCredit + c.grown id := by
    intro id hid
    obtain ⟨s, hs, hw⟩ := h.windowed id hid
    have hclaim : c.claim id = s.receiveWindow + s.buffer.length := by
      rw [claim, hs, Option.map_some, Option.getD_some]
    rw [hclaim, grown_of_some hs, Stream.grown, Nat.add_sub_cancel' hw.floor]
    exact hw.room
  refine Nat.le_trans (List.sum_le_sum hone) (Nat.le_of_eq ?_)
  rw [List.sum_map_add, List.map_const', List.sum_replicate_nat]

end Active

/-- **The receive budget.**  Whatever the peer sends, a connection that lives accounts for exactly
what its streams' windows grew by; each window meets what `assert_invariants` asserts; and what
all the streams have buffered, with what they still let the peer send, is within
`max_connection_receive_window`. -/
theorem receive_budget {m : Mode} {cfg : Config} {c : Active} (h : (endpoint m cfg).Reach c)
    (hc : c.closed = false) :
    c.accumulated = (c.streams.map c.grown).sum ∧
      (∀ id ∈ c.streams, ∃ s, c.ends id = some s ∧ s.Windowed ∧ s.grown ≤ c.accumulated ∧
        s.grown ≤ cfg.spare) ∧
      (c.streams.map c.claim).sum ≤ cfg.maxConnectionReceiveWindow.getD usizeMax := by
  have hb : c.Budgeted cfg := by
    refine Lts.Reach.invariant (P := fun c =>
      (c.closed = false → c.Backed) ∧ (c.closed = false → c.Budgeted cfg)) ?_ ?_ h |>.2 hc
    · rintro c rfl
      exact ⟨fun _ => .new m cfg, fun _ => .new m cfg⟩
    · rintro c e c' ⟨hbacked, hbudget⟩ he
      exact ⟨Active.Backed.onEvent hbacked he, Active.Budgeted.onEvent hbacked hbudget he⟩
  refine ⟨hb.account, fun id hid => ?_, ?_⟩
  · obtain ⟨s, hs, hw⟩ := hb.windowed id hid
    have hpart : s.grown ≤ c.accumulated := by
      rw [hb.account, sum_map_apart hb.nodup hid, Active.grown_of_some hs]
      exact Nat.le_add_right _ _
    exact ⟨s, hs, hw, hpart, Nat.le_trans hpart hb.spare⟩
  · have hcap : c.streams.length ≤ cfg.maxNumStreams := hb.config ▸ (endpoint_backed h hc).metered.cap
    have hdefault := Nat.mul_le_mul_right defaultCredit hcap
    have hspare := hb.spare
    have hcovers := cfg.covers
    rw [Config.spare] at hspare
    have hclaims := hb.claims_le
    omega

/-- Three bytes from a peer, buffered. -/
theorem receive_budget_three :
    ∃ c : Active, (endpoint .client tunnelConfig).Reach c ∧ c.closed = false ∧
      c.streams = [1] ∧ c.claim 1 = defaultCredit ∧
      (c.streams.map c.claim).sum ≤ 32 * 1024 * 1024 := by
  have hrun : (Lts.runWith Active.onEvent (fun _ _ => true) (.new .client tunnelConfig)
      [.act .newOutbound, .frame (.data 1 [7, 8, 9])]).any
      (fun c => !c.closed && c.streams == [1] && c.claim 1 == defaultCredit) = true := by
    decide +kernel
  obtain ⟨c, hreach, hc⟩ := Lts.Reach.exists_run (T := endpoint .client tunnelConfig)
    (fun _ _ _ hs => hs) rfl hrun
  obtain ⟨⟨hopen, hstreams⟩, hclaim⟩ :
      (c.closed = false ∧ c.streams = [1]) ∧ c.claim 1 = defaultCredit := by
    simpa using hc
  exact ⟨c, hreach, hopen, hstreams, hclaim, (receive_budget hreach hopen).2.2⟩

end Molehill.Mux
