/-
# What a connection keeps count of

One connection on its own: its users and its task do what they like, in any order, and its peer
sends whatever frames it likes (`endpoint`).  Whatever happens, as long as the connection lives its
byte count is that of its queues, which hold no more than the bound and one frame, its stream table
is within its cap, and no frame is lost between a stream's channel and the socket
(`backlog_accounted`).

The same holds of both ends of a pair of connections (`mux_backed`), whether or not the other end
is still alive.
-/
import Molehill.Mux.Runs

namespace Molehill.Mux

open Function Lib

/-! ## 1. The byte count and the stream table -/

/-- The connection's own accounts. -/
structure Active.Metered (c : Active) : Prop where
  bytes : c.pendingBytes = (payload c.pendingFrames).length
  cap : c.streams.length ≤ c.config.maxNumStreams

namespace Active

variable {c c' : Active} {id : StreamId}

theorem Metered.of_eq (h : c.Metered) (hb : c'.pendingBytes = c.pendingBytes)
    (hf : c'.pendingFrames = c.pendingFrames) (hs : c'.streams = c.streams)
    (hc : c'.config = c.config) : c'.Metered where
  bytes := by rw [hb, hf, h.bytes]
  cap := by rw [hs, hc]; exact h.cap

theorem Metered.takeCommand {i cursor : Nat} {k : StreamId} {answer : Option StreamCommand}
    (h : c.Metered) (ha : c.pollNext k = some answer)
    (hk : ∀ s, c.ends k = some s → ∀ f ∈ s.queued k, f.isBookkeeping = true → f.body = []) :
    ((c.takeCommand i k answer).wrapCursor cursor).Metered := by
  obtain ⟨s, hs, ⟨cmd, tail, hc, rfl⟩ | ⟨hc, hh, rfl⟩⟩ := pollNext_cases ha
  · have hpop : c.popCommand k = c.setEnd k s.popped := by rw [popCommand, hs]
    have hmem : cmd.frame k ∈ s.queued k := by
      rw [Stream.queued, hc]
      exact List.mem_cons_self
    cases cmd with
    | sendFrame f =>
      rw [Active.takeCommand, hpop]
      split
      case isTrue hb =>
        have hbody : f.body = [] := hk s hs f hmem hb
        exact ⟨by simpa [hbody, wrapCursor, setEnd] using h.bytes, h.cap⟩
      case isFalse =>
        refine ⟨?_, h.cap⟩
        simp [wrapCursor, setEnd, h.bytes]
    | closeStream ack =>
      rw [Active.takeCommand, hpop]
      exact h.of_eq rfl rfl rfl rfl
  · rw [Active.takeCommand, onDropStream, hs]
    dsimp only
    split
    · exact ⟨h.bytes, Nat.le_trans (List.length_filter_le _ _) h.cap⟩
    · exact h.of_eq rfl rfl rfl rfl

/-- **The accounts survive what an end does.** -/
theorem Metered.act {op : Op} (h : c.Metered) (hact : c.act op = some c')
    (hc : c'.closed = false)
    (hk : ∀ k s, c.ends k = some s → ∀ f ∈ s.queued k, f.isBookkeeping = true → f.body = []) :
    c'.Metered := by
  cases op with
  | newOutbound =>
    rcases pollNewOutbound_cases hact with rfl | ⟨hlen, rfl⟩
    · cases hc
    · exact ⟨h.bytes, hlen⟩
  | write k buf =>
    obtain ⟨s, s', f, -, -, -, rfl⟩ := write_cases hact
    exact h.of_eq rfl rfl rfl rfl
  | read k cap fast =>
    obtain ⟨s, -, -, ⟨s', -, rfl⟩ | ⟨s', f, acc, -, rfl⟩⟩ := read_cases hact
    · exact h.of_eq rfl rfl rfl rfl
    · exact h.of_eq rfl rfl rfl rfl
  | endRead k =>
    obtain ⟨s, -, -, -, rfl⟩ := endRead_cases hact
    exact h.of_eq rfl rfl rfl rfl
  | shutdown k =>
    obtain ⟨s, s', f, -, -, -, rfl⟩ := shutdown_cases hact
    exact h.of_eq rfl rfl rfl rfl
  | dropHandle k =>
    obtain ⟨s, -, -, rfl⟩ := dropHandle_cases hact
    exact h.of_eq rfl rfl rfl rfl
  | queue =>
    obtain ⟨i, k, answer, -, -, ha, rfl⟩ := queueReceiverFrames_cases hact
    exact h.takeCommand ha (hk k)
  | start =>
    rw [Active.act, startFrame] at hact
    split at hact
    case h_1 => cases hact
    case h_2 =>
      obtain ⟨⟨f, c1⟩, hn, rfl⟩ := Option.map_eq_some_iff.mp hact
      rw [nextQueuedFrame] at hn
      split at hn
      case h_3 rest _ _ hq =>
        cases hn
        refine ⟨?_, h.cap⟩
        have hb := h.bytes
        rw [hq, payload_cons, List.length_append] at hb
        dsimp only
        omega
      all_goals cases hn
      all_goals exact h.of_eq rfl rfl rfl rfl
  | flush =>
    obtain ⟨f, hf, rfl⟩ := Option.map_eq_some_iff.mp hact
    exact h.of_eq rfl rfl rfl rfl

end Active

/-! ## 2. The frames of a stream -/

/-- A frame as a stream issues it: bookkeeping has no body, and no body is longer than the split
size. -/
structure Measured (cfg : Config) (f : Frame) : Prop where
  bodyless : f.isBookkeeping = true → f.body = []
  split : f.body.length ≤ cfg.splitSendSize

theorem Measured.of_bodyless {cfg : Config} {f : Frame} (h : f.body = []) : Measured cfg f where
  bodyless _ := h
  split := by rw [h]; exact Nat.zero_le _

theorem Stream.pollWrite_split {cfg : Config} {id : StreamId} {s s' : Stream} {f : Frame}
    {buf : List UInt8} (h : s.pollWrite cfg id buf = some (s', f)) :
    f.body.length ≤ cfg.splitSendSize := by
  rw [Stream.pollWrite] at h
  split at h
  · cases h
  split at h
  · cases h
  split at h
  · cases h
  simp only [addFlag_eq, Option.some.injEq, Prod.mk.injEq] at h
  obtain ⟨-, rfl⟩ := h
  simp only [Frame.data, List.length_take]
  omega

theorem Spoke.measured {cfg : Config} {id : StreamId} {s s' : Stream} {f : Frame}
    (h : Spoke cfg id s s' f) : Measured cfg f := by
  cases h with
  | wrote h =>
    have hsplit := Stream.pollWrite_split h
    obtain ⟨-, body, -, hf, -⟩ := Stream.pollWrite_spec h
    refine ⟨fun hb => ?_, hsplit⟩
    rw [hf] at hb
    cases hb
  | shut h =>
    obtain ⟨-, hf, -⟩ := Stream.pollShutdown_spec h
    exact .of_bodyless (by rw [hf]; rfl)
  | granted h =>
    obtain ⟨-, -, credit, newMax, -, -, hf, -⟩ := Stream.sendWindowUpdate_spec h
    exact .of_bodyless (by rw [hf])

section Move

variable {cfg : Config} {id : StreamId} {mine : Bool} {behind : List Frame → Prop} {v v' : View}

theorem Stream.mem_popped {s : Stream} {f : Frame} (h : f ∈ s.popped.queued id) :
    f ∈ s.queued id := by
  obtain ⟨cmd, hcmd, rfl⟩ := List.mem_map.mp h
  exact List.mem_map.mpr ⟨cmd, List.mem_of_mem_tail hcmd, rfl⟩

/-- A move puts nothing into a channel but what the stream issues. -/
theorem Move.measured (h : Move cfg id mine behind v v')
    (hv : ∀ s, v.stream = some s → ∀ f ∈ s.queued id, Measured cfg f) :
    ∀ s, v'.stream = some s → ∀ f ∈ s.queued id, Measured cfg f := by
  intro s' hs' f hf
  cases h with
  | same => exact hv s' hs' f hf
  | opened => cases hs'; cases hf
  | spoke hs hh hsp =>
    cases hs'
    rw [hsp.queued.1, List.mem_append, List.mem_singleton] at hf
    rcases hf with hf | rfl
    · exact hv _ hs f hf
    · exact hsp.measured
  | heard cap hs => cases hs'; exact hv _ hs f hf
  | looked hs => cases hs'; exact hv _ hs f hf
  | released hs => cases hs'; exact hv _ hs f hf
  | queued hs => cases hs'; exact hv _ hs f (Stream.mem_popped hf)
  | overtook hs => cases hs'; exact hv _ hs f (Stream.mem_popped hf)
  | removed hs => cases hs'; exact hv _ hs f hf
  | started => exact hv s' hs' f hf

/-- **A move loses no frame** of the stream, and makes none twice. -/
theorem Move.kept (h : Move cfg id mine behind v v') (hv : (v.left ++ v.rest).Perm v.issued) :
    (v'.left ++ v'.rest).Perm v'.issued := by
  cases h with
  | same => exact hv
  | opened => exact hv
  | heard => exact hv
  | looked => exact hv
  | released => exact hv
  | queued => exact hv
  | spoke =>
    rw [← List.append_assoc]
    exact hv.append_right _
  | overtook hs hrest =>
    refine List.Perm.trans (List.Perm.append_left _ ?_) hv
    rw [hrest]
    exact List.Perm.append_left _ List.perm_middle.symm
  | @removed s a p hs hh hc hl hrest =>
    have hdrop : (v.left ++ (a ++ ((Active.dropFrame id s.state).toList ++ p))).Perm
        (v.left ++ (a ++ p) ++ (Active.dropFrame id s.state).toList) := by
      rw [List.append_assoc v.left, List.append_assoc a]
      exact List.Perm.append_left _ (List.Perm.append_left _ List.perm_append_comm)
    rw [hrest] at hv
    exact hdrop.trans (hv.append_right _)
  | started hrest =>
    rw [hrest] at hv
    rw [List.append_assoc]
    exact hv

end Move

/-! ## 3. The two queues -/

/-- The control queue has no bytes; the payload queue has frames within the split size, and without
the last of them it is below the byte bound. -/
structure Active.Queues (c : Active) : Prop where
  control : ∀ f ∈ c.controlFrames, f.body = []
  pending : ∀ f ∈ c.pendingFrames, f.body.length ≤ c.config.splitSendSize
  below : ∀ rest f, c.pendingFrames = rest ++ [f] → (payload rest).length < c.maxPendingBytes

namespace Active

variable {c c' : Active} {k : StreamId}

theorem Queues.of_eq (h : c.Queues) (hct : c'.controlFrames = c.controlFrames)
    (hpe : c'.pendingFrames = c.pendingFrames) (hcf : c'.config = c.config) : c'.Queues where
  control := by rw [hct]; exact h.control
  pending := by rw [hpe, hcf]; exact h.pending
  below := by rw [hpe, maxPendingBytes, hcf]; exact h.below

/-- Frames without a body join the control queue. -/
theorem Queues.control_append (h : c.Queues) {fs : List Frame} (hfs : ∀ f ∈ fs, f.body = [])
    (hct : c'.controlFrames = c.controlFrames ++ fs) (hpe : c'.pendingFrames = c.pendingFrames)
    (hcf : c'.config = c.config) : c'.Queues where
  control f hf := by
    rw [hct] at hf
    rcases List.mem_append.mp hf with hold | hnew
    · exact h.control f hold
    · exact hfs f hnew
  pending := by rw [hpe, hcf]; exact h.pending
  below := by rw [hpe, maxPendingBytes, hcf]; exact h.below

/-- A frame joins the payload queue, while it is below the bound. -/
theorem Queues.pending_append (h : c.Queues) {f : Frame}
    (hf : f.body.length ≤ c.config.splitSendSize)
    (hb : (payload c.pendingFrames).length < c.maxPendingBytes)
    (hct : c'.controlFrames = c.controlFrames) (hpe : c'.pendingFrames = c.pendingFrames ++ [f])
    (hcf : c'.config = c.config) : c'.Queues where
  control := by rw [hct]; exact h.control
  pending g hg := by
    rw [hcf]
    rw [hpe] at hg
    rcases List.mem_append.mp hg with hold | hnew
    · exact h.pending g hold
    · rw [List.mem_singleton.mp hnew]
      exact hf
  below rest g hrest := by
    rw [hpe] at hrest
    rw [maxPendingBytes, hcf, ← (List.append_inj' hrest rfl).1]
    exact hb

/-- Past the byte bound no receiver is polled. -/
theorem queueReceiverFrames_below (h : c.queueReceiverFrames = some c') :
    c.pendingBytes < c.maxPendingBytes := by
  by_contra hb
  rw [queueReceiverFrames, if_neg hb] at h
  cases h

theorem dropFrame_body {st : State} {f : Frame} (h : dropFrame k st = some f) : f.body = [] := by
  cases st <;> cases h <;> rfl

theorem Queues.takeCommand (h : c.Queues) {i cursor : Nat} {answer : Option StreamCommand}
    (hb : (payload c.pendingFrames).length < c.maxPendingBytes)
    (ha : c.pollNext k = some answer)
    (hk : ∀ s, c.ends k = some s → ∀ f ∈ s.queued k, Measured c.config f) :
    ((c.takeCommand i k answer).wrapCursor cursor).Queues := by
  obtain ⟨s, hs, ⟨cmd, tail, hc, rfl⟩ | ⟨hc, hh, rfl⟩⟩ := pollNext_cases ha
  · have hpop : c.popCommand k = c.setEnd k s.popped := by rw [popCommand, hs]
    have hmem : cmd.frame k ∈ s.queued k := by
      rw [Stream.queued, hc]
      exact List.mem_cons_self
    have hmeasured := hk s hs _ hmem
    cases cmd with
    | sendFrame f =>
      rw [Active.takeCommand, hpop]
      split
      case isTrue hbook =>
        refine h.control_append (fun g hg => ?_) rfl rfl rfl
        rw [List.mem_singleton.mp hg]
        exact hmeasured.bodyless hbook
      case isFalse => exact h.pending_append hmeasured.split hb rfl rfl rfl
    | closeStream ack =>
      rw [Active.takeCommand, hpop]
      refine h.control_append (fun g hg => ?_) rfl rfl rfl
      rw [List.mem_singleton.mp hg]
      rfl
  · rw [Active.takeCommand, onDropStream, hs]
    dsimp only
    split
    · refine h.control_append (fun g hg => ?_) rfl rfl rfl
      exact dropFrame_body (Option.mem_toList.mp hg)
    · exact h.of_eq rfl rfl rfl

/-- A frame leaves for the socket. -/
theorem Queues.startFrame (h : c.Queues) (hact : c.startFrame = some c') : c'.Queues := by
  rw [Active.startFrame] at hact
  split at hact
  case h_1 => cases hact
  case h_2 =>
    obtain ⟨⟨f, c1⟩, hn, rfl⟩ := Option.map_eq_some_iff.mp hact
    rw [nextQueuedFrame] at hn
    split at hn
    case h_1 =>
      cases hn
      exact h.of_eq rfl rfl rfl
    case h_2 rest _ hq =>
      cases hn
      refine ⟨fun g hg => ?_, h.pending, h.below⟩
      refine h.control g ?_
      rw [hq]
      exact List.mem_cons_of_mem _ hg
    case h_3 rest _ _ hq =>
      cases hn
      refine ⟨h.control, fun g hg => ?_, fun init g hinit => ?_⟩
      · refine h.pending g ?_
        rw [hq]
        exact List.mem_cons_of_mem _ hg
      · have hbelow := h.below (f :: init) g (by rw [hq]; exact congrArg (f :: ·) hinit)
        rw [payload_cons, List.length_append] at hbelow
        exact Nat.lt_of_le_of_lt (Nat.le_add_left _ _) hbelow
    case h_4 => cases hn

/-- **The queues stay within their bound** in what an end does. -/
theorem Queues.act (h : c.Queues) (hmet : c.Metered) {op : Op} (hact : c.act op = some c')
    (hk : ∀ k s, c.ends k = some s → ∀ f ∈ s.queued k, Measured c.config f) : c'.Queues := by
  cases op with
  | newOutbound =>
    rcases pollNewOutbound_cases hact with rfl | ⟨-, rfl⟩
    · exact h.of_eq rfl rfl rfl
    · exact h.of_eq rfl rfl rfl
  | write k buf =>
    obtain ⟨s, s', f, -, -, -, rfl⟩ := write_cases hact
    exact h.of_eq rfl rfl rfl
  | read k cap fast =>
    obtain ⟨s, -, -, ⟨s', -, rfl⟩ | ⟨s', f, acc, -, rfl⟩⟩ := read_cases hact
    · exact h.of_eq rfl rfl rfl
    · exact h.of_eq rfl rfl rfl
  | endRead k =>
    obtain ⟨s, -, -, -, rfl⟩ := endRead_cases hact
    exact h.of_eq rfl rfl rfl
  | shutdown k =>
    obtain ⟨s, s', f, -, -, -, rfl⟩ := shutdown_cases hact
    exact h.of_eq rfl rfl rfl
  | dropHandle k =>
    obtain ⟨s, -, -, rfl⟩ := dropHandle_cases hact
    exact h.of_eq rfl rfl rfl
  | queue =>
    have hb := queueReceiverFrames_below hact
    obtain ⟨i, k, answer, -, -, ha, rfl⟩ := queueReceiverFrames_cases hact
    rw [hmet.bytes] at hb
    exact h.takeCommand hb ha (hk k)
  | start => exact h.startFrame hact
  | flush =>
    obtain ⟨f, hf, rfl⟩ := Option.map_eq_some_iff.mp hact
    exact h.of_eq rfl rfl rfl

end Active

/-! ## 4. What a connection keeps, whatever arrives -/

/-- The connection's own facts and accounts, and where the frames of its streams are: every frame
issued is past the queues, in them, or in its channel, and no frame is there twice. -/
structure Active.Backed (c : Active) : Prop where
  ok : c.Ok
  metered : c.Metered
  queues : c.Queues
  channels : ∀ k s, c.ends k = some s → ∀ f ∈ s.queued k, Measured c.config f
  kept : ∀ id, ((c.view id).left ++ (c.view id).rest).Perm (c.view id).issued

namespace Active

variable {c c' : Active} {k : StreamId}

theorem Backed.new (m : Mode) (cfg : Config) : (Active.new m cfg).Backed where
  ok := Ok.new m cfg
  metered := ⟨rfl, Nat.zero_le _⟩
  queues := ⟨nofun, nofun, fun rest f h => by cases rest <;> cases h⟩
  channels _ _ h := by cases h
  kept _ := List.Perm.refl _

theorem act_config {op : Op} (h : c.act op = some c') : c'.config = c.config := by
  by_cases hop : op = .newOutbound
  · subst hop
    rcases pollNewOutbound_cases h with rfl | ⟨-, rfl⟩ <;> rfl
  · exact (act_framed h hop).config

/-- **What an end does** keeps its accounts. -/
theorem Backed.act (h : c.Backed) {op : Op} (hact : c.act op = some c')
    (hc : c'.closed = false) : c'.Backed := by
  have hmove : ∀ id, Move c.config id (c.mode.opens id) (fun _ => True) (c.view id) (c'.view id) :=
    fun id => act_move h.ok hact hc id fun _ _ => trivial
  refine ⟨h.ok.act hact hc, h.metered.act hact hc fun k s hs f hf hb => ?_,
    h.queues.act h.metered hact h.channels, fun k s hs => ?_, fun id => (hmove id).kept (h.kept id)⟩
  · exact (h.channels k s hs f hf).bodyless hb
  · rw [act_config hact]
    exact (hmove k).measured (h.channels k) s hs

/-- A listed stream's end changes, its channel apart. -/
theorem Backed.setEnd (h : c.Backed) {s s' : Stream} (hs : c.ends k = some s)
    (hl : k ∈ c.streams) (hq : s'.channel = s.channel) : (c.setEnd k s').Backed := by
  have hqueued : s'.queued k = s.queued k := by
    rw [Stream.queued, hq, Stream.queued]
  have hrest : ((c.setEnd k s').view k).rest = (c.view k).rest := by
    rw [setEnd_view_self, hqueued, ← queuedOf_of_some hs]
    rfl
  refine ⟨⟨fun id => ?_, h.ok.parity, fun id hm hid => ?_, h.ok.polled⟩,
    h.metered.of_eq rfl rfl rfl rfl, h.queues.of_eq rfl rfl rfl, fun id s1 hs1 => ?_, fun id => ?_⟩
  · by_cases hid : id = k
    · subst hid
      refine View.Ok.of_some (update_self ..) ?_ fun hlist => ?_
      · rw [hqueued]
        exact (h.ok.views id).labelled s hs
      · exact absurd hl (of_decide_eq_false hlist)
    · rw [setEnd_view_ne s' hid]
      exact h.ok.views id
  · rw [setEnd_ends, update_isSome hs] at hid
    exact h.ok.fresh id hm hid
  · by_cases hid : id = k
    · subst hid
      rw [setEnd_ends, update_self] at hs1
      cases hs1
      rw [hqueued]
      exact h.channels id s hs
    · rw [setEnd_ends, update_of_ne hid] at hs1
      exact h.channels id s1 hs1
  · by_cases hid : id = k
    · subst hid
      rw [hrest]
      exact h.kept id
    · rw [setEnd_view_ne s' hid]
      exact h.kept id

/-- A stream the peer opens joins the table. -/
theorem Backed.addStream (h : c.Backed) {s' : Stream} (hm : ¬ c.mode.opens k = true)
    (hl : k ∉ c.streams) (hlen : c.streams.length ≠ c.config.maxNumStreams)
    (hq : s'.channel = []) : (c.addStream k s').Backed := by
  have hqueued : s'.queued k = [] := by
    rw [Stream.queued, hq, List.map_nil]
  have hself : (c.addStream k s').ends k = some s' := update_self ..
  have hother : ∀ id, id ≠ k → (c.addStream k s').ends id = c.ends id := fun id hid =>
    update_of_ne hid _ _
  -- a stream that has left the table has nothing in its channel
  have hbefore : c.queuedOf k = [] := by
    cases hs : c.ends k with
    | none => rw [queuedOf, hs]
    | some s =>
      rw [queuedOf_of_some hs, Stream.queued,
        ((h.ok.views k).unlisted s hs (decide_eq_false hl)).2, List.map_nil]
  have hrest : ((c.addStream k s').view k).rest = (c.view k).rest := by
    have hafter : (c.addStream k s').queuedOf k = [] := by
      rw [queuedOf_of_some hself, hqueued]
    rw [view, view, hafter, hbefore]
    rfl
  refine ⟨⟨fun id => ?_, h.ok.parity, fun id hmine hid => ?_, fun id hid => ?_⟩,
    ⟨h.metered.bytes, ?_⟩, h.queues.of_eq rfl rfl rfl, fun id s1 hs1 => ?_, fun id => ?_⟩
  · by_cases hid : id = k
    · subst hid
      refine View.Ok.of_some hself ?_ fun hlist => ?_
      · rw [hqueued]
        exact fun f hf => by cases hf
      · exact absurd List.mem_cons_self (of_decide_eq_false hlist)
    · rw [addStream_view_ne s' hid]
      exact h.ok.views id
  · by_cases heq : id = k
    · subst heq
      exact absurd hmine hm
    · rw [hother id heq] at hid
      exact h.ok.fresh id hmine hid
  · rcases List.mem_cons.mp hid with rfl | hid
    · exact List.mem_append_right _ List.mem_cons_self
    · exact List.mem_append_left _ (h.ok.polled id hid)
  · exact Nat.lt_of_le_of_ne h.metered.cap hlen
  · by_cases hid : id = k
    · subst hid
      rw [hself] at hs1
      cases hs1
      rw [hqueued]
      exact fun f hf => by cases hf
    · rw [hother id hid] at hs1
      exact h.channels id s1 hs1
  · by_cases hid : id = k
    · subst hid
      rw [hrest]
      exact h.kept id
    · rw [addStream_view_ne s' hid]
      exact h.kept id

/-- An answer goes into the slot of the pending replies, which was empty. -/
theorem Backed.reply (h : c.Backed) (hp : c.pendingReadFrame = none) (g : Frame)
    (resets : List StreamId) :
    Backed { c with
      pendingReadFrame := some g
      issued := c.issued ++ [g]
      resets := resets } := by
  refine ⟨⟨fun id => ?_, h.ok.parity, h.ok.fresh, h.ok.polled⟩, h.metered.of_eq rfl rfl rfl rfl,
    h.queues.of_eq rfl rfl rfl, h.channels, fun id => ?_⟩
  · have hv := h.ok.views id
    exact ⟨hv.labelled, hv.known, hv.unlisted⟩
  · have hkept := h.kept id
    simp only [view, backlog, hp, Option.toList_none, Option.toList_some, List.nil_append,
      List.cons_append] at hkept ⊢
    by_cases hg : g.streamId = id
    · rw [List.filter_cons_of_pos (ofStream_iff.mpr hg), filter_snoc_self hg, List.cons_append]
      refine List.Perm.trans List.perm_middle (List.Perm.trans ?_ List.perm_append_comm)
      exact List.Perm.cons g hkept
    · have hneg : ¬ ofStream id g = true := by simpa using hg
      rw [List.filter_cons_of_neg hneg, filter_snoc_ne hg]
      exact hkept

theorem Backed.terminate (h : c.Backed) (hp : c.pendingReadFrame = none) :
    (perform (c, .terminate)).Backed := h.reply hp .protocolError c.resets

theorem Backed.acknowledge (h : c.Backed) (f : Frame) : (c.acknowledge f).Backed := by
  by_cases hl : f.streamId ∈ c.streams
  · have hknown : (c.ends f.streamId).isSome = true :=
      (h.ok.views f.streamId).known (decide_eq_true hl)
    obtain ⟨s, hs⟩ := Option.isSome_iff_exists.mp hknown
    rw [acknowledge_listed hs hl]
    exact h.setEnd hs hl rfl
  · rw [acknowledge_unlisted hl]
    exact h

theorem acknowledge_pendingReadFrame (f : Frame) :
    (c.acknowledge f).pendingReadFrame = c.pendingReadFrame := by
  rw [acknowledge]
  split
  · split <;> rfl
  · rfl

theorem Backed.onReset (h : c.Backed) (k : StreamId) : (c.onReset k).Backed := by
  rw [Active.onReset]
  cases hs : c.ends k with
  | none => exact h
  | some s =>
    dsimp only
    split
    case isTrue hl => exact h.setEnd hs hl rfl
    case isFalse => exact h

theorem Backed.onData (h : c.Backed) (hp : c.pendingReadFrame = none) (f : Frame) :
    (perform (c.onData f)).Backed := by
  rw [Active.onData]
  split
  · exact h.onReset f.streamId
  split
  · split
    · exact h.terminate hp
    next hm =>
    split
    · exact h.terminate hp
    next hl =>
    split
    · exact h.reply hp (.reset f.streamId) (f.streamId :: c.resets)
    next hlen =>
    split
    · exact h.terminate hp
    · refine h.addStream hm hl hlen ?_
      cases f.fin <;> rfl
  · cases hs : c.ends f.streamId with
    | none => exact h
    | some s =>
      dsimp only
      split
      case isFalse => exact h
      case isTrue hl =>
        split
        · exact h.terminate hp
        · refine h.setEnd hs hl ?_
          cases f.fin <;> rfl

theorem Backed.onWindowUpdate (h : c.Backed) (hp : c.pendingReadFrame = none) (f : Frame) :
    (perform (c.onWindowUpdate f)).Backed := by
  rw [Active.onWindowUpdate]
  split
  · exact h.onReset f.streamId
  split
  · split
    · exact h.terminate hp
    next hm =>
    split
    · exact h.terminate hp
    next hl =>
    split
    · exact h.terminate hp
    next hlen =>
    split
    · exact h.terminate hp
    · refine h.addStream hm hl hlen ?_
      cases f.fin <;> rfl
  · cases hs : c.ends f.streamId with
    | none => exact h
    | some s =>
      dsimp only
      split
      case isFalse => exact h
      case isTrue hl =>
        split
        · exact h.terminate hp
        · refine h.setEnd hs hl ?_
          cases f.fin <;> rfl

/-- **Whatever frame arrives** keeps the accounts, if the connection lives. -/
theorem Backed.onFrame (h : c.Backed) (hp : c.pendingReadFrame = none) {f : Frame}
    (hc : (c.onFrame f).closed = false) : (c.onFrame f).Backed := by
  have hp' : (c.acknowledge f).pendingReadFrame = none := by
    rw [acknowledge_pendingReadFrame, hp]
  rw [Active.onFrame] at hc ⊢
  cases htag : f.tag with
  | data => exact (h.acknowledge f).onData hp' f
  | windowUpdate => exact (h.acknowledge f).onWindowUpdate hp' f
  | goAway =>
    rw [htag] at hc
    cases hc

/-- The peer has read a frame off the socket. -/
theorem Backed.popped (h : c.Backed) (t : List Frame) : Backed { c with wire := t } where
  ok := h.ok.popped t
  metered := h.metered.of_eq rfl rfl rfl rfl
  queues := h.queues.of_eq rfl rfl rfl
  channels := h.channels
  kept := h.kept

end Active

/-! ## 5. One connection, and any peer -/

/-- What happens to a connection: an operation of its own, a frame from the peer, the end of the
socket. -/
inductive Event
  | act (op : Op)
  | frame (f : Frame)
  | hangup

/-- A failed connection does nothing more, and one with a reply of its own reads no frame. -/
def Active.onEvent (c : Active) : Event → Option Active
  | .act op => if c.closed then none else c.act op
  | .frame f => if c.closed || c.pendingReadFrame.isSome then none else some (c.onFrame f)
  | .hangup => if c.closed then none else some c.cleanup

/-- **One connection**: every interleaving of what its users and its task do, with any frames from
the peer. -/
def endpoint (m : Mode) (cfg : Config) : Lts Active Event where
  init c := c = .new m cfg
  step c e c' := c.onEvent e = some c'

/-- An event that leaves the connection alive keeps its accounts. -/
theorem Active.Backed.onEvent {c c' : Active} {e : Event} (h : c.closed = false → c.Backed)
    (he : c.onEvent e = some c') (hc : c'.closed = false) : c'.Backed := by
  cases e with
  | act op =>
    rw [Active.onEvent] at he
    split at he
    · cases he
    next hopen => exact (h (Bool.eq_false_iff.mpr hopen)).act he hc
  | frame f =>
    rw [Active.onEvent] at he
    split at he
    · cases he
    next hopen =>
      obtain ⟨hopen, hp⟩ : c.closed = false ∧ c.pendingReadFrame = none := by
        simpa using hopen
      cases he
      exact (h hopen).onFrame hp hc
  | hangup =>
    rw [Active.onEvent] at he
    split at he
    · cases he
    · cases he
      cases hc

theorem endpoint_backed {m : Mode} {cfg : Config} {c : Active} (h : (endpoint m cfg).Reach c)
    (hc : c.closed = false) : c.Backed := by
  refine Lts.Reach.invariant (P := fun c => c.closed = false → c.Backed) ?_ ?_ h hc
  · rintro c rfl -
    exact .new m cfg
  · exact fun c e c' hbacked he hc' => Active.Backed.onEvent hbacked he hc'

/-- Both ends of a pair of connections, each as long as it lives itself. -/
theorem mux_backed {cfg : Mode → Config} {w : World} (h : (mux cfg).Reach w) (m : Mode)
    (hc : (w m).closed = false) : (w m).Backed := by
  refine Lts.Reach.invariant (P := fun w => ∀ m, (w m).closed = false → (w m).Backed) ?_ ?_ h m hc
  · rintro w rfl m -
    exact .new m (cfg m)
  · intro w a w' hbacked hstep k hk
    cases a with
    | act m op =>
      change w.act m op = some w' at hstep
      rw [World.act] at hstep
      split at hstep
      · cases hstep
      next hopen =>
      obtain ⟨c', hact, rfl⟩ := Option.map_eq_some_iff.mp hstep
      rcases Mode.eq_or_eq_peer m k with rfl | rfl
      · rw [update_self] at hk ⊢
        exact (hbacked k (Bool.eq_false_iff.mpr hopen)).act hact hk
      · rw [update_of_ne (Mode.peer_ne m)] at hk ⊢
        exact hbacked m.peer hk
    | receive m =>
      change w.receive m = some w' at hstep
      rw [World.receive] at hstep
      split at hstep
      · cases hstep
      next hopen =>
      obtain ⟨hopen, hp⟩ : (w m).closed = false ∧ (w m).pendingReadFrame = none := by
        simpa using hopen
      split at hstep
      case h_1 f t hw =>
        cases hstep
        rcases Mode.eq_or_eq_peer m k with rfl | rfl
        · rw [update_self] at hk ⊢
          exact (hbacked k hopen).onFrame hp hk
        · rw [update_of_ne (Mode.peer_ne m), update_self] at hk ⊢
          exact (hbacked m.peer hk).popped t
      case h_2 =>
        split at hstep
        case isFalse => cases hstep
        case isTrue =>
          cases hstep
          rcases Mode.eq_or_eq_peer m k with rfl | rfl
          · rw [update_self] at hk
            cases hk
          · rw [update_of_ne (Mode.peer_ne m)] at hk ⊢
            exact hbacked m.peer hk

/-- **What is promised of the backlog**: the byte count is that of the two queues; it is past the
bound by no more than the last frame, which the split size bounds; the table is within its cap; and
every frame a stream issued is in its channel, waits in the backlog, or has left for the socket. -/
structure Active.Accounted (c : Active) : Prop where
  bytes : c.pendingBytes = (payload (c.controlFrames ++ c.pendingFrames)).length
  bound : c.pendingBytes ≤ c.maxPendingBytes ∨
    ∃ rest f, c.pendingFrames = rest ++ [f] ∧ c.pendingBytes < c.maxPendingBytes + f.body.length ∧
      f.body.length ≤ c.config.splitSendSize
  streams : c.streams.length ≤ c.config.maxNumStreams
  kept : ∀ id,
    (c.left.filter (ofStream id) ++ (c.backlog.filter (ofStream id) ++ c.queuedOf id)).Perm
      (c.issued.filter (ofStream id))

theorem Active.Backed.accounted {c : Active} (h : c.Backed) : c.Accounted := by
  have hcontrol : payload c.controlFrames = [] :=
    List.flatMap_eq_nil_iff.mpr h.queues.control
  refine ⟨?_, ?_, h.metered.cap, h.kept⟩
  · rw [payload_append, hcontrol, List.nil_append]
    exact h.metered.bytes
  · rcases List.eq_nil_or_concat c.pendingFrames with hnil | ⟨rest, f, hlast⟩
    · refine Or.inl ?_
      rw [h.metered.bytes, hnil]
      exact Nat.zero_le _
    · rw [List.concat_eq_append] at hlast
      have hbelow := h.queues.below rest f hlast
      refine Or.inr ⟨rest, f, hlast, ?_, h.queues.pending f (by rw [hlast]; simp)⟩
      rw [h.metered.bytes, hlast, payload_append, List.length_append, payload_cons, payload_nil,
        List.append_nil]
      exact Nat.add_lt_add_right hbelow _

/-- **The backlog is accounted for**, in every state of a connection that lives. -/
theorem backlog_accounted {m : Mode} {cfg : Config} {c : Active} (h : (endpoint m cfg).Reach c)
    (hc : c.closed = false) : c.Accounted := (endpoint_backed h hc).accounted

/-- A stream with three bytes in two frames, of which the first has been taken. -/
theorem backlog_accounted_taken :
    ∃ c : Active, (endpoint .client tunnelConfig).Reach c ∧ c.closed = false ∧ c.Accounted ∧
      c.pendingBytes = 2 := by
  have hrun : (Lts.runWith Active.onEvent (fun _ _ => true) (.new .client tunnelConfig)
      [.act .newOutbound, .act (.write 1 [7, 8]), .act .queue, .act (.write 1 [9])]).any
      (fun c => !c.closed && c.pendingBytes == 2) = true := by
    decide +kernel
  obtain ⟨c, hreach, hc⟩ := Lts.Reach.exists_run (T := endpoint .client tunnelConfig)
    (fun _ _ _ hs => hs) rfl hrun
  obtain ⟨hopen, hbytes⟩ : c.closed = false ∧ c.pendingBytes = 2 := by
    simpa using hc
  exact ⟨c, hreach, hopen, backlog_accounted hreach hopen, hbytes⟩

end Molehill.Mux
