/-
# The datagrams of a flush, and what `input` makes of any bytes

`Emits items k k'` says once what an emission is: the segments `items` were packed, in order, behind
what was staged, and the full datagrams were written.  `ackSegments`, `probeSegments` and
`sentSegments` are what a flush packs.

On the other side `parseSegments` cuts a byte string into its segments and nothing else; `input`
does exactly what the cut segments ask for, in order (`inputLoop_eq`), so what it reads, where it
stops and which segments it acknowledges can be read off the cut.  `datagram_codec` puts the two
together.
-/
import Molehill.Kcp.RecvPipeline
import Molehill.Kcp.Runs
import Molehill.Lib.Packing

namespace Molehill

open Lib

/-- `KcpSegment::encoded_len`. -/
def KcpSegment.encodedLen (s : KcpSegment) : Nat := kcpOverhead + s.data.length

theorem encodeAll_length (segs : List KcpSegment) :
    (encodeAll segs).length = total KcpSegment.encodedLen segs := by
  induction segs with
  | nil => rfl
  | cons seg segs ih =>
    rw [encodeAll_cons, List.length_append, encode_length, ih]
    exact (List.sum_cons).symm

theorem encodeAll_eq_nil {segs : List KcpSegment} (h : encodeAll segs = []) : segs = [] := by
  cases segs with
  | nil => rfl
  | cons seg segs =>
    have hlen := congrArg List.length h
    rw [encodeAll_cons, List.length_append, encode_length, List.length_nil, kcpOverhead] at hlen
    omega

namespace Kcp

/-! ## 1. An emission -/

/-- `items` went out behind what was staged. -/
def Emits (items : List KcpSegment) (k k' : Kcp) : Prop :=
  k'.mtu = k.mtu ∧ ∀ staged, k.buf = encodeAll staged → ∃ packs rest,
    Packs KcpSegment.encodedLen k.mtu staged items packs rest ∧
      k'.buf = encodeAll rest ∧ k'.output = k.output ++ packs.map encodeAll

variable {k k' k'' : Kcp} {items more : List KcpSegment}

/-- A step that leaves the buffer and the sink alone. -/
theorem Emits.of_eq (hmtu : k'.mtu = k.mtu) (hbuf : k'.buf = k.buf)
    (houtput : k'.output = k.output) : Emits [] k k' :=
  ⟨hmtu, fun staged hs => ⟨[], staged, .done, hbuf.trans hs, by rw [houtput]; simp⟩⟩

theorem Emits.of_out (hmtu : k'.mtu = k.mtu) (hout : k'.out = k.out) : Emits [] k k' :=
  .of_eq hmtu (congrArg OutView.buf hout) (congrArg OutView.output hout)

theorem Emits.trans (h : Emits items k k') (h' : Emits more k' k'') :
    Emits (items ++ more) k k'' := by
  refine ⟨h'.1.trans h.1, fun staged hs => ?_⟩
  obtain ⟨packs, rest, hp, hbuf, hout⟩ := h.2 staged hs
  obtain ⟨packs', rest', hp', hbuf', hout'⟩ := h'.2 rest hbuf
  rw [h.1] at hp'
  exact ⟨packs ++ packs', rest', hp.trans hp', hbuf', by
    rw [hout', hout, List.map_append, List.append_assoc]⟩

theorem emits_writeBuf (k : Kcp) : Emits [] k k.writeBuf := by
  rw [writeBuf]
  split
  case isTrue => exact .of_eq rfl rfl rfl
  case isFalse hne =>
    refine ⟨rfl, fun staged hs => ⟨[staged], [], .close ?_ .done, rfl, ?_⟩⟩
    · rintro rfl
      exact hne hs
    · rw [hs]
      rfl

/-- A segment is packed: what was staged is written first if the two do not fit together. -/
theorem emits_pack (k : Kcp) (seg : KcpSegment) :
    Emits [seg] k ((k.roomFor seg.encodedLen).stage seg) := by
  have hstage : ∀ staged, k.buf = encodeAll staged →
      k.buf ++ seg.encode = encodeAll (staged ++ [seg]) := by
    intro staged hs
    rw [hs, encodeAll_append, encodeAll_cons, encodeAll_nil, List.append_nil]
  rw [roomFor]
  split
  case isTrue hfull =>
    rw [writeBuf]
    split
    case isTrue hnil =>
      refine ⟨rfl, fun staged hs =>
        ⟨[], staged ++ [seg], .stage (Or.inl ?_) .done, hstage staged hs, ?_⟩⟩
      · exact encodeAll_eq_nil (hs.symm.trans hnil)
      · exact (List.append_nil _).symm
    case isFalse hne =>
      refine ⟨rfl, fun staged hs =>
        ⟨[staged], [seg], .close ?_ (.stage (Or.inl rfl) .done), ?_, ?_⟩⟩
      · rintro rfl
        exact hne hs
      · change [] ++ seg.encode = encodeAll [seg]
        rw [encodeAll_cons, encodeAll_nil, List.append_nil, List.nil_append]
      · rw [hs]
        rfl
  case isFalse hfits =>
    refine ⟨rfl, fun staged hs =>
      ⟨[], staged ++ [seg], .stage (Or.inr ?_) .done, hstage staged hs, ?_⟩⟩
    · rw [← encodeAll_length, ← hs]
      exact Nat.le_of_not_lt hfits
    · exact (List.append_nil _).symm

theorem emits_emitSegment (k : Kcp) (seg : KcpSegment) : Emits [seg] k (k.emitSegment seg) := by
  rw [emitSegment]
  split
  case isTrue h =>
    refine ⟨rfl, fun staged hs => ?_⟩
    have hnil : staged = [] := encodeAll_eq_nil (hs.symm.trans h.1)
    subst hnil
    refine ⟨[[seg]], [], .alone .done, hs, ?_⟩
    change k.output ++ [seg.encode] = k.output ++ [encodeAll [seg]]
    rw [encodeAll_cons, encodeAll_nil, List.append_nil]
  case isFalse => exact emits_pack k seg

/-! ## 2. The acks and the probes -/

/-- The acks that are due, as segments. -/
def ackSegments (k : Kcp) : List KcpSegment :=
  k.acklist.map fun a => { k.ackSegment with sn := a.1, ts := a.2 }

/-- The probe a flush packs if the engine asked for it. -/
def probeSegment (probe ask : U32) (cmd : Byte) (segment : KcpSegment) : List KcpSegment :=
  if probe &&& ask ≠ 0 then [{ segment with cmd := cmd }] else []

/-- The probes that are due, as segments: they carry the number of the last ack. -/
def probeSegments (k : Kcp) : List KcpSegment :=
  let r := k.flushAckInner k.ackSegment
  let probe := r.1.probeWndSize.probe
  probeSegment probe kcpAskSend kcpCmdWask r.2 ++ probeSegment probe kcpAskTell kcpCmdWins r.2

theorem emits_flushAckLoop (acks : List (U32 × U32)) (k : Kcp) (segment : KcpSegment)
    (hdata : segment.data = []) :
    Emits (acks.map fun a => { segment with sn := a.1, ts := a.2 }) k
      (flushAckLoop acks k segment).1 := by
  induction acks generalizing k segment with
  | nil => exact .of_eq rfl rfl rfl
  | cons ack acks ih =>
    have hlen :
        ({ segment with sn := ack.1, ts := ack.2 } : KcpSegment).encodedLen = kcpOverhead := by
      rw [KcpSegment.encodedLen, hdata]
      rfl
    have hpack := emits_pack k { segment with sn := ack.1, ts := ack.2 }
    rw [hlen] at hpack
    rw [flushAckLoop, List.map_cons]
    exact hpack.trans (ih _ { segment with sn := ack.1, ts := ack.2 } hdata)

theorem emits_flushAckInner (k : Kcp) : Emits k.ackSegments k (k.flushAckInner k.ackSegment).1 := by
  have hclear : Emits [] (flushAckLoop k.acklist k k.ackSegment).1
      (k.flushAckInner k.ackSegment).1 := .of_eq rfl rfl rfl
  have h := (emits_flushAckLoop k.acklist k k.ackSegment rfl).trans hclear
  rwa [List.append_nil] at h

theorem flushAckLoop_segment (acks : List (U32 × U32)) (k : Kcp) (segment : KcpSegment) :
    (flushAckLoop acks k segment).2.conv = segment.conv ∧
      (flushAckLoop acks k segment).2.data = segment.data := by
  induction acks generalizing k segment with
  | nil => exact ⟨rfl, rfl⟩
  | cons ack acks ih =>
    rw [flushAckLoop]
    exact ih _ _

theorem emits_flushProbe (ask : U32) (cmd : Byte) (r : Kcp × KcpSegment) (hdata : r.2.data = []) :
    Emits (probeSegment r.1.probe ask cmd r.2) r.1 (flushProbe ask cmd r).1 ∧
      (flushProbe ask cmd r).2.data = [] := by
  rw [flushProbe, probeSegment]
  split
  case isTrue =>
    have hlen : ({ r.2 with cmd := cmd } : KcpSegment).encodedLen = kcpOverhead := by
      rw [KcpSegment.encodedLen, hdata]
      rfl
    have hpack := emits_pack r.1 { r.2 with cmd := cmd }
    rw [hlen] at hpack
    exact ⟨hpack, hdata⟩
  case isFalse => exact ⟨.of_eq rfl rfl rfl, hdata⟩

/-- The first probe leaves the request for the second. -/
theorem flushProbe_probe (ask : U32) (cmd : Byte) (r : Kcp × KcpSegment) :
    (flushProbe ask cmd r).1.probe = r.1.probe ∧
      ∀ ask' cmd', probeSegment r.1.probe ask' cmd' (flushProbe ask cmd r).2
        = probeSegment r.1.probe ask' cmd' r.2 := by
  rw [flushProbe]
  split
  · refine ⟨?_, fun _ _ => rfl⟩
    change (r.1.roomFor kcpOverhead).probe = r.1.probe
    rw [roomFor, writeBuf]
    split
    · split <;> rfl
    · rfl
  · exact ⟨rfl, fun _ _ => rfl⟩

/-- **The control part of a flush**: the acks, then the probes. -/
theorem emits_flushControl (k : Kcp) :
    Emits (k.ackSegments ++ k.probeSegments) k k.flushControl := by
  have hdata : (k.flushAckInner k.ackSegment).2.data = [] :=
    (flushAckLoop_segment _ _ _).2
  have hwnd : Emits [] (k.flushAckInner k.ackSegment).1
      (k.flushAckInner k.ackSegment).1.probeWndSize :=
    .of_out (congrArg Kcp.mtu (flushKept_probeWndSize (k.flushAckInner k.ackSegment).1) :)
      (probeWndSize_frame _).2.2
  have hack := (emits_flushAckInner k).trans hwnd
  obtain ⟨hask, hdata'⟩ := emits_flushProbe kcpAskSend kcpCmdWask
    ((k.flushAckInner k.ackSegment).1.probeWndSize, (k.flushAckInner k.ackSegment).2) hdata
  obtain ⟨hprobe, hseg⟩ := flushProbe_probe kcpAskSend kcpCmdWask
    ((k.flushAckInner k.ackSegment).1.probeWndSize, (k.flushAckInner k.ackSegment).2)
  have htell := (emits_flushProbe kcpAskTell kcpCmdWins _ hdata').1
  rw [hprobe, hseg] at htell
  have hclear : Emits [] _ k.flushControl := .of_eq rfl rfl rfl
  have hall := (hack.trans (hask.trans htell)).trans hclear
  rwa [List.append_nil, List.append_nil] at hall

/-! ## 3. The walk -/

/-- The segments that the walk sends, as they go out. -/
def sentSegments (env : FlushEnv) : FlushAcc → List KcpSegment → List KcpSegment
  | _, [] => []
  | acc, seg :: rest =>
    (match needSend env acc seg with
      | none => []
      | some (acc, seg) =>
        [{ seg with ts := acc.kcp.current, wnd := env.wnd, una := acc.kcp.rcvNxt }]) ++
      sentSegments env (flushSegment env acc seg).1 rest

theorem emits_flushLoop (env : FlushEnv) (segs : List KcpSegment) (acc : FlushAcc) :
    Emits (sentSegments env acc segs) acc.kcp (flushLoop env acc segs).1.kcp := by
  induction segs generalizing acc with
  | nil => exact .of_eq rfl rfl rfl
  | cons seg rest ih =>
    rw [sentSegments, flushLoop]
    refine Emits.trans ?_ (ih _)
    cases hsend : needSend env acc seg with
    | none =>
      have hflush : flushSegment env acc seg = (acc, seg) := by rw [flushSegment, hsend]
      rw [hflush]
      exact .of_eq rfl rfl rfl
    | some r =>
      obtain ⟨acc', seg'⟩ := r
      have hstart : Emits [] acc.kcp acc'.kcp :=
        .of_out (congrArg Kcp.mtu (flushKept_needSend hsend) :) (needSend_frame hsend).2.2.1
      have hdead : ∀ k : Kcp, Emits [] k (k.noteDead seg'.xmit env.windowStill) := fun k =>
        .of_out (congrArg Kcp.mtu (flushKept_noteDead k _ _) :) (noteDead_frame k _ _).2.2
      have hall := (hstart.trans (emits_emitSegment acc'.kcp
        { seg' with ts := acc'.kcp.current, wnd := env.wnd, una := acc'.kcp.rcvNxt })).trans
        (hdead _)
      rw [List.append_nil, List.nil_append] at hall
      rw [flushSegment, hsend]
      exact hall

/-- **What the walk sends** are the segments that are due, up to the fields a resend changes. -/
theorem sentSegments_core (env : FlushEnv) (acc : FlushAcc) (segs : List KcpSegment) :
    (sentSegments env acc segs).map KcpSegment.core
      = (segs.filter (acc.kcp.due env.resent)).map KcpSegment.core := by
  induction segs generalizing acc with
  | nil => rfl
  | cons seg rest ih =>
    rw [sentSegments, List.map_append, ih, due_of_kept (flushKept_flushSegment env acc seg),
      List.filter_cons, ← isSome_needSend]
    cases hsend : needSend env acc seg with
    | none => rfl
    | some r =>
      have hcore : r.2.core = seg.core := (needSend_frame hsend).2.2.2
      rw [Option.isSome_some, if_pos rfl, List.map_cons, List.map_cons, ← hcore]
      rfl

/-- A sent segment is a buffered one. -/
theorem mem_sentSegments {env : FlushEnv} {acc : FlushAcc} {segs : List KcpSegment} {s : KcpSegment}
    (h : s ∈ sentSegments env acc segs) : ∃ t ∈ segs, s.core = t.core := by
  have hmem := List.mem_map_of_mem (f := KcpSegment.core) h
  rw [sentSegments_core] at hmem
  obtain ⟨t, ht, heq⟩ := List.mem_map.mp hmem
  exact ⟨t, List.mem_of_mem_filter ht, heq.symm⟩

/-- What a flush packs behind what is staged. -/
def flushSegments (k : Kcp) : List KcpSegment :=
  k.ackSegments ++ k.probeSegments ++
    sentSegments (k.flushFill.flushEnv k.wndUnused) { kcp := k.flushFill } k.flushFill.sndBuf

/-- **A flush** packs its acks, its probes and the segments that are due, and leaves nothing
staged. -/
theorem emits_flush {k : Kcp} (hup : k.flags.updated = true) :
    Emits k.flushSegments k k.flush.1 ∧ k.flush.1.buf = [] := by
  have hfill : Emits (k.ackSegments ++ k.probeSegments) k k.flushFill := by
    have hfilled : Emits [] k.flushControl k.flushFill := .of_eq rfl rfl rfl
    have h := (emits_flushControl k).trans hfilled
    rwa [List.append_nil] at h
  have hwalk : Emits k.flushSegments k k.flushWalk.1.kcp :=
    hfill.trans (emits_flushLoop _ k.flushFill.sndBuf { kcp := k.flushFill })
  have hwritten : Emits [] k.flushWalk.1.kcp k.flushWalked :=
    emits_writeBuf { k.flushWalk.1.kcp with sndBuf := k.flushWalk.2 }
  have hbuf : k.flushWalked.buf = [] := by
    rw [flushWalked, writeBuf]
    split
    case isTrue h => exact h
    case isFalse => rfl
  have hend : ∀ change resent lost prior,
      Emits [] k.flushWalked (k.flushWalked.updateSsthresh change resent lost prior) ∧
        (k.flushWalked.updateSsthresh change resent lost prior).out = k.flushWalked.out := by
    intro change resent lost prior
    have hout := (updateSsthresh_frame k.flushWalked change resent lost prior).2.2
    have hmtu := congrArg Kcp.mtu (flushedKept_updateSsthresh k.flushWalked change resent lost prior)
    exact ⟨.of_out hmtu hout, hout⟩
  obtain ⟨hlast, hout⟩ := hend k.flushWalk.1.change (k.flushFill.flushEnv k.wndUnused).resent
    k.flushWalk.1.lost k.cwnd
  rw [flush_eq k hup]
  refine ⟨?_, (congrArg OutView.buf hout).trans hbuf⟩
  have hall := (hwalk.trans hwritten).trans hlast
  rwa [List.append_nil, List.append_nil] at hall

theorem emits_flushAck {k : Kcp} (hup : k.flags.updated = true) :
    Emits k.ackSegments k k.flushAck.1 := by
  rw [flushAck, hup]
  exact emits_flushAckInner k

/-! ## 4. Cutting a byte string -/

/-- A byte string cut into its segments: the whole ones before the first that is refused, and the
bytes behind them or the refusal. -/
def parseSegments (conv : U32) : Nat → Bytes → List (SegHead × Bytes) × Except KcpError Bytes
  | 0, buf => ([], .ok buf)
  | fuel + 1, buf =>
    if buf.length < kcpOverhead then ([], .ok buf)
    else
      match SegHead.parse conv buf with
      | .error e => ([], .error e)
      | .ok (head, rest) =>
        let r := parseSegments conv fuel (rest.drop head.len)
        ((head, rest.take head.len) :: r.1, r.2)

/-- What the segments of a cut do to the engine, one after the other. -/
def inputSegments : Kcp × AckRun → List (SegHead × Bytes) → Kcp × AckRun
  | r, [] => r
  | r, (head, payload) :: rest =>
    let t := r.1.inputSegment r.2 head payload
    inputSegments (t.1, t.2.1) rest

/-- A whole payload is all that a data segment reads. -/
theorem acceptPush_take (k : Kcp) (head : SegHead) {rest : Bytes} (hlen : head.len ≤ rest.length) :
    ∃ k' consumed,
      k.acceptPush head rest
        = (k', .ok (consumed, if consumed then rest.drop head.len else rest)) ∧
      k.acceptPush head (rest.take head.len)
        = (k', .ok (consumed,
          if consumed then (rest.take head.len).drop head.len else rest.take head.len)) := by
  have htake : ¬ (rest.take head.len).length < head.len := by
    rw [List.length_take]
    omega
  unfold acceptPush
  simp only [htake, if_false, List.take_take, Nat.min_self]
  split
  · exact ⟨_, false, rfl, rfl⟩
  · split
    · exact ⟨_, false, rfl, rfl⟩
    · rw [if_neg (by omega)]
      exact ⟨_, true, rfl, rfl⟩

/-- A whole segment is all that a round reads, and the round goes on behind it. -/
theorem inputSegment_take (k : Kcp) (acks : AckRun) (head : SegHead) {rest : Bytes}
    (hlen : head.len ≤ rest.length) :
    k.inputSegment acks head rest
      = ((k.inputSegment acks head (rest.take head.len)).1,
        (k.inputSegment acks head (rest.take head.len)).2.1, .ok (rest.drop head.len)) := by
  unfold inputSegment
  split
  · rfl
  · split
    · obtain ⟨k', consumed, h, htake⟩ := acceptPush_take (k.inputHead head) head hlen
      rw [h, htake]
      cases consumed <;> rfl
    · split <;> rfl

/-- **`input` is its cut.**  The loop does what the cut segments ask for, and ends as the cut
does. -/
theorem inputLoop_eq (fuel : Nat) (k : Kcp) (acks : AckRun) (buf : Bytes) :
    inputLoop fuel k acks buf
      = ((inputSegments (k, acks) (parseSegments k.conv fuel buf).1).1,
        (inputSegments (k, acks) (parseSegments k.conv fuel buf).1).2,
        (parseSegments k.conv fuel buf).2) := by
  induction fuel generalizing k acks buf with
  | zero => rfl
  | succ fuel ih =>
    rw [inputLoop, parseSegments]
    split
    case isTrue => rfl
    case isFalse =>
      cases hparse : SegHead.parse k.conv buf with
      | error e => rfl
      | ok r =>
        obtain ⟨head, rest⟩ := r
        have hconv : (k.inputSegment acks head (rest.take head.len)).1.conv = k.conv :=
          (congrArg Kcp.conv (inputKept_inputSegment k acks head _) :)
        simp only [inputSegment_take k acks head (SegHead.parse_len hparse), inputSegments]
        rw [ih, hconv]

/-! ### What a cut is -/

end Kcp

/-- A parsed header is known and of the conversation, and what follows it is the rest of the
bytes. -/
theorem SegHead.parse_ok {conv : U32} {buf rest : Bytes} {head : SegHead}
    (h : SegHead.parse conv buf = .ok (head, rest)) :
    head.conv = conv ∧ knownCmd head.cmd = true ∧ rest = buf.drop kcpOverhead := by
  unfold SegHead.parse at h
  dsimp only at h
  split at h
  case isTrue => cases h
  case isFalse hconv =>
    split at h
    case isTrue => cases h
    case isFalse =>
      split at h
      case isTrue => cases h
      case isFalse hcmd =>
        cases h
        refine ⟨of_not_not hconv, by simpa using hcmd, ?_⟩
        simp only [getLe, List.drop_drop, kcpOverhead]

/-- A cursor's read as the library makes it: past the end it panics. -/
def readLe (n : Nat) (bs : Bytes) : Option (Nat × Bytes) :=
  if n ≤ bs.length then some (getLe n bs) else none

/-- `SegHead::parse` with the reads that panic. -/
def SegHead.parseReads (expectedConv : U32) (buf : Bytes) :
    Option (Except KcpError (SegHead × Bytes)) := do
  let conv ← readLe 4 buf
  if BitVec.ofNat 32 conv.1 ≠ expectedConv then
    return .error (.convInconsistent expectedConv (BitVec.ofNat 32 conv.1))
  else
    let cmd ← readLe 1 conv.2
    let frg ← readLe 1 cmd.2
    let wnd ← readLe 2 frg.2
    let ts ← readLe 4 wnd.2
    let sn ← readLe 4 ts.2
    let una ← readLe 4 sn.2
    let len ← readLe 4 una.2
    if len.2.length < len.1 then return .error (.segmentDataSizeMismatch len.1 len.2.length)
    else if !knownCmd (BitVec.ofNat 8 cmd.1) then
      return .error (.unsupportedCmd (BitVec.ofNat 8 cmd.1))
    else
      return .ok ({ conv := BitVec.ofNat 32 conv.1, cmd := BitVec.ofNat 8 cmd.1,
                    frg := BitVec.ofNat 8 frg.1, wnd := BitVec.ofNat 16 wnd.1,
                    ts := BitVec.ofNat 32 ts.1, sn := BitVec.ofNat 32 sn.1,
                    una := BitVec.ofNat 32 una.1, len := len.1 }, len.2)

theorem readLe_of_le {n : Nat} {bs : Bytes} (h : n ≤ bs.length) : readLe n bs = some (getLe n bs) :=
  if_pos h

/-- Where a header is there, no read panics. -/
theorem SegHead.parseReads_eq {conv : U32} {buf : Bytes} (h : kcpOverhead ≤ buf.length) :
    SegHead.parseReads conv buf = some (SegHead.parse conv buf) := by
  have hlen : 24 ≤ buf.length := h
  have hread : ∀ n m, m + n ≤ 24 → readLe n (buf.drop m) = some (getLe n (buf.drop m)) := by
    intro n m hnm
    refine readLe_of_le ?_
    rw [List.length_drop]
    omega
  have hconv := hread 4 0 (by decide)
  have hcmd := hread 1 4 (by decide)
  have hfrg := hread 1 5 (by decide)
  have hwnd := hread 2 6 (by decide)
  have hts := hread 4 8 (by decide)
  have hsn := hread 4 12 (by decide)
  have huna := hread 4 16 (by decide)
  have hlast := hread 4 20 (by decide)
  have hsnd : ∀ (n : Nat) (bs : Bytes), (getLe n bs).2 = bs.drop n := fun _ _ => rfl
  rw [List.drop_zero] at hconv
  unfold SegHead.parseReads SegHead.parse
  simp only [hconv, Option.bind_eq_bind, Option.bind_some, hsnd, List.drop_drop, Nat.reduceAdd,
    hcmd, hfrg, hwnd, hts, hsn, huna, hlast]
  split
  · rfl
  · split
    · rfl
    · split <;> rfl

namespace Kcp

/-- Whether every read of `input`'s loop stays within the bytes: the headers, and the payloads it
reads or skips. -/
def readsInside (conv : U32) : Nat → Bytes → Bool
  | 0, _ => true
  | fuel + 1, buf =>
    if buf.length < kcpOverhead then true
    else
      match SegHead.parseReads conv buf with
      | none => false
      | some (.error _) => true
      | some (.ok (head, rest)) =>
        decide (head.len ≤ rest.length) && readsInside conv fuel (rest.drop head.len)

theorem readsInside_eq (conv : U32) (fuel : Nat) (buf : Bytes) :
    readsInside conv fuel buf = true := by
  induction fuel generalizing buf with
  | zero => rfl
  | succ fuel ih =>
    rw [readsInside]
    split
    case isTrue => rfl
    case isFalse hlong =>
      rw [SegHead.parseReads_eq (Nat.le_of_not_lt hlong)]
      cases hparse : SegHead.parse conv buf with
      | error e => rfl
      | ok r =>
        obtain ⟨head, rest⟩ := r
        simp only [SegHead.parse_len hparse, decide_true, Bool.true_and]
        exact ih _

/-- The bytes of the cut segments. -/
def cutLength (segs : List (SegHead × Bytes)) : Nat :=
  (segs.map fun e => kcpOverhead + e.1.len).sum

/-- **A cut is whole**: with fuel for all of the bytes, what is left over is shorter than a
header. -/
theorem parseSegments_whole (conv : U32) (fuel : Nat) {buf rest : Bytes} (hfuel : buf.length ≤ fuel)
    (h : (parseSegments conv fuel buf).2 = .ok rest) :
    rest.length < kcpOverhead ∧
      cutLength (parseSegments conv fuel buf).1 + rest.length = buf.length := by
  have hover : kcpOverhead = 24 := rfl
  induction fuel generalizing buf with
  | zero =>
    cases h
    exact ⟨by omega, Nat.zero_add _⟩
  | succ fuel ih =>
    rw [parseSegments] at h ⊢
    split at h
    case isTrue hshort =>
      cases h
      rw [if_pos hshort]
      exact ⟨hshort, Nat.zero_add _⟩
    case isFalse hlong =>
      rw [if_neg hlong]
      cases hparse : SegHead.parse conv buf with
      | error e =>
        rw [hparse] at h
        cases h
      | ok r =>
        obtain ⟨head, more⟩ := r
        rw [hparse] at h
        have hle := SegHead.parse_len hparse
        have hmore := congrArg List.length (SegHead.parse_ok hparse).2.2
        rw [List.length_drop] at hmore
        have hdrop : (more.drop head.len).length = more.length - head.len := List.length_drop
        obtain ⟨hlt, hsum⟩ := ih (by omega) h
        refine ⟨hlt, ?_⟩
        simp only [cutLength, List.map_cons, List.sum_cons] at hsum ⊢
        omega

/-- **The round trip.**  A packed datagram is cut into the segments that were packed. -/
theorem parseSegments_encodeAll (conv : U32) (fuel : Nat) (segs : List KcpSegment)
    (hfuel : (encodeAll segs).length ≤ fuel)
    (hsegs : ∀ s ∈ segs, s.conv = conv ∧ knownCmd s.cmd = true ∧ s.data.length < 2 ^ 32) :
    parseSegments conv fuel (encodeAll segs) = (segs.map fun s => (s.head, s.data), .ok []) := by
  have hover : kcpOverhead = 24 := rfl
  induction segs generalizing fuel with
  | nil =>
    cases fuel with
    | zero => rfl
    | succ fuel => rfl
  | cons seg segs ih =>
    obtain ⟨hconv, hcmd, hlen⟩ := hsegs seg List.mem_cons_self
    have hbytes : (encodeAll (seg :: segs)).length
        = kcpOverhead + seg.data.length + (encodeAll segs).length := by
      rw [encodeAll_cons, List.length_append, encode_length]
    cases fuel with
    | zero => omega
    | succ fuel =>
      have hparse := SegHead.parse_encode hcmd hlen (encodeAll segs)
      have hrest := ih fuel (by omega) fun s hs => hsegs s (List.mem_cons_of_mem _ hs)
      rw [hconv] at hparse
      have hlong : ¬ (encodeAll (seg :: segs)).length < kcpOverhead := by omega
      rw [parseSegments, if_neg hlong, encodeAll_cons, hparse]
      have htake : (seg.data ++ encodeAll segs).take seg.head.len = seg.data := List.take_left
      have hdrop : (seg.data ++ encodeAll segs).drop seg.head.len = encodeAll segs := List.drop_left
      simp only [htake, hdrop, hrest, List.map_cons]

/-! ### The acknowledgements -/

/-- What a segment adds to the acks: a data segment inside the receive window is acknowledged, any
other one is not. -/
def acksFor (k : Kcp) (head : SegHead) : List (U32 × U32) :=
  if head.cmd = kcpCmdPush ∧ timediff head.sn (k.rcvNxt + k.rcvWnd.setWidth 32) < 0 then
    [(head.sn, head.ts)]
  else []

/-- What the segments of a cut add to the acks, each in the state the ones before it leave. -/
def acked : Kcp × AckRun → List (SegHead × Bytes) → List (U32 × U32)
  | _, [] => []
  | r, (head, payload) :: rest =>
    let t := r.1.inputSegment r.2 head payload
    r.1.acksFor head ++ acked (t.1, t.2.1) rest

theorem acklist_acceptPush (k : Kcp) {head : SegHead} (hcmd : head.cmd = kcpCmdPush) (buf : Bytes) :
    (k.acceptPush head buf).1.acklist = k.acklist ++ k.acksFor head := by
  have hdata : ∀ (k : Kcp) (seg : KcpSegment), (k.parseData seg).acklist = k.acklist := by
    intro k seg
    unfold parseData
    split
    · rfl
    · change (k.insertSegment seg).acklist = k.acklist
      unfold insertSegment
      split <;> rfl
  by_cases hfar : 0 ≤ timediff head.sn (k.rcvNxt + k.rcvWnd.setWidth 32)
  · have hacks : k.acksFor head = [] := if_neg fun h => Int.not_lt.mpr hfar h.2
    rw [acceptPush, if_pos hfar, hacks, List.append_nil]
  · have hacks : k.acksFor head = [(head.sn, head.ts)] := if_pos ⟨hcmd, Int.not_le.mp hfar⟩
    rw [acceptPush, if_neg hfar, hacks]
    simp only []
    split
    · rfl
    · split
      · rfl
      · exact hdata _ _

theorem acklist_inputSegment (k : Kcp) (acks : AckRun) (head : SegHead) (buf : Bytes) :
    (k.inputSegment acks head buf).1.acklist = k.acklist ++ k.acksFor head := by
  have hnone : head.cmd ≠ kcpCmdPush → k.acksFor head = [] := fun hne => if_neg fun h => hne h.1
  unfold inputSegment
  split
  case isTrue hack =>
    rw [acklist_inputAck, hnone (by rw [hack]; decide), List.append_nil]
    rfl
  case isFalse =>
    split
    case isTrue hpush =>
      have h : ((k.inputHead head).acceptPush head buf).1.acklist = k.acklist ++ k.acksFor head :=
        acklist_acceptPush (k.inputHead head) hpush buf
      split
      case h_1 hr => rwa [hr] at h
      case h_2 hr => rwa [hr] at h
      case h_3 hr => rwa [hr] at h
    case isFalse hpush =>
      rw [hnone hpush, List.append_nil]
      split <;> rfl

theorem acklist_inputSegments (r : Kcp × AckRun) (segs : List (SegHead × Bytes)) :
    (inputSegments r segs).1.acklist = r.1.acklist ++ acked r segs := by
  induction segs generalizing r with
  | nil => exact (List.append_nil _).symm
  | cons e rest ih =>
    rw [inputSegments, ih, acked, acklist_inputSegment, List.append_assoc]

/-! ## 5. `input` on any bytes -/

/-- What `update_cwnd_after_acks` divides by. -/
def growthDivisor (k : Kcp) : Nat := if k.incr < k.mss then k.mss else k.incr

/-- The cut of a datagram. -/
def cut (k : Kcp) (buf : Bytes) : List (SegHead × Bytes) × Except KcpError Bytes :=
  parseSegments k.conv buf.length buf

/-- What `input` makes of any bytes: it reads inside them, inserts inside the receive buffer and
divides by no zero, it consumes every whole segment or stops with an error, and it acknowledges only
segments it accepted. -/
structure InputSound (k : Kcp) (buf : Bytes) : Prop where
  inside : readsInside k.conv buf.length buf = true
  slot : ∀ segs, segs <+: (k.cut buf).1 → ∀ sn i,
    insertSlot sn (inputSegments (k, {}) segs).1.rcvBuf.reverse = some i →
      i ≤ (inputSegments (k, {}) segs).1.rcvBuf.length
  divisor : 0 < (inputSegments (k, {}) (k.cut buf).1).1.growthDivisor
  short : buf.length < kcpOverhead → k.input buf = (k, .error (.invalidSegmentSize buf.length))
  result : kcpOverhead ≤ buf.length → (k.input buf).2 =
    match (k.cut buf).2 with
    | .error e => .error e
    | .ok rest => .ok (buf.length - rest.length)
  whole : ∀ rest, (k.cut buf).2 = .ok rest →
    rest.length < kcpOverhead ∧ cutLength (k.cut buf).1 + rest.length = buf.length
  known : ∀ e ∈ (k.cut buf).1, knownCmd e.1.cmd = true ∧ e.2.length = e.1.len
  acks : kcpOverhead ≤ buf.length →
    (k.input buf).1.acklist = k.acklist ++ acked (k, {}) (k.cut buf).1

theorem parseSegments_known (conv : U32) (fuel : Nat) (buf : Bytes) :
    ∀ e ∈ (parseSegments conv fuel buf).1, knownCmd e.1.cmd = true ∧ e.2.length = e.1.len := by
  induction fuel generalizing buf with
  | zero => nofun
  | succ fuel ih =>
    rw [parseSegments]
    split
    case isTrue => nofun
    case isFalse =>
      cases hparse : SegHead.parse conv buf with
      | error e => nofun
      | ok r =>
        obtain ⟨head, rest⟩ := r
        intro e he
        rcases List.mem_cons.mp he with rfl | he
        · refine ⟨(SegHead.parse_ok hparse).2.1, ?_⟩
          exact List.length_take_of_le (SegHead.parse_len hparse)
        · exact ih _ e he

theorem mss_inputSegments (r : Kcp × AckRun) (segs : List (SegHead × Bytes)) :
    (inputSegments r segs).1.mss = r.1.mss := by
  induction segs generalizing r with
  | nil => rfl
  | cons e rest ih =>
    rw [inputSegments, ih]
    exact (congrArg Kcp.mss (inputKept_inputSegment r.1 r.2 e.1 e.2) :)

/-- **Any bytes.** -/
theorem inputSound {k : Kcp} (hmss : 0 < k.mss) (buf : Bytes) : InputSound k buf := by
  have hin : kcpOverhead ≤ buf.length → k.input buf =
      match (k.cut buf).2 with
      | .error e => ((inputSegments (k, {}) (k.cut buf).1).1, .error e)
      | .ok rest => ((inputSegments (k, {}) (k.cut buf).1).1.inputEnd
          (inputSegments (k, {}) (k.cut buf).1).2 k.sndUna, .ok (buf.length - rest.length)) := by
    intro hlen
    rw [input, if_neg (Nat.not_lt.mpr hlen), inputLoop_eq, cut]
    cases (parseSegments k.conv buf.length buf).2 <;> rfl
  refine ⟨readsInside_eq _ _ _, fun segs _ sn i h => ?_, ?_, fun h => if_pos h, fun h => ?_,
    fun rest => parseSegments_whole k.conv buf.length le_rfl, parseSegments_known _ _ _,
    fun h => ?_⟩
  · have hle := insertSlot_le sn h
    rwa [List.length_reverse] at hle
  · have hmss' := mss_inputSegments (k, {}) (k.cut buf).1
    rw [growthDivisor]
    split
    case isTrue => rwa [hmss']
    case isFalse hge =>
      rw [hmss'] at hge
      exact Nat.lt_of_lt_of_le hmss (Nat.le_of_not_lt hge)
  · rw [hin h]
    cases (k.cut buf).2 <;> rfl
  · rw [hin h]
    cases (k.cut buf).2 with
    | error e => exact acklist_inputSegments (k, {}) (k.cut buf).1
    | ok rest => exact (acklist_inputEnd _ _ _).trans (acklist_inputSegments (k, {}) (k.cut buf).1)

end Kcp

/-! ## 6. What is staged, buffered and sent -/

/-- A segment without payload. -/
structure ControlSegment (conv : U32) (s : KcpSegment) : Prop where
  conv : s.conv = conv
  known : knownCmd s.cmd = true
  data : s.data = []

/-- What is staged are control segments, what is buffered are data segments. -/
structure Wired (k : Kcp) : Prop where
  staged : ∃ staged, k.buf = encodeAll staged ∧ ∀ s ∈ staged, ControlSegment k.conv s
  sndBuf : ∀ s ∈ k.sndBuf, s.conv = k.conv ∧ s.cmd = kcpCmdPush

namespace Kcp

variable {k k' : Kcp}

theorem control_ackSegments (k : Kcp) : ∀ s ∈ k.ackSegments, ControlSegment k.conv s := by
  intro s hs
  obtain ⟨a, -, rfl⟩ := List.mem_map.mp hs
  exact ⟨rfl, show knownCmd kcpCmdAck = true by decide, rfl⟩

theorem control_probeSegments (k : Kcp) : ∀ s ∈ k.probeSegments, ControlSegment k.conv s := by
  obtain ⟨hconv, hdata⟩ := flushAckLoop_segment k.acklist k k.ackSegment
  have hprobe : ∀ probe ask cmd, knownCmd cmd = true →
      ∀ s ∈ probeSegment probe ask cmd (k.flushAckInner k.ackSegment).2,
        ControlSegment k.conv s := by
    intro probe ask cmd hcmd s hs
    rw [probeSegment] at hs
    split at hs
    · rw [List.mem_singleton.mp hs]
      exact ⟨hconv, hcmd, hdata⟩
    · cases hs
  intro s hs
  rcases List.mem_append.mp hs with hs | hs
  · exact hprobe _ _ _ (by decide) s hs
  · exact hprobe _ _ _ (by decide) s hs

end Kcp

namespace Wired

variable {k k' : Kcp}

theorem new (conv : U32) : Wired (newStream conv) := ⟨⟨[], rfl, nofun⟩, nofun⟩

/-- A call that stages nothing and buffers nothing new. -/
theorem quiet (h : Wired k) (hconv : k'.conv = k.conv) (hbuf : k'.buf = k.buf)
    (hret : Kcp.Retained KcpSegment.core k k') : Wired k' := by
  refine ⟨by rw [hconv, hbuf]; exact h.staged, fun s' hs' => ?_⟩
  obtain ⟨s, hs, hcore⟩ := hret s' hs'
  obtain ⟨hsc, hsm, -⟩ := Kcp.core_eq hcore
  rw [hsc, hsm, hconv]
  exact h.sndBuf s hs

theorem mem_flushFill (h : Wired k) :
    ∀ s ∈ k.flushFill.sndBuf, s.conv = k.conv ∧ s.cmd = kcpCmdPush := by
  intro s hs
  rcases Kcp.mem_flushFill k hs with hold | ⟨-, -, -, hconv, hcmd, -⟩
  · exact h.sndBuf s hold
  · exact ⟨hconv, hcmd⟩

theorem flush (h : Wired k) : Wired k.flush.1 := by
  have hconv : k.flush.1.conv = k.conv := (congrArg Kcp.conv (Kcp.flushedKept_flush k) :)
  cases hup : k.flags.updated with
  | false =>
    rw [Kcp.flush_of_not_updated k hup]
    exact h
  | true =>
    refine ⟨⟨[], (Kcp.emits_flush hup).2, nofun⟩, fun s' hs' => ?_⟩
    rcases Kcp.retained_flush k with hret | heq
    · obtain ⟨s, hs, hcore⟩ := hret s' hs'
      obtain ⟨hsc, hsm, -⟩ := Kcp.core_eq hcore
      rw [hsc, hsm, hconv]
      exact h.mem_flushFill s hs
    · rw [heq] at hs' ⊢
      exact h.sndBuf s' hs'

theorem flushAck (h : Wired k) : Wired k.flushAck.1 := by
  cases hup : k.flags.updated with
  | false =>
    rw [Kcp.flushAck, hup]
    exact h
  | true =>
    have hconv : k.flushAck.1.conv = k.conv := (congrArg Kcp.conv (Kcp.flushKept_flushAck k) :)
    obtain ⟨staged, hbuf, hcontrol⟩ := h.staged
    obtain ⟨packs, rest, hp, hrest, -⟩ := (Kcp.emits_flushAck hup).2 staged hbuf
    refine ⟨⟨rest, hrest, fun s hs => ?_⟩, fun s hs => ?_⟩
    · rw [hconv]
      have hlast : rest ∈ packs ++ [rest] :=
        List.mem_append_right _ (List.mem_singleton_self _)
      rcases hp.mem_iff.mp ⟨rest, hlast, hs⟩ with hs | hs
      · exact hcontrol s hs
      · exact Kcp.control_ackSegments k s hs
    · have hsnd : k.flushAck.1.snd = k.snd := by
        rw [Kcp.flushAck, hup]
        exact (Kcp.flushAckInner_frame k k.ackSegment).1
      rw [show k.flushAck.1.sndBuf = k.sndBuf from congrArg SndView.sndBuf hsnd] at hs
      rw [hconv]
      exact h.sndBuf s hs

theorem clocked (h : Wired k) (current tsFlush : U32) : Wired (k.clocked current tsFlush) :=
  ⟨h.staged, h.sndBuf⟩

theorem after (h : Wired k) (e : EngineEvent) : Wired (k.after e) := by
  have hconv := Kcp.conv_after k e
  cases e with
  | input buf =>
    exact h.quiet hconv (congrArg Kcp.buf (Kcp.inputKept_input k buf) :)
      (Kcp.retained_input k buf).core
  | act a =>
    cases a with
    | send data =>
      have hs := Kcp.sendOwned_eq k data
      have hbuf : (k.sendOwned data).1.buf = k.buf := by rw [hs]
      have hsnd : (k.sendOwned data).1.sndBuf = k.sndBuf := by rw [hs]
      exact h.quiet hconv hbuf (.of_eq hsnd)
    | recv =>
      exact h.quiet hconv (congrArg Kcp.buf (Kcp.inputKept_recvPop k) :)
        (.of_snd (Kcp.recvPop_frame k).1)
    | update current =>
      have hmark : ∀ tsFlush, Wired (k.clocked current tsFlush) := h.clocked current
      obtain ⟨tsFlush, heq | heq⟩ := Kcp.update_eq k current
      · change Wired (k.update current).1
        rw [heq]
        exact hmark tsFlush
      · change Wired (k.update current).1
        rw [heq]
        exact (hmark tsFlush).flush
    | flush => exact h.flush
    | flushAck => exact h.flushAck
    | retransmitSn sn => exact h.quiet hconv rfl (.of_map (Kcp.retransmitLoop_core _ _ _))
    | setMtu mtu =>
      have hout := (Kcp.setMtu_frame k mtu).2.1
      have hsnd : (k.setMtu mtu).sndBuf = k.sndBuf := by
        unfold Kcp.setMtu
        simp only []
        split <;> rfl
      exact h.quiet hconv (congrArg OutView.buf hout) (.of_eq hsnd)
    | setNodelay | setWndsize => exact h.quiet hconv rfl (.of_snd rfl)

end Wired

theorem engine_wired {k : Kcp} (h : engine.Reach k) : Wired k := by
  refine h.invariant ?_ ?_
  · rintro k ⟨conv, rfl⟩
    exact Wired.new conv
  · rintro k e k' hk rfl
    exact hk.after e

/-! ## 7. The codec -/

/-- A segment with values its fields can carry. -/
structure InRange (conv : U32) (s : KcpSegment) : Prop where
  conv : s.conv = conv
  known : knownCmd s.cmd = true
  length : s.data.length < 2 ^ 32

theorem ControlSegment.inRange {conv : U32} {s : KcpSegment} (h : ControlSegment conv s) :
    InRange conv s :=
  ⟨h.conv, h.known, by rw [h.data]; decide⟩

/-- A datagram is cut into the segments that were packed into it. -/
theorem Kcp.cut_encodeAll {k : Kcp} {segs : List KcpSegment} (h : ∀ s ∈ segs, InRange k.conv s) :
    k.cut (encodeAll segs) = (segs.map fun s => (s.head, s.data), .ok []) :=
  Kcp.parseSegments_encodeAll _ _ _ le_rfl fun s hs =>
    ⟨(h s hs).conv, (h s hs).known, (h s hs).length⟩

/-- The datagrams of a flush hold what was staged and what the flush packs, in order, and each is
cut into the very segments that were packed into it. -/
def Kcp.FlushCut (k : Kcp) : Prop :=
  ∃ (staged : List KcpSegment) (packs : List (List KcpSegment)),
    k.buf = encodeAll staged ∧ k.flush.1.output = k.output ++ packs.map encodeAll ∧
    packs.flatten = staged ++ k.flushSegments ∧
    ∀ segs ∈ packs, k.cut (encodeAll segs) = (segs.map fun s => (s.head, s.data), .ok [])

theorem Wired.inRange_flushSegments {k : Kcp} (h : Wired k)
    (hlen : ∀ s ∈ k.sndBuf ++ k.sndQueue, s.data.length < 2 ^ 32) :
    ∀ s ∈ k.flushSegments, InRange k.conv s := by
  intro s hs
  rcases List.mem_append.mp hs with hs | hs
  · rcases List.mem_append.mp hs with hs | hs
    · exact (Kcp.control_ackSegments k s hs).inRange
    · exact (Kcp.control_probeSegments k s hs).inRange
  · obtain ⟨t, ht, hcore⟩ := Kcp.mem_sentSegments hs
    obtain ⟨hsc, hsm, hsd⟩ := Kcp.core_eq hcore
    obtain ⟨hconv, hcmd⟩ := h.mem_flushFill t ht
    refine ⟨hsc.trans hconv, by rw [hsm, hcmd]; decide, ?_⟩
    rw [hsd]
    rcases Kcp.mem_flushFill k ht with hold | ⟨-, seg, hseg, -, -, hdata⟩
    · exact hlen t (List.mem_append_left _ hold)
    · rw [hdata]
      exact hlen seg (List.mem_append_right _ hseg)

theorem Wired.flushCut {k : Kcp} (h : Wired k) (hup : k.flags.updated = true)
    (hlen : ∀ s ∈ k.sndBuf ++ k.sndQueue, s.data.length < 2 ^ 32) : k.FlushCut := by
  obtain ⟨staged, hbuf, hcontrol⟩ := h.staged
  obtain ⟨hemits, hempty⟩ := Kcp.emits_flush hup
  obtain ⟨packs, rest, hp, hrest, hout⟩ := hemits.2 staged hbuf
  have hnil : rest = [] := encodeAll_eq_nil (hrest.symm.trans hempty)
  subst hnil
  refine ⟨staged, packs, hbuf, hout, by simpa using hp.flatten, fun segs hsegs => ?_⟩
  refine Kcp.cut_encodeAll fun s hs => ?_
  rcases hp.mem_iff.mp ⟨segs, List.mem_append_left _ hsegs, hs⟩ with hs | hs
  · exact (hcontrol s hs).inRange
  · exact h.inRange_flushSegments hlen s hs

/-- **The codec**, in every reachable engine.  Any list of segments with values in range is cut
out of its encoding, and so is what a flush packs out of every datagram of it; and `input` is sound
on any bytes. -/
theorem datagram_codec {k : Kcp} (h : engine.Reach k) :
    (∀ segs, (∀ s ∈ segs, InRange k.conv s) →
      k.cut (encodeAll segs) = (segs.map fun s => (s.head, s.data), .ok [])) ∧
    (k.flags.updated = true → (∀ s ∈ k.sndBuf ++ k.sndQueue, s.data.length < 2 ^ 32) →
      k.FlushCut) ∧
    ∀ buf, k.InputSound buf :=
  ⟨fun _ => Kcp.cut_encodeAll, (engine_wired h).flushCut,
    Kcp.inputSound (engine_configured h).mss⟩

/-- An engine that has a message to send, at its first flush. -/
theorem datagram_codec_message :
    (((newStream 7).sendOwned [1, 2, 3]).1.update 0).1.FlushCut := by
  have hsend := Lts.Reach.step (T := engine) (a := .act (.send [1, 2, 3])) (.init ⟨7, rfl⟩) rfl
  have hupdate := hsend.step (a := .act (.update 0)) rfl
  exact (datagram_codec hupdate).2.1 (by decide +kernel) (by decide +kernel)

end Molehill
