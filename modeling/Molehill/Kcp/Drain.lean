/-
# The datagrams of a session on their way to the socket

The engine writes its datagrams into a staging buffer, which leaves as a batch (`DatagramOut`).
`drain_dgrams` puts batches on the wire: the pacer allows a part of a batch, the kernel takes a part
of that, and the rest is parked.  While something is parked, the next call sends that first.

Each step below is one engine write, one turn of a loop of the drain up to its send, or the socket's
answer; the pacer's and the socket's answers are open.

* `datagram_order`: the datagrams leave in the order of emission, each at most once, exactly as long
  as `drain_batches` sends nothing of a further batch over a refused tail it parked in the same
  call, and no error follows a datagram of the same call; what was dropped would have passed the
  bound of the parked backlog, and `parked_bytes` is always its length;
* `newer_overtakes`: a run in which a later datagram passes a refused one.

A span is kept with its place in the order of emission, which the program does not have; so are the
logs of what was emitted, of what left the socket, and of what was dropped.
-/
import Mathlib.Data.List.Nodup
import Molehill.Kcp.Listener

namespace Molehill

open Lib
open Listener (batchMax)

/-! ## 1. The data -/

/-- `KCP_MTU_CEILING`. -/
def kcpMtuCeiling : Nat := 8000

/-- `DGRAM_BUF`. -/
def dgramBuf : Nat := kcpMtuCeiling + kcpOverhead

/-- `BATCH_STAGE_BYTES`. -/
def batchStageBytes : Nat :=
  batchMax * (kcpMtuCeiling + kcpOverhead) + kcpMtuCeiling + kcpOverhead

/-- `PARKED_MAX_BYTES`. -/
def parkedMaxBytes : Nat := 16 * 1024 * 1024

/-- `Span`: a datagram inside the batch's buffer, or a header there and a payload beside it. -/
inductive Span
  | staged (off len : Nat)
  | split (hdrOff : Nat) (payload : Bytes)
  deriving DecidableEq

/-- `Span::len`. -/
def Span.len : Span → Nat
  | .staged _ len => len
  | .split _ payload => kcpOverhead + payload.length

/-- The datagram a span is. -/
def Span.datagram (buf : Bytes) : Span → Bytes
  | .staged off len => (buf.drop off).take len
  | .split hdrOff payload => (buf.drop hdrOff).take kcpOverhead ++ payload

/-- A span and its place in the order of emission.  It fits the buffer the send of other platforms
copies it to. -/
structure Emission where
  no : Nat
  span : Span
  small : span.len ≤ dgramBuf
  deriving DecidableEq

/-- A datagram and its place in the order of emission. -/
abbrev Datagram := Bytes × Nat

/-- The datagrams of some spans of a buffer. -/
def datagrams (buf : Bytes) (spans : List Emission) : List Datagram :=
  spans.map fun e => (e.span.datagram buf, e.no)

/-- The bytes of some spans. -/
def spanBytes (spans : List Emission) : Nat := (spans.map fun e => e.span.len).sum

/-- `DgramBatch`. -/
structure DgramBatch where
  buf : Bytes
  spans : List Emission
  deriving DecidableEq

/-- `ParkedBatch`, which is never without spans.  How long it has been parked only decides
whether it is overdue. -/
structure ParkedBatch where
  buf : Bytes
  spans : List Emission
  nonempty : spans ≠ []
  deriving DecidableEq

/-- Datagrams dropped when this much was parked. -/
structure Discard where
  backlog : Nat
  buf : Bytes
  spans : List Emission
  deriving DecidableEq

/-- Where `drain_dgrams` stands. -/
inductive Draining
  | idle
  /-- The loop of `drain_parked`, and its send of `take`. -/
  | parked
  | sendingParked (buf : Bytes) (take : List Emission)
  /-- The loop of `drain_batches`, and its send of `allowed`. -/
  | batches
  | sendingBatch (buf : Bytes) (allowed denied : List Emission)
  deriving DecidableEq

/-- The sending half of the adapter: `DatagramOut`, its channel, and the parked backlog of
`PaceState`. -/
structure Outbound where
  staging : Bytes
  spans : List Emission
  channel : List DgramBatch
  parked : List ParkedBatch
  parkedBytes : Nat
  draining : Draining
  /-- What the engine has written. -/
  emitted : List Bytes
  /-- What has left the socket. -/
  wire : List Datagram
  discards : List Discard
  deriving DecidableEq

namespace Outbound

/-! ## 2. `DatagramOut` -/

/-- `DatagramOut::emit`. -/
def emit (s : Outbound) : Outbound :=
  if s.spans = [] then s
  else { s with channel := s.channel ++ [⟨s.staging, s.spans⟩], staging := [], spans := [] }

/-- A full batch is closed. -/
def emitFull (s : Outbound) : Outbound :=
  if batchMax ≤ s.spans.length ∨ batchStageBytes ≤ s.staging.length then s.emit else s

/-- Stage `bytes` and add the span of the datagram `whole`. -/
def stage (s : Outbound) (bytes : Bytes) (span : Span) (small : span.len ≤ dgramBuf)
    (whole : Bytes) : Outbound :=
  emitFull { s with
    staging := s.staging ++ bytes
    spans := s.spans ++ [⟨s.emitted.length, span, small⟩]
    emitted := s.emitted ++ [whole] }

/-- `write`: one datagram of at most an MTU. -/
def write (s : Outbound) (buf : Bytes) (h : buf.length ≤ dgramBuf) : Outbound :=
  if buf = [] then s else s.stage buf (.staged s.staging.length buf.length) h buf

/-- `write_datagram`: the header is staged, the payload is shared. -/
def writeDatagram (s : Outbound) (header payload : Bytes) (h : header.length ≤ dgramBuf)
    (h' : kcpOverhead + payload.length ≤ dgramBuf) : Outbound :=
  if header = [] then s
  else if payload = [] then s.stage header (.staged s.staging.length header.length) h header
  else s.stage header (.split s.staging.length payload) h' (header ++ payload)

/-! ## 3. The pacer and the socket -/

/-- The spans the pacer lets through, up to the first it refuses, and the others.  Overdue spans are
not asked for. -/
def letThrough (overdue : Bool) : List Emission → List Bool → List Emission × List Emission
  | [], _ => ([], [])
  | e :: spans, allows =>
    if overdue || allows.headD false then
      (e :: (letThrough overdue spans allows.tail).1, (letThrough overdue spans allows.tail).2)
    else ([], e :: spans)

/-- What `try_send_to` answers. -/
inductive SendTo
  | ok
  | wouldBlock
  | error
  deriving DecidableEq

/-- What the socket answers to a send: one count or error for `sendmmsg`, or one answer for each
datagram. -/
inductive SocketAnswer
  | batch (answer : Option Nat)
  | single (answers : List SendTo)
  deriving DecidableEq

/-- `send_spans` without `sendmmsg`: what went out, and the count it returns. -/
def sendSingly : List Emission → List SendTo → List Emission × Option Nat
  | [], _ => ([], some 0)
  | e :: spans, answers =>
    if dgramBuf < e.span.len then sendSingly spans answers
    else
      match answers with
      | .ok :: rest =>
        (e :: (sendSingly spans rest).1, (sendSingly spans rest).2.map (· + 1))
      | .error :: _ => ([], none)
      | .wouldBlock :: _ | [] => ([], some 0)

/-- `send_spans`: what went out, and the count it returns (`none` for an error).  A `sendmmsg`
that fails has taken nothing. -/
def sendSpans (spans : List Emission) : SocketAnswer → List Emission × Option Nat
  | .batch none => ([], none)
  | .batch (some k) =>
    let n := min k (min spans.length batchMax)
    (spans.take n, some n)
  | .single answers => sendSingly spans answers

/-! ## 4. `drain_dgrams` -/

/-- `park`: at the back, within the bound. -/
def park (s : Outbound) (buf : Bytes) (spans : List Emission) : Outbound :=
  if h : spans = [] then s
  else if parkedMaxBytes < s.parkedBytes + spanBytes spans then
    { s with discards := s.discards ++ [⟨s.parkedBytes, buf, spans⟩] }
  else
    { s with
      parkedBytes := s.parkedBytes + spanBytes spans
      parked := s.parked ++ [⟨buf, spans, h⟩] }

/-- `park_front`. -/
def parkFront (s : Outbound) (buf : Bytes) (spans : List Emission) : Outbound :=
  if h : spans = [] then s
  else
    { s with
      parkedBytes := s.parkedBytes + spanBytes spans
      parked := ⟨buf, spans, h⟩ :: s.parked }

/-- The parked batch without the spans that are taken. -/
def keepFront (buf : Bytes) (rest : List Emission) (parked : List ParkedBatch) :
    List ParkedBatch :=
  if h : rest = [] then parked else ⟨buf, rest, h⟩ :: parked

/-- `drain_dgrams`: parked data goes first. -/
def drainDgrams (s : Outbound) : Outbound :=
  { s with draining := if s.parked = [] then .batches else .parked }

/-- A turn of `drain_parked`, up to its send. -/
def parkedTurn (s : Outbound) (overdue : Bool) (allows : List Bool) : Outbound :=
  match s.parked with
  | [] => { s with draining := .idle }
  | front :: parked =>
    let (take, rest) := letThrough overdue front.spans allows
    if take = [] then { s with draining := .idle }
    else
      { s with
        parkedBytes := s.parkedBytes - spanBytes take
        parked := keepFront front.buf rest parked
        draining := .sendingParked front.buf take }

/-- What `drain_parked` does with the socket's answer. -/
def parkedSent (s : Outbound) (buf : Bytes) (take : List Emission) (answer : SocketAnswer) :
    Outbound :=
  let (out, count) := sendSpans take answer
  let s := { s with wire := s.wire ++ datagrams buf out }
  match count with
  | some k =>
    if k < take.length then { s.parkFront buf (take.drop k) with draining := .idle }
    else { s with draining := .parked }
  | none => { s.parkFront buf take with draining := .idle }

/-- A turn of `drain_batches`, up to its send. -/
def batchTurn (s : Outbound) (allows : List Bool) : Outbound :=
  match s.channel with
  | [] => { s with draining := .idle }
  | batch :: channel =>
    let s := { s with channel := channel }
    let (allowed, denied) := letThrough false batch.spans allows
    if allowed = [] then { s.park batch.buf denied with draining := .idle }
    else { s with draining := .sendingBatch batch.buf allowed denied }

/-- What `drain_batches` does with the socket's answer. -/
def batchSent (s : Outbound) (buf : Bytes) (allowed denied : List Emission)
    (answer : SocketAnswer) : Outbound :=
  let (out, count) := sendSpans allowed answer
  let s := { s with wire := s.wire ++ datagrams buf out }
  match count with
  | some k =>
    let s := s.park buf (allowed.drop k ++ denied)
    { s with draining := if k < allowed.length then .idle else .batches }
  | none => { s.park buf (allowed ++ denied) with draining := .idle }

/-! ## 5. The system -/

inductive Event
  /-- The engine writes a datagram of one piece, or of a header and a payload. -/
  | write (buf : Bytes)
  | writeDatagram (header payload : Bytes)
  /-- The end of an engine flush. -/
  | flush
  /-- `drain_dgrams` is called. -/
  | drain
  /-- The next turn of the loop it runs; the pacer's answers, or an overdue batch. -/
  | turn (overdue : Bool) (allows : List Bool)
  /-- The socket answers the send in flight. -/
  | sent (answer : SocketAnswer)
  deriving DecidableEq

/-- One step; `none` where it cannot happen.  The engine writes between two drains, at most an MTU
at a time, with headers of their fixed length. -/
def step (s : Outbound) : Event → Option Outbound
  | .write buf =>
    if h : s.draining = .idle ∧ buf.length ≤ kcpMtuCeiling then
      some (s.write buf (Nat.le_trans h.2 (by decide)))
    else none
  | .writeDatagram header payload =>
    if h : s.draining = .idle ∧ header.length = kcpOverhead ∧
        header.length + payload.length ≤ kcpMtuCeiling then
      some (s.writeDatagram header payload (by rw [h.2.1]; decide)
        (by rw [← h.2.1]; exact Nat.le_trans h.2.2 (by decide)))
    else none
  | .flush => if s.draining = .idle then some s.emit else none
  | .drain => if s.draining = .idle then some s.drainDgrams else none
  | .turn overdue allows =>
    match s.draining with
    | .parked => some (s.parkedTurn overdue allows)
    | .batches => some (s.batchTurn allows)
    | _ => none
  | .sent answer =>
    match s.draining with
    | .sendingParked buf take => some (s.parkedSent buf take answer)
    | .sendingBatch buf allowed denied => some (s.batchSent buf allowed denied answer)
    | _ => none

def new : Outbound := ⟨[], [], [], [], 0, .idle, [], [], []⟩

end Outbound

/-- The system: engine writes and drains, with any answers of the pacer and the socket. -/
def outbound : Lts Outbound Outbound.Event where
  init s := s = .new
  step s e s' := s.step e = some s'

namespace Outbound

/-! ## 6. Where every datagram is -/

/-- The parked datagrams. -/
def parkedLine (s : Outbound) : List Datagram := s.parked.flatMap fun p => datagrams p.buf p.spans

/-- The datagrams of the channel and of the batch in progress. -/
def freshLine (s : Outbound) : List Datagram :=
  s.channel.flatMap (fun b => datagrams b.buf b.spans) ++ datagrams s.staging s.spans

/-- What lies between the wire and the channel: a send in flight comes from the front of the
backlog, or from the channel. -/
def middleLine (s : Outbound) : List Datagram :=
  match s.draining with
  | .sendingParked buf take => datagrams buf take ++ s.parkedLine
  | .sendingBatch buf allowed denied => s.parkedLine ++ datagrams buf (allowed ++ denied)
  | _ => s.parkedLine

/-- All datagrams that were not dropped, in the order in which they leave. -/
def line (s : Outbound) : List Datagram := s.wire ++ s.middleLine ++ s.freshLine

/-- The datagrams that were dropped. -/
def lost (s : Outbound) : List Datagram := s.discards.flatMap fun d => datagrams d.buf d.spans

/-- What a step does to the line: nothing, a new datagram at its end, or some dropped from it. -/
inductive Moved (s s' : Outbound) : Prop
  | same : s'.line = s.line → s'.lost = s.lost → s'.emitted = s.emitted → Moved s s'
  | grown (bytes : Bytes) : s'.line = s.line ++ [(bytes, s.emitted.length)] →
      s'.lost = s.lost → s'.emitted = s.emitted ++ [bytes] → Moved s s'
  | dropped (front gone back : List Datagram) : s.line = front ++ gone ++ back →
      s'.line = front ++ back → s'.lost = s.lost ++ gone → s'.emitted = s.emitted → Moved s s'

/-- Nothing is out of order, nothing is there twice, and nothing is missing. -/
structure Faithful (s : Outbound) : Prop where
  ordered : s.line.Sublist s.emitted.zipIdx
  complete : (s.line ++ s.lost).Perm s.emitted.zipIdx

theorem Faithful.of_moved {s s' : Outbound} (h : Faithful s) (hm : Moved s s') : Faithful s' := by
  have hsub := h.ordered
  have hall := h.complete
  cases hm with
  | same hline hlost hemitted =>
    constructor
    · rw [hline, hemitted]
      exact hsub
    · rw [hline, hlost, hemitted]
      exact hall
  | grown bytes hline hlost hemitted =>
    have hzip : s'.emitted.zipIdx = s.emitted.zipIdx ++ [(bytes, s.emitted.length)] := by
      rw [hemitted, List.zipIdx_append]
      simp
    constructor
    · rw [hline, hzip]
      exact hsub.append (List.Sublist.refl _)
    · rw [hline, hlost, hzip, List.append_assoc]
      have hswap : (s.line ++ ([(bytes, s.emitted.length)] ++ s.lost)).Perm
          (s.line ++ (s.lost ++ [(bytes, s.emitted.length)])) :=
        List.perm_append_comm.append_left _
      refine hswap.trans ?_
      rw [← List.append_assoc]
      exact hall.append_right _
  | dropped front gone back hfrom hline hlost hemitted =>
    constructor
    · rw [hline, hemitted]
      refine List.Sublist.trans ?_ hsub
      rw [hfrom, List.append_assoc]
      exact (List.sublist_append_right _ _).append_left _
    · rw [hline, hlost, hemitted]
      refine List.Perm.trans ?_ hall
      have hswap : (back ++ (s.lost ++ gone)).Perm (gone ++ (back ++ s.lost)) := by
        rw [← List.append_assoc]
        exact List.perm_append_comm
      simpa [hfrom] using hswap.append_left front

@[simp] theorem datagrams_nil (buf : Bytes) : datagrams buf [] = [] := rfl

@[simp] theorem datagrams_append (buf : Bytes) (xs ys : List Emission) :
    datagrams buf (xs ++ ys) = datagrams buf xs ++ datagrams buf ys := List.map_append

@[simp] theorem spanBytes_append (xs ys : List Emission) :
    spanBytes (xs ++ ys) = spanBytes xs + spanBytes ys := by
  simp [spanBytes]

theorem letThrough_append (overdue : Bool) : ∀ (spans : List Emission) (allows : List Bool),
    (letThrough overdue spans allows).1 ++ (letThrough overdue spans allows).2 = spans
  | [], _ => by simp [letThrough]
  | e :: spans, allows => by
    rw [letThrough]
    split
    · rw [List.cons_append, letThrough_append overdue spans allows.tail]
    · rfl

/-! ## 7. Parking -/

/-- `park` leaves everything else alone. -/
theorem park_frame (s : Outbound) (buf : Bytes) (spans : List Emission) :
    (s.park buf spans).wire = s.wire ∧ (s.park buf spans).freshLine = s.freshLine ∧
      (s.park buf spans).emitted = s.emitted := by
  rw [park]
  split
  · exact ⟨rfl, rfl, rfl⟩
  · split
    · exact ⟨rfl, rfl, rfl⟩
    · exact ⟨rfl, rfl, rfl⟩

/-- What is parked goes behind the backlog, or is dropped. -/
theorem park_cases (s : Outbound) (buf : Bytes) (spans : List Emission) :
    (s.park buf spans).parkedLine = s.parkedLine ++ datagrams buf spans ∧
        (s.park buf spans).lost = s.lost ∨
      (s.park buf spans).parkedLine = s.parkedLine ∧
        (s.park buf spans).lost = s.lost ++ datagrams buf spans := by
  rw [park]
  split
  case isTrue hnil =>
    left
    rw [hnil]
    simp
  case isFalse =>
    split
    · right
      exact ⟨rfl, by simp [lost]⟩
    · left
      exact ⟨by simp [parkedLine], rfl⟩

@[simp] theorem parkedLine_parkFront (s : Outbound) (buf : Bytes) (spans : List Emission) :
    (s.parkFront buf spans).parkedLine = datagrams buf spans ++ s.parkedLine := by
  rw [parkFront]
  split
  case isTrue hnil =>
    rw [hnil]
    rfl
  case isFalse => rfl

theorem parkFront_frame (s : Outbound) (buf : Bytes) (spans : List Emission) :
    (s.parkFront buf spans).wire = s.wire ∧ (s.parkFront buf spans).freshLine = s.freshLine ∧
      (s.parkFront buf spans).emitted = s.emitted ∧ (s.parkFront buf spans).lost = s.lost := by
  rw [parkFront]
  split
  · exact ⟨rfl, rfl, rfl, rfl⟩
  · exact ⟨rfl, rfl, rfl, rfl⟩

theorem flatMap_keepFront (buf : Bytes) (rest : List Emission) (parked : List ParkedBatch) :
    (keepFront buf rest parked).flatMap (fun p => datagrams p.buf p.spans) =
      datagrams buf rest ++ parked.flatMap fun p => datagrams p.buf p.spans := by
  rw [keepFront]
  split
  case isTrue hnil =>
    rw [hnil]
    rfl
  case isFalse => rfl

/-! ## 8. The batch in progress -/

/-- A span lies in a buffer of `n` bytes. -/
def InBounds (n : Nat) : Span → Prop
  | .staged off len => off + len ≤ n
  | .split hdrOff _ => hdrOff + kcpOverhead ≤ n

/-- Bytes staged later do not change a datagram. -/
theorem datagram_append {buf : Bytes} {span : Span} (h : InBounds buf.length span) (more : Bytes) :
    span.datagram (buf ++ more) = span.datagram buf := by
  cases span with
  | staged off len =>
    simp only [InBounds] at h
    rw [Span.datagram, Span.datagram, List.drop_append_of_le_length (by omega),
      List.take_append_of_le_length (by rw [List.length_drop]; omega)]
  | split hdrOff payload =>
    simp only [InBounds] at h
    rw [Span.datagram, Span.datagram, List.drop_append_of_le_length (by omega),
      List.take_append_of_le_length (by rw [List.length_drop]; omega)]

theorem InBounds.mono {n m : Nat} {span : Span} (h : InBounds n span) (hle : n ≤ m) :
    InBounds m span := by
  cases span with
  | staged off len => exact Nat.le_trans h hle
  | split hdrOff payload => exact Nat.le_trans h hle

/-- A closed batch lies in the channel with the datagrams it had. -/
theorem emit_frame (s : Outbound) :
    s.emit.freshLine = s.freshLine ∧ s.emit.wire = s.wire ∧ s.emit.parked = s.parked ∧
      s.emit.parkedBytes = s.parkedBytes ∧ s.emit.draining = s.draining ∧
      s.emit.emitted = s.emitted ∧ s.emit.discards = s.discards := by
  rw [emit]
  split
  · exact ⟨rfl, rfl, rfl, rfl, rfl, rfl, rfl⟩
  · exact ⟨by simp [freshLine], rfl, rfl, rfl, rfl, rfl, rfl⟩

theorem emit_line (s : Outbound) : s.emit.line = s.line ∧ s.emit.lost = s.lost := by
  obtain ⟨hfresh, hwire, hparked, -, hdraining, -, hdiscards⟩ := s.emit_frame
  constructor
  · rw [line, line, middleLine, middleLine, parkedLine, parkedLine, hfresh, hwire, hparked,
      hdraining]
  · rw [lost, lost, hdiscards]

/-- What holds in every run, whatever the socket answers. -/
structure Inv (s : Outbound) : Prop where
  staged : ∀ e ∈ s.spans, InBounds s.staging.length e.span
  bytes : s.parkedBytes = (s.parked.map fun p => spanBytes p.spans).sum
  bound : ∀ d ∈ s.discards, parkedMaxBytes < d.backlog + spanBytes d.spans

theorem Inv.emit {s : Outbound} (h : Inv s) : Inv s.emit := by
  obtain ⟨-, -, hparked, hbytes, -, -, hdiscards⟩ := s.emit_frame
  refine ⟨?_, by rw [hbytes, hparked]; exact h.bytes, by rw [hdiscards]; exact h.bound⟩
  rw [Outbound.emit]
  split
  · exact h.staged
  · exact nofun

theorem Inv.emitFull {s : Outbound} (h : Inv s) : Inv s.emitFull := by
  rw [Outbound.emitFull]
  split
  · exact h.emit
  · exact h

theorem emitFull_frame (s : Outbound) :
    s.emitFull.line = s.line ∧ s.emitFull.lost = s.lost ∧ s.emitFull.emitted = s.emitted := by
  rw [emitFull]
  split
  · exact ⟨s.emit_line.1, s.emit_line.2, s.emit_frame.2.2.2.2.2.1⟩
  · exact ⟨rfl, rfl, rfl⟩

/-- A staged datagram comes behind all others. -/
theorem Inv.stage {s : Outbound} (h : Inv s) {bytes : Bytes} {span : Span}
    (small : span.len ≤ dgramBuf) {whole : Bytes}
    (hbounds : InBounds (s.staging.length + bytes.length) span)
    (hwhole : span.datagram (s.staging ++ bytes) = whole) :
    Inv (s.stage bytes span small whole) ∧ Moved s (s.stage bytes span small whole) := by
  rw [Outbound.stage]
  constructor
  · refine Inv.emitFull ⟨?_, h.bytes, h.bound⟩
    intro e he
    rw [List.length_append]
    rcases List.mem_append.mp he with he | he
    · exact (h.staged e he).mono (Nat.le_add_right _ _)
    · rw [List.mem_singleton.mp he]
      exact hbounds
  · obtain ⟨hline, hlost, hemitted⟩ := emitFull_frame { s with
      staging := s.staging ++ bytes
      spans := s.spans ++ [⟨s.emitted.length, span, small⟩]
      emitted := s.emitted ++ [whole] }
    refine Moved.grown whole ?_ hlost hemitted
    rw [hline]
    have hold : datagrams (s.staging ++ bytes) s.spans = datagrams s.staging s.spans := by
      refine List.map_congr_left fun e he => ?_
      rw [datagram_append (h.staged e he)]
    rw [line, line, freshLine, freshLine]
    simp only [datagrams_append, hold, ← List.append_assoc]
    simp only [datagrams, List.map_cons, List.map_nil, hwhole]
    rfl

theorem Inv.write {s : Outbound} (h : Inv s) (buf : Bytes) (hlen : buf.length ≤ dgramBuf) :
    Inv (s.write buf hlen) ∧ Moved s (s.write buf hlen) := by
  rw [Outbound.write]
  split
  · exact ⟨h, Moved.same rfl rfl rfl⟩
  · exact h.stage _ (Nat.le_refl _) (by simp [Span.datagram])

theorem Inv.writeDatagram {s : Outbound} (h : Inv s) {header : Bytes} (payload : Bytes)
    (hheader : header.length = kcpOverhead) (hlen : header.length ≤ dgramBuf)
    (hsum : kcpOverhead + payload.length ≤ dgramBuf) :
    Inv (s.writeDatagram header payload hlen hsum) ∧
      Moved s (s.writeDatagram header payload hlen hsum) := by
  rw [Outbound.writeDatagram]
  split
  · exact ⟨h, Moved.same rfl rfl rfl⟩
  · split
    · exact h.stage _ (Nat.le_refl _) (by simp [Span.datagram])
    · refine h.stage _ ?_ ?_
      · rw [InBounds, hheader]
      · rw [Span.datagram, List.drop_left' rfl, ← hheader, List.take_length]

/-! ## 9. The turns of the drain -/

theorem sendSingly_count : ∀ (spans : List Emission) (answers : List SendTo) (k : Nat),
    (sendSingly spans answers).2 = some k →
      (sendSingly spans answers).1 = spans.take k ∧ k ≤ spans.length
  | [], _, k, h => by
    cases h
    exact ⟨rfl, Nat.le_refl _⟩
  | e :: spans, answers, k, h => by
    unfold sendSingly at h ⊢
    rw [if_neg (Nat.not_lt.mpr e.small)] at h ⊢
    split at h
    case h_1 rest =>
      obtain ⟨j, hj, rfl⟩ := Option.map_eq_some_iff.mp h
      obtain ⟨htake, hle⟩ := sendSingly_count spans rest j hj
      exact ⟨by rw [htake, List.take_succ_cons], Nat.succ_le_succ hle⟩
    case h_2 => cases h
    case h_3 =>
      cases h
      exact ⟨rfl, Nat.zero_le _⟩
    case h_4 =>
      cases h
      exact ⟨rfl, Nat.zero_le _⟩

theorem sendSingly_takes : ∀ (spans : List Emission) (answers : List SendTo),
    (sendSingly spans answers).1 <+: spans
  | [], _ => List.nil_prefix
  | e :: spans, answers => by
    unfold sendSingly
    rw [if_neg (Nat.not_lt.mpr e.small)]
    split
    · exact List.cons_prefix_cons.mpr ⟨rfl, sendSingly_takes spans _⟩
    · exact List.nil_prefix
    · exact List.nil_prefix
    · exact List.nil_prefix

/-- A count is the number of datagrams that went out, from the front. -/
theorem sendSpans_count {spans : List Emission} {answer : SocketAnswer} {k : Nat}
    (h : (sendSpans spans answer).2 = some k) :
    (sendSpans spans answer).1 = spans.take k ∧ k ≤ spans.length := by
  cases answer with
  | batch n =>
    cases n with
    | none => cases h
    | some n =>
      cases h
      exact ⟨rfl, Nat.le_trans (Nat.min_le_right _ _) (Nat.min_le_left _ _)⟩
  | single answers => exact sendSingly_count spans answers k h

theorem sendSpans_takes (spans : List Emission) (answer : SocketAnswer) :
    (sendSpans spans answer).1 <+: spans := by
  cases answer with
  | batch n =>
    cases n with
    | none => exact List.nil_prefix
    | some n => exact List.take_prefix _ _
  | single answers => exact sendSingly_takes spans answers

/-- The step keeps the order: an error follows no datagram of the same call, and `drain_batches`
sends nothing over a backlog it has parked. -/
def inTurn (s : Outbound) : Event → Bool
  | .sent answer =>
    match s.draining with
    | .sendingParked _ take =>
      decide ((sendSpans take answer).2 = none → (sendSpans take answer).1 = [])
    | .sendingBatch _ allowed _ =>
      decide ((sendSpans allowed answer).2 = none → (sendSpans allowed answer).1 = []) &&
        (decide (s.parked = []) || decide ((sendSpans allowed answer).1 = []))
    | _ => true
  | _ => true

/-- A state and one with the same backlog, logs and batches. -/
theorem Inv.of_eq {s s' : Outbound} (h : Inv s) (hstaging : s'.staging = s.staging)
    (hspans : s'.spans = s.spans) (hbytes : s'.parkedBytes = s.parkedBytes)
    (hparked : s'.parked = s.parked) (hdiscards : s'.discards = s.discards) : Inv s' := by
  refine ⟨?_, ?_, ?_⟩
  · rw [hspans, hstaging]
    exact h.staged
  · rw [hbytes, hparked]
    exact h.bytes
  · rw [hdiscards]
    exact h.bound

theorem Inv.park {s : Outbound} (h : Inv s) (buf : Bytes) (spans : List Emission) :
    Inv (s.park buf spans) := by
  rw [Outbound.park]
  split
  · exact h
  · split
    case isTrue hover =>
      refine ⟨h.staged, h.bytes, fun d hd => ?_⟩
      rcases List.mem_append.mp hd with hd | hd
      · exact h.bound d hd
      · rw [List.mem_singleton.mp hd]
        exact hover
    case isFalse =>
      refine ⟨h.staged, ?_, h.bound⟩
      change s.parkedBytes + spanBytes spans = _
      rw [h.bytes, List.map_append, List.sum_append]
      simp

theorem Inv.parkFront {s : Outbound} (h : Inv s) (buf : Bytes) (spans : List Emission) :
    Inv (s.parkFront buf spans) := by
  rw [Outbound.parkFront]
  split
  · exact h
  · refine ⟨h.staged, ?_, h.bound⟩
    change s.parkedBytes + spanBytes spans = _
    rw [h.bytes, List.map_cons, List.sum_cons, Nat.add_comm]

theorem sum_keepFront (buf : Bytes) (rest : List Emission) (parked : List ParkedBatch) :
    ((keepFront buf rest parked).map fun p => spanBytes p.spans).sum =
      spanBytes rest + (parked.map fun p => spanBytes p.spans).sum := by
  rw [keepFront]
  split
  case isTrue hnil =>
    rw [hnil]
    simp [spanBytes]
  case isFalse => rfl

/-- A turn of `drain_parked` takes what it sends from the front of the backlog. -/
theorem parkedTurn_moved {s : Outbound} (hd : s.draining = .parked) (overdue : Bool)
    (allows : List Bool) : Moved s (s.parkedTurn overdue allows) := by
  have hmiddle : s.middleLine = s.parkedLine := by rw [middleLine, hd]
  rw [parkedTurn]
  split
  case h_1 =>
    refine Moved.same ?_ rfl rfl
    rw [line, line, hmiddle]
    rfl
  case h_2 front parked hparked =>
    simp only
    split
    case isTrue =>
      refine Moved.same ?_ rfl rfl
      rw [line, line, hmiddle]
      rfl
    case isFalse =>
      refine Moved.same ?_ rfl rfl
      rw [line, line, hmiddle]
      simp only [middleLine, parkedLine, freshLine, flatMap_keepFront, hparked, List.flatMap_cons]
      conv_rhs => rw [← letThrough_append overdue front.spans allows, datagrams_append]
      simp only [List.append_assoc]

theorem Inv.parkedTurn {s : Outbound} (h : Inv s) (overdue : Bool) (allows : List Bool) :
    Inv (s.parkedTurn overdue allows) := by
  rw [Outbound.parkedTurn]
  split
  case h_1 => exact h.of_eq rfl rfl rfl rfl rfl
  case h_2 front parked hparked =>
    simp only
    split
    case isTrue => exact h.of_eq rfl rfl rfl rfl rfl
    case isFalse =>
      refine ⟨h.staged, ?_, h.bound⟩
      have hsplit := congrArg spanBytes (letThrough_append overdue front.spans allows)
      have hbytes := h.bytes
      rw [hparked, List.map_cons, List.sum_cons, ← hsplit, spanBytes_append] at hbytes
      simp only [sum_keepFront]
      omega

/-- What stays of the spans after a send in turn, behind what went out. -/
theorem unsent_cases {spans : List Emission} {answer : SocketAnswer}
    (hturn : (sendSpans spans answer).2 = none → (sendSpans spans answer).1 = []) :
    (∃ k, (sendSpans spans answer).2 = some k ∧ (sendSpans spans answer).1 = spans.take k ∧
        k ≤ spans.length) ∨
      (sendSpans spans answer).2 = none ∧ (sendSpans spans answer).1 = [] := by
  cases hcount : (sendSpans spans answer).2 with
  | none =>
    right
    exact ⟨rfl, hturn hcount⟩
  | some k =>
    left
    exact ⟨k, rfl, (sendSpans_count hcount).1, (sendSpans_count hcount).2⟩

/-- What `drain_parked` did not get rid of goes back to the front. -/
theorem parkedSent_moved {s : Outbound} {buf : Bytes} {take : List Emission}
    (hd : s.draining = .sendingParked buf take) {answer : SocketAnswer}
    (hturn : (sendSpans take answer).2 = none → (sendSpans take answer).1 = []) :
    Moved s (s.parkedSent buf take answer) := by
  have hmiddle : s.middleLine = datagrams buf take ++ s.parkedLine := by rw [middleLine, hd]
  have hback : ∀ (out rest : List Emission), out ++ rest = take →
      Moved s { ({ s with wire := s.wire ++ datagrams buf out } : Outbound).parkFront buf rest with
        draining := .idle } := by
    intro out rest hsplit
    obtain ⟨hwire, hfresh, hemitted, hlost⟩ :=
      ({ s with wire := s.wire ++ datagrams buf out } : Outbound).parkFront_frame buf rest
    refine Moved.same ?_ hlost hemitted
    rw [line, line, hmiddle, ← hsplit]
    change Outbound.wire _ ++ parkedLine (parkFront _ buf rest)
      ++ freshLine (parkFront _ buf rest) = _
    rw [parkedLine_parkFront, hfresh]
    change Outbound.wire (parkFront _ buf rest) ++ _ ++ _ = _
    rw [hwire, datagrams_append]
    simp only [List.append_assoc]
    rfl
  rw [parkedSent]
  obtain ⟨k, hcount, hout, hk⟩ | ⟨hcount, hout⟩ := unsent_cases hturn
  · simp only [hcount, hout]
    split
    case isTrue => exact hback _ _ (List.take_append_drop k take)
    case isFalse hall =>
      have htake : take.take k = take := List.take_of_length_le (by omega)
      refine Moved.same ?_ rfl rfl
      rw [line, line, hmiddle, htake]
      change s.wire ++ datagrams buf take ++ s.parkedLine ++ s.freshLine = _
      simp only [List.append_assoc]
  · simp only [hcount, hout]
    exact hback [] take rfl

/-- What `drain_batches` did not get rid of goes behind the backlog, or is dropped. -/
theorem batchSent_moved {s : Outbound} {buf : Bytes} {allowed denied : List Emission}
    (hd : s.draining = .sendingBatch buf allowed denied) {answer : SocketAnswer}
    (hturn : (sendSpans allowed answer).2 = none → (sendSpans allowed answer).1 = [])
    (hover : s.parked = [] ∨ (sendSpans allowed answer).1 = []) :
    Moved s (s.batchSent buf allowed denied answer) := by
  have hline : s.line =
      s.wire ++ (s.parkedLine ++ datagrams buf (allowed ++ denied)) ++ s.freshLine := by
    rw [line, middleLine, hd]
  have hpark : ∀ (out rest : List Emission) (next : Draining), out ++ rest = allowed →
      (s.parked = [] ∨ out = []) → next = .idle ∨ next = .batches →
      Moved s { ({ s with wire := s.wire ++ datagrams buf out } : Outbound).park buf
        (rest ++ denied) with draining := next } := by
    intro out rest next hsplit hempty hnext
    obtain ⟨hwire, hfresh, hemitted⟩ :=
      ({ s with wire := s.wire ++ datagrams buf out } : Outbound).park_frame buf (rest ++ denied)
    -- Either the backlog is empty or nothing went out, so the two change places.
    have hswap : s.wire ++ (s.parkedLine ++ datagrams buf (allowed ++ denied)) ++ s.freshLine =
        (s.wire ++ datagrams buf out ++ s.parkedLine) ++ datagrams buf (rest ++ denied) ++
          s.freshLine := by
      rw [← hsplit]
      rcases hempty with hnil | hnil
      · simp [parkedLine, hnil]
      · simp [hnil]
    have hnew : ∀ t : Outbound, line { t with draining := next } =
        t.wire ++ t.parkedLine ++ t.freshLine := by
      intro t
      rcases hnext with rfl | rfl
      · rfl
      · rfl
    obtain ⟨hparked, hlost⟩ | ⟨hparked, hlost⟩ :=
      ({ s with wire := s.wire ++ datagrams buf out } : Outbound).park_cases buf (rest ++ denied)
    · refine Moved.same ?_ hlost hemitted
      rw [hnew, hline, hswap, hwire, hfresh, hparked]
      simp only [List.append_assoc]
      rfl
    · refine Moved.dropped (s.wire ++ datagrams buf out ++ s.parkedLine)
        (datagrams buf (rest ++ denied)) s.freshLine ?_ ?_ hlost hemitted
      · rw [hline, hswap]
      · rw [hnew, hwire, hfresh, hparked]
        rfl
  rw [batchSent]
  obtain ⟨k, hcount, hout, hk⟩ | ⟨hcount, hout⟩ := unsent_cases hturn
  · simp only [hcount, hout]
    rw [hout] at hover
    refine hpark _ _ _ (List.take_append_drop k allowed) hover ?_
    split
    · exact Or.inl rfl
    · exact Or.inr rfl
  · simp only [hcount, hout]
    exact hpark [] allowed .idle rfl (Or.inr rfl) (Or.inl rfl)

/-- A turn of `drain_batches` takes a batch in hand, or puts it behind the backlog. -/
theorem batchTurn_moved {s : Outbound} (hd : s.draining = .batches) (allows : List Bool) :
    Moved s (s.batchTurn allows) := by
  have hline : s.line = s.wire ++ s.parkedLine ++ s.freshLine := by rw [line, middleLine, hd]
  rw [batchTurn]
  split
  case h_1 =>
    refine Moved.same ?_ rfl rfl
    rw [hline]
    rfl
  case h_2 batch channel hchannel =>
    have hfresh : s.freshLine = datagrams batch.buf batch.spans ++
        freshLine { s with channel := channel } := by
      rw [freshLine, freshLine, hchannel]
      simp
    simp only
    split
    case isTrue hnone =>
      have hall := letThrough_append false batch.spans allows
      rw [hnone, List.nil_append] at hall
      rw [hall]
      obtain ⟨hwire, hfresh', hemitted⟩ :=
        ({ s with channel := channel } : Outbound).park_frame batch.buf batch.spans
      have hnew : ∀ t : Outbound, line { t with draining := .idle } =
          t.wire ++ t.parkedLine ++ t.freshLine := fun _ => rfl
      obtain ⟨hparked, hlost⟩ | ⟨hparked, hlost⟩ :=
        ({ s with channel := channel } : Outbound).park_cases batch.buf batch.spans
      · refine Moved.same ?_ hlost hemitted
        rw [hnew, hline, hfresh, hwire, hfresh', hparked]
        simp only [List.append_assoc]
        rfl
      · refine Moved.dropped (s.wire ++ s.parkedLine) (datagrams batch.buf batch.spans)
          (freshLine { s with channel := channel }) ?_ ?_ hlost hemitted
        · rw [hline, hfresh]
          simp only [List.append_assoc]
        · rw [hnew, hwire, hfresh', hparked]
          rfl
    case isFalse =>
      refine Moved.same ?_ rfl rfl
      rw [hline, hfresh, line, middleLine]
      simp only [letThrough_append]
      simp only [List.append_assoc]
      rfl

/-! ## 10. The step -/

theorem Inv.parkedSent {s : Outbound} (h : Inv s) (buf : Bytes) (take : List Emission)
    (answer : SocketAnswer) : Inv (s.parkedSent buf take answer) := by
  have hfront : ∀ spans : List Emission, Inv { ({ s with
      wire := s.wire ++ datagrams buf (sendSpans take answer).1 } : Outbound).parkFront buf spans
      with draining := .idle } := by
    intro spans
    have hwire : Inv { s with wire := s.wire ++ datagrams buf (sendSpans take answer).1 } :=
      h.of_eq rfl rfl rfl rfl rfl
    exact (hwire.parkFront buf spans).of_eq rfl rfl rfl rfl rfl
  rw [Outbound.parkedSent]
  simp only
  split
  case h_1 k _ =>
    split
    · exact hfront _
    · exact h.of_eq rfl rfl rfl rfl rfl
  case h_2 => exact hfront _

theorem Inv.batchTurn {s : Outbound} (h : Inv s) (allows : List Bool) :
    Inv (s.batchTurn allows) := by
  rw [Outbound.batchTurn]
  split
  case h_1 => exact h.of_eq rfl rfl rfl rfl rfl
  case h_2 batch channel _ =>
    have hchannel : Inv { s with channel := channel } := h.of_eq rfl rfl rfl rfl rfl
    simp only
    split
    · exact (hchannel.park _ _).of_eq rfl rfl rfl rfl rfl
    · exact h.of_eq rfl rfl rfl rfl rfl

theorem Inv.batchSent {s : Outbound} (h : Inv s) (buf : Bytes) (allowed denied : List Emission)
    (answer : SocketAnswer) : Inv (s.batchSent buf allowed denied answer) := by
  have hwire : Inv { s with wire := s.wire ++ datagrams buf (sendSpans allowed answer).1 } :=
    h.of_eq rfl rfl rfl rfl rfl
  rw [Outbound.batchSent]
  simp only
  split
  · exact (hwire.park _ _).of_eq rfl rfl rfl rfl rfl
  · exact (hwire.park _ _).of_eq rfl rfl rfl rfl rfl

/-- Every step keeps the backlog's accounts, and a step in turn moves the line on. -/
theorem Inv.step {s s' : Outbound} {e : Event} (h : Inv s) (hs : s.step e = some s') :
    Inv s' ∧ (s.inTurn e = true → Moved s s') := by
  cases e with
  | write buf =>
    simp only [Outbound.step] at hs
    split at hs
    · cases hs
      exact ⟨(h.write buf _).1, fun _ => (h.write buf _).2⟩
    · cases hs
  | writeDatagram header payload =>
    simp only [Outbound.step] at hs
    split at hs
    case isTrue hfits =>
      cases hs
      have hw := h.writeDatagram payload hfits.2.1 (by rw [hfits.2.1]; decide)
        (by rw [← hfits.2.1]; exact Nat.le_trans hfits.2.2 (by decide))
      exact ⟨hw.1, fun _ => hw.2⟩
    case isFalse => cases hs
  | flush =>
    simp only [Outbound.step] at hs
    split at hs
    · cases hs
      exact ⟨h.emit, fun _ => Moved.same s.emit_line.1 s.emit_line.2 s.emit_frame.2.2.2.2.2.1⟩
    · cases hs
  | drain =>
    simp only [Outbound.step] at hs
    split at hs
    case isTrue hidle =>
      cases hs
      refine ⟨h.of_eq rfl rfl rfl rfl rfl, fun _ => Moved.same ?_ rfl rfl⟩
      rw [line, line, middleLine, middleLine, drainDgrams, hidle]
      by_cases hp : s.parked = []
      · simp only [if_pos hp]
        rfl
      · simp only [if_neg hp]
        rfl
    case isFalse => cases hs
  | turn overdue allows =>
    simp only [Outbound.step] at hs
    split at hs
    case h_1 hd =>
      cases hs
      exact ⟨h.parkedTurn overdue allows, fun _ => parkedTurn_moved hd overdue allows⟩
    case h_2 hd =>
      cases hs
      exact ⟨h.batchTurn allows, fun _ => batchTurn_moved hd allows⟩
    case h_3 => cases hs
  | sent answer =>
    simp only [Outbound.step] at hs
    split at hs
    case h_1 buf take hd =>
      cases hs
      refine ⟨h.parkedSent buf take answer, fun hturn => parkedSent_moved hd ?_⟩
      rw [inTurn, hd] at hturn
      exact of_decide_eq_true hturn
    case h_2 buf allowed denied hd =>
      cases hs
      refine ⟨h.batchSent buf allowed denied answer, fun hturn => ?_⟩
      rw [inTurn, hd] at hturn
      simp only [Bool.and_eq_true, Bool.or_eq_true, decide_eq_true_eq] at hturn
      exact batchSent_moved hd hturn.1 hturn.2
    case h_3 => cases hs

theorem inv_new : Inv Outbound.new := ⟨nofun, rfl, nofun⟩

theorem faithful_new : Faithful Outbound.new := ⟨List.Sublist.refl _, List.Perm.refl _⟩

theorem inv_of_reach {s : Outbound} (h : outbound.Reach s) : Inv s := by
  refine h.invariant (P := Inv) ?_ ?_
  · rintro _ rfl
    exact inv_new
  · intro s e s' hinv hs
    exact (hinv.step hs).1

theorem faithful_of_inTurn {s : Outbound}
    (h : (outbound.restrict fun s e => s.inTurn e = true).Reach s) : Inv s ∧ Faithful s := by
  refine h.invariant (P := fun s => Inv s ∧ Faithful s) ?_ ?_
  · rintro _ rfl
    exact ⟨inv_new, faithful_new⟩
  · rintro s e s' ⟨hinv, hf⟩ ⟨hturn, hs⟩
    obtain ⟨hinv', hmoved⟩ := hinv.step hs
    exact ⟨hinv', hf.of_moved (hmoved hturn)⟩

/-! ## 11. A step out of turn -/

/-- The places in the order of emission go up. -/
theorem zipIdx_pairwise (l : List Bytes) : l.zipIdx.Pairwise fun x y => x.2 < y.2 := by
  have h : (l.zipIdx.map Prod.snd).Pairwise (· < ·) := by
    rw [List.zipIdx_map_snd]
    exact List.pairwise_lt_range'
  exact List.pairwise_map.mp h

/-- A datagram on the wire is nowhere else. -/
theorem Faithful.not_twice {s : Outbound} (h : Faithful s) {x : Datagram} (hwire : x ∈ s.wire) :
    x ∉ s.middleLine ∧ x ∉ s.lost := by
  have hnodup : (s.line ++ s.lost).Nodup := by
    rw [h.complete.nodup_iff]
    exact (zipIdx_pairwise s.emitted).imp fun hlt heq => by
      rw [heq] at hlt
      exact Nat.lt_irrefl _ hlt
  rw [line, List.append_assoc, List.append_assoc, List.nodup_append] at hnodup
  constructor
  · intro hx
    exact hnodup.2.2 x hwire x (List.mem_append_left _ hx) rfl
  · intro hx
    exact hnodup.2.2 x hwire x
      (List.mem_append_right _ (List.mem_append_right _ hx)) rfl

/-- What is on the wire comes before what is behind it. -/
theorem Faithful.wire_lt {s : Outbound} (h : Faithful s) {x y : Datagram} (hx : x ∈ s.wire)
    (hy : y ∈ s.middleLine) : x.2 < y.2 := by
  have hpair := (zipIdx_pairwise s.emitted).sublist h.ordered
  rw [line, List.append_assoc, List.pairwise_append] at hpair
  exact hpair.2.2 x hx y (List.mem_append_left _ hy)

/-- The backlog comes before a batch in hand. -/
theorem Faithful.parked_lt {s : Outbound} (h : Faithful s) {buf : Bytes}
    {allowed denied : List Emission} (hd : s.draining = .sendingBatch buf allowed denied)
    {x y : Datagram} (hx : x ∈ s.parkedLine) (hy : y ∈ datagrams buf allowed) : x.2 < y.2 := by
  have hmiddle :
      s.middleLine = s.parkedLine ++ (datagrams buf allowed ++ datagrams buf denied) := by
    rw [middleLine, hd, ← datagrams_append]
  have hpair := (zipIdx_pairwise s.emitted).sublist h.ordered
  rw [line, hmiddle, List.append_assoc] at hpair
  have hbacklog := (List.pairwise_append.mp (List.pairwise_append.mp hpair).2.1).1
  exact (List.pairwise_append.mp hbacklog).2.2 x hx y (List.mem_append_left _ hy)

theorem parkedLine_ne_nil {s : Outbound} (h : s.parked ≠ []) : ∃ x, x ∈ s.parkedLine := by
  obtain ⟨batch, rest, hparked⟩ := List.exists_cons_of_ne_nil h
  obtain ⟨e, spans, hspans⟩ := List.exists_cons_of_ne_nil batch.nonempty
  refine ⟨(e.span.datagram batch.buf, e.no), ?_⟩
  rw [parkedLine, hparked, List.flatMap_cons, hspans]
  simp [datagrams]

/-- The datagrams of spans that go out are among those of the spans. -/
theorem mem_datagrams_of_sent {buf : Bytes} {spans : List Emission} {answer : SocketAnswer}
    {x : Datagram} (hx : x ∈ datagrams buf (sendSpans spans answer).1) : x ∈ datagrams buf spans :=
  List.map_subset _ (sendSpans_takes spans answer).subset hx

theorem exists_datagram {spans : List Emission} (h : spans ≠ []) (buf : Bytes) :
    ∃ x, x ∈ datagrams buf spans := by
  obtain ⟨e, rest, rfl⟩ := List.exists_cons_of_ne_nil h
  exact ⟨(e.span.datagram buf, e.no), List.mem_cons_self⟩

/-- An error behind a datagram of the same call sends that datagram back to the backlog. -/
theorem parkedSent_twice {s : Outbound} {buf : Bytes} {take : List Emission}
    {answer : SocketAnswer} (hcount : (sendSpans take answer).2 = none)
    (hout : (sendSpans take answer).1 ≠ []) : ¬ Faithful (s.parkedSent buf take answer) := by
  intro hf
  obtain ⟨x, hx⟩ := exists_datagram hout buf
  have hfront := ({ s with
    wire := s.wire ++ datagrams buf (sendSpans take answer).1 } : Outbound).parkFront_frame buf take
  rw [parkedSent] at hf
  simp only [hcount] at hf
  refine (hf.not_twice (x := x) ?_).1 ?_
  · change x ∈ Outbound.wire (parkFront _ buf take)
    rw [hfront.1]
    exact List.mem_append_right _ hx
  · change x ∈ parkedLine (parkFront _ buf take)
    rw [parkedLine_parkFront]
    exact List.mem_append_left _ (mem_datagrams_of_sent hx)

/-- An error behind a datagram of the same call parks that datagram again, or drops it. -/
theorem batchSent_twice {s : Outbound} {buf : Bytes} {allowed denied : List Emission}
    {answer : SocketAnswer} (hcount : (sendSpans allowed answer).2 = none)
    (hout : (sendSpans allowed answer).1 ≠ []) :
    ¬ Faithful (s.batchSent buf allowed denied answer) := by
  intro hf
  obtain ⟨x, hx⟩ := exists_datagram hout buf
  have hmem : x ∈ datagrams buf (allowed ++ denied) := by
    rw [datagrams_append]
    exact List.mem_append_left _ (mem_datagrams_of_sent hx)
  have hframe := ({ s with wire := s.wire ++ datagrams buf (sendSpans allowed answer).1 } :
    Outbound).park_frame buf (allowed ++ denied)
  have hcases := ({ s with wire := s.wire ++ datagrams buf (sendSpans allowed answer).1 } :
    Outbound).park_cases buf (allowed ++ denied)
  rw [batchSent] at hf
  simp only [hcount] at hf
  have htwice := hf.not_twice (x := x) (by
    change x ∈ Outbound.wire (park _ buf (allowed ++ denied))
    rw [hframe.1]
    exact List.mem_append_right _ hx)
  rcases hcases with ⟨hparked, -⟩ | ⟨-, hlost⟩
  · refine htwice.1 ?_
    change x ∈ parkedLine (park _ buf (allowed ++ denied))
    rw [hparked]
    exact List.mem_append_right _ hmem
  · refine htwice.2 ?_
    change x ∈ lost (park _ buf (allowed ++ denied))
    rw [hlost]
    exact List.mem_append_right _ hmem

/-- A datagram sent over a backlog passes it. -/
theorem batchSent_overtakes {s : Outbound} (h : Faithful s) {buf : Bytes}
    {allowed denied : List Emission} (hd : s.draining = .sendingBatch buf allowed denied)
    {answer : SocketAnswer} (hparked : s.parked ≠ []) (hout : (sendSpans allowed answer).1 ≠ []) :
    ¬ Faithful (s.batchSent buf allowed denied answer) := by
  intro hf
  obtain ⟨x, hx⟩ := exists_datagram hout buf
  obtain ⟨y, hy⟩ := parkedLine_ne_nil hparked
  have hlt := h.parked_lt hd hy (mem_datagrams_of_sent hx)
  have hstays : ∀ (rest : List Emission), x ∈ Outbound.wire (({ s with
        wire := s.wire ++ datagrams buf (sendSpans allowed answer).1 } : Outbound).park buf rest) ∧
      y ∈ parkedLine (({ s with
        wire := s.wire ++ datagrams buf (sendSpans allowed answer).1 } : Outbound).park buf rest) := by
    intro rest
    constructor
    · rw [(park_frame _ buf rest).1]
      exact List.mem_append_right _ hx
    · rcases park_cases ({ s with
        wire := s.wire ++ datagrams buf (sendSpans allowed answer).1 } : Outbound) buf rest with
        ⟨hline, -⟩ | ⟨hline, -⟩
      · rw [hline]
        exact List.mem_append_left _ hy
      · rw [hline]
        exact hy
  have hgt : x.2 < y.2 := by
    rw [batchSent] at hf
    simp only at hf
    split at hf
    case h_1 k hcount =>
      by_cases hk : k < allowed.length
      · rw [if_pos hk] at hf
        exact hf.wire_lt (hstays _).1 (hstays _).2
      · rw [if_neg hk] at hf
        exact hf.wire_lt (hstays _).1 (hstays _).2
    case h_2 hcount => exact hf.wire_lt (hstays _).1 (hstays _).2
  omega

/-- **A step keeps the order exactly when it is in turn.** -/
theorem faithful_iff_inTurn {s s' : Outbound} {e : Event} (hinv : Inv s) (h : Faithful s)
    (hs : s.step e = some s') : Faithful s' ↔ s.inTurn e = true := by
  constructor
  · intro hf
    by_contra hturn
    cases e with
    | sent answer =>
      simp only [Outbound.step] at hs
      split at hs
      case h_1 buf take hd =>
        cases hs
        rw [inTurn, hd] at hturn
        simp only [decide_eq_true_eq, not_forall] at hturn
        obtain ⟨hcount, hout⟩ := hturn
        exact parkedSent_twice hcount hout hf
      case h_2 buf allowed denied hd =>
        cases hs
        rw [inTurn, hd] at hturn
        simp only [Bool.and_eq_true, Bool.or_eq_true, decide_eq_true_eq, not_and_or, not_forall,
          not_or] at hturn
        rcases hturn with ⟨hcount, hout⟩ | ⟨hparked, hout⟩
        · exact batchSent_twice hcount hout hf
        · exact batchSent_overtakes h hd hparked hout hf
      case h_3 => cases hs
    | _ => exact hturn rfl
  · intro hturn
    exact h.of_moved ((hinv.step hs).2 hturn)

/-- **The order on the wire.**  In every run `parked_bytes` is the length of what is parked, and
what was dropped would have passed the bound.  In a run whose steps are in turn the datagrams leave
in the order of emission, each at most once, and all others are still held in that order or were
dropped; and a next step breaks this exactly when it is not in turn. -/
theorem datagram_order (s : Outbound) :
    (outbound.Reach s →
      s.parkedBytes = (s.parked.map fun p => spanBytes p.spans).sum ∧
      ∀ d ∈ s.discards, parkedMaxBytes < d.backlog + spanBytes d.spans) ∧
    ((outbound.restrict fun s e => s.inTurn e = true).Reach s →
      s.wire.Sublist s.emitted.zipIdx ∧ Faithful s ∧
      ∀ e s', s.step e = some s' → (Faithful s' ↔ s.inTurn e = true)) := by
  constructor
  · intro h
    have hinv := inv_of_reach h
    exact ⟨hinv.bytes, hinv.bound⟩
  · intro h
    obtain ⟨hinv, hf⟩ := faithful_of_inTurn h
    have hwire : s.wire.Sublist s.line := by
      rw [line, List.append_assoc]
      exact List.sublist_append_left _ _
    exact ⟨hwire.trans hf.ordered, hf, fun e s' => faithful_iff_inTurn hinv hf⟩

/-! ## 12. Runs on fixed inputs -/

/-- Two batches, of two datagrams and of one; the pacer refuses the second datagram. -/
def refusedSecond : List Event :=
  [.write [1], .write [2], .flush, .write [3], .flush, .drain, .turn false [true, false],
    .sent (.batch (some 1))]

/-- The pacer refuses the third datagram too, and the backlog goes out when it is overdue. -/
theorem datagram_order_overdue :
    ∃ s : Outbound, s.wire = [([1], 0), ([2], 1), ([3], 2)] ∧ s.parkedBytes = 0 ∧
      s.wire.Sublist s.emitted.zipIdx := by
  have hrun : (Lts.runWith Outbound.step Outbound.inTurn Outbound.new (refusedSecond ++
      [.turn false [false], .drain, .turn true [], .sent (.batch (some 1)), .turn true [],
        .sent (.single [.ok])])).any
      (fun s => s.wire = [([1], 0), ([2], 1), ([3], 2)] ∧ s.parkedBytes = 0) = true := by
    decide +kernel
  obtain ⟨s, hs, hp⟩ := Lts.Reach.exists_runWith (T := outbound)
    (C := fun s e => s.inTurn e = true) (fun _ _ _ h => h) (fun _ _ h => h) rfl hrun
  obtain ⟨hwire, hbytes⟩ := of_decide_eq_true hp
  exact ⟨s, hwire, hbytes, ((datagram_order s).2 hs).1⟩

/-- **A later datagram passes a refused one.**  The first batch has gone out but for its refused
datagram, and `drain_batches` goes on to the second, which the pacer allows. -/
theorem newer_overtakes :
    ∃ s : Outbound, outbound.Reach s ∧ s.emitted = [[1], [2], [3]] ∧ s.discards = [] ∧
      s.wire = [([1], 0), ([3], 2), ([2], 1)] ∧ ¬ s.wire.Sublist s.emitted.zipIdx := by
  have hrun : (Lts.runWith Outbound.step (fun _ _ => true) Outbound.new (refusedSecond ++
      [.turn false [true], .sent (.batch (some 1)), .turn false [], .drain, .turn false [true],
        .sent (.batch (some 1))])).any
      (fun s => s.emitted = [[1], [2], [3]] ∧ s.discards = [] ∧
        s.wire = [([1], 0), ([3], 2), ([2], 1)]) = true := by
    decide +kernel
  obtain ⟨s, hs, hp⟩ := Lts.Reach.exists_run (T := outbound) (fun _ _ _ h => h) rfl hrun
  obtain ⟨hemitted, hdiscards, hwire⟩ := of_decide_eq_true hp
  refine ⟨s, hs, hemitted, hdiscards, hwire, ?_⟩
  rw [hwire, hemitted]
  decide

end Outbound

end Molehill
