/-
# Frames on the multiplexed connection

`frame::Io` writes frames to the socket and reads frames off it, one state machine each.  A frame
with a short body is written as one buffer, another one in two phases, header and body; either way
the socket may take any part of what it is offered, or wait, and the machine goes on where it
stopped.  The reader fills a header and then a body, as much as each read gives.

`Written` is the writer's invariant: what was emitted and what is still in the machine are the
plain encodings of the frames that were started, in order.  `Reading` is the reader's: what it
holds and what is on the wire are the encodings of the frames not yet handed out.  A frame whose
body is over the reader's limit is written in full and refused by the reader
(`large_frame_refused`); no other is.
-/
import Mathlib.Data.List.Basic
import Molehill.Lib.Bytes
import Molehill.Lib.Transition

namespace Molehill.Mux.FrameIo

open Lib

/-! ## 1. Headers -/

/-- In the order that gives the tags. -/
inductive Tag
  | data
  | windowUpdate
  | ping
  | goAway
  deriving DecidableEq

def Tag.toByte : Tag → Byte
  | data => 0
  | windowUpdate => 1
  | ping => 2
  | goAway => 3

/-- `Header`.  The version is 0 in every header there is. -/
structure Header where
  tag : Tag
  flags : U16
  streamId : U32
  length : U32
  deriving DecidableEq

def headerSize : Nat := 12

/-- `header::encode`. -/
def Header.encode (h : Header) : Bytes :=
  0 :: h.tag.toByte ::
    (beBytes 2 h.flags.toNat ++ (beBytes 4 h.streamId.toNat ++ beBytes 4 h.length.toNat))

inductive HeaderDecodeError
  | version (v : Byte)
  | type (t : Byte)
  deriving DecidableEq

/-- The field of `k` bytes at an offset. -/
def field (buf : Bytes) (i k : Nat) : Nat := ofBe ((buf.drop i).take k)

/-- `header::decode`. -/
def Header.decode (buf : Bytes) : Except HeaderDecodeError Header :=
  if buf.getD 0 0 ≠ 0 then .error (.version (buf.getD 0 0))
  else
    let fields (tag : Tag) : Header :=
      ⟨tag, BitVec.ofNat 16 (field buf 2 2), BitVec.ofNat 32 (field buf 4 4),
        BitVec.ofNat 32 (field buf 8 4)⟩
    match (buf.getD 1 0).toNat with
    | 0 => .ok (fields .data)
    | 1 => .ok (fields .windowUpdate)
    | 2 => .ok (fields .ping)
    | 3 => .ok (fields .goAway)
    | _ => .error (.type (buf.getD 1 0))

/-- A frame.  Its constructors give the length of its body to a data frame's header, and no other
frame has a body. -/
structure Frame where
  header : Header
  body : Bytes
  length : header.tag = .data → header.length.toNat = body.length
  bodyless : header.tag ≠ .data → body = []
  deriving DecidableEq

/-- `Frame::new`, for the frames without a body that are not data. -/
def Frame.control (header : Header) (h : header.tag ≠ .data) : Frame where
  header := header
  body := []
  length := fun hdata => absurd hdata h
  bodyless := fun _ => rfl

/-- The plain encoding. -/
def Frame.bytes (f : Frame) : Bytes := f.header.encode ++ f.body

@[simp] theorem Header.encode_length (h : Header) : h.encode.length = headerSize := by
  simp [Header.encode, headerSize]

/-- **A header is read back.** -/
theorem Header.decode_encode (h : Header) : Header.decode h.encode = .ok h := by
  have hbe : ∀ k n, n < 256 ^ k → ofBe (beBytes k n) = n := by
    intro k n hn
    rw [ofBe_beBytes, Nat.mod_eq_of_lt hn]
  have hflags : field h.encode 2 2 = h.flags.toNat := by
    rw [field, Header.encode]
    simp only [List.drop_succ_cons, List.drop_zero]
    rw [List.take_left' (beBytes_length 2 _)]
    exact hbe 2 _ h.flags.isLt
  have hid : field h.encode 4 4 = h.streamId.toNat := by
    rw [field, Header.encode]
    simp only [List.drop_succ_cons]
    rw [List.drop_left' (beBytes_length 2 _), List.take_left' (beBytes_length 4 _)]
    exact hbe 4 _ h.streamId.isLt
  have hlength : field h.encode 8 4 = h.length.toNat := by
    rw [field, Header.encode]
    simp only [List.drop_succ_cons]
    rw [← List.append_assoc, List.drop_left' (by simp), List.take_of_length_le (by simp)]
    exact hbe 4 _ h.length.isLt
  have hversion : h.encode.getD 0 0 = 0 := rfl
  have htag : h.encode.getD 1 0 = h.tag.toByte := rfl
  rw [Header.decode, if_neg (by rw [hversion]; exact fun hne => hne rfl), htag, hflags, hid,
    hlength]
  simp only [BitVec.ofNat_toNat, BitVec.setWidth_eq]
  obtain ⟨tag, flags, streamId, length⟩ := h
  cases tag with
  | data | windowUpdate | ping | goAway => rfl

/-! ## 2. The writer -/

def coalesceBodyMax : Nat := 512

def maxFrameBodyLen : Nat := 1024 * 1024

inductive WriteState
  | init
  | header (header buffer : Bytes) (offset : Nat)
  | body (buffer : Bytes) (offset : Nat)
  | poisoned
  deriving DecidableEq

/-- `start_frame`. -/
def startFrame (f : Frame) : WriteState :=
  if f.body.length ≤ coalesceBodyMax then .body (f.header.encode ++ f.body) 0
  else .header f.header.encode f.body 0

/-- What the socket makes of one `poll_write`. -/
inductive Accept
  | pending
  | failed
  /-- It says that it took so many bytes. -/
  | took (n : Nat)
  deriving DecidableEq

inductive Drive
  | ready
  | pending
  | failed
  deriving DecidableEq

/-- What is offered to the socket. -/
def WriteState.offer : WriteState → Bytes
  | .header h _ offset => h.drop offset
  | .body buffer offset => buffer.drop offset
  | _ => []

/-- The machine when the socket said that it took `n` bytes. -/
def WriteState.advance (n : Nat) : WriteState → WriteState
  | .header h buffer offset =>
    if h.length < offset + n then .poisoned
    else if offset + n = h.length then
      if buffer = [] then .init else .body buffer 0
    else .header h buffer (offset + n)
  | .body buffer offset =>
    if buffer.length < offset + n then .poisoned
    else if offset + n = buffer.length then .init
    else .body buffer (offset + n)
  | s => s

/-- `drive_write`, over what the socket makes of each write: the result, the state and the bytes
that were emitted. -/
def driveWrite : List Accept → WriteState → Drive × WriteState × Bytes
  | _, .init => (.ready, .init, [])
  | _, .poisoned => (.failed, .poisoned, [])
  | [], s => (.pending, s, [])
  | .pending :: _, s => (.pending, s, [])
  | .failed :: _, s => (.failed, s, [])
  | .took n :: script, s =>
    -- a write of nothing is `WriteZero`
    if n = 0 then (.failed, s, [])
    else
      let r := driveWrite script (s.advance n)
      (r.1, r.2.1, s.offer.take n ++ r.2.2)

/-- What the machine has still to emit. -/
def WriteState.pending : WriteState → Bytes
  | .init => []
  | .header h buffer offset => h.drop offset ++ buffer
  | .body buffer offset => buffer.drop offset
  | .poisoned => []

theorem startFrame_pending (f : Frame) : (startFrame f).pending = f.bytes := by
  rw [startFrame]
  split
  · rfl
  · rfl

/-- What a write leaves of a buffer. -/
theorem take_append_drop_add (buffer : Bytes) (offset n : Nat) :
    (buffer.drop offset).take n ++ buffer.drop (offset + n) = buffer.drop offset := by
  rw [← List.drop_drop, List.take_append_drop]

/-- A write emits the next bytes; what is left is left in the machine, but for a socket that claims
more than it was offered. -/
theorem advance_pending (s : WriteState) (n : Nat) :
    ∃ rest, s.offer.take n ++ rest = s.pending ∧
      (s.advance n ≠ .poisoned → rest = (s.advance n).pending) := by
  cases s with
  | init | poisoned => exact ⟨[], List.append_nil _ ▸ List.take_nil, fun _ => rfl⟩
  | header h buffer offset =>
    have hsplit := take_append_drop_add h offset n
    refine ⟨h.drop (offset + n) ++ buffer, ?_, fun hne => ?_⟩
    · rw [WriteState.offer, ← List.append_assoc, hsplit]
      rfl
    · rw [WriteState.advance] at hne ⊢
      split at hne
      case isTrue => exact absurd rfl hne
      case isFalse hin =>
        rw [if_neg hin]
        split
        case isTrue hall =>
          rw [List.drop_of_length_le (Nat.le_of_eq hall.symm), List.nil_append]
          split
          case isTrue hempty => exact hempty
          case isFalse => rfl
        case isFalse => rfl
  | body buffer offset =>
    have hsplit := take_append_drop_add buffer offset n
    refine ⟨buffer.drop (offset + n), hsplit, fun hne => ?_⟩
    rw [WriteState.advance] at hne ⊢
    split at hne
    case isTrue => exact absurd rfl hne
    case isFalse hin =>
      rw [if_neg hin]
      split
      case isTrue hall => exact List.drop_of_length_le (Nat.le_of_eq hall.symm)
      case isFalse => rfl

/-- One write of a machine that has something to write. -/
theorem driveWrite_took {s : WriteState} (hinit : s ≠ .init) (hpoisoned : s ≠ .poisoned)
    {n : Nat} (hn : n ≠ 0) (script : List Accept) :
    driveWrite (.took n :: script) s =
      ((driveWrite script (s.advance n)).1, (driveWrite script (s.advance n)).2.1,
        s.offer.take n ++ (driveWrite script (s.advance n)).2.2) := by
  cases s with
  | init => exact absurd rfl hinit
  | poisoned => exact absurd rfl hpoisoned
  | header h buffer offset | body buffer offset => exact if_neg hn

/-- Otherwise nothing is emitted. -/
theorem driveWrite_quiet {script : List Accept} {s : WriteState}
    (h : ∀ n rest, script = .took n :: rest → n = 0 ∨ s = .init ∨ s = .poisoned) :
    (driveWrite script s).2 = (s, []) := by
  cases script with
  | nil =>
    cases s with
    | init | poisoned | header h buffer offset | body buffer offset => rfl
  | cons a script =>
    cases s with
    | init | poisoned => rfl
    | header hd buffer offset | body buffer offset =>
      cases a with
      | pending | failed => rfl
      | took n =>
        obtain hn | hend | hend := h n script rfl
        · rw [hn]
          rfl
        · cases hend
        · cases hend

/-- **Driving the writer emits the next bytes of what it has to emit**, whatever the socket takes
of each write. -/
theorem driveWrite_pending (script : List Accept) (s : WriteState) :
    ∃ rest, (driveWrite script s).2.2 ++ rest = s.pending ∧
      ((driveWrite script s).2.1 ≠ .poisoned → rest = (driveWrite script s).2.1.pending) := by
  have hquiet : ∀ {script : List Accept} {s : WriteState}, (driveWrite script s).2 = (s, []) →
      ∃ rest, (driveWrite script s).2.2 ++ rest = s.pending ∧
        ((driveWrite script s).2.1 ≠ .poisoned → rest = (driveWrite script s).2.1.pending) := by
    intro script s h
    rw [h]
    exact ⟨_, rfl, fun _ => rfl⟩
  induction script generalizing s with
  | nil => exact hquiet (driveWrite_quiet nofun)
  | cons a script ih =>
    by_cases hmoves : ∃ n, a = .took n ∧ n ≠ 0 ∧ s ≠ .init ∧ s ≠ .poisoned
    · obtain ⟨n, rfl, hn, hinit, hpoisoned⟩ := hmoves
      obtain ⟨rest, hrest, hleft⟩ := advance_pending s n
      obtain ⟨rest', hrest', hleft'⟩ := ih (s.advance n)
      rw [driveWrite_took hinit hpoisoned hn]
      by_cases hbroken : s.advance n = .poisoned
      · rw [hbroken, driveWrite_quiet (fun _ _ _ => Or.inr (Or.inr rfl))]
        refine ⟨rest, ?_, fun hne => absurd rfl hne⟩
        rw [List.append_nil]
        exact hrest
      · refine ⟨rest', ?_, hleft'⟩
        rw [List.append_assoc, hrest', ← hleft hbroken]
        exact hrest
    · refine hquiet (driveWrite_quiet ?_)
      intro n rest heq
      cases heq
      by_contra hall
      obtain ⟨hn, hend⟩ := not_or.mp hall
      obtain ⟨hinit, hpoisoned⟩ := not_or.mp hend
      exact hmoves ⟨n, rfl, hn, hinit, hpoisoned⟩

/-! ## 3. The reader -/

inductive ReadState
  | init
  | header (offset : Nat) (buffer : Bytes)
  | body (header : Header) (offset : Nat) (buffer : Bytes)
  deriving DecidableEq

/-- What a call of `poll_next_frame` comes to. -/
inductive ReadOutcome
  | frame (header : Header) (body : Bytes)
  | pending
  /-- The end of the stream, at a boundary. -/
  | ended
  | unexpectedEof
  | io
  | header (e : HeaderDecodeError)
  | frameTooLarge (n : Nat)
  deriving DecidableEq

/-- What the socket makes of one `poll_read`: it gives one byte and up to so many more, as far as
there are any. -/
inductive Give
  | pending
  | failed
  | gave (more : Nat)
  deriving DecidableEq

/-- The loop in `ReadState::Body`, up to its next read. -/
def settleBody (h : Header) (offset : Nat) (buffer : Bytes) : ReadState × Option ReadOutcome :=
  if offset = h.length.toNat then (.init, some (.frame h buffer))
  else (.body h offset buffer, none)

/-- The loop in `ReadState::Header`, up to its next read. -/
def settleHeader (offset : Nat) (buffer : Bytes) : ReadState × Option ReadOutcome :=
  if offset = headerSize then
    match Header.decode buffer with
    | .error e => (.header offset buffer, some (.header e))
    | .ok h =>
      if h.tag ≠ .data then (.init, some (.frame h []))
      else if maxFrameBodyLen < h.length.toNat then
        (.header offset buffer, some (.frameTooLarge h.length.toNat))
      else settleBody h 0 (List.replicate h.length.toNat 0)
  else (.header offset buffer, none)

def settle : ReadState → ReadState × Option ReadOutcome
  | .init => settleHeader 0 (List.replicate headerSize 0)
  | .header offset buffer => settleHeader offset buffer
  | .body h offset buffer => settleBody h offset buffer

/-- The part of the buffer that is still to be filled. -/
def ReadState.room : ReadState → Nat
  | .init => 0
  | .header offset _ => headerSize - offset
  | .body h offset _ => h.length.toNat - offset

/-- A buffer with bytes read into it at an offset. -/
def readInto (buffer : Bytes) (offset : Nat) (bs : Bytes) : Bytes :=
  buffer.take offset ++ bs ++ buffer.drop (offset + bs.length)

def ReadState.fill (bs : Bytes) : ReadState → ReadState
  | .init => .init
  | .header offset buffer => .header (offset + bs.length) (readInto buffer offset bs)
  | .body h offset buffer => .body h (offset + bs.length) (readInto buffer offset bs)

/-- A read of nothing. -/
def ReadState.eof : ReadState → ReadOutcome
  | .header 0 _ => .ended
  | _ => .unexpectedEof

/-- `poll_next_frame`, over what the socket makes of each read of its bytes: the outcome, the state
and the bytes left. -/
def pollNextFrame (closed : Bool) :
    List Give → ReadState → Bytes → ReadOutcome × ReadState × Bytes
  | script, s, input =>
    match settle s with
    | (s, some o) => (o, s, input)
    | (s, none) =>
      match script with
      | [] => (.pending, s, input)
      | .pending :: _ => (.pending, s, input)
      | .failed :: _ => (.io, s, input)
      | .gave more :: script =>
        let got := input.take (min (more + 1) s.room)
        if got = [] then (if closed then s.eof else .pending, s, input)
        else pollNextFrame closed script (s.fill got) (input.drop got.length)

/-- The bytes the reader holds. -/
def ReadState.held : ReadState → Bytes
  | .init => []
  | .header offset buffer => buffer.take offset
  | .body h offset buffer => h.encode ++ buffer.take offset

/-- What a buffer and its offset are, of the frames `l` that are still to be read. -/
def ReadState.Fits : ReadState → List Frame → Prop
  | .init, _ => True
  | .header offset buffer, _ => offset ≤ headerSize ∧ buffer.length = headerSize
  | .body h offset buffer, l =>
    offset ≤ h.length.toNat ∧ buffer.length = h.length.toNat ∧
      ∃ f l', l = f :: l' ∧ f.header = h ∧ h.tag = .data

/-- The reader's invariant: what it holds, what has arrived and what has not are the frames that
are still to be read. -/
structure Reading (s : ReadState) (input more : Bytes) (l : List Frame) : Prop where
  bytes : s.held ++ input ++ more = l.flatMap Frame.bytes
  fits : s.Fits l

/-- The frame as the reader hands it out. -/
def Frame.shown (f : Frame) : ReadOutcome := .frame f.header f.body

/-- A frame the reader takes. -/
def Frame.Readable (f : Frame) : Prop := f.body.length ≤ maxFrameBodyLen

theorem readInto_length {buffer bs : Bytes} {offset : Nat}
    (h : offset + bs.length ≤ buffer.length) :
    (readInto buffer offset bs).length = buffer.length := by
  simp only [readInto, List.length_append, List.length_take, List.length_drop]
  omega

theorem take_readInto {buffer bs : Bytes} {offset : Nat} (h : offset ≤ buffer.length) :
    (readInto buffer offset bs).take (offset + bs.length) = buffer.take offset ++ bs := by
  refine List.take_left' ?_
  rw [List.length_append, List.length_take_of_le h]

/-- What a read gives goes from what has arrived to what is held. -/
theorem Reading.fill {s : ReadState} {got input more : Bytes} {l : List Frame}
    (h : Reading s (got ++ input) more l) (hroom : got.length ≤ s.room) (hinit : s ≠ .init) :
    Reading (s.fill got) input more l := by
  obtain ⟨hbytes, hfits⟩ := h
  cases s with
  | init => exact absurd rfl hinit
  | header offset buffer =>
    obtain ⟨hoffset, hlen⟩ := hfits
    rw [ReadState.room] at hroom
    refine ⟨?_, by omega, ?_⟩
    · rw [← hbytes, ReadState.fill, ReadState.held, take_readInto (by omega), ReadState.held]
      simp only [List.append_assoc]
    · rw [readInto_length (by omega), hlen]
  | body hd offset buffer =>
    obtain ⟨hoffset, hlen, hfirst⟩ := hfits
    rw [ReadState.room] at hroom
    refine ⟨?_, by omega, ?_, hfirst⟩
    · rw [← hbytes, ReadState.fill, ReadState.held, take_readInto (by omega), ReadState.held]
      simp only [List.append_assoc]
    · rw [readInto_length (by omega), hlen]

/-- A frame's header is the first thing of the frames to be read. -/
theorem first_of_header {buffer rest : Bytes} {l : List Frame} (hlen : buffer.length = headerSize)
    (h : buffer ++ rest = l.flatMap Frame.bytes) :
    ∃ f l', l = f :: l' ∧ buffer = f.header.encode ∧ rest = f.body ++ l'.flatMap Frame.bytes := by
  cases l with
  | nil =>
    have hnil : buffer = [] := (List.append_eq_nil_iff.mp h).1
    rw [hnil] at hlen
    cases hlen
  | cons f l =>
    rw [List.flatMap_cons, Frame.bytes, List.append_assoc] at h
    obtain ⟨hheader, hrest⟩ := List.append_inj h (by rw [hlen, Header.encode_length])
    exact ⟨f, l, rfl, hheader, hrest⟩

/-- What the loop does without reading: it hands out the first frame, or it has room to fill. -/
def Settled (input more : Bytes) (l : List Frame) : ReadState × Option ReadOutcome → Prop
  | (s, some o) => ∃ f l', l = f :: l' ∧ o = f.shown ∧ Reading s input more l' ∧ s = .init
  | (s, none) => Reading s input more l ∧ 0 < s.room

theorem settled_body {h : Header} {offset : Nat} {buffer input more : Bytes} {l : List Frame}
    (hr : Reading (.body h offset buffer) input more l) :
    Settled input more l (settleBody h offset buffer) := by
  obtain ⟨hbytes, hoffset, hlen, f, l', rfl, rfl, hdata⟩ := hr
  rw [settleBody]
  split
  case isTrue hall =>
    rw [ReadState.held, List.take_of_length_le (by omega), List.flatMap_cons, Frame.bytes,
      List.append_assoc, List.append_assoc, List.append_assoc] at hbytes
    have hrest := List.append_cancel_left hbytes
    obtain ⟨hbody, hleft⟩ := List.append_inj hrest (by rw [hlen, f.length hdata])
    exact ⟨f, l', rfl, by rw [hbody, Frame.shown], ⟨hleft, trivial⟩, rfl⟩
  case isFalse hpart =>
    refine ⟨⟨hbytes, hoffset, hlen, f, l', rfl, rfl, hdata⟩, ?_⟩
    rw [ReadState.room]
    omega

theorem settled_header {offset : Nat} {buffer input more : Bytes} {l : List Frame}
    (hl : ∀ f ∈ l, f.Readable) (hr : Reading (.header offset buffer) input more l) :
    Settled input more l (settleHeader offset buffer) := by
  obtain ⟨hbytes, hoffset, hlen⟩ := hr
  rw [settleHeader]
  split
  case isTrue hall =>
    rw [ReadState.held, List.take_of_length_le (by omega), List.append_assoc] at hbytes
    obtain ⟨f, l', rfl, rfl, hrest⟩ := first_of_header hlen hbytes
    rw [Header.decode_encode]
    simp only
    split
    case isTrue hcontrol =>
      have hbody := f.bodyless hcontrol
      rw [hbody, List.nil_append] at hrest
      exact ⟨f, l', rfl, by rw [Frame.shown, hbody], ⟨hrest, trivial⟩, rfl⟩
    case isFalse hdata =>
      have hdata : f.header.tag = .data := not_not.mp hdata
      have hsize := f.length hdata
      have hfits : f.body.length ≤ maxFrameBodyLen := hl f List.mem_cons_self
      rw [if_neg (by omega)]
      refine settled_body ⟨?_, Nat.zero_le _, List.length_replicate, f, l', rfl, rfl, hdata⟩
      rw [ReadState.held, List.take_zero, List.append_nil, List.append_assoc, hrest,
        List.flatMap_cons, Frame.bytes, List.append_assoc]
  case isFalse hpart =>
    refine ⟨⟨hbytes, hoffset, hlen⟩, ?_⟩
    rw [ReadState.room]
    omega

theorem settled_settle {s : ReadState} {input more : Bytes} {l : List Frame}
    (hl : ∀ f ∈ l, f.Readable) (hr : Reading s input more l) :
    Settled input more l (settle s) := by
  cases s with
  | init =>
    refine settled_header hl ⟨?_, Nat.zero_le _, List.length_replicate⟩
    rw [ReadState.held, List.take_zero]
    exact hr.bytes
  | header offset buffer => exact settled_header hl hr
  | body h offset buffer => exact settled_body hr

/-- What a call comes to that hands out no frame. -/
def Quiet (closed : Bool) : ReadOutcome → Prop
  | .pending => True
  | .io => True
  | .ended => closed = true
  | .unexpectedEof => closed = true
  | _ => False

theorem quiet_eof (s : ReadState) : Quiet true s.eof := by
  cases s with
  | init => exact rfl
  | body h offset buffer => exact rfl
  | header offset buffer =>
    cases offset with
    | zero => exact rfl
    | succ offset => exact rfl

/-- **A call hands out the next frame, or goes on from where it stopped**, whatever each read
gives. -/
theorem reading_poll (closed : Bool) (script : List Give) {s : ReadState} {input more : Bytes}
    {l : List Frame} (hl : ∀ f ∈ l, f.Readable) (hr : Reading s input more l) :
    (∃ f l', l = f :: l' ∧ (pollNextFrame closed script s input).1 = f.shown ∧
      Reading (pollNextFrame closed script s input).2.1
        (pollNextFrame closed script s input).2.2 more l' ∧
      (pollNextFrame closed script s input).2.1 = .init) ∨
    Quiet closed (pollNextFrame closed script s input).1 ∧
      Reading (pollNextFrame closed script s input).2.1
        (pollNextFrame closed script s input).2.2 more l ∧
      0 < (pollNextFrame closed script s input).2.1.room := by
  induction script generalizing s input with
  | nil =>
    have hsettled := settled_settle hl hr
    unfold pollNextFrame
    cases h : settle s with
    | mk s' o =>
      rw [h] at hsettled
      cases o with
      | some o =>
        obtain ⟨f, l', hsplit, ho, hreading, hinit⟩ := hsettled
        exact Or.inl ⟨f, l', hsplit, ho, hreading, hinit⟩
      | none => exact Or.inr ⟨trivial, hsettled⟩
  | cons g script ih =>
    have hsettled := settled_settle hl hr
    unfold pollNextFrame
    cases h : settle s with
    | mk s' o =>
      rw [h] at hsettled
      cases o with
      | some o =>
        obtain ⟨f, l', hsplit, ho, hreading, hinit⟩ := hsettled
        exact Or.inl ⟨f, l', hsplit, ho, hreading, hinit⟩
      | none =>
        obtain ⟨hreading, hroom⟩ := hsettled
        cases g with
        | pending => exact Or.inr ⟨trivial, hreading, hroom⟩
        | failed => exact Or.inr ⟨trivial, hreading, hroom⟩
        | gave n =>
          simp only
          split
          case isTrue =>
            refine Or.inr ⟨?_, hreading, hroom⟩
            cases closed with
            | false => exact trivial
            | true => exact quiet_eof s'
          case isFalse =>
            have hsplit := List.take_append_drop (min (n + 1) s'.room) input
            have hlen : (input.take (min (n + 1) s'.room)).length ≤ s'.room := by
              rw [List.length_take]
              omega
            have hdrop : input.drop (input.take (min (n + 1) s'.room)).length =
                input.drop (min (n + 1) s'.room) := by
              rw [List.length_take, List.drop_eq_drop_iff]
              omega
            have hinit : s' ≠ .init := by
              rintro rfl
              exact absurd hroom (Nat.lt_irrefl 0)
            rw [← hsplit] at hreading
            have hnext := ih (hreading.fill hlen hinit)
            rw [hdrop]
            exact hnext

/-! ## 4. A connection, one way -/

structure State where
  writer : WriteState
  /-- Everything the socket took, and what of it the reader has not taken. -/
  emitted : Bytes
  wire : Bytes
  closed : Bool
  reader : ReadState
  /-- The frames that were started, in order. -/
  started : List Frame
  /-- The frames handed out, and what else calls came to. -/
  out : List ReadOutcome
  quiet : List ReadOutcome
  deriving DecidableEq

inductive Event
  /-- The writer is idle and is given a frame. -/
  | start (f : Frame)
  | drive (script : List Accept)
  | poll (script : List Give)
  | close
  deriving DecidableEq

def isFrame : ReadOutcome → Bool
  | .frame _ _ => true
  | _ => false

def step (s : State) : Event → Option State
  | .start f =>
    if s.writer = .init ∧ s.closed = false then
      some { s with writer := startFrame f, started := s.started ++ [f] }
    else none
  | .drive script =>
    if s.closed = false then
      let r := driveWrite script s.writer
      some { s with writer := r.2.1, emitted := s.emitted ++ r.2.2, wire := s.wire ++ r.2.2 }
    else none
  | .poll script =>
    let r := pollNextFrame s.closed script s.reader s.wire
    let s := { s with reader := r.2.1, wire := r.2.2 }
    if isFrame r.1 then some { s with out := s.out ++ [r.1] }
    else some { s with quiet := s.quiet ++ [r.1] }
  | .close => if s.closed = false then some { s with closed := true } else none

def begin : State where
  writer := .init
  emitted := []
  wire := []
  closed := false
  reader := .init
  started := []
  out := []
  quiet := []

def link : Lts State Event where
  init s := s = begin
  step s e s' := step s e = some s'

/-- Only frames the reader takes are started. -/
def StartsReadable (_ : State) : Event → Prop
  | .start f => f.Readable
  | _ => True

/-- What was emitted and what is still to be emitted are the plain encodings. -/
def Written (s : State) (rest : Bytes) : Prop :=
  s.emitted ++ rest = s.started.flatMap Frame.bytes ∧
    (s.writer ≠ .poisoned → rest = s.writer.pending)

/-- Driving the writer moves bytes from what is still to be emitted to what was emitted. -/
theorem Written.drive {s : State} {rest : Bytes} (h : Written s rest) (script : List Accept) :
    ∃ rest', rest = (driveWrite script s.writer).2.2 ++ rest' ∧
      ((driveWrite script s.writer).2.1 ≠ .poisoned →
        rest' = (driveWrite script s.writer).2.1.pending) := by
  obtain ⟨-, hrest⟩ := h
  by_cases hpoisoned : s.writer = .poisoned
  · rw [hpoisoned, driveWrite_quiet (fun _ _ _ => Or.inr (Or.inr rfl))]
    exact ⟨rest, rfl, fun hne => absurd rfl hne⟩
  · obtain ⟨rest', hbytes, hleft⟩ := driveWrite_pending script s.writer
    exact ⟨rest', (hrest hpoisoned).trans hbytes.symm, hleft⟩

/-- An idle writer has nothing to emit. -/
theorem Written.idle {s : State} {rest : Bytes} (h : Written s rest) (hidle : s.writer = .init) :
    rest = [] := by
  rw [h.2 (by rw [hidle]; nofun), hidle]
  rfl

theorem Written.step {s s' : State} {e : Event} {rest : Bytes} (h : Written s rest)
    (hs : step s e = some s') :
    ∃ rest', Written s' rest' ∧
      (match e with
        | .start f => rest = [] ∧ rest' = f.bytes
        | .drive script => rest = (driveWrite script s.writer).2.2 ++ rest'
        | _ => rest' = rest) := by
  obtain ⟨hbytes, hrest⟩ := h
  cases e with
  | start f =>
    simp only [FrameIo.step, Option.ite_none_right_eq_some] at hs
    obtain ⟨⟨hidle, -⟩, hs⟩ := hs
    cases hs
    have hnil : rest = [] := Written.idle ⟨hbytes, hrest⟩ hidle
    refine ⟨f.bytes, ⟨?_, fun _ => (startFrame_pending f).symm⟩, hnil, rfl⟩
    rw [hnil, List.append_nil] at hbytes
    rw [List.flatMap_append, List.flatMap_singleton, ← hbytes]
  | drive script =>
    simp only [FrameIo.step, Option.ite_none_right_eq_some] at hs
    obtain ⟨-, hs⟩ := hs
    cases hs
    obtain ⟨rest', hsplit, hleft⟩ := Written.drive ⟨hbytes, hrest⟩ script
    refine ⟨rest', ⟨?_, hleft⟩, hsplit⟩
    rw [← hbytes, hsplit, List.append_assoc]
  | poll script =>
    simp only [FrameIo.step] at hs
    split at hs
    case isTrue =>
      cases hs
      exact ⟨rest, ⟨hbytes, hrest⟩, rfl⟩
    case isFalse =>
      cases hs
      exact ⟨rest, ⟨hbytes, hrest⟩, rfl⟩
  | close =>
    simp only [FrameIo.step, Option.ite_none_right_eq_some] at hs
    obtain ⟨-, hs⟩ := hs
    cases hs
    exact ⟨rest, ⟨hbytes, hrest⟩, rfl⟩

/-- The writer emits the plain encodings of what it is given. -/
theorem written_of_reach {s : State} (h : link.Reach s) : ∃ rest, Written s rest := by
  refine Lts.Reach.invariant (P := fun s => ∃ rest, Written s rest) ?_ ?_ h
  · rintro s rfl
    exact ⟨[], rfl, fun _ => rfl⟩
  · rintro s e s' ⟨rest, hw⟩ hs
    obtain ⟨rest', hw', -⟩ := hw.step hs
    exact ⟨rest', hw'⟩

/-- Both ends: `l` are the frames started and not handed out. -/
structure Inv (s : State) (l : List Frame) (rest : Bytes) : Prop where
  written : Written s rest
  out : s.out ++ l.map Frame.shown = s.started.map Frame.shown
  reading : Reading s.reader s.wire rest l
  readable : ∀ f ∈ l, f.Readable
  room : s.reader = .init ∨ 0 < s.reader.room
  quiet : ∀ o ∈ s.quiet, Quiet s.closed o

theorem ReadState.Fits.append {s : ReadState} {l : List Frame} (h : s.Fits l) (f : Frame) :
    s.Fits (l ++ [f]) := by
  cases s with
  | init => exact trivial
  | header offset buffer => exact h
  | body hd offset buffer =>
    obtain ⟨hoffset, hlen, f', l', rfl, hfirst⟩ := h
    exact ⟨hoffset, hlen, f', l' ++ [f], rfl, hfirst⟩

theorem Quiet.closed {closed : Bool} {o : ReadOutcome} (h : Quiet closed o) : Quiet true o := by
  cases o with
  | ended | unexpectedEof => exact rfl
  | pending | io => exact trivial
  | frame h' b => exact h
  | header e => exact h
  | frameTooLarge n => exact h

theorem Quiet.not_frame {closed : Bool} {o : ReadOutcome} (h : Quiet closed o) :
    isFrame o = false := by
  cases o with
  | frame h' b => exact h.elim
  | _ => rfl

theorem Inv.step {s s' : State} {e : Event} {l : List Frame} {rest : Bytes} (h : Inv s l rest)
    (hc : StartsReadable s e) (hs : FrameIo.step s e = some s') :
    ∃ l' rest', Inv s' l' rest' := by
  obtain ⟨rest', hw', hmoved⟩ := h.written.step hs
  obtain ⟨-, hout, ⟨hbytes, hfits⟩, hreadable, hroom, hquiet⟩ := h
  cases e with
  | start f =>
    simp only [FrameIo.step, Option.ite_none_right_eq_some] at hs
    obtain ⟨-, hs⟩ := hs
    cases hs
    obtain ⟨hnil, hf⟩ := hmoved
    refine ⟨l ++ [f], rest', hw', ?_, ⟨?_, hfits.append f⟩, ?_, hroom, hquiet⟩
    · rw [List.map_append, ← List.append_assoc, hout, List.map_append]
    · rw [hnil, List.append_nil] at hbytes
      rw [List.flatMap_append, List.flatMap_singleton, hf, hbytes]
    · intro f' hf'
      obtain hmem | hmem := List.mem_append.mp hf'
      · exact hreadable f' hmem
      · cases List.mem_singleton.mp hmem
        exact hc
  | drive script =>
    simp only [FrameIo.step, Option.ite_none_right_eq_some] at hs
    obtain ⟨-, hs⟩ := hs
    cases hs
    refine ⟨l, rest', hw', hout, ⟨?_, hfits⟩, hreadable, hroom, hquiet⟩
    rw [← hbytes, hmoved]
    simp only [List.append_assoc]
  | poll script =>
    cases hmoved
    have hpoll := reading_poll s.closed script hreadable ⟨hbytes, hfits⟩
    simp only [FrameIo.step] at hs
    obtain ⟨f, l', rfl, ho, hreading, hinit⟩ | ⟨hq, hreading, hpos⟩ := hpoll
    · rw [ho] at hs
      cases hs
      refine ⟨l', rest, hw', ?_, hreading, ?_, Or.inl hinit, hquiet⟩
      · rw [List.append_assoc]
        exact hout
      · exact fun f' hf' => hreadable f' (List.mem_cons_of_mem _ hf')
    · rw [hq.not_frame] at hs
      cases hs
      refine ⟨l, rest, hw', hout, hreading, hreadable, Or.inr hpos, ?_⟩
      intro o ho
      obtain hmem | hmem := List.mem_append.mp ho
      · exact hquiet o hmem
      · cases List.mem_singleton.mp hmem
        exact hq
  | close =>
    simp only [FrameIo.step, Option.ite_none_right_eq_some] at hs
    obtain ⟨-, hs⟩ := hs
    cases hs
    cases hmoved
    exact ⟨l, rest, hw', hout, ⟨hbytes, hfits⟩, hreadable, hroom, fun o ho => (hquiet o ho).closed⟩

theorem inv_of_reach {s : State} (h : (link.restrict StartsReadable).Reach s) :
    ∃ l rest, Inv s l rest := by
  refine Lts.Reach.invariant (P := fun s => ∃ l rest, Inv s l rest) ?_ ?_ h
  · rintro s rfl
    exact ⟨[], [], ⟨rfl, fun _ => rfl⟩, rfl, ⟨rfl, trivial⟩, nofun, Or.inl rfl, nofun⟩
  · rintro s e s' ⟨l, rest, hinv⟩ ⟨hc, hs⟩
    exact hinv.step hc hs

/-- A reader with nothing on the wire and nothing still to come has handed out every frame: what it
holds of one is less than the frame. -/
theorem Inv.drained {s : State} {l : List Frame} (h : Inv s l []) (hwire : s.wire = []) :
    l = [] := by
  have hbytes := h.reading.bytes
  rw [hwire, List.append_nil, List.append_nil] at hbytes
  cases l with
  | nil => rfl
  | cons f l =>
    have hlen := congrArg List.length hbytes
    rw [List.flatMap_cons, List.length_append, Frame.bytes, List.length_append,
      Header.encode_length] at hlen
    have hsize : headerSize = 12 := rfl
    have hfits := h.reading.fits
    have hroom := h.room
    cases hreader : s.reader with
    | init =>
      rw [hreader, ReadState.held, List.length_nil] at hlen
      omega
    | header offset buffer =>
      rw [hreader] at hlen hroom
      rw [ReadState.held, List.length_take] at hlen
      obtain hinit | hpos := hroom
      · cases hinit
      · rw [ReadState.room] at hpos
        omega
    | body hd offset buffer =>
      rw [hreader] at hlen hroom hfits
      obtain ⟨hoffset, hbuffer, f', l', hfirst, rfl, hdata⟩ := hfits
      cases hfirst
      have hbody := f.length hdata
      rw [ReadState.held, List.length_append, Header.encode_length, List.length_take] at hlen
      obtain hinit | hpos := hroom
      · cases hinit
      · rw [ReadState.room] at hpos
        omega

/-! ## 5. What comes through -/

/-- **Frames come through**: whatever the socket takes of each write, what was emitted is the start
of the plain encodings of the frames that were started, and all of them when the writer is idle;
whatever each read gives, what was handed out is the first of those frames, in order, and all of
them when the writer is idle and the wire is empty.  For the reader, no frame may have a body over
its limit. -/
theorem frames_come_through :
    (∀ s, link.Reach s →
      s.emitted <+: s.started.flatMap Frame.bytes ∧
        (s.writer = .init → s.emitted = s.started.flatMap Frame.bytes)) ∧
    ∀ s, (link.restrict StartsReadable).Reach s →
      s.out <+: s.started.map Frame.shown ∧ (∀ o ∈ s.quiet, Quiet s.closed o) ∧
        (s.writer = .init → s.wire = [] → s.out = s.started.map Frame.shown) := by
  constructor
  · intro s hs
    obtain ⟨rest, hw⟩ := written_of_reach hs
    refine ⟨⟨rest, hw.1⟩, fun hidle => ?_⟩
    have hall := hw.1
    rw [hw.idle hidle, List.append_nil] at hall
    exact hall
  · intro s hs
    obtain ⟨l, rest, hinv⟩ := inv_of_reach hs
    refine ⟨⟨_, hinv.out⟩, hinv.quiet, fun hidle hwire => ?_⟩
    have hnil := hinv.written.idle hidle
    rw [hnil] at hinv
    have hall := hinv.out
    rw [hinv.drained hwire, List.map_nil, List.append_nil] at hall
    exact hall

/-- A frame that is written as one buffer and one that is written in two phases. -/
def shortFrame : Frame where
  header := ⟨.data, 1, 1, 2⟩
  body := [7, 8]
  length := fun _ => rfl
  bodyless := fun h => absurd rfl h

def longFrame : Frame where
  header := ⟨.data, 0, 1, 513⟩
  body := List.replicate 513 9
  length := by
    intro _
    rw [List.length_replicate]
    rfl
  bodyless := fun h => absurd rfl h

/-- Both are cut inside their headers and bodies, by the writes and by the reads. -/
def cutRun : List Event :=
  [.start shortFrame, .drive [.took 5, .pending], .poll [.gave 8], .drive [.took 9],
    .poll [.gave 0, .gave 99, .pending], .start longFrame, .drive [.took 10, .took 2, .took 500],
    .poll [.gave 99, .gave 99], .drive [.took 13], .poll [.gave 600, .gave 600]]

def startsReadable (_ : State) : Event → Bool
  | .start f => f.body.length ≤ maxFrameBodyLen
  | _ => true

theorem frames_come_through_cut :
    ∃ s, (link.restrict StartsReadable).Reach s ∧ s.writer = .init ∧ s.wire = [] ∧
      s.started = [shortFrame, longFrame] ∧ s.emitted = shortFrame.bytes ++ longFrame.bytes ∧
      s.out = [shortFrame.shown, longFrame.shown] := by
  have hrun : (Lts.runWith step startsReadable begin cutRun).any
      (fun s => decide (s.writer = .init ∧ s.wire = [] ∧ s.started = [shortFrame, longFrame])) =
      true := by
    decide +kernel
  obtain ⟨s, hreach, hend⟩ := Lts.Reach.exists_runWith (T := link) (C := StartsReadable)
    (fun _ _ _ h => h)
    (by
      intro s e he
      cases e with
      | start f =>
        have hfits : f.body.length ≤ maxFrameBodyLen := of_decide_eq_true he
        exact hfits
      | _ => trivial)
    rfl hrun
  obtain ⟨hidle, hwire, hstarted⟩ := of_decide_eq_true hend
  have hemitted := (frames_come_through.1 s hreach.of_restrict).2 hidle
  have hout := (frames_come_through.2 s hreach).2.2 hidle hwire
  rw [hstarted] at hemitted hout
  exact ⟨s, hreach, hidle, hwire, hstarted, hemitted.trans (by simp), hout⟩

/-- A data frame of one byte more than the reader takes. -/
def largeFrame : Frame where
  header := ⟨.data, 0, 1, BitVec.ofNat 32 (maxFrameBodyLen + 1)⟩
  body := List.replicate (maxFrameBodyLen + 1) 0
  length := by
    intro _
    rw [List.length_replicate]
    rfl
  bodyless := fun h => absurd rfl h

/-- **A larger frame is written and refused**: the reader ends with an error that is no end of the
stream. -/
theorem large_frame_refused :
    ¬ ∀ s, link.Reach s → ∀ o ∈ s.quiet, Quiet s.closed o := by
  intro hall
  have hstart : startFrame largeFrame = .header largeFrame.header.encode largeFrame.body 0 := by
    refine if_neg ?_
    rw [largeFrame, List.length_replicate]
    decide
  have hbody : largeFrame.body ≠ [] := by
    rw [largeFrame]
    exact List.cons_ne_nil _ _
  have hdrive : driveWrite [.took 12] (.header largeFrame.header.encode largeFrame.body 0) =
      (.pending, .body largeFrame.body 0, largeFrame.header.encode) := by
    have hadvance : (WriteState.header largeFrame.header.encode largeFrame.body 0).advance 12 =
        .body largeFrame.body 0 := by
      rw [WriteState.advance, if_neg (by decide), if_pos (by decide), if_neg hbody]
    have htook := driveWrite_took (s := .header largeFrame.header.encode largeFrame.body 0)
      nofun nofun (n := 12) (by decide) []
    rw [htook, hadvance]
    rfl
  have hpoll : pollNextFrame false [.gave 11] .init largeFrame.header.encode =
      (.frameTooLarge (maxFrameBodyLen + 1), .header 12 largeFrame.header.encode, []) := by
    decide +kernel
  have h0 : link.Reach begin := Lts.Reach.init rfl
  have h1 : link.Reach { begin with writer := startFrame largeFrame, started := [largeFrame] } :=
    h0.step (a := .start largeFrame) rfl
  rw [hstart] at h1
  have h2 : link.Reach { begin with
      writer := .body largeFrame.body 0, started := [largeFrame]
      emitted := largeFrame.header.encode, wire := largeFrame.header.encode } := by
    refine h1.step (a := .drive [.took 12]) ?_
    change step _ _ = _
    simp only [step, hdrive]
    rfl
  have h3 : link.Reach { begin with
      writer := .body largeFrame.body 0, started := [largeFrame]
      emitted := largeFrame.header.encode, reader := .header 12 largeFrame.header.encode
      quiet := [.frameTooLarge (maxFrameBodyLen + 1)] } := by
    refine h2.step (a := .poll [.gave 11]) ?_
    change step _ _ = _
    simp only [step, begin, hpoll]
    rfl
  exact hall _ h3 _ (List.mem_singleton_self _)

end Molehill.Mux.FrameIo
