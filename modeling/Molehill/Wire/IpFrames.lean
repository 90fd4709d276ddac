/-
# Packets on a transparent data channel

A transparent channel is a byte stream of `[u32 length][frame]` entries.  `IpFrames` reads it in
large pieces and cuts the frames out of its buffer: a call of `next` looks for a whole frame behind
what it has handed out, and reads more, dropping what was handed out first, while there is none.

A read gives any part of the stream, waits, or finds the end, and a call that waits may be given up
and made again.  Whatever the reads are, no slice is out of range, each frame handed out takes its
entry off the stream, and the frames are those of the stream, not of its cut
(`ip_frames_read`).  The end of the stream is an error in any case, one of its own at a boundary
(`boundary_end_is_an_error`): a channel exists only while its service does.

A `usize` is taken to be wide enough for a `u32` and a header, as on the targets this is built for.
-/
import Mathlib.Data.List.Basic
import Molehill.Lib.Bytes

namespace Molehill.Wire

open Lib

/-! ## 1. The writer and the format's only reader -/

inductive FrameFormat
  | ip
  | vnet
  deriving DecidableEq

def vnetHdrLen : Nat := 10

def ipv4MinHeader : Nat := 20

inductive FrameError
  /-- "Empty IP frame: the stream is corrupt". -/
  | empty
  /-- "IP frame shorter than its virtio-net header". -/
  | shortVnet (len : Nat)
  /-- "IP frame shorter than its IP header". -/
  | shortIp (len : Nat)
  /-- "Transparent channel ended mid-frame", with so many bytes left. -/
  | midFrame (leftover : Nat)
  /-- "Transparent channel ended". -/
  | ended
  /-- "Failed to read IP frames". -/
  | failed
  deriving DecidableEq

/-- `IpTraffic::encode_into`. -/
def encodeInto (batch frame : Bytes) : Option Bytes :=
  if frame.length < 2 ^ 32 then some (batch ++ beBytes 4 frame.length ++ frame) else none

/-- The shortest frame of a format, by what is there of it. -/
def floor : FrameFormat → Bytes → Nat
  | .vnet, _ => vnetHdrLen
  | .ip, frame => if (frame.head?.map fun b => b.toNat / 16) = some 6 then 40 else ipv4MinHeader

def tooShort : FrameFormat → Nat → FrameError
  | .vnet, len => .shortVnet len
  | .ip, len => .shortIp len

/-- `IpTraffic::frame_at`. -/
def frameAt (format : FrameFormat) (available : Bytes) : Except FrameError (Option Nat) :=
  if available.length < 4 then .ok none
  else
    let len := ofBe (available.take 4)
    if len = 0 then .error .empty
    else if len < floor format (available.drop 4) then .error (tooShort format len)
    else if available.length < 4 + len then .ok none
    else .ok (some len)

/-! ## 2. The reader -/

/-- What one read of the channel comes to; a read of nothing is the end of the stream. -/
inductive Read
  | data (bs : Bytes)
  | pending
  | failed
  deriving DecidableEq

structure IpFrames where
  /-- Bytes read ahead and not yet turned into frames. -/
  buf : Bytes
  /-- Where the unconsumed part starts. -/
  start : Nat
  deriving DecidableEq

def IpFrames.new : IpFrames := ⟨[], 0⟩

/-- What a call of `next` comes to. -/
inductive Outcome
  | frame (bs : Bytes)
  | error (e : FrameError)
  | pending
  /-- A slice was out of range. -/
  | panicked
  deriving DecidableEq

/-- The slice `buf[a..b]`. -/
def slice (buf : Bytes) (a b : Nat) : Option Bytes :=
  if a ≤ b ∧ b ≤ buf.length then some ((buf.take b).drop a) else none

/-- The compaction of `read_more`. -/
def IpFrames.compacted (s : IpFrames) : IpFrames :=
  if 0 < s.start then ⟨s.buf.drop s.start, 0⟩ else s

/-- `next`, with `read_more` inside its loop, over what the reads come to. -/
def IpFrames.next (format : FrameFormat) :
    List Read → IpFrames → Outcome × IpFrames × List Read
  | reads, s =>
    match slice s.buf s.start s.buf.length with
    | none => (.panicked, s, reads)
    | some available =>
      match frameAt format available with
      | .error e => (.error e, s, reads)
      | .ok (some len) =>
        match slice s.buf (s.start + 4) (s.start + 4 + len) with
        | none => (.panicked, s, reads)
        | some frame => (.frame frame, { s with start := s.start + 4 + len }, reads)
      | .ok none =>
        match reads with
        | [] => (.pending, s.compacted, [])
        | .pending :: reads => (.pending, s.compacted, reads)
        | .failed :: reads => (.error .failed, s.compacted, reads)
        | .data [] :: reads =>
          let leftover := s.compacted.buf.length
          (.error (if 0 < leftover then .midFrame leftover else .ended), s.compacted, reads)
        | .data (b :: bs) :: reads =>
          next format reads { s.compacted with buf := s.compacted.buf ++ b :: bs }

/-- The caller's loop: so many calls, up to the first error. -/
def IpFrames.calls (format : FrameFormat) :
    Nat → List Read → IpFrames → List Outcome × IpFrames × List Read
  | 0, reads, s => ([], s, reads)
  | n + 1, reads, s =>
    match s.next format reads with
    | (.error e, s, reads) => ([.error e], s, reads)
    | (.panicked, s, reads) => ([.panicked], s, reads)
    | (o, s, reads) =>
      let r := calls format n reads s
      (o :: r.1, r.2)

/-! ## 3. What a stream holds -/

/-- The bytes the reads give, up to the end of the stream. -/
def stream : List Read → Bytes
  | [] => []
  | .pending :: reads => stream reads
  | .failed :: _ => []
  | .data [] :: _ => []
  | .data (b :: bs) :: reads => b :: bs ++ stream reads

/-- How they end: the stream is still open, was closed, or failed. -/
inductive Ending
  | stillOpen
  | closed
  | failed
  deriving DecidableEq

def ending : List Read → Ending
  | [] => .stillOpen
  | .pending :: reads => ending reads
  | .failed :: _ => .failed
  | .data [] :: _ => .closed
  | .data (_ :: _) :: reads => ending reads

/-- The error behind the last whole frame, where `rest` is left. -/
def endError (rest : Bytes) : Ending → Option FrameError
  | .stillOpen => none
  | .closed => some (if 0 < rest.length then .midFrame rest.length else .ended)
  | .failed => some .failed

def IpFrames.unread (s : IpFrames) : Bytes := s.buf.drop s.start

/-- The unconsumed part starts inside the buffer. -/
def IpFrames.InRange (s : IpFrames) : Prop := s.start ≤ s.buf.length

theorem slice_eq {buf : Bytes} {a b : Nat} (h : a ≤ b ∧ b ≤ buf.length) :
    slice buf a b = some ((buf.take b).drop a) := if_pos h

theorem compacted_unread (s : IpFrames) : s.compacted.unread = s.unread := by
  rw [IpFrames.compacted]
  split
  · rfl
  · rfl

theorem compacted_start (s : IpFrames) : s.compacted.start = 0 := by
  rw [IpFrames.compacted]
  split
  · rfl
  · omega

theorem compacted_buf (s : IpFrames) : s.compacted.buf = s.unread := by
  rw [← compacted_unread, IpFrames.unread, compacted_start, List.drop_zero]

theorem frameAt_eq_some {format : FrameFormat} {a : Bytes} {len : Nat} :
    frameAt format a = .ok (some len) ↔
      4 + len ≤ a.length ∧ len = ofBe (a.take 4) ∧ 0 < len ∧ floor format (a.drop 4) ≤ len := by
  constructor
  · intro h
    rw [frameAt] at h
    split at h
    case isTrue => cases h
    case isFalse =>
      simp only at h
      split at h
      case isTrue => cases h
      case isFalse hpos =>
        split at h
        case isTrue => cases h
        case isFalse hfloor =>
          split at h
          case isTrue => cases h
          case isFalse hlen =>
            cases h
            exact ⟨by omega, rfl, by omega, by omega⟩
  · rintro ⟨hlen, rfl, hpos, hfloor⟩
    simp only [frameAt]
    rw [if_neg (by omega), if_neg (by omega), if_neg (by omega), if_neg (by omega)]

theorem frameAt_eq_error {format : FrameFormat} {a : Bytes} {e : FrameError} :
    frameAt format a = .error e ↔
      4 ≤ a.length ∧ (ofBe (a.take 4) = 0 ∧ e = .empty ∨
        0 < ofBe (a.take 4) ∧ ofBe (a.take 4) < floor format (a.drop 4) ∧
          e = tooShort format (ofBe (a.take 4))) := by
  constructor
  · intro h
    rw [frameAt] at h
    split at h
    case isTrue => cases h
    case isFalse hfour =>
      refine ⟨by omega, ?_⟩
      simp only at h
      split at h
      case isTrue hzero =>
        cases h
        exact Or.inl ⟨hzero, rfl⟩
      case isFalse hpos =>
        split at h
        case isTrue hfloor =>
          cases h
          exact Or.inr ⟨by omega, hfloor, rfl⟩
        case isFalse =>
          split at h
          case isTrue => cases h
          case isFalse => cases h
  · rintro ⟨hfour, ⟨hzero, rfl⟩ | ⟨hpos, hfloor, rfl⟩⟩
    · simp only [frameAt]
      rw [if_neg (by omega), if_pos hzero]
    · simp only [frameAt]
      rw [if_neg (by omega), if_neg (by omega), if_pos hfloor]

/-- More of a frame can only raise its floor, and one byte of it settles that. -/
theorem floor_append (format : FrameFormat) (a b : Bytes) :
    floor format a ≤ floor format (a ++ b) ∧ (a ≠ [] → floor format (a ++ b) = floor format a) := by
  cases format with
  | vnet => exact ⟨Nat.le_refl _, fun _ => rfl⟩
  | ip =>
    cases a with
    | cons x a => exact ⟨Nat.le_refl _, fun _ => rfl⟩
    | nil =>
      refine ⟨?_, fun h => absurd rfl h⟩
      have hnil : floor .ip [] = 20 := rfl
      rw [hnil, List.nil_append, floor]
      split
      · decide
      · exact Nat.le_refl 20

/-- The whole frame at the front of a part of the stream is the one at the front of the stream. -/
theorem frameAt_append {format : FrameFormat} {a : Bytes} {len : Nat}
    (h : frameAt format a = .ok (some len)) (b : Bytes) :
    frameAt format (a ++ b) = .ok (some len) := by
  obtain ⟨hlen, hval, hpos, hfloor⟩ := frameAt_eq_some.mp h
  have hne : a.drop 4 ≠ [] := by
    intro hnil
    have hlength := congrArg List.length hnil
    rw [List.length_drop, List.length_nil] at hlength
    omega
  refine frameAt_eq_some.mpr ⟨?_, ?_, hpos, ?_⟩
  · rw [List.length_append]
    omega
  · rw [List.take_append_of_le_length (by omega)]
    exact hval
  · rw [List.drop_append_of_le_length (by omega), (floor_append format _ b).2 hne]
    exact hfloor

/-- So is a length the format does not allow. -/
theorem frameAt_append_error {format : FrameFormat} {a : Bytes} {e : FrameError}
    (h : frameAt format a = .error e) (b : Bytes) : frameAt format (a ++ b) = .error e := by
  obtain ⟨hfour, hcases⟩ := frameAt_eq_error.mp h
  refine frameAt_eq_error.mpr ⟨?_, ?_⟩
  · rw [List.length_append]
    omega
  · rw [List.take_append_of_le_length hfour, List.drop_append_of_le_length hfour]
    obtain hzero | ⟨hpos, hfloor, he⟩ := hcases
    · exact Or.inl hzero
    · exact Or.inr ⟨hpos, Nat.lt_of_lt_of_le hfloor (floor_append format _ b).1, he⟩

/-- What a call comes to, said of the stream `u` before it: a frame is the one at its front, an
error is the stream's own or its end's, and a call that waits leaves it as it was. -/
def Follows (format : FrameFormat) (u : Bytes) (fin : Ending) (size : Nat) :
    Outcome × IpFrames × List Read → Prop
  | (.frame f, s, reads) =>
    frameAt format u = .ok (some f.length) ∧ f = (u.drop 4).take f.length ∧
      s.unread ++ stream reads = u.drop (4 + f.length) ∧ s.InRange ∧ ending reads = fin ∧
      reads.length ≤ size
  | (.error e, _, _) =>
    frameAt format u = .error e ∨ frameAt format u = .ok none ∧ endError u fin = some e
  | (.pending, s, reads) =>
    s.unread ++ stream reads = u ∧ s.InRange ∧ ending reads = fin ∧
      (fin = .stillOpen ∨ reads.length < size)
  | (.panicked, _, _) => False

theorem Follows.weaken {format : FrameFormat} {u : Bytes} {fin : Ending} {m n : Nat}
    {r : Outcome × IpFrames × List Read} (h : Follows format u fin m r) (hle : m ≤ n) :
    Follows format u fin n r := by
  obtain ⟨o, s, reads⟩ := r
  cases o with
  | frame f =>
    obtain ⟨hat, hf, hrest, hrange, hfin, hsize⟩ := h
    exact ⟨hat, hf, hrest, hrange, hfin, Nat.le_trans hsize hle⟩
  | error e => exact h
  | pending =>
    obtain ⟨hrest, hrange, hfin, hopen | hsize⟩ := h
    · exact ⟨hrest, hrange, hfin, Or.inl hopen⟩
    · exact ⟨hrest, hrange, hfin, Or.inr (Nat.lt_of_lt_of_le hsize hle)⟩
  | panicked => exact h

theorem slice_unread {s : IpFrames} (h : s.InRange) :
    slice s.buf s.start s.buf.length = some s.unread := by
  rw [slice_eq ⟨h, Nat.le_refl _⟩, List.take_length]
  rfl

/-- A call that finds a whole frame, or a length the format does not allow, reads nothing. -/
theorem follows_front {format : FrameFormat} {s : IpFrames} (h : s.InRange) (reads : List Read)
    (hfound : frameAt format s.unread ≠ .ok none) :
    Follows format (s.unread ++ stream reads) (ending reads) reads.length
      (s.next format reads) := by
  unfold IpFrames.next
  rw [slice_unread h]
  simp only
  cases hat : frameAt format s.unread with
  | error e => exact Or.inl (frameAt_append_error hat _)
  | ok found =>
    cases found with
    | none => exact absurd hat hfound
    | some len =>
      obtain ⟨hlen, -⟩ := frameAt_eq_some.mp hat
      have hroom : s.unread.length = s.buf.length - s.start := List.length_drop
      have hrange : s.start ≤ s.buf.length := h
      have hframe : (s.buf.take (s.start + 4 + len)).drop (s.start + 4) =
          (s.unread.drop 4).take len := by
        rw [IpFrames.unread, List.drop_drop, List.drop_take]
        congr 1
        omega
      have hsize : ((s.unread.drop 4).take len).length = len := by
        rw [List.length_take, List.length_drop]
        omega
      have hslice : slice s.buf (s.start + 4) (s.start + 4 + len) =
          some ((s.unread.drop 4).take len) := by
        rw [slice_eq ⟨by omega, by omega⟩, hframe]
      simp only [hslice]
      refine ⟨?_, ?_, ?_, ?_, rfl, Nat.le_refl _⟩
      · rw [hsize]
        exact frameAt_append hat _
      · rw [hsize, List.drop_append_of_le_length (by omega), List.take_append_of_le_length]
        rw [List.length_drop]
        omega
      · rw [hsize, List.drop_append_of_le_length hlen]
        congr 1
        rw [IpFrames.unread, IpFrames.unread, List.drop_drop, Nat.add_assoc]
      · change s.start + 4 + len ≤ s.buf.length
        omega

/-- **The outcome of a call is the stream's**, however the reads cut it. -/
theorem follows_next (format : FrameFormat) (reads : List Read) {s : IpFrames} (h : s.InRange) :
    Follows format (s.unread ++ stream reads) (ending reads) reads.length
      (s.next format reads) := by
  induction reads generalizing s with
  | nil =>
    by_cases hat : frameAt format s.unread = .ok none
    case neg => exact follows_front h [] hat
    unfold IpFrames.next
    rw [slice_unread h]
    simp only [hat]
    refine ⟨?_, ?_, rfl, Or.inl rfl⟩
    · rw [compacted_unread]
    · rw [IpFrames.InRange, compacted_start]
      exact Nat.zero_le _
  | cons r reads ih =>
    by_cases hat : frameAt format s.unread = .ok none
    case neg => exact follows_front h (r :: reads) hat
    have hcompacted : s.compacted.InRange := by
      rw [IpFrames.InRange, compacted_start]
      exact Nat.zero_le _
    unfold IpFrames.next
    rw [slice_unread h]
    simp only [hat]
    cases r with
    | pending =>
      refine ⟨?_, hcompacted, rfl, Or.inr (Nat.lt_succ_self _)⟩
      rw [compacted_unread]
      rfl
    | failed =>
      refine Or.inr ⟨?_, rfl⟩
      rw [stream, List.append_nil]
      exact hat
    | data bs =>
      cases bs with
      | nil =>
        refine Or.inr ⟨?_, ?_⟩
        · rw [stream, List.append_nil]
          exact hat
        · rw [compacted_buf, stream, List.append_nil]
          rfl
      | cons b bs =>
        have hbuf : ({ s.compacted with buf := s.compacted.buf ++ b :: bs } : IpFrames).unread =
            s.unread ++ b :: bs := by
          rw [IpFrames.unread, compacted_start, compacted_buf, List.drop_zero]
        have hmore :
            ({ s.compacted with buf := s.compacted.buf ++ b :: bs } : IpFrames).InRange := by
          change s.compacted.start ≤ (s.compacted.buf ++ b :: bs).length
          rw [compacted_start]
          exact Nat.zero_le _
        have hnext := ih hmore
        rw [hbuf, List.append_assoc] at hnext
        exact hnext.weaken (Nat.le_succ _)

/-! ## 4. Any number of calls -/

/-- The frames handed out, in order. -/
def handedOut (os : List Outcome) : List Bytes :=
  os.filterMap fun
    | .frame f => some f
    | _ => none

/-- So many frames off the front of a stream, and what is behind them. -/
def parse (format : FrameFormat) : Nat → Bytes → Option (List Bytes × Bytes)
  | 0, u => some ([], u)
  | k + 1, u =>
    match frameAt format u with
    | .ok (some len) =>
      (parse format k (u.drop (4 + len))).map fun r => ((u.drop 4).take len :: r.1, r.2)
    | _ => none

/-- What any number of calls come to, said of the stream before them. -/
structure FollowsAll (format : FrameFormat) (u : Bytes) (fin : Ending) (os : List Outcome)
    (rest : Bytes) : Prop where
  /-- The frames are the first ones of the stream. -/
  parsed : parse format (handedOut os).length u = some (handedOut os, rest)
  inRange : Outcome.panicked ∉ os
  /-- An error is that of what is left, or of the end. -/
  error : ∀ e, .error e ∈ os →
    frameAt format rest = .error e ∨ frameAt format rest = .ok none ∧ endError rest fin = some e

theorem followsAll_calls (format : FrameFormat) (n : Nat) (reads : List Read) {s : IpFrames}
    (h : s.InRange) :
    ∃ rest, FollowsAll format (s.unread ++ stream reads) (ending reads)
      (s.calls format n reads).1 rest := by
  induction n generalizing reads s with
  | zero => exact ⟨_, ⟨rfl, nofun, nofun⟩⟩
  | succ n ih =>
    have hnext := follows_next format reads h
    rw [IpFrames.calls]
    cases hcall : s.next format reads with
    | mk o left =>
      obtain ⟨s', reads'⟩ := left
      rw [hcall] at hnext
      cases o with
      | error e =>
        refine ⟨s.unread ++ stream reads, rfl, nofun, ?_⟩
        intro e' he'
        cases List.mem_singleton.mp he'
        exact hnext
      | panicked => exact hnext.elim
      | pending =>
        obtain ⟨hrest, hrange, hfin, -⟩ := hnext
        obtain ⟨rest, hall⟩ := ih reads' hrange
        rw [hrest, hfin] at hall
        refine ⟨rest, hall.parsed, ?_, ?_⟩
        · intro hmem
          obtain hfirst | hmem := List.mem_cons.mp hmem
          · cases hfirst
          · exact hall.inRange hmem
        · intro e he
          obtain hfirst | hmem := List.mem_cons.mp he
          · cases hfirst
          · exact hall.error e hmem
      | frame f =>
        obtain ⟨hat, hf, hrest, hrange, hfin, -⟩ := hnext
        obtain ⟨rest, hall⟩ := ih reads' hrange
        rw [hrest, hfin] at hall
        refine ⟨rest, ?_, ?_, ?_⟩
        · have hout : handedOut (.frame f :: (s'.calls format n reads').1) =
              f :: handedOut (s'.calls format n reads').1 := rfl
          simp only [hout, List.length_cons, parse, hat, hall.parsed, Option.map_some, ← hf]
        · intro hmem
          obtain hfirst | hmem := List.mem_cons.mp hmem
          · cases hfirst
          · exact hall.inRange hmem
        · intro e he
          obtain hfirst | hmem := List.mem_cons.mp he
          · cases hfirst
          · exact hall.error e hmem

/-- **No call comes back without having consumed**: it takes a frame's bytes off the stream or a
read off the reads, so that enough calls find the end. -/
theorem ends_calls (format : FrameFormat) {n : Nat} {reads : List Read} {s : IpFrames}
    (h : s.InRange) (hfin : ending reads ≠ .stillOpen)
    (hn : reads.length + (s.unread ++ stream reads).length < n) :
    ∃ e, .error e ∈ (s.calls format n reads).1 := by
  induction n generalizing reads s with
  | zero => omega
  | succ n ih =>
    have hnext := follows_next format reads h
    rw [IpFrames.calls]
    cases hcall : s.next format reads with
    | mk o left =>
      obtain ⟨s', reads'⟩ := left
      rw [hcall] at hnext
      cases o with
      | error e => exact ⟨e, List.mem_singleton_self _⟩
      | panicked => exact hnext.elim
      | pending =>
        obtain ⟨hrest, hrange, hsame, hopen | hsize⟩ := hnext
        · exact absurd hopen hfin
        · obtain ⟨e, he⟩ := ih hrange (hsame ▸ hfin) (by rw [hrest]; omega)
          exact ⟨e, List.mem_cons_of_mem _ he⟩
      | frame f =>
        obtain ⟨hat, -, hrest, hrange, hsame, hsize⟩ := hnext
        have hlen := (frameAt_eq_some.mp hat).1
        have hshort : (s'.unread ++ stream reads').length < (s.unread ++ stream reads).length := by
          rw [hrest, List.length_drop]
          omega
        obtain ⟨e, he⟩ := ih hrange (hsame ▸ hfin) (by omega)
        exact ⟨e, List.mem_cons_of_mem _ he⟩

/-! ## 5. The writer's frames -/

/-- One entry of a batch. -/
def entry (f : Bytes) : Bytes := beBytes 4 f.length ++ f

/-- A frame the writer can name and the format allows. -/
structure Admissible (format : FrameFormat) (f : Bytes) : Prop where
  named : f.length < 2 ^ 32
  nonempty : 0 < f.length
  allowed : floor format f ≤ f.length

theorem entry_length (f : Bytes) : (entry f).length = 4 + f.length := by
  rw [entry, List.length_append, beBytes_length]

/-- The writer frames every admissible frame. -/
theorem encodeInto_eq {format : FrameFormat} {fs : List Bytes}
    (h : ∀ f ∈ fs, Admissible format f) (batch : Bytes) :
    fs.foldlM encodeInto batch = some (batch ++ fs.flatMap entry) := by
  induction fs generalizing batch with
  | nil => simp
  | cons f fs ih =>
    have hf : encodeInto batch f = some (batch ++ entry f) := by
      rw [encodeInto, if_pos (h f List.mem_cons_self).named, List.append_assoc]
      rfl
    have htail := ih (fun g hg => h g (List.mem_cons_of_mem _ hg)) (batch ++ entry f)
    rw [List.foldlM_cons, hf, List.flatMap_cons, ← List.append_assoc]
    exact htail

theorem frameAt_entry {format : FrameFormat} {f : Bytes} (h : Admissible format f)
    (rest : Bytes) : frameAt format (entry f ++ rest) = .ok (some f.length) := by
  have hfour := beBytes_length 4 f.length
  have hnamed : f.length < 256 ^ 4 := Nat.lt_of_lt_of_eq h.named (by decide)
  have hwhole : frameAt format (entry f) = .ok (some f.length) := by
    refine frameAt_eq_some.mpr ⟨Nat.le_of_eq (entry_length f).symm, ?_, h.nonempty, ?_⟩
    · rw [entry, List.take_left' hfour, ofBe_beBytes, Nat.mod_eq_of_lt hnamed]
    · rw [entry, List.drop_left' hfour]
      exact h.allowed
  exact frameAt_append hwhole rest

/-- A part of an entry holds no frame, and nothing the format does not allow. -/
theorem frameAt_part {format : FrameFormat} {f part : Bytes} (h : Admissible format f)
    (hpart : part <+: entry f) (hne : part ≠ entry f) : frameAt format part = .ok none := by
  obtain ⟨more, hmore⟩ := hpart
  have hall := frameAt_entry h []
  rw [List.append_nil, ← hmore] at hall
  cases hat : frameAt format part with
  | error e =>
    rw [frameAt_append_error hat more] at hall
    cases hall
  | ok found =>
    cases found with
    | none => rfl
    | some len =>
      have hlen := (frameAt_eq_some.mp hat).1
      rw [frameAt_append hat more] at hall
      have hsame : len = f.length := by
        cases hall
        rfl
      have htotal := congrArg List.length hmore
      rw [List.length_append, entry_length] at htotal
      have hnil : more = [] := List.eq_nil_of_length_eq_zero (by omega)
      exact absurd (by rw [← hmore, hnil, List.append_nil]) hne

/-- The frames of a stream of entries with a part of one behind them. -/
theorem parse_entries {format : FrameFormat} {fs : List Bytes} {f tail : Bytes}
    (hfs : ∀ g ∈ fs, Admissible format g) (hf : Admissible format f) (htail : tail <+: entry f)
    (hne : tail ≠ entry f) {k : Nat} {os : List Bytes} {rest : Bytes}
    (h : parse format k (fs.flatMap entry ++ tail) = some (os, rest)) :
    ∃ l, os ++ l = fs ∧ rest = l.flatMap entry ++ tail := by
  induction k generalizing fs os with
  | zero =>
    cases h
    exact ⟨fs, rfl, rfl⟩
  | succ k ih =>
    cases fs with
    | nil =>
      rw [List.flatMap_nil, List.nil_append, parse, frameAt_part hf htail hne] at h
      cases h
    | cons g fs =>
      have hg := hfs g List.mem_cons_self
      have hstream : (g :: fs).flatMap entry ++ tail = entry g ++ (fs.flatMap entry ++ tail) := by
        rw [List.flatMap_cons, List.append_assoc]
      have hdrop : (entry g ++ (fs.flatMap entry ++ tail)).drop (4 + g.length) =
          fs.flatMap entry ++ tail := List.drop_left' (entry_length g)
      have htake : ((entry g ++ (fs.flatMap entry ++ tail)).drop 4).take g.length = g := by
        rw [entry, List.append_assoc, List.drop_left' (beBytes_length 4 _), List.take_left' rfl]
      rw [hstream, parse, frameAt_entry hg] at h
      simp only [hdrop, htake, Option.map_eq_some_iff] at h
      obtain ⟨r, hr, hpair⟩ := h
      obtain ⟨os', rest'⟩ := r
      cases hpair
      obtain ⟨l, hl, hrest⟩ := ih (fun g' hg' => hfs g' (List.mem_cons_of_mem _ hg')) hr
      exact ⟨l, by rw [List.cons_append, hl], hrest⟩

theorem new_inRange : IpFrames.new.InRange := Nat.le_refl 0

/-- **The frames come through**: whatever the reads are, the frames handed out are the first ones
of the stream they give and no slice is out of range; an error is that of what is left of the
stream, or of its end, and enough calls come to one.  Of a batch of admissible frames, with a part
of one behind it, the frames handed out are the first ones of the batch, and an error comes only
behind all of them: at a boundary that the channel ended, else that it ended inside a frame. -/
theorem ip_frames_read (format : FrameFormat) (n : Nat) (reads : List Read) :
    (∃ rest, FollowsAll format (stream reads) (ending reads)
      (IpFrames.new.calls format n reads).1 rest) ∧
    (ending reads ≠ .stillOpen → reads.length + (stream reads).length < n →
      ∃ e, .error e ∈ (IpFrames.new.calls format n reads).1) ∧
    ∀ fs f batch tail, (∀ g ∈ fs, Admissible format g) → Admissible format f →
      fs.foldlM encodeInto [] = some batch → tail <+: entry f → tail ≠ entry f →
      stream reads = batch ++ tail →
      handedOut (IpFrames.new.calls format n reads).1 <+: fs ∧
      ∀ e, .error e ∈ (IpFrames.new.calls format n reads).1 →
        handedOut (IpFrames.new.calls format n reads).1 = fs ∧
        endError tail (ending reads) = some e := by
  have hall := followsAll_calls format n reads new_inRange
  refine ⟨hall, fun hfin hn => ends_calls format new_inRange hfin hn, ?_⟩
  intro fs f batch tail hfs hf hbatch htail hne hstream
  obtain ⟨rest, hall⟩ := hall
  have hentries : batch = fs.flatMap entry := by
    rw [encodeInto_eq hfs, List.nil_append] at hbatch
    exact (Option.some.inj hbatch).symm
  have hparsed := hall.parsed
  have hunread : IpFrames.new.unread ++ stream reads = fs.flatMap entry ++ tail := by
    rw [hstream, hentries]
    rfl
  rw [hunread] at hparsed
  obtain ⟨l, hl, hrest⟩ := parse_entries hfs hf htail hne hparsed
  refine ⟨⟨l, hl⟩, fun e he => ?_⟩
  have herror := hall.error e he
  cases l with
  | nil =>
    rw [List.append_nil] at hl
    rw [List.flatMap_nil, List.nil_append] at hrest
    rw [hrest, frameAt_part hf htail hne] at herror
    obtain hnone | ⟨-, hend⟩ := herror
    · cases hnone
    · exact ⟨hl, hend⟩
  | cons g l =>
    have hg := hfs g (by rw [← hl]; exact List.mem_append_right _ List.mem_cons_self)
    rw [hrest, List.flatMap_cons, List.append_assoc, frameAt_entry hg] at herror
    obtain hnone | ⟨hnone, -⟩ := herror
    · cases hnone
    · cases hnone

/-- Two packets and a part of a third, cut inside a length and inside a frame; one read waits. -/
def cutReads : List Read :=
  let packet : Bytes := List.replicate 20 0x45
  [.data [0, 0], .pending, .data (0 :: 20 :: packet ++ [0, 0, 0, 20] ++ packet.take 3),
    .data (packet.drop 3 ++ [0, 0, 0]), .data []]

theorem ip_frames_read_cut :
    (IpFrames.new.calls .ip 9 cutReads).1 =
      [.pending, .frame (List.replicate 20 0x45), .frame (List.replicate 20 0x45),
        .error (.midFrame 3)] ∧
    endError [0, 0, 0] (ending cutReads) = some (.midFrame 3) := by
  have hpacket : Admissible .ip (List.replicate 20 0x45) := ⟨by decide, by decide, by decide⟩
  have hcalls : (IpFrames.new.calls .ip 9 cutReads).1 =
      [.pending, .frame (List.replicate 20 0x45), .frame (List.replicate 20 0x45),
        .error (.midFrame 3)] := by
    decide +kernel
  have hread := (ip_frames_read .ip 9 cutReads).2.2
    [List.replicate 20 0x45, List.replicate 20 0x45] (List.replicate 20 0x45)
    ([0, 0, 0, 20] ++ List.replicate 20 0x45 ++ ([0, 0, 0, 20] ++ List.replicate 20 0x45)) [0, 0, 0]
    (by
      intro g hg
      have hsame : g = List.replicate 20 0x45 := by simpa using hg
      exact hsame ▸ hpacket)
    hpacket (by decide +kernel) (by decide +kernel) (by decide +kernel) (by decide +kernel)
  refine ⟨hcalls, (hread.2 (.midFrame 3) ?_).2⟩
  rw [hcalls]
  simp

/-- **The end of the stream at a boundary is an error**, not a clean end. -/
theorem boundary_end_is_an_error :
    ¬ ∀ (fs : List Bytes) (batch : Bytes), (∀ g ∈ fs, Admissible .ip g) →
      fs.foldlM encodeInto [] = some batch →
      ∀ n e, .error e ∉ (IpFrames.new.calls .ip n [.data batch, .data []]).1 := by
  intro hall
  have hnone := hall [] [] nofun rfl 1 .ended
  exact hnone (by decide)

end Molehill.Wire
