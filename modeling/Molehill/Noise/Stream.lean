/-
# The record stream under the Noise transport

Each direction of a `NoiseStream` is a stream of records: a length in two bytes, then a ciphertext
with its tag.  Both halves are poll state machines that hold a record across a suspension: the
writer one it has sealed and the inner stream has taken only a part of, the reader one that has
arrived only in part, or one it has opened and the caller has taken only a part of.  An event is
one turn of the loop in `poll_write` or `poll_read`; a call that waits takes no turn.

* `round_trip`: what has been read is a prefix of what was written, whatever the inner stream and
  the callers do; after a flush enough reads of any sizes come to all of it; the owned and the
  pooled path put the same bytes on the wire.  For the arithmetic of the lengths every record must
  have the length of a tag;
* `short_record_underflows`: the reader subtracts the tag from a length it has not checked.

The cipher is a parameter: `write_message` and `read_message` of the transport state, with the
nonce counted here.  The streams inside are TCP and KCP, which have nothing of their own to flush.
-/
import Mathlib.Data.List.Basic
import Molehill.Lib.Bytes
import Molehill.Lib.Transition

namespace Molehill.Noise

open Lib

def tagLen : Nat := 16

def maxMessageLen : Nat := 65535

def lengthFieldLen : Nat := 2

def maxFrameLen : Nat := lengthFieldLen + maxMessageLen

/-- The length header of the record in progress has not been decoded. -/
def unknownFrameLen : Nat := 0

/-- The transport state of the two ends, for one direction: what the `n`-th message is sealed to,
and what it is opened to. -/
structure Transport where
  writeMessage : Nat → Bytes → Option Bytes
  readMessage : Nat → Bytes → Option Bytes

/-- What the stream relies on: a message is opened to what was sealed, and the tag is all that is
added to it. -/
structure Transport.Reliable (T : Transport) : Prop where
  opens : ∀ {n m c}, T.writeMessage n m = some c → T.readMessage n c = some m
  adds : ∀ {n m c}, T.writeMessage n m = some c → c.length = m.length + tagLen

/-- A record on the wire. -/
def record (ciphertext : Bytes) : Bytes := leBytes lengthFieldLen ciphertext.length ++ ciphertext

/-! ## 1. The writer -/

inductive WriteState
  | idle
  /-- `message[start..]` has still to be written; it carries `payloadLen` bytes. -/
  | writingMessage (message : Bytes) (start payloadLen : Nat)
  /-- The same of a record that the inner stream takes by ownership. -/
  | writingOwned (message : Bytes) (offset payloadLen : Nat)
  | shuttingDown
  deriving DecidableEq

/-- The writing half; `pending` is the plaintext of the record in flight, `sent` has the plaintext
and the ciphertext of every record that has been written whole, and `written` what the calls of
`poll_write` have reported. -/
structure WriteHalf where
  state : WriteState
  nonce : Nat
  pending : Bytes
  sent : List (Bytes × Bytes)
  written : Bytes
  deriving DecidableEq

def WriteHalf.new : WriteHalf := ⟨.idle, 0, [], [], []⟩

/-- The branch of `WriteState::Idle`: seal as much of the buffer as a record holds.  The owned path
is for a record that carries something. -/
def WriteHalf.seal (T : Transport) (takesOwned : Bool) (buf : Bytes) (w : WriteHalf) : WriteHalf :=
  let payloadLen := min buf.length (maxMessageLen - tagLen)
  match T.writeMessage w.nonce (buf.take payloadLen) with
  | none => w
  | some ciphertext =>
    if maxMessageLen < ciphertext.length then { w with nonce := w.nonce + 1 }
    else
      { w with
        nonce := w.nonce + 1
        pending := buf.take payloadLen
        state :=
          if 0 < payloadLen ∧ takesOwned = true then .writingOwned (record ciphertext) 0 payloadLen
          else .writingMessage (record ciphertext) 0 payloadLen }

/-- A record that is on the wire to its end: the call reports its plaintext. -/
def WriteHalf.finish (buf message : Bytes) (payloadLen : Nat) (w : WriteHalf) : WriteHalf :=
  { w with
    state := .idle
    pending := []
    sent := w.sent ++ [(w.pending, message.drop lengthFieldLen)]
    written := w.written ++ buf.take payloadLen }

/-- The inner stream takes up to `give` bytes of the record in flight; `again` is the state the loop
goes on in while there is a rest.  A write that waited is retried with a buffer that starts as the
one it was begun with; the loop does not look at it again. -/
def WriteHalf.drive (again : Nat → WriteState) (message : Bytes) (start payloadLen : Nat)
    (buf : Bytes) (give : Nat) (w : WriteHalf) : Option (WriteHalf × Bytes) :=
  let n := min give (message.length - start)
  if ¬ w.pending <+: buf then none
  else if start + n = message.length then
    some (w.finish buf message payloadLen, (message.drop start).take n)
  else some ({ w with state := again (start + n) }, (message.drop start).take n)

/-- One turn of the loop in `poll_write`, and what goes on the wire. -/
def WriteHalf.pollWrite (T : Transport) (takesOwned : Bool) (buf : Bytes) (give : Nat)
    (w : WriteHalf) : Option (WriteHalf × Bytes) :=
  match w.state with
  | .shuttingDown => some (w, [])
  | .idle => some (w.seal T takesOwned buf, [])
  | .writingMessage message start payloadLen =>
    w.drive (.writingMessage message · payloadLen) message start payloadLen buf give
  | .writingOwned message offset payloadLen =>
    w.drive (.writingOwned message · payloadLen) message offset payloadLen buf give

/-- `poll_flush` returns; else it waits for the write that has a record in flight. -/
def WriteHalf.pollFlush (w : WriteHalf) : Bool := w.state = .idle ∨ w.state = .shuttingDown

/-- `poll_shutdown`. -/
def WriteHalf.pollShutdown (w : WriteHalf) : WriteHalf := { w with state := .shuttingDown }

/-! ## 2. The reader -/

inductive ReadState
  | readingRecord
  | servingPayload (served : Nat)
  | shuttingDown
  deriving DecidableEq

/-- The reading half; `window` is `scratch[read_start..read_filled]` and `payload` the valid part of
the payload buffer.  `read` is what the calls of `poll_read` have handed over. -/
structure ReadHalf where
  state : ReadState
  start : Nat
  window : Bytes
  expected : Nat
  payload : Bytes
  nonce : Nat
  read : Bytes
  /-- A record was refused: the call returned an error, and the callers drop the stream on one. -/
  refused : Bool
  /-- A subtraction of lengths went below zero. -/
  underflowed : Bool
  deriving DecidableEq

def ReadHalf.new : ReadHalf := ⟨.readingRecord, 0, [], unknownFrameLen, [], 0, [], false, false⟩

/-- Every buffered record is consumed: the window slides back to the front. -/
def ReadHalf.slide (r : ReadHalf) : ReadHalf := if r.window = [] then { r with start := 0 } else r

/-- The length header is decoded as soon as it is there. -/
def ReadHalf.decode (r : ReadHalf) : ReadHalf :=
  if r.expected = unknownFrameLen ∧ lengthFieldLen ≤ r.window.length then
    { r with expected := lengthFieldLen + ofLe (r.window.take lengthFieldLen) }
  else r

/-- The whole record is buffered: open it, into the caller's buffer where it holds the plaintext,
else into the payload buffer. -/
def ReadHalf.open (T : Transport) (room : Nat) (r : ReadHalf) : ReadHalf :=
  if r.expected < lengthFieldLen + tagLen then { r with underflowed := true }
  else
    let ciphertext := (r.window.take r.expected).drop lengthFieldLen
    let plaintextLen := r.expected - lengthFieldLen - tagLen
    let r := { r with
      start := r.start + r.expected
      window := r.window.drop r.expected
      expected := unknownFrameLen }
    match T.readMessage r.nonce ciphertext with
    | none => { r with refused := true }
    | some plaintext =>
      if 0 < plaintextLen ∧ plaintextLen ≤ room then
        { r with nonce := r.nonce + 1, read := r.read ++ plaintext }
      else if plaintext = [] then { r with nonce := r.nonce + 1, payload := plaintext }
      else
        { r with nonce := r.nonce + 1, payload := plaintext, state := .servingPayload 0 }

/-- A full buffer is compacted to the front. -/
def ReadHalf.compact (r : ReadHalf) : ReadHalf :=
  if r.start + r.window.length = maxFrameLen then { r with start := 0 } else r

/-- The record is incomplete: read up to `give` bytes more (`none` is the end of the inner stream)
into what is left of the buffer.  A read that has something to give gives at least one byte. -/
def ReadHalf.fill (give : Option Nat) (wire : Bytes) (r : ReadHalf) : ReadHalf × Bytes :=
  let space := maxFrameLen - (r.start + r.window.length)
  match give with
  | none => ({ r with state := .shuttingDown }, wire)
  | some give =>
    if give = 0 ∨ wire = [] then (r, wire)
    else if space = 0 then ({ r with state := .shuttingDown }, wire)
    else
      ({ r with window := r.window ++ wire.take (min give space) }, wire.drop (min give space))

/-- One turn of the loop in `poll_read`, for a caller with room for so many bytes. -/
def ReadHalf.pollRead (T : Transport) (room : Nat) (give : Option Nat) (wire : Bytes)
    (r : ReadHalf) : ReadHalf × Bytes :=
  match r.state with
  | .shuttingDown => (r, wire)
  | .servingPayload served =>
    let take := min (r.payload.length - served) room
    ({ r with
        read := r.read ++ (r.payload.drop served).take take
        state :=
          if served + take = r.payload.length then .readingRecord
          else .servingPayload (served + take) }, wire)
  | .readingRecord =>
    let r := r.slide.decode
    if r.expected ≠ unknownFrameLen ∧ r.expected ≤ r.window.length then (r.open T room, wire)
    else r.compact.fill give wire

/-! ## 3. The two ends -/

structure State where
  writer : WriteHalf
  /-- What the inner stream has taken and not yet delivered. -/
  wire : Bytes
  reader : ReadHalf
  deriving DecidableEq

def State.new : State := ⟨.new, [], .new⟩

inductive Event
  | write (buf : Bytes) (give : Nat)
  | shutdown
  | read (room : Nat) (give : Option Nat)
  /-- Somebody on the path puts something else on the wire. -/
  | tamper (wire : Bytes)

/-- A stream whose reader failed is not read again. -/
def step (T : Transport) (takesOwned : Bool) (s : State) : Event → Option State
  | .write buf give =>
    (s.writer.pollWrite T takesOwned buf give).map fun (w, bytes) =>
      { s with writer := w, wire := s.wire ++ bytes }
  | .shutdown => some { s with writer := s.writer.pollShutdown }
  | .read room give =>
    if s.reader.refused = true ∨ s.reader.underflowed = true then none
    else
      let (r, wire) := s.reader.pollRead T room give s.wire
      some { s with reader := r, wire := wire }
  | .tamper wire => some { s with wire := wire }

def lts (T : Transport) (takesOwned : Bool) : Lts State Event where
  init := (· = State.new)
  step s e s' := step T takesOwned s e = some s'

/-! ## 4. Records on the wire -/

/-- The records that were written whole, as they are on the wire. -/
def records (sent : List (Bytes × Bytes)) : Bytes := (sent.map fun p => record p.2).flatten

/-- The plaintext they carry. -/
def plaintext (sent : List (Bytes × Bytes)) : Bytes := (sent.map Prod.fst).flatten

@[simp] theorem records_append (l m : List (Bytes × Bytes)) :
    records (l ++ m) = records l ++ records m := by
  simp [records]

@[simp] theorem plaintext_append (l m : List (Bytes × Bytes)) :
    plaintext (l ++ m) = plaintext l ++ plaintext m := by
  simp [plaintext]

@[simp] theorem record_length (c : Bytes) : (record c).length = lengthFieldLen + c.length := by
  rw [record, List.length_append, leBytes_length]

/-- The length header in front of a string of bytes. -/
def bodyLen (window : Bytes) : Nat := ofLe (window.take lengthFieldLen)

/-- The body behind it. -/
def body (window : Bytes) : Bytes :=
  (window.take (lengthFieldLen + bodyLen window)).drop lengthFieldLen

theorem bodyLen_le (window : Bytes) : bodyLen window ≤ maxMessageLen := by
  have h := ofLe_lt (window.take lengthFieldLen)
  have hlen : (window.take lengthFieldLen).length ≤ 2 := List.length_take_le _ _
  have hpow : 256 ^ (window.take lengthFieldLen).length ≤ 256 ^ 2 :=
    Nat.pow_le_pow_right (by decide) hlen
  have hmax : 256 ^ 2 = maxMessageLen + 1 := by decide
  rw [bodyLen]
  omega

/-- Two bytes of a record are enough for its length. -/
theorem bodyLen_record {c window more tail : Bytes} (hc : c.length ≤ maxMessageLen)
    (h : window ++ more = record c ++ tail) (h2 : lengthFieldLen ≤ window.length) :
    bodyLen window = c.length := by
  have htake : window.take lengthFieldLen = leBytes lengthFieldLen c.length := by
    have hmore : (window ++ more).take lengthFieldLen = window.take lengthFieldLen :=
      List.take_append_of_le_length h2
    rw [← hmore, h, record, List.append_assoc, List.take_left' (leBytes_length _ _)]
  rw [bodyLen, htake, ofLe_leBytes, Nat.mod_eq_of_lt]
  exact Nat.lt_of_le_of_lt hc (by decide)

/-- A record that is there whole is what the window starts with. -/
theorem body_record {c window more tail : Bytes} (hc : c.length ≤ maxMessageLen)
    (h : window ++ more = record c ++ tail)
    (hwhole : lengthFieldLen + c.length ≤ window.length) :
    body window = c ∧ window.drop (lengthFieldLen + c.length) ++ more = tail := by
  have hlen := bodyLen_record hc h (Nat.le_trans (Nat.le_add_right _ _) hwhole)
  have htake : window.take (lengthFieldLen + c.length) = record c := by
    have hmore : (window ++ more).take (lengthFieldLen + c.length) =
        window.take (lengthFieldLen + c.length) := List.take_append_of_le_length hwhole
    rw [← hmore, h, List.take_left' (record_length c)]
  constructor
  · rw [body, hlen, htake, record, List.drop_left' (leBytes_length _ _)]
  · rw [← List.drop_append_of_le_length hwhole, h, List.drop_left' (record_length c)]

/-- A record that is not on the wire to its end. -/
def Cut (part : Bytes) : Prop :=
  ∃ c k, c.length ≤ maxMessageLen ∧ k < (record c).length ∧ part = (record c).take k

theorem Cut.nil : Cut [] := ⟨[], 0, Nat.zero_le _, by decide, rfl⟩

/-- It is never there whole. -/
theorem Cut.short {window more : Bytes} (h : Cut (window ++ more))
    (h2 : lengthFieldLen ≤ window.length) : window.length < lengthFieldLen + bodyLen window := by
  obtain ⟨c, k, hc, hk, hpart⟩ := h
  have hall : window ++ (more ++ (record c).drop k) = record c ++ [] := by
    rw [← List.append_assoc, hpart, List.take_append_drop, List.append_nil]
  rw [bodyLen_record hc hall h2]
  have hlen := congrArg List.length hpart
  rw [List.length_append, List.length_take] at hlen
  rw [record_length] at hk hlen
  omega

/-! ## 5. What the writer keeps -/

variable {T : Transport} {takesOwned : Bool}

/-- The record in flight: its bytes, how many of them the inner stream has taken, and what the call
is going to report. -/
def WriteState.inFlight : WriteState → Option (Bytes × Nat × Nat)
  | .writingMessage message start payloadLen => some (message, start, payloadLen)
  | .writingOwned message offset payloadLen => some (message, offset, payloadLen)
  | _ => none

/-- What is on the wire of a record that is not there whole. -/
def WriteHalf.Part (w : WriteHalf) (part : Bytes) : Prop :=
  match w.state with
  | .idle => part = []
  | .writingMessage message start _ => part = message.take start
  | .writingOwned message offset _ => part = message.take offset
  | .shuttingDown => Cut part

structure WriteHalf.Inv (T : Transport) (w : WriteHalf) : Prop where
  written : w.written = plaintext w.sent
  sealed : ∀ {i p}, w.sent[i]? = some p →
    T.writeMessage i p.1 = some p.2 ∧ p.2.length ≤ maxMessageLen
  idle : w.state = .idle → w.nonce = w.sent.length
  flight : ∀ {message start payloadLen}, w.state.inFlight = some (message, start, payloadLen) →
    w.nonce = w.sent.length + 1 ∧ payloadLen = w.pending.length ∧ start < message.length ∧
      ∃ c, T.writeMessage w.sent.length w.pending = some c ∧ c.length ≤ maxMessageLen ∧
        message = record c

theorem WriteHalf.Inv.new : WriteHalf.new.Inv T where
  written := rfl
  sealed h := nomatch h
  idle _ := rfl
  flight h := nomatch h

theorem WriteHalf.Inv.shutdown {w : WriteHalf} (h : w.Inv T) : w.pollShutdown.Inv T where
  written := h.written
  sealed := h.sealed
  idle h := nomatch h
  flight h := nomatch h

theorem WriteHalf.Part.of_inFlight {w : WriteHalf} {part message : Bytes} {start payloadLen : Nat}
    (hf : w.state.inFlight = some (message, start, payloadLen)) :
    w.Part part ↔ part = message.take start := by
  rw [WriteHalf.Part]
  cases hs : w.state with
  | idle | shuttingDown =>
    rw [hs] at hf
    cases hf
  | writingMessage | writingOwned =>
    rw [hs] at hf
    cases hf
    rfl

/-- What is there of a record in flight is not all of it. -/
theorem WriteHalf.Inv.cut {w : WriteHalf} (h : w.Inv T) {part : Bytes} (hp : w.Part part) :
    Cut part := by
  cases hf : w.state.inFlight with
  | some f =>
    obtain ⟨message, start, payloadLen⟩ := f
    obtain ⟨-, -, hlt, c, -, hc, rfl⟩ := h.flight hf
    exact ⟨c, start, hc, hlt, (WriteHalf.Part.of_inFlight hf).mp hp⟩
  | none =>
    rw [WriteHalf.Part] at hp
    cases hs : w.state with
    | idle =>
      rw [hs] at hp
      rw [hp]
      exact Cut.nil
    | shuttingDown =>
      rw [hs] at hp
      exact hp
    | writingMessage | writingOwned =>
      rw [hs] at hf
      cases hf

/-- **What a turn of the writer is.** -/
theorem WriteHalf.pollWrite_cases {w w' : WriteHalf} {buf bytes : Bytes} {give : Nat}
    (h : w.pollWrite T takesOwned buf give = some (w', bytes)) :
    (w.state = .shuttingDown ∧ w' = w ∧ bytes = []) ∨
    (w.state = .idle ∧ w' = w.seal T takesOwned buf ∧ bytes = []) ∨
    ∃ message start payloadLen n, w.state.inFlight = some (message, start, payloadLen) ∧
      w.pending <+: buf ∧ bytes = (message.drop start).take n ∧
      ((start + n = message.length ∧ w' = w.finish buf message payloadLen) ∨
        (start + n ≠ message.length ∧ start + n ≤ max start message.length ∧ ∃ again,
          again.inFlight = some (message, start + n, payloadLen) ∧
            w' = { w with state := again })) := by
  have drive : ∀ {again : Nat → WriteState} {message start payloadLen},
      (∀ k, (again k).inFlight = some (message, k, payloadLen)) →
      w.drive again message start payloadLen buf give = some (w', bytes) →
      ∃ n, w.pending <+: buf ∧ bytes = (message.drop start).take n ∧
      ((start + n = message.length ∧ w' = w.finish buf message payloadLen) ∨
        (start + n ≠ message.length ∧ start + n ≤ max start message.length ∧ ∃ again,
          again.inFlight = some (message, start + n, payloadLen) ∧
            w' = { w with state := again })) := by
    intro again message start payloadLen hagain h
    rw [WriteHalf.drive] at h
    split at h
    case isTrue => cases h
    case isFalse hbuf =>
      refine ⟨min give (message.length - start), Decidable.not_not.mp hbuf, ?_⟩
      split at h
      case isTrue hall =>
        cases h
        exact ⟨rfl, Or.inl ⟨hall, rfl⟩⟩
      case isFalse hrest =>
        cases h
        exact ⟨rfl, Or.inr ⟨hrest, by omega, _, hagain _, rfl⟩⟩
  rw [WriteHalf.pollWrite] at h
  split at h
  case h_1 hs =>
    cases h
    exact Or.inl ⟨hs, rfl, rfl⟩
  case h_2 hs =>
    cases h
    exact Or.inr (Or.inl ⟨hs, rfl, rfl⟩)
  case h_3 message start payloadLen hs =>
    obtain ⟨n, hn⟩ := drive (fun _ => rfl) h
    exact Or.inr (Or.inr ⟨message, start, payloadLen, n, by rw [hs]; rfl, hn⟩)
  case h_4 message start payloadLen hs =>
    obtain ⟨n, hn⟩ := drive (fun _ => rfl) h
    exact Or.inr (Or.inr ⟨message, start, payloadLen, n, by rw [hs]; rfl, hn⟩)

/-- Sealing puts a record in flight, with nothing of it on the wire, or fails and does nothing. -/
theorem WriteHalf.Inv.seal (hT : T.Reliable) {w : WriteHalf} (h : w.Inv T)
    (hidle : w.state = .idle) (takesOwned : Bool) (buf : Bytes) :
    (w.seal T takesOwned buf).Inv T ∧ (w.seal T takesOwned buf).sent = w.sent ∧
      (w.seal T takesOwned buf).Part [] := by
  have hidlePart : w.Part [] := by
    rw [WriteHalf.Part, hidle]
  rw [WriteHalf.seal]
  cases hm : T.writeMessage w.nonce (buf.take (min buf.length (maxMessageLen - tagLen))) with
  | none => exact ⟨h, rfl, hidlePart⟩
  | some c =>
    have hadds := hT.adds hm
    have hpay : (buf.take (min buf.length (maxMessageLen - tagLen))).length =
        min buf.length (maxMessageLen - tagLen) :=
      List.length_take_of_le (Nat.min_le_left _ _)
    have hfits : ¬ maxMessageLen < c.length := by
      rw [hadds, hpay]
      simp only [maxMessageLen, tagLen]
      omega
    rw [h.idle hidle] at hm
    dsimp only
    rw [if_neg hfits]
    have hstart : 0 < (record c).length := by
      rw [record_length]
      exact Nat.add_pos_left (by decide) _
    -- Both paths put the same record in flight.
    have flight : ∀ ws : WriteState,
        ws.inFlight = some (record c, 0, min buf.length (maxMessageLen - tagLen)) →
        let w' : WriteHalf := { w with
          nonce := w.nonce + 1
          pending := buf.take (min buf.length (maxMessageLen - tagLen))
          state := ws }
        w'.Inv T ∧ w'.sent = w.sent ∧ w'.Part [] := by
      intro ws hws w'
      refine ⟨⟨h.written, h.sealed, ?_, ?_⟩, rfl, (WriteHalf.Part.of_inFlight hws).mpr rfl⟩
      · intro hs
        rw [show ws = .idle from hs] at hws
        cases hws
      · intro message start payloadLen hf
        rw [show ws.inFlight = some (message, start, payloadLen) from hf] at hws
        cases hws
        exact ⟨by rw [← h.idle hidle], hpay.symm, hstart, c, hm, Nat.le_of_not_lt hfits, rfl⟩
    split
    case isTrue => exact flight (.writingOwned ..) rfl
    case isFalse => exact flight (.writingMessage ..) rfl

/-- A record that is on the wire to its end has been sent. -/
theorem WriteHalf.Inv.finish {w : WriteHalf} (h : w.Inv T) {message buf : Bytes}
    {start payloadLen : Nat} (hf : w.state.inFlight = some (message, start, payloadLen))
    (hbuf : w.pending <+: buf) :
    (w.finish buf message payloadLen).Inv T ∧
      ∃ p, (w.finish buf message payloadLen).sent = w.sent ++ [p] ∧ record p.2 = message := by
  obtain ⟨hnonce, rfl, -, c, hm, hc, rfl⟩ := h.flight hf
  have hdrop : (record c).drop lengthFieldLen = c := by
    rw [record, List.drop_left' (leBytes_length _ _)]
  rw [WriteHalf.finish, hdrop]
  refine ⟨⟨?_, ?_, ?_, nofun⟩, (w.pending, c), rfl, rfl⟩
  · simp [h.written, plaintext, ← List.prefix_iff_eq_take.mp hbuf]
  · intro i p hi
    by_cases hlt : i < w.sent.length
    · exact h.sealed (by rwa [List.getElem?_append_left hlt] at hi)
    · have hat := (List.getElem?_eq_some_iff.mp hi).1
      rw [List.length_append, List.length_singleton] at hat
      have heq : i = w.sent.length := by omega
      rw [heq, List.getElem?_concat_length] at hi
      cases hi
      rw [heq]
      exact ⟨hm, hc⟩
  · intro _
    simp [hnonce]

/-- **A turn of the writer** puts the next bytes of its records on the wire. -/
theorem WriteHalf.Inv.pollWrite (hT : T.Reliable) {w w' : WriteHalf} {buf bytes part : Bytes}
    {give : Nat} (h : w.Inv T) (hp : w.Part part)
    (hs : w.pollWrite T takesOwned buf give = some (w', bytes)) :
    w'.Inv T ∧ ∃ new part', w'.sent = w.sent ++ new ∧ part ++ bytes = records new ++ part' ∧
      w'.Part part' := by
  obtain ⟨-, rfl, rfl⟩ | ⟨hidle, rfl, rfl⟩ |
    ⟨message, start, payloadLen, n, hf, hbuf, rfl, hend | hmore⟩ := WriteHalf.pollWrite_cases hs
  · exact ⟨h, [], part, by simp, by simp [records], hp⟩
  · obtain ⟨hinv, hsent, hpart⟩ := h.seal hT hidle takesOwned buf
    have hnil : part = [] := by
      rw [WriteHalf.Part, hidle] at hp
      exact hp
    exact ⟨hinv, [], [], by simp [hsent], by simp [hnil, records], hpart⟩
  · obtain ⟨hall, rfl⟩ := hend
    obtain ⟨hinv, p, hsent, hrec⟩ := h.finish hf hbuf
    refine ⟨hinv, [p], [], hsent, ?_, rfl⟩
    rw [(WriteHalf.Part.of_inFlight hf).mp hp, ← List.take_add, hall, List.take_length]
    simp [records, hrec]
  · obtain ⟨hne, hle, again, hagain, rfl⟩ := hmore
    obtain ⟨hnonce, hlen, hlt, hc⟩ := h.flight hf
    refine ⟨⟨h.written, h.sealed, ?_, ?_⟩, [], message.take (start + n), by simp, ?_,
      (WriteHalf.Part.of_inFlight hagain).mpr rfl⟩
    · intro hs
      rw [show again = .idle from hs] at hagain
      cases hagain
    · intro message' start' payloadLen' hf'
      rw [show again.inFlight = some (message', start', payloadLen') from hf'] at hagain
      cases hagain
      exact ⟨hnonce, hlen, by omega, hc⟩
    · rw [(WriteHalf.Part.of_inFlight hf).mp hp, ← List.take_add]
      simp [records]

/-! ## 6. What the reader does -/

/-- What has been opened and not yet handed over. -/
def ReadHalf.unserved (r : ReadHalf) : Bytes :=
  match r.state with
  | .servingPayload served => r.payload.drop served
  | _ => []

/-- The reader is at a record that is buffered whole. -/
def ReadHalf.Whole (r : ReadHalf) : Prop :=
  r.state = .readingRecord ∧ lengthFieldLen ≤ r.window.length ∧
    lengthFieldLen + bodyLen r.window ≤ r.window.length

instance (r : ReadHalf) : Decidable r.Whole := inferInstanceAs (Decidable (_ ∧ _ ∧ _))

/-- The fields agree with one another. -/
structure ReadHalf.Sound (r : ReadHalf) : Prop where
  expected : r.expected ≠ unknownFrameLen →
    lengthFieldLen ≤ r.window.length ∧ r.expected = lengthFieldLen + bodyLen r.window
  filled : r.start + r.window.length ≤ maxFrameLen
  serving : ∀ {served}, r.state = .servingPayload served → served < r.payload.length

/-- **What a turn of the reader is.** -/
inductive ReadHalf.Turn (T : Transport) (r : ReadHalf) (wire : Bytes) :
    ReadHalf → Bytes → Prop
  /-- Bytes are moved along. -/
  | moved {r' : ReadHalf} {wire' : Bytes} : ¬ r.Whole → r'.nonce = r.nonce →
      r'.refused = r.refused → r'.underflowed = r.underflowed → r.read <+: r'.read →
      r'.read ++ r'.unserved = r.read ++ r.unserved →
      r'.window ++ wire' = r.window ++ wire → Turn T r wire r' wire'
  /-- A record is opened. -/
  | opened {r' : ReadHalf} {m : Bytes} : r.Whole → tagLen ≤ bodyLen r.window →
      T.readMessage r.nonce (body r.window) = some m → r'.nonce = r.nonce + 1 →
      r'.refused = r.refused → r'.underflowed = r.underflowed → r.read <+: r'.read →
      r'.read ++ r'.unserved = r.read ++ m →
      r'.window = r.window.drop (lengthFieldLen + bodyLen r.window) → Turn T r wire r' wire
  /-- A record is refused. -/
  | refused {r' : ReadHalf} : r.Whole → tagLen ≤ bodyLen r.window →
      T.readMessage r.nonce (body r.window) = none → r'.nonce = r.nonce →
      r'.underflowed = r.underflowed → r'.read = r.read → r'.unserved = r.unserved →
      r'.refused = true → Turn T r wire r' wire
  /-- A record is shorter than its tag. -/
  | underflowed {r' : ReadHalf} : r.Whole → bodyLen r.window < tagLen → r'.nonce = r.nonce →
      r'.read = r.read → r'.unserved = r.unserved → r'.underflowed = true → Turn T r wire r' wire

/-- Before its length is looked at, the window is where it was; its length is known when its header
is there. -/
theorem ReadHalf.Sound.decode {r : ReadHalf} (h : r.Sound) :
    ∃ start, start ≤ r.start ∧ r.slide.decode = { r with
      start := start
      expected := if lengthFieldLen ≤ r.window.length then lengthFieldLen + bodyLen r.window
        else unknownFrameLen } := by
  have hslide : ∃ start, start ≤ r.start ∧ r.slide = { r with start := start } := by
    rw [ReadHalf.slide]
    split
    case isTrue => exact ⟨0, Nat.zero_le _, rfl⟩
    case isFalse => exact ⟨r.start, Nat.le_refl _, rfl⟩
  obtain ⟨start, hle, hs⟩ := hslide
  refine ⟨start, hle, ?_⟩
  rw [hs, ReadHalf.decode]
  dsimp only
  by_cases hknown : r.expected = unknownFrameLen
  · by_cases h2 : lengthFieldLen ≤ r.window.length
    · rw [if_pos ⟨hknown, h2⟩, if_pos h2]
      rfl
    · rw [if_neg (fun hc => h2 hc.2), if_neg h2, hknown]
  · obtain ⟨h2, heq⟩ := h.expected hknown
    rw [if_neg (fun hc => hknown hc.1), if_pos h2, heq]

/-- A turn at a record that is there whole opens it. -/
theorem ReadHalf.Sound.pollRead_whole {r : ReadHalf} (h : r.Sound) (hw : r.Whole) (room : Nat)
    (give : Option Nat) (wire : Bytes) :
    ∃ start, start ≤ r.start ∧ r.pollRead T room give wire =
      (ReadHalf.open T room
        { r with start := start, expected := lengthFieldLen + bodyLen r.window }, wire) := by
  obtain ⟨start, hle, hd⟩ := h.decode
  refine ⟨start, hle, ?_⟩
  rw [if_pos hw.2.1] at hd
  have hknown : lengthFieldLen + bodyLen r.window ≠ unknownFrameLen := by
    simp [lengthFieldLen, unknownFrameLen]
  rw [ReadHalf.pollRead]
  split
  case h_1 hs | h_2 hs =>
    rw [hw.1] at hs
    cases hs
  case h_3 =>
    dsimp only
    rw [hd, if_pos ⟨hknown, hw.2.2⟩]

/-- A window that fills the buffer from its front holds a whole record. -/
theorem ReadHalf.window_lt {r : ReadHalf} (hs : r.state = .readingRecord) (hw : ¬ r.Whole) :
    r.window.length < maxFrameLen := by
  by_contra hfull
  have hbody := bodyLen_le r.window
  simp only [maxFrameLen] at hfull
  exact hw ⟨hs, by omega, by omega⟩

/-- Moving the window to the front makes room behind it. -/
theorem ReadHalf.compact_room {r : ReadHalf} (hfit : r.start + r.window.length ≤ maxFrameLen)
    (hlt : r.window.length < maxFrameLen) :
    ∃ start, r.compact = { r with start := start } ∧ start + r.window.length < maxFrameLen := by
  rw [ReadHalf.compact]
  split
  case isTrue => exact ⟨0, rfl, by omega⟩
  case isFalse hne => exact ⟨r.start, rfl, by omega⟩

/-- Where there is room, something that is there is read; the end of the inner stream is noted. -/
theorem ReadHalf.fill_room {r : ReadHalf} (hs : r.state = .readingRecord)
    (hroom : r.start + r.window.length < maxFrameLen) (give : Option Nat) (wire : Bytes) :
    ∃ n state, r.fill give wire =
        ({ r with window := r.window ++ wire.take n, state := state }, wire.drop n) ∧
      r.start + (r.window ++ wire.take n).length ≤ maxFrameLen ∧
      (give = none ∧ n = 0 ∧ state = .shuttingDown ∨ state = .readingRecord ∧
        ∀ g, give = some g → 0 < g → wire ≠ [] → 0 < n) := by
  unfold ReadHalf.fill
  cases give with
  | none =>
    refine ⟨0, .shuttingDown, by simp, ?_, Or.inl ⟨rfl, rfl, rfl⟩⟩
    rw [List.take_zero, List.append_nil]
    omega
  | some g =>
    dsimp only
    split
    case isTrue hnone =>
      refine ⟨0, .readingRecord, by simp [← hs], ?_, Or.inr ⟨rfl, ?_⟩⟩
      · rw [List.take_zero, List.append_nil]
        omega
      · intro g' hg hpos hwire
        cases hg
        exact (hnone.elim (Nat.ne_of_gt hpos) hwire).elim
    case isFalse =>
      rw [if_neg (by omega)]
      refine ⟨min g (maxFrameLen - (r.start + r.window.length)), .readingRecord, by simp [← hs], ?_,
        Or.inr ⟨rfl, ?_⟩⟩
      · rw [List.length_append, List.length_take]
        omega
      · intro g' hg hpos _
        cases hg
        omega

/-- **Any other turn at a record reads on**, and there is room to read on. -/
theorem ReadHalf.Sound.pollRead_partial {r : ReadHalf} (h : r.Sound)
    (hs : r.state = .readingRecord) (hw : ¬ r.Whole) (room : Nat) (give : Option Nat)
    (wire : Bytes) :
    ∃ start expected n state, r.pollRead T room give wire =
        ({ r with
            start := start, expected := expected, window := r.window ++ wire.take n
            state := state }, wire.drop n) ∧
      start + (r.window ++ wire.take n).length ≤ maxFrameLen ∧
      (expected ≠ unknownFrameLen →
        lengthFieldLen ≤ r.window.length ∧ expected = lengthFieldLen + bodyLen r.window) ∧
      (give = none ∧ n = 0 ∧ state = .shuttingDown ∨ state = .readingRecord ∧
        ∀ g, give = some g → 0 < g → wire ≠ [] → 0 < n) := by
  obtain ⟨start, hle, hd⟩ := h.decode
  have hfilled := h.filled
  generalize hexp : (if lengthFieldLen ≤ r.window.length then lengthFieldLen + bodyLen r.window
    else unknownFrameLen) = expected at hd
  have hknown : expected ≠ unknownFrameLen →
      lengthFieldLen ≤ r.window.length ∧ expected = lengthFieldLen + bodyLen r.window := by
    intro hne
    split at hexp
    case isTrue h2 => exact ⟨h2, hexp.symm⟩
    case isFalse => exact absurd hexp.symm hne
  have hpart : ¬ (expected ≠ unknownFrameLen ∧ expected ≤ r.window.length) := by
    rintro ⟨hne, hall⟩
    obtain ⟨h2, heq⟩ := hknown hne
    exact hw ⟨hs, h2, heq ▸ hall⟩
  obtain ⟨start', hc, hroom⟩ :=
    ReadHalf.compact_room (r := { r with start := start, expected := expected })
      (Nat.le_trans (Nat.add_le_add_right hle _) hfilled) (ReadHalf.window_lt hs hw)
  obtain ⟨n, state, hfill, hfit, hstate⟩ :=
    ReadHalf.fill_room (r := { r with start := start', expected := expected }) hs hroom give wire
  refine ⟨start', expected, n, state, ?_, hfit, hknown, hstate⟩
  rw [ReadHalf.pollRead]
  split
  case h_1 hs' | h_2 hs' =>
    rw [hs] at hs'
    cases hs'
  case h_3 =>
    dsimp only
    rw [hd, if_neg hpart, hc]
    exact hfill

/-- The header of what stands in the window does not change as more comes in. -/
theorem bodyLen_append {window more : Bytes} (h2 : lengthFieldLen ≤ window.length) :
    bodyLen (window ++ more) = bodyLen window := by
  rw [bodyLen, bodyLen, List.take_append_of_le_length h2]

/-- A record that is refused is passed over. -/
theorem ReadHalf.open_refused {r : ReadHalf} {start : Nat}
    (hlong : ¬ lengthFieldLen + bodyLen r.window < lengthFieldLen + tagLen)
    (hm : T.readMessage r.nonce (body r.window) = none) (room : Nat) :
    ReadHalf.open T room { r with start := start, expected := lengthFieldLen + bodyLen r.window } =
      { r with
        start := start + (lengthFieldLen + bodyLen r.window)
        window := r.window.drop (lengthFieldLen + bodyLen r.window)
        expected := unknownFrameLen
        refused := true } := by
  rw [body] at hm
  rw [ReadHalf.open, if_neg hlong]
  dsimp only
  rw [hm]

/-- A record that opens goes to the caller at once, or is kept to be served from. -/
theorem ReadHalf.open_opened {r : ReadHalf} (start : Nat) {m : Bytes}
    (hs : r.state = .readingRecord)
    (hlong : ¬ lengthFieldLen + bodyLen r.window < lengthFieldLen + tagLen)
    (hm : T.readMessage r.nonce (body r.window) = some m) (room : Nat) :
    ∃ payload read state,
      ReadHalf.open T room
          { r with start := start, expected := lengthFieldLen + bodyLen r.window } =
        { r with
          start := start + (lengthFieldLen + bodyLen r.window)
          window := r.window.drop (lengthFieldLen + bodyLen r.window)
          expected := unknownFrameLen
          nonce := r.nonce + 1
          payload := payload, read := read, state := state } ∧
      (read = r.read ++ m ∧ state = .readingRecord ∨
        read = r.read ∧ m = [] ∧ state = .readingRecord ∨
        read = r.read ∧ m ≠ [] ∧ payload = m ∧ state = .servingPayload 0) := by
  rw [body] at hm
  rw [ReadHalf.open, if_neg hlong]
  dsimp only
  rw [hm]
  dsimp only
  split
  case isTrue => exact ⟨_, _, _, rfl, Or.inl ⟨rfl, hs⟩⟩
  case isFalse =>
    split
    case isTrue hnil => exact ⟨_, _, _, rfl, Or.inr (Or.inl ⟨rfl, hnil, hs⟩)⟩
    case isFalse hne => exact ⟨_, _, _, rfl, Or.inr (Or.inr ⟨rfl, hne, rfl, rfl⟩)⟩

/-- Opening a record that is there whole. -/
theorem ReadHalf.Sound.open {r : ReadHalf} (h : r.Sound) (hw : r.Whole) {start : Nat}
    (hstart : start ≤ r.start) (room : Nat) (wire : Bytes) :
    let r' := ReadHalf.open T room
      { r with start := start, expected := lengthFieldLen + bodyLen r.window }
    r.Turn T wire r' wire ∧ r'.Sound := by
  have hfilled := h.filled
  have hunserved : r.unserved = [] := by
    rw [ReadHalf.unserved, hw.1]
  intro r'
  by_cases hshort : lengthFieldLen + bodyLen r.window < lengthFieldLen + tagLen
  · have hr : r' = { r with
        start := start, expected := lengthFieldLen + bodyLen r.window, underflowed := true } :=
      if_pos hshort
    rw [hr]
    exact ⟨.underflowed hw (by omega) rfl rfl rfl rfl, fun _ => ⟨hw.2.1, rfl⟩, by dsimp only; omega,
      h.serving⟩
  · have hlong : tagLen ≤ bodyLen r.window := by omega
    have hfit : start + (lengthFieldLen + bodyLen r.window) +
        (r.window.drop (lengthFieldLen + bodyLen r.window)).length ≤ maxFrameLen := by
      have hwhole := hw.2.2
      rw [List.length_drop]
      omega
    cases hm : T.readMessage r.nonce (body r.window) with
    | none =>
      have hr : r' = _ := ReadHalf.open_refused hshort hm room
      rw [hr]
      exact ⟨.refused hw hlong hm rfl rfl rfl rfl rfl, fun hne => absurd rfl hne, hfit, h.serving⟩
    | some m =>
      obtain ⟨payload, read, state, hopen, hcase⟩ :=
        ReadHalf.open_opened start hw.1 hshort hm room
      have hr : r' = _ := hopen
      obtain ⟨rfl, rfl⟩ | ⟨rfl, rfl, rfl⟩ | ⟨rfl, hne, rfl, rfl⟩ := hcase
      · rw [hr]
        refine ⟨.opened hw hlong hm rfl rfl rfl (List.prefix_append _ _) ?_ rfl,
          fun hne => absurd rfl hne, hfit, nofun⟩
        exact List.append_nil _
      · rw [hr]
        exact ⟨.opened hw hlong hm rfl rfl rfl (List.prefix_refl _) rfl rfl,
          fun hne => absurd rfl hne, hfit, nofun⟩
      · rw [hr]
        refine ⟨.opened hw hlong hm rfl rfl rfl (List.prefix_refl _) rfl rfl,
          fun hne => absurd rfl hne, hfit, ?_⟩
        intro served hs
        cases hs
        exact List.length_pos_of_ne_nil hne

/-- **Every turn of the reader is one of the four**, and leaves its fields in agreement. -/
theorem ReadHalf.Sound.pollRead {r : ReadHalf} (h : r.Sound) (room : Nat) (give : Option Nat)
    (wire : Bytes) :
    r.Turn T wire (r.pollRead T room give wire).1 (r.pollRead T room give wire).2 ∧
      (r.pollRead T room give wire).1.Sound := by
  have notWhole : r.state ≠ .readingRecord → ¬ r.Whole := fun hne hw => hne hw.1
  cases hs : r.state with
  | shuttingDown =>
    have hpoll : r.pollRead T room give wire = (r, wire) := by
      rw [ReadHalf.pollRead, hs]
    rw [hpoll]
    exact ⟨.moved (notWhole (by simp [hs])) rfl rfl rfl (List.prefix_refl _) rfl rfl, h⟩
  | servingPayload served =>
    have hlt := h.serving hs
    have hno := notWhole (by simp [hs])
    rw [ReadHalf.pollRead, hs]
    dsimp only
    generalize hn : min (r.payload.length - served) room = n
    have hunserved :
        r.unserved = (r.payload.drop served).take n ++ r.payload.drop (served + n) := by
      rw [ReadHalf.unserved, hs, ← List.drop_drop, List.take_append_drop]
    by_cases hall : served + n = r.payload.length
    · rw [if_pos hall]
      refine ⟨.moved hno rfl rfl rfl (List.prefix_append _ _) ?_ rfl, h.expected, h.filled, nofun⟩
      rw [hunserved, hall, List.drop_length, List.append_nil]
      exact List.append_nil _
    · rw [if_neg hall]
      refine ⟨.moved hno rfl rfl rfl (List.prefix_append _ _) ?_ rfl, h.expected, h.filled, ?_⟩
      · rw [hunserved, ← List.append_assoc]
        rfl
      · intro served' hs'
        cases hs'
        dsimp only
        omega
  | readingRecord =>
    by_cases hw : r.Whole
    · obtain ⟨start, hle, hpoll⟩ := h.pollRead_whole (T := T) hw room give wire
      rw [hpoll]
      exact h.open hw hle room wire
    · obtain ⟨start, expected, n, state, hpoll, hfit, hknown, hstate⟩ :=
        h.pollRead_partial (T := T) hs hw room give wire
      rw [hpoll]
      have hserving : ∀ served, state ≠ .servingPayload served := by
        intro served heq
        obtain ⟨-, -, hstate⟩ | ⟨hstate, -⟩ := hstate
        · rw [hstate] at heq
          cases heq
        · rw [hstate] at heq
          cases heq
      have hunserved : r.unserved = [] := by
        rw [ReadHalf.unserved, hs]
      refine ⟨.moved hw rfl rfl rfl (List.prefix_refl _) ?_ ?_, ?_, hfit, ?_⟩
      · rw [hunserved, ReadHalf.unserved]
        obtain ⟨-, -, rfl⟩ | ⟨rfl, -⟩ := hstate
        · rfl
        · rfl
      · rw [List.append_assoc, List.take_append_drop]
      · intro hne
        obtain ⟨h2, heq⟩ := hknown hne
        refine ⟨?_, ?_⟩
        · rw [List.length_append]
          exact Nat.le_add_right_of_le h2
        · rw [bodyLen_append h2]
          exact heq
      · intro served heq
        exact absurd heq (hserving served)

/-! ## 7. What is read is what was written -/

/-- A record that the reader opens has room for its tag. -/
def LongRecord (s : State) : Event → Prop
  | .read .. => s.reader.Whole → tagLen ≤ bodyLen s.reader.window
  | _ => True

/-- A record that opens is the one that was sent with its number. -/
def Genuine (T : Transport) (s : State) : Event → Prop
  | .read .. => s.reader.Whole → ∀ m, T.readMessage s.reader.nonce (body s.reader.window) = some m →
      ∃ m', s.writer.sent[s.reader.nonce]? = some (m', body s.reader.window)
  | _ => True

structure Inv (T : Transport) (s : State) : Prop where
  writer : s.writer.Inv T
  reader : s.reader.Sound
  counted : s.reader.nonce ≤ s.writer.sent.length
  opened : s.reader.read ++ s.reader.unserved = plaintext (s.writer.sent.take s.reader.nonce)

theorem Inv.new : Inv T State.new :=
  ⟨.new, ⟨fun h => absurd rfl h, by decide, nofun⟩, Nat.le_refl _, rfl⟩

theorem Inv.behind {s : State} (h : Inv T s) : s.reader.read <+: s.writer.written := by
  rw [h.writer.written, ← List.take_append_drop s.reader.nonce s.writer.sent, plaintext_append,
    ← h.opened, List.append_assoc]
  exact List.prefix_append _ _

/-- What the writer adds does not change what has been opened. -/
theorem Inv.written {s : State} (h : Inv T s) {w : WriteHalf} {wire : Bytes}
    {new : List (Bytes × Bytes)} (hw : w.Inv T) (hsent : w.sent = s.writer.sent ++ new) :
    Inv T { s with writer := w, wire := wire } where
  writer := hw
  reader := h.reader
  counted := by
    have hle := h.counted
    simp only [hsent, List.length_append]
    omega
  opened := by
    simp only [hsent, List.take_append_of_le_length h.counted]
    exact h.opened

/-- A turn of the reader that opens only what was sent. -/
theorem Inv.read (hT : T.Reliable) {s : State} (h : Inv T s) {r : ReadHalf} {wire : Bytes}
    (ht : s.reader.Turn T s.wire r wire) (hr : r.Sound)
    (hg : s.reader.Whole → ∀ m, T.readMessage s.reader.nonce (body s.reader.window) = some m →
      ∃ m', s.writer.sent[s.reader.nonce]? = some (m', body s.reader.window)) :
    Inv T { s with reader := r, wire := wire } := by
  cases ht with
  | moved _ hnonce _ _ _ hread _ =>
    exact ⟨h.writer, hr, by simpa only [hnonce] using h.counted, by
      simpa only [hnonce, hread] using h.opened⟩
  | opened hw _ hm hnonce _ _ _ hread _ =>
    obtain ⟨m', hsent⟩ := hg hw _ hm
    have hm' := hT.opens (h.writer.sealed hsent).1
    rw [hm] at hm'
    cases hm'
    have hunserved : s.reader.unserved = [] := by
      rw [ReadHalf.unserved, hw.1]
    have hopened := h.opened
    rw [hunserved, List.append_nil] at hopened
    refine ⟨h.writer, hr, ?_, ?_⟩
    · rw [hnonce]
      exact (List.getElem?_eq_some_iff.mp hsent).1
    · change r.read ++ r.unserved = plaintext (s.writer.sent.take r.nonce)
      rw [hread, hnonce, List.take_add_one, hsent, plaintext_append, ← hopened]
      simp [plaintext]
  | refused _ _ _ hnonce _ hread hunserved _ =>
    exact ⟨h.writer, hr, by simpa only [hnonce] using h.counted, by
      simpa only [hnonce, hread, hunserved] using h.opened⟩
  | underflowed _ _ hnonce hread hunserved _ =>
    exact ⟨h.writer, hr, by simpa only [hnonce] using h.counted, by
      simpa only [hnonce, hread, hunserved] using h.opened⟩

/-- A read is a turn of a reader that has not failed. -/
theorem step_read {s s' : State} {room : Nat} {give : Option Nat}
    (h : step T takesOwned s (.read room give) = some s') :
    (s.reader.refused = false ∧ s.reader.underflowed = false) ∧
      ∃ r wire, s.reader.pollRead T room give s.wire = (r, wire) ∧
        s' = { s with reader := r, wire := wire } := by
  rw [Noise.step] at h
  split at h
  case isTrue => cases h
  case isFalse hok =>
    refine ⟨by simpa using hok, _, _, rfl, ?_⟩
    exact (Option.some.inj h).symm

/-- Whatever is put on the wire, a read of genuine records keeps to what was sent. -/
theorem Inv.step (hT : T.Reliable) {s s' : State} (h : Inv T s) {e : Event} (hg : Genuine T s e)
    (hs : step T takesOwned s e = some s') : Inv T s' := by
  cases e with
  | write buf give =>
    obtain ⟨⟨w, bytes⟩, hw, rfl⟩ := Option.map_eq_some_iff.mp hs
    -- Which part of a record is on the wire does not matter here.
    obtain ⟨part, hp⟩ : ∃ part, s.writer.Part part := by
      unfold WriteHalf.Part
      split
      · exact ⟨_, rfl⟩
      · exact ⟨_, rfl⟩
      · exact ⟨_, rfl⟩
      · exact ⟨[], Cut.nil⟩
    obtain ⟨hinv, new, part', hsent, -, -⟩ := h.writer.pollWrite hT hp hw
    exact h.written hinv hsent
  | shutdown =>
    cases hs
    exact h.written h.writer.shutdown (List.append_nil _).symm
  | read room give =>
    obtain ⟨-, r, wire, hpoll, rfl⟩ := step_read hs
    obtain ⟨ht, hr⟩ := h.reader.pollRead (T := T) room give s.wire
    rw [hpoll] at ht hr
    exact h.read hT ht hr hg
  | tamper wire =>
    cases hs
    exact ⟨h.writer, h.reader, h.counted, h.opened⟩

/-- A turn that opens records no shorter than their tag does not underflow, and one that opens a
shorter one does. -/
theorem underflowed_step {s s' : State} (h : s.reader.Sound) {e : Event}
    (hs : step T takesOwned s e = some s') :
    s'.reader.underflowed = true ↔ s.reader.underflowed = true ∨ ¬ LongRecord s e := by
  cases e with
  | write buf give =>
    obtain ⟨⟨w, bytes⟩, hw, rfl⟩ := Option.map_eq_some_iff.mp hs
    simp [LongRecord]
  | shutdown | tamper =>
    cases hs
    simp [LongRecord]
  | read room give =>
    obtain ⟨-, r, wire, hpoll, rfl⟩ := step_read hs
    obtain ⟨ht, -⟩ := h.pollRead (T := T) room give s.wire
    rw [hpoll] at ht
    change r.underflowed = true ↔ _
    cases ht with
    | moved hw _ _ hsame =>
      rw [hsame]
      exact ⟨Or.inl, fun hor => hor.resolve_right fun hlong => hlong fun hw' => absurd hw' hw⟩
    | opened _ hlong _ _ _ hsame =>
      rw [hsame]
      exact ⟨Or.inl, fun hor => hor.resolve_right fun hno => hno fun _ => hlong⟩
    | refused _ hlong _ _ hsame =>
      rw [hsame]
      exact ⟨Or.inl, fun hor => hor.resolve_right fun hno => hno fun _ => hlong⟩
    | underflowed hw hshort _ _ _ hset =>
      exact ⟨fun _ => Or.inr fun hlong => absurd (hlong hw) (Nat.not_le_of_lt hshort),
        fun _ => hset⟩

/-! ## 8. A path that keeps what it is given -/

/-- Nobody puts anything on the wire, and the stream ends when its writer has shut down and all of
it has arrived. -/
def Honest (s : State) : Event → Prop
  | .tamper _ => False
  | .read _ none => s.writer.state = .shuttingDown ∧ s.wire = []
  | _ => True

instance (s : State) : (e : Event) → Decidable (Honest s e)
  | .tamper _ => inferInstanceAs (Decidable False)
  | .read _ none => inferInstanceAs (Decidable (_ ∧ _))
  | .read _ (some _) | .write .. | .shutdown => inferInstanceAs (Decidable True)

/-- What is in the window and on the wire is what has been sent and not yet opened, and the part of
a record that is there. -/
structure InStep (T : Transport) (s : State) : Prop extends Inv T s where
  wired : ∃ part, s.writer.Part part ∧
    s.reader.window ++ s.wire = records (s.writer.sent.drop s.reader.nonce) ++ part
  sound : s.reader.underflowed = false ∧ s.reader.refused = false
  ended : s.reader.state = .shuttingDown →
    s.writer.state = .shuttingDown ∧ s.wire = [] ∧ s.writer.sent.length = s.reader.nonce

theorem InStep.new : InStep T State.new :=
  ⟨.new, ⟨[], rfl, rfl⟩, ⟨rfl, rfl⟩, nofun⟩

/-- The next record of the window is the next one that was sent. -/
theorem InStep.next (hT : T.Reliable) {s : State} (h : InStep T s) (hw : s.reader.Whole) :
    ∃ m c, s.writer.sent[s.reader.nonce]? = some (m, c) ∧ body s.reader.window = c ∧
      bodyLen s.reader.window = m.length + tagLen ∧ T.readMessage s.reader.nonce c = some m ∧
      ∃ part, s.writer.Part part ∧
        s.reader.window.drop (lengthFieldLen + bodyLen s.reader.window) ++ s.wire =
          records (s.writer.sent.drop (s.reader.nonce + 1)) ++ part := by
  obtain ⟨part, hp, hwire⟩ := h.wired
  by_cases hlt : s.reader.nonce < s.writer.sent.length
  · have hget := List.getElem?_eq_getElem hlt
    generalize s.writer.sent[s.reader.nonce] = p at hget
    obtain ⟨m, c⟩ := p
    obtain ⟨hm, hc⟩ := h.writer.sealed hget
    have hdrop : s.writer.sent.drop s.reader.nonce =
        (m, c) :: s.writer.sent.drop (s.reader.nonce + 1) := by
      rw [List.drop_eq_getElem_cons hlt]
      rw [List.getElem?_eq_getElem hlt, Option.some.injEq] at hget
      rw [hget]
    have hwire' : s.reader.window ++ s.wire =
        record c ++ (records (s.writer.sent.drop (s.reader.nonce + 1)) ++ part) := by
      rw [hwire, hdrop, ← List.append_assoc]
      rfl
    have hlen := bodyLen_record hc hwire' hw.2.1
    obtain ⟨hbody, hrest⟩ := body_record hc hwire' (hlen ▸ hw.2.2)
    exact ⟨m, c, hget, hbody, by rw [hlen, hT.adds hm], hT.opens hm, part, hp, hlen ▸ hrest⟩
  · rw [List.drop_eq_nil_of_le (Nat.le_of_not_lt hlt)] at hwire
    have hcut : Cut (s.reader.window ++ s.wire) := by
      rw [hwire]
      exact h.writer.cut hp
    have hshort := hcut.short hw.2.1
    have hwhole := hw.2.2
    omega

/-- A window without a whole record, and nothing behind it: everything that was sent is opened. -/
theorem InStep.drained {s : State} (h : InStep T s) (hs : s.reader.state = .readingRecord)
    (hw : ¬ s.reader.Whole) (hwire : s.wire = []) : s.writer.sent.length = s.reader.nonce := by
  have hle := h.counted
  by_contra hne
  have hlt : s.reader.nonce < s.writer.sent.length := by omega
  obtain ⟨part, -, hall⟩ := h.wired
  have hget := List.getElem?_eq_getElem hlt
  rw [List.drop_eq_getElem_cons hlt] at hall
  generalize s.writer.sent[s.reader.nonce] = p at hget hall
  have hc := (h.writer.sealed hget).2
  have hall' : s.reader.window ++ s.wire =
      record p.2 ++ (records (s.writer.sent.drop (s.reader.nonce + 1)) ++ part) := by
    rw [hall, ← List.append_assoc]
    rfl
  have hlen := congrArg List.length hall'
  simp only [hwire, List.append_nil, List.length_append, record_length] at hlen
  have h2 : lengthFieldLen ≤ s.reader.window.length := by omega
  refine hw ⟨hs, h2, ?_⟩
  rw [bodyLen_record hc hall' h2]
  omega

/-- What an honest path delivers is long enough and genuine. -/
theorem InStep.genuine (hT : T.Reliable) {s : State} (h : InStep T s) (e : Event) :
    LongRecord s e ∧ Genuine T s e := by
  cases e with
  | write | shutdown | tamper => exact ⟨trivial, trivial⟩
  | read room give =>
    constructor
    · intro hw
      obtain ⟨m, c, -, -, hlen, -⟩ := h.next hT hw
      omega
    · intro hw m' _
      obtain ⟨m, c, hget, hbody, -⟩ := h.next hT hw
      exact ⟨m, hbody ▸ hget⟩

/-- A turn of the writer on an honest path. -/
theorem InStep.write (hT : T.Reliable) {s s' : State} (h : InStep T s) {buf : Bytes} {give : Nat}
    (hs : step T takesOwned s (.write buf give) = some s') : InStep T s' := by
  have hinv := h.toInv.step (e := .write buf give) hT trivial hs
  obtain ⟨⟨w, bytes⟩, hw, rfl⟩ := Option.map_eq_some_iff.mp hs
  obtain ⟨part, hp, hwire⟩ := h.wired
  obtain ⟨-, new, part', hsent, hbytes, hp'⟩ := h.writer.pollWrite hT hp hw
  refine ⟨hinv, ⟨part', hp', ?_⟩, h.sound, ?_⟩
  · change s.reader.window ++ (s.wire ++ bytes) = records (w.sent.drop s.reader.nonce) ++ part'
    rw [hsent, List.drop_append_of_le_length h.counted, records_append, List.append_assoc, ← hbytes,
      ← List.append_assoc, hwire, List.append_assoc]
  · intro hend
    obtain ⟨hdown, hempty, hlen⟩ := h.ended hend
    rw [WriteHalf.pollWrite, hdown] at hw
    cases hw
    exact ⟨hdown, by simpa using hempty, hlen⟩

theorem InStep.shutdown {s : State} (h : InStep T s) :
    InStep T { s with writer := s.writer.pollShutdown } := by
  obtain ⟨part, hp, hwire⟩ := h.wired
  refine ⟨?_, ⟨part, h.writer.cut hp, hwire⟩, h.sound, ?_⟩
  · exact h.toInv.written h.writer.shutdown (List.append_nil _).symm
  · intro hend
    exact ⟨rfl, (h.ended hend).2⟩

/-- The reader stops only where its stream ends. -/
theorem ReadHalf.Sound.shuttingDown {r : ReadHalf} (h : r.Sound) {room : Nat} {give : Option Nat}
    {wire : Bytes} (hend : (r.pollRead T room give wire).1.state = .shuttingDown) :
    r.state = .shuttingDown ∨
      r.state = .readingRecord ∧ ¬ r.Whole ∧ give = none ∧
        (r.pollRead T room give wire).1.nonce = r.nonce ∧
        (r.pollRead T room give wire).2 = wire := by
  cases hs : r.state with
  | shuttingDown => exact Or.inl rfl
  | servingPayload served =>
    rw [ReadHalf.pollRead, hs] at hend
    dsimp only at hend
    split at hend
    case isTrue => cases hend
    case isFalse => cases hend
  | readingRecord =>
    refine Or.inr ⟨rfl, ?_⟩
    by_cases hw : r.Whole
    · obtain ⟨start, -, hpoll⟩ := h.pollRead_whole (T := T) hw room give wire
      rw [hpoll, ReadHalf.open] at hend
      dsimp only at hend
      split at hend
      case isTrue =>
        rw [hs] at hend
        cases hend
      case isFalse =>
        split at hend
        case h_1 =>
          rw [hs] at hend
          cases hend
        case h_2 =>
          split at hend
          case isTrue =>
            rw [hs] at hend
            cases hend
          case isFalse =>
            split at hend
            case isTrue =>
              rw [hs] at hend
              cases hend
            case isFalse => cases hend
    · obtain ⟨start, expected, n, state, hpoll, -, -, ⟨hnone, rfl, -⟩ | ⟨hstate, -⟩⟩ :=
        h.pollRead_partial (T := T) hs hw room give wire
      · rw [hpoll]
        exact ⟨hw, hnone, rfl, rfl⟩
      · rw [hpoll] at hend
        rw [show state = .shuttingDown from hend] at hstate
        cases hstate

/-- A turn of the reader on an honest path. -/
theorem InStep.read (hT : T.Reliable) {s s' : State} (h : InStep T s) {room : Nat}
    {give : Option Nat} (hh : Honest s (.read room give))
    (hs : step T takesOwned s (.read room give) = some s') : InStep T s' := by
  have hinv := h.toInv.step hT (h.genuine hT (.read room give)).2 hs
  obtain ⟨-, r, wire, hpoll, rfl⟩ := step_read hs
  obtain ⟨ht, -⟩ := h.reader.pollRead (T := T) room give s.wire
  rw [hpoll] at ht
  refine ⟨hinv, ?_, ?_, ?_⟩
  · change ∃ part, s.writer.Part part ∧
      r.window ++ wire = records (s.writer.sent.drop r.nonce) ++ part
    cases ht with
    | moved _ hnonce _ _ _ _ hmoved =>
      rw [hmoved, hnonce]
      exact h.wired
    | opened hw _ _ hnonce _ _ _ _ hwindow =>
      obtain ⟨m, c, -, -, -, -, part, hp, hrest⟩ := h.next hT hw
      exact ⟨part, hp, by rw [hwindow, hnonce]; exact hrest⟩
    | refused hw _ hnone =>
      obtain ⟨m, c, -, hbody, -, hsome, -⟩ := h.next hT hw
      rw [hbody, hsome] at hnone
      cases hnone
    | underflowed hw hshort =>
      obtain ⟨m, c, -, -, hlen, -⟩ := h.next hT hw
      omega
  · change r.underflowed = false ∧ r.refused = false
    cases ht with
    | moved _ _ hrefused hunder =>
      rw [hrefused, hunder]
      exact h.sound
    | opened _ _ _ _ hrefused hunder =>
      rw [hrefused, hunder]
      exact h.sound
    | refused hw _ hnone =>
      obtain ⟨m, c, -, hbody, -, hsome, -⟩ := h.next hT hw
      rw [hbody, hsome] at hnone
      cases hnone
    | underflowed hw hshort =>
      obtain ⟨m, c, -, -, hlen, -⟩ := h.next hT hw
      omega
  · intro hend
    change _ ∧ wire = [] ∧ _ = r.nonce
    have hend' : (s.reader.pollRead T room give s.wire).1.state = .shuttingDown := by
      rw [hpoll]
      exact hend
    obtain hdown | ⟨hreading, hw, rfl, hnonce, hwire⟩ := h.reader.shuttingDown hend'
    · have hstays : s.reader.pollRead T room give s.wire = (s.reader, s.wire) := by
        rw [ReadHalf.pollRead, hdown]
      rw [hstays] at hpoll
      cases hpoll
      exact h.ended hdown
    · rw [hpoll] at hnonce hwire
      dsimp only at hnonce hwire
      rw [hnonce, hwire]
      exact ⟨hh.1, hh.2, h.drained hreading hw hh.2⟩

theorem InStep.step (hT : T.Reliable) {s s' : State} (h : InStep T s) {e : Event}
    (hh : Honest s e) (hs : step T takesOwned s e = some s') : InStep T s' := by
  cases e with
  | write buf give => exact h.write hT hs
  | shutdown =>
    cases hs
    exact h.shutdown
  | read room give => exact h.read hT hh hs
  | tamper wire => exact hh.elim

/-! ## 9. Enough reads -/

/-- What is still to be moved, a byte counted once for every time it will be. -/
def State.backlog (s : State) : Nat :=
  3 * s.wire.length + 2 * s.reader.window.length + s.reader.unserved.length

/-- Everything that was sent is opened and handed over. -/
theorem Inv.caughtUp {s : State} (h : Inv T s) (hall : s.writer.sent.length = s.reader.nonce)
    (hserved : s.reader.unserved = []) : s.reader.read = s.writer.written := by
  rw [h.writer.written, ← List.append_nil s.reader.read, ← hserved, h.opened, ← hall,
    List.take_length]

theorem ReadHalf.Turn.read_grows {r r' : ReadHalf} {wire wire' : Bytes}
    (h : r.Turn T wire r' wire') : r.read <+: r'.read := by
  cases h with
  | moved _ _ _ _ hread | opened _ _ _ _ _ _ hread => exact hread
  | refused _ _ _ _ _ hread | underflowed _ _ _ hread =>
    exact ⟨[], by rw [List.append_nil, hread]⟩

/-- What is left of a payload gets shorter. -/
theorem InStep.progress_serving {s : State} (h : InStep T s) {room give served : Nat}
    (hroom : 0 < room) (hs : s.reader.state = .servingPayload served) {r : ReadHalf} {wire : Bytes}
    (hpoll : s.reader.pollRead T room (some give) s.wire = (r, wire)) :
    State.backlog { s with reader := r, wire := wire } < s.backlog := by
  have hlt := h.reader.serving hs
  rw [ReadHalf.pollRead, hs] at hpoll
  dsimp only at hpoll
  obtain ⟨rfl, rfl⟩ := Prod.mk.inj hpoll
  have hold : s.reader.unserved.length = s.reader.payload.length - served := by
    rw [ReadHalf.unserved, hs]
    exact List.length_drop
  simp only [State.backlog, hold]
  rw [ReadHalf.unserved]
  dsimp only
  split
  case h_1 served' hs' =>
    split at hs'
    case isTrue => cases hs'
    case isFalse =>
      cases hs'
      rw [List.length_drop]
      omega
  case h_2 =>
    rw [List.length_nil]
    omega

/-- A record that opens leaves the window, its tag and length field with it. -/
theorem InStep.progress_whole (hT : T.Reliable) {s : State} (h : InStep T s)
    (hw : s.reader.Whole) {room give : Nat} {r : ReadHalf} {wire : Bytes}
    (hpoll : s.reader.pollRead T room (some give) s.wire = (r, wire)) :
    State.backlog { s with reader := r, wire := wire } < s.backlog := by
  obtain ⟨ht, -⟩ := h.reader.pollRead (T := T) room (some give) s.wire
  rw [hpoll] at ht
  dsimp only at ht
  obtain ⟨m, c, -, hbody, hlen, hsome, -⟩ := h.next hT hw
  have hwhole := hw.2.2
  cases ht with
  | moved hno => exact absurd hw hno
  | opened _ _ hm _ _ _ hbehind hread hwindow =>
    rw [hbody, hsome] at hm
    cases hm
    have hall := congrArg List.length hread
    have hle := hbehind.length_le
    rw [List.length_append, List.length_append] at hall
    simp only [State.backlog, hwindow, List.length_drop]
    simp only [tagLen, lengthFieldLen] at hlen hwhole ⊢
    omega
  | refused _ _ hnone =>
    rw [hbody, hsome] at hnone
    cases hnone
  | underflowed _ hshort => omega

/-- At a record that is not there whole, the wire gets shorter, or nothing is left on it. -/
theorem InStep.progress_partial {s : State} (h : InStep T s)
    (hs : s.reader.state = .readingRecord) (hw : ¬ s.reader.Whole) {room give : Nat}
    (hgive : 0 < give) {r : ReadHalf} {wire : Bytes}
    (hpoll : s.reader.pollRead T room (some give) s.wire = (r, wire)) :
    s.reader.read = s.writer.written ∨
      State.backlog { s with reader := r, wire := wire } < s.backlog := by
  obtain ⟨start, expected, n, state, hp, -, -, ⟨hnone, -⟩ | ⟨rfl, hmoves⟩⟩ :=
    h.reader.pollRead_partial (T := T) hs hw room (some give) s.wire
  · cases hnone
  · by_cases hwire : s.wire = []
    · refine Or.inl (h.caughtUp (h.drained hs hw hwire) ?_)
      rw [ReadHalf.unserved, hs]
    · refine Or.inr ?_
      have hn := hmoves give rfl hgive hwire
      have hpos := List.length_pos_of_ne_nil hwire
      rw [hp] at hpoll
      obtain ⟨rfl, rfl⟩ := Prod.mk.inj hpoll
      simp only [State.backlog, ReadHalf.unserved, List.length_append, List.length_take,
        List.length_drop, List.length_nil]
      omega

/-- A turn with room in the caller's buffer moves something, if there is anything left. -/
theorem InStep.progress (hT : T.Reliable) {s : State} (h : InStep T s) {room give : Nat}
    (hroom : 0 < room) (hgive : 0 < give) {r : ReadHalf} {wire : Bytes}
    (hpoll : s.reader.pollRead T room (some give) s.wire = (r, wire)) :
    s.reader.read = s.writer.written ∨
      State.backlog { s with reader := r, wire := wire } < s.backlog := by
  cases hs : s.reader.state with
  | shuttingDown =>
    refine Or.inl (h.caughtUp (h.ended hs).2.2 ?_)
    rw [ReadHalf.unserved, hs]
  | servingPayload served => exact Or.inr (h.progress_serving hroom hs hpoll)
  | readingRecord =>
    by_cases hw : s.reader.Whole
    · exact Or.inr (h.progress_whole hT hw hpoll)
    · exact h.progress_partial hs hw hgive hpoll

/-- **Enough reads come to all that was written**, whatever the caller has room for and the inner
stream gives at a time. -/
theorem InStep.reads (hT : T.Reliable) {s : State} (h : InStep T s) {reads : List (Nat × Nat)}
    (hpos : ∀ q ∈ reads, 0 < q.1 ∧ 0 < q.2)
    (hlen : s.reader.read = s.writer.written ∨ s.backlog ≤ reads.length) :
    ∃ s', Lts.runWith (Noise.step T takesOwned) (fun _ _ => true) s
        (reads.map fun q => .read q.1 (some q.2)) = some s' ∧
      s'.writer = s.writer ∧ s'.reader.read = s.writer.written := by
  induction reads generalizing s with
  | nil =>
    refine ⟨s, rfl, rfl, hlen.elim id fun hzero => ?_⟩
    -- A turn on nothing left would have to move something.
    obtain hdone | hless := h.progress hT Nat.one_pos Nat.one_pos rfl
    · exact hdone
    · exact absurd (Nat.lt_of_lt_of_le hless hzero) (Nat.not_lt_zero _)
  | cons q reads ih =>
    obtain ⟨hroom, hgive⟩ := hpos q List.mem_cons_self
    obtain ⟨ht, -⟩ := h.reader.pollRead (T := T) q.1 (some q.2) s.wire
    generalize hpoll : s.reader.pollRead T q.1 (some q.2) s.wire = p at ht
    obtain ⟨r, wire⟩ := p
    have hstep : Noise.step T takesOwned s (.read q.1 (some q.2)) =
        some { s with reader := r, wire := wire } := by
      rw [Noise.step, if_neg (by simp [h.sound]), hpoll]
    have h' := h.step hT (e := .read q.1 (some q.2)) trivial hstep
    have hmore : r.read = s.writer.written ∨
        State.backlog { s with reader := r, wire := wire } ≤ reads.length := by
      obtain hdone | hless := h.progress hT hroom hgive hpoll
      · have hle := ht.read_grows.length_le
        rw [hdone] at hle
        exact Or.inl (h'.toInv.behind.eq_of_length_le hle)
      · obtain hdone | hle := hlen
        · have hle := ht.read_grows.length_le
          rw [hdone] at hle
          exact Or.inl (h'.toInv.behind.eq_of_length_le hle)
        · rw [List.length_cons] at hle
          exact Or.inr (by omega)
    obtain ⟨s', hrun, hw, hread⟩ := ih h' (fun q hq => hpos q (List.mem_cons_of_mem _ hq)) hmore
    refine ⟨s', ?_, hw, hread⟩
    rw [List.map_cons, Lts.runWith, if_pos rfl, hstep]
    exact hrun

/-! ## 10. The two write paths -/

def WriteState.pooled : WriteState → WriteState
  | .writingOwned message offset payloadLen => .writingMessage message offset payloadLen
  | state => state

def WriteHalf.pooled (w : WriteHalf) : WriteHalf := { w with state := w.state.pooled }

/-- The same ends, with a record in flight kept in the write buffer. -/
def State.pooled (s : State) : State := { s with writer := s.writer.pooled }

theorem WriteHalf.seal_pooled (T : Transport) (buf : Bytes) {w : WriteHalf}
    (h : w.state = .idle) : (w.seal T true buf).pooled = w.pooled.seal T false buf := by
  have hw : w.pooled = w := by
    rw [WriteHalf.pooled, h, WriteState.pooled, ← h]
    intro message offset payloadLen heq
    cases heq
  rw [hw, WriteHalf.seal, WriteHalf.seal]
  split
  case h_1 => exact hw
  case h_2 c _ =>
    split
    case isTrue => exact congrArg (fun w' : WriteHalf => { w' with nonce := w.nonce + 1 }) hw
    case isFalse =>
      have hno : ¬ (0 < min buf.length (maxMessageLen - tagLen) ∧ false = true) :=
        fun hc => nomatch hc.2
      rw [if_neg hno]
      split
      · rfl
      · rfl

theorem WriteHalf.drive_pooled {again again' : Nat → WriteState}
    (h : ∀ k, (again k).pooled = again' k) (message : Bytes) (start payloadLen : Nat) (buf : Bytes)
    (give : Nat) (w : WriteHalf) :
    (w.drive again message start payloadLen buf give).map (fun p => (p.1.pooled, p.2)) =
      w.pooled.drive again' message start payloadLen buf give := by
  have hsame : w.pooled.pending = w.pending := rfl
  rw [WriteHalf.drive, WriteHalf.drive, hsame, ← h]
  split
  case isTrue => rfl
  case isFalse =>
    split
    · rfl
    · rfl

/-- A turn of the writer does the same on both paths. -/
theorem WriteHalf.pollWrite_pooled (T : Transport) (buf : Bytes) (give : Nat) (w : WriteHalf) :
    (w.pollWrite T true buf give).map (fun p => (p.1.pooled, p.2)) =
      w.pooled.pollWrite T false buf give := by
  cases hs : w.state with
  | idle =>
    have hs' : w.pooled.state = .idle := by
      rw [WriteHalf.pooled, hs]
      rfl
    rw [WriteHalf.pollWrite, WriteHalf.pollWrite, hs, hs']
    exact congrArg (fun w' => some (w', [])) (WriteHalf.seal_pooled T buf hs)
  | shuttingDown =>
    have hs' : w.pooled.state = .shuttingDown := by
      rw [WriteHalf.pooled, hs]
      rfl
    rw [WriteHalf.pollWrite, WriteHalf.pollWrite, hs, hs']
    rfl
  | writingMessage message start payloadLen | writingOwned message start payloadLen =>
    have hs' : w.pooled.state = .writingMessage message start payloadLen := by
      rw [WriteHalf.pooled, hs]
      rfl
    rw [WriteHalf.pollWrite, WriteHalf.pollWrite, hs, hs']
    exact WriteHalf.drive_pooled (fun _ => rfl) ..

theorem step_pooled (T : Transport) (s : State) (e : Event) :
    (step T true s e).map State.pooled = step T false s.pooled e := by
  cases e with
  | write buf give =>
    have hw := WriteHalf.pollWrite_pooled T buf give s.writer
    rw [Noise.step, Noise.step, State.pooled, ← hw, Option.map_map, Option.map_map]
    rfl
  | shutdown =>
    change some _ = some _
    rw [State.pooled, State.pooled, WriteHalf.pollShutdown, WriteHalf.pollShutdown,
      WriteHalf.pooled]
    rfl
  | read room give =>
    have hreader : s.pooled.reader = s.reader := rfl
    rw [Noise.step, Noise.step, hreader]
    split
    · rfl
    · rfl
  | tamper wire => rfl

/-- **The two paths put the same on the wire**, in any run. -/
theorem run_pooled (T : Transport) (s : State) (events : List Event) :
    (Lts.runWith (step T true) (fun _ _ => true) s events).map State.pooled =
      Lts.runWith (step T false) (fun _ _ => true) s.pooled events := by
  induction events generalizing s with
  | nil => rfl
  | cons e events ih =>
    rw [Lts.runWith, Lts.runWith, if_pos rfl, if_pos rfl, ← step_pooled, Option.map_bind]
    cases step T true s e with
    | none => rfl
    | some s' => exact ih s'

/-! ## 11. Runs -/

theorem reach_inv (hT : T.Reliable) {s : State}
    (h : ((lts T takesOwned).restrict (Genuine T)).Reach s) : Inv T s := by
  refine h.invariant (P := Inv T) ?_ ?_
  · rintro _ rfl
    exact .new
  · intro s e s' hi hs
    exact hi.step hT hs.1 hs.2

/-- On a path where every record has the length of its tag, nothing underflows. -/
theorem reach_long (hT : T.Reliable) {s : State} (h : ((lts T takesOwned).restrict
    fun s e => LongRecord s e ∧ Genuine T s e).Reach s) :
    Inv T s ∧ s.reader.underflowed = false := by
  refine h.invariant (P := fun s => Inv T s ∧ s.reader.underflowed = false) ?_ ?_
  · rintro _ rfl
    exact ⟨.new, rfl⟩
  · rintro s e s' ⟨hi, hok⟩ ⟨⟨hlong, hg⟩, hs⟩
    refine ⟨hi.step hT hg hs, ?_⟩
    rw [← Bool.not_eq_true, underflowed_step hi.reader hs, hok]
    rintro (hc | hshort)
    · cases hc
    · exact hshort hlong

theorem reach_honest (hT : T.Reliable) {s : State}
    (h : ((lts T takesOwned).restrict Honest).Reach s) : InStep T s := by
  refine h.invariant (P := InStep T) ?_ ?_
  · rintro _ rfl
    exact .new
  · intro s e s' hi hs
    exact hi.step hT hs.1 hs.2

/-- **The round trip.**  Where every record that the reader opens has the length of its tag, and
one that opens is the one that was sent, what has been read is a prefix of what was written and no
length underflows; a turn that opens a shorter one does underflow.  On a path that keeps what it
is given every record is long enough, enough reads of any sizes come to all that was written, and
a flush returns when nothing but whole records is under way.  The owned and the pooled path put
the same on the wire. -/
theorem round_trip (hT : T.Reliable) (takesOwned : Bool) :
    (∀ s, ((lts T takesOwned).restrict fun s e => LongRecord s e ∧ Genuine T s e).Reach s →
      s.reader.read <+: s.writer.written ∧ s.reader.underflowed = false) ∧
    (∀ s, ((lts T takesOwned).restrict (Genuine T)).Reach s → ∀ e s',
      step T takesOwned s e = some s' →
        (s'.reader.underflowed = true ↔ s.reader.underflowed = true ∨ ¬ LongRecord s e)) ∧
    (∀ s, ((lts T takesOwned).restrict Honest).Reach s →
      s.reader.read <+: s.writer.written ∧ s.reader.underflowed = false ∧
      s.reader.refused = false ∧
      (∀ reads : List (Nat × Nat), (∀ q ∈ reads, 0 < q.1 ∧ 0 < q.2) → s.backlog ≤ reads.length →
        ∃ s', Lts.runWith (step T takesOwned) (fun _ _ => true) s
            (reads.map fun q => .read q.1 (some q.2)) = some s' ∧
          s'.writer = s.writer ∧ s'.reader.read = s.writer.written) ∧
      (s.writer.pollFlush = true → s.writer.state ≠ .shuttingDown →
        s.reader.window ++ s.wire = records (s.writer.sent.drop s.reader.nonce))) ∧
    ∀ events, (Lts.runWith (step T true) (fun _ _ => true) .new events).map State.pooled =
      Lts.runWith (step T false) (fun _ _ => true) .new events := by
  refine ⟨fun s h => ?_, fun s h e s' hs => ?_, fun s h => ?_, run_pooled T .new⟩
  · obtain ⟨hi, hok⟩ := reach_long hT h
    exact ⟨hi.behind, hok⟩
  · exact underflowed_step (reach_inv hT h).reader hs
  · have hi := reach_honest hT h
    refine ⟨hi.toInv.behind, hi.sound.1, hi.sound.2,
      fun reads hpos hlen => hi.reads hT hpos (Or.inr hlen), fun hflush hup => ?_⟩
    obtain ⟨part, hp, hwire⟩ := hi.wired
    have hidle : s.writer.state = .idle := by
      have hor : s.writer.state = .idle ∨ s.writer.state = .shuttingDown := by
        simpa [WriteHalf.pollFlush] using hflush
      exact hor.resolve_right hup
    rw [WriteHalf.Part, hidle] at hp
    rw [hwire, hp, List.append_nil]

/-! ## 12. Runs on fixed inputs -/

/-- A cipher that is none: the message behind its number and its sum, as a tag. -/
def sumTag (n : Nat) (m : Bytes) : Bytes := leBytes tagLen (n + 1 + ofLe m)

def sumTransport : Transport where
  writeMessage n m := some (m ++ sumTag n m)
  readMessage n c :=
    let m := c.take (c.length - tagLen)
    if tagLen ≤ c.length ∧ c.drop (c.length - tagLen) = sumTag n m then some m else none

theorem sumTransport_reliable : sumTransport.Reliable := by
  have hlen : ∀ n m, (m ++ sumTag n m).length = m.length + tagLen := by
    intro n m
    rw [List.length_append, sumTag, leBytes_length]
  constructor
  · intro n m c h
    cases h
    have htake : (m ++ sumTag n m).length - tagLen = m.length := by
      rw [hlen]
      omega
    change (if _ then _ else _) = _
    rw [htake, List.take_left' rfl, List.drop_left' rfl, if_pos ⟨by rw [hlen]; omega, rfl⟩]
  · intro n m c h
    cases h
    exact hlen n m

/-- Three bytes in a record that the inner stream takes in two parts; a part of it has arrived. -/
def cutRecord : List Event :=
  [.write [1, 2, 3] 0, .write [1, 2, 3] 5, .read 2 (some 4), .write [1, 2, 3] 0,
    .write [1, 2, 3] 60]

theorem round_trip_three :
    ∃ s, ((lts sumTransport true).restrict Honest).Reach s ∧ s.writer.written = [1, 2, 3] ∧
      s.reader.read <+: s.writer.written ∧
      ∃ s', Lts.runWith (step sumTransport true) (fun _ _ => true) s
          ((List.replicate 70 (2, 3)).map fun q => .read q.1 (some q.2)) = some s' ∧
        s'.writer = s.writer ∧ s'.reader.read = s.writer.written := by
  have hrun : (Lts.runWith (step sumTransport true) (fun s e => decide (Honest s e)) .new
      cutRecord).any (fun s => s.writer.written = [1, 2, 3] ∧ s.backlog ≤ 70) = true := by
    decide +kernel
  obtain ⟨s, hs, hp⟩ := Lts.Reach.exists_runWith (T := lts sumTransport true) (C := Honest)
    (fun _ _ _ h => h) (fun _ _ h => of_decide_eq_true h) rfl hrun
  obtain ⟨hwritten, hbacklog⟩ := of_decide_eq_true hp
  obtain ⟨hbehind, -, -, hreads, -⟩ :=
    (round_trip sumTransport_reliable true).2.2.1 s hs
  exact ⟨s, hs, hwritten, hbehind, hreads _ (by decide) hbacklog⟩

/-- Five bytes behind their length. -/
def shortRecord : List Event :=
  [.tamper [5, 0, 1, 2, 3, 4, 5], .read 16 (some 7), .read 16 (some 7)]

/-- **The reader subtracts the tag from a length that has none.** -/
theorem short_record_underflows :
    ∃ s, ((lts sumTransport false).restrict (Genuine sumTransport)).Reach s ∧
      s.reader.underflowed = true := by
  have hrun : (Lts.runWith (step sumTransport false) (fun s _ =>
      (sumTransport.readMessage s.reader.nonce (body s.reader.window)).isNone) .new
        shortRecord).any (fun s => s.reader.underflowed) = true := by
    decide +kernel
  refine Lts.Reach.exists_runWith (T := lts sumTransport false) (C := Genuine sumTransport)
    (fun _ _ _ h => h) ?_ rfl hrun
  intro s e hnone
  cases e with
  | read room give =>
    intro _ m hm
    rw [hm] at hnone
    cases hnone
  | write | shutdown | tamper => trivial

end Molehill.Noise
