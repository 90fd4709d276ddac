/-
# What the client reads on the control session

The server's acks are framed behind a two-byte length (`write_register_result`), its commands are a
tag and as many bytes as the tag says, and both go down one stream.  The client has three readers
for it: the handshake's and the one that awaits a registration's verdict look at the next byte
first (a framed ack starts with a zero, the high byte of its length), the session loop's reads a
command whatever comes.  A rejection's reason is shortened before it is framed, so that the high
byte stays zero.

`Inv` says that the mode the client is in can read what is on the wire; from it every run reads the
messages that were sent, in order, and a stream that ends inside one is an error.  What no server
writes is refused too, with one exception: `postcard::from_bytes` does not look at what a frame
holds behind the ack (`padded_ack_is_read`), so that an ack can be read from a longer frame.

The codec of the acks is third-party code: it is a parameter, and what the code relies on is that
it reads back what it wrote and that the sizes are those of its format.
-/
import Molehill.Lib.Varint
import Molehill.Session.Commands

namespace Molehill.Session.ControlStream

open Lib

/-! ## 1. Acks -/

/-- `Ack`.  A reason is the string's characters. -/
inductive Ack
  | ok
  | authFailed
  | registerRejected (reason : List Char)
  | sessionOk (heartbeatIntervalSecs : U64)
  | tunnelRefused
  deriving DecidableEq

/-- The string's length in bytes. -/
def byteLen (s : List Char) : Nat := (s.map Char.utf8Size).sum

@[simp] theorem byteLen_nil : byteLen [] = 0 := rfl

@[simp] theorem byteLen_cons (c : Char) (s : List Char) :
    byteLen (c :: s) = c.utf8Size + byteLen s := rfl

@[simp] theorem byteLen_append (s t : List Char) : byteLen (s ++ t) = byteLen s + byteLen t := by
  simp [byteLen]

/-- `str::is_char_boundary`. -/
def isCharBoundary : List Char → Nat → Bool
  | _, 0 => true
  | [], _ + 1 => false
  | c :: s, i + 1 => c.utf8Size ≤ i + 1 && isCharBoundary s (i + 1 - c.utf8Size)

/-- The slice `&s[..end]`. -/
def sliceTo : List Char → Nat → List Char
  | _, 0 => []
  | [], _ + 1 => []
  | c :: s, i + 1 => c :: sliceTo s (i + 1 - c.utf8Size)

def maxRejectionReasonLen : Nat := 250

def ellipsis : Char := '…'

/-- The loop of `fit_rejection_reason`: back to a boundary. -/
def floorBoundary (s : List Char) : Nat → Nat
  | 0 => 0
  | i + 1 => if isCharBoundary s (i + 1) then i + 1 else floorBoundary s i

/-- `fit_rejection_reason`. -/
def fitRejectionReason (reason : List Char) : List Char :=
  if byteLen reason ≤ maxRejectionReasonLen then reason
  else
    sliceTo reason (floorBoundary reason (maxRejectionReasonLen - ellipsis.utf8Size)) ++ [ellipsis]

theorem floorBoundary_le (s : List Char) (i : Nat) : floorBoundary s i ≤ i := by
  induction i with
  | zero => exact Nat.le_refl 0
  | succ i ih =>
    rw [floorBoundary]
    split
    · exact Nat.le_refl _
    · exact Nat.le_succ_of_le ih

theorem floorBoundary_isCharBoundary (s : List Char) (i : Nat) :
    isCharBoundary s (floorBoundary s i) = true := by
  induction i with
  | zero =>
    cases s with
    | nil => rfl
    | cons c s => rfl
  | succ i ih =>
    rw [floorBoundary]
    split
    case isTrue h => exact h
    case isFalse => exact ih

/-- A slice at a boundary has the length it was asked for. -/
theorem byteLen_sliceTo {s : List Char} {i : Nat} (h : isCharBoundary s i = true) :
    byteLen (sliceTo s i) = i := by
  induction s generalizing i with
  | nil =>
    cases i with
    | zero => rfl
    | succ i => cases h
  | cons c s ih =>
    cases i with
    | zero => rfl
    | succ i =>
      rw [isCharBoundary, Bool.and_eq_true, decide_eq_true_eq] at h
      obtain ⟨hle, hrest⟩ := h
      rw [sliceTo, byteLen_cons, ih hrest]
      omega

/-- A fitted reason fits. -/
theorem byteLen_fitRejectionReason (reason : List Char) :
    byteLen (fitRejectionReason reason) ≤ maxRejectionReasonLen := by
  rw [fitRejectionReason]
  split
  · assumption
  · have hle := floorBoundary_le reason (maxRejectionReasonLen - ellipsis.utf8Size)
    have hell : ellipsis.utf8Size ≤ maxRejectionReasonLen := by decide
    rw [byteLen_append, byteLen_sliceTo (floorBoundary_isCharBoundary _ _), byteLen_cons,
      byteLen_nil]
    omega

/-- The ack as it is written. -/
def Ack.fitted : Ack → Ack
  | registerRejected reason => registerRejected (fitRejectionReason reason)
  | ack => ack

/-- The size of an ack behind its tag, as the codec's format has it: a string is its length and its
bytes, an integer is a varint of at most ten bytes. -/
def Ack.fieldLen : Ack → Nat
  | registerRejected reason => (varint 10 (byteLen reason)).length + byteLen reason
  | sessionOk secs => (varint 10 secs.toNat).length
  | _ => 0

/-- What the code relies on of `postcard` for the acks it writes. -/
structure Format (p : Postcard Ack) : Prop where
  roundTrips : ∀ ack : Ack, p.fromBytes (p.toStdvec ack.fitted) = some ack.fitted
  /-- One byte of tag, then the fields. -/
  length : ∀ ack : Ack, (p.toStdvec ack.fitted).length = 1 + ack.fitted.fieldLen

/-- An ack as it is written fits below 256 bytes, whatever the reason was. -/
theorem Format.fitted_length {p : Postcard Ack} (hp : Format p) (ack : Ack) :
    (p.toStdvec ack.fitted).length < 256 := by
  have hvarint : ∀ n, n < 128 ^ 10 → (varint 10 n).length ≤ 10 :=
    fun n hn => varint_length_le (by decide) hn 10
  rw [hp.length]
  cases ack with
  | registerRejected reason =>
    have hfit := byteLen_fitRejectionReason reason
    have hmax : maxRejectionReasonLen = 250 := rfl
    have hlen : (varint 10 (byteLen (fitRejectionReason reason))).length ≤ 2 :=
      varint_length_le (by decide) (by omega) 10
    simp only [Ack.fitted, Ack.fieldLen]
    omega
  | sessionOk secs =>
    have hlen := hvarint secs.toNat (by omega)
    simp only [Ack.fitted, Ack.fieldLen]
    omega
  | ok | authFailed | tunnelRefused => decide

/-! ## 2. The stream -/

/-- One message of the stream. -/
inductive Message
  | command (cmd : ControlChannelCmd)
  | ack (ack : Ack)
  deriving DecidableEq

/-- `write_register_result`: what it writes, where it does not refuse. -/
def writeRegisterResult (p : Postcard Ack) (ack : Ack) : Option Bytes :=
  let payload := p.toStdvec ack.fitted
  if payload.length ≤ maxRegistrationLen then
    if payload.length < 256 ^ 2 then some (beBytes 2 payload.length ++ payload) else none
  else none

/-- The message as the client is to see it. -/
def Message.shown : Message → Message
  | command cmd => command cmd
  | ack a => ack a.fitted

/-- The message on the wire. -/
def Message.bytes (p : Postcard Ack) : Message → Bytes
  | command cmd => cmd.toStdvec
  | ack a => beBytes 2 (p.toStdvec a.fitted).length ++ p.toStdvec a.fitted

/-- The writer refuses no ack. -/
theorem writeRegisterResult_eq {p : Postcard Ack} (hp : Format p) (ack : Ack) :
    writeRegisterResult p ack = some ((Message.ack ack).bytes p) := by
  have hlen := hp.fitted_length ack
  have hmax : maxRegistrationLen = 1024 := rfl
  exact (if_pos (by omega)).trans (if_pos (by omega))

/-- Where the client is: in its handshake, at its select, or inside a registration. -/
inductive Mode
  | handshake
  | select
  | awaiting
  deriving DecidableEq

/-- `read_register_result`. -/
def readRegisterResult (p : Postcard Ack) : Reader Message :=
  .exact 2 fun len =>
    if ofBe len ≤ maxRegistrationLen then
      .exact (ofBe len) fun buf =>
        match p.fromBytes buf with
        | some ack => .done (.ack ack)
        | none => .fail
    else .fail

/-- `read_ack`, the bare ack of one byte. -/
def readAck (p : Postcard Ack) : Reader Message :=
  .exact 1 fun buf =>
    match p.fromBytes buf with
    | some ack => .done (.ack ack)
    | none => .fail

/-- `read_control_cmd`, as a reader of messages. -/
def readCommand : Reader ControlChannelCmd → Reader Message
  | .done cmd => .done (.command cmd)
  | .fail => .fail
  | .exact n k => .exact n fun bs => readCommand (k bs)

/-- The choice by the next byte: a framed ack, or something else. -/
def framedOr (p : Postcard Ack) (other : Reader Message) (b : Byte) : Reader Message :=
  if b = 0 then readRegisterResult p else other

/-- The reader of a mode. -/
def readMessage (p : Postcard Ack) : Mode → Reader Message
  | .handshake => Reader.peek (framedOr p (readAck p))
  | .select => readCommand readControlCmd
  | .awaiting => Reader.peek (framedOr p (readCommand readControlCmd))

/-- What the client makes of a message: the mode it is in afterwards, or an error that ends the
session. -/
def accepts : Mode → Message → Option Mode
  | .handshake, .ack (.sessionOk _) => some .select
  | .handshake, _ => none
  | .select, .command .createDataChannel => none
  | .select, .command _ => some .select
  | .select, .ack _ => none
  | .awaiting, .command .createDataChannel => none
  | .awaiting, .command _ => some .awaiting
  | .awaiting, .ack .ok => some .select
  | .awaiting, .ack (.registerRejected _) => some .select
  | .awaiting, .ack _ => none

/-- The next message of a stream of which no more than these bytes come: the message, the mode
after it and the bytes behind it; none if the client ends with an error. -/
def next (p : Postcard Ack) (mode : Mode) (bs : Bytes) : Option (Message × Mode × Bytes) :=
  match (readMessage p mode).poll bs with
  | (.done m, rest) => (accepts mode m).map fun mode' => (m, mode', rest)
  | _ => none

/-! ## 3. Reading back one message -/

/-- The reads of a command, as messages. -/
theorem poll_readCommand (r : Reader ControlChannelCmd) (bs : Bytes) :
    (readCommand r).poll bs = (readCommand (r.poll bs).1, (r.poll bs).2) := by
  induction r generalizing bs with
  | done cmd => rfl
  | fail => rfl
  | exact n k ih =>
    rw [readCommand, Reader.poll, Reader.poll]
    split
    · rfl
    · exact ih _ _

theorem poll_readCommand_bytes (cmd : ControlChannelCmd) (rest : Bytes) :
    (readCommand readControlCmd).poll (cmd.toStdvec ++ rest) = (.done (.command cmd), rest) := by
  rw [poll_readCommand, poll_readControlCmd]
  rfl

/-- A frame of less than 256 bytes is read as what the codec makes of its payload. -/
theorem poll_frame {p : Postcard Ack} {payload : Bytes} (hlen : payload.length < 256)
    {ack : Ack} (hack : p.fromBytes payload = some ack) (rest : Bytes) :
    (readRegisterResult p).poll (beBytes 2 payload.length ++ payload ++ rest) =
      (.done (.ack ack), rest) := by
  have hmax : maxRegistrationLen = 1024 := rfl
  have hbe : ofBe (beBytes 2 payload.length) = payload.length := by
    rw [ofBe_beBytes, Nat.mod_eq_of_lt (by omega)]
  rw [readRegisterResult, List.append_assoc, Reader.poll_exact_append _ (beBytes_length 2 _), hbe,
    if_pos (by omega), Reader.poll_exact_append _ rfl]
  simp only [hack, Reader.poll_done]

/-- The length of such a frame starts with a zero. -/
theorem beBytes_of_lt {n : Nat} (h : n < 256) : beBytes 2 n = [0, BitVec.ofNat 8 n] := by
  have hdiv : n / 256 = 0 := Nat.div_eq_of_lt h
  simp [beBytes, leBytes, hdiv]

theorem poll_readRegisterResult {p : Postcard Ack} (hp : Format p) (ack : Ack) (rest : Bytes) :
    (readRegisterResult p).poll ((Message.ack ack).bytes p ++ rest) =
      (.done (.ack ack.fitted), rest) :=
  poll_frame (hp.fitted_length ack) (hp.roundTrips ack) rest

theorem ack_bytes_eq {p : Postcard Ack} (hp : Format p) (ack : Ack) :
    ∃ tail, (Message.ack ack).bytes p = 0 :: tail := by
  rw [Message.bytes, beBytes_of_lt (hp.fitted_length ack)]
  exact ⟨_, rfl⟩

/-- A command's tag is not zero, but for the command of the old dialect. -/
theorem command_bytes_eq {cmd : ControlChannelCmd} (h : cmd ≠ .createDataChannel) :
    ∃ tag tail, cmd.toStdvec = tag :: tail ∧ tag ≠ 0 := by
  cases cmd with
  | createDataChannel => exact absurd rfl h
  | _ => exact ⟨_, _, rfl, by decide⟩

theorem readRegisterResult_waiting (p : Postcard Ack) : (readRegisterResult p).Waiting :=
  Nat.zero_lt_two

theorem readCommand_waiting : (readCommand readControlCmd).Waiting := Nat.one_pos

theorem readAck_waiting (p : Postcard Ack) : (readAck p).Waiting := Nat.one_pos

/-- A mode that peeks reads as its choice does. -/
theorem poll_framedOr (p : Postcard Ack) {other : Reader Message} (hother : other.Waiting)
    (b : Byte) (rest : Bytes) :
    (Reader.peek (framedOr p other)).poll (b :: rest) = (framedOr p other b).poll (b :: rest) := by
  have hw : (framedOr p other b).Waiting := by
    rw [framedOr]
    split
    · exact readRegisterResult_waiting p
    · exact hother
  exact Reader.poll_peek hw rest

/-- An ack is read where the client peeks. -/
theorem poll_ack {p : Postcard Ack} (hp : Format p) {mode : Mode} (hmode : mode ≠ .select)
    (ack : Ack) (rest : Bytes) :
    (readMessage p mode).poll ((Message.ack ack).bytes p ++ rest) =
      (.done (.ack ack.fitted), rest) := by
  have hread := poll_readRegisterResult hp ack rest
  obtain ⟨tail, htail⟩ := ack_bytes_eq hp ack
  rw [htail, List.cons_append] at hread ⊢
  cases mode with
  | handshake => exact (poll_framedOr p (readAck_waiting p) 0 _).trans hread
  | select => exact absurd rfl hmode
  | awaiting => exact (poll_framedOr p readCommand_waiting 0 _).trans hread

/-- A command is read behind the handshake. -/
theorem poll_command {cmd : ControlChannelCmd} (hcmd : cmd ≠ .createDataChannel)
    (p : Postcard Ack) {mode : Mode} (hmode : mode ≠ .handshake) (rest : Bytes) :
    (readMessage p mode).poll ((Message.command cmd).bytes p ++ rest) =
      (.done (.command cmd), rest) := by
  have hread := poll_readCommand_bytes cmd rest
  obtain ⟨tag, tail, htag, hne⟩ := command_bytes_eq hcmd
  rw [Message.bytes]
  cases mode with
  | handshake => exact absurd rfl hmode
  | select => exact hread
  | awaiting =>
    rw [htag, List.cons_append] at hread ⊢
    refine (poll_framedOr p readCommand_waiting tag _).trans ?_
    rwa [framedOr, if_neg hne]

/-- **A message the mode can read is read back**, and nothing behind it is touched. -/
theorem next_bytes {p : Postcard Ack} (hp : Format p) {mode mode' : Mode} {m : Message}
    (h : accepts mode m.shown = some mode') (rest : Bytes) :
    next p mode (m.bytes p ++ rest) = some (m.shown, mode', rest) := by
  have hpoll : (readMessage p mode).poll (m.bytes p ++ rest) = (.done m.shown, rest) := by
    cases m with
    | command cmd =>
      have hcmd : cmd ≠ .createDataChannel := by
        rintro rfl
        cases mode with
        | handshake | select | awaiting => cases h
      have hmode : mode ≠ .handshake := by
        rintro rfl
        cases h
      exact poll_command hcmd p hmode rest
    | ack a =>
      have hmode : mode ≠ .select := by
        rintro rfl
        cases h
      exact poll_ack hp hmode a rest
  rw [next, hpoll]
  simp only [h, Option.map_some]

theorem readMessage_waiting (p : Postcard Ack) (mode : Mode) : (readMessage p mode).Waiting := by
  cases mode with
  | handshake | awaiting => exact Nat.one_pos
  | select => exact readCommand_waiting

/-- A stream that ends before anything comes is an error. -/
theorem next_nil (p : Postcard Ack) (mode : Mode) : next p mode [] = none := by
  have hpoll := (readMessage_waiting p mode).poll_nil
  rw [next]
  split
  · rename_i m rest hm
    rw [hm] at hpoll
    exact hpoll.elim
  · rfl

/-- **A stream that ends inside a message is an error.** -/
theorem next_truncated {p : Postcard Ack} (hp : Format p) {mode mode' : Mode} {m : Message}
    (h : accepts mode m.shown = some mode') {pre : Bytes} (hpre : pre <+: m.bytes p)
    (hne : pre ≠ m.bytes p) : next p mode pre = none := by
  obtain ⟨more, hmore⟩ := hpre
  have hwhole := next_bytes hp h []
  rw [List.append_nil, ← hmore] at hwhole
  rw [next]
  split
  · rename_i m1 rest1 hpoll
    have hdone := Reader.poll_append hpoll (by exact id) more
    simp only [next, hdone, Option.map_eq_some_iff] at hwhole
    obtain ⟨mode1, -, hsame⟩ := hwhole
    have hrest : rest1 ++ more = [] := congrArg (fun r => r.2.2) hsame
    have hnone : more = [] := (List.append_eq_nil_iff.mp hrest).2
    exact absurd (by rw [← hmore, hnone, List.append_nil]) hne
  · rfl

/-! ## 4. What can be read at all -/

/-- The fields of a suffix, put behind what stands before them. -/
theorem take_word {buf : Bytes} {i : Nat} (h : i + 4 ≤ buf.length) :
    buf.take i ++ word (wordAt buf i) = buf.take (i + 4) := by
  have hlen : ((buf.drop i).take 4).length = 4 := by
    rw [List.length_take, List.length_drop]
    omega
  have hself := beBytes_ofBe ((buf.drop i).take 4)
  rw [hlen] at hself
  have hlt : ofBe ((buf.drop i).take 4) < 256 ^ 4 := by
    have hval := ofBe_beBytes 4 (ofBe ((buf.drop i).take 4))
    rw [hself] at hval
    rw [hval]
    exact Nat.mod_lt _ (by decide)
  have hword : ofBe ((buf.drop i).take 4) < 2 ^ 32 := Nat.lt_of_lt_of_eq hlt (by decide)
  rw [word, wordAt, BitVec.toNat_ofNat, Nat.mod_eq_of_lt hword, hself, List.take_add]

theorem word_zero {buf : Bytes} (h : 4 ≤ buf.length) : word (wordAt buf 0) = buf.take 4 :=
  take_word (i := 0) (by omega)

theorem take_byte {buf : Bytes} {i : Nat} (h : i < buf.length) :
    buf.take i ++ [byteAt buf i] = buf.take (i + 1) := by
  rw [byteAt, List.getD_eq_getElem _ _ h, List.take_append_getElem h]

theorem take_all {buf : Bytes} {n : Nat} (h : buf.length = n) : buf.take n = buf :=
  List.take_of_length_le (Nat.le_of_eq h)

/-- A suffix of fixed width is read from its own encoding only. -/
theorem suffix_sound {n : Nat} {decode : Bytes → ControlChannelCmd} {tag : Byte}
    (hencode : ∀ buf : Bytes, buf.length = n → (decode buf).toStdvec = tag :: buf)
    {tail rest : Bytes} {cmd : ControlChannelCmd}
    (h : (Reader.exact n fun buf => .done (decode buf)).poll tail = (.done cmd, rest)) :
    tag :: tail = cmd.toStdvec ++ rest := by
  obtain ⟨buf, tail, rfl, hlen, hpoll⟩ := Reader.poll_exact_done h
  cases hpoll
  rw [hencode buf hlen, List.cons_append]

/-- A command is read from its own encoding only. -/
theorem readControlCmd_sound {bs rest : Bytes} {cmd : ControlChannelCmd}
    (h : readControlCmd.poll bs = (.done cmd, rest)) : bs = cmd.toStdvec ++ rest := by
  obtain ⟨tag, tail, rfl, htag, hpoll⟩ := Reader.poll_exact_done h
  obtain ⟨b, rfl⟩ := List.length_eq_one_iff.mp htag
  have hb : ∀ {n : Nat}, (byteAt [b] 0).toNat = n → b = BitVec.ofNat 8 n := by
    rintro n rfl
    exact ((BitVec.ofNat_toNat 8 b).trans (BitVec.setWidth_eq b)).symm
  rw [List.singleton_append]
  split at hpoll
  case h_1 heq =>
    cases hpoll
    rw [hb heq]
    rfl
  case h_2 heq =>
    cases hpoll
    rw [hb heq]
    rfl
  case h_3 heq =>
    rw [hb heq]
    refine suffix_sound (fun buf hlen => ?_) hpoll
    rw [ControlChannelCmd.toStdvec, word_zero (by omega), take_all hlen]
    rfl
  case h_4 heq =>
    rw [hb heq]
    refine suffix_sound (fun buf hlen => ?_) hpoll
    rw [ControlChannelCmd.toStdvec, word_zero (by omega), take_all hlen]
    rfl
  case h_5 heq =>
    rw [hb heq]
    refine suffix_sound (fun buf hlen => ?_) hpoll
    have hpair : [byteAt buf 8, byteAt buf 9] = [byteAt buf 8] ++ [byteAt buf 9] := rfl
    rw [ControlChannelCmd.toStdvec, word_zero (by omega), take_word (by omega), hpair,
      ← List.append_assoc, take_byte (by omega), take_byte (by omega), take_all hlen]
    rfl
  case h_6 heq =>
    rw [hb heq]
    refine suffix_sound (fun buf hlen => ?_) hpoll
    rw [ControlChannelCmd.toStdvec, word_zero (by omega), take_word (by omega),
      take_word (by omega), take_word (by omega), take_byte (by omega), take_all hlen]
    rfl
  case h_7 heq =>
    rw [hb heq]
    refine suffix_sound (fun buf hlen => ?_) hpoll
    rw [ControlChannelCmd.toStdvec, word_zero (by omega), take_word (by omega),
      take_byte (by omega), take_all hlen]
    rfl
  case h_8 heq =>
    rw [hb heq]
    refine suffix_sound (fun buf hlen => ?_) hpoll
    rw [ControlChannelCmd.toStdvec, word_zero (by omega), take_word (by omega),
      take_word (by omega), take_word (by omega), take_word (by omega), take_byte (by omega),
      take_all hlen]
    rfl
  case h_9 heq =>
    rw [hb heq]
    refine suffix_sound (fun buf hlen => ?_) hpoll
    rw [ControlChannelCmd.toStdvec, word_zero (by omega), take_word (by omega), take_all hlen]
    rfl
  case h_10 => cases hpoll

/-- What a message can have been read from: a command from its encoding, an ack from a frame whose
payload the codec reads as that ack, or from one bare byte in the handshake. -/
def ReadFrom (p : Postcard Ack) (mode : Mode) (m : Message) (bytes : Bytes) : Prop :=
  match m with
  | .command cmd => mode ≠ .handshake ∧ bytes = cmd.toStdvec
  | .ack a => mode ≠ .select ∧ ∃ payload, p.fromBytes payload = some a ∧
      (bytes = beBytes 2 payload.length ++ payload ∧ payload.length < 256 ∨
        mode = .handshake ∧ bytes = payload ∧ payload.length = 1)

theorem readCommand_sound {bs rest : Bytes} {m : Message}
    (h : (readCommand readControlCmd).poll bs = (.done m, rest)) :
    ∃ cmd, m = .command cmd ∧ bs = cmd.toStdvec ++ rest := by
  rw [poll_readCommand] at h
  cases hread : readControlCmd.poll bs with
  | mk r left =>
    rw [hread] at h
    cases r with
    | done cmd =>
      cases h
      exact ⟨cmd, rfl, readControlCmd_sound hread⟩
    | fail => cases h
    | exact n k => cases h

theorem readRegisterResult_sound {p : Postcard Ack} {tail rest : Bytes} {m : Message}
    (h : (readRegisterResult p).poll (0 :: tail) = (.done m, rest)) :
    ∃ a payload, m = .ack a ∧ p.fromBytes payload = some a ∧ payload.length < 256 ∧
      0 :: tail = beBytes 2 payload.length ++ payload ++ rest := by
  obtain ⟨len, left, hsplit, hlen, hpoll⟩ := Reader.poll_exact_done h
  split at hpoll
  case isFalse => cases hpoll
  case isTrue =>
    obtain ⟨payload, left', rfl, hpayload, hpoll⟩ := Reader.poll_exact_done hpoll
    have hself := beBytes_ofBe len
    rw [hlen, ← hpayload] at hself
    have hsmall : payload.length < 256 := by
      obtain ⟨hi, lo, rfl⟩ := List.length_eq_two.mp hlen
      have hhi : hi = 0 := (List.cons.inj hsplit).1.symm
      have hlo := lo.isLt
      have hval : ofBe [0, lo] = lo.toNat := by
        change lo.toNat + 256 * (0 + 256 * 0) = lo.toNat
        omega
      rw [hpayload, hhi, hval]
      exact hlo
    split at hpoll
    case h_1 a ha =>
      cases hpoll
      refine ⟨a, payload, rfl, ha, hsmall, ?_⟩
      rw [hself, List.append_assoc]
      exact hsplit
    case h_2 => cases hpoll

theorem readAck_sound {p : Postcard Ack} {bs rest : Bytes} {m : Message}
    (h : (readAck p).poll bs = (.done m, rest)) :
    ∃ a payload, m = .ack a ∧ p.fromBytes payload = some a ∧ payload.length = 1 ∧
      bs = payload ++ rest := by
  obtain ⟨payload, left, rfl, hlen, hpoll⟩ := Reader.poll_exact_done h
  split at hpoll
  case h_1 a ha =>
    cases hpoll
    exact ⟨a, payload, rfl, ha, hlen, rfl⟩
  case h_2 => cases hpoll

/-- A reader that peeks takes its choice of a byte that is there. -/
theorem framedOr_sound {p : Postcard Ack} {other : Reader Message} (hother : other.Waiting)
    {bs rest : Bytes} {m : Message}
    (h : (Reader.peek (framedOr p other)).poll bs = (.done m, rest)) :
    (∃ a payload, m = .ack a ∧ p.fromBytes payload = some a ∧ payload.length < 256 ∧
      bs = beBytes 2 payload.length ++ payload ++ rest) ∨ other.poll bs = (.done m, rest) := by
  cases bs with
  | nil => cases h
  | cons b tail =>
    rw [poll_framedOr p hother, framedOr] at h
    split at h
    case isTrue hb =>
      rw [hb] at h ⊢
      exact Or.inl (readRegisterResult_sound h)
    case isFalse => exact Or.inr h

/-- **Nothing else is read as a message**: what the client does not refuse stood on the wire. -/
theorem next_sound {p : Postcard Ack} {mode mode' : Mode} {bs rest : Bytes} {m : Message}
    (h : next p mode bs = some (m, mode', rest)) :
    ∃ bytes, bs = bytes ++ rest ∧ ReadFrom p mode m bytes ∧ accepts mode m = some mode' := by
  rw [next] at h
  split at h
  case h_2 => cases h
  case h_1 m1 rest1 hpoll =>
    obtain ⟨mode1, haccepts, hsame⟩ := Option.map_eq_some_iff.mp h
    cases hsame
    cases mode with
    | handshake =>
      obtain ⟨a, payload, rfl, ha, hlen, rfl⟩ | hpoll := framedOr_sound (readAck_waiting p) hpoll
      · exact ⟨_, rfl, ⟨nofun, payload, ha, Or.inl ⟨rfl, hlen⟩⟩, haccepts⟩
      · obtain ⟨a, payload, rfl, ha, hlen, rfl⟩ := readAck_sound hpoll
        exact ⟨_, rfl, ⟨nofun, payload, ha, Or.inr ⟨rfl, rfl, hlen⟩⟩, haccepts⟩
    | select =>
      obtain ⟨cmd, rfl, rfl⟩ := readCommand_sound hpoll
      exact ⟨_, rfl, ⟨nofun, rfl⟩, haccepts⟩
    | awaiting =>
      obtain ⟨a, payload, rfl, ha, hlen, rfl⟩ | hpoll := framedOr_sound readCommand_waiting hpoll
      · exact ⟨_, rfl, ⟨nofun, payload, ha, Or.inl ⟨rfl, hlen⟩⟩, haccepts⟩
      · obtain ⟨cmd, rfl, rfl⟩ := readCommand_sound hpoll
        exact ⟨_, rfl, ⟨nofun, rfl⟩, haccepts⟩

/-! ## 5. The session -/

/-- The stream from the server to the client. -/
structure State where
  mode : Mode
  /-- Written and not yet read. -/
  pipe : Bytes
  /-- The connection ended. -/
  closed : Bool
  /-- The client's registrations the server has not answered. -/
  owed : Nat
  /-- What the server wrote, and what the client read. -/
  sent : List Message
  got : List Message
  /-- The client ended the session with an error. -/
  failed : Bool
  deriving DecidableEq

inductive Event
  /-- The session is accepted: `Ack::SessionOk`. -/
  | accept (secs : U64)
  /-- A command is written. -/
  | command (cmd : ControlChannelCmd)
  /-- A registration is answered: accepted, or rejected for a reason. -/
  | verdict (rejection : Option (List Char))
  /-- The client registers a service and awaits the verdict. -/
  | register
  /-- The connection ends; so many bytes of what is under way still arrive. -/
  | cut (n : Nat)
  /-- The client reads. -/
  | read
  deriving DecidableEq

def verdictAck : Option (List Char) → Ack
  | none => .ok
  | some reason => .registerRejected reason

/-- What the server writes for a message. -/
def Message.written (p : Postcard Ack) : Message → Option Bytes
  | command cmd => some cmd.toStdvec
  | ack a => writeRegisterResult p a

def State.write (s : State) (p : Postcard Ack) (m : Message) : Option State :=
  (m.written p).map fun bs => { s with pipe := s.pipe ++ bs, sent := s.sent ++ [m] }

/-- The reader waits for more than these bytes. -/
def waits (p : Postcard Ack) (mode : Mode) (bs : Bytes) : Bool :=
  match (readMessage p mode).poll bs with
  | (.exact _ _, _) => true
  | _ => false

def step (p : Postcard Ack) (s : State) : Event → Option State
  | .accept secs =>
    if s.sent = [] ∧ s.closed = false then s.write p (.ack (.sessionOk secs)) else none
  | .command cmd =>
    if s.sent ≠ [] ∧ cmd ≠ .createDataChannel ∧ s.closed = false then s.write p (.command cmd)
    else none
  | .verdict rejection =>
    if 0 < s.owed ∧ s.closed = false then
      { s with owed := s.owed - 1 }.write p (.ack (verdictAck rejection))
    else none
  | .register =>
    if s.mode = .select ∧ s.failed = false then
      some { s with mode := .awaiting, owed := s.owed + 1 }
    else none
  | .cut n =>
    if s.closed = false then some { s with pipe := s.pipe.take n, closed := true } else none
  | .read =>
    if s.failed = false then
      match next p s.mode s.pipe with
      | some (m, mode, rest) => some { s with mode := mode, pipe := rest, got := s.got ++ [m] }
      | none =>
        if s.closed = true ∨ waits p s.mode s.pipe = false then some { s with failed := true }
        else none
    else none

def start : State where
  mode := .handshake
  pipe := []
  closed := false
  owed := 0
  sent := []
  got := []
  failed := false

def stream (p : Postcard Ack) : Lts State Event where
  init s := s = start
  step s e s' := step p s e = some s'

/-- The bytes of messages. -/
def encode (p : Postcard Ack) (l : List Message) : Bytes := l.flatMap (Message.bytes p)

/-- Where the client is when it has read these. -/
def afterAll : Mode → List Message → Option Mode
  | mode, [] => some mode
  | mode, m :: l => (accepts mode m.shown).bind fun mode' => afterAll mode' l

/-- Where it is when it has read everything. -/
def State.settled (s : State) : Mode :=
  if s.sent = [] then .handshake else if s.owed = 0 then .select else .awaiting

/-- What the client has read and what it has still to read; it can read all of it. -/
structure Inv (p : Postcard Ack) (s : State) : Prop where
  split : ∃ rest, s.got ++ rest.map Message.shown = s.sent.map Message.shown ∧
    s.sent.drop s.got.length = rest ∧ afterAll s.mode rest = some s.settled ∧
    s.pipe <+: encode p rest ∧ (s.closed = false → s.pipe = encode p rest)
  owed : s.owed ≤ 1
  quiet : s.sent = [] → s.owed = 0
  failed : s.failed = true → s.closed = true

theorem inv_start (p : Postcard Ack) : Inv p start where
  split := ⟨[], rfl, rfl, rfl, List.prefix_rfl, fun _ => rfl⟩
  owed := Nat.zero_le 1
  quiet := fun _ => rfl
  failed := nofun

theorem afterAll_append (mode : Mode) (l : List Message) (m : Message) :
    afterAll mode (l ++ [m]) = (afterAll mode l).bind fun mode' => accepts mode' m.shown := by
  induction l generalizing mode with
  | nil =>
    cases h : accepts mode m.shown with
    | none => simp [afterAll, h]
    | some mode' => simp [afterAll, h]
  | cons m1 l ih =>
    cases h : accepts mode m1.shown with
    | none => simp [afterAll, h]
    | some mode1 => simp [afterAll, h, ih]

/-- What is at the select stays there, and a registration can be awaited over the same messages. -/
theorem afterAll_select {l : List Message} {mode : Mode} (h : afterAll .select l = some mode) :
    mode = .select ∧ afterAll .awaiting l = some .awaiting := by
  induction l with
  | nil =>
    cases h
    exact ⟨rfl, rfl⟩
  | cons m l ih =>
    obtain ⟨mode1, h1, hrest⟩ := Option.bind_eq_some_iff.mp h
    cases m with
    | ack a => cases h1
    | command cmd =>
      cases cmd with
      | createDataChannel => cases h1
      | _ =>
        cases h1
        exact ih hrest

theorem written_eq {p : Postcard Ack} (hp : Format p) (m : Message) :
    m.written p = some (m.bytes p) := by
  cases m with
  | command cmd => rfl
  | ack a => exact writeRegisterResult_eq hp a

/-- **The server writes what the client will be able to read.** -/
theorem Inv.write {p : Postcard Ack} (hp : Format p) {s s1 s' : State} {m : Message}
    (h : Inv p s) (hopen : s.closed = false) (hw : s1.write p m = some s')
    (hs : s1.mode = s.mode ∧ s1.pipe = s.pipe ∧ s1.closed = s.closed ∧ s1.sent = s.sent ∧
      s1.got = s.got ∧ s1.failed = s.failed) (howed : s1.owed ≤ 1)
    (haccepts : accepts s.settled m.shown = some (if s1.owed = 0 then .select else .awaiting)) :
    Inv p s' := by
  obtain ⟨hmode, hpipe, hclosed, hsent, hgot, hfailed⟩ := hs
  rw [State.write, written_eq hp, Option.map_some] at hw
  cases hw
  obtain ⟨rest, hgotten, hdrop, hafter, -, hwhole⟩ := h.split
  have hlen : s.got.length ≤ s.sent.length := by
    have hcount := congrArg List.length hgotten
    rw [List.length_append, List.length_map, List.length_map] at hcount
    omega
  have hsettled : afterAll s.mode (rest ++ [m]) =
      some (if s1.owed = 0 then .select else .awaiting) := by
    rw [afterAll_append, hafter]
    exact haccepts
  have hencode : encode p (rest ++ [m]) = encode p rest ++ m.bytes p := by
    rw [encode, List.flatMap_append, List.flatMap_singleton]
    rfl
  refine ⟨⟨rest ++ [m], ?_, ?_, ?_, ?_, ?_⟩, howed, ?_, ?_⟩
  · simp only [hgot, hsent, List.map_append, ← hgotten, List.append_assoc]
  · simp only [hgot, hsent]
    rw [List.drop_append_of_le_length hlen, hdrop]
  · have hne : s1.sent ++ [m] ≠ [] := by simp
    simp only [State.settled, hmode, hne, if_false]
    exact hsettled
  · simp only [hpipe, hwhole hopen, hencode]
    exact List.prefix_rfl
  · intro _
    simp only [hpipe, hwhole hopen, hencode]
  · intro hnil
    simp at hnil
  · intro hf
    exact hclosed.trans (h.failed (hfailed ▸ hf))

theorem waits_nil (p : Postcard Ack) (mode : Mode) : waits p mode [] = true := by
  have hpoll := (readMessage_waiting p mode).poll_nil
  rw [waits]
  cases h : (readMessage p mode).poll [] with
  | mk r rest =>
    rw [h] at hpoll
    cases r with
    | exact n k => rfl
    | done m => exact hpoll.elim
    | fail => exact hpoll.elim

/-- A message of which the connection leaves all is read; one of which it leaves less is not. -/
theorem next_pipe {p : Postcard Ack} (hp : Format p) {mode mode' : Mode} {m : Message}
    (h : accepts mode m.shown = some mode') {pipe tail : Bytes}
    (hpipe : pipe <+: m.bytes p ++ tail) :
    (∃ pipe', pipe = m.bytes p ++ pipe' ∧ pipe' <+: tail ∧
      next p mode pipe = some (m.shown, mode', pipe')) ∨
    next p mode pipe = none ∧ pipe.length < (m.bytes p).length := by
  by_cases hlen : (m.bytes p).length ≤ pipe.length
  · obtain ⟨pipe', rfl⟩ := List.prefix_of_prefix_length_le (List.prefix_append _ tail) hpipe hlen
    exact Or.inl ⟨pipe', rfl, (List.prefix_append_right_inj _).mp hpipe, next_bytes hp h pipe'⟩
  · have hlt : pipe.length < (m.bytes p).length := by omega
    have hpre : pipe <+: m.bytes p :=
      List.prefix_of_prefix_length_le hpipe (List.prefix_append _ tail) (Nat.le_of_lt hlt)
    have hne : pipe ≠ m.bytes p := by
      rintro rfl
      exact hlen (Nat.le_refl _)
    exact Or.inr ⟨next_truncated hp h hpre hne, hlt⟩

/-- **The client reads the next message that was sent.** -/
theorem Inv.read {p : Postcard Ack} (hp : Format p) {s s' : State} (h : Inv p s)
    (hs : step p s .read = some s') : Inv p s' := by
  obtain ⟨rest, hgotten, hdrop, hafter, hpipe, hwhole⟩ := h.split
  rw [step] at hs
  split at hs
  case isFalse => cases hs
  case isTrue hrunning =>
    cases rest with
    | nil =>
      have hnil : s.pipe = [] := List.prefix_nil.mp (by simpa [encode] using hpipe)
      have hnext : next p s.mode s.pipe = none := by rw [hnil, next_nil]
      have hwaits : waits p s.mode s.pipe = true := by rw [hnil, waits_nil]
      rw [hnext, hwaits] at hs
      simp only [Bool.true_eq_false, or_false] at hs
      split at hs
      case isFalse => cases hs
      case isTrue hclosed =>
        cases hs
        exact ⟨⟨[], hgotten, hdrop, hafter, hpipe, hwhole⟩, h.owed, h.quiet, fun _ => hclosed⟩
    | cons m l =>
      obtain ⟨mode', haccepts, hrest⟩ := Option.bind_eq_some_iff.mp hafter
      obtain ⟨pipe', heq, hpre, hnext⟩ | ⟨hnext, hlt⟩ := next_pipe hp haccepts hpipe
      · rw [hnext] at hs
        cases hs
        have hdrop' : s.sent.drop (s.got.length + 1) = l := by
          rw [← List.drop_drop, hdrop]
          rfl
        refine ⟨⟨l, ?_, ?_, hrest, hpre, ?_⟩, h.owed, h.quiet, fun hf => ?_⟩
        · rw [← hgotten, List.append_assoc]
          rfl
        · rw [List.length_append, List.length_singleton, hdrop']
        · intro hopen
          have hall := hwhole hopen
          rw [heq, encode, List.flatMap_cons] at hall
          exact List.append_cancel_left hall
        · exact h.failed hf
      · rw [hnext] at hs
        simp only [Option.ite_none_right_eq_some] at hs
        obtain ⟨-, hs⟩ := hs
        have hclosed : s.closed = true := by
          cases hc : s.closed with
          | true => rfl
          | false =>
            have hall := congrArg List.length (hwhole hc)
            rw [encode, List.flatMap_cons, List.length_append] at hall
            omega
        cases hs
        exact ⟨⟨m :: l, hgotten, hdrop, hafter, hpipe, hwhole⟩, h.owed, h.quiet, fun _ => hclosed⟩

theorem Inv.register {p : Postcard Ack} {s s' : State} (h : Inv p s)
    (hs : step p s .register = some s') : Inv p s' := by
  rw [step] at hs
  split at hs
  case isFalse => cases hs
  case isTrue hselect =>
    cases hs
    obtain ⟨rest, hgotten, hdrop, hafter, hpipe, hwhole⟩ := h.split
    rw [hselect.1] at hafter
    obtain ⟨hsettled, hawait⟩ := afterAll_select hafter
    have hsent : s.sent ≠ [] := by
      intro hnil
      rw [State.settled, if_pos hnil] at hsettled
      cases hsettled
    have howed : s.owed = 0 := by
      rw [State.settled, if_neg hsent] at hsettled
      by_contra hne
      rw [if_neg hne] at hsettled
      cases hsettled
    refine ⟨⟨rest, hgotten, hdrop, ?_, hpipe, hwhole⟩, ?_, fun hnil => absurd hnil hsent, h.failed⟩
    · simp only [State.settled, if_neg hsent, Nat.add_one_ne_zero, if_false]
      exact hawait
    · exact Nat.le_of_eq (congrArg (· + 1) howed)

theorem Inv.cut {p : Postcard Ack} {s s' : State} {n : Nat} (h : Inv p s)
    (hs : step p s (.cut n) = some s') : Inv p s' := by
  rw [step] at hs
  split at hs
  case isFalse => cases hs
  case isTrue =>
    cases hs
    obtain ⟨rest, hgotten, hdrop, hafter, hpipe, -⟩ := h.split
    exact ⟨⟨rest, hgotten, hdrop, hafter, (List.take_prefix n _).trans hpipe, nofun⟩, h.owed,
      h.quiet, fun _ => rfl⟩

/-- The messages the server sends are those the client waits for when it has read the others. -/
theorem Inv.send {p : Postcard Ack} (hp : Format p) {s s' : State} {e : Event} (h : Inv p s)
    (hs : step p s e = some s') (he : e ≠ .register ∧ e ≠ .read ∧ ∀ n, e ≠ .cut n) : Inv p s' := by
  cases e with
  | register => exact absurd rfl he.1
  | read => exact absurd rfl he.2.1
  | cut n => exact absurd rfl (he.2.2 n)
  | accept secs =>
    rw [step] at hs
    split at hs
    case isFalse => cases hs
    case isTrue hguard =>
      refine h.write hp hguard.2 hs ⟨rfl, rfl, rfl, rfl, rfl, rfl⟩ h.owed ?_
      rw [State.settled, if_pos hguard.1, if_pos (h.quiet hguard.1)]
      rfl
  | command cmd =>
    rw [step] at hs
    split at hs
    case isFalse => cases hs
    case isTrue hguard =>
      obtain ⟨hsent, hcmd, hopen⟩ := hguard
      refine h.write hp hopen hs ⟨rfl, rfl, rfl, rfl, rfl, rfl⟩ h.owed ?_
      rw [State.settled, if_neg hsent]
      cases cmd with
      | createDataChannel => exact absurd rfl hcmd
      | _ => split <;> rfl
  | verdict rejection =>
    rw [step] at hs
    split at hs
    case isFalse => cases hs
    case isTrue hguard =>
      obtain ⟨hpos, hopen⟩ := hguard
      have hone : s.owed = 1 := by
        have hle := h.owed
        omega
      have hsent : s.sent ≠ [] := by
        intro hnil
        have hzero := h.quiet hnil
        omega
      have hle : s.owed - 1 ≤ 1 := by omega
      refine h.write hp hopen hs ⟨rfl, rfl, rfl, rfl, rfl, rfl⟩ hle ?_
      have hzero : s.owed - 1 = 0 := by omega
      rw [State.settled, if_neg hsent, if_neg (by omega), if_pos hzero]
      cases rejection with
      | none => rfl
      | some reason => rfl

theorem Inv.step {p : Postcard Ack} (hp : Format p) {s s' : State} {e : Event} (h : Inv p s)
    (hs : step p s e = some s') : Inv p s' := by
  cases e with
  | register => exact h.register hs
  | read => exact h.read hp hs
  | cut n => exact h.cut hs
  | accept secs => exact h.send hp hs ⟨nofun, nofun, nofun⟩
  | command cmd => exact h.send hp hs ⟨nofun, nofun, nofun⟩
  | verdict rejection => exact h.send hp hs ⟨nofun, nofun, nofun⟩

theorem inv_of_reach {p : Postcard Ack} (hp : Format p) {s : State} (h : (stream p).Reach s) :
    Inv p s := by
  refine h.invariant ?_ ?_
  · rintro s rfl
    exact inv_start p
  · intro s e s' hinv hs
    exact hinv.step hp hs

/-! ## 6. The codec -/

/-- UTF-8. -/
def utf8 (s : List Char) : Bytes := (s.flatMap String.utf8EncodeChar).map UInt8.toBitVec

def fromUtf8 (bs : Bytes) : Option (List Char) :=
  (bs.map UInt8.ofBitVec).toByteArray.utf8Decode?.map Array.toList

theorem fromUtf8_utf8 (s : List Char) : fromUtf8 (utf8 s) = some s := by
  have hbytes : (utf8 s).map UInt8.ofBitVec = s.flatMap String.utf8EncodeChar := by
    simp [utf8, Function.comp_def]
  have hencode : (s.flatMap String.utf8EncodeChar).toByteArray = s.utf8Encode := rfl
  rw [fromUtf8, hbytes, hencode, List.utf8Decode?_utf8Encode]
  rfl

theorem utf8_length (s : List Char) : (utf8 s).length = byteLen s := by
  rw [utf8, List.length_map]
  induction s with
  | nil => rfl
  | cons c s ih =>
    rw [List.flatMap_cons, List.length_append, ih, byteLen_cons, String.length_utf8EncodeChar]

/-- An integer of `w` bits in at most `k` bytes: a greater number is refused. -/
def getUint (k w : Nat) (buf : Bytes) : Option (Nat × Bytes) :=
  (getVarint k buf).filter fun r => r.1 < 2 ^ w

theorem getUint_varint_append {k w n : Nat} (hn : n < 2 ^ w) (hw : 2 ^ w ≤ 128 ^ k) (hk : 0 < k)
    (rest : Bytes) : getUint k w (varint k n ++ rest) = some (n, rest) := by
  rw [getUint, getVarint_varint_append (Nat.lt_of_lt_of_le hn hw) hk]
  simp [Option.filter, hn]

/-- The codec.  What stands behind the value is not looked at. -/
def postcard : Postcard Ack where
  toStdvec
    | .ok => [0]
    | .authFailed => [1]
    | .registerRejected reason => 2 :: (varint 10 (utf8 reason).length ++ utf8 reason)
    | .sessionOk secs => 3 :: varint 10 secs.toNat
    | .tunnelRefused => [4]
  fromBytes bytes := (getUint 5 32 bytes).bind fun tag =>
    match tag.1 with
    | 0 => some .ok
    | 1 => some .authFailed
    | 2 => (getUint 10 64 tag.2).bind fun r =>
      if r.2.length < r.1 then none else (fromUtf8 (r.2.take r.1)).map .registerRejected
    | 3 => (getUint 10 64 tag.2).map fun r => .sessionOk (BitVec.ofNat 64 r.1)
    | 4 => some .tunnelRefused
    | _ => none

theorem postcard_format : Format postcard where
  roundTrips := by
    intro ack
    cases ack with
    | registerRejected reason =>
      have hfit := byteLen_fitRejectionReason reason
      have hmax : maxRejectionReasonLen = 250 := rfl
      have hlen := utf8_length (fitRejectionReason reason)
      have hread := getUint_varint_append (k := 10) (w := 64)
        (by omega : (utf8 (fitRejectionReason reason)).length < 2 ^ 64) (by decide) (by decide)
        (utf8 (fitRejectionReason reason))
      refine (congrArg (fun r => Option.bind r _) hread).trans ?_
      simp only [Option.bind_some, Nat.lt_irrefl, if_false, List.take_length, fromUtf8_utf8,
        Option.map_some]
      rfl
    | sessionOk secs =>
      have hread := getUint_varint_append (k := 10) secs.isLt (by decide) (by decide) []
      rw [List.append_nil] at hread
      refine (congrArg (Option.map _) hread).trans ?_
      simp only [Option.map_some, BitVec.ofNat_toNat, BitVec.setWidth_eq]
      rfl
    | ok | authFailed | tunnelRefused => rfl
  length := by
    intro ack
    cases ack with
    | registerRejected reason =>
      simp only [Ack.fitted, postcard, Ack.fieldLen, List.length_cons, List.length_append,
        utf8_length]
      omega
    | sessionOk secs =>
      simp only [Ack.fitted, postcard, Ack.fieldLen, List.length_cons]
      omega
    | ok | authFailed | tunnelRefused => rfl

/-! ## 7. The stream is decoded -/

/-- **The client reads what was sent**: in every run the messages it has read are the first ones
the server sent, with their reasons as they were fitted; while the connection stands, what is on
the wire is the rest of them, and the next read takes exactly the next one; the client ends with
an error only where the connection did.  A message of which a part is missing is an error.  What
is read as a message at all is a command's own encoding, or what the codec reads from a frame's
payload. -/
theorem control_stream_decoded (p : Postcard Ack) (hp : Format p) :
    (∀ s, (stream p).Reach s →
      s.got <+: s.sent.map Message.shown ∧ (s.failed = true → s.closed = true) ∧
      (s.closed = false → s.pipe = encode p (s.sent.drop s.got.length) ∧
        ∀ m l, s.sent.drop s.got.length = m :: l →
          ∃ mode, next p s.mode s.pipe = some (m.shown, mode, encode p l))) ∧
    (∀ mode mode' m, accepts mode (Message.shown m) = some mode' → ∀ pre, pre <+: m.bytes p →
      pre ≠ m.bytes p → next p mode pre = none) ∧
    ∀ mode bs m mode' rest, next p mode bs = some (m, mode', rest) →
      ∃ bytes, bs = bytes ++ rest ∧ ReadFrom p mode m bytes ∧ accepts mode m = some mode' := by
  refine ⟨fun s hs => ?_, fun _ _ _ h _ hpre hne => next_truncated hp h hpre hne,
    fun _ _ _ _ _ => next_sound⟩
  have hinv := inv_of_reach hp hs
  obtain ⟨rest, hgotten, hdrop, hafter, -, hwhole⟩ := hinv.split
  refine ⟨⟨_, hgotten⟩, hinv.failed, fun hopen => ?_⟩
  rw [hdrop]
  refine ⟨hwhole hopen, ?_⟩
  rintro m l rfl
  obtain ⟨mode', haccepts, -⟩ := Option.bind_eq_some_iff.mp hafter
  refine ⟨mode', ?_⟩
  rw [hwhole hopen]
  exact next_bytes hp haccepts (encode p l)

/-- A session is accepted, a command and a rejection cross a registration, and the connection ends
inside the next command. -/
def rejectedRun : List Event :=
  [.accept 30, .read, .register, .command (.serviceDropped 7), .verdict (some ['n', 'o']), .read,
    .command .heartBeat, .read, .read, .command (.laneDrainAck 1 2 1), .cut 4, .read]

theorem control_stream_decoded_rejected :
    ∃ s, (stream postcard).Reach s ∧ s.failed = true ∧ s.closed = true ∧
      s.got = [.ack (.sessionOk 30), .command (.serviceDropped 7),
        .ack (.registerRejected ['n', 'o']), .command .heartBeat] ∧
      s.got <+: s.sent.map Message.shown := by
  have hrun : (Lts.runWith (step postcard) (fun _ _ => true) start rejectedRun).any
      (fun s => decide (s.failed = true ∧ s.got = [.ack (.sessionOk 30),
        .command (.serviceDropped 7), .ack (.registerRejected ['n', 'o']),
        .command .heartBeat])) = true := by
    decide +kernel
  obtain ⟨s, hreach, hend⟩ :=
    Lts.Reach.exists_run (T := stream postcard) (fun _ _ _ h => h) rfl hrun
  obtain ⟨hfailed, hgot⟩ := of_decide_eq_true hend
  have hdecoded := (control_stream_decoded postcard postcard_format).1 s hreach
  exact ⟨s, hreach, hfailed, hdecoded.2.1 hfailed, hgot, hdecoded.1⟩

/-- **A frame with more in it than an ack is read as the ack.**  No message of the server starts
these bytes, and the client takes them for the verdict it awaits. -/
theorem padded_ack_is_read :
    ¬ ∀ bs m mode rest, next postcard .awaiting bs = some (m, mode, rest) →
      ∃ m', accepts .awaiting (Message.shown m') ≠ none ∧ bs = m'.bytes postcard ++ rest := by
  intro hall
  have hread : next postcard .awaiting [0, 2, 0, 255] = some (.ack .ok, .select, []) := by
    decide +kernel
  obtain ⟨m', haccepts, hbytes⟩ := hall _ _ _ _ hread
  rw [List.append_nil] at hbytes
  cases m' with
  | command cmd =>
    cases cmd with
    | createDataChannel => exact haccepts rfl
    | _ => cases hbytes
  | ack a =>
    have hpayload : [0, 255] = postcard.toStdvec a.fitted := by
      rw [Message.bytes, beBytes_of_lt (postcard_format.fitted_length a)] at hbytes
      exact (List.cons.inj (List.cons.inj hbytes).2).2
    cases a with
    | registerRejected reason => exact absurd (List.cons.inj hpayload).1 (by decide)
    | sessionOk secs => exact haccepts rfl
    | ok | authFailed | tunnelRefused => exact absurd hpayload (by decide)

end Molehill.Session.ControlStream
