/-
# The control session's two command streams

A control session carries commands both ways on one connection.  The client's commands
(`SessionCmd`) are length-prefixed frames, the prefix and the payload written one after the other;
the server's (`ControlChannelCmd`) are a tag and as many bytes as the tag says, with the framed
verdicts on the client's registrations between them.  Each end reads inside the select of its
session loop: `read_session_cmd` on the server, `read_control_cmd` on the client, which only leaves
its select for the time it awaits a verdict.

Neither read keeps what it has taken anywhere but in its future, so an arm that is taken in the
middle of a frame (the heartbeat of an idle server, a request or a question on the client) drops
the bytes and the next read starts inside the frame (`command_cut`).  If that does not happen the
streams are read as they were sent (`commands_read_in_order`).

The serialization of a session command is a third-party codec: it is a parameter, and what the
code relies on is that it reads back what it wrote.
-/
import Mathlib.Data.List.GetD
import Molehill.Lib.SelectLoop

namespace Molehill.Session

open Lib

/-! ## 1. The client's commands -/

/-- `SessionCmd`; `R` stands for the content of a registration.  Ids are four raw bytes. -/
inductive SessionCmd (R : Type)
  | register (reg : R)
  | deregister (id : U32)
  | drainLane (id lane : U32)
  | cancelDrain (id lane : U32)
  deriving DecidableEq

def maxRegistrationLen : Nat := 1024

def maxSessionCmdLen : Nat := maxRegistrationLen + 64

/-- The codec of the commands: `postcard::to_stdvec` and `postcard::from_bytes`. -/
structure Postcard (α : Type) where
  toStdvec : α → Bytes
  fromBytes : Bytes → Option α

/-- What is written is read back. -/
def Postcard.RoundTrips {α : Type} (p : Postcard α) : Prop :=
  ∀ a, p.fromBytes (p.toStdvec a) = some a

variable {R : Type}

/-- `read_session_cmd`. -/
def readSessionCmd (p : Postcard (SessionCmd R)) : Reader (SessionCmd R) :=
  .exact 2 fun len =>
    if ofBe len ≤ maxSessionCmdLen then
      .exact (ofBe len) fun buf =>
        match p.fromBytes buf with
        | some cmd => .done cmd
        | none => .fail
    else .fail

/-- The arms of the server's loop beside the read, those that end the session left out. -/
inductive SessionArm
  | heartbeat
  deriving DecidableEq

/-- The server's session loop, and the client's `write_session_cmd` at the other end. -/
def sessionLoop (p : Postcard (SessionCmd R)) (heartbeatInterval : Nat) :
    SelectLoop Unit (SessionCmd R) SessionArm where
  first := ()
  head cmd := beBytes 2 (p.toStdvec cmd).length
  tail := p.toStdvec
  reader _ := readSessionCmd p
  after _ _ := some ()
  arm _
    | .heartbeat => if heartbeatInterval ≠ 0 then some () else none
  sends _ _ cmd := decide ((p.toStdvec cmd).length ≤ maxSessionCmdLen)

/-- A command the writer lets through is read back, and nothing behind it is touched. -/
theorem poll_readSessionCmd {p : Postcard (SessionCmd R)} (hp : p.RoundTrips)
    {cmd : SessionCmd R} (hlen : (p.toStdvec cmd).length ≤ maxSessionCmdLen) (rest : Bytes) :
    (readSessionCmd p).poll (beBytes 2 (p.toStdvec cmd).length ++ p.toStdvec cmd ++ rest) =
      (.done cmd, rest) := by
  have hmax : maxSessionCmdLen < 256 ^ 2 := by decide
  have hbe : ofBe (beBytes 2 (p.toStdvec cmd).length) = (p.toStdvec cmd).length := by
    rw [ofBe_beBytes, Nat.mod_eq_of_lt (by omega)]
  rw [readSessionCmd, List.append_assoc, Reader.poll_exact_append _ (beBytes_length 2 _), hbe,
    if_pos hlen, Reader.poll_exact_append _ rfl]
  simp only [hp cmd, Reader.poll_done]

/-- The frames in flight to the server all passed the writer's check. -/
theorem sessionLoop_readable {p : Postcard (SessionCmd R)} (hp : p.RoundTrips)
    (heartbeatInterval : Nat) :
    (sessionLoop p heartbeatInterval).Readable fun _ _ _ l =>
      ∀ cmd ∈ l, (p.toStdvec cmd).length ≤ maxSessionCmdLen where
  first := by simp
  waits := fun _ => Nat.zero_lt_two
  sends := by
    intro m as ds l cmd hl hsend cmd' hmem
    obtain hmem | hmem := List.mem_append.mp hmem
    · exact hl cmd' hmem
    · cases List.mem_singleton.mp hmem
      exact of_decide_eq_true hsend
  arm := fun _ _ _ _ _ _ hl _ => hl
  read := by
    intro m as ds cmd l hl
    refine ⟨poll_readSessionCmd hp (hl cmd List.mem_cons_self), (), rfl, ?_⟩
    exact fun cmd' hmem => hl cmd' (List.mem_cons_of_mem _ hmem)

/-! ## 2. The server's commands -/

/-- `ControlChannelCmd`, in the order that gives the tags. -/
inductive ControlChannelCmd
  | createDataChannel
  | heartBeat
  | createDataChannelFor (id : U32)
  | serviceDropped (id : U32)
  | createDataChannelForStripe (id group : U32) (index count : Byte)
  | carrierReport (id lane offered refused : U32) (seq : Byte)
  | laneDrainAck (id lane : U32) (state : Byte)
  | tunnelHealth (id tunnel out resent handed : U32) (seq : Byte)
  | releaseStripedGroup (id group : U32)
  deriving DecidableEq

/-- A four-byte field. -/
def word (x : U32) : Bytes := beBytes 4 x.toNat

/-- The serialized command: its tag and fields of fixed width. -/
def ControlChannelCmd.toStdvec : ControlChannelCmd → Bytes
  | createDataChannel => [0]
  | heartBeat => [1]
  | createDataChannelFor id => 2 :: word id
  | serviceDropped id => 3 :: word id
  | createDataChannelForStripe id group index count => 4 :: (word id ++ word group ++ [index, count])
  | carrierReport id lane offered refused seq =>
    5 :: (word id ++ word lane ++ word offered ++ word refused ++ [seq])
  | laneDrainAck id lane state => 6 :: (word id ++ word lane ++ [state])
  | tunnelHealth id tunnel out resent handed seq =>
    7 :: (word id ++ word tunnel ++ word out ++ word resent ++ word handed ++ [seq])
  | releaseStripedGroup id group => 8 :: (word id ++ word group)

/-- The four-byte field at an offset of the suffix, and the byte at one. -/
def wordAt (buf : Bytes) (i : Nat) : U32 := BitVec.ofNat 32 (ofBe ((buf.drop i).take 4))

def byteAt (buf : Bytes) (i : Nat) : Byte := buf.getD i 0

/-- `read_control_cmd`: the tag alone decides how many bytes follow. -/
def readControlCmd : Reader ControlChannelCmd :=
  .exact 1 fun tag =>
    match (byteAt tag 0).toNat with
    | 0 => .done .createDataChannel
    | 1 => .done .heartBeat
    | 2 => .exact 4 fun buf => .done (.createDataChannelFor (wordAt buf 0))
    | 3 => .exact 4 fun buf => .done (.serviceDropped (wordAt buf 0))
    | 4 => .exact 10 fun buf =>
      .done (.createDataChannelForStripe (wordAt buf 0) (wordAt buf 4) (byteAt buf 8) (byteAt buf 9))
    | 5 => .exact 17 fun buf =>
      .done (.carrierReport (wordAt buf 0) (wordAt buf 4) (wordAt buf 8) (wordAt buf 12)
        (byteAt buf 16))
    | 6 => .exact 9 fun buf =>
      .done (.laneDrainAck (wordAt buf 0) (wordAt buf 4) (byteAt buf 8))
    | 7 => .exact 21 fun buf =>
      .done (.tunnelHealth (wordAt buf 0) (wordAt buf 4) (wordAt buf 8) (wordAt buf 12)
        (wordAt buf 16) (byteAt buf 20))
    | 8 => .exact 8 fun buf => .done (.releaseStripedGroup (wordAt buf 0) (wordAt buf 4))
    | _ => .fail

@[simp] theorem word_length (x : U32) : (word x).length = 4 := beBytes_length 4 _

@[simp] theorem wordAt_word (x : U32) (l : Bytes) : wordAt (word x ++ l) 0 = x := by
  have hx : x.toNat < 256 ^ 4 := x.isLt
  rw [wordAt, List.drop_zero, List.take_left' (word_length x), word, ofBe_beBytes,
    Nat.mod_eq_of_lt hx, BitVec.ofNat_toNat, BitVec.setWidth_eq]

@[simp] theorem wordAt_skip (x : U32) (l : Bytes) (i : Nat) :
    wordAt (word x ++ l) (i + 4) = wordAt l i := by
  have hdrop : (word x ++ l).drop (i + 4) = l.drop i := by
    rw [Nat.add_comm, ← List.drop_drop, List.drop_left' (word_length x)]
  rw [wordAt, wordAt, hdrop]

@[simp] theorem byteAt_skip (x : U32) (l : Bytes) (i : Nat) :
    byteAt (word x ++ l) (i + 4) = byteAt l i := by
  have hlen := word_length x
  rw [byteAt, byteAt, List.getD_append_right _ _ _ _ (by omega), hlen, Nat.add_sub_cancel]

/-- The suffix of a command, read as the tag says. -/
theorem poll_suffix {suffix : Bytes} {n : Nat} (k : Bytes → Reader ControlChannelCmd)
    (hlen : suffix.length = n) {cmd : ControlChannelCmd} (hk : k suffix = .done cmd)
    (rest : Bytes) : (Reader.exact n k).poll (suffix ++ rest) = (.done cmd, rest) := by
  rw [Reader.poll_exact_append k hlen, hk]
  rfl

/-- What is read behind the tag. -/
def afterTag (tag : Byte) : Reader ControlChannelCmd :=
  match readControlCmd with
  | .exact _ k => k [tag]
  | r => r

/-- Every command is read back, and nothing behind it is touched. -/
theorem poll_readControlCmd (cmd : ControlChannelCmd) (rest : Bytes) :
    readControlCmd.poll (cmd.toStdvec ++ rest) = (.done cmd, rest) := by
  have htag : ∀ (tag : Byte) (suffix : Bytes), readControlCmd.poll (tag :: suffix ++ rest) =
      (afterTag tag).poll (suffix ++ rest) := fun tag suffix => rfl
  cases cmd with
  | createDataChannel => rfl
  | heartBeat => rfl
  | createDataChannelFor id =>
    refine (htag 2 (word id)).trans (poll_suffix _ (word_length id) ?_ rest)
    simpa using wordAt_word id []
  | serviceDropped id =>
    refine (htag 3 (word id)).trans (poll_suffix _ (word_length id) ?_ rest)
    simpa using wordAt_word id []
  | createDataChannelForStripe id group index count =>
    refine (htag 4 _).trans (poll_suffix _ (by simp) ?_ rest)
    simp only [List.append_assoc, wordAt_word, wordAt_skip, byteAt_skip]
    rfl
  | carrierReport id lane offered refused seq =>
    refine (htag 5 _).trans (poll_suffix _ (by simp) ?_ rest)
    simp only [List.append_assoc, wordAt_word, wordAt_skip, byteAt_skip]
    rfl
  | laneDrainAck id lane state =>
    refine (htag 6 _).trans (poll_suffix _ (by simp) ?_ rest)
    simp only [List.append_assoc, wordAt_word, wordAt_skip, byteAt_skip]
    rfl
  | tunnelHealth id tunnel out resent handed seq =>
    refine (htag 7 _).trans (poll_suffix _ (by simp) ?_ rest)
    simp only [List.append_assoc, wordAt_word, wordAt_skip, byteAt_skip]
    rfl
  | releaseStripedGroup id group =>
    refine (htag 8 _).trans (poll_suffix _ (by simp) ?_ rest)
    simpa using wordAt_word group []

/-! ## 3. The client's loop -/

/-- The payload of a framed verdict.  A rejection's reason is shortened before it is sent, so that
the length's high byte is 0, which no command's tag is. -/
abbrev Verdict := { payload : Bytes // payload.length < 256 }

/-- What the server writes on the session. -/
inductive ServerFrame
  | command (cmd : ControlChannelCmd)
  | verdict (ack : Verdict)
  deriving DecidableEq

/-- `write_register_result`: the length, then the payload.  A command is written in one piece. -/
def ServerFrame.head : ServerFrame → Bytes
  | command cmd => cmd.toStdvec
  | verdict ack => beBytes 2 ack.val.length

def ServerFrame.tail : ServerFrame → Bytes
  | command _ => []
  | verdict ack => ack.val

/-- Map the result of a read. -/
def readFrame : Reader ControlChannelCmd → Reader ServerFrame
  | .done cmd => .done (.command cmd)
  | .fail => .fail
  | .exact n k => .exact n fun bs => readFrame (k bs)

/-- `read_register_result`. -/
def readRegisterResult : Reader ServerFrame :=
  .exact 2 fun len =>
    if ofBe len ≤ maxRegistrationLen then
      .exact (ofBe len) fun buf =>
        if h : buf.length < 256 then .done (.verdict ⟨buf, h⟩) else .fail
    else .fail

/-- `await_verdict`, one frame of it: the next byte tells a verdict from a command. -/
def verdictOrCmd (b : Byte) : Reader ServerFrame :=
  if b = 0 then readRegisterResult else readFrame readControlCmd

def awaitVerdict : Reader ServerFrame := Reader.peek verdictOrCmd

/-- Where the client's session is: at its select, or inside a registration. -/
inductive ClientMode
  | select
  | awaiting
  deriving DecidableEq

/-- The other arms of the client's select, those that end the session left out: a registration is
written, another request is, or a question of the client is answered. -/
inductive ClientArm
  | register
  | request
  | ask
  deriving DecidableEq

def registers (arms : List ClientArm) : Nat := arms.count .register

def verdicts (frames : List ServerFrame) : Nat :=
  frames.countP fun
    | .verdict _ => true
    | .command _ => false

@[simp] theorem verdicts_append (a b : List ServerFrame) :
    verdicts (a ++ b) = verdicts a + verdicts b := List.countP_append

@[simp] theorem verdicts_command (cmd : ControlChannelCmd) :
    verdicts [.command cmd] = 0 := rfl

@[simp] theorem verdicts_verdict (ack : Verdict) : verdicts [.verdict ack] = 1 := rfl

/-- The client's session loop.  A service that was dropped is registered again by the same arm.
No server constructs the command of the old dialect, and one verdict answers one registration. -/
def clientLoop : SelectLoop ClientMode ServerFrame ClientArm where
  first := .select
  head := ServerFrame.head
  tail := ServerFrame.tail
  reader
    | .select => readFrame readControlCmd
    | .awaiting => awaitVerdict
  after
    | _, .command .createDataChannel => none
    | m, .command _ => some m
    | .awaiting, .verdict _ => some .select
    | .select, .verdict _ => none
  arm
    | .select, .register => some .awaiting
    | .select, _ => some .select
    | .awaiting, _ => none
  sends arms sent
    | .command cmd => cmd ≠ .createDataChannel
    | .verdict _ => verdicts sent < registers arms

theorem poll_readFrame (r : Reader ControlChannelCmd) (bs : Bytes) :
    (readFrame r).poll bs = (readFrame (r.poll bs).1, (r.poll bs).2) := by
  induction r generalizing bs with
  | done cmd => rfl
  | fail => rfl
  | exact n k ih =>
    rw [readFrame, Reader.poll, Reader.poll]
    split
    · rfl
    · exact ih _ _

/-- A command is read in both modes: its tag is not 0. -/
theorem poll_command {cmd : ControlChannelCmd} (hcmd : cmd ≠ .createDataChannel) (m : ClientMode)
    (rest : Bytes) :
    (clientLoop.reader m).poll (clientLoop.frame (.command cmd) ++ rest) =
      (.done (.command cmd), rest) := by
  have hselect : (readFrame readControlCmd).poll (cmd.toStdvec ++ rest) =
      (.done (.command cmd), rest) := by
    rw [poll_readFrame, poll_readControlCmd]
    rfl
  have hframe : clientLoop.frame (.command cmd) = cmd.toStdvec := List.append_nil _
  rw [hframe]
  cases m with
  | select => exact hselect
  | awaiting =>
    obtain ⟨tag, suffix, htag, hne⟩ : ∃ tag suffix, cmd.toStdvec = tag :: suffix ∧ tag ≠ 0 := by
      cases cmd with
      | createDataChannel => exact absurd rfl hcmd
      | _ => exact ⟨_, _, rfl, by decide⟩
    rw [htag] at hselect ⊢
    have hread : verdictOrCmd tag = readFrame readControlCmd := if_neg hne
    have hw : (verdictOrCmd tag).Waiting := by
      rw [hread]
      exact Nat.one_pos
    refine (Reader.poll_peek hw _).trans ?_
    rw [hread]
    exact hselect

/-- A verdict is read while one is awaited. -/
theorem poll_verdict (ack : Verdict) (rest : Bytes) :
    awaitVerdict.poll (clientLoop.frame (.verdict ack) ++ rest) = (.done (.verdict ack), rest) := by
  obtain ⟨payload, hlen⟩ := ack
  have hbe : ofBe (beBytes 2 payload.length) = payload.length := by
    rw [ofBe_beBytes, Nat.mod_eq_of_lt (by omega)]
  have hres : readRegisterResult.poll (beBytes 2 payload.length ++ payload ++ rest) =
      (.done (.verdict ⟨payload, hlen⟩), rest) := by
    have hmax : payload.length ≤ maxRegistrationLen := by
      rw [maxRegistrationLen]
      omega
    rw [readRegisterResult, List.append_assoc,
      Reader.poll_exact_append _ (beBytes_length 2 _), hbe, if_pos hmax,
      Reader.poll_exact_append _ rfl, dif_pos hlen]
    rfl
  have hhigh : beBytes 2 payload.length = [0, BitVec.ofNat 8 payload.length] := by
    have hdiv : payload.length / 256 = 0 := Nat.div_eq_of_lt hlen
    simp [beBytes, leBytes, hdiv]
  have hw : (verdictOrCmd 0).Waiting := Nat.zero_lt_two
  have hframe : clientLoop.frame (.verdict ⟨payload, hlen⟩) = beBytes 2 payload.length ++ payload :=
    rfl
  rw [hframe]
  rw [hhigh] at hres ⊢
  exact (Reader.poll_peek hw _).trans hres

/-- The frames in flight to the client: commands of this dialect, and a verdict only while the
client awaits it. -/
theorem clientLoop_readable :
    clientLoop.Readable fun m arms decoded l =>
      (∀ f ∈ l, f ≠ .command .createDataChannel) ∧
        registers arms = verdicts decoded + (if m = .awaiting then 1 else 0) ∧
        verdicts (decoded ++ l) ≤ registers arms where
  first := ⟨by simp, rfl, Nat.le_refl 0⟩
  waits := by
    intro m
    cases m with
    | select => exact Nat.one_pos
    | awaiting => exact Nat.one_pos
  sends := by
    rintro m arms ds l f ⟨hl, hreg, hle⟩ hsend
    refine ⟨?_, hreg, ?_⟩
    · intro f' hmem
      obtain hmem | hmem := List.mem_append.mp hmem
      · exact hl f' hmem
      · cases List.mem_singleton.mp hmem
        rintro rfl
        simp [clientLoop] at hsend
    · rw [← List.append_assoc, verdicts_append]
      cases f with
      | command cmd => simpa using hle
      | verdict ack => exact of_decide_eq_true hsend
  arm := by
    rintro m arms ds l x m' ⟨hl, hreg, hle⟩ harm
    cases m with
    | awaiting => cases harm
    | select =>
      cases x with
      | register =>
        cases harm
        have hcount : registers (arms ++ [.register]) = registers arms + 1 := by
          simp [registers]
        exact ⟨hl, by rw [hcount, hreg]; rfl, by omega⟩
      | request | ask =>
        cases harm
        rw [registers, List.count_append]
        exact ⟨hl, hreg, hle⟩
  read := by
    rintro m arms ds f l ⟨hl, hreg, hle⟩
    have hl' : ∀ f' ∈ l, f' ≠ .command .createDataChannel :=
      fun f' hmem => hl f' (List.mem_cons_of_mem _ hmem)
    have hle' : verdicts (ds ++ [f] ++ l) ≤ registers arms := by
      rw [List.append_assoc, List.singleton_append]
      exact hle
    cases f with
    | command cmd =>
      have hcmd : cmd ≠ .createDataChannel := by
        rintro rfl
        exact hl _ List.mem_cons_self rfl
      refine ⟨poll_command hcmd m, m, ?_, hl', ?_, hle'⟩
      · cases cmd with
        | createDataChannel => exact absurd rfl hcmd
        | _ => rfl
      · rw [hreg, verdicts_append, verdicts_command]
        rfl
    | verdict ack =>
      rw [verdicts_append, verdicts_append, verdicts_verdict] at hle'
      cases m with
      | select =>
        have hnone : registers arms = verdicts ds := hreg
        omega
      | awaiting =>
        refine ⟨poll_verdict ack, .select, rfl, hl', ?_, ?_⟩
        · rw [hreg, verdicts_append, verdicts_verdict]
          rfl
        · rw [verdicts_append, verdicts_append]
          exact hle'

/-! ## 4. Both streams -/

/-- **Both ends read what was sent**, for every sequence of commands, every chunking and every
order of the loops' arms, in every run in which no arm is taken while the pending read holds part
of a frame. -/
theorem commands_read_in_order {p : Postcard (SessionCmd R)} (hp : p.RoundTrips)
    (heartbeatInterval : Nat) :
    (∀ s, ((sessionLoop p heartbeatInterval).lts.restrict SelectLoop.Uncut).Reach s →
      SelectLoop.ReadsInOrder s) ∧
    ∀ s, (clientLoop.lts.restrict SelectLoop.Uncut).Reach s → SelectLoop.ReadsInOrder s :=
  ⟨fun _ h => SelectLoop.read_in_order (sessionLoop_readable hp heartbeatInterval) h,
    fun _ h => SelectLoop.read_in_order clientLoop_readable h⟩

/-! ## 5. Runs -/

/-- The codec on commands without fields of varying width; a registration is its own encoding. -/
def rawPostcard : Postcard (SessionCmd Bytes) where
  toStdvec
    | .register reg => 0 :: reg
    | .deregister id => 1 :: word id
    | .drainLane id lane => 2 :: (word id ++ word lane)
    | .cancelDrain id lane => 3 :: (word id ++ word lane)
  fromBytes
    | 0 :: reg => some (.register reg)
    | 1 :: buf => some (.deregister (wordAt buf 0))
    | 2 :: buf => some (.drainLane (wordAt buf 0) (wordAt buf 4))
    | 3 :: buf => some (.cancelDrain (wordAt buf 0) (wordAt buf 4))
    | _ => none

theorem rawPostcard_roundTrips : rawPostcard.RoundTrips := by
  have hlast : ∀ x : U32, wordAt (word x) 0 = x := fun x => by simpa using wordAt_word x []
  intro cmd
  cases cmd with
  | register reg => rfl
  | deregister id => exact congrArg (fun x => some (SessionCmd.deregister x)) (hlast id)
  | drainLane id lane => simp [rawPostcard, hlast]
  | cancelDrain id lane => simp [rawPostcard, hlast]

/-- A service is withdrawn; the frame arrives in two pieces and is read in two polls, and a
heartbeat is due before and after it. -/
def wholeFrameRun : List (SelectLoop.Event (SessionCmd Bytes) SessionArm) :=
  [.other .heartbeat, .send (.deregister 1), .write, .deliver 1, .poll, .deliver 6, .poll,
    .other .heartbeat]

/-- The same, but the heartbeat is due between the two pieces. -/
def cutFrameRun : List (SelectLoop.Event (SessionCmd Bytes) SessionArm) :=
  [.send (.deregister 1), .write, .deliver 1, .poll, .other .heartbeat, .deliver 6, .poll]

/-- A registration and its verdict, and a command before it; all in pieces. -/
def wholeVerdictRun : List (SelectLoop.Event ServerFrame ClientArm) :=
  [.other .register, .send (.command (.laneDrainAck 1 2 1)), .deliver 3, .poll, .deliver 7, .poll,
    .send (.verdict ⟨[0], by decide⟩), .deliver 1, .poll, .write, .deliver 2, .poll, .other .ask]

/-- A drain is answered, and a question of the client is answered between the tag and the rest. -/
def cutAnswerRun : List (SelectLoop.Event ServerFrame ClientArm) :=
  [.send (.command (.laneDrainAck 1 2 1)), .deliver 1, .poll, .other .ask, .deliver 9, .poll]

/-- The check of a step of the two whole runs. -/
def isUncut {M α A : Type} (s : SelectLoop.State M α A) : SelectLoop.Event α A → Bool
  | .other _ => s.got = []
  | _ => true

theorem uncut_of_isUncut {M α A : Type} (s : SelectLoop.State M α A) (e : SelectLoop.Event α A)
    (h : isUncut s e = true) : SelectLoop.Uncut s e := by
  cases e with
  | other x =>
    simp only [isUncut, decide_eq_true_eq] at h
    exact h
  | _ => trivial

theorem commands_read_whole :
    (∃ s, ((sessionLoop rawPostcard 30).lts.restrict SelectLoop.Uncut).Reach s ∧
      s.decoded = [.deregister 1] ∧ SelectLoop.ReadsInOrder s) ∧
    ∃ s, (clientLoop.lts.restrict SelectLoop.Uncut).Reach s ∧
      s.decoded = [.command (.laneDrainAck 1 2 1), .verdict ⟨[0], by decide⟩] ∧
      SelectLoop.ReadsInOrder s := by
  have hsession : (Lts.runWith (sessionLoop rawPostcard 30).step isUncut
      (sessionLoop rawPostcard 30).start wholeFrameRun).any
      (fun s => decide (s.decoded = [.deregister 1])) = true := by
    decide +kernel
  have hclient : (Lts.runWith clientLoop.step isUncut clientLoop.start wholeVerdictRun).any
      (fun s => decide
        (s.decoded = [.command (.laneDrainAck 1 2 1), .verdict ⟨[0], by decide⟩])) = true := by
    decide +kernel
  have hinOrder := commands_read_in_order rawPostcard_roundTrips 30
  constructor
  · obtain ⟨s, hs, hend⟩ := (Option.any_eq_true ..).mp hsession
    have hreach : ((sessionLoop rawPostcard 30).lts.restrict SelectLoop.Uncut).Reach s :=
      Lts.Reach.runWith (fun _ _ _ h => h) uncut_of_isUncut (Lts.Reach.init rfl) hs
    exact ⟨s, hreach, of_decide_eq_true hend, hinOrder.1 s hreach⟩
  · obtain ⟨s, hs, hend⟩ := (Option.any_eq_true ..).mp hclient
    have hreach : (clientLoop.lts.restrict SelectLoop.Uncut).Reach s :=
      Lts.Reach.runWith (fun _ _ _ h => h) uncut_of_isUncut (Lts.Reach.init rfl) hs
    exact ⟨s, hreach, of_decide_eq_true hend, hinOrder.2 s hreach⟩

/-- **An arm that is taken inside a frame loses it, and the session with it.**  The server takes
the rest of a frame for a length no command has; the client takes the rest of an answer for a
command of the old dialect. -/
theorem command_cut :
    (∃ s, (sessionLoop rawPostcard 30).lts.Reach s ∧ s.sent = [.deregister 1] ∧
      s.decoded = [] ∧ s.running = false ∧ ¬ SelectLoop.ReadsInOrder s) ∧
    ∃ s, clientLoop.lts.Reach s ∧ s.sent = [.command (.laneDrainAck 1 2 1)] ∧
      s.decoded = [.command .createDataChannel] ∧ s.running = false ∧
      ¬ SelectLoop.ReadsInOrder s := by
  have hsession : (Lts.runWith (sessionLoop rawPostcard 30).step (fun _ _ => true)
      (sessionLoop rawPostcard 30).start cutFrameRun).any
      (fun s => decide (s.sent = [.deregister 1] ∧ s.decoded = [] ∧ s.running = false)) =
      true := by
    decide +kernel
  have hclient : (Lts.runWith clientLoop.step (fun _ _ => true) clientLoop.start cutAnswerRun).any
      (fun s => decide (s.sent = [.command (.laneDrainAck 1 2 1)] ∧
        s.decoded = [.command .createDataChannel] ∧ s.running = false)) = true := by
    decide +kernel
  constructor
  · obtain ⟨s, hs, hend⟩ := (Option.any_eq_true ..).mp hsession
    have hreach : ((sessionLoop rawPostcard 30).lts.restrict fun _ _ => True).Reach s :=
      Lts.Reach.runWith (fun _ _ _ h => h) (fun _ _ _ => trivial) (Lts.Reach.init rfl) hs
    obtain ⟨hsent, hdec, hrun⟩ := of_decide_eq_true hend
    refine ⟨s, hreach.of_restrict, hsent, hdec, hrun, ?_⟩
    rintro ⟨hon, -⟩
    cases hrun.symm.trans hon
  · obtain ⟨s, hs, hend⟩ := (Option.any_eq_true ..).mp hclient
    have hreach : (clientLoop.lts.restrict fun _ _ => True).Reach s :=
      Lts.Reach.runWith (fun _ _ _ h => h) (fun _ _ _ => trivial) (Lts.Reach.init rfl) hs
    obtain ⟨hsent, hdec, hrun⟩ := of_decide_eq_true hend
    refine ⟨s, hreach.of_restrict, hsent, hdec, hrun, ?_⟩
    rintro ⟨hon, -⟩
    cases hrun.symm.trans hon

end Molehill.Session
