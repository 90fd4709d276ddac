/-
# Two programs that talk over a connection

A connection carries bytes both ways.  Each end runs a program that writes bytes, waits for
exactly so many, or looks at the next one; when an end is done it may hang up, and the other then
finds the end of the stream.  Bytes pass one at a time, so that any cut of a write and any chunk a
read obtains is some order of steps.

* `Commuting.settles`: where the steps of different agents commute, one run to a state at rest
  bounds every run and is where every run ends;
* `Dialogue.settles_of_leads`: so it is for the two ends, and the outcome of a conversation, with
  the bytes left unread, does not depend on who runs when or on how the bytes are cut;
* `Talk.Acts` and its rules: what one end does with the bytes it has, in one go;
* `Dialogue.right_went` with `Talk.Went` and its rules: what can be said of one end whatever the
  other does.

Nothing here is about any particular program.
-/
import Mathlib.Algebra.GroupWithZero.Nat
import Mathlib.Data.List.Basic
import Mathlib.Logic.Relation
import Molehill.Lib.Bytes
import Molehill.Lib.SelectLoop
import Molehill.Lib.Transition

universe u v

namespace Lib

/-! ## 1. Steps that commute -/

section Commuting

variable {σ : Type u} {ι : Type v}

/-- A run of so many steps. -/
inductive RunIn (step : σ → ι → Option σ) : Nat → σ → σ → Prop
  | nil (s : σ) : RunIn step 0 s s
  | cons {n : Nat} {s s1 s' : σ} {i : ι} :
      step s i = some s1 → RunIn step n s1 s' → RunIn step (n + 1) s s'

/-- No agent can step. -/
def Rests (step : σ → ι → Option σ) (s : σ) : Prop := ∀ i, step s i = none

/-- The steps of different agents commute. -/
def Commuting (step : σ → ι → Option σ) : Prop :=
  ∀ s i j a b, i ≠ j → step s i = some a → step s j = some b →
    ∃ c, step a j = some c ∧ step b i = some c

/-- Every run is at most so long, and comes to rest in that one state. -/
def SettlesIn (step : σ → ι → Option σ) (s r : σ) : Prop :=
  ∃ n, ∀ m t, RunIn step m s t → m ≤ n ∧ (∃ k, RunIn step k t r) ∧ (Rests step t → t = r)

variable {step : σ → ι → Option σ}

theorem RunIn.trans {n m : Nat} {s s1 s' : σ} (h : RunIn step n s s1) (h' : RunIn step m s1 s') :
    RunIn step (n + m) s s' := by
  induction h with
  | nil s =>
    rw [Nat.zero_add]
    exact h'
  | cons hs _ ih =>
    rw [Nat.succ_add]
    exact .cons hs (ih h')

/-- What rests goes nowhere. -/
theorem RunIn.eq_of_rests {n : Nat} {s s' : σ} (h : RunIn step n s s') (hr : Rests step s) :
    n = 0 ∧ s' = s := by
  cases h with
  | nil => exact ⟨rfl, rfl⟩
  | cons hs _ =>
    rw [hr] at hs
    cases hs

/-- A step that is possible now is taken somewhere on the way to rest, and can be taken first. -/
theorem RunIn.hoist (hc : Commuting step) {n : Nat} {s r b : σ} {j : ι} (h : RunIn step n s r)
    (hr : Rests step r) (hj : step s j = some b) : ∃ m, n = m + 1 ∧ RunIn step m b r := by
  classical
  induction h generalizing b with
  | nil s =>
    rw [hr] at hj
    cases hj
  | cons hi hrun ih =>
    rename_i m s a r' i
    by_cases hij : i = j
    · subst hij
      rw [hi] at hj
      cases hj
      exact ⟨m, rfl, hrun⟩
    · obtain ⟨c, haj, hbi⟩ := hc s i j a b hij hi hj
      obtain ⟨k, hk, hrest⟩ := ih hr haj
      exact ⟨m, rfl, hk ▸ .cons hbi hrest⟩

/-- Every run is a beginning of one that comes to that rest, and those are all equally long. -/
theorem RunIn.completes (hc : Commuting step) {n m : Nat} {s r t : σ} (h : RunIn step n s r)
    (hr : Rests step r) (ht : RunIn step m s t) : ∃ k, n = m + k ∧ RunIn step k t r := by
  induction ht generalizing n with
  | nil s => exact ⟨n, (Nat.zero_add n).symm, h⟩
  | cons hs _ ih =>
    obtain ⟨n', hn, h'⟩ := h.hoist hc hr hs
    obtain ⟨k, hk, hrest⟩ := ih h'
    exact ⟨k, by omega, hrest⟩

/-- **One run to rest decides them all.** -/
theorem Commuting.settles (hc : Commuting step) {n : Nat} {s r : σ} (h : RunIn step n s r)
    (hr : Rests step r) : SettlesIn step s r := by
  refine ⟨n, fun m t ht => ?_⟩
  obtain ⟨k, hk, hrest⟩ := h.completes hc hr ht
  exact ⟨by omega, ⟨k, hrest⟩, fun hrt => (hrest.eq_of_rests hrt).2.symm⟩

end Commuting

/-! ## 2. One end -/

/-- What an end still has to do: nothing (it has its result), to write, to wait for exactly `n`
bytes, or to look at the next byte; the last two have the result for a stream that ends first. -/
inductive Talk (α : Type u)
  | done (a : α)
  | write (bs : Bytes) (next : Talk α)
  | exact (n : Nat) (k : Bytes → Talk α) (eof : α)
  | peek (k : Byte → Talk α) (eof : α)

namespace Talk

variable {α : Type u} {β : Type v}

/-- A framed read, with the result for bytes it refuses. -/
def read (k : β → Talk α) (broken eof : α) : Reader β → Talk α
  | .done b => k b
  | .fail => .done broken
  | .exact n c => .exact n (fun bs => read k broken eof (c bs)) eof

/-- One step of an end: what it still has to do, the bytes it has not read, and what it wrote.
`ended` says that the other end has hung up. -/
def act : Talk α → Bytes → Bool → Option (Talk α × Bytes × Bytes)
  | .done _, _, _ => none
  | .write [] next, inbox, _ => some (next, inbox, [])
  | .write (b :: bs) next, inbox, _ => some (.write bs next, inbox, [b])
  | .exact 0 k _, inbox, _ => some (k [], inbox, [])
  | .exact (n + 1) k eof, b :: inbox, _ => some (.exact n (fun bs => k (b :: bs)) eof, inbox, [])
  | .exact (_ + 1) _ eof, [], ended => if ended then some (.done eof, [], []) else none
  | .peek k _, b :: inbox, _ => some (k b, b :: inbox, [])
  | .peek _ eof, [], ended => if ended then some (.done eof, [], []) else none

section Act

variable (k : Bytes → Talk α) (look : Byte → Talk α) (next : Talk α) (eof : α) (n : Nat) (b : Byte)
  (bs inbox : Bytes) (ended : Bool)

@[simp] theorem act_write_nil : (write [] next).act inbox ended = some (next, inbox, []) := rfl

@[simp] theorem act_write_cons :
    (write (b :: bs) next).act inbox ended = some (write bs next, inbox, [b]) := rfl

@[simp] theorem act_exact_zero : (exact 0 k eof).act inbox ended = some (k [], inbox, []) := rfl

@[simp] theorem act_exact_succ : (exact (n + 1) k eof).act (b :: inbox) ended =
    some (exact n (fun bs => k (b :: bs)) eof, inbox, []) := rfl

@[simp] theorem act_exact_eof :
    (exact (n + 1) k eof).act [] true = some (done eof, [], []) := rfl

@[simp] theorem act_peek : (peek look eof).act (b :: inbox) ended =
    some (look b, b :: inbox, []) := rfl

end Act

/-- While the other end has not hung up, more bytes change nothing about a step. -/
theorem act_append {t t' : Talk α} {inbox inbox' sent : Bytes}
    (h : t.act inbox false = some (t', inbox', sent)) (more : Bytes) (ended : Bool) :
    t.act (inbox ++ more) ended = some (t', inbox' ++ more, sent) := by
  cases t with
  | done a => cases h
  | write bs next =>
    cases bs with
    | nil =>
      cases h
      rfl
    | cons b bs =>
      cases h
      rfl
  | exact n k eof =>
    cases n with
    | zero =>
      cases h
      rfl
    | succ n =>
      cases inbox with
      | nil => cases h
      | cons b inbox =>
        cases h
        rfl
  | peek k eof =>
    cases inbox with
    | nil => cases h
    | cons b inbox =>
      cases h
      rfl

/-- An end acts alone: from one program and unread bytes to others, writing some bytes. -/
inductive Acts (ended : Bool) : Talk α → Bytes → Talk α → Bytes → Bytes → Prop
  | refl (t : Talk α) (inbox : Bytes) : Acts ended t inbox t inbox []
  | step {t t1 t' : Talk α} {inbox inbox1 inbox' sent sent' : Bytes} :
      t.act inbox ended = some (t1, inbox1, sent) → Acts ended t1 inbox1 t' inbox' sent' →
        Acts ended t inbox t' inbox' (sent ++ sent')

namespace Acts

variable {ended : Bool} {t t1 t' : Talk α} {inbox inbox1 inbox' sent sent' : Bytes}

/-- A step that writes nothing. -/
theorem quiet (hs : t.act inbox ended = some (t1, inbox1, []))
    (h : Acts ended t1 inbox1 t' inbox' sent) : Acts ended t inbox t' inbox' sent := .step hs h

theorem trans (h : Acts ended t inbox t1 inbox1 sent) (h' : Acts ended t1 inbox1 t' inbox' sent') :
    Acts ended t inbox t' inbox' (sent ++ sent') := by
  induction h with
  | refl t inbox => exact h'
  | step hs _ ih =>
    rw [List.append_assoc]
    exact .step hs (ih h')

/-- Reading alone writes nothing. -/
theorem silent (h : Acts ended t inbox t1 inbox1 []) (h' : Acts ended t1 inbox1 t' inbox' sent') :
    Acts ended t inbox t' inbox' sent' := h.trans h'

/-- A write goes out whole. -/
theorem write (bs : Bytes) (next : Talk α) (inbox : Bytes) :
    Acts ended (.write bs next) inbox next inbox bs := by
  induction bs with
  | nil => exact .step (act_write_nil next inbox ended) (.refl _ _)
  | cons b bs ih => exact .step (act_write_cons next b bs inbox ended) ih

/-- A read obtains its bytes, and leaves those behind them. -/
theorem exact {n : Nat} {buf : Bytes} (k : Bytes → Talk α) (eof : α) (rest : Bytes)
    (h : buf.length = n) : Acts ended (.exact n k eof) (buf ++ rest) (k buf) rest [] := by
  subst h
  induction buf generalizing k with
  | nil => exact .quiet (act_exact_zero k eof rest ended) (.refl _ _)
  | cons b buf ih => exact .quiet (act_exact_succ k eof _ b _ ended) (ih fun bs => k (b :: bs))

/-- A read that the other end has hung up on. -/
theorem exact_eof {n : Nat} (k : Bytes → Talk α) (eof : α) {buf : Bytes} (h : buf.length < n) :
    Acts true (.exact n k eof) buf (.done eof) [] [] := by
  obtain ⟨m, rfl⟩ := Nat.exists_eq_succ_of_ne_zero (Nat.ne_of_gt (Nat.zero_lt_of_lt h))
  induction buf generalizing m k with
  | nil => exact .quiet (act_exact_eof k eof m) (.refl _ _)
  | cons b buf ih =>
    obtain ⟨l, rfl⟩ := Nat.exists_eq_succ_of_ne_zero
      (Nat.ne_of_gt (Nat.zero_lt_of_lt (Nat.lt_of_succ_lt_succ h)))
    exact .quiet (act_exact_succ k eof _ b _ true) (ih _ l (Nat.lt_of_succ_lt_succ h))

/-- The next byte is looked at and stays. -/
theorem peek (k : Byte → Talk α) (eof : α) (b : Byte) (rest : Bytes) :
    Acts ended (.peek k eof) (b :: rest) (k b) (b :: rest) [] :=
  .quiet (act_peek k eof b rest ended) (.refl _ _)

/-- **A framed read comes to what its reader makes of the bytes.** -/
theorem read (k : β → Talk α) (broken eof : α) {r : Reader β} {bs rest : Bytes} {b : β}
    (h : r.poll bs = (.done b, rest)) :
    Acts ended (Talk.read k broken eof r) bs (k b) rest [] := by
  induction r generalizing bs with
  | done a =>
    cases h
    exact .refl _ _
  | fail => cases h
  | exact n c ih =>
    obtain ⟨buf, tail, rfl, hlen, hpoll⟩ := Reader.poll_exact_done h
    exact (exact _ eof tail hlen).silent (ih buf hpoll)

end Acts

/-- What is left of a program that has heard these bytes and written those, whether or not it met
the end of the stream. -/
inductive Went : Talk α → Bytes → Bytes → Talk α → Prop
  | refl (t : Talk α) : Went t [] [] t
  | step {t t1 t' : Talk α} {inbox inbox1 heard heard' sent sent' : Bytes} {ended : Bool} :
      t.act inbox ended = some (t1, inbox1, sent) → inbox = heard ++ inbox1 →
        Went t1 heard' sent' t' → Went t (heard ++ heard') (sent ++ sent') t'

namespace Went

variable {t t1 t' : Talk α} {heard heard' sent sent' : Bytes}

theorem trans (h : Went t heard sent t1) (h' : Went t1 heard' sent' t') :
    Went t (heard ++ heard') (sent ++ sent') t' := by
  induction h with
  | refl t => exact h'
  | step hs hin _ ih =>
    rw [List.append_assoc, List.append_assoc]
    exact .step hs hin (ih h')

/-- A step takes bytes off the front. -/
theorem single {inbox inbox' : Bytes} {ended : Bool}
    (h : t.act inbox ended = some (t', inbox', sent)) :
    ∃ heard, inbox = heard ++ inbox' ∧ Went t heard sent t' := by
  have hfront : ∃ heard, inbox = heard ++ inbox' := by
    cases t with
    | done a => cases h
    | write bs next =>
      cases bs with
      | nil =>
        cases h
        exact ⟨[], rfl⟩
      | cons b bs =>
        cases h
        exact ⟨[], rfl⟩
    | exact n k eof =>
      cases n with
      | zero =>
        cases h
        exact ⟨[], rfl⟩
      | succ n =>
        cases inbox with
        | nil =>
          cases ended with
          | false => cases h
          | true =>
            cases h
            exact ⟨[], rfl⟩
        | cons b inbox =>
          cases h
          exact ⟨[b], rfl⟩
    | peek k eof =>
      cases inbox with
      | nil =>
        cases ended with
        | false => cases h
        | true =>
          cases h
          exact ⟨[], rfl⟩
      | cons b inbox =>
        cases h
        exact ⟨[], rfl⟩
  obtain ⟨heard, hin⟩ := hfront
  have hone := step h hin (refl t')
  rw [List.append_nil, List.append_nil] at hone
  exact ⟨heard, hin, hone⟩

/-- An end that is done goes nowhere. -/
theorem of_done {a : α} (h : Went (.done a) heard sent t') : sent = [] ∧ t' = .done a := by
  cases h with
  | refl => exact ⟨rfl, rfl⟩
  | step hs _ _ => cases hs

/-- A write is still under way, or it went out whole. -/
theorem of_write {bs : Bytes} {next : Talk α} (h : Went (.write bs next) heard sent t') :
    (∀ a, t' ≠ .done a) ∨ ∃ sent', sent = bs ++ sent' ∧ Went next heard sent' t' := by
  induction bs generalizing heard sent with
  | nil =>
    cases h with
    | refl => exact Or.inl fun a ha => by cases ha
    | step hs hin h =>
      cases hs
      obtain rfl := List.append_left_eq_self.mp hin.symm
      exact Or.inr ⟨_, rfl, h⟩
  | cons b bs ih =>
    cases h with
    | refl => exact Or.inl fun a ha => by cases ha
    | step hs hin h =>
      cases hs
      obtain rfl := List.append_left_eq_self.mp hin.symm
      obtain hne | ⟨sent', rfl, hgo⟩ := ih h
      · exact Or.inl hne
      · exact Or.inr ⟨sent', rfl, hgo⟩

/-- A read has its bytes, or the end has written nothing and has no result but the one for the end
of the stream. -/
theorem of_exact {n : Nat} {k : Bytes → Talk α} {eof : α}
    (h : Went (.exact n k eof) heard sent t') :
    (sent = [] ∧ ∀ a, t' = .done a → a = eof) ∨
      ∃ buf heard', heard = buf ++ heard' ∧ buf.length = n ∧ Went (k buf) heard' sent t' := by
  induction n generalizing heard sent k with
  | zero =>
    cases h with
    | refl => exact Or.inl ⟨rfl, fun a ha => by cases ha⟩
    | step hs hin h =>
      cases hs
      obtain rfl := List.append_left_eq_self.mp hin.symm
      exact Or.inr ⟨[], _, rfl, rfl, h⟩
  | succ n ih =>
    cases h with
    | refl => exact Or.inl ⟨rfl, fun a ha => by cases ha⟩
    | @step _ _ _ inbox inbox1 front _ _ _ ended hs hin h =>
      cases inbox with
      | nil =>
        cases ended with
        | false => cases hs
        | true =>
          cases hs
          obtain ⟨hsent, rfl⟩ := h.of_done
          refine Or.inl ⟨hsent, fun a ha => ?_⟩
          cases ha
          rfl
      | cons b inbox =>
        cases hs
        have hfront : front = [b] := List.append_cancel_right (hin.symm.trans rfl)
        subst hfront
        obtain hnone | ⟨buf, heard', rfl, hlen, hgo⟩ := ih h
        · exact Or.inl hnone
        · exact Or.inr ⟨b :: buf, heard', rfl, congrArg Nat.succ hlen, hgo⟩

end Went

end Talk

/-! ## 3. Two ends -/

inductive Side
  | left
  | right
  deriving DecidableEq

/-- Two ends with the bytes each has not read yet, and all that each has written. -/
structure Dialogue (α : Type u) (β : Type v) where
  left : Talk α
  right : Talk β
  toLeft : Bytes
  toRight : Bytes
  leftSaid : Bytes
  rightSaid : Bytes

namespace Dialogue

variable {α : Type u} {β : Type v}

/-- The end has its result, and drops the connection with it. -/
def hungUp (closes : α → Bool) : Talk α → Bool
  | .done a => closes a
  | _ => false

variable (closesLeft : α → Bool) (closesRight : β → Bool)

/-- One end acts, and what it writes waits for the other. -/
def step (s : Dialogue α β) : Side → Option (Dialogue α β)
  | .left =>
    (s.left.act s.toLeft (hungUp closesRight s.right)).map fun r =>
      { s with
        left := r.1, toLeft := r.2.1, toRight := s.toRight ++ r.2.2,
        leftSaid := s.leftSaid ++ r.2.2 }
  | .right =>
    (s.right.act s.toRight (hungUp closesLeft s.left)).map fun r =>
      { s with
        right := r.1, toRight := r.2.1, toLeft := s.toLeft ++ r.2.2,
        rightSaid := s.rightSaid ++ r.2.2 }

/-- Two programs on a fresh connection. -/
def start (p : Talk α) (q : Talk β) : Dialogue α β := ⟨p, q, [], [], [], []⟩

/-- The conversations of two programs. -/
def lts (p : Talk α) (q : Talk β) : Lts (Dialogue α β) Side where
  init s := s = start p q
  step s e s' := step closesLeft closesRight s e = some s'

variable {closesLeft : α → Bool} {closesRight : β → Bool}

/-- An end that can act has not hung up. -/
theorem hungUp_of_act {closes : α → Bool} {t : Talk α} {inbox : Bytes} {ended : Bool}
    {r : Talk α × Bytes × Bytes} (h : t.act inbox ended = some r) : hungUp closes t = false := by
  cases t with
  | done a => cases h
  | write bs next => rfl
  | exact n k eof => rfl
  | peek k eof => rfl

/-- What two ends do at once, each does after the other. -/
theorem both_steps {s a b : Dialogue α β} (ha : step closesLeft closesRight s .left = some a)
    (hb : step closesLeft closesRight s .right = some b) :
    ∃ c, step closesLeft closesRight a .right = some c ∧
      step closesLeft closesRight b .left = some c := by
  obtain ⟨⟨l, inl, sentl⟩, hl, rfl⟩ := Option.map_eq_some_iff.mp ha
  obtain ⟨⟨r, inr, sentr⟩, hr, rfl⟩ := Option.map_eq_some_iff.mp hb
  have hl' := hl
  have hr' := hr
  rw [hungUp_of_act hr] at hl'
  rw [hungUp_of_act hl] at hr'
  refine ⟨⟨l, r, inl ++ sentr, inr ++ sentl, s.leftSaid ++ sentl, s.rightSaid ++ sentr⟩, ?_, ?_⟩
  · exact Option.map_eq_some_iff.mpr ⟨_, Talk.act_append hr' sentl _, rfl⟩
  · exact Option.map_eq_some_iff.mpr ⟨_, Talk.act_append hl' sentr _, rfl⟩

/-- **The two ends commute**: what one writes only adds to what the other has not read. -/
theorem step_commuting : Commuting (step closesLeft closesRight) := by
  intro s i j a b hij hi hj
  cases i with
  | left =>
    cases j with
    | left => exact absurd rfl hij
    | right => exact both_steps hi hj
  | right =>
    cases j with
    | left =>
      obtain ⟨c, hb, ha⟩ := both_steps hj hi
      exact ⟨c, ha, hb⟩
    | right => exact absurd rfl hij

/-- Some run leads from one state to the other. -/
def Leads (closesLeft : α → Bool) (closesRight : β → Bool) (s s' : Dialogue α β) : Prop :=
  ∃ n, RunIn (step closesLeft closesRight) n s s'

namespace Leads

theorem refl (s : Dialogue α β) : Leads closesLeft closesRight s s := ⟨0, .nil s⟩

theorem trans {s s1 s' : Dialogue α β} (h : Leads closesLeft closesRight s s1)
    (h' : Leads closesLeft closesRight s1 s') : Leads closesLeft closesRight s s' := by
  obtain ⟨n, hn⟩ := h
  obtain ⟨m, hm⟩ := h'
  exact ⟨n + m, hn.trans hm⟩

variable {p p' : Talk α} {q q' : Talk β} {toLeft toRight leftSaid rightSaid inbox sent : Bytes}
  {ended : Bool}

/-- The left end acts alone. -/
theorem left (h : Talk.Acts ended p toLeft p' inbox sent) (ho : hungUp closesRight q = ended) :
    Leads closesLeft closesRight ⟨p, q, toLeft, toRight, leftSaid, rightSaid⟩
      ⟨p', q, inbox, toRight ++ sent, leftSaid ++ sent, rightSaid⟩ := by
  subst ho
  induction h generalizing toRight leftSaid with
  | refl t inbox =>
    rw [List.append_nil, List.append_nil]
    exact refl _
  | step hs _ ih =>
    rw [← List.append_assoc, ← List.append_assoc]
    obtain ⟨n, hn⟩ := ih
    exact ⟨n + 1, .cons (i := .left) (Option.map_eq_some_iff.mpr ⟨_, hs, rfl⟩) hn⟩

/-- The right end acts alone. -/
theorem right (h : Talk.Acts ended q toRight q' inbox sent) (ho : hungUp closesLeft p = ended) :
    Leads closesLeft closesRight ⟨p, q, toLeft, toRight, leftSaid, rightSaid⟩
      ⟨p, q', toLeft ++ sent, inbox, leftSaid, rightSaid ++ sent⟩ := by
  subst ho
  induction h generalizing toLeft rightSaid with
  | refl t inbox =>
    rw [List.append_nil, List.append_nil]
    exact refl _
  | step hs _ ih =>
    rw [← List.append_assoc, ← List.append_assoc]
    obtain ⟨n, hn⟩ := ih
    exact ⟨n + 1, .cons (i := .right) (Option.map_eq_some_iff.mpr ⟨_, hs, rfl⟩) hn⟩

/-- The left end only reads. -/
theorem left_reads (h : Talk.Acts ended p toLeft p' inbox []) (ho : hungUp closesRight q = ended) :
    Leads closesLeft closesRight ⟨p, q, toLeft, toRight, leftSaid, rightSaid⟩
      ⟨p', q, inbox, toRight, leftSaid, rightSaid⟩ := by
  have hgo : Leads closesLeft closesRight ⟨p, q, toLeft, toRight, leftSaid, rightSaid⟩
      ⟨p', q, inbox, toRight ++ [], leftSaid ++ [], rightSaid⟩ := left h ho
  rwa [List.append_nil, List.append_nil] at hgo

/-- The right end only reads. -/
theorem right_reads (h : Talk.Acts ended q toRight q' inbox []) (ho : hungUp closesLeft p = ended) :
    Leads closesLeft closesRight ⟨p, q, toLeft, toRight, leftSaid, rightSaid⟩
      ⟨p, q', toLeft, inbox, leftSaid, rightSaid⟩ := by
  have hgo : Leads closesLeft closesRight ⟨p, q, toLeft, toRight, leftSaid, rightSaid⟩
      ⟨p, q', toLeft ++ [], inbox, leftSaid, rightSaid ++ []⟩ := right h ho
  rwa [List.append_nil, List.append_nil] at hgo

end Leads

/-- The conversation is over when both ends have their results. -/
theorem rests_done {s : Dialogue α β} {a : α} {b : β} (hl : s.left = .done a)
    (hr : s.right = .done b) : Rests (step closesLeft closesRight) s := by
  intro i
  cases i with
  | left =>
    rw [step, hl]
    rfl
  | right =>
    rw [step, hr]
    rfl

/-- **What an end knows**: it has heard the front of what the other has written, and is where its
program gets on that. -/
theorem right_went {p : Talk α} {q : Talk β} {s : Dialogue α β}
    (h : (lts closesLeft closesRight p q).Reach s) :
    ∃ heard, s.leftSaid = heard ++ s.toRight ∧ Talk.Went q heard s.rightSaid s.right := by
  refine h.invariant (P := fun s => ∃ heard, s.leftSaid = heard ++ s.toRight ∧
    Talk.Went q heard s.rightSaid s.right) ?_ ?_
  · rintro s rfl
    exact ⟨[], rfl, .refl q⟩
  · rintro s e s' ⟨heard, hheard, hwent⟩ hs
    cases e with
    | left =>
      obtain ⟨r, -, rfl⟩ := Option.map_eq_some_iff.mp hs
      refine ⟨heard, ?_, hwent⟩
      dsimp only
      rw [hheard, List.append_assoc]
    | right =>
      obtain ⟨⟨t, inbox, sent⟩, hact, rfl⟩ := Option.map_eq_some_iff.mp hs
      obtain ⟨front, hin, hgo⟩ := Talk.Went.single hact
      refine ⟨heard ++ front, ?_, hwent.trans hgo⟩
      dsimp only
      rw [hheard, hin, List.append_assoc]

/-- **The outcome of a conversation does not depend on the order of its steps.** -/
theorem settles_of_leads {s r : Dialogue α β} {a : α} {b : β}
    (h : Leads closesLeft closesRight s r) (hl : r.left = .done a) (hr : r.right = .done b) :
    SettlesIn (step closesLeft closesRight) s r := by
  obtain ⟨n, hn⟩ := h
  exact step_commuting.settles hn (rests_done hl hr)

end Dialogue

end Lib
