/-
# Programs over mutexes

Tasks that run straight-line code over shared mutexes, with choices and with branches on shared
data, interleaved in any order.  A mutex is not reentrant: whoever asks for one that is held,
itself included, waits.

`Machine.Stuck` is a cycle of the waits-for relation: a task that waits for itself, or tasks that
wait for each other in a circle.  `not_stuck_of_rank` is the rule of lock ordering, stated for one
state: if every task asks only for a mutex that ranks above all it holds, nobody is stuck.
Programs nothing is known about may be ranked differently in different states.
-/
import Mathlib.Algebra.GroupWithZero.Nat
import Mathlib.Logic.Function.Basic
import Mathlib.Logic.Relation

namespace Lib

open Function

/-- The code of a task over mutexes `L` and shared data `D`.  The branches on shared data carry
the name of the place they stand at. -/
inductive Prog (L D S : Type)
  | done
  | lock (l : L) (rest : Prog L D S)
  | unlock (l : L) (rest : Prog L D S)
  | choose (rest : Bool → Prog L D S)
  | read (site : S) (rest : D → Prog L D S)
  | write (f : D → D) (rest : Prog L D S)

namespace Prog

variable {L D S : Type}

/-- The mutex the code asks for next. -/
def wants : Prog L D S → Option L
  | .lock l _ => some l
  | _ => none

/-- A section that holds one mutex and asks for nothing in it. -/
def briefly (l : L) (rest : Prog L D S) : Prog L D S := .lock l (.unlock l rest)

end Prog

/-- Who holds each mutex, the shared data, and what every task has left to run. -/
structure Machine (ι L D S : Type) where
  owner : L → Option ι
  data : D
  prog : ι → Prog L D S

namespace Machine

variable {ι L D S : Type} [DecidableEq ι] [DecidableEq L]

/-- One step of task `i`; `b` is the outcome of a choice.  A task that asks for a held mutex has
no step. -/
def step (m : Machine ι L D S) (i : ι) (b : Bool) : Option (Machine ι L D S) :=
  match m.prog i with
  | .done => none
  | .lock l rest =>
    match m.owner l with
    | none => some { m with owner := update m.owner l (some i), prog := update m.prog i rest }
    | some _ => none
  | .unlock l rest =>
    some { m with owner := update m.owner l none, prog := update m.prog i rest }
  | .choose rest => some { m with prog := update m.prog i (rest b) }
  | .read _ rest => some { m with prog := update m.prog i (rest m.data) }
  | .write f rest => some { m with data := f m.data, prog := update m.prog i rest }

/-- Task `i` asks for a mutex that `j` holds. -/
def WaitsFor (m : Machine ι L D S) (i j : ι) : Prop :=
  ∃ l, (m.prog i).wants = some l ∧ m.owner l = some j

/-- A task waits for itself, at once or around a circle. -/
def Stuck (m : Machine ι L D S) : Prop := ∃ i, Relation.TransGen m.WaitsFor i i

omit [DecidableEq ι] [DecidableEq L] in
/-- **The rule of lock ordering.**  Where every task asks only for a mutex that ranks above those
it holds, nobody is stuck. -/
theorem not_stuck_of_rank {m : Machine ι L D S} (rank : L → Nat)
    (h : ∀ i l l', (m.prog i).wants = some l → m.owner l' = some i → rank l' < rank l) :
    ¬ m.Stuck := by
  rintro ⟨i, hi⟩
  -- along a chain of waits the rank does not go down
  have hchain : ∀ j, Relation.TransGen m.WaitsFor i j →
      ∃ l₀ l₁, (m.prog i).wants = some l₀ ∧ m.owner l₁ = some j ∧ rank l₀ ≤ rank l₁ := by
    intro j hj
    induction hj with
    | single hw =>
      obtain ⟨l, hl, ho⟩ := hw
      exact ⟨l, l, hl, ho, Nat.le_refl _⟩
    | tail _ hw ih =>
      obtain ⟨l₀, l₁, hl₀, hl₁, hle⟩ := ih
      obtain ⟨l, hl, ho⟩ := hw
      have hlt := h _ l l₁ hl hl₁
      exact ⟨l₀, l, hl₀, ho, by omega⟩
  obtain ⟨l₀, l₁, hl₀, hl₁, hle⟩ := hchain i hi
  have hlt := h i l₀ l₁ hl₀ hl₁
  omega

end Machine

end Lib
