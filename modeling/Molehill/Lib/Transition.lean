/-
# Labelled transition systems and their invariants

The components of a networked program are modelled as labelled transition systems: a
predicate on the states it may start in, and a relation that says which labelled step leads
from which state to which.  This module has the rules every later safety proof uses:

* `Lts.Reach.invariant`: what holds initially and is preserved by every step holds in every
  reachable state;
* `Lts.restrict` and `Lts.Reach.of_restrict`: the runs all of whose steps meet a side
  condition are the runs of a restricted system, and they are runs of the original one;
* `Lts.startingAt`: the runs that go on from a given state;
* `Lts.Reach.simulation`: a system whose steps another one can answer, keeping a relation, stays
  related to a reachable state of it;
* `Lts.runWith` and `Lts.Reach.runWith`: a list of labels that computes to a state is a run;
  `Lts.Reach.exists_run` and `Lts.Reach.exists_runWith` read the state it ends in;
* `Lts.runWith_length`: a run whose steps all lower a measure is no longer than the measure, and
  `Lts.exists_runWith_rest`: such steps come to rest.

Nothing here is about any particular program.
-/
import Mathlib.Algebra.GroupWithZero.Nat
import Mathlib.Logic.Basic

universe u v

namespace Lib

/-- A labelled transition system over states `σ` and labels `α`. -/
structure Lts (σ : Type u) (α : Type v) where
  /-- The states a run may start in. -/
  init : σ → Prop
  /-- `step s a s'`: the label `a` may lead from `s` to `s'`. -/
  step : σ → α → σ → Prop

namespace Lts

variable {σ : Type u} {α : Type v} {T : Lts σ α}

/-- The states some finite run ends in. -/
inductive Reach (T : Lts σ α) : σ → Prop
  | init {s : σ} : T.init s → Reach T s
  | step {s s' : σ} {a : α} : Reach T s → T.step s a s' → Reach T s'

/-- **The invariant rule.**  What every initial state has and every step preserves, every
reachable state has. -/
theorem Reach.invariant {P : σ → Prop} (h0 : ∀ s, T.init s → P s)
    (hstep : ∀ s a s', P s → T.step s a s' → P s') {s : σ} (h : Reach T s) : P s := by
  induction h with
  | init hi => exact h0 _ hi
  | step _ hs ih => exact hstep _ _ _ ih hs

/-- The runs all of whose steps meet `C`, as a system of its own: `C s a` is asked of the
state before the step and of the step's label. -/
def restrict (T : Lts σ α) (C : σ → α → Prop) : Lts σ α where
  init := T.init
  step s a s' := C s a ∧ T.step s a s'

/-- A run that meets a side condition is a run. -/
theorem Reach.of_restrict {C : σ → α → Prop} {s : σ} (h : Reach (T.restrict C) s) :
    Reach T s := by
  induction h with
  | init hi => exact Reach.init hi
  | step _ hs ih => exact Reach.step ih hs.2

/-- The system as it goes on from one state. -/
def startingAt (T : Lts σ α) (s : σ) : Lts σ α where
  init := (· = s)
  step := T.step

/-- **The simulation rule.**  Where `U` answers every step of `T` (by any number of its own) and
keeps `R`, every reachable state of `T` is related to a reachable state of `U`. -/
theorem Reach.simulation {τ : Type*} {β : Type*} {U : Lts τ β} {R : σ → τ → Prop}
    (h0 : ∀ s, T.init s → ∃ t, U.Reach t ∧ R s t)
    (hstep : ∀ s a s' t, U.Reach t → R s t → T.step s a s' → ∃ t', U.Reach t' ∧ R s' t')
    {s : σ} (h : Reach T s) : ∃ t, U.Reach t ∧ R s t := by
  refine h.invariant h0 ?_
  rintro s a s' ⟨t, ht, hr⟩ hs
  exact hstep s a s' t ht hr hs

/-! ## Executable runs

Where a system's step relation is a partial function, a list of labels is a run that can be
computed; `ok` is the side condition to check on the way. -/

/-- The state after the labels, if every one of them is enabled and passes the check. -/
def runWith (step : σ → α → Option σ) (ok : σ → α → Bool) : σ → List α → Option σ
  | s, [] => some s
  | s, a :: rest => if ok s a then (step s a).bind (runWith step ok · rest) else none

/-- A computed run is a run of the system. -/
theorem Reach.runWith {C : σ → α → Prop} {step : σ → α → Option σ} {ok : σ → α → Bool}
    (hstep : ∀ s a s', step s a = some s' → T.step s a s')
    (hok : ∀ s a, ok s a = true → C s a) {s s' : σ} {labels : List α}
    (h : Reach (T.restrict C) s) (hr : Lts.runWith step ok s labels = some s') :
    Reach (T.restrict C) s' := by
  induction labels generalizing s with
  | nil =>
    cases hr
    exact h
  | cons a rest ih =>
    rw [Lts.runWith] at hr
    split at hr
    case isTrue ha =>
      obtain ⟨s1, h1, hr⟩ := Option.bind_eq_some_iff.mp hr
      exact ih (h.step ⟨hok s a ha, hstep s a s1 h1⟩) hr
    case isFalse => cases hr

/-- A run that computes to a state with `P` reaches a state with `P`, with every step checked. -/
theorem Reach.exists_runWith {C : σ → α → Prop} {step : σ → α → Option σ} {ok : σ → α → Bool}
    {P : σ → Bool} (hstep : ∀ s a s', step s a = some s' → T.step s a s')
    (hok : ∀ s a, ok s a = true → C s a) {s : σ} (h : T.init s) {labels : List α}
    (hr : (Lts.runWith step ok s labels).any P = true) :
    ∃ s', Reach (T.restrict C) s' ∧ P s' = true := by
  obtain ⟨s', hs', hp⟩ := (Option.any_eq_true ..).mp hr
  exact ⟨s', Reach.runWith hstep hok (Reach.init h) hs', hp⟩

/-- **The measure rule.**  A computed run all of whose steps keep `I` and lower the measure `μ` is
no longer than the measure it starts with. -/
theorem runWith_length {step : σ → α → Option σ} {ok : σ → α → Bool} {I : σ → Prop} {μ : σ → Nat}
    (hstep : ∀ s a s', I s → ok s a = true → step s a = some s' → I s' ∧ μ s' < μ s)
    {s s' : σ} {labels : List α} (hi : I s) (hr : Lts.runWith step ok s labels = some s') :
    I s' ∧ labels.length + μ s' ≤ μ s := by
  induction labels generalizing s with
  | nil =>
    cases hr
    exact ⟨hi, Nat.le_of_eq (Nat.zero_add _)⟩
  | cons a rest ih =>
    rw [Lts.runWith] at hr
    split at hr
    case isTrue ha =>
      obtain ⟨s1, h1, hr⟩ := Option.bind_eq_some_iff.mp hr
      obtain ⟨hi1, hlt⟩ := hstep s a s1 hi ha h1
      obtain ⟨hi', hle⟩ := ih hi1 hr
      refine ⟨hi', ?_⟩
      rw [List.length_cons]
      omega
    case isFalse => cases hr

/-- **The rest rule.**  Where steps lower a measure, some run comes to a state that enables
none. -/
theorem exists_runWith_rest {step : σ → α → Option σ} {ok : σ → α → Bool} {I : σ → Prop}
    {μ : σ → Nat}
    (hstep : ∀ s a s', I s → ok s a = true → step s a = some s' → I s' ∧ μ s' < μ s)
    (s : σ) (hi : I s) :
    ∃ labels s', Lts.runWith step ok s labels = some s' ∧ ∀ a, ok s' a = true → step s' a = none := by
  by_cases hrest : ∀ a, ok s a = true → step s a = none
  · exact ⟨[], s, rfl, hrest⟩
  · obtain ⟨a, ha⟩ := not_forall.mp hrest
    obtain ⟨hok, hne⟩ := Classical.not_imp.mp ha
    obtain ⟨s1, h1⟩ := Option.ne_none_iff_exists'.mp hne
    obtain ⟨hi1, hlt⟩ := hstep s a s1 hi hok h1
    obtain ⟨labels, s', hr, hrest'⟩ := exists_runWith_rest hstep s1 hi1
    refine ⟨a :: labels, s', ?_, hrest'⟩
    rw [Lts.runWith, if_pos hok, h1]
    exact hr
termination_by μ s

/-- A run that computes to a state with `P` reaches a state with `P`. -/
theorem Reach.exists_run {step : σ → α → Option σ} {P : σ → Bool}
    (hstep : ∀ s a s', step s a = some s' → T.step s a s') {s : σ} (h : T.init s)
    {labels : List α} (hr : (Lts.runWith step (fun _ _ => true) s labels).any P = true) :
    ∃ s', Reach T s' ∧ P s' = true := by
  obtain ⟨s', hs', hp⟩ :=
    Reach.exists_runWith (C := fun _ _ => True) hstep (fun _ _ _ => trivial) h hr
  exact ⟨s', hs'.of_restrict, hp⟩

end Lts

end Lib
