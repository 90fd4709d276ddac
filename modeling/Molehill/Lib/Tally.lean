/-
# Tallies

A table whose values carry an optional label (the place a thing is at, or none) has a tally: how
many of its values carry a given label.  A program that keeps such counts beside the table moves
them by one up and one down whenever a value changes.  This module has the algebra of those moves:

* `total_insert` and `total_erase`: what writing or removing one entry does to the sum of a weight
  over the values, `tally_insert` and `tally_erase` for the tally, and `length_insert_of_mem` and
  the lemmas after it for the length;
* `shift_eq_iff`: two moves "down at one label, up at another" do the same to a count exactly
  when they name the same two labels, or when neither moves anything;
* `countP_set_add`: what changing one entry of a list does to a count over it;
* `sum_countP_le_length`: things counted under distinct keys, each under its own key only, are no
  more than there are; `length_le_sum_countP`: and no fewer, if each has a key.

Nothing here is about any particular program.
-/
import Mathlib.Data.List.AList
import Mathlib.Tactic.Ring
import Molehill.Lib.Table

universe u v w

namespace Lib

variable {κ : Type u} {α : Type v} {β : Type w} [DecidableEq κ] [DecidableEq β]

/-- One at the label, nothing elsewhere. -/
def unit (o : Option β) (b : β) : ℤ := if o = some b then 1 else 0

@[simp] theorem unit_none (b : β) : unit none b = 0 := by simp [unit]

theorem unit_nonneg (o : Option β) (b : β) : 0 ≤ unit o b := by
  rw [unit]
  split <;> omega

/-- Two labels that count the same everywhere are the same label. -/
theorem unit_injective {x y : Option β} (h : ∀ b, unit x b = unit y b) : x = y := by
  rcases x with _ | a
  · rcases y with _ | c
    · rfl
    · have := h c
      simp [unit] at this
  · have ha := h a
    by_cases hy : y = some a
    · exact hy.symm
    · simp [unit, hy] at ha

/-- A move that changes some count goes down at one label only. -/
theorem shift_source {a c x y : Option β} (hac : a ≠ c)
    (h : ∀ b, unit c b - unit a b = unit y b - unit x b) : x = a := by
  rcases a with _ | a
  · rcases x with _ | x
    · rfl
    · have hx := h x
      have hc := unit_nonneg c x
      by_cases hy : y = some x
      · subst hy
        have hnone : c = none := unit_injective fun b => by
          have := h b
          simp only [unit_none] at this ⊢
          omega
        exact absurd hnone.symm hac
      · simp only [unit, hy, if_true, if_false] at hx hc
        split at hx <;> simp_all
  · have hx := h a
    have hy := unit_nonneg y a
    have hca : c ≠ some a := fun hca => hac hca.symm
    by_contra hxa
    simp only [unit, hca, if_true, if_false, hxa] at hx hy
    omega

/-- **When two moves agree.**  Moving a count from `a` to `c` does the same as moving it from `x`
to `y` only if they name the same labels, or if both leave every count as it is. -/
theorem shift_eq_iff {a c x y : Option β} :
    (∀ b, unit c b - unit a b = unit y b - unit x b) ↔ (x = a ∧ y = c) ∨ (x = y ∧ a = c) := by
  constructor
  · intro h
    by_cases hac : a = c
    · subst hac
      refine .inr ⟨unit_injective fun b => ?_, rfl⟩
      have := h b
      omega
    · refine .inl ⟨shift_source hac h, shift_source (y := x) (Ne.symm hac) fun b => ?_⟩
      have := h b
      omega
  · rintro (⟨rfl, rfl⟩ | ⟨rfl, rfl⟩) b
    · rfl
    · ring

/-- One entry changes: a count gains the new entry and loses the old one. -/
theorem countP_set_add {p : α → Bool} {xs : List α} {i : Nat} {x : α} (hx : xs[i]? = some x)
    (y : α) : (xs.set i y).countP p + (p x).toNat = xs.countP p + (p y).toNat := by
  obtain ⟨hi, he⟩ := List.getElem?_eq_some_iff.mp hx
  have hbool : ∀ b : Bool, (if b = true then 1 else 0) = b.toNat := by decide
  have hle : (if p xs[i] then 1 else 0) ≤ xs.countP p := List.boole_getElem_le_countP hi
  have hset := List.countP_set (p := p) (a := y) hi
  rw [he, hbool] at hle
  rw [he, hbool, hbool] at hset
  omega

omit [DecidableEq κ] in
/-- One more thing is counted under the keys it belongs to. -/
theorem sum_countP_cons (p : κ → α → Bool) (x : α) (xs : List α) (keys : List κ) :
    (keys.map fun k => (x :: xs).countP (p k)).sum =
      (keys.map fun k => xs.countP (p k)).sum + keys.countP fun k => p k x := by
  induction keys with
  | nil => rfl
  | cons k keys ih =>
    simp only [List.countP_cons] at ih
    simp only [List.map_cons, List.sum_cons, List.countP_cons, ih]
    omega

omit [DecidableEq κ] in
/-- Things that are each counted under some key are no more than the counts add up to. -/
theorem length_le_sum_countP {p : κ → α → Bool} {keys : List κ} {xs : List α}
    (h : ∀ x ∈ xs, ∃ k ∈ keys, p k x = true) :
    xs.length ≤ (keys.map fun k => xs.countP (p k)).sum := by
  induction xs with
  | nil => exact Nat.zero_le _
  | cons x xs ih =>
    have hpos : 0 < keys.countP fun k => p k x :=
      List.countP_pos_iff.mpr (h x List.mem_cons_self)
    have hrest := ih fun y hy => h y (List.mem_cons_of_mem _ hy)
    rw [sum_countP_cons, List.length_cons]
    omega

/-- A thing is counted under one key at most, so the counts under distinct keys add up to no more
than there are things. -/
theorem sum_countP_le_length (keyOf : α → κ) {p : κ → α → Bool}
    (hp : ∀ k x, p k x = true → keyOf x = k) {keys : List κ} (hkeys : keys.Nodup) (xs : List α) :
    (keys.map fun k => xs.countP (p k)).sum ≤ xs.length := by
  induction xs with
  | nil => simp
  | cons x xs ih =>
    have hone : keys.countP (fun k => p k x) ≤ keys.count (keyOf x) :=
      List.countP_mono_left fun k _ hk => beq_iff_eq.mpr (hp k x hk).symm
    have hcount := List.nodup_iff_count_le_one.mp hkeys (keyOf x)
    rw [sum_countP_cons, List.length_cons]
    omega

namespace Table

/-- The sum of a weight over the values of the table. -/
def total (f : α → Nat) (t : Table κ α) : Nat := (t.entries.map fun e => f e.2).sum

/-- Writing an entry: what the others weigh, and the new value. -/
theorem total_insert (f : α → Nat) (t : Table κ α) (k : κ) (v : α) :
    total f (t.insert k v) = total f (t.erase k) + f v := by
  have hent : (t.insert k v).entries = ⟨k, v⟩ :: (t.erase k).entries := rfl
  rw [total, hent, List.map_cons, List.sum_cons, Nat.add_comm]
  rfl

/-- Removing an entry takes its weight off. -/
theorem total_erase (f : α → Nat) (t : Table κ α) (k : κ) :
    total f (t.erase k) + ((t.lookup k).map f).getD 0 = total f t := by
  by_cases hk : k ∈ t
  · obtain ⟨v, l₁, l₂, _, hent, her⟩ := List.exists_of_kerase (show k ∈ t.entries.keys from hk)
    have hlook : t.lookup k = some v := by
      refine AList.mem_lookup_iff.mpr ?_
      rw [hent]
      simp
    have hgone : (t.erase k).entries = l₁ ++ l₂ := her
    rw [hlook, total, total, hgone, hent]
    simp only [List.map_append, List.map_cons, List.sum_append, List.sum_cons, Option.map_some,
      Option.getD_some]
    omega
  · have hsame : (t.erase k).entries = t.entries := List.kerase_of_notMem_keys hk
    rw [AList.lookup_eq_none.mpr hk, total, total, hsame]
    rfl

/-- Writing an entry that is there leaves the table as long as it is. -/
theorem length_insert_of_mem {t : Table κ α} {k : κ} (hk : k ∈ t) (v : α) :
    (t.insert k v).entries.length = t.entries.length := by
  obtain ⟨w, l₁, l₂, _, hent, her⟩ := List.exists_of_kerase (show k ∈ t.entries.keys from hk)
  have hnew : (t.insert k v).entries = ⟨k, v⟩ :: (l₁ ++ l₂) := congrArg _ her
  rw [hnew, hent, List.length_cons, List.length_append, List.length_append, List.length_cons,
    Nat.add_assoc]

/-- Writing a new one makes it longer by one. -/
theorem length_insert_of_notMem {t : Table κ α} {k : κ} (hk : k ∉ t) (v : α) :
    (t.insert k v).entries.length = t.entries.length + 1 := by
  have hent : (t.insert k v).entries = ⟨k, v⟩ :: t.entries.kerase k := rfl
  rw [hent, List.kerase_of_notMem_keys hk, List.length_cons]

theorem length_erase_le (t : Table κ α) (k : κ) :
    (t.erase k).entries.length ≤ t.entries.length :=
  (List.kerase_sublist k t.entries).length_le

/-- How many values of the table carry the label. -/
def tally (g : α → Option β) (t : Table κ α) (b : β) : Nat :=
  t.entries.countP fun e => g e.2 = some b

/-- Removing an entry takes its label out of the tally. -/
theorem tally_erase (g : α → Option β) (t : Table κ α) (k : κ) (b : β) :
    (tally g (t.erase k) b : ℤ) = t.tally g b - unit ((t.lookup k).bind g) b := by
  by_cases hk : k ∈ t
  · obtain ⟨v, l₁, l₂, hl, hent, her⟩ := List.exists_of_kerase (show k ∈ t.entries.keys from hk)
    have hlook : t.lookup k = some v := by
      refine AList.mem_lookup_iff.mpr ?_
      rw [hent]
      simp
    have hcount : t.tally g b = tally g (t.erase k) b + if g v = some b then 1 else 0 := by
      have hgone : (t.erase k).entries = l₁ ++ l₂ := her
      rw [tally, tally, hgone, hent, List.countP_append, List.countP_append, List.countP_cons]
      simp only [decide_eq_true_eq]
      omega
    rw [hcount, hlook, Option.bind_some, unit]
    split <;> simp
  · have hnone : t.lookup k = none := AList.lookup_eq_none.mpr hk
    have hsame : (t.erase k).entries = t.entries := List.kerase_of_notMem_keys hk
    rw [tally, tally, hsame, hnone]
    simp

/-- Writing an entry replaces the label it had by the new one. -/
theorem tally_insert (g : α → Option β) (t : Table κ α) (k : κ) (v : α) (b : β) :
    (tally g (t.insert k v) b : ℤ) =
      t.tally g b - unit ((t.lookup k).bind g) b + unit (g v) b := by
  have hcons : (tally g (t.insert k v) b : ℤ) = tally g (t.erase k) b + unit (g v) b := by
    have hent : (t.insert k v).entries = ⟨k, v⟩ :: (t.erase k).entries := rfl
    rw [tally, hent, List.countP_cons, unit]
    simp only [decide_eq_true_eq]
    split <;> simp [tally]
  rw [hcons, tally_erase]

/-- A label has a tally exactly when some value carries it. -/
theorem tally_pos {g : α → Option β} {t : Table κ α} {b : β} :
    0 < t.tally g b ↔ ∃ k v, t.lookup k = some v ∧ g v = some b := by
  rw [tally, List.countP_pos_iff]
  constructor
  · rintro ⟨e, he, hg⟩
    exact ⟨e.1, e.2, AList.mem_lookup_iff.mpr he, of_decide_eq_true hg⟩
  · rintro ⟨k, v, hv, hg⟩
    exact ⟨⟨k, v⟩, AList.mem_lookup_iff.mp hv, decide_eq_true hg⟩

end Table

end Lib
