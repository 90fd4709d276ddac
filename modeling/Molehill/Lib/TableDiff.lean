/-
# The difference of two tables

A program that reloads a table does not replace it: it computes which keys have gone and which
values are new or changed, and applies these to the table it has.  `lookup_patch` says that this
gives the new table, whatever order the two tables are walked in, as long as every value knows
its own key.

Nothing here is about any particular program.
-/
import Mathlib.Data.List.AList
import Molehill.Lib.Table

universe u v

namespace Lib.Table

variable {κ : Type u} {α : Type v} [DecidableEq κ]

/-- Two tables with the same entries, in any order, look up the same. -/
theorem perm_iff_lookup {s t : Table κ α} :
    s.entries.Perm t.entries ↔ ∀ k, s.lookup k = t.lookup k := by
  constructor
  · intro h k
    exact AList.perm_lookup h
  · intro h
    refine List.lookup_ext s.nodupKeys t.nodupKeys fun k v => ?_
    have hk : s.entries.dlookup k = t.entries.dlookup k := h k
    rw [hk]

/-- The keys of `old` that `new` does not have. -/
def gone (old new : Table κ α) : List κ := old.keys.filter fun k => (new.lookup k).isNone

/-- The values of `new` that `old` does not have under their key. -/
def changed [DecidableEq α] (old new : Table κ α) : List α :=
  (new.entries.filter fun e => old.lookup e.1 ≠ some e.2).map (·.2)

/-- The table without these keys. -/
def eraseAll (t : Table κ α) (ks : List κ) : Table κ α := ks.foldl (fun t k => t.erase k) t

/-- The table with these values, each under its own key, one after another. -/
def insertAll (keyOf : α → κ) (t : Table κ α) (vs : List α) : Table κ α :=
  vs.foldl (fun t v => t.insert (keyOf v) v) t

theorem lookup_eraseAll (t : Table κ α) (ks : List κ) (k : κ) :
    (t.eraseAll ks).lookup k = if k ∈ ks then none else t.lookup k := by
  induction ks generalizing t with
  | nil => simp [eraseAll]
  | cons a ks ih =>
    have hstep : t.eraseAll (a :: ks) = eraseAll (t.erase a) ks := rfl
    rw [hstep, ih, lookup_erase_eq]
    by_cases hk : k ∈ ks
    · simp [hk]
    · by_cases ha : k = a <;> simp [hk, ha]

/-- A key that no value has keeps its entry. -/
theorem lookup_insertAll_of_forall_ne {keyOf : α → κ} {vs : List α} {k : κ}
    (h : ∀ v ∈ vs, keyOf v ≠ k) (t : Table κ α) :
    (t.insertAll keyOf vs).lookup k = t.lookup k := by
  induction vs generalizing t with
  | nil => rfl
  | cons v vs ih =>
    have hstep : t.insertAll keyOf (v :: vs) = insertAll keyOf (t.insert (keyOf v) v) vs := rfl
    rw [hstep, ih fun w hw => h w (List.mem_cons_of_mem _ hw), lookup_insert_eq]
    exact if_neg (Ne.symm (h v List.mem_cons_self))

/-- A key that exactly one value has gets it. -/
theorem lookup_insertAll_of_mem {keyOf : α → κ} {vs : List α} {v : α} (hv : v ∈ vs)
    (huniq : ∀ w ∈ vs, keyOf w = keyOf v → w = v) (t : Table κ α) :
    (t.insertAll keyOf vs).lookup (keyOf v) = some v := by
  induction vs generalizing t with
  | nil => cases hv
  | cons w vs ih =>
    have hstep : t.insertAll keyOf (w :: vs) = insertAll keyOf (t.insert (keyOf w) w) vs := rfl
    rw [hstep]
    by_cases htail : v ∈ vs
    · exact ih htail (fun x hx => huniq x (List.mem_cons_of_mem _ hx)) _
    · -- the last value of its key is the head, so nothing behind it writes there
      have hvw : v = w := by
        rcases List.mem_cons.mp hv with h | h
        · exact h
        · exact absurd h htail
      subst hvw
      rw [lookup_insertAll_of_forall_ne, AList.lookup_insert]
      intro x hx hkey
      exact htail (huniq x (List.mem_cons_of_mem _ hx) hkey ▸ hx)

theorem mem_gone {old new : Table κ α} {k : κ} :
    k ∈ old.gone new ↔ (old.lookup k).isSome ∧ new.lookup k = none := by
  rw [gone, List.mem_filter, AList.lookup_isSome, Option.isNone_iff_eq_none]
  exact Iff.rfl

theorem mem_changed [DecidableEq α] {old new : Table κ α} {v : α} :
    v ∈ old.changed new ↔ ∃ k, new.lookup k = some v ∧ old.lookup k ≠ some v := by
  rw [changed, List.mem_map]
  constructor
  · rintro ⟨e, he, rfl⟩
    obtain ⟨hmem, hne⟩ := List.mem_filter.mp he
    exact ⟨e.1, AList.mem_lookup_iff.mpr hmem, of_decide_eq_true hne⟩
  · rintro ⟨k, hk, hne⟩
    exact ⟨⟨k, v⟩, List.mem_filter.mpr ⟨AList.mem_lookup_iff.mp hk, decide_eq_true hne⟩, rfl⟩

/-- **Patching.**  A table that has `old`'s entries, without the keys that have gone and with the
values that have changed, has `new`'s. -/
theorem lookup_patch [DecidableEq α] {keyOf : α → κ} {cur old new : Table κ α}
    (hcur : ∀ k, cur.lookup k = old.lookup k)
    (hkey : ∀ k v, new.lookup k = some v → keyOf v = k) (k : κ) :
    (insertAll keyOf (cur.eraseAll (old.gone new)) (old.changed new)).lookup k = new.lookup k := by
  have hnames : ∀ w ∈ old.changed new, new.lookup (keyOf w) = some w := by
    intro w hw
    obtain ⟨j, hj, -⟩ := mem_changed.mp hw
    rw [hkey j w hj]
    exact hj
  rcases hnew : new.lookup k with _ | v
  · -- nothing writes the key, and it is removed where it was there
    rw [lookup_insertAll_of_forall_ne, lookup_eraseAll, hcur]
    · split
      case isTrue => rfl
      case isFalse hgone =>
        rw [← Option.not_isSome_iff_eq_none]
        exact fun hold => hgone (mem_gone.mpr ⟨hold, hnew⟩)
    · rintro w hw rfl
      rw [hnames w hw] at hnew
      cases hnew
  · have hkv : keyOf v = k := hkey k v hnew
    by_cases hold : old.lookup k = some v
    · -- the key keeps its value
      rw [lookup_insertAll_of_forall_ne, lookup_eraseAll, hcur, hold, if_neg]
      · intro hgone
        rw [(mem_gone.mp hgone).2] at hnew
        cases hnew
      · rintro w hw rfl
        obtain ⟨j, hj, hne⟩ := mem_changed.mp hw
        rw [hnames w hw] at hnew
        cases hnew
        rw [hkey j _ hj] at hold
        exact hne hold
    · subst hkv
      refine lookup_insertAll_of_mem (mem_changed.mpr ⟨_, hnew, hold⟩) ?_ _
      intro w hw hwv
      have := hnames w hw
      rw [hwv, hnew] at this
      exact (Option.some.inj this).symm

end Lib.Table
