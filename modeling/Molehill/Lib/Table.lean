/-
# Tables

A hash map of the program is an association list without repeated keys (Mathlib's `AList`), over
a value type that does not depend on the key.  This module adds the three operations on whole
tables that Mathlib does not have: mapping the values (`mapVals`, Rust's `values_mut`), keeping
those that pass a test (`filterVals`, Rust's `retain`), and collecting the keys whose value passes
one (`keysWhere`, Rust's `iter().filter(..).map(..)`).

Nothing here is about any particular program.
-/
import Mathlib.Algebra.GroupWithZero.Nat
import Mathlib.Data.List.AList

universe u v w

namespace Lib

/-- A finite map from `κ` to `α`. -/
abbrev Table (κ : Type u) (α : Type v) := AList (fun _ : κ => α)

namespace Table

variable {κ : Type u} {α : Type v} {β : Type w}

/-- The table with `f` applied to every value. -/
def mapVals (f : α → β) (t : Table κ α) : Table κ β where
  entries := t.entries.map fun e => ⟨e.1, f e.2⟩
  nodupKeys := by
    have hkeys : (t.entries.map fun e => (⟨e.1, f e.2⟩ : (_ : κ) × β)).keys = t.entries.keys := by
      simp [List.keys, Function.comp_def]
    rw [List.NodupKeys, hkeys]
    exact t.nodupKeys

/-- The table with the values that pass `p`. -/
def filterVals (p : α → Bool) (t : Table κ α) : Table κ α where
  entries := t.entries.filter fun e => p e.2
  nodupKeys := List.Nodup.sublist (List.filter_sublist.map _) t.nodupKeys

/-- The keys whose value passes `p`, in table order. -/
def keysWhere (p : α → Bool) (t : Table κ α) : List κ :=
  (t.entries.filter fun e => p e.2).map Sigma.fst

/-- No key is collected twice. -/
theorem nodup_keysWhere (p : α → Bool) (t : Table κ α) : (t.keysWhere p).Nodup :=
  List.Nodup.sublist (List.filter_sublist.map _) t.nodupKeys

variable [DecidableEq κ]

@[simp] theorem lookup_mapVals (f : α → β) (t : Table κ α) (k : κ) :
    (t.mapVals f).lookup k = (t.lookup k).map f :=
  List.dlookup_map₂ (γ := fun _ : κ => α) (δ := fun _ : κ => β) (f := fun _ => f) k

/-- A looked-up value of a filtered table. -/
theorem lookup_filterVals (p : α → Bool) (t : Table κ α) (k : κ) :
    (t.filterVals p).lookup k = (t.lookup k).filter p := by
  refine Option.ext fun v => ?_
  rw [Option.filter_eq_some_iff]
  change v ∈ (t.filterVals p).lookup k ↔ v ∈ t.lookup k ∧ p v = true
  rw [AList.mem_lookup_iff, AList.mem_lookup_iff]
  exact List.mem_filter

/-- A key is collected exactly when the table has a value there that passes. -/
theorem mem_keysWhere {p : α → Bool} {t : Table κ α} {k : κ} :
    k ∈ t.keysWhere p ↔ ∃ v, t.lookup k = some v ∧ p v = true := by
  constructor
  · intro h
    obtain ⟨e, he, rfl⟩ := List.mem_map.mp h
    obtain ⟨hmem, hp⟩ := List.mem_filter.mp he
    exact ⟨e.2, AList.mem_lookup_iff.mpr hmem, hp⟩
  · rintro ⟨v, hv, hp⟩
    exact List.mem_map.mpr ⟨⟨k, v⟩, List.mem_filter.mpr ⟨AList.mem_lookup_iff.mp hv, hp⟩, rfl⟩

/-- The values of a table are the ones some key looks up. -/
theorem mem_vals {t : Table κ α} {v : α} :
    v ∈ t.entries.map (·.2) ↔ ∃ k, t.lookup k = some v := by
  constructor
  · intro h
    obtain ⟨e, he, rfl⟩ := List.mem_map.mp h
    exact ⟨e.1, AList.mem_lookup_iff.mpr he⟩
  · rintro ⟨k, hk⟩
    exact List.mem_map.mpr ⟨⟨k, v⟩, AList.mem_lookup_iff.mp hk, rfl⟩

/-- The entries under one key: what it looks up. -/
theorem filter_key (t : Table κ α) (k : κ) :
    (t.entries.filter fun e => e.1 = k) = (t.lookup k).toList.map (Sigma.mk k) := by
  have hall : ∀ entries : List ((_ : κ) × α),
      (entries.filter fun e => e.1 = k) = (entries.lookupAll k).map (Sigma.mk k) := by
    intro entries
    induction entries with
    | nil => rfl
    | cons e rest ih =>
      obtain ⟨k', v⟩ := e
      by_cases hk : k' = k
      · subst hk
        rw [List.filter_cons_of_pos (by simp), List.lookupAll_cons_eq, List.map_cons, ih]
      · rw [List.filter_cons_of_neg (by simpa using hk),
          List.lookupAll_cons_ne _ _ (Ne.symm hk), ih]
  rw [hall, List.lookupAll_eq_dlookup k t.nodupKeys]
  rfl

/-- A looked-up value after one insertion: the new one at its key, the old ones elsewhere. -/
theorem lookup_insert_eq (t : Table κ α) (k k' : κ) (v : α) :
    (t.insert k v).lookup k' = if k' = k then some v else t.lookup k' := by
  split
  case isTrue h => rw [h, AList.lookup_insert]
  case isFalse h => exact AList.lookup_insert_ne h

/-- A looked-up value after one removal. -/
theorem lookup_erase_eq (t : Table κ α) (k k' : κ) :
    (t.erase k).lookup k' = if k' = k then none else t.lookup k' := by
  split
  case isTrue h => rw [h, AList.lookup_erase]
  case isFalse h => exact AList.lookup_erase_ne h

/-- What is found after a removal stands under another key, and was there before. -/
theorem lookup_of_erase {t : Table κ α} {k k' : κ} {v : α} (h : (t.erase k).lookup k' = some v) :
    k' ≠ k ∧ t.lookup k' = some v := by
  rw [lookup_erase_eq] at h
  split at h
  case isTrue => cases h
  case isFalse hne => exact ⟨hne, h⟩

/-- What an insertion replaces may as well be removed first. -/
theorem insert_erase_self (t : Table κ α) (k : κ) (v : α) :
    (t.erase k).insert k v = t.insert k v := by
  refine AList.ext ?_
  change ⟨k, v⟩ :: (t.entries.kerase k).kerase k = ⟨k, v⟩ :: t.entries.kerase k
  rw [List.kerase_of_notMem_keys (List.notMem_keys_kerase k t.nodupKeys)]

end Table

end Lib
