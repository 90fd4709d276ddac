/-
# Packing items into bounded containers

Items arrive one by one and are laid into an open container; a container is closed when the next
item does not fit.  `Packs` is what such a run comes to, with the choices an implementation has:
it may close early, and an item that meets an empty container may go in (or go alone) whatever its
size.

* `Packs.flatten`: the containers hold the items, in order;
* `Packs.trans`: two runs are one;
* `Packs.bounded_iff`, `Packs.closed_bounded_iff`: the containers stay within the limit exactly
  when what was staged and every item does.
-/
import Mathlib.Algebra.GroupWithZero.Nat
import Mathlib.Data.List.Basic

universe u

namespace Lib

variable {α : Type u} (size : α → Nat) (limit : Nat)

/-- The size of a container. -/
def total (xs : List α) : Nat := (xs.map size).sum

/-- `Packs size limit staged items packs rest`: with `staged` in the open container, the items were
laid in; `packs` are the containers closed meanwhile, and `rest` is left open. -/
inductive Packs : List α → List α → List (List α) → List α → Prop
  | done {staged : List α} : Packs staged [] [] staged
  | stage {staged items rest : List α} {x : α} {packs : List (List α)} :
    staged = [] ∨ total size staged + size x ≤ limit → Packs (staged ++ [x]) items packs rest →
    Packs staged (x :: items) packs rest
  | close {staged items rest : List α} {packs : List (List α)} : staged ≠ [] →
    Packs [] items packs rest → Packs staged items (staged :: packs) rest
  | alone {items rest : List α} {x : α} {packs : List (List α)} : Packs [] items packs rest →
    Packs [] (x :: items) ([x] :: packs) rest

variable {size limit} {staged items rest : List α} {packs : List (List α)}

@[simp] theorem total_nil : total size [] = 0 := rfl

@[simp] theorem total_append (xs ys : List α) :
    total size (xs ++ ys) = total size xs + total size ys := by
  simp [total]

@[simp] theorem total_singleton (x : α) : total size [x] = size x := by
  simp [total]

theorem size_le_total {x : α} {xs : List α} (h : x ∈ xs) : size x ≤ total size xs := by
  obtain ⟨before, behind, rfl⟩ := List.append_of_mem h
  have hcons : total size (x :: behind) = size x + total size behind := List.sum_cons
  rw [total_append, hcons]
  omega

namespace Packs

/-- **Nothing is lost, and the order stays.** -/
theorem flatten (h : Packs size limit staged items packs rest) :
    packs.flatten ++ rest = staged ++ items := by
  induction h with
  | done => simp
  | stage _ _ ih => rw [ih, List.append_assoc, List.singleton_append]
  | close _ _ ih => rw [List.flatten_cons, List.append_assoc, ih, List.nil_append]
  | alone _ ih => rw [List.flatten_cons, List.append_assoc, ih, List.nil_append, List.nil_append,
      List.singleton_append]

/-- **Two runs are one.** -/
theorem trans {more : List α} {packs' : List (List α)} {rest' : List α}
    (h : Packs size limit staged items packs rest)
    (h' : Packs size limit rest more packs' rest') :
    Packs size limit staged (items ++ more) (packs ++ packs') rest' := by
  induction h with
  | done => exact h'
  | stage hfit _ ih => exact .stage hfit (ih h')
  | close hne _ ih => exact .close hne (ih h')
  | alone _ ih => exact .alone (ih h')

/-- What was staged is in one container. -/
theorem exists_prefix (h : Packs size limit staged items packs rest) :
    ∃ c ∈ packs ++ [rest], staged <+: c := by
  induction h with
  | done => exact ⟨_, List.mem_append_right _ (List.mem_singleton_self _), List.prefix_refl _⟩
  | stage _ _ ih =>
    obtain ⟨c, hc, hpre⟩ := ih
    exact ⟨c, hc, (List.prefix_append _ _).trans hpre⟩
  | close => exact ⟨_, List.mem_cons_self, List.prefix_refl _⟩
  | alone => exact ⟨_, List.mem_cons_self, List.nil_prefix⟩

theorem mem_iff (h : Packs size limit staged items packs rest) {x : α} :
    (∃ c ∈ packs ++ [rest], x ∈ c) ↔ x ∈ staged ∨ x ∈ items := by
  rw [← List.mem_append, ← h.flatten, List.mem_append, List.mem_flatten]
  simp only [List.mem_append, List.mem_singleton]
  constructor
  · rintro ⟨c, hc | rfl, hx⟩
    · exact Or.inl ⟨c, hc, hx⟩
    · exact Or.inr hx
  · rintro (⟨c, hc, hx⟩ | hx)
    · exact ⟨c, Or.inl hc, hx⟩
    · exact ⟨rest, Or.inr rfl, hx⟩

/-- What was staged and every item within the limit: so is every container. -/
theorem bounded (h : Packs size limit staged items packs rest) (hstaged : total size staged ≤ limit)
    (hitems : ∀ x ∈ items, size x ≤ limit) : ∀ c ∈ packs ++ [rest], total size c ≤ limit := by
  induction h with
  | done =>
    intro c hc
    rw [List.mem_singleton.mp hc]
    exact hstaged
  | @stage staged items rest x packs hfit _ ih =>
    refine ih ?_ fun y hy => hitems y (List.mem_cons_of_mem _ hy)
    rw [total_append, total_singleton]
    rcases hfit with rfl | hfit
    · rw [total_nil, Nat.zero_add]
      exact hitems x List.mem_cons_self
    · exact hfit
  | close _ _ ih =>
    intro c hc
    rcases List.mem_cons.mp hc with rfl | hc
    · exact hstaged
    · exact ih (Nat.zero_le _) hitems c hc
  | @alone items rest x packs _ ih =>
    intro c hc
    rcases List.mem_cons.mp hc with rfl | hc
    · rw [total_singleton]
      exact hitems x List.mem_cons_self
    · exact ih (Nat.zero_le _) (fun y hy => hitems y (List.mem_cons_of_mem _ hy)) c hc

/-- **The limit, with the open container.** -/
theorem bounded_iff (h : Packs size limit staged items packs rest) :
    (∀ c ∈ packs ++ [rest], total size c ≤ limit) ↔
      total size staged ≤ limit ∧ ∀ x ∈ items, size x ≤ limit := by
  refine ⟨fun hall => ⟨?_, fun x hx => ?_⟩, fun hb => h.bounded hb.1 hb.2⟩
  · obtain ⟨c, hc, more, rfl⟩ := h.exists_prefix
    have hle := hall _ hc
    rw [total_append] at hle
    omega
  · obtain ⟨c, hc, hxc⟩ := h.mem_iff.mpr (Or.inr hx)
    exact Nat.le_trans (size_le_total hxc) (hall c hc)

/-- **The limit, for the closed containers alone.**  Items that fit close only what was staged. -/
theorem closed_bounded_iff (h : Packs size limit staged items packs rest) (hne : items ≠ [])
    (hitems : ∀ x ∈ items, size x ≤ limit) :
    (∀ c ∈ packs, total size c ≤ limit) ↔ total size staged ≤ limit := by
  refine ⟨fun hall => ?_, fun hs c hc => h.bounded hs hitems c (List.mem_append_left _ hc)⟩
  cases h with
  | done => exact absurd rfl hne
  | stage hfit _ =>
    rcases hfit with rfl | hfit
    · exact Nat.zero_le _
    · omega
  | close => exact hall _ List.mem_cons_self
  | alone => exact Nat.zero_le _

end Packs

end Lib
