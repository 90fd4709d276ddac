/-
# The client's registry of stripe groups

The stripes of one visitor arrive as data channels of their own, each with the group, the index and
the count its command names.  `StripeGroups` (`stripe.rs`) parks a channel until its group is
complete and then hands out the whole group; a group nobody completes is dropped after
`STRIPE_GROUP_TTL`, and one the server gave up is dropped at once (`release`), its id kept as a
tombstone so that a stripe still on its way does not park again.

In every run, no channel is handed out twice, a complete group has its channels in index order, and
a channel that is refused changes no group (`groups_sound`).  The tombstones are bounded: a release
is remembered for the retention time only while fewer than 512 others follow it
(`released_forgotten` is a run with 512), which `MAX_RELEASED_GROUPS` documents.

Times are milliseconds.
-/
import Mathlib.Data.List.ReduceOption
import Mathlib.Data.List.TakeWhile
import Molehill.Lib.Table
import Molehill.Lib.Transition

namespace Molehill.Stripe

open Lib

/-! ## 1. The registry -/

/-- `STRIPE_GROUP_TTL`. -/
def stripeGroupTtl : Nat := 60000

/-- `MAX_RELEASED_GROUPS`. -/
def maxReleasedGroups : Nat := 512

/-- `PartialGroup`; `target` is the local endpoint the group forwards to, and its socket options. -/
structure PartialGroup (S T : Type) where
  count : Nat
  streams : List (Option S)
  target : T
  started : Nat
  deriving DecidableEq

/-- `CompleteGroup`. -/
structure CompleteGroup (S T : Type) where
  streams : List S
  target : T
  deriving DecidableEq

/-- `RegistryState`: the partial groups, and the released ids with the time of each, oldest
first. -/
structure StripeGroups (S T : Type) where
  groups : Table Nat (PartialGroup S T)
  released : List (Nat × Nat)

namespace StripeGroups

variable {S T : Type}

def new : StripeGroups S T := ⟨∅, []⟩

/-- What `register` forgets before it looks: the groups and the tombstones that outlived the
retention time. -/
def reap (r : StripeGroups S T) (now : Nat) : StripeGroups S T where
  groups := r.groups.filterVals fun g => now - g.started < stripeGroupTtl
  released := r.released.dropWhile fun e => stripeGroupTtl ≤ now - e.2

/-- The group's entry, made if there is none (`entry(..).or_insert_with(..)`). -/
def enter (r : StripeGroups S T) (now group count : Nat) (target : T) :
    StripeGroups S T × PartialGroup S T :=
  match r.groups.lookup group with
  | some entry => (r, entry)
  | none =>
    let entry := ⟨count, List.replicate count none, target, now⟩
    ({ r with groups := r.groups.insert group entry }, entry)

/-- `register`, once the group is known not to be released. -/
def park (r : StripeGroups S T) (now group index count : Nat) (stream : S) (target : T) :
    StripeGroups S T × Except String (Option (CompleteGroup S T)) :=
  let (r, entry) := r.enter now group count target
  if entry.count ≠ count then
    (r, .error s!"stripe group {group} mixes {count} and {entry.count} stripes")
  else
    match entry.streams[index]? with
    | none => (r, .error s!"stripe index {index} out of range")
    | some (some _) => (r, .error s!"stripe group {group} received a second stripe {index}")
    | some none =>
      let entry := { entry with streams := entry.streams.set index (some stream) }
      if entry.streams.all Option.isSome then
        ({ r with groups := r.groups.erase group },
          .ok (some ⟨entry.streams.reduceOption, entry.target⟩))
      else ({ r with groups := r.groups.insert group entry }, .ok none)

/-- `register`. -/
def register (r : StripeGroups S T) (now group index count : Nat) (stream : S) (target : T) :
    StripeGroups S T × Except String (Option (CompleteGroup S T)) :=
  if ¬ (1 ≤ count ∧ index < count) then
    (r, .error s!"striped command claims stripe {index} of {count}")
  else
    let r := r.reap now
    if r.released.any fun e => e.1 = group then (r, .ok none)
    else r.park now group index count stream target

/-- `release`, and whether a partial group was parked. -/
def release (r : StripeGroups S T) (now group : Nat) : StripeGroups S T × Bool :=
  let released := (r.released.filter fun e => now - e.2 < stripeGroupTtl) ++ [(group, now)]
  (⟨r.groups.erase group, released.drop (released.length - maxReleasedGroups)⟩,
    (r.groups.lookup group).isSome)

end StripeGroups

/-! ## 2. Its runs -/

/-- What a channel's command names. -/
structure Offer where
  group : Nat
  index : Nat
  count : Nat
  deriving DecidableEq

/-- A group that was handed out, with the group and the count of the command that completed it. -/
structure Handed (T : Type) where
  group : Nat
  count : Nat
  complete : CompleteGroup Nat T
  deriving DecidableEq

inductive RegistryEvent (T : Type)
  | register (offer : Offer) (target : T)
  | release (group : Nat)
  deriving DecidableEq

/-- A registry, the time of the last call, and what was called and handed out.  Every `register`
brings a channel of its own: the `k`-th one the channel `k`. -/
structure Traced (T : Type) where
  registry : StripeGroups Nat T
  now : Nat
  offers : List Offer
  handed : List (Handed T)
  /-- Every release with its time, oldest first. -/
  releases : List (Nat × Nat)

namespace Traced

variable {T : Type}

def new : Traced T := ⟨.new, 0, [], [], []⟩

/-- The call of `register` that a command makes at `t`. -/
def registerAt (s : Traced T) (t : Nat) (o : Offer) (target : T) :
    StripeGroups Nat T × Except String (Option (CompleteGroup Nat T)) :=
  s.registry.register t o.group o.index o.count s.offers.length target

/-- A call at time `t`. -/
def step (s : Traced T) : Nat × RegistryEvent T → Option (Traced T)
  | (t, .register o target) =>
    if s.now ≤ t then
      some
        { s with
          registry := (s.registerAt t o target).1
          now := t
          offers := s.offers ++ [o]
          handed :=
            match (s.registerAt t o target).2 with
            | .ok (some complete) => s.handed ++ [⟨o.group, o.count, complete⟩]
            | _ => s.handed }
    else none
  | (t, .release group) =>
    if s.now ≤ t then
      some
        { s with
          registry := (s.registry.release t group).1
          now := t
          releases := s.releases ++ [(group, t)] }
    else none

end Traced

/-- The runs of one registry. -/
def stripeGroups (T : Type) : Lts (Traced T) (Nat × RegistryEvent T) where
  init s := s = .new
  step s e s' := s.step e = some s'

/-! ## 3. What is promised -/

/-- Whether the stream is parked in some group. -/
def StripeGroups.Parks {S T : Type} (r : StripeGroups S T) (stream : S) : Prop :=
  ∃ (g : Nat) (p : PartialGroup S T) (i : Nat),
    r.groups.lookup g = some p ∧ p.streams[i]? = some (some stream)

namespace Traced

variable {T : Type}

/-- A release of the group that is within the retention time, and that fewer than 512 others
follow. -/
def Remembers (s : Traced T) (t group : Nat) : Prop :=
  ∃ i time : Nat, s.releases[i]? = some (group, time) ∧ t - time < stripeGroupTtl ∧
    s.releases.length ≤ i + maxReleasedGroups

/-- **What is promised** of a state, and of the next channel. -/
structure Sound (s : Traced T) : Prop where
  /-- No channel is handed out twice. -/
  once : (s.handed.flatMap fun h => h.complete.streams).Nodup
  /-- A complete group has its channels in index order. -/
  indexed : ∀ h ∈ s.handed, h.complete.streams.length = h.count ∧
    ∀ i k : Nat, h.complete.streams[i]? = some k → s.offers[k]? = some ⟨h.group, i, h.count⟩
  /-- A channel that is refused changes no group that has not expired, and makes none. -/
  refused : ∀ t o target message, (s.registerAt t o target).2 = .error message →
    (∀ g p, s.registry.groups.lookup g = some p → t - p.started < stripeGroupTtl →
      (s.registerAt t o target).1.groups.lookup g = some p) ∧
    ∀ g p, (s.registerAt t o target).1.groups.lookup g = some p →
      s.registry.groups.lookup g = some p
  /-- A channel of a released group is neither parked nor handed out. -/
  released : ∀ t o target, s.now ≤ t → s.Remembers t o.group →
    ¬ (s.registerAt t o target).1.Parks s.offers.length ∧
      ∀ complete, (s.registerAt t o target).2 ≠ .ok (some complete)

end Traced

/-! ## 4. What `register` does -/

/-- The entry with the stripe in its place. -/
def PartialGroup.filled {S T : Type} (entry : PartialGroup S T) (index : Nat) (stream : S) :
    PartialGroup S T :=
  { entry with streams := entry.streams.set index (some stream) }

namespace StripeGroups

variable {S T : Type} {r : StripeGroups S T} {now group index count : Nat} {stream : S} {target : T}

theorem lookup_reap (r : StripeGroups S T) (now g : Nat) :
    (r.reap now).groups.lookup g =
      (r.groups.lookup g).filter fun p => now - p.started < stripeGroupTtl :=
  Table.lookup_filterVals _ _ _

/-- A group that is still there was there. -/
theorem lookup_of_reap {g : Nat} {p : PartialGroup S T}
    (h : (r.reap now).groups.lookup g = some p) : r.groups.lookup g = some p := by
  rw [lookup_reap, Option.filter_eq_some_iff] at h
  exact h.1

/-- The entry a stripe goes into: the group's, or a fresh one. -/
def Enters (r : StripeGroups S T) (now group count : Nat) (target : T)
    (entry : PartialGroup S T) : Prop :=
  r.groups.lookup group = some entry ∨
    (r.groups.lookup group = none ∧ entry = ⟨count, List.replicate count none, target, now⟩)

/-- What a stripe meets in the group it is for: it is refused, which changes nothing, or it takes a
free place of the entry, and the group goes if that was the last one. -/
inductive Parked (r : StripeGroups S T) (now group index count : Nat) (stream : S) (target : T) :
    StripeGroups S T × Except String (Option (CompleteGroup S T)) → Prop
  | refused (message : String) : Parked r now group index count stream target (r, .error message)
  | waits {r' : StripeGroups S T} {entry : PartialGroup S T}
      (henters : r.Enters now group count target entry) (hcount : entry.count = count)
      (hfree : entry.streams[index]? = some none) (hreleased : r'.released = r.released)
      (hlookup : ∀ g, r'.groups.lookup g =
        if g = group then some (entry.filled index stream) else r.groups.lookup g) :
      Parked r now group index count stream target (r', .ok none)
  | completes {r' : StripeGroups S T} {entry : PartialGroup S T}
      (henters : r.Enters now group count target entry) (hcount : entry.count = count)
      (hfree : entry.streams[index]? = some none) (hreleased : r'.released = r.released)
      (hlookup : ∀ g, r'.groups.lookup g = if g = group then none else r.groups.lookup g)
      (hall : (entry.filled index stream).streams.all Option.isSome = true) :
      Parked r now group index count stream target
        (r', .ok (some ⟨(entry.filled index stream).streams.reduceOption, entry.target⟩))

theorem parked (hindex : index < count) (stream : S) :
    r.Parked now group index count stream target
      (r.park now group index count stream target) := by
  unfold park enter
  cases hl : r.groups.lookup group with
  | some entry =>
    dsimp only
    split
    case isTrue => exact .refused _
    case isFalse hcount =>
      split
      case h_1 => exact .refused _
      case h_2 => exact .refused _
      case h_3 hfree =>
        split
        case isTrue hall =>
          exact .completes (.inl hl) (not_not.mp hcount) hfree rfl
            (fun g => Table.lookup_erase_eq _ _ _) hall
        case isFalse =>
          exact .waits (.inl hl) (not_not.mp hcount) hfree rfl
            (fun g => Table.lookup_insert_eq _ _ _ _)
  | none =>
    dsimp only
    have hfree : (List.replicate count (none : Option S))[index]? = some none := by
      rw [List.getElem?_replicate, if_pos hindex]
    rw [if_neg (not_not.mpr rfl), hfree]
    dsimp only
    split
    case isTrue hall =>
      refine .completes (.inr ⟨hl, rfl⟩) rfl hfree rfl (fun g => ?_) hall
      dsimp only
      rw [Table.lookup_erase_eq, Table.lookup_insert_eq]
      split
      case isTrue => rfl
      case isFalse => rfl
    case isFalse =>
      refine .waits (.inr ⟨hl, rfl⟩) rfl hfree rfl (fun g => ?_)
      dsimp only
      rw [Table.lookup_insert_eq, Table.lookup_insert_eq]
      split
      case isTrue => rfl
      case isFalse => rfl

end StripeGroups

/-! ## 5. Who has a channel -/

section Keeping

variable {T : Type} {groups groups' : Table Nat (PartialGroup Nat T)} {offers : List Offer}
  {handed : List (Handed T)} {group index count k : Nat} {entry : PartialGroup Nat T}

/-- The channels of an entry are the ones whose commands named their place in it, and none of them
was handed out. -/
structure Fits (offers : List Offer) (handed : List (Handed T)) (group : Nat)
    (entry : PartialGroup Nat T) : Prop where
  length : entry.streams.length = entry.count
  parked : ∀ i k : Nat, entry.streams[i]? = some (some k) →
    offers[k]? = some ⟨group, i, entry.count⟩ ∧ ∀ h ∈ handed, k ∉ h.complete.streams

/-- **Every channel is in one place**: parked where its command says, or handed out there, once. -/
structure Kept (groups : Table Nat (PartialGroup Nat T)) (offers : List Offer)
    (handed : List (Handed T)) : Prop where
  fits : ∀ g p, groups.lookup g = some p → Fits offers handed g p
  once : (handed.flatMap fun h => h.complete.streams).Nodup
  indexed : ∀ h ∈ handed, h.complete.streams.length = h.count ∧
    ∀ i k : Nat, h.complete.streams[i]? = some k → offers[k]? = some ⟨h.group, i, h.count⟩

theorem getElem?_offers_append {o : Offer} {more : List Offer} (h : offers[k]? = some o) :
    (offers ++ more)[k]? = some o := by
  rw [List.getElem?_append_left (List.getElem?_eq_some_iff.mp h).1]
  exact h

theorem Fits.later (h : Fits offers handed group entry) (more : List Offer) :
    Fits (offers ++ more) handed group entry :=
  ⟨h.length, fun i k hk => ⟨getElem?_offers_append (h.parked i k hk).1, (h.parked i k hk).2⟩⟩

/-- Groups go, and commands come. -/
theorem Kept.sub (h : Kept groups offers handed)
    (hsub : ∀ g p, groups'.lookup g = some p → groups.lookup g = some p) (more : List Offer) :
    Kept groups' (offers ++ more) handed where
  fits := fun g p hp => (h.fits g p (hsub g p hp)).later more
  once := h.once
  indexed := fun c hc =>
    ⟨(h.indexed c hc).1, fun i k hk => getElem?_offers_append ((h.indexed c hc).2 i k hk)⟩

/-- The next channel was not handed out. -/
theorem Kept.fresh (h : Kept groups offers handed) {c : Handed T} (hc : c ∈ handed) :
    offers.length ∉ c.complete.streams := by
  intro hmem
  obtain ⟨i, hi⟩ := List.mem_iff_getElem?.mp hmem
  have hlt := (List.getElem?_eq_some_iff.mp ((h.indexed c hc).2 i _ hi)).1
  exact Nat.lt_irrefl _ hlt

/-- The entry a stripe goes into fits. -/
theorem Kept.enters {registry : StripeGroups Nat T} {now : Nat} {target : T}
    (h : Kept registry.groups offers handed)
    (henters : registry.Enters now group count target entry) : Fits offers handed group entry := by
  rcases henters with hl | ⟨-, rfl⟩
  · exact h.fits group entry hl
  · refine ⟨List.length_replicate, fun i k hk => ?_⟩
    rw [List.getElem?_replicate] at hk
    split at hk
    case isTrue => cases hk
    case isFalse => cases hk

/-- The stripe takes its place. -/
theorem Fits.filled (h : Fits offers handed group entry)
    (hfresh : ∀ c ∈ handed, offers.length ∉ c.complete.streams) (index : Nat) :
    Fits (offers ++ [⟨group, index, entry.count⟩]) handed group
      (entry.filled index offers.length) := by
  refine ⟨(List.length_set ..).trans h.length, fun i k hk => ?_⟩
  rw [PartialGroup.filled, List.getElem?_set] at hk
  split at hk
  case isTrue heq =>
    subst heq
    split at hk
    case isTrue =>
      cases hk
      exact ⟨List.getElem?_concat_length .., hfresh⟩
    case isFalse => cases hk
  case isFalse => exact (h.later _).parked i k hk

/-- A complete entry's channels, in index order. -/
theorem getElem?_reduceOption {S : Type} {l : List (Option S)} (h : l.all Option.isSome = true)
    (i : Nat) : l[i]? = l.reduceOption[i]?.map some := by
  induction l generalizing i with
  | nil => rfl
  | cons x l ih =>
    rw [List.all_cons, Bool.and_eq_true] at h
    obtain ⟨a, rfl⟩ := Option.isSome_iff_exists.mp h.1
    rw [List.reduceOption_cons_of_some]
    cases i with
    | zero => rfl
    | succ i => exact ih h.2 i

/-- **The group is handed out.** -/
theorem Kept.hand (h : Kept groups offers handed) {o : Offer} {target : T}
    (hsub : ∀ g p, groups'.lookup g = some p → groups.lookup g = some p ∧ g ≠ o.group)
    (hfits : Fits (offers ++ [o]) handed o.group entry) (hcount : entry.count = o.count)
    (hall : entry.streams.all Option.isSome = true) :
    Kept groups' (offers ++ [o])
      (handed ++ [⟨o.group, o.count, ⟨entry.streams.reduceOption, target⟩⟩]) := by
  have hplace : ∀ i k : Nat, entry.streams.reduceOption[i]? = some k →
      (offers ++ [o])[k]? = some ⟨o.group, i, entry.count⟩ ∧
        ∀ c ∈ handed, k ∉ c.complete.streams := by
    intro i k hk
    refine hfits.parked i k ?_
    rw [getElem?_reduceOption hall, hk]
    rfl
  have hsub' := h.sub (fun g p hp => (hsub g p hp).1) [o]
  refine ⟨fun g p hp => ⟨(hsub'.fits g p hp).length, fun i k hk => ?_⟩, ?_, fun c hc => ?_⟩
  · obtain ⟨hoffer, hnot⟩ := (hsub'.fits g p hp).parked i k hk
    refine ⟨hoffer, fun c hc hmem => ?_⟩
    rcases List.mem_append.mp hc with hc | hc
    · exact hnot c hc hmem
    · cases List.mem_singleton.mp hc
      obtain ⟨j, hj⟩ := List.mem_iff_getElem?.mp hmem
      have heq := (hplace j k hj).1.symm.trans hoffer
      injection heq with heq
      injection heq with hgroup
      exact (hsub g p hp).2 hgroup.symm
  · rw [List.flatMap_append, List.flatMap_singleton, List.nodup_append]
    refine ⟨h.once, ?_, ?_⟩
    · rw [List.nodup_iff_getElem?_ne_getElem?]
      intro i j hij hj heq
      have hk := List.getElem?_eq_getElem hj
      have hsame := (hplace i _ (heq.trans hk)).1.symm.trans (hplace j _ hk).1
      injection hsame with hsame
      injection hsame with _ hindex
      omega
    · rintro a ha b hb rfl
      obtain ⟨c, hc, hmem⟩ := List.mem_flatMap.mp ha
      obtain ⟨i, hi⟩ := List.mem_iff_getElem?.mp hb
      exact (hplace i a hi).2 c hc hmem
  · rcases List.mem_append.mp hc with hc | hc
    · exact hsub'.indexed c hc
    · cases List.mem_singleton.mp hc
      refine ⟨?_, fun i k hk => hcount ▸ (hplace i k hk).1⟩
      have hlen := List.reduceOption_length_eq_iff.mpr (List.all_eq_true.mp hall)
      exact hlen.trans (hfits.length.trans hcount)

end Keeping

/-! ## 6. The tombstones -/

/-- On a list where a test stays passed once it is, keeping what passes is dropping what comes
before. -/
theorem filter_eq_dropWhile {α : Type} {p : α → Bool} {l : List α}
    (h : l.Pairwise fun a b => p a = true → p b = true) :
    l.filter p = l.dropWhile fun a => !p a := by
  induction l with
  | nil => rfl
  | cons a l ih =>
    obtain ⟨hfirst, hrest⟩ := List.pairwise_cons.mp h
    cases ha : p a with
    | true =>
      rw [List.filter_cons_of_pos ha, List.dropWhile_cons_of_neg (by simp [ha]),
        List.filter_eq_self.mpr fun b hb => hfirst b hb ha]
    | false =>
      rw [List.filter_cons_of_neg (by simp [ha]), List.dropWhile_cons_of_pos (by simp [ha]),
        ih hrest]

/-- **What is remembered of the releases**: a suffix of them, without the ones that expired or that
512 others follow. -/
structure Recalls (released releases : List (Nat × Nat)) (now : Nat) : Prop where
  suffix : released <:+ releases
  dropped : ∀ (i : Nat) (e : Nat × Nat), releases[i]? = some e →
    i + released.length < releases.length →
      i + maxReleasedGroups < releases.length ∨ stripeGroupTtl ≤ now - e.2
  ordered : releases.Pairwise fun a b => a.2 ≤ b.2
  past : ∀ e ∈ releases, e.2 ≤ now

namespace Recalls

variable {released releases : List (Nat × Nat)} {now t group : Nat}

/-- An entry of a suffix, from the end of the list. -/
theorem getElem?_suffix {α : Type} {l l' : List α} (h : l <:+ l') (i : Nat) :
    l[i]? = l'[i + (l'.length - l.length)]? := by
  obtain ⟨head, rfl⟩ := h
  rw [List.length_append, Nat.add_sub_cancel, List.getElem?_append_right (Nat.le_add_left _ _),
    Nat.add_sub_cancel]

/-- The expired ones in front go, as time goes on. -/
theorem reap (h : Recalls released releases now) (hnow : now ≤ t) :
    Recalls (released.dropWhile fun e => stripeGroupTtl ≤ t - e.2) releases t := by
  refine ⟨(List.dropWhile_suffix _).trans h.suffix, fun i e he hlt => ?_, h.ordered,
    fun e he => Nat.le_trans (h.past e he) hnow⟩
  by_cases hgone : i + released.length < releases.length
  · rcases h.dropped i e he hgone with hfar | hold
    · exact .inl hfar
    · exact .inr (Nat.le_trans hold (Nat.sub_le_sub_right hnow _))
  · -- the entry was remembered, in front of what is left
    have hle := h.suffix.length_le
    obtain ⟨j, rfl⟩ : ∃ j, i = j + (releases.length - released.length) :=
      ⟨_, (Nat.sub_add_cancel (by omega)).symm⟩
    rw [← getElem?_suffix h.suffix] at he
    have hsplit := List.takeWhile_append_dropWhile
      (p := fun e : Nat × Nat => stripeGroupTtl ≤ t - e.2) (l := released)
    have hlen := congrArg List.length hsplit
    rw [List.length_append] at hlen
    rw [← hsplit, List.getElem?_append_left (by omega)] at he
    have hexpired := List.mem_takeWhile_imp (List.mem_of_getElem? he)
    exact .inr (of_decide_eq_true hexpired)

/-- The next release is remembered. -/
theorem push (h : Recalls released releases t) (group : Nat) :
    Recalls (released ++ [(group, t)]) (releases ++ [(group, t)]) t := by
  refine ⟨?_, fun i e he hlt => ?_, ?_, fun e he => ?_⟩
  · obtain ⟨head, rfl⟩ := h.suffix
    exact ⟨head, (List.append_assoc ..).symm⟩
  · simp only [List.length_append, List.length_singleton] at hlt ⊢
    rw [List.getElem?_append_left (by omega)] at he
    rcases h.dropped i e he (by omega) with hfar | hold
    · exact .inl (by omega)
    · exact .inr hold
  · refine List.pairwise_append.mpr ⟨h.ordered, List.pairwise_singleton _ _, fun a ha b hb => ?_⟩
    rw [List.mem_singleton.mp hb]
    exact h.past a ha
  · rcases List.mem_append.mp he with he | he
    · exact h.past e he
    · rw [List.mem_singleton.mp he]

/-- No more than 512 are. -/
theorem cap (h : Recalls released releases now) :
    Recalls (released.drop (released.length - maxReleasedGroups)) releases now := by
  refine ⟨(List.drop_suffix _ _).trans h.suffix, fun i e he hlt => ?_, h.ordered, h.past⟩
  rw [List.length_drop] at hlt
  by_cases hmany : maxReleasedGroups < released.length
  · exact .inl (by omega)
  · exact h.dropped i e he (by omega)

/-- A release within its time that fewer than 512 follow is remembered. -/
theorem mem (h : Recalls released releases now) {i time : Nat}
    (hi : releases[i]? = some (group, time)) (htime : now - time < stripeGroupTtl)
    (hlate : releases.length ≤ i + maxReleasedGroups) : (group, time) ∈ released := by
  have hkept : ¬ i + released.length < releases.length := by
    intro hlt
    rcases h.dropped i _ hi hlt with hfar | hold
    · omega
    · exact absurd hold (by omega)
  have hle := h.suffix.length_le
  refine List.mem_iff_getElem?.mpr ⟨i - (releases.length - released.length), ?_⟩
  rw [getElem?_suffix h.suffix, Nat.sub_add_cancel (by omega)]
  exact hi

/-- `release`. -/
theorem release {S T : Type} {r : StripeGroups S T} (h : Recalls r.released releases now)
    (hnow : now ≤ t) (group : Nat) :
    Recalls (r.release t group).1.released (releases ++ [(group, t)]) t := by
  have hordered : r.released.Pairwise fun a b =>
      decide (t - a.2 < stripeGroupTtl) = true → decide (t - b.2 < stripeGroupTtl) = true := by
    refine (h.ordered.sublist h.suffix.sublist).imp fun {a b} hab ha => ?_
    rw [decide_eq_true_eq] at ha ⊢
    omega
  have heq : (r.released.dropWhile fun e => stripeGroupTtl ≤ t - e.2) =
      r.released.filter fun e => t - e.2 < stripeGroupTtl := by
    rw [filter_eq_dropWhile hordered]
    congr 1
    funext e
    rw [← decide_not, decide_eq_decide, Nat.not_lt]
  have hreap := h.reap hnow
  rw [heq] at hreap
  dsimp only [StripeGroups.release]
  exact (hreap.push group).cap

end Recalls

/-! ## 7. The runs -/

namespace Traced

variable {T : Type} {s s' : Traced T} {t : Nat} {o : Offer} {target : T}

/-- **What every run keeps.** -/
structure Holds (s : Traced T) : Prop where
  kept : Kept s.registry.groups s.offers s.handed
  recalls : Recalls s.registry.released s.releases s.now

/-- What a `register` answers: it fails at its metadata or in its group, it is dropped, or it finds
its place. -/
theorem registerAt_cases (s : Traced T) (t : Nat) (o : Offer) (target : T) :
    (∃ message, s.registerAt t o target = (s.registry, .error message)) ∨
    s.registerAt t o target = (s.registry.reap t, .ok none) ∨
    (((s.registry.reap t).released.any fun e => e.1 = o.group) = false ∧
      (s.registry.reap t).Parked t o.group o.index o.count s.offers.length target
        (s.registerAt t o target)) := by
  unfold registerAt StripeGroups.register
  split
  case isTrue => exact .inl ⟨_, rfl⟩
  case isFalse hvalid =>
    dsimp only
    split
    case isTrue => exact .inr (.inl rfl)
    case isFalse hno =>
      exact .inr (.inr ⟨Bool.eq_false_iff.mpr hno, StripeGroups.parked (not_not.mp hvalid).2 _⟩)

/-- The tombstones after a `register`. -/
theorem Holds.recalls_register (h : s.Holds) (hnow : s.now ≤ t) (o : Offer) (target : T) :
    Recalls (s.registerAt t o target).1.released s.releases t := by
  have hlater : Recalls s.registry.released s.releases t :=
    ⟨h.recalls.suffix, fun i e he hlt => (h.recalls.dropped i e he hlt).imp_right
      fun hold => Nat.le_trans hold (Nat.sub_le_sub_right hnow _), h.recalls.ordered,
      fun e he => Nat.le_trans (h.recalls.past e he) hnow⟩
  have hreap : Recalls (s.registry.reap t).released s.releases t := h.recalls.reap hnow
  rcases registerAt_cases s t o target with ⟨message, heq⟩ | heq | ⟨-, hparked⟩
  · rw [heq]
    exact hlater
  · rw [heq]
    exact hreap
  · generalize s.registerAt t o target = answer at hparked
    cases hparked with
    | refused message => exact hreap
    | waits _ _ _ hreleased _ => rw [hreleased]; exact hreap
    | completes _ _ _ hreleased _ _ => rw [hreleased]; exact hreap

/-- The channels after a `register`. -/
theorem Holds.kept_register (h : s.Holds) (o : Offer) (target : T) (t : Nat) :
    Kept (s.registerAt t o target).1.groups (s.offers ++ [o])
      (match (s.registerAt t o target).2 with
        | .ok (some complete) => s.handed ++ [⟨o.group, o.count, complete⟩]
        | _ => s.handed) := by
  have hreap : Kept (s.registry.reap t).groups (s.offers ++ []) s.handed :=
    h.kept.sub (fun g p hp => StripeGroups.lookup_of_reap hp) []
  rw [List.append_nil] at hreap
  rcases registerAt_cases s t o target with ⟨message, heq⟩ | heq | ⟨-, hparked⟩
  · rw [heq]
    exact h.kept.sub (fun g p hp => hp) [o]
  · rw [heq]
    exact hreap.sub (fun g p hp => hp) [o]
  · generalize s.registerAt t o target = answer at hparked
    cases hparked with
    | refused message => exact hreap.sub (fun g p hp => hp) [o]
    | @waits r' entry henters hcount hfree hreleased hlookup =>
      have hfits := (hreap.enters henters).filled (fun c hc => hreap.fresh hc) o.index
      rw [hcount] at hfits
      have hsub := hreap.sub (fun g p hp => hp) [o]
      refine ⟨fun g p hp => ?_, hsub.once, hsub.indexed⟩
      dsimp only at hp
      rw [hlookup] at hp
      split at hp
      case isTrue heq =>
        cases hp
        rw [heq]
        exact hfits
      case isFalse => exact hsub.fits g p hp
    | @completes r' entry henters hcount hfree hreleased hlookup hall =>
      have hfits := (hreap.enters henters).filled (fun c hc => hreap.fresh hc) o.index
      rw [hcount] at hfits
      refine hreap.hand (fun g p hp => ?_) hfits hcount hall
      dsimp only at hp
      rw [hlookup] at hp
      split at hp
      case isTrue => cases hp
      case isFalse hne => exact ⟨hp, hne⟩

/-- **One call.** -/
theorem Holds.step {e : Nat × RegistryEvent T} (h : s.Holds) (hs : s.step e = some s') :
    s'.Holds := by
  obtain ⟨t, event⟩ := e
  cases event with
  | register o target =>
    simp only [Traced.step, Option.ite_none_right_eq_some, Option.some.injEq] at hs
    obtain ⟨hnow, rfl⟩ := hs
    exact ⟨h.kept_register o target t, h.recalls_register hnow o target⟩
  | release group =>
    simp only [Traced.step, Option.ite_none_right_eq_some, Option.some.injEq] at hs
    obtain ⟨hnow, rfl⟩ := hs
    refine ⟨?_, h.recalls.release hnow group⟩
    have hkept : ∀ g p, (s.registry.release t group).1.groups.lookup g = some p →
        s.registry.groups.lookup g = some p := by
      intro g p hp
      dsimp only [StripeGroups.release] at hp
      exact (Table.lookup_of_erase hp).2
    have hsub := h.kept.sub hkept []
    rwa [List.append_nil] at hsub

/-- A channel that is refused changes no group. -/
theorem refused_changes_nothing {message : String}
    (h : (s.registerAt t o target).2 = .error message) :
    (∀ g p, s.registry.groups.lookup g = some p → t - p.started < stripeGroupTtl →
      (s.registerAt t o target).1.groups.lookup g = some p) ∧
    ∀ g p, (s.registerAt t o target).1.groups.lookup g = some p →
      s.registry.groups.lookup g = some p := by
  rcases registerAt_cases s t o target with ⟨_, heq⟩ | heq | ⟨-, hparked⟩
  · rw [heq]
    exact ⟨fun g p hp _ => hp, fun g p hp => hp⟩
  · rw [heq] at h
    cases h
  · generalize s.registerAt t o target = answer at hparked h
    cases hparked with
    | refused message =>
      refine ⟨fun g p hp hyoung => ?_, fun g p hp => StripeGroups.lookup_of_reap hp⟩
      rw [StripeGroups.lookup_reap, Option.filter_eq_some_iff]
      exact ⟨hp, decide_eq_true hyoung⟩
    | waits => cases h
    | completes => cases h

/-- A channel of a group whose release is remembered is dropped. -/
theorem Holds.released_dropped (h : s.Holds) (hnow : s.now ≤ t) (hrem : s.Remembers t o.group) :
    ¬ (s.registerAt t o target).1.Parks s.offers.length ∧
      ∀ complete, (s.registerAt t o target).2 ≠ .ok (some complete) := by
  obtain ⟨i, time, hi, htime, hlate⟩ := hrem
  have hmem := (h.recalls.reap hnow).mem hi htime hlate
  have hfree : ∀ groups : Table Nat (PartialGroup Nat T),
      (∀ g p, groups.lookup g = some p → s.registry.groups.lookup g = some p) →
      ¬ (⟨groups, s.registry.released⟩ : StripeGroups Nat T).Parks s.offers.length := by
    rintro groups hsub ⟨g, p, j, hp, hj⟩
    have hoffer := ((h.kept.fits g p (hsub g p hp)).parked j _ hj).1
    exact Nat.lt_irrefl _ (List.getElem?_eq_some_iff.mp hoffer).1
  rcases registerAt_cases s t o target with ⟨message, heq⟩ | heq | ⟨hno, -⟩
  · rw [heq]
    exact ⟨hfree _ fun g p hp => hp, fun _ hc => by cases hc⟩
  · rw [heq]
    exact ⟨hfree _ fun g p hp => StripeGroups.lookup_of_reap hp, fun _ hc => by cases hc⟩
  · have hyes : ((s.registry.reap t).released.any fun e => e.1 = o.group) = true :=
      List.any_eq_true.mpr ⟨(o.group, time), hmem, decide_eq_true rfl⟩
    rw [hyes] at hno
    cases hno

end Traced

/-- **The registry.**  In every run of its calls, in any order and with any ids, counts and
indices: no channel is handed out twice; a complete group has exactly its count of channels, each
the one whose command named its index; a channel that is refused changes no group that has not
expired; and a channel of a group that was released within the retention time, with fewer than 512
releases after that one, is neither parked nor handed out. -/
theorem groups_sound {T : Type} {s : Traced T} (h : (stripeGroups T).Reach s) : s.Sound := by
  have hholds : s.Holds := by
    refine h.invariant ?_ fun s e s' hs hstep => hs.step hstep
    rintro s rfl
    refine ⟨⟨fun g p hp => ?_, List.nodup_nil, fun h hh => absurd hh List.not_mem_nil⟩,
      ⟨List.suffix_rfl, fun i e he => ?_, List.Pairwise.nil,
        fun e he => absurd he List.not_mem_nil⟩⟩
    · cases hp
    · cases he
  exact ⟨hholds.kept.once, hholds.kept.indexed,
    fun t o target message => Traced.refused_changes_nothing, fun t o target => hholds.released_dropped⟩

/-- The stripes of a group of two come in the wrong order, one of them twice and one with another
count, and a stripe of a group that was released. -/
def mixedCalls : List (Nat × RegistryEvent Unit) :=
  [(0, .release 9), (10, .register ⟨7, 1, 2⟩ ()), (20, .register ⟨7, 1, 2⟩ ()),
    (20, .register ⟨7, 0, 3⟩ ()), (30, .register ⟨9, 0, 1⟩ ()), (40, .register ⟨7, 0, 2⟩ ())]

theorem groups_sound_mixed :
    ∃ s : Traced Unit, (stripeGroups Unit).Reach s ∧ s.handed = [⟨7, 2, ⟨[4, 0], ()⟩⟩] ∧
      s.Sound := by
  have hrun : (Lts.runWith Traced.step (fun _ _ => true) (.new : Traced Unit) mixedCalls).any
      (fun s => decide (s.handed = [⟨7, 2, ⟨[4, 0], ()⟩⟩])) = true := by
    decide +kernel
  obtain ⟨s, hs, hhanded⟩ := Lts.Reach.exists_run (T := stripeGroups Unit) (fun _ _ _ h => h)
    (s := .new) rfl hrun
  exact ⟨s, hs, of_decide_eq_true hhanded, groups_sound hs⟩

/-- The groups `0` to `n - 1` released in one millisecond. -/
theorem exists_flood (n : Nat) :
    ∃ s : Traced Unit, (stripeGroups Unit).Reach s ∧ s.now = 0 ∧ s.offers = [] ∧
      s.registry.groups = ∅ ∧ s.releases = (List.range n).map (fun g => (g, 0)) ∧
      s.registry.released = s.releases.drop (n - maxReleasedGroups) := by
  induction n with
  | zero => exact ⟨.new, .init rfl, rfl, rfl, rfl, rfl, rfl⟩
  | succ n ih =>
    obtain ⟨s, hs, hnow, hoffers, hgroups, hreleases, hreleased⟩ := ih
    have hstep : s.step (0, .release n) = some
        { s with
          registry := (s.registry.release 0 n).1
          now := 0
          releases := s.releases ++ [(n, 0)] } := by
      simp only [Traced.step, hnow, Nat.le_refl, if_true]
    refine ⟨_, hs.step hstep, rfl, hoffers, ?_, ?_, ?_⟩
    · dsimp only [StripeGroups.release]
      rw [hgroups]
      rfl
    · dsimp only
      rw [hreleases, List.range_succ, List.map_append]
      rfl
    · have hkept : (s.registry.released.filter fun e => 0 - e.2 < stripeGroupTtl) =
          s.registry.released :=
        List.filter_eq_self.mpr fun e _ => decide_eq_true (by rw [Nat.zero_sub]; decide)
      have hlen : s.releases.length = n := by rw [hreleases, List.length_map, List.length_range]
      dsimp only [StripeGroups.release]
      rw [hkept, hreleased]
      simp only [List.length_append, List.length_drop, List.length_singleton, hlen]
      by_cases hfew : n < maxReleasedGroups
      · rw [Nat.sub_eq_zero_of_le hfew, Nat.sub_eq_zero_of_le (Nat.le_of_lt hfew)]
        rw [Nat.sub_zero, Nat.sub_eq_zero_of_le hfew]
        rfl
      · have hsum : n - maxReleasedGroups + (n - (n - maxReleasedGroups) + 1 - maxReleasedGroups) =
            n + 1 - maxReleasedGroups := by omega
        rw [← List.drop_append_of_le_length (by omega), List.drop_drop, hsum]

/-- **A release is forgotten early**: a stripe of a group that was released in the same millisecond
is parked, because 512 releases came after that one. -/
theorem released_forgotten :
    ∃ s : Traced Unit, (stripeGroups Unit).Reach s ∧ s.now = 0 ∧ s.releases[0]? = some (0, 0) ∧
      (s.registerAt 0 ⟨0, 0, 2⟩ ()).1.Parks s.offers.length := by
  obtain ⟨s, hs, hnow, hoffers, hgroups, hreleases, hreleased⟩ := exists_flood 513
  have hlist : s.releases = (0, 0) :: (List.range 512).map fun g => (g + 1, 0) := by
    rw [hreleases, List.range_succ_eq_map, List.map_cons, List.map_map]
    rfl
  have hfirst : s.releases[0]? = some (0, 0) := by
    rw [hlist]
    rfl
  have hany : ((s.registry.reap 0).released.any fun e => e.1 = 0) = false := by
    rw [List.any_eq_false]
    intro e he
    have hmem := (List.dropWhile_suffix _).subset he
    rw [hreleased, hlist] at hmem
    obtain ⟨g, -, rfl⟩ := List.mem_map.mp hmem
    simp
  refine ⟨s, hs, hnow, hfirst, 0, ⟨2, [some 0, none], (), 0⟩, 0, ?_, ?_⟩
  · have hempty : (s.registry.reap 0).groups.lookup 0 = none := by
      rw [StripeGroups.lookup_reap, hgroups]
      rfl
    rw [Traced.registerAt, StripeGroups.register, if_neg (by decide)]
    dsimp only
    rw [hany, if_neg (by decide), StripeGroups.park, StripeGroups.enter, hempty, hoffers]
    exact AList.lookup_insert _
  · rw [hoffers]
    rfl

end Molehill.Stripe
