/-
# The UDP worker pool: affinity, ids and replacements

Four structures have to agree: the worker map, the routes, the spawn map and the retiring set.  The
pool loop writes all of them; a worker's guard takes its own entry out of the map, looks at the
shutdown flag, and takes its id out of the retiring set, each at a moment of its own
(`UdpWorkerGuard::drop`, `core/server.rs`).

A peer's datagrams stay with one worker as long as it is live, and a retirement leaves a worker and
touches none that a route names, whatever the order of these moments.  The replacements need more
(`affinity_kept`): no guard looks at the flag between the shutdown signal and the pool loop's answer
to it, no retire tick takes the id of a worker whose guard is on its way to the retiring set, and
the id counter, which is also the cursor of the round robin, has not come around.  Without the
first, a worker that saw the signal asks for a replacement, and without the second, a worker that
ended on its own gets none (`replacement_wrong`).
-/
import Molehill.Server.UdpCeiling
import Molehill.Server.UdpRetirement

namespace Molehill.Server.Udp

open Lib Function

/-! ## 1. The condition -/

namespace Pool

variable {Peer : Type}

/-- The steps after which every exit is answered as it should be. -/
def settles (s : Pool Peer) : Event Peer → Bool
  -- a guard looks at the flag: no shutdown has begun, or the pool loop has noticed it
  | .check _ => !s.signalled || s.shuttingDown
  -- no worker between its guard's first access and its last has the highest id to retire
  | .retire => s.workers.keys.length ≤ 1 || s.tasks.all fun w =>
      !w.owes || !s.retirable.contains w.id || s.retirable.any (w.id < ·)
  -- the counter does not come around
  | .channel _ => s.next + 1 < usize
  | .datagram _ _ => s.next + 1 < usize
  | _ => true

/-! ## 2. Where every worker stands -/

/-- The pool retired the worker. -/
def Retired (s : Pool Peer) (k : Nat) : Prop := ∃ r ∈ s.retirements, r.worker = some k

/-- **Where a worker stands**, and what its guard has asked for. -/
inductive Standing (s : Pool Peer) (k : Nat) (w : Worker Peer) : Prop
  | inMap (hstage : w.stage = .serving ∨ w.stage = .leaving) (hmap : s.workers.lookup w.id = some k)
    (hret : ¬ s.Retired k) (hfree : w.id ∉ s.retiring) (hasked : w.asked = 0)
  | letGo (hstage : w.stage = .serving ∨ w.stage = .leaving) (hmap : s.workers.lookup w.id = none)
    (hret : s.Retired k) (hasked : w.asked = 0)
  /-- Its guard is on its way. -/
  | owing (howes : w.owes = true) (hexit : w.stage = .asking → w.exit = some .unexpected)
    (hmap : s.workers.lookup w.id = none) (hret : ¬ s.Retired k) (hfree : w.id ∉ s.retiring)
    (hasked : w.asked = 0)
  | released (hstage : w.stage = .over) (hexit : w.exit = some .released)
    (hmap : s.workers.lookup w.id = none) (hret : s.Retired k) (hasked : w.asked = 0)
  | shutdown (hstage : w.stage = .over) (hexit : w.exit = some .shutdown)
    (hmap : s.workers.lookup w.id = none) (hret : ¬ s.Retired k) (hasked : w.asked = 0)
  | replaced (hstage : w.stage = .over) (hexit : w.exit = some .unexpected)
    (hmap : s.workers.lookup w.id = none) (hret : ¬ s.Retired k) (hasked : w.asked = 1)

/-- **The four structures agree.** -/
structure Sound (s : Pool Peer) : Prop where
  issued : s.issued = s.tasks.map Worker.id
  nodup : s.issued.Nodup
  below : ∀ id ∈ s.issued, id < s.next
  mapped : ∀ id k, s.workers.lookup id = some k → ∃ w, s.tasks[k]? = some w ∧ w.id = id
  spawned : ∀ id t, s.spawned.lookup id = some t → id ∈ s.issued
  retiring : ∀ id ∈ s.retiring, id ∈ s.issued
  retired : ∀ k, s.Retired k → k < s.tasks.length
  standing : ∀ (k : Nat) (w : Worker Peer), s.tasks[k]? = some w → Standing s k w

variable {s s' : Pool Peer} {e : Event Peer}

theorem Sound.mem_issued (h : s.Sound) {k : Nat} {w : Worker Peer} (hw : s.tasks[k]? = some w) :
    w.id ∈ s.issued := by
  rw [h.issued]
  exact List.mem_map_of_mem (List.mem_of_getElem? hw)

theorem Sound.index_eq (h : s.Sound) {j k : Nat} {v w : Worker Peer} (hv : s.tasks[j]? = some v)
    (hw : s.tasks[k]? = some w) (hid : v.id = w.id) : j = k := by
  have hnodup := h.nodup
  rw [h.issued] at hnodup
  obtain ⟨hj, -⟩ := List.getElem?_eq_some_iff.mp hv
  refine (List.getElem?_inj (by rwa [List.length_map]) hnodup).mp ?_
  rw [List.getElem?_map, List.getElem?_map, hv, hw, Option.map_some, Option.map_some, hid]

/-- What a worker's standing depends on. -/
theorem Standing.congr {k : Nat} {w : Worker Peer} (h : Standing s k w)
    (hmap : s'.workers.lookup w.id = s.workers.lookup w.id) (hret : s'.Retired k ↔ s.Retired k)
    (hfree : w.id ∈ s'.retiring → w.id ∈ s.retiring) : Standing s' k w := by
  cases h with
  | inMap h1 h2 h3 h4 h5 =>
    exact .inMap h1 (hmap.trans h2) (hret.not.mpr h3) (fun h => h4 (hfree h)) h5
  | letGo h1 h2 h3 h4 => exact .letGo h1 (hmap.trans h2) (hret.mpr h3) h4
  | owing h1 h2 h3 h4 h5 h6 =>
    exact .owing h1 h2 (hmap.trans h3) (hret.not.mpr h4) (fun h => h5 (hfree h)) h6
  | released h1 h2 h3 h4 h5 => exact .released h1 h2 (hmap.trans h3) (hret.mpr h4) h5
  | shutdown h1 h2 h3 h4 h5 => exact .shutdown h1 h2 (hmap.trans h3) (hret.not.mpr h4) h5
  | replaced h1 h2 h3 h4 h5 => exact .replaced h1 h2 (hmap.trans h3) (hret.not.mpr h4) h5

/-- A step that touches none of it. -/
theorem Sound.still (h : s.Sound) (hworkers : s'.workers = s.workers)
    (hspawned : s'.spawned = s.spawned) (hretiring : s'.retiring = s.retiring)
    (hnext : s.next ≤ s'.next) (htasks : s'.tasks = s.tasks) (hissued : s'.issued = s.issued)
    (hretirements : s'.retirements = s.retirements) : s'.Sound := by
  have hret : ∀ k, s'.Retired k ↔ s.Retired k := by
    intro k
    rw [Retired, Retired, hretirements]
  refine ⟨?_, ?_, ?_, ?_, ?_, ?_, ?_, ?_⟩
  · rw [hissued, htasks]
    exact h.issued
  · rw [hissued]
    exact h.nodup
  · rw [hissued]
    exact fun id hid => Nat.lt_of_lt_of_le (h.below id hid) hnext
  · rw [hworkers, htasks]
    exact h.mapped
  · rw [hspawned, hissued]
    exact h.spawned
  · rw [hretiring, hissued]
    exact h.retiring
  · intro k hk
    rw [htasks]
    exact h.retired k ((hret k).mp hk)
  · intro k w hw
    rw [htasks] at hw
    refine (h.standing k w hw).congr (by rw [hworkers]) (hret k) ?_
    rw [hretiring]
    exact id

/-- One worker moves on, and nothing but its own entry leaves the map. -/
theorem Sound.moved (h : s.Sound) {k : Nat} {w : Worker Peer} (w' : Worker Peer)
    (hw : s.tasks[k]? = some w) (hid : w'.id = w.id) (htasks : s'.tasks = s.tasks.set k w')
    (hsub : ∀ id j, s'.workers.lookup id = some j → s.workers.lookup id = some j)
    (hother : ∀ id, id ≠ w.id → s'.workers.lookup id = s.workers.lookup id)
    (hspawned : s'.spawned = s.spawned) (hretiring : s'.retiring = s.retiring)
    (hnext : s.next ≤ s'.next) (hissued : s'.issued = s.issued)
    (hretirements : s'.retirements = s.retirements) (hst : Standing s' k w') : s'.Sound := by
  obtain ⟨hk, hwk⟩ := List.getElem?_eq_some_iff.mp hw
  have hret : ∀ j, s'.Retired j ↔ s.Retired j := by
    intro j
    rw [Retired, Retired, hretirements]
  refine ⟨?_, ?_, ?_, ?_, ?_, ?_, ?_, ?_⟩
  · have hself : (s.tasks.map Worker.id).set k w.id = s.tasks.map Worker.id := by
      rw [← hwk, ← List.map_set, List.set_getElem_self]
    rw [hissued, htasks, List.map_set, hid, h.issued, hself]
  · rw [hissued]
    exact h.nodup
  · rw [hissued]
    exact fun id hid => Nat.lt_of_lt_of_le (h.below id hid) hnext
  · intro id j hj
    obtain ⟨v, hv, hvid⟩ := h.mapped id j (hsub id j hj)
    rw [htasks]
    by_cases hjk : j = k
    · subst hjk
      rw [hw] at hv
      cases hv
      exact ⟨w', List.getElem?_set_self hk, hid.trans hvid⟩
    · exact ⟨v, (List.getElem?_set_ne (Ne.symm hjk)).trans hv, hvid⟩
  · rw [hspawned, hissued]
    exact h.spawned
  · rw [hretiring, hissued]
    exact h.retiring
  · intro j hj
    rw [htasks, List.length_set]
    exact h.retired j ((hret j).mp hj)
  · intro j v hv
    by_cases hjk : j = k
    · subst hjk
      rw [htasks, List.getElem?_set_self hk] at hv
      cases hv
      exact hst
    · rw [htasks, List.getElem?_set_ne (Ne.symm hjk)] at hv
      refine (h.standing j v hv).congr (hother v.id ?_) (hret j) (by rw [hretiring]; exact fun h => h)
      exact fun heq => hjk (h.index_eq hv hw heq)

/-! ## 3. The workers' steps -/

/-- A worker stands as before when only its queue, or the stage within its loop's end, changes. -/
theorem Sound.setTask (h : s.Sound) {k : Nat} {w w' : Worker Peer} (hw : s.tasks[k]? = some w)
    (hid : w'.id = w.id) (hst : Standing s k w') : (s.setTask k w').Sound :=
  h.moved w' hw hid rfl (fun _ _ h => h) (fun _ _ => rfl) rfl rfl (Nat.le_refl _) rfl rfl
    (hst.congr rfl Iff.rfl fun h => h)

/-- The queue is no part of a worker's standing. -/
theorem Standing.setQueue {k : Nat} {w : Worker Peer} (h : Standing s k w) (queue : List Peer) :
    Standing s k { w with queue := queue } := by
  cases h with
  | inMap h1 h2 h3 h4 h5 => exact .inMap h1 h2 h3 h4 h5
  | letGo h1 h2 h3 h4 => exact .letGo h1 h2 h3 h4
  | owing h1 h2 h3 h4 h5 h6 => exact .owing h1 h2 h3 h4 h5 h6
  | released h1 h2 h3 h4 h5 => exact .released h1 h2 h3 h4 h5
  | shutdown h1 h2 h3 h4 h5 => exact .shutdown h1 h2 h3 h4 h5
  | replaced h1 h2 h3 h4 h5 => exact .replaced h1 h2 h3 h4 h5

/-- The worker leaves its loop. -/
theorem Sound.leave (h : s.Sound) {k : Nat} {w : Worker Peer} (hw : s.tasks[k]? = some w)
    (hstage : w.stage = .serving) : (s.setTask k { w with stage := .leaving }).Sound := by
  refine h.setTask hw rfl ?_
  cases h.standing k w hw with
  | inMap _ h2 h3 h4 h5 => exact .inMap (.inr rfl) h2 h3 h4 h5
  | letGo _ h2 h3 h4 => exact .letGo (.inr rfl) h2 h3 h4
  | owing howes => simp [Worker.owes, hstage] at howes
  | released hover | shutdown hover | replaced hover =>
    rw [hstage] at hover
    cases hover

/-- The guard's first access. -/
theorem Sound.guardRemove (h : s.Sound) {k : Nat} {w : Worker Peer} (hw : s.tasks[k]? = some w)
    (hs : s.guardRemove k w = some s') : s'.Sound := by
  have hst := h.standing k w hw
  unfold Pool.guardRemove at hs
  split at hs
  case h_1 j hstage hj =>
    cases hs
    -- only a worker that was not retired finds its entry
    cases hst with
    | inMap _ hmap hret hfree hasked =>
      refine h.moved { w with stage := .removed } hw rfl rfl ?_ ?_ rfl rfl (Nat.le_refl _) rfl rfl
        ?_
      · intro id j hj
        exact (Table.lookup_of_erase hj).2
      · intro id hid
        exact AList.lookup_erase_ne hid
      · exact .owing rfl (fun hasking => (by cases hasking)) (AList.lookup_erase _ _) hret hfree
          hasked
    | letGo _ hnone | owing _ _ hnone | released _ _ hnone | shutdown _ _ hnone
    | replaced _ _ hnone =>
      rw [hnone] at hj
      cases hj
  case h_2 hstage hnone =>
    cases hs
    refine h.setTask hw rfl ?_
    cases hst with
    | inMap _ hmap =>
      rw [hnone] at hmap
      cases hmap
    | letGo _ hmap hret hasked => exact .released rfl rfl hmap hret hasked
    | owing howes => simp [Worker.owes, hstage] at howes
    | released hover | shutdown hover | replaced hover =>
      rw [hstage] at hover
      cases hover
  case h_3 => cases hs

/-- Its second, once the pool loop has noticed a shutdown that has begun. -/
theorem Sound.guardCheck (h : s.Sound) {k : Nat} {w : Worker Peer} (hw : s.tasks[k]? = some w)
    (hseen : s.signalled = false ∨ s.shuttingDown = true) (hs : s.guardCheck k w = some s') :
    s'.Sound := by
  have hst := h.standing k w hw
  unfold Pool.guardCheck at hs
  split at hs
  case h_1 hstage =>
    cases hst with
    | owing howes hexit hmap hret hfree hasked =>
      split at hs
      case isTrue =>
        cases hs
        exact h.setTask hw rfl (.shutdown rfl rfl hmap hret hasked)
      case isFalse hnot =>
        cases hs
        refine h.setTask hw rfl (.owing rfl (fun _ => ?_) hmap hret hfree hasked)
        rcases hseen with hno | hyes
        · simp [hno]
        · exact absurd hyes hnot
    | inMap hloop | letGo hloop => rw [hstage] at hloop; simp at hloop
    | released hover | shutdown hover | replaced hover =>
      rw [hstage] at hover
      cases hover
  case h_2 => cases hs

/-- Its last: the id is not in the retiring set, and the guard asks once. -/
theorem Sound.guardAsk (h : s.Sound) {k : Nat} {w : Worker Peer} (hw : s.tasks[k]? = some w)
    (hs : s.guardAsk k w = some s') : s'.Sound := by
  have hst := h.standing k w hw
  unfold Pool.guardAsk at hs
  split at hs
  case h_1 hstage =>
    cases hst with
    | owing howes hexit hmap hret hfree hasked =>
      rw [if_neg (by simpa using hfree)] at hs
      cases hs
      have hset : (s.setTask k { w with stage := .over, asked := w.asked + 1 }).Sound :=
        h.setTask hw rfl (.replaced rfl (hexit hstage) hmap hret (by simp [hasked]))
      exact hset.still rfl rfl rfl (Nat.le_refl _) rfl rfl rfl
    | inMap hloop | letGo hloop => rw [hstage] at hloop; simp at hloop
    | released hover | shutdown hover | replaced hover =>
      rw [hstage] at hover
      cases hover
  case h_2 => cases hs

/-! ## 4. The pool loop's steps -/

/-- A new worker has an id that nobody had. -/
theorem Sound.spawnWorker (h : s.Sound) (hwrap : s.next + 1 < usize) : s.spawnWorker.Sound := by
  have hnext : s.spawnWorker.next = s.next + 1 := Nat.mod_eq_of_lt hwrap
  have hfresh : s.next ∉ s.issued := fun hmem => Nat.lt_irrefl _ (h.below _ hmem)
  have hlookup : ∀ id, s.spawnWorker.workers.lookup id =
      if id = s.next then some s.tasks.length else s.workers.lookup id :=
    fun id => Table.lookup_insert_eq ..
  refine ⟨?_, ?_, ?_, ?_, ?_, ?_, ?_, ?_⟩
  · have htasks : s.spawnWorker.tasks.map Worker.id = s.tasks.map Worker.id ++ [s.next] :=
      List.map_append
    rw [htasks, ← h.issued]
    rfl
  · refine List.nodup_append.mpr ⟨h.nodup, List.nodup_singleton _, ?_⟩
    rintro id hid id' hid' rfl
    rw [List.mem_singleton] at hid'
    exact hfresh (hid' ▸ hid)
  · intro id hid
    rw [hnext]
    rcases List.mem_append.mp hid with hid | hid
    · exact Nat.lt_succ_of_lt (h.below id hid)
    · rw [List.mem_singleton.mp hid]
      exact Nat.lt_succ_self _
  · intro id k hk
    rw [hlookup] at hk
    split at hk
    case isTrue hid =>
      cases hk
      exact ⟨_, List.getElem?_concat_length, hid.symm⟩
    case isFalse =>
      obtain ⟨w, hw, hid⟩ := h.mapped id k hk
      obtain ⟨hlt, -⟩ := List.getElem?_eq_some_iff.mp hw
      exact ⟨w, (List.getElem?_append_left hlt).trans hw, hid⟩
  · intro id t ht
    have hinsert : s.spawnWorker.spawned.lookup id = _ := Table.lookup_insert_eq ..
    rw [hinsert] at ht
    split at ht
    case isTrue hid => exact List.mem_append_right _ (List.mem_singleton.mpr hid)
    case isFalse => exact List.mem_append_left _ (h.spawned id t ht)
  · exact fun id hid => List.mem_append_left _ (h.retiring id hid)
  · intro k hk
    have hlt := h.retired k hk
    change k < (s.tasks ++ _).length
    rw [List.length_append]
    omega
  · intro k w hw
    change (s.tasks ++ _)[k]? = some w at hw
    rcases Nat.lt_trichotomy k s.tasks.length with hlt | rfl | hgt
    · rw [List.getElem?_append_left hlt] at hw
      refine (h.standing k w hw).congr ?_ Iff.rfl (fun hid => hid)
      have hne : w.id ≠ s.next := fun heq => hfresh (heq ▸ h.mem_issued hw)
      rw [hlookup, if_neg hne]
    · rw [List.getElem?_concat_length] at hw
      cases hw
      refine .inMap (.inl rfl) ?_ (fun hret => ?_) (fun hid => hfresh (h.retiring _ hid)) rfl
      · rw [hlookup, if_pos rfl]
      · exact Nat.lt_irrefl _ (h.retired _ hret)
    · rw [List.getElem?_eq_none (by rw [List.length_append]; exact hgt)] at hw
      cases hw

/-- A retirement lets go of the worker under the id it chose, if there is one. -/
theorem Sound.retireId (h : s.Sound) {id : Nat} (hmem : id ∈ s.retirable)
    (hidle : ∀ (k : Nat) (w : Worker Peer), s.tasks[k]? = some w → w.owes = true → w.id ≠ id) :
    (s.retireId id).Sound := by
  obtain ⟨-, t, ht, -⟩ := mem_retirable.mp hmem
  have hissued := h.spawned id t ht
  have hlookup : ∀ id', (s.retireId id).workers.lookup id' =
      if id' = id then none else s.workers.lookup id' := fun id' => Table.lookup_erase_eq ..
  have hret : ∀ k, (s.retireId id).Retired k ↔ s.Retired k ∨ s.workers.lookup id = some k := by
    intro k
    unfold Retired Pool.retireId
    simp only [List.mem_append, List.mem_singleton, or_and_right, exists_or, exists_eq_left]
    rfl
  have hretiring : ∀ id', id' ∈ (s.retireId id).retiring ↔ id' = id ∨ id' ∈ s.retiring :=
    fun id' => List.mem_insert_iff
  refine ⟨h.issued, h.nodup, h.below, ?_, ?_, ?_, ?_, ?_⟩
  · intro id' k hk
    rw [hlookup] at hk
    split at hk
    case isTrue => cases hk
    case isFalse => exact h.mapped id' k hk
  · intro id' t' ht'
    exact h.spawned id' t' (Table.lookup_of_erase ht').2
  · intro id' hid'
    rcases (hretiring id').mp hid' with rfl | hid'
    · exact hissued
    · exact h.retiring id' hid'
  · intro k hk
    rcases (hret k).mp hk with hk | hk
    · exact h.retired k hk
    · obtain ⟨w, hw, -⟩ := h.mapped id k hk
      exact (List.getElem?_eq_some_iff.mp hw).1
  · intro k w (hw : s.tasks[k]? = some w)
    have hst := h.standing k w hw
    by_cases hid : w.id = id
    · -- the worker that had the id: in the map, it is let go of; else it is no longer under way
      have hnone : (s.retireId id).workers.lookup w.id = none := by rw [hlookup, if_pos hid]
      cases hst with
      | inMap h1 hmap h3 h4 h5 => exact .letGo h1 hnone ((hret k).mpr (.inr (hid ▸ hmap))) h5
      | letGo h1 hmap h3 h4 => exact .letGo h1 hnone ((hret k).mpr (.inl h3)) h4
      | owing howes => exact absurd hid (hidle k w hw howes)
      | released h1 h2 hmap h4 h5 => exact .released h1 h2 hnone ((hret k).mpr (.inl h4)) h5
      | shutdown h1 h2 hmap h4 h5 =>
        refine .shutdown h1 h2 hnone ?_ h5
        rw [hret, ← hid, hmap]
        exact fun hor => hor.elim h4 nofun
      | replaced h1 h2 hmap h4 h5 =>
        refine .replaced h1 h2 hnone ?_ h5
        rw [hret, ← hid, hmap]
        exact fun hor => hor.elim h4 nofun
    · refine hst.congr (by rw [hlookup, if_neg hid]) ?_ ?_
      · rw [hret]
        refine or_iff_left fun hk => ?_
        obtain ⟨v, hv, hvid⟩ := h.mapped id k hk
        rw [hw] at hv
        cases hv
        exact hid hvid
      · rw [hretiring]
        exact fun hor => hor.resolve_left hid

variable [DecidableEq Peer]

/-- The cursor moves by one, or not at all. -/
theorem Routed.next {peer : Peer} {outcome : UdpRouteOutcome} (h : Routed s peer s' outcome) :
    s'.next = s.next ∨ s'.next = (s.next + 1) % usize := by
  have hreassign : ∀ id, (s.reassign peer id).next = (s.next + 1) % usize := by
    intro id
    unfold reassign
    cases s.routes.lookup peer <;> rfl
  cases h with
  | sticky | dropped => exact .inl rfl
  | noWorker => exact .inr rfl
  | refused id k w hk h => exact .inr (hreassign id)
  | assigned id k w hk h => exact .inr (hreassign id)

/-- A routed datagram changes no more than a queue. -/
theorem Sound.routed (h : s.Sound) {peer : Peer} {outcome : UdpRouteOutcome}
    (hr : Routed s peer s' outcome) (hwrap : s.next + 1 < usize) : s'.Sound := by
  have hsame := hr.sameSet
  have hnext : s.next ≤ s'.next := by
    rcases hr.next with heq | heq
    · exact Nat.le_of_eq heq.symm
    · rw [heq, Nat.mod_eq_of_lt hwrap]
      exact Nat.le_succ _
  rcases hsame.tasks with htasks | ⟨k, w, queue, hw, htasks⟩
  · exact h.still hsame.workers hsame.spawned hsame.retiring hnext htasks hsame.issued
      hsame.retirements
  · refine h.moved { w with queue := queue } hw rfl htasks ?_ ?_ hsame.spawned hsame.retiring hnext
      hsame.issued hsame.retirements ?_
    · rw [hsame.workers]
      exact fun _ _ h => h
    · rw [hsame.workers]
      exact fun _ _ => rfl
    · refine ((h.standing k w hw).setQueue queue).congr (by rw [hsame.workers]) ?_ ?_
      · rw [Retired, Retired, hsame.retirements]
      · rw [hsame.retiring]
        exact fun h => h

/-- **One step** that settles keeps the four structures in agreement. -/
theorem Sound.step (h : s.Sound) (hc : s.settles e = true) (hs : s.step e = some s') :
    s'.Sound := by
  cases e with
  | pass _ | signal | late =>
    cases hs
    exact h.still rfl rfl rfl (Nat.le_refl _) rfl rfl rfl
  | stop | read _ | connect _ | sweep =>
    simp only [Pool.step, Option.ite_none_right_eq_some, Option.some.injEq] at hs
    obtain ⟨-, rfl⟩ := hs
    exact h.still rfl rfl rfl (Nat.le_refl _) rfl rfl rfl
  | channel ok =>
    simp only [Pool.step, Option.ite_none_right_eq_some, Option.some.injEq] at hs
    obtain ⟨-, rfl⟩ := hs
    have htaken : { s with arrived := s.arrived - 1 }.Sound :=
      h.still rfl rfl rfl (Nat.le_refl _) rfl rfl rfl
    cases ok with
    | true => exact htaken.spawnWorker (of_decide_eq_true hc)
    | false => exact htaken
  | datagram peer order =>
    simp only [Pool.step, Option.ite_none_right_eq_some, Option.some.injEq] at hs
    obtain ⟨-, rfl⟩ := hs
    have hrouted := h.routed (Pool.routed s peer order) (of_decide_eq_true hc)
    unfold noteUdpPressure
    split
    · exact hrouted
    · exact hrouted.still rfl rfl rfl (Nat.le_refl _) rfl rfl rfl
  | tick =>
    simp only [Pool.step, Option.ite_none_right_eq_some, Option.some.injEq] at hs
    obtain ⟨-, rfl⟩ := hs
    unfold growthCheck
    split <;> exact h.still rfl rfl rfl (Nat.le_refl _) rfl rfl rfl
  | retire =>
    simp only [Pool.step, Option.ite_none_right_eq_some, Option.some.injEq] at hs
    obtain ⟨-, rfl⟩ := hs
    rw [retireIdle_eq]
    cases hchoice : s.choice with
    | none => exact h.still rfl rfl rfl (Nat.le_refl _) rfl rfl rfl
    | some id =>
      obtain ⟨hlen, hmem, hmax⟩ := choice_eq_some hchoice
      have hretired : (s.retireId id).Sound := by
        refine h.retireId hmem fun k w hw howes hid => ?_
        rw [settles, decide_eq_false (Nat.not_le.mpr hlen), Bool.false_or] at hc
        have hw' := List.all_eq_true.mp hc w (List.mem_of_getElem? hw)
        have hnot : s.retirable.any (w.id < ·) = false := by
          rw [List.any_eq_false]
          intro id' hid'
          have hle := hmax id' hid'
          simp only [decide_eq_true_eq]
          omega
        rw [hnot, howes, hid] at hw'
        simp [hmem] at hw'
      exact hretired.still rfl rfl rfl (Nat.le_refl _) rfl rfl rfl
  | forward k =>
    obtain ⟨w, hw, hs⟩ := Option.bind_eq_some_iff.mp hs
    unfold forward at hs
    split at hs
    case h_1 rest _ _ =>
      cases hs
      exact h.setTask hw rfl ((h.standing k w hw).setQueue _)
    case h_2 => cases hs
  | leave k cause =>
    obtain ⟨w, hw, hs⟩ := Option.bind_eq_some_iff.mp hs
    simp only [Pool.leave, Option.ite_none_right_eq_some, Option.some.injEq] at hs
    obtain ⟨⟨hstage, -⟩, rfl⟩ := hs
    exact h.leave hw hstage
  | remove k =>
    obtain ⟨w, hw, hs⟩ := Option.bind_eq_some_iff.mp hs
    exact h.guardRemove hw hs
  | check k =>
    obtain ⟨w, hw, hs⟩ := Option.bind_eq_some_iff.mp hs
    refine h.guardCheck hw ?_ hs
    simpa [settles] using hc
  | ask k =>
    obtain ⟨w, hw, hs⟩ := Option.bind_eq_some_iff.mp hs
    exact h.guardAsk hw hs

/-! ## 5. Where a peer's datagrams go -/

/-- **A peer's route leads to its home**, as long as the home is live. -/
structure Homed (s : Pool Peer) : Prop where
  below : ∀ peer k, s.homes peer = some k → k < s.tasks.length
  routed : ∀ peer k (w : Worker Peer), s.homes peer = some k → s.tasks[k]? = some w →
    s.workers.lookup w.id = some k →
    ∃ route, s.routes.lookup peer = some route ∧ route.worker = w.id
  splits : s.splits = []

omit [DecidableEq Peer] in
theorem live_iff {k : Nat} :
    s.live k = true ↔ ∃ w, s.tasks[k]? = some w ∧ s.workers.lookup w.id = some k := by
  rw [live, Option.any_eq_true]
  simp only [decide_eq_true_eq]

omit [DecidableEq Peer] in
/-- A live worker reads its queue. -/
theorem Sound.open_of_live (h : s.Sound) {k : Nat} {w : Worker Peer} (hw : s.tasks[k]? = some w)
    (hmap : s.workers.lookup w.id = some k) : w.closed = false := by
  unfold Worker.closed
  rw [decide_eq_false_iff_not]
  intro hover
  cases h.standing k w hw with
  | inMap hloop | letGo hloop =>
    rw [hover] at hloop
    simp at hloop
  | owing _ _ hnone | released _ _ hnone | shutdown _ _ hnone | replaced _ _ hnone =>
    rw [hnone] at hmap
    cases hmap

/-- A step that neither routes nor forgets, and brings no old worker back. -/
theorem Homed.still (h : s.Homed) (hhomes : s'.homes = s.homes) (hroutes : s'.routes = s.routes)
    (hsplits : s'.splits = s.splits) (hlen : s.tasks.length ≤ s'.tasks.length)
    (hids : ∀ (k : Nat) (w' : Worker Peer), k < s.tasks.length → s'.tasks[k]? = some w' →
      ∃ w, s.tasks[k]? = some w ∧ w.id = w'.id)
    (hlive : ∀ id k, k < s.tasks.length → s'.workers.lookup id = some k →
      s.workers.lookup id = some k) : s'.Homed := by
  refine ⟨fun peer k hk => ?_, fun peer k w' hk hw' hmap => ?_, ?_⟩
  · rw [hhomes] at hk
    exact Nat.lt_of_lt_of_le (h.below peer k hk) hlen
  · rw [hhomes] at hk
    have hlt := h.below peer k hk
    obtain ⟨w, hw, hid⟩ := hids k w' hlt hw'
    rw [hroutes, ← hid]
    refine h.routed peer k w hk hw ?_
    rw [hid]
    exact hlive _ k hlt hmap
  · rw [hsplits]
    exact h.splits

/-- A datagram is enqueued, and no other worker of the peer is live. -/
theorem Homed.enqueue (h : s.Homed) {base : Pool Peer} {k : Nat} {w : Worker Peer} {peer : Peer}
    (hw : s.tasks[k]? = some w) (hhomes : base.homes = s.homes) (htasks : base.tasks = s.tasks)
    (hworkers : base.workers = s.workers) (hsplits : base.splits = s.splits)
    (hroutes : ∀ p, p ≠ peer → base.routes.lookup p = s.routes.lookup p)
    (hroute : ∃ route, base.routes.lookup peer = some route ∧ route.worker = w.id)
    (hone : ∀ k', s.homes peer = some k' → s.live k' = true → k' = k) :
    (base.enqueue k w peer).Homed := by
  obtain ⟨hk, -⟩ := List.getElem?_eq_some_iff.mp hw
  have htasks' : (base.enqueue k w peer).tasks =
      s.tasks.set k { w with queue := w.queue ++ [peer] } := by
    rw [← htasks]
    rfl
  have hids : ∀ (j : Nat) (v : Worker Peer), (base.enqueue k w peer).tasks[j]? = some v →
      ∃ v', s.tasks[j]? = some v' ∧ v'.id = v.id := by
    intro j v hv
    rw [htasks'] at hv
    by_cases hjk : j = k
    · subst hjk
      rw [List.getElem?_set_self hk] at hv
      cases hv
      exact ⟨w, hw, rfl⟩
    · rw [List.getElem?_set_ne (Ne.symm hjk)] at hv
      exact ⟨v, hv, rfl⟩
  refine ⟨fun p j hj => ?_, fun p j v hj hv hmap => ?_, ?_⟩
  · rw [htasks', List.length_set]
    change update base.homes peer (some k) p = some j at hj
    rw [update_apply] at hj
    split at hj
    case isTrue =>
      cases hj
      exact hk
    case isFalse =>
      rw [hhomes] at hj
      exact h.below p j hj
  · obtain ⟨v', hv', hid⟩ := hids j v hv
    change update base.homes peer (some k) p = some j at hj
    change ∃ route, base.routes.lookup p = some route ∧ route.worker = v.id
    rw [update_apply] at hj
    split at hj
    case isTrue hp =>
      cases hj
      rw [hw] at hv'
      cases hv'
      rw [hp, ← hid]
      exact hroute
    case isFalse hp =>
      rw [hhomes] at hj
      rw [hroutes p hp, ← hid]
      refine h.routed p j v' hj hv' ?_
      rw [hid, ← hworkers]
      exact hmap
  · have hnone : (base.homes peer).any (fun k' => k' ≠ k && base.live k') = false := by
      rw [Bool.eq_false_iff, Ne, Option.any_eq_true]
      rintro ⟨k', hk', hsplit⟩
      obtain ⟨hne, hlive⟩ := Bool.and_eq_true_iff.mp hsplit
      rw [hhomes] at hk'
      have hlive' : s.live k' = true := by
        rw [live, ← htasks, ← hworkers]
        exact hlive
      exact of_decide_eq_true hne (hone k' hk' hlive')
    change (if _ then _ else base.splits) = []
    rw [hnone, hsplits]
    exact h.splits

theorem lookup_reassign (s : Pool Peer) (peer : Peer) (id : Nat) (p : Peer) :
    (s.reassign peer id).routes.lookup p =
      if p = peer then some { worker := id, lastSeen := s.now } else s.routes.lookup p := by
  unfold reassign
  cases s.routes.lookup peer <;> exact Table.lookup_insert_eq ..

theorem recorded_reassign (s : Pool Peer) (peer : Peer) (id : Nat) :
    (s.reassign peer id).homes = s.homes ∧ (s.reassign peer id).splits = s.splits := by
  unfold reassign
  cases s.routes.lookup peer <;> exact ⟨rfl, rfl⟩

/-- A peer with a live home sticks to it. -/
theorem Homed.sticks (h : s.Homed) (hsound : s.Sound) {peer : Peer} {k : Nat}
    (hk : s.homes peer = some k) (hlive : s.live k = true) : s.Sticks peer := by
  obtain ⟨w, hw, hmap⟩ := live_iff.mp hlive
  obtain ⟨route, hr, hid⟩ := h.routed peer k w hk hw hmap
  refine ⟨route, k, w, hr, ?_, hsound.open_of_live hw hmap⟩
  rw [sender, hid, hmap, Option.bind_some, hw]
  rfl

/-- **A routed datagram** goes to the peer's home while the home is live. -/
theorem Homed.route (h : s.Homed) (hsound : s.Sound) {peer : Peer} {outcome : UdpRouteOutcome}
    (hr : Routed s peer s' outcome) : s'.Homed := by
  cases hr with
  | sticky route k w hroute hk hopen =>
    obtain ⟨hmap, hw⟩ := sender_eq_some hk
    obtain ⟨w', hw', hid⟩ := hsound.mapped _ _ hmap
    rw [hw] at hw'
    cases hw'
    have hlookup : ∀ p, (s.touchRoute peer route).routes.lookup p = _ :=
      fun p => Table.lookup_insert_eq ..
    refine h.enqueue hw rfl rfl rfl rfl ?_ ?_ ?_
    · intro p hp
      rw [hlookup, if_neg hp]
    · exact ⟨_, (hlookup peer).trans (if_pos rfl), hid.symm⟩
    · intro k' hk' hlive
      obtain ⟨v, hv, hmap'⟩ := live_iff.mp hlive
      obtain ⟨route', hroute', hid'⟩ := h.routed peer k' v hk' hv hmap'
      rw [hroute] at hroute'
      cases hroute'
      rw [← hid', hmap] at hmap'
      exact (Option.some.inj hmap').symm
  | dropped => exact h
  | noWorker =>
    exact h.still rfl rfl rfl (Nat.le_refl _) (fun k w _ hw => ⟨w, hw, rfl⟩) fun _ _ _ hk => hk
  | refused id k w hk hno =>
    obtain ⟨hhomes, hsplits⟩ := recorded_reassign s peer id
    have hsame := sameSet_reassign s peer id
    have htasks := tasks_reassign s peer id
    refine ⟨fun p j hj => ?_, fun p j v hj hv hmap => ?_, by rw [hsplits]; exact h.splits⟩
    · rw [hhomes] at hj
      rw [htasks]
      exact h.below p j hj
    · rw [hhomes] at hj
      rw [htasks] at hv
      rw [hsame.workers] at hmap
      have hp : p ≠ peer := by
        rintro rfl
        exact hno (h.sticks hsound hj (live_iff.mpr ⟨v, hv, hmap⟩))
      rw [lookup_reassign, if_neg hp]
      exact h.routed p j v hj hv hmap
  | assigned id k w hk hno =>
    obtain ⟨hmap, hw⟩ := sender_eq_some hk
    obtain ⟨w', hw', hid⟩ := hsound.mapped _ _ hmap
    rw [hw] at hw'
    cases hw'
    obtain ⟨hhomes, hsplits⟩ := recorded_reassign s peer id
    refine h.enqueue hw hhomes (tasks_reassign s peer id) (sameSet_reassign s peer id).workers
      hsplits
      ?_ ?_ ?_
    · intro p hp
      rw [lookup_reassign, if_neg hp]
    · exact ⟨_, (lookup_reassign s peer id peer).trans (if_pos rfl), hid.symm⟩
    · exact fun k' hk' hlive => absurd (h.sticks hsound hk' hlive) hno

/-- A sweep forgets the home of a peer with its route. -/
theorem Homed.sweep (h : s.Homed) : s.sweep.Homed := by
  have hhomes : ∀ peer k, s.sweep.homes peer = some k →
      (s.routes.lookup peer).any s.expired = false ∧ s.homes peer = some k := by
    intro peer k hk
    change (if _ then none else s.homes peer) = some k at hk
    split at hk
    case isTrue => cases hk
    case isFalse hno => exact ⟨Bool.eq_false_iff.mpr hno, hk⟩
  refine ⟨fun peer k hk => h.below peer k (hhomes peer k hk).2,
    fun peer k w hk hw hmap => ?_, h.splits⟩
  obtain ⟨hfresh, hk⟩ := hhomes peer k hk
  obtain ⟨route, hr, hid⟩ := h.routed peer k w hk hw hmap
  rw [hr, Option.any_some] at hfresh
  refine ⟨route, ?_, hid⟩
  refine (Table.lookup_filterVals _ _ _).trans ?_
  rw [hr, Option.filter_some, if_pos (by simp [hfresh])]

/-- A worker's own step. -/
theorem Homed.own (h : s.Homed) {k : Nat} (hm : OwnMove s k s') : s'.Homed := by
  obtain ⟨w, w', hw, hid, htasks⟩ := hm.task
  obtain ⟨hk, -⟩ := List.getElem?_eq_some_iff.mp hw
  refine h.still hm.homes hm.routes hm.splits ?_ ?_ fun id j _ hj => hm.workers id j hj
  · rw [htasks, List.length_set]
  · intro j v _ hv
    rw [htasks] at hv
    by_cases hjk : j = k
    · subst hjk
      rw [List.getElem?_set_self hk] at hv
      cases hv
      exact ⟨w, hw, hid.symm⟩
    · rw [List.getElem?_set_ne (Ne.symm hjk)] at hv
      exact ⟨v, hv, rfl⟩

theorem Homed.spawnWorker (h : s.Homed) : s.spawnWorker.Homed := by
  refine h.still rfl rfl rfl ?_ ?_ ?_
  · change s.tasks.length ≤ (s.tasks ++ _).length
    rw [List.length_append]
    exact Nat.le_add_right _ _
  · intro k w hk hw
    change (s.tasks ++ _)[k]? = some w at hw
    rw [List.getElem?_append_left hk] at hw
    exact ⟨w, hw, rfl⟩
  · intro id k hk hmap
    have hlookup : s.spawnWorker.workers.lookup id = _ := Table.lookup_insert_eq ..
    rw [hlookup] at hmap
    split at hmap
    case isTrue =>
      cases hmap
      exact absurd hk (Nat.lt_irrefl _)
    case isFalse => exact hmap

/-- **One step** sends no datagram astray. -/
theorem Homed.step (h : s.Homed) (hsound : s.Sound) (hs : s.step e = some s') : s'.Homed := by
  have hquiet : ∀ {s' : Pool Peer}, s'.homes = s.homes → s'.routes = s.routes →
      s'.splits = s.splits → s'.tasks = s.tasks →
      (∀ id k, s'.workers.lookup id = some k → s.workers.lookup id = some k) → s'.Homed := by
    intro s' hhomes hroutes hsplits htasks hmap
    refine h.still hhomes hroutes hsplits (Nat.le_of_eq (by rw [htasks])) ?_ fun id k _ => hmap id k
    intro k w _ hw
    rw [htasks] at hw
    exact ⟨w, hw, rfl⟩
  cases e with
  | pass _ | signal | late =>
    cases hs
    exact hquiet rfl rfl rfl rfl fun _ _ hk => hk
  | stop | read _ | connect _ =>
    simp only [Pool.step, Option.ite_none_right_eq_some, Option.some.injEq] at hs
    obtain ⟨-, rfl⟩ := hs
    exact hquiet rfl rfl rfl rfl fun _ _ hk => hk
  | channel ok =>
    simp only [Pool.step, Option.ite_none_right_eq_some, Option.some.injEq] at hs
    obtain ⟨-, rfl⟩ := hs
    have htaken : { s with arrived := s.arrived - 1 }.Homed :=
      hquiet rfl rfl rfl rfl fun _ _ hk => hk
    cases ok with
    | true => exact htaken.spawnWorker
    | false => exact htaken
  | datagram peer order =>
    simp only [Pool.step, Option.ite_none_right_eq_some, Option.some.injEq] at hs
    obtain ⟨-, rfl⟩ := hs
    have hrouted := h.route hsound (Pool.routed s peer order)
    unfold noteUdpPressure
    split
    · exact hrouted
    · exact ⟨hrouted.below, hrouted.routed, hrouted.splits⟩
  | tick =>
    simp only [Pool.step, Option.ite_none_right_eq_some, Option.some.injEq] at hs
    obtain ⟨-, rfl⟩ := hs
    unfold growthCheck
    split <;> exact hquiet rfl rfl rfl rfl fun _ _ hk => hk
  | retire =>
    simp only [Pool.step, Option.ite_none_right_eq_some, Option.some.injEq] at hs
    obtain ⟨-, rfl⟩ := hs
    rw [retireIdle_eq]
    cases s.choice with
    | none => exact hquiet rfl rfl rfl rfl fun _ _ hk => hk
    | some id =>
      refine hquiet rfl rfl rfl rfl fun id' k hk => ?_
      rw [Option.elim_some] at hk
      exact (Table.lookup_of_erase hk).2
  | sweep =>
    simp only [Pool.step, Option.ite_none_right_eq_some, Option.some.injEq] at hs
    obtain ⟨-, rfl⟩ := hs
    exact h.sweep
  | forward k => exact h.own (ownMove_forward hs)
  | leave k cause => exact h.own (ownMove_leave hs)
  | remove k => exact h.own (ownMove_remove hs)
  | check k => exact h.own (ownMove_check hs)
  | ask k => exact h.own (ownMove_ask hs)

/-! ## 6. Every run -/

/-- **A retirement spares** the last worker, and every worker that a route names. -/
theorem retire_spares (hs : s.step .retire = some s') :
    (s.workers.keys ≠ [] → s'.workers.keys ≠ []) ∧
      ∀ id ∈ s.workers.keys, id ∉ s'.workers.keys → id ∉ s.named := by
  simp only [Pool.step, Option.ite_none_right_eq_some, Option.some.injEq] at hs
  obtain ⟨-, rfl⟩ := hs
  dsimp only
  rw [retireIdle_eq]
  cases hchoice : s.choice with
  | none => exact ⟨fun h => h, fun id hid hno => absurd hid hno⟩
  | some id =>
    obtain ⟨hlen, hmem, -⟩ := choice_eq_some hchoice
    have hkeys : (s.retireId id).workers.keys = s.workers.keys.erase id := AList.keys_erase ..
    rw [Option.elim_some, hkeys]
    refine ⟨fun _ hnil => ?_, fun id' hid' hgone => ?_⟩
    · have hle := List.le_length_erase (a := id) (l := s.workers.keys)
      rw [hnil, List.length_nil] at hle
      omega
    · by_cases hid : id' = id
      · subst hid
        exact (mem_retirable.mp hmem).1
      · exact absurd ((List.mem_erase_of_ne hid).mpr hid') hgone

/-- **The pool keeps its promises.**  In every run in which no guard looks at the flag between the
shutdown signal and the pool loop's answer, no retire tick takes the id of a worker whose guard is
under way, and the id counter does not come around: while the worker of a peer's last datagram is
live, the peer's next datagram goes to no other, unless a sweep forgot the peer; no id is given out
twice; a retirement leaves a worker, and touches none that a route names; and a worker that is over
was retired and asked for nothing, or ended with the pool and asked for nothing, or ended
unexpectedly and asked for one replacement. -/
theorem affinity_kept (h : ((udpPool Peer).restrict fun s e => s.settles e = true).Reach s) :
    s.splits = [] ∧ s.issued.Nodup ∧
    (∀ s', s.step .retire = some s' → (s.workers.keys ≠ [] → s'.workers.keys ≠ []) ∧
      ∀ id ∈ s.workers.keys, id ∉ s'.workers.keys → id ∉ s.named) ∧
    ∀ (k : Nat) (w : Worker Peer), s.tasks[k]? = some w →
      (w.stage ≠ .over → w.asked = 0) ∧
      (w.stage = .over → (s.Retired k ∧ w.asked = 0) ∨
        (¬ s.Retired k ∧ w.exit = some .shutdown ∧ w.asked = 0) ∨
        (¬ s.Retired k ∧ w.exit = some .unexpected ∧ w.asked = 1)) := by
  obtain ⟨hsound, hhomed⟩ : s.Sound ∧ s.Homed := by
    refine h.invariant (P := fun s => s.Sound ∧ s.Homed) ?_ ?_
    · rintro s ⟨maxWorkers, -, rfl⟩
      refine ⟨⟨rfl, List.nodup_nil, nofun, nofun, nofun, nofun, ?_, ?_⟩, nofun, nofun, rfl⟩
      · rintro k ⟨r, hr, -⟩
        cases hr
      · intro k w hw
        simp [Pool.new] at hw
    · rintro s e s' ⟨hsound, hhomed⟩ ⟨hc, hs⟩
      exact ⟨hsound.step hc hs, hhomed.step hsound hs⟩
  refine ⟨hhomed.splits, hsound.nodup, fun s' hs => retire_spares hs, fun k w hw => ?_⟩
  cases hsound.standing k w hw with
  | inMap hloop _ _ _ hasked | letGo hloop _ _ hasked =>
    refine ⟨fun _ => hasked, fun hover => ?_⟩
    rw [hover] at hloop
    simp at hloop
  | owing howes _ _ _ _ hasked =>
    refine ⟨fun _ => hasked, fun hover => ?_⟩
    simp [Worker.owes, hover] at howes
  | released hover _ _ hret hasked => exact ⟨absurd hover, fun _ => .inl ⟨hret, hasked⟩⟩
  | shutdown hover hexit _ hret hasked =>
    exact ⟨absurd hover, fun _ => .inr (.inl ⟨hret, hexit, hasked⟩)⟩
  | replaced hover hexit _ hret hasked =>
    exact ⟨absurd hover, fun _ => .inr (.inr ⟨hret, hexit, hasked⟩)⟩

end Pool

/-- Three workers: the second ends on its own, the third is retired, and the first ends with the
pool. -/
def threeExits : List (Event Nat) :=
  [.connect true, .channel true, .datagram 7 [0], .late, .channel true, .late, .channel true,
    .leave 1 .lost, .remove 1, .check 1, .ask 1, .pass 30000, .tick, .retire, .leave 2 .drained,
    .remove 2, .datagram 7 [0], .signal, .stop, .leave 0 .signal, .remove 0, .check 0]

theorem affinity_kept_threeExits :
    ∃ s : Pool Nat, ((udpPool Nat).restrict fun s e => s.settles e = true).Reach s ∧
      s.tasks.map Worker.asked = [0, 1, 0] ∧ s.splits = [] ∧ s.issued.Nodup ∧
      ∀ (k : Nat) (w : Worker Nat), s.tasks[k]? = some w → w.asked = 1 →
        ¬ s.Retired k ∧ w.exit = some .unexpected := by
  have hrun : (Lts.runWith Pool.step Pool.settles (.new 3 : Pool Nat) threeExits).any (fun s =>
      decide (s.tasks.map Worker.asked = [0, 1, 0] ∧ ∀ w ∈ s.tasks, w.stage = .over)) = true := by
    decide +kernel
  obtain ⟨s, hs, hfacts⟩ := Lts.Reach.exists_runWith (T := udpPool Nat)
    (C := fun s e => s.settles e = true) (fun _ _ _ h => h) (fun _ _ h => h)
    (s := .new 3) ⟨3, Nat.succ_pos _, rfl⟩ hrun
  obtain ⟨hasked, hover⟩ := of_decide_eq_true hfacts
  obtain ⟨hsplits, hnodup, -, hexits⟩ := Pool.affinity_kept hs
  refine ⟨s, hs, hasked, hsplits, hnodup, fun k w hw hone => ?_⟩
  rcases (hexits k w hw).2 (hover w (List.mem_of_getElem? hw)) with h | h | ⟨hret, hexit, -⟩
  · exact absurd (hone.symm.trans h.2) nofun
  · exact absurd (hone.symm.trans h.2.2) nofun
  · exact ⟨hret, hexit⟩

/-- A worker sees the shutdown signal before the pool loop does. -/
def eagerExit : List (Event Nat) :=
  [.connect true, .channel true, .signal, .leave 0 .signal, .remove 0, .check 0, .ask 0, .stop]

/-- Worker 2 ends on its own, and the retire tick takes its id while its guard is under way. -/
def overtakenGuard : List (Event Nat) :=
  [.connect true, .channel true, .late, .channel true, .late, .channel true, .pass 30000,
    .leave 2 .lost, .remove 2, .check 2, .tick, .retire, .ask 2]

/-- **A shutdown that asks for a replacement, and an unexpected exit that asks for none.** -/
theorem replacement_wrong :
    (∃ s : Pool Nat, (udpPool Nat).Reach s ∧ s.tasks.map (fun w => (w.stage, w.exit, w.asked)) =
      [(.over, some .shutdown, 1)] ∧ s.requests = 1) ∧
    ∃ s : Pool Nat, (udpPool Nat).Reach s ∧ s.requests = 0 ∧
      s.tasks[2]?.map (fun w => (w.stage, w.exit, w.asked)) = some (.over, some .unexpected, 0) := by
  have hreach : ∀ {labels : List (Event Nat)} {P : Pool Nat → Bool},
      (Lts.runWith Pool.step (fun _ _ => true) (.new 3 : Pool Nat) labels).any P = true →
      ∃ s, (udpPool Nat).Reach s ∧ P s = true :=
    fun hrun => Lts.Reach.exists_run (fun _ _ _ hs => hs) ⟨3, Nat.succ_pos _, rfl⟩ hrun
  refine ⟨?_, ?_⟩
  · have hrun : (Lts.runWith Pool.step (fun _ _ => true) (.new 3 : Pool Nat) eagerExit).any (fun s =>
        decide (s.tasks.map (fun w => (w.stage, w.exit, w.asked)) = [(.over, some .shutdown, 1)] ∧
          s.requests = 1)) = true := by
      decide +kernel
    obtain ⟨s, hs, hfacts⟩ := hreach hrun
    exact ⟨s, hs, of_decide_eq_true hfacts⟩
  · have hrun : (Lts.runWith Pool.step (fun _ _ => true) (.new 3 : Pool Nat) overtakenGuard).any
        (fun s => decide (s.requests = 0 ∧ s.tasks[2]?.map (fun w => (w.stage, w.exit, w.asked)) =
          some (.over, some .unexpected, 0))) = true := by
      decide +kernel
    obtain ⟨s, hs, hfacts⟩ := hreach hrun
    exact ⟨s, hs, of_decide_eq_true hfacts⟩

end Molehill.Server.Udp
