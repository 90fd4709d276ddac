/-
# The windows of the carrier evidence

`LanePool::carrier_evidence` (`core/client.rs`) looks once a second at the counters of a claim's
lanes, which are those of the hub's slots (`Transparent/LaneEvidence.lean`).  They are cumulative,
so it keeps what it saw under the claim and the lane's id, and a lane's evidence is the difference
to that; a lane that is seen for the first time has none.

The ids are minted by the claim's activation, from 1 on, and what was seen is never forgotten: after
a reconnect the claim's first lane is number 1 again, and its first window is taken against another
lane's counters (`window_of_another_lane`).  A lane with an id of its own may have a window of
another lane as well, where its slot still has the report about the lane before
(`window_of_inherited_report`).  In every run in which no lane joins under a pair that was sampled
before, or that a lane of the hub has, and in which the hub keeps its lanes apart, every window is
the lane's own (`windows_own`).
-/
import Mathlib.Data.List.Nodup
import Molehill.Transparent.LaneEvidence

namespace Molehill.Client.Evidence

open Lib Transparent.Slots

/-! ## 1. The evidence -/

/-- `LaneSample`: what the peer offered a lane and refused there, and what this end injected. -/
structure LaneSample where
  offered : Nat
  refused : Nat
  injected : Nat
  deriving DecidableEq

/-- What `carrier_evidence` reads of a `MemberStat`; `live` is here the lane that holds the slot. -/
structure MemberStat (E : Type) where
  endpoint : E
  slot : Nat
  live : Option Nat
  lane : Option LaneKey
  carrier : Option Pool.Carrier
  remote : Option RemoteLane
  counters : LaneCounters
  deriving DecidableEq

/-- `LaneEvidence`. -/
structure LaneEvidence where
  slot : Nat
  lane : Nat
  carrier : Option Pool.Carrier
  offered : Nat
  refused : Nat
  injected : Nat
  deriving DecidableEq

/-- `carrier_sample`. -/
abbrev Samples (E : Type) := Table (E × Nat) LaneSample

namespace MemberStat

variable {E : Type} (m : MemberStat E)

/-- The counters as they are now. -/
def now : LaneSample where
  offered := (m.remote.map fun r => r.offered.toNat).getD 0
  refused := (m.remote.map fun r => r.refused.toNat).getD 0
  injected := m.counters.injectedPackets

/-- What the samples are kept under. -/
def key : Option (E × Nat) := m.lane.map fun lane => (m.endpoint, lane.id)

variable [DecidableEq E]

/-- The lane's evidence, if there is a previous sample. -/
def window (last : Samples E) : Option LaneEvidence :=
  m.lane.bind fun lane => (last.lookup (m.endpoint, lane.id)).map fun previous =>
    { slot := m.slot
      lane := lane.id
      carrier := m.carrier
      offered := m.now.offered - previous.offered
      refused := m.now.refused - previous.refused
      injected := m.now.injected - previous.injected }

/-- The sample is kept for the next time. -/
def keep (last : Samples E) : Samples E :=
  match m.key with
  | some key => last.insert key m.now
  | none => last

end MemberStat

/-- One slot of a claim. -/
def slotStat {E : Type} (endpoint : E) (slot : Nat) (x : MemberSlot) : MemberStat E :=
  ⟨endpoint, slot, x.queue, x.lane, x.carrier, x.remote, x.counters⟩

/-- `member_stats`.  The source sorts by claim and slot; of one claim the slots come in order
anyway. -/
def memberStats {E : Type} (hub : Routes E) : List (MemberStat E) :=
  hub.table.entries.flatMap fun claim => claim.2.slots.zipIdx.map fun x => slotStat claim.1 x.2 x.1

/-- `carrier_evidence`: the evidence, and the samples it leaves. -/
def carrierEvidence {E : Type} [DecidableEq E] (endpoint : E) (hub : Routes E)
    (last : Samples E) : List LaneEvidence × Samples E :=
  let members := (memberStats hub).filter fun m => m.endpoint = endpoint && m.live.isSome
  (members.filterMap fun m => m.window last, members.foldl (fun last m => m.keep last) last)

/-! ## 2. The lanes of a session -/

/-- What one look saw of a lane, and the evidence it gave. -/
structure Sampled where
  lane : Nat
  now : LaneSample
  window : Option LaneEvidence
  deriving DecidableEq

/-- A lane that was dialed and is to join its hub. -/
structure DialedLane (E : Type) where
  endpoint : E
  id : Nat
  carrier : Option Pool.Carrier
  deriving DecidableEq

/-- The hub, the pool's samples, the claims' activations with their `lane_ids`, the lanes that are
dialed, and what was seen; a lane is known by its number in the hub, whatever its id. -/
structure Session (E : Type) where
  hub : Routes E
  last : Samples E
  activations : List (E × Nat)
  dialed : List (DialedLane E)
  history : List Sampled

inductive Event (E : Type)
  /-- A claim is activated, for the first time or after a reconnect. -/
  | activate (endpoint : E)
  /-- A lane is dialed for an activation. -/
  | dial (activation : Nat) (carrier : Option Pool.Carrier)
  /-- A dialed lane joins the hub. -/
  | join (i now : Nat)
  /-- Anything else that happens to the hub. -/
  | hub (call : HubCall E)
  /-- The ticker looks at a claim. -/
  | sample (endpoint : E)

/-- Whether a report is no smaller than those about its lane before: the peer's counters are
cumulative, and its reports come in order. -/
def cumulative {E : Type} (hub : Routes E) : HubCall E → Bool
  | .report n report => hub.reports.all fun r => r.1 ≠ n ||
      (r.2.offered ≤ report.offered && r.2.refused ≤ report.refused)
  | _ => true

namespace Session

variable {E : Type} [DecidableEq E] (s : Session E)

def new : Session E := ⟨.new, ∅, [], [], []⟩

/-- The lanes that the ticker's look at a claim samples: those with an id. -/
def seen (endpoint : E) : List (MemberStat E) :=
  ((memberStats s.hub).filter fun m => m.endpoint = endpoint && m.live.isSome).filter fun m =>
    m.lane.isSome

/-- The ticker's look at a claim. -/
def look (endpoint : E) : Session E :=
  { s with
    last := (carrierEvidence endpoint s.hub s.last).2
    history := s.history ++ (s.seen endpoint).map fun m =>
      ⟨m.live.getD 0, m.now, m.window s.last⟩ }

def step (s : Session E) : Event E → Option (Session E)
  | .activate endpoint => some { s with activations := s.activations ++ [(endpoint, 1)] }
  | .dial a carrier =>
    match s.activations[a]? with
    | some (endpoint, id) => some { s with
        activations := s.activations.set a (endpoint, (id + 1) % 2 ^ 32)
        dialed := s.dialed ++ [⟨endpoint, id, carrier⟩] }
    | none => none
  | .join i now => s.dialed[i]?.map fun d => { s with
      hub := s.hub.join d.endpoint (some d.id) d.carrier now
      dialed := s.dialed.eraseIdx i }
  | .hub (.join ..) => none
  | .hub call =>
    if cumulative s.hub call then (s.hub.step call).map fun hub => { s with hub := hub } else none
  | .sample endpoint => some (s.look endpoint)

end Session

/-- The runs of a session's lanes. -/
def laneSamples (E : Type) [DecidableEq E] : Lts (Session E) (Event E) where
  init s := s = .new
  step s e s' := s.step e = some s'

/-! ## 3. What is promised -/

/-- What was seen of a lane last. -/
def lastOf (history : List Sampled) (n : Nat) : Option LaneSample :=
  ((history.filter fun x => x.lane = n).getLast?).map Sampled.now

/-- A look is right: the lane's evidence is the difference to what was seen of that lane before, and
a lane seen for the first time has none. -/
def Sampled.Right (before : List Sampled) (x : Sampled) : Prop :=
  match lastOf before x.lane, x.window with
  | none, none => True
  | some previous, some w => previous.offered + w.offered = x.now.offered ∧
      previous.refused + w.refused = x.now.refused ∧
      previous.injected + w.injected = x.now.injected
  | _, _ => False

/-- **What is promised** of the evidence. -/
def WindowsOwn (history : List Sampled) : Prop :=
  ∀ before x after, history = before ++ x :: after → x.Right before

namespace Session

variable {E : Type} [DecidableEq E]

/-- Whether the step keeps the lanes apart: a lane joins only under a claim and an id that were
never sampled and that no lane of the hub has, and the hub keeps its lanes apart. -/
def keepsApart (s : Session E) : Event E → Bool
  | .join i now => s.dialed[i]?.all fun d =>
      (s.last.lookup (d.endpoint, d.id)).isNone &&
        ((s.hub.table.lookup d.endpoint).all fun c => (c.slotOf d.id).isNone) &&
        s.hub.keepsApart (.join d.endpoint (some d.id) d.carrier now)
  | .hub call => s.hub.keepsApart call
  | _ => true

end Session

/-! ## 4. One look -/

theorem lastOf_append_of_notMem {history more : List Sampled} {n : Nat}
    (h : ∀ x ∈ more, x.lane ≠ n) : lastOf (history ++ more) n = lastOf history n := by
  have hnil : more.filter (fun x => x.lane = n) = [] := by
    refine List.filter_eq_nil_iff.mpr fun x hx hn => ?_
    exact h x hx (of_decide_eq_true hn)
  rw [lastOf, lastOf, List.filter_append, hnil, List.append_nil]

theorem lastOf_append_of_mem (history : List Sampled) {more : List Sampled} {x : Sampled}
    (hx : x ∈ more) (h : (more.map Sampled.lane).Nodup) :
    lastOf (history ++ more) x.lane = some x.now := by
  obtain ⟨a, b, rfl⟩ := List.append_of_mem hx
  rw [List.map_append, List.map_cons, List.nodup_append] at h
  have hb : ∀ y ∈ b, y.lane ≠ x.lane := by
    intro y hy heq
    exact (List.nodup_cons.mp h.2.1).1 (heq ▸ List.mem_map_of_mem hy)
  have hsplit : history ++ (a ++ x :: b) = (history ++ (a ++ [x])) ++ b := by
    simp only [List.append_assoc, List.singleton_append]
  rw [hsplit, lastOf_append_of_notMem hb, lastOf, List.filter_append, List.filter_append]
  simp

/-- A look at lanes each of which is seen once. -/
theorem WindowsOwn.append {history more : List Sampled} (h : WindowsOwn history)
    (hmore : ∀ x ∈ more, x.Right history) (hnodup : (more.map Sampled.lane).Nodup) :
    WindowsOwn (history ++ more) := by
  intro before x after heq
  rcases List.append_eq_append_iff.mp heq with ⟨a, rfl, rfl⟩ | ⟨a, rfl, hsplit⟩
  · -- the lanes of the look that stand before `x` are other ones
    have hother : ∀ y ∈ a, y.lane ≠ x.lane := by
      intro y hy
      rw [List.map_append, List.map_cons, List.nodup_append] at hnodup
      exact hnodup.2.2 _ (List.mem_map_of_mem hy) _ List.mem_cons_self
    have hright := hmore x (List.mem_append_right _ List.mem_cons_self)
    unfold Sampled.Right at hright ⊢
    rw [lastOf_append_of_notMem hother]
    exact hright
  · cases a with
    | nil =>
      have hx : x ∈ more := by
        rw [List.nil_append] at hsplit
        exact hsplit ▸ List.mem_cons_self
      have hright := hmore x hx
      rw [List.append_nil] at hright
      exact hright
    | cons y a =>
      obtain ⟨rfl, rfl⟩ := List.cons.inj hsplit
      exact h before _ a rfl

theorem MemberStat.lookup_keep {E : Type} [DecidableEq E] (m : MemberStat E) (last : Samples E)
    (key : E × Nat) :
    (m.keep last).lookup key = if m.key = some key then some m.now else last.lookup key := by
  unfold keep
  split
  case h_1 key' hkey =>
    rw [hkey, Table.lookup_insert_eq]
    simp only [Option.some.injEq, eq_comm]
  case h_2 hkey => rw [hkey, if_neg nofun]

theorem MemberStat.keep_of_none {E : Type} [DecidableEq E] {m : MemberStat E}
    (h : m.lane.isSome = false) (last : Samples E) : m.keep last = last := by
  rw [keep, key, Option.isSome_eq_false_iff.mp h |> Option.isNone_iff_eq_none.mp]
  rfl

theorem MemberStat.fst_key {E : Type} {m : MemberStat E} {key : E × Nat} (h : m.key = some key) :
    key.1 = m.endpoint := by
  obtain ⟨lane, -, rfl⟩ := Option.map_eq_some_iff.mp h
  rfl

/-- A lane without an id leaves no sample. -/
theorem foldl_keep_filter {E : Type} [DecidableEq E] (members : List (MemberStat E))
    (last : Samples E) :
    members.foldl (fun last m => m.keep last) last =
      (members.filter fun m => m.lane.isSome).foldl (fun last m => m.keep last) last := by
  induction members generalizing last with
  | nil => rfl
  | cons m rest ih =>
    rw [List.foldl_cons, ih]
    cases hm : m.lane.isSome with
    | true => rw [List.filter_cons, if_pos hm, List.foldl_cons]
    | false => rw [List.filter_cons, if_neg (by rw [hm]; exact nofun), m.keep_of_none hm]

/-- The samples after a look, at a key that no lane has. -/
theorem lookup_keep_of_notMem {E : Type} [DecidableEq E] {members : List (MemberStat E)}
    {key : E × Nat} (h : ∀ m ∈ members, m.key ≠ some key) (last : Samples E) :
    (members.foldl (fun last m => m.keep last) last).lookup key = last.lookup key := by
  induction members generalizing last with
  | nil => rfl
  | cons x rest ih =>
    rw [List.foldl_cons, ih (fun m hm => h m (List.mem_cons_of_mem _ hm)), x.lookup_keep,
      if_neg (h x List.mem_cons_self)]

/-- The samples after a look, at a key that one of the lanes has. -/
theorem lookup_keep_of_mem {E : Type} [DecidableEq E] {members : List (MemberStat E)}
    {m : MemberStat E} {key : E × Nat} (hm : m ∈ members) (hkey : m.key = some key)
    (hnodup : (members.map MemberStat.key).Nodup) (last : Samples E) :
    (members.foldl (fun last m => m.keep last) last).lookup key = some m.now := by
  induction members generalizing last with
  | nil => cases hm
  | cons x rest ih =>
    rw [List.map_cons, List.nodup_cons] at hnodup
    rcases List.mem_cons.mp hm with rfl | hm
    · have hrest : ∀ y ∈ rest, y.key ≠ some key := by
        intro y hy heq
        exact hnodup.1 (List.mem_map.mpr ⟨y, hy, heq.trans hkey.symm⟩)
      rw [List.foldl_cons, lookup_keep_of_notMem hrest, m.lookup_keep, if_pos hkey]
    · exact ih hm hnodup.2 _

/-! ## 5. The slots of the hub -/

section Members

variable {E : Type} [DecidableEq E] {hub : Routes E} {s : Session E} {endpoint : E}
  {m : MemberStat E}

theorem mem_memberStats : m ∈ memberStats hub ↔
    ∃ e k x, hub.entryAt e k = some x ∧ m = slotStat e k x := by
  unfold memberStats Routes.entryAt
  simp only [List.mem_flatMap, List.mem_map, Option.bind_eq_some_iff]
  constructor
  · rintro ⟨claim, hclaim, x, hx, rfl⟩
    refine ⟨claim.1, x.2, x.1, ⟨claim.2, AList.mem_lookup_iff.mpr hclaim, ?_⟩, rfl⟩
    exact List.mem_zipIdx_iff_getElem?.mp hx
  · rintro ⟨e, k, x, ⟨c, hc, hx⟩, rfl⟩
    exact ⟨⟨e, c⟩, AList.mem_lookup_iff.mp hc, (x, k), List.mem_zipIdx_iff_getElem?.mpr hx, rfl⟩

omit [DecidableEq E] in
/-- No slot is listed twice. -/
theorem nodup_memberStats (hub : Routes E) : (memberStats hub).Nodup := by
  refine List.nodup_flatMap.mpr ⟨fun claim _ => ?_, ?_⟩
  · refine List.Nodup.of_map MemberStat.slot ?_
    rw [List.map_map]
    exact claim.2.slots.nodup_zipIdx_map_snd
  · have hkeys : hub.table.entries.Pairwise fun a b => a.1 ≠ b.1 :=
      List.pairwise_map.mp hub.table.nodupKeys
    refine hkeys.imp fun {a b} hne => List.disjoint_left.mpr fun m ha hb => hne ?_
    obtain ⟨x, -, rfl⟩ := List.mem_map.mp ha
    obtain ⟨y, -, heq⟩ := List.mem_map.mp hb
    exact (congrArg MemberStat.endpoint heq).symm

/-- The lanes a look sees. -/
theorem mem_seen : m ∈ s.seen endpoint ↔ ∃ k x n key, s.hub.entryAt endpoint k = some x ∧
    x.queue = some n ∧ x.lane = some key ∧ m = slotStat endpoint k x := by
  rw [Session.seen, List.mem_filter, List.mem_filter, mem_memberStats, Bool.and_eq_true,
    decide_eq_true_eq]
  constructor
  · rintro ⟨⟨⟨e, k, x, hx, rfl⟩, rfl, hlive⟩, hlane⟩
    obtain ⟨n, hn⟩ := Option.isSome_iff_exists.mp hlive
    obtain ⟨key, hkey⟩ := Option.isSome_iff_exists.mp hlane
    exact ⟨k, x, n, key, hx, hn, hkey, rfl⟩
  · rintro ⟨k, x, n, key, hx, hn, hkey, rfl⟩
    exact ⟨⟨⟨endpoint, k, x, hx, rfl⟩, rfl, Option.isSome_iff_exists.mpr ⟨n, hn⟩⟩,
      Option.isSome_iff_exists.mpr ⟨key, hkey⟩⟩

theorem nodup_seen (s : Session E) (endpoint : E) : (s.seen endpoint).Nodup :=
  ((nodup_memberStats s.hub).filter _).filter _

end Members

/-! ## 6. Every run -/

/-- The counters only grow. -/
structure LaneSample.Le (a b : LaneSample) : Prop where
  offered : a.offered ≤ b.offered
  refused : a.refused ≤ b.refused
  injected : a.injected ≤ b.injected

theorem LaneSample.Le.refl (a : LaneSample) : a.Le a :=
  ⟨Nat.le_refl _, Nat.le_refl _, Nat.le_refl _⟩

theorem LaneSample.Le.trans {a b c : LaneSample} (hab : a.Le b) (hbc : b.Le c) : a.Le c :=
  ⟨hab.offered.trans hbc.offered, hab.refused.trans hbc.refused, hab.injected.trans hbc.injected⟩

/-- **What holds between the steps.** -/
structure Inv {E : Type} [DecidableEq E] (s : Session E) : Prop where
  hub : s.hub.Inv
  own : WindowsOwn s.history
  seen : ∀ x ∈ s.history, x.lane < s.hub.lanes.length
  /-- The lanes of a claim have different ids. -/
  distinct : ∀ (e : E) (k k' : Nat) x x' key key', s.hub.entryAt e k = some x →
    s.hub.entryAt e k' = some x' → x.lane = some key → x'.lane = some key' → key.id = key'.id →
      k = k'
  /-- What is kept for a lane is its own. -/
  kept : ∀ (e : E) (k n : Nat) x key, s.hub.entryAt e k = some x → x.queue = some n →
    x.lane = some key → s.last.lookup (e, key.id) = lastOf s.history n
  grows : ∀ (e : E) (k n : Nat) x previous, s.hub.entryAt e k = some x → x.queue = some n →
    lastOf s.history n = some previous → previous.Le (slotStat e k x).now

namespace Inv

variable {E : Type} [DecidableEq E] {s s' : Session E} {n : Nat}

/-- A lane that is new to the hub was never seen. -/
theorem lastOf_eq_none (h : Inv s) : lastOf s.history s.hub.lanes.length = none := by
  have hnil : s.history.filter (fun x => x.lane = s.hub.lanes.length) = [] := by
    refine List.filter_eq_nil_iff.mpr fun x hx heq => ?_
    exact absurd (of_decide_eq_true heq) (Nat.ne_of_lt (h.seen x hx))
  rw [lastOf, hnil]
  rfl

/-- The entry of a lane with an id is held. -/
theorem held (h : Inv s) {e : E} {k : Nat} {x : MemberSlot} {key : LaneKey}
    (hx : s.hub.entryAt e k = some x) (hkey : x.lane = some key) : ∃ n, x.queue = some n := by
  cases hq : x.queue with
  | none =>
    have hnone := h.hub.vacant e k x hx hq
    rw [hkey] at hnone
    cases hnone
  | some n => exact ⟨n, rfl⟩

/-- The counters of a lane that stays have grown. -/
theorem now_le (h : Inv s) {call : HubCall E} (hcumulative : cumulative s.hub call = true) {e : E}
    {k : Nat} {x y : MemberSlot} (hy : s.hub.entryAt e k = some y) (hq : y.queue = some n)
    (hinjected : y.counters.injectedPackets ≤ x.counters.injectedPackets)
    (hremote : x.remote = y.remote ∨ ∃ report, call = .report n report ∧ x.remote = some report) :
    (slotStat e k y).now.Le (slotStat e k x).now := by
  obtain heq | ⟨report, rfl, hx⟩ := hremote
  · refine ⟨?_, ?_, hinjected⟩
    · simp only [MemberStat.now, slotStat, heq, Nat.le_refl]
    · simp only [MemberStat.now, slotStat, heq, Nat.le_refl]
  · cases hr : y.remote with
    | none =>
      refine ⟨?_, ?_, hinjected⟩
      · simp only [MemberStat.now, slotStat, hr, Option.map_none, Option.getD_none, Nat.zero_le]
      · simp only [MemberStat.now, slotStat, hr, Option.map_none, Option.getD_none, Nat.zero_le]
    | some before =>
      -- the report that stood is about the same lane
      have hmem := h.hub.own.remote e k n y before hy hq hr
      have hle := List.all_eq_true.mp hcumulative _ hmem
      simp only [ne_eq, not_true_eq_false, decide_false, Bool.false_or, Bool.and_eq_true,
        decide_eq_true_eq] at hle
      refine ⟨?_, ?_, hinjected⟩
      · simp only [MemberStat.now, slotStat, hr, hx, Option.map_some, Option.getD_some]
        exact hle.1
      · simp only [MemberStat.now, slotStat, hr, hx, Option.map_some, Option.getD_some]
        exact hle.2

/-- **Something happens to the hub** that is no new lane. -/
theorem called (h : Inv s) {call : HubCall E} {hub : Routes E}
    (hjoin : ∀ e id carrier now, call ≠ .join e id carrier now)
    (hcumulative : cumulative s.hub call = true) (hok : s.hub.keepsApart call = true)
    (hs : s.hub.step call = some hub) : Inv { s with hub := hub } := by
  have hinv := h.hub.step hok hs
  have hback : ∀ e k n x, hub.entryAt e k = some x → x.queue = some n →
      s.hub.HeldSame call e k n x := by
    intro e k n x hx hq
    rcases h.hub.held_step hok hs hx hq with hsame | ⟨id, carrier, now, rfl, -⟩
    · exact hsame
    · exact absurd rfl (hjoin e id carrier now)
  have hlane : ∀ e k x key, hub.entryAt e k = some x → x.lane = some key →
      ∃ y, s.hub.entryAt e k = some y ∧ y.lane = some key := by
    intro e k x key hx hkey
    cases hq : x.queue with
    | none => exact absurd ((hinv.vacant e k x hx hq).symm.trans hkey) nofun
    | some n =>
      obtain ⟨y, hy, -, heq, -⟩ := hback e k n x hx hq
      exact ⟨y, hy, heq ▸ hkey⟩
  refine ⟨hinv, h.own, fun x hx => ?_, fun e k k' x x' key key' hx hx' hkey hkey' heq => ?_,
    fun e k n x key hx hq hkey => ?_, fun e k n x previous hx hq hp => ?_⟩
  · exact Nat.lt_of_lt_of_le (h.seen x hx) (Routes.length_lanes_step hs)
  · obtain ⟨y, hy, hykey⟩ := hlane e k x key hx hkey
    obtain ⟨y', hy', hykey'⟩ := hlane e k' x' key' hx' hkey'
    exact h.distinct e k k' y y' key key' hy hy' hykey hykey' heq
  · obtain ⟨y, hy, hyq, heq, -⟩ := hback e k n x hx hq
    exact h.kept e k n y key hy hyq (heq ▸ hkey)
  · obtain ⟨y, hy, hyq, -, hinjected, hremote⟩ := hback e k n x hx hq
    exact (h.grows e k n y previous hy hyq hp).trans (h.now_le hcumulative hy hyq hinjected hremote)

/-- **A lane joins** under a pair that is free. -/
theorem joined (h : Inv s) {d : DialedLane E} {now : Nat} {dialed : List (DialedLane E)}
    (hnone : s.last.lookup (d.endpoint, d.id) = none)
    (hfree : ∀ c, s.hub.table.lookup d.endpoint = some c → c.slotOf d.id = none)
    (hok : s.hub.keepsApart (.join d.endpoint (some d.id) d.carrier now) = true) :
    Inv { s with
      hub := s.hub.join d.endpoint (some d.id) d.carrier now
      dialed := dialed } := by
  let hub := s.hub.join d.endpoint (some d.id) d.carrier now
  have hs : s.hub.step (.join d.endpoint (some d.id) d.carrier now) = some hub := rfl
  have hinv := h.hub.step hok hs
  -- the entry was there, or is the new lane's
  have hback : ∀ e k n x, hub.entryAt e k = some x → x.queue = some n →
      (∃ y, s.hub.entryAt e k = some y ∧ y.queue = some n ∧ x.lane = y.lane ∧
        (slotStat e k y).now.Le (slotStat e k x).now) ∨
      (n = s.hub.lanes.length ∧ e = d.endpoint ∧ x.lane.map LaneKey.id = some d.id) := by
    intro e k n x hx hq
    rcases h.hub.held_step hok hs hx hq with ⟨y, hy, hyq, hlane, hinjected, hremote⟩ |
      ⟨id, carrier, now', heq, hn, hlane, -⟩
    · exact .inl ⟨y, hy, hyq, hlane, h.now_le rfl hy hyq hinjected hremote⟩
    · cases heq
      exact .inr ⟨hn, rfl, hlane⟩
  have hother : ∀ k y key, s.hub.entryAt d.endpoint k = some y → y.lane = some key →
      key.id ≠ d.id := by
    intro k y key hy hkey heq
    obtain ⟨c, hc, hslot⟩ := Option.bind_eq_some_iff.mp hy
    have hnamed := List.findIdx?_eq_none_iff.mp (hfree c hc) y (List.mem_of_getElem? hslot)
    rw [MemberSlot.named, hkey, Option.any_some, decide_eq_false_iff_not] at hnamed
    exact hnamed heq
  refine ⟨hinv, h.own, fun x hx => ?_, fun e k k' x x' key key' hx hx' hkey hkey' heq => ?_,
    fun e k n x key hx hq hkey => ?_, fun e k n x previous hx hq hp => ?_⟩
  · exact Nat.lt_of_lt_of_le (h.seen x hx) (Routes.length_lanes_step hs)
  · have hheld : ∀ j z lane, hub.entryAt e j = some z → z.lane = some lane →
        ∃ m, z.queue = some m := by
      intro j z lane hz hlane
      cases hq : z.queue with
      | none => exact absurd ((hinv.vacant e j z hz hq).symm.trans hlane) nofun
      | some m => exact ⟨m, rfl⟩
    obtain ⟨m, hm⟩ := hheld k x key hx hkey
    obtain ⟨m', hm'⟩ := hheld k' x' key' hx' hkey'
    rcases hback e k m x hx hm with ⟨y, hy, -, hyx, -⟩ | ⟨hlen, rfl, hid⟩
    · rcases hback e k' m' x' hx' hm' with ⟨y', hy', -, hyx', -⟩ | ⟨-, rfl, hid'⟩
      · exact h.distinct e k k' y y' key key' hy hy' (hyx ▸ hkey) (hyx' ▸ hkey') heq
      · rw [hkey', Option.map_some, Option.some.injEq] at hid'
        exact (hother k y key hy (hyx ▸ hkey) (heq.trans hid')).elim
    · rcases hback _ k' m' x' hx' hm' with ⟨y', hy', -, hyx', -⟩ | ⟨hlen', -, -⟩
      · rw [hkey, Option.map_some, Option.some.injEq] at hid
        exact (hother k' y' key' hy' (hyx' ▸ hkey') (heq.symm.trans hid)).elim
      · refine (hinv.holder_inj ((Routes.holder_eq hx').trans hm')
          ((Routes.holder_eq hx).trans ?_)).2
        rw [hm, hlen, hlen']
  · rcases hback e k n x hx hq with ⟨y, hy, hyq, hyx, -⟩ | ⟨rfl, rfl, hid⟩
    · exact h.kept e k n y key hy hyq (hyx ▸ hkey)
    · rw [hkey, Option.map_some, Option.some.injEq] at hid
      rw [hid]
      exact hnone.trans h.lastOf_eq_none.symm
  · rcases hback e k n x hx hq with ⟨y, hy, hyq, -, hle⟩ | ⟨rfl, -, -⟩
    · exact (h.grows e k n y previous hy hyq hp).trans hle
    · exact absurd (h.lastOf_eq_none.symm.trans hp) nofun

/-- A lane's evidence is its own. -/
theorem window_right (h : Inv s) {e : E} {k : Nat} {x : MemberSlot} {key : LaneKey}
    (hx : s.hub.entryAt e k = some x) (hq : x.queue = some n) (hkey : x.lane = some key) :
    Sampled.Right s.history ⟨n, (slotStat e k x).now, (slotStat e k x).window s.last⟩ := by
  have hkept := h.kept e k n x key hx hq hkey
  have hlane : (slotStat e k x).lane = some key := hkey
  have hendpoint : (slotStat e k x).endpoint = e := rfl
  unfold Sampled.Right MemberStat.window
  dsimp only
  rw [hlane, hendpoint, Option.bind_some, hkept]
  cases hlast : lastOf s.history n with
  | none => trivial
  | some previous =>
    obtain ⟨ho, hr, hi⟩ := h.grows e k n x previous hx hq hlast
    exact ⟨Nat.add_sub_cancel' ho, Nat.add_sub_cancel' hr, Nat.add_sub_cancel' hi⟩

/-- **One look.** -/
theorem looked (h : Inv s) (endpoint : E) : Inv (s.look endpoint) := by
  let seen := s.seen endpoint
  let more : List Sampled := seen.map fun m => ⟨m.live.getD 0, m.now, m.window s.last⟩
  have hlanes : (more.map Sampled.lane).Nodup := by
    rw [List.map_map]
    refine List.Nodup.map_on (fun m hm m' hm' heq => ?_) (nodup_seen s endpoint)
    obtain ⟨k, x, n, key, hx, hq, -, rfl⟩ := mem_seen.mp hm
    obtain ⟨k', x', n', key', hx', hq', -, rfl⟩ := mem_seen.mp hm'
    change x.queue.getD 0 = x'.queue.getD 0 at heq
    rw [hq, hq', Option.getD_some, Option.getD_some] at heq
    subst heq
    obtain ⟨-, rfl⟩ := h.hub.holder_inj ((Routes.holder_eq hx').trans hq')
      ((Routes.holder_eq hx).trans hq)
    rw [hx] at hx'
    cases hx'
    rfl
  have hkeys : (seen.map MemberStat.key).Nodup := by
    refine List.Nodup.map_on (fun m hm m' hm' heq => ?_) (nodup_seen s endpoint)
    obtain ⟨k, x, n, key, hx, -, hkey, rfl⟩ := mem_seen.mp hm
    obtain ⟨k', x', n', key', hx', -, hkey', rfl⟩ := mem_seen.mp hm'
    change (x.lane.map fun lane => (endpoint, lane.id)) =
      x'.lane.map fun lane => (endpoint, lane.id) at heq
    rw [hkey, hkey', Option.map_some, Option.map_some, Option.some.injEq, Prod.mk.injEq] at heq
    obtain rfl := h.distinct endpoint k k' x x' key key' hx hx' hkey hkey' heq.2
    rw [hx] at hx'
    cases hx'
    rfl
  have hlast : (s.look endpoint).last = seen.foldl (fun last m => m.keep last) s.last :=
    foldl_keep_filter _ s.last
  have hhistory : (s.look endpoint).history = s.history ++ more := rfl
  -- a slot that the look does not sample has a lane it does not see
  have hother : ∀ e k n x, s.hub.entryAt e k = some x → x.queue = some n →
      slotStat e k x ∉ seen → ∀ y ∈ more, y.lane ≠ n := by
    rintro e k n x hx hq hnot y hy rfl
    obtain ⟨m, hm, rfl⟩ := List.mem_map.mp hy
    obtain ⟨k', x', n', key', hx', hq', -, rfl⟩ := mem_seen.mp hm
    change x.queue = some (x'.queue.getD 0) at hq
    rw [hq', Option.getD_some] at hq
    obtain ⟨rfl, rfl⟩ := h.hub.holder_inj ((Routes.holder_eq hx').trans hq')
      ((Routes.holder_eq hx).trans hq)
    rw [hx] at hx'
    cases hx'
    exact hnot hm
  refine ⟨h.hub, ?_, fun y hy => ?_, h.distinct, fun e k n x key hx hq hkey => ?_,
    fun e k n x previous hx hq hp => ?_⟩
  · refine h.own.append (fun y hy => ?_) hlanes
    obtain ⟨m, hm, rfl⟩ := List.mem_map.mp hy
    obtain ⟨k, x, n, key, hx, hq, hkey, rfl⟩ := mem_seen.mp hm
    have hn : (slotStat endpoint k x).live.getD 0 = n := by
      change x.queue.getD 0 = n
      rw [hq]
      rfl
    rw [hn]
    exact h.window_right hx hq hkey
  · rw [hhistory] at hy
    rcases List.mem_append.mp hy with hy | hy
    · exact h.seen y hy
    · obtain ⟨m, hm, rfl⟩ := List.mem_map.mp hy
      obtain ⟨k, x, n, key, hx, hq, -, rfl⟩ := mem_seen.mp hm
      change x.queue.getD 0 < s.hub.lanes.length
      rw [hq]
      obtain ⟨l, hl, -⟩ := h.hub.holds endpoint k n x hx hq
      exact (List.getElem?_eq_some_iff.mp hl).1
  · rw [hlast, hhistory]
    by_cases he : e = endpoint
    · subst he
      have hmem : slotStat e k x ∈ seen := mem_seen.mpr ⟨k, x, n, key, hx, hq, hkey, rfl⟩
      have hkey' : (slotStat e k x).key = some (e, key.id) := by
        change (x.lane.map fun lane => (e, lane.id)) = _
        rw [hkey]
        rfl
      have hn : (slotStat e k x).live.getD 0 = n := by
        change x.queue.getD 0 = n
        rw [hq]
        rfl
      rw [lookup_keep_of_mem hmem hkey' hkeys]
      have hof := lastOf_append_of_mem s.history (List.mem_map_of_mem hmem) hlanes
      dsimp only at hof
      rw [hn] at hof
      exact hof.symm
    · have hnot : slotStat e k x ∉ seen := by
        intro hmem
        obtain ⟨k', x', n', key', -, -, -, heq⟩ := mem_seen.mp hmem
        exact he (congrArg MemberStat.endpoint heq)
      rw [lastOf_append_of_notMem (hother e k n x hx hq hnot), lookup_keep_of_notMem]
      · exact h.kept e k n x key hx hq hkey
      · intro m hm heq
        obtain ⟨k', x', n', key', -, -, -, rfl⟩ := mem_seen.mp hm
        exact he (MemberStat.fst_key heq)
  · rw [hhistory] at hp
    by_cases hmem : slotStat e k x ∈ seen
    · have hn : (slotStat e k x).live.getD 0 = n := by
        change x.queue.getD 0 = n
        rw [hq]
        rfl
      have hof := lastOf_append_of_mem s.history (List.mem_map_of_mem hmem) hlanes
      dsimp only at hof
      rw [hn] at hof
      cases hof.symm.trans hp
      exact .refl _
    · rw [lastOf_append_of_notMem (hother e k n x hx hq hmem)] at hp
      exact h.grows e k n x previous hx hq hp

/-- **One step** that keeps the lanes apart. -/
theorem step {e : Event E} (h : Inv s) (hok : s.keepsApart e = true) (hs : s.step e = some s') :
    Inv s' := by
  cases e with
  | activate endpoint =>
    cases hs
    exact ⟨h.hub, h.own, h.seen, h.distinct, h.kept, h.grows⟩
  | dial a carrier =>
    simp only [Session.step] at hs
    split at hs
    case h_1 =>
      cases hs
      exact ⟨h.hub, h.own, h.seen, h.distinct, h.kept, h.grows⟩
    case h_2 => cases hs
  | join i now =>
    obtain ⟨d, hd, rfl⟩ := Option.map_eq_some_iff.mp hs
    rw [Session.keepsApart, hd, Option.all_some, Bool.and_eq_true, Bool.and_eq_true,
      Option.isNone_iff_eq_none] at hok
    obtain ⟨⟨hnone, hfree⟩, hapart⟩ := hok
    refine h.joined hnone (fun c hc => ?_) hapart
    rw [hc, Option.all_some, Option.isNone_iff_eq_none] at hfree
    exact hfree
  | hub call =>
    cases call with
    | join e id carrier now => cases hs
    | _ =>
      simp only [Session.step, Option.ite_none_right_eq_some, Option.map_eq_some_iff] at hs
      obtain ⟨hcumulative, hub, hstep, rfl⟩ := hs
      exact h.called (fun _ _ _ _ heq => by cases heq) hcumulative hok hstep
  | sample endpoint =>
    cases hs
    exact h.looked endpoint

end Inv

/-- **The windows are the lanes' own**, in every run in which no lane joins under a claim and an id
that were sampled before, or that a lane of the hub has, and in which the hub keeps its lanes apart:
each window is the difference of what two looks saw of that lane, a lane seen for the first time has
none, and what the looks see in a slot is what the lane there carried and what was said of it. -/
theorem windows_own {E : Type} [DecidableEq E] {s : Session E}
    (h : ((laneSamples E).restrict fun s e => s.keepsApart e = true).Reach s) :
    WindowsOwn s.history ∧ s.hub.EvidenceOwn := by
  have hinv : Inv s := by
    refine h.invariant (P := Inv) ?_ ?_
    · rintro s rfl
      refine ⟨inv_of_reach (.init rfl), fun before x after heq => ?_, nofun, ?_, ?_, ?_⟩
      · cases before with
        | nil => cases heq
        | cons y before => cases heq
      · intro e k k' x x' key key' hx
        cases hx
      · intro e k n x key hx
        cases hx
      · intro e k n x previous hx
        cases hx
    · rintro s e s' hinv ⟨hok, hs⟩
      exact hinv.step hok hs
  exact ⟨hinv.own, hinv.hub.own⟩

/-- Two lanes of a claim, a report, and three looks; the second lane joins after the first look. -/
def twoLanes : List (Event Nat) :=
  [.activate 5, .dial 0 (some .kcp), .join 0 0, .hub (.inject 0 3 120), .sample 5,
    .dial 0 (some .tcp), .join 0 0, .hub (.report 0 ⟨10, 4, 0⟩), .hub (.inject 1 6 240), .sample 5,
    .hub (.report 0 ⟨12, 4, 1⟩), .hub (.inject 1 1 40), .sample 5]

theorem windows_own_twoLanes :
    ∃ s, ((laneSamples Nat).restrict fun s e => s.keepsApart e = true).Reach s ∧
      s.history.map (fun x => (x.lane, x.window.map fun w => (w.offered, w.refused, w.injected))) =
        [(0, none), (0, some (10, 4, 0)), (1, none), (0, some (2, 0, 0)), (1, some (0, 0, 1))] ∧
      WindowsOwn s.history ∧ s.hub.EvidenceOwn := by
  have hrun : (Lts.runWith Session.step Session.keepsApart .new twoLanes).any (fun s =>
      s.history.map (fun x => (x.lane, x.window.map fun w => (w.offered, w.refused, w.injected))) =
        [(0, none), (0, some (10, 4, 0)), (1, none), (0, some (2, 0, 0)),
          (1, some (0, 0, 1))]) = true := by
    decide +kernel
  obtain ⟨s, hreach, hs⟩ := Lts.Reach.exists_runWith (T := laneSamples Nat)
    (C := fun s e => s.keepsApart e = true) (fun _ _ _ h => h) (fun _ _ h => h) rfl hrun
  exact ⟨s, hreach, of_decide_eq_true hs, windows_own hreach⟩

/-- A claim's lane is sampled and leaves with its session; the claim is activated again, and its
first lane is number 1 again. -/
def reconnected : List (Event Nat) :=
  [.activate 5, .dial 0 (some .kcp), .join 0 0, .hub (.inject 0 5 200), .sample 5,
    .hub (.vacate 0), .activate 5, .dial 1 (some .kcp), .join 0 0, .hub (.inject 1 7 280), .sample 5]

/-- **A window of another lane**: the new lane is seen for the first time, and its evidence is the
difference to what the old one had carried. -/
theorem window_of_another_lane :
    ∃ s, (laneSamples Nat).Reach s ∧
      s.history = [⟨0, ⟨0, 0, 5⟩, none⟩, ⟨1, ⟨0, 0, 7⟩, some ⟨0, 1, some .kcp, 0, 0, 2⟩⟩] ∧
      ¬ (WindowsOwn s.history ∧ s.hub.EvidenceOwn) := by
  have hrun : (Lts.runWith Session.step (fun _ _ => true) .new reconnected).any (fun s =>
      s.history = [⟨0, ⟨0, 0, 5⟩, none⟩,
        ⟨1, ⟨0, 0, 7⟩, some ⟨0, 1, some .kcp, 0, 0, 2⟩⟩]) = true := by
    decide +kernel
  obtain ⟨s, hreach, hs⟩ := Lts.Reach.exists_run (T := laneSamples Nat) (fun _ _ _ h => h) rfl hrun
  have hhistory := of_decide_eq_true hs
  refine ⟨s, hreach, hhistory, fun hown => ?_⟩
  exact hown.1 [⟨0, ⟨0, 0, 5⟩, none⟩] _ [] hhistory

/-- Lanes 1 and 2 of a claim join, the first is reported of and leaves, and lane 3 takes its slot;
lane 3 is sampled, reported of, and sampled again. -/
def inherited : List (Event Nat) :=
  [.activate 5, .dial 0 (some .kcp), .dial 0 (some .kcp), .dial 0 (some .tcp), .join 0 0, .join 0 0,
    .hub (.report 0 ⟨10, 4, 0⟩), .hub (.vacate 0), .join 0 0, .sample 5,
    .hub (.report 2 ⟨2, 0, 1⟩), .sample 5]

/-- **A window against an inherited report**: the third lane's id is its own, and at its second look
the two packets the peer offered it are gone, because the report that its slot had was about another
lane. -/
theorem window_of_inherited_report :
    ∃ s, (laneSamples Nat).Reach s ∧
      s.history.filter (fun x => x.lane = 2) =
        [⟨2, ⟨10, 4, 0⟩, none⟩, ⟨2, ⟨2, 0, 0⟩, some ⟨0, 3, some .tcp, 0, 0, 0⟩⟩] := by
  have hrun : (Lts.runWith Session.step (fun _ _ => true) .new inherited).any (fun s =>
      s.history.filter (fun x => x.lane = 2) =
        [⟨2, ⟨10, 4, 0⟩, none⟩, ⟨2, ⟨2, 0, 0⟩, some ⟨0, 3, some .tcp, 0, 0, 0⟩⟩]) = true := by
    decide +kernel
  obtain ⟨s, hreach, hs⟩ := Lts.Reach.exists_run (T := laneSamples Nat) (fun _ _ _ h => h) rfl hrun
  exact ⟨s, hreach, of_decide_eq_true hs⟩

end Molehill.Client.Evidence
