/-
# A visitor's stripes, from the server to the client

The server gathers the data channels of one visitor and tells each its group and its index
(`pair_striped_group`); the client reads what each of its channels was told, in any order, and
parks it until its group is complete (`StripeGroups::register`).  What the server gives up it
releases, by a request of its own that overtakes, and is overtaken by, what the channels carry.

The two ends meet at the channels alone, and still agree (`stripes_agree`): a group that the client
hands out is one attempt's, with the channels in the order the server told them; no stripe is
refused; and a group that the server forwards is complete at the client once its channels have come,
unless it waited there for longer than the retention time.  The ids wrap at `2 ^ 32`; the results
are for the attempts before that.
-/
import Mathlib.Data.List.Perm.Basic
import Molehill.Server.StripePairing

namespace Molehill.Session.Striping

open Lib Stripe Server.Pairing

/-! ## 1. What a group was told -/

/-- The labels of a group's channels, in order. -/
def labelsOf (group count : Nat) (channels : List Nat) : List (Nat × Offer) :=
  channels.zipIdx.map fun p => (p.1, ⟨group, p.2, count⟩)

section

variable {group count c i : Nat} {cs : List Nat} {o : Offer}

@[simp] theorem labelsOf_nil (group count : Nat) : labelsOf group count [] = [] := rfl

theorem labelsOf_concat (group count : Nat) (cs : List Nat) (c : Nat) :
    labelsOf group count (cs ++ [c]) =
      labelsOf group count cs ++ [(c, ⟨group, cs.length, count⟩)] := by
  simp [labelsOf, List.zipIdx_append]

theorem mem_labelsOf :
    (c, o) ∈ labelsOf group count cs ↔ ∃ i, cs[i]? = some c ∧ o = ⟨group, i, count⟩ := by
  simp only [labelsOf, List.mem_map, Prod.mk.injEq, Prod.exists, List.mk_mem_zipIdx_iff_getElem?]
  constructor
  · rintro ⟨d, i, hd, rfl, rfl⟩
    exact ⟨i, hd, rfl⟩
  · rintro ⟨i, hi, rfl⟩
    exact ⟨c, i, hi, rfl, rfl⟩

@[simp] theorem map_fst_labelsOf : (labelsOf group count cs).map Prod.fst = cs := by
  rw [labelsOf, List.map_map]
  exact List.zipIdx_map_fst 0 cs

theorem labelsOf_inj {count' : Nat} {cs' : List Nat}
    (h : labelsOf group count cs = labelsOf group count' cs') (hcs : 0 < cs.length) :
    cs = cs' ∧ count = count' := by
  have hsame := congrArg (List.map Prod.fst) h
  rw [map_fst_labelsOf, map_fst_labelsOf] at hsame
  have hmem : (cs[0], ⟨group, 0, count⟩) ∈ labelsOf group count cs :=
    mem_labelsOf.mpr ⟨0, List.getElem?_eq_getElem hcs, rfl⟩
  rw [h] at hmem
  obtain ⟨i, -, heq⟩ := mem_labelsOf.mp hmem
  exact ⟨hsame, congrArg Offer.count heq⟩

end

/-- The labels the server wrote for a group. -/
def told (s : Pool) (group : Nat) : List (Nat × Offer) :=
  s.labels.filter fun l => decide (l.2.group = group)

theorem mem_told {s : Pool} {group : Nat} {l : Nat × Offer} :
    l ∈ told s group ↔ l ∈ s.labels ∧ l.2.group = group := by
  rw [told, List.mem_filter, decide_eq_true_eq]

/-- The group of the attempt under way. -/
def held (x : Visitor) : Option Nat := x.attempt.map Attempt.group

/-- The channels the visitor told its group; the one it is writing to is the last. -/
def channels (x : Visitor) : List Nat :=
  match x.phase with
  | .gathering a _ => a.gathered
  | .writing a _ channel => a.gathered ++ [channel]
  | .waiting | .finished => []

/-- The groups of all attempts, ended and under way. -/
def groups (s : Pool) : List Nat :=
  s.ended.map (fun e => e.attempt.group) ++ s.visitors.filterMap held

/-! ## 2. What one step of the server does -/

/-- A visitor's turn, as its attempts go: every group it had or drew is in one place after it, an
attempt under way keeps its channels or has none yet, one that is forwarded has them all, and only
what is given up is released. -/
structure Goes (s : Pool) (x x' : Visitor) (ends : List Ended) (asks : List DataChannelRequest)
    (draws : Bool) : Prop where
  count : x'.count = x.count
  places : (ends.map (fun e => e.attempt.group) ++ (held x').toList).Perm
    ((held x).toList ++ if draws then [s.groupIds] else [])
  keeps : ∀ g, held x' = some g → (held x = some g ∧ channels x' = channels x) ∨
    (draws = true ∧ g = s.groupIds ∧ channels x' = [])
  forwards : ∀ e ∈ ends, e.forwarded = true → e.count = x.count ∧ held x = some e.attempt.group ∧
    e.attempt.gathered = channels x ∧ e.attempt.gathered.length = e.count ∧
      (x.Fits s.labels → e.attempt.Fits s.labels e.count)
  releases : ∀ g, .releaseGroup g ∈ asks → ∃ e ∈ ends, e.attempt.group = g ∧ e.forwarded = false
  fits : x.Fits s.labels → x'.Fits s.labels

/-- What one step does. -/
inductive Moved (s : Pool) : Pool → Prop
  | turned {v : Nat} {x x' : Visitor} {ends : List Ended} {asks : List DataChannelRequest}
      {draws : Bool} {s' : Pool} (hv : s.visitors[v]? = some x)
      (hturn : Turn s v x' ends asks draws s') (hids : draws = true → s.begun.length < 2 ^ 32)
      (hgoes : Goes s x x' ends asks draws) : Moved s s'
  | labelled {v count tries channel : Nat} {a : Attempt} {rest : List Nat}
      (hv : s.visitors[v]? = some ⟨count, .gathering a tries⟩) (hq : s.queue = channel :: rest) :
      Moved s { s with
        queue := rest
        labels := s.labels ++ [(channel, ⟨a.group, a.gathered.length, count⟩)]
        visitors := s.visitors.set v ⟨count, .writing a tries channel⟩ }
  | visited (counter : Nat) :
      Moved s { s with visitors := s.visitors ++ [⟨target counter, .waiting⟩] }
  | arrived :
      Moved s { s with queue := s.queue ++ [s.nextChannel], nextChannel := s.nextChannel + 1 }
  | passed {request : DataChannelRequest} {rest : List DataChannelRequest}
      (hr : s.requests = request :: rest) :
      Moved s { s with requests := rest, sent := s.sent ++ [request] }
  | drawn (hids : s.begun.length < 2 ^ 32) :
      Moved s { s with groupIds := (s.groupIds + 1) % 2 ^ 32, begun := s.begun ++ [s.groupIds] }
  | flagged {queueOpen controlAlive shutdown sessionUp : Bool} :
      Moved s { s with
        queueOpen := queueOpen, controlAlive := controlAlive, shutdown := shutdown
        sessionUp := sessionUp }

/-- An id is left to draw. -/
def idsLeft (s : Pool) : Event → Prop
  | .start _ | .written _ false | .elsewhere => s.begun.length < 2 ^ 32
  | _ => True

instance (s : Pool) (e : Event) : Decidable (idsLeft s e) :=
  match e with
  | .start _ | .written _ false | .elsewhere =>
    inferInstanceAs (Decidable (s.begun.length < 2 ^ 32))
  | .visit _ | .arrive | .take _ | .budget _ | .stop _ | .written _ true | .pass | .shutdown
  | .controlEnds | .queueCloses | .sessionGone => inferInstanceAs (Decidable True)

section

variable {s s' : Pool} {v count tries channel : Nat} {a : Attempt}

/-- The stripes an attempt asks for. -/
def stripes (group : Nat) (indices : List Nat) (count : Nat) : List DataChannelRequest :=
  indices.map fun index => .stripe group index count

theorem releaseGroup_notMem_stripes {group g count : Nat} {indices : List Nat} :
    .releaseGroup g ∉ stripes group indices count := by
  simp [stripes]

/-- The next attempt begins, if somebody reads its requests. -/
theorem begin_turn (s : Pool) (v : Nat) (x : Visitor) :
    (s.controlAlive = true ∧
        Turn s v ⟨x.count, .gathering ⟨s.groupIds, []⟩ 0⟩ []
          (stripes s.groupIds (List.range x.count) x.count) true (s.beginAttempt v x)) ∨
      (s.controlAlive = false ∧
        Turn s v ⟨x.count, .finished⟩ [⟨⟨s.groupIds, []⟩, x.count, false⟩] [] true
          (s.beginAttempt v x)) := by
  unfold Pool.beginAttempt
  dsimp only
  split
  case isTrue hc =>
    refine .inl ⟨hc, ?_⟩
    rw [Pool.send_eq]
    exact ⟨rfl, (List.append_nil _).symm, rfl, rfl, rfl, rfl, rfl, rfl, rfl, rfl, rfl, rfl, rfl⟩
  case isFalse hc =>
    refine .inr ⟨Bool.eq_false_iff.mpr hc, rfl, rfl, ?_, rfl, rfl, rfl, rfl, rfl, rfl, rfl, rfl,
      rfl, rfl⟩
    rw [List.append_nil, ite_self]
    rfl

theorem moved_start (hv : s.visitors[v]? = some ⟨count, .waiting⟩)
    (hids : s.begun.length < 2 ^ 32) (gather : Option Nat) :
    Moved s ({ s with gather := gather }.beginAttempt v ⟨count, .waiting⟩) := by
  rcases begin_turn { s with gather := gather } v ⟨count, .waiting⟩ with ⟨-, ht⟩ | ⟨-, ht⟩
  · refine .turned hv ⟨ht.visitors, ht.ended, ht.requests, ht.begun, ht.groupIds, ht.queue,
      ht.nextChannel, ht.labels, ht.sent, ht.queueOpen, ht.controlAlive, ht.shutdown,
      ht.sessionUp⟩ (fun _ => hids) ?_
    refine ⟨rfl, List.Perm.refl _, fun g hg => .inr ⟨rfl, (Option.some.inj hg).symm, rfl⟩,
      fun e he => absurd he List.not_mem_nil, fun g hg => ?_, fun hx => ?_⟩
    · exact absurd hg releaseGroup_notMem_stripes
    · exact Visitor.fits_gathering hx.count (Attempt.fits_nil _ _ _) hx.count
  · refine .turned hv ⟨ht.visitors, ht.ended, ht.requests, ht.begun, ht.groupIds, ht.queue,
      ht.nextChannel, ht.labels, ht.sent, ht.queueOpen, ht.controlAlive, ht.shutdown,
      ht.sessionUp⟩ (fun _ => hids) ?_
    refine ⟨rfl, List.Perm.refl _, (fun g hg => by cases hg), fun e he hf => ?_,
      fun g hg => absurd hg List.not_mem_nil, fun hx => Visitor.fits_finished hx.count⟩
    rw [List.mem_singleton.mp he] at hf
    cases hf

/-- A visitor that is given up: only its own group may be released. -/
theorem goes_dropped {phase : Phase} {asks : List DataChannelRequest}
    (hattempt : (⟨count, phase⟩ : Visitor).attempt = some a)
    (hasks : ∀ g, .releaseGroup g ∈ asks → g = a.group) :
    Goes s ⟨count, phase⟩ ⟨count, .finished⟩ [⟨a, count, false⟩] asks false := by
  refine ⟨rfl, ?_, (fun g hg => by cases hg), fun e he hf => ?_, fun g hg => ?_,
    fun hx => Visitor.fits_finished hx.count⟩
  · have hheld : held ⟨count, phase⟩ = some a.group := by rw [held, hattempt, Option.map_some]
    rw [hheld]
    exact List.Perm.refl _
  · rw [List.mem_singleton.mp he] at hf
    cases hf
  · exact ⟨_, List.mem_singleton_self _, (hasks g hg).symm, rfl⟩

theorem moved_budget (hv : s.visitors[v]? = some ⟨count, .gathering a tries⟩) :
    Moved s (s.budget v ⟨count, .gathering a tries⟩ a tries) := by
  unfold Pool.budget
  split
  case isTrue =>
    have ht : Turn s v ⟨count, .finished⟩ [⟨a, count, false⟩] [.releaseGroup a.group] false
        (((s.send [.releaseGroup a.group]).settle a count false).leave v
          ⟨count, .gathering a tries⟩) := by
      rw [Pool.send_eq]
      exact ⟨rfl, rfl, rfl, rfl, rfl, rfl, rfl, rfl, rfl, rfl, rfl, rfl, rfl⟩
    refine .turned hv ht (fun h => by cases h) (goes_dropped rfl fun g hg => ?_)
    exact DataChannelRequest.releaseGroup.inj (List.mem_singleton.mp hg)
  case isFalse =>
    split
    case isTrue hc =>
      have ht : Turn s v ⟨count, .gathering a (tries + 1)⟩ []
          (stripes a.group (List.range' a.gathered.length (count - a.gathered.length)) count) false
          ((s.send (stripes a.group
            (List.range' a.gathered.length (count - a.gathered.length)) count)).setPhase v
              ⟨count, .gathering a tries⟩ (.gathering a (tries + 1))) := by
        rw [Pool.send_eq]
        exact ⟨rfl, (List.append_nil _).symm, rfl, rfl, rfl, rfl, rfl, rfl, rfl, rfl, rfl, rfl, rfl⟩
      refine .turned hv ht (fun h => by cases h) ⟨rfl, List.Perm.refl _, fun g hg => .inl ⟨hg, rfl⟩,
        fun e he => absurd he List.not_mem_nil, fun g hg => ?_, fun hx => ?_⟩
      · exact absurd hg releaseGroup_notMem_stripes
      · exact Visitor.fits_gathering hx.count (hx.attempt a rfl).1 (hx.attempt a rfl).2
    case isFalse hc =>
      exact .turned hv (s.turn_stop v _ a false) (fun h => by cases h)
        (goes_dropped rfl fun g hg => absurd hg List.not_mem_nil)

theorem moved_stop (hv : s.visitors[v]? = some ⟨count, .gathering a tries⟩) :
    Moved s ((s.settle a count false).leave v ⟨count, .gathering a tries⟩) :=
  .turned hv (s.turn_stop v ⟨count, .gathering a tries⟩ a false) (fun h => by cases h)
    (goes_dropped rfl fun g hg => absurd hg List.not_mem_nil)

theorem moved_gathered (hv : s.visitors[v]? = some ⟨count, .writing a tries channel⟩) :
    Moved s (s.gathered v ⟨count, .writing a tries channel⟩ a tries channel) := by
  have hsnoc : (⟨count, .writing a tries channel⟩ : Visitor).Fits s.labels →
      (⟨a.group, a.gathered ++ [channel]⟩ : Attempt).Fits s.labels count :=
    fun hx => (hx.attempt a rfl).1.snoc (hx.writing a tries channel rfl)
  rcases s.turn_gathered v ⟨count, .writing a tries channel⟩ a tries channel with
    ⟨hcount, ht⟩ | ⟨hcount, ht⟩
  · refine .turned hv ht (fun h => by cases h) ⟨rfl, List.Perm.refl _, (fun g hg => by cases hg),
      fun e he _ => ?_, fun g hg => absurd hg List.not_mem_nil,
      fun hx => Visitor.fits_finished hx.count⟩
    rw [List.mem_singleton.mp he]
    refine ⟨rfl, rfl, rfl, ?_, hsnoc⟩
    rw [List.length_append, List.length_singleton]
    exact hcount
  · refine .turned hv ht (fun h => by cases h) ⟨rfl, List.Perm.refl _, fun g hg => .inl ⟨hg, rfl⟩,
      fun e he => absurd he List.not_mem_nil, fun g hg => absurd hg List.not_mem_nil, fun hx => ?_⟩
    refine Visitor.fits_gathering hx.count (hsnoc hx) ?_
    have hlen := (hx.attempt a rfl).2
    rw [List.length_append, List.length_singleton]
    change a.gathered.length < count at hlen
    change a.gathered.length + 1 ≠ count at hcount
    show a.gathered.length + 1 < count
    omega

/-- The channel is broken: its group is released, and another one is drawn. -/
theorem moved_broken (hv : s.visitors[v]? = some ⟨count, .writing a tries channel⟩)
    (hids : s.begun.length < 2 ^ 32) :
    Moved s (s.broken v ⟨count, .writing a tries channel⟩ a) := by
  have hreleased : ∀ g, .releaseGroup g ∈
      .releaseGroup a.group :: stripes s.groupIds (List.range count) count → g = a.group := by
    intro g hg
    rcases List.mem_cons.mp hg with hg | hg
    · exact DataChannelRequest.releaseGroup.inj hg
    · exact absurd hg releaseGroup_notMem_stripes
  have hbegin := begin_turn ((s.send [.releaseGroup a.group]).settle a count false) v
    ⟨count, .writing a tries channel⟩
  unfold Pool.broken
  generalize ((s.send [.releaseGroup a.group]).settle a count false).beginAttempt v
    ⟨count, .writing a tries channel⟩ = s' at hbegin ⊢
  rw [Pool.send_eq] at hbegin
  rcases hbegin with ⟨hc, ht⟩ | ⟨hc, ht⟩
  · have hturn : Turn s v ⟨count, .gathering ⟨s.groupIds, []⟩ 0⟩ [⟨a, count, false⟩]
        (.releaseGroup a.group :: stripes s.groupIds (List.range count) count) true s' := by
      refine ⟨ht.visitors, ?_, ?_, ht.begun, ht.groupIds, ht.queue, ht.nextChannel, ht.labels,
        ht.sent, ht.queueOpen, ht.controlAlive, ht.shutdown, ht.sessionUp⟩
      · rw [ht.ended, List.append_nil]
        rfl
      · change s.controlAlive = true at hc
        rw [ht.requests, Pool.settle, if_pos hc, if_pos hc, if_pos hc, List.append_assoc]
        rfl
    refine .turned hv hturn (fun _ => hids) ⟨rfl, List.Perm.refl _,
      fun g hg => .inr ⟨rfl, (Option.some.inj hg).symm, rfl⟩, fun e he hf => ?_, fun g hg => ?_,
      fun hx => ?_⟩
    · rw [List.mem_singleton.mp he] at hf
      cases hf
    · exact ⟨_, List.mem_singleton_self _, (hreleased g hg).symm, rfl⟩
    · exact Visitor.fits_gathering hx.count (Attempt.fits_nil _ _ _) hx.count
  · have hturn : Turn s v ⟨count, .finished⟩
        [⟨a, count, false⟩, ⟨⟨s.groupIds, []⟩, count, false⟩] [] true s' := by
      refine ⟨ht.visitors, ?_, ?_, ht.begun, ht.groupIds, ht.queue, ht.nextChannel, ht.labels,
        ht.sent, ht.queueOpen, ht.controlAlive, ht.shutdown, ht.sessionUp⟩
      · rw [ht.ended, Pool.settle, List.append_assoc]
        rfl
      · change s.controlAlive = false at hc
        rw [ht.requests, Pool.settle, hc]
        rfl
    refine .turned hv hturn (fun _ => hids) ⟨rfl, List.Perm.refl _, (fun g hg => by cases hg),
      fun e he hf => ?_, fun g hg => absurd hg List.not_mem_nil,
      fun hx => Visitor.fits_finished hx.count⟩
    rcases List.mem_cons.mp he with rfl | he
    · cases hf
    · rw [List.mem_singleton.mp he] at hf
      cases hf

theorem moved_of_step {e : Event} (hids : idsLeft s e) (hs : s.step e = some s') : Moved s s' := by
  cases e with
  | visit counter =>
    cases hs
    exact .visited counter
  | start v =>
    simp only [Pool.step] at hs
    split at hs
    case h_1 count hv =>
      split at hs
      case isTrue =>
        cases hs
        exact moved_start hv hids s.gather
      case isFalse =>
        split at hs
        case isTrue =>
          cases hs
          exact moved_start hv hids (some v)
        case isFalse => cases hs
    case h_2 => cases hs
  | arrive =>
    simp only [Pool.step] at hs
    split at hs
    case isTrue =>
      cases hs
      exact .arrived
    case isFalse => cases hs
  | take v =>
    simp only [Pool.step] at hs
    split at hs
    case h_1 count a tries channel rest hv hq =>
      cases hs
      exact .labelled hv hq
    case h_2 => cases hs
  | budget v =>
    simp only [Pool.step] at hs
    split at hs
    case h_1 count a tries hv =>
      cases hs
      exact moved_budget hv
    case h_2 => cases hs
  | stop v =>
    simp only [Pool.step] at hs
    split at hs
    case h_1 count a tries hv =>
      split at hs
      case isTrue =>
        cases hs
        exact moved_stop hv
      case isFalse => cases hs
    case h_2 => cases hs
  | written v ok =>
    simp only [Pool.step] at hs
    split at hs
    case h_1 count a tries channel hv =>
      cases ok with
      | true =>
        cases hs
        exact moved_gathered hv
      | false =>
        cases hs
        exact moved_broken hv hids
    case h_2 => cases hs
  | pass =>
    simp only [Pool.step] at hs
    split at hs
    case h_1 request rest hr =>
      split at hs
      case isTrue =>
        cases hs
        exact .passed hr
      case isFalse => cases hs
    case h_2 => cases hs
  | shutdown | controlEnds | queueCloses | sessionGone =>
    cases hs
    exact .flagged
  | elsewhere =>
    cases hs
    exact .drawn hids

end

/-! ## 3. What every run of the server keeps -/

/-- Every group is one attempt's, was told its own channels in order, and is released only if the
attempt was given up. -/
structure Grouped (s : Pool) : Prop where
  numbered : Server.Pairing.Numbered s
  labelled : Server.Pairing.Labelled s
  apart : (groups s).Nodup
  begun : ∀ g ∈ groups s, g ∈ s.begun
  visitors : ∀ x ∈ s.visitors, ∀ g, held x = some g → told s g = labelsOf g x.count (channels x)
  forwarded : ∀ e ∈ s.ended, e.forwarded = true → 1 ≤ e.count ∧
    told s e.attempt.group = labelsOf e.attempt.group e.count e.attempt.gathered
  told : ∀ g, ∃ count cs, told s g = labelsOf g count cs ∧ cs.length ≤ count ∧
    (cs ≠ [] → g ∈ s.begun)
  released : ∀ g, .releaseGroup g ∈ s.sent ++ s.requests →
    ∃ e ∈ s.ended, e.attempt.group = g ∧ e.forwarded = false

theorem filterMap_cons_toList {α β : Type} (f : α → Option β) (a : α) (l : List α) :
    (a :: l).filterMap f = (f a).toList ++ l.filterMap f := by
  rw [List.filterMap_cons]
  cases f a <;> rfl

section

variable {s s' : Pool} {v : Nat} {x x' : Visitor} {ends : List Ended}
  {asks : List DataChannelRequest} {draws : Bool}

/-- A visitor that stays in its group. -/
theorem filterMap_held_set (hv : s.visitors[v]? = some x) (hheld : held x' = held x) :
    (s.visitors.set v x').filterMap held = s.visitors.filterMap held := by
  obtain ⟨hlt, rfl⟩ := List.getElem?_eq_some_iff.mp hv
  have hid : ∀ l : List Visitor, l.filterMap held = (l.map held).filterMap id := fun l => by
    rw [List.filterMap_map]
    rfl
  have hset : (s.visitors.map held).set v (held s.visitors[v]) = s.visitors.map held := by
    rw [← List.map_set, List.set_getElem_self]
  rw [hid, hid, List.map_set, hheld, hset]

/-- The groups after a turn: one more if an id was drawn. -/
theorem groups_turn (hv : s.visitors[v]? = some x) (ht : Turn s v x' ends asks draws s')
    (hgoes : Goes s x x' ends asks draws) :
    (groups s').Perm (groups s ++ if draws then [s.groupIds] else []) := by
  obtain ⟨hlt, hx⟩ := List.getElem?_eq_some_iff.mp hv
  have hold := (List.getElem_cons_eraseIdx_perm hlt).filterMap held
  have hnew := (List.set_perm_cons_eraseIdx hlt x').filterMap held
  rw [filterMap_cons_toList, hx] at hold
  rw [filterMap_cons_toList] at hnew
  rw [groups, groups, ht.visitors, ht.ended, List.perm_iff_count]
  intro g
  have hplaces := hgoes.places.count_eq g
  have hold := hold.count_eq g
  have hnew := hnew.count_eq g
  simp only [List.count_append, List.map_append] at hplaces hold hnew ⊢
  omega

namespace Grouped

theorem held_mem (h : x ∈ s.visitors) {g : Nat} (hg : held x = some g) : g ∈ groups s :=
  List.mem_append_right _ (List.mem_filterMap.mpr ⟨x, h, hg⟩)

/-- An attempt under way is not over. -/
theorem ended_ne (h : Grouped s) {e : Ended} (he : e ∈ s.ended) (hx : x ∈ s.visitors) :
    held x ≠ some e.attempt.group := fun hg =>
  (List.nodup_append.mp h.apart).2.2 _ (List.mem_map.mpr ⟨e, he, rfl⟩) _
    (List.mem_filterMap.mpr ⟨x, hx, hg⟩) rfl

/-- Two visitors are not in one group. -/
theorem held_inj (h : Grouped s) {v' g : Nat} (hv : s.visitors[v]? = some x)
    (hv' : s.visitors[v']? = some x') (hg : held x = some g) (hg' : held x' = some g) :
    v = v' := by
  have hpairs := List.pairwise_iff_getElem.mp
    (List.pairwise_filterMap.mp (List.nodup_append.mp h.apart).2.1)
  obtain ⟨hlt, rfl⟩ := List.getElem?_eq_some_iff.mp hv
  obtain ⟨hlt', rfl⟩ := List.getElem?_eq_some_iff.mp hv'
  rcases Nat.lt_trichotomy v v' with hlt'' | rfl | hlt''
  · exact absurd rfl (hpairs v v' hlt hlt' hlt'' g hg g hg')
  · rfl
  · exact absurd rfl (hpairs v' v hlt' hlt hlt'' g hg' g hg)

/-- Two attempts that are over have each its group. -/
theorem ended_inj (h : Grouped s) {e e' : Ended} (he : e ∈ s.ended) (he' : e' ∈ s.ended)
    (heq : e.attempt.group = e'.attempt.group) : e = e' :=
  List.inj_on_of_nodup_map (List.nodup_append.mp h.apart).1 he he' heq

/-- A fresh id was told nothing. -/
theorem told_fresh (h : Grouped s) {g : Nat} (hg : g ∉ s.begun) : Striping.told s g = [] := by
  obtain ⟨count, cs, htold, -, hbegun⟩ := h.told g
  rw [htold]
  by_cases hcs : cs = []
  · rw [hcs, labelsOf_nil]
  · exact absurd (hbegun hcs) hg

theorem groupIds_notMem (h : Grouped s) (hids : s.begun.length < 2 ^ 32) :
    s.groupIds ∉ s.begun := by
  rw [h.numbered.counter, Nat.mod_eq_of_lt hids, h.numbered.begun, List.mem_range,
    List.length_range]
  exact Nat.lt_irrefl _

/-- **A visitor's turn.** -/
theorem turn (h : Grouped s) (hv : s.visitors[v]? = some x)
    (ht : Turn s v x' ends asks draws s') (hids : draws = true → s.begun.length < 2 ^ 32)
    (hgoes : Goes s x x' ends asks draws) : Grouped s' := by
  have hmem := List.mem_of_getElem? hv
  have hgroups := groups_turn hv ht hgoes
  have htold : ∀ g, Striping.told s' g = Striping.told s g := fun g => by
    rw [Striping.told, Striping.told, ht.labels]
  have hbegun : ∀ g ∈ s.begun, g ∈ s'.begun := by
    intro g hg
    rw [ht.begun]
    split
    · exact List.mem_append_left _ hg
    · exact hg
  refine ⟨h.numbered.turn ht hids, h.labelled.turn ht (hgoes.fits (h.labelled.visitors x hmem)) ?_,
    ?_, ?_, ?_, ?_, ?_, ?_⟩
  · intro e he hf
    obtain ⟨-, -, -, hlen, hfits⟩ := hgoes.forwards e he hf
    exact ⟨hfits (h.labelled.visitors x hmem), hlen⟩
  · rw [hgroups.nodup_iff]
    cases draws with
    | false =>
      rw [if_neg Bool.false_ne_true, List.append_nil]
      exact h.apart
    | true =>
      rw [if_pos rfl, List.nodup_append]
      refine ⟨h.apart, List.nodup_singleton _, fun g hg g' hg' heq => ?_⟩
      rw [heq, List.mem_singleton.mp hg'] at hg
      exact h.groupIds_notMem (hids rfl) (h.begun _ hg)
  · intro g hg
    rcases List.mem_append.mp (hgroups.mem_iff.mp hg) with hg | hg
    · exact hbegun g (h.begun g hg)
    · cases draws with
      | false => cases hg
      | true =>
        rw [ht.begun]
        exact List.mem_append_right _ hg
  · rw [ht.visitors]
    intro y hy g hg
    rw [htold]
    rcases List.mem_or_eq_of_mem_set hy with hy | rfl
    · exact h.visitors y hy g hg
    · rw [hgoes.count]
      rcases hgoes.keeps g hg with ⟨hx, hkeeps⟩ | ⟨hdraws, rfl, hnone⟩
      · rw [hkeeps]
        exact h.visitors x hmem g hx
      · rw [hnone, labelsOf_nil]
        exact h.told_fresh (h.groupIds_notMem (hids hdraws))
  · rw [ht.ended]
    intro e he hf
    rw [htold]
    rcases List.mem_append.mp he with he | he
    · exact h.forwarded e he hf
    · obtain ⟨hcount, hheld, hgathered, -, -⟩ := hgoes.forwards e he hf
      rw [hcount, hgathered]
      exact ⟨(h.labelled.visitors x hmem).count, h.visitors x hmem _ hheld⟩
  · intro g
    obtain ⟨count, cs, heq, hlen, hin⟩ := h.told g
    exact ⟨count, cs, (htold g).trans heq, hlen, fun hcs => hbegun g (hin hcs)⟩
  · intro g hg
    rw [ht.ended]
    have hcases : .releaseGroup g ∈ s.sent ++ s.requests ∨ .releaseGroup g ∈ asks := by
      rw [ht.sent, ht.requests] at hg
      split at hg
      · rwa [← List.append_assoc, List.mem_append] at hg
      · exact .inl hg
    rcases hcases with hg | hg
    · obtain ⟨e, he, hgroup, hf⟩ := h.released g hg
      exact ⟨e, List.mem_append_left _ he, hgroup, hf⟩
    · obtain ⟨e, he, hgroup, hf⟩ := hgoes.releases g hg
      exact ⟨e, List.mem_append_right _ he, hgroup, hf⟩

/-- **A label**: the group of the visitor that took the channel is told one more. -/
theorem label (h : Grouped s) {count tries channel : Nat} {a : Attempt} {rest : List Nat}
    (hv : s.visitors[v]? = some ⟨count, .gathering a tries⟩) (hq : s.queue = channel :: rest)
    (hs : s' = { s with
      queue := rest
      labels := s.labels ++ [(channel, ⟨a.group, a.gathered.length, count⟩)]
      visitors := s.visitors.set v ⟨count, .writing a tries channel⟩ }) : Grouped s' := by
  have hmem := List.mem_of_getElem? hv
  have hheld : held ⟨count, .gathering a tries⟩ = some a.group := rfl
  have hothers : ∀ g, g ≠ a.group → Striping.told s' g = Striping.told s g := by
    intro g hg
    have hno : ¬ a.group = g := fun heq => hg heq.symm
    simp [hs, Striping.told, List.filter_append, hno]
  have hown : Striping.told s' a.group = labelsOf a.group count (a.gathered ++ [channel]) := by
    have hbefore : Striping.told s a.group = labelsOf a.group count a.gathered :=
      h.visitors _ hmem _ hheld
    rw [labelsOf_concat, ← hbefore]
    simp [hs, Striping.told, List.filter_append]
  have hgroups : groups s' = groups s := by
    have hset : (s.visitors.set v ⟨count, .writing a tries channel⟩).filterMap held
        = s.visitors.filterMap held := filterMap_held_set hv rfl
    rw [hs, groups, groups, ← hset]
  refine ⟨⟨?_, ?_, ?_⟩, h.labelled.label hv hq hs, ?_, ?_, ?_, ?_, ?_, ?_⟩
  · rw [hs]
    exact h.numbered.begun
  · rw [hs]
    exact h.numbered.counter
  · rw [hs]
    exact h.numbered.bound
  · rw [hgroups]
    exact h.apart
  · rw [hgroups, hs]
    exact h.begun
  · intro y hy g hg
    rw [hs] at hy
    obtain ⟨w, hw⟩ := List.mem_iff_getElem?.mp hy
    rw [List.getElem?_set] at hw
    split at hw
    case isTrue hvw =>
      rw [if_pos (List.getElem?_eq_some_iff.mp hv).1] at hw
      obtain rfl := Option.some.inj hw
      obtain rfl : a.group = g := Option.some.inj hg
      exact hown
    case isFalse hvw =>
      have hne : g ≠ a.group := by
        rintro rfl
        exact hvw (h.held_inj hv hw hheld hg)
      rw [hothers g hne]
      exact h.visitors y (List.mem_of_getElem? hw) g hg
  · intro e he hf
    rw [hs] at he
    have hne : e.attempt.group ≠ a.group := fun heq =>
      h.ended_ne he hmem (hheld.trans (congrArg some heq.symm))
    rw [hothers _ hne]
    exact h.forwarded e he hf
  · intro g
    have hbegun : s'.begun = s.begun := by rw [hs]
    rw [hbegun]
    by_cases hg : g = a.group
    · subst hg
      refine ⟨count, a.gathered ++ [channel], hown, ?_, fun _ => h.begun _ (held_mem hmem hheld)⟩
      rw [List.length_append, List.length_singleton]
      exact ((h.labelled.visitors _ hmem).attempt a rfl).2
    · rw [hothers g hg]
      exact h.told g
  · rw [hs]
    exact h.released

theorem new : Grouped .new := by
  refine ⟨⟨rfl, rfl, Nat.zero_le _⟩,
    ⟨List.nodup_nil, ?_, List.nodup_nil, ?_, ?_, ?_⟩, List.nodup_nil, ?_, ?_, ?_, ?_, ?_⟩
  all_goals try (intro g hg; cases hg)
  intro g
  exact ⟨0, [], rfl, Nat.le_refl _, fun h => absurd rfl h⟩

/-- **One step** of the server. -/
theorem step (h : Grouped s) (hm : Moved s s') : Grouped s' := by
  cases hm with
  | turned hv ht hids hgoes => exact h.turn hv ht hids hgoes
  | labelled hv hq => exact h.label hv hq rfl
  | visited counter =>
    have hgroups : groups { s with visitors := s.visitors ++ [⟨target counter, .waiting⟩] }
        = groups s := by
      simp [groups, List.filterMap_append, held, Visitor.attempt]
    refine ⟨⟨h.numbered.begun, h.numbered.counter, h.numbered.bound⟩,
      ⟨h.labelled.once, h.labelled.known, h.labelled.queue, h.labelled.queued, fun x hx => ?_,
        h.labelled.forwarded⟩, ?_, ?_, fun x hx g hg => ?_, h.forwarded, h.told, h.released⟩
    · rcases List.mem_append.mp hx with hx | hx
      · exact h.labelled.visitors x hx
      · rw [List.mem_singleton.mp hx]
        exact Visitor.fits_of (Nat.le_max_left _ _) (fun _ _ _ hw => by cases hw)
          (fun _ ha => by cases ha)
    · rw [hgroups]
      exact h.apart
    · rw [hgroups]
      exact h.begun
    · rcases List.mem_append.mp hx with hx | hx
      · exact h.visitors x hx g hg
      · rw [List.mem_singleton.mp hx] at hg
        cases hg
  | arrived =>
    refine ⟨⟨h.numbered.begun, h.numbered.counter, h.numbered.bound⟩,
      ⟨h.labelled.once, fun l hl => Nat.lt_succ_of_lt (h.labelled.known l hl), ?_, fun c hc => ?_,
        h.labelled.visitors, h.labelled.forwarded⟩,
      h.apart, h.begun, h.visitors, h.forwarded, h.told, h.released⟩
    · refine List.nodup_append.mpr ⟨h.labelled.queue, List.nodup_singleton _, ?_⟩
      intro c hc c' hc' heq
      rw [List.mem_singleton.mp hc'] at heq
      exact Nat.lt_irrefl _ (heq ▸ (h.labelled.queued c hc).1)
    · rcases List.mem_append.mp hc with hc | hc
      · exact ⟨Nat.lt_succ_of_lt (h.labelled.queued c hc).1, (h.labelled.queued c hc).2⟩
      · rw [List.mem_singleton.mp hc]
        exact ⟨Nat.lt_succ_self _, fun l hl => Nat.ne_of_lt (h.labelled.known l hl)⟩
  | @passed request rest hr =>
    refine ⟨⟨h.numbered.begun, h.numbered.counter, h.numbered.bound⟩,
      ⟨h.labelled.once, h.labelled.known, h.labelled.queue, h.labelled.queued,
        h.labelled.visitors, h.labelled.forwarded⟩,
      h.apart, h.begun, h.visitors, h.forwarded, h.told, fun g hg => h.released g ?_⟩
    rw [hr]
    rwa [List.append_assoc] at hg
  | drawn hids =>
    have hgrows : ∀ g ∈ s.begun, g ∈ s.begun ++ [s.groupIds] :=
      fun g hg => List.mem_append_left _ hg
    refine ⟨h.numbered.draw hids rfl rfl,
      ⟨h.labelled.once, h.labelled.known, h.labelled.queue, h.labelled.queued,
        h.labelled.visitors, h.labelled.forwarded⟩,
      h.apart, fun g hg => hgrows g (h.begun g hg), h.visitors, h.forwarded, fun g => ?_,
      h.released⟩
    obtain ⟨count, cs, htold, hlen, hbegun⟩ := h.told g
    exact ⟨count, cs, htold, hlen, fun hcs => hgrows g (hbegun hcs)⟩
  | flagged =>
    exact ⟨⟨h.numbered.begun, h.numbered.counter, h.numbered.bound⟩,
      ⟨h.labelled.once, h.labelled.known, h.labelled.queue, h.labelled.queued,
        h.labelled.visitors, h.labelled.forwarded⟩,
      h.apart, h.begun, h.visitors, h.forwarded, h.told, h.released⟩

end Grouped

end

/-! ## 4. What the client's registry does with a stripe that fits -/

section

variable {S T : Type} {r : StripeGroups S T} {now group index count : Nat} {stream : S} {target : T}

/-- What a stripe that finds its place free comes to: its group waits on for others, or goes. -/
inductive Fitted (r : StripeGroups S T) (now group index count : Nat) (stream : S) (target : T) :
    StripeGroups S T × Except String (Option (CompleteGroup S T)) → Prop
  | waits {r' : StripeGroups S T} {entry : PartialGroup S T}
      (henters : r.Enters now group count target entry) (hcount : entry.count = count)
      (hfree : entry.streams[index]? = some none) (hreleased : r'.released = r.released)
      (hlookup : ∀ g, r'.groups.lookup g =
        if g = group then some (entry.filled index stream) else r.groups.lookup g)
      (hopen : (entry.filled index stream).streams.all Option.isSome = false) :
      Fitted r now group index count stream target (r', .ok none)
  | completes {r' : StripeGroups S T} {complete : CompleteGroup S T}
      (hreleased : r'.released = r.released)
      (hlookup : ∀ g, r'.groups.lookup g = if g = group then none else r.groups.lookup g) :
      Fitted r now group index count stream target (r', .ok (some complete))

theorem fitted (hindex : index < count) (hentry : ∀ entry, r.groups.lookup group = some entry →
      entry.count = count ∧ entry.streams[index]? = some none) :
    Fitted r now group index count stream target (r.park now group index count stream target) := by
  unfold StripeGroups.park StripeGroups.enter
  cases hl : r.groups.lookup group with
  | some entry =>
    obtain ⟨hcount, hfree⟩ := hentry entry hl
    dsimp only
    rw [if_neg (not_not.mpr hcount), hfree]
    dsimp only
    split
    case isTrue hall => exact .completes rfl fun g => Table.lookup_erase_eq _ _ _
    case isFalse hopen =>
      exact .waits (.inl hl) hcount hfree rfl (fun g => Table.lookup_insert_eq _ _ _ _)
        (Bool.eq_false_iff.mpr hopen)
  | none =>
    have hfree : (List.replicate count (none : Option S))[index]? = some none := by
      rw [List.getElem?_replicate, if_pos hindex]
    dsimp only
    rw [if_neg (not_not.mpr rfl), hfree]
    dsimp only
    split
    case isTrue hall =>
      refine .completes rfl fun g => ?_
      dsimp only
      rw [Table.lookup_erase_eq, Table.lookup_insert_eq]
      split
      case isTrue => rfl
      case isFalse => rfl
    case isFalse hopen =>
      refine .waits (.inr ⟨hl, rfl⟩) rfl hfree rfl (fun g => ?_) (Bool.eq_false_iff.mpr hopen)
      dsimp only
      rw [Table.lookup_insert_eq, Table.lookup_insert_eq]
      split
      case isTrue => rfl
      case isFalse => rfl

namespace Fitted

variable {r' : StripeGroups S T} {answer : Except String (Option (CompleteGroup S T))}

theorem released (h : Fitted r now group index count stream target (r', answer)) :
    r'.released = r.released := by
  cases h with
  | waits _ _ _ hreleased _ _ => exact hreleased
  | completes hreleased _ => exact hreleased

/-- The stripe is parked in its place, unless it completes its group. -/
theorem takes (h : Fitted r now group index count stream target (r', answer)) :
    (∃ complete, answer = .ok (some complete)) ∨
      ∃ p, r'.groups.lookup group = some p ∧ p.streams[index]? = some (some stream) := by
  cases h with
  | waits _ _ hfree _ hlookup _ =>
    refine .inr ⟨_, by rw [hlookup, if_pos rfl], ?_⟩
    rw [PartialGroup.filled, List.getElem?_set_self (List.getElem?_eq_some_iff.mp hfree).1]
  | completes => exact .inl ⟨_, rfl⟩

/-- The stripes before it stay in theirs, unless their group is complete. -/
theorem keeps (h : Fitted r now group index count stream target (r', answer)) {g i : Nat}
    {p : PartialGroup S T} {other : S} (hp : r.groups.lookup g = some p)
    (hplace : p.streams[i]? = some (some other)) :
    (g = group ∧ ∃ complete, answer = .ok (some complete)) ∨
      ∃ p', r'.groups.lookup g = some p' ∧ p'.streams[i]? = some (some other) := by
  cases h with
  | @waits _ entry henters _ hfree _ hlookup _ =>
    by_cases hgroup : g = group
    · subst hgroup
      obtain hentry | ⟨hnone, -⟩ := henters
      · obtain rfl := Option.some.inj (hp.symm.trans hentry)
        have hne : index ≠ i := by
          rintro rfl
          cases hplace.symm.trans hfree
        refine .inr ⟨_, by rw [hlookup, if_pos rfl], ?_⟩
        rw [PartialGroup.filled, List.getElem?_set_ne hne]
        exact hplace
      · cases hp.symm.trans hnone
    · exact .inr ⟨p, by rw [hlookup, if_neg hgroup]; exact hp, hplace⟩
  | @completes _ complete _ hlookup =>
    by_cases hgroup : g = group
    · exact .inl ⟨hgroup, complete, rfl⟩
    · exact .inr ⟨p, by rw [hlookup, if_neg hgroup]; exact hp, hplace⟩

/-- A group after it was there before, or is the stripe's own, with the stripe and not complete. -/
theorem entries (h : Fitted r now group index count stream target (r', answer)) {g : Nat}
    {p : PartialGroup S T} (hp : r'.groups.lookup g = some p) :
    r.groups.lookup g = some p ∨
      (p.streams.all Option.isSome = false ∧ p.streams[index]? = some (some stream)) := by
  cases h with
  | waits _ _ hfree _ hlookup hopen =>
    rw [hlookup] at hp
    split at hp
    case isTrue =>
      obtain rfl := Option.some.inj hp
      refine .inr ⟨hopen, ?_⟩
      rw [PartialGroup.filled, List.getElem?_set_self (List.getElem?_eq_some_iff.mp hfree).1]
    case isFalse => exact .inl hp
  | completes _ hlookup =>
    rw [hlookup] at hp
    split at hp
    case isTrue => cases hp
    case isFalse => exact .inl hp

end Fitted

/-- What becomes of a stripe of a good command: its group was released, or it fits. -/
theorem registerAt_fits {s : Traced T} {t : Nat} {o : Offer} (hcount : 1 ≤ o.count)
    (hindex : o.index < o.count) (hentry : ∀ entry,
      (s.registry.reap t).groups.lookup o.group = some entry →
        entry.count = o.count ∧ entry.streams[o.index]? = some none) :
    ((∃ e ∈ s.registry.released, e.1 = o.group) ∧
        s.registerAt t o target = (s.registry.reap t, .ok none)) ∨
      Fitted (s.registry.reap t) t o.group o.index o.count s.offers.length target
        (s.registerAt t o target) := by
  unfold Traced.registerAt StripeGroups.register
  rw [if_neg (not_not.mpr ⟨hcount, hindex⟩)]
  dsimp only
  split
  case isTrue hreleased =>
    obtain ⟨e, he, hgroup⟩ := List.any_eq_true.mp hreleased
    exact .inl ⟨⟨e, (List.dropWhile_sublist _).subset he, of_decide_eq_true hgroup⟩, rfl⟩
  case isFalse => exact .inr (fitted hindex hentry)

end

/-! ## 5. The two ends -/

/-- A service's pool at the server and its registry at the client: the channels whose label the
client has read (its `k`-th channel is `read[k]`), how many of the server's requests it has read,
and the groups it has let go because they waited too long. -/
structure Wiring (T : Type) where
  server : Pool
  client : Traced T
  read : List Nat
  taken : Nat
  expired : List Nat

inductive Wiring.Event (T : Type)
  /-- A step of the server. -/
  | server (e : Server.Pairing.Event)
  /-- The client reads what a channel was told, at `t`. -/
  | label (t channel : Nat) (target : T)
  /-- The client reads the next request, at `t`. -/
  | request (t : Nat)

namespace Wiring

variable {T : Type}

def new : Wiring T := ⟨.new, .new, [], 0, []⟩

/-- The groups whose time is over at `t`. -/
def overdue (w : Wiring T) (t : Nat) : List Nat :=
  w.client.registry.groups.keysWhere fun g => decide (stripeGroupTtl ≤ t - g.started)

def step (w : Wiring T) : Event T → Option (Wiring T)
  | .server e => (w.server.step e).map fun server => { w with server := server }
  | .label t channel target =>
    match w.server.labels.find? fun l => decide (l.1 = channel) with
    | some (_, o) =>
      if channel ∈ w.read then none
      else
        (w.client.step (t, .register o target)).map fun client =>
          { w with
            client := client
            read := w.read ++ [channel]
            expired := w.expired ++ w.overdue t }
    | none => none
  | .request t =>
    match w.server.sent[w.taken]? with
    | some (.releaseGroup g) =>
      (w.client.step (t, .release g)).map fun client =>
        { w with client := client, taken := w.taken + 1 }
    | some _ => some { w with taken := w.taken + 1 }
    | none => none

/-- The server has an id left to draw. -/
def IdsLeft (w : Wiring T) : Event T → Prop
  | .server e => idsLeft w.server e
  | .label _ _ _ | .request _ => True

instance (w : Wiring T) : (e : Event T) → Decidable (w.IdsLeft e)
  | .server e => inferInstanceAs (Decidable (idsLeft w.server e))
  | .label _ _ _ | .request _ => inferInstanceAs (Decidable True)

end Wiring

/-- The runs of the two ends. -/
def wiring (T : Type) : Lts (Wiring T) (Wiring.Event T) where
  init w := w = .new
  step w e w' := w.step e = some w'

namespace Wiring

variable {T : Type}

/-- **What is promised** of the two ends. -/
structure Agreed (w : Wiring T) : Prop where
  /-- A group that the client hands out has all the channels that the server told it, in their
  order. -/
  handed : ∀ h ∈ w.client.handed, h.complete.streams.length = h.count ∧
    h.complete.streams.map (fun k => w.read[k]?) =
      ((told w.server h.group).map Prod.fst).map some
  /-- If the server forwards the group, both ends forward it over the same channels. -/
  forwarded : ∀ e ∈ w.server.ended, e.forwarded = true → ∀ h ∈ w.client.handed,
    h.group = e.attempt.group → h.count = e.count ∧
      h.complete.streams.map (fun k => w.read[k]?) = e.attempt.gathered.map some
  /-- No two attempts are one group. -/
  apart : ∀ e ∈ w.server.ended, ∀ e' ∈ w.server.ended, e.attempt.group = e'.attempt.group → e = e'
  /-- No stripe is refused. -/
  accepted : ∀ t channel o target message, (channel, o) ∈ w.server.labels → channel ∉ w.read →
    (w.client.registerAt t o target).2 ≠ .error message
  /-- A group that the server forwards is complete at the client once its channels have come, unless
  its time was over. -/
  complete : ∀ e ∈ w.server.ended, e.forwarded = true →
    (∀ channel ∈ e.attempt.gathered, channel ∈ w.read) → e.attempt.group ∉ w.expired →
      ∃ h ∈ w.client.handed, h.group = e.attempt.group

/-- **What every run keeps.** -/
structure Meets (w : Wiring T) : Prop where
  server : Grouped w.server
  client : w.client.Holds
  length : w.read.length = w.client.offers.length
  once : w.read.Nodup
  heard : ∀ (k : Nat) (o : Offer), w.client.offers[k]? = some o →
    ∃ channel, w.read[k]? = some channel ∧ (channel, o) ∈ w.server.labels
  released : ∀ e ∈ w.client.registry.released, .releaseGroup e.1 ∈ w.server.sent
  entries : ∀ g p, w.client.registry.groups.lookup g = some p →
    p.streams.all Option.isSome = false ∧ ∃ i k : Nat, p.streams[i]? = some (some k)
  placed : ∀ (k : Nat) (o : Offer), w.client.offers[k]? = some o → o.group ∉ w.expired →
    .releaseGroup o.group ∉ w.server.sent → (∃ h ∈ w.client.handed, h.group = o.group) ∨
      ∃ p, w.client.registry.groups.lookup o.group = some p ∧ p.streams[o.index]? = some (some k)
  sized : ∀ c ∈ w.client.handed, 1 ≤ c.count

theorem labels_mono {s s' : Pool} (hm : Moved s s') : s.labels ⊆ s'.labels := by
  cases hm with
  | turned _ ht _ _ => rw [ht.labels]; exact List.Subset.refl _
  | labelled => exact List.subset_append_left _ _
  | visited | arrived | passed | drawn | flagged => exact List.Subset.refl _

theorem sent_mono {s s' : Pool} (hm : Moved s s') : s.sent ⊆ s'.sent := by
  cases hm with
  | turned _ ht _ _ => rw [ht.sent]; exact List.Subset.refl _
  | passed => exact List.subset_append_left _ _
  | labelled | visited | arrived | drawn | flagged => exact List.Subset.refl _

/-- What a label says: the group was told its channels in order, this one at its index. -/
theorem labelled_at {s : Pool} (h : Grouped s)
    {channel : Nat} {o : Offer} (hl : (channel, o) ∈ s.labels) :
    ∃ cs, told s o.group = labelsOf o.group o.count cs ∧ cs[o.index]? = some channel ∧
      cs.length ≤ o.count := by
  obtain ⟨count, cs, htold, hlen, -⟩ := h.told o.group
  have hmem : (channel, o) ∈ told s o.group := mem_told.mpr ⟨hl, rfl⟩
  rw [htold] at hmem
  obtain ⟨i, hi, ho⟩ := mem_labelsOf.mp hmem
  rw [ho] at htold ⊢
  exact ⟨cs, htold, hi, hlen⟩

namespace Meets

variable {w w' : Wiring T} {t channel : Nat} {o : Offer} {target : T}

/-- The command of a channel is a good one. -/
theorem label_valid (h : Meets w) (hl : (channel, o) ∈ w.server.labels) :
    1 ≤ o.count ∧ o.index < o.count := by
  obtain ⟨cs, -, hi, hlen⟩ := labelled_at h.server hl
  have hlt := (List.getElem?_eq_some_iff.mp hi).1
  omega

/-- Two labels of one group are of one size, and of one channel if they are of one index. -/
theorem label_unique (h : Meets w) {channel' : Nat} {o' : Offer}
    (hl : (channel, o) ∈ w.server.labels) (hl' : (channel', o') ∈ w.server.labels)
    (hgroup : o'.group = o.group) :
    o'.count = o.count ∧ (o'.index = o.index → channel' = channel) := by
  obtain ⟨cs, htold, hi, -⟩ := labelled_at h.server hl
  have hmem : (channel', o') ∈ told w.server o.group := mem_told.mpr ⟨hl', hgroup⟩
  rw [htold] at hmem
  obtain ⟨i, hi', ho'⟩ := mem_labelsOf.mp hmem
  rw [ho']
  refine ⟨rfl, fun heq => ?_⟩
  change i = o.index at heq
  rw [heq, hi] at hi'
  exact (Option.some.inj hi').symm

/-- The place of a channel that is not read yet is free. -/
theorem place_free (h : Meets w) (hl : (channel, o) ∈ w.server.labels) (hnew : channel ∉ w.read)
    {entry : PartialGroup Nat T} (hentry : w.client.registry.groups.lookup o.group = some entry) :
    entry.count = o.count ∧ entry.streams[o.index]? = some none := by
  have hfits := h.client.kept.fits _ _ hentry
  have hcount : entry.count = o.count := by
    obtain ⟨-, i, k, hk⟩ := h.entries _ _ hentry
    obtain ⟨channel', -, hl'⟩ := h.heard k _ (hfits.parked i k hk).1
    exact (h.label_unique hl hl' rfl).1
  have hlt : o.index < entry.streams.length := by
    rw [hfits.length, hcount]
    exact (h.label_valid hl).2
  refine ⟨hcount, ?_⟩
  rw [List.getElem?_eq_getElem hlt]
  cases hplace : entry.streams[o.index] with
  | none => rfl
  | some k =>
    have hoffer := (hfits.parked o.index k (List.getElem?_eq_some_iff.mpr ⟨hlt, hplace⟩)).1
    obtain ⟨channel', hread, hl'⟩ := h.heard k _ hoffer
    obtain rfl := (h.label_unique hl hl' rfl).2 rfl
    exact absurd (List.mem_of_getElem? hread) hnew

/-- What becomes of the next stripe. -/
theorem register_fits (h : Meets w) (hl : (channel, o) ∈ w.server.labels) (hnew : channel ∉ w.read)
    (t : Nat) (target : T) :
    (.releaseGroup o.group ∈ w.server.sent ∧
        w.client.registerAt t o target = (w.client.registry.reap t, .ok none)) ∨
      Fitted (w.client.registry.reap t) t o.group o.index o.count w.client.offers.length target
        (w.client.registerAt t o target) := by
  obtain ⟨hcount, hindex⟩ := h.label_valid hl
  rcases registerAt_fits hcount hindex
    (fun entry hentry => h.place_free hl hnew (StripeGroups.lookup_of_reap hentry))
    with ⟨⟨e, he, hgroup⟩, heq⟩ | hfits
  · exact .inl ⟨hgroup ▸ h.released e he, heq⟩
  · exact .inr hfits

theorem new : Meets (.new : Wiring T) where
  server := Grouped.new
  client := by
    refine ⟨⟨fun g p hp => ?_, List.nodup_nil, fun c hc => absurd hc List.not_mem_nil⟩,
      ⟨List.suffix_rfl, fun i e he => ?_, List.Pairwise.nil,
        fun e he => absurd he List.not_mem_nil⟩⟩
    · cases hp
    · cases he
  length := rfl
  once := List.nodup_nil
  heard := fun k o hk => by cases hk
  released := fun e he => absurd he List.not_mem_nil
  entries := fun g p hp => by cases hp
  placed := fun k o hk => by cases hk
  sized := fun c hc => absurd hc List.not_mem_nil

/-- **The server goes on.** -/
theorem server_step (h : Meets w) {s' : Pool} (hm : Moved w.server s') :
    Meets { w with server := s' } where
  server := h.server.step hm
  client := h.client
  length := h.length
  once := h.once
  heard := fun k o hk => by
    obtain ⟨channel, hread, hl⟩ := h.heard k o hk
    exact ⟨channel, hread, labels_mono hm hl⟩
  released := fun e he => sent_mono hm (h.released e he)
  entries := h.entries
  placed := fun k o hk hexp hrel => h.placed k o hk hexp fun hsent => hrel (sent_mono hm hsent)
  sized := h.sized

/-- **A request is read.** -/
theorem request_step (h : Meets w) {g : Nat} {client : Traced T}
    (hsent : .releaseGroup g ∈ w.server.sent)
    (hstep : w.client.step (t, .release g) = some client) :
    Meets { w with client := client, taken := w.taken + 1 } := by
  have hclient := h.client.step hstep
  simp only [Traced.step, Option.ite_none_right_eq_some, Option.some.injEq] at hstep
  obtain ⟨-, rfl⟩ := hstep
  refine ⟨h.server, hclient, h.length, h.once, h.heard, fun e he => ?_, fun g' p hp => ?_,
    fun k o hk hexp hrel => ?_, h.sized⟩
  · dsimp only [StripeGroups.release] at he
    rcases List.mem_append.mp (List.mem_of_mem_drop he) with he | he
    · exact h.released e (List.mem_of_mem_filter he)
    · rw [List.mem_singleton.mp he]
      exact hsent
  · change (w.client.registry.groups.erase g).lookup g' = some p at hp
    exact h.entries g' p (Table.lookup_of_erase hp).2
  · rcases h.placed k o hk hexp hrel with hhanded | ⟨p, hp, hplace⟩
    · exact .inl hhanded
    · have hne : o.group ≠ g := by
        rintro rfl
        exact hrel hsent
      refine .inr ⟨p, ?_, hplace⟩
      change (w.client.registry.groups.erase g).lookup o.group = some p
      rw [Table.lookup_erase_eq, if_neg hne]
      exact hp

/-- A group whose time is not over is still there when a stripe comes. -/
theorem lookup_reap_young {g : Nat} {p : PartialGroup Nat T}
    (hp : w.client.registry.groups.lookup g = some p) (hyoung : g ∉ w.overdue t) :
    (w.client.registry.reap t).groups.lookup g = some p := by
  rw [StripeGroups.lookup_reap, Option.filter_eq_some_iff]
  refine ⟨hp, decide_eq_true ?_⟩
  by_contra hold
  exact hyoung (Table.mem_keysWhere.mpr ⟨p, hp, decide_eq_true (Nat.le_of_not_lt hold)⟩)

/-- The stripes before the one that comes, and that one. -/
theorem offers_concat {k : Nat} {o' : Offer} (hk : (w.client.offers ++ [o])[k]? = some o') :
    w.client.offers[k]? = some o' ∨ (k = w.client.offers.length ∧ o' = o) := by
  rcases Nat.lt_or_ge k w.client.offers.length with hlt | hge
  · rw [List.getElem?_append_left hlt] at hk
    exact .inl hk
  · rw [List.getElem?_append_right hge] at hk
    obtain ⟨hlt, rfl⟩ := List.getElem?_eq_some_iff.mp hk
    rw [List.length_singleton] at hlt
    exact .inr ⟨by omega, List.getElem_singleton _⟩

/-- What the client hands out when a stripe comes. -/
theorem handed_register {client : Traced T}
    (hstep : w.client.step (t, .register o target) = some client) :
    w.client.handed ⊆ client.handed ∧
      (∀ complete, (w.client.registerAt t o target).2 = .ok (some complete) →
        ⟨o.group, o.count, complete⟩ ∈ client.handed) ∧
      ∀ c ∈ client.handed, c ∈ w.client.handed ∨ c.count = o.count := by
  simp only [Traced.step, Option.ite_none_right_eq_some, Option.some.injEq] at hstep
  obtain ⟨-, rfl⟩ := hstep
  refine ⟨?_, fun complete heq => ?_, fun c hc => ?_⟩
  · dsimp only
    split
    · exact List.subset_append_left _ _
    · exact List.Subset.refl _
  · dsimp only
    rw [heq]
    exact List.mem_append_right _ (List.mem_singleton_self _)
  · dsimp only at hc
    split at hc
    · rcases List.mem_append.mp hc with hc | hc
      · exact .inl hc
      · rw [List.mem_singleton.mp hc]
        exact .inr rfl
    · exact .inl hc

/-- The stripes that were parked, when another one comes. -/
theorem placed_young (h : Meets w) {k : Nat} {o' : Offer} (hk : w.client.offers[k]? = some o')
    (hexp : o'.group ∉ w.expired ++ w.overdue t)
    (hrel : .releaseGroup o'.group ∉ w.server.sent) :
    (∃ c ∈ w.client.handed, c.group = o'.group) ∨
      ∃ p, (w.client.registry.reap t).groups.lookup o'.group = some p ∧
        p.streams[o'.index]? = some (some k) := by
  rw [List.mem_append, not_or] at hexp
  rcases h.placed k o' hk hexp.1 hrel with hdone | ⟨p, hp, hplace⟩
  · exact .inl hdone
  · exact .inr ⟨p, lookup_reap_young hp hexp.2, hplace⟩

/-- **A label is read.** -/
theorem label_step (h : Meets w) {client : Traced T} (hl : (channel, o) ∈ w.server.labels)
    (hnew : channel ∉ w.read) (hstep : w.client.step (t, .register o target) = some client) :
    Meets { w with
      client := client
      read := w.read ++ [channel]
      expired := w.expired ++ w.overdue t } := by
  have hclient := h.client.step hstep
  obtain ⟨hkeeps, hhands, hsized⟩ := handed_register hstep
  simp only [Traced.step, Option.ite_none_right_eq_some, Option.some.injEq] at hstep
  obtain ⟨-, hstep⟩ := hstep
  have hoffers : client.offers = w.client.offers ++ [o] := by rw [← hstep]
  have hregistry : client.registry = (w.client.registerAt t o target).1 := by rw [← hstep]
  have hfits := h.register_fits hl hnew t target
  generalize w.client.registerAt t o target = answer at hregistry hhands hfits
  refine ⟨h.server, hclient, ?_, ?_, fun k o' hk => ?_, fun e he => ?_, fun g p hp => ?_,
    fun k o' hk hexp hrel => ?_, fun c hc => ?_⟩
  · show (w.read ++ [channel]).length = client.offers.length
    rw [hoffers, List.length_append, List.length_append, h.length]
    rfl
  · refine List.nodup_append.mpr ⟨h.once, List.nodup_singleton _, fun c hc c' hc' heq => ?_⟩
    rw [List.mem_singleton.mp hc'] at heq
    exact hnew (heq ▸ hc)
  · show ∃ c, (w.read ++ [channel])[k]? = some c ∧ (c, o') ∈ w.server.labels
    rw [show client.offers = _ from hoffers] at hk
    rcases offers_concat hk with hk | ⟨rfl, rfl⟩
    · obtain ⟨c, hc, hlabel⟩ := h.heard k o' hk
      exact ⟨c, by rw [List.getElem?_append_left (List.getElem?_eq_some_iff.mp hc).1]; exact hc,
        hlabel⟩
    · rw [← h.length]
      exact ⟨channel, List.getElem?_concat_length .., hl⟩
  · change e ∈ client.registry.released at he
    rw [hregistry] at he
    have hkept : e ∈ (w.client.registry.reap t).released := by
      rcases hfits with ⟨-, rfl⟩ | hfits
      · exact he
      · rwa [hfits.released] at he
    exact h.released e ((List.dropWhile_sublist _).subset hkept)
  · change client.registry.groups.lookup g = some p at hp
    rw [hregistry] at hp
    rcases hfits with ⟨-, rfl⟩ | hfits
    · exact h.entries g p (StripeGroups.lookup_of_reap hp)
    · rcases hfits.entries hp with hp | ⟨hopen, hplace⟩
      · exact h.entries g p (StripeGroups.lookup_of_reap hp)
      · exact ⟨hopen, _, _, hplace⟩
  · show (∃ c ∈ client.handed, c.group = o'.group) ∨
      ∃ p, client.registry.groups.lookup o'.group = some p ∧ p.streams[o'.index]? = some (some k)
    rw [show client.offers = _ from hoffers] at hk
    rw [hregistry]
    rcases offers_concat hk with hk | ⟨rfl, rfl⟩
    · rcases h.placed_young hk hexp hrel with ⟨c, hc, hgroup⟩ | ⟨p, hp, hplace⟩
      · exact .inl ⟨c, hkeeps hc, hgroup⟩
      · rcases hfits with ⟨-, rfl⟩ | hfits
        · exact .inr ⟨p, hp, hplace⟩
        · rcases hfits.keeps hp hplace with ⟨hgroup, complete, hcomplete⟩ | hplaced
          · exact .inl ⟨_, hhands complete hcomplete, hgroup.symm⟩
          · exact .inr hplaced
    · rcases hfits with ⟨hsent, -⟩ | hfits
      · exact absurd hsent hrel
      · rcases hfits.takes with ⟨complete, hcomplete⟩ | hplaced
        · exact .inl ⟨_, hhands complete hcomplete, rfl⟩
        · exact .inr hplaced
  · rcases hsized c hc with hc | hcount
    · exact h.sized c hc
    · rw [hcount]
      exact (h.label_valid hl).1

/-- **One step** of the two ends. -/
theorem step {e : Event T} (h : Meets w) (hids : w.IdsLeft e) (hs : w.step e = some w') :
    Meets w' := by
  cases e with
  | server e =>
    obtain ⟨s', hs', rfl⟩ := Option.map_eq_some_iff.mp hs
    exact h.server_step (moved_of_step hids hs')
  | label t channel target =>
    simp only [Wiring.step] at hs
    split at hs
    case h_1 c o hfind =>
      split at hs
      case isTrue => cases hs
      case isFalse hnew =>
        obtain ⟨client, hclient, rfl⟩ := Option.map_eq_some_iff.mp hs
        have hkey := List.find?_some hfind
        obtain rfl : c = channel := of_decide_eq_true hkey
        exact h.label_step (List.mem_of_find?_eq_some hfind) hnew hclient
    case h_2 => cases hs
  | request t =>
    simp only [Wiring.step] at hs
    split at hs
    case h_1 g hsent =>
      obtain ⟨client, hclient, rfl⟩ := Option.map_eq_some_iff.mp hs
      exact h.request_step (List.mem_of_getElem? hsent) hclient
    case h_2 =>
      cases hs
      exact ⟨h.server, h.client, h.length, h.once, h.heard, h.released, h.entries, h.placed,
        h.sized⟩
    case h_3 => cases hs

/-- The channels of a group that is handed out are all its group was told. -/
theorem handed_told (h : Meets w) {c : Handed T} (hc : c ∈ w.client.handed) :
    ∃ cs, told w.server c.group = labelsOf c.group c.count cs ∧ cs.length = c.count ∧
      c.complete.streams.map (fun k => w.read[k]?) = cs.map some := by
  obtain ⟨hlength, hindexed⟩ := h.client.kept.indexed c hc
  have hlabels : ∀ i (hi : i < c.complete.streams.length), ∃ channel,
      w.read[c.complete.streams[i]]? = some channel ∧
        (channel, ⟨c.group, i, c.count⟩) ∈ w.server.labels :=
    fun i hi => h.heard _ _ (hindexed i _ (List.getElem?_eq_getElem hi))
  have hpos := h.sized c hc
  obtain ⟨first, -, hfirst⟩ := hlabels 0 (by omega)
  obtain ⟨cs, htold, -, hle⟩ := labelled_at h.server hfirst
  have hplace : ∀ i (hi : i < c.complete.streams.length),
      cs[i]? = w.read[c.complete.streams[i]]? := by
    intro i hi
    obtain ⟨channel, hread, hl⟩ := hlabels i hi
    have hmem : (channel, ⟨c.group, i, c.count⟩) ∈ told w.server c.group := mem_told.mpr ⟨hl, rfl⟩
    rw [htold] at hmem
    obtain ⟨j, hj, heq⟩ := mem_labelsOf.mp hmem
    obtain rfl : i = j := congrArg Offer.index heq
    rw [hj, hread]
  have hcs : cs.length = c.count := by
    have hlast := hplace (c.count - 1) (by omega)
    obtain ⟨channel, hread, -⟩ := hlabels (c.count - 1) (by omega)
    rw [hread] at hlast
    have hlt := (List.getElem?_eq_some_iff.mp hlast).1
    exact Nat.le_antisymm hle (by omega)
  refine ⟨cs, htold, hcs, List.ext_getElem (by simp [hlength, hcs]) fun i hi hi' => ?_⟩
  rw [List.length_map] at hi hi'
  rw [List.getElem_map, List.getElem_map, ← hplace i hi, List.getElem?_eq_getElem hi']

/-- No stripe is refused. -/
theorem accepted (h : Meets w) (hl : (channel, o) ∈ w.server.labels) (hnew : channel ∉ w.read)
    (t : Nat) (target : T) (message : String) :
    (w.client.registerAt t o target).2 ≠ .error message := by
  intro herror
  have hfits := h.register_fits hl hnew t target
  generalize w.client.registerAt t o target = answer at herror hfits
  rcases hfits with ⟨-, rfl⟩ | hfits
  · cases herror
  · cases hfits with
    | waits => cases herror
    | completes => cases herror

/-- A group that is forwarded is complete once its channels have come. -/
theorem completes (h : Meets w) {e : Ended} (he : e ∈ w.server.ended) (hf : e.forwarded = true)
    (hread : ∀ channel ∈ e.attempt.gathered, channel ∈ w.read)
    (hexp : e.attempt.group ∉ w.expired) : ∃ c ∈ w.client.handed, c.group = e.attempt.group := by
  by_contra hno
  obtain ⟨hpos, htold⟩ := h.server.forwarded e he hf
  obtain ⟨-, hlen⟩ := h.server.labelled.forwarded e he hf
  have hrel : .releaseGroup e.attempt.group ∉ w.server.sent := by
    intro hsent
    obtain ⟨e', he', hgroup, hf'⟩ := h.server.released _ (List.mem_append_left _ hsent)
    obtain rfl := h.server.ended_inj he' he hgroup
    cases hf.symm.trans hf'
  have hparked : ∀ i < e.count, ∃ p k, w.client.offers[k]? = some ⟨e.attempt.group, i, e.count⟩ ∧
      w.client.registry.groups.lookup e.attempt.group = some p ∧
        p.streams[i]? = some (some k) := by
    intro i hi
    have hget := List.getElem?_eq_getElem (show i < e.attempt.gathered.length by omega)
    obtain ⟨k, hk⟩ := List.mem_iff_getElem?.mp (hread _ (List.mem_of_getElem? hget))
    have hlt : k < w.client.offers.length :=
      h.length ▸ (List.getElem?_eq_some_iff.mp hk).1
    obtain ⟨channel, hchannel, hl⟩ := h.heard k _ (List.getElem?_eq_getElem hlt)
    obtain rfl := Option.some.inj (hchannel.symm.trans hk)
    have hmem : (e.attempt.gathered[i], ⟨e.attempt.group, i, e.count⟩) ∈ w.server.labels :=
      (mem_told.mp (htold ▸ mem_labelsOf.mpr ⟨i, hget, rfl⟩)).1
    have hsame := List.inj_on_of_nodup_map h.server.labelled.once hl hmem rfl
    have hoffer : w.client.offers[k]? = some ⟨e.attempt.group, i, e.count⟩ := by
      rw [List.getElem?_eq_getElem hlt]
      exact congrArg some (congrArg Prod.snd hsame)
    rcases h.placed k _ hoffer hexp hrel with hdone | ⟨p, hp, hplace⟩
    · exact absurd hdone hno
    · exact ⟨p, k, hoffer, hp, hplace⟩
  obtain ⟨p, k, hoffer, hp, hplace⟩ := hparked 0 hpos
  have hfits := h.client.kept.fits _ p hp
  have hcount : p.count = e.count :=
    congrArg Offer.count (Option.some.inj ((hfits.parked 0 k hplace).1.symm.trans hoffer))
  have hall : p.streams.all Option.isSome = true := by
    refine List.all_eq_true.mpr fun x hx => ?_
    obtain ⟨i, hi⟩ := List.mem_iff_getElem?.mp hx
    have hlt := (List.getElem?_eq_some_iff.mp hi).1
    rw [hfits.length, hcount] at hlt
    obtain ⟨p', k', -, hp', hplace'⟩ := hparked i hlt
    obtain rfl := Option.some.inj (hp'.symm.trans hp)
    rw [Option.some.inj (hi.symm.trans hplace')]
    rfl
  rw [(h.entries _ p hp).1] at hall
  cases hall

theorem agreed (h : Meets w) : w.Agreed where
  handed := by
    intro c hc
    obtain ⟨cs, htold, hcs, hmap⟩ := h.handed_told hc
    refine ⟨(h.client.kept.indexed c hc).1, ?_⟩
    rw [hmap, htold, map_fst_labelsOf]
  forwarded := by
    intro e he hf c hc hgroup
    obtain ⟨cs, htold, hcs, hmap⟩ := h.handed_told hc
    obtain ⟨hpos, hforwarded⟩ := h.server.forwarded e he hf
    rw [← hgroup, htold] at hforwarded
    have hpos' := h.sized c hc
    obtain ⟨rfl, hcount⟩ := labelsOf_inj hforwarded (by rw [hcs]; exact hpos')
    exact ⟨hcount, hmap⟩
  apart := fun e he e' he' => h.server.ended_inj he he'
  accepted := fun t channel o target message hl hnew => h.accepted hl hnew t target message
  complete := fun e he hf hread hexp => h.completes he hf hread hexp

end Meets

end Wiring

/-- **The two ends agree**, however the steps of the server, the reads of the channels and those of
the requests are ordered, while an id is left to draw. -/
theorem stripes_agree {T : Type} {w : Wiring T}
    (hr : ((wiring T).restrict Wiring.IdsLeft).Reach w) : w.Agreed := by
  refine Wiring.Meets.agreed (hr.invariant ?_ ?_)
  · rintro w rfl
    exact .new
  · rintro w e w' hmeets ⟨hids, hs⟩
    exact hmeets.step hids hs

/-- A visitor of two stripes: its first channel breaks after the label is out, so that the client
reads it before the release; the labels of the second attempt are read in the wrong order. -/
def brokenFirst : List (Wiring.Event Unit) :=
  [.server (.visit 2), .server (.start 0), .server .arrive, .server .arrive, .server (.take 0),
    .label 10 0 (), .server (.written 0 false), .server .pass, .server .pass, .server .pass,
    .request 20, .request 20, .server .arrive, .server (.take 0), .request 30,
    .server (.written 0 true), .server (.take 0), .server (.written 0 true), .label 40 2 (),
    .label 50 1 ()]

theorem stripes_agree_broken :
    ∃ w : Wiring Unit, ((wiring Unit).restrict Wiring.IdsLeft).Reach w ∧
      w.client.handed = [⟨1, 2, ⟨[2, 1], ()⟩⟩] ∧ w.read = [0, 2, 1] ∧
      w.server.ended = [⟨⟨0, []⟩, 2, false⟩, ⟨⟨1, [1, 2]⟩, 2, true⟩] ∧ w.Agreed := by
  have hrun : (Lts.runWith Wiring.step (fun w e => decide (Wiring.IdsLeft w e))
      (.new : Wiring Unit) brokenFirst).any (fun w =>
        decide (w.client.handed = [⟨1, 2, ⟨[2, 1], ()⟩⟩] ∧ w.read = [0, 2, 1] ∧
          w.server.ended = [⟨⟨0, []⟩, 2, false⟩, ⟨⟨1, [1, 2]⟩, 2, true⟩])) = true := by
    decide +kernel
  obtain ⟨w, hr, hend⟩ := Lts.Reach.exists_runWith (T := wiring Unit) (C := Wiring.IdsLeft)
    (fun _ _ _ h => h) (fun _ _ h => of_decide_eq_true h) rfl hrun
  obtain ⟨hhanded, hread, hended⟩ := of_decide_eq_true hend
  exact ⟨w, hr, hhanded, hread, hended, stripes_agree hr⟩

end Molehill.Session.Striping
