/-
# The two ends of a stream agree

`Sound X Y` is what links one end's view of a stream to the other's, in the direction from `X` to
`Y`: which frames may be on their way, who opened the stream, that the bytes the reader has and
the bytes on their way are the bytes written, and that the credit of the writer, the bytes on
their way and the credit coming back fit into the reader's window.  Every move of an end and every
arrival keeps it (`Sound.act_writer`, `Sound.act_reader`, `Sound.arrival`), whatever overtakes
whatever: the payload of a stream keeps its order.  So a frame that arrives always fits
(`Sound.fits`), and neither connection is ever told of a protocol error.
-/
import Molehill.Mux.Arrivals

namespace Molehill.Mux

open Function Lib

/-! ## 1. The traffic of a stream -/

/-- The bytes of a list of frames. -/
def payload (l : List Frame) : List UInt8 := l.flatMap Frame.body

/-- The credit of a list of frames. -/
def granted (l : List Frame) : Nat := (l.map Frame.credit).sum

/-- Whether a frame carries payload (or opens its stream). -/
def Frame.isPayload (f : Frame) : Bool := f.tag == .data && !f.fin && !f.rst

@[simp] theorem payload_nil : payload [] = [] := rfl

@[simp] theorem payload_cons (f : Frame) (l : List Frame) :
    payload (f :: l) = f.body ++ payload l := rfl

@[simp] theorem payload_append (l l' : List Frame) :
    payload (l ++ l') = payload l ++ payload l' := List.flatMap_append

@[simp] theorem granted_nil : granted [] = 0 := rfl

@[simp] theorem granted_cons (f : Frame) (l : List Frame) :
    granted (f :: l) = f.credit + granted l := by
  rw [granted, List.map_cons, List.sum_cons]
  rfl

@[simp] theorem granted_append (l l' : List Frame) :
    granted (l ++ l') = granted l + granted l' := by
  rw [granted, List.map_append, List.sum_append]
  rfl

theorem granted_eq_zero {l : List Frame} (h : ∀ f ∈ l, f.credit = 0) : granted l = 0 := by
  induction l with
  | nil => rfl
  | cons f l ih =>
    rw [granted_cons, h f List.mem_cons_self, ih fun g hg => h g (List.mem_cons_of_mem f hg)]

/-- Two lists of frames with the same payload in the same order, the same credit and the same
members. -/
structure SameTraffic (l l' : List Frame) : Prop where
  payload : payload l' = payload l
  granted : granted l' = granted l
  frames : l'.filter Frame.isPayload = l.filter Frame.isPayload
  mem : ∀ f, f ∈ l' ↔ f ∈ l

theorem SameTraffic.refl (l : List Frame) : SameTraffic l l := ⟨rfl, rfl, rfl, fun _ => Iff.rfl⟩

/-- A frame without payload may overtake. -/
theorem SameTraffic.overtake (a p r : List Frame) {f : Frame} (hb : f.body = [])
    (hp : f.isPayload = false) : SameTraffic (a ++ (p ++ f :: r)) (a ++ (f :: (p ++ r))) where
  payload := by simp [hb]
  granted := by simp [Nat.add_left_comm]
  frames := by simp [hp]
  mem g := by
    simp only [List.mem_append, List.mem_cons]
    tauto

namespace Kind

variable {id : StreamId} {f : Frame}

/-- A frame that carries no payload has no body and opens nothing. -/
theorem of_not_payload (h : Kind id f) (hp : f.isPayload = false) :
    f.body = [] ∧ f.syn = false := by
  cases h with
  | payload => cases hp
  | credit => exact ⟨rfl, rfl⟩
  | close => exact ⟨rfl, rfl⟩
  | reset => exact ⟨rfl, rfl⟩

/-- Bookkeeping carries no payload. -/
theorem of_isBookkeeping (h : Kind id f) (hb : f.isBookkeeping = true) : f.isPayload = false := by
  cases h with
  | payload => cases hb
  | credit => rfl
  | close => rfl
  | reset => rfl

/-- Payload gives no credit. -/
theorem credit_of_data (h : Kind id f) (ht : f.tag ≠ .windowUpdate) : f.credit = 0 := by
  cases h with
  | payload => rfl
  | credit => exact absurd rfl ht
  | close => rfl
  | reset => rfl

/-- A close has no bytes. -/
theorem body_of_fin (h : Kind id f) (hf : f.fin = true) : f.body = [] := by
  cases h with
  | payload => cases hf
  | credit => rfl
  | close => rfl
  | reset => rfl

end Kind

/-! ## 2. The invariant -/

/-- The bytes an end has received. -/
def Stream.got (s : Stream) : List UInt8 := s.readOut ++ s.buffer

/-- What of a view the other end depends on. -/
structure Half where
  stream : Option Stream
  listed : Bool
  line : List Frame
  reset : Bool

def View.half (v : View) : Half := ⟨v.stream, v.listed, v.line, v.reset⟩

/-- An end's send window, or what it will be. -/
def Half.sendWindow (v : Half) : Nat := (v.stream.map Stream.sendWindow).getD defaultCredit

/-- An end's receive window, or what it will be. -/
def Half.receiveWindow (v : Half) : Nat := (v.stream.map Stream.receiveWindow).getD defaultCredit

/-- **What links the two ends of a stream**, in the direction from `X` to `Y`; `mine` is whether
`X` opens streams of this id. -/
structure Sound (id : StreamId) (mine : Bool) (X Y : Half) : Prop where
  kinds : ∀ f ∈ X.line, Kind id f
  resets : .reset id ∈ X.line → X.reset = true
  opener : X.stream.isSome = true → mine = false → Y.stream.isSome = true
  resetBy : X.reset = true → (X.stream = none ∧ Y.stream.isSome = true) ∨
    ∃ x, X.stream = some x ∧ x.held = false ∧ X.listed = false
  silent : X.stream = none → ∀ f ∈ X.line, f = .reset id
  unread : X.stream = none → (∀ f ∈ Y.line, f.tag ≠ .windowUpdate) ∧
    ∀ y, Y.stream = some y → y.got = [] ∧ y.receiveWindow = defaultCredit ∧
      y.maxReceiveWindow = defaultCredit
  unseen : ∀ x, X.stream = some x → Y.stream = none → Y.reset = false → payload X.line = x.written
  seen : ∀ x y, X.stream = some x → Y.stream = some y → y.got <+: x.written ∧
    (Y.listed = true → y.got ++ payload X.line = x.written)
  flow : X.sendWindow + (payload X.line).length + granted Y.line ≤ Y.receiveWindow
  bound : ∀ y, Y.stream = some y →
    y.receiveWindow ≤ y.maxReceiveWindow ∧ y.maxReceiveWindow ≤ u32Max
  synUnseen : ∀ x, X.stream = some x → Y.stream = none → Y.reset = false →
    (x.flag = .syn ∧ x.written = [] ∧ X.line.filter Frame.isPayload = []) ∨
      (x.flag ≠ .syn ∧ ∃ f r, X.line.filter Frame.isPayload = f :: r ∧ f.syn = true ∧
        ∀ g ∈ r, g.syn = false)
  synSeen : Y.stream.isSome = true ∨ Y.reset = true →
    (∀ x, X.stream = some x → x.flag ≠ .syn) ∧ ∀ f ∈ X.line, f.syn = false

namespace Sound

variable {id : StreamId} {mine : Bool} {X Y X' Y' : Half}

/-- Before either end has the stream, nothing of it is on its way. -/
theorem empty (h : Sound id mine X Y) (hx : X.stream = none) (hy : Y.stream = none) :
    X.line = [] ∧ X.reset = false := by
  have hreset : X.reset = false := by
    cases hr : X.reset with
    | false => rfl
    | true =>
      rcases h.resetBy hr with ⟨-, hs⟩ | ⟨x, hs, -⟩
      · rw [hy] at hs
        cases hs
      · rw [hx] at hs
        cases hs
  refine ⟨List.eq_nil_iff_forall_not_mem.mpr fun f hf => ?_, hreset⟩
  rw [h.silent hx f hf] at hf
  rw [h.resets hf] at hreset
  cases hreset

/-- An end that a frame other than a reset comes from has the stream. -/
theorem isSome_of_mem (h : Sound id mine X Y) {f : Frame} (hf : f ∈ X.line)
    (hne : f ≠ .reset id) : ∃ x, X.stream = some x := by
  cases hx : X.stream with
  | none => exact absurd (h.silent hx f hf) hne
  | some x => exact ⟨x, rfl⟩

/-- An end whose handle is held has not reset its stream. -/
theorem not_reset_of_held {x : Stream} (h : Sound id mine X Y) (hx : X.stream = some x)
    (hh : x.held = true) : X.reset = false := by
  cases hr : X.reset with
  | false => rfl
  | true =>
    rcases h.resetBy hr with ⟨hn, -⟩ | ⟨x1, hx1, hh1, -⟩
    · rw [hx] at hn
      cases hn
    · rw [hx] at hx1
      cases hx1
      rw [hh] at hh1
      cases hh1

/-- A window that has been granted is no larger than a `u32`. -/
theorem receiveWindow_le (h : Sound id mine X Y) : Y.receiveWindow ≤ u32Max := by
  cases hy : Y.stream with
  | none =>
    rw [Half.receiveWindow, hy]
    decide
  | some y =>
    rw [Half.receiveWindow, hy]
    have hb := h.bound y hy
    exact Nat.le_trans hb.1 hb.2

/-- **The frame at the head of the line fits.** -/
theorem fits (h : Sound id mine X Y) (hr : Sound id (!mine) Y X) {f : Frame} {r : List Frame}
    (hline : X.line = f :: r) : Fits id (!mine) Y.stream f := by
  have hmem : f ∈ X.line := by
    rw [hline]
    exact List.mem_cons_self
  have hflow := h.flow
  rw [hline, payload_cons, List.length_append] at hflow
  refine ⟨h.kinds f hmem, fun hsyn => ?_, fun s hs => ?_, fun s hs => ?_⟩
  · have hunseen : ¬ (Y.stream.isSome = true ∨ Y.reset = true) := by
      intro hor
      rw [(h.synSeen hor).2 f hmem] at hsyn
      cases hsyn
    have hy : Y.stream = none := by
      cases hy : Y.stream with
      | none => rfl
      | some y => exact absurd (Or.inl (by rw [hy]; rfl)) hunseen
    have hne : f ≠ .reset id := by
      rintro rfl
      cases hsyn
    obtain ⟨x, hx⟩ := h.isSome_of_mem hmem hne
    refine ⟨?_, hy, ?_⟩
    · cases hm : mine with
      | true => rfl
      | false =>
        have hs := h.opener (by rw [hx]; rfl) hm
        rw [hy] at hs
        cases hs
    · rw [Half.receiveWindow, hy] at hflow
      exact Nat.le_trans (by omega) hflow
  · rw [Half.receiveWindow, hs] at hflow
    exact Nat.le_trans (by omega) hflow
  · have hback := hr.flow
    rw [Half.sendWindow, hs, hline, granted_cons] at hback
    exact Nat.le_trans (Nat.le_trans (by dsimp; omega) hback) hr.receiveWindow_le

/-! ## 3. What keeps the invariant -/

/-- A writer that changes its own affairs, and may issue frames without payload. -/
theorem of_writer {x x' : Stream} (h : Sound id mine X Y) (hx : X.stream = some x)
    (hx' : X'.stream = some x') (hw : x'.written = x.written) (hs : x'.sendWindow = x.sendWindow)
    (hfl : x'.flag = .syn ↔ x.flag = .syn) (hp : payload X'.line = payload X.line)
    (hfr : X'.line.filter Frame.isPayload = X.line.filter Frame.isPayload)
    (hk : ∀ f ∈ X'.line, f ∈ X.line ∨ (Kind id f ∧ f.isPayload = false))
    (hrst : .reset id ∈ X'.line → X'.reset = true)
    (hrb : X'.reset = true → x'.held = false ∧ X'.listed = false) : Sound id mine X' Y where
  kinds f hf := by
    rcases hk f hf with hf | ⟨hf, -⟩
    · exact h.kinds f hf
    · exact hf
  resets := hrst
  opener _ hm := h.opener (by rw [hx]; rfl) hm
  resetBy hr := Or.inr ⟨x', hx', hrb hr⟩
  silent hn := by
    rw [hx'] at hn
    cases hn
  unread hn := by
    rw [hx'] at hn
    cases hn
  unseen x1 hx1 hy hr := by
    rw [hx'] at hx1
    cases hx1
    rw [hp, hw]
    exact h.unseen x hx hy hr
  seen x1 y hx1 hy := by
    rw [hx'] at hx1
    cases hx1
    rw [hp, hw]
    exact h.seen x y hx hy
  flow := by
    have hflow := h.flow
    rw [Half.sendWindow, hx] at hflow
    rw [Half.sendWindow, hx', hp]
    simpa [hs] using hflow
  bound := h.bound
  synUnseen x1 hx1 hy hr := by
    rw [hx'] at hx1
    cases hx1
    rw [hfr, hw, ne_eq, hfl]
    exact h.synUnseen x hx hy hr
  synSeen hor := by
    obtain ⟨h1, h2⟩ := h.synSeen hor
    refine ⟨fun x1 hx1 => ?_, fun f hf => ?_⟩
    · rw [hx'] at hx1
      cases hx1
      rw [ne_eq, hfl]
      exact h1 x hx
    · rcases hk f hf with hf | ⟨hf, hpl⟩
      · exact h2 f hf
      · exact (hf.of_not_payload hpl).2

/-- A reader that changes its own affairs, with the credit it grants in its window. -/
theorem of_reader {x x' : Stream} (h : Sound id mine Y X) (hx : X.stream = some x)
    (hx' : X'.stream = some x') (hg : x'.got = x.got) (hl : X'.listed = true → X.listed = true)
    (hu : Y.stream = none → (∀ f ∈ X'.line, f.tag ≠ .windowUpdate) ∧
      x'.receiveWindow = x.receiveWindow ∧ x'.maxReceiveWindow = x.maxReceiveWindow)
    (hf : granted X'.line + x.receiveWindow ≤ granted X.line + x'.receiveWindow)
    (hb : x'.receiveWindow ≤ x'.maxReceiveWindow ∧ x'.maxReceiveWindow ≤ u32Max) :
    Sound id mine Y X' where
  kinds := h.kinds
  resets := h.resets
  opener _ _ := by rw [hx']; rfl
  resetBy hr := by
    rcases h.resetBy hr with ⟨hn, -⟩ | hs
    · exact Or.inl ⟨hn, by rw [hx']; rfl⟩
    · exact Or.inr hs
  silent := h.silent
  unread hn := by
    obtain ⟨hwu, hrecv, hmax⟩ := hu hn
    refine ⟨hwu, fun x1 hx1 => ?_⟩
    rw [hx'] at hx1
    cases hx1
    rw [hg, hrecv, hmax]
    exact (h.unread hn).2 x hx
  unseen _ _ hn := by
    rw [hx'] at hn
    cases hn
  seen y x1 hy hx1 := by
    rw [hx'] at hx1
    cases hx1
    rw [hg]
    obtain ⟨hpre, heq⟩ := h.seen y x hy hx
    exact ⟨hpre, fun hl' => heq (hl hl')⟩
  flow := by
    have hflow := h.flow
    rw [Half.receiveWindow, hx] at hflow
    rw [Half.receiveWindow, hx']
    simp only [Option.map_some, Option.getD_some] at hflow ⊢
    omega
  bound x1 hx1 := by
    rw [hx'] at hx1
    cases hx1
    exact hb
  synUnseen _ _ hn := by
    rw [hx'] at hn
    cases hn
  synSeen _ := h.synSeen (Or.inl (by rw [hx]; rfl))

/-- A writer that issues one frame without payload. -/
theorem of_issued {x x' : Stream} {f : Frame} (h : Sound id mine X Y) (hx : X.stream = some x)
    (hh : x.held = true) (hw : x'.written = x.written) (hs : x'.sendWindow = x.sendWindow)
    (hfl : x'.flag = .syn ↔ x.flag = .syn) (hk : Kind id f) (hp : f.isPayload = false)
    (hrst : f.rst = false) :
    Sound id mine { X with stream := some x', line := X.line ++ [f] } Y := by
  have hreset := h.not_reset_of_held hx hh
  refine h.of_writer hx rfl hw hs hfl ?_ ?_ (fun g hg => ?_) (fun hg => ?_)
    (fun hrt => absurd (hreset.symm.trans hrt) (by decide))
  · simp [(hk.of_not_payload hp).1]
  · simp [hp]
  · rcases List.mem_append.mp hg with hg | hg
    · exact Or.inl hg
    · rw [List.mem_singleton.mp hg]
      exact Or.inr ⟨hk, hp⟩
  · rcases List.mem_append.mp hg with hg | hg
    · exact h.resets hg
    · rw [← List.mem_singleton.mp hg] at hrst
      cases hrst

/-- A writer that takes bytes. -/
theorem wrote {x x' : Stream} {cfg : Config} {buf : List UInt8} {f : Frame}
    (h : Sound id mine X Y) (hx : X.stream = some x) (hh : x.held = true)
    (hw : x.pollWrite cfg id buf = some (x', f)) :
    Sound id mine { X with stream := some x', line := X.line ++ [f] } Y := by
  obtain ⟨-, body, hlen, rfl, hx'⟩ := Stream.pollWrite_spec hw
  have hreset := h.not_reset_of_held hx hh
  have hwritten : x'.written = x.written ++ body := by rw [hx']
  have hflag : x'.flag ≠ .syn := by
    rw [hx']
    intro he
    cases he
  refine
    { kinds := fun g hg => ?_, resets := fun hg => ?_, opener := fun _ hm => ?_,
      resetBy := fun hr => ?_, silent := fun hn => (by cases hn), unread := fun hn => (by cases hn),
      unseen := fun x1 hx1 hy hr => ?_, seen := fun x1 y hx1 hy => ?_, flow := ?_,
      bound := h.bound, synUnseen := fun x1 hx1 hy hr => ?_, synSeen := fun hor => ?_ }
  · rcases List.mem_append.mp hg with hg | hg
    · exact h.kinds g hg
    · rw [List.mem_singleton.mp hg]
      exact Kind.payload _ _ _
  · rcases List.mem_append.mp hg with hg | hg
    · exact h.resets hg
    · have hrst := congrArg Frame.rst (List.mem_singleton.mp hg)
      cases hrst
  · exact h.opener (by rw [hx]; rfl) hm
  · exact absurd (hreset.symm.trans hr) (by decide)
  · cases hx1
    simp [h.unseen x hx hy hr, hwritten]
  · cases hx1
    obtain ⟨hpre, heq⟩ := h.seen x y hx hy
    rw [hwritten]
    refine ⟨hpre.trans (List.prefix_append _ _), fun hl => ?_⟩
    rw [payload_append, ← List.append_assoc, heq hl]
    simp
  · have hflow := h.flow
    rw [Half.sendWindow, hx] at hflow
    simp only [Option.map_some, Option.getD_some] at hflow
    have hsend : x'.sendWindow = x.sendWindow - body.length := by rw [hx']
    simp only [Half.sendWindow, Option.map_some, Option.getD_some, payload_append, payload_cons,
      payload_nil, List.append_nil, List.length_append, hsend]
    omega
  · cases hx1
    refine Or.inr ⟨hflag, ?_⟩
    rw [List.filter_append, List.filter_cons_of_pos rfl, List.filter_nil]
    rcases h.synUnseen x hx hy hr with ⟨hfl, -, hnil⟩ | ⟨hfl, g, r, hfr, hg, hrest⟩
    · refine ⟨_, [], by rw [hnil]; rfl, ?_, fun g hg => by cases hg⟩
      simp [hfl]
    · refine ⟨g, r ++ [_], by rw [hfr]; rfl, hg, fun g' hg' => ?_⟩
      rcases List.mem_append.mp hg' with hg' | hg'
      · exact hrest g' hg'
      · rw [List.mem_singleton.mp hg']
        simpa using hfl
  · obtain ⟨h1, h2⟩ := h.synSeen hor
    refine ⟨fun x1 hx1 => ?_, fun g hg => ?_⟩
    · cases hx1
      exact hflag
    · rcases List.mem_append.mp hg with hg | hg
      · exact h2 g hg
      · rw [List.mem_singleton.mp hg]
        simpa using h1 x hx

/-- A reader whose handle writes or shuts down reads no less. -/
theorem wrote_reader {x x' : Stream} {cfg : Config} {buf : List UInt8} {f : Frame}
    (h : Sound id mine Y X) (hx : X.stream = some x)
    (hw : x.pollWrite cfg id buf = some (x', f)) :
    Sound id mine Y { X with stream := some x', line := X.line ++ [f] } := by
  obtain ⟨-, body, -, rfl, hx'⟩ := Stream.pollWrite_spec hw
  refine h.of_reader hx rfl (by rw [hx']; rfl) (fun hl => hl) (fun hn => ⟨fun g hg => ?_, ?_⟩) ?_ ?_
  · rcases List.mem_append.mp hg with hg | hg
    · exact (h.unread hn).1 g hg
    · rw [List.mem_singleton.mp hg]
      intro he
      cases he
  · rw [hx']
    exact ⟨rfl, rfl⟩
  · rw [hx']
    simp
  · rw [hx']
    exact h.bound x hx

/-- An end that shuts down. -/
theorem shut {x x' : Stream} {f : Frame} (h : Sound id mine X Y) (hr : Sound id (!mine) Y X)
    (hx : X.stream = some x) (hh : x.held = true) (hs : x.pollShutdown id = some (x', f)) :
    Sound id mine { X with stream := some x', line := X.line ++ [f] } Y ∧
      Sound id (!mine) Y { X with stream := some x', line := X.line ++ [f] } := by
  obtain ⟨-, rfl, hx'⟩ := Stream.pollShutdown_spec hs
  have hflag : x'.flag = .syn ↔ x.flag = .syn := by
    rw [hx']
    cases hfl : x.flag <;> simp
  constructor
  · exact h.of_issued hx hh (by rw [hx']) (by rw [hx']) hflag (Kind.close _) rfl rfl
  · refine hr.of_reader hx rfl (by rw [hx']; rfl) (fun hl => hl) (fun hn => ⟨fun g hg => ?_, ?_⟩)
      ?_ ?_
    · rcases List.mem_append.mp hg with hg | hg
      · exact (hr.unread hn).1 g hg
      · rw [List.mem_singleton.mp hg]
        intro he
        cases he
    · rw [hx']
      exact ⟨rfl, rfl⟩
    · rw [hx']
      simp [Frame.closeStream]
    · rw [hx']
      exact hr.bound x hx

theorem got_copyOut (x : Stream) (cap : Nat) : (x.copyOut cap).got = x.got := by
  simp [Stream.got, Stream.copyOut]

/-- An end that reads, and grants credit for what it read. -/
theorem grant {x x' : Stream} {cfg : Config} {cap acc acc' : Nat} {fast : Bool} {f : Frame}
    (h : Sound id mine X Y) (hr : Sound id (!mine) Y X) (hx : X.stream = some x)
    (hh : x.held = true)
    (hs : (x.copyOut cap).sendWindowUpdate cfg acc fast id = (x', some (f, acc'))) :
    Sound id mine { X with stream := some x', line := X.line ++ [f] } Y ∧
      Sound id (!mine) Y { X with stream := some x', line := X.line ++ [f] } := by
  obtain ⟨-, hhalf, credit, newMax, hmax, hcredit, hf, hx'⟩ := Stream.sendWindowUpdate_spec hs
  have hbound := hr.bound x hx
  -- nothing was received, and no half of a window read, before the peer had the stream
  have hseen : Y.stream ≠ none := by
    intro hn
    obtain ⟨-, hrecv, hmx⟩ := (hr.unread hn).2 x hx
    have h1 : (x.copyOut cap).maxReceiveWindow = defaultCredit := hmx
    have h2 : (x.copyOut cap).receiveWindow = defaultCredit := hrecv
    rw [h1, h2, Nat.sub_self, Nat.zero_sub] at hhalf
    exact absurd hhalf (by decide)
  have hor : Y.stream.isSome = true ∨ Y.reset = true :=
    Or.inl (Option.isSome_iff_ne_none.mpr hseen)
  have hflag : x.flag ≠ .syn := (h.synSeen hor).1 x hx
  have hsyn : ((x.copyOut cap).flag == Flag.syn) = false := by simpa [Stream.copyOut] using hflag
  rw [hsyn] at hf
  subst hf
  constructor
  · refine h.of_issued hx hh (by rw [hx']; rfl) (by rw [hx']; rfl) ?_ (Kind.credit _ _) rfl rfl
    rw [hx']
    exact ⟨(by intro he; cases he), fun he => absurd he hflag⟩
  · have hmax' := hmax hbound.2
    have hrecv : (x.copyOut cap).receiveWindow = x.receiveWindow := rfl
    have hm : (x.copyOut cap).maxReceiveWindow = x.maxReceiveWindow := rfl
    refine hr.of_reader hx rfl ?_ (fun hl => hl) (fun hn => absurd hn hseen) ?_ ?_
    · rw [hx']
      exact got_copyOut x cap
    · rw [hx']
      simp only [granted_append, granted_cons, granted_nil, hrecv]
      omega
    · rw [hx']
      dsimp only
      omega

/-- An end that joins with an empty channel of its own. -/
theorem opened (h : Sound id true X Y) (hr : Sound id false Y X) (hx : X.stream = none) :
    Sound id true { X with stream := some .newOutbound, listed := true } Y ∧
      Sound id false Y { X with stream := some .newOutbound, listed := true } := by
  have hy : Y.stream = none := by
    cases hy : Y.stream with
    | none => rfl
    | some y =>
      have hs := hr.opener (by rw [hy]; rfl) rfl
      rw [hx] at hs
      cases hs
  obtain ⟨hline, hreset⟩ := h.empty hx hy
  obtain ⟨hline', hreset'⟩ := hr.empty hy hx
  rcases X with ⟨xs, xl, xline, xr⟩
  rcases Y with ⟨ys, yl, yline, yr⟩
  dsimp only at hx hy hline hreset hline' hreset'
  subst hx hy hline hreset hline' hreset'
  constructor
  · exact
      { kinds := fun _ hf => (by cases hf)
        resets := fun hf => (by cases hf)
        opener := fun _ hm => (by cases hm)
        resetBy := fun hr => (by cases hr)
        silent := fun hn => (by cases hn)
        unread := fun hn => (by cases hn)
        unseen := fun _ hx _ _ => (by cases hx; rfl)
        seen := fun _ _ _ hy => (by cases hy)
        flow := Nat.le_refl _
        bound := fun _ hy => (by cases hy)
        synUnseen := fun _ hx _ _ => (by cases hx; exact Or.inl ⟨rfl, rfl, rfl⟩)
        synSeen := fun hor => (by rcases hor with hor | hor <;> cases hor) }
  · exact
      { kinds := fun _ hf => (by cases hf)
        resets := fun hf => (by cases hf)
        opener := fun hs _ => (by cases hs)
        resetBy := fun hr => (by cases hr)
        silent := fun _ _ hf => (by cases hf)
        unread := fun _ =>
          ⟨fun _ hf => (by cases hf), fun _ hx => (by cases hx; exact ⟨rfl, rfl, rfl⟩)⟩
        unseen := fun _ hy => (by cases hy)
        seen := fun _ _ hy => (by cases hy)
        flow := Nat.le_refl _
        bound := fun _ hx => (by cases hx; exact ⟨Nat.le_refl _, by decide⟩)
        synUnseen := fun _ hy => (by cases hy)
        synSeen := fun _ => ⟨fun _ hy => (by cases hy), fun _ hf => (by cases hf)⟩ }

/-- A reader that changes nothing the writer depends on. -/
theorem of_reader_same {x x' : Stream} (h : Sound id mine Y X) (hx : X.stream = some x)
    (hx' : X'.stream = some x') (hg : x'.got = x.got) (hl : X'.listed = true → X.listed = true)
    (hw : x'.receiveWindow = x.receiveWindow) (hm : x'.maxReceiveWindow = x.maxReceiveWindow)
    (hgr : granted X'.line = granted X.line)
    (hwu : ∀ f ∈ X'.line, f ∈ X.line ∨ f.tag ≠ .windowUpdate) : Sound id mine Y X' := by
  refine h.of_reader hx hx' hg hl (fun hn => ⟨fun f hf => ?_, hw, hm⟩) ?_ ?_
  · rcases hwu f hf with hf | hf
    · exact (h.unread hn).1 f hf
    · exact hf
  · exact Nat.le_of_eq (by rw [hgr, hw])
  · rw [hw, hm]
    exact h.bound x hx

/-- An end whose own affairs change, with the same frames on their way. -/
theorem of_same {x x' : Stream} (h : Sound id mine X Y) (hr : Sound id (!mine) Y X)
    (hx : X.stream = some x) (hx' : X'.stream = some x') (hl : X'.listed = X.listed)
    (hrst : X'.reset = X.reset) (hheld : x.held = false → x'.held = false)
    (hw : x'.written = x.written) (hs : x'.sendWindow = x.sendWindow) (hfl : x'.flag = x.flag)
    (hg : x'.got = x.got) (hrw : x'.receiveWindow = x.receiveWindow)
    (hm : x'.maxReceiveWindow = x.maxReceiveWindow) (ht : SameTraffic X.line X'.line) :
    Sound id mine X' Y ∧ Sound id (!mine) Y X' := by
  constructor
  · refine h.of_writer hx hx' hw hs (by rw [hfl]) ht.payload ht.frames
      (fun f hf => Or.inl ((ht.mem f).mp hf)) (fun hf => ?_) (fun hr => ?_)
    · rw [hrst]
      exact h.resets ((ht.mem _).mp hf)
    · rw [hrst] at hr
      rcases h.resetBy hr with ⟨hn, -⟩ | ⟨x1, hx1, hh1, hl1⟩
      · rw [hx] at hn
        cases hn
      · rw [hx] at hx1
        cases hx1
        exact ⟨hheld hh1, hl.trans hl1⟩
  · exact hr.of_reader_same hx hx' hg (fun h => hl.symm.trans h) hrw hm ht.granted
      (fun f hf => Or.inl ((ht.mem f).mp hf))

/-- What a dropped end tells the peer. -/
theorem dropFrame_kind {st : State} {f : Frame} (h : f ∈ (Active.dropFrame id st).toList) :
    Kind id f ∧ f.isPayload = false ∧ f.tag ≠ .windowUpdate := by
  cases st with
  | opened ack =>
    rw [List.mem_singleton.mp h]
    exact ⟨Kind.reset, rfl, by intro he; cases he⟩
  | recvClosed =>
    rw [List.mem_singleton.mp h]
    exact ⟨Kind.close _, rfl, by intro he; cases he⟩
  | sendClosed => cases h
  | closed => cases h

theorem dropFrame_traffic (id : StreamId) (st : State) :
    payload (Active.dropFrame id st).toList = [] ∧
      granted (Active.dropFrame id st).toList = 0 ∧
      (Active.dropFrame id st).toList.filter Frame.isPayload = [] := by
  cases st <;> exact ⟨rfl, rfl, rfl⟩

/-- A dropped end leaves the table. -/
theorem removed {x : Stream} (st : State) (h : Sound id mine X Y) (hr : Sound id (!mine) Y X)
    (hx : X.stream = some x) (hh : x.held = false) {a p : List Frame} (hline : X.line = a ++ p)
    (hX' : X' = ⟨some { x with state := st }, false,
      a ++ ((Active.dropFrame id x.state).toList ++ p),
      X.reset || (Active.dropFrame id x.state == some (.reset id))⟩) :
    Sound id mine X' Y ∧ Sound id (!mine) Y X' := by
  obtain ⟨hp, hg, hfr⟩ := dropFrame_traffic id x.state
  have hmem : ∀ f ∈ X'.line, f ∈ X.line ∨ f ∈ (Active.dropFrame id x.state).toList := by
    intro f hf
    rw [hX'] at hf
    rw [hline]
    simp only [List.mem_append] at hf ⊢
    tauto
  have hx' : X'.stream = some { x with state := st } := by rw [hX']
  constructor
  · refine h.of_writer hx hx' rfl rfl Iff.rfl ?_ ?_ (fun f hf => ?_) (fun hf => ?_) (fun _ => ?_)
    · rw [hX', hline]
      simp [hp]
    · rw [hX', hline]
      simp [hfr]
    · rcases hmem f hf with hf | hf
      · exact Or.inl hf
      · exact Or.inr ⟨(dropFrame_kind hf).1, (dropFrame_kind hf).2.1⟩
    · rw [hX']
      rcases hmem _ hf with hf | hf
      · simp [h.resets hf]
      · have hd : Active.dropFrame id x.state = some (.reset id) := Option.mem_toList.mp hf
        simp [hd]
    · rw [hX']
      exact ⟨hh, rfl⟩
  · refine hr.of_reader_same hx hx' rfl ?_ rfl rfl ?_ (fun f hf => ?_)
    · rw [hX']
      intro hl
      cases hl
    · rw [hX', hline]
      simp [hg]
    · rcases hmem f hf with hf | hf
      · exact Or.inl hf
      · exact Or.inr (dropFrame_kind hf).2.2

/-- **A move keeps the invariant**, in both directions. -/
theorem move {cfg : Config} {behind : List Frame → Prop} {V V' W : View}
    (h : Sound id mine V.half W.half) (hr : Sound id (!mine) W.half V.half)
    (hm : Move cfg id mine behind V V') :
    Sound id mine V'.half W.half ∧ Sound id (!mine) W.half V'.half := by
  cases hm with
  | same => exact ⟨h, hr⟩
  | opened hn hmine =>
    subst hmine
    exact h.opened hr hn
  | spoke hs hh hsp =>
    have hhalf : ∀ (s' : Stream) (f : Frame),
        View.half { V with stream := some s', rest := V.rest ++ [f], issued := V.issued ++ [f] } =
          { V.half with stream := some s', line := V.half.line ++ [f] } := by
      intro s' f
      simp [View.half, View.line]
    rw [hhalf]
    cases hsp with
    | wrote hw => exact ⟨h.wrote hs hh hw, hr.wrote_reader hs hw⟩
    | shut hw => exact h.shut hr hs hh hw
    | granted hw => exact h.grant hr hs hh hw
  | heard cap hs hh =>
    exact h.of_same hr hs rfl rfl rfl (fun h => h) rfl rfl rfl (got_copyOut _ cap) rfl rfl (.refl _)
  | looked hs =>
    exact h.of_same hr hs rfl rfl rfl (fun h => h) rfl rfl rfl rfl rfl rfl (.refl _)
  | released hs =>
    exact h.of_same hr hs rfl rfl rfl (fun _ => rfl) rfl rfl rfl rfl rfl rfl (.refl _)
  | queued hs =>
    exact h.of_same hr hs rfl rfl rfl (fun h => h) rfl rfl rfl rfl rfl rfl (.refl _)
  | @overtook s a p r f hs hrest _ hmem hb =>
    have hline : V.half.line = (V.front ++ a) ++ (p ++ f :: r) := by
      simp [View.half, View.line, hrest]
    have hk : Kind id f := h.kinds f (by rw [hline]; simp)
    have hp := hk.of_isBookkeeping hb
    refine h.of_same hr hs rfl rfl rfl (fun h => h) rfl rfl rfl rfl rfl rfl ?_
    rw [hline]
    have ht := SameTraffic.overtake (V.front ++ a) p r (hk.of_not_payload hp).1 hp
    simpa [View.half, View.line] using ht
  | @removed s a p hs hh hc hl hrest _ =>
    refine h.removed (s.state.update .closed) hr hs hh (a := V.front ++ a) (p := p) ?_ ?_
    · simp [View.half, View.line, hrest]
    · simp [View.half, View.line]
  | @started f r hrest =>
    have hhalf : View.half { V with front := V.front ++ [f], left := V.left ++ [f], rest := r } =
        V.half := by
      simp [View.half, View.line, hrest]
    rw [hhalf]
    exact ⟨h, hr⟩

/-! ## 4. Arrivals -/

/-- A frame reaches an end that has the stream: the bytes and the credit change hands. -/
theorem arrived {f : Frame} {r : List Frame} {y y' : Stream} (h : Sound id mine X Y)
    (hr : Sound id (!mine) Y X) (hline : X.line = f :: r) (hy : Y.stream = some y)
    (hl : Y.listed = true) (hgot : y'.got = y.got ++ f.body)
    (hrecv : y'.receiveWindow + f.body.length = y.receiveWindow)
    (hmax : y'.maxReceiveWindow = y.maxReceiveWindow) (hw : y'.written = y.written)
    (hfl : y'.flag = y.flag) (hheld : y'.held = y.held)
    (hsend : y'.sendWindow = y.sendWindow + f.credit) :
    Sound id mine { X with line := r } { Y with stream := some y' } ∧
      Sound id (!mine) { Y with stream := some y' } { X with line := r } := by
  have hsub : ∀ g ∈ r, g ∈ X.line := fun g hg => by
    rw [hline]
    exact List.mem_cons_of_mem f hg
  have hseen : Y.stream.isSome = true ∨ Y.reset = true := Or.inl (by rw [hy]; rfl)
  have hbound := h.bound y hy
  constructor
  · refine
      { kinds := fun g hg => h.kinds g (hsub g hg)
        resets := fun hg => h.resets (hsub _ hg)
        opener := fun _ _ => rfl
        resetBy := fun hrt => ?_
        silent := fun hn g hg => h.silent hn g (hsub g hg)
        unread := fun hn => ?_
        unseen := fun _ _ hn => (by cases hn)
        seen := fun x y1 hx hy1 => ?_
        flow := ?_
        bound := fun y1 hy1 => ?_
        synUnseen := fun _ _ hn => (by cases hn)
        synSeen := fun _ => ⟨(h.synSeen hseen).1, fun g hg => (h.synSeen hseen).2 g (hsub g hg)⟩ }
    · rcases h.resetBy hrt with ⟨hn, -⟩ | hs
      · exact Or.inl ⟨hn, rfl⟩
      · exact Or.inr hs
    · -- an end without the stream sends nothing but resets
      have hf : f = .reset id := h.silent hn f (by rw [hline]; exact List.mem_cons_self)
      obtain ⟨hwu, hfresh⟩ := h.unread hn
      obtain ⟨h1, h2, h3⟩ := hfresh y hy
      refine ⟨hwu, fun y1 hy1 => ?_⟩
      cases hy1
      subst hf
      exact ⟨by rw [hgot, h1]; rfl, hrecv.trans h2, hmax.trans h3⟩
    · cases hy1
      have heq := (h.seen x y hx hy).2 hl
      rw [hline, payload_cons, ← List.append_assoc, ← hgot] at heq
      exact ⟨⟨payload r, heq⟩, fun _ => heq⟩
    · have hflow := h.flow
      rw [Half.receiveWindow, hy, hline, payload_cons, List.length_append] at hflow
      simp only [Half.receiveWindow, Option.map_some, Option.getD_some] at hflow ⊢
      rw [Half.sendWindow] at hflow ⊢
      dsimp only
      omega
    · cases hy1
      omega
  · refine
      { kinds := hr.kinds
        resets := hr.resets
        opener := fun _ hm => hr.opener (by rw [hy]; rfl) hm
        resetBy := fun hrt => ?_
        silent := fun hn => (by cases hn)
        unread := fun hn => (by cases hn)
        unseen := fun y1 hy1 hx hrt => ?_
        seen := fun y1 x hy1 hx => ?_
        flow := ?_
        bound := hr.bound
        synUnseen := fun y1 hy1 hx hrt => ?_
        synSeen := fun hor => ⟨fun y1 hy1 => ?_, (hr.synSeen hor).2⟩ }
    · rcases hr.resetBy hrt with ⟨hn, -⟩ | ⟨y1, hy1, hh, hul⟩
      · rw [hy] at hn
        cases hn
      · rw [hy] at hy1
        cases hy1
        exact Or.inr ⟨y', rfl, hheld.trans hh, hul⟩
    · cases hy1
      rw [hw]
      exact hr.unseen y hy hx hrt
    · cases hy1
      rw [hw]
      exact hr.seen y x hy hx
    · have hflow := hr.flow
      rw [Half.sendWindow, hy, hline, granted_cons] at hflow
      simp only [Half.sendWindow, Option.map_some, Option.getD_some] at hflow ⊢
      rw [Half.receiveWindow] at hflow ⊢
      dsimp only
      omega
    · cases hy1
      rw [hw, hfl]
      exact hr.synUnseen y hy hx hrt
    · cases hy1
      rw [hfl]
      exact (hr.synSeen hor).1 y hy

/-- A frame without payload, or a frame for an end that is gone, is lost without harm. -/
theorem lost {f : Frame} {r : List Frame} (h : Sound id mine X Y) (hr : Sound id (!mine) Y X)
    (hline : X.line = f :: r) (hl : Y.listed = false) (hsyn : f.syn = false) :
    Sound id mine { X with line := r } Y ∧ Sound id (!mine) Y { X with line := r } := by
  have hsub : ∀ g ∈ r, g ∈ X.line := fun g hg => by
    rw [hline]
    exact List.mem_cons_of_mem f hg
  have hk : Kind id f := h.kinds f (by rw [hline]; exact List.mem_cons_self)
  -- before the peer has the stream, the first payload opens it
  have hpl : ∀ x, X.stream = some x → Y.stream = none → Y.reset = false →
      f.isPayload = false := by
    intro x hx hy hrt
    cases hp : f.isPayload with
    | false => rfl
    | true =>
      rcases h.synUnseen x hx hy hrt with ⟨-, -, hnil⟩ | ⟨-, g, rest, hfr, hg, -⟩
      · rw [hline, List.filter_cons_of_pos hp] at hnil
        cases hnil
      · rw [hline, List.filter_cons_of_pos hp] at hfr
        obtain ⟨rfl, -⟩ := List.cons.inj hfr
        rw [hsyn] at hg
        cases hg
  constructor
  · refine
      { kinds := fun g hg => h.kinds g (hsub g hg)
        resets := fun hg => h.resets (hsub _ hg)
        opener := h.opener
        resetBy := h.resetBy
        silent := fun hn g hg => h.silent hn g (hsub g hg)
        unread := h.unread
        unseen := fun x hx hy hrt => ?_
        seen := fun x y hx hy => ⟨(h.seen x y hx hy).1, fun h1 => ?_⟩
        flow := ?_
        bound := h.bound
        synUnseen := fun x hx hy hrt => ?_
        synSeen := fun hor => ⟨(h.synSeen hor).1, fun g hg => (h.synSeen hor).2 g (hsub g hg)⟩ }
    · have heq := h.unseen x hx hy hrt
      rw [hline, payload_cons, (hk.of_not_payload (hpl x hx hy hrt)).1] at heq
      exact heq
    · rw [hl] at h1
      cases h1
    · have hflow := h.flow
      rw [hline, payload_cons, List.length_append] at hflow
      rw [Half.sendWindow] at hflow ⊢
      dsimp only
      omega
    · have hs := h.synUnseen x hx hy hrt
      rw [hline, List.filter_cons_of_neg (by simp [hpl x hx hy hrt])] at hs
      exact hs
  · refine
      { kinds := hr.kinds
        resets := hr.resets
        opener := hr.opener
        resetBy := hr.resetBy
        silent := hr.silent
        unread := fun hn => ⟨fun g hg => (hr.unread hn).1 g (hsub g hg), (hr.unread hn).2⟩
        unseen := hr.unseen
        seen := hr.seen
        flow := ?_
        bound := hr.bound
        synUnseen := hr.synUnseen
        synSeen := hr.synSeen }
    have hflow := hr.flow
    rw [hline, granted_cons] at hflow
    rw [Half.receiveWindow] at hflow ⊢
    dsimp only
    omega

/-- What is left once the opening frame has arrived opens nothing. -/
theorem syn_arrived {f : Frame} {r : List Frame} {x : Stream} (h : Sound id mine X Y)
    (hline : X.line = f :: r) (hsyn : f.syn = true) (hx : X.stream = some x)
    (hy : Y.stream = none) (hrt : Y.reset = false) :
    x.flag ≠ .syn ∧ ∀ g ∈ r, g.syn = false := by
  have hkinds : ∀ g ∈ f :: r, Kind id g := by
    rw [← hline]
    exact h.kinds
  have hp : f.isPayload = true := by
    cases hp : f.isPayload with
    | true => rfl
    | false =>
      rw [((hkinds f List.mem_cons_self).of_not_payload hp).2] at hsyn
      cases hsyn
  rcases h.synUnseen x hx hy hrt with ⟨-, -, hnil⟩ | ⟨hfl, g, rest, hfr, -, hrest⟩
  · rw [hline, List.filter_cons_of_pos hp] at hnil
    cases hnil
  · rw [hline, List.filter_cons_of_pos hp] at hfr
    obtain ⟨rfl, htail⟩ := List.cons.inj hfr
    refine ⟨hfl, fun k hk => ?_⟩
    cases hpk : k.isPayload with
    | true => exact hrest k (htail ▸ List.mem_filter.mpr ⟨hk, hpk⟩)
    | false => exact ((hkinds k (List.mem_cons_of_mem _ hk)).of_not_payload hpk).2

/-- Who sends an opening frame, and to whom. -/
theorem opening {f : Frame} {r : List Frame} (h : Sound id mine X Y) (hr : Sound id (!mine) Y X)
    (hline : X.line = f :: r) (hsyn : f.syn = true) :
    mine = true ∧ Y.stream = none ∧ Y.reset = false ∧ Y.line = [] ∧ ∃ x, X.stream = some x := by
  have hmem : f ∈ X.line := by
    rw [hline]
    exact List.mem_cons_self
  obtain ⟨hm, hy, -⟩ := (h.fits hr hline).syn hsyn
  have hrt : Y.reset = false := by
    cases hrt : Y.reset with
    | false => rfl
    | true =>
      rw [(h.synSeen (Or.inr hrt)).2 f hmem] at hsyn
      cases hsyn
  have hYline : Y.line = [] := by
    refine List.eq_nil_iff_forall_not_mem.mpr fun g hg => ?_
    rw [hr.silent hy g hg] at hg
    rw [hr.resets hg] at hrt
    cases hrt
  refine ⟨by simpa using hm, hy, hrt, hYline, h.isSome_of_mem hmem ?_⟩
  rintro rfl
  cases hsyn

/-- The opening frame is accepted. -/
theorem accepted {ack : Bool} {body : List UInt8} {r : List Frame} {x : Stream}
    (h : Sound id true X Y) (hr : Sound id false Y X)
    (hline : X.line = ⟨.data, id, true, ack, false, false, 0, body⟩ :: r)
    (hx : X.stream = some x) (hy : Y.stream = none) (hrt : Y.reset = false)
    (hYline : Y.line = []) :
    Sound id true { X with line := r }
        { Y with stream := some ((Stream.newInbound defaultCredit).absorb body), listed := true } ∧
      Sound id false
        { Y with stream := some ((Stream.newInbound defaultCredit).absorb body), listed := true }
        { X with line := r } := by
  have hsub : ∀ g ∈ r, g ∈ X.line := fun g hg => by
    rw [hline]
    exact List.mem_cons_of_mem _ hg
  obtain ⟨hfl, hnosyn⟩ := h.syn_arrived hline rfl hx hy hrt
  obtain ⟨hwu, hfresh⟩ := hr.unread hy
  obtain ⟨hxgot, hxrecv, -⟩ := hfresh x hx
  have hcredit : granted r = 0 := granted_eq_zero fun g hg =>
    (h.kinds g (hsub g hg)).credit_of_data (hwu g (hsub g hg))
  constructor
  · refine
      { kinds := fun g hg => h.kinds g (hsub g hg)
        resets := fun hg => h.resets (hsub _ hg)
        opener := fun _ _ => rfl
        resetBy := fun hrs => ?_
        silent := fun hn g hg => h.silent hn g (hsub g hg)
        unread := fun hn => ?_
        unseen := fun _ _ hn => (by cases hn)
        seen := fun x1 y1 hx1 hy1 => ?_
        flow := ?_
        bound := fun y1 hy1 => ?_
        synUnseen := fun _ _ hn => (by cases hn)
        synSeen := fun _ => ⟨fun x1 hx1 => ?_, hnosyn⟩ }
    · rcases h.resetBy hrs with ⟨hn, -⟩ | hs
      · exact Or.inl ⟨hn, rfl⟩
      · exact Or.inr hs
    · rw [hx] at hn
      cases hn
    · cases hy1
      have heq := h.unseen x1 hx1 hy hrt
      rw [hline, payload_cons] at heq
      have hgot : Stream.got ((Stream.newInbound defaultCredit).absorb body) = body := rfl
      rw [hgot]
      exact ⟨⟨payload r, heq⟩, fun _ => heq⟩
    · have hflow := h.flow
      rw [Half.receiveWindow, hy, hline, payload_cons, List.length_append] at hflow
      rw [Half.sendWindow] at hflow ⊢
      simp only [Half.receiveWindow, Option.map_some, Option.map_none, Option.getD_none,
        Option.getD_some, Stream.absorb, Stream.newInbound, Stream.new] at hflow ⊢
      omega
    · cases hy1
      have hb : defaultCredit ≤ u32Max := by decide
      exact ⟨Nat.sub_le _ _, hb⟩
    · rw [hx] at hx1
      cases hx1
      exact hfl
  · refine
      { kinds := fun g hg => (by rw [hYline] at hg; cases hg)
        resets := fun hg => (by rw [hYline] at hg; cases hg)
        opener := fun _ _ => (by rw [hx]; rfl)
        resetBy := fun hrs => absurd (hrt.symm.trans hrs) (by decide)
        silent := fun hn => (by cases hn)
        unread := fun hn => (by cases hn)
        unseen := fun _ _ hn => (by rw [hx] at hn; cases hn)
        seen := fun y1 x1 hy1 hx1 => ?_
        flow := ?_
        bound := hr.bound
        synUnseen := fun _ _ hn => (by rw [hx] at hn; cases hn)
        synSeen := fun _ => ⟨fun y1 hy1 => ?_, fun g hg => (by rw [hYline] at hg; cases hg)⟩ }
    · rw [hx] at hx1
      cases hx1
      cases hy1
      rw [hxgot, hYline]
      exact ⟨List.nil_prefix, fun _ => rfl⟩
    · rw [hYline, hcredit, Half.receiveWindow, hx]
      simp only [Option.map_some, Option.getD_some, hxrecv]
      exact Nat.le_refl _
    · cases hy1
      intro he
      cases he

/-- The opening frame is refused. -/
theorem refused {f : Frame} {r : List Frame} {x : Stream}
    (h : Sound id true X Y) (hr : Sound id false Y X) (hline : X.line = f :: r)
    (hsyn : f.syn = true) (hx : X.stream = some x) (hy : Y.stream = none) (hrt : Y.reset = false) :
    Sound id true { X with line := r } { Y with line := [.reset id], reset := true } ∧
      Sound id false { Y with line := [.reset id], reset := true } { X with line := r } := by
  have hsub : ∀ g ∈ r, g ∈ X.line := fun g hg => by
    rw [hline]
    exact List.mem_cons_of_mem _ hg
  obtain ⟨hfl, hnosyn⟩ := h.syn_arrived hline hsyn hx hy hrt
  constructor
  · refine
      { kinds := fun g hg => h.kinds g (hsub g hg)
        resets := fun hg => h.resets (hsub _ hg)
        opener := h.opener
        resetBy := h.resetBy
        silent := fun hn g hg => h.silent hn g (hsub g hg)
        unread := fun hn => (by rw [hx] at hn; cases hn)
        unseen := fun _ _ _ hrs => (by cases hrs)
        seen := fun _ _ _ hy1 => (by rw [hy] at hy1; cases hy1)
        flow := ?_
        bound := h.bound
        synUnseen := fun _ _ _ hrs => (by cases hrs)
        synSeen := fun _ => ⟨fun x1 hx1 => ?_, hnosyn⟩ }
    · have hflow := h.flow
      rw [hline, payload_cons, List.length_append] at hflow
      rw [Half.sendWindow, Half.receiveWindow] at hflow ⊢
      simp only [granted_cons, granted_nil, Frame.reset]
      omega
    · rw [hx] at hx1
      cases hx1
      exact hfl
  · have hreset : ∀ g ∈ [Frame.reset id], g = .reset id := fun g hg => List.mem_singleton.mp hg
    refine
      { kinds := fun g hg => (by rw [hreset g hg]; exact Kind.reset)
        resets := fun _ => rfl
        opener := fun _ _ => (by rw [hx]; rfl)
        resetBy := fun _ => Or.inl ⟨hy, (by rw [hx]; rfl)⟩
        silent := fun _ => hreset
        unread := fun hn => ⟨fun g hg => (hr.unread hn).1 g (hsub g hg), (hr.unread hn).2⟩
        unseen := fun _ hy1 => (by rw [hy] at hy1; cases hy1)
        seen := fun _ _ hy1 => (by rw [hy] at hy1; cases hy1)
        flow := ?_
        bound := hr.bound
        synUnseen := fun _ hy1 => (by rw [hy] at hy1; cases hy1)
        synSeen := fun _ => ⟨fun _ hy1 => (by rw [hy] at hy1; cases hy1),
          fun g hg => (by rw [hreset g hg]; rfl)⟩ }
    have hflow := hr.flow
    rw [hline, granted_cons] at hflow
    rw [Half.sendWindow, Half.receiveWindow] at hflow ⊢
    simp only [payload_cons, payload_nil, Frame.reset, List.append_nil, List.length_nil]
    omega

/-- **An arrival keeps the invariant**, in both directions. -/
theorem arrival {f : Frame} {r : List Frame} {V V' : View} (h : Sound id mine X V.half)
    (hr : Sound id (!mine) V.half X) (hline : X.line = f :: r)
    (ha : Arrival id V f V') :
    Sound id mine { X with line := r } V'.half ∧ Sound id (!mine) V'.half { X with line := r } := by
  cases ha with
  | ignored hl hsyn => exact h.lost hr hline hl hsyn
  | payload hl hs hw =>
    refine h.arrived hr hline hs hl ?_ (Nat.sub_add_cancel hw) rfl rfl rfl rfl rfl
    simp [Stream.got, Stream.absorb, Stream.acked]
  | credit hl hs => exact h.arrived hr hline hs hl (List.append_nil _).symm rfl rfl rfl rfl rfl rfl
  | close hl hs => exact h.arrived hr hline hs hl (List.append_nil _).symm rfl rfl rfl rfl rfl rfl
  | reset hl hs => exact h.arrived hr hline hs hl (List.append_nil _).symm rfl rfl rfl rfl rfl rfl
  | accepted hn hb =>
    obtain ⟨rfl, -, hrt, hVline, x, hx⟩ := h.opening hr hline rfl
    exact h.accepted hr hline hx hn hrt hVline
  | refused hn =>
    obtain ⟨rfl, -, hrt, hVline, x, hx⟩ := h.opening hr hline rfl
    have hempty : V.front = [] ∧ V.rest = [] := List.append_eq_nil_iff.mp hVline
    have hhalf : View.half { V with
        rest := .reset id :: V.rest, issued := V.issued ++ [.reset id], reset := true } =
        { V.half with line := [.reset id], reset := true } := by
      simp [View.half, View.line, hempty]
    rw [hhalf]
    exact h.refused hr hline rfl hx hn hrt

end Sound

end Molehill.Mux
