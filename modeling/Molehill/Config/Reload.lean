/-
# Hot reload

The watcher (`config/watcher.rs`) reads the configuration file when it changes, compares it with
the one it read before and emits the difference as events: a `General` event carries the whole new
configuration and restarts the instance, the client's services are deleted and added one by one.

A configuration has three blocks.  The functions here only compare them, so the server's block,
the L3 client's and what a client's block has besides its services are types of their own; a map
of services is a table in the order it happens to be walked in, and two maps are equal when their
entries are.  In a valid configuration every service has the name it is listed under (validation
writes it), which `ClientBlock` carries.

`reload_complete_iff`: the events bring the old configuration to the new one exactly where the
server's block is the same or something else restarts the instance.  An edit of the server's block
alone emits nothing (`server_edit_ignored`), although a restart is what the tests expect of it.
`watcher_follows` is the consequence for a whole run of the watcher.
-/
import Mathlib.Data.List.AList
import Molehill.Lib.Table
import Molehill.Lib.TableDiff
import Molehill.Client.Config

namespace Molehill.Reload

open Lib

/-! ## 1. Configurations -/

section

variable {Server Head L3 Service : Type} (name : Service → String)

/-- `[client]`: the settings, and the services under their names. -/
structure ClientBlock (Head : Type) where
  head : Head
  services : Table String Service
  named : ∀ k c, services.lookup k = some c → name c = k

/-- `Config`. -/
structure Config (Server Head L3 : Type) where
  server : Option Server
  client : Option (ClientBlock name Head)
  transparent : Option L3

/-- `ConfigChange`, with `ClientServiceChange`. -/
inductive ConfigChange (Server Head L3 : Type)
  | general (config : Config name Server Head L3)
  | add (service : Service)
  | delete (service : String)

end

variable {Server Head L3 Service : Type} {name : Service → String}

namespace ClientBlock

/-- Equality of two blocks: of the settings, and of the services in any order. -/
def Same (a b : ClientBlock name Head) : Prop :=
  a.head = b.head ∧ a.services.entries.Perm b.services.entries

def insert (c : ClientBlock name Head) (service : Service) : ClientBlock name Head where
  head := c.head
  services := c.services.insert (name service) service
  named := by
    intro k v h
    rw [Table.lookup_insert_eq] at h
    split at h
    case isTrue hk =>
      cases h
      exact hk.symm
    case isFalse => exact c.named k v h

def remove (c : ClientBlock name Head) (service : String) : ClientBlock name Head where
  head := c.head
  services := c.services.erase service
  named := by
    intro k v h
    rw [Table.lookup_erase_eq] at h
    split at h
    case isTrue => cases h
    case isFalse => exact c.named k v h

instance [DecidableEq Head] [DecidableEq Service] (a b : ClientBlock name Head) :
    Decidable (a.Same b) :=
  inferInstanceAs (Decidable (_ ∧ _))

theorem Same.refl (a : ClientBlock name Head) : a.Same a := ⟨rfl, List.Perm.refl _⟩

theorem Same.symm {a b : ClientBlock name Head} (h : a.Same b) : b.Same a :=
  ⟨h.1.symm, h.2.symm⟩

theorem Same.trans {a b c : ClientBlock name Head} (h : a.Same b) (h' : b.Same c) : a.Same c :=
  ⟨h.1.trans h'.1, h.2.trans h'.2⟩

end ClientBlock

namespace Config

/-- Equality of two optional client blocks. -/
def SameClient : Option (ClientBlock name Head) → Option (ClientBlock name Head) → Prop
  | none, none => True
  | some a, some b => a.Same b
  | _, _ => False

instance [DecidableEq Head] [DecidableEq Service] :
    (a b : Option (ClientBlock name Head)) → Decidable (SameClient a b)
  | none, none => inferInstanceAs (Decidable True)
  | some a, some b => inferInstanceAs (Decidable (a.Same b))
  | some _, none => inferInstanceAs (Decidable False)
  | none, some _ => inferInstanceAs (Decidable False)

/-- Equality of two configurations. -/
def Same (a b : Config name Server Head L3) : Prop :=
  a.server = b.server ∧ SameClient a.client b.client ∧ a.transparent = b.transparent

theorem Same.refl (c : Config name Server Head L3) : c.Same c := by
  refine ⟨rfl, ?_, rfl⟩
  rcases h : c.client with _ | b
  · trivial
  · exact ClientBlock.Same.refl b

theorem Same.trans {a b c : Config name Server Head L3} (h : a.Same b) (h' : b.Same c) :
    a.Same c := by
  refine ⟨h.1.trans h'.1, ?_, h.2.2.trans h'.2.2⟩
  have hab := h.2.1
  have hbc := h'.2.1
  rcases ha : a.client with _ | x
  · rcases hb : b.client with _ | y
    · rwa [hb] at hbc
    · simp [ha, hb, SameClient] at hab
  · rcases hb : b.client with _ | y
    · simp [ha, hb, SameClient] at hab
    · rcases hc : c.client with _ | z
      · simp [hb, hc, SameClient] at hbc
      · rw [ha, hb] at hab
        rw [hb, hc] at hbc
        exact ClientBlock.Same.trans hab hbc

/-- One event: a restart with the new configuration, or an edit of the client's services
(`handle_hot_reload`). -/
def apply (c : Config name Server Head L3) :
    ConfigChange name Server Head L3 → Config name Server Head L3
  | .general config => config
  | .add service => { c with client := c.client.map (·.insert service) }
  | .delete service => { c with client := c.client.map (·.remove service) }

def applyAll (c : Config name Server Head L3) (changes : List (ConfigChange name Server Head L3)) :
    Config name Server Head L3 :=
  changes.foldl apply c

/-- A run of deletions. -/
theorem applyAll_delete (c : Config name Server Head L3) (ks : List String) :
    applyAll c (ks.map .delete) =
      { c with client := c.client.map fun b => ks.foldl ClientBlock.remove b } := by
  induction ks generalizing c with
  | nil => simp [applyAll]
  | cons k ks ih =>
    have hstep : applyAll c ((k :: ks).map .delete) =
        applyAll (apply c (.delete k)) (ks.map .delete) := rfl
    rw [hstep, ih]
    simp [apply, Function.comp_def]

/-- A run of additions. -/
theorem applyAll_add (c : Config name Server Head L3) (vs : List Service) :
    applyAll c (vs.map .add) =
      { c with client := c.client.map fun b => vs.foldl ClientBlock.insert b } := by
  induction vs generalizing c with
  | nil => simp [applyAll]
  | cons v vs ih =>
    have hstep : applyAll c ((v :: vs).map .add) =
        applyAll (apply c (.add v)) (vs.map .add) := rfl
    rw [hstep, ih]
    simp [apply, Function.comp_def]

theorem services_foldl_remove (b : ClientBlock name Head) (ks : List String) :
    (ks.foldl ClientBlock.remove b).services = b.services.eraseAll ks ∧
      (ks.foldl ClientBlock.remove b).head = b.head := by
  induction ks generalizing b with
  | nil => exact ⟨rfl, rfl⟩
  | cons k ks ih => exact ih (b.remove k)

theorem services_foldl_insert (b : ClientBlock name Head) (vs : List Service) :
    (vs.foldl ClientBlock.insert b).services = b.services.insertAll name vs ∧
      (vs.foldl ClientBlock.insert b).head = b.head := by
  induction vs generalizing b with
  | nil => exact ⟨rfl, rfl⟩
  | cons v vs ih => exact ih (b.insert v)

variable [DecidableEq Server] [DecidableEq Head] [DecidableEq L3] [DecidableEq Service]

instance (a b : Config name Server Head L3) : Decidable (a.Same b) :=
  inferInstanceAs (Decidable (_ ∧ _))

/-! ## 2. The events -/

/-- `calculate_instance_config_events`; none where the settings differ. -/
def calculateInstanceConfigEvents (old new : ClientBlock name Head) :
    Option (List (ConfigChange name Server Head L3)) :=
  if old.head ≠ new.head then none
  else
    some ((old.services.gone new.services).map .delete ++
      (old.services.changed new.services).map .add)

/-- `calculate_events`. -/
def calculateEvents (old new : Config name Server Head L3) :
    Option (List (ConfigChange name Server Head L3)) :=
  if old.Same new then none
  else if old.server.isSome ≠ new.server.isSome ∨ old.client.isSome ≠ new.client.isSome ∨
      old.transparent.isSome ≠ new.transparent.isSome then
    some [.general new]
  else
    let services :=
      if SameClient old.client new.client then some []
      else
        match old.client, new.client with
        | some oldClient, some newClient => calculateInstanceConfigEvents oldClient newClient
        | _, _ => none
    match services with
    | none => some [.general new]
    | some ret => if old.transparent ≠ new.transparent then some [.general new] else some ret

/-- What the watcher sends. -/
def events (old new : Config name Server Head L3) : List (ConfigChange name Server Head L3) :=
  (calculateEvents old new).getD []

/-! ## 3. What the events do -/

/-- Something besides the server's block calls for a restart: a block comes or goes, the L3
client's block differs, or the client's settings do. -/
def restarts (old new : Config name Server Head L3) : Bool :=
  old.server.isSome ≠ new.server.isSome ∨ old.client.isSome ≠ new.client.isSome ∨
    old.transparent.isSome ≠ new.transparent.isSome ∨ old.transparent ≠ new.transparent ∨
    old.client.map ClientBlock.head ≠ new.client.map ClientBlock.head

theorem events_of_same {old new : Config name Server Head L3} (h : old.Same new) :
    events old new = [] := by
  simp [events, calculateEvents, h]

/-- A restart is one event. -/
theorem events_of_restarts {old new : Config name Server Head L3} (h : ¬ old.Same new)
    (hr : old.restarts new = true) : events old new = [.general new] := by
  simp only [restarts, decide_eq_true_eq] at hr
  rw [events, calculateEvents, if_neg h]
  split
  case isTrue => rfl
  case isFalse hshape =>
    rcases hr with hr | hr | hr | hr | hr
    · exact absurd (.inl hr) hshape
    · exact absurd (.inr (.inl hr)) hshape
    · exact absurd (.inr (.inr hr)) hshape
    · -- the L3 client's block differs
      dsimp only
      split
      · rfl
      · rw [if_pos hr]
        rfl
    · -- the client's settings differ
      have hnone : (if SameClient old.client new.client then some []
          else
            match old.client, new.client with
            | some oldClient, some newClient => calculateInstanceConfigEvents oldClient newClient
            | _, _ => none : Option (List (ConfigChange name Server Head L3))) = none := by
        rcases hold : old.client with _ | a
        · rcases hnew : new.client with _ | b
          · simp [hold, hnew] at hr
          · simp [SameClient]
        · rcases hnew : new.client with _ | b
          · simp [SameClient]
          · have hhead : a.head ≠ b.head := by simpa [hold, hnew] using hr
            have hdiff : ¬ a.Same b := fun hab => hhead hab.1
            simp [SameClient, hdiff, calculateInstanceConfigEvents, hhead]
      dsimp only
      rw [hnone]
      rfl

/-- Without a restart the client's services are edited, where the client differs. -/
theorem events_of_not_restarts {old new : Config name Server Head L3} (h : ¬ old.Same new)
    (hr : old.restarts new = false) :
    (SameClient old.client new.client ∧ events old new = []) ∨
    ∃ a b, old.client = some a ∧ new.client = some b ∧ a.head = b.head ∧
      events old new = (a.services.gone b.services).map .delete ++
        (a.services.changed b.services).map .add := by
  simp only [restarts, decide_eq_false_iff_not, not_or, not_not] at hr
  obtain ⟨hserver, hclient, hl3, htrans, hhead⟩ := hr
  rw [events, calculateEvents, if_neg h, if_neg (by simp [hserver, hclient, hl3])]
  dsimp only
  rcases hold : old.client with _ | a
  · rcases hnew : new.client with _ | b
    · left
      simp [SameClient, htrans]
    · simp [hold, hnew] at hclient
  · rcases hnew : new.client with _ | b
    · simp [hold, hnew] at hclient
    · have hab : a.head = b.head := by simpa [hold, hnew] using hhead
      by_cases hsame : a.Same b
      · left
        simp [SameClient, hsame, htrans]
      · right
        refine ⟨a, b, rfl, rfl, hab, ?_⟩
        simp [SameClient, hsame, htrans, calculateInstanceConfigEvents, hab]

omit [DecidableEq Head] in
/-- The edits of the services bring a block like the old one to the new one. -/
theorem same_edited {cur old new : ClientBlock name Head} (hcur : cur.Same old)
    (hhead : old.head = new.head) :
    ((old.services.changed new.services).foldl ClientBlock.insert
      ((old.services.gone new.services).foldl ClientBlock.remove cur)).Same new := by
  obtain ⟨hrem, hremHead⟩ := services_foldl_remove cur (old.services.gone new.services)
  obtain ⟨hins, hinsHead⟩ := services_foldl_insert
    ((old.services.gone new.services).foldl ClientBlock.remove cur)
    (old.services.changed new.services)
  refine ⟨?_, ?_⟩
  · rw [hinsHead, hremHead, hcur.1, hhead]
  · rw [hins, hrem]
    refine Table.perm_iff_lookup.mpr fun k => ?_
    exact Table.lookup_patch (Table.perm_iff_lookup.mp hcur.2) new.named k

/-- The events bring a configuration like the old one to the new one. -/
theorem same_applyAll {cur old new : Config name Server Head L3} (hcur : cur.Same old)
    (h : old.server = new.server ∨ old.restarts new = true) :
    (applyAll cur (events old new)).Same new := by
  by_cases hsame : old.Same new
  · rw [events_of_same hsame]
    exact hcur.trans hsame
  · rcases hr : old.restarts new with _ | _
    · have hserver : old.server = new.server := by simpa [hr] using h
      have htrans : old.transparent = new.transparent := by
        simp only [restarts, decide_eq_false_iff_not, not_or, not_not] at hr
        exact hr.2.2.2.1
      rcases events_of_not_restarts hsame hr with ⟨hclient, -⟩ | ⟨a, b, ha, hb, hhead, hev⟩
      · exact absurd ⟨hserver, hclient, htrans⟩ hsame
      · obtain ⟨hcserver, hcclient, hctrans⟩ := hcur
        rcases hc : cur.client with _ | c
        · simp [hc, ha, SameClient] at hcclient
        · rw [hc, ha] at hcclient
          rw [hev, applyAll, List.foldl_append, ← applyAll, ← applyAll, applyAll_delete,
            applyAll_add]
          refine ⟨hcserver.trans hserver, ?_, hctrans.trans htrans⟩
          rw [hc, hb]
          exact same_edited hcclient hhead
    · rw [events_of_restarts hsame hr]
      exact Same.refl new

/-- Without a restart the events leave the server's block alone. -/
theorem server_applyAll {old new : Config name Server Head L3} (hr : old.restarts new = false) :
    (applyAll old (events old new)).server = old.server := by
  by_cases hsame : old.Same new
  · rw [events_of_same hsame]
    rfl
  · rcases events_of_not_restarts hsame hr with ⟨-, hev⟩ | ⟨a, b, -, -, -, hev⟩
    · rw [hev]
      rfl
    · rw [hev, applyAll, List.foldl_append, ← applyAll, ← applyAll, applyAll_delete, applyAll_add]

/-! ## 4. Completeness -/

/-- **Hot reload.**  The events, applied in the order they are sent, bring the old configuration
to the new one, and there is one wherever the two differ, if and only if the server's block is the
same in both or something else restarts the instance. -/
theorem reload_complete_iff (old new : Config name Server Head L3) :
    ((applyAll old (events old new)).Same new ∧ (¬ old.Same new → events old new ≠ [])) ↔
      old.server = new.server ∨ old.restarts new = true := by
  constructor
  · rintro ⟨happly, -⟩
    rcases hr : old.restarts new with _ | _
    · left
      rw [← server_applyAll hr]
      exact happly.1
    · exact .inr rfl
  · intro h
    have happly := same_applyAll (Same.refl old) h
    refine ⟨happly, fun hdiff hnil => hdiff ?_⟩
    rw [hnil] at happly
    exact happly

/-- The watcher's loop: it keeps the last file it could read, and the instance runs with what the
events have made of its configuration. -/
def watch : Config name Server Head L3 × Config name Server Head L3 →
    List (Config name Server Head L3) → Config name Server Head L3 × Config name Server Head L3
  | state, [] => state
  | (old, running), new :: files => watch (new, applyAll running (events old new)) files

/-- **A run of the watcher.**  If every edit of the file meets the condition, the instance always
runs with the configuration of the last file. -/
theorem watcher_follows {old running : Config name Server Head L3} (h : running.Same old)
    {files : List (Config name Server Head L3)}
    (hedits : List.IsChain (fun a b : Config name Server Head L3 =>
      a.server = b.server ∨ a.restarts b = true) (old :: files)) :
    (watch (old, running) files).2.Same (watch (old, running) files).1 := by
  induction files generalizing old running with
  | nil => exact h
  | cons new files ih =>
    obtain ⟨hstep, hrest⟩ := List.isChain_cons_cons.mp hedits
    exact ih (same_applyAll h hstep) hrest

end Config

/-! ## 5. An edit of the server's block -/

/-- A server's block with two of its keys. -/
structure ServerBlock where
  defaultToken : String
  bindAddr : String
  deriving DecidableEq

/-- A server's configuration file. -/
def serverFile (token : String) :
    Config Client.ClientServiceConfig.name ServerBlock Client.ClientConfig Unit :=
  ⟨some ⟨token, "0.0.0.0:2333"⟩, none, none⟩

/-- **An edit of the server's block is ignored.**  A new token in the file of a server makes a
different configuration and no event: the instance goes on with the old one. -/
theorem server_edit_ignored :
    ¬ (serverFile "old").Same (serverFile "new") ∧
    (serverFile "old").events (serverFile "new") = [] ∧
    ¬ ((serverFile "old").applyAll ((serverFile "old").events (serverFile "new"))).Same
      (serverFile "new") := by
  have hdiff : ¬ (serverFile "old").Same (serverFile "new") := by decide
  have hevents : (serverFile "old").events (serverFile "new") = [] := by
    rcases Config.events_of_not_restarts hdiff (by decide) with ⟨-, hev⟩ | ⟨a, b, ha, -⟩
    · exact hev
    · cases ha
  refine ⟨hdiff, hevents, ?_⟩
  rw [hevents]
  decide

end Molehill.Reload
