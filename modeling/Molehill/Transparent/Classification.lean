/-
# Which endpoint a packet belongs to, over the life of a table

What a table is for is a set: the endpoints that are claimed at the moment.  Inserts and removes
make it (`claims`), and `EndpointTable` keeps it, with a count for each address, through replacing
inserts and removes of what is not there (`mem_run_iff`).

By that set a packet with a usable port belongs to the endpoint it names, and one without to the
only claimant of its address (`Belongs`).  `endpoint_for` finds that endpoint for every packet but
one: a packet for a port nobody claims goes to the only claimant of the address too
(`unclaimed_port_routed`).  `classified_iff` says that this is all.
-/
import Mathlib.Data.Finset.Basic
import Molehill.Transparent.Endpoint

namespace Molehill.Transparent

open Lib

/-! ## 1. The claimed endpoints -/

/-- An operation on the table. -/
inductive TableOp (V : Type)
  | insert (e : Endpoint) (v : V)
  | remove (e : Endpoint)

namespace TableOp

variable {V : Type}

/-- What it does to the table. -/
def apply (t : EndpointTable V) : TableOp V → EndpointTable V
  | .insert e v => t.insert e v
  | .remove e => t.remove e

/-- What it does to the set of the claimed endpoints. -/
def claim (claims : Finset Endpoint) : TableOp V → Finset Endpoint
  | .insert e _ => Insert.insert e claims
  | .remove e => claims.erase e

/-- The table after the operations. -/
def run (ops : List (TableOp V)) : EndpointTable V := ops.foldl apply .new

/-- The endpoints that are claimed after them. -/
def claims (ops : List (TableOp V)) : Finset Endpoint := ops.foldl claim ∅

/-- One operation keeps the entries the claimed endpoints. -/
theorem mem_apply_iff {t : EndpointTable V} {claims : Finset Endpoint}
    (h : ∀ e, e ∈ t.entries ↔ e ∈ claims) (op : TableOp V) (e : Endpoint) :
    e ∈ (op.apply t).entries ↔ e ∈ op.claim claims := by
  cases op with
  | insert e' v =>
    change e ∈ t.entries.insert e' v ↔ _
    rw [claim, AList.mem_insert, Finset.mem_insert, h]
  | remove e' =>
    change e ∈ t.entries.erase e' ↔ _
    rw [claim, AList.mem_erase, Finset.mem_erase, h]

/-- **The entries are the claimed endpoints**, after any operations. -/
theorem mem_run_iff (ops : List (TableOp V)) (e : Endpoint) :
    e ∈ (run ops).entries ↔ e ∈ claims ops := by
  have hall : ∀ (t : EndpointTable V) (set : Finset Endpoint), (∀ e, e ∈ t.entries ↔ e ∈ set) →
      ∀ e, e ∈ (ops.foldl apply t).entries ↔ e ∈ ops.foldl claim set := by
    induction ops with
    | nil => exact fun t set h => h
    | cons op rest ih => exact fun t set h => ih _ _ (mem_apply_iff h op)
  exact hall .new ∅ (fun e => by simp [EndpointTable.new]) e

end TableOp

/-! ## 2. The packet's endpoint -/

/-- The port that a packet is routed by: of TCP and UDP, where the packet shows one. -/
def PacketInfo.usablePort (info : PacketInfo) (direction : Direction) : Option U16 :=
  if info.protocol = tcp ∨ info.protocol = udp then (info.routedEnd direction).2 else none

/-- **The endpoint a packet belongs to**: the one it names, or, where it names none, the only one on
its address. -/
def Belongs (claims : Finset Endpoint) (info : PacketInfo) (direction : Direction)
    (e : Endpoint) : Prop :=
  e ∈ claims ∧ e.ip = (info.routedEnd direction).1 ∧
    match info.usablePort direction with
    | some port => e.port = port
    | none => ∀ e' ∈ claims, e'.ip = e.ip → e' = e

/-- A packet for a port that nobody claims, on an address with one claimant. -/
def UnclaimedPort (claims : Finset Endpoint) (info : PacketInfo) (direction : Direction) : Prop :=
  ∃ port, info.usablePort direction = some port ∧
    ⟨(info.routedEnd direction).1, port⟩ ∉ claims ∧
    ∃ e ∈ claims, e.ip = (info.routedEnd direction).1 ∧ ∀ e' ∈ claims, e'.ip = e.ip → e' = e

namespace EndpointTable

variable {V : Type} {t : EndpointTable V} {ip : IpAddr} {e : Endpoint}

/-- The answer, by the packet's usable port. -/
theorem endpointFor_eq (t : EndpointTable V) (info : PacketInfo) (direction : Direction) :
    t.endpointFor info direction =
      match info.usablePort direction with
      | some port =>
        if (⟨(info.routedEnd direction).1, port⟩ : Endpoint) ∈ t.entries then
          some ⟨(info.routedEnd direction).1, port⟩
        else t.soleClaimant (info.routedEnd direction).1
      | none => t.soleClaimant (info.routedEnd direction).1 := by
  unfold endpointFor PacketInfo.usablePort
  obtain ⟨addr, port⟩ := info.routedEnd direction
  by_cases hproto : info.protocol = tcp ∨ info.protocol = udp
  · cases port <;> simp [hproto]
  · cases port <;> simp [hproto]

/-- **The only claimant** of an address. -/
theorem soleClaimant_eq_some_iff :
    t.soleClaimant ip = some e ↔
      e ∈ t.entries ∧ e.ip = ip ∧ ∀ e' ∈ t.entries, e'.ip = ip → e' = e := by
  constructor
  · intro h
    have hfind : t.entries.keys.find? (·.ip = ip) = some e := by
      rw [soleClaimant] at h
      split at h
      case isTrue => exact h
      case isFalse => cases h
    obtain ⟨hip, he⟩ := find_ip hfind
    exact ⟨he, hip, fun e' he' hip' => soleClaimant_unique h he' hip'⟩
  · rintro ⟨he, rfl, honly⟩
    have hcount : claimantsOf e.ip t.entries.keys = 1 := by
      rw [claimantsOf, ← List.count_eq_one_of_mem t.entries.nodupKeys (AList.mem_keys.mp he),
        List.count]
      refine List.countP_congr fun e' he' => ?_
      rw [decide_eq_true_iff, beq_iff_eq]
      exact ⟨honly e' (AList.mem_keys.mpr he'), fun h => h ▸ rfl⟩
    have hone : t.perIp.lookup e.ip = some 1 := by
      obtain ⟨hcounted, -⟩ := t.counted e.ip
      rw [hcount] at hcounted
      cases hlookup : t.perIp.lookup e.ip with
      | none =>
        rw [hlookup] at hcounted
        cases hcounted
      | some n =>
        rw [hlookup] at hcounted
        exact congrArg some hcounted
    rw [soleClaimant, if_pos hone]
    cases hfind : t.entries.keys.find? (·.ip = e.ip) with
    | none =>
      have hnone := List.find?_eq_none.mp hfind e (AList.mem_keys.mp he)
      exact absurd (decide_eq_true rfl) hnone
    | some e' =>
      obtain ⟨hip', he'⟩ := find_ip hfind
      rw [honly e' he' hip']

/-- **What `endpoint_for` finds is what the packet belongs to**, unless its port is unclaimed. -/
theorem endpointFor_eq_some_iff {claims : Finset Endpoint} (h : ∀ e, e ∈ t.entries ↔ e ∈ claims)
    (info : PacketInfo) (direction : Direction) :
    (∀ e, t.endpointFor info direction = some e ↔ Belongs claims info direction e) ↔
      ¬ UnclaimedPort claims info direction := by
  rw [endpointFor_eq]
  unfold Belongs UnclaimedPort
  generalize (info.routedEnd direction).1 = addr
  have hsole : ∀ e, t.soleClaimant addr = some e ↔
      e ∈ claims ∧ e.ip = addr ∧ ∀ e' ∈ claims, e'.ip = e.ip → e' = e := by
    intro e
    rw [soleClaimant_eq_some_iff]
    simp only [h]
    refine and_congr_right fun _ => and_congr_right fun hip => ?_
    rw [hip]
  cases info.usablePort direction with
  | none =>
    refine ⟨?_, fun _ => hsole⟩
    rintro - ⟨port, hport, -⟩
    cases hport
  | some port =>
    dsimp only
    by_cases hmem : (⟨addr, port⟩ : Endpoint) ∈ t.entries
    · rw [if_pos hmem]
      constructor
      · rintro - ⟨port', hport, hnone, -⟩
        cases hport
        exact hnone ((h _).mp hmem)
      · intro _ e
        constructor
        · rintro ⟨⟩
          exact ⟨(h _).mp hmem, rfl, rfl⟩
        · rintro ⟨-, rfl, rfl⟩
          rfl
    · rw [if_neg hmem]
      have hnobody : ∀ e, ¬ (e ∈ claims ∧ e.ip = addr ∧ e.port = port) := by
        rintro e ⟨he, rfl, rfl⟩
        exact hmem ((h e).mpr he)
      constructor
      · rintro hall ⟨-, -, -, e, he, hip, honly⟩
        exact hnobody e ((hall e).mp ((hsole e).mpr ⟨he, hip, honly⟩))
      · intro hnone e
        constructor
        · intro hfound
          obtain ⟨he, hip, honly⟩ := (hsole e).mp hfound
          exact absurd ⟨port, rfl, fun hin => hmem ((h _).mpr hin), e, he, hip, honly⟩ hnone
        · intro hbelongs
          exact absurd hbelongs (hnobody e)

end EndpointTable

/-- **Packet classification**, after any operations on the table: every packet is routed to the
endpoint it belongs to, and no other, exactly unless it is for a port that nobody claims on an
address with one claimant. -/
theorem classified_iff {V : Type} (ops : List (TableOp V)) (info : PacketInfo)
    (direction : Direction) :
    (∀ e, (TableOp.run ops).endpointFor info direction = some e ↔
        Belongs (TableOp.claims ops) info direction e) ↔
      ¬ UnclaimedPort (TableOp.claims ops) info direction :=
  EndpointTable.endpointFor_eq_some_iff (TableOp.mem_run_iff ops) info direction

/-- A TCP packet from 10.0.0.2 to 10.99.0.1, port 80. -/
def packetForPort80 : PacketInfo :=
  ⟨tcp, .v4 0x0a000002, .v4 0x0a630001, some 40000, some 80⟩

/-- **A packet for an unclaimed port is routed**: only port 443 is claimed, and its claimant gets
it. -/
theorem unclaimed_port_routed :
    (TableOp.run [.insert ⟨.v4 0x0a630001, 443⟩ ()]).endpointFor packetForPort80 .destination
        = some ⟨.v4 0x0a630001, 443⟩ ∧
      ¬ Belongs (TableOp.claims [.insert ⟨.v4 0x0a630001, 443⟩ ()]) packetForPort80 .destination
        ⟨.v4 0x0a630001, 443⟩ := by
  refine ⟨by decide +kernel, ?_⟩
  rintro ⟨-, -, hport⟩
  exact absurd (show (443 : U16) = 80 from hport) (by decide)

end Molehill.Transparent
