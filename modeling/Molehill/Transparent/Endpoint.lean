/-
# Which packet belongs to which claim

Two rules over one packet.  The sending side looks the packet up in the table of its claimed
endpoints (`endpoint_for`), by the end of the packet it owns; the receiving side checks that the
frame it got on a claim's lane is the claim's (`claimed_frame_info`), by the same end.

A packet with ports is meant to match its exact endpoint, one without to match the address if
that has a single claimant.  But `endpoint_for` falls through to the second rule also for a packet
whose port nobody claims: on an address with one claimant it is sent to that claimant, whose
receiver refuses it (`stray_port_refused`).  Everywhere else the rules agree, and
`routed_accepted_iff` says exactly when.
-/
import Molehill.Lib.Table
import Molehill.Transparent.Packet

namespace Molehill.Transparent

open Lib

/-! ## 1. The table -/

/-- One claimed public endpoint. -/
structure Endpoint where
  ip : IpAddr
  port : U16
  deriving DecidableEq

/-- How many of the endpoints are on this address. -/
def claimantsOf (ip : IpAddr) (keys : List Endpoint) : Nat := keys.countP (·.ip = ip)

/-- `EndpointTable`: the entries, and for each address how many of them it has. -/
structure EndpointTable (V : Type) where
  entries : Table Endpoint V
  perIp : Table IpAddr Nat
  /-- The counters are the counts; an address without entries has no counter. -/
  counted : ∀ ip, (perIp.lookup ip).getD 0 = claimantsOf ip entries.keys ∧
    perIp.lookup ip ≠ some 0

namespace EndpointTable

variable {V : Type}

def new : EndpointTable V where
  entries := ∅
  perIp := ∅
  counted := fun _ => ⟨rfl, by rintro ⟨⟩⟩

variable {t : EndpointTable V} {e : Endpoint}

/-- A key that is there is counted once. -/
theorem claimants_insert (keys : List Endpoint) (e : Endpoint) (ip : IpAddr) :
    claimantsOf ip (e :: keys.erase e) =
      claimantsOf ip keys + if e ∉ keys ∧ e.ip = ip then 1 else 0 := by
  by_cases he : e ∈ keys
  · rw [if_neg (fun h => h.1 he), Nat.add_zero]
    exact (List.perm_cons_erase he).symm.countP_eq _
  · rw [List.erase_of_not_mem he, claimantsOf, claimantsOf, List.countP_cons]
    simp [he]

theorem claimants_erase (keys : List Endpoint) (e : Endpoint) (ip : IpAddr) :
    claimantsOf ip (keys.erase e) =
      claimantsOf ip keys - if e ∈ keys ∧ e.ip = ip then 1 else 0 := by
  by_cases he : e ∈ keys
  · have hperm : claimantsOf ip keys = claimantsOf ip (e :: keys.erase e) :=
      (List.perm_cons_erase he).countP_eq _
    rw [hperm, claimantsOf, claimantsOf, List.countP_cons]
    simp [he]
  · rw [List.erase_of_not_mem he, if_neg (fun h => he h.1), Nat.sub_zero]

/-- `EndpointTable::insert`. -/
def insert (t : EndpointTable V) (e : Endpoint) (v : V) : EndpointTable V where
  entries := t.entries.insert e v
  perIp :=
    if e ∈ t.entries then t.perIp
    else t.perIp.insert e.ip ((t.perIp.lookup e.ip).getD 0 + 1)
  counted := by
    intro ip
    obtain ⟨hcount, hne⟩ := t.counted ip
    rw [AList.keys_insert, claimants_insert]
    split
    case isTrue he =>
      rw [if_neg (fun h => h.1 (AList.mem_keys.mp he))]
      exact ⟨hcount, hne⟩
    case isFalse he =>
      rw [Table.lookup_insert_eq]
      by_cases hip : ip = e.ip
      · subst hip
        rw [if_pos rfl, if_pos ⟨fun h => he (AList.mem_keys.mpr h), rfl⟩, hcount]
        exact ⟨rfl, by simp⟩
      · rw [if_neg hip, if_neg (fun h => hip h.2.symm)]
        exact ⟨hcount, hne⟩

/-- The address counters with one entry less. -/
def uncount (perIp : Table IpAddr Nat) (ip : IpAddr) : Table IpAddr Nat :=
  let count := (perIp.lookup ip).getD 0 - 1
  if count = 0 then perIp.erase ip else perIp.insert ip count

theorem lookup_uncount (perIp : Table IpAddr Nat) (ip ip' : IpAddr) :
    (uncount perIp ip).lookup ip' =
      if ip' = ip then
        if (perIp.lookup ip).getD 0 - 1 = 0 then none else some ((perIp.lookup ip).getD 0 - 1)
      else perIp.lookup ip' := by
  simp only [uncount]
  split
  · rw [Table.lookup_erase_eq]
  · rw [Table.lookup_insert_eq]

/-- `EndpointTable::remove`. -/
def remove (t : EndpointTable V) (e : Endpoint) : EndpointTable V where
  entries := t.entries.erase e
  perIp := if e ∈ t.entries then uncount t.perIp e.ip else t.perIp
  counted := by
    intro ip
    obtain ⟨hcount, hne⟩ := t.counted ip
    have hkeys : (t.entries.erase e).keys = t.entries.keys.erase e := AList.keys_erase e t.entries
    rw [hkeys, claimants_erase]
    by_cases he : e ∈ t.entries
    · rw [if_pos he, lookup_uncount]
      by_cases hip : ip = e.ip
      · subst hip
        have hmem : e ∈ t.entries.keys ∧ e.ip = e.ip := ⟨AList.mem_keys.mp he, rfl⟩
        rw [if_pos (rfl : e.ip = e.ip), if_pos hmem, ← hcount]
        split
        case isTrue hz => exact ⟨hz.symm, by rintro ⟨⟩⟩
        case isFalse hz => exact ⟨rfl, fun h => hz (Option.some.inj h)⟩
      · rw [if_neg hip, if_neg (fun h => hip h.2.symm), Nat.sub_zero]
        exact ⟨hcount, hne⟩
    · rw [if_neg he, if_neg (fun h => he (AList.mem_keys.mpr h.1)), Nat.sub_zero]
      exact ⟨hcount, hne⟩

/-- An address with a counter has an entry. -/
theorem exists_entry {ip : IpAddr} {n : Nat} (h : t.perIp.lookup ip = some n) :
    ∃ e ∈ t.entries.keys, e.ip = ip := by
  obtain ⟨hcount, hne⟩ := t.counted ip
  have hpos : 0 < claimantsOf ip t.entries.keys := by
    rw [← hcount, h]
    refine Nat.pos_of_ne_zero ?_
    rintro hz
    exact hne (h.trans (congrArg some hz))
  obtain ⟨e, he, hip⟩ := List.countP_pos_iff.mp hpos
  exact ⟨e, he, of_decide_eq_true hip⟩

end EndpointTable

/-! ## 2. The two rules -/

/-- Which end of a packet a node's claims are recognised by when it sends: the server routes by
destination, the client, whose host is the claimed address, by source. -/
inductive Direction
  | destination
  | source
  deriving DecidableEq

/-- The other end of the lane. -/
def Direction.peer : Direction → Direction
  | destination => source
  | source => destination

/-- `FrameFormat`. -/
inductive FrameFormat
  | ip
  | vnet
  deriving DecidableEq

def vnetHdrLen : Nat := 10

/-- `frame_info`: the packet starts past the virtio-net header of a vnet frame. -/
def frameInfo (frame : Bytes) : FrameFormat → Except ParseError PacketInfo
  | .vnet => if frame.length < vnetHdrLen then .error .malformed else parse (frame.drop vnetHdrLen)
  | .ip => parse frame

/-- The end a sender looks at. -/
def PacketInfo.routedEnd (info : PacketInfo) : Direction → IpAddr × Option U16
  | .destination => (info.dst, info.dstPort)
  | .source => (info.src, info.srcPort)

/-- The claimant of an address, if it has exactly one. -/
def EndpointTable.soleClaimant {V : Type} (t : EndpointTable V) (ip : IpAddr) : Option Endpoint :=
  if t.perIp.lookup ip = some 1 then t.entries.keys.find? (·.ip = ip) else none

/-- `EndpointTable::endpoint_for`. -/
def EndpointTable.endpointFor {V : Type} (t : EndpointTable V) (info : PacketInfo)
    (direction : Direction) : Option Endpoint :=
  match info.routedEnd direction with
  | (ip, some port) =>
    if (info.protocol = tcp ∨ info.protocol = udp) ∧ (⟨ip, port⟩ : Endpoint) ∈ t.entries then
      some ⟨ip, port⟩
    else t.soleClaimant ip
  | (ip, none) => t.soleClaimant ip

/-- A device frame is parsed and routed (`route_frame`). -/
def EndpointTable.route {V : Type} (t : EndpointTable V) (frame : Bytes) (format : FrameFormat)
    (direction : Direction) : Option Endpoint :=
  match frameInfo frame format with
  | .ok info => t.endpointFor info direction
  | .error _ => none

/-- `claimed_frame_info`: a receiver looks at the end its peer routes by. -/
def claimedFrameInfo (endpoint : Endpoint) (frame : Bytes) (direction : Direction)
    (format : FrameFormat) : Option PacketInfo :=
  match frameInfo frame format with
  | .error _ => none
  | .ok info =>
    let (addr, port) :=
      match direction with
      | .source => (info.dst, info.dstPort)
      | .destination => (info.src, info.srcPort)
    if addr = endpoint.ip ∧ port.all (· = endpoint.port) then some info else none

/-! ## 3. When they agree -/

/-- The packet carries, at the routed end, a port that nobody claims on an address with exactly
one claimant. -/
def StrayPort {V : Type} (t : EndpointTable V) (frame : Bytes) (format : FrameFormat)
    (direction : Direction) : Prop :=
  ∃ info ip port, frameInfo frame format = .ok info ∧
    info.routedEnd direction = (ip, some port) ∧ (⟨ip, port⟩ : Endpoint) ∉ t.entries ∧
    t.perIp.lookup ip = some 1

variable {V : Type} {t : EndpointTable V} {frame : Bytes} {format : FrameFormat}
  {direction : Direction}

theorem frameInfo_port {info : PacketInfo} (h : frameInfo frame format = .ok info) :
    info.PortsFit := by
  cases format with
  | ip => exact parse_port h
  | vnet =>
    rw [frameInfo] at h
    split at h
    · cases h
    · exact parse_port h

/-- The receiver's test, in terms of the end the sender routed by. -/
theorem claimedFrameInfo_isSome {info : PacketInfo} (hinfo : frameInfo frame format = .ok info)
    {ip : IpAddr} {port : Option U16} (hend : info.routedEnd direction = (ip, port))
    (e : Endpoint) :
    (claimedFrameInfo e frame direction.peer format).isSome = true ↔
      ip = e.ip ∧ port.all (· = e.port) = true := by
  have hif : ∀ p : Prop, [Decidable p] → ((if p then some info else none).isSome = true ↔ p) := by
    intro p _
    split <;> simp [*]
  cases direction with
  | destination =>
    cases hend
    simp only [claimedFrameInfo, hinfo, Direction.peer]
    exact hif _
  | source =>
    cases hend
    simp only [claimedFrameInfo, hinfo, Direction.peer]
    exact hif _

/-- Where a packet with these fields goes. -/
theorem EndpointTable.endpointFor_cases {info : PacketInfo} (hfit : info.PortsFit) {ip : IpAddr}
    {port : Option U16} (hend : info.routedEnd direction = (ip, port)) :
    (∃ p, port = some p ∧ (⟨ip, p⟩ : Endpoint) ∈ t.entries ∧
        t.endpointFor info direction = some ⟨ip, p⟩) ∨
      (∀ p, port = some p → (⟨ip, p⟩ : Endpoint) ∉ t.entries) ∧
        t.endpointFor info direction = t.soleClaimant ip := by
  cases port with
  | none => exact Or.inr ⟨by rintro p ⟨⟩, by rw [endpointFor, hend]⟩
  | some p =>
    have hproto : info.protocol = tcp ∨ info.protocol = udp := by
      obtain hproto | ⟨hs, hd⟩ := hfit
      · exact hproto
      · cases direction with
        | destination => rw [PacketInfo.routedEnd, hd] at hend; cases hend
        | source => rw [PacketInfo.routedEnd, hs] at hend; cases hend
    rw [endpointFor, hend]
    by_cases hmem : (⟨ip, p⟩ : Endpoint) ∈ t.entries
    · exact Or.inl ⟨p, rfl, hmem, if_pos ⟨hproto, hmem⟩⟩
    · refine Or.inr ⟨?_, if_neg fun h => hmem h.2⟩
      rintro _ ⟨⟩
      exact hmem

/-- An entry found by its address is an entry on it. -/
theorem EndpointTable.find_ip {ip : IpAddr} {e : Endpoint}
    (h : t.entries.keys.find? (·.ip = ip) = some e) : e.ip = ip ∧ e ∈ t.entries :=
  ⟨by simpa using List.find?_some h, AList.mem_keys.mpr (List.mem_of_find?_eq_some h)⟩

/-- The sole claimant of an address does not depend on the order of the entries: every entry on
that address is it. -/
theorem EndpointTable.soleClaimant_unique {ip : IpAddr} {e e' : Endpoint}
    (h : t.soleClaimant ip = some e) (he' : e' ∈ t.entries) (hip' : e'.ip = ip) : e' = e := by
  rw [soleClaimant] at h
  split at h
  case isFalse => cases h
  case isTrue hone =>
    obtain ⟨hip, he⟩ := find_ip h
    have hcount : (t.entries.keys.filter (·.ip = ip)).length = 1 := by
      rw [← List.countP_eq_length_filter]
      have hc := (t.counted ip).1
      rw [hone] at hc
      exact hc.symm
    obtain ⟨x, hx⟩ := List.length_eq_one_iff.mp hcount
    have hmem : ∀ e'' ∈ t.entries, e''.ip = ip → e'' = x := by
      intro e'' h1 h2
      have hf : e'' ∈ t.entries.keys.filter (·.ip = ip) :=
        List.mem_filter.mpr ⟨AList.mem_keys.mp h1, by simpa using h2⟩
      rw [hx] at hf
      exact List.mem_singleton.mp hf
    rw [hmem e' he' hip', hmem e he hip]

/-- **What one side routes to a claim the other side accepts there, unless its port is stray.** -/
theorem routed_accepted_iff (t : EndpointTable V) (frame : Bytes) (format : FrameFormat)
    (direction : Direction) :
    (∀ e, t.route frame format direction = some e →
      (claimedFrameInfo e frame direction.peer format).isSome = true) ↔
      ¬ StrayPort t frame format direction := by
  constructor
  · rintro h ⟨info, ip, port, hinfo, hend, hnone, hone⟩
    -- the single claimant of the address is sent the packet, and its port is another one
    obtain ⟨e, he, hip⟩ := EndpointTable.exists_entry hone
    obtain ⟨e', hfind⟩ : ∃ e', t.entries.keys.find? (·.ip = ip) = some e' := by
      rw [← Option.isSome_iff_exists, List.find?_isSome]
      exact ⟨e, he, by simpa using hip⟩
    obtain ⟨hip', hmem⟩ := EndpointTable.find_ip hfind
    obtain ⟨p, hp, hin, -⟩ | ⟨-, hfor⟩ :=
      EndpointTable.endpointFor_cases (t := t) (frameInfo_port hinfo) hend
    · cases hp
      exact hnone hin
    · have hroute : t.route frame format direction = some e' := by
        simp only [EndpointTable.route, hinfo]
        rw [hfor, EndpointTable.soleClaimant, if_pos hone, hfind]
      obtain ⟨-, hport⟩ := (claimedFrameInfo_isSome hinfo hend e').mp (h e' hroute)
      have hport : port = e'.port := by simpa using hport
      refine hnone ?_
      rw [hport, ← hip']
      exact hmem
  · intro hstray e hroute
    cases hinfo : frameInfo frame format with
    | error err =>
      simp only [EndpointTable.route, hinfo] at hroute
      cases hroute
    | ok info =>
      obtain ⟨ip, port, hend⟩ : ∃ ip port, info.routedEnd direction = (ip, port) := ⟨_, _, rfl⟩
      simp only [EndpointTable.route, hinfo] at hroute
      rw [claimedFrameInfo_isSome hinfo hend e]
      obtain ⟨p, rfl, -, hfor⟩ | ⟨hnone, hfor⟩ :=
        EndpointTable.endpointFor_cases (t := t) (frameInfo_port hinfo) hend
      · cases hfor.symm.trans hroute
        exact ⟨rfl, by simp⟩
      · rw [hfor, EndpointTable.soleClaimant] at hroute
        split at hroute
        case isFalse => cases hroute
        case isTrue hone =>
          obtain ⟨hip, -⟩ := EndpointTable.find_ip hroute
          cases port with
          | none => exact ⟨hip.symm, rfl⟩
          | some p => exact absurd ⟨info, ip, p, hinfo, hend, hnone p rfl, hone⟩ hstray

/-! ## 4. A stray port -/

/-- `10.99.0.1:443`, claimed alone on its address. -/
def webTable : EndpointTable Unit := EndpointTable.new.insert ⟨.v4 0x0a630001, 443⟩ ()

/-- A TCP packet from 10.0.0.2 to 10.99.0.1, port 80. -/
def strayPacket : Bytes :=
  [0x45, 0, 0, 24, 0, 0, 0, 0, 64, 6, 0, 0, 10, 0, 0, 2, 10, 99, 0, 1, 0x9c, 0x40, 0, 80]

/-- **A packet for a port nobody claims is sent to the address's only claimant, which refuses
it.** -/
theorem stray_port_refused :
    webTable.route strayPacket .ip .destination = some ⟨.v4 0x0a630001, 443⟩ ∧
      claimedFrameInfo ⟨.v4 0x0a630001, 443⟩ strayPacket Direction.destination.peer .ip = none := by
  decide +kernel

end Molehill.Transparent
