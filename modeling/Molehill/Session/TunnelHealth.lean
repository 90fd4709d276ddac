/-
# The health reports of the tunnels

The server's end of a tunnel that rides KCP reports what its session emitted and re-sent and what
it was handed (`spawn_tunnel_health_reporter`, `core/server.rs`): one command on the control
session for each change, once a stream has named the tunnel.  The command names the tunnel and the
service of its first stream, carries the counts in 32 bits each, where they saturate, and a
sequence number of 8.  The client looks up the service, its pool and the tunnel in it
(`note_tunnel_report`, `core/client.rs`), and ignores a report that is not newer than the one it
holds (`note_peer_health`, `transport/multiplex.rs`).

For the tunnels whose id fits the wire, a report that is read while the service of the tunnel's
first stream is active, with a pool that holds the tunnel, is applied to that tunnel's counters
unless 127 or more of the tunnel's reports went by since the last one that was; the client holds
what the server's end had counted when it sent the report applied last, up to the 32 bits; and no
report replaces a newer one (`reports_applied`).  Beyond 32 bits the counts are not the server's
(`reports_fall_short`).

The commands are taken as the client reads them, whole and in order: what becomes of one that is cut
is the subject of `Molehill.Session.Commands`.
-/
import Molehill.Lib.SeqSpace
import Molehill.Lib.Table
import Molehill.Lib.Transition
import Molehill.Session.Commands

namespace Molehill.Session.Health

open Lib

/-! ## 1. A report -/

/-- `u32::try_from(n).unwrap_or(u32::MAX)`. -/
def u32OrMax (n : Nat) : U32 := if n < 2 ^ 32 then BitVec.ofNat 32 n else BitVec.allOnes 32

/-- The tunnel's id as its streams' prologues carry it. -/
def wireId (n : Nat) : U32 := u32OrMax n

/-- The command that reports the counts. -/
def healthCmd (id tunnel : U32) (counts : U64 × U64) (handed : U64) (seq : Byte) :
    ControlChannelCmd :=
  .tunnelHealth id tunnel (u32OrMax counts.1.toNat) (u32OrMax counts.2.toNat)
    (u32OrMax handed.toNat) seq

/-- `PeerHealth`: what the client holds of the server's end of a tunnel. -/
structure PeerHealth where
  counters : Option (U64 × U64) := none
  handed : U64 := 0
  seq : Option Byte := none
  deriving DecidableEq

namespace PeerHealth

/-- Whether a report with the sequence number is newer than the one that is held. -/
def newer (h : PeerHealth) (seq : Byte) : Bool :=
  h.seq.all fun last => seq - last ≠ 0 && (seq - last).toNat < 128

/-- `TunnelCounters::note_peer_health`. -/
def notePeerHealth (h : PeerHealth) (counters : U64 × U64) (handed : U64) (seq : Byte) :
    PeerHealth :=
  if h.newer seq then ⟨some counters, handed, some seq⟩ else h

end PeerHealth

/-- A report that was sent, with what the reporter read for it; the tunnel's reports are numbered
from 1 on. -/
structure Sent where
  tunnel : Nat
  number : Nat
  counts : U64 × U64
  handed : U64
  cmd : ControlChannelCmd
  deriving DecidableEq

/-! ## 2. The session -/

/-- The server's end of a tunnel, with its reporter.  `tunnelId` is set once, by the first stream;
`reports` counts what was sent. -/
structure ServerTunnel where
  kcp : Bool
  tunnelId : Option (U32 × U32) := none
  counts : U64 × U64 := (0, 0)
  handed : U64 := 0
  sent : Option (U64 × U64 × U64) := none
  seq : Byte := 0
  reports : Nat := 0
  deriving DecidableEq

/-- `ServiceState`, with the key of the service's pool. -/
inductive ServiceState (K : Type)
  | registering
  | active (poolKey : Option K)
  | rejected
  deriving DecidableEq

/-- A report that the client has read: whether it was routed, and the tunnel whose counters it was
applied to. -/
structure Arrival where
  sent : Sent
  routed : Bool
  applied : Option Nat
  deriving DecidableEq

/-- The report that was applied to the tunnel's counters last; the newest arrival stands first. -/
def lastApplied (arrived : List Arrival) (t : Nat) : Option Sent :=
  (arrived.find? fun a => a.applied = some t).map Arrival.sent

/-- A control session with its tunnels.  `next` is `next_tunnel_id`, which counts for the whole
process; `opened` has the streams of all tunnels, with the services they named. -/
structure State (K : Type) where
  next : Nat
  tunnels : Table Nat ServerTunnel
  opened : List (Nat × U32)
  inFlight : List Sent
  services : Table U32 (ServiceState K)
  pools : Table K (List Nat)
  peer : Nat → PeerHealth
  arrived : List Arrival

inductive Event (K : Type)
  /-- A tunnel is dialed into a pool. -/
  | dial (key : K) (kcp : Bool)
  /-- A tunnel leaves its pool. -/
  | leave (key : K) (n : Nat)
  /-- The server's end of a tunnel is gone, and its reporter with it. -/
  | ended (n : Nat)
  /-- The server reads the prologue of a tunnel's stream, for any service. -/
  | stream (n : Nat) (id : U32)
  /-- The tunnel's session emits, re-sends and is handed as much. -/
  | carry (n : Nat) (out resent handed : U64)
  /-- The reporter looks at the tunnel. -/
  | sample (n : Nat)
  /-- The client reads the next report. -/
  | deliver
  | register (id : U32)
  | activate (id : U32) (poolKey : Option K)
  | reject (id : U32)
  | dropped (id : U32)
  | deregister (id : U32)

namespace State

variable {K : Type}

def new (next : Nat) : State K := ⟨next, ∅, [], [], ∅, ∅, fun _ => {}, []⟩

/-- The service that the tunnel's first stream named. -/
def firstService (s : State K) (n : Nat) : Option U32 :=
  (s.opened.find? fun o => o.1 = n).map Prod.snd

def setTunnel (s : State K) (n : Nat) (tunnel : ServerTunnel) : State K :=
  { s with tunnels := s.tunnels.insert n tunnel }

/-- `route_tunnel_stream`, as far as the tunnel's id goes: it is set once and never overwritten. -/
def routeTunnelStream (s : State K) (n : Nat) (id : U32) (tunnel : ServerTunnel) : State K :=
  { s.setTunnel n { tunnel with tunnelId := tunnel.tunnelId.or (some (id, wireId n)) } with
    opened := s.opened ++ [(n, id)] }

/-- The report that the reporter sends under the tunnel's id. -/
def report (s : State K) (n : Nat) (id wire : U32) (tunnel : ServerTunnel) : State K :=
  { s.setTunnel n { tunnel with
      sent := some (tunnel.counts.1, tunnel.counts.2, tunnel.handed)
      seq := tunnel.seq + 1
      reports := tunnel.reports + 1 } with
    inFlight := s.inFlight ++ [⟨n, tunnel.reports + 1, tunnel.counts, tunnel.handed,
      healthCmd id wire tunnel.counts tunnel.handed (tunnel.seq + 1)⟩] }

/-- One turn of the reporter. -/
def sample (s : State K) (n : Nat) (tunnel : ServerTunnel) : Option (State K) :=
  if !tunnel.kcp then none
  else if tunnel.sent = some (tunnel.counts.1, tunnel.counts.2, tunnel.handed) then some s
  else
    match tunnel.tunnelId with
    -- the counts are taken as sent, though there is no name to send them under
    | none => some (s.setTunnel n { tunnel with
        sent := some (tunnel.counts.1, tunnel.counts.2, tunnel.handed) })
    | some (id, wire) => some (s.report n id wire tunnel)

variable [DecidableEq K] (s : State K)

/-- The tunnels in the pool of a service, if it is active and has one. -/
def reach (id : U32) : List Nat :=
  match s.services.lookup id with
  | some (.active (some key)) => (s.pools.lookup key).getD []
  | _ => []

/-- `note_tunnel_report` and `TunnelPool::note_peer_health`, up to the counters: the tunnel whose
counters are asked. -/
def recipient (id tunnel : U32) : Option Nat := (s.reach id).find? fun n => n = tunnel.toNat

/-- The counters after a command. -/
def noteTunnelReport : ControlChannelCmd → Nat → PeerHealth
  | .tunnelHealth id tunnel out resent handed seq =>
    match s.recipient id tunnel with
    | some n => Function.update s.peer n ((s.peer n).notePeerHealth
        (out.setWidth 64, resent.setWidth 64) (handed.setWidth 64) seq)
    | none => s.peer
  | _ => s.peer

/-- The tunnel whose counters take a command over. -/
def takes : ControlChannelCmd → Option Nat
  | .tunnelHealth id tunnel _ _ _ seq => (s.recipient id tunnel).filter fun n =>
      (s.peer n).newer seq
  | _ => none

/-- Whether the service that the tunnel's first stream named is active, with a pool that holds the
tunnel. -/
def routed (n : Nat) : Bool := (s.firstService n).any fun id => n ∈ s.reach id

/-- The client reads a report. -/
def deliver (r : Sent) (rest : List Sent) : State K :=
  { s with
    inFlight := rest
    peer := s.noteTunnelReport r.cmd
    arrived := ⟨r, s.routed r.tunnel, s.takes r.cmd⟩ :: s.arrived }

/-- `service_pool`: the session's pool under the key, a new one if there is none. -/
def servicePool (key : Option K) : Table K (List Nat) :=
  match key with
  | some key => if (s.pools.lookup key).isSome then s.pools else s.pools.insert key []
  | none => s.pools

/-- A service that the client has changes its state. -/
def setService (id : U32) (f : ServiceState K → ServiceState K) : State K :=
  match s.services.lookup id with
  | some state => { s with services := s.services.insert id (f state) }
  | none => s

def step : Event K → Option (State K)
  | .dial key kcp => (s.pools.lookup key).map fun held => { s with
      next := s.next + 1
      tunnels := s.tunnels.insert s.next { kcp := kcp }
      pools := s.pools.insert key (held ++ [s.next]) }
  | .leave key n => (s.pools.lookup key).map fun held => { s with
      pools := s.pools.insert key (held.erase n) }
  | .ended n => some { s with tunnels := s.tunnels.erase n }
  | .stream n id => (s.tunnels.lookup n).map (s.routeTunnelStream n id)
  | .carry n out resent handed => (s.tunnels.lookup n).map fun tunnel => s.setTunnel n { tunnel with
      counts := (tunnel.counts.1 + out, tunnel.counts.2 + resent)
      handed := tunnel.handed + handed }
  | .sample n => (s.tunnels.lookup n).bind (s.sample n)
  | .deliver =>
    match s.inFlight with
    | r :: rest => some (s.deliver r rest)
    | [] => none
  | .register id => some { s with services := s.services.insert id .registering }
  | .activate id poolKey => (s.services.lookup id).map fun _ => { s with
      services := s.services.insert id (.active poolKey)
      pools := s.servicePool poolKey }
  | .reject id => some (s.setService id fun _ => .rejected)
  | .dropped id => some (s.setService id fun state =>
      if state = .rejected then .rejected else .registering)
  | .deregister id => some { s with services := s.services.erase id }

end State

/-- The runs of a session. -/
def tunnelReports (K : Type) [DecidableEq K] : Lts (State K) (Event K) where
  init s := ∃ next, s = .new next
  step s e s' := s.step e = some s'

/-! ## 3. What is promised -/

/-- A count as a report brings it to the client. -/
def saturated (n : U64) : U64 := BitVec.ofNat 64 (min n.toNat (2 ^ 32 - 1))

/-- What the client holds once a report is applied. -/
def Sent.health (r : Sent) : PeerHealth where
  counters := some (saturated r.counts.1, saturated r.counts.2)
  handed := saturated r.handed
  seq := some (BitVec.ofNat 8 r.number)

/-- A report's arrival is right for the tunnel. -/
structure Arrival.Right (t : Nat) (before : List Arrival) (a : Arrival) : Prop where
  /-- The tunnel's report is applied to the tunnel's counters. -/
  applied : a.sent.tunnel = t → a.routed = true →
    (∀ r, lastApplied before t = some r → a.sent.number < r.number + 128) → a.applied = some t
  /-- Only the tunnel's own reports are, and never over a newer one. -/
  newer : a.applied = some t → a.sent.tunnel = t ∧
    ∀ r, lastApplied before t = some r → r.number < a.sent.number

/-- **What is promised** of a tunnel's reports. -/
structure Reported {K : Type} (s : State K) (t : Nat) : Prop where
  right : ∀ before a after, s.arrived = after ++ a :: before → a.Right t before
  held : s.peer t = ((lastApplied s.arrived t).map Sent.health).getD {}

/-! ## 4. One report -/

theorem toNat_u32OrMax (n : Nat) : (u32OrMax n).toNat = min n (2 ^ 32 - 1) := by
  unfold u32OrMax
  split
  case isTrue h =>
    rw [BitVec.toNat_ofNat, Nat.mod_eq_of_lt h]
    omega
  case isFalse h =>
    rw [BitVec.toNat_allOnes]
    omega

/-- Below the ids that saturate, the wire tells the tunnels apart. -/
theorem toNat_wireId_eq_iff {n t : Nat} (ht : t < 2 ^ 32 - 1) :
    (wireId n).toNat = t ↔ n = t := by
  rw [wireId, toNat_u32OrMax]
  omega

theorem setWidth_u32OrMax (n : U64) : (u32OrMax n.toNat).setWidth 64 = saturated n := by
  apply BitVec.eq_of_toNat_eq
  rw [saturated, BitVec.toNat_setWidth, BitVec.toNat_ofNat, toNat_u32OrMax]

/-- A report is newer than one that is fewer than 128 before it. -/
theorem newer_of_near {h : PeerHealth} {last number : Nat}
    (hseq : h.seq = some (BitVec.ofNat 8 last)) (hlt : last < number)
    (hnear : number < last + 128) : h.newer (BitVec.ofNat 8 number) = true := by
  have hsub : (BitVec.ofNat 8 number - BitVec.ofNat 8 last).toNat = number - last := by
    have hadd : last + (number - last) = number := by omega
    rw [← hadd, toNat_sub_ofNat (by omega)]
    omega
  have hne : BitVec.ofNat 8 number - BitVec.ofNat 8 last ≠ 0 := by
    intro hzero
    rw [hzero] at hsub
    change 0 = number - last at hsub
    omega
  rw [PeerHealth.newer, hseq, Option.all_some, Bool.and_eq_true, decide_eq_true_eq,
    decide_eq_true_eq, hsub]
  exact ⟨hne, by omega⟩

theorem lastApplied_cons (a : Arrival) (arrived : List Arrival) (t : Nat) :
    lastApplied (a :: arrived) t =
      if a.applied = some t then some a.sent else lastApplied arrived t := by
  rw [lastApplied, List.find?_cons]
  split
  case h_1 h =>
    rw [if_pos (of_decide_eq_true h)]
    rfl
  case h_2 h =>
    rw [if_neg (of_decide_eq_false h)]
    rfl

theorem mem_of_lastApplied {arrived : List Arrival} {t : Nat} {r : Sent}
    (h : lastApplied arrived t = some r) : ∃ a ∈ arrived, a.applied = some t ∧ a.sent = r := by
  obtain ⟨a, ha, rfl⟩ := Option.map_eq_some_iff.mp h
  have happlied := List.find?_some ha
  exact ⟨a, List.mem_of_find?_eq_some ha, of_decide_eq_true happlied, rfl⟩

/-- The report that was applied last is the tunnel's own. -/
theorem Reported.tunnel_lastApplied {K : Type} {s : State K} {t : Nat} (h : Reported s t) {r : Sent}
    (hr : lastApplied s.arrived t = some r) : r.tunnel = t := by
  obtain ⟨a, ha, happlied, rfl⟩ := mem_of_lastApplied hr
  obtain ⟨after, before, hsplit⟩ := List.append_of_mem ha
  exact ((h.right before a after hsplit).newer happlied).1

/-- The command is the one that the tunnel's reporter writes. -/
def Sent.Written {K : Type} (s : State K) (r : Sent) : Prop :=
  ∃ id, s.firstService r.tunnel = some id ∧
    r.cmd = healthCmd id (wireId r.tunnel) r.counts r.handed (BitVec.ofNat 8 r.number)

namespace State

variable {K : Type} [DecidableEq K] {s : State K} {r : Sent} {n : Nat}

/-- A report finds the tunnel of the service's pool that has the id. -/
theorem recipient_eq_some {id tunnel : U32} :
    s.recipient id tunnel = some n ↔ n ∈ s.reach id ∧ tunnel.toNat = n := by
  have hid : ∀ m, s.recipient id tunnel = some m → m = tunnel.toNat := by
    intro m hm
    have hfound := List.find?_some hm
    exact of_decide_eq_true hfound
  constructor
  · intro h
    exact ⟨List.mem_of_find?_eq_some h, (hid n h).symm⟩
  · rintro ⟨hmem, rfl⟩
    have hsome : (s.recipient id tunnel).isSome = true :=
      List.find?_isSome.mpr ⟨_, hmem, decide_eq_true rfl⟩
    obtain ⟨m, hm⟩ := Option.isSome_iff_exists.mp hsome
    rw [hm, hid m hm]

/-- A report is taken by the counters that are asked, if it is newer. -/
theorem takes_healthCmd {id tunnel : U32} {counts : U64 × U64} {handed : U64} {seq : Byte} :
    s.takes (healthCmd id tunnel counts handed seq) = some n ↔
      (n ∈ s.reach id ∧ tunnel.toNat = n) ∧ (s.peer n).newer seq = true := by
  rw [← recipient_eq_some]
  exact Option.filter_eq_some_iff

/-- **One report**: what it says replaces what the counters held that take it, and nothing else
changes. -/
theorem noteTunnelReport_apply (hr : r.Written s) (t : Nat) :
    s.noteTunnelReport r.cmd t = if s.takes r.cmd = some t then r.health else s.peer t := by
  obtain ⟨id, -, hcmd⟩ := hr
  simp only [hcmd, healthCmd, noteTunnelReport, takes]
  cases s.recipient id (wireId r.tunnel) with
  | none => rfl
  | some n =>
    simp only [Option.filter_some, PeerHealth.notePeerHealth, Function.update_apply,
      setWidth_u32OrMax]
    by_cases hnewer : (s.peer n).newer (BitVec.ofNat 8 r.number) = true
    · simp only [if_pos hnewer, Option.some.injEq, eq_comm (a := n)]
      rfl
    · simp only [if_neg hnewer, reduceCtorEq, if_false]
      split
      case isTrue h => rw [h]
      case isFalse => rfl

end State

/-! ## 5. Every run -/

namespace State

/-- The reports that were sent, in order. -/
def reports {K : Type} (s : State K) : List Sent :=
  (s.arrived.map Arrival.sent).reverse ++ s.inFlight

end State

/-- **What holds of a tunnel's end on the server.** -/
structure ServerTunnel.Right {K : Type} (s : State K) (n : Nat) (tunnel : ServerTunnel) : Prop where
  dialed : n < s.next
  named : tunnel.tunnelId = (s.firstService n).map fun id => (id, wireId n)
  counted : tunnel.seq = BitVec.ofNat 8 tunnel.reports
  numbered : ∀ r ∈ s.reports, r.tunnel = n → r.number ≤ tunnel.reports

/-- **What holds between the steps.** -/
structure Inv {K : Type} (s : State K) : Prop where
  tunnels : ∀ n tunnel, s.tunnels.lookup n = some tunnel → tunnel.Right s n
  opened : ∀ o ∈ s.opened, o.1 < s.next
  dialed : ∀ r ∈ s.reports, r.tunnel < s.next
  written : ∀ r ∈ s.reports, r.Written s
  ordered : s.reports.Pairwise fun r r' => r.tunnel = r'.tunnel → r.number < r'.number
  reported : ∀ t < 2 ^ 32 - 1, Reported s t

namespace Inv

variable {K : Type} {s s' : State K} {n : Nat} {tunnel tunnel' : ServerTunnel}

/-- **The frame**: what the streams named, what was sent and what the client holds stays, and so
does every tunnel that is not right on its own account. -/
theorem frame (h : Inv s) (hnext : s.next ≤ s'.next) (hopened : s'.opened = s.opened)
    (hflight : s'.inFlight = s.inFlight) (harrived : s'.arrived = s.arrived)
    (hpeer : s'.peer = s.peer)
    (htunnels : ∀ m x, s'.tunnels.lookup m = some x →
      s.tunnels.lookup m = some x ∨ x.Right s' m) : Inv s' := by
  have hreports : s'.reports = s.reports := by
    rw [State.reports, State.reports, hflight, harrived]
  have hfirst : ∀ m, s'.firstService m = s.firstService m := fun m => by
    rw [State.firstService, State.firstService, hopened]
  refine ⟨fun m x hx => ?_, ?_, ?_, ?_, ?_, fun t ht => ?_⟩
  · rcases htunnels m x hx with hx | hright
    · have hright := h.tunnels m x hx
      refine ⟨Nat.lt_of_lt_of_le hright.dialed hnext, ?_, hright.counted, ?_⟩
      · rw [hfirst]
        exact hright.named
      · rw [hreports]
        exact hright.numbered
    · exact hright
  · rw [hopened]
    exact fun o ho => Nat.lt_of_lt_of_le (h.opened o ho) hnext
  · rw [hreports]
    exact fun r hr => Nat.lt_of_lt_of_le (h.dialed r hr) hnext
  · rw [hreports]
    intro r hr
    obtain ⟨id, hid, hcmd⟩ := h.written r hr
    exact ⟨id, (hfirst r.tunnel).trans hid, hcmd⟩
  · rw [hreports]
    exact h.ordered
  · have hold := h.reported t ht
    constructor
    · rw [harrived]
      exact hold.right
    · rw [harrived, hpeer]
      exact hold.held

/-- The client's services and pools are no part of it. -/
theorem same (h : Inv s) (services : Table U32 (ServiceState K)) (pools : Table K (List Nat)) :
    Inv { s with services := services, pools := pools } :=
  h.frame (Nat.le_refl _) rfl rfl rfl rfl fun _ _ hx => .inl hx

/-- A tunnel is dialed: no stream and no report is its own yet. -/
theorem dial (h : Inv s) (kcp : Bool) :
    Inv { s with next := s.next + 1, tunnels := s.tunnels.insert s.next { kcp := kcp } } := by
  refine h.frame (Nat.le_succ _) rfl rfl rfl rfl fun m x hx => ?_
  rw [Table.lookup_insert_eq] at hx
  split at hx
  case isTrue heq =>
    cases hx
    subst heq
    have hnone : s.firstService s.next = none := by
      rw [State.firstService, Option.map_eq_none_iff, List.find?_eq_none]
      intro o ho heq
      exact absurd (h.opened o ho) (by rw [of_decide_eq_true heq]; exact Nat.lt_irrefl _)
    refine .inr ⟨Nat.lt_succ_self _, ?_, rfl, fun r hr heq => ?_⟩
    · change none = (s.firstService s.next).map _
      rw [hnone]
      rfl
    · exact absurd (h.dialed r hr) (by rw [heq]; exact Nat.lt_irrefl _)
  case isFalse => exact .inl hx

theorem ended (h : Inv s) (n : Nat) : Inv { s with tunnels := s.tunnels.erase n } :=
  h.frame (Nat.le_refl _) rfl rfl rfl rfl fun _ _ hx => .inl (Table.lookup_of_erase hx).2

/-- A tunnel's counts change, or what its reporter keeps of them. -/
theorem setTunnel (h : Inv s) (hn : s.tunnels.lookup n = some tunnel)
    (hid : tunnel'.tunnelId = tunnel.tunnelId) (hseq : tunnel'.seq = tunnel.seq)
    (hreports : tunnel'.reports = tunnel.reports) : Inv (s.setTunnel n tunnel') := by
  refine h.frame (Nat.le_refl _) rfl rfl rfl rfl fun m x hx => ?_
  rw [State.setTunnel, Table.lookup_insert_eq] at hx
  split at hx
  case isTrue heq =>
    cases hx
    subst heq
    have hright := h.tunnels m tunnel hn
    refine .inr ⟨hright.dialed, hid.trans hright.named, ?_, fun r hr heq => ?_⟩
    · rw [hseq, hreports]
      exact hright.counted
    · rw [hreports]
      exact hright.numbered r hr heq
  case isFalse => exact .inl hx

/-- A stream names a service: the tunnel's first service is this one if there was none. -/
theorem firstService_routeTunnelStream (s : State K) (n m : Nat) (id : U32)
    (tunnel : ServerTunnel) : (s.routeTunnelStream n id tunnel).firstService m =
      (s.firstService m).or (if n = m then some id else none) := by
  unfold State.firstService
  change Option.map Prod.snd ((s.opened ++ [(n, id)]).find? _) = _
  rw [List.find?_append, Option.map_or, List.find?_singleton]
  by_cases heq : n = m
  · simp only [heq, decide_true, if_true, Option.map_some]
  · simp only [heq, decide_false, Bool.false_eq_true, if_false, Option.map_none]

theorem routeTunnelStream (h : Inv s) (hn : s.tunnels.lookup n = some tunnel) (id : U32) :
    Inv (s.routeTunnelStream n id tunnel) where
  tunnels m x hx := by
    change (s.tunnels.insert n _).lookup m = some x at hx
    rw [Table.lookup_insert_eq] at hx
    split at hx
    case isTrue heq =>
      cases hx
      subst heq
      have hright := h.tunnels m tunnel hn
      refine ⟨hright.dialed, ?_, hright.counted, hright.numbered⟩
      rw [firstService_routeTunnelStream, if_pos rfl, Option.map_or, ← hright.named]
      rfl
    case isFalse hne =>
      have hright := h.tunnels m x hx
      refine ⟨hright.dialed, ?_, hright.counted, hright.numbered⟩
      rw [firstService_routeTunnelStream, if_neg (fun heq => hne heq.symm), Option.or_none]
      exact hright.named
  opened o ho := by
    rcases List.mem_append.mp ho with ho | ho
    · exact h.opened o ho
    · rw [List.mem_singleton.mp ho]
      exact (h.tunnels n tunnel hn).dialed
  dialed := h.dialed
  written r hr := by
    obtain ⟨id', hid', hcmd⟩ := h.written r hr
    refine ⟨id', ?_, hcmd⟩
    rw [firstService_routeTunnelStream, hid']
    rfl
  ordered := h.ordered
  reported t ht := ⟨(h.reported t ht).right, (h.reported t ht).held⟩

/-- The reporter sends a report: it is the tunnel's next one. -/
theorem report (h : Inv s) (hn : s.tunnels.lookup n = some tunnel) {id wire : U32}
    (hid : tunnel.tunnelId = some (id, wire)) : Inv (s.report n id wire tunnel) := by
  have hright := h.tunnels n tunnel hn
  have hfirst : s.firstService n = some id ∧ wireId n = wire := by
    have hnamed := hid.symm.trans hright.named
    obtain ⟨id', hid', heq⟩ := Option.map_eq_some_iff.mp hnamed.symm
    cases heq
    exact ⟨hid', rfl⟩
  have hseq : tunnel.seq + 1 = BitVec.ofNat 8 (tunnel.reports + 1) := by
    rw [hright.counted, BitVec.ofNat_add]
    rfl
  let r : Sent := ⟨n, tunnel.reports + 1, tunnel.counts, tunnel.handed,
    healthCmd id wire tunnel.counts tunnel.handed (tunnel.seq + 1)⟩
  have hreports : (s.report n id wire tunnel).reports = s.reports ++ [r] :=
    (List.append_assoc _ _ _).symm
  constructor
  case tunnels =>
    intro m x hx
    change (s.tunnels.insert n _).lookup m = some x at hx
    rw [Table.lookup_insert_eq] at hx
    split at hx
    case isTrue heq =>
      cases hx
      subst heq
      refine ⟨hright.dialed, hright.named, hseq, fun r' hr' heq => ?_⟩
      rw [hreports] at hr'
      rcases List.mem_append.mp hr' with hr' | hr'
      · exact Nat.le_succ_of_le (hright.numbered r' hr' heq)
      · rw [List.mem_singleton.mp hr']
    case isFalse hne =>
      have hother := h.tunnels m x hx
      refine ⟨hother.dialed, hother.named, hother.counted, fun r' hr' heq => ?_⟩
      rw [hreports] at hr'
      rcases List.mem_append.mp hr' with hr' | hr'
      · exact hother.numbered r' hr' heq
      · rw [List.mem_singleton.mp hr'] at heq
        exact absurd heq.symm hne
  case opened => exact h.opened
  case dialed =>
    intro r' hr'
    rw [hreports] at hr'
    rcases List.mem_append.mp hr' with hr' | hr'
    · exact h.dialed r' hr'
    · rw [List.mem_singleton.mp hr']
      exact hright.dialed
  case written =>
    intro r' hr'
    rw [hreports] at hr'
    rcases List.mem_append.mp hr' with hr' | hr'
    · exact h.written r' hr'
    · rw [List.mem_singleton.mp hr']
      refine ⟨id, hfirst.1, ?_⟩
      rw [← hseq, hfirst.2]
  case ordered =>
    rw [hreports, List.pairwise_append]
    refine ⟨h.ordered, List.pairwise_singleton _ _, fun r' hr' x hx heq => ?_⟩
    rw [List.mem_singleton.mp hx] at heq ⊢
    exact Nat.lt_succ_of_le (hright.numbered r' hr' heq)
  case reported => exact fun t ht => ⟨(h.reported t ht).right, (h.reported t ht).held⟩

end Inv

namespace Inv

variable {K : Type} [DecidableEq K] {s s' : State K} {r : Sent} {rest : List Sent} {t : Nat}

/-- The reports are sent already when the client reads them. -/
theorem reports_deliver (hfly : s.inFlight = r :: rest) :
    (s.deliver r rest).reports = s.reports := by
  rw [State.reports, State.reports, hfly]
  simp only [State.deliver, List.map_cons, List.reverse_cons, List.append_assoc,
    List.singleton_append]

omit [DecidableEq K] in
theorem mem_reports (hfly : s.inFlight = r :: rest) : r ∈ s.reports := by
  rw [State.reports, hfly]
  exact List.mem_append_right _ List.mem_cons_self

omit [DecidableEq K] in
/-- The report that was applied last stands before the ones that are under way. -/
theorem number_lt (h : Inv s) (ht : t < 2 ^ 32 - 1) (hfly : s.inFlight = r :: rest)
    (hr : r.tunnel = t) {last : Sent} (hlast : lastApplied s.arrived t = some last) :
    last.number < r.number := by
  have htunnel := (h.reported t ht).tunnel_lastApplied hlast
  obtain ⟨a, ha, -, rfl⟩ := mem_of_lastApplied hlast
  have hordered := h.ordered
  rw [State.reports, List.pairwise_append] at hordered
  refine hordered.2.2 a.sent ?_ r ?_ (htunnel.trans hr.symm)
  · exact List.mem_reverse.mpr (List.mem_map_of_mem ha)
  · rw [hfly]
    exact List.mem_cons_self

/-- A routed report that is near enough to the last one is applied. -/
theorem takes_of_routed (h : Inv s) (ht : t < 2 ^ 32 - 1) (hfly : s.inFlight = r :: rest)
    (hr : r.tunnel = t) (hrouted : s.routed t = true)
    (hnear : ∀ last, lastApplied s.arrived t = some last → r.number < last.number + 128) :
    s.takes r.cmd = some t := by
  obtain ⟨id, hid, hcmd⟩ := h.written r (mem_reports hfly)
  rw [hr] at hid hcmd
  rw [State.routed, hid, Option.any_some, decide_eq_true_eq] at hrouted
  rw [hcmd, State.takes_healthCmd]
  refine ⟨⟨hrouted, (toNat_wireId_eq_iff ht).mpr rfl⟩, ?_⟩
  have hheld := (h.reported t ht).held
  cases hlast : lastApplied s.arrived t with
  | none =>
    rw [hheld, hlast]
    rfl
  | some last =>
    rw [hlast] at hheld
    have hseq : (s.peer t).seq = some (BitVec.ofNat 8 last.number) := by
      rw [hheld]
      rfl
    exact newer_of_near hseq (h.number_lt ht hfly hr hlast) (hnear last hlast)

/-- A tunnel's counters take the tunnel's own reports only. -/
theorem tunnel_of_takes (h : Inv s) (ht : t < 2 ^ 32 - 1) (hfly : s.inFlight = r :: rest)
    (htakes : s.takes r.cmd = some t) : r.tunnel = t := by
  obtain ⟨id, -, hcmd⟩ := h.written r (mem_reports hfly)
  rw [hcmd, State.takes_healthCmd] at htakes
  exact (toNat_wireId_eq_iff ht).mp htakes.1.2

/-- **One report is read.** -/
theorem reported_deliver (h : Inv s) (ht : t < 2 ^ 32 - 1) (hfly : s.inFlight = r :: rest) :
    Reported (s.deliver r rest) t := by
  have hold := h.reported t ht
  constructor
  case right =>
    intro before a after hsplit
    cases after with
    | nil =>
      obtain ⟨rfl, rfl⟩ := List.cons.inj hsplit
      constructor
      · intro hr hrouted hnear
        dsimp only at hr hrouted
        rw [hr] at hrouted
        exact h.takes_of_routed ht hfly hr hrouted hnear
      · intro htakes
        have hr := h.tunnel_of_takes ht hfly htakes
        exact ⟨hr, fun last hlast => h.number_lt ht hfly hr hlast⟩
    | cons x after =>
      obtain ⟨-, hsplit⟩ := List.cons.inj hsplit
      exact hold.right before a after hsplit
  case held =>
    change s.noteTunnelReport r.cmd t =
      ((lastApplied (⟨r, s.routed r.tunnel, s.takes r.cmd⟩ :: s.arrived) t).map _).getD {}
    rw [State.noteTunnelReport_apply (h.written r (mem_reports hfly)), lastApplied_cons]
    split
    case isTrue => rfl
    case isFalse => exact hold.held

theorem deliver (h : Inv s) (hfly : s.inFlight = r :: rest) : Inv (s.deliver r rest) := by
  have hreports := reports_deliver hfly
  refine ⟨fun m x hx => ?_, h.opened, ?_, ?_, ?_, fun t ht => h.reported_deliver ht hfly⟩
  · have hright := h.tunnels m x hx
    refine ⟨hright.dialed, hright.named, hright.counted, ?_⟩
    rw [hreports]
    exact hright.numbered
  · rw [hreports]
    exact h.dialed
  · rw [hreports]
    exact h.written
  · rw [hreports]
    exact h.ordered

omit [DecidableEq K] in
theorem sample {n : Nat} {tunnel : ServerTunnel} (h : Inv s)
    (hn : s.tunnels.lookup n = some tunnel) (hs : s.sample n tunnel = some s') : Inv s' := by
  unfold State.sample at hs
  split at hs
  case isTrue => cases hs
  case isFalse =>
    split at hs
    case isTrue =>
      cases hs
      exact h
    case isFalse =>
      split at hs
      case h_1 =>
        cases hs
        exact h.setTunnel hn rfl rfl rfl
      case h_2 id wire hid =>
        cases hs
        exact h.report hn hid

omit [DecidableEq K] in
theorem setService (h : Inv s) (id : U32) (f : ServiceState K → ServiceState K) :
    Inv (s.setService id f) := by
  unfold State.setService
  split
  case h_1 => exact h.same _ s.pools
  case h_2 => exact h

/-- **One step.** -/
theorem step {e : Event K} (h : Inv s) (hs : s.step e = some s') : Inv s' := by
  cases e with
  | dial key kcp =>
    obtain ⟨held, -, rfl⟩ := Option.map_eq_some_iff.mp hs
    exact (h.dial kcp).same s.services _
  | leave key n =>
    obtain ⟨held, -, rfl⟩ := Option.map_eq_some_iff.mp hs
    exact h.same s.services _
  | ended n =>
    cases hs
    exact h.ended n
  | stream n id =>
    obtain ⟨tunnel, hn, rfl⟩ := Option.map_eq_some_iff.mp hs
    exact h.routeTunnelStream hn id
  | carry n out resent handed =>
    obtain ⟨tunnel, hn, rfl⟩ := Option.map_eq_some_iff.mp hs
    exact h.setTunnel hn rfl rfl rfl
  | sample n =>
    obtain ⟨tunnel, hn, hs⟩ := Option.bind_eq_some_iff.mp hs
    exact h.sample hn hs
  | deliver =>
    simp only [State.step] at hs
    split at hs
    case h_1 r rest hfly =>
      cases hs
      exact h.deliver hfly
    case h_2 => cases hs
  | register id =>
    cases hs
    exact h.same _ s.pools
  | activate id poolKey =>
    obtain ⟨state, -, rfl⟩ := Option.map_eq_some_iff.mp hs
    exact h.same _ _
  | reject id =>
    cases hs
    exact h.setService id _
  | dropped id =>
    cases hs
    exact h.setService id _
  | deregister id =>
    cases hs
    exact h.same _ s.pools

end Inv

/-- **The reports are applied**, in every run and for every tunnel whose id does not saturate on the
wire. -/
theorem reports_applied {K : Type} [DecidableEq K] {s : State K} (h : (tunnelReports K).Reach s)
    {t : Nat} (ht : t < 2 ^ 32 - 1) : Reported s t := by
  refine (h.invariant (P := Inv) ?_ ?_).reported t ht
  · rintro s ⟨next, rfl⟩
    refine ⟨nofun, nofun, nofun, nofun, List.Pairwise.nil, fun t _ => ⟨?_, rfl⟩⟩
    intro before a after hsplit
    cases after with
    | nil => cases hsplit
    | cons x after => cases hsplit
  · intro s e s' hinv hs
    exact hinv.step hs

/-- A service with a pool, and a tunnel in it whose first stream is the service's. -/
def opening (n : Nat) : List (Event Nat) :=
  [.register 7, .activate 7 (some 1), .dial 1 true, .stream n 7]

/-- One more report of the tunnel. -/
def reporting (n : Nat) (handed : U64) : List (Event Nat) :=
  [.carry n 1 0 handed, .sample n, .deliver]

/-- A run that computes. -/
theorem exists_reach {n : Nat} {l : List (Event Nat)} {P : State Nat → Bool}
    (h : (Lts.runWith State.step (fun _ _ => true) (.new n) l).any P = true) :
    ∃ s, (tunnelReports Nat).Reach s ∧ P s = true :=
  Lts.Reach.exists_run (T := tunnelReports Nat) (fun _ _ _ h => h) ⟨n, rfl⟩ h

theorem reports_applied_reporting :
    ∃ s, (tunnelReports Nat).Reach s ∧
      s.arrived.map (fun a => (a.sent.tunnel, a.sent.number, a.routed, a.applied)) =
        [(0, 2, true, some 0), (0, 1, true, some 0)] ∧
      (s.peer 0).handed = 1500 ∧ Reported s 0 := by
  obtain ⟨s, hreach, hs⟩ := exists_reach (n := 0)
    (l := opening 0 ++ reporting 0 1000 ++ reporting 0 500)
    (P := fun s => s.arrived.map (fun a => (a.sent.tunnel, a.sent.number, a.routed, a.applied)) =
      [(0, 2, true, some 0), (0, 1, true, some 0)] ∧ (s.peer 0).handed = 1500)
    (by decide +kernel)
  obtain ⟨harrived, hhanded⟩ := of_decide_eq_true hs
  exact ⟨s, hreach, harrived, hhanded, reports_applied hreach (by decide)⟩

/-- **The reports fall short** of the server's counts, while a service of the session is active: the
client does not hold what the server's end was handed from 4 GiB on; the report of a tunnel whose id
does not fit the wire is dropped; another service of the pool does not bring in the reports of a
tunnel that it was not the first on; and a report is not applied after 127 that went by. -/
theorem reports_fall_short :
    (∃ s, (tunnelReports Nat).Reach s ∧ s.services.lookup 7 = some (.active (some 1)) ∧
      (lastApplied s.arrived 0).map Sent.handed = some 4294967296 ∧
      (s.peer 0).handed = 4294967295) ∧
    (∃ s, (tunnelReports Nat).Reach s ∧
      s.arrived.map (fun a => (a.sent.tunnel, a.routed, a.applied)) =
        [(4294967296, true, none)]) ∧
    (∃ s, (tunnelReports Nat).Reach s ∧ s.services.lookup 8 = some (.active (some 1)) ∧
      s.pools.lookup 1 = some [0] ∧
      s.arrived.map (fun a => (a.sent.tunnel, a.applied)) = [(0, none)]) ∧
    (∃ s, (tunnelReports Nat).Reach s ∧
      s.arrived.head?.map (fun a => (a.sent.tunnel, a.sent.number, a.routed, a.applied)) =
        some (0, 129, true, none)) := by
  refine ⟨?_, ?_, ?_, ?_⟩
  · obtain ⟨s, hreach, hs⟩ := exists_reach (n := 0)
      (l := opening 0 ++ reporting 0 4294967296)
      (P := fun s => s.services.lookup 7 = some (.active (some 1)) ∧
        (lastApplied s.arrived 0).map Sent.handed = some 4294967296 ∧
        (s.peer 0).handed = 4294967295) (by decide +kernel)
    exact ⟨s, hreach, of_decide_eq_true hs⟩
  · obtain ⟨s, hreach, hs⟩ := exists_reach (n := 4294967296)
      (l := opening 4294967296 ++ reporting 4294967296 1000)
      (P := fun s => s.arrived.map (fun a => (a.sent.tunnel, a.routed, a.applied)) =
        [(4294967296, true, none)]) (by decide +kernel)
    exact ⟨s, hreach, of_decide_eq_true hs⟩
  · obtain ⟨s, hreach, hs⟩ := exists_reach (n := 0)
      (l := opening 0 ++ [.register 8, .activate 8 (some 1), .stream 0 8, .deregister 7] ++
        reporting 0 1000)
      (P := fun s => s.services.lookup 8 = some (.active (some 1)) ∧
        s.pools.lookup 1 = some [0] ∧
        s.arrived.map (fun a => (a.sent.tunnel, a.applied)) = [(0, none)]) (by decide +kernel)
    exact ⟨s, hreach, of_decide_eq_true hs⟩
  · obtain ⟨s, hreach, hs⟩ := exists_reach (n := 0)
      (l := opening 0 ++ reporting 0 1000 ++ [.dropped 7] ++
        (List.replicate 127 (reporting 0 1000)).flatten ++ [.activate 7 (some 1)] ++
        reporting 0 1000)
      (P := fun s => s.arrived.head?.map (fun a =>
        (a.sent.tunnel, a.sent.number, a.routed, a.applied)) = some (0, 129, true, none))
      (by decide +kernel)
    exact ⟨s, hreach, of_decide_eq_true hs⟩

end Molehill.Session.Health
