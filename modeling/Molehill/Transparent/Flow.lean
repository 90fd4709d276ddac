/-
# The identity of a flow

`flow::key` names a packet's flow: a hash of the protocol and of the two endpoints, sorted, so that
both directions of a flow, and both ends of a claim, have the same name.  `flow::slot` reduces it to
the width of a member set.

The hash is FNV-1a and an avalanche behind it.  The avalanche loses nothing (`avalanche_inj`), and
what FNV-1a mixes last it keeps apart (`mix_port_inj`): flows that differ in the port of their
second endpoint have different names.
-/
import Molehill.Transparent.Packet

namespace Molehill.Transparent.Flow

open Lib

/-! ## 1. The hash -/

/-- `OFFSET_BASIS`. -/
def offsetBasis : U64 := 0xcbf29ce484222325

/-- `PRIME`. -/
def prime : U64 := 0x00000100000001b3

def mix (hash : U64) (bytes : Bytes) : U64 :=
  bytes.foldl (fun hash byte => (hash ^^^ byte.setWidth 64) * prime) hash

/-- The octets of an address. -/
def octets : IpAddr → Bytes
  | .v4 addr => beBytes 4 addr.toNat
  | .v6 addr => beBytes 16 addr.toNat

/-- The bytes of a port. -/
def portBytes (port : U16) : Bytes := beBytes 2 port.toNat

/-- `endpoint`: the address, and then the port if the packet has one. -/
def endpoint (hash : U64) (addr : IpAddr) (port : Option U16) : U64 :=
  match port with
  | some port => mix (mix hash (octets addr)) (portBytes port)
  | none => mix hash (octets addr)

/-- The order of endpoints: `V4` before `V6`, then the address, then the port, none first. -/
def endpointLe (a : IpAddr) (p : Option U16) (b : IpAddr) (q : Option U16) : Bool :=
  let family : IpAddr → Nat := fun | .v4 _ => 0 | .v6 _ => 1
  let value : IpAddr → Nat := fun | .v4 addr => addr.toNat | .v6 addr => addr.toNat
  let rank : Option U16 → Nat := fun | none => 0 | some port => port.toNat + 1
  if family a ≠ family b then family a < family b
  else if value a ≠ value b then value a < value b
  else rank p ≤ rank q

/-- `hash`. -/
def hash (info : PacketInfo) : U64 :=
  let start := mix offsetBasis [BitVec.ofNat 8 info.protocol]
  if endpointLe info.src info.srcPort info.dst info.dstPort then
    endpoint (endpoint start info.src info.srcPort) info.dst info.dstPort
  else endpoint (endpoint start info.dst info.dstPort) info.src info.srcPort

/-- The first and the last step of the avalanche, and the one between. -/
def xorShift (n : Nat) (hash : U64) : U64 := hash ^^^ (hash >>> n)

def avalanche (hash : U64) : U64 :=
  xorShift 31 (xorShift 27 (xorShift 30 hash * 0xbf58476d1ce4e5b9) * 0x94d049bb133111eb)

def key (info : PacketInfo) : U64 := avalanche (hash info)

/-- `reduce`. -/
def reduce (hash : U64) (width : Nat) : Nat := hash.toNat % width

/-- `slot`, of the flow with the key. -/
def slot (key : U64) (width : Nat) : Nat := if width ≤ 1 then 0 else reduce key width

theorem slot_lt (key : U64) {width : Nat} (h : 0 < width) : slot key width < width := by
  unfold slot
  split
  case isTrue => exact h
  case isFalse => exact Nat.mod_lt _ h

/-! ## 2. What it keeps apart -/

theorem xorShift_inj {n : Nat} (hn : 0 < n) {x y : U64} (h : xorShift n x = xorShift n y) :
    x = y := by
  -- what the two differ in is its own shift, so it is zero
  have hdiff : (x ^^^ y) >>> n = x ^^^ y := by
    refine BitVec.eq_of_getLsbD_eq fun i _ => ?_
    have hbit := congrArg (fun z : U64 => z.getLsbD i) h
    simp only [xorShift, BitVec.getLsbD_xor, BitVec.getLsbD_ushiftRight] at hbit ⊢
    revert hbit
    cases x.getLsbD i <;> cases y.getLsbD i <;> cases x.getLsbD (n + i) <;>
      cases y.getLsbD (n + i) <;> decide
  have hzero : (x ^^^ y).toNat = 0 := by
    have hnat := congrArg BitVec.toNat hdiff
    rw [BitVec.toNat_ushiftRight, Nat.shiftRight_eq_div_pow] at hnat
    by_contra hne
    have hlt := Nat.div_lt_self (Nat.pos_of_ne_zero hne) (Nat.one_lt_two_pow (Nat.ne_of_gt hn))
    omega
  exact BitVec.xor_eq_zero_iff.mp (BitVec.eq_of_toNat_eq hzero)

/-- Multiplication by a unit loses nothing. -/
theorem mul_inj {c d x y : U64} (hcd : c * d = 1#64) (h : x * c = y * c) : x = y := by
  calc x = x * c * d := by rw [BitVec.mul_assoc, hcd, BitVec.mul_one]
    _ = y * c * d := by rw [h]
    _ = y := by rw [BitVec.mul_assoc, hcd, BitVec.mul_one]

theorem avalanche_inj {x y : U64} (h : avalanche x = avalanche y) : x = y := by
  have hlast := xorShift_inj (by decide) h
  have hmul : xorShift 27 (xorShift 30 x * 0xbf58476d1ce4e5b9) =
      xorShift 27 (xorShift 30 y * 0xbf58476d1ce4e5b9) :=
    mul_inj (d := 0x319642b2d24d8ec3) (by decide) hlast
  have hmid := xorShift_inj (by decide) hmul
  have hfirst : xorShift 30 x = xorShift 30 y :=
    mul_inj (d := 0x96de1b173f119089) (by decide) hmid
  exact xorShift_inj (by decide) hfirst

theorem prime_inj {x y : U64} (h : x * prime = y * prime) : x = y :=
  mul_inj (d := 0xce965057aff6957b) (by decide) h

/-- A byte changes the low eight bits only. -/
theorem xor_byte_div (x : U64) (b : Byte) : (x ^^^ b.setWidth 64).toNat / 256 = x.toNat / 256 := by
  have h : (x ^^^ b.setWidth 64) >>> 8 = x >>> 8 := by
    refine BitVec.eq_of_getLsbD_eq fun i _ => ?_
    simp
  have hnat := congrArg BitVec.toNat h
  rw [BitVec.toNat_ushiftRight, BitVec.toNat_ushiftRight, Nat.shiftRight_eq_div_pow,
    Nat.shiftRight_eq_div_pow] at hnat
  exact hnat

theorem setWidth_inj {a b : Byte} (h : a.setWidth 64 = b.setWidth 64) : a = b := by
  have hnat := congrArg BitVec.toNat h
  rw [BitVec.toNat_setWidth_of_le (by decide), BitVec.toNat_setWidth_of_le (by decide)] at hnat
  exact BitVec.eq_of_toNat_eq hnat

/-- Numbers close to each other stay apart when they are multiplied by the prime: their products
differ by more than a byte, and too little to wrap. -/
theorem prime_spreads {u v k l x y : Nat} (hu : u * 1099511628211 = 2 ^ 64 * k + x)
    (hv : v * 1099511628211 = 2 ^ 64 * l + y) (huv : u ≤ v + 255) (hvu : v ≤ u + 255)
    (hxy : x ≤ y + 255) (hyx : y ≤ x + 255) : u = v := by
  have hk : k = l := by omega
  omega

/-- Two bytes that are mixed last are kept apart: the first one is multiplied out of the reach of
the second. -/
theorem mix_two_inj {start : U64} {a b a' b' : Byte}
    (h : mix start [a, b] = mix start [a', b']) : a = a' ∧ b = b' := by
  have hx := prime_inj h
  let x := start ^^^ a.setWidth 64
  let y := start ^^^ a'.setWidth 64
  have hlow : x.toNat / 256 = y.toNat / 256 := by rw [xor_byte_div, xor_byte_div]
  have hhigh : (x * prime).toNat / 256 = (y * prime).toNat / 256 := by
    rw [← xor_byte_div (x * prime) b, ← xor_byte_div (y * prime) b']
    exact congrArg (fun z : U64 => z.toNat / 256) hx
  have hxy : x = y := by
    have hp : prime.toNat = 1099511628211 := rfl
    rw [BitVec.toNat_mul, BitVec.toNat_mul, hp] at hhigh
    have hu := (Nat.div_add_mod (x.toNat * 1099511628211) (2 ^ 64)).symm
    have hv := (Nat.div_add_mod (y.toNat * 1099511628211) (2 ^ 64)).symm
    exact BitVec.eq_of_toNat_eq (prime_spreads hu hv (by omega) (by omega) (by omega) (by omega))
  have ha : a.setWidth 64 = a'.setWidth 64 := BitVec.xor_right_inj start |>.mp hxy
  have hb : b.setWidth 64 = b'.setWidth 64 := by
    have hlast : x * prime ^^^ b.setWidth 64 = y * prime ^^^ b'.setWidth 64 := hx
    rw [hxy] at hlast
    exact (BitVec.xor_right_inj (y * prime)).mp hlast
  exact ⟨setWidth_inj ha, setWidth_inj hb⟩

theorem mix_port_inj {start : U64} {p q : U16}
    (h : mix start (portBytes p) = mix start (portBytes q)) : p = q := by
  obtain ⟨ha, hb⟩ := mix_two_inj h
  have ha := congrArg BitVec.toNat ha
  have hb := congrArg BitVec.toNat hb
  simp only [BitVec.toNat_ofNat] at ha hb
  have hp := p.isLt
  have hq := q.isLt
  refine BitVec.eq_of_toNat_eq ?_
  omega

end Molehill.Transparent.Flow
