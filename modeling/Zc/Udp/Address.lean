import Zc.AnyTls.Frame
import Zc.Config.Target

/-!
# SOCKS5 addresses

The addresses of the `shadowsocks` crate: a type byte, the host in the form the type has, and the
port. Its two variants are one host here.
-/

namespace zc.outbound

open anytls (be16 ofBe16)

inductive Host where
  | ip (ip : net.IpAddr)
  | name (name : String)
  deriving DecidableEq

structure Address where
  host : Host
  port : UInt16
  deriving DecidableEq

namespace Host

def text : Host → String
  | .ip address => address.to_string
  | .name host => host

/-- The type and the host. The length of a name fits its byte when the name is one of a target. -/
def bytes : Host → List UInt8
  | .ip (.V4 address) => [1, address.a, address.b, address.c, address.d]
  | .ip (.V6 address) => 4 :: address.segments.flatMap fun segment => be16 segment.toNat
  | .name host => 3 :: UInt8.ofNat (str.len host) :: str.bytes host

/-- A name that can be sent: neither empty nor longer than its length byte can tell. -/
def Sendable : Host → Prop
  | .ip _ => True
  | .name host => host ≠ "" ∧ str.len host ≤ 255

end Host

/-- `Address::write_to_buf`. -/
def Address.write_to_buf (address : Address) : List UInt8 :=
  address.host.bytes ++ be16 address.port.toNat

def host_of (host : String) : Host :=
  match net.parse_ip host with
  | some ip => .ip ip
  | none => .name host

def destination (target : Target) : Address :=
  ⟨host_of target.host, target.port⟩

/-! ## Two bytes -/

theorem be16_ofBe16 (high low : UInt8) : be16 (ofBe16 high low) = [high, low] := by
  have hhigh := high.toNat_lt
  have hlow := low.toNat_lt
  have hfirst : UInt8.ofNat (ofBe16 high low / 256) = high := by
    apply UInt8.toNat_inj.1
    rw [UInt8.toNat_ofNat', ofBe16]
    omega
  have hsecond : UInt8.ofNat (ofBe16 high low) = low := by
    apply UInt8.toNat_inj.1
    rw [UInt8.toNat_ofNat', ofBe16]
    omega
  rw [be16, hfirst, hsecond]

theorem length_be16 (n : Nat) : (be16 n).length = 2 :=
  rfl

theorem length_bytes (s : String) : (str.bytes s).length = str.len s := by
  rw [str.bytes, Array.length_toList]
  rfl

/-! ## The sixteen bytes of an address -/

/-- `Ipv6Addr::from`, segment by segment. -/
def segments : List UInt8 → List UInt16
  | high :: low :: rest => UInt16.ofNat (ofBe16 high low) :: segments rest
  | _ => []

theorem length_segments {bytes : List UInt8} {n : Nat} (hlength : bytes.length = 2 * n) : (segments bytes).length = n := by
  induction n generalizing bytes with
  | zero =>
    obtain rfl := List.length_eq_zero_iff.1 hlength
    rfl
  | succ n ih =>
    match bytes, hlength with
    | high :: low :: rest, hlength =>
      rw [segments, List.length_cons, ih (by simp only [List.length_cons] at hlength; omega)]

theorem segments_flatMap (parts : List UInt16) : segments (parts.flatMap fun segment => be16 segment.toNat) = parts := by
  induction parts with
  | nil => rfl
  | cons segment parts ih =>
    rw [List.flatMap_cons, be16, List.cons_append, List.cons_append, List.nil_append, segments, ih,
      anytls.ofBe16_be16 segment.toNat_lt, UInt16.ofNat_toNat]

theorem flatMap_segments {bytes : List UInt8} {n : Nat} (hlength : bytes.length = 2 * n) :
    ((segments bytes).flatMap fun segment => be16 segment.toNat) = bytes := by
  induction n generalizing bytes with
  | zero =>
    obtain rfl := List.length_eq_zero_iff.1 hlength
    rfl
  | succ n ih =>
    match bytes, hlength with
    | high :: low :: rest, hlength =>
      have hhigh := high.toNat_lt
      have hlow := low.toNat_lt
      have hvalue : (UInt16.ofNat (ofBe16 high low)).toNat = ofBe16 high low := by
        rw [UInt16.toNat_ofNat', ofBe16]
        omega
      rw [segments, List.flatMap_cons, hvalue, be16_ofBe16, ih (by simp only [List.length_cons] at hlength; omega)]
      rfl

end zc.outbound
