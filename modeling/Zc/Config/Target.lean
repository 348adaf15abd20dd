import Zc.Error
import Zc.Net.IpText

namespace zc

/-- A destination. Every constructor of the source refuses port zero. -/
structure Target where
  host : String
  port : UInt16
  port_ne_zero : port ≠ 0
  deriving DecidableEq

namespace Target

/-- One label of a DNS name in `Target::new`. -/
def valid_label (label : String) : Bool :=
  label ≠ "" && str.len label ≤ 63 &&
    label.toList.all (fun c => c.isAlphanum || c == '-') &&
    !str.startsWith label "-" && !str.endsWith label "-"

def valid_domain (host : String) : Bool :=
  let domain := (str.stripSuffix host ".").getD host
  domain ≠ "" && str.len domain ≤ 253 && (str.split domain '.').all valid_label

def new (host : String) (port : UInt16) : Result Target :=
  if hport : port = 0 then bail "destination port must be between 1 and 65535"
  else if (net.parse_ip host).isNone && !valid_domain host then
    bail "destination must be an IP address or ASCII DNS name (use punycode for IDNs)"
  else .ok ⟨host, port, hport⟩

/-- SOCKS names are length-prefixed wire names, not validated DNS labels. -/
def from_socks (host : String) (port : UInt16) : Result Target :=
  if hport : port = 0 then
    bail "SOCKS destination requires a 1..255 byte name and a nonzero port"
  else if host = "" ∨ str.len host > 255 then
    bail "SOCKS destination requires a 1..255 byte name and a nonzero port"
  else .ok ⟨host, port, hport⟩

/-- The text of an address is a host that `Target::new` accepts. -/
theorem new_to_string (ip : net.IpAddr) {port : UInt16} (hport : port ≠ 0) :
    new ip.to_string port = .ok ⟨ip.to_string, port, hport⟩ := by
  unfold new
  rw [dif_neg hport, net.parse_ip_to_string]
  rfl

end Target

end zc
