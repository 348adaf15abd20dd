import Zc.Config.Crates
import Zc.Config.Target

namespace zc.config

inductive Matcher where
  | Domain (payload : String)
  | DomainSuffix (payload : String)
  | DomainKeyword (payload : String)
  | Ip (network : IpNet) (no_resolve : Bool)
  | DestinationPort (first last : UInt16)
  | SourcePort (first last : UInt16)
  | SourceIp (network : IpNet)
  | ProcessName (name : String)
  | GeoIp (country : String) (no_resolve : Bool)
  | Match
  deriving DecidableEq

structure Rule where
  matcher : Matcher
  proxy : Nat
  kind : String
  payload : String
  deriving DecidableEq

/-- The `HashMap` from proxy and group names to node indices. -/
abbrev Names := List (String × Nat)

def parse_port (port : String) : Result UInt16 := do
  bail_if (port = "" || !port.toList.all Char.isDigit) "DST-PORT requires a decimal port or port range"
  let value := str.decimal port
  bail_if (65536 ≤ value) "DST-PORT must be between 1 and 65535"
  bail_if (value = 0) "DST-PORT must be between 1 and 65535"
  pure (UInt16.ofNat value)

def canonical_domain (domain : String) : String :=
  str.toAsciiLowercase ((str.stripSuffix domain ".").getD domain)

/-- The comma-separated fields of a rule; the fifth only serves to reject it. -/
def rule_fields (source : String) : List String :=
  ((str.split source ',').take 5).map (str.trimMatches fun c => c == ' ' || c == '\t')

namespace Rule

/-- A keyword need not be a DNS name. -/
def check_domain (kind payload : String) : Result Unit :=
  if kind = "DOMAIN-KEYWORD" then pure ()
  else do
    let _ ← mapErr (.message "domain rule payload must be a valid ASCII DNS name") (Target.new payload 1)

def parse_domain (kind payload : String) : Result Matcher := do
  check_domain kind payload
  let payload := canonical_domain payload
  bail_if (payload = "" || !str.isAscii payload ||
      payload.toList.any (fun c => str.isAsciiWhitespace c || str.isAsciiControl c))
    "domain rule payload must be nonempty ASCII without whitespace or control characters"
  if kind = "DOMAIN" then pure (.Domain payload)
  else if kind = "DOMAIN-SUFFIX" then pure (.DomainSuffix payload)
  else pure (.DomainKeyword payload)

def parse_ip (crates : Crates) (kind payload : String) (no_resolve : Bool) : Result Matcher := do
  let network ← okOr (crates.parse_net payload) (.message "IP rule requires a valid CIDR network")
  bail_if ((kind == "IP-CIDR") != network.addr.is_ipv4) "IP-CIDR requires IPv4; IP-CIDR6 requires IPv6"
  pure (.Ip network no_resolve)

def parse_source_ip (crates : Crates) (payload : String) : Result Matcher := do
  let network ← okOr (crates.parse_net payload)
    (.message "source IP rule requires a valid IPv4 CIDR network")
  bail_if (!network.addr.is_ipv4) "SRC-IP-CIDR requires IPv4"
  pure (.SourceIp network)

def parse_ports (kind payload : String) : Result Matcher := do
  let (first, last) := (str.splitOnce payload '-').getD (payload, payload)
  let first ← parse_port first
  let last ← parse_port last
  bail_if (last < first) "DST-PORT range must be ascending"
  if kind = "DST-PORT" then pure (.DestinationPort first last)
  else pure (.SourcePort first last)

/-- The matcher and target name of the fields, in the order of the source's match arms. -/
def parse_fields (crates : Crates) (fields : List String) : Result (Matcher × String) :=
  let unsupported : Result (Matcher × String) :=
    bail "unsupported or invalid rule; PROCESS-PATH and recursive RULE-SET are not supported"
  match fields with
  | [kind, name] =>
    if kind = "MATCH" then pure (.Match, name) else unsupported
  | [kind, payload, name] => do
    if kind = "DOMAIN" ∨ kind = "DOMAIN-SUFFIX" ∨ kind = "DOMAIN-KEYWORD" then
      pure (← parse_domain kind payload, name)
    else if kind = "IP-CIDR" ∨ kind = "IP-CIDR6" then
      pure (← parse_ip crates kind payload false, name)
    else if kind = "SRC-IP-CIDR" then
      pure (← parse_source_ip crates payload, name)
    else if kind = "PROCESS-NAME" ∧ payload ≠ "" then
      pure (.ProcessName payload, name)
    else if kind = "GEOIP" ∧ payload ≠ "" then
      pure (.GeoIp payload false, name)
    else if kind = "DST-PORT" ∨ kind = "SRC-PORT" then
      pure (← parse_ports kind payload, name)
    else unsupported
  | [kind, payload, name, option] => do
    if (kind = "IP-CIDR" ∨ kind = "IP-CIDR6") ∧ option = "no-resolve" then
      pure (← parse_ip crates kind payload true, name)
    else if kind = "GEOIP" ∧ option = "no-resolve" ∧ payload ≠ "" then
      pure (.GeoIp payload true, name)
    else unsupported
  | _ => unsupported

def parse (crates : Crates) (source : String) (names : Names) : Result Rule := do
  let fields := rule_fields source
  let (matcher, name) ← parse_fields crates fields
  let proxy ← okOr (names.lookup name) (.message "rule references an unknown proxy or group")
  let kind := fields.headD ""
  pure {
    matcher
    proxy
    kind
    payload := if kind = "MATCH" then "" else (fields.drop 1).headD "" }

/-- A parsed rule targets a node that has a name. -/
theorem proxy_mem_of_parse {crates : Crates} {source : String} {names : Names} {rule : Rule}
    (hparse : parse crates source names = .ok rule) : ∃ name, names.lookup name = some rule.proxy := by
  unfold parse at hparse
  simp only [bind_eq_ok_iff, okOr_eq_ok_iff] at hparse
  obtain ⟨⟨matcher, name⟩, _, proxy, hproxy, hrule⟩ := hparse
  obtain rfl := Except.ok.inj hrule
  exact ⟨name, hproxy⟩

end Rule

end zc.config
