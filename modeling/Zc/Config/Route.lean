import Zc.Config.GeoIp
import Zc.Config.Selection

namespace zc.config

structure MatchContext where
  source_ip : Option net.IpAddr
  source_port : Option UInt16
  process_name : Option String

structure Route where
  proxy : Proxy
  rule_index : Nat
  leaf_index : Nat
  target : Target

/-- A successful answer of `Dns::resolve`, which is never empty. -/
structure Answer where
  addresses : List net.IpAddr
  nonempty : addresses ≠ []

def Answer.first (answer : Answer) : net.IpAddr :=
  answer.addresses.head answer.nonempty

/-- What the loop knows about the target's addresses, and how often it asked. -/
structure Resolution where
  resolved : Option Answer
  lookups : Nat

/-- Ask for the addresses unless they are known. `dns` is what `Dns::resolve` answers. -/
def Resolution.lookup (dns : Result Answer) (resolution : Resolution) : Result Answer × Resolution :=
  match resolution.resolved with
  | some answer => (.ok answer, resolution)
  | none =>
    match dns with
    | .ok answer => (.ok answer, ⟨some answer, resolution.lookups + 1⟩)
    | .error error => (.error error, ⟨none, resolution.lookups + 1⟩)

/-- The rules whose addresses are looked up for a domain. -/
def Matcher.resolves : Matcher → Bool
  | .Ip _ no_resolve => !no_resolve
  | .GeoIp _ no_resolve => !no_resolve
  | _ => false

/-- What a call of `route_inner` is about. -/
structure Query where
  target : Target
  context : MatchContext
  dns : Result Answer

def Query.literal_ip (query : Query) : Option net.IpAddr :=
  net.parse_ip query.target.host

/-- The lower-cased name of a target that is no address literal, without one trailing dot. -/
def Query.domain (query : Query) : Option String :=
  if query.literal_ip.isNone then some (canonical_domain query.target.host) else none

/-- The two address matchers, with what they ask of an address. A match on a looked-up address is
    pinned to it. -/
def match_address (query : Query) (holds : net.IpAddr → Bool) (no_resolve : Bool) (resolution : Resolution) :
    Result (Bool × Option net.IpAddr) × Resolution :=
  match query.literal_ip with
  | some ip => (.ok (holds ip, none), resolution)
  | none =>
    if no_resolve then (.ok (false, none), resolution)
    else
      match resolution.lookup query.dns with
      | (.ok answer, resolution) =>
        let pinned := answer.addresses.find? holds
        (.ok (pinned.isSome, pinned), resolution)
      | (.error error, resolution) => (.error error, resolution)

def geoip_holds (country : String) (ip : net.IpAddr) : Bool :=
  geoip_country ip == some country

def suffix_matches (suffix domain : String) : Bool :=
  domain == suffix || (str.stripSuffix domain suffix).any fun front => str.endsWith front "."

/-- Whether a rule matches, and the address it pins. -/
def match_rule (crates : Crates) (query : Query) (matcher : Matcher) (resolution : Resolution) :
    Result (Bool × Option net.IpAddr) × Resolution :=
  match matcher with
  | .Match => (.ok (true, none), resolution)
  | .SourceIp network => (.ok (query.context.source_ip.any (crates.contains network), none), resolution)
  | .SourcePort first last =>
    (.ok (query.context.source_port.any fun port => first ≤ port && port ≤ last, none), resolution)
  | .ProcessName name => (.ok (query.context.process_name.any (· == name), none), resolution)
  | .GeoIp country no_resolve => match_address query (geoip_holds country) no_resolve resolution
  | .DestinationPort first last =>
    (.ok (first ≤ query.target.port && query.target.port ≤ last, none), resolution)
  | .Ip network no_resolve => match_address query (crates.contains network) no_resolve resolution
  | .Domain expected => (.ok (query.domain.any (· == expected), none), resolution)
  | .DomainSuffix suffix => (.ok (query.domain.any (suffix_matches suffix), none), resolution)
  | .DomainKeyword keyword =>
    (.ok (query.domain.any fun domain => str.contains domain keyword, none), resolution)

def ProxyKind.is_remote : ProxyKind → Bool
  | .Shadowsocks .. | .Trojan .. | .AnyTls .. => true
  | _ => false

/-- `rule` targets a `DIRECT` proxy itself, not a group. -/
def Config.is_direct (cfg : Config) (rule : Rule) : Bool :=
  cfg.proxies[rule.proxy]?.any fun proxy => proxy.kind == .Direct

/-- The target to dial: the pinned address, if there is one. -/
def dial_target (target : Target) : Option net.IpAddr → Result Target
  | some ip => Target.new ip.to_string target.port
  | none => pure target

/-- The route of a matching rule. -/
def Config.finish (cfg : Config) (target : Target) (rule : Rule) (rule_index : Nat) (remote_domain_allowed : Bool)
    (pinned : Option net.IpAddr) (resolved : Option Answer) : Result Route := do
  let leaf_index ← cfg.resolve_proxy rule.proxy
  let proxy ← okOr cfg.proxies[leaf_index]? (.panic "index out of bounds")
  let remote_domain := remote_domain_allowed && proxy.kind.is_remote
  let pinned := pinned.orElse fun _ => if remote_domain then none else resolved.map Answer.first
  let target ← dial_target target pinned
  pure { proxy, rule_index, leaf_index, target }

/-- The loop over the rules from `rule_index` on; it returns how often it asked for addresses. -/
def Config.route_rules (cfg : Config) (crates : Crates) (query : Query) :
    List Rule → (rule_index : Nat) → (remote_domain_allowed : Bool) → Resolution → Result Route × Nat
  | [], _, _, resolution => (bail "no routing rule matched; connection denied", resolution.lookups)
  | rule :: rules, rule_index, remote_domain_allowed, resolution =>
    -- Only statically direct address rules are routing hints; anything else keeps the checked address.
    let remote_domain_allowed := remote_domain_allowed && (!rule.matcher.resolves || cfg.is_direct rule)
    match match_rule crates query rule.matcher resolution with
    | (.error error, resolution) => (.error error, resolution.lookups)
    | (.ok (true, pinned), resolution) =>
      (cfg.finish query.target rule rule_index remote_domain_allowed pinned resolution.resolved, resolution.lookups)
    | (.ok (false, _), resolution) =>
      cfg.route_rules crates query rules (rule_index + 1) remote_domain_allowed resolution

/-- `Config::route_inner`, with the number of lookups it made. -/
def Config.route_inner (cfg : Config) (crates : Crates) (query : Query) (remote_domain_allowed : Bool) :
    Result Route × Nat :=
  cfg.route_rules crates query cfg.rules 0 remote_domain_allowed ⟨none, 0⟩

end zc.config
