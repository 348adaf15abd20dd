import Zc.Config.Expand

namespace zc.config

def MAX_PROXIES : Nat := 4096
def MAX_GROUPS : Nat := 1024
def MAX_MIXED_PROXIES : Nat := MAX_PROXIES + MAX_GROUPS

structure SocketAddr where
  ip : net.IpAddr
  port : UInt16
  deriving DecidableEq

def controller_address (host : String) : Result net.IpAddr :=
  if host = "127.0.0.1" then pure (.V4 ⟨127, 0, 0, 1⟩)
  else if host = "0.0.0.0" then pure (.V4 ⟨0, 0, 0, 0⟩)
  else bail "external-controller must be explicit 127.0.0.1:<port> or 0.0.0.0:<port>"

def parse_controller_endpoint (endpoint : String) : Result SocketAddr := do
  let (host, port) ← okOr (str.splitOnce endpoint ':')
    (.message "external-controller must be explicit 127.0.0.1:<port> or 0.0.0.0:<port>")
  let ip ← controller_address host
  let port ← parse_port port
  pure { ip, port }

structure RawConfig where
  proxies : List RawEntry
  proxy_groups : List RawGroup
  rules : List String
  rule_providers : Providers
  allow_lan : Bool
  bind_address : Option String
  mixed_port : Option UInt16
  port : Option UInt16
  socks_port : Option UInt16
  mode : Option String
  log_level : Option String
  external_controller : Option String
  secret : Option String

def RawConfig.deserialize (value : Value) : Option RawConfig := do
  let field ← value.fields [["proxies"], ["proxy-groups"], ["rules"], ["rule-providers"], ["allow-lan"],
    ["bind-address"], ["mixed-port"], ["port"], ["socks-port"], ["mode"], ["log-level"],
    ["external-controller"], ["secret"]]
  let proxies ← Value.defaulted [] (Value.bounded MAX_MIXED_PROXIES RawEntry.deserialize) (field 0)
  let proxy_groups ← Value.defaulted [] (Value.bounded MAX_GROUPS RawGroup.deserialize) (field 1)
  let rules ← Value.defaulted [] (Value.bounded MAX_RULES Value.as_str) (field 2)
  let rule_providers ← Value.defaulted [] (Value.mapping Provider.deserialize) (field 3)
  let allow_lan ← Value.defaulted false Value.as_bool (field 4)
  let bind_address ← Value.present Value.as_str (field 5)
  let mixed_port ← Value.present decode_u16 (field 6)
  let port ← Value.present decode_u16 (field 7)
  let socks_port ← Value.present decode_u16 (field 8)
  let mode ← Value.present Value.as_str (field 9)
  let log_level ← Value.present Value.as_str (field 10)
  let external_controller ← Value.defaulted none (Value.optional Value.as_str) (field 11)
  let secret ← Value.defaulted none (Value.optional Value.as_str) (field 12)
  pure { proxies, proxy_groups, rules, rule_providers, allow_lan, bind_address, mixed_port, port, socks_port,
         mode, log_level, external_controller, secret }

/-- A running configuration; `selections` is the content of its lock. -/
structure Config where
  bind_address : net.IpAddr
  proxies : List Proxy
  rules : List Rule
  groups : List Group
  selections : List Nat
  mode : String
  controller : Option SocketAddr
  secret : String
  document : Value

/-! ## Checks on the document -/

def anytls_field_allowed (entry : String × Value) : Bool :=
  let (key, value) := entry
  if key ∈ ["name", "type", "server", "port", "password", "sni", "skip-cert-verify"] then true
  else if key = "network" then value.as_str == some "tcp"
  else if key = "udp" ∨ key = "tls" then value.as_bool == some false
  else if key = "alterId" then value.as_u64 == some 0
  else if key = "disable-reuse" then value.as_bool == some true
  else false

def validate_anytls_proxy (proxy : Value) : Result Unit :=
  if (proxy.get "type").bind Value.as_str ≠ some "anytls" then pure ()
  else do
    let fields ← okOr proxy.as_object (.message "invalid AnyTLS node")
    bail_if (!fields.all anytls_field_allowed)
      "UnsupportedCapability: AnyTLS supports only native TLS/TCP fields; no pooling, UDP or extended TLS options"

/-- Canonical writers discard fields, so unselected nodes are checked too. -/
def validate_anytls_fields (document : Value) : Result Unit :=
  (((document.get "proxies").bind Value.as_array).getD []).forM validate_anytls_proxy

def exceeds (value : Value) (field : String) (limit : Nat) : Bool :=
  ((value.get field).bind Value.as_array).any fun items => items.length > limit

def validate_limits (document : Value) : Result Unit := do
  bail_if (exceeds document "proxies" MAX_MIXED_PROXIES || exceeds document "proxy-groups" MAX_GROUPS ||
      exceeds document "rules" MAX_RULES)
    "configuration collection limit exceeded"
  bail_if (["proxies", "proxy-groups"].any fun field =>
      (((document.get field).bind Value.as_array).getD []).any fun entry => exceeds entry "proxies" MAX_MEMBERS)
    "proxy-group member limit exceeded"

/-! ## The parser -/

def declared_bind_address (raw : RawConfig) : Result net.IpAddr :=
  match raw.bind_address with
  | some address =>
    if address = "*" then pure (.V4 ⟨0, 0, 0, 0⟩)
    else okOr (net.parse_ip address) (.message "bind-address must be an IP address or '*'")
  | none => pure (.V4 (if raw.allow_lan then ⟨0, 0, 0, 0⟩ else ⟨127, 0, 0, 1⟩))

def resolve_bind_address (raw : RawConfig) : Result net.IpAddr := do
  let bind_address ← declared_bind_address raw
  bail_if (!raw.allow_lan && !bind_address.is_loopback) "non-loopback bind-address requires allow-lan: true"
  pure bind_address

def builtin_proxies : List Proxy :=
  [{ name := "DIRECT", kind := .Direct, udp := true, obfs := none },
    { name := "REJECT", kind := .Reject, udp := false, obfs := none }]

/-- Split the entries of `proxies` into built proxies and groups. -/
def build_entries (crates : Crates) : List RawEntry → List Proxy → List RawGroup →
    Result (List Proxy × List RawGroup)
  | [], proxies, groups => pure (proxies, groups)
  | .Proxy proxy :: rest, proxies, groups => do
    bail_if (proxies.length = MAX_PROXIES + 2) "proxy count limit exceeded"
    let proxy ← proxy.build crates
    build_entries crates rest (proxies ++ [proxy]) groups
  | .Group group :: rest, proxies, groups => build_entries crates rest proxies (groups ++ [group])

/-- Name the proxies, the first of them with index `next`. -/
def name_proxies (names : Names) (next : Nat) : List Proxy → Result Names
  | [] => pure names
  | proxy :: proxies => do
    validate_name proxy.name
    let names ← insert_name names proxy.name next
    name_proxies names (next + 1) proxies

def validate_raw (raw : RawConfig) : Result (Option SocketAddr) := do
  bail_if (raw.mixed_port.getD 0 = 0 && (raw.port.getD 0 ≠ 0 || raw.socks_port.getD 0 ≠ 0))
    "standalone port/socks-port listeners are unsupported; use mixed-port or the CLI port override"
  bail_if (raw.mode.any fun mode => mode ∉ ["rule", "global", "direct"])
    "mode must be rule, global or direct"
  let controller ← raw.external_controller.mapM parse_controller_endpoint
  bail_if (raw.log_level.any fun level => level ∉ ["silent", "error", "warning", "info", "debug"])
    "log-level must be silent, error, warning, info or debug"
  pure controller

/-- The rules of a configuration; without assets they are only checked. -/
def build_rules (crates : Crates) (raw : RawConfig) (names : Names) : Option Assets → Result (List Rule)
  | some assets => expand crates raw.rules raw.rule_providers assets names
  | none => do
    validate_rule_declarations crates raw.rules raw.rule_providers names
    pure []

/-- `Config::parse_inner` on a parsed document. -/
def Config.of_document (crates : Crates) (document : Value) (assets : Option Assets) : Result Config := do
  validate_anytls_fields document
  validate_limits document
  let raw ← okOr (RawConfig.deserialize document)
    (.message "invalid configuration: check supported fields, types and collection limits")
  let controller ← validate_raw raw
  let bind_address ← resolve_bind_address raw
  let (proxies, entry_groups) ← build_entries crates raw.proxies builtin_proxies []
  let raw_groups := entry_groups ++ raw.proxy_groups
  bail_if (raw_groups.length > MAX_GROUPS) "proxy-group count limit exceeded"
  let names ← name_proxies [] 0 proxies
  let (groups, names) ← resolve_groups raw_groups names proxies.length
  let rules ← build_rules crates raw names assets
  pure {
    bind_address
    proxies
    rules
    groups
    selections := List.replicate groups.length 0
    mode := raw.mode.getD "rule"
    controller
    secret := raw.secret.getD ""
    document }

def Config.parse_inner (crates : Crates) (source : String) (assets : Option Assets) : Result Config := do
  let document ← parse_document crates source
  Config.of_document crates document assets

def Config.parse_with_assets (crates : Crates) (source : String) (assets : Assets) : Result Config :=
  Config.parse_inner crates source (some assets)

def Config.validate_declarations (crates : Crates) (source : String) : Result Unit := do
  let _ ← Config.parse_inner crates source none

end zc.config
