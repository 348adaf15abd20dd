import Zc.Override.Document

/-!
# Normalised documents

`normalize_config` fills in the defaults of a source document and checks its types; the runtime
parser sees the projection `runtime_source` of the result.
-/

namespace zc.override_script

def number (n : Nat) : Value :=
  .number (.PosInt (UInt64.ofNat n))

/-- `Value::as_i64` has a value. -/
def is_i64 : Value → Bool
  | .number (.PosInt n) => n.toNat < 2 ^ 63
  | .number (.NegInt _) => true
  | _ => false

def same_type (default value : Value) : Bool :=
  match default with
  | .bool _ => value.as_bool.isSome
  | .number _ => is_i64 value
  | .string _ => is_string value
  | .array _ => value.as_array.isSome
  | .object _ => value.as_object.isSome
  | .null => false

def typed_default (map : Map) (entry : String × Value) : Result Map := do
  let (key, default) := entry
  let value := (map.lookup key).getD default
  bail_if (!same_type default value) ("OVERRIDE_MERGE_FAILED: invalid " ++ key ++ " type")
  pure (if map.contains_key key then map else map.insert key default)

def optional_string (nullable : Bool) (map : Map) (key : String) : Result Map :=
  match map.lookup key with
  | none => pure map
  | some value =>
    if nullable && value.is_null then pure (map.remove key)
    else do
      bail_if (!is_string value) ("OVERRIDE_MERGE_FAILED: invalid " ++ key ++ " type")
      pure map

def integer_range (map : Map) (key : String) (max : Nat) : Result Unit :=
  bail_if (!((map.lookup key).bind Value.as_u64).any fun n => n ≤ max) ("OVERRIDE_MERGE_FAILED: invalid " ++ key ++ " range")

/-- `simple_obfs::validate_host`. -/
def validate_host (host : String) : Result Unit :=
  ensure (host ≠ "" && str.len host ≤ 255 && host.toList.all fun c => c ≠ '\x00' && c ≠ '\r' && c ≠ '\n')
    (.io .InvalidData "obfs host must be 1..255 bytes without NUL, CR or LF")

def validate_plugin_metadata (proxy : Map) : Result Unit := do
  let kind ← unwrap ((proxy.lookup "type").bind Value.as_str)
  match proxy.lookup "plugin", proxy.lookup "plugin-opts" with
  | none, none => pure ()
  | some plugin, some options =>
    if kind = "ss" ∧ (plugin.as_str = some "obfs" ∨ plugin.as_str = some "obfs-local") ∧
        (options.get "mode").bind Value.as_str = some "http" then do
      let host ← okOr ((options.get "host").bind Value.as_str) (.message "UnsupportedCapability: missing obfs host")
      validate_host host
    else bail "UnsupportedCapability: plugin metadata"
  | _, _ => bail "UnsupportedCapability: plugin metadata"

/-! ## Proxies -/

def proxy_kinds : List String :=
  ["direct", "reject", "http", "socks5", "ss", "vmess", "trojan", "vless", "anytls"]

def proxy_endpoint (kind : String) (proxy : Map) : Result Map :=
  if kind = "direct" ∨ kind = "reject" then
    pure ((proxy.insert "server" (.string "")).insert "port" (number 0))
  else do
    bail_if (!(proxy.lookup "server").any is_string ||
        !((proxy.lookup "port").bind Value.as_u64).any fun p => 0 < p && p ≤ 65535)
      "OVERRIDE_MERGE_FAILED: proxy server/port required"
    pure proxy

def check_ws_headers (ws : Map) : Result Unit :=
  match ws.lookup "headers" with
  | none => pure ()
  | some headers => do
    let headers ← okOr headers.as_object (.message "invalid ws headers")
    let _ ← optional_string false headers "Host"

def check_ws_opts (proxy : Map) : Result Unit :=
  match (proxy.lookup "ws-opts").bind Value.as_object with
  | none => pure ()
  | some ws => do
    let _ ← optional_string false ws "path"
    check_ws_headers ws

def normalize_proxy (proxy : Value) : Result Value := do
  let proxy ← unwrap proxy.as_object
  let kind ← unwrap ((proxy.lookup "type").bind Value.as_str)
  bail_if (kind ∉ proxy_kinds) "OVERRIDE_MERGE_FAILED: unknown proxy type"
  let proxy ← proxy_endpoint kind proxy
  let proxy ← ["password", "cipher", "uuid", "sni", "network", "plugin"].foldlM (optional_string false) proxy
  let proxy ← ["tls", "skip-cert-verify", "udp"].foldlM (fun map key => typed_default map (key, .bool false)) proxy
  let proxy ← typed_default proxy ("alterId", number 0)
  bail_if (["grpc-opts", "ws-opts"].any fun key => (proxy.lookup key).any fun options => options.as_object.isNone)
    "OVERRIDE_MERGE_FAILED: transport options must be a map"
  check_ws_opts proxy
  integer_range proxy "alterId" 65535
  validate_plugin_metadata proxy
  pure (.object proxy)

/-! ## Groups, providers and rules -/

def normalize_group (group : Value) : Result Value := do
  bail_if (!is_group group) "OVERRIDE_MERGE_FAILED: unknown group type"
  let group ← unwrap group.as_object
  let group ← optional_string false group "url"
  let group ← [("proxies", Value.array []), ("interval", number 300), ("tolerance", number 100),
    ("lazy", Value.bool true)].foldlM typed_default group
  integer_range group "interval" (2 ^ 32 - 1)
  integer_range group "tolerance" 65535
  pure (.object group)

def check_provider_url (crates : Crates) (provider : Map) : Result Unit :=
  match (provider.lookup "url").bind Value.as_str with
  | none => pure ()
  | some url => do
    let parsed ← okOr (crates.parse_url url) (.message "invalid provider URL")
    bail_if ((parsed.scheme ≠ "http" && parsed.scheme ≠ "https") || parsed.host_str.isNone) "invalid provider URL"

def normalize_provider (crates : Crates) (entry : String × Value) : Result (String × Value) := do
  let provider ← unwrap entry.2.as_object
  bail_if (!(["type", "behavior", "path"].all fun key => (provider.lookup key).any is_string))
    "OVERRIDE_MERGE_FAILED: provider fields required"
  let provider ← optional_string true provider "url"
  let provider ← typed_default provider ("interval", number 86400)
  integer_range provider "interval" (2 ^ 32 - 1)
  let text := fun key => (provider.lookup key).bind Value.as_str
  bail_if ((provider.lookup "interval").bind Value.as_u64 == some 0 ||
      (text "type" ≠ some "file" && text "type" ≠ some "http") ||
      (text "behavior" ≠ some "domain" && text "behavior" ≠ some "ipcidr" && text "behavior" ≠ some "classical") ||
      text "path" == some "")
    "OVERRIDE_MERGE_FAILED: invalid provider declaration"
  check_provider_url crates provider
  pure (entry.1, .object provider)

def rule_kinds : List String :=
  ["DOMAIN", "DOMAIN-SUFFIX", "DOMAIN-KEYWORD", "IP-CIDR", "IP-CIDR6", "GEOIP", "RULE-SET", "SRC-IP-CIDR", "DST-PORT",
    "SRC-PORT", "PROCESS-NAME", "MATCH"]

def isBlank (c : Char) : Bool :=
  c = ' ' || c = '\t'

/-- One rule: its normal form and whether it is the final one. -/
def normalize_rule (rule : Value) : Result (String × Bool) := do
  let rule ← unwrap rule.as_str
  let fields := str.split (str.trimMatches (fun c => isBlank c || c = '\r' || c = '\n') rule) ','
  let kind := fields.headD ""
  bail_if (kind ∉ rule_kinds) "OVERRIDE_MERGE_FAILED: unknown rule type"
  let count := if kind = "MATCH" then 2 else 3
  bail_if (fields.length < count) "OVERRIDE_MERGE_FAILED: incomplete rule"
  let normalized := ",".intercalate ((fields.take count).map (str.trimMatches isBlank))
  let no_resolve := (fields.drop count).any fun field => str.trimMatches isBlank field == "no-resolve"
  pure (if no_resolve then normalized ++ ",no-resolve" else normalized, kind = "MATCH")

/-- The rules in order; a final rule ends them, and is added where there is none. -/
def normalize_rules : List Value → Result (List Value)
  | [] => pure [.string "MATCH,REJECT"]
  | rule :: rules => do
    let (normalized, final_seen) ← normalize_rule rule
    if final_seen then do
      bail_if (!rules.isEmpty) "OVERRIDE_MERGE_FAILED: MATCH must be last"
      pure [.string normalized]
    else do
      let rules ← normalize_rules rules
      pure (.string normalized :: rules)

/-! ## The whole document -/

def defaults : List (String × Value) :=
  [("port", number 0), ("socks-port", number 0), ("mixed-port", number 0), ("redir-port", number 0),
    ("tproxy-port", number 0), ("allow-lan", .bool false), ("bind-address", .string "*"), ("mode", .string "rule"),
    ("log-level", .string "info"), ("ipv6", .bool true), ("idle-session-check-interval", number 30),
    ("idle-session-timeout", number 30), ("min-idle-session", number 0), ("proxies", .array []),
    ("proxy-groups", .array []), ("rule-providers", .object []), ("rules", .array [])]

/-- Rewrites the items of a list under a key. -/
def update_items (map : Map) (key : String) (f : List Value → Result (List Value)) : Result Map := do
  let items ← unwrap ((map.lookup key).bind Value.as_array)
  let items ← f items
  pure (map.insert key (.array items))

def update_providers (crates : Crates) (map : Map) : Result Map := do
  let providers ← unwrap ((map.lookup "rule-providers").bind Value.as_object)
  let providers ← providers.mapM (normalize_provider crates)
  pure (map.insert "rule-providers" (.object providers))

def normalize_config (crates : Crates) (map : Map) : Result Map := do
  config.validate_anytls_fields (.object map)
  let map ← defaults.foldlM typed_default map
  let map ← ["external-controller", "external-ui", "secret"].foldlM (optional_string true) map
  ["port", "socks-port", "mixed-port", "redir-port", "tproxy-port"].forM fun key => integer_range map key 65535
  integer_range map "min-idle-session" (2 ^ 32 - 1)
  let map ← update_items map "proxies" fun proxies => proxies.mapM normalize_proxy
  let map ← update_items map "proxy-groups" fun groups => groups.mapM normalize_group
  let map ← update_providers crates map
  update_items map "rules" normalize_rules

def config_document (crates : Crates) (source : List UInt8) : Result Map := do
  let value ← document crates source MAX_SOURCE_BYTES
  validate_collections value
  let map ← unwrap value.as_object
  let map ← canonical_plugin_options (split_source_groups map)
  normalize_config crates map

/-! ## The runtime projection -/

/-- The fields a connector of this kind does not read. -/
def unused_fields (kind : Option String) : List String :=
  if kind = some "direct" ∨ kind = some "reject" then
    ["password", "cipher", "uuid", "alterId", "tls", "sni", "skip-cert-verify"]
  else if kind = some "ss" then ["uuid", "alterId", "sni", "skip-cert-verify"]
  else if kind = some "trojan" then ["uuid", "alterId", "cipher", "tls"]
  else []

def runtime_proxy (proxy : Value) : Result Value := do
  let proxy ← unwrap proxy.as_object
  let proxy := proxy.filter fun entry => !((entry.1 = "tls" || entry.1 = "skip-cert-verify") && entry.2.as_bool == some false)
  let proxy := (unused_fields ((proxy.lookup "type").bind Value.as_str)).foldl Map.remove proxy
  pure (.object (if (proxy.lookup "alterId").bind Value.as_u64 = some 0 then proxy.remove "alterId" else proxy))

def runtime_group (group : Value) : Result Value := do
  let group ← unwrap group.as_object
  pure (.object (["url", "interval", "tolerance", "lazy"].foldl Map.remove group))

/-- Fields that are accepted as subscription metadata and are no runtime capability. -/
def metadata_fields : List String :=
  ["dns", "hosts", "sniffer", "profile", "experimental", "unified-delay", "clash-for-android", "redir-port", "tproxy-port",
    "ipv6", "external-ui", "idle-session-check-interval", "idle-session-timeout", "min-idle-session"]

def runtime_bind (map : Map) : Map :=
  if (map.lookup "allow-lan").bind Value.as_bool = some false then map.insert "bind-address" (.string "127.0.0.1") else map

def runtime_source (crates : Crates) (source : List UInt8) : Result String := do
  let map ← config_document crates source
  let map := runtime_bind (metadata_fields.foldl Map.remove map)
  let map ← update_items map "proxy-groups" fun groups => groups.mapM runtime_group
  let map ← update_items map "proxies" fun proxies => proxies.mapM runtime_proxy
  pure (serde_json.to_string (.object map))

end zc.override_script
