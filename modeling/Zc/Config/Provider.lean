import Zc.Config.Groups

namespace zc.config

def MAX_SOURCE_BYTES : Nat := 16 * 1024 * 1024
def MAX_RULES : Nat := 262144
def MAX_PROVIDERS : Nat := 4096
def MAX_AGGREGATE_BYTES : Nat := 64 * 1024 * 1024

mutual

/-- `exact_json_scalars`: every number is an integer that fits an `i64`. -/
def exact_json_scalars : Value → Bool
  | .number (.PosInt n) => n.toNat < 2 ^ 63
  | .number (.NegInt _) => true
  | .number (.Float _) => false
  | .array items => exact_json_items items
  | .object entries => exact_json_entries entries
  | _ => true

def exact_json_items : List Value → Bool
  | [] => true
  | item :: items => exact_json_scalars item && exact_json_items items

def exact_json_entries : List (String × Value) → Bool
  | [] => true
  | entry :: entries => exact_json_entry entry && exact_json_entries entries

def exact_json_entry : String × Value → Bool
  | (_, value) => exact_json_scalars value

end

/-- Internally serialized documents are JSON and take the first branch. -/
def yaml_value (crates : Crates) (source : String) : Result Value :=
  if str.len source > MAX_SOURCE_BYTES then
    bail "configuration/provider exceeds the 16 MiB source limit"
  else
    let start := str.trimStartMatches str.isWhitespace source
    let json :=
      if str.isAscii source && !source.toList.contains '\x7f' &&
          (str.startsWith start "\x7b" || str.startsWith start "[") then
        (crates.json_document source).filter exact_json_scalars
      else none
    match json with
    | some value => pure value
    | none => do
      let documents ← crates.yaml_documents source
      pure (documents.getLast?.getD .null)

def parse_document (crates : Crates) (source : String) : Result Value := do
  let value ← yaml_value crates source
  bail_if (value.as_object.isNone) "configuration must be a YAML mapping"
  pure value

structure Provider where
  kind : String
  behavior : String
  path : String
  url : Option String
  interval : Nat
  deriving DecidableEq

def Provider.deserialize (value : Value) : Option Provider := do
  let field ← value.fields [["type"], ["behavior"], ["path"], ["url"], ["interval"]]
  let kind ← Value.required Value.as_str (field 0)
  let behavior ← Value.required Value.as_str (field 1)
  let path ← Value.required Value.as_str (field 2)
  let url ← Value.present Value.as_str (field 3)
  let interval ← Value.defaulted 86400 (Value.unsigned (2 ^ 32)) (field 4)
  pure { kind, behavior, path, url, interval }

/-- The declared providers under their names. -/
abbrev Providers := List (String × Provider)

def validate_url (crates : Crates) (url : String) : Result Unit := do
  let url ← okOr (crates.parse_url url) (.message "invalid rule-provider URL")
  bail_if ((url.scheme ≠ "http" && url.scheme ≠ "https") || url.host_str.isNone)
    "rule-provider URL must use HTTP or HTTPS with a host"

def validate_provider (crates : Crates) (entry : String × Provider) : Result Unit := do
  let (name, provider) := entry
  validate_name name
  bail_if ((provider.kind ≠ "file" && provider.kind ≠ "http") ||
      (provider.behavior ≠ "classical" && provider.behavior ≠ "domain" && provider.behavior ≠ "ipcidr") ||
      provider.path = "" || provider.path.toList.contains '\x00' || provider.interval = 0)
    "invalid rule-provider declaration: require file/http, classical/domain/ipcidr, path and positive interval"
  bail_if (provider.kind = "http" && provider.url.isNone) "HTTP rule-provider requires a URL"
  provider.url.forM (validate_url crates)

def validate (crates : Crates) (providers : Providers) : Result Unit := do
  bail_if (providers.length > MAX_PROVIDERS) "rule-provider count limit exceeded"
  providers.forM (validate_provider crates)

def add_budget (total amount max : Nat) (message : String) : Result Nat :=
  if total + amount ≤ max then pure (total + amount) else bail message

/-- The captured provider files, in the order of a `BTreeMap`. -/
abbrev Assets := List (String × List UInt8)

def asset_budget (assets : Assets) : Result Unit := do
  bail_if (assets.length > MAX_PROVIDERS) "rule-provider asset count limit exceeded"
  let _ ← assets.foldlM (fun total asset => do
    bail_if (asset.2.length > MAX_SOURCE_BYTES) "rule-provider file exceeds the 16 MiB source limit"
    add_budget total asset.2.length MAX_AGGREGATE_BYTES
      "rule-provider aggregate source bytes limit exceeded") 0
  pure ()

/-! ## Entries of a provider file -/

def rule_kinds : List String :=
  ["DOMAIN", "DOMAIN-SUFFIX", "DOMAIN-KEYWORD", "IP-CIDR", "IP-CIDR6", "GEOIP", "RULE-SET", "SRC-IP-CIDR",
    "SRC-PORT", "DST-PORT", "PROCESS-NAME", "MATCH"]

/-- A colon directly before white space. -/
def has_key_colon : List Char → Bool
  | a :: b :: rest => (a == ':' && str.isAsciiWhitespace b) || has_key_colon (b :: rest)
  | _ => false

def is_structured (first : String) (lines : List String) : Bool :=
  ["\x7b", "[", "-", "!", "&", "*"].any (str.startsWith first) ||
    lines.any fun line =>
      str.trim line == "..." || has_key_colon line.toList ||
        str.endsWith (str.trimEndMatches str.isWhitespace line) ":"

/-- The entry a line of a plain list stands for, if any. -/
def line_entry (line : String) : Option String :=
  let line := str.trimMatches (fun c => c == ' ' || c == '\t' || c == '\r') line
  if line = "" || str.startsWith line "#" then none
  else if str.len line ≥ 2 && ((str.startsWith line "\"" && str.endsWith line "\"") ||
      (str.startsWith line "'" && str.endsWith line "'")) then
    some (String.ofList (line.toList.drop 1).dropLast)
  else some line

def payload_entry (value : Value) : Result String :=
  okOr value.as_str (.message "rule-provider payload entries must be strings")

def entries (crates : Crates) (source behavior : String) : Result (List String) := do
  let source := (str.stripPrefix source "\ufeff").getD source
  let lines := str.lines source
  let first := ((lines.map str.trim).find? fun line => line ≠ "" && !str.startsWith line "#").getD ""
  let raw_classical := behavior = "classical" &&
    (str.splitOnce first ',').any fun fields => rule_kinds.contains (str.trim fields.1)
  if !raw_classical && is_structured first lines then
    let value ← yaml_value crates source
    let payload ← okOr ((value.get "payload").bind Value.as_array)
      (.message "rule-provider YAML requires a payload sequence")
    payload.mapM payload_entry
  else
    let result := lines.filterMap line_entry
    bail_if (result.length > MAX_RULES) "rule-provider entry count limit exceeded"
    pure result

end zc.config
