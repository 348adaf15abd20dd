import Zc.Config.Parse
import Zc.Json.Text

/-!
# Documents of the override writer

The part of `override_script.rs` that reads a source document and checks its collections. Maps are
changed in place in the source; here each change is a function of the entries.
-/

namespace zc.override_script

def MAX_SOURCE_BYTES : Nat := 16 * 1024 * 1024
def MAX_COLLECTION_ENTRIES : Nat := 262144

/-- `serde_json::Map`. -/
abbrev Map := List (String × Value)

namespace Map

def insert (key : String) (value : Value) : Map → Map
  | [] => [(key, value)]
  | entry :: entries =>
    if key = entry.1 then (key, value) :: entries
    else if key < entry.1 then (key, value) :: entry :: entries
    else entry :: insert key value entries

def remove (map : Map) (key : String) : Map :=
  map.filter fun entry => entry.1 != key

def contains_key (map : Map) (key : String) : Bool :=
  map.any fun entry => entry.1 == key

end Map

def is_string (value : Value) : Bool :=
  value.as_str.isSome

/-- `Option::unwrap` on a shape that was checked before. -/
def unwrap {α : Type} (value : Option α) : Result α :=
  okOr value (.panic "called `Option::unwrap()` on a `None` value")

mutual

/-- `count_entries`; what remains of the budget. -/
def count_entries (value : Value) (remaining : Nat) : Result Nat :=
  match value with
  | .array items => do
    bail_if (items.length > remaining) "OVERRIDE_OUTPUT_INVALID: collection entry limit exceeded"
    count_items items (remaining - items.length)
  | .object entries => do
    bail_if (entries.length > remaining) "OVERRIDE_OUTPUT_INVALID: collection entry limit exceeded"
    count_values entries (remaining - entries.length)
  | _ => pure remaining

def count_items (items : List Value) (remaining : Nat) : Result Nat :=
  match items with
  | [] => pure remaining
  | item :: items => do
    let remaining ← count_entries item remaining
    count_items items remaining

def count_values (entries : List (String × Value)) (remaining : Nat) : Result Nat :=
  match entries with
  | [] => pure remaining
  | (_, value) :: entries => do
    let remaining ← count_entries value remaining
    count_values entries remaining

end

def document (crates : Crates) (bytes : List UInt8) (limit : Nat) : Result Value := do
  bail_if (bytes.length > limit) "OVERRIDE_OUTPUT_INVALID: document byte limit exceeded"
  let text ← okOr (str.from_utf8 bytes) (.message "OVERRIDE_OUTPUT_INVALID: YAML must be UTF-8")
  let value ← mapErr (.message "OVERRIDE_OUTPUT_INVALID: invalid YAML mapping, duplicate key or resource limit")
    (config.parse_document crates text)
  bail_if value.as_object.isNone "OVERRIDE_OUTPUT_INVALID: expected a YAML mapping"
  let _ ← count_entries value MAX_COLLECTION_ENTRIES
  pure value

def is_group (value : Value) : Bool :=
  (value.get "type").bind Value.as_str |>.any
    fun kind => kind ∈ ["select", "url-test", "fallback", "load-balance", "relay"]

/-! ## Collections -/

def validate_members (item : Value) : Result Unit :=
  match item.get "proxies" with
  | none => pure ()
  | some members => do
    let members ← okOr members.as_array (.message "OVERRIDE_MERGE_FAILED: group proxies must be a list")
    bail_if (members.length > 5122) "OVERRIDE_MERGE_FAILED: proxy-group member limit exceeded"
    bail_if (!members.all is_string) "OVERRIDE_MERGE_FAILED: group members must be strings"

def validate_item (field : String) (item : Value) : Result Unit :=
  if field = "rules" then
    bail_if (!is_string item) "OVERRIDE_MERGE_FAILED: rules must contain strings"
  else do
    bail_if (item.as_object.isNone || !(item.get "name").any is_string || !(item.get "type").any is_string)
      "OVERRIDE_MERGE_FAILED: proxy/group requires name and type strings"
    validate_members item

def validate_collection (value : Value) (collection : String × Nat) : Result Unit :=
  match value.get collection.1 with
  | none => pure ()
  | some list => do
    let list ← okOr list.as_array (.message ("OVERRIDE_MERGE_FAILED: " ++ collection.1 ++ " must be a list"))
    bail_if (list.length > collection.2) ("OVERRIDE_MERGE_FAILED: " ++ collection.1 ++ " collection limit exceeded")
    list.forM (validate_item collection.1)

def validate_providers (value : Value) : Result Unit :=
  match value.get "rule-providers" with
  | none => pure ()
  | some providers => do
    let providers ← okOr providers.as_object (.message "OVERRIDE_MERGE_FAILED: rule-providers must be a map")
    bail_if (providers.length > 4096) "OVERRIDE_MERGE_FAILED: rule-provider count limit exceeded"
    bail_if (!providers.all fun provider => provider.2.as_object.isSome)
      "OVERRIDE_MERGE_FAILED: rule-providers must contain maps"

def validate_collections (value : Value) : Result Unit := do
  [("proxies", 5120), ("proxy-groups", 1024), ("rules", 262144)].forM (validate_collection value)
  let mixed := ((value.get "proxies").bind Value.as_array).getD []
  let groups := (mixed.filter is_group).length
  let declared := (((value.get "proxy-groups").bind Value.as_array).getD []).length
  bail_if (mixed.length - groups > 4096 || groups + declared > 1024)
    "OVERRIDE_MERGE_FAILED: proxy/group count limit exceeded"
  validate_providers value

/-- The groups among the proxies go in front of the declared groups. -/
def split_source_groups (map : Map) : Map :=
  let proxies := (map.lookup "proxies").bind Value.as_array
  let groups := (proxies.getD []).filter is_group
  let map := match proxies with
    | some proxies => map.insert "proxies" (.array (proxies.filter fun item => !is_group item))
    | none => map
  if groups.isEmpty then map
  else
    let declared := ((map.lookup "proxy-groups").bind Value.as_array).getD []
    (map.remove "proxy-groups").insert "proxy-groups" (.array (groups ++ declared))

/-! ## Plugin options -/

/-- The alias `plugin_opts` becomes `plugin-opts`. -/
def canonical_plugin_alias (proxy : Map) : Result Map :=
  match proxy.lookup "plugin_opts" with
  | none => pure proxy
  | some options => do
    let proxy := proxy.remove "plugin_opts"
    bail_if (proxy.contains_key "plugin-opts") "OVERRIDE_MERGE_FAILED: duplicate plugin options aliases"
    pure (proxy.insert "plugin-opts" options)

def check_plugin_options (proxy : Map) : Result Unit :=
  match proxy.lookup "plugin-opts" with
  | none => pure ()
  | some options => do
    let options ← okOr options.as_object (.message "OVERRIDE_MERGE_FAILED: plugin options must be a mapping")
    bail_if (options.any fun option => (option.1 ≠ "mode" && option.1 ≠ "host") || !is_string option.2)
      "OVERRIDE_MERGE_FAILED: unsupported plugin options"

def canonical_plugin_proxy (proxy : Value) : Result Value := do
  let proxy ← okOr proxy.as_object (.message "OVERRIDE_MERGE_FAILED: invalid proxy mapping")
  let proxy ← canonical_plugin_alias proxy
  check_plugin_options proxy
  pure (.object proxy)

def canonical_plugin_options (map : Map) : Result Map :=
  match (map.lookup "proxies").bind Value.as_array with
  | none => pure map
  | some proxies => do
    let proxies ← proxies.mapM canonical_plugin_proxy
    pure (map.insert "proxies" (.array proxies))

end zc.override_script
