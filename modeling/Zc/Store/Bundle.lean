import Zc.Fsutil.Contained
import Zc.Lib.SortBy
import Zc.Override.Normalize
import Zc.Store.Types

/-!
# Bundles

A bundle holds a source, its provider files and the providers it leaves to the runtime. It is
captured from memory or from a directory, and admitted by `catalog_ready`.
-/

namespace zc.store

open SortBy

namespace Platform

def parse_document (platform : Platform) (bytes : List UInt8) : Result Value := do
  ensure (bytes.length ≤ FILE_LIMIT) (.message "SourceTooLarge")
  let text ← okOr (str.from_utf8 bytes) (.message "invalid utf-8")
  config.parse_document platform.crates text

end Platform

/-! ## Admission -/

def validate_deferred_provider (crates : Crates) (name : String) (value : Value) : Result Unit := do
  let map ← okOr value.as_object (.message "InvalidRuleProvider")
  let text := fun key => (value.get key).bind Value.as_str
  ensure (name ≠ "" && str.trim name == name && !name.toList.contains ',' && !name.toList.any str.isControl)
    (.message "InvalidRuleProviderName")
  ensure (map.all fun entry => entry.1 ∈ ["type", "behavior", "url", "path", "interval"]) (.message "InvalidRuleProvider")
  ensure (text "type" ∈ [some "http", some "file"]) (.message "InvalidRuleProviderType")
  ensure (text "behavior" ∈ [some "domain", some "ipcidr", some "classical"]) (.message "InvalidRuleProviderBehavior")
  ensure ((text "path").any fun path => path ≠ "" && !path.toList.contains '\x00') (.message "InvalidRuleProviderPath")
  ensure ((value.get "interval").all fun v => v.as_u64.any fun n => 0 < n && n ≤ 2 ^ 32 - 1)
    (.message "InvalidRuleProviderInterval")
  let url ← okOr (text "url") (.message "InvalidRuleProviderUrl")
  let url ← okOr (crates.parse_url url) (.message "invalid URL")
  ensure ((url.scheme == "http" || url.scheme == "https") && url.host_str.isSome) (.message "InvalidRuleProviderUrl")

/-- Whether a rule sends traffic to a provider. -/
def uses_provider (name : String) (rule : String) : Bool :=
  let fields := (str.split rule ',').map (str.trimMatches override_script.isBlank)
  fields[0]? == some "RULE-SET" && fields[1]? == some name

/-- One remote provider: its declaration is checked and taken out of the document. -/
def defer_remote (crates : Crates) (bundle : Bundle) (document : Value) (remote : RemoteProvider) : Result Value := do
  ensure ((bundle.assets.get remote.logical_path).isNone) (.message "ConflictingProviderAssetPath")
  let rules := ((document.get "rules").bind Value.as_array).getD []
  ensure (!(rules.filterMap Value.as_str).any (uses_provider remote.provider_name))
    (.message "ManagedRemoteRuleProviderUnsupported")
  let providers ← okOr ((document.get "rule-providers").bind Value.as_object) (.message "InvalidRuleProviders")
  let declaration ← okOr (providers.lookup remote.provider_name) (.message "InvalidRuleProviders")
  validate_deferred_provider crates remote.provider_name declaration
  let entries ← okOr document.as_object (.message "InvalidRuleProviders")
  return .object (override_script.Map.insert "rule-providers"
    (.object (override_script.Map.remove providers remote.provider_name)) entries)

namespace Bundle

def local_asset_bytes (bundle : Bundle) : config.Assets :=
  bundle.assets.entries.map fun asset => (asset.1, asset.2.bytes)

def validate_offline (platform : Platform) (bundle : Bundle) (source : String) : Result Unit := do
  let document ← config.parse_document platform.crates source
  let document ← bundle.remotes.foldlM (defer_remote platform.crates bundle) document
  let text ← override_script.runtime_source platform.crates (serde_json.to_vec document)
  let _ ← config.Config.parse_with_assets platform.crates text bundle.local_asset_bytes

end Bundle

def plugin_fields : List String :=
  ["plugin", "plugin-opts", "plugin_opts"]

/-- A Shadowsocks proxy without its plugin. -/
def without_plugin (proxy : Value) : Value :=
  match proxy with
  | .object entries =>
    if (proxy.get "type").bind Value.as_str = some "ss" then .object (plugin_fields.foldl override_script.Map.remove entries)
    else proxy
  | _ => proxy

def has_plugin (proxy : Value) : Bool :=
  (proxy.get "type").bind Value.as_str == some "ss" && plugin_fields.any fun field => (proxy.get field).isSome

/-- The document without Shadowsocks plugins, if it has any. -/
def remove_plugins (document : Value) : Option Value := do
  let entries ← document.as_object
  let proxies ← (document.get "proxies").bind Value.as_array
  if proxies.any has_plugin then
    some (.object (override_script.Map.insert "proxies" (.array (proxies.map without_plugin)) entries))
  else none

namespace Bundle

/-- The recovery case: the raw source is admitted once its Shadowsocks plugins are left out. -/
def recovery_ready (platform : Platform) (bundle : Bundle) (runtime_error : Error) : Result Bool := do
  ensure bundle.materialized.isNone runtime_error
  let document ← platform.parse_document bundle.source
  match remove_plugins document with
  | none => .error runtime_error
  | some document =>
    match bundle.validate_offline platform (serde_json.to_string document) with
    | .ok () => return false
    | .error _ => .error runtime_error

/-- False denotes only the designated raw Shadowsocks plugin recovery case. -/
def catalog_ready (platform : Platform) (bundle : Bundle) : Result Bool := do
  let source ← okOr (str.from_utf8 bundle.effective_source) (.message "invalid utf-8")
  match bundle.validate_offline platform source with
  | .ok () => return true
  | .error runtime_error => bundle.recovery_ready platform runtime_error

end Bundle

end zc.store
