import Zc.Config.Crates
import Zc.Json.Text
import Zc.Lib.SortedMap

/-!
# The records of the store

Schema-2 catalogs and schema-1 immutable revisions.
-/

namespace zc.override_script

def TIMEOUT_MS_DEFAULT : UInt32 := 5000

structure Invocation where
  command : String
  config_path : String
  script_path : String
  timeout_ms : UInt32 := TIMEOUT_MS_DEFAULT
  args : List (String × String) := []

end zc.override_script

namespace zc.store

def FILE_LIMIT : Nat := 16 * 1024 * 1024
def AGGREGATE_LIMIT : Nat := 64 * 1024 * 1024
def CATALOG_LIMIT : Nat := 4 * 1024 * 1024
def MANIFEST_LIMIT : Nat := 1024 * 1024

structure Selection where
  group : String
  proxy : String
  deriving DecidableEq

structure Desired where
  generation : UInt64
  selections : List Selection
  deriving DecidableEq

/-- A persisted automatic credential: 32 bytes in lower-case hexadecimal. -/
structure AutoControllerSecret where
  text : String
  valid : str.len text = 64 ∧ text.toList.all isHexDigit = true
  deriving DecidableEq

structure Profile where
  key : String
  storage_id : String
  head : String
  desired : Desired
  auto_controller_secret : Option AutoControllerSecret
  deriving DecidableEq

structure ActiveIdentity where
  key : String
  revision : String
  deriving DecidableEq

structure Catalog where
  schema_version : Nat
  sequence : UInt64
  active : Option ActiveIdentity
  profiles : List Profile
  deriving DecidableEq

inductive StateFormat where
  | Missing
  | CatalogV2
  deriving DecidableEq

structure StateToken where
  format : StateFormat
  sequence : UInt64
  digest : String
  deriving DecidableEq

structure Param where
  key : String
  value : String
  deriving DecidableEq

structure Metadata where
  url : Option String
  filename : Option String
  params : List Param
  deriving DecidableEq

/-- Frozen execution evidence, independent of the override runner. -/
structure FrozenOverride where
  script_name : String
  script_bytes : List UInt8
  command : String
  config_path : Option String
  timeout_ms : UInt32
  args : List Param
  patch_bytes : List UInt8
  deriving DecidableEq

structure Asset where
  canonical_relative_target : String
  bytes : List UInt8
  deriving DecidableEq

structure RemoteProvider where
  provider_name : String
  logical_path : String
  remote_deferred : Bool
  deriving DecidableEq

structure Bundle where
  source : List UInt8
  materialized : Option (List UInt8)
  assets : SortedMap String Asset
  remotes : List RemoteProvider
  deriving DecidableEq

structure RevisionView where
  key : String
  storage_id : String
  revision : String
  content_digest : String
  metadata : Metadata
  frozen_override : Option FrozenOverride
  bundle : Bundle
  deriving DecidableEq

/-- What is outside the crate: the parsers of the configuration, SHA-256 and `serde_json`. Its
    `from_slice` gives the members of an object in order with repeated ones kept, and reads back
    what `to_vec` wrote. -/
structure Platform where
  crates : Crates
  sha256 : List UInt8 → List UInt8
  length_sha256 : ∀ bytes, (sha256 bytes).length = 32
  from_slice : List UInt8 → Option Value
  from_slice_line : ∀ value, value.Plain 127 → from_slice (serde_json.to_vec value ++ [10]) = some value

/-- `line`. -/
def line (value : Value) : List UInt8 :=
  serde_json.to_vec value ++ [10]

namespace Bundle

def effective_source (bundle : Bundle) : List UInt8 :=
  bundle.materialized.getD bundle.source

def aggregate (bundle : Bundle) : Nat :=
  bundle.source.length + (bundle.materialized.map List.length).getD 0 +
    (bundle.assets.entries.map fun asset => asset.2.bytes.length).sum

end Bundle

end zc.store
