import Zc.Store.Bundle
import Zc.Store.Catalog

/-!
# Store operations

How the authority is read, and the checks of a publication with the catalog it commits.
-/

namespace zc.store

open SortBy
open fsutil (Fs)

/-! ## Reading the authority -/

namespace Platform

/-- The last member of an object under a name, which is the one `serde_json::Value` keeps. -/
def last_member (document : Value) (key : String) : Option Value :=
  document.as_object.bind fun entries => entries.reverse.lookup key

/-- A state file that is not schema 2. -/
def foreign_schema (schema : Nat) : Error :=
  if schema = 1 then .store .LegacyTakeoverRequired else .store (.UnknownFormat schema)

def decode_state (platform : Platform) (bytes : List UInt8) : Result (StateToken × Catalog) := do
  let document ← okOr (platform.from_slice bytes) (.store .CorruptCatalog)
  let schema ← okOr ((last_member document "schema_version").bind Value.as_u64) (.store .CorruptCatalog)
  ensure (schema == 2) (foreign_schema schema)
  let catalog ← okOr (Catalog.decode document) (.store .CorruptCatalog)
  let encoded ← mapErr (.store .CorruptCatalog) (platform.canonical catalog)
  ensure (encoded == bytes) (.store .CorruptCatalog)
  return (platform.token (some bytes) catalog.sequence, catalog)

def empty_catalog : Catalog :=
  { schema_version := 2, sequence := 0, active := none, profiles := [] }

def missing_state (platform : Platform) (fs : Fs) : Result (StateToken × Catalog) := do
  ensure ((fs.lookup 0 "meta.json").isNone && (fs.lookup 0 "configs").isNone) (.store .LegacyTakeoverRequired)
  return (platform.token none 0, empty_catalog)

/-- `Store::inspect` without the flag of the store. -/
def inspect (platform : Platform) (fs : Fs) : Result (StateToken × Catalog) :=
  match fs.read 0 "state-v2.json" CATALOG_LIMIT with
  | .ok bytes => platform.decode_state bytes
  | .error (.io .NotFound _) => platform.missing_state fs
  | .error error => .error (.context (.store .CorruptCatalog) error)

end Platform

/-- What `publish_revision` writes. -/
structure Release where
  key : String
  revision : String
  content : List UInt8
  bundle : Bundle
  metadata : Metadata
  frozen : Option FrozenOverride

/-! ## Checks -/

def validate_metadata (metadata : Metadata) : Result Unit :=
  ensure (metadata.params.all (fun p => p.key != "") && neighbours (fun a b => decide (a.key < b.key)) metadata.params)
    (.message "InvalidMetadata")

def has_nul (s : String) : Bool :=
  s.toList.contains '\x00'

def frozen_ok (v : FrozenOverride) : Bool :=
  fsutil.single_component v.script_name && !v.script_bytes.isEmpty && v.script_bytes.length ≤ MANIFEST_LIMIT &&
    v.patch_bytes.length ≤ MANIFEST_LIMIT && v.command != "" && !has_nul v.command && v.config_path.all (fun s => !has_nul s) &&
    v.args.all fun a => a.key != "" && !has_nul a.key && !has_nul a.value

def validate_override (bundle : Bundle) (frozen : Option FrozenOverride) : Result Unit :=
  match frozen with
  | none => .ok ()
  | some v => do
    ensure bundle.materialized.isSome (.message "OverrideMaterializationMismatch")
    ensure (frozen_ok v) (.message "InvalidOverrideMaterialization")

/-! ## The next catalog -/

namespace Catalog

def find (catalog : Catalog) (key : String) : Option Profile :=
  catalog.profiles.find? fun p => p.key == key

/-- Changes the first profile under a key. -/
def update (catalog : Catalog) (key : String) (f : Profile → Profile) : Catalog :=
  { catalog with profiles := go catalog.profiles }
where
  go : List Profile → List Profile
    | [] => []
    | p :: rest => if p.key = key then f p :: rest else p :: go rest

def is_active (catalog : Catalog) (key : String) : Bool :=
  catalog.active.any fun a => a.key == key

end Catalog

/-- What an operation that writes a revision will publish and commit. -/
structure Publication where
  catalog : Catalog
  release : Release

/-- Whether the new document still offers a selection. -/
def offers (document : Value) (selection : Selection) : Bool :=
  (["proxies", "proxy-groups"].flatMap fun key => ((document.get key).bind Value.as_array).getD []).any fun group =>
    (group.get "name").bind Value.as_str == some selection.group &&
      (((group.get "proxies").bind Value.as_array).any fun members =>
        members.any fun member => member.as_str == some selection.proxy)

/-- The selections a new revision keeps; losing one is a new generation. -/
def retain_selections (document : Value) (desired : Desired) : Result Desired :=
  let kept := desired.selections.filter (offers document)
  if kept.length = desired.selections.length then .ok { desired with selections := kept }
  else do
    let generation ← okOr (Platform.checked_succ desired.generation) (.message "GenerationOverflow")
    return { generation, selections := kept }

structure PublishArgs where
  key : String
  expected_head : Option String
  bundle : Bundle
  metadata : Metadata
  frozen : Option FrozenOverride
  activate : Bool

namespace Platform

/-- The checks of `publish_frozen` and the catalog it commits. -/
def plan_publish (platform : Platform) (catalog : Catalog) (args : PublishArgs) : Result Publication := do
  let old := catalog.find args.key
  ensure (old.map (·.head) == args.expected_head) (.store .Conflict)
  ensure (if old.isNone then valid_key args.key else stored_key args.key) (.message "InvalidKey")
  let ready ← args.bundle.catalog_ready platform
  let active := args.activate || catalog.is_active args.key
  ensure (!active || ready) (.store .ProfileNotRuntimeReady)
  let metadata := { args.metadata with params := sortBy (·.key) args.metadata.params }
  validate_metadata metadata
  validate_override args.bundle args.frozen
  let content := platform.content_digest args.key args.bundle metadata args.frozen
  let revision := platform.revision_id args.key content
  let document ← platform.parse_document args.bundle.effective_source
  let desired ← retain_selections document ((old.map (·.desired)).getD ⟨0, []⟩)
  let profile : Profile :=
    { key := args.key, storage_id := platform.storage_id args.key, head := revision, desired,
      auto_controller_secret := old.bind (·.auto_controller_secret) }
  let listed := if old.isSome then catalog.update args.key fun _ => profile
    else { catalog with profiles := catalog.profiles ++ [profile] }
  let next := if active then { listed with active := some ⟨args.key, revision⟩ } else listed
  let _ ← platform.canonical_next next
  return { catalog := next, release := { key := args.key, revision, content, bundle := args.bundle, metadata, frozen := args.frozen } }

end Platform

end zc.store
