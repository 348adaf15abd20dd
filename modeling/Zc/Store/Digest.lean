import Zc.Store.Types

/-!
# Digests

What `store.rs` feeds to SHA-256. The hasher takes its input in pieces; here the pieces are
concatenated to the stream it sees.
-/

namespace zc.store

/-- `u64::to_be_bytes`. -/
def to_be_bytes (n : Nat) : List UInt8 :=
  [56, 48, 40, 32, 24, 16, 8, 0].map fun shift => UInt8.ofNat (n / 2 ^ shift)

def hash_u64 (n : Nat) : List UInt8 :=
  to_be_bytes n

def hash_bytes (bytes : List UInt8) : List UInt8 :=
  hash_u64 bytes.length ++ bytes

def hash_optional : Option String → List UInt8
  | none => [0]
  | some s => 1 :: hash_bytes (str.bytes s)

def hash_params (params : List Param) : List UInt8 :=
  params.flatMap fun p => hash_bytes (str.bytes p.key) ++ hash_bytes (str.bytes p.value)

namespace Platform

def storage_id (platform : Platform) (key : String) : String :=
  hex (platform.sha256 (str.bytes "zc.profile-storage.v1" ++ hash_bytes (str.bytes key)))

def revision_id (platform : Platform) (key : String) (content : List UInt8) : String :=
  let incarnation := platform.sha256 (str.bytes "zc.migration-incarnation.v1" ++ hash_bytes (str.bytes key) ++ content)
  hex ((platform.sha256 (str.bytes "zc.revision.v1" ++ content ++ incarnation)).take 16)

def hash_content (platform : Platform) (bytes : List UInt8) : List UInt8 :=
  hash_u64 bytes.length ++ platform.sha256 bytes

def hash_frozen (v : FrozenOverride) : List UInt8 :=
  str.bytes "zc.override-materialization.v1" ++ hash_bytes (str.bytes v.script_name) ++ hash_bytes v.script_bytes ++
    hash_bytes (str.bytes v.command) ++ hash_optional v.config_path ++ hash_u64 v.timeout_ms.toNat ++
    hash_params v.args ++ hash_u64 v.args.length ++ hash_bytes v.patch_bytes

def hash_bundle (platform : Platform) (bundle : Bundle) : List UInt8 :=
  platform.hash_content bundle.source ++
    (match bundle.materialized with
      | none => [0]
      | some bytes => 1 :: platform.hash_content bytes) ++
    hash_u64 bundle.aggregate ++
    (bundle.assets.entries.flatMap fun asset =>
      hash_bytes (str.bytes asset.1) ++ hash_bytes (str.bytes asset.2.canonical_relative_target) ++
        platform.hash_content asset.2.bytes) ++
    hash_u64 bundle.assets.entries.length ++
    (bundle.remotes.flatMap fun r => hash_bytes (str.bytes r.provider_name) ++ hash_bytes (str.bytes r.logical_path)) ++
    hash_u64 bundle.remotes.length

/-- The stream `content_digest` feeds to the outer hash. -/
def content_stream (platform : Platform) (key : String) (bundle : Bundle) (metadata : Metadata)
    (frozen : Option FrozenOverride) : List UInt8 :=
  str.bytes "zc.revision-content.v1" ++ hash_bytes (str.bytes key) ++ hash_optional metadata.url ++
    hash_optional metadata.filename ++ hash_params metadata.params ++ hash_u64 metadata.params.length ++
    (match frozen with
      | none => []
      | some v => hash_frozen v) ++
    platform.hash_bundle bundle

def content_digest (platform : Platform) (key : String) (bundle : Bundle) (metadata : Metadata)
    (frozen : Option FrozenOverride) : List UInt8 :=
  platform.sha256 (platform.content_stream key bundle metadata frozen)

def token (platform : Platform) (bytes : Option (List UInt8)) (sequence : UInt64) : StateToken :=
  match bytes with
  | some bytes =>
    { format := .CatalogV2
      sequence
      digest := hex (platform.sha256 (str.bytes "zc.state-token.v1" ++ hash_bytes bytes)) }
  | none =>
    { format := .Missing
      sequence
      digest := hex (platform.sha256 (str.bytes "zc.state.missing.v1")) }

end Platform

end zc.store
