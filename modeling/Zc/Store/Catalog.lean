import Zc.Fsutil.SecureDir
import Zc.Lib.SortBy
import Zc.Store.Digest

/-!
# Catalogs

The checks on keys and selections, the JSON records of the catalog, and its canonical bytes.
-/

namespace zc.store

open SortBy

/-- The characters that are neither control characters nor text direction marks. -/
def safe_char (c : Char) : Bool :=
  let n := c.toNat
  !(n ≤ 31 || (127 ≤ n && n ≤ 159) || n == 0x61c || n == 0x200e || n == 0x200f || (0x2028 ≤ n && n ≤ 0x202e) ||
    (0x2066 ≤ n && n ≤ 0x2069) || n == 0xfeff)

def safe_text (s : String) : Bool :=
  s != "" && s.toList.all safe_char

def stored_key (key : String) : Bool :=
  str.len key ≤ 255 && fsutil.single_component key && safe_text key

def valid_key (key : String) : Bool :=
  str.len key ≤ 250 && stored_key key

/-- `validate_selections`; it sorts its argument in place. -/
def validate_selections (selections : List Selection) : Result (List Selection) := do
  ensure (selections.length ≤ 1024) (.message "PersistedSelectionCountLimitExceeded")
  let sorted := sortBy (·.group) selections
  ensure (sorted.all (fun s => safe_text s.group && safe_text s.proxy) && neighbours (fun a b => decide (a.group ≠ b.group)) sorted)
    (.message "InvalidSelections")
  return sorted

/-! ## Records -/

/-- An unsigned 64-bit field. -/
def u64 : Value → Option UInt64
  | .number (.PosInt n) => some n
  | _ => none

def number (n : Nat) : Value :=
  .number (.PosInt (UInt64.ofNat n))

/-- A vector. -/
def items {α : Type} (decode : Value → Option α) (value : Value) : Option (List α) :=
  value.as_array.bind fun items => items.mapM decode

/-- An `Option` field without a default: it may be absent from a mapping, not from a sequence. -/
def nullable {α : Type} (record : Value) (decode : Value → Option α) (field : Option Value) : Option (Option α) :=
  match field with
  | none => if record.as_object.isSome then some none else none
  | some value => value.optional decode

/-- How an `Option` is written. -/
def encode_option {α : Type} (encode : α → Value) : Option α → Value
  | none => .null
  | some value => encode value

namespace Selection

def encode (selection : Selection) : Value :=
  .object [("group", .string selection.group), ("proxy", .string selection.proxy)]

def decode (value : Value) : Option Selection := do
  let field ← value.fields [["group"], ["proxy"]]
  let group ← Value.required Value.as_str (field 0)
  let proxy ← Value.required Value.as_str (field 1)
  return { group, proxy }

end Selection

namespace Desired

def encode (desired : Desired) : Value :=
  .object [("generation", .number (.PosInt desired.generation)), ("selections", .array (desired.selections.map Selection.encode))]

def decode (value : Value) : Option Desired := do
  let field ← value.fields [["generation"], ["selections"]]
  let generation ← Value.required u64 (field 0)
  let selections ← Value.required (items Selection.decode) (field 1)
  return { generation, selections }

end Desired

namespace AutoControllerSecret

def encode (secret : AutoControllerSecret) : Value :=
  .string secret.text

def decode (value : Value) : Option AutoControllerSecret := do
  let text ← value.as_str
  if valid : str.len text = 64 ∧ text.toList.all isHexDigit = true then some { text, valid } else none

end AutoControllerSecret

namespace Profile

def encode (profile : Profile) : Value :=
  .object ([("key", .string profile.key), ("storage_id", .string profile.storage_id), ("head", .string profile.head),
    ("desired", profile.desired.encode)] ++
      match profile.auto_controller_secret with
      | none => []
      | some secret => [("auto_controller_secret", secret.encode)])

def decode (value : Value) : Option Profile := do
  let field ← value.fields [["key"], ["storage_id"], ["head"], ["desired"], ["auto_controller_secret"]]
  let key ← Value.required Value.as_str (field 0)
  let storage_id ← Value.required Value.as_str (field 1)
  let head ← Value.required Value.as_str (field 2)
  let desired ← Value.required Desired.decode (field 3)
  let auto_controller_secret ← Value.defaulted none (Value.optional AutoControllerSecret.decode) (field 4)
  return { key, storage_id, head, desired, auto_controller_secret }

end Profile

namespace ActiveIdentity

def encode (active : ActiveIdentity) : Value :=
  .object [("key", .string active.key), ("revision", .string active.revision)]

def decode (value : Value) : Option ActiveIdentity := do
  let field ← value.fields [["key"], ["revision"]]
  let key ← Value.required Value.as_str (field 0)
  let revision ← Value.required Value.as_str (field 1)
  return { key, revision }

end ActiveIdentity

namespace Catalog

def encode (catalog : Catalog) : Value :=
  .object [("schema_version", number catalog.schema_version), ("sequence", .number (.PosInt catalog.sequence)),
    ("active", encode_option ActiveIdentity.encode catalog.active), ("profiles", .array (catalog.profiles.map Profile.encode))]

def decode (value : Value) : Option Catalog := do
  let field ← value.fields [["schema_version"], ["sequence"], ["active"], ["profiles"]]
  let schema_version ← Value.required (Value.unsigned (2 ^ 32)) (field 0)
  let sequence ← Value.required u64 (field 1)
  let active ← nullable value ActiveIdentity.decode (field 2)
  let profiles ← Value.required (items Profile.decode) (field 3)
  return { schema_version, sequence, active, profiles }

end Catalog

/-! ## Canonical bytes -/

namespace Platform

def canonical_profile (platform : Platform) (p : Profile) : Result Profile := do
  ensure (stored_key p.key && p.storage_id == platform.storage_id p.key) (.message "InvalidCatalog")
  let _ ← unhex p.head 16
  let selections ← validate_selections p.desired.selections
  return { p with desired := { p.desired with selections } }

/-- The catalog that `canonical` writes: profiles and selections in order. -/
def canonical_catalog (platform : Platform) (catalog : Catalog) : Result Catalog := do
  ensure (catalog.schema_version == 2) (.message "InvalidCatalog")
  let sorted := sortBy (·.key) catalog.profiles
  ensure (neighbours (fun a b => decide (a.key ≠ b.key)) sorted) (.message "InvalidCatalog")
  let profiles ← sorted.mapM platform.canonical_profile
  ensure (catalog.active.all fun a => profiles.any fun p => p.key == a.key && p.head == a.revision)
    (.message "InvalidCatalog")
  return { catalog with profiles }

def canonical (platform : Platform) (catalog : Catalog) : Result (List UInt8) := do
  let catalog ← platform.canonical_catalog catalog
  let bytes := line catalog.encode
  ensure (bytes.length ≤ CATALOG_LIMIT) (.message "CatalogTooLarge")
  return bytes

/-- `u64::checked_add(1)`. -/
def checked_succ (n : UInt64) : Option UInt64 :=
  if n.toNat + 1 < 2 ^ 64 then some (n + 1) else none

def canonical_next (platform : Platform) (catalog : Catalog) : Result (List UInt8) := do
  let sequence ← okOr (checked_succ catalog.sequence) (.message "SequenceOverflow")
  platform.canonical { catalog with sequence }

end Platform

end zc.store
