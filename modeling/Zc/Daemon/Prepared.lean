import Zc.Config.Selection
import Zc.Daemon.Descriptor
import Zc.Override.Normalize

/-!
# Prepared configurations

What an instance is started from: the frozen source with its assets, its identity in the catalog
and the selections, as the record a snapshot file holds.
-/

namespace zc.override_script

structure OverrideArg where
  key : String
  value : String
  deriving DecidableEq

structure CliOptions where
  script_path : Option String := none
  timeout_ms : UInt32 := TIMEOUT_MS_DEFAULT
  args : List OverrideArg := []
  deriving DecidableEq

end zc.override_script

namespace zc.daemon

open Value store
open override_script (OverrideArg CliOptions)

structure Prepared where
  source : String
  assets : SortedMap String String
  identity : Option ActiveIdentity
  generation : UInt64
  selections : List Selection
  invocation : daemon.Invocation
  port : UInt16
  override_options : CliOptions
  controller_secret : Option AutoControllerSecret

structure Snapshot where
  schema_version : UInt32
  nonce : String
  prepared : Prepared

def SNAPSHOT_LIMIT : Nat := 6 * (FILE_LIMIT + AGGREGATE_LIMIT) + 1024 * 1024

/-! ## The configuration of a prepared record -/

/-- One turn of the loop of `selection_map`. -/
def selection_entry (map : SortedMap String String) (entry : Selection) : Result (SortedMap String String) := do
  ensure ((map.get entry.group).isNone) (.message "duplicate selection")
  return map.insert entry.group entry.proxy

def selection_map (selections : List Selection) : Result (SortedMap String String) := do
  ensure (selections.length ≤ 1024) (.message "selection count limit exceeded")
  selections.foldlM selection_entry .empty

def controller_requires_auth (cfg : config.Config) : Bool :=
  cfg.controller.any fun address => address.ip.is_unspecified

def validate_controller_auth (cfg : config.Config) : Result Unit :=
  bail_if (controller_requires_auth cfg && cfg.secret == "")
    "START_CONTROLLER_SECRET_REQUIRED: 0.0.0.0 controller requires a nonempty secret; configure secret or load a managed profile for automatic authentication"

/-- `controller_client_endpoint`, as text. -/
def client_endpoint (cfg : config.Config) : Option String :=
  cfg.controller.map fun address => localhost_text address.port

def apply_controller_secret (prepared : Prepared) (cfg : config.Config) : Result config.Config :=
  match prepared.controller_secret with
  | none => .ok cfg
  | some secret => do
    ensure (prepared.identity.any valid_identity && cfg.controller.isSome && cfg.secret == "")
      (.message "START_SNAPSHOT_INVALID: invalid controller secret overlay")
    return { cfg with secret := secret.text }

/-- The checks of `parse_config` before it parses. -/
def check_prepared (prepared : Prepared) : Result Unit := do
  ensure (str.len prepared.source ≤ FILE_LIMIT && prepared.assets.entries.length ≤ 4096 &&
      (prepared.assets.entries.map fun asset => str.len asset.2).sum ≤ AGGREGATE_LIMIT)
    (.message "START_CONFIG_INVALID: prepared source limit exceeded")
  ensure (prepared.identity.all valid_identity) (.message "START_CONFIG_INVALID: invalid prepared identity")
  ensure (prepared.port != 0) (.message "START_PORT_INVALID: port must be nonzero")
  ensure (prepared.identity.isSome || prepared.generation == 0) (.message "START_FAILED: unmanaged generation")

def parse_config (platform : Platform) (prepared : Prepared) : Result config.Config := do
  check_prepared prepared
  let assets := prepared.assets.entries.map fun asset => (asset.1, str.bytes asset.2)
  let runtime_source ← override_script.runtime_source platform.crates (str.bytes prepared.source)
  let cfg ← withContext (.message "START_CONFIG_INVALID: invalid prepared configuration")
    (config.Config.parse_with_assets platform.crates runtime_source assets)
  let cfg ← apply_controller_secret prepared cfg
  validate_controller_auth cfg
  let selections ← selection_map prepared.selections
  let cfg ← cfg.set_selections selections.entries
  ensure (cfg.controller.all fun address => address.port != prepared.port)
    (.message "START_PORT_CONFLICT: mixed and controller ports must differ")
  return cfg

def hmac (platform : Platform) (key bytes : List UInt8) : String :=
  let pad := fun byte : UInt8 => ((key ++ List.replicate (64 - key.length) 0).map (· ^^^ byte))
  hex (platform.sha256 (pad 0x5c ++ platform.sha256 (pad 0x36 ++ bytes)))

def snapshot_name (mac nonce : String) : String :=
  "zc.prepared." ++ mac ++ "." ++ nonce ++ ".snapshot"

/-- The snapshot of a prepared record. -/
def snapshot_of (prepared : Prepared) (nonce : String) : Snapshot :=
  { schema_version := if prepared.controller_secret.isSome then 2 else 1, nonce, prepared }

/-- The five parts of the name of a prepared file. -/
def prepared_parts (name : String) (kind : String) (nonce : String → Bool) : Option String :=
  match str.split name '.' with
  | ["zc", "prepared", mac, part, last] => if valid_hex mac 64 && nonce part && last == kind then some mac else none
  | _ => none

/-! ## The JSON record -/

/-- The fields of a derived `Deserialize` that ignores unknown ones. -/
def known_fields (names : List (List String)) : Value → Option (Nat → Option Value)
  | .object entries => (Value.object (entries.filter fun entry => names.any (·.contains entry.1))).fields names
  | value => value.fields names

namespace OverrideArg

def encode (arg : OverrideArg) : Value :=
  .object [("key", .string arg.key), ("value", .string arg.value)]

def decode (value : Value) : Option OverrideArg := do
  let field ← known_fields [["key"], ["value"]] value
  let key ← Value.required Value.as_str (field 0)
  let value ← Value.required Value.as_str (field 1)
  return { key, value }

end OverrideArg

namespace CliOptions

def encode (options : CliOptions) : Value :=
  .object [("script_path", encode_option .string options.script_path), ("timeout_ms", number options.timeout_ms.toNat),
    ("args", .array (options.args.map OverrideArg.encode))]

def decode (value : Value) : Option CliOptions := do
  let field ← known_fields [["script_path"], ["timeout_ms"], ["args"]] value
  let script_path ← nullable value Value.as_str (field 0)
  let timeout_ms ← Value.required u32 (field 1)
  let args ← Value.required (items OverrideArg.decode) (field 2)
  return { script_path, timeout_ms, args }

end CliOptions

/-- `BTreeMap<String, String>`: the last of repeated members counts. -/
def decode_assets (value : Value) : Option (SortedMap String String) := do
  let entries ← value.as_object
  entries.foldlM (fun map entry => do return map.insert entry.1 (← entry.2.as_str)) .empty

namespace Prepared

/-- The members before the optional one. -/
def entries (prepared : Prepared) : List (String × Value) :=
  [("source", .string prepared.source),
    ("assets", .object (prepared.assets.entries.map fun asset => (asset.1, .string asset.2))),
    ("identity", encode_option ActiveIdentity.encode prepared.identity),
    ("generation", .number (.PosInt prepared.generation)),
    ("selections", .array (prepared.selections.map Selection.encode)), ("invocation", prepared.invocation.encode),
    ("port", number prepared.port.toNat), ("override_options", CliOptions.encode prepared.override_options)]

def encode (prepared : Prepared) : Value :=
  .object (prepared.entries ++
    match prepared.controller_secret with
    | none => []
    | some secret => [("controller_secret", secret.encode)])

def decode (value : Value) : Option Prepared := do
  let field ← value.fields [["source"], ["assets"], ["identity"], ["generation"], ["selections"], ["invocation"], ["port"],
    ["override_options"], ["controller_secret"]]
  let source ← Value.required Value.as_str (field 0)
  let assets ← Value.required decode_assets (field 1)
  let identity ← nullable value ActiveIdentity.decode (field 2)
  let generation ← Value.required u64 (field 3)
  let selections ← Value.required (items Selection.decode) (field 4)
  let invocation ← Value.required daemon.Invocation.decode (field 5)
  let port ← Value.required u16 (field 6)
  let override_options ← Value.required CliOptions.decode (field 7)
  let controller_secret ← Value.present AutoControllerSecret.decode (field 8)
  return { source, assets, identity, generation, selections, invocation, port, override_options, controller_secret }

end Prepared

namespace Snapshot

def encode (snapshot : Snapshot) : Value :=
  .object [("schema_version", number snapshot.schema_version.toNat), ("nonce", .string snapshot.nonce),
    ("prepared", snapshot.prepared.encode)]

def decode (value : Value) : Option Snapshot := do
  let field ← value.fields [["schema_version"], ["nonce"], ["prepared"]]
  let schema_version ← Value.required u32 (field 0)
  let nonce ← Value.required Value.as_str (field 1)
  let prepared ← Value.required Prepared.decode (field 2)
  return { schema_version, nonce, prepared }

end Snapshot

/-! ## Snapshots read back -/

theorem known_fields_record {names : List (List String)} {entries : List (String × Value)}
    {field : Nat → Option Value} (hfields : (Value.object entries).fields names = some field) :
    known_fields names (.object entries) = some field := by
  have hall : ∀ entry ∈ entries, (names.any (·.contains entry.1)) = true := by
    simp only [Value.fields] at hfields
    split at hfields
    · next hcond => exact List.all_eq_true.1 hcond.1
    · cases hfields
  rw [known_fields, List.filter_eq_self.2 hall, hfields]

theorem OverrideArg.decode_encode (arg : OverrideArg) : OverrideArg.decode (OverrideArg.encode arg) = some arg := by
  obtain ⟨field, hfield, hindex⟩ := fields_record ["key", "value"]
    ([("key", .string arg.key), ("value", .string arg.value)]) (by decide) (by simp)
  unfold decode encode
  simp only [List.map_cons, List.map_nil] at hfield
  rw [known_fields_record hfield]
  simp [hindex, required, as_str]

theorem CliOptions.decode_encode (options : CliOptions) : CliOptions.decode (CliOptions.encode options) = some options := by
  obtain ⟨field, hfield, hindex⟩ := fields_record ["script_path", "timeout_ms", "args"]
    ([("script_path", encode_option .string options.script_path), ("timeout_ms", number options.timeout_ms.toNat),
      ("args", .array (options.args.map OverrideArg.encode))]) (by decide) (by simp)
  have hargs := items_map fun arg (_ : arg ∈ options.args) => OverrideArg.decode_encode arg
  unfold decode encode
  simp only [List.map_cons, List.map_nil] at hfield
  rw [known_fields_record hfield]
  simp [hindex, required, nullable_string, u32_number, hargs]

theorem decode_assets_encode (assets : SortedMap String String) :
    decode_assets (.object (assets.entries.map fun asset => (asset.1, .string asset.2))) = some assets := by
  suffices hfold : ∀ (todo : List (String × String)) (map : SortedMap String String),
      (map.entries ++ todo).Pairwise (fun entry entry' => entry.1 < entry'.1) →
      ∃ final, (todo.map fun asset => (asset.1, Value.string asset.2)).foldlM (fun map entry => do
        return SortedMap.insert map entry.1 (← entry.2.as_str)) map = some final ∧ final.entries = map.entries ++ todo by
    obtain ⟨final, hfinal, hentries⟩ := hfold assets.entries .empty assets.sorted
    rw [decode_assets]
    simp only [as_object, Option.bind_eq_bind, Option.bind_some]
    exact hfinal.trans (congrArg some (SortedMap.ext hentries))
  intro todo
  induction todo with
  | nil => exact fun map _ => ⟨map, rfl, (List.append_nil _).symm⟩
  | cons entry todo ih =>
    intro map hsorted
    have hlt : ∀ other ∈ map.entries, other.1 < entry.1 := fun other hother =>
      (List.pairwise_append.1 hsorted).2.2 other hother entry List.mem_cons_self
    have hentries : (map.insert entry.1 entry.2).entries = map.entries ++ [(entry.1, entry.2)] :=
      SortedMap.entries_insert_of_lt hlt
    obtain ⟨final, hfinal, heq⟩ := ih (map.insert entry.1 entry.2) (by
      rwa [hentries, List.append_assoc, List.singleton_append])
    refine ⟨final, ?_, by rw [heq, hentries, List.append_assoc, List.singleton_append]⟩
    rw [List.map_cons, List.foldlM_cons]
    exact hfinal

theorem Prepared.decode_encode (prepared : Prepared) : Prepared.decode prepared.encode = some prepared := by
  have hidentity : nullable prepared.encode ActiveIdentity.decode
      (some (encode_option ActiveIdentity.encode prepared.identity)) = some prepared.identity :=
    nullable_encode _ fun identity _ => ⟨rfl, identity.decode_encode⟩
  have hselections := items_map fun selection (_ : selection ∈ prepared.selections) => selection.decode_encode
  have hfields : ∃ field, prepared.encode.fields [["source"], ["assets"], ["identity"], ["generation"], ["selections"],
      ["invocation"], ["port"], ["override_options"], ["controller_secret"]] = some field ∧
      (∀ index < 8, field index = (prepared.entries[index]?).map Prod.snd) ∧
      field 8 = prepared.controller_secret.map AutoControllerSecret.encode := by
    obtain ⟨field, hfield, hindex⟩ := fields_record ["source", "assets", "identity", "generation", "selections", "invocation",
      "port", "override_options", "controller_secret"]
      (prepared.entries ++ match prepared.controller_secret with
        | none => []
        | some secret => [("controller_secret", secret.encode)]) (by decide) (by
          cases prepared.controller_secret with
          | none => exact ⟨["controller_secret"], rfl⟩
          | some secret => exact ⟨[], rfl⟩)
    refine ⟨field, hfield, ?_, ?_⟩
    · intro index hlt
      rw [hindex, List.getElem?_append_left hlt]
    · rw [hindex]
      cases prepared.controller_secret <;> rfl
  obtain ⟨field, hfield, hindex, hsecret⟩ := hfields
  have hpresent : present AutoControllerSecret.decode (prepared.controller_secret.map AutoControllerSecret.encode) =
      some prepared.controller_secret := by
    cases prepared.controller_secret with
    | none => rfl
    | some secret => rw [Option.map_some, present, secret.decode_encode, Option.map_some]
  unfold decode
  rw [hfield]
  simp [hindex, hsecret, hpresent, entries, required, as_str, u64, u16_number, decode_assets_encode, hidentity, hselections,
    daemon.Invocation.decode_encode, CliOptions.decode_encode]

theorem Snapshot.decode_encode (snapshot : Snapshot) : Snapshot.decode snapshot.encode = some snapshot := by
  obtain ⟨field, hfield, hindex⟩ := fields_record ["schema_version", "nonce", "prepared"]
    ([("schema_version", number snapshot.schema_version.toNat), ("nonce", .string snapshot.nonce),
      ("prepared", snapshot.prepared.encode)]) (by decide) (by simp)
  unfold decode encode
  simp only [List.map_cons, List.map_nil] at hfield
  rw [hfield]
  simp [hindex, required, as_str, u32_number, Prepared.decode_encode]

theorem CliOptions.plain_encode (options : CliOptions) : (CliOptions.encode options).Plain 3 := by
  have hargs : ∀ arg ∈ options.args, (OverrideArg.encode arg).Plain 1 := by
    intro arg _
    simp [OverrideArg.encode, Plain]
  have hpath : (encode_option .string options.script_path).Plain 2 := by
    cases options.script_path <;> trivial
  simpa [encode, Plain, store.number, hpath] using hargs

theorem Prepared.plain_encode (prepared : Prepared) : prepared.encode.Plain 4 := by
  have hidentity : (encode_option ActiveIdentity.encode prepared.identity).Plain 3 := by
    cases prepared.identity <;> simp [encode_option, ActiveIdentity.encode, Plain]
  have hassets : (Value.object (prepared.assets.entries.map fun asset => (asset.1, .string asset.2))).Plain 3 := by
    intro entry hentry
    obtain ⟨asset, -, rfl⟩ := List.mem_map.1 hentry
    trivial
  have hselections : (Value.array (prepared.selections.map Selection.encode)).Plain 3 := by
    intro item hitem
    obtain ⟨selection, -, rfl⟩ := List.mem_map.1 hitem
    exact selection.plain_encode.mono (by decide)
  have hentries : ∀ entry ∈ prepared.entries, entry.2.Plain 3 := by
    simp only [entries, List.forall_mem_cons, List.not_mem_nil, IsEmpty.forall_iff, implies_true, and_true]
    exact ⟨trivial, hassets, hidentity, trivial, hselections, prepared.invocation.plain_encode.mono (by decide), trivial,
      CliOptions.plain_encode _⟩
  intro entry hentry
  obtain hentry | hentry := List.mem_append.1 hentry
  · exact hentries entry hentry
  · cases hsecret : prepared.controller_secret with
    | none => simp [hsecret] at hentry
    | some secret =>
      rw [hsecret] at hentry
      obtain rfl := List.mem_singleton.1 hentry
      trivial

theorem Snapshot.plain_encode (snapshot : Snapshot) : snapshot.encode.Plain 5 := by
  simp [encode, Plain, Prepared.plain_encode, store.number]

/-- A snapshot file is read back as it was written. -/
theorem from_slice_snapshot (platform : Platform) (snapshot : Snapshot) :
    (platform.from_slice (line snapshot.encode)).bind Snapshot.decode = some snapshot := by
  rw [line, platform.from_slice_line _ (snapshot.plain_encode.mono (by decide)), Option.bind_some, snapshot.decode_encode]

theorem last_append (front : String) {tail : String} {c : Char} (htail : tail.toList.reverse.head? = some c) :
    (front ++ tail).toList.reverse.head? = some c := by
  rw [String.toList_append, List.reverse_append, List.head?_append, htail]
  rfl

/-- A name that ends otherwise is no snapshot. -/
theorem snapshot_name_ne (mac nonce : String) {name : String} (hlast : name.toList.reverse.head? ≠ some 't') :
    snapshot_name mac nonce ≠ name := by
  rintro rfl
  exact hlast (last_append _ (by decide))

end zc.daemon
