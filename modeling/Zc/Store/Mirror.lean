import Zc.Store.Authority
import Zc.Config.Lawful

/-!
# The compatibility mirror

`mirror_documents` writes the catalog in the form of the legacy `meta.json`, and `parse_legacy_meta` reads that form.
`Store::read_bundle` is a function from a key and a revision.
-/

namespace zc.cli

open store (Catalog Profile RevisionView encode_option)

/-! ## Writing -/

mutual

/-- `without_nulls`: the members of objects that are null are left out, at every depth. -/
def without_nulls : Value → Value
  | .object entries => .object (without_null_entries entries)
  | .array items => .array (without_null_items items)
  | value => value

def without_null_items : List Value → List Value
  | [] => []
  | item :: items => without_nulls item :: without_null_items items

def without_null_entries : List (String × Value) → List (String × Value)
  | [] => []
  | entry :: entries => without_null_entry entry ++ without_null_entries entries

def without_null_entry : String × Value → List (String × Value)
  | (key, value) => if value.is_null then [] else [(key, without_nulls value)]

end

/-- Pairs collected into a `serde_json::Map`. -/
def collect (pairs : List (String × String)) : SortedMap String String :=
  SortedMap.empty.insertAll pairs

def string_map (pairs : List (String × String)) : Value :=
  .object ((collect pairs).entries.map fun entry => (entry.1, .string entry.2))

def params (view : RevisionView) : List (String × String) :=
  view.metadata.params.map fun p => (p.key, p.value)

def selections (profile : Profile) : List (String × String) :=
  profile.desired.selections.map fun s => (s.group, s.proxy)

/-- The entry of a profile, with its members in order. -/
def mirror_entry (view : RevisionView) (profile : Profile) : Value :=
  without_nulls (.object ([("filename", encode_option Value.string view.metadata.filename)] ++
    (view.frozen_override.toList.map fun frozen => ("override_script", .string frozen.script_name)) ++
    [("params", string_map (params view)), ("selections", string_map (selections profile)),
      ("url", encode_option Value.string view.metadata.url)]))

def add_file (files : SortedMap String (List UInt8)) (file : String × List UInt8) : Result (SortedMap String (List UInt8)) := do
  ensure ((files.get file.1).all (· == file.2)) (.message "conflicting mirror asset path")
  return files.insert file.1 file.2

def mirror_profile (read_bundle : String → String → Result RevisionView)
    (state : SortedMap String (List UInt8) × SortedMap String Value) (profile : Profile) :
    Result (SortedMap String (List UInt8) × SortedMap String Value) := do
  let view ← read_bundle profile.key profile.head
  let name := profile.key ++ ".yaml"
  ensure (str.len name ≤ 255) (.message "mirror filename too long")
  let assets := view.bundle.assets.entries.map fun asset => (asset.1, asset.2.bytes)
  let files ← ((name, view.bundle.effective_source) :: assets).foldlM add_file state.1
  return (files, state.2.insert profile.key (mirror_entry view profile))

structure MirrorDocuments where
  files : SortedMap String (List UInt8)
  metadata : List UInt8

def mirror_metadata (catalog : Catalog) (configs : SortedMap String Value) : Value :=
  without_nulls (.object [("active", encode_option Value.string (catalog.active.map (·.key))), ("configs", .object configs.entries)])

/-- The files and the value that are written. -/
def mirror_value (read_bundle : String → String → Result RevisionView) (catalog : Catalog) :
    Result (SortedMap String (List UInt8) × Value) := do
  let (files, configs) ← catalog.profiles.foldlM (mirror_profile read_bundle) (.empty, .empty)
  return (files, mirror_metadata catalog configs)

def mirror_documents (read_bundle : String → String → Result RevisionView) (catalog : Catalog) : Result MirrorDocuments := do
  let (files, value) ← mirror_value read_bundle catalog
  return ⟨files, serde_json.to_vec value⟩

end zc.cli

namespace zc.store

/-! ## Reading -/

structure LegacyMetadata where
  url : Option String
  filename : Option String
  override_script : Option String
  params : List (String × String)
  selections : Option (List (String × String))

structure LegacyMeta where
  active : Option String
  configs : List (String × LegacyMetadata)

def LegacyMetadata.decode (value : Value) : Option LegacyMetadata := do
  let field ← value.fields [["url"], ["filename"], ["override_script"], ["params"], ["selections"]]
  let url ← nullable value Value.as_str (field 0)
  let filename ← nullable value Value.as_str (field 1)
  let override_script ← nullable value Value.as_str (field 2)
  let params ← Value.defaulted [] (Value.mapping Value.as_str) (field 3)
  let selections ← nullable value (Value.mapping Value.as_str) (field 4)
  return { url, filename, override_script, params, selections }

def LegacyMeta.decode (value : Value) : Option LegacyMeta := do
  let field ← value.fields [["active"], ["configs"]]
  let active ← nullable value Value.as_str (field 0)
  let configs ← Value.required (Value.mapping LegacyMetadata.decode) (field 1)
  return { active, configs }

/-- Explicit selections are an object. -/
def selections_ok (document : Value) : Bool :=
  ((document.get "configs").bind Value.as_object).all fun configs =>
    configs.all fun config => (config.2.get "selections").all fun selections => selections.as_object.isSome

def invalid_legacy : Error :=
  .message "InvalidLegacyMetadata"

def Platform.parse_legacy_meta (platform : Platform) (bytes : List UInt8) : Result LegacyMeta := do
  let _ ← okOr (platform.from_slice bytes) (.context invalid_legacy (.message "invalid JSON"))
  let document ← withContext invalid_legacy (platform.parse_document bytes)
  ensure ((document.get "active").isSome && (document.get "configs").isSome) invalid_legacy
  ensure (selections_ok document) invalid_legacy
  let metadata ← okOr (LegacyMeta.decode document) (.context invalid_legacy (.message "invalid fields"))
  ensure (metadata.active.all stored_key && metadata.configs.all fun config => stored_key config.1) (.message "InvalidLegacyKey")
  return metadata

end zc.store

namespace zc.cli

open store (Catalog Profile RevisionView LegacyMetadata LegacyMeta Platform encode_option stored_key)

/-! ## What is written -/

/-- A value that `without_nulls` keeps as it is. -/
def Clean (value : Value) : Prop :=
  value.is_null = false ∧ without_nulls value = value

theorem clean_string (s : String) : Clean (.string s) :=
  ⟨rfl, rfl⟩

theorem without_nulls_object (entries : List (String × Value)) :
    without_nulls (.object entries) = .object (entries.flatMap without_null_entry) := by
  refine congrArg Value.object ?_
  induction entries with
  | nil => rfl
  | cons entry entries ih => rw [without_null_entries, ih, List.flatMap_cons]

theorem without_null_clean {value : Value} (hclean : Clean value) (key : String) : without_null_entry (key, value) = [(key, value)] := by
  rw [without_null_entry, hclean.1, if_neg Bool.false_ne_true, hclean.2]

theorem clean_object {entries : List (String × Value)} (hentries : ∀ entry ∈ entries, Clean entry.2) : Clean (.object entries) := by
  refine ⟨rfl, ?_⟩
  rw [without_nulls_object]
  refine congrArg Value.object ?_
  induction entries with
  | nil => rfl
  | cons entry entries ih =>
    rw [List.flatMap_cons, without_null_clean (hentries entry List.mem_cons_self),
      ih fun other hother => hentries other (List.mem_cons_of_mem _ hother)]
    rfl

theorem clean_string_map (pairs : List (String × String)) : Clean (string_map pairs) := by
  refine clean_object fun entry hentry => ?_
  obtain ⟨pair, -, rfl⟩ := List.mem_map.1 hentry
  exact clean_string _

/-- A member that is there or not. -/
def member (key : String) (value : Option String) : List (String × Value) :=
  value.toList.map fun s => (key, .string s)

theorem without_null_option (key : String) (value : Option String) :
    without_null_entry (key, encode_option Value.string value) = member key value := by
  cases value <;> rfl

theorem mirror_entry_eq (view : RevisionView) (profile : Profile) : mirror_entry view profile =
    .object (member "filename" view.metadata.filename ++ member "override_script" (view.frozen_override.map (·.script_name)) ++
      [("params", string_map (params view)), ("selections", string_map (selections profile))] ++ member "url" view.metadata.url) := by
  have hfrozen : (view.frozen_override.toList.map fun frozen => ("override_script", Value.string frozen.script_name)).flatMap
      without_null_entry = member "override_script" (view.frozen_override.map (·.script_name)) := by
    cases view.frozen_override <;> rfl
  rw [mirror_entry, without_nulls_object]
  simp only [List.flatMap_append, List.flatMap_cons, List.flatMap_nil, List.append_nil, hfrozen, without_null_option,
    without_null_clean (clean_string_map _), List.append_assoc, List.cons_append, List.nil_append]

theorem clean_mirror_entry (view : RevisionView) (profile : Profile) : Clean (mirror_entry view profile) := by
  have hmember : ∀ key value, ∀ entry ∈ member key value, Clean entry.2 := by
    intro key value entry hentry
    obtain ⟨s, -, rfl⟩ := List.mem_map.1 hentry
    exact clean_string s
  rw [mirror_entry_eq]
  refine clean_object fun entry hentry => ?_
  simp only [List.mem_append, List.mem_cons, List.not_mem_nil, or_false] at hentry
  rcases hentry with ((hentry | hentry) | rfl | rfl) | hentry
  · exact hmember _ _ _ hentry
  · exact hmember _ _ _ hentry
  · exact clean_string_map _
  · exact clean_string_map _
  · exact hmember _ _ _ hentry

theorem mapping_string_map (pairs : List (String × String)) :
    Value.mapping Value.as_str (string_map pairs) = some (collect pairs).entries := by
  rw [string_map, Value.mapping, Value.as_object, Option.bind_some]
  induction (collect pairs).entries with
  | nil => rfl
  | cons entry entries ih =>
    rw [List.map_cons, List.mapM_cons, ih]
    rfl

/-- The record that an entry is read as. -/
def legacy_entry (view : RevisionView) (profile : Profile) : LegacyMetadata where
  url := view.metadata.url
  filename := view.metadata.filename
  override_script := view.frozen_override.map (·.script_name)
  params := (collect (params view)).entries
  selections := some (collect (selections profile)).entries

theorem decode_mirror_entry (view : RevisionView) (profile : Profile) :
    LegacyMetadata.decode (mirror_entry view profile) = some (legacy_entry view profile) := by
  have hstring : ∀ s, Value.optional Value.as_str (.string s) = some (some s) := fun _ => rfl
  have hmap : ∀ pairs, Value.optional (Value.mapping Value.as_str) (string_map pairs) = some (some (collect pairs).entries) := by
    intro pairs
    rw [Value.optional, (clean_string_map pairs).1, mapping_string_map]
    rfl
  rw [mirror_entry_eq, LegacyMetadata.decode, legacy_entry]
  cases view.metadata.filename <;> cases view.frozen_override <;> cases view.metadata.url <;>
    simp [member, Value.fields, store.nullable, Value.defaulted, Value.as_object, hstring, hmap, mapping_string_map]

/-! ## The records of a catalog -/

section Mirror

variable {read_bundle : String → String → Result RevisionView} {profiles : List Profile}
  {state final : SortedMap String (List UInt8) × SortedMap String Value}

/-- An entry of the mirror that is not one of `configs` is that of a profile. -/
theorem mem_configs (hfold : profiles.foldlM (mirror_profile read_bundle) state = .ok final) {entry : String × Value}
    (hentry : entry ∈ final.2.entries) : entry ∈ state.2.entries ∨
      ∃ profile ∈ profiles, ∃ view, read_bundle profile.key profile.head = .ok view ∧ entry = (profile.key, mirror_entry view profile) := by
  induction profiles generalizing state with
  | nil =>
    obtain rfl := Except.ok.inj hfold
    exact .inl hentry
  | cons profile profiles ih =>
    rw [List.foldlM_cons, bind_eq_ok_iff] at hfold
    obtain ⟨next, hnext, hfold⟩ := hfold
    simp only [mirror_profile, bind_eq_ok_iff] at hnext
    obtain ⟨view, hview, -, -, files, -, hnext⟩ := hnext
    obtain rfl := Except.ok.inj hnext
    rcases ih hfold with hmem | ⟨other, hother, hexists⟩
    · rcases SortedMap.mem_entries_insert.1 hmem with rfl | ⟨hmem, -⟩
      · exact .inr ⟨profile, List.mem_cons_self, view, hview, rfl⟩
      · exact .inl hmem
    · exact .inr ⟨other, List.mem_cons_of_mem _ hother, hexists⟩

/-- Every profile has its entry. -/
theorem get_configs (hsorted : profiles.Pairwise fun a b => a.key < b.key)
    (hfold : profiles.foldlM (mirror_profile read_bundle) state = .ok final) :
    (∀ key, (∀ profile ∈ profiles, profile.key ≠ key) → final.2.get key = state.2.get key) ∧
      ∀ profile ∈ profiles, ∃ view, read_bundle profile.key profile.head = .ok view ∧
        final.2.get profile.key = some (mirror_entry view profile) := by
  induction profiles generalizing state with
  | nil =>
    obtain rfl := Except.ok.inj hfold
    exact ⟨fun _ _ => rfl, nofun⟩
  | cons profile profiles ih =>
    obtain ⟨hfirst, hrest⟩ := List.pairwise_cons.1 hsorted
    rw [List.foldlM_cons, bind_eq_ok_iff] at hfold
    obtain ⟨next, hnext, hfold⟩ := hfold
    simp only [mirror_profile, bind_eq_ok_iff] at hnext
    obtain ⟨view, hview, -, -, files, -, hnext⟩ := hnext
    obtain rfl := Except.ok.inj hnext
    obtain ⟨hkeep, hall⟩ := ih hrest hfold
    refine ⟨fun key hkey => ?_, fun other hother => ?_⟩
    · rw [hkeep key fun other hother => hkey other (List.mem_cons_of_mem _ hother), SortedMap.get_insert,
        if_neg (hkey profile List.mem_cons_self).symm]
    · rcases List.mem_cons.1 hother with rfl | hother
      · exact ⟨view, hview, (hkeep _ fun later hlater => (ne_of_lt (hfirst later hlater)).symm).trans (SortedMap.get_insert_self _ _ _)⟩
      · exact hall other hother

end Mirror

/-- A mapping is decoded entry by entry. -/
theorem mapping_ok {α : Type} {decode : Value → Option α} {entries : List (String × Value)}
    (hdecode : ∀ entry ∈ entries, (decode entry.2).isSome) :
    ∃ results, Value.mapping decode (.object entries) = some results ∧ (∀ result ∈ results, ∃ entry ∈ entries, entry.1 = result.1) ∧
      ∀ key value, entries.lookup key = some value → results.lookup key = decode value := by
  rw [Value.mapping, Value.as_object, Option.bind_some]
  induction entries with
  | nil => exact ⟨[], rfl, List.forall_mem_nil _, by rintro _ _ ⟨⟩⟩
  | cons entry entries ih =>
    obtain ⟨result, hresult⟩ := Option.isSome_iff_exists.1 (hdecode entry List.mem_cons_self)
    obtain ⟨results, hresults, hkeys, hlookup⟩ := ih fun other hother => hdecode other (List.mem_cons_of_mem _ hother)
    refine ⟨(entry.1, result) :: results, ?_, fun other hother => ?_, fun key value hvalue => ?_⟩
    · rw [List.mapM_cons, hresult, hresults]
      rfl
    · rcases List.mem_cons.1 hother with rfl | hother
      · exact ⟨entry, List.mem_cons_self, rfl⟩
      · obtain ⟨found, hfound, heq⟩ := hkeys other hother
        exact ⟨found, List.mem_cons_of_mem _ hfound, heq⟩
    · obtain ⟨name, first⟩ := entry
      rw [List.lookup_cons] at hvalue ⊢
      cases hkey : key == name with
      | true =>
        rw [hkey] at hvalue
        obtain rfl := Option.some.inj hvalue
        exact hresult.symm
      | false =>
        rw [hkey] at hvalue
        exact hlookup key value hvalue

/-- The metadata of a catalog, as it is read. -/
theorem mirror_metadata_eq {catalog : Catalog} {configs : SortedMap String Value}
    (hconfigs : ∀ entry ∈ configs.entries, Clean entry.2) :
    mirror_metadata catalog configs = .object (member "active" (catalog.active.map (·.key)) ++ [("configs", .object configs.entries)]) := by
  rw [mirror_metadata, without_nulls_object, List.flatMap_cons, List.flatMap_cons, List.flatMap_nil, List.append_nil,
    without_null_option, without_null_clean (clean_object hconfigs)]

theorem get_selections (view : RevisionView) (profile : Profile) :
    ((mirror_entry view profile).get "selections").all (fun selections => selections.as_object.isSome) = true := by
  rw [mirror_entry_eq]
  cases view.metadata.filename <;> cases view.frozen_override <;>
    simp [member, Value.get, List.lookup_cons, string_map, Value.as_object]

/-- What the legacy reader should return for a catalog. -/
structure Mirrors (read_bundle : String → String → Result RevisionView) (catalog : Catalog) (metadata : LegacyMeta) : Prop where
  active : metadata.active = catalog.active.map (·.key)
  keys : ∀ config ∈ metadata.configs, ∃ profile ∈ catalog.profiles, profile.key = config.1
  configs : ∀ profile ∈ catalog.profiles, ∃ view, read_bundle profile.key profile.head = .ok view ∧
    metadata.configs.lookup profile.key = some (legacy_entry view profile)

section Reading

variable {platform : Platform} {catalog : Catalog} {read_bundle : String → String → Result RevisionView} {configs : SortedMap String Value}
  {files : SortedMap String (List UInt8)}

/-- Without an active profile there is no member for it. -/
theorem parse_legacy_meta_inactive (hnone : catalog.active = none) (hclean : ∀ entry ∈ configs.entries, Clean entry.2) {bytes : List UInt8}
    (hreads : platform.parse_document bytes = .ok (mirror_metadata catalog configs)) (metadata : LegacyMeta) :
    platform.parse_legacy_meta bytes ≠ .ok metadata := by
  intro hmeta
  simp only [Platform.parse_legacy_meta, bind_eq_ok_iff, withContext_eq_ok_iff, ensure_eq_ok_iff, hreads] at hmeta
  obtain ⟨_, -, document, hdocument, -, hactive, -⟩ := hmeta
  obtain rfl := Except.ok.inj hdocument
  rw [mirror_metadata_eq hclean, hnone] at hactive
  simp [member, Value.get, List.lookup_cons, List.lookup_nil] at hactive

theorem parse_legacy_meta_active {active : store.ActiveIdentity} (hactive : catalog.active = some active)
    (hcatalog : catalog.Canonical platform)
    (hfold : catalog.profiles.foldlM (mirror_profile read_bundle) (.empty, .empty) = .ok (files, configs)) {bytes : List UInt8}
    (hjson : (platform.from_slice bytes).isSome) (hreads : platform.parse_document bytes = .ok (mirror_metadata catalog configs)) :
    ∃ metadata, platform.parse_legacy_meta bytes = .ok metadata ∧ Mirrors read_bundle catalog metadata := by
  have hentries : ∀ entry ∈ configs.entries, ∃ profile ∈ catalog.profiles, ∃ view,
      read_bundle profile.key profile.head = .ok view ∧ entry = (profile.key, mirror_entry view profile) :=
    fun entry hentry => (mem_configs hfold hentry).resolve_left List.not_mem_nil
  have hclean : ∀ entry ∈ configs.entries, Clean entry.2 := by
    intro entry hentry
    obtain ⟨profile, -, view, -, rfl⟩ := hentries entry hentry
    exact clean_mirror_entry view profile
  have hdecode : ∀ entry ∈ configs.entries, (LegacyMetadata.decode entry.2).isSome := by
    intro entry hentry
    obtain ⟨profile, -, view, -, rfl⟩ := hentries entry hentry
    exact Option.isSome_iff_exists.2 ⟨_, decode_mirror_entry view profile⟩
  obtain ⟨results, hresults, hkeys, hlookup⟩ := mapping_ok hdecode
  have hdocument : mirror_metadata catalog configs = .object [("active", .string active.key), ("configs", .object configs.entries)] := by
    rw [mirror_metadata_eq hclean, hactive]
    rfl
  have hmeta : LegacyMeta.decode (mirror_metadata catalog configs) = some ⟨some active.key, results⟩ := by
    rw [hdocument, LegacyMeta.decode]
    simp [Value.fields, store.nullable, Value.optional, Value.required, Value.as_str, Value.is_null, hresults]
  have hprofiles : ∀ result ∈ results, ∃ profile ∈ catalog.profiles, profile.key = result.1 := by
    intro result hresult
    obtain ⟨entry, hentry, heq⟩ := hkeys result hresult
    obtain ⟨profile, hprofile, view, -, rfl⟩ := hentries entry hentry
    exact ⟨profile, hprofile, heq⟩
  refine ⟨⟨some active.key, results⟩, ?_, ⟨?_, hprofiles, ?_⟩⟩
  · obtain ⟨document, hslice⟩ := Option.isSome_iff_exists.1 hjson
    simp only [Platform.parse_legacy_meta, bind_eq_ok_iff, withContext_eq_ok_iff, ensure_eq_ok_iff, okOr_eq_ok_iff]
    refine ⟨document, hslice, _, hreads, (), ?_, (), ?_, _, hmeta, (), ?_, rfl⟩
    · rw [hdocument]
      rfl
    · rw [hdocument, store.selections_ok]
      simp only [Value.get, List.lookup_cons, Value.as_object]
      refine List.all_eq_true.2 fun entry hentry => ?_
      obtain ⟨profile, -, view, -, rfl⟩ := hentries entry hentry
      exact get_selections view profile
    · obtain ⟨profile, hprofile, hkey, -⟩ := hcatalog.active active hactive
      rw [Bool.and_eq_true, Option.all_some, List.all_eq_true]
      refine ⟨hkey ▸ hcatalog.key profile hprofile, fun config hconfig => ?_⟩
      obtain ⟨other, hother, heq⟩ := hprofiles config hconfig
      exact heq ▸ hcatalog.key other hother
  · rw [hactive]
    rfl
  · intro profile hprofile
    obtain ⟨view, hview, hget⟩ := (get_configs hcatalog.sorted hfold).2 profile hprofile
    exact ⟨view, hview, (hlookup _ _ hget).trans (decode_mirror_entry view profile)⟩

end Reading

/-! ## A store without profiles, and one with an active profile -/

def jsonStore : Platform :=
  { Platform.bare with crates := Crates.json }

theorem parse_jsonStore {map : List (String × Value)} (hvalid : (Value.object map).valid = true)
    (hfits : (serde_json.to_vec (.object map)).length ≤ store.FILE_LIMIT) :
    jsonStore.parse_document (serde_json.to_vec (.object map)) = .ok (.object map) := by
  have hutf8 : str.from_utf8 (serde_json.to_vec (.object map)) = some (serde_json.to_string (.object map)) :=
    str.from_utf8_eq_some_iff.2 rfl
  have hparse : config.parse_document Crates.json (serde_json.to_string (.object map)) = .ok (.object map) := by
    rw [config.parse_document, Crates.lawful_json.reads _ hvalid hfits]
    rfl
  simp only [Platform.parse_document, bind_eq_ok_iff, ensure_eq_ok_iff, decide_eq_true_eq, okOr_eq_ok_iff, hutf8]
  exact ⟨(), hfits, _, rfl, hparse⟩

/-- The revision of the one profile of a store. -/
def loneView : RevisionView where
  key := "home"
  storage_id := ""
  revision := ""
  content_digest := ""
  metadata := ⟨some "https://a", none, [⟨"k", "v"⟩]⟩
  frozen_override := none
  bundle := ⟨[], none, .empty, []⟩

def loneCatalog : Catalog :=
  .lone jsonStore ⟨"home", hex (List.replicate 16 0)⟩

def loneMembers : List (String × Value) :=
  [("active", .string "home"), ("configs", .object [("home", .object [("params", .object [("k", .string "v")]), ("selections", .object []),
    ("url", .string "https://a")])])]

end zc.cli
