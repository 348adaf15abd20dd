import Mathlib.Data.List.Forall2
import Zc.Lib.Traverse
import Zc.Override.Maps

/-!
# The projection of a document

What `runtime_source` does with the map of a document, and what holds of its result: it stays valid, and
it survives the way through the text.
-/

namespace zc.override_script

variable {crates : Crates}

/-- What `runtime_source` does with the map of a document. -/
def projection (crates : Crates) (map : Map) : Result Map := do
  validate_collections (.object map)
  let map ← canonical_plugin_options (split_source_groups map)
  let map ← normalize_config crates map
  let map := runtime_bind (metadata_fields.foldl Map.remove map)
  let map ← update_items map "proxy-groups" fun groups => groups.mapM runtime_group
  update_items map "proxies" fun proxies => proxies.mapM runtime_proxy

theorem runtime_source_eq_ok_iff {source : List UInt8} {text : String} : runtime_source crates source = .ok text ↔
    ∃ map out, document crates source MAX_SOURCE_BYTES = .ok (.object map) ∧ projection crates map = .ok out ∧
      text = serde_json.to_string (.object out) := by
  simp only [runtime_source, config_document, projection, bind_eq_ok_iff, unwrap, okOr_eq_ok_iff]
  constructor
  · rintro ⟨normal, ⟨value, hvalue, _, hcollections, map, hmap, plugged, hplugged, hnormal⟩, groups, hgroups, out, hout, hpure⟩
    cases value with
    | object entries =>
      obtain rfl := Option.some.inj hmap
      exact ⟨_, out, hvalue, ⟨(), hcollections, plugged, hplugged, normal, hnormal, groups, hgroups, hout⟩,
        (Except.ok.inj hpure).symm⟩
    | _ => cases hmap
  · rintro ⟨map, out, hvalue, ⟨_, hcollections, plugged, hplugged, normal, hnormal, groups, hgroups, hout⟩, rfl⟩
    exact ⟨normal, ⟨_, hvalue, (), hcollections, map, rfl, plugged, hplugged, hnormal⟩, groups, hgroups, out, hout, rfl⟩

/-! ## Validity -/

section Validity

variable {map out : Map} {key : String} {value result : Value}

theorem valid_typed_default {entry : String × Value} (hvalid : (Value.object map).valid = true) (hentry : entry.2.valid = true)
    (hout : typed_default map entry = .ok out) : (Value.object out).valid = true := by
  obtain ⟨key, default⟩ := entry
  simp only [typed_default, bind_eq_ok_iff] at hout
  obtain ⟨_, -, hpure⟩ := hout
  rw [← Except.ok.inj hpure]
  split
  · exact hvalid
  · exact Map.Valid.insert hvalid hentry

theorem valid_optional_string {nullable : Bool} (hvalid : (Value.object map).valid = true)
    (hout : optional_string nullable map key = .ok out) : (Value.object out).valid = true := by
  unfold optional_string at hout
  split at hout
  · exact Except.ok.inj hout ▸ hvalid
  · split at hout
    · exact Except.ok.inj hout ▸ Map.Valid.filter hvalid _
    · obtain ⟨_, -, hpure⟩ := bind_eq_ok_iff.1 hout
      exact Except.ok.inj hpure ▸ hvalid

theorem valid_defaults {entries : List (String × Value)} (hvalid : (Value.object map).valid = true)
    (hentries : ∀ entry ∈ entries, entry.2.valid = true) (hout : entries.foldlM typed_default map = .ok out) :
    (Value.object out).valid = true :=
  Traverse.foldlM_invariant (P := fun map => (Value.object map).valid = true) hvalid
    (fun _ entry _ hentry hvalid hnext => valid_typed_default hvalid (hentries entry hentry) hnext) hout

theorem valid_optionals {nullable : Bool} {keys : List String} (hvalid : (Value.object map).valid = true)
    (hout : keys.foldlM (optional_string nullable) map = .ok out) : (Value.object out).valid = true :=
  Traverse.foldlM_invariant (P := fun map => (Value.object map).valid = true) hvalid
    (fun _ _ _ _ hvalid hnext => valid_optional_string hvalid hnext) hout

theorem valid_items_of_lookup {items : List Value} (hvalid : (Value.object map).valid = true)
    (hitems : (map.lookup key).bind Value.as_array = some items) : ∀ item ∈ items, item.valid = true := by
  obtain ⟨value, hvalue, harray⟩ := Option.bind_eq_some_iff.1 hitems
  cases value with
  | array items' =>
    obtain rfl := Option.some.inj harray
    exact Value.valid_array.1 (Map.Valid.lookup hvalid hvalue)
  | _ => cases harray

theorem valid_update_items {f : List Value → Result (List Value)} (hvalid : (Value.object map).valid = true)
    (hf : ∀ items results, (∀ item ∈ items, item.valid = true) → f items = .ok results → ∀ result ∈ results, result.valid = true)
    (hout : update_items map key f = .ok out) : (Value.object out).valid = true := by
  simp only [update_items, unwrap, bind_eq_ok_iff, okOr_eq_ok_iff] at hout
  obtain ⟨items, hitems, results, hresults, hpure⟩ := hout
  rw [← Except.ok.inj hpure]
  exact Map.Valid.insert hvalid (Value.valid_array.2 (hf items results (valid_items_of_lookup hvalid hitems) hresults))

/-- A pass over the items of a list that keeps every item valid. -/
theorem valid_mapM {f : Value → Result Value} (hf : ∀ item result, item.valid = true → f item = .ok result → result.valid = true)
    {items results : List Value} (hitems : ∀ item ∈ items, item.valid = true) (hresults : items.mapM f = .ok results) :
    ∀ result ∈ results, result.valid = true := by
  intro result hresult
  obtain ⟨item, hitem, hf'⟩ := Traverse.exists_of_mem_mapM hresults hresult
  exact hf item result (hitems item hitem) hf'

theorem valid_as_object {entries : Map} (hvalid : value.valid = true) (hentries : value.as_object = some entries) :
    (Value.object entries).valid = true := by
  cases value with
  | object entries' => exact Option.some.inj hentries ▸ hvalid
  | _ => cases hentries

theorem valid_number (n : Nat) : (number n).valid = true := rfl

theorem valid_split_source_groups (hvalid : (Value.object map).valid = true) :
    (Value.object (split_source_groups map)).valid = true := by
  unfold split_source_groups
  cases hproxies : (map.lookup "proxies").bind Value.as_array with
  | none => exact hvalid
  | some proxies =>
    have hitems := valid_items_of_lookup hvalid hproxies
    have hsplit : (Value.object (map.insert "proxies" (.array (proxies.filter fun item => !is_group item)))).valid = true :=
      Map.Valid.insert hvalid (Value.valid_array.2 fun item hitem => hitems item (List.mem_of_mem_filter hitem))
    dsimp only
    split
    · exact hsplit
    · refine Map.Valid.insert (Map.Valid.filter hsplit _) (Value.valid_array.2 fun item hitem => ?_)
      rcases List.mem_append.1 hitem with hitem | hitem
      · exact hitems item (List.mem_of_mem_filter hitem)
      · cases hgroups : ((map.insert "proxies" (.array (proxies.filter fun item => !is_group item))).lookup "proxy-groups").bind
            Value.as_array with
        | none =>
          rw [hgroups] at hitem
          cases hitem
        | some groups =>
          rw [hgroups] at hitem
          exact valid_items_of_lookup hsplit hgroups item hitem

theorem valid_canonical_plugin_proxy (hvalid : value.valid = true) (hresult : canonical_plugin_proxy value = .ok result) :
    result.valid = true := by
  simp only [canonical_plugin_proxy, bind_eq_ok_iff, okOr_eq_ok_iff] at hresult
  obtain ⟨proxy, hproxy, aliased, haliased, _, -, hpure⟩ := hresult
  rw [← Except.ok.inj hpure]
  have hvalid := valid_as_object hvalid hproxy
  unfold canonical_plugin_alias at haliased
  split at haliased
  · exact Except.ok.inj haliased ▸ hvalid
  · next options hoptions =>
    obtain ⟨_, -, hpure⟩ := bind_eq_ok_iff.1 haliased
    rw [← Except.ok.inj hpure]
    exact Map.Valid.insert (Map.Valid.filter hvalid _) (Map.Valid.lookup hvalid hoptions)

theorem valid_canonical_plugin_options (hvalid : (Value.object map).valid = true)
    (hout : canonical_plugin_options map = .ok out) : (Value.object out).valid = true := by
  unfold canonical_plugin_options at hout
  split at hout
  · exact Except.ok.inj hout ▸ hvalid
  · next proxies hproxies =>
    obtain ⟨results, hresults, hpure⟩ := bind_eq_ok_iff.1 hout
    rw [← Except.ok.inj hpure]
    exact Map.Valid.insert hvalid (Value.valid_array.2 (valid_mapM (fun _ _ => valid_canonical_plugin_proxy)
      (valid_items_of_lookup hvalid hproxies) hresults))

theorem valid_normalize_proxy (hvalid : value.valid = true) (hresult : normalize_proxy value = .ok result) :
    result.valid = true := by
  simp only [normalize_proxy, unwrap, bind_eq_ok_iff, okOr_eq_ok_iff] at hresult
  obtain ⟨proxy, hproxy, kind, -, _, -, placed, hplaced, texts, htexts, flags, hflags, aliased, haliased, _, -, _, -, _, -, _, -,
    hpure⟩ := hresult
  rw [← Except.ok.inj hpure]
  have hvalid := valid_as_object hvalid hproxy
  have hvalid : (Value.object placed).valid = true := by
    unfold proxy_endpoint at hplaced
    split at hplaced
    · rw [← Except.ok.inj hplaced]
      exact Map.Valid.insert (Map.Valid.insert hvalid rfl) (valid_number 0)
    · obtain ⟨_, -, hpure⟩ := bind_eq_ok_iff.1 hplaced
      exact Except.ok.inj hpure ▸ hvalid
  have hvalid := valid_optionals hvalid htexts
  have hvalid : (Value.object flags).valid = true :=
    Traverse.foldlM_invariant (P := fun map => (Value.object map).valid = true) hvalid
      (fun _ _ _ _ hvalid hnext => valid_typed_default hvalid rfl hnext) hflags
  exact valid_typed_default hvalid (valid_number 0) haliased

theorem valid_normalize_group (hvalid : value.valid = true) (hresult : normalize_group value = .ok result) :
    result.valid = true := by
  simp only [normalize_group, unwrap, bind_eq_ok_iff, okOr_eq_ok_iff] at hresult
  obtain ⟨_, -, group, hgroup, texts, htexts, filled, hfilled, _, -, _, -, hpure⟩ := hresult
  rw [← Except.ok.inj hpure]
  have hvalid := valid_optional_string (valid_as_object hvalid hgroup) htexts
  exact valid_defaults hvalid (by simp [valid_number]) hfilled

theorem valid_normalize_provider {entry entry' : String × Value} (hvalid : entry.2.valid = true)
    (hentry : normalize_provider crates entry = .ok entry') : entry'.1 = entry.1 ∧ entry'.2.valid = true := by
  simp only [normalize_provider, unwrap, bind_eq_ok_iff, okOr_eq_ok_iff] at hentry
  obtain ⟨provider, hprovider, _, -, texts, htexts, filled, hfilled, _, -, _, -, _, -, hpure⟩ := hentry
  rw [← Except.ok.inj hpure]
  have hvalid := valid_optional_string (valid_as_object hvalid hprovider) htexts
  exact ⟨rfl, valid_typed_default hvalid (valid_number 86400) hfilled⟩

theorem valid_normalize_rules {sources results : List Value} (hresults : normalize_rules sources = .ok results) :
    ∀ result ∈ results, result.valid = true := by
  induction sources generalizing results with
  | nil =>
    obtain rfl := Except.ok.inj hresults
    simp
  | cons source sources ih =>
    simp only [normalize_rules, bind_eq_ok_iff] at hresults
    obtain ⟨⟨normalized, final⟩, -, hrest⟩ := hresults
    split at hrest
    · obtain ⟨_, -, hpure⟩ := bind_eq_ok_iff.1 hrest
      obtain rfl := Except.ok.inj hpure
      simp
    · obtain ⟨rest, hsources, hpure⟩ := bind_eq_ok_iff.1 hrest
      obtain rfl := Except.ok.inj hpure
      rw [List.forall_mem_cons]
      exact ⟨rfl, ih hsources⟩

/-- The pass over the providers keeps their names. -/
theorem map_fst_normalize {declared normal : Map} (hnormal : declared.mapM (normalize_provider crates) = .ok normal) :
    normal.map Prod.fst = declared.map Prod.fst := by
  have hforall := Traverse.mapM_eq_ok_iff.1 hnormal
  clear hnormal
  induction hforall with
  | nil => rfl
  | cons hentry _ ih =>
    simp only [normalize_provider, bind_eq_ok_iff] at hentry
    obtain ⟨_, -, _, -, _, -, _, -, _, -, _, -, _, -, hpure⟩ := hentry
    rw [List.map_cons, List.map_cons, ih, ← Except.ok.inj hpure]

theorem valid_providers {declared normal : Map} (hvalid : (Value.object declared).valid = true)
    (hnormal : declared.mapM (normalize_provider crates) = .ok normal) : (Value.object normal).valid = true := by
  obtain ⟨hordered, hvalues⟩ := Value.valid_object.1 hvalid
  rw [Value.valid_object]
  refine ⟨?_, fun entry hentry => ?_⟩
  · have hnames := map_fst_normalize hnormal
    have hordered : (declared.map Prod.fst).Pairwise (· < ·) := List.pairwise_map.2 hordered
    rw [← hnames] at hordered
    exact List.pairwise_map.1 hordered
  · obtain ⟨source, hsource, hentry⟩ := Traverse.exists_of_mem_mapM hnormal hentry
    exact (valid_normalize_provider (hvalues source hsource) hentry).2

theorem valid_update_providers (hvalid : (Value.object map).valid = true) (hout : update_providers crates map = .ok out) :
    (Value.object out).valid = true := by
  simp only [update_providers, unwrap, bind_eq_ok_iff, okOr_eq_ok_iff] at hout
  obtain ⟨declared, hdeclared, normal, hnormal, hpure⟩ := hout
  obtain ⟨value, hvalue, hobject⟩ := Option.bind_eq_some_iff.1 hdeclared
  rw [← Except.ok.inj hpure]
  exact Map.Valid.insert hvalid (valid_providers (valid_as_object (Map.Valid.lookup hvalid hvalue) hobject) hnormal)

theorem valid_normalize_config (hvalid : (Value.object map).valid = true) (hout : normalize_config crates map = .ok out) :
    (Value.object out).valid = true := by
  simp only [normalize_config, bind_eq_ok_iff] at hout
  obtain ⟨_, -, filled, hfilled, texts, htexts, _, -, _, -, proxies, hproxies, groups, hgroups, providers, hproviders, hrules⟩ := hout
  have hvalid := valid_defaults hvalid (by simp [defaults, valid_number]) hfilled
  have hvalid := valid_optionals hvalid htexts
  have hvalid := valid_update_items hvalid (fun _ _ hitems hresults => valid_mapM (fun _ _ => valid_normalize_proxy) hitems hresults)
    hproxies
  have hvalid := valid_update_items hvalid (fun _ _ hitems hresults => valid_mapM (fun _ _ => valid_normalize_group) hitems hresults)
    hgroups
  have hvalid := valid_update_providers hvalid hproviders
  exact valid_update_items hvalid (fun _ _ _ hresults => valid_normalize_rules hresults) hrules

theorem valid_removes {keys : List String} (hvalid : (Value.object map).valid = true) :
    (Value.object (keys.foldl Map.remove map)).valid = true := by
  induction keys generalizing map with
  | nil => exact hvalid
  | cons key keys ih => exact ih (Map.Valid.filter hvalid _)

theorem valid_runtime_group (hvalid : value.valid = true) (hresult : runtime_group value = .ok result) : result.valid = true := by
  simp only [runtime_group, unwrap, bind_eq_ok_iff, okOr_eq_ok_iff] at hresult
  obtain ⟨group, hgroup, hpure⟩ := hresult
  rw [← Except.ok.inj hpure]
  exact valid_removes (valid_as_object hvalid hgroup)

theorem valid_runtime_proxy (hvalid : value.valid = true) (hresult : runtime_proxy value = .ok result) : result.valid = true := by
  simp only [runtime_proxy, unwrap, bind_eq_ok_iff, okOr_eq_ok_iff] at hresult
  obtain ⟨proxy, hproxy, hpure⟩ := hresult
  rw [← Except.ok.inj hpure]
  have hvalid := valid_as_object hvalid hproxy
  split
  · exact Map.Valid.filter (valid_removes (Map.Valid.filter hvalid _)) _
  · exact valid_removes (Map.Valid.filter hvalid _)

theorem valid_projection (hvalid : (Value.object map).valid = true) (hout : projection crates map = .ok out) :
    (Value.object out).valid = true := by
  simp only [projection, bind_eq_ok_iff] at hout
  obtain ⟨_, -, plugged, hplugged, normal, hnormal, groups, hgroups, hout⟩ := hout
  have hvalid := valid_canonical_plugin_options (valid_split_source_groups hvalid) hplugged
  have hvalid := valid_normalize_config hvalid hnormal
  have hvalid : (Value.object (runtime_bind (metadata_fields.foldl Map.remove normal))).valid = true := by
    unfold runtime_bind
    split
    · exact Map.Valid.insert (valid_removes hvalid) rfl
    · exact valid_removes hvalid
  have hvalid := valid_update_items hvalid (fun _ _ hitems hresults => valid_mapM (fun _ _ => valid_runtime_group) hitems hresults)
    hgroups
  exact valid_update_items hvalid (fun _ _ hitems hresults => valid_mapM (fun _ _ => valid_runtime_proxy) hitems hresults) hout

end Validity

/-! ## Through the text -/

/-- Within the limits of `document`. -/
structure Fits (map : Map) : Prop where
  bytes : (serde_json.to_vec (.object map)).length ≤ MAX_SOURCE_BYTES
  entries : entryCount (.object map) ≤ MAX_COLLECTION_ENTRIES

theorem length_to_vec (value : Value) : (serde_json.to_vec value).length = String.utf8Len value.text := by
  rw [serde_json.to_vec, str.bytes, Array.length_toList]
  exact String.utf8ByteSize_ofList _

theorem len_to_string (value : Value) : str.len (serde_json.to_string value) = String.utf8Len value.text :=
  String.utf8ByteSize_ofList _

section Lawful

variable (hlaw : crates.Lawful) {map out : Map}

include hlaw

theorem parse_document_to_string (hvalid : (Value.object map).valid = true)
    (hlen : str.len (serde_json.to_string (.object map)) ≤ config.MAX_SOURCE_BYTES) :
    config.parse_document crates (serde_json.to_string (.object map)) = .ok (.object map) := by
  rw [config.parse_document, hlaw.reads _ hvalid hlen]
  rfl

theorem document_to_vec_ok {value value' : Value} (hvalid : value.valid = true)
    (hdocument : document crates (serde_json.to_vec value) MAX_SOURCE_BYTES = .ok value') :
    value' = value ∧ (serde_json.to_vec value).length ≤ MAX_SOURCE_BYTES ∧ entryCount value ≤ MAX_COLLECTION_ENTRIES := by
  have hutf8 : str.from_utf8 (serde_json.to_vec value) = some (serde_json.to_string value) := str.from_utf8_eq_some_iff.2 rfl
  simp only [document, bind_eq_ok_iff, bail_if_eq_ok_iff, decide_eq_false_iff_not, Nat.not_lt, hutf8, okOr_eq_ok_iff,
    mapErr_eq_ok_iff, count_entries_eq_ok_iff] at hdocument
  obtain ⟨_, hbytes, text, htext, parsed, hparsed, _, -, rest, hrest, hpure⟩ := hdocument
  obtain rfl := Option.some.inj htext
  have hread := hlaw.reads _ hvalid (by rw [len_to_string, ← length_to_vec]; exact hbytes)
  simp only [config.parse_document, hread, bind_eq_ok_iff] at hparsed
  obtain ⟨_, ⟨⟩, _, -, ⟨⟩⟩ := hparsed
  obtain ⟨⟩ := hpure
  exact ⟨rfl, hbytes, by omega⟩

theorem document_to_vec_iff (hvalid : (Value.object map).valid = true) {value : Value} :
    document crates (serde_json.to_vec (.object map)) MAX_SOURCE_BYTES = .ok value ↔ value = .object map ∧ Fits map := by
  constructor
  · intro hdocument
    obtain ⟨heq, hbytes, hentries⟩ := document_to_vec_ok hlaw hvalid hdocument
    exact ⟨heq, hbytes, hentries⟩
  · rintro ⟨rfl, hbytes, hentries⟩
    have hutf8 : str.from_utf8 (serde_json.to_vec (.object map)) = some (serde_json.to_string (.object map)) :=
      str.from_utf8_eq_some_iff.2 rfl
    have hread := parse_document_to_string hlaw hvalid (by rw [len_to_string, ← length_to_vec]; exact hbytes)
    simp only [document, bind_eq_ok_iff, bail_if_eq_ok_iff, decide_eq_false_iff_not, Nat.not_lt, hutf8, okOr_eq_ok_iff,
      mapErr_eq_ok_iff, count_entries_eq_ok_iff]
    exact ⟨(), hbytes, _, rfl, .object map, hread, (), rfl, _, Nat.add_sub_cancel' hentries, rfl⟩

theorem runtime_source_to_vec_iff (hvalid : (Value.object map).valid = true) {text : String} :
    runtime_source crates (serde_json.to_vec (.object map)) = .ok text ↔
      Fits map ∧ ∃ out, projection crates map = .ok out ∧ text = serde_json.to_string (.object out) := by
  rw [runtime_source_eq_ok_iff]
  simp only [document_to_vec_iff hlaw hvalid, Value.object.injEq]
  constructor
  · rintro ⟨_, out, ⟨rfl, hfits⟩, hout, htext⟩
    exact ⟨hfits, out, hout, htext⟩
  · rintro ⟨hfits, out, hout, htext⟩
    exact ⟨map, out, ⟨rfl, hfits⟩, hout, htext⟩

theorem parse_inner_to_string_iff (hvalid : (Value.object out).valid = true) {assets : Option config.Assets}
    {cfg : config.Config} : config.Config.parse_inner crates (serde_json.to_string (.object out)) assets = .ok cfg ↔
      str.len (serde_json.to_string (.object out)) ≤ config.MAX_SOURCE_BYTES ∧
        config.Config.of_document crates (.object out) assets = .ok cfg := by
  by_cases hlen : str.len (serde_json.to_string (.object out)) ≤ config.MAX_SOURCE_BYTES
  · have hread := parse_document_to_string hlaw hvalid hlen
    simp only [config.Config.parse_inner, hread, bind_eq_ok_iff]
    constructor
    · rintro ⟨_, hvalue, hcfg⟩
      exact ⟨hlen, Except.ok.inj hvalue ▸ hcfg⟩
    · rintro ⟨-, hcfg⟩
      exact ⟨_, rfl, hcfg⟩
  · have hread : config.yaml_value crates (serde_json.to_string (.object out)) =
        bail "configuration/provider exceeds the 16 MiB source limit" := by
      rw [config.yaml_value, if_pos (Nat.not_le.1 hlen)]
    simp only [config.Config.parse_inner, config.parse_document, hread, bind_eq_ok_iff, bail_ne_ok, false_and, exists_false, hlen]

end Lawful

end zc.override_script
