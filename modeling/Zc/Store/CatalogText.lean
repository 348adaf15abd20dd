import Zc.Lib.Traverse
import Zc.Store.Catalog

/-!
# Canonical catalogs read back

Every record is decoded from what it was encoded to, and the bytes `canonical` returns are those of
a catalog that is its own canonical form.
-/

namespace zc

namespace Value

theorem find?_of_getElem? {entries : List (String × Value)} (hnodup : (entries.map Prod.fst).Nodup) {index : Nat}
    {entry : String × Value} (hentry : entries[index]? = some entry) :
    entries.find? (fun other => [entry.1].contains other.1) = some entry := by
  induction entries generalizing index with
  | nil => cases hentry
  | cons first entries ih =>
    obtain ⟨hfirst, hrest⟩ := List.nodup_cons.1 hnodup
    cases index with
    | zero =>
      cases hentry
      simp
    | succ index =>
      have hmem : entry ∈ entries := List.mem_of_getElem? hentry
      have hne : first.1 ≠ entry.1 := fun heq => hfirst (heq ▸ List.mem_map_of_mem hmem)
      rw [List.find?_cons_of_neg (by simpa using hne)]
      exact ih hrest hentry

/-- The fields of a record that was written in the order of its declaration; trailing fields may be
    left out. -/
theorem fields_record (names : List String) (entries : List (String × Value)) (hnodup : names.Nodup)
    (hnames : entries.map Prod.fst <+: names) :
    ∃ field, (Value.object entries).fields (names.map fun name => [name]) = some field ∧
      ∀ index, field index = (entries[index]?).map Prod.snd := by
  have hentries : (entries.map Prod.fst).Nodup := hnodup.sublist hnames.sublist
  have hall : entries.all (fun entry => (names.map fun name => [name]).any (·.contains entry.1)) = true := by
    rw [List.all_eq_true]
    intro entry hentry
    rw [List.any_eq_true]
    exact ⟨[entry.1], List.mem_map_of_mem (hnames.subset (List.mem_map_of_mem hentry)), by simp⟩
  have honce : (names.map fun name => [name]).all
      (fun field => (entries.filter fun entry => field.contains entry.1).length ≤ 1) = true := by
    rw [List.all_eq_true]
    intro field hfield
    obtain ⟨name, _, rfl⟩ := List.mem_map.1 hfield
    have hcount : (entries.map Prod.fst).count name ≤ 1 := List.nodup_iff_count_le_one.1 hentries name
    rw [List.count, List.countP_map, List.countP_eq_length_filter] at hcount
    refine decide_eq_true (Nat.le_trans (Nat.le_of_eq ?_) hcount)
    congr 2
    funext entry
    simp only [Function.comp_apply, List.contains_cons, List.contains_nil, Bool.or_false]
  refine ⟨_, if_pos ⟨hall, honce⟩, ?_⟩
  intro index
  cases hindex : entries[index]? with
  | some entry =>
    obtain ⟨hlt, _⟩ := List.getElem?_eq_some_iff.1 hindex
    have hname : names[index]? = some entry.1 := by
      obtain ⟨rest, hrest⟩ := hnames
      rw [← hrest, List.getElem?_append_left (by simpa using hlt), List.getElem?_map, hindex]
      rfl
    simp only [List.getElem?_map, hname, Option.map_some, Option.bind_some]
    rw [find?_of_getElem? hentries hindex]
    rfl
  | none =>
    simp only [List.getElem?_map, Option.map_none]
    cases hname : names[index]? with
    | none => rfl
    | some name =>
      have hfree : name ∉ entries.map Prod.fst := by
        obtain ⟨rest, hrest⟩ := hnames
        intro hmem
        have hlen : (entries.map Prod.fst).length ≤ index := by
          simpa using List.getElem?_eq_none_iff.1 hindex
        rw [← hrest, List.getElem?_append_right hlen] at hname
        rw [← hrest] at hnodup
        exact (List.disjoint_of_nodup_append hnodup) hmem (List.mem_of_getElem? hname)
      simp only [Option.map_some, Option.bind_some, Option.map_eq_none_iff, List.find?_eq_none]
      intro entry hentry hcontains
      obtain rfl : entry.1 = name := by simpa using hcontains
      exact hfree (List.mem_map_of_mem hentry)

end Value

namespace store

open Value

/-! ## Records -/

theorem items_map {α : Type} {decode : Value → Option α} {encode : α → Value} {values : List α}
    (hvalues : ∀ value ∈ values, decode (encode value) = some value) :
    items decode (.array (values.map encode)) = some values := by
  simp only [items, as_array, Option.bind_some]
  induction values with
  | nil => rfl
  | cons value values ih =>
    rw [List.map_cons, List.mapM_cons, hvalues value List.mem_cons_self,
      ih fun other hother => hvalues other (List.mem_cons_of_mem _ hother)]
    rfl

theorem Selection.decode_encode (selection : Selection) : Selection.decode selection.encode = some selection := by
  obtain ⟨field, hfield, hindex⟩ := fields_record ["group", "proxy"]
    ([("group", .string selection.group), ("proxy", .string selection.proxy)]) (by decide) (by simp)
  unfold decode encode
  simp only [List.map_cons, List.map_nil] at hfield
  rw [hfield]
  simp [hindex, required, as_str]

theorem Desired.decode_encode (desired : Desired) : Desired.decode desired.encode = some desired := by
  obtain ⟨field, hfield, hindex⟩ := fields_record ["generation", "selections"]
    ([("generation", .number (.PosInt desired.generation)),
      ("selections", .array (desired.selections.map Selection.encode))]) (by decide) (by simp)
  unfold decode encode
  simp only [List.map_cons, List.map_nil] at hfield
  rw [hfield]
  have hitems := items_map (fun selection (_ : selection ∈ desired.selections) => selection.decode_encode)
  simp [hindex, required, u64, hitems]

theorem AutoControllerSecret.decode_encode (secret : AutoControllerSecret) :
    AutoControllerSecret.decode secret.encode = some secret := by
  simp only [decode, encode, as_str, Option.bind_some, Option.bind_eq_bind]
  rw [dif_pos secret.valid]

theorem Profile.decode_encode (profile : Profile) : Profile.decode profile.encode = some profile := by
  obtain ⟨key, storage_id, head, desired, secret⟩ := profile
  unfold decode encode
  cases secret with
  | none =>
    obtain ⟨field, hfield, hindex⟩ := fields_record
      ["key", "storage_id", "head", "desired", "auto_controller_secret"]
      ([("key", .string key), ("storage_id", .string storage_id), ("head", .string head),
        ("desired", desired.encode)]) (by decide) ⟨["auto_controller_secret"], rfl⟩
    simp only [List.append_nil]
    simp only [List.map_cons, List.map_nil] at hfield
    rw [hfield]
    simp [hindex, required, as_str, desired.decode_encode, defaulted]
  | some secret =>
    obtain ⟨field, hfield, hindex⟩ := fields_record
      ["key", "storage_id", "head", "desired", "auto_controller_secret"]
      ([("key", .string key), ("storage_id", .string storage_id), ("head", .string head),
        ("desired", desired.encode), ("auto_controller_secret", secret.encode)]) (by decide) ⟨[], rfl⟩
    simp only [List.cons_append, List.nil_append]
    simp only [List.map_cons, List.map_nil] at hfield
    rw [hfield]
    have hsecret : secret.encode.is_null = false := rfl
    simp [hindex, required, as_str, desired.decode_encode, defaulted, Value.optional, hsecret, secret.decode_encode]

theorem ActiveIdentity.decode_encode (active : ActiveIdentity) : ActiveIdentity.decode active.encode = some active := by
  obtain ⟨field, hfield, hindex⟩ := fields_record ["key", "revision"]
    ([("key", .string active.key), ("revision", .string active.revision)]) (by decide) (by simp)
  unfold decode encode
  simp only [List.map_cons, List.map_nil] at hfield
  rw [hfield]
  simp [hindex, required, as_str]

theorem nullable_encode {α : Type} {decode : Value → Option α} {encode : α → Value} {value : Option α} (record : Value)
    (hvalue : ∀ inner ∈ value, (encode inner).is_null = false ∧ decode (encode inner) = some inner) :
    nullable record decode (some (encode_option encode value)) = some value := by
  cases value with
  | none => rfl
  | some inner =>
    obtain ⟨hnull, hdecode⟩ := hvalue inner rfl
    simp [nullable, encode_option, Value.optional, hnull, hdecode]

theorem unsigned_number {bound n : Nat} (hn : n < bound) (hbound : bound ≤ 2 ^ 64) : (number n).unsigned bound = some n := by
  have hmod : (UInt64.ofNat n).toNat = n := by
    rw [UInt64.toNat_ofNat']
    exact Nat.mod_eq_of_lt (Nat.lt_of_lt_of_le hn hbound)
  simp [unsigned, number, as_u64, hmod, hn]

theorem Catalog.decode_encode {catalog : Catalog} (hschema : catalog.schema_version < 2 ^ 32) :
    Catalog.decode catalog.encode = some catalog := by
  obtain ⟨field, hfield, hindex⟩ := fields_record ["schema_version", "sequence", "active", "profiles"]
    ([("schema_version", number catalog.schema_version), ("sequence", .number (.PosInt catalog.sequence)),
      ("active", encode_option ActiveIdentity.encode catalog.active),
      ("profiles", .array (catalog.profiles.map Profile.encode))]) (by decide) (by simp)
  have hactive : nullable catalog.encode ActiveIdentity.decode (some (encode_option ActiveIdentity.encode catalog.active)) =
      some catalog.active := nullable_encode _ fun active _ => ⟨rfl, active.decode_encode⟩
  have hitems := items_map (fun profile (_ : profile ∈ catalog.profiles) => profile.decode_encode)
  have hversion := unsigned_number hschema (by decide)
  unfold decode
  rw [show catalog.encode.fields [["schema_version"], ["sequence"], ["active"], ["profiles"]] = some field from hfield]
  simp [hindex, required, u64, hitems, hversion, hactive, -Nat.reducePow]

/-! ## Nesting -/

theorem Selection.plain_encode (selection : Selection) : selection.encode.Plain 1 := by
  simp [encode, Plain]

theorem Desired.plain_encode (desired : Desired) : desired.encode.Plain 3 := by
  simp only [encode, Plain, List.forall_mem_cons, List.not_mem_nil, IsEmpty.forall_iff, implies_true, and_true, true_and,
    List.forall_mem_map]
  exact fun selection _ => selection.plain_encode

theorem Profile.plain_encode (profile : Profile) : profile.encode.Plain 4 := by
  obtain ⟨key, storage_id, head, desired, secret⟩ := profile
  cases secret with
  | none => simp [encode, Plain, desired.plain_encode]
  | some secret => simp [encode, Plain, desired.plain_encode, AutoControllerSecret.encode]

theorem Catalog.plain_encode (catalog : Catalog) : catalog.encode.Plain 6 := by
  obtain ⟨schema_version, sequence, active, profiles⟩ := catalog
  have hactive : (encode_option ActiveIdentity.encode active).Plain 5 := by
    cases active <;> simp [encode_option, ActiveIdentity.encode, Plain]
  have hprofiles : ∀ profile ∈ profiles, profile.encode.Plain 4 := fun profile _ => profile.plain_encode
  simpa [encode, Plain, number, hactive] using hprofiles

/-! ## Canonical form -/

open SortBy

theorem validate_selections_ok {selections sorted : List Selection} (hvalid : validate_selections selections = .ok sorted) :
    sorted = sortBy (·.group) selections ∧ (sorted.Pairwise fun a b => a.group < b.group) ∧
      validate_selections sorted = .ok sorted := by
  unfold validate_selections at hvalid
  simp only [bind_eq_ok_iff, ensure_eq_ok_iff, decide_eq_true_eq, Bool.and_eq_true] at hvalid
  obtain ⟨_, hcount, _, ⟨hsafe, hdistinct⟩, hsorted⟩ := hvalid
  obtain rfl := Except.ok.inj hsorted
  have hlt := (neighbours_ne_iff (pairwise_sortBy _ selections)).1 hdistinct
  refine ⟨rfl, hlt, ?_⟩
  unfold validate_selections
  have hself := sortBy_eq_self (pairwise_sortBy (fun s : Selection => s.group) selections)
  simp only [bind_eq_ok_iff, ensure_eq_ok_iff, decide_eq_true_eq, Bool.and_eq_true]
  exact ⟨(), by rwa [(perm_sortBy _ _).length_eq], (), by rw [hself]; exact ⟨hsafe, hdistinct⟩, congrArg Except.ok hself⟩

variable {platform : Platform}

/-- The profile with its selections in order. -/
def Profile.normal (p : Profile) : Profile :=
  { p with desired := { p.desired with selections := sortBy (·.group) p.desired.selections } }

/-- What every catalog that `canonical` accepted and `inspect` read back satisfies. -/
structure Catalog.Canonical (platform : Platform) (catalog : Catalog) : Prop where
  schema : catalog.schema_version = 2
  sorted : catalog.profiles.Pairwise fun a b => a.key < b.key
  key : ∀ p ∈ catalog.profiles, stored_key p.key = true
  storage_id : ∀ p ∈ catalog.profiles, p.storage_id = platform.storage_id p.key
  head : ∀ p ∈ catalog.profiles, ∃ bytes, unhex p.head 16 = .ok bytes
  selections : ∀ p ∈ catalog.profiles, p.desired.selections.Pairwise fun a b => a.group < b.group
  active : ∀ a ∈ catalog.active, ∃ p ∈ catalog.profiles, p.key = a.key ∧ p.head = a.revision

theorem canonical_profile_ok {p p' : Profile} (hcanonical : platform.canonical_profile p = .ok p') :
    p' = p.normal ∧ stored_key p.key = true ∧ p.storage_id = platform.storage_id p.key ∧
      (∃ bytes, unhex p.head 16 = .ok bytes) ∧ (p.normal.desired.selections.Pairwise fun a b => a.group < b.group) ∧
      platform.canonical_profile p.normal = .ok p.normal := by
  unfold Platform.canonical_profile at hcanonical
  simp only [bind_eq_ok_iff, ensure_eq_ok_iff, Bool.and_eq_true, beq_iff_eq] at hcanonical
  obtain ⟨_, ⟨hkey, hid⟩, bytes, hhead, selections, hselections, hp⟩ := hcanonical
  obtain ⟨rfl, hlt, hself⟩ := validate_selections_ok hselections
  obtain rfl := Except.ok.inj hp
  refine ⟨rfl, hkey, hid, ⟨bytes, hhead⟩, hlt, ?_⟩
  unfold Platform.canonical_profile
  simp only [bind_eq_ok_iff, ensure_eq_ok_iff, Bool.and_eq_true, beq_iff_eq]
  exact ⟨(), ⟨hkey, hid⟩, bytes, hhead, _, hself, rfl⟩

theorem canonical_profiles_ok {profiles profiles' : List Profile}
    (hprofiles : profiles.mapM platform.canonical_profile = .ok profiles') :
    profiles' = profiles.map Profile.normal ∧ (∀ p ∈ profiles, platform.canonical_profile p = .ok p.normal) ∧
      profiles'.mapM platform.canonical_profile = .ok profiles' := by
  have hforall := Traverse.mapM_eq_ok_iff.1 hprofiles
  clear hprofiles
  induction hforall with
  | nil => exact ⟨rfl, fun _ hp => (List.not_mem_nil hp).elim, rfl⟩
  | cons hp _ ih =>
    obtain ⟨rfl, hall, hself⟩ := ih
    obtain ⟨rfl, -, -, -, -, hpself⟩ := canonical_profile_ok hp
    refine ⟨rfl, ?_, ?_⟩
    · intro q hq
      rcases List.mem_cons.1 hq with rfl | hq
      · exact hp
      · exact hall q hq
    · rw [List.mapM_cons, hpself, hself]
      rfl

theorem canonical_catalog_ok {catalog catalog' : Catalog} (hcanonical : platform.canonical_catalog catalog = .ok catalog') :
    catalog' = { catalog with profiles := (sortBy (·.key) catalog.profiles).map Profile.normal } ∧
      catalog'.Canonical platform ∧ platform.canonical_catalog catalog' = .ok catalog' := by
  unfold Platform.canonical_catalog at hcanonical
  simp only [bind_eq_ok_iff, ensure_eq_ok_iff, beq_iff_eq] at hcanonical
  obtain ⟨_, hschema, _, hdistinct, profiles, hprofiles, _, hactive, hcatalog⟩ := hcanonical
  obtain rfl := Except.ok.inj hcatalog
  obtain ⟨rfl, hall, hself⟩ := canonical_profiles_ok hprofiles
  have hlt := (neighbours_ne_iff (pairwise_sortBy _ catalog.profiles)).1 hdistinct
  have hlt' : ((sortBy (·.key) catalog.profiles).map Profile.normal).Pairwise fun a b => a.key < b.key :=
    List.pairwise_map.2 hlt
  have hnormal : ∀ p ∈ (sortBy (·.key) catalog.profiles).map Profile.normal,
      ∃ q, platform.canonical_profile q = .ok q.normal ∧ p = q.normal := by
    intro p hp
    obtain ⟨q, hq, rfl⟩ := List.mem_map.1 hp
    exact ⟨q, hall q hq, rfl⟩
  refine ⟨rfl, ⟨hschema, hlt', ?_, ?_, ?_, ?_, ?_⟩, ?_⟩
  · intro p hp
    obtain ⟨q, hq, rfl⟩ := hnormal p hp
    exact (canonical_profile_ok hq).2.1
  · intro p hp
    obtain ⟨q, hq, rfl⟩ := hnormal p hp
    exact (canonical_profile_ok hq).2.2.1
  · intro p hp
    obtain ⟨q, hq, rfl⟩ := hnormal p hp
    exact (canonical_profile_ok hq).2.2.2.1
  · intro p hp
    obtain ⟨q, hq, rfl⟩ := hnormal p hp
    exact (canonical_profile_ok hq).2.2.2.2.1
  · intro a ha
    have hany := (Option.all_eq_true ..).1 hactive a ha
    obtain ⟨p, hp, hpa⟩ := List.any_eq_true.1 hany
    rw [Bool.and_eq_true, beq_iff_eq, beq_iff_eq] at hpa
    exact ⟨p, hp, hpa⟩
  · have hsorted := sortBy_eq_self (hlt'.imp le_of_lt)
    unfold Platform.canonical_catalog
    simp only [bind_eq_ok_iff, ensure_eq_ok_iff, beq_iff_eq, hsorted]
    refine ⟨(), hschema, (), (neighbours_ne_iff (hlt'.imp le_of_lt)).2 hlt', _, hself, (), hactive, rfl⟩

/-- The bytes `canonical` returns decode to a catalog whose canonical bytes they are. -/
theorem canonical_ok {catalog : Catalog} {bytes : List UInt8} (hcanonical : platform.canonical catalog = .ok bytes) :
    ∃ catalog', platform.canonical_catalog catalog = .ok catalog' ∧ bytes = line catalog'.encode ∧
      platform.from_slice bytes = some catalog'.encode ∧ Catalog.decode catalog'.encode = some catalog' ∧
      platform.canonical catalog' = .ok bytes ∧ bytes.length ≤ CATALOG_LIMIT := by
  unfold Platform.canonical at hcanonical
  simp only [bind_eq_ok_iff, ensure_eq_ok_iff, decide_eq_true_eq] at hcanonical
  obtain ⟨catalog', hcatalog, _, hlimit, hbytes⟩ := hcanonical
  obtain rfl := Except.ok.inj hbytes
  obtain ⟨-, hform, hself⟩ := canonical_catalog_ok hcatalog
  have hplain : catalog'.encode.Plain 127 := catalog'.plain_encode.mono (by decide)
  refine ⟨catalog', hcatalog, rfl, platform.from_slice_line _ hplain, Catalog.decode_encode ?_, ?_, hlimit⟩
  · rw [hform.schema]
    decide
  · unfold Platform.canonical
    simp only [bind_eq_ok_iff, ensure_eq_ok_iff, decide_eq_true_eq]
    exact ⟨catalog', hself, (), hlimit, rfl⟩

end store

end zc
