import Zc.Daemon.Select
import Zc.Service.Admission
import Zc.Store.Retain

/-!
# Selections across revisions

Publishing over a profile keeps the stored selections that the new configuration accepts, so that
reconciling them at the next start drops nothing.
-/

namespace zc.service

open store (Platform Bundle Catalog Profile Selection PublishArgs Publication offers)
open override_script (Map runtime_source)
open config (Config)
open daemon (selection_map)

/-- `reconcile_selections`; an accepted entry is selected on the way. -/
def reconcile_selections (cfg : Config) : List Selection → Config × List Selection
  | [] => (cfg, [])
  | s :: selections =>
    match cfg.select s.group s.proxy with
    | .ok next =>
      let (last, kept) := reconcile_selections next selections
      (last, s :: kept)
    | .error _ => reconcile_selections cfg selections

/-- Whether the configuration accepts a selection. -/
def accepts (cfg : Config) (s : Selection) : Bool :=
  (cfg.select s.group s.proxy).isOk

variable {cfg : Config}

theorem accepts_iff {s : Selection} : accepts cfg s = true ↔ ∃ next, cfg.select s.group s.proxy = .ok next := by
  unfold accepts
  cases cfg.select s.group s.proxy with
  | ok next => exact ⟨fun _ => ⟨next, rfl⟩, fun _ => rfl⟩
  | error error => exact ⟨nofun, fun ⟨_, h⟩ => nomatch h⟩

theorem accepts_with_selections (cfg : Config) (selections : List Nat) (s : Selection) :
    accepts { cfg with selections } s = accepts cfg s := by
  unfold accepts Config.select
  rw [Config.selection_with_selections]
  cases cfg.selection s.group s.proxy <;> rfl

/-- The entries selected on the way do not matter for the later ones. -/
theorem reconcile_selections_snd (cfg : Config) (selections : List Selection) :
    (reconcile_selections cfg selections).2 = selections.filter (accepts cfg) := by
  induction selections generalizing cfg with
  | nil => rfl
  | cons s selections ih =>
    unfold reconcile_selections
    cases hselect : cfg.select s.group s.proxy with
    | error error =>
      have hrejects : accepts cfg s = false := by
        rw [accepts, hselect]
        rfl
      rw [List.filter_cons, if_neg (by rw [hrejects]; exact Bool.false_ne_true)]
      exact ih cfg
    | ok next =>
      obtain ⟨stored, rfl⟩ : ∃ stored, next = { cfg with selections := stored } := by
        simp only [Config.select, bind_eq_ok_iff] at hselect
        obtain ⟨_, -, hpure⟩ := hselect
        exact ⟨_, (Except.ok.inj hpure).symm⟩
      rw [List.filter_cons, if_pos (accepts_iff.2 ⟨_, hselect⟩)]
      refine congrArg (List.cons s) ((ih _).trans (List.filter_congr fun other _ => accepts_with_selections cfg stored other))

/-! ## Selections as a map -/

theorem exists_selection_map {selections : List Selection} (hcount : selections.length ≤ 1024)
    (hnodup : (selections.map (·.group)).Nodup) :
    ∃ map, selection_map selections = .ok map ∧ map.entries.length ≤ selections.length := by
  suffices hfold : ∀ (todo : List Selection) (start : SortedMap String String), (todo.map (·.group)).Nodup →
      (∀ s ∈ todo, start.get s.group = none) →
      ∃ map, todo.foldlM daemon.selection_entry start = .ok map ∧ map.entries.length ≤ start.entries.length + todo.length by
    obtain ⟨map, hmap, hlength⟩ := hfold selections .empty hnodup fun _ _ => rfl
    refine ⟨map, ?_, by simpa [SortedMap.empty] using hlength⟩
    simp only [selection_map, bind_eq_ok_iff, ensure_eq_ok_iff, decide_eq_true_eq]
    exact ⟨(), hcount, hmap⟩
  intro todo
  induction todo with
  | nil => exact fun start _ _ => ⟨start, rfl, Nat.le_refl _⟩
  | cons s todo ih =>
    intro start hnodup hfree
    rw [List.map_cons, List.nodup_cons] at hnodup
    rw [List.forall_mem_cons] at hfree
    have hfree' : ∀ other ∈ todo, (start.insert s.group s.proxy).get other.group = none := by
      intro other hother
      refine List.lookup_eq_none_iff.2 fun entry hentry => ?_
      have hne : other.group ≠ entry.1 := by
        rcases SortedMap.mem_entries_insert.1 hentry with rfl | ⟨hentry, -⟩
        · exact fun heq => hnodup.1 (List.mem_map.2 ⟨other, hother, heq⟩)
        · simpa using List.lookup_eq_none_iff.1 (hfree.2 other hother) entry hentry
      simpa using hne
    obtain ⟨map, hmap, hlength⟩ := ih (start.insert s.group s.proxy) hnodup.2 hfree'
    refine ⟨map, ?_, ?_⟩
    · rw [List.foldlM_cons]
      refine bind_eq_ok_iff.2 ⟨_, ?_, hmap⟩
      simp only [daemon.selection_entry, bind_eq_ok_iff, ensure_eq_ok_iff, Option.isNone_iff_eq_none]
      exact ⟨(), hfree.1, rfl⟩
    · have hinsert := SortedMap.length_insertEntry_le s.group s.proxy start.entries
      rw [List.length_cons]
      change (start.insert s.group s.proxy).entries.length ≤ _ at hinsert
      omega

/-- Distinct accepted selections can be set at once. -/
theorem set_selections_of_accepts {selections : List Selection} (hcount : selections.length ≤ 1024)
    (hnodup : (selections.map (·.group)).Nodup) (haccepts : ∀ s ∈ selections, accepts cfg s = true) :
    ∃ map next, selection_map selections = .ok map ∧ cfg.set_selections map.entries = .ok next := by
  obtain ⟨map, hmap, hlength⟩ := exists_selection_map hcount hnodup
  obtain ⟨next, hnext⟩ := Config.exists_set_selections (hlength.trans hcount) fun entry hentry => by
    obtain ⟨s, hs, rfl⟩ := (daemon.selection_map_entries hmap entry).1 hentry
    obtain ⟨next, hselect⟩ := accepts_iff.1 (haccepts s hs)
    simp only [Config.select, bind_eq_ok_iff] at hselect
    obtain ⟨found, hfound, -⟩ := hselect
    exact ⟨found, hfound⟩
  exact ⟨map, next, hmap, hnext⟩

/-! ## The configuration of a bundle -/

/-- A configuration of a bundle's runtime source: with any provider files, or as `catalog_ready`
    builds it once the remote providers are left out. -/
inductive Runs (platform : Platform) (bundle : Bundle) (cfg : Config) : Prop where
  | source {text : String} {assets : config.Assets} (htext : runtime_source platform.crates bundle.effective_source = .ok text)
      (hcfg : Config.parse_with_assets platform.crates text assets = .ok cfg)
  | offline {source text : String} {document deferred : Value} (hsource : str.from_utf8 bundle.effective_source = some source)
      (hdocument : config.parse_document platform.crates source = .ok document)
      (hdeferred : bundle.remotes.foldlM (store.defer_remote platform.crates bundle) document = .ok deferred)
      (htext : runtime_source platform.crates (serde_json.to_vec deferred) = .ok text)
      (hcfg : Config.parse_with_assets platform.crates text bundle.local_asset_bytes = .ok cfg)

variable {platform : Platform} {bundle : Bundle}

theorem exists_runs (hready : bundle.catalog_ready platform = .ok true) : ∃ cfg, Runs platform bundle cfg := by
  obtain ⟨source, hsource, hoffline⟩ := catalog_ready_eq_true hready
  simp only [Bundle.validate_offline, bind_eq_ok_iff] at hoffline
  obtain ⟨document, hdocument, deferred, hdeferred, text, htext, cfg, hcfg, -⟩ := hoffline
  exact ⟨cfg, .offline hsource hdocument hdeferred htext hcfg⟩

variable {document : Value}

theorem get_defer_remote {crates : Crates} {next : Value} {remote : store.RemoteProvider}
    (hvalid : document.valid = true) (hnext : store.defer_remote crates bundle document remote = .ok next) :
    next.valid = true ∧ ∀ key, key ≠ "rule-providers" → next.get key = document.get key := by
  simp only [store.defer_remote, bind_eq_ok_iff, okOr_eq_ok_iff] at hnext
  obtain ⟨_, -, _, -, providers, hproviders, declaration, -, _, -, entries, hentries, hpure⟩ := hnext
  rw [← Except.ok.inj hpure]
  cases document with
  | object map =>
    obtain rfl := Option.some.inj hentries
    obtain ⟨value, hvalue, hobject⟩ := Option.bind_eq_some_iff.1 hproviders
    have hvalid_providers := override_script.valid_as_object (Map.Valid.lookup hvalid hvalue) hobject
    exact ⟨Map.Valid.insert hvalid (Map.Valid.filter hvalid_providers _), fun key hne => Map.lookup_insert_of_ne hne⟩
  | _ => cases hentries

theorem offers_congr {document' : Value} (hget : ∀ key, key ≠ "rule-providers" → document'.get key = document.get key)
    (s : Selection) : offers document' s = offers document s := by
  simp only [offers, List.flatMap_cons, List.flatMap_nil, hget "proxies" (by decide), hget "proxy-groups" (by decide)]

/-- The raw entries of a bundle offer what its configuration accepts. -/
theorem Runs.offers_eq (hlaw : platform.crates.Lawful) (hruns : Runs platform bundle cfg)
    (hdocument : platform.parse_document bundle.effective_source = .ok document) : offers document = accepts cfg := by
  simp only [Platform.parse_document, bind_eq_ok_iff, okOr_eq_ok_iff] at hdocument
  obtain ⟨_, -, source, hsource, hdocument⟩ := hdocument
  have hvalid := valid_of_parse_document hlaw hdocument
  have hselect : ∀ {map out : Map} {assets : config.Assets}, (Value.object map).valid = true →
      override_script.projection platform.crates map = .ok out →
      Config.parse_with_assets platform.crates (serde_json.to_string (.object out)) assets = .ok cfg →
      offers (.object map) = accepts cfg := by
    intro map out assets hvalid hout hcfg
    rw [Config.parse_with_assets, override_script.parse_inner_to_string_iff hlaw (override_script.valid_projection hvalid hout)] at hcfg
    funext s
    rw [Bool.eq_iff_iff, store.offers_iff_select hvalid hout hcfg.2, accepts_iff]
  cases hruns with
  | source htext hcfg =>
    obtain ⟨map, out, hmap, hout, rfl⟩ := override_script.runtime_source_eq_ok_iff.1 htext
    simp only [override_script.document, bind_eq_ok_iff, okOr_eq_ok_iff, mapErr_eq_ok_iff] at hmap
    obtain ⟨_, -, source', hsource', value, hvalue, _, -, _, -, hpure⟩ := hmap
    obtain rfl := Option.some.inj (hsource.symm.trans hsource')
    obtain rfl := Except.ok.inj (hdocument.symm.trans hvalue)
    obtain rfl := Except.ok.inj hpure
    exact hselect hvalid hout hcfg
  | offline hsource' hdocument' hdeferred htext hcfg =>
    obtain rfl := Option.some.inj (hsource.symm.trans hsource')
    obtain rfl := Except.ok.inj (hdocument.symm.trans hdocument')
    obtain ⟨hvalid', hget⟩ := Traverse.foldlM_invariant (P := fun next : Value => next.valid = true ∧
        ∀ key, key ≠ "rule-providers" → next.get key = document.get key) ⟨hvalid, fun _ _ => rfl⟩
      (fun _ _ _ _ hprev hnext =>
        have hstep := get_defer_remote hprev.1 hnext
        ⟨hstep.1, fun key hne => (hstep.2 key hne).trans (hprev.2 key hne)⟩) hdeferred
    obtain ⟨map, out, hmap, hout, rfl⟩ := override_script.runtime_source_eq_ok_iff.1 htext
    obtain ⟨rfl, -⟩ := override_script.document_to_vec_ok hlaw hvalid' hmap
    rw [← hselect hvalid' hout hcfg]
    funext s
    exact (offers_congr hget s).symm

/-! ## Publishing -/

theorem retain_selections_ok {desired kept : store.Desired}
    (hretain : store.retain_selections document desired = .ok kept) :
    kept.selections = desired.selections.filter (offers document) ∧
      kept.generation.toNat = desired.generation.toNat + if kept.selections = desired.selections then 0 else 1 := by
  unfold store.retain_selections at hretain
  dsimp only at hretain
  split at hretain
  · next hlength =>
    obtain rfl := Except.ok.inj hretain
    refine ⟨rfl, ?_⟩
    rw [if_pos (List.filter_sublist.eq_of_length hlength), Nat.add_zero]
  · next hlength =>
    simp only [bind_eq_ok_iff, okOr_eq_ok_iff] at hretain
    obtain ⟨generation, hsucc, hpure⟩ := hretain
    obtain rfl := Except.ok.inj hpure
    refine ⟨rfl, ?_⟩
    rw [if_neg fun heq => hlength (congrArg List.length heq)]
    unfold Platform.checked_succ at hsucc
    split at hsucc
    · next hlt =>
      obtain rfl := Option.some.inj hsucc
      rw [UInt64.toNat_add, Nat.mod_eq_of_lt (by simpa using hlt)]
      rfl
    · cases hsucc

variable {catalog : Catalog}

theorem find_update {key : String} {old profile : Profile} (hold : catalog.find key = some old)
    (hkey : profile.key = key) : (catalog.update key fun _ => profile).find key = some profile := by
  obtain ⟨_, _, _, profiles⟩ := catalog
  unfold Catalog.find Catalog.update at *
  dsimp only at *
  induction profiles with
  | nil => cases hold
  | cons p profiles ih =>
    rw [Catalog.update.go]
    by_cases heq : p.key = key
    · rw [if_pos heq, List.find?_cons_of_pos (by simpa using hkey)]
    · have hne : (p.key == key) = false := by
        simpa using heq
      rw [if_neg heq, List.find?_cons, hne]
      rw [List.find?_cons, hne] at hold
      exact ih hold

/-- A catalog that will be written lists distinct groups in every profile. -/
theorem distinct_of_canonical_next {bytes : List UInt8} (hcanonical : platform.canonical_next catalog = .ok bytes)
    {profile : Profile} (hprofile : profile ∈ catalog.profiles) :
    profile.desired.selections.length ≤ 1024 ∧ (profile.desired.selections.map (·.group)).Nodup := by
  simp only [Platform.canonical_next, Platform.canonical, Platform.canonical_catalog, bind_eq_ok_iff] at hcanonical
  obtain ⟨sequence, -, canonical, ⟨_, -, _, -, profiles, hprofiles, -⟩, -⟩ := hcanonical
  have hmem : profile ∈ SortBy.sortBy (·.key) catalog.profiles := (SortBy.perm_sortBy _ _).mem_iff.2 hprofile
  obtain ⟨profile', -, hprofile'⟩ := Traverse.exists_right_of_forall₂ (Traverse.mapM_eq_ok_iff.1 hprofiles) hmem
  simp only [Platform.canonical_profile, bind_eq_ok_iff] at hprofile'
  obtain ⟨_, -, _, -, sorted, hsorted, -⟩ := hprofile'
  obtain ⟨rfl, hlt, -⟩ := store.validate_selections_ok hsorted
  simp only [store.validate_selections, bind_eq_ok_iff, ensure_eq_ok_iff, decide_eq_true_eq] at hsorted
  obtain ⟨_, hcount, -⟩ := hsorted
  refine ⟨hcount, ?_⟩
  have hperm := SortBy.perm_sortBy (fun s : Selection => s.group) profile.desired.selections
  rw [← (hperm.map (·.group)).nodup_iff]
  exact List.pairwise_map.2 (hlt.imp fun h => ne_of_lt h)

theorem plan_publish_over {args : PublishArgs} {plan : Publication} {old : Profile}
    (hold : catalog.find args.key = some old) (hplan : platform.plan_publish catalog args = .ok plan) :
    ∃ document profile bytes, platform.parse_document args.bundle.effective_source = .ok document ∧
      store.retain_selections document old.desired = .ok profile.desired ∧ plan.catalog.find args.key = some profile ∧
      platform.canonical_next plan.catalog = .ok bytes := by
  simp only [Platform.plan_publish, bind_eq_ok_iff, hold, Option.map_some, Option.getD_some, Option.isSome_some, if_true] at hplan
  obtain ⟨_, -, _, -, ready, -, _, -, _, -, _, -, document, hdocument, desired, hdesired, bytes, hbytes, hpure⟩ := hplan
  obtain rfl := Except.ok.inj hpure
  let metadata := { args.metadata with params := SortBy.sortBy (·.key) args.metadata.params }
  let head := platform.revision_id args.key (platform.content_digest args.key args.bundle metadata args.frozen)
  refine ⟨document, ⟨args.key, platform.storage_id args.key, head, desired, old.auto_controller_secret⟩, bytes, hdocument, hdesired, ?_,
    hbytes⟩
  dsimp only
  split
  · exact find_update hold rfl
  · exact find_update hold rfl

/-- A document with one group. -/
def grouped : Map :=
  [("proxy-groups", .array [.object [("name", .string "g"), ("proxies", .array [.string "DIRECT"]), ("type", .string "select")]])]

/-- A profile with a selection of that group and one of a group that is gone. -/
def stale : Profile :=
  { key := "k", storage_id := jsonPlatform.storage_id "k", head := "h", auto_controller_secret := none
    desired := { generation := 7, selections := [⟨"g", "DIRECT"⟩, ⟨"h", "DIRECT"⟩] } }

def staleCatalog : Catalog :=
  { schema_version := 2, sequence := 0, active := none, profiles := [stale] }

def regroup : PublishArgs :=
  { key := "k", expected_head := some "h", bundle := localBundle grouped .empty, metadata := ⟨none, none, []⟩, frozen := none,
    activate := false }

end zc.service
