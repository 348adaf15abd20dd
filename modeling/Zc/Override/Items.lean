import Zc.Override.Project

/-!
# Proxies and groups of a projected document

`runtime_source` moves the groups among the proxies in front of the declared groups. No entry loses
its name, its type or its members on the way.
-/

namespace zc.override_script

variable {crates : Crates} {map out : Map} {key key' : String}

/-! ## Fields of a map -/

theorem lookup_typed_default {entry : String × Value} (hout : typed_default map entry = .ok out) :
    out.lookup key = (map.lookup key).or (if key = entry.1 then some entry.2 else none) := by
  obtain ⟨name, default⟩ := entry
  simp only [typed_default, Map.contains_key_eq, bind_eq_ok_iff] at hout
  obtain ⟨_, -, hpure⟩ := hout
  rw [← Except.ok.inj hpure]
  by_cases hkey : key = name
  · subst hkey
    rw [Map.lookup_default_self rfl, if_pos rfl]
    cases map.lookup key <;> rfl
  · rw [Map.lookup_default_of_ne _ hkey, if_neg hkey, Option.or_none]

/-- The defaults fill in what is absent. -/
theorem lookup_defaults {entries : List (String × Value)} (hout : entries.foldlM typed_default map = .ok out) :
    out.lookup key = (map.lookup key).or (entries.lookup key) := by
  induction entries generalizing map with
  | nil =>
    obtain rfl := Except.ok.inj hout
    exact (Option.or_none).symm
  | cons entry entries ih =>
    rw [List.foldlM_cons, bind_eq_ok_iff] at hout
    obtain ⟨next, hnext, hrest⟩ := hout
    rw [ih hrest, lookup_typed_default hnext, Option.or_assoc]
    obtain ⟨name, default⟩ := entry
    rw [@Map.lookup_cons entries key default name]
    by_cases hkey : key = name
    · rw [if_pos hkey, if_pos hkey, Option.some_or]
    · rw [if_neg hkey, if_neg hkey, Option.none_or]

theorem lookup_defaults_of_ne {entries : List (String × Value)} (hkey : key ∉ entries.map Prod.fst)
    (hout : entries.foldlM typed_default map = .ok out) : out.lookup key = map.lookup key := by
  have hnone : entries.lookup key = none := by
    rw [List.lookup_eq_none_iff]
    intro entry hentry
    have hne : key ≠ entry.1 := fun heq => hkey (heq ▸ List.mem_map_of_mem hentry)
    simpa using hne
  rw [lookup_defaults hout, hnone, Option.or_none]

theorem optional_string_of_present (hout : optional_string false map key = .ok out) : out = map := by
  unfold optional_string at hout
  split at hout
  · exact (Except.ok.inj hout).symm
  · rw [Bool.false_and, if_neg Bool.false_ne_true, bind_eq_ok_iff] at hout
    obtain ⟨_, -, hpure⟩ := hout
    exact (Except.ok.inj hpure).symm

variable {keys : List String}

theorem optional_strings_of_present (hout : keys.foldlM (optional_string false) map = .ok out) : out = map :=
  Traverse.foldlM_invariant (P := fun next => next = map) rfl
    (fun _ _ _ _ heq hnext => (optional_string_of_present hnext).trans heq) hout

theorem lookup_optional_string {nullable : Bool} {name : String} (hkey : key ≠ name)
    (hout : optional_string nullable map name = .ok out) : out.lookup key = map.lookup key := by
  unfold optional_string at hout
  split at hout
  · rw [← Except.ok.inj hout]
  · split at hout
    · rw [← Except.ok.inj hout, Map.lookup_remove_of_ne hkey]
    · obtain ⟨_, -, hpure⟩ := bind_eq_ok_iff.1 hout
      rw [← Except.ok.inj hpure]

theorem lookup_optional_strings {nullable : Bool} {names : List String} (hkey : key ∉ names)
    (hout : names.foldlM (optional_string nullable) map = .ok out) : out.lookup key = map.lookup key :=
  Traverse.foldlM_invariant (P := fun next => next.lookup key = map.lookup key) rfl
    (fun _ name _ hname heq hnext => (lookup_optional_string (fun h : key = name => hkey (h ▸ hname)) hnext).trans heq) hout

theorem lookup_removes (hkey : key ∉ keys) : (keys.foldl Map.remove map).lookup key = map.lookup key := by
  induction keys generalizing map with
  | nil => rfl
  | cons name keys ih =>
    obtain ⟨hne, hkeys⟩ := not_or.1 (List.mem_cons.not.1 hkey)
    rw [List.foldl_cons, ih hkeys, Map.lookup_remove_of_ne hne]

theorem update_items_eq_ok {f : List Value → Result (List Value)} (hout : update_items map key f = .ok out) :
    ∃ items results, map.lookup key = some (.array items) ∧ f items = .ok results ∧
      out.lookup key = some (.array results) ∧ ∀ key', key' ≠ key → out.lookup key' = map.lookup key' := by
  simp only [update_items, unwrap, bind_eq_ok_iff, okOr_eq_ok_iff] at hout
  obtain ⟨items, hitems, results, hresults, hpure⟩ := hout
  obtain ⟨value, hvalue, harray⟩ := Option.bind_eq_some_iff.1 hitems
  cases value with
  | array found =>
    obtain rfl := Option.some.inj harray
    rw [← Except.ok.inj hpure]
    exact ⟨found, results, hvalue, hresults, Map.lookup_insert_self, fun _ hne => Map.lookup_insert_of_ne hne⟩
  | _ => cases harray

theorem update_providers_eq_ok (hout : update_providers crates map = .ok out) :
    ∃ providers normal, map.lookup "rule-providers" = some (.object providers) ∧
      providers.mapM (normalize_provider crates) = .ok normal ∧ out.lookup "rule-providers" = some (.object normal) ∧
      ∀ key', key' ≠ "rule-providers" → out.lookup key' = map.lookup key' := by
  simp only [update_providers, unwrap, bind_eq_ok_iff, okOr_eq_ok_iff] at hout
  obtain ⟨providers, hproviders, normal, hnormal, hpure⟩ := hout
  obtain ⟨value, hvalue, hobject⟩ := Option.bind_eq_some_iff.1 hproviders
  cases value with
  | object found =>
    obtain rfl := Option.some.inj hobject
    rw [← Except.ok.inj hpure]
    exact ⟨found, normal, hvalue, hnormal, Map.lookup_insert_self, fun _ hne => Map.lookup_insert_of_ne hne⟩
  | _ => cases hobject

/-! ## Entries -/

/-- Two objects with the same value under each of some keys. -/
def Agree (keys : List String) (item item' : Value) : Prop :=
  item.as_object.isSome = true ∧ item'.as_object.isSome = true ∧ ∀ key ∈ keys, item'.get key = item.get key

variable {item item' : Value}

theorem Agree.trans {middle : Value} (hfirst : Agree keys item middle) (hsecond : Agree keys middle item') :
    Agree keys item item' :=
  ⟨hfirst.1, hsecond.2.1, fun key hkey => (hsecond.2.2 key hkey).trans (hfirst.2.2 key hkey)⟩

theorem agree_of_lookup (hitem : item.as_object = some map) (hlookup : ∀ key ∈ keys, out.lookup key = map.lookup key) :
    Agree keys item (.object out) := by
  cases item with
  | object entries =>
    obtain rfl := Option.some.inj hitem
    exact ⟨rfl, rfl, hlookup⟩
  | _ => cases hitem

/-- The fields of an entry that selections depend on. -/
def naming : List String :=
  ["name", "type", "proxies"]

theorem agree_canonical_plugin_proxy (hitem : canonical_plugin_proxy item = .ok item') : Agree naming item item' := by
  simp only [canonical_plugin_proxy, bind_eq_ok_iff, okOr_eq_ok_iff] at hitem
  obtain ⟨proxy, hproxy, aliased, haliased, _, -, hpure⟩ := hitem
  rw [← Except.ok.inj hpure]
  have hne : ∀ key ∈ naming, key ≠ "plugin_opts" ∧ key ≠ "plugin-opts" := by
    decide
  refine agree_of_lookup hproxy fun key hkey => ?_
  unfold canonical_plugin_alias at haliased
  split at haliased
  · rw [← Except.ok.inj haliased]
  · simp only [bind_eq_ok_iff] at haliased
    obtain ⟨_, -, hpure⟩ := haliased
    rw [← Except.ok.inj hpure, Map.lookup_insert_of_ne (hne key hkey).2, Map.lookup_remove_of_ne (hne key hkey).1]

theorem agree_normalize_proxy (hitem : normalize_proxy item = .ok item') :
    Agree naming item item' ∧ ∃ kind ∈ proxy_kinds, item.get "type" = some (.string kind) := by
  simp only [normalize_proxy, unwrap, bind_eq_ok_iff, okOr_eq_ok_iff, bail_if_eq_ok_iff, decide_eq_false_iff_not,
    Decidable.not_not] at hitem
  obtain ⟨proxy, hproxy, kind, hkind, _, hknown, placed, hplaced, texts, htexts, flags, hflags, aliased, haliased, _, -, _, -, _, -,
    _, -, hpure⟩ := hitem
  rw [← Except.ok.inj hpure]
  have hendpoint : ∀ key ∈ naming, placed.lookup key = proxy.lookup key := by
    have hne : ∀ key ∈ naming, key ≠ "server" ∧ key ≠ "port" := by
      decide
    intro key hkey
    unfold proxy_endpoint at hplaced
    split at hplaced
    · rw [← Except.ok.inj hplaced, Map.lookup_insert_of_ne (hne key hkey).2, Map.lookup_insert_of_ne (hne key hkey).1]
    · simp only [bind_eq_ok_iff] at hplaced
      obtain ⟨_, -, hpure⟩ := hplaced
      rw [← Except.ok.inj hpure]
  have hflags' : ([("tls", Value.bool false), ("skip-cert-verify", .bool false), ("udp", .bool false)].foldlM typed_default texts) =
      .ok flags := hflags
  refine ⟨agree_of_lookup hproxy fun key hkey => ?_, kind, hknown, ?_⟩
  · have hflag : key ∉ ["tls", "skip-cert-verify", "udp"] ∧ key ≠ "alterId" := by
      have hne : ∀ key ∈ naming, key ∉ ["tls", "skip-cert-verify", "udp"] ∧ key ≠ "alterId" := by
        decide
      exact hne key hkey
    rw [lookup_typed_default haliased, if_neg hflag.2, Option.or_none, lookup_defaults_of_ne hflag.1 hflags',
      optional_strings_of_present htexts, hendpoint key hkey]
  · cases item with
    | object entries =>
      obtain rfl := Option.some.inj hproxy
      obtain ⟨value, hvalue, hstr⟩ := Option.bind_eq_some_iff.1 hkind
      cases value with
      | string text =>
        obtain rfl := Option.some.inj hstr
        exact hvalue
      | _ => cases hstr
    | _ => cases hproxy

theorem agree_runtime_proxy (hitem : runtime_proxy item = .ok item') : Agree naming item item' := by
  simp only [runtime_proxy, unwrap, bind_eq_ok_iff, okOr_eq_ok_iff] at hitem
  obtain ⟨proxy, hproxy, hpure⟩ := hitem
  rw [← Except.ok.inj hpure]
  refine agree_of_lookup hproxy fun key hkey => ?_
  have hne : ∀ key ∈ naming, key ≠ "tls" ∧ key ≠ "skip-cert-verify" ∧ key ≠ "alterId" ∧
      key ∉ ["password", "cipher", "uuid", "alterId", "tls", "sni", "skip-cert-verify"] ∧
      key ∉ ["uuid", "alterId", "sni", "skip-cert-verify"] ∧ key ∉ ["uuid", "alterId", "cipher", "tls"] := by
    decide
  obtain ⟨htls, hskip, halter, hdirect, hss, htrojan⟩ := hne key hkey
  have hunused : ∀ kind, key ∉ unused_fields kind := by
    intro kind
    unfold unused_fields
    split
    · exact hdirect
    · split
      · exact hss
      · split
        · exact htrojan
        · exact List.not_mem_nil
  have hfiltered : ∀ p : String × Value → Bool, (∀ value, p (key, value) = true) →
      ((unused_fields ((List.lookup "type" (proxy.filter p)).bind Value.as_str)).foldl Map.remove (proxy.filter p)).lookup key =
        proxy.lookup key := by
    intro p hp
    rw [lookup_removes (hunused _), Map.lookup_filter hp]
  split
  · rw [Map.lookup_remove_of_ne halter]
    exact hfiltered _ fun value => by simp [htls, hskip]
  · exact hfiltered _ fun value => by simp [htls, hskip]

theorem agree_normalize_group (hitem : normalize_group item = .ok item') :
    Agree ["name", "type"] item item' ∧ item'.get "proxies" = some ((item.get "proxies").getD (.array [])) := by
  simp only [normalize_group, unwrap, bind_eq_ok_iff, okOr_eq_ok_iff] at hitem
  obtain ⟨_, -, group, hgroup, texts, htexts, filled, hfilled, _, -, _, -, hpure⟩ := hitem
  rw [← Except.ok.inj hpure]
  have hkeys : ∀ key ∈ ["name", "type"], key ∉ ["proxies", "interval", "tolerance", "lazy"] := by
    decide
  obtain rfl := optional_string_of_present htexts
  refine ⟨agree_of_lookup hgroup fun key hkey => ?_, ?_⟩
  · refine lookup_defaults_of_ne ?_ hfilled
    exact hkeys key hkey
  · cases item with
    | object entries =>
      obtain rfl := Option.some.inj hgroup
      exact (lookup_defaults hfilled).trans Option.or_some
    | _ => cases hgroup

theorem agree_runtime_group (hitem : runtime_group item = .ok item') : Agree naming item item' := by
  simp only [runtime_group, unwrap, bind_eq_ok_iff, okOr_eq_ok_iff] at hitem
  obtain ⟨group, hgroup, hpure⟩ := hitem
  rw [← Except.ok.inj hpure]
  have hkeys : ∀ key ∈ naming, key ∉ ["url", "interval", "tolerance", "lazy"] := by
    decide
  exact agree_of_lookup hgroup fun key hkey => lookup_removes (hkeys key hkey)

/-! ## The whole document -/

/-- The entries of a list field. -/
def entries (map : Map) (key : String) : List Value :=
  ((map.lookup key).bind Value.as_array).getD []

/-- A proxy and its projection. -/
def ProxyOf (item item' : Value) : Prop :=
  Agree naming item item' ∧ ∃ kind ∈ proxy_kinds, item.get "type" = some (.string kind)

/-- A group and its projection. -/
def GroupOf (item item' : Value) : Prop :=
  Agree ["name", "type"] item item' ∧ item'.get "proxies" = some ((item.get "proxies").getD (.array []))

theorem entries_of_lookup {items : List Value} (hitems : map.lookup key = some (.array items)) : entries map key = items := by
  rw [entries, hitems]
  rfl

theorem entries_congr (hlookup : out.lookup key = map.lookup key) : entries out key = entries map key := by
  rw [entries, entries, hlookup]

theorem entries_split_source_groups (map : Map) :
    entries (split_source_groups map) "proxies" = (entries map "proxies").filter (fun item => !is_group item) ∧
      entries (split_source_groups map) "proxy-groups" =
        (entries map "proxies").filter is_group ++ entries map "proxy-groups" := by
  have hproxies : entries map "proxies" = ((map.lookup "proxies").bind Value.as_array).getD [] := rfl
  unfold split_source_groups
  rw [hproxies]
  cases hfound : (map.lookup "proxies").bind Value.as_array with
  | none =>
    have hnone : entries map "proxies" = [] := by
      rw [hproxies, hfound]
      rfl
    exact ⟨hnone, rfl⟩
  | some proxies =>
    simp only [Option.getD_some]
    have hne : "proxies" ≠ "proxy-groups" := by
      decide
    have hgroups : ∀ items, entries (map.insert "proxies" (.array items)) "proxy-groups" = entries map "proxy-groups" :=
      fun items => entries_congr (Map.lookup_insert_of_ne hne.symm)
    split
    · next hempty =>
      refine ⟨entries_of_lookup Map.lookup_insert_self, ?_⟩
      rw [List.isEmpty_iff.1 hempty, List.nil_append]
      exact hgroups _
    · refine ⟨entries_of_lookup ?_, entries_of_lookup ?_⟩
      · rw [Map.lookup_insert_of_ne hne, Map.lookup_remove_of_ne hne, Map.lookup_insert_self]
      · rw [Map.lookup_insert_self]
        exact congrArg (fun items => some (Value.array (_ ++ items))) (hgroups _)

theorem entries_canonical_plugin_options (hout : canonical_plugin_options map = .ok out) :
    List.Forall₂ (Agree naming) (entries map "proxies") (entries out "proxies") ∧
      ∀ key, key ≠ "proxies" → out.lookup key = map.lookup key := by
  unfold canonical_plugin_options at hout
  split at hout
  · next hnone =>
    obtain rfl := Except.ok.inj hout
    rw [entries, hnone]
    exact ⟨.nil, fun _ _ => rfl⟩
  · next proxies hproxies =>
    simp only [bind_eq_ok_iff] at hout
    obtain ⟨results, hresults, hpure⟩ := hout
    obtain rfl := Except.ok.inj hpure
    refine ⟨?_, fun key hne => Map.lookup_insert_of_ne hne⟩
    rw [entries_of_lookup Map.lookup_insert_self, entries, hproxies]
    exact (Traverse.mapM_eq_ok_iff.1 hresults).imp fun _ _ => agree_canonical_plugin_proxy

theorem entries_normalize_config (hout : normalize_config crates map = .ok out) :
    ∃ proxies groups, out.lookup "proxies" = some (.array proxies) ∧ out.lookup "proxy-groups" = some (.array groups) ∧
      List.Forall₂ ProxyOf (entries map "proxies") proxies ∧ List.Forall₂ GroupOf (entries map "proxy-groups") groups := by
  simp only [normalize_config, bind_eq_ok_iff] at hout
  obtain ⟨_, -, filled, hfilled, texts, htexts, _, -, _, -, placed, hplaced, grouped, hgrouped, provided, hprovided, hruled⟩ := hout
  obtain ⟨proxies, proxies', hproxies, hproxies', hplaced_proxies, hplaced_other⟩ := update_items_eq_ok hplaced
  obtain ⟨groups, groups', hgroups, hgroups', hgrouped_groups, hgrouped_other⟩ := update_items_eq_ok hgrouped
  obtain ⟨_, _, -, -, -, hprovided_other⟩ := update_providers_eq_ok hprovided
  obtain ⟨_, _, -, -, -, hruled_other⟩ := update_items_eq_ok hruled
  have hfield : ∀ key, defaults.lookup key = some (.array []) → key ∉ ["external-controller", "external-ui", "secret"] →
      texts.lookup key = some ((map.lookup key).getD (.array [])) := by
    intro key hdefault hkey
    rw [lookup_optional_strings hkey htexts, lookup_defaults hfilled, hdefault, Option.or_some]
  have hentries : ∀ (key : String) (items : List Value), (map.lookup key).getD (.array []) = .array items → entries map key = items := by
    intro key items hitems
    rw [entries]
    cases hlookup : map.lookup key with
    | none =>
      rw [hlookup] at hitems
      exact Value.array.inj hitems
    | some value =>
      rw [hlookup] at hitems
      rw [Option.bind_some, show value = .array items from hitems]
      rfl
  refine ⟨proxies', groups', ?_, ?_, ?_, ?_⟩
  · rw [hruled_other _ (by decide), hprovided_other _ (by decide), hgrouped_other _ (by decide), hplaced_proxies]
  · rw [hruled_other _ (by decide), hprovided_other _ (by decide), hgrouped_groups]
  · rw [hfield "proxies" rfl (by decide), Option.some.injEq] at hproxies
    rw [hentries _ _ hproxies]
    exact (Traverse.mapM_eq_ok_iff.1 hproxies').imp fun _ _ => agree_normalize_proxy
  · rw [hplaced_other _ (by decide), hfield "proxy-groups" rfl (by decide), Option.some.injEq] at hgroups
    rw [hentries _ _ hgroups]
    exact (Traverse.mapM_eq_ok_iff.1 hgroups').imp fun _ _ => agree_normalize_group

/-! ### Plain fields -/

theorem lookup_runtime_bind (hne : key ≠ "bind-address") : (runtime_bind map).lookup key = map.lookup key := by
  unfold runtime_bind
  split
  · exact Map.lookup_insert_of_ne hne
  · rfl

theorem forall₂_trans {α β γ : Type} {r : α → β → Prop} {s : β → γ → Prop} {t : α → γ → Prop} (ht : ∀ a b c, r a b → s b c → t a c)
    {xs : List α} {ys : List β} {zs : List γ} (hfirst : List.Forall₂ r xs ys) (hsecond : List.Forall₂ s ys zs) :
    List.Forall₂ t xs zs := by
  induction hfirst generalizing zs with
  | nil =>
    cases hsecond
    exact .nil
  | cons hhead _ ih =>
    cases hsecond with
    | cons hhead' htail => exact .cons (ht _ _ _ hhead hhead') (ih htail)

/-- The entries of the projection, beside those of the document. -/
theorem entries_projection (hout : projection crates map = .ok out) :
    ∃ proxies groups, out.lookup "proxies" = some (.array proxies) ∧ out.lookup "proxy-groups" = some (.array groups) ∧
      List.Forall₂ ProxyOf ((entries map "proxies").filter fun item => !is_group item) proxies ∧
      List.Forall₂ GroupOf ((entries map "proxies").filter is_group ++ entries map "proxy-groups") groups := by
  simp only [projection, bind_eq_ok_iff] at hout
  obtain ⟨_, -, plugged, hplugged, normal, hnormal, grouped, hgrouped, hout⟩ := hout
  obtain ⟨hplugged_proxies, hplugged_other⟩ := entries_canonical_plugin_options hplugged
  obtain ⟨proxies, groups, hproxies, hgroups, hproxies_of, hgroups_of⟩ := entries_normalize_config hnormal
  obtain ⟨hsplit_proxies, hsplit_groups⟩ := entries_split_source_groups map
  have hruntime : ∀ key, key ∉ metadata_fields → key ≠ "bind-address" →
      (runtime_bind (metadata_fields.foldl Map.remove normal)).lookup key = normal.lookup key := by
    intro key hmeta hne
    rw [lookup_runtime_bind hne, lookup_removes hmeta]
  obtain ⟨groups', results, hgroups', hresults, hlookup, hother⟩ := update_items_eq_ok hgrouped
  rw [hruntime _ (by decide) (by decide), hgroups] at hgroups'
  obtain rfl := Value.array.inj (Option.some.inj hgroups')
  obtain ⟨proxies', results', hproxies', hresults', hlookup', hother'⟩ := update_items_eq_ok hout
  rw [hother _ (by decide), hruntime _ (by decide) (by decide), hproxies] at hproxies'
  obtain rfl := Value.array.inj (Option.some.inj hproxies')
  refine ⟨results', results, hlookup', by rw [hother' _ (by decide), hlookup], ?_, ?_⟩
  · rw [hsplit_proxies] at hplugged_proxies
    have hnormal_proxies := forall₂_trans (t := ProxyOf) (fun item middle item' (hagree : Agree naming item middle) hproxy =>
      ⟨hagree.trans hproxy.1, (hagree.2.2 "type" (by decide)) ▸ hproxy.2⟩) hplugged_proxies hproxies_of
    exact forall₂_trans (fun item middle item' hproxy hitem => ⟨hproxy.1.trans (agree_runtime_proxy hitem), hproxy.2⟩)
      hnormal_proxies (Traverse.mapM_eq_ok_iff.1 hresults')
  · rw [entries_congr (hplugged_other _ (by decide)), hsplit_groups] at hgroups_of
    refine forall₂_trans (fun item middle item' hgroup hitem => ?_) hgroups_of (Traverse.mapM_eq_ok_iff.1 hresults)
    have hagree := agree_runtime_group hitem
    refine ⟨hgroup.1.trans ⟨hagree.1, hagree.2.1, fun key hkey => hagree.2.2 key ?_⟩, (hagree.2.2 _ (by decide)).trans hgroup.2⟩
    have hsub : ∀ key ∈ ["name", "type"], key ∈ naming := by
      decide
    exact hsub key hkey

end zc.override_script
