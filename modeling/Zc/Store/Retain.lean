import Zc.Config.Offered
import Zc.Override.Configured
import Zc.Override.Items
import Zc.Store.Operations

/-!
# Selections that a new revision keeps

A published document is read twice: its raw entries decide which selections stay, and its projection
is what runs. Both mean the same members by a group.
-/

namespace zc.store

open override_script (Map entries ProxyOf GroupOf projection naming)
open config (Config RawConfig RawEntry RawGroup RawProxy Assets Declared)

/-! ## Declarations -/

theorem as_str_eq_some {value : Value} {text : String} (hvalue : value.as_str = some text) : value = .string text := by
  cases value with
  | string found => exact congrArg Value.string (Option.some.inj hvalue)
  | _ => cases hvalue

variable {group : RawGroup}

/-- What a group is read from. -/
theorem raw_group_eq_some {map : Map} (hordered : map.Ordered)
    (hgroup : RawGroup.deserialize (.object map) = some group) :
    map.lookup "name" = some (.string group.name) ∧ map.lookup "type" = some (.string group.kind) ∧
      ∃ members, map.lookup "proxies" = some (.array members) ∧
        List.Forall₂ (fun member name => member.as_str = some name) members group.proxies := by
  have hknown : ∀ entry ∈ map, entry.1 ∈ naming := config.known_of_fields hgroup
  have hfields := config.fields_object hordered hknown
  change (Value.fields (naming.map fun name => [name]) (.object map)).bind _ = _ at hgroup
  rw [hfields, Option.bind_some] at hgroup
  obtain ⟨name, hname, hgroup⟩ := Option.bind_eq_some_iff.1 hgroup
  obtain ⟨kind, hkind, hgroup⟩ := Option.bind_eq_some_iff.1 hgroup
  obtain ⟨proxies, hproxies, hgroup⟩ := Option.bind_eq_some_iff.1 hgroup
  obtain rfl := Option.some.inj hgroup
  obtain ⟨value, hvalue, htext⟩ := Option.bind_eq_some_iff.1 hname
  obtain ⟨value', hvalue', htext'⟩ := Option.bind_eq_some_iff.1 hkind
  obtain ⟨list, hlist, hbounded⟩ := Option.bind_eq_some_iff.1 hproxies
  obtain ⟨members, hmembers, hmap⟩ := Option.bind_eq_some_iff.1 hbounded
  split at hmap
  · refine ⟨hvalue.trans (congrArg some (as_str_eq_some htext)), hvalue'.trans (congrArg some (as_str_eq_some htext')),
      members, ?_, Traverse.mapM_eq_some_iff.1 hmap⟩
    cases list with
    | array items =>
      obtain rfl := Option.some.inj hmembers
      exact hlist
    | _ => cases hmembers
  · cases hmap

theorem raw_proxy_members {map : Map} {proxy : RawProxy} (hproxy : RawProxy.deserialize (.object map) = some proxy) :
    map.lookup "proxies" = none := by
  obtain ⟨field, hfield, -⟩ := Option.bind_eq_some_iff.1 hproxy
  rw [Value.fields] at hfield
  split at hfield
  · next hall =>
    refine List.lookup_eq_none_iff.2 fun entry hentry => ?_
    have hknown := List.all_eq_true.1 hall.1 entry hentry
    have hne : "proxies" ≠ entry.1 := by
      intro heq
      rw [← heq] at hknown
      revert hknown
      decide
    simpa using hne
  · cases hfield

variable {selection : Selection} {item item' : Value}

section Offers

variable {crates : Crates} {map out : Map} {assets : Assets} {cfg : Config}

/-- A raw entry that lists a member under a group's name. -/
def Lists (selection : Selection) (item : Value) : Prop :=
  (item.get "name").bind Value.as_str = some selection.group ∧
    ∃ members, (item.get "proxies").bind Value.as_array = some members ∧ ∃ member ∈ members, member.as_str = some selection.proxy

theorem offers_iff :
    offers (.object map) selection = true ↔ ∃ item ∈ entries map "proxies" ++ entries map "proxy-groups", Lists selection item := by
  have hitems : (["proxies", "proxy-groups"].flatMap fun key => (((Value.object map).get key).bind Value.as_array).getD []) =
      entries map "proxies" ++ entries map "proxy-groups" := by
    simp only [List.flatMap_cons, List.flatMap_nil, List.append_nil]
    rfl
  rw [offers, hitems, List.any_eq_true]
  simp only [Bool.and_eq_true, beq_iff_eq, Option.any_eq_true, List.any_eq_true, Lists]

/-- A projected group lists what it was declared with. -/
theorem lists_iff_of_group (hitem : GroupOf item item') (hvalid : item'.valid = true)
    (hgroup : RawGroup.deserialize item' = some group) :
    Lists selection item ↔ group.name = selection.group ∧ selection.proxy ∈ group.proxies := by
  obtain ⟨⟨hobject, hobject', hagree⟩, hmembers⟩ := hitem
  cases item' with
  | object map' =>
    obtain ⟨hname, -, members, hlist, hproxies⟩ := raw_group_eq_some (Map.Valid.ordered hvalid) hgroup
    have hget : item.get "name" = some (.string group.name) := (hagree "name" (by decide)).symm.trans hname
    have hvalue : (item.get "proxies").getD (.array []) = .array members := Option.some.inj (hmembers.symm.trans hlist)
    constructor
    · rintro ⟨hgroup_name, found, hfound, member, hmember, hproxy⟩
      rw [hget] at hgroup_name
      refine ⟨Option.some.inj hgroup_name, ?_⟩
      obtain ⟨value, hsome, harray⟩ := Option.bind_eq_some_iff.1 hfound
      rw [hsome, Option.getD_some] at hvalue
      rw [hvalue] at harray
      obtain rfl := Option.some.inj harray
      obtain ⟨name, hname, hmember_name⟩ := Traverse.exists_right_of_forall₂ hproxies hmember
      obtain rfl := Option.some.inj (hproxy.symm.trans hmember_name)
      exact hname
    · rintro ⟨hgroup_name, hproxy⟩
      refine ⟨by rw [hget, ← hgroup_name]; rfl, members, ?_, ?_⟩
      · cases hsome : item.get "proxies" with
        | some value =>
          rw [hsome, Option.getD_some] at hvalue
          rw [Option.bind_some, hvalue]
          rfl
        | none =>
          rw [hsome] at hvalue
          obtain rfl := Value.array.inj hvalue
          rw [List.forall₂_nil_left_iff.1 hproxies] at hproxy
          cases hproxy
      · exact Traverse.exists_left_of_forall₂ (r := fun (member : Value) name => member.as_str = some name) hproxies hproxy
  | _ => cases hobject'

/-- An entry that stays a proxy is read as no group that could be selected. -/
theorem kind_of_proxy (hitem : ProxyOf item item') (hvalid : item'.valid = true)
    (hgroup : RawGroup.deserialize item' = some group) : group.kind ≠ "select" := by
  obtain ⟨⟨hobject, hobject', hagree⟩, kind, hkind, htype⟩ := hitem
  cases item' with
  | object map' =>
    obtain ⟨-, hread, -⟩ := raw_group_eq_some (Map.Valid.ordered hvalid) hgroup
    have heq := Value.string.inj (Option.some.inj ((hread.symm.trans (hagree "type" (by decide))).trans htype))
    rintro hselect
    rw [← heq, hselect] at hkind
    revert hkind
    decide
  | _ => cases hobject'

/-- An entry that stays a proxy and is read as one lists no members. -/
theorem not_lists_of_proxy (hitem : ProxyOf item item') {proxy : RawProxy}
    (hproxy : RawProxy.deserialize item' = some proxy) : ¬Lists selection item := by
  obtain ⟨⟨hobject, hobject', hagree⟩, -⟩ := hitem
  rintro ⟨-, members, hmembers, -⟩
  cases item' with
  | object map' =>
    have hnone : item.get "proxies" = none := (hagree "proxies" (by decide)).symm.trans (raw_proxy_members hproxy)
    rw [hnone] at hmembers
    cases hmembers
  | _ => cases hobject'

theorem forall₂_of_bounded {α : Type} {limit : Nat} {decode : Value → Option α} {items : List Value} {results : List α}
    (hread : Value.defaulted [] (Value.bounded limit decode) (some (.array items)) = some results) :
    List.Forall₂ (fun item result => decode item = some result) items results := by
  rw [Value.defaulted, Value.bounded, Value.as_array, Option.bind_some] at hread
  split at hread
  · exact Traverse.mapM_eq_some_iff.1 hread
  · cases hread

/-- The raw document offers a selection exactly if the configuration of its projection accepts it. -/
theorem offers_iff_select (hvalid : (Value.object map).valid = true) (hout : projection crates map = .ok out)
    (hcfg : Config.of_document crates (.object out) (some assets) = .ok cfg) (selection : Selection) :
    offers (.object map) selection = true ↔ ∃ next, cfg.select selection.group selection.proxy = .ok next := by
  have hvalid_out := override_script.valid_projection hvalid hout
  obtain ⟨proxies, groups, hproxies, hgroups, hproxies_of, hgroups_of⟩ := override_script.entries_projection hout
  obtain ⟨raw, declared, hdeclared⟩ := config.declared_of_document hcfg
  have hreads := config.reads_of_deserialize (Map.Valid.ordered hvalid_out) hdeclared.deserialized
  have hread_proxies := hreads.proxies
  have hread_groups := hreads.proxy_groups
  rw [hproxies] at hread_proxies
  rw [hgroups] at hread_groups
  have hvalid_proxies := Value.valid_array.1 (Map.Valid.lookup hvalid_out hproxies)
  have hvalid_groups := Value.valid_array.1 (Map.Valid.lookup hvalid_out hgroups)
  -- a group among the entries that stay proxies would have to be of type select
  have hnone : ∀ item' ∈ proxies, ∀ group, .Group group ∈ raw.proxies → RawGroup.deserialize item' = some group → False := by
    intro item' hitem' group hmem hgroup
    obtain ⟨item, -, hproxy_of⟩ := Traverse.exists_left_of_forall₂ hproxies_of hitem'
    refine kind_of_proxy hproxy_of (hvalid_proxies item' hitem') hgroup (hdeclared.select group ?_)
    rw [hdeclared.declared]
    exact List.mem_append_left _ (List.mem_filterMap.2 ⟨_, hmem, rfl⟩)
  rw [offers_iff, hdeclared.select_iff (config.Config.wellFormed_of_document hcfg) (config.Config.named_of_document hcfg)]
  constructor
  · rintro ⟨item, hitem, hlists⟩
    have hsplit : item ∈ (entries map "proxies").filter (fun item => !override_script.is_group item) ∨
        item ∈ (entries map "proxies").filter override_script.is_group ++ entries map "proxy-groups" := by
      rcases List.mem_append.1 hitem with hmem | hmem
      · cases hkind : override_script.is_group item with
        | true => exact .inr (List.mem_append_left _ (List.mem_filter.2 ⟨hmem, hkind⟩))
        | false => exact .inl (List.mem_filter.2 ⟨hmem, by rw [hkind]; rfl⟩)
      · exact .inr (List.mem_append_right _ hmem)
    rcases hsplit with hproxy | hgroup
    · obtain ⟨item', hitem', hproxy_of⟩ := Traverse.exists_right_of_forall₂ hproxies_of hproxy
      obtain ⟨entry, hentry, hread⟩ := Traverse.exists_right_of_forall₂ (forall₂_of_bounded hread_proxies) hitem'
      unfold RawEntry.deserialize at hread
      split at hread
      · next proxy hproxy => exact absurd hlists (not_lists_of_proxy hproxy_of hproxy)
      · obtain ⟨group, hgroup, rfl⟩ := Option.map_eq_some_iff.1 hread
        exact (hnone item' hitem' group hentry hgroup).elim
    · obtain ⟨item', hitem', hgroup_of⟩ := Traverse.exists_right_of_forall₂ hgroups_of hgroup
      obtain ⟨group, hgroup, hread⟩ := Traverse.exists_right_of_forall₂ (forall₂_of_bounded hread_groups) hitem'
      refine ⟨group, ?_, (lists_iff_of_group hgroup_of (hvalid_groups item' hitem') hread).1 hlists⟩
      rw [hdeclared.declared]
      exact List.mem_append_right _ hgroup
  · rintro ⟨group, hgroup, hlists⟩
    rw [hdeclared.declared] at hgroup
    rcases List.mem_append.1 hgroup with hmem | hmem
    · obtain ⟨entry, hentry, hmatch⟩ := List.mem_filterMap.1 hmem
      cases entry with
      | Proxy proxy => cases hmatch
      | Group found =>
        obtain rfl := Option.some.inj hmatch
        obtain ⟨item', hitem', hread⟩ := Traverse.exists_left_of_forall₂ (forall₂_of_bounded hread_proxies) hentry
        unfold RawEntry.deserialize at hread
        split at hread
        · cases hread
        · obtain ⟨read, hdecoded, heq⟩ := Option.map_eq_some_iff.1 hread
          obtain rfl := RawEntry.Group.inj heq
          exact (hnone item' hitem' read hentry hdecoded).elim
    · obtain ⟨item', hitem', hread⟩ := Traverse.exists_left_of_forall₂ (forall₂_of_bounded hread_groups) hmem
      obtain ⟨item, hitem, hgroup_of⟩ := Traverse.exists_left_of_forall₂ hgroups_of hitem'
      refine ⟨item, ?_, (lists_iff_of_group hgroup_of (hvalid_groups item' hitem') hread).2 hlists⟩
      rcases List.mem_append.1 hitem with hitem | hitem
      · exact List.mem_append_left _ (List.mem_filter.1 hitem).1
      · exact List.mem_append_right _ hitem

end Offers

end zc.store
