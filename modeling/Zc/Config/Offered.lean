import Zc.Config.Decided
import Zc.Config.Named

/-!
# What a configuration offers

A group of a parsed configuration can be set to exactly the members that its declaration lists.
-/

namespace zc.config

theorem lookup_name_proxies {proxies : List Proxy} {names final : Names} {next : Nat}
    (hname : name_proxies names next proxies = .ok final) {member : String} {index : Nat} (hlookup : final.lookup member = some index) :
    names.lookup member = some index ∨ ∃ position, (proxies[position]?).map (·.name) = some member ∧ index = next + position := by
  induction proxies generalizing names next with
  | nil =>
    obtain rfl := Except.ok.inj hname
    exact .inl hlookup
  | cons proxy proxies ih =>
    simp only [name_proxies, bind_eq_ok_iff, insert_name_eq_ok_iff] at hname
    obtain ⟨_, _, _, ⟨hfree, rfl⟩, hrest⟩ := hname
    rcases ih hrest with hfound | ⟨position, hposition, rfl⟩
    · rw [lookup_cons_eq] at hfound
      split at hfound
      · next heq =>
        obtain rfl := Option.some.inj hfound
        exact .inr ⟨0, by rw [heq]; rfl, rfl⟩
      · exact .inl hfound
    · exact .inr ⟨position + 1, hposition, by omega⟩

theorem build_entries_groups {crates : Crates} {entries : List RawEntry} {proxies built : List Proxy} {groups found : List RawGroup}
    (hbuild : build_entries crates entries proxies groups = .ok (built, found)) :
    found = groups ++ entries.filterMap fun | .Group group => some group | .Proxy _ => none := by
  induction entries generalizing proxies groups with
  | nil =>
    obtain ⟨rfl, rfl⟩ := Prod.mk.inj (Except.ok.inj hbuild)
    rw [List.filterMap_nil, List.append_nil]
  | cons entry entries ih =>
    cases entry with
    | Proxy proxy =>
      simp only [build_entries, bind_eq_ok_iff] at hbuild
      obtain ⟨_, -, _, -, hrest⟩ := hbuild
      exact ih hrest
    | Group group =>
      rw [ih hbuild, List.append_assoc]
      rfl

/-- The declarations that the groups of a configuration come from. -/
structure Declared (crates : Crates) (document : Value) (raw : RawConfig) (groups : List RawGroup) (cfg : Config) : Prop where
  deserialized : RawConfig.deserialize document = some raw
  declared : groups = (raw.proxies.filterMap fun | .Group group => some group | .Proxy _ => none) ++ raw.proxy_groups
  select : ∀ group ∈ groups, group.kind = "select"
  members : List.Forall₂ (fun source group => group.name = source.name ∧
    List.Forall₂ (fun member node => cfg.node_name node = .ok member) source.proxies group.members) groups cfg.groups

theorem declared_of_document {crates : Crates} {document : Value} {assets : Option Assets} {cfg : Config}
    (hparse : Config.of_document crates document assets = .ok cfg) : ∃ raw groups, Declared crates document raw groups cfg := by
  unfold Config.of_document at hparse
  simp only [bind_eq_ok_iff, okOr_eq_ok_iff] at hparse
  obtain ⟨_, _, _, _, raw, hraw, _, _, _, _, ⟨proxies, entry_groups⟩, hbuild, _, _, named, hnamed, ⟨groups, names⟩, hgroups, rules, _,
    hpure⟩ := hparse
  obtain rfl := Except.ok.inj hpure
  have hvalid := groupsValid_of_resolve hgroups
  have hmembers := members_of_resolve hgroups
  refine ⟨raw, entry_groups ++ raw.proxy_groups, hraw, ?_, fun group hgroup => (hvalid.select group hgroup).1, ?_⟩
  · rw [build_entries_groups hbuild, List.nil_append]
  · have hnames : groups.map (·.name) = (entry_groups ++ raw.proxy_groups).map (·.name) := by
      refine List.ext_getElem (by simpa using hmembers.length_eq.symm) fun i hi hi' => ?_
      rw [List.length_map] at hi hi'
      rw [List.getElem_map, List.getElem_map]
      exact ((List.forall₂_iff_get.1 hmembers).2 i hi' hi).1
    refine hmembers.imp fun source group hgroup => ⟨hgroup.1, hgroup.2.imp fun member node hdenotes => ?_⟩
    rw [Config.node_name_eq_ok_iff, Config.names]
    rcases hdenotes with hproxy | ⟨position, found, hfound, rfl, rfl⟩
    · rcases lookup_name_proxies hnamed hproxy with hnone | ⟨position, hposition, rfl⟩
      · cases hnone
      · have hlt : position < proxies.length := by
          obtain ⟨proxy, hget, -⟩ := Option.map_eq_some_iff.1 hposition
          exact (List.getElem?_eq_some_iff.1 hget).1
        rw [Nat.zero_add, List.getElem?_append_left (by simpa using hlt), List.getElem?_map, hposition]
    · rw [List.getElem?_append_right (by simp), List.length_map, Nat.add_sub_cancel_left]
      dsimp only
      rw [hnames, List.getElem?_map, hfound]
      rfl

/-- A group can be set to a member exactly if it was declared with that member. -/
theorem Declared.select_iff {crates : Crates} {document : Value} {raw : RawConfig} {groups : List RawGroup} {cfg : Config}
    (hdeclared : Declared crates document raw groups cfg) (hcfg : cfg.WellFormed) (hnamed : cfg.Named) (group proxy : String) :
    (∃ next, cfg.select group proxy = .ok next) ↔ ∃ source ∈ groups, source.name = group ∧ proxy ∈ source.proxies := by
  obtain ⟨hlength, hmembers⟩ := List.forall₂_iff_get.1 hdeclared.members
  constructor
  · rintro ⟨next, hselect⟩
    simp only [Config.select, bind_eq_ok_iff] at hselect
    obtain ⟨⟨index, member⟩, hselection, -⟩ := hselect
    obtain ⟨found, node, hfound, rfl, hnode, hname⟩ := Config.selection_eq_ok hselection
    obtain ⟨hindex, rfl⟩ := List.getElem?_eq_some_iff.1 hfound
    obtain ⟨hsource, hproxies⟩ := hmembers index (hlength ▸ hindex) hindex
    refine ⟨groups[index], List.getElem_mem _, hsource.symm, ?_⟩
    obtain ⟨hlength', hnodes⟩ := List.forall₂_iff_get.1 hproxies
    obtain ⟨hmember, rfl⟩ := List.getElem?_eq_some_iff.1 hnode
    have hname' := hnodes member (hlength' ▸ hmember) hmember
    obtain rfl := Except.ok.inj (hname'.symm.trans hname)
    exact List.getElem_mem _
  · rintro ⟨source, hsource, rfl, hproxy⟩
    obtain ⟨index, hindex, rfl⟩ := List.mem_iff_getElem.1 hsource
    obtain ⟨hname, hproxies⟩ := hmembers index hindex (hlength ▸ hindex)
    obtain ⟨node, hnode, hnode_name⟩ := Traverse.exists_right_of_forall₂ hproxies hproxy
    have hfound : cfg.groups[index]? = some cfg.groups[index] := List.getElem?_eq_getElem _
    obtain ⟨member, hselection⟩ := Config.exists_selection hcfg hnamed hfound hnode hnode_name
    refine ⟨_, bind_eq_ok_iff.2 ⟨(index, member), ?_, rfl⟩⟩
    rw [← hselection]
    exact congrArg (fun name => cfg.selection name proxy) hname.symm

end zc.config
