import Zc.Config.Complete

/-!
# Groups are decided

`resolve_groups` accepts exactly the groups whose names are valid, new and distinct, that have known
members, and that do not list one another in a cycle. The members of an accepted group are the nodes
of the given names, in the given order.
-/

namespace zc.config

/-- The node a member stands for: the proxy of that name, or the group of that name. -/
def Denotes (raw : List RawGroup) (names : Names) (proxy_count : Nat) (member : String) (index : Nat) : Prop :=
  names.lookup member = some index ∨
    ∃ position group, raw[position]? = some group ∧ group.name = member ∧ index = proxy_count + position

/-- `child` is a group among the members of the group `parent`, selected or not. -/
def Lists (raw : List RawGroup) (child parent : String) : Prop :=
  ∃ group ∈ raw, group.name = parent ∧ child ∈ group.proxies ∧ child ∈ raw.map (·.name)

/-- What makes a list of groups well formed over the names already taken. -/
structure GroupsValid (raw : List RawGroup) (names : Names) : Prop where
  valid : ∀ group ∈ raw, validate_name group.name = .ok ()
  unused : ∀ group ∈ raw, names.lookup group.name = none
  unique : (raw.map (·.name)).Nodup
  select : ∀ group ∈ raw, group.kind = "select" ∧ group.proxies ≠ []
  known : ∀ group ∈ raw, ∀ member ∈ group.proxies, (names.lookup member).isSome ∨ member ∈ raw.map (·.name)
  acyclic : ∀ name, ¬Relation.TransGen (Lists raw) name name

theorem insert_name_eq_ok_iff {names next : Names} {name : String} {index : Nat} :
    insert_name names name index = .ok next ↔ names.lookup name = none ∧ next = (name, index) :: names := by
  unfold insert_name
  cases hlookup : names.lookup name with
  | none =>
    rw [if_neg (by simp)]
    exact ⟨fun h => ⟨rfl, (Except.ok.inj h).symm⟩, fun h => by rw [h.2]; rfl⟩
  | some found =>
    rw [if_pos (by simp)]
    exact ⟨nofun, fun h => nomatch h.1⟩

theorem lookup_cons_eq {names : Names} {name other : String} {index : Nat} :
    ((name, index) :: names).lookup other = if other = name then some index else names.lookup other := by
  rw [List.lookup_cons]
  by_cases heq : other = name
  · rw [if_pos heq, beq_iff_eq.2 heq]
  · rw [if_neg heq, beq_eq_false_iff_ne.2 heq]

theorem lookup_cons_eq_none_iff {names : Names} {name other : String} {index : Nat} :
    ((name, index) :: names).lookup other = none ↔ other ≠ name ∧ names.lookup other = none := by
  rw [lookup_cons_eq]
  split
  · next heq => exact ⟨nofun, fun h => absurd heq h.1⟩
  · next heq => exact ⟨fun h => ⟨heq, h⟩, fun h => h.2⟩

theorem name_groups_ok_iff {raw : List RawGroup} {names : Names} {next : Nat} :
    (∃ final, name_groups names next raw = .ok final) ↔
      (∀ group ∈ raw, validate_name group.name = .ok () ∧ (group.kind = "select" ∧ group.proxies ≠ []) ∧
        names.lookup group.name = none) ∧ (raw.map (·.name)).Nodup := by
  induction raw generalizing names next with
  | nil => exact ⟨fun _ => ⟨by simp, List.nodup_nil⟩, fun _ => ⟨names, rfl⟩⟩
  | cons group raw ih =>
    have hkind : (decide (group.kind ≠ "select") || group.proxies.isEmpty) = false ↔
        group.kind = "select" ∧ group.proxies ≠ [] := by
      simp
    simp only [name_groups, bind_eq_ok_iff, bail_if_eq_ok_iff, insert_name_eq_ok_iff, hkind, List.forall_mem_cons,
      List.map_cons, List.nodup_cons]
    constructor
    · rintro ⟨final, _, hvalid, _, hselect, _, ⟨hfree, rfl⟩, hrest⟩
      obtain ⟨hothers, hnodup⟩ := ih.1 ⟨final, hrest⟩
      refine ⟨⟨⟨hvalid, hselect, hfree⟩, fun other hother => ?_⟩, ?_, hnodup⟩
      · obtain ⟨hvalid', hselect', hlookup⟩ := hothers other hother
        exact ⟨hvalid', hselect', (lookup_cons_eq_none_iff.1 hlookup).2⟩
      · intro hmem
        obtain ⟨other, hother, heq⟩ := List.mem_map.1 hmem
        exact (lookup_cons_eq_none_iff.1 (hothers other hother).2.2).1 heq
    · rintro ⟨⟨⟨hvalid, hselect, hfree⟩, hothers⟩, hnew, hnodup⟩
      have hfree' : ∀ other ∈ raw, validate_name other.name = .ok () ∧ (other.kind = "select" ∧ other.proxies ≠ []) ∧
          ((group.name, next) :: names).lookup other.name = none := by
        intro other hother
        obtain ⟨hvalid', hselect', hlookup⟩ := hothers other hother
        have hne : other.name ≠ group.name := fun heq => hnew (heq ▸ List.mem_map_of_mem hother)
        exact ⟨hvalid', hselect', lookup_cons_eq_none_iff.2 ⟨hne, hlookup⟩⟩
      obtain ⟨final, hfinal⟩ := ih.2 ⟨hfree', hnodup⟩
      exact ⟨final, (), hvalid, (), hselect, _, ⟨hfree, rfl⟩, hfinal⟩

theorem lookup_name_groups {raw : List RawGroup} {names final : Names} {next : Nat}
    (hname : name_groups names next raw = .ok final) (member : String) (index : Nat) :
    final.lookup member = some index ↔ Denotes raw names next member index := by
  induction raw generalizing names next with
  | nil =>
    obtain rfl := Except.ok.inj hname
    simp [Denotes]
  | cons group raw ih =>
    simp only [name_groups, bind_eq_ok_iff, insert_name_eq_ok_iff] at hname
    obtain ⟨_, _, _, _, _, ⟨hfree, rfl⟩, hrest⟩ := hname
    rw [ih hrest, Denotes, Denotes, lookup_cons_eq]
    constructor
    · rintro (hfound | ⟨position, other, hother, hname, rfl⟩)
      · split at hfound
        · next heq =>
          obtain rfl := Option.some.inj hfound
          exact .inr ⟨0, group, rfl, heq.symm, rfl⟩
        · exact .inl hfound
      · exact .inr ⟨position + 1, other, hother, hname, by omega⟩
    · rintro (hfound | ⟨position, other, hother, hname, rfl⟩)
      · have hne : member ≠ group.name := by
          rintro rfl
          rw [hfree] at hfound
          cases hfound
        exact .inl ((if_neg hne).trans hfound)
      · cases position with
        | zero =>
          obtain rfl := Option.some.inj hother
          exact .inl (if_pos hname.symm)
        | succ position => exact .inr ⟨position, other, hother, hname, by omega⟩

section Resolve

variable {raw : List RawGroup} {names final : Names} {proxy_count : Nat} {edges : List (List Nat)}

theorem group_edges_eq_ok_iff : group_edges final raw = .ok edges ↔
    List.Forall₂ (fun group members => List.Forall₂ (fun member index => final.lookup member = some index) group.proxies members)
      raw edges := by
  simp only [group_edges, Traverse.mapM_eq_ok_iff, member_index, okOr_eq_ok_iff]

theorem exists_group_edges (hknown : ∀ group ∈ raw, ∀ member ∈ group.proxies, ∃ index, final.lookup member = some index) :
    ∃ edges, group_edges final raw = .ok edges := by
  refine Traverse.exists_mapM fun group hgroup => Traverse.exists_mapM fun member hmember => ?_
  obtain ⟨index, hindex⟩ := hknown group hgroup member hmember
  exact ⟨index, okOr_eq_ok_iff.2 hindex⟩

theorem edges_of_group (hedges : group_edges final raw = .ok edges) {position : Nat} {group : RawGroup}
    (hgroup : raw[position]? = some group) :
    ∃ members, edges[position]? = some members ∧
      List.Forall₂ (fun member index => final.lookup member = some index) group.proxies members := by
  obtain ⟨hlength, hall⟩ := List.forall₂_iff_get.1 (group_edges_eq_ok_iff.1 hedges)
  obtain ⟨hlt, rfl⟩ := List.getElem?_eq_some_iff.1 hgroup
  exact ⟨edges[position], List.getElem?_eq_getElem (hlength ▸ hlt), hall position hlt (hlength ▸ hlt)⟩

/-- A group listed by another is an edge between their nodes. -/
theorem edge_of_lists (hname : name_groups names proxy_count raw = .ok final) (hedges : group_edges final raw = .ok edges)
    {child parent : String} (hlists : Lists raw child parent) :
    Edge edges proxy_count ((final.lookup child).getD 0) ((final.lookup parent).getD 0) := by
  obtain ⟨group, hgroup, rfl, hchild, -⟩ := hlists
  obtain ⟨position, hposition⟩ := List.mem_iff_getElem?.1 hgroup
  have hparent : final.lookup group.name = some (proxy_count + position) :=
    (lookup_name_groups hname _ _).2 (.inr ⟨position, group, hposition, rfl, rfl⟩)
  obtain ⟨members, hmembers, hall⟩ := edges_of_group hedges hposition
  obtain ⟨index, hindex, hlookup⟩ := Traverse.exists_right_of_forall₂ hall hchild
  rw [hparent, hlookup, Option.getD_some, Option.getD_some]
  exact ⟨Nat.le_add_right _ _, members, by rwa [Nat.add_sub_cancel_left], hindex⟩

/-- The name of the group at a node. -/
def groupName (raw : List RawGroup) (proxy_count node : Nat) : String :=
  ((raw[node - proxy_count]?).map (·.name)).getD ""

/-- An edge between the nodes of groups is a group listed by another. -/
theorem lists_of_edge (hnames : NamesBelow names proxy_count) (hname : name_groups names proxy_count raw = .ok final)
    (hedges : group_edges final raw = .ok edges) {child node : Nat} (hchild : proxy_count ≤ child)
    (hedge : Edge edges proxy_count child node) :
    Lists raw (groupName raw proxy_count child) (groupName raw proxy_count node) := by
  obtain ⟨hnode, members, hmembers, hmem⟩ := hedge
  have hlt : node - proxy_count < raw.length := by
    rw [(group_edges_eq_ok_iff.1 hedges).length_eq]
    exact (List.getElem?_eq_some_iff.1 hmembers).1
  have hgroup : raw[node - proxy_count]? = some raw[node - proxy_count] := List.getElem?_eq_getElem hlt
  obtain ⟨members', hmembers', hall⟩ := edges_of_group hedges hgroup
  obtain rfl := Option.some.inj (hmembers.symm.trans hmembers')
  obtain ⟨member, hmember, hlookup⟩ := Traverse.exists_left_of_forall₂ hall hmem
  rcases (lookup_name_groups hname _ _).1 hlookup with hproxy | ⟨position, other, hother, rfl, rfl⟩
  · have := hnames.lookup hproxy
    omega
  · have hchildname : groupName raw proxy_count (proxy_count + position) = other.name := by
      rw [groupName, Nat.add_sub_cancel_left, hother]
      rfl
    have hnodename : groupName raw proxy_count node = raw[node - proxy_count].name := by
      rw [groupName, hgroup]
      rfl
    rw [hchildname, hnodename]
    exact ⟨_, List.getElem_mem hlt, rfl, hmember, List.mem_map_of_mem (List.mem_of_getElem? hother)⟩

theorem lists_of_path (hnames : NamesBelow names proxy_count) (hname : name_groups names proxy_count raw = .ok final)
    (hedges : group_edges final raw = .ok edges) {child node : Nat} (hchild : proxy_count ≤ child)
    (hpath : Relation.TransGen (Edge edges proxy_count) child node) :
    proxy_count ≤ node ∧ Relation.TransGen (Lists raw) (groupName raw proxy_count child) (groupName raw proxy_count node) := by
  induction hpath with
  | single hedge => exact ⟨hedge.1, .single (lists_of_edge hnames hname hedges hchild hedge)⟩
  | tail _ hedge ih => exact ⟨hedge.1, ih.2.tail (lists_of_edge hnames hname hedges ih.1 hedge)⟩

/-- The names of a cycle are in a cycle of groups that list one another. -/
theorem acyclic_of_lists (hnames : NamesBelow names proxy_count) (hname : name_groups names proxy_count raw = .ok final)
    (hedges : group_edges final raw = .ok edges) (hacyclic : ∀ name, ¬Relation.TransGen (Lists raw) name name) (node : Nat) :
    ¬Relation.TransGen (Edge edges proxy_count) node node := by
  intro hcycle
  have hnode : proxy_count ≤ node := by
    cases hcycle with
    | single hedge => exact hedge.1
    | tail _ hedge => exact hedge.1
  exact hacyclic _ (lists_of_path hnames hname hedges hnode hcycle).2

theorem exists_resolve_groups (hnames : NamesBelow names proxy_count) (hvalid : GroupsValid raw names) :
    ∃ result, resolve_groups raw names proxy_count = .ok result := by
  obtain ⟨final, hfinal⟩ := name_groups_ok_iff.2
    ⟨fun group hgroup => ⟨hvalid.valid group hgroup, hvalid.select group hgroup, hvalid.unused group hgroup⟩, hvalid.unique⟩
  have hknown : ∀ group ∈ raw, ∀ member ∈ group.proxies, ∃ index, final.lookup member = some index := by
    intro group hgroup member hmember
    rcases hvalid.known group hgroup member hmember with hproxy | hother
    · obtain ⟨index, hindex⟩ := Option.isSome_iff_exists.1 hproxy
      exact ⟨index, (lookup_name_groups hfinal _ _).2 (.inl hindex)⟩
    · obtain ⟨other, hmem, rfl⟩ := List.mem_map.1 hother
      obtain ⟨position, hposition⟩ := List.mem_iff_getElem?.1 hmem
      exact ⟨_, (lookup_name_groups hfinal _ _).2 (.inr ⟨position, other, hposition, rfl, rfl⟩)⟩
  obtain ⟨edges, hedges⟩ := exists_group_edges hknown
  have hspec := group_edges_spec (hnames.name_groups hfinal).1 hedges
  have hlength := hspec.length_eq
  have hbound : ∀ members ∈ edges, ∀ member ∈ members, member < proxy_count + edges.length := by
    intro members hmembers
    obtain ⟨group, -, -, hbelow⟩ := Traverse.exists_left_of_forall₂ hspec hmembers
    exact hlength ▸ hbelow
  have hroots : ∀ root ∈ List.range' proxy_count raw.length, proxy_count ≤ root ∧ root < proxy_count + edges.length :=
    fun root hroot => hlength ▸ List.mem_range'_1.1 hroot
  have hacyclic := acyclic_of_lists hnames hfinal hedges hvalid.acyclic
  obtain ⟨state, hstate⟩ := exists_search_roots hbound hacyclic hroots (.start edges proxy_count)
  refine ⟨(List.zipWith (fun group members => ⟨group.name, members⟩) raw edges, final), ?_⟩
  unfold resolve_groups
  simp only [bind_eq_ok_iff]
  exact ⟨final, hfinal, edges, hedges, state, hlength ▸ hstate, rfl⟩

theorem groupsValid_of_resolve {result : List Group × Names} (hresolve : resolve_groups raw names proxy_count = .ok result) :
    GroupsValid raw names := by
  unfold resolve_groups at hresolve
  simp only [bind_eq_ok_iff] at hresolve
  obtain ⟨final, hfinal, edges, hedges, state, hsearch, -⟩ := hresolve
  obtain ⟨hall, hnodup⟩ := name_groups_ok_iff.1 ⟨final, hfinal⟩
  refine ⟨fun group hgroup => (hall group hgroup).1, fun group hgroup => (hall group hgroup).2.2, hnodup,
    fun group hgroup => (hall group hgroup).2.1, fun group hgroup member hmember => ?_, fun name hcycle => ?_⟩
  · obtain ⟨position, hposition⟩ := List.mem_iff_getElem?.1 hgroup
    obtain ⟨members, -, hmembers⟩ := edges_of_group hedges hposition
    obtain ⟨index, -, hlookup⟩ := Traverse.exists_right_of_forall₂ hmembers hmember
    rcases (lookup_name_groups hfinal _ _).1 hlookup with hproxy | ⟨other, found, hfound, rfl, -⟩
    · exact .inl (Option.isSome_of_eq_some hproxy)
    · exact .inr (List.mem_map_of_mem (List.mem_of_getElem? hfound))
  · have hwf := wellFounded_of_search_roots (group_edges_eq_ok_iff.1 hedges).length_eq.symm hsearch
    have hpath := hcycle.lift (fun name => (final.lookup name).getD 0) fun _ _ hlists => edge_of_lists hfinal hedges hlists
    exact hwf.transGen.irrefl.irrefl _ hpath

theorem forall₂_zipWith {r : List String → List Nat → Prop}
    (hedges : List.Forall₂ (fun group members => r group.proxies members) raw edges) :
    List.Forall₂ (fun source group => group.name = source.name ∧ r source.proxies group.members) raw
      (List.zipWith (fun group members => ({ name := group.name, members } : Group)) raw edges) := by
  induction hedges with
  | nil => exact .nil
  | cons hmembers _ ih => exact .cons ⟨rfl, hmembers⟩ ih

/-- The groups have the declared names, and the named nodes as their members. -/
theorem members_of_resolve {groups : List Group} (hresolve : resolve_groups raw names proxy_count = .ok (groups, final)) :
    List.Forall₂ (fun source group => group.name = source.name ∧
      List.Forall₂ (Denotes raw names proxy_count) source.proxies group.members) raw groups := by
  unfold resolve_groups at hresolve
  simp only [bind_eq_ok_iff] at hresolve
  obtain ⟨named, hnamed, edges, hedges, state, -, hpure⟩ := hresolve
  obtain ⟨rfl, rfl⟩ := Prod.mk.inj (Except.ok.inj hpure)
  refine (forall₂_zipWith (group_edges_eq_ok_iff.1 hedges)).imp fun source group hgroup => ?_
  exact ⟨hgroup.1, hgroup.2.imp fun member index => (lookup_name_groups hnamed member index).1⟩

end Resolve

/-- `resolve_groups` accepts exactly the valid groups over a name map of the proxies. The members of
    an accepted group are the nodes named, in order. No search on the way to the last one has more
    frames than there are groups. -/
theorem resolve_groups_decides (raw : List RawGroup) (names : Names) (proxy_count : Nat) (hnames : NamesBelow names proxy_count) :
    ((∃ result, resolve_groups raw names proxy_count = .ok result) ↔ GroupsValid raw names) ∧
      (∀ groups final, resolve_groups raw names proxy_count = .ok (groups, final) →
        List.Forall₂ (fun source group => group.name = source.name ∧
          List.Forall₂ (Denotes raw names proxy_count) source.proxies group.members) raw groups) ∧
      ∀ final edges, name_groups names proxy_count raw = .ok final → group_edges final raw = .ok edges →
        (∀ roots search, Search.Reached edges proxy_count roots search → search.stack.length ≤ raw.length) ∧
        ∀ state, search_roots edges proxy_count (List.range' proxy_count raw.length)
            (List.replicate proxy_count .Done ++ List.replicate raw.length .Unvisited) = .ok state →
          Search.Reached edges proxy_count [] ⟨state, []⟩ := by
  refine ⟨⟨?_, exists_resolve_groups hnames⟩, fun groups final => members_of_resolve, ?_⟩
  · rintro ⟨result, hresult⟩
    exact groupsValid_of_resolve hresult
  · intro final edges _ hedges
    rw [(group_edges_eq_ok_iff.1 hedges).length_eq]
    exact ⟨fun roots search hreached => hreached.stacked.1.length_stack_le, fun state => Search.Reached.start.search_roots⟩

/-- Two groups, the first of which lists the second one and the only proxy. -/
theorem nested_group_resolved :
    NamesBelow [("a", 0)] 1 ∧
      GroupsValid [⟨"outer", "select", ["inner", "a"]⟩, ⟨"inner", "select", ["a", "a"]⟩] [("a", 0)] := by
  have hnames : NamesBelow [("a", 0)] 1 := by
    simp [NamesBelow]
  refine ⟨hnames, (resolve_groups_decides _ _ 1 hnames).1.1 ⟨(_, _), rfl⟩⟩

end zc.config
