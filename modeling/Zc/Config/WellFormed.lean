import Mathlib.Logic.Relation
import Zc.Config.Acyclic
import Zc.Config.Selection
import Zc.Lib.Traverse

namespace zc.config

/-- Every name stands for a node below the bound. -/
def NamesBelow (names : Names) (bound : Nat) : Prop :=
  ∀ entry ∈ names, entry.2 < bound

variable {names : Names} {bound : Nat}

theorem NamesBelow.mono {bound' : Nat} (hnames : NamesBelow names bound) (hle : bound ≤ bound') :
    NamesBelow names bound' :=
  fun entry hentry => (hnames entry hentry).trans_le hle

variable {index : Nat}

theorem NamesBelow.lookup {name : String} (hnames : NamesBelow names bound) (hlookup : names.lookup name = some index) :
    index < bound := by
  obtain ⟨front, back, rfl, -⟩ := List.lookup_eq_some_iff.1 hlookup
  exact hnames (name, index) (by simp)

theorem NamesBelow.insert_name {next : Names} {name : String} (hnames : NamesBelow names bound) (hindex : index < bound)
    (hinsert : config.insert_name names name index = .ok next) : NamesBelow next bound := by
  unfold config.insert_name at hinsert
  split at hinsert
  · cases hinsert
  · obtain rfl := Except.ok.inj hinsert
    intro entry hentry
    rcases List.mem_cons.1 hentry with rfl | hentry
    · exact hindex
    · exact hnames entry hentry

variable {groups : List RawGroup} {final : Names}

theorem NamesBelow.name_groups {next : Nat} (hnames : NamesBelow names next)
    (hname : config.name_groups names next groups = .ok final) :
    NamesBelow final (next + groups.length) ∧ ∀ group ∈ groups, group.proxies ≠ [] := by
  induction groups generalizing names next with
  | nil =>
    obtain rfl := Except.ok.inj hname
    exact ⟨hnames, by simp⟩
  | cons group groups ih =>
    simp only [config.name_groups, bind_eq_ok_iff] at hname
    obtain ⟨_, _, _, hmembers, middle, hinsert, hrest⟩ := hname
    obtain ⟨hfinal, hothers⟩ :=
      ih ((hnames.mono (Nat.le_succ next)).insert_name (Nat.lt_succ_self next) hinsert) hrest
    refine ⟨?_, ?_⟩
    · rw [List.length_cons]
      exact hfinal.mono (by omega)
    · intro other hother
      rcases List.mem_cons.1 hother with rfl | hother
      · intro hempty
        simp [hempty] at hmembers
      · exact hothers other hother

theorem NamesBelow.name_proxies {proxies : List Proxy} {next : Nat} (hnames : NamesBelow names next)
    (hname : config.name_proxies names next proxies = .ok final) : NamesBelow final (next + proxies.length) := by
  induction proxies generalizing names next with
  | nil =>
    obtain rfl := Except.ok.inj hname
    exact hnames
  | cons proxy proxies ih =>
    simp only [config.name_proxies, bind_eq_ok_iff] at hname
    obtain ⟨_, _, middle, hinsert, hrest⟩ := hname
    have hfinal := ih ((hnames.mono (Nat.le_succ next)).insert_name (Nat.lt_succ_self next) hinsert) hrest
    rw [List.length_cons]
    exact hfinal.mono (by omega)

/-- The edges have a list of named members for each group. -/
theorem group_edges_spec {edges : List (List Nat)} (hnames : NamesBelow names bound)
    (hedges : group_edges names groups = .ok edges) :
    List.Forall₂ (fun group members => members.length = group.proxies.length ∧ ∀ member ∈ members, member < bound)
      groups edges := by
  refine (Traverse.mapM_eq_ok_iff.1 hedges).imp ?_
  intro group members hmembers
  refine ⟨(Traverse.mapM_eq_ok_iff.1 hmembers).length_eq.symm, ?_⟩
  intro member hmember
  obtain ⟨name, -, hname⟩ := Traverse.exists_of_mem_mapM hmembers hmember
  exact hnames.lookup (okOr_eq_ok_iff.1 hname)

/-- What `resolve_groups` guarantees about the groups it accepts. -/
structure GroupsOk (proxy_count : Nat) (groups : List Group) (names : Names) : Prop where
  names_below : NamesBelow names (proxy_count + groups.length)
  members_below : ∀ group ∈ groups, ∀ member ∈ group.members, member < proxy_count + groups.length
  nonempty : ∀ group ∈ groups, group.members ≠ []
  acyclic : WellFounded (Edge (groups.map (·.members)) proxy_count)

private theorem map_members_zipWith {edges : List (List Nat)} (hlength : groups.length = edges.length) :
    (List.zipWith (fun group members => ({ name := group.name, members } : Group)) groups edges).map (·.members) =
      edges := by
  apply List.ext_getElem
  · simp [hlength]
  · intro i hi _
    simp

theorem resolve_groups_ok {raw : List RawGroup} {proxy_count : Nat} {groups : List Group}
    (hnames : NamesBelow names proxy_count) (hresolve : resolve_groups raw names proxy_count = .ok (groups, final)) :
    GroupsOk proxy_count groups final := by
  unfold resolve_groups at hresolve
  simp only [bind_eq_ok_iff] at hresolve
  obtain ⟨named, hnamed, edges, hedges, state, hsearch, hpure⟩ := hresolve
  obtain ⟨rfl, rfl⟩ := Prod.mk.inj (Except.ok.inj hpure)
  obtain ⟨hbelow, hnonempty⟩ := hnames.name_groups hnamed
  have hspec := group_edges_spec hbelow hedges
  have hlength := hspec.length_eq
  have hmap := map_members_zipWith hlength
  have hcount : (List.zipWith (fun group members => ({ name := group.name, members } : Group)) raw edges).length =
      raw.length := by
    simp [hlength]
  have hmember : ∀ group ∈ List.zipWith (fun group members => ({ name := group.name, members } : Group)) raw edges,
      ∃ source ∈ raw, group.members.length = source.proxies.length ∧
        ∀ member ∈ group.members, member < proxy_count + raw.length := by
    intro group hgroup
    obtain ⟨i, hi, rfl⟩ := List.mem_iff_getElem.1 hgroup
    have hraw : i < raw.length := by omega
    have hedge : i < edges.length := by omega
    rw [List.getElem_zipWith]
    exact ⟨raw[i], List.getElem_mem hraw, (List.forall₂_iff_get.1 hspec).2 i hraw hedge⟩
  refine ⟨hcount.symm ▸ hbelow, ?_, ?_, ?_⟩
  · intro group hgroup
    obtain ⟨-, -, -, hmembers⟩ := hmember group hgroup
    exact hcount.symm ▸ hmembers
  · intro group hgroup hempty
    obtain ⟨source, hsource, hsize, -⟩ := hmember group hgroup
    apply hnonempty source hsource
    simpa [hempty] using hsize.symm
  · rw [hmap]
    exact wellFounded_of_search_roots hlength.symm hsearch

/-! ## Rules -/

@[simp]
theorem proxy_inherit_no_resolve (rule : Rule) : (inherit_no_resolve rule).proxy = rule.proxy := by
  unfold inherit_no_resolve
  split <;> rfl

def Planned.Below (bound : Nat) : Planned → Prop
  | .single rule => rule.proxy < bound
  | .provided _ proxy _ => proxy < bound

theorem Planned.Below.rules {item : Planned} (hitem : item.Below bound) {rule : Rule} (hrule : rule ∈ item.rules) :
    rule.proxy < bound := by
  cases item with
  | single single =>
    obtain rfl := List.mem_singleton.1 hrule
    exact hitem
  | provided rules proxy no_resolve =>
    obtain ⟨template, -, rfl⟩ := List.mem_map.1 hrule
    dsimp only
    split
    · rw [proxy_inherit_no_resolve]
      exact hitem
    · exact hitem

variable {source : String} {plan next : Plan} {assets : Assets}

section Expand

variable {crates : Crates} {names : Names} {bound : Nat}

theorem proxy_lt_of_parse {rule : Rule} (hnames : NamesBelow names bound)
    (hparse : Rule.parse crates source names = .ok rule) : rule.proxy < bound := by
  obtain ⟨name, hlookup⟩ := Rule.proxy_mem_of_parse hparse
  exact hnames.lookup hlookup

theorem below_of_plan_rule_set {templates : List (String × List Rule × Nat)} {fields : List String}
    (hnames : NamesBelow names bound) (hplan : ∀ item ∈ plan.items, item.Below bound)
    (hnext : plan_rule_set templates names plan fields = .ok next) : ∀ item ∈ next.items, item.Below bound := by
  unfold plan_rule_set at hnext
  simp only [bind_eq_ok_iff, okOr_eq_ok_iff] at hnext
  obtain ⟨_, _, _, _, proxy, hproxy, _, _, _, _, _, _, hpure⟩ := hnext
  obtain rfl := Except.ok.inj hpure
  intro item hitem
  rcases List.mem_append.1 hitem with hitem | hitem
  · exact hplan item hitem
  · obtain rfl := List.mem_singleton.1 hitem
    exact hnames.lookup hproxy

theorem below_of_plan_rule {fields : List String} (hnames : NamesBelow names bound)
    (hplan : ∀ item ∈ plan.items, item.Below bound) (hnext : plan_rule crates names plan source fields = .ok next) :
    ∀ item ∈ next.items, item.Below bound := by
  unfold plan_rule at hnext
  simp only [bind_eq_ok_iff] at hnext
  obtain ⟨rule, hrule, _, _, _, _, hpure⟩ := hnext
  obtain rfl := Except.ok.inj hpure
  intro item hitem
  rcases List.mem_append.1 hitem with hitem | hitem
  · exact hplan item hitem
  · obtain rfl := List.mem_singleton.1 hitem
    exact proxy_lt_of_parse hnames hrule

theorem below_of_plan_reject (hnames : NamesBelow names bound) (hplan : ∀ item ∈ plan.items, item.Below bound)
    (hnext : plan_reject crates names plan = .ok next) : ∀ item ∈ next.items, item.Below bound := by
  unfold plan_reject at hnext
  simp only [bind_eq_ok_iff] at hnext
  obtain ⟨_, _, _, _, rule, hrule, hpure⟩ := hnext
  obtain rfl := Except.ok.inj hpure
  intro item hitem
  rcases List.mem_append.1 hitem with hitem | hitem
  · exact hplan item hitem
  · obtain rfl := List.mem_singleton.1 hitem
    exact proxy_lt_of_parse hnames hrule

/-- Every expanded rule, declared or taken from a provider, targets a named node. -/
theorem proxy_lt_of_expand {source_rules : List String} {providers : Providers} {rules : List Rule}
    (hnames : NamesBelow names bound) (hexpand : expand crates source_rules providers assets names = .ok rules) :
    ∀ rule ∈ rules, rule.proxy < bound := by
  unfold expand at hexpand
  simp only [bind_eq_ok_iff] at hexpand
  obtain ⟨_, _, _, _, read, _, plan, hplan, final, hfinal, _, _, hpure⟩ := hexpand
  obtain rfl := Except.ok.inj hpure
  have hbelow : ∀ item ∈ plan.items, item.Below bound := by
    refine Traverse.foldlM_invariant (P := fun plan => ∀ item ∈ plan.items, item.Below bound) (by simp) ?_ hplan
    intro plan source next _ hprev hnext
    simp only [plan_source] at hnext
    split at hnext
    · exact below_of_plan_rule_set hnames hprev hnext
    · exact below_of_plan_rule hnames hprev hnext
  have hlast : ∀ item ∈ final.items, item.Below bound := by
    unfold plan_final at hfinal
    split at hfinal
    · exact below_of_plan_reject hnames hbelow hfinal
    · obtain rfl := Except.ok.inj hfinal
      exact hbelow
  intro rule hrule
  obtain ⟨item, hitem, hrule⟩ := List.mem_flatMap.1 hrule
  exact (hlast item hitem).rules hrule

end Expand

/-! ## Configurations -/

variable {cfg : Config} {proxy : String}

namespace Config

/-- The number of nodes: the proxies and, after them, the groups. -/
def nodes (cfg : Config) : Nat :=
  cfg.proxies.length + cfg.groups.length

/-- `child` is a member of the group at `node`, whether it is selected or not. -/
def Member (cfg : Config) (child node : Nat) : Prop :=
  cfg.proxies.length ≤ node ∧ ∃ group, cfg.groups[node - cfg.proxies.length]? = some group ∧ child ∈ group.members

/-- Every group has a selection that is a position in its members. -/
def Selected (groups : List Group) (selections : List Nat) : Prop :=
  ∀ (index : Nat) (group : Group), groups[index]? = some group →
    ∃ selection, selections[index]? = some selection ∧ selection < group.members.length

structure WellFormed (cfg : Config) : Prop where
  rules_below : ∀ rule ∈ cfg.rules, rule.proxy < cfg.nodes
  members_below : ∀ group ∈ cfg.groups, ∀ member ∈ group.members, member < cfg.nodes
  acyclic : WellFounded cfg.Member
  selected : Selected cfg.groups cfg.selections

theorem wellFounded_member (hedges : WellFounded (Edge (cfg.groups.map (·.members)) cfg.proxies.length)) :
    WellFounded cfg.Member := by
  refine Subrelation.wf ?_ hedges
  rintro child node ⟨hle, group, hgroup, hchild⟩
  exact ⟨hle, group.members, by simp [hgroup], hchild⟩

/-- A parsed configuration is well formed, with the first member of every group selected. -/
theorem wellFormed_of_document {crates : Crates} {document : Value}
    (hparse : of_document crates document (some assets) = .ok cfg) : cfg.WellFormed := by
  unfold of_document at hparse
  simp only [bind_eq_ok_iff] at hparse
  obtain ⟨_, _, _, _, raw, _, _, _, _, _, ⟨proxies, entry_groups⟩, _, _, _, named, hnamed, ⟨groups, names⟩,
    hgroups, rules, hrules, hpure⟩ := hparse
  obtain rfl := Except.ok.inj hpure
  have hproxies : NamesBelow named proxies.length := by
    simpa using NamesBelow.name_proxies (by simp [NamesBelow]) hnamed
  obtain ⟨hbelow, hmembers, hnonempty, hacyclic⟩ := resolve_groups_ok hproxies hgroups
  refine ⟨proxy_lt_of_expand hbelow hrules, hmembers, wellFounded_member hacyclic, ?_⟩
  intro index group hgroup
  have hlt : index < groups.length := (List.getElem?_eq_some_iff.1 hgroup).1
  refine ⟨0, List.getElem?_replicate_of_lt hlt, ?_⟩
  exact List.length_pos_iff.2 (hnonempty group (List.mem_of_getElem? hgroup))

theorem wellFormed_of_parse {crates : Crates} (hparse : parse_with_assets crates source assets = .ok cfg) :
    cfg.WellFormed := by
  unfold parse_with_assets parse_inner at hparse
  rw [bind_eq_ok_iff] at hparse
  obtain ⟨document, -, hdocument⟩ := hparse
  exact wellFormed_of_document hdocument

/-! ### Selection calls -/

theorem lt_of_member_position {nodes : List Nat} {position : Nat}
    (hfound : cfg.member_position proxy nodes = .ok (some position)) : position < nodes.length := by
  induction nodes generalizing position with
  | nil => cases hfound
  | cons node nodes ih =>
    simp only [member_position, bind_eq_ok_iff] at hfound
    obtain ⟨name, -, hfound⟩ := hfound
    split at hfound
    · obtain rfl := Option.some.inj (Except.ok.inj hfound)
      simp
    · simp only [bind_eq_ok_iff] at hfound
      obtain ⟨found, hrest, hpure⟩ := hfound
      obtain ⟨rest, rfl, rfl⟩ := Option.map_eq_some_iff.1 (Except.ok.inj hpure)
      simpa using ih hrest

/-- A selection is a position in the members of its group. -/
theorem selection_spec {group : String} {member : Nat} (hselection : cfg.selection group proxy = .ok (index, member)) :
    ∃ found, cfg.groups[index]? = some found ∧ member < found.members.length := by
  unfold selection at hselection
  simp only [bind_eq_ok_iff, okOr_eq_ok_iff] at hselection
  obtain ⟨_, _, members, hmembers, found, hfound, position, rfl, hpure⟩ := hselection
  obtain ⟨rfl, rfl⟩ := Prod.mk.inj (Except.ok.inj hpure)
  obtain ⟨declared, hdeclared, rfl⟩ := Option.map_eq_some_iff.1 hmembers
  exact ⟨declared, hdeclared, lt_of_member_position hfound⟩

theorem Selected.set {groups : List Group} {selections : List Nat} {member : Nat} {group : Group}
    (hselected : Selected groups selections) (hgroup : groups[index]? = some group)
    (hmember : member < group.members.length) : Selected groups (selections.set index member) := by
  intro other found hfound
  obtain ⟨selection, hselection, hlt⟩ := hselected other found hfound
  by_cases heq : index = other
  · subst heq
    obtain rfl := Option.some.inj (hgroup.symm.trans hfound)
    have hindex : index < selections.length := (List.getElem?_eq_some_iff.1 hselection).1
    exact ⟨member, List.getElem?_set_self hindex, hmember⟩
  · exact ⟨selection, by rw [List.getElem?_set_ne heq, hselection], hlt⟩

theorem WellFormed.with_selections {selections : List Nat} (hcfg : cfg.WellFormed)
    (hselected : Selected cfg.groups selections) : ({ cfg with selections } : Config).WellFormed :=
  ⟨hcfg.rules_below, hcfg.members_below, hcfg.acyclic, hselected⟩

theorem WellFormed.nonempty (hcfg : cfg.WellFormed) : Selected cfg.groups (List.replicate cfg.groups.length 0) := by
  intro index group hgroup
  obtain ⟨selection, -, hlt⟩ := hcfg.selected index group hgroup
  exact ⟨0, List.getElem?_replicate_of_lt (List.getElem?_eq_some_iff.1 hgroup).1, by omega⟩

theorem WellFormed.select {next : Config} {group : String} (hcfg : cfg.WellFormed)
    (hselect : cfg.select group proxy = .ok next) : next.WellFormed := by
  unfold Config.select at hselect
  simp only [bind_eq_ok_iff] at hselect
  obtain ⟨⟨index, member⟩, hselection, hpure⟩ := hselect
  obtain rfl := Except.ok.inj hpure
  obtain ⟨found, hfound, hlt⟩ := selection_spec hselection
  exact hcfg.with_selections (hcfg.selected.set hfound hlt)

theorem WellFormed.set_selections {next : Config} {selections : List (String × String)} (hcfg : cfg.WellFormed)
    (hset : cfg.set_selections selections = .ok next) : next.WellFormed := by
  unfold Config.set_selections at hset
  simp only [bind_eq_ok_iff] at hset
  obtain ⟨_, _, stored, hstored, hpure⟩ := hset
  obtain rfl := Except.ok.inj hpure
  refine hcfg.with_selections (Traverse.foldlM_invariant hcfg.nonempty ?_ hstored)
  intro state entry next _ hstate hnext
  simp only [bind_eq_ok_iff] at hnext
  obtain ⟨⟨index, member⟩, hselection, hpure⟩ := hnext
  obtain rfl := Except.ok.inj hpure
  obtain ⟨found, hfound, hlt⟩ := selection_spec hselection
  exact hstate.set hfound hlt

end Config

theorem SelectionCall.wellFormed (hcfg : cfg.WellFormed) (call : SelectionCall) : (call.apply cfg).WellFormed := by
  unfold SelectionCall.apply
  cases hresult : call.result cfg with
  | error error => exact hcfg
  | ok next =>
    cases call with
    | select group proxy => exact hcfg.select hresult
    | set_selections selections => exact hcfg.set_selections hresult

theorem Config.WellFormed.after (hcfg : cfg.WellFormed) (calls : List SelectionCall) :
    (cfg.after calls).WellFormed := by
  induction calls generalizing cfg with
  | nil => exact hcfg
  | cons call calls ih => exact ih (call.wellFormed hcfg)

/-- No selection call changes anything but the selections. -/
theorem SelectionCall.apply_eq (cfg : Config) (call : SelectionCall) :
    ∃ selections, call.apply cfg = { cfg with selections } := by
  unfold SelectionCall.apply
  cases hresult : call.result cfg with
  | error error => exact ⟨cfg.selections, rfl⟩
  | ok next =>
    cases call with
    | select group proxy =>
      simp only [SelectionCall.result, Config.select, bind_eq_ok_iff] at hresult
      obtain ⟨_, _, hpure⟩ := hresult
      exact ⟨_, (Except.ok.inj hpure).symm⟩
    | set_selections selections =>
      simp only [SelectionCall.result, Config.set_selections, bind_eq_ok_iff] at hresult
      obtain ⟨_, _, _, _, hpure⟩ := hresult
      exact ⟨_, (Except.ok.inj hpure).symm⟩

theorem Config.after_eq (cfg : Config) (calls : List SelectionCall) :
    ∃ selections, cfg.after calls = { cfg with selections } := by
  induction calls generalizing cfg with
  | nil => exact ⟨cfg.selections, rfl⟩
  | cons call calls ih =>
    obtain ⟨first, hfirst⟩ := call.apply_eq cfg
    obtain ⟨last, hlast⟩ := ih (call.apply cfg)
    refine ⟨last, ?_⟩
    change (call.apply cfg).after calls = _
    rw [hlast, hfirst]

end zc.config
