import Zc.Config.WellFormed
import Zc.Lib.SortedMap

/-!
# Selections by name

The nodes of a parsed configuration have distinct names, so a selection can be saved by the name of
its member and restored: the member found again is the same node.
-/

namespace zc.config

variable {cfg : Config} {node : Nat} {name : String}

namespace Config

/-- `Config::selected`. -/
def selected (cfg : Config) : Result (SortedMap String String) :=
  (cfg.groups.zip cfg.selections).foldlM (fun map entry => do
    let node ← okOr entry.1.members[entry.2]? (.panic "index out of bounds")
    let name ← cfg.node_name node
    return map.insert entry.1.name name) .empty

/-- The names of the nodes, in order. -/
def names (cfg : Config) : List String :=
  cfg.proxies.map (·.name) ++ cfg.groups.map (·.name)

structure Named (cfg : Config) : Prop where
  nodup : cfg.names.Nodup
  groups_le : cfg.groups.length ≤ MAX_GROUPS

theorem node_name_eq_ok_iff : cfg.node_name node = .ok name ↔ cfg.names[node]? = some name := by
  unfold node_name names
  split
  · next hlt =>
    rw [okOr_eq_ok_iff, List.getElem?_append_left (by simpa using hlt), List.getElem?_map]
  · next hge =>
    rw [okOr_eq_ok_iff, List.getElem?_append_right (by simpa using hge), List.getElem?_map, List.length_map]

theorem length_names (cfg : Config) : cfg.names.length = cfg.nodes := by
  simp [names, nodes]

theorem exists_node_name (hnode : node < cfg.nodes) : ∃ name, cfg.node_name node = .ok name := by
  rw [← length_names] at hnode
  exact ⟨_, node_name_eq_ok_iff.2 (List.getElem?_eq_getElem hnode)⟩

/-- Distinct nodes have distinct names. -/
theorem Named.node_eq (hnamed : cfg.Named) {node' : Nat} (hname : cfg.node_name node = .ok name)
    (hname' : cfg.node_name node' = .ok name) : node = node' := by
  rw [node_name_eq_ok_iff] at hname hname'
  exact (List.getElem?_inj (List.getElem?_eq_some_iff.1 hname).1 hnamed.nodup).1 (hname.trans hname'.symm)

end Config

/-! ## Parsed configurations -/

/-- The keys of a name table, the first name first. -/
def Names.keys (names : Names) : List String :=
  (names.map Prod.fst).reverse

variable {names : Names}

theorem insert_name_keys {next : Names} {index : Nat} (hinsert : insert_name names name index = .ok next)
    (hnodup : (Names.keys names).Nodup) : Names.keys next = Names.keys names ++ [name] ∧ (Names.keys next).Nodup := by
  unfold insert_name at hinsert
  split at hinsert
  · cases hinsert
  · next hfree =>
    obtain rfl := Except.ok.inj hinsert
    have hkeys : Names.keys ((name, index) :: names) = Names.keys names ++ [name] := by simp [Names.keys]
    refine ⟨hkeys, ?_⟩
    rw [hkeys, List.nodup_append]
    refine ⟨hnodup, List.pairwise_singleton _ _, ?_⟩
    rintro other hother _ hname rfl
    obtain rfl := List.mem_singleton.1 hname
    rw [Names.keys, List.mem_reverse, List.mem_map] at hother
    obtain ⟨entry, hentry, rfl⟩ := hother
    exact hfree (List.lookup_isSome_iff.2 ⟨entry, hentry, beq_self_eq_true _⟩)

variable {final : Names}

theorem name_proxies_keys {proxies : List Proxy} {next : Nat} (hname : name_proxies names next proxies = .ok final)
    (hnodup : (Names.keys names).Nodup) :
    Names.keys final = Names.keys names ++ proxies.map (·.name) ∧ (Names.keys final).Nodup := by
  induction proxies generalizing names next with
  | nil =>
    obtain rfl := Except.ok.inj hname
    simpa using hnodup
  | cons proxy proxies ih =>
    simp only [name_proxies, bind_eq_ok_iff] at hname
    obtain ⟨_, _, middle, hinsert, hrest⟩ := hname
    obtain ⟨hkeys, hmiddle⟩ := insert_name_keys hinsert hnodup
    obtain ⟨hfinal, hfinal'⟩ := ih hrest hmiddle
    exact ⟨by simp [hfinal, hkeys], hfinal'⟩

theorem name_groups_keys {groups : List RawGroup} {next : Nat} (hname : name_groups names next groups = .ok final)
    (hnodup : (Names.keys names).Nodup) :
    Names.keys final = Names.keys names ++ groups.map (·.name) ∧ (Names.keys final).Nodup := by
  induction groups generalizing names next with
  | nil =>
    obtain rfl := Except.ok.inj hname
    simpa using hnodup
  | cons group groups ih =>
    simp only [name_groups, bind_eq_ok_iff] at hname
    obtain ⟨_, _, _, _, middle, hinsert, hrest⟩ := hname
    obtain ⟨hkeys, hmiddle⟩ := insert_name_keys hinsert hnodup
    obtain ⟨hfinal, hfinal'⟩ := ih hrest hmiddle
    exact ⟨by simp [hfinal, hkeys], hfinal'⟩

theorem resolve_groups_names {raw : List RawGroup} {proxy_count : Nat} {groups : List Group}
    (hresolve : resolve_groups raw names proxy_count = .ok (groups, final)) (hnodup : (Names.keys names).Nodup) :
    groups.map (·.name) = raw.map (·.name) ∧ (Names.keys names ++ raw.map (·.name)).Nodup := by
  unfold resolve_groups at hresolve
  simp only [bind_eq_ok_iff] at hresolve
  obtain ⟨named, hnamed, edges, hedges, state, hsearch, hpure⟩ := hresolve
  obtain ⟨rfl, rfl⟩ := Prod.mk.inj (Except.ok.inj hpure)
  obtain ⟨hkeys, hnodup'⟩ := name_groups_keys hnamed hnodup
  refine ⟨?_, hkeys ▸ hnodup'⟩
  have hlength := (Traverse.mapM_eq_ok_iff.1 hedges).length_eq
  apply List.ext_getElem
  · simp [hlength]
  · intro i hi _
    simp

theorem Config.named_of_document {crates : Crates} {document : Value} {assets : Option Assets}
    (hparse : Config.of_document crates document assets = .ok cfg) : cfg.Named := by
  unfold Config.of_document at hparse
  simp only [bind_eq_ok_iff, bail_if_eq_ok_iff] at hparse
  obtain ⟨_, _, _, _, raw, _, _, _, _, _, ⟨proxies, entry_groups⟩, _, _, hcount, named, hnamed, ⟨groups, names⟩,
    hgroups, rules, hrules, hpure⟩ := hparse
  obtain rfl := Except.ok.inj hpure
  obtain ⟨hkeys, hnodup⟩ := name_proxies_keys hnamed List.nodup_nil
  obtain ⟨hnames, hall⟩ := resolve_groups_names hgroups hnodup
  have hlength : groups.length = (entry_groups ++ raw.proxy_groups).length := by
    simpa using congrArg List.length hnames
  refine ⟨?_, ?_⟩
  · rw [hkeys, ← hnames] at hall
    exact hall
  · rw [hlength]
    exact Nat.le_of_not_lt (of_decide_eq_false hcount)

/-! ## Saving and restoring selections -/

variable {entries : List (String × String)} {stored : List Nat} {map : SortedMap String String} {pair : Group × Nat}

namespace Config

variable {cfg : Config} {group proxy : String} {index member : Nat}

theorem member_position_spec {nodes : List Nat} {position : Nat}
    (hfound : cfg.member_position proxy nodes = .ok (some position)) :
    ∃ node, nodes[position]? = some node ∧ cfg.node_name node = .ok proxy := by
  induction nodes generalizing position with
  | nil => cases hfound
  | cons node nodes ih =>
    simp only [member_position, bind_eq_ok_iff] at hfound
    obtain ⟨name, hname, hfound⟩ := hfound
    split at hfound
    · next heq =>
      obtain rfl := Option.some.inj (Except.ok.inj hfound)
      exact ⟨node, rfl, heq ▸ hname⟩
    · simp only [bind_eq_ok_iff] at hfound
      obtain ⟨found, hrest, hpure⟩ := hfound
      obtain ⟨rest, rfl, rfl⟩ := Option.map_eq_some_iff.1 (Except.ok.inj hpure)
      simpa using ih hrest

/-- A member is found by its name. -/
theorem exists_member_position {nodes : List Nat} (hnodes : ∀ node ∈ nodes, node < cfg.nodes) (hmem : node ∈ nodes)
    (hname : cfg.node_name node = .ok proxy) : ∃ position, cfg.member_position proxy nodes = .ok (some position) := by
  induction nodes with
  | nil => cases hmem
  | cons first nodes ih =>
    obtain ⟨name, hfirst⟩ := exists_node_name (hnodes first List.mem_cons_self)
    simp only [member_position, hfirst]
    by_cases heq : name = proxy
    · exact ⟨0, if_pos heq⟩
    · have hmem' : node ∈ nodes := by
        refine (List.mem_cons.1 hmem).resolve_left ?_
        rintro rfl
        exact heq (Except.ok.inj (hfirst.symm.trans hname))
      obtain ⟨position, hposition⟩ := ih (fun node hnode => hnodes node (List.mem_cons_of_mem _ hnode)) hmem'
      refine ⟨position + 1, ?_⟩
      simp only [Bind.bind, Except.bind]
      rw [if_neg heq, hposition]
      rfl

/-- What `selection` finds: the group of that name, and its first member of that name. -/
theorem selection_eq_ok (hselection : cfg.selection group proxy = .ok (index, member)) :
    ∃ found node, cfg.groups[index]? = some found ∧ found.name = group ∧ found.members[member]? = some node ∧
      cfg.node_name node = .ok proxy := by
  unfold selection at hselection
  simp only [bind_eq_ok_iff, okOr_eq_ok_iff] at hselection
  obtain ⟨_, hindex, members, hmembers, found, hfound, position, rfl, hpure⟩ := hselection
  obtain ⟨rfl, rfl⟩ := Prod.mk.inj (Except.ok.inj hpure)
  obtain ⟨declared, hdeclared, rfl⟩ := Option.map_eq_some_iff.1 hmembers
  obtain ⟨node, hnode, hname⟩ := member_position_spec hfound
  refine ⟨declared, node, hdeclared, ?_, hnode, hname⟩
  obtain ⟨hlt, hcandidate, -⟩ := List.findIdx?_eq_some_iff_getElem.1 hindex
  rw [List.getElem?_eq_getElem hlt] at hdeclared
  cases hdeclared
  simpa using hcandidate

theorem Named.group_index {found found' : Group} {index index' : Nat} (hnamed : cfg.Named)
    (hfound : cfg.groups[index]? = some found) (hfound' : cfg.groups[index']? = some found') (hname : found.name = found'.name) :
    index = index' := by
  have hnodup : (cfg.groups.map (·.name)).Nodup := (List.nodup_append.1 hnamed.nodup).2.1
  have hlt : index < (cfg.groups.map (·.name)).length := by simpa using (List.getElem?_eq_some_iff.1 hfound).1
  refine (List.getElem?_inj hlt hnodup).1 ?_
  rw [List.getElem?_map, List.getElem?_map, hfound, hfound']
  exact congrArg some hname

/-- A selection of a member of a group is found. -/
theorem exists_selection (hcfg : cfg.WellFormed) (hnamed : cfg.Named) {found : Group}
    (hfound : cfg.groups[index]? = some found) (hmem : node ∈ found.members) (hname : cfg.node_name node = .ok proxy) :
    ∃ member, cfg.selection found.name proxy = .ok (index, member) := by
  have hmembers := hcfg.members_below found (List.mem_of_getElem? hfound)
  obtain ⟨position, hposition⟩ := exists_member_position hmembers hmem hname
  have hindex : cfg.groups.findIdx? (fun candidate => decide (candidate.name = found.name)) = some index := by
    cases hfind : cfg.groups.findIdx? (fun candidate => decide (candidate.name = found.name)) with
    | none =>
      have hnone := List.findIdx?_eq_none_iff.1 hfind found (List.mem_of_getElem? hfound)
      simp at hnone
    | some other =>
      obtain ⟨hlt, hcandidate, -⟩ := List.findIdx?_eq_some_iff_getElem.1 hfind
      exact congrArg some (hnamed.group_index (List.getElem?_eq_getElem hlt) hfound (of_decide_eq_true hcandidate))
  refine ⟨position, ?_⟩
  unfold selection
  simp only [bind_eq_ok_iff, okOr_eq_ok_iff]
  exact ⟨index, hindex, found.members, by rw [hfound]; rfl, some position, hposition, position, rfl, rfl⟩

theorem node_name_with_selections (cfg : Config) (selections : List Nat) (node : Nat) :
    ({ cfg with selections } : Config).node_name node = cfg.node_name node := rfl

theorem member_position_with_selections (cfg : Config) (selections : List Nat) (proxy : String) (nodes : List Nat) :
    ({ cfg with selections } : Config).member_position proxy nodes = cfg.member_position proxy nodes := by
  induction nodes with
  | nil => rfl
  | cons node nodes ih => simp only [member_position, ih, node_name_with_selections]

theorem selection_with_selections (cfg : Config) (selections : List Nat) (group proxy : String) :
    ({ cfg with selections } : Config).selection group proxy = cfg.selection group proxy := by
  simp only [selection, member_position_with_selections]

/-- The selections after `set_selections`: those of the entries, and the first member elsewhere. -/
structure Applied (cfg : Config) (entries : List (String × String)) (stored : List Nat) : Prop where
  length : stored.length = cfg.groups.length
  cases : ∀ index member, stored[index]? = some member →
    (∃ entry ∈ entries, cfg.selection entry.1 entry.2 = .ok (index, member)) ∨
      member = 0 ∧ ∀ entry ∈ entries, ∀ other, cfg.selection entry.1 entry.2 ≠ .ok (index, other)

/-- One turn of the loop of `set_selections`. -/
def store_selection (cfg : Config) (next : List Nat) (entry : String × String) : Result (List Nat) := do
  let (index, member) ← cfg.selection entry.1 entry.2
  pure (next.set index member)

theorem Applied.snoc {entry : String × String} (happlied : Applied cfg entries stored)
    (hselection : cfg.selection entry.1 entry.2 = .ok (index, member)) :
    Applied cfg (entries ++ [entry]) (stored.set index member) := by
  refine ⟨by rw [List.length_set, happlied.length], fun other found hfound => ?_⟩
  by_cases heq : index = other
  · subst heq
    have hlt : index < stored.length := by simpa using (List.getElem?_eq_some_iff.1 hfound).1
    rw [List.getElem?_set_self hlt] at hfound
    cases hfound
    exact .inl ⟨entry, by simp, hselection⟩
  · rw [List.getElem?_set_ne heq] at hfound
    obtain ⟨entry', hentry', hselection'⟩ | ⟨hzero, hnone⟩ := happlied.cases other found hfound
    · exact .inl ⟨entry', List.mem_append_left _ hentry', hselection'⟩
    · refine .inr ⟨hzero, fun entry' hentry' k hk => ?_⟩
      obtain hentry' | hentry' := List.mem_append.1 hentry'
      · exact hnone entry' hentry' k hk
      · obtain rfl := List.mem_singleton.1 hentry'
        rw [hselection] at hk
        cases hk
        exact heq rfl

theorem applied_of_foldlM {todo done : List (String × String)} {final : List Nat} (happlied : Applied cfg done stored)
    (hfold : todo.foldlM (store_selection cfg) stored = .ok final) : Applied cfg (done ++ todo) final := by
  induction todo generalizing done stored with
  | nil =>
    obtain rfl := Except.ok.inj hfold
    rwa [List.append_nil]
  | cons entry todo ih =>
    rw [List.foldlM_cons] at hfold
    obtain ⟨next, hnext, hrest⟩ := bind_eq_ok_iff.1 hfold
    obtain ⟨⟨index, member⟩, hselection, hpure⟩ := bind_eq_ok_iff.1 hnext
    obtain rfl := Except.ok.inj hpure
    have hfinal := ih (happlied.snoc hselection) hrest
    rwa [List.append_assoc, List.singleton_append] at hfinal

theorem set_selections_applied {next : Config} (hset : cfg.set_selections entries = .ok next) :
    ∃ stored, next = { cfg with selections := stored } ∧ Applied cfg entries stored := by
  unfold set_selections at hset
  simp only [bind_eq_ok_iff] at hset
  obtain ⟨_, _, stored, hstored, hpure⟩ := hset
  refine ⟨stored, (Except.ok.inj hpure).symm, ?_⟩
  have hstart : Applied cfg [] (List.replicate cfg.groups.length 0) := by
    refine ⟨by simp, fun index member hmember => .inr ⟨?_, List.forall_mem_nil _⟩⟩
    exact List.eq_of_mem_replicate (List.mem_of_getElem? hmember)
  exact applied_of_foldlM hstart hstored

/-- `set_selections` only accepts entries that it finds. -/
theorem exists_selection_of_set_selections {next : Config} (hset : cfg.set_selections entries = .ok next)
    {entry : String × String} (hentry : entry ∈ entries) : ∃ found, cfg.selection entry.1 entry.2 = .ok found := by
  have hfold : ∀ (todo : List (String × String)) (stored final : List Nat),
      todo.foldlM (store_selection cfg) stored = .ok final → entry ∈ todo →
      ∃ found, cfg.selection entry.1 entry.2 = .ok found := by
    intro todo
    induction todo with
    | nil => nofun
    | cons first todo ih =>
      intro stored final hfinal hmem
      rw [List.foldlM_cons] at hfinal
      obtain ⟨middle, hmiddle, hrest⟩ := bind_eq_ok_iff.1 hfinal
      obtain ⟨found, hfound, -⟩ := bind_eq_ok_iff.1 hmiddle
      obtain rfl | hmem := List.mem_cons.1 hmem
      · exact ⟨found, hfound⟩
      · exact ih _ _ hrest hmem
  unfold set_selections at hset
  simp only [bind_eq_ok_iff] at hset
  obtain ⟨_, _, stored, hstored, -⟩ := hset
  exact hfold entries _ stored hstored hentry

theorem exists_set_selections (hlength : entries.length ≤ MAX_GROUPS)
    (hentries : ∀ entry ∈ entries, ∃ found, cfg.selection entry.1 entry.2 = .ok found) :
    ∃ next, cfg.set_selections entries = .ok next := by
  have hfold : ∀ (todo : List (String × String)) (stored : List Nat), (∀ entry ∈ todo, entry ∈ entries) →
      ∃ final, todo.foldlM (store_selection cfg) stored = .ok final := by
    intro todo
    induction todo with
    | nil => exact fun stored _ => ⟨stored, rfl⟩
    | cons entry todo ih =>
      intro stored hmem
      obtain ⟨⟨index, member⟩, hselection⟩ := hentries entry (hmem entry List.mem_cons_self)
      obtain ⟨final, hfinal⟩ := ih (stored.set index member) fun e he => hmem e (List.mem_cons_of_mem _ he)
      refine ⟨final, ?_⟩
      rw [List.foldlM_cons]
      exact bind_eq_ok_iff.2 ⟨_, bind_eq_ok_iff.2 ⟨(index, member), hselection, rfl⟩, hfinal⟩
  obtain ⟨final, hfinal⟩ := hfold entries (List.replicate cfg.groups.length 0) fun _ h => h
  refine ⟨{ cfg with selections := final }, ?_⟩
  unfold set_selections
  simp only [bind_eq_ok_iff, bail_if_eq_ok_iff]
  exact ⟨(), decide_eq_false (Nat.not_lt.2 hlength), final, hfinal, rfl⟩

/-! ### The saved selections -/

/-- One turn of the loop of `selected`. -/
def save_selection (cfg : Config) (map : SortedMap String String) (entry : Group × Nat) : Result (SortedMap String String) := do
  let node ← okOr entry.1.members[entry.2]? (.panic "index out of bounds")
  let name ← cfg.node_name node
  return map.insert entry.1.name name

/-- The entry a group and its selection give. -/
def Saves (cfg : Config) (pair : Group × Nat) (entry : String × String) : Prop :=
  pair.1.name = entry.1 ∧ ∃ node, pair.1.members[pair.2]? = some node ∧ cfg.node_name node = .ok entry.2

theorem save_selection_eq_ok {next : SortedMap String String} (hsave : save_selection cfg map pair = .ok next) :
    ∃ name, Saves cfg pair (pair.1.name, name) ∧ next = map.insert pair.1.name name := by
  unfold save_selection at hsave
  simp only [bind_eq_ok_iff, okOr_eq_ok_iff] at hsave
  obtain ⟨node, hnode, name, hname, hpure⟩ := hsave
  exact ⟨name, ⟨rfl, node, hnode, hname⟩, (Except.ok.inj hpure).symm⟩

/-- What the loop over the groups has saved. -/
structure Saved (cfg : Config) (done : List (Group × Nat)) (map : SortedMap String String) : Prop where
  sound : ∀ entry ∈ map.entries, ∃ pair ∈ done, Saves cfg pair entry
  complete : ∀ pair ∈ done, ∃ entry ∈ map.entries, Saves cfg pair entry
  length : map.entries.length ≤ done.length

theorem Saved.snoc {done : List (Group × Nat)} {next : SortedMap String String} (hsaved : Saved cfg done map)
    (hnew : ∀ old ∈ done, old.1.name ≠ pair.1.name) (hsave : save_selection cfg map pair = .ok next) :
    Saved cfg (done ++ [pair]) next := by
  obtain ⟨name, hsaves, rfl⟩ := save_selection_eq_ok hsave
  refine ⟨?_, ?_, ?_⟩
  · intro entry hentry
    obtain rfl | ⟨hentry, -⟩ := SortedMap.mem_entries_insert.1 hentry
    · exact ⟨pair, by simp, hsaves⟩
    · obtain ⟨old, hold, hsaves'⟩ := hsaved.sound entry hentry
      exact ⟨old, List.mem_append_left _ hold, hsaves'⟩
  · intro old hold
    obtain hold | hold := List.mem_append.1 hold
    · obtain ⟨entry, hentry, hsaves'⟩ := hsaved.complete old hold
      refine ⟨entry, SortedMap.mem_entries_insert.2 (.inr ⟨hentry, ?_⟩), hsaves'⟩
      rw [← hsaves'.1]
      exact hnew old hold
    · obtain rfl := List.mem_singleton.1 hold
      exact ⟨_, SortedMap.mem_entries_insert.2 (.inl rfl), hsaves⟩
  · rw [List.length_append]
    exact (SortedMap.length_insertEntry_le _ _ _).trans (Nat.succ_le_succ hsaved.length)

theorem exists_save_loop (todo done : List (Group × Nat)) (hsaved : Saved cfg done map)
    (hnodup : ((done ++ todo).map fun pair => pair.1.name).Nodup)
    (hmembers : ∀ pair ∈ todo, ∃ entry, Saves cfg pair entry) :
    ∃ final, todo.foldlM (save_selection cfg) map = .ok final ∧ Saved cfg (done ++ todo) final := by
  induction todo generalizing done map with
  | nil => exact ⟨map, rfl, by rwa [List.append_nil]⟩
  | cons pair todo ih =>
    obtain ⟨entry, hkey, node, hnode, hname⟩ := hmembers pair List.mem_cons_self
    have hsave : save_selection cfg map pair = .ok (map.insert pair.1.name entry.2) := by
      unfold save_selection
      simp only [bind_eq_ok_iff, okOr_eq_ok_iff]
      exact ⟨node, hnode, entry.2, hname, rfl⟩
    have hnew : ∀ old ∈ done, old.1.name ≠ pair.1.name := by
      intro old hold
      rw [List.map_append] at hnodup
      exact (List.nodup_append.1 hnodup).2.2 _ (List.mem_map_of_mem hold) _ (List.mem_map_of_mem List.mem_cons_self)
    have happend : (done ++ [pair]) ++ todo = done ++ pair :: todo := by simp
    obtain ⟨final, hfinal, hsaved'⟩ := ih (done ++ [pair]) (hsaved.snoc hnew hsave) (happend ▸ hnodup)
      fun other hother => hmembers other (List.mem_cons_of_mem _ hother)
    refine ⟨final, ?_, happend ▸ hsaved'⟩
    rw [List.foldlM_cons]
    exact bind_eq_ok_iff.2 ⟨_, hsave, hfinal⟩

theorem mem_zip (hpair : pair ∈ cfg.groups.zip cfg.selections) :
    ∃ index : Nat, cfg.groups[index]? = some pair.1 ∧ cfg.selections[index]? = some pair.2 := by
  obtain ⟨index, hindex⟩ := List.mem_iff_getElem?.1 hpair
  exact ⟨index, List.getElem?_zip_eq_some.1 hindex⟩

theorem WellFormed.length_le (hcfg : cfg.WellFormed) : cfg.groups.length ≤ cfg.selections.length := by
  refine Nat.not_lt.1 fun hlt => ?_
  obtain ⟨selection, hselection, -⟩ := hcfg.selected _ _ (List.getElem?_eq_getElem hlt)
  exact absurd (List.getElem?_eq_some_iff.1 hselection).1 (Nat.lt_irrefl _)

theorem WellFormed.exists_saves (hcfg : cfg.WellFormed) (hpair : pair ∈ cfg.groups.zip cfg.selections) :
    ∃ entry, Saves cfg pair entry := by
  obtain ⟨index, hgroup, hselection⟩ := mem_zip hpair
  obtain ⟨selection, hselection', hlt⟩ := hcfg.selected _ _ hgroup
  obtain rfl := Option.some.inj (hselection.symm.trans hselection')
  have hnode := List.getElem?_eq_getElem hlt
  obtain ⟨name, hname⟩ := exists_node_name
    (hcfg.members_below pair.1 (List.mem_of_getElem? hgroup) _ (List.getElem_mem hlt))
  exact ⟨(pair.1.name, name), rfl, _, hnode, hname⟩

theorem exists_selected (hcfg : cfg.WellFormed) (hnamed : cfg.Named) :
    ∃ map, cfg.selected = .ok map ∧ Saved cfg (cfg.groups.zip cfg.selections) map := by
  have hnodup : ((cfg.groups.zip cfg.selections).map fun pair => pair.1.name).Nodup := by
    have hnames : (cfg.groups.map (·.name)).Nodup := (List.nodup_append.1 hnamed.nodup).2.1
    rw [← List.map_fst_zip hcfg.length_le, List.map_map] at hnames
    exact hnames
  exact exists_save_loop _ [] ⟨nofun, nofun, Nat.le_refl _⟩ hnodup fun pair hpair => hcfg.exists_saves hpair

/-! ### Selections that pick the same members -/

/-- The member a group node selects. -/
def picked (cfg : Config) (index : Nat) : Option Nat := do
  let group ← cfg.groups[index]?
  let selection ← cfg.selections[index]?
  group.members[selection]?

theorem resolve_from_succ (cfg : Config) (turns index : Nat) :
    cfg.resolve_from (turns + 1) index =
      if index < cfg.proxies.length then .ok index
      else match cfg.picked (index - cfg.proxies.length) with
        | some node => cfg.resolve_from turns node
        | none => .error (.panic "index out of bounds") := by
  rw [resolve_from, picked]
  split
  · rfl
  · dsimp only
    cases cfg.groups[index - cfg.proxies.length]? with
    | none => rfl
    | some group =>
      cases cfg.selections[index - cfg.proxies.length]? with
      | none => rfl
      | some selection =>
        cases group.members[selection]? <;> rfl

/-- Selections that pick the same members resolve every node alike. -/
theorem resolve_proxy_congr
    (hpicked : ∀ index, ({ cfg with selections := stored } : Config).picked index = cfg.picked index) (index : Nat) :
    ({ cfg with selections := stored } : Config).resolve_proxy index = cfg.resolve_proxy index := by
  unfold resolve_proxy
  show ({ cfg with selections := stored } : Config).resolve_from (cfg.groups.length + 1) index = _
  generalize cfg.groups.length + 1 = turns
  induction turns generalizing index with
  | zero => rfl
  | succ turns ih =>
    rw [resolve_from_succ, resolve_from_succ, hpicked]
    split
    · rfl
    · cases cfg.picked (index - cfg.proxies.length) with
      | none => rfl
      | some node => exact ih node

/-- The selections saved by name can be set again from any others, and pick the members they picked. -/
theorem exists_restored (hcfg : cfg.WellFormed) (hnamed : cfg.Named) (hselected : cfg.selected = .ok map)
    (stored : List Nat) :
    ∃ restored, ({ cfg with selections := stored } : Config).set_selections map.entries = .ok { cfg with selections := restored } ∧
      ∀ index, ({ cfg with selections := restored } : Config).picked index = cfg.picked index := by
  obtain ⟨_, hselected', hsaved⟩ := exists_selected hcfg hnamed
  obtain rfl := Except.ok.inj (hselected.symm.trans hselected')
  have hlength : map.entries.length ≤ MAX_GROUPS := by
    refine hsaved.length.trans (le_trans ?_ hnamed.groups_le)
    rw [List.length_zip]
    exact Nat.min_le_left _ _
  have hentries : ∀ entry ∈ map.entries,
      ∃ found, ({ cfg with selections := stored } : Config).selection entry.1 entry.2 = .ok found := by
    intro entry hentry
    obtain ⟨pair, hpair, hkey, node, hnode, hname⟩ := hsaved.sound entry hentry
    obtain ⟨index, hgroup, -⟩ := mem_zip hpair
    obtain ⟨member, hselection⟩ := exists_selection hcfg hnamed hgroup (List.mem_of_getElem? hnode) hname
    rw [selection_with_selections, ← hkey]
    exact ⟨_, hselection⟩
  obtain ⟨next, hset⟩ := exists_set_selections hlength hentries
  obtain ⟨restored, rfl, happlied⟩ := set_selections_applied hset
  refine ⟨restored, hset, fun index => ?_⟩
  unfold picked
  cases hgroup : cfg.groups[index]? with
  | none => rfl
  | some found =>
    -- the entry saved for the group selects the node of that name, and only one node has it
    obtain ⟨selection, hselection, hlt⟩ := hcfg.selected _ _ hgroup
    have hpair : (found, selection) ∈ cfg.groups.zip cfg.selections :=
      List.mem_iff_getElem?.2 ⟨index, List.getElem?_zip_eq_some.2 ⟨hgroup, hselection⟩⟩
    obtain ⟨entry, hentry, hkey, node, hnode, hname⟩ := hsaved.complete _ hpair
    obtain ⟨position, hposition⟩ := exists_selection hcfg hnamed hgroup (List.mem_of_getElem? hnode) hname
    have hrestored : index < restored.length := by
      rw [happlied.length]
      exact (List.getElem?_eq_some_iff.1 hgroup).1
    have hget := List.getElem?_eq_getElem hrestored
    obtain ⟨entry', hentry', hselection'⟩ | ⟨-, hnone⟩ := happlied.cases index _ hget
    · rw [selection_with_selections] at hselection'
      obtain ⟨found', node', hgroup', hname', hnode', hnodename'⟩ := selection_eq_ok hselection'
      obtain rfl := Option.some.inj (hgroup.symm.trans hgroup')
      obtain rfl := SortedMap.eq_of_mem_entries hentry' hentry (hname'.symm.trans hkey)
      obtain rfl := hnamed.node_eq hname hnodename'
      simp only [hget, hselection, Option.bind_eq_bind, Option.bind_some]
      exact hnode'.trans hnode.symm
    · refine absurd ?_ (hnone entry hentry position)
      rw [selection_with_selections, ← hkey]
      exact hposition

end Config

end zc.config
