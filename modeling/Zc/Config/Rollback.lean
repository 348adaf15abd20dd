import Zc.Config.Named
import Zc.Config.Resolve

/-!
# Rolling selections back

`set_selections` writes the lock of the selections once, after its last check. Selections that were
saved by name before it are set again whatever it did, and lead every node where it led before.
-/

namespace zc.config

namespace Config

/-- A call under the lock of the selections: an error keeps what has been written so far. -/
abbrev Locked (α : Type) := ExceptT Error (StateM (List Nat)) α

def Locked.of {α : Type} (result : Result α) : Locked α :=
  ExceptT.mk (pure result)

/-- `Config::set_selections`, with the lock it writes. -/
def write_selections (cfg : Config) (selections : List (String × String)) : Locked Unit := do
  Locked.of (bail_if (selections.length > MAX_GROUPS) "persisted selection count limit exceeded")
  let next ← selections.foldlM (fun next entry => do
    let (index, member) ← Locked.of (cfg.selection entry.1 entry.2)
    pure (next.set index member)) (List.replicate cfg.groups.length 0)
  set next

theorem Locked.run_bind {α β : Type} (result : Result α) (next : α → Locked β) (lock : List Nat) :
    ((Locked.of result >>= next).run).run lock =
      match result with
      | .ok value => ((next value).run).run lock
      | .error error => (.error error, lock) := by
  cases result <;> rfl

theorem Locked.of_bind {α β : Type} (result : Result α) (next : α → Result β) :
    (Locked.of result >>= fun value => Locked.of (next value)) = Locked.of (result >>= next) := by
  cases result <;> rfl

theorem Locked.of_foldlM {α σ : Type} (step : σ → α → Result σ) (items : List α) (start : σ) :
    items.foldlM (fun state item => Locked.of (step state item)) start = Locked.of (items.foldlM step start) := by
  induction items generalizing start with
  | nil => rfl
  | cons item items ih =>
    simp only [List.foldlM_cons, ih]
    exact Locked.of_bind _ _

/-- The lock holds the new selections after a success, and the old ones after an error. -/
theorem run_write_selections (cfg : Config) (selections : List (String × String)) (lock : List Nat) :
    ((cfg.write_selections selections).run).run lock =
      match cfg.set_selections selections with
      | .ok next => (.ok (), next.selections)
      | .error error => (.error error, lock) := by
  have hstep : ∀ (next : List Nat) (entry : String × String), (do
      let (index, member) ← Locked.of (cfg.selection entry.1 entry.2)
      pure (next.set index member)) = Locked.of (store_selection cfg next entry) :=
    fun next entry => Locked.of_bind (cfg.selection entry.1 entry.2) fun found => pure (next.set found.1 found.2)
  have hset : cfg.set_selections selections = (do
      bail_if (selections.length > MAX_GROUPS) "persisted selection count limit exceeded"
      let next ← selections.foldlM (store_selection cfg) (List.replicate cfg.groups.length 0)
      pure { cfg with selections := next }) := rfl
  unfold write_selections
  simp only [hstep, Locked.of_foldlM, hset]
  rw [Locked.run_bind]
  cases bail_if (selections.length > MAX_GROUPS) "persisted selection count limit exceeded" with
  | error error => rfl
  | ok _ =>
    dsimp only
    rw [Locked.run_bind]
    cases selections.foldlM (store_selection cfg) (List.replicate cfg.groups.length 0) <;> rfl

/-- The selections `next` are those of the map: every entry is selected, and every group that has
    none is at its first member. -/
structure Applies (cfg : Config) (map : SortedMap String String) (next : List Nat) : Prop where
  length : next.length = cfg.groups.length
  entries : ∀ entry ∈ map.entries, ∃ (index : Nat) (group : Group) (selection node : Nat),
    cfg.groups[index]? = some group ∧ group.name = entry.1 ∧ next[index]? = some selection ∧ group.members[selection]? = some node ∧ cfg.node_name node = .ok entry.2
  omitted : ∀ (index : Nat) (group : Group), cfg.groups[index]? = some group → map.get group.name = none → next[index]? = some 0

theorem applies_of_set_selections {cfg next : Config} {map : SortedMap String String}
    (hset : cfg.set_selections map.entries = .ok next) :
    ∃ stored, next = { cfg with selections := stored } ∧ cfg.Applies map stored := by
  obtain ⟨stored, rfl, happlied⟩ := set_selections_applied hset
  refine ⟨stored, rfl, happlied.length, fun entry hentry => ?_, fun index group hgroup hnone => ?_⟩
  · obtain ⟨⟨index, member⟩, hselection⟩ := exists_selection_of_set_selections hset hentry
    obtain ⟨found, node, hfound, hname, hnode, hproxy⟩ := selection_eq_ok hselection
    have hlt : index < stored.length := happlied.length ▸ (List.getElem?_eq_some_iff.1 hfound).1
    have hget := List.getElem?_eq_getElem hlt
    obtain ⟨entry', hentry', hselection'⟩ | ⟨-, hother⟩ := happlied.cases index _ hget
    · obtain ⟨found', node', hfound', hname', hnode', hproxy'⟩ := selection_eq_ok hselection'
      obtain rfl := Option.some.inj (hfound.symm.trans hfound')
      obtain rfl := SortedMap.eq_of_mem_entries hentry' hentry (hname'.symm.trans hname)
      exact ⟨index, found, _, node', hfound, hname, hget, hnode', hproxy'⟩
    · exact absurd hselection (hother entry hentry member)
  · have hlt : index < stored.length := happlied.length ▸ (List.getElem?_eq_some_iff.1 hgroup).1
    have hget := List.getElem?_eq_getElem hlt
    obtain ⟨entry, hentry, hselection⟩ | ⟨hzero, -⟩ := happlied.cases index _ hget
    · obtain ⟨found, node, hfound, hname, -, -⟩ := selection_eq_ok hselection
      obtain rfl := Option.some.inj (hgroup.symm.trans hfound)
      rw [SortedMap.get, List.lookup_eq_none_iff] at hnone
      exact absurd hname (by simpa using hnone entry hentry)
    · rw [hget, hzero]

theorem Named.with_selections {cfg : Config} (hnamed : cfg.Named) (selections : List Nat) :
    ({ cfg with selections } : Config).Named :=
  ⟨hnamed.nodup, hnamed.groups_le⟩

end Config

/-- From any selections of an accepted configuration, `set_selections` either applies the whole map or
    fails and leaves the lock alone, and setting the selections that were saved before it succeeds and
    leads every node where it led before. -/
theorem set_selections_rolls_back {crates : Crates} {source : String} {assets : Assets} {cfg : Config}
    (hparse : Config.parse_with_assets crates source assets = .ok cfg) (calls : List SelectionCall)
    (map : SortedMap String String) :
    let before := cfg.after calls
    ∃ previous, before.selected = .ok previous ∧
      ∃ result lock, ((before.write_selections map.entries).run).run before.selections = (result, lock) ∧
        (result = .ok () ∧ before.Applies map lock ∨ (∃ error, result = .error error) ∧ lock = before.selections) ∧
        ∃ restored, ((before.write_selections previous.entries).run).run lock = (.ok (), restored) ∧
          ∀ node, ({ before with selections := restored } : Config).resolve_proxy node = before.resolve_proxy node := by
  intro before
  have hcfg : before.WellFormed := (Config.wellFormed_of_parse hparse).after calls
  have hnamed : before.Named := by
    obtain ⟨selections, hafter⟩ := cfg.after_eq calls
    change (cfg.after calls).Named
    rw [hafter]
    simp only [Config.parse_with_assets, Config.parse_inner, bind_eq_ok_iff] at hparse
    obtain ⟨document, -, hdocument⟩ := hparse
    exact (Config.named_of_document hdocument).with_selections selections
  obtain ⟨previous, hprevious, -⟩ := Config.exists_selected hcfg hnamed
  obtain ⟨restored, hrestored, hpicked⟩ := Config.exists_restored hcfg hnamed hprevious before.selections
  have hrollback : ∀ lock, ((before.write_selections previous.entries).run).run lock = (.ok (), restored) := by
    intro lock
    rw [Config.run_write_selections]
    change before.set_selections previous.entries = _ at hrestored
    rw [hrestored]
  have hsame := Config.resolve_proxy_congr hpicked
  refine ⟨previous, hprevious, ?_⟩
  rw [Config.run_write_selections]
  cases hset : before.set_selections map.entries with
  | ok next =>
    obtain ⟨stored, rfl, happlies⟩ := Config.applies_of_set_selections hset
    exact ⟨_, _, rfl, .inl ⟨rfl, happlies⟩, restored, hrollback _, hsame⟩
  | error error => exact ⟨_, _, rfl, .inr ⟨⟨error, rfl⟩, rfl⟩, restored, hrollback _, hsame⟩

/-- The sample goes back to the inner group after its selections have been emptied. -/
theorem sample_rolled_back : ∃ cfg, Config.parse_with_assets sampleCrates sampleSource [] = .ok cfg ∧
    ∃ previous lock restored, (cfg.after [.select "outer" "inner"]).selected = .ok previous ∧
      (((cfg.after [.select "outer" "inner"]).write_selections previous.entries).run).run lock = (.ok (), restored) ∧
      ∀ node, ({ cfg.after [.select "outer" "inner"] with selections := restored } : Config).resolve_proxy node =
        (cfg.after [.select "outer" "inner"]).resolve_proxy node := by
  obtain ⟨cfg, hcfg, -⟩ := sample_accepted
  obtain ⟨previous, hprevious, _, lock, -, -, restored, hrestored, hsame⟩ :=
    set_selections_rolls_back hcfg [.select "outer" "inner"] .empty
  exact ⟨cfg, hcfg, previous, lock, restored, hprevious, hrestored, hsame⟩

end zc.config
