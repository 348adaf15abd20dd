import Zc.Daemon.Steps
import Zc.Json.Read

/-!
# Applying the selections of the catalog

A call of `select` either applies the desired state of the catalog everywhere or leaves the
descriptor and the routes as they were.
-/

namespace zc.daemon

open store Program

variable {cfg : config.Config} {platform : Platform} {desired : Desired} {t : Control} {prepared : Prepared}

section Transaction

variable (host : Host) (env : Outside host.platform) {s : Control}

/-! ## Selections by name -/

theorem selection_map_entries {selections : List Selection} {map : SortedMap String String}
    (hmap : selection_map selections = .ok map) (entry : String × String) :
    entry ∈ map.entries ↔ ∃ s ∈ selections, entry = (s.group, s.proxy) := by
  suffices hfold : ∀ (todo : List Selection) (start final : SortedMap String String),
      todo.foldlM selection_entry start = .ok final →
      (entry ∈ final.entries ↔ entry ∈ start.entries ∨ ∃ s ∈ todo, entry = (s.group, s.proxy)) by
    simp only [selection_map, bind_eq_ok_iff] at hmap
    obtain ⟨_, -, hloop⟩ := hmap
    rw [hfold selections _ map hloop]
    simp [SortedMap.empty]
  intro todo
  induction todo with
  | nil =>
    intro start final hfinal
    obtain rfl := Except.ok.inj hfinal
    simp
  | cons first todo ih =>
    intro start final hfinal
    rw [List.foldlM_cons] at hfinal
    obtain ⟨middle, hmiddle, hrest⟩ := bind_eq_ok_iff.1 hfinal
    simp only [selection_entry, bind_eq_ok_iff, ensure_eq_ok_iff] at hmiddle
    obtain ⟨_, hfree, hinsert⟩ := hmiddle
    obtain rfl := Except.ok.inj hinsert
    rw [ih _ _ hrest, SortedMap.mem_entries_insert]
    -- the key was free, so the insertion replaced no entry
    have hkept : entry ∈ start.entries → entry.1 ≠ first.group := by
      intro hentry hkey
      have hnone : start.get first.group = none := by simpa using hfree
      rw [SortedMap.get, List.lookup_eq_none_iff] at hnone
      exact absurd (hnone entry hentry) (by simp [hkey])
    constructor
    · rintro ((rfl | ⟨hentry, -⟩) | ⟨s, hs, rfl⟩)
      · exact .inr ⟨first, List.mem_cons_self, rfl⟩
      · exact .inl hentry
      · exact .inr ⟨s, List.mem_cons_of_mem _ hs, rfl⟩
    · rintro (hentry | ⟨s, hs, rfl⟩)
      · exact .inl (.inr ⟨hentry, hkept hentry⟩)
      · obtain rfl | hs := List.mem_cons.1 hs
        · exact .inl (.inl rfl)
        · exact .inr ⟨s, hs, rfl⟩

/-- Every listed group picks the node of the listed name, every other group its first member. -/
structure Follows (cfg : config.Config) (selections : List Selection) : Prop where
  listed : ∀ s ∈ selections, ∃ (index : Nat) (found : config.Group) (node : Nat), cfg.groups[index]? = some found ∧
    found.name = s.group ∧ cfg.picked index = some node ∧ cfg.node_name node = .ok s.proxy
  others : ∀ (index : Nat) (found : config.Group), cfg.groups[index]? = some found →
    (∀ s ∈ selections, s.group ≠ found.name) → cfg.picked index = found.members[0]?

/-- A configuration that parsing accepted, with any selections. -/
structure Sound (cfg : config.Config) : Prop where
  wellFormed : cfg.WellFormed
  named : cfg.Named

theorem Sound.set_selections {next : config.Config} {entries : List (String × String)} (hcfg : Sound cfg)
    (hset : cfg.set_selections entries = .ok next) : Sound next := by
  refine ⟨hcfg.wellFormed.set_selections hset, ?_⟩
  obtain ⟨stored, rfl, -⟩ := config.Config.set_selections_applied hset
  exact ⟨hcfg.named.nodup, hcfg.named.groups_le⟩

theorem follows_of_set_selections {next : config.Config} {selections : List Selection} {map : SortedMap String String}
    (hmap : selection_map selections = .ok map) (hset : cfg.set_selections map.entries = .ok next) :
    Follows next selections := by
  obtain ⟨stored, rfl, happlied⟩ := config.Config.set_selections_applied hset
  have hpicked : ∀ (index : Nat) (found : config.Group), cfg.groups[index]? = some found →
      ∃ member, stored[index]? = some member ∧
        ({ cfg with selections := stored } : config.Config).picked index = found.members[member]? := by
    intro index found hfound
    have hlt : index < stored.length := happlied.length ▸ (List.getElem?_eq_some_iff.1 hfound).1
    have hget := List.getElem?_eq_getElem hlt
    refine ⟨_, hget, ?_⟩
    simp only [config.Config.picked, hfound, hget, Option.bind_eq_bind, Option.bind_some]
  refine ⟨fun s hs => ?_, fun index found hfound hother => ?_⟩
  · have hentry := (selection_map_entries hmap (s.group, s.proxy)).2 ⟨s, hs, rfl⟩
    obtain ⟨⟨index, member⟩, hselection⟩ := config.Config.exists_selection_of_set_selections hset hentry
    obtain ⟨found, node, hfound, hname, hnode, hproxy⟩ := config.Config.selection_eq_ok hselection
    obtain ⟨member', hmember', hpick⟩ := hpicked index found hfound
    refine ⟨index, found, node, hfound, hname, ?_, hproxy⟩
    rw [hpick, ← hnode]
    obtain ⟨entry, hmem, hselection'⟩ | ⟨-, hnone⟩ := happlied.cases index member' hmember'
    · obtain ⟨found', node', hfound', hname', -⟩ := config.Config.selection_eq_ok hselection'
      obtain rfl := Option.some.inj (hfound.symm.trans hfound')
      obtain rfl := SortedMap.eq_of_mem_entries hmem hentry (hname'.symm.trans hname)
      obtain ⟨-, rfl⟩ := Prod.mk.inj (Except.ok.inj (hselection.symm.trans hselection'))
      rfl
    · exact absurd hselection (hnone _ hentry member)
  · obtain ⟨member, hmember, hpick⟩ := hpicked index found hfound
    rw [hpick]
    obtain ⟨entry, hentry, hselection⟩ | ⟨rfl, -⟩ := happlied.cases index member hmember
    · obtain ⟨found', node, hfound', hname, -⟩ := config.Config.selection_eq_ok hselection
      obtain rfl := Option.some.inj (hfound.symm.trans hfound')
      obtain ⟨s, hs, rfl⟩ := (selection_map_entries hmap entry).1 hentry
      exact absurd hname.symm (hother s hs)
    · rfl

/-! ## The desired state -/

/-- The bytes are a catalog that lists the revision with this desired state. -/
def Lists (platform : Platform) (authority : List UInt8) (identity : ActiveIdentity) (desired : Desired) : Prop :=
  ∃ catalog, (platform.from_slice authority).bind Catalog.decode = some catalog ∧
    ∃ profile ∈ catalog.profiles, profile.key = identity.key ∧ profile.head = identity.revision ∧ profile.desired = desired

theorem lists_of_canonical {catalog : Catalog} {identity : ActiveIdentity} (hcanonical : catalog.Canonical platform)
    (hfind : (catalog.profiles.find? fun p => p.key == identity.key && p.head == identity.revision).map (·.desired) = some desired) :
    Lists platform (line catalog.encode) identity desired := by
  refine ⟨catalog, ?_, ?_⟩
  · rw [line, platform.from_slice_line _ (catalog.plain_encode.mono (by decide)), Option.bind_some]
    refine Catalog.decode_encode ?_
    rw [hcanonical.schema]
    decide
  · obtain ⟨profile, hprofile, rfl⟩ := Option.map_eq_some_iff.1 hfind
    have hmatch := List.find?_some hprofile
    rw [Bool.and_eq_true, beq_iff_eq, beq_iff_eq] at hmatch
    exact ⟨profile, List.mem_of_find?_eq_some hprofile, hmatch.1, hmatch.2, rfl⟩

/-- The loop changes nothing but learns the catalog, and what it returns is in the catalog it holds. -/
theorem ends_desired_turns (identity : ActiveIdentity) (left turn : Nat) :
    Ends (desired_turns host env identity left turn) (fun result t => ∃ authority, t = { s with authority } ∧
      ∀ desired, result = .ok (some desired) → Lists host.platform authority identity desired) s := by
  induction left generalizing turn s with
  | zero => exact safe_ofExcept ⟨s.authority, rfl, nofun⟩
  | succ left ih =>
    have hsame : ∀ error : Error, ∃ authority, s = { s with authority } ∧ ∀ desired,
        (.error error : Result (Option Desired)) = .ok (some desired) → Lists host.platform authority identity desired :=
      fun _ => ⟨s.authority, rfl, nofun⟩
    refine (reads_ofExcept _).ends_bind (fun before hbefore => ?_) hsame
    refine (reads_attempt env _).ends_bind (fun _ _ => (reads_attempt env _).ends_bind (fun _ _ => ?_) hsame) hsame
    have hput : Ends (put (.state_lock turn) fun self => { self with authority := env.state turn })
        (fun result t => result = .ok () ∧ t = { s with authority := env.state turn }) s := safe_step trivial ⟨rfl, rfl⟩
    refine Safe.bind hput ?_ (by rintro _ _ ⟨hresult, -⟩; cases hresult)
    rintro _ _ ⟨-, rfl⟩
    have hlearnt : ∀ error : Error, ∃ authority, ({ s with authority := env.state turn } : Control) = { s with authority } ∧
        ∀ desired, (.error error : Result (Option Desired)) = .ok (some desired) →
          Lists host.platform authority identity desired := fun _ => ⟨_, rfl, nofun⟩
    refine (reads_attempt env _).ends_bind (fun _ _ => ends_getSelf_bind ?_) hlearnt
    refine (reads_ofExcept _).ends_bind (fun _ _ => (reads_attempt env _).ends_bind (fun _ _ => ?_) hlearnt) hlearnt
    split
    · refine Safe.weaken (ih (turn + 1)) ?_
      rintro result _ ⟨authority, rfl, hlists⟩
      exact ⟨authority, rfl, hlists⟩
    · next hcurrent =>
      refine safe_pure ⟨_, rfl, fun desired hdesired => ?_⟩
      rw [not_not] at hcurrent
      rw [show env.state turn = line before.encode from hcurrent]
      exact lists_of_canonical (env.canonical turn before hbefore) (Except.ok.inj hdesired)

theorem ends_desired_guard (identity : ActiveIdentity) :
    Ends (desired_guard host env identity) (fun result t => ∃ authority, t = { s with authority } ∧
      ∀ desired, result = .ok (some desired) → Lists host.platform authority identity desired) s :=
  (reads_attempt env _).ends_bind (fun _ _ => ends_desired_turns host env identity 4 0) fun _ => ⟨s.authority, rfl, nofun⟩

theorem reads_validate (observed : Result (Option Descriptor)) (d : Descriptor) :
    Reads (validate observed d) (fun _ => True) s := by
  refine reads_getSelf.bind fun _ _ => (reads_ofExcept _).bind fun _ _ => (reads_ofExcept _).bind fun _ _ => ?_
  exact (reads_ofExcept _).weaken fun _ _ => trivial

/-! ## The transaction -/

/-- The desired state of the identity is applied everywhere. -/
structure Committed (identity : ActiveIdentity) (desired : Desired) (t : Control) : Prop where
  live : Follows t.config desired.selections
  identified : t.descriptor.identity = some identity
  generation : t.descriptor.generation = desired.generation
  published : t.files DESCRIPTOR = some (line t.descriptor.encode)
  snapshot : ∃ (name : String) (snapshot : Snapshot), t.descriptor.config_path = some (host.join t.path name) ∧
    t.files name = some (line snapshot.encode) ∧ snapshot.nonce = t.descriptor.nonce ∧
    snapshot.prepared.identity = some identity ∧ snapshot.prepared.generation = desired.generation ∧
    snapshot.prepared.selections = desired.selections
  catalog : Lists host.platform t.authority identity desired

/-- The descriptor and every route are as they were. -/
structure Untouched (s t : Control) : Prop where
  descriptor : t.descriptor = s.descriptor
  published : t.files DESCRIPTOR = s.files DESCRIPTOR
  routes : ∀ node, t.config.resolve_proxy node = s.config.resolve_proxy node

/-- What a call leaves, by its result. -/
structure Transacts (s : Control) (result : Result Bool) (t : Control) : Prop where
  sound : Sound t.config
  committed : result = .ok true → ∃ identity desired, s.descriptor.identity = some identity ∧ Committed host identity desired t ∧
    s.descriptor.generation < t.descriptor.generation
  untouched : result ≠ .ok true → Untouched s t

theorem transacts_of_kept {result : Result Bool} (hsound : Sound s.config) (hresult : result ≠ .ok true)
    (hconfig : t.config = s.config) (hdescriptor : t.descriptor = s.descriptor)
    (hfile : t.files DESCRIPTOR = s.files DESCRIPTOR) : Transacts host s result t where
  sound := hconfig ▸ hsound
  committed := fun htrue => absurd htrue hresult
  untouched := fun _ => ⟨hdescriptor, hfile, fun _ => by rw [hconfig]⟩

theorem ends_publish (d : Descriptor) :
    Ends (publish env d) (fun result t => (result = .ok () ∧ t = s.write DESCRIPTOR (some (line d.encode))) ∨
      ((∃ error, result = .error error) ∧ t = s)) s := by
  refine safe_step trivial ?_
  cases env.fault .publish with
  | some error => exact .inr ⟨⟨error, rfl⟩, rfl⟩
  | none => exact .inl ⟨rfl, rfl⟩

/-- The snapshot the new descriptor names is not the one the cleanup removes. -/
theorem Frozen.name_ne {d : Descriptor} {mac : String} (hfrozen : Frozen host s d prepared)
    (hgeneration : d.generation < desired.generation) (hwrote : Wrote (Spared s d.nonce) s t)
    (hsaved : t.files (snapshot_name mac d.nonce) = some (line (snapshot_of { prepared with generation := desired.generation, selections := desired.selections } d.nonce).encode)) :
    d.config_path.bind host.file_name ≠ some (snapshot_name mac d.nonce) := by
  intro hbind
  obtain ⟨path, hpath, hname⟩ := Option.bind_eq_some_iff.1 hbind
  obtain hyaml | ⟨bytes, snapshot, hbytes, hdecode, rfl⟩ := hfrozen.named path _ hpath hname
  · exact hyaml (prepared_parts_snapshot_name mac d.nonce _)
  · -- the file was there and is kept, so it is both the old snapshot and the new one
    obtain ⟨files, rfl, hfiles⟩ := hwrote
    have hspared : Spared s d.nonce (snapshot_name mac d.nonce) :=
      ⟨snapshot_name_ne _ _ (by decide), .inl (hbytes ▸ nofun)⟩
    have hsame := (hfiles _ hspared).trans hbytes
    rw [show files _ = _ from hsaved] at hsame
    rw [← Option.some.inj hsame, from_slice_snapshot] at hdecode
    have heq := congrArg (fun snapshot : Snapshot => snapshot.prepared.generation) (Option.some.inj hdecode)
    rw [hfrozen.generation] at heq
    exact absurd heq.symm (UInt64.ne_of_lt hgeneration)

theorem ends_put (step : Step) (f : Control → Control) :
    Ends (put step f) (fun result t => result = .ok () ∧ t = f s) s :=
  safe_step trivial ⟨rfl, rfl⟩

theorem ends_put_bind {β : Type} {step : Step} {f : Control → Control} {next : Unit → Action β}
    {goal : Result β → Control → Prop} (hnext : Ends (next ()) goal (f s)) : Ends (put step f >>= next) goal s := by
  refine Safe.bind (ends_put step f) ?_ ?_
  · rintro _ _ ⟨-, rfl⟩
    exact hnext
  · rintro _ _ ⟨hresult, -⟩
    cases hresult

/-- The selections saved before are set again, and route as they did. -/
theorem Sound.restore {changed : config.Config} {entries : List (String × String)} {previous : SortedMap String String}
    (hcfg : Sound cfg) (hchanged : cfg.set_selections entries = .ok changed) (hprevious : cfg.selected = .ok previous) :
    ∃ restored, changed.set_selections previous.entries = .ok restored ∧ Sound restored ∧
      ∀ node, restored.resolve_proxy node = cfg.resolve_proxy node := by
  have hsound := hcfg.set_selections hchanged
  obtain ⟨stored, rfl, -⟩ := config.Config.set_selections_applied hchanged
  obtain ⟨restored, hrestored, hpicked⟩ := config.Config.exists_restored hcfg.wellFormed hcfg.named hprevious stored
  exact ⟨_, hrestored, hsound.set_selections hrestored, config.Config.resolve_proxy_congr hpicked⟩

/-- After the descriptor is published the old snapshot is cleaned up and nothing fails any more. -/
theorem ends_complete (d next : Descriptor) (persisted : SortedMap String Unit) :
    Ends (do
        put .publish fun self => { self with persisted }
        remove_descriptor_snapshot host env d
        put .publish fun self => { self with descriptor := next }
        return true)
      (fun result t => result = .ok true ∧ ∃ files, t = { s with files, persisted, descriptor := next } ∧
        files DESCRIPTOR = s.files DESCRIPTOR ∧
        ∀ name, d.config_path.bind host.file_name ≠ some name → files name = s.files name) s := by
  refine ends_put_bind (Safe.bind (ends_remove_descriptor_snapshot host env d) ?_ ?_)
  · rintro _ _ ⟨-, files, rfl, hfiles⟩
    refine ends_put_bind (safe_pure ⟨rfl, files, rfl, hfiles _ ?_, fun name hname => hfiles name fun h => hname h.2⟩)
    rintro ⟨hstarts, -⟩
    exact absurd hstarts (by decide)
  · rintro _ _ ⟨hresult, -⟩
    cases hresult

theorem ends_apply_desired {identity : ActiveIdentity} (hsound : Sound s.config)
    (hidentity : s.descriptor.identity = some identity) (hgeneration : s.descriptor.generation < desired.generation)
    (hlists : Lists host.platform s.authority identity desired) :
    Ends (apply_desired host env s.descriptor desired) (Transacts host s) s := by
  have hsame : ∀ error : Error, Transacts host s (.error error) s :=
    fun _ => transacts_of_kept host hsound nofun rfl rfl rfl
  refine (reads_attempt env _).ends_bind (fun _ _ => (reads_validate _ _).ends_bind (fun _ _ => ?_) hsame) hsame
  refine (reads_prepared_for host env _).ends_bind (fun prepared hfrozen => ?_) hsame
  refine Safe.bind (ends_save_snapshot env _ _) ?_ ?_
  · rintro name t ⟨hwrote, hsaved⟩
    obtain ⟨⟨mac, rfl⟩, hfile⟩ := hsaved name rfl
    have hne := hfrozen.name_ne host hgeneration hwrote hfile
    obtain ⟨files, rfl, hfiles⟩ := hwrote
    have hdescriptor : files DESCRIPTOR = s.files DESCRIPTOR := hfiles _ (spared_descriptor s _)
    have hkept : ∀ error : Error, Transacts host s (.error error) { s with files } :=
      fun _ => transacts_of_kept host hsound nofun rfl rfl hdescriptor
    refine ends_getSelf_bind ((reads_ofExcept _).ends_bind (fun previous hprevious => ?_) hkept)
    refine (reads_ofExcept _).ends_bind (fun map hmap => (reads_ofExcept _).ends_bind (fun changed hchanged => ?_) hkept) hkept
    refine ends_put_bind ?_
    obtain ⟨invocation, hinvocation⟩ := Option.ne_none_iff_exists'.1 hfrozen.invocation
    rw [hinvocation]
    refine safe_ofExcept_bind (fun _ hok => ?_) nofun
    obtain rfl := Except.ok.inj hok
    obtain ⟨restored, hrestored, hsound', hroutes⟩ := hsound.restore hchanged hprevious
    refine Safe.bind (Safe.attempt (ends_publish host env _)) ?_ ?_
    · rintro _ _ ⟨result, hresult, ⟨rfl, rfl⟩ | ⟨⟨error, rfl⟩, rfl⟩⟩
      · obtain rfl := Except.ok.inj hresult
        refine Safe.weaken (ends_complete host env _ _ _) ?_
        rintro _ _ ⟨rfl, files', rfl, hpublished, hothers⟩
        have hnew : files' DESCRIPTOR = some (line (s.descriptor.advance invocation desired.generation
            (host.join s.path (snapshot_name mac s.descriptor.nonce))).encode) :=
          hpublished.trans (Control.files_write_self _ _ _)
        have hfile' : files' (snapshot_name mac s.descriptor.nonce) = files (snapshot_name mac s.descriptor.nonce) :=
          (hothers _ hne).trans (Control.files_write_of_ne _ _ (snapshot_name_ne_descriptor _ _))
        refine ⟨hsound.set_selections hchanged, fun _ => ⟨identity, desired, hidentity, ?_, hgeneration⟩, absurd rfl⟩
        exact {
          live := follows_of_set_selections hmap hchanged
          identified := hidentity
          generation := rfl
          published := hnew
          snapshot := ⟨_, _, rfl, hfile'.trans hfile, rfl, hfrozen.identity.trans hidentity, rfl, rfl⟩
          catalog := hlists }
      · obtain rfl := Except.ok.inj hresult
        refine safe_ofExcept_bind (fun _ hok => ?_) fun error herror => ?_
        · obtain rfl := Except.ok.inj (hrestored.symm.trans hok)
          exact ends_put_bind (safe_ofExcept ⟨hsound', nofun, fun _ => ⟨rfl, hdescriptor, hroutes⟩⟩)
        · exact absurd (hrestored.symm.trans herror) nofun
    · rintro _ _ ⟨result, hresult, -⟩
      cases hresult
  · rintro error t ⟨⟨files, rfl, hfiles⟩, -⟩
    exact transacts_of_kept host hsound nofun rfl rfl (hfiles _ (spared_descriptor s _))

theorem Transacts.of_authority {authority : List UInt8} {result : Result Bool}
    (htransacts : Transacts host { s with authority } result t) : Transacts host s result t :=
  ⟨htransacts.sound, htransacts.committed, fun hresult => ⟨(htransacts.untouched hresult).descriptor,
    (htransacts.untouched hresult).published, (htransacts.untouched hresult).routes⟩⟩

theorem ends_select (hsound : Sound s.config) (group proxy : String) (metadata : Value) :
    Ends (select host env group proxy metadata) (Transacts host s) s := by
  have hkept : ∀ (authority : List UInt8) (result : Result Bool), result ≠ .ok true →
      Transacts host s result { s with authority } :=
    fun _ _ hresult => transacts_of_kept host hsound hresult rfl rfl rfl
  refine ends_getSelf_bind ((reads_validate _ _).ends_bind (fun _ _ => ?_) fun _ => hkept s.authority _ nofun)
  cases hidentity : s.descriptor.identity with
  | none => exact safe_pure (hkept s.authority _ (by decide))
  | some identity =>
    dsimp only
    split
    · exact safe_pure (hkept s.authority _ (by decide))
    · next hadmitted =>
      push Not at hadmitted
      obtain ⟨-, -, -, hgeneration⟩ := hadmitted
      refine Safe.bind (ends_desired_guard host env identity) ?_ ?_
      · rintro found _ ⟨authority, rfl, hlists⟩
        cases found with
        | none => exact safe_pure (hkept authority _ (by decide))
        | some desired =>
          dsimp only
          split
          · exact safe_pure (hkept authority _ (by decide))
          · next hdesired =>
            push Not at hdesired
            rw [← hdesired.1] at hgeneration
            have happly := ends_apply_desired host env (s := { s with authority }) hsound hidentity (UInt64.not_le.1 hgeneration)
              (hlists desired rfl)
            exact Safe.weaken happly fun _ _ htransacts => htransacts.of_authority host
      · rintro error _ ⟨authority, rfl, -⟩
        exact hkept authority _ nofun

end Transaction

/-! ## Runs of an instance -/

theorem Sound.of_parse_config (hparse : parse_config platform prepared = .ok cfg) : Sound cfg := by
  unfold parse_config at hparse
  simp only [bind_eq_ok_iff, withContext_eq_ok_iff] at hparse
  obtain ⟨_, -, source, -, parsed, hparsed, overlaid, hoverlaid, _, -, map, -, set, hset, _, -, hpure⟩ := hparse
  obtain rfl := Except.ok.inj hpure
  have hsound : Sound parsed := by
    refine ⟨config.Config.wellFormed_of_parse hparsed, ?_⟩
    simp only [config.Config.parse_with_assets, config.Config.parse_inner, bind_eq_ok_iff] at hparsed
    obtain ⟨document, -, hdocument⟩ := hparsed
    exact config.Config.named_of_document hdocument
  refine Sound.set_selections ?_ hset
  unfold apply_controller_secret at hoverlaid
  split at hoverlaid
  · exact Except.ok.inj hoverlaid ▸ hsound
  · simp only [bind_eq_ok_iff] at hoverlaid
    obtain ⟨_, -, hsecret⟩ := hoverlaid
    obtain rfl := Except.ok.inj hsecret
    obtain ⟨⟨hrules, hmembers, hacyclic, hselected⟩, hnodup, hgroups⟩ := hsound
    exact ⟨⟨hrules, hmembers, hacyclic, hselected⟩, hnodup, hgroups⟩

theorem Sound.after (hcfg : Sound cfg) (calls : List config.SelectionCall) : Sound (cfg.after calls) := by
  refine ⟨hcfg.wellFormed.after calls, ?_⟩
  obtain ⟨selections, hafter⟩ := cfg.after_eq calls
  rw [hafter]
  exact ⟨hcfg.named.nodup, hcfg.named.groups_le⟩

/-- A call of `select` with what it meets, or a write of the catalog by another client. -/
inductive Control.Event (platform : Platform) where
  | catalog (state : List UInt8)
  | select (env : Outside platform) (group proxy : String) (metadata : Value)

def Control.step (host : Host) (self : Control) : Control.Event host.platform → Control
  | .catalog state => { self with authority := state }
  | .select env group proxy metadata => (select host env group proxy metadata self).state

def Control.run (host : Host) (self : Control) (events : List (Control.Event host.platform)) : Control :=
  events.foldl (Control.step host) self

/-- An instance runs the configuration of a prepared record, with any selections. -/
def Started (platform : Platform) (self : Control) : Prop :=
  ∃ prepared cfg calls, parse_config platform prepared = .ok cfg ∧ self.config = cfg.after calls

theorem Started.sound {self : Control} (hstarted : Started platform self) : Sound self.config := by
  obtain ⟨prepared, cfg, calls, hparse, hconfig⟩ := hstarted
  rw [hconfig]
  exact (Sound.of_parse_config hparse).after calls

theorem Sound.step {host : Host} {self : Control} (hsound : Sound self.config) (event : Control.Event host.platform) :
    Sound (self.step host event).config := by
  cases event with
  | catalog state => exact hsound
  | select env group proxy metadata => exact (ends_select host env hsound group proxy metadata).2.sound

theorem Sound.run {host : Host} {self : Control} (hsound : Sound self.config) (events : List (Control.Event host.platform)) :
    Sound (self.run host events).config := by
  induction events generalizing self with
  | nil => exact hsound
  | cons event events ih => exact ih (hsound.step event)

/-! ## Calls that succeed -/

section Progress

variable {α β : Type} {action : Action α} {next : α → Action β} {value : α} {result : β} {s t u : Control}

/-- The action returns a value and leaves a state. -/
def Returns (action : Action α) (s : Control) (value : α) (t : Control) : Prop :=
  (action s).result = .ok value ∧ (action s).state = t

theorem Returns.bind (hfirst : Returns action s value t) (hnext : Returns (next value) t result u) :
    Returns (action >>= next) s result u := by
  obtain ⟨hvalue, rfl⟩ := hfirst
  unfold Returns
  simp only [Bind.bind, Program.andThen, hvalue]
  exact hnext

theorem Returns.bind_result (hfirst : Returns action s value t) (hnext : (next value t).result = .ok result) :
    ((action >>= next) s).result = .ok result :=
  (hfirst.bind ⟨hnext, rfl⟩).1

theorem returns_ofExcept {outcome : Result α} (hvalue : outcome = .ok value) : Returns (.ofExcept outcome) s value s :=
  ⟨hvalue, rfl⟩

theorem returns_ensure {condition : Bool} {error : Error} (hcondition : condition = true) :
    Returns (.ofExcept (ensure condition error)) s () s :=
  returns_ofExcept (ensure_eq_ok_iff.2 hcondition)

theorem returns_getSelf : Returns getSelf s s s :=
  ⟨rfl, rfl⟩

theorem returns_put {step : Step} {f : Control → Control} : Returns (put step f) s () (f s) :=
  ⟨rfl, rfl⟩

theorem Returns.attempt (hreturns : Returns action s value t) : Returns (Program.attempt action) s (.ok value) t :=
  ⟨congrArg Except.ok hreturns.1, hreturns.2⟩

variable {platform : Platform} {env : Outside platform} (hquiet : ∀ step, env.fault step = none)
include hquiet

theorem returns_attempt (step : Step) : Returns (attempt env step) s () s := by
  simp [Returns, attempt, Program.query, hquiet]

theorem returns_read {step : Step} {name : String} {limit : Nat} {bytes : List UInt8} (hfile : s.files name = some bytes)
    (hlimit : bytes.length ≤ limit) : Returns (read env step name limit) s bytes s := by
  refine (returns_attempt hquiet step).bind (returns_getSelf.bind ?_)
  exact (returns_ofExcept (okOr_eq_ok_iff.2 hfile)).bind ((returns_ensure (decide_eq_true hlimit)).bind ⟨rfl, rfl⟩)

theorem returns_snapshot_key {phase : Phase} {create : Bool} {key : List UInt8} (hfile : s.files "zc.prepared.key" = some key)
    (hkey : key.length = 32) : Returns (snapshot_key env phase create) s key s := by
  refine (returns_attempt hquiet _).bind ((returns_attempt hquiet _).bind (returns_getSelf.bind ?_))
  rw [hfile, Option.isNone_some, Bool.false_and, if_neg Bool.false_ne_true]
  exact (returns_read hquiet hfile (Nat.le_of_eq hkey)).bind ((returns_ensure (beq_iff_eq.2 hkey)).bind ⟨rfl, rfl⟩)

theorem returns_save_snapshot {nonce : String} {key : List UInt8} (hfile : s.files "zc.prepared.key" = some key)
    (hkey : key.length = 32) (hlimit : (line (snapshot_of prepared nonce).encode).length ≤ SNAPSHOT_LIMIT)
    (hfree : s.files (snapshot_name (hmac platform key (line (snapshot_of prepared nonce).encode)) nonce) = none) :
    Returns (save_snapshot env prepared nonce) s
      (snapshot_name (hmac platform key (line (snapshot_of prepared nonce).encode)) nonce)
      (s.write (snapshot_name (hmac platform key (line (snapshot_of prepared nonce).encode)) nonce)
        (some (line (snapshot_of prepared nonce).encode))) := by
  refine (returns_ensure (decide_eq_true hlimit)).bind ?_
  refine (returns_snapshot_key hquiet hfile hkey).bind ((returns_attempt hquiet _).bind (returns_getSelf.bind ?_))
  rw [hfree, Option.isSome_none, if_neg Bool.false_ne_true]
  have hwrite : Returns (write_new env .snapshot_write
      (snapshot_name (hmac platform key (line (snapshot_of prepared nonce).encode)) nonce)
      (line (snapshot_of prepared nonce).encode)) s ()
      (s.write (snapshot_name (hmac platform key (line (snapshot_of prepared nonce).encode)) nonce)
        (some (line (snapshot_of prepared nonce).encode))) := by
    simp [Returns, write_new, Program.step, hfree, hquiet]
  exact hwrite.bind ((returns_attempt hquiet _).bind ⟨rfl, rfl⟩)

end Progress

/-- What a call needs besides steps that succeed. -/
structure Wanted (host : Host) (env : Outside host.platform) (s : Control) (group proxy : String) (metadata : Value)
    (identity : ActiveIdentity) (desired : Desired) (frozen : Prepared) (key : List UInt8) : Prop where
  quiet : ∀ step, env.fault step = none
  sound : Sound s.config
  running : s.stopped = false
  observed : env.observed = .ok (some s.descriptor) ∧ env.observed_again = .ok (some s.descriptor)
  identified : s.descriptor.identity = some identity
  invocation : s.descriptor.invocation ≠ none
  nonce : text_of metadata "instance_nonce" = some s.descriptor.nonce
  identity_key : text_of metadata "identity_key" = some identity.key
  identity_revision : text_of metadata "identity_revision" = some identity.revision
  generation : (metadata.get "generation").bind u64 = some desired.generation
  newer : s.descriptor.generation < desired.generation
  listed : (desired.selections.any fun s => s.group == group && s.proxy == proxy) = true
  catalog : ∃ catalog, env.load 0 = .ok catalog ∧ env.state 0 = line catalog.encode ∧
    (line catalog.encode).length ≤ CATALOG_LIMIT ∧
    (catalog.profiles.find? fun p => p.key == identity.key && p.head == identity.revision).map (·.desired) = some desired
  froze : ∀ authority, Returns (prepared_for host env s.descriptor) { s with authority } frozen { s with authority }
  key_file : s.files "zc.prepared.key" = some key ∧ key.length = 32
  fits : (line (snapshot_of { frozen with generation := desired.generation, selections := desired.selections }
    s.descriptor.nonce).encode).length ≤ SNAPSHOT_LIMIT
  free : s.files (snapshot_name (hmac host.platform key (line (snapshot_of { frozen with
    generation := desired.generation, selections := desired.selections } s.descriptor.nonce).encode)) s.descriptor.nonce) = none
  selections : ∃ map changed, selection_map desired.selections = .ok map ∧ s.config.set_selections map.entries = .ok changed

namespace Wanted

variable {host : Host} {env : Outside host.platform} {s : Control} {group proxy : String} {metadata : Value}
  {identity : ActiveIdentity} {desired : Desired} {frozen : Prepared} {key : List UInt8}

theorem returns_validate {observed : Result (Option Descriptor)} {d : Descriptor} (hrunning : t.stopped = false)
    (hobserved : observed = .ok (some d)) : Returns (validate observed d) t () t := by
  refine returns_getSelf.bind ((returns_ensure ?_).bind ((returns_ofExcept hobserved).bind (returns_ensure ?_)))
  · rw [hrunning]
    rfl
  · exact beq_self_eq_true _

theorem returns_desired_guard (hwanted : Wanted host env s group proxy metadata identity desired frozen key) :
    ∃ authority, Returns (desired_guard host env identity) s (some desired) { s with authority } := by
  obtain ⟨catalog, hload, hstate, hlimit, hfind⟩ := hwanted.catalog
  refine ⟨env.state 0, (returns_attempt hwanted.quiet _).bind ((returns_ofExcept hload).bind ?_)⟩
  refine (returns_attempt hwanted.quiet _).bind ((returns_attempt hwanted.quiet _).bind (returns_put.bind ?_))
  refine (returns_attempt hwanted.quiet _).bind (returns_getSelf.bind ?_)
  refine (returns_ensure (decide_eq_true (hstate ▸ hlimit))).bind ((returns_attempt hwanted.quiet _).bind ?_)
  rw [if_neg (not_not.2 hstate), hfind]
  exact ⟨rfl, rfl⟩

theorem apply_desired_result (hwanted : Wanted host env s group proxy metadata identity desired frozen key)
    (authority : List UInt8) : (apply_desired host env s.descriptor desired { s with authority }).result = .ok true := by
  obtain ⟨map, changed, hmap, hset⟩ := hwanted.selections
  obtain ⟨previous, hprevious, -⟩ := config.Config.exists_selected hwanted.sound.wellFormed hwanted.sound.named
  obtain ⟨invocation, hinvocation⟩ := Option.ne_none_iff_exists'.1 hwanted.invocation
  refine (returns_attempt hwanted.quiet _).bind_result ?_
  refine (returns_validate (t := { s with authority }) hwanted.running hwanted.observed.2).bind_result ?_
  refine (hwanted.froze authority).bind_result ?_
  refine (returns_save_snapshot (s := { s with authority }) hwanted.quiet hwanted.key_file.1 hwanted.key_file.2 hwanted.fits
    hwanted.free).bind_result ?_
  refine returns_getSelf.bind_result ((returns_ofExcept hprevious).bind_result ?_)
  refine (returns_ofExcept hmap).bind_result ((returns_ofExcept hset).bind_result (returns_put.bind_result ?_))
  refine (returns_ofExcept (okOr_eq_ok_iff.2 hinvocation)).bind_result ?_
  have hpublish : ∀ (t : Control) (d : Descriptor),
      Returns (publish env d) t () (t.write DESCRIPTOR (some (line d.encode))) := by
    intro t d
    simp [Returns, publish, Program.step, hwanted.quiet]
  exact (hpublish _ _).attempt.bind_result (ends_complete host env _ _ _).2.1

/-- A call that nothing stands in the way of succeeds. -/
theorem select_result (hwanted : Wanted host env s group proxy metadata identity desired frozen key) :
    (select host env group proxy metadata s).result = .ok true := by
  obtain ⟨authority, hguard⟩ := hwanted.returns_desired_guard
  refine returns_getSelf.bind_result ((returns_validate hwanted.running hwanted.observed.1).bind_result ?_)
  rw [hwanted.identified]
  dsimp only
  rw [hwanted.generation, Option.getD_some, if_neg]
  · refine hguard.bind_result ?_
    dsimp only
    rw [if_neg]
    · exact hwanted.apply_desired_result authority
    · rw [hwanted.listed]
      simp
  · push Not
    exact ⟨hwanted.nonce, hwanted.identity_key, hwanted.identity_revision, UInt64.not_le.2 hwanted.newer⟩

end Wanted

/-- In every run of an instance a call of `select` that returns true has applied the desired state of
    the catalog it holds to the live configuration, the descriptor, the published file and the snapshot
    it names, at a higher generation; any other call leaves the descriptor and the routes alone. -/
theorem select_applies_or_leaves (host : Host) {start : Control} (hstart : Started host.platform start)
    (events : List (Control.Event host.platform)) (env : Outside host.platform) (group proxy : String) (metadata : Value) :
    let before := start.run host events
    let outcome := select host env group proxy metadata before
    (outcome.result = .ok true → ∃ identity desired, before.descriptor.identity = some identity ∧
      Committed host identity desired outcome.state ∧
      before.descriptor.generation < outcome.state.descriptor.generation) ∧
    (outcome.result ≠ .ok true → Untouched before outcome.state) := by
  intro before outcome
  have htransacts := (ends_select host env (hstart.sound.run events) group proxy metadata).2
  exact ⟨htransacts.committed, htransacts.untouched⟩

/-! ## A sample -/

def sampleDocument : Value :=
  .object [("proxy-groups", .array [.object [("name", .string "G"),
    ("proxies", .array [.string "DIRECT", .string "REJECT"]), ("type", .string "select")]])]

/-- Library calls that find the sample document in every text. -/
def samplePlatform : Platform where
  crates := {
    json_document := fun _ => none
    yaml_documents := fun _ => .ok [sampleDocument]
    parse_net := fun _ => none
    contains := fun _ _ => false
    parse_url := fun _ => none
    server_name := fun _ => false }
  sha256 bytes := UInt8.ofNat (bytes.foldl (fun n b => n + b.toNat) 0) :: List.replicate 31 0
  length_sha256 _ := rfl
  from_slice := serde_json.readDocument
  from_slice_line _ hplain := serde_json.readDocument_line hplain

theorem sample_document {text : String} (hlen : str.len text ≤ config.MAX_SOURCE_BYTES) :
    config.parse_document samplePlatform.crates text = .ok sampleDocument := by
  have hvalue : config.yaml_value samplePlatform.crates text = .ok sampleDocument := by
    have hjson : samplePlatform.crates.json_document text = none := rfl
    unfold config.yaml_value
    rw [if_neg (Nat.not_lt.2 hlen)]
    simp only [hjson, Option.filter_none, ite_self]
    rfl
  simp only [config.parse_document, hvalue, bind_eq_ok_iff]
  exact ⟨sampleDocument, rfl, (), rfl, rfl⟩

/-- The sample document as the runtime sees it. -/
def sampleRuntime : Value :=
  .object [("allow-lan", .bool false), ("bind-address", .string "127.0.0.1"), ("log-level", .string "info"),
    ("mixed-port", .number (.PosInt 0)), ("mode", .string "rule"), ("port", .number (.PosInt 0)), ("proxies", .array []),
    ("proxy-groups", .array [.object [("name", .string "G"), ("proxies", .array [.string "DIRECT", .string "REJECT"]),
      ("type", .string "select")]]),
    ("rule-providers", .object []), ("rules", .array [.string "MATCH,REJECT"]), ("socks-port", .number (.PosInt 0))]

def sampleConfig : config.Config where
  bind_address := .V4 ⟨127, 0, 0, 1⟩
  proxies := config.builtin_proxies
  rules := []
  groups := [⟨"G", [0, 1]⟩]
  selections := [0]
  mode := "rule"
  controller := none
  secret := ""
  document := sampleDocument

def sampleIdentity : ActiveIdentity :=
  ⟨"home", "0123456789abcdef0123456789abcdef"⟩

def instanceNonce : String := "00000000000000000000000000000000"

def samplePrepared : Prepared where
  source := "\x7b\x7d"
  assets := .empty
  identity := some sampleIdentity
  generation := 1
  selections := []
  invocation := ⟨false, true, none, none, none⟩
  port := 7899
  override_options := {}
  controller_secret := none

theorem sample_parse_config : parse_config samplePlatform samplePrepared = .ok sampleConfig := by
  have hruntime : override_script.runtime_source samplePlatform.crates (str.bytes samplePrepared.source) =
      .ok (serde_json.to_string sampleRuntime) := by
    rfl
  have hlen : str.len (serde_json.to_string sampleRuntime) ≤ config.MAX_SOURCE_BYTES :=
    (str.len_ofList_le _).trans (by decide +kernel)
  have hparsed : config.Config.parse_with_assets samplePlatform.crates (serde_json.to_string sampleRuntime) [] =
      .ok sampleConfig := by
    simp only [config.Config.parse_with_assets, config.Config.parse_inner, bind_eq_ok_iff]
    exact ⟨sampleDocument, sample_document hlen, rfl⟩
  simp only [parse_config, bind_eq_ok_iff, withContext_eq_ok_iff]
  exact ⟨(), rfl, _, hruntime, sampleConfig, hparsed, sampleConfig, rfl, (), rfl, .empty, rfl, sampleConfig, rfl, (), rfl, rfl⟩

def sampleKey : List UInt8 := List.replicate 32 7

/-- The prepared file of the old runtime that the instance was started from. -/
def sampleName : String :=
  "zc.prepared." ++ hmac samplePlatform sampleKey [] ++ "." ++ instanceNonce ++ ".yaml"

theorem last_sampleName : sampleName.toList.reverse.head? = some 'l' :=
  last_append _ (by decide)

def sampleHost : Host where
  platform := samplePlatform
  join dir name := dir ++ "/" ++ name
  parent _ := some "/run/zc"
  file_name path := some path
  extension _ := some "yaml"
  zig_prepared _ _ := .ok samplePrepared

def sampleDescriptor : Descriptor where
  schema_version := 2
  pid := 4711
  nonce := instanceNonce
  endpoint := none
  identity := some sampleIdentity
  generation := 1
  ready := true
  invocation := some ⟨false, true, some sampleName, none, none⟩
  service_id := none

def sampleFiles (name : String) : Option (List UInt8) :=
  if name = "zc.prepared.key" then some sampleKey else if name = sampleName then some [] else none

theorem sampleFiles_key : sampleFiles "zc.prepared.key" = some sampleKey :=
  if_pos rfl

theorem sampleFiles_name : sampleFiles sampleName = some [] := by
  have hkey : sampleName ≠ "zc.prepared.key" := by
    intro heq
    have hlast := last_sampleName
    rw [heq] at hlast
    exact absurd hlast (by decide)
  rw [sampleFiles, if_neg hkey, if_pos rfl]

theorem sampleFiles_snapshot (mac nonce : String) : sampleFiles (snapshot_name mac nonce) = none := by
  have hname : snapshot_name mac nonce ≠ sampleName := snapshot_name_ne mac nonce (last_sampleName ▸ by decide)
  rw [sampleFiles, if_neg (snapshot_name_ne mac nonce (by decide)), if_neg hname]

attribute [irreducible] sampleFiles

def sampleControl : Control where
  path := "/run/zc"
  config := sampleConfig
  descriptor := sampleDescriptor
  persisted := .empty
  stopped := false
  files := sampleFiles
  authority := []

def sampleDesired : Desired :=
  ⟨2, [⟨"G", "REJECT"⟩]⟩

def sampleCatalog : Catalog where
  schema_version := 2
  sequence := 3
  active := some sampleIdentity
  profiles := [⟨"home", samplePlatform.storage_id "home", sampleIdentity.revision, sampleDesired, none⟩]

theorem sampleCatalog_canonical : sampleCatalog.Canonical samplePlatform := by
  have hcanonical : samplePlatform.canonical_catalog sampleCatalog = .ok sampleCatalog := by
    rfl
  exact (canonical_catalog_ok hcanonical).2.1

/-- No step fails, and the catalog asks for the other member of the group. -/
def sampleOutside : Outside samplePlatform where
  fault _ := none
  leftover _ := none
  random := []
  observed := .ok (some sampleDescriptor)
  observed_again := .ok (some sampleDescriptor)
  load _ := .ok sampleCatalog
  canonical _ _ hload := Except.ok.inj hload ▸ sampleCatalog_canonical
  state _ := line sampleCatalog.encode

def sampleMetadata : Value :=
  .object [("generation", .number (.PosInt 2)), ("identity_key", .string "home"),
    ("identity_revision", .string sampleIdentity.revision), ("instance_nonce", .string instanceNonce)]

theorem length_line_le (value : Value) {limit : Nat} (hlimit : 4 * value.text.length + 1 ≤ limit) :
    (line value).length ≤ limit := by
  have hlen := serde_json.length_to_vec_le value
  rw [line, List.length_append, List.length_singleton]
  omega

theorem sample_frozen (authority : List UInt8) :
    Returns (prepared_for sampleHost sampleOutside sampleDescriptor) { sampleControl with authority } samplePrepared
      { sampleControl with authority } := by
  have hquiet : ∀ step, sampleOutside.fault step = none := fun _ => rfl
  have hparts : prepared_parts sampleName "yaml" (fun nonce => valid_hex nonce 32) = some (hmac samplePlatform sampleKey []) := by
    decide +kernel
  have hname : fsutil.single_component sampleName = true := by
    decide +kernel
  have hbytes : Returns (read_authenticated sampleOutside .freeze sampleName (hmac samplePlatform sampleKey [])
      (FILE_LIMIT + 16 * 1024)) { sampleControl with authority } [] { sampleControl with authority } := by
    have hread : Returns (read sampleOutside (.snapshot_read .freeze) sampleName (FILE_LIMIT + 16 * 1024))
        { sampleControl with authority } [] { sampleControl with authority } :=
      returns_read hquiet sampleFiles_name (Nat.zero_le _)
    refine hread.bind ?_
    exact (returns_snapshot_key (s := { sampleControl with authority }) hquiet sampleFiles_key List.length_replicate).bind
      ((returns_ensure (beq_self_eq_true _)).bind ⟨rfl, rfl⟩)
  have hload : Returns (load_zig_prepared sampleHost sampleOutside .freeze sampleName sampleDescriptor)
      { sampleControl with authority } samplePrepared { sampleControl with authority } := by
    refine (returns_ensure hname).bind ?_
    rw [hparts]
    exact (returns_ofExcept rfl).bind (hbytes.bind (returns_ofExcept rfl))
  have hcheck : (do
      ensure (samplePrepared.identity == sampleDescriptor.identity && samplePrepared.generation == sampleDescriptor.generation)
        (.message "RUNTIME_SNAPSHOT_INVALID: snapshot identity mismatch")
      parse_config sampleHost.platform samplePrepared : Result config.Config) = .ok sampleConfig :=
    bind_eq_ok_iff.2 ⟨(), rfl, sample_parse_config⟩
  refine (returns_ofExcept rfl).bind (returns_getSelf.bind ((returns_ensure rfl).bind ((returns_ofExcept rfl).bind ?_)))
  exact hload.bind ((returns_ofExcept hcheck).bind ((returns_ensure rfl).bind ⟨rfl, rfl⟩))

theorem sample_wanted : Wanted sampleHost sampleOutside sampleControl "G" "REJECT" sampleMetadata sampleIdentity sampleDesired
    samplePrepared sampleKey where
  quiet _ := rfl
  sound := Sound.of_parse_config sample_parse_config
  running := rfl
  observed := ⟨rfl, rfl⟩
  identified := rfl
  invocation := nofun
  nonce := rfl
  identity_key := rfl
  identity_revision := rfl
  generation := rfl
  newer := by decide
  listed := by decide
  catalog := ⟨sampleCatalog, rfl, rfl, length_line_le _ (by decide +kernel), by decide⟩
  froze := sample_frozen
  key_file := ⟨sampleFiles_key, List.length_replicate⟩
  fits := length_line_le _ (by decide +kernel)
  free := sampleFiles_snapshot _ _
  selections := ⟨_, _, rfl, rfl⟩

/-- In the sample the call succeeds. -/
theorem select_applies_sample : (select sampleHost sampleOutside "G" "REJECT" sampleMetadata sampleControl).result = .ok true ∧
    ∃ identity desired, sampleControl.descriptor.identity = some identity ∧
      Committed sampleHost identity desired (select sampleHost sampleOutside "G" "REJECT" sampleMetadata sampleControl).state ∧
      sampleControl.descriptor.generation <
        (select sampleHost sampleOutside "G" "REJECT" sampleMetadata sampleControl).state.descriptor.generation := by
  have hresult := sample_wanted.select_result
  have hstarted : Started sampleHost.platform sampleControl := ⟨samplePrepared, sampleConfig, [], sample_parse_config, rfl⟩
  have hcall := select_applies_or_leaves sampleHost hstarted [] sampleOutside "G" "REJECT" sampleMetadata
  rw [show sampleControl.run sampleHost [] = sampleControl from rfl] at hcall
  exact ⟨hresult, hcall.1 hresult⟩

end zc.daemon
