import Zc.Connection.Texts
import Zc.Lib.History

/-!
# The life of the registry

The calls on a registry in any order: every one of them holds the lock of the state from its first
to its last access, so a run is a sequence of calls. The numbers of the connections only grow, which
keeps the ids of one registry apart, and an entry is there exactly as long as its guard.
-/

namespace zc.connection

open config (Config SocketAddr)

/-- A registry with the guards that are alive and the numbers handed out so far, the newest first. -/
structure Registry where
  state : State
  guards : List Nat
  issued : List Nat

def Registry.new : Registry :=
  ⟨.default, [], []⟩

inductive Call where
  | register (source : SocketAddr)
  | close (id : String)
  | update (sequence : Nat) (change : Change)
  | list
  | drop (sequence : Nat)

/-- Updates and drops are calls of a guard that is alive. No guard is told that it is closing. -/
inductive Registry.Step (nonce : String) : Registry → Call → Registry → Prop
  | registered {registry : Registry} {source : SocketAddr} {sequence : Nat} {state : State}
    (hregister : register nonce source registry.state = some (sequence, state)) :
    Step nonce registry (.register source) ⟨state, sequence :: registry.guards, sequence :: registry.issued⟩
  | refused {registry : Registry} {source : SocketAddr} (hregister : register nonce source registry.state = none) :
    Step nonce registry (.register source) registry
  | closed {registry : Registry} {id : String} :
    Step nonce registry (.close id) { registry with state := (close nonce id registry.state).2 }
  | updated {registry : Registry} {sequence : Nat} {change : Change} (hguard : sequence ∈ registry.guards)
    (hchange : change ≠ .phase .Closing) :
    Step nonce registry (.update sequence change) { registry with state := update sequence change registry.state }
  | listed {registry : Registry} : Step nonce registry .list registry
  | dropped {registry : Registry} {sequence : Nat} (hguard : sequence ∈ registry.guards) :
    Step nonce registry (.drop sequence)
      { registry with state := drop sequence registry.state, guards := registry.guards.erase sequence }

abbrev Registry.Run (nonce : String) : List Call → Registry → Prop :=
  History .new fun _ => Registry.Step nonce

/-! ## Ids -/

variable {nonce : String} {n : Nat}

/-- Exactly the ids of the form `nonce-n` are split. -/
theorem split_id_eq_some_iff {id : String} :
    split_id id = some (nonce, n) ↔
      id = connection_id nonce n ∧ str.len nonce = 32 ∧ nonce.toList.all isHexDigit = true ∧ 0 < n ∧ n < 2 ^ 64 := by
  constructor
  · intro hsplit
    unfold split_id at hsplit
    split at hsplit
    · cases hsplit
    next found digits hrsplit =>
    split_ifs at hsplit with hform hrange
    obtain ⟨rfl, rfl⟩ := Prod.mk.inj (Option.some.inj hsplit)
    simp only [Bool.or_eq_true, decide_eq_true_eq, not_or, Bool.not_eq_true', Bool.not_eq_false, not_not] at hform
    obtain ⟨⟨⟨hlen, hhex⟩, hzero⟩, hdigits⟩ := hform
    simp only [Bool.or_eq_true, decide_eq_true_eq, not_or, not_le] at hrange
    have hne : digits.toList ≠ [] := fun hnil => hrange.1 (String.toList_eq_nil_iff.1 hnil)
    have hhead : digits.toList.head? ≠ some '0' := by
      intro hhead
      obtain ⟨rest, hrest⟩ : ∃ rest, digits.toList = '0' :: rest := List.head?_eq_some_iff.1 hhead
      apply hzero
      rw [str.startsWith, hrest]
      rfl
    have htext := toDigits_decimal (List.all_eq_true.1 hdigits) hne hhead
    rw [String.ofList_toList] at htext
    refine ⟨?_, hlen, hhex, ?_, hrange.2⟩
    · apply String.toList_injective
      rw [connection_id, htext, String.toList_append, String.toList_append, String.ofList_toList, rsplitOnce_eq_some hrsplit,
        List.append_assoc]
      rfl
    · rw [Nat.pos_iff_ne_zero]
      intro hnone
      rw [hnone] at htext
      exact hhead (htext ▸ rfl)
  · rintro ⟨rfl, hlen, hhex, hpos, hn⟩
    exact split_connection_id hlen hhex hpos hn

/-! ## One call -/

variable {state : State}

theorem register_eq_some {source : SocketAddr} {next : State} {sequence : Nat}
    (hregister : register nonce source state = some (sequence, next)) :
    state.entries.entries.length < LIMIT ∧ sequence = state.sequence + 1 ∧ sequence < 2 ^ 64 ∧ next.sequence = sequence ∧
      ∃ entry : Entry, next.entries = state.entries.insert sequence entry ∧ entry.metadata.id = connection_id nonce sequence ∧
        entry.metadata.phase = .Handshake ∧ entry.cancel = false := by
  unfold register at hregister
  split_ifs at hregister with hlimit hsequence
  obtain ⟨rfl, rfl⟩ := Prod.mk.inj (Option.some.inj hregister)
  exact ⟨Nat.lt_of_not_le hlimit, rfl, Nat.lt_of_not_le hsequence, rfl, _, rfl, rfl, rfl, rfl⟩

/-- A close fails and leaves everything, or closes the entry the id names. -/
theorem close_cases (nonce id : String) (state : State) :
    (∃ error, close nonce id state = (.error error, state) ∧ ∀ n, split_id id = some (nonce, n) → state.entries.get n = none) ∨
    ∃ n entry, split_id id = some (nonce, n) ∧ state.entries.get n = some entry ∧
      close nonce id state = (.ok (), { state with entries := state.entries.insert n entry.close }) := by
  unfold close
  cases hsplit : split_id id with
  | none => exact .inl ⟨_, rfl, nofun⟩
  | some parts =>
    obtain ⟨found, n⟩ := parts
    by_cases hnonce : found = nonce
    · subst hnonce
      simp only [ne_eq, not_true_eq_false, if_false]
      cases hget : state.entries.get n with
      | none =>
        refine .inl ⟨_, rfl, fun m hm => ?_⟩
        cases hm
        exact hget
      | some entry => exact .inr ⟨n, entry, rfl, hget, rfl⟩
    · simp only [if_pos hnonce]
      refine .inl ⟨_, rfl, fun m hm => ?_⟩
      cases hm
      exact absurd rfl hnonce

theorem update_cases (n : Nat) (change : Change) (state : State) :
    update n change state = state ∧ (∀ entry, state.entries.get n = some entry → entry.metadata.phase = .Closing) ∨
    ∃ entry, state.entries.get n = some entry ∧ entry.metadata.phase ≠ .Closing ∧
      update n change state = { state with entries := state.entries.insert n (change.apply entry) } := by
  unfold update
  cases hget : state.entries.get n with
  | none =>
    refine .inl ⟨rfl, fun found hfound => ?_⟩
    cases hfound
  | some entry =>
    by_cases hclosing : entry.metadata.phase = .Closing
    · refine .inl ⟨if_neg (not_not.2 hclosing), fun found hfound => ?_⟩
      cases hfound
      exact hclosing
    · exact .inr ⟨entry, rfl, hclosing, if_pos hclosing⟩

/-- An entry has the id of its number and is cancelled exactly when it is closing. -/
structure Entry.Named (nonce : String) (n : Nat) (entry : Entry) : Prop where
  id : entry.metadata.id = connection_id nonce n
  cancel : entry.cancel = true ↔ entry.metadata.phase = .Closing

variable {entry : Entry}

theorem Entry.Named.close (hnamed : entry.Named nonce n) : entry.close.Named nonce n := by
  constructor
  · exact hnamed.id
  · exact ⟨fun _ => rfl, fun _ => rfl⟩

theorem Entry.Named.apply {change : Change} (hnamed : entry.Named nonce n) (hopen : entry.metadata.phase ≠ .Closing)
    (hchange : change ≠ .phase .Closing) : (change.apply entry).Named nonce n := by
  have hcancel : ¬entry.cancel = true := fun h => hopen (hnamed.cancel.1 h)
  cases change with
  | phase next =>
    refine ⟨hnamed.id, fun h => absurd h hcancel, fun (h : next = .Closing) => ?_⟩
    subst h
    exact absurd rfl hchange
  | inbound kind =>
    rw [Change.apply]
    split_ifs
    · exact ⟨hnamed.id, fun h => absurd h hcancel, nofun⟩
    · exact ⟨hnamed.id, hnamed.cancel⟩
  | target destination sender kind => exact ⟨hnamed.id, fun h => absurd h hcancel, nofun⟩
  | routed route => exact ⟨hnamed.id, fun h => absurd h hcancel, nofun⟩
  | idle => exact ⟨hnamed.id, fun h => absurd h hcancel, nofun⟩

/-! ## Runs -/

structure Registry.Sound (nonce : String) (registry : Registry) : Prop where
  limit : registry.state.entries.entries.length ≤ LIMIT
  sequence : registry.state.sequence < 2 ^ 64
  issued : registry.issued.Pairwise (· > ·)
  range : ∀ n ∈ registry.issued, 0 < n ∧ n ≤ registry.state.sequence
  guards : registry.guards.Nodup
  held : ∀ n ∈ registry.guards, n ∈ registry.issued
  live : ∀ n, n ∈ registry.guards ↔ (registry.state.entries.get n).isSome = true
  named : ∀ n entry, registry.state.entries.get n = some entry → entry.Named nonce n

variable {registry : Registry}

/-- An entry that is replaced stays where it is. -/
theorem Registry.Sound.replace (hsound : registry.Sound nonce) {next : Entry}
    (hget : registry.state.entries.get n = some entry) (hnext : next.Named nonce n) :
    Registry.Sound nonce { registry with state := { registry.state with entries := registry.state.entries.insert n next } } where
  limit := (SortedMap.length_insertEntry_of_mem registry.state.entries.sorted (SortedMap.mem_entries_of_get hget) rfl).trans_le hsound.limit
  sequence := hsound.sequence
  issued := hsound.issued
  range := hsound.range
  guards := hsound.guards
  held := hsound.held
  live := by
    intro m
    rw [hsound.live, SortedMap.get_insert]
    split_ifs with heq
    · rw [heq, hget]
      simp
    · rfl
  named := by
    intro m found hfound
    rw [SortedMap.get_insert] at hfound
    split_ifs at hfound with heq
    · cases hfound
      exact heq ▸ hnext
    · exact hsound.named m found hfound

theorem Registry.Sound.registered {source : SocketAddr} (hsound : registry.Sound nonce)
    (hregister : register nonce source registry.state = some (n, state)) :
    Registry.Sound nonce ⟨state, n :: registry.guards, n :: registry.issued⟩ := by
  obtain ⟨hlimit, hn, hbound, hsequence, entry, hentries, hid, hphase, hcancel⟩ := register_eq_some hregister
  have hfresh : ∀ m ∈ registry.issued, m < n := fun m hm => by
    have := (hsound.range m hm).2
    omega
  constructor
  · rw [hentries]
    exact (SortedMap.length_insertEntry_le _ _ _).trans hlimit
  · rw [hsequence]
    exact hbound
  · exact List.pairwise_cons.2 ⟨hfresh, hsound.issued⟩
  · intro m hm
    rw [hsequence]
    rcases List.mem_cons.1 hm with rfl | hm
    · omega
    · have := hsound.range m hm
      omega
  · exact List.nodup_cons.2 ⟨fun hmem => Nat.lt_irrefl _ (hfresh n (hsound.held n hmem)), hsound.guards⟩
  · intro m hm
    exact List.mem_cons.2 ((List.mem_cons.1 hm).imp_right (hsound.held m))
  · intro m
    rw [hentries, SortedMap.get_insert, List.mem_cons, hsound.live]
    split_ifs with heq <;> simp [heq]
  · intro m found hfound
    rw [hentries, SortedMap.get_insert] at hfound
    split_ifs at hfound with heq
    · cases hfound
      subst heq
      refine ⟨hid, ?_⟩
      rw [hphase, hcancel]
      exact ⟨nofun, nofun⟩
    · exact hsound.named m found hfound

theorem Registry.Sound.dropped {nonce : String} {registry : Registry} (hsound : registry.Sound nonce) (n : Nat) :
    Registry.Sound nonce { registry with state := drop n registry.state, guards := registry.guards.erase n } where
  limit := (List.length_filter_le _ _).trans hsound.limit
  sequence := hsound.sequence
  issued := hsound.issued
  range := hsound.range
  guards := hsound.guards.erase n
  held := fun m hm => hsound.held m (List.mem_of_mem_erase hm)
  live := by
    intro m
    rw [hsound.guards.mem_erase_iff, hsound.live, drop, SortedMap.get_erase]
    split_ifs with heq <;> simp [heq]
  named := by
    intro m entry hget
    rw [drop, SortedMap.get_erase] at hget
    split_ifs at hget
    exact hsound.named m entry hget

theorem Registry.Sound.step {nonce : String} {registry next : Registry} {call : Call} (hsound : registry.Sound nonce)
    (hstep : Step nonce registry call next) : next.Sound nonce := by
  cases hstep with
  | registered hregister => exact hsound.registered hregister
  | refused => exact hsound
  | closed =>
    rcases close_cases nonce _ registry.state with ⟨error, hclose, -⟩ | ⟨n, entry, -, hget, hclose⟩
    · rw [hclose]
      exact hsound
    · rw [hclose]
      exact hsound.replace hget (hsound.named n entry hget).close
  | updated hguard hchange =>
    rcases update_cases _ _ registry.state with ⟨hupdate, -⟩ | ⟨entry, hget, hopen, hupdate⟩
    · rw [hupdate]
      exact hsound
    · rw [hupdate]
      exact hsound.replace hget ((hsound.named _ entry hget).apply hopen hchange)
  | listed => exact hsound
  | dropped => exact hsound.dropped _

theorem Registry.sound_new (nonce : String) : Registry.new.Sound nonce where
  limit := Nat.zero_le _
  sequence := Nat.two_pow_pos 64
  issued := .nil
  range := by simp [Registry.new]
  guards := .nil
  held := by simp [Registry.new]
  live := by
    intro n
    simp [Registry.new, State.default, SortedMap.get, SortedMap.empty]
  named := by
    intro n entry hget
    cases hget

theorem Registry.sound_of_run {calls : List Call} (hrun : Run nonce calls registry) : registry.Sound nonce :=
  hrun.invariant (P := fun _ registry => registry.Sound nonce) (Registry.sound_new nonce) fun _ _ _ _ hsound hstep => hsound.step hstep

/-- A closing entry is as it is until its guard is dropped. -/
theorem Registry.Step.get_of_closing {next : Registry} {call : Call} (hsound : registry.Sound nonce)
    (hstep : Step nonce registry call next) (hget : registry.state.entries.get n = some entry)
    (hclosing : entry.metadata.phase = .Closing) : next.state.entries.get n = some entry ∨ call = .drop n := by
  cases hstep with
  | registered hregister =>
    obtain ⟨-, hm, -, -, fresh, hentries, -⟩ := register_eq_some hregister
    have hlive := (hsound.live n).2 (by rw [hget]; rfl)
    have hle := (hsound.range n (hsound.held n hlive)).2
    left
    rw [hentries, SortedMap.get_insert, if_neg (by omega), hget]
  | refused => exact .inl hget
  | closed =>
    left
    rcases close_cases nonce _ registry.state with ⟨error, hclose, -⟩ | ⟨m, found, -, hfound, hclose⟩
    · rw [hclose]
      exact hget
    · rw [hclose, SortedMap.get_insert]
      split_ifs with heq
      · subst heq
        cases hget.symm.trans hfound
        have hcancel := (hsound.named n entry hget).cancel.2 hclosing
        obtain ⟨metadata, route, cancel⟩ := entry
        obtain ⟨id, source, protocol, phase⟩ := metadata
        cases hclosing
        cases hcancel
        rfl
      · exact hget
  | @updated m change _ _ =>
    left
    rcases update_cases m change registry.state with ⟨hupdate, -⟩ | ⟨found, hfound, hopen, hupdate⟩
    · rw [hupdate]
      exact hget
    · rw [hupdate, SortedMap.get_insert]
      split_ifs with heq
      · subst heq
        cases hget.symm.trans hfound
        exact absurd hclosing hopen
      · exact hget
  | listed => exact .inl hget
  | @dropped m _ =>
    by_cases heq : n = m
    · exact .inr (by rw [heq])
    · left
      rw [drop, SortedMap.get_erase, if_neg heq, hget]

/-- The views of a listing are those of the entries, in the order of their numbers. -/
theorem write_list_eq_ok {cfg : Config} {value : Value} (hlist : write_list cfg state = .ok value) :
    ∃ views : List View, value = .object [("connections", .array (views.map View.value))] ∧
      views.map View.metadata = state.entries.entries.map fun entry => entry.2.metadata := by
  simp only [write_list, bind_eq_ok_iff] at hlist
  obtain ⟨views, hviews, hvalue⟩ := hlist
  cases hvalue
  refine ⟨views, rfl, ?_⟩
  rw [Traverse.mapM_eq_ok_iff] at hviews
  generalize state.entries.entries = entries at hviews
  induction hviews with
  | nil => rfl
  | cons hview _ ih =>
    simp only [Entry.view, bind_eq_ok_iff] at hview
    obtain ⟨rule, -, proxy, -, hview⟩ := hview
    cases hview
    rw [List.map_cons, List.map_cons, ih]

/-- The life of a registry, after any calls. -/
theorem registry_lifecycle {nonce : String} (hlen : str.len nonce = 32) (hhex : nonce.toList.all isHexDigit = true)
    {calls : List Call} {registry : Registry} (hrun : Registry.Run nonce calls registry) :
    (registry.issued.map (connection_id nonce)).Nodup ∧
    (registry.guards.Nodup ∧ registry.guards.length ≤ LIMIT ∧
      ∀ cfg value, write_list cfg registry.state = .ok value →
        ∃ views : List View, value = .object [("connections", .array (views.map View.value))] ∧
          (views.map fun view => view.metadata.id).Perm (registry.guards.map (connection_id nonce))) ∧
    (∀ n entry, registry.state.entries.get n = some entry → (entry.cancel = true ↔ entry.metadata.phase = .Closing) ∧
      (entry.metadata.phase = .Closing → ∀ call next, Registry.Step nonce registry call next →
        next.state.entries.get n = some entry ∨ call = .drop n)) ∧
    (∀ id, (∀ n ∈ registry.guards, connection_id nonce n = id → ∃ entry, registry.state.entries.get n = some entry ∧
        close nonce id registry.state = (.ok (), { registry.state with entries := registry.state.entries.insert n entry.close })) ∧
      ((∀ n ∈ registry.guards, connection_id nonce n ≠ id) →
        ∃ error, close nonce id registry.state = (.error error, registry.state))) ∧
    ∀ id found n, split_id id = some (found, n) ↔
      id = connection_id found n ∧ str.len found = 32 ∧ found.toList.all isHexDigit = true ∧ 0 < n ∧ n < 2 ^ 64 := by
  have hsound := Registry.sound_of_run hrun
  have hkeys : (registry.state.entries.entries.map Prod.fst).Perm registry.guards := by
    rw [List.perm_ext_iff_of_nodup _ hsound.guards]
    · intro n
      rw [hsound.live, List.mem_map]
      constructor
      · rintro ⟨⟨m, entry⟩, hmem, rfl⟩
        rw [SortedMap.get_of_mem_entries hmem]
        rfl
      · intro hsome
        obtain ⟨entry, hentry⟩ := Option.isSome_iff_exists.1 hsome
        exact ⟨(n, entry), SortedMap.mem_entries_of_get hentry, rfl⟩
    · exact List.pairwise_map.2 (registry.state.entries.sorted.imp fun h => h.ne)
  refine ⟨?_, ⟨hsound.guards, ?_, ?_⟩, ?_, ?_, fun id found n => split_id_eq_some_iff⟩
  · exact (hsound.issued.imp fun h => h.ne').map _ fun n m hne heq => hne (connection_id_injective heq)
  · rw [← hkeys.length_eq, List.length_map]
    exact hsound.limit
  · intro cfg value hlist
    obtain ⟨views, hvalue, hviews⟩ := write_list_eq_ok hlist
    refine ⟨views, hvalue, ?_⟩
    have hids : (views.map fun view => view.metadata.id) = (registry.state.entries.entries.map Prod.fst).map (connection_id nonce) := by
      have hmap := congrArg (List.map Metadata.id) hviews
      rw [List.map_map, List.map_map] at hmap
      rw [List.map_map]
      refine hmap.trans (List.map_congr_left fun entry hmem => ?_)
      exact (hsound.named entry.1 entry.2 (SortedMap.get_of_mem_entries hmem)).id
    rw [hids]
    exact hkeys.map _
  · intro n entry hget
    exact ⟨(hsound.named n entry hget).cancel, fun hclosing call next hstep => hstep.get_of_closing hsound hget hclosing⟩
  · intro id
    constructor
    · rintro n hguard rfl
      obtain ⟨entry, hentry⟩ := Option.isSome_iff_exists.1 ((hsound.live n).1 hguard)
      obtain ⟨hpos, hle⟩ := hsound.range n (hsound.held n hguard)
      have hsplit := split_connection_id hlen hhex hpos (Nat.lt_of_le_of_lt hle hsound.sequence)
      rcases close_cases nonce (connection_id nonce n) registry.state with ⟨error, -, hnone⟩ | ⟨m, found, hm, hfound, hclose⟩
      · cases (hnone n hsplit).symm.trans hentry
      · cases hsplit.symm.trans hm
        cases hentry.symm.trans hfound
        exact ⟨entry, hentry, hclose⟩
    · intro hother
      rcases close_cases nonce id registry.state with ⟨error, hclose, -⟩ | ⟨n, entry, hsplit, hget, -⟩
      · exact ⟨error, hclose⟩
      · have hguard := (hsound.live n).2 (by rw [hget]; rfl)
        exact absurd (split_id_eq_some_iff.1 hsplit).1.symm (hother n hguard)

theorem registry_accepts_first : ∃ nonce registry, Registry.Run nonce [.register ⟨.V4 ⟨127, 0, 0, 1⟩, 80⟩] registry ∧
    (registry.issued.map (connection_id nonce)).Nodup ∧ registry.guards = [1] ∧
    ∃ entry : Entry, close nonce (connection_id nonce 1) registry.state =
      (.ok (), { registry.state with entries := registry.state.entries.insert 1 entry.close }) := by
  have hlen : str.len (hex (List.replicate 16 0)) = 32 := by decide +kernel
  have hhex : (hex (List.replicate 16 0)).toList.all isHexDigit = true := by decide +kernel
  have hrun : Registry.Run (hex (List.replicate 16 0)) [.register ⟨.V4 ⟨127, 0, 0, 1⟩, 80⟩] _ := .step .start (.registered rfl)
  obtain ⟨hissued, -, -, hclose, -⟩ := registry_lifecycle hlen hhex hrun
  obtain ⟨entry, -, hfirst⟩ := (hclose (connection_id _ 1)).1 1 List.mem_cons_self rfl
  exact ⟨_, _, hrun, hissued, rfl, entry, hfirst⟩

end zc.connection
