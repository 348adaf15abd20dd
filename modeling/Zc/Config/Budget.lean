import Zc.Config.Sync
import Zc.Fsutil.Calls

/-!
# The budget of a synchronisation

The collection writes nothing and keeps its total within 64 MiB, so no subtraction from the limit
overflows. What is written after it are the caches of assets that were checked one by one and
together.
-/

namespace zc.config

open Program
open fsutil (Fs Host Prog World Metadata)

variable {α : Type} {fs : Fs}

/-! ## Calls that only read -/

theorem stays_observe (host : Host) (f : Fs → Result α) :
    Stays (fun w : World => w.fs = fs) (host.observe f) (fun value => f fs = .ok value)
      (fun error => host.Quiet → f fs = .error error) := by
  rintro w rfl
  refine (fsutil.safe_observe f).weaken ?_
  rintro result t ⟨rfl, hok, hquiet⟩
  refine ⟨rfl, ?_⟩
  cases result with
  | ok value => exact hok value rfl
  | error error => exact fun hhost => (hquiet hhost).symm

/-- What `found` makes of an error. -/
def Missing (good : Option α → Prop) (bad : Error → Prop) : Error → Prop
  | .io .NotFound _ => good none
  | error => bad error

variable {bad : Error → Prop}

theorem stays_found {prog : Prog α} {good : Option α → Prop}
    (hprog : Stays (fun w : World => w.fs = fs) prog (fun value => good (some value)) (Missing good bad)) :
    Stays (fun w : World => w.fs = fs) (found prog) good bad := by
  refine hprog.attempt.bind fun result hresult => ?_
  split
  · exact stays_pure hresult
  · exact stays_pure hresult
  · next error hother =>
    refine stays_ofExcept nofun fun _ herror => ?_
    obtain rfl := Except.error.inj herror
    change Missing good bad error at hresult
    unfold Missing at hresult
    split at hresult
    · exact absurd rfl (hother _)
    · exact hresult

theorem stays_cache_parent (host : Host) (root : Nat) (path : String) :
    Stays (fun w : World => w.fs = fs) (cache_parent host root path false) (fun _ => True) fun _ => True := by
  refine stays_ofExcept_bind (fun names _ => ?_) fun _ _ => trivial
  refine (stays_foldlM names.1 (fun _ _ => True) trivial fun _ name dir _ _ => ?_).bind fun parent _ => ?_
  · refine stays_ofExcept_bind (fun _ _ => ?_) fun _ _ => trivial
    exact (stays_observe host _).mono (fun _ _ => trivial) fun _ _ => trivial
  · exact stays_ofExcept_bind (fun _ _ => stays_pure trivial) fun _ _ => trivial

theorem stays_hold_provider (around : Surroundings) (root : Nat) (source : Option Nat) (identities : Identities)
    (entry : String × Provider) :
    Stays (fun w : World => w.fs = fs) (hold_provider around root source identities entry) (fun _ => True) fun _ => True := by
  have hreads : ∀ {β : Type} (f : Fs → Result β),
      Stays (fun w : World => w.fs = fs) (around.host.observe f) (fun _ => True) fun _ => True :=
    fun f => (stays_observe around.host f).mono (fun _ _ => trivial) fun _ _ => trivial
  have hhold : Stays (fun w : World => w.fs = fs) (hold around.host root entry.2.path) (fun _ => True) fun _ => True := by
    refine (stays_cache_parent around.host root entry.2.path).bind fun parent _ => ?_
    refine (hreads _).bind fun file _ => (hreads _).attempt.bind fun lock _ => ?_
    exact stays_ofExcept_bind (fun _ _ => stays_pure trivial) fun _ _ => trivial
  have hfound : Stays (fun w : World => w.fs = fs) (found (hold around.host root entry.2.path)) (fun _ => True) fun _ => True :=
    stays_found (hhold.mono (fun _ _ => trivial) fun error _ => by unfold Missing; split <;> trivial)
  refine hfound.bind fun file _ => ?_
  cases file with
  | none => exact stays_pure trivial
  | some file =>
    dsimp only
    split_ifs
    · refine stays_ofExcept_bind (fun _ _ => ?_) fun _ _ => trivial
      exact stays_ofExcept_bind (fun _ _ => stays_pure trivial) fun _ _ => trivial
    · exact stays_ofExcept_bind (fun _ _ => stays_pure trivial) fun _ _ => trivial

/-! ## The total -/

/-- Where the collection may be: nothing is written, and the total is within its limit. -/
structure Collecting (fs : Fs) (run : Run) : Prop where
  fs_eq : run.world.fs = fs
  totals : ∀ total ∈ run.totals, total ≤ MAX_AGGREGATE_BYTES
  exact : run.underflow = false

theorem stays_lift {prog : Prog α} {good : α → Prop} (hprog : Stays (fun w : World => w.fs = fs) prog good bad) :
    Stays (Collecting fs) (lift prog) good bad := by
  intro run hrun
  obtain ⟨hsteps, hfs, hend⟩ := hprog run.world hrun.fs_eq
  refine ⟨?_, ⟨hfs, hrun.totals, hrun.exact⟩, hend⟩
  intro step hstep
  obtain ⟨step', hstep', -⟩ := List.mem_map.1 hstep
  exact hsteps step' hstep'

variable {total : Nat}

theorem stays_set_total (htotal : total ≤ MAX_AGGREGATE_BYTES) :
    Stays (Collecting fs) (set_total total) (fun _ => True) bad := by
  intro run hrun
  refine safe_query ⟨⟨hrun.fs_eq, fun total' hmem => ?_, hrun.exact⟩, trivial⟩
  rcases List.mem_append.1 hmem with hmem | hmem
  · exact hrun.totals total' hmem
  · obtain rfl := List.mem_singleton.1 hmem
    exact htotal

theorem stays_minus {a b : Nat} (hle : b ≤ a) : Stays (Collecting fs) (minus a b) (· = a - b) bad := by
  intro run hrun
  refine safe_query ?_
  rw [if_pos hle]
  exact ⟨hrun, rfl⟩

theorem add_budget_eq_ok_iff {amount max result : Nat} {message : String} :
    add_budget total amount max message = .ok result ↔ total + amount ≤ max ∧ result = total + amount := by
  unfold add_budget
  split_ifs with hle
  · exact ⟨fun h => ⟨hle, (Except.ok.inj h).symm⟩, fun h => congrArg Except.ok h.2.symm⟩
  · exact ⟨fun h => (bail_ne_ok.1 h).elim, fun h => absurd h.1 hle⟩

/-- A body never takes the total past the window of its request. -/
theorem stays_receive {limit : Nat} (success complete : Bool) (chunks : List (List UInt8)) {bytes : List UInt8}
    (hbytes : bytes.length ≤ limit) (hwindow : total + (limit - bytes.length) ≤ MAX_AGGREGATE_BYTES) :
    Stays (Collecting fs) (receive limit success complete chunks bytes total) (fun received => received.2 ≤ MAX_AGGREGATE_BYTES)
      fun _ => True := by
  induction chunks generalizing bytes total with
  | nil =>
    cases complete with
    | true => exact stays_pure (show total ≤ _ by omega)
    | false =>
      refine (stays_minus hbytes).bind ?_
      rintro _ rfl
      exact (stays_set_total hwindow).bind fun _ _ => stays_pure hwindow
  | cons chunk chunks ih =>
    unfold receive
    refine (stays_minus hbytes).bind ?_
    rintro _ rfl
    refine stays_ofExcept_bind (fun _ hfits => ?_) fun _ _ => trivial
    rw [bail_if_eq_ok_iff, decide_eq_false_iff_not, Nat.not_lt] at hfits
    refine (stays_set_total (by omega)).bind fun _ _ => ih ?_ ?_
    · rw [List.length_append]
      omega
    · rw [List.length_append]
      omega

theorem stays_download (response : Response) (htotal : total ≤ MAX_AGGREGATE_BYTES) :
    Stays (Collecting fs) (download response total) (fun received => received.2 ≤ MAX_AGGREGATE_BYTES) fun _ => True := by
  refine (stays_minus htotal).bind ?_
  rintro _ rfl
  have hlimit := Nat.min_le_right MAX_SOURCE_BYTES (MAX_AGGREGATE_BYTES - total)
  have hwindow : total + min MAX_SOURCE_BYTES (MAX_AGGREGATE_BYTES - total) ≤ MAX_AGGREGATE_BYTES := by omega
  refine stays_ofExcept_bind (fun _ _ => ?_) fun _ _ => trivial
  cases response with
  | failed => exact (stays_set_total hwindow).bind fun _ _ => stays_pure hwindow
  | answered content_length status chunks complete =>
    exact stays_ofExcept_bind (fun _ _ => stays_receive _ complete chunks (Nat.zero_le _) hwindow) fun _ _ => trivial

/-! ## What is collected -/

/-- The bytes passed the check of their provider. -/
def Validated (crates : Crates) (provider : Provider) (bytes : List UInt8) : Prop :=
  ∃ budgets budgets', validate_candidate crates provider bytes budgets = .ok budgets'

structure Collected (crates : Crates) (entries : Providers) (progress : Progress) : Prop where
  total : progress.total ≤ MAX_AGGREGATE_BYTES
  validated : ∀ entry ∈ entries, ∃ bytes, progress.assets.get entry.2.path = some bytes ∧ Validated crates entry.2 bytes

def locals (providers : Providers) : Providers :=
  providers.filter fun entry => !entry.2.url.isSome

theorem stays_check_provider (around : Surroundings) {done : Providers} {state : List (List Component × Bool) × Progress}
    (entry : String × Provider) (hdone : Collected around.crates (locals done) state.2) :
    Stays (Collecting fs) (check_provider around state entry)
      (fun state' => Collected around.crates (locals (done ++ [entry])) state'.2) fun _ => True := by
  refine stays_ofExcept_bind (fun _ _ => ?_) fun _ _ => trivial
  cases hremote : entry.2.url.isSome with
  | true =>
    have hlocals : locals (done ++ [entry]) = locals done := by
      rw [locals, List.filter_append, List.filter_cons_of_neg (by simp [hremote]), List.filter_nil, List.append_nil, locals]
    rw [hlocals]
    exact stays_pure hdone
  | false =>
    refine stays_ofExcept_bind (fun bytes hget => ?_) fun _ _ => trivial
    refine stays_ofExcept_bind (fun total hbudget => ?_) fun _ _ => trivial
    obtain ⟨hle, rfl⟩ := add_budget_eq_ok_iff.1 hbudget
    refine (stays_set_total hle).bind fun _ _ => stays_ofExcept_bind (fun budgets hvalid => ?_) fun _ _ => trivial
    refine stays_pure ⟨hle, fun other hother => ?_⟩
    have hlocals : locals (done ++ [entry]) = locals done ++ [entry] := by
      rw [locals, List.filter_append, List.filter_cons_of_pos (by rw [hremote]; rfl), List.filter_nil, locals]
    rw [hlocals, List.mem_append, List.mem_singleton] at hother
    obtain hother | rfl := hother
    · exact hdone.validated other hother
    · exact ⟨bytes, okOr_eq_ok_iff.1 hget, _, _, hvalid⟩

theorem stays_candidate (around : Surroundings) (name : String) (fresh cached : Bool)
    (htotal : total ≤ MAX_AGGREGATE_BYTES) :
    Stays (Collecting fs) (candidate around name fresh cached total) (fun received => received.2 ≤ MAX_AGGREGATE_BYTES) fun _ => True := by
  unfold candidate
  split_ifs
  · exact stays_pure htotal
  · refine stays_ofExcept_bind (fun _ _ => ?_) fun _ _ => trivial
    refine (stays_download _ htotal).bind fun received hreceived => ?_
    exact stays_ofExcept_bind (fun _ _ => stays_pure hreceived) fun _ _ => trivial

theorem stays_use_cache (around : Surroundings) (parent : Option (Nat × String)) (htotal : total ≤ MAX_AGGREGATE_BYTES) :
    Stays (Collecting fs) (use_cache around parent total) (fun read => read.2 ≤ MAX_AGGREGATE_BYTES) fun _ => True := by
  refine stays_ofExcept_bind (fun place _ => (stays_minus htotal).bind fun remaining _ => ?_) fun _ _ => trivial
  refine (stays_lift (stays_observe around.host _)).mono (fun _ _ => trivial) (fun _ _ => trivial) |>.bind fun bytes _ => ?_
  refine stays_ofExcept_bind (fun total' hbudget => ?_) fun _ _ => trivial
  obtain ⟨hle, rfl⟩ := add_budget_eq_ok_iff.1 hbudget
  exact (stays_set_total hle).bind fun _ _ => stays_pure hle

theorem Collected.insert {crates : Crates} {entries : Providers} {progress : Progress} {entry : String × Provider}
    {bytes : List UInt8} (hcollected : Collected crates entries progress)
    (hfree : progress.assets.get entry.2.path = none) (hvalid : Validated crates entry.2 bytes)
    (htotal : total ≤ MAX_AGGREGATE_BYTES) (budgets : Nat × Nat) (pending : Providers) :
    Collected crates (entries ++ [entry]) ⟨total, budgets, progress.assets.insert entry.2.path bytes, pending⟩ := by
  refine ⟨htotal, fun other hother => ?_⟩
  rw [List.mem_append, List.mem_singleton] at hother
  obtain hother | rfl := hother
  · obtain ⟨bytes', hget, hvalid'⟩ := hcollected.validated other hother
    refine ⟨bytes', ?_, hvalid'⟩
    rw [SortedMap.get_insert, if_neg fun heq => ?_, hget]
    rw [heq, hfree] at hget
    cases hget
  · exact ⟨bytes, SortedMap.get_insert_self _ _ _, hvalid⟩

theorem stays_fetch_provider (around : Surroundings) (root : Nat) (policy : ProviderSyncPolicy) (source : Option Nat)
    {entries : Providers} {progress : Progress} (entry : String × Provider) (hentries : Collected around.crates entries progress) :
    Stays (Collecting fs) (fetch_provider around root policy source progress entry) (Collected around.crates (entries ++ [entry]))
      fun _ => True := by
  have hfound : ∀ {β : Type} {prog : Prog β}, Stays (fun w : World => w.fs = fs) prog (fun _ => True) (fun _ => True) →
      Stays (Collecting fs) (lift (found prog)) (fun _ => True) fun _ => True := fun hprog =>
    stays_lift (stays_found (hprog.mono (fun _ _ => trivial) fun error _ => by unfold Missing; split <;> trivial))
  refine (hfound (stays_cache_parent around.host root entry.2.path)).bind fun parent _ => ?_
  have hmetadata : Stays (Collecting fs) (existing around parent) (fun _ => True) fun _ => True := by
    cases parent with
    | none => exact stays_pure trivial
    | some parent => exact hfound ((stays_observe around.host _).mono (fun _ _ => trivial) fun _ _ => trivial)
  refine hmetadata.bind fun metadata _ => stays_ofExcept_bind (fun _ _ => ?_) fun _ _ => trivial
  refine (stays_candidate around entry.1 _ _ hentries.total).bind fun received hreceived => ?_
  have hbytes : Stays (Collecting fs) (provide around parent received) (fun read => read.2 ≤ MAX_AGGREGATE_BYTES) fun _ => True := by
    obtain ⟨candidate, total⟩ := received
    cases candidate with
    | none => exact stays_use_cache around parent hreceived
    | some bytes => exact stays_pure hreceived
  refine hbytes.bind fun read hread => stays_ofExcept_bind (fun budgets hvalid => ?_) fun _ _ => trivial
  refine stays_ofExcept_bind (fun _ hfree => stays_pure ?_) fun _ _ => trivial
  rw [bail_if_eq_ok_iff, Option.isSome_eq_false_iff, Option.isNone_iff_eq_none] at hfree
  exact hentries.insert hfree ⟨_, _, hvalid⟩ hread _ _

theorem stays_collect (around : Surroundings) (root : Nat) (policy : ProviderSyncPolicy) (source : Option Nat) (providers : Providers)
    (local_assets : SortedMap String (List UInt8)) :
    Stays (Collecting fs) (collect around root policy source providers local_assets)
      (fun collected => Collected around.crates providers collected.1) fun _ => True := by
  refine stays_ofExcept_bind (fun _ _ => (stays_set_total (Nat.zero_le _)).bind fun _ _ => ?_) fun _ _ => trivial
  have hchecked : Stays (Collecting fs) (providers.foldlM (check_provider around) ([], ⟨0, (0, 0), local_assets, []⟩))
      (fun state : _ × Progress => Collected around.crates (locals providers) state.2) fun _ => True :=
    stays_foldlM providers (fun done (state : _ × Progress) => Collected around.crates (locals done) state.2) ⟨Nat.zero_le _, nofun⟩
      fun done entry state _ hdone => stays_check_provider around entry hdone
  refine hchecked.bind fun state hstate => ?_
  have hheld : Stays (Collecting fs) (hold_providers around root source providers) (fun _ => True) fun _ => True := by
    unfold hold_providers
    split_ifs
    · exact stays_pure trivial
    · exact stays_lift (stays_foldlM providers (fun _ _ => True) trivial
        fun _ entry identities _ _ => stays_hold_provider around root source identities entry)
  refine hheld.bind fun identities _ => ?_
  have hfetched : Stays (Collecting fs) ((remotes providers).foldlM (fetch_provider around root policy source) state.2)
      (Collected around.crates (locals providers ++ remotes providers)) fun _ => True := by
    refine stays_foldlM (remotes providers) (fun done => Collected around.crates (locals providers ++ done)) ?_ ?_
    · rwa [List.append_nil]
    · intro done entry progress _ hdone
      rw [← List.append_assoc]
      exact stays_fetch_provider around root policy source entry hdone
  refine hfetched.bind fun progress hprogress => stays_ofExcept_bind (fun _ _ => stays_pure ⟨hprogress.total, ?_⟩) fun _ _ => trivial
  intro entry hentry
  refine hprogress.validated entry ?_
  rw [List.mem_append, locals, remotes, List.mem_filter, List.mem_filter]
  cases entry.2.url.isSome with
  | true => exact .inr ⟨hentry, rfl⟩
  | false => exact .inl ⟨hentry, rfl⟩

/-! ## The gate -/

/-- The assets whose publication is begun: every provider's bytes passed their check, and the configuration is accepted with them. -/
structure Admitted (around : Surroundings) (source : String) (providers : Providers) (progress : Progress) : Prop where
  validated : ∀ entry ∈ providers, ∃ bytes, progress.assets.get entry.2.path = some bytes ∧ Validated around.crates entry.2 bytes
  accepted : ∃ cfg, Config.parse_with_assets around.crates source progress.assets.entries = .ok cfg

theorem publish_totals (around : Surroundings) (root : Nat) (source : Option Nat) (progress : Progress) (identities : Identities)
    (run : Run) : (publish around root source progress identities run).state.totals = run.totals ∧
      (publish around root source progress identities run).state.underflow = run.underflow := by
  change (andThen (lift _ run) _).state.totals = _ ∧ (andThen (lift _ run) _).state.underflow = _
  unfold andThen
  split
  · exact ⟨rfl, rfl⟩
  · exact ⟨rfl, rfl⟩

/-- The end of a run after the collection. -/
theorem finish_gated (around : Surroundings) (source : String) (root : Nat) (protected_source : Option Nat) (progress : Progress)
    (identities : Identities) (run : Run) :
    let outcome := finish around source root protected_source (progress, identities) run
    (outcome.steps = [] ∧ outcome.state = run) ∨
      (∃ cfg, Config.parse_with_assets around.crates source progress.assets.entries = .ok cfg) ∧
        outcome.steps = (publish around root protected_source progress identities run).steps ∧
        outcome.state = (publish around root protected_source progress identities run).state := by
  intro outcome
  by_cases hpending : progress.pending = []
  · have houtcome : outcome = ⟨.ok progress.assets, run, []⟩ := by
      simp only [outcome, finish, if_pos hpending]
      rfl
    rw [houtcome]
    exact .inl ⟨rfl, rfl⟩
  · simp only [outcome, finish, if_neg hpending]
    cases hparse : Config.parse_with_assets around.crates source progress.assets.entries with
    | error error => exact .inl ⟨rfl, rfl⟩
    | ok cfg =>
      refine .inr ⟨⟨cfg, rfl⟩, ?_⟩
      rw [show (ofExcept (.ok cfg) : Sync Config) = pure cfg from rfl]
      change (andThen (publish around root protected_source progress identities run) _).steps = _ ∧
        (andThen (publish around root protected_source progress identities run) _).state = _
      unfold andThen
      split
      · exact ⟨List.append_nil _, rfl⟩
      · exact ⟨rfl, rfl⟩

end zc.config
