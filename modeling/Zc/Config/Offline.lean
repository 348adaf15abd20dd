import Zc.Config.Budget
import Zc.Config.Lawful
import Zc.Lib.Traverse

/-!
# Synchronising without a network

When every request fails, the caches stand in for what the providers would have sent. A failed request
still costs its whole window of the total, so the caches are only reached while what is left covers them.
-/

namespace zc.config

open Program
open fsutil (Fs Host Prog World Metadata)

variable {α : Type} {fs : Fs}

/-! ## What a quiet machine finds -/

def parent_in (fs : Fs) (root : Nat) (path : String) : Result (Nat × String) := do
  let names ← cache_names path
  let parent ← names.1.foldlM (fun dir name => owned_child dir name fs) root
  bail_if (names.2 == LOCK) "reserved HTTP rule-provider cache path"
  return (parent, names.2)

def hold_in (fs : Fs) (root : Nat) (path : String) : Result Metadata := do
  let parent ← parent_in fs root path
  let file ← hold_cache_source parent.1 parent.2 fs
  bail_if ((hold_cache_source parent.1 LOCK fs).toOption.any fun lock => lock.ino == file.ino) "reserved HTTP rule-provider cache file"
  return file

def found_of : Result α → Result (Option α)
  | .ok value => .ok (some value)
  | .error (.io .NotFound _) => .ok none
  | .error error => .error error

section Quiet

variable {host : Host} (hquiet : host.Quiet)

include hquiet

theorem computes_observe (f : Fs → Result α) : Computes (fun w : World => w.fs = fs) (host.observe f) (f fs) :=
  (stays_observe host f).mono (fun _ h => h) fun _ h => h hquiet

theorem computes_cache_parent (root : Nat) (path : String) :
    Computes (fun w : World => w.fs = fs) (cache_parent host root path false) (parent_in fs root path) := by
  refine (computes_ofExcept _).bind fun names _ => (computes_foldlM (fun dir name => ?_) names.1 root).bind fun parent _ => ?_
  · have hchild : owned_child dir name fs = (fsutil.component name >>= fun _ => owned_child dir name fs) := by
      unfold owned_child
      cases fsutil.component name <;> rfl
    rw [hchild]
    exact (computes_ofExcept _).bind fun _ _ => computes_observe hquiet _
  · exact (computes_ofExcept _).bind fun _ _ => computes_ofExcept _

theorem computes_hold (root : Nat) (path : String) :
    Computes (fun w : World => w.fs = fs) (hold host root path) (hold_in fs root path) := by
  refine (computes_cache_parent hquiet root path).bind fun parent _ => (computes_observe hquiet _).bind fun file _ => ?_
  have hlock := Computes.attempt (@computes_observe _ fs _ hquiet (hold_cache_source parent.1 LOCK))
  exact hlock.bind_ok ((computes_ofExcept _).bind fun _ _ => computes_ofExcept _)

end Quiet

variable {result : Result α}

theorem computes_found {prog : Prog α} (hprog : Computes (fun w : World => w.fs = fs) prog result) :
    Computes (fun w : World => w.fs = fs) (found prog) (found_of result) := by
  refine stays_found (hprog.mono (fun value hvalue => by rw [hvalue]; rfl) fun error herror => ?_)
  rw [herror]
  unfold Missing
  split
  · rfl
  · next hother =>
    unfold found_of
    split
    · cases ‹_›
    · next heq =>
      cases heq
      exact absurd rfl (hother _)
    · next heq =>
      cases heq
      rfl

/-! ## The cost of a provider -/

/-- The most that one source may take of what is left. -/
def window (total : Nat) : Nat :=
  min MAX_SOURCE_BYTES (MAX_AGGREGATE_BYTES - total)

/-- A request that fails takes its whole window, and none is made without one. -/
def cost (asked : Bool) (total : Nat) : Result Nat :=
  if asked then do
    bail_if (decide (window total = 0)) "rule-provider aggregate source bytes limit exceeded"
    return total + window total
  else return total

/-- A provider is asked unless it is local or its cache is fresh. -/
def asked (around : Surroundings) (entry : String × Provider) : Bool :=
  entry.2.url.isSome && !is_fresh around .Eager entry.1 entry.2 true

/-- The total and the budgets after a provider with these bytes whose request, if any, fails. -/
def account (around : Surroundings) (bytes : String → List UInt8) (ledger : Nat × Nat × Nat) (entry : String × Provider) :
    Result (Nat × Nat × Nat) := do
  let total ← cost (asked around entry) ledger.1
  let total ← add_budget total (bytes entry.1).length MAX_AGGREGATE_BYTES "rule-provider aggregate source bytes limit exceeded"
  let budgets ← validate_candidate around.crates entry.2 (bytes entry.1) ledger.2
  return (total, budgets)

variable {around : Surroundings} {entry : String × Provider}

theorem account_eq_ok {bytes : String → List UInt8} {ledger next : Nat × Nat × Nat}
    (haccount : account around bytes ledger entry = .ok next) :
    ∃ total, cost (asked around entry) ledger.1 = .ok total ∧ total + (bytes entry.1).length ≤ MAX_AGGREGATE_BYTES ∧
      next.1 = total + (bytes entry.1).length ∧ validate_candidate around.crates entry.2 (bytes entry.1) ledger.2 = .ok next.2 := by
  simp only [account, bind_eq_ok_iff, add_budget_eq_ok_iff] at haccount
  obtain ⟨total, hcost, total', ⟨hle, rfl⟩, budgets, hvalid, hnext⟩ := haccount
  obtain rfl := Except.ok.inj hnext
  exact ⟨total, hcost, hle, rfl, hvalid⟩

variable {total next : Nat}

theorem stays_cost_le {asked : Bool} (htotal : total ≤ MAX_AGGREGATE_BYTES) (hcost : cost asked total = .ok next) :
    next ≤ MAX_AGGREGATE_BYTES := by
  unfold cost at hcost
  split_ifs at hcost
  · simp only [bind_eq_ok_iff] at hcost
    obtain ⟨-, -, hcost⟩ := hcost
    obtain rfl := Except.ok.inj hcost
    have := Nat.min_le_right MAX_SOURCE_BYTES (MAX_AGGREGATE_BYTES - total)
    unfold window
    omega
  · exact Except.ok.inj hcost ▸ htotal

/-! ## Parts of the collection -/

theorem computes_lift {prog : Prog α} (hprog : Computes (fun w : World => w.fs = fs) prog result) :
    Computes (Collecting fs) (lift prog) result :=
  stays_lift hprog

theorem computes_set_total (htotal : total ≤ MAX_AGGREGATE_BYTES) :
    Computes (Collecting fs) (set_total total) (.ok ()) :=
  (stays_set_total htotal).mono (fun _ _ => rfl) fun _ h => h

theorem computes_minus {a b : Nat} (hle : b ≤ a) : Computes (Collecting fs) (minus a b) (.ok (a - b)) :=
  (stays_minus hle).mono (fun _ h => congrArg Except.ok h.symm) fun _ h => h

theorem computes_check {value : α} (hresult : result = .ok value) :
    Computes (Collecting fs) (Program.ofExcept result : Sync α) (.ok value) :=
  hresult ▸ computes_ofExcept _

/-- A request that fails. -/
theorem computes_download (htotal : total ≤ MAX_AGGREGATE_BYTES) (hcost : cost true total = .ok next) :
    Computes (Collecting fs) (download .failed total) (.ok (none, next)) := by
  have hnext := stays_cost_le htotal hcost
  rw [cost, if_pos rfl] at hcost
  simp only [bind_eq_ok_iff] at hcost
  obtain ⟨_, hwindow, hcost⟩ := hcost
  obtain rfl := Except.ok.inj hcost
  refine (computes_minus htotal).bind_ok ((computes_check hwindow).bind_ok ?_)
  exact (computes_set_total hnext).bind_ok (computes_ofExcept _)

theorem computes_candidate (hclient : around.client = true) (hfailed : around.respond entry.1 = .failed)
    (hremote : entry.2.url.isSome = true) (htotal : total ≤ MAX_AGGREGATE_BYTES)
    (hcost : cost (asked around entry) total = .ok next) :
    Computes (Collecting fs) (candidate around entry.1 (is_fresh around .Eager entry.1 entry.2 true) true total) (.ok (none, next)) := by
  rw [asked, hremote, Bool.true_and] at hcost
  unfold candidate
  cases hfresh : is_fresh around .Eager entry.1 entry.2 true with
  | true =>
    rw [hfresh] at hcost
    obtain rfl := Except.ok.inj hcost
    exact computes_ofExcept _
  | false =>
    rw [hfresh] at hcost
    rw [hclient, hfailed]
    refine (computes_check rfl).bind_ok ((computes_download htotal hcost).bind_ok ?_)
    exact (computes_check rfl).bind_ok (computes_ofExcept _)

/-- A cache that can be read: where it is and what is known of it. -/
structure CacheAt (fs : Fs) (root : Nat) (path : String) (dir : Nat) (name : String) (file : Metadata) (bytes : List UInt8) : Prop where
  parent : parent_in fs root path = .ok (dir, name)
  held : hold_cache_source dir name fs = .ok file
  metadata : cache_metadata dir name fs = .ok file
  read : ∀ limit, bytes.length ≤ limit → read_cache dir name limit fs = .ok bytes

variable {dir : Nat} {name : String} {file : Metadata}

theorem len_of_hold (hheld : hold_cache_source dir name fs = .ok file) :
    file.len = (fs.inodes file.ino).data.length := by
  simp only [hold_cache_source, Fs.open_checked_file, bind_eq_ok_iff] at hheld
  obtain ⟨_, -, file', hopen, _, hchecked, hfile⟩ := hheld
  obtain rfl := Except.ok.inj hfile
  simp only [fsutil.check_metadata, bind_eq_ok_iff, ensure_eq_ok_iff] at hchecked
  obtain ⟨_, hregular, -⟩ := hchecked
  unfold Fs.openat at hopen
  split at hopen
  · cases hopen
  · cases hopen
  · cases hopen
    cases hregular
  · next node _ _ _ =>
    obtain rfl := Except.ok.inj hopen
    cases node with
    | file ino => rfl
    | dir ino => cases hregular
    | symlink target => cases hregular
    | other => cases hregular

variable {root : Nat}

theorem cacheAt_of_read {path : String} {bytes : List UInt8} (hparent : parent_in fs root path = .ok (dir, name))
    (hread : read_cache dir name MAX_SOURCE_BYTES fs = .ok bytes) :
    bytes.length ≤ MAX_SOURCE_BYTES ∧ ∃ file, CacheAt fs root path dir name file bytes := by
  obtain ⟨file, hmetadata, hbounded⟩ := bind_eq_ok_iff.1 hread
  have hopened := hmetadata
  simp only [Fs.open_cache_file, bind_eq_ok_iff, ensure_eq_ok_iff] at hopened
  obtain ⟨file', hheld, _, _, hfile⟩ := hopened
  obtain rfl := Except.ok.inj hfile
  simp only [Fs.read_bounded, bind_eq_ok_iff, ensure_eq_ok_iff, decide_eq_true_eq] at hbounded
  obtain ⟨_, hchecked, _, hmode, _, hlen, hbytes⟩ := hbounded
  obtain rfl := Except.ok.inj hbytes
  have hlen' := len_of_hold hheld
  refine ⟨hlen' ▸ hlen, file', hparent, hheld, hmetadata, fun limit hlimit => ?_⟩
  rw [read_cache, show fs.open_cache_file dir name = .ok file' from hmetadata]
  simp only [Fs.read_bounded, bind_eq_ok_iff, ensure_eq_ok_iff, decide_eq_true_eq]
  exact ⟨file', rfl, (), hchecked, (), hmode, (), hlen' ▸ hlimit, rfl⟩

theorem computes_use_cache (hquiet : around.host.Quiet) {path : String} {bytes : List UInt8}
    (hcache : CacheAt fs root path dir name file bytes) (hlength : bytes.length ≤ MAX_SOURCE_BYTES)
    (htotal : total + bytes.length ≤ MAX_AGGREGATE_BYTES) :
    Computes (Collecting fs) (use_cache around (some (dir, name)) total) (.ok (bytes, total + bytes.length)) := by
  refine (computes_check rfl).bind_ok ((computes_minus (by omega)).bind_ok ?_)
  have hread := @computes_observe _ fs _ hquiet (read_cache dir name (min MAX_SOURCE_BYTES (MAX_AGGREGATE_BYTES - total)))
  rw [hcache.read _ (Nat.le_min.2 ⟨hlength, by omega⟩)] at hread
  refine (computes_lift hread).bind_ok ((computes_check (add_budget_eq_ok_iff.2 ⟨htotal, rfl⟩)).bind_ok ?_)
  exact (computes_set_total htotal).bind_ok (computes_ofExcept _)

/-- One remote provider, from its cache. -/
theorem computes_fetch_provider (hquiet : around.host.Quiet) (hclient : around.client = true) {source : Option Nat}
    {progress : Progress} {bytes : String → List UInt8} {ledger : Nat × Nat × Nat}
    (hfailed : around.respond entry.1 = .failed) (hremote : entry.2.url.isSome = true)
    (hcache : CacheAt fs root entry.2.path dir name file (bytes entry.1))
    (hlength : (bytes entry.1).length ≤ MAX_SOURCE_BYTES) (hapart : source ≠ some file.ino)
    (hfree : progress.assets.get entry.2.path = none) (htotal : progress.total ≤ MAX_AGGREGATE_BYTES)
    (haccount : account around bytes (progress.total, progress.budgets) entry = .ok ledger) :
    Computes (Collecting fs) (fetch_provider around root .Eager source progress entry)
      (.ok ⟨ledger.1, ledger.2, progress.assets.insert entry.2.path (bytes entry.1), progress.pending⟩) := by
  obtain ⟨total, hcost, hle, hledger, hvalid⟩ := account_eq_ok haccount
  have hparent := computes_found (@computes_cache_parent fs _ hquiet root entry.2.path)
  rw [hcache.parent] at hparent
  refine (computes_lift hparent).bind_ok ?_
  have hmetadata := computes_found (@computes_observe _ fs _ hquiet (cache_metadata dir name))
  rw [hcache.metadata] at hmetadata
  refine (computes_lift hmetadata).bind_ok ?_
  have hcollision : reject_source_collision (some file) source = .ok () := by
    rw [reject_source_collision, bail_if_eq_ok_iff]
    exact beq_eq_false_iff_ne.2 hapart
  refine (computes_check hcollision).bind_ok ((computes_candidate hclient hfailed hremote htotal hcost).bind_ok ?_)
  refine (computes_use_cache hquiet hcache hlength hle).bind_ok ((computes_check hvalid).bind_ok ?_)
  rw [hfree, hledger]
  exact (computes_check rfl).bind_ok (computes_ofExcept _)

/-! ## Offline -/

/-- What stands for the network: every request fails, and every provider's bytes are there already. -/
structure Offline (around : Surroundings) (fs : Fs) (root : Nat) (source : Option Nat) (providers : Providers)
    (local_assets : SortedMap String (List UInt8)) (bytes : String → List UInt8) : Prop where
  quiet : around.host.Quiet
  client : around.client = true
  failed : ∀ entry ∈ remotes providers, around.respond entry.1 = .failed
  /-- A local asset was captured. -/
  captured : ∀ entry ∈ locals providers, local_assets.get entry.2.path = some (bytes entry.1)
  /-- A cache is a safe file of at most 16 MiB. -/
  cached : ∀ entry ∈ remotes providers, ∃ dir name,
    parent_in fs root entry.2.path = .ok (dir, name) ∧ read_cache dir name MAX_SOURCE_BYTES fs = .ok (bytes entry.1)
  /-- No remote provider shares its path or its file. -/
  paths : providers.Pairwise fun a b => path_components a.2.path = path_components b.2.path →
    a.2.url.isSome = false ∧ b.2.url.isSome = false
  free : ∀ entry ∈ remotes providers, local_assets.get entry.2.path = none
  held : ∀ entry ∈ providers, ∃ file, found_of (hold_in fs root entry.2.path) = .ok file
  files : providers.Pairwise fun a b => ∀ file file', hold_in fs root a.2.path = .ok file → hold_in fs root b.2.path = .ok file' →
    file.ino = file'.ino → a.2.url.isSome = false ∧ b.2.url.isSome = false
  apart : ∀ entry ∈ remotes providers, ∀ file, hold_in fs root entry.2.path = .ok file → source ≠ some file.ino

/-- The caches under their paths. -/
def cacheEntries (bytes : String → List UInt8) (entries : Providers) : List (String × List UInt8) :=
  entries.map fun entry => (entry.2.path, bytes entry.1)

section Offline

variable {around : Surroundings} {root : Nat} {source : Option Nat} {providers : Providers}
  {local_assets : SortedMap String (List UInt8)} {bytes : String → List UInt8}

/-- The paths met so far. -/
def Paths (done : Providers) (paths : List (List Component × Bool)) : Prop :=
  ∀ path remote, paths.lookup path = some remote → ∃ entry ∈ done, path_components entry.2.path = path ∧ remote = entry.2.url.isSome

theorem lookup_cons {κ β : Type} [BEq κ] [LawfulBEq κ] {key key' : κ} {value value' : β} {entries : List (κ × β)}
    (hlookup : ((key, value) :: entries).lookup key' = some value') : key = key' ∧ value = value' ∨ entries.lookup key' = some value' := by
  rw [List.lookup_cons] at hlookup
  cases heq : key' == key with
  | true =>
    rw [heq] at hlookup
    exact .inl ⟨(eq_of_beq heq).symm, Option.some.inj hlookup⟩
  | false =>
    rw [heq] at hlookup
    exact .inr hlookup

theorem Paths.cons {done : Providers} {paths : List (List Component × Bool)} (hpaths : Paths done paths) (entry : String × Provider) :
    Paths (done ++ [entry]) ((path_components entry.2.path, entry.2.url.isSome) :: paths) := by
  intro path remote hlookup
  rcases lookup_cons hlookup with ⟨hpath, hremote⟩ | hlookup
  · exact ⟨entry, by simp, hpath, hremote.symm⟩
  · obtain ⟨other, hother, hsame⟩ := hpaths path remote hlookup
    exact ⟨other, List.mem_append_left _ hother, hsame⟩

/-- The first loop. -/
theorem computes_check_providers (hoffline : Offline around fs root source providers local_assets bytes) (todo : Providers) :
    ∀ (done : Providers) (paths : List (List Component × Bool)) (progress : Progress) {ledger : Nat × Nat × Nat}, done ++ todo = providers →
      Paths done paths → progress.assets = local_assets → progress.total ≤ MAX_AGGREGATE_BYTES →
      (locals todo).foldlM (account around bytes) (progress.total, progress.budgets) = .ok ledger →
      ∃ paths', Computes (Collecting fs) (todo.foldlM (check_provider around) (paths, progress))
        (.ok (paths', ⟨ledger.1, ledger.2, local_assets, progress.pending⟩)) := by
  induction todo with
  | nil =>
    intro done paths progress ledger _ _ hassets _ hledger
    obtain rfl := Except.ok.inj hledger
    exact ⟨paths, hassets ▸ computes_ofExcept (.ok (paths, progress))⟩
  | cons entry todo ih =>
    intro done paths progress ledger hdone hpaths hassets htotal hledger
    have hdone' : (done ++ [entry]) ++ todo = providers := by rw [← hdone, List.append_assoc, List.singleton_append]
    have hentry : entry ∈ providers := by simp [← hdone]
    have hlocal : ((paths.lookup (path_components entry.2.path)).any fun previous => previous || entry.2.url.isSome) = false := by
      rw [Option.any_eq_false]
      intro previous hprevious
      obtain ⟨other, hother, hsame, rfl⟩ := hpaths _ _ hprevious
      have hpair := hoffline.paths
      rw [← hdone, List.pairwise_append] at hpair
      obtain ⟨hold, hnew⟩ := hpair.2.2 other hother entry List.mem_cons_self hsame
      rw [hold, hnew]
      rfl
    have hcheck : Computes (Collecting fs) (Program.ofExcept (bail_if _ "multiple providers cannot publish the same HTTP asset path") : Sync Unit)
        (.ok ()) := computes_check (bail_if_eq_ok_iff.2 hlocal)
    cases hremote : entry.2.url.isSome with
    | true =>
      rw [locals, List.filter_cons_of_neg (by simp [hremote])] at hledger
      obtain ⟨paths', hrest⟩ := ih (done ++ [entry]) _ progress hdone' (hpaths.cons entry) hassets htotal hledger
      refine ⟨paths', Computes.bind_ok (hcheck.bind_ok ?_) hrest⟩
      simp only [hremote, if_true]
      exact computes_ofExcept _
    | false =>
      rw [locals, List.filter_cons_of_pos (by simp [hremote]), List.foldlM_cons] at hledger
      obtain ⟨next, haccount, hledger⟩ := bind_eq_ok_iff.1 hledger
      obtain ⟨total, hcost, hle, hnext, hvalid⟩ := account_eq_ok haccount
      rw [asked, hremote] at hcost
      obtain rfl := Except.ok.inj hcost
      have hget : local_assets.get entry.2.path = some (bytes entry.1) :=
        hoffline.captured entry (List.mem_filter.2 ⟨hentry, by simp [hremote]⟩)
      rw [← hassets] at hget
      obtain ⟨paths', hrest⟩ := ih (done ++ [entry]) _ { progress with total := next.1, budgets := next.2 } hdone' (hpaths.cons entry)
        hassets (hnext ▸ hle) hledger
      refine ⟨paths', Computes.bind_ok (hcheck.bind_ok ?_) hrest⟩
      simp only [hremote, Bool.false_eq_true, if_false, hnext]
      refine (computes_check (okOr_eq_ok_iff.2 hget)).bind_ok ((computes_check (add_budget_eq_ok_iff.2 ⟨hle, rfl⟩)).bind_ok ?_)
      exact (computes_set_total hle).bind_ok ((computes_check hvalid).bind_ok (computes_ofExcept _))

/-- The files held so far. -/
def Held (fs : Fs) (root : Nat) (done : Providers) (identities : Identities) : Prop :=
  ∀ ino held, identities.lookup ino = some held →
    ∃ entry ∈ done, ∃ file, hold_in fs root entry.2.path = .ok file ∧ file.ino = ino ∧ held.2 = entry.2.url.isSome

/-- The second loop. -/
theorem stays_hold_providers (hoffline : Offline around fs root source providers local_assets bytes) :
    Stays (Collecting fs) (hold_providers around root source providers) (fun _ => True) fun _ => False := by
  unfold hold_providers
  split_ifs
  · exact stays_pure trivial
  · refine stays_lift ((stays_foldlM providers (Held fs root) (fun _ _ hlookup => by cases hlookup) ?_).mono (fun _ _ => trivial) fun _ h => h)
    intro done entry identities hdone hheld
    have hentry : entry ∈ providers := hdone.subset (by simp)
    obtain ⟨file, hfile⟩ := hoffline.held entry hentry
    have hfound := computes_found (@computes_hold fs _ hoffline.quiet root entry.2.path)
    rw [hfile] at hfound
    refine (hfound.mono (fun value hvalue => hvalue) nofun).bind fun value hvalue => ?_
    obtain rfl := Except.ok.inj hvalue
    cases file with
    | none =>
      refine stays_pure fun ino held hlookup => ?_
      obtain ⟨other, hother, hsame⟩ := hheld ino held hlookup
      exact ⟨other, List.mem_append_left _ hother, hsame⟩
    | some file =>
      have hholds : hold_in fs root entry.2.path = .ok file := by
        unfold found_of at hfile
        split at hfile
        · next heq => rw [heq, Option.some.inj (Except.ok.inj hfile)]
        · cases hfile
        · cases hfile
      have hnew : ((identities.lookup file.ino).any fun previous => entry.2.url.isSome || previous.2) = false := by
        rw [Option.any_eq_false]
        intro previous hprevious
        obtain ⟨other, hother, file', hfile', hino, hremote⟩ := hheld _ _ hprevious
        have hpair := hoffline.files.sublist hdone.sublist
        rw [List.pairwise_append] at hpair
        obtain ⟨hold, hnew⟩ := hpair.2.2 other hother entry List.mem_cons_self file' file hfile' hholds hino
        rw [hremote, hold, hnew]
        rfl
      have hnext : Held fs root (done ++ [entry]) ((file.ino, entry.2.path, entry.2.url.isSome) :: identities) := by
        intro ino held hlookup
        rcases lookup_cons hlookup with ⟨hino, rfl⟩ | hlookup
        · exact ⟨entry, by simp, file, hholds, hino, rfl⟩
        · obtain ⟨other, hother, hsame⟩ := hheld ino held hlookup
          exact ⟨other, List.mem_append_left _ hother, hsame⟩
      have hlast : Stays (fun w : World => w.fs = fs) (do
          Program.ofExcept (bail_if ((identities.lookup file.ino).any fun previous => entry.2.url.isSome || previous.2)
            "multiple providers cannot publish the same HTTP asset file")
          return (file.ino, entry.2.path, entry.2.url.isSome) :: identities : Prog Identities) (Held fs root (done ++ [entry])) fun _ => False := by
        rw [hnew]
        exact stays_pure hnext
      cases hremote : entry.2.url.isSome with
      | false =>
        simp only [hremote, Bool.false_eq_true, if_false] at hlast ⊢
        exact hlast
      | true =>
        have hapart := hoffline.apart entry (List.mem_filter.2 ⟨hentry, hremote⟩) file hholds
        have hcollision : reject_source_collision (some file) source = .ok () := by
          rw [reject_source_collision, bail_if_eq_ok_iff]
          exact beq_eq_false_iff_ne.2 hapart
        simp only [hremote, if_true, hcollision] at hlast ⊢
        exact hlast

/-- Remote providers have different paths. -/
theorem Offline.path_ne (hoffline : Offline around fs root source providers local_assets bytes) :
    (remotes providers).Pairwise fun a b => a.2.path ≠ b.2.path := by
  refine (hoffline.paths.filter _).imp_of_mem fun {a} {b} ha _ hsame heq => ?_
  have hremote := (List.mem_filter.1 ha).2
  rw [(hsame (congrArg path_components heq)).1] at hremote
  cases hremote

theorem lastEntry_cacheEntries_eq_none {entries : Providers} {path : String} (hnone : ∀ entry ∈ entries, entry.2.path ≠ path) :
    SortedMap.lastEntry path (cacheEntries bytes entries) = none := by
  refine SortedMap.lastEntry_eq_none fun cached hcached => ?_
  obtain ⟨entry, hentry, rfl⟩ := List.mem_map.1 hcached
  exact hnone entry hentry

/-- Every provider finds its bytes under its path. -/
theorem Offline.get_insertAll (hoffline : Offline around fs root source providers local_assets bytes)
    (hentry : entry ∈ providers) :
    (local_assets.insertAll (cacheEntries bytes (remotes providers))).get entry.2.path = some (bytes entry.1) := by
  rw [SortedMap.get_insertAll]
  cases hremote : entry.2.url.isSome with
  | true =>
    have hmem : entry ∈ remotes providers := List.mem_filter.2 ⟨hentry, hremote⟩
    obtain ⟨front, back, hsplit⟩ := List.append_of_mem hmem
    have hpair := hoffline.path_ne
    rw [hsplit, List.pairwise_append, List.pairwise_cons] at hpair
    have hback := @lastEntry_cacheEntries_eq_none bytes back entry.2.path fun other hother => (hpair.2.1.1 other hother).symm
    rw [hsplit, cacheEntries, List.map_append, SortedMap.lastEntry_append, List.map_cons, SortedMap.lastEntry, ← cacheEntries, hback,
      if_pos rfl, Option.none_or, Option.some_or, Option.some_or]
  | false =>
    have hlocal : entry ∈ locals providers := List.mem_filter.2 ⟨hentry, by simp [hremote]⟩
    rw [lastEntry_cacheEntries_eq_none fun other hother heq => ?_, Option.none_or, hoffline.captured entry hlocal]
    obtain ⟨hother, hurl⟩ := List.mem_filter.1 hother
    have hne : other ≠ entry := by
      rintro rfl
      rw [hremote] at hurl
      cases hurl
    have : Std.Symm fun a b : String × Provider => path_components a.2.path = path_components b.2.path →
        a.2.url.isSome = false ∧ b.2.url.isSome = false := ⟨fun _ _ hab heq => (hab heq.symm).symm⟩
    have hsame := hoffline.paths.forall hother hentry hne (congrArg path_components heq)
    rw [hsame.1] at hurl
    cases hurl

/-- The third loop. -/
theorem computes_fetch_providers (hoffline : Offline around fs root source providers local_assets bytes) (todo : Providers) :
    ∀ (done : Providers) (progress : Progress) {ledger : Nat × Nat × Nat}, done ++ todo = remotes providers →
      progress.assets = local_assets.insertAll (cacheEntries bytes done) → progress.total ≤ MAX_AGGREGATE_BYTES →
      todo.foldlM (account around bytes) (progress.total, progress.budgets) = .ok ledger →
      Computes (Collecting fs) (todo.foldlM (fetch_provider around root .Eager source) progress)
        (.ok ⟨ledger.1, ledger.2, local_assets.insertAll (cacheEntries bytes (remotes providers)), progress.pending⟩) := by
  induction todo with
  | nil =>
    intro done progress ledger hdone hassets _ hledger
    obtain rfl := Except.ok.inj hledger
    rw [List.append_nil] at hdone
    rw [← hdone, ← hassets]
    exact computes_ofExcept (.ok progress)
  | cons entry todo ih =>
    intro done progress ledger hdone hassets htotal hledger
    have hmem : entry ∈ remotes providers := by simp [← hdone]
    obtain ⟨next, haccount, hledger⟩ := bind_eq_ok_iff.1 hledger
    obtain ⟨dir, name, hparent, hread⟩ := hoffline.cached entry hmem
    obtain ⟨hlength, file, hcache⟩ := cacheAt_of_read hparent hread
    have hholds : hold_in fs root entry.2.path = .ok file := by
      obtain ⟨file', hfile'⟩ := hoffline.held entry (List.mem_filter.1 hmem).1
      have hhold : hold_in fs root entry.2.path = (do
          bail_if ((hold_cache_source dir LOCK fs).toOption.any fun lock => lock.ino == file.ino) "reserved HTTP rule-provider cache file"
          return file) := by
        unfold hold_in
        rw [hparent]
        change (hold_cache_source dir name fs >>= _) = _
        rw [hcache.held]
        rfl
      rw [hhold] at hfile' ⊢
      cases hlock : (hold_cache_source dir LOCK fs).toOption.any fun lock => lock.ino == file.ino with
      | false => rfl
      | true =>
        rw [hlock] at hfile'
        cases hfile'
    have hpair := hoffline.path_ne
    rw [← hdone, List.pairwise_append] at hpair
    have hfree : progress.assets.get entry.2.path = none := by
      rw [hassets, SortedMap.get_insertAll, hoffline.free entry hmem, Option.or_none]
      exact lastEntry_cacheEntries_eq_none fun other hother => hpair.2.2 other hother entry List.mem_cons_self
    have hfetch := computes_fetch_provider hoffline.quiet hoffline.client (hoffline.failed entry hmem) (List.mem_filter.1 hmem).2 hcache hlength
      (hoffline.apart entry hmem file hholds) hfree htotal haccount
    obtain ⟨total, -, hle, hnext, -⟩ := account_eq_ok haccount
    refine hfetch.bind_ok (ih (done ++ [entry]) _ (by simp [← hdone]) ?_ (hnext ▸ hle) hledger)
    rw [cacheEntries, List.map_append, SortedMap.insertAll_append, ← cacheEntries, ← hassets]
    rfl

end Offline

/-! ## Caches of one byte -/

def noNetwork : Surroundings where
  crates := Crates.json
  host := ⟨fun _ => none, fun _ _ => 0, fun _ => false⟩
  client := true
  respond _ := .failed
  now _ := 0
  modified _ := none

def declaredValue (names : List String) : Value :=
  .object [("rule-providers", .object (names.map fun name => (name, .object
    [("behavior", .string "domain"), ("path", .string name), ("type", .string "http"), ("url", .string "https://h")])))]

def declared (names : List String) : Providers :=
  names.map fun name => (name, ⟨"http", "domain", name, some "https://h", 86400⟩)

/-- Each cache is a comment sign. -/
def cachedWorld (names : List String) : World where
  fs := names.foldl (fun fs name => (Fs.create 0 name fs).2.append fs.next [35]) .initial
  tick := 0
  durability_uncertain := false

section Names

variable {names : List String} (hnames : names = ["a"] ∨ names = ["a", "b", "c", "d"])

include hnames

theorem declarations_declared : declarations noNetwork.crates (serde_json.to_string (declaredValue names)) = .ok (declared names) := by
  have hread : yaml_value Crates.json (serde_json.to_string (declaredValue names)) = .ok (declaredValue names) := by
    refine Crates.lawful_json.reads _ ?_ ?_
    · rcases hnames with rfl | rfl <;> decide +kernel
    · rcases hnames with rfl | rfl <;> decide +kernel
  unfold declarations parse_document
  rw [show noNetwork.crates = Crates.json from rfl, hread]
  rcases hnames with rfl | rfl <;> rfl

theorem offline_cachedWorld : Offline noNetwork (cachedWorld names).fs 0 none (declared names) SortedMap.empty fun _ => [35] where
  quiet := ⟨fun _ => rfl, fun _ => rfl⟩
  client := rfl
  failed _ _ := rfl
  captured := by rcases hnames with rfl | rfl <;> decide +kernel
  cached := by
    intro entry hentry
    refine ⟨0, entry.2.path, ?_, ?_⟩
    · revert entry
      rcases hnames with rfl | rfl <;> decide +kernel
    · revert entry
      rcases hnames with rfl | rfl <;> decide +kernel
  paths := by rcases hnames with rfl | rfl <;> decide +kernel
  free _ _ := rfl
  held := by
    have hfound : ∀ entry ∈ declared names, (found_of (hold_in (cachedWorld names).fs 0 entry.2.path)).isOk = true := by
      rcases hnames with rfl | rfl <;> decide +kernel
    intro entry hentry
    cases hfile : found_of (hold_in (cachedWorld names).fs 0 entry.2.path) with
    | ok file => exact ⟨file, rfl⟩
    | error error =>
      have hok := hfound entry hentry
      rw [hfile] at hok
      cases hok
  files := by
    have hfiles : (declared names).Pairwise fun a b => (hold_in (cachedWorld names).fs 0 a.2.path).toOption.map (·.ino) ≠
        (hold_in (cachedWorld names).fs 0 b.2.path).toOption.map (·.ino) := by
      rcases hnames with rfl | rfl <;> decide +kernel
    refine hfiles.imp fun {a} {b} hne file file' hfile hfile' hino => absurd ?_ hne
    rw [hfile, hfile']
    exact congrArg some hino
  apart _ _ _ _ := nofun

theorem asset_budget_declared :
    asset_budget ((SortedMap.empty : SortedMap String (List UInt8)).insertAll (cacheEntries (fun _ => [35]) (remotes (declared names)))).entries =
      .ok () := by
  rcases hnames with rfl | rfl <;> rfl

end Names

end zc.config
