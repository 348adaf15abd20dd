import Zc.Config.Parse
import Zc.Fsutil.SecureDir
import Zc.Lib.SortedMap

/-!
# Synchronising HTTP providers

`sync_http_assets` of `config_provider.rs`: it takes each remote provider's bytes from the network or
from its cache below the source root, checks them and the whole configuration, and only then writes
the caches that are new. Instants are seconds since the epoch.
-/

namespace zc.config

open fsutil (Fs Host Prog World Metadata)

inductive ProviderSyncPolicy where
  | Eager
  | MissingOnly
  deriving DecidableEq

/-- What a request gives: an error before the response, or a response whose body ends, or breaks off, after some chunks. -/
inductive Response where
  | failed
  | answered (content_length : Option Nat) (status : Nat) (chunks : List (List UInt8)) (complete : Bool)

/-- What is outside: the crates, the machine, whether an HTTP client can be built, the response to each provider's request, the
    clock at that time, and when its cache was modified. -/
structure Surroundings where
  crates : Crates
  host : Host
  client : Bool
  respond : String → Response
  now : String → Nat
  modified : String → Option Nat

/-- The file system, every value the variable `total` had, and whether a subtraction has overflowed. -/
structure Run where
  world : World
  totals : List Nat
  underflow : Bool

abbrev Sync (α : Type) := Program fsutil.Step Run Error α

variable {α : Type}

/-- A program on the file system. -/
def lift (prog : Prog α) : Sync α := fun run =>
  let outcome := prog run.world
  ⟨outcome.result, { run with world := outcome.state }, outcome.steps.map fun step => (step.1, { run with world := step.2 })⟩

/-- The variable `total` gets a value. -/
def set_total (total : Nat) : Sync Unit :=
  .query fun run => (.ok (), { run with totals := run.totals ++ [total] })

/-- `a - b` of machine integers. -/
def minus (a b : Nat) : Sync Nat :=
  .query fun run =>
    if b ≤ a then (.ok (a - b), run)
    else (.error (.panic "attempt to subtract with overflow"), { run with underflow := true })

/-! ## Downloads -/

/-- The loop over the chunks of a body. -/
def receive (limit : Nat) (success complete : Bool) : List (List UInt8) → List UInt8 → Nat → Sync (Option (List UInt8) × Nat)
  | [], bytes, total =>
    if complete then return (if success then some bytes else none, total)
    else do
      let rest ← minus limit bytes.length
      set_total (total + rest)
      return (none, total + rest)
  | chunk :: chunks, bytes, total => do
    let rest ← minus limit bytes.length
    .ofExcept (bail_if (decide (rest < chunk.length)) "rule-provider HTTP body exceeds source byte limit")
    set_total (total + chunk.length)
    receive limit success complete chunks (bytes ++ chunk) (total + chunk.length)

/-- What was downloaded, if anything, and the new total. -/
def download (response : Response) (total : Nat) : Sync (Option (List UInt8) × Nat) := do
  let remaining ← minus MAX_AGGREGATE_BYTES total
  let limit := min MAX_SOURCE_BYTES remaining
  .ofExcept (bail_if (decide (limit = 0)) "rule-provider aggregate source bytes limit exceeded")
  match response with
  | .failed => do
    set_total (total + limit)
    return (none, total + limit)
  | .answered content_length status chunks complete => do
    .ofExcept (bail_if (content_length.any fun length => decide (limit < length))
      "rule-provider HTTP body exceeds source byte limit")
    receive limit (status == 200) complete chunks [] total

/-! ## Cache files -/

inductive Component where
  | RootDir
  | CurDir
  | ParentDir
  | Normal (name : String)
  deriving DecidableEq

/-- `Path::components`. -/
def path_components (path : String) : List Component :=
  let pieces := str.split path '/'
  (if str.startsWith path "/" then [.RootDir] else if pieces.head? = some "." then [.CurDir] else []) ++
    (pieces.filter fun piece => piece != "" && piece != ".").map fun piece => if piece = ".." then .ParentDir else .Normal piece

def Component.name : Component → Option String
  | .Normal name => some name
  | _ => none

/-- The directories above a cache and its name. -/
def cache_names (path : String) : Result (List String × String) :=
  match (path_components path).mapM Component.name with
  | some names =>
    match names.getLast? with
    | some name =>
      if 64 < names.length then bail "HTTP rule-provider cache path must be relative and root-contained"
      else .ok (names.dropLast, name)
    | none => bail "HTTP rule-provider cache path must be relative and root-contained"
  | none => bail "HTTP rule-provider cache path must be relative and root-contained"

def LOCK : String := ".provider-cache.lock"

/-- `SecureDir::owned_child` of an existing directory that need not be private. -/
def owned_child (dir : Nat) (name : String) (fs : Fs) : Result Nat := do
  fsutil.component name
  let m ← fs.open_directory dir name
  fsutil.check_metadata m true false
  ensure (m.mode &&& 0o022 == 0) (fsutil.invalid "unsafe directory permissions")
  return m.ino

def open_owned_child (host : Host) (create : Bool) (dir : Nat) (name : String) : Prog Nat := do
  .ofExcept (fsutil.component name)
  if create then host.create_child dir name
  host.observe (owned_child dir name)

/-- The directory of a cache and its name there. -/
def cache_parent (host : Host) (root : Nat) (path : String) (create : Bool) : Prog (Nat × String) := do
  let (parents, name) ← .ofExcept (cache_names path)
  let parent ← parents.foldlM (open_owned_child host create) root
  .ofExcept (bail_if (name == LOCK) "reserved HTTP rule-provider cache path")
  return (parent, name)

def hold_cache_source (dir : Nat) (name : String) (fs : Fs) : Result Metadata :=
  fs.open_checked_file dir name false false

def cache_metadata (dir : Nat) (name : String) (fs : Fs) : Result Metadata :=
  fs.open_cache_file dir name

def read_cache (dir : Nat) (name : String) (limit : Nat) (fs : Fs) : Result (List UInt8) := do
  let m ← fs.open_cache_file dir name
  fs.read_bounded m limit 0o022

/-- What is there, or nothing where it is missing. -/
def found (prog : Prog α) : Prog (Option α) := do
  match ← prog.attempt with
  | .ok value => return some value
  | .error (.io .NotFound _) => return none
  | .error error => fsutil.fail error

def reject_source_collision (cache : Option Metadata) (source : Option Nat) : Result Unit :=
  bail_if (cache.any fun m => source == some m.ino) "HTTP rule-provider cache must not overwrite the configuration source"

/-! ## Candidates -/

/-- One entry of a candidate. -/
def validate_entry (crates : Crates) (behavior : String) (budgets : Nat × Nat) (entry : String) : Result (Nat × Nat) := do
  let count ← add_budget budgets.1 1 MAX_RULES "rule-provider aggregate entry count limit exceeded"
  let normalized ← add_budget budgets.2 (str.len entry) MAX_AGGREGATE_BYTES
    "rule-provider aggregate normalized bytes limit exceeded"
  let _ ← provider_rule crates entry behavior [("DIRECT", 0), ("REJECT", 1)]
  return (count, normalized)

/-- The budgets of entries and their bytes after a candidate. -/
def validate_candidate (crates : Crates) (provider : Provider) (bytes : List UInt8) (budgets : Nat × Nat) : Result (Nat × Nat) := do
  let source ← okOr (str.from_utf8 bytes) (.message "rule-provider source must be UTF-8")
  let entries ← entries crates source provider.behavior
  entries.foldlM (validate_entry crates provider.behavior) budgets

/-! ## The synchronisation -/

/-- The variables of the loops. -/
structure Progress where
  total : Nat
  budgets : Nat × Nat
  assets : SortedMap String (List UInt8)
  /-- The providers whose cache is to be written. -/
  pending : List (String × Provider)

/-- One turn of the first loop, which rejects two providers of one path and checks local assets. -/
def check_provider (around : Surroundings) (state : List (List Component × Bool) × Progress) (entry : String × Provider) :
    Sync (List (List Component × Bool) × Progress) := do
  let (paths, progress) := state
  let provider := entry.2
  let remote := provider.url.isSome
  let path := path_components provider.path
  .ofExcept (bail_if ((paths.lookup path).any fun previous => previous || remote)
    "multiple providers cannot publish the same HTTP asset path")
  let paths := (path, remote) :: paths
  if remote then return (paths, progress)
  else do
    let bytes ← .ofExcept (okOr (progress.assets.get provider.path) (.message "missing immutable rule-provider asset"))
    let total ← .ofExcept (add_budget progress.total bytes.length MAX_AGGREGATE_BYTES
      "rule-provider aggregate source bytes limit exceeded")
    set_total total
    let budgets ← .ofExcept (validate_candidate around.crates provider bytes progress.budgets)
    return (paths, { progress with total, budgets })

/-- The file a provider's path leads to, unless it is the lock of the caches. -/
def hold (host : Host) (root : Nat) (path : String) : Prog Metadata := do
  let (parent, name) ← cache_parent host root path false
  let file ← host.observe (hold_cache_source parent name)
  let lock ← (host.observe (hold_cache_source parent LOCK)).attempt
  .ofExcept (bail_if (lock.toOption.any fun lock => lock.ino == file.ino) "reserved HTTP rule-provider cache file")
  return file

/-- The identities of the files held, with the path and whether it is that of a remote provider. -/
abbrev Identities := List (Nat × String × Bool)

def hold_provider (around : Surroundings) (root : Nat) (source : Option Nat) (identities : Identities) (entry : String × Provider) :
    Prog Identities := do
  let provider := entry.2
  match ← found (hold around.host root provider.path) with
  | none => return identities
  | some file => do
    let remote := provider.url.isSome
    if remote then .ofExcept (reject_source_collision (some file) source)
    .ofExcept (bail_if ((identities.lookup file.ino).any fun previous => remote || previous.2)
      "multiple providers cannot publish the same HTTP asset file")
    return (file.ino, provider.path, remote) :: identities

def is_fresh (around : Surroundings) (policy : ProviderSyncPolicy) (name : String) (provider : Provider) (cached : Bool) : Bool :=
  cached && (policy == .MissingOnly || (around.modified name).any fun modified =>
    decide (0 < modified) && decide (around.now name - modified < provider.interval))

/-- What a request brings, if one is made. -/
def candidate (around : Surroundings) (name : String) (fresh cached : Bool) (total : Nat) : Sync (Option (List UInt8) × Nat) :=
  if fresh then return (none, total)
  else do
    .ofExcept (bail_if (!around.client) "cannot initialize rule-provider HTTP client")
    let (candidate, total) ← download (around.respond name) total
    .ofExcept (bail_if (candidate.isNone && !cached) "rule-provider download failed or timed out; no valid cache available")
    return (candidate, total)

/-- The bytes of a cache and the new total. -/
def use_cache (around : Surroundings) (parent : Option (Nat × String)) (total : Nat) : Sync (List UInt8 × Nat) := do
  let (dir, name) ← .ofExcept (okOr parent (.message "rule-provider cache disappeared"))
  let remaining ← minus MAX_AGGREGATE_BYTES total
  let bytes ← lift (around.host.observe (read_cache dir name (min MAX_SOURCE_BYTES remaining)))
  let total ← .ofExcept (add_budget total bytes.length MAX_AGGREGATE_BYTES "rule-provider aggregate source bytes limit exceeded")
  set_total total
  return (bytes, total)

/-- What is known of an existing cache. -/
def existing (around : Surroundings) : Option (Nat × String) → Sync (Option Metadata)
  | some (dir, file) => lift (found (around.host.observe (cache_metadata dir file)))
  | none => pure none

/-- The bytes of a provider, new or cached, and the new total. -/
def provide (around : Surroundings) (parent : Option (Nat × String)) : Option (List UInt8) × Nat → Sync (List UInt8 × Nat)
  | (some bytes, total) => pure (bytes, total)
  | (none, total) => use_cache around parent total

/-- One turn of the loop over the remote providers. -/
def fetch_provider (around : Surroundings) (root : Nat) (policy : ProviderSyncPolicy) (source : Option Nat) (progress : Progress)
    (entry : String × Provider) : Sync Progress := do
  let (name, provider) := entry
  let parent ← lift (found (cache_parent around.host root provider.path false))
  let metadata ← existing around parent
  .ofExcept (reject_source_collision metadata source)
  let fresh := is_fresh around policy name provider metadata.isSome
  let received ← candidate around name fresh metadata.isSome progress.total
  let (bytes, total) ← provide around parent received
  let budgets ← .ofExcept (validate_candidate around.crates provider bytes progress.budgets)
  .ofExcept (bail_if (progress.assets.get provider.path).isSome "conflicting HTTP rule-provider asset path")
  return {
    total
    budgets
    assets := progress.assets.insert provider.path bytes
    pending := if received.1.isSome then progress.pending ++ [entry] else progress.pending }

def remotes (providers : Providers) : Providers :=
  providers.filter fun entry => entry.2.url.isSome

/-- The files of all providers, if any is remote. -/
def hold_providers (around : Surroundings) (root : Nat) (source : Option Nat) (providers : Providers) : Sync Identities :=
  if remotes providers = [] then pure []
  else lift (providers.foldlM (hold_provider around root source) [])

/-- Everything before the first write: the assets, the providers whose cache is to be written, and the files held. -/
def collect (around : Surroundings) (root : Nat) (policy : ProviderSyncPolicy) (source : Option Nat) (providers : Providers)
    (local_assets : SortedMap String (List UInt8)) : Sync (Progress × Identities) := do
  .ofExcept (asset_budget local_assets.entries)
  set_total 0
  let start : Progress := { total := 0, budgets := (0, 0), assets := local_assets, pending := [] }
  let (_, progress) ← providers.foldlM (check_provider around) ([], start)
  let identities ← hold_providers around root source providers
  let progress ← (remotes providers).foldlM (fetch_provider around root policy source) progress
  .ofExcept (asset_budget progress.assets.entries)
  return (progress, identities)

/-- An existing destination is still the provider's own. -/
def check_destination (metadata : Metadata) (lock : Nat) (identities : Identities) (path : String) : Result Unit := do
  bail_if (metadata.ino == lock) "reserved HTTP rule-provider cache file"
  bail_if ((identities.lookup metadata.ino).any fun held => held.1 != path) "multiple providers cannot publish the same HTTP asset file"

/-- Writes one cache. -/
def publish_provider (around : Surroundings) (root : Nat) (source : Option Nat) (assets : SortedMap String (List UInt8))
    (identities : Identities) (entry : String × Provider) : Prog Identities := do
  let host := around.host
  let path := entry.2.path
  let bytes ← .ofExcept (okOr (assets.get path) (.panic "no entry found for key"))
  let (parent, name) ← cache_parent host root path true
  let lock ← host.lock parent LOCK 5
  let current ← found (host.observe (cache_metadata parent name))
  .ofExcept (reject_source_collision current source)
  match current with
  | some metadata => .ofExcept (check_destination metadata lock identities path)
  | none => pure ()
  let _ ← host.write_cache parent name bytes
  let file ← host.observe (hold_cache_source parent name)
  return (file.ino, path, true) :: identities

/-- Writes the caches that are new. -/
def publish (around : Surroundings) (root : Nat) (source : Option Nat) (progress : Progress) (identities : Identities) :
    Sync Unit := do
  let _ ← lift (progress.pending.foldlM (publish_provider around root source progress.assets) identities)
  return ()

def declarations (crates : Crates) (source : String) : Result Providers := do
  let document ← parse_document crates source
  let providers ← match document.get "rule-providers" with
    | none => pure []
    | some value => okOr (Value.mapping Provider.deserialize value) (.message "invalid rule-provider declarations")
  validate crates providers
  return providers

/-- Everything after the collection: the configuration is accepted before the first write. -/
def finish (around : Surroundings) (source : String) (root : Nat) (protected_source : Option Nat) :
    Progress × Identities → Sync (SortedMap String (List UInt8))
  | (progress, identities) =>
    if progress.pending = [] then return progress.assets
    else do
      let _ ← .ofExcept (Config.parse_with_assets around.crates source progress.assets.entries)
      publish around root protected_source progress identities
      return progress.assets

/-- `protected_source` is the file of the configuration, which no cache may replace. -/
def sync_http_assets (around : Surroundings) (source : String) (root : Nat) (policy : ProviderSyncPolicy)
    (local_assets : SortedMap String (List UInt8)) (protected_source : Option Nat) : Sync (SortedMap String (List UInt8)) := do
  let providers ← .ofExcept (declarations around.crates source)
  let collected ← collect around root policy protected_source providers local_assets
  finish around source root protected_source collected

end zc.config
