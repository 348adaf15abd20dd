import Zc.Config.Named
import Zc.Daemon.Prepared

/-!
# The control of a running instance

`Control::select` applies the selections of the catalog to a running instance: it freezes them in
a snapshot, changes the live configuration, publishes a descriptor that names the snapshot, and takes
the change back if the descriptor cannot be published. Every step outside the process may fail, and
other clients change the catalog until its lock is taken.
-/

namespace zc.daemon

open store

/-- What the daemon uses of `std::path` and of the old runtime's serializer. -/
structure Host where
  platform : Platform
  join : String → String → String
  parent : String → Option String
  file_name : String → Option String
  extension : String → Option String
  /-- The record in an authenticated file of the old runtime. -/
  zig_prepared : List UInt8 → Descriptor → Result Prepared

/-- The calls of `load_snapshot` and `save_snapshot` in one `select`. -/
inductive Phase where
  | freeze
  | save
  | cleanup

/-- The steps that may fail. -/
inductive Step where
  | store_open
  | root_open (turn : Nat)
  | state_lock (turn : Nat)
  | state_read (turn : Nat)
  | state_validate (turn : Nat)
  | daemon_lock
  | key_lock (phase : Phase)
  | key_exists (phase : Phase)
  | key_fill
  | key_write
  | key_sync
  | key_read (phase : Phase)
  | snapshot_read (phase : Phase)
  | snapshot_exists
  | snapshot_write
  | snapshot_sync
  | publish
  | remove

/-- What one call of `select` meets outside the process. -/
structure Outside (platform : Platform) where
  /-- The steps that fail. -/
  fault : Step → Option Error
  /-- What a failed write leaves of its file. -/
  leftover : Step → Option (List UInt8)
  /-- The bytes of a new snapshot key. -/
  random : List UInt8
  /-- The outcomes of `observe`. -/
  observed : Result (Option Descriptor)
  observed_again : Result (Option Descriptor)
  /-- What `Store::load` returns in each turn of `desired_guard`. -/
  load : Nat → Result Catalog
  canonical : ∀ turn catalog, load turn = .ok catalog → catalog.Canonical platform
  /-- The bytes of `state-v2.json` once its lock is taken. -/
  state : Nat → List UInt8

/-- A control with the files of its runtime directory and the bytes of `state-v2.json`. -/
structure Control where
  path : String
  config : config.Config
  descriptor : Descriptor
  persisted : SortedMap String Unit
  stopped : Bool
  files : String → Option (List UInt8)
  authority : List UInt8

abbrev Action := Program Step Control Error

section

variable {α : Type} {platform : Platform} (env : Outside platform)

/-- A step that succeeds or fails as the environment says. -/
def attempt (step : Step) : Action Unit :=
  .query fun self => (match env.fault step with
    | some error => .error error
    | none => .ok (), self)

def getSelf : Action Control :=
  .query fun self => (.ok self, self)

def put (step : Step) (f : Control → Control) : Action Unit :=
  .step step fun self => (.ok (), f self)

def Control.write (self : Control) (name : String) (content : Option (List UInt8)) : Control :=
  { self with files := Function.update self.files name content }

/-! ## Files of the runtime directory -/

/-- `SecureDir::read`. -/
def read (step : Step) (name : String) (limit : Nat) : Action (List UInt8) := do
  attempt env step
  let self ← getSelf
  let bytes ← Program.ofExcept (okOr (self.files name) fsutil.not_found)
  Program.ofExcept (ensure (bytes.length ≤ limit) (.io .InvalidData "private file exceeds byte limit"))
  return bytes

/-- `SecureDir::write_new`; a failed write may leave a part of the file. -/
def write_new (step : Step) (name : String) (bytes : List UInt8) : Action Unit :=
  .step step fun self =>
    if (self.files name).isSome then (.error (.io .AlreadyExists "File exists"), self)
    else match env.fault step with
      | some error => (.error error, self.write name (env.leftover step))
      | none => (.ok (), self.write name (some bytes))

/-- `publish`: the descriptor file is replaced at once or not at all. -/
def publish (descriptor : Descriptor) : Action Unit :=
  .step .publish fun self => match env.fault .publish with
    | some error => (.error error, self)
    | none => (.ok (), self.write DESCRIPTOR (some (line descriptor.encode)))

def snapshot_key (phase : Phase) (create : Bool) : Action (List UInt8) := do
  attempt env (.key_lock phase)
  attempt env (.key_exists phase)
  let self ← getSelf
  if (self.files "zc.prepared.key").isNone && create then do
    attempt env .key_fill
    write_new env .key_write "zc.prepared.key" env.random
    attempt env .key_sync
  let key ← read env (.key_read phase) "zc.prepared.key" 32
  Program.ofExcept (ensure (key.length == 32) (.message "START_SNAPSHOT_INVALID: invalid snapshot key"))
  return key

def save_snapshot (prepared : Prepared) (nonce : String) : Action String := do
  let bytes := line (snapshot_of prepared nonce).encode
  Program.ofExcept (ensure (bytes.length ≤ SNAPSHOT_LIMIT) (.message "START_SNAPSHOT_INVALID: snapshot too large"))
  let key ← snapshot_key env .save true
  let name := snapshot_name (hmac platform key bytes) nonce
  attempt env .snapshot_exists
  let self ← getSelf
  if (self.files name).isSome then do
    let found ← read env (.snapshot_read .save) name SNAPSHOT_LIMIT
    Program.ofExcept (ensure (found == bytes) (.message "START_SNAPSHOT_INVALID: immutable snapshot changed"))
  else do
    write_new env .snapshot_write name bytes
    attempt env .snapshot_sync
  return name

/-- The bytes of a prepared file whose name carries their authentication code. -/
def read_authenticated (phase : Phase) (name mac : String) (limit : Nat) : Action (List UInt8) := do
  let bytes ← read env (.snapshot_read phase) name limit
  let key ← snapshot_key env phase false
  Program.ofExcept (ensure (hmac platform key bytes == mac)
    (.message "START_SNAPSHOT_INVALID: snapshot authentication failed"))
  return bytes

def load_snapshot (phase : Phase) (name nonce : String) : Action Prepared := do
  Program.ofExcept (ensure (valid_hex nonce 32 && fsutil.single_component name)
    (.message "START_SNAPSHOT_INVALID: invalid snapshot name"))
  let mac ← Program.ofExcept (okOr (prepared_parts name "snapshot" (· == nonce))
    (.message "START_SNAPSHOT_INVALID: invalid snapshot name"))
  let bytes ← read_authenticated env phase name mac SNAPSHOT_LIMIT
  let snapshot ← Program.ofExcept (okOr ((platform.from_slice bytes).bind Snapshot.decode)
    (.message "START_SNAPSHOT_INVALID: invalid snapshot fields"))
  Program.ofExcept (ensure (snapshot.nonce == nonce &&
      (snapshot.schema_version == 1 && snapshot.prepared.controller_secret.isNone ||
        snapshot.schema_version == 2 && snapshot.prepared.controller_secret.isSome))
    (.message "START_SNAPSHOT_INVALID: invalid snapshot schema or nonce"))
  if snapshot.prepared.controller_secret.isSome then
    let _ ← Program.ofExcept (mapErr (.message "START_SNAPSHOT_INVALID: invalid controller secret overlay")
      (parse_config platform snapshot.prepared))
  return snapshot.prepared

end

section

variable (host : Host) (env : Outside host.platform)

def load_zig_prepared (phase : Phase) (name : String) (d : Descriptor) : Action Prepared := do
  Program.ofExcept (ensure (fsutil.single_component name) (.message "START_SNAPSHOT_INVALID: invalid prepared name"))
  let mac ← Program.ofExcept (okOr (prepared_parts name "yaml" fun nonce => valid_hex nonce 32)
    (.message "START_SNAPSHOT_INVALID: invalid prepared name"))
  let bytes ← read_authenticated env phase name mac (FILE_LIMIT + 16 * 1024)
  Program.ofExcept (host.zig_prepared bytes d)

/-- The path of the snapshot a descriptor names. -/
def Descriptor.config_path (d : Descriptor) : Option String :=
  d.invocation.bind (·.config_path)

def prepared_for (d : Descriptor) : Action Prepared := do
  let path ← Program.ofExcept (okOr d.config_path (.message "RUNTIME_SNAPSHOT_MISSING: exact snapshot unavailable"))
  let self ← getSelf
  Program.ofExcept (ensure (host.parent path == some self.path)
    (.message "RUNTIME_SNAPSHOT_INVALID: snapshot directory mismatch"))
  let name ← Program.ofExcept (okOr (host.file_name path) (.message "invalid snapshot path"))
  let prepared ← if host.extension path == some "yaml" then load_zig_prepared host env .freeze name d
    else load_snapshot env .freeze name d.nonce
  let cfg ← Program.ofExcept (do
    ensure (prepared.identity == d.identity && prepared.generation == d.generation)
      (.message "RUNTIME_SNAPSHOT_INVALID: snapshot identity mismatch")
    parse_config host.platform prepared)
  Program.ofExcept (ensure (client_endpoint cfg == d.endpoint)
    (.message "RUNTIME_SNAPSHOT_INVALID: snapshot identity mismatch"))
  return prepared

/-- A failed removal is only reported. -/
def remove_file (name : String) : Action Unit :=
  .step .remove fun self => match env.fault .remove with
    | some _ => (.ok (), self)
    | none => (.ok (), self.write name none)

def remove_descriptor_snapshot (d : Descriptor) : Action Unit := do
  match d.config_path with
  | none => return ()
  | some path =>
    match host.file_name path with
    | none => return ()
    | some name =>
      let self ← getSelf
      let yaml ← if str.endsWith name ".yaml" then Program.attempt (load_zig_prepared host env .cleanup name d)
        else pure (.error (.message "not a prepared file"))
      if host.parent path == some self.path && str.startsWith name "zc.prepared." then
        let loaded ← Program.attempt (load_snapshot env .cleanup name d.nonce)
        if loaded.isOk || yaml.isOk then remove_file host env name

/-! ## Selections -/

/-- `Control::validate` on what `observe` returned. -/
def validate (observed : Result (Option Descriptor)) (d : Descriptor) : Action Unit := do
  let self ← getSelf
  Program.ofExcept (ensure (!self.stopped) (.message "RUNTIME_IDENTITY_CHANGED: runtime instance changed"))
  let found ← Program.ofExcept observed
  Program.ofExcept (ensure (found == some d) (.message "RUNTIME_IDENTITY_CHANGED: runtime instance changed"))

/-- The loop of `desired_guard`. The lock is kept by the caller, so the catalog read under it stays. -/
def desired_turns (identity : ActiveIdentity) : (left turn : Nat) → Action (Option Desired)
  | 0, _ => .ofExcept (bail "RUNTIME_DESIRED_CHANGED: desired state did not stabilize")
  | left + 1, turn => do
    let before ← Program.ofExcept (env.load turn)
    attempt env (.root_open turn)
    attempt env (.state_lock turn)
    -- other clients may have written the catalog since it was loaded
    put (.state_lock turn) fun self => { self with authority := env.state turn }
    attempt env (.state_read turn)
    let self ← getSelf
    Program.ofExcept (ensure (self.authority.length ≤ CATALOG_LIMIT) (.io .InvalidData "private file exceeds byte limit"))
    attempt env (.state_validate turn)
    if self.authority ≠ line before.encode then desired_turns identity left (turn + 1)
    else return (before.profiles.find? fun p => p.key == identity.key && p.head == identity.revision).map (·.desired)

def desired_guard (identity : ActiveIdentity) : Action (Option Desired) := do
  attempt env .store_open
  desired_turns host env identity 4 0

/-- The text under a member of the request. -/
def text_of (metadata : Value) (key : String) : Option String :=
  (metadata.get key).bind Value.as_str

/-- The descriptor after the selections were applied. -/
def Descriptor.advance (d : Descriptor) (invocation : Invocation) (generation : UInt64) (path : String) : Descriptor :=
  { d with generation, invocation := some { invocation with config_path := some path } }

/-- The transaction from the desired state on: its steps run under the lock of the catalog. -/
def apply_desired (d : Descriptor) (desired : Desired) : Action Bool := do
  attempt env .daemon_lock
  validate env.observed_again d
  let frozen ← prepared_for host env d
  let frozen := { frozen with generation := desired.generation, selections := desired.selections }
  let snapshot ← save_snapshot env frozen d.nonce
  let self ← getSelf
  let previous ← Program.ofExcept self.config.selected
  let map ← Program.ofExcept (selection_map desired.selections)
  let changed ← Program.ofExcept (self.config.set_selections map.entries)
  put .daemon_lock fun self => { self with config := changed }
  let invocation ← Program.ofExcept (okOr d.invocation (.message "runtime invocation missing"))
  let next := d.advance invocation desired.generation (host.join self.path snapshot)
  match ← Program.attempt (publish env next) with
  | .error error =>
    let restored ← Program.ofExcept (changed.set_selections previous.entries)
    put .publish fun self => { self with config := restored, stopped := true }
    Program.ofExcept (.error error)
  | .ok () =>
    put .publish fun self =>
      { self with persisted := desired.selections.foldl (fun set s => set.insert s.group ()) .empty }
    remove_descriptor_snapshot host env d
    put .publish fun self => { self with descriptor := next }
    return true

def select (group proxy : String) (metadata : Value) : Action Bool := do
  let self ← getSelf
  let d := self.descriptor
  validate env.observed d
  match d.identity with
  | none => return false
  | some identity =>
    let generation := ((metadata.get "generation").bind u64).getD 0
    if text_of metadata "instance_nonce" ≠ some d.nonce ∨ text_of metadata "identity_key" ≠ some identity.key ∨
        text_of metadata "identity_revision" ≠ some identity.revision ∨ generation ≤ d.generation then
      return false
    else
      match ← desired_guard host env identity with
      | none => return false
      | some desired =>
        if desired.generation ≠ generation ∨
            !desired.selections.any fun s => s.group == group && s.proxy == proxy then return false
        else apply_desired host env d desired

end

end zc.daemon
