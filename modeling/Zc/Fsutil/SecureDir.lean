import Zc.Fsutil.Fs
import Zc.Hex
import Zc.Lib.Program

/-!
# Private directories

`SecureDir` and `FileLock` of `fsutil.rs`. A directory handle is the number of its inode. Reads are
functions of the file system; writes are programs whose durable steps are the system calls that
change a directory or a file.
-/

namespace zc.fsutil

/-- What `fstat` shows. -/
structure Metadata where
  ino : Nat
  is_dir : Bool
  is_file : Bool
  owned : Bool
  nlink : Nat
  mode : Nat
  len : Nat

def Fs.metadata (fs : Fs) : Node → Metadata
  | .dir ino => ⟨ino, true, false, (fs.inodes ino).owned, 1, (fs.inodes ino).mode, 0⟩
  | .file ino => ⟨ino, false, true, (fs.inodes ino).owned, fs.nlink ino, (fs.inodes ino).mode, (fs.inodes ino).data.length⟩
  | .symlink target => ⟨0, false, false, true, 1, 0o777, target.length⟩
  | .other => ⟨0, false, false, true, 1, 0, 0⟩

def invalid (text : String) : Error :=
  .io .InvalidData text

def not_found : Error :=
  .io .NotFound "No such file or directory"

def single_component (name : String) : Bool :=
  name != "" && name != "." && name != ".." && name.toList.all fun c => c != '/' && c != '\\' && c != '\x00'

def component (name : String) : Result Unit :=
  ensure (single_component name) (invalid "invalid storage path")

def check_metadata (m : Metadata) (directory owner_only : Bool) : Result Unit := do
  ensure (if directory then m.is_dir else m.is_file) (invalid "not a regular file or directory")
  ensure (m.owned && (directory || m.nlink == 1)) (invalid "unsafe file ownership or hard links")
  ensure (!owner_only || m.mode &&& 0o077 == 0) (invalid "permissions must be owner-only")

namespace Fs

/-- `openat` with `NOFOLLOW` and `NONBLOCK` of an existing entry. -/
def openat (fs : Fs) (dir : Nat) (name : String) (write : Bool) : Result Metadata :=
  match fs.lookup dir name with
  | none => .error not_found
  | some (.symlink _) => .error (.io .Other "Too many levels of symbolic links")
  | some (.dir ino) =>
    if write then .error (.io .Other "Is a directory") else .ok (fs.metadata (.dir ino))
  | some node => .ok (fs.metadata node)

/-- `openat` with `DIRECTORY` and `NOFOLLOW`. -/
def open_directory (fs : Fs) (dir : Nat) (name : String) : Result Metadata :=
  match fs.lookup dir name with
  | none => .error not_found
  | some (.dir ino) => .ok (fs.metadata (.dir ino))
  | some _ => .error (.io .Other "Not a directory")

def open_checked_file (fs : Fs) (dir : Nat) (name : String) (write owner_only : Bool) : Result Metadata := do
  component name
  let m ← fs.openat dir name write
  check_metadata m false owner_only
  return m

def open_file (fs : Fs) (dir : Nat) (name : String) (write : Bool) : Result Metadata :=
  fs.open_checked_file dir name write true

def open_cache_file (fs : Fs) (dir : Nat) (name : String) : Result Metadata := do
  let m ← fs.open_checked_file dir name false false
  ensure (m.mode &&& 0o022 == 0) (invalid "cache must not be group/other writable")
  return m

/-- `read_bounded` of a file that does not change meanwhile. -/
def read_bounded (fs : Fs) (m : Metadata) (limit forbidden_permissions : Nat) : Result (List UInt8) := do
  check_metadata m false false
  ensure (m.mode &&& forbidden_permissions == 0) (invalid "unsafe file permissions during capture")
  ensure (decide (m.len ≤ limit)) (invalid "file exceeds byte limit")
  return (fs.inodes m.ino).data

def read (fs : Fs) (dir : Nat) (name : String) (limit : Nat) : Result (List UInt8) := do
  let m ← fs.open_file dir name false
  fs.read_bounded m limit 0o077

/-- `SecureDir::exists`. -/
def exists_entry (fs : Fs) (dir : Nat) (name : String) : Result Bool := do
  component name
  return (fs.lookup dir name).isSome

/-- `FileLock::validate`: the held inode is still the one the name leads to. -/
def validate (fs : Fs) (dir : Nat) (name : String) (held : Nat) : Result Unit := do
  let current ← fs.open_file dir name false
  ensure (current.ino == held) (invalid "lock identity changed")

/-! ## System calls -/

def mkdirat (dir : Nat) (name : String) (fs : Fs) : Result Unit × Fs :=
  if hdir : dir < fs.next then
    match fs.lookup dir name with
    | some _ => (.error (.io .AlreadyExists "File exists"), fs)
    | none => (.ok (), fs.addDir dir name hdir)
  else (.error not_found, fs)

/-- `openat` with `CREATE` and `EXCL`. -/
def create (dir : Nat) (name : String) (fs : Fs) : Result Nat × Fs :=
  if hdir : dir < fs.next then
    match fs.lookup dir name with
    | some _ => (.error (.io .AlreadyExists "File exists"), fs)
    | none => (.ok fs.next, fs.addFile dir name hdir)
  else (.error not_found, fs)

def unlinkat (dir : Nat) (name : String) (fs : Fs) : Result Unit × Fs :=
  match fs.lookup dir name with
  | none => (.error not_found, fs)
  | some (.dir _) => (.error (.io .Other "Is a directory"), fs)
  | some _ => (.ok (), fs.remove dir name)

/-- `renameat` within one directory. Two names of one file are left alone, and only an empty
    directory is replaced by a directory. -/
def renameat (dir : Nat) (source target : String) (fs : Fs) : Result Unit × Fs :=
  match hsource : fs.lookup dir source, fs.lookup dir target with
  | none, _ => (.error not_found, fs)
  | some node, none => (.ok (), fs.move dir source target node hsource)
  | some (.dir ino), some (.dir ino') =>
    if ino = ino' ∨ fs.is_empty ino' then (.ok (), fs.move dir source target (.dir ino) hsource)
    else (.error (.io .Other "Directory not empty"), fs)
  | some (.dir _), some _ => (.error (.io .Other "Not a directory"), fs)
  | some _, some (.dir _) => (.error (.io .Other "Is a directory"), fs)
  | some node, some node' =>
    if node = node' then (.ok (), fs) else (.ok (), fs.move dir source target node hsource)

end Fs

/-! ## Programs -/

/-- A call that fails: what the error says and, for a write, how many bytes it left. -/
structure Fault where
  text : String
  written : Nat

/-- The machine a process runs on, by the number of the call: which calls fail, what the random
    source returns, and whether another process keeps a lock until the deadline. -/
structure Host where
  fault : Nat → Option Fault
  random : Nat → Nat → UInt8
  busy : Nat → Bool

structure World where
  fs : Fs
  tick : Nat
  /-- The flag of the `Store` whose calls run. -/
  durability_uncertain : Bool

inductive Step where
  | mkdir
  | create
  | write
  | link
  | unlink
  | rename
  deriving DecidableEq

abbrev Prog (α : Type) := Program Step World Error α

def fail {α : Type} (error : Error) : Prog α :=
  .ofExcept (.error error)

def World.advance (w : World) (fs : Fs) : World :=
  { w with fs := fs, tick := w.tick + 1 }

namespace Host

/-- A call that does its work or reports a fault. -/
def call {α : Type} (host : Host) (f : Fs → Result α × Fs) (w : World) : Result α × World :=
  match host.fault w.tick with
  | some fault => (.error (.io .Other fault.text), w.advance w.fs)
  | none => ((f w.fs).1, w.advance (f w.fs).2)

def syscall {α : Type} (host : Host) (label : Step) (f : Fs → Result α × Fs) : Prog α :=
  .step label (host.call f)

def observe {α : Type} (host : Host) (f : Fs → Result α) : Prog α :=
  .query (host.call fun fs => (f fs, fs))

/-- `write_all`; a failed one may have written a part. -/
def write_all (host : Host) (ino : Nat) (bytes : List UInt8) : Prog Unit :=
  .step .write fun w =>
    match host.fault w.tick with
    | some fault => (.error (.io .Other fault.text), w.advance (w.fs.append ino (bytes.take fault.written)))
    | none => (.ok (), w.advance (w.fs.append ino bytes))

def sync_all (host : Host) : Prog Unit :=
  host.observe fun _ => .ok ()

/-- `getrandom::fill` of a buffer. -/
def fill (host : Host) (count : Nat) : Prog (List UInt8) :=
  .query fun w =>
    match host.fault w.tick with
    | some fault => (.error (.io .Other fault.text), w.advance w.fs)
    | none => (.ok ((List.range count).map (host.random w.tick)), w.advance w.fs)

def nonce (host : Host) : Prog String := do
  let bytes ← host.fill 16
  return hex bytes

/-- `SecureDir::sync`. -/
def sync (host : Host) : Prog Unit :=
  host.sync_all

/-- The `mkdirat` of `SecureDir::child`: an existing entry is left to the open that follows. -/
def create_child (host : Host) (dir : Nat) (name : String) : Prog Unit := do
  match ← (host.syscall .mkdir (Fs.mkdirat dir name)).attempt with
  | .ok () => host.sync
  | .error (.io .AlreadyExists _) => pure ()
  | .error error => fail error

/-- `open_file` with exclusive creation, and the check of what was created. -/
def create_file (host : Host) (dir : Nat) (name : String) : Prog Nat := do
  .ofExcept (component name)
  let ino ← host.syscall .create (Fs.create dir name)
  host.observe fun fs => check_metadata (fs.metadata (.file ino)) false true
  return ino

def write_new (host : Host) (dir : Nat) (name : String) (bytes : List UInt8) : Prog Unit := do
  let ino ← host.create_file dir name
  host.write_all ino bytes
  host.sync_all

def remove_file (host : Host) (dir : Nat) (name : String) : Prog Unit := do
  .ofExcept (component name)
  host.syscall .unlink (Fs.unlinkat dir name)

def rename (host : Host) (dir : Nat) (source target : String) : Prog Unit := do
  .ofExcept (component source)
  .ofExcept (component target)
  host.syscall .rename (Fs.renameat dir source target)

end Host

/-- A directory sync error after visible rename does not imply rollback. -/
structure WriteReceipt where
  durability_error : Option Error

def WriteReceipt.ofSync : Result Unit → WriteReceipt
  | .ok () => ⟨none⟩
  | .error error => ⟨some error⟩

/-- An existing destination must be one that may be replaced. -/
def Fs.check_destination (fs : Fs) (dir : Nat) (name : String) (owner_only : Bool) : Result Unit :=
  match fs.lookup dir name with
  | none => .ok ()
  | some _ =>
    if owner_only then (fs.open_file dir name false).map fun _ => ()
    else (fs.open_cache_file dir name).map fun _ => ()

namespace Host

/-- The closure of `atomic_write_checked`. -/
def replace (host : Host) (dir : Nat) (temp name : String) (bytes : List UInt8) : Prog WriteReceipt := do
  host.write_new dir temp bytes
  host.rename dir temp name
  let synced ← host.sync.attempt
  return .ofSync synced

def atomic_write_checked (host : Host) (dir : Nat) (name : String) (bytes : List UInt8) (owner_only : Bool) :
    Prog WriteReceipt := do
  .ofExcept (component name)
  host.observe fun fs => fs.check_destination dir name owner_only
  let nonce ← host.nonce
  let temp := ".write-" ++ nonce
  let result ← (host.replace dir temp name bytes).attempt
  let _ ← (host.remove_file dir temp).attempt
  .ofExcept result

def write_cache (host : Host) (dir : Nat) (name : String) (bytes : List UInt8) : Prog WriteReceipt :=
  host.atomic_write_checked dir name bytes false

/-! ## Locks -/

/-- The exclusive creation of a missing lock file; one that appeared meanwhile is as good. -/
def create_lock (host : Host) (dir : Nat) (name : String) : Prog Unit := do
  match ← (host.create_file dir name).attempt with
  | .ok _ => do
    host.sync_all
    host.sync
  | .error (.io .AlreadyExists _) => pure ()
  | .error error => fail error

/-- One round of the loop that opens the lock file; `again` is the next one. -/
def open_lock_round (host : Host) (dir : Nat) (name : String) (again : Prog Metadata) : Prog Metadata := do
  match ← (host.observe fun fs => fs.open_file dir name true).attempt with
  | .ok file => pure file
  | .error (.io .NotFound _) => do
    host.create_lock dir name
    again
  | .error error => fail error

/-- The loop: `rounds` more fit before the deadline. -/
def open_lock (host : Host) (dir : Nat) (name : String) : Nat → Prog Metadata
  | 0 => host.open_lock_round dir name (fail (.io .TimedOut "storage lock creation deadline exceeded"))
  | rounds + 1 => host.open_lock_round dir name (host.open_lock dir name rounds)

/-- The loop around `try_lock`. -/
def try_lock (host : Host) : Prog Unit :=
  .query fun w =>
    if host.busy w.tick then (.error (.io .TimedOut "storage lock deadline exceeded"), w.advance w.fs)
    else (.ok (), w.advance w.fs)

/-- `SecureDir::lock`; the lock held is the inode of its file. -/
def lock (host : Host) (dir : Nat) (name : String) (timeout : Nat) : Prog Nat := do
  let file ← host.open_lock dir name timeout
  host.try_lock
  host.observe fun fs => fs.validate dir name file.ino
  return file.ino

end Host

end zc.fsutil
