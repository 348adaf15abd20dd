import Zc.Fsutil.Calls

/-!
# Stop requests

A caller of `stop_instance` publishes a file that names the running daemon and takes it back at the
deadline; the daemon looks for the file every 100 ms. Both work in the runtime directory, inode 0,
one system call at a time, in any order.
-/

namespace zc.daemon

open fsutil

def stop_name (nonce : String) : String :=
  "zc.stop." ++ nonce

/-- What a request holds. -/
def stop_request (nonce : String) : List UInt8 :=
  str.bytes (nonce ++ "\n")

/-! ## The daemon -/

/-- Why the run loop ended. -/
inductive Exit where
  /-- The request was consumed. -/
  | stop_request
  /-- A call on the request file failed. -/
  | stop_check (error : Error)
  /-- A signal, a task that ended, or a guard of the check. -/
  | other

/-- Where the stop check is; the open file is the node behind its descriptor. -/
inductive Check where
  | running
  | present
  | opened (file : Node)
  | checked (file : Node)
  | captured (file : Node) (before : Metadata)
  | filled (file : Node) (before : Metadata) (request : List UInt8)
  | matched
  | left (reason : Exit)

/-- `openat` with `NOFOLLOW` for reading. -/
def open_node (fs : Fs) (name : String) : Result Node :=
  match fs.lookup 0 name with
  | none => .error not_found
  | some (.symlink _) => .error (.io .Other "Too many levels of symbolic links")
  | some node => .ok node

/-- The bytes `read` gives. -/
def contents (fs : Fs) : Node → List UInt8
  | .file ino => (fs.inodes ino).data
  | _ => []

/-- The first half of `read_bounded`. -/
def check_before (before : Metadata) (limit : Nat) : Result Unit := do
  check_metadata before false false
  ensure (before.mode &&& 0o077 == 0) (invalid "unsafe file permissions during capture")
  ensure (decide (before.len ≤ limit)) (invalid "file exceeds byte limit")

/-- The second half. The times of a file move only with its links and its bytes. -/
def check_after (before after : Metadata) (bytes : List UInt8) (limit : Nat) : Result Unit := do
  ensure (before.nlink == after.nlink && before.owned == after.owned && before.mode == after.mode)
    (invalid "file metadata changed during capture")
  ensure (decide (bytes.length ≤ limit) && bytes.length == after.len && before.len == after.len)
    (invalid "file too large or changed during capture")

/-- Goes on with `next`, or ends the run loop. -/
def Check.orLeave {α : Type} (result : Result α) (next : α → Check) : Check :=
  match result with
  | .ok value => next value
  | .error error => .left (.stop_check error)

/-- The result of the last `unlinkat` of the check. -/
def Check.consumed : Result Unit → Check
  | .ok () => .left .stop_request
  | .error (.io .NotFound _) => .running
  | .error error => .left (.stop_check error)

def REQUEST_LIMIT : Nat := 33

/-- The next call of the daemon; past the run loop it is the `unlinkat` of `cleanup_names`. -/
def Check.step (nonce : String) (fs : Fs) : Check → Check × Fs
  | .running => (if (fs.lookup 0 (stop_name nonce)).isSome then .present else .running, fs)
  | .present => (.orLeave (open_node fs (stop_name nonce)) .opened, fs)
  | .opened file => (.orLeave (check_metadata (fs.metadata file) false true) fun _ => .checked file, fs)
  | .checked file => (.orLeave (check_before (fs.metadata file) REQUEST_LIMIT) fun _ => .captured file (fs.metadata file), fs)
  | .captured file before => (.filled file before ((contents fs file).take (REQUEST_LIMIT + 1)), fs)
  | .filled file before request =>
    (.orLeave (check_after before (fs.metadata file) request REQUEST_LIMIT) fun _ =>
      if request = stop_request nonce then .matched else .running, fs)
  | .matched => (.consumed (Fs.unlinkat 0 (stop_name nonce) fs).1, (Fs.unlinkat 0 (stop_name nonce) fs).2)
  | .left reason => (.left reason, (Fs.unlinkat 0 (stop_name nonce) fs).2)

/-! ## The caller -/

/-- Where `stop_instance` is, from its `atomic_write` on. -/
inductive Caller where
  | publishing
  | reopening
  | naming
  | creating (temp : String)
  | created (temp : String) (ino : Nat)
  | writing (temp : String) (ino : Nat)
  | written (temp : String)
  | cleaning (temp : String) (published : Bool)
  | waiting (published : Bool)
  | revoked (published : Bool) (result : Result Bool)
  | dropped (published : Bool) (result : Result Bool)

/-- What the machine decides about a call: its random bytes, and whether it fails. -/
structure Choice where
  random : List UInt8
  fault : Option Fault

/-- A call that does its work or reports a fault. -/
def Choice.call {α : Type} (choice : Choice) (f : Fs → Result α × Fs) (fs : Fs) : Result α × Fs :=
  match choice.fault with
  | some fault => (.error (.io .Other fault.text), fs)
  | none => f fs

/-- `StopRequest::revoke`. -/
def revoke : Result Unit → Result Bool
  | .ok () => .ok true
  | .error (.io .NotFound _) => .ok false
  | .error error => .error (.context (.message "STOP_FAILED: cannot revoke stop request") error)

/-- Goes on with `next`, or to the cleanup of a failed publication. -/
def Caller.orClean {α : Type} (temp : String) (result : Result α) (next : α → Caller) : Caller :=
  match result with
  | .ok value => next value
  | .error _ => .cleaning temp false

/-- Goes on with `next`, or to the revocation: no scratch file was made yet. -/
def Caller.orWait {α : Type} (result : Result α) (next : α → Caller) : Caller :=
  match result with
  | .ok value => next value
  | .error _ => .waiting false

/-- The next call of the caller. A failed `revoke` is repeated by `drop`. -/
def Caller.step (nonce : String) (choice : Choice) (fs : Fs) : Caller → Caller × Fs
  | .publishing =>
    (.orWait (choice.call (fun fs => (fs.exists_entry 0 (stop_name nonce), fs)) fs).1 fun present =>
      if present then .reopening else .naming, fs)
  | .reopening => (.orWait (choice.call (fun fs => (fs.open_file 0 (stop_name nonce) false, fs)) fs).1 fun _ => .naming, fs)
  | .naming =>
    (.orWait (choice.call (fun fs => (.ok (".write-" ++ hex choice.random), fs)) fs).1 .creating, fs)
  | .creating temp =>
    (.orClean temp (choice.call (Fs.create 0 temp) fs).1 (.created temp), (choice.call (Fs.create 0 temp) fs).2)
  | .created temp ino =>
    (.orClean temp (choice.call (fun fs => (check_metadata (fs.metadata (.file ino)) false true, fs)) fs).1 fun _ => .writing temp ino, fs)
  | .writing temp ino =>
    match choice.fault with
    | some fault => (.cleaning temp false, fs.append ino ((stop_request nonce).take fault.written))
    | none => (.written temp, fs.append ino (stop_request nonce))
  | .written temp =>
    (.orClean temp (choice.call (Fs.renameat 0 temp (stop_name nonce)) fs).1 fun _ => .cleaning temp true,
      (choice.call (Fs.renameat 0 temp (stop_name nonce)) fs).2)
  | .cleaning temp published => (.waiting published, (choice.call (Fs.unlinkat 0 temp) fs).2)
  | .waiting published =>
    (.revoked published (revoke (choice.call (Fs.unlinkat 0 (stop_name nonce)) fs).1),
      (choice.call (Fs.unlinkat 0 (stop_name nonce)) fs).2)
  | .revoked published (.error _) =>
    (.dropped published (revoke (choice.call (Fs.unlinkat 0 (stop_name nonce)) fs).1),
      (choice.call (Fs.unlinkat 0 (stop_name nonce)) fs).2)
  | .revoked published (.ok removed) => (.revoked published (.ok removed), fs)
  | .dropped published result => (.dropped published result, fs)

/-! ## Both together -/

structure System where
  fs : Fs
  check : Check
  caller : Caller

inductive Event where
  | check
  /-- The run loop ends for a reason of its own, between two checks. -/
  | leave
  | caller (choice : Choice)

def System.step (nonce : String) (s : System) : Event → System
  | .check => { s with check := (s.check.step nonce s.fs).1, fs := (s.check.step nonce s.fs).2 }
  | .leave => match s.check with
    | .running => { s with check := .left .other }
    | _ => s
  | .caller choice => { s with caller := (s.caller.step nonce choice s.fs).1, fs := (s.caller.step nonce choice s.fs).2 }

def System.run (nonce : String) (s : System) (events : List Event) : System :=
  events.foldl (System.step nonce) s

/-- A running daemon without a request, and a caller about to publish one. -/
structure Start (nonce : String) (s : System) : Prop where
  free : s.fs.lookup 0 (stop_name nonce) = none
  check : s.check = .running
  caller : s.caller = .publishing

/-- The daemon ended because of the request. -/
def Check.EndedByRequest : Check → Prop
  | .left .stop_request => True
  | .left (.stop_check _) => True
  | _ => False

/-- The check has seen the request and not finished reading it. -/
def Check.Reading : Check → Prop
  | .present => True
  | .opened _ => True
  | .checked _ => True
  | .captured _ _ => True
  | .filled _ _ _ => True
  | _ => False

/-- The run loop has ended. -/
def Check.Left : Check → Prop
  | .left _ => True
  | _ => False

/-- The next call of the caller is the `unlinkat` of `revoke`. -/
def Caller.Revoking : Caller → Prop
  | .waiting _ => True
  | .revoked _ (.error _) => True
  | _ => False

/-- Whether the publication succeeded, and what the last `revoke` returned. -/
def Caller.revocation : Caller → Option (Bool × Result Bool)
  | .revoked published result => some (published, result)
  | .dropped published result => some (published, result)
  | _ => none

end zc.daemon
