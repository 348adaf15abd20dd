import Zc.Error
import Mathlib.Data.List.Basic

/-!
# The runtime log

`zc.log` and one archive, `zc.log.1`. Writers hold `zc.log.lock`, so that calls follow one another; a call
gives the files it creates their identities.
-/

namespace zc.observability

def LOG_LIMIT : Nat := 8 * 1024 * 1024
def RECORD_LIMIT : Nat := 4096

/-- A file with its device and inode. -/
structure File where
  id : Nat × Nat
  bytes : List UInt8

structure Logs where
  log : Option File := none
  archive : Option File := none

def content (file : Option File) : List UInt8 :=
  file.elim [] File.bytes

/-- The identities of the files that a call may create, and the record of a log found too long. -/
structure Fresh where
  warned : Nat × Nat
  emptied : Nat × Nat
  opened : Nat × Nat
  replaced : Nat × Nat
  warning : List UInt8

/-! ## Writers -/

def rotation_due (logs : Logs) (additional : Nat) : Bool :=
  match logs.log with
  | none => false
  | some file => file.bytes.length + additional > LOG_LIMIT

/-- The first half of a rotation, up to the rename. -/
def rename_log (logs : Logs) (fresh : Fresh) : Logs :=
  match logs.log with
  | none => logs
  | some file => ⟨none, some (if file.bytes.length > LOG_LIMIT then ⟨fresh.warned, fresh.warning⟩ else file)⟩

def rotate_log (logs : Logs) (additional : Nat) (fresh : Fresh) : Logs :=
  if rotation_due logs additional then { rename_log logs fresh with log := some ⟨fresh.emptied, []⟩ } else logs

inductive Appended where
  | refused
  | truncated (file : File)
  | appended (file : File)

def Appended.file : Appended → Option File
  | .refused => none
  | .truncated file => some file
  | .appended file => some file

def append_bounded (file : Option File) (bytes : List UInt8) (limit : Nat) (fresh : Fresh) : Appended :=
  if bytes.length > limit then .refused
  else
    let file := file.getD ⟨fresh.opened, []⟩
    if file.bytes.length + bytes.length > limit then .truncated ⟨fresh.replaced, bytes⟩
    else .appended { file with bytes := file.bytes ++ bytes }

/-- The logs after the call, and whether the log was cut to the record. -/
def append_log_for_instance (logs : Logs) (bytes : List UInt8) (fresh : Fresh) : Result (Logs × Bool) :=
  if bytes.length > RECORD_LIMIT then bail "runtime event exceeds limit"
  else
    let logs := rotate_log logs bytes.length fresh
    match append_bounded logs.log bytes LOG_LIMIT fresh with
    | .refused => .error (.io .InvalidData "log record exceeds limit")
    | .truncated file => .ok ({ logs with log := some file }, true)
    | .appended file => .ok ({ logs with log := some file }, false)

def maintenance (logs : Logs) (fresh : Fresh) : Logs :=
  rotate_log logs 0 fresh

inductive Call where
  | append_log_for_instance (bytes : List UInt8) (fresh : Fresh)
  | maintenance (fresh : Fresh)

def Call.record : Call → List (List UInt8)
  | .append_log_for_instance bytes _ => [bytes]
  | .maintenance _ => []

/-- One call after others, with whether any of them cut the log. -/
def Call.run (state : Logs × Bool) : Call → Result (Logs × Bool)
  | .append_log_for_instance bytes fresh => do
    let (logs, cut) ← observability.append_log_for_instance state.1 bytes fresh
    .ok (logs, state.2 || cut)
  | .maintenance fresh => .ok (observability.maintenance state.1 fresh, state.2)

/-! ## What is retained -/

/-- The archive and the log hold the last records, all of them or more than fit a log with one record less. -/
structure Retained (records : List (List UInt8)) (logs : Logs) (dropped archived current : List (List UInt8)) : Prop where
  records : records = dropped ++ archived ++ current
  archive : content logs.archive = archived.flatten
  log : content logs.log = current.flatten
  archive_le : (content logs.archive).length ≤ LOG_LIMIT
  log_le : (content logs.log).length ≤ LOG_LIMIT
  enough : dropped = [] ∨ LOG_LIMIT < (content logs.archive).length + RECORD_LIMIT

/-- With room for them, bytes are appended to the log or to a new file. -/
theorem append_bounded_of_room {log : Option File} {bytes : List UInt8} {limit : Nat} (hroom : (content log).length + bytes.length ≤ limit)
    (fresh : Fresh) :
    append_bounded log bytes limit fresh = .appended ⟨(log.getD ⟨fresh.opened, []⟩).id, content log ++ bytes⟩ := by
  have hcontent : (log.getD ⟨fresh.opened, []⟩).bytes = content log := by
    cases log <;> rfl
  rw [append_bounded, if_neg (by omega)]
  dsimp only
  rw [hcontent, if_neg (by omega)]

section Retained

variable {records dropped archived current : List (List UInt8)} {logs : Logs}

/-- A rotation drops the archive for a log that is full up to one record, and leaves room for the next one. -/
theorem Retained.rotate (hretained : Retained records logs dropped archived current) {additional : Nat}
    (hadditional : additional ≤ RECORD_LIMIT) (fresh : Fresh) :
    ∃ dropped archived current, Retained records (rotate_log logs additional fresh) dropped archived current ∧
      (content (rotate_log logs additional fresh).log).length + additional ≤ LOG_LIMIT := by
  have hfits : additional ≤ LOG_LIMIT := Nat.le_trans hadditional (by decide)
  cases hlog : logs.log with
  | none =>
    have hsame : rotate_log logs additional fresh = logs := by
      rw [rotate_log, rotation_due, hlog]
      exact if_neg Bool.false_ne_true
    rw [hsame, hlog]
    exact ⟨dropped, archived, current, hretained, by simpa [content] using hfits⟩
  | some file =>
    have hbytes : content logs.log = file.bytes := by
      rw [hlog]
      rfl
    by_cases hdue : file.bytes.length + additional > LOG_LIMIT
    · have hle : ¬ file.bytes.length > LOG_LIMIT := by
        have := hretained.log_le
        rw [hbytes] at this
        omega
      have hrotated : rotate_log logs additional fresh = ⟨some ⟨fresh.emptied, []⟩, some file⟩ := by
        have hyes : rotation_due logs additional = true := by
          rw [rotation_due, hlog]
          exact decide_eq_true hdue
        rw [rotate_log, if_pos hyes, rename_log, hlog]
        dsimp only
        rw [if_neg hle]
      rw [hrotated]
      refine ⟨dropped ++ archived, current, [], ⟨?_, ?_, rfl, Nat.le_of_not_lt hle, Nat.zero_le _, .inr ?_⟩, ?_⟩
      · rw [List.append_nil]
        exact hretained.records
      · rw [← hretained.log, hbytes]
        rfl
      · change LOG_LIMIT < file.bytes.length + RECORD_LIMIT
        omega
      · rw [content, Option.elim_some, List.length_nil, Nat.zero_add]
        exact hfits
    · have hsame : rotate_log logs additional fresh = logs := by
        rw [rotate_log, rotation_due, hlog]
        exact if_neg (by simpa using hdue)
      rw [hsame]
      exact ⟨dropped, archived, current, hretained, by rw [hbytes]; omega⟩

theorem Retained.append (hretained : Retained records logs dropped archived current) {bytes : List UInt8}
    (hbytes : bytes.length ≤ RECORD_LIMIT) (fresh : Fresh) :
    ∃ next dropped archived current, append_log_for_instance logs bytes fresh = .ok (next, false) ∧
      Retained (records ++ [bytes]) next dropped archived current := by
  obtain ⟨dropped, archived, current, hrotated, hroom⟩ := hretained.rotate hbytes fresh
  refine ⟨⟨some ⟨((rotate_log logs bytes.length fresh).log.getD ⟨fresh.opened, []⟩).id,
    content (rotate_log logs bytes.length fresh).log ++ bytes⟩, (rotate_log logs bytes.length fresh).archive⟩,
    dropped, archived, current ++ [bytes], ?_, ⟨?_, hrotated.archive, ?_, hrotated.archive_le, ?_, hrotated.enough⟩⟩
  · rw [append_log_for_instance, if_neg (Nat.not_lt_of_le hbytes)]
    dsimp only
    rw [append_bounded_of_room hroom]
  · rw [hrotated.records, List.append_assoc]
  · rw [List.flatten_concat, ← hrotated.log]
    rfl
  · rw [content, Option.elim_some, List.length_append]
    exact hroom

/-- A run of calls. -/
theorem Retained.run {calls : List Call} (hcalls : ∀ call ∈ calls, ∀ bytes ∈ call.record, bytes.length ≤ RECORD_LIMIT)
    (hretained : Retained records logs dropped archived current) :
    ∃ final dropped archived current, calls.foldlM Call.run (logs, false) = .ok (final, false) ∧
      Retained (records ++ calls.flatMap Call.record) final dropped archived current := by
  induction calls generalizing records logs dropped archived current with
  | nil => exact ⟨logs, dropped, archived, current, rfl, by rwa [List.flatMap_nil, List.append_nil]⟩
  | cons call calls ih =>
    have hrest : ∀ call ∈ calls, ∀ bytes ∈ call.record, bytes.length ≤ RECORD_LIMIT :=
      fun other hother => hcalls other (List.mem_cons_of_mem _ hother)
    rw [List.foldlM_cons, List.flatMap_cons, ← List.append_assoc]
    cases call with
    | append_log_for_instance bytes fresh =>
      obtain ⟨next, dropped, archived, current, happend, hnext⟩ :=
        hretained.append (hcalls _ List.mem_cons_self bytes (List.mem_singleton_self _)) fresh
      have hstep : Call.run (logs, false) (.append_log_for_instance bytes fresh) = .ok (next, false) := by
        rw [Call.run, happend]
        rfl
      rw [hstep]
      exact ih hrest hnext
    | maintenance fresh =>
      obtain ⟨dropped, archived, current, hnext, -⟩ := hretained.rotate (Nat.zero_le _) fresh
      rw [Call.record, List.append_nil]
      exact ih hrest hnext

end Retained

/-- However records of at most 4096 bytes are appended, both files stay within 8 MiB and together hold the last records,
    all or at least 8 MiB less 4096 bytes of them, and the log is never cut to a record. -/
theorem log_retained (calls : List Call) (hcalls : ∀ call ∈ calls, ∀ bytes ∈ call.record, bytes.length ≤ 4096) :
    ∃ logs, calls.foldlM Call.run ({}, false) = .ok (logs, false) ∧
      (content logs.log).length ≤ 8 * 1024 * 1024 ∧ (content logs.archive).length ≤ 8 * 1024 * 1024 ∧
      ∃ dropped kept, calls.flatMap Call.record = dropped ++ kept ∧ content logs.archive ++ content logs.log = kept.flatten ∧
        (dropped = [] ∨ 8 * 1024 * 1024 - 4096 ≤ kept.flatten.length) := by
  have hempty : Retained [] {} [] [] [] := ⟨rfl, rfl, rfl, Nat.zero_le _, Nat.zero_le _, .inl rfl⟩
  obtain ⟨logs, dropped, archived, current, hrun, hretained⟩ := hempty.run hcalls
  refine ⟨logs, hrun, hretained.log_le, hretained.archive_le, dropped, archived ++ current, ?_, ?_, ?_⟩
  · rw [← List.append_assoc, ← hretained.records, List.nil_append]
  · rw [hretained.archive, hretained.log, List.flatten_append]
  · refine hretained.enough.imp id fun henough => ?_
    rw [List.flatten_append, ← hretained.archive, List.length_append]
    have hlimit : LOG_LIMIT = 8 * 1024 * 1024 := rfl
    have hrecord : RECORD_LIMIT = 4096 := rfl
    omega

/-- One record. -/
theorem one_record_retained : ∃ logs, [Call.append_log_for_instance [97, 10] ⟨(0, 0), (0, 1), (0, 2), (0, 3), []⟩].foldlM Call.run
    ({}, false) = .ok (logs, false) ∧ (content logs.log).length ≤ 8 * 1024 * 1024 := by
  have hcalls : ∀ call ∈ [Call.append_log_for_instance [97, 10] ⟨(0, 0), (0, 1), (0, 2), (0, 3), []⟩], ∀ bytes ∈ call.record,
      bytes.length ≤ 4096 := by
    simp [Call.record]
  obtain ⟨logs, hrun, hle, -⟩ := log_retained _ hcalls
  exact ⟨logs, hrun, hle⟩

end zc.observability
