import Mathlib.Data.List.DropRight
import Zc.Lib.History
import Zc.Observability.Log

/-!
# Following the log

`daemon::log` polls `zc.log` while writers append lines to it and rotate it. A poll remembers the identity of the
file and how far it was printed. Lines are printed as `from_utf8_lossy` shows them, each by itself.
-/

namespace zc.daemon.log

open observability (File Logs Fresh content LOG_LIMIT RECORD_LIMIT rotation_due rename_log append_bounded)

/-! ## Polls -/

/-- `text.lines()`: what follows the last line feed counts unless it is empty. -/
def log_lines (bytes : List UInt8) : List (List UInt8) :=
  let pieces := bytes.splitOn 10
  if pieces.getLast? = some [] then pieces.dropLast else pieces

/-- Where `log` stands between two polls. -/
structure Follower where
  previous : Option ((Nat × Nat) × Nat) := none
  first : Bool := true

/-- The loop over the bytes below an index, from the back, with the line feeds counted so far. -/
def tail_start (bytes : List UInt8) (lines : Nat) : Nat → Nat → Nat
  | 0, _ => 0
  | index + 1, count =>
    if bytes[index]? = some 10 ∧ index + 1 ≠ bytes.length then
      if count + 1 = lines then index + 1 else tail_start bytes lines index (count + 1)
    else tail_start bytes lines index count

def first_start (bytes : List UInt8) (lines : Nat) : Nat :=
  if lines = 0 then bytes.length else tail_start bytes lines bytes.length 0

def print_start (lines : Nat) (follower : Follower) (id : Nat × Nat) (bytes : List UInt8) : Nat :=
  match follower.previous with
  | some (old, n) =>
    if old = id ∧ n ≤ bytes.length then n else if follower.first then first_start bytes lines else 0
  | none => if follower.first then first_start bytes lines else 0

/-- A poll with `follow`, and what it prints; `none` if there is no file or it cannot be read. -/
def log_poll (lines : Nat) (follower : Follower) (log : Option File) : Option (Follower × List (List UInt8)) :=
  match log with
  | none => none
  | some file =>
    if file.bytes.length > LOG_LIMIT then none
    else
      -- an incomplete record waits for its line feed
      let bytes := file.bytes.rdropWhile (· != 10)
      some (⟨some (file.id, bytes.length), false⟩, log_lines (bytes.drop (print_start lines follower file.id bytes)))

/-! ## Whole lines -/

def Plain (lines : List (List UInt8)) : Prop :=
  ∀ line ∈ lines, 10 ∉ line

def ended (lines : List (List UInt8)) : List UInt8 :=
  lines.flatMap (· ++ [10])

section Lines

variable {lines front back : List (List UInt8)} {line rest : List UInt8}

theorem ended_append (front back : List (List UInt8)) : ended (front ++ back) = ended front ++ ended back :=
  List.flatMap_append

theorem ended_singleton (line : List UInt8) : ended [line] = line ++ [10] :=
  List.append_nil _

theorem ended_eq_nil (h : ended lines = []) : lines = [] := by
  cases lines with
  | nil => rfl
  | cons line lines => simp [ended] at h

theorem log_lines_ended (hplain : Plain lines) : log_lines (ended lines) = lines := by
  have hsplit : (ended lines).splitOn 10 = lines ++ [[]] := by
    induction lines with
    | nil => rfl
    | cons line lines ih =>
      have hline : ∀ b ∈ line, (b == 10) = false :=
        fun b hb => beq_false_of_ne fun heq => hplain line List.mem_cons_self (heq ▸ hb)
      have hcut : ended (line :: lines) = line ++ 10 :: ended lines := by
        rw [ended, List.flatMap_cons, List.append_assoc]
        rfl
      rw [hcut, List.splitOn, List.splitOnP_append_cons_of_forall_mem hline _ (beq_self_eq_true _)]
      exact congrArg (line :: ·) (ih fun other hother => hplain other (List.mem_cons_of_mem _ hother))
  rw [log_lines, hsplit, List.getLast?_concat, if_pos rfl, List.dropLast_concat]

theorem rdropWhile_ended (hrest : 10 ∉ rest) : (ended lines ++ rest).rdropWhile (· != 10) = ended lines := by
  induction rest using List.reverseRecOn with
  | nil =>
    rw [List.append_nil]
    rcases List.eq_nil_or_concat' lines with rfl | ⟨init, last, rfl⟩
    · rfl
    · rw [ended_append, ended_singleton, ← List.append_assoc]
      exact List.rdropWhile_concat_neg _ _ _ (by simp)
  | append_singleton rest b ih =>
    rw [List.mem_append, not_or] at hrest
    have hb : (b != 10) = true := bne_iff_ne.2 fun heq => hrest.2 (heq ▸ List.mem_cons_self)
    rw [← List.append_assoc]
    exact (List.rdropWhile_concat_pos (· != 10) _ b hb).trans (ih hrest.1)

/-- Bytes that are no line feed are passed over. -/
theorem tail_start_skip {bytes : List UInt8} {n : Nat} {before after : List UInt8} (hline : 10 ∉ line)
    (hbytes : bytes = before ++ line ++ after) (count : Nat) :
    tail_start bytes n (before.length + line.length) count = tail_start bytes n before.length count := by
  induction line using List.reverseRecOn generalizing after with
  | nil => rfl
  | append_singleton line b ih =>
    rw [List.mem_append, not_or] at hline
    have hget : bytes[before.length + line.length]? = some b := by
      rw [hbytes, ← List.append_assoc, ← List.length_append, List.append_assoc (before ++ line), List.getElem?_append_right (Nat.le_refl _),
        Nat.sub_self]
      rfl
    have hb : ¬ (bytes[before.length + line.length]? = some 10 ∧ before.length + line.length + 1 ≠ bytes.length) := by
      rintro ⟨h, -⟩
      rw [hget] at h
      exact hline.2 (Option.some.inj h ▸ List.mem_cons_self)
    rw [List.length_append, List.length_singleton, ← Nat.add_assoc, tail_start, if_neg hb]
    exact ih hline.1 (show bytes = before ++ line ++ ([b] ++ after) by rw [hbytes]; simp)

/-- With `back` passed over, what is left to pass over leaves the last `n` lines. -/
theorem tail_start_lines {n : Nat} (hplain : Plain (front ++ back)) (hback : back ≠ []) (hle : back.length ≤ n) :
    tail_start (ended (front ++ back)) n (ended front).length (back.length - 1) =
      (ended ((front ++ back).take ((front ++ back).length - n))).length := by
  induction front using List.reverseRecOn generalizing back with
  | nil =>
    have hnone : back.length - n = 0 := Nat.sub_eq_zero_of_le hle
    rw [List.nil_append, hnone]
    rfl
  | append_singleton front line ih =>
    have hsome : 0 < back.length := List.length_pos_iff.2 hback
    have hbytes : ended (front ++ [line] ++ back) = ended front ++ line ++ 10 :: ended back := by
      rw [ended_append, ended_append, ended_singleton]
      simp
    have hindex : (ended (front ++ [line])).length = (ended front).length + line.length + 1 := by
      rw [ended_append, ended_singleton, List.length_append, List.length_append]
      rfl
    have hget : (ended (front ++ [line] ++ back))[(ended front).length + line.length]? = some 10 := by
      rw [hbytes, ← List.length_append, List.getElem?_append_right (Nat.le_refl _), Nat.sub_self]
      rfl
    have hmore : (ended front).length + line.length + 1 ≠ (ended (front ++ [line] ++ back)).length := by
      have hpos : 0 < (ended back).length := List.length_pos_iff.2 fun h => hback (ended_eq_nil h)
      rw [hbytes, List.length_append, List.length_append, List.length_cons]
      omega
    rw [hindex, tail_start, if_pos ⟨hget, hmore⟩, Nat.sub_add_cancel hsome]
    split_ifs with hlast
    · rw [List.length_append, ← hlast, Nat.add_sub_cancel, List.take_left, hindex]
    · have hplain' : Plain (front ++ line :: back) := by
        rwa [List.append_assoc] at hplain
      have hline : 10 ∉ line := hplain' line (List.mem_append_right _ List.mem_cons_self)
      rw [tail_start_skip hline hbytes]
      have hrest := ih hplain' (List.cons_ne_nil line back) (Nat.lt_of_le_of_ne hle hlast)
      rwa [← List.singleton_append, ← List.append_assoc] at hrest

/-- The first output starts at the last `n` lines. -/
theorem drop_first_start (hplain : Plain lines) (n : Nat) :
    (ended lines).drop (first_start (ended lines) n) = ended (lines.drop (lines.length - n)) := by
  rw [first_start]
  split_ifs with hzero
  · rw [hzero, Nat.sub_zero, List.drop_length, List.drop_length]
    rfl
  · have hstart : tail_start (ended lines) n (ended lines).length 0 = (ended (lines.take (lines.length - n))).length := by
      rcases List.eq_nil_or_concat' lines with rfl | ⟨front, line, rfl⟩
      · rw [List.take_nil]
        rfl
      · have hbytes : ended (front ++ [line]) = ended front ++ line ++ [10] := by
          rw [ended_append, ended_singleton, List.append_assoc]
        have hskip : tail_start (ended (front ++ [line])) n (ended (front ++ [line])).length 0 =
            tail_start (ended (front ++ [line])) n ((ended front).length + line.length) 0 := by
          have hlength : (ended (front ++ [line])).length = (ended front).length + line.length + 1 := by
            rw [hbytes, List.length_append, List.length_append]
            rfl
          rw [hlength, tail_start, if_neg (fun h => h.2 hlength.symm)]
        rw [hskip, tail_start_skip (hplain line (List.mem_append_right _ List.mem_cons_self)) hbytes]
        exact tail_start_lines hplain (List.cons_ne_nil line []) (Nat.pos_of_ne_zero hzero)
    rw [hstart]
    have hsplit : ended lines = ended (lines.take (lines.length - n)) ++ ended (lines.drop (lines.length - n)) := by
      rw [← ended_append, List.take_append_drop]
    nth_rewrite 1 [hsplit]
    exact List.drop_left

end Lines

/-- The first output of a poll: the last lines of the file that are complete. -/
theorem log_poll_first {lines : List (List UInt8)} (hplain : Plain lines) {rest : List UInt8} (hrest : 10 ∉ rest) {file : File}
    (hfile : file.bytes = ended lines ++ rest) (hlimit : file.bytes.length ≤ LOG_LIMIT) (n : Nat) :
    log_poll n {} (some file) = some (⟨some (file.id, (ended lines).length), false⟩, lines.drop (lines.length - n)) := by
  rw [log_poll]
  dsimp only
  rw [if_neg (Nat.not_lt_of_le hlimit), hfile, rdropWhile_ended hrest, print_start]
  dsimp only
  rw [if_pos rfl, drop_first_start hplain, log_lines_ended fun line hline => hplain line (List.mem_of_mem_drop hline)]

/-! ## Writers and a follower -/

/-- The writer that holds the lock; a rotation is three calls on the directory, and polls come between them. -/
inductive Writer where
  | idle
  | renamed (line : List UInt8)
  | created (line : List UInt8)

structure System where
  logs : Logs := {}
  writer : Writer := .idle
  follower : Follower := {}
  /-- What the successful polls printed. -/
  outputs : List (List (List UInt8)) := []

inductive Event where
  | append (line : List UInt8)
  | rename
  | create
  | abandon
  | poll (successful : Bool)

/-- No file that is there has the identity. -/
def Unused (logs : Logs) (id : Nat × Nat) : Prop :=
  (∀ file, logs.log = some file → file.id ≠ id) ∧ ∀ file, logs.archive = some file → file.id ≠ id

inductive Step (lines : Nat) : System → Event → System → Prop
  | append {system : System} {line : List UInt8} {fresh : Fresh} {file : File} (hidle : system.writer = .idle) (hline : 10 ∉ line)
    (hrecord : line.length + 1 ≤ RECORD_LIMIT) (hdue : rotation_due system.logs (line.length + 1) = false)
    (hfresh : Unused system.logs fresh.opened)
    (hfile : (append_bounded system.logs.log (line ++ [10]) LOG_LIMIT fresh).file = some file) :
    Step lines system (.append line) { system with logs := { system.logs with log := some file } }
  | rename {system : System} {line : List UInt8} {fresh : Fresh} (hidle : system.writer = .idle) (hline : 10 ∉ line)
    (hrecord : line.length + 1 ≤ RECORD_LIMIT) (hdue : rotation_due system.logs (line.length + 1) = true) :
    Step lines system .rename { system with logs := rename_log system.logs fresh, writer := .renamed line }
  | create {system : System} {line : List UInt8} {id : Nat × Nat} (hrenamed : system.writer = .renamed line)
    (hfresh : Unused system.logs id) :
    Step lines system .create { system with logs := { system.logs with log := some ⟨id, []⟩ }, writer := .created line }
  | finish {system : System} {line : List UInt8} {fresh : Fresh} {file : File} (hcreated : system.writer = .created line)
    (hfresh : Unused system.logs fresh.opened)
    (hfile : (append_bounded system.logs.log (line ++ [10]) LOG_LIMIT fresh).file = some file) :
    Step lines system (.append line) { system with logs := { system.logs with log := some file }, writer := .idle }
  /-- A writer that fails or dies. -/
  | abandon {system : System} : Step lines system .abandon { system with writer := .idle }
  | poll {system : System} {follower : Follower} {output : List (List UInt8)}
    (hpoll : log_poll lines system.follower system.logs.log = some (follower, output)) :
    Step lines system (.poll true) { system with follower := follower, outputs := system.outputs ++ [output] }
  | miss {system : System} (hpoll : log_poll lines system.follower system.logs.log = none) : Step lines system (.poll false) system

/-- A run of writers and one follower, from an empty directory. -/
abbrev Run (lines : Nat) (log : List Event) (system : System) : Prop :=
  History {} (fun _ => Step lines) log system

/-! ## What should be printed -/

/-- Told by the order of events alone: the lines appended after the first successful poll, those of them that are in the
    file since the last successful poll, and those that a rename took away before a poll. -/
structure Account where
  started : Bool := false
  expected : List (List UInt8) := []
  pending : List (List UInt8) := []
  lost : List (List UInt8) := []
  rotations : Nat := 0
  /-- Two consecutive successful polls had at most one rotation between them. -/
  fair : Bool := true

def Account.note (account : Account) : Event → Account
  | .append line =>
    if account.started then { account with expected := account.expected ++ [line], pending := account.pending ++ [line] } else account
  | .rename =>
    if account.started then
      { account with lost := account.lost ++ account.pending, pending := [], rotations := account.rotations + 1 }
    else account
  | .poll true =>
    { account with started := true, pending := [], rotations := 0, fair := account.fair && decide (account.rotations ≤ 1) }
  | _ => account

def account (log : List Event) : Account :=
  log.foldl Account.note {}

theorem account_concat (log : List Event) (event : Event) : account (log ++ [event]) = (account log).note event :=
  List.foldl_concat _ _ _ _

/-- The file that the last successful poll saw is the log, or the archive after one rotation. -/
inductive Position (account : Account) (logs : Logs) (id : Nat × Nat) (n : Nat) : Prop
  | same (file : File) (front : List UInt8) (hrotations : account.rotations = 0) (hlog : logs.log = some file) (hid : file.id = id)
    (hfront : front.length = n) (hbytes : file.bytes = front ++ ended account.pending)
  | next (file : File) (hrotations : account.rotations = 1) (harchive : logs.archive = some file) (hid : file.id = id)
    (hother : ∀ file, logs.log = some file → file.id ≠ id) (hbytes : content logs.log = ended account.pending)
  | far (hrotations : 2 ≤ account.rotations)

structure Follows (account : Account) (system : System) : Prop where
  whole : ∃ lines, Plain lines ∧ content system.logs.log = ended lines
  limit : (content system.logs.log).length ≤ LOG_LIMIT
  renamed : ∀ line, system.writer = .renamed line → system.logs.log = none ∧ 10 ∉ line ∧ line.length + 1 ≤ RECORD_LIMIT
  created : ∀ line, system.writer = .created line → content system.logs.log = [] ∧ 10 ∉ line ∧ line.length + 1 ≤ RECORD_LIMIT
  before : account.started = false → account = {} ∧ system.follower = {} ∧ system.outputs = []
  after : account.started = true → system.follower.first = false ∧ system.outputs ≠ [] ∧
    ∃ id n, system.follower.previous = some (id, n) ∧ Position account system.logs id n
  plain : Plain account.pending
  total : system.outputs.tail.flatten.length + account.pending.length + account.lost.length = account.expected.length
  order : account.lost = [] → system.outputs.tail.flatten ++ account.pending = account.expected

section Steps

variable {lines : Nat} {account : Account} {system next : System}

theorem log_poll_eq {file : File} {text : List (List UInt8)} (hfile : file.bytes = ended text) (hlimit : file.bytes.length ≤ LOG_LIMIT)
    (follower : Follower) : log_poll lines follower (some file) =
      some (⟨some (file.id, file.bytes.length), false⟩, log_lines (file.bytes.drop (print_start lines follower file.id file.bytes))) := by
  have hwhole : file.bytes.rdropWhile (· != 10) = file.bytes := by
    have hended : (ended text ++ []).rdropWhile (· != 10) = ended text := rdropWhile_ended List.not_mem_nil
    rwa [List.append_nil, ← hfile] at hended
  rw [log_poll]
  dsimp only
  rw [if_neg (Nat.not_lt_of_le hlimit), hwhole]

/-- A line goes to the log that is there or to a new one. -/
theorem Follows.append (hfollows : Follows account system) {line : List UInt8} {fresh : Fresh} {file : File} (hline : 10 ∉ line)
    (hroom : (content system.logs.log).length + (line ++ [10]).length ≤ LOG_LIMIT) (hfresh : Unused system.logs fresh.opened)
    (hfile : (append_bounded system.logs.log (line ++ [10]) LOG_LIMIT fresh).file = some file) :
    Follows (account.note (.append line)) { system with logs := { system.logs with log := some file }, writer := .idle } := by
  rw [observability.append_bounded_of_room hroom] at hfile
  obtain rfl := Option.some.inj hfile
  obtain ⟨text, hplain, htext⟩ := hfollows.whole
  have hbytes : content system.logs.log ++ (line ++ [10]) = ended (text ++ [line]) := by
    rw [htext, ended_append, ended_singleton]
  have hplain' : ∀ {lines : List (List UInt8)}, Plain lines → Plain (lines ++ [line]) := by
    intro lines hlines other hother
    rcases List.mem_append.1 hother with hother | hother
    · exact hlines other hother
    · rwa [List.mem_singleton.1 hother]
  have hlimit : (content system.logs.log ++ (line ++ [10])).length ≤ LOG_LIMIT := by
    rwa [List.length_append]
  rw [Account.note]
  split_ifs with hstarted
  · obtain ⟨hfirst, houtputs, id, n, hprevious, hposition⟩ := hfollows.after hstarted
    refine ⟨⟨_, hplain' hplain, hbytes⟩, hlimit, nofun, nofun, fun h => ?_, fun _ => ⟨hfirst, houtputs, id, n, hprevious, ?_⟩,
      hplain' hfollows.plain, ?_, fun hlost => ?_⟩
    · rw [hstarted] at h
      cases h
    · have hmore : ended (account.pending ++ [line]) = ended account.pending ++ (line ++ [10]) := by
        rw [ended_append, ended_singleton]
      cases hposition with
      | same file front hrotations hlog hid hfront hfile =>
        refine .same _ front hrotations rfl ?_ hfront ?_
        · rw [hlog]
          exact hid
        · rw [hmore, ← List.append_assoc front, ← hfile, hlog]
          rfl
      | next file hrotations harchive hid hother hfile =>
        refine .next file hrotations harchive hid ?_ ?_
        · rintro _ ⟨⟩
          cases hlog : system.logs.log with
          | none => exact fun h => hfresh.2 file harchive (hid.trans h.symm)
          | some old => exact hother old hlog
        · rw [hmore, ← hfile]
          rfl
      | far hrotations => exact .far hrotations
    · have htotal := hfollows.total
      simp only [List.length_append, List.length_singleton]
      omega
    · rw [← List.append_assoc, hfollows.order hlost]
  · obtain ⟨hempty, hfollower, houtputs⟩ := hfollows.before (Bool.eq_false_iff.2 hstarted)
    exact ⟨⟨_, hplain' hplain, hbytes⟩, hlimit, nofun, nofun, fun _ => ⟨hempty, hfollower, houtputs⟩, fun h => absurd h hstarted,
      hfollows.plain, hfollows.total, hfollows.order⟩

theorem length_of_due {logs : Logs} {additional : Nat} (hdue : rotation_due logs additional = false) (hfits : additional ≤ LOG_LIMIT) :
    (content logs.log).length + additional ≤ LOG_LIMIT := by
  unfold rotation_due at hdue
  cases hlog : logs.log with
  | none =>
    rw [content, Option.elim_none, List.length_nil, Nat.zero_add]
    exact hfits
  | some file =>
    rw [hlog] at hdue
    exact Nat.le_of_not_lt (of_decide_eq_false hdue)

/-- What the file holds since the last poll is lost with the rename. -/
theorem Follows.rename (hfollows : Follows account system) {line : List UInt8} (fresh : Fresh) (hline : 10 ∉ line)
    (hrecord : line.length + 1 ≤ RECORD_LIMIT) {file : File} (hlog : system.logs.log = some file) :
    Follows (account.note .rename) { system with logs := rename_log system.logs fresh, writer := .renamed line } := by
  have hlimit : ¬ file.bytes.length > LOG_LIMIT := by
    have := hfollows.limit
    rw [hlog] at this
    exact Nat.not_lt_of_le this
  have hlogs : rename_log system.logs fresh = ⟨none, some file⟩ := by
    rw [rename_log, hlog]
    dsimp only
    rw [if_neg hlimit]
  rw [hlogs, Account.note]
  split_ifs with hstarted
  · obtain ⟨hfirst, houtputs, id, n, hprevious, hposition⟩ := hfollows.after hstarted
    refine ⟨⟨[], List.forall_mem_nil _, rfl⟩, Nat.zero_le _, fun _ h => ⟨rfl, ?_⟩, by rintro _ ⟨⟩, fun h => ?_, fun _ => ⟨hfirst, houtputs, id, n, hprevious, ?_⟩,
      List.forall_mem_nil _, ?_, fun hlost => ?_⟩
    · obtain rfl := Writer.renamed.inj h
      exact ⟨hline, hrecord⟩
    · rw [hstarted] at h
      cases h
    · cases hposition with
      | same old front hrotations hold hid hfront hbytes =>
        rw [hlog] at hold
        obtain rfl := Option.some.inj hold
        exact .next file (congrArg (· + 1) hrotations) rfl hid (by rintro _ ⟨⟩) rfl
      | next _ hrotations _ _ _ _ => exact .far (Nat.le_of_eq (congrArg (· + 1) hrotations).symm)
      | far hrotations => exact .far (Nat.le_succ_of_le hrotations)
    · have htotal := hfollows.total
      simp only [List.length_append, List.length_nil]
      omega
    · obtain ⟨hlost, hpending⟩ := List.append_eq_nil_iff.1 hlost
      have horder := hfollows.order hlost
      rwa [hpending] at horder
  · refine ⟨⟨[], List.forall_mem_nil _, rfl⟩, Nat.zero_le _, fun _ h => ⟨rfl, ?_⟩, by rintro _ ⟨⟩, hfollows.before, fun h => absurd h hstarted, hfollows.plain,
      hfollows.total, hfollows.order⟩
    obtain rfl := Writer.renamed.inj h
    exact ⟨hline, hrecord⟩

theorem Follows.create (hfollows : Follows account system) {line : List UInt8} {id : Nat × Nat} (hrenamed : system.writer = .renamed line)
    (hfresh : Unused system.logs id) :
    Follows account { system with logs := { system.logs with log := some ⟨id, []⟩ }, writer := .created line } := by
  obtain ⟨hnone, hline, hrecord⟩ := hfollows.renamed line hrenamed
  refine ⟨⟨[], nofun, rfl⟩, Nat.zero_le _, nofun, fun _ h => ⟨rfl, ?_⟩, hfollows.before, fun hstarted => ?_, hfollows.plain,
    hfollows.total, hfollows.order⟩
  · obtain rfl := Writer.created.inj h
    exact ⟨hline, hrecord⟩
  · obtain ⟨hfirst, houtputs, old, n, hprevious, hposition⟩ := hfollows.after hstarted
    refine ⟨hfirst, houtputs, old, n, hprevious, ?_⟩
    cases hposition with
    | same file front hrotations hlog =>
      rw [hnone] at hlog
      cases hlog
    | next file hrotations harchive hid hother hbytes =>
      rw [hnone] at hbytes
      refine .next file hrotations harchive hid ?_ hbytes
      rintro _ ⟨⟩ h
      exact hfresh.2 file harchive (hid.trans h.symm)
    | far hrotations => exact .far hrotations

/-- After at most one rotation, what is printed is what came since the last poll. -/
theorem Position.printed {id : Nat × Nat} {n : Nat} (hposition : Position account system.logs id n) (hrotations : account.rotations ≤ 1)
    {file : File} (hlog : system.logs.log = some file) (hprevious : system.follower.previous = some (id, n))
    (hfirst : system.follower.first = false) (hplain : Plain account.pending) :
    log_lines (file.bytes.drop (print_start lines system.follower file.id file.bytes)) = account.pending := by
  rw [print_start, hprevious, hfirst]
  dsimp only
  cases hposition with
  | same old front hnone hold hid hfront hbytes =>
    rw [hlog] at hold
    obtain rfl := Option.some.inj hold
    have hle : n ≤ file.bytes.length := by
      rw [hbytes, List.length_append]
      omega
    rw [if_pos ⟨hid.symm, hle⟩, hbytes, ← hfront, List.drop_left, log_lines_ended hplain]
  | next old hone harchive hid hother hbytes =>
    rw [hlog] at hbytes
    rw [if_neg (fun h => hother file hlog h.1.symm), if_neg Bool.false_ne_true, List.drop_zero,
      show file.bytes = ended account.pending from hbytes, log_lines_ended hplain]
  | far hmany => omega

/-- A poll prints what came since the last one. -/
theorem Follows.poll (hfollows : Follows account system) {follower : Follower} {output : List (List UInt8)}
    (hpoll : log_poll lines system.follower system.logs.log = some (follower, output))
    (hfair : (account.note (.poll true)).fair = true) :
    Follows (account.note (.poll true)) { system with follower := follower, outputs := system.outputs ++ [output] } := by
  obtain ⟨text, hplain, htext⟩ := hfollows.whole
  have hlimit := hfollows.limit
  cases hlog : system.logs.log with
  | none =>
    rw [hlog] at hpoll
    cases hpoll
  | some file =>
    rw [hlog] at htext hlimit hpoll
    rw [log_poll_eq htext hlimit] at hpoll
    obtain ⟨rfl, rfl⟩ := Prod.mk.inj (Option.some.inj hpoll)
    have hrotations : account.rotations ≤ 1 := of_decide_eq_true (Bool.and_eq_true _ _ ▸ hfair).2
    have hposition : Position (account.note (.poll true)) system.logs file.id file.bytes.length :=
      .same file file.bytes rfl hlog rfl rfl (List.append_nil _).symm
    have houtputs : (system.outputs ++ [log_lines (file.bytes.drop (print_start lines system.follower file.id file.bytes))]).tail.flatten =
        system.outputs.tail.flatten ++ account.pending := by
      cases hstarted : account.started with
      | false =>
        obtain ⟨hempty, -, hnone⟩ := hfollows.before hstarted
        rw [hempty, hnone]
        rfl
      | true =>
        obtain ⟨hfirst, hsome, id, n, hprevious, hposition⟩ := hfollows.after hstarted
        rw [List.tail_append_of_ne_nil hsome, List.flatten_concat, hposition.printed hrotations hlog hprevious hfirst hfollows.plain]
    refine ⟨hfollows.whole, hfollows.limit, hfollows.renamed, hfollows.created, nofun,
      fun _ => ⟨rfl, by simp, file.id, file.bytes.length, rfl, hposition⟩, nofun, ?_, fun hlost => ?_⟩
    · have htotal := hfollows.total
      rw [houtputs, List.length_append]
      exact htotal
    · rw [houtputs]
      exact (List.append_nil _).trans (hfollows.order hlost)

theorem Follows.step {event : Event} (hfollows : Follows account system) (hstep : Step lines system event next)
    (hfair : (account.note event).fair = true) : Follows (account.note event) next := by
  cases hstep with
  | @append line fresh file hidle hline hrecord hdue hfresh hfile =>
    have hroom := length_of_due hdue (Nat.le_trans hrecord (by decide))
    have hnext := hfollows.append hline (by rwa [List.length_append]) hfresh hfile
    rwa [← hidle] at hnext
  | @rename line fresh hidle hline hrecord hdue =>
    unfold rotation_due at hdue
    cases hlog : system.logs.log with
    | none =>
      rw [hlog] at hdue
      cases hdue
    | some file => exact hfollows.rename fresh hline hrecord hlog
  | create hrenamed hfresh => exact hfollows.create hrenamed hfresh
  | @finish line fresh file hcreated hfresh hfile =>
    obtain ⟨hempty, hline, hrecord⟩ := hfollows.created line hcreated
    have hroom : (content system.logs.log).length + (line ++ [10]).length ≤ LOG_LIMIT := by
      rw [hempty, List.length_append, List.length_nil, Nat.zero_add]
      exact Nat.le_trans hrecord (by decide)
    exact hfollows.append hline hroom hfresh hfile
  | abandon =>
    exact ⟨hfollows.whole, hfollows.limit, nofun, nofun, hfollows.before, hfollows.after, hfollows.plain, hfollows.total, hfollows.order⟩
  | poll hpoll => exact hfollows.poll hpoll hfair
  | miss => exact hfollows

theorem fair_of_note {event : Event} (hfair : (account.note event).fair = true) : account.fair = true := by
  unfold Account.note at hfair
  split at hfair
  · split_ifs at hfair <;> exact hfair
  · split_ifs at hfair <;> exact hfair
  · exact (Bool.and_eq_true _ _ ▸ hfair).1
  · exact hfair

theorem follows_run {events : List Event} (hrun : Run lines events system) (hfair : (log.account events).fair = true) :
    Follows (log.account events) system := by
  refine History.invariant (P := fun events system => (log.account events).fair = true → Follows (log.account events) system) ?_ ?_ hrun hfair
  · intro _
    exact ⟨⟨[], nofun, rfl⟩, Nat.zero_le _, nofun, nofun, fun _ => ⟨rfl, rfl, rfl⟩, nofun, nofun, rfl, fun _ => rfl⟩
  · intro log system event next ih hstep hfair
    rw [account_concat] at hfair ⊢
    exact (ih (fair_of_note hfair)).step hstep hfair

end Steps

/-! ## A line that is not printed -/

/-- A record of 4096 bytes; 2048 of them fill the log. -/
@[irreducible]
def fullLine : List UInt8 :=
  List.replicate 4095 97

def filled (k : Nat) : Logs :=
  ⟨if k = 0 then none else some ⟨(0, 0), ended (List.replicate k fullLine)⟩, none⟩

theorem fullLine_spec : 10 ∉ fullLine ∧ fullLine.length = 4095 := by
  unfold fullLine
  exact ⟨fun h => absurd (List.eq_of_mem_replicate h) (by decide), List.length_replicate⟩

theorem fullLine_record : fullLine.length + 1 ≤ RECORD_LIMIT := by
  rw [fullLine_spec.2]
  decide

theorem content_filled (k : Nat) : content (filled k).log = ended (List.replicate k fullLine) := by
  rw [filled]
  split_ifs with hzero
  · rw [hzero]
    rfl
  · rfl

theorem length_filled (k : Nat) : (content (filled k).log).length = k * 4096 := by
  have hlength : (fullLine ++ [10]).length = 4096 := by
    rw [List.length_append, fullLine_spec.2]
    rfl
  rw [content_filled]
  induction k with
  | zero => rfl
  | succ k ih =>
    rw [List.replicate_succ', ended_append, ended_singleton, List.length_append, ih, hlength]
    omega

theorem not_due_of_room {logs : Logs} {additional : Nat} (hroom : (content logs.log).length + additional ≤ LOG_LIMIT) :
    rotation_due logs additional = false := by
  unfold rotation_due
  cases hlog : logs.log with
  | none => rfl
  | some file =>
    rw [hlog] at hroom
    exact decide_eq_false (Nat.not_lt_of_le hroom)

theorem append_filled (k : Nat) (hk : k < 2048) : ∃ fresh, Unused (filled k) fresh.opened ∧
    rotation_due (filled k) (fullLine.length + 1) = false ∧
    (append_bounded (filled k).log (fullLine ++ [10]) LOG_LIMIT fresh).file = (filled (k + 1)).log := by
  have hlimit : LOG_LIMIT = 2048 * 4096 := rfl
  have hroom : (content (filled k).log).length + (fullLine ++ [10]).length ≤ LOG_LIMIT := by
    rw [length_filled, List.length_append, fullLine_spec.2, List.length_singleton]
    omega
  have hnext : content (filled k).log ++ (fullLine ++ [10]) = ended (List.replicate (k + 1) fullLine) := by
    rw [content_filled, List.replicate_succ', ended_append, ended_singleton]
  have hfile : ∀ fresh : Fresh, ((filled k).log.getD ⟨fresh.opened, []⟩).id = (0, 0) →
      (append_bounded (filled k).log (fullLine ++ [10]) LOG_LIMIT fresh).file = (filled (k + 1)).log := by
    intro fresh hid
    rw [observability.append_bounded_of_room hroom, hnext, hid]
    rfl
  have hdue : rotation_due (filled k) (fullLine.length + 1) = false := by
    rw [List.length_append] at hroom
    exact not_due_of_room hroom
  cases k with
  | zero => exact ⟨⟨(0, 0), (0, 0), (0, 0), (0, 0), []⟩, ⟨nofun, nofun⟩, hdue, hfile _ rfl⟩
  | succ k =>
    refine ⟨⟨(0, 1), (0, 1), (0, 1), (0, 1), []⟩, ⟨?_, nofun⟩, hdue, hfile _ rfl⟩
    rintro _ ⟨⟩ h
    cases h

theorem run_filled (k : Nat) (hk : k ≤ 2048) : Run 10 (List.replicate k (.append fullLine)) { logs := filled k } := by
  induction k with
  | zero => exact .start
  | succ k ih =>
    obtain ⟨fresh, hfresh, hdue, hfile⟩ := append_filled k hk
    rw [List.replicate_succ']
    exact .step (ih (Nat.le_of_succ_le hk)) (.append rfl fullLine_spec.1 fullLine_record hdue hfresh hfile)

theorem account_filled (k : Nat) : account (List.replicate k (.append fullLine)) = {} := by
  induction k with
  | zero => rfl
  | succ k ih => rw [List.replicate_succ', account_concat, ih]; rfl

theorem log_poll_isSome (follower : Follower) {file : File} (hlimit : file.bytes.length ≤ LOG_LIMIT) :
    ∃ next output, log_poll 10 follower (some file) = some (next, output) := by
  rw [log_poll]
  dsimp only
  rw [if_neg (Nat.not_lt_of_le hlimit)]
  exact ⟨_, _, rfl⟩

/-- The events after the log has been filled up to one line: the follower polls, the log is filled, the next line rotates it. -/
def overtaking : List Event :=
  [.poll true, .append fullLine, .rename, .create, .append fullLine]

theorem run_overtaking {k : Nat} (hk : k + 1 = 2048) :
    ∃ system, Run 10 (List.replicate k (.append fullLine) ++ overtaking ++ [.poll true]) system := by
  have hlimit : LOG_LIMIT = 2048 * 4096 := rfl
  have hsome : k ≠ 0 := by omega
  have hlog : (filled k).log = some ⟨(0, 0), ended (List.replicate k fullLine)⟩ := if_neg hsome
  have hsize : ∀ j, j ≤ 2048 → (ended (List.replicate j fullLine)).length ≤ LOG_LIMIT := by
    intro j hj
    rw [← content_filled, length_filled]
    omega
  obtain ⟨fresh, hfresh, hdue, hfile⟩ := append_filled k (by omega)
  obtain ⟨follower, shown, hpoll⟩ :=
    log_poll_isSome {} (show (File.mk (0, 0) (ended (List.replicate k fullLine))).bytes.length ≤ LOG_LIMIT from hsize k (by omega))
  have hpolled := History.step (run_filled k (by omega)) (.poll (hlog ▸ hpoll))
  have hfilled := History.step hpolled (.append rfl fullLine_spec.1 fullLine_record hdue hfresh hfile)
  -- the log is full now
  have hfull : rotation_due (filled (k + 1)) (fullLine.length + 1) = true := by
    have hlength := length_filled (k + 1)
    refine decide_eq_true ?_
    change (content (filled (k + 1)).log).length + (fullLine.length + 1) > LOG_LIMIT
    omega
  have hrenamed := History.step hfilled (@Step.rename _ _ fullLine fresh rfl fullLine_spec.1 fullLine_record hfull)
  have harchive : rename_log (filled (k + 1)) fresh = ⟨none, some ⟨(0, 0), ended (List.replicate (k + 1) fullLine)⟩⟩ :=
    congrArg (fun file => Logs.mk none (some file)) (if_neg (Nat.not_lt_of_le (hsize (k + 1) (by omega))))
  have hunused : ∀ log : Option File, (∀ file, log = some file → file.id = (0, 1)) →
      Unused { rename_log (filled (k + 1)) fresh with log := log } (0, 2) := by
    intro log hlog
    rw [harchive]
    refine ⟨fun file hfile h => ?_, ?_⟩
    · rw [hlog file hfile] at h
      cases h
    · rintro _ ⟨⟩ h
      cases h
  have hcreated := History.step hrenamed (@Step.create _ _ fullLine (0, 1) rfl (by
    change Unused (rename_log (filled (k + 1)) fresh) (0, 1)
    rw [harchive]
    refine ⟨nofun, ?_⟩
    rintro _ ⟨⟩ h
    cases h))
  have hroom : (content (some ⟨(0, 1), []⟩)).length + (fullLine ++ [10]).length ≤ LOG_LIMIT := by
    rw [List.length_append, fullLine_spec.2]
    decide
  have hfinished := History.step hcreated (@Step.finish _ _ fullLine ⟨(0, 2), (0, 2), (0, 2), (0, 2), []⟩ _ rfl
    (hunused _ fun file hfile => by cases hfile; rfl) (by rw [observability.append_bounded_of_room hroom]; rfl))
  have hlast : (fullLine ++ [10]).length ≤ LOG_LIMIT := by
    rw [List.length_append, fullLine_spec.2]
    decide
  obtain ⟨final, output, hfinal⟩ := log_poll_isSome follower (show (File.mk (0, 1) (fullLine ++ [10])).bytes.length ≤ LOG_LIMIT from hlast)
  have hlogs : List.replicate k (.append fullLine) ++ overtaking ++ [.poll true] = List.replicate k (.append fullLine) ++ [.poll true] ++
      [.append fullLine] ++ [.rename] ++ [.create] ++ [.append fullLine] ++ [.poll true] := by
    simp [overtaking]
  rw [hlogs]
  exact ⟨_, .step hfinished (.poll hfinal)⟩

end zc.daemon.log
