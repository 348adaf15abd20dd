import Zc.Str

/-!
# Doctor reports

A report keeps at most 256 messages of at most 512 bytes. Errors push out warnings, and a message that is too
long is replaced by its template. What `fmt::Arguments` renders is a list of pieces.
-/

namespace zc.config.diagnostics

def COUNT_MAX : Nat := 256
def BYTES_MAX : Nat := 512
def SUFFIX : String := " ... [truncated]"

structure Diagnostics where
  errors : List String := []
  warnings : List String := []
  truncated : Bool := false
  has_errors : Bool := false

def unsafe_character (c : Char) : Bool :=
  let n := c.toNat
  str.isControl c || n == 0x61c || n == 0x200e || n == 0x200f || (0x2028 ≤ n && n ≤ 0x202e) || (0x2066 ≤ n && n ≤ 0x2069) || n == 0xfeff

def visible (c : Char) : Char :=
  if unsafe_character c then ' ' else c

structure Message where
  text : String := ""
  rendered_bytes : Nat := 0

/-- One character of `write_str`; `none` is `fmt::Error`. -/
def Message.push (message : Message) (c : Char) : Option Message :=
  if message.rendered_bytes + c.utf8Size > BYTES_MAX then none
  else some ⟨message.text.push (visible c), message.rendered_bytes + c.utf8Size⟩

def Message.write_str (message : Message) (text : String) : Option Message :=
  text.toList.foldlM push message

def Message.write_fmt (message : Message) (args : List String) : Option Message :=
  args.foldlM write_str message

/-- The template with each pair of braces replaced. -/
def fill : List Char → List Char
  | [] => []
  | [c] => [c]
  | c :: d :: rest => if c = '\x7b' ∧ d = '\x7d' then '.' :: '.' :: '.' :: fill rest else c :: fill (d :: rest)

/-- `truncate` at the last character boundary within the limit. -/
def truncate : Nat → List Char → List Char
  | _, [] => []
  | limit, c :: rest => if c.utf8Size ≤ limit then c :: truncate (limit - c.utf8Size) rest else []

/-- A call of `add`. -/
structure Added where
  error : Bool
  template : String
  args : List String

def Added.shortened (added : Added) : Bool :=
  (Message.write_fmt {} added.args).isNone

def Added.text (added : Added) : String :=
  match Message.write_fmt {} added.args with
  | some message => message.text
  | none => String.ofList (truncate (BYTES_MAX - SUFFIX.utf8ByteSize) (fill added.template.toList)) ++ SUFFIX

/-- `add` where the message has room. -/
def Diagnostics.push (report : Diagnostics) (added : Added) : Diagnostics :=
  if added.error then
    { report with errors := report.errors ++ [added.text], truncated := report.truncated || added.shortened }
  else
    { report with warnings := report.warnings ++ [added.text], truncated := report.truncated || added.shortened }

def Diagnostics.add (before : Diagnostics) (added : Added) : Diagnostics :=
  let report := { before with has_errors := before.has_errors || added.error }
  if report.errors.length + report.warnings.length = COUNT_MAX then
    let report := { report with truncated := true }
    if !added.error || report.warnings.isEmpty then report
    else Diagnostics.push { report with warnings := report.warnings.dropLast } added
  else report.push added

/-! ## Messages -/

/-- What a message may be. -/
def Shown (text : String) : Prop :=
  text.utf8ByteSize ≤ BYTES_MAX ∧ ∀ c ∈ text.toList, unsafe_character c = false

theorem visible_spec (c : Char) : (visible c).utf8Size ≤ c.utf8Size ∧ unsafe_character (visible c) = false := by
  rw [visible]
  split_ifs with hunsafe
  · exact ⟨c.utf8Size_pos, by decide⟩
  · exact ⟨Nat.le_refl _, Bool.eq_false_iff.2 hunsafe⟩

/-- What has been written is within the bytes that were charged. -/
def Message.Sound (message : Message) : Prop :=
  message.text.utf8ByteSize ≤ message.rendered_bytes ∧ message.rendered_bytes ≤ BYTES_MAX ∧
    ∀ c ∈ message.text.toList, unsafe_character c = false

theorem Message.Sound.push {message next : Message} {c : Char} (hsound : message.Sound) (hpush : message.push c = some next) :
    next.Sound := by
  obtain ⟨hbytes, hmax, hsafe⟩ := hsound
  unfold Message.push at hpush
  split_ifs at hpush with hover
  obtain rfl := Option.some.inj hpush
  refine ⟨?_, Nat.le_of_not_lt hover, fun d hd => ?_⟩
  · rw [String.utf8ByteSize_push]
    exact Nat.add_le_add hbytes (visible_spec c).1
  · rw [String.toList_push] at hd
    rcases List.mem_append.1 hd with hd | hd
    · exact hsafe d hd
    · rw [List.mem_singleton.1 hd]
      exact (visible_spec c).2

/-- A fold that only goes through sound messages. -/
theorem Message.Sound.foldlM {α : Type} {write : Message → α → Option Message}
    (hwrite : ∀ {message next item}, message.Sound → write message item = some next → next.Sound) {items : List α}
    {message final : Message} (hsound : message.Sound) (hfold : items.foldlM write message = some final) : final.Sound := by
  induction items generalizing message with
  | nil =>
    obtain rfl := Option.some.inj hfold
    exact hsound
  | cons item items ih =>
    rw [List.foldlM_cons, Option.bind_eq_bind, Option.bind_eq_some_iff] at hfold
    obtain ⟨next, hitem, hfold⟩ := hfold
    exact ih (hwrite hsound hitem) hfold

theorem truncate_spec (limit : Nat) (chars : List Char) :
    (String.ofList (truncate limit chars)).utf8ByteSize ≤ limit ∧ truncate limit chars ⊆ chars := by
  induction chars generalizing limit with
  | nil => exact ⟨Nat.zero_le _, fun _ => id⟩
  | cons c chars ih =>
    rw [truncate]
    split_ifs with hle
    · obtain ⟨hsize, hsub⟩ := ih (limit - c.utf8Size)
      rw [str.utf8ByteSize_ofList_cons]
      exact ⟨by omega, List.cons_subset_cons c hsub⟩
    · exact ⟨Nat.zero_le _, List.nil_subset _⟩

theorem fill_subset (chars : List Char) {c : Char} (hc : c ∈ fill chars) : c = '.' ∨ c ∈ chars := by
  fun_induction fill chars with
  | case1 => cases hc
  | case2 d => exact .inr hc
  | case3 d e rest hbraces ih =>
    simp only [List.mem_cons] at hc ⊢
    rcases hc with hc | hc | hc | hc
    · exact .inl hc
    · exact .inl hc
    · exact .inl hc
    · rcases ih hc with hdot | hmem
      · exact .inl hdot
      · exact .inr (.inr (.inr hmem))
  | case4 d e rest hbraces ih =>
    rcases List.mem_cons.1 hc with rfl | hc
    · exact .inr List.mem_cons_self
    · rcases ih hc with hdot | hmem
      · exact .inl hdot
      · exact .inr (List.mem_cons_of_mem _ hmem)

/-- The template of a call may be shown. -/
def Added.Literal (added : Added) : Prop :=
  ∀ c ∈ added.template.toList, unsafe_character c = false

theorem shown_text {added : Added} (hliteral : added.Literal) : Shown added.text := by
  unfold Added.text
  cases hwrite : Message.write_fmt {} added.args with
  | some message =>
    have hempty : Message.Sound {} := ⟨Nat.le_refl _, Nat.zero_le _, fun _ h => nomatch h⟩
    obtain ⟨hbytes, hmax, hsafe⟩ := hempty.foldlM (fun hsound hwrite => hsound.foldlM (fun h hpush => h.push hpush) hwrite) hwrite
    exact ⟨hbytes.trans hmax, hsafe⟩
  | none =>
    obtain ⟨hsize, hsub⟩ := truncate_spec (BYTES_MAX - SUFFIX.utf8ByteSize) (fill added.template.toList)
    refine ⟨?_, fun c hc => ?_⟩
    · have hsuffix : SUFFIX.utf8ByteSize ≤ BYTES_MAX := by decide
      dsimp only
      rw [String.utf8ByteSize_append]
      omega
    · dsimp only at hc
      rw [String.toList_append, String.toList_ofList] at hc
      rcases List.mem_append.1 hc with hc | hc
      · rcases fill_subset _ (hsub hc) with rfl | hc
        · decide
        · exact hliteral c hc
      · have hall : SUFFIX.toList.all (fun c => !unsafe_character c) = true := by decide
        simpa only [Bool.not_eq_true'] using List.all_eq_true.1 hall c hc

/-! ## Reports -/

/-- A report after some calls. -/
structure Holds (calls : List Added) (report : Diagnostics) : Prop where
  errors : report.errors = ((calls.filter (·.error)).take COUNT_MAX).map Added.text
  warnings : ∀ text ∈ report.warnings, ∃ added ∈ calls, added.text = text
  count : report.errors.length + report.warnings.length = min COUNT_MAX calls.length
  has_errors : report.has_errors = calls.any (·.error)
  truncated : report.truncated = (decide (COUNT_MAX < calls.length) || calls.any Added.shortened)

section Reports

variable {calls : List Added} {report : Diagnostics} {added : Added}

/-- The errors are those that were added first, and one more is kept while there is room. -/
theorem errors_push (herrors : report.errors = ((calls.filter (·.error)).take COUNT_MAX).map Added.text)
    (hroom : report.errors.length < COUNT_MAX) :
    (report.push added).errors = (((calls ++ [added]).filter (·.error)).take COUNT_MAX).map Added.text := by
  have hfew : (calls.filter (·.error)).length < COUNT_MAX := by
    rw [herrors, List.length_map, List.length_take] at hroom
    omega
  rw [List.take_of_length_le (Nat.le_of_lt hfew)] at herrors
  rw [Diagnostics.push, List.filter_append]
  cases herror : added.error with
  | false =>
    rw [if_neg Bool.false_ne_true, List.filter_singleton, herror, cond_false, List.append_nil,
      List.take_of_length_le (Nat.le_of_lt hfew)]
    exact herrors
  | true =>
    have hfits : (calls.filter (·.error) ++ [added]).length ≤ COUNT_MAX := by
      rw [List.length_append]
      exact hfew
    rw [if_pos rfl, List.filter_singleton, herror, cond_true, List.take_of_length_le hfits, List.map_append, ← herrors]
    rfl

theorem length_push : (report.push added).errors.length + (report.push added).warnings.length =
    report.errors.length + report.warnings.length + 1 := by
  rw [Diagnostics.push]
  split_ifs
  · dsimp only
    rw [List.length_append, List.length_singleton]
    omega
  · dsimp only
    rw [List.length_append, List.length_singleton]
    omega

theorem push_keeps : (report.push added).has_errors = report.has_errors ∧
    (report.push added).truncated = (report.truncated || added.shortened) ∧
    ∀ text ∈ (report.push added).warnings, text ∈ report.warnings ∨ added.text = text := by
  rw [Diagnostics.push]
  split_ifs
  · exact ⟨rfl, rfl, fun text htext => .inl htext⟩
  · refine ⟨rfl, rfl, fun text htext => ?_⟩
    rcases List.mem_append.1 htext with htext | htext
    · exact .inl htext
    · exact .inr (List.mem_singleton.1 htext).symm

theorem Holds.snoc (hholds : Holds calls report) (added : Added) : Holds (calls ++ [added]) (report.add added) := by
  have hcount := hholds.count
  have hlength : (calls ++ [added]).length = calls.length + 1 := List.length_append
  have hhas : (report.has_errors || added.error) = (calls ++ [added]).any (·.error) := by
    rw [hholds.has_errors, List.any_append, List.any_cons, List.any_nil, Bool.or_false]
  have holder : ∀ text ∈ report.warnings, ∃ other ∈ calls ++ [added], other.text = text := by
    intro text htext
    obtain ⟨other, hother, heq⟩ := hholds.warnings text htext
    exact ⟨other, List.mem_append_left _ hother, heq⟩
  rw [Diagnostics.add]
  dsimp only
  split_ifs with hfull hdrop
  · -- the message is dropped
    have hmany : COUNT_MAX < (calls ++ [added]).length := by omega
    refine ⟨?_, holder, by dsimp only; omega, hhas, by rw [decide_eq_true hmany, Bool.true_or]⟩
    rw [Bool.or_eq_true, Bool.not_eq_true', List.isEmpty_iff] at hdrop
    dsimp only
    rw [hholds.errors, List.filter_append]
    rcases hdrop with hwarning | hnone
    · rw [List.filter_singleton, hwarning, cond_false, List.append_nil]
    · -- only errors are kept, so their number is the bound
      rw [hnone, List.length_nil, hholds.errors, List.length_map, List.length_take] at hfull
      rw [List.take_append_of_le_length (by omega)]
  · -- the last warning goes
    have hmany : COUNT_MAX < (calls ++ [added]).length := by omega
    rw [Bool.or_eq_true, List.isEmpty_iff, not_or] at hdrop
    have hsome : 0 < report.warnings.length := List.length_pos_iff.2 hdrop.2
    obtain ⟨hhas', htruncated, hwarnings⟩ := @push_keeps
      { report with has_errors := report.has_errors || added.error, truncated := true, warnings := report.warnings.dropLast } added
    refine ⟨errors_push hholds.errors (by dsimp only; omega), fun text htext => ?_, ?_, hhas'.trans hhas, ?_⟩
    · rcases hwarnings text htext with hold | hnew
      · exact holder text (List.dropLast_subset _ hold)
      · exact ⟨added, List.mem_append_right _ List.mem_cons_self, hnew⟩
    · rw [length_push]
      dsimp only
      rw [List.length_dropLast]
      omega
    · rw [htruncated, decide_eq_true hmany, Bool.true_or, Bool.true_or]
  · have hfew : calls.length < COUNT_MAX := by omega
    obtain ⟨hhas', htruncated, hwarnings⟩ := @push_keeps { report with has_errors := report.has_errors || added.error } added
    refine ⟨errors_push hholds.errors (by dsimp only; omega), fun text htext => ?_, ?_, hhas'.trans hhas, ?_⟩
    · rcases hwarnings text htext with hold | hnew
      · exact holder text hold
      · exact ⟨added, List.mem_append_right _ List.mem_cons_self, hnew⟩
    · rw [length_push]
      dsimp only
      omega
    · rw [htruncated, hholds.truncated, decide_eq_false (by omega), decide_eq_false (by omega), Bool.false_or, Bool.false_or,
        List.any_append, List.any_cons, List.any_nil, Bool.or_false]

theorem holds_foldl (calls : List Added) : Holds calls (calls.foldl Diagnostics.add {}) := by
  induction calls using List.reverseRecOn with
  | nil => exact ⟨rfl, nofun, rfl, rfl, rfl⟩
  | append_singleton calls added ih =>
    rw [List.foldl_append]
    exact ih.snoc added

end Reports

/-- However many messages a report is given, it holds at most 256 of at most 512 safe bytes; the errors are the
    earliest ones, and what is lost or shortened is told. -/
theorem add_bounded (calls : List Added) (hliteral : ∀ added ∈ calls, added.Literal) :
    let report := calls.foldl Diagnostics.add {}
    report.errors.length + report.warnings.length ≤ 256 ∧
    (∀ text ∈ report.errors ++ report.warnings, text.utf8ByteSize ≤ 512 ∧ ∀ c ∈ text.toList, unsafe_character c = false) ∧
    (report.has_errors = true ↔ ∃ added ∈ calls, added.error = true) ∧
    report.errors = ((calls.filter (·.error)).take 256).map Added.text ∧
    report.errors.length = min 256 (calls.countP (·.error)) ∧
    (report.truncated = true ↔
      report.errors.length + report.warnings.length < calls.length ∨ ∃ added ∈ calls, added.shortened = true) := by
  intro report
  have hholds : Holds calls report := holds_foldl calls
  have hcount := hholds.count
  have hmax : COUNT_MAX = 256 := rfl
  refine ⟨by omega, fun text htext => ?_, ?_, hholds.errors, ?_, ?_⟩
  · have hfrom : ∃ added ∈ calls, added.text = text := by
      rcases List.mem_append.1 htext with htext | htext
      · rw [hholds.errors] at htext
        obtain ⟨added, hadded, heq⟩ := List.mem_map.1 htext
        exact ⟨added, List.mem_of_mem_filter (List.mem_of_mem_take hadded), heq⟩
      · exact hholds.warnings text htext
    obtain ⟨added, hadded, rfl⟩ := hfrom
    exact shown_text (hliteral added hadded)
  · rw [hholds.has_errors, List.any_eq_true]
  · rw [hholds.errors, List.length_map, List.length_take, List.countP_eq_length_filter, hmax]
  · rw [hholds.truncated, Bool.or_eq_true, decide_eq_true_iff, List.any_eq_true]
    exact or_congr_left (by omega)

/-- An error and a warning. -/
theorem two_messages_kept :
    let report := [Added.mk true "bad \x7b\x7d" ["bad ", "port"], Added.mk false "odd" ["odd"]].foldl Diagnostics.add {}
    report.errors.length + report.warnings.length ≤ 256 ∧ report.truncated = false := by
  have hall : ∀ added ∈ [Added.mk true "bad \x7b\x7d" ["bad ", "port"], Added.mk false "odd" ["odd"]],
      (added.template.toList.all fun c => unsafe_character c == false) = true := by
    decide
  have hliteral : ∀ added ∈ [Added.mk true "bad \x7b\x7d" ["bad ", "port"], Added.mk false "odd" ["odd"]], added.Literal :=
    fun added hadded c hc => eq_of_beq (List.all_eq_true.1 (hall added hadded) c hc)
  exact ⟨(add_bounded _ hliteral).1, by decide⟩

end zc.config.diagnostics
