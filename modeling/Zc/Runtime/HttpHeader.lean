import Zc.Error
import Mathlib.Data.List.Infix

/-!
# Headers of HTTP messages

`http_line` and `http_header` read from a buffered stream, which shows its bytes in pieces of any size. What
they return, what they consume and how they fail depends on the bytes alone.
-/

namespace zc.runtime

def MAX_HEADER : Nat := 16 * 1024

/-- How a stream comes: call `n` of `fill_buf` shows `sizes n + 1` of the bytes that are left. After its bytes the
    stream ends, or breaks with an error. -/
structure Source where
  sizes : Nat → Nat
  broken : Option (ErrorKind × String)

/-- An `AsyncBufRead` with the bytes that are left. -/
structure Reader where
  rest : List UInt8
  calls : Nat := 0

def Reader.fill_buf (source : Source) (reader : Reader) : Result (List UInt8) :=
  match reader.rest, source.broken with
  | [], some (kind, text) => .error (.io kind text)
  | rest, _ => .ok (rest.take (source.sizes reader.calls + 1))

def Reader.consume (reader : Reader) (count : Nat) : Reader :=
  ⟨reader.rest.drop count, reader.calls + 1⟩

/-- The bytes through the first line feed, or all. -/
def line_end (available : List UInt8) : Nat :=
  match available.findIdx? (· == 10) with
  | some n => n + 1
  | none => available.length

def check_line (line : List UInt8) : Result (List UInt8) :=
  if ¬ [13, 10] <:+ line ∨ 13 ∈ line.take (line.length - 2) then bail "HTTP requires CRLF" else .ok line

def unexpected_eof : Error :=
  .io .UnexpectedEof "unexpected end of file"

variable {reader : Reader} {available : List UInt8}

section Streams

variable {source : Source}

theorem fill_buf_error {error : Error} (hfill : reader.fill_buf source = .error error) :
    reader.rest = [] ∧ ∃ kind text, source.broken = some (kind, text) ∧ error = .io kind text := by
  unfold Reader.fill_buf at hfill
  split at hfill
  · next kind text hrest hbroken => exact ⟨hrest, kind, text, hbroken, (Except.error.inj hfill).symm⟩
  · cases hfill

theorem fill_buf_ok (hfill : reader.fill_buf source = .ok available) :
    (∃ behind, reader.rest = available ++ behind) ∧ (available = [] → reader.rest = [] ∧ source.broken = none) := by
  unfold Reader.fill_buf at hfill
  split at hfill
  · cases hfill
  · next rest broken hsome =>
    obtain rfl := Except.ok.inj hfill
    refine ⟨⟨_, (List.take_append_drop _ _).symm⟩, fun hempty => ?_⟩
    have hnil : reader.rest = [] := (List.take_eq_nil_iff.1 hempty).resolve_left (Nat.succ_ne_zero _)
    refine ⟨hnil, ?_⟩
    cases hbroken : source.broken with
    | none => rfl
    | some error => exact absurd hbroken (hsome error.1 error.2 hnil)

theorem line_end_pos (hsome : available ≠ []) : 0 < line_end available := by
  unfold line_end
  split
  · exact Nat.succ_pos _
  · exact List.length_pos_iff.2 hsome

theorem length_consume_lt (hfill : reader.fill_buf source = .ok available) (hsome : available ≠ []) :
    (reader.consume (line_end available)).rest.length < reader.rest.length := by
  obtain ⟨⟨behind, hrest⟩, -⟩ := fill_buf_ok hfill
  have := List.length_pos_iff.2 hsome
  have := line_end_pos hsome
  rw [Reader.consume, List.length_drop, hrest, List.length_append]
  omega

end Streams

/-- The loop of `http_line` with the line read so far. -/
def http_line (source : Source) (limit : Nat) (line : List UInt8) (reader : Reader) : Result (List UInt8 × Reader) :=
  match hfill : reader.fill_buf source with
  | .error error => .error error
  | .ok available =>
    if hempty : available = [] then .error unexpected_eof
    else if line.length + line_end available > limit then bail "HTTP line exceeds limit"
    else
      let line := line ++ available.take (line_end available)
      if [10] <:+ line then (check_line line).map (·, reader.consume (line_end available))
      else http_line source limit line (reader.consume (line_end available))
termination_by reader.rest.length
decreasing_by exact length_consume_lt hfill hempty

/-! ## Lines -/

section Lines

variable {source : Source} {limit : Nat} {line rest tail : List UInt8} {broken : Option (ErrorKind × String)}

theorem line_end_of_mem {body : List UInt8} (hbody : 10 ∉ body) (tail : List UInt8) : line_end (body ++ 10 :: tail) = body.length + 1 := by
  have hnone : body.findIdx? (· == 10) = none := by
    rw [List.findIdx?_eq_none_iff]
    intro b hb
    exact beq_false_of_ne fun heq => hbody (heq ▸ hb)
  rw [line_end, List.findIdx?_append, hnone, List.findIdx?_cons, if_pos (beq_self_eq_true _)]
  exact congrArg (· + 1) (Nat.zero_add _)

theorem line_end_of_not_mem (hrest : 10 ∉ rest) : line_end rest = rest.length := by
  have hnone : rest.findIdx? (· == 10) = none := by
    rw [List.findIdx?_eq_none_iff]
    intro b hb
    exact beq_false_of_ne fun heq => hrest (heq ▸ hb)
  rw [line_end, hnone]

/-- What `http_line` does with all bytes at once. -/
def whole_line (limit : Nat) (line rest : List UInt8) (broken : Option (ErrorKind × String)) : Result (List UInt8 × List UInt8) :=
  if line.length + line_end rest > limit then bail "HTTP line exceeds limit"
  else if 10 ∈ rest then (check_line (line ++ rest.take (line_end rest))).map (·, rest.drop (line_end rest))
  else .error (broken.elim unexpected_eof fun (kind, text) => .io kind text)

/-- Bytes without a line feed only add to the line. -/
theorem whole_line_append {front : List UInt8} (hfront : 10 ∉ front) :
    whole_line limit line (front ++ rest) broken = whole_line limit (line ++ front) rest broken := by
  have hend : line_end (front ++ rest) = front.length + line_end rest := by
    by_cases hmem : 10 ∈ rest
    · obtain ⟨body, tail, rfl, hbody⟩ := List.eq_append_cons_of_mem hmem
      rw [← List.append_assoc, line_end_of_mem (by simp [hfront, hbody]), line_end_of_mem hbody, List.length_append, Nat.add_assoc]
    · rw [line_end_of_not_mem (by simp [hfront, hmem]), line_end_of_not_mem hmem, List.length_append]
  have hmem : 10 ∈ front ++ rest ↔ 10 ∈ rest := by
    rw [List.mem_append]
    exact or_iff_right hfront
  simp only [whole_line, hend, hmem, List.length_append, Nat.add_assoc, List.take_length_add_append, List.drop_length_add_append,
    List.append_assoc]

/-- The outcome without the state of the buffer. -/
def seen (result : Result (List UInt8 × Reader)) : Result (List UInt8 × List UInt8) :=
  result.map fun (line, reader) => (line, reader.rest)

theorem http_line_eq (hline : 10 ∉ line) (hlimit : line.length ≤ limit) :
    seen (http_line source limit line reader) = whole_line limit line reader.rest source.broken := by
  induction hlength : reader.rest.length using Nat.strongRecOn generalizing line reader with
  | ind n ih =>
    rw [http_line]
    split
    · next error hfill =>
      obtain ⟨hrest, kind, text, hbroken, rfl⟩ := fill_buf_error hfill
      rw [hrest, hbroken, whole_line, if_neg (by simpa [line_end] using hlimit), if_neg List.not_mem_nil]
      rfl
    · next available hfill =>
      obtain ⟨⟨behind, hrest⟩, hnone⟩ := fill_buf_ok hfill
      by_cases hempty : available = []
      · obtain ⟨hrest, hbroken⟩ := hnone hempty
        rw [dif_pos hempty, hrest, hbroken, whole_line, if_neg (by simpa [line_end] using hlimit), if_neg List.not_mem_nil]
        rfl
      · rw [dif_neg hempty]
        by_cases hmem : 10 ∈ available
        · obtain ⟨body, more, rfl, hbody⟩ := List.eq_append_cons_of_mem hmem
          have hends : [10] <:+ line ++ (body ++ 10 :: more).take (body.length + 1) := by
            rw [List.take_length_add_append, ← List.append_assoc]
            exact List.suffix_append _ _
          rw [List.append_assoc, List.cons_append] at hrest
          rw [whole_line, hrest, line_end_of_mem hbody, line_end_of_mem hbody]
          dsimp only
          rw [if_pos hends, if_pos (List.mem_append_right _ List.mem_cons_self), Reader.consume, hrest, List.take_length_add_append,
            List.take_length_add_append]
          split_ifs
          · rfl
          · rw [List.take_succ_cons, List.take_succ_cons, List.take_zero, List.take_zero]
            cases check_line (line ++ (body ++ [10])) <;> rfl
        · rw [hrest, whole_line_append hmem, line_end_of_not_mem hmem, List.take_length]
          dsimp only
          have hends : ¬ [10] <:+ line ++ available := fun hends =>
            (List.mem_append.1 (hends.subset List.mem_cons_self)).elim hline hmem
          have hbehind : (reader.consume available.length).rest = behind := by
            rw [Reader.consume, hrest, List.drop_left]
          split_ifs with hover
          · rw [whole_line, List.length_append, if_pos (by omega)]
            rfl
          · have hless := length_consume_lt hfill hempty
            rw [line_end_of_not_mem hmem, hlength] at hless
            rw [ih _ hless (by simp [hline, hmem]) (by rw [List.length_append]; omega) rfl, hbehind]

/-- A line that ends in CRLF, with no other of the two bytes. -/
def Line (line : List UInt8) : Prop :=
  ∃ body, line = body ++ [13, 10] ∧ 13 ∉ body ∧ 10 ∉ body

theorem check_line_iff {body : List UInt8} (hbody : 10 ∉ body) :
    check_line (body ++ [10]) = .ok line ↔ line = body ++ [10] ∧ Line line := by
  unfold check_line
  split_ifs with hbad
  · refine ⟨nofun, ?_⟩
    rintro ⟨rfl, front, hfront, hcr, -⟩
    rw [hfront] at hbad
    have htake : (front ++ [13, 10]).take ((front ++ [13, 10]).length - 2) = front := by
      rw [List.length_append]
      exact List.take_left
    rw [htake] at hbad
    exact absurd (hbad.resolve_left (not_not_intro (List.suffix_append _ _))) hcr
  · rw [not_or, not_not] at hbad
    obtain ⟨⟨front, hfront⟩, hcr⟩ := hbad
    refine ⟨fun h => ?_, fun h => congrArg Except.ok h.1.symm⟩
    obtain rfl := Except.ok.inj h
    refine ⟨rfl, front, hfront.symm, ?_, ?_⟩
    · rwa [← hfront, List.length_append, show front.length + [(13 : UInt8), 10].length - 2 = front.length from rfl, List.take_left] at hcr
    · intro hmem
      have hsame : front ++ [13] = body := by
        rw [show front ++ [13, 10] = (front ++ [13]) ++ [10] by simp] at hfront
        exact List.append_cancel_right hfront
      exact hbody (hsame ▸ List.mem_append_left _ hmem)

theorem whole_line_iff : whole_line limit [] rest broken = .ok (line, tail) ↔ rest = line ++ tail ∧ Line line ∧ line.length ≤ limit := by
  by_cases hmem : 10 ∈ rest
  · obtain ⟨body, more, rfl, hbody⟩ := List.eq_append_cons_of_mem hmem
    have htake : (body ++ 10 :: more).take (body.length + 1) = body ++ [10] := by
      rw [List.take_length_add_append]
      rfl
    have hdrop : (body ++ 10 :: more).drop (body.length + 1) = more := by
      rw [List.drop_length_add_append]
      rfl
    rw [whole_line, line_end_of_mem hbody, if_pos hmem, htake, hdrop, List.nil_append, List.length_nil, Nat.zero_add]
    constructor
    · intro h
      split_ifs at h with hover
      · cases h
      · cases hcheck : check_line (body ++ [10]) with
        | error error =>
          rw [hcheck] at h
          cases h
        | ok found =>
          rw [hcheck] at h
          obtain ⟨rfl, rfl⟩ := Prod.mk.inj (Except.ok.inj h)
          obtain ⟨rfl, hline⟩ := (check_line_iff hbody).1 hcheck
          exact ⟨by simp, hline, by rw [List.length_append]; exact Nat.le_of_not_lt hover⟩
    · rintro ⟨heq, ⟨front, rfl, hcr, hlf⟩, hle⟩
      -- both texts are cut at the first line feed
      have hsame : body = front ++ [13] ∧ more = tail := by
        have hfront : 10 ∉ front ++ [13] := by simp [hlf]
        have hcut := congrArg line_end heq
        rw [show front ++ [13, 10] ++ tail = (front ++ [13]) ++ 10 :: tail by simp] at heq hcut
        rw [line_end_of_mem hbody, line_end_of_mem hfront] at hcut
        obtain ⟨hleft, hright⟩ := List.append_inj heq (Nat.succ.inj hcut)
        exact ⟨hleft, (List.cons.inj hright).2⟩
      obtain ⟨rfl, rfl⟩ := hsame
      have hone : front ++ [13] ++ [10] = front ++ [13, 10] := List.append_assoc _ _ _
      have hcheck := (check_line_iff hbody).2 ⟨rfl, front, hone, hcr, hlf⟩
      have hfits : ¬ (front ++ [13]).length + 1 > limit := by
        rw [← hone, List.length_append] at hle
        exact Nat.not_lt_of_le hle
      rw [if_neg hfits, hcheck, hone]
      rfl
  · have hfalse : ¬ (rest = line ++ tail ∧ Line line ∧ line.length ≤ limit) := by
      rintro ⟨rfl, ⟨front, rfl, -⟩, -⟩
      exact hmem (by simp)
    refine ⟨fun h => ?_, fun h => absurd h hfalse⟩
    rw [whole_line, if_neg hmem] at h
    split_ifs at h
    · cases h

theorem http_line_iff : seen (http_line source limit [] reader) = .ok (line, tail) ↔
    reader.rest = line ++ tail ∧ Line line ∧ line.length ≤ limit := by
  rw [http_line_eq List.not_mem_nil (Nat.zero_le _)]
  exact whole_line_iff

end Lines

/-! ## Headers -/

theorem length_next_lt {source : Source} {limit : Nat} {line : List UInt8} {next : Reader}
    (hline : http_line source limit [] reader = .ok (line, next)) : next.rest.length < reader.rest.length := by
  obtain ⟨hrest, ⟨body, rfl, -⟩, -⟩ := http_line_iff.1 (congrArg seen hline)
  rw [hrest]
  simp only [List.length_append, List.length_cons, List.length_nil]
  omega

/-- The loop of `http_header` with the bytes read so far; a difference below zero is a panic. -/
def http_header (source : Source) (bytes : List UInt8) (reader : Reader) : Result (List UInt8 × Reader) :=
  if bytes.length > MAX_HEADER then .error (.panic "attempt to subtract with overflow")
  else match _hline : http_line source (MAX_HEADER - bytes.length) [] reader with
    | .error error => .error error
    | .ok (line, next) => if line = [13, 10] then .ok (bytes ++ line, next) else http_header source (bytes ++ line) next
termination_by reader.rest.length
decreasing_by exact length_next_lt _hline

/-- Everything up to the first empty line. -/
def Header (head : List UInt8) : Prop :=
  ∃ lines : List (List UInt8), head = lines.flatten ++ [13, 10] ∧ ∀ line ∈ lines, Line line ∧ line ≠ [13, 10]

section Headers

variable {source : Source} {bytes line : List UInt8} {reader next : Reader}

theorem http_header_error (hbytes : bytes.length ≤ MAX_HEADER) {error : Error}
    (hline : http_line source (MAX_HEADER - bytes.length) [] reader = .error error) : http_header source bytes reader = .error error := by
  rw [http_header, if_neg (Nat.not_lt_of_le hbytes)]
  split
  · next other hother => rw [← hother, hline]
  · next line' next' hother =>
    rw [hline] at hother
    cases hother

theorem http_header_step (hbytes : bytes.length ≤ MAX_HEADER)
    (hline : http_line source (MAX_HEADER - bytes.length) [] reader = .ok (line, next)) :
    http_header source bytes reader = if line = [13, 10] then .ok (bytes ++ line, next) else http_header source (bytes ++ line) next := by
  rw [http_header, if_neg (Nat.not_lt_of_le hbytes)]
  split
  · next other hother =>
    rw [hline] at hother
    cases hother
  · next line' next' hother =>
    rw [hline] at hother
    obtain ⟨rfl, rfl⟩ := Prod.mk.inj (Except.ok.inj hother)
    rfl

/-- The room that is left for the next line. -/
theorem length_append_le (hbytes : bytes.length ≤ MAX_HEADER)
    (hline : http_line source (MAX_HEADER - bytes.length) [] reader = .ok (line, next)) : (bytes ++ line).length ≤ MAX_HEADER := by
  obtain ⟨-, -, hle⟩ := http_line_iff.1 (congrArg seen hline)
  rw [List.length_append]
  omega

theorem header_of_ok {final : Reader} {head : List UInt8} (hbytes : bytes.length ≤ MAX_HEADER)
    (hheader : http_header source bytes reader = .ok (head, final)) :
    ∃ read, Header read ∧ head = bytes ++ read ∧ reader.rest = read ++ final.rest ∧ head.length ≤ MAX_HEADER := by
  induction hlength : reader.rest.length using Nat.strongRecOn generalizing bytes reader with
  | ind n ih =>
    cases hline : http_line source (MAX_HEADER - bytes.length) [] reader with
    | error error =>
      rw [http_header_error hbytes hline] at hheader
      cases hheader
    | ok result =>
      obtain ⟨line, next⟩ := result
      obtain ⟨hrest, hgood, -⟩ := http_line_iff.1 (congrArg seen hline)
      have hfits := length_append_le hbytes hline
      rw [http_header_step hbytes hline] at hheader
      split_ifs at hheader with hend
      · obtain ⟨rfl, rfl⟩ := Prod.mk.inj (Except.ok.inj hheader)
        subst hend
        exact ⟨[13, 10], ⟨[], rfl, nofun⟩, rfl, hrest, hfits⟩
      · obtain ⟨read, ⟨lines, rfl, hlines⟩, rfl, hread, hmax⟩ := ih _ (hlength ▸ length_next_lt hline) hfits hheader rfl
        refine ⟨line ++ (lines.flatten ++ [13, 10]), ⟨line :: lines, ?_, ?_⟩, List.append_assoc _ _ _, ?_, hmax⟩
        · rw [List.flatten_cons, List.append_assoc]
        · intro other hother
          rcases List.mem_cons.1 hother with rfl | hother
          · exact ⟨hgood, hend⟩
          · exact hlines other hother
        · rw [hrest, hread, List.append_assoc line]

theorem ok_of_header {tail : List UInt8} {lines : List (List UInt8)} (hlines : ∀ line ∈ lines, Line line ∧ line ≠ [13, 10])
    (hrest : reader.rest = lines.flatten ++ [13, 10] ++ tail) (hmax : (bytes ++ (lines.flatten ++ [13, 10])).length ≤ MAX_HEADER) :
    seen (http_header source bytes reader) = .ok (bytes ++ (lines.flatten ++ [13, 10]), tail) := by
  induction lines generalizing bytes reader with
  | nil =>
    rw [List.length_append] at hmax
    have hbytes : bytes.length ≤ MAX_HEADER := by omega
    have hseen : seen (http_line source (MAX_HEADER - bytes.length) [] reader) = .ok ([13, 10], tail) :=
      http_line_iff.2 ⟨hrest, ⟨[], rfl, nofun, nofun⟩, Nat.le_sub_of_add_le' hmax⟩
    cases hline : http_line source (MAX_HEADER - bytes.length) [] reader with
    | error error =>
      rw [hline] at hseen
      cases hseen
    | ok result =>
      rw [hline] at hseen
      obtain ⟨hfirst, rfl⟩ := Prod.mk.inj (Except.ok.inj hseen)
      rw [http_header_step hbytes hline, if_pos hfirst, hfirst]
      rfl
  | cons line lines ih =>
    obtain ⟨hgood, hmore⟩ := hlines line List.mem_cons_self
    rw [List.flatten_cons, List.append_assoc] at hrest hmax ⊢
    rw [List.append_assoc] at hrest
    have hbytes : bytes.length ≤ MAX_HEADER := by
      rw [List.length_append] at hmax
      omega
    have hseen : seen (http_line source (MAX_HEADER - bytes.length) [] reader) = .ok (line, lines.flatten ++ ([13, 10] ++ tail)) := by
      refine http_line_iff.2 ⟨hrest, hgood, ?_⟩
      rw [List.length_append, List.length_append] at hmax
      omega
    cases hline : http_line source (MAX_HEADER - bytes.length) [] reader with
    | error error =>
      rw [hline] at hseen
      cases hseen
    | ok result =>
      rw [hline] at hseen
      obtain ⟨hfirst, hnext⟩ := Prod.mk.inj (Except.ok.inj hseen)
      rw [http_header_step hbytes hline, if_neg (hfirst ▸ hmore), hfirst, ← List.append_assoc]
      rw [← List.append_assoc] at hmax
      exact ih (fun other hother => hlines other (List.mem_cons_of_mem _ hother)) (hnext.trans (List.append_assoc _ _ _).symm) hmax

theorem whole_line_no_panic {limit : Nat} {rest : List UInt8} {broken : Option (ErrorKind × String)} (text : String) :
    whole_line limit [] rest broken ≠ .error (.panic text) := by
  rw [whole_line]
  split_ifs
  · nofun
  · unfold check_line
    split_ifs
    · nofun
    · nofun
  · cases broken <;> nofun

/-- The outcome depends on the bytes alone, and is not a panic. -/
theorem http_header_agrees (source' : Source) (reader' : Reader) (hbroken : source.broken = source'.broken)
    (hrest : reader.rest = reader'.rest) (hbytes : bytes.length ≤ MAX_HEADER) :
    seen (http_header source bytes reader) = seen (http_header source' bytes reader') ∧
      ∀ text, seen (http_header source bytes reader) ≠ .error (.panic text) := by
  induction hlength : reader.rest.length using Nat.strongRecOn generalizing bytes reader reader' with
  | ind n ih =>
    have hseen : ∀ (source : Source) (reader : Reader), seen (http_line source (MAX_HEADER - bytes.length) [] reader) =
        whole_line (MAX_HEADER - bytes.length) [] reader.rest source.broken :=
      fun _ _ => http_line_eq List.not_mem_nil (Nat.zero_le _)
    have hsame : seen (http_line source (MAX_HEADER - bytes.length) [] reader) =
        seen (http_line source' (MAX_HEADER - bytes.length) [] reader') := by
      rw [hseen, hseen, hbroken, hrest]
    cases hline : http_line source (MAX_HEADER - bytes.length) [] reader with
    | error error =>
      cases hline' : http_line source' (MAX_HEADER - bytes.length) [] reader' with
      | ok result =>
        rw [hline, hline'] at hsame
        cases hsame
      | error error' =>
        rw [http_header_error hbytes hline, http_header_error hbytes hline', ← hline, ← hline']
        exact ⟨hsame, fun text => (hseen source reader).symm ▸ whole_line_no_panic text⟩
    | ok result =>
      cases hline' : http_line source' (MAX_HEADER - bytes.length) [] reader' with
      | error error =>
        rw [hline, hline'] at hsame
        cases hsame
      | ok result' =>
        rw [hline, hline'] at hsame
        obtain ⟨hfirst, hnext⟩ := Prod.mk.inj (Except.ok.inj hsame)
        rw [http_header_step hbytes hline, http_header_step hbytes hline', ← hfirst]
        split_ifs with hend
        · exact ⟨congrArg (fun rest => Except.ok (bytes ++ result.1, rest)) hnext, nofun⟩
        · exact ih _ (hlength ▸ length_next_lt hline) _ hnext (length_append_le hbytes hline) rfl

end Headers

/-- However a stream is shown, the header consists of its bytes through the first empty line, and is returned exactly if
    all lines end in CRLF and hold neither byte elsewhere and the length is within the limit. The outcome, errors
    included, depends on the stream alone, and the room left is never below zero. -/
theorem http_header_exact (sizes : Nat → Nat) (broken : Option (ErrorKind × String)) (stream : List UInt8) :
    (∀ sizes', (∀ limit, seen (http_line ⟨sizes, broken⟩ limit [] ⟨stream, 0⟩) = seen (http_line ⟨sizes', broken⟩ limit [] ⟨stream, 0⟩)) ∧
      seen (http_header ⟨sizes, broken⟩ [] ⟨stream, 0⟩) = seen (http_header ⟨sizes', broken⟩ [] ⟨stream, 0⟩)) ∧
    (∀ head rest, seen (http_header ⟨sizes, broken⟩ [] ⟨stream, 0⟩) = .ok (head, rest) ↔
      stream = head ++ rest ∧ Header head ∧ head.length ≤ MAX_HEADER) ∧
    ∀ text, seen (http_header ⟨sizes, broken⟩ [] ⟨stream, 0⟩) ≠ .error (.panic text) := by
  have hempty : ([] : List UInt8).length ≤ MAX_HEADER := Nat.zero_le _
  have hagrees : ∀ sizes', _ ∧ _ := fun sizes' =>
    @http_header_agrees ⟨sizes, broken⟩ [] ⟨stream, 0⟩ ⟨sizes', broken⟩ ⟨stream, 0⟩ rfl rfl hempty
  refine ⟨fun sizes' => ⟨fun limit => ?_, (hagrees sizes').1⟩, fun head rest => ⟨fun hseen => ?_, ?_⟩, (hagrees sizes).2⟩
  · rw [http_line_eq List.not_mem_nil (Nat.zero_le _), http_line_eq List.not_mem_nil (Nat.zero_le _)]
  · cases hheader : http_header ⟨sizes, broken⟩ [] ⟨stream, 0⟩ with
    | error error =>
      rw [hheader] at hseen
      cases hseen
    | ok result =>
      rw [hheader] at hseen
      obtain ⟨rfl, rfl⟩ := Prod.mk.inj (Except.ok.inj hseen)
      obtain ⟨read, hread, hhead, hstream, hmax⟩ := header_of_ok hempty hheader
      obtain rfl : result.1 = read := hhead
      exact ⟨hstream, hread, hmax⟩
  · rintro ⟨rfl, ⟨lines, rfl, hlines⟩, hmax⟩
    exact ok_of_header hlines rfl hmax

end zc.runtime
