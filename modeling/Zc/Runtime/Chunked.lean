import Zc.Lib.Digits
import Zc.Lib.Poll
import Zc.Lib.Traverse
import Zc.Runtime.HttpHeader
import Zc.Str

/-!
# Chunked bodies

`copy_chunked` passes a chunked body on while it reads it. The terminal chunk and the trailers wait until all of them
have been read and checked.
-/

namespace zc.runtime

open Poll (Act)

/-- What is used of `httparse`: `none` stands for an input that is not complete. The two laws are its grammars, a
    size in hexadecimal with an extension behind it, and one field a line. -/
structure Httparse where
  parse_chunk_size : List UInt8 → Result (Option (Nat × UInt64))
  parse_headers : List UInt8 → Result (Option (List (List UInt8)))
  size_grammar : ∀ bytes stop size, parse_chunk_size bytes = .ok (some (stop, size)) →
    ∃ digits extension, bytes.take stop = digits ++ extension ++ [13, 10] ∧ digits ≠ [] ∧
      (∀ b ∈ digits, (Digits.toDigit 16 (Char.ofNat b.toNat)).isSome) ∧
      Digits.value 16 (digits.map fun b => Char.ofNat b.toNat) = size.toNat
  headers_grammar : ∀ lines names, (∀ line ∈ lines, Line line ∧ line ≠ [13, 10]) →
    parse_headers (lines.flatten ++ [13, 10]) = .ok (some names) →
    List.Forall₂ (fun line name => ∃ value, line = name ++ 58 :: value) lines names

/-- How a writer takes its bytes: write `n` may fail after some of them. Where a stream breaks inside a chunk, `passed`
    is how much of what was read had been written. -/
structure Drain where
  fails : Nat → Option (Nat × ErrorKind × String)
  passed : Nat → Nat

structure Sink where
  written : List UInt8
  calls : Nat := 0

/-- The errors, by the side that raised them. -/
inductive Halt where
  | writer (error : Error)
  | framing (error : Error)

structure Copying where
  reader : Reader
  sink : Sink
  total : Nat := 0

namespace Copying

def fallible {α : Type} : Result α → Act Copying Halt α
  | .ok value => pure value
  | .error error => Act.stop (.failed (.framing error))

def reading {α : Type} (read : Reader → Result (α × Reader)) : Act Copying Halt α := do
  let state ← Act.get
  let (value, reader) ← fallible (read state.reader)
  Act.modify fun state => { state with reader }
  return value

def write_all (drain : Drain) (bytes : List UInt8) : Act Copying Halt Unit := fun state =>
  match drain.fails state.sink.calls with
  | none => (.ok (), { state with sink := ⟨state.sink.written ++ bytes, state.sink.calls + 1⟩ })
  | some (count, kind, text) => (.error (.failed (.writer (.io kind text))),
      { state with sink := ⟨state.sink.written ++ bytes.take count, state.sink.calls + 1⟩ })

end Copying

open Copying

def HttpFramingTruncated : Error :=
  .message "incomplete HTTP framing"

/-- The error of a read that finds too few bytes. -/
def short_read (source : Source) : Error :=
  match source.broken with
  | some (kind, text) => .io kind text
  | none => unexpected_eof

def read_exact (source : Source) (count : Nat) (reader : Reader) : Result (List UInt8 × Reader) :=
  if reader.rest.length < count then .error (short_read source)
  else .ok (reader.rest.take count, ⟨reader.rest.drop count, reader.calls + 1⟩)

/-- `copy_exact`, with what `tokio::io::copy` does. -/
def copy_exact (source : Source) (drain : Drain) (length : Nat) : Act Copying Halt Unit := do
  let state ← Act.get
  match read_exact source length state.reader with
  | .error error => do
    write_all drain (if source.broken.isSome then state.reader.rest.take (drain.passed state.sink.calls) else state.reader.rest)
    fallible (.error (.context HttpFramingTruncated error))
  | .ok (data, reader) => do
    write_all drain data
    Act.modify fun state => { state with reader }

def is_ascii_alphanumeric (b : UInt8) : Bool :=
  (48 ≤ b && b ≤ 57) || (65 ≤ b && b ≤ 90) || (97 ≤ b && b ≤ 122)

def token_byte (b : UInt8) : Bool :=
  is_ascii_alphanumeric b || (str.bytes "!#$%&'*+-.^_`|~").contains b

def forbidden_trailers : List String :=
  ["host", "content-length", "transfer-encoding", "connection", "trailer", "authorization", "proxy-authorization",
    "x-zc-probe-token", "upgrade", "expect", "te", "proxy-connection", "keep-alive"]

def to_ascii_lowercase (b : UInt8) : UInt8 :=
  if 65 ≤ b && b ≤ 90 then b + 32 else b

def forbidden_trailer (name : List UInt8) : Bool :=
  forbidden_trailers.any fun forbidden => name.map to_ascii_lowercase == str.bytes forbidden

def validate_trailer (name : List UInt8) : Result Unit := do
  bail_if (name.isEmpty || !name.all token_byte) "invalid HTTP trailer name"
  bail_if (forbidden_trailer name) "trailer conflicts with routing or framing"

/-- The first byte of a size line is a digit, and all before the end of the line is printable. -/
def size_line_ok (line : List UInt8) : Bool :=
  line.head?.any (fun b => (Digits.toDigit 16 (Char.ofNat b.toNat)).isSome) &&
    (line.take (line.length - 2)).all fun b => 0x20 ≤ b && b ≤ 0x7e

def chunk_size (http : Httparse) (line : List UInt8) : Result UInt64 := do
  bail_if (!size_line_ok line) "invalid chunk size line"
  let status ← mapErr (.message "invalid chunk size") (http.parse_chunk_size line)
  let (stop, size) ← okOr status (.message "incomplete chunk size")
  bail_if (stop != line.length) "invalid chunk size line"
  return size

def check_total (limit : UInt64) (total : Nat) (size : UInt64) : Result Nat := do
  bail_if (decide (2 ^ 64 ≤ total + size.toNat)) "HTTP body size overflow"
  bail_if (decide (limit.toNat < total + size.toNat)) "HTTP body exceeds limit"
  return total + size.toNat

def check_trailers (http : Httparse) (trailers : List UInt8) : Result Unit := do
  let names ← okOr (← http.parse_headers trailers) (.message "incomplete HTTP trailers")
  names.forM validate_trailer

/-- The trailers are read as a header is. -/
def last_chunk (http : Httparse) (source : Source) (drain : Drain) (line : List UInt8) : Act Copying Halt Unit := do
  let trailers ← reading fun reader => withContext HttpFramingTruncated (http_header source [] reader)
  fallible (check_trailers http trailers)
  write_all drain line
  write_all drain trailers

def pass_chunk (source : Source) (drain : Drain) (line : List UInt8) (size : UInt64) : Act Copying Halt Unit := do
  write_all drain line
  copy_exact source drain size.toNat
  let crlf ← reading fun reader => withContext HttpFramingTruncated (read_exact source 2 reader)
  fallible (bail_if (crlf != [13, 10]) "invalid chunk delimiter")
  write_all drain crlf
  -- the flush
  write_all drain []

def chunk_round (http : Httparse) (source : Source) (drain : Drain) (limit : UInt64) : Act Copying Halt (Option Unit) := do
  let line ← reading fun reader => withContext HttpFramingTruncated (http_line source 4096 [] reader)
  let size ← fallible (chunk_size http line)
  let state ← Act.get
  let total ← fallible (check_total limit state.total size)
  Act.modify fun state => { state with total }
  if size = 0 then do
    last_chunk http source drain line
    return some ()
  else do
    pass_chunk source drain line size
    return none

def copy_chunked (http : Httparse) (source : Source) (drain : Drain) (limit : UInt64) : Act Copying Halt Unit := do
  match ← Act.times (chunk_round http source drain limit) 262144 with
  | some () => pure ()
  | none => fallible (bail "HTTP chunk count exceeds limit")

/-! ## Bodies -/

/-- A size in hexadecimal at the front of a printable line. -/
structure SizeLine (line : List UInt8) (size : Nat) : Prop where
  whole : Line line
  short : line.length ≤ 4096
  printable : size_line_ok line = true
  value : ∃ digits extension, line = digits ++ extension ++ [13, 10] ∧ digits ≠ [] ∧
    (∀ b ∈ digits, (Digits.toDigit 16 (Char.ofNat b.toNat)).isSome) ∧ Digits.value 16 (digits.map fun b => Char.ofNat b.toNat) = size

/-- A chunk that is not the last one, with the size of its data. -/
def Chunk (chunk : List UInt8 × Nat) : Prop :=
  ∃ line data, SizeLine line chunk.2 ∧ 0 < chunk.2 ∧ data.length = chunk.2 ∧ chunk.1 = line ++ data ++ [13, 10]

/-- Fields that are neither about routing nor about framing, and an empty line. -/
def Trailers (trailers : List UInt8) : Prop :=
  ∃ lines : List (List UInt8), trailers = lines.flatten ++ [13, 10] ∧ ∀ line ∈ lines, Line line ∧
    ∃ name value, line = name ++ 58 :: value ∧ name ≠ [] ∧ (∀ b ∈ name, token_byte b = true) ∧ forbidden_trailer name = false

/-- A whole chunked body with at most so many bytes of data. -/
def Body (limit : Nat) (body : List UInt8) : Prop :=
  ∃ (chunks : List (List UInt8 × Nat)) (last trailers : List UInt8), body = chunks.flatMap Prod.fst ++ (last ++ trailers) ∧ (∀ chunk ∈ chunks, Chunk chunk) ∧
    SizeLine last 0 ∧ Trailers trailers ∧ (chunks.map Prod.snd).sum ≤ limit

/-- A front of a chunk that is not the last one. -/
def Begun (part : List UInt8) : Prop :=
  part = [] ∨ ∃ line size data, SizeLine line size ∧ 0 < size ∧ data.length ≤ size ∧ part = line ++ data

/-- Exactly one body has been consumed, and passed on as it is. -/
def Forwarded (limit : Nat) (stream before : List UInt8) (state : Copying) : Prop :=
  ∃ body, Body limit body ∧ stream = body ++ state.reader.rest ∧ state.sink.written = before ++ body

/-- Unless the writer failed, only chunks with data have been passed on. -/
def Interrupted (stream before : List UInt8) : Poll.Stop Halt → Copying → Prop
  | .failed (.framing _), state => ∃ (chunks : List (List UInt8 × Nat)) (part : List UInt8), (∀ chunk ∈ chunks, Chunk chunk) ∧ Begun part ∧
      chunks.flatMap Prod.fst ++ part <+: stream ∧ state.sink.written = before ++ (chunks.flatMap Prod.fst ++ part)
  | .failed (.writer _), _ => True
  | .pending, _ => False
  | .panicked, _ => False

/-- Between two chunks. -/
structure Copied (limit : Nat) (stream before : List UInt8) (chunks : List (List UInt8 × Nat)) (state : Copying) : Prop where
  each : ∀ chunk ∈ chunks, Chunk chunk
  consumed : stream = chunks.flatMap Prod.fst ++ state.reader.rest
  written : state.sink.written = before ++ chunks.flatMap Prod.fst
  total : (chunks.map Prod.snd).sum = state.total
  within : state.total ≤ limit

section Copies

variable {http : Httparse} {source : Source} {drain : Drain} {limit : UInt64} {stream before : List UInt8}
  {chunks : List (List UInt8 × Nat)} {state : Copying} {line data : List UInt8} {size : UInt64}

theorem wp_fallible {α : Type} {result : Result α} {post : α → Copying → Prop} {early : Poll.Stop Halt → Copying → Prop}
    (hok : ∀ value, result = .ok value → post value state) (herror : ∀ error, early (.failed (.framing error)) state) :
    Act.wp (fallible result) post early state := by
  cases result with
  | ok value => exact hok value rfl
  | error error => exact herror error

theorem wp_reading {α : Type} {read : Reader → Result (α × Reader)} {post : α → Copying → Prop}
    {early : Poll.Stop Halt → Copying → Prop}
    (hok : ∀ value reader, read state.reader = .ok (value, reader) → post value { state with reader })
    (herror : ∀ error, early (.failed (.framing error)) state) : Act.wp (reading read) post early state := by
  rw [reading, Act.wp_bind, Act.wp_get, Act.wp_bind]
  exact wp_fallible (fun value hvalue => hok value.1 value.2 hvalue) herror

theorem wp_write_all {bytes : List UInt8} {post : Unit → Copying → Prop}
    (hok : post () { state with sink := ⟨state.sink.written ++ bytes, state.sink.calls + 1⟩ }) :
    Act.wp (write_all drain bytes) post (Interrupted stream before) state := by
  unfold Act.wp write_all
  cases drain.fails state.sink.calls with
  | none => exact hok
  | some failure => trivial

/-- An end between two chunks, or inside one. -/
theorem Copied.interrupted (hcopied : Copied limit.toNat stream before chunks state) {part : List UInt8} (hpart : Begun part)
    (hfront : part <+: state.reader.rest) {state' : Copying} (hwritten : state'.sink.written = state.sink.written ++ part) (error : Error) :
    Interrupted stream before (.failed (.framing error)) state' := by
  refine ⟨chunks, part, hcopied.each, hpart, ?_, ?_⟩
  · rw [hcopied.consumed]
    exact (List.prefix_append_right_inj _).2 hfront
  · rw [hwritten, hcopied.written, List.append_assoc]

theorem size_line_of_ok (hline : Line line) (hshort : line.length ≤ 4096) (hsize : chunk_size http line = .ok size) :
    SizeLine line size.toNat := by
  simp only [chunk_size, bind_eq_ok_iff, bail_if_eq_ok_iff, mapErr_eq_ok_iff, okOr_eq_ok_iff, Bool.not_eq_false',
    bne_eq_false_iff_eq] at hsize
  obtain ⟨_, hprintable, status, hparse, ⟨stop, found⟩, rfl, _, rfl, hpure⟩ := hsize
  obtain rfl := Except.ok.inj hpure
  obtain ⟨digits, extension, htake, hdigits⟩ := http.size_grammar line line.length found hparse
  rw [List.take_length] at htake
  exact ⟨hline, hshort, hprintable, digits, extension, htake, hdigits⟩

theorem trailers_of_ok {trailers : List UInt8} (hheader : Header trailers) (hcheck : check_trailers http trailers = .ok ()) :
    Trailers trailers := by
  obtain ⟨lines, rfl, hlines⟩ := hheader
  simp only [check_trailers, bind_eq_ok_iff, okOr_eq_ok_iff, Traverse.forM_eq_ok_iff, validate_trailer, bail_if_eq_ok_iff,
    Bool.or_eq_false_iff, Bool.not_eq_false', List.isEmpty_eq_false_iff, List.all_eq_true] at hcheck
  obtain ⟨_, hparse, names, rfl, hnames⟩ := hcheck
  refine ⟨lines, rfl, fun line hline => ⟨(hlines line hline).1, ?_⟩⟩
  obtain ⟨name, hname, value, hvalue⟩ := Traverse.exists_right_of_forall₂ (http.headers_grammar lines names hlines hparse) hline
  obtain ⟨_, ⟨hne, htoken⟩, hallowed⟩ := hnames name hname
  exact ⟨name, value, hvalue, hne, htoken, hallowed⟩

theorem wp_last_chunk (hcopied : Copied limit.toNat stream before chunks state) {reader : Reader}
    (hrest : state.reader.rest = line ++ reader.rest) (hline : SizeLine line 0) {total : Nat} :
    Act.wp (last_chunk http source drain line) (fun _ => Forwarded limit.toNat stream before) (Interrupted stream before)
      { state with reader, total } := by
  have hnothing : ∀ {reader : Reader} (error : Error),
      Interrupted stream before (.failed (.framing error)) { state with reader, total } :=
    fun error => hcopied.interrupted (.inl rfl) List.nil_prefix (List.append_nil _).symm error
  rw [last_chunk, Act.wp_bind]
  refine wp_reading (fun trailers next hread => ?_) hnothing
  rw [withContext_eq_ok_iff] at hread
  obtain ⟨_, hheader, rfl, hconsumed, -⟩ := header_of_ok (Nat.zero_le _) hread
  rw [Act.wp_bind]
  refine wp_fallible (fun _ hcheck => ?_) hnothing
  rw [Act.wp_bind]
  refine wp_write_all (wp_write_all ⟨_, ⟨chunks, line, _, rfl, hcopied.each, hline, trailers_of_ok hheader hcheck, ?_⟩, ?_, ?_⟩)
  · exact hcopied.total ▸ hcopied.within
  · rw [hcopied.consumed, hrest, hconsumed]
    simp only [List.append_assoc]
  · rw [hcopied.written]
    simp only [List.append_assoc]

theorem read_exact_ok {count : Nat} {reader next : Reader} (hread : read_exact source count reader = .ok (data, next)) :
    reader.rest = data ++ next.rest ∧ data.length = count := by
  unfold read_exact at hread
  split_ifs at hread with hshort
  · obtain ⟨rfl, rfl⟩ := Prod.mk.inj (Except.ok.inj hread)
    exact ⟨(List.take_append_drop _ _).symm, List.length_take_of_le (Nat.le_of_not_lt hshort)⟩

theorem wp_copy_exact {length : Nat} {post : Unit → Copying → Prop}
    (hok : ∀ data reader, state.reader.rest = data ++ reader.rest → data.length = length →
      post () { state with reader, sink := ⟨state.sink.written ++ data, state.sink.calls + 1⟩ })
    (hshort : ∀ front error, front <+: state.reader.rest → front.length ≤ length →
      Interrupted stream before (.failed (.framing error)) { state with sink := ⟨state.sink.written ++ front, state.sink.calls + 1⟩ }) :
    Act.wp (copy_exact source drain length) post (Interrupted stream before) state := by
  rw [copy_exact, Act.wp_bind, Act.wp_get]
  cases hread : read_exact source length state.reader with
  | error error =>
    have hlength : state.reader.rest.length ≤ length := by
      unfold read_exact at hread
      split_ifs at hread with hless
      exact Nat.le_of_lt hless
    dsimp only
    rw [Act.wp_bind]
    refine wp_write_all (hshort _ (.context HttpFramingTruncated error) ?_ ?_)
    · split_ifs
      · exact List.take_prefix _ _
      · exact List.prefix_refl _
    · split_ifs
      · exact (List.length_take_le' _ _).trans hlength
      · exact hlength
  | ok result =>
    obtain ⟨data, reader⟩ := result
    obtain ⟨hdata, hlength⟩ := read_exact_ok hread
    dsimp only
    rw [Act.wp_bind]
    exact wp_write_all (hok data reader hdata hlength)

theorem wp_pass_chunk (hcopied : Copied limit.toNat stream before chunks state) {reader : Reader}
    (hrest : state.reader.rest = line ++ reader.rest) (hline : SizeLine line size.toNat) (hpos : 0 < size.toNat)
    (hlimit : state.total + size.toNat ≤ limit.toNat) :
    Act.wp (pass_chunk source drain line size) (fun _ state' => ∃ chunks, Copied limit.toNat stream before chunks state')
      (Interrupted stream before) { state with reader, total := state.total + size.toNat } := by
  have hbegun : ∀ {data : List UInt8}, data.length ≤ size.toNat → Begun (line ++ data) :=
    fun hlength => .inr ⟨line, size.toNat, _, hline, hpos, hlength, rfl⟩
  have hfront : ∀ {data : List UInt8}, data <+: reader.rest → line ++ data <+: state.reader.rest :=
    fun hdata => hrest ▸ (List.prefix_append_right_inj _).2 hdata
  rw [pass_chunk, Act.wp_bind]
  refine wp_write_all ?_
  rw [Act.wp_bind]
  refine wp_copy_exact (fun data next hdata hlength => ?_) fun front error hprefix hlength => ?_
  · have hdelimiter : ∀ {reader : Reader} {calls total : Nat} (error : Error), Interrupted stream before (.failed (.framing error))
        ⟨reader, ⟨state.sink.written ++ line ++ data, calls⟩, total⟩ :=
      fun error => hcopied.interrupted (hbegun (Nat.le_of_eq hlength)) (hfront ⟨next.rest, hdata.symm⟩) (List.append_assoc _ _ _) error
    rw [Act.wp_bind]
    refine wp_reading (fun crlf last hread => ?_) hdelimiter
    rw [withContext_eq_ok_iff] at hread
    obtain ⟨hcrlf, -⟩ := read_exact_ok hread
    rw [Act.wp_bind]
    refine wp_fallible (fun _ hcheck => ?_) hdelimiter
    rw [bail_if_eq_ok_iff, bne_eq_false_iff_eq] at hcheck
    subst hcheck
    rw [Act.wp_bind]
    refine wp_write_all (wp_write_all ⟨chunks ++ [(line ++ data ++ [13, 10], size.toNat)], ?_, ?_, ?_, ?_, hlimit⟩)
    · intro chunk hchunk
      rcases List.mem_append.1 hchunk with hchunk | hchunk
      · exact hcopied.each chunk hchunk
      · obtain rfl := List.mem_singleton.1 hchunk
        exact ⟨line, data, hline, hpos, hlength, rfl⟩
    · rw [hcopied.consumed, hrest, hdata, hcrlf]
      simp [List.flatMap_append, List.append_assoc]
    · rw [hcopied.written]
      simp [List.flatMap_append, List.append_assoc]
    · rw [List.map_append, List.sum_append, hcopied.total]
      rfl
  · exact hcopied.interrupted (hbegun hlength) (hfront hprefix) (List.append_assoc _ _ _) error

/-- One chunk. -/
theorem wp_chunk_round (hcopied : Copied limit.toNat stream before chunks state) :
    Act.wp (chunk_round http source drain limit)
      (fun value state' => match value with
        | some _ => Forwarded limit.toNat stream before state'
        | none => ∃ chunks, Copied limit.toNat stream before chunks state') (Interrupted stream before) state := by
  have hnothing : ∀ {reader : Reader} (error : Error), Interrupted stream before (.failed (.framing error)) { state with reader } :=
    fun error => hcopied.interrupted (.inl rfl) List.nil_prefix (List.append_nil _).symm error
  rw [chunk_round, Act.wp_bind]
  refine wp_reading (fun line reader hread => ?_) hnothing
  rw [withContext_eq_ok_iff] at hread
  obtain ⟨hrest, hline, hshort⟩ := http_line_iff.1 (congrArg seen hread)
  rw [Act.wp_bind]
  refine wp_fallible (fun size hsize => ?_) hnothing
  have hline := size_line_of_ok hline hshort hsize
  rw [Act.wp_bind, Act.wp_get, Act.wp_bind]
  refine wp_fallible (fun total htotal => ?_) hnothing
  simp only [check_total, bind_eq_ok_iff, bail_if_eq_ok_iff, decide_eq_false_iff_not, Nat.not_lt] at htotal
  obtain ⟨_, -, _, hlimit, hpure⟩ := htotal
  obtain rfl := Except.ok.inj hpure
  rw [Act.wp_bind, Act.wp_modify]
  by_cases hzero : size = 0
  · subst hzero
    rw [if_pos rfl, Act.wp_bind]
    exact wp_last_chunk hcopied hrest hline
  · rw [if_neg hzero, Act.wp_bind]
    have hpos : 0 < size.toNat := Nat.pos_of_ne_zero fun h => hzero (UInt64.toNat_inj.1 h)
    exact wp_pass_chunk hcopied hrest hline hpos hlimit

end Copies

/-- Parsers for a body without data. -/
def emptyHttparse : Httparse where
  parse_chunk_size bytes := .ok (if bytes = [48, 13, 10] then some (3, 0) else none)
  parse_headers bytes := .ok (if bytes = [13, 10] then some [] else none)
  size_grammar bytes stop size hparse := by
    simp only [Except.ok.injEq, Option.ite_none_right_eq_some, Option.some.injEq, Prod.mk.injEq] at hparse
    obtain ⟨rfl, rfl, rfl⟩ := hparse
    exact ⟨[48], [], rfl, by decide, List.forall_mem_singleton.2 rfl, rfl⟩
  headers_grammar lines names hlines hparse := by
    simp only [Except.ok.injEq, Option.ite_none_right_eq_some, Option.some.injEq] at hparse
    obtain ⟨hlines', rfl⟩ := hparse
    cases lines with
    | nil => exact .nil
    | cons line lines =>
      obtain ⟨⟨⟨body, rfl, -⟩, -⟩, -⟩ := List.forall_mem_cons.1 hlines
      have hlength := congrArg List.length hlines'
      simp only [List.flatten_cons, List.length_append, List.length_cons, List.length_nil] at hlength
      omega

end zc.runtime
