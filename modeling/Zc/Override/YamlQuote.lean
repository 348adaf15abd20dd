import Zc.Lib.Digits
import Zc.Str

/-!
# Quoted YAML scalars

Every string of a materialized configuration is written as a double-quoted scalar on one line. Beside the
writer stands a reader of such scalars: their escapes, and the characters they may hold.
-/

namespace zc.override_script

def unsafe_unicode (c : Char) : Bool :=
  let n := c.toNat
  n == 0x61c || n == 0x200e || n == 0x200f || (0x2028 ≤ n && n ≤ 0x202e) || (0x2066 ≤ n && n ≤ 0x2069) || n == 0xfeff ||
    (0x80 ≤ n && n ≤ 0x9f)

/-- The lower-case hexadecimal digits of a number, filled up with zeros. -/
def padded (width n : Nat) : List Char :=
  (Nat.toDigits 16 n).leftpad width '0'

def yaml_quote.escaped (c : Char) : List Char :=
  if c = '\\' then ['\\', '\\']
  else if c = '"' then ['\\', '"']
  else if c = '\n' then ['\\', 'n']
  else if c = '\r' then ['\\', 'r']
  else if c = '\t' then ['\\', 't']
  else if c.toNat ≤ 0x1f || c.toNat == 0x7f then '\\' :: 'x' :: padded 2 c.toNat
  else if unsafe_unicode c then '\\' :: 'u' :: padded 4 c.toNat
  else [c]

def yaml_quote (text : String) : String :=
  String.ofList ('"' :: text.toList.flatMap yaml_quote.escaped ++ ['"'])

/-! ## Text within a limit -/

structure BoundedText where
  text : String
  limit : Nat

/-- One character of `write_str`; `none` is `fmt::Error`. -/
def BoundedText.push (this : BoundedText) (c : Char) : Option BoundedText :=
  if unsafe_unicode c then
    if this.limit - this.text.utf8ByteSize < 6 then none
    else some { this with text := this.text ++ String.ofList ('\\' :: 'u' :: padded 4 c.toNat) }
  else
    if this.limit - this.text.utf8ByteSize < c.utf8Size then none
    else some { this with text := this.text.push c }

def BoundedText.write_str (this : BoundedText) (text : String) : Option BoundedText :=
  text.toList.foldlM push this

/-! ## Reading double-quoted scalars -/

namespace yaml

/-- Where the reader of a scalar stands. -/
inductive Mode where
  | text
  | escape
  | digits (left value : Nat)
  | closed
  deriving DecidableEq

/-- The character of an escape without digits. -/
def escape (c : Char) : Option Char :=
  List.lookup c [('0', '\x00'), ('a', '\x07'), ('b', '\x08'), ('t', '\t'), ('\t', '\t'), ('n', '\n'), ('v', '\x0b'), ('f', '\x0c'),
    ('r', '\r'), ('e', '\x1b'), (' ', ' '), ('"', '"'), ('/', '/'), ('\\', '\\'), ('N', '\u0085'), ('_', '\u00a0'),
    ('L', '\u2028'), ('P', '\u2029')]

def digitCount (c : Char) : Option Nat :=
  List.lookup c [('x', 2), ('u', 4), ('U', 8)]

/-- One character of a scalar: the mode after it, and what it ends. A scalar holds tabs and any character from
    the blank on. -/
def step (mode : Mode) (c : Char) : Option (Mode × List Char) :=
  match mode with
  | .text =>
    if c = '"' then some (.closed, [])
    else if c = '\\' then some (.escape, [])
    else if c = '\t' ∨ 0x20 ≤ c.toNat then some (.text, [c])
    else none
  | .escape =>
    match digitCount c with
    | some count => some (.digits count 0, [])
    | none => (escape c).map fun c => (.text, [c])
  | .digits left value =>
    match Digits.toDigit 16 c with
    | none => none
    | some digit =>
      if 1 < left then some (.digits (left - 1) (value * 16 + digit), [])
      else if (value * 16 + digit).isValidChar then some (.text, [Char.ofNat (value * 16 + digit)])
      else none
  | .closed => none

def scan : Mode → List Char → Option (Mode × List Char)
  | mode, [] => some (mode, [])
  | mode, c :: chars => do
    let (mode, front) ← step mode c
    let (mode, back) ← scan mode chars
    some (mode, front ++ back)

/-- The value of a double-quoted scalar. -/
def unquote (text : String) : Option String :=
  match text.toList with
  | '"' :: chars =>
    match scan .text chars with
    | some (.closed, value) => some (String.ofList value)
    | _ => none
  | _ => none

theorem scan_append (mode : Mode) (front back : List Char) : scan mode (front ++ back) =
    (scan mode front).bind fun first => (scan first.1 back).map fun second => (second.1, first.2 ++ second.2) := by
  induction front generalizing mode with
  | nil =>
    rw [List.nil_append, scan, Option.bind_some]
    cases scan mode back <;> rfl
  | cons c front ih =>
    rw [List.cons_append, scan, scan]
    cases step mode c with
    | none => rfl
    | some first =>
      simp only [Option.bind_eq_bind, Option.bind_some, ih]
      cases scan first.1 front with
      | none => rfl
      | some second =>
        simp only [Option.bind_some]
        cases scan second.1 back with
        | none => rfl
        | some third => simp only [Option.map_some, Option.bind_some, List.append_assoc]

/-- A quote within a text that does not close is an escaped one. -/
theorem escape_of_quote {front back value : List Char} (hscan : scan .text (front ++ '"' :: back) = some (.text, value)) :
    ∃ value, scan .text front = some (.escape, value) := by
  rw [scan_append] at hscan
  cases hfront : scan .text front with
  | none =>
    rw [hfront] at hscan
    cases hscan
  | some first =>
    obtain ⟨mode, out⟩ := first
    rw [hfront, Option.bind_some, scan] at hscan
    cases mode with
    | escape => exact ⟨out, rfl⟩
    | text =>
      cases back with
      | nil => cases hscan
      | cons c back => cases hscan
    | digits left value => cases hscan
    | closed => cases hscan

end yaml

/-! ## What is written is read back -/

open yaml (scan)

/-- The characters that are not written as they are. -/
def escapedCodes : List Nat :=
  List.range 0x20 ++ [0x22, 0x5c] ++ (List.range 0x21).map (· + 0x7f) ++ [0x61c, 0x200e, 0x200f] ++
    (List.range 7).map (· + 0x2028) ++ (List.range 4).map (· + 0x2066) ++ [0xfeff]

/-- A character that is written as it is, or one of the table. -/
theorem escaped_cases (c : Char) :
    (yaml_quote.escaped c = [c] ∧ c ≠ '"' ∧ c ≠ '\\' ∧ 0x20 ≤ c.toNat ∧ str.isControl c = false ∧ unsafe_unicode c = false) ∨
      c.toNat ∈ escapedCodes := by
  by_cases hcode : c.toNat ∈ escapedCodes
  · exact .inr hcode
  · have hmem : ∀ c' : Char, c'.toNat ∈ escapedCodes → c ≠ c' := fun c' hc' hc => hcode (hc ▸ hc')
    have hquote := hmem '"' (by decide)
    have hslash := hmem '\\' (by decide)
    simp only [escapedCodes, List.mem_append, List.mem_range, List.mem_map, List.mem_cons, List.not_mem_nil, or_false, not_or,
      not_exists, not_and] at hcode
    obtain ⟨⟨⟨⟨⟨⟨hlow, -⟩, hhigh⟩, h061c, h200e, h200f⟩, h2028⟩, h2066⟩, hfeff⟩ := hcode
    have hhigh' : ¬ (0x7f ≤ c.toNat ∧ c.toNat ≤ 0x9f) := fun h => hhigh (c.toNat - 0x7f) (by omega) (by omega)
    have h2028' : ¬ (0x2028 ≤ c.toNat ∧ c.toNat ≤ 0x202e) := fun h => h2028 (c.toNat - 0x2028) (by omega) (by omega)
    have h2066' : ¬ (0x2066 ≤ c.toNat ∧ c.toNat ≤ 0x2069) := fun h => h2066 (c.toNat - 0x2066) (by omega) (by omega)
    have hsafe : unsafe_unicode c = false := by
      simp only [unsafe_unicode, Bool.or_eq_false_iff, Bool.and_eq_false_iff, beq_eq_false_iff_ne, decide_eq_false_iff_not]
      omega
    have hplain : ¬ (c.toNat ≤ 0x1f || c.toNat == 0x7f) = true := by
      simp only [Bool.or_eq_true, decide_eq_true_eq, beq_iff_eq]
      omega
    refine .inl ⟨?_, hquote, hslash, by omega, ?_, hsafe⟩
    · rw [yaml_quote.escaped, if_neg hslash, if_neg hquote, if_neg (hmem '\n' (by decide)), if_neg (hmem '\r' (by decide)),
        if_neg (hmem '\t' (by decide)), if_neg hplain, if_neg (by rw [hsafe]; exact Bool.false_ne_true)]
    · simp only [str.isControl, Bool.or_eq_false_iff, Bool.and_eq_false_iff, decide_eq_false_iff_not]
      omega

/-- The escapes of the table are read back, and are plain ASCII. -/
theorem escapedCodes_read : escapedCodes.all (fun n =>
    scan .text (yaml_quote.escaped (Char.ofNat n)) == some (.text, [Char.ofNat n]) &&
      (yaml_quote.escaped (Char.ofNat n)).all fun c => 0x20 ≤ c.toNat && c.toNat < 0x7f) = true := by
  decide +kernel

theorem scan_escaped (c : Char) : scan .text (yaml_quote.escaped c) = some (.text, [c]) := by
  rcases escaped_cases c with ⟨hself, hquote, hslash, hlow, -⟩ | hcode
  · rw [hself, scan, yaml.step]
    dsimp only
    rw [if_neg hquote, if_neg hslash, if_pos (.inr hlow)]
    rfl
  · have hread := List.all_eq_true.1 escapedCodes_read _ hcode
    rw [Char.ofNat_toNat, Bool.and_eq_true, beq_iff_eq] at hread
    exact hread.1

theorem escaped_safe {c d : Char} (hd : d ∈ yaml_quote.escaped c) : str.isControl d = false ∧ unsafe_unicode d = false := by
  rcases escaped_cases c with ⟨hself, -, -, -, hcontrol, hsafe⟩ | hcode
  · rw [hself] at hd
    obtain rfl := List.mem_singleton.1 hd
    exact ⟨hcontrol, hsafe⟩
  · have hread := List.all_eq_true.1 escapedCodes_read _ hcode
    rw [Char.ofNat_toNat, Bool.and_eq_true] at hread
    have hascii := List.all_eq_true.1 hread.2 d hd
    simp only [Bool.and_eq_true, decide_eq_true_eq] at hascii
    simp only [str.isControl, unsafe_unicode, Bool.or_eq_false_iff, Bool.and_eq_false_iff, beq_eq_false_iff_ne, decide_eq_false_iff_not]
    omega

theorem scan_flatMap_escaped (chars : List Char) : scan .text (chars.flatMap yaml_quote.escaped) = some (.text, chars) := by
  induction chars with
  | nil => rfl
  | cons c chars ih =>
    rw [List.flatMap_cons, yaml.scan_append, scan_escaped, Option.bind_some, ih]
    rfl

theorem BoundedText.write_str_safe (this : BoundedText) {chars : List Char} (hsafe : ∀ c ∈ chars, unsafe_unicode c = false)
    (hfits : this.text.utf8ByteSize + (String.ofList chars).utf8ByteSize ≤ this.limit) :
    chars.foldlM push this = some { this with text := this.text ++ String.ofList chars } := by
  induction chars generalizing this with
  | nil => exact congrArg some (congrArg (BoundedText.mk · this.limit) (String.append_empty).symm)
  | cons c chars ih =>
    rw [str.utf8ByteSize_ofList_cons] at hfits
    have hpush : push this c = some { this with text := this.text.push c } := by
      rw [push, hsafe c List.mem_cons_self, if_neg Bool.false_ne_true, if_neg (by omega)]
    rw [List.foldlM_cons, hpush]
    refine (ih _ (fun d hd => hsafe d (List.mem_cons_of_mem _ hd)) ?_).trans ?_
    · rw [String.utf8ByteSize_push]
      dsimp only
      omega
    · rw [String.push_eq_append, String.append_assoc, show String.singleton c = String.ofList [c] from rfl, ← String.ofList_append]
      rfl

/-- A quoted text is read back as the text, holds no control character, line break or bidirectional control and no
    quote but escaped ones, and passes a bounded writer unchanged. -/
theorem yaml_quote_reads (text : String) :
    yaml.unquote (yaml_quote text) = some text ∧
    (∀ c ∈ (yaml_quote text).toList, str.isControl c = false ∧
      c.toNat ∉ [0x61c, 0x200e, 0x200f, 0x2028, 0x2029, 0x202a, 0x202b, 0x202c, 0x202d, 0x202e, 0x2066, 0x2067, 0x2068, 0x2069]) ∧
    (∃ body, (yaml_quote text).toList = '"' :: body ++ ['"'] ∧
      ∀ front back, body = front ++ '"' :: back → ∃ value, scan .text front = some (.escape, value)) ∧
    ∀ this : BoundedText, this.text.utf8ByteSize + (yaml_quote text).utf8ByteSize ≤ this.limit →
      this.write_str (yaml_quote text) = some { this with text := this.text ++ yaml_quote text } := by
  have hchars : (yaml_quote text).toList = '"' :: text.toList.flatMap yaml_quote.escaped ++ ['"'] := String.toList_ofList
  have hsafe : ∀ c ∈ (yaml_quote text).toList, str.isControl c = false ∧ unsafe_unicode c = false := by
    intro c hc
    rw [hchars] at hc
    rcases List.mem_append.1 hc with hc | hc
    · rcases List.mem_cons.1 hc with rfl | hc
      · decide
      · obtain ⟨d, -, hd⟩ := List.mem_flatMap.1 hc
        exact escaped_safe hd
    · obtain rfl := List.mem_singleton.1 hc
      decide
  refine ⟨?_, fun c hc => ⟨(hsafe c hc).1, fun hmem => ?_⟩, ⟨_, hchars, fun front back hbody => ?_⟩, fun this hfits => ?_⟩
  · have hscan : scan .text (text.toList.flatMap yaml_quote.escaped ++ ['"']) = some (.closed, text.toList ++ []) := by
      rw [yaml.scan_append, scan_flatMap_escaped]
      rfl
    rw [yaml.unquote, hchars]
    change (match scan .text (text.toList.flatMap yaml_quote.escaped ++ ['"']) with
      | some (.closed, value) => some (String.ofList value)
      | _ => none) = _
    rw [hscan, List.append_nil]
    exact congrArg some String.ofList_toList
  · have hfalse : [0x61c, 0x200e, 0x200f, 0x2028, 0x2029, 0x202a, 0x202b, 0x202c, 0x202d, 0x202e, 0x2066, 0x2067, 0x2068, 0x2069].all
        (fun n => unsafe_unicode (Char.ofNat n)) = true := by decide
    have hunsafe := List.all_eq_true.1 hfalse _ hmem
    rw [Char.ofNat_toNat, (hsafe c hc).2] at hunsafe
    cases hunsafe
  · exact yaml.escape_of_quote (hbody ▸ scan_flatMap_escaped text.toList)
  · have hwrite := BoundedText.write_str_safe this (fun c hc => (hsafe c hc).2) (by rwa [String.ofList_toList])
    rwa [String.ofList_toList] at hwrite

end zc.override_script
