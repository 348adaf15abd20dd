import Zc.Json.Text

/-!
# Reading JSON text back

A reader of JSON text with `serde_json`'s bound on nesting, and the round trip: a value written by
`to_vec` is read back as it was.
-/

namespace zc

def isDigit (c : Char) : Bool :=
  '0' ≤ c && c ≤ '9'

/-- The characters of a number. -/
def isNumeral (c : Char) : Bool :=
  isDigit c || c == '-' || c == '+' || c == '.' || c == 'e' || c == 'E'

/-- The mark of a float: every float is printed with one. -/
def isFloatMark (c : Char) : Bool :=
  c == '.' || c == 'e' || c == 'E'

/-- The numbers there are: a negative integer is below zero, and a float has a float's text. -/
def Number.valid : Number → Bool
  | .PosInt _ => true
  | .NegInt n => n < 0
  | .Float text => text.toList.all isNumeral && text.toList.any isFloatMark

namespace Value

/-- At most `depth` levels of arrays and objects over valid numbers. -/
def Readable : Nat → Value → Prop
  | _, .null => True
  | _, .bool _ => True
  | _, .string _ => True
  | _, .number n => n.valid = true
  | depth + 1, .array items => ∀ item ∈ items, Readable depth item
  | depth + 1, .object entries => ∀ entry ∈ entries, Readable depth entry.2
  | _, _ => False

theorem Plain.readable {depth : Nat} {value : Value} (hplain : value.Plain depth) : value.Readable depth := by
  induction depth generalizing value with
  | zero =>
    cases value with
    | number n =>
      cases n with
      | PosInt n => rfl
      | NegInt n => cases hplain
      | Float text => cases hplain
    | _ => exact hplain
  | succ depth ih =>
    cases value with
    | number n =>
      cases n with
      | PosInt n => rfl
      | NegInt n => cases hplain
      | Float text => cases hplain
    | array items => exact fun item hitem => ih (hplain item hitem)
    | object entries => exact fun entry hentry => ih (hplain entry hentry)
    | _ => trivial

end Value

end zc

namespace zc.serde_json

/-- What a backslash and a letter stand for. -/
def unescape (c : Char) : Option Char :=
  if c = '"' ∨ c = '\\' ∨ c = '/' then some c
  else if c = 'b' then some '\x08'
  else if c = 't' then some '\t'
  else if c = 'n' then some '\n'
  else if c = 'f' then some '\x0c'
  else if c = 'r' then some '\r'
  else none

/-- The characters up to the closing quote, and what follows it. -/
def readString : List Char → Option (List Char × List Char)
  | [] => none
  | '\\' :: 'u' :: a :: b :: c :: d :: rest =>
    if [a, b, c, d].all isHexDigit then
      (readString rest).map fun read => (Char.ofNat (Digits.value 16 [a, b, c, d]) :: read.1, read.2)
    else none
  | '\\' :: c :: rest =>
    (unescape c).bind fun c => (readString rest).map fun read => (c :: read.1, read.2)
  | c :: rest => if c = '"' then some ([], rest) else (readString rest).map fun read => (c :: read.1, read.2)

/-- The number a run of numerals stands for. -/
def numberOf (text : List Char) : Option Number :=
  if text.any isFloatMark then some (.Float (String.ofList text))
  else if text.head? = some '-' then
    let n := Digits.value 10 text.tail
    if text.tail ≠ [] ∧ text.tail.all isDigit ∧ 0 < n ∧ n ≤ 2 ^ 63 then some (.NegInt (Int64.ofInt (-n))) else none
  else
    let n := Digits.value 10 text
    if text ≠ [] ∧ text.all isDigit ∧ n < 2 ^ 64 then some (.PosInt (UInt64.ofNat n)) else none

def readNumber (chars : List Char) : Option (Value × List Char) :=
  (numberOf (chars.takeWhile isNumeral)).map fun n => (.number n, chars.dropWhile isNumeral)

section Members

variable {α : Type} (item : List Char → Option (α × List Char)) (close : Char)

/-- The members after the first. -/
def readMore : Nat → List Char → Option (List α × List Char)
  | _, [] => none
  | 0, _ => none
  | fuel + 1, c :: rest =>
    if c = close then some ([], rest)
    else if c = ',' then
      (item rest).bind fun first => (readMore fuel first.2).map fun more => (first.1 :: more.1, more.2)
    else none

def readMembers (chars : List Char) : Option (List α × List Char) :=
  if chars.head? = some close then some ([], chars.tail)
  else (item chars).bind fun first => (readMore item close chars.length first.2).map fun more => (first.1 :: more.1, more.2)

end Members

def readEntry (value : List Char → Option (Value × List Char)) (chars : List Char) :
    Option ((String × Value) × List Char) :=
  if chars.head? = some '"' then
    (readString chars.tail).bind fun key =>
      if key.2.head? = some ':' then
        (value key.2.tail).map fun read => ((String.ofList key.1, read.1), read.2)
      else none
  else none

/-- A keyword, given without its first character. -/
def readWord (word : List Char) (value : Value) (chars : List Char) : Option (Value × List Char) :=
  if word.isPrefixOf chars then some (value, chars.drop word.length) else none

def readScalar (c : Char) (rest : List Char) : Option (Value × List Char) :=
  if c = 'n' then readWord ['u', 'l', 'l'] .null rest
  else if c = 't' then readWord ['r', 'u', 'e'] (.bool true) rest
  else if c = 'f' then readWord ['a', 'l', 's', 'e'] (.bool false) rest
  else if c = '"' then (readString rest).map fun read => (.string (String.ofList read.1), read.2)
  else readNumber (c :: rest)

def readValue : Nat → List Char → Option (Value × List Char)
  | _, [] => none
  | 0, c :: rest => readScalar c rest
  | depth + 1, c :: rest =>
    if c = '[' then (readMembers (readValue depth) ']' rest).map fun read => (.array read.1, read.2)
    else if c = '\x7b' then
      (readMembers (readEntry (readValue depth)) '\x7d' rest).map fun read => (.object read.1, read.2)
    else readScalar c rest

/-- `serde_json` gives up at the 128th level; only white space may follow the document. -/
def readDocument (bytes : List UInt8) : Option Value :=
  (str.from_utf8 bytes).bind fun s =>
    (readValue 127 s.toList).bind fun read =>
      if read.2.all fun c => c = ' ' ∨ c = '\n' ∨ c = '\t' ∨ c = '\r' then some read.1 else none

/-! ## The round trip -/

theorem hexPair_isHexDigit (b : UInt8) : (hexPair b).all isHexDigit = true := by
  have hb : b.toNat < 256 := b.toNat_lt
  simp only [hexPair, List.all_cons, List.all_nil, Bool.and_true, Bool.and_eq_true]
  exact ⟨isHexDigit_digitChar (by omega), isHexDigit_digitChar (by omega)⟩

theorem value_hexPair (b : UInt8) : Digits.value 16 ('0' :: '0' :: hexPair b) = b.toNat := by
  have hb : b.toNat < 256 := b.toNat_lt
  simp only [Digits.value, hexPair, List.foldl_cons, List.foldl_nil,
    toDigit_digitChar_sixteen (show b.toNat / 16 < 16 by omega),
    toDigit_digitChar_sixteen (show b.toNat % 16 < 16 by omega), Option.getD_some]
  have hzero : (Digits.toDigit 16 '0').getD 0 = 0 := by decide
  rw [hzero]
  omega

theorem readString_escape (c : Char) (rest : List Char) :
    readString (escape c ++ rest) = (readString rest).map fun read => (c :: read.1, read.2) := by
  unfold escape
  split_ifs with hquote hback hb ht hn hf hr hcontrol
  · subst hquote; rfl
  · subst hback; rfl
  · obtain rfl : c = '\x08' := Char.toNat_inj.1 hb
    rfl
  · subst ht; rfl
  · subst hn; rfl
  · obtain rfl : c = '\x0c' := Char.toNat_inj.1 hf
    rfl
  · subst hr; rfl
  · have hlt : c.toNat < 256 := by omega
    have hbyte : (UInt8.ofNat c.toNat).toNat = c.toNat := by
      rw [UInt8.toNat_ofNat']
      omega
    have hall : (['0', '0'] ++ hexPair (UInt8.ofNat c.toNat)).all isHexDigit = true := by
      rw [List.all_append, hexPair_isHexDigit]
      decide
    have hvalue := value_hexPair (UInt8.ofNat c.toNat)
    rw [hbyte] at hvalue
    simp only [hexPair, List.cons_append, List.nil_append] at hall hvalue ⊢
    rw [readString, if_pos hall, hvalue, Char.ofNat_toNat]
  · rw [List.singleton_append]
    rw [readString.eq_4 c rest (by rintro _ _ _ _ _ rfl; exact absurd rfl hback) (by rintro _ _ rfl; exact absurd rfl hback),
      if_neg hquote]

theorem readString_quote (s : String) (rest : List Char) :
    readString (s.toList.flatMap escape ++ '"' :: rest) = some (s.toList, rest) := by
  induction s.toList with
  | nil => rfl
  | cons c chars ih =>
    rw [List.flatMap_cons, List.append_assoc, readString_escape, ih]
    rfl

/-- What may follow a number in a document: anything but a numeral. -/
def Ended (rest : List Char) : Prop :=
  ∀ c ∈ rest.head?, isNumeral c = false

theorem isDigit_of_mem_toDigits {n : Nat} {c : Char} (hc : c ∈ Nat.toDigits 10 n) : isDigit c = true := by
  have hsome := Digits.isSome_toDigit_of_mem_toDigits (by decide) (by decide) hc
  simp only [Digits.toDigit] at hsome
  simp only [isDigit, Bool.and_eq_true, decide_eq_true_eq, Char.le_def, UInt32.le_iff_toNat_le]
  change 48 ≤ c.toNat ∧ c.toNat ≤ 57
  grind

theorem isFloatMark_of_isDigit {c : Char} (hc : isDigit c = true) : isFloatMark c = false := by
  simp only [isDigit, Bool.and_eq_true, decide_eq_true_eq, Char.le_def, UInt32.le_iff_toNat_le] at hc
  simp only [isFloatMark, Bool.or_eq_false_iff, beq_eq_false_iff_ne, ne_eq]
  refine ⟨⟨?_, ?_⟩, ?_⟩ <;> rintro rfl <;> exact absurd hc (by decide)

theorem isNumeral_of_isDigit {c : Char} (hc : isDigit c = true) : isNumeral c = true := by
  simp [isNumeral, hc]

theorem toDigits_facts (n : Nat) : (∀ c ∈ Nat.toDigits 10 n, isNumeral c = true) ∧
    (Nat.toDigits 10 n).any isFloatMark = false ∧ (Nat.toDigits 10 n).all isDigit = true := by
  refine ⟨fun c hc => isNumeral_of_isDigit (isDigit_of_mem_toDigits hc), ?_, ?_⟩
  · rw [List.any_eq_false]
    intro c hc
    simp [isFloatMark_of_isDigit (isDigit_of_mem_toDigits hc)]
  · rw [List.all_eq_true]
    exact fun c hc => isDigit_of_mem_toDigits hc

theorem numberOf_pos (n : UInt64) : numberOf (Nat.toDigits 10 n.toNat) = some (.PosInt n) := by
  obtain ⟨-, hmark, hdigits⟩ := toDigits_facts n.toNat
  have hhead : (Nat.toDigits 10 n.toNat).head? ≠ some '-' := by
    intro hhead
    have hc := isDigit_of_mem_toDigits (List.mem_of_mem_head? hhead)
    exact absurd hc (by decide)
  have hlt : n.toNat < 2 ^ 64 := n.toNat_lt
  simp only [numberOf, hmark, Bool.false_eq_true, if_false, if_neg hhead,
    Digits.value_toDigits (show 1 < 10 by decide) (show 10 ≤ 16 by decide)]
  rw [if_pos ⟨Nat.toDigits_ne_nil, hdigits, hlt⟩, UInt64.ofNat_toNat]

/-- The text of a negative integer: a sign and the digits. -/
theorem text_negInt {n : Int64} (hn : n < 0) :
    ∃ m : Nat, 0 < m ∧ m ≤ 2 ^ 63 ∧ n = Int64.ofInt (-m) ∧ (Number.NegInt n).text = '-' :: Nat.toDigits 10 m := by
  have hneg : n.toInt < 0 := by
    simpa using Int64.lt_iff_toInt_lt.1 hn
  have hlow := Int64.le_toInt n
  obtain ⟨m, hm⟩ : ∃ m : Nat, n.toInt = -((m + 1 : Nat) : Int) := ⟨(-n.toInt).toNat - 1, by omega⟩
  refine ⟨m + 1, Nat.succ_pos m, by omega, ?_, ?_⟩
  · rw [← hm, Int64.ofInt_toInt]
  · have htext : toString n = "-" ++ toString (m + 1) := by
      change toString n.toInt = _
      rw [hm]
      rfl
    rw [Number.text, htext, String.toList_append]
    simp [toString, Nat.repr]

theorem numberOf_neg {m : Nat} (hpos : 0 < m) (hle : m ≤ 2 ^ 63) :
    numberOf ('-' :: Nat.toDigits 10 m) = some (.NegInt (Int64.ofInt (-m))) := by
  obtain ⟨-, hmark, hdigits⟩ := toDigits_facts m
  have hmark' : ('-' :: Nat.toDigits 10 m).any isFloatMark = false := by
    rw [List.any_cons, hmark]
    rfl
  simp only [numberOf, hmark', Bool.false_eq_true, if_false, List.head?_cons, if_true, List.tail_cons,
    Digits.value_toDigits (show 1 < 10 by decide) (show 10 ≤ 16 by decide)]
  rw [if_pos ⟨Nat.toDigits_ne_nil, hdigits, hpos, hle⟩]

/-- The text of a number: numerals that stand for it. -/
theorem numberOf_text {n : Number} (hvalid : n.valid = true) :
    numberOf n.text = some n ∧ (∀ c ∈ n.text, isNumeral c = true) ∧ n.text ≠ [] := by
  cases n with
  | PosInt n => exact ⟨numberOf_pos n, (toDigits_facts n.toNat).1, Nat.toDigits_ne_nil⟩
  | NegInt n =>
    obtain ⟨m, hpos, hle, rfl, htext⟩ := text_negInt (of_decide_eq_true hvalid)
    rw [htext]
    refine ⟨numberOf_neg hpos hle, ?_, List.cons_ne_nil _ _⟩
    rw [List.forall_mem_cons]
    exact ⟨rfl, (toDigits_facts m).1⟩
  | Float text =>
    simp only [Number.valid, Bool.and_eq_true] at hvalid
    refine ⟨?_, List.all_eq_true.1 hvalid.1, ?_⟩
    · rw [numberOf, Number.text, if_pos hvalid.2, String.ofList_toList]
    · rintro hnil
      rw [Number.text] at hnil
      rw [hnil] at hvalid
      cases hvalid.2

theorem readNumber_text {n : Number} (hvalid : n.valid = true) {rest : List Char} (hrest : Ended rest) :
    readNumber (n.text ++ rest) = some (.number n, rest) := by
  obtain ⟨hnumber, hall, -⟩ := numberOf_text hvalid
  have htake : (n.text ++ rest).takeWhile isNumeral = n.text := by
    rw [List.takeWhile_append_of_pos hall]
    cases rest with
    | nil => simp
    | cons c rest => rw [List.takeWhile_cons, hrest c rfl]; simp
  have hdrop : (n.text ++ rest).dropWhile isNumeral = rest := by
    rw [List.dropWhile_append_of_pos hall]
    cases rest with
    | nil => rfl
    | cons c rest => rw [List.dropWhile_cons, hrest c rfl]; rfl
  rw [readNumber, htake, hdrop, hnumber]
  rfl

theorem ended_moreItems (items : List Value) (rest : List Char) : Ended (Value.moreItems items ++ rest) := by
  cases items with
  | nil => rintro c ⟨⟩; rfl
  | cons item items => rintro c ⟨⟩; rfl

theorem ended_moreEntries (entries : List (String × Value)) (rest : List Char) :
    Ended (Value.moreEntries entries ++ rest) := by
  cases entries with
  | nil => rintro c ⟨⟩; rfl
  | cons entry entries => rintro c ⟨⟩; rfl

section Round

variable {depth : Nat} (hread : ∀ value rest, Value.Readable depth value → Ended rest →
  readValue depth (value.text ++ rest) = some (value, rest))

include hread

theorem readMore_moreItems {items : List Value} (hitems : ∀ item ∈ items, item.Readable depth) {fuel : Nat}
    (hfuel : items.length < fuel) (rest : List Char) :
    readMore (readValue depth) ']' fuel (Value.moreItems items ++ rest) = some (items, rest) := by
  induction items generalizing fuel with
  | nil =>
    cases fuel with
    | zero => cases hfuel
    | succ fuel => rfl
  | cons item items ih =>
    cases fuel with
    | zero => cases hfuel
    | succ fuel =>
      have hfirst := hread item (Value.moreItems items ++ rest) (hitems item List.mem_cons_self)
        (ended_moreItems items rest)
      have hmore := ih (fun item' hitem' => hitems item' (List.mem_cons_of_mem _ hitem')) (Nat.lt_of_succ_lt_succ hfuel)
      rw [Value.moreItems, List.cons_append, List.cons_append, List.append_assoc, readMore, if_neg (by decide), if_pos rfl,
        hfirst]
      simp only [Option.bind_some, hmore, Option.map_some]

theorem readEntry_text {entry : String × Value} (hentry : entry.2.Readable depth) {rest : List Char} (hrest : Ended rest) :
    readEntry (readValue depth) (quote entry.1 ++ ':' :: entry.2.text ++ rest) = some (entry, rest) := by
  have hkey := readString_quote entry.1 (':' :: entry.2.text ++ rest)
  have hvalue := hread entry.2 rest hentry hrest
  simp only [readEntry, quote, List.cons_append, List.append_assoc, List.nil_append, List.head?_cons, if_true,
    List.tail_cons]
  simp only [List.cons_append] at hkey
  simp only [hkey, Option.bind_some, List.head?_cons, if_true, List.tail_cons, hvalue, Option.map_some,
    String.ofList_toList]

theorem readMore_moreEntries {entries : List (String × Value)} (hentries : ∀ entry ∈ entries, entry.2.Readable depth)
    {fuel : Nat} (hfuel : entries.length < fuel) (rest : List Char) :
    readMore (readEntry (readValue depth)) '\x7d' fuel (Value.moreEntries entries ++ rest) = some (entries, rest) := by
  induction entries generalizing fuel with
  | nil =>
    cases fuel with
    | zero => cases hfuel
    | succ fuel => rfl
  | cons entry entries ih =>
    cases fuel with
    | zero => cases hfuel
    | succ fuel =>
      have hfirst := readEntry_text hread (hentries entry List.mem_cons_self) (ended_moreEntries entries rest)
      have hmore := ih (fun entry' hentry' => hentries entry' (List.mem_cons_of_mem _ hentry'))
        (Nat.lt_of_succ_lt_succ hfuel)
      rw [Value.moreEntries]
      simp only [List.cons_append, List.append_assoc] at hfirst ⊢
      rw [readMore, if_neg (by decide), if_pos rfl, hfirst]
      simp only [Option.bind_some, hmore, Option.map_some]

end Round

theorem lt_length_moreItems (items : List Value) : items.length < (Value.moreItems items).length := by
  induction items with
  | nil => exact Nat.one_pos
  | cons item items ih =>
    simp only [Value.moreItems, List.length_append, List.length_cons]
    omega

theorem lt_length_moreEntries (entries : List (String × Value)) : entries.length < (Value.moreEntries entries).length := by
  induction entries with
  | nil => exact Nat.one_pos
  | cons entry entries ih =>
    simp only [Value.moreEntries, List.length_append, List.length_cons]
    omega

theorem exists_text_cons {n : Number} (hvalid : n.valid = true) : ∃ c chars, n.text = c :: chars ∧ isNumeral c = true := by
  obtain ⟨-, hall, hne⟩ := numberOf_text hvalid
  obtain ⟨c, chars, hchars⟩ := List.exists_cons_of_ne_nil hne
  exact ⟨c, chars, hchars, hall c (hchars ▸ List.mem_cons_self)⟩

theorem ne_of_isNumeral {c c' : Char} (hc : isNumeral c = true) (hc' : isNumeral c' = false) : c ≠ c' := by
  rintro rfl
  rw [hc] at hc'
  cases hc'

theorem readValue_scalar (depth : Nat) {c : Char} (rest : List Char) (harray : c ≠ '[') (hobject : c ≠ '\x7b') :
    readValue depth (c :: rest) = readScalar c rest := by
  cases depth with
  | zero => rfl
  | succ depth => rw [readValue, if_neg harray, if_neg hobject]

theorem readValue_number (depth : Nat) {n : Number} (hvalid : n.valid = true) {rest : List Char} (hrest : Ended rest) :
    readValue depth ((Value.number n).text ++ rest) = some (.number n, rest) := by
  have hnumber := readNumber_text hvalid hrest
  obtain ⟨c, chars, hchars, hc⟩ := exists_text_cons hvalid
  simp only [Value.text, hchars, List.cons_append] at hnumber ⊢
  rw [readValue_scalar depth _ (ne_of_isNumeral hc rfl) (ne_of_isNumeral hc rfl), readScalar,
    if_neg (ne_of_isNumeral hc rfl), if_neg (ne_of_isNumeral hc rfl), if_neg (ne_of_isNumeral hc rfl),
    if_neg (ne_of_isNumeral hc rfl), hnumber]

theorem readValue_string (depth : Nat) (s : String) (rest : List Char) :
    readValue depth ((Value.string s).text ++ rest) = some (.string s, rest) := by
  simp only [Value.text, quote, List.cons_append, List.append_assoc, List.nil_append]
  rw [readValue_scalar depth _ (by decide) (by decide), readScalar, if_neg (by decide), if_neg (by decide),
    if_neg (by decide), if_pos rfl, readString_quote]
  simp only [Option.map_some, String.ofList_toList]

/-- No value starts with the bracket that ends an array. -/
theorem head?_text_ne {depth : Nat} {value : Value} (hreadable : value.Readable depth) (rest : List Char) :
    (value.text ++ rest).head? ≠ some ']' := by
  cases value with
  | null => simp [Value.text]
  | bool value => cases value <;> simp [Value.text]
  | number n =>
    have hvalid : n.valid = true := by
      cases depth <;> exact hreadable
    obtain ⟨c, chars, hchars, hc⟩ := exists_text_cons hvalid
    simp only [Value.text, hchars, List.cons_append, List.head?_cons, ne_eq, Option.some.injEq]
    exact ne_of_isNumeral hc rfl
  | string s => simp [Value.text, quote]
  | array items => cases items <;> simp [Value.text]
  | object entries => cases entries <;> simp [Value.text]

theorem readMembers_items {depth : Nat}
    (hread : ∀ value rest, Value.Readable depth value → Ended rest → readValue depth (value.text ++ rest) = some (value, rest))
    {item : Value} {items : List Value} (hitems : ∀ other ∈ item :: items, other.Readable depth) (rest : List Char) :
    readMembers (readValue depth) ']' (item.text ++ Value.moreItems items ++ rest) = some (item :: items, rest) := by
  have hitem := hitems item List.mem_cons_self
  have hlength := lt_length_moreItems items
  have hfirst := hread item (Value.moreItems items ++ rest) hitem (ended_moreItems items rest)
  have hmore := readMore_moreItems hread (fun other hother => hitems other (List.mem_cons_of_mem _ hother))
    (show items.length < (item.text ++ Value.moreItems items ++ rest).length by simp only [List.length_append]; omega) rest
  rw [List.append_assoc] at hmore ⊢
  rw [readMembers, if_neg (head?_text_ne hitem _), hfirst]
  simp only [Option.bind_some, hmore, Option.map_some]

theorem readMembers_entries {depth : Nat}
    (hread : ∀ value rest, Value.Readable depth value → Ended rest → readValue depth (value.text ++ rest) = some (value, rest))
    {entry : String × Value} {entries : List (String × Value)} (hentries : ∀ other ∈ entry :: entries, other.2.Readable depth)
    (rest : List Char) :
    readMembers (readEntry (readValue depth)) '\x7d'
      (quote entry.1 ++ ':' :: entry.2.text ++ Value.moreEntries entries ++ rest) = some (entry :: entries, rest) := by
  have hlength := lt_length_moreEntries entries
  have hfirst := readEntry_text hread (hentries entry List.mem_cons_self) (ended_moreEntries entries rest)
  have hmore := readMore_moreEntries hread (fun other hother => hentries other (List.mem_cons_of_mem _ hother))
    (show entries.length < (quote entry.1 ++ ':' :: entry.2.text ++ Value.moreEntries entries ++ rest).length by
      simp only [List.length_append]
      omega) rest
  have hhead : (quote entry.1 ++ ':' :: entry.2.text ++ Value.moreEntries entries ++ rest).head? ≠ some '\x7d' := by
    simp [quote]
  rw [readMembers, if_neg hhead]
  rw [List.append_assoc] at hmore ⊢
  rw [hfirst]
  simp only [Option.bind_some, hmore, Option.map_some]

/-- A record is read back with whatever followed it left over. -/
theorem readValue_text (depth : Nat) : ∀ value rest, Value.Readable depth value → Ended rest →
    readValue depth (value.text ++ rest) = some (value, rest) := by
  induction depth with
  | zero =>
    intro value rest hreadable hrest
    cases value with
    | null => rfl
    | bool value => cases value <;> rfl
    | number n => exact readValue_number 0 hreadable hrest
    | string s => exact readValue_string 0 s rest
    | array items => cases hreadable
    | object entries => cases hreadable
  | succ depth ih =>
    intro value rest hreadable hrest
    cases value with
    | null => rfl
    | bool value => cases value <;> rfl
    | number n => exact readValue_number _ hreadable hrest
    | string s => exact readValue_string _ s rest
    | array items =>
      cases items with
      | nil => rfl
      | cons item items =>
        have hmembers := readMembers_items ih hreadable rest
        rw [Value.text, List.cons_append, List.cons_append, readValue, if_pos rfl, hmembers]
        rfl
    | object entries =>
      cases entries with
      | nil => rfl
      | cons entry entries =>
        have hmembers := readMembers_entries ih hreadable rest
        simp only [Value.text, List.cons_append] at hmembers ⊢
        rw [readValue, if_neg (by decide), if_pos rfl, hmembers]
        rfl

/-- What `to_vec` writes, ended by a line feed, reads back. -/
theorem readDocument_line {value : Value} (hplain : value.Plain 127) :
    readDocument (to_vec value ++ [10]) = some value := by
  have hbytes : to_vec value ++ [10] = str.bytes (to_string value ++ "\n") := by
    rw [str.bytes_append]
    rfl
  have hread := readValue_text 127 value ['\n'] hplain.readable (by rintro c ⟨⟩; rfl)
  have htext : (to_string value ++ "\n").toList = value.text ++ ['\n'] := by
    rw [String.toList_append, to_string, String.toList_ofList]
    rfl
  rw [readDocument, hbytes, str.from_utf8_eq_some_iff.2 rfl, Option.bind_some, htext, hread, Option.bind_some]
  rfl

end zc.serde_json
