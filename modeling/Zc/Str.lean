import Mathlib.Data.List.Infix
import Mathlib.Data.String.Basic

/-!
# Rust string slices

The `str` and `char` operations of the Rust standard library that the crate uses, over Lean
strings. Every operation goes through the list of characters; only `len` and `bytes` look at the
UTF-8 encoding.
-/

namespace zc.str

/-- `str::as_bytes`. -/
def bytes (s : String) : List UInt8 :=
  s.toByteArray.data.toList

/-- `str::from_utf8`. -/
def from_utf8 (bytes : List UInt8) : Option String :=
  if hvalid : ByteArray.IsValidUTF8 ⟨bytes.toArray⟩ then some (String.ofByteArray ⟨bytes.toArray⟩ hvalid)
  else none

theorem from_utf8_eq_some_iff {text : List UInt8} {s : String} : from_utf8 text = some s ↔ bytes s = text := by
  unfold from_utf8
  constructor
  · intro hdecode
    split at hdecode
    · cases hdecode
      rfl
    · cases hdecode
  · rintro rfl
    have harray : (⟨(bytes s).toArray⟩ : ByteArray) = s.toByteArray := by
      simp [bytes]
    rw [dif_pos (harray ▸ s.isValidUTF8)]
    exact congrArg some (String.toByteArray_inj.1 harray)

/-- `str::len`, the number of UTF-8 bytes. -/
def len (s : String) : Nat :=
  s.utf8ByteSize

/-- `u8::is_ascii_whitespace`; vertical tab is not in the set. -/
def isAsciiWhitespace (c : Char) : Bool :=
  c == ' ' || c == '\t' || c == '\n' || c == '\r' || c.toNat == 0x0c

/-- `u8::is_ascii_control`. -/
def isAsciiControl (c : Char) : Bool :=
  c.toNat < 0x20 || c.toNat == 0x7f

/-- `char::is_control`, the general category `Cc`. -/
def isControl (c : Char) : Bool :=
  c.toNat < 0x20 || (0x7f ≤ c.toNat && c.toNat < 0xa0)

/-- `char::is_whitespace`, the Unicode property `White_Space`. -/
def isWhitespace (c : Char) : Bool :=
  let n := c.toNat
  (0x09 ≤ n && n ≤ 0x0d) || n == 0x20 || n == 0x85 || n == 0xa0 || n == 0x1680 ||
    (0x2000 ≤ n && n ≤ 0x200a) || n == 0x2028 || n == 0x2029 || n == 0x202f || n == 0x205f ||
    n == 0x3000

/-- `str::is_ascii`. -/
def isAscii (s : String) : Bool :=
  s.toList.all (·.toNat < 0x80)

/-- `str::starts_with` with a string pattern. -/
def startsWith (s head : String) : Bool :=
  head.toList.isPrefixOf s.toList

/-- `str::ends_with` with a string pattern. -/
def endsWith (s tail : String) : Bool :=
  tail.toList.isSuffixOf s.toList

/-- `str::contains` with a string pattern. -/
def contains (s needle : String) : Bool :=
  decide (needle.toList <:+: s.toList)

/-- `str::strip_prefix`. -/
def stripPrefix (s head : String) : Option String :=
  if startsWith s head then some (String.ofList (s.toList.drop head.toList.length)) else none

/-- `str::strip_suffix`. -/
def stripSuffix (s tail : String) : Option String :=
  if endsWith s tail then
    some (String.ofList (s.toList.take (s.toList.length - tail.toList.length)))
  else none

/-- `str::split` at a character. -/
def split (s : String) (sep : Char) : List String :=
  (s.toList.splitOn sep).map String.ofList

/-- `str::split_once` at a character: the text before and after its first occurrence. -/
def splitOnce (s : String) (sep : Char) : Option (String × String) :=
  if s.toList.contains sep then
    some (String.ofList (s.toList.takeWhile (· != sep)),
      String.ofList ((s.toList.dropWhile (· != sep)).drop 1))
  else none

/-- `str::rsplit_once` at a character: the text before and after its last occurrence. -/
def rsplitOnce (s : String) (sep : Char) : Option (String × String) :=
  if s.toList.contains sep then
    let back := (s.toList.reverse.takeWhile (· != sep)).reverse
    some (String.ofList (s.toList.take (s.toList.length - back.length - 1)), String.ofList back)
  else none

/-- `str::split_terminator` at a character: nothing follows a final separator. -/
def splitTerminator (s : String) (sep : Char) : List String :=
  let pieces := split s sep
  if pieces.getLast? = some "" then pieces.dropLast else pieces

/-- `str::trim_start_matches` with a character class. -/
def trimStartMatches (p : Char → Bool) (s : String) : String :=
  String.ofList (s.toList.dropWhile p)

/-- `str::trim_end_matches` with a character class. -/
def trimEndMatches (p : Char → Bool) (s : String) : String :=
  String.ofList (s.toList.reverse.dropWhile p).reverse

/-- `str::trim_matches` with a character class. -/
def trimMatches (p : Char → Bool) (s : String) : String :=
  trimEndMatches p (trimStartMatches p s)

/-- `str::trim`. -/
def trim (s : String) : String :=
  trimMatches isWhitespace s

/-- `str::to_ascii_lowercase`; `Char.toLower` leaves every other character alone. -/
def toAsciiLowercase (s : String) : String :=
  String.ofList (s.toList.map Char.toLower)

/-- The value of a text of decimal digits. -/
def decimal (s : String) : Nat :=
  s.toList.foldl (fun n c => 10 * n + (c.toNat - '0'.toNat)) 0

/-- `str::lines`: a line ends at `\n` or `\r\n`, and the last line need not be ended. -/
def lines (s : String) : List String :=
  let pieces := s.toList.splitOn '\n'
  let ended := pieces.dropLast.map fun line => if line.getLast? = some '\r' then line.dropLast else line
  let rest := pieces.getLast?.getD []
  (if rest.isEmpty then ended else ended ++ [rest]).map String.ofList

theorem utf8ByteSize_ofList_cons (c : Char) (chars : List Char) :
    (String.ofList (c :: chars)).utf8ByteSize = c.utf8Size + (String.ofList chars).utf8ByteSize := by
  rw [← List.singleton_append, String.ofList_append, String.utf8ByteSize_append, show String.ofList [c] = String.singleton c from rfl,
    String.utf8ByteSize_singleton]

end zc.str
