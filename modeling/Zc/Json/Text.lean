import Zc.Config.Value
import Zc.Hex

/-!
# The JSON text of a document

`serde_json::to_string` and `to_vec`: compact, members in the order they are given, and in a string
only the quote, the backslash and the characters below a space escaped.
-/

namespace zc

def escape (c : Char) : List Char :=
  if c = '"' then ['\\', '"']
  else if c = '\\' then ['\\', '\\']
  else if c.toNat = 0x08 then ['\\', 'b']
  else if c = '\t' then ['\\', 't']
  else if c = '\n' then ['\\', 'n']
  else if c.toNat = 0x0c then ['\\', 'f']
  else if c = '\r' then ['\\', 'r']
  else if c.toNat < 0x20 then '\\' :: 'u' :: '0' :: '0' :: hexPair (UInt8.ofNat c.toNat)
  else [c]

def quote (s : String) : List Char :=
  '"' :: s.toList.flatMap escape ++ ['"']

def Number.text : Number → List Char
  | .PosInt n => Nat.toDigits 10 n.toNat
  | .NegInt n => (toString n).toList
  | .Float text => text.toList

namespace Value

mutual

def text : Value → List Char
  | .null => ['n', 'u', 'l', 'l']
  | .bool true => ['t', 'r', 'u', 'e']
  | .bool false => ['f', 'a', 'l', 's', 'e']
  | .number n => n.text
  | .string s => quote s
  | .array [] => ['[', ']']
  | .array (item :: items) => '[' :: text item ++ moreItems items
  | .object [] => ['\x7b', '\x7d']
  | .object ((key, value) :: entries) => '\x7b' :: quote key ++ ':' :: text value ++ moreEntries entries

/-- The items after the first, up to the closing bracket. -/
def moreItems : List Value → List Char
  | [] => [']']
  | item :: items => ',' :: text item ++ moreItems items

/-- The members after the first, up to the closing brace. -/
def moreEntries : List (String × Value) → List Char
  | [] => ['\x7d']
  | (key, value) :: entries => ',' :: quote key ++ ':' :: text value ++ moreEntries entries

end

end Value

namespace serde_json

def to_string (value : Value) : String :=
  String.ofList value.text

def to_vec (value : Value) : List UInt8 :=
  str.bytes (to_string value)

end serde_json

namespace Value

/-- What the records of the store are made of: unsigned integers, strings and at most `depth` levels
    of arrays and objects. -/
def Plain : Nat → Value → Prop
  | _, .null => True
  | _, .bool _ => True
  | _, .string _ => True
  | _, .number (.PosInt _) => True
  | depth + 1, .array items => ∀ item ∈ items, Plain depth item
  | depth + 1, .object entries => ∀ entry ∈ entries, Plain depth entry.2
  | _, _ => False

theorem Plain.mono {depth depth' : Nat} {value : Value} (hplain : value.Plain depth) (hle : depth ≤ depth') :
    value.Plain depth' := by
  induction depth generalizing depth' value with
  | zero =>
    cases value with
    | null => cases depth' <;> trivial
    | bool value => cases depth' <;> trivial
    | string s => cases depth' <;> trivial
    | number n =>
      cases n with
      | PosInt n => cases depth' <;> trivial
      | NegInt n => cases hplain
      | Float text => cases hplain
    | array items => cases hplain
    | object entries => cases hplain
  | succ depth ih =>
    obtain ⟨depth', rfl⟩ := Nat.exists_eq_add_of_le' (Nat.le_trans (Nat.succ_pos depth) hle)
    cases value with
    | null => trivial
    | bool value => trivial
    | string s => trivial
    | number n =>
      cases n with
      | PosInt n => trivial
      | NegInt n => cases hplain
      | Float text => cases hplain
    | array items => exact fun item hitem => ih (hplain item hitem) (Nat.le_of_succ_le_succ hle)
    | object entries => exact fun entry hentry => ih (hplain entry hentry) (Nat.le_of_succ_le_succ hle)

end Value

/-- The bytes of a string with one more ASCII character after it. -/
theorem str.bytes_append (s t : String) : str.bytes (s ++ t) = str.bytes s ++ str.bytes t := by
  unfold str.bytes
  rw [String.toByteArray_append, ByteArray.data_append, Array.toList_append]

/-- A character takes at most four bytes. -/
theorem str.len_ofList_le (chars : List Char) : str.len (String.ofList chars) ≤ 4 * chars.length := by
  rw [str.len, String.utf8ByteSize_ofList]
  induction chars with
  | nil => exact Nat.le_refl _
  | cons c chars ih =>
    have hc := c.utf8Size_le_four
    rw [String.utf8Len_cons, List.length_cons]
    omega

theorem serde_json.length_to_vec_le (value : Value) : (serde_json.to_vec value).length ≤ 4 * value.text.length := by
  have hlen : (serde_json.to_vec value).length = str.len (serde_json.to_string value) := by
    rw [serde_json.to_vec, str.bytes, Array.length_toList]
    rfl
  rw [hlen]
  exact str.len_ofList_le _

end zc
