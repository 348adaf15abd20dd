import Zc.Config.Provider
import Zc.Json.Read

/-!
# Documents that can be written and read

The crate writes a document with `serde_json` and parses the text again several times on the way to
a configuration. What it assumes of the libraries there: they return values of the type, and read
the text of such a value back.
-/

namespace zc

/-! ## Values of the type -/

/-- The keys of a map stand in order. -/
def ordered (entries : List (String × Value)) : Bool :=
  decide (entries.Pairwise fun a b => a.1 < b.1)

variable {items : List Value} {entries : List (String × Value)} {value : Value}

namespace Value

mutual

/-- Maps are ordered and numbers are valid, everywhere in the value. -/
def valid : Value → Bool
  | .number n => n.valid
  | .array items => validItems items
  | .object entries => ordered entries && validEntries entries
  | _ => true

def validItems : List Value → Bool
  | [] => true
  | item :: items => valid item && validItems items

def validEntries : List (String × Value) → Bool
  | [] => true
  | entry :: entries => validEntry entry && validEntries entries

def validEntry : String × Value → Bool
  | (_, value) => valid value

end

theorem validItems_iff : validItems items = true ↔ ∀ item ∈ items, item.valid = true := by
  induction items with
  | nil => simp [validItems]
  | cons item items ih => simp [validItems, ih]

theorem validEntries_iff : validEntries entries = true ↔ ∀ entry ∈ entries, entry.2.valid = true := by
  induction entries with
  | nil => simp [validEntries]
  | cons entry entries ih =>
    obtain ⟨key, value⟩ := entry
    simp [validEntries, validEntry, ih]

@[simp]
theorem valid_array : (Value.array items).valid = true ↔ ∀ item ∈ items, item.valid = true := by
  rw [valid, validItems_iff]

@[simp]
theorem valid_object : (Value.object entries).valid = true ↔
    (entries.Pairwise fun a b => a.1 < b.1) ∧ ∀ entry ∈ entries, entry.2.valid = true := by
  rw [valid, Bool.and_eq_true, validEntries_iff, ordered, decide_eq_true_eq]

@[simp]
theorem valid_string (s : String) : (Value.string s).valid = true := rfl

@[simp]
theorem valid_bool (b : Bool) : (Value.bool b).valid = true := rfl

/-! ## Reading them -/

theorem length_text_lt_moreItems {item : Value} (hitem : item ∈ items) :
    item.text.length < (moreItems items).length := by
  induction items with
  | nil => cases hitem
  | cons first items ih =>
    simp only [moreItems, List.length_append, List.length_cons]
    rcases List.mem_cons.1 hitem with rfl | hitem
    · omega
    · have := ih hitem
      omega

theorem length_text_lt_moreEntries {entry : String × Value} (hentry : entry ∈ entries) :
    entry.2.text.length < (moreEntries entries).length := by
  induction entries with
  | nil => cases hentry
  | cons first entries ih =>
    simp only [moreEntries, List.length_append, List.length_cons]
    rcases List.mem_cons.1 hentry with rfl | hentry
    · omega
    · have := ih hentry
      omega

theorem length_text_lt_array {item : Value} (hitem : item ∈ items) :
    item.text.length < (Value.array items).text.length := by
  cases items with
  | nil => cases hitem
  | cons first items =>
    simp only [text, List.length_append, List.length_cons]
    rcases List.mem_cons.1 hitem with rfl | hitem
    · omega
    · have := length_text_lt_moreItems hitem
      omega

theorem length_text_lt_object {entry : String × Value} (hentry : entry ∈ entries) :
    entry.2.text.length < (Value.object entries).text.length := by
  cases entries with
  | nil => cases hentry
  | cons first entries =>
    simp only [text, List.length_append, List.length_cons]
    rcases List.mem_cons.1 hentry with rfl | hentry
    · omega
    · have := length_text_lt_moreEntries hentry
      omega

/-- A value has no more levels than its text has characters. -/
theorem readable_of_valid {depth : Nat} (hvalid : value.valid = true) (hdepth : value.text.length ≤ depth) :
    value.Readable depth := by
  induction depth generalizing value with
  | zero =>
    cases value with
    | array items => cases items <;> simp [text] at hdepth
    | object entries => cases entries <;> simp [text] at hdepth
    | number n => exact hvalid
    | _ => trivial
  | succ depth ih =>
    cases value with
    | array items =>
      intro item hitem
      have hlt := length_text_lt_array hitem
      exact ih (valid_array.1 hvalid item hitem) (by omega)
    | object entries =>
      intro entry hentry
      have hlt := length_text_lt_object hentry
      exact ih ((valid_object.1 hvalid).2 entry hentry) (by omega)
    | number n => exact hvalid
    | _ => trivial

end Value

namespace serde_json

/-- A reader of the text of one valid value, without a bound on its levels. -/
def readText (text : String) : Option Value :=
  (readValue text.toList.length text.toList).bind fun read => if read.2 = [] ∧ read.1.valid then some read.1 else none

theorem readText_to_string (hvalid : value.valid = true) : readText (to_string value) = some value := by
  have hread := readValue_text value.text.length value [] (Value.readable_of_valid hvalid (Nat.le_refl _)) nofun
  rw [List.append_nil] at hread
  rw [readText, to_string, String.toList_ofList, hread, Option.bind_some, if_pos ⟨rfl, hvalid⟩]

theorem valid_of_readText {text : String} (hread : readText text = some value) : value.valid = true := by
  obtain ⟨read, -, hif⟩ := Option.bind_eq_some_iff.1 hread
  split at hif
  · next hvalid =>
    rw [← Option.some.inj hif]
    exact hvalid.2
  · cases hif

end serde_json

/-! ## The libraries -/

/-- What the crate assumes of the parsers of documents. -/
structure Crates.Lawful (crates : Crates) : Prop where
  valid : ∀ source value, config.yaml_value crates source = .ok value → value.valid = true
  reads : ∀ value, value.valid = true → str.len (serde_json.to_string value) ≤ config.MAX_SOURCE_BYTES →
    config.yaml_value crates (serde_json.to_string value) = .ok value

/-- Parsers that take JSON and HTTPS only, and know no network or server name. -/
def Crates.json : Crates where
  json_document _ := none
  yaml_documents text := okOr ((serde_json.readText text).map fun value => [value]) (.message "invalid YAML")
  parse_net _ := none
  contains _ _ := false
  parse_url text := (str.stripPrefix text "https://").map fun host => ⟨"https", some host⟩
  server_name _ := false

theorem Crates.lawful_json : Crates.json.Lawful where
  valid := by
    intro source value hvalue
    unfold config.yaml_value at hvalue
    split at hvalue
    · cases hvalue
    · simp only [Crates.json, Option.filter_none, ite_self, bind_eq_ok_iff, okOr_eq_ok_iff, Option.map_eq_some_iff] at hvalue
      obtain ⟨documents, ⟨read, hread, rfl⟩, hpure⟩ := hvalue
      obtain rfl := Except.ok.inj hpure
      exact serde_json.valid_of_readText hread
  reads := by
    intro value hvalid hlen
    unfold config.yaml_value
    rw [if_neg (Nat.not_lt.2 hlen)]
    simp only [Crates.json, Option.filter_none, ite_self, serde_json.readText_to_string hvalid, Option.map_some, okOr]
    rfl

end zc
