import Zc.Str

/-!
# Documents

`serde_json::Value` and the shapes the crate's `Deserialize` implementations take out of it. The
map of an object is a `BTreeMap`, so its entries stand in the order of their keys.
-/

namespace zc

/-- `serde_json::Number`. A float is kept as the text it is printed as. -/
inductive Number where
  | PosInt (n : UInt64)
  | NegInt (n : Int64)
  | Float (text : String)
  deriving DecidableEq

inductive Value where
  | null
  | bool (value : Bool)
  | number (value : Number)
  | string (value : String)
  | array (items : List Value)
  | object (entries : List (String × Value))

namespace Value

def get (value : Value) (key : String) : Option Value :=
  match value with
  | .object entries => entries.lookup key
  | _ => none

def as_array : Value → Option (List Value)
  | .array items => some items
  | _ => none

def as_object : Value → Option (List (String × Value))
  | .object entries => some entries
  | _ => none

def as_str : Value → Option String
  | .string value => some value
  | _ => none

def as_bool : Value → Option Bool
  | .bool value => some value
  | _ => none

def as_u64 : Value → Option Nat
  | .number (.PosInt n) => some n.toNat
  | _ => none

def is_null : Value → Bool
  | .null => true
  | _ => false

/-! ## Deserialization -/

/-- An unsigned integer below a bound. -/
def unsigned (bound : Nat) (value : Value) : Option Nat :=
  value.as_u64.bind fun n => if n < bound then some n else none

/-- An `Option` field: null is absence. -/
def optional {α : Type} (decode : Value → Option α) (value : Value) : Option (Option α) :=
  if value.is_null then some none else (decode value).map some

/-- `bounded`: a sequence of at most `limit` entries. -/
def bounded {α : Type} (limit : Nat) (decode : Value → Option α) (value : Value) : Option (List α) :=
  value.as_array.bind fun items => if items.length ≤ limit then items.mapM decode else none

/-- `Mapping<BTreeMap<String, T>>`: null is no mapping. -/
def mapping {α : Type} (decode : Value → Option α) (value : Value) : Option (List (String × α)) :=
  value.as_object.bind fun entries =>
    entries.mapM fun entry => (decode entry.2).map fun result => (entry.1, result)

/-- The fields of a derived `Deserialize` that denies unknown ones. Each field has the names it may
    be written under; a mapping gives it under one of them, a sequence gives it by position. -/
def fields (names : List (List String)) (value : Value) : Option (Nat → Option Value) :=
  match value with
  | .object entries =>
    if entries.all (fun entry => names.any (·.contains entry.1)) ∧
        names.all (fun field => (entries.filter fun entry => field.contains entry.1).length ≤ 1) then
      some fun index => (names[index]?).bind fun field =>
        (entries.find? fun entry => field.contains entry.1).map (·.2)
    else none
  | .array items =>
    if items.length ≤ names.length then some fun index => items[index]? else none
  | _ => none

/-- A field without a default. -/
def required {α : Type} (decode : Value → Option α) (field : Option Value) : Option α :=
  field.bind decode

/-- A field with `#[serde(default)]`. -/
def defaulted {α : Type} (default : α) (decode : Value → Option α) (field : Option Value) : Option α :=
  match field with
  | none => some default
  | some value => decode value

/-- `present`: absent or a value, never an explicit null. -/
def present {α : Type} (decode : Value → Option α) (field : Option Value) : Option (Option α) :=
  match field with
  | none => some none
  | some value => (decode value).map some

end Value

end zc
