import Zc.Store.Types

/-!
# The environment of an override script

`Invocation::environment` passes an argument on under its index and under a name derived from its
key. All of them are entries of one map, and a derived name can be a name of the other kinds.
-/

namespace zc.override_script

open SortedMap (lastEntry)

def TIMEOUT_MS_MAX : UInt32 := 60000
def MAX_OUTPUT_BYTES : Nat := 1024 * 1024

def validate_timeout (timeout : UInt32) : Result Unit :=
  bail_if (!(1 ≤ timeout && timeout ≤ TIMEOUT_MS_MAX)) "INVALID_OVERRIDE_TIMEOUT: expected 1..60000 milliseconds"

def input_bytes (invocation : Invocation) : Nat :=
  str.len invocation.command + str.len invocation.config_path + str.len invocation.script_path +
    (invocation.args.map fun argument => str.len argument.1 + str.len argument.2 + 2).sum

/-! ## Names -/

def countName : String := "ZC_OVERRIDE_ARG_COUNT"

def keyName (index : Nat) : String :=
  "ZC_OVERRIDE_ARG_" ++ toString index ++ "_KEY"

def valueName (index : Nat) : String :=
  "ZC_OVERRIDE_ARG_" ++ toString index ++ "_VALUE"

/-- Letters and digits stay, in upper case, and each other byte is an underscore. -/
def derivedChar (byte : UInt8) : Char :=
  let c := Char.ofNat byte.toNat
  if c.isAlphanum then c.toUpper else '_'

def derivedName (key : String) : String :=
  "ZC_OVERRIDE_ARG_" ++ String.ofList ((str.bytes key).map derivedChar)

/-! ## The map -/

def initialEntries (invocation : Invocation) : List (String × String) :=
  [("ZC_OVERRIDE_COMMAND", invocation.command),
    ("ZC_OVERRIDE_CONFIG_PATH", invocation.config_path),
    ("ZC_OVERRIDE_SCRIPT_PATH", invocation.script_path),
    ("ZC_OVERRIDE_TIMEOUT_MS", toString invocation.timeout_ms),
    (countName, toString invocation.args.length)]

def insert_argument (index : Nat) (argument : String × String) (env : SortedMap String String) :
    Result (SortedMap String String) := do
  bail_if (decide (argument.1 = "")) "INVALID_OVERRIDE_ARG: empty key"
  let env := env.insert (keyName index) argument.1
  let env := env.insert (valueName index) argument.2
  return env.insert (derivedName argument.1) argument.2

def insert_arguments : Nat → List (String × String) → SortedMap String String → Result (SortedMap String String)
  | _, [], env => .ok env
  | index, argument :: args, env => do
    let env ← insert_argument index argument env
    insert_arguments (index + 1) args env

def legacy_args (args : List (String × String)) : String :=
  String.intercalate ";" (args.map fun argument => argument.1 ++ "=" ++ argument.2)

def environment (invocation : Invocation) : Result (SortedMap String String) := do
  validate_timeout invocation.timeout_ms
  bail_if (decide (MAX_OUTPUT_BYTES < input_bytes invocation)) "INVALID_OVERRIDE_ARG: invocation exceeds 1 MiB"
  let env := SortedMap.empty.insertAll (initialEntries invocation)
  let env ← insert_arguments 0 invocation.args env
  let env := env.insert "ZC_OVERRIDE_ARGS" (legacy_args invocation.args)
  bail_if (env.entries.any fun entry => entry.2.toList.contains '\x00')
    "INVALID_OVERRIDE_ARG: environment values cannot contain NUL"
  bail_if (decide (MAX_OUTPUT_BYTES < (env.entries.map fun entry => str.len entry.1 + str.len entry.2 + 2).sum))
    "INVALID_OVERRIDE_ARG: invocation exceeds 1 MiB"
  return env

/-! ## What is written -/

/-- The entries of the loop, in the order of the insertions. -/
def argumentEntries : Nat → List (String × String) → List (String × String)
  | _, [] => []
  | index, argument :: args =>
    (keyName index, argument.1) :: (valueName index, argument.2) :: (derivedName argument.1, argument.2) ::
      argumentEntries (index + 1) args

variable {args : List (String × String)} {env : SortedMap String String}

theorem insert_arguments_eq_ok {index : Nat} {env' : SortedMap String String}
    (hinsert : insert_arguments index args env = .ok env') : env' = env.insertAll (argumentEntries index args) := by
  induction args generalizing index env with
  | nil =>
    cases hinsert
    rfl
  | cons argument args ih =>
    simp only [insert_arguments, bind_eq_ok_iff, insert_argument] at hinsert
    obtain ⟨next, ⟨-, -, hnext⟩, hrest⟩ := hinsert
    cases hnext
    exact ih hrest

variable {invocation : Invocation}

theorem environment_eq_ok (henv : environment invocation = .ok env) :
    env = SortedMap.empty.insertAll (initialEntries invocation ++
      (argumentEntries 0 invocation.args ++ [("ZC_OVERRIDE_ARGS", legacy_args invocation.args)])) := by
  simp only [environment, bind_eq_ok_iff] at henv
  obtain ⟨-, -, -, -, filled, hfilled, -, -, -, -, hlast⟩ := henv
  cases hlast
  rw [SortedMap.insertAll_append, SortedMap.insertAll_append, ← insert_arguments_eq_ok hfilled]
  rfl

/-! ## Names that differ -/

variable {i j : Nat}

theorem toDigits_append_inj {rest rest' : List Char}
    (heq : Nat.toDigits 10 i ++ '_' :: rest = Nat.toDigits 10 j ++ '_' :: rest') : i = j ∧ rest = rest' := by
  have hdigit : ∀ n, ∀ c ∈ Nat.toDigits 10 n, (Digits.toDigit 10 c).isSome = true := fun n c hc =>
    Digits.isSome_toDigit_of_mem_toDigits (by decide) (by decide) hc
  have htake := congrArg (List.takeWhile fun c => (Digits.toDigit 10 c).isSome) heq
  rw [List.takeWhile_append_of_pos (hdigit i), List.takeWhile_append_of_pos (hdigit j),
    List.takeWhile_cons_of_neg (by decide), List.takeWhile_cons_of_neg (by decide), List.append_nil, List.append_nil] at htake
  have hij : i = j := by
    rw [← Digits.value_toDigits (show 1 < 10 by decide) (by decide) i, htake,
      Digits.value_toDigits (show 1 < 10 by decide) (by decide) j]
  subst hij
  exact ⟨rfl, List.tail_eq_of_cons_eq (List.append_cancel_left heq)⟩

theorem toList_toString (n : Nat) : (toString n).toList = Nat.toDigits 10 n :=
  String.toList_ofList

theorem toList_keyName (index : Nat) :
    (keyName index).toList = "ZC_OVERRIDE_ARG_".toList ++ (Nat.toDigits 10 index ++ '_' :: ['K', 'E', 'Y']) := by
  rw [keyName, String.toList_append, String.toList_append, List.append_assoc, toList_toString]
  rfl

theorem toList_valueName (index : Nat) :
    (valueName index).toList = "ZC_OVERRIDE_ARG_".toList ++ (Nat.toDigits 10 index ++ '_' :: ['V', 'A', 'L', 'U', 'E']) := by
  rw [valueName, String.toList_append, String.toList_append, List.append_assoc, toList_toString]
  rfl

theorem keyName_injective (heq : keyName i = keyName j) : i = j := by
  have hlist := congrArg String.toList heq
  rw [toList_keyName, toList_keyName] at hlist
  exact (toDigits_append_inj (List.append_cancel_left hlist)).1

theorem valueName_injective (heq : valueName i = valueName j) : i = j := by
  have hlist := congrArg String.toList heq
  rw [toList_valueName, toList_valueName] at hlist
  exact (toDigits_append_inj (List.append_cancel_left hlist)).1

theorem keyName_ne_valueName (i j : Nat) : keyName i ≠ valueName j := by
  intro heq
  have hlist := congrArg String.toList heq
  rw [toList_keyName, toList_valueName] at hlist
  exact absurd (toDigits_append_inj (List.append_cancel_left hlist)).2 (by decide)

theorem toList_countName : countName.toList = "ZC_OVERRIDE_ARG_".toList ++ 'C' :: ['O', 'U', 'N', 'T'] := by
  decide

theorem toDigits_append_ne {rest rest' : List Char} : Nat.toDigits 10 i ++ rest ≠ 'C' :: rest' := by
  intro heq
  cases hdigits : Nat.toDigits 10 i with
  | nil => exact absurd hdigits Nat.toDigits_ne_nil
  | cons digit digits =>
    rw [hdigits, List.cons_append] at heq
    have hmem : digit ∈ Nat.toDigits 10 i := by
      rw [hdigits]
      exact List.mem_cons_self
    have hdigit := Digits.isSome_toDigit_of_mem_toDigits (by decide) (by decide) hmem
    rw [(List.cons.inj heq).1] at hdigit
    exact absurd hdigit (by decide)

theorem keyName_ne_countName (i : Nat) : keyName i ≠ countName := by
  intro heq
  have hlist := congrArg String.toList heq
  rw [toList_keyName, toList_countName] at hlist
  exact toDigits_append_ne (List.append_cancel_left hlist)

theorem valueName_ne_countName (i : Nat) : valueName i ≠ countName := by
  intro heq
  have hlist := congrArg String.toList heq
  rw [toList_valueName, toList_countName] at hlist
  exact toDigits_append_ne (List.append_cancel_left hlist)

variable {name : String}

/-- The names behind the common start are none of the list of all arguments. -/
theorem start_append_ne_args {text : List Char} (hname : name.toList = "ZC_OVERRIDE_ARG_".toList ++ text) :
    "ZC_OVERRIDE_ARGS" ≠ name := by
  rintro rfl
  have hget := congrArg (fun list => list[15]?) hname
  rw [List.getElem?_append_left (by decide)] at hget
  exact absurd hget (by decide)

/-! ## What is read -/

/-- The entries under derived names. -/
def derivedEntries (args : List (String × String)) : List (String × String) :=
  args.map fun argument => (derivedName argument.1, argument.2)

/-- Under a name that is no index from here on, the last argument with that derived name is found. -/
theorem lastEntry_argumentEntries {index : Nat} (hkey : ∀ j, index ≤ j → keyName j ≠ name)
    (hvalue : ∀ j, index ≤ j → valueName j ≠ name) (args : List (String × String)) :
    lastEntry name (argumentEntries index args) = lastEntry name (derivedEntries args) := by
  induction args generalizing index with
  | nil => rfl
  | cons argument args ih =>
    rw [argumentEntries, lastEntry, lastEntry, lastEntry, if_neg (hkey index (Nat.le_refl _)), if_neg (hvalue index (Nat.le_refl _)),
      Option.or_none, Option.or_none, ih (fun j hj => hkey j (Nat.le_of_succ_le hj)) fun j hj => hvalue j (Nat.le_of_succ_le hj)]
    rfl

/-- Under the name of an index the argument's own entry is found, unless a derived name from there on is the same. -/
theorem lastEntry_indexed {name : Nat → String} {field : String × String → String}
    (hown : ∀ (index : Nat) (argument : String × String),
      lastEntry (name index) [(keyName index, argument.1), (valueName index, argument.2)] = some (field argument))
    (hkey : ∀ i j, i < j → keyName j ≠ name i) (hvalue : ∀ i j, i < j → valueName j ≠ name i) {args : List (String × String)}
    {index offset : Nat} {argument : String × String} (hargument : args[offset]? = some argument) :
    lastEntry (name (index + offset)) (argumentEntries index args) =
      some ((lastEntry (name (index + offset)) (derivedEntries (args.drop offset))).getD (field argument)) := by
  induction args generalizing index offset with
  | nil => cases hargument
  | cons first args ih =>
    have hentries : argumentEntries index (first :: args) =
        [(keyName index, first.1), (valueName index, first.2)] ++
          ((derivedName first.1, first.2) :: argumentEntries (index + 1) args) := rfl
    cases offset with
    | zero =>
      cases hargument
      rw [Nat.add_zero, hentries, SortedMap.lastEntry_append, hown, Option.or_some, lastEntry,
        lastEntry_argumentEntries (hkey index) (hvalue index)]
      rfl
    | succ offset =>
      have hindex : index + (offset + 1) = index + 1 + offset := by omega
      rw [List.getElem?_cons_succ] at hargument
      rw [hindex, hentries, SortedMap.lastEntry_append, lastEntry, ih hargument, Option.some_or, Option.some_or]
      rfl

variable {argument : String × String}

theorem lastEntry_keyName (hargument : args[i]? = some argument) :
    lastEntry (keyName i) (argumentEntries 0 args) =
      some ((lastEntry (keyName i) (derivedEntries (args.drop i))).getD argument.1) := by
  have hown : ∀ (index : Nat) (argument : String × String), lastEntry (keyName index) [(keyName index, argument.1), (valueName index, argument.2)] =
      some argument.1 := by
    intro index argument
    rw [lastEntry, lastEntry, lastEntry, if_pos rfl, if_neg (keyName_ne_valueName index index).symm]
    rfl
  have hkey : ∀ i j, i < j → keyName j ≠ keyName i := fun i j hij heq => Nat.ne_of_gt hij (keyName_injective heq)
  have hvalue : ∀ i j, i < j → valueName j ≠ keyName i := fun i j _ => (keyName_ne_valueName i j).symm
  have hindexed := @lastEntry_indexed keyName Prod.fst hown hkey hvalue args 0 i argument hargument
  rwa [Nat.zero_add] at hindexed

theorem lastEntry_valueName (hargument : args[i]? = some argument) :
    lastEntry (valueName i) (argumentEntries 0 args) =
      some ((lastEntry (valueName i) (derivedEntries (args.drop i))).getD argument.2) := by
  have hown : ∀ (index : Nat) (argument : String × String), lastEntry (valueName index) [(keyName index, argument.1), (valueName index, argument.2)] =
      some argument.2 := by
    intro index argument
    rw [lastEntry, lastEntry, lastEntry, if_pos rfl]
    rfl
  have hkey : ∀ i j, i < j → keyName j ≠ valueName i := fun i j _ => keyName_ne_valueName j i
  have hvalue : ∀ i j, i < j → valueName j ≠ valueName i := fun i j hij heq => Nat.ne_of_gt hij (valueName_injective heq)
  have hindexed := @lastEntry_indexed valueName Prod.snd hown hkey hvalue args 0 i argument hargument
  rwa [Nat.zero_add] at hindexed

/-! ## The arguments in the environment -/

/-- The environment tells the number of arguments and each of them by its index. -/
structure Passed (env : SortedMap String String) (args : List (String × String)) : Prop where
  count : env.get countName = some (toString args.length)
  key : ∀ i argument, args[i]? = some argument → env.get (keyName i) = some argument.1
  value : ∀ i argument, args[i]? = some argument → env.get (valueName i) = some argument.2

/-- Where a derived name is one of the others, its last argument has the value that belongs there. The name of an
    index is written before the derived names from that index on. -/
structure Undisturbed (args : List (String × String)) : Prop where
  count : ∀ value, lastEntry countName (derivedEntries args) = some value → value = toString args.length
  key : ∀ i argument, args[i]? = some argument → ∀ value,
    lastEntry (keyName i) (derivedEntries (args.drop i)) = some value → value = argument.1
  value : ∀ i argument, args[i]? = some argument → ∀ value,
    lastEntry (valueName i) (derivedEntries (args.drop i)) = some value → value = argument.2

theorem some_getD_eq_iff {α : Type} {found : Option α} {own : α} :
    some (found.getD own) = some own ↔ ∀ value, found = some value → value = own := by
  cases found with
  | none => simp
  | some value => simp

theorem get_environment (henv : environment invocation = .ok env) (hname : "ZC_OVERRIDE_ARGS" ≠ name) :
    env.get name = (lastEntry name (argumentEntries 0 invocation.args)).or (lastEntry name (initialEntries invocation)) := by
  rw [environment_eq_ok henv, SortedMap.get_insertAll, SortedMap.lastEntry_append, SortedMap.lastEntry_append]
  have hlast : lastEntry name [("ZC_OVERRIDE_ARGS", legacy_args invocation.args)] = none := by
    rw [lastEntry, lastEntry, if_neg hname]
    rfl
  rw [hlast, Option.none_or]
  exact Option.or_none

theorem get_countName (henv : environment invocation = .ok env) :
    env.get countName = some ((lastEntry countName (derivedEntries invocation.args)).getD (toString invocation.args.length)) := by
  have hinitial : lastEntry countName (initialEntries invocation) = some (toString invocation.args.length) := rfl
  rw [get_environment henv (start_append_ne_args toList_countName), hinitial, Option.or_some,
    lastEntry_argumentEntries (fun j _ => keyName_ne_countName j) fun j _ => valueName_ne_countName j]

theorem get_keyName (henv : environment invocation = .ok env) (hargument : invocation.args[i]? = some argument) :
    env.get (keyName i) = some ((lastEntry (keyName i) (derivedEntries (invocation.args.drop i))).getD argument.1) := by
  rw [get_environment henv (start_append_ne_args (toList_keyName i)), lastEntry_keyName hargument, Option.some_or]

theorem get_valueName (henv : environment invocation = .ok env) (hargument : invocation.args[i]? = some argument) :
    env.get (valueName i) = some ((lastEntry (valueName i) (derivedEntries (invocation.args.drop i))).getD argument.2) := by
  rw [get_environment henv (start_append_ne_args (toList_valueName i)), lastEntry_valueName hargument, Option.some_or]

theorem environment_passes_iff {invocation : Invocation} {env : SortedMap String String} (henv : environment invocation = .ok env) :
    Passed env invocation.args ↔ Undisturbed invocation.args := by
  constructor
  · rintro ⟨hcount, hkey, hvalue⟩
    refine ⟨?_, fun i argument hargument => ?_, fun i argument hargument => ?_⟩
    · rw [get_countName henv] at hcount
      exact some_getD_eq_iff.1 hcount
    · have hget := hkey i argument hargument
      rw [get_keyName henv hargument] at hget
      exact some_getD_eq_iff.1 hget
    · have hget := hvalue i argument hargument
      rw [get_valueName henv hargument] at hget
      exact some_getD_eq_iff.1 hget
  · rintro ⟨hcount, hkey, hvalue⟩
    refine ⟨?_, fun i argument hargument => ?_, fun i argument hargument => ?_⟩
    · rw [get_countName henv]
      exact some_getD_eq_iff.2 hcount
    · rw [get_keyName henv hargument]
      exact some_getD_eq_iff.2 (hkey i argument hargument)
    · rw [get_valueName henv hargument]
      exact some_getD_eq_iff.2 (hvalue i argument hargument)

def portInvocation : Invocation where
  command := "start"
  config_path := "config.yaml"
  script_path := "rules.lua"
  args := [("port", "9000")]

theorem portInvocation_passes : ∃ env, environment portInvocation = .ok env ∧ Passed env portInvocation.args := by
  have hok : (environment portInvocation).isOk = true := by decide +kernel
  cases henv : environment portInvocation with
  | error error =>
    rw [henv] at hok
    cases hok
  | ok env =>
    refine ⟨env, rfl, (environment_passes_iff henv).2 ⟨?_, ?_, ?_⟩⟩
    · have hnone : lastEntry countName (derivedEntries portInvocation.args) = none := by decide +kernel
      rw [hnone]
      exact nofun
    · rintro (_ | i) argument hargument
      · have hnone : lastEntry (keyName 0) (derivedEntries (portInvocation.args.drop 0)) = none := by decide +kernel
        rw [hnone]
        exact nofun
      · cases hargument
    · rintro (_ | i) argument hargument
      · have hnone : lastEntry (valueName 0) (derivedEntries (portInvocation.args.drop 0)) = none := by decide +kernel
        rw [hnone]
        exact nofun
      · cases hargument

/-- An argument named `count`. -/
def countInvocation : Invocation :=
  { portInvocation with args := [("count", "7")] }

theorem countInvocation_miscounts : ∃ env, environment countInvocation = .ok env ∧
    env.get countName = some "7" ∧ ¬ Passed env countInvocation.args := by
  have hok : (environment countInvocation).isOk = true := by decide +kernel
  cases henv : environment countInvocation with
  | error error =>
    rw [henv] at hok
    cases hok
  | ok env =>
    have hlast : lastEntry countName (derivedEntries countInvocation.args) = some "7" := by decide +kernel
    have hget : env.get countName = some "7" := by
      rw [get_countName henv, hlast]
      rfl
    refine ⟨env, rfl, hget, fun hpassed => ?_⟩
    have hcount := hpassed.count
    rw [hget] at hcount
    exact absurd hcount (by decide)

end zc.override_script
