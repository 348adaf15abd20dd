/-!
# Errors

One type for the errors the crate passes around as `anyhow::Error`: plain messages, `io::Error`
with its kind, the typed `StoreError`, and an error wrapped in a context.
-/

namespace zc

inductive StoreError where
  | CorruptCatalog
  | CorruptRevision
  | UnknownFormat (schema : Nat)
  | LegacyTakeoverRequired
  | Conflict
  | ProfileNotFound
  | ProfileNotRuntimeReady
  deriving DecidableEq

/-- The `io::ErrorKind`s the crate distinguishes. -/
inductive ErrorKind where
  | NotFound
  | AlreadyExists
  | InvalidData
  | TimedOut
  | UnexpectedEof
  | WriteZero
  | BrokenPipe
  | PermissionDenied
  | ConnectionRefused
  | Other
  deriving DecidableEq

inductive Error where
  | message (text : String)
  | io (kind : ErrorKind) (text : String)
  | store (error : StoreError)
  | context (outer inner : Error)
  /-- A panic: `unreachable!` or an index out of bounds. -/
  | panic (text : String)
  deriving DecidableEq

abbrev Result (α : Type) := Except Error α

/-- `bail!`. -/
def bail {α : Type} (text : String) : Result α :=
  .error (.message text)

/-- `if condition { bail!(..) }`. -/
def bail_if (condition : Bool) (text : String) : Result Unit :=
  if condition then bail text else .ok ()

@[simp]
theorem bail_if_eq_ok_iff {condition : Bool} {text : String} {u : Unit} :
    bail_if condition text = .ok u ↔ condition = false := by
  cases condition <;> simp [bail_if, bail]

/-- `ensure!`. -/
def ensure (condition : Bool) (error : Error) : Result Unit :=
  if condition then .ok () else .error error

@[simp]
theorem ensure_eq_ok_iff {condition : Bool} {error : Error} {u : Unit} :
    ensure condition error = .ok u ↔ condition = true := by
  cases condition <;> simp [ensure]

/-- `Option::ok_or`. -/
def okOr {α : Type} (value : Option α) (error : Error) : Result α :=
  match value with
  | some value => .ok value
  | none => .error error

@[simp]
theorem okOr_eq_ok_iff {α : Type} {value : Option α} {error : Error} {result : α} :
    okOr value error = .ok result ↔ value = some result := by
  cases value <;> simp [okOr]

/-- `Result::context`. -/
def withContext {α : Type} (outer : Error) : Result α → Result α
  | .ok value => .ok value
  | .error inner => .error (.context outer inner)

@[simp]
theorem withContext_eq_ok_iff {α : Type} {outer : Error} {result : Result α} {value : α} :
    withContext outer result = .ok value ↔ result = .ok value := by
  cases result <;> simp [withContext]

/-- `Result::map_err`. -/
def mapErr {α : Type} (error : Error) : Result α → Result α
  | .ok value => .ok value
  | .error _ => .error error

@[simp]
theorem mapErr_eq_ok_iff {α : Type} {error : Error} {result : Result α} {value : α} :
    mapErr error result = .ok value ↔ result = .ok value := by
  cases result <;> simp [mapErr]

@[simp]
theorem bind_eq_ok_iff {ε α β : Type} {result : Except ε α} {next : α → Except ε β} {value : β} :
    result >>= next = .ok value ↔ ∃ middle, result = .ok middle ∧ next middle = .ok value := by
  cases result with
  | error error => simp [Bind.bind, Except.bind]
  | ok middle => simp [Bind.bind, Except.bind]

@[simp]
theorem bail_ne_ok {α : Type} {text : String} {value : α} : bail text = Except.ok value ↔ False := by
  simp [bail]

/-! ## Results that are no panic -/

/-- Every index was in bounds and no `unreachable!` was reached. -/
def Result.NoPanic {α : Type} (result : Result α) : Prop :=
  ∀ text, result ≠ .error (.panic text)

namespace Result.NoPanic

variable {α β : Type}

theorem ok (value : α) : NoPanic (.ok value) :=
  nofun

theorem bail (text : String) : NoPanic (zc.bail text : Result α) :=
  nofun

theorem okOr {value : Option α} {text : String} : NoPanic (zc.okOr value (.message text)) := by
  cases value <;> nofun

theorem bail_if (condition : Bool) (text : String) : NoPanic (zc.bail_if condition text) := by
  cases condition <;> nofun

theorem bind {result : Result α} {next : α → Result β} (hresult : NoPanic result)
    (hnext : ∀ value, result = .ok value → NoPanic (next value)) : NoPanic (result >>= next) := by
  cases result with
  | error error => exact fun text htext => hresult text (congrArg Except.error (Except.error.inj htext))
  | ok value => exact hnext value rfl

end Result.NoPanic

end zc
