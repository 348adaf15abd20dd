import Mathlib.Data.List.Basic

/-!
# Reading exact amounts from a stream

A reader asks for an exact number of symbols, looks at them and goes on. It can run on a stream that
arrives in segments or on the whole input at once, and the two agree (`run_onSymbols`). What a reader has
read does not depend on what follows (`onSymbols_append`), so no reader returns on a part of an
input that it reads to the end (`onSymbols_front`).
-/

inductive Reading (σ ε α : Type) where
  | done (value : α)
  | fail (error : ε)
  /-- Asks for `count` symbols; `truncated` is the error when the stream ends before. -/
  | exact (count : Nat) (truncated : ε) (next : List σ → Reading σ ε α)

namespace Reading

variable {σ ε α β : Type}

def bind : Reading σ ε α → (α → Reading σ ε β) → Reading σ ε β
  | .done value, next => next value
  | .fail error, _ => .fail error
  | .exact count truncated more, next => .exact count truncated fun symbols => (more symbols).bind next

instance : Monad (Reading σ ε) where
  pure := .done
  bind := bind

/-- A read with nothing behind it. -/
def read (count : Nat) (truncated : ε) : Reading σ ε (List σ) :=
  .exact count truncated .done

def ofExcept : Except ε α → Reading σ ε α
  | .ok value => .done value
  | .error error => .fail error

def mapError {ε' : Type} (f : ε → ε') : Reading σ ε α → Reading σ ε' α
  | .done value => .done value
  | .fail error => .fail (f error)
  | .exact count truncated next => .exact count (f truncated) fun symbols => (next symbols).mapError f

/-! ## Runs -/

/-- Takes whole segments while they fit, and what is missing from the next one. An empty segment is a wait. -/
def takeExact : Nat → List (List σ) → Option (List σ × List (List σ))
  | 0, segments => some ([], segments)
  | _ + 1, [] => none
  | count + 1, segment :: segments =>
    if segment.length ≤ count + 1 then
      (takeExact (count + 1 - segment.length) segments).map fun taken => (segment ++ taken.1, taken.2)
    else some (segment.take (count + 1), segment.drop (count + 1) :: segments)

def run : Reading σ ε α → List (List σ) → Except ε (α × List (List σ))
  | .done value, segments => .ok (value, segments)
  | .fail error, _ => .error error
  | .exact count truncated next, segments =>
    match takeExact count segments with
    | some (symbols, rest) => (next symbols).run rest
    | none => .error truncated

def onSymbols : Reading σ ε α → List σ → Except ε (α × List σ)
  | .done value, symbols => .ok (value, symbols)
  | .fail error, _ => .error error
  | .exact count truncated next, symbols =>
    if count ≤ symbols.length then (next (symbols.take count)).onSymbols (symbols.drop count) else .error truncated

/-! ## Segments do not matter -/

variable {segments : List (List σ)}

theorem takeExact_of_le {count : Nat} (hle : count ≤ segments.flatten.length) :
    ∃ rest, takeExact count segments = some (segments.flatten.take count, rest) ∧ rest.flatten = segments.flatten.drop count := by
  induction segments generalizing count with
  | nil =>
    obtain rfl : count = 0 := Nat.le_zero.1 hle
    exact ⟨[], rfl, rfl⟩
  | cons segment segments ih =>
    cases count with
    | zero => exact ⟨segment :: segments, rfl, rfl⟩
    | succ count =>
      rw [List.flatten_cons, List.length_append] at hle
      by_cases hfits : segment.length ≤ count + 1
      · obtain ⟨rest, htake, hrest⟩ := @ih (count + 1 - segment.length) (by omega)
        refine ⟨rest, ?_, ?_⟩
        · rw [takeExact, if_pos hfits, htake, List.flatten_cons, List.take_append, List.take_of_length_le hfits]
          rfl
        · rw [hrest, List.flatten_cons, List.drop_append, List.drop_of_length_le hfits, List.nil_append]
      · refine ⟨segment.drop (count + 1) :: segments, ?_, ?_⟩
        · rw [takeExact, if_neg hfits, List.flatten_cons, List.take_append_of_le_length (by omega)]
        · rw [List.flatten_cons, List.flatten_cons, List.drop_append_of_le_length (by omega)]

theorem takeExact_of_lt {count : Nat} (hlt : segments.flatten.length < count) : takeExact count segments = none := by
  induction segments generalizing count with
  | nil =>
    cases count with
    | zero => cases hlt
    | succ count => rfl
  | cons segment segments ih =>
    rw [List.flatten_cons, List.length_append] at hlt
    cases count with
    | zero => cases hlt
    | succ count => rw [takeExact, if_pos (by omega), ih (by omega), Option.map_none]

/-- A reader does on segments what it does on all of them at once. -/
theorem run_onSymbols (reading : Reading σ ε α) (segments : List (List σ)) :
    match reading.onSymbols segments.flatten with
    | .ok (value, rest) => ∃ left, reading.run segments = .ok (value, left) ∧ left.flatten = rest
    | .error error => reading.run segments = .error error := by
  induction reading generalizing segments with
  | done value => exact ⟨segments, rfl, rfl⟩
  | fail error => rfl
  | exact count truncated next ih =>
    rw [onSymbols, run]
    by_cases hle : count ≤ segments.flatten.length
    · obtain ⟨rest, htake, hrest⟩ := takeExact_of_le hle
      rw [if_pos hle, htake, ← hrest]
      exact ih _ rest
    · rw [if_neg hle, takeExact_of_lt (by omega)]

variable {reading : Reading σ ε α} {value : α} {rest : List σ}

theorem run_of_onSymbols (hok : reading.onSymbols segments.flatten = .ok (value, rest)) :
    ∃ left, reading.run segments = .ok (value, left) ∧ left.flatten = rest := by
  have hrun := reading.run_onSymbols segments
  rwa [hok] at hrun

theorem run_error_of_onSymbols {error : ε} (herror : reading.onSymbols segments.flatten = .error error) :
    reading.run segments = .error error := by
  have hrun := reading.run_onSymbols segments
  rwa [herror] at hrun

/-! ## Composition -/

theorem onSymbols_mapError {ε' : Type} (f : ε → ε') (reading : Reading σ ε α) (symbols : List σ) :
    (reading.mapError f).onSymbols symbols = (reading.onSymbols symbols).mapError f := by
  induction reading generalizing symbols with
  | done value => rfl
  | fail error => rfl
  | exact count truncated next ih =>
    rw [mapError, onSymbols, onSymbols]
    by_cases hle : count ≤ symbols.length
    · rw [if_pos hle, if_pos hle, ih]
    · rw [if_neg hle, if_neg hle]
      rfl

theorem onSymbols_bind (reading : Reading σ ε α) (next : α → Reading σ ε β) (symbols : List σ) :
    (reading >>= next).onSymbols symbols =
      match reading.onSymbols symbols with
      | .ok (value, rest) => (next value).onSymbols rest
      | .error error => .error error := by
  induction reading generalizing symbols with
  | done value => rfl
  | fail error => rfl
  | exact count truncated more ih =>
    show onSymbols (.exact count truncated fun taken => (more taken).bind next) symbols = _
    rw [onSymbols, onSymbols]
    by_cases hle : count ≤ symbols.length
    · rw [if_pos hle, if_pos hle]
      exact ih _ _
    · rw [if_neg hle, if_neg hle]

theorem onSymbols_bind_ok {symbols : List σ} (hok : reading.onSymbols symbols = .ok (value, rest))
    (next : α → Reading σ ε β) : (reading >>= next).onSymbols symbols = (next value).onSymbols rest := by
  rw [onSymbols_bind, hok]

theorem onSymbols_read_bind (count : Nat) {truncated : ε} {front : List σ} (hfront : front.length = count) (rest : List σ)
    (next : List σ → Reading σ ε β) : (read count truncated >>= next).onSymbols (front ++ rest) = (next front).onSymbols rest := by
  apply onSymbols_bind_ok
  subst hfront
  rw [read, onSymbols, if_pos (by rw [List.length_append]; omega), List.take_left, List.drop_left, onSymbols]

/-- What was read stands before the rest, and does not depend on it. -/
theorem onSymbols_append {symbols : List σ} (hok : reading.onSymbols symbols = .ok (value, rest)) :
    ∃ front, symbols = front ++ rest ∧ ∀ more, reading.onSymbols (front ++ more) = .ok (value, more) := by
  induction reading generalizing symbols with
  | done value =>
    cases hok
    exact ⟨[], rfl, fun _ => rfl⟩
  | fail error => cases hok
  | exact count truncated next ih =>
    rw [onSymbols] at hok
    by_cases hle : count ≤ symbols.length
    · rw [if_pos hle] at hok
      obtain ⟨front, hfront, hmore⟩ := ih _ hok
      have hcount : (symbols.take count).length = count := by rw [List.length_take]; omega
      refine ⟨symbols.take count ++ front, ?_, fun more => ?_⟩
      · rw [List.append_assoc, ← hfront, List.take_append_drop]
      · rw [onSymbols, List.append_assoc, if_pos (by rw [List.length_append]; omega), List.take_left' hcount,
          List.drop_left' hcount]
        exact hmore more
    · rw [if_neg hle] at hok
      cases hok

/-- On a part of what it reads to the end a reader fails. -/
theorem onSymbols_front {front back : List σ} (hok : reading.onSymbols (front ++ back) = .ok (value, []))
    (hback : back ≠ []) : ∃ error, reading.onSymbols front = .error error := by
  cases hfront : reading.onSymbols front with
  | error error => exact ⟨error, rfl⟩
  | ok result =>
    obtain ⟨value', rest⟩ := result
    obtain ⟨used, hused, hmore⟩ := onSymbols_append hfront
    have hwhole := hmore (rest ++ back)
    rw [← List.append_assoc, ← hused, hok] at hwhole
    simp only [Except.ok.injEq, Prod.mk.injEq] at hwhole
    exact absurd (List.append_eq_nil_iff.1 hwhole.2.symm).2 hback

end Reading
