import Mathlib.Data.List.Basic

/-!
# Polls

A poll is a computation on a state that may end early: the other side is not ready, the operation
failed, or the program panicked. The state it has reached stays in every case. `wp` is the weakest
precondition with one postcondition for the value and one for the early end, and the rules below
compose it.
-/

namespace Poll

variable {σ τ ε α β : Type}

/-- Why a computation came to an early end. -/
inductive Stop (ε : Type) where
  | pending
  | failed (error : ε)
  | panicked
  deriving DecidableEq

def Act (σ ε α : Type) : Type :=
  σ → Except (Stop ε) α × σ

namespace Act

/-- Runs on after a part that returned a value. -/
def andThen (first : Except (Stop ε) α × σ) (next : α → Act σ ε β) : Except (Stop ε) β × σ :=
  match first with
  | (.ok value, state) => next value state
  | (.error stop, state) => (.error stop, state)

instance : Monad (Act σ ε) where
  pure value := fun state => (.ok value, state)
  bind act next := fun state => andThen (act state) next

def get : Act σ ε σ :=
  fun state => (.ok state, state)

def modify (f : σ → σ) : Act σ ε Unit :=
  fun state => (.ok (), f state)

def stop (reason : Stop ε) : Act σ ε α :=
  fun state => (.error reason, state)

/-- Ends the computation unless the condition holds, as an index out of bounds does. -/
def assert (condition : Bool) : Act σ ε Unit :=
  if condition then pure () else stop .panicked

/-- A computation on a part of the state. -/
def zoom (view : σ → τ) (put : σ → τ → σ) (act : Act τ ε α) : Act σ ε α := fun state =>
  match act (view state) with
  | (result, part) => (result, put state part)

/-- The outcome once the other side is ready, a failure included. -/
def ready (act : Act σ ε α) : Act σ ε (Except ε α) := fun state =>
  match act state with
  | (.ok value, state') => (.ok (.ok value), state')
  | (.error (.failed error), state') => (.ok (.error error), state')
  | (.error reason, state') => (.error reason, state')

/-- Whether the other side was ready; only a failure ends the computation. -/
def attempt (act : Act σ ε α) : Act σ ε (Option α) := fun state =>
  match act state with
  | (.ok value, state') => (.ok (some value), state')
  | (.error .pending, state') => (.ok none, state')
  | (.error reason, state') => (.error reason, state')

/-- At most `n` rounds of `while condition`. -/
def rounds (condition : σ → Bool) (body : Act σ ε Unit) : Nat → Act σ ε Unit
  | 0 => pure ()
  | n + 1 => do
    let state ← get
    if condition state then do
      body
      rounds condition body n
    else pure ()

/-- A loop each round of which lowers the measure. -/
def whileDo (measure : σ → Nat) (condition : σ → Bool) (body : Act σ ε Unit) : Act σ ε Unit :=
  fun state => rounds condition body (measure state) state

/-- `for _ in 0..n`, left with the first value that the body returns. -/
def times (body : Act σ ε (Option α)) : Nat → Act σ ε (Option α)
  | 0 => pure none
  | n + 1 => do
    match ← body with
    | some value => pure (some value)
    | none => times body n

/-- A loop that only a value ends, and each other round of which lowers the measure. -/
def loop (measure : σ → Nat) (body : Act σ ε (Option α)) : Act σ ε α := fun state =>
  andThen (times body (measure state) state) fun value => match value with
    | some value => pure value
    | none => stop .panicked

/-- Polls until there is a result, at most so many times. -/
def await (act : Act σ ε α) : Nat → Act σ ε α
  | 0 => stop .pending
  | n + 1 => do
    match ← attempt act with
    | some value => pure value
    | none => await act n

/-! ## Rules -/

/-- From the state, a value comes with `post` and an early end with `early`. -/
def wp (act : Act σ ε α) (post : α → σ → Prop) (early : Stop ε → σ → Prop) (state : σ) : Prop :=
  match act state with
  | (.ok value, state') => post value state'
  | (.error stop, state') => early stop state'

section Rules

variable {act : Act σ ε α} {next : α → Act σ ε β} {post post' : α → σ → Prop} {goal : β → σ → Prop}
  {early early' : Stop ε → σ → Prop} {state : σ}

theorem bind_assoc {γ : Type} {last : β → Act σ ε γ} : act >>= next >>= last = act >>= fun value => next value >>= last := by
  funext state
  change andThen (andThen (act state) next) last = andThen (act state) _
  match act state with
  | (.ok _, _) => rfl
  | (.error _, _) => rfl

theorem run_bind_of_ok {value : α} {state' : σ} (hact : act state = (.ok value, state')) :
    (act >>= next) state = next value state' := by
  have hbind : (act >>= next) state = andThen (act state) next := rfl
  rw [hbind, hact]
  rfl

theorem run_bind_of_error {reason : Stop ε} {state' : σ} (hact : act state = (.error reason, state')) :
    (act >>= next) state = (.error reason, state') := by
  have hbind : (act >>= next) state = andThen (act state) next := rfl
  rw [hbind, hact]
  rfl

theorem wp_ok (hwp : wp act post early state) {value : α} {state' : σ} (hact : act state = (.ok value, state')) :
    post value state' := by
  rwa [wp, hact] at hwp

theorem wp_error (hwp : wp act post early state) {stop : Stop ε} {state' : σ}
    (hact : act state = (.error stop, state')) : early stop state' := by
  rwa [wp, hact] at hwp

theorem wp_mono (hwp : wp act post early state) (hpost : ∀ value state', post value state' → post' value state')
    (hearly : ∀ stop state', early stop state' → early' stop state') : wp act post' early' state := by
  unfold wp at hwp ⊢
  split
  · next heq => exact hpost _ _ (by rwa [heq] at hwp)
  · next heq => exact hearly _ _ (by rwa [heq] at hwp)

theorem wp_and (hwp : wp act post early state) (hwp' : wp act post' early' state) :
    wp act (fun value state' => post value state' ∧ post' value state')
      (fun reason state' => early reason state' ∧ early' reason state') state := by
  unfold wp at hwp hwp' ⊢
  split
  · next heq => exact ⟨by rwa [heq] at hwp, by rwa [heq] at hwp'⟩
  · next heq => exact ⟨by rwa [heq] at hwp, by rwa [heq] at hwp'⟩

@[simp]
theorem wp_pure {value : α} : wp (pure value : Act σ ε α) post early state ↔ post value state :=
  Iff.rfl

@[simp]
theorem wp_bind : wp (act >>= next) goal early state ↔
    wp act (fun value state' => wp (next value) goal early state') early state := by
  have hbind : (act >>= next) state = andThen (act state) next := rfl
  unfold wp
  rw [hbind]
  match act state with
  | (.ok value, state') => exact Iff.rfl
  | (.error stop, state') => exact Iff.rfl

@[simp]
theorem wp_get {post : σ → σ → Prop} : wp (get : Act σ ε σ) post early state ↔ post state state :=
  Iff.rfl

@[simp]
theorem wp_modify {f : σ → σ} {post : Unit → σ → Prop} :
    wp (modify f : Act σ ε Unit) post early state ↔ post () (f state) :=
  Iff.rfl

theorem wp_assert {condition : Bool} {post : Unit → σ → Prop} (hcondition : condition = true) :
    wp (assert condition : Act σ ε Unit) post early state ↔ post () state := by
  rw [assert, if_pos hcondition]
  exact Iff.rfl

@[simp]
theorem wp_zoom {view : σ → τ} {put : σ → τ → σ} {act : Act τ ε α} : wp (zoom view put act) post early state ↔
    wp act (fun value part => post value (put state part)) (fun reason part => early reason (put state part))
      (view state) := by
  unfold wp zoom
  match act (view state) with
  | (.ok value, part) => exact Iff.rfl
  | (.error reason, part) => exact Iff.rfl

theorem wp_ready {post : Except ε α → σ → Prop} : wp (ready act) post early state ↔
    wp act (fun value state' => post (.ok value) state')
      (fun reason state' => match reason with
        | .failed error => post (.error error) state'
        | reason => early reason state') state := by
  unfold wp ready
  match act state with
  | (.ok value, state') => exact Iff.rfl
  | (.error .pending, state') => exact Iff.rfl
  | (.error (.failed error), state') => exact Iff.rfl
  | (.error .panicked, state') => exact Iff.rfl

theorem wp_attempt {post : Option α → σ → Prop} : wp (attempt act) post early state ↔
    wp act (fun value state' => post (some value) state')
      (fun reason state' => match reason with
        | .pending => post none state'
        | reason => early reason state') state := by
  unfold wp attempt
  match act state with
  | (.ok value, state') => exact Iff.rfl
  | (.error .pending, state') => exact Iff.rfl
  | (.error (.failed error), state') => exact Iff.rfl
  | (.error .panicked, state') => exact Iff.rfl

/-- The invariant of a loop whose rounds lower the measure holds after it, with the condition false. -/
theorem wp_whileDo {measure : σ → Nat} {condition : σ → Bool} {body : Act σ ε Unit} {I : σ → Prop}
    (hmeasure : ∀ state, I state → condition state = true → 0 < measure state)
    (hbody : ∀ state, I state → condition state = true →
      wp body (fun _ state' => I state' ∧ measure state' < measure state) early state)
    (hstate : I state) :
    wp (whileDo measure condition body) (fun _ state' => I state' ∧ condition state' = false) early state := by
  suffices hrounds : ∀ n, ∀ state, measure state ≤ n → I state →
      wp (rounds condition body n) (fun _ state' => I state' ∧ condition state' = false) early state from
    hrounds (measure state) state (Nat.le_refl _) hstate
  intro n
  induction n with
  | zero =>
    intro state hle hstate
    refine ⟨hstate, ?_⟩
    rw [Bool.eq_false_iff]
    intro hcondition
    exact absurd (hmeasure state hstate hcondition) (by omega)
  | succ n ih =>
    intro state hle hstate
    rw [rounds, wp_bind, wp_get]
    split
    · next hcondition =>
      rw [wp_bind]
      refine wp_mono (hbody state hstate hcondition) (fun _ state' hstate' => ?_) fun _ _ h => h
      exact ih state' (by omega) hstate'.1
    · next hcondition => exact ⟨hstate, Bool.eq_false_iff.2 hcondition⟩

/-- What every round without a value keeps holds at the end of the loop. -/
theorem wp_times {body : Act σ ε (Option α)} {I : σ → Prop} {post : Option α → σ → Prop}
    (hbody : ∀ state, I state → wp body
      (fun value state' => match value with
        | some value => post (some value) state'
        | none => I state') early state)
    (hnone : ∀ state, I state → post none state) {n : Nat} (hstate : I state) :
    wp (times body n) post early state := by
  induction n generalizing state with
  | zero => exact hnone state hstate
  | succ n ih =>
    rw [times, wp_bind]
    refine wp_mono (hbody state hstate) (fun value state' hvalue => ?_) fun _ _ h => h
    cases value with
    | some value => exact hvalue
    | none => exact ih hvalue

/-- What every round without a value keeps holds whenever a round of the loop starts. -/
theorem wp_loop {measure : σ → Nat} {body : Act σ ε (Option α)} {I : σ → Prop}
    (hmeasure : ∀ state, I state → 0 < measure state)
    (hbody : ∀ state, I state → wp body
      (fun value state' => match value with
        | some value => post value state'
        | none => I state' ∧ measure state' < measure state) early state)
    (hstate : I state) : wp (loop measure body) post early state := by
  suffices hrounds : ∀ n, ∀ state, measure state ≤ n → I state →
      wp (times body n) (fun value state' => ∃ found, value = some found ∧ post found state') early state by
    have hloop := hrounds (measure state) state (Nat.le_refl _) hstate
    unfold wp at hloop ⊢
    unfold loop
    match hrun : times body (measure state) state with
    | (.ok value, state') =>
      rw [hrun] at hloop
      obtain ⟨found, rfl, hfound⟩ := hloop
      exact hfound
    | (.error reason, state') =>
      rw [hrun] at hloop
      exact hloop
  intro n
  induction n with
  | zero =>
    intro state hle hstate
    exact absurd (hmeasure state hstate) (by omega)
  | succ n ih =>
    intro state hle hstate
    rw [times, wp_bind]
    refine wp_mono (hbody state hstate) (fun value state' hvalue => ?_) fun _ _ h => h
    cases value with
    | some value => exact ⟨value, rfl, hvalue⟩
    | none => exact ih state' (by omega) hvalue.1

/-- What a poll without a result keeps holds at every poll. -/
theorem wp_await {act : Act σ ε α} {I : σ → Prop}
    (hact : ∀ state, I state → wp act post (fun stop state' => match stop with
      | .pending => I state'
      | stop => early stop state') state)
    (hpending : ∀ state, I state → early .pending state) {n : Nat} (hstate : I state) : wp (await act n) post early state := by
  induction n generalizing state with
  | zero => exact hpending state hstate
  | succ n ih =>
    rw [await, wp_bind, wp_attempt]
    refine wp_mono (hact state hstate) (fun _ _ h => h) fun stop state' hstop => ?_
    cases stop with
    | pending => exact ih hstop
    | failed error => exact hstop
    | panicked => exact hstop

end Rules

end Act

end Poll
