import Mathlib.Data.List.Basic

/-!
# Programs that a crash can stop

A program runs on a state, returns a value or an error, and leaves behind every state its durable
steps passed through. A crash stops it after one of those steps, so what holds at a crash is what
holds of all of them. `Safe` is the weakest precondition with a second postcondition for the crash
states, and the rules below compose it.
-/

/-- What one run leaves: its result, its last state, and its durable steps with the state after each. -/
structure Outcome (ι σ ε α : Type) where
  result : Except ε α
  state : σ
  steps : List (ι × σ)

def Program (ι σ ε α : Type) : Type :=
  σ → Outcome ι σ ε α

namespace Program

variable {ι σ ε α β : Type}

def ofExcept (result : Except ε α) : Program ι σ ε α :=
  fun s => ⟨result, s, []⟩

/-- A part of the run that changes nothing durable. -/
def query (f : σ → Except ε α × σ) : Program ι σ ε α :=
  fun s => ⟨(f s).1, (f s).2, []⟩

/-- One durable step. -/
def step (label : ι) (f : σ → Except ε α × σ) : Program ι σ ε α :=
  fun s => ⟨(f s).1, (f s).2, [(label, (f s).2)]⟩

/-- Runs on after `first` if it succeeded. -/
def andThen (first : Outcome ι σ ε α) (next : α → Program ι σ ε β) : Outcome ι σ ε β :=
  match first.result with
  | .ok value =>
    let rest := next value first.state
    ⟨rest.result, rest.state, first.steps ++ rest.steps⟩
  | .error error => ⟨.error error, first.state, first.steps⟩

instance : Monad (Program ι σ ε) where
  pure value := ofExcept (.ok value)
  bind program next := fun s => andThen (program s) next

/-- Hands the error of a program to what follows instead of stopping there. -/
def attempt (program : Program ι σ ε α) : Program ι σ ε (Except ε α) :=
  fun s => ⟨.ok (program s).result, (program s).state, (program s).steps⟩

variable {program : Program ι σ ε α} {next : α → Program ι σ ε β} {s : σ}

theorem mem_steps_bind {step : ι × σ} (hstep : step ∈ (program s).steps) : step ∈ ((program >>= next) s).steps := by
  change step ∈ (andThen (program s) next).steps
  unfold andThen
  split
  · exact List.mem_append_left _ hstep
  · exact hstep

variable {value : α}

theorem mem_steps_bind_ok {step : ι × σ} (hok : (program s).result = .ok value)
    (hstep : step ∈ (next value (program s).state).steps) : step ∈ ((program >>= next) s).steps := by
  change step ∈ (andThen (program s) next).steps
  rw [andThen, hok]
  exact List.mem_append_right _ hstep

theorem bind_of_ok {t : σ} (hrun : program s = ⟨.ok value, t, []⟩) : (program >>= next) s = next value t := by
  change andThen (program s) next = next value t
  rw [hrun]
  rfl

theorem bind_of_error {t : σ} {error : ε} {steps : List (ι × σ)} (hrun : program s = ⟨.error error, t, steps⟩) :
    (program >>= next) s = ⟨.error error, t, steps⟩ := by
  change andThen (program s) next = _
  rw [hrun]
  rfl

/-- From `s` every durable step meets `crash`, and the run ends in `post`. -/
def Safe (program : Program ι σ ε α) (crash : ι → σ → Prop) (post : Except ε α → σ → Prop) (s : σ) : Prop :=
  (∀ step ∈ (program s).steps, crash step.1 step.2) ∧ post (program s).result (program s).state

variable {result : Except ε α}

section Rules

variable {program : Program ι σ ε α} {next : α → Program ι σ ε β} {crash crash' : ι → σ → Prop}
  {post post' : Except ε α → σ → Prop} {goal : Except ε β → σ → Prop} {s : σ}

theorem Safe.mono (hsafe : Safe program crash post s) (hcrash : ∀ label t, crash label t → crash' label t)
    (hpost : ∀ result t, post result t → post' result t) : Safe program crash' post' s :=
  ⟨fun step hstep => hcrash _ _ (hsafe.1 step hstep), hpost _ _ hsafe.2⟩

theorem Safe.weaken (hsafe : Safe program crash post s) (hpost : ∀ result t, post result t → post' result t) :
    Safe program crash post' s :=
  hsafe.mono (fun _ _ h => h) hpost

theorem Safe.and (hsafe : Safe program crash post s) (hsafe' : Safe program crash' post' s) :
    Safe program (fun label t => crash label t ∧ crash' label t) (fun result t => post result t ∧ post' result t) s :=
  ⟨fun step hstep => ⟨hsafe.1 step hstep, hsafe'.1 step hstep⟩, hsafe.2, hsafe'.2⟩

theorem safe_ofExcept (hpost : post result s) : Safe (ofExcept result : Program ι σ ε α) crash post s :=
  ⟨fun _ hstep => (List.not_mem_nil hstep).elim, hpost⟩

theorem safe_pure (hpost : post (.ok value) s) : Safe (pure value : Program ι σ ε α) crash post s :=
  safe_ofExcept hpost

theorem safe_query {f : σ → Except ε α × σ} (hpost : post (f s).1 (f s).2) :
    Safe (query f : Program ι σ ε α) crash post s :=
  ⟨fun _ hstep => (List.not_mem_nil hstep).elim, hpost⟩

theorem safe_step {label : ι} {f : σ → Except ε α × σ} (hcrash : crash label (f s).2)
    (hpost : post (f s).1 (f s).2) : Safe (step label f) crash post s := by
  refine ⟨?_, hpost⟩
  intro step hstep
  obtain rfl := List.mem_singleton.1 hstep
  exact hcrash

theorem Safe.bind (hsafe : Safe program crash post s)
    (hok : ∀ value t, post (.ok value) t → Safe (next value) crash goal t)
    (herror : ∀ error t, post (.error error) t → goal (.error error) t) :
    Safe (program >>= next) crash goal s := by
  obtain ⟨hsteps, hresult⟩ := hsafe
  unfold Safe
  simp only [Bind.bind, andThen]
  cases hrun : (program s).result with
  | error error =>
    rw [hrun] at hresult
    exact ⟨hsteps, herror error _ hresult⟩
  | ok value =>
    rw [hrun] at hresult
    obtain ⟨hrest, hgoal⟩ := hok value _ hresult
    refine ⟨?_, hgoal⟩
    intro step hstep
    rcases List.mem_append.1 hstep with hstep | hstep
    · exact hsteps step hstep
    · exact hrest step hstep

theorem safe_ofExcept_bind (hok : ∀ value, result = .ok value → Safe (next value) crash goal s)
    (herror : ∀ error, result = .error error → goal (.error error) s) :
    Safe (ofExcept result >>= next) crash goal s := by
  have hsafe : Safe (ofExcept result : Program ι σ ε α) crash (fun r t => r = result ∧ t = s) s := safe_ofExcept ⟨rfl, rfl⟩
  refine hsafe.bind ?_ ?_
  · rintro value t ⟨hresult, rfl⟩
    exact hok value hresult.symm
  · rintro error t ⟨hresult, rfl⟩
    exact herror error hresult.symm

theorem Safe.attempt (hsafe : Safe program crash post s) :
    Safe (attempt program) crash (fun outcome t => ∃ result, outcome = .ok result ∧ post result t) s :=
  ⟨hsafe.1, _, rfl, hsafe.2⟩

end Rules

/-! ## Programs that change nothing durable -/

/-- A value of `good` or an error of `bad`. -/
def Ends (good : α → Prop) (bad : ε → Prop) : Except ε α → Prop
  | .ok value => good value
  | .error error => bad error

/-- From every state of `inv` the program makes no durable step and ends in `inv`, with a value of `good` or an error of `bad`. -/
def Stays (inv : σ → Prop) (program : Program ι σ ε α) (good : α → Prop) (bad : ε → Prop) : Prop :=
  ∀ s, inv s → Safe program (fun _ _ => False) (fun result t => inv t ∧ Ends good bad result) s

section Stays

variable {inv : σ → Prop} {program : Program ι σ ε α} {next : α → Program ι σ ε β} {good good' : α → Prop} {goal : β → Prop}
  {bad bad' : ε → Prop}

theorem Stays.mono (hstays : Stays inv program good bad) (hgood : ∀ value, good value → good' value)
    (hbad : ∀ error, bad error → bad' error) : Stays inv program good' bad' := by
  intro s hs
  refine (hstays s hs).weaken ?_
  rintro (error | value) t ⟨hinv, hend⟩
  · exact ⟨hinv, hbad error hend⟩
  · exact ⟨hinv, hgood value hend⟩

theorem stays_ofExcept (hgood : ∀ value, result = .ok value → good value)
    (hbad : ∀ error, result = .error error → bad error) : Stays inv (ofExcept result : Program ι σ ε α) good bad := by
  intro s hs
  refine safe_ofExcept ⟨hs, ?_⟩
  cases result with
  | ok value => exact hgood value rfl
  | error error => exact hbad error rfl

theorem stays_pure (hgood : good value) : Stays inv (pure value : Program ι σ ε α) good bad :=
  fun _ hs => safe_pure ⟨hs, hgood⟩

theorem Stays.bind (hstays : Stays inv program good bad) (hnext : ∀ value, good value → Stays inv (next value) goal bad) :
    Stays inv (program >>= next) goal bad := by
  intro s hs
  refine (hstays s hs).bind ?_ ?_
  · rintro value t ⟨hinv, hvalue⟩
    exact hnext value hvalue t hinv
  · rintro error t ⟨hinv, herror⟩
    exact ⟨hinv, herror⟩

theorem Stays.attempt (hstays : Stays inv program good bad) : Stays inv program.attempt (Ends good bad) bad' := by
  intro s hs
  refine (hstays s hs).attempt.weaken ?_
  rintro outcome t ⟨result, rfl, hinv, hend⟩
  exact ⟨hinv, hend⟩

theorem stays_ofExcept_bind (hok : ∀ value, result = .ok value → Stays inv (next value) goal bad)
    (hbad : ∀ error, result = .error error → bad error) : Stays inv (ofExcept result >>= next) goal bad :=
  (stays_ofExcept (fun _ h => h) hbad).bind hok

/-- The loop rule: what holds after the items done so far is kept by one more. -/
theorem stays_foldlM {step : β → α → Program ι σ ε β} (items : List α) {start : β} (loop : List α → β → Prop)
    (hstart : loop [] start)
    (hstep : ∀ done item state, done ++ [item] <+: items → loop done state →
      Stays inv (step state item) (loop (done ++ [item])) bad) : Stays inv (items.foldlM step start) (loop items) bad := by
  suffices hloop : ∀ todo done state, done ++ todo = items → loop done state → Stays inv (todo.foldlM step state) (loop items) bad from
    hloop items [] start rfl hstart
  intro todo
  induction todo with
  | nil =>
    intro done state hdone hstate
    rw [List.append_nil] at hdone
    exact stays_pure (hdone ▸ hstate)
  | cons item todo ih =>
    intro done state hdone hstate
    rw [List.append_cons] at hdone
    exact (hstep done item state ⟨todo, hdone⟩ hstate).bind fun state' hstate' => ih _ state' hdone hstate'

/-- In every state of `inv` the program has this result. -/
abbrev Computes (inv : σ → Prop) (program : Program ι σ ε α) (result : Except ε α) : Prop :=
  Stays inv program (result = .ok ·) (result = .error ·)

theorem computes_ofExcept (result : Except ε α) : Computes inv (ofExcept result : Program ι σ ε α) result :=
  stays_ofExcept (fun _ h => h) fun _ h => h

theorem Computes.bind {rest : α → Except ε β} (hprogram : Computes inv program result)
    (hnext : ∀ value, result = .ok value → Computes inv (next value) (rest value)) :
    Computes inv (program >>= next) (result >>= rest) := by
  intro s hs
  refine (hprogram s hs).bind ?_ ?_
  · rintro value t ⟨hinv, rfl⟩
    exact hnext value rfl t hinv
  · rintro error t ⟨hinv, rfl⟩
    exact ⟨hinv, rfl⟩

theorem Computes.bind_ok {result : Except ε β} (hprogram : Computes inv program (.ok value))
    (hnext : Computes inv (next value) result) : Computes inv (program >>= next) result := by
  refine (hprogram.bind (fun value' hvalue => ?_) : Computes inv (program >>= next) (.ok value >>= fun _ => result))
  exact Except.ok.inj hvalue ▸ hnext

theorem Computes.attempt (hprogram : Computes inv program result) : Computes inv program.attempt (.ok result) := by
  refine (Stays.attempt hprogram).mono (fun outcome houtcome => ?_) fun _ h => h
  cases outcome with
  | ok value => exact congrArg Except.ok houtcome
  | error error => exact congrArg Except.ok houtcome

theorem computes_foldlM {step : β → α → Program ι σ ε β} {pureStep : β → α → Except ε β}
    (hstep : ∀ state item, Computes inv (step state item) (pureStep state item)) (items : List α) (start : β) :
    Computes inv (items.foldlM step start) (items.foldlM pureStep start) := by
  induction items generalizing start with
  | nil => exact computes_ofExcept (.ok start)
  | cons item items ih => exact (hstep start item).bind fun state _ => ih state

end Stays

end Program
