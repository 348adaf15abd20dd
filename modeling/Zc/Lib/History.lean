import Mathlib.Data.List.Basic

/-!
# Histories

The runs of a system that takes one step after another. What a step may do can depend on everything
that happened before it.
-/

inductive History {σ α : Type} (start : σ) (step : List α → σ → α → σ → Prop) : List α → σ → Prop
  | start : History start step [] start
  | step {log : List α} {state next : σ} {event : α} (hrun : History start step log state)
    (hstep : step log state event next) : History start step (log ++ [event]) next

namespace History

variable {σ α : Type} {start : σ} {step : List α → σ → α → σ → Prop}

theorem invariant {P : List α → σ → Prop} (hstart : P [] start)
    (hstep : ∀ log state event next, P log state → step log state event next → P (log ++ [event]) next) {log : List α}
    {state : σ} (hrun : History start step log state) : P log state := by
  induction hrun with
  | start => exact hstart
  | step _ hnext ih => exact hstep _ _ _ _ ih hnext

/-- What happened at one place of a run. -/
theorem split {before after : List α} {event : α} {state : σ} (hrun : History start step (before ++ event :: after) state) :
    ∃ middle next, History start step before middle ∧ step before middle event next := by
  generalize hlog : before ++ event :: after = log at hrun
  induction hrun generalizing after with
  | start => simp at hlog
  | @step log middle next last hrun hnext ih =>
    rcases List.eq_nil_or_concat' after with rfl | ⟨init, final, rfl⟩
    · obtain ⟨rfl, hlast⟩ := List.append_inj' hlog rfl
      obtain rfl := List.singleton_injective hlast
      exact ⟨middle, next, hrun, hnext⟩
    · rw [← List.cons_append, ← List.append_assoc] at hlog
      exact ih (List.append_inj' hlog rfl).1

end History
