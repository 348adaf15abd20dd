import Mathlib.Data.List.Forall2

/-!
# Loops that can fail

What a successful `mapM`, `foldlM` or `forM` in the exception monad says about its elements.
-/

namespace Traverse

variable {ε α β σ : Type}

private theorem except_bind_ok {result : Except ε α} {next : α → Except ε β} {value : β}
    (hbind : result >>= next = .ok value) : ∃ middle, result = .ok middle ∧ next middle = .ok value := by
  cases result with
  | error error => cases hbind
  | ok middle => exact ⟨middle, rfl, hbind⟩

variable {f : α → Except ε β} {items : List α} {results : List β}

theorem mapM_eq_ok_iff :
    items.mapM f = .ok results ↔ List.Forall₂ (fun item result => f item = .ok result) items results := by
  induction items generalizing results with
  | nil =>
    rw [List.mapM_nil, List.forall₂_nil_left_iff]
    constructor
    · intro hok
      exact (Except.ok.inj hok).symm
    · rintro rfl
      rfl
  | cons item items ih =>
    rw [List.mapM_cons, List.forall₂_cons_left_iff]
    constructor
    · intro hok
      obtain ⟨result, hresult, hrest⟩ := except_bind_ok hok
      obtain ⟨rest, hitems, hpure⟩ := except_bind_ok hrest
      exact ⟨result, rest, hresult, ih.1 hitems, (Except.ok.inj hpure).symm⟩
    · rintro ⟨result, rest, hresult, hitems, rfl⟩
      rw [hresult, ih.2 hitems]
      rfl

variable {r : α → β → Prop}

theorem forall₂_imp_of_mem {s : α → β → Prop} (hall : List.Forall₂ r items results)
    (himp : ∀ item ∈ items, ∀ result, r item result → s item result) : List.Forall₂ s items results := by
  induction hall with
  | nil => exact .nil
  | cons hitem _ ih =>
    rw [List.forall_mem_cons] at himp
    exact .cons (himp.1 _ hitem) (ih himp.2)

theorem exists_left_of_forall₂ {result : β} (hall : List.Forall₂ r items results) (hmem : result ∈ results) :
    ∃ item ∈ items, r item result := by
  induction hall with
  | nil => cases hmem
  | cons hitem _ ih =>
    rcases List.mem_cons.1 hmem with rfl | hmem
    · exact ⟨_, List.mem_cons_self, hitem⟩
    · obtain ⟨item, hitem, hresult⟩ := ih hmem
      exact ⟨item, List.mem_cons_of_mem _ hitem, hresult⟩

theorem exists_right_of_forall₂ {item : α} (hall : List.Forall₂ r items results) (hmem : item ∈ items) :
    ∃ result ∈ results, r item result :=
  exists_left_of_forall₂ (r := fun result item => r item result) hall.flip hmem

theorem exists_of_mem_mapM {result : β} (hmap : items.mapM f = .ok results) (hmem : result ∈ results) :
    ∃ item ∈ items, f item = .ok result :=
  exists_left_of_forall₂ (r := fun item result => f item = .ok result) (mapM_eq_ok_iff.1 hmap) hmem

/-- Elements that agree on what the loop depends on lead to the same results. -/
theorem mapM_of_map_eq {γ : Type} {view : α → γ} {others : List α}
    (hrespects : ∀ item other result, view other = view item → f item = .ok result → f other = .ok result)
    (hview : others.map view = items.map view) (hmap : items.mapM f = .ok results) : others.mapM f = .ok results := by
  rw [mapM_eq_ok_iff] at hmap ⊢
  induction hmap generalizing others with
  | nil =>
    rw [List.map_nil, List.map_eq_nil_iff] at hview
    rw [hview]
    exact .nil
  | cons hitem _ ih =>
    obtain ⟨other, rest, rfl, hother, hrest⟩ := List.map_eq_cons_iff.1 hview
    exact .cons (hrespects _ _ _ hother hitem) (ih hrest)

theorem mapM_eq_some_iff {f : α → Option β} :
    items.mapM f = some results ↔ List.Forall₂ (fun item result => f item = some result) items results := by
  induction items generalizing results with
  | nil =>
    rw [List.mapM_nil, List.forall₂_nil_left_iff]
    exact ⟨fun h => (Option.some.inj h).symm, fun h => congrArg some h.symm⟩
  | cons item items ih =>
    rw [List.mapM_cons, List.forall₂_cons_left_iff]
    simp only [Option.bind_eq_bind, Option.bind_eq_some_iff, Option.pure_def, ih]
    constructor
    · rintro ⟨result, hresult, rest, hrest, hpure⟩
      exact ⟨result, rest, hresult, hrest, (Option.some.inj hpure).symm⟩
    · rintro ⟨result, rest, hresult, hrest, rfl⟩
      exact ⟨result, hresult, rest, hrest, rfl⟩

theorem exists_mapM (hitems : ∀ item ∈ items, ∃ result, f item = .ok result) :
    ∃ results, items.mapM f = .ok results := by
  induction items with
  | nil => exact ⟨[], rfl⟩
  | cons item items ih =>
    rw [List.forall_mem_cons] at hitems
    obtain ⟨result, hresult⟩ := hitems.1
    obtain ⟨results, hresults⟩ := ih hitems.2
    exact ⟨result :: results, mapM_eq_ok_iff.2 (.cons hresult (mapM_eq_ok_iff.1 hresults))⟩

theorem forM_eq_ok_iff {f : α → Except ε PUnit} : items.forM f = .ok ⟨⟩ ↔ ∀ item ∈ items, f item = .ok ⟨⟩ := by
  induction items with
  | nil =>
    refine ⟨fun _ item hitem => ?_, fun _ => rfl⟩
    cases hitem
  | cons item items ih =>
    rw [List.forall_mem_cons, ← ih]
    change (f item >>= fun _ => items.forM f) = _ ↔ _
    cases hitem : f item with
    | error error => exact ⟨nofun, fun h => nomatch h.1⟩
    | ok u => exact ⟨fun h => ⟨rfl, h⟩, fun h => h.2⟩

variable {start final : σ}

/-- A property that every successful step of a loop keeps holds after the loop. -/
theorem foldlM_invariant {f : σ → α → Except ε σ} {P : σ → Prop} (hstart : P start)
    (hstep : ∀ state item next, item ∈ items → P state → f state item = .ok next → P next)
    (hfold : items.foldlM f start = .ok final) : P final := by
  induction items generalizing start with
  | nil =>
    obtain rfl := Except.ok.inj hfold
    exact hstart
  | cons item items ih =>
    rw [List.foldlM_cons] at hfold
    obtain ⟨middle, hmiddle, hrest⟩ := except_bind_ok hfold
    refine ih (hstep start item middle List.mem_cons_self hstart hmiddle) ?_ hrest
    intro state item next hmem
    exact hstep state item next (List.mem_cons_of_mem _ hmem)

/-- Every element of a loop that succeeded had a step that succeeded. -/
theorem exists_step_of_mem {f : σ → α → Except ε σ} {item : α} (hfold : items.foldlM f start = .ok final)
    (hmem : item ∈ items) : ∃ before after, f before item = .ok after := by
  induction items generalizing start with
  | nil => cases hmem
  | cons first items ih =>
    rw [List.foldlM_cons] at hfold
    obtain ⟨middle, hmiddle, hrest⟩ := except_bind_ok hfold
    rcases List.mem_cons.1 hmem with rfl | hmem
    · exact ⟨start, middle, hmiddle⟩
    · exact ih hrest hmem

/-- A loop whose every step adds one result to a log. -/
theorem foldlM_appends {f : σ → α → Except ε σ} {log : σ → List β}
    (hstep : ∀ state item next, f state item = .ok next → ∃ result, log next = log state ++ [result] ∧ r item result)
    (hfold : items.foldlM f start = .ok final) :
    ∃ results, log final = log start ++ results ∧ List.Forall₂ r items results := by
  induction items generalizing start with
  | nil =>
    obtain rfl := Except.ok.inj hfold
    exact ⟨[], (List.append_nil _).symm, .nil⟩
  | cons item items ih =>
    rw [List.foldlM_cons] at hfold
    obtain ⟨middle, hmiddle, hrest⟩ := except_bind_ok hfold
    obtain ⟨result, hlog, hresult⟩ := hstep start item middle hmiddle
    obtain ⟨results, hlogs, hresults⟩ := ih hrest
    exact ⟨result :: results, by rw [hlogs, hlog, List.append_assoc]; rfl, .cons hresult hresults⟩

end Traverse
