import Mathlib.Data.List.Sort

/-!
# Sorting by a key

The stable sort of a list by a key of its elements, and checks on neighbouring elements.
-/

namespace SortBy

variable {α κ : Type} [LinearOrder κ]

def sortBy (key : α → κ) (values : List α) : List α :=
  values.insertionSort fun a b => key a ≤ key b

theorem perm_sortBy (key : α → κ) (values : List α) : (sortBy key values).Perm values :=
  List.perm_insertionSort _ values

variable {key : α → κ} {values : List α}

theorem mem_sortBy {value : α} : value ∈ sortBy key values ↔ value ∈ values :=
  (perm_sortBy key values).mem_iff

theorem pairwise_sortBy (key : α → κ) (values : List α) : (sortBy key values).Pairwise fun a b => key a ≤ key b := by
  have htotal : Std.Total fun a b : α => key a ≤ key b := ⟨fun a b => le_total (key a) (key b)⟩
  have htrans : IsTrans α fun a b => key a ≤ key b := ⟨fun a b c => le_trans⟩
  exact List.pairwise_insertionSort _ values

theorem sortBy_eq_self (hsorted : values.Pairwise fun a b => key a ≤ key b) : sortBy key values = values :=
  hsorted.insertionSort_eq

/-- A check on every two neighbours. -/
def neighbours (check : α → α → Bool) : List α → Bool
  | first :: second :: rest => check first second && neighbours check (second :: rest)
  | _ => true

/-- In a sorted list no two neighbours agree exactly when it is strictly increasing. -/
theorem neighbours_ne_iff (hsorted : values.Pairwise fun a b => key a ≤ key b) :
    neighbours (fun a b => decide (key a ≠ key b)) values = true ↔ values.Pairwise fun a b => key a < key b := by
  induction values with
  | nil => simp [neighbours]
  | cons first rest ih =>
    cases rest with
    | nil => simp [neighbours]
    | cons second rest =>
      obtain ⟨hfirst, hrest⟩ := List.pairwise_cons.1 hsorted
      rw [neighbours, Bool.and_eq_true, decide_eq_true_eq, ih hrest, List.pairwise_cons (a := first)]
      constructor
      · rintro ⟨hne, hlt⟩
        refine ⟨?_, hlt⟩
        intro value hvalue
        have hsecond : key first < key second := lt_of_le_of_ne (hfirst second List.mem_cons_self) hne
        rcases List.mem_cons.1 hvalue with rfl | hvalue
        · exact hsecond
        · exact lt_of_lt_of_le hsecond ((List.pairwise_cons.1 hrest).1 value hvalue)
      · rintro ⟨hlt, hrest⟩
        exact ⟨ne_of_lt (hlt second List.mem_cons_self), hrest⟩

/-- A list without repeated keys has one strictly increasing arrangement. -/
theorem sortBy_eq_of_perm {sorted : List α} (hperm : sorted.Perm values)
    (hsorted : sorted.Pairwise fun a b => key a < key b) : sortBy key values = sorted := by
  refine List.Perm.eq_of_pairwise ?_ (pairwise_sortBy key values) (hsorted.imp le_of_lt) ((perm_sortBy key values).trans hperm.symm)
  intro a b ha hb hab hba
  have hkey : key a = key b := le_antisymm hab hba
  by_contra hne
  have hmem : a ∈ sorted := hperm.mem_iff.2 (mem_sortBy.1 ha)
  have hlt := List.pairwise_iff_getElem.1 hsorted
  obtain ⟨i, hi, rfl⟩ := List.getElem_of_mem hmem
  obtain ⟨j, hj, rfl⟩ := List.getElem_of_mem hb
  rcases lt_trichotomy i j with hij | rfl | hij
  · exact absurd hkey (ne_of_lt (hlt i j hi hj hij))
  · exact hne rfl
  · exact absurd hkey (ne_of_gt (hlt j i hj hi hij))

end SortBy
