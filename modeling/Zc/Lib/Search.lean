import Mathlib.Data.List.Basic
import Mathlib.Data.List.Infix

/-!
# The first place of a pattern

`position` is where a pattern starts in a list for the first time. It is found as soon as the pattern
is whole, whatever follows.
-/

namespace Search

variable {α : Type} {pattern xs ys : List α} {i : Nat}

/-- The pattern stands at a place and at no place before. -/
def First (pattern xs : List α) (i : Nat) : Prop :=
  pattern <+: xs.drop i ∧ ∀ j < i, ¬ pattern <+: xs.drop j

theorem first_unique {i j : Nat} (hi : First pattern xs i) (hj : First pattern xs j) : i = j := by
  rcases Nat.lt_trichotomy i j with hlt | heq | hlt
  · exact absurd hi.1 (hj.2 i hlt)
  · exact heq
  · exact absurd hj.1 (hi.2 j hlt)

theorem le_length_of_first (hpattern : pattern ≠ []) (hfirst : First pattern xs i) : i + pattern.length ≤ xs.length := by
  have hle := hfirst.1.length_le
  rw [List.length_drop] at hle
  have hpos := List.length_pos_iff.2 hpattern
  omega

/-- A pattern that ends within the front stands there already. -/
theorem prefix_drop_of_append {j : Nat} (hj : j + pattern.length ≤ xs.length) (hat : pattern <+: (xs ++ ys).drop j) :
    pattern <+: xs.drop j := by
  rw [List.drop_append_of_le_length (by omega)] at hat
  refine List.prefix_of_prefix_length_le hat (List.prefix_append _ _) ?_
  rw [List.length_drop]
  omega

theorem first_append (hpattern : pattern ≠ []) (hfirst : First pattern xs i) : First pattern (xs ++ ys) i := by
  have hle := le_length_of_first hpattern hfirst
  refine ⟨?_, fun j hj hat => hfirst.2 j hj (prefix_drop_of_append (by omega) hat)⟩
  rw [List.drop_append_of_le_length (by omega)]
  exact hfirst.1.trans (List.prefix_append _ _)

/-- A pattern that the front does not hold ends after it. -/
theorem lt_of_first_append (hnone : ∀ j, ¬ pattern <+: xs.drop j) (hfirst : First pattern (xs ++ ys) i) :
    xs.length < i + pattern.length := by
  by_contra hle
  exact hnone i (prefix_drop_of_append (Nat.le_of_not_lt hle) hfirst.1)

variable [DecidableEq α]

def position (pattern : List α) : List α → Option Nat
  | [] => none
  | x :: xs => if pattern.isPrefixOf (x :: xs) then some 0 else (position pattern xs).map (· + 1)

theorem position_eq_some_iff (hpattern : pattern ≠ []) : position pattern xs = some i ↔ First pattern xs i := by
  induction xs generalizing i with
  | nil =>
    refine ⟨nofun, fun hfirst => ?_⟩
    have hnil := hfirst.1
    rw [List.drop_nil] at hnil
    exact absurd (List.prefix_nil.1 hnil) hpattern
  | cons x xs ih =>
    rw [position]
    split_ifs with hhead
    · rw [List.isPrefixOf_iff_prefix] at hhead
      have hzero : First pattern (x :: xs) 0 := ⟨hhead, nofun⟩
      refine ⟨fun heq => ?_, fun hfirst => congrArg some (first_unique hzero hfirst)⟩
      rwa [← Option.some.inj heq]
    · rw [List.isPrefixOf_iff_prefix] at hhead
      rw [Option.map_eq_some_iff]
      constructor
      · rintro ⟨j, hj, rfl⟩
        obtain ⟨hat, hbefore⟩ := ih.1 hj
        refine ⟨hat, fun k hk => ?_⟩
        cases k with
        | zero => exact hhead
        | succ k => exact hbefore k (Nat.lt_of_succ_lt_succ hk)
      · rintro ⟨hat, hbefore⟩
        cases i with
        | zero => exact absurd hat hhead
        | succ i => exact ⟨i, ih.2 ⟨hat, fun k hk => hbefore (k + 1) (Nat.succ_lt_succ hk)⟩, rfl⟩

theorem position_eq_none_iff (hpattern : pattern ≠ []) : position pattern xs = none ↔ ∀ j, ¬ pattern <+: xs.drop j := by
  induction xs with
  | nil =>
    refine ⟨fun _ j hj => ?_, fun _ => rfl⟩
    rw [List.drop_nil] at hj
    exact hpattern (List.prefix_nil.1 hj)
  | cons x xs ih =>
    rw [position]
    split_ifs with hhead
    · rw [List.isPrefixOf_iff_prefix] at hhead
      exact ⟨nofun, fun hnone => absurd hhead (hnone 0)⟩
    · rw [List.isPrefixOf_iff_prefix] at hhead
      rw [Option.map_eq_none_iff, ih]
      refine ⟨fun hnone j => ?_, fun hnone j => hnone (j + 1)⟩
      cases j with
      | zero => exact hhead
      | succ j => exact hnone j

end Search
