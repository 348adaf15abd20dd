import Mathlib.Data.List.Infix

/-!
# Separated labels

A list is read as the sequence of labels that a separator cuts it into. A list of labels is a
suffix of another exactly when the texts agree up to a separator.
-/

namespace Labels

private theorem intercalate_append {α : Type*} (sep : List α) (front back : List (List α))
    (hfront : front ≠ []) (hback : back ≠ []) :
    sep.intercalate (front ++ back) = sep.intercalate front ++ sep ++ sep.intercalate back := by
  induction front with
  | nil => exact absurd rfl hfront
  | cons label front ih =>
    cases front with
    | nil =>
      rw [List.singleton_append, List.intercalate_cons_of_ne_nil hback, List.intercalate_singleton]
    | cons next front =>
      have hrest := ih (List.cons_ne_nil _ _)
      simp only [List.cons_append] at hrest ⊢
      rw [List.intercalate_cons_cons, hrest, List.intercalate_cons_cons]
      simp only [List.append_assoc]

variable {α : Type*} [BEq α] [LawfulBEq α]

/-- The labels of `tail` end the labels of `text` exactly when `text` is `tail`, or ends with a
    separator followed by `tail`. -/
theorem splitOn_isSuffix_iff (sep : α) (text tail : List α) :
    tail.splitOn sep <:+ text.splitOn sep ↔ text = tail ∨ ∃ front, text = front ++ sep :: tail := by
  constructor
  · rintro ⟨front, hfront⟩
    have htext : text = [sep].intercalate (front ++ tail.splitOn sep) := by
      rw [hfront, List.intercalate_splitOn]
    cases front with
    | nil =>
      left
      rw [htext, List.nil_append, List.intercalate_splitOn]
    | cons label front =>
      right
      rw [intercalate_append _ _ _ (List.cons_ne_nil _ _) (List.splitOn_ne_nil _ _),
        List.intercalate_splitOn] at htext
      exact ⟨_, by simpa using htext⟩
  · rintro (rfl | ⟨front, rfl⟩)
    · exact List.suffix_rfl
    · rw [List.splitOn_append_cons_self]
      exact List.suffix_append _ _

end Labels
