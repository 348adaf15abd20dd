import Mathlib.Tactic.IntervalCases
import Mathlib.Algebra.Order.Ring.Nat

/-!
# Numerals

Numbers written in a radix of at most sixteen, most significant digit first, and the value a
text of digits stands for.
-/

namespace Digits

/-- The value of a digit, in either letter case, where it is below the radix. -/
def toDigit (radix : Nat) (c : Char) : Option Nat :=
  let n := c.toNat
  let digit :=
    if 48 ≤ n ∧ n ≤ 57 then n - 48
    else if 97 ≤ n ∧ n ≤ 122 then n - 97 + 10
    else if 65 ≤ n ∧ n ≤ 90 then n - 65 + 10
    else radix
  if digit < radix then some digit else none

/-- The value of a text of digits; a character that is no digit counts as zero. -/
def value (radix : Nat) (text : List Char) : Nat :=
  text.foldl (fun n c => n * radix + (toDigit radix c).getD 0) 0

theorem value_append_singleton (radix : Nat) (text : List Char) (c : Char) :
    value radix (text ++ [c]) = value radix text * radix + (toDigit radix c).getD 0 := by
  simp [value, List.foldl_append]

theorem toDigit_digitChar {radix d : Nat} (hradix : radix ≤ 16) (hd : d < radix) :
    toDigit radix d.digitChar = some d := by
  have hlt : d < 16 := by omega
  have hval : ∀ k < 16, toDigit 16 k.digitChar = some k := by decide
  have hd16 := hval d hlt
  simp only [toDigit] at hd16 ⊢
  grind

theorem value_toDigits {radix : Nat} (hlow : 1 < radix) (hradix : radix ≤ 16) (n : Nat) :
    value radix (Nat.toDigits radix n) = n := by
  induction n using Nat.strongRecOn with
  | ind n ih =>
    by_cases hn : n < radix
    · rw [Nat.toDigits_of_lt_base hn]
      simp [value, toDigit_digitChar hradix hn]
    · have hdiv : n / radix < n := Nat.div_lt_self (by omega) hlow
      have hmod : n % radix < radix := Nat.mod_lt _ (by omega)
      rw [Nat.toDigits_of_base_le hlow (by omega), value_append_singleton, ih _ hdiv,
        toDigit_digitChar hradix hmod, Option.getD_some]
      exact Nat.div_add_mod' n radix

theorem isSome_toDigit_of_mem_toDigits {radix n : Nat} {c : Char} (hlow : 1 < radix)
    (hradix : radix ≤ 16) (hc : c ∈ Nat.toDigits radix n) : (toDigit radix c).isSome = true := by
  induction n using Nat.strongRecOn with
  | ind n ih =>
    by_cases hn : n < radix
    · rw [Nat.toDigits_of_lt_base hn, List.mem_singleton] at hc
      simp [hc, toDigit_digitChar hradix hn]
    · have hdiv : n / radix < n := Nat.div_lt_self (by omega) hlow
      have hmod : n % radix < radix := Nat.mod_lt _ (by omega)
      rw [Nat.toDigits_of_base_le hlow (by omega), List.mem_append, List.mem_singleton] at hc
      rcases hc with hc | hc
      · exact ih _ hdiv hc
      · simp [hc, toDigit_digitChar hradix hmod]

/-- Only zero is written with a leading zero. -/
theorem head?_toDigits_eq_zero_iff {radix n : Nat} (hlow : 1 < radix) (hradix : radix ≤ 16) :
    (Nat.toDigits radix n).head? = some '0' ↔ n = 0 := by
  induction n using Nat.strongRecOn with
  | ind n ih =>
    by_cases hn : n < radix
    · rw [Nat.toDigits_of_lt_base hn]
      simp
    · have hdiv : n / radix < n := Nat.div_lt_self (by omega) hlow
      have hpos : n / radix ≠ 0 := by
        have := Nat.div_pos (a := n) (b := radix) (by omega) (by omega)
        omega
      have hrest := ih _ hdiv
      obtain ⟨c, text, htext⟩ := List.exists_cons_of_ne_nil (Nat.toDigits_ne_nil (n := n / radix) (b := radix))
      rw [htext] at hrest
      rw [Nat.toDigits_of_base_le hlow (by omega), htext, List.cons_append, List.head?_cons]
      rw [List.head?_cons] at hrest
      rw [hrest]
      omega

end Digits
