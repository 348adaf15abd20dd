import Mathlib.Data.Fintype.Card
import Mathlib.Data.Finset.Card
import Mathlib.Order.RelClasses
import Mathlib.Order.WellFounded

/-!
# Walks along an accessible relation

A walk that follows one chosen successor at a time cannot visit a node twice below an accessible
start, so it leaves every finite set of inner nodes within as many steps as the set has members.
-/

namespace Walk

variable {α : Type*} {r : α → α → Prop}

theorem not_transGen_self {a : α} (hacc : Acc r a) : ¬ Relation.TransGen r a a := by
  have htrans : Acc (Relation.TransGen r) a := hacc.transGen
  clear hacc
  induction htrans with
  | intro a _ ih =>
    intro hself
    exact ih a hself hself

section Iterate

variable {next : α → α} {Inner : α → Prop}

/-- Everything a walk passes through inner nodes to is accessible. -/
theorem acc_iterate (hnext : ∀ x, Inner x → r (next x) x) {a : α} (hacc : Acc r a) {k : Nat}
    (hinner : ∀ j < k, Inner (next^[j] a)) : Acc r (next^[k] a) := by
  induction k with
  | zero => exact hacc
  | succ k ih =>
    rw [Function.iterate_succ_apply']
    have hk := ih fun j hj => hinner j (by omega)
    exact hk.inv (hnext _ (hinner k (by omega)))

theorem transGen_iterate (hnext : ∀ x, Inner x → r (next x) x) {a : α} {i j : Nat} (hij : i < j)
    (hinner : ∀ k < j, Inner (next^[k] a)) : Relation.TransGen r (next^[j] a) (next^[i] a) := by
  induction j, hij using Nat.le_induction with
  | base =>
    rw [Function.iterate_succ_apply']
    exact .single (hnext _ (hinner i (by omega)))
  | succ j hj ih =>
    rw [Function.iterate_succ_apply']
    exact .head (hnext _ (hinner j (by omega))) (ih fun k hk => hinner k (by omega))

/-- A walk from an accessible start leaves the inner nodes within their number of steps. -/
theorem exists_exit [DecidablePred Inner] (hnext : ∀ x, Inner x → r (next x) x) {a : α} (hacc : Acc r a)
    {inner : Finset α} (hmem : ∀ x, Inner x → x ∈ inner) :
    ∃ k ≤ inner.card, ¬ Inner (next^[k] a) ∧ ∀ j < k, Inner (next^[j] a) := by
  by_cases hall : ∀ j ≤ inner.card, Inner (next^[j] a)
  · exfalso
    have hmaps : ∀ j ∈ Finset.range (inner.card + 1), next^[j] a ∈ inner := by
      intro j hj
      exact hmem _ (hall j (Nat.lt_succ_iff.1 (Finset.mem_range.1 hj)))
    obtain ⟨i, hi, j, hj, hne, heq⟩ :=
      Finset.exists_ne_map_eq_of_card_lt_of_maps_to (by simp) hmaps
    simp only [Finset.mem_range] at hi hj
    rcases Nat.lt_or_gt_of_ne hne with hlt | hlt
    · have hloop := transGen_iterate hnext hlt fun k hk => hall k (by omega)
      rw [← heq] at hloop
      exact not_transGen_self (acc_iterate hnext hacc fun k hk => hall k (by omega)) hloop
    · have hloop := transGen_iterate hnext hlt fun k hk => hall k (by omega)
      rw [heq] at hloop
      exact not_transGen_self (acc_iterate hnext hacc fun k hk => hall k (by omega)) hloop
  · simp only [not_forall] at hall
    obtain ⟨out, hout, hleft⟩ := hall
    have hexit : ∃ k, ¬ Inner (next^[k] a) := ⟨out, hleft⟩
    refine ⟨Nat.find hexit, ?_, Nat.find_spec hexit, ?_⟩
    · exact (Nat.find_le hleft).trans hout
    · intro j hj
      exact not_not.1 (Nat.find_min hexit hj)

end Iterate

end Walk
