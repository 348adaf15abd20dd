import Mathlib.Data.List.AList

/-!
# How many names a value has

In a finite map, the number of keys that a value stands under, and what inserting and erasing one
key does to it.
-/

namespace Names

variable {κ α : Type} [DecidableEq κ] [DecidableEq α]

def count (names : AList fun _ : κ => α) (value : α) : Nat :=
  names.entries.countP fun entry => entry.2 = value

theorem count_insert_eq (names : AList fun _ : κ => α) (key : κ) (value other : α) :
    count (names.insert key value) other = count (names.erase key) other + if value = other then 1 else 0 := by
  change List.countP _ (List.kinsert key value names.entries) = List.countP _ (List.kerase key names.entries) + _
  rw [List.kinsert_def, List.countP_cons]
  simp only [decide_eq_true_eq]

variable {names : AList fun _ : κ => α} {key : κ} {value : α}

theorem count_insert (hnew : names.lookup key = none) (other : α) :
    count (names.insert key value) other = count names other + if value = other then 1 else 0 := by
  unfold count
  rw [AList.entries_insert_of_notMem (AList.lookup_eq_none.1 hnew), List.countP_cons]
  simp only [decide_eq_true_eq]

theorem count_erase_add (hvalue : names.lookup key = some value) (other : α) :
    count (names.erase key) other + (if value = other then 1 else 0) = count names other := by
  have hkey : key ∈ names.entries.keys := AList.mem_keys.1 (AList.lookup_isSome.1 (by rw [hvalue]; rfl))
  obtain ⟨found, before, after, _, hentries, herase⟩ := List.exists_of_kerase hkey
  have hfound : (⟨key, found⟩ : Sigma fun _ : κ => α) ∈ names.entries := by
    rw [hentries]
    exact List.mem_append_right _ List.mem_cons_self
  obtain rfl : value = found :=
    Option.some.inj (hvalue.symm.trans (AList.mem_lookup_iff.2 hfound))
  change List.countP _ (List.kerase key names.entries) + _ = List.countP _ names.entries
  rw [herase, hentries]
  simp only [List.countP_append, List.countP_cons, decide_eq_true_eq]
  omega

theorem one_le_count (hvalue : names.lookup key = some value) : 1 ≤ count names value := by
  have hcount := count_erase_add hvalue value
  rw [if_pos rfl] at hcount
  omega

/-- A value with one name has no second one. -/
theorem eq_of_count_le_one {key' : κ} (hcount : count names value ≤ 1) (hkey : names.lookup key = some value)
    (hkey' : names.lookup key' = some value) : key = key' := by
  by_contra hne
  have hcount' := count_erase_add hkey value
  have hrest : (names.erase key).lookup key' = some value := by
    rw [AList.lookup_erase_ne (Ne.symm hne), hkey']
  have hone := one_le_count hrest
  rw [if_pos rfl] at hcount'
  omega

end Names
