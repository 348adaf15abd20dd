import Mathlib.Algebra.Order.BigOperators.Group.List
import Zc.Config.Lawful
import Zc.Override.Normalize

/-!
# Maps of a document

How the edits of a map act on its lookups, on its validity and on the size of its text.
-/

namespace zc.override_script.Map

variable {map map' : Map} {key key' : String} {value value' : Value}

/-! ## Lookups -/

theorem lookup_cons {first : String} : List.lookup key ((first, value) :: map) = if key = first then some value else map.lookup key := by
  rw [List.lookup_cons]
  by_cases hkey : key = first
  · rw [if_pos hkey, hkey, beq_self_eq_true]
  · rw [if_neg hkey, beq_eq_false_iff_ne.2 hkey]

theorem lookup_insert : (map.insert key value).lookup key' = if key' = key then some value else map.lookup key' := by
  induction map with
  | nil => rw [insert, lookup_cons]
  | cons entry map ih =>
    obtain ⟨first, old⟩ := entry
    rw [insert]
    split
    · next heq =>
      obtain rfl : key = first := heq
      rw [lookup_cons, lookup_cons]
      by_cases hkey : key' = key
      · rw [if_pos hkey, if_pos hkey]
      · rw [if_neg hkey, if_neg hkey, if_neg hkey]
    split
    · rw [lookup_cons]
    · next hne _ =>
      rw [lookup_cons, ih, lookup_cons]
      by_cases hkey : key' = key
      · rw [if_pos hkey, if_pos hkey, if_neg (hkey ▸ hne)]
      · rw [if_neg hkey, if_neg hkey]

theorem lookup_insert_self : (map.insert key value).lookup key = some value := by
  rw [lookup_insert, if_pos rfl]

theorem lookup_insert_of_ne (hne : key' ≠ key) : (map.insert key value).lookup key' = map.lookup key' := by
  rw [lookup_insert, if_neg hne]

theorem lookup_default_self {default : Value} {found : Option Value} (hfound : map.lookup key = found) :
    (if found.isSome then map else map.insert key default).lookup key = some (found.getD default) := by
  cases found with
  | none => exact lookup_insert_self
  | some value => exact hfound

theorem lookup_default_of_ne {default : Value} (present : Bool) (hne : key' ≠ key) :
    (if present then map else map.insert key default).lookup key' = map.lookup key' := by
  split
  · rfl
  · exact lookup_insert_of_ne hne

theorem lookup_filter {p : String × Value → Bool} (hp : ∀ value, p (key, value) = true) :
    List.lookup key (map.filter p) = map.lookup key := by
  induction map with
  | nil => rfl
  | cons entry map ih =>
    obtain ⟨first, old⟩ := entry
    rw [List.filter_cons]
    split
    · rw [lookup_cons, lookup_cons, ih]
    · next hfalse =>
      have hne : key ≠ first := by
        rintro rfl
        exact hfalse (hp old)
      rw [ih, lookup_cons, if_neg hne]

theorem lookup_remove_of_ne (hne : key' ≠ key) : (map.remove key).lookup key' = map.lookup key' :=
  lookup_filter fun _ => bne_iff_ne.2 hne

theorem contains_key_eq : map.contains_key key = (map.lookup key).isSome := by
  induction map with
  | nil => rfl
  | cons entry map ih =>
    obtain ⟨first, old⟩ := entry
    rw [contains_key] at ih
    rw [contains_key, List.any_cons, ih, lookup_cons]
    by_cases hkey : key = first
    · simp [hkey]
    · simp [hkey, Ne.symm hkey]

theorem mem_of_lookup (hlookup : map.lookup key = some value) : (key, value) ∈ map := by
  induction map with
  | nil => cases hlookup
  | cons entry map ih =>
    obtain ⟨first, old⟩ := entry
    rw [lookup_cons] at hlookup
    split at hlookup
    · next hkey =>
      rw [hkey, ← Option.some.inj hlookup]
      exact List.mem_cons_self
    · exact List.mem_cons_of_mem _ (ih hlookup)

/-! ## Order -/

/-- Strictly increasing keys. -/
def Ordered (map : Map) : Prop :=
  map.Pairwise fun a b => a.1 < b.1

theorem mem_insert {entry : String × Value} (hentry : entry ∈ map.insert key value) : entry = (key, value) ∨ entry ∈ map := by
  induction map with
  | nil => exact .inl (List.mem_singleton.1 hentry)
  | cons first map ih =>
    rw [insert] at hentry
    split at hentry
    · rcases List.mem_cons.1 hentry with heq | hmem
      · exact .inl heq
      · exact .inr (List.mem_cons_of_mem _ hmem)
    split at hentry
    · exact List.mem_cons.1 hentry
    · rcases List.mem_cons.1 hentry with heq | hmem
      · exact .inr (heq ▸ List.mem_cons_self)
      · exact (ih hmem).imp_right (List.mem_cons_of_mem _)

theorem Ordered.insert (hordered : map.Ordered) : (map.insert key value).Ordered := by
  induction map with
  | nil => exact List.pairwise_singleton _ _
  | cons entry map ih =>
    obtain ⟨hfirst, hrest⟩ := List.pairwise_cons.1 hordered
    rw [Map.insert]
    split
    · next heq =>
      refine List.pairwise_cons.2 ⟨fun other hother => ?_, hrest⟩
      rw [heq]
      exact hfirst other hother
    split
    · next hlt =>
      refine List.pairwise_cons.2 ⟨fun other hother => ?_, hordered⟩
      rcases List.mem_cons.1 hother with rfl | hother
      · exact hlt
      · exact hlt.trans (hfirst other hother)
    · next hne hnlt =>
      refine List.pairwise_cons.2 ⟨fun other hother => ?_, ih hrest⟩
      rcases mem_insert hother with rfl | hother
      · exact lt_of_le_of_ne (not_lt.1 hnlt) (Ne.symm hne)
      · exact hfirst other hother

theorem Ordered.filter (hordered : map.Ordered) (p : String × Value → Bool) : Ordered (map.filter p) :=
  hordered.sublist List.filter_sublist

/-! ## Validity -/

theorem Valid.ordered (hvalid : (Value.object map).valid = true) : map.Ordered :=
  (Value.valid_object.1 hvalid).1

theorem Valid.lookup (hvalid : (Value.object map).valid = true) (hlookup : map.lookup key = some value) :
    value.valid = true :=
  (Value.valid_object.1 hvalid).2 _ (mem_of_lookup hlookup)

theorem Valid.insert (hvalid : (Value.object map).valid = true) (hvalue : value.valid = true) :
    (Value.object (map.insert key value)).valid = true := by
  rw [Value.valid_object]
  refine ⟨(Valid.ordered hvalid).insert, fun entry hentry => ?_⟩
  rcases mem_insert hentry with rfl | hentry
  · exact hvalue
  · exact (Value.valid_object.1 hvalid).2 entry hentry

theorem Valid.filter (hvalid : (Value.object map).valid = true) (p : String × Value → Bool) :
    (Value.object (map.filter p)).valid = true := by
  rw [Value.valid_object]
  exact ⟨(Valid.ordered hvalid).filter p, fun entry hentry => (Value.valid_object.1 hvalid).2 entry (List.mem_of_mem_filter hentry)⟩

end zc.override_script.Map

namespace zc.override_script

/-! ## Entries -/

mutual

/-- The entries of all arrays and objects in a value. -/
def entryCount : Value → Nat
  | .array items => items.length + itemsCount items
  | .object entries => entries.length + valuesCount entries
  | _ => 0

def itemsCount : List Value → Nat
  | [] => 0
  | item :: items => entryCount item + itemsCount items

def valuesCount : List (String × Value) → Nat
  | [] => 0
  | (_, value) :: entries => entryCount value + valuesCount entries

end

mutual

theorem count_entries_eq_ok_iff {value : Value} {remaining rest : Nat} :
    count_entries value remaining = .ok rest ↔ entryCount value + rest = remaining := by
  cases value with
  | array items =>
    simp only [count_entries, entryCount, bind_eq_ok_iff, bail_if_eq_ok_iff, decide_eq_false_iff_not, count_items_eq_ok_iff]
    exact ⟨by rintro ⟨_, hle, hrest⟩; omega, fun h => ⟨(), by omega, by omega⟩⟩
  | object entries =>
    simp only [count_entries, entryCount, bind_eq_ok_iff, bail_if_eq_ok_iff, decide_eq_false_iff_not, count_values_eq_ok_iff]
    exact ⟨by rintro ⟨_, hle, hrest⟩; omega, fun h => ⟨(), by omega, by omega⟩⟩
  | _ =>
    simp only [count_entries, entryCount, Nat.zero_add]
    exact ⟨fun h => (Except.ok.inj h).symm, fun h => congrArg Except.ok h.symm⟩

theorem count_items_eq_ok_iff {items : List Value} {remaining rest : Nat} :
    count_items items remaining = .ok rest ↔ itemsCount items + rest = remaining := by
  cases items with
  | nil =>
    simp only [count_items, itemsCount, Nat.zero_add]
    exact ⟨fun h => (Except.ok.inj h).symm, fun h => congrArg Except.ok h.symm⟩
  | cons item items =>
    simp only [count_items, itemsCount, bind_eq_ok_iff, count_entries_eq_ok_iff, count_items_eq_ok_iff]
    exact ⟨by rintro ⟨middle, rfl, rfl⟩; omega, fun h => ⟨_, by omega, rfl⟩⟩

theorem count_values_eq_ok_iff {entries : List (String × Value)} {remaining rest : Nat} :
    count_values entries remaining = .ok rest ↔ valuesCount entries + rest = remaining := by
  cases entries with
  | nil =>
    simp only [count_values, valuesCount, Nat.zero_add]
    exact ⟨fun h => (Except.ok.inj h).symm, fun h => congrArg Except.ok h.symm⟩
  | cons entry entries =>
    obtain ⟨key, value⟩ := entry
    simp only [count_values, valuesCount, bind_eq_ok_iff, count_entries_eq_ok_iff, count_values_eq_ok_iff]
    exact ⟨by rintro ⟨middle, rfl, rfl⟩; omega, fun h => ⟨_, by omega, rfl⟩⟩

end

end zc.override_script
