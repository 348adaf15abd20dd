import Mathlib.Order.Lattice
import Mathlib.Data.List.Pairwise

/-!
# Finite maps in the order of their keys

A map is the list of its entries with strictly increasing keys, so equal maps are equal lists.
-/

structure SortedMap (κ α : Type) [LT κ] where
  entries : List (κ × α)
  sorted : entries.Pairwise fun entry entry' => entry.1 < entry'.1

namespace SortedMap

variable {κ α : Type} [LinearOrder κ]

def empty : SortedMap κ α :=
  ⟨[], .nil⟩

def get (map : SortedMap κ α) (key : κ) : Option α :=
  map.entries.lookup key

def insertEntry (key : κ) (value : α) : List (κ × α) → List (κ × α)
  | [] => [(key, value)]
  | entry :: entries =>
    if key < entry.1 then (key, value) :: entry :: entries
    else if key = entry.1 then (key, value) :: entries
    else entry :: insertEntry key value entries

variable {key : κ} {value : α} {entries : List (κ × α)} {entry : κ × α}

theorem mem_insertEntry (hmem : entry ∈ insertEntry key value entries) : entry = (key, value) ∨ entry ∈ entries := by
  induction entries with
  | nil => exact .inl (List.mem_singleton.1 hmem)
  | cons first entries ih =>
    rw [insertEntry] at hmem
    split_ifs at hmem
    · exact List.mem_cons.1 hmem
    · exact (List.mem_cons.1 hmem).imp_right (List.mem_cons_of_mem _)
    · rcases List.mem_cons.1 hmem with rfl | hmem
      · exact .inr List.mem_cons_self
      · exact (ih hmem).imp_right (List.mem_cons_of_mem _)

theorem pairwise_insertEntry (hsorted : entries.Pairwise fun entry entry' => entry.1 < entry'.1) :
    (insertEntry key value entries).Pairwise fun entry entry' => entry.1 < entry'.1 := by
  induction entries with
  | nil => exact List.pairwise_singleton _ _
  | cons first entries ih =>
    obtain ⟨hfirst, hrest⟩ := List.pairwise_cons.1 hsorted
    rw [insertEntry]
    split_ifs with hlt heq
    · refine List.pairwise_cons.2 ⟨?_, hsorted⟩
      intro entry hentry
      rcases List.mem_cons.1 hentry with rfl | hentry
      · exact hlt
      · exact lt_trans hlt (hfirst entry hentry)
    · subst heq
      exact List.pairwise_cons.2 ⟨hfirst, hrest⟩
    · refine List.pairwise_cons.2 ⟨?_, ih hrest⟩
      intro entry hentry
      rcases mem_insertEntry hentry with rfl | hentry
      · exact lt_of_le_of_ne (not_lt.1 hlt) (Ne.symm heq)
      · exact hfirst entry hentry

def insert (map : SortedMap κ α) (key : κ) (value : α) : SortedMap κ α :=
  ⟨insertEntry key value map.entries, pairwise_insertEntry map.sorted⟩

variable {map : SortedMap κ α}

theorem ext {map' : SortedMap κ α} (hentries : map.entries = map'.entries) : map = map' := by
  cases map
  cases map'
  cases hentries
  rfl

instance [DecidableEq α] : DecidableEq (SortedMap κ α) := fun map map' =>
  decidable_of_iff (map.entries = map'.entries) ⟨ext, fun heq => heq ▸ rfl⟩

theorem insertEntry_of_lt (hlt : ∀ entry ∈ entries, entry.1 < key) :
    insertEntry key value entries = entries ++ [(key, value)] := by
  induction entries with
  | nil => rfl
  | cons first entries ih =>
    have hfirst := hlt first List.mem_cons_self
    rw [insertEntry, if_neg (not_lt_of_gt hfirst), if_neg (Ne.symm (ne_of_lt hfirst)),
      ih fun entry hentry => hlt entry (List.mem_cons_of_mem _ hentry), List.cons_append]

/-- Inserting past the last key appends. -/
theorem entries_insert_of_lt (hlt : ∀ entry ∈ map.entries, entry.1 < key) :
    (map.insert key value).entries = map.entries ++ [(key, value)] :=
  insertEntry_of_lt hlt

theorem mem_insertEntry_iff (hsorted : entries.Pairwise fun entry entry' => entry.1 < entry'.1) :
    entry ∈ insertEntry key value entries ↔ entry = (key, value) ∨ entry ∈ entries ∧ entry.1 ≠ key := by
  induction entries with
  | nil => simp [insertEntry]
  | cons first entries ih =>
    obtain ⟨hfirst, hrest⟩ := List.pairwise_cons.1 hsorted
    have hlater : ∀ e ∈ entries, key ≤ first.1 → e.1 ≠ key := fun e he hle => (lt_of_le_of_lt hle (hfirst e he)).ne'
    rw [insertEntry]
    split_ifs with hlt heq
    · rw [List.mem_cons]
      refine or_congr_right ⟨fun hmem => ⟨hmem, ?_⟩, And.left⟩
      rcases List.mem_cons.1 hmem with rfl | hmem
      · exact hlt.ne'
      · exact hlater entry hmem hlt.le
    · rw [List.mem_cons]
      refine or_congr_right ⟨fun hmem => ⟨List.mem_cons_of_mem _ hmem, hlater entry hmem heq.le⟩, ?_⟩
      rintro ⟨hmem, hne⟩
      rcases List.mem_cons.1 hmem with rfl | hmem
      · exact absurd heq.symm hne
      · exact hmem
    · rw [List.mem_cons, ih hrest, List.mem_cons]
      constructor
      · rintro (rfl | rfl | ⟨hmem, hne⟩)
        · exact .inr ⟨.inl rfl, Ne.symm heq⟩
        · exact .inl rfl
        · exact .inr ⟨.inr hmem, hne⟩
      · rintro (rfl | ⟨rfl | hmem, hne⟩)
        · exact .inr (.inl rfl)
        · exact .inl rfl
        · exact .inr (.inr ⟨hmem, hne⟩)

theorem mem_entries_insert :
    entry ∈ (map.insert key value).entries ↔ entry = (key, value) ∨ entry ∈ map.entries ∧ entry.1 ≠ key :=
  mem_insertEntry_iff map.sorted

theorem length_insertEntry_le (key : κ) (value : α) (entries : List (κ × α)) :
    (insertEntry key value entries).length ≤ entries.length + 1 := by
  induction entries with
  | nil => exact Nat.le_refl _
  | cons first entries ih =>
    rw [insertEntry]
    split_ifs
    · exact Nat.le_refl _
    · exact Nat.le_succ _
    · exact Nat.succ_le_succ ih

/-- A key has one entry. -/
theorem eq_of_mem_entries {entry' : κ × α} (hmem : entry ∈ map.entries) (hmem' : entry' ∈ map.entries)
    (hkey : entry.1 = entry'.1) : entry = entry' := by
  have hsorted := List.pairwise_iff_getElem.1 map.sorted
  obtain ⟨i, hi, rfl⟩ := List.getElem_of_mem hmem
  obtain ⟨j, hj, rfl⟩ := List.getElem_of_mem hmem'
  rcases Nat.lt_trichotomy i j with hij | rfl | hij
  · exact absurd hkey (hsorted i j hi hj hij).ne
  · rfl
  · exact absurd hkey (hsorted j i hj hi hij).ne'

theorem mem_entries_of_get (hget : map.get key = some value) : (key, value) ∈ map.entries := by
  unfold get at hget
  generalize map.entries = entries at hget ⊢
  induction entries with
  | nil => cases hget
  | cons entry entries ih =>
    obtain ⟨key', value'⟩ := entry
    rw [List.lookup_cons] at hget
    by_cases heq : key = key'
    · subst heq
      rw [beq_self_eq_true] at hget
      cases hget
      exact List.mem_cons_self
    · rw [beq_false_of_ne heq] at hget
      exact List.mem_cons_of_mem _ (ih hget)

theorem get_of_mem_entries (hmem : (key, value) ∈ map.entries) : map.get key = some value := by
  cases hget : map.get key with
  | none =>
    have hnone := List.lookup_eq_none_iff.1 hget (key, value) hmem
    simp at hnone
  | some found => rw [(Prod.mk.inj (eq_of_mem_entries (mem_entries_of_get hget) hmem rfl)).2]

theorem get_eq_some_iff : map.get key = some value ↔ (key, value) ∈ map.entries :=
  ⟨mem_entries_of_get, get_of_mem_entries⟩

theorem get_insert_self (map : SortedMap κ α) (key : κ) (value : α) : (map.insert key value).get key = some value :=
  get_eq_some_iff.2 (mem_entries_insert.2 (.inl rfl))

theorem get_insert_of_ne {key' : κ} {value' : α} (hne : key' ≠ key) (hget : map.get key' = some value') :
    (map.insert key value).get key' = some value' :=
  get_eq_some_iff.2 (mem_entries_insert.2 (.inr ⟨get_eq_some_iff.1 hget, hne⟩))

theorem get_insert (map : SortedMap κ α) (key key' : κ) (value : α) :
    (map.insert key value).get key' = if key' = key then some value else map.get key' := by
  ext found
  rw [get_eq_some_iff, mem_entries_insert]
  split_ifs with heq
  · simp [heq, eq_comm]
  · simp [heq, get_eq_some_iff]

theorem length_insertEntry_of_mem (hsorted : entries.Pairwise fun entry entry' => entry.1 < entry'.1)
    (hmem : entry ∈ entries) (hkey : entry.1 = key) : (insertEntry key value entries).length = entries.length := by
  induction entries with
  | nil => cases hmem
  | cons first entries ih =>
    obtain ⟨hfirst, hrest⟩ := List.pairwise_cons.1 hsorted
    rw [insertEntry]
    rcases List.mem_cons.1 hmem with rfl | hmem
    · rw [if_neg (hkey ▸ lt_irrefl _), if_pos hkey.symm, List.length_cons, List.length_cons]
    · have hlt := hkey ▸ hfirst entry hmem
      rw [if_neg hlt.not_gt, if_neg hlt.ne', List.length_cons, ih hrest hmem, List.length_cons]

/-- `BTreeMap::retain`. -/
def filter (map : SortedMap κ α) (keep : κ → α → Bool) : SortedMap κ α :=
  ⟨map.entries.filter fun entry => keep entry.1 entry.2, map.sorted.filter _⟩

/-- `BTreeMap::remove`. -/
def erase (map : SortedMap κ α) (key : κ) : SortedMap κ α :=
  map.filter fun key' _ => key' != key

theorem mem_entries_erase : entry ∈ (map.erase key).entries ↔ entry ∈ map.entries ∧ entry.1 ≠ key := by
  rw [erase, filter, List.mem_filter, bne_iff_ne]

theorem get_erase (map : SortedMap κ α) (key key' : κ) :
    (map.erase key).get key' = if key' = key then none else map.get key' := by
  ext found
  rw [get_eq_some_iff, mem_entries_erase]
  split_ifs with heq
  · simp [heq]
  · simp [heq, get_eq_some_iff]

/-! ## Many insertions -/

/-- The value written last under a key. -/
def lastEntry {κ α : Type} [DecidableEq κ] (key : κ) : List (κ × α) → Option α
  | [] => none
  | entry :: entries => (lastEntry key entries).or (if entry.1 = key then some entry.2 else none)

def insertAll (map : SortedMap κ α) (entries : List (κ × α)) : SortedMap κ α :=
  entries.foldl (fun map entry => map.insert entry.1 entry.2) map

theorem insertAll_append (map : SortedMap κ α) (front back : List (κ × α)) :
    map.insertAll (front ++ back) = (map.insertAll front).insertAll back :=
  List.foldl_append

theorem get_insertAll (map : SortedMap κ α) (entries : List (κ × α)) (key : κ) :
    (map.insertAll entries).get key = (lastEntry key entries).or (map.get key) := by
  induction entries generalizing map with
  | nil => rfl
  | cons entry entries ih =>
    show ((map.insert entry.1 entry.2).insertAll entries).get key = _
    rw [ih, lastEntry, get_insert, Option.or_assoc]
    by_cases hkey : entry.1 = key
    · rw [if_pos hkey.symm, if_pos hkey, Option.some_or]
    · rw [if_neg (Ne.symm hkey), if_neg hkey, Option.none_or]

theorem lastEntry_eq_none {κ α : Type} [DecidableEq κ] {key : κ} {entries : List (κ × α)} (hnone : ∀ entry ∈ entries, entry.1 ≠ key) :
    lastEntry key entries = none := by
  induction entries with
  | nil => rfl
  | cons entry entries ih =>
    rw [lastEntry, ih fun other hother => hnone other (List.mem_cons_of_mem _ hother), if_neg (hnone entry List.mem_cons_self), Option.none_or]

theorem lastEntry_append {κ α : Type} [DecidableEq κ] (key : κ) (front back : List (κ × α)) :
    lastEntry key (front ++ back) = (lastEntry key back).or (lastEntry key front) := by
  induction front with
  | nil => exact Option.or_none.symm
  | cons entry front ih => rw [List.cons_append, lastEntry, lastEntry, ih, Option.or_assoc]

end SortedMap
