import Zc.Str
import Mathlib.Data.List.ReduceOption
import Mathlib.Data.Nat.Log

/-!
# The order of a Zig map

Providers are written in the order in which Zig's string map iterates over them: that of the slots of an
open-addressing table with linear probing, hashed with Wyhash. `none` stands for a panic: an index out of
bounds, a difference below zero, or the `unreachable!` of a table without a free slot.
-/

namespace zc.override_script

/-! ## The hash -/

def SECRET0 : UInt64 := 0xa0761d6478bd642f
def SECRET1 : UInt64 := 0xe7037ed1a0b428db
def SECRET2 : UInt64 := 0x8ebc6af09c88c6e3
def SECRET3 : UInt64 := 0x589965cc75374cc3

/-- `a - b` of unsigned numbers. -/
def checked_sub (a b : Nat) : Option Nat :=
  if b ≤ a then some (a - b) else none

/-- The low and the high half of a product, combined. -/
def zig_string_hash.mix (a b : UInt64) : UInt64 :=
  .ofNat (a.toNat * b.toNat) ^^^ .ofNat (a.toNat * b.toNat / 2 ^ 64)

/-- `read(&bytes[start..], n)`: little-endian. -/
def zig_string_hash.read (bytes : List UInt8) (start n : Nat) : Option UInt64 :=
  if start ≤ bytes.length ∧ n ≤ (bytes.drop start).length then
    some (((bytes.drop start).take n).zipIdx.foldl (fun value digit => value ||| digit.1.toUInt64 <<< .ofNat (digit.2 * 8)) 0)
  else none

def mix_at (bytes : List UInt8) (start : Nat) (secret state : UInt64) : Option UInt64 := do
  let low ← zig_string_hash.read bytes start 8
  let high ← zig_string_hash.read bytes (start + 8) 8
  some (zig_string_hash.mix (low ^^^ secret) (high ^^^ state))

/-- The rounds over three lanes, with the position they reach. -/
def lanes (bytes : List UInt8) (i : Nat) (state : UInt64 × UInt64 × UInt64) : Option (Nat × UInt64 × UInt64 × UInt64) :=
  if i + 48 < bytes.length then do
    let first ← mix_at bytes i SECRET1 state.1
    let second ← mix_at bytes (i + 16) SECRET2 state.2.1
    let third ← mix_at bytes (i + 32) SECRET3 state.2.2
    lanes bytes (i + 48) (first, second, third)
  else some (i, state)
termination_by bytes.length - i

def blocks (bytes : List UInt8) (i : Nat) (state : UInt64) : Option UInt64 :=
  if i + 16 < bytes.length then do
    let state ← mix_at bytes i SECRET1 state
    blocks bytes (i + 16) state
  else some state
termination_by bytes.length - i

def wide (bytes : List UInt8) (start : UInt64) : Option (Nat × UInt64) :=
  if bytes.length ≥ 48 then do
    let (i, first, second, third) ← lanes bytes 0 (start, start, start)
    some (i, first ^^^ (second ^^^ third))
  else some (0, start)

def hash_short (bytes : List UInt8) : Option (UInt64 × UInt64) :=
  if bytes.length ≥ 4 then do
    let ends ← checked_sub bytes.length 4
    let quarter := (bytes.length >>> 3) <<< 2
    let before ← checked_sub ends quarter
    let a ← zig_string_hash.read bytes 0 4
    let a' ← zig_string_hash.read bytes quarter 4
    let b ← zig_string_hash.read bytes ends 4
    let b' ← zig_string_hash.read bytes before 4
    some (a <<< 32 ||| a', b <<< 32 ||| b')
  else if bytes.length > 0 then do
    let last ← checked_sub bytes.length 1
    let a ← bytes[0]?
    let b ← bytes[bytes.length >>> 1]?
    let c ← bytes[last]?
    some (a.toUInt64 <<< 16 ||| b.toUInt64 <<< 8 ||| c.toUInt64, 0)
  else some (0, 0)

def hash_long (bytes : List UInt8) (start : UInt64) : Option (UInt64 × UInt64 × UInt64) := do
  let (i, state) ← wide bytes start
  let state ← blocks bytes i state
  let sixteen ← checked_sub bytes.length 16
  let eight ← checked_sub bytes.length 8
  let a ← zig_string_hash.read bytes sixteen 8
  let b ← zig_string_hash.read bytes eight 8
  some (a, b, state)

def hash_end (length : Nat) (a b state : UInt64) : UInt64 :=
  let product := (a ^^^ SECRET1).toNat * (b ^^^ state).toNat
  zig_string_hash.mix (.ofNat product ^^^ SECRET0 ^^^ .ofNat length) (.ofNat (product / 2 ^ 64) ^^^ SECRET1)

def zig_string_hash (bytes : List UInt8) : Option UInt64 :=
  let start := zig_string_hash.mix SECRET0 SECRET1
  if bytes.length ≤ 16 then
    (hash_short bytes).map fun (a, b) => hash_end bytes.length a b start
  else
    (hash_long bytes start).map fun (a, b, state) => hash_end bytes.length a b state

theorem checked_sub_of_le {a b : Nat} (hle : b ≤ a) : checked_sub a b = some (a - b) :=
  if_pos hle

theorem read_isSome {bytes : List UInt8} {start n : Nat} (hle : start + n ≤ bytes.length) :
    ∃ value, zig_string_hash.read bytes start n = some value := by
  rw [zig_string_hash.read, if_pos ⟨by omega, by rw [List.length_drop]; omega⟩]
  exact ⟨_, rfl⟩

theorem mix_at_isSome {bytes : List UInt8} {start : Nat} (secret state : UInt64) (hle : start + 16 ≤ bytes.length) :
    ∃ value, mix_at bytes start secret state = some value := by
  obtain ⟨low, hlow⟩ := read_isSome (show start + 8 ≤ bytes.length by omega)
  obtain ⟨high, hhigh⟩ := read_isSome (show start + 8 + 8 ≤ bytes.length by omega)
  rw [mix_at, hlow, hhigh]
  exact ⟨_, rfl⟩

theorem lanes_isSome (bytes : List UInt8) (i : Nat) (state : UInt64 × UInt64 × UInt64) : ∃ result, lanes bytes i state = some result := by
  fun_induction lanes bytes i state with
  | case1 i state hlt ih =>
    obtain ⟨first, hfirst⟩ := mix_at_isSome SECRET1 state.1 (show i + 16 ≤ bytes.length by omega)
    obtain ⟨second, hsecond⟩ := mix_at_isSome SECRET2 state.2.1 (show i + 16 + 16 ≤ bytes.length by omega)
    obtain ⟨third, hthird⟩ := mix_at_isSome SECRET3 state.2.2 (show i + 32 + 16 ≤ bytes.length by omega)
    rw [hfirst, hsecond, hthird]
    exact ih first second third
  | case2 i state hlt => exact ⟨_, rfl⟩

theorem blocks_isSome (bytes : List UInt8) (i : Nat) (state : UInt64) : ∃ result, blocks bytes i state = some result := by
  fun_induction blocks bytes i state with
  | case1 i state hlt ih =>
    obtain ⟨next, hnext⟩ := mix_at_isSome SECRET1 state (show i + 16 ≤ bytes.length by omega)
    rw [hnext]
    exact ih next
  | case2 i state hlt => exact ⟨_, rfl⟩

theorem wide_isSome (bytes : List UInt8) (start : UInt64) : ∃ result, wide bytes start = some result := by
  unfold wide
  split_ifs
  · obtain ⟨result, hresult⟩ := lanes_isSome bytes 0 (start, start, start)
    rw [hresult]
    exact ⟨_, rfl⟩
  · exact ⟨_, rfl⟩

theorem hash_short_isSome {bytes : List UInt8} (hshort : bytes.length ≤ 16) : ∃ result, hash_short bytes = some result := by
  unfold hash_short
  have hquarter : (bytes.length >>> 3) <<< 2 = bytes.length / 8 * 4 := by
    rw [Nat.shiftRight_eq_div_pow, Nat.shiftLeft_eq]
  split_ifs with hfour hone
  · rw [checked_sub_of_le hfour, hquarter]
    dsimp only [Option.bind_eq_bind, Option.bind_some]
    rw [checked_sub_of_le (show bytes.length / 8 * 4 ≤ bytes.length - 4 by omega)]
    obtain ⟨a, ha⟩ := read_isSome (show 0 + 4 ≤ bytes.length by omega)
    obtain ⟨a', ha'⟩ := read_isSome (show bytes.length / 8 * 4 + 4 ≤ bytes.length by omega)
    obtain ⟨b, hb⟩ := read_isSome (show bytes.length - 4 + 4 ≤ bytes.length by omega)
    obtain ⟨b', hb'⟩ := read_isSome (show bytes.length - 4 - bytes.length / 8 * 4 + 4 ≤ bytes.length by omega)
    rw [ha, ha', hb, Option.bind_some, hb']
    exact ⟨_, rfl⟩
  · have hhalf : bytes.length >>> 1 < bytes.length := by
      rw [Nat.shiftRight_eq_div_pow]
      omega
    rw [checked_sub_of_le hone, List.getElem?_eq_getElem hone, List.getElem?_eq_getElem hhalf]
    dsimp only [Option.bind_eq_bind, Option.bind_some]
    rw [List.getElem?_eq_getElem (Nat.sub_one_lt_of_lt hone)]
    exact ⟨_, rfl⟩
  · exact ⟨_, rfl⟩

theorem hash_long_isSome {bytes : List UInt8} (hlong : 16 < bytes.length) (start : UInt64) :
    ∃ result, hash_long bytes start = some result := by
  obtain ⟨⟨i, state⟩, hwide⟩ := wide_isSome bytes start
  obtain ⟨last, hblocks⟩ := blocks_isSome bytes i state
  obtain ⟨a, ha⟩ := read_isSome (show bytes.length - 16 + 8 ≤ bytes.length by omega)
  obtain ⟨b, hb⟩ := read_isSome (show bytes.length - 8 + 8 ≤ bytes.length by omega)
  rw [hash_long, hwide, checked_sub_of_le (show 16 ≤ bytes.length by omega), checked_sub_of_le (show 8 ≤ bytes.length by omega)]
  dsimp only [Option.bind_eq_bind, Option.bind_some]
  rw [hblocks, ha]
  dsimp only [Option.bind_some]
  rw [hb]
  exact ⟨_, rfl⟩

/-- The hash never reads out of bounds. -/
theorem hash_isSome (bytes : List UInt8) : ∃ hash, zig_string_hash bytes = some hash := by
  unfold zig_string_hash
  dsimp only
  split_ifs with hshort
  · obtain ⟨result, hresult⟩ := hash_short_isSome hshort
    rw [hresult]
    exact ⟨_, rfl⟩
  · obtain ⟨result, hresult⟩ := hash_long_isSome (Nat.lt_of_not_le hshort) (zig_string_hash.mix SECRET0 SECRET1)
    rw [hresult]
    exact ⟨_, rfl⟩

example : zig_string_hash (str.bytes "provider-one-long-name") = some 0x1b8d6e5bce3574a4 := by decide +kernel

/-! ## The table -/

/-- Looks for a free slot, at most so many times. -/
def probe (slots : List (Option String)) (name : String) : Nat → Nat → Option (List (Option String))
  | 0, _ => none
  | rounds + 1, index =>
    match slots[index]? with
    | none => none
    | some none => some (slots.set index (some name))
    | some (some _) => probe slots name rounds ((index + 1) &&& (slots.length - 1))

def zig_map_order.insert (slots : List (Option String)) (name : String) : Option (List (Option String)) := do
  let hash ← zig_string_hash (str.bytes name)
  let mask ← checked_sub slots.length 1
  probe slots name slots.length (hash.toNat &&& mask)

/-- The slots after growing for one more than `count` names; `2 ^ clog` is the next power of two. -/
def capacity (count : Nat) : Nat :=
  max (2 ^ Nat.clog 2 ((count + 1) * 100 / 80 + 1)) 8

def grow (slots : List (Option String)) (count : Nat) : Option (List (Option String)) :=
  if count + 1 > slots.length * 80 / 100 then slots.reduceOption.foldlM zig_map_order.insert (.replicate (capacity count) none)
  else some slots

def place (state : List (Option String) × Nat) (name : String) : Option (List (Option String) × Nat) := do
  let slots ← grow state.1 state.2
  let slots ← zig_map_order.insert slots name
  some (slots, state.2 + 1)

def zig_map_order (names : List String) : Option (List String) := do
  let (slots, _) ← names.foldlM place ([], 0)
  some slots.reduceOption

section Table

variable {slots : List (Option String)} {bits index : Nat}

theorem reduceOption_set (name : String) (hfree : slots[index]? = some none) :
    (slots.set index (some name)).reduceOption.Perm (name :: slots.reduceOption) := by
  obtain ⟨hlt, hget⟩ := List.getElem?_eq_some_iff.1 hfree
  have hslots : slots = slots.take index ++ none :: slots.drop (index + 1) := by
    rw [← hget, List.getElem_cons_drop, List.take_append_drop]
  have hset : slots.set index (some name) = slots.take index ++ some name :: slots.drop (index + 1) :=
    List.set_eq_take_append_cons_drop.trans (if_pos hlt)
  have hold : slots.reduceOption = (slots.take index).reduceOption ++ (slots.drop (index + 1)).reduceOption := by
    nth_rewrite 1 [hslots]
    rw [List.reduceOption_append, List.reduceOption_cons_of_none]
  rw [hset, hold, List.reduceOption_append, List.reduceOption_cons_of_some]
  exact List.perm_middle

/-- The search goes once round the table, and a free slot is met. -/
theorem probe_spec (name : String) {rounds ahead : Nat} (hlength : slots.length = 2 ^ bits) (hindex : index < 2 ^ bits) (hahead : ahead < rounds)
    (hfree : slots[(index + ahead) % 2 ^ bits]? = some none) :
    ∃ slots', probe slots name rounds index = some slots' ∧ slots'.length = slots.length ∧
      slots'.reduceOption.Perm (name :: slots.reduceOption) := by
  induction rounds generalizing index ahead with
  | zero => exact absurd hahead (Nat.not_lt_zero _)
  | succ rounds ih =>
    have hlt : index < slots.length := hlength ▸ hindex
    rw [probe]
    match hslot : slots[index]? with
    | none => exact absurd hlt (Nat.not_lt_of_le (List.getElem?_eq_none_iff.1 hslot))
    | some none => exact ⟨_, rfl, List.length_set, reduceOption_set name hslot⟩
    | some (some other) =>
      have hmask : (index + 1) &&& (slots.length - 1) = (index + 1) % 2 ^ bits := by
        rw [hlength, Nat.and_two_pow_sub_one_eq_mod]
      cases ahead with
      | zero =>
        rw [Nat.add_zero, Nat.mod_eq_of_lt hindex, hslot] at hfree
        cases hfree
      | succ ahead =>
        dsimp only
        rw [hmask]
        refine ih (Nat.mod_lt _ (Nat.two_pow_pos _)) (Nat.lt_of_succ_lt_succ hahead) ?_
        rw [Nat.mod_add_mod, Nat.add_assoc, Nat.add_comm 1 ahead]
        exact hfree

theorem insert_spec (name : String) (hlength : slots.length = 2 ^ bits) (hfree : slots.reduceOption.length < slots.length) :
    ∃ slots', zig_map_order.insert slots name = some slots' ∧ slots'.length = 2 ^ bits ∧ slots'.reduceOption.Perm (name :: slots.reduceOption) := by
  obtain ⟨hash, hhash⟩ := hash_isSome (str.bytes name)
  obtain ⟨free, hfree⟩ := List.mem_iff_getElem?.1 (List.reduceOption_length_lt_iff.1 hfree)
  have hlt : free < 2 ^ bits := hlength ▸ (List.getElem?_eq_some_iff.1 hfree).1
  have hpos : 0 < 2 ^ bits := Nat.two_pow_pos _
  have hstart : hash.toNat % 2 ^ bits < 2 ^ bits := Nat.mod_lt _ hpos
  rw [zig_map_order.insert, hhash, checked_sub_of_le (show 1 ≤ slots.length by omega)]
  dsimp only [Option.bind_eq_bind, Option.bind_some]
  rw [hlength, Nat.and_two_pow_sub_one_eq_mod, ← hlength]
  have hmeets : (hash.toNat % 2 ^ bits + (free + 2 ^ bits - hash.toNat % 2 ^ bits) % 2 ^ bits) % 2 ^ bits = free := by
    rw [Nat.add_mod_mod, Nat.add_sub_cancel' (by omega), Nat.add_mod_right, Nat.mod_eq_of_lt hlt]
  rw [hlength]
  obtain ⟨slots', hprobe, hsame, hperm⟩ := probe_spec name hlength hstart (Nat.mod_lt _ hpos) (hmeets.symm ▸ hfree)
  exact ⟨slots', hprobe, hsame.trans hlength, hperm⟩

theorem inserts_spec (names : List String) (hlength : slots.length = 2 ^ bits)
    (hfree : names.length + slots.reduceOption.length ≤ slots.length) :
    ∃ slots', names.foldlM zig_map_order.insert slots = some slots' ∧ slots'.length = 2 ^ bits ∧
      slots'.reduceOption.Perm (names ++ slots.reduceOption) := by
  induction names generalizing slots with
  | nil => exact ⟨slots, rfl, hlength, .refl _⟩
  | cons name names ih =>
    rw [List.length_cons] at hfree
    obtain ⟨next, hinsert, hnext, hperm⟩ := insert_spec name hlength (by omega)
    have hroom : names.length + next.reduceOption.length ≤ next.length := by
      rw [hperm.length_eq, List.length_cons]
      omega
    obtain ⟨final, hfold, hfinal, hrest⟩ := ih hnext hroom
    refine ⟨final, ?_, hfinal, ?_⟩
    · rw [List.foldlM_cons, hinsert]
      exact hfold
    · exact hrest.trans ((hperm.append_left names).trans List.perm_middle)

theorem capacity_spec (count : Nat) : (∃ bits, capacity count = 2 ^ bits) ∧ count + 1 ≤ capacity count := by
  have hle : (count + 1) * 100 / 80 + 1 ≤ 2 ^ Nat.clog 2 ((count + 1) * 100 / 80 + 1) := Nat.le_pow_clog (by decide) _
  refine ⟨?_, le_max_of_le_left (by omega)⟩
  rcases max_choice (2 ^ Nat.clog 2 ((count + 1) * 100 / 80 + 1)) 8 with hmax | hmax
  · exact ⟨_, hmax⟩
  · exact ⟨3, hmax⟩

/-- After growing, one more name has room. -/
theorem grow_spec {count : Nat} (hslots : slots = [] ∨ ∃ bits, slots.length = 2 ^ bits) (hcount : slots.reduceOption.length = count) :
    ∃ slots' bits, grow slots count = some slots' ∧ slots'.length = 2 ^ bits ∧ slots'.reduceOption.Perm slots.reduceOption ∧
      count < slots'.length := by
  unfold grow
  split_ifs with hfull
  · obtain ⟨⟨bits, hbits⟩, hroom⟩ := capacity_spec count
    have hempty : (List.replicate (capacity count) (none : Option String)).reduceOption = [] := List.reduceOption_replicate_none
    have hlength : (List.replicate (capacity count) (none : Option String)).length = 2 ^ bits := List.length_replicate.trans hbits
    have hfits : slots.reduceOption.length + ([] : List String).length ≤ capacity count := by
      rw [hcount, List.length_nil]
      omega
    obtain ⟨slots', hfold, hsame, hperm⟩ := inserts_spec slots.reduceOption hlength (by rwa [hempty, List.length_replicate])
    refine ⟨slots', bits, hfold, hsame, ?_, by omega⟩
    rwa [hempty, List.append_nil] at hperm
  · rcases hslots with rfl | ⟨bits, hbits⟩
    · exact absurd (Nat.succ_pos _) hfull
    · exact ⟨slots, bits, rfl, hbits, .refl _, by omega⟩

theorem place_spec {placed : List String} (hslots : slots = [] ∨ ∃ bits, slots.length = 2 ^ bits)
    (hperm : slots.reduceOption.Perm placed) (name : String) :
    ∃ slots', place (slots, placed.length) name = some (slots', (name :: placed).length) ∧ (∃ bits, slots'.length = 2 ^ bits) ∧
      slots'.reduceOption.Perm (name :: placed) := by
  obtain ⟨grown, bits, hgrow, hgrown, hsame, hroom⟩ := grow_spec hslots hperm.length_eq
  obtain ⟨slots', hinsert, hlength, hnew⟩ := insert_spec name hgrown (by rwa [hsame.length_eq, hperm.length_eq])
  refine ⟨slots', ?_, ⟨bits, hlength⟩, hnew.trans ((hsame.trans hperm).cons name)⟩
  rw [place, hgrow]
  dsimp only [Option.bind_eq_bind, Option.bind_some]
  rw [hinsert]
  rfl

theorem places_spec (names : List String) {placed : List String} (hslots : slots = [] ∨ ∃ bits, slots.length = 2 ^ bits)
    (hperm : slots.reduceOption.Perm placed) :
    ∃ slots' count, names.foldlM place (slots, placed.length) = some (slots', count) ∧
      slots'.reduceOption.Perm (names.reverse ++ placed) := by
  induction names generalizing slots placed with
  | nil => exact ⟨slots, placed.length, rfl, hperm⟩
  | cons name names ih =>
    obtain ⟨next, hplace, hnext, hmore⟩ := place_spec hslots hperm name
    obtain ⟨slots', count, hfold, hall⟩ := ih (.inr hnext) hmore
    refine ⟨slots', count, ?_, ?_⟩
    · rw [List.foldlM_cons, hplace]
      exact hfold
    · rwa [List.reverse_cons, List.append_assoc]

end Table

/-- The order of a map is a permutation of the names: the table never fills up, and no index is out of bounds. -/
theorem zig_map_order_perm (names : List String) :
    (∃ order, zig_map_order names = some order ∧ order.Perm names) ∧ ∀ bytes, (zig_string_hash bytes).isSome := by
  refine ⟨?_, fun bytes => ?_⟩
  · obtain ⟨slots, count, hfold, hperm⟩ := places_spec names (.inl rfl) (List.Perm.refl [])
    refine ⟨slots.reduceOption, ?_, ?_⟩
    · rw [zig_map_order, show names.foldlM place ([], 0) = some (slots, count) from hfold]
      rfl
    · rw [List.append_nil] at hperm
      exact hperm.trans names.reverse_perm
  · obtain ⟨hash, hhash⟩ := hash_isSome bytes
    rw [hhash]
    rfl

end zc.override_script
