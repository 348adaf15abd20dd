import Zc.Fsutil.SecureDir

/-!
# What a call leaves alone

`Changes T s t` says that going from `s` to `t` only entries in `T` changed, apart from what lies in
directories that are new. Files that were there keep their bytes, and a file whose one name is
outside `T` keeps that name and its link count of one. A scratch name that comes into use is one `T`
mentions.
-/

namespace zc.fsutil

/-- Names of work in progress. -/
def Scratch (name : String) : Prop :=
  ∃ start ∈ [".write-", ".install-", ".staging-"], start.toList <+: name.toList

instance (name : String) : Decidable (Scratch name) :=
  inferInstanceAs (Decidable (∃ start ∈ [".write-", ".install-", ".staging-"], start.toList <+: name.toList))

/-- No directory has an entry of this name. -/
def Fs.Unused (fs : Fs) (name : String) : Prop :=
  ∀ dir, fs.lookup dir name = none

structure Changes (T : Nat → String → Prop) (s t : Fs) : Prop where
  next_le : s.next ≤ t.next
  inodes : ∀ ino, ino < s.next → t.inodes ino = s.inodes ino
  lookup : ∀ dir name, dir < s.next → ¬T dir name → t.lookup dir name = s.lookup dir name
  nlink : ∀ dir name ino, ¬T dir name → s.lookup dir name = some (.file ino) → s.nlink ino = 1 → t.nlink ino = 1
  /-- A directory stays where it is, but one under a scratch name may be renamed. -/
  dirs : ∀ dir name ino, t.lookup dir name = some (.dir ino) → ino < s.next →
    ∃ name', s.lookup dir name' = some (.dir ino) ∧ (name' = name ∨ Scratch name')
  unused : ∀ name, Scratch name → s.Unused name → t.Unused name ∨ ∃ dir, T dir name

/-- One entry. -/
def Key (dir : Nat) (name : String) : Nat → String → Prop :=
  fun dir' name' => dir' = dir ∧ name' = name

/-- One entry, if it is free. -/
def Vacant (fs : Fs) (dir : Nat) (name : String) : Nat → String → Prop :=
  fun dir' name' => dir' = dir ∧ name' = name ∧ fs.lookup dir name = none

namespace Changes

variable {T T' : Nat → String → Prop} {s t u : Fs} {dir ino : Nat} {name : String}

theorem refl (T : Nat → String → Prop) (s : Fs) : Changes T s s where
  next_le := Nat.le_refl _
  inodes _ _ := rfl
  lookup _ _ _ _ := rfl
  nlink _ _ _ _ _ hlink := hlink
  dirs _ name _ hdir _ := ⟨name, hdir, .inl rfl⟩
  unused _ _ hunused := .inl hunused

/-- Bytes go into a file that is new since `s`. -/
theorem append (hchanges : Changes T s t) (hino : s.next ≤ ino) (bytes : List UInt8) :
    Changes T s (t.append ino bytes) where
  next_le := hchanges.next_le
  inodes other hother := by
    have hne : other ≠ ino := by omega
    unfold Fs.append
    simp only [Function.update_of_ne hne]
    exact hchanges.inodes other hother
  lookup := hchanges.lookup
  nlink := hchanges.nlink
  dirs := hchanges.dirs
  unused := hchanges.unused

/-- A file with one name, found under a name outside `T`, is not the one behind a name inside. -/
theorem not_file_of_touched {dir' : Nat} {name' : String} (htouched : T dir' name')
    (hkey : ¬T dir name) (hname : s.lookup dir name = some (.file ino)) (hlink : s.nlink ino = 1) :
    s.lookup dir' name' ≠ some (.file ino) := by
  intro hname'
  obtain ⟨rfl, rfl⟩ := Fs.eq_of_nlink hlink hname hname'
  exact hkey htouched

end Changes

/-! ## System calls -/

section Calls

variable {s : Fs} {dir : Nat} {name source target : String}

theorem changes_addNew {node : Nat → Node} {mode : Nat} {hnode : ∀ ino, (node ino).ino = some ino} {hdir : dir < s.next}
    (hfree : s.lookup dir name = none)
    (hnlink : ∀ ino, ino ≠ s.next → (s.addNew dir name node mode hnode hdir).nlink ino = s.nlink ino) :
    Changes (Vacant s dir name) s (s.addNew dir name node mode hnode hdir) where
  next_le := Nat.le_succ _
  inodes ino hino := Function.update_of_ne (Nat.ne_of_lt hino) _ _
  lookup dir' name' _ hkey := by
    rw [Fs.lookup_addNew, if_neg]
    rintro ⟨rfl, rfl⟩
    exact hkey ⟨rfl, rfl, hfree⟩
  nlink dir' name' ino _ hname hlink := by
    rw [hnlink ino (Nat.ne_of_lt (Fs.lookup_file_lt hname)), hlink]
  dirs dir' name' ino hname hino := by
    rw [Fs.lookup_addNew] at hname
    split at hname
    · have hnext := hnode s.next
      rw [Option.some.inj hname] at hnext
      cases hnext
      exact absurd hino (Nat.lt_irrefl _)
    · exact ⟨name', hname, .inl rfl⟩
  unused name' _ hunused := by
    by_cases heq : name' = name
    · exact .inr ⟨dir, rfl, heq, hfree⟩
    · refine .inl fun dir' => ?_
      rw [Fs.lookup_addNew, if_neg fun h => heq h.2, hunused dir']

theorem changes_addFile (hfree : s.lookup dir name = none) (hdir : dir < s.next) :
    Changes (Vacant s dir name) s (s.addFile dir name hdir) := by
  refine changes_addNew hfree fun ino hino => ?_
  have hlink : (s.addFile dir name hdir).nlink ino = s.nlink ino + if s.next = ino then 1 else 0 :=
    Fs.nlink_addFile hfree ino
  rwa [if_neg (Ne.symm hino), Nat.add_zero] at hlink

theorem create_cases (s : Fs) (dir : Nat) (name : String) :
    (∃ hdir, s.lookup dir name = none ∧ Fs.create dir name s = (.ok s.next, s.addFile dir name hdir)) ∨
      (s.lookup dir name ≠ none ∧ Fs.create dir name s = (.error (.io .AlreadyExists "File exists"), s)) ∨
      (¬dir < s.next ∧ Fs.create dir name s = (.error not_found, s)) := by
  unfold Fs.create
  by_cases hdir : dir < s.next
  · rw [dif_pos hdir]
    cases hlookup : s.lookup dir name with
    | none => exact .inl ⟨hdir, rfl, rfl⟩
    | some node => exact .inr (.inl ⟨nofun, rfl⟩)
  · rw [dif_neg hdir]
    exact .inr (.inr ⟨hdir, rfl⟩)

theorem changes_remove {node : Node} (hnode : s.lookup dir name = some node) :
    Changes (Key dir name) s (s.remove dir name) where
  next_le := Nat.le_refl _
  inodes _ _ := rfl
  lookup dir' name' _ hkey := by
    rw [Fs.lookup_remove, if_neg]
    exact hkey
  nlink dir' name' ino hkey hname hlink := by
    have hremove := Fs.nlink_remove hnode ino
    rw [if_neg] at hremove
    · rwa [Nat.add_zero, hlink] at hremove
    · rintro rfl
      exact Changes.not_file_of_touched ⟨rfl, rfl⟩ hkey hname hlink hnode
  dirs dir' name' ino hname _ := by
    rw [Fs.lookup_remove] at hname
    split at hname
    · cases hname
    · exact ⟨name', hname, .inl rfl⟩
  unused name' _ hunused := by
    refine .inl fun dir' => ?_
    rw [Fs.lookup_remove]
    split
    · rfl
    · exact hunused dir'

theorem unlinkat_cases (s : Fs) (dir : Nat) (name : String) :
    (∃ node, s.lookup dir name = some node ∧ Fs.unlinkat dir name s = (.ok (), s.remove dir name)) ∨
      ((∀ ino, s.lookup dir name ≠ some (.file ino)) ∧ ∃ error, Fs.unlinkat dir name s = (.error error, s)) := by
  unfold Fs.unlinkat
  cases hlookup : s.lookup dir name with
  | none => exact .inr ⟨nofun, _, rfl⟩
  | some node =>
    cases node with
    | dir ino => exact .inr ⟨nofun, _, rfl⟩
    | file ino => exact .inl ⟨_, rfl, rfl⟩
    | symlink target => exact .inl ⟨_, rfl, rfl⟩
    | other => exact .inl ⟨_, rfl, rfl⟩

theorem changes_unlinkat (s : Fs) (dir : Nat) (name : String) : Changes (Key dir name) s (Fs.unlinkat dir name s).2 := by
  obtain ⟨node, hnode, heq⟩ | ⟨-, error, heq⟩ := unlinkat_cases s dir name <;> rw [heq]
  · exact changes_remove hnode
  · exact .refl _ s

theorem renameat_free {node : Node} (hsource : s.lookup dir source = some node) (hfree : s.lookup dir target = none) :
    Fs.renameat dir source target s = (.ok (), s.move dir source target node hsource) := by
  unfold Fs.renameat
  split
  · next hnone => cases hsource.symm.trans hnone
  · next node' hsource' _ =>
    cases Option.some.inj (hsource.symm.trans hsource')
    rfl
  all_goals next htarget => cases hfree.symm.trans htarget

end Calls

end zc.fsutil
