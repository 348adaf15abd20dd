import Mathlib.Data.List.AList
import Mathlib.Logic.Function.Basic
import Zc.Lib.Names
import Zc.Error

/-!
# The file system under a store root

Directories are inodes, so a directory handle is the number of its inode and a renamed directory
keeps its contents. An entry is found under its directory and name; the link count of a file is the
number of entries that name it. The root of the store is inode 0.
-/

namespace zc.fsutil

/-- What a directory entry names. -/
inductive Node where
  | dir (ino : Nat)
  | file (ino : Nat)
  | symlink (target : List UInt8)
  /-- A socket, pipe or device. -/
  | other
  deriving DecidableEq

def Node.ino : Node → Option Nat
  | .dir ino => some ino
  | .file ino => some ino
  | .symlink _ => none
  | .other => none

/-- An inode without its link count: whether the process owns it, its permission bits and its bytes. -/
structure Inode where
  owned : Bool
  mode : Nat
  data : List UInt8
  deriving DecidableEq

abbrev Entries := AList fun _ : Nat × String => Node

/-- The entries form a tree under inode 0 and use only inode numbers below `next`. -/
structure Entries.Valid (entries : Entries) (next : Nat) : Prop where
  key_lt : ∀ key node, entries.lookup key = some node → key.1 < next
  ino_lt : ∀ key node ino, entries.lookup key = some node → node.ino = some ino → ino < next
  one_parent : ∀ key key' ino, entries.lookup key = some (.dir ino) → entries.lookup key' = some (.dir ino) → key = key'
  root : ∀ key, entries.lookup key ≠ some (.dir 0)

theorem Entries.Valid.mono {entries : Entries} {next next' : Nat} (hvalid : entries.Valid next) (hle : next ≤ next') :
    entries.Valid next' where
  key_lt key node hnode := Nat.lt_of_lt_of_le (hvalid.key_lt key node hnode) hle
  ino_lt key node ino hnode hino := Nat.lt_of_lt_of_le (hvalid.ino_lt key node ino hnode hino) hle
  one_parent := hvalid.one_parent
  root := hvalid.root

theorem Entries.Valid.erase {entries : Entries} {next : Nat} (hvalid : entries.Valid next) (key : Nat × String) :
    Entries.Valid (entries.erase key) next := by
  have hold : ∀ other node, (entries.erase key).lookup other = some node → entries.lookup other = some node := by
    intro other node hnode
    by_cases hkey : other = key
    · rw [hkey, AList.lookup_erase] at hnode
      cases hnode
    · rwa [AList.lookup_erase_ne hkey] at hnode
  exact
    { key_lt := fun other node hnode => hvalid.key_lt other node (hold other node hnode)
      ino_lt := fun other node ino hnode => hvalid.ino_lt other node ino (hold other node hnode)
      one_parent := fun other other' ino hdir hdir' =>
        hvalid.one_parent other other' ino (hold _ _ hdir) (hold _ _ hdir')
      root := fun other hroot => hvalid.root other (hold _ _ hroot) }

/-- An entry may be added for anything but a directory that already has one. -/
theorem Entries.Valid.insert {entries : Entries} {next : Nat} (hvalid : entries.Valid next) {key : Nat × String}
    {node : Node} (hkey : key.1 < next) (hino : ∀ ino, node.ino = some ino → ino < next)
    (hdir : ∀ ino, node = .dir ino → ino ≠ 0 ∧ ∀ other, entries.lookup other ≠ some (.dir ino)) :
    Entries.Valid (entries.insert key node) next := by
  have hcases : ∀ other found, (entries.insert key node).lookup other = some found →
      other = key ∧ found = node ∨ entries.lookup other = some found := by
    intro other found hfound
    by_cases heq : other = key
    · rw [heq, AList.lookup_insert] at hfound
      exact .inl ⟨heq, (Option.some.inj hfound).symm⟩
    · rw [AList.lookup_insert_ne heq] at hfound
      exact .inr hfound
  constructor
  · intro other found hfound
    obtain ⟨rfl, -⟩ | hold := hcases other found hfound
    · exact hkey
    · exact hvalid.key_lt other found hold
  · intro other found ino hfound hfoundino
    obtain ⟨-, rfl⟩ | hold := hcases other found hfound
    · exact hino ino hfoundino
    · exact hvalid.ino_lt other found ino hold hfoundino
  · intro other other' ino hother hother'
    obtain ⟨heq, hnode⟩ | hold := hcases other _ hother
    · obtain ⟨heq', -⟩ | hold' := hcases other' _ hother'
      · rw [heq, heq']
      · exact absurd hold' ((hdir ino hnode.symm).2 other')
    · obtain ⟨-, hnode'⟩ | hold' := hcases other' _ hother'
      · exact absurd hold ((hdir ino hnode'.symm).2 other)
      · exact hvalid.one_parent other other' ino hold hold'
  · intro other hother
    obtain ⟨-, hnode⟩ | hold := hcases other _ hother
    · exact (hdir 0 hnode.symm).1 rfl
    · exact hvalid.root other hold

structure Fs where
  entries : Entries
  inodes : Nat → Inode
  next : Nat
  valid : entries.Valid next
  root_lt : 0 < next

namespace Fs

/-- An empty root. -/
def initial : Fs where
  entries := ∅
  inodes := fun _ => ⟨true, 0o700, []⟩
  next := 1
  valid := ⟨nofun, nofun, nofun, nofun⟩
  root_lt := Nat.one_pos

def lookup (fs : Fs) (dir : Nat) (name : String) : Option Node :=
  fs.entries.lookup (dir, name)

def nlink (fs : Fs) (ino : Nat) : Nat :=
  Names.count fs.entries (.file ino)

theorem lookup_lt {fs : Fs} {dir : Nat} {name : String} {node : Node} (hnode : fs.lookup dir name = some node) :
    dir < fs.next :=
  fs.valid.key_lt _ _ hnode

theorem lookup_file_lt {fs : Fs} {dir ino : Nat} {name : String} (hnode : fs.lookup dir name = some (.file ino)) :
    ino < fs.next :=
  fs.valid.ino_lt _ _ ino hnode rfl

/-- A file with one link has one name. -/
theorem eq_of_nlink {fs : Fs} {dir dir' ino : Nat} {name name' : String} (hlink : fs.nlink ino = 1)
    (hname : fs.lookup dir name = some (.file ino)) (hname' : fs.lookup dir' name' = some (.file ino)) :
    dir = dir' ∧ name = name' :=
  Prod.ext_iff.1 (Names.eq_of_count_le_one (Nat.le_of_eq hlink) hname hname')

/-! ## What a system call changes -/

/-- A new empty file or directory under a free name. -/
def addNew (fs : Fs) (dir : Nat) (name : String) (node : Nat → Node) (mode : Nat) (hnode : ∀ ino, (node ino).ino = some ino)
    (hdir : dir < fs.next) : Fs where
  entries := fs.entries.insert (dir, name) (node fs.next)
  inodes := Function.update fs.inodes fs.next ⟨true, mode, []⟩
  next := fs.next + 1
  valid := by
    refine (fs.valid.mono (Nat.le_succ _)).insert (Nat.lt_succ_of_lt hdir) ?_ ?_
    · intro ino hino
      rw [hnode] at hino
      cases hino
      exact Nat.lt_succ_self _
    · intro ino hino
      have heq : fs.next = ino := Option.some.inj ((hnode fs.next).symm.trans (by rw [hino]; rfl))
      have hroot := fs.root_lt
      refine ⟨by omega, fun other hother => ?_⟩
      have hlt := fs.valid.ino_lt other _ ino hother rfl
      omega
  root_lt := Nat.succ_pos _

def addDir (fs : Fs) (dir : Nat) (name : String) (hdir : dir < fs.next) : Fs :=
  fs.addNew dir name .dir 0o700 (fun _ => rfl) hdir

def addFile (fs : Fs) (dir : Nat) (name : String) (hdir : dir < fs.next) : Fs :=
  fs.addNew dir name .file 0o600 (fun _ => rfl) hdir

def remove (fs : Fs) (dir : Nat) (name : String) : Fs :=
  { fs with entries := fs.entries.erase (dir, name), valid := fs.valid.erase (dir, name) }

/-- Takes an entry from one name of its directory to another. -/
def move (fs : Fs) (dir : Nat) (source target : String) (node : Node) (hnode : fs.lookup dir source = some node) : Fs where
  entries := (fs.entries.erase (dir, source)).insert (dir, target) node
  inodes := fs.inodes
  next := fs.next
  valid := by
    refine (fs.valid.erase (dir, source)).insert (lookup_lt hnode) (fun ino => fs.valid.ino_lt _ _ ino hnode) ?_
    intro ino hino
    subst hino
    refine ⟨fun hzero => fs.valid.root (dir, source) (hzero ▸ hnode), fun other hother => ?_⟩
    by_cases heq : other = (dir, source)
    · rw [heq, AList.lookup_erase] at hother
      cases hother
    · rw [AList.lookup_erase_ne heq] at hother
      exact heq (fs.valid.one_parent _ _ ino hother hnode)
  root_lt := fs.root_lt

def append (fs : Fs) (ino : Nat) (bytes : List UInt8) : Fs :=
  { fs with inodes := Function.update fs.inodes ino { fs.inodes ino with data := (fs.inodes ino).data ++ bytes } }

def is_empty (fs : Fs) (dir : Nat) : Bool :=
  fs.entries.keys.all fun key => key.1 != dir

section Changes

variable {fs : Fs} {dir ino : Nat} {name source target : String}

theorem lookup_addNew {node : Nat → Node} {mode : Nat} {hnode : ∀ ino, (node ino).ino = some ino} {hdir : dir < fs.next}
    (dir' : Nat) (name' : String) : (fs.addNew dir name node mode hnode hdir).lookup dir' name' =
      if dir' = dir ∧ name' = name then some (node fs.next) else fs.lookup dir' name' := by
  unfold lookup addNew
  by_cases hkey : dir' = dir ∧ name' = name
  · obtain ⟨rfl, rfl⟩ := hkey
    rw [if_pos ⟨rfl, rfl⟩, AList.lookup_insert]
  · rw [if_neg hkey, AList.lookup_insert_ne]
    intro heq
    exact hkey (Prod.mk.injEq .. ▸ heq)

theorem lookup_addFile {hdir : dir < fs.next} (dir' : Nat) (name' : String) :
    (fs.addFile dir name hdir).lookup dir' name' =
      if dir' = dir ∧ name' = name then some (.file fs.next) else fs.lookup dir' name' :=
  lookup_addNew dir' name'

theorem lookup_remove (dir' : Nat) (name' : String) :
    (fs.remove dir name).lookup dir' name' = if dir' = dir ∧ name' = name then none else fs.lookup dir' name' := by
  unfold lookup remove
  by_cases hkey : dir' = dir ∧ name' = name
  · obtain ⟨rfl, rfl⟩ := hkey
    rw [if_pos ⟨rfl, rfl⟩, AList.lookup_erase]
  · rw [if_neg hkey, AList.lookup_erase_ne]
    intro heq
    exact hkey (Prod.mk.injEq .. ▸ heq)

theorem lookup_move {node : Node} {hnode : fs.lookup dir source = some node} (dir' : Nat) (name' : String) :
    (fs.move dir source target node hnode).lookup dir' name' =
      if dir' = dir ∧ name' = target then some node else (fs.remove dir source).lookup dir' name' := by
  unfold lookup move remove
  by_cases hkey : dir' = dir ∧ name' = target
  · obtain ⟨rfl, rfl⟩ := hkey
    rw [if_pos ⟨rfl, rfl⟩, AList.lookup_insert]
  · rw [if_neg hkey, AList.lookup_insert_ne]
    intro heq
    exact hkey (Prod.mk.injEq .. ▸ heq)

theorem nlink_addFile {hdir : dir < fs.next} (hfree : fs.lookup dir name = none) (other : Nat) :
    (fs.addFile dir name hdir).nlink other = fs.nlink other + if fs.next = other then 1 else 0 := by
  unfold nlink addFile addNew
  rw [Names.count_insert hfree]
  simp only [Node.file.injEq]

theorem nlink_remove {node : Node} (hnode : fs.lookup dir name = some node) (other : Nat) :
    (fs.remove dir name).nlink other + (if node = .file other then 1 else 0) = fs.nlink other :=
  Names.count_erase_add hnode (.file other)

theorem nlink_move {node : Node} {hnode : fs.lookup dir source = some node} (other : Nat) :
    (fs.move dir source target node hnode).nlink other =
      ((fs.remove dir source).remove dir target).nlink other + if node = .file other then 1 else 0 :=
  Names.count_insert_eq (fs.remove dir source).entries (dir, target) node (.file other)

theorem nlink_remove_free (hfree : fs.lookup dir name = none) (other : Nat) :
    (fs.remove dir name).nlink other = fs.nlink other := by
  unfold nlink remove
  have hentries : (fs.entries.erase (dir, name)).entries = fs.entries.entries :=
    List.kerase_of_notMem_keys (AList.lookup_eq_none.1 hfree)
  unfold Names.count
  rw [hentries]

theorem nlink_next_eq_zero (fs : Fs) : fs.nlink fs.next = 0 := by
  unfold nlink Names.count
  rw [List.countP_eq_zero]
  intro entry hentry hfile
  have hlookup : fs.entries.lookup entry.1 = some entry.2 := AList.mem_lookup_iff.2 hentry
  have hlt := fs.valid.ino_lt entry.1 entry.2 fs.next hlookup (by rw [of_decide_eq_true hfile]; rfl)
  exact Nat.lt_irrefl _ hlt

end Changes

end Fs

end zc.fsutil
