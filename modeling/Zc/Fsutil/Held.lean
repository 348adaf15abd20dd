import Zc.Fsutil.Changes

/-!
# Entries a reader accepts

The strict readers of `SecureDir` succeed on private directories and on private files with one
name. Both survive changes elsewhere.
-/

namespace zc.fsutil

/-- A file that `open_file` opens. -/
structure PrivateFile (fs : Fs) (dir : Nat) (name : String) (ino : Nat) : Prop where
  lookup : fs.lookup dir name = some (.file ino)
  owned : (fs.inodes ino).owned = true
  nlink : fs.nlink ino = 1
  mode : (fs.inodes ino).mode &&& 0o077 = 0

/-- A private file with these bytes. -/
def FileAt (fs : Fs) (dir : Nat) (name : String) (bytes : List UInt8) : Prop :=
  ∃ ino, PrivateFile fs dir name ino ∧ (fs.inodes ino).data = bytes

section Readers

variable {fs : Fs} {dir : Nat} {name : String}

theorem component_eq_ok_iff {u : Unit} : component name = .ok u ↔ single_component name = true :=
  ensure_eq_ok_iff

theorem component_eq_ok (hname : single_component name = true) : component name = .ok () :=
  component_eq_ok_iff.2 hname

theorem open_file_eq_ok_iff {write : Bool} {m : Metadata} :
    fs.open_file dir name write = .ok m ↔
      single_component name = true ∧ ∃ ino, PrivateFile fs dir name ino ∧ m = fs.metadata (.file ino) := by
  unfold Fs.open_file Fs.open_checked_file check_metadata Fs.openat
  simp only [bind_eq_ok_iff, component_eq_ok_iff, ensure_eq_ok_iff, exists_and_left, exists_const]
  constructor
  · rintro ⟨hname, m', hm, ⟨hfile, howned, hmode⟩, hm'⟩
    cases hm'
    split at hm
    · cases hm
    · cases hm
    · split at hm
      · cases hm
      · cases hm
        cases hfile
    · next node hsymlink hdir hlookup =>
      cases hm
      cases node with
      | dir ino => exact absurd rfl (hdir ino)
      | symlink target => exact absurd rfl (hsymlink target)
      | other => cases hfile
      | file ino =>
        simp only [Fs.metadata, Bool.false_or, Bool.and_eq_true, beq_iff_eq] at howned
        exact ⟨hname, ino, ⟨hlookup, howned.1, howned.2, by simpa [Fs.metadata] using hmode⟩, rfl⟩
  · rintro ⟨hname, ino, hfile, rfl⟩
    refine ⟨hname, fs.metadata (.file ino), by rw [hfile.lookup], ?_, rfl⟩
    simp [Fs.metadata, hfile.owned, hfile.nlink, hfile.mode]

theorem read_eq_ok_iff {limit : Nat} {bytes : List UInt8} :
    fs.read dir name limit = .ok bytes ↔
      single_component name = true ∧ FileAt fs dir name bytes ∧ bytes.length ≤ limit := by
  unfold Fs.read Fs.read_bounded check_metadata
  simp only [bind_eq_ok_iff, open_file_eq_ok_iff, ensure_eq_ok_iff, exists_and_left, exists_const, decide_eq_true_eq]
  constructor
  · rintro ⟨m, ⟨hname, ino, hfile, rfl⟩, -, -, hlen, hbytes⟩
    cases hbytes
    exact ⟨hname, ⟨ino, hfile, rfl⟩, hlen⟩
  · rintro ⟨hname, ⟨ino, hfile, rfl⟩, hlen⟩
    refine ⟨fs.metadata (.file ino), ⟨hname, ino, hfile, rfl⟩, ?_⟩
    simp [Fs.metadata, hfile.owned, hfile.nlink, hfile.mode, hlen, pure, Except.pure]

theorem validate_eq_ok_iff {held : Nat} {u : Unit} :
    fs.validate dir name held = .ok u ↔ single_component name = true ∧ PrivateFile fs dir name held := by
  unfold Fs.validate
  simp only [bind_eq_ok_iff, open_file_eq_ok_iff, ensure_eq_ok_iff, beq_iff_eq]
  constructor
  · rintro ⟨m, ⟨hname, ino, hfile, rfl⟩, rfl⟩
    exact ⟨hname, hfile⟩
  · rintro ⟨hname, hfile⟩
    exact ⟨_, ⟨hname, held, hfile, rfl⟩, rfl⟩

theorem check_metadata_file {ino : Nat} (hfile : PrivateFile fs dir name ino) :
    check_metadata (fs.metadata (.file ino)) false true = .ok () := by
  simp [check_metadata, Fs.metadata, hfile.owned, hfile.nlink, hfile.mode]

theorem PrivateFile.append {ino : Nat} (hfile : PrivateFile fs dir name ino) (bytes : List UInt8) :
    FileAt (fs.append ino bytes) dir name ((fs.inodes ino).data ++ bytes) := by
  refine ⟨ino, ⟨hfile.lookup, ?_, hfile.nlink, ?_⟩, ?_⟩
  · simpa [Fs.append] using hfile.owned
  · simpa [Fs.append] using hfile.mode
  · simp [Fs.append]

end Readers

/-! ## Under changes elsewhere -/

section Changes

variable {T : Nat → String → Prop} {s t : Fs} {dir ino : Nat} {name : String} {bytes : List UInt8}

/-- A renamed file is the one file of its new name. -/
theorem PrivateFile.move {temp : String} (hfile : PrivateFile s dir temp ino) (name : String) :
    PrivateFile (s.move dir temp name (.file ino) hfile.lookup) dir name ino := by
  refine ⟨?_, hfile.owned, ?_, hfile.mode⟩
  · rw [Fs.lookup_move, if_pos ⟨rfl, rfl⟩]
  · have hremove := Fs.nlink_remove hfile.lookup ino
    rw [if_pos rfl, hfile.nlink] at hremove
    rw [Fs.nlink_move, if_pos rfl]
    cases hreplaced : (s.remove dir temp).lookup dir name with
    | none =>
      rw [Fs.nlink_remove_free hreplaced]
      exact hremove
    | some replaced =>
      have hremove' := Fs.nlink_remove hreplaced ino
      omega

theorem PrivateFile.changes (hfile : PrivateFile s dir name ino) (hchanges : Changes T s t) (hkey : ¬T dir name) :
    PrivateFile t dir name ino := by
  have hinode := hchanges.inodes ino (Fs.lookup_file_lt hfile.lookup)
  refine ⟨?_, ?_, ?_, ?_⟩
  · rw [hchanges.lookup dir name (Fs.lookup_lt hfile.lookup) hkey, hfile.lookup]
  · rw [hinode, hfile.owned]
  · exact hchanges.nlink dir name ino hkey hfile.lookup hfile.nlink
  · rw [hinode, hfile.mode]

theorem FileAt.changes (hfile : FileAt s dir name bytes) (hchanges : Changes T s t) (hkey : ¬T dir name) :
    FileAt t dir name bytes := by
  obtain ⟨ino, hprivate, hdata⟩ := hfile
  refine ⟨ino, hprivate.changes hchanges hkey, ?_⟩
  rw [hchanges.inodes ino (Fs.lookup_file_lt hprivate.lookup), hdata]

end Changes

end zc.fsutil
