import Zc.Daemon.Prepared
import Zc.Override.Project
import Zc.Store.Authority

/-!
# Prepared snapshots

A prepared record is kept in the runtime directory under a name that carries its authentication code.
The key of the code and the record are each created under their own name and then written, and from
then on taken as they are. So a record can be saved again after a failure exactly when neither file was
left half written.
-/

namespace zc.daemon

open Program fsutil store

/-- What snapshots are kept with: the libraries, the machine, the runtime directory and how many rounds
    of a lock loop fit into `LOCK_WAIT`. -/
structure Directory where
  platform : Platform
  host : fsutil.Host
  dir : Nat
  lock_wait : Nat

def KEY : String := "zc.prepared.key"

def KEY_LOCK : String := "zc.prepared.key.lock"

def check_snapshot (platform : Platform) (snapshot : Snapshot) (nonce : String) : Result Unit := do
  ensure (snapshot.nonce == nonce && (snapshot.schema_version == 1 && snapshot.prepared.controller_secret.isNone ||
      snapshot.schema_version == 2 && snapshot.prepared.controller_secret.isSome))
    (.message "START_SNAPSHOT_INVALID: invalid snapshot schema or nonce")
  if snapshot.prepared.controller_secret.isSome then do
    let _ ← mapErr (.message "START_SNAPSHOT_INVALID: invalid controller secret overlay") (parse_config platform snapshot.prepared)
  else return ()

namespace Directory

def create_key (self : Directory) : Prog Unit := do
  let bytes ← self.host.fill 32
  self.host.write_new self.dir KEY bytes
  self.host.sync

def ensure_key (self : Directory) (missing : Bool) : Prog Unit :=
  if missing then self.create_key else pure ()

def read_key (self : Directory) : Prog (List UInt8) := do
  let key ← self.host.observe fun fs => fs.read self.dir KEY 32
  .ofExcept (ensure (key.length == 32) (.message "START_SNAPSHOT_INVALID: invalid snapshot key"))
  return key

def snapshot_key (self : Directory) (create : Bool) : Prog (List UInt8) := do
  let _ ← self.host.lock self.dir KEY_LOCK self.lock_wait
  let present ← self.host.observe fun fs => fs.exists_entry self.dir KEY
  self.ensure_key (!present && create)
  self.read_key

/-- A snapshot that is already there must be the same. -/
def confirm_snapshot (self : Directory) (name : String) (bytes : List UInt8) : Prog Unit := do
  let found ← self.host.observe fun fs => fs.read self.dir name SNAPSHOT_LIMIT
  .ofExcept (ensure (found == bytes) (.message "START_SNAPSHOT_INVALID: immutable snapshot changed"))

def create_snapshot (self : Directory) (name : String) (bytes : List UInt8) : Prog Unit := do
  self.host.write_new self.dir name bytes
  self.host.sync

def store_snapshot (self : Directory) (name : String) (bytes : List UInt8) : Prog Unit := do
  let present ← self.host.observe fun fs => fs.exists_entry self.dir name
  if present then self.confirm_snapshot name bytes else self.create_snapshot name bytes

def save_snapshot (self : Directory) (prepared : Prepared) (nonce : String) : Prog String := do
  let bytes := line (snapshot_of prepared nonce).encode
  .ofExcept (ensure (bytes.length ≤ SNAPSHOT_LIMIT) (.message "START_SNAPSHOT_INVALID: snapshot too large"))
  let key ← self.snapshot_key true
  let name := snapshot_name (hmac self.platform key bytes) nonce
  self.store_snapshot name bytes
  return name

def load_snapshot (self : Directory) (name nonce : String) : Prog Prepared := do
  .ofExcept (ensure (valid_hex nonce 32 && single_component name) (.message "START_SNAPSHOT_INVALID: invalid snapshot name"))
  let mac ← .ofExcept (okOr (prepared_parts name "snapshot" (· == nonce)) (.message "START_SNAPSHOT_INVALID: invalid snapshot name"))
  let bytes ← self.host.observe fun fs => fs.read self.dir name SNAPSHOT_LIMIT
  let key ← self.snapshot_key false
  .ofExcept (ensure (hmac self.platform key bytes == mac) (.message "START_SNAPSHOT_INVALID: snapshot authentication failed"))
  let snapshot ← .ofExcept (okOr ((self.platform.from_slice bytes).bind Snapshot.decode)
    (.message "START_SNAPSHOT_INVALID: invalid snapshot fields"))
  .ofExcept (check_snapshot self.platform snapshot nonce)
  return snapshot.prepared

end Directory

/-! ## Names -/

variable {fs : Fs} {dir : Nat} {name : String} {bytes : List UInt8}

theorem FileAt.unique {other : List UInt8} (hfile : FileAt fs dir name bytes) (hother : FileAt fs dir name other) :
    other = bytes := by
  obtain ⟨ino, hino, rfl⟩ := hfile
  obtain ⟨ino', hino', rfl⟩ := hother
  cases hino.lookup.symm.trans hino'.lookup
  rfl

theorem snapshot_name_ne_key (mac nonce : String) : snapshot_name mac nonce ≠ KEY :=
  snapshot_name_ne mac nonce (by decide)

theorem snapshot_name_ne_lock (mac nonce : String) : snapshot_name mac nonce ≠ KEY_LOCK :=
  snapshot_name_ne mac nonce (by decide)

theorem key_ne_lock : KEY ≠ KEY_LOCK := by
  decide

variable {text : String}

theorem ne_separator_of_all (htext : (text.toList.all fun c => c != '/' && c != '\\' && c != '\x00') = true) {c : Char}
    (hc : c ∈ text.toList) : c ≠ '/' ∧ c ≠ '\\' ∧ c ≠ '\x00' := by
  have hall := List.all_eq_true.1 htext c hc
  simp only [Bool.and_eq_true, bne_iff_ne, ne_eq] at hall
  exact ⟨hall.1.1, hall.1.2, hall.2⟩

variable {nonce : String}

/-- A code and a nonce in hexadecimal make a name of one component. -/
theorem single_component_snapshot_name {mac : String} (hmac : ∀ c ∈ mac.toList, isHexDigit c = true)
    (hnonce : ∀ c ∈ nonce.toList, isHexDigit c = true) : single_component (snapshot_name mac nonce) = true := by
  have hsplit : (snapshot_name mac nonce).toList =
      "zc.prepared.".toList ++ (mac.toList ++ ('.' :: (nonce.toList ++ ".snapshot".toList))) := by
    simp only [snapshot_name, String.toList_append, List.append_assoc]
    rfl
  refine single_component_of_length ?_ ?_
  · rw [hsplit, List.length_append]
    have hlength : ("zc.prepared.".toList).length = 12 := rfl
    omega
  · intro c hc
    rw [hsplit] at hc
    simp only [List.mem_append, List.mem_cons] at hc
    rcases hc with hc | hc | rfl | hc | hc
    · exact ne_separator_of_all (by decide) hc
    · exact ne_separator_of_isHexDigit (hmac c hc)
    · decide
    · exact ne_separator_of_isHexDigit (hnonce c hc)
    · exact ne_separator_of_all (by decide) hc

theorem not_dot_of_hex (htext : ∀ c ∈ text.toList, isHexDigit c = true) : '.' ∉ text.toList :=
  fun hdot => absurd (htext '.' hdot) (by decide)

/-- The code is found in the name. -/
theorem prepared_parts_of_name {mac : String} (hmac : valid_hex mac 64 = true)
    (hnonce : ∀ c ∈ nonce.toList, isHexDigit c = true) :
    prepared_parts (snapshot_name mac nonce) "snapshot" (· == nonce) = some mac := by
  have hdigits : ∀ c ∈ mac.toList, isHexDigit c = true := by
    rw [valid_hex, Bool.and_eq_true, List.all_eq_true] at hmac
    exact hmac.2
  have hjoin : (snapshot_name mac nonce).toList =
      ['.'].intercalate ["zc".toList, "prepared".toList, mac.toList, nonce.toList, "snapshot".toList] := by
    simp only [snapshot_name, String.toList_append, List.intercalate, List.intersperse, List.flatten_cons, List.flatten_nil,
      List.append_nil, List.append_assoc]
    rfl
  have hparts : ∀ part ∈ ["zc".toList, "prepared".toList, mac.toList, nonce.toList, "snapshot".toList], '.' ∉ part := by
    simp only [List.forall_mem_cons, List.not_mem_nil, IsEmpty.forall_iff, implies_true, and_true]
    exact ⟨by decide, by decide, not_dot_of_hex hdigits, not_dot_of_hex hnonce, by decide⟩
  have hsplit : str.split (snapshot_name mac nonce) '.' = ["zc", "prepared", mac, nonce, "snapshot"] := by
    rw [str.split, hjoin, List.splitOn_intercalate '.' hparts (by simp)]
    simp only [List.map_cons, List.map_nil, String.ofList_toList]
  rw [prepared_parts, hsplit]
  simp only [hmac, beq_self_eq_true, Bool.and_self, if_true]

theorem isHexDigit_of_valid_hex {length : Nat} (hvalid : valid_hex text length = true) :
    ∀ c ∈ text.toList, isHexDigit c = true := by
  rw [valid_hex, Bool.and_eq_true, List.all_eq_true] at hvalid
  exact hvalid.2

theorem valid_hex_hmac (platform : Platform) (key bytes : List UInt8) : valid_hex (hmac platform key bytes) 64 = true := by
  rw [valid_hex, Bool.and_eq_true, hmac, beq_iff_eq, len_hex, platform.length_sha256, List.all_eq_true]
  exact ⟨rfl, fun c hc => isHexDigit_of_mem_hex hc⟩

/-! ## What the directory holds -/

/-- The name under which a record is saved. -/
def Directory.name_of (self : Directory) (key bytes : List UInt8) (nonce : String) : String :=
  snapshot_name (hmac self.platform key bytes) nonce

/-- The key and the record are each whole or not there. -/
structure Ready (runtime : Directory) (bytes : List UInt8) (nonce : String) (fs : Fs) : Prop where
  dir : runtime.dir < fs.next
  lock : fs.lookup runtime.dir KEY_LOCK = none ∨ ∃ ino, PrivateFile fs runtime.dir KEY_LOCK ino
  key : fs.lookup runtime.dir KEY = none ∨ ∃ key, FileAt fs runtime.dir KEY key ∧ key.length = 32
  /-- Without a key, whichever is drawn. -/
  snapshot : ∀ key, key.length = 32 → (∀ other, FileAt fs runtime.dir KEY other → other = key) →
    fs.lookup runtime.dir (runtime.name_of key bytes nonce) = none ∨ FileAt fs runtime.dir (runtime.name_of key bytes nonce) bytes

/-- The key or the record is there but not whole. -/
inductive Partial (runtime : Directory) (bytes : List UInt8) (nonce : String) (fs : Fs) : Prop
  | key {part : List UInt8} (hfile : FileAt fs runtime.dir KEY part) (hlength : part.length ≠ 32)
  | snapshot {key part : List UInt8} (hkey : FileAt fs runtime.dir KEY key) (hlength : key.length = 32)
    (hfile : FileAt fs runtime.dir (runtime.name_of key bytes nonce) part) (hpart : part ≠ bytes)

variable {key : List UInt8}

section States

variable {runtime : Directory} {bytes : List UInt8} {nonce : String} {s t : Fs} {T : Nat → String → Prop}

/-- An entry that is free or private stays so under changes elsewhere. -/
theorem lock_changes (hdir : dir < s.next) (hchanges : Changes T s t) (hname : ¬T dir name)
    (hlock : s.lookup dir name = none ∨ ∃ ino, PrivateFile s dir name ino) :
    t.lookup dir name = none ∨ ∃ ino, PrivateFile t dir name ino := by
  rcases hlock with hfree | ⟨ino, hfile⟩
  · exact .inl ((hchanges.lookup dir name hdir hname).trans hfree)
  · exact .inr ⟨ino, hfile.changes hchanges hname⟩

theorem file_changes (hdir : dir < s.next) (hchanges : Changes T s t) (hname : ¬T dir name)
    (hfile : s.lookup dir name = none ∨ FileAt s dir name bytes) :
    t.lookup dir name = none ∨ FileAt t dir name bytes := by
  rcases hfile with hfree | hfile
  · exact .inl ((hchanges.lookup dir name hdir hname).trans hfree)
  · exact .inr (hfile.changes hchanges hname)

/-- The lock file appears. -/
theorem Ready.created (hready : Ready runtime bytes nonce s) (hcreated : Created s runtime.dir KEY_LOCK t) : Ready runtime bytes nonce t := by
  have hchanges := hcreated.changes
  have hkey : ¬Vacant s runtime.dir KEY_LOCK runtime.dir KEY := fun h => key_ne_lock h.2.1
  have hlookup := hchanges.lookup runtime.dir KEY hready.dir hkey
  refine ⟨Nat.lt_of_lt_of_le hready.dir hchanges.next_le, ?_, ?_, ?_⟩
  · rcases hcreated with rfl | ⟨hfree, hdir, rfl⟩
    · exact hready.lock
    · exact .inr ⟨_, privateFile_addFile hfree hdir⟩
  · rcases hready.key with hfree | ⟨key, hfile, hlength⟩
    · exact .inl (hlookup.trans hfree)
    · exact .inr ⟨key, hfile.changes hchanges hkey, hlength⟩
  · intro key hlength hothers
    refine file_changes hready.dir hchanges (fun h => snapshot_name_ne_lock _ _ h.2.1) (hready.snapshot key hlength ?_)
    exact fun other hfile => hothers other (hfile.changes hchanges hkey)

/-- The key appears. -/
theorem Ready.key_created (hready : Ready runtime bytes nonce s) (hfree : s.lookup runtime.dir KEY = none)
    (hchanges : Changes (Vacant s runtime.dir KEY) s t) (hfile : FileAt t runtime.dir KEY key)
    (hlength : key.length = 32) : Ready runtime bytes nonce t := by
  refine ⟨Nat.lt_of_lt_of_le hready.dir hchanges.next_le,
    lock_changes hready.dir hchanges (fun h => key_ne_lock h.2.1.symm) hready.lock, .inr ⟨key, hfile, hlength⟩, ?_⟩
  intro other hlength' hothers
  refine file_changes hready.dir hchanges (fun h => snapshot_name_ne_key _ _ h.2.1) (hready.snapshot other hlength' ?_)
  rintro found ⟨ino, hfound, -⟩
  cases hfree.symm.trans hfound.lookup

theorem Ready.key_length (hready : Ready runtime bytes nonce s) (hkey : FileAt s runtime.dir KEY key) :
    key.length = 32 := by
  rcases hready.key with hfree | ⟨other, hother, hlength⟩
  · obtain ⟨ino, hino, -⟩ := hkey
    cases hfree.symm.trans hino.lookup
  · rwa [FileAt.unique hkey hother] at hlength

/-- The record appears. -/
theorem Ready.snapshot_created (hready : Ready runtime bytes nonce s) (hkey : FileAt s runtime.dir KEY key)
    (hchanges : Changes (Vacant s runtime.dir (runtime.name_of key bytes nonce)) s t)
    (hfile : FileAt t runtime.dir (runtime.name_of key bytes nonce) bytes) : Ready runtime bytes nonce t := by
  have hkeep : FileAt t runtime.dir KEY key := hkey.changes hchanges fun h => snapshot_name_ne_key _ _ h.2.1.symm
  refine ⟨Nat.lt_of_lt_of_le hready.dir hchanges.next_le,
    lock_changes hready.dir hchanges (fun h => snapshot_name_ne_lock _ _ h.2.1.symm) hready.lock,
    .inr ⟨key, hkeep, hready.key_length hkey⟩, ?_⟩
  intro other _ hothers
  rw [← hothers key hkeep]
  exact .inr hfile

end States

/-! ## Runs -/

section Parts

variable (host : fsutil.Host) (w : World) (dir : Nat) (name : String)

/-- At every durable step `write_new` has done nothing, or left a part of the file. -/
theorem safe_write_new_part (bytes : List UInt8) :
    Safe (host.write_new dir name bytes)
      (fun _ t => t.fs = w.fs ∨ w.fs.lookup dir name = none ∧ ∃ part, FileAt t.fs dir name part)
      (fun _ t => t.fs = w.fs ∨ w.fs.lookup dir name = none ∧ ∃ part, FileAt t.fs dir name part) w := by
  have hcreated : ∀ t : World, Created w.fs dir name t.fs →
      t.fs = w.fs ∨ w.fs.lookup dir name = none ∧ ∃ part, FileAt t.fs dir name part := by
    rintro t (heq | ⟨hfree, hdir, heq⟩)
    · exact .inl heq
    · rw [heq]
      exact .inr ⟨hfree, _, w.fs.next, privateFile_addFile hfree hdir, rfl⟩
  refine ((safe_create_file host w dir name).mono (fun _ t h => hcreated t h.2.1) fun _ _ h => h).bind ?_ ?_
  · rintro ino t ⟨-, -, hok, -⟩
    obtain ⟨rfl, hfree, hdir, heq⟩ := hok ino rfl
    have happend : ∀ written, w.fs.lookup dir name = none ∧ ∃ part, FileAt (t.fs.append w.fs.next written) dir name part := by
      intro written
      rw [heq]
      exact ⟨hfree, _, fileAt_addFile hfree hdir written⟩
    refine (safe_write_all host t w.fs.next bytes fun written => .inr (happend written)).bind ?_ ?_
    · rintro ⟨⟩ u ⟨⟨written, rfl⟩, -, -⟩
      refine safe_sync_all.weaken ?_
      rintro r v ⟨rfl, -⟩
      exact .inr (happend written)
    · rintro error u ⟨⟨written, rfl⟩, -, -⟩
      exact .inr (happend written)
  · rintro error t ⟨h, -⟩
    exact hcreated t h

end Parts

theorem exists_entry_of_file (hfile : FileAt fs dir name bytes) {present : Bool}
    (hpresent : fs.exists_entry dir name = .ok present) : present = true := by
  obtain ⟨ino, hino, -⟩ := hfile
  simp only [Fs.exists_entry, bind_eq_ok_iff] at hpresent
  obtain ⟨_, -, hpresent⟩ := hpresent
  rw [← Except.ok.inj hpresent, hino.lookup]
  rfl

theorem exists_entry_eq (hname : single_component name = true) :
    fs.exists_entry dir name = .ok (fs.lookup dir name).isSome := by
  rw [Fs.exists_entry, component_eq_ok hname]
  rfl

variable {prepared : Prepared}

section Saving

variable {runtime : Directory} {bytes : List UInt8} {nonce : String} {w : World}

theorem safe_read_key {crash : fsutil.Step → World → Prop} :
    Safe runtime.read_key crash (fun r t => t.fs = w.fs ∧
      (∀ found, r = .ok found → FileAt w.fs runtime.dir KEY found ∧ found.length = 32) ∧
      ∀ key, runtime.host.Quiet → FileAt w.fs runtime.dir KEY key → key.length = 32 → r = .ok key) w := by
  unfold Directory.read_key
  refine (safe_observe _).bind ?_ ?_
  · rintro found t ⟨rfl, hread, hquiet⟩
    obtain ⟨-, hfile, -⟩ := read_eq_ok_iff.1 (hread found rfl)
    refine safe_ofExcept_bind ?_ ?_
    · rintro ⟨⟩ hlength
      rw [ensure_eq_ok_iff, beq_iff_eq] at hlength
      refine safe_pure ⟨rfl, fun other hother => ?_, fun key _ hkey _ => ?_⟩
      · rw [← Except.ok.inj hother]
        exact ⟨hfile, hlength⟩
      · rw [FileAt.unique hkey hfile]
    · intro error hlength
      refine ⟨rfl, nofun, fun key hq hkey hlength' => ?_⟩
      rw [FileAt.unique hkey hfile, hlength'] at hlength
      cases hlength
  · rintro error t ⟨rfl, -, hquiet⟩
    refine ⟨rfl, nofun, fun key hq hkey hlength => ?_⟩
    cases (hquiet hq).trans (read_eq_ok_iff.2 ⟨by decide, hkey, Nat.le_of_eq hlength⟩)

theorem safe_ensure_none {crash : fsutil.Step → World → Prop} : Safe (runtime.ensure_key false) crash (fun r t => r = .ok () ∧ t = w) w :=
  safe_pure ⟨rfl, rfl⟩

/-- A lock file that can be had. -/
def LockFree (runtime : Directory) (fs : Fs) : Prop :=
  0 < runtime.lock_wait ∧ runtime.dir < fs.next ∧
    (fs.lookup runtime.dir KEY_LOCK = none ∨ ∃ ino, PrivateFile fs runtime.dir KEY_LOCK ino)

theorem safe_key_lock :
    Safe (runtime.host.lock runtime.dir KEY_LOCK runtime.lock_wait) (fun _ t => Created w.fs runtime.dir KEY_LOCK t.fs)
      (fun r t => Created w.fs runtime.dir KEY_LOCK t.fs ∧ (runtime.host.Quiet → LockFree runtime w.fs → ∃ guard, r = .ok guard)) w := by
  refine (safe_lock runtime.host w runtime.dir KEY_LOCK runtime.lock_wait).mono (fun _ _ h => h.2.1) ?_
  rintro r t ⟨hcreated, -, -, hquiet⟩
  refine ⟨hcreated, fun hq ⟨hwait, hdir, hlock⟩ => hquiet hq (by decide) ?_⟩
  exact hlock.symm.imp_right fun hfree => ⟨hdir, hfree, hwait⟩

/-- The key that is there is taken if it is whole. -/
theorem safe_snapshot_key_present (hkey : FileAt w.fs runtime.dir KEY key) (create : Bool) :
    Safe (runtime.snapshot_key create) (fun _ t => Created w.fs runtime.dir KEY_LOCK t.fs)
      (fun r t => Created w.fs runtime.dir KEY_LOCK t.fs ∧ (∀ found, r = .ok found → found = key ∧ key.length = 32) ∧
        (runtime.host.Quiet → LockFree runtime w.fs → key.length = 32 → r = .ok key)) w := by
  unfold Directory.snapshot_key
  refine safe_key_lock.bind ?_ ?_
  · rintro guard t ⟨hcreated, -⟩
    have hfile : FileAt t.fs runtime.dir KEY key := hkey.changes hcreated.changes fun h => key_ne_lock h.2.1
    refine (safe_observe _).bind ?_ ?_
    · rintro present u ⟨rfl, hpresent, -⟩
      obtain rfl := exists_entry_of_file hfile (hpresent present rfl)
      refine safe_ensure_none.bind ?_ ?_
      · rintro ⟨⟩ u ⟨-, rfl⟩
        refine safe_read_key.weaken ?_
        rintro r v ⟨hsame, hok, hquiet⟩
        refine ⟨hsame ▸ hcreated, fun found hfound => ?_, fun hq _ hlength => hquiet key hq hfile hlength⟩
        obtain ⟨hfound', hlength⟩ := hok found hfound
        obtain rfl := FileAt.unique hfile hfound'
        exact ⟨rfl, hlength⟩
      · rintro error u ⟨hresult, -⟩
        cases hresult
    · rintro error u ⟨rfl, -, hquiet⟩
      refine ⟨hcreated, nofun, fun hq _ _ => ?_⟩
      cases (hquiet hq).trans (exists_entry_eq (by decide))
  · rintro error t ⟨hcreated, hquiet⟩
    refine ⟨hcreated, nofun, fun hq hlock _ => ?_⟩
    obtain ⟨guard, hguard⟩ := hquiet hq hlock
    cases hguard

/-- What is left of a run that saves a record. -/
def Left (runtime : Directory) (bytes : List UInt8) (nonce : String) (t : World) : Prop :=
  Ready runtime bytes nonce t.fs ∨ Partial runtime bytes nonce t.fs

theorem safe_create_key (hready : Ready runtime bytes nonce w.fs) (hfree : w.fs.lookup runtime.dir KEY = none) :
    Safe runtime.create_key (fun _ t => Left runtime bytes nonce t)
      (fun r t => Left runtime bytes nonce t ∧ (∀ u, r = .ok u → Ready runtime bytes nonce t.fs ∧ ∃ key, FileAt t.fs runtime.dir KEY key) ∧
        (runtime.host.Quiet → r = .ok ())) w := by
  unfold Directory.create_key
  refine (safe_fill 32).bind ?_ ?_
  · rintro random t ⟨rfl, hrandom, -⟩
    have hlength : random.length = 32 := by
      rw [hrandom random rfl, List.length_map, List.length_range]
    have hleft : ∀ u : World, Advances (Vacant w.fs runtime.dir KEY) w u →
        (u.fs = w.fs ∨ w.fs.lookup runtime.dir KEY = none ∧ ∃ part, FileAt u.fs runtime.dir KEY part) → Left runtime bytes nonce u := by
      rintro u hadvances (hsame | ⟨-, part, hfile⟩)
      · rw [Left, hsame]
        exact .inl hready
      · by_cases hpart : part.length = 32
        · exact .inl (hready.key_created hfree hadvances.changes hfile hpart)
        · exact .inr (.key hfile hpart)
    have hstart : ∀ u : World, Advances (Vacant w.fs runtime.dir KEY) (w.advance w.fs) u → Advances (Vacant w.fs runtime.dir KEY) w u :=
      fun u h => h.start rfl (Nat.le_succ _)
    refine (((safe_write_new runtime.host (w.advance w.fs) runtime.dir KEY random).and
      (safe_write_new_part runtime.host (w.advance w.fs) runtime.dir KEY random)).mono ?_ fun _ _ h => h).bind ?_ ?_
    · rintro label u ⟨⟨-, hadvances⟩, hpart⟩
      exact hleft u (hstart u hadvances) hpart
    · rintro ⟨⟩ u ⟨⟨hadvances, hok, -⟩, -⟩
      obtain ⟨-, hfile⟩ := hok () rfl
      have hready' := hready.key_created hfree (hstart u hadvances).changes hfile hlength
      refine safe_sync.weaken ?_
      rintro r v ⟨rfl, hquiet⟩
      exact ⟨.inl hready', fun _ _ => ⟨hready', random, hfile⟩, hquiet⟩
    · rintro error u ⟨⟨hadvances, -, hquiet⟩, hpart⟩
      exact ⟨hleft u (hstart u hadvances) hpart, nofun, fun hq => nomatch hquiet hq (by decide) hready.dir hfree⟩
  · rintro error t ⟨rfl, -, hquiet⟩
    refine ⟨.inl hready, nofun, fun hq => ?_⟩
    obtain ⟨random, hrandom⟩ := hquiet hq
    cases hrandom

theorem Ready.lock_free (hready : Ready runtime bytes nonce w.fs) (hwait : 0 < runtime.lock_wait) : LockFree runtime w.fs :=
  ⟨hwait, hready.dir, hready.lock⟩

theorem safe_snapshot_key (hready : Ready runtime bytes nonce w.fs) :
    Safe (runtime.snapshot_key true) (fun _ t => Left runtime bytes nonce t)
      (fun r t => Left runtime bytes nonce t ∧ (∀ key, r = .ok key → Ready runtime bytes nonce t.fs ∧ FileAt t.fs runtime.dir KEY key) ∧
        (runtime.host.Quiet → 0 < runtime.lock_wait → ∃ key, r = .ok key)) w := by
  rcases hready.key with hfree | ⟨key, hkey, hlength⟩
  · unfold Directory.snapshot_key
    refine (safe_key_lock.mono (fun _ t h => .inl (hready.created h)) fun _ _ h => h).bind ?_ ?_
    · rintro guard t ⟨hcreated, -⟩
      have hready' := hready.created hcreated
      have hfree' : t.fs.lookup runtime.dir KEY = none :=
        (hcreated.changes.lookup runtime.dir KEY hready.dir fun h => key_ne_lock h.2.1).trans hfree
      have hentry : t.fs.exists_entry runtime.dir KEY = .ok false := by
        rw [exists_entry_eq (by decide), hfree']
        rfl
      refine (safe_observe _).bind ?_ ?_
      · rintro present u ⟨rfl, hpresent, -⟩
        cases hentry.symm.trans (hpresent present rfl)
        have hcreate : Safe (runtime.ensure_key (!false && true)) (fun _ v => Left runtime bytes nonce v) _ (t.advance t.fs) :=
          @safe_create_key runtime bytes nonce (t.advance t.fs) hready' hfree'
        refine hcreate.bind ?_ ?_
        · rintro ⟨⟩ v ⟨-, hok, -⟩
          obtain ⟨hready'', key, hkey⟩ := hok () rfl
          refine safe_read_key.weaken ?_
          rintro r x ⟨hsame, hfound, hquiet⟩
          rw [Left, hsame]
          refine ⟨.inl hready'', fun found hr => ⟨hready'', (hfound found hr).1⟩, fun hq _ => ⟨key, ?_⟩⟩
          exact hquiet key hq hkey (hready''.key_length hkey)
        · rintro error v ⟨hleft, -, hquiet⟩
          exact ⟨hleft, nofun, fun hq _ => nomatch hquiet hq⟩
      · rintro error u ⟨rfl, -, hquiet⟩
        exact ⟨.inl hready', nofun, fun hq _ => nomatch (hquiet hq).trans hentry⟩
    · rintro error t ⟨hcreated, hquiet⟩
      refine ⟨.inl (hready.created hcreated), nofun, fun hq hwait => ?_⟩
      obtain ⟨guard, hguard⟩ := hquiet hq (hready.lock_free hwait)
      cases hguard
  · refine (safe_snapshot_key_present hkey true).mono (fun _ t h => .inl (hready.created h)) ?_
    rintro r t ⟨hcreated, hok, hquiet⟩
    have hready' := hready.created hcreated
    refine ⟨.inl hready', fun found hr => ⟨hready', ?_⟩, fun hq hwait => ⟨key, hquiet hq (hready.lock_free hwait) hlength⟩⟩
    rw [(hok found hr).1]
    exact hkey.changes hcreated.changes fun h => key_ne_lock h.2.1

/-- The name of a record is one component. -/
theorem single_component_name_of (key : List UInt8) (hnonce : valid_hex nonce 32 = true) :
    single_component (runtime.name_of key bytes nonce) = true :=
  single_component_snapshot_name (isHexDigit_of_valid_hex (valid_hex_hmac _ _ _)) (isHexDigit_of_valid_hex hnonce)

/-- The record and its key are in place. -/
structure Saved (runtime : Directory) (key bytes : List UInt8) (nonce : String) (fs : Fs) : Prop where
  ready : Ready runtime bytes nonce fs
  held : FileAt fs runtime.dir KEY key
  snapshot : FileAt fs runtime.dir (runtime.name_of key bytes nonce) bytes

theorem safe_create_snapshot {key : List UInt8} (hnonce : valid_hex nonce 32 = true) (hready : Ready runtime bytes nonce w.fs)
    (hkey : FileAt w.fs runtime.dir KEY key) (hfree : w.fs.lookup runtime.dir (runtime.name_of key bytes nonce) = none) :
    Safe (runtime.create_snapshot (runtime.name_of key bytes nonce) bytes) (fun _ t => Left runtime bytes nonce t)
      (fun r t => Left runtime bytes nonce t ∧ (∀ u, r = .ok u → Saved runtime key bytes nonce t.fs) ∧ (runtime.host.Quiet → r = .ok ())) w := by
  unfold Directory.create_snapshot
  have hne : ∀ dir' name', Vacant w.fs runtime.dir (runtime.name_of key bytes nonce) dir' name' → name' ≠ KEY :=
    fun dir' name' h => h.2.1 ▸ snapshot_name_ne_key _ _
  have hleft : ∀ u : World, Advances (Vacant w.fs runtime.dir (runtime.name_of key bytes nonce)) w u →
      (u.fs = w.fs ∨ w.fs.lookup runtime.dir (runtime.name_of key bytes nonce) = none ∧
        ∃ part, FileAt u.fs runtime.dir (runtime.name_of key bytes nonce) part) → Left runtime bytes nonce u := by
    rintro u hadvances (hsame | ⟨-, part, hfile⟩)
    · rw [Left, hsame]
      exact .inl hready
    · by_cases hpart : part = bytes
      · exact .inl (hready.snapshot_created hkey hadvances.changes (hpart ▸ hfile))
      · exact .inr (.snapshot (hkey.changes hadvances.changes fun h => hne _ _ h rfl) (hready.key_length hkey) hfile hpart)
  refine (((safe_write_new runtime.host w runtime.dir _ bytes).and (safe_write_new_part runtime.host w runtime.dir _ bytes)).mono
    ?_ fun _ _ h => h).bind ?_ ?_
  · rintro label u ⟨⟨-, hadvances⟩, hpart⟩
    exact hleft u hadvances hpart
  · rintro ⟨⟩ u ⟨⟨hadvances, hok, -⟩, -⟩
    obtain ⟨-, hfile⟩ := hok () rfl
    have hready' := hready.snapshot_created hkey hadvances.changes hfile
    refine safe_sync.weaken ?_
    rintro r v ⟨rfl, hquiet⟩
    exact ⟨.inl hready', fun _ _ => ⟨hready', hkey.changes hadvances.changes fun h => hne _ _ h rfl, hfile⟩, hquiet⟩
  · rintro error u ⟨⟨hadvances, -, hquiet⟩, hpart⟩
    exact ⟨hleft u hadvances hpart, nofun, fun hq => nomatch hquiet hq (single_component_name_of key hnonce) hready.dir hfree⟩

theorem safe_store_snapshot (hnonce : valid_hex nonce 32 = true) (hlimit : bytes.length ≤ SNAPSHOT_LIMIT)
    (hready : Ready runtime bytes nonce w.fs) (hkey : FileAt w.fs runtime.dir KEY key) :
    Safe (runtime.store_snapshot (runtime.name_of key bytes nonce) bytes) (fun _ t => Left runtime bytes nonce t)
      (fun r t => Left runtime bytes nonce t ∧ (∀ u, r = .ok u → Saved runtime key bytes nonce t.fs) ∧ (runtime.host.Quiet → r = .ok ())) w := by
  unfold Directory.store_snapshot
  have hname := @single_component_name_of runtime bytes nonce key hnonce
  refine (safe_observe _).bind ?_ ?_
  · rintro present u ⟨rfl, hpresent, -⟩
    have hentry := (exists_entry_eq hname).symm.trans (hpresent present rfl)
    rcases hready.snapshot key (hready.key_length hkey) fun other hother => FileAt.unique hkey hother with hfree | hfile
    · rw [hfree] at hentry
      cases hentry
      rw [if_neg (show ¬none.isSome = true from Bool.false_ne_true)]
      exact @safe_create_snapshot runtime bytes nonce (w.advance w.fs) key hnonce hready hkey hfree
    · obtain rfl := exists_entry_of_file hfile (hpresent present rfl)
      rw [if_pos rfl]
      unfold Directory.confirm_snapshot
      refine (safe_observe _).bind ?_ ?_
      · rintro found v ⟨rfl, hread, -⟩
        obtain ⟨-, hfound, -⟩ := read_eq_ok_iff.1 (hread found rfl)
        obtain rfl := FileAt.unique hfile hfound
        refine safe_ofExcept ⟨.inl hready, fun _ _ => ⟨hready, hkey, hfile⟩, fun _ => ?_⟩
        rw [ensure_eq_ok_iff]
        exact beq_self_eq_true found
      · rintro error v ⟨rfl, -, hquiet⟩
        exact ⟨.inl hready, nofun, fun hq => nomatch (hquiet hq).trans (read_eq_ok_iff.2 ⟨hname, hfile, hlimit⟩)⟩
  · rintro error u ⟨rfl, -, hquiet⟩
    exact ⟨.inl hready, nofun, fun hq => nomatch (hquiet hq).trans (exists_entry_eq hname)⟩

/-- Saving leaves the directory ready for another try, or a file half written. -/
theorem safe_save_snapshot (hnonce : valid_hex nonce 32 = true)
    (hready : Ready runtime (line (snapshot_of prepared nonce).encode) nonce w.fs) :
    Safe (runtime.save_snapshot prepared nonce) (fun _ t => Left runtime (line (snapshot_of prepared nonce).encode) nonce t)
      (fun r t => Left runtime (line (snapshot_of prepared nonce).encode) nonce t ∧
        (∀ name, r = .ok name → ∃ key, name = runtime.name_of key (line (snapshot_of prepared nonce).encode) nonce ∧
          Saved runtime key (line (snapshot_of prepared nonce).encode) nonce t.fs) ∧
        (runtime.host.Quiet → 0 < runtime.lock_wait → (line (snapshot_of prepared nonce).encode).length ≤ SNAPSHOT_LIMIT →
          ∃ name, r = .ok name)) w := by
  unfold Directory.save_snapshot
  refine safe_ofExcept_bind ?_ ?_
  · rintro ⟨⟩ hlimit
    rw [ensure_eq_ok_iff, decide_eq_true_eq] at hlimit
    refine (safe_snapshot_key hready).bind ?_ ?_
    · rintro key t ⟨-, hok, -⟩
      obtain ⟨hready', hkey⟩ := hok key rfl
      refine (safe_store_snapshot hnonce hlimit hready' hkey).bind ?_ ?_
      · rintro ⟨⟩ u ⟨hleft, hsaved, -⟩
        refine safe_pure ⟨hleft, fun name hr => ⟨key, (Except.ok.inj hr).symm, hsaved () rfl⟩, fun _ _ _ => ⟨_, rfl⟩⟩
      · rintro error u ⟨hleft, -, hquiet⟩
        exact ⟨hleft, nofun, fun hq => nomatch hquiet hq⟩
    · rintro error t ⟨hleft, -, hquiet⟩
      refine ⟨hleft, nofun, fun hq hwait _ => ?_⟩
      obtain ⟨key, hkey⟩ := hquiet hq hwait
      cases hkey
  · intro error hlimit
    refine ⟨.inl hready, nofun, fun _ _ hfits => ?_⟩
    have hok : ensure (decide ((line (snapshot_of prepared nonce).encode).length ≤ SNAPSHOT_LIMIT))
        (.message "START_SNAPSHOT_INVALID: snapshot too large") = .ok () := by
      rw [ensure_eq_ok_iff, decide_eq_true_eq]
      exact hfits
    cases hlimit.symm.trans hok

/-! ## Loading -/

theorem check_snapshot_of {platform : Platform} {prepared : Prepared} {cfg : config.Config}
    (hparse : parse_config platform prepared = .ok cfg) : check_snapshot platform (snapshot_of prepared nonce) nonce = .ok () := by
  have hparse' : parse_config platform (snapshot_of prepared nonce).prepared = .ok cfg := hparse
  by_cases hsecret : (snapshot_of prepared nonce).prepared.controller_secret.isSome = true
  · have hversion : (snapshot_of prepared nonce).schema_version = 2 := if_pos hsecret
    have hnonce : (snapshot_of prepared nonce).nonce = nonce := rfl
    rw [check_snapshot, if_pos hsecret, hparse', hversion, hnonce, hsecret]
    simp [ensure, mapErr]
  · have hversion : (snapshot_of prepared nonce).schema_version = 1 := if_neg hsecret
    have hnonce : (snapshot_of prepared nonce).nonce = nonce := rfl
    rw [check_snapshot, if_neg hsecret, hversion, hnonce, Option.not_isSome_iff_eq_none.1 hsecret]
    simp [ensure]

/-- A record that is in place is loaded. -/
theorem safe_load_snapshot {cfg : config.Config} (hnonce : valid_hex nonce 32 = true)
    (hlimit : (line (snapshot_of prepared nonce).encode).length ≤ SNAPSHOT_LIMIT)
    (hparse : parse_config runtime.platform prepared = .ok cfg) (hwait : 0 < runtime.lock_wait)
    (hquiet : runtime.host.Quiet) (hsaved : Saved runtime key (line (snapshot_of prepared nonce).encode) nonce w.fs) :
    Safe (runtime.load_snapshot (runtime.name_of key (line (snapshot_of prepared nonce).encode) nonce) nonce) (fun _ _ => True)
      (fun r _ => r = .ok prepared) w := by
  have hname := @single_component_name_of runtime (line (snapshot_of prepared nonce).encode) nonce key hnonce
  have hchecked : ∀ {flag : Bool} {error : Error} {text : Error}, flag = true → ensure flag text ≠ .error error := by
    intro flag error text hflag herror
    rw [hflag] at herror
    cases herror
  unfold Directory.load_snapshot
  refine safe_ofExcept_bind (fun _ _ => ?_) fun error herror => absurd herror (hchecked (by rw [hnonce, hname]; rfl))
  have hmac : prepared_parts (runtime.name_of key (line (snapshot_of prepared nonce).encode) nonce) "snapshot" (· == nonce) =
      some (hmac runtime.platform key (line (snapshot_of prepared nonce).encode)) :=
    prepared_parts_of_name (valid_hex_hmac _ _ _) (isHexDigit_of_valid_hex hnonce)
  rw [hmac]
  refine safe_ofExcept_bind ?_ fun error herror => nomatch herror
  intro mac hfound
  cases hfound
  refine (safe_observe _).bind ?_ ?_
  · rintro bytes t ⟨rfl, hread, -⟩
    obtain rfl := FileAt.unique hsaved.snapshot (read_eq_ok_iff.1 (hread bytes rfl)).2.1
    have hkey : FileAt (w.advance w.fs).fs runtime.dir KEY key := hsaved.held
    refine ((safe_snapshot_key_present hkey false).mono (fun _ _ _ => trivial) fun _ _ h => h).bind ?_ ?_
    · rintro found u ⟨-, hok, -⟩
      obtain ⟨rfl, -⟩ := hok found rfl
      refine safe_ofExcept_bind (fun _ _ => ?_) fun error herror => absurd herror (hchecked (beq_self_eq_true _))
      rw [from_slice_snapshot]
      refine safe_ofExcept_bind ?_ fun error herror => nomatch herror
      intro snapshot hsnapshot
      cases hsnapshot
      have hcheck := @check_snapshot_of nonce _ _ _ hparse
      refine safe_ofExcept_bind (fun _ _ => ?_) fun error herror => nomatch hcheck.symm.trans herror
      exact safe_pure rfl
    · rintro error u ⟨-, -, hok⟩
      cases hok hquiet (hsaved.ready.lock_free hwait) (hsaved.ready.key_length hsaved.held)
  · rintro error t ⟨rfl, -, hok⟩
    cases (hok hquiet).trans (read_eq_ok_iff.2 ⟨hname, hsaved.snapshot, hlimit⟩)

/-! ## Half written files -/

theorem safe_store_changed {part : List UInt8} (hfile : FileAt w.fs runtime.dir name part) (hpart : part ≠ bytes) :
    Safe (runtime.store_snapshot name bytes) (fun _ _ => True) (fun r _ => ∀ u, r ≠ .ok u) w := by
  unfold Directory.store_snapshot
  refine (safe_observe _).bind ?_ fun _ _ _ => nofun
  rintro present t ⟨rfl, hpresent, -⟩
  obtain rfl := exists_entry_of_file hfile (hpresent present rfl)
  rw [if_pos rfl]
  unfold Directory.confirm_snapshot
  refine (safe_observe _).bind ?_ fun _ _ _ => nofun
  rintro found u ⟨rfl, hread, -⟩
  obtain rfl := FileAt.unique hfile (read_eq_ok_iff.1 (hread found rfl)).2.1
  refine safe_ofExcept fun _ hok => ?_
  rw [ensure_eq_ok_iff, beq_iff_eq] at hok
  exact hpart hok

/-- Nothing is saved while a file is half written. -/
theorem safe_save_part (hpart : Partial runtime (line (snapshot_of prepared nonce).encode) nonce w.fs) :
    Safe (runtime.save_snapshot prepared nonce) (fun _ _ => True) (fun r _ => ∀ name, r ≠ .ok name) w := by
  obtain ⟨key, hkey⟩ : ∃ key, FileAt w.fs runtime.dir KEY key := by
    cases hpart with
    | key hfile _ => exact ⟨_, hfile⟩
    | snapshot hkey _ _ _ => exact ⟨_, hkey⟩
  unfold Directory.save_snapshot
  refine safe_ofExcept_bind (fun _ _ => ?_) fun _ _ => nofun
  refine ((safe_snapshot_key_present hkey true).mono (fun _ _ _ => trivial) fun _ _ h => h).bind ?_ fun _ _ _ => nofun
  rintro found t ⟨hcreated, hok, -⟩
  obtain ⟨rfl, hlength⟩ := hok found rfl
  cases hpart with
  | key hfile hlength' =>
    obtain rfl := FileAt.unique hkey hfile
    exact absurd hlength hlength'
  | snapshot hkey' _ hfile hpart =>
    obtain rfl := FileAt.unique hkey hkey'
    have hfile' := hfile.changes hcreated.changes fun h => snapshot_name_ne_lock _ _ h.2.1
    exact (safe_store_changed hfile' hpart).bind (fun _ _ h => absurd rfl (h ())) fun _ _ _ => nofun

end Saving

/-! ## Failures -/

/-- A record that is in place is whole. -/
theorem Saved.not_partial {runtime : Directory} (hsaved : Saved runtime key bytes nonce fs) :
    ¬Partial runtime bytes nonce fs := by
  intro hpart
  cases hpart with
  | key hfile hlength =>
    obtain rfl := FileAt.unique hsaved.held hfile
    exact hlength (hsaved.ready.key_length hsaved.held)
  | snapshot hkey _ hfile hpart =>
    obtain rfl := FileAt.unique hsaved.held hkey
    exact hpart (FileAt.unique hsaved.snapshot hfile)

/-- A state that a run passes through or ends in. -/
def Visited {α : Type} (program : Prog α) (w t : World) : Prop :=
  t = (program w).state ∨ ∃ step ∈ (program w).steps, step.2 = t

/-- Without failures a record is saved and loaded. -/
theorem loads_of_ready {runtime : Directory} {cfg : config.Config} {w : World} (hwait : 0 < runtime.lock_wait)
    (hquiet : runtime.host.Quiet) (hparse : parse_config runtime.platform prepared = .ok cfg)
    (hnonce : valid_hex nonce 32 = true) (hlimit : (line (snapshot_of prepared nonce).encode).length ≤ SNAPSHOT_LIMIT)
    (hready : Ready runtime (line (snapshot_of prepared nonce).encode) nonce w.fs) :
    ∃ name, (runtime.save_snapshot prepared nonce w).result = .ok name ∧
      (runtime.load_snapshot name nonce (runtime.save_snapshot prepared nonce w).state).result = .ok prepared := by
  obtain ⟨-, -, hsaved, hok⟩ := safe_save_snapshot hnonce hready
  obtain ⟨name, hname⟩ := hok hquiet hwait hlimit
  obtain ⟨key, rfl, hsaved⟩ := hsaved name hname
  exact ⟨_, hname, (safe_load_snapshot hnonce hlimit hparse hwait hquiet hsaved).2⟩

/-- Wherever saving a record fails or is stopped, it can be saved again and then loaded exactly when neither the key
    nor the record was left half written. -/
theorem save_snapshot_retries_iff {runtime : Directory} {quiet : fsutil.Host} {prepared : Prepared} {cfg : config.Config} {nonce : String}
    {w t : World} (hwait : 0 < runtime.lock_wait) (hquiet : quiet.Quiet) (hparse : parse_config runtime.platform prepared = .ok cfg)
    (hnonce : valid_hex nonce 32 = true) (hlimit : (line (snapshot_of prepared nonce).encode).length ≤ SNAPSHOT_LIMIT)
    (hready : Ready runtime (line (snapshot_of prepared nonce).encode) nonce w.fs)
    (hvisited : Visited (runtime.save_snapshot prepared nonce) w t) :
    (∃ name, (Directory.save_snapshot { runtime with host := quiet } prepared nonce t).result = .ok name ∧
      (Directory.load_snapshot { runtime with host := quiet } name nonce
        (Directory.save_snapshot { runtime with host := quiet } prepared nonce t).state).result = .ok prepared) ↔
    ¬Partial runtime (line (snapshot_of prepared nonce).encode) nonce t.fs := by
  obtain ⟨hsteps, hend, -⟩ := safe_save_snapshot hnonce hready
  have hleft : Left runtime (line (snapshot_of prepared nonce).encode) nonce t := by
    rcases hvisited with rfl | ⟨step, hstep, rfl⟩
    · exact hend
    · exact hsteps step hstep
  constructor
  · rintro ⟨name, hname, -⟩ hpart
    have hpart' : Partial { runtime with host := quiet } (line (snapshot_of prepared nonce).encode) nonce t.fs := by
      cases hpart with
      | key hfile hlength => exact .key hfile hlength
      | snapshot hkey hlength hfile hpart => exact .snapshot hkey hlength hfile hpart
    exact (safe_save_part hpart').2 name hname
  · intro hwhole
    obtain ⟨hdir, hlock, hkey, hsnapshot⟩ := hleft.resolve_right hwhole
    exact loads_of_ready hwait hquiet hparse hnonce hlimit ⟨hdir, hlock, hkey, hsnapshot⟩

/-- An empty directory on a machine where nothing fails. -/
def emptyDirectory : Directory where
  platform := { Platform.bare with crates := Crates.json }
  host := { fault := fun _ => none, random := fun _ _ => 0, busy := fun _ => false }
  dir := 0
  lock_wait := 1

def emptyConfig : Prepared where
  source := "\x7b\x7d"
  assets := .empty
  identity := none
  generation := 0
  selections := []
  invocation := { foreground := false, prepared := false, config_path := none, source_path := none, port_override := none }
  port := 7890
  override_options := {}
  controller_secret := none

def zeroNonce : String := hex (List.replicate 16 0)

def emptyStart : World where
  fs := Fs.initial
  tick := 0
  durability_uncertain := false

theorem quiet_empty : emptyDirectory.host.Quiet :=
  ⟨fun _ => rfl, fun _ => rfl⟩

theorem parse_empty : ∃ cfg, parse_config emptyDirectory.platform emptyConfig = .ok cfg := by
  have hok : (parse_config emptyDirectory.platform emptyConfig).isOk = true := by decide +kernel
  cases hparse : parse_config emptyDirectory.platform emptyConfig with
  | ok cfg => exact ⟨cfg, rfl⟩
  | error error =>
    rw [hparse] at hok
    cases hok

theorem ready_empty (bytes : List UInt8) : Ready emptyDirectory bytes zeroNonce emptyStart.fs :=
  ⟨Nat.one_pos, .inl rfl, .inl rfl, fun _ _ _ => .inl rfl⟩

theorem length_empty : (line (snapshot_of emptyConfig zeroNonce).encode).length ≤ SNAPSHOT_LIMIT := by
  rw [line, List.length_append, override_script.length_to_vec]
  decide +kernel

theorem empty_saved_again : ∃ t, Visited (emptyDirectory.save_snapshot emptyConfig zeroNonce) emptyStart t ∧
    ∃ name, (emptyDirectory.save_snapshot emptyConfig zeroNonce t).result = .ok name ∧
      (emptyDirectory.load_snapshot name zeroNonce (emptyDirectory.save_snapshot emptyConfig zeroNonce t).state).result =
        .ok emptyConfig := by
  obtain ⟨cfg, hparse⟩ := parse_empty
  have hnonce : valid_hex zeroNonce 32 = true := by decide +kernel
  have hwait : 0 < emptyDirectory.lock_wait := Nat.one_pos
  obtain ⟨-, -, hsaved, hok⟩ := safe_save_snapshot hnonce (ready_empty (line (snapshot_of emptyConfig zeroNonce).encode))
  obtain ⟨name, hname⟩ := hok quiet_empty hwait length_empty
  obtain ⟨key, -, hsaved⟩ := hsaved name hname
  exact ⟨_, .inl rfl, (save_snapshot_retries_iff hwait quiet_empty hparse hnonce length_empty (ready_empty _) (.inl rfl)).2
    hsaved.not_partial⟩

theorem empty_key_created : ∃ step ∈ (emptyDirectory.snapshot_key true emptyStart).steps, FileAt step.2.fs 0 KEY [] := by
  have hcreated : ((emptyDirectory.snapshot_key true emptyStart).steps.map fun step =>
      decide (step.2.fs.lookup 0 KEY = some (.file 2) ∧ (step.2.fs.inodes 2).owned = true ∧ step.2.fs.nlink 2 = 1 ∧
        (step.2.fs.inodes 2).mode &&& 0o077 = 0 ∧ (step.2.fs.inodes 2).data = [])) = [false, true, false] := by decide +kernel
  obtain ⟨step, hstep, htrue⟩ := List.mem_map.1 (hcreated ▸ List.mem_cons_of_mem false List.mem_cons_self)
  obtain ⟨hlookup, howned, hnlink, hmode, hdata⟩ := of_decide_eq_true htrue
  exact ⟨step, hstep, 2, ⟨hlookup, howned, hnlink, hmode⟩, hdata⟩

/-- A key that was created but not yet written is refused from then on. -/
theorem empty_key_refused : (∃ cfg, parse_config emptyDirectory.platform emptyConfig = .ok cfg) ∧
    (line (snapshot_of emptyConfig zeroNonce).encode).length ≤ SNAPSHOT_LIMIT ∧ valid_hex zeroNonce 32 = true ∧
    emptyDirectory.host.Quiet ∧ ∃ t, Visited (emptyDirectory.save_snapshot emptyConfig zeroNonce) emptyStart t ∧
      ∀ name, (emptyDirectory.save_snapshot emptyConfig zeroNonce t).result ≠ .ok name := by
  obtain ⟨step, hstep, hfile⟩ := empty_key_created
  have hpart : Partial emptyDirectory (line (snapshot_of emptyConfig zeroNonce).encode) zeroNonce step.2.fs :=
    .key hfile (by decide)
  refine ⟨parse_empty, length_empty, by decide +kernel, quiet_empty, step.2, .inr ⟨step, ?_, rfl⟩, (safe_save_part hpart).2⟩
  have hfits : ensure (decide ((line (snapshot_of emptyConfig zeroNonce).encode).length ≤ SNAPSHOT_LIMIT))
      (.message "START_SNAPSHOT_INVALID: snapshot too large") = .ok () := by
    rw [ensure_eq_ok_iff, decide_eq_true_eq]
    exact length_empty
  unfold Directory.save_snapshot
  rw [hfits]
  exact mem_steps_bind_ok rfl (mem_steps_bind hstep)

end zc.daemon
