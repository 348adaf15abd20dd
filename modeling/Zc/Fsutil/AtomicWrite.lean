import Zc.Fsutil.Calls

/-!
# Replacing a file

Whichever calls of `atomic_write` fail, and wherever it is cut off, a reader finds the old file or
the complete new one.
-/

namespace zc.fsutil

open Program

/-- `SecureDir::atomic_write`. -/
def Host.atomic_write (host : Host) (dir : Nat) (name : String) (bytes : List UInt8) : Prog WriteReceipt :=
  host.atomic_write_checked dir name bytes true

/-- The entry is as it was, and so is the file behind it. -/
structure Keeps (dir : Nat) (name : String) (s t : Fs) : Prop where
  lookup : t.lookup dir name = s.lookup dir name
  file : ∀ bytes, FileAt s dir name bytes → FileAt t dir name bytes

/-- The old file or the complete new one. -/
def OldOrNew (dir : Nat) (name : String) (bytes : List UInt8) (s t : Fs) : Prop :=
  Keeps dir name s t ∨ FileAt t dir name bytes

/-- The new file after a success, the old one after an error. -/
def Replaced {α : Type} (dir : Nat) (name : String) (bytes : List UInt8) (s : Fs) (r : Result α) (t : Fs) : Prop :=
  Ends (fun _ => FileAt t dir name bytes) (fun _ => Keeps dir name s t) r

section

variable {α : Type} {s t u : Fs} {dir ino : Nat} {name temp : String} {bytes : List UInt8} {r : Result α}

theorem Replaced.keeps (hreplaced : Replaced dir name bytes s r t) (hkeeps : Keeps dir name t u) : Replaced dir name bytes s r u := by
  cases r with
  | ok value => exact hkeeps.file bytes hreplaced
  | error error => exact ⟨hkeeps.lookup.trans hreplaced.lookup, fun old hold => hkeeps.file old (hreplaced.file old hold)⟩

theorem Replaced.oldOrNew (hreplaced : Replaced dir name bytes s r t) : OldOrNew dir name bytes s t := by
  cases r with
  | ok value => exact .inr hreplaced
  | error error => exact .inl hreplaced

theorem keeps_unlinkat (hne : temp ≠ name) : Keeps dir name s (Fs.unlinkat dir temp s).2 where
  lookup := by
    obtain ⟨node, -, heq⟩ | ⟨-, error, heq⟩ := unlinkat_cases s dir temp <;> rw [heq]
    rw [Fs.lookup_remove, if_neg fun h => hne h.2.symm]
  file _ hfile := hfile.changes (changes_unlinkat s dir temp) fun h => hne h.2.symm

theorem renameat_file (hfile : PrivateFile s dir temp ino) (hne : temp ≠ name) :
    Fs.renameat dir temp name s = (.ok (), s.move dir temp name (.file ino) hfile.lookup) ∨
      ∃ error, Fs.renameat dir temp name s = (.error error, s) := by
  have hsource := hfile.lookup
  unfold Fs.renameat
  split
  · next hnone => cases hsource.symm.trans hnone
  · next hsource' _ =>
    cases Option.some.inj (hsource.symm.trans hsource')
    exact .inl rfl
  · next hsource' _ => cases hsource.symm.trans hsource'
  · next hsource' _ => cases hsource.symm.trans hsource'
  · exact .inr ⟨_, rfl⟩
  · next hsource' htarget =>
    cases Option.some.inj (hsource.symm.trans hsource')
    rw [if_neg]
    · exact .inl rfl
    · rintro rfl
      exact hne (Fs.eq_of_nlink hfile.nlink hsource htarget).2

end

section

variable {host : Host} {w : World} {dir : Nat} {name temp : String} {bytes : List UInt8}

theorem safe_rename {s : Fs} {ino : Nat} (hfile : PrivateFile w.fs dir temp ino) (hdata : (w.fs.inodes ino).data = bytes)
    (hne : temp ≠ name) (hkeeps : Keeps dir name s w.fs) :
    Safe (host.rename dir temp name) (fun _ t => OldOrNew dir name bytes s t.fs) (fun r t => Replaced dir name bytes s r t.fs) w := by
  have hrenamed : Replaced dir name bytes s (Fs.renameat dir temp name w.fs).1 (Fs.renameat dir temp name w.fs).2 := by
    obtain heq | ⟨error, heq⟩ := renameat_file hfile hne <;> rw [heq]
    · exact ⟨ino, hfile.move name, hdata⟩
    · exact hkeeps
  refine safe_ofExcept_bind (fun _ _ => safe_ofExcept_bind (fun _ _ => ?_) fun _ _ => hkeeps) fun _ _ => hkeeps
  refine (safe_syscall (fun _ => .inl hkeeps) hrenamed.oldOrNew).weaken ?_
  rintro r t (⟨rfl, rfl⟩ | ⟨rfl, ⟨text, rfl⟩, -⟩)
  · exact hrenamed
  · exact hkeeps

theorem safe_replace (hne : temp ≠ name) (hdir : dir < w.fs.next) :
    Safe (host.replace dir temp name bytes) (fun _ t => OldOrNew dir name bytes w.fs t.fs)
      (fun r t => Replaced dir name bytes w.fs r t.fs) w := by
  have hkeeps : ∀ {t : World}, Advances (Vacant w.fs dir temp) w t → Keeps dir name w.fs t.fs := by
    rintro t ⟨hchanges, -⟩
    have hkey : ¬Vacant w.fs dir temp dir name := fun h => hne h.2.1.symm
    exact ⟨hchanges.lookup dir name hdir hkey, fun _ hfile => hfile.changes hchanges hkey⟩
  refine ((safe_write_new host w dir temp bytes).mono (fun _ _ h => .inl (hkeeps h.2)) fun _ _ h => h).bind ?_ ?_
  · rintro ⟨⟩ t ⟨hadvances, hok, -⟩
    obtain ⟨-, ino, hfile, hdata⟩ := hok () rfl
    refine (safe_rename hfile hdata hne (hkeeps hadvances)).bind ?_ fun _ _ h => h
    rintro ⟨⟩ u hnew
    refine safe_sync.attempt.bind ?_ ?_
    · rintro synced v ⟨_, -, rfl, -⟩
      exact safe_pure hnew
    · rintro error v ⟨_, hsynced, -⟩
      cases hsynced
  · rintro error t ⟨hadvances, -⟩
    exact hkeeps hadvances

/-- At every durable step the file is the old one or the complete new one. It is the new one exactly
    if the call succeeds, whatever becomes of the sync. -/
theorem atomic_write_all_or_nothing (hname : ¬".write-".toList <+: name.toList) (hdir : dir < w.fs.next) :
    Safe (host.atomic_write dir name bytes) (fun _ t => OldOrNew dir name bytes w.fs t.fs)
      (fun r t => Replaced dir name bytes w.fs r t.fs) w := by
  have hrefl : Keeps dir name w.fs w.fs := ⟨rfl, fun _ hfile => hfile⟩
  refine safe_ofExcept_bind (fun _ _ => (safe_observe _).bind ?_ ?_) fun _ _ => hrefl
  · rintro _ _ ⟨rfl, -⟩
    have hnonce : Safe host.nonce (fun _ t => OldOrNew dir name bytes w.fs t.fs) (fun _ t => t.fs = w.fs) (w.advance w.fs) := by
      refine (safe_fill 16).bind ?_ ?_
      · rintro _ _ ⟨rfl, -⟩
        exact safe_pure rfl
      · rintro _ _ ⟨rfl, -⟩
        rfl
    refine hnonce.bind ?_ ?_
    · rintro nonce t hfs
      have hne : ".write-" ++ nonce ≠ name := by
        rintro rfl
        exact hname (by simp)
      have hreplace : Safe (host.replace dir (".write-" ++ nonce) name bytes) _ _ t := safe_replace hne (hfs ▸ hdir)
      rw [hfs] at hreplace
      refine hreplace.attempt.bind ?_ ?_
      · rintro result u ⟨_, houtcome, hreplaced⟩
        cases houtcome
        have hremoved := hreplaced.keeps (keeps_unlinkat hne)
        have hremove : Safe (host.remove_file dir (".write-" ++ nonce)) (fun _ t => OldOrNew dir name bytes w.fs t.fs)
            (fun _ t => Replaced dir name bytes w.fs result t.fs) u := by
          refine safe_ofExcept_bind (fun _ _ => ?_) fun _ _ => hreplaced
          refine (safe_syscall (fun _ => hreplaced.oldOrNew) hremoved.oldOrNew).weaken ?_
          rintro r v (⟨rfl, -⟩ | ⟨rfl, -⟩)
          · exact hremoved
          · exact hreplaced
        refine hremove.attempt.bind ?_ ?_
        · rintro _ v ⟨_, -, hlast⟩
          exact safe_ofExcept hlast
        · rintro error v ⟨_, houtcome, -⟩
          cases houtcome
      · rintro error u ⟨_, houtcome, -⟩
        cases houtcome
    · rintro error t hfs
      rw [hfs]
      exact hrefl
  · rintro error _ ⟨rfl, -⟩
    exact hrefl

/-- A write that is cut off after one byte. -/
theorem short_write_all_or_nothing : Safe (Host.atomic_write ⟨fun tick => if tick = 4 then some ⟨"", 1⟩ else none, fun _ _ => 0, fun _ => false⟩
    0 "state-v2.json" [1, 2]) (fun _ t => OldOrNew 0 "state-v2.json" [1, 2] .initial t.fs)
      (fun r t => Replaced 0 "state-v2.json" [1, 2] .initial r t.fs) ⟨.initial, 0, false⟩ :=
  atomic_write_all_or_nothing (by decide) Nat.one_pos

end

end zc.fsutil
