import Zc.Fsutil.Held

/-!
# What the calls of a directory do

For each program on a directory: which entries it may change at any durable step, what a success
leaves, and when it must succeed on a machine without faults.
-/

namespace zc.fsutil

open Program

/-- No call fails and no lock is kept from the process. -/
structure Host.Quiet (host : Host) : Prop where
  fault : ∀ tick, host.fault tick = none
  busy : ∀ tick, host.busy tick = false

theorem single_component_of_length {name : String} (hlength : 2 < name.toList.length)
    (hchars : ∀ c ∈ name.toList, c ≠ '/' ∧ c ≠ '\\' ∧ c ≠ '\x00') : single_component name = true := by
  have hne : ∀ short : String, short.toList.length ≤ 2 → name ≠ short := by
    rintro short hshort rfl
    omega
  simp only [single_component, Bool.and_eq_true, bne_iff_ne, List.all_eq_true]
  refine ⟨⟨⟨hne "" (by decide), hne "." (by decide)⟩, hne ".." (by decide)⟩, ?_⟩
  intro c hc
  exact ⟨⟨(hchars c hc).1, (hchars c hc).2.1⟩, (hchars c hc).2.2⟩

theorem ne_separator_of_isHexDigit {c : Char} (hc : isHexDigit c = true) : c ≠ '/' ∧ c ≠ '\\' ∧ c ≠ '\x00' := by
  refine ⟨?_, ?_, ?_⟩ <;> rintro rfl <;> exact absurd hc (by decide)

/-- Later, with changes in `T` only. -/
structure Advances (T : Nat → String → Prop) (w t : World) : Prop where
  changes : Changes T w.fs t.fs
  tick : w.tick ≤ t.tick

namespace Advances

variable {T T' : Nat → String → Prop} {w t u : World}

/-- The clock may have run before. -/
theorem start {w' : World} (hadvances : Advances T w' t) (hfs : w'.fs = w.fs) (htick : w.tick ≤ w'.tick) : Advances T w t :=
  ⟨hfs ▸ hadvances.changes, Nat.le_trans htick hadvances.tick⟩

theorem advance (hadvances : Advances T w t) : Advances T w (t.advance t.fs) :=
  ⟨hadvances.changes, Nat.le_succ_of_le hadvances.tick⟩

end Advances

section Primitives

variable {α : Type} {host : Host} {w : World} {crash : Step → World → Prop}

/-- A call reports its own result, or a fault of the machine. -/
theorem safe_observe (f : Fs → Result α) :
    Safe (host.observe f) crash (fun r t => t = w.advance w.fs ∧ (∀ value, r = .ok value → f w.fs = .ok value) ∧
      (host.Quiet → r = f w.fs)) w := by
  refine safe_query ?_
  unfold Host.call
  cases hfault : host.fault w.tick with
  | none => exact ⟨rfl, fun _ h => h, fun _ => rfl⟩
  | some fault =>
    refine ⟨rfl, nofun, fun hquiet => ?_⟩
    rw [hquiet.fault] at hfault
    cases hfault

theorem safe_syscall {label : Step} {f : Fs → Result α × Fs} (hfault : ¬host.Quiet → crash label (w.advance w.fs))
    (hdone : crash label (w.advance (f w.fs).2)) :
    Safe (host.syscall label f) crash (fun r t =>
      (t = w.advance (f w.fs).2 ∧ r = (f w.fs).1) ∨
      (t = w.advance w.fs ∧ (∃ text, r = .error (.io .Other text)) ∧ ¬host.Quiet)) w := by
  have hcall : (host.call f w = ((f w.fs).1, w.advance (f w.fs).2)) ∨
      ((∃ text, host.call f w = (.error (.io .Other text), w.advance w.fs)) ∧ ¬host.Quiet) := by
    unfold Host.call
    cases hfault : host.fault w.tick with
    | none => exact .inl rfl
    | some fault =>
      refine .inr ⟨⟨fault.text, rfl⟩, fun hquiet => ?_⟩
      rw [hquiet.fault] at hfault
      cases hfault
  unfold Host.syscall
  obtain hcall | ⟨⟨text, hcall⟩, hnoisy⟩ := hcall
  · exact safe_step (by rw [hcall]; exact hdone) (.inl (by rw [hcall]; exact ⟨rfl, rfl⟩))
  · exact safe_step (by rw [hcall]; exact hfault hnoisy) (.inr (by rw [hcall]; exact ⟨rfl, ⟨text, rfl⟩, hnoisy⟩))

theorem safe_sync_all :
    Safe host.sync_all crash (fun r t => t = w.advance w.fs ∧ (host.Quiet → r = .ok ())) w :=
  Safe.weaken (safe_observe _) fun _ _ h => ⟨h.1, h.2.2⟩

theorem safe_sync : Safe host.sync crash (fun r t => t = w.advance w.fs ∧ (host.Quiet → r = .ok ())) w :=
  safe_sync_all

theorem safe_fill (count : Nat) :
    Safe (host.fill count) crash (fun r t => t = w.advance w.fs ∧
      (∀ bytes, r = .ok bytes → bytes = (List.range count).map (host.random w.tick)) ∧
      (host.Quiet → ∃ bytes, r = .ok bytes)) w := by
  refine safe_query ?_
  cases hfault : host.fault w.tick with
  | none => exact ⟨rfl, fun _ h => (Except.ok.inj h).symm, fun _ => ⟨_, rfl⟩⟩
  | some fault =>
    refine ⟨rfl, nofun, fun hquiet => ?_⟩
    rw [hquiet.fault] at hfault
    cases hfault

end Primitives

/-! ## Files -/

/-- Exclusive creation of a free name, or nothing. -/
def Created (s : Fs) (dir : Nat) (name : String) (t : Fs) : Prop :=
  t = s ∨ s.lookup dir name = none ∧ ∃ hdir, t = s.addFile dir name hdir

theorem Created.changes {s t : Fs} {dir : Nat} {name : String} (hcreated : Created s dir name t) :
    Changes (Vacant s dir name) s t := by
  obtain rfl | ⟨hfree, hdir, rfl⟩ := hcreated
  · exact .refl _ _
  · exact changes_addFile hfree hdir

theorem privateFile_addFile {s : Fs} {dir : Nat} {name : String} (hfree : s.lookup dir name = none) (hdir : dir < s.next) :
    PrivateFile (s.addFile dir name hdir) dir name s.next := by
  refine ⟨?_, ?_, ?_, ?_⟩
  · rw [Fs.lookup_addFile, if_pos ⟨rfl, rfl⟩]
  · simp [Fs.addFile, Fs.addNew]
  · rw [Fs.nlink_addFile hfree, Fs.nlink_next_eq_zero, if_pos rfl]
  · simp [Fs.addFile, Fs.addNew]

/-- What is written to a new file is all it holds. -/
theorem fileAt_addFile {s : Fs} {dir : Nat} {name : String} (hfree : s.lookup dir name = none) (hdir : dir < s.next)
    (bytes : List UInt8) : FileAt ((s.addFile dir name hdir).append s.next bytes) dir name bytes := by
  have hfile := (privateFile_addFile hfree hdir).append bytes
  simpa [Fs.addFile, Fs.addNew] using hfile

section Files

variable (host : Host) (w : World) (dir : Nat) (name : String)

theorem safe_create_file :
    Safe (host.create_file dir name) (fun label t => label = .create ∧ Created w.fs dir name t.fs ∧ w.tick ≤ t.tick)
      (fun r t => Created w.fs dir name t.fs ∧ w.tick ≤ t.tick ∧
        (∀ ino, r = .ok ino → ino = w.fs.next ∧ w.fs.lookup dir name = none ∧ ∃ hdir, t.fs = w.fs.addFile dir name hdir) ∧
        (host.Quiet → single_component name → dir < w.fs.next → w.fs.lookup dir name = none → ∃ ino, r = .ok ino)) w := by
  have hcreated : Created w.fs dir name (Fs.create dir name w.fs).2 := by
    obtain ⟨hdir, hfree, heq⟩ | ⟨-, heq⟩ | ⟨-, heq⟩ := create_cases w.fs dir name <;> rw [heq]
    · exact .inr ⟨hfree, hdir, rfl⟩
    · exact .inl rfl
    · exact .inl rfl
  refine safe_ofExcept_bind ?_ ?_
  · rintro ⟨⟩ -
    refine (safe_syscall (fun _ => ⟨rfl, .inl rfl, Nat.le_succ _⟩) ⟨rfl, hcreated, Nat.le_succ _⟩).bind ?_ ?_
    · rintro ino t (⟨rfl, hino⟩ | ⟨-, ⟨text, herror⟩, -⟩)
      · obtain ⟨hdir, hfree, heq⟩ | ⟨hnode, heq⟩ | ⟨hdir, heq⟩ := create_cases w.fs dir name <;> rw [heq] at hino hcreated ⊢
        · cases hino
          refine (safe_observe _).bind ?_ ?_
          · rintro ⟨⟩ t ⟨rfl, -, -⟩
            refine safe_pure ⟨hcreated, Nat.le_add_right _ 2, ?_, fun _ _ _ _ => ⟨_, rfl⟩⟩
            intro ino h
            exact ⟨(Except.ok.inj h).symm, hfree, hdir, rfl⟩
          · rintro error t ⟨rfl, -, hquiet⟩
            refine ⟨hcreated, Nat.le_add_right _ 2, nofun, fun hq _ _ _ => ?_⟩
            have hcheck := check_metadata_file (privateFile_addFile hfree hdir)
            cases (hquiet hq).trans hcheck
        · cases hino
        · cases hino
      · cases herror
    · rintro error t (⟨rfl, herror⟩ | ⟨rfl, -, hnoisy⟩)
      · refine ⟨hcreated, Nat.le_succ _, nofun, fun _ _ hdir hfree => ?_⟩
        obtain ⟨_, -, heq⟩ | ⟨hnode, -⟩ | ⟨hdir', -⟩ := create_cases w.fs dir name
        · rw [heq] at herror
          cases herror
        · exact absurd hfree hnode
        · exact absurd hdir hdir'
      · exact ⟨.inl rfl, Nat.le_succ _, nofun, fun hq => absurd hq hnoisy⟩
  · intro error hname
    refine ⟨.inl rfl, Nat.le_refl _, nofun, fun _ hsingle => ?_⟩
    cases hname.symm.trans (component_eq_ok hsingle)

theorem safe_write_all (ino : Nat) (bytes : List UInt8) {crash : Step → World → Prop}
    (hcrash : ∀ written, crash .write (w.advance (w.fs.append ino written))) :
    Safe (host.write_all ino bytes) crash (fun r t => (∃ written, t = w.advance (w.fs.append ino written)) ∧
      (∀ u, r = .ok u → t = w.advance (w.fs.append ino bytes)) ∧ (host.Quiet → r = .ok ())) w := by
  unfold Host.write_all
  cases hfault : host.fault w.tick with
  | none =>
    refine safe_step ?_ ?_
    · rw [hfault]
      exact hcrash bytes
    · rw [hfault]
      exact ⟨⟨bytes, rfl⟩, fun _ _ => rfl, fun _ => rfl⟩
  | some fault =>
    refine safe_step ?_ ?_
    · rw [hfault]
      exact hcrash _
    · rw [hfault]
      refine ⟨⟨_, rfl⟩, nofun, fun hquiet => ?_⟩
      rw [hquiet.fault] at hfault
      cases hfault

/-- `write_new` leaves a complete file or fails; the only entry it touches is the new one. -/
theorem safe_write_new (bytes : List UInt8) :
    Safe (host.write_new dir name bytes) (fun label t => label ≠ .link ∧ Advances (Vacant w.fs dir name) w t)
      (fun r t => Advances (Vacant w.fs dir name) w t ∧
        (∀ u, r = .ok u → w.fs.lookup dir name = none ∧ FileAt t.fs dir name bytes) ∧
        (host.Quiet → single_component name → dir < w.fs.next → w.fs.lookup dir name = none → r = .ok ())) w := by
  refine ((safe_create_file host w dir name).mono ?_ fun _ _ h => h).bind ?_ ?_
  · rintro _ t ⟨rfl, hcreated, htick⟩
    exact ⟨nofun, hcreated.changes, htick⟩
  · rintro ino t ⟨hcreated, htick, hok, -⟩
    obtain ⟨rfl, hfree, hdir, heq⟩ := hok ino rfl
    have happend : ∀ written, Advances (Vacant w.fs dir name) w (t.advance (t.fs.append w.fs.next written)) :=
      fun written => ⟨hcreated.changes.append (Nat.le_refl _) written, Nat.le_succ_of_le htick⟩
    refine (safe_write_all host t w.fs.next bytes fun written => ⟨nofun, happend written⟩).bind ?_ ?_
    · rintro ⟨⟩ u ⟨-, hwritten, -⟩
      obtain rfl := hwritten () rfl
      refine safe_sync_all.weaken ?_
      rintro r v ⟨rfl, hquiet⟩
      refine ⟨(happend bytes).advance, fun _ _ => ⟨hfree, ?_⟩, fun hq _ _ _ => hquiet hq⟩
      have hfile := fileAt_addFile hfree hdir bytes
      rwa [← heq] at hfile
    · rintro error u ⟨⟨written, rfl⟩, -, hquiet⟩
      exact ⟨happend written, nofun, fun hq _ _ _ => nomatch hquiet hq⟩
  · rintro error t ⟨hcreated, htick, -, hquiet⟩
    refine ⟨⟨hcreated.changes, htick⟩, nofun, fun hq hname hdir hfree => ?_⟩
    obtain ⟨ino, hino⟩ := hquiet hq hname hdir hfree
    cases hino

end Files

/-! ## Locks -/

section Locks

variable (host : Host) (w : World) (dir : Nat) (name : String)

theorem Created.trans {s t u : Fs} {dir : Nat} {name : String} (hst : Created s dir name t) (htu : Created t dir name u) :
    Created s dir name u := by
  obtain rfl | ⟨hfree, hdir, rfl⟩ := hst
  · exact htu
  · obtain rfl | ⟨hfree', -⟩ := htu
    · exact .inr ⟨hfree, hdir, rfl⟩
    · cases hfree'.symm.trans (privateFile_addFile hfree hdir).lookup

theorem safe_create_lock :
    Safe (host.create_lock dir name) (fun label t => label = .create ∧ Created w.fs dir name t.fs ∧ w.tick ≤ t.tick)
      (fun r t => Created w.fs dir name t.fs ∧ w.tick ≤ t.tick ∧
        (host.Quiet → single_component name → dir < w.fs.next → w.fs.lookup dir name = none →
          r = .ok () ∧ ∃ ino, PrivateFile t.fs dir name ino)) w := by
  unfold Host.create_lock
  refine (safe_create_file host w dir name).attempt.bind ?_ ?_
  · rintro result t ⟨_, hresult, hcreated, htick, hok, hquiet⟩
    cases hresult
    cases result with
    | ok ino =>
      obtain ⟨-, hfree, hdir, heq⟩ := hok ino rfl
      refine safe_sync_all.bind ?_ ?_
      · rintro ⟨⟩ u ⟨rfl, -⟩
        refine safe_sync.weaken ?_
        rintro r v ⟨rfl, hok'⟩
        refine ⟨hcreated, Nat.le_trans htick (Nat.le_add_right _ 2), fun hq _ _ _ => ⟨hok' hq, w.fs.next, ?_⟩⟩
        have hfile := privateFile_addFile hfree hdir
        rwa [← heq] at hfile
      · rintro error u ⟨rfl, hok'⟩
        exact ⟨hcreated, Nat.le_succ_of_le htick, fun hq _ _ _ => nomatch hok' hq⟩
    | error error =>
      have hpost : ∀ r : Result Unit, Created w.fs dir name t.fs ∧ w.tick ≤ t.tick ∧
          (host.Quiet → single_component name → dir < w.fs.next → w.fs.lookup dir name = none →
            r = .ok () ∧ ∃ ino, PrivateFile t.fs dir name ino) := by
        refine fun r => ⟨hcreated, htick, fun hq hname hdir hfree => ?_⟩
        obtain ⟨ino, hino⟩ := hquiet hq hname hdir hfree
        cases hino
      split
      · next heq => cases heq
      · exact safe_pure (hpost _)
      · exact safe_ofExcept (hpost _)
  · rintro error t ⟨_, hresult, -⟩
    cases hresult

theorem open_file_absent {fs : Fs} {write : Bool} (hname : single_component name = true) (hfree : fs.lookup dir name = none) :
    fs.open_file dir name write = .error not_found := by
  unfold Fs.open_file Fs.open_checked_file Fs.openat
  rw [component_eq_ok hname, hfree]
  rfl

/-- What a loop that opens a lock file leaves. -/
structure Opened (dir : Nat) (name : String) (r : Result Metadata) (t : World) : Prop where
  created : Created w.fs dir name t.fs
  tick : w.tick ≤ t.tick
  ok : ∀ m, r = .ok m → ∃ ino, PrivateFile t.fs dir name ino ∧ m = t.fs.metadata (.file ino)

theorem safe_try_lock {crash : Step → World → Prop} :
    Safe host.try_lock crash (fun r t => t = w.advance w.fs ∧ (host.Quiet → r = .ok ())) w := by
  refine safe_query ?_
  cases hbusy : host.busy w.tick with
  | true =>
    refine ⟨rfl, fun hquiet => ?_⟩
    rw [hquiet.busy] at hbusy
    cases hbusy
  | false => exact ⟨rfl, fun _ => rfl⟩

theorem safe_open_lock_round (room : Prop) {again : Prog Metadata}
    (hagain : ∀ t, Created w.fs dir name t.fs → w.tick ≤ t.tick →
      Safe again (fun label u => label = .create ∧ Created t.fs dir name u.fs ∧ t.tick ≤ u.tick)
        (fun r u => Opened t dir name r u ∧
          (host.Quiet → single_component name → room → (∃ ino, PrivateFile t.fs dir name ino) → ∃ m, r = .ok m)) t) :
    Safe (host.open_lock_round dir name again)
      (fun label t => label = .create ∧ Created w.fs dir name t.fs ∧ w.tick ≤ t.tick)
      (fun r t => Opened w dir name r t ∧ (host.Quiet → single_component name →
        (∃ ino, PrivateFile w.fs dir name ino) ∨ dir < w.fs.next ∧ w.fs.lookup dir name = none ∧ room → ∃ m, r = .ok m)) w := by
  unfold Host.open_lock_round
  refine (Safe.attempt (safe_observe _)).bind ?_ ?_
  · rintro result t ⟨_, hresult, rfl, hok, hquiet⟩
    cases hresult
    split
    · next m =>
      obtain ⟨-, hfile⟩ := open_file_eq_ok_iff.1 (hok m rfl)
      refine safe_pure ⟨⟨.inl rfl, Nat.le_succ _, fun m' hm' => ?_⟩, fun _ _ _ => ⟨m, rfl⟩⟩
      cases hm'
      exact hfile
    · next text =>
      refine ((safe_create_lock host (w.advance w.fs) dir name).mono ?_ fun _ _ h => h).bind ?_ ?_
      · rintro label u ⟨hlabel, hcreated, htick⟩
        exact ⟨hlabel, hcreated, Nat.le_of_succ_le htick⟩
      · rintro ⟨⟩ u ⟨hcreated, htick, hquiet'⟩
        refine (hagain u hcreated (Nat.le_of_succ_le htick)).mono ?_ ?_
        · rintro label v ⟨hlabel, hcreated', htick'⟩
          exact ⟨hlabel, hcreated.trans hcreated', Nat.le_trans (Nat.le_of_succ_le htick) htick'⟩
        · rintro r v ⟨hopened, hquiet''⟩
          refine ⟨⟨hcreated.trans hopened.created, Nat.le_trans (Nat.le_of_succ_le htick) hopened.tick, hopened.ok⟩, ?_⟩
          rintro hq hname (⟨ino, hfile⟩ | ⟨hdir, hfree, hroom⟩)
          · cases (hquiet hq).trans (open_file_eq_ok_iff.2 ⟨hname, ino, hfile, rfl⟩)
          · exact hquiet'' hq hname hroom (hquiet' hq hname hdir hfree).2
      · rintro error u ⟨hcreated, htick, hquiet'⟩
        refine ⟨⟨hcreated, Nat.le_of_succ_le htick, nofun⟩, ?_⟩
        rintro hq hname (⟨ino, hfile⟩ | ⟨hdir, hfree, -⟩)
        · cases (hquiet hq).trans (open_file_eq_ok_iff.2 ⟨hname, ino, hfile, rfl⟩)
        · cases (hquiet' hq hname hdir hfree).1
    · next error hkind =>
      refine safe_ofExcept ⟨⟨.inl rfl, Nat.le_succ _, nofun⟩, ?_⟩
      rintro hq hname (⟨ino, hfile⟩ | ⟨-, hfree, -⟩)
      · cases (hquiet hq).trans (open_file_eq_ok_iff.2 ⟨hname, ino, hfile, rfl⟩)
      · cases (hquiet hq).trans (open_file_absent dir name hname hfree)
        exact absurd rfl (hkind _)
  · rintro error t ⟨_, hresult, -⟩
    cases hresult

theorem safe_open_lock (rounds : Nat) :
    Safe (host.open_lock dir name rounds)
      (fun label t => label = .create ∧ Created w.fs dir name t.fs ∧ w.tick ≤ t.tick)
      (fun r t => Opened w dir name r t ∧ (host.Quiet → single_component name →
        (∃ ino, PrivateFile w.fs dir name ino) ∨ dir < w.fs.next ∧ w.fs.lookup dir name = none ∧ 0 < rounds →
          ∃ m, r = .ok m)) w := by
  induction rounds generalizing w with
  | zero =>
    refine safe_open_lock_round host w dir name (0 < 0) fun t _ _ => ?_
    exact safe_ofExcept ⟨⟨.inl rfl, Nat.le_refl _, nofun⟩, fun _ _ hroom => absurd hroom (Nat.lt_irrefl 0)⟩
  | succ rounds ih =>
    refine safe_open_lock_round host w dir name (0 < rounds + 1) fun t _ _ => ?_
    refine (ih t).weaken fun r u h => ⟨h.1, fun hq hname _ hfile => h.2 hq hname (.inl hfile)⟩

/-- A lock that is held is the private file of its name. -/
theorem safe_lock (timeout : Nat) :
    Safe (host.lock dir name timeout)
      (fun label t => label = .create ∧ Created w.fs dir name t.fs ∧ w.tick ≤ t.tick)
      (fun r t => Created w.fs dir name t.fs ∧ w.tick ≤ t.tick ∧ (∀ guard, r = .ok guard → PrivateFile t.fs dir name guard) ∧
        (host.Quiet → single_component name →
          (∃ ino, PrivateFile w.fs dir name ino) ∨ dir < w.fs.next ∧ w.fs.lookup dir name = none ∧ 0 < timeout →
            ∃ guard, r = .ok guard)) w := by
  unfold Host.lock
  refine (safe_open_lock host w dir name timeout).bind ?_ ?_
  · rintro m t ⟨hopened, -⟩
    obtain ⟨ino, hfile, rfl⟩ := hopened.ok m rfl
    refine (safe_try_lock host t).bind ?_ ?_
    · rintro ⟨⟩ u ⟨rfl, -⟩
      refine (safe_observe _).bind ?_ ?_
      · rintro ⟨⟩ v ⟨rfl, -, -⟩
        refine safe_pure ⟨hopened.created, Nat.le_trans hopened.tick (Nat.le_add_right _ 2), ?_, fun _ _ _ => ⟨_, rfl⟩⟩
        intro guard hguard
        cases hguard
        exact hfile
      · rintro error v ⟨rfl, -, hquiet⟩
        refine ⟨hopened.created, Nat.le_trans hopened.tick (Nat.le_add_right _ 2), nofun, fun hq hname _ => ?_⟩
        cases (hquiet hq).trans (validate_eq_ok_iff (u := ()).2 ⟨hname, hfile⟩)
    · rintro error u ⟨rfl, hquiet⟩
      exact ⟨hopened.created, Nat.le_succ_of_le hopened.tick, nofun, fun hq _ _ => nomatch hquiet hq⟩
  · rintro error t ⟨hopened, hquiet⟩
    refine ⟨hopened.created, hopened.tick, nofun, fun hq hname hready => ?_⟩
    obtain ⟨m, hm⟩ := hquiet hq hname hready
    cases hm

end Locks

end zc.fsutil
