import Zc.Daemon.Stop

/-!
# Taking a stop request back

While the request file is there the stop check follows it without an error. Once the file is gone
the check ends well only if it has not begun to read.
-/

namespace zc.daemon

open fsutil

/-- The check has met no request. -/
def Check.Unseen : Check → Prop
  | .running => True
  | .left .other => True
  | _ => False

/-- What the check has seen of the request is the file as it is. -/
def Check.Follows (nonce : String) (fs : Fs) (ino : Nat) : Check → Prop
  | .running => True
  | .present => True
  | .opened file => file = .file ino
  | .checked file => file = .file ino
  | .captured file before => file = .file ino ∧ before = fs.metadata (.file ino)
  | .filled file before request => file = .file ino ∧ before = fs.metadata (.file ino) ∧ request = stop_request nonce
  | .matched => True
  | .left .other => True
  | .left _ => False

/-- The run loop ended without an error of the check. -/
def Check.Finished : Check → Prop
  | .left .stop_request => True
  | .left .other => True
  | _ => False

/-- A name that `atomic_write` may use for its scratch file. -/
def Temp (temp : String) : Prop :=
  ∃ random, temp = ".write-" ++ hex random

/-- The caller before its `renameat`, or with a publication that failed. -/
def Caller.Unpublished (nonce : String) (fs : Fs) : Caller → Prop
  | .publishing => True
  | .reopening => True
  | .naming => True
  | .creating temp => Temp temp
  | .created temp ino => Temp temp ∧ PrivateFile fs 0 temp ino ∧ (fs.inodes ino).data = []
  | .writing temp ino => Temp temp ∧ PrivateFile fs 0 temp ino ∧ (fs.inodes ino).data = []
  | .written temp => Temp temp ∧ FileAt fs 0 temp (stop_request nonce)
  | .cleaning temp published => Temp temp ∧ published = false
  | .waiting published => published = false
  | .revoked published _ => published = false
  | .dropped published _ => published = false

/-- The caller between its `renameat` and a `revoke` that succeeds. -/
def Caller.Published : Caller → Prop
  | .cleaning temp published => Temp temp ∧ published = true
  | .waiting published => published = true
  | .revoked published (.error _) => published = true
  | _ => False

/-- The caller has nothing left to do. -/
def Caller.Done : Caller → Prop
  | .revoked _ (.ok _) => True
  | .dropped _ _ => True
  | _ => False

inductive Invariant (nonce : String) (s : System) : Prop where
  | unpublished (hcaller : s.caller.Unpublished nonce s.fs) (hfree : s.fs.lookup 0 (stop_name nonce) = none)
      (hcheck : s.check.Unseen)
  | published (ino : Nat) (hcaller : s.caller.Published) (hfile : PrivateFile s.fs 0 (stop_name nonce) ino)
      (hdata : (s.fs.inodes ino).data = stop_request nonce) (hcheck : s.check.Follows nonce s.fs ino)
  | finished (hcaller : s.caller.Published) (hfree : s.fs.lookup 0 (stop_name nonce) = none) (hcheck : s.check.Finished)
  | done (hcaller : s.caller.Done)

section Names

variable {nonce temp : String}

theorem Temp.ne_stop_name (htemp : Temp temp) : temp ≠ stop_name nonce := by
  obtain ⟨random, rfl⟩ := htemp
  intro heq
  have hlist := congrArg String.toList heq
  rw [stop_name, String.toList_append, String.toList_append] at hlist
  cases hlist

/-- The request of an instance fits the limit of the check. -/
theorem length_stop_request {bytes : List UInt8} (hlength : bytes.length = 16) : (stop_request (hex bytes)).length = 33 := by
  have hlen : (stop_request (hex bytes)).length = str.len (hex bytes ++ "\n") := by
    rw [stop_request, str.bytes, Array.length_toList]
    rfl
  rw [hlen, str.len, String.utf8ByteSize_append]
  have hhex := len_hex bytes
  rw [str.len, hlength] at hhex
  rw [hhex]
  rfl

end Names

theorem unlinkat_free {fs : Fs} {name : String} (hfree : fs.lookup 0 name = none) :
    Fs.unlinkat 0 name fs = (.error not_found, fs) := by
  unfold Fs.unlinkat
  rw [hfree]

theorem unlinkat_file {fs : Fs} {ino : Nat} {name : String} (hfile : fs.lookup 0 name = some (.file ino)) :
    Fs.unlinkat 0 name fs = (.ok (), fs.remove 0 name) := by
  unfold Fs.unlinkat
  rw [hfile]

/-! ## Steps of the check -/

section Check

variable {nonce : String} {fs : Fs} {ino : Nat} {check : Check}

theorem Check.Unseen.step (hcheck : check.Unseen) (hfree : fs.lookup 0 (stop_name nonce) = none) :
    check.step nonce fs = (check, fs) := by
  cases check with
  | running => simp [Check.step, hfree]
  | left reason => simp [Check.step, unlinkat_free hfree]
  | _ => cases hcheck

theorem Check.Finished.step (hcheck : check.Finished) (hfree : fs.lookup 0 (stop_name nonce) = none) :
    check.step nonce fs = (check, fs) := by
  cases check with
  | left reason => simp [Check.step, unlinkat_free hfree]
  | _ => cases hcheck

theorem check_before_ok (hfile : PrivateFile fs 0 (stop_name nonce) ino) (hlength : (fs.inodes ino).data.length ≤ REQUEST_LIMIT) :
    check_before (fs.metadata (.file ino)) REQUEST_LIMIT = .ok () := by
  simp only [check_before, bind_eq_ok_iff, ensure_eq_ok_iff]
  refine ⟨(), ?_, (), ?_, decide_eq_true hlength⟩
  · simp [check_metadata, Fs.metadata, hfile.owned, hfile.nlink]
  · simp [Fs.metadata, hfile.mode]

theorem check_after_ok {m : Metadata} {bytes : List UInt8} (hlength : bytes.length = m.len) (hlimit : m.len ≤ REQUEST_LIMIT) :
    check_after m m bytes REQUEST_LIMIT = .ok () := by
  simp [check_after, hlength, hlimit]

/-- The check follows the file to its end, where it removes it. -/
theorem Check.Follows.step (hcheck : check.Follows nonce fs ino) (hfile : PrivateFile fs 0 (stop_name nonce) ino)
    (hdata : (fs.inodes ino).data = stop_request nonce) (hlength : (stop_request nonce).length = REQUEST_LIMIT) :
    ((check.step nonce fs).2 = fs ∧ (check.step nonce fs).1.Follows nonce fs ino) ∨
      ((check.step nonce fs).2 = fs.remove 0 (stop_name nonce) ∧ (check.step nonce fs).1.Finished) := by
  have hlimit : (fs.inodes ino).data.length ≤ REQUEST_LIMIT := by rw [hdata, hlength]
  cases check with
  | running => exact .inl ⟨rfl, by simp [Check.step, hfile.lookup, Check.Follows]⟩
  | present =>
    have hopen : open_node fs (stop_name nonce) = .ok (.file ino) := by
      rw [open_node, hfile.lookup]
    exact .inl ⟨rfl, by simp [Check.step, hopen, Check.orLeave, Check.Follows]⟩
  | opened file =>
    subst hcheck
    exact .inl ⟨rfl, by simp [Check.step, check_metadata_file hfile, Check.orLeave, Check.Follows]⟩
  | checked file =>
    subst hcheck
    exact .inl ⟨rfl, by simp [Check.step, check_before_ok hfile hlimit, Check.orLeave, Check.Follows]⟩
  | captured file before =>
    obtain ⟨rfl, rfl⟩ := hcheck
    have hread : (contents fs (.file ino)).take (REQUEST_LIMIT + 1) = stop_request nonce := by
      rw [contents, hdata, List.take_of_length_le]
      rw [hlength]
      exact Nat.le_succ _
    exact .inl ⟨rfl, rfl, rfl, hread⟩
  | filled file before request =>
    obtain ⟨rfl, rfl, rfl⟩ := hcheck
    have hafter : check_after (fs.metadata (.file ino)) (fs.metadata (.file ino)) (stop_request nonce) REQUEST_LIMIT = .ok () :=
      check_after_ok (by rw [← hdata]; rfl) hlimit
    exact .inl ⟨rfl, by simp [Check.step, hafter, Check.orLeave, Check.Follows]⟩
  | matched => exact .inr (by simp [Check.step, unlinkat_file hfile.lookup, Check.consumed, Check.Finished])
  | left reason =>
    cases reason with
    | other => exact .inr (by simp [Check.step, unlinkat_file hfile.lookup, Check.Finished])
    | _ => cases hcheck

end Check

/-! ## Steps of the caller -/

section Caller

variable {nonce : String} {s : System} {choice : Choice}

theorem call_fault {α : Type} {f : Fs → Result α × Fs} {fs : Fs} {fault : Fault} (hfault : choice.fault = some fault) :
    choice.call f fs = (.error (.io .Other fault.text), fs) := by
  rw [Choice.call, hfault]

theorem call_quiet {α : Type} {f : Fs → Result α × Fs} {fs : Fs} (hfault : choice.fault = none) :
    choice.call f fs = f fs := by
  rw [Choice.call, hfault]

/-- A fault of the machine does not make the request appear. -/
theorem Invariant.caller_fault {fault : Fault} (hfault : choice.fault = some fault) (hcaller : s.caller.Unpublished nonce s.fs)
    (hfree : s.fs.lookup 0 (stop_name nonce) = none) (hcheck : s.check.Unseen) :
    Invariant nonce (s.step nonce (.caller choice)) := by
  obtain ⟨fs, check, caller⟩ := s
  have hstays : ∀ {caller' : Caller} {fs' : Fs}, caller'.Unpublished nonce fs' → fs'.lookup 0 (stop_name nonce) = none →
      Invariant nonce ⟨fs', check, caller'⟩ := fun h hfree' => .unpublished h hfree' hcheck
  cases caller with
  | publishing | reopening | naming =>
    simp only [System.step, Caller.step, call_fault hfault]
    exact hstays rfl hfree
  | creating temp =>
    simp only [System.step, Caller.step, call_fault hfault]
    exact hstays ⟨hcaller, rfl⟩ hfree
  | created temp ino | written temp =>
    simp only [System.step, Caller.step, call_fault hfault]
    exact hstays ⟨hcaller.1, rfl⟩ hfree
  | writing temp ino =>
    simp only [System.step, Caller.step, hfault]
    exact hstays ⟨hcaller.1, rfl⟩ hfree
  | cleaning temp published =>
    simp only [System.step, Caller.step, call_fault hfault]
    exact hstays hcaller.2 hfree
  | waiting published | dropped published result =>
    simp only [System.step, Caller.step, call_fault hfault]
    exact hstays hcaller hfree
  | revoked published result =>
    cases result with
    | ok removed => exact .done trivial
    | error error =>
      simp only [System.step, Caller.step, call_fault hfault]
      exact hstays hcaller hfree

/-- Nothing but `renameat` makes the request appear. -/
theorem Invariant.caller_unpublished (hfault : choice.fault = none) (hcaller : s.caller.Unpublished nonce s.fs)
    (hfree : s.fs.lookup 0 (stop_name nonce) = none) (hcheck : s.check.Unseen) :
    Invariant nonce (s.step nonce (.caller choice)) := by
  obtain ⟨fs, check, caller⟩ := s
  have hstays : ∀ {caller' : Caller} {fs' : Fs}, caller'.Unpublished nonce fs' → fs'.lookup 0 (stop_name nonce) = none →
      Invariant nonce ⟨fs', check, caller'⟩ := fun h hfree' => .unpublished h hfree' hcheck
  cases caller with
  | publishing =>
    simp only [System.step, Caller.step, call_quiet hfault]
    cases fs.exists_entry 0 (stop_name nonce) with
    | error error => exact hstays rfl hfree
    | ok present => cases present <;> exact hstays trivial hfree
  | reopening =>
    simp only [System.step, Caller.step, call_quiet hfault]
    cases fs.open_file 0 (stop_name nonce) false with
    | error error => exact hstays rfl hfree
    | ok file => exact hstays trivial hfree
  | naming =>
    simp only [System.step, Caller.step, call_quiet hfault]
    exact hstays ⟨choice.random, rfl⟩ hfree
  | creating temp =>
    simp only [System.step, Caller.step, call_quiet hfault]
    obtain ⟨hdir, hnew, heq⟩ | ⟨-, heq⟩ | ⟨-, heq⟩ := create_cases fs 0 temp <;> rw [heq]
    · refine hstays ⟨hcaller, privateFile_addFile hnew hdir, ?_⟩ ?_
      · simp [Fs.addFile, Fs.addNew]
      · rw [Fs.lookup_addFile, if_neg fun h => hcaller.ne_stop_name h.2.symm]
        exact hfree
    · exact hstays ⟨hcaller, rfl⟩ hfree
    · exact hstays ⟨hcaller, rfl⟩ hfree
  | created temp ino =>
    simp only [System.step, Caller.step, call_quiet hfault, check_metadata_file hcaller.2.1]
    exact hstays hcaller hfree
  | writing temp ino =>
    simp only [System.step, Caller.step, hfault]
    have hfile := hcaller.2.1.append (stop_request nonce)
    rw [hcaller.2.2, List.nil_append] at hfile
    exact hstays ⟨hcaller.1, hfile⟩ hfree
  | written temp =>
    obtain ⟨htemp, ino, hfile, hdata⟩ := hcaller
    simp only [System.step, Caller.step, call_quiet hfault, renameat_free hfile.lookup hfree]
    refine .published ino ⟨htemp, rfl⟩ (hfile.move _) hdata ?_
    cases check with
    | running => trivial
    | left reason => cases reason <;> trivial
    | _ => cases hcheck
  | cleaning temp published =>
    simp only [System.step, Caller.step, call_quiet hfault]
    refine hstays hcaller.2 ?_
    rw [(changes_unlinkat fs 0 temp).lookup 0 _ fs.root_lt fun h => hcaller.1.ne_stop_name h.2.symm]
    exact hfree
  | waiting published =>
    simp only [System.step, Caller.step, call_quiet hfault, unlinkat_free hfree]
    exact hstays hcaller hfree
  | revoked published result =>
    cases result with
    | ok removed => exact .done trivial
    | error error =>
      simp only [System.step, Caller.step, call_quiet hfault, unlinkat_free hfree]
      exact hstays hcaller hfree
  | dropped published result => exact .done trivial

theorem Check.Follows.congr {check : Check} {fs fs' : Fs} {ino : Nat} (hcheck : check.Follows nonce fs ino)
    (hmetadata : fs'.metadata (.file ino) = fs.metadata (.file ino)) : check.Follows nonce fs' ino := by
  cases check with
  | captured file before => exact ⟨hcheck.1, hcheck.2.trans hmetadata.symm⟩
  | filled file before request => exact ⟨hcheck.1, hcheck.2.1.trans hmetadata.symm, hcheck.2.2⟩
  | left reason => cases reason <;> exact hcheck
  | _ => exact hcheck

/-- A published request stays until `revoke` removes it. -/
theorem Invariant.caller_published {ino : Nat} (hcaller : s.caller.Published) (hfile : PrivateFile s.fs 0 (stop_name nonce) ino)
    (hdata : (s.fs.inodes ino).data = stop_request nonce) (hcheck : s.check.Follows nonce s.fs ino) :
    Invariant nonce (s.step nonce (.caller choice)) := by
  obtain ⟨fs, check, caller⟩ := s
  cases caller with
  | cleaning temp published =>
    obtain ⟨htemp, rfl⟩ := hcaller
    cases hfault : choice.fault with
    | some fault =>
      simp only [System.step, Caller.step, call_fault hfault]
      exact .published ino rfl hfile hdata hcheck
    | none =>
      simp only [System.step, Caller.step, call_quiet hfault]
      have hchanges := changes_unlinkat fs 0 temp
      have hfile' := hfile.changes hchanges fun h => htemp.ne_stop_name h.2.symm
      have hinode := hchanges.inodes ino (Fs.lookup_file_lt hfile.lookup)
      refine .published ino rfl hfile' (by rw [hinode, hdata]) (hcheck.congr ?_)
      simp only [Fs.metadata, hinode, hfile'.nlink, hfile.nlink]
  | waiting published =>
    cases hfault : choice.fault with
    | some fault =>
      simp only [System.step, Caller.step, call_fault hfault]
      exact .published ino hcaller hfile hdata hcheck
    | none =>
      simp only [System.step, Caller.step, call_quiet hfault, unlinkat_file hfile.lookup]
      exact .done trivial
  | revoked published result =>
    cases result with
    | ok removed => cases hcaller
    | error error => exact .done trivial
  | _ => cases hcaller

theorem Invariant.caller_finished (hcaller : s.caller.Published) (hfree : s.fs.lookup 0 (stop_name nonce) = none)
    (hcheck : s.check.Finished) : Invariant nonce (s.step nonce (.caller choice)) := by
  obtain ⟨fs, check, caller⟩ := s
  cases caller with
  | cleaning temp published =>
    obtain ⟨htemp, rfl⟩ := hcaller
    refine .finished rfl ?_ hcheck
    cases hfault : choice.fault with
    | some fault =>
      simp only [System.step, Caller.step, call_fault hfault]
      exact hfree
    | none =>
      simp only [System.step, Caller.step, call_quiet hfault]
      rw [(changes_unlinkat fs 0 temp).lookup 0 _ fs.root_lt fun h => htemp.ne_stop_name h.2.symm]
      exact hfree
  | waiting published =>
    cases hfault : choice.fault with
    | some fault =>
      simp only [System.step, Caller.step, call_fault hfault]
      exact .finished hcaller hfree hcheck
    | none =>
      simp only [System.step, Caller.step, call_quiet hfault, unlinkat_free hfree]
      exact .done trivial
  | revoked published result =>
    cases result with
    | ok removed => cases hcaller
    | error error => exact .done trivial
  | _ => cases hcaller

theorem Caller.Done.step {caller : Caller} {fs : Fs} (hcaller : caller.Done) : caller.step nonce choice fs = (caller, fs) := by
  cases caller with
  | revoked published result =>
    cases result with
    | ok removed => rfl
    | error error => cases hcaller
  | dropped published result => rfl
  | _ => cases hcaller

end Caller

/-! ## Runs -/

section Runs

variable {nonce : String} {s : System}

theorem Invariant.leave (hinvariant : Invariant nonce s) : Invariant nonce (s.step nonce .leave) := by
  obtain ⟨fs, check, caller⟩ := s
  cases check with
  | running =>
    cases hinvariant with
    | unpublished hcaller hfree hcheck => exact .unpublished hcaller hfree trivial
    | published ino hcaller hfile hdata hcheck => exact .published ino hcaller hfile hdata trivial
    | finished hcaller hfree hcheck => cases hcheck
    | done hcaller => exact .done hcaller
  | _ => exact hinvariant

theorem Invariant.check (hlength : (stop_request nonce).length = REQUEST_LIMIT) (hinvariant : Invariant nonce s) :
    Invariant nonce (s.step nonce .check) := by
  obtain ⟨fs, check, caller⟩ := s
  cases hinvariant with
  | unpublished hcaller hfree hcheck =>
    have hstep := hcheck.step hfree
    simp only [System.step, hstep]
    exact .unpublished hcaller hfree hcheck
  | published ino hcaller hfile hdata hcheck =>
    simp only [System.step]
    obtain ⟨hfs, hfollows⟩ | ⟨hfs, hfinished⟩ := hcheck.step hfile hdata hlength
    · rw [hfs]
      exact .published ino hcaller hfile hdata hfollows
    · rw [hfs]
      refine .finished hcaller ?_ hfinished
      rw [Fs.lookup_remove, if_pos ⟨rfl, rfl⟩]
  | finished hcaller hfree hcheck =>
    have hstep := hcheck.step hfree
    simp only [System.step, hstep]
    exact .finished hcaller hfree hcheck
  | done hcaller => exact .done hcaller

theorem Invariant.step (hlength : (stop_request nonce).length = REQUEST_LIMIT) (hinvariant : Invariant nonce s) (event : Event) :
    Invariant nonce (s.step nonce event) := by
  cases event with
  | check => exact hinvariant.check hlength
  | leave => exact hinvariant.leave
  | caller choice =>
    cases hinvariant with
    | unpublished hcaller hfree hcheck =>
      cases hfault : choice.fault with
      | some fault => exact .caller_fault hfault hcaller hfree hcheck
      | none => exact .caller_unpublished hfault hcaller hfree hcheck
    | published ino hcaller hfile hdata hcheck => exact .caller_published hcaller hfile hdata hcheck
    | finished hcaller hfree hcheck => exact .caller_finished hcaller hfree hcheck
    | done hcaller =>
      simp only [System.step, hcaller.step]
      exact .done hcaller

theorem Invariant.run (hlength : (stop_request nonce).length = REQUEST_LIMIT) (hinvariant : Invariant nonce s)
    (events : List Event) : Invariant nonce (s.run nonce events) := by
  induction events generalizing s with
  | nil => exact hinvariant
  | cons event events ih => exact ih (hinvariant.step hlength event)

theorem Start.invariant (hstart : Start nonce s) : Invariant nonce s := by
  refine .unpublished ?_ hstart.free ?_
  · rw [hstart.caller]
    trivial
  · rw [hstart.check]
    trivial

/-! ### After a revocation -/

/-- The request is gone for good. -/
structure Gone (nonce : String) (s : System) : Prop where
  free : s.fs.lookup 0 (stop_name nonce) = none
  caller : s.caller.Done

/-- A check that no missing file can disturb. -/
def Check.Undisturbed : Check → Prop
  | .running => True
  | .matched => True
  | .left .other => True
  | _ => False

theorem Gone.step (hgone : Gone nonce s) (hcheck : s.check.Undisturbed) (event : Event) :
    Gone nonce (s.step nonce event) ∧ (s.step nonce event).check.Undisturbed := by
  obtain ⟨fs, check, caller⟩ := s
  obtain ⟨hfree, hcaller⟩ := hgone
  cases event with
  | check =>
    cases check with
    | running | left reason =>
      simp only [System.step, Check.step, unlinkat_free hfree, hfree]
      exact ⟨⟨hfree, hcaller⟩, hcheck⟩
    | matched =>
      simp only [System.step, Check.step, unlinkat_free hfree]
      exact ⟨⟨hfree, hcaller⟩, trivial⟩
    | _ => cases hcheck
  | leave =>
    cases check with
    | running => exact ⟨⟨hfree, hcaller⟩, trivial⟩
    | _ => exact ⟨⟨hfree, hcaller⟩, hcheck⟩
  | caller choice =>
    simp only [System.step, hcaller.step]
    exact ⟨⟨hfree, hcaller⟩, hcheck⟩

theorem Gone.run (hgone : Gone nonce s) (hcheck : s.check.Undisturbed) (events : List Event) :
    ¬(s.run nonce events).check.EndedByRequest := by
  induction events generalizing s with
  | nil =>
    intro hended
    obtain ⟨fs, check, caller⟩ := s
    cases check with
    | left reason =>
      cases reason with
      | other => exact hended
      | _ => exact hcheck
    | _ => cases hended
  | cons event events ih =>
    obtain ⟨hgone', hcheck'⟩ := hgone.step hcheck event
    exact ih hgone' hcheck'

/-- A check that is reading a file without a name ends the run loop. -/
theorem ended_of_reading {fs fs' : Fs} {check : Check} {caller : Caller} {ino : Nat} (hcheck : check.Follows nonce fs ino)
    (hreading : check.Reading) (hlink : fs.nlink ino = 1) (hlink' : fs'.nlink ino = 0)
    (hfree : fs'.lookup 0 (stop_name nonce) = none) :
    ∃ events, (System.run nonce ⟨fs', check, caller⟩ events).check.EndedByRequest := by
  have hunsafe : ∀ owner_only, check_metadata (fs'.metadata (.file ino)) false owner_only =
      .error (invalid "unsafe file ownership or hard links") := by
    intro owner_only
    simp [check_metadata, Fs.metadata, hlink', ensure, Bind.bind, Except.bind]
  have hafter : ∀ request, check_after (fs.metadata (.file ino)) (fs'.metadata (.file ino)) request REQUEST_LIMIT =
      .error (invalid "file metadata changed during capture") := by
    intro request
    simp [check_after, Fs.metadata, hlink, hlink', ensure, Bind.bind, Except.bind]
  cases check with
  | present =>
    have hopen : open_node fs' (stop_name nonce) = .error not_found := by rw [open_node, hfree]
    exact ⟨[.check], by simp [System.run, System.step, Check.step, hopen, Check.orLeave, Check.EndedByRequest]⟩
  | opened file =>
    subst hcheck
    exact ⟨[.check], by simp [System.run, System.step, Check.step, hunsafe, Check.orLeave, Check.EndedByRequest]⟩
  | checked file =>
    subst hcheck
    have hbefore : check_before (fs'.metadata (.file ino)) REQUEST_LIMIT =
        .error (invalid "unsafe file ownership or hard links") := by
      rw [check_before, hunsafe]
      rfl
    exact ⟨[.check], by simp [System.run, System.step, Check.step, hbefore, Check.orLeave, Check.EndedByRequest]⟩
  | captured file before =>
    obtain ⟨rfl, rfl⟩ := hcheck
    exact ⟨[.check, .check], by simp [System.run, System.step, Check.step, hafter, Check.orLeave, Check.EndedByRequest]⟩
  | filled file before request =>
    obtain ⟨rfl, rfl, -⟩ := hcheck
    exact ⟨[.check], by simp [System.run, System.step, Check.step, hafter, Check.orLeave, Check.EndedByRequest]⟩
  | _ => cases hreading

/-- What a `revoke` returns comes from its `unlinkat`. -/
theorem Caller.Revoking.step {caller : Caller} {fs : Fs} {choice : Choice} {published : Bool} {result : Result Bool}
    (hrevoking : caller.Revoking) (hresult : (caller.step nonce choice fs).1.revocation = some (published, result)) :
    result = revoke (choice.call (Fs.unlinkat 0 (stop_name nonce)) fs).1 ∧
      (caller.step nonce choice fs).2 = (choice.call (Fs.unlinkat 0 (stop_name nonce)) fs).2 ∧
      (caller.Unpublished nonce fs → published = false) ∧ (∀ removed, result = .ok removed → (caller.step nonce choice fs).1.Done) := by
  cases caller with
  | waiting _ =>
    cases hresult
    refine ⟨rfl, rfl, fun h => h, fun removed hremoved => ?_⟩
    simp only [Caller.step, hremoved]
    trivial
  | revoked _ earlier =>
    cases earlier with
    | ok removed => cases hrevoking
    | error error =>
      cases hresult
      exact ⟨rfl, rfl, fun h => h, fun _ _ => trivial⟩
  | _ => cases hrevoking

theorem Caller.Revoking.not_done {caller : Caller} (hrevoking : caller.Revoking) : ¬caller.Done := by
  intro hdone
  cases caller with
  | revoked _ earlier =>
    cases earlier with
    | ok removed => exact hrevoking
    | error error => exact hdone
  | waiting _ => exact hdone
  | _ => exact hrevoking

/-- A stop request that is taken back ends the daemon exactly if its check was reading the file; and
    one that was no longer there had been consumed, or the daemon had ended. -/
theorem revoke_takes_request_back {bytes : List UInt8} (hbytes : bytes.length = 16) (hnonce : nonce = hex bytes)
    {start : System} (hstart : Start nonce start) (events : List Event) (hs : s = start.run nonce events)
    (hrevoking : s.caller.Revoking) (choice : Choice) {published : Bool} {result : Result Bool}
    (hresult : (s.step nonce (.caller choice)).caller.revocation = some (published, result)) :
    (result = .ok true →
      ((∀ later, ¬((s.step nonce (.caller choice)).run nonce later).check.EndedByRequest) ↔ ¬s.check.Reading)) ∧
    (result = .ok false → published = true → s.check.Left) := by
  have hlength : (stop_request nonce).length = REQUEST_LIMIT := by rw [hnonce, length_stop_request hbytes]; rfl
  have hinvariant : Invariant nonce s := hs ▸ hstart.invariant.run hlength events
  obtain ⟨hrevoke, hfs, hunpublished, hdone⟩ := hrevoking.step hresult
  obtain ⟨fs, check, caller⟩ := s
  cases hfault : choice.fault with
  | some fault =>
    rw [call_fault hfault] at hrevoke
    rw [hrevoke]
    exact ⟨nofun, nofun⟩
  | none =>
    rw [call_quiet hfault] at hrevoke hfs
    cases hinvariant with
    | unpublished hcaller hfree hcheck =>
      rw [unlinkat_free hfree] at hrevoke
      refine ⟨fun htrue => ?_, fun _ hpublished => ?_⟩
      · cases hrevoke.symm.trans htrue
      · cases (hunpublished hcaller).symm.trans hpublished
    | finished hcaller hfree hcheck =>
      rw [unlinkat_free hfree] at hrevoke
      refine ⟨fun htrue => ?_, fun _ _ => ?_⟩
      · cases hrevoke.symm.trans htrue
      · cases check with
        | left reason => trivial
        | _ => cases hcheck
    | done hcaller => exact absurd hcaller hrevoking.not_done
    | published ino hcaller hfile hdata hcheck =>
      rw [unlinkat_file hfile.lookup] at hrevoke hfs
      refine ⟨fun _ => ?_, fun hfalse => ?_⟩
      · have hfree : (fs.remove 0 (stop_name nonce)).lookup 0 (stop_name nonce) = none := by
          rw [Fs.lookup_remove, if_pos ⟨rfl, rfl⟩]
        have hlink : (fs.remove 0 (stop_name nonce)).nlink ino = 0 := by
          have hone : fs.nlink ino = 1 := hfile.nlink
          have hremove : (fs.remove 0 (stop_name nonce)).nlink ino + 1 = fs.nlink ino := by
            simpa using Fs.nlink_remove hfile.lookup ino
          omega
        simp only [System.step, hfs]
        constructor
        · intro hnever hreading
          obtain ⟨later, hended⟩ := ended_of_reading hcheck hreading hfile.nlink hlink hfree
          exact hnever later hended
        · intro hreading
          have hundisturbed : check.Undisturbed := by
            cases check with
            | running | matched => trivial
            | left reason => cases reason <;> exact hcheck
            | _ => exact absurd trivial hreading
          exact Gone.run ⟨hfree, hdone true hrevoke⟩ hundisturbed
      · cases hrevoke.symm.trans hfalse

end Runs

/-- An instance, and the calls of a caller up to the wait for it. -/
def sampleNonce : String :=
  hex (List.replicate 16 0)

def sampleStart : System :=
  ⟨.initial, .running, .publishing⟩

def samplePublished : List Event :=
  List.replicate 7 (.caller ⟨[], none⟩)

theorem revoke_takes_request_back_sample :
    ((sampleStart.run sampleNonce samplePublished).step sampleNonce (.caller ⟨[], none⟩)).caller.revocation =
        some (true, .ok true) ∧
      ∀ later, ¬(((sampleStart.run sampleNonce samplePublished).step sampleNonce (.caller ⟨[], none⟩)).run sampleNonce
        later).check.EndedByRequest := by
  have hresult : ((sampleStart.run sampleNonce samplePublished).step sampleNonce (.caller ⟨[], none⟩)).caller.revocation =
      some (true, .ok true) := rfl
  have hstart : Start sampleNonce sampleStart := ⟨rfl, rfl, rfl⟩
  have hbytes : (List.replicate 16 (0 : UInt8)).length = 16 := rfl
  exact ⟨hresult, ((revoke_takes_request_back hbytes rfl hstart samplePublished rfl trivial ⟨[], none⟩ hresult).1 rfl).2 id⟩

/-- The check sees the request, the caller takes it back with success, and the daemon ends with an error. -/
theorem revoke_ends_daemon :
    Start sampleNonce sampleStart ∧ (sampleStart.run sampleNonce (samplePublished ++ [.check])).caller.Revoking ∧
      (sampleStart.run sampleNonce (samplePublished ++ [.check, .caller ⟨[], none⟩])).caller.revocation =
        some (true, .ok true) ∧
      (sampleStart.run sampleNonce (samplePublished ++ [.check, .caller ⟨[], none⟩, .check])).check.EndedByRequest :=
  ⟨⟨rfl, rfl, rfl⟩, trivial, rfl, trivial⟩

section Honoured

variable {nonce : String} {s : System}

/-- The check of a request that stays ends the run loop: at most seven calls, from wherever it is. -/
theorem Check.Follows.finishes {fs : Fs} {check : Check} {caller : Caller} {ino : Nat} (hcheck : check.Follows nonce fs ino)
    (hfile : PrivateFile fs 0 (stop_name nonce) ino) (hdata : (fs.inodes ino).data = stop_request nonce)
    (hlength : (stop_request nonce).length = REQUEST_LIMIT) :
    (System.run nonce ⟨fs, check, caller⟩ (List.replicate 7 .check)).check.Finished := by
  have hlimit : (fs.inodes ino).data.length ≤ REQUEST_LIMIT := by rw [hdata, hlength]
  have hopen : open_node fs (stop_name nonce) = .ok (.file ino) := by
    rw [open_node, hfile.lookup]
  have hread : (contents fs (.file ino)).take (REQUEST_LIMIT + 1) = stop_request nonce := by
    rw [contents, hdata, List.take_of_length_le (by omega)]
  have hafter : check_after (fs.metadata (.file ino)) (fs.metadata (.file ino)) (stop_request nonce) REQUEST_LIMIT = .ok () :=
    check_after_ok (by rw [← hdata]; rfl) hlimit
  cases check with
  | left reason =>
    cases reason with
    | other => trivial
    | _ => cases hcheck
  | _ =>
    simp only [Check.Follows] at hcheck
    simp [System.run, System.step, Check.step, Check.orLeave, Check.consumed, Check.Finished, List.replicate, hcheck, hfile.lookup,
      hopen, check_metadata_file hfile, check_before_ok hfile hlimit, hread, hafter, unlinkat_file hfile.lookup]

/-- While the caller waits for the request it has published, the next seven calls of the check end
    the run loop, if nothing else has, and without an error of the check. -/
theorem stop_request_honoured {bytes : List UInt8} (hbytes : bytes.length = 16) (hnonce : nonce = hex bytes) {start : System}
    (hstart : Start nonce start) (events : List Event) (hwaiting : (start.run nonce events).caller = .waiting true) :
    ((start.run nonce events).run nonce (List.replicate 7 .check)).check.Finished := by
  have hlength : (stop_request nonce).length = REQUEST_LIMIT := by rw [hnonce, length_stop_request hbytes]; rfl
  cases hstart.invariant.run hlength events with
  | unpublished hcaller =>
    rw [hwaiting] at hcaller
    cases hcaller
  | published ino _ hfile hdata hcheck => exact hcheck.finishes hfile hdata hlength
  | finished _ hfree hcheck =>
    have hstep : (start.run nonce events).step nonce .check = start.run nonce events := by
      rw [System.step, hcheck.step hfree]
    rw [System.run]
    simpa only [List.replicate, List.foldl_cons, List.foldl_nil, hstep] using hcheck
  | done hcaller =>
    rw [hwaiting] at hcaller
    cases hcaller

theorem stop_request_honoured_sample :
    (sampleStart.run sampleNonce samplePublished).caller = .waiting true ∧
      ((sampleStart.run sampleNonce samplePublished).run sampleNonce (List.replicate 7 .check)).check.Finished := by
  have hstart : Start sampleNonce sampleStart := ⟨rfl, rfl, rfl⟩
  have hbytes : (List.replicate 16 (0 : UInt8)).length = 16 := rfl
  exact ⟨rfl, stop_request_honoured hbytes rfl hstart samplePublished rfl⟩

end Honoured

end zc.daemon
