import Zc.Daemon.Control
import Zc.Lib.Labels

/-!
# Steps of a control

What the actions of a control read and write: a spec for each, and the rules that compose them.
-/

namespace zc.daemon

open store Program

/-- Where a run of an action ends, whatever its durable steps were. -/
abbrev Ends {α : Type} (action : Action α) (post : Result α → Control → Prop) (s : Control) : Prop :=
  Safe action (fun _ _ => True) post s

/-- An action that changes nothing, with what it returns. -/
abbrev Reads {α : Type} (action : Action α) (post : α → Prop) (s : Control) : Prop :=
  Ends action (fun result t => t = s ∧ ∀ value, result = .ok value → post value) s

section Rules

variable {α β : Type} {action : Action α} {next : α → Action β} {post : α → Prop} {after : β → Prop}
  {goal : Result β → Control → Prop} {s : Control}

theorem Reads.ends_bind (hreads : Reads action post s) (hok : ∀ value, post value → Ends (next value) goal s)
    (herror : ∀ error, goal (.error error) s) : Ends (action >>= next) goal s := by
  refine Safe.bind hreads ?_ ?_
  · rintro value t ⟨rfl, hpost⟩
    exact hok value (hpost value rfl)
  · rintro error t ⟨rfl, -⟩
    exact herror error

theorem Reads.bind (hreads : Reads action post s) (hok : ∀ value, post value → Reads (next value) after s) :
    Reads (action >>= next) after s :=
  hreads.ends_bind hok fun _ => ⟨rfl, nofun⟩

theorem Reads.weaken {post' : α → Prop} (hreads : Reads action post s) (hpost : ∀ value, post value → post' value) :
    Reads action post' s :=
  Safe.weaken hreads fun _ _ hend => ⟨hend.1, fun value hvalue => hpost value (hend.2 value hvalue)⟩

theorem reads_ofExcept (result : Result α) : Reads (.ofExcept result) (fun value => result = .ok value) s :=
  safe_ofExcept ⟨rfl, fun _ hvalue => hvalue⟩

theorem reads_pure {value : α} (hpost : post value) : Reads (pure value) post s :=
  safe_pure ⟨rfl, fun _ hvalue => Except.ok.inj hvalue ▸ hpost⟩

theorem reads_getSelf : Reads getSelf (fun value => s = value) s :=
  safe_query ⟨rfl, fun _ hvalue => Except.ok.inj hvalue⟩

theorem ends_getSelf_bind {next : Control → Action β} (hnext : Ends (next s) goal s) : Ends (getSelf >>= next) goal s := by
  have hself : Ends getSelf (fun result t => result = .ok s ∧ t = s) s := safe_query ⟨rfl, rfl⟩
  refine Safe.bind hself ?_ ?_
  · rintro _ _ ⟨hresult, rfl⟩
    obtain rfl := Except.ok.inj hresult
    exact hnext
  · rintro _ _ ⟨hresult, -⟩
    cases hresult

theorem Reads.attempt_bind {next : Result α → Action β} (hreads : Reads action post s)
    (hnext : ∀ result, Ends (next result) goal s) : Ends (Program.attempt action >>= next) goal s := by
  refine Safe.bind (Safe.attempt hreads) ?_ ?_
  · rintro _ t ⟨result, hresult, rfl, -⟩
    exact hnext _
  · rintro _ t ⟨result, hresult, -⟩
    cases hresult

end Rules

section Files

variable {platform : Platform} (env : Outside platform) {s : Control}

theorem reads_attempt (step : Step) : Reads (attempt env step) (fun _ => True) s :=
  safe_query ⟨rfl, fun _ _ => trivial⟩

theorem reads_read (step : Step) (name : String) (limit : Nat) :
    Reads (read env step name limit) (fun bytes => s.files name = some bytes) s := by
  refine (reads_attempt env step).bind fun _ _ => reads_getSelf.bind ?_
  rintro _ rfl
  refine (reads_ofExcept _).bind fun bytes hbytes => (reads_ofExcept _).bind fun _ _ => reads_pure ?_
  exact okOr_eq_ok_iff.1 hbytes

theorem reads_snapshot_key (phase : Phase) : Reads (snapshot_key env phase false) (fun _ => True) s := by
  refine (reads_attempt env _).bind fun _ _ => (reads_attempt env _).bind fun _ _ => reads_getSelf.bind ?_
  rintro _ rfl
  rw [Bool.and_false, if_neg Bool.false_ne_true]
  exact (reads_read env _ _ _).bind fun _ _ => (reads_ofExcept _).bind fun _ _ => reads_pure trivial

theorem reads_read_authenticated (phase : Phase) (name mac : String) (limit : Nat) :
    Reads (read_authenticated env phase name mac limit) (fun bytes => s.files name = some bytes) s := by
  refine (reads_read env _ _ _).bind fun bytes hbytes => (reads_snapshot_key env phase).bind fun _ _ => ?_
  exact (reads_ofExcept _).bind fun _ _ => reads_pure hbytes

/-- The file of this name holds a snapshot of the record. -/
def Holds (platform : Platform) (s : Control) (name : String) (prepared : Prepared) : Prop :=
  ∃ bytes snapshot, s.files name = some bytes ∧ (platform.from_slice bytes).bind Snapshot.decode = some snapshot ∧
    snapshot.prepared = prepared

theorem reads_load_snapshot (phase : Phase) (name nonce : String) :
    Reads (load_snapshot env phase name nonce) (Holds platform s name) s := by
  refine (reads_ofExcept _).bind fun _ _ => (reads_ofExcept _).bind fun mac _ => ?_
  refine (reads_read_authenticated env phase name mac _).bind fun bytes hbytes => ?_
  refine (reads_ofExcept _).bind fun snapshot hsnapshot => (reads_ofExcept _).bind fun _ _ => ?_
  have hholds : Holds platform s name snapshot.prepared := ⟨bytes, snapshot, hbytes, okOr_eq_ok_iff.1 hsnapshot, rfl⟩
  split
  · exact (reads_ofExcept _).bind fun _ _ => reads_pure hholds
  · exact reads_pure hholds

/-- Only files outside a set were written. -/
def Wrote (kept : String → Prop) (s t : Control) : Prop :=
  ∃ files, t = { s with files } ∧ ∀ name, kept name → files name = s.files name

theorem Wrote.refl (kept : String → Prop) (s : Control) : Wrote kept s s :=
  ⟨s.files, rfl, fun _ _ => rfl⟩

theorem Control.files_write_self (s : Control) (name : String) (content : Option (List UInt8)) :
    (s.write name content).files name = content :=
  Function.update_self _ _ _

theorem Control.files_write_of_ne (s : Control) {name other : String} (content : Option (List UInt8)) (hne : other ≠ name) :
    (s.write name content).files other = s.files other :=
  Function.update_of_ne hne _ _

theorem wrote_write (s : Control) (name : String) (content : Option (List UInt8)) :
    Wrote (· ≠ name) s (s.write name content) :=
  ⟨_, rfl, fun _ hname => s.files_write_of_ne content hname⟩

/-- A new file is written whole, or the write fails. -/
theorem ends_write_new (step : Step) (name : String) (bytes : List UInt8) :
    Ends (write_new env step name bytes) (fun result t => Wrote (fun other => s.files other ≠ none ∨ other ≠ name) s t ∧
      (result = .ok () → t.files name = some bytes)) s := by
  refine safe_step trivial ?_
  by_cases hfound : (s.files name).isSome = true
  · rw [if_pos hfound]
    exact ⟨.refl _ _, nofun⟩
  · rw [if_neg hfound]
    have hnone : s.files name = none := by simpa using hfound
    have hwrote : ∀ content, Wrote (fun other => s.files other ≠ none ∨ other ≠ name) s (s.write name content) := by
      intro content
      obtain ⟨files, hfiles, hkept⟩ := wrote_write s name content
      refine ⟨files, hfiles, fun other hother => hkept other ?_⟩
      rintro rfl
      exact hother.elim (absurd hnone) (absurd rfl)
    cases env.fault step with
    | some error => exact ⟨hwrote _, nofun⟩
    | none => exact ⟨hwrote _, fun _ => s.files_write_self name _⟩

theorem ends_snapshot_key :
    Ends (snapshot_key env .save true) (fun _ t => Wrote (· ≠ "zc.prepared.key") s t) s := by
  have hsame : Wrote (· ≠ "zc.prepared.key") s s := .refl _ s
  refine (reads_attempt env _).ends_bind (fun _ _ => (reads_attempt env _).ends_bind (fun _ _ => reads_getSelf.ends_bind ?_
    fun _ => hsame) fun _ => hsame) fun _ => hsame
  rintro _ rfl
  have hread : ∀ t, Wrote (· ≠ "zc.prepared.key") s t → Ends (do
      let key ← read env (.key_read .save) "zc.prepared.key" 32
      Program.ofExcept (ensure (key.length == 32) (.message "START_SNAPSHOT_INVALID: invalid snapshot key"))
      return key) (fun _ t => Wrote (· ≠ "zc.prepared.key") s t) t := by
    intro t ht
    refine (reads_read env _ _ _).ends_bind (fun key _ => ?_) fun _ => ht
    exact (reads_ofExcept _).ends_bind (fun _ _ => safe_pure ht) fun _ => ht
  split
  · refine (reads_attempt env _).ends_bind (fun _ _ => ?_) fun _ => hsame
    have hwrote : ∀ t, Wrote (fun other => s.files other ≠ none ∨ other ≠ "zc.prepared.key") s t →
        Wrote (· ≠ "zc.prepared.key") s t := by
      rintro t ⟨files, rfl, hfiles⟩
      exact ⟨files, rfl, fun name hname => hfiles name (.inr hname)⟩
    refine Safe.bind (ends_write_new env .key_write _ _) ?_ fun _ t ht => hwrote t ht.1
    intro _ t ht
    exact (reads_attempt env _).ends_bind (fun _ _ => hread t (hwrote t ht.1)) fun _ => hwrote t ht.1
  · exact hread s hsame

/-- The files that saving a snapshot leaves alone. -/
def Spared (s : Control) (nonce name : String) : Prop :=
  name ≠ "zc.prepared.key" ∧ (s.files name ≠ none ∨ ∀ mac, name ≠ snapshot_name mac nonce)

theorem ends_save_snapshot (prepared : Prepared) (nonce : String) :
    Ends (save_snapshot env prepared nonce) (fun result t => Wrote (Spared s nonce) s t ∧ ∀ name, result = .ok name →
      (∃ mac, name = snapshot_name mac nonce) ∧ t.files name = some (line (snapshot_of prepared nonce).encode)) s := by
  refine (reads_ofExcept _).ends_bind (fun _ _ => ?_) fun _ => ⟨.refl _ s, nofun⟩
  refine Safe.bind (ends_snapshot_key env) (fun key t ht => ?_) fun error t ht => ?_
  · obtain ⟨files, rfl, hfiles⟩ := ht
    have hspared : Wrote (Spared s nonce) s { s with files } := ⟨files, rfl, fun name hname => hfiles name hname.1⟩
    refine (reads_attempt env _).ends_bind (fun _ _ => ?_) fun _ => ⟨hspared, nofun⟩
    refine reads_getSelf.ends_bind ?_ fun _ => ⟨hspared, nofun⟩
    rintro _ rfl
    split
    · refine (reads_read env _ _ _).ends_bind (fun found hfound => ?_) fun _ => ⟨hspared, nofun⟩
      refine (reads_ofExcept _).ends_bind (fun _ heq => ?_) fun _ => ⟨hspared, nofun⟩
      refine safe_pure ⟨hspared, fun name hname => ?_⟩
      obtain rfl := Except.ok.inj hname
      rw [ensure_eq_ok_iff, beq_iff_eq] at heq
      exact ⟨⟨_, rfl⟩, heq ▸ hfound⟩
    · have hwrote : ∀ t name, name = snapshot_name (hmac platform key (line (snapshot_of prepared nonce).encode)) nonce →
          Wrote (fun other => files other ≠ none ∨ other ≠ name) { s with files } t → Wrote (Spared s nonce) s t := by
        rintro _ name hname ⟨files', rfl, hfiles'⟩
        refine ⟨files', rfl, fun other hother => ?_⟩
        have hsame := hfiles other hother.1
        refine (hfiles' other ?_).trans hsame
        obtain hfound | hmac := hother.2
        · exact .inl (hsame ▸ hfound)
        · exact .inr (hname ▸ hmac _)
      refine Safe.bind (ends_write_new env .snapshot_write _ _) (fun _ t ht => ?_) fun _ t ht => ⟨hwrote t _ rfl ht.1, nofun⟩
      refine (reads_attempt env _).ends_bind (fun _ _ => ?_) fun _ => ⟨hwrote t _ rfl ht.1, nofun⟩
      refine safe_pure ⟨hwrote t _ rfl ht.1, fun name hname => ?_⟩
      obtain rfl := Except.ok.inj hname
      exact ⟨⟨_, rfl⟩, ht.2 rfl⟩
  · obtain ⟨files, rfl, hfiles⟩ := ht
    exact ⟨⟨files, rfl, fun name hname => hfiles name hname.1⟩, nofun⟩

theorem snapshot_name_ne_descriptor (mac nonce : String) : snapshot_name mac nonce ≠ DESCRIPTOR :=
  snapshot_name_ne mac nonce (by decide)

theorem spared_descriptor (s : Control) (nonce : String) : Spared s nonce DESCRIPTOR :=
  ⟨by decide, .inr fun mac => (snapshot_name_ne_descriptor mac nonce).symm⟩

/-- The name of a snapshot is not one of the old runtime's files. -/
theorem prepared_parts_snapshot_name (mac nonce : String) (valid : String → Bool) :
    prepared_parts (snapshot_name mac nonce) "yaml" valid = none := by
  have hlast : (str.split (snapshot_name mac nonce) '.').getLast? = some "snapshot" := by
    have hsuffix : "snapshot".toList.splitOn '.' <:+ (snapshot_name mac nonce).toList.splitOn '.' := by
      refine (Labels.splitOn_isSuffix_iff '.' _ _).2 (.inr ⟨("zc.prepared." ++ mac ++ "." ++ nonce).toList, ?_⟩)
      have htail : ".snapshot".toList = '.' :: "snapshot".toList := by decide
      rw [snapshot_name, String.toList_append, htail]
    obtain ⟨front, hfront⟩ := hsuffix
    have hpart : "snapshot".toList.splitOn '.' = ["snapshot".toList] := by decide
    rw [str.split, ← hfront, hpart, List.map_append, List.map_cons, List.map_nil, List.getLast?_concat]
    rfl
  unfold prepared_parts
  split
  · next mac' part last hparts =>
    rw [hparts] at hlast
    have hkind : last = "snapshot" := by simpa using hlast
    rw [hkind]
    simp
  · rfl

end Files

section Transaction

variable (host : Host) (env : Outside host.platform) {s : Control}

theorem reads_load_zig_prepared (phase : Phase) (name : String) (d : Descriptor) :
    Reads (load_zig_prepared host env phase name d)
      (fun _ => prepared_parts name "yaml" (fun nonce => valid_hex nonce 32) ≠ none) s := by
  refine (reads_ofExcept _).bind fun _ _ => (reads_ofExcept _).bind fun mac hmac => ?_
  refine (reads_read_authenticated env phase name mac _).bind fun bytes _ => (reads_ofExcept _).weaken fun _ _ => ?_
  rw [okOr_eq_ok_iff.1 hmac]
  nofun

/-- What a record the instance was frozen from says of the snapshot its descriptor names. -/
structure Frozen (s : Control) (d : Descriptor) (prepared : Prepared) : Prop where
  invocation : d.invocation ≠ none
  identity : prepared.identity = d.identity
  generation : prepared.generation = d.generation
  named : ∀ path name, d.config_path = some path → host.file_name path = some name →
    prepared_parts name "yaml" (fun nonce => valid_hex nonce 32) ≠ none ∨ Holds host.platform s name prepared

theorem reads_prepared_for (d : Descriptor) : Reads (prepared_for host env d) (Frozen host s d) s := by
  refine (reads_ofExcept _).bind fun path hpath => reads_getSelf.bind fun _ _ => (reads_ofExcept _).bind fun _ _ => ?_
  refine (reads_ofExcept _).bind fun name hname => ?_
  rw [okOr_eq_ok_iff] at hpath hname
  have hrest : ∀ prepared, (prepared_parts name "yaml" (fun nonce => valid_hex nonce 32) ≠ none ∨
      Holds host.platform s name prepared) → Reads (do
        let cfg ← Program.ofExcept (do
          ensure (prepared.identity == d.identity && prepared.generation == d.generation)
            (.message "RUNTIME_SNAPSHOT_INVALID: snapshot identity mismatch")
          parse_config host.platform prepared)
        Program.ofExcept (ensure (client_endpoint cfg == d.endpoint)
          (.message "RUNTIME_SNAPSHOT_INVALID: snapshot identity mismatch"))
        return prepared) (Frozen host s d) s := by
    intro prepared hprepared
    refine (reads_ofExcept _).bind fun cfg hcfg => (reads_ofExcept _).bind fun _ _ => reads_pure ?_
    simp only [bind_eq_ok_iff, ensure_eq_ok_iff, Bool.and_eq_true, beq_iff_eq] at hcfg
    obtain ⟨_, ⟨hidentity, hgeneration⟩, -⟩ := hcfg
    refine ⟨?_, hidentity, hgeneration, fun path' name' hpath' hname' => ?_⟩
    · intro hnone
      rw [Descriptor.config_path, hnone] at hpath
      cases hpath
    · obtain rfl := Option.some.inj (hpath.symm.trans hpath')
      obtain rfl := Option.some.inj (hname.symm.trans hname')
      exact hprepared
  split
  · exact (reads_load_zig_prepared host env .freeze name d).bind fun prepared hyaml => hrest prepared (.inl hyaml)
  · exact (reads_load_snapshot env .freeze name d.nonce).bind fun prepared hholds => hrest prepared (.inr hholds)

theorem ends_remove_file (name : String) :
    Ends (remove_file host env name) (fun result t => result = .ok () ∧ Wrote (· ≠ name) s t) s := by
  refine safe_step trivial ?_
  cases env.fault .remove with
  | some error => exact ⟨rfl, .refl _ s⟩
  | none => exact ⟨rfl, wrote_write s name none⟩

/-- The cleanup removes at most the snapshot the descriptor names. -/
theorem ends_remove_descriptor_snapshot (d : Descriptor) :
    Ends (remove_descriptor_snapshot host env d) (fun result t => result = .ok () ∧
      Wrote (fun other => ¬(str.startsWith other "zc.prepared." = true ∧ d.config_path.bind host.file_name = some other))
        s t) s := by
  unfold remove_descriptor_snapshot
  cases hpath : d.config_path with
  | none => exact safe_pure ⟨rfl, .refl _ s⟩
  | some path =>
    dsimp only
    cases hname : host.file_name path with
    | none => exact safe_pure ⟨rfl, .refl _ s⟩
    | some name =>
      rw [Option.bind_some, hname]
      have hrest : ∀ yaml : Result Prepared, Ends (do
          if host.parent path == some s.path && str.startsWith name "zc.prepared." then
            let loaded ← Program.attempt (load_snapshot env .cleanup name d.nonce)
            if loaded.isOk || yaml.isOk then remove_file host env name) (fun result t => result = .ok () ∧
          Wrote (fun other => ¬(str.startsWith other "zc.prepared." = true ∧ some name = some other)) s t) s := by
        intro yaml
        split
        · next hprepared =>
          refine (reads_load_snapshot env .cleanup name d.nonce).attempt_bind fun loaded => ?_
          split
          · refine Safe.weaken (ends_remove_file host env name) ?_
            rintro _ _ ⟨hresult, files, rfl, hfiles⟩
            refine ⟨hresult, files, rfl, fun other hother => hfiles other ?_⟩
            rintro rfl
            exact hother ⟨(Bool.and_eq_true_iff.1 hprepared).2, rfl⟩
          · exact safe_pure ⟨rfl, .refl _ s⟩
        · exact safe_pure ⟨rfl, .refl _ s⟩
      refine ends_getSelf_bind ?_
      split
      · exact (reads_load_zig_prepared host env .cleanup name d).attempt_bind hrest
      · exact hrest _

end Transaction

end zc.daemon
