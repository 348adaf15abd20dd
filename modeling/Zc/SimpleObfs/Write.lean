import Zc.SimpleObfs.Read

/-!
# What reaches the transport

In every run of reads, writes, flushes and shutdowns, whatever the transport does, it takes a prefix
of one request head followed by the acknowledged bytes. A failure while the request is written or
the response is read is the last thing that happens on the transport.
-/

namespace zc.simple_obfs

open Poll (Act)

variable {this this' : HttpObfsStream} {bytes acks : List UInt8} {base64 : List UInt8 → String}
  {first : Option (List UInt8)} {now : Nat}

namespace HttpObfsStream

/-! ## Draining -/

/-- What draining leaves as it is. -/
structure Kept (this this' : HttpObfsStream) : Prop where
  host : this'.host = this.host
  port : this'.port = this.port
  started : this'.started = this.started
  upgraded : this'.upgraded = this.upgraded
  response : this'.response = this.response
  tail : this'.tail = this.tail
  received : this'.inner.received = this.inner.received

theorem Kept.refl (this : HttpObfsStream) : Kept this this :=
  ⟨rfl, rfl, rfl, rfl, rfl, rfl, rfl⟩

theorem Kept.trans {this'' : HttpObfsStream} (hkept : Kept this this') (hkept' : Kept this' this'') :
    Kept this this'' where
  host := hkept'.host.trans hkept.host
  port := hkept'.port.trans hkept.port
  started := hkept'.started.trans hkept.started
  upgraded := hkept'.upgraded.trans hkept.upgraded
  response := hkept'.response.trans hkept.response
  tail := hkept'.tail.trans hkept.tail
  received := hkept'.received.trans hkept.received

/-- Reading depends on nothing else. -/
theorem Reading.congr {given : List UInt8} (hreading : Reading given this) (hupgraded' : this'.upgraded = this.upgraded)
    (hresponse' : this'.response = this.response) (htail' : this'.tail = this.tail)
    (hreceived' : this'.inner.received = this.inner.received) : Reading given this' := by
  cases hreading with
  | header hupgraded hresponse hnone hlength hgiven =>
    refine .header (hupgraded'.trans hupgraded) ?_ ?_ ?_ hgiven
    · rw [hresponse', hreceived', hresponse]
    · rwa [hresponse']
    · rwa [hresponse']
  | raw hupgraded hupgrades hlength htail hgiven =>
    refine .raw (hupgraded'.trans hupgraded) (hreceived' ▸ hupgrades) ?_ ?_ ?_
    · rwa [hresponse']
    · rwa [htail', hresponse']
    · rw [htail', hresponse', hgiven]

theorem Kept.reading (hkept : Kept this this') {given : List UInt8} (hreading : Reading given this) :
    Reading given this' :=
  hreading.congr hkept.upgraded hkept.response hkept.tail hkept.received

/-- The transport has taken the bytes except for those that are still pending. -/
structure Owes (bytes : List UInt8) (this : HttpObfsStream) : Prop where
  sent : this.inner.sent ++ this.pending.drop this.written = bytes
  written : this.written ≤ this.pending.length
  failed : this.failed = false

/-- How a computation that writes pending bytes ends early. -/
inductive Cut (bytes : List UInt8) (this : HttpObfsStream) : Poll.Stop io.Error → Prop
  | pending (howes : Owes bytes this) : Cut bytes this .pending
  | failed {error : io.Error} (hfailed : this.failed = true) (hsent : this.inner.sent <+: bytes) :
    Cut bytes this (.failed error)

theorem wp_drain_round (howes : Owes bytes this) :
    Act.wp drain_round
      (fun _ this' => Owes bytes this' ∧ Kept this this' ∧ this'.pending = this.pending ∧ this.written < this'.written ∧
        this.inner.sent <+: this'.inner.sent)
      (fun stop this' => Cut bytes this' stop ∧ Kept this this' ∧ this.inner.sent <+: this'.inner.sent) this := by
  obtain ⟨hsent, hwritten, hfailed⟩ := howes
  unfold drain_round
  rw [Act.wp_bind, Act.wp_get, Act.wp_bind, Act.wp_ready, wp_onInner]
  refine Wire.wp_poll_write ?_ ?_ ?_
  · intro count inner hcount hsends
    have hmore : inner.sent ++ this.pending.drop (this.written + count) = bytes := by
      rw [hsends.sent, ← List.drop_drop, List.append_assoc, List.take_append_drop, hsent]
    have hgrows : this.inner.sent <+: inner.sent := ⟨_, hsends.sent.symm⟩
    rw [List.length_drop] at hcount
    cases count with
    | zero => exact ⟨.failed rfl ⟨_, hmore⟩, ⟨rfl, rfl, rfl, rfl, rfl, rfl, hsends.received⟩, hgrows⟩
    | succ count =>
      refine ⟨⟨hmore, ?_, hfailed⟩, ⟨rfl, rfl, rfl, rfl, rfl, rfl, hsends.received⟩, rfl,
        Nat.lt_add_of_pos_right (Nat.succ_pos _), hgrows⟩
      change this.written + (count + 1) ≤ this.pending.length
      omega
  · intro inner hsends
    have hsame : inner.sent = this.inner.sent := hsends.sent.trans (List.append_nil _)
    have hgrows : this.inner.sent <+: inner.sent := by rw [hsame]
    refine ⟨.pending ⟨?_, hwritten, hfailed⟩, ⟨rfl, rfl, rfl, rfl, rfl, rfl, hsends.received⟩, hgrows⟩
    rw [hsame, hsent]
  · intro error inner hsends
    have hsame : inner.sent = this.inner.sent := hsends.sent.trans (List.append_nil _)
    have hgrows : this.inner.sent <+: inner.sent := by rw [hsame]
    refine ⟨.failed rfl ?_, ⟨rfl, rfl, rfl, rfl, rfl, rfl, hsends.received⟩, hgrows⟩
    exact ⟨_, (congrArg (· ++ _) hsame).trans hsent⟩

/-- Draining hands all pending bytes to the transport, or ends early with the rest still pending. -/
theorem wp_drain (now : Nat) (howes : Owes bytes this) :
    Act.wp (drain now)
      (fun _ this' => this'.pending = [] ∧ this'.written = 0 ∧ this'.inner.sent = bytes ∧ this'.failed = false ∧ Kept this this')
      (fun stop this' => Cut bytes this' stop ∧ Kept this this' ∧ this.inner.sent <+: this'.inner.sent) this := by
  have hfailed := howes.failed
  unfold drain
  rw [Act.wp_bind, Act.wp_get, hfailed, if_neg Bool.false_ne_true, Act.wp_bind]
  refine Act.wp_mono (Act.wp_whileDo
    (I := fun this' => Owes bytes this' ∧ Kept this this' ∧ this.inner.sent <+: this'.inner.sent) ?_ ?_
    ⟨howes, .refl this, List.prefix_refl _⟩) ?_ fun _ _ h => h
  · intro this' _ hcondition
    exact Nat.sub_pos_of_lt (of_decide_eq_true hcondition)
  · rintro this' ⟨howes', hkept, hgrows⟩ hcondition
    refine Act.wp_mono (wp_drain_round howes') ?_ ?_
    · rintro _ next ⟨hnext, hkept', hpending, hlt, hgrows'⟩
      refine ⟨⟨hnext, hkept.trans hkept', hgrows.trans hgrows'⟩, ?_⟩
      have hcondition := of_decide_eq_true hcondition
      have hle := hnext.written
      rw [unwritten, unwritten, hpending]
      omega
    · rintro stop next ⟨hcut, hkept', hgrows'⟩
      exact ⟨hcut, hkept.trans hkept', hgrows.trans hgrows'⟩
  · rintro _ this' ⟨⟨howes', hkept, -⟩, hcondition⟩
    have hdone : this'.pending.length ≤ this'.written := Nat.le_of_not_lt (of_decide_eq_false hcondition)
    have hsent := howes'.sent
    rw [List.drop_of_length_le hdone, List.append_nil] at hsent
    rw [Act.wp_modify]
    by_cases hempty : this'.pending.isEmpty
    · rw [if_pos hempty]
      have hnil := List.isEmpty_iff.1 hempty
      have hwritten := howes'.written
      rw [hnil] at hwritten
      exact ⟨hnil, Nat.le_zero.1 hwritten, hsent, howes'.failed, hkept⟩
    · rw [if_neg hempty]
      exact ⟨rfl, rfl, hsent, howes'.failed, hkept.trans ⟨rfl, rfl, rfl, rfl, rfl, rfl, rfl⟩⟩

/-! ## Calls -/

inductive Call where
  | write (random : Except io.Error (Vector UInt8 18)) (data : List UInt8)
  | flush
  | shutdown
  | read (remaining : Nat)

/-- One call, with the bytes that it acknowledges. -/
def Call.perform (base64 : List UInt8 → String) (now : Nat) : Call → Act HttpObfsStream io.Error (List UInt8)
  | .write random data => do
    let count ← poll_write base64 now random data
    pure (data.take count)
  | .flush => do
    poll_flush now
    pure []
  | .shutdown => do
    poll_shutdown now
    pure []
  | .read remaining => do
    let _ ← poll_read now remaining
    pure []

def Call.isRead : Call → Bool
  | .read _ => true
  | _ => false

/-- Calls with their times, and their results. -/
def call_all (base64 : List UInt8 → String) : List (Nat × Call) → HttpObfsStream →
    List (Except (Poll.Stop io.Error) (List UInt8)) × HttpObfsStream
  | [], this => ([], this)
  | (now, call) :: calls, this =>
    let (result, next) := call.perform base64 now this
    let (results, last) := call_all base64 calls next
    (result :: results, last)

/-! ## The invariant -/

/-- The first acknowledged bytes. -/
def first_ack (results : List (Except (Poll.Stop io.Error) (List UInt8))) : Option (List UInt8) :=
  (results.map handed).find? fun bytes => !bytes.isEmpty

/-- The bytes that belong on the transport: none, or one request head with the first acknowledged bytes as
    its body, and the later ones. -/
inductive Belongs (base64 : List UInt8 → String) (this : HttpObfsStream) : Option (List UInt8) → List UInt8 → List UInt8 → Prop
  | nothing (hstarted : this.started = false) : Belongs base64 this none [] []
  | request (random : Vector UInt8 18) {body later : List UInt8} (hbody : body ≠ []) (hstarted : this.started = true)
    (hlater : later ≠ [] → envelope base64 this.host this.port random body.length ++ body <+: this.inner.sent) :
    Belongs base64 this (some body) (body ++ later)
      (envelope base64 this.host this.port random body.length ++ (body ++ later))

/-- A stream that has acknowledged some bytes. -/
structure Sound (base64 : List UInt8 → String) (host : String) (port : UInt16) (first : Option (List UInt8))
    (acks : List UInt8) (this : HttpObfsStream) : Prop where
  host : this.host = host
  port : this.port = port
  reading : this.failed = false → ∃ given, Reading given this
  writing : ∃ bytes, Belongs base64 this first acks bytes ∧ this.inner.sent <+: bytes ∧
    (this.failed = false → Owes bytes this)

theorem Belongs.mono (hbelongs : Belongs base64 this first acks bytes) (hhost : this'.host = this.host)
    (hport : this'.port = this.port) (hstarted : this'.started = this.started)
    (hgrows : this.inner.sent <+: this'.inner.sent) : Belongs base64 this' first acks bytes := by
  cases hbelongs with
  | nothing hfalse => exact .nothing (hstarted.trans hfalse)
  | request random hbody htrue hlater =>
    rw [← hhost, ← hport] at hlater ⊢
    exact .request random hbody (hstarted.trans htrue) fun hne => (hlater hne).trans hgrows

/-- The stream after a part of a call that only writes pending bytes. -/
theorem Sound.drained {host : String} {port : UInt16} (hsound : Sound base64 host port first acks this)
    (hfailed : this.failed = false) (hbelongs : Belongs base64 this first acks bytes) (hkept : Kept this this')
    (hgrows : this.inner.sent <+: this'.inner.sent) (hsent : this'.inner.sent <+: bytes)
    (howes : this'.failed = false → Owes bytes this') : Sound base64 host port first acks this' := by
  obtain ⟨given, hreading⟩ := hsound.reading hfailed
  exact ⟨hkept.host.trans hsound.host, hkept.port.trans hsound.port, fun _ => ⟨given, hkept.reading hreading⟩,
    bytes, hbelongs.mono hkept.host hkept.port hkept.started hgrows, hsent, howes⟩

/-- What every call does from a sound stream: it acknowledges bytes, or ends early, and an error that leaves
    the request or the response unfinished is remembered. -/
def Performs (base64 : List UInt8 → String) (host : String) (port : UInt16) (first : Option (List UInt8))
    (acks : List UInt8) (reads : Bool) (act : Act HttpObfsStream io.Error (List UInt8)) (this : HttpObfsStream) : Prop :=
  Act.wp act
    (fun bytes this' => Sound base64 host port (first.or (if bytes = [] then none else some bytes)) (acks ++ bytes) this')
    (fun stop this' => Sound base64 host port first acks this' ∧ stop ≠ .panicked ∧
      ∀ error, stop = .failed error → this'.pending ≠ [] ∨ (reads = true ∧ this'.upgraded = false) → this'.failed = true)
    this

/-- A call drains first. -/
theorem performs_drain {host : String} {port : UInt16} {reads : Bool}
    {next : Unit → Act HttpObfsStream io.Error (List UInt8)} (hsound : Sound base64 host port first acks this)
    (hfailed : this.failed = false)
    (hnext : ∀ this' bytes, Sound base64 host port first acks this' → Belongs base64 this' first acks bytes → this'.inner.sent = bytes → this'.pending = [] → this'.written = 0 → this'.failed = false → Performs base64 host port first acks reads (next ()) this') :
    Performs base64 host port first acks reads (drain now >>= next) this := by
  obtain ⟨bytes, hbelongs, hsent, howes⟩ := hsound.writing
  unfold Performs
  rw [Act.wp_bind]
  refine Act.wp_mono (wp_drain now (howes hfailed)) ?_ ?_
  · rintro _ this' ⟨hpending, hwritten, hsent', hfailed', hkept⟩
    have hgrows : this.inner.sent <+: this'.inner.sent := hsent'.symm ▸ hsent
    have howes' : Owes bytes this' := by
      refine ⟨?_, ?_, hfailed'⟩
      · rw [hpending, List.drop_nil, List.append_nil, hsent']
      · rw [hwritten]
        exact Nat.zero_le _
    refine hnext this' bytes ?_ (hbelongs.mono hkept.host hkept.port hkept.started hgrows) hsent' hpending hwritten hfailed'
    exact hsound.drained hfailed hbelongs hkept hgrows (hsent' ▸ List.prefix_refl _) fun _ => howes'
  · rintro stop this' ⟨hcut, hkept, hgrows⟩
    cases hcut with
    | pending howes' =>
      exact ⟨hsound.drained hfailed hbelongs hkept hgrows ⟨_, howes'.sent⟩ fun _ => howes', nofun, nofun⟩
    | failed hfailed' hsent' =>
      refine ⟨hsound.drained hfailed hbelongs hkept hgrows hsent' fun hfalse => ?_, nofun, fun _ _ _ => hfailed'⟩
      rw [hfailed'] at hfalse
      cases hfalse

section Calls

variable {base64 : List UInt8 → String} {host : String} {port : UInt16} {first : Option (List UInt8)} {acks : List UInt8}
  {this : HttpObfsStream}

/-- The transport has changed nothing that the stream depends on. -/
theorem Sound.withInner (hsound : Sound base64 host port first acks this) {inner : Wire io.Error}
    (hsent : inner.sent = this.inner.sent) (hreceived : inner.received = this.inner.received) :
    Sound base64 host port first acks { this with inner } := by
  obtain ⟨bytes, hbelongs, hstarts, howes⟩ := hsound.writing
  have hkept : Kept this { this with inner } := ⟨rfl, rfl, rfl, rfl, rfl, rfl, hreceived⟩
  refine ⟨hsound.host, hsound.port, fun hfailed => ?_, bytes, ?_, ?_, fun hfailed => ?_⟩
  · obtain ⟨given, hreading⟩ := hsound.reading hfailed
    exact ⟨given, hkept.reading hreading⟩
  · exact hbelongs.mono rfl rfl rfl (hsent ▸ List.prefix_refl _)
  · exact hsent ▸ hstarts
  · obtain ⟨htotal, hwritten, -⟩ := howes hfailed
    exact ⟨hsent ▸ htotal, hwritten, hfailed⟩

theorem Sound.nothing_more (hsound : Sound base64 host port first acks this) :
    Sound base64 host port (first.or (if ([] : List UInt8) = [] then none else some [])) (acks ++ []) this := by
  rw [if_pos rfl, Option.or_none, List.append_nil]
  exact hsound

theorem performs_flush (hsound : Sound base64 host port first acks this) (hfailed : this.failed = false) :
    Performs base64 host port first acks false (Call.flush.perform base64 now) this := by
  rw [Call.perform, poll_flush, Act.bind_assoc]
  refine performs_drain hsound hfailed ?_
  intro this' bytes hsound' _ _ hpending _ _
  unfold Performs
  rw [Act.wp_bind, wp_onInner]
  refine Wire.wp_poll_flush ?_ ?_ ?_
  · intro inner hsends
    exact (hsound'.withInner (hsends.sent.trans (List.append_nil _)) hsends.received).nothing_more
  · intro inner hsends
    exact ⟨hsound'.withInner (hsends.sent.trans (List.append_nil _)) hsends.received, nofun, nofun⟩
  · intro error inner hsends
    refine ⟨hsound'.withInner (hsends.sent.trans (List.append_nil _)) hsends.received, nofun, ?_⟩
    rintro _ _ (hne | ⟨hread, -⟩)
    · exact absurd hpending hne
    · cases hread

theorem performs_shutdown (hsound : Sound base64 host port first acks this) (hfailed : this.failed = false) :
    Performs base64 host port first acks false (Call.shutdown.perform base64 now) this := by
  rw [Call.perform, poll_shutdown, Act.bind_assoc]
  refine performs_drain hsound hfailed ?_
  intro this' bytes hsound' _ _ hpending _ _
  unfold Performs
  rw [Act.wp_bind, wp_onInner]
  refine Wire.wp_poll_shutdown ?_ ?_ ?_
  · intro inner hsent _ _ hreceived _
    exact (hsound'.withInner hsent hreceived).nothing_more
  · intro inner hsends
    exact ⟨hsound'.withInner (hsends.sent.trans (List.append_nil _)) hsends.received, nofun, nofun⟩
  · intro error inner hsends
    refine ⟨hsound'.withInner (hsends.sent.trans (List.append_nil _)) hsends.received, nofun, ?_⟩
    rintro _ _ (hne | ⟨hread, -⟩)
    · exact absurd hpending hne
    · cases hread

/-- The rules for reading hold of every transport. -/
theorem peer_any : Peer (fun _ => True) (fun _ => True) (fun _ => True) fun _ => True where
  read := by
    intro capacity wire hcapacity _
    refine Wire.wp_poll_read hcapacity ?_ ?_ ?_
    · intro bytes wire' hle hreads
      exact ⟨hreads, hle, trivial, fun _ => trivial, fun _ _ => trivial⟩
    · intro wire' hreads
      exact ⟨hreads, trivial, fun _ => trivial, .inl rfl⟩
    · intro error wire' hreads
      exact ⟨hreads, trivial, fun _ => trivial, .inr ⟨error, rfl, trivial⟩⟩

/-- The stream after the rounds of a read, which send nothing. -/
theorem Sound.quiet (hsound : Sound base64 host port first acks this) (hquiet : Quiet this this')
    (hfailed : this.failed = false) (hreading : this'.failed = false → ∃ given, Reading given this') :
    Sound base64 host port first acks this' := by
  obtain ⟨bytes, hbelongs, hstarts, howes⟩ := hsound.writing
  refine ⟨hquiet.host.trans hsound.host, hquiet.port.trans hsound.port, hreading, bytes, ?_, ?_, fun hfailed' => ?_⟩
  · exact hbelongs.mono hquiet.host hquiet.port hquiet.started (hquiet.sent ▸ List.prefix_refl _)
  · exact hquiet.sent ▸ hstarts
  · obtain ⟨htotal, hwritten, -⟩ := howes hfailed
    refine ⟨?_, ?_, hfailed'⟩
    · rw [hquiet.sent, hquiet.pending, hquiet.written, htotal]
    · rwa [hquiet.pending, hquiet.written]

theorem performs_read {remaining : Nat} (hsound : Sound base64 host port first acks this)
    (hfailed : this.failed = false) :
    Performs base64 host port first acks true ((Call.read remaining).perform base64 now) this := by
  rw [Call.perform, poll_read]
  by_cases hremaining : remaining = 0
  · rw [if_pos hremaining]
    exact hsound.nothing_more
  rw [if_neg hremaining, Act.bind_assoc]
  refine performs_drain hsound hfailed ?_
  intro this' bytes hsound' _ _ hpending _ hfailed'
  obtain ⟨given, hreading⟩ := hsound'.reading hfailed'
  unfold Performs
  rw [Act.wp_bind]
  refine Act.wp_mono (wp_read_loop peer_any hreading hfailed' trivial (fun _ => trivial) (Nat.pos_of_ne_zero hremaining)) ?_ ?_
  · rintro bytes next ⟨hwaits, -⟩
    exact (hsound'.quiet hwaits.quiet hfailed' fun _ => ⟨_, hwaits.reading⟩).nothing_more
  · rintro stop next ⟨hends, hquiet, -⟩
    have hpending' : next.pending = [] := hquiet.pending.trans hpending
    cases hends with
    | pending hreading' _ _ _ =>
      exact ⟨hsound'.quiet hquiet hfailed' fun _ => ⟨_, hreading'⟩, nofun, nofun⟩
    | broken _ _ hfailed'' _ _ =>
      refine ⟨hsound'.quiet hquiet hfailed' fun hfalse => ?_, nofun, fun _ _ _ => hfailed''⟩
      rw [hfailed''] at hfalse
      cases hfalse
    | later hupgraded _ hreading' _ =>
      refine ⟨hsound'.quiet hquiet hfailed' fun _ => ⟨_, hreading'⟩, nofun, ?_⟩
      rintro _ _ (hne | ⟨-, hheader⟩)
      · exact absurd hpending' hne
      · rw [hupgraded] at hheader
        cases hheader

/-- Bytes that the transport takes at once. -/
theorem Belongs.more (hbelongs : Belongs base64 this first acks bytes) (hstarted : this.started = true)
    (hsent : this.inner.sent = bytes) {inner : Wire io.Error} {taken : List UInt8}
    (hinner : inner.sent = this.inner.sent ++ taken) :
    Belongs base64 { this with inner } (first.or (if taken = [] then none else some taken)) (acks ++ taken) (bytes ++ taken) := by
  cases hbelongs with
  | nothing hfalse =>
    rw [hstarted] at hfalse
    cases hfalse
  | request random hbody _ hlater =>
    rw [Option.some_or, List.append_assoc, List.append_assoc, List.append_assoc]
    refine .request random hbody hstarted fun _ => ?_
    change _ <+: inner.sent
    rw [hinner, hsent, ← List.append_assoc, List.append_assoc]
    exact List.prefix_append _ _

theorem performs_write {random : Except io.Error (Vector UInt8 18)} {data : List UInt8}
    (hsound : Sound base64 host port first acks this) (hfailed : this.failed = false) :
    Performs base64 host port first acks false ((Call.write random data).perform base64 now) this := by
  rw [Call.perform, poll_write.eq_def, Act.bind_assoc]
  refine performs_drain hsound hfailed ?_
  intro this' bytes hsound' hbelongs hsent hpending hwritten hfailed'
  unfold Performs
  rw [Act.wp_bind]
  by_cases hempty : data.isEmpty
  · rw [if_pos hempty]
    exact hsound'.nothing_more
  rw [if_neg hempty, Act.wp_bind, Act.wp_get]
  have hidle : ∀ reads : Bool, reads = false → this'.pending ≠ [] ∨ (reads = true ∧ this'.upgraded = false) → this'.failed = true := by
    rintro reads hreads (hne | ⟨hread, -⟩)
    · exact absurd hpending hne
    · rw [hreads] at hread
      cases hread
  by_cases hstarted : this'.started = true
  · rw [if_pos hstarted, wp_onInner]
    refine Wire.wp_poll_write ?_ ?_ ?_
    · intro count inner _ hsends
      obtain ⟨given, hreading⟩ := hsound'.reading hfailed'
      have hkept : Kept this' { this' with inner } := ⟨rfl, rfl, rfl, rfl, rfl, rfl, hsends.received⟩
      have htaken : inner.sent = bytes ++ data.take count := hsends.sent.trans (congrArg (· ++ _) hsent)
      refine ⟨hsound'.host, hsound'.port, fun _ => ⟨given, hkept.reading hreading⟩, bytes ++ data.take count,
        hbelongs.more hstarted hsent hsends.sent, ?_, fun _ => ⟨?_, ?_, hfailed'⟩⟩
      · exact htaken ▸ List.prefix_refl _
      · change inner.sent ++ this'.pending.drop this'.written = _
        rw [hpending, List.drop_nil, List.append_nil, htaken]
      · change this'.written ≤ _
        rw [hwritten]
        exact Nat.zero_le _
    · intro inner hsends
      exact ⟨hsound'.withInner (hsends.sent.trans (List.append_nil _)) hsends.received, nofun, nofun⟩
    · intro error inner hsends
      exact ⟨hsound'.withInner (hsends.sent.trans (List.append_nil _)) hsends.received, nofun, fun _ _ => hidle false rfl⟩
  · rw [if_neg hstarted]
    cases random with
    | error error => exact ⟨hsound', nofun, fun _ _ => hidle false rfl⟩
    | ok random =>
      cases hbelongs with
      | request _ _ htrue _ => exact absurd htrue hstarted
      | nothing _ =>
        obtain ⟨given, hreading⟩ := hsound'.reading hfailed'
        have hne : data ≠ [] := fun hnil => hempty (List.isEmpty_iff.2 hnil)
        have hpos := List.length_pos_iff.2 hne
        have hlength : (data.take (min data.length FIRST_WRITE_LIMIT)).length = min data.length FIRST_WRITE_LIMIT := by
          rw [List.length_take]
          omega
        have hlimit : 0 < FIRST_WRITE_LIMIT := by decide
        have hbody : data.take (min data.length FIRST_WRITE_LIMIT) ≠ [] := by
          rw [← List.length_pos_iff, hlength]
          omega
        rw [Act.wp_bind, Act.wp_modify, Act.wp_pure, Act.wp_pure, if_neg hbody, Option.none_or, List.nil_append]
        have hbelongs' : Belongs base64
            { this' with
              pending := envelope base64 this'.host this'.port random (min data.length FIRST_WRITE_LIMIT) ++
                data.take (min data.length FIRST_WRITE_LIMIT)
              started := true }
            (some (data.take (min data.length FIRST_WRITE_LIMIT))) (data.take (min data.length FIRST_WRITE_LIMIT) ++ [])
            (envelope base64 this'.host this'.port random (data.take (min data.length FIRST_WRITE_LIMIT)).length ++
              (data.take (min data.length FIRST_WRITE_LIMIT) ++ [])) :=
          .request random hbody rfl fun hnil => absurd rfl hnil
        rw [hlength, List.append_nil] at hbelongs'
        refine ⟨hsound'.host, hsound'.port, fun _ => ⟨given, hreading.congr rfl rfl rfl rfl⟩, _, hbelongs', ?_,
          fun _ => ⟨?_, ?_, hfailed'⟩⟩
        · change this'.inner.sent <+: _
          rw [hsent]
          exact List.nil_prefix
        · change this'.inner.sent ++ List.drop this'.written _ = _
          rw [hsent, hwritten]
          rfl
        · change this'.written ≤ _
          rw [hwritten]
          exact Nat.zero_le _

/-! ## Runs -/

/-- After a remembered failure no call does anything. -/
theorem perform_of_failed (hfailed : this.failed = true) (now : Nat) (call : Call) :
    ∃ result, call.perform base64 now this = (result, this) ∧ handed result = [] ∧ result ≠ .error .panicked := by
  have hdrain := drain_of_failed now hfailed
  cases call with
  | write random data =>
    refine ⟨.error (.failed (invalid "obfs transport is closed after an error")), ?_, rfl, nofun⟩
    rw [Call.perform, poll_write.eq_def, Act.bind_assoc, Act.run_bind_of_error hdrain]
  | flush =>
    refine ⟨.error (.failed (invalid "obfs transport is closed after an error")), ?_, rfl, nofun⟩
    rw [Call.perform, poll_flush, Act.bind_assoc, Act.run_bind_of_error hdrain]
  | shutdown =>
    refine ⟨.error (.failed (invalid "obfs transport is closed after an error")), ?_, rfl, nofun⟩
    rw [Call.perform, poll_shutdown, Act.bind_assoc, Act.run_bind_of_error hdrain]
  | read remaining =>
    by_cases hremaining : remaining = 0
    · refine ⟨.ok [], ?_, rfl, nofun⟩
      rw [Call.perform, poll_read, if_pos hremaining]
      rfl
    · refine ⟨.error (.failed (invalid "obfs transport is closed after an error")), ?_, rfl, nofun⟩
      rw [Call.perform, poll_read, if_neg hremaining, Act.bind_assoc, Act.run_bind_of_error hdrain]

theorem call_all_of_failed (hfailed : this.failed = true) (calls : List (Nat × Call)) : (call_all base64 calls this).2 = this := by
  induction calls with
  | nil => rfl
  | cons call calls ih =>
    obtain ⟨result, hperform, -⟩ := @perform_of_failed base64 this hfailed call.1 call.2
    rw [call_all, hperform]
    exact ih

theorem call_all_append (calls calls' : List (Nat × Call)) :
    (call_all base64 (calls ++ calls') this).2 = (call_all base64 calls' (call_all base64 calls this).2).2 := by
  induction calls generalizing this with
  | nil => rfl
  | cons call calls ih =>
    rw [List.cons_append, call_all, call_all]
    exact ih

theorem Sound.perform (hsound : Sound base64 host port first acks this) (now : Nat) (call : Call)
    (hfailed : this.failed = false) : Performs base64 host port first acks call.isRead (call.perform base64 now) this := by
  cases call with
  | write random data => exact performs_write hsound hfailed
  | flush => exact performs_flush hsound hfailed
  | shutdown => exact performs_shutdown hsound hfailed
  | read remaining => exact performs_read hsound hfailed

/-- One call, with its result. -/
theorem Sound.step (hsound : Sound base64 host port first acks this) {now : Nat} {call : Call} {this' : HttpObfsStream}
    {result : Except (Poll.Stop io.Error) (List UInt8)} (hperform : call.perform base64 now this = (result, this')) :
    Sound base64 host port (first.or (if handed result = [] then none else some (handed result))) (acks ++ handed result) this' ∧
      result ≠ .error .panicked ∧
      ∀ error, result = .error (.failed error) → this'.pending ≠ [] ∨ (call.isRead = true ∧ this'.upgraded = false) →
        this'.failed = true := by
  by_cases hfailed : this.failed = true
  · obtain ⟨result', hperform', hhanded, hsane⟩ := @perform_of_failed base64 this hfailed now call
    obtain ⟨rfl, rfl⟩ := Prod.mk.inj (hperform'.symm.trans hperform)
    refine ⟨?_, hsane, fun _ _ _ => hfailed⟩
    rw [hhanded]
    exact hsound.nothing_more
  · have hperforms := hsound.perform now call (Bool.eq_false_iff.2 hfailed)
    cases result with
    | ok bytes => exact ⟨Act.wp_ok hperforms hperform, nofun, nofun⟩
    | error stop =>
      obtain ⟨hsound', hsane, hfatal⟩ := Act.wp_error hperforms hperform
      refine ⟨hsound'.nothing_more, fun heq => hsane (Except.error.inj heq), ?_⟩
      exact fun error heq => hfatal error (Except.error.inj heq)

theorem first_ack_cons (result : Except (Poll.Stop io.Error) (List UInt8))
    (results : List (Except (Poll.Stop io.Error) (List UInt8))) :
    first_ack (result :: results) = Option.or (if handed result = [] then none else some (handed result)) (first_ack results) := by
  rw [first_ack, List.map_cons, List.find?_cons]
  by_cases hnil : handed result = []
  · rw [hnil, if_pos rfl, Option.none_or]
    rfl
  · have hsome : (!(handed result).isEmpty) = true := by
      rw [Bool.not_eq_true', ← Bool.not_eq_true, List.isEmpty_iff]
      exact hnil
    rw [hsome, if_neg hnil, Option.some_or]

theorem Sound.call_all (hsound : Sound base64 host port first acks this) (calls : List (Nat × Call)) :
    Sound base64 host port (first.or (first_ack (call_all base64 calls this).1))
      (acks ++ delivered (call_all base64 calls this).1) (call_all base64 calls this).2 ∧
      .error .panicked ∉ (call_all base64 calls this).1 := by
  induction calls generalizing first acks this with
  | nil =>
    refine ⟨?_, List.not_mem_nil⟩
    change Sound base64 host port (first.or none) (acks ++ []) this
    rwa [Option.or_none, List.append_nil]
  | cons call calls ih =>
    cases hperform : call.2.perform base64 call.1 this with
    | mk result next =>
      obtain ⟨hnext, hsane, -⟩ := hsound.step hperform
      obtain ⟨hlast, hsanes⟩ := ih hnext
      rw [HttpObfsStream.call_all, hperform]
      refine ⟨?_, ?_⟩
      · dsimp only
        rw [first_ack_cons, delivered_cons, ← Option.or_assoc, ← List.append_assoc]
        exact hlast
      · rw [List.mem_cons, not_or]
        exact ⟨fun heq => hsane heq.symm, hsanes⟩

end Calls

end HttpObfsStream

open HttpObfsStream in
/-- In every run of calls on a new stream, over a transport that may be pending, take any part of a write
    and fail at any time: if no byte is acknowledged none is sent, and otherwise what is sent is a prefix
    of one request head, whose length is that of the first acknowledged bytes, and all acknowledged bytes;
    that head and those first bytes are sent before a further byte is acknowledged; and after an error that
    leaves the request or the response head unfinished nothing is sent. -/
theorem sent_request_then_acks {base64 : List UInt8 → String} {inner : Wire io.Error} {host : String} {port : UInt16}
    {this : HttpObfsStream} (hnew : HttpObfsStream.new inner host port = .ok this) (hsent : inner.sent = [])
    (hreceived : inner.received = []) (calls : List (Nat × Call)) :
    (first_ack (call_all base64 calls this).1 = none ∧ delivered (call_all base64 calls this).1 = [] ∧
        (call_all base64 calls this).2.inner.sent = [] ∨
      ∃ random body, first_ack (call_all base64 calls this).1 = some body ∧
        (call_all base64 calls this).2.inner.sent <+:
          envelope base64 host port random body.length ++ delivered (call_all base64 calls this).1 ∧
        (delivered (call_all base64 calls this).1 ≠ body →
          envelope base64 host port random body.length ++ body <+: (call_all base64 calls this).2.inner.sent)) ∧
    ∀ before now call after, calls = before ++ (now, call) :: after → ∀ error stopped,
      call.perform base64 now (call_all base64 before this).2 = (.error (.failed error), stopped) →
      stopped.pending ≠ [] ∨ (call.isRead = true ∧ stopped.upgraded = false) →
      (call_all base64 calls this).2.inner.sent = stopped.inner.sent := by
  have hnew' : this = ⟨inner, host, port, false, [], 0, [], 0, false, none, false⟩ := by
    unfold HttpObfsStream.new at hnew
    cases hhost : validate_host host with
    | error error =>
      rw [hhost] at hnew
      cases hnew
    | ok _ =>
      rw [hhost] at hnew
      change (if port = 0 then _ else _) = _ at hnew
      split_ifs at hnew
      exact (Except.ok.inj hnew).symm
  have hheadless : Headless [] := (Search.position_eq_none_iff crlf_crlf_ne_nil).1 rfl
  have hstart : Sound base64 host port none [] this := by
    have hlimit : ([] : List UInt8).length < HEADER_LIMIT := by decide
    subst hnew'
    refine ⟨rfl, rfl, fun _ => ⟨[], .header rfl hreceived.symm hheadless hlimit rfl⟩, [], .nothing rfl, ?_, fun _ => ?_⟩
    · exact hsent ▸ List.prefix_refl _
    · refine ⟨?_, Nat.le_refl _, rfl⟩
      change inner.sent ++ [] = []
      rw [hsent, List.append_nil]
  refine ⟨?_, ?_⟩
  · obtain ⟨hsound, -⟩ := hstart.call_all calls
    obtain ⟨bytes, hbelongs, hstarts, -⟩ := hsound.writing
    rw [Option.none_or, List.nil_append] at hbelongs
    have hhost := hsound.host
    have hport := hsound.port
    generalize hfirst : first_ack (call_all base64 calls this).1 = first at hbelongs ⊢
    generalize hacks : delivered (call_all base64 calls this).1 = acks at hbelongs ⊢
    cases hbelongs with
    | nothing _ => exact .inl ⟨rfl, rfl, List.prefix_nil.1 hstarts⟩
    | @request random body later hbody _ hlater =>
      rw [hhost, hport] at hstarts hlater
      refine .inr ⟨random, body, rfl, hstarts, fun hmore => hlater ?_⟩
      rintro rfl
      exact hmore (List.append_nil _)
  · rintro before now call after rfl error stopped hperform hunfinished
    obtain ⟨hbefore, -⟩ := hstart.call_all before
    obtain ⟨-, -, hfatal⟩ := hbefore.step hperform
    have hfailed := hfatal error rfl hunfinished
    rw [call_all_append, call_all, hperform]
    dsimp only
    rw [call_all_of_failed hfailed]

/-- A transport that takes nothing and fails. -/
def brokenWire : Wire io.Error :=
  ⟨[], [.pending, .failed (.from .Other), .ready 100], [], [], [], [], [], false⟩

def brokenStream : HttpObfsStream :=
  ⟨brokenWire, "example.org", 80, false, [], 0, [], 0, false, none, false⟩

def sampleRandom : Vector UInt8 18 :=
  .replicate 18 0

def sampleCalls : List (Nat × HttpObfsStream.Call) :=
  [(0, .write (.ok sampleRandom) [1, 2]), (1, .flush), (2, .flush), (3, .write (.ok sampleRandom) [3])]

open HttpObfsStream in
/-- The second flush fails inside the request, and the write after it sends nothing. -/
theorem nothing_after_failure :
    (Call.flush.perform (fun _ => "") 2 (call_all (fun _ => "") (sampleCalls.take 2) brokenStream).2).1 =
      .error (.failed (.from .Other)) ∧
    (call_all (fun _ => "") sampleCalls brokenStream).2.inner.sent = [] := by
  have hhost : validate_host "example.org" = .ok () := by decide +kernel
  have hnew : HttpObfsStream.new brokenWire "example.org" 80 = .ok brokenStream := by
    unfold HttpObfsStream.new
    rw [hhost]
    rfl
  have hfirst : (call_all (fun _ => "") (sampleCalls.take 1) brokenStream).2 = { brokenStream with
      pending := envelope (fun _ => "") "example.org" 80 sampleRandom 2 ++ [1, 2]
      started := true } := rfl
  have hflush : ∀ front, Call.flush.perform (fun _ => "") 1 { brokenStream with pending := front ++ [1, 2], started := true } =
      (.error .pending, { brokenStream with
        inner := ⟨[], [.failed (.from .Other), .ready 100], [], [], [], [], [], false⟩
        pending := front ++ [1, 2]
        started := true }) := by
    rintro (_ | ⟨first, front⟩)
    · rfl
    · rfl
  have hstop : ∀ front, Call.flush.perform (fun _ => "") 2 { brokenStream with
        inner := ⟨[], [.failed (.from .Other), .ready 100], [], [], [], [], [], false⟩
        pending := front ++ [1, 2]
        started := true } =
      (.error (.failed (.from .Other)), { brokenStream with
        inner := ⟨[], [.ready 100], [], [], [], [], [], false⟩
        pending := front ++ [1, 2]
        started := true
        failed := true }) := by
    rintro (_ | ⟨first, front⟩)
    · rfl
    · rfl
  have hsecond : (call_all (fun _ => "") (sampleCalls.take 2) brokenStream).2 = { brokenStream with
      inner := ⟨[], [.failed (.from .Other), .ready 100], [], [], [], [], [], false⟩
      pending := envelope (fun _ => "") "example.org" 80 sampleRandom 2 ++ [1, 2]
      started := true } := by
    have hsplit : sampleCalls.take 2 = sampleCalls.take 1 ++ [(1, .flush)] := rfl
    rw [hsplit, call_all_append, hfirst, call_all, hflush]
    rfl
  obtain ⟨-, hlast⟩ := @sent_request_then_acks (fun _ => "") _ _ _ _ hnew rfl rfl sampleCalls
  have hperform := hstop (envelope (fun _ => "") "example.org" 80 sampleRandom 2)
  rw [← hsecond] at hperform
  refine ⟨congrArg Prod.fst hperform, ?_⟩
  refine hlast (sampleCalls.take 2) 2 .flush (sampleCalls.drop 3) rfl (.from .Other) _ hperform (.inl ?_)
  exact List.append_ne_nil_of_right_ne_nil _ (List.cons_ne_nil _ _)

end zc.simple_obfs
