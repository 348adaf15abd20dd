import Zc.SimpleObfs.Stream

/-!
# Reading after the response head

What a read hands out is the stream after the head of the response, wherever the transport cuts the
stream. The rules hold of any transport with an invariant of its own; `Peer` says what they use of it.
-/

namespace zc.simple_obfs

open Poll (Act)

/-! ## The head of the response -/

/-- The status that switches protocols, alone or before a space or a tab. -/
def Switches (status : List UInt8) : Prop :=
  status = STATUS ∨ ∃ c reason, (c = 32 ∨ c = 9) ∧ status = STATUS ++ c :: reason

theorem valid_status_iff {status : List UInt8} : valid_status status = true ↔ Switches status := by
  have hlength : STATUS.length = 12 := by decide
  simp only [valid_status, Bool.and_eq_true, Bool.or_eq_true, decide_eq_true_eq, beq_iff_eq, List.isPrefixOf_iff_prefix]
  constructor
  · rintro ⟨⟨reason, rfl⟩, hnext⟩
    cases reason with
    | nil => exact .inl (List.append_nil _)
    | cons c reason =>
      have hget : (STATUS ++ c :: reason)[12]? = some c := by
        rw [List.getElem?_append_right (Nat.le_of_eq hlength), hlength]
        rfl
      rw [hget, List.length_append, hlength, List.length_cons] at hnext
      refine .inr ⟨c, reason, ?_, rfl⟩
      rcases hnext with (hlen | hspace) | htab
      · omega
      · exact .inl (Option.some.inj hspace)
      · exact .inr (Option.some.inj htab)
  · rintro (rfl | ⟨c, reason, hc, rfl⟩)
    · exact ⟨List.prefix_refl _, .inl (.inl (Nat.le_of_eq hlength))⟩
    · have hget : (STATUS ++ c :: reason)[12]? = some c := by
        rw [List.getElem?_append_right (Nat.le_of_eq hlength), hlength]
        rfl
      refine ⟨List.prefix_append _ _, ?_⟩
      rw [hget]
      rcases hc with rfl | rfl
      · exact .inl (.inr rfl)
      · exact .inr rfl

/-- A stream that starts with the head of a response that switches protocols, and the rest of it. -/
def Upgrades (stream rest : List UInt8) : Prop :=
  ∃ finish line_end, Search.First (CRLF ++ CRLF) stream finish ∧ finish + 4 ≤ HEADER_LIMIT ∧
    Search.First CRLF stream line_end ∧ Switches (stream.take line_end) ∧ rest = stream.drop (finish + 4)

/-- A stream that holds no end of a response head. -/
def Headless (stream : List UInt8) : Prop :=
  ∀ j, ¬ CRLF ++ CRLF <+: stream.drop j

theorem crlf_ne_nil : CRLF ≠ [] := by
  decide

theorem crlf_crlf_ne_nil : CRLF ++ CRLF ≠ [] := by
  decide

theorem Upgrades.append {stream rest : List UInt8} (hupgrades : Upgrades stream rest) (more : List UInt8) :
    Upgrades (stream ++ more) (rest ++ more) := by
  obtain ⟨finish, line_end, hfinish, hlimit, hline, hstatus, rfl⟩ := hupgrades
  have hle := Search.le_length_of_first crlf_crlf_ne_nil hfinish
  have hle' := Search.le_length_of_first crlf_ne_nil hline
  refine ⟨finish, line_end, Search.first_append crlf_crlf_ne_nil hfinish, hlimit,
    Search.first_append crlf_ne_nil hline, ?_, ?_⟩
  · rwa [List.take_append_of_le_length (by omega)]
  · exact (List.drop_append_of_le_length hle).symm

variable {stream : List UInt8}

theorem Upgrades.unique {rest rest' : List UInt8} (hupgrades : Upgrades stream rest)
    (hupgrades' : Upgrades stream rest') : rest = rest' := by
  obtain ⟨finish, -, hfinish, -, -, -, rfl⟩ := hupgrades
  obtain ⟨finish', -, hfinish', -, -, -, rfl⟩ := hupgrades'
  rw [Search.first_unique hfinish hfinish']

/-- Whatever follows, the stream is not the response that is waited for. -/
def Refused (stream : List UInt8) : Prop :=
  ∀ more rest, ¬ Upgrades (stream ++ more) rest

theorem refused_of_full (hnone : Headless stream) (hfull : stream.length = HEADER_LIMIT) : Refused stream := by
  rintro more rest ⟨finish, line_end, hfinish, hlimit, -⟩
  have hlt := Search.lt_of_first_append hnone hfinish
  rw [hfull] at hlt
  exact absurd hlimit (Nat.not_le_of_lt hlt)

theorem refused_of_status {line_end : Nat} (hline : Search.First CRLF stream line_end)
    (hstatus : valid_status (stream.take line_end) = false) : Refused stream := by
  rintro more rest ⟨finish, line_end', -, -, hline', hstatus', -⟩
  have hle := Search.le_length_of_first crlf_ne_nil hline
  obtain rfl := Search.first_unique (Search.first_append crlf_ne_nil hline) hline'
  rw [List.take_append_of_le_length (by omega), ← valid_status_iff, hstatus] at hstatus'
  cases hstatus'

/-- The line ends before the head does. -/
theorem exists_line_end {finish : Nat} (hfinish : Search.First (CRLF ++ CRLF) stream finish) :
    ∃ line_end, Search.First CRLF stream line_end := by
  cases hline : Search.position CRLF stream with
  | some line_end => exact ⟨line_end, (Search.position_eq_some_iff crlf_ne_nil).1 hline⟩
  | none =>
    have hnone := (Search.position_eq_none_iff crlf_ne_nil).1 hline finish
    exact absurd ((List.prefix_append _ _).trans hfinish.1) hnone

/-! ## Transports -/

/-- What the rules use of a transport with the invariant `holds`: a read that gives out nothing has
    reached the end, which stays to come while the transport is `opened`, and the errors are known. -/
structure Peer (holds ended opened : Wire io.Error → Prop) (errors : io.Error → Prop) : Prop where
  read : ∀ capacity wire, 0 < capacity → holds wire → Act.wp (Wire.poll_read capacity)
    (fun bytes wire' => Wire.Reads wire wire' bytes ∧ bytes.length ≤ capacity ∧ holds wire' ∧ (bytes = [] → ended wire') ∧
      (opened wire → bytes ≠ [] → opened wire'))
    (fun stop wire' => Wire.Reads wire wire' [] ∧ holds wire' ∧ (opened wire → opened wire') ∧
      (stop = .pending ∨ ∃ error, stop = .failed error ∧ errors error)) wire

variable {early : Poll.Stop io.Error → HttpObfsStream → Prop} {this : HttpObfsStream} {given : List UInt8}

namespace HttpObfsStream

theorem wp_fail {α : Type} {error : io.Error} {post : α → HttpObfsStream → Prop} :
    Act.wp (fail error) post early this ↔ early (.failed error) { this with failed := true } :=
  Iff.rfl

theorem wp_onInner {α : Type} {act : Act (Wire io.Error) io.Error α} {post : α → HttpObfsStream → Prop} :
    Act.wp (onInner act) post early this ↔
      Act.wp act (fun value inner => post value { this with inner })
        (fun reason inner => early reason { this with inner }) this.inner :=
  Act.wp_zoom

/-- What reading leaves as it is. -/
structure Quiet (this this' : HttpObfsStream) : Prop where
  sent : this'.inner.sent = this.inner.sent
  pending : this'.pending = this.pending
  written : this'.written = this.written
  started : this'.started = this.started
  host : this'.host = this.host
  port : this'.port = this.port
  deadline : this'.deadline = this.deadline ∨ this'.deadline = none

/-- Where a stream stands that has handed out the `given` bytes. -/
inductive Reading (given : List UInt8) (this : HttpObfsStream) : Prop
  | header (hupgraded : this.upgraded = false) (hresponse : this.response = this.inner.received)
    (hnone : Headless this.response) (hlength : this.response.length < HEADER_LIMIT) (hgiven : given = [])
  | raw {rest : List UInt8} (hupgraded : this.upgraded = true) (hupgrades : Upgrades this.inner.received rest)
    (hlength : this.response.length ≤ HEADER_LIMIT) (htail : this.tail ≤ this.response.length)
    (hgiven : given ++ this.response.drop this.tail = rest)

/-- Bytes that came with the response head and are still to hand out. -/
def undelivered (this : HttpObfsStream) : Nat :=
  if this.upgraded then this.response.length - this.tail else 0

/-- The response is looked at after more of it has come in. -/
theorem wp_check_response {this : HttpObfsStream} (hupgraded : this.upgraded = false)
    (hresponse : this.response = this.inner.received) (hlength : this.response.length ≤ HEADER_LIMIT)
    {seen input : List UInt8} (hseen : this.response = seen ++ input) (hnone : Headless seen) :
    Act.wp check_response
      (fun _ this' => Reading [] this' ∧ Quiet this this' ∧ this'.inner = this.inner ∧ this'.response = this.response ∧
        this'.failed = this.failed ∧ this'.undelivered ≤ input.length)
      (fun stop this' => (∃ error, stop = .failed error) ∧ this' = { this with failed := true } ∧
        Refused this.inner.received) this := by
  unfold check_response
  rw [Act.wp_bind, Act.wp_get]
  cases hfinish : Search.position (CRLF ++ CRLF) this.response with
  | none =>
    have hnone' := (Search.position_eq_none_iff crlf_crlf_ne_nil).1 hfinish
    dsimp only
    split_ifs with hfull
    · rw [wp_fail]
      exact ⟨⟨_, rfl⟩, rfl, hresponse ▸ refused_of_full hnone' hfull⟩
    · rw [Act.wp_pure]
      have hundelivered : this.undelivered = 0 := if_neg (by rw [hupgraded]; exact Bool.false_ne_true)
      refine ⟨.header hupgraded hresponse hnone' (Nat.lt_of_le_of_ne hlength hfull) rfl,
        ⟨rfl, rfl, rfl, rfl, rfl, rfl, .inl rfl⟩, rfl, rfl, rfl, ?_⟩
      rw [hundelivered]
      exact Nat.zero_le _
  | some finish =>
    have hfirst := (Search.position_eq_some_iff crlf_crlf_ne_nil).1 hfinish
    have hle := Search.le_length_of_first crlf_crlf_ne_nil hfirst
    obtain ⟨line_end, hline⟩ := exists_line_end hfirst
    rw [(Search.position_eq_some_iff crlf_ne_nil).2 hline]
    dsimp only
    split_ifs with hstatus
    · rw [Act.wp_modify]
      refine ⟨.raw rfl ⟨finish, line_end, hresponse ▸ hfirst, Nat.le_trans hle hlength, hresponse ▸ hline,
        hresponse ▸ valid_status_iff.1 hstatus, rfl⟩ hlength hle ?_, ⟨rfl, rfl, rfl, rfl, rfl, rfl, .inr rfl⟩, rfl, rfl, rfl, ?_⟩
      · change [] ++ this.response.drop (finish + 4) = this.inner.received.drop (finish + 4)
        rw [hresponse]
        rfl
      · -- the head ends within what has come in last
        change this.response.length - (finish + 4) ≤ input.length
        have hlt := Search.lt_of_first_append hnone (hseen ▸ hfirst)
        have htotal : this.response.length = seen.length + input.length := by rw [hseen, List.length_append]
        change seen.length < finish + 4 at hlt
        omega
    · rw [wp_fail]
      exact ⟨⟨_, rfl⟩, rfl, hresponse ▸ refused_of_status hline (Bool.eq_false_iff.2 hstatus)⟩

section Peer

variable {holds ended opened : Wire io.Error → Prop} {errors : io.Error → Prop} {now remaining : Nat}

/-- Why a stream that waits for the response has failed. -/
inductive Broken (ended : Wire io.Error → Prop) (errors : io.Error → Prop) (now : Nat) (this this' : HttpObfsStream) : Prop
  | refused (hrefused : Refused this'.inner.received)
  | ended (hended : ended this'.inner) (hnone : Headless this'.inner.received)
  | transport {error : io.Error} (herror : errors error)
  | late (hlate : this.deadline.any (· ≤ now) = true)

/-- A bound on the reads that a stream still has to make, with what is left to hand out. -/
def effort (this : HttpObfsStream) : Nat :=
  Wire.patience this.inner.reads + (Wire.segments this.inner.reads).length + this.undelivered

/-- How a read ends early: the stream waits on, the response is given up, or the transport has failed later. -/
inductive Ends (holds ended opened : Wire io.Error → Prop) (errors : io.Error → Prop) (now : Nat) (given : List UInt8)
    (this this' : HttpObfsStream) : Poll.Stop io.Error → Prop
  | pending (hreading : Reading given this') (hfailed : this'.failed = false)
    (heffort : this'.effort < this.effort ∨ this'.effort = 0)
    (hopened : this'.upgraded = false → opened this'.inner) : Ends holds ended opened errors now given this this' .pending
  | broken {error : io.Error} (hupgraded : this'.upgraded = false) (hgiven : given = []) (hfailed : this'.failed = true)
    (hlength : this'.response.length ≤ HEADER_LIMIT) (hbroken : Broken ended errors now this this') : Ends holds ended opened errors now given this this' (.failed error)
  | later {error : io.Error} (hupgraded : this'.upgraded = true) (hfailed : this'.failed = false)
    (hreading : Reading given this') (herror : errors error) :
    Ends holds ended opened errors now given this this' (.failed error)

theorem undelivered_of_header (hupgraded : this.upgraded = false) : this.undelivered = 0 := by
  rw [undelivered, hupgraded]
  rfl

theorem wp_read_response (hpeer : Peer holds ended opened errors) (hupgraded : this.upgraded = false)
    (hresponse : this.response = this.inner.received) (hnone : Headless this.response)
    (hlength : this.response.length < HEADER_LIMIT) (hfailed : this.failed = false) (hholds : holds this.inner)
    (hopened : opened this.inner) :
    Act.wp read_response
      (fun _ this' => Reading [] this' ∧ Quiet this this' ∧ holds this'.inner ∧ this'.failed = false ∧
        this.response.length < this'.response.length ∧ this'.effort < this.effort ∧ opened this'.inner)
      (fun stop this' => Ends holds ended opened errors now [] this this' stop ∧ Quiet this this' ∧ holds this'.inner) this := by
  unfold read_response
  rw [Act.wp_bind, Act.wp_get, Act.wp_bind, Act.wp_assert (decide_eq_true (Nat.le_of_lt hlength)), Act.wp_bind, Act.wp_ready,
    wp_onInner]
  refine Act.wp_mono (hpeer.read _ _ (Nat.sub_pos_of_lt hlength) hholds) ?_ ?_
  · rintro input inner ⟨hreads, hcapacity, hholds', hended, hopened'⟩
    dsimp only
    split_ifs with hempty
    · have hnil := List.isEmpty_iff.1 hempty
      have hreceived : inner.received = this.response := by
        rw [hreads.received, hnil, List.append_nil, hresponse]
      rw [wp_fail]
      refine ⟨.broken hupgraded rfl rfl (Nat.le_of_lt hlength) (.ended (hended hnil) ?_), ⟨hreads.sent, rfl, rfl, rfl, rfl, rfl, .inl rfl⟩, hholds'⟩
      change Headless inner.received
      rwa [hreceived]
    · have hne : input ≠ [] := fun hnil => hempty (List.isEmpty_iff.2 hnil)
      have hpos := List.length_pos_iff.2 hne
      have heffort : Wire.patience inner.reads + (Wire.segments inner.reads).length + input.length < this.effort := by
        have hpatience := hreads.patience
        have hsegments := congrArg List.length hreads.segments
        rw [List.length_append] at hsegments
        rw [effort, undelivered_of_header hupgraded]
        rcases hpatience with hless | ⟨hnil, -⟩
        · omega
        · rw [hnil] at hsegments
          change 0 = _ at hsegments
          omega
      have htotal : (this.response ++ input).length ≤ HEADER_LIMIT := by
        rw [List.length_append]
        omega
      rw [Act.wp_bind, Act.wp_modify]
      refine Act.wp_mono (@wp_check_response { this with inner, response := this.response ++ input } hupgraded ?_ htotal
        this.response input rfl hnone) ?_ ?_
      · change this.response ++ input = inner.received
        rw [hreads.received, hresponse]
      · rintro _ this' ⟨hreading, hquiet, hinner, hresponse', hfailed', hundelivered⟩
        refine ⟨hreading, ⟨?_, hquiet.pending, hquiet.written, hquiet.started, hquiet.host, hquiet.port, hquiet.deadline⟩,
          hinner ▸ hholds', hfailed'.trans hfailed, ?_, ?_, hinner ▸ hopened' hopened hne⟩
        · rw [hinner]
          exact hreads.sent
        · rw [hresponse', List.length_append]
          omega
        · rw [effort, hinner]
          dsimp only
          omega
      · rintro stop this' ⟨⟨error, rfl⟩, rfl, hrefused⟩
        exact ⟨.broken hupgraded rfl rfl htotal (.refused hrefused), ⟨hreads.sent, rfl, rfl, rfl, rfl, rfl, .inl rfl⟩, hholds'⟩
  · rintro stop inner ⟨hreads, hholds', hopened', rfl | ⟨error, rfl, herror⟩⟩
    · refine ⟨.pending (.header hupgraded ?_ hnone hlength rfl) hfailed ?_ fun _ => hopened' hopened,
        ⟨hreads.sent, rfl, rfl, rfl, rfl, rfl, .inl rfl⟩, hholds'⟩
      · change this.response = inner.received
        rw [hreads.received, List.append_nil, hresponse]
      · have hsegments := congrArg List.length hreads.segments
        have hundelivered := undelivered_of_header hupgraded
        have hundelivered' : undelivered { this with inner } = 0 := undelivered_of_header hupgraded
        rw [List.nil_append] at hsegments
        rw [effort, effort, hundelivered, hundelivered']
        dsimp only
        rcases hreads.patience with hless | ⟨-, hnil⟩
        · exact .inl (by omega)
        · exact .inr (by rw [hnil]; rfl)
    · dsimp only
      rw [wp_fail]
      exact ⟨.broken hupgraded rfl rfl (Nat.le_of_lt hlength) (.transport herror), ⟨hreads.sent, rfl, rfl, rfl, rfl, rfl, .inl rfl⟩, hholds'⟩

/-- Hands out the next bytes of the tail, at least one. -/
theorem wp_take_tail (hreading : Reading given this) (hupgraded : this.upgraded = true)
    (htail : this.tail < this.response.length) (hremaining : 0 < remaining) :
    Act.wp (take_tail remaining)
      (fun bytes this' => Reading (given ++ bytes) this' ∧ Quiet this this' ∧ this'.inner = this.inner ∧
        this'.upgraded = true ∧ this'.failed = this.failed ∧ this'.effort < this.effort) early this := by
  cases hreading with
  | header hheader => rw [hheader] at hupgraded; cases hupgraded
  | @raw rest _ hupgrades hlength hle hgiven =>
    have hfits : this.tail + min remaining (this.response.length - this.tail) ≤ this.response.length := by omega
    have hundelivered : this.undelivered = this.response.length - this.tail := if_pos hupgraded
    unfold take_tail
    rw [Act.wp_bind, Act.wp_get, Act.wp_bind, Act.wp_assert (decide_eq_true hfits), Act.wp_bind, Act.wp_modify, Act.wp_pure]
    by_cases hall : this.tail + min remaining (this.response.length - this.tail) = this.response.length
    · rw [if_pos hall]
      refine ⟨.raw hupgraded hupgrades (Nat.zero_le _) (Nat.le_refl _) ?_, ⟨rfl, rfl, rfl, rfl, rfl, rfl, .inl rfl⟩, rfl,
        hupgraded, rfl, ?_⟩
      · rw [← hgiven, List.drop_nil, List.append_nil, List.take_of_length_le]
        rw [List.length_drop]
        omega
      · have hundelivered' : undelivered { this with response := [], tail := 0 } = 0 := if_pos hupgraded
        rw [effort, effort, hundelivered, hundelivered']
        dsimp only
        omega
    · rw [if_neg hall]
      refine ⟨.raw hupgraded hupgrades hlength hfits ?_, ⟨rfl, rfl, rfl, rfl, rfl, rfl, .inl rfl⟩, rfl, hupgraded, rfl, ?_⟩
      · dsimp only
        rw [← hgiven, List.append_assoc, ← List.drop_drop, List.take_append_drop]
      · have hundelivered' : undelivered { this with tail := this.tail + min remaining (this.response.length - this.tail) } =
            this.response.length - (this.tail + min remaining (this.response.length - this.tail)) := if_pos hupgraded
        rw [effort, effort, hundelivered, hundelivered']
        dsimp only
        omega

/-- Reads on from the transport once the tail is handed out. -/
theorem wp_read_raw (hpeer : Peer holds ended opened errors) (hreading : Reading given this)
    (hupgraded : this.upgraded = true) (htail : this.response.length ≤ this.tail) (hfailed : this.failed = false)
    (hholds : holds this.inner) (hremaining : 0 < remaining) :
    Act.wp (onInner (Wire.poll_read remaining))
      (fun bytes this' => Reading (given ++ bytes) this' ∧ Quiet this this' ∧ holds this'.inner ∧ this'.upgraded = true ∧
        this'.failed = false ∧ (this'.effort < this.effort ∨ this'.effort = 0))
      (fun stop this' => Ends holds ended opened errors now given this this' stop ∧ Quiet this this' ∧ holds this'.inner)
      this := by
  cases hreading with
  | header hheader => rw [hheader] at hupgraded; cases hupgraded
  | @raw rest _ hupgrades hlength hle hgiven =>
    have hnil : this.response.drop this.tail = [] := List.drop_of_length_le htail
    have hrest : given = rest := by rw [← hgiven, hnil, List.append_nil]
    subst hrest
    have hraw : ∀ inner bytes, Wire.Reads this.inner inner bytes → Reading (given ++ bytes) { this with inner } := by
      intro inner bytes hreads
      refine @Reading.raw _ _ (given ++ bytes) hupgraded ?_ hlength hle ?_
      · change Upgrades inner.received _
        rw [hreads.received]
        exact hupgrades.append bytes
      · dsimp only
        rw [hnil, List.append_nil]
    have heffort : ∀ inner bytes, Wire.Reads this.inner inner bytes →
        effort { this with inner } < this.effort ∨ effort { this with inner } = 0 := by
      intro inner bytes hreads
      have hsegments := congrArg List.length hreads.segments
      have hundelivered : this.undelivered = this.response.length - this.tail := if_pos hupgraded
      have hundelivered' : undelivered { this with inner } = this.response.length - this.tail := if_pos hupgraded
      rw [List.length_append] at hsegments
      rw [effort, effort, hundelivered, hundelivered']
      dsimp only
      rcases hreads.patience with hless | ⟨-, hend⟩
      · exact .inl (by omega)
      · rw [hend, Nat.sub_eq_zero_of_le htail]
        exact .inr rfl
    rw [wp_onInner]
    refine Act.wp_mono (hpeer.read _ _ hremaining hholds) ?_ ?_
    · rintro bytes inner ⟨hreads, -, hholds', -⟩
      exact ⟨hraw inner bytes hreads, ⟨hreads.sent, rfl, rfl, rfl, rfl, rfl, .inl rfl⟩, hholds', hupgraded, hfailed,
        heffort inner bytes hreads⟩
    · rintro stop inner ⟨hreads, hholds', -, hstop⟩
      have hreading' := hraw inner [] hreads
      rw [List.append_nil] at hreading'
      refine ⟨?_, ⟨hreads.sent, rfl, rfl, rfl, rfl, rfl, .inl rfl⟩, hholds'⟩
      obtain rfl | ⟨error, rfl, herror⟩ := hstop
      · refine .pending hreading' hfailed (heffort inner [] hreads) fun hheader => ?_
        rw [show this.upgraded = false from hheader] at hupgraded
        cases hupgraded
      · exact .later hupgraded hfailed hreading' herror

/-- A stream between two rounds of a read. -/
structure Waits (holds opened : Wire io.Error → Prop) (given : List UInt8) (this this' : HttpObfsStream) : Prop where
  reading : Reading given this'
  quiet : Quiet this this'
  holds : holds this'.inner
  failed : this'.failed = false
  opened : this'.upgraded = false → opened this'.inner
  effort : this'.effort ≤ this.effort

theorem Quiet.trans {this' this'' : HttpObfsStream} (hquiet : Quiet this this') (hquiet' : Quiet this' this'') :
    Quiet this this'' where
  sent := hquiet'.sent.trans hquiet.sent
  pending := hquiet'.pending.trans hquiet.pending
  written := hquiet'.written.trans hquiet.written
  started := hquiet'.started.trans hquiet.started
  host := hquiet'.host.trans hquiet.host
  port := hquiet'.port.trans hquiet.port
  deadline := hquiet'.deadline.elim (fun heq => hquiet.deadline.imp heq.trans heq.trans) .inr

theorem Ends.trans {this' this'' : HttpObfsStream} {stop : Poll.Stop io.Error}
    (hends : Ends holds ended opened errors now given this' this'' stop) (hwaits : Waits holds opened given this this') :
    Ends holds ended opened errors now given this this'' stop := by
  have hle := hwaits.effort
  cases hends with
  | pending hreading hfailed heffort hopened =>
    exact .pending hreading hfailed (heffort.imp (fun hlt => Nat.lt_of_lt_of_le hlt hle) id) hopened
  | later hupgraded hfailed hreading herror => exact .later hupgraded hfailed hreading herror
  | broken hupgraded hgiven hfailed hlength hbroken =>
    refine .broken hupgraded hgiven hfailed hlength ?_
    cases hbroken with
    | refused hrefused => exact .refused hrefused
    | ended hended hnone => exact .ended hended hnone
    | transport herror => exact .transport herror
    | late hlate =>
      obtain heq | heq := hwaits.quiet.deadline
      · exact .late (heq ▸ hlate)
      · rw [heq] at hlate
        cases hlate

/-- One round hands out bytes, or reads more of the response. -/
theorem wp_read_round (hpeer : Peer holds ended opened errors) (hreading : Reading given this)
    (hfailed : this.failed = false) (hholds : holds this.inner) (hopened : this.upgraded = false → opened this.inner)
    (hremaining : 0 < remaining) :
    Act.wp (read_round now remaining)
      (fun value this' => match value with
        | some bytes => Waits holds opened (given ++ bytes) this this' ∧ this'.upgraded = true ∧
          (this'.effort < this.effort ∨ this'.effort = 0)
        | none => Waits holds opened given this this' ∧ rounds_left this' < rounds_left this ∧ this'.effort < this.effort)
      (fun stop this' => Ends holds ended opened errors now given this this' stop ∧ Quiet this this' ∧ holds this'.inner)
      this := by
  unfold read_round
  rw [Act.wp_bind, Act.wp_get]
  by_cases hupgraded : this.upgraded = true
  · have hlater : ∀ this' : HttpObfsStream, this'.upgraded = true → this'.upgraded = false → opened this'.inner := by
      intro this' htrue hfalse
      rw [htrue] at hfalse
      cases hfalse
    rw [if_pos hupgraded]
    split_ifs with htail
    · rw [Act.wp_bind]
      refine Act.wp_mono (wp_take_tail hreading hupgraded htail hremaining) ?_ fun _ _ h => h
      rintro bytes this' ⟨hreading', hquiet, hinner, hupgraded', hfailed', heffort⟩
      exact ⟨⟨hreading', hquiet, hinner ▸ hholds, hfailed'.trans hfailed, hlater this' hupgraded', Nat.le_of_lt heffort⟩,
        hupgraded', .inl heffort⟩
    · rw [Act.wp_bind]
      refine Act.wp_mono (wp_read_raw hpeer hreading hupgraded (Nat.le_of_not_lt htail) hfailed hholds hremaining) ?_
        fun _ _ h => h
      rintro bytes this' ⟨hreading', hquiet, hholds', hupgraded', hfailed', heffort⟩
      refine ⟨⟨hreading', hquiet, hholds', hfailed', hlater this' hupgraded', ?_⟩, hupgraded', heffort⟩
      omega
  · cases hreading with
    | raw hraw => exact absurd hraw hupgraded
    | header hheader hresponse hnone hlength hgiven =>
      subst hgiven
      rw [if_neg hupgraded]
      split_ifs with hlate
      · rw [wp_fail]
        exact ⟨.broken hheader rfl rfl (Nat.le_of_lt hlength) (.late hlate), ⟨rfl, rfl, rfl, rfl, rfl, rfl, .inl rfl⟩, hholds⟩
      · rw [Act.wp_bind]
        refine Act.wp_mono (wp_read_response hpeer hheader hresponse hnone hlength hfailed hholds (hopened hheader)) ?_
          fun _ _ h => h
        rintro _ this' ⟨hreading', hquiet, hholds', hfailed', hlonger, heffort, hopened'⟩
        refine ⟨⟨hreading', hquiet, hholds', hfailed', fun _ => hopened', Nat.le_of_lt heffort⟩, ?_, heffort⟩
        have hleft : rounds_left this = HEADER_LIMIT + 2 - this.response.length := if_neg hupgraded
        rw [hleft, rounds_left]
        split_ifs
        · omega
        · omega

theorem rounds_left_pos (hreading : Reading given this) : 0 < rounds_left this := by
  rw [rounds_left]
  cases hreading with
  | header hheader _ _ hlength =>
    rw [if_neg (by rw [hheader]; exact Bool.false_ne_true)]
    omega
  | raw hraw =>
    rw [if_pos hraw]
    exact Nat.one_pos

/-- The rounds of one read. -/
theorem wp_read_loop (hpeer : Peer holds ended opened errors) {this : HttpObfsStream} {given : List UInt8}
    (hreading : Reading given this) (hfailed : this.failed = false) (hholds : holds this.inner)
    (hopened : this.upgraded = false → opened this.inner) (hremaining : 0 < remaining) :
    Act.wp (Act.loop rounds_left (read_round now remaining))
      (fun bytes this' => Waits holds opened (given ++ bytes) this this' ∧ (this'.effort < this.effort ∨ this'.effort = 0))
      (fun stop this' => Ends holds ended opened errors now given this this' stop ∧ Quiet this this' ∧ holds this'.inner)
      this := by
  refine Act.wp_loop (I := fun this' => Waits holds opened given this this') ?_ ?_
    ⟨hreading, ⟨rfl, rfl, rfl, rfl, rfl, rfl, .inl rfl⟩, hholds, hfailed, hopened, Nat.le_refl _⟩
  · intro this' hwaits
    exact rounds_left_pos hwaits.reading
  · intro this' hwaits
    refine Act.wp_mono (wp_read_round hpeer hwaits.reading hwaits.failed hwaits.holds hwaits.opened hremaining) ?_ ?_
    · intro value this'' hvalue
      have hle := hwaits.effort
      cases value with
      | none =>
        obtain ⟨hnext, hrounds, heffort⟩ := hvalue
        exact ⟨⟨hnext.reading, hwaits.quiet.trans hnext.quiet, hnext.holds, hnext.failed, hnext.opened, by omega⟩, hrounds⟩
      | some bytes =>
        obtain ⟨hnext, -, heffort⟩ := hvalue
        refine ⟨⟨hnext.reading, hwaits.quiet.trans hnext.quiet, hnext.holds, hnext.failed, hnext.opened, ?_⟩, ?_⟩
        · exact hnext.effort.trans hle
        · exact heffort.imp (fun hlt => Nat.lt_of_lt_of_le hlt hle) id
    · rintro stop this'' ⟨hends, hquiet, hholds'⟩
      exact ⟨hends.trans hwaits, hwaits.quiet.trans hquiet, hholds'⟩

end Peer

end HttpObfsStream

end zc.simple_obfs
