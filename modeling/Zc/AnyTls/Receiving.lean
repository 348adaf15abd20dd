import Zc.AnyTls.Writing

/-!
# Frames from the peer

What a session has received are whole frames it acted on and the front of one more. Reading moves on
by bytes of that frame; once it is whole the session acts on it.
-/

namespace zc.anytls

open Poll (Act)
open Wire (arriving ends patience)

/-- Whether a header may come, as far as the settings and the acknowledgement have come. -/
def valid (v2 acknowledged : Bool) (cmd : UInt8) (id : UInt32) (len : Nat) : Bool :=
  match cmd with
  | 0 => id == 0
  | 2 => id == 1
  | 3 => id == 1 && len == 0
  | 5 | 6 => id == 0 && len ≤ MAX_TEXT
  | 7 => v2 && !acknowledged && id == 1 && len ≤ MAX_TEXT
  | 8 | 9 => v2 && len == 0
  | 10 => !v2 && id == 0 && len ≤ MAX_TEXT
  | _ => false

variable {this this' : AnyTls} {inner : Wire io.Error} {got : List Frame}

namespace AnyTls

theorem valid_header_eq (this : AnyTls) : this.valid_header = valid this.v2 this.acknowledged this.cmd this.id this.len :=
  rfl

/-- The frame that has been read. -/
structure Holds (this : AnyTls) (frame : Frame) : Prop where
  cmd : frame.cmd = this.cmd
  id : frame.id = this.id
  body : frame.body = this.body
  len : frame.body.length = this.len
  bytes : frame.bytes = this.header ++ this.body

theorem len_lt (this : AnyTls) : this.len < 65536 := by
  have hhigh := (this.header[5]?.getD 0).toNat_lt
  have hlow := (this.header[6]?.getD 0).toNat_lt
  rw [len, ofBe16]
  omega

theorem header_cases {header : List UInt8} (hheader : header.length = 7) :
    ∃ cmd a b c d high low, header = [cmd, a, b, c, d, high, low] := by
  match header, hheader with
  | [cmd, a, b, c, d, high, low], _ => exact ⟨cmd, a, b, c, d, high, low, rfl⟩

/-- A whole header and a body of the announced length are a frame. -/
theorem exists_holds (hheader : this.header.length = 7) (hbody : this.body.length = this.len) :
    ∃ frame, this.Holds frame := by
  refine ⟨⟨this.cmd, this.id, this.body, hbody ▸ this.len_lt⟩, rfl, rfl, rfl, hbody, ?_⟩
  obtain ⟨cmd, a, b, c, d, high, low, hcases⟩ := header_cases hheader
  change append_frame [] this.cmd this.id this.body = _
  rw [append_frame, hbody]
  simp only [AnyTls.cmd, AnyTls.id, AnyTls.len, hcases, List.nil_append]
  change [cmd] ++ be32 (ofBe32 a b c d) ++ be16 (ofBe16 high low) ++ this.body = _
  rw [be32_ofBe32, be16_ofBe16]
  rfl

/-- The first frame of a stream that starts with the header. -/
theorem firstFrame_of_header (hheader : this.header.length = 7) {more rest : List UInt8} {frame : Frame}
    (hfirst : firstFrame (this.header ++ more) = some (frame, rest)) :
    frame.cmd = this.cmd ∧ frame.id = this.id ∧ frame.body.length = this.len := by
  obtain ⟨cmd, a, b, c, d, high, low, hcases⟩ := header_cases hheader
  simp only [AnyTls.cmd, AnyTls.id, AnyTls.len, hcases]
  rw [hcases] at hfirst
  change firstFrame (cmd :: a :: b :: c :: d :: high :: low :: more) = _ at hfirst
  rw [firstFrame] at hfirst
  split_ifs at hfirst with hfits
  obtain ⟨rfl, -⟩ := Prod.mk.inj (Option.some.inj hfirst)
  refine ⟨rfl, rfl, ?_⟩
  rw [List.length_take, Nat.min_eq_left hfits.1]
  rfl

/-- What has been received is whole frames and the front of the next. -/
structure Incoming (got : List Frame) (this : AnyTls) : Prop where
  received : this.inner.received = encode got ++ (this.header ++ if this.header.length = 7 then this.body else [])
  header : this.header.length ≤ 7
  body : this.header.length = 7 →
    this.valid_header = true ∧ this.body_len = this.len ∧ this.body.length ≤ this.body_len ∧ this.delivered = 0

/-- The session after reading a part of a frame. -/
structure Reading (this this' : AnyTls) : Prop where
  received : this.inner.received <+: this'.inner.received
  stream : this'.inner.received ++ arriving this'.inner.reads = this.inner.received ++ arriving this.inner.reads
  ends : ends this'.inner.reads = ends this.inner.reads
  patience : patience this'.inner.reads + this'.inner.received.length ≤ patience this.inner.reads + this.inner.received.length
  writes : this'.inner.writes = this.inner.writes
  flushes : this'.inner.flushes = this.inner.flushes
  sent : this'.inner.sent = this.inner.sent
  shut : this'.inner.shut = this.inner.shut
  same : this' = { this with
    inner := this'.inner
    header := this'.header
    body := this'.body
    body_len := this'.body_len
    delivered := this'.delivered }

theorem Reading.refl (this : AnyTls) : Reading this this :=
  ⟨List.prefix_refl _, rfl, rfl, Nat.le_refl _, rfl, rfl, rfl, rfl, rfl⟩

theorem Reading.trans {this'' : AnyTls} (hreading : Reading this this') (hreading' : Reading this' this'') :
    Reading this this'' where
  received := hreading.received.trans hreading'.received
  stream := hreading'.stream.trans hreading.stream
  ends := hreading'.ends.trans hreading.ends
  patience := hreading'.patience.trans hreading.patience
  writes := hreading'.writes.trans hreading.writes
  flushes := hreading'.flushes.trans hreading.flushes
  sent := hreading'.sent.trans hreading.sent
  shut := hreading'.shut.trans hreading.shut
  same := by
    refine hreading'.same.trans ?_
    rw [hreading.same]

theorem Reading.taken (hreading : Reading this this') : this'.taken = this.taken := by
  rw [hreading.same]

/-- Why reading a frame fails. -/
inductive Breaks (got : List Frame) (this : AnyTls) : Prop
  | ended (hincoming : Incoming got this) (hended : arriving this.inner.reads = [])
    (hpart : this.header.length < 7 ∨ this.body.length < this.body_len)
  | header (hreceived : this.inner.received = encode got ++ this.header) (hheader : this.header.length = 7)
    (hvalid : this.valid_header = false)

/-- The transport after a read that gave out nothing. -/
structure Still (inner inner' : Wire io.Error) : Prop where
  received : inner'.received = inner.received
  sent : inner'.sent = inner.sent
  shut : inner'.shut = inner.shut

theorem still_of_reads {inner' : Wire io.Error} (hreads : Wire.Reads inner inner' []) : Still inner inner' :=
  ⟨hreads.received.trans (List.append_nil _), hreads.sent, hreads.shut⟩

/-- How reading a frame ends early. -/
inductive Halts (got : List Frame) (this this' : AnyTls) : Poll.Stop io.Error → Prop
  | pending (hincoming : Incoming got this') (hreading : Reading this this')
    (hpart : this'.header.length < 7 ∨ this'.body.length < this'.body_len)
    (hless : patience this'.inner.reads + this'.inner.received.length < patience this.inner.reads + this.inner.received.length ∨
      this'.inner.reads = []) :
    Halts got this this' .pending
  | failed {error : io.Error} {before : AnyTls} {inner : Wire io.Error} {kind : ErrorKind} (hreading : Reading this before)
    (hbreaks : Breaks got before) (hstill : Still before.inner inner)
    (hsame : this' = finished { before with inner, failure := some kind }) : Halts got this this' (.failed error)

theorem Halts.trans {this'' : AnyTls} {stop : Poll.Stop io.Error} (hreading : Reading this this')
    (hhalts : Halts got this' this'' stop) : Halts got this this'' stop := by
  cases hhalts with
  | pending hincoming hreading' hpart hless =>
    have hle := hreading.patience
    exact .pending hincoming (hreading.trans hreading') hpart (hless.imp_left fun hlt => by omega)
  | failed hreading' hbreaks hstill hsame => exact .failed (hreading.trans hreading') hbreaks hstill hsame

/-- A read of the transport, with what is still to arrive. -/
theorem wp_read {capacity : Nat} (hcapacity : 0 < capacity) {post : List UInt8 → Wire io.Error → Prop}
    {early : Poll.Stop io.Error → Wire io.Error → Prop}
    (hpost : ∀ bytes inner', bytes ≠ [] → bytes.length ≤ capacity → Wire.Reads inner inner' bytes → arriving inner.reads = bytes ++ arriving inner'.reads → ends inner'.reads = ends inner.reads → post bytes inner')
    (hended : ∀ inner', Wire.Reads inner inner' [] → arriving inner.reads = [] → inner'.answers = inner.answers ++ [.ready []] → post [] inner')
    (hpending : ∀ inner', Wire.Reads inner inner' [] → arriving inner.reads = arriving inner'.reads → ends inner'.reads = ends inner.reads → early .pending inner')
    (hfailed : ∀ error inner', Wire.Reads inner inner' [] → arriving inner.reads = [] → inner'.answers = inner.answers ++ [.failed error] → early (.failed error) inner') :
    Act.wp (Wire.poll_read capacity) post early inner := by
  have hreads : Act.wp (Wire.poll_read capacity)
      (fun bytes inner' => Wire.Reads inner inner' bytes ∧ bytes.length ≤ capacity)
      (fun stop inner' => Wire.Reads inner inner' [] ∧ stop ≠ .panicked) inner :=
    Wire.wp_poll_read hcapacity (fun bytes inner' hle hreads => ⟨hreads, hle⟩) (fun _ hreads => ⟨hreads, nofun⟩)
      fun _ _ hreads => ⟨hreads, nofun⟩
  refine Act.wp_mono (Act.wp_and hreads (Act.wp_and (Wire.wp_poll_read_arriving hcapacity) Wire.wp_poll_read_answers)) ?_ ?_
  · rintro bytes inner' ⟨⟨hreads, hle⟩, harriving, hanswers⟩
    cases bytes with
    | nil => exact hended inner' hreads harriving hanswers
    | cons byte bytes => exact hpost _ inner' (List.cons_ne_nil _ _) hle hreads harriving.1 harriving.2
  · rintro stop inner' ⟨⟨hreads, hsane⟩, harriving, hanswers⟩
    cases stop with
    | pending => exact hpending inner' hreads harriving.1 harriving.2
    | failed error => exact hfailed error inner' hreads harriving hanswers
    | panicked => exact absurd rfl hsane

/-- A part of a frame is read. -/
theorem reading_of_reads {bytes : List UInt8} (hreads : Wire.Reads this.inner inner bytes)
    (harriving : arriving this.inner.reads = bytes ++ arriving inner.reads)
    (hends : ends inner.reads = ends this.inner.reads) {header body : List UInt8} {body_len delivered : Nat}
    (hsame : this' = { this with inner, header, body, body_len, delivered }) : Reading this this' := by
  subst hsame
  refine ⟨?_, ?_, hends, ?_, hreads.writes, hreads.flushes, hreads.sent, hreads.shut, rfl⟩
  · exact ⟨bytes, hreads.received.symm⟩
  · change inner.received ++ arriving inner.reads = _
    rw [hreads.received, harriving, List.append_assoc]
  · have hsegments := congrArg List.length hreads.segments
    have hscript := hreads.script
    change patience inner.reads + inner.received.length ≤ _
    rw [List.length_append] at hsegments
    rw [patience, patience, hreads.received, List.length_append]
    omega

theorem less_of_reads {inner' : Wire io.Error} (hreads : Wire.Reads inner inner' []) :
    patience inner'.reads + inner'.received.length < patience inner.reads + inner.received.length ∨ inner'.reads = [] := by
  rcases hreads.patience with hless | ⟨-, hnil⟩
  · rw [hreads.received, List.append_nil]
    exact .inl (Nat.add_lt_add_right hless _)
  · exact .inr hnil

theorem Incoming.received_of_lt (hincoming : Incoming got this) (hheader : this.header.length < 7) :
    this.inner.received = encode got ++ this.header := by
  have hreceived := hincoming.received
  rwa [if_neg (Nat.ne_of_lt hheader), List.append_nil] at hreceived

theorem Incoming.received_of_eq (hincoming : Incoming got this) (hheader : this.header.length = 7) :
    this.inner.received = encode got ++ (this.header ++ this.body) := by
  have hreceived := hincoming.received
  rwa [if_pos hheader] at hreceived

/-- A transport that has given out nothing. -/
theorem Incoming.withInner (hincoming : Incoming got this) (hreceived : inner.received = this.inner.received) :
    Incoming got { this with inner } :=
  ⟨hreceived.trans hincoming.received, hincoming.header, hincoming.body⟩

theorem wp_header_round (hincoming : Incoming got this) (htaken : this.taken = false) (hheader : this.header.length < 7) :
    Act.wp header_round
      (fun _ this' => (Incoming got this' ∧ Reading this this') ∧ 7 - this'.header.length < 7 - this.header.length)
      (fun stop this' => Halts got this this' stop) this := by
  have hreceived := hincoming.received_of_lt hheader
  unfold header_round
  rw [Act.wp_bind, Act.wp_get, Act.wp_bind, wp_unwrap htaken, Act.wp_bind, Act.wp_ready, wp_onInner]
  have hended : ∀ inner kind error, Wire.Reads this.inner inner [] → arriving this.inner.reads = [] →
      Halts got this (finished { this with inner, failure := some kind }) (.failed error) :=
    fun inner kind error hreads harriving =>
      .failed (.refl this) (.ended hincoming harriving (.inl hheader)) (still_of_reads hreads) rfl
  refine wp_read (Nat.sub_pos_of_lt hheader) ?_ ?_ ?_ ?_
  · intro bytes inner hne hle hreads harriving hends
    have hlength : 0 < bytes.length := List.length_pos_iff.2 hne
    dsimp only
    rw [if_neg (by rwa [List.isEmpty_iff]), Act.wp_bind, Act.wp_modify, Act.wp_bind, Act.wp_get]
    dsimp only
    rw [List.length_append]
    have hreceived' : inner.received = encode got ++ (this.header ++ bytes) := by
      rw [hreads.received, hreceived, List.append_assoc]
    have hreading : ∀ body body_len delivered,
        Reading this { this with inner, header := this.header ++ bytes, body, body_len, delivered } :=
      fun body body_len delivered => reading_of_reads hreads harriving hends rfl
    by_cases hwhole : this.header.length + bytes.length = 7
    · rw [if_pos hwhole]
      by_cases hvalid : valid_header { this with inner, header := this.header ++ bytes } = true
      · rw [if_pos hvalid, Act.wp_modify]
        refine ⟨⟨⟨?_, ?_, ?_⟩, hreading _ _ _⟩, ?_⟩
        · change inner.received = encode got ++ (this.header ++ bytes ++ _)
          rw [hreceived', ite_self, List.append_nil]
        · change (this.header ++ bytes).length ≤ 7
          rw [List.length_append]
          omega
        · exact fun _ => ⟨hvalid, rfl, Nat.zero_le _, rfl⟩
        · change 7 - (this.header ++ bytes).length < _
          rw [List.length_append]
          omega
      · rw [if_neg hvalid, wp_fail]
        refine .failed (hreading this.body this.body_len this.delivered) (.header hreceived' ?_ ?_) ⟨rfl, rfl, rfl⟩ rfl
        · change (this.header ++ bytes).length = 7
          rwa [List.length_append]
        · exact Bool.eq_false_iff.2 hvalid
    · rw [if_neg hwhole, Act.wp_pure]
      refine ⟨⟨⟨?_, ?_, ?_⟩, hreading _ _ _⟩, ?_⟩
      · change inner.received = encode got ++ (this.header ++ bytes ++ if (this.header ++ bytes).length = 7 then _ else _)
        rw [hreceived', if_neg (by rwa [List.length_append]), List.append_nil]
      · change (this.header ++ bytes).length ≤ 7
        rw [List.length_append]
        omega
      · intro hseven
        change (this.header ++ bytes).length = 7 at hseven
        rw [List.length_append] at hseven
        exact absurd hseven hwhole
      · change 7 - (this.header ++ bytes).length < _
        rw [List.length_append]
        omega
  · intro inner hreads harriving _
    exact hended inner _ _ hreads harriving
  · intro inner hreads harriving hends
    refine .pending (hincoming.withInner (hreads.received.trans (List.append_nil _))) ?_ (.inl hheader) (less_of_reads hreads)
    exact reading_of_reads hreads harriving hends rfl
  · intro error inner hreads harriving _
    exact hended inner _ _ hreads harriving

theorem wp_body_round (hincoming : Incoming got this) (htaken : this.taken = false) (hheader : this.header.length = 7)
    (hbody : this.body.length < this.body_len) :
    Act.wp body_round
      (fun _ this' => (Incoming got this' ∧ Reading this this' ∧ this'.header.length = 7) ∧
        this'.body_len - this'.body.length < this.body_len - this.body.length)
      (fun stop this' => Halts got this this' stop) this := by
  have hreceived := hincoming.received_of_eq hheader
  obtain ⟨hvalid, hlen, -, hdelivered⟩ := hincoming.body hheader
  unfold body_round
  rw [Act.wp_bind, Act.wp_get, Act.wp_bind, wp_unwrap htaken, Act.wp_bind, Act.wp_ready, wp_onInner]
  have hended : ∀ inner kind error, Wire.Reads this.inner inner [] → arriving this.inner.reads = [] →
      Halts got this (finished { this with inner, failure := some kind }) (.failed error) :=
    fun inner kind error hreads harriving =>
      .failed (.refl this) (.ended hincoming harriving (.inr hbody)) (still_of_reads hreads) rfl
  refine wp_read (Nat.sub_pos_of_lt hbody) ?_ ?_ ?_ ?_
  · intro bytes inner hne hle hreads harriving hends
    have hlength : 0 < bytes.length := List.length_pos_iff.2 hne
    dsimp only
    rw [if_neg (by rwa [List.isEmpty_iff]), Act.wp_modify]
    refine ⟨⟨⟨?_, Nat.le_of_eq hheader, fun _ => ⟨hvalid, hlen, ?_, hdelivered⟩⟩, reading_of_reads hreads harriving hends rfl, hheader⟩,
      ?_⟩
    · change inner.received = encode got ++ (this.header ++ if this.header.length = 7 then this.body ++ bytes else [])
      rw [hreads.received, hreceived, if_pos hheader, List.append_assoc, List.append_assoc]
    · change (this.body ++ bytes).length ≤ this.body_len
      rw [List.length_append]
      omega
    · change this.body_len - (this.body ++ bytes).length < _
      rw [List.length_append]
      omega
  · intro inner hreads harriving _
    exact hended inner _ _ hreads harriving
  · intro inner hreads harriving hends
    refine .pending (hincoming.withInner (hreads.received.trans (List.append_nil _))) ?_ (.inr hbody) (less_of_reads hreads)
    exact reading_of_reads hreads harriving hends rfl
  · intro error inner hreads harriving _
    exact hended inner _ _ hreads harriving

/-! ## Acting on a frame -/

/-- What the session does with a frame. -/
inductive Reaction (md5 : List UInt8 → Vector UInt8 16) (frame : Frame) (this : AnyTls) : AnyTls → Prop
  | nothing (hcmd : frame.cmd = 0 ∨ frame.cmd = 9) : Reaction md5 frame this this
  | data (hcmd : frame.cmd = 2) : Reaction md5 frame this { this with data_ready := !frame.body.isEmpty }
  | fin (hcmd : frame.cmd = 3) : Reaction md5 frame this (finished this)
  | scheme {candidate : Padding} (hcmd : frame.cmd = 6) (hparse : Padding.parse md5 frame.body = .ok candidate) :
    Reaction md5 frame this { this with shared := candidate }
  | accepted (hcmd : frame.cmd = 7) (hempty : frame.body = []) : Reaction md5 frame this { this with acknowledged := true }
  | heartbeat (hcmd : frame.cmd = 8) (hroom : this.hearts.length ≠ MAX_HEARTS) :
    Reaction md5 frame this { this with hearts := this.hearts ++ [frame.id], reply_pending := true }
  | version {v : Nat} (hcmd : frame.cmd = 10) (hversion : server_version frame.body = .ok v) :
    Reaction md5 frame this { this with v2 := true }

/-- What ends the session. -/
inductive Refusal (md5 : List UInt8 → Vector UInt8 16) (frame : Frame) (this : AnyTls) : AnyTls → Prop
  | alert (hcmd : frame.cmd = 5) : Refusal md5 frame this this
  | scheme {error : io.Error} (hcmd : frame.cmd = 6) (hparse : Padding.parse md5 frame.body = .error error) :
    Refusal md5 frame this this
  | rejected (hcmd : frame.cmd = 7) (hbody : frame.body ≠ []) : Refusal md5 frame this { this with acknowledged := true }
  | flood (hcmd : frame.cmd = 8) (hfull : this.hearts.length = MAX_HEARTS) :
    Refusal md5 frame this { this with flooded := true }
  | version {error : io.Error} (hcmd : frame.cmd = 10) (hversion : server_version frame.body = .error error) :
    Refusal md5 frame this this
  | unknown (hcmd : ∀ v2 acknowledged, valid v2 acknowledged frame.cmd frame.id frame.body.length = false) :
    Refusal md5 frame this this

theorem wp_control {md5 : List UInt8 → Vector UInt8 16} {frame : Frame} (hholds : this.Holds frame) :
    Act.wp (control md5) (fun _ this' => Reaction md5 frame this this')
      (fun stop this' => (∃ error, stop = .failed error) ∧ Refusal md5 frame this this') this := by
  unfold control
  rw [Act.wp_bind, Act.wp_get, ← hholds.cmd, ← hholds.body]
  split
  · next hcmd => exact .nothing (.inl hcmd)
  · next hcmd => exact .nothing (.inr hcmd)
  · next hcmd =>
    have hdata : Reaction md5 frame this { this with data_ready := !frame.body.isEmpty } := .data hcmd
    rwa [hholds.body] at hdata
  · next hcmd => exact .fin hcmd
  · next hcmd => exact ⟨⟨_, rfl⟩, .alert hcmd⟩
  · next hcmd =>
    cases hparse : Padding.parse md5 frame.body with
    | error error => exact ⟨⟨error, rfl⟩, .scheme hcmd hparse⟩
    | ok candidate => exact .scheme hcmd hparse
  · next hcmd =>
    rw [Act.wp_bind, Act.wp_modify]
    by_cases hempty : frame.body = []
    · rw [if_neg (by rw [hempty]; decide)]
      exact .accepted hcmd hempty
    · rw [if_pos (by rwa [Bool.not_eq_true', ← Bool.not_eq_true, List.isEmpty_iff])]
      exact ⟨⟨_, rfl⟩, .rejected hcmd hempty⟩
  · next hcmd =>
    by_cases hfull : this.hearts.length = MAX_HEARTS
    · rw [if_pos hfull]
      exact ⟨⟨_, rfl⟩, .flood hcmd hfull⟩
    · rw [if_neg hfull, Act.wp_modify, ← hholds.id]
      exact .heartbeat hcmd hfull
  · next hcmd =>
    cases hversion : server_version frame.body with
    | error error => exact ⟨⟨error, rfl⟩, .version hcmd hversion⟩
    | ok v => exact .version hcmd hversion
  · refine ⟨⟨_, rfl⟩, .unknown fun v2 acknowledged => ?_⟩
    unfold valid
    split <;> first | rfl | contradiction

/-- A whole frame has been read. -/
structure Whole (got : List Frame) (frame : Frame) (this this' : AnyTls) : Prop where
  reading : Reading this this'
  incoming : Incoming got this'
  holds : this'.Holds frame
  valid : valid this'.v2 this'.acknowledged frame.cmd frame.id frame.body.length = true
  received : this'.inner.received = encode (got ++ [frame])
  delivered : this'.delivered = 0

/-- How acting on the next frame of the peer ends early. -/
inductive Fails (md5 : List UInt8 → Vector UInt8 16) (got : List Frame) (this this' : AnyTls) : Poll.Stop io.Error → Prop
  | reading {stop : Poll.Stop io.Error} (hhalts : Halts got this this' stop) : Fails md5 got this this' stop
  | refused {frame : Frame} {before after : AnyTls} {error : io.Error} {kind : ErrorKind} (hwhole : Whole got frame this before)
    (hrefusal : Refusal md5 frame before after) (hsame : this' = finished { after with failure := some kind }) :
    Fails md5 got this this' (.failed error)

theorem wp_header_rounds (hincoming : Incoming got this) (htaken : this.taken = false) :
    Act.wp (Act.whileDo (fun this => 7 - this.header.length) (fun this => decide (this.header.length < 7)) header_round)
      (fun _ this' => Incoming got this' ∧ Reading this this' ∧ this'.header.length = 7)
      (fun stop this' => Halts got this this' stop) this := by
  refine Act.wp_mono (Act.wp_whileDo (I := fun this' => Incoming got this' ∧ Reading this this') ?_ ?_ ⟨hincoming, .refl this⟩) ?_
    fun _ _ hhalts => hhalts
  · intro this' _ hless
    exact Nat.sub_pos_of_lt (of_decide_eq_true hless)
  · rintro this' ⟨hincoming', hreading⟩ hless
    refine Act.wp_mono (wp_header_round hincoming' (hreading.taken.trans htaken) (of_decide_eq_true hless)) ?_ ?_
    · rintro _ this'' ⟨⟨hincoming'', hreading'⟩, hmeasure⟩
      exact ⟨⟨hincoming'', hreading.trans hreading'⟩, hmeasure⟩
    · exact fun _ _ hhalts => hhalts.trans hreading
  · rintro _ this' ⟨⟨hincoming', hreading⟩, hdone⟩
    have hle := hincoming'.header
    have hnot := of_decide_eq_false hdone
    exact ⟨hincoming', hreading, by omega⟩

theorem wp_body_rounds (hincoming : Incoming got this) (htaken : this.taken = false) (hheader : this.header.length = 7) :
    Act.wp (Act.whileDo (fun this => this.body_len - this.body.length) (fun this => decide (this.body.length < this.body_len))
        body_round)
      (fun _ this' => ∃ frame, Whole got frame this this')
      (fun stop this' => Halts got this this' stop) this := by
  refine Act.wp_mono (Act.wp_whileDo (I := fun this' => Incoming got this' ∧ Reading this this' ∧ this'.header.length = 7) ?_ ?_
    ⟨hincoming, .refl this, hheader⟩) ?_ fun _ _ hhalts => hhalts
  · intro this' _ hless
    exact Nat.sub_pos_of_lt (of_decide_eq_true hless)
  · rintro this' ⟨hincoming', hreading, hheader'⟩ hless
    refine Act.wp_mono (wp_body_round hincoming' (hreading.taken.trans htaken) hheader' (of_decide_eq_true hless)) ?_ ?_
    · rintro _ this'' ⟨⟨hincoming'', hreading', hheader''⟩, hmeasure⟩
      exact ⟨⟨hincoming'', hreading.trans hreading', hheader''⟩, hmeasure⟩
    · exact fun _ _ hhalts => hhalts.trans hreading
  · rintro _ this' ⟨⟨hincoming', hreading, hheader'⟩, hdone⟩
    obtain ⟨hvalid, hlen, hle, hdelivered⟩ := hincoming'.body hheader'
    have hnot := of_decide_eq_false hdone
    obtain ⟨frame, hholds⟩ := exists_holds hheader' (by omega)
    refine ⟨frame, hreading, hincoming', hholds, ?_, ?_, hdelivered⟩
    · rw [hholds.cmd, hholds.id, hholds.len]
      exact hvalid
    · rw [hincoming'.received_of_eq hheader', encode_append, encode_cons, encode_nil, List.append_nil, hholds.bytes]

/-- The session reads the rest of a frame and acts on it. -/
theorem wp_receive_frame {md5 : List UInt8 → Vector UInt8 16} (hincoming : Incoming got this)
    (htaken : this.taken = false) :
    Act.wp (receive_frame md5)
      (fun _ this' => ∃ frame before after, Whole got frame this before ∧ Reaction md5 frame before after ∧
        this' = { after with header := [] })
      (fun stop this' => Fails md5 got this this' stop) this := by
  unfold receive_frame
  rw [Act.wp_bind]
  refine Act.wp_mono (wp_header_rounds hincoming htaken) ?_ fun _ _ hhalts => .reading hhalts
  rintro _ headed ⟨hincoming', hreading, hheader⟩
  rw [Act.wp_bind]
  refine Act.wp_mono (wp_body_rounds hincoming' (hreading.taken.trans htaken) hheader) ?_
    fun _ _ hhalts => .reading (hhalts.trans hreading)
  rintro _ before ⟨frame, hwhole⟩
  have hwhole' : Whole got frame this before :=
    ⟨hreading.trans hwhole.reading, hwhole.incoming, hwhole.holds, hwhole.valid, hwhole.received, hwhole.delivered⟩
  rw [Act.wp_bind, Act.wp_ready]
  refine Act.wp_mono (wp_control hwhole.holds) ?_ ?_
  · exact fun _ after hreaction => ⟨frame, before, after, hwhole', hreaction, rfl⟩
  · rintro stop after ⟨⟨error, rfl⟩, hrefusal⟩
    exact .refused hwhole' hrefusal rfl

end AnyTls

end zc.anytls
