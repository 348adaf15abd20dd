import Zc.AnyTls.Runs

/-!
# What reads hand out

A reader of a whole stream of the peer, one frame after the other, says which bytes come before the FIN
or before the session breaks. However the transport cuts the stream, reads hand out these bytes, and
tell a clean end only after a FIN.
-/

namespace zc.anytls

open Poll (Act)
open Wire (arriving ends patience)

/-! ## Whole streams -/

/-- What a frame means after the frames before it. -/
inductive Verdict where
  | goes (v2 acknowledged : Bool)
  | fin
  | breaks

def verdict (md5 : List UInt8 → Vector UInt8 16) (v2 acknowledged : Bool) (frame : Frame) : Verdict :=
  if valid v2 acknowledged frame.cmd frame.id frame.body.length then
    match frame.cmd with
    | 3 => .fin
    | 5 => .breaks
    | 6 => if (Padding.parse md5 frame.body).isOk then .goes v2 acknowledged else .breaks
    | 7 => if frame.body.isEmpty then .goes v2 true else .breaks
    | 10 => if (AnyTls.server_version frame.body).isOk then .goes true acknowledged else .breaks
    | _ => .goes v2 acknowledged
  else .breaks

variable {md5 : List UInt8 → Vector UInt8 16} {v2 acknowledged : Bool} {frame : Frame}

theorem cmd_of_verdict_fin (hverdict : verdict md5 v2 acknowledged frame = .fin) : frame.cmd = 3 := by
  unfold verdict at hverdict
  split at hverdict
  · split at hverdict
    · assumption
    · cases hverdict
    · split at hverdict <;> cases hverdict
    · split at hverdict <;> cases hverdict
    · split at hverdict <;> cases hverdict
    · cases hverdict
  · cases hverdict

/-- The bytes of the stream before the first FIN, violation or alert, and whether it is a FIN. -/
def read_frames (md5 : List UInt8 → Vector UInt8 16) (v2 acknowledged : Bool) : List Frame → List UInt8 × Bool
  | [] => ([], false)
  | frame :: frames =>
    match verdict md5 v2 acknowledged frame with
    | .goes v2 acknowledged =>
      (data [frame] ++ (read_frames md5 v2 acknowledged frames).1, (read_frames md5 v2 acknowledged frames).2)
    | .fin => ([], true)
    | .breaks => ([], false)

/-- Frames that leave the stream open. -/
def Passed (md5 : List UInt8 → Vector UInt8 16) (got : List Frame) (v2 acknowledged : Bool) : Prop :=
  ∀ rest, read_frames md5 false false (got ++ rest) =
    (data got ++ (read_frames md5 v2 acknowledged rest).1, (read_frames md5 v2 acknowledged rest).2)

section Passed

variable {md5 : List UInt8 → Vector UInt8 16} {got : List Frame} {v2 acknowledged v2' acknowledged' : Bool} {frame : Frame}

theorem passed_nil : Passed md5 [] false false :=
  fun _ => rfl

theorem Passed.snoc (hpassed : Passed md5 got v2 acknowledged) (hgoes : verdict md5 v2 acknowledged frame = .goes v2' acknowledged') :
    Passed md5 (got ++ [frame]) v2' acknowledged' := by
  intro rest
  rw [List.append_assoc, List.singleton_append, hpassed (frame :: rest), read_frames, hgoes, data_append, List.append_assoc]

/-- The stream at its end. -/
theorem Passed.ended (hpassed : Passed md5 got v2 acknowledged) {rest : List Frame} {clean : Bool}
    (hrest : read_frames md5 v2 acknowledged rest = ([], clean)) : read_frames md5 false false (got ++ rest) = (data got, clean) := by
  rw [hpassed rest, hrest, List.append_nil]

end Passed

/-- A stream that ends cleanly ends with a FIN. -/
theorem read_frames_fin {frames : List Frame} (hclean : (read_frames md5 v2 acknowledged frames).2 = true) :
    ∃ before fin after, frames = before ++ fin :: after ∧ fin.cmd = 3 ∧ (read_frames md5 v2 acknowledged frames).1 = data before := by
  induction frames generalizing v2 acknowledged with
  | nil => cases hclean
  | cons frame frames ih =>
    rw [read_frames] at hclean ⊢
    cases hverdict : verdict md5 v2 acknowledged frame with
    | goes v2' acknowledged' =>
      rw [hverdict] at hclean
      obtain ⟨before, fin, after, rfl, hfin, hdata⟩ := ih hclean
      refine ⟨frame :: before, fin, after, rfl, hfin, ?_⟩
      dsimp only
      rw [hdata, ← data_append, List.singleton_append]
    | fin => exact ⟨[], frame, frames, rfl, cmd_of_verdict_fin hverdict, rfl⟩
    | breaks =>
      rw [hverdict] at hclean
      cases hclean

variable {bytes : List UInt8}

theorem firstFrame_of_short (hshort : bytes.length < 7) : firstFrame bytes = none := by
  unfold firstFrame
  split
  · simp only [List.length_cons] at hshort
    omega
  · rfl

variable {before after : AnyTls} {first : List Frame} {acked : List UInt8} {remaining : Nat} {call : AnyTls.Call}
  {result : Except (Poll.Stop io.Error) (List UInt8)}

namespace AnyTls

/-- What has been read of the next frame. -/
def part (this : AnyTls) : List UInt8 :=
  this.header ++ if this.header.length = 7 then this.body else []

/-- The next frame is not whole. -/
def Unfinished (this : AnyTls) : Prop :=
  this.header.length < 7 ∨ this.body.length < this.body_len

section Streams

variable {md5 : List UInt8 → Vector UInt8 16} {got : List Frame} {this : AnyTls}

theorem frames_part (hincoming : Incoming got this) (hpart : Unfinished this) : frames this.part = [] := by
  have hfirst : firstFrame this.part = none := by
    by_cases hheader : this.header.length = 7
    · obtain ⟨-, hlen, -, -⟩ := hincoming.body hheader
      have hbody : this.body.length < this.len := by
        rcases hpart with hless | hless
        · omega
        · rwa [hlen] at hless
      rw [part, if_pos hheader]
      obtain ⟨cmd, a, b, c, d, high, low, hcases⟩ := header_cases hheader
      rw [len, hcases] at hbody
      rw [hcases]
      change firstFrame (cmd :: a :: b :: c :: d :: high :: low :: this.body) = none
      rw [firstFrame, dif_neg]
      rintro ⟨hle, -⟩
      exact absurd hbody (Nat.not_lt_of_le hle)
    · have hle := hincoming.header
      rw [part, if_neg hheader, List.append_nil]
      exact firstFrame_of_short (by omega)
  rw [frames_eq, hfirst]

/-- A header that may not come breaks the stream. -/
theorem read_frames_of_invalid (hheader : this.header.length = 7) (hvalid : this.valid_header = false) (more : List UInt8) :
    read_frames md5 this.v2 this.acknowledged (frames (this.header ++ more)) = ([], false) := by
  rw [frames_eq]
  cases hfirst : firstFrame (this.header ++ more) with
  | none => rfl
  | some result =>
    obtain ⟨frame, rest⟩ := result
    obtain ⟨hcmd, hid, hlen⟩ := firstFrame_of_header hheader hfirst
    have hbreaks : verdict md5 this.v2 this.acknowledged frame = .breaks := by
      rw [verdict, hcmd, hid, hlen, ← valid_header_eq, hvalid]
      rfl
    dsimp only
    rw [read_frames, hbreaks]

end Streams

/-! ## Where a session stands -/

/-- What is left to be done with what the transport still gives. -/
def effort (this : AnyTls) : Nat :=
  patience this.inner.reads + this.part.length + this.hearts.length + this.tail.length

/-- A session that reads a stream, and has handed out `out`. -/
structure Alive (md5 : List UInt8 → Vector UInt8 16) (stream : List UInt8) (ending : Bool) (out : List UInt8) (got : List Frame)
    (this : AnyTls) : Prop where
  taken : this.taken = false
  deadline : this.close_deadline = none
  failure : this.failure = none
  calm : this.inner.Calm
  incoming : Incoming got this
  unfinished : Unfinished this
  passed : Passed md5 got this.v2 this.acknowledged
  out : out ++ this.tail = data got
  ready : this.data_ready = true → this.delivered < this.body.length ∧ this.header = []
  stream : this.inner.received ++ arriving this.inner.reads = stream
  ending : ends this.inner.reads = ending

/-- Where a session stands that has handed out `out` of a stream. -/
inductive Delivers (md5 : List UInt8 → Vector UInt8 16) (stream : List UInt8) (ending : Bool) (out : List UInt8) (this : AnyTls) : Prop
  | alive {got : List Frame} (halive : Alive md5 stream ending out got this)
  | finished (htaken : this.taken = true) (hfailure : this.failure = none) (hready : this.data_ready = false)
    (hout : read_frames md5 false false (frames stream) = (out, true))
  | failed (hfailure : this.failure ≠ none) (hready : this.data_ready = false)
    (hout : read_frames md5 false false (frames stream) = (out, false))
  | flooded (hfailure : this.failure ≠ none) (hflooded : this.flooded = true)

section Steps

variable {md5 : List UInt8 → Vector UInt8 16} {stream : List UInt8} {ending : Bool} {out : List UInt8} {got log log' : List Frame}
  {base : List UInt8} {this this' : AnyTls}

theorem Incoming.part (hincoming : Incoming got this) : this.inner.received = encode got ++ this.part :=
  hincoming.received

theorem Alive.frames_stream (halive : Alive md5 stream ending out got this) :
    frames stream = got ++ frames (this.part ++ arriving this.inner.reads) := by
  rw [← halive.stream, halive.incoming.part, List.append_assoc, frames_encode_append]

theorem tail_of_unready (hready : this.data_ready = false) : this.tail = [] := by
  rw [tail, hready]
  rfl

theorem Alive.drains (halive : Alive md5 stream ending out got this) (hdrains : Drains base log log' this this') :
    Alive md5 stream ending out got this' ∧ this'.effort ≤ this.effort ∧ this'.inner.reads = this.inner.reads ∧ this'.tail = this.tail := by
  have hwrote := hdrains.wrote
  have hsame := hdrains.same
  have htail : this'.tail = this.tail := by
    rw [hsame]
    rfl
  have hpart : this'.part = this.part := by
    rw [hsame]
    rfl
  have hhearts := hdrains.hearts_le
  refine ⟨⟨hdrains.taken.trans halive.taken, ?_, ?_, hwrote.calm halive.calm, ?_, ?_, ?_, ?_, ?_, ?_, ?_⟩, ?_, hwrote.reads, htail⟩
  · rw [hsame]
    exact halive.deadline
  · rw [hsame]
    exact halive.failure
  · rw [hsame]
    exact ⟨hwrote.received.trans halive.incoming.received, halive.incoming.header, halive.incoming.body⟩
  · rw [hsame]
    exact halive.unfinished
  · rw [hsame]
    exact halive.passed
  · rw [htail]
    exact halive.out
  · rw [hsame]
    exact halive.ready
  · rw [hwrote.received, hwrote.reads]
    exact halive.stream
  · rw [hwrote.reads]
    exact halive.ending
  · rw [effort, effort, hwrote.reads, hpart, htail]
    omega

/-- Part of a frame is read. -/
theorem Alive.reading (halive : Alive md5 stream ending out got this) (hready : this.data_ready = false) (hreading : Reading this this')
    (hincoming : Incoming got this') (hunfinished : Unfinished this') : Alive md5 stream ending out got this' := by
  have hsame := hreading.same
  have hready' : this'.data_ready = false := by
    rw [hsame]
    exact hready
  refine ⟨hreading.taken.trans halive.taken, ?_, ?_, ⟨?_, ?_⟩, hincoming, hunfinished, ?_, ?_, ?_, hreading.stream.trans halive.stream,
    hreading.ends.trans halive.ending⟩
  · rw [hsame]
    exact halive.deadline
  · rw [hsame]
    exact halive.failure
  · rw [hreading.writes]
    exact halive.calm.writes
  · rw [hreading.flushes]
    exact halive.calm.flushes
  · rw [hsame]
    exact halive.passed
  · rw [tail_of_unready hready']
    have hout := halive.out
    rwa [tail_of_unready hready] at hout
  · intro htrue
    rw [hready'] at htrue
    cases htrue

theorem Alive.out_of_unready (halive : Alive md5 stream ending out got this) (hready : this.data_ready = false) : data got = out := by
  rw [← halive.out, tail_of_unready hready, List.append_nil]

/-- A stream that breaks within a frame. -/
theorem Alive.breaks (halive : Alive md5 stream ending out got this) (hready : this.data_ready = false)
    (hreading : Reading this before) (hbreaks : Breaks got before) :
    read_frames md5 false false (frames stream) = (out, false) := by
  have hpassed : Passed md5 got before.v2 before.acknowledged := by
    rw [hreading.same]
    exact halive.passed
  rw [← halive.stream, ← hreading.stream, ← halive.out_of_unready hready]
  cases hbreaks with
  | ended hincoming hended hpart =>
    rw [hended, List.append_nil, hincoming.part, frames_encode_append, frames_part hincoming hpart]
    exact hpassed.ended rfl
  | header hreceived hheader hvalid =>
    rw [hreceived, List.append_assoc, frames_encode_append]
    exact hpassed.ended (read_frames_of_invalid hheader hvalid _)

/-- The frames of a stream after a whole one. -/
theorem Whole.frames_stream (hwhole : Whole got frame this before)
    (hstream : this.inner.received ++ arriving this.inner.reads = stream) :
    frames stream = got ++ frame :: frames (arriving before.inner.reads) := by
  rw [← hstream, ← hwhole.reading.stream, hwhole.received, frames_encode_append, List.append_assoc]
  rfl

/-- A frame that is refused breaks the stream, unless it is one heartbeat too many. -/
theorem verdict_of_refusal (hvalid : valid this.v2 this.acknowledged frame.cmd frame.id frame.body.length = true)
    (hrefusal : Refusal md5 frame this after) :
    verdict md5 this.v2 this.acknowledged frame = .breaks ∨ after.flooded = true := by
  rw [verdict, if_pos hvalid]
  cases hrefusal with
  | alert hcmd =>
    rw [hcmd]
    exact .inl rfl
  | scheme hcmd hparse =>
    rw [hcmd, hparse]
    exact .inl rfl
  | rejected hcmd hbody =>
    rw [hcmd]
    exact .inl (if_neg (by rwa [List.isEmpty_iff]))
  | flood hcmd hfull => exact .inr rfl
  | version hcmd hversion =>
    rw [hcmd, hversion]
    exact .inl rfl
  | unknown hcmd =>
    rw [hcmd] at hvalid
    cases hvalid

theorem Alive.refusal (halive : Alive md5 stream ending out got this) (hready : this.data_ready = false)
    {kind : ErrorKind} (hwhole : Whole got frame this before) (hrefusal : Refusal md5 frame before after) :
    Delivers md5 stream ending out (AnyTls.finished { after with failure := some kind }) := by
  have hready' : after.data_ready = false := by
    have hsame : after.data_ready = before.data_ready := by
      cases hrefusal with
      | alert | scheme | rejected | flood | version | unknown => rfl
    rw [hsame, hwhole.reading.same]
    exact hready
  rcases verdict_of_refusal hwhole.valid hrefusal with hbreaks | hflooded
  · refine .failed nofun hready' ?_
    have hpassed : Passed md5 got before.v2 before.acknowledged := by
      rw [hwhole.reading.same]
      exact halive.passed
    rw [hwhole.frames_stream halive.stream, ← halive.out_of_unready hready]
    refine hpassed.ended ?_
    rw [read_frames, hbreaks]
  · exact .flooded nofun hflooded

theorem data_of_cmd (hcmd : frame.cmd ≠ 2) : data [frame] = [] := by
  rw [data, List.filter_cons_of_neg]
  · rfl
  · rw [Bool.and_eq_true, beq_iff_eq]
    exact fun hboth => hcmd hboth.1

/-- A frame that goes through. -/
theorem Alive.goes (halive : Alive md5 stream ending out got this) (hready : this.data_ready = false)
    (hwhole : Whole got frame this before)
    (hgoes : verdict md5 before.v2 before.acknowledged frame = .goes after.v2 after.acknowledged)
    (hheader : after.header = []) (hinner : after.inner = before.inner) (htaken : after.taken = before.taken)
    (hdeadline : after.close_deadline = before.close_deadline) (hfailure : after.failure = before.failure)
    (htail : after.tail = data [frame]) (hready' : after.data_ready = true → after.delivered < after.body.length) :
    Alive md5 stream ending out (got ++ [frame]) after := by
  have hreading := hwhole.reading
  have hsame := hreading.same
  have hpassed : Passed md5 got before.v2 before.acknowledged := by
    rw [hsame]
    exact halive.passed
  have hpart : after.part = [] := by
    rw [AnyTls.part, hheader]
    rfl
  refine ⟨htaken.trans (hreading.taken.trans halive.taken), hdeadline.trans ?_, hfailure.trans ?_, ?_, incoming_nil hheader ?_, .inl ?_,
    hpassed.snoc hgoes, ?_, fun htrue => ⟨hready' htrue, hheader⟩, ?_, ?_⟩
  · rw [hsame]
    exact halive.deadline
  · rw [hsame]
    exact halive.failure
  · refine ⟨?_, ?_⟩
    · rw [hinner, hreading.writes]
      exact halive.calm.writes
    · rw [hinner, hreading.flushes]
      exact halive.calm.flushes
  · rw [hinner, hwhole.received]
  · rw [hheader]
    decide
  · rw [htail, data_append, halive.out_of_unready hready]
  · rw [hinner, hreading.stream, halive.stream]
  · rw [hinner, hreading.ends, halive.ending]

/-- The effort goes down with every frame. -/
theorem effort_of_whole (hincoming : Incoming got this) (hwhole : Whole got frame this before)
    (hheader : after.header = []) (hinner : after.inner = before.inner)
    (hhearts : after.hearts.length ≤ this.hearts.length + 1) (htail : after.tail.length ≤ frame.body.length) :
    after.effort < this.effort := by
  have hpart : after.part = [] := by
    rw [AnyTls.part, hheader]
    rfl
  have hpatience := hwhole.reading.patience
  rw [hwhole.received, hincoming.part, encode_append, List.length_append, List.length_append, encode_cons, encode_nil, List.append_nil,
    length_bytes] at hpatience
  rw [effort, effort, hpart, hinner, List.length_nil]
  omega

theorem data_of_push (hcmd : frame.cmd = 2) (hvalid : valid v2 acknowledged frame.cmd frame.id frame.body.length = true) :
    data [frame] = frame.body := by
  rw [hcmd] at hvalid
  have hid : (frame.id == 1) = true := hvalid
  rw [data, List.filter_cons_of_pos (by rw [hcmd, hid]; rfl)]
  exact List.append_nil _

/-- The session acts on a frame of the stream. -/
theorem Alive.reaction (halive : Alive md5 stream ending out got this) (hready : this.data_ready = false)
    (hwhole : Whole got frame this before) (hreaction : Reaction md5 frame before after) :
    Delivers md5 stream ending out { after with header := [] } ∧ after.failure = none ∧
      effort { after with header := [] } < this.effort := by
  have hready' : before.data_ready = false := by
    rw [hwhole.reading.same]
    exact hready
  have hhearts : before.hearts.length = this.hearts.length := by rw [hwhole.reading.same]
  have hnone : before.failure = none := by
    rw [hwhole.reading.same]
    exact halive.failure
  have hverdict : verdict md5 before.v2 before.acknowledged frame = match frame.cmd with
      | 3 => .fin
      | 5 => .breaks
      | 6 => if (Padding.parse md5 frame.body).isOk then .goes before.v2 before.acknowledged else .breaks
      | 7 => if frame.body.isEmpty then .goes before.v2 true else .breaks
      | 10 => if (server_version frame.body).isOk then .goes true before.acknowledged else .breaks
      | _ => .goes before.v2 before.acknowledged := if_pos hwhole.valid
  -- what holds of every frame without bytes of the stream that goes through
  have hquiet : ∀ {after' : AnyTls}, frame.cmd ≠ 2 → verdict md5 before.v2 before.acknowledged frame = .goes after'.v2 after'.acknowledged →
      after'.header = [] → after'.inner = before.inner → after'.taken = before.taken → after'.close_deadline = before.close_deadline →
      after'.failure = before.failure → after'.data_ready = before.data_ready → after'.hearts.length ≤ this.hearts.length + 1 →
      Delivers md5 stream ending out after' ∧ after'.failure = none ∧ after'.effort < this.effort := by
    intro after' hcmd hgoes hheader hinner htaken hdeadline hfailure hunready hmore
    have htail : after'.tail = [] := tail_of_unready (hunready.trans hready')
    refine ⟨.alive (halive.goes hready hwhole hgoes hheader hinner htaken hdeadline hfailure ?_ ?_), hfailure.trans hnone,
      effort_of_whole halive.incoming hwhole hheader hinner hmore ?_⟩
    · rw [htail, data_of_cmd hcmd]
    · intro htrue
      rw [hunready, hready'] at htrue
      cases htrue
    · rw [htail]
      exact Nat.zero_le _
  have hless : before.hearts.length ≤ this.hearts.length + 1 := by omega
  cases hreaction with
  | nothing hcmd =>
    rcases hcmd with hcmd | hcmd
    · rw [hcmd] at hverdict
      exact hquiet (by rw [hcmd]; decide) hverdict rfl rfl rfl rfl rfl rfl hless
    · rw [hcmd] at hverdict
      exact hquiet (by rw [hcmd]; decide) hverdict rfl rfl rfl rfl rfl rfl hless
  | scheme hcmd hparse =>
    rw [hcmd, hparse] at hverdict
    exact hquiet (by rw [hcmd]; decide) hverdict rfl rfl rfl rfl rfl rfl hless
  | accepted hcmd hempty =>
    rw [hcmd, hempty] at hverdict
    exact hquiet (by rw [hcmd]; decide) hverdict rfl rfl rfl rfl rfl rfl hless
  | version hcmd hversion =>
    rw [hcmd, hversion] at hverdict
    exact hquiet (by rw [hcmd]; decide) hverdict rfl rfl rfl rfl rfl rfl hless
  | heartbeat hcmd hroom =>
    rw [hcmd] at hverdict
    refine hquiet (by rw [hcmd]; decide) hverdict rfl rfl rfl rfl rfl rfl ?_
    change (before.hearts ++ [frame.id]).length ≤ _
    rw [List.length_append, hhearts]
    exact Nat.le_refl _
  | data hcmd =>
    rw [hcmd] at hverdict
    have htail : tail { before with data_ready := !frame.body.isEmpty, header := [] } = frame.body := by
      rw [tail]
      dsimp only
      rw [hwhole.delivered, ← hwhole.holds.body]
      cases frame.body with
      | nil => rfl
      | cons byte body => rfl
    refine ⟨.alive (halive.goes hready hwhole hverdict rfl rfl rfl rfl rfl ?_ ?_), hnone,
      effort_of_whole halive.incoming hwhole rfl rfl hless (by rw [htail])⟩
    · rw [htail, data_of_push hcmd hwhole.valid]
    · intro hsome
      change (!frame.body.isEmpty) = true at hsome
      rw [Bool.not_eq_true', ← Bool.not_eq_true, List.isEmpty_iff, hwhole.holds.body] at hsome
      change before.delivered < before.body.length
      rw [hwhole.delivered]
      exact List.length_pos_iff.2 hsome
  | fin hcmd =>
    rw [hcmd] at hverdict
    have htail : tail { AnyTls.finished before with header := [] } = [] := tail_of_unready hready'
    refine ⟨.finished rfl hnone hready' ?_, hnone,
      effort_of_whole halive.incoming hwhole rfl rfl (Nat.zero_le _) (by rw [htail]; exact Nat.zero_le _)⟩
    have hpassed : Passed md5 got before.v2 before.acknowledged := by
      rw [hwhole.reading.same]
      exact halive.passed
    rw [hwhole.frames_stream halive.stream, ← halive.out_of_unready hready]
    refine hpassed.ended ?_
    rw [read_frames, hverdict]
    rfl

/-! ## Reads -/

/-- What a read leads to: it comes to the end, or makes progress, or all that arrives has been handed out. -/
def Goes (this this' : AnyTls) : Prop :=
  this'.taken = true ∨ this'.effort < this.effort ∨ this'.effort ≤ this.effort ∧ this'.inner.reads = [] ∧ this'.tail = []

theorem Goes.of_le {this'' : AnyTls} (hle : this'.effort ≤ this.effort) (hgoes : Goes this' this'') : Goes this this'' := by
  rcases hgoes with htaken | hless | ⟨hless, hdone⟩
  · exact .inl htaken
  · exact .inr (.inl (by omega))
  · exact .inr (.inr ⟨by omega, hdone⟩)

/-- How a read ends early. -/
structure Ends (md5 : List UInt8 → Vector UInt8 16) (stream : List UInt8) (ending : Bool) (out : List UInt8) (this : AnyTls)
    (stop : Poll.Stop io.Error) (this' : AnyTls) : Prop where
  delivers : Delivers md5 stream ending out this'
  goes : Goes this this'
  sane : stop ≠ .panicked
  tells : this'.failure ≠ none → ∃ error, stop = .failed error
  broke : ∀ error, stop = .failed error → error = unavailable ∨ this'.failure ≠ none

theorem Alive.fails (halive : Alive md5 stream ending out got this) (hready : this.data_ready = false) {stop : Poll.Stop io.Error}
    (hfails : Fails md5 got this this' stop) : Ends md5 stream ending out this stop this' := by
  cases hfails with
  | reading hhalts =>
    cases hhalts with
    | pending hincoming hreading hpart hless =>
      have halive' := halive.reading hready hreading hincoming hpart
      have hready' : this'.data_ready = false := by
        rw [hreading.same]
        exact hready
      refine ⟨.alive halive', .inr ?_, nofun, fun hfailed => absurd halive'.failure hfailed, nofun⟩
      have hhearts : this'.hearts = this.hearts := by rw [hreading.same]
      have hle := hreading.patience
      rw [halive.incoming.part, hincoming.part, List.length_append, List.length_append] at hle hless
      rw [effort, effort, hhearts, tail_of_unready hready, tail_of_unready hready']
      rcases hless with hless | hnil
      · exact .inl (by omega)
      · exact .inr ⟨by omega, hnil, rfl⟩
    | @failed error before inner kind hreading hbreaks hstill hsame =>
      subst hsame
      refine ⟨.failed nofun ?_ (halive.breaks hready hreading hbreaks), .inl rfl, nofun, fun _ => ⟨error, rfl⟩,
        fun _ _ => .inr nofun⟩
      change before.data_ready = false
      rw [hreading.same]
      exact hready
  | @refused frame before after error kind hwhole hrefusal hsame =>
    subst hsame
    exact ⟨halive.refusal hready hwhole hrefusal, .inl rfl, nofun, fun _ => ⟨error, rfl⟩, fun _ _ => .inr nofun⟩

/-- Heartbeats are answered on the way. -/
theorem delivers_drain_replies {queued : List Frame} {got' : List Frame}
    (hsound : Sound base first acked got' log queued this) (halive : Alive md5 stream ending out got this)
    (hready : this.data_ready = false) :
    Act.wp drain_replies
      (fun _ this' => Alive md5 stream ending out got this' ∧ this'.data_ready = false ∧ this'.effort ≤ this.effort)
      (fun stop this' => Ends md5 stream ending out this stop this') this := by
  unfold drain_replies
  rw [Act.wp_bind, Act.wp_get]
  by_cases hpending : this.reply_pending = true
  · rw [if_pos hpending, Act.wp_bind, Act.wp_attempt]
    have hunready : ∀ {log' : List Frame} {this' : AnyTls}, Drains base log log' this this' → this'.data_ready = false := by
      intro log' this' hdrains
      rw [hdrains.same]
      exact hready
    refine Act.wp_mono (wp_drain (hsound.owes halive.taken) halive.taken) ?_ ?_
    · rintro _ this' ⟨log', hdrains, -, -⟩
      obtain ⟨halive', hle, -, -⟩ := halive.drains hdrains
      have hunready' := hunready hdrains
      refine ⟨?_, hunready', hle⟩
      exact ⟨halive'.taken, halive'.deadline, halive'.failure, halive'.calm, ⟨halive'.incoming.received, halive'.incoming.header,
        halive'.incoming.body⟩, halive'.unfinished, halive'.passed, halive'.out, halive'.ready, halive'.stream, halive'.ending⟩
    · intro stop this' hcut
      cases hcut with
      | pending hdrains =>
        obtain ⟨halive', hle, -, -⟩ := halive.drains hdrains
        exact ⟨halive', hunready hdrains, hle⟩
      | random hdrains hfewer =>
        obtain ⟨halive', hle, hreads, htail⟩ := halive.drains hdrains
        refine ⟨.alive halive', .inr (.inl ?_), nofun, fun hfailed => absurd halive'.failure hfailed, ?_⟩
        · have hpart : this'.part = this.part := by
            rw [hdrains.same]
            rfl
          rw [effort, effort, hreads, htail, hpart]
          omega
        · rintro error ⟨⟩
          exact .inl rfl
      | lost hlost => exact absurd halive.calm hlost.broken
  · rw [if_neg hpending]
    exact ⟨halive, hready, Nat.le_refl _⟩

/-- What one round of a read leads to. -/
def Rounds (md5 : List UInt8 → Vector UInt8 16) (stream : List UInt8) (ending : Bool) (out : List UInt8) (this : AnyTls)
    (value : Option (List UInt8)) (this' : AnyTls) : Prop :=
  match value with
  | some bytes => Delivers md5 stream ending (out ++ bytes) this' ∧ Goes this this' ∧ this'.failure = none ∧
    (bytes = [] → this'.taken = true)
  | none => Delivers md5 stream ending out this' ∧ this'.failure = none ∧ this'.effort < this.effort

/-- Bytes of the last frame of data are handed out. -/
theorem Alive.deliver (halive : Alive md5 stream ending out got this) (hready : this.data_ready = true)
    {delivered : Nat} {data_ready : Bool} (hlt : data_ready = true → delivered < this.body.length)
    (htail : this.tail = bytes ++ tail { this with delivered, data_ready }) :
    Alive md5 stream ending (out ++ bytes) got { this with delivered, data_ready } := by
  obtain ⟨-, hheader⟩ := halive.ready hready
  refine ⟨halive.taken, halive.deadline, halive.failure, halive.calm, ⟨halive.incoming.received, halive.incoming.header, ?_⟩, .inl ?_,
    halive.passed, ?_, fun htrue => ⟨hlt htrue, hheader⟩, halive.stream, halive.ending⟩
  · intro hseven
    change this.header.length = 7 at hseven
    rw [hheader] at hseven
    cases hseven
  · change this.header.length < 7
    rw [hheader]
    decide
  · rw [List.append_assoc, ← htail, halive.out]

theorem delivers_deliver (hpos : 0 < remaining) (hdelivers : Delivers md5 stream ending out this)
    (hfailure : this.failure = none) (hready : this.data_ready = true) :
    Act.wp (AnyTls.deliver remaining) (fun bytes this' => Rounds md5 stream ending out this (some bytes) this')
      (fun _ _ => False) this := by
  obtain ⟨got, halive⟩ : ∃ got, Alive md5 stream ending out got this := by
    cases hdelivers with
    | alive halive => exact ⟨_, halive⟩
    | finished _ _ hready' _ =>
      rw [hready] at hready'
      cases hready'
    | failed hfailed _ _ => exact absurd hfailure hfailed
    | flooded hfailed _ => exact absurd hfailure hfailed
  have hlt := (halive.ready hready).1
  refine Act.wp_mono (wp_deliver_tail hready (Nat.le_of_lt hlt)) ?_ fun _ _ h => h
  rintro bytes this' ⟨⟨delivered, data_ready, rfl, hlt'⟩, htail, hlength⟩
  have hsome : this.tail.length = this.body.length - this.delivered := by
    rw [tail, if_pos hready, List.length_drop]
  have hbytes : 0 < bytes.length := by omega
  refine ⟨.alive (halive.deliver hready hlt' htail), .inr (.inl ?_), hfailure, fun hnil => ?_⟩
  · have hless := congrArg List.length htail
    rw [List.length_append] at hless
    change patience this.inner.reads + this.part.length + this.hearts.length + _ < _
    rw [effort]
    omega
  · rw [hnil] at hbytes
    cases hbytes

theorem delivers_receive_round (hpos : 0 < remaining) (hkept : Kept base first acked this)
    (hdelivers : Delivers md5 stream ending out this) (hfailure : this.failure = none) :
    Act.wp (receive_round md5 remaining) (fun value this' => Rounds md5 stream ending out this value this')
      (fun stop this' => Ends md5 stream ending out this stop this') this := by
  unfold receive_round
  rw [Act.wp_bind, Act.wp_get]
  by_cases hready : this.data_ready = true
  · rw [if_pos hready, Act.wp_bind]
    exact Act.wp_mono (delivers_deliver hpos hdelivers hfailure hready) (fun _ _ h => h) fun _ _ h => h.elim
  rw [if_neg hready]
  rw [Bool.not_eq_true] at hready
  by_cases htaken : this.taken = true
  · rw [if_pos htaken]
    refine ⟨?_, .inl htaken, hfailure, fun _ => htaken⟩
    rw [List.append_nil]
    exact hdelivers
  rw [if_neg htaken]
  cases hdelivers with
  | finished htaken' _ _ _ => exact absurd htaken' htaken
  | failed hfailed _ _ => exact absurd hfailure hfailed
  | flooded hfailed _ => exact absurd hfailure hfailed
  | alive halive =>
    obtain ⟨got', log, queued, hsound⟩ := hkept
    rw [halive.deadline, if_neg (by decide), Act.wp_bind]
    refine Act.wp_mono (delivers_drain_replies hsound halive hready) ?_ fun _ _ h => h
    rintro _ this' ⟨halive', hready', hle⟩
    rw [Act.wp_bind]
    refine Act.wp_mono (wp_receive_frame halive'.incoming halive'.taken) ?_ ?_
    · rintro _ this'' ⟨frame, before, after, hwhole, hreaction, rfl⟩
      obtain ⟨hdelivers', hnone, hless⟩ := halive'.reaction hready' hwhole hreaction
      exact ⟨hdelivers', hnone, by omega⟩
    · intro stop this'' hfails
      obtain ⟨hdelivers', hgoes, hsane, htells, hbroke⟩ := halive'.fails hready' hfails
      exact ⟨hdelivers', hgoes.of_le hle, hsane, htells, hbroke⟩

/-- What a read leads to. -/
structure Hands (md5 : List UInt8 → Vector UInt8 16) (stream : List UInt8) (ending : Bool) (out : List UInt8) (this : AnyTls)
    (bytes : List UInt8) (this' : AnyTls) : Prop where
  delivers : Delivers md5 stream ending (out ++ bytes) this'
  goes : Goes this this'
  failure : this'.failure = none
  ended : bytes = [] → this'.taken = true

theorem Goes.of_lt {this'' : AnyTls} (hlt : this'.effort < this.effort) (hgoes : Goes this' this'') : Goes this this'' :=
  hgoes.of_le (Nat.le_of_lt hlt)

/-- The rounds after the first. -/
theorem delivers_rounds {n : Nat} (hpos : 0 < remaining) (hkept : Kept base first acked this')
    (hdelivers : Delivers md5 stream ending out this') (hfailure : this'.failure = none)
    (hless : this'.effort < this.effort) :
    Act.wp (Act.times (receive_round md5 remaining) n)
      (fun value this'' => match value with
        | some bytes => Hands md5 stream ending out this bytes this''
        | none => Ends md5 stream ending out this .pending this'')
      (fun stop this'' => Ends md5 stream ending out this stop this'') this' := by
  refine Act.wp_times (I := fun next => Kept base first acked next ∧ Delivers md5 stream ending out next ∧ next.failure = none ∧
    next.effort < this.effort) ?_ ?_ ⟨hkept, hdelivers, hfailure, hless⟩
  · rintro next ⟨hkept, hdelivers, hfailure, hless⟩
    refine Act.wp_mono (Act.wp_and (keeps_receive_round hkept) (delivers_receive_round hpos hkept hdelivers hfailure)) ?_ ?_
    · rintro (_ | bytes) next' ⟨hkept', hround⟩
      · exact ⟨hkept', hround.1, hround.2.1, by have hlt := hround.2.2; omega⟩
      · exact ⟨hround.1, hround.2.1.of_lt hless, hround.2.2.1, hround.2.2.2⟩
    · rintro stop next' ⟨-, hends⟩
      exact ⟨hends.delivers, hends.goes.of_lt hless, hends.sane, hends.tells, hends.broke⟩
  · rintro next ⟨-, hdelivers, hfailure, hless⟩
    exact ⟨hdelivers, .inr (.inl hless), nofun, fun hfailed => absurd hfailure hfailed, nofun⟩

theorem Kept.taken_of_failed (hkept : Kept base first acked this) (hfailed : this.failure ≠ none) :
    this.taken = true := by
  obtain ⟨got, log, queued, hsound⟩ := hkept
  by_contra htaken
  exact hfailed (hsound.sane (Bool.eq_false_iff.2 htaken))

theorem delivers_poll_read {first : List Frame} {acked : List UInt8} {remaining : Nat} (hpos : 0 < remaining)
    (hkept : Kept base first acked this) (hdelivers : Delivers md5 stream ending out this) :
    Act.wp (poll_read md5 remaining) (fun bytes this' => Hands md5 stream ending out this bytes this')
      (fun stop this' => Ends md5 stream ending out this stop this') this := by
  rw [poll_read, if_neg (Nat.ne_of_gt hpos), receive, Act.wp_bind]
  refine wp_check_error (fun hfailure => ?_) fun error hfailed =>
    ⟨hdelivers, .inl (hkept.taken_of_failed hfailed), by rintro ⟨⟩, fun _ => ⟨error, rfl⟩, fun _ _ => .inr hfailed⟩
  rw [Act.wp_bind, Act.times, Act.wp_bind]
  refine Act.wp_mono (Act.wp_and (keeps_receive_round hkept) (delivers_receive_round hpos hkept hdelivers hfailure)) ?_
    fun _ _ h => h.2
  rintro (_ | bytes) this' ⟨hkept', hround⟩
  · refine Act.wp_mono (delivers_rounds hpos hkept' hround.1 hround.2.1 hround.2.2) ?_ fun _ _ h => h
    rintro (_ | bytes) this'' hvalue
    · exact hvalue
    · exact hvalue
  · exact ⟨hround.1, hround.2.1, hround.2.2.1, hround.2.2.2⟩

/-! ## Other calls -/

/-- A call that leaves the reading side as it is. -/
structure Stays (md5 : List UInt8 → Vector UInt8 16) (stream : List UInt8) (ending : Bool) (out : List UInt8) (got : List Frame)
    (this this' : AnyTls) : Prop where
  alive : Alive md5 stream ending out got this'
  effort : this'.effort ≤ this.effort

theorem stays_drain {queued got' : List Frame} (hsound : Sound base first acked got' log queued this)
    (halive : Alive md5 stream ending out got this) :
    Act.wp drain (fun _ this' => Stays md5 stream ending out got this this' ∧ ∃ log', Owes base log' this' ∧ this'.outgoing = [])
      (fun stop this' => Stays md5 stream ending out got this this' ∧ stop ≠ .panicked) this := by
  have hstays : ∀ {log' : List Frame} {this' : AnyTls}, Drains base log log' this this' → Stays md5 stream ending out got this this' := by
    intro log' this' hdrains
    obtain ⟨halive', hle, -, -⟩ := halive.drains hdrains
    exact ⟨halive', hle⟩
  refine Act.wp_mono (wp_drain (hsound.owes halive.taken) halive.taken) ?_ ?_
  · rintro _ this' ⟨log', hdrains, houtgoing, -⟩
    exact ⟨hstays hdrains, log', hdrains.owes, houtgoing⟩
  · intro stop this' hcut
    cases hcut with
    | pending hdrains => exact ⟨hstays hdrains, nofun⟩
    | random hdrains _ => exact ⟨hstays hdrains, nofun⟩
    | lost hlost => exact absurd halive.calm hlost.broken

theorem stays_poll_flush (hkept : Kept base first acked this) (halive : Alive md5 stream ending out got this) :
    Act.wp poll_flush (fun _ this' => Stays md5 stream ending out got this this')
      (fun stop this' => Stays md5 stream ending out got this this' ∧ stop ≠ .panicked) this := by
  obtain ⟨got', log, queued, hsound⟩ := hkept
  have hsame : Stays md5 stream ending out got this this := ⟨halive, Nat.le_refl _⟩
  unfold poll_flush
  rw [Act.wp_bind]
  refine wp_check_error (fun _ => ?_) fun _ _ => ⟨hsame, nofun⟩
  rw [Act.wp_bind, Act.wp_get, if_neg (by rw [halive.taken]; exact Bool.false_ne_true)]
  by_cases hclosed : this.write_closed = true
  · rw [if_pos hclosed]
    exact hsame
  rw [if_neg hclosed]
  exact Act.wp_mono (stays_drain hsound halive) (fun _ _ h => h.1) fun _ _ h => h

/-- A write fails the session only for want of random numbers. -/
theorem stays_poll_write (hkept : Kept base first acked this) (halive : Alive md5 stream ending out got this) :
    Act.wp (poll_write bytes) (fun _ this' => Stays md5 stream ending out got this this')
      (fun stop this' => (Stays md5 stream ending out got this this' ∧ stop ≠ .panicked) ∨
        stop = .failed (outbound.truncated_read unavailable)) this := by
  obtain ⟨got', log, queued, hsound⟩ := hkept
  have hsame : Stays md5 stream ending out got this this := ⟨halive, Nat.le_refl _⟩
  unfold poll_write
  rw [Act.wp_bind]
  refine wp_check_error (fun _ => ?_) fun _ _ => .inl ⟨hsame, nofun⟩
  rw [Act.wp_bind, Act.wp_get, halive.deadline, halive.taken, if_neg (by decide)]
  by_cases hempty : bytes.isEmpty = true
  · rw [if_pos hempty]
    exact hsame
  rw [if_neg hempty, Act.wp_bind]
  refine Act.wp_mono (stays_drain hsound halive) ?_ fun _ _ h => .inl h
  rintro _ this' ⟨⟨halive', hle⟩, log', howes, houtgoing⟩
  have hfits : (bytes.take (min bytes.length MAX_FRAME)).length < 65536 := by
    rw [List.length_take, MAX_FRAME]
    omega
  rw [Act.wp_bind, Act.wp_ready]
  refine Act.wp_mono (wp_queue (push _ hfits) howes houtgoing) ?_ ?_
  · rintro _ this'' ⟨paddings, packets, draws, group, -, -, rfl⟩
    exact ⟨⟨halive'.taken, halive'.deadline, halive'.failure, halive'.calm, ⟨halive'.incoming.received, halive'.incoming.header,
      halive'.incoming.body⟩, halive'.unfinished, halive'.passed, halive'.out, halive'.ready, halive'.stream, halive'.ending⟩, hle⟩
  · rintro stop this'' ⟨rfl, draws, rfl⟩
    exact .inr rfl

/-- A session at its end does nothing more. -/
theorem wp_perform_of_taken {call : Call} (htaken : this.taken = true) (hready : this.failure = none → this.data_ready = false)
    (hcall : ∀ now, call ≠ .shutdown now) :
    Act.wp (call.perform md5)
      (fun bytes this' => this' = this ∧ bytes = [] ∧ ∀ remaining, call = .read remaining → 0 < remaining → this.failure = none)
      (fun stop this' => this' = this ∧ (∃ error, stop = .failed error) ∧ ∀ remaining, call = .read remaining → this.failure ≠ none)
      this := by
  cases call with
  | shutdown now => exact absurd rfl (hcall now)
  | write bytes =>
    rw [Call.perform, poll_write, Act.bind_assoc, Act.wp_bind]
    refine wp_check_error (fun _ => ?_) fun error _ => ⟨rfl, ⟨error, rfl⟩, by rintro _ ⟨⟩⟩
    rw [Act.bind_assoc, Act.wp_bind, Act.wp_get, if_pos (by rw [htaken, Bool.or_true])]
    exact ⟨rfl, ⟨closed, rfl⟩, by rintro _ ⟨⟩⟩
  | flush =>
    rw [Call.perform, poll_flush, Act.bind_assoc, Act.wp_bind]
    refine wp_check_error (fun _ => ?_) fun error _ => ⟨rfl, ⟨error, rfl⟩, by rintro _ ⟨⟩⟩
    rw [Act.bind_assoc, Act.wp_bind, Act.wp_get, if_pos htaken]
    exact ⟨rfl, rfl, by rintro _ ⟨⟩⟩
  | read remaining =>
    rw [Call.perform, poll_read]
    by_cases hremaining : remaining = 0
    · rw [if_pos hremaining]
      refine ⟨rfl, rfl, ?_⟩
      rintro _ hread hpos
      obtain rfl := Call.read.inj hread
      exact absurd hremaining (Nat.ne_of_gt hpos)
    rw [if_neg hremaining, receive, Act.wp_bind]
    refine wp_check_error (fun hfailure => ?_) fun error hfailed => ⟨rfl, ⟨error, rfl⟩, fun _ _ => hfailed⟩
    have hround : Act.wp (receive_round md5 remaining) (fun value this' => value = some [] ∧ this' = this) (fun _ _ => False) this := by
      unfold receive_round
      rw [Act.wp_bind, Act.wp_get, hready hfailure, if_neg Bool.false_ne_true, if_pos htaken]
      exact ⟨rfl, rfl⟩
    rw [Act.wp_bind, Act.times, Act.wp_bind]
    refine Act.wp_mono hround ?_ fun _ _ h => h.elim
    rintro _ _ ⟨rfl, rfl⟩
    exact ⟨rfl, rfl, fun _ _ _ => hfailure⟩

/-! ## Runs -/

/-- What a call leads to. -/
structure Stepped (md5 : List UInt8 → Vector UInt8 16) (stream : List UInt8) (ending : Bool) (out : List UInt8) (this : AnyTls)
    (call : Call) (result : Except (Poll.Stop io.Error) (List UInt8)) (next : AnyTls) : Prop where
  delivers : Delivers md5 stream ending (out ++ given_by (call, result)) next
  stays : this.taken = true → next = this
  effort : next.taken = true ∨ next.effort ≤ this.effort
  goes : ∀ remaining, call = .read remaining → 0 < remaining → Goes this next
  ended : ∀ remaining, call = .read remaining → 0 < remaining → result = .ok [] → next.taken = true
  tells : ∀ remaining, call = .read remaining → 0 < remaining → next.failure ≠ none → ∃ error, result = .error (.failed error)
  broke : ∀ remaining error, call = .read remaining → result = .error (.failed error) → error = unavailable ∨ next.failure ≠ none

theorem given_by_error (call : Call) (stop : Poll.Stop io.Error) : given_by (call, .error stop) = [] := by
  cases call with
  | write | flush | read | shutdown => rfl

theorem given_by_nil (call : Call) : given_by (call, .ok []) = [] := by
  cases call with
  | write | flush | read | shutdown => rfl

theorem Delivers.unready (hdelivers : Delivers md5 stream ending out this) (htaken : this.taken = true) (hfailure : this.failure = none) :
    this.data_ready = false := by
  cases hdelivers with
  | alive halive =>
    rw [halive.taken] at htaken
    cases htaken
  | finished _ _ hready _ => exact hready
  | failed hfailed _ _ => exact absurd hfailure hfailed
  | flooded hfailed _ => exact absurd hfailure hfailed

theorem stepped_of_taken (hdelivers : Delivers md5 stream ending out this) (htaken : this.taken = true)
    (hcall : ∀ now, call ≠ .shutdown now) (hperform : call.perform md5 this = (result, this')) :
    Stepped md5 stream ending out this call result this' := by
  have hwp := @wp_perform_of_taken md5 this call htaken (hdelivers.unready htaken) hcall
  cases result with
  | ok bytes =>
    obtain ⟨rfl, rfl, hread⟩ := Act.wp_ok hwp hperform
    refine ⟨?_, fun _ => rfl, .inl htaken, fun _ _ _ => .inl htaken, fun _ _ _ _ => htaken, ?_, nofun⟩
    · rw [given_by_nil, List.append_nil]
      exact hdelivers
    · intro remaining hcall' hpos hfailed
      exact absurd (hread remaining hcall' hpos) hfailed
  | error stop =>
    obtain ⟨rfl, ⟨error, rfl⟩, hread⟩ := Act.wp_error hwp hperform
    refine ⟨?_, fun _ => rfl, .inl htaken, fun _ _ _ => .inl htaken, nofun, fun _ _ _ _ => ⟨error, rfl⟩, ?_⟩
    · rw [given_by_error, List.append_nil]
      exact hdelivers
    · exact fun remaining _ hcall' _ => .inr (hread remaining hcall')

theorem not_taken {P : Prop} (htaken : this.taken = false) (htrue : this.taken = true) : P := by
  rw [htaken] at htrue
  cases htrue

/-- A call that is not a read, of a session that is not at its end. -/
theorem stepped_of_stays (htaken : this.taken = false) (hcall : ∀ remaining, call ≠ .read remaining)
    (hstays : Stays md5 stream ending out got this this') : Stepped md5 stream ending out this call result this' := by
  have hgiven : given_by (call, result) = [] := by
    cases call with
    | read remaining => exact absurd rfl (hcall remaining)
    | write | flush | shutdown => rfl
  refine ⟨?_, not_taken htaken, .inr hstays.effort, fun _ heq => absurd heq (hcall _), fun _ heq => absurd heq (hcall _),
    fun _ heq => absurd heq (hcall _), fun _ _ heq => absurd heq (hcall _)⟩
  rw [hgiven, List.append_nil]
  exact .alive hstays.alive

theorem stepped_read (hdelivers : Delivers md5 stream ending out this) (hkept : Kept base first acked this)
    (htaken : this.taken = false) (hperform : Call.perform md5 (.read remaining) this = (result, this')) :
    Stepped md5 stream ending out this (.read remaining) result this' := by
  by_cases hpos : 0 < remaining
  · have hwp := @delivers_poll_read md5 stream ending out base this first acked remaining hpos hkept hdelivers
    have heffort : Goes this this' → this'.taken = true ∨ this'.effort ≤ this.effort := by
      rintro (htaken' | hless | ⟨hle, -⟩)
      · exact .inl htaken'
      · exact .inr (Nat.le_of_lt hless)
      · exact .inr hle
    cases result with
    | ok bytes =>
      have hhands := Act.wp_ok hwp hperform
      refine ⟨hhands.delivers, not_taken htaken, heffort hhands.goes, fun _ _ _ => hhands.goes, ?_,
        fun _ _ _ hfailed => absurd hhands.failure hfailed, by rintro _ _ _ ⟨⟩⟩
      exact fun _ _ _ hnil => hhands.ended (Except.ok.inj hnil)
    | error stop =>
      have hends := Act.wp_error hwp hperform
      refine ⟨?_, not_taken htaken, heffort hends.goes, fun _ _ _ => hends.goes, by rintro _ _ _ ⟨⟩, ?_, ?_⟩
      · rw [given_by_error, List.append_nil]
        exact hends.delivers
      · intro _ _ _ hfailed
        obtain ⟨error, rfl⟩ := hends.tells hfailed
        exact ⟨error, rfl⟩
      · exact fun _ error _ hstop => hends.broke error (Except.error.inj hstop)
  · have hnone : ∀ other, Call.read remaining = .read other → ¬ 0 < other := by
      rintro _ ⟨⟩
      exact hpos
    have hzero : Call.perform md5 (.read remaining) this = (.ok [], this) := by
      rw [Call.perform, poll_read, if_pos (by omega)]
      rfl
    rw [hzero] at hperform
    cases hperform
    refine ⟨?_, fun _ => rfl, .inr (Nat.le_refl _), fun other hread hsome => absurd hsome (hnone other hread),
      fun other hread hsome => absurd hsome (hnone other hread), fun other hread hsome => absurd hsome (hnone other hread), by rintro _ _ _ ⟨⟩⟩
    rw [given_by_nil, List.append_nil]
    exact hdelivers

theorem Delivers.exists_alive (hdelivers : Delivers md5 stream ending out this) (hkept : Kept base first acked this)
    (htaken : this.taken = false) : ∃ got, Alive md5 stream ending out got this := by
  obtain ⟨got, log, queued, hsound⟩ := hkept
  cases hdelivers with
  | alive halive => exact ⟨_, halive⟩
  | finished htaken' _ _ _ => exact not_taken htaken htaken'
  | failed hfailed _ _ => exact absurd (hsound.sane htaken) hfailed
  | flooded hfailed _ => exact absurd (hsound.sane htaken) hfailed

/-- One call. -/
theorem Delivers.step {first : List Frame} {acked : List UInt8} {call : Call} {result : Except (Poll.Stop io.Error) (List UInt8)}
    (hdelivers : Delivers md5 stream ending out this) (hkept : Kept base first acked this) (hcall : ∀ now, call ≠ .shutdown now)
    (hrandom : ∀ bytes, (call, result) ≠ (.write bytes, .error (.failed (outbound.truncated_read unavailable))))
    (hperform : call.perform md5 this = (result, this')) : Stepped md5 stream ending out this call result this' := by
  by_cases htaken : this.taken = true
  · exact stepped_of_taken hdelivers htaken hcall hperform
  rw [Bool.not_eq_true] at htaken
  obtain ⟨got, halive⟩ := hdelivers.exists_alive hkept htaken
  cases call with
  | shutdown now => exact absurd rfl (hcall now)
  | read remaining => exact stepped_read hdelivers hkept htaken hperform
  | flush =>
    have hwp : Act.wp (Call.perform md5 .flush) (fun _ this' => Stays md5 stream ending out got this this')
        (fun _ this' => Stays md5 stream ending out got this this') this := by
      rw [Call.perform, Act.wp_bind]
      exact Act.wp_mono (stays_poll_flush hkept halive) (fun _ _ h => h) fun _ _ h => h.1
    have hstays : Stays md5 stream ending out got this this' := by
      cases result with
      | ok bytes => exact Act.wp_ok hwp hperform
      | error stop => exact Act.wp_error hwp hperform
    exact stepped_of_stays htaken (by rintro _ ⟨⟩) hstays
  | write bytes =>
    have hwp : Act.wp (Call.perform md5 (.write bytes)) (fun _ this' => Stays md5 stream ending out got this this')
        (fun stop this' => Stays md5 stream ending out got this this' ∨ stop = .failed (outbound.truncated_read unavailable)) this := by
      rw [Call.perform, Act.wp_bind]
      exact Act.wp_mono (stays_poll_write hkept halive) (fun _ _ h => h) fun _ _ h => h.imp_left And.left
    have hstays : Stays md5 stream ending out got this this' := by
      cases result with
      | ok bytes => exact Act.wp_ok hwp hperform
      | error stop =>
        rcases Act.wp_error hwp hperform with hstays | rfl
        · exact hstays
        · exact absurd rfl (hrandom bytes)
    exact stepped_of_stays htaken (by rintro _ ⟨⟩) hstays

/-- No frame of the stream ends it. -/
def Passes (md5 : List UInt8 → Vector UInt8 16) (stream : List UInt8) : Prop :=
  ∃ v2 acknowledged, Passed md5 (frames stream) v2 acknowledged

/-- A session that has met the end of the stream, or has handed out all that comes of a stream without end. -/
def Settled (md5 : List UInt8 → Vector UInt8 16) (stream : List UInt8) (ending : Bool) (out : List UInt8) (this : AnyTls) : Prop :=
  this.taken = true ∨ ending = false ∧ Passes md5 stream ∧ read_frames md5 false false (frames stream) = (out, false)

theorem Alive.prefix (halive : Alive md5 stream ending out got this) : out <+: (read_frames md5 false false (frames stream)).1 := by
  rw [halive.frames_stream, halive.passed, ← halive.out, List.append_assoc]
  exact List.prefix_append _ _

theorem Delivers.settled (hdelivers : Delivers md5 stream ending out this) (hkept : Kept base first acked this)
    (hreads : this.inner.reads = []) (htail : this.tail = []) : Settled md5 stream ending out this := by
  by_cases htaken : this.taken = true
  · exact .inl htaken
  rw [Bool.not_eq_true] at htaken
  obtain ⟨got, halive⟩ := hdelivers.exists_alive hkept htaken
  have hframes : frames stream = got := by
    rw [halive.frames_stream, hreads, arriving, List.append_nil, frames_part halive.incoming halive.unfinished, List.append_nil]
  have hout : data got = out := by
    rw [← halive.out, htail, List.append_nil]
  refine .inr ⟨?_, ⟨this.v2, this.acknowledged, ?_⟩, ?_⟩
  · rw [← halive.ending, hreads, ends]
  · rw [hframes]
    exact halive.passed
  · have hpassed := halive.passed []
    rw [List.append_nil, read_frames, List.append_nil, hout] at hpassed
    rw [hframes, hpassed]

theorem Settled.step {first : List Frame} {acked : List UInt8} {call : Call} {result : Except (Poll.Stop io.Error) (List UInt8)}
    (hsettled : Settled md5 stream ending out this) (hstepped : Stepped md5 stream ending out this call result this')
    (hkept : Kept base first acked this') : Settled md5 stream ending (out ++ given_by (call, result)) this' := by
  by_cases htaken : this'.taken = true
  · exact .inl htaken
  rw [Bool.not_eq_true] at htaken
  obtain ⟨got, halive⟩ := hstepped.delivers.exists_alive hkept htaken
  rcases hsettled with htaken' | ⟨hending, hpasses, hout⟩
  · rw [← hstepped.stays htaken'] at htaken'
    exact not_taken htaken htaken'
  · have hstarts := halive.prefix
    rw [hout] at hstarts
    have hlength := hstarts.length_le
    rw [List.length_append] at hlength
    dsimp only at hlength
    have hgiven : given_by (call, result) = [] := List.eq_nil_of_length_eq_zero (by omega)
    rw [hgiven, List.append_nil]
    exact .inr ⟨hending, hpasses, hout⟩

/-- A read into a buffer that is not empty. -/
def Call.hasRoom : Call → Bool
  | .read remaining => 0 < remaining
  | _ => false

/-- Calls after which nothing was shut down, and no write was refused for want of random numbers. -/
def Ordinary (history : History) : Prop :=
  ∀ entry ∈ history, (∀ now, entry.1 ≠ .shutdown now) ∧
    ∀ bytes, entry ≠ (.write bytes, .error (.failed (outbound.truncated_read unavailable)))

/-- What calls lead to. -/
structure Reached (md5 : List UInt8 → Vector UInt8 16) (stream : List UInt8) (ending : Bool) (out : List UInt8) (this : AnyTls)
    (calls : List Call) (history : History) (last : AnyTls) : Prop where
  delivers : Delivers md5 stream ending (out ++ delivered_bytes history) last
  stays : this.taken = true → last = this
  settled : Settled md5 stream ending out this ∨ this.effort ≤ calls.countP Call.hasRoom →
    Settled md5 stream ending (out ++ delivered_bytes history) last
  tells : this.failure ≠ none → ∀ remaining result, (.read remaining, result) ∈ history → 0 < remaining →
    ∃ error, result = .error (.failed error)

/-- A read with room uses up some of the effort, or meets the end. -/
theorem Stepped.settles {calls : List Call} (hstepped : Stepped md5 stream ending out this call result this')
    (hkept : Kept base first acked this') (henough : this.effort ≤ (call :: calls).countP Call.hasRoom) :
    Settled md5 stream ending (out ++ given_by (call, result)) this' ∨ this'.effort ≤ calls.countP Call.hasRoom := by
  by_cases hroom : call.hasRoom = true
  · obtain ⟨remaining, rfl, hpos⟩ : ∃ remaining, call = .read remaining ∧ 0 < remaining := by
      cases call with
      | read remaining => exact ⟨remaining, rfl, of_decide_eq_true hroom⟩
      | write | flush | shutdown => cases hroom
    rw [List.countP_cons_of_pos hroom] at henough
    rcases hstepped.goes remaining rfl hpos with htaken | hless | ⟨-, hreads, htail⟩
    · exact .inl (.inl htaken)
    · exact .inr (by omega)
    · exact .inl (hstepped.delivers.settled hkept hreads htail)
  · rw [List.countP_cons_of_neg hroom] at henough
    rcases hstepped.effort with htaken | hle
    · exact .inl (.inl htaken)
    · exact .inr (Nat.le_trans hle henough)

theorem settled_of_effort (hdelivers : Delivers md5 stream ending out this) (hkept : Kept base first acked this)
    (hzero : this.effort ≤ 0) : Settled md5 stream ending out this := by
  rw [effort, patience] at hzero
  exact hdelivers.settled hkept (List.eq_nil_of_length_eq_zero (by omega)) (List.eq_nil_of_length_eq_zero (by omega))

/-- Any calls. -/
theorem Delivers.call_all {first : List Frame} {acked : List UInt8} (hdelivers : Delivers md5 stream ending out this)
    (hkept : Kept base first acked this) (calls : List Call) (hordinary : Ordinary (call_all md5 calls this).1) :
    Reached md5 stream ending out this calls (call_all md5 calls this).1 (call_all md5 calls this).2 := by
  induction calls generalizing out acked this with
  | nil =>
    refine ⟨?_, fun _ => rfl, ?_, nofun⟩
    · exact (List.append_nil out).symm ▸ hdelivers
    · rintro (hsettled | hzero)
      · exact (List.append_nil out).symm ▸ hsettled
      · exact (List.append_nil out).symm ▸ settled_of_effort hdelivers hkept hzero
  | cons call calls ih =>
    cases hperform : call.perform md5 this with
    | mk result next =>
      rw [call_all_cons calls hperform] at hordinary ⊢
      obtain ⟨hcall, hrandom⟩ := hordinary _ List.mem_cons_self
      have hstepped := hdelivers.step hkept hcall hrandom hperform
      have hkept' := (hkept.step hperform).1
      have hreached := ih hstepped.delivers hkept' fun entry hentry => hordinary entry (List.mem_cons_of_mem _ hentry)
      refine ⟨?_, ?_, ?_, ?_⟩
      · rw [delivered_bytes_cons, ← List.append_assoc]
        exact hreached.delivers
      · intro htaken
        have hsame := hstepped.stays htaken
        rw [hreached.stays (hsame ▸ htaken), hsame]
      · intro henough
        rw [delivered_bytes_cons, ← List.append_assoc]
        refine hreached.settled ?_
        rcases henough with hsettled | henough
        · exact .inl (hsettled.step hstepped hkept')
        · exact hstepped.settles hkept' henough
      · intro hfailed remaining result' hmem hpos
        have hsame := hstepped.stays (hkept.taken_of_failed hfailed)
        rcases List.mem_cons.1 hmem with hhead | htail
        · obtain ⟨rfl, rfl⟩ := Prod.mk.inj hhead
          exact hstepped.tells remaining rfl hpos (hsame ▸ hfailed)
        · exact hreached.tells (hsame ▸ hfailed) remaining result' htail hpos

/-- A session whose stream is settled meets the end of the stream, if there is one. -/
theorem Settled.taken (hsettled : Settled md5 stream ending out this) (hend : ending = true ∨ ¬ Passes md5 stream) : this.taken = true := by
  rcases hsettled with htaken | ⟨hending, hpasses, -⟩
  · exact htaken
  · rcases hend with hend | hend
    · rw [hending] at hend
      cases hend
    · exact absurd hpasses hend

theorem Delivers.of_finished (hdelivers : Delivers md5 stream ending out this) (htaken : this.taken = true)
    (hfailure : this.failure = none) : read_frames md5 false false (frames stream) = (out, true) := by
  cases hdelivers with
  | alive halive => exact not_taken halive.taken htaken
  | finished _ _ _ hout => exact hout
  | failed hfailed _ _ => exact absurd hfailure hfailed
  | flooded hfailed _ => exact absurd hfailure hfailed

/-- A session at its end tells how the stream ends. -/
theorem Delivers.of_taken (hdelivers : Delivers md5 stream ending out this) (htaken : this.taken = true) (hflooded : this.flooded = false) :
    read_frames md5 false false (frames stream) = (out, this.failure.isNone) := by
  cases hdelivers with
  | alive halive => exact not_taken halive.taken htaken
  | finished _ hfailure _ hout => rw [hout, hfailure, Option.isNone_none]
  | failed hfailure _ hout => rw [hout, Option.isNone_eq_false_iff.2 (Option.isSome_iff_ne_none.2 hfailure)]
  | flooded _ htrue =>
    rw [hflooded] at htrue
    cases htrue

theorem Settled.all_out (hsettled : Settled md5 stream ending out this) (hdelivers : Delivers md5 stream ending out this)
    (hflooded : this.flooded = false) : out = (read_frames md5 false false (frames stream)).1 := by
  rcases hsettled with htaken | ⟨-, -, hout⟩
  · rw [hdelivers.of_taken htaken hflooded]
  · rw [hout]

/-- Reads of a session at its end. -/
theorem poll_read_of_taken (hdelivers : Delivers md5 stream ending out this) (htaken : this.taken = true)
    (hpos : 0 < remaining) :
    if this.failure.isNone then poll_read md5 remaining this = (.ok [], this)
    else ∃ error, poll_read md5 remaining this = (.error (.failed error), this) := by
  have hwp := @wp_perform_of_taken md5 this (.read remaining) htaken (hdelivers.unready htaken) nofun
  cases hpoll : poll_read md5 remaining this with
  | mk result next =>
    cases result with
    | ok bytes =>
      obtain ⟨rfl, rfl, hfailure⟩ := Act.wp_ok hwp hpoll
      rw [hfailure remaining rfl hpos]
      rfl
    | error stop =>
      obtain ⟨rfl, ⟨error, rfl⟩, hfailed⟩ := Act.wp_error hwp hpoll
      rw [Option.isNone_eq_false_iff.2 (Option.isSome_iff_ne_none.2 (hfailed remaining rfl))]
      exact ⟨error, rfl⟩

theorem Delivers.prefix (hdelivers : Delivers md5 stream ending out this) (hflooded : this.flooded = false) :
    out <+: (read_frames md5 false false (frames stream)).1 := by
  cases hdelivers with
  | alive halive => exact halive.prefix
  | finished _ _ _ hout => rw [hout]
  | failed _ _ hout => rw [hout]
  | flooded _ htrue =>
    rw [hflooded] at htrue
    cases htrue

end Steps

/-! ## From the opening on -/

section Open

variable {md5 : List UInt8 → Vector UInt8 16} {padding : Padding} {address : List UInt8} {hsettings : (settings padding).length < 65536}
  {haddress : address.length < 65536}

theorem alive_start {wire inner : Wire io.Error} {bytes : List UInt8} {packets : List (List UInt8)} {draws : List (Option UInt32)}
    (hcalm : wire.Calm) (hreceived : wire.received = []) (hsends : Wire.Sends wire inner bytes) :
    Alive md5 (arriving wire.reads) (ends wire.reads) [] [] (start inner padding padding packets draws) ∧
      (start inner padding padding packets draws).effort = patience wire.reads := by
  have hnone : inner.received = [] := hsends.received.trans hreceived
  refine ⟨⟨rfl, rfl, rfl, hsends.calm hcalm, incoming_nil rfl hnone, .inl (show 0 < 7 by decide), passed_nil, rfl, nofun, ?_, ?_⟩, ?_⟩
  · change inner.received ++ arriving inner.reads = _
    rw [hnone, hsends.reads, List.nil_append]
  · exact congrArg ends hsends.reads
  · exact congrArg patience hsends.reads

/-- A session that `open` returns is at the start of the stream. -/
theorem alive_open {digest : Vector UInt8 32} {polls : Nat} {wire : Wire io.Error} {draws : List (Option UInt32)}
    (hcalm : wire.Calm) (hreceived : wire.received = []) :
    Act.wp (AnyTls.open digest address padding polls)
      (fun this _ => ∃ size, Kept (wire.sent ++ auth digest size) (openingFrames padding address hsettings haddress) [] this ∧
        Alive md5 (arriving wire.reads) (ends wire.reads) [] [] this ∧ this.effort ≤ patience wire.reads)
      (fun stop _ => stop ≠ .panicked) (wire, draws) := by
  refine wp_open ?_ ?_
  · intro size inner packets draws steps paddings hsends hpacked
    obtain ⟨halive, heffort⟩ := @alive_start md5 padding wire inner _ packets draws hcalm hreceived hsends
    refine ⟨?_, halive, Nat.le_of_eq heffort⟩
    rw [← hsends.sent]
    exact kept_start (hsends.received.trans hreceived) hpacked
  · rintro size this ⟨hkept, halive, heffort⟩
    refine Act.wp_mono (Act.wp_and (keeps_poll_flush hkept) (stays_poll_flush hkept halive)) ?_ ?_
    · rintro _ this' ⟨hkept', hstays⟩
      rw [nothing, List.append_nil] at hkept'
      exact ⟨hkept', hstays.alive, Nat.le_trans hstays.effort heffort⟩
    · rintro stop this' ⟨⟨hsane, hkept'⟩, hstays, -⟩
      exact ⟨hsane, hkept', hstays.alive, Nat.le_trans hstays.effort heffort⟩

end Open

end AnyTls

open AnyTls in
/-- After `open` on a transport whose writes do not fail, whatever ordinary calls are made, however the transport
    cuts the stream of the peer, and as long as no more than 32 heartbeats wait: reads hand out a front of what the
    frames of the stream carry before the first FIN, violation or alert; a read tells a clean end only when it has
    all been handed out and a FIN comes next; a read fails only when it has all been handed out and something else
    comes next, and then every later read fails; and after enough reads all of it has been handed out and, if there
    is an end, reads tell it. -/
theorem reads_deliver_stream {md5 : List UInt8 → Vector UInt8 16} {raw address : List UInt8} {padding : Padding}
    {digest : Vector UInt8 32} {polls : Nat} {wire : Wire io.Error} {draws : List (Option UInt32)} {this : AnyTls}
    {left : Wire io.Error × List (Option UInt32)} (hparse : Padding.parse md5 raw = .ok padding) (haddress : address.length < 65536)
    (hreceived : wire.received = []) (hcalm : wire.Calm)
    (hopen : AnyTls.open digest address padding polls (wire, draws) = (.ok this, left))
    {calls : List Call} {history : History} {session : AnyTls} (hcalls : call_all md5 calls this = (history, session))
    (hordinary : Ordinary history) (hflooded : session.flooded = false) :
    (∀ entry ∈ history, entry.2 ≠ .error .panicked) ∧
    delivered_bytes history <+: (read_frames md5 false false (frames (arriving wire.reads))).1 ∧
    (∀ remaining next, 0 < remaining → poll_read md5 remaining session = (.ok [], next) →
      read_frames md5 false false (frames (arriving wire.reads)) = (delivered_bytes history, true) ∧
      ∃ before fin after, frames (arriving wire.reads) = before ++ fin :: after ∧ fin.cmd = 3 ∧ delivered_bytes history = data before) ∧
    (∀ remaining error next, 0 < remaining → poll_read md5 remaining session = (.error (.failed error), next) →
      next.flooded = false → error ≠ unavailable →
      read_frames md5 false false (frames (arriving wire.reads)) = (delivered_bytes history, false) ∧
      ∀ later, Ordinary (call_all md5 later next).1 → ∀ room result, (.read room, result) ∈ (call_all md5 later next).1 → 0 < room →
        ∃ error, result = .error (.failed error)) ∧
    (patience wire.reads ≤ calls.countP Call.hasRoom →
      delivered_bytes history = (read_frames md5 false false (frames (arriving wire.reads))).1 ∧
      (ends wire.reads = true ∨ ¬ Passes md5 (arriving wire.reads) → ∀ remaining, 0 < remaining →
        if (read_frames md5 false false (frames (arriving wire.reads))).2 then poll_read md5 remaining session = (.ok [], session)
        else ∃ error, poll_read md5 remaining session = (.error (.failed error), session))) := by
  have hsettings := length_settings_lt hparse
  obtain ⟨size, hstart, halive, heffort⟩ :=
    Act.wp_ok (@alive_open md5 _ _ hsettings haddress digest polls wire draws hcalm hreceived) hopen
  have hhistory : (call_all md5 calls this).1 = history := congrArg Prod.fst hcalls
  have hsession : (call_all md5 calls this).2 = session := congrArg Prod.snd hcalls
  obtain ⟨hkept, hsane⟩ := @Kept.call_all md5 _ _ _ _ hstart calls
  have hreached := Delivers.call_all (.alive halive) hstart calls (hhistory.symm ▸ hordinary)
  rw [hhistory, hsession, List.nil_append] at hkept
  rw [hhistory] at hsane
  rw [hhistory, hsession] at hreached
  have hdelivers := hreached.delivers
  rw [List.nil_append] at hdelivers
  have hread : ∀ {remaining : Nat} {result : Except (Poll.Stop io.Error) (List UInt8)} {next : AnyTls},
      poll_read md5 remaining session = (result, next) →
      Stepped md5 (arriving wire.reads) (ends wire.reads) (delivered_bytes history) session (.read remaining) result next ∧
        ∃ acked, Kept (wire.sent ++ auth digest size) (openingFrames padding address hsettings haddress) acked next :=
    fun hpoll => ⟨hdelivers.step hkept nofun nofun hpoll, _, (@Kept.step md5 _ _ _ _ _ hkept (.read _) _ hpoll).1⟩
  refine ⟨hsane, hdelivers.prefix hflooded, ?_, ?_, ?_⟩
  · intro remaining next hpos hpoll
    obtain ⟨hstepped, -⟩ := hread hpoll
    have hfailure : next.failure = none := by
      by_contra hfailed
      obtain ⟨error, herror⟩ := hstepped.tells remaining rfl hpos hfailed
      cases herror
    have hend := hstepped.delivers.of_finished (hstepped.ended remaining rfl hpos rfl) hfailure
    rw [given_by_nil, List.append_nil] at hend
    obtain ⟨before, fin, after, hframes, hfin, hdata⟩ := read_frames_fin (congrArg Prod.snd hend)
    rw [hend] at hdata
    exact ⟨hend, before, fin, after, hframes, hfin, hdata⟩
  · intro remaining error next hpos hpoll hflooded' hrandom
    obtain ⟨hstepped, acked, hkept'⟩ := hread hpoll
    have hfailed := (hstepped.broke remaining error rfl rfl).resolve_left hrandom
    have hend := hstepped.delivers.of_taken (hkept'.taken_of_failed hfailed) hflooded'
    rw [given_by_error, List.append_nil, Option.isNone_eq_false_iff.2 (Option.isSome_iff_ne_none.2 hfailed)] at hend
    refine ⟨hend, fun later hlater => ?_⟩
    exact (hstepped.delivers.call_all hkept' later hlater).tells hfailed
  · intro henough
    have hsettled := hreached.settled (.inr (Nat.le_trans heffort henough))
    rw [List.nil_append] at hsettled
    refine ⟨hsettled.all_out hdelivers hflooded, fun hend remaining hpos => ?_⟩
    have htaken := hsettled.taken hend
    rw [hdelivers.of_taken htaken hflooded]
    exact poll_read_of_taken hdelivers htaken hpos

/-- A transport that gives a frame of two bytes and a FIN, in three pieces. -/
def samplePeer : Wire io.Error :=
  { sampleWire with reads := [.ready [2, 0, 0, 0, 1, 0, 2, 7], .pending, .ready [8, 3, 0, 0, 0], .ready [1, 0, 0]] }

open AnyTls in
theorem call_mem_of_mem_call_all {calls : List Call} {this : AnyTls}
    {entry : Call × Except (Poll.Stop io.Error) (List UInt8)} (hentry : entry ∈ (call_all md5 calls this).1) :
    entry.1 ∈ calls := by
  induction calls generalizing this with
  | nil => cases hentry
  | cons call calls ih =>
    cases hperform : call.perform md5 this with
    | mk result next =>
      rw [call_all_cons calls hperform] at hentry
      rcases List.mem_cons.1 hentry with rfl | hentry
      · exact List.mem_cons_self
      · exact List.mem_cons_of_mem _ (ih hentry)

/-- The session that reads them. -/
theorem sample_reads : ∃ padding this left, Padding.parse (fun _ => .replicate 16 0) (str.bytes "stop=1") = .ok padding ∧
    AnyTls.open (.replicate 32 0) [1, 2, 3] padding 1 (samplePeer, []) = (.ok this, left) ∧
    (AnyTls.call_all (fun _ => .replicate 16 0) (List.replicate 20 (.read 1)) this).2.flooded = false := by
  obtain ⟨padding, this, left, hparse, hopen, hflooded⟩ := @exists_open samplePeer
    (fun this => !(AnyTls.call_all (fun _ => .replicate 16 0) (List.replicate 20 (.read 1)) this).2.flooded) (by decide +kernel)
  exact ⟨padding, this, left, hparse, hopen, by rwa [Bool.not_eq_true'] at hflooded⟩

theorem calm_samplePeer : samplePeer.Calm :=
  ⟨fun _ hanswer => .inr ⟨1000, by decide, List.eq_of_mem_replicate hanswer⟩, fun _ hanswer => .inr (List.eq_of_mem_replicate hanswer)⟩

/-- Both bytes come, and then the end. -/
theorem bytes_read : ∃ padding this left, Padding.parse (fun _ => .replicate 16 0) (str.bytes "stop=1") = .ok padding ∧
    AnyTls.open (.replicate 32 0) [1, 2, 3] padding 1 (samplePeer, []) = (.ok this, left) ∧
    AnyTls.delivered_bytes (AnyTls.call_all (fun _ => .replicate 16 0) (List.replicate 20 (.read 1)) this).1 = [7, 8] := by
  obtain ⟨padding, this, left, hparse, hopen, hflooded⟩ := sample_reads
  have hordinary : AnyTls.Ordinary (AnyTls.call_all (fun _ => .replicate 16 0) (List.replicate 20 (.read 1)) this).1 := by
    intro entry hentry
    have hcall := List.eq_of_mem_replicate (call_mem_of_mem_call_all hentry)
    refine ⟨fun now => hcall ▸ nofun, fun bytes heq => ?_⟩
    rw [heq] at hcall
    cases hcall
  obtain ⟨-, -, -, -, henough⟩ := reads_deliver_stream hparse (by decide) rfl calm_samplePeer hopen rfl hordinary hflooded
  obtain ⟨hdelivered, -⟩ := henough (by decide)
  refine ⟨padding, this, left, hparse, hopen, hdelivered.trans ?_⟩
  decide +kernel

end zc.anytls
