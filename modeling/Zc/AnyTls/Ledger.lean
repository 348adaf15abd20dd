import Zc.AnyTls.Receiving

/-!
# The books of a session

What holds of a session between any two calls: the frames it has queued so far carry the bytes it
acknowledged, answers to heartbeats of the peer, and at most one FIN at the end; the transport has
taken a front of them.
-/

namespace zc.anytls

open Poll (Act)

/-! ## What frames carry -/

/-- The bytes of the stream. -/
def data (frames : List Frame) : List UInt8 :=
  (frames.filter fun frame => frame.cmd == 2 && frame.id == 1).flatMap Frame.body

/-- The ids of the heartbeats that are answered. -/
def answered (frames : List Frame) : List UInt32 :=
  (frames.filter fun frame => frame.cmd == 9).map Frame.id

/-- The ids of the heartbeats that ask for an answer. -/
def requested (frames : List Frame) : List UInt32 :=
  (frames.filter fun frame => frame.cmd == 8).map Frame.id

@[simp]
theorem data_append (frames frames' : List Frame) : data (frames ++ frames') = data frames ++ data frames' := by
  rw [data, List.filter_append, List.flatMap_append]
  rfl

@[simp]
theorem answered_append (frames frames' : List Frame) : answered (frames ++ frames') = answered frames ++ answered frames' := by
  rw [answered, List.filter_append, List.map_append]
  rfl

@[simp]
theorem requested_append (frames frames' : List Frame) : requested (frames ++ frames') = requested frames ++ requested frames' := by
  rw [requested, List.filter_append, List.map_append]
  rfl

variable {log' : List Frame} {md5 : List UInt8 → Vector UInt8 16} {frame : Frame} {remaining : Nat}

namespace AnyTls

theorem data_replies (ids : List UInt32) : data (ids.map reply) = [] := by
  rw [data, List.flatMap_eq_nil_iff]
  intro frame hframe
  obtain ⟨hmem, hdata⟩ := List.mem_filter.1 hframe
  obtain ⟨id, -, rfl⟩ := List.mem_map.1 hmem
  cases hdata

theorem answered_replies (ids : List UInt32) : answered (ids.map reply) = ids := by
  induction ids with
  | nil => rfl
  | cons id ids ih =>
    rw [List.map_cons, answered, List.filter_cons_of_pos rfl, List.map_cons]
    exact congrArg (id :: ·) ih

/-- A frame of bytes of the stream. -/
def push (bytes : List UInt8) (hfits : bytes.length < 65536) : Frame :=
  ⟨2, 1, bytes, hfits⟩

/-- The end of the stream. -/
def fin : Frame :=
  ⟨3, 1, [], Frame.nil_fits⟩

/-! ## The invariant -/

/-- At most one FIN is queued, and nothing after it. -/
inductive Ending (queued : List Frame) (this : AnyTls) : Prop
  | absent (hnone : ∀ frame ∈ queued, frame.cmd ≠ 3) (hfin : this.taken = false → this.fin_queued = false)
  | queued {body : List Frame} (hqueued : queued = body ++ [fin]) (hnone : ∀ frame ∈ body, frame.cmd ≠ 3)
    (hhearts : this.hearts = []) (hfin : this.fin_queued = true)

/-- The transport has told that the peer sends nothing more. -/
def PeerEnded (inner : Wire io.Error) : Prop :=
  .ready [] ∈ inner.answers ∨ ∃ error : io.Error, error.kind = .UnexpectedEof ∧ .failed error ∈ inner.answers

/-- Nothing has been done yet to shut down. -/
structure Running (this : AnyTls) : Prop where
  fin_queued : this.fin_queued = false
  write_closed : this.write_closed = false
  peer_closed : this.peer_closed = false
  close_drained : this.close_drained = 0

/-- The session between two calls. The first `base` bytes went out before the session, `first` are its
    opening frames, `acked` the bytes it acknowledged, `got` the frames of the peer it acted on, `log` the
    frames it queued and `queued` those of them after the opening that are not padding. -/
structure Sound (base : List UInt8) (first : List Frame) (acked : List UInt8) (got log queued : List Frame)
    (this : AnyTls) : Prop where
  books : log.filter real = first ++ queued
  bytes : data queued = acked
  hearts : (answered queued ++ this.hearts).Sublist (requested got)
  came : encode got <+: this.inner.received
  sent : base <+: this.inner.sent ∧ this.inner.sent <+: base ++ encode log
  ending : Ending queued this
  owes : this.taken = false → Owes base log this
  sane : this.taken = false → this.failure = none
  incoming : this.taken = false → this.close_deadline = none → Incoming got this ∧ Running this
  undelivered : this.data_ready = true → this.delivered < this.body.length ∧ this.header = []
  closed : this.write_closed = true → this.inner.sent = base ++ encode log ∧ this.inner.shut = true ∧ fin ∈ queued
  peer : this.peer_closed = true → PeerEnded this.inner
  drained : this.taken = false → this.close_drained ≤ MAX_CLOSE_DRAIN

/-- The session for some frames. -/
def Kept (base : List UInt8) (first : List Frame) (acked : List UInt8) (this : AnyTls) : Prop :=
  ∃ got log queued, Sound base first acked got log queued this

section Steps

variable {base : List UInt8} {first : List Frame} {acked : List UInt8} {got log queued : List Frame} {this this' : AnyTls}

/-- Answers to waiting heartbeats are queued. -/
theorem Sound.answers (hsound : Sound base first acked got log queued this) {extra : List Frame} {left : List UInt32}
    (hlog : log' = log ++ extra) (hanswers : Answers extra left this.hearts) :
    ∃ queued', log'.filter real = first ++ queued' ∧ data queued' = acked ∧
      (answered queued' ++ left).Sublist (requested got) ∧
      ((∀ frame ∈ queued, frame.cmd ≠ 3) → ∀ frame ∈ queued', frame.cmd ≠ 3) ∧ (this.hearts = [] → queued' = queued) := by
  obtain ⟨ids, hextra, hsublist⟩ := hanswers
  refine ⟨queued ++ ids.map reply, ?_, ?_, ?_, ?_, ?_⟩
  · rw [hlog, List.filter_append, hsound.books, hextra, List.append_assoc]
  · rw [data_append, data_replies, List.append_nil, hsound.bytes]
  · rw [answered_append, answered_replies, List.append_assoc]
    exact (List.Sublist.append_left hsublist _).trans hsound.hearts
  · intro hnone frame hframe
    rcases List.mem_append.1 hframe with hframe | hframe
    · exact hnone frame hframe
    · obtain ⟨id, -, rfl⟩ := List.mem_map.1 hframe
      change (9 : UInt8) ≠ 3
      decide
  · intro hhearts
    rw [hhearts] at hsublist
    obtain ⟨rfl, -⟩ := List.append_eq_nil_iff.1 (List.sublist_nil.1 hsublist)
    exact List.append_nil _

/-- The session has written, and has not been shut down. -/
theorem Sound.drains (hsound : Sound base first acked got log queued this) (htaken : this.taken = false)
    (hopen : this.write_closed = false) (hdrains : Drains base log log' this this') :
    ∃ queued', Sound base first acked got log' queued' this' := by
  obtain ⟨⟨extra, hlog, hanswers⟩, howes, hwrote, hsame⟩ := hdrains
  obtain ⟨queued', hbooks, hbytes, hhearts, hnone, hnil⟩ := hsound.answers hlog hanswers
  have hfin : this'.fin_queued = this.fin_queued := by rw [hsame]
  have hclosed : this'.write_closed = false := by rw [hsame]; exact hopen
  refine ⟨queued', hbooks, hbytes, hhearts, ?_, ⟨hsound.sent.1.trans hwrote.grows, _, howes.sent⟩, ?_, fun _ => howes, ?_, ?_, ?_, ?_, ?_, ?_⟩
  · rw [hwrote.received]
    exact hsound.came
  · cases hsound.ending with
    | absent hnone' hfin' => exact .absent (hnone hnone') fun _ => hfin.trans (hfin' htaken)
    | queued hqueued hnone' hhearts' hfin' =>
      obtain rfl := hnil hhearts'
      refine .queued hqueued hnone' ?_ (hfin.trans hfin')
      obtain ⟨ids, -, hsublist⟩ := hanswers
      rw [hhearts'] at hsublist
      exact (List.append_eq_nil_iff.1 (List.sublist_nil.1 hsublist)).2
  · intro _
    rw [hsame]
    exact hsound.sane htaken
  · intro _ hdeadline
    rw [hsame] at hdeadline
    obtain ⟨hincoming, hrunning⟩ := hsound.incoming htaken hdeadline
    rw [hsame]
    exact ⟨⟨hwrote.received.trans hincoming.received, hincoming.header, hincoming.body⟩,
      hrunning.fin_queued, hrunning.write_closed, hrunning.peer_closed, hrunning.close_drained⟩
  · rw [hsame]
    exact hsound.undelivered
  · intro htrue
    rw [hclosed] at htrue
    cases htrue
  · intro hpeer
    rw [hsame] at hpeer
    have hended := hsound.peer hpeer
    rwa [PeerEnded, hwrote.answers]
  · intro _
    rw [hsame]
    exact hsound.drained htaken

/-- The session has failed while it wrote. -/
theorem Sound.lost (hsound : Sound base first acked got log queued this) (hopen : this.write_closed = false)
    (hlost : Lost base log log' this this') : ∃ queued', Sound base first acked got log' queued' this' := by
  obtain ⟨⟨extra, hlog, hanswers⟩, hsent, hwrote, -, -, hsame⟩ := hlost
  obtain ⟨queued', hbooks, hbytes, hhearts, hnone, hnil⟩ := hsound.answers hlog hanswers
  have htaken : this'.taken = true := by rw [hsame]; rfl
  have hhearts' : this'.hearts = [] := by rw [hsame]; rfl
  have hfin : this'.fin_queued = this.fin_queued := by rw [hsame]; rfl
  have hclosed : this'.write_closed = false := by rw [hsame]; exact hopen
  have hnot : ¬ this'.taken = false := by rw [htaken]; exact Bool.noConfusion
  refine ⟨queued', hbooks, hbytes, hhearts'.symm ▸ hhearts, ?_, ⟨hsound.sent.1.trans hwrote.grows, hsent⟩, ?_, fun hfalse => absurd hfalse hnot,
    fun hfalse => absurd hfalse hnot, fun hfalse => absurd hfalse hnot, ?_, ?_, ?_, fun hfalse => absurd hfalse hnot⟩
  · rw [hwrote.received]
    exact hsound.came
  · cases hsound.ending with
    | absent hnone' _ => exact .absent (hnone hnone') fun hfalse => absurd hfalse hnot
    | queued hqueued hnone' hwaiting hfin' =>
      obtain rfl := hnil hwaiting
      exact .queued hqueued hnone' hhearts' (hfin.trans hfin')
  · rw [hsame]
    exact hsound.undelivered
  · intro htrue
    rw [hclosed] at htrue
    cases htrue
  · intro hpeer
    rw [hsame] at hpeer
    have hended := hsound.peer hpeer
    rwa [PeerEnded, hwrote.answers]

/-- The session drops its transport. -/
theorem Sound.finish (hsound : Sound base first acked got log queued this)
    (hreceived : this.inner.received <+: this'.inner.received) (hsent : this'.inner.sent = this.inner.sent)
    (hshut : this'.inner.shut = this.inner.shut) (hfin : this'.fin_queued = this.fin_queued)
    (hwrite : this'.write_closed = this.write_closed) (hpeer : this'.peer_closed = true → PeerEnded this'.inner)
    (hready : this'.data_ready = true → this'.delivered < this'.body.length ∧ this'.header = []) :
    Sound base first acked got log queued (finished this') := by
  refine ⟨hsound.books, hsound.bytes, ?_, hsound.came.trans hreceived, ?_, ?_, nofun, nofun, nofun, hready, ?_, hpeer, nofun⟩
  · refine List.Sublist.trans ?_ hsound.hearts
    exact List.Sublist.append_left (List.nil_sublist _) _
  · change base <+: this'.inner.sent ∧ this'.inner.sent <+: _
    rw [hsent]
    exact hsound.sent
  · cases hsound.ending with
    | absent hnone _ => exact .absent hnone nofun
    | queued hqueued hnone _ hfin' => exact .queued hqueued hnone rfl (hfin.trans hfin')
  · intro hclosed
    change this'.inner.sent = _ ∧ this'.inner.shut = true ∧ _
    rw [hsent, hshut]
    exact hsound.closed (hwrite.symm.trans hclosed)

/-- The session has read a part of a frame. -/
theorem Sound.reading (hsound : Sound base first acked got log queued this) (htaken : this.taken = false)
    (hdeadline : this.close_deadline = none) (hready : this.data_ready = false) (hreading : Reading this this')
    (hincoming : Incoming got this') : Sound base first acked got log queued this' := by
  obtain ⟨-, hrunning⟩ := hsound.incoming htaken hdeadline
  have hready' : this'.data_ready = false := by rw [hreading.same]; exact hready
  have hrunning' : Running this' := by
    rw [hreading.same]
    exact ⟨hrunning.fin_queued, hrunning.write_closed, hrunning.peer_closed, hrunning.close_drained⟩
  refine ⟨hsound.books, hsound.bytes, ?_, hsound.came.trans hreading.received, ?_, ?_, ?_, ?_, fun _ _ => ⟨hincoming, hrunning'⟩,
    ?_, ?_, ?_, ?_⟩
  · rw [hreading.same]
    exact hsound.hearts
  · rw [hreading.sent]
    exact hsound.sent
  · have hending := hsound.ending
    cases hending with
    | absent hnone _ => exact .absent hnone fun _ => hrunning'.fin_queued
    | queued _ _ _ hfin =>
      rw [hrunning.fin_queued] at hfin
      cases hfin
  · intro _
    have howes := hsound.owes htaken
    refine ⟨?_, ?_, ?_⟩
    · rw [hreading.sent, hreading.same]
      exact howes.sent
    · rw [hreading.same]
      exact howes.written
    · rw [hreading.same]
      exact howes.nonempty
  · intro _
    rw [hreading.same]
    exact hsound.sane htaken
  · intro htrue
    rw [hready'] at htrue
    cases htrue
  · intro htrue
    rw [hrunning'.write_closed] at htrue
    cases htrue
  · intro htrue
    rw [hrunning'.peer_closed] at htrue
    cases htrue
  · intro _
    rw [hrunning'.close_drained]
    exact Nat.zero_le _

/-- Reading starts over with the next frame. -/
theorem incoming_nil (hheader : this.header = []) (hreceived : this.inner.received = encode got) : Incoming got this := by
  refine ⟨?_, ?_, ?_⟩
  · rw [hheader, hreceived]
    exact (List.append_nil _).symm
  · rw [hheader]
    exact Nat.zero_le _
  · rw [hheader]
    exact nofun

/-- The session has acted on a frame. -/
theorem Sound.reaction {after : AnyTls} (hsound : Sound base first acked got log queued this)
    (htaken : this.taken = false) (hdeadline : this.close_deadline = none) (hready : this.data_ready = false)
    (hreceived : this.inner.received = encode (got ++ [frame])) (hdelivered : this.delivered = 0)
    (hbody : frame.body = this.body) (hreaction : Reaction md5 frame this after) :
    Sound base first acked (got ++ [frame]) log queued { after with header := [] } := by
  obtain ⟨-, hrunning⟩ := hsound.incoming htaken hdeadline
  have hcame : encode (got ++ [frame]) <+: this.inner.received := hreceived ▸ List.prefix_refl _
  have howes : ∀ {this' : AnyTls}, this'.inner = this.inner → this'.outgoing = this.outgoing → this'.written = this.written →
      Owes base log this' := by
    intro this' hinner houtgoing hwritten
    obtain ⟨hsent, hpos, hnonempty⟩ := hsound.owes htaken
    refine ⟨?_, ?_, ?_⟩
    · rwa [hinner, houtgoing, hwritten]
    · rwa [houtgoing, hwritten]
    · rwa [houtgoing]
  have hmore : requested (got ++ [frame]) = requested got ++ requested [frame] := requested_append got [frame]
  have hhearts : (answered queued ++ this.hearts).Sublist (requested (got ++ [frame])) := by
    rw [hmore]
    exact hsound.hearts.trans (List.sublist_append_left _ _)
  have hending : ∀ {this' : AnyTls}, this'.fin_queued = this.fin_queued → Ending queued this' := by
    intro this' hfin
    cases hsound.ending with
    | absent hnone _ => exact .absent hnone fun _ => hfin.trans hrunning.fin_queued
    | queued _ _ _ hfin' =>
      rw [hrunning.fin_queued] at hfin'
      cases hfin'
  have hunready : ∀ {p : Prop}, this.data_ready = true → p := by
    intro p htrue
    rw [hready] at htrue
    cases htrue
  have hunclosed : ∀ {p : Prop}, this.write_closed = true → p := by
    intro p htrue
    rw [hrunning.write_closed] at htrue
    cases htrue
  have hagain : ∀ {this' : AnyTls}, this'.header = [] → this'.inner = this.inner → this'.fin_queued = this.fin_queued →
      this'.write_closed = this.write_closed → this'.peer_closed = this.peer_closed → this'.close_drained = this.close_drained →
      Incoming (got ++ [frame]) this' ∧ Running this' :=
    fun hheader hinner hfin hwrite hpeer hdrained => ⟨incoming_nil hheader (hinner ▸ hreceived), hfin.trans hrunning.fin_queued,
      hwrite.trans hrunning.write_closed, hpeer.trans hrunning.peer_closed, hdrained.trans hrunning.close_drained⟩
  have hquiet : ∀ shared v2 acknowledged,
      Sound base first acked (got ++ [frame]) log queued { this with shared, v2, acknowledged, header := [] } := by
    intro shared v2 acknowledged
    exact ⟨hsound.books, hsound.bytes, hhearts, hcame, hsound.sent, hending rfl, fun _ => howes rfl rfl rfl, hsound.sane,
      fun _ _ => hagain rfl rfl rfl rfl rfl rfl, hunready, hunclosed, hsound.peer, hsound.drained⟩
  cases hreaction with
  | nothing hcmd => exact hquiet this.shared this.v2 this.acknowledged
  | scheme hcmd hparse => exact hquiet _ this.v2 this.acknowledged
  | accepted hcmd hempty => exact hquiet this.shared this.v2 true
  | version hcmd hversion => exact hquiet this.shared true this.acknowledged
  | data hcmd =>
    refine ⟨hsound.books, hsound.bytes, hhearts, hcame, hsound.sent, hending rfl, fun _ => howes rfl rfl rfl, hsound.sane,
      fun _ _ => hagain rfl rfl rfl rfl rfl rfl, fun hsome => ⟨?_, rfl⟩, hunclosed, hsound.peer, hsound.drained⟩
    change (!frame.body.isEmpty) = true at hsome
    rw [Bool.not_eq_true', ← Bool.not_eq_true, List.isEmpty_iff, hbody] at hsome
    change this.delivered < _
    rw [hdelivered]
    exact List.length_pos_iff.2 hsome
  | fin hcmd =>
    refine ⟨hsound.books, hsound.bytes, ?_, hcame, hsound.sent, hending rfl, nofun, nofun, nofun, hunready, hunclosed,
      hsound.peer, nofun⟩
    exact (List.Sublist.append_left (List.nil_sublist _) _).trans hhearts
  | heartbeat hcmd hroom =>
    refine ⟨hsound.books, hsound.bytes, ?_, hcame, hsound.sent, hending rfl, fun _ => howes rfl rfl rfl, hsound.sane,
      fun _ _ => hagain rfl rfl rfl rfl rfl rfl, hunready, hunclosed, hsound.peer, hsound.drained⟩
    have hasked : requested [frame] = [frame.id] := by
      rw [requested, List.filter_cons_of_pos (by rw [hcmd]; rfl)]
      rfl
    change (answered queued ++ (this.hearts ++ [frame.id])).Sublist _
    rw [hmore, hasked, ← List.append_assoc]
    exact List.Sublist.append_right hsound.hearts _

/-- The session has failed before it had a whole frame. -/
theorem Sound.broken {before : AnyTls} {inner : Wire io.Error} {kind : ErrorKind} (hsound : Sound base first acked got log queued this)
    (htaken : this.taken = false) (hdeadline : this.close_deadline = none) (hready : this.data_ready = false)
    (hreading : Reading this before) (hstill : Still before.inner inner) :
    Sound base first acked got log queued (AnyTls.finished { before with inner, failure := some kind }) := by
  obtain ⟨-, hrunning⟩ := hsound.incoming htaken hdeadline
  refine hsound.finish ?_ ?_ ?_ ?_ ?_ ?_ ?_
  · change _ <+: inner.received
    rw [hstill.received]
    exact hreading.received
  · exact hstill.sent.trans hreading.sent
  · exact hstill.shut.trans hreading.shut
  · rw [hreading.same]
  · rw [hreading.same]
  · intro hpeer
    rw [hreading.same] at hpeer
    rw [show this.peer_closed = false from hrunning.peer_closed] at hpeer
    cases hpeer
  · intro htrue
    rw [hreading.same] at htrue
    rw [show this.data_ready = false from hready] at htrue
    cases htrue

/-- The session has refused a frame. -/
theorem Sound.refusal {after : AnyTls} {kind : ErrorKind} (hsound : Sound base first acked got log queued this)
    (hrefusal : Refusal md5 frame this after) :
    Sound base first acked got log queued (AnyTls.finished { after with failure := some kind }) := by
  cases hrefusal with
  | alert | scheme | version | unknown | rejected | flood =>
    exact hsound.finish (List.prefix_refl _) rfl rfl rfl rfl hsound.peer hsound.undelivered

/-- Bytes of the last frame of data are handed out. -/
theorem Sound.deliver (hsound : Sound base first acked got log queued this) (hready : this.data_ready = true) {delivered : Nat}
    {data_ready : Bool} (hlt : data_ready = true → delivered < this.body.length) :
    Sound base first acked got log queued { this with delivered, data_ready } := by
  obtain ⟨-, hheader⟩ := hsound.undelivered hready
  refine ⟨hsound.books, hsound.bytes, hsound.hearts, hsound.came, hsound.sent, ?_, ?_, hsound.sane, ?_, fun htrue => ⟨hlt htrue, hheader⟩,
    hsound.closed, hsound.peer, hsound.drained⟩
  · cases hsound.ending with
    | absent hnone hfin => exact .absent hnone hfin
    | queued hqueued hnone hhearts hfin => exact .queued hqueued hnone hhearts hfin
  · intro htaken
    obtain ⟨hsent, hwritten, hnonempty⟩ := hsound.owes htaken
    exact ⟨hsent, hwritten, hnonempty⟩
  · intro htaken hdeadline
    obtain ⟨hincoming, hrunning⟩ := hsound.incoming htaken hdeadline
    refine ⟨⟨hincoming.received, hincoming.header, ?_⟩, hrunning.fin_queued, hrunning.write_closed, hrunning.peer_closed,
      hrunning.close_drained⟩
    intro hseven
    change this.header.length = 7 at hseven
    rw [hheader] at hseven
    cases hseven

end Steps

/-! ## Calls -/

/-- A call that keeps the books, and acknowledges some of the bytes of its value. -/
def Keeps (base : List UInt8) (first : List Frame) (acked : List UInt8) {α : Type} (takes : α → List UInt8) (act : Act AnyTls io.Error α)
    (this : AnyTls) : Prop :=
  Act.wp act (fun value this' => Kept base first (acked ++ takes value) this')
    (fun stop this' => stop ≠ .panicked ∧ Kept base first acked this') this

/-- Nothing is acknowledged. -/
def nothing {α : Type} (_ : α) : List UInt8 :=
  []

section Calls

variable {base : List UInt8} {first : List Frame} {acked : List UInt8} {got log queued : List Frame} {this this' : AnyTls}

theorem Sound.kept (hsound : Sound base first acked got log queued this) : Kept base first acked this :=
  ⟨got, log, queued, hsound⟩

theorem Kept.nothing_more {α : Type} {value : α} (hkept : Kept base first acked this) :
    Kept base first (acked ++ nothing value) this := by
  rw [nothing, List.append_nil]
  exact hkept

theorem Sound.cut (hsound : Sound base first acked got log queued this) (htaken : this.taken = false)
    (hopen : this.write_closed = false) {stop : Poll.Stop io.Error} (hcut : Cut base log this this' stop) :
    stop ≠ .panicked ∧ ∃ log' queued', Sound base first acked got log' queued' this' := by
  cases hcut with
  | pending hdrains => exact ⟨nofun, _, hsound.drains htaken hopen hdrains⟩
  | random hdrains _ => exact ⟨nofun, _, hsound.drains htaken hopen hdrains⟩
  | lost hlost => exact ⟨nofun, _, hsound.lost hopen hlost⟩

theorem Sound.fails (hsound : Sound base first acked got log queued this) (htaken : this.taken = false)
    (hdeadline : this.close_deadline = none) (hready : this.data_ready = false) {stop : Poll.Stop io.Error}
    (hfails : Fails md5 got this this' stop) : stop ≠ .panicked ∧ Kept base first acked this' := by
  obtain ⟨-, hrunning⟩ := hsound.incoming htaken hdeadline
  cases hfails with
  | reading hhalts =>
    cases hhalts with
    | pending hincoming hreading _ _ => exact ⟨nofun, (hsound.reading htaken hdeadline hready hreading hincoming).kept⟩
    | failed hreading hbreaks hstill hsame =>
      rw [hsame]
      exact ⟨nofun, (hsound.broken htaken hdeadline hready hreading hstill).kept⟩
  | refused hwhole hrefusal hsame =>
    have hbefore := hsound.reading htaken hdeadline hready hwhole.reading hwhole.incoming
    rw [hsame]
    exact ⟨nofun, (hbefore.refusal hrefusal).kept⟩

theorem keeps_deliver (hsound : Sound base first acked got log queued this) (hready : this.data_ready = true) :
    Act.wp (AnyTls.deliver remaining) (fun _ this' => Kept base first acked this')
      (fun stop this' => stop ≠ .panicked ∧ Kept base first acked this') this := by
  obtain ⟨hlt, -⟩ := hsound.undelivered hready
  unfold AnyTls.deliver
  rw [Act.wp_bind, Act.wp_get, Act.wp_bind, Act.wp_assert (decide_eq_true (Nat.le_of_lt hlt)), Act.wp_bind, Act.wp_modify, Act.wp_pure]
  refine (hsound.deliver hready fun htrue => ?_).kept
  split_ifs at htrue with hall
  omega

theorem keeps_receive_frame (hsound : Sound base first acked got log queued this) (htaken : this.taken = false)
    (hdeadline : this.close_deadline = none) (hready : this.data_ready = false) :
    Act.wp (receive_frame md5) (fun _ this' => Kept base first acked this')
      (fun stop this' => stop ≠ .panicked ∧ Kept base first acked this') this := by
  refine Act.wp_mono (wp_receive_frame (hsound.incoming htaken hdeadline).1 htaken) ?_ ?_
  · rintro _ this' ⟨frame, before, after, hwhole, hreaction, rfl⟩
    have hbefore := hsound.reading htaken hdeadline hready hwhole.reading hwhole.incoming
    have htaken' : before.taken = false := by rw [hwhole.reading.same]; exact htaken
    have hdeadline' : before.close_deadline = none := by rw [hwhole.reading.same]; exact hdeadline
    have hready' : before.data_ready = false := by rw [hwhole.reading.same]; exact hready
    exact (hbefore.reaction htaken' hdeadline' hready' hwhole.received hwhole.delivered hwhole.holds.body hreaction).kept
  · exact fun _ _ hfails => hsound.fails htaken hdeadline hready hfails

/-- The notes about answers are not part of the books. -/
theorem Sound.replied (hsound : Sound base first acked got log queued this) {reply_pending : Bool} :
    Sound base first acked got log queued { this with reply_pending } := by
  refine ⟨hsound.books, hsound.bytes, hsound.hearts, hsound.came, hsound.sent, ?_, ?_, hsound.sane, ?_, hsound.undelivered,
    hsound.closed, hsound.peer, hsound.drained⟩
  · cases hsound.ending with
    | absent hnone hfin => exact .absent hnone hfin
    | queued hqueued hnone hhearts hfin => exact .queued hqueued hnone hhearts hfin
  · intro htaken
    obtain ⟨hsent, hwritten, hnonempty⟩ := hsound.owes htaken
    exact ⟨hsent, hwritten, hnonempty⟩
  · intro htaken hdeadline
    obtain ⟨hincoming, hrunning⟩ := hsound.incoming htaken hdeadline
    exact ⟨⟨hincoming.received, hincoming.header, hincoming.body⟩, hrunning.fin_queued, hrunning.write_closed, hrunning.peer_closed,
      hrunning.close_drained⟩

/-- A session that may read. -/
structure Listening (this : AnyTls) : Prop where
  taken : this.taken = false
  deadline : this.close_deadline = none
  ready : this.data_ready = false

theorem Drains.listening (hdrains : Drains base log log' this this') (hlistening : Listening this) :
    Listening this' := by
  rw [hdrains.same]
  exact ⟨hlistening.taken, hlistening.deadline, hlistening.ready⟩

theorem keeps_drain_replies (hsound : Sound base first acked got log queued this) (hlistening : Listening this) :
    Act.wp drain_replies (fun _ this' => Listening this' ∧ ∃ log' queued', Sound base first acked got log' queued' this')
      (fun stop this' => stop ≠ .panicked ∧ Kept base first acked this') this := by
  have hopen := (hsound.incoming hlistening.taken hlistening.deadline).2.write_closed
  unfold drain_replies
  rw [Act.wp_bind, Act.wp_get]
  by_cases hpending : this.reply_pending = true
  · rw [if_pos hpending, Act.wp_bind, Act.wp_attempt]
    refine Act.wp_mono (wp_drain (hsound.owes hlistening.taken) hlistening.taken) ?_ ?_
    · rintro _ this' ⟨log', hdrains, -, -⟩
      obtain ⟨queued', hsound'⟩ := hsound.drains hlistening.taken hopen hdrains
      have hlistening' := hdrains.listening hlistening
      exact ⟨⟨hlistening'.taken, hlistening'.deadline, hlistening'.ready⟩, log', queued', hsound'.replied⟩
    · intro stop this' hcut
      obtain ⟨hsane, log', queued', hsound'⟩ := hsound.cut hlistening.taken hopen hcut
      cases hcut with
      | pending hdrains => exact ⟨hdrains.listening hlistening, log', queued', hsound'⟩
      | random => exact ⟨nofun, hsound'.kept⟩
      | lost hlost => exact ⟨nofun, hsound'.kept⟩
  · rw [if_neg hpending]
    exact ⟨hlistening, log, queued, hsound⟩

theorem keeps_receive_round (hkept : Kept base first acked this) :
    Act.wp (receive_round md5 remaining) (fun _ this' => Kept base first acked this')
      (fun stop this' => stop ≠ .panicked ∧ Kept base first acked this') this := by
  obtain ⟨got, log, queued, hsound⟩ := hkept
  unfold receive_round
  rw [Act.wp_bind, Act.wp_get]
  by_cases hready : this.data_ready = true
  · rw [if_pos hready, Act.wp_bind]
    exact keeps_deliver hsound hready
  rw [if_neg hready]
  by_cases htaken : this.taken = true
  · rw [if_pos htaken]
    exact hsound.kept
  rw [if_neg htaken]
  by_cases hdeadline : this.close_deadline.isSome = true
  · rw [if_pos hdeadline]
    exact ⟨nofun, hsound.kept⟩
  rw [if_neg hdeadline, Act.wp_bind]
  have hlistening : Listening this :=
    ⟨Bool.eq_false_iff.2 htaken, by rwa [Option.not_isSome_iff_eq_none] at hdeadline, Bool.eq_false_iff.2 hready⟩
  refine Act.wp_mono (keeps_drain_replies hsound hlistening) ?_ fun _ _ h => h
  rintro _ this' ⟨hlistening', log', queued', hsound'⟩
  rw [Act.wp_bind]
  exact keeps_receive_frame hsound' hlistening'.taken hlistening'.deadline hlistening'.ready

theorem wp_check_error {post : Unit → AnyTls → Prop} {early : Poll.Stop io.Error → AnyTls → Prop}
    (hpost : this.failure = none → post () this) (hearly : ∀ error, this.failure ≠ none → early (.failed error) this) :
    Act.wp check_error post early this := by
  unfold check_error
  rw [Act.wp_bind, Act.wp_get]
  cases hfailure : this.failure with
  | none => exact hpost hfailure
  | some kind => exact hearly _ (by rw [hfailure]; exact nofun)

theorem keeps_poll_read (hkept : Kept base first acked this) :
    Keeps base first acked nothing (poll_read md5 remaining) this := by
  unfold Keeps poll_read
  by_cases hremaining : remaining = 0
  · rw [if_pos hremaining]
    exact hkept.nothing_more
  rw [if_neg hremaining, receive, Act.wp_bind]
  refine wp_check_error (fun _ => ?_) fun _ _ => ⟨nofun, hkept⟩
  rw [Act.wp_bind]
  refine Act.wp_times (I := Kept base first acked) ?_ ?_ hkept
  · intro this' hkept'
    refine Act.wp_mono (keeps_receive_round hkept') ?_ fun _ _ h => h
    rintro (_ | bytes) this'' hkept''
    · exact hkept''
    · exact hkept''.nothing_more
  · exact fun _ hkept' => ⟨nofun, hkept'⟩

theorem keeps_poll_flush (hkept : Kept base first acked this) : Keeps base first acked nothing poll_flush this := by
  obtain ⟨got, log, queued, hsound⟩ := hkept
  unfold Keeps poll_flush
  rw [Act.wp_bind]
  refine wp_check_error (fun _ => ?_) fun _ _ => ⟨nofun, hsound.kept⟩
  rw [Act.wp_bind, Act.wp_get]
  by_cases htaken : this.taken = true
  · rw [if_pos htaken]
    exact hsound.kept.nothing_more
  rw [if_neg htaken]
  by_cases hclosed : this.write_closed = true
  · rw [if_pos hclosed]
    exact hsound.kept.nothing_more
  rw [if_neg hclosed]
  rw [Bool.not_eq_true] at htaken hclosed
  refine Act.wp_mono (wp_drain (hsound.owes htaken) htaken) ?_ ?_
  · rintro _ this' ⟨log', hdrains, -, -⟩
    obtain ⟨queued', hsound'⟩ := hsound.drains htaken hclosed hdrains
    exact hsound'.kept.nothing_more
  · intro stop this' hcut
    obtain ⟨hsane, log', queued', hsound'⟩ := hsound.cut htaken hclosed hcut
    exact ⟨hsane, hsound'.kept⟩

/-- A frame is queued that is not an answer. -/
theorem Sound.queue {paddings : List Frame} {packets : List (List UInt8)} {draws : List (Option UInt32)} {group : Nat}
    {fin_queued : Bool} (hsound : Sound base first acked got log queued this) (htaken : this.taken = false)
    (hopen : this.write_closed = false) (hreal : real frame = true) (hcmd : frame.cmd ≠ 9)
    (hpaddings : ∀ padding ∈ paddings, padding.isPadding) (howes : Owes base (log ++ frame :: paddings) this')
    (hsame : this' = { this with outgoing := packets, draws, group, fin_queued })
    (hending : Ending (queued ++ [frame]) this') (hrunning : this.close_deadline = none → fin_queued = false) :
    Sound base first (acked ++ data [frame]) got (log ++ frame :: paddings) (queued ++ [frame]) this' := by
  subst hsame
  have hanswered : answered [frame] = [] := by
    rw [answered, List.filter_cons_of_neg (by rwa [beq_iff_eq])]
    rfl
  refine ⟨?_, ?_, ?_, hsound.came, ⟨hsound.sent.1, _, howes.sent⟩, hending, fun _ => howes, hsound.sane, ?_, hsound.undelivered, ?_, hsound.peer,
    hsound.drained⟩
  · rw [List.filter_append, hsound.books, List.filter_cons_of_pos hreal, filter_real_paddings hpaddings, List.append_assoc]
  · rw [data_append, hsound.bytes]
  · rw [answered_append, hanswered, List.append_nil]
    exact hsound.hearts
  · intro _ hdeadline
    obtain ⟨hincoming, hrunning'⟩ := hsound.incoming htaken hdeadline
    exact ⟨⟨hincoming.received, hincoming.header, hincoming.body⟩, hrunning hdeadline, hrunning'.write_closed,
      hrunning'.peer_closed, hrunning'.close_drained⟩
  · intro htrue
    rw [show this.write_closed = false from hopen] at htrue
    cases htrue

/-- The random source has been asked in vain. -/
theorem Sound.drawn (hsound : Sound base first acked got log queued this) {draws : List (Option UInt32)} {fin_queued : Bool}
    {kind : ErrorKind} (hending : ∀ frame ∈ queued, frame.cmd ≠ 3) (hopen : this.write_closed = false) :
    Sound base first acked got log queued (AnyTls.finished { this with draws, fin_queued, failure := some kind }) := by
  have hfinished := hsound.finish (List.prefix_refl _) rfl rfl rfl rfl hsound.peer hsound.undelivered
  refine ⟨hfinished.books, hfinished.bytes, hfinished.hearts, hfinished.came, hfinished.sent, .absent hending nofun, nofun, nofun,
    nofun, hfinished.undelivered, ?_, hfinished.peer, nofun⟩
  intro htrue
  rw [show this.write_closed = false from hopen] at htrue
  cases htrue

theorem Running.no_fin (hrunning : Running this) (hending : Ending queued this) : ∀ frame ∈ queued, frame.cmd ≠ 3 := by
  cases hending with
  | absent hnone _ => exact hnone
  | queued _ _ _ hfin =>
    rw [hrunning.fin_queued] at hfin
    cases hfin

theorem keeps_poll_write {bytes : List UInt8} (hkept : Kept base first acked this) :
    Keeps base first acked (fun n => bytes.take n) (poll_write bytes) this := by
  obtain ⟨got, log, queued, hsound⟩ := hkept
  unfold Keeps poll_write
  rw [Act.wp_bind]
  refine wp_check_error (fun _ => ?_) fun _ _ => ⟨nofun, hsound.kept⟩
  rw [Act.wp_bind, Act.wp_get]
  by_cases hshut : (this.close_deadline.isSome || this.taken) = true
  · rw [if_pos hshut]
    exact ⟨nofun, hsound.kept⟩
  rw [if_neg hshut]
  by_cases hempty : bytes.isEmpty = true
  · rw [if_pos hempty, Act.wp_pure]
    dsimp only
    rw [List.take_zero, List.append_nil]
    exact hsound.kept
  rw [if_neg hempty, Act.wp_bind]
  rw [Bool.or_eq_true, not_or, Option.not_isSome_iff_eq_none, Bool.not_eq_true] at hshut
  obtain ⟨hdeadline, htaken⟩ := hshut
  have hopen := (hsound.incoming htaken hdeadline).2.write_closed
  refine Act.wp_mono (wp_drain (hsound.owes htaken) htaken) ?_ ?_
  · rintro _ this' ⟨log', hdrains, houtgoing, -⟩
    obtain ⟨queued', hsound'⟩ := hsound.drains htaken hopen hdrains
    have htaken' : this'.taken = false := hdrains.taken.trans htaken
    have hdeadline' : this'.close_deadline = none := by rw [hdrains.same]; exact hdeadline
    have hrunning := (hsound'.incoming htaken' hdeadline').2
    have hnone := hrunning.no_fin hsound'.ending
    have hfits : (bytes.take (min bytes.length MAX_FRAME)).length < 65536 := by
      rw [List.length_take, MAX_FRAME]
      omega
    rw [Act.wp_bind, Act.wp_ready]
    refine Act.wp_mono (wp_queue (push _ hfits) (hsound'.owes htaken') houtgoing) ?_ ?_
    · rintro _ this'' ⟨paddings, packets, draws, group, hpaddings, howes, hsame⟩
      have hdata : data [push _ hfits] = bytes.take (min bytes.length MAX_FRAME) := List.append_nil _
      rw [Act.wp_pure]
      dsimp only
      rw [← hdata]
      refine (hsound'.queue htaken' hrunning.write_closed rfl (show (2 : UInt8) ≠ 9 by decide) hpaddings howes hsame
        (.absent ?_ fun _ => ?_) fun _ => hrunning.fin_queued).kept
      · intro frame hframe
        rcases List.mem_append.1 hframe with hframe | hframe
        · exact hnone frame hframe
        · obtain rfl := List.mem_singleton.1 hframe
          change (2 : UInt8) ≠ 3
          decide
      · rw [hsame]
        exact hrunning.fin_queued
    · rintro stop this'' ⟨rfl, draws, rfl⟩
      exact ⟨nofun, (hsound'.drawn hnone hrunning.write_closed).kept⟩
  · intro stop this' hcut
    obtain ⟨hsane, log', queued', hsound'⟩ := hsound.cut htaken hopen hcut
    exact ⟨hsane, hsound'.kept⟩

end Calls

end AnyTls

end zc.anytls
