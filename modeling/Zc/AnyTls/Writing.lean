import Zc.AnyTls.Session

/-!
# Queued frames on their way

What the transport has taken and what is still queued are the bytes of whole frames. Queueing adds a
frame and padding after it, and writing moves bytes from the queue to the transport.
-/

namespace zc.anytls

open Poll (Act)

variable {inner : Wire io.Error} {early : Poll.Stop io.Error → AnyTls → Prop} {this this' this'' : AnyTls}
  {base : List UInt8} {log log' : List Frame}

namespace AnyTls

/-- The frames that `log` lists are sent, except for the bytes that are still outgoing. -/
structure Owes (base : List UInt8) (log : List Frame) (this : AnyTls) : Prop where
  sent : this.inner.sent ++ this.outgoing.flatten.drop this.written = base ++ encode log
  written : match this.outgoing with
    | [] => this.written = 0
    | packet :: _ => this.written < packet.length
  nonempty : ∀ packet ∈ this.outgoing, packet ≠ []

/-- The transport after calls on its sending side. -/
structure Wrote (inner inner' : Wire io.Error) : Prop where
  grows : inner.sent <+: inner'.sent
  reads : inner'.reads = inner.reads
  answers : inner'.answers = inner.answers
  received : inner'.received = inner.received
  shut : inner'.shut = inner.shut
  calm : inner.Calm → inner'.Calm

theorem Wrote.refl (inner : Wire io.Error) : Wrote inner inner :=
  ⟨List.prefix_refl _, rfl, rfl, rfl, rfl, fun hcalm => hcalm⟩

theorem Wrote.trans {inner' inner'' : Wire io.Error} (hwrote : Wrote inner inner') (hwrote' : Wrote inner' inner'') :
    Wrote inner inner'' where
  grows := hwrote.grows.trans hwrote'.grows
  reads := hwrote'.reads.trans hwrote.reads
  answers := hwrote'.answers.trans hwrote.answers
  received := hwrote'.received.trans hwrote.received
  shut := hwrote'.shut.trans hwrote.shut
  calm hcalm := hwrote'.calm (hwrote.calm hcalm)

theorem wrote_of_sends {inner' : Wire io.Error} {bytes : List UInt8} (hsends : Wire.Sends inner inner' bytes) :
    Wrote inner inner' :=
  ⟨⟨bytes, hsends.sent.symm⟩, hsends.reads, hsends.answers, hsends.received, hsends.shut, hsends.calm⟩

theorem wp_onInner {α : Type} {act : Act (Wire io.Error) io.Error α} {post : α → AnyTls → Prop} :
    Act.wp (onInner act) post early this ↔
      Act.wp act (fun value inner => post value { this with inner })
        (fun reason inner => early reason { this with inner }) this.inner :=
  Act.wp_zoom

theorem wp_fail {α : Type} {error : io.Error} {post : α → AnyTls → Prop} : Act.wp (fail error) post early this ↔
      early (.failed (outbound.truncated_read error)) (finished { this with failure := some error.kind }) :=
  Iff.rfl

theorem wp_live {post : Unit → AnyTls → Prop} (htaken : this.taken = false) :
    Act.wp live post early this ↔ post () this := by
  rw [live, Act.wp_bind, Act.wp_get, htaken, if_neg Bool.false_ne_true, Act.wp_pure]

theorem wp_unwrap {post : Unit → AnyTls → Prop} (htaken : this.taken = false) :
    Act.wp unwrap post early this ↔ post () this := by
  rw [unwrap, Act.wp_bind, Act.wp_get, Act.wp_assert (by rw [htaken]; rfl)]

/-! ## Queueing -/

/-- A frame and the padding after it are queued when nothing else is. -/
theorem wp_queue (frame : Frame) (howes : Owes base log this) (houtgoing : this.outgoing = []) :
    Act.wp (queue frame.cmd frame.id frame.body)
      (fun _ this' => ∃ paddings packets draws group, (∀ padding ∈ paddings, padding.isPadding) ∧
        Owes base (log ++ frame :: paddings) this' ∧ this' = { this with outgoing := packets, draws, group })
      (fun stop this' => stop = .failed unavailable ∧ ∃ draws, this' = { this with draws }) this := by
  obtain ⟨hsent, hwritten, -⟩ := howes
  rw [houtgoing] at hsent hwritten
  dsimp only at hwritten
  unfold queue
  rw [Act.wp_bind, Act.wp_get, Act.wp_bind, Act.wp_zoom]
  refine Act.wp_mono (wp_split _ (append_frame [] frame.cmd frame.id frame.body) this.draws) ?_ ?_
  · rintro packets draws ⟨paddings, hpacked⟩
    refine ⟨paddings, packets, draws, _, hpacked.padding, ⟨?_, ?_, hpacked.nonempty⟩, rfl⟩
    · rw [List.flatten_nil, List.drop_nil, List.append_nil] at hsent
      change this.inner.sent ++ packets.flatten.drop this.written = _
      rw [hwritten, List.drop_zero, hpacked.flatten, hsent, encode_append, encode_cons, List.append_assoc]
      rfl
    · dsimp only
      cases packets with
      | nil => exact hwritten
      | cons packet packets =>
        rw [hwritten]
        exact List.length_pos_iff.2 (hpacked.nonempty packet List.mem_cons_self)
  · rintro stop draws rfl
    exact ⟨rfl, draws, rfl⟩

/-! ## Writing -/

/-- A frame that is not padding. -/
def real (frame : Frame) : Bool :=
  frame.cmd != 0

/-- The answer to a heartbeat. -/
def reply (id : UInt32) : Frame :=
  ⟨9, id, [], Frame.nil_fits⟩

/-- Frames that answer heartbeats in the order in which they wait, with padding between them. -/
def Answers (extra : List Frame) (left waiting : List UInt32) : Prop :=
  ∃ ids, extra.filter real = ids.map reply ∧ (ids ++ left).Sublist waiting

theorem Answers.refl (waiting : List UInt32) : Answers [] waiting waiting :=
  ⟨[], rfl, List.Sublist.refl _⟩

theorem Answers.trans {extra extra' : List Frame} {left middle waiting : List UInt32} (hanswers : Answers extra middle waiting)
    (hanswers' : Answers extra' left middle) : Answers (extra ++ extra') left waiting := by
  obtain ⟨ids, hreal, hsublist⟩ := hanswers
  obtain ⟨ids', hreal', hsublist'⟩ := hanswers'
  refine ⟨ids ++ ids', ?_, ?_⟩
  · rw [List.filter_append, hreal, hreal', List.map_append]
  · rw [List.append_assoc]
    exact (List.Sublist.append_left hsublist' ids).trans hsublist

theorem real_of_isPadding {frame : Frame} (hpadding : frame.isPadding) : real frame = false := by
  rw [real, hpadding.1]
  rfl

theorem filter_real_paddings {paddings : List Frame} (hpaddings : ∀ padding ∈ paddings, padding.isPadding) :
    paddings.filter real = [] := by
  rw [List.filter_eq_nil_iff]
  intro padding hmem
  rw [real_of_isPadding (hpaddings padding hmem)]
  exact Bool.false_ne_true

/-- The session after some of its frames have gone out, and answers to heartbeats have been queued. -/
structure Drains (base : List UInt8) (log log' : List Frame) (this this' : AnyTls) : Prop where
  answers : ∃ extra, log' = log ++ extra ∧ Answers extra this'.hearts this.hearts
  owes : Owes base log' this'
  wrote : Wrote this.inner this'.inner
  same : this' = { this with
    inner := this'.inner
    outgoing := this'.outgoing
    written := this'.written
    hearts := this'.hearts
    draws := this'.draws
    group := this'.group }

theorem Drains.refl (howes : Owes base log this) : Drains base log log this this :=
  ⟨⟨[], (List.append_nil _).symm, .refl _⟩, howes, .refl _, rfl⟩

theorem Drains.trans {log'' : List Frame} (hdrains : Drains base log log' this this')
    (hdrains' : Drains base log' log'' this' this'') : Drains base log log'' this this'' := by
  obtain ⟨⟨extra, hlog, hanswers⟩, -, hwrote, hsame⟩ := hdrains
  obtain ⟨⟨extra', hlog', hanswers'⟩, howes, hwrote', hsame'⟩ := hdrains'
  refine ⟨⟨extra ++ extra', ?_, hanswers.trans hanswers'⟩, howes, hwrote.trans hwrote', ?_⟩
  · rw [hlog', hlog, List.append_assoc]
  · refine hsame'.trans ?_
    rw [hsame]

theorem Drains.hearts_le (hdrains : Drains base log log' this this') : this'.hearts.length ≤ this.hearts.length := by
  obtain ⟨⟨extra, -, ids, -, hsublist⟩, -, -, -⟩ := hdrains
  have hlength := hsublist.length_le
  rw [List.length_append] at hlength
  omega

/-- A session whose transport has failed to write. -/
structure Lost (base : List UInt8) (log log' : List Frame) (this this' : AnyTls) : Prop where
  answers : ∃ extra, log' = log ++ extra ∧ Answers extra [] this.hearts
  sent : this'.inner.sent <+: base ++ encode log'
  wrote : Wrote this.inner this'.inner
  broken : ¬ this.inner.Calm
  failure : this'.failure.isSome = true
  same : this' = finished { this with
    inner := this'.inner
    failure := this'.failure
    written := this'.written
    draws := this'.draws
    group := this'.group }

theorem Drains.lost {log'' : List Frame} (hdrains : Drains base log log' this this')
    (hlost : Lost base log' log'' this' this'') : Lost base log log'' this this'' := by
  obtain ⟨⟨extra, hlog, hanswers⟩, -, hwrote, hsame⟩ := hdrains
  obtain ⟨⟨extra', hlog', hanswers'⟩, hsent, hwrote', hbroken, hfailure, hsame'⟩ := hlost
  refine ⟨⟨extra ++ extra', ?_, hanswers.trans hanswers'⟩, hsent, hwrote.trans hwrote',
    fun hcalm => hbroken (hwrote.calm hcalm), hfailure, ?_⟩
  · rw [hlog', hlog, List.append_assoc]
  · refine hsame'.trans ?_
    rw [hsame]
    rfl

/-- How a computation that writes ends early: it waits, the random source fails, or the session is lost. -/
inductive Cut (base : List UInt8) (log : List Frame) (this this' : AnyTls) : Poll.Stop io.Error → Prop
  | pending {log' : List Frame} (hdrains : Drains base log log' this this') : Cut base log this this' .pending
  | random {log' : List Frame} (hdrains : Drains base log log' this this') (hfewer : this'.hearts.length < this.hearts.length) :
    Cut base log this this' (.failed unavailable)
  | lost {log' : List Frame} {error : io.Error} (hlost : Lost base log log' this this') : Cut base log this this' (.failed error)

theorem Cut.trans {stop : Poll.Stop io.Error} (hdrains : Drains base log log' this this')
    (hcut : Cut base log' this' this'' stop) : Cut base log this this'' stop := by
  cases hcut with
  | pending hdrains' => exact .pending (hdrains.trans hdrains')
  | random hdrains' hfewer => exact .random (hdrains.trans hdrains') (Nat.lt_of_lt_of_le hfewer hdrains.hearts_le)
  | lost hlost => exact .lost (hdrains.lost hlost)

theorem answers_nil (waiting : List UInt32) : Answers [] [] waiting :=
  ⟨[], rfl, List.nil_sublist _⟩

/-- A write of the transport, which is to blame when it takes nothing. -/
theorem wp_write {bytes : List UInt8} (hbytes : bytes ≠ []) {post : Nat → Wire io.Error → Prop}
    {early : Poll.Stop io.Error → Wire io.Error → Prop}
    (hpost : ∀ count inner', count ≤ bytes.length → Wire.Sends inner inner' (bytes.take count) → (count = 0 → ¬ inner.Calm) → post count inner')
    (hpending : ∀ inner', Wire.Sends inner inner' [] → early .pending inner')
    (hfailed : ∀ error inner', Wire.Sends inner inner' [] → ¬ inner.Calm → early (.failed error) inner') :
    Act.wp (Wire.poll_write bytes) post early inner := by
  have hsends : Act.wp (Wire.poll_write bytes)
      (fun count inner' => count ≤ bytes.length ∧ Wire.Sends inner inner' (bytes.take count))
      (fun stop inner' => Wire.Sends inner inner' [] ∧ stop ≠ .panicked) inner :=
    Wire.wp_poll_write (fun _ _ hle hsends => ⟨hle, hsends⟩) (fun _ hsends => ⟨hsends, nofun⟩) fun _ _ hsends => ⟨hsends, nofun⟩
  refine Act.wp_mono (Act.wp_and hsends (Wire.wp_poll_write_broken hbytes)) ?_ ?_
  · rintro count inner' ⟨⟨hle, hsends⟩, hzero⟩
    exact hpost count inner' hle hsends hzero
  · rintro stop inner' ⟨⟨hsends, hsane⟩, hbroken⟩
    cases stop with
    | pending => exact hpending inner' hsends
    | failed error => exact hfailed error inner' hsends (hbroken.resolve_left nofun)
    | panicked => exact absurd rfl hsane

theorem wp_flush {post : Unit → Wire io.Error → Prop} {early : Poll.Stop io.Error → Wire io.Error → Prop}
    (hpost : ∀ inner', Wire.Sends inner inner' [] → post () inner')
    (hpending : ∀ inner', Wire.Sends inner inner' [] → early .pending inner')
    (hfailed : ∀ error inner', Wire.Sends inner inner' [] → ¬ inner.Calm → early (.failed error) inner') :
    Act.wp Wire.poll_flush post early inner := by
  have hsends : Act.wp Wire.poll_flush (fun _ inner' => Wire.Sends inner inner' [])
      (fun stop inner' => Wire.Sends inner inner' [] ∧ stop ≠ .panicked) inner :=
    Wire.wp_poll_flush (fun _ hsends => hsends) (fun _ hsends => ⟨hsends, nofun⟩) fun _ _ hsends => ⟨hsends, nofun⟩
  refine Act.wp_mono (Act.wp_and hsends Wire.wp_poll_flush_broken) ?_ ?_
  · exact fun _ inner' hsends => hpost inner' hsends.1
  · rintro stop inner' ⟨⟨hsends, hsane⟩, hbroken⟩
    cases stop with
    | pending => exact hpending inner' hsends
    | failed error => exact hfailed error inner' hsends (hbroken.resolve_left nofun)
    | panicked => exact absurd rfl hsane

theorem wp_write_round (howes : Owes base log this) (htaken : this.taken = false) (hsome : this.outgoing ≠ []) :
    Act.wp write_round
      (fun _ this' => Drains base log log this this' ∧ this'.hearts = this.hearts ∧ this'.unsent < this.unsent)
      (fun stop this' => Cut base log this this' stop) this := by
  obtain ⟨hsent, hwritten, hnonempty⟩ := howes
  unfold write_round
  rw [Act.wp_bind, Act.wp_get]
  cases houtgoing : this.outgoing with
  | nil => exact absurd houtgoing hsome
  | cons packet packets =>
    rw [houtgoing] at hsent hwritten hnonempty
    dsimp only at hwritten ⊢
    have hbytes : (packet :: packets).flatten.drop this.written = packet.drop this.written ++ packets.flatten := by
      rw [List.flatten_cons, List.drop_append_of_le_length (Nat.le_of_lt hwritten)]
    rw [hbytes] at hsent
    rw [Act.wp_bind, wp_live htaken, Act.wp_bind, Act.wp_ready, wp_onInner]
    have hlost : ∀ inner bytes failure, Wire.Sends this.inner inner bytes → inner.sent <+: base ++ encode log → ¬ this.inner.Calm →
        Lost base log log this (finished { this with inner, failure := some failure }) :=
      fun inner bytes failure hsends hstarts hbroken => ⟨⟨[], (List.append_nil _).symm, answers_nil _⟩, hstarts,
        wrote_of_sends hsends, hbroken, rfl, rfl⟩
    have hdrains : ∀ this' inner bytes outgoing written, Wire.Sends this.inner inner bytes → Owes base log this' →
        this' = { this with inner, outgoing, written } → Drains base log log this this' := by
      rintro this' inner bytes outgoing written hsends howes rfl
      exact ⟨⟨[], (List.append_nil _).symm, .refl _⟩, howes, wrote_of_sends hsends, rfl⟩
    have hsome : packet.drop this.written ≠ [] := by
      rw [← List.length_pos_iff, List.length_drop]
      omega
    refine wp_write hsome ?_ ?_ ?_
    · intro count inner hcount hsends hzero
      rw [List.length_drop] at hcount
      have hmore : inner.sent ++ (packet.drop (this.written + count) ++ packets.flatten) = base ++ encode log := by
        rw [hsends.sent, ← hsent, ← List.drop_drop, List.append_assoc, ← List.append_assoc (List.take _ _),
          List.take_append_drop]
      cases count with
      | zero => exact .lost (hlost inner _ _ hsends ⟨_, hmore⟩ (hzero rfl))
      | succ count =>
        change Drains base log log this (advanced packet packets (count + 1) { this with inner }) ∧ _ ∧ _
        have hunsent : this.unsent = packets.length + 1 + (packet.length + packets.flatten.length) - this.written := by
          rw [unsent, houtgoing, List.length_cons, List.flatten_cons, List.length_append]
        rw [advanced]
        by_cases hall : this.written + (count + 1) = packet.length
        · rw [if_pos hall]
          rw [hall, List.drop_length, List.nil_append] at hmore
          refine ⟨hdrains _ inner _ packets 0 hsends ⟨hmore, ?_, ?_⟩ rfl, rfl, ?_⟩
          · cases packets with
            | nil => rfl
            | cons next packets =>
              exact List.length_pos_iff.2 (hnonempty next (List.mem_cons_of_mem _ List.mem_cons_self))
          · exact fun packet hpacket => hnonempty packet (List.mem_cons_of_mem _ hpacket)
          · rw [hunsent]
            change packets.length + packets.flatten.length - 0 < _
            omega
        · rw [if_neg hall]
          refine ⟨hdrains _ inner _ this.outgoing (this.written + (count + 1)) hsends ⟨?_, ?_, ?_⟩ rfl, rfl, ?_⟩
          · change inner.sent ++ this.outgoing.flatten.drop (this.written + (count + 1)) = _
            rw [houtgoing, List.flatten_cons, List.drop_append_of_le_length (by omega), hmore]
          · change match this.outgoing with
              | [] => _
              | packet :: _ => _
            rw [houtgoing]
            dsimp only
            omega
          · change ∀ packet ∈ this.outgoing, _
            rw [houtgoing]
            exact hnonempty
          · rw [hunsent]
            change this.outgoing.length + this.outgoing.flatten.length - (this.written + (count + 1)) < _
            rw [houtgoing, List.length_cons, List.flatten_cons, List.length_append]
            omega
    · intro inner hsends
      refine .pending (hdrains _ inner _ this.outgoing this.written hsends ⟨?_, ?_, ?_⟩ rfl)
      · change inner.sent ++ this.outgoing.flatten.drop this.written = _
        rw [hsends.sent, List.append_nil, houtgoing, hbytes, hsent]
      · change match this.outgoing with
          | [] => _
          | packet :: _ => _
        rw [houtgoing]
        exact hwritten
      · change ∀ packet ∈ this.outgoing, _
        rw [houtgoing]
        exact hnonempty
    · intro error inner hsends hbroken
      refine .lost (hlost inner _ _ hsends ?_ hbroken)
      rw [hsends.sent, List.append_nil]
      exact ⟨_, hsent⟩

theorem Drains.taken (hdrains : Drains base log log' this this') : this'.taken = this.taken := by
  rw [hdrains.same]

/-- A lost session after the transport failed. -/
theorem lost_of_sends {error : io.Error} (howes : Owes base log this) (hsends : Wire.Sends this.inner inner [])
    (hbroken : ¬ this.inner.Calm) :
    Lost base log log this (finished { this with inner, failure := some error.kind }) := by
  refine ⟨⟨[], (List.append_nil _).symm, answers_nil _⟩, ?_, wrote_of_sends hsends, hbroken, rfl, rfl⟩
  change inner.sent <+: _
  rw [hsends.sent, List.append_nil]
  exact ⟨_, howes.sent⟩

theorem drains_of_sends (howes : Owes base log this) (hsends : Wire.Sends this.inner inner []) :
    Drains base log log this { this with inner } := by
  refine ⟨⟨[], (List.append_nil _).symm, .refl _⟩, ⟨?_, howes.written, howes.nonempty⟩, wrote_of_sends hsends, rfl⟩
  change inner.sent ++ _ = _
  rw [hsends.sent, List.append_nil]
  exact howes.sent

/-- Every queued packet is written. -/
theorem wp_write_rounds (howes : Owes base log this) (htaken : this.taken = false) :
    Act.wp (Act.whileDo unsent (fun this => !this.outgoing.isEmpty) write_round)
      (fun _ this' => Drains base log log this this' ∧ this'.hearts = this.hearts ∧ this'.outgoing = [])
      (fun stop this' => Cut base log this this' stop) this := by
  have hnil : ∀ packets : List (List UInt8), (!packets.isEmpty) = true → packets ≠ [] := by
    rintro _ hsome rfl
    cases hsome
  refine Act.wp_mono
    (Act.wp_whileDo (I := fun this' => Drains base log log this this' ∧ this'.hearts = this.hearts) ?_ ?_ ?_) ?_
    fun _ _ hcut => hcut
  · rintro this' ⟨hdrains, -⟩ hsome
    obtain ⟨-, hwritten, -⟩ := hdrains.owes
    cases houtgoing : this'.outgoing with
    | nil => exact absurd houtgoing (hnil _ hsome)
    | cons packet packets =>
      rw [houtgoing] at hwritten
      rw [unsent, houtgoing, List.length_cons, List.flatten_cons, List.length_append]
      dsimp only at hwritten
      omega
  · rintro this' ⟨hdrains, hhearts⟩ hsome
    refine Act.wp_mono (wp_write_round hdrains.owes (hdrains.taken.trans htaken) (hnil _ hsome)) ?_ ?_
    · rintro _ this'' ⟨hdrains', hhearts', hless⟩
      exact ⟨⟨hdrains.trans hdrains', hhearts'.trans hhearts⟩, hless⟩
    · intro stop this'' hcut
      exact hcut.trans hdrains
  · exact ⟨.refl howes, rfl⟩
  · rintro _ this' ⟨⟨hdrains, hhearts⟩, hempty⟩
    rw [Bool.not_eq_false', List.isEmpty_iff] at hempty
    exact ⟨hdrains, hhearts, hempty⟩

/-- One answer is queued. -/
theorem drains_of_answer {paddings : List Frame} {id : UInt32} {hearts : List UInt32}
    (hhearts : this.hearts = id :: hearts) (hpaddings : ∀ padding ∈ paddings, padding.isPadding)
    (howes : Owes base (log ++ reply id :: paddings) this') {packets : List (List UInt8)} {draws : List (Option UInt32)}
    {group : Nat} (hsame : this' = { this with hearts, outgoing := packets, draws, group }) :
    Drains base log (log ++ reply id :: paddings) this this' := by
  subst hsame
  refine ⟨⟨reply id :: paddings, rfl, [id], ?_, ?_⟩, howes, .refl _, rfl⟩
  · rw [List.filter_cons_of_pos rfl, filter_real_paddings hpaddings]
    rfl
  · rw [hhearts]
    exact List.Sublist.refl _

/-- Answers for the waiting heartbeats go out after the frame that is on its way. -/
theorem wp_drain_round (howes : Owes base log this) (htaken : this.taken = false) :
    Act.wp drain_round
      (fun done this' => ∃ log', Drains base log log' this this' ∧ match done with
        | some _ => this'.outgoing = [] ∧ this'.hearts = []
        | none => this'.hearts.length < this.hearts.length)
      (fun stop this' => Cut base log this this' stop) this := by
  unfold drain_round
  rw [Act.wp_bind]
  refine Act.wp_mono (wp_write_rounds howes htaken) ?_ fun _ _ hcut => hcut
  rintro _ this' ⟨hdrains, hhearts, houtgoing⟩
  rw [Act.wp_bind, Act.wp_get]
  cases hwaiting : this'.hearts with
  | cons id hearts =>
    dsimp only
    rw [Act.wp_bind, Act.wp_modify, Act.wp_bind]
    have howes' : Owes base log { this' with hearts } := ⟨hdrains.owes.sent, hdrains.owes.written, hdrains.owes.nonempty⟩
    refine Act.wp_mono (wp_queue (reply id) howes' houtgoing) ?_ ?_
    · rintro _ this'' ⟨paddings, packets, draws, group, hpaddings, howes'', hsame⟩
      refine ⟨log ++ reply id :: paddings, hdrains.trans (drains_of_answer hwaiting hpaddings howes'' hsame), ?_⟩
      rw [hsame]
      change hearts.length < _
      rw [← hhearts, hwaiting, List.length_cons]
      exact Nat.lt_succ_self _
    · rintro stop this'' ⟨rfl, draws, rfl⟩
      refine .random (hdrains.trans ⟨⟨[], (List.append_nil _).symm, [], rfl, ?_⟩, ?_, .refl _, rfl⟩) ?_
      · rw [hwaiting]
        exact List.sublist_cons_self _ _
      · exact ⟨hdrains.owes.sent, hdrains.owes.written, hdrains.owes.nonempty⟩
      · rw [← hhearts, hwaiting]
        exact Nat.lt_succ_self _
  | nil =>
    dsimp only
    rw [Act.wp_bind, wp_live (hdrains.taken.trans htaken), Act.wp_bind, Act.wp_ready, wp_onInner]
    refine wp_flush ?_ ?_ ?_
    · intro inner hsends
      exact ⟨log, hdrains.trans (drains_of_sends hdrains.owes hsends), houtgoing, hwaiting⟩
    · intro inner hsends
      exact .pending (hdrains.trans (drains_of_sends hdrains.owes hsends))
    · intro error inner hsends hbroken
      exact .lost (hdrains.lost (lost_of_sends hdrains.owes hsends hbroken))

/-- Everything queued, and an answer for every waiting heartbeat, has gone out. -/
theorem wp_drain (howes : Owes base log this) (htaken : this.taken = false) :
    Act.wp drain
      (fun _ this' => ∃ log', Drains base log log' this this' ∧ this'.outgoing = [] ∧ this'.hearts = [])
      (fun stop this' => Cut base log this this' stop) this := by
  unfold drain
  refine Act.wp_loop (I := fun this' => ∃ log', Drains base log log' this this') ?_ ?_ ⟨log, .refl howes⟩
  · exact fun _ _ => Nat.succ_pos _
  · rintro this' ⟨log', hdrains⟩
    refine Act.wp_mono (wp_drain_round hdrains.owes (hdrains.taken.trans htaken)) ?_ ?_
    · rintro (_ | _) this'' ⟨log'', hdrains', hdone⟩
      · exact ⟨⟨log'', hdrains.trans hdrains'⟩, Nat.succ_lt_succ hdone⟩
      · exact ⟨log'', hdrains.trans hdrains', hdone⟩
    · exact fun _ _ hcut => hcut.trans hdrains

end AnyTls

end zc.anytls
