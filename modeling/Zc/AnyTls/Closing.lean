import Zc.AnyTls.Ledger

/-!
# Shutting a session down

A session that is shut down writes what it has queued and a FIN, closes the writing side of its
transport and drops what the peer still sends, all before a deadline. Until then its reads hand out
only what is left of the last frame of data.
-/

namespace zc.anytls

open Poll (Act)

namespace AnyTls

/-- The bytes of the last frame of data that have not been handed out. -/
def tail (this : AnyTls) : List UInt8 :=
  if this.data_ready then this.body.drop this.delivered else []

/-- What is handed out is the front of what is left. -/
theorem wp_deliver_tail {this : AnyTls} {remaining : Nat} (hready : this.data_ready = true) (hle : this.delivered ≤ this.body.length) :
    Act.wp (deliver remaining)
      (fun bytes this' => (∃ delivered data_ready, this' = { this with delivered, data_ready } ∧
          (data_ready = true → delivered < this.body.length)) ∧ this.tail = bytes ++ this'.tail ∧
        bytes.length = min remaining this.tail.length)
      (fun _ _ => False) this := by
  unfold deliver
  rw [Act.wp_bind, Act.wp_get, Act.wp_bind, Act.wp_assert (decide_eq_true hle), Act.wp_bind, Act.wp_modify, Act.wp_pure]
  have htail : this.tail = this.body.drop this.delivered := if_pos hready
  refine ⟨⟨_, _, rfl, fun htrue => ?_⟩, ?_, ?_⟩
  · split_ifs at htrue with hall
    omega
  · rw [htail, tail]
    dsimp only
    by_cases hall : this.delivered + min remaining (this.body.length - this.delivered) = this.body.length
    · rw [if_pos hall, if_neg Bool.false_ne_true, List.append_nil]
      exact (List.take_of_length_le (by rw [List.length_drop]; omega)).symm
    · rw [if_neg hall, hready, if_pos rfl, ← List.drop_drop, List.take_append_drop]
  · rw [htail, List.length_take, List.length_drop]
    omega

/-- A session that is shutting down until `deadline`, or has come to its end since. Before it started to
    shut down it had received `start` bytes, and `rest` is left of the last frame of data. -/
structure Late (deadline : Nat) (start : Int) (rest : List UInt8) (this : AnyTls) : Prop where
  phase : this.taken = false ∧ this.close_deadline = some deadline ∨
    this.taken = true ∧ (this.failure.isSome = true ∨ this.write_closed = true ∧ this.peer_closed = true)
  received : this.taken = false → (this.inner.received.length : Int) = start + this.close_drained
  bound : (this.inner.received.length : Int) ≤ start + (MAX_CLOSE_DRAIN + 1)
  rest : this.tail = rest

section Steps

variable {base : List UInt8} {first : List Frame} {acked : List UInt8} {got log queued : List Frame} {this this' : AnyTls}
  {deadline : Nat} {start : Int} {rest : List UInt8}

/-- What shutting down keeps between two steps. -/
def Shutting (base : List UInt8) (first : List Frame) (acked : List UInt8) (deadline : Nat) (start : Int) (rest : List UInt8)
    (this : AnyTls) : Prop :=
  Kept base first acked this ∧ Late deadline start rest this

theorem Late.closing (hlate : Late deadline start rest this) (htaken : this.taken = false) : this.close_deadline = some deadline := by
  rcases hlate.phase with ⟨-, hdeadline⟩ | ⟨htrue, -⟩
  · exact hdeadline
  · rw [htaken] at htrue
    cases htrue

theorem Late.drains {log' : List Frame} (hlate : Late deadline start rest this) (hdrains : Drains base log log' this this') :
    Late deadline start rest this' := by
  obtain ⟨hphase, hreceived, hbound, hrest⟩ := hlate
  have hsame := hdrains.same
  refine ⟨?_, ?_, ?_, ?_⟩
  · rw [hsame]
    exact hphase
  · rw [hdrains.wrote.received, hsame]
    exact hreceived
  · rw [hdrains.wrote.received]
    exact hbound
  · rw [hsame]
    exact hrest

theorem Late.lost {log' : List Frame} (hlate : Late deadline start rest this) (hlost : Lost base log log' this this') :
    Late deadline start rest this' := by
  obtain ⟨hphase, hreceived, hbound, hrest⟩ := hlate
  have hsame := hlost.same
  refine ⟨.inr ⟨?_, .inl hlost.failure⟩, ?_, ?_, ?_⟩
  · rw [hsame]
    rfl
  · rw [hsame]
    exact nofun
  · rw [hlost.wrote.received]
    exact hbound
  · rw [hsame]
    exact hrest

theorem Late.cut (hlate : Late deadline start rest this) {stop : Poll.Stop io.Error} (hcut : Cut base log this this' stop) :
    Late deadline start rest this' := by
  cases hcut with
  | pending hdrains => exact hlate.drains hdrains
  | random hdrains _ => exact hlate.drains hdrains
  | lost hlost => exact hlate.lost hlost

/-- Draining while the session shuts down. -/
theorem shutting_drain (hsound : Sound base first acked got log queued this) (hlate : Late deadline start rest this)
    (htaken : this.taken = false) (hopen : this.write_closed = false) :
    Act.wp drain
      (fun _ this' => (∃ log' queued', Sound base first acked got log' queued' this') ∧ Late deadline start rest this' ∧
        this'.taken = false ∧ this'.write_closed = false ∧ this'.fin_queued = this.fin_queued ∧ this'.outgoing = [] ∧ this'.hearts = [])
      (fun stop this' => (stop ≠ .panicked ∧ Shutting base first acked deadline start rest this') ∧
        (stop = .pending → this'.taken = false)) this := by
  refine Act.wp_mono (wp_drain (hsound.owes htaken) htaken) ?_ ?_
  · rintro _ this' ⟨log', hdrains, houtgoing, hhearts⟩
    refine ⟨⟨log', hsound.drains htaken hopen hdrains⟩, hlate.drains hdrains, hdrains.taken.trans htaken, ?_, ?_, houtgoing, hhearts⟩
    · rw [hdrains.same]
      exact hopen
    · rw [hdrains.same]
  · intro stop this' hcut
    obtain ⟨hsane, log', queued', hsound'⟩ := hsound.cut htaken hopen hcut
    refine ⟨⟨hsane, hsound'.kept, hlate.cut hcut⟩, ?_⟩
    rintro rfl
    cases hcut with
    | pending hdrains => exact hdrains.taken.trans htaken

theorem shutting_queue_fin (hsound : Sound base first acked got log queued this) (hlate : Late deadline start rest this)
    (htaken : this.taken = false) (hopen : this.write_closed = false) (houtgoing : this.outgoing = []) (hhearts : this.hearts = []) :
    Act.wp queue_fin
      (fun _ this' => (∃ log' queued', Sound base first acked got log' queued' this') ∧ Late deadline start rest this' ∧
        this'.taken = false ∧ this'.write_closed = false ∧ this'.fin_queued = true)
      (fun stop this' => (stop ≠ .panicked ∧ Shutting base first acked deadline start rest this') ∧
        (stop = .pending → this'.taken = false)) this := by
  unfold queue_fin
  rw [Act.wp_bind, Act.wp_get]
  by_cases hfin : this.fin_queued = true
  · rw [if_pos hfin]
    exact ⟨⟨log, queued, hsound⟩, hlate, htaken, hopen, hfin⟩
  rw [if_neg hfin, Act.wp_bind, Act.wp_modify, Act.wp_bind, Act.wp_ready]
  have hnone : ∀ frame ∈ queued, frame.cmd ≠ 3 := by
    cases hsound.ending with
    | absent hnone _ => exact hnone
    | queued _ _ _ htrue => exact absurd htrue hfin
  have hclosing := hlate.closing htaken
  have howes := hsound.owes htaken
  have howes' : Owes base log { this with fin_queued := true } := ⟨howes.sent, howes.written, howes.nonempty⟩
  refine Act.wp_mono (wp_queue fin howes' houtgoing) ?_ ?_
  · rintro _ this' ⟨paddings, packets, draws, group, hpaddings, howes'', hsame⟩
    have hlate' : Late deadline start rest this' := by
      rw [hsame]
      exact ⟨hlate.phase, hlate.received, hlate.bound, hlate.rest⟩
    have hsound' := hsound.queue htaken hopen rfl (show (3 : UInt8) ≠ 9 by decide) hpaddings howes'' hsame
      (.queued rfl hnone (by rw [hsame]; exact hhearts) (by rw [hsame])) fun hnil => by rw [hclosing] at hnil; cases hnil
    have hdata : acked ++ data [fin] = acked := List.append_nil acked
    rw [hdata] at hsound'
    refine ⟨⟨_, _, hsound'⟩, hlate', ?_, ?_, ?_⟩
    · rw [hsame]
      exact htaken
    · rw [hsame]
      exact hopen
    · rw [hsame]
  · rintro stop this' ⟨rfl, draws, rfl⟩
    refine ⟨⟨nofun, (hsound.drawn hnone hopen).kept, ?_⟩, nofun⟩
    exact ⟨.inr ⟨rfl, .inl rfl⟩, nofun, hlate.bound, hlate.rest⟩

theorem Late.finish (hlate : Late deadline start rest this) {kind : ErrorKind} :
    Late deadline start rest (finished { this with failure := some kind }) :=
  ⟨.inr ⟨rfl, .inl rfl⟩, nofun, hlate.bound, hlate.rest⟩

/-- The session fails while it shuts down. -/
theorem shutting_failed {kind : ErrorKind} (hsound : Sound base first acked got log queued this)
    (hlate : Late deadline start rest this) :
    Shutting base first acked deadline start rest (finished { this with failure := some kind }) :=
  ⟨⟨got, log, queued, hsound.finish (List.prefix_refl _) rfl rfl rfl rfl hsound.peer hsound.undelivered⟩, hlate.finish⟩

/-- The writing side of the transport is closed. -/
theorem Sound.closes (hsound : Sound base first acked got log queued this) (htaken : this.taken = false)
    (hdeadline : this.close_deadline = some deadline) (houtgoing : this.outgoing = []) (hfin : this.fin_queued = true)
    {inner : Wire io.Error} (hsent : inner.sent = this.inner.sent) (hanswers : inner.answers = this.inner.answers)
    (hreceived : inner.received = this.inner.received) (hshut : inner.shut = true) :
    Sound base first acked got log queued { this with inner, write_closed := true } := by
  obtain ⟨hall, hwritten, hnonempty⟩ := hsound.owes htaken
  refine ⟨hsound.books, hsound.bytes, hsound.hearts, ?_, ?_, ?_, ?_, hsound.sane, ?_, hsound.undelivered, ?_, ?_, hsound.drained⟩
  · change _ <+: inner.received
    rw [hreceived]
    exact hsound.came
  · change base <+: inner.sent ∧ inner.sent <+: _
    rw [hsent]
    exact hsound.sent
  · cases hsound.ending with
    | absent hnone hfalse => exact .absent hnone hfalse
    | queued hqueued hnone hhearts _ => exact .queued hqueued hnone hhearts hfin
  · refine fun _ => ⟨?_, hwritten, hnonempty⟩
    change inner.sent ++ _ = _
    rw [hsent]
    exact hall
  · intro _ hnil
    rw [show this.close_deadline = some deadline from hdeadline] at hnil
    cases hnil
  · intro _
    rw [houtgoing, List.flatten_nil, List.drop_nil, List.append_nil] at hall
    refine ⟨hsent.trans hall, hshut, ?_⟩
    cases hsound.ending with
    | absent _ hfalse =>
      rw [hfalse htaken] at hfin
      cases hfin
    | queued hqueued _ _ _ =>
      rw [hqueued]
      exact List.mem_append_right _ List.mem_cons_self
  · intro hpeer
    have hended := hsound.peer hpeer
    rw [PeerEnded] at hended ⊢
    change _ ∈ inner.answers ∨ ∃ error : io.Error, _ ∧ _ ∈ inner.answers
    rwa [hanswers]

theorem shutting_shutdown_write (hsound : Sound base first acked got log queued this) (hlate : Late deadline start rest this)
    (htaken : this.taken = false) (hopen : this.write_closed = false) :
    Act.wp shutdown_write
      (fun _ this' => Shutting base first acked deadline start rest this' ∧ this'.taken = false)
      (fun stop this' => (stop ≠ .panicked ∧ Shutting base first acked deadline start rest this') ∧
        (stop = .pending → this'.taken = false)) this := by
  unfold shutdown_write
  rw [Act.wp_bind]
  refine Act.wp_mono (shutting_drain hsound hlate htaken hopen) ?_ fun _ _ h => h
  rintro _ drained ⟨⟨log₁, queued₁, hsound₁⟩, hlate₁, htaken₁, hopen₁, -, houtgoing₁, hhearts₁⟩
  rw [Act.wp_bind]
  refine Act.wp_mono (shutting_queue_fin hsound₁ hlate₁ htaken₁ hopen₁ houtgoing₁ hhearts₁) ?_ fun _ _ h => h
  rintro _ queued ⟨⟨log₂, queued₂, hsound₂⟩, hlate₂, htaken₂, hopen₂, hfin₂⟩
  rw [Act.wp_bind]
  refine Act.wp_mono (shutting_drain hsound₂ hlate₂ htaken₂ hopen₂) ?_ fun _ _ h => h
  rintro _ this' ⟨⟨log', queued', hsound'⟩, hlate', htaken', hopen', hfin', houtgoing', -⟩
  rw [Act.wp_bind, wp_unwrap htaken', Act.wp_bind, Act.wp_ready, wp_onInner]
  have howes := hsound'.owes htaken'
  have hclosing := hlate'.closing htaken'
  refine Wire.wp_poll_shutdown ?_ ?_ ?_
  · intro inner hsent _ hanswers hreceived hshut
    refine ⟨⟨(hsound'.closes htaken' hclosing houtgoing' (hfin'.trans hfin₂) hsent hanswers hreceived hshut).kept, ?_⟩, htaken'⟩
    refine ⟨.inl ⟨htaken', hclosing⟩, ?_, ?_, hlate'.rest⟩
    · change _ → (inner.received.length : Int) = _
      rw [hreceived]
      exact hlate'.received
    · change (inner.received.length : Int) ≤ _
      rw [hreceived]
      exact hlate'.bound
  · intro inner hsends
    have hdrains := drains_of_sends howes hsends
    obtain ⟨queued'', hsound''⟩ := hsound'.drains htaken' hopen' hdrains
    exact ⟨⟨nofun, hsound''.kept, hlate'.drains hdrains⟩, fun _ => htaken'⟩
  · intro error inner hsends
    have hdrains := drains_of_sends howes hsends
    obtain ⟨queued'', hsound''⟩ := hsound'.drains htaken' hopen' hdrains
    exact ⟨⟨nofun, shutting_failed hsound'' (hlate'.drains hdrains)⟩, nofun⟩

theorem shutting_close_write (hsound : Sound base first acked got log queued this) (hlate : Late deadline start rest this)
    (htaken : this.taken = false) :
    Act.wp close_write
      (fun _ this' => Shutting base first acked deadline start rest this' ∧ this'.taken = false)
      (fun stop this' => stop ≠ .panicked ∧ stop ≠ .pending ∧ Shutting base first acked deadline start rest this') this := by
  unfold close_write
  rw [Act.wp_bind, Act.wp_get]
  by_cases hclosed : this.write_closed = true
  · rw [if_pos hclosed]
    exact ⟨⟨hsound.kept, hlate⟩, htaken⟩
  rw [if_neg hclosed, Act.wp_bind, Act.wp_attempt]
  refine Act.wp_mono (shutting_shutdown_write hsound hlate htaken (Bool.eq_false_iff.2 hclosed)) (fun _ _ h => h) ?_
  rintro stop this' ⟨⟨hsane, hshutting⟩, hpending⟩
  cases stop with
  | pending => exact ⟨hshutting, hpending rfl⟩
  | failed error => exact ⟨nofun, nofun, hshutting⟩
  | panicked => exact absurd rfl hsane

/-- The session has read something of what the peer still sends. -/
theorem Sound.discards (hsound : Sound base first acked got log queued this) (htaken : this.taken = false)
    (hdeadline : this.close_deadline = some deadline) {inner : Wire io.Error} {bytes : List UInt8} {close_drained : Nat}
    {peer_closed : Bool} (hreads : Wire.Reads this.inner inner bytes) (hpeer : peer_closed = true → PeerEnded inner)
    (hdrained : close_drained ≤ MAX_CLOSE_DRAIN) :
    Sound base first acked got log queued { this with inner, close_drained, peer_closed } := by
  obtain ⟨hall, hwritten, hnonempty⟩ := hsound.owes htaken
  have hnil : this.close_deadline = none → Incoming got { this with inner, close_drained, peer_closed } ∧
      Running { this with inner, close_drained, peer_closed } := by
    intro hnil
    rw [hdeadline] at hnil
    cases hnil
  refine ⟨hsound.books, hsound.bytes, hsound.hearts, ?_, ?_, ?_, ?_, hsound.sane, fun _ => hnil, hsound.undelivered, ?_, hpeer,
    fun _ => hdrained⟩
  · exact hsound.came.trans ⟨bytes, hreads.received.symm⟩
  · change base <+: inner.sent ∧ inner.sent <+: _
    rw [hreads.sent]
    exact hsound.sent
  · cases hsound.ending with
    | absent hnone hfin => exact .absent hnone hfin
    | queued hqueued hnone hhearts hfin => exact .queued hqueued hnone hhearts hfin
  · refine fun _ => ⟨?_, hwritten, hnonempty⟩
    change inner.sent ++ _ = _
    rw [hreads.sent]
    exact hall
  · intro hclosed
    change inner.sent = _ ∧ inner.shut = true ∧ _
    rw [hreads.sent, hreads.shut]
    exact hsound.closed hclosed

theorem Late.discards (hlate : Late deadline start rest this) (htaken : this.taken = false) {inner : Wire io.Error}
    {bytes : List UInt8} {close_drained : Nat} {peer_closed : Bool} (hreads : Wire.Reads this.inner inner bytes)
    (hdrained : close_drained = this.close_drained + bytes.length) (hbound : close_drained ≤ MAX_CLOSE_DRAIN + 1) :
    Late deadline start rest { this with inner, close_drained, peer_closed } := by
  have hreceived := hlate.received htaken
  have hlength : (inner.received.length : Int) = start + close_drained := by
    rw [hreads.received, List.length_append, hdrained]
    omega
  refine ⟨.inl ⟨htaken, hlate.closing htaken⟩, fun _ => hlength, ?_, hlate.rest⟩
  change (inner.received.length : Int) ≤ _
  omega

theorem shutting_discard_round (hshutting : Shutting base first acked deadline start rest this) (htaken : this.taken = false) :
    Act.wp discard_round
      (fun _ this' => Shutting base first acked deadline start rest this' ∧ this'.taken = false)
      (fun stop this' => stop ≠ .panicked ∧ Shutting base first acked deadline start rest this') this := by
  obtain ⟨⟨got, log, queued, hsound⟩, hlate⟩ := hshutting
  have hclosing := hlate.closing htaken
  have hdrained := hsound.drained htaken
  unfold discard_round
  rw [Act.wp_bind, Act.wp_get]
  by_cases hpeer : this.peer_closed = true
  · rw [if_pos hpeer]
    exact ⟨⟨hsound.kept, hlate⟩, htaken⟩
  rw [if_neg hpeer, Act.wp_bind, Act.wp_assert (decide_eq_true hdrained), Act.wp_bind, wp_unwrap htaken, Act.wp_bind, Act.wp_ready,
    wp_onInner]
  have hnot : this.peer_closed = true → ∀ inner, PeerEnded inner := fun htrue => absurd htrue hpeer
  have hclosed : ∀ inner, Wire.Reads this.inner inner [] → PeerEnded inner →
      Shutting base first acked deadline start rest { this with inner, peer_closed := true } := fun inner hreads hended =>
    ⟨(hsound.discards htaken hclosing hreads (fun _ => hended) hdrained).kept,
      hlate.discards htaken hreads rfl (hdrained.trans (Nat.le_succ _))⟩
  refine wp_read (by omega) ?_ ?_ ?_ ?_
  · intro bytes inner hne hle hreads _ _
    have hlength : this.close_drained + bytes.length ≤ MAX_CLOSE_DRAIN + 1 := by omega
    dsimp only
    rw [if_neg (by rwa [List.isEmpty_iff]), Act.wp_bind, Act.wp_modify, Act.wp_bind, Act.wp_get]
    dsimp only
    by_cases hover : this.close_drained + bytes.length > MAX_CLOSE_DRAIN
    · rw [if_pos hover]
      refine wp_fail.2 ⟨nofun, ?_, ?_⟩
      · exact ⟨got, log, queued, hsound.finish ⟨bytes, hreads.received.symm⟩ hreads.sent hreads.shut rfl rfl
          (fun htrue => hnot htrue inner) hsound.undelivered⟩
      · exact (hlate.discards htaken hreads rfl hlength).finish
    · rw [if_neg hover]
      exact ⟨⟨(hsound.discards htaken hclosing hreads (fun htrue => hnot htrue inner) (Nat.le_of_not_lt hover)).kept,
        hlate.discards htaken hreads rfl hlength⟩, htaken⟩
  · intro inner hreads _ hanswers
    refine ⟨hclosed inner hreads (.inl ?_), htaken⟩
    rw [hanswers]
    exact List.mem_append_right _ List.mem_cons_self
  · intro inner hreads _ _
    exact ⟨nofun, (hsound.discards htaken hclosing hreads (fun htrue => hnot htrue inner) hdrained).kept,
      hlate.discards htaken hreads rfl (hdrained.trans (Nat.le_succ _))⟩
  · intro error inner hreads _ hanswers
    dsimp only
    by_cases heof : error.kind = .UnexpectedEof
    · rw [if_pos heof]
      refine ⟨hclosed inner hreads (.inr ⟨error, heof, ?_⟩), htaken⟩
      rw [hanswers]
      exact List.mem_append_right _ List.mem_cons_self
    · rw [if_neg heof]
      exact ⟨nofun, shutting_failed (hsound.discards htaken hclosing hreads (fun htrue => hnot htrue inner) hdrained)
        (hlate.discards htaken hreads rfl (hdrained.trans (Nat.le_succ _)))⟩

/-- The session when it starts to shut down, or goes on with it. -/
def entered (now : Nat) (this : AnyTls) : AnyTls :=
  { this with close_deadline := some (this.close_deadline.getD (now + CLOSE_TIMEOUT)) }

theorem Sound.entered {now : Nat} (hsound : Sound base first acked got log queued this) :
    Sound base first acked got log queued (this.entered now) := by
  refine ⟨hsound.books, hsound.bytes, hsound.hearts, hsound.came, hsound.sent, ?_, ?_, hsound.sane, nofun, hsound.undelivered,
    hsound.closed, hsound.peer, hsound.drained⟩
  · cases hsound.ending with
    | absent hnone hfin => exact .absent hnone hfin
    | queued hqueued hnone hhearts hfin => exact .queued hqueued hnone hhearts hfin
  · intro htaken
    obtain ⟨hsent, hwritten, hnonempty⟩ := hsound.owes htaken
    exact ⟨hsent, hwritten, hnonempty⟩

/-- Once it has started to shut down, a session goes on with it. -/
theorem Sound.late {now : Nat} (hsound : Sound base first acked got log queued this) (htaken : this.taken = false) :
    Late (this.close_deadline.getD (now + CLOSE_TIMEOUT)) (this.inner.received.length - this.close_drained) this.tail
      (this.entered now) := by
  have hdrained := hsound.drained htaken
  refine ⟨.inl ⟨htaken, rfl⟩, fun _ => ?_, ?_, rfl⟩
  · change (this.inner.received.length : Int) = _ + (this.close_drained : Int)
    omega
  · change (this.inner.received.length : Int) ≤ _
    omega

/-- Whether both sides are closed by now. -/
theorem shutting_last (hshutting : Shutting base first acked deadline start rest this) (htaken : this.taken = false) :
    Act.wp (do
        let this ← Act.get
        if this.peer_closed && this.write_closed then finish else Act.stop .pending)
      (fun _ this' => Shutting base first acked deadline start rest this' ∧ this'.taken = true ∧ this'.failure = none)
      (fun stop this' => stop ≠ .panicked ∧ Shutting base first acked deadline start rest this') this := by
  obtain ⟨⟨got, log, queued, hsound⟩, hlate⟩ := hshutting
  rw [Act.wp_bind, Act.wp_get]
  by_cases hboth : (this.peer_closed && this.write_closed) = true
  · rw [if_pos hboth]
    rw [Bool.and_eq_true] at hboth
    refine ⟨⟨⟨got, log, queued, ?_⟩, ?_⟩, rfl, hsound.sane htaken⟩
    · exact hsound.finish (List.prefix_refl _) rfl rfl rfl rfl hsound.peer hsound.undelivered
    · exact ⟨.inr ⟨rfl, .inr ⟨hboth.2, hboth.1⟩⟩, nofun, hlate.bound, hlate.rest⟩
  · rw [if_neg hboth]
    exact ⟨nofun, hsound.kept, hlate⟩

theorem shutting_poll_shutdown {now : Nat} (hsound : Sound base first acked got log queued this) (htaken : this.taken = false)
    (hlate : Late deadline start rest (this.entered now)) :
    Act.wp (poll_shutdown now)
      (fun _ this' => Shutting base first acked deadline start rest this' ∧ this'.taken = true ∧ this'.failure = none)
      (fun stop this' => (stop ≠ .panicked ∧ Shutting base first acked deadline start rest this') ∧
        (deadline ≤ now → stop ≠ .pending)) this := by
  have hdeadline : this.close_deadline.getD (now + CLOSE_TIMEOUT) = deadline := Option.some.inj (hlate.closing htaken)
  unfold poll_shutdown
  rw [Act.wp_bind]
  refine wp_check_error (fun _ => ?_) fun error hfailed => absurd (hsound.sane htaken) hfailed
  rw [Act.wp_bind, Act.wp_get, if_neg (by rw [htaken]; exact Bool.false_ne_true), Act.wp_bind, Act.wp_modify]
  change Act.wp _ _ _ (this.entered now)
  rw [hdeadline]
  by_cases htime : deadline ≤ now
  · rw [if_pos htime]
    exact ⟨⟨nofun, shutting_failed hsound.entered hlate⟩, nofun⟩
  rw [if_neg htime, Act.wp_bind]
  have hearly : ∀ {stop : Poll.Stop io.Error} {p : Prop}, p → p ∧ (deadline ≤ now → stop ≠ .pending) :=
    fun hp => ⟨hp, fun hle => absurd hle htime⟩
  refine Act.wp_mono (shutting_close_write hsound.entered hlate htaken) ?_ ?_
  · rintro _ this' ⟨hshutting, htaken'⟩
    rw [Act.wp_bind]
    refine Act.wp_times
      (I := fun this' => Shutting base first acked deadline start rest this' ∧ this'.taken = false) ?_ ?_ ⟨hshutting, htaken'⟩
    · rintro this' ⟨hshutting, htaken'⟩
      refine Act.wp_mono (shutting_discard_round hshutting htaken') ?_ fun _ _ h => hearly h
      rintro (_ | _) this'' ⟨hshutting', htaken''⟩
      · exact ⟨hshutting', htaken''⟩
      · exact Act.wp_mono (shutting_last hshutting' htaken'') (fun _ _ h => h) fun _ _ h => hearly h
    · rintro this' ⟨hshutting, htaken'⟩
      exact Act.wp_mono (shutting_last hshutting htaken') (fun _ _ h => h) fun _ _ h => hearly h
  · rintro stop this' ⟨hsane, -, hshutting⟩
    exact hearly ⟨hsane, hshutting⟩

theorem keeps_poll_shutdown {now : Nat} (hkept : Kept base first acked this) : Keeps base first acked nothing (poll_shutdown now) this := by
  obtain ⟨got, log, queued, hsound⟩ := hkept
  unfold Keeps
  by_cases htaken : this.taken = true
  · unfold poll_shutdown
    rw [Act.wp_bind]
    refine wp_check_error (fun _ => ?_) fun _ _ => ⟨nofun, hsound.kept⟩
    rw [Act.wp_bind, Act.wp_get, if_pos htaken]
    exact hsound.kept.nothing_more
  · rw [Bool.not_eq_true] at htaken
    refine Act.wp_mono (shutting_poll_shutdown hsound htaken (hsound.late htaken)) ?_ ?_
    · rintro _ this' ⟨⟨hkept', -⟩, -⟩
      exact hkept'.nothing_more
    · rintro stop this' ⟨⟨hsane, hkept', -⟩, -⟩
      exact ⟨hsane, hkept'⟩

end Steps

end AnyTls

end zc.anytls
