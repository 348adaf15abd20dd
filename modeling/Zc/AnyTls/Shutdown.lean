import Zc.AnyTls.Runs

/-!
# Runs after a shutdown has started

Once a shutdown has started, no call takes more bytes, reads hand out what is left of the last frame of
data, and shutting down ends by its deadline.
-/

namespace zc.anytls

open Poll (Act)

namespace AnyTls

section Calls

variable {md5 : List UInt8 → Vector UInt8 16} {base : List UInt8} {first : List Frame} {acked : List UInt8} {this this' : AnyTls}
  {deadline : Nat} {start : Int} {rest : List UInt8}

/-- What a call says about the session it leaves. -/
def Tells (deadline : Nat) (this : AnyTls) : Call → Except (Poll.Stop io.Error) (List UInt8) → Prop
  | .write _, result => ∃ error, result = .error (.failed error)
  | .flush, _ => True
  | .read remaining, result => result = .ok [] → 0 < remaining → this.taken = true ∧ this.failure = none
  | .shutdown now, result => (∀ bytes, result = .ok bytes → this.write_closed = true ∧ this.peer_closed = true) ∧
    (deadline ≤ now → result ≠ .error .pending)

/-- What every call does once a shutdown has started. -/
structure Performs (base : List UInt8) (first : List Frame) (acked : List UInt8) (deadline : Nat) (start : Int) (rest : List UInt8)
    (call : Call) (result : Except (Poll.Stop io.Error) (List UInt8)) (this : AnyTls) : Prop where
  shutting : ∃ rest', rest = given_by (call, result) ++ rest' ∧ Shutting base first acked deadline start rest' this
  tells : Tells deadline this call result
  sane : result ≠ .error .panicked

/-- A call that does nothing but fail. -/
theorem performs_of_failed {call : Call} {error : io.Error} (hshutting : Shutting base first acked deadline start rest this) :
    Performs base first acked deadline start rest call (.error (.failed error)) this := by
  refine ⟨⟨rest, ?_, hshutting⟩, ?_, nofun⟩
  · cases call with
    | write | flush | read | shutdown => rfl
  · cases call with
    | write => exact ⟨error, rfl⟩
    | flush => trivial
    | read => exact nofun
    | shutdown => exact ⟨nofun, fun _ => nofun⟩

/-- Calls of a session that has failed. -/
theorem wp_check_error_late {call : Call} {post : Unit → AnyTls → Prop} (hshutting : Shutting base first acked deadline start rest this)
    (hpost : this.failure = none → post () this) :
    Act.wp check_error post (fun stop this' => Performs base first acked deadline start rest call (.error stop) this') this :=
  wp_check_error hpost fun _ _ => performs_of_failed hshutting

theorem performs_write {bytes : List UInt8} (hshutting : Shutting base first acked deadline start rest this) :
    Act.wp (Call.perform md5 (.write bytes)) (fun value this' => Performs base first acked deadline start rest (.write bytes) (.ok value) this')
      (fun stop this' => Performs base first acked deadline start rest (.write bytes) (.error stop) this') this := by
  rw [Call.perform, poll_write, Act.bind_assoc, Act.wp_bind]
  refine wp_check_error_late hshutting fun _ => ?_
  have hshut : (this.close_deadline.isSome || this.taken) = true := by
    rcases hshutting.2.phase with ⟨-, hdeadline⟩ | ⟨htaken, -⟩
    · rw [hdeadline]
      rfl
    · rw [htaken, Bool.or_true]
  rw [Act.bind_assoc, Act.wp_bind, Act.wp_get, if_pos hshut]
  exact performs_of_failed hshutting

theorem performs_flush (hshutting : Shutting base first acked deadline start rest this) :
    Act.wp (Call.perform md5 .flush) (fun value this' => Performs base first acked deadline start rest .flush (.ok value) this')
      (fun stop this' => Performs base first acked deadline start rest .flush (.error stop) this') this := by
  have hperforms : ∀ {result : Except (Poll.Stop io.Error) (List UInt8)} {this' : AnyTls}, result ≠ .error .panicked →
      Shutting base first acked deadline start rest this' → Performs base first acked deadline start rest .flush result this' :=
    fun hsane hshutting' => ⟨⟨rest, rfl, hshutting'⟩, trivial, hsane⟩
  rw [Call.perform, poll_flush, Act.bind_assoc, Act.wp_bind]
  refine wp_check_error_late hshutting fun _ => ?_
  rw [Act.bind_assoc, Act.wp_bind, Act.wp_get, Act.wp_bind]
  by_cases htaken : this.taken = true
  · rw [if_pos htaken]
    exact hperforms (by rintro ⟨⟩) hshutting
  rw [if_neg htaken]
  by_cases hclosed : this.write_closed = true
  · rw [if_pos hclosed]
    exact hperforms (by rintro ⟨⟩) hshutting
  rw [if_neg hclosed]
  obtain ⟨⟨got, log, queued, hsound⟩, hlate⟩ := hshutting
  refine Act.wp_mono (shutting_drain hsound hlate (Bool.eq_false_iff.2 htaken) (Bool.eq_false_iff.2 hclosed)) ?_ ?_
  · rintro _ this' ⟨⟨log', queued', hsound'⟩, hlate', -⟩
    exact hperforms (by rintro ⟨⟩) ⟨hsound'.kept, hlate'⟩
  · rintro stop this' ⟨⟨hsane, hshutting'⟩, -⟩
    exact hperforms (fun heq => hsane (Except.error.inj heq)) hshutting'

theorem performs_receive_round {remaining : Nat} (hpos : 0 < remaining) (hshutting : Shutting base first acked deadline start rest this)
    (hfailure : this.failure = none) :
    Act.wp (receive_round md5 remaining)
      (fun value this' => ∃ bytes, value = some bytes ∧ Performs base first acked deadline start rest (.read remaining) (.ok bytes) this')
      (fun stop this' => Performs base first acked deadline start rest (.read remaining) (.error stop) this') this := by
  obtain ⟨got, log, queued, hsound⟩ := hshutting.1
  have hlate := hshutting.2
  unfold receive_round
  rw [Act.wp_bind, Act.wp_get]
  by_cases hready : this.data_ready = true
  · obtain ⟨hlt, -⟩ := hsound.undelivered hready
    rw [if_pos hready, Act.wp_bind]
    refine Act.wp_mono (Act.wp_and (keeps_deliver hsound hready) (wp_deliver_tail hready (Nat.le_of_lt hlt))) ?_ fun _ _ h => h.2.elim
    rintro bytes this' ⟨hkept, ⟨delivered, data_ready, rfl, -⟩, htail, hlength⟩
    refine ⟨bytes, rfl, ⟨_, hlate.rest.symm.trans htail, hkept, hlate.phase, hlate.received, hlate.bound, rfl⟩, ?_, by rintro ⟨⟩⟩
    intro hnil _
    obtain rfl := Except.ok.inj hnil
    have hsome : this.tail.length = this.body.length - this.delivered := by
      rw [tail, if_pos hready, List.length_drop]
    rw [List.length_nil] at hlength
    omega
  rw [if_neg hready]
  by_cases htaken : this.taken = true
  · rw [if_pos htaken]
    exact ⟨[], rfl, ⟨rest, rfl, hshutting⟩, fun _ _ => ⟨htaken, hfailure⟩, by rintro ⟨⟩⟩
  rw [if_neg htaken, hlate.closing (Bool.eq_false_iff.2 htaken)]
  exact ⟨⟨rest, rfl, hshutting⟩, by rintro ⟨⟩, by rintro ⟨⟩⟩

theorem performs_read {remaining : Nat} (hshutting : Shutting base first acked deadline start rest this) :
    Act.wp (Call.perform md5 (.read remaining))
      (fun value this' => Performs base first acked deadline start rest (.read remaining) (.ok value) this')
      (fun stop this' => Performs base first acked deadline start rest (.read remaining) (.error stop) this') this := by
  rw [Call.perform, poll_read]
  by_cases hremaining : remaining = 0
  · rw [if_pos hremaining]
    exact ⟨⟨rest, rfl, hshutting⟩, fun _ hpos => absurd hremaining (Nat.ne_of_gt hpos), by rintro ⟨⟩⟩
  rw [if_neg hremaining, receive, Act.wp_bind]
  refine wp_check_error_late hshutting fun hfailure => ?_
  rw [Act.wp_bind]
  refine Act.wp_times (I := fun this' => this' = this) ?_ ?_ rfl
  · rintro this' rfl
    refine Act.wp_mono (performs_receive_round (Nat.pos_of_ne_zero hremaining) hshutting hfailure) ?_ fun _ _ h => h
    rintro value this'' ⟨bytes, rfl, hperforms⟩
    exact hperforms
  · rintro this' rfl
    exact ⟨⟨rest, rfl, hshutting⟩, by rintro ⟨⟩, by rintro ⟨⟩⟩

theorem Late.entered {now : Nat} (hlate : Late deadline start rest this) (htaken : this.taken = false) :
    Late deadline start rest (this.entered now) := by
  have hdeadline := hlate.closing htaken
  refine ⟨.inl ⟨htaken, ?_⟩, hlate.received, hlate.bound, hlate.rest⟩
  change some (this.close_deadline.getD _) = _
  rw [hdeadline]
  rfl

/-- A shutdown that starts, or goes on. -/
theorem performs_shutdown_of_live {now : Nat} {got log queued : List Frame} (hsound : Sound base first acked got log queued this)
    (htaken : this.taken = false) (hlate : Late deadline start rest (this.entered now)) :
    Act.wp (Call.perform md5 (.shutdown now))
      (fun value this' => Performs base first acked deadline start rest (.shutdown now) (.ok value) this')
      (fun stop this' => Performs base first acked deadline start rest (.shutdown now) (.error stop) this') this := by
  rw [Call.perform, Act.wp_bind]
  refine Act.wp_mono (shutting_poll_shutdown hsound htaken hlate) ?_ ?_
  · rintro _ this' ⟨hshutting, htaken', hfailure⟩
    refine ⟨⟨rest, rfl, hshutting⟩, ⟨fun _ _ => ?_, by rintro _ ⟨⟩⟩, by rintro ⟨⟩⟩
    rcases hshutting.2.phase with ⟨hfalse, -⟩ | ⟨-, hfailed | hboth⟩
    · rw [htaken'] at hfalse
      cases hfalse
    · rw [hfailure] at hfailed
      cases hfailed
    · exact hboth
  · rintro stop this' ⟨⟨hsane, hshutting⟩, htime⟩
    exact ⟨⟨rest, rfl, hshutting⟩, ⟨by rintro _ ⟨⟩, fun hle heq => htime hle (Except.error.inj heq)⟩, fun heq => hsane (Except.error.inj heq)⟩

theorem performs_shutdown {now : Nat} (hshutting : Shutting base first acked deadline start rest this) :
    Act.wp (Call.perform md5 (.shutdown now))
      (fun value this' => Performs base first acked deadline start rest (.shutdown now) (.ok value) this')
      (fun stop this' => Performs base first acked deadline start rest (.shutdown now) (.error stop) this') this := by
  obtain ⟨got, log, queued, hsound⟩ := hshutting.1
  have hlate := hshutting.2
  by_cases htaken : this.taken = true
  · rw [Call.perform, poll_shutdown, Act.bind_assoc, Act.wp_bind]
    refine wp_check_error_late hshutting fun hfailure => ?_
    rw [Act.bind_assoc, Act.wp_bind, Act.wp_get, if_pos htaken]
    refine ⟨⟨rest, rfl, hshutting⟩, ⟨fun _ _ => ?_, by rintro _ ⟨⟩⟩, by rintro ⟨⟩⟩
    rcases hlate.phase with ⟨hfalse, -⟩ | ⟨-, hfailed | hboth⟩
    · rw [htaken] at hfalse
      cases hfalse
    · rw [hfailure] at hfailed
      cases hfailed
    · exact hboth
  · rw [Bool.not_eq_true] at htaken
    exact performs_shutdown_of_live hsound htaken (hlate.entered htaken)

theorem Shutting.perform (hshutting : Shutting base first acked deadline start rest this) (call : Call) :
    Act.wp (call.perform md5) (fun value this' => Performs base first acked deadline start rest call (.ok value) this')
      (fun stop this' => Performs base first acked deadline start rest call (.error stop) this') this := by
  cases call with
  | write bytes => exact performs_write hshutting
  | flush => exact performs_flush hshutting
  | read remaining => exact performs_read hshutting
  | shutdown now => exact performs_shutdown hshutting

theorem performs_of_wp {call : Call} {result : Except (Poll.Stop io.Error) (List UInt8)}
    (hwp : Act.wp (call.perform md5) (fun value this' => Performs base first acked deadline start rest call (.ok value) this')
      (fun stop this' => Performs base first acked deadline start rest call (.error stop) this') this)
    (hperform : call.perform md5 this = (result, this')) : Performs base first acked deadline start rest call result this' := by
  cases result with
  | ok value => exact Act.wp_ok hwp hperform
  | error stop => exact Act.wp_error hwp hperform

/-- What any calls lead to once a shutdown has started. -/
structure Ran (base : List UInt8) (first : List Frame) (acked : List UInt8) (deadline : Nat) (start : Int) (rest : List UInt8)
    (history : History) (last : AnyTls) : Prop where
  shutting : ∃ rest', rest = delivered_bytes history ++ rest' ∧ Shutting base first acked deadline start rest' last
  writes : ∀ bytes result, (.write bytes, result) ∈ history → ∃ error, result = .error (.failed error)
  tells : ∀ call result, history.getLast? = some (call, result) → Tells deadline last call result
  sane : ∀ entry ∈ history, entry.2 ≠ .error .panicked

/-- A call and the calls after it. -/
theorem ran_cons {call : Call} {result : Except (Poll.Stop io.Error) (List UInt8)} {calls : List Call}
    (hperforms : Performs base first acked deadline start rest call result this)
    (hran : ∀ rest', Shutting base first acked deadline start rest' this →
      Ran base first acked deadline start rest' (call_all md5 calls this).1 (call_all md5 calls this).2) :
    Ran base first acked deadline start rest ((call, result) :: (call_all md5 calls this).1) (call_all md5 calls this).2 := by
  obtain ⟨⟨rest', hrest, hshutting⟩, htells, hsane⟩ := hperforms
  obtain ⟨⟨rest'', hrest', hshutting'⟩, hwrites, htells', hsane'⟩ := hran rest' hshutting
  refine ⟨⟨rest'', ?_, hshutting'⟩, ?_, ?_, ?_⟩
  · rw [delivered_bytes_cons, List.append_assoc, ← hrest', hrest]
  · intro bytes result' hmem
    rcases List.mem_cons.1 hmem with heq | hmem
    · obtain ⟨rfl, rfl⟩ := Prod.mk.inj heq
      exact htells
    · exact hwrites bytes result' hmem
  · intro call' result' hlast
    cases calls with
    | nil =>
      obtain ⟨rfl, rfl⟩ := Prod.mk.inj (Option.some.inj hlast)
      exact htells
    | cons next calls =>
      refine htells' call' result' ?_
      rwa [call_all, List.getLast?_cons_cons] at hlast
  · intro entry hentry
    rcases List.mem_cons.1 hentry with rfl | hentry
    · exact hsane
    · exact hsane' entry hentry

theorem Shutting.call_all (hshutting : Shutting base first acked deadline start rest this) (calls : List Call) :
    Ran base first acked deadline start rest (call_all md5 calls this).1 (call_all md5 calls this).2 := by
  induction calls generalizing rest this with
  | nil => exact ⟨⟨rest, rfl, hshutting⟩, nofun, nofun, nofun⟩
  | cons call calls ih =>
    cases hperform : call.perform md5 this with
    | mk result next =>
      rw [call_all_cons calls hperform]
      exact ran_cons (performs_of_wp (hshutting.perform call) hperform) fun rest' hshutting' => ih hshutting'

/-- From the first call that shuts a session down. -/
theorem ran_of_shutdown {now : Nat} (hkept : Kept base first acked this) (hlive : this.taken = true → this.failure.isSome = true)
    (calls : List Call) :
    ∃ start : Int, start ≤ this.inner.received.length ∧
      Ran base first acked (this.close_deadline.getD (now + CLOSE_TIMEOUT)) start this.tail
        (AnyTls.call_all md5 (.shutdown now :: calls) this).1 (AnyTls.call_all md5 (.shutdown now :: calls) this).2 := by
  by_cases htaken : this.taken = true
  · refine ⟨this.inner.received.length, Int.le_refl _, Shutting.call_all ⟨hkept, .inr ⟨htaken, .inl (hlive htaken)⟩, ?_, ?_, rfl⟩ _⟩
    · intro hfalse
      rw [htaken] at hfalse
      cases hfalse
    · omega
  · rw [Bool.not_eq_true] at htaken
    obtain ⟨got, log, queued, hsound⟩ := hkept
    refine ⟨this.inner.received.length - this.close_drained, by omega, ?_⟩
    cases hperform : (Call.shutdown now).perform md5 this with
    | mk result next =>
      rw [call_all_cons calls hperform]
      exact ran_cons (performs_of_wp (performs_shutdown_of_live hsound htaken (hsound.late htaken)) hperform)
        fun rest' hshutting => hshutting.call_all calls

end Calls

end AnyTls

open AnyTls in
/-- Once a session that has not ended through a FIN of the peer is shut down, whatever calls are made and
    whatever the transport and the peer do: no call panics, no write takes a byte, reads hand out only what
    was left of the last frame of data, and a read tells the end only of a session that is finished; the peer's
    bytes that are dropped are at most one MiB and one byte; a shutdown is done only when the transport has taken
    every acknowledged byte and a FIN, its writing side is closed and it has told the end of the peer's bytes;
    and after the deadline, five seconds after the first of them, no shutdown has to wait. -/
theorem shutdown_bounded {md5 : List UInt8 → Vector UInt8 16} {raw address : List UInt8} {padding : Padding}
    {digest : Vector UInt8 32} {polls : Nat} {wire : Wire io.Error} {draws : List (Option UInt32)} {this : AnyTls}
    {left : Wire io.Error × List (Option UInt32)} (hparse : Padding.parse md5 raw = .ok padding) (haddress : address.length < 65536)
    (hreceived : wire.received = []) (hopen : AnyTls.open digest address padding polls (wire, draws) = (.ok this, left))
    {before : List Call} {history : History} {session : AnyTls} (hbefore : call_all md5 before this = (history, session))
    (hlive : session.taken = true → session.failure.isSome = true) (now : Nat) (after : List Call) :
    (∀ entry ∈ (call_all md5 (.shutdown now :: after) session).1, entry.2 ≠ .error .panicked) ∧
    (∀ bytes result, (.write bytes, result) ∈ (call_all md5 (.shutdown now :: after) session).1 →
      ∃ error, result = .error (.failed error)) ∧
    delivered_bytes (call_all md5 (.shutdown now :: after) session).1 <+: session.tail ∧
    (∀ remaining, (call_all md5 (.shutdown now :: after) session).1.getLast? = some (.read remaining, .ok []) → 0 < remaining →
      (call_all md5 (.shutdown now :: after) session).2.taken = true ∧
        (call_all md5 (.shutdown now :: after) session).2.failure = none) ∧
    (call_all md5 (.shutdown now :: after) session).2.inner.received.length ≤
      session.inner.received.length + (1024 * 1024 + 1) ∧
    (∀ time bytes, (call_all md5 (.shutdown now :: after) session).1.getLast? = some (.shutdown time, .ok bytes) →
      (∃ size log, (call_all md5 (.shutdown now :: after) session).2.inner.sent = wire.sent ++ auth digest size ++ encode log ∧
        fin ∈ log ∧ payload log = acknowledged_bytes history) ∧
      (call_all md5 (.shutdown now :: after) session).2.inner.shut = true ∧
      PeerEnded (call_all md5 (.shutdown now :: after) session).2.inner) ∧
    (∀ time result, (call_all md5 (.shutdown now :: after) session).1.getLast? = some (.shutdown time, result) →
      session.close_deadline.getD (now + 5000) ≤ time → result ≠ .error .pending) := by
  have hsettings := length_settings_lt hparse
  obtain ⟨size, hstart⟩ := Act.wp_ok (@kept_open _ _ hsettings haddress digest polls wire draws hreceived) hopen
  obtain ⟨hkept, -⟩ := @Kept.call_all md5 _ _ _ _ hstart before
  rw [hbefore, List.nil_append] at hkept
  dsimp only at hkept
  obtain ⟨start, hle, hran⟩ := @ran_of_shutdown md5 _ _ _ _ now hkept hlive after
  obtain ⟨rest, hrest, hkept', hlate⟩ := hran.shutting
  obtain ⟨got, log, queued, hsound⟩ := hkept'
  refine ⟨hran.sane, hran.writes, ⟨rest, hrest.symm⟩, ?_, ?_, ?_, ?_⟩
  · exact fun remaining hlast hpos => hran.tells _ _ hlast rfl hpos
  · have hbound := hlate.bound
    rw [MAX_CLOSE_DRAIN] at hbound
    omega
  · intro time bytes hlast
    obtain ⟨hwrite, hpeer⟩ := (hran.tells _ _ hlast).1 bytes rfl
    obtain ⟨hsent, hshut, hfin⟩ := hsound.closed hwrite
    refine ⟨⟨size, log, hsent, ?_, ?_⟩, hshut, hsound.peer hpeer⟩
    · have hmem : fin ∈ log.filter real := by
        rw [hsound.books]
        exact List.mem_append_right _ hfin
      exact (List.mem_filter.1 hmem).1
    · rw [payload_log hsound.books, hsound.bytes]
  · exact fun time result hlast htime => (hran.tells _ _ hlast).2 htime

/-- A session is shut down right after it was opened. -/
theorem no_write_after_shutdown : ∃ padding this left, Padding.parse (fun _ => .replicate 16 0) (str.bytes "stop=1") = .ok padding ∧
    AnyTls.open (.replicate 32 0) [1, 2, 3] padding 1 (sampleWire, []) = (.ok this, left) ∧ this.taken = false ∧
    ∀ result, (.write [7], result) ∈ (AnyTls.call_all (fun _ => .replicate 16 0) [.shutdown 0, .write [7]] this).1 →
      ∃ error, result = .error (.failed error) := by
  obtain ⟨padding, this, left, hparse, hopen, htaken⟩ := sample_opens
  obtain ⟨-, hwrites, -⟩ :=
    @shutdown_bounded _ _ _ _ _ _ _ _ _ _ hparse (by decide) rfl hopen [] [] this rfl (fun htrue => by rw [htaken] at htrue; cases htrue)
      0 [.write [7]]
  exact ⟨padding, this, left, hparse, hopen, htaken, hwrites [7]⟩

end zc.anytls
