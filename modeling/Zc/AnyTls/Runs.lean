import Zc.AnyTls.Closing

/-!
# Runs of a session

From `AnyTls::open` on, whatever calls are made and whatever the transport does, the books of the
session hold. So what the transport takes are whole frames with the acknowledged bytes, in order, and a
shutdown comes to an end.
-/

namespace zc.anytls

open Poll (Act)

variable {padding : Padding} {address : List UInt8} {draws : List (Option UInt32)} {polls : Nat} {wire : Wire io.Error}
  {frame : Frame} {log queued : List Frame}

namespace AnyTls

/-! ## Opening -/

theorem length_settings_lt {md5 : List UInt8 → Vector UInt8 16} {raw : List UInt8}
    (hparse : Padding.parse md5 raw = .ok padding) : (settings padding).length < 65536 := by
  have hmd5 : padding.md5 = hex (md5 raw).toList := by
    simp only [Padding.parse, bind_eq_ok_iff] at hparse
    obtain ⟨fields, -, hparse⟩ := hparse
    split at hparse
    · cases hparse
    · simp only [bind_eq_ok_iff] at hparse
      obtain ⟨stop, -, hparse⟩ := hparse
      split_ifs at hparse
      simp only [bind_eq_ok_iff] at hparse
      obtain ⟨⟨groups, overhead⟩, -, hparse⟩ := hparse
      rw [← Except.ok.inj hparse]
  have hlength := len_hex (md5 raw).toList
  rw [Vector.length_toList] at hlength
  have hlen : (settings padding).length = str.len ("v=2\nclient=zc/1.1.0-rc1\npadding-md5=" ++ hex (md5 raw).toList) := by
    rw [settings, hmd5, str.bytes, Array.length_toList]
    rfl
  rw [hlen, str.len, String.utf8ByteSize_append]
  rw [str.len] at hlength
  rw [hlength]
  decide

/-- The frames that open the session. -/
def openingFrames (padding : Padding) (address : List UInt8) (hsettings : (settings padding).length < 65536)
    (haddress : address.length < 65536) : List Frame :=
  [⟨4, 0, settings padding, hsettings⟩, ⟨1, 1, [], Frame.nil_fits⟩, push address haddress]

theorem encode_openingFrames (hsettings : (settings padding).length < 65536) (haddress : address.length < 65536) :
    encode (openingFrames padding address hsettings haddress) = opening padding address := by
  simp only [openingFrames, encode_cons, encode_nil, Frame.bytes, opening, append_frame, push, List.append_nil, List.nil_append,
    List.append_assoc]

section Open

variable {padding : Padding} {address : List UInt8} {hsettings : (settings padding).length < 65536} {haddress : address.length < 65536}

theorem kept_start {inner : Wire io.Error} {packets : List (List UInt8)} {steps : List Step} {paddings : List Frame}
    (hreceived : inner.received = []) (hpacked : Packed steps (opening padding address) packets paddings) :
    Kept inner.sent (openingFrames padding address hsettings haddress) [] (start inner padding padding packets draws) := by
  have hlog : inner.sent ++ packets.flatten = inner.sent ++ encode (openingFrames padding address hsettings haddress ++ paddings) := by
    rw [hpacked.flatten, encode_append, encode_openingFrames]
  have howes : Owes inner.sent (openingFrames padding address hsettings haddress ++ paddings)
      (start inner padding padding packets draws) := by
    refine ⟨hlog, ?_, hpacked.nonempty⟩
    cases packets with
    | nil => rfl
    | cons packet packets => exact List.length_pos_iff.2 (hpacked.nonempty packet List.mem_cons_self)
  refine ⟨[], openingFrames padding address hsettings haddress ++ paddings, [], ?_, rfl, List.Sublist.refl _, List.nil_prefix,
    ⟨List.prefix_refl _, _, howes.sent⟩, .absent nofun fun _ => rfl, fun _ => howes, fun _ => rfl, fun _ _ => ⟨incoming_nil rfl hreceived, rfl, rfl, rfl, rfl⟩,
    nofun, nofun, nofun, fun _ => Nat.zero_le _⟩
  rw [List.filter_append, filter_real_paddings hpacked.padding]
  rfl

theorem wp_auth_size : Act.wp padding.auth_size (fun _ _ => True) (fun stop _ => stop = .failed unavailable) draws := by
  unfold Padding.auth_size
  split
  · exact Act.wp_mono (wp_random_size (Size.le _)) (fun _ _ _ => trivial) fun _ _ h => h
  · trivial

/-- A write that is polled until it is ready. -/
theorem wp_await_write {bytes : List UInt8} :
    Act.wp (Act.await (Wire.poll_write bytes) polls) (fun n wire' => Wire.Sends wire wire' (bytes.take n))
      (fun stop _ => stop ≠ .panicked) wire := by
  refine Act.wp_await (I := fun wire' => Wire.Sends wire wire' []) ?_ (fun _ _ => nofun) (Wire.Sends.refl wire)
  intro wire' hsends
  exact Wire.wp_poll_write (fun _ _ _ hsends' => hsends.trans hsends') (fun _ hsends' => hsends.trans hsends') fun _ _ _ => nofun

theorem wp_await_flush :
    Act.wp (Act.await Wire.poll_flush polls) (fun _ wire' => Wire.Sends wire wire' []) (fun stop _ => stop ≠ .panicked) wire := by
  refine Act.wp_await (I := fun wire' => Wire.Sends wire wire' []) ?_ (fun _ _ => nofun) (Wire.Sends.refl wire)
  intro wire' hsends
  exact Wire.wp_poll_flush (fun _ hsends' => hsends.trans hsends') (fun _ hsends' => hsends.trans hsends') fun _ _ _ => nofun

/-- What holds of a session after its authentication record, and is kept by flushes, holds of the one that `open`
    returns. -/
theorem wp_open {digest : Vector UInt8 32} {I : Nat → AnyTls → Prop}
    (hstart : ∀ size inner packets draws steps paddings, Wire.Sends wire inner (auth digest size) → Packed steps (opening padding address) packets paddings → I size (start inner padding padding packets draws))
    (hflush : ∀ size this, I size this → Act.wp poll_flush (fun _ this' => I size this') (fun stop this' => stop ≠ .panicked ∧ I size this') this) :
    Act.wp (AnyTls.open digest address padding polls) (fun this _ => ∃ size, I size this) (fun stop _ => stop ≠ .panicked)
      (wire, draws) := by
  unfold AnyTls.open
  rw [Act.wp_bind, Act.wp_zoom]
  refine Act.wp_mono wp_auth_size ?_ fun _ _ hstop => hstop ▸ nofun
  intro size draws₁ _
  rw [Act.wp_bind, Act.wp_zoom]
  refine Act.wp_mono wp_await_write ?_ fun _ _ h => h
  intro n wire₁ hsends₁
  by_cases hshort : n ≠ (auth digest size).length
  · rw [if_pos hshort]
    exact nofun
  rw [not_not] at hshort
  rw [hshort, List.take_length] at hsends₁
  rw [if_neg (not_not.2 hshort), Act.wp_bind, Act.wp_zoom]
  refine Act.wp_mono wp_await_flush ?_ fun _ _ h => h
  intro _ wire₂ hsends₂
  rw [Act.wp_bind, Act.wp_zoom]
  refine Act.wp_mono (wp_split _ (opening padding address) _) ?_ fun _ _ hstop => hstop ▸ nofun
  rintro packets draws₂ ⟨paddings, hpacked⟩
  rw [Act.wp_bind, Act.wp_get]
  have hsends := hsends₁.trans hsends₂
  rw [List.append_nil] at hsends
  have hawait : Act.wp (Act.await poll_flush polls) (fun _ this => I size this) (fun stop _ => stop ≠ .panicked)
      (start wire₂ padding padding packets draws₂) := by
    refine Act.wp_await (I := I size) ?_ (fun _ _ => nofun) (hstart _ _ _ _ _ _ hsends hpacked)
    intro this hthis
    refine Act.wp_mono (hflush size this hthis) (fun _ _ h => h) ?_
    rintro stop this' ⟨hsane, hthis'⟩
    cases stop with
    | pending => exact hthis'
    | failed error => exact nofun
    | panicked => exact absurd rfl hsane
  dsimp only
  unfold Act.wp at hawait
  split
  · next hrun =>
    rw [hrun] at hawait
    exact ⟨size, hawait⟩
  · next hrun =>
    rw [hrun] at hawait
    exact hawait

/-- A session that `open` returns keeps its books, after an authentication record. -/
theorem kept_open {digest : Vector UInt8 32} {polls : Nat} {wire : Wire io.Error} {draws : List (Option UInt32)}
    (hreceived : wire.received = []) :
    Act.wp (AnyTls.open digest address padding polls)
      (fun this _ => ∃ size, Kept (wire.sent ++ auth digest size) (openingFrames padding address hsettings haddress) [] this)
      (fun stop _ => stop ≠ .panicked) (wire, draws) := by
  refine wp_open ?_ ?_
  · intro size inner packets draws steps paddings hsends hpacked
    rw [← hsends.sent]
    exact kept_start (hsends.received.trans hreceived) hpacked
  · intro size this hkept
    refine Act.wp_mono (keeps_poll_flush hkept) (fun _ _ h => ?_) fun _ _ h => h
    rwa [nothing, List.append_nil] at h

end Open

/-! ## Any calls -/

section Calls

variable {md5 : List UInt8 → Vector UInt8 16} {base : List UInt8} {first : List Frame} {acked : List UInt8} {this this' : AnyTls}

theorem Kept.perform (hkept : Kept base first acked this) (call : Call) :
    Act.wp (call.perform md5) (fun bytes this' => Kept base first (acked ++ taken_by (call, .ok bytes)) this')
      (fun stop this' => stop ≠ .panicked ∧ Kept base first acked this') this := by
  have hnothing : ∀ {α : Type} {value : α} {this' : AnyTls}, Kept base first (acked ++ nothing value) this' →
      Kept base first (acked ++ []) this' := fun h => h
  cases call with
  | write bytes =>
    rw [Call.perform, Act.wp_bind]
    exact Act.wp_mono (keeps_poll_write hkept) (fun _ _ h => h) fun _ _ h => h
  | flush =>
    rw [Call.perform, Act.wp_bind]
    exact Act.wp_mono (keeps_poll_flush hkept) (fun _ _ h => hnothing h) fun _ _ h => h
  | read remaining => exact Act.wp_mono (keeps_poll_read hkept) (fun _ _ h => hnothing h) fun _ _ h => h
  | shutdown now =>
    rw [Call.perform, Act.wp_bind]
    exact Act.wp_mono (keeps_poll_shutdown hkept) (fun _ _ h => hnothing h) fun _ _ h => h

/-- One call, with its result. -/
theorem Kept.step (hkept : Kept base first acked this) {call : Call} {result : Except (Poll.Stop io.Error) (List UInt8)}
    (hperform : call.perform md5 this = (result, this')) :
    Kept base first (acked ++ taken_by (call, result)) this' ∧ result ≠ .error .panicked := by
  cases result with
  | ok bytes => exact ⟨Act.wp_ok (hkept.perform call) hperform, nofun⟩
  | error stop =>
    obtain ⟨hsane, hkept'⟩ := Act.wp_error (hkept.perform call) hperform
    have hnone : taken_by (call, .error stop) = [] := by
      cases call with
      | write | flush | read | shutdown => rfl
    rw [hnone, List.append_nil]
    exact ⟨hkept', fun heq => hsane (Except.error.inj heq)⟩

theorem acknowledged_bytes_cons (entry : Call × Except (Poll.Stop io.Error) (List UInt8)) (history : History) :
    acknowledged_bytes (entry :: history) = taken_by entry ++ acknowledged_bytes history :=
  List.flatMap_cons

theorem delivered_bytes_cons (entry : Call × Except (Poll.Stop io.Error) (List UInt8)) (history : History) :
    delivered_bytes (entry :: history) = given_by entry ++ delivered_bytes history :=
  List.flatMap_cons

theorem call_all_cons {call : Call} {result : Except (Poll.Stop io.Error) (List UInt8)} (calls : List Call)
    (hperform : call.perform md5 this = (result, this')) :
    call_all md5 (call :: calls) this = ((call, result) :: (call_all md5 calls this').1, (call_all md5 calls this').2) := by
  rw [call_all, hperform]

/-- The books hold after any calls. -/
theorem Kept.call_all (hkept : Kept base first acked this) (calls : List Call) :
    Kept base first (acked ++ acknowledged_bytes (call_all md5 calls this).1) (call_all md5 calls this).2 ∧
      ∀ entry ∈ (call_all md5 calls this).1, entry.2 ≠ .error .panicked := by
  induction calls generalizing acked this with
  | nil => exact ⟨(List.append_nil acked).symm ▸ hkept, nofun⟩
  | cons call calls ih =>
    cases hperform : call.perform md5 this with
    | mk result next =>
      obtain ⟨hkept', hsane⟩ := hkept.step hperform
      obtain ⟨hlast, hall⟩ := ih hkept'
      rw [call_all_cons calls hperform]
      refine ⟨?_, ?_⟩
      · rw [acknowledged_bytes_cons, ← List.append_assoc]
        exact hlast
      · intro entry hentry
        rcases List.mem_cons.1 hentry with rfl | hentry
        · exact hsane
        · exact hall entry hentry

end Calls

/-! ## What the transport takes -/

/-- A frame of bytes of the stream. -/
def isPush (frame : Frame) : Bool :=
  frame.cmd == 2 && frame.id == 1

/-- The bytes of the stream after the address, which the first of its frames carries. -/
def payload (frames : List Frame) : List UInt8 :=
  ((frames.filter isPush).drop 1).flatMap Frame.body

theorem real_of_isPush (hpush : isPush frame = true) : real frame = true := by
  rw [isPush, Bool.and_eq_true, beq_iff_eq] at hpush
  rw [real, hpush.1]
  rfl

theorem filter_isPush (frames : List Frame) : (frames.filter real).filter isPush = frames.filter isPush := by
  rw [List.filter_filter]
  refine List.filter_congr fun frame _ => ?_
  cases hpush : isPush frame with
  | false => rfl
  | true => rw [real_of_isPush hpush]; rfl

/-- The frames of a session carry what it acknowledged. -/
theorem payload_log {hsettings : (settings padding).length < 65536} {haddress : address.length < 65536}
    (hbooks : log.filter real = openingFrames padding address hsettings haddress ++ queued) :
    payload log = data queued := by
  rw [payload, ← filter_isPush, hbooks, List.filter_append]
  rfl

theorem payload_prefix {frames : List Frame} (hstarts : frames <+: log) : payload frames <+: payload log := by
  obtain ⟨more, rfl⟩ := hstarts
  rw [payload, payload, List.filter_append]
  cases hpush : frames.filter isPush with
  | nil => exact List.nil_prefix
  | cons push pushes =>
    rw [List.cons_append, List.drop_one, List.tail_cons, List.drop_one, List.tail_cons, List.flatMap_append]
    exact List.prefix_append _ _

theorem cmd_eq_zero_of_real (hreal : real frame = false) : frame.cmd = 0 := by
  rwa [real, bne_eq_false_iff_eq] at hreal

/-- An element that is not in the front of a list is its last one. -/
theorem append_cons_eq_concat {α : Type} {front back list : List α} {a last : α} (heq : front ++ a :: back = list ++ [last])
    (hnot : a ∉ list) : back = [] ∧ front = list := by
  rcases List.eq_nil_or_concat back with rfl | ⟨back', b, rfl⟩
  · exact ⟨rfl, (List.append_inj' heq rfl).1⟩
  · have hlist : front ++ a :: back' = list := by
      rw [List.concat_eq_append, ← List.cons_append, ← List.append_assoc] at heq
      exact (List.append_inj' heq rfl).1
    exact absurd (hlist ▸ List.mem_append_right _ List.mem_cons_self) hnot

/-- Only padding comes after a FIN, and everything acknowledged comes before it. -/
theorem after_fin {first before after more : List Frame} {this : AnyTls}
    (hbooks : (before ++ frame :: (after ++ more)).filter real = first ++ queued)
    (hfirst : ∀ frame ∈ first, frame.cmd ≠ 3) (hending : Ending queued this) (hfin : frame.cmd = 3) :
    (∀ other ∈ before, other.cmd ≠ 3) ∧ (∀ other ∈ after, other.cmd = 0) ∧
      payload before = payload (before ++ frame :: (after ++ more)) := by
  have hreal : real frame = true := by
    rw [real, hfin]
    rfl
  have hsplit : before.filter real ++ frame :: (after ++ more).filter real = first ++ queued := by
    rw [← hbooks, List.filter_append before, List.filter_cons_of_pos hreal]
  have hmem : frame ∈ first ++ queued := hsplit ▸ List.mem_append_right _ List.mem_cons_self
  cases hending with
  | absent hnone _ =>
    rcases List.mem_append.1 hmem with hmem | hmem
    · exact absurd hfin (hfirst frame hmem)
    · exact absurd hfin (hnone frame hmem)
  | @queued body hqueued hnone _ _ =>
    have hearlier : ∀ other ∈ first ++ body, other.cmd ≠ 3 := by
      intro other hother
      rcases List.mem_append.1 hother with hother | hother
      · exact hfirst other hother
      · exact hnone other hother
    rw [hqueued, ← List.append_assoc] at hsplit
    obtain ⟨hback, hfront⟩ := append_cons_eq_concat hsplit fun hother => hearlier frame hother hfin
    have hafter : ∀ other ∈ after ++ more, real other = false := by
      rw [List.filter_eq_nil_iff] at hback
      exact fun other hother => Bool.eq_false_iff.2 (hback other hother)
    refine ⟨?_, ?_, ?_⟩
    · intro other hother hthree
      refine hearlier other (hfront ▸ List.mem_filter.2 ⟨hother, ?_⟩) hthree
      rw [real, hthree]
      rfl
    · exact fun other hother => cmd_eq_zero_of_real (hafter other (List.mem_append_left _ hother))
    · have hpush : isPush frame = false := by
        rw [isPush, hfin]
        rfl
      have hnone' : (after ++ more).filter isPush = [] := by
        rw [← filter_isPush, hback]
        rfl
      rw [payload, payload, List.filter_append, List.filter_cons_of_neg (by rw [hpush]; exact Bool.false_ne_true), hnone',
        List.append_nil]

theorem answered_sublist {frames : List Frame} (hstarts : frames <+: log) :
    (answered frames).Sublist (answered log) := by
  obtain ⟨more, rfl⟩ := hstarts
  rw [answered_append]
  exact List.sublist_append_left _ _

theorem answered_log {hsettings : (settings padding).length < 65536} {haddress : address.length < 65536}
    (hbooks : log.filter real = openingFrames padding address hsettings haddress ++ queued) :
    answered log = answered queued := by
  have hfilter : log.filter (fun frame => frame.cmd == 9) = (log.filter real).filter fun frame => frame.cmd == 9 := by
    rw [List.filter_filter]
    refine List.filter_congr fun frame _ => ?_
    cases hnine : frame.cmd == 9 with
    | false => rfl
    | true =>
      rw [beq_iff_eq] at hnine
      rw [real, hnine]
      rfl
  rw [answered, hfilter, hbooks, List.filter_append]
  rfl

theorem requested_mono {bytes bytes' : List UInt8} (hstarts : bytes <+: bytes') :
    (requested (frames bytes)).Sublist (requested (frames bytes')) := by
  obtain ⟨more, hmore⟩ := frames_mono hstarts
  rw [← hmore, requested_append]
  exact List.sublist_append_left _ _

/-- A flush of a session that is not at its end leaves nothing queued. -/
theorem flushed {base : List UInt8} {first : List Frame} {acked : List UInt8} {this : AnyTls} (hkept : Kept base first acked this)
    (htaken : this.taken = false) :
    Act.wp poll_flush
      (fun _ next => ∃ log queued, next.inner.sent = base ++ encode log ∧ log.filter real = first ++ queued ∧ data queued = acked)
      (fun _ _ => True) this := by
  obtain ⟨got, log, queued, hsound⟩ := hkept
  unfold poll_flush
  rw [Act.wp_bind]
  refine wp_check_error (fun _ => ?_) fun _ _ => trivial
  rw [Act.wp_bind, Act.wp_get, if_neg (by rw [htaken]; exact Bool.false_ne_true)]
  by_cases hclosed : this.write_closed = true
  · rw [if_pos hclosed]
    exact ⟨log, queued, (hsound.closed hclosed).1, hsound.books, hsound.bytes⟩
  · rw [if_neg hclosed]
    refine Act.wp_mono (wp_drain (hsound.owes htaken) htaken) ?_ fun _ _ _ => trivial
    rintro _ next ⟨log', hdrains, houtgoing, -⟩
    obtain ⟨queued', hsound'⟩ := hsound.drains htaken (Bool.eq_false_iff.2 hclosed) hdrains
    have hsent := hdrains.owes.sent
    rw [houtgoing, List.flatten_nil, List.drop_nil, List.append_nil] at hsent
    exact ⟨log', queued', hsent, hsound'.books, hsound'.bytes⟩

end AnyTls

open AnyTls in
/-- After `open`, whatever calls are made and whatever the transport does: what it takes after the
    authentication record is a front of whole frames; those of the stream carry a front of the
    acknowledged bytes, and all of them after a flush of a session that is not at its end; heartbeats are
    answered in the order of the requests and at most once; and a FIN is the only one, comes after every
    acknowledged byte, and only padding comes after it. -/
theorem sent_whole_frames {md5 : List UInt8 → Vector UInt8 16} {raw address : List UInt8} {padding : Padding}
    {digest : Vector UInt8 32} {polls : Nat} {wire : Wire io.Error} {draws : List (Option UInt32)} {this : AnyTls}
    {left : Wire io.Error × List (Option UInt32)} (hparse : Padding.parse md5 raw = .ok padding) (haddress : address.length < 65536)
    (hreceived : wire.received = []) (hopen : AnyTls.open digest address padding polls (wire, draws) = (.ok this, left))
    (calls : List Call) :
    ∃ size bytes log, (call_all md5 calls this).2.inner.sent = wire.sent ++ auth digest size ++ bytes ∧
      bytes <+: encode log ∧ payload log = acknowledged_bytes (call_all md5 calls this).1 ∧
      payload (frames bytes) <+: acknowledged_bytes (call_all md5 calls this).1 ∧
      (∀ next, (call_all md5 calls this).2.taken = false → poll_flush (call_all md5 calls this).2 = (.ok (), next) →
        ∃ flushed, next.inner.sent = wire.sent ++ auth digest size ++ flushed ∧
          payload (frames flushed) = acknowledged_bytes (call_all md5 calls this).1) ∧
      (answered (frames bytes)).Sublist (requested (frames (call_all md5 calls this).2.inner.received)) ∧
      ∀ before fin after, frames bytes = before ++ fin :: after → fin.cmd = 3 →
        (∀ frame ∈ before, frame.cmd ≠ 3) ∧ (∀ frame ∈ after, frame.cmd = 0) ∧
          payload before = acknowledged_bytes (call_all md5 calls this).1 := by
  have hsettings := length_settings_lt hparse
  obtain ⟨size, hstart⟩ := Act.wp_ok (@kept_open _ _ hsettings haddress digest polls wire draws hreceived) hopen
  obtain ⟨hkept, -⟩ := @Kept.call_all md5 _ _ _ _ hstart calls
  rw [List.nil_append] at hkept
  obtain ⟨got, log, queued, hsound⟩ := id hkept
  obtain ⟨⟨bytes, hbytes⟩, hsent⟩ := hsound.sent
  rw [← hbytes, List.prefix_append_right_inj] at hsent
  have hframes := frames_of_encode hsent
  have hpayload : payload log = acknowledged_bytes (call_all md5 calls this).1 :=
    (payload_log hsound.books).trans hsound.bytes
  refine ⟨size, bytes, log, hbytes.symm, hsent, hpayload, hpayload ▸ payload_prefix hframes, ?_, ?_, ?_⟩
  · intro next htaken hflush
    obtain ⟨log', queued', hsent', hbooks', hdata'⟩ := Act.wp_ok (flushed hkept htaken) hflush
    refine ⟨encode log', hsent', ?_⟩
    rw [frames_encode, payload_log hbooks', hdata']
  · have hanswered := answered_sublist hframes
    rw [answered_log hsound.books] at hanswered
    refine hanswered.trans ((List.sublist_append_left _ _).trans (hsound.hearts.trans ?_))
    have hgot := requested_mono hsound.came
    rwa [frames_encode] at hgot
  · intro before fin after hsplit hfin
    obtain ⟨more, hmore⟩ := hframes
    have hlog : log = before ++ fin :: (after ++ more) := by
      rw [← hmore, hsplit, List.append_assoc, List.cons_append]
    have hbooks := hsound.books
    rw [hlog] at hbooks
    obtain ⟨hbefore, hafter, hall⟩ := after_fin hbooks (by simp [openingFrames, push]) hsound.ending hfin
    refine ⟨hbefore, hafter, ?_⟩
    rw [hall, ← hlog, hpayload]

/-- A transport that takes everything and gives nothing. -/
def sampleWire : Wire io.Error where
  reads := []
  writes := List.replicate 8 (.ready 1000)
  flushes := List.replicate 8 (.ready ())
  shutdowns := []
  answers := []
  received := []
  sent := []
  shut := false

/-- Whether a session is opened on a transport, and passes a check. -/
def opens (wire : Wire io.Error) (check : AnyTls → Bool) : Bool :=
  match Padding.parse (fun _ => .replicate 16 0) (str.bytes "stop=1") with
  | .ok padding => match (AnyTls.open (.replicate 32 0) [1, 2, 3] padding 1 (wire, [])).1 with
    | .ok this => check this
    | .error _ => false
  | .error _ => false

theorem exists_open {wire : Wire io.Error} {check : AnyTls → Bool} (hok : opens wire check = true) :
    ∃ padding this left, Padding.parse (fun _ => .replicate 16 0) (str.bytes "stop=1") = .ok padding ∧
      AnyTls.open (.replicate 32 0) [1, 2, 3] padding 1 (wire, []) = (.ok this, left) ∧ check this = true := by
  rw [opens] at hok
  cases hparse : Padding.parse (fun _ => .replicate 16 0) (str.bytes "stop=1") with
  | error error =>
    rw [hparse] at hok
    cases hok
  | ok padding =>
    rw [hparse] at hok
    dsimp only at hok
    cases hopen : AnyTls.open (.replicate 32 0) [1, 2, 3] padding 1 (wire, []) with
    | mk result left =>
      rw [hopen] at hok
      cases result with
      | error stop => cases hok
      | ok this => exact ⟨padding, this, left, rfl, hopen, hok⟩

/-- The transport is enough to open a session. -/
theorem sample_opens : ∃ padding this left, Padding.parse (fun _ => .replicate 16 0) (str.bytes "stop=1") = .ok padding ∧
    AnyTls.open (.replicate 32 0) [1, 2, 3] padding 1 (sampleWire, []) = (.ok this, left) ∧ this.taken = false := by
  obtain ⟨padding, this, left, hparse, hopen, htaken⟩ := @exists_open sampleWire (fun this => !this.taken) (by decide +kernel)
  exact ⟨padding, this, left, hparse, hopen, by rwa [Bool.not_eq_true'] at htaken⟩

/-- A byte is written, flushed and then the session is shut down. -/
theorem byte_written : ∃ padding this left, Padding.parse (fun _ => .replicate 16 0) (str.bytes "stop=1") = .ok padding ∧
    AnyTls.open (.replicate 32 0) [1, 2, 3] padding 1 (sampleWire, []) = (.ok this, left) ∧
    ∃ size bytes, (AnyTls.call_all (fun _ => .replicate 16 0) [.write [7], .flush, .shutdown 0] this).2.inner.sent =
        AnyTls.auth (.replicate 32 0) size ++ bytes ∧
      AnyTls.payload (frames bytes) <+:
        AnyTls.acknowledged_bytes (AnyTls.call_all (fun _ => .replicate 16 0) [.write [7], .flush, .shutdown 0] this).1 := by
  obtain ⟨padding, this, left, hparse, hopen, -⟩ := sample_opens
  obtain ⟨size, bytes, -, hsent, -, -, hpayload, -⟩ :=
    sent_whole_frames hparse (by decide) rfl hopen [.write [7], .flush, .shutdown 0]
  exact ⟨padding, this, left, hparse, hopen, size, bytes, hsent, hpayload⟩

end zc.anytls
