import Zc.SimpleObfs.Read

/-!
# Reading does not depend on the segments

However the stream of the peer is cut into reads, with the transport not ready in between, and
whatever the sizes of the buffers are, what is handed out is the stream after the response head.
-/

namespace zc.simple_obfs

open Poll (Act)
open Wire (segments patience)

/-- A transport without errors that gives out a stream in nonempty segments, and then its end. -/
structure Sending (stream : List UInt8) (wire : Wire io.Error) : Prop where
  order : ∃ calm rest, wire.reads = calm ++ rest ∧
    (∀ answer ∈ calm, answer = .pending ∨ ∃ segment, segment ≠ [] ∧ answer = .ready segment) ∧
    ∀ answer ∈ rest, answer = .pending ∨ answer = .ready []
  whole : wire.received ++ segments wire.reads = stream

theorem segments_of_ended {rest : List (Answer io.Error (List UInt8))}
    (hrest : ∀ answer ∈ rest, answer = .pending ∨ answer = .ready []) : segments rest = [] := by
  rw [segments, List.flatMap_eq_nil_iff]
  intro answer hanswer
  obtain rfl | rfl := hrest answer hanswer
  · rfl
  · rfl

/-- The first answer of such a transport, and the others. -/
inductive Next (stream : List UInt8) (wire : Wire io.Error) : Prop
  | exhausted (hreads : wire.reads = [])
  | pending {reads : List (Answer io.Error (List UInt8))} (hreads : wire.reads = .pending :: reads)
    (hnext : Sending stream { wire with reads })
  | segment {segment : List UInt8} {reads : List (Answer io.Error (List UInt8))} (hne : segment ≠ [])
    (hreads : wire.reads = .ready segment :: reads)
    (hnext : ∀ part rest, part ++ rest = segment → rest ≠ [] →
      Sending stream { wire with reads := .ready rest :: reads, received := wire.received ++ part })
    (hlast : Sending stream { wire with reads, received := wire.received ++ segment })
  | finish {reads : List (Answer io.Error (List UInt8))} (hreads : wire.reads = .ready [] :: reads)
    (hended : wire.received = stream) (hnext : Sending stream { wire with reads })

variable {stream : List UInt8}

theorem Sending.next {wire : Wire io.Error} (hsending : Sending stream wire) : Next stream wire := by
  obtain ⟨⟨calm, rest, hreads, hcalm, hrest⟩, hwhole⟩ := hsending
  cases calm with
  | cons answer calm =>
    have hcalm' : ∀ answer ∈ calm, answer = .pending ∨ ∃ segment, segment ≠ [] ∧ answer = .ready segment :=
      fun answer hanswer => hcalm answer (List.mem_cons_of_mem _ hanswer)
    rw [hreads] at hwhole
    obtain rfl | ⟨segment, hne, rfl⟩ := hcalm answer List.mem_cons_self
    · exact .pending hreads ⟨⟨calm, rest, rfl, hcalm', hrest⟩, hwhole⟩
    · refine .segment hne hreads ?_ ⟨⟨calm, rest, rfl, hcalm', hrest⟩, ?_⟩
      · intro part more hparts hmore
        refine ⟨⟨.ready more :: calm, rest, rfl, ?_, hrest⟩, ?_⟩
        · intro answer hanswer
          rcases List.mem_cons.1 hanswer with rfl | hanswer
          · exact .inr ⟨more, hmore, rfl⟩
          · exact hcalm' answer hanswer
        · rw [← hwhole, ← hparts]
          simp only [segments, List.flatMap_cons, List.cons_append, List.append_assoc]
          rfl
      · rw [← hwhole]
        simp only [segments, List.flatMap_cons, List.cons_append, List.append_assoc]
        rfl
  | nil =>
    rw [List.nil_append] at hreads
    cases rest with
    | nil => exact .exhausted hreads
    | cons answer rest =>
      have hrest' : ∀ answer ∈ rest, answer = .pending ∨ answer = .ready [] :=
        fun answer hanswer => hrest answer (List.mem_cons_of_mem _ hanswer)
      have hended : wire.received = stream := by
        rw [← hwhole, hreads, segments_of_ended hrest, List.append_nil]
      have hnext : Sending stream { wire with reads := rest } := by
        refine ⟨⟨[], rest, rfl, List.forall_mem_nil _, hrest'⟩, ?_⟩
        rw [segments_of_ended hrest', List.append_nil]
        exact hended
      obtain rfl | rfl := hrest answer List.mem_cons_self
      · exact .pending hreads hnext
      · exact .finish hreads hended hnext

theorem peer_of_sending (stream : List UInt8) :
    Peer (Sending stream) (fun wire => wire.received = stream) (fun wire => .ready [] ∈ wire.reads) fun _ => False where
  read := by
    intro capacity wire hcapacity hsending
    have hreads : Act.wp (Wire.poll_read capacity)
        (fun bytes wire' => Wire.Reads wire wire' bytes ∧ bytes.length ≤ capacity)
        (fun _ wire' => Wire.Reads wire wire' []) wire :=
      Wire.wp_poll_read hcapacity (fun bytes wire' hle hreads => ⟨hreads, hle⟩) (fun _ hreads => hreads)
        fun _ _ hreads => hreads
    have hscript : Act.wp (Wire.poll_read capacity)
        (fun bytes wire' => Sending stream wire' ∧ (bytes = [] → wire'.received = stream) ∧
          (.ready [] ∈ wire.reads → bytes ≠ [] → .ready [] ∈ wire'.reads))
        (fun stop wire' => Sending stream wire' ∧ (.ready [] ∈ wire.reads → .ready [] ∈ wire'.reads) ∧ stop = .pending)
        wire := by
      unfold Act.wp Wire.poll_read
      cases hsending.next with
      | exhausted hnil =>
        rw [hnil]
        exact ⟨⟨⟨[], [], rfl, nofun, nofun⟩, hnil ▸ hsending.whole⟩, id, rfl⟩
      | pending hcons hnext =>
        rw [hcons]
        refine ⟨⟨hnext.order, hnext.whole⟩, fun hmem => ?_, rfl⟩
        exact (List.mem_cons.1 hmem).resolve_left nofun
      | @segment segment reads hne hcons hnext hlast =>
        rw [hcons]
        have hmem : (Answer.ready [] : Answer io.Error _) ∈ Answer.ready segment :: reads → .ready [] ∈ reads := by
          intro hmem
          refine (List.mem_cons.1 hmem).resolve_left fun heq => hne ?_
          exact (Answer.ready.inj heq).symm
        dsimp only
        split_ifs with hfits
        · exact ⟨⟨hlast.order, hlast.whole⟩, fun hnil => absurd hnil hne, fun hopened _ => hmem hopened⟩
        · have hlong : segment.drop capacity ≠ [] := by
            intro hnil
            exact hfits (List.drop_eq_nil_iff.1 hnil)
          have hsome : segment.take capacity ≠ [] := by
            intro hnil
            rcases List.take_eq_nil_iff.1 hnil with hzero | hnil
            · omega
            · exact hne hnil
          have hrest := hnext _ _ (List.take_append_drop capacity segment) hlong
          exact ⟨⟨hrest.order, hrest.whole⟩, fun hnil => absurd hnil hsome,
            fun hopened _ => List.mem_cons_of_mem _ (hmem hopened)⟩
      | finish hcons hended hnext =>
        rw [hcons]
        refine ⟨?_, fun _ => ?_, fun _ hne => absurd rfl hne⟩
        · simp only [List.append_nil]
          exact ⟨hnext.order, hnext.whole⟩
        · simp only [List.append_nil]
          exact hended
    refine Act.wp_mono (Act.wp_and hreads hscript) ?_ ?_
    · rintro bytes wire' ⟨⟨hreads, hle⟩, hsending', hended, hopened⟩
      exact ⟨hreads, hle, hsending', hended, hopened⟩
    · rintro stop wire' ⟨hreads, hsending', hopened, hpending⟩
      exact ⟨hreads, hsending', hopened, .inl hpending⟩

/-! ## Runs of reads -/

variable {this : HttpObfsStream} {deadline : Option Nat} {given : List UInt8}

namespace HttpObfsStream

/-- Polls with their times and the free bytes of their buffers, and the results of the polls. -/
def read_all : List (Nat × Nat) → HttpObfsStream → List (Except (Poll.Stop io.Error) (List UInt8)) × HttpObfsStream
  | [], this => ([], this)
  | (now, remaining) :: polls, this =>
    let (result, next) := poll_read now remaining this
    let (results, last) := read_all polls next
    (result :: results, last)

/-- A stream that has nothing to write and has read nothing. -/
structure Idle (this : HttpObfsStream) : Prop where
  pending : this.pending = []
  failed : this.failed = false
  upgraded : this.upgraded = false
  response : this.response = []
  received : this.inner.received = []

/-- Where a stream of reads stands. -/
inductive Standing (stream : List UInt8) (deadline : Option Nat) (given : List UInt8) (this : HttpObfsStream) : Prop
  | alive (hreading : Reading given this) (hsending : Sending stream this.inner) (hfailed : this.failed = false)
    (hpending : this.pending = []) (hopened : this.upgraded = false → .ready [] ∈ this.inner.reads)
    (hdeadline : this.deadline = deadline ∨ this.deadline = none)
  | dead (hfailed : this.failed = true) (hgiven : given = []) (hlength : this.response.length ≤ HEADER_LIMIT)
    (hnone : ∀ rest, ¬ Upgrades stream rest)

/-- What one poll leads to. -/
structure Polled (stream : List UInt8) (deadline : Option Nat) (given : List UInt8) (remaining : Nat)
    (this next : HttpObfsStream) (result : Except (Poll.Stop io.Error) (List UInt8)) : Prop where
  standing : Standing stream deadline (given ++ handed result) next
  sane : result ≠ .error .panicked
  stays : this.failed = true → next.failed = true
  quiet : next.failed = false → ∀ error, result ≠ .error (.failed error)
  tells : this.failed = false → next.failed = true → ∃ error, result = .error (.failed error)
  effort : next.failed = true ∨ next.effort ≤ this.effort ∧
    (0 < remaining → next.effort < this.effort ∨ next.effort = 0)

/-- A response that is given up is not the one waited for. -/
theorem not_upgrades_of_broken {now : Nat} {this' : HttpObfsStream}
    (hbroken : Broken (fun wire => wire.received = stream) (fun _ => False) now this this')
    (hsending : Sending stream this'.inner) (htime : this.deadline.any (· ≤ now) = false) (rest : List UInt8) :
    ¬ Upgrades stream rest := by
  cases hbroken with
  | refused hrefused =>
    rw [← hsending.whole]
    exact hrefused _ rest
  | ended hended hnone =>
    rintro ⟨finish, -, hfinish, -⟩
    rw [← hended] at hfinish
    exact hnone finish hfinish.1
  | transport herror => exact herror.elim
  | late hlate =>
    rw [htime] at hlate
    cases hlate

theorem Standing.poll_read {next : HttpObfsStream} {now remaining : Nat}
    {result : Except (Poll.Stop io.Error) (List UInt8)} (hstanding : Standing stream deadline given this)
    (htime : deadline.any (· ≤ now) = false) (hpoll : poll_read now remaining this = (result, next)) :
    Polled stream deadline given remaining this next result := by
  unfold HttpObfsStream.poll_read at hpoll
  by_cases hremaining : remaining = 0
  · rw [if_pos hremaining] at hpoll
    obtain ⟨rfl, rfl⟩ := Prod.mk.inj hpoll
    refine ⟨?_, nofun, id, nofun, fun hfalse htrue => ?_, .inr ⟨Nat.le_refl _, fun hpos => absurd hremaining hpos.ne'⟩⟩
    · rw [handed, List.append_nil]
      exact hstanding
    · rw [hfalse] at htrue
      cases htrue
  rw [if_neg hremaining] at hpoll
  have hpos := Nat.pos_of_ne_zero hremaining
  cases hstanding with
  | dead hfailed hgiven hlength hnone =>
    rw [Act.run_bind_of_error (drain_of_failed now hfailed)] at hpoll
    obtain ⟨rfl, rfl⟩ := Prod.mk.inj hpoll
    refine ⟨.dead hfailed ?_ hlength hnone, nofun, id, fun hfalse => ?_, fun hfalse => ?_, .inl hfailed⟩
    · rw [hgiven]
      rfl
    · rw [hfailed] at hfalse
      cases hfalse
    · rw [hfailed] at hfalse
      cases hfalse
  | alive hreading hsending hfailed hpending hopened hdeadline =>
    have hlater : ∀ {deadline' : Option Nat}, deadline' = this.deadline ∨ deadline' = none →
        deadline' = deadline ∨ deadline' = none := by
      rintro deadline' (rfl | rfl)
      · exact hdeadline
      · exact .inr rfl
    have htime' : this.deadline.any (· ≤ now) = false := by
      obtain heq | heq := hdeadline
      · rw [heq, htime]
      · rw [heq]
        rfl
    have hstays : this.failed = true → next.failed = true := by
      intro htrue
      rw [hfailed] at htrue
      cases htrue
    have hwp := @wp_read_loop _ _ _ _ now _ (peer_of_sending stream) _ _ hreading hfailed hsending hopened hpos
    rw [Act.run_bind_of_ok (drain_of_empty now hpending hfailed)] at hpoll
    cases result with
    | ok bytes =>
      obtain ⟨hwaits, heffort⟩ := Act.wp_ok hwp hpoll
      refine ⟨.alive hwaits.reading hwaits.holds hwaits.failed (hwaits.quiet.pending.trans hpending) hwaits.opened
        (hlater hwaits.quiet.deadline), nofun, hstays, fun _ => nofun, fun _ htrue => ?_,
        .inr ⟨hwaits.effort, fun _ => heffort⟩⟩
      rw [hwaits.failed] at htrue
      cases htrue
    | error stop =>
      obtain ⟨hends, hquiet, hsending'⟩ := Act.wp_error hwp hpoll
      cases hends with
      | pending hreading' hfailed' heffort hopened' =>
        refine ⟨.alive ?_ hsending' hfailed' (hquiet.pending.trans hpending) hopened' (hlater hquiet.deadline), nofun,
          hstays, fun _ => nofun, fun _ htrue => ?_, .inr ⟨by omega, fun _ => heffort⟩⟩
        · rw [handed, List.append_nil]
          exact hreading'
        · rw [hfailed'] at htrue
          cases htrue
      | @broken error hupgraded hgiven hfailed' hlength hbroken =>
        refine ⟨.dead hfailed' ?_ hlength (not_upgrades_of_broken hbroken hsending' htime'), nofun, hstays,
          fun hfalse => ?_, fun _ _ => ⟨error, rfl⟩, .inl hfailed'⟩
        · rw [hgiven]
          rfl
        · rw [hfailed'] at hfalse
          cases hfalse
      | later _ _ _ herror => exact herror.elim

/-- Polls with room for a byte. -/
def asking (polls : List (Nat × Nat)) : Nat :=
  polls.countP fun poll => 0 < poll.2

/-- What a run of polls leads to. -/
structure Ran (stream : List UInt8) (deadline : Option Nat) (given : List UInt8) (polls : List (Nat × Nat))
    (this last : HttpObfsStream) (results : List (Except (Poll.Stop io.Error) (List UInt8))) : Prop where
  standing : Standing stream deadline (given ++ delivered results) last
  sane : .error .panicked ∉ results
  stays : this.failed = true → last.failed = true
  quiet : last.failed = false → ∀ error, .error (.failed error) ∉ results
  tells : this.failed = false → last.failed = true → ∃ error, .error (.failed error) ∈ results
  effort : this.effort ≤ asking polls → last.failed = true ∨ last.effort = 0

theorem Standing.read_all (hstanding : Standing stream deadline given this) {polls : List (Nat × Nat)}
    (htime : ∀ poll ∈ polls, deadline.any (· ≤ poll.1) = false) :
    Ran stream deadline given polls this (read_all polls this).2 (read_all polls this).1 := by
  induction polls generalizing given this with
  | nil =>
    refine ⟨?_, List.not_mem_nil, id, fun _ _ => List.not_mem_nil, fun hfalse htrue => ?_, fun hle => .inr (Nat.le_zero.1 hle)⟩
    · change Standing stream deadline (given ++ []) this
      rwa [List.append_nil]
    · rw [show this.failed = true from htrue] at hfalse
      cases hfalse
  | cons poll polls ih =>
    obtain ⟨now, remaining⟩ := poll
    cases hpoll : HttpObfsStream.poll_read now remaining this with
    | mk result next =>
      have hpolled := hstanding.poll_read (htime _ List.mem_cons_self) hpoll
      have hran := ih hpolled.standing fun poll hmem => htime poll (List.mem_cons_of_mem _ hmem)
      have hall : HttpObfsStream.read_all ((now, remaining) :: polls) this =
          (result :: (HttpObfsStream.read_all polls next).1, (HttpObfsStream.read_all polls next).2) := by
        rw [HttpObfsStream.read_all, hpoll]
      rw [hall]
      refine ⟨?_, ?_, fun htrue => hran.stays (hpolled.stays htrue), ?_, ?_, ?_⟩
      · rw [delivered_cons, ← List.append_assoc]
        exact hran.standing
      · rw [List.mem_cons, not_or]
        exact ⟨fun heq => hpolled.sane heq.symm, hran.sane⟩
      · intro hfalse error
        have hnext : next.failed = false := Bool.eq_false_iff.2 fun htrue => Bool.eq_false_iff.1 hfalse (hran.stays htrue)
        rw [List.mem_cons, not_or]
        exact ⟨fun heq => hpolled.quiet hnext error heq.symm, hran.quiet hfalse error⟩
      · intro hfalse htrue
        cases hnext : next.failed with
        | true =>
          obtain ⟨error, rfl⟩ := hpolled.tells hfalse hnext
          exact ⟨error, List.mem_cons_self⟩
        | false =>
          obtain ⟨error, hmem⟩ := hran.tells hnext htrue
          exact ⟨error, List.mem_cons_of_mem _ hmem⟩
      · intro hle
        rcases hpolled.effort with hdead | ⟨hless, hstrict⟩
        · exact .inl (hran.stays hdead)
        · refine hran.effort ?_
          rw [asking, List.countP_cons] at hle
          rw [asking]
          by_cases hpos : 0 < remaining
          · rw [if_pos (decide_eq_true hpos)] at hle
            rcases hstrict hpos with hlt | hzero
            · omega
            · omega
          · rw [if_neg (by simpa using hpos)] at hle
            omega

theorem length_response_le (hstanding : Standing stream deadline given this) : this.response.length ≤ HEADER_LIMIT := by
  cases hstanding with
  | dead _ _ hlength _ => exact hlength
  | alive hreading _ _ _ _ _ =>
    cases hreading with
    | header _ _ _ hlength _ => exact Nat.le_of_lt hlength
    | raw _ _ hlength _ _ => exact hlength

/-- What has been handed out is a front of the stream after the response head. -/
theorem given_front {rest : List UInt8} (hreading : Reading given this) (hsending : Sending stream this.inner)
    (hupgrades : Upgrades stream rest) : given <+: rest := by
  cases hreading with
  | header _ _ _ _ hgiven =>
    rw [hgiven]
    exact List.nil_prefix
  | raw _ hreceived _ _ hgiven =>
    have hmore := hreceived.append (segments this.inner.reads)
    rw [hsending.whole] at hmore
    rw [hupgrades.unique hmore, ← hgiven, List.append_assoc]
    exact List.prefix_append _ _

/-- Once nothing is left to do, all of it has been handed out. -/
theorem upgrades_of_done (hreading : Reading given this) (hsending : Sending stream this.inner)
    (hopened : this.upgraded = false → .ready [] ∈ this.inner.reads) (hdone : this.effort = 0) :
    Upgrades stream given := by
  have hpatience : patience this.inner.reads = 0 := by
    rw [effort] at hdone
    omega
  have hreads : this.inner.reads = [] := by
    rw [patience] at hpatience
    exact List.length_eq_zero_iff.1 (by omega)
  cases hreading with
  | header hupgraded =>
    have hmem := hopened hupgraded
    rw [hreads] at hmem
    cases hmem
  | raw hupgraded hreceived hlength htail hgiven =>
    have hundelivered : this.undelivered = this.response.length - this.tail := if_pos hupgraded
    have hall : this.response.drop this.tail = [] := by
      rw [List.drop_eq_nil_iff]
      rw [effort] at hdone
      omega
    have hwhole := hsending.whole
    rw [hreads] at hwhole
    change this.inner.received ++ [] = stream at hwhole
    rw [List.append_nil] at hwhole
    rw [hall, List.append_nil] at hgiven
    rwa [← hwhole, hgiven]

end HttpObfsStream

open HttpObfsStream in
/-- From a stream that has read nothing, over a transport that gives out the peer's bytes in any nonempty
    segments and then their end, before the deadline: no poll panics and the buffer keeps its limit; if
    the bytes start with the head that is waited for, no poll fails and the bytes after it come in order,
    all of them if there are enough polls; and otherwise no byte comes and the polls fail in the end. -/
theorem poll_read_any_split {this : HttpObfsStream} (hidle : this.Idle)
    {calm ended : List (Answer io.Error (List UInt8))} (hreads : this.inner.reads = calm ++ .ready [] :: ended)
    (hcalm : ∀ answer ∈ calm, answer = .pending ∨ ∃ segment, segment ≠ [] ∧ answer = .ready segment)
    (hended : ∀ answer ∈ ended, answer = .pending ∨ answer = .ready []) {polls : List (Nat × Nat)}
    (htime : ∀ poll ∈ polls, this.deadline.any (· ≤ poll.1) = false) :
    .error .panicked ∉ (read_all polls this).1 ∧ (read_all polls this).2.response.length ≤ HEADER_LIMIT ∧
    (∀ rest, Upgrades (segments calm) rest → delivered (read_all polls this).1 <+: rest ∧
      (∀ error, .error (.failed error) ∉ (read_all polls this).1) ∧
      (this.effort ≤ asking polls → delivered (read_all polls this).1 = rest)) ∧
    ((∀ rest, ¬ Upgrades (segments calm) rest) → delivered (read_all polls this).1 = [] ∧
      (this.effort ≤ asking polls → ∃ error, .error (.failed error) ∈ (read_all polls this).1)) := by
  have hrest : ∀ answer ∈ (.ready [] :: ended : List (Answer io.Error (List UInt8))), answer = .pending ∨ answer = .ready [] := by
    intro answer hanswer
    rcases List.mem_cons.1 hanswer with rfl | hanswer
    · exact .inr rfl
    · exact hended answer hanswer
  have hsending : Sending (segments calm) this.inner := by
    refine ⟨⟨calm, _, hreads, hcalm, hrest⟩, ?_⟩
    rw [hidle.received, hreads, segments, List.flatMap_append, List.nil_append]
    change segments calm ++ segments (.ready [] :: ended) = segments calm
    rw [segments_of_ended hrest, List.append_nil]
  have hheadless : Headless this.response := by
    rw [hidle.response]
    exact (Search.position_eq_none_iff crlf_crlf_ne_nil).1 rfl
  have hreading : Reading [] this := by
    refine .header hidle.upgraded (hidle.response.trans hidle.received.symm) hheadless ?_ rfl
    rw [hidle.response]
    decide
  have hopened : (.ready [] : Answer io.Error (List UInt8)) ∈ this.inner.reads := by
    rw [hreads]
    exact List.mem_append_right _ List.mem_cons_self
  have hstart : Standing (segments calm) this.deadline [] this :=
    .alive hreading hsending hidle.failed hidle.pending (fun _ => hopened) (.inl rfl)
  have hran := hstart.read_all htime
  have hstanding := hran.standing
  rw [List.nil_append] at hstanding
  refine ⟨hran.sane, length_response_le hstanding, ?_, ?_⟩
  · intro rest hupgrades
    cases hstanding with
    | dead _ _ _ hnone => exact absurd hupgrades (hnone rest)
    | alive hreading' hsending' hfailed' _ hopened' _ =>
      refine ⟨given_front hreading' hsending' hupgrades, hran.quiet hfailed', fun hle => ?_⟩
      rcases hran.effort hle with hdead | hdone
      · rw [hdead] at hfailed'
        cases hfailed'
      · exact (upgrades_of_done hreading' hsending' hopened' hdone).unique hupgrades
  · intro hnone
    cases hstanding with
    | dead hfailed' hgiven _ _ => exact ⟨hgiven, fun _ => hran.tells hidle.failed hfailed'⟩
    | alive hreading' hsending' hfailed' _ hopened' _ =>
      refine ⟨?_, fun hle => ?_⟩
      · cases hreading' with
        | header _ _ _ _ hgiven => exact hgiven
        | raw _ hreceived _ _ _ =>
          have hmore := hreceived.append (segments (read_all polls this).2.inner.reads)
          rw [hsending'.whole] at hmore
          exact absurd hmore (hnone _)
      · rcases hran.effort hle with hdead | hdone
        · rw [hdead] at hfailed'
          cases hfailed'
        · exact absurd (upgrades_of_done hreading' hsending' hopened' hdone) (hnone _)

/-- The response head and one byte, with the head cut inside its end. -/
def sampleReads : List (Answer io.Error (List UInt8)) :=
  [.ready (STATUS ++ [13]), .pending, .ready [10, 13, 10, 65]]

def sampleStream : HttpObfsStream where
  inner := ⟨sampleReads ++ [.ready []], [], [], [], [], [], [], false⟩
  host := "example.org"
  port := 80
  started := true
  pending := []
  written := 0
  response := []
  tail := 0
  upgraded := false
  deadline := some 10000
  failed := false

theorem byte_after_head : HttpObfsStream.delivered (HttpObfsStream.read_all (.replicate 40 (0, 1)) sampleStream).1 = [65] := by
  have hidle : sampleStream.Idle := ⟨rfl, rfl, rfl, rfl, rfl⟩
  have hcalm : ∀ answer ∈ sampleReads, answer = .pending ∨ ∃ segment, segment ≠ [] ∧ answer = .ready segment := by
    simp [sampleReads]
  have htime : ∀ poll ∈ List.replicate 40 (0, 1), sampleStream.deadline.any (· ≤ poll.1) = false := by
    intro poll hpoll
    obtain rfl := List.eq_of_mem_replicate hpoll
    rfl
  have hupgrades : Upgrades (segments sampleReads) [65] :=
    ⟨12, 12, (Search.position_eq_some_iff crlf_crlf_ne_nil).1 (by decide), by decide,
      (Search.position_eq_some_iff crlf_ne_nil).1 (by decide), .inl (by decide), by decide⟩
  obtain ⟨-, -, hhead, -⟩ := poll_read_any_split hidle rfl hcalm (List.forall_mem_nil _) htime
  exact (hhead _ hupgrades).2.2 (by decide)

end zc.simple_obfs
